/-
# Wire formats are stable

Whatever text a value of a wire format was read from, it is read again from the text that is
written for it, as the same value (`Codec.Rereads`).  Fields may stand in any order in the first
text, unknown ones among them, or in an array; optional ones may be missing or `null`; and fields
may go by their other names.  None of this is left in the second text, and all of it has become
part of the value.

All that is asked of the first text is that its numbers are read again when the agent writes them.
Every format is stable because its parts are (`Codec.stable_record`), so that there is one short
lemma for each.  Where a record is filled in for a field that is missing, there has to be room for
it.
-/
import Mathlib
import Punter.Proofs.Json.Stable
import Punter.Proofs.Text.Identifiers
import Punter.Proofs.Time.Stamps
import Punter.Experience.Basic
import Punter.Policy.Proposal
import Punter.Resilience.Breaker
import Punter.Service.Error
import Punter.Training.Report

namespace Punter

open Codec

variable {α T : Type} [Scalar α] {r : Reading}

/-! ## Names, identifiers and timestamps -/

lemma Uuid.stable_codec : (Uuid.codec : Codec α Uuid).Stable r :=
  stable_special fun _ u _ => u.parse?_text

lemma Timestamp.stable_codec : (Timestamp.codec : Codec α Timestamp).Stable r :=
  stable_special fun _ _ h => Timestamp.parse?_text h

lemma Currency.stable_codec : (Currency.codec : Codec α Currency).Stable r :=
  stable_variants fun c => by cases c <;> rfl

lemma Phase.stable_codec : (Phase.codec : Codec α Phase).Stable r :=
  stable_variants fun p => by cases p <;> rfl

lemma ActionKind.stable_codec : (ActionKind.codec : Codec α ActionKind).Stable r :=
  stable_variants fun k => by cases k <;> rfl

lemma Behavior.stable_codec : (Behavior.codec : Codec α Behavior).Stable r :=
  stable_variants fun b => by cases b <;> rfl

lemma Termination.stable_codec : (Termination.codec : Codec α Termination).Stable r :=
  stable_variants fun t => by cases t <;> rfl

/-! ## Sessions and actions -/

lemma Money.stable_codec : (Money.codec : Codec α (Money α)).Stable r :=
  stable_record rfl (fun _ _ => ⟨.required stable_scalar, .required Currency.stable_codec, trivial⟩)
    fun _ => rfl

lemma Counters.stable_codec : (Counters.codec : Codec α (Counters α)).Stable r :=
  stable_record rfl (fun _ _ => ⟨.required stable_count64, .required stable_scalar, trivial⟩)
    fun _ => rfl

/-- The counters of a session whose text has none. -/
lemma Counters.keeps_zero (hr : 0 < r.depth) (hzero : Scalar.ReadsBack (0.0 : α)) :
    (Counters.codec : Codec α (Counters α)).Keeps r .zero := by
  obtain ⟨r', enter⟩ := Reading.exists_enter hr
  refine keeps_record enter rfl ⟨?_, ?_, trivial⟩ rfl
  · exact Field.keeps_of_never_omitted (keeps_count (Nat.zero_le _) (by decide)) rfl
  · exact Field.keeps_of_never_omitted (keeps_scalar hzero) rfl

lemma Session.stable_codec (hr : 2 ≤ r.depth) (hzero : Scalar.ReadsBack (0.0 : α)) :
    (Session.codec : Codec α (Session α)).Stable r := by
  refine stable_record rfl (fun r' enter => ?_) fun _ => rfl
  have hdepth := Reading.depth_of_enter enter
  exact ⟨.required Uuid.stable_codec, .required Uuid.stable_codec, .required Phase.stable_codec,
    .standard Counters.stable_codec (Counters.keeps_zero (by omega) hzero), trivial⟩

lemma Player.stable_codec : (Player.codec : Codec α (Player α)).Stable r :=
  stable_record rfl (fun _ _ => ⟨.required stable_string,
    (Field.Stable.optional Money.stable_codec).whenSome rfl, trivial⟩) fun _ => rfl

lemma Opening.stable_codec : (Opening.codec : Codec α (Opening α)).Stable r :=
  stable_record rfl (fun _ _ => ⟨.required Uuid.stable_codec, .required Player.stable_codec,
    trivial⟩) fun _ => rfl

lemma Opened.stable_codec : (Opened.codec : Codec α Opened).Stable r :=
  stable_record rfl (fun _ _ => ⟨.required Uuid.stable_codec, .required Phase.stable_codec,
    trivial⟩) fun _ => rfl

lemma Action.stable_codec : (Action.codec : Codec α (Action α)).Stable r :=
  stable_record rfl (fun _ _ => ⟨.required ActionKind.stable_codec,
    (Field.Stable.optional Money.stable_codec).whenSome rfl, trivial⟩) fun _ => rfl

lemma Play.stable_codec : (Play.codec : Codec α (Play α)).Stable r :=
  stable_record rfl (fun _ _ => ⟨.required Action.stable_codec, .required stable_scalar, trivial⟩)
    fun _ => rfl

lemma PlayResult.stable_codec (hr : 2 ≤ r.depth) :
    (PlayResult.codec : Codec α (PlayResult α)).Stable r := by
  refine stable_record rfl (fun r' enter => ?_) fun _ => rfl
  have hdepth := Reading.depth_of_enter enter
  obtain ⟨r'', enter'⟩ := Reading.exists_enter (r := r') (by omega)
  exact ⟨((Field.Stable.optional Money.stable_codec).whenSome rfl).orAbsent rfl,
    .standard (stable_list fun _ _ => stable_string) (keeps_list enter' nofun), trivial⟩

lemma Played.stable_codec (hr : 3 ≤ r.depth) (hzero : Scalar.ReadsBack (0.0 : α)) :
    (Played.codec : Codec α (Played α)).Stable r := by
  refine stable_record rfl (fun r' enter => ?_) fun _ => rfl
  have hdepth := Reading.depth_of_enter enter
  exact ⟨.required (Session.stable_codec (by omega) hzero),
    .required (PlayResult.stable_codec (by omega)), trivial⟩

/-! ## Experiences and failures -/

lemma Experience.stable_codec : (Experience.codec : Codec α (Experience α)).Stable r :=
  stable_record rfl (fun _ _ => ⟨.required Uuid.stable_codec, .required Uuid.stable_codec,
    .required stable_any, .required stable_any, .required stable_scalar, .required stable_any,
    .required stable_bool,
    (((Field.Stable.optional Timestamp.stable_codec).whenSome rfl).orAbsent rfl).orNamed _,
    trivial⟩) fun _ => rfl

lemma Page.stable_codec : (Page.codec : Codec α (Page α)).Stable r :=
  stable_record rfl (fun _ _ => ⟨.required (stable_list fun _ _ => Experience.stable_codec),
    trivial⟩) fun _ => rfl

lemma Rejection.stable_codec : (Rejection.codec : Codec α (Rejection α)).Stable r :=
  stable_record rfl (fun _ _ => ⟨.required stable_string, .required stable_string,
    ((Field.Stable.optional stable_any).whenSome rfl).orAbsent rfl, trivial⟩) fun _ => rfl

lemma Rejection.stable_bodyCodec : (Rejection.bodyCodec : Codec α (Rejection α)).Stable r :=
  stable_record rfl (fun _ _ => ⟨.required Rejection.stable_codec, trivial⟩) fun _ => rfl

/-! ## Policies, breakers and reports -/

lemma Policy.stable_codec : (Policy.codec : Codec α (Policy α)).Stable r :=
  stable_record rfl (fun _ _ => ⟨.required stable_scalar, .required stable_count64,
    .required stable_scalar, trivial⟩) fun _ => rfl

lemma Breaker.stable_codec : (Breaker.codec : Codec α Breaker).Stable r :=
  stable_record rfl (fun _ _ => ⟨.required stable_count32, .required stable_count32, trivial⟩)
    fun _ => rfl

lemma Summary.stable_codec : (Summary.codec : Codec α (Summary α)).Stable r :=
  stable_record rfl (fun _ _ => ⟨.required stable_size, .optional Uuid.stable_codec,
    .required stable_scalar, .required stable_scalar, .required stable_size,
    .optional Phase.stable_codec, .required stable_scalar, .required stable_scalar,
    .required stable_size, .required stable_scalar, .required stable_scalar,
    .required stable_scalar, .optional Termination.stable_codec, .optional stable_path,
    ((Field.Stable.optional stable_string).whenSome rfl).orAbsent rfl, .optional stable_string,
    trivial⟩) fun _ => rfl

/-- Profiles are filled in from the standard one, whose stakes have to be read again. -/
lemma Profile.stable_codec (hmin : Scalar.ReadsBack (Profile.standard : Profile α).minBet)
    (hmax : Scalar.ReadsBack (Profile.standard : Profile α).maxBet) :
    (Profile.codec : Codec α (Profile α)).Stable r :=
  stable_record rfl (fun _ _ => ⟨.standard stable_scalar (keeps_scalar hmin),
    .standard stable_scalar (keeps_scalar hmax),
    .standard Currency.stable_codec (keeps_variants rfl),
    .standard stable_count64 (keeps_count (show 1600 ≤ UInt64.size - 1 by decide) (by decide)),
    .standard stable_count64 (keeps_count (show 2800 ≤ UInt64.size - 1 by decide) (by decide)),
    ((Field.Stable.optional stable_scalar).whenSome rfl).orAbsent rfl,
    .standard Behavior.stable_codec (keeps_variants rfl), trivial⟩) fun _ => rfl

lemma Report.stable_codec (hmin : Scalar.ReadsBack (Profile.standard : Profile α).minBet)
    (hmax : Scalar.ReadsBack (Profile.standard : Profile α).maxBet) :
    (Report.codec : Codec α (Report α)).Stable r :=
  stable_record rfl (fun _ _ => ⟨.required (stable_list fun _ _ => Summary.stable_codec),
    .required (Profile.stable_codec hmin hmax), .required Policy.stable_codec, trivial⟩)
    fun _ => rfl

/-! ## Proposals -/

namespace Proposal

lemma stable_betCodec : (betCodec : Codec α (Option (Money α))).Stable r :=
  stable_record rfl (fun _ _ => ⟨.optional Money.stable_codec, trivial⟩) fun _ => rfl

/-- Below a bet there is only its stake. -/
lemma forall_mem_betFields (m : Option (Money α)) :
    ∀ x ∈ (betFields : Fields α _ _).members (m, ()), x.1 ≠ "type" ∧ x.2.depth ≤ 1 := by
  have hscalar : ∀ x : α, (Json.ofScalar x).depth = 0 := by
    intro x
    unfold Json.ofScalar
    split <;> rfl
  have hmembers : (betFields : Fields α _ _).members (m, ()) =
      [("amount", Money.codec.option.write m)] := rfl
  rw [hmembers, List.forall_mem_singleton]
  refine ⟨show "amount" ≠ "type" by decide, ?_⟩
  cases m with
  | none => exact Nat.zero_le _
  | some m =>
    obtain ⟨amount, currency⟩ := m
    have hwrite : Money.codec.option.write (some ⟨amount, currency⟩) =
        .obj [("amount", .ofScalar amount), ("currency", .str currency.code)] := rfl
    rw [hwrite]
    simp [Json.depth, Json.depthMembers, hscalar]

lemma readTagged_write {r' : Reading} (enter : r.enter = .ok r') {name : String} {k : ActionKind}
    (hname : variantOf ActionKind.all none name = .ok k) {ms : List (String × Json α)}
    (h : ∀ m ∈ ms, m.1 ≠ "type" ∧ m.2.depth ≤ r'.depth) :
    readTagged "internally tagged enum ActionProposal" "type" ActionKind.all r
      (.ofJson (.obj (("type", .str name) :: ms))) = .ok (k, .ofJson (.obj ms)) :=
  Codec.readTagged_write enter hname h

lemma keeps_placeBet (hr : 2 ≤ r.depth) {m : Option (Money α)}
    (h : (betCodec : Codec α (Option (Money α))).Keeps ⟨.buffer, r.depth⟩ m) :
    (codec : Codec α (Proposal α)).Keeps r (placeBet m) := by
  obtain ⟨r', enter⟩ := Reading.exists_enter (r := r) (by omega)
  have hdepth := Reading.depth_of_enter enter
  have hmembers := forall_mem_betFields m
  obtain ⟨legible, recovers⟩ := h
  have hwrite : codec.write (placeBet m) =
      .obj (("type", .str "PlaceBet") :: betFields.members (m, ())) := rfl
  have hread : betCodec.read ⟨.buffer, r.depth⟩ (.ofJson (.obj (betFields.members (m, ())))) =
      .ok m := recovers
  have htag := readTagged_write enter (show variantOf ActionKind.all none "PlaceBet" = .ok .placeBet
    from rfl) fun x hx => ⟨(hmembers x hx).1, (hmembers x hx).2.trans (by omega)⟩
  refine ⟨?_, ?_⟩
  · rw [hwrite]
    cases legible with
    | obj h => exact .obj (List.forall_mem_cons.mpr ⟨.str _, h⟩)
  · rw [Recovers, hwrite]
    simp only [codec, htag, bind, Except.bind, hread]
    rfl

/-- Proposals other than bets carry nothing. -/
lemma keeps_bare (hr : 0 < r.depth) {p : Proposal α} (hp : p = spin ∨ p = cashOut) :
    (codec : Codec α (Proposal α)).Keeps r p := by
  obtain ⟨r', enter⟩ := Reading.exists_enter hr
  have htag : ∀ {name : String} {k : ActionKind}, variantOf ActionKind.all none name = .ok k →
      readTagged "internally tagged enum ActionProposal" "type" ActionKind.all r
        (.ofJson (.obj [("type", .str name)] : Json α)) = .ok (k, .ofJson (.obj [])) :=
    fun hname => readTagged_write enter hname nofun
  rcases hp with rfl | rfl
  · refine ⟨.obj (List.forall_mem_singleton.mpr (.str _)), ?_⟩
    have hspin := htag (show variantOf ActionKind.all none "Spin" = .ok .spin from rfl)
    change (codec : Codec α (Proposal α)).read r (.ofJson (.obj [("type", .str "Spin")])) = .ok spin
    simp only [codec, hspin, bind, Except.bind]
    rfl
  · refine ⟨.obj (List.forall_mem_singleton.mpr (.str _)), ?_⟩
    have hcashOut := htag (show variantOf ActionKind.all none "CashOut" = .ok .cashOut from rfl)
    change (codec : Codec α (Proposal α)).read r (.ofJson (.obj [("type", .str "CashOut")])) =
      .ok cashOut
    simp only [codec, hcashOut, bind, Except.bind]
    rfl

lemma stable_codec (hr : 2 ≤ r.depth) : (codec : Codec α (Proposal α)).Stable r where
  keeps sound hread := by
    obtain ⟨⟨kind, rest⟩, htag, hread⟩ := exists_of_bind_eq_ok hread
    have hrest := sound_of_readTagged sound htag
    cases kind with
    | placeBet =>
      obtain ⟨m, hm, rfl⟩ := exists_of_map_eq_ok hread
      exact keeps_placeBet hr (stable_betCodec.keeps hrest hm)
    | spin =>
      obtain ⟨u, -, rfl⟩ := exists_of_map_eq_ok hread
      exact keeps_bare (by omega) (.inl rfl)
    | cashOut =>
      obtain ⟨u, -, rfl⟩ := exists_of_map_eq_ok hread
      exact keeps_bare (by omega) (.inr rfl)
  ne_null {_ v} _ _ _ := by cases v <;> nofun

end Proposal

/-! ## Texts -/

namespace Codec

/-- Whatever text a value was read from whose numbers are read again, the value is read again from
each of the two texts that are written for it, without blanks and on many lines; and what is read
there is written as the same text. -/
def Rereads (c : Codec α T) : Prop :=
  ∀ (s : String) (v : T),
    (∀ n ∈ (Outline.scan s.toList : Outline.Scan α).1.numbers, Scalar.ReadsBack n.toScalar) →
    c.ofText s = .ok v →
      ∀ text ∈ [c.toText v, (c.write v).pretty],
        c.ofText text = .ok v ∧ (c.ofText text).map c.toText = .ok (c.toText v)

variable {c : Codec α T}

lemma read_of_ofText {s : String} {v : T} (h : c.ofText s = .ok v) :
    c.read .ofText (Outline.scan s.toList).1 = .ok v := by
  unfold ofText at h
  dsimp only at h
  split at h
  · cases h
  · next hread _ =>
    split at h
    · cases h
      exact hread
    · cases h
  · cases h

lemma Stable.keeps_of_ofText (h : c.Stable .ofText) {s : String}
    (numbers : ∀ n ∈ (Outline.scan s.toList : Outline.Scan α).1.numbers,
      Scalar.ReadsBack n.toScalar) {v : T} (hread : c.ofText s = .ok v) : c.Keeps .ofText v :=
  h.keeps (fun n hn => ⟨Outline.fits_of_scan _ n hn, numbers n hn⟩) (read_of_ofText hread)

lemma Stable.rereads (h : c.Stable .ofText) : c.Rereads := by
  intro s v numbers hread text htext
  obtain ⟨legible, recovers⟩ := h.keeps_of_ofText numbers hread
  have hagain := ofText_of_isText (legible.isText text htext) recovers
  exact ⟨hagain, by rw [hagain]; rfl⟩

/-- **Wire formats are stable.**  Sessions, what opens them, players, actions, plays and what comes
of them, pages of experiences, experiences, failures, proposals, policies, breakers and reports are
read again from what is written for them, whatever text they were read from.  The three numbers are
those that stand in for what a text leaves out. -/
theorem wire_formats_reread
    (literals : ∀ x ∈ [0.0, 1.0, 10.0], Scalar.ReadsBack (x : α)) :
    (Session.codec : Codec α _).Rereads ∧ (Opening.codec : Codec α _).Rereads ∧
      (Opened.codec : Codec α _).Rereads ∧ (Player.codec : Codec α _).Rereads ∧
      (Action.codec : Codec α _).Rereads ∧ (Play.codec : Codec α _).Rereads ∧
      (Played.codec : Codec α _).Rereads ∧ (PlayResult.codec : Codec α _).Rereads ∧
      (Page.codec : Codec α _).Rereads ∧ (Experience.codec : Codec α _).Rereads ∧
      (Rejection.bodyCodec : Codec α _).Rereads ∧ (Proposal.codec : Codec α _).Rereads ∧
      (Policy.codec : Codec α _).Rereads ∧ (Breaker.codec : Codec α _).Rereads ∧
      (Report.codec : Codec α _).Rereads := by
  have hzero : Scalar.ReadsBack (0.0 : α) := literals _ (by simp)
  have hmin : Scalar.ReadsBack (1.0 : α) := literals _ (by simp)
  have hmax : Scalar.ReadsBack (10.0 : α) := literals _ (by simp)
  have hdepth : 3 ≤ Reading.ofText.depth := by decide
  exact ⟨(Session.stable_codec (by omega) hzero).rereads, Opening.stable_codec.rereads,
    Opened.stable_codec.rereads, Player.stable_codec.rereads, Action.stable_codec.rereads,
    Play.stable_codec.rereads, (Played.stable_codec hdepth hzero).rereads,
    (PlayResult.stable_codec (by omega)).rereads, Page.stable_codec.rereads,
    Experience.stable_codec.rereads, Rejection.stable_bodyCodec.rereads,
    (Proposal.stable_codec (by omega)).rereads, Policy.stable_codec.rereads,
    Breaker.stable_codec.rereads, (Report.stable_codec hmin hmax).rereads⟩

/-- A session without counters, with something unknown in front and with identifiers of another
form; an action that is an array, with `null` for its stake; and a bet whose tag comes last. -/
theorem wire_formats_reread_three :
    let literals : List ℚ := [0.0, 1.0, 10.0]
    let opened := "\x7b\"x\":[0.5],\"state\":\"Idle\",\"gameId\":" ++
      "\"00000000000000000000000000000000\"," ++
      "\"sessionId\":\"000000000000000000000000000000FF\"\x7d"
    let session : Session ℚ := ⟨⟨0xff⟩, .nil, .idle, .zero⟩
    let played := "[\"Spin\",null]"
    let action : Action ℚ := ⟨.spin, none⟩
    let tagged :=
      "\x7b\"amount\":\x7b\"currency\":\"AUD\",\"amount\":0.5\x7d,\"type\":\"PlaceBet\"\x7d"
    let bet : Proposal ℚ := .placeBet (some ⟨1 / 2, .aud⟩)
    (∀ x ∈ literals, Scalar.ReadsBack x) ∧
      (Session.codec.ofText opened = .ok session ∧
        Session.codec.ofText (Session.codec.toText session) = .ok session) ∧
      (Action.codec.ofText played = .ok action ∧
        Action.codec.toText action = "\x7b\"type\":\"Spin\"\x7d" ∧
        Action.codec.ofText (Action.codec.toText action) = .ok action) ∧
      Proposal.codec.ofText tagged = .ok bet ∧
        Proposal.codec.toText bet =
          "\x7b\"type\":\"PlaceBet\",\"amount\":\x7b\"amount\":0.5,\"currency\":\"AUD\"\x7d\x7d" ∧
        Proposal.codec.ofText (Proposal.codec.toText bet) = .ok bet := by
  intro literals opened session played action tagged bet
  have hliterals : ∀ x ∈ literals, Scalar.ReadsBack x := by decide +kernel
  have hsession : Session.codec.ofText opened = .ok session := by decide +kernel
  have haction : Action.codec.ofText played = .ok action := by decide +kernel
  have hbet : Proposal.codec.ofText tagged = .ok bet := by decide +kernel
  obtain ⟨ofSession, -, -, -, ofAction, -, -, -, -, -, -, ofProposal, -⟩ :=
    wire_formats_reread hliterals
  refine ⟨hliterals, ⟨hsession, ?_⟩, ⟨haction, by decide +kernel, ?_⟩, hbet, by decide +kernel, ?_⟩
  · exact (ofSession _ _ (by decide +kernel) hsession _ List.mem_cons_self).1
  · exact (ofAction _ _ (by decide +kernel) haction _ List.mem_cons_self).1
  · exact (ofProposal _ _ (by decide +kernel) hbet _ List.mem_cons_self).1

end Codec

end Punter
