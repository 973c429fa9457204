/-
# What a response comes to

Whatever status and text arrive, a response is exactly one of three things: an answer, a success
that makes no sense, or a rejection.  A rejection has the code and the message of its text if the
text describes one, even where the status says something else, and otherwise the code that the
status stands for.  A call is not made again after a rejection whose code is fatal, and it is told
here of which statuses and which texts this is true.
-/
import Mathlib
import Punter.Http.Response
import Punter.Proofs.Resilience.Attempts
import Punter.Proofs.Service.Codes
import Punter.Proofs.Service.Wire
import Punter.Proofs.Text.Utf8

namespace Punter

/-! ## Codes by their texts -/

namespace ErrorCode

lemma ofText_text (c : ErrorCode) : ofText c.text = c := by
  rw [ofText, all_eq]
  cases c <;> rfl

lemma text_ofText {s : String} (h : ofText s ≠ .unknown) : (ofText s).text = s := by
  unfold ofText at h ⊢
  split
  · next found hfind =>
    have hmem := List.mem_of_find?_eq_some hfind
    have hs := List.find?_some hfind
    rw [all_eq] at hmem
    obtain ⟨c, -, rfl⟩ := List.mem_map.mp hmem
    simpa using hs
  · next hnone =>
    simp only [hnone] at h
    contradiction

/-- A known code is that of its text, and of no other. -/
lemma ofText_eq_iff {c : ErrorCode} (h : c ≠ .unknown) (s : String) :
    ofText s = c ↔ s = c.text := by
  constructor
  · rintro rfl
    exact (text_ofText h).symm
  · rintro rfl
    exact ofText_text c

end ErrorCode

namespace Classifier

/-- The codes of failures that are final where nothing else is said. -/
lemma isFatal_rejected_iff {code : ErrorCode} {status : Option ℕ} {reason : String} :
    standard.isFatal (.rejected code status reason) = true ↔ code ∈ standardCodes := by
  simp [isFatal, isRetryable, ServiceError.code?, standard]

/-- The texts of the codes that are fatal where nothing else is said. -/
def fatalTexts : List String :=
  ["WALLET_LIMIT_EXCEEDED", "INVALID_INPUT", "STATE_ERROR", "NOT_FOUND", "UNAUTHORIZED"]

lemma ofText_mem_standardCodes {s : String} : .ofText s ∈ standardCodes ↔ s ∈ fatalTexts := by
  have hcode : ∀ c ∈ standardCodes, (ErrorCode.ofText s = c ↔ s = c.text) := fun c hc =>
    ErrorCode.ofText_eq_iff (by rintro rfl; simp [standardCodes] at hc) s
  have htexts : fatalTexts = standardCodes.map ErrorCode.text := rfl
  rw [htexts, List.mem_map]
  constructor
  · intro h
    exact ⟨_, h, ((hcode _ h).mp rfl).symm⟩
  · rintro ⟨c, hc, rfl⟩
    rwa [ErrorCode.ofText_text]

end Classifier

namespace Http

/-- The statuses that stand for fatal codes. -/
def fatalStatuses : List ℕ := [400, 401, 402, 403, 404, 409, 422]

lemma codeFor_mem_standardCodes {status : ℕ} :
    codeFor status ∈ Classifier.standardCodes ↔ status ∈ fatalStatuses := by
  unfold codeFor
  simp only [fatalStatuses, List.mem_cons, List.not_mem_nil, or_false]
  split_ifs <;> simp [Classifier.standardCodes] <;> omega

lemma isSuccess_iff {status : ℕ} : isSuccess status = true ↔ status / 100 = 2 := by
  simp only [isSuccess, Bool.and_eq_true, decide_eq_true_eq]
  omega

namespace Response

open Text (bytes)

variable {α T : Type} [Scalar α]

/-- A text that describes why a call is rejected. -/
def Describes (text : String) (r : Rejection α) : Prop :=
  (Rejection.bodyCodec : Codec α (Rejection α)).ofText text = .ok r

/-- A rejection after which a call is not made again. -/
def Final (α : Type) [Scalar α] (status : ℕ) (text : String) : Prop :=
  (∃ r : Rejection α, Describes text r ∧ r.code ∈ Classifier.fatalTexts) ∨
    (∀ r : Rejection α, ¬ Describes text r) ∧ status ∈ fatalStatuses

/-- Each code and each message can be described. -/
lemma exists_describes (code message : String) :
    ∃ text, Describes text (⟨code, message, .none⟩ : Rejection α) := by
  have hdetails : ∀ r, ((Field.optional "details" (Codec.any : Codec α (Json α))).whenSome.orAbsent
      .none).Keeps r .none := fun r =>
    (((Field.Stable.optional Codec.stable_any).whenSome rfl).orAbsent rfl).absent .none rfl
  have htext : ∀ (r : Reading) (name s : String), (Field.required name Codec.string :
      Field α String).Keeps r s := fun r name s =>
    (Field.Stable.required Codec.stable_string).keeps ⟨.str s, rfl⟩
  have hdetail : ∀ {r r' : Reading}, r.enter = .ok r' →
      (Rejection.codec : Codec α (Rejection α)).Keeps r ⟨code, message, .none⟩ := fun enter =>
    Codec.keeps_record enter rfl ⟨htext _ _ code, htext _ _ message, hdetails _, trivial⟩ rfl
  have hbody : (Rejection.bodyCodec : Codec α (Rejection α)).Keeps .ofText ⟨code, message, .none⟩ :=
    Codec.keeps_record rfl rfl
      ⟨(Field.Stable.required Rejection.stable_codec).keeps (hdetail rfl), trivial⟩ rfl
  exact ⟨_, Codec.ofText_toText hbody.legible hbody.recovers⟩

section Decode

variable (c : Codec α T) {status : ℕ} (text : String)

lemma decode_of_success (h : status / 100 = 2) :
    decode c status (bytes text) =
      match c.ofText text with
      | .ok v => .ok v
      | .error _ => .error undecodable := by
  have hanswer : decode c status (bytes text) = answer c (bytes text) :=
    if_pos (isSuccess_iff.mpr h)
  rw [hanswer]
  cases hread : c.ofText text <;> simp only [answer, Text.ofBytes?_bytes, hread]

lemma decode_of_not_success (h : status / 100 ≠ 2) :
    decode c status (bytes text) = .error (rejection α status text) := by
  rw [decode, if_neg (mt isSuccess_iff.mp h), Text.ofBytesLossy_bytes]

variable {text}

lemma rejection_of_describes {r : Rejection α} (h : Describes text r) :
    rejection α status text = .rejected (.ofText r.code) (some status) r.message := by
  rw [rejection, h]

lemma rejection_of_not_describes (h : ∀ r : Rejection α, ¬ Describes text r) :
    rejection α status text =
      .rejected (codeFor status) (some status) (statusText status ++ ": " ++ text) := by
  unfold rejection
  split
  · next r hr => exact (h r hr).elim
  · rfl

lemma isFatal_rejection_iff :
    Classifier.standard.isFatal (rejection α status text) = true ↔ Final α status text := by
  by_cases h : ∃ r : Rejection α, Describes text r
  · obtain ⟨r, hr⟩ := h
    rw [rejection_of_describes hr, Classifier.isFatal_rejected_iff,
      Classifier.ofText_mem_standardCodes]
    constructor
    · intro hcode
      exact .inl ⟨r, hr, hcode⟩
    · rintro (⟨r', hr', hcode⟩ | ⟨hnone, -⟩)
      · obtain rfl : r' = r := Except.ok.inj (hr'.symm.trans hr)
        exact hcode
      · exact (hnone r hr).elim
  · push Not at h
    rw [rejection_of_not_describes h, Classifier.isFatal_rejected_iff, codeFor_mem_standardCodes]
    constructor
    · intro hstatus
      exact .inr ⟨h, hstatus⟩
    · rintro (⟨r, hr, -⟩ | ⟨-, hstatus⟩)
      · exact (h r hr).elim
      · exact hstatus

end Decode

/-- What a status and a text come to. -/
structure Classified (c : Codec α T) (status : ℕ) (text : String) (result : Except ServiceError T) :
    Prop where
  answer : ∀ v, result = .ok v ↔ status / 100 = 2 ∧ c.ofText text = .ok v
  undecodable : (∃ reason, result = .error (.undecodable reason)) ↔
    status / 100 = 2 ∧ ∀ v, c.ofText text ≠ .ok v
  /-- The text says why the call is rejected, whatever the status. -/
  described : status / 100 ≠ 2 → ∀ r : Rejection α, Describes text r →
    result = .error (.rejected (.ofText r.code) (some status) r.message)
  /-- The text says nothing, so that the status has to. -/
  undescribed : status / 100 ≠ 2 → (∀ r : Rejection α, ¬ Describes text r) →
    result = .error (.rejected (codeFor status) (some status) (statusText status ++ ": " ++ text))
  fatal : ∀ e, result = .error e →
    (Classifier.standard.isFatal e = true ↔ status / 100 ≠ 2 ∧ Final α status text)

lemma classified_decode (c : Codec α T) (status : ℕ) (text : String) :
    Classified c status text (decode c status (bytes text)) := by
  by_cases h : status / 100 = 2
  · rw [decode_of_success c text h]
    cases hread : c.ofText text with
    | ok v =>
      refine ⟨fun v' => ?_, ?_, fun h' => absurd h h', fun h' => absurd h h', ?_⟩
      · simp [h, hread]
      · constructor
        · rintro ⟨reason, hreason⟩
          cases hreason
        · rintro ⟨-, hnone⟩
          exact (hnone v hread).elim
      · rintro e he
        cases he
    | error f =>
      refine ⟨fun v => ?_, ?_, fun h' => absurd h h', fun h' => absurd h h', ?_⟩
      · simp [hread]
      · exact iff_of_true ⟨_, rfl⟩ ⟨h, by simp [hread]⟩
      · rintro e he
        obtain rfl := Except.error.inj he
        simp [h, Classifier.isFatal, Classifier.isRetryable, Response.undecodable,
          ServiceError.code?]
  · rw [decode_of_not_success c text h]
    refine ⟨fun v => by simp [h], ?_, fun _ r hr => by rw [rejection_of_describes hr],
      fun _ hnone => by rw [rejection_of_not_describes hnone], ?_⟩
    · refine iff_of_false ?_ fun h' => h h'.1
      rintro ⟨reason, hreason⟩
      unfold rejection at hreason
      split at hreason <;> cases hreason
    · rintro e he
      obtain rfl := Except.error.inj he
      rw [isFatal_rejection_iff]
      exact ⟨fun hfinal => ⟨h, hfinal⟩, And.right⟩

/-- **Responses are classified consistently.**  For all kinds of answers, all statuses and all
texts: the response is an answer precisely when it is a success and its text can be read as one; it
makes no sense precisely when it is a success and cannot be read; and otherwise it is a rejection
with its status, which has the code and the message of its text if the text describes a rejection,
and otherwise the code of the status.  The failures that are final are those rejections whose text
describes one of the fatal codes, or describes nothing while the status stands for one of them; so
after them no other attempt is made, and after the other failures there is one as long as attempts
are left.  A code other than the unknown one is read from its own text and from no other, and each
code and each message can be described. -/
theorem decode_classifies :
    (∀ (c : Codec α T) (status : ℕ) (text : String),
      Classified c status text (decode c status (bytes text))) ∧
    (∀ (c : Codec α T) (status : ℕ) (text : String) (e : ServiceError),
      decode c status (bytes text) = .error e →
      ∀ (W : Type) (b : Backoff) (note : Notice → W → W) (pause : Duration → W → W)
        (op : W → Except ServiceError T × W) (w w' : W) (left attempt : ℕ),
        op w = (.error e, w') →
          (status / 100 ≠ 2 ∧ Final α status text →
            b.attempts Classifier.standard.isRetryable note pause op (left + 1) attempt w =
              (.error e, note (.final e) w')) ∧
          (¬ (status / 100 ≠ 2 ∧ Final α status text) →
            b.attempts Classifier.standard.isRetryable note pause op (left + 1) attempt w =
              b.attempts Classifier.standard.isRetryable note pause op left
                (Number.next32 attempt) (pause (b.delay attempt)
                  (note (.retrying (Number.next32 attempt) (b.delay attempt) e) w')))) ∧
    (∀ (s : String) (code : ErrorCode), code ≠ .unknown →
      (ErrorCode.ofText s = code ↔ s = code.text)) ∧
    ∀ code message : String, ∃ text, Describes text (⟨code, message, .none⟩ : Rejection α) := by
  refine ⟨classified_decode, fun c status text e he W b note pause op w w' left attempt hop => ?_,
    fun s code hcode => ErrorCode.ofText_eq_iff hcode s, exists_describes⟩
  have hfatal := (classified_decode c status text).fatal e he
  constructor
  · intro hfinal
    exact Backoff.attempts_of_final hop (by simpa [Classifier.isFatal] using hfatal.mpr hfinal)
  · intro hfinal
    exact Backoff.attempts_succ hop (by simpa [Classifier.isFatal] using mt hfatal.mp hfinal)

/-- The text has the last word: the status alone would be fatal. -/
example : decode (Health.codec : Codec ℚ Health) 400
    (bytes "\x7b\"error\":\x7b\"code\":\"RATE_LIMIT\",\"message\":\"slow down\"\x7d\x7d") =
      .error (.rejected .rateLimit (some 400) "slow down") := by
  decide +kernel

end Response

end Http

end Punter
