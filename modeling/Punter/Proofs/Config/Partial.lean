/-
# Configuration files

A configuration file gives some of the sections, and some of the fields of these, in any order.
What it gives is a `Config.Part`.  It says what the configuration is: the standard one, with what
the file gives in place of what it has there, and everything else as it is (`Config.Part.overlay`).

Files that are written for a configuration give everything, so that loading one of them gives the
configuration it was written for.
-/
import Mathlib
import Punter.Proofs.Config.Sections
import Punter.Proofs.Json.Overlay
import Punter.Cli.Program

namespace Punter

open Codec Json

variable {α : Type}

/-! ## What values of configurations mean -/

/-- A length of time in whole milliseconds. -/
inductive Json.IsMillis : Json α → Duration → Prop
  | count {j : Json α} {n : ℕ} (h : j.IsCount (UInt64.size - 1) n) : IsMillis j (.ofMillis n)

/-- The names under which fatal codes are given.  Any text that is not that of a code means a code
that is not known. -/
inductive ErrorCode.Named : String → ErrorCode → Prop
  | known (c : ErrorCode) : Named c.text c
  | unknown {s : String} (h : ∀ c : ErrorCode, c.text ≠ s) : Named s .unknown

namespace Config

/-! ## Parts of sections -/

/-- What a file gives for the connection. -/
structure Remote.Part (α : Type) where
  baseUrl : Option (Given (@IsString α))
  apiKey : Option (Given (@IsString α))
  timeout : Option (Given (@IsCount α (UInt64.size - 1)))
  game : Option (Given (IsOption (@IsSpecial α _ Uuid.parse?)))

namespace Remote.Part

/-- The members of the section. -/
def members (p : Part α) : List (String × Json α) :=
  [Given.members "base_url" p.baseUrl, Given.members "api_key" p.apiKey,
    Given.members "timeout_secs" p.timeout, Given.members "game_id" p.game].flatten

/-- The section with what is given. -/
def overlay (p : Part α) (s : Remote) : Remote where
  baseUrl := Given.orElse p.baseUrl s.baseUrl
  apiKey := Given.orElse p.apiKey s.apiKey
  timeout := Given.orElse p.timeout s.timeout
  game := Given.orElse p.game s.game

end Remote.Part

/-- What a file gives for retries.  The fields of the backoff stand beside the codes. -/
structure Retry.Part (α : Type) where
  maxRetries : Option (Given (@IsCount α (UInt32.size - 1)))
  base : Option (Given (@IsMillis α))
  cap : Option (Given (@IsMillis α))
  codes : Option (Given (IsList (@IsVariant α _ ErrorCode.Named)))

namespace Retry.Part

/-- The members for the backoff. -/
def backoffMembers (p : Part α) : List (String × Json α) :=
  [Given.members "max_retries" p.maxRetries, Given.members "base_delay" p.base,
    Given.members "cap_delay" p.cap].flatten

/-- The members of the section. -/
def members (p : Part α) : List (String × Json α) :=
  p.backoffMembers ++ Given.members "fatal_codes" p.codes

/-- The section with what is given. -/
def overlay (p : Part α) (s : Retrier) : Retrier where
  backoff :=
    { maxRetries := Given.orElse p.maxRetries s.backoff.maxRetries
      base := Given.orElse p.base s.backoff.base
      cap := Given.orElse p.cap s.backoff.cap }
  classifier := ⟨Given.orElse p.codes s.classifier.fatal⟩

end Retry.Part

/-- What a file gives for the breaker. -/
structure Breaker.Part (α : Type) where
  threshold : Option (Given (@IsCount α (UInt32.size - 1)))

namespace Breaker.Part

/-- The members of the section. -/
def members (p : Part α) : List (String × Json α) :=
  [Given.members "threshold" p.threshold].flatten

/-- The section with what is given. -/
def overlay (p : Part α) (threshold : ℕ) : ℕ := Given.orElse p.threshold threshold

end Breaker.Part

variable [Scalar α]

/-- What a file gives for the policy. -/
structure Start.Part (α : Type) [Scalar α] where
  epsilon : Option (Given (@IsNumber α _))
  decayRate : Option (Given (@IsNumber α _))

namespace Start.Part

/-- The members of the section. -/
def members (p : Part α) : List (String × Json α) :=
  [Given.members "initial_epsilon" p.epsilon, Given.members "decay_rate" p.decayRate].flatten

/-- The section with what is given. -/
def overlay (p : Part α) (s : Start α) : Start α where
  epsilon := Given.orElse p.epsilon s.epsilon
  decayRate := Given.orElse p.decayRate s.decayRate

end Start.Part

end Config

/-- What a file gives for the profile. -/
structure Profile.Part (α : Type) [Scalar α] where
  minBet : Option (Given (@IsNumber α _))
  maxBet : Option (Given (@IsNumber α _))
  currency : Option (Given (@IsVariant α Currency fun s c => s = c.code))
  minDelay : Option (Given (@IsCount α (UInt64.size - 1)))
  maxDelay : Option (Given (@IsCount α (UInt64.size - 1)))
  rewardWeight : Option (Given (IsOption (@IsNumber α _)))
  behavior : Option (Given (@IsVariant α Behavior fun s b => s = b.label))

namespace Profile.Part

variable [Scalar α]

/-- The members of the section. -/
def members (p : Part α) : List (String × Json α) :=
  [Given.members "min_bet" p.minBet, Given.members "max_bet" p.maxBet,
    Given.members "currency" p.currency, Given.members "delay_ms_min" p.minDelay,
    Given.members "delay_ms_max" p.maxDelay, Given.members "reward_weight" p.rewardWeight,
    Given.members "behavior_type" p.behavior].flatten

/-- The section with what is given. -/
def overlay (p : Part α) (s : Profile α) : Profile α where
  minBet := Given.orElse p.minBet s.minBet
  maxBet := Given.orElse p.maxBet s.maxBet
  currency := Given.orElse p.currency s.currency
  minDelay := Given.orElse p.minDelay s.minDelay
  maxDelay := Given.orElse p.maxDelay s.maxDelay
  rewardWeight := Given.orElse p.rewardWeight s.rewardWeight
  behavior := Given.orElse p.behavior s.behavior

end Profile.Part

/-- What a file gives for training. -/
structure Config.Training.Part (α : Type) where
  episodes : Option (Given (@IsCount α (UInt64.size - 1)))
  outputDir : Option (Given (@IsString α))
  maxSteps : Option (Given (@IsCount α (UInt64.size - 1)))
  pageSize : Option (Given (@IsCount α (UInt32.size - 1)))
  window : Option (Given (@IsCount α (UInt64.size - 1)))
  abortOnError : Option (Given (@IsFlag α))
  fixedDelay : Option (Given (IsOption (@IsCount α (UInt64.size - 1))))

namespace Config.Training.Part

/-- The members of the section. -/
def members (p : Part α) : List (String × Json α) :=
  [Given.members "episodes" p.episodes, Given.members "output_dir" p.outputDir,
    Given.members "max_steps" p.maxSteps, Given.members "export_page_size" p.pageSize,
    Given.members "adaptation_window" p.window, Given.members "abort_on_error" p.abortOnError,
    Given.members "delay_override_ms" p.fixedDelay].flatten

/-- The section with what is given. -/
def overlay (p : Part α) (s : Training) : Training where
  episodes := Given.orElse p.episodes s.episodes
  outputDir := Given.orElse p.outputDir s.outputDir
  maxSteps := Given.orElse p.maxSteps s.maxSteps
  pageSize := Given.orElse p.pageSize s.pageSize
  window := Given.orElse p.window s.window
  abortOnError := Given.orElse p.abortOnError s.abortOnError
  fixedDelay := Given.orElse p.fixedDelay s.fixedDelay

end Config.Training.Part

/-- What a file gives for the simulated service. -/
structure Simulation.Settings.Part (α : Type) [Scalar α] where
  spinsPerSession : Option (Given (@IsCount α (UInt64.size - 1)))
  winProbability : Option (Given (@IsNumber α _))
  startingBalance : Option (Given (@IsNumber α _))
  costPerSpin : Option (Given (@IsNumber α _))
  likenessWeight : Option (Given (@IsNumber α _))
  probeRound : Option (Given (@IsFlag α))
  rejectInvalid : Option (Given (@IsFlag α))
  enforceMaxBet : Option (Given (@IsFlag α))
  retained : Option (Given (@IsCount α (UInt64.size - 1)))

namespace Simulation.Settings.Part

variable [Scalar α]

/-- The members of the section. -/
def members (p : Part α) : List (String × Json α) :=
  [Given.members "spins_per_session" p.spinsPerSession,
    Given.members "win_probability" p.winProbability,
    Given.members "starting_balance" p.startingBalance,
    Given.members "cost_per_spin" p.costPerSpin,
    Given.members "human_likeness_weight" p.likenessWeight,
    Given.members "probe_round" p.probeRound,
    Given.members "reject_invalid_actions" p.rejectInvalid,
    Given.members "enforce_max_bet" p.enforceMaxBet,
    Given.members "retained_sessions" p.retained].flatten

/-- The section with what is given. -/
def overlay (p : Part α) (s : Settings α) : Settings α where
  spinsPerSession := Given.orElse p.spinsPerSession s.spinsPerSession
  winProbability := Given.orElse p.winProbability s.winProbability
  startingBalance := Given.orElse p.startingBalance s.startingBalance
  costPerSpin := Given.orElse p.costPerSpin s.costPerSpin
  likenessWeight := Given.orElse p.likenessWeight s.likenessWeight
  probeRound := Given.orElse p.probeRound s.probeRound
  rejectInvalid := Given.orElse p.rejectInvalid s.rejectInvalid
  enforceMaxBet := Given.orElse p.enforceMaxBet s.enforceMaxBet
  retained := Given.orElse p.retained s.retained

end Simulation.Settings.Part

/-! ## Parts of configurations -/

namespace Config

variable [Scalar α]

/-- What a file gives: objects for some of the sections, with some of their fields. -/
structure Part (α : Type) [Scalar α] where
  remote : Option (Given (IsObject (@Remote.Part.members α)))
  retrier : Option (Given (IsObject (@Retry.Part.members α)))
  breaker : Option (Given (IsObject (@Breaker.Part.members α)))
  start : Option (Given (IsObject (@Start.Part.members α _)))
  profile : Option (Given (IsObject (@Profile.Part.members α _)))
  training : Option (Given (IsObject (@Training.Part.members α)))
  simulation : Option (Given (IsObject (@Simulation.Settings.Part.members α _)))

namespace Part

/-- The members of the configuration. -/
def members (p : Part α) : List (String × Json α) :=
  [Given.members "service" p.remote, Given.members "retry" p.retrier,
    Given.members "breaker" p.breaker, Given.members "policy" p.start,
    Given.members "profile" p.profile, Given.members "training" p.training,
    Given.members "mock" p.simulation].flatten

/-- The configuration with what is given. -/
def overlay (p : Part α) (c : Config α) : Config α where
  remote := (p.remote.map (·.value.overlay c.remote)).getD c.remote
  retrier := (p.retrier.map (·.value.overlay c.retrier)).getD c.retrier
  breakerThreshold := (p.breaker.map (·.value.overlay c.breakerThreshold)).getD c.breakerThreshold
  start := (p.start.map (·.value.overlay c.start)).getD c.start
  profile := (p.profile.map (·.value.overlay c.profile)).getD c.profile
  training := (p.training.map (·.value.overlay c.training)).getD c.training
  simulation := (p.simulation.map (·.value.overlay c.simulation)).getD c.simulation

end Part

end Config

/-! ## Reading sections -/

section Names

variable [Scalar α] {r r' : Reading} {s : String}

lemma takes_millisCodec : (Duration.millisCodec : Codec α Duration).Takes r IsMillis := by
  rintro j _ ⟨h⟩
  have hread : (count64 : Codec α ℕ).read r (.ofJson j) = .ok _ := takes_count _ _ h
  simp only [Duration.millisCodec, hread]
  rfl

/-- The names that a value has are those in a table. -/
lemma ErrorCode.variantOf_of_named {c : ErrorCode} (h : ErrorCode.Named s c) :
    variantOf ErrorCode.all (some .unknown) s = .ok c := by
  cases h with
  | known c => exact c.label_eq_text ▸ c.variantOf_label
  | unknown hs =>
    have hnone : ErrorCode.all.find? (fun c => c.1 = s) = none := by
      simp [ErrorCode.all_eq, hs]
    simp only [variantOf, hnone]

lemma ErrorCode.takes_codec (hr : 0 < r.depth) :
    (ErrorCode.codec : Codec α ErrorCode).Takes r (IsVariant ErrorCode.Named) :=
  takes_variants (fun _ _ h => ErrorCode.variantOf_of_named h) hr

lemma Currency.takes_codec (hr : 0 < r.depth) :
    (Currency.codec : Codec α Currency).Takes r (IsVariant fun s c => s = c.code) :=
  takes_variants (by rintro _ (_ | _ | _) rfl <;> rfl) hr

lemma Behavior.takes_codec (hr : 0 < r.depth) :
    (Behavior.codec : Codec α Behavior).Takes r (IsVariant fun s b => s = b.label) :=
  takes_variants (by rintro _ (_ | _ | _) rfl <;> rfl) hr

end Names

section Read

variable [Scalar α] {r r' : Reading} {j : Json α}

namespace Config

lemma Remote.read_part (enter : r.enter = .ok r') (p : Part α) (h : j.IsObject Part.members p) :
    Remote.codec.read r (.ofJson j) = .ok (p.overlay .standard) := by
  obtain ⟨perm⟩ := h
  exact read_overlay enter perm (.cons (Given.tells (takes_stringNamed _) p.baseUrl) <|
    .cons (Given.tells (takes_stringNamed _) p.apiKey) <|
    .cons (Given.tells takes_count p.timeout) <|
    .cons (Given.tells (takes_option takes_special nofun) p.game) .nil) rfl rfl rfl

namespace Retry

omit [Scalar α] in
lemma forall_mem_backoffMembers (p : Part α) :
    ∀ m ∈ p.backoffMembers, m.1 ≠ codesName ∧ m.2.depth ≤ r.depth := by
  have hcount : ∀ {bound : ℕ} {j : Json α} {n : ℕ}, j.IsCount bound n → j.depth ≤ r.depth := by
    rintro _ _ _ ⟨-⟩
    exact Nat.zero_le _
  have hmillis : ∀ {j : Json α} {d : Duration}, j.IsMillis d → j.depth ≤ r.depth := by
    rintro _ _ ⟨h⟩
    exact hcount h
  have hnames : "max_retries" ≠ codesName ∧ "base_delay" ≠ codesName ∧ "cap_delay" ≠ codesName := by
    decide
  rw [Part.backoffMembers, List.forall_mem_flatten, List.forall_mem_cons, List.forall_mem_cons,
    List.forall_mem_singleton]
  exact ⟨Given.forall_mem_members fun _ _ h => ⟨hnames.1, hcount h⟩,
    Given.forall_mem_members fun _ _ h => ⟨hnames.2.1, hmillis h⟩,
    Given.forall_mem_members fun _ _ h => ⟨hnames.2.2, hmillis h⟩⟩

/-- The codes are picked out of the members of the section, in whatever order these are. -/
lemma exists_takeCodes (hr : 2 ≤ r.depth) (p : Part α) {ms : List (String × Json α)}
    (perm : ms.Perm p.members) :
    ∃ others, others.Perm p.backoffMembers ∧ takeCodes r none (Outline.ofJsonMembers ms) =
      .ok (p.codes.map (·.value), Outline.ofJsonMembers others) := by
  have hmembers := forall_mem_backoffMembers (r := r) p
  rw [Part.members] at perm
  cases hcodes : p.codes with
  | none =>
    rw [hcodes, Given.members, Option.map_none, Option.toList_none, List.append_nil] at perm
    exact ⟨ms, perm, takeCodes_ofJsonMembers fun m hm => hmembers m (perm.subset hm)⟩
  | some g =>
    rw [hcodes, Given.members, Option.map_some, Option.toList_some] at perm
    obtain ⟨as, bs, rfl⟩ := List.append_of_mem
      (perm.mem_iff.mpr (List.mem_append_right _ (List.mem_singleton_self _)))
    have hperm : (as ++ bs).Perm p.backoffMembers :=
      (List.perm_middle.symm.trans (perm.trans (List.perm_append_singleton _ _))).cons_inv
    obtain ⟨r', enter⟩ := Reading.exists_enter (r := r) (by omega)
    have hdepth := Reading.depth_of_enter enter
    have htakes : (codesCodec : Codec α _).Takes r (IsList (IsVariant ErrorCode.Named)) :=
      takes_list enter (ErrorCode.takes_codec (by omega))
    exact ⟨as ++ bs, hperm, takeCodes_middle (htakes _ _ g.sound) fun m hm =>
      hmembers m (hperm.subset hm)⟩

lemma read_part (hr : 3 ≤ r.depth) (p : Part α) (h : j.IsObject Part.members p) :
    Retry.codec.read r (.ofJson j) = .ok (p.overlay .standard) := by
  obtain ⟨perm⟩ := h
  obtain ⟨r', enter⟩ := Reading.exists_enter (r := r) (by omega)
  have hdepth := Reading.depth_of_enter enter
  obtain ⟨others, hothers, htake⟩ := exists_takeCodes (r := r') (by omega) p perm
  have htells : (Backoff.fields : Fields α _ _).Tells ⟨.buffer, r'.depth⟩
      (p.maxRetries.map (·.value), p.base.map (·.value), p.cap.map (·.value), ())
      p.backoffMembers :=
    .cons (Given.tells takes_count p.maxRetries) <| .cons (Given.tells takes_millisCodec p.base) <|
      .cons (Given.tells takes_millisCodec p.cap) .nil
  exact read_of_takeCodes enter htake (htells.fillAll (Fields.distinct_of_apart rfl) hothers)
    (Fields.complete_of_standards rfl)

end Retry

lemma Breaker.read_part (enter : r.enter = .ok r') (p : Part α) (h : j.IsObject Part.members p) :
    Breaker.codec.read r (.ofJson j) = .ok (p.overlay Breaker.standard) := by
  obtain ⟨perm⟩ := h
  exact read_overlay enter perm (.cons (Given.tells takes_count p.threshold) .nil) rfl rfl rfl

lemma Start.read_part (enter : r.enter = .ok r') (p : Part α) (h : j.IsObject Part.members p) :
    Start.codec.read r (.ofJson j) = .ok (p.overlay .standard) := by
  obtain ⟨perm⟩ := h
  exact read_overlay enter perm (.cons (Given.tells takes_scalar p.epsilon) <|
    .cons (Given.tells takes_scalar p.decayRate) .nil) rfl rfl rfl

lemma Training.read_part (enter : r.enter = .ok r') (p : Part α) (h : j.IsObject Part.members p) :
    Training.codec.read r (.ofJson j) = .ok (p.overlay .standard) := by
  obtain ⟨perm⟩ := h
  exact read_overlay enter perm (.cons (Given.tells takes_count p.episodes) <|
    .cons (Given.tells (takes_stringNamed _) p.outputDir) <|
    .cons (Given.tells takes_count p.maxSteps) <| .cons (Given.tells takes_count p.pageSize) <|
    .cons (Given.tells takes_count p.window) <| .cons (Given.tells takes_bool p.abortOnError) <|
    .cons (Given.tells (takes_option takes_count nofun) p.fixedDelay) .nil) rfl rfl rfl

end Config

lemma Profile.read_part (hr : 2 ≤ r.depth) (p : Part α) (h : j.IsObject Part.members p) :
    Profile.codec.read r (.ofJson j) = .ok (p.overlay .standard) := by
  obtain ⟨perm⟩ := h
  obtain ⟨r', enter⟩ := Reading.exists_enter (r := r) (by omega)
  have hdepth := Reading.depth_of_enter enter
  exact read_overlay enter perm (.cons (Given.tells takes_scalar p.minBet) <|
    .cons (Given.tells takes_scalar p.maxBet) <|
    .cons (Given.tells (Currency.takes_codec (by omega)) p.currency) <|
    .cons (Given.tells takes_count p.minDelay) <| .cons (Given.tells takes_count p.maxDelay) <|
    .cons (Given.tells (takes_option takes_scalar nofun) p.rewardWeight) <|
    .cons (Given.tells (Behavior.takes_codec (by omega)) p.behavior) .nil) rfl rfl rfl

lemma Simulation.Settings.read_part (enter : r.enter = .ok r') (p : Part α)
    (h : j.IsObject Part.members p) :
    Settings.codec.read r (.ofJson j) = .ok (p.overlay .standard) := by
  obtain ⟨perm⟩ := h
  exact read_overlay enter perm (.cons (Given.tells takes_count p.spinsPerSession) <|
    .cons (Given.tells takes_scalar p.winProbability) <|
    .cons (Given.tells takes_scalar p.startingBalance) <|
    .cons (Given.tells takes_scalar p.costPerSpin) <|
    .cons (Given.tells takes_scalar p.likenessWeight) <|
    .cons (Given.tells takes_bool p.probeRound) <| .cons (Given.tells takes_bool p.rejectInvalid) <|
    .cons (Given.tells takes_bool p.enforceMaxBet) <|
    .cons (Given.tells takes_count p.retained) .nil) rfl rfl rfl

/-! ## Reading configurations -/

namespace Config

lemma read_part (p : Part α) (h : j.IsObject Part.members p) :
    Config.codec.read .ofText (.ofJson j) = .ok (p.overlay .standard) := by
  obtain ⟨perm⟩ := h
  have enter : Reading.ofText.enter = .ok ⟨.text, 126⟩ := rfl
  have enter' : Reading.enter ⟨.text, 126⟩ = .ok ⟨.text, 125⟩ := rfl
  have hdepth : 2 ≤ 126 := by decide
  have hdepth' : 3 ≤ 126 := by decide
  exact read_overlay enter perm
    (.cons (Given.tells_make (fun _ _ => Remote.read_part enter' _) p.remote) <|
    .cons (Given.tells_make (fun _ _ => Retry.read_part hdepth' _) p.retrier) <|
    .cons (Given.tells_make (fun _ _ => Breaker.read_part enter' _) p.breaker) <|
    .cons (Given.tells_make (fun _ _ => Start.read_part enter' _) p.start) <|
    .cons (Given.tells_make (fun _ _ => Profile.read_part hdepth _) p.profile) <|
    .cons (Given.tells_make (fun _ _ => Training.read_part enter' _) p.training) <|
    .cons (Given.tells_make (fun _ _ => Simulation.Settings.read_part enter' _) p.simulation) .nil)
    rfl rfl rfl

end Config

end Read

/-! ## Loading -/

namespace Cli

variable [Scalar α]

lemma load_some {path text : String} {files : FileTree} (hfile : files.readPath path = .ok text)
    {c : Config α} : load (some path) files = .ok c ↔ Config.codec.ofText text = .ok c := by
  simp only [load, hfile]
  cases (Config.codec : Codec α (Config α)).ofText text <;> simp [Except.mapError]

/-- What is loaded is kept.  The standard configuration is what an object without members says. -/
lemma keeps_of_load (literals : ∀ x ∈ (Config.literals : List α), Scalar.ReadsBack x)
    {path : Option String} {files : FileTree} {c : Config α} (h : load path files = .ok c)
    (numbers : ∀ p ∈ path, ∀ text, files.readPath p = .ok text →
      ∀ n ∈ (Outline.scan text.toList : Outline.Scan α).1.numbers, Scalar.ReadsBack n.toScalar) :
    (Config.codec : Codec α (Config α)).Keeps .ofText c := by
  have stable := Config.stable_codec literals
  cases path with
  | none =>
    cases h
    exact stable.keeps_of_bare rfl
  | some p =>
    cases hfile : files.readPath p with
    | error f => simp [load, hfile] at h
    | ok text =>
      exact stable.keeps_of_ofText (numbers p rfl text hfile) ((load_some hfile).mp h)

/-- **Configuration files are laid over the standard configuration.**  Whatever part of a
configuration a file gives, with its sections and their fields in any order, loading it gives the
standard configuration with this part in its place and nothing else changed.  And whatever a
configuration was loaded from, a file that is written for it is loaded as the same configuration, as
long as numbers are read again: those of the first file, and those of the standard configuration. -/
theorem load_overlays :
    (∀ (p : Config.Part α) (j : Json α), j.IsObject Config.Part.members p →
      ∀ text : String, (j.IsText text ∨ j.Legible ∧ text ∈ [j.compact, j.pretty]) →
        ∀ (path : String) (files : FileTree), files.readPath path = .ok text →
          load (some path) files = .ok (p.overlay .standard)) ∧
      ((∀ x ∈ (Config.literals : List α), Scalar.ReadsBack x) →
        ∀ (path : Option String) (files : FileTree) (c : Config α), load path files = .ok c →
          (∀ p ∈ path, ∀ text, files.readPath p = .ok text →
            ∀ n ∈ (Outline.scan text.toList : Outline.Scan α).1.numbers,
              Scalar.ReadsBack n.toScalar) →
            ∀ text ∈ [Config.codec.toText c, (Config.codec.write c).pretty],
              ∀ (path' : String) (files' : FileTree), files'.readPath path' = .ok text →
                load (some path') files' = .ok c) := by
  refine ⟨fun p j hj text htext path files hfile => ?_, ?_⟩
  · have hsays : j.IsText text := htext.elim id fun h => h.1.isText text h.2
    exact (load_some hfile).mpr (ofText_of_isText hsays (Config.read_part p hj))
  · intro literals path files c hload numbers text htext path' files' hfile
    obtain ⟨legible, recovers⟩ := keeps_of_load literals hload numbers
    exact (load_some hfile).mpr (ofText_of_isText (legible.isText text htext) recovers)

/-- A file with two sections and three fields, which stand in another order than they are written
in, and with a code that nobody knows. -/
theorem load_overlays_three :
    let text := "\x7b\"mock\":\x7b\"win_probability\":0.5\x7d," ++
      "\"retry\":\x7b\"fatal_codes\":[\"X\"],\"base_delay\":50\x7d\x7d"
    let files : String → FileTree := fun text => ⟨[], [(["parlay.json"], .file text)]⟩
    let c : Config ℚ := { (.standard : Config ℚ) with
      retrier := ⟨⟨3, .ofMillis 50, .ofMillis 5000⟩, ⟨[.unknown]⟩⟩
      simulation := { (.standard : Simulation.Settings ℚ) with winProbability := 1 / 2 } }
    (∀ x ∈ (Config.literals : List ℚ), Scalar.ReadsBack x) ∧
      load (some "parlay.json") (files text) = .ok c ∧
      load (some "parlay.json") (files (Config.codec.toText c)) = .ok c := by
  intro text files c
  have hfile : ∀ s, (files s).readPath "parlay.json" = .ok s := by
    intro s
    have hpath : Path.components [] "parlay.json" = ["parlay.json"] := by decide +kernel
    simp only [files, FileTree.readPath, hpath]
    rfl
  have hliterals : ∀ x ∈ (Config.literals : List ℚ), Scalar.ReadsBack x := by decide +kernel
  have hhalf : Scalar.ReadsBack (1 / 2 : ℚ) := by decide +kernel
  -- what the file says, and the members of its sections in their own order
  have hcode : ErrorCode.Named "X" .unknown := .unknown fun c => by cases c <;> decide
  let retry : Config.Retry.Part ℚ := ⟨none, some ⟨.int 50, .ofMillis 50, ⟨⟨by decide⟩⟩⟩, none,
    some ⟨.arr [.str "X"], [.unknown], ⟨.cons (.name hcode) .nil⟩⟩⟩
  let mock : Simulation.Settings.Part ℚ :=
    ⟨none, some ⟨.num (1 / 2), 1 / 2, .num _⟩, none, none, none, none, none, none, none⟩
  let part : Config.Part ℚ :=
    ⟨none, some ⟨.obj retry.members.reverse, retry, ⟨List.reverse_perm _⟩⟩, none, none, none, none,
      some ⟨.obj mock.members, mock, ⟨.refl _⟩⟩⟩
  have hmembers : part.members.reverse =
      [("mock", .obj [("win_probability", .num (1 / 2))]),
        ("retry", .obj [("fatal_codes", .arr [.str "X"]), ("base_delay", .int 50)])] := rfl
  have hlegible : (.obj part.members.reverse : Json ℚ).Legible := by
    rw [hmembers]
    refine .obj (List.forall_mem_cons.mpr ⟨.obj (List.forall_mem_singleton.mpr (.num hhalf)),
      List.forall_mem_singleton.mpr (.obj (List.forall_mem_cons.mpr ⟨.arr ?_, ?_⟩))⟩)
    · exact List.forall_mem_singleton.mpr (.str _)
    · exact List.forall_mem_singleton.mpr (.int (by decide) (by decide))
  have htext : text = (.obj part.members.reverse : Json ℚ).compact := by
    rw [hmembers]
    decide +kernel
  obtain ⟨hoverlay, hagain⟩ := load_overlays (α := ℚ)
  have hload : load (some "parlay.json") (files text) = .ok c :=
    hoverlay part _ ⟨List.reverse_perm _⟩ text (.inr ⟨hlegible, List.mem_pair.mpr (.inl htext)⟩) _ _
      (hfile text)
  refine ⟨hliterals, hload, hagain hliterals _ _ c hload ?_ _ List.mem_cons_self _ _ (hfile _)⟩
  intro path hpath s hs n hn
  cases hpath
  obtain rfl : text = s := Except.ok.inj ((hfile text).symm.trans hs)
  have hnumbers : ∀ n ∈ (Outline.scan text.toList : Outline.Scan ℚ).1.numbers,
      Scalar.ReadsBack n.toScalar := by decide +kernel
  exact hnumbers n hn

end Cli

end Punter
