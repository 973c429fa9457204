/-
# Exported experiences are read again

Every experience takes one line of the exported text, since no string lets a line break out of its
quotes.  Cut at its line breaks, the text gives the lines again, and each of them is read as the
step that was exported (`Experience.lines_read_back`).  So the text tells the steps.
-/
import Mathlib
import Punter.Experience.Lines
import Punter.Proofs.Json.Records

namespace Punter

open Number

variable {α : Type} [Scalar α]

/-! ## What can be exported -/

/-- Free-form data that a reader of texts can give: it is legible, the members of its objects are in
canonical order, and it leaves one level to the record that it is part of. -/
structure Json.FreeForm (v : Json α) : Prop where
  legible : v.Legible
  canonical : v.canonicalize = v
  depth_lt : v.depth < Reading.maxDepth

/-- An experience whose reward is finite and is read as what it is, and whose states and action can
be read as well. -/
structure Experience.Exportable (e : Experience α) : Prop where
  reward : Scalar.ReadsBack e.reward
  state : e.state.FreeForm
  action : e.action.FreeForm
  nextState : e.nextState.FreeForm

/-- One half is written as a number that is read as one half. -/
lemma Scalar.readsBack_half : Scalar.ReadsBack (1 / 2 : ℚ) := by decide +kernel

/-! ## Steps -/

namespace Transition

variable {e : Experience α}

/-- The reading of the fields of a step, which are one level below it. -/
def fieldReading : Reading := ⟨.text, Reading.maxDepth - 1⟩

lemma recovers_ofExperience (he : e.Exportable) : codec.Recovers .ofText (ofExperience e) := by
  have henter : Reading.ofText.enter = .ok fieldReading := rfl
  have hany : ∀ {v : Json α}, v.FreeForm → (Codec.any : Codec α _).Recovers fieldReading v :=
    fun hv => Codec.recovers_any hv.canonical (Nat.le_sub_one_of_lt hv.depth_lt)
  refine Codec.recovers_record henter ?_ ?_ rfl
  · simp [Fields.Distinct, Fields.names, Field.hasName, Field.required]
  · exact ⟨Field.recovers_required (hany he.state), Field.recovers_required (hany he.action),
      Field.recovers_required (Codec.recovers_scalar he.reward.isFinite _),
      Field.recovers_required (hany he.nextState),
      Field.recovers_required (Codec.recovers_bool _ _),
      Field.recovers_required (Codec.recovers_bool _ _),
      Field.recovers_required (Codec.recovers_anyObject_nil rfl), trivial⟩

lemma write_ofExperience (he : e.Exportable) :
    codec.write (ofExperience e) = .obj [("obs", e.state), ("action", e.action),
      ("reward", .num e.reward), ("next_obs", e.nextState), ("terminated", .bool e.done),
      ("truncated", .bool false), ("info", .obj [])] := by
  have hreward : Json.ofScalar e.reward = .num e.reward := by
    rw [Json.ofScalar, if_pos he.reward.isFinite]
  rw [← hreward]
  rfl

lemma legible_ofExperience (he : e.Exportable) : (codec.write (ofExperience e)).Legible := by
  have hinfo : (Json.obj [] : Json α).Legible := .obj (by simp)
  rw [write_ofExperience he]
  refine .obj ?_
  simp [he.state.legible, he.action.legible, he.nextState.legible, Json.Legible.num he.reward,
    Json.Legible.bool, hinfo]

end Transition

namespace Experience

/-! ## Lines -/

section Line

variable {e : Experience α}

lemma ofText_line (he : e.Exportable) :
    Transition.codec.ofText e.line = .ok (.ofExperience e) :=
  Codec.ofText_toText (Transition.legible_ofExperience he) (Transition.recovers_ofExperience he)

lemma newline_notMem_line (he : e.Exportable) : '\n' ∉ e.line.toList := by
  rw [line, Codec.toText, Json.compact, String.toList_ofList]
  exact (Transition.legible_ofExperience he).newline_notMem

lemma line_ne_empty (he : e.Exportable) : e.line ≠ "" := by
  intro h
  have hchars : (Json.compactChars (Transition.codec.write (.ofExperience e))) = [] := by
    rw [line, Codec.toText, Json.compact] at h
    simpa using congrArg String.toList h
  have hlength := (Transition.legible_ofExperience he).length_pos
  simp [hchars] at hlength

end Line

/-! ## Texts -/

/-- The lines of a text, each of which ends with a line break. -/
def linesOf (text : String) : List String :=
  (text.toList.splitOn '\n').dropLast.map String.ofList

/-- The steps that a text tells: those of its lines that can be read. -/
def stepsOf (text : String) : List (Transition α) :=
  (linesOf text).filterMap fun l => (Transition.codec.ofText l).toOption

variable {es : List (Experience α)}

lemma lines_nil : lines ([] : List (Experience α)) = "\n" := by simp [lines]

/-- The line breaks between the lines and the last one make a line break after every line. -/
lemma toList_lines (hes : es ≠ []) :
    (lines es).toList = es.flatMap fun e => e.line.toList ++ ['\n'] := by
  rw [lines, String.toList_append, String.toList_intercalate]
  change ['\n'].intercalate _ ++ ['\n'] = _
  induction es with
  | nil => exact absurd rfl hes
  | cons e es ih =>
    -- the last line is followed by the end of the text, any other by what joins the lines
    cases es with
    | nil => simp [List.intercalate]
    | cons e' es =>
      have hrest := ih (List.cons_ne_nil _ _)
      rw [List.flatMap_cons, ← hrest]
      simp [List.intercalate_cons_cons]

lemma count_newline_lines (h : ∀ e ∈ es, e.Exportable) :
    (lines es).toList.count '\n' = max es.length 1 := by
  rcases eq_or_ne es [] with rfl | hes
  · rw [lines_nil]
    rfl
  · have hone : ∀ e ∈ es, (e.line.toList ++ ['\n']).count '\n' = 1 := by
      intro e he
      rw [List.count_append, List.count_eq_zero.mpr (newline_notMem_line (h e he))]
      rfl
    have hpos : 1 ≤ es.length := List.length_pos_iff.mpr hes
    rw [toList_lines hes, List.count_flatMap, Function.comp_def, List.map_congr_left hone,
      max_eq_left hpos]
    simp

lemma linesOf_lines (h : ∀ e ∈ es, e.Exportable) (hes : es ≠ []) :
    linesOf (lines es) = es.map line := by
  -- the text is cut after every line, and what is left after the last line is empty
  have hcut : (es.flatMap fun e => e.line.toList ++ ['\n']).splitOn '\n' =
      es.map (fun e => e.line.toList) ++ [[]] := by
    clear hes
    induction es with
    | nil => rfl
    | cons e es ih =>
      have hline : ∀ c ∈ e.line.toList, (c == '\n') = false := by
        intro c hc
        have hne : c ≠ '\n' := ne_of_mem_of_not_mem hc
          (newline_notMem_line (h e List.mem_cons_self))
        simpa using hne
      have hrest := ih fun e' he' => h e' (List.mem_cons_of_mem _ he')
      rw [List.flatMap_cons, List.append_assoc, List.singleton_append, List.splitOn,
        List.splitOnP_append_cons_of_forall_mem hline _ (beq_self_eq_true _)]
      exact congrArg (List.cons _) hrest
  rw [linesOf, toList_lines hes, hcut, List.dropLast_concat, List.map_map]
  exact List.map_congr_left fun e _ => String.ofList_toList

/-- The text of no experiences tells no step either: its only line is empty. -/
lemma stepsOf_lines (h : ∀ e ∈ es, e.Exportable) :
    stepsOf (lines es) = es.map Transition.ofExperience := by
  rcases eq_or_ne es [] with rfl | hes
  · rw [lines_nil]
    rfl
  · have hread : ∀ e ∈ es, (Transition.codec.ofText e.line).toOption =
        some (Transition.ofExperience e) := by
      intro e he
      rw [ofText_line (h e he)]
      rfl
    rw [stepsOf, linesOf_lines h hes, List.filterMap_map, Function.comp_def,
      List.filterMap_congr hread]
    exact congrFun List.filterMap_eq_map' es

/-- **Exported experiences are read again.**  The text of `n` experiences has `n` line breaks, at
least one, and ends with one.  If there are any experiences, its lines are theirs.  No line is
empty, and each is read as the step that was exported: free-form data as it was, no matter which
strings occur in it, and as a step that was not cut short and about which nothing else is known.
Two lists of experiences have the same text only if their steps are the same. -/
theorem lines_read_back {es : List (Experience α)} (h : ∀ e ∈ es, e.Exportable) :
    (lines es).toList.count '\n' = max es.length 1 ∧
      (lines es).toList.getLast? = some '\n' ∧
      (es ≠ [] → linesOf (lines es) = es.map line) ∧
      (∀ e ∈ es, e.line ≠ "" ∧ Transition.codec.ofText e.line =
        .ok ⟨e.state, e.action, e.reward, e.nextState, e.done, false, []⟩) ∧
      ∀ es' : List (Experience α), (∀ e ∈ es', e.Exportable) → lines es' = lines es →
        es'.map Transition.ofExperience = es.map Transition.ofExperience := by
  refine ⟨count_newline_lines h, ?_, linesOf_lines h, ?_, ?_⟩
  · simp [lines]
  · exact fun e he => ⟨line_ne_empty (h e he), ofText_line (h e he)⟩
  · intro es' h' htext
    rw [← stepsOf_lines h', ← stepsOf_lines h, htext]

/-- Strings that look like the end of a line, and a list that tells its two steps in their order. -/
theorem lines_read_back_two :
    let told : Json ℚ := .obj [("note", .str "two\nlines, \"quoted\", \u0007 and ü"),
      ("state", .obj [("spins", .arr [.int (-3), .null, .num (1 / 2)])])]
    let e : Experience ℚ :=
      ⟨.nil, .nil, told, .str "\\n", 1 / 2, .arr [told, .obj []], false, none⟩
    let e' : Experience ℚ := { e with done := true }
    (∀ x ∈ [e, e'], x.Exportable) ∧ (lines [e, e']).toList.count '\n' = 2 ∧
      linesOf (lines [e, e']) = [e.line, e'.line] ∧
      Transition.codec.ofText e'.line =
        .ok ⟨told, .str "\\n", 1 / 2, .arr [told, .obj []], true, false, []⟩ ∧
      lines [e, e'] ≠ lines [e', e] := by
  intro told e e'
  have hhalf : Scalar.ReadsBack (1 / 2 : ℚ) := Scalar.readsBack_half
  have htold : told.Legible := by
    refine .obj (List.forall_mem_cons.mpr ⟨.str _, List.forall_mem_singleton.mpr (.obj ?_)⟩)
    refine List.forall_mem_singleton.mpr (.arr ?_)
    simp only [List.forall_mem_cons, List.not_mem_nil, false_imp_iff, implies_true, and_true]
    exact ⟨.int (by decide) (by decide), .null, .num hhalf⟩
  have hnext : (.arr [told, .obj []] : Json ℚ).Legible :=
    .arr (List.forall_mem_cons.mpr ⟨htold, List.forall_mem_singleton.mpr (.obj nofun)⟩)
  have hstate : told.FreeForm := ⟨htold, rfl, by decide⟩
  have haction : (.str "\\n" : Json ℚ).FreeForm := ⟨.str _, rfl, by decide⟩
  have hnextState : (.arr [told, .obj []] : Json ℚ).FreeForm := ⟨hnext, rfl, by decide⟩
  have he : e.Exportable := ⟨hhalf, hstate, haction, hnextState⟩
  have he' : e'.Exportable := ⟨hhalf, hstate, haction, hnextState⟩
  have hes : ∀ x ∈ [e, e'], x.Exportable := by simp [he, he']
  have hes' : ∀ x ∈ [e', e], x.Exportable := by simp [he, he']
  obtain ⟨hcount, -, hlines, hread, hsteps⟩ := lines_read_back hes
  refine ⟨hes, hcount, hlines (List.cons_ne_nil _ _), (hread e' (by simp)).2, fun htext => ?_⟩
  -- the steps would be the same in both orders
  have hsame := hsteps [e', e] hes' htext.symm
  have hdone := congrArg (List.map Transition.terminated) hsame
  exact absurd hdone (by decide)

end Experience

end Punter
