/-
# What the simulated service stores

The service stores its sessions in one list and their experiences in another.  Both are searched by
the identifier of a session, and what is changed is the first place where it is found.  The lemmas
here say what such a change comes to for the session itself and for all others; that the two lists
go together is not shown here, because it takes a whole run to see it.
-/
import Mathlib
import Punter.Simulation.State

namespace Punter.Simulation

variable {α : Type}

/-! ## Sessions -/

namespace Held

variable {id : SessionId} {g : Game α} {x : Held α} {hs : List (Held α)}

@[simp] lemma ids_put (id : SessionId) (g : Game α) (hs : List (Held α)) :
    (put id g hs).map Held.id = hs.map Held.id := by
  induction hs with
  | nil => rfl
  | cons h hs ih =>
    unfold put
    split
    · rfl
    · rw [List.map_cons, List.map_cons, ih]

lemma mem_put (hx : x ∈ put id g hs) : x ∈ hs ∨ x = ⟨id, g⟩ := by
  induction hs with
  | nil => exact .inl hx
  | cons h hs ih =>
    unfold put at hx
    split at hx
    · next hid =>
      rcases List.mem_cons.mp hx with rfl | hx
      · exact .inr (by rw [hid])
      · exact .inl (List.mem_cons_of_mem _ hx)
    · rcases List.mem_cons.mp hx with rfl | hx
      · exact .inl (List.mem_cons_self ..)
      · exact (ih hx).imp_left (List.mem_cons_of_mem _)

/-- Where no identifier comes twice, all that is left is the session in its new state and the
sessions with other identifiers. -/
lemma mem_put_of_nodup (nodup : (hs.map Held.id).Nodup) (hx : x ∈ put id g hs) :
    (x ∈ hs ∧ x.id ≠ id) ∨ x = ⟨id, g⟩ := by
  induction hs with
  | nil => cases hx
  | cons h hs ih =>
    obtain ⟨hnew, nodup⟩ := List.nodup_cons.mp nodup
    unfold put at hx
    split at hx
    · next hid =>
      rcases List.mem_cons.mp hx with rfl | hx
      · exact .inr (by rw [hid])
      · refine .inl ⟨List.mem_cons_of_mem _ hx, fun heq => hnew ?_⟩
        rw [hid, ← heq]
        exact List.mem_map_of_mem hx
    · next hid =>
      rcases List.mem_cons.mp hx with rfl | hx
      · exact .inl ⟨List.mem_cons_self .., hid⟩
      · exact (ih nodup hx).imp_left fun hx => ⟨List.mem_cons_of_mem _ hx.1, hx.2⟩

lemma mem_put_of_ne (hx : x ∈ hs) (ne : x.id ≠ id) : x ∈ put id g hs := by
  induction hs with
  | nil => exact hx
  | cons h hs ih =>
    unfold put
    split
    · next hid =>
      rcases List.mem_cons.mp hx with rfl | hx
      · exact absurd hid ne
      · exact List.mem_cons_of_mem _ hx
    · rcases List.mem_cons.mp hx with rfl | hx
      · exact List.mem_cons_self ..
      · exact List.mem_cons_of_mem _ (ih hx)

/-- A session is put in the state it is in. -/
lemma put_of_find? (found : (hs.find? fun h => h.id = id) = some x) : put id x.game hs = hs := by
  induction hs with
  | nil => rfl
  | cons h hs ih =>
    unfold put
    split
    · next hid =>
      rw [List.find?_cons_of_pos (by simpa using hid)] at found
      rw [← Option.some.inj found]
    · next hid =>
      rw [List.find?_cons_of_neg (by simpa using hid)] at found
      rw [ih found]

lemma find?_put (found : (hs.find? fun h => h.id = id) = some x) :
    ((put id g hs).find? fun h => h.id = id) = some ⟨id, g⟩ := by
  induction hs with
  | nil => cases found
  | cons h hs ih =>
    unfold put
    split
    · next hid =>
      rw [List.find?_cons_of_pos (by simpa using hid), hid]
    · next hid =>
      rw [List.find?_cons_of_neg (by simpa using hid)] at found ⊢
      exact ih found

end Held

/-! ## Experiences -/

namespace Log

variable {l : Log α} {id : SessionId} {e : Experience α} {y : Entry α}

lemma of_eq_nil (h : ∀ y ∈ l, y.session ≠ id) : l.of id = [] := by
  induction l with
  | nil => rfl
  | cons y l ih =>
    rw [Log.of, if_neg (h y (List.mem_cons_self ..))]
    exact ih fun z hz => h z (List.mem_cons_of_mem _ hz)

/-- Where no session has two entries, an entry holds the experiences of its session. -/
lemma of_eq_of_mem (nodup : (l.map Entry.session).Nodup) (hy : y ∈ l) :
    l.of y.session = y.experiences := by
  induction l with
  | nil => cases hy
  | cons z l ih =>
    obtain ⟨hnew, nodup⟩ := List.nodup_cons.mp nodup
    rcases List.mem_cons.mp hy with rfl | hy
    · rw [Log.of, if_pos rfl]
    · have hne : z.session ≠ y.session := fun heq => hnew (heq ▸ List.mem_map_of_mem hy)
      rw [Log.of, if_neg hne]
      exact ih nodup hy

@[simp] lemma of_push (l : Log α) (id : SessionId) (e : Experience α) (x : SessionId) :
    (l.push id e).of x = if x = id then l.of id ++ [e] else l.of x := by
  induction l with
  | nil =>
    by_cases hx : x = id
    · simp [push, Log.of, hx]
    · simp [push, Log.of, hx, Ne.symm hx]
  | cons y l ih =>
    by_cases hy : y.session = id
    · by_cases hx : x = id
      · simp [push, Log.of, hy, hx]
      · simp [push, Log.of, hy, hx, Ne.symm hx]
    · by_cases hx : x = id
      · simp [push, Log.of, hy, hx ▸ ih, hx]
      · simp only [push, if_neg hy, Log.of, ih, if_neg hx]

@[simp] lemma of_drop (l : Log α) (ids : List SessionId) (x : SessionId) :
    (l.drop ids).of x = if x ∈ ids then [] else l.of x := by
  induction l with
  | nil => simp [drop, Log.of]
  | cons y l ih =>
    unfold drop at ih
    by_cases hy : y.session ∈ ids
    · rw [drop, List.filter_cons_of_neg (by simpa using hy), ih, Log.of]
      split
      · rfl
      · next hx =>
        have hne : ¬ y.session = x := fun heq => hx (heq ▸ hy)
        rw [if_neg hne]
    · rw [drop, List.filter_cons_of_pos (by simpa using hy), Log.of, Log.of, ih]
      by_cases hx : y.session = x
      · rw [if_pos hx, if_pos hx, if_neg (hx ▸ hy)]
      · rw [if_neg hx, if_neg hx]

lemma mem_drop {ids : List SessionId} : y ∈ l.drop ids ↔ y ∈ l ∧ y.session ∉ ids := by
  simp [drop]

/-- An experience is recorded under its session. -/
lemma sessions_push (l : Log α) (id : SessionId) (e : Experience α) :
    (l.push id e).map Entry.session =
      if id ∈ l.map Entry.session then l.map Entry.session else l.map Entry.session ++ [id] := by
  induction l with
  | nil => rfl
  | cons y l ih =>
    unfold push
    by_cases hy : y.session = id
    · simp [hy]
    · rw [if_neg hy, List.map_cons, List.map_cons, ih]
      by_cases hmem : id ∈ l.map Entry.session
      · rw [if_pos hmem, if_pos (List.mem_cons_of_mem _ hmem)]
      · have hnew : id ∉ y.session :: l.map Entry.session := by
          rw [List.mem_cons, not_or]
          exact ⟨Ne.symm hy, hmem⟩
        rw [if_neg hmem, if_neg hnew, List.cons_append]

lemma nodup_push (nodup : (l.map Entry.session).Nodup) :
    ((l.push id e).map Entry.session).Nodup := by
  rw [sessions_push]
  split
  · exact nodup
  · next hnew =>
    refine List.nodup_append.mpr ⟨nodup, List.nodup_singleton _, fun a ha b hb hab => hnew ?_⟩
    rw [← List.mem_singleton.mp hb, ← hab]
    exact ha

lemma mem_sessions_push {x : SessionId} (hx : x ∈ (l.push id e).map Entry.session) :
    x ∈ l.map Entry.session ∨ x = id := by
  rw [sessions_push] at hx
  split at hx
  · exact .inl hx
  · rcases List.mem_append.mp hx with hx | hx
    · exact .inl hx
    · exact .inr (List.mem_singleton.mp hx)

end Log

end Punter.Simulation
