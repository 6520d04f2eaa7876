import Mathlib.Data.List.Basic

/-!
# Trails

A list that only grows at its end, judged entry by entry.  `Each P l` says that every entry
of `l` stands in the relation `P` to all that was there before it.  To keep it, a new entry
has to be checked against the whole list and no old one again (`each_concat`).
-/

namespace Concurrent

variable {α : Type*} {P : List α → α → Prop} {l : List α} {a b : α}

/-- Every entry of the list has the relation `P` to the ones before it. -/
def Each (P : List α → α → Prop) (l : List α) : Prop :=
  ∀ before a after, l = before ++ a :: after → P before a

/-- There is nothing to judge in an empty list. -/
theorem each_nil : Each P [] := by
  intro before a after h
  simp at h

/-- Only the new entry is to be looked at. -/
theorem each_concat : Each P (l ++ [a]) ↔ Each P l ∧ P l a := by
  constructor
  · intro h
    refine ⟨fun before b after hl => h before b (after ++ [a]) ?_, h l a [] rfl⟩
    rw [hl, List.append_assoc, List.cons_append]
  · rintro ⟨hl, ha⟩ before b after h
    -- either `b` is the new entry, or something stands behind it
    rcases after.eq_nil_or_concat with rfl | ⟨init, c, rfl⟩
    · obtain ⟨rfl, hb⟩ := List.append_inj' h rfl
      cases hb
      exact ha
    · rw [List.concat_eq_append, ← List.cons_append, ← List.append_assoc] at h
      exact hl before b init (List.append_inj' h rfl).1

/-- What an entry of the list is followed by. -/
theorem Each.next (h : Each P l) {before after : List α} (hl : l = before ++ a :: after) :
    l.getLast? = some a ∨ ∃ b rest, after = b :: rest ∧ P (before ++ [a]) b := by
  cases after with
  | nil => exact .inl (by rw [hl, List.getLast?_append, List.getLast?_singleton]; rfl)
  | cons b rest => exact .inr ⟨b, rest, rfl, h (before ++ [a]) b rest (by rw [hl]; simp)⟩

end Concurrent
