import BoundedRefund.Relational.Table
import Mathlib.Order.Basic

/-!
# Row histories and version counters

Optimistic concurrency compares a version number instead of a row.  It is sound
because of one fact about histories: if every change of a row strictly increases
its version, then along any sequence of changes an unchanged version means an
unchanged row (`Advances.eq_of_version_eq`), so there is no way to leave a row
and come back to it unnoticed.

`Along S t t'` lifts a relation on rows to tables: every row of `t` is still
found in `t'` under its key, moved along `S`.
-/

namespace Relational

universe u v w

/-! ## One row -/

section Advances

variable {ρ : Type u} {ν : Type w} [Preorder ν] {ver : ρ → ν} {r r' r'' : ρ}

/-- The row has not changed, or its version has grown. -/
def Advances (ver : ρ → ν) (r r' : ρ) : Prop :=
  r' = r ∨ ver r < ver r'

namespace Advances

theorem refl (ver : ρ → ν) (r : ρ) : Advances ver r r := Or.inl rfl

theorem trans (h : Advances ver r r') (h' : Advances ver r' r'') : Advances ver r r'' := by
  rcases h with rfl | h
  · exact h'
  · rcases h' with rfl | h'
    · exact Or.inr h
    · exact Or.inr (h.trans h')

/-- Versions only grow. -/
theorem version_le (h : Advances ver r r') : ver r ≤ ver r' := by
  rcases h with rfl | h
  · exact le_rfl
  · exact h.le

/-- **No way back unnoticed**: an unchanged version means an unchanged row. -/
theorem eq_of_version_eq (h : Advances ver r r') (hv : ver r' = ver r) : r' = r := by
  rcases h with h | h
  · exact h
  · exact absurd hv h.ne'

end Advances

/-- The version has not decreased. -/
def Ages (ver : ρ → ν) (r r' : ρ) : Prop := ver r ≤ ver r'

theorem Ages.refl (ver : ρ → ν) (r : ρ) : Ages ver r r := le_refl (ver r)

theorem Ages.trans (h : Ages ver r r') (h' : Ages ver r' r'') : Ages ver r r'' :=
  (show ver r ≤ ver r' from h).trans h'

end Advances

/-! ## Whole tables -/

section Along

variable {ρ : Type u} {κ : Type v} {key : ρ → κ} [DecidableEq κ]
variable {S : ρ → ρ → Prop} {t t' t'' : Table key}

/-- Every row of `t` is found in `t'` under its key, moved along `S`. -/
def Along (S : ρ → ρ → Prop) (t t' : Table key) : Prop :=
  ∀ k r, t.find? k = some r → ∃ r', t'.find? k = some r' ∧ S r r'

namespace Along

theorem refl (hS : ∀ r, S r r) (t : Table key) : Along S t t :=
  fun _ r h => ⟨r, h, hS r⟩

theorem trans (hS : ∀ r r' r'', S r r' → S r' r'' → S r r'') (h : Along S t t')
    (h' : Along S t' t'') : Along S t t'' := by
  intro k r hr
  obtain ⟨r', hr', s⟩ := h k r hr
  obtain ⟨r'', hr'', s'⟩ := h' k r' hr'
  exact ⟨r'', hr'', hS _ _ _ s s'⟩

/-- Along a weaker relation as well. -/
theorem mono {S' : ρ → ρ → Prop} (hS : ∀ r r', S r r' → S' r r') (h : Along S t t') :
    Along S' t t' := by
  intro k r hr
  obtain ⟨r', hr', s⟩ := h k r hr
  exact ⟨r', hr', hS _ _ s⟩

/-- An insertion leaves the other rows. -/
theorem insert? (hS : ∀ r, S r r) {r : ρ} (h : t.insert? r = some t') : Along S t t' :=
  fun _ q hq => ⟨q, Table.find?_insert?_of_some h hq, hS q⟩

/-- An update changes the rows it selects, and each as the relation says. -/
theorem update (hS : ∀ r, S r r) {p : ρ → Bool} {f : ρ → ρ} (hf : ∀ r, key (f r) = key r)
    (hstep : ∀ r ∈ t.rows, p r = true → S r (f r)) : Along S t (t.update p f hf) := by
  intro k r hr
  rw [Table.find?_update, hr]
  refine ⟨_, rfl, ?_⟩
  by_cases hp : p r
  · simpa [hp] using hstep r (Table.find?_eq_some.mp hr).1 hp
  · simpa [hp] using hS r

end Along

/-- The row was in the table, and has moved along `S` since. -/
def Stood (S : ρ → ρ → Prop) (t : Table key) (r : ρ) : Prop :=
  ∃ r', t.find? (key r) = some r' ∧ S r r'

namespace Stood

/-- A row that is found has stood there. -/
theorem of_find? (hS : ∀ r, S r r) {r : ρ} (h : t.find? (key r) = some r) : Stood S t r :=
  ⟨r, h, hS r⟩

/-- A row that stood in a table has stood in a later one. -/
theorem along (hS : ∀ r r' r'', S r r' → S r' r'' → S r r'') {r : ρ} (h : Stood S t r)
    (ht : Along S t t') : Stood S t' r := by
  obtain ⟨r', hr', s⟩ := h
  obtain ⟨r'', hr'', s'⟩ := ht _ _ hr'
  exact ⟨r'', hr'', hS _ _ _ s s'⟩

end Stood

/-- A row that stood in the table and is found there at its old version is unchanged. -/
theorem Stood.find?_of_version_eq {ν : Type w} [Preorder ν] {ver : ρ → ν} {r q : ρ}
    (h : Stood (Advances ver) t r) (hq : t.find? (key r) = some q) (hv : ver q = ver r) :
    q = r := by
  obtain ⟨r', hr', s⟩ := h
  obtain rfl : q = r' := Option.some.inj (hq.symm.trans hr')
  exact s.eq_of_version_eq hv

end Along

end Relational
