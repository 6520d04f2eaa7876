import BoundedRefund.Relational.Table

/-!
# Slices of a table

The rows of a table that meet a condition are a table again.  A statement that is about rows
of the slice alone finds on the slice what it finds on the table: a look-up by key, the first
row of a selection, the number of rows an update changes.  And it changes the slice as it
changes the table: an update that does not move rows in or out of the slice
(`filter_update`), the insertion of a row of the slice (`insert?_filter`).
-/

namespace Relational.Table

universe u v

variable {ρ : Type u} {κ : Type v} {key : ρ → κ} {t : Table key} {s q : ρ → Bool}

/-- The rows that meet a condition. -/
def filter (t : Table key) (s : ρ → Bool) : Table key where
  rows := t.rows.filter s
  nodup := t.nodup.sublist (List.filter_sublist.map key)

/-- The rows of a slice. -/
@[simp] theorem rows_filter : (t.filter s).rows = t.rows.filter s := rfl

/-- A slice of a slice. -/
theorem filter_filter : (t.filter s).filter q = t.filter fun r => s r && q r := by
  ext1
  rw [rows_filter, rows_filter, rows_filter, List.filter_filter]
  exact List.filter_congr fun r _ => Bool.and_comm _ _

/-! ## Selection -/

/-- A row that belongs to the slice, if it is there at all, is found on the slice. -/
theorem find?_filter [DecidableEq κ] {k : κ} (h : ∀ r ∈ t.rows, key r = k → s r = true) :
    (t.filter s).find? k = t.find? k := by
  cases hfind : t.find? k with
  | none =>
      rw [find?_eq_none] at hfind ⊢
      exact fun r hr => hfind r (List.mem_filter.mp hr).1
  | some r =>
      obtain ⟨hmem, hkey⟩ := find?_eq_some.mp hfind
      exact find?_eq_some.mpr ⟨List.mem_filter.mpr ⟨hmem, h r hmem hkey⟩, hkey⟩

/-- The first row is found in the slice that selects it. -/
theorem first?_filter [LinearOrder κ] (h : ∀ r, q r = true → s r = true) :
    (t.filter s).first? q = t.first? q := by
  unfold first?
  rw [rows_filter, List.filter_filter]
  congr 1
  refine List.filter_congr fun r _ => ?_
  cases hq : q r with
  | false => rfl
  | true => simp [h r hq]

/-- So are all that a guard matches. -/
theorem rowcount_filter (h : ∀ r ∈ t.rows, q r = true → s r = true) :
    (t.filter s).rowcount q = t.rowcount q := by
  unfold rowcount
  rw [rows_filter, List.countP_filter]
  refine List.countP_congr fun r hr => ?_
  simp only [Bool.and_eq_true, and_iff_left_iff_imp]
  exact h r hr

/-! ## Updates -/

variable {f : ρ → ρ} (hf : ∀ r, key (f r) = key r)

/-- An update that moves no row in or out of the slice. -/
theorem filter_update (h : ∀ r, s (f r) = s r) :
    (t.update q f hf).filter s = (t.filter s).update q f hf := by
  ext1
  rw [rows_filter, rows_update, rows_update, rows_filter, List.filter_map]
  congr 1
  refine List.filter_congr fun r _ => ?_
  simp only [Function.comp_apply]
  split_ifs
  · exact h r
  · rfl

/-- An update of rows that are not in the slice. -/
theorem filter_update_of_notMem (h : ∀ r, s (f r) = s r)
    (hout : ∀ r ∈ t.rows, q r = true → s r = false) :
    (t.update q f hf).filter s = t.filter s := by
  rw [filter_update hf h]
  ext1
  rw [rows_update, rows_filter]
  conv_rhs => rw [← List.map_id (t.rows.filter s)]
  refine List.map_congr_left fun r hr => ?_
  obtain ⟨hmem, hs⟩ := List.mem_filter.mp hr
  cases hq : q r with
  | false => rfl
  | true =>
      rw [hout r hmem hq] at hs
      cases hs

/-- An update of columns that are not looked at. -/
theorem map_update {β : Type*} {g : ρ → β} (h : ∀ r, g (f r) = g r) :
    (t.update q f hf).rows.map g = t.rows.map g := by
  rw [rows_update, List.map_map]
  refine List.map_congr_left fun r _ => ?_
  simp only [Function.comp_apply]
  split_ifs
  · exact h r
  · rfl

/-! ## Insertions -/

variable [DecidableEq κ] {r : ρ}

/-- A row of the slice whose key no row outside the slice has. -/
theorem insert?_filter (hrow : s r = true) (h : ∀ q ∈ t.rows, key q = key r → s q = true) :
    (t.filter s).insert? r = (t.insert? r).map fun t => t.filter s := by
  cases hins : t.insert? r with
  | none =>
      have hnone : ¬ (t.insert? r).isSome := by simp [hins]
      rw [insert?_isSome, ← find?_filter (s := s) h, ← insert?_isSome] at hnone
      rw [Option.map_none]
      exact Option.not_isSome_iff_eq_none.mp hnone
  | some t' =>
      obtain ⟨hfresh, hrows⟩ := insert?_eq_some.mp hins
      rw [Option.map_some, insert?_eq_some, find?_filter h]
      refine ⟨hfresh, ?_⟩
      rw [rows_filter, rows_filter, hrows, List.filter_append, List.filter_cons_of_pos hrow,
        List.filter_nil]

/-- The insertion of a row that is not in the slice. -/
theorem filter_insert? {t' : Table key} (h : t.insert? r = some t') (hrow : s r = false) :
    t'.filter s = t.filter s := by
  ext1
  rw [rows_filter, rows_filter, (insert?_eq_some.mp h).2, List.filter_append,
    List.filter_cons_of_neg (by simp [hrow]), List.filter_nil, List.append_nil]

end Relational.Table
