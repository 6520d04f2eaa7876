import Mathlib.Data.List.Basic
import Mathlib.Order.Defs.PartialOrder

/-!
# Decision tables

A decision table is a list of rows, each a condition and a verdict.  It is read
from the top, and the first row whose condition holds gives its verdict.

Which verdict that is depends on the order of the rows, so a table is monotone only
if its rows are ordered well: `firstMatch_mono` asks that no row be stricter than a
row above it, besides that every condition be monotone.
-/

namespace Tabular

/-- A condition and the verdict it leads to. -/
structure Row (σ δ : Type*) where
  applies : σ → Bool
  verdict : δ

variable {σ δ : Type*} {table : List (Row σ δ)} {x y : σ} {v : δ}

/-- The verdict of the first row that applies. -/
def firstMatch (table : List (Row σ δ)) (x : σ) : Option δ :=
  (table.find? (·.applies x)).map Row.verdict

/-- Nothing is decided by no rows. -/
@[simp] theorem firstMatch_nil (x : σ) : firstMatch ([] : List (Row σ δ)) x = none := rfl

/-- The first row decides, or the others do. -/
@[simp] theorem firstMatch_cons (row : Row σ δ) (table : List (Row σ δ)) (x : σ) :
    firstMatch (row :: table) x =
      if row.applies x then some row.verdict else firstMatch table x := by
  by_cases h : row.applies x <;> simp [firstMatch, h]

/-- A table set below another is read where the one above is silent. -/
theorem firstMatch_append (above below : List (Row σ δ)) (x : σ) :
    firstMatch (above ++ below) x = (firstMatch above x).or (firstMatch below x) := by
  induction above with
  | nil => rfl
  | cons row above ih =>
      by_cases h : row.applies x <;> simp [h, ih]

/-- A verdict is that of some row which applies. -/
theorem exists_row_of_firstMatch (h : firstMatch table x = some v) :
    ∃ row ∈ table, row.applies x = true ∧ row.verdict = v := by
  obtain ⟨row, hfind, hverdict⟩ := Option.map_eq_some_iff.mp h
  exact ⟨row, List.mem_of_find?_eq_some hfind,
    List.find?_some (p := fun row : Row σ δ => row.applies x) hfind, hverdict⟩

/-- **Monotone tables.**  Where rows get no stricter from the top to the bottom and
what applies to `x` applies to `y`, the verdict on `y` is at least as strict. -/
theorem firstMatch_mono {ι : Type*} [Preorder ι] (strictness : δ → ι)
    (hordered : table.Pairwise fun above below =>
      strictness below.verdict ≤ strictness above.verdict)
    (hgrows : ∀ row ∈ table, row.applies x = true → row.applies y = true)
    (h : firstMatch table x = some v) :
    ∃ w, firstMatch table y = some w ∧ strictness v ≤ strictness w := by
  induction table with
  | nil => simp at h
  | cons row table ih =>
      obtain ⟨habove, hordered⟩ := List.pairwise_cons.mp hordered
      by_cases hy : row.applies y
      · -- the first row decides on `y`; on `x` it does too, or a row below does
        refine ⟨row.verdict, by simp [hy], ?_⟩
        obtain ⟨found, hmem, -, rfl⟩ := exists_row_of_firstMatch h
        rcases List.mem_cons.mp hmem with rfl | hbelow
        · exact le_refl _
        · exact habove found hbelow
      · have hx : row.applies x = false := by
          by_contra hx
          exact hy (hgrows row (by simp) (by simpa using hx))
        obtain ⟨w, hw, hle⟩ := ih hordered
          (fun row' hrow' => hgrows row' (List.mem_cons_of_mem _ hrow'))
          (by simpa [hx] using h)
        exact ⟨w, by simpa [hy] using hw, hle⟩

end Tabular
