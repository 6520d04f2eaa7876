import Mathlib.Algebra.Order.BigOperators.Group.Finset
import Mathlib.Combinatorics.Hall.Basic
import Mathlib.Data.Fintype.Fin

/-!
# Demands and supplies

Demands are put to a stock of supplies.  A supply covers a demand of its own kind whose amount it
fits, and what fits an amount fits every smaller one (`Market`).

A list of demands can be served in two senses.  There is an assignment (`Assigned`) if every demand
can have a supply of its own.  The demands are served in order (`InOrder`) if that is so when each
of them takes the first supply of its kind that is left, whatever that one fits.

* `assigned_iff`: there is an assignment unless some demand is one of too many, that is, unless
  the demands of its kind and of its amount or more outnumber the supplies that cover it.  This is
  Hall's condition; of the demands of one kind, the smallest decides.
* `InOrder.assigned`: demands that are served in order have an assignment.  The converse fails.
-/

namespace Allotment

open Finset

/-- Demands and supplies with their kinds.  A supply fits amounts up to some bound. -/
structure Market (μ π κ ι : Type*) [LinearOrder ι] where
  kind : μ → κ
  amount : μ → ι
  stock : π → κ
  fits : π → ι → Prop
  antitone : ∀ supply, Antitone (fits supply)

namespace Market

variable {μ π κ ι : Type*} [LinearOrder ι] (M : Market μ π κ ι)

/-- The supply is of the demand's kind and large enough. -/
def Covers (supply : π) (demand : μ) : Prop :=
  M.stock supply = M.kind demand ∧ M.fits supply (M.amount demand)

/-- The second demand is of the kind of the first, and no smaller. -/
def Exceeds (demand other : μ) : Prop :=
  M.kind other = M.kind demand ∧ M.amount demand ≤ M.amount other

/-- Each demand gets a supply of its own that covers it. -/
def Assigned (demands : List μ) (supplies : List π) : Prop :=
  ∃ assign : Fin demands.length → Fin supplies.length,
    Function.Injective assign ∧ ∀ i, M.Covers supplies[assign i] demands[i]

variable {M}

/-- What covers a demand covers a smaller one of its kind. -/
theorem Covers.of_exceeds {supply : π} {demand other : μ} (h : M.Covers supply other)
    (hexceeds : M.Exceeds demand other) : M.Covers supply demand :=
  ⟨h.1.trans hexceeds.1, M.antitone supply hexceeds.2 h.2⟩

/-- Positions and entries of a list are counted alike. -/
theorem card_positions {α : Type*} (l : List α) (p : α → Prop) [DecidablePred p] :
    #{i : Fin l.length | p l[i]} = l.countP fun a => decide (p a) := by
  induction l with
  | nil => rfl
  | cons a l ih =>
      have hsucc := Fin.card_filter_univ_succ' fun i : Fin (l.length + 1) => p (a :: l)[i]
      rw [List.countP_cons, ← ih]
      refine hsucc.trans ?_
      by_cases ha : p a <;> simp [ha, Nat.add_comm]

section Counting

variable [DecidableEq κ] [∀ supply, DecidablePred (M.fits supply)]

instance (supply : π) (demand : μ) : Decidable (M.Covers supply demand) :=
  inferInstanceAs (Decidable (_ ∧ _))

instance (demand other : μ) : Decidable (M.Exceeds demand other) :=
  inferInstanceAs (Decidable (_ ∧ _))

variable (M) in
/-- Some demand is one of too many: those that exceed it are more than what covers it. -/
def Short (demands : List μ) (supplies : List π) : Prop :=
  ∃ demand ∈ demands,
    (supplies.countP fun supply => decide (M.Covers supply demand)) <
      demands.countP fun other => decide (M.Exceeds demand other)

variable {demands : List μ} {supplies : List π}

/-- What exceeds a demand has its supply among those that cover the demand. -/
theorem Assigned.not_short (h : M.Assigned demands supplies) : ¬ M.Short demands supplies := by
  obtain ⟨assign, hinj, hcovers⟩ := h
  rintro ⟨demand, -, hlt⟩
  refine absurd hlt (not_lt.mpr ?_)
  rw [← card_positions, ← card_positions]
  refine Finset.card_le_card_of_injOn assign (fun i hi => ?_) hinj.injOn
  have hexceeds : M.Exceeds demand demands[i] := by simpa using hi
  simpa using (hcovers i).of_exceeds hexceeds

/-- The demands of one kind in a set of positions: the least of them decides. -/
theorem card_kind_le (h : ¬ M.Short demands supplies) (S : Finset (Fin demands.length)) (k : κ)
    (hk : k ∈ S.image fun i => M.kind demands[i]) :
    #{i ∈ S | M.kind demands[i] = k} ≤
      #{j ∈ S.biUnion fun i => {j : Fin supplies.length | M.Covers supplies[j] demands[i]} |
        M.stock supplies[j] = k} := by
  have hne : ({i ∈ S | M.kind demands[i] = k} : Finset _).Nonempty := by
    obtain ⟨i, hi, rfl⟩ := Finset.mem_image.mp hk
    exact ⟨i, by simp [hi]⟩
  obtain ⟨least, hleast, hmin⟩ := Finset.exists_min_image _ (fun i => M.amount demands[i]) hne
  obtain ⟨hmem, rfl⟩ := Finset.mem_filter.mp hleast
  have hcount : (demands.countP fun other => decide (M.Exceeds demands[least] other)) ≤
      supplies.countP fun supply => decide (M.Covers supply demands[least]) :=
    not_lt.mp fun hlt => h ⟨_, List.getElem_mem _, hlt⟩
  rw [← card_positions, ← card_positions] at hcount
  calc #{i ∈ S | M.kind demands[i] = M.kind demands[least]}
      ≤ #{i : Fin demands.length | M.Exceeds demands[least] demands[i]} := by
        refine Finset.card_le_card fun i hi => ?_
        have hkind := (Finset.mem_filter.mp hi).2
        exact Finset.mem_filter.mpr ⟨Finset.mem_univ i, hkind, hmin i hi⟩
    _ ≤ #{j : Fin supplies.length | M.Covers supplies[j] demands[least]} := hcount
    _ ≤ _ := by
        refine Finset.card_le_card fun j hj => ?_
        have hcovers : M.Covers supplies[j] demands[least] := by simpa using hj
        simp only [Finset.mem_filter, Finset.mem_biUnion, Finset.mem_univ, true_and]
        exact ⟨⟨least, hmem, hcovers⟩, hcovers.1⟩

/-- **Hall's condition.**  An assignment exists unless some demand is one of too many. -/
theorem assigned_iff : M.Assigned demands supplies ↔ ¬ M.Short demands supplies := by
  refine ⟨Assigned.not_short, fun h => ?_⟩
  have hall := (Finset.all_card_le_biUnion_card_iff_exists_injective
    fun i : Fin demands.length =>
      ({j | M.Covers supplies[j] demands[i]} : Finset (Fin supplies.length))).mp fun S => ?_
  · obtain ⟨assign, hinj, hcovers⟩ := hall
    exact ⟨assign, hinj, fun i => by simpa using hcovers i⟩
  -- a set of demands is counted kind by kind
  have hmaps : ∀ j ∈ S.biUnion fun i =>
      ({j | M.Covers supplies[j] demands[i]} : Finset (Fin supplies.length)),
      M.stock supplies[j] ∈ S.image fun i => M.kind demands[i] := by
    intro j hj
    obtain ⟨i, hi, hcovers⟩ := Finset.mem_biUnion.mp hj
    have hcovers : M.Covers supplies[j] demands[i] := by simpa using hcovers
    exact Finset.mem_image.mpr ⟨i, hi, hcovers.1.symm⟩
  rw [Finset.card_eq_sum_card_image (fun i => M.kind demands[i]) S,
    Finset.card_eq_sum_card_fiberwise hmaps]
  exact Finset.sum_le_sum fun k hk => card_kind_le h S k hk

/-! ## Serving in order -/

variable (M) in
/-- Each demand is covered by the supply at its place among those of their kind. -/
def InOrder (demands : List μ) (supplies : List π) : Prop :=
  ∀ k, List.Forall₂ (fun demand supply => M.Covers supply demand)
    (demands.filter fun demand => M.kind demand = k)
    ((supplies.filter fun supply => M.stock supply = k).take
      (demands.filter fun demand => M.kind demand = k).length)

omit [∀ supply, DecidablePred (M.fits supply)] in
/-- Without demands everything is in order. -/
theorem inOrder_nil (supplies : List π) : M.InOrder [] supplies := by
  intro k
  simp

/-- Without the first supply of one kind, those of another kind are what they were. -/
theorem filter_eraseP_of_ne {stock : π → κ} {k k' : κ} (hne : k' ≠ k) (supplies : List π) :
    (supplies.eraseP fun supply => stock supply = k).filter (fun supply => stock supply = k') =
      supplies.filter fun supply => stock supply = k' := by
  induction supplies with
  | nil => rfl
  | cons supply supplies ih =>
      by_cases h : stock supply = k
      · have hother : stock supply ≠ k' := fun h' => hne (h'.symm.trans h)
        simp [h, hne.symm]
      · by_cases h' : stock supply = k' <;> simp [h, h', ih, hne]

/-- Those of its kind are the first one and those left without it. -/
theorem filter_of_find? {stock : π → κ} {k : κ} {first : π} {supplies : List π}
    (h : supplies.find? (fun supply => stock supply = k) = some first) :
    supplies.filter (fun supply => stock supply = k) =
      first :: (supplies.eraseP fun supply => stock supply = k).filter
        fun supply => stock supply = k := by
  induction supplies with
  | nil => cases h
  | cons supply supplies ih =>
      by_cases hk : stock supply = k
      · rw [List.find?_cons_of_pos (by simpa using hk)] at h
        cases h
        simp [hk]
      · rw [List.find?_cons_of_neg (by simpa using hk)] at h
        simp [hk, ih h]

omit [∀ supply, DecidablePred (M.fits supply)] in
/-- The first demand takes the first supply of its kind, and the others are served from what is
left. -/
theorem inOrder_cons {demand : μ} : M.InOrder (demand :: demands) supplies ↔
    ∃ supply, supplies.find? (fun supply => M.stock supply = M.kind demand) = some supply ∧
      M.fits supply (M.amount demand) ∧
      M.InOrder demands (supplies.eraseP fun supply => M.stock supply = M.kind demand) := by
  constructor
  · intro h
    have hkind := h (M.kind demand)
    cases hfind : supplies.find? (fun supply => M.stock supply = M.kind demand) with
    | none =>
        have hnone : supplies.filter (fun supply => M.stock supply = M.kind demand) = [] :=
          List.filter_eq_nil_iff.mpr (List.find?_eq_none.mp hfind)
        rw [hnone] at hkind
        simp at hkind
    | some supply =>
        rw [filter_of_find? hfind] at hkind
        simp only [decide_true, List.filter_cons_of_pos, List.length_cons, List.take_succ_cons,
          List.forall₂_cons] at hkind
        refine ⟨supply, rfl, hkind.1.2, fun k => ?_⟩
        by_cases hk : k = M.kind demand
        · exact hk ▸ hkind.2
        · simpa [filter_eraseP_of_ne hk, Ne.symm hk] using h k
  · rintro ⟨supply, hfind, hfits, h⟩ k
    by_cases hk : k = M.kind demand
    · subst hk
      have hstock : M.stock supply = M.kind demand := by simpa using List.find?_some hfind
      rw [filter_of_find? hfind]
      simpa using ⟨⟨hstock, hfits⟩, h _⟩
    · simpa [filter_eraseP_of_ne hk, Ne.symm hk] using h k

/-- What is counted on the left is counted at the same place on the right. -/
theorem countP_le_of_forall₂ {α β : Type*} {R : α → β → Prop} {p : α → Bool} {q : β → Bool}
    {xs : List α} {ys : List β} (h : List.Forall₂ R xs ys)
    (hpq : ∀ x y, R x y → p x = true → q y = true) : xs.countP p ≤ ys.countP q := by
  induction h with
  | nil => rfl
  | @cons x y xs ys hxy _ ih =>
      have hhead := hpq x y hxy
      rw [List.countP_cons, List.countP_cons]
      cases hx : p x with
      | false => exact Nat.le_add_right_of_le ih
      | true => simpa [hhead hx] using ih

/-- Those that exceed a demand are served by as many supplies that cover it. -/
theorem InOrder.not_short (h : M.InOrder demands supplies) : ¬ M.Short demands supplies := by
  rintro ⟨demand, -, hlt⟩
  refine absurd hlt (not_lt.mpr ?_)
  have hle := countP_le_of_forall₂ (h (M.kind demand))
    (p := fun other => M.Exceeds demand other) (q := fun supply => M.Covers supply demand)
    fun other supply hcovers hexceeds => by
      simpa using hcovers.of_exceeds (by simpa using hexceeds)
  calc (demands.countP fun other => decide (M.Exceeds demand other))
      = (demands.filter fun other => M.kind other = M.kind demand).countP
          fun other => M.Exceeds demand other := by
        rw [List.countP_filter]
        refine List.countP_congr fun other _ => ?_
        simp only [Bool.and_eq_true, decide_eq_true_eq]
        exact ⟨fun hexceeds => ⟨hexceeds, hexceeds.1⟩, And.left⟩
    _ ≤ _ := hle
    _ ≤ (supplies.filter fun supply => M.stock supply = M.kind demand).countP
          fun supply => M.Covers supply demand := (List.take_sublist _ _).countP_le
    _ ≤ supplies.countP fun supply => M.Covers supply demand :=
        List.filter_sublist.countP_le

/-- Demands that are served in order are served. -/
theorem InOrder.assigned (h : M.InOrder demands supplies) : M.Assigned demands supplies :=
  assigned_iff.mpr h.not_short

end Counting

end Market

end Allotment
