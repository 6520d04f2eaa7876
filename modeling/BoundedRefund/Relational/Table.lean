import Mathlib.Data.List.MinMax
import Mathlib.Data.List.Nodup
import Mathlib.Tactic.TypeStar

/-!
# Tables with a primary key

A table is a list of rows whose keys are pairwise distinct, and the distinctness
is a field of the table: a statement that would break the key cannot produce a
table, it has to fail (`insert?`).  The rows stand in insertion order.

The four statements a relational program needs are here with their lemmas: the
look-up by key, the first row of a selection in key order, the insertion, and
the update of the selected rows, which never touches a key.
-/

namespace Relational

universe u v

/-- Rows whose keys are pairwise distinct. -/
@[ext] structure Table {ρ : Type u} {κ : Type v} (key : ρ → κ) where
  rows : List ρ
  nodup : (rows.map key).Nodup

namespace Table

variable {ρ : Type u} {κ : Type v} {key : ρ → κ}

instance [DecidableEq ρ] : DecidableEq (Table key) := fun s t =>
  decidable_of_iff (s.rows = t.rows) (Table.ext_iff).symm

/-- The table without rows. -/
def empty : Table key := ⟨[], by simp⟩

@[simp] theorem rows_empty : (empty : Table key).rows = [] := rfl

/-- Rows of a table with the same key are the same row. -/
theorem eq_of_key_eq {t : Table key} {r q : ρ} (hr : r ∈ t.rows) (hq : q ∈ t.rows)
    (h : key r = key q) : r = q :=
  List.inj_on_of_nodup_map t.nodup hr hq h

/-! ## Selection -/

section Lookup

variable [DecidableEq κ]

/-- `SELECT … WHERE key = k`. -/
def find? (t : Table key) (k : κ) : Option ρ :=
  t.rows.find? fun r => key r = k

/-- A row is found under its own key. -/
@[simp] theorem find?_eq_some {t : Table key} {k : κ} {r : ρ} :
    t.find? k = some r ↔ r ∈ t.rows ∧ key r = k := by
  constructor
  · intro h
    exact ⟨List.mem_of_find?_eq_some h, by simpa using List.find?_some h⟩
  · rintro ⟨hr, rfl⟩
    cases hf : t.rows.find? (fun q => key q = key r) with
    | none => simpa using List.find?_eq_none.mp hf r hr
    | some q =>
        have hq := List.mem_of_find?_eq_some hf
        have hk : key q = key r := by simpa using List.find?_some hf
        rw [find?, hf, t.eq_of_key_eq hq hr hk]

/-- None is found where no row has the key. -/
theorem find?_eq_none {t : Table key} {k : κ} :
    t.find? k = none ↔ ∀ r ∈ t.rows, key r ≠ k := by
  simp [find?, List.find?_eq_none]

/-- Every row is found. -/
theorem find?_of_mem {t : Table key} {r : ρ} (h : r ∈ t.rows) :
    t.find? (key r) = some r := by
  simpa using h

end Lookup

/-- `SELECT … WHERE p ORDER BY key`, the first row. -/
def first? [LinearOrder κ] (t : Table key) (p : ρ → Bool) : Option ρ :=
  (t.rows.filter p).argmin key

/-- The first row is one of those selected. -/
theorem first?_eq_some [LinearOrder κ] {t : Table key} {p : ρ → Bool} {r : ρ}
    (h : t.first? p = some r) : r ∈ t.rows ∧ p r = true := by
  simpa using List.argmin_mem (Option.mem_def.mpr h)

/-- The first row comes before the others. -/
theorem first?_le [LinearOrder κ] {t : Table key} {p : ρ → Bool} {r q : ρ}
    (h : t.first? p = some r) (hq : q ∈ t.rows) (hp : p q = true) : key r ≤ key q :=
  List.le_of_mem_argmin (List.mem_filter.mpr ⟨hq, hp⟩) (Option.mem_def.mpr h)

/-- There is no first row where none is selected. -/
theorem first?_eq_none [LinearOrder κ] {t : Table key} {p : ρ → Bool} :
    t.first? p = none ↔ ∀ r ∈ t.rows, p r = false := by
  simp [first?, List.argmin_eq_none, List.filter_eq_nil_iff]

theorem first?_isSome_of_mem [LinearOrder κ] {t : Table key} {p : ρ → Bool} {r : ρ}
    (hr : r ∈ t.rows) (hp : p r = true) : (t.first? p).isSome := by
  rw [Option.isSome_iff_ne_none, Ne, first?_eq_none]
  intro h
  simp [h r hr] at hp

/-! ## Insertion -/

section Insert

variable [DecidableEq κ]

/-- `INSERT`: fails if the key is taken. -/
def insert? (t : Table key) (r : ρ) : Option (Table key) :=
  if h : key r ∈ t.rows.map key then none
  else some ⟨t.rows ++ [r], by
    rw [List.map_append, List.map_singleton]
    exact t.nodup.append (List.nodup_singleton _) (by simpa using h)⟩

/-- A row goes in at the end, under a key that is free. -/
theorem insert?_eq_some {t t' : Table key} {r : ρ} :
    t.insert? r = some t' ↔ t.find? (key r) = none ∧ t'.rows = t.rows ++ [r] := by
  by_cases h : key r ∈ t.rows.map key
  · have hn : t.find? (key r) ≠ none := by
      rw [Ne, find?_eq_none]
      push Not
      simpa using h
    simp [insert?, h, hn]
  · have hn : t.find? (key r) = none := find?_eq_none.mpr (by simpa using h)
    rw [insert?, dif_neg h, Option.some_inj, Table.ext_iff]
    exact ⟨fun e => ⟨hn, e.symm⟩, fun e => e.2.symm⟩

/-- It goes in exactly when the key is free. -/
theorem insert?_isSome {t : Table key} {r : ρ} :
    (t.insert? r).isSome ↔ t.find? (key r) = none := by
  constructor
  · intro h
    obtain ⟨t', ht'⟩ := Option.isSome_iff_exists.mp h
    exact (insert?_eq_some.mp ht').1
  · intro h
    have hk : key r ∉ t.rows.map key := by simpa using find?_eq_none.mp h
    simp [insert?, hk]

/-- It is found under its key, and the others under theirs. -/
theorem find?_insert? {t t' : Table key} {r : ρ} (h : t.insert? r = some t') (k : κ) :
    t'.find? k = if key r = k then some r else t.find? k := by
  obtain ⟨hn, hrows⟩ := insert?_eq_some.mp h
  by_cases hk : key r = k
  · subst hk
    simp [hrows]
  · simp only [find?, hrows, List.find?_append, hk, decide_false, List.find?_cons_of_neg,
      List.find?_nil, Option.or_none, if_false, Bool.false_eq_true, not_false_eq_true]

/-- Rows that were there before an insertion are still there. -/
theorem find?_insert?_of_some {t t' : Table key} {r q : ρ} {k : κ}
    (h : t.insert? r = some t') (hq : t.find? k = some q) : t'.find? k = some q := by
  have hne : key r ≠ k := by
    rintro rfl
    simp [(insert?_eq_some.mp h).1] at hq
  rw [find?_insert? h, if_neg hne, hq]

/-- The table of the given rows; of rows with one key, the first. -/
def ofRows (rows : List ρ) : Table key :=
  rows.foldl (fun t r => (t.insert? r).getD t) empty

/-- Every row of the table was given. -/
theorem mem_of_mem_ofRows {rows : List ρ} {r : ρ} (h : r ∈ (ofRows rows : Table key).rows) :
    r ∈ rows := by
  have given : ∀ (rows : List ρ) (t : Table key),
      r ∈ (rows.foldl (fun t r => (t.insert? r).getD t) t).rows → r ∈ t.rows ∨ r ∈ rows := by
    intro rows
    induction rows with
    | nil => exact fun t h => Or.inl h
    | cons q rows ih =>
        intro t h
        rcases ih _ h with h | h
        · dsimp only at h
          cases hins : t.insert? q with
          | none =>
              rw [hins] at h
              exact Or.inl h
          | some t' =>
              rw [hins, Option.getD_some, (insert?_eq_some.mp hins).2, List.mem_append,
                List.mem_singleton] at h
              rcases h with h | rfl
              · exact Or.inl h
              · exact Or.inr List.mem_cons_self
        · exact Or.inr (List.mem_cons_of_mem _ h)
  simpa using given rows empty h

/-- Every key that was given is in the table. -/
theorem find?_ofRows_isSome {rows : List ρ} {r : ρ} (h : r ∈ rows) :
    ((ofRows rows : Table key).find? (key r)).isSome := by
  -- a key that is in the table stays, and inserting a row leaves its key in any case
  have stays : ∀ (rows : List ρ) (t : Table key), (t.find? (key r)).isSome →
      ((rows.foldl (fun t r => (t.insert? r).getD t) t).find? (key r)).isSome := by
    intro rows
    induction rows with
    | nil => exact fun t h => h
    | cons q rows ih =>
        intro t h
        refine ih _ ?_
        dsimp only
        cases hins : t.insert? q with
        | none => exact h
        | some t' =>
            obtain ⟨s, hs⟩ := Option.isSome_iff_exists.mp h
            rw [Option.getD_some, find?_insert?_of_some hins hs]
            rfl
  have given : ∀ (rows : List ρ) (t : Table key), r ∈ rows →
      ((rows.foldl (fun t r => (t.insert? r).getD t) t).find? (key r)).isSome := by
    intro rows
    induction rows with
    | nil => exact fun t h => absurd h List.not_mem_nil
    | cons q rows ih =>
        intro t h
        rcases List.mem_cons.mp h with rfl | h
        · refine stays rows _ ?_
          dsimp only
          cases hins : t.insert? r with
          | none =>
              rw [Option.getD_none, Option.isSome_iff_ne_none]
              intro hnone
              have hsome : (t.insert? r).isSome := insert?_isSome.mpr hnone
              simp [hins] at hsome
          | some t' =>
              rw [Option.getD_some, find?_insert? hins, if_pos rfl]
              rfl
        · exact ih _ h
  exact given rows empty h

end Insert

/-! ## Update -/

/-- `UPDATE … WHERE p`: the selected rows are rewritten by `f`, which keeps keys. -/
def update (t : Table key) (p : ρ → Bool) (f : ρ → ρ) (hf : ∀ r, key (f r) = key r) :
    Table key where
  rows := t.rows.map fun r => if p r then f r else r
  nodup := by
    have hkeys : key ∘ (fun r => if p r then f r else r) = key := by
      funext r
      by_cases hp : p r <;> simp [hp, hf]
    rw [List.map_map, hkeys]
    exact t.nodup

/-- How many rows an update with this selection changes. -/
def rowcount (t : Table key) (p : ρ → Bool) : Nat := t.rows.countP p

section Update

variable {t : Table key} {p : ρ → Bool} {f : ρ → ρ} {hf : ∀ r, key (f r) = key r}

@[simp] theorem rows_update :
    (t.update p f hf).rows = t.rows.map fun r => if p r then f r else r := rfl

/-- The rows behind an update. -/
theorem mem_update {q : ρ} :
    q ∈ (t.update p f hf).rows ↔ ∃ r ∈ t.rows, (if p r then f r else r) = q := by
  simp

variable (hf) in
/-- What the rows that stay have and the rewritten ones have, all have afterwards. -/
theorem forall_update_of {P P' : ρ → Prop} (h : ∀ r ∈ t.rows, P r) (hstay : ∀ r, P r → P' r)
    (hnew : ∀ r, P r → P' (f r)) : ∀ q ∈ (t.update p f hf).rows, P' q := by
  intro q hq
  obtain ⟨r, hr, rfl⟩ := mem_update.mp hq
  split_ifs
  · exact hnew r (h r hr)
  · exact hstay r (h r hr)

variable (hf) in
/-- What holds of every row and is kept by the rewriting holds of every row afterwards. -/
theorem forall_update {P : ρ → Prop} (h : ∀ r ∈ t.rows, P r) (hkeep : ∀ r, P r → P (f r)) :
    ∀ q ∈ (t.update p f hf).rows, P q :=
  forall_update_of hf h (fun _ h => h) hkeep

/-- A row is found under its key behind an update as well. -/
@[simp] theorem find?_update [DecidableEq κ] (k : κ) :
    (t.update p f hf).find? k = (t.find? k).map fun r => if p r then f r else r := by
  cases h : t.find? k with
  | none =>
      rw [find?_eq_none] at h
      rw [Option.map_none, find?_eq_none]
      intro q hq
      obtain ⟨r, hr, rfl⟩ := mem_update.mp hq
      by_cases hp : p r <;> simp [hp, hf, h r hr]
  | some r =>
      rw [find?_eq_some] at h
      rw [Option.map_some, find?_eq_some, mem_update]
      refine ⟨⟨r, h.1, rfl⟩, ?_⟩
      by_cases hp : p r <;> simp [hp, hf, h.2]

variable (hf) in
/-- An update that changes nothing rows are selected by leaves the same row first. -/
theorem first?_update [LinearOrder κ] {q : ρ → Bool} (hq : ∀ r, q (f r) = q r) :
    ((t.update p f hf).first? q).map key = (t.first? q).map key := by
  have image : ∀ r, q (if p r then f r else r) = q r ∧
      key (if p r then f r else r) = key r := by
    intro r
    split_ifs
    · exact ⟨hq r, hf r⟩
    · exact ⟨rfl, rfl⟩
  cases h : t.first? q with
  | none =>
      rw [first?_eq_none] at h
      rw [Option.map_none, Option.map_eq_none_iff, first?_eq_none]
      intro s hs
      obtain ⟨r, hr, rfl⟩ := mem_update.mp hs
      rw [(image r).1, h r hr]
  | some r =>
      obtain ⟨hr, hqr⟩ := first?_eq_some h
      have hmem : (if p r then f r else r) ∈ (t.update p f hf).rows :=
        mem_update.mpr ⟨r, hr, rfl⟩
      have hqmem : q (if p r then f r else r) = true := (image r).1.trans hqr
      obtain ⟨s, hs⟩ := Option.isSome_iff_exists.mp (first?_isSome_of_mem hmem hqmem)
      obtain ⟨hsmem, hqs⟩ := first?_eq_some hs
      obtain ⟨r', hr', rfl⟩ := mem_update.mp hsmem
      rw [hs, Option.map_some, Option.map_some, (image r').2]
      have hle := first?_le hs hmem hqmem
      rw [(image r').2, (image r).2] at hle
      exact congrArg some (le_antisymm hle (first?_le h hr' ((image r').1.symm.trans hqs)))

/-- A guarded update of the row with a given key changes exactly one row iff the
row is there and satisfies the guard. -/
theorem rowcount_eq_one [DecidableEq κ] (t : Table key) (k : κ) (g : ρ → Bool) :
    t.rowcount (fun r => key r = k && g r) = 1 ↔ ∃ r, t.find? k = some r ∧ g r = true := by
  have key_unique : ∀ rows : List ρ, (rows.map key).Nodup →
      (rows.countP (fun r => key r = k && g r) = 1 ↔
        ∃ r ∈ rows, key r = k ∧ g r = true) := by
    intro rows hnd
    induction rows with
    | nil => simp
    | cons a rows ih =>
        rw [List.map_cons, List.nodup_cons] at hnd
        rw [List.countP_cons]
        by_cases ha : key a = k
        · -- the key occurs at the head, so nowhere behind it
          have hrest : rows.countP (fun r => key r = k && g r) = 0 := by
            rw [List.countP_eq_zero]
            intro r hr hp
            simp only [Bool.and_eq_true, decide_eq_true_eq] at hp
            exact hnd.1 (List.mem_map.mpr ⟨r, hr, hp.1.trans ha.symm⟩)
          have hnone : ∀ r ∈ rows, key r = k → g r ≠ true := by
            intro r hr hk
            exact absurd (List.mem_map.mpr ⟨r, hr, hk.trans ha.symm⟩) hnd.1
          rw [hrest]
          cases hg : g a with
          | true => simp [ha, hg]
          | false =>
              simp only [ha, decide_true, hg, Bool.and_false, Bool.false_eq_true, if_false,
                List.mem_cons, exists_eq_or_imp, and_false, false_or]
              simpa using fun r hr hk => by simpa using hnone r hr hk
        · simp [ha, ih hnd.2]
  simpa [rowcount, and_assoc] using key_unique t.rows t.nodup

variable (hf) in
/-- An update that brings one row into a selection adds that row to it. -/
theorem filter_update_perm [DecidableEq κ] {k : κ} {r : ρ} (h : t.find? k = some r)
    {g : ρ → Bool} (hout : g r = false) (hin : g (f r) = true) :
    ((t.update (fun q => key q = k) f hf).rows.filter g).Perm (f r :: t.rows.filter g) := by
  obtain ⟨hmem, hk⟩ := find?_eq_some.mp h
  -- by induction on the rows, whose keys differ
  have split : ∀ rows : List ρ, (rows.map key).Nodup → r ∈ rows →
      ((rows.map fun q => if decide (key q = k) then f q else q).filter g).Perm
        (f r :: rows.filter g) := by
    intro rows hnd hr
    induction rows with
    | nil => cases hr
    | cons a rows ih =>
        rw [List.map_cons, List.nodup_cons] at hnd
        by_cases ha : key a = k
        · -- this is the row, and the key does not occur behind it
          have har : r = a := by
            rcases List.mem_cons.mp hr with rfl | hr
            · rfl
            · exact absurd (List.mem_map.mpr ⟨r, hr, hk.trans ha.symm⟩) hnd.1
          subst har
          have hrest : (rows.map fun q => if decide (key q = k) then f q else q) = rows := by
            conv_rhs => rw [← List.map_id rows]
            refine List.map_congr_left fun q hq => ?_
            have hne : key q ≠ k := fun hqk =>
              hnd.1 (List.mem_map.mpr ⟨q, hq, hqk.trans ha.symm⟩)
            simp [hne]
          rw [List.map_cons, hrest]
          simp [ha, hout, hin]
        · have hr' : r ∈ rows := by
            rcases List.mem_cons.mp hr with rfl | hr
            · exact absurd hk ha
            · exact hr
          have hrest := ih hnd.2 hr'
          cases hg : g a with
          | false => simpa [ha, hg] using hrest
          | true =>
              simp only [List.map_cons, ha, decide_false, Bool.false_eq_true, if_false,
                List.filter_cons, hg, if_true]
              exact (hrest.cons a).trans (List.Perm.swap _ _ _)
  simpa using split t.rows t.nodup hmem

end Update

end Table

end Relational
