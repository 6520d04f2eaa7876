import Mathlib.Data.List.Basic

/-!
# Scanners

A scanner reads a value off the front of a text and hands on what is left.  Two facts about a
scanner make it compose: what it makes of the text a value is written as, followed by anything
that cannot be taken for a part of it (`Scanner.Reads`), and that what it has once read it reads
again when the text goes on (`Scanner.Extends`).  The first gives round trips, the second says
what becomes of a text that is cut off.

A scanner that repeats another one takes a bound on the number of rounds; any bound that is not
too small will do, and the two rules say so.
-/

namespace Textual

/-- Reads a value off the front of a text, or fails. -/
abbrev Scanner (α : Type) : Type := StateT (List Char) Option α

namespace Scanner

variable {α β : Type} {p q : Scanner α} {f g : α → Scanner β}

/-! ## What is read -/

/-- From `x`, followed by anything in `N`, `p` reads `a` and nothing more. -/
def Reads (p : Scanner α) (x : List Char) (a : α) (N : List Char → Prop := fun _ => True) :
    Prop :=
  ∀ r, N r → p (x ++ r) = some (a, r)

section Reads

variable {x y : List Char} {a : α} {b : β} {N M : List Char → Prop}

/-- It reads before fewer continuations as well. -/
theorem Reads.mono (h : Reads p x a N) (hnext : ∀ r, M r → N r) : Reads p x a M :=
  fun r hr => h r (hnext r hr)

theorem reads_pure (a : α) : Reads (pure a) [] a N := fun _ _ => rfl

/-- One text after the other. -/
theorem Reads.bind (hp : Reads p x a N) (hf : Reads (f a) y b M)
    (hnext : ∀ r, M r → N (y ++ r)) : Reads (p >>= f) (x ++ y) b M := by
  intro r hr
  have hfirst : p (x ++ y ++ r) = some (a, y ++ r) := by
    rw [List.append_assoc]
    exact hp _ (hnext r hr)
  change (p (x ++ y ++ r)).bind (fun s => f s.1 s.2) = _
  rw [hfirst]
  exact hf r hr

end Reads

/-! ## What is read again -/

/-- What `p` reads, `q` reads as well, however the text goes on. -/
def Extends (p q : Scanner α) : Prop :=
  ∀ ⦃s a r⦄, p s = some (a, r) → ∀ t, q (s ++ t) = some (a, r ++ t)

/-- What `p` reads and leaves something behind, `q` reads as well, however the text goes on.
This is all there is for a value whose end shows only in what follows. -/
def Settles (p q : Scanner α) : Prop :=
  ∀ ⦃s a r⦄, p s = some (a, r) → r ≠ [] → ∀ t, q (s ++ t) = some (a, r ++ t)

/-- What extends settles. -/
theorem Extends.settles (h : Extends p q) : Settles p q := fun _ _ _ hp _ => h hp

/-- A scanner with something left to read. -/
def Hungry (p : Scanner α) : Prop := p [] = none

/-- One scanner reads behind another. -/
theorem bind_eq_some {s r : List Char} {b : β} :
    (p >>= f) s = some (b, r) ↔ ∃ a mid, p s = some (a, mid) ∧ f a mid = some (b, r) := by
  change (p s).bind (fun x => f x.1 x.2) = _ ↔ _
  rw [Option.bind_eq_some_iff]
  constructor
  · rintro ⟨⟨a, mid⟩, hp, hf⟩
    exact ⟨a, mid, hp, hf⟩
  · rintro ⟨a, mid, hp, hf⟩
    exact ⟨(a, mid), hp, hf⟩

theorem bind_of_eq_some {s mid : List Char} {a : α} (h : p s = some (a, mid)) :
    (p >>= f) s = f a mid := by
  change (p s).bind (fun x => f x.1 x.2) = _
  rw [h]
  rfl

/-- What follows on a hungry scanner is hungry. -/
theorem Hungry.bind (h : Hungry p) : Hungry (p >>= f) := by
  change (p []).bind (fun x => f x.1 x.2) = none
  rw [h]
  rfl

theorem extends_pure (a : α) : Extends (pure a) (pure a) := by
  intro s b r h t
  cases h
  rfl

theorem extends_failure : Extends (failure : Scanner α) q := by
  intro s a r h
  cases h

theorem extends_ite {p' q' : Scanner α} {c : Prop} [Decidable c] (h : c → Extends p p')
    (h' : ¬c → Extends q q') : Extends (if c then p else q) (if c then p' else q') := by
  split_ifs with hc
  · exact h hc
  · exact h' hc

/-- The rule for sequential composition. -/
theorem Extends.bind (hp : Extends p q) (hf : ∀ a, Extends (f a) (g a)) :
    Extends (p >>= f) (q >>= g) := by
  intro s b r h t
  obtain ⟨a, mid, hfirst, hsecond⟩ := bind_eq_some.mp h
  rw [bind_of_eq_some (hp hfirst t)]
  exact hf a hsecond t

/-- Where something follows, it is enough that the first part settles. -/
theorem Settles.bind (hp : Settles p q) (hhungry : ∀ a, Hungry (f a))
    (hf : ∀ a, Extends (f a) (g a)) : Extends (p >>= f) (q >>= g) := by
  intro s b r h t
  obtain ⟨a, mid, hfirst, hsecond⟩ := bind_eq_some.mp h
  have hne : mid ≠ [] := by
    rintro rfl
    rw [hhungry a] at hsecond
    cases hsecond
  rw [bind_of_eq_some (hp hfirst hne t)]
  exact hf a hsecond t

/-- Where both parts only settle, and from nothing the second one leaves nothing. -/
theorem Settles.bind_settles (hp : Settles p q) (hend : ∀ a b r, f a [] = some (b, r) → r = [])
    (hf : ∀ a, Settles (f a) (g a)) : Settles (p >>= f) (q >>= g) := by
  intro s b r h hne t
  obtain ⟨a, mid, hfirst, hsecond⟩ := bind_eq_some.mp h
  have hmid : mid ≠ [] := by
    rintro rfl
    exact hne (hend a b r hsecond)
  rw [bind_of_eq_some (hp hfirst hmid t)]
  exact hf a hsecond hne t

/-- Behind a first part that is read again, the second one decides. -/
theorem Extends.bind_settles (hp : Extends p q) (hf : ∀ a, Settles (f a) (g a)) :
    Settles (p >>= f) (q >>= g) := by
  intro s b r h hne t
  obtain ⟨a, mid, hfirst, hsecond⟩ := bind_eq_some.mp h
  rw [bind_of_eq_some (hp hfirst t)]
  exact hf a hsecond hne t

theorem map_eq_some {h : α → β} {s r : List Char} {b : β} :
    (h <$> p) s = some (b, r) ↔ ∃ a, p s = some (a, r) ∧ h a = b := by
  rw [map_eq_pure_bind, bind_eq_some]
  constructor
  · rintro ⟨a, mid, hp, hb⟩
    cases hb
    exact ⟨a, hp, rfl⟩
  · rintro ⟨a, hp, rfl⟩
    exact ⟨a, r, hp, rfl⟩

/-- What is read may be changed. -/
theorem Reads.map {x : List Char} {a : α} {N : List Char → Prop} (hp : Reads p x a N)
    (h : α → β) : Reads (h <$> p) x (h a) N :=
  fun r hr => map_eq_some.mpr ⟨a, hp r hr, rfl⟩

/-- An extension stays one. -/
theorem Extends.map (hp : Extends p q) (h : α → β) : Extends (h <$> p) (h <$> q) := by
  intro s b r hs t
  obtain ⟨a, hfirst, rfl⟩ := map_eq_some.mp hs
  exact map_eq_some.mpr ⟨a, hp hfirst t, rfl⟩

theorem Settles.map (hp : Settles p q) (h : α → β) : Settles (h <$> p) (h <$> q) := by
  intro s b r hs hne t
  obtain ⟨a, hfirst, rfl⟩ := map_eq_some.mp hs
  exact map_eq_some.mpr ⟨a, hp hfirst hne t, rfl⟩

end Scanner

open Scanner

/-! ## Characters and blanks -/

/-- The next character. -/
def next : Scanner Char
  | [] => none
  | c :: s => some (c, s)

theorem next_extends : Extends next next := by
  intro s a r h t
  cases s with
  | nil => cases h
  | cons c s =>
      cases h
      rfl

/-- One character is read. -/
theorem next_reads (c : Char) : Reads next [c] c := fun _ _ => rfl

/-- The characters between tokens. -/
def isBlank (c : Char) : Bool := c = ' ' || c = '\t' || c = '\n' || c = '\r'

/-- What is left behind the blanks. -/
def skipBlanks (s : List Char) : List Char := s.dropWhile isBlank

/-- No other character is skipped. -/
theorem skipBlanks_cons {c : Char} (h : isBlank c = false) (s : List Char) :
    skipBlanks (c :: s) = c :: s := by
  simp [skipBlanks, h]

/-- A blank is. -/
theorem skipBlanks_cons_blank {c : Char} (h : isBlank c = true) (s : List Char) :
    skipBlanks (c :: s) = skipBlanks s := by
  simp [skipBlanks, h]

/-- What is not blank stays in front. -/
theorem skipBlanks_append {s : List Char} (h : skipBlanks s ≠ []) (t : List Char) :
    skipBlanks (s ++ t) = skipBlanks s ++ t := by
  induction s with
  | nil => exact absurd rfl h
  | cons c s ih =>
      cases hc : isBlank c with
      | true =>
          rw [skipBlanks_cons_blank hc] at h ⊢
          rw [List.cons_append, skipBlanks_cons_blank hc]
          exact ih h
      | false => rw [List.cons_append, skipBlanks_cons hc, skipBlanks_cons hc, List.cons_append]

/-- `p`, behind any blanks. -/
def token {α : Type} (p : Scanner α) : Scanner α := fun s => p (skipBlanks s)

section Token

variable {α : Type} {p q : Scanner α}

/-- Blanks before it do not matter. -/
theorem token_settles (hhungry : Hungry p) (h : Settles p q) : Settles (token p) (token q) := by
  intro s a r hp hne t
  have hs : skipBlanks s ≠ [] := by
    intro hs
    rw [token, hs, hhungry] at hp
    cases hp
  rw [token, skipBlanks_append hs]
  exact h hp hne t

theorem token_extends (hhungry : Hungry p) (h : Extends p q) : Extends (token p) (token q) := by
  intro s a r hp t
  have hs : skipBlanks s ≠ [] := by
    intro hs
    rw [token, hs, hhungry] at hp
    cases hp
  rw [token, skipBlanks_append hs]
  exact h hp t

/-- A token is read where it begins. -/
theorem token_reads {c : Char} {x : List Char} {a : α} {N : List Char → Prop}
    (h : Reads p (c :: x) a N) (hc : isBlank c = false) : Reads (token p) (c :: x) a N := by
  intro r hr
  rw [token, List.cons_append, skipBlanks_cons hc]
  exact h r hr

/-- It is read behind a blank. -/
theorem token_reads_blank {c : Char} {x : List Char} {a : α} {N : List Char → Prop}
    (h : Reads (token p) x a N) (hc : isBlank c = true) :
    Reads (token p) (c :: x) a N := by
  intro r hr
  rw [token, List.cons_append, skipBlanks_cons_blank hc]
  exact h r hr

end Token

/-- The next character that is not blank. -/
def mark : Scanner Char := token next

theorem mark_hungry : Hungry mark := rfl

theorem mark_extends : Extends mark mark := token_extends rfl next_extends

/-- A mark is read as itself. -/
theorem mark_reads {c : Char} (h : isBlank c = false) : Reads mark [c] c :=
  token_reads (next_reads c) h

/-! ## Lists in brackets -/

/-- At least one element, separated by commas, up to the closing bracket. -/
def listing {α : Type} (elem : Scanner α) (close : Char) : ℕ → Scanner (List α)
  | 0 => failure
  | rounds + 1 => do
      let a ← elem
      let c ← mark
      if c = ',' then (fun rest => a :: rest) <$> listing elem close rounds
      else if c = close then return [a]
      else failure

/-- What stands in brackets, behind the opening one. -/
def bracketed {α : Type} (elem : Scanner α) (close : Char) (rounds : ℕ) : Scanner (List α) :=
  fun s =>
    match mark s with
    | none => none
    | some (c, r) => if c = close then some ([], r) else listing elem close rounds s

section Listing

variable {α : Type} {elem elem' : Scanner α} {close : Char} {m n : ℕ}

/-- More rounds read no less of a list. -/
theorem listing_extends (h : Settles elem elem') (hn : m ≤ n) :
    Extends (listing elem close m) (listing elem' close n) := by
  induction m generalizing n with
  | zero => exact extends_failure
  | succ m ih =>
      obtain ⟨n, rfl⟩ : ∃ k, n = k + 1 := ⟨n - 1, by omega⟩
      refine h.bind (fun a => mark_hungry.bind) fun a => mark_extends.bind fun c => ?_
      refine extends_ite (fun _ => ?_) fun _ => extends_ite (fun _ => extends_pure _)
        fun _ => extends_failure
      exact (ih (by omega)).map _

/-- So it is with the brackets. -/
theorem bracketed_extends (h : Settles elem elem') (hn : m ≤ n) :
    Extends (bracketed elem close m) (bracketed elem' close n) := by
  intro s as r hs t
  unfold bracketed at hs ⊢
  cases hmark : mark s with
  | none =>
      rw [hmark] at hs
      cases hs
  | some first =>
      obtain ⟨c, rest⟩ := first
      rw [hmark] at hs
      rw [mark_extends hmark t]
      dsimp only at hs ⊢
      split_ifs at hs ⊢
      · cases hs
        rfl
      · exact listing_extends h hn hs t

/-- A list is read from its elements in a row.  Whatever may follow an element, a comma and the
closing bracket may. -/
theorem listing_reads {write : α → List Char} {N : List Char → Prop} {a : α} {as : List α}
    {x : List Char} (hcomma : ∀ r, N (',' :: r)) (hclose : ∀ r, N (close :: r))
    (hblank : isBlank close = false) (hne : close ≠ ',') (ha : Reads elem x a N)
    (has : ∀ b ∈ as, Reads elem (' ' :: write b) b N) (hn : as.length < n) :
    Reads (listing elem close n)
      (x ++ (as.flatMap (fun b => ',' :: ' ' :: write b) ++ [close])) (a :: as) := by
  induction as generalizing a x n with
  | nil =>
      obtain ⟨n, rfl⟩ : ∃ k, n = k + 1 := ⟨n - 1, by simp at hn; omega⟩
      refine ha.bind (M := fun _ => True) ?_ fun r _ => hclose r
      refine (mark_reads hblank).bind (y := []) (M := fun _ => True) ?_ fun _ _ => trivial
      rw [if_neg hne, if_pos rfl]
      exact reads_pure _
  | cons b as ih =>
      obtain ⟨n, rfl⟩ : ∃ k, n = k + 1 := ⟨n - 1, by simp at hn; omega⟩
      have hrest := ih (has b List.mem_cons_self)
        (fun c hc => has c (List.mem_cons_of_mem b hc)) (n := n) (by simp at hn; omega)
      have htext : x ++ ((b :: as).flatMap (fun b => ',' :: ' ' :: write b) ++ [close]) =
          x ++ ([','] ++ (' ' :: write b ++
            (as.flatMap (fun b => ',' :: ' ' :: write b) ++ [close]))) := by simp
      rw [htext]
      refine ha.bind (M := fun _ => True) ?_ fun r _ => hcomma _
      refine (mark_reads (c := ',') rfl).bind (M := fun _ => True) ?_ fun _ _ => trivial
      rw [if_pos rfl]
      exact hrest.map _

/-- The elements of a list, in brackets. -/
def enclose (close : Char) : List (List Char) → List Char
  | [] => [close]
  | x :: xs => x ++ (xs.flatMap (fun y => ',' :: ' ' :: y) ++ [close])

/-- A list in its brackets is read back. -/
theorem bracketed_reads {write : α → List Char} {N : List Char → Prop} {as : List α}
    (hcomma : ∀ r, N (',' :: r)) (hclose : ∀ r, N (close :: r))
    (hblank : isBlank close = false) (hne : close ≠ ',')
    (hstart : ∀ a ∈ as, ∃ c x, write a = c :: x ∧ isBlank c = false ∧ c ≠ close)
    (has : ∀ a ∈ as, Reads elem (write a) a N ∧ Reads elem (' ' :: write a) a N)
    (hn : as.length ≤ n) :
    Reads (bracketed elem close n) (enclose close (as.map write)) as := by
  intro r _
  cases as with
  | nil =>
      have hmark := mark_reads hblank r trivial
      simp only [List.map_nil, enclose, bracketed]
      rw [hmark]
      exact if_pos rfl
  | cons a as =>
      obtain ⟨c, x, hwrite, hc, hcc⟩ := hstart a List.mem_cons_self
      have hlist := listing_reads (n := n) hcomma hclose hblank hne (has a List.mem_cons_self).1
        (fun b hb => (has b (List.mem_cons_of_mem a hb)).2) hn r trivial
      simp only [List.map_cons, enclose, List.flatMap_map, bracketed]
      have hmark : mark (write a ++ (as.flatMap (fun b => ',' :: ' ' :: write b) ++ [close]) ++ r) =
          some (c, x ++ (as.flatMap (fun b => ',' :: ' ' :: write b) ++ [close]) ++ r) := by
        rw [hwrite]
        exact mark_reads hc _ trivial
      rw [hmark]
      dsimp only
      rw [if_neg hcc]
      exact hlist

end Listing

end Textual
