import BoundedRefund.Textual.Scanner
import Mathlib.Data.Nat.Basic

/-!
# Strings and integers

The two scalars of JSON that are more than a fixed word, as Python's `json` writes and reads
them: a string in double quotes, with the control characters, the quote and the backslash
escaped and everything else as it is (`ensure_ascii=False`), and an integer in decimal.

A text holds Unicode scalars only, so the escape of half a surrogate pair stands for nothing and
is refused.
-/

namespace Textual

open Scanner

/-! ## Strings -/

/-- What may stand behind a backslash for itself, and what it stands for. -/
def simpleEscapes : List (Char × Char) :=
  [('"', '"'), ('\\', '\\'), ('/', '/'), ('b', '\x08'), ('f', '\x0c'), ('n', '\n'), ('r', '\r'),
    ('t', '\t')]

/-- `\u` and four hexadecimal digits, for a character below 256. -/
def hexEscape (c : Char) : List Char :=
  ['\\', 'u', '0', '0', Nat.digitChar (c.toNat / 16), Nat.digitChar (c.toNat % 16)]

/-- A character as it is written. -/
def escape (c : Char) : List Char :=
  if c = '"' then ['\\', '"']
  else if c = '\\' then ['\\', '\\']
  else if c = '\x08' then ['\\', 'b']
  else if c = '\x0c' then ['\\', 'f']
  else if c = '\n' then ['\\', 'n']
  else if c = '\r' then ['\\', 'r']
  else if c = '\t' then ['\\', 't']
  else if c.toNat < 32 then hexEscape c
  else [c]

/-- A string in quotes. -/
def quote (text : String) : List Char := '"' :: (text.toList.flatMap escape ++ ['"'])

/-- The value of a hexadecimal digit, in either case. -/
def hexDigit? (c : Char) : Option ℕ :=
  if '0' ≤ c ∧ c ≤ '9' then some (c.toNat - 48)
  else if 'a' ≤ c ∧ c ≤ 'f' then some (c.toNat - 87)
  else if 'A' ≤ c ∧ c ≤ 'F' then some (c.toNat - 55)
  else none

/-- One hexadecimal digit. -/
def hex : Scanner ℕ := do
  let c ← next
  match hexDigit? c with
  | some n => return n
  | none => failure

/-- Four of them. -/
def hex4 : Scanner ℕ := do
  let a ← hex
  let b ← hex
  let c ← hex
  let d ← hex
  return ((a * 16 + b) * 16 + c) * 16 + d

/-- The character of an escape, behind its `u`. -/
def unicode : Scanner Char := do
  let n ← hex4
  if 0xD800 ≤ n ∧ n ≤ 0xDBFF then do
    let c ← next
    let d ← next
    let m ← hex4
    if c = '\\' ∧ d = 'u' ∧ 0xDC00 ≤ m ∧ m ≤ 0xDFFF then
      return Char.ofNat (0x10000 + (n - 0xD800) * 0x400 + (m - 0xDC00))
    else failure
  else if 0xDC00 ≤ n ∧ n ≤ 0xDFFF then failure
  else return Char.ofNat n

/-- The character of an escape, behind its backslash. -/
def escaped : Scanner Char := do
  let c ← next
  if c = 'u' then unicode
  else
    match simpleEscapes.lookup c with
    | some d => return d
    | none => failure

/-- The next character of a string, and nothing at its end. -/
def piece : Scanner (Option Char) := do
  let c ← next
  if c = '"' then return none
  else if c = '\\' then some <$> escaped
  else if c.toNat < 32 then failure
  else return some c

/-- The characters of a text up to its closing quote. -/
def pieces : ℕ → Scanner (List Char)
  | 0 => failure
  | rounds + 1 => do
      let c ← piece
      match c with
      | none => return []
      | some c => (fun rest => c :: rest) <$> pieces rounds

/-- A string, behind its opening quote. -/
def quoted : Scanner String := fun s => (String.ofList <$> pieces s.length) s

section Strings

theorem hex_extends : Extends hex hex :=
  next_extends.bind fun c => by
    cases hexDigit? c with
    | none => exact extends_failure
    | some n => exact extends_pure n

theorem hex4_extends : Extends hex4 hex4 :=
  hex_extends.bind fun _ => hex_extends.bind fun _ => hex_extends.bind fun _ =>
    hex_extends.bind fun _ => extends_pure _

theorem unicode_extends : Extends unicode unicode := by
  refine hex4_extends.bind fun n => extends_ite (fun _ => ?_) fun _ =>
    extends_ite (fun _ => extends_failure) fun _ => extends_pure _
  exact next_extends.bind fun c => next_extends.bind fun d => hex4_extends.bind fun m =>
    extends_ite (fun _ => extends_pure _) fun _ => extends_failure

theorem escaped_extends : Extends escaped escaped := by
  refine next_extends.bind fun c => extends_ite (fun _ => unicode_extends) fun _ => ?_
  cases simpleEscapes.lookup c with
  | none => exact extends_failure
  | some d => exact extends_pure d

theorem piece_extends : Extends piece piece := by
  refine next_extends.bind fun c => extends_ite (fun _ => extends_pure none) fun _ =>
    extends_ite (fun _ => ?_) fun _ => extends_ite (fun _ => extends_failure) fun _ =>
      extends_pure _
  exact escaped_extends.map some

/-- More rounds read no less. -/
theorem pieces_extends {m n : ℕ} (h : m ≤ n) : Extends (pieces m) (pieces n) := by
  induction m generalizing n with
  | zero => exact extends_failure
  | succ m ih =>
      obtain ⟨n, rfl⟩ : ∃ k, n = k + 1 := ⟨n - 1, by omega⟩
      refine piece_extends.bind fun c => ?_
      cases c with
      | none => exact extends_pure _
      | some c => exact (ih (by omega)).map _

theorem quoted_extends : Extends quoted quoted := by
  intro s text r h t
  have hrounds : s.length ≤ (s ++ t).length := by simp
  exact (pieces_extends hrounds).map String.ofList h t

/-- A digit that is written is read back. -/
theorem hexDigit?_digitChar : ∀ k < 16, hexDigit? (Nat.digitChar k) = some k := by decide

/-- One digit is read. -/
theorem hex_reads {k : ℕ} (h : k < 16) : Reads hex [Nat.digitChar k] k := by
  refine (next_reads _).bind (y := []) (M := fun _ => True) ?_ fun _ _ => trivial
  rw [hexDigit?_digitChar k h]
  exact reads_pure k

/-- Four are. -/
theorem hex4_reads {a b c d : ℕ} (ha : a < 16) (hb : b < 16) (hc : c < 16) (hd : d < 16) :
    Reads hex4 [Nat.digitChar a, Nat.digitChar b, Nat.digitChar c, Nat.digitChar d]
      (((a * 16 + b) * 16 + c) * 16 + d) :=
  have any : ∀ _ : List Char, True → True := fun _ _ => trivial
  (hex_reads ha).bind ((hex_reads hb).bind ((hex_reads hc).bind ((hex_reads hd).bind
    (reads_pure _) any) any) any) any

/-- A control character is read from its number. -/
theorem unicode_reads {c : Char} (h : c.toNat < 32) :
    Reads unicode ['0', '0', Nat.digitChar (c.toNat / 16), Nat.digitChar (c.toNat % 16)] c := by
  have hnumber := hex4_reads (a := 0) (b := 0) (c := c.toNat / 16) (d := c.toNat % 16)
    (by decide) (by decide) (by omega) (by omega)
  have hn : ((0 * 16 + 0) * 16 + c.toNat / 16) * 16 + c.toNat % 16 = c.toNat := by omega
  rw [hn] at hnumber
  refine hnumber.bind (y := []) (M := fun _ => True) ?_ fun _ _ => trivial
  rw [if_neg (by omega), if_neg (by omega), Char.ofNat_toNat]
  exact reads_pure c

/-- What a character is written as is read as that character. -/
theorem piece_escape (c : Char) : Reads piece (escape c) (some c) := by
  unfold escape
  split_ifs with hquote hback hb hf hn hr ht hlow
  · subst hquote
    exact fun _ _ => rfl
  · subst hback
    exact fun _ _ => rfl
  · subst hb
    exact fun _ _ => rfl
  · subst hf
    exact fun _ _ => rfl
  · subst hn
    exact fun _ _ => rfl
  · subst hr
    exact fun _ _ => rfl
  · subst ht
    exact fun _ _ => rfl
  · have hback : Reads escaped ('u' :: (hexEscape c).drop 2) c :=
      (next_reads 'u').bind (unicode_reads hlow) fun _ _ => trivial
    refine (next_reads '\\').bind (M := fun _ => True) ?_ fun _ _ => trivial
    rw [if_neg (by decide), if_pos rfl]
    exact hback.map some
  · refine (next_reads c).bind (y := []) (M := fun _ => True) ?_ fun _ _ => trivial
    rw [if_neg hquote, if_neg hback, if_neg hlow]
    exact reads_pure _

/-- A text is read up to its quote. -/
theorem pieces_quote (cs : List Char) {n : ℕ} (h : cs.length < n) :
    Reads (pieces n) (cs.flatMap escape ++ ['"']) cs := by
  induction cs generalizing n with
  | nil =>
      obtain ⟨n, rfl⟩ : ∃ k, n = k + 1 := ⟨n - 1, by simp at h; omega⟩
      exact fun _ _ => rfl
  | cons c cs ih =>
      obtain ⟨n, rfl⟩ : ∃ k, n = k + 1 := ⟨n - 1, by simp at h; omega⟩
      have hrest := (ih (n := n) (by simp at h; omega)).map fun rest => c :: rest
      rw [List.flatMap_cons, List.append_assoc]
      exact (piece_escape c).bind hrest fun _ _ => trivial

/-- Every character is written as something. -/
theorem escape_length (c : Char) : 1 ≤ (escape c).length := by
  unfold escape
  split_ifs <;> simp [hexEscape]

/-- A quoted text is read back. -/
theorem quoted_reads (text : String) :
    Reads quoted (text.toList.flatMap escape ++ ['"']) text := by
  intro r _
  have hlong : text.toList.length ≤ (text.toList.flatMap escape).length := by
    induction text.toList with
    | nil => simp
    | cons c cs ih =>
        have hc := escape_length c
        simp only [List.length_cons, List.flatMap_cons, List.length_append]
        omega
  have h := (pieces_quote text.toList
    (n := (text.toList.flatMap escape ++ ['"'] ++ r).length)
    (by simp only [List.length_append, List.length_singleton]; omega)).map String.ofList r trivial
  rwa [String.ofList_toList] at h

end Strings

/-! ## Integers -/

/-- An integer in decimal. -/
def decimal : ℤ → List Char
  | .ofNat n => Nat.toDigits 10 n
  | .negSucc n => '-' :: Nat.toDigits 10 (n + 1)

/-- As many digits as there are. -/
def digits : Scanner (List Char) := fun s =>
  some (s.takeWhile Char.isDigit, s.dropWhile Char.isDigit)

/-- A number without a leading zero. -/
def natural : Scanner ℕ := do
  let c ← next
  if c = '0' then return 0
  else if c.isDigit then do
    let rest ← digits
    return Nat.ofDigitChars 10 (c :: rest) 0
  else failure

/-- A fraction or an exponent would make the number a float. -/
def isWhole : Scanner Unit
  | [] => some ((), [])
  | c :: s => if c = '.' ∨ c = 'e' ∨ c = 'E' then none else some ((), c :: s)

/-- A number, and no fraction or exponent behind it. -/
def unsigned : Scanner ℕ := do
  let n ← natural
  isWhole
  return n

/-- An integer.  Floats are refused. -/
def integer : Scanner ℤ
  | [] => none
  | c :: s =>
      if c = '-' then ((fun n : ℕ => -(n : ℤ)) <$> unsigned) s
      else ((fun n : ℕ => (n : ℤ)) <$> unsigned) (c :: s)

/-- What may stand behind a number. -/
def EndsNumber (r : List Char) : Prop :=
  ∀ c s, r = c :: s → c.isDigit = false ∧ c ≠ '.' ∧ c ≠ 'e' ∧ c ≠ 'E'

section Integers

theorem digits_settles : Settles digits digits := by
  intro s ds r h hne t
  cases h
  have hsplit : ∀ s : List Char, s.dropWhile Char.isDigit ≠ [] →
      (s ++ t).takeWhile Char.isDigit = s.takeWhile Char.isDigit ∧
        (s ++ t).dropWhile Char.isDigit = s.dropWhile Char.isDigit ++ t := by
    intro s
    induction s with
    | nil => intro h; exact absurd rfl h
    | cons c s ih =>
        intro h
        cases hc : c.isDigit with
        | true =>
            rw [List.dropWhile_cons_of_pos hc] at h
            obtain ⟨htake, hdrop⟩ := ih h
            simp [hc, htake, hdrop]
        | false => simp [hc]
  obtain ⟨htake, hdrop⟩ := hsplit s hne
  simp only [digits, htake, hdrop]

theorem natural_settles : Settles natural natural := by
  refine next_extends.bind_settles fun c => ?_
  split_ifs with hzero hdigit
  · exact (extends_pure 0).settles
  · refine digits_settles.bind_settles (fun rest n r h => ?_) fun rest => (extends_pure _).settles
    cases h
    rfl
  · exact extends_failure.settles

theorem isWhole_settles : Settles isWhole isWhole := by
  intro s a r h hne t
  cases s with
  | nil =>
      cases h
      exact absurd rfl hne
  | cons c s =>
      simp only [isWhole] at h
      split_ifs at h with hc
      cases h
      exact if_neg hc

theorem unsigned_settles : Settles unsigned unsigned := by
  refine natural_settles.bind_settles (fun n m r h => ?_) fun n =>
    isWhole_settles.bind_settles (fun _ m r h => ?_) fun _ => (extends_pure n).settles
  · cases h
    rfl
  · cases h
    rfl

theorem integer_settles : Settles integer integer := by
  intro s n r h hne t
  cases s with
  | nil => cases h
  | cons c s =>
      simp only [integer, List.cons_append] at h ⊢
      split_ifs at h ⊢
      · exact unsigned_settles.map _ h hne t
      · exact unsigned_settles.map _ h hne t

/-- A number does not begin with a zero. -/
theorem toDigits_ne_zero {n : ℕ} (h : 0 < n) :
    ∃ c rest, Nat.toDigits 10 n = c :: rest ∧ c ≠ '0' := by
  induction n using Nat.strongRecOn with
  | ind n ih =>
      by_cases hsmall : n < 10
      · refine ⟨n.digitChar, [], Nat.toDigits_of_lt_base hsmall, ?_⟩
        have hall : ∀ k < 10, 0 < k → Nat.digitChar k ≠ '0' := by decide
        exact hall n hsmall h
      · obtain ⟨c, rest, hdigits, hc⟩ := ih (n / 10) (by omega) (by omega)
        refine ⟨c, rest ++ [(n % 10).digitChar], ?_, hc⟩
        rw [Nat.toDigits_of_base_le (by decide) (by omega), hdigits, List.cons_append]

/-- A numeral is read up to what cannot be a part of it. -/
theorem natural_reads (n : ℕ) : Reads natural (Nat.toDigits 10 n) n EndsNumber := by
  intro r hr
  by_cases hn : n = 0
  · subst hn
    rfl
  obtain ⟨c, rest, hdigits, hc⟩ := toDigits_ne_zero (Nat.pos_of_ne_zero hn)
  have hdigit : ∀ d ∈ c :: rest, d.isDigit = true := fun d hd =>
    Nat.isDigit_of_mem_toDigits (by decide) (by decide) (hdigits ▸ hd)
  have hvalue : Nat.ofDigitChars 10 (c :: rest) 0 = n := hdigits ▸ Nat.ofDigitChars_ten_toDigits
  have hstop : r.takeWhile Char.isDigit = [] ∧ r.dropWhile Char.isDigit = r := by
    cases r with
    | nil => exact ⟨rfl, rfl⟩
    | cons d r => simp [(hr d r rfl).1]
  have htake : digits (rest ++ r) = some (rest, r) := by
    have hall : ∀ d ∈ rest, d.isDigit = true := fun d hd => hdigit d (List.mem_cons_of_mem c hd)
    simp [digits, List.takeWhile_append_of_pos hall, List.dropWhile_append_of_pos hall, hstop]
  rw [hdigits, List.cons_append]
  refine (bind_of_eq_some rfl).trans ?_
  rw [if_neg hc, if_pos (hdigit c List.mem_cons_self), bind_of_eq_some htake, hvalue]
  rfl

/-- A number is read back. -/
theorem unsigned_reads (n : ℕ) : Reads unsigned (Nat.toDigits 10 n) n EndsNumber := by
  intro r hr
  refine (bind_of_eq_some (natural_reads n r hr)).trans ?_
  cases r with
  | nil => rfl
  | cons c r =>
      obtain ⟨-, hdot, he, hE⟩ := hr c r rfl
      have hwhole : isWhole (c :: r) = some ((), c :: r) := if_neg (by simp [hdot, he, hE])
      exact bind_of_eq_some hwhole

/-- What an integer is written as is read as that integer. -/
theorem integer_reads (n : ℤ) : Reads integer (decimal n) n EndsNumber := by
  intro r hr
  cases n with
  | ofNat n =>
      have hmapped := (unsigned_reads n).map (fun n => (n : ℤ)) r hr
      obtain ⟨c, rest, hdigits⟩ :=
        List.exists_cons_of_ne_nil (Nat.toDigits_ne_nil (n := n) (b := 10))
      have hminus : c ≠ '-' := by
        rintro rfl
        have := Nat.isDigit_of_mem_toDigits (b := 10) (n := n) (c := '-') (by decide) (by decide)
          (by simp [hdigits])
        cases this
      simp only [decimal, hdigits, List.cons_append, integer, if_neg hminus] at hmapped ⊢
      exact hmapped
  | negSucc n =>
      simp only [decimal, List.cons_append, integer, if_pos]
      exact (unsigned_reads (n + 1)).map (fun n => -(n : ℤ)) r hr

end Integers

end Textual
