import BoundedRefund.Textual.Json

/-!
# JSON lines

A file with one JSON object per line, written by appending `json.dumps(value) + "\n"` and read
as `read_text().splitlines()` has its lines, the blank ones skipped.

The two sides do not agree on what a line is.  `json.dumps` escapes the control characters, but
with `ensure_ascii=False` it leaves U+0085, U+2028 and U+2029 as they are, and `splitlines`
breaks at them.  So a file is read back if none of them occurs in a text of a value
(`shownLines_write`), and else the first value that has one is cut off, and what is cut off is not
read (`shownLines_write_of_broken`).
-/

namespace Textual

open Scanner

/-! ## Lines -/

/-- The breaks that `json.dumps` leaves in a text. -/
def isSeparator (c : Char) : Bool := c = '\x85' || c = '\u2028' || c = '\u2029'

/-- Where `str.splitlines` breaks. -/
def isBreak (c : Char) : Bool :=
  c = '\n' || c = '\r' || c = '\x0b' || c = '\x0c' || c = '\x1c' || c = '\x1d' || c = '\x1e' ||
    isSeparator c

/-- `str.isspace`, of one character. -/
def isSpace (c : Char) : Bool :=
  isBreak c || c = '\t' || c = '\x1f' || c = ' ' || c = '\xa0' || c = '\u1680' ||
    (0x2000 ≤ c.toNat && c.toNat ≤ 0x200A) || c = '\u202f' || c = '\u205f' || c = '\u3000'

/-- What a file opened in text mode has for its line ends. -/
def universalNewlines : List Char → List Char
  | [] => []
  | '\r' :: '\n' :: s => '\n' :: universalNewlines s
  | c :: s => (if c = '\r' then '\n' else c) :: universalNewlines s

/-- `str.splitlines`. -/
def splitlines : List Char → List (List Char)
  | [] => []
  | '\r' :: '\n' :: s => [] :: splitlines s
  | c :: s =>
      if isBreak c then [] :: splitlines s
      else
        match splitlines s with
        | [] => [[c]]
        | line :: lines => (c :: line) :: lines

/-- A text without carriage returns keeps its lines. -/
theorem universalNewlines_of_notMem {s : List Char} (h : '\r' ∉ s) : universalNewlines s = s := by
  induction s with
  | nil => rfl
  | cons c s ih =>
      obtain ⟨hc, hs⟩ : '\r' ≠ c ∧ '\r' ∉ s := by simpa using h
      rw [universalNewlines, if_neg hc.symm, ih hs]
      rintro s rfl
      exact absurd rfl hc

/-- A break ends a line. -/
theorem splitlines_of_break {c : Char} (h : isBreak c = true) (hc : c ≠ '\r') (s : List Char) :
    splitlines (c :: s) = [] :: splitlines s := by
  rw [splitlines, if_pos h]
  rintro s rfl
  exact absurd rfl hc

/-- Any other character belongs to one. -/
theorem splitlines_of_not_break {c : Char} (h : isBreak c = false) (s : List Char) :
    splitlines (c :: s) = match splitlines s with
      | [] => [[c]]
      | line :: lines => (c :: line) :: lines := by
  rw [splitlines, if_neg (by simp [h])]
  rintro s rfl
  cases h

/-- A line up to its end. -/
theorem splitlines_line {line : List Char} (h : ∀ c ∈ line, isBreak c = false) {b : Char}
    (hb : isBreak b = true) (hr : b ≠ '\r') (s : List Char) :
    splitlines (line ++ b :: s) = line :: splitlines s := by
  induction line with
  | nil => exact splitlines_of_break hb hr s
  | cons c line ih =>
      rw [List.cons_append, splitlines_of_not_break (h c List.mem_cons_self),
        ih fun d hd => h d (List.mem_cons_of_mem c hd)]

/-! ## Characters that are written -/

namespace Json

/-- Nothing in the value as it is written breaks the line. -/
def Unbroken (v : Json) : Prop := ∀ c ∈ encode v, isBreak c = false

/-- What stands in an enclosed list. -/
theorem mem_enclose {close c : Char} {xs : List (List Char)} (h : c ∈ enclose close xs) :
    (∃ x ∈ xs, c ∈ x) ∨ c = ',' ∨ c = ' ' ∨ c = close := by
  cases xs with
  | nil => exact .inr (.inr (.inr (by simpa [enclose] using h)))
  | cons x xs =>
      simp only [enclose, List.mem_append, List.mem_flatMap, List.mem_cons, List.not_mem_nil,
        or_false] at h
      rcases h with h | ⟨y, hy, rfl | rfl | h⟩ | rfl
      · exact .inl ⟨x, List.mem_cons_self, h⟩
      · exact .inr (.inl rfl)
      · exact .inr (.inr (.inl rfl))
      · exact .inl ⟨y, List.mem_cons_of_mem x hy, h⟩
      · exact .inr (.inr (.inr rfl))

theorem mem_enclose_of_mem {close c : Char} {x : List Char} {xs : List (List Char)} (hx : x ∈ xs)
    (h : c ∈ x) : c ∈ enclose close xs := by
  cases xs with
  | nil => cases hx
  | cons y xs =>
      simp only [enclose, List.mem_append, List.mem_flatMap, List.mem_cons]
      rcases List.mem_cons.mp hx with rfl | hx
      · exact .inl h
      · exact .inr (.inl ⟨x, hx, .inr (.inr h)⟩)

/-- Printable, and of ASCII. -/
def Printable (c : Char) : Prop := 32 ≤ c.toNat ∧ c.toNat < 127

/-- What is printed breaks no line. -/
theorem Printable.not_break {c : Char} (h : Printable c) : isBreak c = false := by
  cases hc : isBreak c with
  | false => rfl
  | true =>
      simp only [isBreak, isSeparator, Bool.or_eq_true, decide_eq_true_eq] at hc
      obtain ⟨hlow, hhigh⟩ := h
      obtain (((((((rfl | rfl) | rfl) | rfl) | rfl) | rfl) | rfl) | (rfl | rfl) | rfl) := hc <;>
        revert hlow hhigh <;> decide

/-- What is no control character breaks a line only as a separator. -/
theorem isBreak_of_le {c : Char} (h : 32 ≤ c.toNat) : isBreak c = isSeparator c := by
  cases hc : isBreak c with
  | false =>
      simp only [isBreak, Bool.or_eq_false_iff] at hc
      exact hc.2.symm
  | true =>
      cases hs : isSeparator c with
      | true => rfl
      | false =>
          simp only [isBreak, hs, Bool.or_eq_true, decide_eq_true_eq, Bool.false_eq_true,
            or_false] at hc
          obtain ((((((rfl | rfl) | rfl) | rfl) | rfl) | rfl) | rfl) := hc <;> revert h <;> decide

/-- What a character is written as: itself, if it is no control character, and printable ones. -/
theorem mem_escape {c d : Char} (h : d ∈ escape c) : (d = c ∧ 32 ≤ c.toNat) ∨ Printable d := by
  have hdigit : ∀ k < 16, Printable (Nat.digitChar k) := by
    unfold Printable
    decide
  have hpair : ∀ e : Char, Printable e → d ∈ ['\\', e] → Printable d := by
    intro e he hd
    obtain rfl | rfl : d = '\\' ∨ d = e := by simpa using hd
    · exact ⟨by decide, by decide⟩
    · exact he
  unfold escape at h
  split_ifs at h with hquote hback hb hf hn hr ht hlow
  · exact .inr (hpair _ ⟨by decide, by decide⟩ h)
  · exact .inr (hpair _ ⟨by decide, by decide⟩ h)
  · exact .inr (hpair _ ⟨by decide, by decide⟩ h)
  · exact .inr (hpair _ ⟨by decide, by decide⟩ h)
  · exact .inr (hpair _ ⟨by decide, by decide⟩ h)
  · exact .inr (hpair _ ⟨by decide, by decide⟩ h)
  · exact .inr (hpair _ ⟨by decide, by decide⟩ h)
  · refine .inr ?_
    obtain rfl | rfl | rfl | rfl | rfl : d = '\\' ∨ d = 'u' ∨ d = '0' ∨
        d = Nat.digitChar (c.toNat / 16) ∨ d = Nat.digitChar (c.toNat % 16) := by
      simpa [hexEscape] using h
    · exact ⟨by decide, by decide⟩
    · exact ⟨by decide, by decide⟩
    · exact ⟨by decide, by decide⟩
    · exact hdigit _ (by omega)
    · exact hdigit _ (by omega)
  · exact .inl ⟨by simpa using h, by omega⟩

/-- From 127 on a character is written as it is. -/
theorem escape_of_le {c : Char} (h : 127 ≤ c.toNat) : escape c = [c] := by
  have hne : ∀ d : Char, d.toNat < 127 → c ≠ d := by
    rintro d hd rfl
    omega
  unfold escape
  rw [if_neg (hne _ (by decide)), if_neg (hne _ (by decide)), if_neg (hne _ (by decide)),
    if_neg (hne _ (by decide)), if_neg (hne _ (by decide)), if_neg (hne _ (by decide)),
    if_neg (hne _ (by decide)), if_neg (by omega)]

/-- A text breaks its line where it has a separator. -/
@[simp] theorem unbroken_str {text : String} :
    Unbroken (.str text) ↔ ∀ c ∈ text.toList, isSeparator c = false := by
  constructor
  · intro h c hc
    cases hs : isSeparator c with
    | false => rfl
    | true =>
        have hhigh : 127 ≤ c.toNat := by
          simp only [isSeparator, Bool.or_eq_true, decide_eq_true_eq] at hs
          obtain ((rfl | rfl) | rfl) := hs <;> decide
        have hmem : c ∈ encode (.str text) := by
          refine List.mem_cons_of_mem _ (List.mem_append_left _ (List.mem_flatMap.mpr ⟨c, hc, ?_⟩))
          rw [escape_of_le hhigh]
          exact List.mem_singleton_self c
        have hbreak := h c hmem
        rw [isBreak_of_le (by omega), hs] at hbreak
        cases hbreak
  · intro h d hd
    have hquote : isBreak '"' = false := by decide
    simp only [encode, quote, List.mem_cons, List.mem_append, List.mem_flatMap, List.not_mem_nil,
      or_false] at hd
    rcases hd with rfl | ⟨c, hc, hd⟩ | rfl
    · exact hquote
    · obtain ⟨rfl, hlow⟩ | hprint := mem_escape hd
      · rw [isBreak_of_le hlow]
        exact h d hc
      · exact hprint.not_break
    · exact hquote

instance (v : Json) : Decidable v.Unbroken :=
  decidable_of_iff ((encode v).all fun c => !isBreak c) (by simp [Unbroken])

@[simp] theorem unbroken_null : Unbroken .null := by decide

@[simp] theorem unbroken_bool (b : Bool) : Unbroken (.bool b) := by cases b <;> decide

/-- The digits of a number are printed. -/
theorem printable_decimal {n : ℤ} {c : Char} (h : c ∈ decimal n) : Printable c := by
  have hdigits : ∀ (n : ℕ), ∀ c ∈ Nat.toDigits 10 n, Printable c := by
    intro n c hc
    have hdigit := Nat.isDigit_of_mem_toDigits (by decide) (by decide) hc
    simp only [Char.isDigit, Bool.and_eq_true, decide_eq_true_eq, UInt32.le_iff_toNat_le] at hdigit
    exact ⟨le_trans (by decide) hdigit.1, lt_of_le_of_lt hdigit.2 (by decide)⟩
  cases n with
  | ofNat n => exact hdigits n c h
  | negSucc n =>
      rcases List.mem_cons.mp h with rfl | h
      · exact ⟨by decide, by decide⟩
      · exact hdigits _ c h

@[simp] theorem unbroken_int (n : ℤ) : Unbroken (.int n) :=
  fun _ hc => (printable_decimal hc).not_break

/-- An array breaks no line where its items break none. -/
@[simp] theorem unbroken_arr {items : List Json} :
    Unbroken (.arr items) ↔ ∀ item ∈ items, item.Unbroken := by
  unfold Unbroken
  rw [encode, encodeItems_eq]
  constructor
  · intro h item hitem c hc
    exact h c (List.mem_cons_of_mem _ (mem_enclose_of_mem (List.mem_map_of_mem hitem) hc))
  · intro h c hc
    rcases List.mem_cons.mp hc with rfl | hc
    · decide
    · obtain ⟨x, hx, hc⟩ | rfl | rfl | rfl := mem_enclose hc
      · obtain ⟨item, hitem, rfl⟩ := List.mem_map.mp hx
        exact h item hitem c hc
      · decide
      · decide
      · decide

/-- An object breaks none where its keys and values break none. -/
@[simp] theorem unbroken_obj {entries : List (String × Json)} :
    Unbroken (.obj entries) ↔
      ∀ entry ∈ entries, Unbroken (.str entry.1) ∧ entry.2.Unbroken := by
  unfold Unbroken
  rw [encode, encodeEntries_eq]
  constructor
  · intro h entry hentry
    have hall : ∀ c ∈ encodeEntry entry, isBreak c = false := fun c hc =>
      h c (List.mem_cons_of_mem _ (mem_enclose_of_mem (List.mem_map_of_mem hentry) hc))
    simp only [encodeEntry, List.mem_append, List.mem_cons] at hall
    exact ⟨fun c hc => hall c (.inl hc), fun c hc => hall c (.inr (.inr (.inr hc)))⟩
  · intro h c hc
    rcases List.mem_cons.mp hc with rfl | hc
    · decide
    · obtain ⟨x, hx, hc⟩ | rfl | rfl | rfl := mem_enclose hc
      · obtain ⟨entry, hentry, rfl⟩ := List.mem_map.mp hx
        simp only [encodeEntry, List.mem_append, List.mem_cons] at hc
        rcases hc with hc | rfl | rfl | hc
        · exact (h entry hentry).1 c hc
        · decide
        · decide
        · exact (h entry hentry).2 c hc
      · decide
      · decide
      · decide

/-- There are no control characters in a quoted text. -/
theorem le_of_mem_quote {text : String} {c : Char} (h : c ∈ quote text) : 32 ≤ c.toNat := by
  simp only [quote, List.mem_cons, List.mem_append, List.mem_flatMap, List.not_mem_nil,
    or_false] at h
  rcases h with rfl | ⟨d, hd, h⟩ | rfl
  · decide
  · obtain ⟨rfl, hlow⟩ | hprint := mem_escape h
    · exact hlow
    · exact hprint.1
  · decide

/-- What is written has no control characters. -/
theorem le_of_mem_encode {v : Json} (hv : v.WellFormed) {c : Char} (h : c ∈ encode v) :
    32 ≤ c.toNat := by
  have word : ∀ cs : List Char, cs.all (fun c => 32 ≤ c.toNat) = true → ∀ c ∈ cs, 32 ≤ c.toNat :=
    fun cs hcs c hc => of_decide_eq_true (List.all_eq_true.mp hcs c hc)
  induction hv with
  | null => exact word ['n', 'u', 'l', 'l'] (by decide) c h
  | bool b =>
      cases b with
      | true => exact word ['t', 'r', 'u', 'e'] (by decide) c h
      | false => exact word ['f', 'a', 'l', 's', 'e'] (by decide) c h
  | int n => exact (printable_decimal h).1
  | str text => exact le_of_mem_quote h
  | arr hitems ih =>
      rw [encode, encodeItems_eq] at h
      rcases List.mem_cons.mp h with rfl | h
      · decide
      · obtain ⟨x, hx, hc⟩ | rfl | rfl | rfl := mem_enclose h
        · obtain ⟨item, hitem, rfl⟩ := List.mem_map.mp hx
          exact ih item hitem hc
        · decide
        · decide
        · decide
  | obj hkeys hentries ih =>
      rw [encode, encodeEntries_eq] at h
      rcases List.mem_cons.mp h with rfl | h
      · decide
      · obtain ⟨x, hx, hc⟩ | rfl | rfl | rfl := mem_enclose h
        · obtain ⟨entry, hentry, rfl⟩ := List.mem_map.mp hx
          simp only [encodeEntry, List.mem_append, List.mem_cons] at hc
          rcases hc with hc | rfl | rfl | hc
          · exact le_of_mem_quote hc
          · decide
          · decide
          · exact ih entry hentry hc
        · decide
        · decide
        · decide

end Json

/-! ## Files -/

open Json

/-- The line of a value. -/
def line (v : Json) : List Char := encode v ++ ['\n']

/-- What is written for some values, one after the other. -/
def write (vs : List Json) : List Char := vs.flatMap line

/-- `line.strip()` is not empty. -/
def isShown (line : List Char) : Bool := line.any fun c => !isSpace c

/-- The lines of a file, the blank ones skipped. -/
def shownLines (text : List Char) : List (List Char) :=
  (splitlines (universalNewlines text)).filter isShown

section Files

variable {vs : List Json}

/-- A line with an object is not blank. -/
theorem shown_brace (s : List Char) : isShown ('{' :: s) = true := by
  rw [isShown, List.any_cons]
  exact Bool.or_eq_true_iff.mpr (.inl (by decide))

/-- A value is written before the others. -/
theorem write_cons (v : Json) (vs : List Json) :
    write (v :: vs) = encode v ++ '\n' :: write vs := by simp [write, line]

/-- What is written keeps its lines. -/
theorem universalNewlines_write (hvs : ∀ v ∈ vs, v.WellFormed) :
    universalNewlines (write vs) = write vs := by
  refine universalNewlines_of_notMem fun h => ?_
  obtain ⟨v, hv, h⟩ := List.mem_flatMap.mp h
  rcases List.mem_append.mp h with h | h
  · exact absurd (le_of_mem_encode (hvs v hv) h) (by decide)
  · exact absurd (List.mem_singleton.mp h) (by decide)

/-- The first break of an object that breaks its line cuts it off. -/
theorem exists_cut {v : Json} (hv : v.WellFormed) {entries : List (String × Json)}
    (hobj : v = .obj entries) (h : ¬v.Unbroken) : ∃ p b q, encode v = ('{' :: p) ++ b :: q ∧
      (∀ c ∈ '{' :: p, isBreak c = false) ∧ isBreak b = true ∧ b ≠ '\r' ∧
        loads ('{' :: p) = none := by
  obtain ⟨s, hopen⟩ : ∃ s, encode v = '{' :: s := ⟨_, by rw [hobj, encode]⟩
  have hbreak : ((encode v).find? isBreak).isSome = true := by
    rw [List.find?_isSome]
    simpa [Unbroken] using h
  obtain ⟨b, hfind⟩ := Option.isSome_iff_exists.mp hbreak
  obtain ⟨hb, p, q, hcut, hp⟩ := List.find?_eq_some_iff_append.mp hfind
  obtain ⟨p, rfl⟩ : ∃ p', p = '{' :: p' := by
    rw [hopen] at hcut
    cases p with
    | nil =>
        cases hcut
        cases hb
    | cons c p =>
        cases hcut
        exact ⟨p, rfl⟩
  refine ⟨p, b, q, hcut, fun c hc => by simpa using hp c hc, hb, ?_, ?_⟩
  · rintro rfl
    have hmem : '\r' ∈ encode v := by simp [hcut]
    exact absurd (le_of_mem_encode hv hmem) (by decide)
  · exact loads_cut hv (fun k hk => by rw [hobj] at hk; cases hk) hcut (by simp) (by simp)

variable (hvs : ∀ v ∈ vs, v.WellFormed ∧ ∃ entries, v = .obj entries)

include hvs in
/-- **Objects none of which breaks its line are found line by line.** -/
theorem shownLines_write (h : ∀ v ∈ vs, v.Unbroken) : shownLines (write vs) = vs.map encode := by
  rw [shownLines, universalNewlines_write fun v hv => (hvs v hv).1]
  induction vs with
  | nil => rfl
  | cons v vs ih =>
      obtain ⟨-, entries, hobj⟩ := hvs v List.mem_cons_self
      obtain ⟨s, hopen⟩ : ∃ s, encode v = '{' :: s := ⟨_, by rw [hobj, encode]⟩
      rw [write_cons, splitlines_line (h v List.mem_cons_self) (by decide) (by decide),
        List.filter_cons_of_pos (hopen ▸ shown_brace s), List.map_cons,
        ih (fun w hw => hvs w (List.mem_cons_of_mem v hw))
          fun w hw => h w (List.mem_cons_of_mem v hw)]

include hvs in
/-- **Where an object breaks its line**, the reader finds the objects before it, and then a line
that is not read as anything. -/
theorem shownLines_write_of_broken {v : Json} (hv : v ∈ vs) (h : ¬v.Unbroken) :
    ∃ (before : List Json) (p : List Char) (rest : List (List Char)),
      shownLines (write vs) = before.map encode ++ p :: rest ∧ (∀ w ∈ before, w ∈ vs) ∧
        loads p = none := by
  rw [shownLines, universalNewlines_write fun v hv => (hvs v hv).1]
  induction vs with
  | nil => cases hv
  | cons w vs ih =>
      obtain ⟨hw, entries, hobj⟩ := hvs w List.mem_cons_self
      obtain ⟨s, hopen⟩ : ∃ s, encode w = '{' :: s := ⟨_, by rw [hobj, encode]⟩
      rw [write_cons]
      by_cases hunbroken : w.Unbroken
      · have hvs' : v ∈ vs := by
          rcases List.mem_cons.mp hv with rfl | hv
          · exact absurd hunbroken h
          · exact hv
        obtain ⟨before, p, rest, heq, hbefore, hp⟩ :=
          ih (fun w hw => hvs w (List.mem_cons_of_mem _ hw)) hvs'
        refine ⟨w :: before, p, rest, ?_, fun x hx => ?_, hp⟩
        · rw [splitlines_line hunbroken (by decide) (by decide),
            List.filter_cons_of_pos (hopen ▸ shown_brace s), heq, List.map_cons, List.cons_append]
        · rcases List.mem_cons.mp hx with rfl | hx
          · exact List.mem_cons_self
          · exact List.mem_cons_of_mem w (hbefore x hx)
      · obtain ⟨p, b, q, hcut, hclean, hb, hr, hnone⟩ := exists_cut hw hobj hunbroken
        have hsplit : encode w ++ '\n' :: write vs =
            ('{' :: p) ++ b :: (q ++ '\n' :: write vs) := by simp [hcut]
        refine ⟨[], '{' :: p, (splitlines (q ++ '\n' :: write vs)).filter isShown, ?_, by simp,
          hnone⟩
        rw [hsplit, splitlines_line hclean hb hr, List.filter_cons_of_pos (shown_brace p),
          List.map_nil, List.nil_append]

end Files

end Textual
