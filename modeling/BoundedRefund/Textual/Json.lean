import BoundedRefund.Textual.Literals

/-!
# JSON

Values as Python's `json.dumps(value, ensure_ascii=False)` writes them (`encode`) and as
`json.loads` reads them (`loads`).  What is written is read as what it was (`loads_encode`), and
a list, an object or a string that is cut off is not read as anything (`loads_cut`).

An object is a dictionary: its keys are distinct, and of the entries a text has for one key the
last one counts.  Floats are left out; a text with one is refused.
-/

namespace Textual

open Scanner

/-! ## Dictionaries -/

namespace Dict

section

variable {κ α : Type} [DecidableEq κ]

/-- `d[key] = a`: a key that is there keeps its place. -/
def set : List (κ × α) → κ → α → List (κ × α)
  | [], key, a => [(key, a)]
  | entry :: d, key, a => if entry.1 = key then (key, a) :: d else entry :: set d key a

/-- `d.update(entries)`. -/
def update (d entries : List (κ × α)) : List (κ × α) :=
  entries.foldl (fun d entry => set d entry.1 entry.2) d

/-- The keys a dictionary has. -/
def keys (d : List (κ × α)) : List κ := d.map Prod.fst

variable {d entries : List (κ × α)} {key k : κ} {a : α}

/-- A key that is there is not added. -/
theorem keys_set_of_mem (h : key ∈ keys d) : keys (set d key a) = keys d := by
  induction d with
  | nil => cases h
  | cons entry d ih =>
      unfold set
      split_ifs with hkey
      · simp [keys, hkey]
      · have hmem : key ∈ keys d := by simpa [keys, Ne.symm hkey] using h
        have hrest := ih hmem
        simp only [keys, List.map_cons] at hrest ⊢
        rw [hrest]

/-- A new entry stands at the end. -/
theorem set_of_notMem (h : key ∉ keys d) : set d key a = d ++ [(key, a)] := by
  induction d with
  | nil => rfl
  | cons entry d ih =>
      obtain ⟨hkey, hrest⟩ : entry.1 ≠ key ∧ key ∉ keys d := by
        simpa [keys, eq_comm, not_or] using h
      rw [set, if_neg hkey, ih hrest, List.cons_append]

/-- No key comes twice. -/
theorem nodup_set (h : (keys d).Nodup) : (keys (set d key a)).Nodup := by
  by_cases hmem : key ∈ keys d
  · rwa [keys_set_of_mem hmem]
  · rw [set_of_notMem hmem, keys, List.map_append]
    exact List.nodup_append.mpr ⟨h, by simp, by
      rintro x hx y hy rfl
      obtain rfl : x = key := by simpa using hy
      exact hmem hx⟩

theorem nodup_update (h : (keys d).Nodup) : (keys (update d entries)).Nodup := by
  induction entries generalizing d with
  | nil => exact h
  | cons entry entries ih => exact ih (nodup_set h)

/-- New keys are appended. -/
theorem update_of_nodup (h : (keys (d ++ entries)).Nodup) : update d entries = d ++ entries := by
  induction entries generalizing d with
  | nil => simp [update]
  | cons entry entries ih =>
      have hnew : entry.1 ∉ keys d := by
        simp only [keys, List.map_append, List.map_cons] at h
        exact fun hmem => (List.nodup_append.mp h).2.2 _ hmem _ List.mem_cons_self rfl
      have hset : set d entry.1 entry.2 = d ++ [entry] := set_of_notMem hnew
      change update (set d entry.1 entry.2) entries = _
      rw [hset, ih (by simpa using h), List.append_assoc, List.singleton_append]

/-- What was set is found. -/
theorem lookup_set_self : (set d key a).lookup key = some a := by
  induction d with
  | nil => simp [set]
  | cons entry d ih =>
      obtain ⟨l, b⟩ := entry
      unfold set
      split_ifs with hkey
      · simp
      · have hne : (key == l) = false := beq_false_of_ne (Ne.symm hkey)
        simp [List.lookup_cons, hne, ih]

/-- The other entries are found as before. -/
theorem lookup_set_of_ne (h : k ≠ key) : (set d key a).lookup k = d.lookup k := by
  have hne : (k == key) = false := beq_false_of_ne h
  induction d with
  | nil => simp [set, List.lookup_cons, hne]
  | cons entry d ih =>
      obtain ⟨l, b⟩ := entry
      unfold set
      split_ifs with hkey
      · obtain rfl : l = key := hkey
        simp [List.lookup_cons, hne]
      · simp only [List.lookup_cons, ih]

/-- Entries under other keys leave a key its value. -/
theorem lookup_update_of_notMem (h : k ∉ keys entries) :
    (update d entries).lookup k = d.lookup k := by
  induction entries generalizing d with
  | nil => rfl
  | cons entry entries ih =>
      obtain ⟨hkey, hrest⟩ : k ≠ entry.1 ∧ k ∉ keys entries := by
        simpa [keys, not_or] using h
      exact (ih hrest).trans (lookup_set_of_ne hkey)

/-- Looking up is membership. -/
theorem lookup_eq_some_iff (h : (keys d).Nodup) : d.lookup k = some a ↔ (k, a) ∈ d := by
  induction d with
  | nil => simp
  | cons entry d ih =>
      obtain ⟨l, b⟩ := entry
      obtain ⟨hnew, hd⟩ : l ∉ keys d ∧ (keys d).Nodup := by simpa [keys] using h
      by_cases hkey : k = l
      · subst hkey
        have hmem : (k, a) ∉ d := fun hmem => hnew (List.mem_map.mpr ⟨_, hmem, rfl⟩)
        simp [hmem, eq_comm]
      · have hne : (k == l) = false := beq_false_of_ne hkey
        simp [List.lookup_cons, hne, ih hd, hkey]

/-- What is in an updated dictionary was in it before, or is one of the new entries. -/
theorem mem_update {x : κ × α} (h : x ∈ update d entries) : x ∈ d ∨ x ∈ entries := by
  have hset : ∀ {d : List (κ × α)} {key : κ} {a : α} {x : κ × α}, x ∈ set d key a →
      x ∈ d ∨ x = (key, a) := by
    intro d key a x h
    induction d with
    | nil => exact .inr (by simpa [set] using h)
    | cons entry d ih =>
        unfold set at h
        split_ifs at h with hkey
        · rcases List.mem_cons.mp h with rfl | h
          · exact .inr rfl
          · exact .inl (List.mem_cons_of_mem _ h)
        · rcases List.mem_cons.mp h with rfl | h
          · exact .inl List.mem_cons_self
          · exact (ih h).imp_left (List.mem_cons_of_mem _)
  induction entries generalizing d with
  | nil => exact .inl h
  | cons entry entries ih =>
      rcases ih h with h | h
      · rcases hset h with h | rfl
        · exact .inl h
        · exact .inr List.mem_cons_self
      · exact .inr (List.mem_cons_of_mem _ h)

end

end Dict

/-! ## Values -/

/-- A value of the format.  Numbers are integers. -/
inductive Json
  | null
  | bool (b : Bool)
  | int (n : ℤ)
  | str (text : String)
  | arr (items : List Json)
  | obj (entries : List (String × Json))

namespace Json

/-- The objects in it are dictionaries. -/
inductive WellFormed : Json → Prop
  | null : WellFormed .null
  | bool (b : Bool) : WellFormed (.bool b)
  | int (n : ℤ) : WellFormed (.int n)
  | str (text : String) : WellFormed (.str text)
  | arr {items : List Json} (h : ∀ item ∈ items, WellFormed item) : WellFormed (.arr items)
  | obj {entries : List (String × Json)} (hkeys : (Dict.keys entries).Nodup)
      (h : ∀ entry ∈ entries, WellFormed entry.2) : WellFormed (.obj entries)

mutual

/-- `json.dumps`. -/
def encode : Json → List Char
  | .null => ['n', 'u', 'l', 'l']
  | .bool true => ['t', 'r', 'u', 'e']
  | .bool false => ['f', 'a', 'l', 's', 'e']
  | .int n => decimal n
  | .str text => quote text
  | .arr items => '[' :: enclose ']' (encodeItems items)
  | .obj entries => '{' :: enclose '}' (encodeEntries entries)

/-- The items of an array, one text each. -/
def encodeItems : List Json → List (List Char)
  | [] => []
  | item :: items => encode item :: encodeItems items

/-- The entries of an object, one text each. -/
def encodeEntries : List (String × Json) → List (List Char)
  | [] => []
  | (key, value) :: entries => (quote key ++ ':' :: ' ' :: encode value) :: encodeEntries entries

end

/-- An entry as it is written. -/
def encodeEntry (entry : String × Json) : List Char :=
  quote entry.1 ++ ':' :: ' ' :: encode entry.2

/-- Items are written one by one. -/
theorem encodeItems_eq (items : List Json) : encodeItems items = items.map encode := by
  induction items with
  | nil => rfl
  | cons item items ih => rw [encodeItems, ih, List.map_cons]

/-- So are entries. -/
theorem encodeEntries_eq (entries : List (String × Json)) :
    encodeEntries entries = entries.map encodeEntry := by
  induction entries with
  | nil => rfl
  | cons entry entries ih =>
      obtain ⟨key, value⟩ := entry
      rw [encodeEntries, ih, List.map_cons]
      rfl

/-! ## Reading -/

/-- A fixed word. -/
def word : List Char → Scanner Unit
  | [] => return ()
  | c :: cs => do
      let d ← next
      if d = c then word cs else failure

/-- One entry of an object. -/
def entry (value : Scanner Json) : Scanner (String × Json) := token do
  let c ← next
  if c = '"' then do
    let key ← quoted
    let colon ← mark
    if colon = ':' then (fun v => (key, v)) <$> token value
    else failure
  else failure

/-- One value, up to `depth` brackets deep. -/
def scan : (depth : ℕ) → Scanner Json
  | 0, _ => none
  | _ + 1, [] => none
  | depth + 1, c :: s =>
      if c = '"' then (.str <$> quoted) s
      else if c = '[' then (.arr <$> bracketed (token (scan depth)) ']' s.length) s
      else if c = '{' then
        ((fun entries => .obj (Dict.update [] entries)) <$>
          bracketed (entry (scan depth)) '}' s.length) s
      else if c = 'n' then ((fun _ => .null) <$> word ['u', 'l', 'l']) s
      else if c = 't' then ((fun _ => .bool true) <$> word ['r', 'u', 'e']) s
      else if c = 'f' then ((fun _ => .bool false) <$> word ['a', 'l', 's', 'e']) s
      else (.int <$> integer) (c :: s)

/-- `json.loads`. -/
def loads (text : List Char) : Option Json :=
  if text.head? = some '\ufeff' then none
  else
    match token (scan text.length) text with
    | none => none
    | some (value, rest) => if skipBlanks rest = [] then some value else none

/-! ## Texts that go on -/

theorem word_extends (cs : List Char) : Extends (word cs) (word cs) := by
  induction cs with
  | nil => exact extends_pure ()
  | cons c cs ih =>
      exact next_extends.bind fun d => extends_ite (fun _ => ih) fun _ => extends_failure

/-- An entry is read alike where its value is. -/
theorem entry_settles {p q : Scanner Json} (hhungry : Hungry p) (h : Settles p q) :
    Settles (entry p) (entry q) := by
  refine token_settles rfl (next_extends.bind_settles fun c => ?_)
  split_ifs
  · refine quoted_extends.bind_settles fun key => mark_extends.bind_settles fun colon => ?_
    split_ifs
    · exact (token_settles hhungry h).map _
    · exact extends_failure.settles
  · exact extends_failure.settles

/-- A value takes at least one character. -/
theorem scan_hungry (depth : ℕ) : Hungry (scan depth) := by
  cases depth <;> rfl

/-- A value is read again when the text goes on, unless it is a number at the very end. -/
theorem scan_extends {m n : ℕ} (h : m ≤ n) {s r : List Char} {v : Json}
    (hs : scan m s = some (v, r)) (hend : r ≠ [] ∨ ∀ k, v ≠ .int k) (t : List Char) :
    scan n (s ++ t) = some (v, r ++ t) := by
  induction m generalizing n s r v t with
  | zero => cases hs
  | succ m ih =>
      obtain ⟨n, rfl⟩ : ∃ k, n = k + 1 := ⟨n - 1, by omega⟩
      have hdeeper : Settles (scan m) (scan n) := fun s v r hs hne t =>
        ih (by omega) hs (.inl hne) t
      cases s with
      | nil => cases hs
      | cons c s =>
          have hrounds : s.length ≤ (s ++ t).length := by simp
          rw [List.cons_append]
          unfold scan at hs ⊢
          split_ifs at hs ⊢ with hquote harr hobj hn ht hf
          · exact quoted_extends.map _ hs t
          · exact (bracketed_extends (token_settles (scan_hungry m) hdeeper) hrounds).map _ hs t
          · exact (bracketed_extends (entry_settles (scan_hungry m) hdeeper) hrounds).map _ hs t
          · exact (word_extends _).map _ hs t
          · exact (word_extends _).map _ hs t
          · exact (word_extends _).map _ hs t
          · obtain ⟨k, hint, rfl⟩ := map_eq_some.mp hs
            have hne : r ≠ [] := hend.resolve_right fun h => h k rfl
            exact map_eq_some.mpr ⟨k, integer_settles hint hne t, rfl⟩

/-! ## Round trip -/

theorem endsNumber_comma (r : List Char) : EndsNumber (',' :: r) := by
  intro c s h
  cases h
  decide

theorem endsNumber_bracket (r : List Char) : EndsNumber (']' :: r) := by
  intro c s h
  cases h
  decide

theorem endsNumber_brace (r : List Char) : EndsNumber ('}' :: r) := by
  intro c s h
  cases h
  decide

/-- What a value is written as begins with no blank, no closing bracket and no byte order mark. -/
theorem encode_cons (v : Json) :
    ∃ c s, encode v = c :: s ∧ isBlank c = false ∧ c ≠ ']' ∧ c ≠ '}' ∧ c ≠ '\ufeff' := by
  cases v with
  | null => exact ⟨_, _, rfl, by decide⟩
  | bool b => cases b <;> exact ⟨_, _, rfl, by decide⟩
  | str text => exact ⟨_, _, rfl, by decide⟩
  | arr items => exact ⟨_, _, rfl, by decide⟩
  | obj entries => exact ⟨_, _, rfl, by decide⟩
  | int n =>
      cases n with
      | negSucc n => exact ⟨_, _, rfl, by decide⟩
      | ofNat n =>
          obtain ⟨c, s, hdigits⟩ :=
            List.exists_cons_of_ne_nil (Nat.toDigits_ne_nil (n := n) (b := 10))
          have hc : c.isDigit = true := Nat.isDigit_of_mem_toDigits (b := 10) (n := n)
            (by decide) (by decide) (by simp [hdigits])
          refine ⟨c, s, hdigits, ?_, ?_, ?_, ?_⟩
          · cases hblank : isBlank c with
            | false => rfl
            | true =>
                simp only [isBlank, Bool.or_eq_true, decide_eq_true_eq] at hblank
                obtain ((rfl | rfl) | rfl) | rfl := hblank <;> cases hc
          · rintro rfl
            cases hc
          · rintro rfl
            cases hc
          · rintro rfl
            cases hc

/-- A part is shorter than what encloses it. -/
theorem length_lt_enclose (close : Char) {x : List Char} {xs : List (List Char)} (h : x ∈ xs) :
    x.length < (enclose close xs).length := by
  cases xs with
  | nil => cases h
  | cons y ys =>
      simp only [enclose, List.length_append, List.length_cons]
      rcases List.mem_cons.mp h with rfl | h
      · omega
      · have hle : (',' :: ' ' :: x).length ≤ (ys.flatMap fun y => ',' :: ' ' :: y).length := by
          obtain ⟨before, after, rfl⟩ := List.append_of_mem h
          simp only [List.flatMap_append, List.flatMap_cons, List.length_append, List.length_cons]
          omega
        simp only [List.length_cons] at hle
        omega

theorem length_le_enclose (close : Char) (xs : List (List Char)) :
    xs.length ≤ (enclose close xs).length := by
  cases xs with
  | nil => exact Nat.zero_le _
  | cons y ys =>
      have hle : ys.length ≤ (ys.flatMap fun y => ',' :: ' ' :: y).length := by
        induction ys with
        | nil => exact Nat.zero_le _
        | cons z zs ih =>
            simp only [List.flatMap_cons, List.length_append, List.length_cons]
            omega
      simp only [enclose, List.length_append, List.length_cons]
      omega

/-- An entry is read if its value is. -/
theorem entry_reads {p : Scanner Json} (key : String) {v : Json}
    (h : Reads p (encode v) v EndsNumber) :
    Reads (entry p) (encodeEntry (key, v)) (key, v) EndsNumber := by
  have hvalue : Reads (token p) (' ' :: encode v) v EndsNumber := by
    obtain ⟨c, s, hencode, hc, -⟩ := encode_cons v
    rw [hencode] at h ⊢
    exact token_reads_blank (token_reads h hc) rfl
  have htext : encodeEntry (key, v) =
      '"' :: ((key.toList.flatMap escape ++ ['"']) ++ ([':'] ++ (' ' :: encode v))) := by
    simp [encodeEntry, quote]
  rw [htext]
  refine token_reads ?_ rfl
  refine (next_reads '"').bind (N := fun _ => True) ?_ fun _ _ => trivial
  rw [if_pos rfl]
  refine (quoted_reads key).bind ?_ fun _ _ => trivial
  refine (mark_reads (c := ':') rfl).bind ?_ fun _ _ => trivial
  rw [if_pos rfl]
  exact hvalue.map _

/-- A number is read back. -/
theorem scan_decimal (k : ℤ) (n : ℕ) : Reads (scan (n + 1)) (decimal k) (.int k) EndsNumber := by
  intro r hr
  obtain ⟨c, s, hdecimal, hc⟩ : ∃ c s, decimal k = c :: s ∧ (c = '-' ∨ c.isDigit = true) := by
    cases k with
    | negSucc k => exact ⟨_, _, rfl, .inl rfl⟩
    | ofNat k =>
        obtain ⟨c, s, hdigits⟩ :=
          List.exists_cons_of_ne_nil (Nat.toDigits_ne_nil (n := k) (b := 10))
        exact ⟨c, s, hdigits, .inr (Nat.isDigit_of_mem_toDigits (b := 10) (n := k)
          (by decide) (by decide) (by simp [hdigits]))⟩
  have hother : ∀ d : Char, d ≠ '-' → d.isDigit = false → c ≠ d := by
    rintro d hminus hdigit rfl
    rcases hc with rfl | hc
    · exact hminus rfl
    · rw [hdigit] at hc
      cases hc
  have hread := (integer_reads k).map Json.int r hr
  rw [hdecimal, List.cons_append] at hread ⊢
  unfold scan
  rw [if_neg (hother _ (by decide) rfl), if_neg (hother _ (by decide) rfl),
    if_neg (hother _ (by decide) rfl), if_neg (hother _ (by decide) rfl),
    if_neg (hother _ (by decide) rfl), if_neg (hother _ (by decide) rfl)]
  exact hread

/-- **Round trip.**  What a value is written as is read as that value, whatever follows. -/
theorem scan_encode {v : Json} (hv : v.WellFormed) {n : ℕ} (hn : (encode v).length ≤ n) :
    Reads (scan n) (encode v) v EndsNumber := by
  induction hv generalizing n with
  | null =>
      obtain ⟨n, rfl⟩ := Nat.exists_eq_add_of_le' hn
      exact fun _ _ => rfl
  | bool b =>
      cases b with
      | true =>
          obtain ⟨n, rfl⟩ := Nat.exists_eq_add_of_le' hn
          exact fun _ _ => rfl
      | false =>
          obtain ⟨n, rfl⟩ := Nat.exists_eq_add_of_le' hn
          exact fun _ _ => rfl
  | int k =>
      obtain ⟨c, s, hencode, -⟩ := encode_cons (.int k)
      obtain ⟨n, rfl⟩ : ∃ m, n = m + 1 := ⟨n - 1, by simp [hencode] at hn; omega⟩
      exact scan_decimal k n
  | str text =>
      obtain ⟨n, rfl⟩ : ∃ m, n = m + 1 := ⟨n - 1, by simp [encode, quote] at hn; omega⟩
      exact ((quoted_reads text).map Json.str).mono fun _ _ => trivial
  | @arr items h ih =>
      obtain ⟨n, rfl⟩ : ∃ m, n = m + 1 := ⟨n - 1, by simp [encode] at hn; omega⟩
      have htext : encode (.arr items) = '[' :: enclose ']' (items.map encode) := by
        rw [encode, encodeItems_eq]
      rw [htext, List.length_cons] at hn
      rw [htext]
      intro r hr
      -- behind a comma there is a blank to skip, behind the bracket there is none
      have hitem : ∀ item ∈ items, Reads (token (scan n)) (encode item) item EndsNumber ∧
          Reads (token (scan n)) (' ' :: encode item) item EndsNumber := by
        intro item hmem
        have hshort := length_lt_enclose ']' (List.mem_map_of_mem (f := encode) hmem)
        have hread := ih item hmem (n := n) (by omega)
        obtain ⟨c, s, hencode, hc, -⟩ := encode_cons item
        rw [hencode] at hread ⊢
        exact ⟨token_reads hread hc, token_reads_blank (token_reads hread hc) rfl⟩
      have hstart : ∀ item ∈ items, ∃ c s, encode item = c :: s ∧ isBlank c = false ∧ c ≠ ']' :=
        fun item _ =>
          let ⟨c, s, hencode, hc, hne, _⟩ := encode_cons item
          ⟨c, s, hencode, hc, hne⟩
      have hlong := length_le_enclose ']' (items.map encode)
      exact (bracketed_reads endsNumber_comma endsNumber_bracket rfl (by decide) hstart hitem
        (n := (enclose ']' (items.map encode) ++ r).length)
        (by simp only [List.length_map] at hlong; simp only [List.length_append]; omega)).map
          Json.arr r trivial
  | @obj entries hkeys h ih =>
      obtain ⟨n, rfl⟩ : ∃ m, n = m + 1 := ⟨n - 1, by simp [encode] at hn; omega⟩
      have htext : encode (.obj entries) = '{' :: enclose '}' (entries.map encodeEntry) := by
        rw [encode, encodeEntries_eq]
      rw [htext, List.length_cons] at hn
      rw [htext]
      intro r hr
      have hentry : ∀ e ∈ entries, Reads (entry (scan n)) (encodeEntry e) e EndsNumber ∧
          Reads (entry (scan n)) (' ' :: encodeEntry e) e EndsNumber := by
        intro e hmem
        have hshort :=
          length_lt_enclose '}' (List.mem_map_of_mem (f := encodeEntry) hmem)
        have hlong : (encode e.2).length ≤ (encodeEntry e).length := by
          simp only [encodeEntry, List.length_append, List.length_cons]
          omega
        have hread := entry_reads e.1 (ih e hmem (n := n) (by omega))
        exact ⟨hread, token_reads_blank hread rfl⟩
      have hstart : ∀ e ∈ entries, ∃ c s, encodeEntry e = c :: s ∧ isBlank c = false ∧ c ≠ '}' :=
        fun e _ => ⟨_, _, rfl, by decide⟩
      have hlong := length_le_enclose '}' (entries.map encodeEntry)
      have hread := (bracketed_reads endsNumber_comma endsNumber_brace rfl (by decide) hstart hentry
        (n := (enclose '}' (entries.map encodeEntry) ++ r).length)
        (by simp only [List.length_map] at hlong; simp only [List.length_append]; omega)).map
          (fun entries => Json.obj (Dict.update [] entries)) r trivial
      -- no key comes twice, so reading overwrites nothing
      rw [Dict.update_of_nodup (d := []) hkeys, List.nil_append] at hread
      exact hread

/-- `json.loads` inverts `json.dumps`. -/
theorem loads_encode {v : Json} (hv : v.WellFormed) : loads (encode v) = some v := by
  have hread := scan_encode hv le_rfl [] fun c s h => by cases h
  rw [List.append_nil] at hread
  obtain ⟨c, s, hencode, hc, -, -, hmark⟩ := encode_cons v
  rw [hencode] at hread ⊢
  have hhead : (c :: s).head? ≠ some '\ufeff' := by simpa using hmark
  rw [loads, if_neg hhead, token, skipBlanks_cons hc, hread]
  rfl

/-- Only a number is read as one. -/
theorem start_of_scan_int {n : ℕ} {c : Char} {s r : List Char} {k : ℤ}
    (h : scan n (c :: s) = some (.int k, r)) : c ∉ ['"', '[', '{', 'n', 't', 'f'] := by
  cases n with
  | zero => cases h
  | succ n =>
      unfold scan at h
      split_ifs at h with hquote harr hobj hn ht hf
      iterate 6
        obtain ⟨x, -, hx⟩ := map_eq_some.mp h
        cases hx
      simp [hquote, harr, hobj, hn, ht, hf]

/-- **A value that is cut off is not read as anything**, unless it is a number. -/
theorem loads_cut {v : Json} (hv : v.WellFormed) (hint : ∀ k, v ≠ .int k) {p q : List Char}
    (hcut : encode v = p ++ q) (hp : p ≠ []) (hq : q ≠ []) : loads p = none := by
  obtain ⟨c, p, rfl⟩ := List.exists_cons_of_ne_nil hp
  obtain ⟨d, s, hencode, hc, -, -, hmark⟩ := encode_cons v
  obtain rfl : d = c := by
    rw [hencode, List.cons_append] at hcut
    exact (List.cons.inj hcut).1
  have hstart : d ∈ ['"', '[', '{', 'n', 't', 'f'] := by
    have hd : ∃ d' ∈ ['"', '[', '{', 'n', 't', 'f'], ∃ s, encode v = d' :: s := by
      cases v with
      | int k => exact absurd rfl (hint k)
      | null => exact ⟨'n', by decide, _, rfl⟩
      | bool b =>
          cases b with
          | true => exact ⟨'t', by decide, _, rfl⟩
          | false => exact ⟨'f', by decide, _, rfl⟩
      | str text => exact ⟨'"', by decide, _, rfl⟩
      | arr items => exact ⟨'[', by decide, _, rfl⟩
      | obj entries => exact ⟨'{', by decide, _, rfl⟩
    obtain ⟨d', hmem, s', hs'⟩ := hd
    rw [hencode] at hs'
    cases hs'
    exact hmem
  have hhead : (d :: p).head? ≠ some '\ufeff' := by simpa using hmark
  rw [loads, if_neg hhead, token, skipBlanks_cons hc]
  cases hscan : scan (d :: p).length (d :: p) with
  | none => rfl
  | some read =>
      -- had it been read, it would be read again from the whole text, and leave a rest
      obtain ⟨w, r⟩ := read
      have hw : ∀ k, w ≠ .int k := by
        rintro k rfl
        exact start_of_scan_int hscan hstart
      have hlonger : (d :: p).length ≤ (encode v).length := by
        rw [hcut, List.length_append]
        omega
      have hagain := scan_extends hlonger hscan (.inr hw) q
      have hwhole := scan_encode hv le_rfl [] fun c s h => by cases h
      rw [List.append_nil, hcut] at hwhole
      rw [hcut, hwhole] at hagain
      have hrest : [] = r ++ q := congrArg Prod.snd (Option.some.inj hagain)
      exact absurd (List.append_eq_nil_iff.mp hrest.symm).2 hq

end Json

end Textual
