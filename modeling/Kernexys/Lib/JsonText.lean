import Mathlib

/-!
# JSON text

How Python's `json` writes strings, and objects whose values are strings, with every character
outside printable ASCII escaped, and how it reads them back.  Reading is the inverse of writing
(`scanString_escape`, `loadsTexts_dumpsTexts`).
-/

namespace JsonText

/-! ## Strings -/

/-- `\u` and the four hexadecimal digits of a code unit. -/
def unitEscape (n : ℕ) : List Char :=
  ['\\', 'u', Nat.digitChar (n / 4096 % 16), Nat.digitChar (n / 256 % 16),
    Nat.digitChar (n / 16 % 16), Nat.digitChar (n % 16)]

/-- The letter of an escape of two characters. -/
def shortEscape (c : Char) : Option Char :=
  match c.toNat with
  | 0x22 => some '\"'
  | 0x5c => some '\\'
  | 0x0a => some 'n'
  | 0x0d => some 'r'
  | 0x09 => some 't'
  | 0x0c => some 'f'
  | 0x08 => some 'b'
  | _ => none

/-- A character as it is written; one beyond the basic plane becomes a surrogate pair. -/
def escapeChar (c : Char) : List Char :=
  match shortEscape c with
  | some letter => ['\\', letter]
  | none =>
    if 0x20 ≤ c.toNat ∧ c.toNat ≤ 0x7e then [c]
    else if c.toNat < 0x10000 then unitEscape c.toNat
    else unitEscape (0xd800 + (c.toNat - 0x10000) / 0x400) ++
      unitEscape (0xdc00 + (c.toNat - 0x10000) % 0x400)

/-- A text as it is written. -/
def escape (s : List Char) : List Char := s.flatMap escapeChar

/-- The string literal of a text. -/
def quote (s : String) : List Char := '\"' :: (escape s.toList ++ ['\"'])

/-- The value of a hexadecimal digit. -/
def hexValue (c : Char) : Option ℕ :=
  if '0' ≤ c ∧ c ≤ '9' then some (c.toNat - 48)
  else if 'a' ≤ c ∧ c ≤ 'f' then some (c.toNat - 87)
  else if 'A' ≤ c ∧ c ≤ 'F' then some (c.toNat - 55)
  else none

/-- The code unit that four hexadecimal digits write. -/
def unitValue (a b c d : Char) : Option ℕ := do
  return (((← hexValue a) * 16 + (← hexValue b)) * 16 + (← hexValue c)) * 16 + (← hexValue d)

/-- The character that the letter of a short escape stands for. -/
def unescape : Char → Option Char
  | '\"' => some '\"'
  | '\\' => some '\\'
  | '/' => some '/'
  | 'n' => some '\n'
  | 'r' => some '\r'
  | 't' => some '\t'
  | 'f' => some (Char.ofNat 0x0c)
  | 'b' => some (Char.ofNat 0x08)
  | _ => none

/-- Read the rest of a string literal: its text, and what follows the closing quote.  A surrogate
without its partner is no character. -/
def scanString : List Char → Option (List Char × List Char)
  | [] => none
  | '\"' :: rest => some ([], rest)
  | '\\' :: 'u' :: a :: b :: c :: d :: rest =>
    match unitValue a b c d with
    | none => none
    | some unit =>
      if 0xd800 ≤ unit ∧ unit ≤ 0xdbff then
        match rest with
        | '\\' :: 'u' :: e :: f :: g :: h :: rest =>
          match unitValue e f g h with
          | none => none
          | some low =>
            if 0xdc00 ≤ low ∧ low ≤ 0xdfff then
              (scanString rest).map fun p =>
                (Char.ofNat (0x10000 + (unit - 0xd800) * 0x400 + (low - 0xdc00)) :: p.1, p.2)
            else none
        | _ => none
      else if 0xdc00 ≤ unit ∧ unit ≤ 0xdfff then none
      else (scanString rest).map fun p => (Char.ofNat unit :: p.1, p.2)
  | '\\' :: letter :: rest =>
    match unescape letter with
    | none => none
    | some c => (scanString rest).map fun p => (c :: p.1, p.2)
  | c :: rest => if c.toNat < 0x20 then none else (scanString rest).map fun p => (c :: p.1, p.2)

theorem hexValue_digitChar : ∀ n < 16, hexValue (Nat.digitChar n) = some n := by decide

/-- The digits of a code unit are read back. -/
theorem unitValue_digits {n : ℕ} (small : n < 0x10000) :
    unitValue (Nat.digitChar (n / 4096 % 16)) (Nat.digitChar (n / 256 % 16))
      (Nat.digitChar (n / 16 % 16)) (Nat.digitChar (n % 16)) = some n := by
  have digit : ∀ m, hexValue (Nat.digitChar (m % 16)) = some (m % 16) :=
    fun m => hexValue_digitChar _ (Nat.mod_lt _ (by decide))
  simp only [unitValue, digit, Option.bind_eq_bind, Option.bind_some, Option.pure_def,
    Option.some.injEq]
  omega

/-- A character is a Unicode scalar value. -/
theorem scalar (c : Char) : c.toNat < 0xd800 ∨ 0xdfff < c.toNat ∧ c.toNat < 0x110000 := c.valid

/-- A code unit that is no surrogate is read as its character. -/
theorem scanString_unitEscape {n : ℕ} (small : n < 0x10000) (plain : n < 0xd800 ∨ 0xdfff < n)
    (rest : List Char) : scanString (unitEscape n ++ rest) =
      (scanString rest).map fun p => (Char.ofNat n :: p.1, p.2) := by
  simp only [unitEscape, List.cons_append, List.nil_append, scanString, unitValue_digits small]
  rw [if_neg (by omega), if_neg (by omega)]

/-- A surrogate pair is read as the character it stands for. -/
theorem scanString_pair {n : ℕ} (large : n < 0x100000) (rest : List Char) :
    scanString (unitEscape (0xd800 + n / 0x400) ++ (unitEscape (0xdc00 + n % 0x400) ++ rest)) =
      (scanString rest).map fun p => (Char.ofNat (0x10000 + n) :: p.1, p.2) := by
  have high : 0xd800 + n / 0x400 < 0x10000 := by omega
  have low : 0xdc00 + n % 0x400 < 0x10000 := by omega
  simp only [unitEscape, List.cons_append, List.nil_append, scanString, unitValue_digits high,
    unitValue_digits low]
  rw [if_pos (by omega), if_pos (by omega)]
  have same : 0x10000 + (0xd800 + n / 0x400 - 0xd800) * 0x400 + (0xdc00 + n % 0x400 - 0xdc00) =
      0x10000 + n := by omega
  rw [same]

/-- A character that needs no escape is read as it is. -/
theorem scanString_plain {c : Char} (printable : 0x20 ≤ c.toNat)
    (notQuote : c.toNat ≠ 0x22) (notBackslash : c.toNat ≠ 0x5c) (rest : List Char) :
    scanString (c :: rest) = (scanString rest).map fun p => (c :: p.1, p.2) := by
  rw [scanString.eq_def]
  split
  · rename_i eq
    cases eq
  · rename_i eq
    cases eq
    exact absurd rfl notQuote
  · rename_i eq
    cases eq
    exact absurd rfl notBackslash
  · rename_i eq
    cases eq
    exact absurd rfl notBackslash
  · rename_i eq
    cases eq
    rw [if_neg (by omega)]

theorem shortEscape_cases (c : Char) :
    (∃ letter, shortEscape c = some letter ∧ letter ≠ 'u' ∧ unescape letter = some c) ∨
      shortEscape c = none ∧ c.toNat ≠ 0x22 ∧ c.toNat ≠ 0x5c := by
  have back : Char.ofNat c.toNat = c := Char.ofNat_toNat c
  unfold shortEscape
  split
  all_goals first
    | refine Or.inl ⟨_, rfl, by decide, ?_⟩
      rename_i code
      rw [← back, code]
      rfl
    | exact Or.inr ⟨rfl, by assumption, by assumption⟩

/-- What is written for a character is read as that character. -/
theorem scanString_escapeChar (c : Char) (rest : List Char) :
    scanString (escapeChar c ++ rest) = (scanString rest).map fun p => (c :: p.1, p.2) := by
  have back : Char.ofNat c.toNat = c := Char.ofNat_toNat c
  unfold escapeChar
  rcases shortEscape_cases c with ⟨letter, short, other, means⟩ | ⟨long, notQuote, notBackslash⟩
  · rw [short]
    show scanString ('\\' :: letter :: rest) = _
    rw [scanString]
    · rw [means]
    · intro a b c d rest' isUnit
      exact absurd isUnit other
  · rw [long]
    dsimp only
    split_ifs with printable basic
    · exact scanString_plain printable.1 notQuote notBackslash rest
    · rw [scanString_unitEscape basic (by have := scalar c; omega), back]
    · rw [List.append_assoc, scanString_pair (by have := scalar c; omega)]
      have same : 0x10000 + (c.toNat - 0x10000) = c.toNat := by omega
      rw [same, back]

/-- What is written for a text is read as that text. -/
theorem scanString_escape (s rest : List Char) :
    scanString (escape s ++ '\"' :: rest) = some (s, rest) := by
  induction s with
  | nil => rfl
  | cons c s ih =>
    rw [escape, List.flatMap_cons, List.append_assoc, scanString_escapeChar]
    rw [escape] at ih
    rw [ih]
    rfl

/-! ## Objects of strings -/

/-- One field; `gap` is the number of blanks that follow a separator. -/
def dumpsField (gap : ℕ) (entry : String × String) : List Char :=
  quote entry.1 ++ ':' :: (List.replicate gap ' ' ++ quote entry.2)

/-- The fields after the first. -/
def dumpsFields (gap : ℕ) : List (String × String) → List Char
  | [] => []
  | entry :: entries =>
    ',' :: (List.replicate gap ' ' ++ (dumpsField gap entry ++ dumpsFields gap entries))

/-- `json.dumps` of an object of strings. -/
def dumpsTexts (gap : ℕ) : List (String × String) → String
  | [] => "\x7b\x7d"
  | entry :: entries =>
    String.ofList ('\x7b' :: (dumpsField gap entry ++ (dumpsFields gap entries ++ ['\x7d'])))

/-! ### What is written is ASCII -/

theorem ascii_unitEscape (n : ℕ) : ∀ d ∈ unitEscape n, d.toNat < 128 := by
  have digit : ∀ n < 16, (Nat.digitChar n).toNat < 128 := by decide
  have written : ∀ m, (Nat.digitChar (m % 16)).toNat < 128 := fun m =>
    digit _ (Nat.mod_lt _ (by decide))
  intro d mem
  simp only [unitEscape, List.mem_cons, List.not_mem_nil, or_false] at mem
  rcases mem with rfl | rfl | rfl | rfl | rfl | rfl
  · decide
  · decide
  all_goals exact written _

theorem ascii_escapeChar (c : Char) : ∀ d ∈ escapeChar c, d.toNat < 128 := by
  have letters : ∀ letter, shortEscape c = some letter → letter.toNat < 128 := by
    intro letter short
    unfold shortEscape at short
    split at short <;> cases short <;> decide
  intro d mem
  unfold escapeChar at mem
  split at mem
  · rename_i letter short
    simp only [List.mem_cons, List.not_mem_nil, or_false] at mem
    rcases mem with rfl | rfl
    · decide
    · exact letters d short
  · split_ifs at mem with printable basic
    · obtain rfl := List.mem_singleton.1 mem
      omega
    · exact ascii_unitEscape _ d mem
    · rcases List.mem_append.1 mem with high | low
      · exact ascii_unitEscape _ d high
      · exact ascii_unitEscape _ d low

theorem ascii_quote (s : String) : ∀ d ∈ quote s, d.toNat < 128 := by
  intro d mem
  simp only [quote, escape, List.mem_cons, List.mem_append, List.mem_flatMap, List.not_mem_nil,
    or_false] at mem
  rcases mem with rfl | ⟨c, -, mem⟩ | rfl
  · decide
  · exact ascii_escapeChar c d mem
  · decide

theorem ascii_dumpsField (gap : ℕ) (entry : String × String) :
    ∀ d ∈ dumpsField gap entry, d.toNat < 128 := by
  intro d mem
  simp only [dumpsField, List.mem_append, List.mem_cons] at mem
  rcases mem with key | rfl | blank | value
  · exact ascii_quote _ d key
  · decide
  · obtain rfl := List.eq_of_mem_replicate blank
    decide
  · exact ascii_quote _ d value

theorem ascii_dumpsFields (gap : ℕ) (entries : List (String × String)) :
    ∀ d ∈ dumpsFields gap entries, d.toNat < 128 := by
  induction entries with
  | nil => simp [dumpsFields]
  | cons entry entries ih =>
    intro d mem
    simp only [dumpsFields, List.mem_cons, List.mem_append] at mem
    rcases mem with rfl | blank | field | rest
    · decide
    · obtain rfl := List.eq_of_mem_replicate blank
      decide
    · exact ascii_dumpsField gap entry d field
    · exact ih d rest

theorem ascii_dumpsTexts (gap : ℕ) (entries : List (String × String)) :
    ∀ d ∈ (dumpsTexts gap entries).toList, d.toNat < 128 := by
  cases entries with
  | nil =>
    have empty : (dumpsTexts gap []).toList = ['\x7b', '\x7d'] := by
      simp [dumpsTexts]
    rw [empty]
    simp
  | cons entry entries =>
    intro d mem
    simp only [dumpsTexts, String.toList_ofList, List.mem_cons, List.mem_append, List.not_mem_nil,
      or_false] at mem
    rcases mem with rfl | field | rest | rfl
    · decide
    · exact ascii_dumpsField gap entry d field
    · exact ascii_dumpsFields gap entries d rest
    · decide

/-! ### Reading -/

/-- The white space of JSON. -/
def skipSpace (chars : List Char) : List Char :=
  chars.dropWhile fun c => c ∈ [' ', '\t', '\n', '\r']

/-- A string literal at the front, and what follows it and white space. -/
def scanText (chars : List Char) : Option (String × List Char) :=
  match chars with
  | '\"' :: chars => (scanString chars).map fun p => (String.ofList p.1, skipSpace p.2)
  | _ => none

/-- A field at the front, and what follows it and white space. -/
def scanField (chars : List Char) : Option ((String × String) × List Char) :=
  match scanText chars with
  | some (key, ':' :: chars) =>
    (scanText (skipSpace chars)).map fun value => ((key, value.1), value.2)
  | _ => none

/-- The fields up to the closing brace, and what follows it. -/
def scanFields : ℕ → List Char → Option (List (String × String) × List Char)
  | 0, _ => none
  | fuel + 1, chars =>
    match scanField chars with
    | some (entry, ',' :: chars) =>
      (scanFields fuel (skipSpace chars)).map fun rest => (entry :: rest.1, rest.2)
    | some (entry, '\x7d' :: chars) => some ([entry], chars)
    | _ => none

/-- What follows the opening brace, to the end of the text. -/
def scanObject (fuel : ℕ) : List Char → Option (List (String × String))
  | '\x7d' :: rest => if skipSpace rest = [] then some [] else none
  | chars => (scanFields fuel chars).bind fun p => if skipSpace p.2 = [] then some p.1 else none

/-- `json.loads` of an object of strings. -/
def loadsTexts (s : String) : Option (List (String × String)) :=
  match skipSpace s.toList with
  | '\x7b' :: chars => scanObject s.length (skipSpace chars)
  | _ => none

theorem skipSpace_cons {c : Char} (visible : c ∉ [' ', '\t', '\n', '\r']) (rest : List Char) :
    skipSpace (c :: rest) = c :: rest :=
  List.dropWhile_cons_of_neg (by simpa using visible)

theorem skipSpace_gap (gap : ℕ) (s : String) (rest : List Char) :
    skipSpace (List.replicate gap ' ' ++ (quote s ++ rest)) = quote s ++ rest := by
  induction gap with
  | zero => exact skipSpace_cons (by decide) _
  | succ gap ih =>
    rw [List.replicate_succ, List.cons_append, skipSpace, List.dropWhile_cons_of_pos (by decide)]
    exact ih

theorem scanText_quote (s : String) (rest : List Char) :
    scanText (quote s ++ rest) = some (s, skipSpace rest) := by
  have text : quote s ++ rest = '\"' :: (escape s.toList ++ '\"' :: rest) := by simp [quote]
  rw [text, scanText, scanString_escape]
  simp

/-- A field that was written is read. -/
theorem scanField_dumpsField (gap : ℕ) (entry : String × String) (rest : List Char) :
    scanField (dumpsField gap entry ++ rest) = some (entry, skipSpace rest) := by
  have text : dumpsField gap entry ++ rest =
      quote entry.1 ++ ':' :: (List.replicate gap ' ' ++ (quote entry.2 ++ rest)) := by
    simp [dumpsField]
  rw [text, scanField, scanText_quote, skipSpace_cons (by decide)]
  show Option.map _ (scanText (skipSpace (List.replicate gap ' ' ++ (quote entry.2 ++ rest)))) = _
  rw [skipSpace_gap, scanText_quote]
  rfl

/-- Fields that were written are read, with fuel for each of them. -/
theorem scanFields_dumpsFields (gap : ℕ) (entry : String × String) (entries : List (String × String))
    {fuel : ℕ} (enough : entries.length < fuel) (rest : List Char) :
    scanFields fuel (dumpsField gap entry ++ (dumpsFields gap entries ++ '\x7d' :: rest)) =
      some (entry :: entries, rest) := by
  induction entries generalizing entry fuel with
  | nil =>
    obtain ⟨fuel, rfl⟩ := Nat.exists_eq_succ_of_ne_zero (Nat.ne_zero_of_lt enough)
    rw [scanFields, scanField_dumpsField, dumpsFields, List.nil_append, skipSpace_cons (by decide)]
    rfl
  | cons next entries ih =>
    obtain ⟨fuel, rfl⟩ := Nat.exists_eq_succ_of_ne_zero (Nat.ne_zero_of_lt enough)
    have first : ∃ tail, dumpsField gap next ++ (dumpsFields gap entries ++ '\x7d' :: rest) =
        quote next.1 ++ tail := ⟨_, List.append_assoc ..⟩
    obtain ⟨tail, split⟩ := first
    rw [scanFields, scanField_dumpsField, dumpsFields, List.cons_append, skipSpace_cons (by decide),
      List.append_assoc, List.append_assoc, split]
    show Option.map _ (scanFields fuel (skipSpace (List.replicate gap ' ' ++ (quote next.1 ++ tail))))
      = _
    rw [skipSpace_gap, ← split, ih next (Nat.lt_of_succ_lt_succ enough)]
    rfl

theorem length_dumpsFields (gap : ℕ) (entries : List (String × String)) :
    entries.length ≤ (dumpsFields gap entries).length := by
  induction entries with
  | nil => exact Nat.zero_le _
  | cons entry entries ih =>
    simp only [dumpsFields, List.length_cons, List.length_append]
    omega

/-- An object that was written is read back. -/
theorem loadsTexts_dumpsTexts (gap : ℕ) (entries : List (String × String)) :
    loadsTexts (dumpsTexts gap entries) = some entries := by
  cases entries with
  | nil =>
    show loadsTexts "\x7b\x7d" = some []
    decide
  | cons entry entries =>
    have fields : ∃ tail, dumpsField gap entry ++ (dumpsFields gap entries ++ ['\x7d']) =
        '\"' :: tail := ⟨_, rfl⟩
    obtain ⟨tail, split⟩ := fields
    have enough : entries.length < (dumpsTexts gap (entry :: entries)).length := by
      have bound := length_dumpsFields gap entries
      simp only [dumpsTexts, String.length_ofList, List.length_cons, List.length_append]
      omega
    have read := scanFields_dumpsFields gap entry entries enough []
    have text : (dumpsTexts gap (entry :: entries)).toList = '\x7b' :: '\"' :: tail := by
      rw [dumpsTexts, String.toList_ofList, split]
    rw [split] at read
    rw [loadsTexts, text, skipSpace_cons (by decide)]
    show scanObject _ (skipSpace ('\"' :: tail)) = _
    rw [skipSpace_cons (by decide), scanObject, read]
    · rfl
    · intro rest eq
      exact absurd (List.cons.inj eq).1 (by decide)

end JsonText
