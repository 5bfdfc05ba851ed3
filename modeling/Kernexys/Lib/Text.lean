import Mathlib

/-!
# Trimming, splitting and matching text

Patterns are the regular expressions of Mathlib over characters; this module adds character
classes, and what a match says about the first and last character of a text.
-/

namespace Text

open RegularExpression

/-! ## Trimming -/

/-- The characters with the Unicode property White_Space. -/
def whiteSpace (c : Char) : Bool :=
  c.toNat ∈ [9, 10, 11, 12, 13, 32, 0x85, 0xA0, 0x1680, 0x2028, 0x2029, 0x202f, 0x205f, 0x3000] ||
    (0x2000 ≤ c.toNat && c.toNat ≤ 0x200a)

/-- The text without the characters of a class at its ends. -/
def strip (space : Char → Bool) (s : String) : String :=
  String.ofList ((s.toList.dropWhile space).reverse.dropWhile space).reverse

theorem dropWhile_eq_self {space : Char → Bool} {l : List Char}
    (head : ∀ c, l.head? = some c → space c = false) : l.dropWhile space = l := by
  cases l with
  | nil => rfl
  | cons c l => rw [List.dropWhile_cons_of_neg (by simp [head c rfl])]

/-- A text that neither starts nor ends with a character of the class is not changed. -/
theorem strip_eq_self {space : Char → Bool} {s : String}
    (head : ∀ c, s.toList.head? = some c → space c = false)
    (last : ∀ c, s.toList.getLast? = some c → space c = false) : strip space s = s := by
  rw [strip, dropWhile_eq_self head, dropWhile_eq_self (l := s.toList.reverse),
    List.reverse_reverse, String.ofList_toList]
  intro c eq
  rw [List.head?_reverse] at eq
  exact last c eq

/-- A text without characters of the class is not changed. -/
theorem strip_eq_self_of_all {space : Char → Bool} {s : String}
    (apart : ∀ c ∈ s.toList, space c = false) : strip space s = s :=
  strip_eq_self (fun c head => apart c (List.mem_of_head? head))
    fun c last => apart c (List.mem_of_getLast? last)

/-! ## Separators -/

/-- A text that is split at the first separator determines both parts. -/
theorem append_separator_inj {separator : Char} {a b c d : List Char} (freeA : separator ∉ a)
    (freeC : separator ∉ c) (same : a ++ separator :: b = c ++ separator :: d) : a = c ∧ b = d := by
  induction a generalizing c with
  | nil =>
    cases c with
    | nil => exact ⟨rfl, (List.cons.inj same).2⟩
    | cons x c => exact absurd (List.mem_cons.2 (Or.inl (List.cons.inj same).1)) freeC
  | cons x a ih =>
    cases c with
    | nil => exact absurd (List.mem_cons.2 (Or.inl (List.cons.inj same).1.symm)) freeA
    | cons y c =>
      obtain ⟨rfl, rest⟩ := List.cons.inj same
      obtain ⟨rfl, tail⟩ := ih (fun mem => freeA (List.mem_cons_of_mem x mem))
        (fun mem => freeC (List.mem_cons_of_mem x mem)) rest
      exact ⟨rfl, tail⟩

/-! ## Patterns -/

/-- The characters from one on. -/
def span (first : Char) (count : ℕ) : List Char :=
  (List.range count).map fun i => Char.ofNat (first.toNat + i)

/-- One character of a class. -/
def oneOf (chars : List Char) : RegularExpression Char :=
  chars.foldr (fun c p => char c + p) 0

/-- The text itself. -/
def literal (s : String) : RegularExpression Char :=
  s.toList.foldr (fun c p => char c * p) 1

/-- The pattern or nothing. -/
def optional (p : RegularExpression Char) : RegularExpression Char := 1 + p

/-- The pattern once or more. -/
def repeated (p : RegularExpression Char) : RegularExpression Char := p * star p

/-- The whole text matches. -/
def fullmatch (p : RegularExpression Char) (s : String) : Bool := p.rmatch s.toList

theorem mem_oneOf {chars w : List Char} :
    w ∈ (oneOf chars).matches' ↔ ∃ c ∈ chars, w = [c] := by
  induction chars with
  | nil => simp [oneOf, Language.notMem_zero]
  | cons c chars ih =>
    have split : w ∈ (oneOf (c :: chars)).matches' ↔ w = [c] ∨ w ∈ (oneOf chars).matches' := Iff.rfl
    rw [split, ih]
    simp

/-- The characters that a pattern names. -/
def alphabet : RegularExpression Char → List Char
  | .zero => []
  | .epsilon => []
  | .char c => [c]
  | .plus p q => alphabet p ++ alphabet q
  | .comp p q => alphabet p ++ alphabet q
  | .star p => alphabet p

@[simp] theorem alphabet_add (p q : RegularExpression Char) :
    alphabet (p + q) = alphabet p ++ alphabet q := rfl

@[simp] theorem alphabet_mul (p q : RegularExpression Char) :
    alphabet (p * q) = alphabet p ++ alphabet q := rfl

@[simp] theorem alphabet_star (p : RegularExpression Char) : alphabet (star p) = alphabet p := rfl

@[simp] theorem alphabet_char (c : Char) : alphabet (char c) = [c] := rfl

@[simp] theorem alphabet_optional (p : RegularExpression Char) :
    alphabet (optional p) = alphabet p := rfl

@[simp] theorem alphabet_oneOf (chars : List Char) : alphabet (oneOf chars) = chars := by
  induction chars with
  | nil => rfl
  | cons c chars ih => exact congrArg (c :: ·) ih

/-- A text that matches a pattern has only characters that the pattern names. -/
theorem mem_alphabet {p : RegularExpression Char} {w : List Char} (matched : w ∈ p.matches') :
    ∀ c ∈ w, c ∈ alphabet p := by
  induction p generalizing w with
  | zero => exact absurd matched (Language.notMem_zero w)
  | epsilon =>
    obtain rfl := (Language.mem_one w).1 matched
    exact fun c mem => absurd mem List.not_mem_nil
  | char a =>
    obtain rfl : w = [a] := matched
    exact fun c mem => mem
  | plus p q ihP ihQ =>
    intro c mem
    rcases matched with left | right
    · exact List.mem_append_left _ (ihP left c mem)
    · exact List.mem_append_right _ (ihQ right c mem)
  | comp p q ihP ihQ =>
    obtain ⟨u, inU, v, inV, rfl⟩ := Language.mem_mul.1 matched
    intro c mem
    rcases List.mem_append.1 mem with left | right
    · exact List.mem_append_left _ (ihP inU c left)
    · exact List.mem_append_right _ (ihQ inV c right)
  | star p ih =>
    obtain ⟨parts, rfl, each⟩ := Language.mem_kstar.1 matched
    intro c mem
    obtain ⟨part, inParts, inPart⟩ := List.mem_flatten.1 mem
    exact ih (each part inParts) c inPart

/-- A text that matches a pattern is not changed by trimming characters the pattern does not name. -/
theorem strip_of_fullmatch {space : Char → Bool} {p : RegularExpression Char}
    (apart : ((alphabet p).all fun c => !space c) = true) {s : String}
    (matched : fullmatch p s = true) : strip space s = s := by
  rw [fullmatch, rmatch_iff_matches'] at matched
  refine strip_eq_self_of_all fun c mem => ?_
  simpa using List.all_eq_true.1 apart c (mem_alphabet matched c mem)

/-- The names that start and end with a character of one class, with characters of another class in
between. -/
def bounded (ends middle : List Char) : RegularExpression Char :=
  oneOf ends * optional (star (oneOf middle) * oneOf ends)

theorem ends_of_bounded {ends middle : List Char} {s : String}
    (matched : fullmatch (bounded ends middle) s = true) :
    (∃ c ∈ ends, s.toList.head? = some c) ∧ ∃ c ∈ ends, s.toList.getLast? = some c := by
  rw [fullmatch, rmatch_iff_matches', bounded, matches'_mul] at matched
  obtain ⟨first, inFirst, last, inLast, eq⟩ := Language.mem_mul.1 matched
  obtain ⟨c, mem, rfl⟩ := mem_oneOf.1 inFirst
  rw [← eq]
  refine ⟨⟨c, mem, rfl⟩, ?_⟩
  rcases inLast with nothing | more
  · obtain rfl := (Language.mem_one _).1 nothing
    exact ⟨c, mem, rfl⟩
  · obtain ⟨middle, -, tail, inTail, rfl⟩ := Language.mem_mul.1 more
    obtain ⟨d, mem, rfl⟩ := mem_oneOf.1 inTail
    exact ⟨d, mem, by rw [← List.append_assoc, List.getLast?_concat]⟩

/-- A bounded name is not changed by trimming characters that it cannot end with. -/
theorem strip_bounded {ends middle : List Char} {space : Char → Bool} {s : String}
    (matched : fullmatch (bounded ends middle) s = true)
    (apart : ∀ c ∈ ends, space c = false) : strip space s = s := by
  obtain ⟨⟨a, memA, head⟩, b, memB, last⟩ := ends_of_bounded matched
  refine strip_eq_self (fun c eq => ?_) fun c eq => ?_
  · rw [head] at eq
    obtain rfl := Option.some.inj eq
    exact apart a memA
  · rw [last] at eq
    obtain rfl := Option.some.inj eq
    exact apart b memB

end Text
