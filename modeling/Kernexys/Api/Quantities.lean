import Kernexys.Lib.Patterns
import Kernexys.Api.Reading

/-!
# The two patterns of quantities

The API and the schema of the cluster each have a pattern for quantities.  The pattern of the API
counts every decimal digit of Unicode as a digit and knows the suffix `K`; the one of the schema has
neither.  Apart from these, whatever the API takes the schema takes.
-/

namespace Kernexys.Api

open RegularExpression Text

/-- ASCII characters. -/
abbrev IsAscii (c : Char) : Prop := c.toNat < 128

theorem decimalDigits_ascii : ∀ c ∈ decimalDigits, IsAscii c → c ∈ span '0' 10 := by
  have checked : (decimalDigits.all fun c => decide (128 ≤ c.toNat) || decide (c ∈ span '0' 10)) =
      true := by decide +kernel
  intro c mem ascii
  have one := List.all_eq_true.1 checked c mem
  rw [Bool.or_eq_true, decide_eq_true_eq, decide_eq_true_eq] at one
  exact one.resolve_left (not_le.2 ascii)

theorem getLast?_crdQuantity {quantity : String}
    (matched : fullmatch crdQuantityPattern quantity = true) : quantity.toList.getLast? ≠ some 'K' := by
  rw [fullmatch, rmatch_iff_matches'] at matched
  exact fun last => absurd (mem_finals matched last) (by decide)

theorem ascii_crdQuantity {quantity : String}
    (matched : fullmatch crdQuantityPattern quantity = true) : ∀ c ∈ quantity.toList, IsAscii c := by
  rw [fullmatch, rmatch_iff_matches'] at matched
  have named : ((alphabet crdQuantityPattern).all fun c => decide (IsAscii c)) = true := by decide
  exact fun c mem => of_decide_eq_true (List.all_eq_true.1 named c (mem_alphabet matched c mem))

section Patterns

/-- The digits of the two patterns. -/
theorem digit_narrows : Narrows IsAscii (oneOf decimalDigits) (oneOf (span '0' 10)) :=
  .oneOf decimalDigits_ascii

theorem sign_narrows : Narrows IsAscii (optional (oneOf ['+', '-'])) (optional (char '+' + char '-')) := by
  refine .optional fun w matched _ => ?_
  obtain ⟨c, mem, rfl⟩ := mem_oneOf.1 matched
  rcases List.mem_pair.1 mem with rfl | rfl
  · exact Or.inl rfl
  · exact Or.inr rfl

theorem number_narrows : Narrows IsAscii
    (repeated (oneOf decimalDigits) * optional (char '.' * star (oneOf decimalDigits)) +
      char '.' * repeated (oneOf decimalDigits))
    (repeated (oneOf (span '0' 10)) * optional (char '.' * star (oneOf (span '0' 10))) +
      char '.' * repeated (oneOf (span '0' 10))) :=
  .add (digit_narrows.repeated.mul (.optional (.mul .refl digit_narrows.star)))
    (.mul .refl digit_narrows.repeated)

/-- The digits of an exponent are a number. -/
theorem exponent_narrows : Narrows IsAscii
    (oneOf ['e', 'E'] * optional (oneOf ['+', '-']) * repeated (oneOf decimalDigits))
    (oneOf ['e', 'E'] * optional (char '+' + char '-') *
      (repeated (oneOf (span '0' 10)) * optional (char '.' * star (oneOf (span '0' 10))) +
        char '.' * repeated (oneOf (span '0' 10)))) := by
  refine .mul (.mul .refl sign_narrows) fun w matched kept => Or.inl ?_
  refine Language.mem_mul.2 ⟨w, digit_narrows.repeated w matched kept, [], Or.inl rfl, ?_⟩
  exact List.append_nil w

end Patterns

/-- A quantity of the API in ASCII that does not end in `K` is one of the schema. -/
theorem crdQuantity_of_quantity {quantity : String}
    (matched : fullmatch resourceQuantityPattern quantity = true)
    (ascii : ∀ c ∈ quantity.toList, IsAscii c) (last : quantity.toList.getLast? ≠ some 'K') :
    fullmatch crdQuantityPattern quantity = true := by
  rw [fullmatch, rmatch_iff_matches'] at matched ⊢
  obtain ⟨number, inNumber, suffix, inSuffix, eq⟩ := Language.mem_mul.1 matched
  rw [← eq] at ascii last ⊢
  refine Language.mem_mul.2 ⟨number, sign_narrows.mul number_narrows number inNumber
    fun c mem => ascii c (List.mem_append_left _ mem), suffix, ?_, rfl⟩
  have asciiSuffix : ∀ c ∈ suffix, IsAscii c := fun c mem => ascii c (List.mem_append_right _ mem)
  rcases inSuffix with none | (exponent | letter) | binary
  · exact Or.inl none
  · exact Or.inr (Or.inr (exponent_narrows suffix exponent asciiSuffix))
  · obtain ⟨c, mem, rfl⟩ := mem_oneOf.1 letter
    have notK : c ≠ 'K' := by
      rintro rfl
      exact last (by simp)
    refine Or.inr (Or.inl (Or.inr (mem_oneOf.2 ⟨c, ?_, rfl⟩)))
    simp only [List.mem_cons, List.not_mem_nil, or_false] at mem ⊢
    tauto
  · exact Or.inr (Or.inl (Or.inl binary))

/-- The quantities that `validate_resources` returns are the trimmed ones; the schema takes those that
are in ASCII and do not end in `K`. -/
theorem quantity_schema_iff {values : List (String × String)} {normalized : Quantities}
    (accepted : validateResources values = .ok normalized) :
    normalized.1 = values.map (fun entry => (entry.1, strip isSpace entry.2)) ∧
      ∀ entry ∈ normalized.1, fullmatch crdQuantityPattern entry.2 = true ↔
        (∀ c ∈ entry.2.toList, IsAscii c) ∧ entry.2.toList.getLast? ≠ some 'K' := by
  refine ⟨validateResources_eq_ok_iff.1 accepted, fun entry mem => ⟨fun matched => ?_, fun plain => ?_⟩⟩
  · exact ⟨ascii_crdQuantity matched, getLast?_crdQuantity matched⟩
  · have valid := (normalized.2 entry mem).2
    rw [isResourceQuantity, Bool.and_eq_true] at valid
    exact crdQuantity_of_quantity valid.2 plain.1 plain.2

/-! ## One unit with a suffix -/

/-- `1` with a suffix of letters is a quantity. -/
theorem isResourceQuantity_one_append (suffix : List Char) (short : suffix.length < 64)
    (letters : suffix ∈ (oneOf ['n', 'u', 'm', 'k', 'K', 'M', 'G', 'T', 'P', 'E']).matches' ∨
      suffix ∈ (oneOf ['K', 'M', 'G', 'T', 'P', 'E'] * char 'i').matches') :
    isResourceQuantity (String.ofList ('1' :: suffix)) = true := by
  rw [isResourceQuantity, Bool.and_eq_true, fullmatch, rmatch_iff_matches', String.toList_ofList,
    String.length_ofList]
  refine ⟨decide_eq_true short, Language.mem_mul.2 ⟨['1'], one_mem_number, suffix, ?_, rfl⟩⟩
  rcases letters with single | binary
  · exact Or.inr (Or.inl (Or.inr single))
  · exact Or.inr (Or.inr binary)

theorem isResourceQuantity_oneMebi : isResourceQuantity "1Mi" = true :=
  isResourceQuantity_one_append ['M', 'i'] (by decide) (Or.inr (Language.mem_mul.2
    ⟨['M'], mem_oneOf.2 ⟨'M', by decide, rfl⟩, ['i'], rfl, rfl⟩))

theorem isResourceQuantity_oneGibi : isResourceQuantity "1Gi" = true :=
  isResourceQuantity_one_append ['G', 'i'] (by decide) (Or.inr (Language.mem_mul.2
    ⟨['G'], mem_oneOf.2 ⟨'G', by decide, rfl⟩, ['i'], rfl, rfl⟩))

theorem isResourceQuantity_oneKilo : isResourceQuantity "1K" = true :=
  isResourceQuantity_one_append ['K'] (by decide) (Or.inl (mem_oneOf.2 ⟨'K', by decide, rfl⟩))

/-- A request for memory. -/
def memory (quantity : String) (valid : isResourceQuantity quantity = true) : Quantities :=
  ⟨[("memory", quantity)], by simpa using ⟨by decide, valid⟩⟩

theorem quantity_schema_iff_oneMebi :
    validateResources [("memory", " 1Mi")] = .ok (memory "1Mi" isResourceQuantity_oneMebi) ∧
      fullmatch crdQuantityPattern "1Mi" = true := by
  have accepted : validateResources [("memory", " 1Mi")] =
      .ok (memory "1Mi" isResourceQuantity_oneMebi) := validateResources_eq_ok_iff.2 (by decide)
  refine ⟨accepted, ((quantity_schema_iff accepted).2 ("memory", "1Mi") List.mem_cons_self).2 ?_⟩
  exact ⟨by simp [IsAscii], by decide⟩

theorem oneKilo_refused_by_schema :
    validateResources [("memory", "1K")] = .ok (memory "1K" isResourceQuantity_oneKilo) ∧
      fullmatch crdQuantityPattern "1K" = false := by
  refine ⟨validateResources_eq_ok_iff.2 (by decide), Bool.eq_false_iff.2 fun matched => ?_⟩
  exact getLast?_crdQuantity matched (by decide)

end Kernexys.Api
