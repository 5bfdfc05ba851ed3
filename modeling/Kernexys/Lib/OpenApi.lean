import Kernexys.Lib.Json
import Kernexys.Lib.Text

/-!
# Structural schemas

The part of OpenAPI that describes stored documents: texts, integers, quantities that are either, maps
and objects.  Fields that a schema does not declare are pruned before a document is stored, so a
stored object has none.
-/

open Text

/-- A structural schema. -/
inductive Schema where
  | string (minLength maxLength : ℕ) (pattern : Option (RegularExpression Char))
  | integer (minimum maximum : ℤ)
  | intOrString (pattern : RegularExpression Char)
  | map (additionalProperties : Schema)
  | object (properties : List (String × Schema)) (required : List String)

namespace Schema

mutual

/-- A stored document is valid. -/
def accepts : Schema → Json → Bool
  | string minLength maxLength pattern, .str s =>
    minLength ≤ s.length && s.length ≤ maxLength && pattern.all fun p => fullmatch p s
  | integer minimum maximum, .int n => minimum ≤ n && n ≤ maximum
  | intOrString _, .int _ => true
  | intOrString pattern, .str s => fullmatch pattern s
  | map values, .obj fields =>
    (fields.map Prod.fst).Nodup && fields.all fun entry => values.accepts entry.2
  | object properties required, .obj fields =>
    (fields.map Prod.fst).Nodup && (required.all fun key => (fields.lookup key).isSome) &&
      fields.all fun entry => acceptsProperty properties entry.1 entry.2
  | _, _ => false

/-- A field of an object is declared, and its value is valid. -/
def acceptsProperty : List (String × Schema) → String → Json → Bool
  | [], _, _ => false
  | (name, schema) :: properties, key, value =>
    if key == name then schema.accepts value else acceptsProperty properties key value

end

variable {value : Json}

theorem accepts_string {minLength maxLength : ℕ} {pattern : Option (RegularExpression Char)}
    (valid : (string minLength maxLength pattern).accepts value = true) :
    ∃ s, value = .str s ∧ (minLength ≤ s.length ∧ s.length ≤ maxLength) ∧
      ∀ p, pattern = some p → fullmatch p s = true := by
  cases value with
  | str s =>
    simp only [accepts, Bool.and_eq_true, decide_eq_true_eq, Option.all_eq_true_iff_get] at valid
    exact ⟨s, rfl, valid.1, fun p eq => by subst eq; exact valid.2 rfl⟩
  | _ => simp [accepts] at valid

theorem accepts_integer {minimum maximum : ℤ}
    (valid : (integer minimum maximum).accepts value = true) :
    ∃ n, value = .int n ∧ minimum ≤ n ∧ n ≤ maximum := by
  cases value with
  | int n =>
    simp only [accepts, Bool.and_eq_true, decide_eq_true_eq] at valid
    exact ⟨n, rfl, valid⟩
  | _ => simp [accepts] at valid

theorem accepts_intOrString {pattern : RegularExpression Char}
    (valid : (intOrString pattern).accepts value = true) :
    (∃ n, value = .int n) ∨ ∃ s, value = .str s ∧ fullmatch pattern s = true := by
  cases value with
  | int n => exact Or.inl ⟨n, rfl⟩
  | str s => exact Or.inr ⟨s, rfl, by simpa only [accepts] using valid⟩
  | _ => simp [accepts] at valid

theorem accepts_map {values : Schema} (valid : (map values).accepts value = true) :
    ∃ fields, value = .obj fields ∧ (fields.map Prod.fst).Nodup ∧
      ∀ entry ∈ fields, values.accepts entry.2 = true := by
  cases value with
  | obj fields =>
    simp only [accepts, Bool.and_eq_true, decide_eq_true_eq, List.all_eq_true] at valid
    exact ⟨fields, rfl, valid⟩
  | _ => simp [accepts] at valid

theorem acceptsProperty_iff {properties : List (String × Schema)} {key : String} :
    acceptsProperty properties key value = true ↔
      ∃ schema, properties.lookup key = some schema ∧ schema.accepts value = true := by
  induction properties with
  | nil => simp [acceptsProperty]
  | cons property properties ih =>
    obtain ⟨name, schema⟩ := property
    rw [acceptsProperty, List.lookup_cons]
    cases key == name with
    | true => simp
    | false => simpa using ih

/-- What a valid object has. -/
structure Object (properties : List (String × Schema)) (required : List String) (fields : Dict) :
    Prop where
  distinct : (fields.map Prod.fst).Nodup
  required : ∀ key ∈ required, ∃ value, fields.lookup key = some value
  declared : ∀ entry ∈ fields, ∃ schema, properties.lookup entry.1 = some schema ∧
    schema.accepts entry.2 = true

theorem accepts_object {properties : List (String × Schema)} {required : List String}
    (valid : (object properties required).accepts value = true) :
    ∃ fields, value = .obj fields ∧ Object properties required fields := by
  cases value with
  | obj fields =>
    simp only [accepts, Bool.and_eq_true, decide_eq_true_eq, List.all_eq_true,
      Option.isSome_iff_exists, acceptsProperty_iff] at valid
    exact ⟨fields, rfl, valid.1.1, valid.1.2, valid.2⟩
  | _ => simp [accepts] at valid

variable {properties : List (String × Schema)} {required : List String} {fields : Dict}

/-- A field of an object is valid. -/
theorem Object.property (valid : Object properties required fields) {key : String}
    (found : fields.lookup key = some value) :
    ∃ schema, properties.lookup key = some schema ∧ schema.accepts value = true :=
  valid.declared (key, value) (Dict.mem_of_lookup found)

/-- A field that an object must have is there and is valid. -/
theorem Object.property_of_required (valid : Object properties required fields) (key : String)
    (mem : key ∈ required) {schema : Schema} (declared : properties.lookup key = some schema) :
    ∃ value, fields.lookup key = some value ∧ schema.accepts value = true := by
  obtain ⟨value, found⟩ := valid.required key mem
  obtain ⟨schema', eq, accepted⟩ := valid.property found
  rw [declared] at eq
  cases eq
  exact ⟨value, found, accepted⟩

end Schema
