import Mathlib

/-!
# JSON documents

JSON values as Python holds them, with Python's equality.  A document is also read as the map from
paths to its leaves; `field_eq_none_of_agree` and `field_eq_str_of_agree` say what two documents with
the same leaves have in common.
-/

/-- A JSON value.  Objects keep the order of their fields.  A float is its rational value, so there
are no infinities, no NaN and no negative zero. -/
inductive Json where
  | null
  | bool (b : Bool)
  | int (n : ℤ)
  | float (q : ℚ)
  | str (s : String)
  | arr (items : List Json)
  | obj (fields : List (String × Json))

/-- The fields of an object. -/
abbrev Dict : Type := List (String × Json)

theorem Dict.mem_of_lookup {α : Type} {fields : List (String × α)} {key : String} {value : α}
    (found : fields.lookup key = some value) : (key, value) ∈ fields := by
  obtain ⟨before, after, rfl, -⟩ := List.lookup_eq_some_iff.1 found
  exact List.mem_append_right _ List.mem_cons_self

theorem Dict.lookup_cons_of_ne {key key' : String} (ne : key ≠ key') (value : Json) (fields : Dict) :
    List.lookup key ((key', value) :: fields) = List.lookup key fields := by
  rw [List.lookup_cons, beq_false_of_ne ne]

/-- With distinct keys, a lookup finds every field. -/
theorem Dict.lookup_of_mem {fields : Dict} (distinct : (fields.map Prod.fst).Nodup) {key : String}
    {value : Json} (mem : (key, value) ∈ fields) : fields.lookup key = some value := by
  obtain ⟨before, after, rfl⟩ := List.append_of_mem mem
  refine List.lookup_eq_some_iff.2 ⟨before, after, rfl, fun entry earlier => ?_⟩
  rw [List.map_append, List.map_cons] at distinct
  have apart := (List.nodup_append.1 distinct).2.2 entry.1 (List.mem_map_of_mem earlier) key
    List.mem_cons_self
  simpa using Ne.symm apart

namespace Json

/-! ## Python's equality -/

/-- The number that a boolean or number is equal to. -/
def number : Json → Option ℚ
  | bool b => some (if b then 1 else 0)
  | int n => some n
  | float q => some q
  | _ => none

mutual

/-- Python's `==`: numbers and booleans by value, objects whatever the order of their fields. -/
def eq : Json → Json → Bool
  | null, null => true
  | str s, str t => s == t
  | arr items, arr items' => eqItems items items'
  | obj fields, obj fields' => fields.length == fields'.length && eqFields fields fields'
  | a, b => a.number.isSome && a.number == b.number

/-- The items are equal one by one. -/
def eqItems : List Json → List Json → Bool
  | [], [] => true
  | a :: items, b :: items' => a.eq b && eqItems items items'
  | _, _ => false

/-- Every field has an equal one in the other object. -/
def eqFields : List (String × Json) → Dict → Bool
  | [], _ => true
  | (key, value) :: fields, fields' =>
    (match fields'.lookup key with
      | some value' => value.eq value'
      | none => false) && eqFields fields fields'

end

/-! ## Reading values -/

/-- Python's `bool`. -/
def truthy : Json → Bool
  | null => false
  | bool b => b
  | int n => n != 0
  | float q => q != 0
  | str s => s != ""
  | arr items => !items.isEmpty
  | obj fields => !fields.isEmpty

/-- The text of a string. -/
def text : Json → Option String
  | str s => some s
  | _ => none

/-- The value of an integer. -/
def integer : Json → Option ℤ
  | int n => some n
  | _ => none

theorem integer_int (n : ℤ) : (int n).integer = some n := rfl

/-- The fields of an object. -/
def dict : Json → Option Dict
  | obj fields => some fields
  | _ => none

/-! ## Paths -/

/-- The value at a path of field names. -/
def field : Json → List String → Option Json
  | value, [] => some value
  | obj fields, key :: path => (fields.lookup key).bind fun value => value.field path
  | _, _ :: _ => none

/-- Anything but an object that has fields. -/
def isLeaf : Json → Bool
  | obj (_ :: _) => false
  | _ => true

theorem exists_fields_of_isLeaf_eq_false {value : Json} (inner : value.isLeaf = false) :
    ∃ entry fields, value = obj (entry :: fields) := by
  cases value with
  | obj fields =>
    cases fields with
    | nil => cases inner
    | cons entry fields => exact ⟨entry, fields, rfl⟩
  | _ => cases inner

/-- The leaf at a path. -/
def leaf (value : Json) (path : List String) : Option Json := (value.field path).filter isLeaf

theorem field_cons_eq_some_iff {value inner : Json} {key : String} {path : List String} :
    value.field (key :: path) = some inner ↔ ∃ fields next, value = obj fields ∧
      fields.lookup key = some next ∧ next.field path = some inner := by
  cases value with
  | obj fields => simp [field, Option.bind_eq_some_iff]
  | _ => simp [field]

theorem field_of_lookup {fields : List (String × Json)} {key : String} {next : Json}
    (found : fields.lookup key = some next) (path : List String) :
    (obj fields).field (key :: path) = next.field path := by
  rw [field, found, Option.bind_some]

theorem field_singleton (fields : List (String × Json)) (key : String) :
    (obj fields).field [key] = fields.lookup key := by
  rw [field]
  cases fields.lookup key <;> rfl

theorem field_append (value : Json) (path path' : List String) :
    value.field (path ++ path') = (value.field path).bind fun inner => inner.field path' := by
  induction path generalizing value with
  | nil => simp [field]
  | cons key path ih =>
    cases value with
    | obj fields =>
      simp only [List.cons_append, field, Option.bind_assoc]
      congr 1
      funext inner
      exact ih inner
    | _ => rfl

/-- Every value has a leaf. -/
theorem exists_leaf : ∀ value : Json, ∃ path inner, value.leaf path = some inner
  | obj ((key, value) :: fields) => by
    obtain ⟨path, inner, found⟩ := exists_leaf value
    refine ⟨key :: path, inner, ?_⟩
    rw [leaf, field]
    simp only [List.lookup, beq_self_eq_true]
    exact found
  | obj [] => ⟨[], _, rfl⟩
  | null => ⟨[], _, rfl⟩
  | bool _ => ⟨[], _, rfl⟩
  | int _ => ⟨[], _, rfl⟩
  | float _ => ⟨[], _, rfl⟩
  | str _ => ⟨[], _, rfl⟩
  | arr _ => ⟨[], _, rfl⟩

theorem leaf_append {value : Json} {path : List String} {inner : Json}
    (found : value.field path = some inner) (path' : List String) :
    value.leaf (path ++ path') = inner.leaf path' := by
  rw [leaf, field_append, found]
  rfl

theorem leaf_append_of_none {value : Json} {path : List String} (absent : value.field path = none)
    (path' : List String) : value.leaf (path ++ path') = none := by
  rw [leaf, field_append, absent]
  rfl

/-- A value with something below it is not a leaf. -/
theorem leaf_eq_none_of_below {value inner : Json} {path path' : List String} {key : String}
    (below : value.field (path ++ key :: path') = some inner) : value.leaf path = none := by
  rw [field_append] at below
  obtain ⟨outer, found, rest⟩ := Option.bind_eq_some_iff.1 below
  obtain ⟨fields, next, rfl, stored, -⟩ := field_cons_eq_some_iff.1 rest
  cases fields with
  | nil => cases stored
  | cons entry fields =>
    rw [leaf, found]
    rfl

/-- An object with fields has a leaf below it. -/
theorem exists_leaf_below (entry : String × Json) (fields : List (String × Json)) :
    ∃ key path inner, (obj (entry :: fields)).leaf (key :: path) = some inner := by
  obtain ⟨path, inner, found⟩ := exists_leaf (obj (entry :: fields))
  cases path with
  | nil => cases found
  | cons key path => exact ⟨key, path, inner, found⟩

/-- Two documents with the same leaves below a path both have it or both lack it. -/
theorem field_eq_none_of_agree {a b : Json} {path : List String}
    (agree : ∀ path', a.leaf (path ++ path') = b.leaf (path ++ path'))
    (absent : b.field path = none) : a.field path = none := by
  cases found : a.field path with
  | none => rfl
  | some value =>
    obtain ⟨path', inner, at_leaf⟩ := exists_leaf value
    have eq := agree path'
    rw [leaf_append found, leaf_append_of_none absent, at_leaf] at eq
    cases eq

/-- A text that one of two documents with the same leaves has at a path, the other has there too. -/
theorem field_eq_str_of_agree {a b : Json} {path : List String} {s : String}
    (agree : ∀ path', a.leaf (path ++ path') = b.leaf (path ++ path'))
    (found : b.field path = some (str s)) : a.field path = some (str s) := by
  have eq := agree []
  rw [List.append_nil, leaf, leaf, found] at eq
  have filtered : (a.field path).filter isLeaf = some (str s) := eq
  exact (Option.filter_eq_some_iff.1 filtered).1

end Json
