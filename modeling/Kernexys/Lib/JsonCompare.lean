import Kernexys.Lib.Json

/-!
# Comparing documents

Two documents agree up to a comparison of scalars when they have the same structure and their scalars
compare (`Json.agree`); the order of the fields of an object does not matter.  Python's equality is
of this form (`eq_eq_agree`); it identifies booleans with numbers, and keeps apart whatever else is
different (`agree_strictSame`).  The fields of a dictionary have distinct keys at every depth
(`Json.distinct`).
-/

namespace Json

/-- Induction on a document: an array from its items, an object from its values. -/
@[elab_as_elim]
theorem ind {P : Json → Prop} (null : P null) (bool : ∀ b, P (bool b)) (int : ∀ n, P (int n))
    (float : ∀ q, P (float q)) (str : ∀ s, P (str s))
    (arr : ∀ items, (∀ value ∈ items, P value) → P (arr items))
    (obj : ∀ fields, (∀ entry ∈ fields, P entry.2) → P (obj fields)) : ∀ value, P value
  | .null => null
  | .bool b => bool b
  | .int n => int n
  | .float q => float q
  | .str s => str s
  | .arr items => arr items fun value _ => ind null bool int float str arr obj value
  | .obj fields => obj fields fun entry _ => ind null bool int float str arr obj entry.2
termination_by value => sizeOf value
decreasing_by
  · rename_i mem
    have small := List.sizeOf_lt_of_mem mem
    simp only [Json.arr.sizeOf_spec]
    omega
  · rename_i mem
    have small := List.sizeOf_lt_of_mem mem
    obtain ⟨key, value⟩ := entry
    simp only [Json.obj.sizeOf_spec, Prod.mk.sizeOf_spec] at small ⊢
    omega

/-! ## Agreement up to scalars -/

mutual

/-- The documents have the same structure, and `same` relates their scalars. -/
def agree (same : Json → Json → Bool) : Json → Json → Bool
  | arr items, arr items' => agreeItems same items items'
  | obj fields, obj fields' => fields.length == fields'.length && agreeFields same fields fields'
  | arr _, _ => false
  | obj _, _ => false
  | _, arr _ => false
  | _, obj _ => false
  | a, b => same a b

/-- The items agree one by one. -/
def agreeItems (same : Json → Json → Bool) : List Json → List Json → Bool
  | [], [] => true
  | a :: items, b :: items' => a.agree same b && agreeItems same items items'
  | _, _ => false

/-- Every field agrees with one of the other object. -/
def agreeFields (same : Json → Json → Bool) : List (String × Json) → Dict → Bool
  | [], _ => true
  | (key, value) :: fields, fields' =>
    (match fields'.lookup key with
      | some value' => value.agree same value'
      | none => false) && agreeFields same fields fields'

end

variable {same : Json → Json → Bool}

theorem agree_arr {items items' : List Json} : (arr items).agree same (arr items') = true ↔
    List.Forall₂ (fun a b => a.agree same b = true) items items' := by
  rw [agree]
  induction items generalizing items' with
  | nil => cases items' <;> simp [agreeItems]
  | cons a items ih => cases items' <;> simp [agreeItems, ih]

theorem agreeFields_iff {fields fields' : Dict} : agreeFields same fields fields' = true ↔
    ∀ entry ∈ fields, ∃ value', fields'.lookup entry.1 = some value' ∧
      entry.2.agree same value' = true := by
  induction fields with
  | nil => simp [agreeFields]
  | cons entry fields ih =>
    obtain ⟨key, value⟩ := entry
    rw [agreeFields, Bool.and_eq_true, ih, List.forall_mem_cons]
    cases fields'.lookup key <;> simp

theorem agree_obj {fields fields' : Dict} : (obj fields).agree same (obj fields') = true ↔
    fields.length = fields'.length ∧ ∀ entry ∈ fields, ∃ value',
      fields'.lookup entry.1 = some value' ∧ entry.2.agree same value' = true := by
  rw [agree, Bool.and_eq_true, beq_iff_eq, agreeFields_iff]

/-- Python's equality of scalars. -/
def pythonSame : Json → Json → Bool
  | null, null => true
  | str s, str t => s == t
  | a, b => a.number.isSome && a.number == b.number

theorem eqItems_eq_agreeItems {items : List Json}
    (ih : ∀ a ∈ items, ∀ b, a.eq b = a.agree pythonSame b) (items' : List Json) :
    eqItems items items' = agreeItems pythonSame items items' := by
  induction items generalizing items' with
  | nil => cases items' <;> rfl
  | cons a items next =>
    cases items' with
    | nil => rfl
    | cons b items' =>
      rw [eqItems, agreeItems, ih a List.mem_cons_self,
        next fun value mem => ih value (List.mem_cons_of_mem a mem)]

theorem eqFields_eq_agreeFields {fields : Dict}
    (ih : ∀ entry ∈ fields, ∀ b, entry.2.eq b = entry.2.agree pythonSame b) (fields' : Dict) :
    eqFields fields fields' = agreeFields pythonSame fields fields' := by
  induction fields with
  | nil => rfl
  | cons entry fields next =>
    obtain ⟨key, value⟩ := entry
    rw [eqFields, agreeFields, next fun entry mem => ih entry (List.mem_cons_of_mem _ mem)]
    cases fields'.lookup key with
    | none => rfl
    | some value' => exact congrArg (· && _) (ih (key, value) List.mem_cons_self value')

theorem eq_eq_agree (a b : Json) : a.eq b = a.agree pythonSame b := by
  induction a using ind generalizing b with
  | null | bool | int | float | str => cases b <;> rfl
  | arr items ih =>
    cases b with
    | arr items' => exact eqItems_eq_agreeItems ih items'
    | _ => rfl
  | obj fields ih =>
    cases b with
    | obj fields' => exact congrArg (_ && ·) (eqFields_eq_agreeFields ih fields')
    | _ => rfl

/-! ### Booleans apart from numbers -/

/-- Python's equality of scalars, except that booleans are not numbers. -/
def strictSame : Json → Json → Bool
  | bool b, bool b' => b == b'
  | bool _, _ => false
  | _, bool _ => false
  | a, b => pythonSame a b

mutual

/-- Somewhere at the same place one document has a boolean and the other a number. -/
def mixes : Json → Json → Bool
  | arr items, arr items' => mixesItems items items'
  | obj fields, obj fields' => mixesFields fields fields'
  | bool _, int _ => true
  | bool _, float _ => true
  | int _, bool _ => true
  | float _, bool _ => true
  | _, _ => false

/-- Some item and its counterpart are mixed. -/
def mixesItems : List Json → List Json → Bool
  | a :: items, b :: items' => a.mixes b || mixesItems items items'
  | _, _ => false

/-- The value of some key and its counterpart are mixed. -/
def mixesFields : List (String × Json) → Dict → Bool
  | [], _ => false
  | (key, value) :: fields, fields' =>
    (match fields'.lookup key with
      | some value' => value.mixes value'
      | none => false) || mixesFields fields fields'

end

/-- How a comparison of two parts splits. -/
theorem and_not_or (a m b n : Bool) : ((a && !m) && (b && !n)) = ((a && b) && !(m || n)) := by
  revert a m b n
  decide

theorem agreeItems_strictSame {items : List Json}
    (ih : ∀ a ∈ items, ∀ b, a.agree strictSame b = (a.agree pythonSame b && !a.mixes b))
    (items' : List Json) : agreeItems strictSame items items' =
      (agreeItems pythonSame items items' && !mixesItems items items') := by
  induction items generalizing items' with
  | nil => cases items' <;> rfl
  | cons a items next =>
    cases items' with
    | nil => rfl
    | cons b items' =>
      rw [agreeItems, agreeItems, mixesItems, ih a List.mem_cons_self,
        next fun value mem => ih value (List.mem_cons_of_mem a mem), and_not_or]

theorem agreeFields_strictSame {fields : Dict}
    (ih : ∀ entry ∈ fields, ∀ b, entry.2.agree strictSame b =
      (entry.2.agree pythonSame b && !entry.2.mixes b)) (fields' : Dict) :
    agreeFields strictSame fields fields' =
      (agreeFields pythonSame fields fields' && !mixesFields fields fields') := by
  induction fields with
  | nil => rfl
  | cons entry fields next =>
    obtain ⟨key, value⟩ := entry
    rw [agreeFields, agreeFields, mixesFields,
      next fun entry mem => ih entry (List.mem_cons_of_mem _ mem)]
    cases fields'.lookup key with
    | none => rfl
    | some value' =>
      dsimp only
      rw [ih (key, value) List.mem_cons_self, and_not_or]

/-- Documents that are equal in Python are the same unless they mix booleans and numbers. -/
theorem agree_strictSame (a b : Json) : a.agree strictSame b = (a.eq b && !a.mixes b) := by
  rw [eq_eq_agree]
  induction a using ind generalizing b with
  | null | str | int | float => cases b <;> simp [agree, strictSame, pythonSame, mixes, number]
  | bool x =>
    cases b with
    | bool y => cases x <;> cases y <;> simp [agree, strictSame, pythonSame, mixes, number]
    | _ => simp [agree, strictSame, pythonSame, mixes, number]
  | arr items ih =>
    cases b with
    | arr items' => exact agreeItems_strictSame ih items'
    | _ => rfl
  | obj fields ih =>
    cases b with
    | obj fields' =>
      rw [agree, agree, mixes, agreeFields_strictSame ih, Bool.and_assoc]
    | _ => rfl

/-! ## Distinct keys -/

mutual

/-- No object of the document has a key twice. -/
def distinct : Json → Bool
  | arr items => distinctItems items
  | obj fields => decide (fields.map Prod.fst).Nodup && distinctFields fields
  | _ => true

/-- No object of the items has a key twice. -/
def distinctItems : List Json → Bool
  | [] => true
  | value :: items => value.distinct && distinctItems items

/-- No object of the values has a key twice. -/
def distinctFields : List (String × Json) → Bool
  | [] => true
  | (_, value) :: fields => value.distinct && distinctFields fields

end

theorem distinct_arr {items : List Json} :
    (arr items).distinct = true ↔ ∀ value ∈ items, value.distinct = true := by
  rw [distinct]
  induction items with
  | nil => simp [distinctItems]
  | cons value items ih => rw [distinctItems, Bool.and_eq_true, ih, List.forall_mem_cons]

theorem distinct_obj {fields : Dict} : (obj fields).distinct = true ↔
    (fields.map Prod.fst).Nodup ∧ ∀ entry ∈ fields, entry.2.distinct = true := by
  rw [distinct, Bool.and_eq_true, decide_eq_true_eq]
  refine and_congr_right' ?_
  induction fields with
  | nil => simp [distinctFields]
  | cons entry fields ih =>
    rw [distinctFields, Bool.and_eq_true, ih, List.forall_mem_cons]

end Json
