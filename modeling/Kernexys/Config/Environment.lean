import Mathlib.Data.PNat.Basic

/-!
# Settings from the environment

`_positive_int` and `_boolean`, which the control API and the runtime share.  What they need of
Python's text functions is a parameter, so that nothing here depends on how Python reads numerals or
changes the case of letters outside ASCII.
-/

namespace Kernexys.Config

/-- `os.getenv`. -/
abbrev Environment : Type := String → Option String

/-- The functions of Python that the settings apply to texts; `int` has no value where Python raises
a ValueError. -/
structure Python where
  int : String → Option ℤ
  strip : String → String
  lower : String → String
  upper : String → String

section

variable (python : Python) (env : Environment)

/-- `os.getenv` with a default. -/
def getenv (name default : String) : String := (env name).getD default

/-- `_positive_int`. -/
def positiveInt (name : String) (default : ℕ+) : Except String ℕ+ :=
  match env name with
  | none => .ok default
  | some raw =>
    match python.int raw with
    | none => .error (name ++ " must be an integer")
    | some value =>
      if positive : 0 < value then .ok ⟨value.toNat, Int.pos_iff_toNat_pos.1 positive⟩
      else .error (name ++ " must be greater than zero")

/-- `_boolean`. -/
def boolean (name : String) (default : Bool) : Except String Bool :=
  match env name with
  | none => .ok default
  | some raw =>
    let normalized := python.lower (python.strip raw)
    if normalized ∈ ["1", "true", "yes", "on"] then .ok true
    else if normalized ∈ ["0", "false", "no", "off"] then .ok false
    else .error (name ++ " must be a boolean")

end

/-- A setting that is read is the numeral of its variable, or the default. -/
theorem positiveInt_eq_ok_iff {python : Python} {env : Environment} {name : String}
    {default value : ℕ+} : positiveInt python env name default = .ok value ↔
      (env name = none ∧ value = default) ∨
        ∃ raw, env name = some raw ∧ python.int raw = some (value : ℤ) := by
  unfold positiveInt
  cases found : env name with
  | none => simp [eq_comm]
  | some raw =>
    cases numeral : python.int raw with
    | none => simp [numeral]
    | some n =>
      by_cases positive : 0 < n
      · have same : ((n.toNat : ℕ) : ℤ) = n := Int.toNat_of_nonneg positive.le
        simp only [numeral, positive, dite_true, reduceCtorEq, false_and, Option.some.injEq,
          exists_eq_left', false_or]
        constructor
        · intro read
          obtain rfl := Except.ok.inj read
          exact same.symm
        · intro eq
          exact congrArg Except.ok (PNat.eq (Int.ofNat.inj (same.trans eq)))
      · have differs : n ≠ (value : ℤ) := by
          have := value.pos
          omega
        simp [numeral, positive, differs]

/-- What the settings rely on of Python: numerals are read back, and the words that are written in
the case that is asked for stay as they are. -/
structure Python.Plain (python : Python) : Prop where
  int_numeral : ∀ n : ℕ+, python.int (toString (n : ℕ)) = some (n : ℤ)
  strip_word : ∀ word ∈ ["true", "false"], python.strip word = word
  lower_word : ∀ word ∈ ["true", "false", "in-cluster", "kubeconfig"], python.lower word = word
  upper_word : ∀ word ∈ ["CRITICAL", "ERROR", "WARNING", "INFO", "DEBUG"], python.upper word = word

section Plain

variable {python : Python} (plain : python.Plain) {env : Environment} {name : String}

include plain

theorem Python.Plain.positiveInt {default value : ℕ+} (set : env name = some (toString (value : ℕ))) :
    positiveInt python env name default = .ok value :=
  positiveInt_eq_ok_iff.2 (Or.inr ⟨_, set, plain.int_numeral value⟩)

theorem Python.Plain.boolean {default value : Bool} (set : env name = some (toString value)) :
    boolean python env name default = .ok value := by
  have word : toString value ∈ ["true", "false"] := by cases value <;> decide
  have lower : toString value ∈ ["true", "false", "in-cluster", "kubeconfig"] :=
    List.mem_append_left _ word
  simp only [Config.boolean, set, plain.strip_word _ word, plain.lower_word _ lower]
  cases value <;> rfl

end Plain

end Kernexys.Config
