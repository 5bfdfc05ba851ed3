import Mathlib

/-!
# Hexadecimal digits

Numbers below `16 ^ width` written with exactly `width` lower-case digits.
-/

namespace Hex

/-- The last `width` digits of a number, the highest first. -/
def digits : ℕ → ℕ → List Char
  | 0, _ => []
  | width + 1, n => digits width (n / 16) ++ [Nat.digitChar (n % 16)]

@[simp] theorem length_digits (width n : ℕ) : (digits width n).length = width := by
  induction width generalizing n with
  | zero => rfl
  | succ width ih => simp [digits, ih]

theorem isAlphanum_digitChar : ∀ d < 16, (Nat.digitChar d).isAlphanum = true := by decide

theorem digitChar_inj : ∀ d < 16, ∀ e < 16, Nat.digitChar d = Nat.digitChar e → d = e := by decide

theorem isAlphanum_of_mem_digits {width n : ℕ} {c : Char} (mem : c ∈ digits width n) :
    c.isAlphanum = true := by
  induction width generalizing n with
  | zero => cases mem
  | succ width ih =>
    rcases List.mem_append.1 mem with high | low
    · exact ih high
    · rw [List.mem_singleton.1 low]
      exact isAlphanum_digitChar _ (Nat.mod_lt n (by decide))

/-- The digits determine the number. -/
theorem digits_inj {width m n : ℕ} (boundM : m < 16 ^ width) (boundN : n < 16 ^ width)
    (same : digits width m = digits width n) : m = n := by
  induction width generalizing m n with
  | zero =>
    rw [pow_zero] at boundM boundN
    omega
  | succ width ih =>
    rw [pow_succ] at boundM boundN
    obtain ⟨high, low⟩ := List.append_inj' same rfl
    have quotients : m / 16 = n / 16 := ih (by omega) (by omega) high
    have remainders : m % 16 = n % 16 :=
      digitChar_inj _ (Nat.mod_lt m (by decide)) _ (Nat.mod_lt n (by decide)) (List.cons.inj low).1
    omega

end Hex
