import Mathlib

/-!
# Sources

A source is a state together with a function that delivers the next item, or nothing when it keeps
its consumer waiting for ever.
-/

namespace Source

variable {σ α : Type} (next : σ → Option (α × σ))

/-- What the first `n` requests get; a request that waits for ever is the last one. -/
def yields : ℕ → σ → List α
  | 0, _ => []
  | n + 1, s =>
    match next s with
    | none => []
    | some (a, t) => a :: yields n t

/-- The requests get these items and leave the source in the state `t`. -/
def Delivers : List α → σ → σ → Prop
  | [], s, t => s = t
  | a :: items, s, t => ∃ s', next s = some (a, s') ∧ Delivers items s' t

variable {next} {s t : σ} {items : List α}

theorem yields_of_some {a : α} (delivered : next s = some (a, t)) (n : ℕ) :
    yields next (n + 1) s = a :: yields next n t := by
  simp only [yields, delivered]

theorem yields_of_none (waits : next s = none) (n : ℕ) : yields next n s = [] := by
  cases n with
  | zero => rfl
  | succ n => simp only [yields, waits]

/-- What `n` requests get, after some items have been delivered. -/
theorem Delivers.yields_eq (delivered : Delivers next items s t) (n : ℕ) :
    yields next n s = items.take n ++ yields next (n - items.length) t := by
  induction items generalizing s n with
  | nil =>
    obtain rfl : s = t := delivered
    simp
  | cons a items ih =>
    obtain ⟨s', first, rest⟩ := delivered
    cases n with
    | zero => simp [yields]
    | succ n =>
      rw [yields_of_some first, ih rest]
      simp

end Source
