import Mathlib

/-!
# Runs

The maximal runs of elements of one class in a list, and the sum of their weights.  A potential
bounds that sum by the length of a list: every run is paid for by its elements and the one after it.
-/

namespace Runs

variable {α β : Type*} (p : α → Bool)

/-- The runs of a list, when one is under way. -/
def runsFrom : List α → List α → List (List α)
  | run, [] => if run.isEmpty then [] else [run]
  | run, a :: l =>
    if p a then runsFrom (run ++ [a]) l
    else if run.isEmpty then runsFrom [] l
    else run :: runsFrom [] l

/-- The runs of a list. -/
def runs (l : List α) : List (List α) := runsFrom p [] l

/-! ## Weights -/

section Weight

variable (weight : List α → ℤ)

/-- The weight of the runs of a list, when one is under way. -/
def total (run l : List α) : ℤ := ((runsFrom p run l).map weight).sum

variable {p weight}

theorem total_nil (empty : weight [] = 0) (run : List α) : total p weight run [] = weight run := by
  cases run with
  | nil => simp [total, runsFrom, empty]
  | cons a run => simp [total, runsFrom]

theorem total_cons_of_mem {a : α} (mem : p a = true) (run l : List α) :
    total p weight run (a :: l) = total p weight (run ++ [a]) l := by
  simp [total, runsFrom, mem]

theorem total_cons_of_not {a : α} (apart : p a = false) (empty : weight [] = 0)
    (run l : List α) : total p weight run (a :: l) = weight run + total p weight [] l := by
  cases run with
  | nil => simp [total, runsFrom, apart, empty]
  | cons b run => simp [total, runsFrom, apart]

theorem total_append {word : List α} (inside : ∀ a ∈ word, p a = true) (run l : List α) :
    total p weight run (word ++ l) = total p weight (run ++ word) l := by
  induction word generalizing run with
  | nil => simp
  | cons a word ih =>
    obtain ⟨mem, inside⟩ := List.forall_mem_cons.1 inside
    rw [List.cons_append, total_cons_of_mem mem, ih inside, List.append_assoc,
      List.singleton_append]

theorem total_replicate {a : α} (apart : p a = false) (empty : weight [] = 0) (run : List α)
    (n : ℕ) : total p weight run (List.replicate n a) = weight run := by
  induction n generalizing run with
  | zero => exact total_nil empty run
  | succ n ih => rw [List.replicate_succ, total_cons_of_not apart empty, ih, empty, add_zero]

/-- Words that a separator ends. -/
theorem total_separated {separator : α} (apart : p separator = false) (empty : weight [] = 0)
    {words : List (List α)} (inside : ∀ word ∈ words, ∀ a ∈ word, p a = true) (l : List α) :
    total p weight [] (words.flatMap (· ++ [separator]) ++ l) =
      (words.map weight).sum + total p weight [] l := by
  induction words with
  | nil => simp
  | cons word words ih =>
    obtain ⟨here, others⟩ := List.forall_mem_cons.1 inside
    rw [List.flatMap_cons, List.append_assoc, List.append_assoc, total_append here,
      List.singleton_append, total_cons_of_not apart empty, ih others, List.map_cons, List.sum_cons,
      List.nil_append, add_assoc]

end Weight

/-! ## Potentials -/

/-- A bound for the weight of runs: a run weighs at most what the bound grows by over its elements
and one more. -/
structure Potential (weight : List α → ℤ) (bound : ℕ → ℤ) : Prop where
  empty : weight [] = 0
  zero : bound 0 = 0
  mono : Monotone bound
  run : ∀ run n, weight run + bound n ≤ bound (n + run.length + 1)

/-- How a symbol is written: as one element, or as the last element of a run without weight and one
that ends it. -/
inductive Writes (weight : List α → ℤ) : List α → Prop
  | one (a : α) : Writes weight [a]
  | ending (a s : α) (mem : p a = true) (apart : p s = false)
      (light : ∀ run, weight (run ++ [a]) ≤ 0) : Writes weight [a, s]

variable {p} {weight : List α → ℤ} {bound : ℕ → ℤ}

/-- The weight of a text is bounded by the number of its symbols, whatever they are written as. -/
theorem Potential.total_flatMap_le (potential : Potential weight bound) {write : β → List α}
    (writes : ∀ b, Writes p weight (write b)) (text : List β) (run : List α) :
    total p weight run (text.flatMap write) ≤ bound (run.length + 1 + text.length) := by
  induction text generalizing run with
  | nil =>
    have paid := potential.run run 0
    rw [potential.zero, add_zero, zero_add] at paid
    rw [List.flatMap_nil, total_nil potential.empty]
    exact paid
  | cons b text ih =>
    have fresh := ih []
    rw [List.length_nil, zero_add] at fresh
    rw [List.flatMap_cons, List.length_cons]
    have written := writes b
    generalize write b = symbol at written ⊢
    cases written with
    | one a =>
      rw [List.singleton_append]
      cases mem : p a with
      | true =>
        rw [total_cons_of_mem mem]
        have next := ih (run ++ [a])
        rw [List.length_append, List.length_singleton] at next
        refine next.trans (le_of_eq (congrArg bound ?_))
        omega
      | false =>
        -- the run that ends here is paid for by its own elements and by `a`
        rw [total_cons_of_not mem potential.empty]
        have paid := potential.run run (1 + text.length)
        rw [show run.length + 1 + (text.length + 1) = 1 + text.length + run.length + 1 by omega]
        omega
    | ending a s mem apart light =>
      rw [List.cons_append, List.singleton_append, total_cons_of_mem mem,
        total_cons_of_not apart potential.empty]
      have grows : bound (1 + text.length) ≤ bound (run.length + 1 + (text.length + 1)) :=
        potential.mono (by omega)
      have nothing := light run
      omega

theorem Potential.sum_runs_le (potential : Potential weight bound) {write : β → List α}
    (writes : ∀ b, Writes p weight (write b)) (text : List β) :
    ((runs p (text.flatMap write)).map weight).sum ≤ bound (text.length + 1) := by
  have bounded := potential.total_flatMap_le writes text []
  rw [List.length_nil, zero_add, add_comm 1] at bounded
  exact bounded

end Runs
