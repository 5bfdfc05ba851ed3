import Mathlib

/-!
# Pages of a growing table

A page is a window on the rows in the order of their keys.  A row is on it exactly when as many rows
come before it as the window allows (`Paging.mem_page_iff`).  Rows that are added move others back, never
forward: whoever reads page after page misses no row that was there at the start
(`Paging.exists_mem_page`), and meets a key twice only when one before it was added in between
(`Paging.exists_new`).
-/

namespace Paging

variable {α κ : Type} [LinearOrder κ] (key : α → κ)

/-- `ORDER BY key LIMIT limit OFFSET offset`. -/
def page (limit offset : ℕ) (rows : List α) : List α :=
  ((rows.mergeSort fun a b => key a ≤ key b).drop offset).take limit

/-- How many keys are before `x`. -/
def rank (keys : List κ) (x : κ) : ℕ := keys.countP (· < x)

variable {key} {limit offset : ℕ} {rows : List α}

theorem length_page : (page key limit offset rows).length = min limit (rows.length - offset) := by
  simp [page]

/-- The keys in order, none twice. -/
theorem sorted_mergeSort (nodup : (rows.map key).Nodup) :
    ((rows.mergeSort fun a b => key a ≤ key b).map key).Pairwise (· < ·) := by
  have sorted : (rows.mergeSort fun a b => key a ≤ key b).Pairwise fun a b =>
      decide (key a ≤ key b) = true :=
    List.pairwise_mergeSort (fun a b c ab bc => by simp only [decide_eq_true_eq] at *; exact ab.trans bc)
      (fun a b => by simpa using le_total (key a) (key b)) rows
  have perm := (List.mergeSort_perm rows fun a b => key a ≤ key b).map key
  have distinct := perm.nodup_iff.2 nodup
  rw [List.pairwise_map]
  rw [List.Nodup, List.pairwise_map] at distinct
  exact (sorted.and distinct).imp fun both => lt_of_le_of_ne (of_decide_eq_true both.1) both.2

/-- In a list in order, the rank of a key is its position. -/
theorem rank_getElem {keys : List κ} (sorted : keys.Pairwise (· < ·)) {i : ℕ}
    (bound : i < keys.length) : rank keys keys[i] = i := by
  induction keys generalizing i with
  | nil => cases bound
  | cons x keys ih =>
    rw [List.pairwise_cons] at sorted
    cases i with
    | zero =>
      have none : keys.countP (· < x) = 0 := by
        rw [List.countP_eq_zero]
        intro y mem
        simpa using (sorted.1 y mem).le
      simp [rank, none]
    | succ i =>
      have bound' : i < keys.length := by simpa using bound
      have before := sorted.1 _ (List.getElem_mem bound')
      have rest := ih sorted.2 bound'
      simp only [rank, List.getElem_cons_succ, List.countP_cons, before, decide_true, if_true] at rest ⊢
      rw [rest]

theorem rank_perm {keys keys' : List κ} (perm : keys.Perm keys') (x : κ) :
    rank keys x = rank keys' x := perm.countP_eq _

/-- A row is on a page when its rank is in the window. -/
theorem mem_page_iff (nodup : (rows.map key).Nodup) {row : α} : row ∈ page key limit offset rows ↔
    row ∈ rows ∧ offset ≤ rank (rows.map key) (key row) ∧
      rank (rows.map key) (key row) < offset + limit := by
  have perm := List.mergeSort_perm rows fun a b => key a ≤ key b
  have sorted := sorted_mergeSort nodup
  have position {i : ℕ} (bound : i < (rows.mergeSort fun a b => key a ≤ key b).length) :
      rank (rows.map key) (key (rows.mergeSort fun a b => key a ≤ key b)[i]) = i := by
    have at_i := rank_getElem sorted (by simpa using bound)
    rw [List.getElem_map] at at_i
    rw [← rank_perm (perm.map key), at_i]
  unfold page
  rw [List.mem_take_iff_getElem]
  constructor
  · rintro ⟨i, bound, rfl⟩
    rw [List.length_drop] at bound
    rw [List.getElem_drop, position]
    exact ⟨perm.mem_iff.1 (List.getElem_mem _), by omega, by omega⟩
  · rintro ⟨mem, least, most⟩
    obtain ⟨i, bound, rfl⟩ := List.getElem_of_mem (perm.mem_iff.2 mem)
    rw [position] at least most
    refine ⟨i - offset, by rw [List.length_drop]; omega, ?_⟩
    rw [List.getElem_drop]
    congr 1
    omega

theorem rank_lt_length {keys : List κ} {x : κ} (mem : x ∈ keys) : rank keys x < keys.length := by
  refine lt_of_le_of_ne List.countP_le_length fun all => ?_
  have before := List.countP_eq_length.1 all x mem
  simp at before

/-- Keys that are added do not lower a rank, and raise it only from before. -/
theorem rank_le_rank {keys keys' : List κ} {x : κ} (nodup : keys.Nodup)
    (part : ∀ y ∈ keys, y < x → y ∈ keys') : rank keys x ≤ rank keys' x := by
  rw [rank, rank, List.countP_eq_length_filter, List.countP_eq_length_filter]
  refine (List.subperm_of_subset (nodup.filter _) fun y mem => ?_).length_le
  rw [List.mem_filter] at mem ⊢
  exact ⟨part y mem.1 (of_decide_eq_true mem.2), mem.2⟩

section Growing

variable {rows : ℕ → List α} (nodup : ∀ k, ((rows k).map key).Nodup)
  (grows : ∀ k, ∀ x ∈ (rows k).map key, x ∈ (rows (k + 1)).map key)

omit [LinearOrder κ] in
include grows in
theorem mem_of_le {j k : ℕ} (le : j ≤ k) {x : κ} (mem : x ∈ (rows j).map key) :
    x ∈ (rows k).map key := by
  induction le with
  | refl => exact mem
  | step _ ih => exact grows _ x ih

include nodup in
/-- A key that is on two pages was moved by one that came in between. -/
theorem exists_new {j k : ℕ} (lt : j < k) {row row' : α}
    (first : row ∈ page key limit (j * limit) (rows j))
    (second : row' ∈ page key limit (k * limit) (rows k)) (same : key row' = key row) :
    ∃ x ∈ (rows k).map key, x < key row ∧ x ∉ (rows j).map key := by
  by_contra none
  have old : ∀ x ∈ (rows k).map key, x < key row → x ∈ (rows j).map key := by
    intro x mem before
    by_contra new
    exact none ⟨x, mem, before, new⟩
  have still := rank_le_rank (nodup k) old
  obtain ⟨-, -, upper⟩ := (mem_page_iff (nodup j)).1 first
  obtain ⟨-, lower, -⟩ := (mem_page_iff (nodup k)).1 second
  rw [same] at lower
  have windows : (j + 1) * limit ≤ k * limit := Nat.mul_le_mul_right _ lt
  rw [Nat.add_one_mul] at windows
  omega

include nodup grows

/-- As long as a key was on no page, it comes after all of them. -/
theorem le_rank {x : κ} (start : x ∈ (rows 0).map key) {k : ℕ}
    (missed : ∀ j < k, ∀ row ∈ page key limit (j * limit) (rows j), key row ≠ x) :
    k * limit ≤ rank ((rows k).map key) x := by
  induction k with
  | zero => omega
  | succ k ih =>
    have here := ih fun j lt => missed j (by omega)
    obtain ⟨row, mem, rfl⟩ := List.mem_map.1 (mem_of_le grows (Nat.zero_le k) start)
    have off : row ∉ page key limit (k * limit) (rows k) :=
      fun mem => missed k (by omega) row mem rfl
    rw [mem_page_iff (nodup k)] at off
    have beyond : k * limit + limit ≤ rank ((rows k).map key) (key row) := by
      by_contra within
      exact off ⟨mem, here, by omega⟩
    have later := rank_le_rank (x := key row) (nodup k) fun y mem _ => grows k y mem
    rw [Nat.add_one_mul]
    omega

/-- Page after page up to a short one, every key that was there at the start was met. -/
theorem exists_mem_page {n : ℕ} (short : (page key limit (n * limit) (rows n)).length < limit) {x : κ}
    (start : x ∈ (rows 0).map key) :
    ∃ k ≤ n, ∃ row ∈ page key limit (k * limit) (rows k), key row = x := by
  by_contra none
  have missed : ∀ j < n + 1, ∀ row ∈ page key limit (j * limit) (rows j), key row ≠ x := by
    intro j lt row mem same
    exact none ⟨j, by omega, row, mem, same⟩
  have beyond := le_rank nodup grows start missed
  obtain ⟨row, mem, rfl⟩ := List.mem_map.1 (mem_of_le grows (Nat.zero_le n) start)
  have last := rank_lt_length (mem_of_le grows (Nat.zero_le n) start)
  have here := le_rank nodup grows start (k := n) fun j lt => missed j (by omega)
  rw [length_page, List.length_map] at *
  have off : row ∉ page key limit (n * limit) (rows n) := fun mem => missed n (by omega) row mem rfl
  rw [mem_page_iff (nodup n)] at off
  exact off ⟨mem, here, by omega⟩

end Growing

end Paging
