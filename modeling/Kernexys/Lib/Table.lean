import Mathlib

/-!
# Tables with a key

A table is a list of rows of which no two have the same key.
-/

/-- Rows with pairwise different keys. -/
structure Table (Row Key : Type) (key : Row → Key) where
  rows : List Row
  unique : (rows.map key).Nodup

namespace Table

variable {Row Key : Type} {key : Row → Key} {t : Table Row Key key}

theorem eq_of_key {row row' : Row} (mem : row ∈ t.rows) (mem' : row' ∈ t.rows)
    (same : key row = key row') : row = row' :=
  List.inj_on_of_nodup_map t.unique mem mem' same

variable [DecidableEq Key] (t)

/-- A table without rows. -/
def empty : Table Row Key key := ⟨[], by simp⟩

/-- The row with a key. -/
def find (k : Key) : Option Row := t.rows.find? fun row => key row = k

variable {t}

theorem find_eq_some_iff {k : Key} {row : Row} :
    t.find k = some row ↔ row ∈ t.rows ∧ key row = k := by
  refine ⟨fun found => ⟨List.mem_of_find?_eq_some found, ?_⟩, fun ⟨mem, eq⟩ => ?_⟩
  · simpa using List.find?_some found
  · cases found : t.find k with
    | none =>
      have absent := List.find?_eq_none.1 found row mem
      simp [eq] at absent
    | some row' =>
      have eq' : key row' = k := by simpa using List.find?_some found
      have mem' : row' ∈ t.rows := List.mem_of_find?_eq_some found
      rw [eq_of_key mem' mem (eq'.trans eq.symm)]

theorem find_eq_none_iff {k : Key} : t.find k = none ↔ ∀ row ∈ t.rows, key row ≠ k := by
  simp [find]

variable (t)

/-- Add a row with a new key. -/
def append (row : Row) (fresh : t.find (key row) = none) : Table Row Key key where
  rows := t.rows ++ [row]
  unique := by
    rw [List.map_append, List.nodup_append]
    refine ⟨t.unique, by simp, fun k before k' last => ?_⟩
    obtain ⟨row', mem, rfl⟩ := List.mem_map.1 before
    rw [List.map_singleton, List.mem_singleton] at last
    subst last
    exact find_eq_none_iff.1 fresh row' mem

/-- Change the row with a key, but not its key. -/
def modify (k : Key) (f : Row → Row) (keeps : ∀ row, key (f row) = key row) :
    Table Row Key key where
  rows := t.rows.map fun row => if key row = k then f row else row
  unique := by
    have same : ∀ row, key (if key row = k then f row else row) = key row := by
      intro row
      split
      · exact keeps row
      · rfl
    rw [List.map_map, Function.comp_def]
    simp only [same]
    exact t.unique

variable {t}

theorem find_append_ne_none {k : Key} {row : Row} (fresh : t.find (key row) = none)
    (found : t.find k ≠ none) : (t.append row fresh).find k ≠ none := by
  obtain ⟨row', found⟩ := Option.ne_none_iff_exists'.1 found
  rw [find_eq_some_iff] at found
  exact Option.ne_none_iff_exists'.2
    ⟨row', find_eq_some_iff.2 ⟨List.mem_append_left _ found.1, found.2⟩⟩

theorem find_modify_ne_none {k k' : Key} {f : Row → Row} (keeps : ∀ row, key (f row) = key row)
    (found : t.find k ≠ none) : (t.modify k' f keeps).find k ≠ none := by
  obtain ⟨row, found⟩ := Option.ne_none_iff_exists'.1 found
  rw [find_eq_some_iff] at found
  refine Option.ne_none_iff_exists'.2
    ⟨_, find_eq_some_iff.2 ⟨List.mem_map_of_mem found.1, ?_⟩⟩
  split
  · exact (keeps row).trans found.2
  · exact found.2

theorem find_append {k : Key} {row : Row} (fresh : t.find (key row) = none) :
    (t.append row fresh).find k = if key row = k then some row else t.find k := by
  unfold find append at *
  rw [List.find?_append]
  by_cases same : key row = k
  · subst same
    rw [fresh, if_pos rfl]
    simp
  · simp [same]

theorem find_modify {k k' : Key} {f : Row → Row} (keeps : ∀ row, key (f row) = key row) :
    (t.modify k f keeps).find k' = if k' = k then (t.find k').map f else t.find k' := by
  have key_eq : ∀ row, key (if key row = k then f row else row) = key row := by
    intro row
    split
    · exact keeps row
    · rfl
  unfold find modify
  rw [List.find?_map, Function.comp_def]
  simp only [key_eq]
  cases found : t.rows.find? fun row => key row = k' with
  | none => simp
  | some row =>
    have named : key row = k' := by simpa using List.find?_some found
    rw [Option.map_some, named]
    split <;> rfl

end Table
