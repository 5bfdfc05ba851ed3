import Kernexys.Lib.JsonCompare
import Kernexys.Lib.JsonText

/-!
# Canonical JSON text

`json.dumps` without blanks and with sorted keys.  A text determines the document it was written for
(`render_injective`), since numbers end at a delimiter and every other literal ends itself.  Sorting
the keys forgets the order of the fields and nothing else (`sortKeys_eq_iff`), so two dictionaries
have the same text exactly when they are the same (`dumps_eq_iff`).
-/

namespace CanonicalJson

open Json JsonText

/-! ## Numbers -/

/-- The characters of numbers. -/
def isNumeral (c : Char) : Bool := c.isDigit || c ∈ ['-', '+', '.', 'e']

/-- How finite floats are written. -/
structure FloatText where
  write : ℚ → List Char
  injective : Function.Injective write
  numeral : ∀ q, ∀ c ∈ write q, isNumeral c = true
  /-- A float is not written as an integer. -/
  fractional : ∀ q, ∃ c ∈ write q, c = '.' ∨ c = 'e'

/-- `str` of an integer. -/
def intText (n : ℤ) : List Char := n.repr.toList

theorem intText_injective : Function.Injective intText :=
  fun _ _ same => Int.repr_inj.1 (String.toList_inj.1 same)

theorem intText_negSucc (m : ℕ) : intText (Int.negSucc m) = '-' :: m.succ.repr.toList := by
  rw [intText, Int.repr, String.toList_append]
  rfl

theorem intText_ne_nil (n : ℤ) : intText n ≠ [] := by
  cases n with
  | ofNat m => exact fun empty => Nat.repr_ne_empty (String.toList_eq_nil_iff.1 empty)
  | negSucc m => exact intText_negSucc m ▸ List.cons_ne_nil _ _

theorem mem_intText {n : ℤ} {c : Char} (mem : c ∈ intText n) : c.isDigit = true ∨ c = '-' := by
  have digits {m : ℕ} (mem : c ∈ m.repr.toList) : c.isDigit = true := by
    rw [Nat.repr, String.toList_ofList] at mem
    exact Nat.isDigit_of_mem_toDigits (by decide) (by decide) mem
  cases n with
  | ofNat m => exact Or.inl (digits mem)
  | negSucc m =>
    rw [intText_negSucc, List.mem_cons] at mem
    exact mem.symm.imp_left digits

theorem isNumeral_of_mem_intText {n : ℤ} : ∀ c ∈ intText n, isNumeral c = true := by
  intro c mem
  rcases mem_intText mem with digit | rfl
  · rw [isNumeral, digit, Bool.true_or]
  · rfl

theorem FloatText.write_ne_intText (floats : FloatText) (q : ℚ) (n : ℤ) :
    floats.write q ≠ intText n := by
  intro same
  obtain ⟨c, mem, mark⟩ := floats.fractional q
  rw [same] at mem
  rcases mem_intText mem with digit | rfl
  · rcases mark with rfl | rfl <;> exact absurd digit (by decide)
  · exact absurd mark (by decide)

/-- One way to write floats. -/
def codeText : FloatText where
  write q := '.' :: intText (Encodable.encode q)
  injective _ _ same := by
    have codes := intText_injective (List.cons.inj same).2
    exact Encodable.encode_injective (Int.ofNat.inj codes)
  numeral _ c mem := by
    rcases List.mem_cons.1 mem with rfl | digit
    · rfl
    · exact isNumeral_of_mem_intText c digit
  fractional _ := ⟨'.', List.mem_cons_self, Or.inl rfl⟩

/-- A text that cannot continue a number. -/
def Ends (rest : List Char) : Prop := ∀ c ∈ rest.head?, isNumeral c = false

theorem takeWhile_append_of_ends {text rest : List Char} (numeral : ∀ c ∈ text, isNumeral c = true)
    (ends : Ends rest) : (text ++ rest).takeWhile isNumeral = text := by
  have stop : rest.takeWhile isNumeral = [] := by
    cases rest with
    | nil => rfl
    | cons c rest => rw [List.takeWhile_cons, ends c rfl]; rfl
  rw [List.takeWhile_append_of_pos numeral, stop, List.append_nil]

/-- Numbers that are followed by a delimiter can be told from what follows. -/
theorem numeral_append_inj {x y r r' : List Char} (left : ∀ c ∈ x, isNumeral c = true)
    (right : ∀ c ∈ y, isNumeral c = true) (ends : Ends r) (ends' : Ends r')
    (same : x ++ r = y ++ r') : x = y ∧ r = r' := by
  have number : x = y := by
    rw [← takeWhile_append_of_ends left ends, same, takeWhile_append_of_ends right ends']
  exact ⟨number, List.append_cancel_left (number ▸ same)⟩

/-- So can a string literal, whatever follows. -/
theorem quote_append_inj {s t : String} {r r' : List Char} (same : quote s ++ r = quote t ++ r') :
    s = t ∧ r = r' := by
  have read : scanString (escape s.toList ++ '\"' :: r) = scanString (escape t.toList ++ '\"' :: r') :=
    congrArg scanString (by simpa [quote] using same)
  rw [scanString_escape, scanString_escape] at read
  obtain ⟨text, rest⟩ := Prod.mk.inj (Option.some.inj read)
  exact ⟨String.toList_inj.1 text, rest⟩

/-! ## Documents -/

section Render

variable (floats : FloatText)

mutual

/-- The text of a document, its fields in their order. -/
def render : Json → List Char
  | .null => ['n', 'u', 'l', 'l']
  | .bool true => ['t', 'r', 'u', 'e']
  | .bool false => ['f', 'a', 'l', 's', 'e']
  | .int n => intText n
  | .float q => floats.write q
  | .str s => quote s
  | .arr [] => ['[', ']']
  | .arr (value :: items) => '[' :: (render value ++ renderItems items)
  | .obj [] => ['\x7b', '\x7d']
  | .obj ((key, value) :: fields) =>
    '\x7b' :: (quote key ++ ':' :: (render value ++ renderFields fields))

/-- The items after the first, and the closing bracket. -/
def renderItems : List Json → List Char
  | [] => [']']
  | value :: items => ',' :: (render value ++ renderItems items)

/-- The fields after the first, and the closing brace. -/
def renderFields : List (String × Json) → List Char
  | [] => ['\x7d']
  | (key, value) :: fields => ',' :: (quote key ++ ':' :: (render value ++ renderFields fields))

end

/-- The class of a first character: the numbers have one class. -/
def charClass (c : Char) : Char := if isNumeral c then '0' else c

/-- The class of the first character of a document's text. -/
def mark : Json → Char
  | .null => 'n'
  | .bool true => 't'
  | .bool false => 'f'
  | .int _ | .float _ => '0'
  | .str _ => '\"'
  | .arr _ => '['
  | .obj _ => '\x7b'

theorem charClass_of_numeral {text : List Char} (numeral : ∀ c ∈ text, isNumeral c = true)
    (nonempty : text ≠ []) : ∃ c rest, text = c :: rest ∧ charClass c = '0' := by
  obtain ⟨c, rest, rfl⟩ := List.exists_cons_of_ne_nil nonempty
  exact ⟨c, rest, rfl, if_pos (numeral c List.mem_cons_self)⟩

theorem render_head (a : Json) : ∃ c rest, render floats a = c :: rest ∧ charClass c = mark a := by
  cases a with
  | null => exact ⟨_, _, by rw [render], rfl⟩
  | bool b => cases b <;> exact ⟨_, _, by rw [render], rfl⟩
  | int n =>
    rw [render]
    exact charClass_of_numeral isNumeral_of_mem_intText (intText_ne_nil n)
  | float q =>
    rw [render]
    refine charClass_of_numeral (floats.numeral q) fun empty => ?_
    obtain ⟨c, mem, -⟩ := floats.fractional q
    rw [empty] at mem
    cases mem
  | str s => exact ⟨_, _, by rw [render, quote], rfl⟩
  | arr items => cases items <;> exact ⟨_, _, by rw [render], rfl⟩
  | obj fields => cases fields <;> exact ⟨_, _, by rw [render], rfl⟩

theorem mark_of_render_append {a b : Json} {r r' : List Char}
    (same : render floats a ++ r = render floats b ++ r') : mark a = mark b := by
  obtain ⟨c, rest, text, classed⟩ := render_head floats a
  obtain ⟨c', rest', text', classed'⟩ := render_head floats b
  rw [text, text'] at same
  rw [← classed, ← classed', (List.cons.inj same).1]

/-- A text before a delimiter determines its document and where it ends. -/
def Unambiguous (a : Json) : Prop :=
  ∀ b r r', Ends r → Ends r' → render floats a ++ r = render floats b ++ r' → a = b ∧ r = r'

theorem ends_renderItems (items : List Json) (r : List Char) : Ends (renderItems floats items ++ r) := by
  cases items <;> rw [renderItems] <;> rintro c ⟨⟩ <;> rfl

theorem ends_renderFields (fields : Dict) (r : List Char) : Ends (renderFields floats fields ++ r) := by
  rcases fields with _ | ⟨⟨key, value⟩, fields⟩ <;> rw [renderFields] <;> rintro c ⟨⟩ <;> rfl

variable {floats}

theorem renderItems_append_inj {items : List Json} (ih : ∀ a ∈ items, Unambiguous floats a)
    {items' : List Json} {r r' : List Char}
    (same : renderItems floats items ++ r = renderItems floats items' ++ r') :
    items = items' ∧ r = r' := by
  induction items generalizing items' with
  | nil =>
    cases items' with
    | nil =>
      rw [renderItems] at same
      exact ⟨rfl, (List.cons.inj same).2⟩
    | cons b items' =>
      rw [renderItems, renderItems] at same
      exact absurd (List.cons.inj same).1 (by decide)
  | cons a items next =>
    cases items' with
    | nil =>
      rw [renderItems, renderItems] at same
      exact absurd (List.cons.inj same).1 (by decide)
    | cons b items' =>
      rw [renderItems, renderItems, List.cons_append, List.cons_append, List.append_assoc,
        List.append_assoc] at same
      obtain ⟨rfl, tail⟩ := ih a List.mem_cons_self b _ _ (ends_renderItems floats _ _)
        (ends_renderItems floats _ _) (List.cons.inj same).2
      obtain ⟨rfl, rest⟩ := next (fun a mem => ih a (List.mem_cons_of_mem _ mem)) tail
      exact ⟨rfl, rest⟩

/-- A field before the rest of its object determines its key, its value and the rest. -/
theorem field_append_inj {key key' : String} {value value' : Json} {r r' : List Char}
    (unambiguous : Unambiguous floats value) (ends : Ends r) (ends' : Ends r')
    (same : quote key ++ ':' :: (render floats value ++ r) =
      quote key' ++ ':' :: (render floats value' ++ r')) : key = key' ∧ value = value' ∧ r = r' := by
  obtain ⟨keys, tail⟩ := quote_append_inj same
  exact ⟨keys, unambiguous _ _ _ ends ends' (List.cons.inj tail).2⟩

theorem renderFields_append_inj {fields : Dict} (ih : ∀ entry ∈ fields, Unambiguous floats entry.2)
    {fields' : Dict} {r r' : List Char}
    (same : renderFields floats fields ++ r = renderFields floats fields' ++ r') :
    fields = fields' ∧ r = r' := by
  induction fields generalizing fields' with
  | nil =>
    cases fields' with
    | nil =>
      rw [renderFields] at same
      exact ⟨rfl, (List.cons.inj same).2⟩
    | cons entry' fields' =>
      rw [renderFields, renderFields] at same
      exact absurd (List.cons.inj same).1 (by decide)
  | cons entry fields next =>
    obtain ⟨key, value⟩ := entry
    cases fields' with
    | nil =>
      rw [renderFields, renderFields] at same
      exact absurd (List.cons.inj same).1 (by decide)
    | cons entry' fields' =>
      obtain ⟨key', value'⟩ := entry'
      rw [renderFields, renderFields] at same
      simp only [List.cons_append, List.append_assoc] at same
      obtain ⟨rfl, rfl, tail⟩ := field_append_inj (ih (key, value) List.mem_cons_self)
        (ends_renderFields floats _ _) (ends_renderFields floats _ _) (List.cons.inj same).2
      obtain ⟨rfl, rest⟩ := next (fun entry mem => ih entry (List.mem_cons_of_mem _ mem)) tail
      exact ⟨rfl, rest⟩

theorem mark_eq_bracket {b : Json} (marked : mark b = '[') : ∃ items, b = .arr items := by
  rcases b with _ | (_ | _) | _ | _ | _ | items | _
  case arr => exact ⟨items, rfl⟩
  all_goals simp [mark] at marked

theorem mark_eq_brace {b : Json} (marked : mark b = '\x7b') : ∃ fields, b = .obj fields := by
  rcases b with _ | (_ | _) | _ | _ | _ | _ | fields
  case obj => exact ⟨fields, rfl⟩
  all_goals simp [mark] at marked

theorem mark_eq_quote {b : Json} (marked : mark b = '\"') : ∃ s, b = .str s := by
  rcases b with _ | (_ | _) | _ | _ | s | _ | _
  case str => exact ⟨s, rfl⟩
  all_goals simp [mark] at marked

theorem mark_eq_zero {b : Json} (marked : mark b = '0') :
    (∃ n, b = .int n) ∨ ∃ q, b = .float q := by
  rcases b with _ | (_ | _) | n | q | _ | _ | _
  case int => exact Or.inl ⟨n, rfl⟩
  case float => exact Or.inr ⟨q, rfl⟩
  all_goals simp [mark] at marked

theorem mark_eq_letter {a b : Json} (letter : mark a ∈ ['n', 't', 'f']) (same : mark a = mark b) :
    a = b := by
  rcases a with _ | (_ | _) | _ | _ | _ | _ | _ <;>
  rcases b with _ | (_ | _) | _ | _ | _ | _ | _ <;>
  first | rfl | simp [mark] at letter same

theorem unambiguous_of_letter {a : Json} (letter : mark a ∈ ['n', 't', 'f']) :
    Unambiguous floats a := by
  intro b r r' _ _ same
  obtain rfl := mark_eq_letter letter (mark_of_render_append floats same)
  exact ⟨rfl, List.append_cancel_left same⟩

theorem unambiguous_int (n : ℤ) : Unambiguous floats (.int n) := by
  intro b r r' ends ends' same
  rcases mark_eq_zero (mark_of_render_append floats same).symm with ⟨m, rfl⟩ | ⟨q, rfl⟩
  · rw [render, render] at same
    obtain ⟨number, rest⟩ := numeral_append_inj isNumeral_of_mem_intText isNumeral_of_mem_intText
      ends ends' same
    exact ⟨congrArg Json.int (intText_injective number), rest⟩
  · rw [render, render] at same
    have number := (numeral_append_inj isNumeral_of_mem_intText (floats.numeral q) ends ends' same).1
    exact absurd number.symm (floats.write_ne_intText q n)

theorem unambiguous_float (q : ℚ) : Unambiguous floats (.float q) := by
  intro b r r' ends ends' same
  rcases mark_eq_zero (mark_of_render_append floats same).symm with ⟨n, rfl⟩ | ⟨q', rfl⟩
  · rw [render, render] at same
    have number := (numeral_append_inj (floats.numeral q) isNumeral_of_mem_intText ends ends' same).1
    exact absurd number (floats.write_ne_intText q n)
  · rw [render, render] at same
    obtain ⟨number, rest⟩ := numeral_append_inj (floats.numeral q) (floats.numeral q') ends ends' same
    exact ⟨congrArg Json.float (floats.injective number), rest⟩

theorem unambiguous_str (s : String) : Unambiguous floats (.str s) := by
  intro b r r' _ _ same
  obtain ⟨t, rfl⟩ := mark_eq_quote (mark_of_render_append floats same).symm
  rw [render, render] at same
  obtain ⟨text, rest⟩ := quote_append_inj same
  exact ⟨congrArg Json.str text, rest⟩

/-- The first item of an array does not start as the empty array ends. -/
theorem render_append_ne_bracket (a : Json) (r r' : List Char) :
    render floats a ++ r ≠ ']' :: r' := by
  intro same
  obtain ⟨c, rest, text, classed⟩ := render_head floats a
  rw [text] at same
  have close : charClass ']' = ']' := by decide
  rw [(List.cons.inj same).1, close] at classed
  rcases a with _ | (_ | _) | _ | _ | _ | _ | _ <;> simp [mark] at classed

theorem unambiguous_arr {items : List Json} (ih : ∀ a ∈ items, Unambiguous floats a) :
    Unambiguous floats (.arr items) := by
  intro b r r' _ _ same
  obtain ⟨items', rfl⟩ := mark_eq_bracket (mark_of_render_append floats same).symm
  suffices items = items' ∧ r = r' by rwa [Json.arr.injEq]
  cases items with
  | nil =>
    cases items' with
    | nil => simpa [render] using same
    | cons b items' =>
      simp only [render, List.cons_append, List.append_assoc, List.cons.injEq, true_and] at same
      exact absurd same.symm (render_append_ne_bracket b _ _)
  | cons a items =>
    cases items' with
    | nil =>
      simp only [render, List.cons_append, List.append_assoc, List.cons.injEq, true_and] at same
      exact absurd same (render_append_ne_bracket a _ _)
    | cons b items' =>
      refine renderItems_append_inj ih ?_
      simpa [render, renderItems] using same

theorem unambiguous_obj {fields : Dict} (ih : ∀ entry ∈ fields, Unambiguous floats entry.2) :
    Unambiguous floats (.obj fields) := by
  intro b r r' _ _ same
  obtain ⟨fields', rfl⟩ := mark_eq_brace (mark_of_render_append floats same).symm
  suffices fields = fields' ∧ r = r' by rwa [Json.obj.injEq]
  cases fields with
  | nil =>
    cases fields' with
    | nil => simpa [render] using same
    | cons entry' fields' => simp [render, quote] at same
  | cons entry fields =>
    cases fields' with
    | nil => simp [render, quote] at same
    | cons entry' fields' =>
      refine renderFields_append_inj ih ?_
      simpa [render, renderFields] using same

theorem unambiguous (a : Json) : Unambiguous floats a := by
  induction a using Json.ind with
  | null => exact unambiguous_of_letter (by simp [mark])
  | bool b => exact unambiguous_of_letter (by cases b <;> simp [mark])
  | int n => exact unambiguous_int n
  | float q => exact unambiguous_float q
  | str s => exact unambiguous_str s
  | arr items ih => exact unambiguous_arr ih
  | obj fields ih => exact unambiguous_obj ih

theorem render_injective : Function.Injective (render floats) := by
  intro a b same
  have ends : Ends [] := fun c none => by cases none
  exact (unambiguous a b [] [] ends ends (congrArg (· ++ []) same)).1

end Render

/-! ## Sorted keys -/

/-- The order of `sort_keys`. -/
abbrev keyOrder : String × Json → String × Json → Prop := Order.Preimage Prod.fst (· ≤ ·)

mutual

/-- The document with the fields of every object sorted. -/
def sortKeys : Json → Json
  | .arr items => .arr (sortItems items)
  | .obj fields => .obj ((sortFields fields).insertionSort keyOrder)
  | value => value

/-- The items, each with its fields sorted. -/
def sortItems : List Json → List Json
  | [] => []
  | value :: items => sortKeys value :: sortItems items

/-- The fields, each value with its fields sorted. -/
def sortFields : List (String × Json) → List (String × Json)
  | [] => []
  | (key, value) :: fields => (key, sortKeys value) :: sortFields fields

end

theorem sortItems_eq_map (items : List Json) : sortItems items = items.map sortKeys := by
  induction items with
  | nil => rfl
  | cons value items ih => rw [sortItems, ih, List.map_cons]

theorem sortFields_eq_map (fields : Dict) :
    sortFields fields = fields.map fun entry => (entry.1, sortKeys entry.2) := by
  induction fields with
  | nil => rfl
  | cons entry fields ih => rw [sortFields, ih, List.map_cons]

/-- Sorting lists with distinct keys forgets their order and nothing else. -/
theorem insertionSort_eq_iff {fields fields' : Dict} (distinct : (fields.map Prod.fst).Nodup) :
    fields.insertionSort keyOrder = fields'.insertionSort keyOrder ↔ fields.Perm fields' := by
  have perm := List.perm_insertionSort keyOrder fields
  have perm' := List.perm_insertionSort keyOrder fields'
  constructor
  · intro same
    exact perm.symm.trans (same ▸ perm')
  · intro shuffled
    refine List.Perm.eq_of_pairwise ?_ (List.pairwise_insertionSort keyOrder fields)
      (List.pairwise_insertionSort keyOrder fields') (perm.trans (shuffled.trans perm'.symm))
    intro entry entry' mem mem' le ge
    have keys : entry.1 = entry'.1 := le_antisymm le ge
    have value := Dict.lookup_of_mem distinct (perm.mem_iff.1 mem)
    have value' := Dict.lookup_of_mem distinct (shuffled.mem_iff.2 (perm'.mem_iff.1 mem'))
    rw [keys, value'] at value
    exact Prod.ext keys (Option.some.inj value).symm

/-- Lists with distinct keys are permutations of each other when one contains the other and they
have the same length. -/
theorem perm_iff_of_distinct {fields fields' : Dict} (distinct : (fields.map Prod.fst).Nodup) :
    fields.Perm fields' ↔ fields.length = fields'.length ∧ fields ⊆ fields' := by
  constructor
  · exact fun shuffled => ⟨shuffled.length_eq, shuffled.subset⟩
  · rintro ⟨length, subset⟩
    exact (List.subperm_of_subset distinct.of_map subset).perm_of_length_le length.ge

/-- The scalars are of one kind and equal; integers and floats are two kinds. -/
def identical : Json → Json → Bool
  | .null, .null => true
  | .bool b, .bool b' => b == b'
  | .int n, .int n' => n == n'
  | .float q, .float q' => q == q'
  | .str s, .str s' => s == s'
  | _, _ => false

theorem sortKeys_arr_eq_iff {items items' : List Json}
    (ih : ∀ a ∈ items, ∀ b ∈ items', sortKeys a = sortKeys b ↔ a.agree identical b = true) :
    sortKeys (.arr items) = sortKeys (.arr items') ↔
      (Json.arr items).agree identical (.arr items') = true := by
  rw [sortKeys, sortKeys, Json.arr.injEq, sortItems_eq_map, sortItems_eq_map, agree_arr]
  induction items generalizing items' with
  | nil => cases items' <;> simp
  | cons a items next =>
    cases items' with
    | nil => simp
    | cons b items' =>
      rw [List.map_cons, List.map_cons, List.cons.injEq, List.forall₂_cons,
        ih a List.mem_cons_self b List.mem_cons_self,
        next fun a mem b mem' => ih a (List.mem_cons_of_mem _ mem) b (List.mem_cons_of_mem _ mem')]

theorem map_fst_sortFields (fields : Dict) : (sortFields fields).map Prod.fst = fields.map Prod.fst := by
  rw [sortFields_eq_map, List.map_map]
  rfl

theorem sortKeys_obj_eq_iff {fields fields' : Dict} (keys : (fields.map Prod.fst).Nodup)
    (keys' : (fields'.map Prod.fst).Nodup) (ih : ∀ entry ∈ fields, ∀ entry' ∈ fields',
      sortKeys entry.2 = sortKeys entry'.2 ↔ entry.2.agree identical entry'.2 = true) :
    sortKeys (.obj fields) = sortKeys (.obj fields') ↔
      (Json.obj fields).agree identical (.obj fields') = true := by
  have keysSorted : ((sortFields fields).map Prod.fst).Nodup := by rwa [map_fst_sortFields]
  rw [sortKeys, sortKeys, Json.obj.injEq, insertionSort_eq_iff keysSorted,
    perm_iff_of_distinct keysSorted, sortFields_eq_map, sortFields_eq_map, List.length_map,
    List.length_map, agree_obj]
  refine and_congr_right' ⟨fun subset entry mem => ?_, fun found => ?_⟩
  · obtain ⟨entry', mem', same⟩ := List.mem_map.1 (subset (List.mem_map_of_mem mem))
    obtain ⟨key, value⟩ := Prod.mk.inj same
    refine ⟨entry'.2, ?_, (ih entry mem entry' mem').1 value.symm⟩
    rw [← key]
    exact Dict.lookup_of_mem keys' mem'
  · intro sorted sortedMem
    obtain ⟨entry, mem, rfl⟩ := List.mem_map.1 sortedMem
    obtain ⟨value', stored, agrees⟩ := found entry mem
    have mem' := Dict.mem_of_lookup stored
    refine List.mem_map.2 ⟨_, mem', ?_⟩
    rw [(ih entry mem _ mem').2 agrees]

/-- Sorting the keys identifies the documents that are the same up to the order of fields. -/
theorem sortKeys_eq_iff {a b : Json} (distinct : a.distinct = true) (distinct' : b.distinct = true) :
    sortKeys a = sortKeys b ↔ a.agree identical b = true := by
  induction a using Json.ind generalizing b with
  | null | bool | int | float | str => cases b <;> simp [sortKeys, agree, identical]
  | arr items ih =>
    cases b with
    | arr items' =>
      exact sortKeys_arr_eq_iff fun a mem b mem' =>
        ih a mem (distinct_arr.1 distinct a mem) (distinct_arr.1 distinct' b mem')
    | _ => simp [sortKeys, agree]
  | obj fields ih =>
    cases b with
    | obj fields' =>
      obtain ⟨keys, values⟩ := distinct_obj.1 distinct
      obtain ⟨keys', values'⟩ := distinct_obj.1 distinct'
      exact sortKeys_obj_eq_iff keys keys' fun entry mem entry' mem' =>
        ih entry mem (values entry mem) (values' entry' mem')
    | _ => simp [sortKeys, agree]

/-! ## Canonical text -/

/-- `json.dumps(value, separators=(",", ":"), sort_keys=True)`. -/
def dumps (floats : FloatText) (value : Json) : String := String.ofList (render floats (sortKeys value))

theorem dumps_eq_iff (floats : FloatText) {a b : Json} (distinct : a.distinct = true)
    (distinct' : b.distinct = true) : dumps floats a = dumps floats b ↔ a.agree identical b = true := by
  rw [dumps, dumps, String.ofList_inj, render_injective.eq_iff, sortKeys_eq_iff distinct distinct']

/-! ### Dictionaries of texts -/

/-- A dictionary whose values are texts. -/
def texts (entries : List (String × String)) : Json :=
  .obj (entries.map fun entry => (entry.1, .str entry.2))

theorem distinct_texts {entries : List (String × String)} (keys : (entries.map Prod.fst).Nodup) :
    (texts entries).distinct = true := by
  refine distinct_obj.2 ⟨?_, fun entry mem => ?_⟩
  · rw [List.map_map]
    exact keys
  · obtain ⟨entry, -, rfl⟩ := List.mem_map.1 mem
    rfl

/-- Of texts, Python's equality is the same. -/
theorem agree_texts (entries : List (String × String)) (b : Json) :
    (texts entries).agree identical b = (texts entries).eq b := by
  have scalar (s : String) (b : Json) :
      (Json.str s).agree identical b = (Json.str s).agree pythonSame b := by
    cases b <;> rfl
  rw [eq_eq_agree, texts]
  cases b with
  | obj fields =>
    rw [Bool.eq_iff_iff, agree_obj, agree_obj]
    simp only [List.mem_map, forall_exists_index, and_imp, forall_apply_eq_imp_iff₂, scalar]
  | _ => rfl

theorem sortKeys_texts {entries : List (String × String)}
    (sorted : entries.Pairwise fun e e' => e.1 ≤ e'.1) : sortKeys (texts entries) = texts entries := by
  have fields : sortFields (entries.map fun entry => (entry.1, Json.str entry.2)) =
      entries.map fun entry => (entry.1, Json.str entry.2) := by
    rw [sortFields_eq_map, List.map_map]
    rfl
  rw [texts, sortKeys, fields, List.Pairwise.insertionSort_eq]
  exact List.pairwise_map.2 sorted

theorem renderFields_texts (floats : FloatText) (entries : List (String × String)) :
    renderFields floats (entries.map fun entry => (entry.1, Json.str entry.2)) =
      dumpsFields 0 entries ++ ['\x7d'] := by
  induction entries with
  | nil => rw [List.map_nil, renderFields, dumpsFields, List.nil_append]
  | cons entry entries ih =>
    rw [List.map_cons, renderFields, render, ih, dumpsFields, dumpsField]
    simp

theorem dumps_texts (floats : FloatText) {entries : List (String × String)}
    (sorted : entries.Pairwise fun e e' => e.1 ≤ e'.1) :
    dumps floats (texts entries) = dumpsTexts 0 entries := by
  rw [dumps, sortKeys_texts sorted, texts]
  cases entries with
  | nil =>
    rw [List.map_nil, render]
    rfl
  | cons entry entries =>
    rw [List.map_cons, render, render, renderFields_texts, dumpsTexts, dumpsField]
    simp

end CanonicalJson
