import Kernexys.Inference.Request
import Kernexys.Lib.Runs

/-!
# The classifier of the runtime

`predict` takes `math.exp` of a sum over the tokens of a text, and `math.exp` overflows above
709.78.  A text of the admitted length can hold enough negative words for that; `serves_iff` gives,
for each baked version, the lengths at which no text does.  Weights and biases are counted in
tenths, and the sum is exact.
-/

namespace Kernexys.Inference

/-! ## The Python library -/

/-- `str.lower` by characters.  Two characters beyond ASCII have a lower-case form with an ASCII
letter; the two forms of the final sigma are both beyond ASCII. -/
structure CaseMap where
  lower : Char → List Char
  ascii : ∀ c : Char, c.toNat < 128 → lower c = [c.toLower]
  kelvin : lower (Char.ofNat 0x212a) = ['k']
  dotted : lower (Char.ofNat 0x130) = ['i', Char.ofNat 0x307]
  other : ∀ c : Char, 128 ≤ c.toNat → c.toNat ≠ 0x212a → c.toNat ≠ 0x130 →
    ∃ d, lower c = [d] ∧ 128 ≤ d.toNat

/-- `math.exp`, which raises OverflowError from somewhere between 709 and 710 on. -/
structure Exponential where
  exp : ℚ → Option ℚ
  nonneg : ∀ x y, exp x = some y → 0 ≤ y
  defined : ∀ x ≤ 709, ∃ y, exp x = some y
  overflow : ∀ x, 710 ≤ x → exp x = none

/-- `round` to six digits, half to even. -/
def roundSix (q : ℚ) : ℚ :=
  let floor := ⌊q * 10 ^ 6⌋
  let rest := q * 10 ^ 6 - floor
  let nearest := if rest < 1 / 2 ∨ rest = 1 / 2 ∧ Even floor then floor else floor + 1
  nearest / 10 ^ 6

/-! ## The classifier -/

/-- The versions of `_VERSIONED_WEIGHTS`. -/
inductive BakedVersion where
  | v1
  | v2
  deriving DecidableEq

namespace BakedVersion

/-- The bias of a version, in tenths. -/
def bias : BakedVersion → ℤ
  | v1 => -2
  | v2 => -1

/-- The weights of a version, in tenths. -/
def weights : BakedVersion → List (String × ℤ)
  | v1 => [("excellent", 18), ("good", 12), ("great", 16), ("happy", 11), ("love", 18),
      ("bad", -13), ("hate", -18), ("poor", -12), ("sad", -10), ("terrible", -19)]
  | v2 => [("excellent", 17), ("fast", 8), ("good", 11), ("great", 15), ("happy", 10), ("love", 17),
      ("reliable", 10), ("stable", 9), ("bad", -12), ("flaky", -12), ("hate", -17), ("poor", -11),
      ("sad", -9), ("slow", -8), ("terrible", -18)]

/-- The weight of a token, which is 0 for any other. -/
def weight (version : BakedVersion) (token : String) : ℤ := (version.weights.lookup token).getD 0

end BakedVersion

/-- The characters of `_TOKEN_PATTERN`: lower-case letters and the apostrophe. -/
def tokenChar (c : Char) : Bool := c.isLower || c.toNat == 39

/-- The labels of a prediction. -/
inductive Label where
  | positive
  | negative
  deriving DecidableEq

/-- `Prediction`: a label with a confidence. -/
structure Prediction where
  label : Label
  confidence : ℚ

section Classifier

variable (math : Exponential) (casing : CaseMap) (version : BakedVersion)

/-- `_TOKEN_PATTERN.findall(text.lower())`. -/
def tokens (text : String) : List String :=
  (Runs.runs tokenChar (text.toList.flatMap casing.lower)).map String.ofList

/-- `raw_score`, in tenths. -/
def rawScore (text : String) : ℤ := version.bias + ((tokens casing text).map version.weight).sum

/-- The argument of `math.exp`. -/
def argument (text : String) : ℚ := -(rawScore casing version text / 10)

/-- `predict`, or nothing for an OverflowError. -/
def predict (text : String) : Option Prediction :=
  (math.exp (argument casing version text)).map fun exp =>
    let positiveProbability := 1 / (1 + exp)
    if 1 / 2 ≤ positiveProbability then ⟨.positive, roundSix positiveProbability⟩
    else ⟨.negative, roundSix (1 - positiveProbability)⟩

/-- Every admitted text of this length gets a prediction, with an argument that does not exceed
709. -/
def Serves (n : ℕ) : Prop :=
  ∀ text stripped, boundedText text = some stripped → stripped.length = n →
    argument casing version stripped ≤ 709 ∧
      ∃ prediction, predict math casing version stripped = some prediction

end Classifier

/-! ## How much a text can subtract -/

namespace BakedVersion

variable (version : BakedVersion)

/-- What a word subtracts from the score. -/
def loss (word : List Char) : ℤ := -version.weight (String.ofList word)

/-- The loss of `hate`, which no word exceeds for its length. -/
def densest : BakedVersion → ℤ
  | v1 => 18
  | v2 => 17

/-- What two or three times `bad` subtract more than `hate` in what is left. -/
def surplus : BakedVersion → ℕ → ℤ
  | v1, 2 => 3
  | v1, 3 => 8
  | v1, 4 => 13
  | v2, 2 => 2
  | v2, 3 => 7
  | v2, 4 => 12
  | _, _ => 0

/-- The most that words can subtract within `n` characters, each with one character after it. -/
def packing (n : ℕ) : ℤ := version.densest * (n / 5 : ℕ) + version.surplus (n % 5)

/-- The greatest length at which no text overflows. -/
def limit : BakedVersion → ℕ
  | v1 => 1968
  | v2 => 2085

theorem packing_add (q n : ℕ) :
    version.packing (5 * q + n) = version.densest * q + version.packing n := by
  rw [packing, packing, Nat.mul_add_div (by decide), Nat.mul_add_mod]
  push_cast
  ring

/-- A bound on differences of `packing` needs to be checked for the remainders only. -/
theorem packing_of_remainders {version : BakedVersion} {a : ℤ} {k : ℕ}
    (checked : ∀ r < 5, a + version.packing r ≤ version.packing (r + k)) (n : ℕ) :
    a + version.packing n ≤ version.packing (n + k) := by
  have here := checked (n % 5) (Nat.mod_lt n (by decide))
  have low := version.packing_add (n / 5) (n % 5)
  have high := version.packing_add (n / 5) (n % 5 + k)
  rw [Nat.div_add_mod] at low
  rw [← add_assoc, Nat.div_add_mod] at high
  rw [low, high]
  linarith

theorem packing_mono : Monotone version.packing := by
  refine monotone_nat_of_le_succ fun n => ?_
  have grows : ∀ r < 5, 0 + version.packing r ≤ version.packing (r + 1) := by
    cases version <;> decide
  simpa using packing_of_remainders grows n

/-- Every word of the vocabulary fits into the packing. -/
theorem entry_fits : ∀ entry ∈ version.weights, ∀ r < 5,
    -entry.2 + version.packing r ≤ version.packing (r + (entry.1.length + 1)) := by
  cases version <;> decide

theorem loss_cases (word : List Char) :
    version.loss word = 0 ∨ ∃ entry ∈ version.weights, entry.1.toList = word ∧
      version.loss word = -entry.2 := by
  unfold loss weight
  cases found : version.weights.lookup (String.ofList word) with
  | none => exact Or.inl rfl
  | some w =>
    refine Or.inr ⟨(String.ofList word, w), Dict.mem_of_lookup found, ?_, rfl⟩
    exact String.toList_ofList

theorem potential : Runs.Potential version.loss version.packing where
  empty := by cases version <;> decide
  zero := by cases version <;> decide
  mono := version.packing_mono
  run word n := by
    rcases version.loss_cases word with nothing | ⟨entry, mem, rfl, eq⟩
    · rw [nothing, zero_add]
      exact version.packing_mono (by omega)
    · rw [eq, add_assoc, String.length_toList]
      exact packing_of_remainders (version.entry_fits entry mem) n

/-- No negative word ends with an `i`. -/
theorem loss_ending (word : List Char) : version.loss (word ++ ['i']) ≤ 0 := by
  have endings : ∀ entry ∈ version.weights, entry.1.toList.getLast? ≠ some 'i' := by
    cases version <;> decide
  rcases version.loss_cases (word ++ ['i']) with nothing | ⟨entry, mem, eq, -⟩
  · exact nothing.le
  · exact absurd (by rw [eq, List.getLast?_concat]) (endings entry mem)

end BakedVersion

/-! ## Texts of bounded length -/

section Bound

variable (math : Exponential) (casing : CaseMap) (version : BakedVersion)

/-- Every character is lowered to one, apart from the dotted capital, which ends a token. -/
theorem writes_lower (c : Char) : Runs.Writes tokenChar version.loss (casing.lower c) := by
  by_cases ascii : c.toNat < 128
  · rw [casing.ascii c ascii]
    exact .one _
  · by_cases kelvin : c.toNat = 0x212a
    · rw [← Char.ofNat_toNat c, kelvin, casing.kelvin]
      exact .one _
    · by_cases dotted : c.toNat = 0x130
      · rw [← Char.ofNat_toNat c, dotted, casing.dotted]
        exact .ending _ _ (by decide) (by decide) version.loss_ending
      · obtain ⟨d, eq, -⟩ := casing.other c (by omega) kelvin dotted
        rw [eq]
        exact .one d

theorem neg_rawScore (text : String) : -rawScore casing version text = -version.bias +
    Runs.total tokenChar version.loss [] (text.toList.flatMap casing.lower) := by
  rw [rawScore, neg_add, List.sum_neg, tokens, List.map_map, List.map_map]
  rfl

/-- What a text subtracts is bounded by its length. -/
theorem neg_rawScore_le (text : String) :
    -rawScore casing version text ≤ -version.bias + version.packing (text.length + 1) := by
  rw [neg_rawScore, ← String.length_toList]
  exact add_le_add_right (version.potential.sum_runs_le (writes_lower casing version) text.toList) _

theorem argument_le_iff (text : String) :
    argument casing version text ≤ 709 ↔ -rawScore casing version text ≤ 7090 := by
  rw [argument, ← neg_div, div_le_iff₀ (by norm_num)]
  norm_num
  exact_mod_cast Iff.rfl

/-- No text within the limit overflows. -/
theorem argument_le_of_limit (text : String) (short : text.length ≤ version.limit) :
    argument casing version text ≤ 709 := by
  rw [argument_le_iff]
  have full : -version.bias + version.packing (version.limit + 1) ≤ 7090 := by
    cases version <;> decide
  have grows := version.packing_mono (Nat.succ_le_succ short)
  have bounded := neg_rawScore_le casing version text
  simp only [Nat.succ_eq_add_one] at grows
  omega

/-! ## Texts that overflow -/

/-- Words with an exclamation mark after each but the last, and more of them at the end. -/
def sentence (words : List String) (last : String) (pad : ℕ) : String :=
  String.ofList ((words.map String.toList).flatMap (· ++ ['!']) ++
    (last.toList ++ List.replicate pad '!'))

/-- A word of lower-case letters. -/
def isWord (word : String) : Bool := word.toList.all Char.isLower

theorem length_sentence (words : List String) (last : String) (pad : ℕ) :
    (sentence words last pad).length =
      (words.map fun word => word.length + 1).sum + last.length + pad := by
  induction words with
  | nil => simp [sentence]
  | cons word words ih =>
    simp only [sentence, String.length_ofList, List.map_cons, List.flatMap_cons, List.length_append,
      List.length_cons, List.length_nil, String.length_toList, List.length_replicate,
      List.sum_cons] at ih ⊢
    omega

theorem mem_sentence {words : List String} {last : String} {pad : ℕ}
    (plain : ∀ word ∈ last :: words, isWord word = true) {c : Char}
    (mem : c ∈ (sentence words last pad).toList) : c = '!' ∨ c.isLower = true := by
  obtain ⟨plainLast, plainWords⟩ := List.forall_mem_cons.1 plain
  rw [sentence, String.toList_ofList, List.mem_append, List.mem_append] at mem
  rcases mem with inWords | inLast | inPad
  · obtain ⟨word, inWords, inWord⟩ := List.mem_flatMap.1 inWords
    obtain ⟨text, listed, rfl⟩ := List.mem_map.1 inWords
    rcases List.mem_append.1 inWord with letter | mark
    · exact Or.inr (List.all_eq_true.1 (plainWords text listed) c letter)
    · exact Or.inl (List.mem_singleton.1 mark)
  · exact Or.inr (List.all_eq_true.1 plainLast c inLast)
  · exact Or.inl (List.eq_of_mem_replicate inPad)

theorem toNat_of_isLower {c : Char} (lower : c.isLower = true) : 97 ≤ c.toNat ∧ c.toNat ≤ 122 := by
  rw [Char.isLower, Bool.and_eq_true, decide_eq_true_eq, decide_eq_true_eq] at lower
  exact lower

theorem tokenChar_of_isLower {c : Char} (lower : c.isLower = true) : tokenChar c = true := by
  rw [tokenChar, lower, Bool.true_or]

theorem lower_of_plain {c : Char} (plain : c = '!' ∨ c.isLower = true) : casing.lower c = [c] := by
  rcases plain with rfl | lower
  · rw [casing.ascii _ (by decide)]
    rfl
  · obtain ⟨low, high⟩ := toNat_of_isLower lower
    rw [casing.ascii c (by omega), Char.toLower, dif_neg]
    rintro ⟨-, upper⟩
    have upper : c.toNat ≤ 90 := upper
    omega

theorem flatMap_lower_sentence {words : List String} {last : String} {pad : ℕ}
    (plain : ∀ word ∈ last :: words, isWord word = true) :
    (sentence words last pad).toList.flatMap casing.lower = (sentence words last pad).toList := by
  have single : ∀ c ∈ (sentence words last pad).toList, casing.lower c = [c] :=
    fun c mem => lower_of_plain casing (mem_sentence plain mem)
  rw [List.flatMap_congr single, List.flatMap_singleton']

theorem boundedText_sentence {words : List String} {last : String} {pad : ℕ}
    (plain : ∀ word ∈ last :: words, isWord word = true)
    (admitted : 1 ≤ (sentence words last pad).length ∧ (sentence words last pad).length ≤ 4096) :
    boundedText (sentence words last pad) = some (sentence words last pad) := by
  have visible : ∀ c ∈ (sentence words last pad).toList, Text.whiteSpace c = false := by
    intro c mem
    rcases mem_sentence plain mem with rfl | lower
    · rfl
    · obtain ⟨low, high⟩ := toNat_of_isLower lower
      simp [Text.whiteSpace]
      omega
  rw [boundedText, Text.strip_eq_self_of_all visible, if_pos admitted]

theorem neg_rawScore_sentence {words : List String} {last : String} {pad : ℕ}
    (plain : ∀ word ∈ last :: words, isWord word = true) :
    -rawScore casing version (sentence words last pad) =
      -version.bias - ((last :: words).map version.weight).sum := by
  obtain ⟨plainLast, plainWords⟩ := List.forall_mem_cons.1 plain
  rw [neg_rawScore, flatMap_lower_sentence casing plain, sentence, String.toList_ofList,
    Runs.total_separated (by decide) version.potential.empty, Runs.total_append,
    Runs.total_replicate (by decide) version.potential.empty, List.nil_append]
  · have losses : ∀ text : String, version.loss text.toList = -version.weight text := by
      intro text
      rw [BakedVersion.loss, String.ofList_toList]
    have sums : (((words.map String.toList).map version.loss).sum : ℤ) =
        -(words.map version.weight).sum := by
      rw [List.sum_neg, List.map_map, List.map_map]
      exact congrArg List.sum (List.map_congr_left fun text _ => losses text)
    rw [sums, losses, List.map_cons, List.sum_cons]
    ring
  · exact fun c mem => tokenChar_of_isLower (List.all_eq_true.1 plainLast c mem)
  · rintro word inWords c mem
    obtain ⟨text, listed, rfl⟩ := List.mem_map.1 inWords
    exact tokenChar_of_isLower (List.all_eq_true.1 (plainWords text listed) c mem)

/-- A sentence of these numbers of `bad` and of `hate`, and one more `hate`. -/
def heavySentence (bad hate pad : ℕ) : String :=
  sentence (List.replicate bad "bad" ++ List.replicate hate "hate") "hate" pad

variable (bad hate pad : ℕ)

theorem heavy_isWord :
    ∀ word ∈ "hate" :: (List.replicate bad "bad" ++ List.replicate hate "hate"),
      isWord word = true := by
  intro word mem
  rw [List.mem_cons, List.mem_append] at mem
  rcases mem with rfl | isBad | isHate
  · decide
  · rw [List.eq_of_mem_replicate isBad]
    decide
  · rw [List.eq_of_mem_replicate isHate]
    decide

theorem length_heavySentence :
    (heavySentence bad hate pad).length = 4 * bad + 5 * hate + 4 + pad := by
  rw [heavySentence, length_sentence, List.map_append, List.map_replicate, List.map_replicate,
    List.sum_append, List.sum_replicate, List.sum_replicate, smul_eq_mul, smul_eq_mul,
    show "bad".length = 3 from rfl, show "hate".length = 4 from rfl]
  ring

theorem neg_rawScore_heavySentence :
    -rawScore casing version (heavySentence bad hate pad) =
      -version.bias - bad * version.weight "bad" - (hate + 1) * version.weight "hate" := by
  rw [heavySentence, neg_rawScore_sentence casing version (heavy_isWord bad hate), List.map_cons,
    List.map_append, List.map_replicate, List.map_replicate, List.sum_cons, List.sum_append,
    List.sum_replicate, List.sum_replicate, nsmul_eq_mul, nsmul_eq_mul]
  ring

theorem boundedText_heavySentence (admitted : 4 * bad + 5 * hate + 4 + pad ≤ 4096) :
    boundedText (heavySentence bad hate pad) = some (heavySentence bad hate pad) := by
  have length := length_heavySentence bad hate pad
  refine boundedText_sentence (heavy_isWord bad hate) ?_
  rw [heavySentence] at length
  omega

/-- Right beyond the limit there is a sentence that is too heavy. -/
theorem exists_heavySentence : ∃ bad hate, 4 * bad + 5 * hate + 4 = version.limit + 1 ∧
    7090 < -version.bias - bad * version.weight "bad" - (hate + 1) * version.weight "hate" := by
  cases version with
  | v1 => exact ⟨0, 393, by decide, by decide⟩
  | v2 => exact ⟨3, 414, by decide, by decide⟩

theorem predict_of_argument_le {text : String} (small : argument casing version text ≤ 709) :
    ∃ prediction, predict math casing version text = some prediction := by
  obtain ⟨exp, defined⟩ := math.defined _ small
  exact ⟨_, by rw [predict, defined]; rfl⟩

theorem length_of_boundedText {text stripped : String}
    (bounded : boundedText text = some stripped) : stripped.length ≤ 4096 := by
  rw [boundedText, Option.ite_none_right_eq_some] at bounded
  obtain ⟨fits, same⟩ := bounded
  obtain rfl := Option.some.inj same
  exact fits.2

/-- The texts of a length are all served exactly when the length is within the limit of the version,
or no text of that length is admitted. -/
theorem serves_iff (n : ℕ) :
    Serves math casing version n ↔ n ≤ version.limit ∨ 4096 < n := by
  constructor
  · intro serves
    by_contra beyond
    obtain ⟨long, admitted⟩ := not_or.1 beyond
    obtain ⟨pad, rfl⟩ := Nat.exists_eq_add_of_lt (not_le.1 long)
    obtain ⟨bad, hate, first, heavy⟩ := exists_heavySentence version
    have length := length_heavySentence bad hate pad
    have bounded := boundedText_heavySentence bad hate pad (by omega)
    have small := (serves _ _ bounded (by omega)).1
    rw [argument_le_iff, neg_rawScore_heavySentence] at small
    omega
  · rintro short text stripped bounded rfl
    have admitted := length_of_boundedText bounded
    have small := argument_le_of_limit casing version stripped (by omega)
    exact ⟨small, predict_of_argument_le math casing version small⟩

end Bound

/-! ## A text that overflows for both versions -/

/-- `str.lower` of ASCII and of the two characters whose lower-case form has an ASCII letter. -/
def asciiCase : CaseMap where
  lower c :=
    if c.toNat < 128 then [c.toLower]
    else if c.toNat = 0x212a then ['k']
    else if c.toNat = 0x130 then ['i', Char.ofNat 0x307]
    else [c]
  ascii c small := if_pos small
  kelvin := by decide
  dotted := by decide
  other c large notKelvin notDotted :=
    ⟨c, by rw [if_neg (by omega), if_neg notKelvin, if_neg notDotted], large⟩

/-- The exponential series up to a power that no argument below 710 needs. -/
def series (x : ℚ) : ℚ := ∑ i ∈ Finset.range 2500, x ^ i / i.factorial

theorem series_nonneg {x : ℚ} (nonneg : 0 ≤ x) : 0 ≤ series x :=
  Finset.sum_nonneg fun i _ => by positivity

/-- `math.exp` by its series. -/
def seriesExp : Exponential where
  exp x :=
    if 709.78 < x then none
    else if 0 ≤ x then some (series x)
    else some (1 / series (-x))
  nonneg x y found := by
    split_ifs at found with large sign
    · obtain rfl := Option.some.inj found
      exact series_nonneg sign
    · obtain rfl := Option.some.inj found
      exact one_div_nonneg.2 (series_nonneg (by linarith))
  defined x small := by
    rw [if_neg (by norm_num; linarith)]
    split_ifs
    · exact ⟨_, rfl⟩
    · exact ⟨_, rfl⟩
  overflow x large := if_pos (by norm_num; linarith)

theorem predict_of_le_argument {math : Exponential} {casing : CaseMap} {version : BakedVersion}
    {text : String} (large : 7100 ≤ -rawScore casing version text) :
    predict math casing version text = none := by
  have overflows : (710 : ℚ) ≤ argument casing version text := by
    have scaled : (7100 : ℚ) ≤ -rawScore casing version text := by exact_mod_cast large
    rw [argument]
    linarith
  rw [predict, math.overflow _ overflows]
  rfl

/-- 819 times `hate`. -/
theorem hateful_text_overflows :
    boundedText (heavySentence 0 818 0) = some (heavySentence 0 818 0) ∧
      (heavySentence 0 818 0).length = 4094 ∧
      ¬ argument asciiCase .v1 (heavySentence 0 818 0) ≤ 709 ∧
      ¬ argument asciiCase .v2 (heavySentence 0 818 0) ≤ 709 ∧
      predict seriesExp asciiCase .v1 (heavySentence 0 818 0) = none ∧
      predict seriesExp asciiCase .v2 (heavySentence 0 818 0) = none := by
  have score := fun version => neg_rawScore_heavySentence asciiCase version 0 818 0
  have heavyV1 : 7100 ≤ -rawScore asciiCase .v1 (heavySentence 0 818 0) := by
    rw [score]
    decide
  have heavyV2 : 7100 ≤ -rawScore asciiCase .v2 (heavySentence 0 818 0) := by
    rw [score]
    decide
  refine ⟨boundedText_heavySentence 0 818 0 (by decide), length_heavySentence 0 818 0, ?_, ?_,
    predict_of_le_argument heavyV1, predict_of_le_argument heavyV2⟩
  · rw [argument_le_iff]
    omega
  · rw [argument_le_iff]
    omega

end Kernexys.Inference
