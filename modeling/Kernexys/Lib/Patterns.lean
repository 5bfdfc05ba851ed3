import Kernexys.Lib.Text

/-!
# Comparing patterns

`finals` computes the characters that a match can end with.  `Narrows keep p q` says that the texts
of `p` with characters of one class only are texts of `q`; it is shown for a pattern from its parts.
-/

namespace Text

open RegularExpression

/-! ## Last characters -/

/-- The characters that the texts of a pattern end with. -/
def finals : RegularExpression Char → List Char
  | .zero => []
  | .epsilon => []
  | .char c => [c]
  | .plus p q => finals p ++ finals q
  | .comp p q => finals q ++ if q.matchEpsilon then finals p else []
  | .star p => finals p

theorem matchEpsilon_of_nil {p : RegularExpression Char} (matched : [] ∈ p.matches') :
    p.matchEpsilon = true :=
  (rmatch_iff_matches' p []).2 matched

theorem mem_finals {p : RegularExpression Char} {w : List Char} (matched : w ∈ p.matches') {c : Char}
    (last : w.getLast? = some c) : c ∈ finals p := by
  induction p generalizing w with
  | zero => exact absurd matched (Language.notMem_zero w)
  | epsilon =>
    obtain rfl := (Language.mem_one w).1 matched
    cases last
  | char a =>
    obtain rfl : w = [a] := matched
    exact List.mem_singleton.2 (Option.some.inj last).symm
  | plus p q ihP ihQ =>
    rcases matched with left | right
    · exact List.mem_append_left _ (ihP left last)
    · exact List.mem_append_right _ (ihQ right last)
  | comp p q ihP ihQ =>
    obtain ⟨u, inU, v, inV, rfl⟩ := Language.mem_mul.1 matched
    rcases List.eq_nil_or_concat v with rfl | ⟨v, d, rfl⟩
    · refine List.mem_append_right _ ?_
      rw [if_pos (matchEpsilon_of_nil inV)]
      exact ihP inU (by rwa [List.append_nil] at last)
    · refine List.mem_append_left _ (ihQ inV ?_)
      simpa using last
  | star p ih =>
    obtain ⟨parts, rfl, each⟩ := Language.mem_kstar_iff_exists_nonempty.1 matched
    rcases List.eq_nil_or_concat parts with rfl | ⟨parts, part, rfl⟩
    · cases last
    · obtain ⟨inP, nonempty⟩ := each part (by simp)
      obtain ⟨part, d, rfl⟩ := (List.eq_nil_or_concat part).resolve_left nonempty
      refine ih inP ?_
      simpa using last

/-! ## Narrowing -/

/-- The texts of `p` with characters in `keep` are texts of `q`. -/
def Narrows (keep : Char → Prop) (p q : RegularExpression Char) : Prop :=
  ∀ w ∈ p.matches', (∀ c ∈ w, keep c) → w ∈ q.matches'

namespace Narrows

variable {keep : Char → Prop} {p q p' q' : RegularExpression Char}

theorem refl : Narrows keep p p := fun _ matched _ => matched

theorem add (left : Narrows keep p p') (right : Narrows keep q q') : Narrows keep (p + q) (p' + q') := by
  rintro w (inP | inQ) kept
  · exact Or.inl (left w inP kept)
  · exact Or.inr (right w inQ kept)

theorem mul (left : Narrows keep p p') (right : Narrows keep q q') : Narrows keep (p * q) (p' * q') := by
  intro w matched kept
  obtain ⟨u, inP, v, inQ, rfl⟩ := Language.mem_mul.1 matched
  exact Language.mem_mul.2 ⟨u, left u inP fun c mem => kept c (List.mem_append_left _ mem), v,
    right v inQ fun c mem => kept c (List.mem_append_right _ mem), rfl⟩

theorem star (inner : Narrows keep p p') : Narrows keep (star p) (star p') := by
  intro w matched kept
  obtain ⟨parts, rfl, each⟩ := Language.mem_kstar.1 matched
  refine Language.mem_kstar.2 ⟨parts, rfl, fun part mem => inner part (each part mem) fun c inPart => ?_⟩
  exact kept c (List.mem_flatten.2 ⟨part, mem, inPart⟩)

theorem optional (inner : Narrows keep p p') : Narrows keep (optional p) (optional p') := refl.add inner

theorem repeated (inner : Narrows keep p p') : Narrows keep (repeated p) (repeated p') :=
  inner.mul inner.star

theorem oneOf {chars chars' : List Char} (kept : ∀ c ∈ chars, keep c → c ∈ chars') :
    Narrows keep (oneOf chars) (oneOf chars') := by
  intro w matched keeps
  obtain ⟨c, mem, rfl⟩ := mem_oneOf.1 matched
  exact mem_oneOf.2 ⟨c, kept c mem (keeps c List.mem_cons_self), rfl⟩

end Narrows

end Text
