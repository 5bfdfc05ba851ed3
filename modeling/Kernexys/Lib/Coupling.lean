import Kernexys.Lib.Program

/-!
# Two systems on one state

Two systems act on one state, of which each has a view of its own.  What a step of one does to the
state is for the other a change that it must allow as interference, and the two views stay related.  A
run of both is then a run of each (`Coupled.Reachable.first` and `Coupled.Reachable.second`): what holds
of each system under interference holds of both together, and the views can be compared.
-/

namespace Coupled

variable {σ ι Op : Type} {Reply : Op → Type} {α : Type} {σ' ι' Op' : Type} {Reply' : Op' → Type}
  {α' : Type} (left : Host σ ι Op Reply α) (right : Host σ' ι' Op' Reply' α')
  (Related : σ → σ' → Prop)

/-- A step of one system, and at most one change of the view of the other. -/
inductive Step : Config σ ι Op Reply α × Config σ' ι' Op' Reply' α' →
    Config σ ι Op Reply α × Config σ' ι' Op' Reply' α' → Prop where
  | left {c c' d t} (next : left.Step c c')
      (echo : Relation.ReflGen right.interferes d.shared t) (related : Related c'.shared t) :
      Step (c, d) (c', { d with shared := t })
  | right {c d d' s} (next : right.Step d d')
      (echo : Relation.ReflGen left.interferes c.shared s) (related : Related s d'.shared) :
      Step (c, d) ({ c with shared := s }, d')

/-- A state that some run of both systems from `s` and `t` reaches. -/
def Reachable (s : σ) (t : σ') : Config σ ι Op Reply α × Config σ' ι' Op' Reply' α' → Prop :=
  Relation.ReflTransGen (Step left right Related) (Host.initial s, Host.initial t)

variable {left right Related} {s : σ} {t : σ'}
  {p q : Config σ ι Op Reply α × Config σ' ι' Op' Reply' α'}

/-- What a system allows as interference it can reach. -/
theorem reachable_echo {c : Config σ ι Op Reply α} (reach : left.Reachable s c) {s' : σ}
    (echo : Relation.ReflGen left.interferes c.shared s') :
    left.Reachable s { c with shared := s' } := by
  cases echo with
  | refl => exact reach
  | single changed => exact reach.step (.interfere changed)

theorem Reachable.start : Reachable left right Related s t (Host.initial s, Host.initial t) :=
  Relation.ReflTransGen.refl

theorem Reachable.step (reach : Reachable left right Related s t p)
    (next : Step left right Related p q) : Reachable left right Related s t q :=
  Relation.ReflTransGen.tail reach next

/-- A run of both systems is a run of the first. -/
theorem Reachable.first (reach : Reachable left right Related s t p) : left.Reachable s p.1 := by
  induction reach with
  | refl => exact Host.Reachable.start
  | tail _ next ih =>
    cases next with
    | left next => exact ih.step next
    | right _ echo => exact reachable_echo ih echo

/-- A run of both systems is a run of the second. -/
theorem Reachable.second (reach : Reachable left right Related s t p) : right.Reachable t p.2 := by
  induction reach with
  | refl => exact Host.Reachable.start
  | tail _ next ih =>
    cases next with
    | left _ echo => exact reachable_echo ih echo
    | right next => exact ih.step next

/-- The views are related all along. -/
theorem Reachable.related (start : Related s t) (reach : Reachable left right Related s t p) :
    Related p.1.shared p.2.shared := by
  cases reach with
  | refl => exact start
  | tail _ next =>
    cases next with
    | left _ _ related => exact related
    | right _ _ related => exact related

/-- What holds at the start and is kept by every step from a reachable state holds in every
reachable state. -/
theorem Reachable.invariant
    {I : Config σ ι Op Reply α × Config σ' ι' Op' Reply' α' → Prop}
    (init : I (Host.initial s, Host.initial t))
    (keep : ∀ p q, Reachable left right Related s t p → I p → Step left right Related p q → I q)
    (reach : Reachable left right Related s t p) : I p := by
  induction reach with
  | refl => exact init
  | tail before next ih => exact keep _ _ before ih next

/-- As long as its calls keep the views related, the first system can run alone. -/
theorem Reachable.alone {c : Config σ ι Op Reply α} (start : Related s t)
    (reach : Host.Reachable ⟨left.program, fun u op r u' => left.executes u op r u' ∧
      (Related u t → Related u' t), fun _ _ => False⟩ s c) :
    Reachable left right Related s t (c, Host.initial t) ∧ Related c.shared t := by
  induction reach with
  | refl => exact ⟨.start, start⟩
  | tail _ next ih =>
    obtain ⟨reach, related⟩ := ih
    cases next with
    | interfere changed => exact changed.elim
    | start i job new =>
      exact ⟨reach.step (.left (t := t) (d := Host.initial t) (.start i job new) .refl related), related⟩
    | call i at_call executed =>
      have kept := executed.2 related
      exact ⟨reach.step (.left (t := t) (d := Host.initial t) (.call i at_call executed.1) .refl kept),
        kept⟩

/-- A thread of the first system makes the call it is at. -/
theorem Reachable.first_call {u u' : σ} {thread : ℕ → Option (Thread ι Op Reply α)} {i : ℕ} {job : ι}
    {log : List (Program.Event Op Reply)} {rest : Program Op Reply α}
    {d : Config σ' ι' Op' Reply' α'}
    (reach : Reachable left right Related s t (⟨u, Function.update thread i (some ⟨job, log, rest⟩)⟩, d))
    {op : Op} {next : Reply op → Program Op Reply α} (at_call : rest = .call op next) {r : Reply op}
    (executed : left.executes u op r u') {t' : σ'}
    (echo : Relation.ReflGen right.interferes d.shared t') (related : Related u' t') :
    Reachable left right Related s t
      (⟨u', Function.update thread i (some ⟨job, log ++ [⟨op, r⟩], next r⟩)⟩,
        { d with shared := t' }) := by
  subst at_call
  have called := reach.step (.left (.call i (Function.update_self ..) executed) echo related)
  rwa [Function.update_idem] at called

/-- A thread of the second system makes the call it is at. -/
theorem Reachable.second_call {c : Config σ ι Op Reply α} {u u' : σ'}
    {thread : ℕ → Option (Thread ι' Op' Reply' α')} {i : ℕ} {job : ι'}
    {log : List (Program.Event Op' Reply')} {rest : Program Op' Reply' α'}
    (reach : Reachable left right Related s t (c, ⟨u, Function.update thread i (some ⟨job, log, rest⟩)⟩))
    {op : Op'} {next : Reply' op → Program Op' Reply' α'} (at_call : rest = .call op next)
    {r : Reply' op} (executed : right.executes u op r u') {s' : σ}
    (echo : Relation.ReflGen left.interferes c.shared s') (related : Related s' u') :
    Reachable left right Related s t
      ({ c with shared := s' },
        ⟨u', Function.update thread i (some ⟨job, log ++ [⟨op, r⟩], next r⟩)⟩) := by
  subst at_call
  have called := reach.step (.right (.call i (Function.update_self ..) executed) echo related)
  rwa [Function.update_idem] at called

end Coupled
