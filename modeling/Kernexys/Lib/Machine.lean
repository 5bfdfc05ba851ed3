import Mathlib.Data.List.Induction

/-!
# Machines given by a partial step function

A machine has an initial state and a step function, which maps a state and an action to the next
state, or to nothing when the action is not enabled.  A run is a list of actions, followed by
`exec`.  `Along P` says that every step of a run meets the condition `P` in the state it starts
from, and `Throughout I` that every state of a run meets `I`.  A property of whole runs comes from a
one-step lemma by `exec_invariant`, and `throughout_iff_along` says when a condition on the steps is
exactly what a property of the states needs.  `withHistory` lets a machine remember what its steps
did.
-/

/-- A machine with states `σ` and actions `α`. -/
structure Machine (σ α : Type*) where
  init : σ
  step : σ → α → Option σ

namespace Machine

variable {σ α : Type*} (m : Machine σ α)

/-- Follow a list of actions from a state. -/
def exec : σ → List α → Option σ
  | s, [] => some s
  | s, a :: as => (m.step s a).bind fun t => exec t as

@[simp] theorem exec_nil (s : σ) : m.exec s [] = some s := rfl

@[simp] theorem exec_cons (s : σ) (a : α) (as : List α) :
    m.exec s (a :: as) = (m.step s a).bind fun t => m.exec t as := rfl

theorem exec_append (s : σ) (as bs : List α) :
    m.exec s (as ++ bs) = (m.exec s as).bind fun t => m.exec t bs := by
  induction as generalizing s with
  | nil => rfl
  | cons a as ih =>
    simp only [List.cons_append, exec_cons, Option.bind_assoc]
    exact congrArg _ (funext fun t => ih t)

theorem exec_append_eq_some {s u : σ} {as bs : List α} :
    m.exec s (as ++ bs) = some u ↔ ∃ t, m.exec s as = some t ∧ m.exec t bs = some u := by
  rw [exec_append, Option.bind_eq_some_iff]

theorem exec_singleton (s : σ) (a : α) : m.exec s [a] = m.step s a := by
  simp

/-- The run `as` from the initial state ends in `s`. -/
def Run (as : List α) (s : σ) : Prop := m.exec m.init as = some s

/-- Every step of the run `as` from `s` meets `P` in the state it starts from. -/
def Along (P : σ → α → Prop) (s : σ) (as : List α) : Prop :=
  ∀ pre a post t, as = pre ++ a :: post → m.exec s pre = some t → P t a

variable {m}

theorem Along.mono {P Q : σ → α → Prop} {s : σ} {as : List α} (h : m.Along P s as)
    (weaker : ∀ t a, P t a → Q t a) : m.Along Q s as :=
  fun pre a post t split reach => weaker t a (h pre a post t split reach)

theorem along_of_forall_mem {P : σ → α → Prop} {s : σ} {as : List α} (h : ∀ a ∈ as, ∀ t, P t a) :
    m.Along P s as := by
  intro pre a post t split _
  exact h a (by simp [split]) t

theorem Along.and {P Q : σ → α → Prop} {s : σ} {as : List α} (hp : m.Along P s as)
    (hq : m.Along Q s as) : m.Along (fun t a => P t a ∧ Q t a) s as :=
  fun pre a post t split reach => ⟨hp pre a post t split reach, hq pre a post t split reach⟩

theorem along_nil {P : σ → α → Prop} (s : σ) : m.Along P s [] := by
  intro pre a post t split _
  simp at split

theorem Along.cons {P : σ → α → Prop} {s t : σ} {a : α} {as : List α} (head : P s a)
    (hs : m.step s a = some t) (tail : m.Along P t as) : m.Along P s (a :: as) := by
  intro pre b post u split reach
  cases pre with
  | nil =>
    obtain ⟨rfl, -⟩ := List.cons.inj split
    obtain rfl := Option.some.inj reach
    exact head
  | cons c pre =>
    obtain ⟨rfl, rest⟩ := List.cons.inj split
    rw [exec_cons, hs] at reach
    exact tail pre b post u rest reach

theorem Along.head {P : σ → α → Prop} {s : σ} {a : α} {as : List α}
    (h : m.Along P s (a :: as)) : P s a :=
  h [] a as s rfl rfl

theorem Along.tail {P : σ → α → Prop} {s t : σ} {a : α} {as : List α}
    (h : m.Along P s (a :: as)) (hs : m.step s a = some t) : m.Along P t as := by
  intro pre b post u split reach
  refine h (a :: pre) b post u (by rw [split]; rfl) ?_
  rw [exec_cons, hs]
  exact reach

theorem Along.left {P : σ → α → Prop} {s : σ} {as bs : List α} (h : m.Along P s (as ++ bs)) :
    m.Along P s as := by
  intro pre a post t split reach
  exact h pre a (post ++ bs) t (by rw [split]; simp) reach

theorem Along.right {P : σ → α → Prop} {s t : σ} {as bs : List α} (h : m.Along P s (as ++ bs))
    (hs : m.exec s as = some t) : m.Along P t bs := by
  intro pre a post u split reach
  refine h (as ++ pre) a post u (by rw [split]; simp) ?_
  exact m.exec_append_eq_some.2 ⟨t, hs, reach⟩

variable (m) in
/-- The run `as` from `s` meets `P` in every step and ends in `Q`. -/
def Leads (P : σ → α → Prop) (s : σ) (as : List α) (Q : σ → Prop) : Prop :=
  ∃ t, m.Along P s as ∧ m.exec s as = some t ∧ Q t

theorem Leads.nil {P : σ → α → Prop} {Q : σ → Prop} {s : σ} (h : Q s) : m.Leads P s [] Q :=
  ⟨s, along_nil s, rfl, h⟩

theorem Leads.cons {P : σ → α → Prop} {Q : σ → Prop} {s t : σ} {a : α} {as : List α} (head : P s a)
    (next : m.step s a = some t) (rest : m.Leads P t as Q) : m.Leads P s (a :: as) Q := by
  obtain ⟨u, along, reach, h⟩ := rest
  refine ⟨u, .cons head next along, ?_, h⟩
  rw [exec_cons, next]
  exact reach

theorem Leads.mono {P P' : σ → α → Prop} {Q : σ → Prop} {s : σ} {as : List α}
    (weaker : ∀ t a, P t a → P' t a) (h : m.Leads P s as Q) : m.Leads P' s as Q := by
  obtain ⟨t, along, reach, after⟩ := h
  exact ⟨t, along.mono weaker, reach, after⟩

theorem Leads.append {P : σ → α → Prop} {Q R : σ → Prop} {s : σ} {as bs : List α}
    (first : m.Leads P s as R) (rest : ∀ t, R t → m.Leads P t bs Q) : m.Leads P s (as ++ bs) Q := by
  induction as generalizing s with
  | nil =>
    obtain ⟨t, -, reach, h⟩ := first
    obtain rfl := Option.some.inj reach
    exact rest s h
  | cons a as ih =>
    obtain ⟨t, along, reach, h⟩ := first
    obtain ⟨u, next, tail⟩ := Option.bind_eq_some_iff.1 reach
    exact .cons along.head next (ih ⟨t, along.tail next, tail, h⟩)

/-- Evaluate a condition along a concrete run. -/
def checkAlong (m : Machine σ α) (p : σ → α → Bool) : σ → List α → Bool
  | _, [] => true
  | s, a :: as => p s a && (m.step s a).all fun t => m.checkAlong p t as

theorem along_of_check {p : σ → α → Bool} {s : σ} {as : List α}
    (h : m.checkAlong p s as = true) : m.Along (fun t a => p t a = true) s as := by
  intro pre a post t split reach
  induction pre generalizing s as with
  | nil =>
    obtain rfl := Option.some.inj reach
    subst split
    simp only [List.nil_append, checkAlong, Bool.and_eq_true] at h
    exact h.1
  | cons b pre ih =>
    obtain ⟨u, hu, rest⟩ := Option.bind_eq_some_iff.1 reach
    subst split
    simp only [List.cons_append, checkAlong, hu, Option.all_some, Bool.and_eq_true] at h
    exact ih h.2 rfl rest

/-- What every admitted step keeps, every admitted run keeps. -/
theorem exec_invariant {I : σ → Prop} {P : σ → α → Prop}
    (keep : ∀ s a t, I s → P s a → m.step s a = some t → I t)
    {s t : σ} {as : List α} (start : I s) (along : m.Along P s as) (run : m.exec s as = some t) :
    I t := by
  induction as generalizing s with
  | nil =>
    obtain rfl := Option.some.inj run
    exact start
  | cons a as ih =>
    obtain ⟨u, hu, rest⟩ := Option.bind_eq_some_iff.1 run
    exact ih (keep s a u start along.head hu) (along.tail hu) rest

/-- An invariant of the initial state that every admitted step keeps holds after every admitted
run. -/
theorem run_invariant {I : σ → Prop} {P : σ → α → Prop} (init : I m.init)
    (keep : ∀ s a t, I s → P s a → m.step s a = some t → I t)
    {as : List α} {s : σ} (along : m.Along P m.init as) (run : m.Run as s) : I s :=
  exec_invariant keep init along run

/-- The state before each step of a run, and the state after it. -/
theorem Run.split {as pre post : List α} {a : α} {u : σ} (run : m.Run as u)
    (split : as = pre ++ a :: post) :
    ∃ s t, m.Run pre s ∧ m.step s a = some t ∧ m.Run (pre ++ [a]) t ∧ m.exec t post = some u := by
  rw [Run, split, exec_append_eq_some] at run
  obtain ⟨s, hs, rest⟩ := run
  obtain ⟨t, ht, rest⟩ := Option.bind_eq_some_iff.1 rest
  refine ⟨s, t, hs, ht, ?_, rest⟩
  exact m.exec_append_eq_some.2 ⟨s, hs, by rw [exec_singleton, ht]⟩

/-! ## Every state of a run -/

variable (m) in
/-- Every state of the run `as` meets `I`. -/
def Throughout (I : σ → Prop) (as : List α) : Prop :=
  ∀ pre post s, as = pre ++ post → m.Run pre s → I s

/-- If a step that ends in `I` meets `P`, then a run that meets `I` in every state meets `P` in every
step. -/
theorem Throughout.along {I : σ → Prop} {P : σ → α → Prop}
    (only : ∀ pre s a t, m.Run pre s → m.step s a = some t → I t → P s a)
    {as : List α} {u : σ} (run : m.Run as u) (throughout : m.Throughout I as) :
    m.Along P m.init as := by
  intro pre a post s split reach
  obtain ⟨s', t, reach', next, reachNext, -⟩ := run.split split
  obtain rfl : s = s' := Option.some.inj (reach.symm.trans reach')
  exact only pre s a t reach next (throughout (pre ++ [a]) post t (by simp [split]) reachNext)

/-- If a step that meets `P` keeps `I`, then a run that meets `P` in every step meets `I` in every
state. -/
theorem Along.throughout {I : σ → Prop} {P : σ → α → Prop} (init : I m.init)
    (keep : ∀ pre s a t, m.Run pre s → I s → P s a → m.step s a = some t → I t)
    {as : List α} (along : m.Along P m.init as) : m.Throughout I as := by
  intro pre post s split reach
  subst split
  have prefixes := along.left
  clear along
  induction pre using List.reverseRecOn generalizing s with
  | nil =>
    obtain rfl := Option.some.inj reach
    exact init
  | append_singleton pre a ih =>
    obtain ⟨t, reach', next⟩ := m.exec_append_eq_some.1 reach
    rw [exec_singleton] at next
    exact keep pre t a s reach' (ih t reach' prefixes.left) (prefixes pre a [] t rfl reach') next

/-- If a step between reachable states keeps `I` when it meets `P`, and meets `P` when it ends in
`I`, then a run meets `I` in every state exactly when it meets `P` in every step. -/
theorem throughout_iff_along {I : σ → Prop} {P : σ → α → Prop} (init : I m.init)
    (keep : ∀ pre s a t, m.Run pre s → I s → P s a → m.step s a = some t → I t)
    (only : ∀ pre s a t, m.Run pre s → m.step s a = some t → I t → P s a)
    {as : List α} {u : σ} (run : m.Run as u) :
    m.Throughout I as ↔ m.Along P m.init as :=
  ⟨Throughout.along only run, Along.throughout init keep⟩

/-! ## Histories -/

section History

variable {γ : Type*} (start : γ) (note : σ → α → γ → γ)

variable (m) in
/-- The machine that notes each step in a history, on which no step depends. -/
def withHistory : Machine (σ × γ) α where
  init := (m.init, start)
  step s a := (m.step s.1 a).map fun t => (t, note s.1 a s.2)

variable {start note}

theorem withHistory_step {s t : σ × γ} {a : α} :
    (m.withHistory start note).step s a = some t ↔
      m.step s.1 a = some t.1 ∧ t.2 = note s.1 a s.2 := by
  simp only [withHistory, Option.map_eq_some_iff]
  constructor
  · rintro ⟨u, next, rfl⟩
    exact ⟨next, rfl⟩
  · rintro ⟨next, noted⟩
    exact ⟨t.1, next, Prod.ext rfl noted.symm⟩

/-- Every run has its history. -/
theorem Run.withHistory {as : List α} {s : σ} (run : m.Run as s) :
    ∃ g, (m.withHistory start note).Run as (s, g) := by
  suffices follow : ∀ (as : List α) (s : σ × γ) (t : σ), m.exec s.1 as = some t →
      ∃ g, (m.withHistory start note).exec s as = some (t, g) from
    follow as (m.init, start) s run
  intro as
  induction as with
  | nil =>
    intro s t reach
    obtain rfl := Option.some.inj reach
    exact ⟨s.2, rfl⟩
  | cons a as ih =>
    intro s t reach
    obtain ⟨u, next, rest⟩ := Option.bind_eq_some_iff.1 reach
    obtain ⟨g, found⟩ := ih (u, note s.1 a s.2) t rest
    have noted : (m.withHistory start note).step s a = some (u, note s.1 a s.2) :=
      withHistory_step.2 ⟨next, rfl⟩
    refine ⟨g, ?_⟩
    rw [exec_cons, noted]
    exact found

/-- A run of the machine is one with a history, and what holds of the history in every state may be
used in every step. -/
theorem Leads.withHistory {K : σ → γ → Prop} {P : σ → α → Prop} {P' : σ × γ → α → Prop}
    {Q : σ → Prop} {s : σ} {g : γ} {as : List α} (leads : m.Leads P s as Q) (known : K s g)
    (keep : ∀ s a t g, K s g → m.step s a = some t → K t (note s a g))
    (admits : ∀ s a g, K s g → P s a → P' (s, g) a) :
    (m.withHistory start note).Leads P' (s, g) as fun x => Q x.1 ∧ K x.1 x.2 := by
  induction as generalizing s g with
  | nil =>
    obtain ⟨t, -, reach, after⟩ := leads
    obtain rfl := Option.some.inj reach
    exact .nil ⟨after, known⟩
  | cons a as ih =>
    obtain ⟨t, along, reach, after⟩ := leads
    obtain ⟨u, next, rest⟩ := Option.bind_eq_some_iff.1 reach
    have noted : (m.withHistory start note).step (s, g) a = some (u, note s a g) :=
      withHistory_step.2 ⟨next, rfl⟩
    exact .cons (admits s a g known along.head) noted
      (ih ⟨t, along.tail next, rest, after⟩ (keep s a u g known next))

end History

end Machine
