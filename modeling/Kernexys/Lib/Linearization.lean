import Kernexys.Lib.Program

/-!
# Linearizability

Threads that share a state make many calls; an atomic object does each job in one step.  When each
thread has one call at which its job takes effect on an abstract state, every step of the system is at
most one step of the atomic object (`Linearizes.step`).  As a thread takes effect between its start and
its end, the order of the effects respects the order in time.
-/

/-- An atomic object in use: its state, and the job of each thread, with its answer once it took
effect. -/
structure Atomic (α ι ω : Type) where
  state : α
  thread : ℕ → Option (ι × Option ω)

/-- A thread starts a job, or its job takes effect. -/
inductive Atomic.Step {α ι ω : Type} (spec : ι → α → ω → α → Prop) :
    Atomic α ι ω → Atomic α ι ω → Prop where
  | start {a} (i : ℕ) (job : ι) (new : a.thread i = none) :
      Step spec a { a with thread := Function.update a.thread i (some (job, none)) }
  | effect {a} (i : ℕ) {job answer state} (pending : a.thread i = some (job, none))
      (does : spec job a.state answer state) :
      Step spec a ⟨state, Function.update a.thread i (some (job, some answer))⟩

section

variable {σ ι Op : Type} {Reply : Op → Type} {β α ω : Type}

/-- What the system looks like as an atomic object. -/
def Config.asAtomic (abs : σ → α) (answered : ι → List (Program.Event Op Reply) → Option ω)
    (c : Config σ ι Op Reply β) : Atomic α ι ω :=
  ⟨abs c.shared, fun i => (c.thread i).map fun th => (th.job, answered th.job th.log)⟩

/-- A call leaves the abstract state and the answer as they are, or it is the one at which the job of
its thread takes effect. -/
structure Linearizes (host : Host σ ι Op Reply β) (spec : ι → α → ω → α → Prop) (abs : σ → α)
    (answered : ι → List (Program.Event Op Reply) → Option ω) (s : σ) : Prop where
  interferes : ∀ t t', host.interferes t t' → abs t' = abs t
  start : ∀ job, answered job [] = none
  call : ∀ c i job log op next r t, host.Reachable s c →
    c.thread i = some ⟨job, log, .call op next⟩ → host.executes c.shared op r t →
      (answered job (log ++ [⟨op, r⟩]) = answered job log ∧ abs t = abs c.shared) ∨
      (answered job log = none ∧ ∃ answer, answered job (log ++ [⟨op, r⟩]) = some answer ∧
        spec job (abs c.shared) answer (abs t))

theorem Config.asAtomic_update (abs : σ → α)
    (answered : ι → List (Program.Event Op Reply) → Option ω) (t : σ)
    (thread : ℕ → Option (Thread ι Op Reply β)) (i : ℕ) (th : Thread ι Op Reply β) :
    Config.asAtomic abs answered ⟨t, Function.update thread i (some th)⟩ =
      ⟨abs t, Function.update (fun j => (thread j).map fun th => (th.job, answered th.job th.log)) i
        (some (th.job, answered th.job th.log))⟩ := by
  unfold asAtomic
  congr 1
  funext j
  by_cases same : j = i
  · subst same
    simp
  · simp [same]

/-- Every step of the system is at most one step of the atomic object. -/
theorem Linearizes.step {host : Host σ ι Op Reply β} {spec : ι → α → ω → α → Prop} {abs : σ → α}
    {answered : ι → List (Program.Event Op Reply) → Option ω} {s : σ}
    (lin : Linearizes host spec abs answered s) {c d : Config σ ι Op Reply β}
    (reach : host.Reachable s c) (next : host.Step c d) :
    Relation.ReflGen (Atomic.Step spec) (c.asAtomic abs answered) (d.asAtomic abs answered) := by
  cases next with
  | @interfere t changed =>
    have unchanged : (⟨t, c.thread⟩ : Config σ ι Op Reply β).asAtomic abs answered =
        c.asAtomic abs answered := by
      rw [Config.asAtomic, Config.asAtomic, lin.interferes _ _ changed]
    exact unchanged ▸ .refl
  | start i job new =>
    rw [Config.asAtomic_update, lin.start]
    refine .single (.start (a := c.asAtomic abs answered) i job ?_)
    simp [Config.asAtomic, new]
  | @call i job log op next r t at_call executed =>
    rw [Config.asAtomic_update]
    have seen : (c.asAtomic abs answered).thread i = some (job, answered job log) := by
      simp [Config.asAtomic, at_call]
    rcases lin.call c i job log op next r t reach at_call executed with
      ⟨same, kept⟩ | ⟨pending, answer, now, does⟩
    · have unchanged : c.asAtomic abs answered =
          ⟨abs t, Function.update (c.asAtomic abs answered).thread i
            (some (job, answered job (log ++ [⟨op, r⟩])))⟩ := by
        rw [same, ← seen, Function.update_eq_self, kept]
        rfl
      rw [unchanged]
      exact .refl
    · dsimp only
      rw [now]
      rw [pending] at seen
      exact .single (.effect i seen does)

end
