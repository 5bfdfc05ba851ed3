import Mathlib

/-!
# Programs over an interface

A program calls the operations of an interface one after the other and continues with their
replies.  `run` follows a program against a server that answers every call.  `Calls` is a logic for
the calls a program can make: a condition on each call and on the result, in terms of the log of
the calls before it, for every reply that meets an assumption.  `Reachable.verified` says when the
threads of a system keep to it.
-/

/-- A program with result `α` over the operations `Op`. -/
inductive Program (Op : Type) (Reply : Op → Type) (α : Type) : Type where
  | ret (a : α)
  | call (op : Op) (next : Reply op → Program Op Reply α)

namespace Program

variable {Op : Type} {Reply : Op → Type} {α β : Type}

/-- A call and the reply it got. -/
abbrev Event (Op : Type) (Reply : Op → Type) : Type := Σ op : Op, Reply op

/-- Run `p`, then go on with its result. -/
protected def bind : Program Op Reply α → (α → Program Op Reply β) → Program Op Reply β
  | ret a, f => f a
  | call op next, f => call op fun r => (next r).bind f

instance : Monad (Program Op Reply) where
  pure := ret
  bind := Program.bind

/-- The program that makes one call and returns its reply. -/
def perform (op : Op) : Program Op Reply (Reply op) := call op ret

@[simp] theorem pure_eq_ret (a : α) : (pure a : Program Op Reply α) = ret a := rfl

@[simp] theorem ret_bind (a : α) (f : α → Program Op Reply β) : (ret a >>= f) = f a := rfl

@[simp] theorem call_bind (op : Op) (next : Reply op → Program Op Reply α)
    (f : α → Program Op Reply β) : (call op next >>= f) = call op fun r => next r >>= f := rfl

@[simp] theorem perform_bind (op : Op) (f : Reply op → Program Op Reply β) :
    (perform op >>= f) = call op f := rfl

/-! ## Running against a server -/

/-- What a run leaves: the calls made, the result and the final state. -/
structure Ran (σ Op : Type) (Reply : Op → Type) (α : Type) where
  log : List (Event Op Reply)
  result : α
  final : σ

section Server

variable {σ : Type} (serve : (op : Op) → σ → Reply op × σ)

/-- Run a program against a server. -/
def run : Program Op Reply α → σ → Ran σ Op Reply α
  | ret a, s => ⟨[], a, s⟩
  | call op next, s =>
    let answer := serve op s
    let rest := (next answer.1).run answer.2
    ⟨⟨op, answer.1⟩ :: rest.log, rest.result, rest.final⟩

@[simp] theorem run_ret (a : α) (s : σ) : (ret a : Program Op Reply α).run serve s = ⟨[], a, s⟩ :=
  rfl

theorem run_call (op : Op) (next : Reply op → Program Op Reply α) (s : σ) :
    (call op next).run serve s =
      ⟨⟨op, (serve op s).1⟩ :: ((next (serve op s).1).run serve (serve op s).2).log,
        ((next (serve op s).1).run serve (serve op s).2).result,
        ((next (serve op s).1).run serve (serve op s).2).final⟩ := rfl

theorem run_call_of_serve {op : Op} {s t : σ} {r : Reply op} (served : serve op s = (r, t))
    (next : Reply op → Program Op Reply α) :
    (call op next).run serve s = ⟨⟨op, r⟩ :: ((next r).run serve t).log,
      ((next r).run serve t).result, ((next r).run serve t).final⟩ := by
  rw [run_call, served]

theorem run_bind (p : Program Op Reply α) (f : α → Program Op Reply β) (s : σ) :
    (p >>= f).run serve s =
      ⟨(p.run serve s).log ++ ((f (p.run serve s).result).run serve (p.run serve s).final).log,
        ((f (p.run serve s).result).run serve (p.run serve s).final).result,
        ((f (p.run serve s).result).run serve (p.run serve s).final).final⟩ := by
  induction p generalizing s with
  | ret a => rfl
  | call op next ih =>
    rw [call_bind, run_call, ih, run_call]
    rfl

end Server

/-! ## The calls a program can make -/

/-- Every call of the program meets `C` and every result meets `Q`, given the log before it, for
all replies that meet `A`. -/
def Calls (A : List (Event Op Reply) → (op : Op) → Reply op → Prop)
    (C : List (Event Op Reply) → Op → Prop) (Q : List (Event Op Reply) → α → Prop) :
    Program Op Reply α → List (Event Op Reply) → Prop
  | ret a, log => Q log a
  | call op next, log => C log op ∧ ∀ r, A log op r → (next r).Calls A C Q (log ++ [⟨op, r⟩])

/-- No assumption on replies. -/
def anyReply (_ : List (Event Op Reply)) (op : Op) (_ : Reply op) : Prop := True

section Calls

variable {A : List (Event Op Reply) → (op : Op) → Reply op → Prop}
  {C C' : List (Event Op Reply) → Op → Prop} {Q Q' : List (Event Op Reply) → α → Prop}
  {p : Program Op Reply α} {log : List (Event Op Reply)}

theorem calls_ret {a : α} (h : Q log a) : (ret a : Program Op Reply α).Calls A C Q log := h

theorem calls_call {op : Op} {next : Reply op → Program Op Reply α} (head : C log op)
    (tail : ∀ r, A log op r → (next r).Calls A C Q (log ++ [⟨op, r⟩])) :
    (call op next).Calls A C Q log :=
  ⟨head, tail⟩

/-- Nothing is asked of the calls. -/
theorem calls_trivial (p : Program Op Reply α) (log : List (Event Op Reply)) :
    p.Calls A (fun _ _ => True) (fun _ _ => True) log := by
  induction p generalizing log with
  | ret a => trivial
  | call op next ih => exact ⟨trivial, fun r _ => ih r _⟩

theorem Calls.bind {R : List (Event Op Reply) → β → Prop} {f : α → Program Op Reply β}
    (first : p.Calls A C Q log) (last : ∀ log a, Q log a → (f a).Calls A C R log) :
    (p >>= f).Calls A C R log := by
  induction p generalizing log with
  | ret a => exact last log a first
  | call op next ih => exact ⟨first.1, fun r may => ih r (first.2 r may)⟩

theorem Calls.mono (h : p.Calls A C Q log) (weakerCall : ∀ log op, C log op → C' log op)
    (weakerResult : ∀ log a, Q log a → Q' log a) : p.Calls A C' Q' log := by
  induction p generalizing log with
  | ret a => exact weakerResult log a h
  | call op next ih => exact ⟨weakerCall log op h.1, fun r may => ih r (h.2 r may)⟩

end Calls

end Program

/-! ## Threads that share a state -/

/-- A thread: the job it does, the calls it has made, and the program that remains. -/
structure Thread (ι Op : Type) (Reply : Op → Type) (α : Type) where
  job : ι
  log : List (Program.Event Op Reply)
  rest : Program Op Reply α

/-- What the threads of a system run on: the program of each job, how the shared state answers a
call, and how it may change by itself. -/
structure Host (σ ι Op : Type) (Reply : Op → Type) (α : Type) where
  program : ι → Program Op Reply α
  executes : σ → (op : Op) → Reply op → σ → Prop
  interferes : σ → σ → Prop

/-- A state of the system: the shared state, and the threads started so far. -/
structure Config (σ ι Op : Type) (Reply : Op → Type) (α : Type) where
  shared : σ
  thread : ℕ → Option (Thread ι Op Reply α)

namespace Host

variable {σ ι Op : Type} {Reply : Op → Type} {α : Type} (host : Host σ ι Op Reply α)

/-- No thread has started. -/
def initial (s : σ) : Config σ ι Op Reply α := ⟨s, fun _ => none⟩

/-- One step: the shared state changes, a new thread starts, or a thread makes its next call.  A
thread that dies is one that makes no further call. -/
inductive Step : Config σ ι Op Reply α → Config σ ι Op Reply α → Prop where
  | interfere {c t} (changed : host.interferes c.shared t) : Step c { c with shared := t }
  | start {c} (i : ℕ) (job : ι) (new : c.thread i = none) :
      Step c { c with thread := Function.update c.thread i (some ⟨job, [], host.program job⟩) }
  | call {c} (i : ℕ) {job log op next r t} (at_call : c.thread i = some ⟨job, log, .call op next⟩)
      (executed : host.executes c.shared op r t) :
      Step c ⟨t, Function.update c.thread i (some ⟨job, log ++ [⟨op, r⟩], next r⟩)⟩

/-- A state that some run from `s` reaches. -/
def Reachable (s : σ) (c : Config σ ι Op Reply α) : Prop :=
  Relation.ReflTransGen host.Step (initial s) c

variable {host} {s : σ} {c d : Config σ ι Op Reply α} {i : ℕ} {th : Thread ι Op Reply α}

theorem Reachable.start : host.Reachable s (initial s) := Relation.ReflTransGen.refl

theorem Reachable.step (reach : host.Reachable s c) (next : host.Step c d) : host.Reachable s d :=
  Relation.ReflTransGen.tail reach next

/-- What every step from a reachable state keeps, every run from one keeps. -/
theorem Reachable.steps_invariant {I : Config σ ι Op Reply α → Prop}
    (keep : ∀ c d, host.Reachable s c → I c → host.Step c d → I d)
    (reach : host.Reachable s c) (steps : Relation.ReflTransGen host.Step c d) (start : I c) :
    I d := by
  induction steps with
  | refl => exact start
  | tail before next ih => exact keep _ _ (reach.trans before) ih next

/-- What holds at the start and is kept by every step from a reachable state holds in every
reachable state. -/
theorem Reachable.invariant {I : Config σ ι Op Reply α → Prop} (init : I (initial s))
    (keep : ∀ c d, host.Reachable s c → I c → host.Step c d → I d) (reach : host.Reachable s c) :
    I c :=
  Reachable.start.steps_invariant keep reach init

/-- Where a thread of the state after a step comes from. -/
theorem Step.thread_cases (next : host.Step c d) (running : d.thread i = some th) :
    c.thread i = some th ∨ (th.rest = host.program th.job ∧ th.log = []) ∨
      ∃ job log op rest r, c.thread i = some ⟨job, log, .call op rest⟩ ∧
        host.executes c.shared op r d.shared ∧ th = ⟨job, log ++ [⟨op, r⟩], rest r⟩ := by
  cases next with
  | interfere => exact Or.inl running
  | start j p new =>
    by_cases eq : i = j
    · subst eq
      simp only [Function.update_self, Option.some.injEq] at running
      subst running
      exact Or.inr (Or.inl ⟨rfl, rfl⟩)
    · simp only [Function.update_of_ne eq] at running
      exact Or.inl running
  | call j at_call executed =>
    by_cases eq : i = j
    · subst eq
      simp only [Function.update_self, Option.some.injEq] at running
      exact Or.inr (Or.inr ⟨_, _, _, _, _, at_call, executed, running.symm⟩)
    · simp only [Function.update_of_ne eq] at running
      exact Or.inl running

/-- A thread goes on with its job, and keeps its log. -/
theorem Step.thread_kept (next : host.Step c d) (running : c.thread i = some th) :
    ∃ th', d.thread i = some th' ∧ th'.job = th.job ∧ ∀ event ∈ th.log, event ∈ th'.log := by
  cases next with
  | interfere => exact ⟨th, running, rfl, fun _ => id⟩
  | start j job new =>
    have ne : i ≠ j := by
      rintro rfl
      rw [new] at running
      cases running
    exact ⟨th, by simpa only [Function.update_of_ne ne] using running, rfl, fun _ => id⟩
  | call j at_call executed =>
    by_cases eq : i = j
    · subst eq
      obtain rfl := Option.some.inj (at_call.symm.trans running)
      exact ⟨_, Function.update_self .., rfl, fun _ => List.mem_append_left _⟩
    · exact ⟨th, by simpa only [Function.update_of_ne eq] using running, rfl, fun _ => id⟩

/-- What holds of every program at its start and is kept by every reply holds of every thread. -/
theorem Reachable.thread_invariant {P : ι → List (Program.Event Op Reply) → Program Op Reply α → Prop}
    (init : ∀ job, P job [] (host.program job))
    (keep : ∀ job log op next r, P job log (.call op next) → P job (log ++ [⟨op, r⟩]) (next r))
    (reach : host.Reachable s c) (running : c.thread i = some th) : P th.job th.log th.rest := by
  have all : ∀ j th, c.thread j = some th → P th.job th.log th.rest := by
    refine reach.invariant (I := fun c => ∀ j th, c.thread j = some th → P th.job th.log th.rest)
      (fun j th absent => by cases absent) fun c d _ before next j th running => ?_
    rcases next.thread_cases running with
      same | ⟨program, fresh⟩ | ⟨job, log, op, rest, r, at_call, -, rfl⟩
    · exact before j th same
    · rw [program, fresh]
      exact init th.job
    · exact keep job log op rest r (before j _ at_call)
  exact all i th running

/-- An event in a log was there before a step, or is the call that the thread makes in it. -/
theorem Step.event_cases (next : host.Step c d) (running : d.thread i = some th)
    {event : Program.Event Op Reply} (mem : event ∈ th.log) :
    (∃ before, c.thread i = some before ∧ event ∈ before.log) ∨
      (host.executes c.shared event.1 event.2 d.shared ∧ ∀ j, j ≠ i → d.thread j = c.thread j) := by
  cases next with
  | interfere => exact Or.inl ⟨th, running, mem⟩
  | start j job new =>
    by_cases eq : i = j
    · subst eq
      simp only [Function.update_self, Option.some.injEq] at running
      subst running
      cases mem
    · simp only [Function.update_of_ne eq] at running
      exact Or.inl ⟨th, running, mem⟩
  | call j at_call executed =>
    by_cases eq : i = j
    · subst eq
      simp only [Function.update_self, Option.some.injEq] at running
      subst running
      rcases List.mem_append.1 mem with earlier | last
      · exact Or.inl ⟨_, at_call, earlier⟩
      · rw [List.mem_singleton.1 last]
        exact Or.inr ⟨executed, fun j ne => Function.update_of_ne ne _ _⟩
    · simp only [Function.update_of_ne eq] at running
      exact Or.inl ⟨th, running, mem⟩

/-- The thread has made only calls that its job's rule `C` allows, and what remains of it makes only
such calls and returns only results that meet `Q`, if replies meet `A`. -/
structure Follows (A : ι → List (Program.Event Op Reply) → (op : Op) → Reply op → Prop)
    (C : ι → List (Program.Event Op Reply) → Op → Prop)
    (Q : ι → List (Program.Event Op Reply) → α → Prop) (th : Thread ι Op Reply α) : Prop where
  rest : th.rest.Calls (A th.job) (C th.job) (Q th.job) th.log
  made : ∀ pre op r post, th.log = pre ++ ⟨op, r⟩ :: post → C th.job pre op

variable {A : ι → List (Program.Event Op Reply) → (op : Op) → Reply op → Prop}
  {C : ι → List (Program.Event Op Reply) → Op → Prop}
  {Q : ι → List (Program.Event Op Reply) → α → Prop}

theorem Follows.next {job : ι} {log : List (Program.Event Op Reply)} {op : Op}
    {next : Reply op → Program Op Reply α} (follows : Follows A C Q ⟨job, log, .call op next⟩)
    {r : Reply op} (may : A job log op r) : Follows A C Q ⟨job, log ++ [⟨op, r⟩], next r⟩ := by
  refine ⟨follows.rest.2 r may, fun pre op' r' post split => ?_⟩
  rcases List.eq_nil_or_concat post with rfl | ⟨post, event, rfl⟩
  · obtain ⟨rfl, same⟩ := List.append_inj' split rfl
    cases List.cons.inj same with
    | intro head _ =>
      cases head
      exact follows.rest.1
  · have shorter : log ++ [⟨op, r⟩] = (pre ++ ⟨op', r'⟩ :: post) ++ [event] := by
      simpa using split
    exact follows.made pre op' r' post (List.append_inj' shorter rfl).1

/-- What holds of a system whose programs follow their rules: an invariant `I` of the shared state,
and a fact `K` about every call in every log. -/
structure Verified (A : ι → List (Program.Event Op Reply) → (op : Op) → Reply op → Prop)
    (C : ι → List (Program.Event Op Reply) → Op → Prop)
    (Q : ι → List (Program.Event Op Reply) → α → Prop) (I : σ → Prop)
    (K : σ → Program.Event Op Reply → Prop) (c : Config σ ι Op Reply α) : Prop where
  shared : I c.shared
  follows : ∀ {i th}, c.thread i = some th → Follows A C Q th
  known : ∀ {i th}, c.thread i = some th → ∀ event ∈ th.log, K c.shared event

/-- If the program of every job follows its rule, every call that a rule allows keeps the invariant
and gets a reply as assumed, and the facts hold when a call is made and are never lost, then every
reachable state is verified. -/
theorem Reachable.verified (programs : ∀ job, (host.program job).Calls (A job) (C job) (Q job) [])
    {I : σ → Prop} {K : σ → Program.Event Op Reply → Prop} (init : I s)
    (interferes : ∀ s t, I s → host.interferes s t → I t ∧ ∀ event, K s event → K t event)
    (executes : ∀ s job log op r t, I s → C job log op → (∀ event ∈ log, K s event) →
      host.executes s op r t →
        A job log op r ∧ I t ∧ K t ⟨op, r⟩ ∧ ∀ event, K s event → K t event)
    (reach : host.Reachable s c) : Verified A C Q I K c := by
  have start : Verified A C Q I K (initial s : Config σ ι Op Reply α) :=
    ⟨init, fun absent => absurd absent (by simp [initial]),
      fun absent => absurd absent (by simp [initial])⟩
  refine reach.invariant start fun c d _ before next => ?_
  have called : ∀ {i job log op next}, c.thread i = some ⟨job, log, .call op next⟩ →
      ∀ {r t}, host.executes c.shared op r t →
        A job log op r ∧ I t ∧ K t ⟨op, r⟩ ∧ ∀ event, K c.shared event → K t event :=
    fun at_call _ _ executed => executes _ _ _ _ _ _ before.shared
      (before.follows at_call).rest.1 (before.known at_call) executed
  have grows : I d.shared ∧ ∀ event, K c.shared event → K d.shared event := by
    cases next with
    | interfere changed => exact interferes _ _ before.shared changed
    | start => exact ⟨before.shared, fun _ => id⟩
    | call _ at_call executed =>
      obtain ⟨-, inv, -, grows⟩ := called at_call executed
      exact ⟨inv, grows⟩
  refine ⟨grows.1, fun running => ?_, fun running event mem => ?_⟩
  · rcases next.thread_cases running with
      same | ⟨program, fresh⟩ | ⟨job, log, op, rest, r, at_call, executed, rfl⟩
    · exact before.follows same
    · refine ⟨by rw [program, fresh]; exact programs _, fun pre op r post split => ?_⟩
      rw [fresh] at split
      simp at split
    · exact (before.follows at_call).next (called at_call executed).1
  · rcases next.thread_cases running with
      same | ⟨-, fresh⟩ | ⟨job, log, op, rest, r, at_call, executed, rfl⟩
    · exact grows.2 event (before.known same event mem)
    · rw [fresh] at mem
      cases mem
    · rcases List.mem_append.1 mem with earlier | last
      · exact grows.2 event (before.known at_call event earlier)
      · rw [List.mem_singleton.1 last]
        exact (called at_call executed).2.2.1

/-- One thread starts. -/
theorem reachable_start (s : σ) (job : ι) :
    host.Reachable s ⟨s, Function.update (fun _ => none) 0 (some ⟨job, [], host.program job⟩)⟩ :=
  Reachable.start.step (.start 0 job rfl)

/-- A thread makes the call it is at. -/
theorem Reachable.call {u t : σ} {thread : ℕ → Option (Thread ι Op Reply α)} {job : ι}
    {log : List (Program.Event Op Reply)} {p : Program Op Reply α}
    (reach : host.Reachable s ⟨u, Function.update thread i (some ⟨job, log, p⟩)⟩) {op : Op}
    {next : Reply op → Program Op Reply α} (at_call : p = .call op next) {r : Reply op}
    (executed : host.executes u op r t) :
    host.Reachable s ⟨t, Function.update thread i (some ⟨job, log ++ [⟨op, r⟩], next r⟩)⟩ := by
  subst at_call
  have called := reach.step (.call i (Function.update_self ..) executed)
  rwa [Function.update_idem] at called

/-- A thread that the server answers without interruption runs to its end. -/
theorem Reachable.run {serve : (op : Op) → σ → Reply op × σ}
    (serves : ∀ op s, host.executes s op (serve op s).1 (serve op s).2)
    (reach : host.Reachable s c) (i : ℕ) {job : ι} {log : List (Program.Event Op Reply)}
    {p : Program Op Reply α} (running : c.thread i = some ⟨job, log, p⟩) :
    host.Reachable s ⟨(p.run serve c.shared).final, Function.update c.thread i
      (some ⟨job, log ++ (p.run serve c.shared).log, .ret (p.run serve c.shared).result⟩)⟩ := by
  induction p generalizing c log with
  | ret a =>
    rw [Program.run_ret, List.append_nil]
    dsimp only
    rw [← running, Function.update_eq_self]
    exact reach
  | call op next ih =>
    have step := reach.step (.call i running (serves op c.shared))
    have rest := ih _ step (Function.update_self ..)
    rw [Function.update_idem, List.append_assoc] at rest
    exact rest

/-- A thread that the server answers comes to each call of its run. -/
theorem Reachable.until {serve : (op : Op) → σ → Reply op × σ}
    (serves : ∀ op s, host.executes s op (serve op s).1 (serve op s).2)
    (reach : host.Reachable s c) (i : ℕ) {job : ι} {log : List (Program.Event Op Reply)}
    {p : Program Op Reply α} (running : c.thread i = some ⟨job, log, p⟩) {op : Op} {r : Reply op}
    (mem : ⟨op, r⟩ ∈ (p.run serve c.shared).log) :
    ∃ d log' next, host.Reachable s d ∧ d.thread i = some ⟨job, log', .call op next⟩ ∧
      (serve op d.shared).1 = r := by
  induction p generalizing c log with
  | ret a => cases mem
  | call op' next ih =>
    rw [Program.run_call] at mem
    rcases List.mem_cons.1 mem with eq | mem
    · cases eq
      exact ⟨c, log, next, reach, running, rfl⟩
    · have step := reach.step (.call i running (serves op' c.shared))
      exact ih _ step (Function.update_self ..) mem

/-- A new thread starts and runs to its end. -/
theorem Reachable.start_run {serve : (op : Op) → σ → Reply op × σ}
    (serves : ∀ op s, host.executes s op (serve op s).1 (serve op s).2)
    (reach : host.Reachable s c) (i : ℕ) (job : ι) (new : c.thread i = none) :
    host.Reachable s ⟨((host.program job).run serve c.shared).final, Function.update c.thread i
      (some ⟨job, ((host.program job).run serve c.shared).log,
        .ret ((host.program job).run serve c.shared).result⟩)⟩ := by
  have finished := @Reachable.run _ _ _ _ _ _ _ _ _ serves (reach.step (.start i job new)) i job []
    (host.program job) (by simp)
  rwa [Function.update_idem] at finished

end Host
