import Kernexys.Queue.Lease

/-!
# A fleet of worker processes

Every worker process sweeps once when it starts and then once per recovery lease.  A sweep is
`recover_processing`: the `SET NX EX` of the recovery lock, the reading of the clock and the script,
which uses that reading.  Between these three steps anything can happen: the lock lapses, other
processes sweep, and the reading grows old.  The lock keeps the sweeps apart
(`recovery_lock_excludes`).
-/

namespace Kernexys.Queue

/-! ## The machine -/

/-- Where a worker process stands, as far as recovery goes.  `first` marks the sweep of `run_worker`,
which no handler protects. -/
inductive Sweeper
  | down
  /-- `run_worker` is at its own `recover_processing`. -/
  | starting
  /-- `recover_periodically` waits since this reading. -/
  | waiting (since : ℤ)
  /-- `SET NX EX` set the lock; `time.time()` is next. -/
  | locked (first : Bool) (acquired : ℤ)
  /-- The clock was read as `now`; the script is next. -/
  | sweeping (first : Bool) (acquired now : ℤ)
deriving DecidableEq, Repr

/-- When the process set the lock, if it has yet to run the script. -/
def Sweeper.acquired : Sweeper → Option ℤ
  | .down | .starting | .waiting _ => none
  | .locked _ acquired | .sweeping _ acquired _ => some acquired

/-- What a `RedisError` during a sweep makes of the process: `recover_periodically` logs it and waits
again, `run_worker` ends. -/
def Sweeper.failed (now : ℤ) : Sweeper → Sweeper
  | .down | .starting | .locked true _ | .sweeping true _ _ => .down
  | .waiting _ | .locked false _ | .sweeping false _ _ => .waiting now

/-- The queue, the deadline of the recovery lock and the worker processes. -/
structure Fleet where
  world : World
  lock : Option ℤ
  sweeper : ℕ → Sweeper

/-- An empty Redis, and no process is up. -/
def Fleet.init : Fleet := ⟨World.init, none, fun _ => .down⟩

/-- The atomic steps: those of the queue other than a sweep, and those of the processes. -/
inductive FleetAction
  | work (a : Action)
  | start (p : ℕ)
  | setNx (p : ℕ)
  | readClock (p : ℕ)
  | eval (p : ℕ)
  | fail (p : ℕ)
  | stop (p : ℕ)
deriving DecidableEq, Repr

namespace Fleet

variable (cfg : QueueConfig) (s : Fleet)

/-- The clock that all processes read. -/
def clock : ℤ := s.world.clock

/-- The fleet with one process in another phase. -/
def setSweeper (p : ℕ) (phase : Sweeper) : Fleet :=
  { s with sweeper := Function.update s.sweeper p phase }

/-- The key of the lock exists until its deadline has passed. -/
def lockHeld : Bool := s.lock.any fun deadline => s.clock ≤ deadline

theorem lockHeld_iff : s.lockHeld = true ↔ ∃ deadline, s.lock = some deadline ∧ s.clock ≤ deadline := by
  simp [lockHeld, Option.any_eq_true]

/-- The reply to `SET NX EX`: without the lock, `recover_processing` returns 0. -/
def acquire (p : ℕ) (first : Bool) : Fleet :=
  if s.lockHeld then s.setSweeper p (.waiting s.clock)
  else
    { s with lock := some (s.clock + cfg.recoveryLock) }.setSweeper p (.locked first s.clock)

/-- The script, with a reading of the clock. -/
def sweep (now : ℤ) : Fleet :=
  { s with world.redis := (recoverScript (now - cfg.recoveryLock) now s.world.redis).1 }

end Fleet

/-- One atomic step; `none` when the action is not enabled. -/
def fleetStep (cfg : QueueConfig) (s : Fleet) : FleetAction → Option Fleet
  | .work a =>
    if a = .recover then none else (step cfg s.world a).map fun world => { s with world := world }
  | .start p =>
    match s.sweeper p with
    | .down => some (s.setSweeper p .starting)
    | _ => none
  | .setNx p =>
    match s.sweeper p with
    | .starting => some (s.acquire cfg p true)
    | .waiting since =>
      if since + cfg.recoveryLock ≤ s.clock then some (s.acquire cfg p false) else none
    | _ => none
  | .readClock p =>
    match s.sweeper p with
    | .locked first acquired => some (s.setSweeper p (.sweeping first acquired s.clock))
    | _ => none
  | .eval p =>
    match s.sweeper p with
    | .sweeping _ _ now => some ((s.sweep cfg now).setSweeper p (.waiting s.clock))
    | _ => none
  | .fail p => some (s.setSweeper p ((s.sweeper p).failed s.clock))
  | .stop p => some (s.setSweeper p .down)

/-- Worker processes with these settings, started on an empty Redis. -/
def fleetMachine (cfg : QueueConfig) : Machine Fleet FleetAction := ⟨Fleet.init, fleetStep cfg⟩

/-! ## What a step can do -/

/-- The process is due to ask for the lock: it is at its first sweep, or a lease has passed since it
began to wait. -/
def Fleet.Due (cfg : QueueConfig) (s : Fleet) (p : ℕ) : Prop :=
  s.sweeper p = .starting ∨
    ∃ since, s.sweeper p = .waiting since ∧ since + cfg.recoveryLock ≤ s.clock

/-- The steps of the machine, with the guard of each. -/
inductive FleetStep (cfg : QueueConfig) (s : Fleet) : FleetAction → Fleet → Prop
  | work (a : Action) (world : World) (sweepless : a ≠ .recover)
      (next : step cfg s.world a = some world) : FleetStep cfg s (.work a) { s with world := world }
  | start (p : ℕ) (down : s.sweeper p = .down) : FleetStep cfg s (.start p) (s.setSweeper p .starting)
  | refused (p : ℕ) (deadline : ℤ) (due : s.Due cfg p) (lock : s.lock = some deadline)
      (held : s.clock ≤ deadline) : FleetStep cfg s (.setNx p) (s.setSweeper p (.waiting s.clock))
  | locked (p : ℕ) (first : Bool) (due : s.Due cfg p)
      (free : ∀ deadline, s.lock = some deadline → deadline < s.clock) :
      FleetStep cfg s (.setNx p)
        ({ s with lock := some (s.clock + cfg.recoveryLock) }.setSweeper p (.locked first s.clock))
  | readClock (p : ℕ) (first : Bool) (acquired : ℤ) (phase : s.sweeper p = .locked first acquired) :
      FleetStep cfg s (.readClock p) (s.setSweeper p (.sweeping first acquired s.clock))
  | eval (p : ℕ) (first : Bool) (acquired now : ℤ)
      (phase : s.sweeper p = .sweeping first acquired now) :
      FleetStep cfg s (.eval p) ((s.sweep cfg now).setSweeper p (.waiting s.clock))
  | fail (p : ℕ) : FleetStep cfg s (.fail p) (s.setSweeper p ((s.sweeper p).failed s.clock))
  | stop (p : ℕ) : FleetStep cfg s (.stop p) (s.setSweeper p .down)

theorem fleetStep_acquire {cfg : QueueConfig} {s : Fleet} {p : ℕ} {first : Bool}
    (due : s.Due cfg p) : FleetStep cfg s (.setNx p) (s.acquire cfg p first) := by
  unfold Fleet.acquire
  cases held : s.lockHeld with
  | true =>
    obtain ⟨deadline, lock, before⟩ := s.lockHeld_iff.1 held
    exact .refused p deadline due lock before
  | false =>
    refine .locked p first due fun deadline lock => not_le.1 fun before => ?_
    rw [s.lockHeld_iff.2 ⟨deadline, lock, before⟩] at held
    cases held

theorem fleetStep_cases {cfg : QueueConfig} {s t : Fleet} {a : FleetAction}
    (h : fleetStep cfg s a = some t) : FleetStep cfg s a t := by
  cases a with
  | work a =>
    simp only [fleetStep] at h
    split_ifs at h with sweep
    obtain ⟨world, next, rfl⟩ := Option.map_eq_some_iff.1 h
    exact .work a world sweep next
  | start p =>
    simp only [fleetStep] at h
    split at h
    next down =>
      obtain rfl := Option.some.inj h
      exact .start p down
    next => cases h
  | setNx p =>
    simp only [fleetStep] at h
    split at h
    next starting =>
      obtain rfl := Option.some.inj h
      exact fleetStep_acquire (Or.inl starting)
    next since waiting =>
      split_ifs at h with due
      obtain rfl := Option.some.inj h
      exact fleetStep_acquire (Or.inr ⟨since, waiting, due⟩)
    next => cases h
  | readClock p =>
    simp only [fleetStep] at h
    split at h
    next first acquired phase =>
      obtain rfl := Option.some.inj h
      exact .readClock p first acquired phase
    next => cases h
  | eval p =>
    simp only [fleetStep] at h
    split at h
    next first acquired now phase =>
      obtain rfl := Option.some.inj h
      exact .eval p first acquired now phase
    next => cases h
  | fail p =>
    obtain rfl := Option.some.inj h
    exact .fail p
  | stop p =>
    obtain rfl := Option.some.inj h
    exact .stop p

theorem Fleet.setSweeper_sweeper (s : Fleet) (p q : ℕ) (phase : Sweeper) :
    (s.setSweeper p phase).sweeper q = if q = p then phase else s.sweeper q := by
  simp [Fleet.setSweeper, Function.update_apply]

theorem fleetStep_clock_le {cfg : QueueConfig} {s t : Fleet} {a : FleetAction}
    (next : fleetStep cfg s a = some t) : s.clock ≤ t.clock := by
  cases fleetStep_cases next with
  | work a world sweepless done => exact step_clock_le done
  | _ => exact le_refl _

/-- A process that has yet to run its script had the lock before the step, or sets it now. -/
theorem fleetStep_acquired {cfg : QueueConfig} {s t : Fleet} {a : FleetAction} {p : ℕ} {acquired : ℤ}
    (next : fleetStep cfg s a = some t) (holds : (t.sweeper p).acquired = some acquired) :
    (s.sweeper p).acquired = some acquired ∨
      (a = .setNx p ∧ acquired = s.clock ∧ t.lock = some (s.clock + cfg.recoveryLock) ∧
        ∀ deadline, s.lock = some deadline → deadline < s.clock) := by
  cases fleetStep_cases next with
  | work => exact Or.inl holds
  | start q | refused q | stop q =>
    rw [Fleet.setSweeper_sweeper] at holds
    split_ifs at holds with same
    · cases holds
    · exact Or.inl holds
  | locked q first due free =>
    rw [Fleet.setSweeper_sweeper] at holds
    split_ifs at holds with same
    · exact Or.inr ⟨by rw [same], (Option.some.inj holds).symm, rfl, free⟩
    · exact Or.inl holds
  | readClock q first acquired' phase =>
    rw [Fleet.setSweeper_sweeper] at holds
    split_ifs at holds with same
    · rw [same, phase]
      exact Or.inl holds
    · exact Or.inl holds
  | eval q =>
    rw [Fleet.setSweeper_sweeper] at holds
    split_ifs at holds with same
    · cases holds
    · exact Or.inl holds
  | fail q =>
    rw [Fleet.setSweeper_sweeper] at holds
    split_ifs at holds with same
    · generalize s.sweeper q = phase at holds
      rcases phase with _ | _ | _ | ⟨_ | _, _⟩ | ⟨_ | _, _, _⟩ <;> cases holds
    · exact Or.inl holds

/-- A process that is about to run the script was so before, or has just read the clock. -/
theorem fleetStep_sweeping {cfg : QueueConfig} {s t : Fleet} {a : FleetAction} {p : ℕ} {first : Bool}
    {time now : ℤ} (next : fleetStep cfg s a = some t)
    (phase : t.sweeper p = .sweeping first time now) :
    s.sweeper p = .sweeping first time now ∨
      (s.sweeper p = .locked first time ∧ now = s.clock) := by
  cases fleetStep_cases next with
  | work => exact Or.inl phase
  | readClock q first' time' before =>
    rw [Fleet.setSweeper_sweeper] at phase
    split_ifs at phase with same
    · obtain ⟨rfl, rfl, rfl⟩ := Sweeper.sweeping.inj phase
      exact Or.inr ⟨by rw [same, before], rfl⟩
    · exact Or.inl phase
  | start q | refused q | locked q | eval q | stop q =>
    rw [Fleet.setSweeper_sweeper] at phase
    split_ifs at phase
    exact Or.inl phase
  | fail q =>
    rw [Fleet.setSweeper_sweeper] at phase
    split_ifs at phase
    · generalize s.sweeper q = before at phase
      rcases before with _ | _ | _ | ⟨_ | _, _⟩ | ⟨_ | _, _, _⟩ <;> cases phase
    · exact Or.inl phase

/-- The lock stays as it is unless a process sets it, which needs the deadline to have passed. -/
theorem fleetStep_lock {cfg : QueueConfig} {s t : Fleet} {a : FleetAction}
    (next : fleetStep cfg s a = some t) :
    t.lock = s.lock ∨ ∃ p, a = .setNx p ∧ (t.sweeper p).acquired = some s.clock ∧
      t.lock = some (s.clock + cfg.recoveryLock) ∧
      ∀ deadline, s.lock = some deadline → deadline < s.clock := by
  cases fleetStep_cases next with
  | locked p first due free =>
    refine Or.inr ⟨p, rfl, ?_, rfl, free⟩
    rw [Fleet.setSweeper_sweeper, if_pos rfl]
    rfl
  | _ => exact Or.inl rfl

/-! ## The lock -/

/-- The times at which the lock was set, the last one first. -/
def noteAcquired (s : Fleet) (a : FleetAction) (times : List ℤ) : List ℤ :=
  match a with
  | .setNx _ => if s.lockHeld then times else s.clock :: times
  | _ => times

/-- The fleet, with the times at which the lock was set. -/
def lockHistory (cfg : QueueConfig) : Machine (Fleet × List ℤ) FleetAction :=
  (fleetMachine cfg).withHistory [] noteAcquired

/-- The times at which the lock was set are a lease apart, and every process in a sweep set it at one
of them, no two at the same. -/
structure LockInv (cfg : QueueConfig) (s : Fleet) (times : List ℤ) : Prop where
  lock : s.lock = times.head?.map (· + cfg.recoveryLock)
  spaced : times.Pairwise fun later earlier => earlier + cfg.recoveryLock < later
  past : ∀ time ∈ times, time ≤ s.clock
  mem : ∀ p time, (s.sweeper p).acquired = some time → time ∈ times
  unique : ∀ p q time, (s.sweeper p).acquired = some time →
    (s.sweeper q).acquired = some time → p = q

theorem lockInv_init (cfg : QueueConfig) : LockInv cfg Fleet.init [] := by
  refine ⟨rfl, List.Pairwise.nil, ?_, ?_, ?_⟩
  · intro time mem
    cases mem
  · intro p time holds
    cases holds
  · intro p q time holds
    cases holds

/-- Every earlier lock has lapsed when the last one has. -/
theorem LockInv.lapsed {cfg : QueueConfig} {s : Fleet} {times : List ℤ} (inv : LockInv cfg s times)
    (free : ∀ deadline, s.lock = some deadline → deadline < s.clock) :
    ∀ time ∈ times, time + cfg.recoveryLock < s.clock := by
  have positive := cfg.recoveryLock_pos
  have spaced := inv.spaced
  cases times with
  | nil =>
    intro time mem
    cases mem
  | cons last earlier =>
    have lapsed : last + cfg.recoveryLock < s.clock := free _ (by rw [inv.lock]; rfl)
    intro time mem
    rcases List.mem_cons.1 mem with rfl | mem
    · exact lapsed
    · have apart := List.rel_of_pairwise_cons spaced mem
      omega

theorem step_lockInv {cfg : QueueConfig} {s t : Fleet} {times : List ℤ} {a : FleetAction}
    (inv : LockInv cfg s times) (next : fleetStep cfg s a = some t) :
    LockInv cfg t (noteAcquired s a times) := by
  have clock := fleetStep_clock_le next
  rcases fleetStep_lock next with same | ⟨p, rfl, sets, lock, free⟩
  · -- Nobody sets the lock.
    have kept : ∀ q time, (t.sweeper q).acquired = some time →
        (s.sweeper q).acquired = some time := by
      intro q time holds
      rcases fleetStep_acquired next holds with before | ⟨-, -, set, free⟩
      · exact before
      · have lapsed := free _ (same.symm.trans set)
        have positive := cfg.recoveryLock_pos
        omega
    have times_same : noteAcquired s a times = times := by
      cases fleetStep_cases next with
      | refused p deadline due lock held =>
        have lockHeld := s.lockHeld_iff.2 ⟨deadline, lock, held⟩
        simp only [noteAcquired, lockHeld, if_true]
      | locked p first due free =>
        have lapsed := free _ same.symm
        have positive := cfg.recoveryLock_pos
        omega
      | _ => rfl
    rw [times_same]
    exact ⟨same.trans inv.lock, inv.spaced, fun time mem => (inv.past time mem).trans clock,
      fun q time holds => inv.mem q time (kept q time holds),
      fun q q' time holds holds' => inv.unique q q' time (kept q time holds) (kept q' time holds')⟩
  · have lapsed := inv.lapsed free
    have open_ : s.lockHeld = false := by
      cases held : s.lockHeld with
      | false => rfl
      | true =>
        obtain ⟨deadline, found, before⟩ := s.lockHeld_iff.1 held
        exact absurd before (not_le.2 (free deadline found))
    have noted : noteAcquired s (.setNx p) times = s.clock :: times := by
      simp only [noteAcquired, open_, Bool.false_eq_true, if_false]
    have fresh : s.clock ∉ times := by
      intro mem
      have := lapsed _ mem
      have := cfg.recoveryLock_pos
      omega
    have source : ∀ q time, (t.sweeper q).acquired = some time →
        (s.sweeper q).acquired = some time ∨ (q = p ∧ time = s.clock) := by
      intro q time holds
      rcases fleetStep_acquired next holds with before | ⟨same, rfl, -, -⟩
      · exact Or.inl before
      · exact Or.inr ⟨(FleetAction.setNx.inj same).symm, rfl⟩
    rw [noted]
    refine ⟨lock, List.Pairwise.cons lapsed inv.spaced, ?_, ?_, ?_⟩
    · intro time mem
      rcases List.mem_cons.1 mem with rfl | mem
      · exact clock
      · exact (inv.past time mem).trans clock
    · intro q time holds
      rcases source q time holds with before | ⟨-, rfl⟩
      · exact List.mem_cons_of_mem _ (inv.mem q time before)
      · exact List.mem_cons_self
    · intro q q' time holds holds'
      rcases source q time holds with before | ⟨rfl, rfl⟩
      · rcases source q' time holds' with before' | ⟨rfl, rfl⟩
        · exact inv.unique q q' time before before'
        · exact absurd (inv.mem q s.clock before) fresh
      · rcases source q' s.clock holds' with before' | ⟨rfl, -⟩
        · exact absurd (inv.mem q' s.clock before') fresh
        · rfl

/-- In every run, the lock is set at times more than a lease apart, and two processes that are
between their `SET` and their script set it more than a lease apart: while the lock of one lasts, the
other is not there. -/
theorem recovery_lock_excludes (cfg : QueueConfig) {as : List FleetAction} {s : Fleet}
    {times : List ℤ} (run : (lockHistory cfg).Run as (s, times)) :
    (times.Pairwise fun later earlier => earlier + cfg.recoveryLock < later) ∧
      ∀ p q a b, (s.sweeper p).acquired = some a → (s.sweeper q).acquired = some b → p ≠ q →
        (a + cfg.recoveryLock < b ∨ b + cfg.recoveryLock < a) ∧
          ¬ (s.clock ≤ a + cfg.recoveryLock ∧ s.clock ≤ b + cfg.recoveryLock) := by
  have inv : LockInv cfg s times := by
    refine Machine.run_invariant (m := lockHistory cfg) (I := fun u => LockInv cfg u.1 u.2)
      (P := fun _ _ => True) (lockInv_init cfg) ?_ (Machine.along_of_forall_mem fun _ _ _ => trivial)
      run
    intro u a v before _ next
    obtain ⟨next, noted⟩ := Machine.withHistory_step.1 next
    rw [noted]
    exact step_lockInv before next
  refine ⟨inv.spaced, fun p q a b holds holds' ne => ?_⟩
  have memA := inv.mem p a holds
  have memB := inv.mem q b holds'
  have pastA := inv.past a memA
  have pastB := inv.past b memB
  have distinct : a ≠ b := by
    rintro rfl
    exact ne (inv.unique p q a holds holds')
  have apart : a + cfg.recoveryLock < b ∨ b + cfg.recoveryLock < a := by
    have symmetric : Std.Symm fun x y => x + cfg.recoveryLock < y ∨ y + cfg.recoveryLock < x :=
      ⟨fun _ _ => Or.symm⟩
    have either : times.Pairwise fun x y => x + cfg.recoveryLock < y ∨ y + cfg.recoveryLock < x :=
      inv.spaced.imp Or.inr
    exact either.forall memA memB distinct
  refine ⟨apart, ?_⟩
  rintro ⟨lastsA, lastsB⟩
  omega

/-- A process sets the lock and stalls; another one is refused, and sets the lock a minute later. -/
def stalledSweep : List FleetAction :=
  [.start 0, .start 1, .setNx 0, .setNx 1, .work (.tick 61), .setNx 1]

theorem recovery_lock_excludes_stalledSweep :
    ∃ s, (lockHistory testConfig).Run stalledSweep (s, [61, 0]) ∧
      (s.sweeper 0).acquired = some 0 ∧ (s.sweeper 1).acquired = some 61 ∧
      ¬ (s.clock ≤ 0 + testConfig.recoveryLock ∧ s.clock ≤ 61 + testConfig.recoveryLock) :=
  ⟨_, rfl, rfl, rfl,
    ((@recovery_lock_excludes testConfig stalledSweep _ _ rfl).2 0 1 0 61 rfl rfl (by decide)).2⟩

end Kernexys.Queue
