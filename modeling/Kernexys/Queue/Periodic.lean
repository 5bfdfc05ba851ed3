import Kernexys.Queue.Fleet
import Kernexys.Queue.Sweep

/-!
# Recovery in bounded time

A worker dies with a job.  As long as one process keeps sweeping, the job is back in the queue after
five leases, and the time that the processes lose on the way (`abandoned_job_requeued`).  Each request
for the lock that is refused shows that another process set it less than a lease ago; so between any
two requests of the process that keeps sweeping, somebody sweeps.  Of two such sweeps, the first one
stamps the job if it has no stamp, and the second one requeues it.
-/

namespace Kernexys.Queue

variable {cfg : QueueConfig} {s t : Fleet} {a : FleetAction} {j : JobId}

/-! ## Stamps and timers are past -/

/-- A stamp on the record is not later than `latest`. -/
def JobView.StampedBy (latest : ℤ) (v : JobView) : Prop :=
  ∀ h ∈ v.record, ∀ stamp ∈ h.claimedAt, stamp.tonumber.getD 0 ≤ latest

theorem JobView.StampedBy.recover {strandedBefore now latest : ℤ} {v : JobView} (le : now ≤ latest)
    (past : v.StampedBy latest) : (v.recover strandedBefore now).StampedBy latest := by
  rcases v.recover_cases strandedBefore now with ⟨-, eq⟩ | ⟨h, found, -, cases⟩
  · rw [eq]
    exact past
  · rcases cases with ⟨-, eq⟩ | ⟨stamp, -, ⟨-, -, eq⟩ | ⟨-, eq⟩⟩
    · rw [eq]
      intro h' found' stamp stamped
      obtain rfl := Option.some.inj found'
      obtain rfl := Option.some.inj stamped
      exact le
    · rw [eq]
      intro h' found' stamp stamped
      obtain rfl := Option.some.inj found'
      cases stamped
    · rwa [eq]

/-- All readings in a state are past. -/
structure ReadingsPast (cfg : QueueConfig) (s : Fleet) : Prop where
  stamps : ∀ j, (s.world.view j).StampedBy s.clock
  stamping : ∀ w j since payload reading, s.world.worker w = .stamping j since payload reading →
    reading ≤ s.clock
  waiting : ∀ p since, s.sweeper p = .waiting since → since ≤ s.clock
  acquired : ∀ p time, (s.sweeper p).acquired = some time → time ≤ s.clock
  now : ∀ p first time now, s.sweeper p = .sweeping first time now → time ≤ now ∧ now ≤ s.clock
  lock : ∀ deadline, s.lock = some deadline → deadline - cfg.recoveryLock ≤ s.clock

theorem readingsPast_init (cfg : QueueConfig) : ReadingsPast cfg Fleet.init := by
  refine ⟨fun j h found => ?_, fun w j since payload reading phase => ?_, fun p since phase => ?_,
    fun p time holds => ?_, fun p first time now phase => ?_, fun deadline lock => ?_⟩
  · cases found
  · cases phase
  · cases phase
  · cases holds
  · cases phase
  · cases lock

theorem step_stampedBy {s t : World} {a : Action} (next : step cfg s a = some t)
    (past : ∀ j, (s.view j).StampedBy s.clock)
    (stamping : ∀ w j since payload reading, s.worker w = .stamping j since payload reading →
      reading ≤ s.clock) (j : JobId) : (t.view j).StampedBy t.clock := by
  have clock := step_clock_le next
  have job := step_job next j
  suffices now : (t.view j).StampedBy s.clock by
    intro h found stamp stamped
    exact (now h found stamp stamped).trans clock
  generalize t.view j = v, t.accepted j = payload at job ⊢
  cases job with
  | same | popped | unlinked => exact past j
  | created payload isEnqueue fresh =>
    intro h found stamp stamped
    obtain rfl := Option.some.inj found
    cases stamped
  | stamped w since payload reading isHset phase =>
    intro h found stamp stamped
    obtain rfl := Option.some.inj found
    obtain rfl := Option.some.inj stamped
    exact stamping w j since payload reading phase
  | finished w v since payload isFinish phase =>
    intro h found stamp stamped
    obtain rfl := Option.some.inj found
    have kept : (finishedRecord cfg s.clock v (s.view j).record).claimedAt =
        ((s.view j).record.getD {}).claimedAt := by
      rcases v with ⟨_ | _⟩ | _ <;> rfl
    rw [kept] at stamped
    cases found' : (s.view j).record with
    | none =>
      rw [found'] at stamped
      cases stamped
    | some h' =>
      rw [found'] at stamped
      exact past j h' found' stamp stamped
  | swept isRecover =>
    exact Function.Iterate.rec (JobView.StampedBy s.clock) (past j)
      (fun _ => JobView.StampedBy.recover le_rfl) _
  | expired isExpire =>
    intro h found
    cases found

/-- A process that waits waited before, or turns to it in this step. -/
theorem fleetStep_waiting {p : ℕ} {since : ℤ} (next : fleetStep cfg s a = some t)
    (phase : t.sweeper p = .waiting since) : s.sweeper p = .waiting since ∨ since = s.clock := by
  cases fleetStep_cases next with
  | work => exact Or.inl phase
  | start q | locked q | readClock q | stop q =>
    rw [Fleet.setSweeper_sweeper] at phase
    split_ifs at phase
    exact Or.inl phase
  | refused q | eval q =>
    rw [Fleet.setSweeper_sweeper] at phase
    split_ifs at phase
    · exact Or.inr (Sweeper.waiting.inj phase).symm
    · exact Or.inl phase
  | fail q =>
    rw [Fleet.setSweeper_sweeper] at phase
    split_ifs at phase
    · generalize s.sweeper q = before at phase
      rcases before with _ | _ | _ | ⟨_ | _, _⟩ | ⟨_ | _, _, _⟩ <;> cases phase
      all_goals exact Or.inr rfl
    · exact Or.inl phase

theorem step_readingsPast (past : ReadingsPast cfg s) (next : fleetStep cfg s a = some t) :
    ReadingsPast cfg t := by
  have clock := fleetStep_clock_le next
  refine ⟨?_, ?_, fun p since phase => ?_, fun p time holds => ?_, fun p first time now phase => ?_,
    fun deadline lock => ?_⟩
  · cases fleetStep_cases next with
    | work a world sweepless done => exact step_stampedBy done past.stamps past.stamping
    | eval p first time now phase =>
      intro i
      exact recover_invariant (I := JobView.StampedBy s.clock)
        (fun _ => JobView.StampedBy.recover (past.now p first time now phase).2) (past.stamps i)
    | start | refused | locked | readClock | fail | stop => exact past.stamps
  · cases fleetStep_cases next with
    | work a world sweepless done =>
      intro w i since payload reading phase
      have clock : s.clock ≤ world.clock := step_clock_le done
      rcases step_stamping done phase with before | ⟨-, rfl⟩
      · exact (past.stamping w i since payload reading before).trans clock
      · exact clock
    | start | refused | locked | readClock | eval | fail | stop => exact past.stamping
  · rcases fleetStep_waiting next phase with before | rfl
    · exact (past.waiting p since before).trans clock
    · exact clock
  · rcases fleetStep_acquired next holds with before | ⟨-, rfl, -⟩
    · exact (past.acquired p time before).trans clock
    · exact clock
  · rcases fleetStep_sweeping next phase with before | ⟨before, rfl⟩
    · have := past.now p first time now before
      omega
    · have := past.acquired p time (by rw [before]; rfl)
      exact ⟨this, clock⟩
  · rcases fleetStep_lock next with same | ⟨p, -, -, set, -⟩
    · have := past.lock deadline (same.symm.trans lock)
      omega
    · obtain rfl := Option.some.inj (set.symm.trans lock)
      omega

/-! ## A process that keeps sweeping -/

/-- The process waits for a lease and `lag` at most, and nobody takes longer than `lag` from the `SET`
to the script. -/
structure Prompt (cfg : QueueConfig) (lag : ℤ) (p : ℕ) (s : Fleet) : Prop where
  wakes : ∀ since, s.sweeper p = .waiting since → s.clock ≤ since + cfg.recoveryLock + lag
  sweeps : ∀ q time, (s.sweeper q).acquired = some time → s.clock ≤ time + lag

/-- The process `p` goes on, no sweep is given up, and no client, worker or expiry acts on the job. -/
structure Steady (cfg : QueueConfig) (lag : ℤ) (p : ℕ) (j : JobId) (s : Fleet) (a : FleetAction) :
    Prop where
  prompt : Prompt cfg lag p s
  goesOn : ∀ q, a = .fail q ∨ a = .stop q → q ≠ p ∧ (s.sweeper q).acquired = none
  other : ∀ b, a = .work b → s.world.actedJob b ≠ some j

/-- By when somebody has swept after `start`. -/
def roundEnd (cfg : QueueConfig) (lag start : ℤ) : ℤ := start + 2 * cfg.recoveryLock + 4 * lag

/-- Nobody has swept after `start` yet: `p` waits or is in a sweep that it began before, or somebody
is in a sweep that began after. -/
inductive Pending (cfg : QueueConfig) (lag : ℤ) (p : ℕ) (start : ℤ) (s : Fleet) : Prop
  | waiting (since : ℤ) (phase : s.sweeper p = .waiting since)
      (early : since ≤ start + cfg.recoveryLock + 2 * lag)
  | before (time : ℤ) (holds : (s.sweeper p).acquired = some time) (early : time ≤ start)
  | after (q : ℕ) (time : ℤ) (holds : (s.sweeper q).acquired = some time) (late : start < time)
      (early : time ≤ start + 2 * cfg.recoveryLock + 3 * lag)

/-- The sweep after `start` that makes `Q` true is pending or done, and so is the sweep of whoever set
the lock after `start`. -/
structure Round (cfg : QueueConfig) (lag : ℤ) (p : ℕ) (start : ℤ) (Q : Fleet → Prop) (s : Fleet) :
    Prop where
  swept : Q s ∨ Pending cfg lag p start s
  lock : ∀ deadline, s.lock = some deadline → start < deadline - cfg.recoveryLock →
    Q s ∨ ∃ q, (s.sweeper q).acquired = some (deadline - cfg.recoveryLock)

variable {lag : ℤ} {p : ℕ} {start : ℤ} {Q : Fleet → Prop}

theorem Pending.clock_le (pending : Pending cfg lag p start s) (prompt : Prompt cfg lag p s)
    (nonneg : 0 ≤ lag) : s.clock ≤ roundEnd cfg lag start := by
  have positive := cfg.recoveryLock_pos
  unfold roundEnd
  cases pending with
  | waiting since phase early =>
    have := prompt.wakes since phase
    omega
  | before time holds early =>
    have := prompt.sweeps p time holds
    omega
  | after q time holds late early =>
    have := prompt.sweeps q time holds
    omega

/-- In a steady step, a process that has set the lock still has to run the script, or runs it. -/
theorem Steady.acquired {q : ℕ} {time : ℤ} (steady : Steady cfg lag p j s a)
    (next : fleetStep cfg s a = some t) (holds : (s.sweeper q).acquired = some time) :
    (t.sweeper q).acquired = some time ∨ ∃ first now, a = .eval q ∧
      s.sweeper q = .sweeping first time now ∧ t.sweeper q = .waiting s.clock := by
  -- A process that is elsewhere has not set the lock.
  have absent : ∀ q' phase, s.sweeper q' = phase → phase.acquired = none → q ≠ q' := by
    rintro q' phase rfl none_ rfl
    rw [none_] at holds
    cases holds
  have update : ∀ q' phase, q ≠ q' → ((s.setSweeper q' phase).sweeper q).acquired = some time := by
    intro q' phase ne
    rwa [Fleet.setSweeper_sweeper, if_neg ne]
  cases fleetStep_cases next with
  | work => exact Or.inl holds
  | start q' down => exact Or.inl (update q' _ (absent q' _ down rfl))
  | refused q' deadline due | locked q' first due =>
    left
    apply update
    rcases due with phase | ⟨since, phase, -⟩
    · exact absent q' _ phase rfl
    · exact absent q' _ phase rfl
  | readClock q' first time' phase =>
    left
    rw [Fleet.setSweeper_sweeper]
    split_ifs with same
    · rw [same, phase] at holds
      exact holds
    · exact holds
  | eval q' first time' now phase =>
    by_cases same : q = q'
    · subst same
      rw [phase] at holds
      obtain rfl := Option.some.inj holds
      refine Or.inr ⟨first, now, rfl, phase, ?_⟩
      rw [Fleet.setSweeper_sweeper, if_pos rfl]
    · left
      rwa [Fleet.setSweeper_sweeper, if_neg same]
  | fail q' => exact Or.inl (update q' _ (absent q' _ rfl (steady.goesOn q' (Or.inl rfl)).2))
  | stop q' => exact Or.inl (update q' _ (absent q' _ rfl (steady.goesOn q' (Or.inr rfl)).2))

/-- In a steady step, `p` goes on waiting, or asks for the lock when its lease is over. -/
theorem Steady.waiting {since : ℤ} (steady : Steady cfg lag p j s a)
    (next : fleetStep cfg s a = some t) (phase : s.sweeper p = .waiting since) :
    t.sweeper p = .waiting since ∨ (a = .setNx p ∧ since + cfg.recoveryLock ≤ s.clock ∧
      ((∃ deadline, s.lock = some deadline ∧ s.clock ≤ deadline ∧ t.sweeper p = .waiting s.clock) ∨
        (t.sweeper p).acquired = some s.clock)) := by
  have update : ∀ q phase', p ≠ q → (s.setSweeper q phase').sweeper p = .waiting since := by
    intro q phase' ne
    rwa [Fleet.setSweeper_sweeper, if_neg ne]
  have absent : ∀ q phase', s.sweeper q = phase' → phase' ≠ .waiting since → p ≠ q := by
    rintro q phase' rfl differs rfl
    exact differs phase
  have due_waiting : s.Due cfg p → since + cfg.recoveryLock ≤ s.clock := by
    rintro (starting | ⟨since', waiting, due⟩)
    · rw [phase] at starting
      cases starting
    · obtain rfl := Sweeper.waiting.inj (phase.symm.trans waiting)
      exact due
  cases fleetStep_cases next with
  | work => exact Or.inl phase
  | start q down => exact Or.inl (update q _ (absent q _ down (by simp)))
  | refused q deadline due lock held =>
    by_cases same : p = q
    · subst same
      refine Or.inr ⟨rfl, due_waiting due, Or.inl ⟨deadline, lock, held, ?_⟩⟩
      rw [Fleet.setSweeper_sweeper, if_pos rfl]
    · exact Or.inl (update q _ same)
  | locked q first due free =>
    by_cases same : p = q
    · subst same
      refine Or.inr ⟨rfl, due_waiting due, Or.inr ?_⟩
      rw [Fleet.setSweeper_sweeper, if_pos rfl]
      rfl
    · left
      rwa [Fleet.setSweeper_sweeper, if_neg same]
  | readClock q first time phase' => exact Or.inl (update q _ (absent q _ phase' (by simp)))
  | eval q first time now phase' =>
    left
    rwa [Fleet.setSweeper_sweeper, if_neg (absent q _ phase' (by simp))]
  | fail q => exact Or.inl (update q _ (steady.goesOn q (Or.inl rfl)).1.symm)
  | stop q => exact Or.inl (update q _ (steady.goesOn q (Or.inr rfl)).1.symm)

/-- A steady step keeps a round going, if `Q` is kept and the scripts with a reading after `start`
make it true. -/
theorem Round.step (round : Round cfg lag p start Q s) (past : ReadingsPast cfg s)
    (steady : Steady cfg lag p j s a) (nonneg : 0 ≤ lag) (next : fleetStep cfg s a = some t)
    (keep : Q s → Q t)
    (establish : ∀ q first time now, a = .eval q → s.sweeper q = .sweeping first time now →
      start < now → s.clock ≤ roundEnd cfg lag start → Q t) :
    Round cfg lag p start Q t := by
  have positive := cfg.recoveryLock_pos
  -- Whoever set the lock after `start` still has to run the script, or has made `Q` true.
  have sweep : ∀ q time, (s.sweeper q).acquired = some time → start < time →
      s.clock ≤ roundEnd cfg lag start → Q t ∨ (t.sweeper q).acquired = some time := by
    intro q time holds late bound
    rcases steady.acquired next holds with kept | ⟨first, now, script, phase, -⟩
    · exact Or.inr kept
    · have := past.now q first time now phase
      exact Or.inl (establish q first time now script phase (by omega) bound)
  refine ⟨?_, fun deadline lock late => ?_⟩
  · rcases round.swept with done | pending
    · exact Or.inl (keep done)
    have bound := pending.clock_le steady.prompt nonneg
    cases pending with
    | waiting since phase early =>
      have wakes := steady.prompt.wakes since phase
      rcases steady.waiting next phase with same | ⟨asks, due, refused | locked⟩
      · exact Or.inr (.waiting since same early)
      · obtain ⟨deadline, lock, held, phase'⟩ := refused
        by_cases early' : since ≤ start
        · exact Or.inr (.waiting s.clock phase' (by omega))
        · -- The lock was set after `p` began to wait.
          rcases round.lock deadline lock (by omega) with done | ⟨q, holds⟩
          · exact Or.inl (keep done)
          · have set := past.lock deadline lock
            rcases sweep q _ holds (by omega) bound with done | holds'
            · exact Or.inl done
            · exact Or.inr (.after q _ holds' (by omega) (by omega))
      · by_cases early' : s.clock ≤ start
        · exact Or.inr (.before s.clock locked early')
        · exact Or.inr (.after p s.clock locked (by omega) (by omega))
    | before time holds early =>
      have prompt := steady.prompt.sweeps p time holds
      rcases steady.acquired next holds with kept | ⟨first, now, -, -, phase⟩
      · exact Or.inr (.before time kept early)
      · exact Or.inr (.waiting s.clock phase (by omega))
    | after q time holds late early =>
      rcases sweep q time holds late bound with done | kept
      · exact Or.inl done
      · exact Or.inr (.after q time kept late early)
  · rcases fleetStep_lock next with same | ⟨q, -, set, lock', -⟩
    · rcases round.swept with done | pending
      · exact Or.inl (keep done)
      have bound := pending.clock_le steady.prompt nonneg
      rcases round.lock deadline (same.symm.trans lock) late with done | ⟨q, holds⟩
      · exact Or.inl (keep done)
      · rcases sweep q _ holds late bound with done | kept
        · exact Or.inl done
        · exact Or.inr ⟨q, kept⟩
    · obtain rfl := Option.some.inj (lock'.symm.trans lock)
      refine Or.inr ⟨q, set.trans (congrArg some ?_)⟩
      omega

/-- A round begins in a state before `start` in which `p` is up. -/
theorem round_start (past : ReadingsPast cfg s) (nonneg : 0 ≤ lag) (up : s.sweeper p ≠ .down)
    (started : s.sweeper p ≠ .starting) (early : s.clock ≤ start) : Round cfg lag p start Q s := by
  have positive := cfg.recoveryLock_pos
  refine ⟨Or.inr ?_, fun deadline lock late => ?_⟩
  · cases phase : s.sweeper p with
    | down => exact absurd phase up
    | starting => exact absurd phase started
    | waiting since =>
      have := past.waiting p since phase
      exact .waiting since phase (by omega)
    | locked first time | sweeping first time =>
      have holds : (s.sweeper p).acquired = some time := by rw [phase]; rfl
      have := past.acquired p time holds
      exact .before time holds (by omega)
  · have := past.lock deadline lock
    omega

/-! ## The job -/

/-- The job has an entry in the processing list, and its record is live. -/
def JobView.Abandoned (v : JobView) : Prop := 0 < v.processing ∧ v.Live

theorem JobView.Claimed.abandoned {latest : ℤ} {v : JobView} (claimed : v.Claimed latest) :
    v.Abandoned := by
  obtain ⟨listed, h, stamp, found, live, -⟩ := claimed
  exact ⟨listed, h, found, live⟩

theorem JobView.Claimed.mono {latest latest' : ℤ} {v : JobView} (claimed : v.Claimed latest)
    (le : latest ≤ latest') : v.Claimed latest' := by
  obtain ⟨listed, h, stamp, found, live, stamped, bound⟩ := claimed
  exact ⟨listed, h, stamp, found, live, stamped, bound.trans le⟩

/-- A sweep requeues an abandoned job, or leaves it with a stamp. -/
theorem SweepsJob.of_abandoned {lease now latest : ℤ} {v w : JobView} (sweep : SweepsJob lease now v w)
    (abandoned : v.Abandoned) (past : v.StampedBy latest) (le : now ≤ latest) :
    w.Waiting ∨ w.Claimed latest := by
  obtain ⟨listed, h, found, live⟩ := abandoned
  cases stamped : h.claimedAt with
  | none =>
    right
    rw [sweep.unstamped h found live stamped listed]
    exact ⟨listed, _, .numeral now, rfl, live, rfl, le⟩
  | some stamp =>
    have claimed : v.Claimed latest :=
      ⟨listed, h, stamp, found, live, stamped, past h found stamp stamped⟩
    rcases sweep.claimed claimed with moved | same
    · exact Or.inl moved.waiting
    · rw [same]
      exact Or.inr claimed

/-- A steady step leaves the job alone, unless it runs a script. -/
theorem Steady.view (steady : Steady cfg lag p j s a) (next : fleetStep cfg s a = some t) :
    ((∀ q, a ≠ .eval q) ∧ t.world.view j = s.world.view j) ∨ ∃ q first time now, a = .eval q ∧
      s.sweeper q = .sweeping first time now ∧
      SweepsJob cfg.recoveryLock now (s.world.view j) (t.world.view j) ∧
      ((s.world.view j).Waiting → (t.world.view j).Waiting) := by
  cases fleetStep_cases next with
  | work b world sweepless done =>
    exact Or.inl ⟨by simp, view_of_actedJob_ne done sweepless (steady.other b rfl)⟩
  | eval q first time now phase =>
    refine Or.inr ⟨q, first, time, now, rfl, phase, ?_, fun waiting => ?_⟩
    · exact sweepsJob_recoverScript cfg.recoveryLock_pos s.world.redis j
    · exact recover_invariant (I := JobView.Waiting) (fun _ => JobView.Waiting.recover) waiting
  | start | refused | locked | readClock | fail | stop => exact Or.inl ⟨by simp, rfl⟩

/-- The job is waiting in the queue. -/
def Requeued (j : JobId) (s : Fleet) : Prop := (s.world.view j).Waiting

/-- The job is waiting in the queue, or has a stamp by `latest`. -/
def Noticed (j : JobId) (latest : ℤ) (s : Fleet) : Prop :=
  (s.world.view j).Waiting ∨ (s.world.view j).Claimed latest

/-- Where the recovery of a job stands that was abandoned by `start`: a sweep in the first round
notices it, and one in the second round requeues it. -/
structure Recovering (cfg : QueueConfig) (lag : ℤ) (p : ℕ) (j : JobId) (start : ℤ) (s : Fleet) :
    Prop where
  past : ReadingsPast cfg s
  job : (s.world.view j).Waiting ∨ (s.world.view j).Abandoned
  first : Round cfg lag p start (Noticed j (roundEnd cfg lag start)) s
  second : Round cfg lag p (roundEnd cfg lag start + cfg.recoveryLock) (Requeued j) s

theorem Recovering.step (inv : Recovering cfg lag p j start s) (steady : Steady cfg lag p j s a)
    (nonneg : 0 ≤ lag) (next : fleetStep cfg s a = some t) : Recovering cfg lag p j start t := by
  have past := step_readingsPast inv.past next
  rcases steady.view next with ⟨scriptless, same⟩ | ⟨q, first, time, now, rfl, phase, sweep, waiting⟩
  · refine ⟨past, by rw [same]; exact inv.job, ?_, ?_⟩
    · refine inv.first.step inv.past steady nonneg next (fun noticed => ?_)
        fun q _ _ _ script => absurd script (scriptless q)
      unfold Noticed
      rwa [same]
    · refine inv.second.step inv.past steady nonneg next (fun requeued => ?_)
        fun q _ _ _ script => absurd script (scriptless q)
      unfold Requeued
      rwa [same]
  · have read := inv.past.now q first time now phase
    have swept : (t.world.view j).Waiting ∨ (t.world.view j).Claimed s.clock :=
      inv.job.elim (fun done => Or.inl (waiting done))
        fun abandoned => sweep.of_abandoned abandoned (inv.past.stamps j) read.2
    refine ⟨past, swept.imp_right (·.abandoned), ?_, ?_⟩
    · refine inv.first.step inv.past steady nonneg next (fun noticed => ?_)
        fun _ _ _ _ _ _ _ bound => swept.imp_right (·.mono bound)
      rcases noticed with done | claimed
      · exact Or.inl (waiting done)
      · rcases sweep.claimed claimed with moved | same
        · exact Or.inl moved.waiting
        · exact Or.inr (by rwa [same])
    · refine inv.second.step inv.past steady nonneg next waiting
        fun q' first' time' now' script phase' late _ => ?_
      obtain rfl := FleetAction.eval.inj script
      obtain ⟨-, -, rfl⟩ := Sweeper.sweeping.inj (phase.symm.trans phase')
      -- The first round is over, so the job has a stamp that is a lease old.
      rcases inv.first.swept with (done | claimed) | pending
      · exact waiting done
      · exact (sweep.requeued claimed (by omega)).waiting
      · have := pending.clock_le steady.prompt nonneg
        have := cfg.recoveryLock_pos
        omega

/-- From every reachable state in which a job is abandoned and a process has started to sweep
periodically, every run in which that process goes on, no sweep is given up and nobody else acts on
the job brings the job back to the queue within five leases and eight times the lag. -/
theorem abandoned_job_requeued (cfg : QueueConfig) {lag : ℤ} (nonneg : 0 ≤ lag) {p : ℕ}
    {before as : List FleetAction} {s t : Fleet} {j : JobId} {h : Record}
    (reach : (fleetMachine cfg).Run before s) (listed : j ∈ s.world.redis.processing)
    (found : s.world.redis.job j = some h) (live : h.Live) (up : s.sweeper p ≠ .down)
    (started : s.sweeper p ≠ .starting) (run : (fleetMachine cfg).exec s as = some t)
    (steady : (fleetMachine cfg).Along (Steady cfg lag p j) s as) (prompt : Prompt cfg lag p t)
    (later : s.clock + 5 * cfg.recoveryLock + 8 * lag < t.clock) : (t.world.view j).Waiting := by
  have positive := cfg.recoveryLock_pos
  have past : ReadingsPast cfg s :=
    Machine.run_invariant (m := fleetMachine cfg) (I := ReadingsPast cfg) (P := fun _ _ => True)
      (readingsPast_init cfg) (fun _ _ _ past _ next => step_readingsPast past next)
      (Machine.along_of_forall_mem fun _ _ _ => trivial) reach
  have abandoned : (s.world.view j).Abandoned := ⟨List.count_pos_iff.2 listed, h, found, live⟩
  have start : Recovering cfg lag p j s.clock s :=
    ⟨past, Or.inr abandoned, round_start past nonneg up started le_rfl,
      round_start past nonneg up started (by unfold roundEnd; omega)⟩
  have recovering : Recovering cfg lag p j s.clock t :=
    Machine.exec_invariant (m := fleetMachine cfg) (I := Recovering cfg lag p j s.clock)
      (fun _ _ _ inv steady next => inv.step steady nonneg next) start steady run
  rcases recovering.second.swept with requeued | pending
  · exact requeued
  · have := pending.clock_le prompt nonneg
    simp only [roundEnd] at this
    omega

/-- A process starts and sweeps; then a worker dies with the job it has popped. -/
def diesPopped : List FleetAction :=
  [.start 1, .setNx 1, .readClock 1, .eval 1, .work (.enqueue "job" "payload"), .work (.blmove 0),
    .work (.abandon 0)]

/-- The process asks for the lock every minute, and is refused every other time. -/
def keepsSweeping : List FleetAction :=
  [.work (.tick 60), .setNx 1, .work (.tick 60), .setNx 1, .readClock 1, .eval 1, .work (.tick 60),
    .setNx 1, .work (.tick 60), .setNx 1, .readClock 1, .eval 1, .work (.tick 60), .setNx 1,
    .work (.tick 60)]

theorem keepsSweeping_steady {s : Fleet} (reach : (fleetMachine testConfig).Run diesPopped s) :
    (fleetMachine testConfig).Along (Steady testConfig 0 1 "job") s keepsSweeping := by
  obtain rfl := Option.some.inj reach
  repeat' refine Machine.Along.cons ?_ rfl ?_
  case refine_2 => exact Machine.along_nil _
  all_goals
    refine ⟨⟨fun since phase => ?_, fun q time holds => ?_⟩, fun q gives => ?_, fun b isWork => ?_⟩
    · cases phase
      all_goals decide
    · rcases q with _ | _ | q <;> cases holds
      all_goals decide
    · rcases gives with gives | gives <;> cases gives
    · cases isWork
      all_goals decide

theorem abandoned_job_requeued_keepsSweeping :
    ∃ s t, (fleetMachine testConfig).Run diesPopped s ∧
      (fleetMachine testConfig).exec s keepsSweeping = some t ∧ t.clock = 360 ∧
      (t.world.view "job").Waiting := by
  refine ⟨_, _, rfl, rfl, rfl, @abandoned_job_requeued testConfig 0 le_rfl 1 diesPopped
    keepsSweeping _ _ "job" _ rfl (by decide) rfl ⟨.queued, rfl, rfl⟩ (by decide) (by decide) rfl
    (keepsSweeping_steady rfl) ⟨fun since phase => ?_, fun q time holds => ?_⟩ (by decide)⟩
  · cases phase
    decide
  · rcases q with _ | _ | q <;> cases holds

end Kernexys.Queue
