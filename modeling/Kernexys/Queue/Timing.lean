import Kernexys.Config.Settings
import Kernexys.Queue.Margin

/-!
# The timeouts of a worker and its lease

`run_worker` takes twice the timeout of an inference, and half a minute at least, as the recovery
lease, and neither it nor `from_env` relates that lease to the timeout of Redis.  Every command and
every request of a worker has a timeout of its own.  If all are kept, the lease is long enough exactly
when an inference with two commands takes less, and four commands do (`worker_settings_safe_iff`): the
stamp of a claim is as old as its `HSET`, its request and its `finish`, and that of a sweep may precede
the `BLMOVE` by the time of its script.
-/

namespace Kernexys.Queue

open Kernexys.Config (Settings)

/-! ## The settings of a worker -/

section

variable (settings : Settings) (perSecond : ℕ+)

/-- Seconds on a clock that counts `perSecond` ticks per second. -/
def ticks (seconds : ℕ) : ℤ := (seconds * perSecond : ℕ)

/-- `recovery_lease_seconds` of `run_worker`. -/
def recoveryLeaseSeconds : ℕ := max (settings.asyncInferenceTimeoutSeconds * 2) 30

theorem recoveryLeaseSeconds_pos : 0 < recoveryLeaseSeconds settings :=
  lt_max_of_lt_right Nat.ofNat_pos

theorem ticks_pos {seconds : ℕ} (positive : 0 < seconds) : 0 < ticks perSecond seconds :=
  Int.natCast_pos.2 (Nat.mul_pos positive perSecond.pos)

theorem ticks_nonneg (seconds : ℕ) : 0 ≤ ticks perSecond seconds := Int.natCast_nonneg _

theorem ticks_le {m n : ℕ} (le : m ≤ n) : ticks perSecond m ≤ ticks perSecond n :=
  Int.ofNat_le.2 (Nat.mul_le_mul_right perSecond le)

theorem ticks_lt {m n : ℕ} (lt : m < n) : ticks perSecond m < ticks perSecond n :=
  Int.ofNat_lt.2 (Nat.mul_lt_mul_of_pos_right lt perSecond.pos)

theorem ticks_add (m n : ℕ) : ticks perSecond (m + n) = ticks perSecond m + ticks perSecond n := by
  unfold ticks
  rw [Nat.add_mul]
  rfl

theorem ticks_mul (m n : ℕ) : ticks perSecond (m * n) = m * ticks perSecond n := by
  unfold ticks
  rw [Nat.mul_assoc]
  rfl

/-- The queue that `run_worker` creates. -/
def workerConfig : QueueConfig where
  capacity := settings.asyncQueueCapacity
  jobTtl := settings.asyncJobTtlSeconds * perSecond
  recoveryLock := ticks perSecond (recoveryLeaseSeconds settings)
  capacity_pos := settings.asyncQueueCapacity.pos
  jobTtl_pos := (settings.asyncJobTtlSeconds * perSecond).pos
  recoveryLock_pos := ticks_pos perSecond (recoveryLeaseSeconds_pos settings)

end

/-! ## The timeouts -/

/-- When the `HGETALL` of each worker was last carried out, and when it last read the clock. -/
structure Times where
  fetched : ℕ → ℤ
  read : ℕ → ℤ

/-- The times after a step. -/
def noteTimes (s : Fleet) (a : FleetAction) (times : Times) : Times :=
  match a with
  | .work (.hgetall w) => { times with fetched := Function.update times.fetched w s.clock }
  | .work (.readClock w) => { times with read := Function.update times.read w s.clock }
  | _ => times

/-- The fleet, with these times. -/
def timedMachine (cfg : QueueConfig) : Machine (Fleet × Times) FleetAction :=
  (fleetMachine cfg).withHistory ⟨fun _ => 0, fun _ => 0⟩ noteTimes

theorem timedMachine_step {cfg : QueueConfig} {s t : Fleet} {a : FleetAction}
    (next : fleetStep cfg s a = some t) (times : Times) :
    (timedMachine cfg).step (s, times) a = some (t, noteTimes s a times) :=
  Machine.withHistory_step.2 ⟨next, rfl⟩

/-- A worker in this phase keeps to its timeouts: Redis carries out and answers every command within
`reply` of its sending, the runtime answers a request within `work`, and the worker sends the next one
as soon as it has the answer, over connections that are up. -/
def Phase.InTime (reply work fetched read clock : ℤ) : Phase → Prop
  | .idle => True
  -- The `HGETALL` is sent on the reply to the `BLMOVE`.
  | .popped _ since => clock ≤ since + reply + reply
  -- It was also sent before it was carried out; the clock is read, or the `LREM` sent, on its reply.
  | .fetched _ since _ => clock ≤ min fetched (since + reply) + reply
  | .unlinking _ since => clock ≤ min fetched (since + reply) + reply + reply
  -- The `HSET` is sent with the reading.
  | .stamping _ _ _ reading => clock ≤ reading + reply
  -- The request is sent on the reply to the `HSET`, and `finish` on the response.
  | .claimed _ _ _ => clock ≤ read + reply + work + reply

/-- The steps of a fleet that keeps to the timeouts of its settings, while no record expires. -/
structure OnTime (settings : Settings) (perSecond : ℕ+) (x : Fleet × Times) (a : FleetAction) :
    Prop where
  noExpiry : ∀ j, a ≠ .work (.expire j)
  worker : ∀ w, (x.1.world.worker w).InTime (ticks perSecond settings.redisSocketTimeoutSeconds)
    (ticks perSecond settings.asyncInferenceTimeoutSeconds) (x.2.fetched w) (x.2.read w) x.1.clock
  sweeps : x.1.SweepsWithin (ticks perSecond settings.redisSocketTimeoutSeconds)
    (ticks perSecond settings.redisSocketTimeoutSeconds)

variable {cfg : QueueConfig} {settings : Settings} {perSecond : ℕ+} {s t : Fleet} {times : Times}
  {a : FleetAction}

/-! ## What the times say -/

/-- The times fit the phase of the worker. -/
def Phase.Dated (fetched read clock : ℤ) : Phase → Prop
  | .idle => True
  | .popped _ since => since ≤ clock
  | .unlinking _ since | .fetched _ since _ => since ≤ fetched ∧ fetched ≤ clock
  | .stamping _ since _ reading => read = reading ∧ since ≤ reading
  | .claimed _ since _ => since ≤ read

theorem Phase.Dated.later {phase : Phase} {fetched read clock clock' : ℤ}
    (dated : phase.Dated fetched read clock) (le : clock ≤ clock') :
    phase.Dated fetched read clock' := by
  cases phase with
  | idle | stamping | claimed => exact dated
  | popped => exact dated.trans le
  | unlinking | fetched => exact ⟨dated.1, dated.2.trans le⟩

/-- The times fit the phases of all workers. -/
def TimesInv (s : Fleet) (times : Times) : Prop :=
  ∀ w, (s.world.worker w).Dated (times.fetched w) (times.read w) s.clock

/-- The times of a worker change only by its own `HGETALL` and its own reading. -/
theorem step_timesInv_of_noted {a : Action} {world : World} (inv : TimesInv s times)
    (next : step cfg s.world a = some world) (notFetch : ∀ w, a ≠ .hgetall w)
    (notRead : ∀ w, a ≠ .readClock w) : TimesInv { s with world := world } times := by
  intro w
  have clock : s.clock ≤ world.clock := step_clock_le next
  have before := inv w
  have own := step_worker next w
  show (world.worker w).Dated _ _ world.clock
  generalize world.worker w = phase at own ⊢
  cases own with
  | same => exact before.later clock
  | popped j rest isBlmove idle front => exact clock
  | fetched j since isHgetall => exact absurd isHgetall (notFetch w)
  | read j since payload isRead => exact absurd isRead (notRead w)
  | stamped j since payload reading isHset phase =>
    rw [phase] at before
    cases payload with
    | none => trivial
    | some payload => exact before.2.trans_eq before.1.symm
  | released => trivial

theorem step_timesInv (inv : TimesInv s times) (next : fleetStep cfg s a = some t) :
    TimesInv t (noteTimes s a times) := by
  cases fleetStep_cases next with
  | start | refused | locked | readClock | eval | fail | stop => exact inv
  | work a world sweepless done =>
    cases a with
    | hgetall w =>
      cases step_cases cfg done with
      | hgetall _ j since phase =>
        have before := inv w
        rw [phase] at before
        have popped : since ≤ s.clock := before
        intro i
        show ((s.world.setWorker w _).worker i).Dated (Function.update times.fetched w s.clock i) _
          s.clock
        rw [World.setWorker_worker]
        split_ifs with same
        · rw [same, Function.update_self]
          unfold World.fetch
          split
          · exact ⟨popped, le_refl _⟩
          · split_ifs
            · exact ⟨popped, le_refl _⟩
            · exact ⟨popped, le_refl _⟩
        · rw [Function.update_of_ne same]
          exact inv i
    | readClock w =>
      cases step_cases cfg done with
      | readClock _ j since payload phase =>
        have before := inv w
        rw [phase] at before
        obtain ⟨popped, fetched⟩ : since ≤ times.fetched w ∧ times.fetched w ≤ s.clock := before
        intro i
        show ((s.world.setWorker w _).worker i).Dated _ (Function.update times.read w s.clock i)
          s.clock
        rw [World.setWorker_worker]
        split_ifs with same
        · rw [same, Function.update_self]
          exact ⟨rfl, popped.trans fetched⟩
        · rw [Function.update_of_ne same]
          exact inv i
    | enqueue | blmove | hset | lrem | finish | recover | abandon | tick | expire =>
      exact step_timesInv_of_noted inv done (by simp) (by simp)

/-- Only a worker that has fetched its job reads the clock. -/
theorem noteTimes_read {w : ℕ} (next : fleetStep cfg s a = some t)
    (busy : ∀ j since payload, s.world.worker w ≠ .fetched j since payload) :
    (noteTimes s a times).read w = times.read w := by
  cases fleetStep_cases next with
  | start | refused | locked | readClock | eval | fail | stop => rfl
  | work a world sweepless done =>
    cases a with
    | readClock i =>
      cases step_cases cfg done with
      | readClock _ j since payload phase =>
        refine Function.update_of_ne ?_ _ _
        rintro rfl
        exact busy j since payload phase
    | enqueue | blmove | hgetall | hset | lrem | finish | recover | abandon | tick | expire => rfl

/-! ## The lease is long enough -/

/-- The invariant of a fleet that keeps to its timeouts, with `reply` for every command: it is one with
the readings as the dates of the claims, and a worker reads the clock within two replies of its
`BLMOVE`. -/
structure TimedInv (reply : ℤ) (x : Fleet × Times) : Prop where
  fleet : FleetInv reply x.2.read x.1
  times : TimesInv x.1 x.2
  reading : ∀ w j since payload reading, x.1.world.worker w = .stamping j since payload reading →
    reading ≤ since + reply + reply

theorem fleetStep_stamping {w : ℕ} {j : JobId} {since : ℤ} {payload : Option String} {reading : ℤ}
    (next : fleetStep cfg s a = some t)
    (phase : t.world.worker w = .stamping j since payload reading) :
    s.world.worker w = .stamping j since payload reading ∨
      (s.world.worker w = .fetched j since payload ∧ reading = s.clock) := by
  cases fleetStep_cases next with
  | work a world sweepless done => exact step_stamping done phase
  | start | refused | locked | readClock | eval | fail | stop => exact Or.inl phase

theorem timedInv_init (cfg : QueueConfig) (reply : ℤ) : TimedInv reply (timedMachine cfg).init :=
  ⟨fleetInv_init reply _, fun _ => trivial, fun w j since payload reading phase => by cases phase⟩

section Safe

variable {x y : Fleet × Times}

theorem TimedInv.punctual (inv : TimedInv (ticks perSecond settings.redisSocketTimeoutSeconds) x)
    (job : (settings.asyncInferenceTimeoutSeconds : ℕ) + 2 * settings.redisSocketTimeoutSeconds <
      recoveryLeaseSeconds settings)
    (claim : 4 * (settings.redisSocketTimeoutSeconds : ℕ) < recoveryLeaseSeconds settings)
    (ok : OnTime settings perSecond x a) : Punctual (workerConfig settings perSecond)
      (ticks perSecond settings.redisSocketTimeoutSeconds) x.2.read x.1 a := by
  refine ⟨ok.noExpiry, fun w j since held => ?_, fun p first acquired now _ phase => ?_⟩
  · obtain ⟨actual, holds, rfl⟩ := World.held_of_redate held
    have nonneg := ticks_nonneg perSecond settings.redisSocketTimeoutSeconds
    have job := ticks_lt perSecond job
    have claim := ticks_lt perSecond claim
    have inTime := ok.worker w
    have reading := inv.reading w
    show x.1.clock < _ + ticks perSecond (recoveryLeaseSeconds settings)
    rw [ticks_add, ticks_mul] at job
    rw [ticks_mul] at claim
    generalize x.1.world.worker w = phase at holds inTime reading ⊢
    cases phase with
    | idle => cases holds
    | popped | unlinking | fetched =>
      obtain ⟨-, rfl⟩ := Prod.mk.inj (Option.some.inj holds)
      simp only [Phase.InTime, Phase.origin] at inTime ⊢
      omega
    | stamping i at' payload read =>
      obtain ⟨-, rfl⟩ := Prod.mk.inj (Option.some.inj holds)
      have early := reading i at' payload read rfl
      simp only [Phase.InTime, Phase.origin] at inTime ⊢
      omega
    | claimed =>
      simp only [Phase.InTime, Phase.origin] at inTime ⊢
      omega
  · have within := ok.sweeps p
    rw [phase] at within
    exact within

theorem TimedInv.step {reply work : ℤ} (inv : TimedInv reply x) (nonneg : 0 ≤ reply)
    (punctual : Punctual cfg reply x.2.read x.1 a)
    (inTime : ∀ w, (x.1.world.worker w).InTime reply work (x.2.fetched w) (x.2.read w) x.1.clock)
    (next : (timedMachine cfg).step x a = some y) : TimedInv reply y := by
  obtain ⟨⟨s, times⟩, ⟨t, times'⟩⟩ := x, y
  obtain ⟨moved, rfl⟩ : fleetStep cfg s a = some t ∧ times' = noteTimes s a times :=
    Machine.withHistory_step.1 next
  refine ⟨step_fleetInv inv.fleet nonneg punctual moved (fun w j since payload phase => ?_)
    fun w j since payload reading phase => ?_, step_timesInv inv.times moved,
    fun w j since payload reading phase => ?_⟩
  · exact noteTimes_read moved (by simp [show s.world.worker w = _ from phase])
  · have dated := inv.times w
    rw [phase] at dated
    obtain ⟨read, fresh⟩ : times.read w = reading ∧ since ≤ reading := dated
    have same : (noteTimes s a times).read w = times.read w :=
      noteTimes_read moved (by simp [show s.world.worker w = _ from phase])
    show since ≤ (noteTimes s a times).read w ∧ (noteTimes s a times).read w ≤ reading
    rw [same, read]
    exact ⟨fresh, le_refl _⟩
  · rcases fleetStep_stamping moved phase with before | ⟨fetched, rfl⟩
    · exact inv.reading w j since payload reading before
    · have inTime := inTime w
      rw [fetched] at inTime
      have inTime : s.clock ≤ min (times.fetched w) (since + reply) + reply := inTime
      omega

end Safe

/-! ## The lease is too short -/

section Unsafe

/-- A brisk fleet keeps to timeouts that allow as much. -/
theorem Brisk.onTime {hold delay : ℤ} (ok : Brisk 1 hold delay s a) (dated : TimesInv s times)
    (fits : hold ≤ ticks perSecond
      (settings.asyncInferenceTimeoutSeconds + 2 * settings.redisSocketTimeoutSeconds) + 1)
    (young : delay ≤ ticks perSecond settings.redisSocketTimeoutSeconds) :
    OnTime settings perSecond (s, times) a := by
  have positive := ticks_pos perSecond settings.redisSocketTimeoutSeconds.pos
  refine ⟨ok.noExpiry, fun w => ?_, fun p => (ok.sweeps p).mono positive young⟩
  have holds := ok.holds w
  have dated := dated w
  rw [ticks_add, ticks_mul] at fits
  simp only
  generalize s.world.worker w = phase at holds dated ⊢
  cases phase with
  | idle => trivial
  | popped j since | unlinking j since | fetched j since payload
  | stamping j since payload reading | claimed j since payload =>
    have within := holds j since rfl
    simp only [Phase.allowed, Phase.Dated, Phase.InTime] at within dated ⊢
    omega

theorem Fleet.Single.onTime {phase : Phase} (single : s.Single phase)
    (inTime : phase.InTime (ticks perSecond settings.redisSocketTimeoutSeconds)
      (ticks perSecond settings.asyncInferenceTimeoutSeconds) (times.fetched 0) (times.read 0) s.clock)
    (sweeps : s.SweepsWithin 0 0) (noExpiry : ∀ j, a ≠ .work (.expire j)) :
    OnTime settings perSecond (s, times) a := by
  have nonneg := ticks_nonneg perSecond settings.redisSocketTimeoutSeconds
  refine ⟨noExpiry, fun w => ?_, fun p => (sweeps p).mono nonneg nonneg⟩
  cases w with
  | zero =>
    rw [single.first]
    exact inTime
  | succ w =>
    rw [single.idle]
    trivial

/-- The run of a brisk fleet from the start is one that keeps to the timeouts. -/
theorem leads_onTime {hold delay : ℤ} {as : List FleetAction} {Q : Fleet → Prop}
    (leads : (fleetMachine cfg).Leads (Brisk 1 hold delay) Fleet.init as Q)
    (fits : hold ≤ ticks perSecond
      (settings.asyncInferenceTimeoutSeconds + 2 * settings.redisSocketTimeoutSeconds) + 1)
    (young : delay ≤ ticks perSecond settings.redisSocketTimeoutSeconds) :
    (timedMachine cfg).Leads (OnTime settings perSecond) (timedMachine cfg).init as
      fun x => Q x.1 ∧ TimesInv x.1 x.2 :=
  leads.withHistory (fun _ => trivial) (fun _ _ _ _ => step_timesInv)
    fun _ _ _ dated ok => ok.onTime dated fits young

/-- A worker whose request and two commands do not fit into the lease may lose its job to another
while it works on it. -/
theorem leads_heldTwice_of_job (perSecond : ℕ+) (slow : recoveryLeaseSeconds settings ≤
      settings.asyncInferenceTimeoutSeconds + 2 * settings.redisSocketTimeoutSeconds) :
    ∃ as, (timedMachine (workerConfig settings perSecond)).Leads (OnTime settings perSecond)
      (timedMachine (workerConfig settings perSecond)).init as fun x => HeldTwice x.1 := by
  have lease : (workerConfig settings perSecond).recoveryLock =
      ((recoveryLeaseSeconds settings * perSecond : ℕ) : ℤ) := rfl
  have run : (fleetMachine (workerConfig settings perSecond)).Leads
      (Brisk 1 (ticks perSecond (recoveryLeaseSeconds settings) + 1) 0) Fleet.init
      (promptClaim ++ laterSweep (recoveryLeaseSeconds settings * perSecond)) HeldTwice := by
    refine (leads_promptClaim _ _).append fun s claimed => leads_laterSweep claimed.1 ?_ rfl ?_
    · rw [claimed.2, lease]
    · show 0 + (workerConfig settings perSecond).recoveryLock < 0 + (ticks perSecond _ + 1)
      rw [lease]
      exact Int.lt_add_one_of_le (le_refl _)
  have fits := ticks_le perSecond slow
  obtain ⟨x, along, reach, twice, -⟩ :=
    leads_onTime run (Int.add_le_add_right fits 1) (ticks_nonneg perSecond _)
  exact ⟨_, x, along, reach, twice⟩

/-- A worker takes `d` up to the `HGETALL`, reads the clock, and has waited `d'` since. -/
def slowClaim (d d' : ℕ) : List FleetAction :=
  [.work (.tick d), .work (.hgetall 0), .work (.readClock 0), .work (.tick d')]

theorem SingleClaim.setWorker {phase : Phase} {stamp : ℤ} (claimed : SingleClaim cfg phase stamp s)
    (phase' : Phase) :
    SingleClaim cfg phase' stamp { s with world := s.world.setWorker 0 phase' } :=
  ⟨⟨World.setWorker_self _ 0 phase', fun w => by
      rw [World.setWorker_worker, if_neg w.succ_ne_zero]
      exact claimed.single.idle w⟩, claimed.queue, claimed.processing, claimed.job, claimed.free,
    claimed.still, claimed.down⟩

theorem fleetStep_hgetall {w : ℕ} {j : JobId} {since : ℤ} {h : Record}
    (phase : s.world.worker w = .popped j since) (found : s.world.redis.job j = some h)
    (live : h.Live) : fleetStep cfg s (.work (.hgetall w)) =
      some { s with world := s.world.setWorker w (.fetched j since h.payload) } := by
  have unfinished : ¬ (h.status = some .succeeded ∨ h.status = some .failed) := by
    obtain ⟨status, eq, alive⟩ := live
    rw [eq]
    cases status <;> simp_all [Status.terminal]
  simp [fleetStep, step, phase, World.fetch, found, unfinished]

theorem fleetStep_readClock {w : ℕ} {j : JobId} {since : ℤ} {payload : Option String}
    (phase : s.world.worker w = .fetched j since payload) :
    fleetStep cfg s (.work (.readClock w)) =
      some { s with world := s.world.setWorker w (.stamping j since payload s.clock) } := by
  simp only [fleetStep, step, phase]
  rfl

/-- The claim is within its timeouts up to the reading, and the `HSET` may take its time. -/
theorem leads_slowClaim {stamp since : ℤ} {d d' : ℕ}
    (claimed : SingleClaim cfg (.popped "job" since) stamp s) (clock : s.clock = since)
    (fetches : (d : ℤ) ≤ 2 * ticks perSecond settings.redisSocketTimeoutSeconds) :
    (timedMachine cfg).Leads (OnTime settings perSecond) (s, times) (slowClaim d d') fun x =>
      ∃ payload, SingleClaim cfg (.stamping "job" since payload (since + d)) stamp x.1 ∧
        x.1.clock = since + d + d' := by
  subst clock
  obtain ⟨h, found, live, -⟩ := claimed.job
  have nonneg := ticks_nonneg perSecond settings.redisSocketTimeoutSeconds
  have onTime {phase : Phase} {s : Fleet} {times : Times} {a : FleetAction}
      (claimed : SingleClaim cfg phase stamp s)
      (inTime : phase.InTime (ticks perSecond settings.redisSocketTimeoutSeconds)
        (ticks perSecond settings.asyncInferenceTimeoutSeconds) (times.fetched 0) (times.read 0)
        s.clock)
      (noExpiry : ∀ j, a ≠ .work (.expire j)) : OnTime settings perSecond (s, times) a :=
    claimed.single.onTime inTime (Fleet.sweepsWithin_of_still claimed.still) noExpiry
  have waited := claimed.tick d
  have fetched := waited.setWorker (.fetched "job" s.clock h.payload)
  have stamping := fetched.setWorker (.stamping "job" s.clock h.payload (s.clock + d))
  refine .cons (onTime claimed ?_ (by simp)) (timedMachine_step rfl times) ?_
  · show s.clock ≤ s.clock + _ + _
    omega
  refine .cons (onTime waited ?_ (by simp))
    (timedMachine_step (fleetStep_hgetall waited.single.first found live) _) ?_
  · show s.clock + d ≤ s.clock + _ + _
    omega
  refine .cons (onTime fetched ?_ (by simp))
    (timedMachine_step (fleetStep_readClock fetched.single.first) _) ?_
  · show s.clock + d ≤ min (Function.update times.fetched 0 (s.clock + d) 0) _ + _
    rw [Function.update_self]
    omega
  refine .cons (onTime stamping ?_ (by simp)) (timedMachine_step rfl _)
    (.nil ⟨h.payload, stamping.tick d', rfl⟩)
  show s.clock + d ≤ s.clock + d + _
  omega

/-- A lease of at most four commands is one for the script, two up to the `HGETALL` and one for the
`HSET`. -/
theorem exists_shares {reply lease : ℤ} (nonneg : 0 ≤ lease) (short : lease ≤ 4 * reply) :
    ∃ age d d' : ℕ, (age : ℤ) ≤ reply ∧ (d : ℤ) ≤ 2 * reply ∧ (d' : ℤ) ≤ reply ∧
      (age + d + d' : ℤ) = lease := by
  refine ⟨(min reply lease).toNat, (min (2 * reply) (lease - min reply lease)).toNat,
    (lease - min reply lease - min (2 * reply) (lease - min reply lease)).toNat, ?_⟩
  omega

/-- A worker whose claim does not fit into the lease, with the age of a script's reading, may lose its
job before it has claimed it. -/
theorem leads_heldTwice_of_claim (perSecond : ℕ+) (slow : recoveryLeaseSeconds settings ≤
      4 * settings.redisSocketTimeoutSeconds) :
    ∃ as, (timedMachine (workerConfig settings perSecond)).Leads (OnTime settings perSecond)
      (timedMachine (workerConfig settings perSecond)).init as fun x => HeldTwice x.1 := by
  have short := ticks_le perSecond slow
  rw [ticks_mul] at short
  have lease : (workerConfig settings perSecond).recoveryLock =
      ticks perSecond (recoveryLeaseSeconds settings) := rfl
  obtain ⟨age, d, d', aged, fetches, stamps, total⟩ :=
    exists_shares (ticks_nonneg perSecond (recoveryLeaseSeconds settings)) short
  have young : (0 : ℤ) ≤ ticks perSecond
      (settings.asyncInferenceTimeoutSeconds + 2 * settings.redisSocketTimeoutSeconds) + 1 :=
    Int.le_add_one (ticks_nonneg perSecond _)
  refine ⟨lateScript age ++ (slowClaim d d' ++ nextSweep),
    (leads_onTime (leads_lateScript _ 0 age) young aged).append ?_⟩
  rintro ⟨s, times⟩ ⟨⟨claimed, clock⟩, -⟩
  refine (leads_slowClaim claimed clock fetches).append ?_
  rintro ⟨s, times⟩ ⟨payload, claimed, clock⟩
  have atLease : s.clock = 1 + (workerConfig settings perSecond).recoveryLock := by
    rw [lease, ← total, clock]
    ring
  have sweep : (fleetMachine (workerConfig settings perSecond)).Leads
      (fun t a => ∀ times, OnTime settings perSecond (t, times) a) s nextSweep HeldTwice := by
    refine leads_nextSweep claimed atLease rfl fun t a single same sweeps noExpiry times =>
      single.onTime ?_ sweeps noExpiry
    show t.clock ≤ _
    rw [same, clock]
    omega
  have timed : (timedMachine (workerConfig settings perSecond)).Leads (OnTime settings perSecond)
      (s, times) nextSweep fun x => HeldTwice x.1 ∧ True :=
    sweep.withHistory (K := fun _ _ => True) trivial (fun _ _ _ _ _ _ => trivial)
      fun _ _ times _ ok => ok times
  obtain ⟨x, along, reach, twice, -⟩ := timed
  exact ⟨x, along, reach, twice⟩

end Unsafe

/-- In a fleet with any settings, the recovery lease keeps what it promises in every run that keeps to
the timeouts exactly when an inference with two commands takes less than the lease, and four commands
do. -/
theorem worker_settings_safe_iff (settings : Settings) (perSecond : ℕ+) :
    (∀ as x, (timedMachine (workerConfig settings perSecond)).Run as x →
      (timedMachine (workerConfig settings perSecond)).Along (OnTime settings perSecond)
        (timedMachine (workerConfig settings perSecond)).init as →
      Guarantee (timedMachine (workerConfig settings perSecond)) Prod.fst
        (OnTime settings perSecond) x) ↔
      settings.asyncInferenceTimeoutSeconds + 2 * settings.redisSocketTimeoutSeconds <
          recoveryLeaseSeconds settings ∧
        4 * settings.redisSocketTimeoutSeconds < recoveryLeaseSeconds settings := by
  constructor
  · intro safe
    constructor
    · by_contra slow
      obtain ⟨as, run⟩ := leads_heldTwice_of_job perSecond (not_lt.1 slow)
      exact not_leads_heldTwice safe as run
    · by_contra slow
      obtain ⟨as, run⟩ := leads_heldTwice_of_claim perSecond (not_lt.1 slow)
      exact not_leads_heldTwice safe as run
  · rintro ⟨job, claim⟩ as x run along
    have nonneg := ticks_nonneg perSecond settings.redisSocketTimeoutSeconds
    have keep : ∀ x a y, TimedInv (ticks perSecond settings.redisSocketTimeoutSeconds) x →
        OnTime settings perSecond x a →
        (timedMachine (workerConfig settings perSecond)).step x a = some y →
        TimedInv (ticks perSecond settings.redisSocketTimeoutSeconds) y := fun x a y inv ok next =>
      inv.step nonneg (inv.punctual job claim ok) ok.worker next
    have reached := Machine.run_invariant (timedInv_init _ _) keep along run
    exact guarantee_of_invariant (fun x a y next => (Machine.withHistory_step.1 next).1) keep
      (fun x inv => ⟨x.2.read, inv.fleet, fun a ok => inv.punctual job claim ok⟩) reached

/-- The defaults fit. -/
example : (({} : Settings).asyncInferenceTimeoutSeconds + 2 * ({} : Settings).redisSocketTimeoutSeconds :
      ℕ) < recoveryLeaseSeconds {} ∧
    (4 * ({} : Settings).redisSocketTimeoutSeconds : ℕ) < recoveryLeaseSeconds {} := by decide

end Kernexys.Queue
