import Kernexys.Queue.Redated

/-!
# The margin of the recovery lease

A fleet in which a claim and the work on a job take less than given times, and no script uses too old
a reading, is safe exactly when a claim and the age of the reading fit into the lease, and a job does
(`lease_margin_iff`).  Otherwise a worker may be slow to claim a job that a script has stamped with an
old reading, or slow to finish it, and another worker gets the job meanwhile.
-/

namespace Kernexys.Queue

variable {cfg : QueueConfig} {delay claim hold : ℤ} {date : ℕ → ℤ}

/-! ## The margin suffices -/

/-- How long a worker may have been holding its job in a phase: less than `claim` up to the `HSET`, and
less than `hold` from there on. -/
def Phase.allowed (claim hold : ℤ) : Phase → ℤ
  | .claimed _ _ _ => hold
  | _ => claim

/-- No worker that has not abandoned its claim takes `claim` or longer up to its `HSET`, nor holds a
job for `hold` or longer. -/
def Fleet.HoldsWithin (claim hold : ℤ) (s : Fleet) : Prop :=
  ∀ w j since, (s.world.worker w).held = some (j, since) →
    s.clock < since + (s.world.worker w).allowed claim hold

/-- The steps of the runs considered here: no record expires, no job is held too long, and no reading
is too old. -/
structure FleetAdmitted (claim hold delay : ℤ) (s : Fleet) (a : FleetAction) : Prop where
  noExpiry : ∀ j, a ≠ .work (.expire j)
  holds : s.HoldsWithin claim hold
  reads : s.ReadsWithin delay a

/-- What the queue guarantees in a state of a fleet, as long as every step meets `P`. -/
abbrev FleetGuaranteed (cfg : QueueConfig) (P : Fleet → FleetAction → Prop) (s : Fleet) : Prop :=
  Guarantee (fleetMachine cfg) id P s

/-- A claim and the delay fit into the lease, and so does a job. -/
structure Margin (cfg : QueueConfig) (claim hold delay : ℤ) : Prop where
  claim : claim + delay ≤ cfg.recoveryLock
  hold : hold ≤ cfg.recoveryLock

section Margin

variable {s : Fleet} {a : FleetAction}

/-- With the margin, every worker is within the lease. -/
theorem Margin.punctual (margin : Margin cfg claim hold delay) (inv : FleetInv delay date s)
    (ok : FleetAdmitted claim hold delay s a) : Punctual cfg delay date s a := by
  refine ⟨ok.noExpiry, fun w j since held => ?_, ok.reads⟩
  obtain ⟨actual, holds, rfl⟩ := World.held_of_redate held
  show s.clock < _
  have within := ok.holds w j actual holds
  have short := margin.claim
  have long := margin.hold
  have dated := inv.dated w
  generalize s.world.worker w = phase at holds within dated ⊢
  cases phase with
  | idle => cases holds
  | popped | unlinking | fetched | stamping =>
    simp only [Phase.allowed, Phase.origin] at within ⊢
    omega
  | claimed i at' payload =>
    obtain ⟨-, rfl⟩ := Prod.mk.inj (Option.some.inj holds)
    have dated := dated i at' payload rfl
    simp only [Phase.allowed, Phase.origin] at within ⊢
    omega

/-- The dates after a step: a claim is dated by the reading that its `HSET` writes. -/
def Fleet.datesAfter (s : Fleet) (date : ℕ → ℤ) (w : ℕ) : ℤ :=
  match s.world.worker w with
  | .stamping _ _ _ reading => reading
  | _ => date w

/-- With the margin, every state of an admitted run has the guarantee. -/
theorem Margin.guaranteed (margin : Margin cfg claim hold delay) (nonneg : 0 ≤ delay)
    {as : List FleetAction} (run : (fleetMachine cfg).Run as s)
    (along : (fleetMachine cfg).Along (FleetAdmitted claim hold delay) Fleet.init as) :
    FleetGuaranteed cfg (FleetAdmitted claim hold delay) s := by
  have keep : ∀ s a t, (∃ date, FleetInv delay date s) → FleetAdmitted claim hold delay s a →
      fleetStep cfg s a = some t → ∃ date, FleetInv delay date t := by
    rintro s a t ⟨date, inv⟩ ok next
    refine ⟨s.datesAfter date, step_fleetInv inv nonneg (margin.punctual inv ok) next
      (fun w j since payload phase => ?_) fun w j since payload reading phase => ?_⟩
    · simp only [Fleet.datesAfter, phase]
    · simp only [Fleet.datesAfter, phase, le_refl, and_true]
      exact (inv.reading w j since payload reading phase).1
  refine guarantee_of_invariant (I := fun s => ∃ date, FleetInv delay date s) (fun _ _ _ => id) keep
    (fun s ⟨date, inv⟩ => ⟨date, inv, fun a => margin.punctual inv⟩) ?_
  exact Machine.run_invariant (m := fleetMachine cfg) (I := fun s => ∃ date, FleetInv delay date s)
    ⟨fun _ => 0, fleetInv_init delay _⟩ keep along run

end Margin

/-! ## What goes wrong without the margin -/

section Late

variable {s : Fleet} {a : FleetAction}

/-- Only worker 0 is at work. -/
structure Fleet.Single (phase : Phase) (s : Fleet) : Prop where
  first : s.world.worker 0 = phase
  idle : ∀ w, s.world.worker (w + 1) = .idle

theorem Fleet.Single.holdsWithin {phase : Phase} (single : s.Single phase)
    (within : ∀ j since, phase.held = some (j, since) →
      s.clock < since + phase.allowed claim hold) : s.HoldsWithin claim hold := by
  intro w j since held
  cases w with
  | zero =>
    rw [single.first] at held ⊢
    exact within j since held
  | succ w =>
    rw [single.idle] at held
    cases held

/-- A process that is between its `SET` and the reading has been so for `lag` at most, and one between
the reading and the script for `delay` at most. -/
def Sweeper.Within (lag delay clock : ℤ) : Sweeper → Prop
  | .down | .starting | .waiting _ => True
  | .locked _ acquired => clock ≤ acquired + lag
  | .sweeping _ _ now => clock ≤ now + delay

/-- All processes are within these bounds. -/
def Fleet.SweepsWithin (lag delay : ℤ) (s : Fleet) : Prop :=
  ∀ p, (s.sweeper p).Within lag delay s.clock

section Sweepers

variable {lag lag' delay' : ℤ}

theorem Sweeper.Within.mono {phase : Sweeper} {clock : ℤ} (within : phase.Within lag delay clock)
    (lags : lag ≤ lag') (delays : delay ≤ delay') : phase.Within lag' delay' clock := by
  cases phase with
  | down | starting | waiting => trivial
  | locked first acquired =>
    have within : clock ≤ acquired + lag := within
    show clock ≤ acquired + lag'
    omega
  | sweeping first acquired now =>
    have within : clock ≤ now + delay := within
    show clock ≤ now + delay'
    omega

theorem Fleet.sweepsWithin_of_still (still : ∀ p, (s.sweeper p).acquired = none) :
    s.SweepsWithin lag delay := by
  intro p
  have still := still p
  cases phase : s.sweeper p with
  | down | starting | waiting => trivial
  | locked | sweeping =>
    rw [phase] at still
    cases still

theorem Fleet.SweepsWithin.setSweeper (within : s.SweepsWithin lag delay) (p : ℕ) (phase : Sweeper)
    (own : phase.Within lag delay s.clock) : (s.setSweeper p phase).SweepsWithin lag delay := by
  intro q
  rw [Fleet.setSweeper_sweeper]
  split_ifs
  · exact own
  · exact within q

end Sweepers

/-- The steps of an admitted fleet whose processes read the clock soon after they have set the
lock. -/
structure Brisk (claim hold delay : ℤ) (s : Fleet) (a : FleetAction) : Prop where
  noExpiry : ∀ j, a ≠ .work (.expire j)
  holds : s.HoldsWithin claim hold
  sweeps : s.SweepsWithin 1 delay

theorem Brisk.admitted {claim' delay' : ℤ} (ok : Brisk claim hold delay s a)
    (claims : claim ≤ claim') (delays : delay ≤ delay') : FleetAdmitted claim' hold delay' s a := by
  refine ⟨ok.noExpiry, fun w j since held => ?_, fun p first acquired now _ phase => ?_⟩
  · refine (ok.holds w j since held).trans_le (Int.add_le_add_left ?_ since)
    cases s.world.worker w with
    | claimed => exact le_refl _
    | idle | popped | unlinking | fetched | stamping => exact claims
  · have within := ok.sweeps p
    rw [phase] at within
    exact le_trans within (Int.add_le_add_left delays now)

theorem fleetStep_enqueue {j : JobId} (payload : String)
    (fresh : s.world.redis.job j = none) (room : s.world.redis.queue = []) :
    fleetStep cfg s (.work (.enqueue j payload)) = some { s with
      world.redis := s.world.redis.accept j (freshRecord cfg s.clock payload)
      world.accepted := Function.update s.world.accepted j (some payload) } := by
  have space : ¬ cfg.capacity ≤ s.world.redis.queue.length := by
    have := cfg.capacity_pos
    simp only [room, List.length_nil]
    omega
  rcases enqueueScript_cases cfg s.clock j payload s.world.redis with ⟨reply, -⟩ | ⟨-, reply⟩
  · simp [enqueueScript, fresh, space] at reply
  · have reply' : enqueueScript cfg s.world.clock j payload s.world.redis = _ := reply
    simp [fleetStep, step, reply']

theorem fleetStep_blmove {w : ℕ} {j : JobId} {rest : List JobId}
    (idle : s.world.worker w = .idle) (front : s.world.redis.queue = j :: rest) :
    fleetStep cfg s (.work (.blmove w)) = some { s with
      world := { s.world with
        redis := ⟨rest, s.world.redis.processing ++ [j], s.world.redis.job⟩ }.setWorker w
          (.popped j s.clock) } := by
  have popped : s.world.redis.blmove = some (j, _) := Redis.blmove_eq_some.2 ⟨rest, front, rfl⟩
  simp only [fleetStep, step, idle, popped]
  rfl

theorem fleetStep_setNx {p : ℕ} (starting : s.sweeper p = .starting)
    (free : ∀ deadline, s.lock = some deadline → deadline < s.clock) :
    fleetStep cfg s (.setNx p) = some
      ({ s with lock := some (s.clock + cfg.recoveryLock) }.setSweeper p (.locked true s.clock)) := by
  have unheld : s.lockHeld = false := by
    rw [← Bool.not_eq_true, s.lockHeld_iff]
    rintro ⟨deadline, lock, before⟩
    exact absurd (free deadline lock) (not_lt.2 before)
  simp [fleetStep, starting, Fleet.acquire, unheld]

/-- Worker 0 holds the only job, which carries this stamp, no process is in a sweep, and none will hold
the lock when the stamp is a lease old. -/
structure SingleClaim (cfg : QueueConfig) (phase : Phase) (stamp : ℤ) (s : Fleet) : Prop where
  single : s.Single phase
  queue : s.world.redis.queue = []
  processing : s.world.redis.processing = ["job"]
  job : ∃ h, s.world.redis.job "job" = some h ∧ h.Live ∧ h.claimedAt = some (.numeral stamp)
  free : ∀ deadline, s.lock = some deadline → deadline < stamp + cfg.recoveryLock
  still : ∀ p, (s.sweeper p).acquired = none
  down : s.sweeper 1 = .down

/-- Two workers hold one job. -/
def HeldTwice (s : Fleet) : Prop :=
  ∃ since since', (s.world.worker 0).held = some ("job", since) ∧
    (s.world.worker 1).held = some ("job", since')

/-- A machine all of whose runs have the guarantee never gets there. -/
theorem not_leads_heldTwice {σ : Type} {m : Machine σ FleetAction} {fleet : σ → Fleet}
    {P : σ → FleetAction → Prop}
    (safe : ∀ as x, m.Run as x → m.Along P m.init as → Guarantee m fleet P x)
    (as : List FleetAction) : ¬ m.Leads P m.init as fun x => HeldTwice (fleet x) := by
  rintro ⟨x, along, run, since, since', first, second⟩
  have same := (safe as x run along).unique 0 1 "job" since since' first second
  omega

/-- The sweep of a list with one stranded job. -/
theorem recoverScript_stranded {strandedBefore now : ℤ} {r : Redis} {j : JobId}
    (single : r.processing = [j]) (stale : (r.view j).stranded strandedBefore = true) :
    (recoverScript strandedBefore now r).1 = r.requeue j := by
  rw [recoverScript, single, List.foldl_cons, List.foldl_nil,
    recoverEntry_of_stranded stale (by simp [single])]

section Claim

variable {phase : Phase} {stamp since : ℤ}

/-- A lease after its stamp, the claim is taken for a stranded one. -/
theorem SingleClaim.queue_sweep (claimed : SingleClaim cfg phase stamp s)
    (clock : s.clock = stamp + cfg.recoveryLock) :
    (s.sweep cfg s.clock).world.redis.queue = ["job"] := by
  obtain ⟨h, found, live, stamped⟩ := claimed.job
  have stale : (s.world.redis.view "job").stranded (s.clock - cfg.recoveryLock) = true := by
    rw [JobView.stranded_iff found live stamped, clock]
    show stamp ≤ _
    omega
  show (recoverScript _ _ s.world.redis).1.queue = _
  rw [recoverScript_stranded claimed.processing stale]
  show s.world.redis.queue ++ ["job"] = _
  rw [claimed.queue]
  rfl

/-- A process sweeps, and another worker pops the job again. -/
def nextSweep : List FleetAction := [.start 1, .setNx 1, .readClock 1, .eval 1, .work (.blmove 1)]

theorem leads_nextSweep {P : Fleet → FleetAction → Prop} (claimed : SingleClaim cfg phase stamp s)
    (clock : s.clock = stamp + cfg.recoveryLock) (held : phase.held = some ("job", since))
    (ok : ∀ t a, t.Single phase → t.clock = s.clock → t.SweepsWithin 0 0 →
      (∀ j, a ≠ .work (.expire j)) → P t a) :
    (fleetMachine cfg).Leads P s nextSweep HeldTwice := by
  obtain ⟨first, idle⟩ := claimed.single
  have now : s.clock ≤ s.clock + 0 := by omega
  have start : fleetStep cfg s (.start 1) = some (s.setSweeper 1 .starting) := by
    simp [fleetStep, claimed.down]
  have starting : (s.setSweeper 1 .starting).sweeper 1 = .starting := by simp [Fleet.setSweeper]
  have sweeps : s.SweepsWithin 0 0 := Fleet.sweepsWithin_of_still claimed.still
  have started := sweeps.setSweeper 1 .starting trivial
  refine .cons (ok _ _ ⟨first, idle⟩ rfl sweeps (by simp)) start ?_
  refine .cons (ok _ _ ⟨first, idle⟩ rfl started (by simp))
    (fleetStep_setNx starting fun deadline lock => ?_) ?_
  · show deadline < s.clock
    rw [clock]
    exact claimed.free deadline lock
  have locked := started.setSweeper 1 (.locked true s.clock) now
  have sweeping := locked.setSweeper 1 (.sweeping true s.clock s.clock) now
  have done := sweeping.setSweeper 1 (.waiting s.clock) trivial
  refine .cons (ok _ _ ⟨first, idle⟩ rfl locked (by simp)) rfl ?_
  refine .cons (ok _ _ ⟨first, idle⟩ rfl sweeping (by simp)) rfl ?_
  refine .cons (ok _ _ ⟨first, idle⟩ rfl done (by simp))
    (fleetStep_blmove (idle 0) (claimed.queue_sweep clock)) (.nil ⟨since, s.clock, ?_, ?_⟩)
  · show ((Function.update s.world.worker 1 (.popped "job" s.clock)) 0).held = _
    simp [first, held]
  · show ((Function.update s.world.worker 1 (.popped "job" s.clock)) 1).held = _
    simp [Phase.held]

/-- The sweep comes `d` later. -/
def laterSweep (d : ℕ) : List FleetAction := .work (.tick d) :: nextSweep

theorem SingleClaim.tick (claimed : SingleClaim cfg phase stamp s) (d : ℕ) :
    SingleClaim cfg phase stamp { s with world.clock := s.world.clock + d } :=
  ⟨⟨claimed.single.first, claimed.single.idle⟩, claimed.queue, claimed.processing, claimed.job,
    claimed.free, claimed.still, claimed.down⟩

theorem leads_laterSweep {d : ℕ} (claimed : SingleClaim cfg phase stamp s)
    (clock : s.clock + d = stamp + cfg.recoveryLock) (held : phase.held = some ("job", since))
    (within : stamp + cfg.recoveryLock < since + phase.allowed claim hold) :
    (fleetMachine cfg).Leads (Brisk claim hold 0) s (laterSweep d) HeldTwice := by
  have brisk {t : Fleet} {a : FleetAction} (single : t.Single phase)
      (clock : t.clock ≤ stamp + cfg.recoveryLock) (sweeps : t.SweepsWithin 0 0)
      (noExpiry : ∀ j, a ≠ .work (.expire j)) : Brisk claim hold 0 t a := by
    refine ⟨noExpiry, single.holdsWithin fun j since' held' => ?_,
      fun p => (sweeps p).mono Int.one_nonneg le_rfl⟩
    obtain ⟨-, rfl⟩ := Prod.mk.inj (Option.some.inj (held.symm.trans held'))
    exact clock.trans_lt within
  refine .cons (brisk claimed.single (by omega) (Fleet.sweepsWithin_of_still claimed.still)
    (by simp)) rfl ?_
  refine leads_nextSweep (claimed.tick d) clock held fun t a single same sweeps noExpiry => ?_
  exact brisk single (same.trans clock).le sweeps noExpiry

end Claim

/-- One process reads the clock and delays its script by `age`, while a worker pops a job. -/
def lateScript (age : ℕ) : List FleetAction :=
  [.start 0, .setNx 0, .work (.tick 1), .readClock 0, .work (.tick age),
    .work (.enqueue "job" "payload"), .work (.blmove 0), .eval 0]

/-- The script has stamped the job with a reading from before its `BLMOVE`. -/
theorem leads_lateScript (cfg : QueueConfig) (hold : ℤ) (age : ℕ) :
    (fleetMachine cfg).Leads (Brisk 1 hold age) Fleet.init (lateScript age) fun s =>
      SingleClaim cfg (.popped "job" (1 + age)) 1 s ∧ s.clock = 1 + age := by
  have brisk {s : Fleet} {a : FleetAction} {phase : Phase} (first : s.world.worker 0 = phase)
      (idle : ∀ w, s.world.worker (w + 1) = .idle)
      (own : (s.sweeper 0).Within 1 age s.clock) (others : ∀ p, s.sweeper (p + 1) = .down)
      (within : ∀ j since, phase.held = some (j, since) → s.clock < since + phase.allowed 1 hold)
      (noExpiry : ∀ j, a ≠ .work (.expire j)) : Brisk 1 hold age s a := by
    refine ⟨noExpiry, Fleet.Single.holdsWithin ⟨first, idle⟩ within, fun p => ?_⟩
    cases p with
    | zero => exact own
    | succ p =>
      rw [others]
      trivial
  have quiet {s : Fleet} {a : FleetAction} (first : s.world.worker 0 = .idle)
      (idle : ∀ w, s.world.worker (w + 1) = .idle) (own : (s.sweeper 0).Within 1 age s.clock)
      (others : ∀ p, s.sweeper (p + 1) = .down) (noExpiry : ∀ j, a ≠ .work (.expire j)) :
      Brisk 1 hold age s a := brisk first idle own others (fun _ _ held => nomatch held) noExpiry
  have start : (0 : ℤ) ≤ 0 + 1 := by omega
  have early : (0 : ℤ) + 1 ≤ 0 + 1 + age := by omega
  refine .cons (quiet rfl (fun _ => rfl) trivial (fun _ => rfl) (by simp)) rfl ?_
  refine .cons (quiet rfl (fun _ => rfl) trivial (fun _ => rfl) (by simp)) rfl ?_
  refine .cons (quiet rfl (fun _ => rfl) start (fun _ => rfl) (by simp)) rfl ?_
  refine .cons (quiet rfl (fun _ => rfl) (le_refl (0 + 1 : ℤ)) (fun _ => rfl) (by simp)) rfl ?_
  refine .cons (quiet rfl (fun _ => rfl) early (fun _ => rfl) (by simp)) rfl ?_
  have late : (0 : ℤ) + 1 + age ≤ 0 + 1 + age := le_refl _
  refine .cons (quiet rfl (fun _ => rfl) late (fun _ => rfl) (by simp))
    (fleetStep_enqueue _ rfl rfl) ?_
  refine .cons (quiet rfl (fun _ => rfl) late (fun _ => rfl) (by simp)) rfl ?_
  refine .cons (brisk rfl (fun _ => rfl) late (fun _ => rfl) (fun j since held => ?_) (by simp)) rfl
    (.nil ⟨?_, rfl⟩)
  · obtain ⟨-, rfl⟩ := Prod.mk.inj (Option.some.inj held)
    exact Int.lt_add_one_of_le (le_refl _)
  · refine ⟨⟨rfl, fun _ => rfl⟩, rfl, rfl, ⟨_, rfl, ⟨.queued, rfl, rfl⟩, rfl⟩,
      fun deadline lock => ?_, fun p => ?_, rfl⟩
    · obtain rfl := Option.some.inj lock
      show (0 : ℤ) + cfg.recoveryLock < 1 + cfg.recoveryLock
      omega
    · cases p <;> rfl

/-- A worker claims a job at once. -/
def promptClaim : List FleetAction :=
  [.work (.enqueue "job" "payload"), .work (.blmove 0), .work (.hgetall 0), .work (.readClock 0),
    .work (.hset 0)]

theorem leads_promptClaim (cfg : QueueConfig) (hold : ℤ) :
    (fleetMachine cfg).Leads (Brisk 1 hold 0) Fleet.init promptClaim fun s =>
      SingleClaim cfg (.claimed "job" 0 "payload") 0 s ∧ s.clock = 0 := by
  have brisk {s : Fleet} {a : FleetAction} (phase : Phase) (first : s.world.worker 0 = phase)
      (idle : ∀ w, s.world.worker (w + 1) = .idle) (down : ∀ p, s.sweeper p = .down)
      (within : ∀ j since, phase.held = some (j, since) → s.clock < since + phase.allowed 1 hold)
      (noExpiry : ∀ j, a ≠ .work (.expire j)) : Brisk 1 hold 0 s a := by
    refine ⟨noExpiry, Fleet.Single.holdsWithin ⟨first, idle⟩ within, fun p => ?_⟩
    rw [down]
    trivial
  have now {j : JobId} {since : ℤ} (held : some ("job", 0) = some (j, since)) :
      (0 : ℤ) < since + 1 := by
    obtain ⟨-, rfl⟩ := Prod.mk.inj (Option.some.inj held)
    omega
  refine .cons (brisk .idle rfl (fun _ => rfl) (fun _ => rfl) (fun _ _ held => nomatch held)
    (by simp)) (fleetStep_enqueue _ rfl rfl) ?_
  refine .cons (brisk .idle rfl (fun _ => rfl) (fun _ => rfl) (fun _ _ held => nomatch held)
    (by simp)) rfl ?_
  refine .cons (brisk (.popped "job" 0) rfl (fun _ => rfl) (fun _ => rfl) (fun _ _ => now)
    (by simp)) rfl ?_
  refine .cons (brisk (.fetched "job" 0 (some "payload")) rfl (fun _ => rfl) (fun _ => rfl)
    (fun _ _ => now) (by simp)) rfl ?_
  refine .cons (brisk (.stamping "job" 0 (some "payload") 0) rfl (fun _ => rfl) (fun _ => rfl)
    (fun _ _ => now) (by simp)) rfl (.nil ⟨?_, rfl⟩)
  refine ⟨⟨rfl, fun _ => rfl⟩, rfl, rfl, ⟨_, rfl, ⟨.running, rfl, rfl⟩, rfl⟩, fun deadline lock => ?_,
    fun _ => rfl, rfl⟩
  cases lock

end Late

/-! ## The margin -/

/-- A fleet in which no worker takes `claim` or longer to claim a job or holds it for `hold` or longer,
and no script uses a reading older than `delay`, guarantees what the recovery lease promises exactly
when a claim and the delay fit into the lease, and a job does. -/
theorem lease_margin_iff (cfg : QueueConfig) {claim hold delay : ℤ} (positive : 0 < claim)
    (nonneg : 0 ≤ delay) :
    (∀ as s, (fleetMachine cfg).Run as s →
      (fleetMachine cfg).Along (FleetAdmitted claim hold delay) Fleet.init as →
        FleetGuaranteed cfg (FleetAdmitted claim hold delay) s) ↔
      claim + delay ≤ cfg.recoveryLock ∧ hold ≤ cfg.recoveryLock := by
  constructor
  · intro safe
    have never := not_leads_heldTwice safe
    have lease := cfg.recoveryLock_pos
    constructor
    · by_contra slow
      -- A delay beyond the lease is no worse than one of a lease.
      obtain ⟨age, least⟩ : ∃ age : ℕ, (age : ℤ) = min delay cfg.recoveryLock :=
        ⟨_, Int.toNat_of_nonneg (le_min nonneg lease.le)⟩
      have fits : (age : ℤ) ≤ delay ∧ (age : ℤ) ≤ cfg.recoveryLock ∧ cfg.recoveryLock < claim + age := by
        omega
      obtain ⟨rest, wait⟩ := Int.eq_ofNat_of_zero_le (sub_nonneg.2 fits.2.1)
      refine never (lateScript age ++ laterSweep rest) (Machine.Leads.append
        ((leads_lateScript cfg hold age).mono fun _ _ ok => ok.admitted positive fits.1)
        fun s late => ?_)
      refine Machine.Leads.mono (fun _ _ ok => Brisk.admitted ok (le_refl claim) nonneg)
        (leads_laterSweep late.1 ?_ rfl ?_)
      · rw [late.2]
        omega
      · show 1 + cfg.recoveryLock < 1 + age + claim
        omega
    · by_contra slow
      obtain ⟨rest, wait⟩ := Int.eq_ofNat_of_zero_le lease.le
      refine never (promptClaim ++ laterSweep rest) (Machine.Leads.append
        ((leads_promptClaim cfg hold).mono fun _ _ ok => ok.admitted positive nonneg)
        fun s claimed => ?_)
      refine Machine.Leads.mono (fun _ _ ok => Brisk.admitted ok (le_refl claim) nonneg)
        (leads_laterSweep claimed.1 ?_ rfl ?_)
      · rw [claimed.2, wait]
      · show 0 + cfg.recoveryLock < 0 + hold
        omega
  · rintro ⟨short, long⟩ as s run along
    have margin : Margin cfg claim hold delay := ⟨short, long⟩
    exact margin.guaranteed nonneg run along

/-- Fifteen seconds for a claim, fifty for a job and five for a script fit into a lease of a
minute. -/
theorem lease_margin_iff_testConfig :
    (0 : ℤ) < 15 ∧ (0 : ℤ) ≤ 5 ∧ ((∀ as s, (fleetMachine testConfig).Run as s →
      (fleetMachine testConfig).Along (FleetAdmitted 15 50 5) Fleet.init as →
        FleetGuaranteed testConfig (FleetAdmitted 15 50 5) s) ↔
          (15 : ℤ) + 5 ≤ testConfig.recoveryLock ∧ (50 : ℤ) ≤ testConfig.recoveryLock) :=
  ⟨by decide, by decide, lease_margin_iff testConfig (by decide) (by decide)⟩

end Kernexys.Queue
