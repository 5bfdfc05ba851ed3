import Kernexys.Queue.Fleet
import Kernexys.Queue.Sweep

/-!
# Old readings and the recovery lease

A sweep decides with a reading of the clock that may be old when the script runs, and it stamps a job
with that reading.  A job popped in between then looks older than it is, by the age of the reading at
most, until the `HSET` of its worker puts a stamp of its own.  So we date the `BLMOVE` of every worker
back by that delay, and from the `HSET` on we date its claim by the reading that the `HSET` wrote: the
redated queue keeps the invariant of the recovery lease, and a fleet whose workers stay within the
lease of these dates keeps what the lease promises (`guarantee_of_invariant`).
-/

namespace Kernexys.Queue

/-! ## Redated workers -/

/-- From when on a worker counts as holding its job: a delay before its `BLMOVE`, and from the `HSET`
on the date of its claim. -/
def Phase.origin (delay date since : ℤ) : Phase → ℤ
  | .claimed _ _ _ => date
  | _ => since - delay

/-- The phase, redated. -/
def Phase.redate (delay date : ℤ) : Phase → Phase
  | .idle => .idle
  | .popped j since => .popped j (since - delay)
  | .unlinking j since => .unlinking j (since - delay)
  | .fetched j since payload => .fetched j (since - delay) payload
  | .stamping j since payload reading => .stamping j (since - delay) payload reading
  | .claimed j _ payload => .claimed j date payload

theorem Phase.held_redate (delay date : ℤ) (phase : Phase) :
    (phase.redate delay date).held =
      phase.held.map fun held => (held.1, phase.origin delay date held.2) := by
  cases phase <;> rfl

/-- The queue, with every worker redated. -/
def World.redate (delay : ℤ) (date : ℕ → ℤ) (s : World) : World :=
  { s with worker := fun w => (s.worker w).redate delay (date w) }

variable {cfg : QueueConfig} {delay : ℤ} {date date' : ℕ → ℤ}

/-- Only the dates of claims matter. -/
theorem World.redate_congr {s : World} (same : ∀ w j since payload,
      s.worker w = .claimed j since payload → date' w = date w) :
    s.redate delay date' = s.redate delay date := by
  unfold World.redate
  congr 1
  funext w
  cases phase : s.worker w with
  | claimed j since payload => rw [same w j since payload phase]
  | idle | popped | unlinking | fetched | stamping => rfl

theorem World.redate_setWorker (s : World) (w : ℕ) (phase : Phase) :
    (s.setWorker w phase).redate delay date =
      (s.redate delay date).setWorker w (phase.redate delay (date w)) := by
  unfold World.redate World.setWorker
  congr 1
  funext i
  simp only [Function.update_apply]
  split_ifs with same
  · rw [same]
  · rfl

theorem World.redate_fetch (s : World) (date : ℕ → ℤ) (j : JobId) (since claim : ℤ) :
    (s.fetch j since).redate delay claim = (s.redate delay date).fetch j (since - delay) := by
  unfold World.fetch World.redate
  dsimp only
  cases s.redis.job j with
  | none => rfl
  | some h =>
    dsimp only
    split_ifs <;> rfl

/-- Whoever holds a job in the redated queue holds it in the queue. -/
theorem World.held_of_redate {s : World} {w : ℕ} {j : JobId} {since : ℤ}
    (held : ((s.redate delay date).worker w).held = some (j, since)) :
    ∃ actual, (s.worker w).held = some (j, actual) ∧
      since = (s.worker w).origin delay (date w) actual := by
  rw [show (s.redate delay date).worker w = (s.worker w).redate delay (date w) from rfl,
    Phase.held_redate, Option.map_eq_some_iff] at held
  obtain ⟨⟨i, actual⟩, found, same⟩ := held
  obtain ⟨rfl, rfl⟩ := Prod.mk.inj same
  exact ⟨actual, found, rfl⟩

theorem World.held_redate {s : World} {w : ℕ} {j : JobId} {since : ℤ}
    (held : (s.worker w).held = some (j, since)) :
    ((s.redate delay date).worker w).held =
      some (j, (s.worker w).origin delay (date w) since) := by
  rw [show (s.redate delay date).worker w = (s.worker w).redate delay (date w) from rfl,
    Phase.held_redate, held]
  rfl

/-- What the redating of a worker adds to a step from `s` that leads the redated queue to `u`. -/
inductive Redated (delay : ℤ) (date : ℕ → ℤ) (s u v : World) : Prop
  | same (eq : v = u)
  | popped (w : ℕ) (j : JobId) (phase : u.worker w = .popped j s.clock)
      (eq : v = u.setWorker w (.popped j (s.clock - delay)))
  | claimed (w : ℕ) (j : JobId) (since : ℤ) (payload : String) (reading : ℤ)
      (before : s.worker w = .stamping j since (some payload) reading)
      (phase : u.worker w = .claimed j (since - delay) payload)
      (record : (u.view j).record = some (stampedRecord reading (s.view j).record))
      (eq : v = u.setWorker w (.claimed j (date w) payload))

theorem Redated.redis {s u v : World} (redated : Redated delay date s u v) : v.redis = u.redis := by
  cases redated with
  | same eq => rw [eq]
  | popped w j phase eq => rw [eq]; rfl
  | claimed w j since payload reading before phase record eq => rw [eq]; rfl

theorem World.setWorker_setWorker (s : World) (w : ℕ) (p q : Phase) :
    (s.setWorker w p).setWorker w q = s.setWorker w q := by
  simp [World.setWorker]

theorem World.setWorker_self (s : World) (w : ℕ) (p : Phase) : (s.setWorker w p).worker w = p := by
  simp [World.setWorker]

/-- The redated queue takes the same steps, except that a job just popped is dated back and a job just
claimed has the date of its claim. -/
theorem step_redate (delay : ℤ) (date : ℕ → ℤ) {s t : World} {a : Action}
    (next : step cfg s a = some t) : ∃ u, step cfg (s.redate delay date) a = some u ∧
      Redated delay date s u (t.redate delay date) := by
  cases a with
  | enqueue j payload =>
    refine ⟨t.redate delay date, ?_, .same rfl⟩
    have same : enqueueScript cfg (s.redate delay date).clock j payload (s.redate delay date).redis =
        enqueueScript cfg s.clock j payload s.redis := rfl
    simp only [step, same] at next ⊢
    generalize enqueueScript cfg s.clock j payload s.redis = out at next ⊢
    obtain ⟨answer, r⟩ := out
    cases answer <;>
    · obtain rfl := Option.some.inj next
      rfl
  | blmove w =>
    cases step_cases cfg next with
    | blmove _ j rest idle front =>
      have popped : (s.redate delay date).redis.blmove =
          some (j, ⟨rest, s.redis.processing ++ [j], s.redis.job⟩) :=
        Redis.blmove_eq_some.2 ⟨rest, front, rfl⟩
      have idle' : (s.redate delay date).worker w = .idle := by
        simp only [World.redate, idle, Phase.redate]
      refine ⟨({ s.redate delay date with
        redis := ⟨rest, s.redis.processing ++ [j], s.redis.job⟩ }).setWorker w (.popped j s.clock),
        ?_, .popped w j (World.setWorker_self _ w _) ?_⟩
      · simp only [step, idle', popped]
        rfl
      · rw [World.redate_setWorker, World.setWorker_setWorker]
        rfl
  | hgetall w =>
    cases step_cases cfg next with
    | hgetall _ j since phase =>
      refine ⟨_, ?_, .same rfl⟩
      have phase' : (s.redate delay date).worker w = .popped j (since - delay) := by
        simp only [World.redate, phase, Phase.redate]
      simp only [step, phase', World.redate_setWorker, World.redate_fetch s date]
  | readClock w =>
    cases step_cases cfg next with
    | readClock _ j since payload phase =>
      refine ⟨_, ?_, .same rfl⟩
      have phase' : (s.redate delay date).worker w = .fetched j (since - delay) payload := by
        simp only [World.redate, phase, Phase.redate]
      simp only [step, phase', World.redate_setWorker]
      rfl
  | hset w =>
    cases step_cases cfg next with
    | hset _ j since payload reading phase =>
      have phase' : (s.redate delay date).worker w = .stamping j (since - delay) payload reading := by
        simp only [World.redate, phase, Phase.redate]
      cases payload with
      | none =>
        refine ⟨_, ?_, .same rfl⟩
        simp only [step, phase', World.redate_setWorker]
        rfl
      | some payload =>
        refine ⟨({ s.redate delay date with redis := s.redis.stampRunning j reading }).setWorker w
          (.claimed j (since - delay) payload), ?_,
          .claimed w j since payload reading phase (World.setWorker_self _ w _) ?_ ?_⟩
        · simp only [step, phase']
          rfl
        · exact congrArg JobView.record (view_stampRunning s.redis j reading)
        · rw [World.redate_setWorker, World.setWorker_setWorker]
          rfl
  | lrem w =>
    cases step_cases cfg next with
    | lrem _ j since phase =>
      refine ⟨_, ?_, .same rfl⟩
      have phase' : (s.redate delay date).worker w = .unlinking j (since - delay) := by
        simp only [World.redate, phase, Phase.redate]
      simp only [step, phase', World.redate_setWorker]
      rfl
  | finish w v =>
    cases step_cases cfg next with
    | finish _ _ j since payload phase =>
      refine ⟨_, ?_, .same rfl⟩
      have phase' : (s.redate delay date).worker w = .claimed j (date w) payload := by
        simp only [World.redate, phase, Phase.redate]
      simp only [step, phase', World.redate_setWorker]
      rfl
  | recover =>
    obtain rfl := Option.some.inj next
    exact ⟨_, rfl, .same rfl⟩
  | abandon w =>
    obtain rfl := Option.some.inj next
    exact ⟨_, rfl, .same (World.redate_setWorker s w .idle)⟩
  | tick d =>
    obtain rfl := Option.some.inj next
    exact ⟨_, rfl, .same rfl⟩
  | expire j =>
    cases step_cases cfg next with
    | expire _ h found ttl =>
      refine ⟨_, ?_, .same rfl⟩
      obtain ⟨deadline, expires⟩ := Option.ne_none_iff_exists'.1 ttl
      have found' : (s.redate delay date).redis.job j = some h := found
      simp only [step, found', Option.bind_some, expires]
      rfl

/-- A worker may be dated otherwise, if it holds its job safely with the new date. -/
theorem LeaseInv.redate {s : World} (inv : LeaseInv s) {w : ℕ} {j : JobId} {since since' : ℤ}
    {phase : Phase} (held : (s.worker w).held = some (j, since)) (held' : phase.held = some (j, since'))
    (safe : (s.view j).Held since' s.clock) (linked : ∀ i at', phase ≠ .unlinking i at')
    (stamped : ∀ i at' payload reading, phase ≠ .stamping i at' payload reading) :
    LeaseInv (s.setWorker w phase) := by
  have holder : ∀ i k at', ((s.setWorker w phase).worker i).held = some (k, at') →
      (s.worker i).held = some (k, at') ∨ (i = w ∧ k = j ∧ at' = since') := by
    intro i k at' holds
    rw [World.setWorker_worker] at holds
    split_ifs at holds with same
    · obtain ⟨rfl, rfl⟩ := Prod.mk.inj (Option.some.inj (held'.symm.trans holds))
      exact Or.inr ⟨same, rfl, rfl⟩
    · exact Or.inl holds
  have other : ∀ i q, (s.setWorker w phase).worker i = q → phase ≠ q → s.worker i = q := by
    intro i q is differs
    rw [World.setWorker_worker] at is
    split_ifs at is with same
    · exact absurd is differs
    · exact is
  refine ⟨inv.exact, inv.accepted, fun i k at' holds => ?_, fun i i' k at' at'' holds holds' => ?_,
    fun i k at' unlinking => ?_, fun i k at' payload reading stamping => ?_⟩
  · rcases holder i k at' holds with before | ⟨-, rfl, rfl⟩
    · exact inv.held i k at' before
    · exact safe
  · rcases holder i k at' holds with before | ⟨rfl, rfl, rfl⟩
    · rcases holder i' k at'' holds' with before' | ⟨rfl, rfl, -⟩
      · exact inv.unique i i' k at' at'' before before'
      · exact inv.unique i i' k at' since before held
    · rcases holder i' k at'' holds' with before' | ⟨rfl, -, -⟩
      · exact inv.unique i i' k since at'' held before'
      · rfl
  · exact inv.unlinking i k at' (other i _ unlinking (linked k at'))
  · exact inv.reading i k at' payload reading (other i _ stamping (stamped k at' payload reading))

theorem LeaseInv.redated {s u v : World} (inv : LeaseInv u) (redated : Redated delay date s u v)
    (nonneg : 0 ≤ delay) (clock : s.clock ≤ u.clock)
    (past : ∀ w j since payload reading, s.worker w = .stamping j since payload reading →
      date w ≤ reading ∧ reading ≤ s.clock) : LeaseInv v := by
  cases redated with
  | same eq => rwa [eq]
  | popped w j phase eq =>
    have held : (u.worker w).held = some (j, s.clock) := by rw [phase]; rfl
    obtain ⟨entry, -, stamp⟩ := inv.held w j _ held
    rw [eq]
    refine inv.redate held rfl ⟨entry, by omega, fun h found stamp' stamped => ?_⟩ (by simp) (by simp)
    obtain ⟨time, eq, fresh⟩ := stamp h found stamp' stamped
    exact ⟨time, eq, by omega⟩
  | claimed w j since payload reading before phase record eq =>
    have held : (u.worker w).held = some (j, since - delay) := by rw [phase]; rfl
    obtain ⟨fresh, read⟩ := past w j since (some payload) reading before
    rw [eq]
    refine inv.redate held rfl
      ⟨(inv.held w j _ held).entry, by omega, fun h found stamp stamped => ?_⟩ (by simp) (by simp)
    rw [record] at found
    obtain rfl := Option.some.inj found
    obtain rfl := Option.some.inj stamped
    exact ⟨reading, rfl, fresh⟩

/-! ## The invariant of a fleet -/

/-- Only a claim has a date of its own. -/
theorem Phase.claimed_or (phase : Phase) : (∃ j since payload, phase = .claimed j since payload) ∨
    ∀ delay date since, phase.origin delay date since = since - delay := by
  cases phase with
  | claimed j since payload => exact Or.inl ⟨j, since, payload, rfl⟩
  | idle | popped | unlinking | fetched | stamping => exact Or.inr fun _ _ _ => rfl

/-- A script that runs in this step uses a reading that is at most `delay` old. -/
def Fleet.ReadsWithin (delay : ℤ) (s : Fleet) (a : FleetAction) : Prop :=
  ∀ p first acquired now, a = .eval p → s.sweeper p = .sweeping first acquired now →
    s.clock ≤ now + delay

/-- The steps of the runs considered here: no record expires, every worker is within the lease of its
redated `BLMOVE` or claim, and no reading is too old. -/
structure Punctual (cfg : QueueConfig) (delay : ℤ) (date : ℕ → ℤ) (s : Fleet) (a : FleetAction) :
    Prop where
  noExpiry : ∀ j, a ≠ .work (.expire j)
  timely : Timely cfg (s.world.redate delay date)
  reads : s.ReadsWithin delay a

/-- The invariant: the redated queue meets that of the recovery lease, a claimed job is stamped and has
a date after its `BLMOVE`, and readings are past. -/
structure FleetInv (delay : ℤ) (date : ℕ → ℤ) (s : Fleet) : Prop where
  lease : LeaseInv (s.world.redate delay date)
  since : ∀ w j since, (s.world.worker w).held = some (j, since) → since ≤ s.clock
  reading : ∀ w j since payload reading, s.world.worker w = .stamping j since payload reading →
    since ≤ reading ∧ reading ≤ s.clock
  dated : ∀ w j since payload, s.world.worker w = .claimed j since payload → since ≤ date w
  stamped : ∀ w j since payload, s.world.worker w = .claimed j since payload →
    ∀ h ∈ (s.world.view j).record, h.claimedAt ≠ none
  now : ∀ p first acquired now, s.sweeper p = .sweeping first acquired now → now ≤ s.clock

theorem fleetInv_init (delay : ℤ) (date : ℕ → ℤ) : FleetInv delay date Fleet.init := by
  refine ⟨leaseInv_init, fun w j since held => ?_, fun w j since payload reading phase => ?_,
    fun w j since payload phase => ?_, fun w j since payload phase => ?_,
    fun p first acquired now phase => ?_⟩
  · cases held
  · cases phase
  · cases phase
  · cases phase
  · cases phase

theorem FleetInv.held {s : Fleet} (inv : FleetInv delay date s) {w : ℕ} {j : JobId} {since : ℤ}
    (held : (s.world.worker w).held = some (j, since)) :
    (s.world.view j).Held ((s.world.worker w).origin delay (date w) since) s.clock :=
  inv.lease.held w j _ (World.held_redate held)

/-! ## A sweep with an old reading -/

namespace JobView

theorem recover_record_ne_none {strandedBefore now : ℤ} {v : JobView}
    (found : v.record ≠ none) : (v.recover strandedBefore now).record ≠ none := by
  rcases v.recover_cases strandedBefore now with ⟨-, eq⟩ | ⟨h, -, -, cases⟩
  · rwa [eq]
  · rcases cases with ⟨-, eq⟩ | ⟨stamp, -, ⟨-, -, eq⟩ | ⟨-, eq⟩⟩
    · simp [eq]
    · simp [eq]
    · rwa [eq]

/-- An iteration leaves a job alone whose stamp is not old. -/
theorem recover_of_fresh {strandedBefore now : ℤ} {v : JobView} (live : v.Live)
    (fresh : ∀ h ∈ v.record, ∃ stamp, h.claimedAt = some stamp ∧
      strandedBefore < stamp.tonumber.getD 0) : v.recover strandedBefore now = v := by
  rcases v.recover_cases strandedBefore now with ⟨dead, -⟩ | ⟨h, found, -, cases⟩
  · exact absurd live dead
  · obtain ⟨stamp, stamped, young⟩ := fresh h found
    rcases cases with ⟨unstamped, -⟩ | ⟨stamp', stamped', ⟨old, -, -⟩ | ⟨-, eq⟩⟩
    · rw [stamped] at unstamped
      cases unstamped
    · obtain rfl := Option.some.inj (stamped.symm.trans stamped')
      omega
    · exact eq

end JobView

section Sweep

variable {s : Fleet} {p : ℕ} {first : Bool} {acquired now : ℤ}

theorem view_sweep (now : ℤ) (j : JobId) : (s.sweep cfg now).world.view j =
    (JobView.recover (now - cfg.recoveryLock) now)^[(s.world.view j).processing]
      (s.world.view j) :=
  view_recoverScript _ _ _ _

/-- The script leaves a held job where it is, and at most stamps it. -/
theorem FleetInv.sweep_held (inv : FleetInv delay date s) (ok : Punctual cfg delay date s (.eval p))
    (phase : s.sweeper p = .sweeping first acquired now) {w : ℕ} {j : JobId} {since : ℤ}
    (held : (s.world.worker w).held = some (j, since)) :
    (s.sweep cfg now).world.view j = s.world.view j ∨
      ∃ h, (s.world.view j).record = some h ∧ (s.world.worker w).origin delay (date w) since ≤ now ∧
        (s.sweep cfg now).world.view j =
          { s.world.view j with record := some { h with claimedAt := some (.numeral now) } } := by
  have past := inv.now p first acquired now phase
  have within : s.clock < _ := ok.timely w j _ (World.held_redate held)
  obtain ⟨entry, -, stamp⟩ := inv.held held
  rw [view_sweep]
  rcases (s.world.worker w).claimed_or with ⟨i, at', payload, claimed⟩ | origin
  · -- The stamp of the claim is there, and younger than the lease.
    left
    obtain ⟨live, -, once⟩ := (inv.lease.exact j).of_processing entry
    have owner : i = j := by
      rw [claimed] at held
      exact (Prod.mk.inj (Option.some.inj held)).1
    rw [show (s.world.view j).processing = 1 from once, Function.iterate_one]
    refine JobView.recover_of_fresh live fun h found => ?_
    obtain ⟨st, stamped⟩ := Option.ne_none_iff_exists'.1
      (inv.stamped w i at' payload claimed h (owner ▸ found))
    obtain ⟨reading, rfl, fresh⟩ := stamp h found st stamped
    refine ⟨_, stamped, ?_⟩
    simp only [Stamp.tonumber, Option.getD_some]
    omega
  · -- The reading is not older than the `BLMOVE` by more than the delay.
    have young := ok.reads p first acquired now rfl phase
    have popped := inv.since w j since held
    rw [origin] at stamp within ⊢
    have before : (s.world.view j).Held (since - delay) now := ⟨entry, by omega, stamp⟩
    rcases before.swept (inv.lease.exact j) (show now < since - delay + cfg.recoveryLock by omega)
      with same | ⟨h, found, same⟩
    · exact Or.inl same
    · exact Or.inr ⟨h, found, before.past, same⟩

theorem FleetInv.sweep (inv : FleetInv delay date s) (ok : Punctual cfg delay date s (.eval p))
    (phase : s.sweeper p = .sweeping first acquired now) :
    LeaseInv ((s.sweep cfg now).world.redate delay date) := by
  refine ⟨fun j => ?_, fun j known => ?_, fun w j since held => ?_, inv.lease.unique,
    inv.lease.unlinking, inv.lease.reading⟩
  · show ((s.sweep cfg now).world.view j).Exact
    rw [view_sweep]
    exact (inv.lease.exact j).swept _ _
  · show ((s.sweep cfg now).world.view j).record ≠ none
    apply recover_invariant (I := fun v => v.record ≠ none)
    · exact fun v => JobView.recover_record_ne_none
    · exact inv.lease.accepted j known
  · have before := inv.lease.held w j since held
    obtain ⟨actual, held', rfl⟩ := World.held_of_redate held
    show ((s.sweep cfg now).world.view j).Held
      ((s.world.worker w).origin delay (date w) actual) s.clock
    rcases inv.sweep_held ok phase held' with eq | ⟨h, found, fresh, eq⟩
    · rw [eq]
      exact before
    · rw [eq]
      exact before.restamp fresh rfl

/-- A claimed job stays stamped. -/
theorem FleetInv.sweep_stamped (inv : FleetInv delay date s)
    (ok : Punctual cfg delay date s (.eval p))
    (phase : s.sweeper p = .sweeping first acquired now) {w : ℕ} {j : JobId} {since : ℤ}
    {payload : String} (claimed : s.world.worker w = .claimed j since payload) :
    ∀ h ∈ ((s.sweep cfg now).world.view j).record, h.claimedAt ≠ none := by
  intro h found
  have held : (s.world.worker w).held = some (j, since) := by rw [claimed]; rfl
  rcases inv.sweep_held ok phase held with eq | ⟨h', -, -, eq⟩
  · rw [eq] at found
    exact inv.stamped w j since payload claimed h found
  · rw [eq] at found
    obtain rfl := Option.some.inj found
    simp

end Sweep

/-! ## One step -/

section Step

variable {s t : World} {a : Action}

theorem step_since (next : step cfg s a = some t)
    (past : ∀ w j since, (s.worker w).held = some (j, since) → since ≤ s.clock) {w : ℕ} {j : JobId}
    {since : ℤ} (held : (t.worker w).held = some (j, since)) : since ≤ t.clock := by
  have clock := step_clock_le next
  rcases step_held next held with before | ⟨-, rfl, -⟩
  · have := past w j since before
    omega
  · exact clock

/-- No step takes the stamp of a claimed job away. -/
theorem step_claimed_stamped (lease : LeaseInv (s.redate delay date))
    (noExpiry : ∀ j, a ≠ .expire j) (sweepless : a ≠ .recover)
    (stamped : ∀ w j since payload, s.worker w = .claimed j since payload →
      ∀ h ∈ (s.view j).record, h.claimedAt ≠ none) (next : step cfg s a = some t) {w : ℕ} {j : JobId}
    {since : ℤ} {payload : String} (phase : t.worker w = .claimed j since payload) :
    ∀ h ∈ (t.view j).record, h.claimedAt ≠ none := by
  rcases step_claimed next phase with before | ⟨isHset, reading, stamping⟩
  · have held : (s.worker w).held = some (j, since) := by rw [before]; rfl
    have safe := lease.live_of_held (World.held_redate held)
    have job := step_job next j
    generalize t.view j = v, t.accepted j = payload' at job ⊢
    cases job with
    | same | unlinked => exact stamped w j since payload before
    | created payload' isEnqueue fresh =>
      obtain ⟨⟨h, found, -⟩, -⟩ := safe
      exact absurd (found.symm.trans fresh) (by simp)
    | popped w' isBlmove queued => exact absurd safe.2.1 (Nat.pos_iff_ne_zero.1 queued)
    | stamped => simp [stampedRecord]
    | finished w' v since' payload' isFinish phase' =>
      intro h found
      obtain rfl := Option.some.inj found
      obtain ⟨⟨h, found, -⟩, -⟩ := safe
      have found : (s.view j).record = some h := found
      have kept : (finishedRecord cfg s.clock v (s.view j).record).claimedAt = h.claimedAt := by
        rw [found]
        cases v with
        | succeeded result => cases result <;> rfl
        | failed error => rfl
      rw [kept]
      exact stamped w j since payload before h found
    | swept isRecover => exact absurd isRecover sweepless
    | expired isExpire => exact absurd isExpire (noExpiry j)
  · obtain ⟨reading, record⟩ := step_stamped next (j := j) (by simp [World.stampedJob, isHset, stamping])
    intro h found
    obtain rfl := Option.some.inj (record.symm.trans found)
    simp [stampedRecord]

end Step

section Fleet

variable {s t : Fleet} {a : FleetAction}

theorem FleetInv.work {a : Action} {world : World} (inv : FleetInv delay date s) (nonneg : 0 ≤ delay)
    (ok : Punctual cfg delay date s (.work a)) (next : step cfg s.world a = some world)
    (kept : ∀ w j since payload, s.world.worker w = .claimed j since payload → date' w = date w)
    (claims : ∀ w j since payload reading, s.world.worker w = .stamping j since payload reading →
      since ≤ date' w ∧ date' w ≤ reading) : LeaseInv (world.redate delay date') := by
  have same : s.world.redate delay date' = s.world.redate delay date := World.redate_congr kept
  have admitted : Admitted cfg (s.world.redate delay date') a :=
    ⟨fun j same => ok.noExpiry j (by rw [same]), same ▸ ok.timely⟩
  obtain ⟨u, next', redated⟩ := step_redate delay date' next
  have clock : (s.world.redate delay date').clock ≤ u.clock := step_clock_le next'
  have past : ∀ w j since payload reading, s.world.worker w = .stamping j since payload reading →
      date' w ≤ reading ∧ reading ≤ s.world.clock := fun w j since payload reading phase =>
    ⟨(claims w j since payload reading phase).2, (inv.reading w j since payload reading phase).2⟩
  exact (step_leaseInv (same ▸ inv.lease) admitted next').redated redated nonneg clock past

/-- The invariant is kept, with the old dates for the claims that there are, and for a new one any
date between its `BLMOVE` and the reading that the `HSET` writes. -/
theorem step_fleetInv (inv : FleetInv delay date s) (nonneg : 0 ≤ delay)
    (ok : Punctual cfg delay date s a) (next : fleetStep cfg s a = some t)
    (kept : ∀ w j since payload, s.world.worker w = .claimed j since payload → date' w = date w)
    (claims : ∀ w j since payload reading, s.world.worker w = .stamping j since payload reading →
      since ≤ date' w ∧ date' w ≤ reading) : FleetInv delay date' t := by
  have now : ∀ p first acquired now, t.sweeper p = .sweeping first acquired now → now ≤ t.clock := by
    intro p first acquired now phase
    rcases fleetStep_sweeping next phase with before | ⟨-, rfl⟩
    · exact (inv.now p first acquired now before).trans (fleetStep_clock_le next)
    · exact fleetStep_clock_le next
  have dated : ∀ w j since payload, s.world.worker w = .claimed j since payload →
      since ≤ date' w := fun w j since payload phase =>
    (inv.dated w j since payload phase).trans_eq (kept w j since payload phase).symm
  cases fleetStep_cases next with
  | work a world sweepless done =>
    refine ⟨inv.work nonneg ok done kept claims, fun w j since => step_since done inv.since,
      fun w j since payload reading phase => ?_, fun w j since payload phase => ?_,
      fun w j since payload phase => ?_, now⟩
    · have clock : s.clock ≤ world.clock := step_clock_le done
      rcases step_stamping done phase with before | ⟨fetched, rfl⟩
      · obtain ⟨fresh, past⟩ := inv.reading w j since payload reading before
        exact ⟨fresh, past.trans clock⟩
      · exact ⟨inv.since w j since (by rw [fetched]; rfl), clock⟩
    · rcases step_claimed done phase with before | ⟨-, reading, stamping⟩
      · exact dated w j since payload before
      · exact (claims w j since (some payload) reading stamping).1
    · exact step_claimed_stamped inv.lease (fun j same => ok.noExpiry j (by rw [same])) sweepless
        inv.stamped done phase
  | eval p first acquired reading phase =>
    refine ⟨?_, inv.since, inv.reading, dated,
      fun w j since payload => inv.sweep_stamped ok phase, now⟩
    have same : (s.sweep cfg reading).world.redate delay date' =
        (s.sweep cfg reading).world.redate delay date := World.redate_congr kept
    exact same ▸ inv.sweep ok phase
  | start | refused | locked | readClock | fail | stop =>
    exact ⟨World.redate_congr (s := s.world) kept ▸ inv.lease, inv.since, inv.reading, dated,
      inv.stamped, now⟩

/-- A finished job stays finished. -/
theorem step_fleet_finishedAs {j : JobId} {o : Outcome} (inv : FleetInv delay date s)
    (ok : Punctual cfg delay date s a) (next : fleetStep cfg s a = some t)
    (finished : FinishedAs j o s.world) : FinishedAs j o t.world := by
  cases fleetStep_cases next with
  | work a world sweepless done =>
    obtain ⟨u, next', redated⟩ := step_redate delay date done
    have kept : FinishedAs j o u :=
      step_finishedAs (s := s.world.redate delay date) finished
        (fun i expires => ok.noExpiry i (by rw [expires])) inv.lease.hsetOpen inv.lease.finishOpen
        next'
    have redis : world.redis = u.redis := redated.redis
    unfold FinishedAs World.view at kept ⊢
    rwa [redis]
  | eval p first acquired now phase =>
    obtain ⟨h, found, terminal, same⟩ := finished
    have record : ((s.sweep cfg now).world.view j).record = (s.world.view j).record := by
      rw [view_sweep]
      apply JobView.recover_record_of_not_live
      exact fun live => live.not_terminal ⟨h, found, terminal⟩
    exact ⟨h, record.trans found, terminal, same⟩
  | start | refused | locked | readClock | fail | stop => exact finished

end Fleet

/-! ## Whole runs -/

/-- What the queue guarantees in a state of a machine that runs a fleet, as long as every step meets
`P`. -/
structure Guarantee {σ : Type} (m : Machine σ FleetAction) (fleet : σ → Fleet)
    (P : σ → FleetAction → Prop) (x : σ) : Prop where
  /-- An accepted job is listed once while its record is not terminal, and then not at all. -/
  listed : ∀ j, (fleet x).world.accepted j ≠ none → ∃ h, (fleet x).world.redis.job j = some h ∧
    ((fleet x).world.redis.queue ++ (fleet x).world.redis.processing).count j =
      if h.Terminal then 0 else 1
  unique : ∀ w w' j since since', ((fleet x).world.worker w).held = some (j, since) →
    ((fleet x).world.worker w').held = some (j, since') → w = w'
  /-- A script leaves a held job where it is. -/
  sweep : ∀ p y, P x (.eval p) → m.step x (.eval p) = some y →
    ∀ w j since, ((fleet x).world.worker w).held = some (j, since) →
      j ∉ (fleet y).world.redis.queue ∧
      (fleet y).world.redis.processing.count j = (fleet x).world.redis.processing.count j ∧
      ((fleet y).world.redis.job j).map Record.status =
        ((fleet x).world.redis.job j).map Record.status
  /-- A terminal record keeps its outcome. -/
  final : ∀ as y, m.Along P x as → m.exec x as = some y →
    ∀ j h, (fleet x).world.redis.job j = some h → h.Terminal →
      ∃ h', (fleet y).world.redis.job j = some h' ∧ h'.outcome = h.outcome

section Guaranteed

variable {σ : Type} {m : Machine σ FleetAction} {fleet : σ → Fleet} {P : σ → FleetAction → Prop}
  {I : σ → Prop}

/-- An invariant with dates for the claims, by which every step is punctual, is all that the guarantee
needs. -/
theorem guarantee_of_invariant
    (follows : ∀ x a y, m.step x a = some y → fleetStep cfg (fleet x) a = some (fleet y))
    (keep : ∀ x a y, I x → P x a → m.step x a = some y → I y)
    (dates : ∀ x, I x → ∃ date, FleetInv delay date (fleet x) ∧
      ∀ a, P x a → Punctual cfg delay date (fleet x) a) {x : σ} (start : I x) :
    Guarantee m fleet P x := by
  obtain ⟨date, inv, punctual⟩ := dates x start
  refine ⟨fun j => inv.lease.count_eq, fun w w' j since since' held held' => ?_,
    fun p y ok next w j since held => ?_, fun as y along run j h found terminal => ?_⟩
  · exact inv.lease.unique w w' j _ _ (World.held_redate held) (World.held_redate held')
  · have queued := (inv.lease.live_of_held (World.held_redate held)).2.1
    have moved := follows x _ y next
    generalize fleet y = t at moved ⊢
    cases fleetStep_cases moved with
    | eval _ first acquired now phase =>
      rcases inv.sweep_held (punctual _ ok) phase held with eq | ⟨h, found, -, eq⟩
      · refine ⟨List.count_eq_zero.1 ?_, congrArg JobView.processing eq,
          congrArg (fun v : JobView => v.record.map Record.status) eq⟩
        exact (congrArg JobView.queued eq).trans queued
      · have status := congrArg (fun v : JobView => v.record.map Record.status) eq
        refine ⟨List.count_eq_zero.1 ?_, congrArg JobView.processing eq, status.trans ?_⟩
        · exact (congrArg JobView.queued eq).trans queued
        · exact (congrArg (Option.map Record.status) found).symm
  · obtain ⟨-, h', found', -, same⟩ := Machine.exec_invariant (m := m) (P := P)
      (I := fun y => I y ∧ FinishedAs j h.outcome (fleet y).world)
      (fun x a y both ok next => by
        obtain ⟨date, inv, punctual⟩ := dates x both.1
        exact ⟨keep x a y both.1 ok next,
          step_fleet_finishedAs inv (punctual a ok) (follows x a y next) both.2⟩)
      ⟨start, h, found, terminal, rfl⟩ along run
    exact ⟨h', found', same⟩

end Guaranteed

end Kernexys.Queue
