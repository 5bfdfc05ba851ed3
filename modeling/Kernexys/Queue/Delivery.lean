import Kernexys.Queue.Worker

/-!
# Finished jobs and lost jobs

With no record expiry and no bound on how long a worker may take, two workers can hold one job ID
after a sweep requeued it.  The claim's `HSET` and `finish` do not check the record they write, so
a finished record can be rewound and a job lost.  This file shows both on a run, and proves that
these unchecked writes are the only way: a run in which they never land on a finished record keeps
every outcome (`finished_stays_finished_iff`), and one in which the claim's `HSET` never does keeps
every live job where a claim or a sweep finds it (`live_job_findable`).
-/

namespace Kernexys.Queue

/-- No record expires in this step. -/
def NoExpiry (_ : World) (a : Action) : Prop := ∀ j, a ≠ .expire j

/-- A claim's `HSET` lands on a record that is not terminal. -/
def HsetOpen (s : World) (a : Action) : Prop :=
  ∀ j ∈ s.stampedJob a, ¬ (s.view j).Terminal

/-- The record says already what the verdict says: its status, and its result or error if it has
one. -/
def Verdict.Repeats : Verdict → Record → Prop
  | .succeeded result, h =>
    h.status = some .succeeded ∧ ∀ stored, result = some stored → h.result = some stored
  | .failed error, h => h.status = some .failed ∧ h.error = some error

/-- A `finish` lands on a record that is not terminal, or repeats the outcome it already has. -/
def FinishOpen (s : World) (a : Action) : Prop :=
  ∀ f ∈ s.finishedJob a, ∀ h ∈ (s.view f.1).record, h.Terminal → f.2.Repeats h

instance (s : World) (a : Action) : Decidable (HsetOpen s a) :=
  inferInstanceAs (Decidable (∀ j ∈ s.stampedJob a, ¬ (s.view j).Terminal))

/-! ## A finished job stays finished -/

/-- A `finish` keeps the outcome of a record exactly when it repeats it. -/
theorem Verdict.outcome_write_eq_iff (v : Verdict) (h : Record) :
    (v.write h).outcome = h.outcome ↔ v.Repeats h := by
  rcases v with (_ | result) | error
  · simp [Verdict.write, Record.outcome, Verdict.Repeats, eq_comm]
  · simp [Verdict.write, Record.outcome, Verdict.Repeats, eq_comm]
  · simp [Verdict.write, Record.outcome, Verdict.Repeats, eq_comm]

/-- The sweep does not write a record that is not live. -/
theorem JobView.recover_record_of_not_live {strandedBefore now : ℤ} {v : JobView}
    (dead : ¬ v.Live) (n : ℕ) :
    ((JobView.recover strandedBefore now)^[n] v).record = v.record := by
  refine Function.Iterate.rec (fun u : JobView => u.record = v.record) rfl (fun u same => ?_) n
  have settled : ¬ u.Live := by
    rintro ⟨h, found, live⟩
    exact dead ⟨h, same.symm.trans found, live⟩
  rw [JobView.recover_of_not_live settled]
  exact same

/-- Outside expiry and a claim's `HSET`, only a `finish` can write the record of a finished job. -/
theorem step_terminal_record {cfg : QueueConfig} {s t : World} {a : Action} {j : JobId}
    (terminal : (s.view j).Terminal) (noExpiry : NoExpiry s a) (hsetOpen : HsetOpen s a)
    (next : step cfg s a = some t) :
    (t.view j).record = (s.view j).record ∨ ∃ v, s.finishedJob a = some (j, v) ∧
      (t.view j).record = some (finishedRecord cfg s.clock v (s.view j).record) := by
  have job := step_job next j
  generalize t.view j = v, t.accepted j = payload at job ⊢
  cases job with
  | same | popped | unlinked => exact Or.inl rfl
  | created payload isEnqueue fresh =>
    obtain ⟨h, found, -⟩ := terminal
    rw [fresh] at found
    cases found
  | stamped w since payload reading isHset phase =>
    exact absurd terminal (hsetOpen j (by simp [World.stampedJob, isHset, phase]))
  | finished w v since payload isFinish phase =>
    exact Or.inr ⟨v, by simp [World.finishedJob, isFinish, phase], rfl⟩
  | swept =>
    exact Or.inl (JobView.recover_record_of_not_live (fun live => live.not_terminal terminal) _)
  | expired isExpire => exact absurd isExpire (noExpiry j)

theorem step_terminal {cfg : QueueConfig} {s t : World} {a : Action} {j : JobId}
    (terminal : (s.view j).Terminal) (noExpiry : NoExpiry s a) (hsetOpen : HsetOpen s a)
    (next : step cfg s a = some t) : (t.view j).Terminal := by
  rcases step_terminal_record terminal noExpiry hsetOpen next with kept | ⟨v, -, written⟩
  · obtain ⟨h, found, done⟩ := terminal
    exact ⟨h, kept.trans found, done⟩
  · exact ⟨_, written, finishedRecord_terminal cfg s.clock v _⟩

/-- The record of `j` is terminal and has this outcome. -/
def FinishedAs (j : JobId) (o : Outcome) (s : World) : Prop :=
  ∃ h, (s.view j).record = some h ∧ h.Terminal ∧ h.outcome = o

theorem step_finishedAs {cfg : QueueConfig} {s t : World} {a : Action} {j : JobId} {o : Outcome}
    (finished : FinishedAs j o s) (noExpiry : NoExpiry s a) (hsetOpen : HsetOpen s a)
    (finishOpen : FinishOpen s a) (next : step cfg s a = some t) : FinishedAs j o t := by
  obtain ⟨h, found, terminal, same⟩ := finished
  rcases step_terminal_record ⟨h, found, terminal⟩ noExpiry hsetOpen next with
    kept | ⟨v, isFinish, written⟩
  · exact ⟨h, kept.trans found, terminal, same⟩
  · refine ⟨_, written, finishedRecord_terminal cfg s.clock v _, ?_⟩
    rw [found]
    exact ((v.outcome_write_eq_iff h).2 (finishOpen (j, v) isFinish h found terminal)).trans same

/-- Once a record is terminal in the run, its outcome is the same in every later state. -/
def StaysFinished (cfg : QueueConfig) (as : List Action) : Prop :=
  ∀ pre mid post s t j h, as = pre ++ mid ++ post → (queueMachine cfg).Run pre s →
    (queueMachine cfg).exec s mid = some t → s.redis.job j = some h → h.Terminal →
    ∃ h', t.redis.job j = some h' ∧ h'.outcome = h.outcome

theorem StaysFinished.step {cfg : QueueConfig} {as pre post : List Action} {a : Action}
    {s t : World} (stays : StaysFinished cfg as) (split : as = pre ++ a :: post)
    (reach : (queueMachine cfg).Run pre s) (next : step cfg s a = some t) {j : JobId} {h : Record}
    (found : s.redis.job j = some h) (terminal : h.Terminal) :
    ∃ h', t.redis.job j = some h' ∧ h'.outcome = h.outcome :=
  stays pre [a] post s t j h (by simp [split]) reach
    (by rw [Machine.exec_singleton]; exact next) found terminal

/-- A run without expiry keeps every outcome exactly when no claim's `HSET` and no `finish` with
another outcome lands on a finished record. -/
theorem finished_stays_finished_iff (cfg : QueueConfig) {as : List Action} {u : World}
    (run : (queueMachine cfg).Run as u)
    (noExpiry : (queueMachine cfg).Along NoExpiry World.init as) :
    StaysFinished cfg as ↔
      (queueMachine cfg).Along (fun s a => HsetOpen s a ∧ FinishOpen s a) World.init as := by
  constructor
  · intro stays pre a post s split reach
    obtain ⟨s', t, reach', next, -, -⟩ := run.split split
    obtain rfl : s = s' := Option.some.inj (reach.symm.trans reach')
    refine ⟨?_, ?_⟩
    · rintro j stamped ⟨h, found, terminal⟩
      obtain ⟨h', found', same⟩ := stays.step split reach next found terminal
      obtain ⟨reading, written⟩ := step_stamped next stamped
      obtain rfl := Option.some.inj (found'.symm.trans written)
      obtain ⟨st, hst, ht⟩ := terminal
      have rewound := congrArg Outcome.status same
      simp only [Record.outcome, stampedRecord, hst, Option.some.injEq] at rewound
      subst rewound
      cases ht
    · intro f finished h found terminal
      obtain ⟨h', found', same⟩ := stays.step split reach next found terminal
      have written := step_finished next finished
      rw [show (s.view f.1).record = some h from found] at written
      obtain rfl := Option.some.inj (found'.symm.trans written)
      exact (f.2.outcome_write_eq_iff h).1 same
  · intro open_ pre mid post s t j h split reach next found terminal
    rw [split] at noExpiry open_
    have both := (noExpiry.left.right reach).and (open_.left.right reach)
    obtain ⟨h', found', -, same⟩ := Machine.exec_invariant (I := FinishedAs j h.outcome)
      (fun s a t finished ok next => step_finishedAs finished ok.1 ok.2.1 ok.2.2 next)
      ⟨h, found, terminal, rfl⟩ both next
    exact ⟨h', found', same⟩

/-- The settings of the integration tests. -/
def testConfig : QueueConfig := ⟨100, 600, 60, by decide, by decide, by decide⟩

/-- Worker 0 stalls after its `HGETALL` until two sweeps have requeued the job; worker 1 pops it and
reads the record; then worker 0 finishes before worker 1 stamps. -/
def staleClaim : List Action :=
  [.enqueue "job" "payload", .blmove 0, .hgetall 0, .recover, .tick 60, .recover, .blmove 1,
    .hgetall 1, .readClock 0, .hset 0, .finish 0 (.succeeded (some "result")), .readClock 1, .hset 1]

theorem staleClaim_noExpiry : (queueMachine testConfig).Along NoExpiry World.init staleClaim :=
  Machine.along_of_forall_mem (by simp [staleClaim, NoExpiry])

theorem finished_stays_finished_iff_staleClaim :
    ∃ u, (queueMachine testConfig).Run staleClaim u ∧
      (StaysFinished testConfig staleClaim ↔ (queueMachine testConfig).Along
        (fun s a => HsetOpen s a ∧ FinishOpen s a) World.init staleClaim) :=
  ⟨_, rfl, finished_stays_finished_iff testConfig rfl staleClaim_noExpiry⟩

/-- The late `HSET` of worker 1 sets the finished job back to running. -/
theorem staleClaim_rewinds_finished_job :
    (∃ u, (queueMachine testConfig).Run staleClaim u) ∧
      (queueMachine testConfig).Along NoExpiry World.init staleClaim ∧
      ¬ StaysFinished testConfig staleClaim := by
  refine ⟨⟨_, rfl⟩, staleClaim_noExpiry, fun stays => ?_⟩
  obtain ⟨h, found, same⟩ := stays (staleClaim.take 11) (staleClaim.drop 11) [] _ _ "job" _ rfl rfl
    rfl rfl ⟨.succeeded, rfl, rfl⟩
  obtain rfl := Option.some.inj found
  exact absurd same (by decide)

/-! ## A live job can be found -/

/-- The ID of every record that is queued or running is in the queue, in the processing list, or
held by a worker that has not abandoned it. -/
def Findable (s : World) : Prop :=
  ∀ j h, s.redis.job j = some h → h.status = some .queued ∨ h.status = some .running →
    j ∈ s.redis.queue ∨ j ∈ s.redis.processing ∨ ∃ w since, (s.worker w).held = some (j, since)

/-- A listed ID has a record, the record has a status, and a live one is listed. -/
structure JobView.Tracked (v : JobView) : Prop where
  known : 0 < v.listed → v.record ≠ none
  status : ∀ h ∈ v.record, h.status ≠ none
  live : v.Live → 0 < v.listed

/-- A view with a live record and an entry is tracked. -/
theorem JobView.Tracked.of_live {v : JobView} {h : Record} (found : v.record = some h)
    (live : h.Live) (listed : 0 < v.listed) : v.Tracked := by
  refine ⟨fun _ => by simp [found], fun h' found' => ?_, fun _ => listed⟩
  rw [found] at found'
  obtain rfl := Option.some.inj found'
  obtain ⟨st, hst, -⟩ := live
  simp [hst]

/-- A view with a terminal record is tracked. -/
theorem JobView.Tracked.of_terminal {v : JobView} {h : Record} (found : v.record = some h)
    (terminal : h.Terminal) : v.Tracked := by
  refine ⟨fun _ => by simp [found], fun h' found' => ?_, fun live => ?_⟩
  · rw [found] at found'
    obtain rfl := Option.some.inj found'
    obtain ⟨st, hst, -⟩ := terminal
    simp [hst]
  · exact absurd ⟨h, found, terminal⟩ live.not_terminal

/-- Removing an entry of a record that is not live. -/
theorem JobView.Tracked.unlink {v : JobView} (tracked : v.Tracked) (dead : ¬ v.Live) :
    JobView.Tracked { v with processing := v.processing - 1 } := by
  refine ⟨fun pos => tracked.known ?_, tracked.status, fun live => absurd live dead⟩
  simp only [JobView.listed] at pos ⊢
  omega

theorem JobView.Tracked.recover {v : JobView} (tracked : v.Tracked) (strandedBefore now : ℤ) :
    (v.recover strandedBefore now).Tracked := by
  rcases v.recover_cases strandedBefore now with ⟨dead, eq⟩ | ⟨h, found, live, cases⟩
  · rw [eq]
    exact tracked.unlink dead
  · have pos := tracked.live ⟨h, found, live⟩
    rcases cases with ⟨-, eq⟩ | ⟨stamp, -, ⟨-, -, eq⟩ | ⟨-, eq⟩⟩
    · rw [eq]
      obtain ⟨st, hst, ht⟩ := live
      exact .of_live rfl ⟨st, hst, ht⟩ pos
    · rw [eq]
      refine .of_live rfl ⟨.queued, rfl, rfl⟩ ?_
      simp only [JobView.listed]
      omega
    · rw [eq]
      exact tracked

/-- The invariant of runs whose claims never stamp a finished record. -/
structure DeliveryInv (s : World) : Prop where
  tracked : ∀ j, (s.view j).Tracked
  held : ∀ w j since, (s.worker w).held = some (j, since) → (s.view j).record ≠ none
  unlinking : ∀ w j since, s.worker w = .unlinking j since → (s.view j).Terminal

theorem deliveryInv_init : DeliveryInv World.init := by
  refine ⟨fun j => ⟨?_, ?_, ?_⟩, ?_, ?_⟩
  · intro pos
    cases pos
  · intro h found
    cases found
  · rintro ⟨h, found, -⟩
    cases found
  · intro w j since held
    cases held
  · intro w j since phase
    cases phase

/-- A live record that is not terminal. -/
theorem JobView.Tracked.live_of_not_terminal {v : JobView} (tracked : v.Tracked)
    (found : v.record ≠ none) (open_ : ¬ v.Terminal) : v.Live := by
  obtain ⟨h, found⟩ := Option.ne_none_iff_exists'.1 found
  rcases Record.terminal_or_live (tracked.status h found) with terminal | live
  · exact absurd ⟨h, found, terminal⟩ open_
  · exact ⟨h, found, live⟩

theorem step_tracked {cfg : QueueConfig} {s t : World} {a : Action} (inv : DeliveryInv s)
    (noExpiry : NoExpiry s a) (hsetOpen : HsetOpen s a) (next : step cfg s a = some t) (j : JobId) :
    (t.view j).Tracked := by
  have tracked := inv.tracked j
  have job := step_job next j
  generalize t.view j = v, t.accepted j = payload at job ⊢
  cases job with
  | same => exact tracked
  | created payload isEnqueue fresh =>
    exact .of_live rfl (freshRecord_live cfg s.clock payload) (by simp [JobView.listed])
  | popped w isBlmove queued =>
    have total : (s.view j).queued - 1 + ((s.view j).processing + 1) = (s.view j).listed := by
      simp only [JobView.listed]
      omega
    refine ⟨fun pos => tracked.known ?_, tracked.status, fun live => ?_⟩
    · simpa only [JobView.listed, total] using pos
    · simpa only [JobView.listed, total] using tracked.live live
  | stamped w since payload reading isHset phase =>
    have open_ := hsetOpen j (by simp [World.stampedJob, isHset, phase])
    have known := inv.held w j since (by rw [phase]; rfl)
    exact .of_live rfl (stampedRecord_live reading _)
      (tracked.live (tracked.live_of_not_terminal known open_))
  | unlinked w since isLrem phase =>
    exact tracked.unlink fun live => live.not_terminal (inv.unlinking w j since phase)
  | finished w v since payload isFinish phase =>
    exact .of_terminal rfl (finishedRecord_terminal cfg s.clock v _)
  | swept isRecover =>
    exact Function.Iterate.rec _ tracked (fun v tracked => tracked.recover _ _) _
  | expired isExpire => exact absurd isExpire (noExpiry j)

/-- Records stay until they expire. -/
theorem step_record_ne_none {cfg : QueueConfig} {s t : World} {a : Action} {j : JobId}
    (found : (s.view j).record ≠ none) (noExpiry : NoExpiry s a) (next : step cfg s a = some t) :
    (t.view j).record ≠ none := by
  have job := step_job next j
  generalize t.view j = v, t.accepted j = payload at job ⊢
  cases job with
  | same | popped | unlinked => exact found
  | created | stamped | finished => simp
  | swept isRecover =>
    refine Function.Iterate.rec (fun v : JobView => v.record ≠ none) found (fun v found => ?_) _
    rcases v.recover_cases (s.clock - cfg.recoveryLock) s.clock with ⟨-, eq⟩ | ⟨h, found', -, cases⟩
    · rw [eq]
      exact found
    · rcases cases with ⟨-, eq⟩ | ⟨stamp, -, ⟨-, -, eq⟩ | ⟨-, eq⟩⟩ <;> simp [eq, found']
  | expired isExpire => exact absurd isExpire (noExpiry j)

theorem step_deliveryInv {cfg : QueueConfig} {s t : World} {a : Action} (inv : DeliveryInv s)
    (noExpiry : NoExpiry s a) (hsetOpen : HsetOpen s a) (next : step cfg s a = some t) :
    DeliveryInv t := by
  refine ⟨step_tracked inv noExpiry hsetOpen next, fun w j since held => ?_,
    fun w j since phase => ?_⟩
  · refine step_record_ne_none ?_ noExpiry next
    rcases step_held next held with before | ⟨-, -, rest, front⟩
    · exact inv.held w j since before
    · exact (inv.tracked j).known (by simp [JobView.listed, World.view, Redis.view, front])
  · refine step_terminal ?_ noExpiry hsetOpen next
    rcases step_unlinking next phase with before | ⟨popped, gone | settled⟩
    · exact inv.unlinking w j since before
    · exact absurd gone (inv.held w j since (by rw [popped]; rfl))
    · exact settled

theorem JobView.listed_view_pos {r : Redis} {j : JobId} :
    0 < (r.view j).listed ↔ j ∈ r.queue ∨ j ∈ r.processing := by
  simp only [JobView.listed, Redis.view]
  rw [← List.count_pos_iff, ← List.count_pos_iff]
  omega

/-- With workers of any speed, a run without expiry whose claims never stamp a finished record
leaves no live job where neither a claim nor a sweep finds it. -/
theorem live_job_findable (cfg : QueueConfig) {as : List Action} {s : World}
    (run : (queueMachine cfg).Run as s)
    (along : (queueMachine cfg).Along (fun s a => NoExpiry s a ∧ HsetOpen s a) World.init as) :
    Findable s := by
  have inv : DeliveryInv s := Machine.run_invariant (I := DeliveryInv) deliveryInv_init
    (fun _ _ _ inv ok next => step_deliveryInv inv ok.1 ok.2 next) along run
  intro j h found status
  have live : h.Live := by
    rcases status with st | st
    · exact ⟨_, st, rfl⟩
    · exact ⟨_, st, rfl⟩
  rcases JobView.listed_view_pos.1 ((inv.tracked j).live ⟨h, found, live⟩) with queued | processing
  · exact Or.inl queued
  · exact Or.inr (Or.inl processing)

/-- A sweep requeues the job of a worker that died, and a late `finish` of a slow one lands while
the job waits in the queue. -/
def lateFinish : List Action :=
  [.enqueue "job" "payload", .blmove 0, .hgetall 0, .readClock 0, .hset 0, .tick 60, .recover,
    .finish 0 (.succeeded (some "result")), .enqueue "next" "payload", .blmove 1, .hgetall 1, .lrem 1]

theorem live_job_findable_lateFinish :
    ∃ s, (queueMachine testConfig).Run lateFinish s ∧
      (s.redis.job "next").any (fun h => h.status = some .queued) ∧ Findable s := by
  refine ⟨_, rfl, rfl, @live_job_findable testConfig lateFinish _ rfl (.and ?_ ?_)⟩
  · exact Machine.along_of_forall_mem (by simp [lateFinish, NoExpiry])
  · exact (Machine.along_of_check (p := fun s a => decide (HsetOpen s a)) (by decide)).mono
      fun _ _ h => of_decide_eq_true h

/-- Worker 1 crashes after its late `HSET`: the job is running, and in neither list. -/
theorem staleClaim_loses_job :
    ∃ s, (queueMachine testConfig).Run (staleClaim ++ [.abandon 1]) s ∧
      (queueMachine testConfig).Along NoExpiry World.init (staleClaim ++ [.abandon 1]) ∧
      ¬ Findable s := by
  refine ⟨_, rfl, Machine.along_of_forall_mem (by simp [staleClaim, NoExpiry]), fun findable => ?_⟩
  rcases findable "job" _ rfl (Or.inr rfl) with queued | processing | ⟨w, since, held⟩
  · exact absurd queued (by decide)
  · exact absurd processing (by decide)
  · rcases w with _ | _ | w <;> cases held

end Kernexys.Queue
