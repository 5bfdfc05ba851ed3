import Kernexys.Queue.Sweep

/-!
# The bound on the queue

Enqueue tests the length of the queue against the capacity, but a claim takes an entry out of the
queue and the sweep pushes it back without a test.  The queue stays within its capacity exactly when
every sweep finds room in it for all stranded jobs of the processing list (`queue_bounded_iff`).
-/

namespace Kernexys.Queue

/-! ## How the queue grows -/

/-- Enqueue pushes at most one entry, and only below the capacity. -/
theorem enqueueScript_queue (cfg : QueueConfig) (now : ℤ) (j : JobId) (payload : String) (r : Redis) :
    (enqueueScript cfg now j payload r).2.queue = r.queue ∨
      r.queue.length < cfg.capacity ∧
        (enqueueScript cfg now j payload r).2.queue = r.queue ++ [j] := by
  unfold enqueueScript
  cases r.job j with
  | some h =>
    left
    dsimp only
    split_ifs <;> rfl
  | none =>
    dsimp only
    split_ifs with full
    · exact Or.inl rfl
    · exact Or.inr ⟨not_le.1 full, rfl⟩

/-- The sweep pushes every stranded job of the processing list. -/
theorem recoverScript_queue {lease now : ℤ} (positive : 0 < lease) (r : Redis) :
    (recoverScript (now - lease) now r).1.queue =
      r.queue ++ strandedJobs (now - lease) r r.processing :=
  (foldl_recoverEntry (by omega) r.processing (r, 0) fun _ mem _ => mem).1

/-! ## The bound -/

/-- The queue is not longer than its capacity. -/
def WithinCapacity (cfg : QueueConfig) (s : World) : Prop :=
  s.redis.queue.length ≤ cfg.capacity

/-- Before a sweep, the queue has room for every stranded job of the processing list: every job there
whose record is live and carries a stamp that is a lease old. -/
def SweepFits (cfg : QueueConfig) (s : World) (a : Action) : Prop :=
  a = .recover → s.redis.queue.length + (strandedJobs (s.clock - cfg.recoveryLock) s.redis
    s.redis.processing).length ≤ cfg.capacity

theorem step_enqueue_redis {cfg : QueueConfig} {s t : World} {j : JobId} {payload : String}
    (next : step cfg s (.enqueue j payload) = some t) :
    t.redis = (enqueueScript cfg s.clock j payload s.redis).2 := by
  simp only [step] at next
  split at next
  · rename_i r reply
    obtain rfl := Option.some.inj next
    rw [reply]
  · rename_i answer r other reply
    obtain rfl := Option.some.inj next
    rw [reply]

/-- Only a sweep can take the queue over its capacity. -/
theorem step_withinCapacity {cfg : QueueConfig} {s t : World} {a : Action}
    (within : WithinCapacity cfg s) (fits : SweepFits cfg s a) (next : step cfg s a = some t) :
    WithinCapacity cfg t := by
  unfold WithinCapacity at within ⊢
  cases step_cases cfg next with
  | refused => exact within
  | created j payload fresh =>
    have script := step_enqueue_redis next
    rw [script]
    rcases enqueueScript_queue cfg s.clock j payload s.redis with same | ⟨room, pushed⟩
    · rw [same]
      exact within
    · rw [pushed, List.length_append]
      exact room
  | blmove w j rest idle front =>
    rw [front, List.length_cons] at within
    exact Nat.le_of_succ_le within
  | recover =>
    rw [recoverScript_queue cfg.recoveryLock_pos, List.length_append]
    exact fits rfl
  | hgetall | readClock | hset | lrem | finish | abandon | tick | expire => exact within

/-- The queue stays within its capacity in a run exactly when every sweep of the run finds room for the
stranded jobs. -/
theorem queue_bounded_iff (cfg : QueueConfig) {as : List Action} {u : World}
    (run : (queueMachine cfg).Run as u) :
    (queueMachine cfg).Throughout (WithinCapacity cfg) as ↔
      (queueMachine cfg).Along (SweepFits cfg) World.init as := by
  have init : WithinCapacity cfg World.init := Nat.zero_le _
  refine Machine.throughout_iff_along init
    (fun _ _ _ _ _ within fits next => step_withinCapacity within fits next)
    (fun _ s a t _ next within sweep => ?_) run
  subst sweep
  obtain rfl := Option.some.inj next
  have after : (recoverScript (s.clock - cfg.recoveryLock) s.clock s.redis).1.queue.length ≤
      cfg.capacity := within
  rwa [recoverScript_queue cfg.recoveryLock_pos, List.length_append] at after

/-- Room for one job. -/
def smallConfig : QueueConfig :=
  ⟨1, 600, 60, Nat.one_pos, testConfig.jobTtl_pos, testConfig.recoveryLock_pos⟩

/-- A worker dies with the first job, a second job takes its place in the queue, and two sweeps
bring the first job back. -/
def strandedJob : List Action :=
  [.enqueue "first" "payload", .blmove 0, .abandon 0, .enqueue "second" "payload", .recover,
    .tick 60, .recover]

theorem queue_bounded_iff_strandedJob :
    ∃ u, (queueMachine smallConfig).Run strandedJob u ∧
      ((queueMachine smallConfig).Throughout (WithinCapacity smallConfig) strandedJob ↔
        (queueMachine smallConfig).Along (SweepFits smallConfig) World.init strandedJob) :=
  ⟨_, rfl, queue_bounded_iff smallConfig rfl⟩

/-- The second sweep leaves two jobs in a queue of capacity one. -/
theorem strandedJob_exceeds_capacity :
    ∃ u, (queueMachine smallConfig).Run strandedJob u ∧ u.redis.queue = ["second", "first"] ∧
      ¬ WithinCapacity smallConfig u :=
  ⟨_, rfl, rfl, by unfold WithinCapacity; decide⟩

end Kernexys.Queue
