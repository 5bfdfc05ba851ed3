import Kernexys.Queue.Fleet
import Kernexys.Queue.Capacity
import Kernexys.Queue.Sweep

/-!
# The order of claims

Jobs enter the queue at one end, by the enqueue script and by a sweep, and leave it at the other.  A
history of what was pushed and popped shows that claims come in the order of the pushes: no job
overtakes another, whatever the workers, the sweeps and the clients do in between
(`claims_in_order`).
-/

namespace Kernexys.Queue

/-- The job IDs that were pushed to the queue and popped from it, oldest first. -/
structure Traffic where
  pushed : List JobId := []
  popped : List JobId := []
deriving DecidableEq, Repr

/-- What a step pushes: the job that the script created, or the jobs that a sweep found stranded. -/
def Fleet.pushes (cfg : QueueConfig) (s : Fleet) : FleetAction → List JobId
  | .work (.enqueue j payload) =>
    if (enqueueScript cfg s.clock j payload s.world.redis).1 = .created then [j] else []
  | .eval p =>
    match s.sweeper p with
    | .sweeping _ _ now =>
      strandedJobs (now - cfg.recoveryLock) s.world.redis s.world.redis.processing
    | _ => []
  | _ => []

/-- What a step pops. -/
def Fleet.pops (s : Fleet) : FleetAction → List JobId
  | .work (.blmove _) => s.world.redis.queue.head?.toList
  | _ => []

/-- The traffic after a step. -/
def Traffic.note (cfg : QueueConfig) (s : Fleet) (a : FleetAction) (traffic : Traffic) : Traffic :=
  ⟨traffic.pushed ++ s.pushes cfg a, traffic.popped ++ s.pops a⟩

/-- The fleet, with its traffic. -/
def trafficMachine (cfg : QueueConfig) : Machine (Fleet × Traffic) FleetAction :=
  (fleetMachine cfg).withHistory {} (Traffic.note cfg)

theorem queue_sweep (cfg : QueueConfig) (s : Fleet) (now : ℤ) :
    (s.sweep cfg now).world.redis.queue = s.world.redis.queue ++
      strandedJobs (now - cfg.recoveryLock) s.world.redis s.world.redis.processing := by
  have positive := cfg.recoveryLock_pos
  exact (foldl_recoverEntry (by omega) s.world.redis.processing (s.world.redis, 0)
    fun _ listed _ => listed).1

/-- A step takes its pops from the front of the queue and appends its pushes. -/
theorem fleetStep_queue {cfg : QueueConfig} {s t : Fleet} {a : FleetAction}
    (next : fleetStep cfg s a = some t) :
    s.world.redis.queue ++ s.pushes cfg a = s.pops a ++ t.world.redis.queue := by
  cases fleetStep_cases next with
  | eval p first acquired now phase =>
    simp only [Fleet.pushes, phase]
    exact (queue_sweep cfg s now).symm
  | start | refused | locked | readClock | fail | stop => exact List.append_nil _
  | work a world sweepless done =>
    cases a with
    | enqueue j payload =>
      have written := step_enqueue_redis done
      show s.world.redis.queue ++ (if (enqueueScript cfg s.world.clock j payload s.world.redis).1 =
        .created then [j] else []) = world.redis.queue
      rcases enqueueScript_cases cfg s.world.clock j payload s.world.redis with
        ⟨refused, same⟩ | ⟨-, created⟩
      · rw [if_neg refused, written, same, List.append_nil]
      · rw [written, created, if_pos rfl]
        rfl
    | blmove w =>
      cases step_cases cfg done with
      | blmove _ j rest idle front =>
        simp only [Fleet.pushes, Fleet.pops, front, List.append_nil]
        rfl
    | recover => exact absurd rfl sweepless
    | hgetall w | readClock w | hset w | lrem w | finish w v | abandon w | tick d | expire j =>
      cases step_cases cfg done
      exact List.append_nil _

/-- What is in the queue and what is pushed later leaves it in that order: the job with `i` others
before it is the next one after `i` pops, and is in the queue until then. -/
theorem claims_in_order (cfg : QueueConfig) {as : List FleetAction} {s t : Fleet} {traffic : Traffic}
    (run : (trafficMachine cfg).exec (s, {}) as = some (t, traffic)) :
    s.world.redis.queue ++ traffic.pushed = traffic.popped ++ t.world.redis.queue ∧
      ∀ i j, (s.world.redis.queue ++ traffic.pushed)[i]? = some j →
        if i < traffic.popped.length then traffic.popped[i]? = some j
        else t.world.redis.queue[i - traffic.popped.length]? = some j := by
  have kept : s.world.redis.queue ++ traffic.pushed = traffic.popped ++ t.world.redis.queue := by
    refine Machine.exec_invariant (m := trafficMachine cfg) (P := fun _ _ => True)
      (I := fun u => s.world.redis.queue ++ u.2.pushed = u.2.popped ++ u.1.world.redis.queue)
      (fun u a v inv _ next => ?_) (List.append_nil _) (fun _ _ _ _ _ _ => trivial) run
    obtain ⟨next, noted⟩ := Machine.withHistory_step.1 next
    calc s.world.redis.queue ++ v.2.pushed
        = s.world.redis.queue ++ u.2.pushed ++ u.1.pushes cfg a := by
          rw [noted, List.append_assoc]
          rfl
      _ = u.2.popped ++ (u.1.world.redis.queue ++ u.1.pushes cfg a) := by
          rw [inv, List.append_assoc]
      _ = u.2.popped ++ (u.1.pops a ++ v.1.world.redis.queue) := by rw [fleetStep_queue next]
      _ = v.2.popped ++ v.1.world.redis.queue := by
          rw [noted, ← List.append_assoc]
          rfl
  refine ⟨kept, fun i j found => ?_⟩
  rw [kept, List.getElem?_append] at found
  split_ifs at found ⊢
  · exact found
  · exact found

/-- A worker pops the first of two jobs and dies; the sweeps push the job again, behind a third one. -/
def requeuedBehind : List FleetAction :=
  [.work (.enqueue "a" "payload"), .work (.enqueue "b" "payload"), .work (.blmove 0),
    .work (.abandon 0), .start 0, .setNx 0, .readClock 0, .eval 0, .work (.tick 61),
    .work (.enqueue "c" "payload"), .setNx 0, .readClock 0, .eval 0, .work (.blmove 0)]

theorem claims_in_order_requeuedBehind :
    ∃ t, (trafficMachine testConfig).exec (Fleet.init, {}) requeuedBehind =
        some (t, ⟨["a", "b", "c", "a"], ["a", "b"]⟩) ∧
      Fleet.init.world.redis.queue ++ ["a", "b", "c", "a"] =
        ["a", "b"] ++ t.world.redis.queue := by
  obtain ⟨t, run⟩ : ∃ t, (trafficMachine testConfig).exec (Fleet.init, {}) requeuedBehind =
      some (t, ⟨["a", "b", "c", "a"], ["a", "b"]⟩) := ⟨_, rfl⟩
  exact ⟨t, run, (claims_in_order testConfig run).1⟩

end Kernexys.Queue
