import Kernexys.Lib.Machine
import Kernexys.Queue.Scripts

/-!
# The queue as a machine

Any number of workers run `claim` and `finish` against one Redis, together with the enqueue script
and the recovery sweep.  `claim` is split at its commands: `BLMOVE`, `HGETALL`, and then either
`LREM` or the clock reading and the `HSET`.  A worker may abandon its claim at any point, records
may lose their TTL, and the clock advances.
-/

namespace Kernexys.Queue

/-- Where a worker stands in `claim` and `process_job`.  `since` is the clock reading at its
`BLMOVE`. -/
inductive Phase
  | idle
  /-- `BLMOVE` returned; `HGETALL` is next. -/
  | popped (j : JobId) (since : ℤ)
  /-- `HGETALL` found no record or a terminal one; `LREM` is next. -/
  | unlinking (j : JobId) (since : ℤ)
  /-- `HGETALL` found a live record with this payload field; `time.time()` is next. -/
  | fetched (j : JobId) (since : ℤ) (payload : Option String)
  /-- The clock was read as `reading`; the `HSET` is next. -/
  | stamping (j : JobId) (since : ℤ) (payload : Option String) (reading : ℤ)
  /-- `claim` returned this `ClaimedJob`; `process_job` runs until its `finish`. -/
  | claimed (j : JobId) (since : ℤ) (payload : String)
deriving DecidableEq, Repr

/-- The job ID a worker has popped and neither finished, unlinked nor abandoned, with the reading
at its `BLMOVE`. -/
def Phase.held : Phase → Option (JobId × ℤ)
  | .idle => none
  | .popped j since | .unlinking j since | .fetched j since _ | .stamping j since _ _
  | .claimed j since _ => some (j, since)

/-- What `process_job` hands to `finish`. -/
inductive Verdict
  | succeeded (result : Option String)
  | failed (error : String)
deriving DecidableEq, Repr

/-- The status that `finish` writes. -/
def Verdict.status : Verdict → Status
  | .succeeded _ => .succeeded
  | .failed _ => .failed

/-- The mapping `finish` writes: the status, and the result or the error when there is one. -/
def Verdict.write (v : Verdict) (h : Record) : Record :=
  match v with
  | .succeeded none => { h with status := some .succeeded }
  | .succeeded (some result) => { h with status := some .succeeded, result := some result }
  | .failed error => { h with status := some .failed, error := some error }

/-- `claim`'s `HSET` of status and stamp. -/
def Redis.stampRunning (r : Redis) (j : JobId) (reading : ℤ) : Redis :=
  r.hset j fun h => { h with status := some .running, claimedAt := some (.numeral reading) }

/-- The `finish` transaction: `HSET`, `EXPIRE`, `LREM`. -/
def finish (cfg : QueueConfig) (now : ℤ) (j : JobId) (v : Verdict) (r : Redis) : Redis :=
  ((r.hset j v.write).expire j (now + cfg.jobTtl)).lrem j

/-- Redis, the clock and the workers; `accepted` remembers the payload of the last enqueue of each
job that the script answered with `created`. -/
structure World where
  redis : Redis
  clock : ℤ
  worker : ℕ → Phase
  accepted : JobId → Option String

/-- An empty Redis and idle workers, at time 0. -/
def World.init : World := ⟨.empty, 0, fun _ => .idle, fun _ => none⟩

/-- The atomic steps. -/
inductive Action
  | enqueue (j : JobId) (payload : String)
  | blmove (w : ℕ)
  | hgetall (w : ℕ)
  | readClock (w : ℕ)
  | hset (w : ℕ)
  | lrem (w : ℕ)
  | finish (w : ℕ) (v : Verdict)
  | recover
  | abandon (w : ℕ)
  | tick (d : ℕ)
  | expire (j : JobId)
deriving DecidableEq, Repr

namespace World

/-- The queue with one worker in another phase. -/
def setWorker (s : World) (w : ℕ) (p : Phase) : World :=
  { s with worker := Function.update s.worker w p }

/-- The branch of `claim` on what `HGETALL` returned. -/
def fetch (s : World) (j : JobId) (since : ℤ) : Phase :=
  match s.redis.job j with
  | none => .unlinking j since
  | some h =>
    if h.status = some .succeeded ∨ h.status = some .failed then .unlinking j since
    else .fetched j since h.payload

/-- The last line of `claim`: a record without a payload raises, and the claim is given up. -/
def claimedJob (j : JobId) (since : ℤ) : Option String → Phase
  | some payload => .claimed j since payload
  | none => .idle

end World

/-- One atomic step; `none` when the action is not enabled. -/
def step (cfg : QueueConfig) (s : World) : Action → Option World
  | .enqueue j payload =>
    match enqueueScript cfg s.clock j payload s.redis with
    | (.created, r) =>
      some { s with redis := r, accepted := Function.update s.accepted j (some payload) }
    | (_, r) => some { s with redis := r }
  | .blmove w =>
    match s.worker w, s.redis.blmove with
    | .idle, some (j, r) => some ({ s with redis := r }.setWorker w (.popped j s.clock))
    | _, _ => none
  | .hgetall w =>
    match s.worker w with
    | .popped j since => some (s.setWorker w (s.fetch j since))
    | _ => none
  | .readClock w =>
    match s.worker w with
    | .fetched j since payload => some (s.setWorker w (.stamping j since payload s.clock))
    | _ => none
  | .hset w =>
    match s.worker w with
    | .stamping j since payload reading =>
      some ({ s with redis := s.redis.stampRunning j reading }.setWorker w
        (World.claimedJob j since payload))
    | _ => none
  | .lrem w =>
    match s.worker w with
    | .unlinking j _ => some ({ s with redis := s.redis.lrem j }.setWorker w .idle)
    | _ => none
  | .finish w v =>
    match s.worker w with
    | .claimed j _ _ =>
      some ({ s with redis := finish cfg s.clock j v s.redis }.setWorker w .idle)
    | _ => none
  | .recover =>
    some { s with redis := (recoverScript (s.clock - cfg.recoveryLock) s.clock s.redis).1 }
  | .abandon w => some (s.setWorker w .idle)
  | .tick d => some { s with clock := s.clock + d }
  | .expire j =>
    -- Only a key with a TTL can lapse.
    match (s.redis.job j).bind Record.expireAt with
    | some _ => some { s with redis := s.redis.del j }
    | none => none

/-- The job whose record a claim's `HSET` writes in this step. -/
def World.stampedJob (s : World) : Action → Option JobId
  | .hset w =>
    match s.worker w with
    | .stamping j _ _ _ => some j
    | _ => none
  | _ => none

/-- The job that a `finish` settles in this step, and with what. -/
def World.finishedJob (s : World) : Action → Option (JobId × Verdict)
  | .finish w v =>
    match s.worker w with
    | .claimed j _ _ => some (j, v)
    | _ => none
  | _ => none

/-- The queue with these settings, started on an empty Redis. -/
def queueMachine (cfg : QueueConfig) : Machine World Action := ⟨World.init, step cfg⟩

/-! ## What a step can do -/

/-- The steps of the machine, with the guard of each. -/
inductive Step (cfg : QueueConfig) (s : World) : Action → World → Prop
  | refused (j : JobId) (payload : String) : Step cfg s (.enqueue j payload) s
  | created (j : JobId) (payload : String) (fresh : s.redis.job j = none) :
      Step cfg s (.enqueue j payload)
        { s with
          redis := s.redis.accept j (freshRecord cfg s.clock payload)
          accepted := Function.update s.accepted j (some payload) }
  | blmove (w : ℕ) (j : JobId) (rest : List JobId) (idle : s.worker w = .idle)
      (front : s.redis.queue = j :: rest) :
      Step cfg s (.blmove w)
        ({ s with redis := ⟨rest, s.redis.processing ++ [j], s.redis.job⟩ }.setWorker w
          (.popped j s.clock))
  | hgetall (w : ℕ) (j : JobId) (since : ℤ) (phase : s.worker w = .popped j since) :
      Step cfg s (.hgetall w) (s.setWorker w (s.fetch j since))
  | readClock (w : ℕ) (j : JobId) (since : ℤ) (payload : Option String)
      (phase : s.worker w = .fetched j since payload) :
      Step cfg s (.readClock w) (s.setWorker w (.stamping j since payload s.clock))
  | hset (w : ℕ) (j : JobId) (since : ℤ) (payload : Option String) (reading : ℤ)
      (phase : s.worker w = .stamping j since payload reading) :
      Step cfg s (.hset w) ({ s with redis := s.redis.stampRunning j reading }.setWorker w
        (World.claimedJob j since payload))
  | lrem (w : ℕ) (j : JobId) (since : ℤ) (phase : s.worker w = .unlinking j since) :
      Step cfg s (.lrem w) ({ s with redis := s.redis.lrem j }.setWorker w .idle)
  | finish (w : ℕ) (v : Verdict) (j : JobId) (since : ℤ) (payload : String)
      (phase : s.worker w = .claimed j since payload) :
      Step cfg s (.finish w v)
        ({ s with redis := finish cfg s.clock j v s.redis }.setWorker w .idle)
  | recover : Step cfg s .recover
      { s with redis := (recoverScript (s.clock - cfg.recoveryLock) s.clock s.redis).1 }
  | abandon (w : ℕ) : Step cfg s (.abandon w) (s.setWorker w .idle)
  | tick (d : ℕ) : Step cfg s (.tick d) { s with clock := s.clock + d }
  | expire (j : JobId) (h : Record) (found : s.redis.job j = some h) (ttl : h.expireAt ≠ none) :
      Step cfg s (.expire j) { s with redis := s.redis.del j }

theorem step_enqueue_cases (cfg : QueueConfig) {s t : World} {j : JobId} {payload : String}
    (h : step cfg s (.enqueue j payload) = some t) : Step cfg s (.enqueue j payload) t := by
  simp only [step] at h
  rcases enqueueScript_cases cfg s.clock j payload s.redis with ⟨reply, same⟩ | ⟨fresh, reply⟩
  · generalize enqueueScript cfg s.clock j payload s.redis = out at h reply same
    obtain ⟨answer, r⟩ := out
    obtain rfl : r = s.redis := same
    cases answer with
    | created => exact absurd rfl reply
    | conflict | existing | full =>
      obtain rfl := Option.some.inj h
      exact .refused j payload
  · rw [reply] at h
    obtain rfl := Option.some.inj h
    exact .created j payload fresh

theorem step_cases (cfg : QueueConfig) {s t : World} {a : Action} (h : step cfg s a = some t) :
    Step cfg s a t := by
  cases a with
  | enqueue j payload => exact step_enqueue_cases cfg h
  | blmove w =>
    simp only [step] at h
    split at h
    · rename_i j r idle front
      obtain ⟨rest, hq, rfl⟩ := Redis.blmove_eq_some.1 front
      obtain rfl := Option.some.inj h
      exact .blmove w j rest idle hq
    · cases h
  | hgetall w =>
    simp only [step] at h
    split at h
    · obtain rfl := Option.some.inj h
      exact .hgetall w _ _ ‹_›
    · cases h
  | readClock w =>
    simp only [step] at h
    split at h
    · obtain rfl := Option.some.inj h
      exact .readClock w _ _ _ ‹_›
    · cases h
  | hset w =>
    simp only [step] at h
    split at h
    · obtain rfl := Option.some.inj h
      exact .hset w _ _ _ _ ‹_›
    · cases h
  | lrem w =>
    simp only [step] at h
    split at h
    · obtain rfl := Option.some.inj h
      exact .lrem w _ _ ‹_›
    · cases h
  | finish w v =>
    simp only [step] at h
    split at h
    · obtain rfl := Option.some.inj h
      exact .finish w v _ _ _ ‹_›
    · cases h
  | recover =>
    obtain rfl := Option.some.inj h
    exact .recover
  | abandon w =>
    obtain rfl := Option.some.inj h
    exact .abandon w
  | tick d =>
    obtain rfl := Option.some.inj h
    exact .tick d
  | expire j =>
    simp only [step] at h
    cases hj : s.redis.job j with
    | none => simp [hj] at h
    | some rec =>
      cases ht : rec.expireAt with
      | none => simp [hj, ht] at h
      | some deadline =>
        simp only [hj, ht, Option.bind_some, Option.some.injEq] at h
        subst h
        exact .expire j rec hj (by simp [ht])

/-! ## What a step does to one job and to one worker -/

/-- What the queue holds about a job. -/
def World.view (s : World) (j : JobId) : JobView := s.redis.view j

theorem World.setWorker_worker (s : World) (w i : ℕ) (p : Phase) :
    (s.setWorker w p).worker i = if i = w then p else s.worker i := by
  simp [World.setWorker, Function.update_apply]

/-- The record after a claim's `HSET`. -/
def stampedRecord (reading : ℤ) (h : Option Record) : Record :=
  { h.getD {} with status := some .running, claimedAt := some (.numeral reading) }

/-- The record after a `finish` at clock reading `now`. -/
def finishedRecord (cfg : QueueConfig) (now : ℤ) (v : Verdict) (h : Option Record) : Record :=
  { v.write (h.getD {}) with expireAt := some (now + cfg.jobTtl) }

theorem stampedRecord_live (reading : ℤ) (h : Option Record) : (stampedRecord reading h).Live :=
  ⟨.running, rfl, rfl⟩

theorem Verdict.write_terminal (v : Verdict) (h : Record) : (v.write h).Terminal := by
  cases v with
  | succeeded result => cases result <;> exact ⟨.succeeded, rfl, rfl⟩
  | failed error => exact ⟨.failed, rfl, rfl⟩

theorem finishedRecord_terminal (cfg : QueueConfig) (now : ℤ) (v : Verdict) (h : Option Record) :
    (finishedRecord cfg now v h).Terminal := v.write_terminal (h.getD {})

theorem view_stampRunning (r : Redis) (j : JobId) (reading : ℤ) : (r.stampRunning j reading).view j =
    { r.view j with record := some (stampedRecord reading (r.view j).record) } := by
  rw [Redis.stampRunning, Redis.view_hset]
  rfl

theorem view_stampRunning_ne {r : Redis} {i j : JobId} {reading : ℤ} (h : i ≠ j) :
    (r.stampRunning j reading).view i = r.view i := Redis.view_hset_ne h

theorem view_finish (cfg : QueueConfig) (now : ℤ) (j : JobId) (v : Verdict) (r : Redis) :
    (finish cfg now j v r).view j = ⟨some (finishedRecord cfg now v (r.view j).record),
      (r.view j).queued, (r.view j).processing - 1⟩ := by
  simp [finish, finishedRecord, Redis.view, Redis.lrem, Redis.expire, Redis.hset]

theorem view_finish_ne {cfg : QueueConfig} {now : ℤ} {i j : JobId} {v : Verdict} {r : Redis}
    (h : i ≠ j) : (finish cfg now j v r).view i = r.view i := by
  rw [finish, Redis.view_lrem_ne h, Redis.view_expire_ne h, Redis.view_hset_ne h]

/-- What the step `a` does to the view of the job `j` and to the payload of its last enqueue. -/
inductive JobStep (cfg : QueueConfig) (s : World) (a : Action) (j : JobId) :
    JobView → Option String → Prop
  | same : JobStep cfg s a j (s.view j) (s.accepted j)
  | created (payload : String) (isEnqueue : a = .enqueue j payload)
      (fresh : (s.view j).record = none) :
      JobStep cfg s a j { s.view j with
        record := some (freshRecord cfg s.clock payload), queued := (s.view j).queued + 1 }
        (some payload)
  | popped (w : ℕ) (isBlmove : a = .blmove w) (queued : 0 < (s.view j).queued) :
      JobStep cfg s a j { s.view j with
        queued := (s.view j).queued - 1, processing := (s.view j).processing + 1 } (s.accepted j)
  | stamped (w : ℕ) (since : ℤ) (payload : Option String) (reading : ℤ) (isHset : a = .hset w)
      (phase : s.worker w = .stamping j since payload reading) :
      JobStep cfg s a j
        { s.view j with record := some (stampedRecord reading (s.view j).record) } (s.accepted j)
  | unlinked (w : ℕ) (since : ℤ) (isLrem : a = .lrem w)
      (phase : s.worker w = .unlinking j since) :
      JobStep cfg s a j { s.view j with processing := (s.view j).processing - 1 } (s.accepted j)
  | finished (w : ℕ) (v : Verdict) (since : ℤ) (payload : String) (isFinish : a = .finish w v)
      (phase : s.worker w = .claimed j since payload) :
      JobStep cfg s a j ⟨some (finishedRecord cfg s.clock v (s.view j).record),
        (s.view j).queued, (s.view j).processing - 1⟩ (s.accepted j)
  | swept (isRecover : a = .recover) :
      JobStep cfg s a j ((JobView.recover (s.clock - cfg.recoveryLock)
        s.clock)^[(s.view j).processing] (s.view j)) (s.accepted j)
  | expired (isExpire : a = .expire j) :
      JobStep cfg s a j { s.view j with record := none } (s.accepted j)

theorem step_job {cfg : QueueConfig} {s t : World} {a : Action} (next : step cfg s a = some t)
    (j : JobId) : JobStep cfg s a j (t.view j) (t.accepted j) := by
  -- An update of another job leaves the view of `j` as it is.
  have frame {v : JobView} (same : v = s.view j) : JobStep cfg s a j v (s.accepted j) :=
    same ▸ .same
  cases step_cases cfg next with
  | refused | hgetall | readClock | abandon | tick => exact .same
  | created i payload fresh =>
    by_cases same : j = i
    · subst same
      simpa [World.view, Redis.view_accept] using JobStep.created payload rfl fresh
    · simpa [World.view, same] using frame (Redis.view_accept_ne same)
  | blmove w i rest idle front =>
    by_cases same : j = i
    · subst same
      have queued : 0 < (s.view j).queued := by simp [World.view, Redis.view, front]
      simpa [World.view, World.setWorker, Redis.view_blmove front] using
        JobStep.popped w rfl queued
    · exact frame (Redis.view_blmove_ne front same)
  | hset w i since payload reading phase =>
    by_cases same : j = i
    · subst same
      simpa [World.view, World.setWorker, view_stampRunning] using
        JobStep.stamped w since payload reading rfl phase
    · exact frame (view_stampRunning_ne same)
  | lrem w i since phase =>
    by_cases same : j = i
    · subst same
      simpa [World.view, World.setWorker] using JobStep.unlinked w since rfl phase
    · exact frame (Redis.view_lrem_ne same)
  | finish w v i since payload phase =>
    by_cases same : j = i
    · subst same
      simpa [World.view, World.setWorker, view_finish] using
        JobStep.finished w v since payload rfl phase
    · exact frame (view_finish_ne same)
  | recover =>
    simpa [World.view, view_recoverScript] using JobStep.swept rfl
  | expire i h found ttl =>
    by_cases same : j = i
    · subst same
      simpa [World.view] using JobStep.expired rfl
    · exact frame (Redis.view_del_ne same)

/-- What the step `a` does to the worker `w`. -/
inductive WorkerStep (s : World) (a : Action) (w : ℕ) : Phase → Prop
  | same : WorkerStep s a w (s.worker w)
  | popped (j : JobId) (rest : List JobId) (isBlmove : a = .blmove w) (idle : s.worker w = .idle)
      (front : s.redis.queue = j :: rest) : WorkerStep s a w (.popped j s.clock)
  | fetched (j : JobId) (since : ℤ) (isHgetall : a = .hgetall w)
      (phase : s.worker w = .popped j since) : WorkerStep s a w (s.fetch j since)
  | read (j : JobId) (since : ℤ) (payload : Option String) (isRead : a = .readClock w)
      (phase : s.worker w = .fetched j since payload) :
      WorkerStep s a w (.stamping j since payload s.clock)
  | stamped (j : JobId) (since : ℤ) (payload : Option String) (reading : ℤ) (isHset : a = .hset w)
      (phase : s.worker w = .stamping j since payload reading) :
      WorkerStep s a w (World.claimedJob j since payload)
  | released : WorkerStep s a w .idle

theorem step_worker {cfg : QueueConfig} {s t : World} {a : Action} (next : step cfg s a = some t)
    (w : ℕ) : WorkerStep s a w (t.worker w) := by
  have update {p : Phase} {i : ℕ} (u : World) (workers : u.worker = s.worker)
      (own : w = i → WorkerStep s a w p) : WorkerStep s a w ((u.setWorker i p).worker w) := by
    rw [World.setWorker_worker]
    split_ifs with same
    · exact own same
    · rw [workers]
      exact .same
  cases step_cases cfg next with
  | refused | created | recover | tick | expire => exact .same
  | blmove i j rest idle front =>
    exact update _ rfl fun same => .popped j rest (by rw [same]) (by rw [same, idle]) front
  | hgetall i j since phase =>
    exact update _ rfl fun same => .fetched j since (by rw [same]) (by rw [same, phase])
  | readClock i j since payload phase =>
    exact update _ rfl fun same => .read j since payload (by rw [same]) (by rw [same, phase])
  | hset i j since payload reading phase =>
    exact update _ rfl fun same =>
      .stamped j since payload reading (by rw [same]) (by rw [same, phase])
  | lrem | finish | abandon => exact update _ rfl fun _ => .released

/-- `HGETALL` does not change which job is held. -/
theorem World.fetch_held (s : World) (j : JobId) (since : ℤ) :
    (s.fetch j since).held = some (j, since) := by
  unfold World.fetch
  split
  · rfl
  · split_ifs <;> rfl

/-- A worker comes to hold a job only by popping it from the front of the queue. -/
theorem step_held {cfg : QueueConfig} {s t : World} {a : Action} {w : ℕ} {j : JobId} {since : ℤ}
    (next : step cfg s a = some t) (held : (t.worker w).held = some (j, since)) :
    (s.worker w).held = some (j, since) ∨
      (a = .blmove w ∧ since = s.clock ∧ ∃ rest, s.redis.queue = j :: rest) := by
  have own := step_worker next w
  generalize t.worker w = p at own held
  cases own with
  | same => exact Or.inl held
  | popped i rest isBlmove idle front =>
    obtain ⟨rfl, rfl⟩ := Prod.mk.inj (Option.some.inj held)
    exact Or.inr ⟨isBlmove, rfl, rest, front⟩
  | fetched i since' isHgetall phase =>
    rw [World.fetch_held] at held
    rw [phase]
    exact Or.inl held
  | read i since' payload isRead phase =>
    rw [phase]
    exact Or.inl held
  | stamped i since' payload reading isHset phase =>
    rw [phase]
    cases payload with
    | none => cases held
    | some payload => exact Or.inl held
  | released => cases held

/-- A worker turns to unlinking only when `HGETALL` found no record or a terminal one. -/
theorem step_unlinking {cfg : QueueConfig} {s t : World} {a : Action} {w : ℕ} {j : JobId}
    {since : ℤ} (next : step cfg s a = some t) (phase : t.worker w = .unlinking j since) :
    s.worker w = .unlinking j since ∨ (s.worker w = .popped j since ∧
      ((s.view j).record = none ∨ (s.view j).Terminal)) := by
  have own := step_worker next w
  rw [phase] at own
  generalize hp : Phase.unlinking j since = p at own
  cases own with
  | same => exact Or.inl rfl
  | fetched i since' isHgetall popped =>
    right
    unfold World.fetch at hp
    split at hp
    · rename_i gone
      obtain ⟨rfl, rfl⟩ := Phase.unlinking.inj hp
      exact ⟨popped, Or.inl gone⟩
    · rename_i h found
      split_ifs at hp with terminal
      obtain ⟨rfl, rfl⟩ := Phase.unlinking.inj hp
      refine ⟨popped, Or.inr ⟨h, found, ?_⟩⟩
      rcases terminal with done | done
      · exact ⟨_, done, rfl⟩
      · exact ⟨_, done, rfl⟩
  | stamped i since' payload => cases payload <;> cases hp
  | popped | read | released => cases hp

/-- A worker that is about to stamp its job has just read the clock. -/
theorem step_stamping {cfg : QueueConfig} {s t : World} {a : Action} {w : ℕ} {j : JobId} {since : ℤ}
    {payload : Option String} {reading : ℤ} (next : step cfg s a = some t)
    (phase : t.worker w = .stamping j since payload reading) :
    s.worker w = .stamping j since payload reading ∨
      (s.worker w = .fetched j since payload ∧ reading = s.clock) := by
  have own := step_worker next w
  rw [phase] at own
  generalize hp : Phase.stamping j since payload reading = q at own
  cases own with
  | same => exact Or.inl rfl
  | read i since' payload' isRead fetched =>
    obtain ⟨rfl, rfl, rfl, rfl⟩ := Phase.stamping.inj hp
    exact Or.inr ⟨fetched, rfl⟩
  | fetched i since' =>
    unfold World.fetch at hp
    split at hp
    · cases hp
    · split_ifs at hp
  | stamped i since' payload' => cases payload' <;> cases hp
  | popped | released => cases hp

/-- A worker that runs a job ran it before, or has just stamped it. -/
theorem step_claimed {cfg : QueueConfig} {s t : World} {a : Action} {w : ℕ} {j : JobId} {since : ℤ}
    {payload : String} (next : step cfg s a = some t)
    (phase : t.worker w = .claimed j since payload) :
    s.worker w = .claimed j since payload ∨
      a = .hset w ∧ ∃ reading, s.worker w = .stamping j since (some payload) reading := by
  have own := step_worker next w
  rw [phase] at own
  generalize hp : Phase.claimed j since payload = q at own
  cases own with
  | same => exact Or.inl rfl
  | stamped i since' payload' reading isHset stamping =>
    cases payload' with
    | none => cases hp
    | some payload' =>
      obtain ⟨rfl, rfl, rfl⟩ := Phase.claimed.inj hp
      exact Or.inr ⟨isHset, reading, stamping⟩
  | fetched i since' =>
    unfold World.fetch at hp
    split at hp
    · cases hp
    · split_ifs at hp
  | popped | read | released => cases hp

/-- The record after a claim's `HSET`. -/
theorem step_stamped {cfg : QueueConfig} {s t : World} {a : Action} {j : JobId}
    (next : step cfg s a = some t) (stamped : s.stampedJob a = some j) :
    ∃ reading, (t.view j).record = some (stampedRecord reading (s.view j).record) := by
  cases step_cases cfg next with
  | hset w i since payload reading phase =>
    simp only [World.stampedJob, phase, Option.some.injEq] at stamped
    subst stamped
    exact ⟨reading, congrArg JobView.record (view_stampRunning s.redis i reading)⟩
  | _ => cases stamped

/-- The record after a `finish`. -/
theorem step_finished {cfg : QueueConfig} {s t : World} {a : Action} {f : JobId × Verdict}
    (next : step cfg s a = some t) (finished : s.finishedJob a = some f) :
    (t.view f.1).record = some (finishedRecord cfg s.clock f.2 (s.view f.1).record) := by
  cases step_cases cfg next with
  | finish w v i since payload phase =>
    simp only [World.finishedJob, phase, Option.some.injEq] at finished
    subst finished
    exact congrArg JobView.record (view_finish cfg s.clock i v s.redis)
  | _ => cases finished

end Kernexys.Queue
