import Kernexys.Queue.Redis

/-!
# The enqueue and recovery scripts

Both scripts run as one atomic Redis unit.  `enqueueScript` is `_ENQUEUE_SCRIPT`;
`recoverScript` is `_RECOVER_PROCESSING_SCRIPT`, a fold of `recoverEntry` over the snapshot of the
processing list that the script takes first.  An iteration for `j` changes nothing but the view of
`j`, as `JobView.recover` does, so the whole sweep iterates `JobView.recover` once per entry
(`view_recoverScript`).
-/

namespace Kernexys.Queue

/-- The settings of a `RedisInferenceQueue`; the recovery lock is also the recovery lease. -/
structure QueueConfig where
  capacity : ℕ
  jobTtl : ℕ
  recoveryLock : ℤ
  capacity_pos : 0 < capacity
  jobTtl_pos : 0 < jobTtl
  recoveryLock_pos : 0 < recoveryLock

/-! ## Enqueue -/

/-- The replies of the enqueue script. -/
inductive EnqueueReply
  | conflict
  | existing
  | full
  | created
deriving DecidableEq, Repr

/-- The number the script returns. -/
def EnqueueReply.code : EnqueueReply → ℤ
  | .conflict => -2
  | .existing => 0
  | .full => -1
  | .created => 1

/-- The body of `_ENQUEUE_SCRIPT`, run at clock reading `now`. -/
def enqueueScript (cfg : QueueConfig) (now : ℤ) (j : JobId) (payload : String) (r : Redis) :
    EnqueueReply × Redis :=
  match r.job j with
  | some h => if h.payload ≠ some payload then (.conflict, r) else (.existing, r)
  | none =>
    if cfg.capacity ≤ r.queue.length then (.full, r)
    else
      (.created, ((r.hset j fun h => { h with status := some .queued, payload := some payload }).expire
        j (now + cfg.jobTtl)).rpush j)

/-- The record a successful enqueue stores. -/
def freshRecord (cfg : QueueConfig) (now : ℤ) (payload : String) : Record :=
  { status := some .queued, payload := some payload, expireAt := some (now + cfg.jobTtl) }

theorem freshRecord_live (cfg : QueueConfig) (now : ℤ) (payload : String) :
    (freshRecord cfg now payload).Live := ⟨.queued, rfl, rfl⟩

/-- Store a new record and push its ID. -/
def Redis.accept (r : Redis) (j : JobId) (h : Record) : Redis :=
  ⟨r.queue ++ [j], r.processing, Function.update r.job j (some h)⟩

theorem Redis.view_accept (r : Redis) (j : JobId) (h : Record) : (r.accept j h).view j =
    { r.view j with record := some h, queued := (r.view j).queued + 1 } := by
  simp [Redis.view, Redis.accept]

theorem Redis.view_accept_ne {r : Redis} {i j : JobId} {h : Record} (ne : i ≠ j) :
    (r.accept j h).view i = r.view i := by
  simp [Redis.view, Redis.accept, ne, Ne.symm ne]

/-- Enqueue writes only when the key is missing, and then stores a fresh record at the tail. -/
theorem enqueueScript_cases (cfg : QueueConfig) (now : ℤ) (j : JobId) (payload : String)
    (r : Redis) :
    ((enqueueScript cfg now j payload r).1 ≠ .created ∧
      (enqueueScript cfg now j payload r).2 = r) ∨
    (r.job j = none ∧
      enqueueScript cfg now j payload r = (.created, r.accept j (freshRecord cfg now payload))) := by
  unfold enqueueScript
  cases hj : r.job j with
  | some h =>
    left
    simp only
    split_ifs <;> simp
  | none =>
    simp only
    split_ifs with full
    · exact Or.inl ⟨by simp, rfl⟩
    · refine Or.inr ⟨trivial, ?_⟩
      simp [Redis.accept, Redis.rpush, Redis.expire, Redis.hset, hj, freshRecord]

/-- An enqueue of the stored payload is not a conflict. -/
theorem enqueueScript_repeat (cfg : QueueConfig) (now : ℤ) {j : JobId} {payload : String}
    {r : Redis} {h : Record} (found : r.job j = some h) (same : h.payload = some payload) :
    enqueueScript cfg now j payload r = (.existing, r) := by
  simp [enqueueScript, found, same]

/-! ## Recovery -/

/-- Move one entry of `j` back to the queue and rewind its record. -/
def Redis.requeue (r : Redis) (j : JobId) : Redis :=
  (((r.lrem j).hset j fun h => { h with status := some .queued }).hdelClaimedAt j).rpush j

/-- Stamp the record of an entry that was popped and not yet stamped by its worker. -/
def Redis.graceStamp (r : Redis) (j : JobId) (now : ℤ) : Redis :=
  r.hset j fun h => { h with claimedAt := some (.numeral now) }

/-- The branch of an iteration for an entry whose record is not terminal.  A stamp that is not a
number counts as reading 0. -/
def recoverLive (strandedBefore now : ℤ) (acc : Redis × ℕ) (j : JobId) : Redis × ℕ :=
  match (acc.1.job j).bind Record.claimedAt with
  | none => (acc.1.graceStamp j now, acc.2)
  | some stamp =>
    let ts := stamp.tonumber.getD 0
    if ts ≤ strandedBefore ∧ acc.1.lremCount j = 1 then (acc.1.requeue j, acc.2 + 1) else acc

/-- One iteration of the recovery loop, with the count of recovered jobs. -/
def recoverEntry (strandedBefore now : ℤ) (acc : Redis × ℕ) (j : JobId) : Redis × ℕ :=
  match (acc.1.job j).bind Record.status with
  | none | some .succeeded | some .failed => (acc.1.lrem j, acc.2)
  | some .queued | some .running => recoverLive strandedBefore now acc j

/-- The body of `_RECOVER_PROCESSING_SCRIPT`: the new keys and the number of recovered jobs. -/
def recoverScript (strandedBefore now : ℤ) (r : Redis) : Redis × ℕ :=
  r.processing.foldl (recoverEntry strandedBefore now) (r, 0)

/-! ## The sweep, one job ID at a time -/

namespace JobView

/-- What an iteration does to the view of a live job. -/
def recoverLive (strandedBefore now : ℤ) (h : Record) (v : JobView) : JobView :=
  match h.claimedAt with
  | none => { v with record := some { h with claimedAt := some (.numeral now) } }
  | some stamp =>
    if stamp.tonumber.getD 0 ≤ strandedBefore ∧ 0 < v.processing then
      ⟨some { h with status := some .queued, claimedAt := none }, v.queued + 1, v.processing - 1⟩
    else v

/-- What an iteration for a job ID does to its view. -/
def recover (strandedBefore now : ℤ) (v : JobView) : JobView :=
  match v.record with
  | none => { v with processing := v.processing - 1 }
  | some h =>
    match h.status with
    | none | some .succeeded | some .failed => { v with processing := v.processing - 1 }
    | some .queued | some .running => v.recoverLive strandedBefore now h

variable {strandedBefore now : ℤ} {v : JobView}

theorem recover_of_not_live (dead : ¬ v.Live) :
    v.recover strandedBefore now = { v with processing := v.processing - 1 } := by
  unfold recover
  cases hr : v.record with
  | none => rfl
  | some h =>
    cases hs : h.status with
    | none => simp only [hs]
    | some st =>
      cases st with
      | succeeded | failed => simp only [hs]
      | queued | running => exact absurd ⟨h, hr, _, hs, rfl⟩ dead

theorem recover_of_live {h : Record} (found : v.record = some h) (live : h.Live) :
    v.recover strandedBefore now = v.recoverLive strandedBefore now h := by
  obtain ⟨st, hst, ht⟩ := live
  unfold recover
  rw [found]
  cases st with
  | succeeded | failed => cases ht
  | queued | running => simp only [hst]

/-- What an iteration does to a view: unlink, stamp, requeue or nothing. -/
theorem recover_cases (strandedBefore now : ℤ) (v : JobView) :
    (¬ v.Live ∧ v.recover strandedBefore now = { v with processing := v.processing - 1 }) ∨
    ∃ h, v.record = some h ∧ h.Live ∧
      ((h.claimedAt = none ∧ v.recover strandedBefore now =
          { v with record := some { h with claimedAt := some (.numeral now) } }) ∨
        ∃ stamp, h.claimedAt = some stamp ∧
          ((stamp.tonumber.getD 0 ≤ strandedBefore ∧ 0 < v.processing ∧
            v.recover strandedBefore now = ⟨some { h with status := some .queued, claimedAt := none },
              v.queued + 1, v.processing - 1⟩) ∨
          (¬ (stamp.tonumber.getD 0 ≤ strandedBefore ∧ 0 < v.processing) ∧
            v.recover strandedBefore now = v))) := by
  by_cases alive : v.Live
  · right
    obtain ⟨h, found, live⟩ := alive
    refine ⟨h, found, live, ?_⟩
    rw [recover_of_live found live]
    unfold recoverLive
    cases hc : h.claimedAt with
    | none => exact Or.inl ⟨rfl, rfl⟩
    | some stamp =>
      right
      refine ⟨stamp, rfl, ?_⟩
      by_cases old : stamp.tonumber.getD 0 ≤ strandedBefore ∧ 0 < v.processing
      · exact Or.inl ⟨old.1, old.2, if_pos old⟩
      · exact Or.inr ⟨old, if_neg old⟩
  · exact Or.inl ⟨alive, recover_of_not_live alive⟩

end JobView

theorem Redis.view_requeue {r : Redis} {j : JobId} {h : Record} (found : r.job j = some h) :
    (r.requeue j).view j = ⟨some { h with status := some .queued, claimedAt := none },
      (r.view j).queued + 1, (r.view j).processing - 1⟩ := by
  simp [Redis.requeue, Redis.view, Redis.rpush, Redis.hdelClaimedAt, Redis.hset, Redis.lrem, found]

theorem Redis.view_requeue_ne {r : Redis} {i j : JobId} (h : i ≠ j) :
    (r.requeue j).view i = r.view i := by
  rw [Redis.requeue, Redis.view_rpush_ne h, Redis.view_hdelClaimedAt_ne h, Redis.view_hset_ne h,
    Redis.view_lrem_ne h]

theorem view_recoverLive {strandedBefore now : ℤ} {acc : Redis × ℕ} {j : JobId} {h : Record}
    (found : acc.1.job j = some h) : (recoverLive strandedBefore now acc j).1.view j =
      (acc.1.view j).recoverLive strandedBefore now h := by
  unfold recoverLive JobView.recoverLive
  rw [found, Option.bind_some]
  cases hc : h.claimedAt with
  | none => simp [Redis.graceStamp, found]
  | some stamp =>
    simp only [Redis.lremCount_eq_one]
    split_ifs with old
    · exact Redis.view_requeue found
    · rfl

theorem view_recoverEntry (strandedBefore now : ℤ) (acc : Redis × ℕ) (j : JobId) :
    (recoverEntry strandedBefore now acc j).1.view j =
      (acc.1.view j).recover strandedBefore now := by
  unfold recoverEntry JobView.recover
  show _ = match acc.1.job j with
    | none => _
    | some h => _
  cases hj : acc.1.job j with
  | none => simp
  | some h =>
    rw [Option.bind_some]
    cases hs : h.status with
    | none => simp [hs]
    | some st =>
      cases st with
      | succeeded | failed => simp [hs]
      | queued | running =>
        simp only [hs]
        exact view_recoverLive hj

theorem view_recoverEntry_ne {strandedBefore now : ℤ} {acc : Redis × ℕ} {i j : JobId} (h : i ≠ j) :
    (recoverEntry strandedBefore now acc j).1.view i = acc.1.view i := by
  unfold recoverEntry recoverLive
  split
  · exact Redis.view_lrem_ne h
  · exact Redis.view_lrem_ne h
  · exact Redis.view_lrem_ne h
  all_goals
    split
    · rw [Redis.graceStamp, Redis.view_hset_ne h]
    · dsimp only
      split_ifs
      · exact Redis.view_requeue_ne h
      · rfl

/-- The sweep acts on each job ID alone, once for every entry of the snapshot. -/
theorem view_recoverScript (strandedBefore now : ℤ) (r : Redis) (j : JobId) :
    (recoverScript strandedBefore now r).1.view j =
      (JobView.recover strandedBefore now)^[(r.view j).processing] (r.view j) := by
  suffices loop : ∀ (ids : List JobId) (acc : Redis × ℕ),
      (ids.foldl (recoverEntry strandedBefore now) acc).1.view j =
        (JobView.recover strandedBefore now)^[ids.count j] (acc.1.view j) from
    loop r.processing (r, 0)
  intro ids
  induction ids with
  | nil => exact fun acc => rfl
  | cons k rest ih =>
    intro acc
    rw [List.foldl_cons, ih]
    by_cases same : k = j
    · rw [same, view_recoverEntry, List.count_cons_self, Function.iterate_succ_apply]
    · rw [view_recoverEntry_ne (Ne.symm same), List.count_cons_of_ne same]

/-- A property of views that an iteration keeps holds after the sweep. -/
theorem recover_invariant {strandedBefore now : ℤ} {I : JobView → Prop}
    (keep : ∀ v, I v → I (v.recover strandedBefore now)) {r : Redis} {j : JobId}
    (start : I (r.view j)) : I ((recoverScript strandedBefore now r).1.view j) := by
  rw [view_recoverScript]
  exact Function.Iterate.rec I start keep _

end Kernexys.Queue
