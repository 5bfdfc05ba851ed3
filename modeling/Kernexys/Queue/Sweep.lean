import Kernexys.Queue.Delivery

/-!
# The effect of a recovery sweep

`view_recoverScript` reduces a sweep to iterations on the view of each job ID.  This file iterates
them: `SweepsJob` says what a sweep leaves of a job ID, and `foldl_recoverEntry` which job IDs the
loop moves, in which order.  Two sweeps that are a lease apart then bring an abandoned job back to the
queue: the first one requeues it or finds a stamp on it, and nothing but a sweep touches that stamp
until the second one.
-/

namespace Kernexys.Queue

/-! ## One job ID -/

namespace JobView

/-- The record is not terminal, and the claim that its stamp is of is over. -/
def stranded (strandedBefore : ℤ) (v : JobView) : Bool :=
  match v.record with
  | none => false
  | some h => decide h.Live && h.claimedAt.any fun stamp => stamp.tonumber.getD 0 ≤ strandedBefore

variable {strandedBefore now : ℤ} {v : JobView} {h : Record} {stamp : Stamp}

theorem stranded_iff (found : v.record = some h) (live : h.Live) (stamped : h.claimedAt = some stamp) :
    v.stranded strandedBefore = true ↔ stamp.tonumber.getD 0 ≤ strandedBefore := by
  simp [stranded, found, live, stamped]

theorem exists_of_stranded (stale : v.stranded strandedBefore = true) :
    ∃ h stamp, v.record = some h ∧ h.Live ∧ h.claimedAt = some stamp ∧
      stamp.tonumber.getD 0 ≤ strandedBefore := by
  unfold stranded at stale
  split at stale
  · cases stale
  next h found =>
    rw [Bool.and_eq_true, decide_eq_true_eq, Option.any_eq_true] at stale
    obtain ⟨live, stamp, stamped, before⟩ := stale
    exact ⟨h, stamp, found, live, stamped, of_decide_eq_true before⟩

theorem stranded_of_not_live (dead : ¬ v.Live) : v.stranded strandedBefore = false := by
  unfold stranded
  cases found : v.record with
  | none => rfl
  | some h =>
    have ended : ¬ h.Live := fun live => dead ⟨h, found, live⟩
    simp [ended]

theorem stranded_of_unstamped (found : v.record = some h) (unstamped : h.claimedAt = none) :
    v.stranded strandedBefore = false := by
  simp [stranded, found, unstamped]

/-- A job is not stranded after its iteration. -/
theorem stranded_recover (past : strandedBefore < now)
    (listed : v.stranded strandedBefore = true → 0 < v.processing) :
    (v.recover strandedBefore now).stranded strandedBefore = false := by
  rcases v.recover_cases strandedBefore now with ⟨dead, eq⟩ | ⟨h, found, live, cases⟩
  · rw [eq]
    exact stranded_of_not_live dead
  · rcases cases with ⟨-, eq⟩ | ⟨stamp, stamped, ⟨-, -, eq⟩ | ⟨kept, eq⟩⟩
    · rw [eq]
      simp [stranded, Stamp.tonumber, not_le.2 past]
    · rw [eq]
      exact stranded_of_unstamped rfl rfl
    · rw [eq, Bool.eq_false_iff]
      intro stale
      exact kept ⟨(stranded_iff found live stamped).1 stale, listed stale⟩

/-- Every entry of a job that is not live is unlinked. -/
theorem iterate_recover_of_not_live (dead : ¬ v.Live) (n : ℕ) :
    (recover strandedBefore now)^[n] v = { v with processing := v.processing - n } := by
  induction n with
  | zero => rfl
  | succ n ih =>
    rw [Function.iterate_succ_apply', ih]
    have still : ¬ ({ v with processing := v.processing - n } : JobView).Live := dead
    rw [recover_of_not_live still]
    simp only [JobView.mk.injEq, true_and]
    omega

/-- A claim that is not over is left alone. -/
theorem iterate_recover_of_leased (found : v.record = some h) (live : h.Live)
    (stamped : h.claimedAt = some stamp) (leased : strandedBefore < stamp.tonumber.getD 0) (n : ℕ) :
    (recover strandedBefore now)^[n] v = v := by
  refine Function.iterate_fixed ?_ n
  rw [recover_of_live found live, recoverLive, stamped]
  dsimp only
  rw [if_neg (fun old => absurd old.1 (not_le.2 leased))]

/-- An entry without a stamp is stamped by the first iteration. -/
theorem iterate_recover_of_unstamped (past : strandedBefore < now) (found : v.record = some h)
    (live : h.Live) (unstamped : h.claimedAt = none) (n : ℕ) :
    (recover strandedBefore now)^[n + 1] v =
      { v with record := some { h with claimedAt := some (.numeral now) } } := by
  have first : v.recover strandedBefore now =
      { v with record := some { h with claimedAt := some (.numeral now) } } := by
    rw [recover_of_live found live, recoverLive, unstamped]
  have live' : ({ h with claimedAt := some (.numeral now) } : Record).Live := live
  rw [Function.iterate_succ_apply, first]
  exact iterate_recover_of_leased rfl live' rfl past n

/-- The first iteration moves an entry of a stranded job, and the second one, if there is one, stamps
the record again. -/
theorem iterate_recover_of_stranded (past : strandedBefore < now) (found : v.record = some h)
    (live : h.Live) (stamped : h.claimedAt = some stamp)
    (stale : stamp.tonumber.getD 0 ≤ strandedBefore) (listed : 0 < v.processing) (n : ℕ) :
    (recover strandedBefore now)^[n + 1] v =
      ⟨some { h with
          status := some .queued
          claimedAt := if n = 0 then none else some (.numeral now) },
        v.queued + 1, v.processing - 1⟩ := by
  have first : v.recover strandedBefore now =
      ⟨some { h with status := some .queued, claimedAt := none }, v.queued + 1, v.processing - 1⟩ := by
    rw [recover_of_live found live, recoverLive, stamped]
    dsimp only
    rw [if_pos ⟨stale, listed⟩]
  rw [Function.iterate_succ_apply, first]
  cases n with
  | zero => rfl
  | succ n =>
    exact @iterate_recover_of_unstamped _ _ _ { h with status := some .queued, claimedAt := none }
      past rfl ⟨.queued, rfl, rfl⟩ rfl n

end JobView

/-- What a sweep at `now` makes of a job ID. -/
structure SweepsJob (lease now : ℤ) (before after : JobView) : Prop where
  /-- A job ID without an entry in the processing list is left alone. -/
  unlisted : before.processing = 0 → after = before
  /-- The entries of a job that is missing or finished are unlinked. -/
  finished : ¬ before.Live → after = { before with processing := 0 }
  unstamped : ∀ h, before.record = some h → h.Live → h.claimedAt = none → 0 < before.processing →
    after = { before with record := some { h with claimedAt := some (.numeral now) } }
  leased : ∀ h stamp, before.record = some h → h.Live → h.claimedAt = some stamp →
    now - lease < stamp.tonumber.getD 0 → after = before
  /-- One entry is moved; the record has a new stamp if there are more. -/
  stranded : ∀ h stamp, before.record = some h → h.Live → h.claimedAt = some stamp →
    stamp.tonumber.getD 0 ≤ now - lease → 0 < before.processing →
    after = ⟨some { h with
        status := some .queued
        claimedAt := if before.processing = 1 then none else some (.numeral now) },
      before.queued + 1, before.processing - 1⟩

theorem sweepsJob_recoverScript {lease now : ℤ} (positive : 0 < lease) (r : Redis) (j : JobId) :
    SweepsJob lease now (r.view j) ((recoverScript (now - lease) now r).1.view j) := by
  have past : now - lease < now := by omega
  rw [view_recoverScript]
  generalize r.view j = v
  refine ⟨fun unlisted => ?_, fun dead => ?_, fun h found live unstamped listed => ?_,
    fun h stamp found live stamped leased => ?_, fun h stamp found live stamped stale listed => ?_⟩
  · rw [unlisted]
    rfl
  · rw [JobView.iterate_recover_of_not_live dead, Nat.sub_self]
  · obtain ⟨n, count⟩ : ∃ n, v.processing = n + 1 := ⟨v.processing - 1, by omega⟩
    have stamped := JobView.iterate_recover_of_unstamped past found live unstamped n
    rwa [← count] at stamped
  · exact JobView.iterate_recover_of_leased found live stamped leased _
  · obtain ⟨n, count⟩ : ∃ n, v.processing = n + 1 := ⟨v.processing - 1, by omega⟩
    have moved := JobView.iterate_recover_of_stranded past found live stamped stale listed n
    have only : (n = 0) = (v.processing = 1) := propext (by omega)
    rw [← count] at moved
    rw [moved]
    simp only [only]

/-! ## The lists -/

variable {strandedBefore now : ℤ}

theorem recoverEntry_of_live {acc : Redis × ℕ} {k : JobId} {h : Record} (found : acc.1.job k = some h)
    (live : h.Live) :
    recoverEntry strandedBefore now acc k = recoverLive strandedBefore now acc k := by
  obtain ⟨status, stored, ongoing⟩ := live
  unfold recoverEntry
  rw [found, Option.bind_some, stored]
  cases status with
  | queued | running => rfl
  | succeeded | failed => cases ongoing

theorem recoverEntry_of_not_live {acc : Redis × ℕ} {k : JobId} (dead : ¬ (acc.1.view k).Live) :
    recoverEntry strandedBefore now acc k = (acc.1.lrem k, acc.2) := by
  unfold recoverEntry
  cases found : acc.1.job k with
  | none => rfl
  | some h =>
    rw [Option.bind_some]
    cases stored : h.status with
    | none => rfl
    | some status =>
      cases status with
      | succeeded | failed => rfl
      | queued | running => exact absurd ⟨h, found, _, stored, rfl⟩ dead

/-- An iteration for a stranded job moves its entry. -/
theorem recoverEntry_of_stranded {acc : Redis × ℕ} {k : JobId}
    (stale : (acc.1.view k).stranded strandedBefore = true) (listed : k ∈ acc.1.processing) :
    recoverEntry strandedBefore now acc k = (acc.1.requeue k, acc.2 + 1) := by
  obtain ⟨h, stamp, found, live, stamped, before⟩ := JobView.exists_of_stranded stale
  have job : acc.1.job k = some h := found
  rw [recoverEntry_of_live job live, recoverLive, job, Option.bind_some, stamped]
  dsimp only
  rw [if_pos ⟨before, if_pos listed⟩]

/-- An iteration for another job moves nothing. -/
theorem recoverEntry_of_not_stranded (now : ℤ) {acc : Redis × ℕ} {k : JobId}
    (kept : (acc.1.view k).stranded strandedBefore = false) :
    (recoverEntry strandedBefore now acc k).1.queue = acc.1.queue ∧
      (recoverEntry strandedBefore now acc k).2 = acc.2 := by
  by_cases alive : (acc.1.view k).Live
  · obtain ⟨h, found, live⟩ := alive
    have job : acc.1.job k = some h := found
    rw [recoverEntry_of_live job live, recoverLive, job, Option.bind_some]
    cases stamped : h.claimedAt with
    | none => exact ⟨rfl, rfl⟩
    | some stamp =>
      have leased : ¬ stamp.tonumber.getD 0 ≤ strandedBefore := by
        rw [← JobView.stranded_iff found live stamped, kept]
        exact Bool.false_ne_true
      dsimp only
      rw [if_neg fun old => leased old.1]
      exact ⟨rfl, rfl⟩
  · rw [recoverEntry_of_not_live alive]
    exact ⟨rfl, rfl⟩

/-- An iteration only removes entries from the processing list. -/
theorem processing_recoverEntry (acc : Redis × ℕ) (k : JobId) :
    (recoverEntry strandedBefore now acc k).1.processing.Sublist acc.1.processing := by
  by_cases alive : (acc.1.view k).Live
  · obtain ⟨h, found, live⟩ := alive
    have job : acc.1.job k = some h := found
    rw [recoverEntry_of_live job live, recoverLive, job, Option.bind_some]
    cases h.claimedAt with
    | none => exact List.Sublist.refl _
    | some stamp =>
      dsimp only
      split_ifs
      · exact List.erase_sublist
      · exact List.Sublist.refl _
  · rw [recoverEntry_of_not_live alive]
    exact List.erase_sublist

/-- The stranded job IDs of a list, in the order of their first occurrences. -/
def strandedJobs (strandedBefore : ℤ) (r : Redis) (ids : List JobId) : List JobId :=
  (ids.filter fun j => (r.view j).stranded strandedBefore).eraseDups

/-- After an iteration for `k`, the stranded jobs are those before it, without `k`. -/
theorem stranded_recoverEntry (past : strandedBefore < now) {acc : Redis × ℕ} {k : JobId}
    (listed : (acc.1.view k).stranded strandedBefore = true → k ∈ acc.1.processing) (j : JobId) :
    ((recoverEntry strandedBefore now acc k).1.view j).stranded strandedBefore =
      (!j == k && (acc.1.view j).stranded strandedBefore) := by
  by_cases same : j = k
  · subst same
    rw [view_recoverEntry, beq_self_eq_true, Bool.not_true, Bool.false_and]
    exact JobView.stranded_recover past fun stale => List.count_pos_iff.2 (listed stale)
  · rw [view_recoverEntry_ne same, beq_false_of_ne same, Bool.not_false, Bool.true_and]

/-- An iteration leaves the other stranded jobs in the processing list. -/
theorem listed_recoverEntry (past : strandedBefore < now) {acc : Redis × ℕ} {k : JobId}
    {rest : List JobId} (listed : ∀ j ∈ k :: rest,
      (acc.1.view j).stranded strandedBefore = true → j ∈ acc.1.processing) :
    ∀ j ∈ rest, ((recoverEntry strandedBefore now acc k).1.view j).stranded strandedBefore = true →
      j ∈ (recoverEntry strandedBefore now acc k).1.processing := by
  intro j mem stale
  rw [stranded_recoverEntry past (listed k List.mem_cons_self), Bool.and_eq_true, Bool.not_eq_true',
    beq_eq_false_iff_ne] at stale
  have before := listed j (List.mem_cons_of_mem k mem) stale.2
  rw [← List.count_pos_iff] at before ⊢
  have same : (recoverEntry strandedBefore now acc k).1.view j = acc.1.view j :=
    view_recoverEntry_ne stale.1
  exact before.trans_eq (congrArg JobView.processing same).symm

/-- The first of the stranded jobs is that of the entry, if it is stranded; the others are still
stranded after the iteration. -/
theorem strandedJobs_cons (past : strandedBefore < now) {acc : Redis × ℕ} {k : JobId}
    (listed : (acc.1.view k).stranded strandedBefore = true → k ∈ acc.1.processing)
    (rest : List JobId) :
    strandedJobs strandedBefore acc.1 (k :: rest) =
      (if (acc.1.view k).stranded strandedBefore then [k] else []) ++
        strandedJobs strandedBefore (recoverEntry strandedBefore now acc k).1 rest := by
  have after : strandedJobs strandedBefore (recoverEntry strandedBefore now acc k).1 rest =
      ((rest.filter fun j => (acc.1.view j).stranded strandedBefore).filter
        fun j => !j == k).eraseDups := by
    rw [List.filter_filter, strandedJobs]
    simp only [stranded_recoverEntry past listed]
  rw [after, strandedJobs, List.filter_cons]
  cases stale : (acc.1.view k).stranded strandedBefore with
  | true =>
    rw [if_pos rfl, if_pos rfl, List.eraseDups_cons]
    rfl
  | false =>
    rw [if_neg Bool.false_ne_true, if_neg Bool.false_ne_true, List.nil_append]
    congr 1
    refine (List.filter_eq_self.2 fun j mem => ?_).symm
    rw [Bool.not_eq_true', beq_eq_false_iff_ne]
    rintro rfl
    exact absurd (List.mem_filter.1 mem).2 (by simp [stale])

/-- The loop moves the stranded jobs among its entries, each at its first entry. -/
theorem foldl_recoverEntry (past : strandedBefore < now) (ids : List JobId) (acc : Redis × ℕ)
    (listed : ∀ j ∈ ids, (acc.1.view j).stranded strandedBefore = true → j ∈ acc.1.processing) :
    (ids.foldl (recoverEntry strandedBefore now) acc).1.queue =
        acc.1.queue ++ strandedJobs strandedBefore acc.1 ids ∧
      (ids.foldl (recoverEntry strandedBefore now) acc).2 =
        acc.2 + (strandedJobs strandedBefore acc.1 ids).length := by
  induction ids generalizing acc with
  | nil => simp [strandedJobs]
  | cons k rest ih =>
    have here := listed k List.mem_cons_self
    obtain ⟨queue, count⟩ := ih _ (listed_recoverEntry past listed)
    rw [List.foldl_cons, queue, count, strandedJobs_cons past here]
    cases stale : (acc.1.view k).stranded strandedBefore with
    | true =>
      rw [if_pos rfl, List.singleton_append, recoverEntry_of_stranded stale (here stale)]
      refine ⟨?_, ?_⟩
      · rw [List.append_cons]
        rfl
      · rw [List.length_cons]
        omega
    | false =>
      obtain ⟨queue, count⟩ := recoverEntry_of_not_stranded now stale
      rw [if_neg Bool.false_ne_true, List.nil_append, queue, count]
      exact ⟨rfl, rfl⟩

theorem processing_foldl_recoverEntry (ids : List JobId) (acc : Redis × ℕ) :
    (ids.foldl (recoverEntry strandedBefore now) acc).1.processing.Sublist acc.1.processing := by
  induction ids generalizing acc with
  | nil => exact List.Sublist.refl _
  | cons k rest ih => exact (ih _).trans (processing_recoverEntry acc k)

theorem recovery_sweep_effect {lease now : ℤ} (positive : 0 < lease) (r : Redis) :
    (∀ j, SweepsJob lease now (r.view j) ((recoverScript (now - lease) now r).1.view j)) ∧
      (recoverScript (now - lease) now r).1.queue =
        r.queue ++ strandedJobs (now - lease) r r.processing ∧
      (recoverScript (now - lease) now r).1.processing.Sublist r.processing ∧
      (recoverScript (now - lease) now r).2 =
        (strandedJobs (now - lease) r r.processing).length := by
  have past : now - lease < now := by omega
  obtain ⟨queue, count⟩ := foldl_recoverEntry past r.processing (r, 0) fun _ listed _ => listed
  rw [Nat.zero_add] at count
  exact ⟨sweepsJob_recoverScript positive r, queue, processing_foldl_recoverEntry _ _, count⟩

/-- Jobs `a` and `b` are stranded, `b` with two entries; `c` is finished. -/
def strandedRedis : Redis :=
  ⟨["d"], ["b", "a", "c", "b"], fun j =>
    if j = "a" then some { status := some .running, claimedAt := some (.numeral 10) }
    else if j = "b" then some { status := some .running, claimedAt := some (.numeral 40) }
    else if j = "c" then some { status := some .succeeded }
    else none⟩

theorem recovery_sweep_effect_stranded :
    (recoverScript (100 - 60) 100 strandedRedis).1.queue = ["d", "b", "a"] ∧
      (recoverScript (100 - 60) 100 strandedRedis).2 = 2 := by
  obtain ⟨-, queue, -, count⟩ := recovery_sweep_effect (by decide : (0 : ℤ) < 60) strandedRedis
  have jobs : strandedJobs (100 - 60) strandedRedis strandedRedis.processing = ["b", "a"] := by
    decide
  rw [queue, count, jobs]
  exact ⟨rfl, rfl⟩

/-! ## Two sweeps -/

/-- The job ID that a step of a client or of a worker acts on.  A sweep acts on all of them. -/
def World.actedJob (s : World) : Action → Option JobId
  | .enqueue j _ | .expire j => some j
  | .blmove _ => s.redis.queue.head?
  | .hgetall w | .readClock w | .hset w | .lrem w | .finish w _ => (s.worker w).held.map Prod.fst
  | .recover | .abandon _ | .tick _ => none

/-- A step on another job ID leaves the view of `j` alone, whatever it does to the lists. -/
theorem view_of_actedJob_ne {cfg : QueueConfig} {s t : World} {a : Action} {j : JobId}
    (next : step cfg s a = some t) (sweepless : a ≠ .recover) (other : s.actedJob a ≠ some j) :
    t.view j = s.view j := by
  cases step_cases cfg next with
  | refused | hgetall | readClock | abandon | tick => rfl
  | created i payload fresh =>
    exact Redis.view_accept_ne fun same => other (congrArg some same.symm)
  | blmove w i rest idle front =>
    refine Redis.view_blmove_ne front fun same => other ?_
    rw [World.actedJob, front, same, List.head?_cons]
  | hset w i since payload reading phase =>
    refine view_stampRunning_ne fun same => other ?_
    rw [World.actedJob, phase, same]
    rfl
  | lrem w i since phase =>
    refine Redis.view_lrem_ne fun same => other ?_
    rw [World.actedJob, phase, same]
    rfl
  | finish w v i since payload phase =>
    refine view_finish_ne fun same => other ?_
    rw [World.actedJob, phase, same]
    rfl
  | recover => exact absurd rfl sweepless
  | expire i h found ttl =>
    exact Redis.view_del_ne fun same => other (congrArg some same.symm)

/-- The job is in the queue with status queued. -/
def JobView.Waiting (v : JobView) : Prop :=
  0 < v.queued ∧ ∃ h, v.record = some h ∧ h.status = some .queued

/-- One entry of the job went from the processing list to the queue, with status queued. -/
def JobView.Requeued (v w : JobView) : Prop :=
  w.queued = v.queued + 1 ∧ w.processing + 1 = v.processing ∧
    ∃ h, w.record = some h ∧ h.status = some .queued

/-- The job has an entry in the processing list, and a claim that was stamped by `latest`. -/
def JobView.Claimed (latest : ℤ) (v : JobView) : Prop :=
  0 < v.processing ∧ ∃ h stamp, v.record = some h ∧ h.Live ∧ h.claimedAt = some stamp ∧
    stamp.tonumber.getD 0 ≤ latest

theorem JobView.Requeued.waiting {v w : JobView} (moved : v.Requeued w) : w.Waiting :=
  ⟨by have := moved.1; omega, moved.2.2⟩

/-- A sweep leaves a waiting job waiting. -/
theorem JobView.Waiting.recover {strandedBefore now : ℤ} {v : JobView} (waiting : v.Waiting) :
    (v.recover strandedBefore now).Waiting := by
  obtain ⟨queued, h, found, status⟩ := waiting
  rcases v.recover_cases strandedBefore now with ⟨dead, eq⟩ | ⟨h', found', live, cases⟩
  · exact absurd ⟨h, found, .queued, status, rfl⟩ dead
  · obtain rfl := Option.some.inj (found.symm.trans found')
    rcases cases with ⟨-, eq⟩ | ⟨stamp, -, ⟨-, -, eq⟩ | ⟨-, eq⟩⟩
    · rw [eq]
      exact ⟨queued, _, rfl, status⟩
    · rw [eq]
      exact ⟨Nat.succ_pos _, _, rfl, rfl⟩
    · rw [eq]
      exact ⟨queued, _, found, status⟩

theorem JobView.Waiting.sweep {cfg : QueueConfig} {s t : World} {j : JobId}
    (waiting : (s.view j).Waiting) (next : step cfg s .recover = some t) : (t.view j).Waiting := by
  obtain rfl := Option.some.inj next
  exact recover_invariant (I := JobView.Waiting) (fun _ => JobView.Waiting.recover) waiting

/-- A sweep that finds a claim by `latest` over requeues the job. -/
theorem SweepsJob.requeued {lease now latest : ℤ} {v w : JobView} (sweep : SweepsJob lease now v w)
    (claimed : v.Claimed latest) (stale : latest ≤ now - lease) : v.Requeued w := by
  obtain ⟨listed, h, stamp, found, live, stamped, bound⟩ := claimed
  rw [sweep.stranded h stamp found live stamped (bound.trans stale) listed]
  exact ⟨rfl, Nat.sub_add_cancel listed, _, rfl, rfl⟩

/-- A sweep requeues a claimed job or leaves it alone. -/
theorem SweepsJob.claimed {lease now latest : ℤ} {v w : JobView} (sweep : SweepsJob lease now v w)
    (claimed : v.Claimed latest) : v.Requeued w ∨ w = v := by
  obtain ⟨listed, h, stamp, found, live, stamped, bound⟩ := claimed
  rcases le_or_gt (stamp.tonumber.getD 0) (now - lease) with stale | leased
  · exact Or.inl (sweep.requeued ⟨listed, h, stamp, found, live, stamped, le_rfl⟩ stale)
  · exact Or.inr (sweep.leased h stamp found live stamped leased)

/-- The first sweep requeues an abandoned job, or leaves it with a stamp. -/
theorem SweepsJob.abandoned {lease now : ℤ} {v w : JobView} (sweep : SweepsJob lease now v w)
    {h : Record} (listed : 0 < v.processing) (found : v.record = some h) (live : h.Live)
    (past : ∀ stamp ∈ h.claimedAt, stamp.tonumber.getD 0 ≤ now) : v.Requeued w ∨ w.Claimed now := by
  cases stamped : h.claimedAt with
  | none =>
    right
    rw [sweep.unstamped h found live stamped listed]
    exact ⟨listed, _, .numeral now, rfl, live, rfl, le_rfl⟩
  | some stamp =>
    have claimed : v.Claimed now := ⟨listed, h, stamp, found, live, stamped, past stamp stamped⟩
    rcases sweep.claimed claimed with moved | same
    · exact Or.inl moved
    · exact Or.inr (same ▸ claimed)

theorem sweepsJob_step {cfg : QueueConfig} {s t : World} (next : step cfg s .recover = some t)
    (j : JobId) : SweepsJob cfg.recoveryLock s.clock (s.view j) (t.view j) := by
  obtain rfl := Option.some.inj next
  exact sweepsJob_recoverScript cfg.recoveryLock_pos s.redis j

/-- After the first sweep the job is waiting, or claimed with a stamp that is not later. -/
theorem waiting_or_claimed_step {cfg : QueueConfig} {s t : World} {a : Action} {j : JobId}
    {latest : ℤ} (start : (s.view j).Waiting ∨ (s.view j).Claimed latest)
    (other : s.actedJob a ≠ some j) (next : step cfg s a = some t) :
    (t.view j).Waiting ∨ (t.view j).Claimed latest := by
  by_cases sweep : a = .recover
  · subst sweep
    rcases start with waiting | claimed
    · exact Or.inl (waiting.sweep next)
    · rcases (sweepsJob_step next j).claimed claimed with moved | same
      · exact Or.inl moved.waiting
      · exact Or.inr (same ▸ claimed)
  · rw [view_of_actedJob_ne next sweep other]
    exact start

/-- Other sweeps may run between the two, and may be the ones that requeue the job. -/
theorem two_sweeps_recover (cfg : QueueConfig) {s first second last : World} {as : List Action}
    {j : JobId} {h : Record} (listed : j ∈ s.redis.processing) (found : s.redis.job j = some h)
    (live : h.Live) (past : ∀ stamp ∈ h.claimedAt, stamp.tonumber.getD 0 ≤ s.clock)
    (sweep : step cfg s .recover = some first)
    (others : (queueMachine cfg).Along (fun u a => u.actedJob a ≠ some j) first as)
    (run : (queueMachine cfg).exec first as = some second)
    (apart : s.clock + cfg.recoveryLock ≤ second.clock)
    (again : step cfg second .recover = some last) :
    (last.view j).Waiting ∧
      (.recover ∉ as → (s.view j).Requeued (first.view j) ∨
        (second.view j).Requeued (last.view j)) := by
  have start := (sweepsJob_step sweep j).abandoned (List.count_pos_iff.2 listed) found live past
  have stale : s.clock ≤ second.clock - cfg.recoveryLock := by omega
  refine ⟨?_, fun sweepless => ?_⟩
  · have between : (second.view j).Waiting ∨ (second.view j).Claimed s.clock :=
      Machine.exec_invariant (I := fun u => (u.view j).Waiting ∨ (u.view j).Claimed s.clock)
        (fun _ _ _ start other next => waiting_or_claimed_step start other next)
        (start.imp_left JobView.Requeued.waiting) others run
    rcases between with waiting | claimed
    · exact waiting.sweep again
    · exact ((sweepsJob_step again j).requeued claimed stale).waiting
  · have unswept : (queueMachine cfg).Along (fun _ a => a ≠ .recover) first as :=
      Machine.along_of_forall_mem fun a mem _ => ne_of_mem_of_not_mem mem sweepless
    have same : second.view j = first.view j :=
      Machine.exec_invariant (I := fun u => u.view j = first.view j)
        (fun _ _ _ same away next => (view_of_actedJob_ne next away.2 away.1).trans same)
        rfl (others.and unswept) run
    refine start.imp_right fun claimed => (sweepsJob_step again j).requeued ?_ stale
    rwa [same]

/-- A worker dies between its `BLMOVE` and its stamp. -/
def diesUnstamped : List Action := [.enqueue "job" "payload", .blmove 0, .abandon 0]

/-- The queue after that worker has died. -/
def unstampedWorld : World :=
  ((queueMachine testConfig).exec World.init diesUnstamped).getD World.init

theorem two_sweeps_recover_unstamped :
    (queueMachine testConfig).Run diesUnstamped unstampedWorld ∧
      ∃ first second last, step testConfig unstampedWorld .recover = some first ∧
        (queueMachine testConfig).exec first [.enqueue "other" "payload", .tick 60] = some second ∧
        step testConfig second .recover = some last ∧ (last.view "job").Waiting := by
  refine ⟨rfl, _, _, _, rfl, rfl, rfl, (@two_sweeps_recover testConfig unstampedWorld _ _ _
    [.enqueue "other" "payload", .tick 60] "job" _ (by decide) rfl ⟨.queued, rfl, rfl⟩ ?_ rfl ?_ rfl
    (by decide) rfl).1⟩
  · intro stamp stamped
    cases stamped
  · refine (Machine.along_of_check (p := fun u a => u.actedJob a != some "job") ?_).mono ?_
    · decide
    · intro u a other
      exact bne_iff_ne.1 other

end Kernexys.Queue
