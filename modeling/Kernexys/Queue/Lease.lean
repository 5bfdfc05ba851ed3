import Kernexys.Queue.Delivery

/-!
# The recovery lease

Suppose that no record expires and that every worker which has not abandoned its claim finishes
within the recovery lease of its `BLMOVE`.  Then every live job is in the two lists exactly once, a
finished one not at all, no two workers hold one job, and the sweep never requeues a job that is
held.  The invariant is `LeaseInv`: a held job has its entry in the processing list, and its stamp,
if any, is not older than the `BLMOVE` of the worker that holds it.
-/

namespace Kernexys.Queue

namespace JobView

/-- A live record is listed once, any other ID not at all, and a queued ID carries no stamp. -/
structure Exact (v : JobView) : Prop where
  status : ∀ h ∈ v.record, h.status ≠ none
  live : v.Live → v.listed = 1
  settled : ¬ v.Live → v.listed = 0
  unstamped : 0 < v.queued → ∀ h ∈ v.record, h.claimedAt = none

/-- The view of a job that is held since `since`: it has an entry in the processing list, and a
stamp on its record is a reading not before `since`. -/
structure Held (v : JobView) (since clock : ℤ) : Prop where
  entry : 0 < v.processing
  past : since ≤ clock
  stamp : ∀ h ∈ v.record, ∀ stamp ∈ h.claimedAt, ∃ reading, stamp = .numeral reading ∧
    since ≤ reading

variable {v : JobView} {since clock : ℤ}

theorem Exact.live_of_listed (exact_ : v.Exact) (pos : 0 < v.listed) : v.Live := by
  by_contra dead
  have := exact_.settled dead
  omega

/-- An ID with an entry in the processing list has a live record and no other entry. -/
theorem Exact.of_processing (exact_ : v.Exact) (entry : 0 < v.processing) :
    v.Live ∧ v.queued = 0 ∧ v.processing = 1 := by
  have live := exact_.live_of_listed (by unfold listed; omega)
  have once := exact_.live live
  unfold listed at once
  exact ⟨live, by omega, by omega⟩

/-- A live record with its only entry in the processing list. -/
theorem exact_of_processing {h : Record} (live : h.Live) : Exact ⟨some h, 0, 1⟩ := by
  refine ⟨fun h' found => ?_, fun _ => rfl, fun dead => absurd ⟨h, rfl, live⟩ dead, fun pos => ?_⟩
  · obtain rfl := Option.some.inj found
    obtain ⟨st, hst, -⟩ := live
    simp [hst]
  · cases pos

/-- A live record without a stamp, with its only entry in the queue. -/
theorem exact_of_queued {h : Record} (live : h.Live) (unstamped : h.claimedAt = none) :
    Exact ⟨some h, 1, 0⟩ := by
  refine ⟨fun h' found => ?_, fun _ => rfl, fun dead => absurd ⟨h, rfl, live⟩ dead,
    fun _ h' found => ?_⟩
  · obtain rfl := Option.some.inj found
    obtain ⟨st, hst, -⟩ := live
    simp [hst]
  · obtain rfl := Option.some.inj found
    exact unstamped

theorem exact_of_terminal {h : Record} (terminal : h.Terminal) : Exact ⟨some h, 0, 0⟩ := by
  refine ⟨fun h' found => ?_, fun live => ?_, fun _ => rfl, fun pos => ?_⟩
  · obtain rfl := Option.some.inj found
    obtain ⟨st, hst, -⟩ := terminal
    simp [hst]
  · exact absurd ⟨h, rfl, terminal⟩ live.not_terminal
  · cases pos

/-- On an exact view the sweep iterates at most once, and then on a live record. -/
theorem Exact.swept (exact_ : v.Exact) (strandedBefore now : ℤ) :
    ((JobView.recover strandedBefore now)^[v.processing] v).Exact := by
  by_cases entry : 0 < v.processing
  · obtain ⟨⟨h, found, live⟩, queued, processing⟩ := exact_.of_processing entry
    rw [processing, Function.iterate_one]
    rcases v.recover_cases strandedBefore now with ⟨dead, -⟩ | ⟨h', found', -, cases⟩
    · exact absurd ⟨h, found, live⟩ dead
    · obtain rfl := Option.some.inj (found.symm.trans found')
      rcases cases with ⟨-, eq⟩ | ⟨stamp, -, ⟨-, -, eq⟩ | ⟨-, eq⟩⟩
      · rw [eq, queued, processing]
        obtain ⟨st, hst, ht⟩ := live
        exact exact_of_processing ⟨st, hst, ht⟩
      · rw [eq, queued, processing]
        exact exact_of_queued ⟨.queued, rfl, rfl⟩ rfl
      · rwa [eq]
  · rw [Nat.eq_zero_of_not_pos entry]
    exact exact_

/-- The sweep never requeues a job held within the lease: at most it stamps the record. -/
theorem Held.swept (held : v.Held since clock) (exact_ : v.Exact) {lease : ℤ}
    (timely : clock < since + lease) :
    (JobView.recover (clock - lease) clock)^[v.processing] v = v ∨
      ∃ h, v.record = some h ∧ (JobView.recover (clock - lease) clock)^[v.processing] v =
        { v with record := some { h with claimedAt := some (.numeral clock) } } := by
  obtain ⟨live, -, processing⟩ := exact_.of_processing held.entry
  rw [processing, Function.iterate_one]
  rcases v.recover_cases (clock - lease) clock with ⟨dead, -⟩ | ⟨h, found, -, cases⟩
  · exact absurd live dead
  · rcases cases with ⟨-, eq⟩ | ⟨stamp, stamped, ⟨old, -, -⟩ | ⟨-, eq⟩⟩
    · exact Or.inr ⟨h, found, by rw [eq, processing]⟩
    · obtain ⟨reading, rfl, fresh⟩ := held.stamp h found stamp stamped
      simp only [Stamp.tonumber, Option.getD_some] at old
      omega
    · exact Or.inl eq

/-- A record rewritten with a stamp that is not before `since`. -/
theorem Held.restamp (held : v.Held since clock) {h : Record} {reading : ℤ} (fresh : since ≤ reading)
    (stamp : h.claimedAt = some (.numeral reading)) :
    Held { v with record := some h } since clock := by
  refine ⟨held.entry, held.past, fun h' found st stamped => ?_⟩
  obtain rfl := Option.some.inj found
  rw [stamp] at stamped
  obtain rfl := Option.some.inj stamped
  exact ⟨reading, rfl, fresh⟩

theorem Held.later (held : v.Held since clock) {clock' : ℤ} (le : clock ≤ clock') :
    v.Held since clock' :=
  ⟨held.entry, held.past.trans le, held.stamp⟩

end JobView

/-! ## The invariant -/

/-- Every worker that has not abandoned its claim is within the lease of its `BLMOVE`. -/
def Timely (cfg : QueueConfig) (s : World) : Prop :=
  ∀ w j since, (s.worker w).held = some (j, since) → s.clock < since + cfg.recoveryLock

/-- The steps of the runs considered here: no expiry, and every holder within its lease. -/
def Admitted (cfg : QueueConfig) (s : World) (a : Action) : Prop := NoExpiry s a ∧ Timely cfg s

/-- The invariant: every job is where it belongs, and one worker at most holds it, with a stamp
that is not older than the `BLMOVE`. -/
structure LeaseInv (s : World) : Prop where
  exact : ∀ j, (s.view j).Exact
  accepted : ∀ j, s.accepted j ≠ none → (s.view j).record ≠ none
  held : ∀ w j since, (s.worker w).held = some (j, since) → (s.view j).Held since s.clock
  unique : ∀ w w' j since since', (s.worker w).held = some (j, since) →
    (s.worker w').held = some (j, since') → w = w'
  unlinking : ∀ w j since, s.worker w ≠ .unlinking j since
  reading : ∀ w j since payload reading, s.worker w = .stamping j since payload reading →
    since ≤ reading

theorem leaseInv_init : LeaseInv World.init := by
  refine ⟨fun j => ⟨?_, ?_, fun _ => rfl, ?_⟩, ?_, ?_, ?_, ?_, ?_⟩
  · intro h found
    cases found
  · rintro ⟨h, found, -⟩
    cases found
  · intro pos
    cases pos
  · intro j known
    exact absurd rfl known
  · intro w j since held
    cases held
  · intro w w' j since since' held
    cases held
  · intro w j since phase
    cases phase
  · intro w j since payload reading phase
    cases phase

variable {cfg : QueueConfig} {s t : World} {a : Action}

theorem LeaseInv.live_of_held (inv : LeaseInv s) {w : ℕ} {j : JobId} {since : ℤ}
    (held : (s.worker w).held = some (j, since)) :
    (s.view j).Live ∧ (s.view j).queued = 0 ∧ (s.view j).processing = 1 :=
  (inv.exact j).of_processing (inv.held w j since held).entry

/-- A held job is not in the queue. -/
theorem LeaseInv.not_front (inv : LeaseInv s) {w : ℕ} {j : JobId} {since : ℤ} {rest : List JobId}
    (held : (s.worker w).held = some (j, since)) : s.redis.queue ≠ j :: rest := by
  intro front
  have queued := (inv.live_of_held held).2.1
  simp [World.view, Redis.view, front] at queued

theorem LeaseInv.hsetOpen (inv : LeaseInv s) : HsetOpen s a := by
  intro j stamped terminal
  unfold World.stampedJob at stamped
  split at stamped
  · split at stamped
    · rename_i phase
      obtain rfl := Option.some.inj stamped
      exact (inv.live_of_held (by rw [phase]; rfl)).1.not_terminal terminal
    · cases stamped
  · cases stamped

theorem LeaseInv.finishOpen (inv : LeaseInv s) : FinishOpen s a := by
  intro f finished h found terminal
  unfold World.finishedJob at finished
  split at finished
  · split at finished
    · rename_i phase
      obtain rfl := Option.some.inj finished
      exact absurd ⟨h, found, terminal⟩ (inv.live_of_held (by rw [phase]; rfl)).1.not_terminal
    · cases finished
  · cases finished

/-! ## One step -/

theorem step_clock_le (next : step cfg s a = some t) : s.clock ≤ t.clock := by
  cases step_cases cfg next with
  | tick d =>
    simp only
    omega
  | _ => exact le_refl _

theorem step_exact (inv : LeaseInv s) (noExpiry : NoExpiry s a) (next : step cfg s a = some t)
    (j : JobId) : (t.view j).Exact := by
  have exact_ := inv.exact j
  have job := step_job next j
  generalize t.view j = v, t.accepted j = payload at job ⊢
  cases job with
  | same => exact exact_
  | created payload isEnqueue fresh =>
    have none_listed := exact_.settled (by rintro ⟨h, found, -⟩; rw [fresh] at found; cases found)
    simp only [JobView.listed, Nat.add_eq_zero_iff] at none_listed
    simp only [none_listed, zero_add]
    exact JobView.exact_of_queued (freshRecord_live cfg s.clock payload) rfl
  | popped w isBlmove queued =>
    have live := exact_.live_of_listed (by unfold JobView.listed; omega)
    have once := exact_.live live
    obtain ⟨h, found, live⟩ := live
    simp only [JobView.listed] at once
    have queued_after : (s.view j).queued - 1 = 0 := by omega
    have processing_after : (s.view j).processing + 1 = 1 := by omega
    simp only [found, queued_after, processing_after]
    exact JobView.exact_of_processing live
  | stamped w since payload reading isHset phase =>
    obtain ⟨-, queued, processing⟩ := inv.live_of_held (w := w) (by rw [phase]; rfl)
    simp only [queued, processing]
    exact JobView.exact_of_processing (stampedRecord_live reading _)
  | unlinked w since isLrem phase => exact absurd phase (inv.unlinking w j since)
  | finished w v since payload isFinish phase =>
    obtain ⟨-, queued, processing⟩ := inv.live_of_held (w := w) (by rw [phase]; rfl)
    rw [queued, processing]
    exact JobView.exact_of_terminal (finishedRecord_terminal cfg s.clock v _)
  | swept isRecover => exact exact_.swept _ _
  | expired isExpire => exact absurd isExpire (noExpiry j)

/-- A worker that still holds its job after the step still holds it safely. -/
theorem step_held_kept (inv : LeaseInv s) (ok : Admitted cfg s a) (next : step cfg s a = some t)
    {w : ℕ} {j : JobId} {since : ℤ} (before : (s.worker w).held = some (j, since))
    (after : (t.worker w).held = some (j, since)) : (t.view j).Held since t.clock := by
  have held := inv.held w j since before
  have job := step_job next j
  refine JobView.Held.later ?_ (step_clock_le next)
  generalize t.view j = v, t.accepted j = payload at job ⊢
  cases job with
  | same => exact held
  | created payload isEnqueue fresh =>
    obtain ⟨⟨h, found, -⟩, -⟩ := inv.live_of_held before
    rw [fresh] at found
    cases found
  | popped w' isBlmove queued =>
    have := (inv.live_of_held before).2.1
    omega
  | stamped w' since' payload reading isHset phase =>
    have holder : (s.worker w').held = some (j, since') := by rw [phase]; rfl
    obtain rfl := inv.unique w w' j since since' before holder
    obtain ⟨-, rfl⟩ := Prod.mk.inj (Option.some.inj (before.symm.trans holder))
    exact held.restamp (inv.reading w j since payload reading phase) rfl
  | unlinked w' since' isLrem phase => exact absurd phase (inv.unlinking w' j since')
  | finished w' v since' payload isFinish phase =>
    obtain rfl := inv.unique w w' j since since' before (by rw [phase]; rfl)
    subst isFinish
    cases step_cases cfg next with
    | finish =>
      rw [World.setWorker_worker, if_pos rfl] at after
      cases after
  | swept isRecover =>
    rcases held.swept (inv.exact j) (ok.2 w j since before) with eq | ⟨h, found, eq⟩
    · rwa [eq]
    · rw [eq]
      exact held.restamp held.past rfl
  | expired isExpire => exact absurd isExpire (ok.1 j)

/-- A job just popped is held safely: its record carries no stamp. -/
theorem step_held_popped (inv : LeaseInv s) {w : ℕ} (next : step cfg s (.blmove w) = some t)
    {j : JobId} {rest : List JobId} (front : s.redis.queue = j :: rest) :
    (t.view j).Held s.clock t.clock := by
  cases step_cases cfg next with
  | blmove _ i rest' idle front' =>
    obtain ⟨rfl, rfl⟩ := List.cons.inj (front.symm.trans front')
    have queued : 0 < (s.view j).queued := by simp [World.view, Redis.view, front]
    have unstamped := (inv.exact j).unstamped queued
    show ((Redis.mk rest (s.redis.processing ++ [j]) s.redis.job).view j).Held s.clock s.clock
    rw [Redis.view_blmove front]
    refine ⟨by simp, le_refl _, fun h found st stamped => ?_⟩
    rw [unstamped h found] at stamped
    cases stamped

theorem step_leaseInv (inv : LeaseInv s) (ok : Admitted cfg s a) (next : step cfg s a = some t) :
    LeaseInv t := by
  refine ⟨step_exact inv ok.1 next, fun j known => ?_, fun w j since held => ?_,
    fun w w' j since since' held held' => ?_, fun w j since phase => ?_,
    fun w j since payload reading phase => ?_⟩
  · have job := step_job next j
    generalize hv : t.view j = v, hp : t.accepted j = payload at job known ⊢
    cases job with
    | created => simp
    | _ => exact hv ▸ step_record_ne_none (inv.accepted j known) ok.1 next
  · rcases step_held next held with before | ⟨isBlmove, rfl, rest, front⟩
    · exact step_held_kept inv ok next before held
    · subst isBlmove
      exact step_held_popped inv next front
  · rcases step_held next held with before | ⟨isBlmove, -, rest, front⟩
    · rcases step_held next held' with before' | ⟨-, -, rest, front⟩
      · exact inv.unique w w' j since since' before before'
      · exact absurd front (inv.not_front before)
    · rcases step_held next held' with before' | ⟨isBlmove', -, -⟩
      · exact absurd front (inv.not_front before')
      · exact Action.blmove.inj (isBlmove.symm.trans isBlmove')
  · rcases step_unlinking next phase with before | ⟨popped, gone | terminal⟩
    · exact inv.unlinking w j since before
    · obtain ⟨⟨h, found, -⟩, -⟩ := inv.live_of_held (w := w) (by rw [popped]; rfl)
      rw [gone] at found
      cases found
    · exact (inv.live_of_held (w := w) (by rw [popped]; rfl)).1.not_terminal terminal
  · have own := step_worker next w
    rw [phase] at own
    generalize hp : Phase.stamping j since payload reading = p at own
    cases own with
    | same => exact inv.reading w j since payload reading hp.symm
    | read i since' payload' isRead fetched =>
      obtain ⟨rfl, rfl, rfl, rfl⟩ := Phase.stamping.inj hp
      exact (inv.held w j since (by rw [fetched]; rfl)).past
    | fetched i since' =>
      unfold World.fetch at hp
      split at hp
      · cases hp
      · split_ifs at hp
    | stamped i since' payload' => cases payload' <;> cases hp
    | popped | released => cases hp

/-! ## Whole runs -/

/-- What the queue guarantees in a state, as long as every step is admitted. -/
structure Guaranteed (cfg : QueueConfig) (s : World) : Prop where
  /-- An accepted job is listed once while its record is not terminal, and then not at all. -/
  listed : ∀ j, s.accepted j ≠ none → ∃ h, s.redis.job j = some h ∧
    (s.redis.queue ++ s.redis.processing).count j = if h.Terminal then 0 else 1
  unique : ∀ w w' j since since', (s.worker w).held = some (j, since) →
    (s.worker w').held = some (j, since') → w = w'
  /-- A sweep leaves a held job where it is. -/
  sweep : ∀ t, Admitted cfg s .recover → step cfg s .recover = some t →
    ∀ w j since, (s.worker w).held = some (j, since) → j ∉ t.redis.queue ∧
      t.redis.processing.count j = s.redis.processing.count j ∧
      (t.redis.job j).map Record.status = (s.redis.job j).map Record.status
  /-- A terminal record keeps its status. -/
  final : ∀ as t, (queueMachine cfg).Along (Admitted cfg) s as →
    (queueMachine cfg).exec s as = some t → ∀ j h, s.redis.job j = some h → h.Terminal →
      ∃ h', t.redis.job j = some h' ∧ h'.status = h.status

theorem LeaseInv.count_eq (inv : LeaseInv s) {j : JobId} (known : s.accepted j ≠ none) :
    ∃ h, s.redis.job j = some h ∧
      (s.redis.queue ++ s.redis.processing).count j = if h.Terminal then 0 else 1 := by
  obtain ⟨h, found⟩ := Option.ne_none_iff_exists'.1 (inv.accepted j known)
  refine ⟨h, found, ?_⟩
  rw [List.count_append]
  show (s.view j).listed = _
  split_ifs with terminal
  · exact (inv.exact j).settled fun live => live.not_terminal ⟨h, found, terminal⟩
  · have live := (Record.terminal_or_live ((inv.exact j).status h found)).resolve_left terminal
    exact (inv.exact j).live ⟨h, found, live⟩

theorem LeaseInv.sweep_held (inv : LeaseInv s) (ok : Admitted cfg s .recover)
    (next : step cfg s .recover = some t) {w : ℕ} {j : JobId} {since : ℤ}
    (held : (s.worker w).held = some (j, since)) :
    (t.view j).queued = 0 ∧ (t.view j).processing = (s.view j).processing ∧
      (t.view j).record.map Record.status = (s.view j).record.map Record.status := by
  have queued := (inv.live_of_held held).2.1
  have view : t.view j = (JobView.recover (s.clock - cfg.recoveryLock) s.clock)^[
      (s.view j).processing] (s.view j) := by
    cases step_cases cfg next with
    | recover => exact view_recoverScript _ _ _ _
  rw [view]
  rcases (inv.held w j since held).swept (inv.exact j) (ok.2 w j since held) with
    eq | ⟨h, found, eq⟩
  · rw [eq]
    exact ⟨queued, rfl, rfl⟩
  · rw [eq]
    exact ⟨queued, rfl, by simp [found]⟩

/-- In every run without expiry in which each worker finishes or abandons its claim within the
recovery lease, the queue guarantees hold in every state. -/
theorem lease_guarantees (cfg : QueueConfig) {as : List Action} {s : World}
    (run : (queueMachine cfg).Run as s)
    (along : (queueMachine cfg).Along (Admitted cfg) World.init as) : Guaranteed cfg s := by
  have keep : ∀ s a t, LeaseInv s → Admitted cfg s a → (queueMachine cfg).step s a = some t →
      LeaseInv t := fun _ _ _ inv ok next => step_leaseInv inv ok next
  have inv : LeaseInv s := Machine.run_invariant (I := LeaseInv) leaseInv_init keep along run
  refine ⟨fun j => inv.count_eq, inv.unique, fun t ok next w j since held => ?_,
    fun bs t rest later j h found terminal => ?_⟩
  · obtain ⟨queued, processing, status⟩ := inv.sweep_held ok next held
    exact ⟨List.count_eq_zero.1 queued, processing, status⟩
  · obtain ⟨-, h', found', -, same⟩ := Machine.exec_invariant (P := Admitted cfg)
      (I := fun t => LeaseInv t ∧ FinishedAs j h.outcome t)
      (fun s a t both ok next => ⟨keep s a t both.1 ok next,
        step_finishedAs both.2 ok.1 both.1.hsetOpen both.1.finishOpen next⟩)
      ⟨inv, h, found, terminal, rfl⟩ rest later
    exact ⟨h', found', congrArg Outcome.status same⟩

/-- A sweep runs between a claim's `HGETALL` and its `HSET`, and a second one while the job runs;
another worker dies with its job, which a third sweep requeues. -/
def timelyRun : List Action :=
  [.enqueue "job" "payload", .enqueue "lost" "payload", .blmove 0, .hgetall 0, .recover, .tick 20,
    .blmove 1, .abandon 1, .readClock 0, .hset 0, .recover, .tick 30, .recover,
    .finish 0 (.succeeded (some "result")), .tick 40, .recover]

theorem timelyRun_timely :
    (queueMachine testConfig).Along (fun s _ => Timely testConfig s) World.init timelyRun := by
  repeat' refine Machine.Along.cons ?_ rfl ?_
  case refine_2 => exact Machine.along_nil _
  all_goals
    rintro (_ | _ | w) j since held <;> cases held
    all_goals decide

theorem lease_guarantees_timelyRun :
    ∃ s, (queueMachine testConfig).Run timelyRun s ∧ s.redis.queue = ["lost"] ∧
      (s.redis.job "job").any (fun h => h.status = some .succeeded) ∧ Guaranteed testConfig s := by
  refine ⟨_, rfl, rfl, rfl, @lease_guarantees testConfig timelyRun _ rfl (.and ?_ ?_)⟩
  · exact Machine.along_of_forall_mem (by simp [timelyRun, NoExpiry])
  · exact timelyRun_timely

end Kernexys.Queue
