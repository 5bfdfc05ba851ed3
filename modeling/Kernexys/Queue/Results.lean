import Kernexys.Lib.JsonText
import Kernexys.Queue.Expiry

/-!
# Whose result a record holds

A job ID that comes from an idempotency key can be accepted again once its record has expired, while
a worker still works on the job that had the ID before.  `finish` names the job by its ID alone.  A
history of the queue counts how often each ID was accepted, remembers which of these jobs each worker
read, and for which one the runtime gave the last answer and the last stored result.  Every record that
succeeded did so by its own job exactly when no `finish` delivers the answer for an earlier job to a
later one (`results_belong_iff`).
-/

namespace Kernexys.Queue

/-- The payload that `enqueue_job` hands to `enqueue`, as `json.dumps` writes it with sorted keys. -/
def jobPayload (deployment endpoint text : String) : String :=
  JsonText.dumpsTexts 0 [("deployment", deployment), ("endpoint", endpoint), ("text", text)]

/-! ## The history -/

/-- An answer of the runtime to a worker: for which of the jobs that had the ID, for the text of which
payload.  There is no result if the body of the response was empty. -/
structure Answer where
  birth : ℕ
  payload : String
  result : Option String
deriving DecidableEq

/-- How often each ID was accepted, which of the jobs with its ID each worker read, the answer with
which each ID last succeeded, and the one whose result was last stored. -/
structure Lineage where
  births : JobId → ℕ
  claim : ℕ → ℕ
  answer : JobId → Option Answer
  stored : JobId → Option Answer

namespace Lineage

/-- The history of the initial state. -/
def empty : Lineage := ⟨fun _ => 0, fun _ => 0, fun _ => none, fun _ => none⟩

/-- The history after a step from `s`. -/
def note (cfg : QueueConfig) (s : World) (a : Action) (g : Lineage) : Lineage :=
  match a with
  | .enqueue j payload =>
    if (enqueueScript cfg s.clock j payload s.redis).1 = .created then
      { g with births := Function.update g.births j (g.births j + 1) }
    else g
  | .hgetall w =>
    match s.worker w with
    | .popped j _ => { g with claim := Function.update g.claim w (g.births j) }
    | _ => g
  | .finish w (.succeeded result) =>
    match s.worker w with
    | .claimed j _ payload =>
      { g with
        answer := Function.update g.answer j (some ⟨g.claim w, payload, result⟩)
        -- `finish` leaves the stored result alone if there is none to store.
        stored := if result = none then g.stored
          else Function.update g.stored j (some ⟨g.claim w, payload, result⟩) }
    | _ => g
  | _ => g

end Lineage

/-- The queue with its history. -/
def resultMachine (cfg : QueueConfig) : Machine (World × Lineage) Action :=
  (queueMachine cfg).withHistory Lineage.empty (Lineage.note cfg)

/-- The answer is the runtime's for this payload, to a worker that read the present job with the ID
and not an earlier one. -/
structure Answer.For (g : Lineage) (j : JobId) (payload : String) (answer : Answer) : Prop where
  birth : answer.birth = g.births j
  payload : answer.payload = payload

/-- A record that has a payload and succeeded did so with an answer for its own job, whose result is
stored if there is one; and the result that is stored is one of its own job. -/
def ResultsBelong (s : World × Lineage) : Prop :=
  ∀ j h payload, s.1.redis.job j = some h → h.payload = some payload →
    h.status = some .succeeded →
    (∃ answer, s.2.answer j = some answer ∧ answer.For s.2 j payload ∧
      ∀ result, answer.result = some result → h.result = some result) ∧
    ∀ result, h.result = some result → ∃ answer, s.2.stored j = some answer ∧
      answer.For s.2 j payload ∧ answer.result = some result

/-- A `finish` that lets a record with a payload succeed is by a worker that read this job. -/
def FinishCurrent (s : World × Lineage) (a : Action) : Prop :=
  ∀ w result j since payload, a = .finish w (.succeeded result) →
    s.1.worker w = .claimed j since payload →
    (∃ h, s.1.redis.job j = some h ∧ h.payload ≠ none) → s.2.claim w = s.2.births j

/-! ## What the history says about workers and records -/

/-- The job a worker has read, and the payload it found. -/
def Phase.fetchedJob : Phase → Option (JobId × Option String)
  | .fetched j _ payload => some (j, payload)
  | .stamping j _ payload _ => some (j, payload)
  | .claimed j _ payload => some (j, some payload)
  | _ => none

/-- A payload that a record or a worker has of a job is the one its last enqueue stored; a worker
that read an earlier job may have another. -/
structure LineageInv (s : World × Lineage) : Prop where
  record : ∀ j h payload, s.1.redis.job j = some h → h.payload = some payload →
    s.1.accepted j = some payload
  claim : ∀ w j payload, (s.1.worker w).fetchedJob = some (j, payload) → s.2.claim w ≤ s.2.births j
  fetched : ∀ w j payload, (s.1.worker w).fetchedJob = some (j, some payload) →
    s.2.claim w = s.2.births j → s.1.accepted j = some payload

/-- An enqueue is refused and noted nowhere, or accepted and counted. -/
theorem step_enqueue_note {cfg : QueueConfig} {s t : World} {j : JobId} {payload : String}
    (next : step cfg s (.enqueue j payload) = some t) (g : Lineage) :
    (t = s ∧ g.note cfg s (.enqueue j payload) = g) ∨
      (s.redis.job j = none ∧ t.accepted = Function.update s.accepted j (some payload) ∧
        g.note cfg s (.enqueue j payload) =
          { g with births := Function.update g.births j (g.births j + 1) }) := by
  rcases enqueueScript_cases cfg s.clock j payload s.redis with ⟨reply, same⟩ | ⟨fresh, reply⟩
  · left
    refine ⟨?_, by simp [Lineage.note, reply]⟩
    generalize out : enqueueScript cfg s.clock j payload s.redis = answer at reply same
    simp only [step, out] at next
    obtain ⟨answer, r⟩ := answer
    obtain rfl : r = s.redis := same
    cases answer with
    | created => exact absurd rfl reply
    | conflict | existing | full => exact (Option.some.inj next).symm
  · right
    refine ⟨fresh, ?_, by simp [Lineage.note, reply]⟩
    simp only [step, reply, Option.some.injEq] at next
    rw [← next]

section Note

variable {cfg : QueueConfig} {s t : World} {a : Action} {g : Lineage} {j : JobId}

/-- The count of an ID grows only when it is accepted, and then it had no record. -/
theorem note_births (next : step cfg s a = some t) :
    ((g.note cfg s a).births j = g.births j ∧ t.accepted j = s.accepted j) ∨
      ((g.note cfg s a).births j = g.births j + 1 ∧ s.redis.job j = none) := by
  cases a with
  | enqueue i payload =>
    rcases step_enqueue_note next g with ⟨rfl, same⟩ | ⟨fresh, accepted, counted⟩
    · rw [same]
      exact Or.inl ⟨rfl, rfl⟩
    · rw [counted, accepted]
      by_cases eq : j = i
      · subst eq
        exact Or.inr ⟨by simp, fresh⟩
      · exact Or.inl ⟨by simp [eq], by simp [eq]⟩
  | hgetall w =>
    left
    cases step_cases cfg next with
    | hgetall w i since phase => exact ⟨by simp [Lineage.note, phase], rfl⟩
  | finish w v =>
    left
    cases step_cases cfg next with
    | finish w v i since payload phase =>
      cases v with
      | succeeded result => exact ⟨by simp [Lineage.note, phase], rfl⟩
      | failed error => exact ⟨rfl, rfl⟩
  | blmove | readClock | hset | lrem | recover | abandon | tick | expire =>
    left
    cases step_cases cfg next
    all_goals exact ⟨rfl, rfl⟩

theorem births_le_note (next : step cfg s a = some t) : g.births j ≤ (g.note cfg s a).births j := by
  rcases @note_births cfg s t a g j next with ⟨same, -⟩ | ⟨grown, -⟩
  · exact same.ge
  · exact grown ▸ Nat.le_succ _

/-- A worker that has read its job keeps what it read. -/
theorem note_claim {w : ℕ} (fetched : (s.worker w).fetchedJob ≠ none) :
    (g.note cfg s a).claim w = g.claim w := by
  unfold Lineage.note
  split
  · split_ifs <;> rfl
  · rename_i i
    split
    · rename_i j since popped
      by_cases eq : w = i
      · subst eq
        rw [popped] at fetched
        exact absurd rfl fetched
      · simp [eq]
    · rfl
  · split <;> rfl
  · rfl

/-- Only a `finish` by which the job succeeds changes its last answer and its last stored result. -/
theorem note_answer (other : ∀ result, s.finishedJob a ≠ some (j, .succeeded result)) :
    (g.note cfg s a).answer j = g.answer j ∧ (g.note cfg s a).stored j = g.stored j := by
  unfold Lineage.note
  split
  · split_ifs <;> exact ⟨rfl, rfl⟩
  · split <;> exact ⟨rfl, rfl⟩
  · rename_i w result
    split
    · rename_i i since payload phase
      have apart : j ≠ i := by
        rintro rfl
        exact other result (by simp [World.finishedJob, phase])
      refine ⟨by simp [apart], ?_⟩
      dsimp only
      split_ifs
      · rfl
      · simp [apart]
    · exact ⟨rfl, rfl⟩
  · exact ⟨rfl, rfl⟩

end Note

/-! ## Payloads -/

/-- The payload of the record. -/
def JobView.payload (v : JobView) : Option String := v.record.bind Record.payload

/-- The sweep writes no payload. -/
theorem JobView.payload_recover (strandedBefore now : ℤ) (v : JobView) :
    (v.recover strandedBefore now).payload = v.payload := by
  rcases v.recover_cases strandedBefore now with ⟨-, eq⟩ | ⟨h, found, -, cases⟩
  · rw [eq]
    rfl
  · rcases cases with ⟨-, eq⟩ | ⟨stamp, -, ⟨-, -, eq⟩ | ⟨-, eq⟩⟩
    · simp [eq, payload, found]
    · simp [eq, payload, found]
    · rw [eq]

/-- A step leaves the payload of a record, takes it away, or stores the one of an enqueue. -/
theorem step_payload {cfg : QueueConfig} {s t : World} {a : Action} (next : step cfg s a = some t)
    (j : JobId) :
    ((t.view j).payload = (s.view j).payload ∧ t.accepted j = s.accepted j) ∨
      (t.view j).payload = none ∨ (t.view j).payload = t.accepted j := by
  have job := step_job next j
  generalize t.view j = v, t.accepted j = accepted at job ⊢
  cases job with
  | same | popped | unlinked => exact Or.inl ⟨rfl, rfl⟩
  | created payload isEnqueue fresh => exact Or.inr (Or.inr rfl)
  | stamped w since payload reading isHset phase =>
    left
    refine ⟨?_, rfl⟩
    cases found : (s.view j).record <;> simp [JobView.payload, found, stampedRecord]
  | finished w v since payload isFinish phase =>
    left
    refine ⟨?_, rfl⟩
    cases found : (s.view j).record <;>
      simp [JobView.payload, found, finishedRecord, Verdict.write_payload]
  | swept isRecover =>
    left
    refine ⟨?_, rfl⟩
    exact Function.Iterate.rec (fun v : JobView => v.payload = (s.view j).payload) rfl
      (fun v same => (JobView.payload_recover _ _ v).trans same) _
  | expired isExpire => exact Or.inr (Or.inl rfl)

/-- A worker has read a job with its payload, or reads it in this step. -/
theorem step_fetchedJob {cfg : QueueConfig} {s t : World} {a : Action} {w : ℕ} {j : JobId}
    {payload : Option String} (next : step cfg s a = some t)
    (fetched : (t.worker w).fetchedJob = some (j, payload)) :
    (s.worker w).fetchedJob = some (j, payload) ∨
      (a = .hgetall w ∧ (∃ since, s.worker w = .popped j since) ∧
        ∃ h, s.redis.job j = some h ∧ h.payload = payload) := by
  have own := step_worker next w
  generalize t.worker w = p at own fetched
  cases own with
  | same => exact Or.inl fetched
  | popped i rest isBlmove idle front => cases fetched
  | fetched i since isHgetall phase =>
    right
    unfold World.fetch at fetched
    split at fetched
    · cases fetched
    · rename_i h found
      split_ifs at fetched
      · cases fetched
      · obtain ⟨rfl, rfl⟩ := Prod.mk.inj (Option.some.inj fetched)
        exact ⟨isHgetall, ⟨since, phase⟩, h, found, rfl⟩
  | read i since payload' isRead phase =>
    rw [phase]
    exact Or.inl fetched
  | stamped i since payload' reading isHset phase =>
    rw [phase]
    cases payload' with
    | none => cases fetched
    | some payload' => exact Or.inl fetched
  | released => cases fetched

theorem lineageInv_init : LineageInv (World.init, Lineage.empty) := by
  refine ⟨?_, ?_, ?_⟩
  · rintro j h payload ⟨⟩
  · rintro w j payload ⟨⟩
  · rintro w j payload ⟨⟩

theorem step_lineageInv {cfg : QueueConfig} {s t : World} {a : Action} {g : Lineage}
    (inv : LineageInv (s, g)) (next : step cfg s a = some t) :
    LineageInv (t, g.note cfg s a) := by
  have stored : ∀ j payload, (t.view j).payload = some payload → t.accepted j = some payload := by
    intro j payload found
    rcases step_payload next j with ⟨same, accepted⟩ | gone | fresh
    · rw [same] at found
      obtain ⟨h, record, has⟩ := Option.bind_eq_some_iff.1 found
      rw [accepted]
      exact inv.record j h payload record has
    · rw [gone] at found
      cases found
    · rw [← fresh, found]
  have claims : ∀ w j payload, (t.worker w).fetchedJob = some (j, payload) →
      (g.note cfg s a).claim w ≤ g.births j := by
    intro w j payload fetched
    rcases step_fetchedJob next fetched with before | ⟨rfl, ⟨since, popped⟩, -⟩
    · rw [note_claim (by rw [before]; simp)]
      exact inv.claim w j payload before
    · simp [Lineage.note, popped]
  refine ⟨fun j h payload found has => stored j payload (Option.bind_eq_some_iff.2 ⟨h, found, has⟩),
    fun w j payload fetched => (claims w j payload fetched).trans (births_le_note next),
    fun w j payload fetched current => ?_⟩
  -- The worker read the last job with this ID, so the ID was not accepted in this step.
  have bound := claims w j (some payload) fetched
  rcases note_births (g := g) (j := j) next with ⟨births, accepted⟩ | ⟨grown, -⟩
  · dsimp only at current ⊢
    rw [accepted]
    rcases step_fetchedJob next fetched with before | ⟨-, -, h, found, has⟩
    · refine inv.fetched w j payload before ?_
      rw [note_claim (by rw [before]; simp), births] at current
      exact current
    · exact inv.record j h payload found has
  · dsimp only at current
    omega

/-! ## Results -/

/-- The record has this payload and this result. -/
def JobView.Holds (payload result : String) (v : JobView) : Prop :=
  ∃ h, v.record = some h ∧ h.payload = some payload ∧ h.result = some result

/-- The record has this payload, and it succeeded with this result or without one. -/
def JobView.Succeeded (payload : String) (result : Option String) (v : JobView) : Prop :=
  ∃ h, v.record = some h ∧ h.payload = some payload ∧ h.status = some .succeeded ∧ h.result = result

theorem JobView.holds_of_getD {v : JobView} {payload result : String}
    (has : (v.record.getD {}).payload = some payload)
    (stored : (v.record.getD {}).result = some result) : v.Holds payload result := by
  unfold Holds
  cases found : v.record with
  | none =>
    rw [found] at has
    cases has
  | some h =>
    rw [found] at has stored
    exact ⟨h, rfl, has, stored⟩

/-- The sweep writes no result. -/
theorem JobView.holds_recover (strandedBefore now : ℤ) (payload result : String) (v : JobView) :
    (v.recover strandedBefore now).Holds payload result ↔ v.Holds payload result := by
  rcases v.recover_cases strandedBefore now with ⟨-, eq⟩ | ⟨h, found, -, cases⟩
  · rw [eq]
    exact Iff.rfl
  · rcases cases with ⟨-, eq⟩ | ⟨stamp, -, ⟨-, -, eq⟩ | ⟨-, eq⟩⟩
    · simp [eq, Holds, found]
    · simp [eq, Holds, found]
    · rw [eq]

/-- The sweep lets no job succeed. -/
theorem JobView.succeeded_of_recover {strandedBefore now : ℤ} {payload : String}
    {result : Option String} {v : JobView}
    (succeeded : (v.recover strandedBefore now).Succeeded payload result) :
    v.Succeeded payload result := by
  rcases v.recover_cases strandedBefore now with ⟨-, eq⟩ | ⟨h, found, -, cases⟩
  · rw [eq] at succeeded
    exact succeeded
  · obtain ⟨h', found', has, status, stored⟩ := succeeded
    rcases cases with ⟨-, eq⟩ | ⟨stamp, -, ⟨-, -, eq⟩ | ⟨-, eq⟩⟩
    · rw [eq] at found'
      obtain rfl := Option.some.inj found'
      exact ⟨h, found, has, status, stored⟩
    · rw [eq] at found'
      obtain rfl := Option.some.inj found'
      cases status
    · rw [eq] at found'
      exact ⟨h', found', has, status, stored⟩

/-- A result that a record holds was there before a step, or a `finish` of its job wrote it. -/
theorem step_holds {cfg : QueueConfig} {s t : World} {a : Action} {j : JobId}
    {payload result : String} (next : step cfg s a = some t)
    (holds : (t.view j).Holds payload result) :
    (s.view j).Holds payload result ∨ s.finishedJob a = some (j, .succeeded (some result)) := by
  have job := step_job next j
  generalize t.view j = v, t.accepted j = accepted at job holds
  cases job with
  | same | popped | unlinked => exact Or.inl holds
  | created payload isEnqueue fresh =>
    obtain ⟨h, eq, -, stored⟩ := holds
    obtain rfl := Option.some.inj eq
    cases stored
  | stamped w since payload reading isHset phase =>
    left
    obtain ⟨h, eq, has, stored⟩ := holds
    obtain rfl := Option.some.inj eq
    exact JobView.holds_of_getD has stored
  | finished w v since payload isFinish phase =>
    obtain ⟨h, eq, has, stored⟩ := holds
    obtain rfl := Option.some.inj eq
    rcases v with (_ | written) | error
    · exact Or.inl (JobView.holds_of_getD has stored)
    · right
      obtain rfl := Option.some.inj stored
      simp [World.finishedJob, isFinish, phase]
    · exact Or.inl (JobView.holds_of_getD has stored)
  | swept isRecover =>
    left
    refine (Function.Iterate.rec (fun v : JobView => v.Holds payload result ↔
      (s.view j).Holds payload result) Iff.rfl (fun v same => ?_) _).1 holds
    exact (JobView.holds_recover _ _ payload result v).trans same
  | expired isExpire =>
    obtain ⟨h, eq, -⟩ := holds
    cases eq

/-- A record that succeeded had done so before a step, or a `finish` lets its job succeed. -/
theorem step_succeeded {cfg : QueueConfig} {s t : World} {a : Action} {j : JobId} {payload : String}
    {result : Option String} (next : step cfg s a = some t)
    (other : ∀ result, s.finishedJob a ≠ some (j, .succeeded result))
    (succeeded : (t.view j).Succeeded payload result) : (s.view j).Succeeded payload result := by
  have job := step_job next j
  generalize t.view j = v, t.accepted j = accepted at job succeeded
  cases job with
  | same | popped | unlinked => exact succeeded
  | created payload isEnqueue fresh =>
    obtain ⟨h, eq, -, status, -⟩ := succeeded
    obtain rfl := Option.some.inj eq
    cases status
  | stamped w since payload reading isHset phase =>
    obtain ⟨h, eq, -, status, -⟩ := succeeded
    obtain rfl := Option.some.inj eq
    cases status
  | finished w v since payload isFinish phase =>
    cases v with
    | succeeded written => exact absurd (by simp [World.finishedJob, isFinish, phase]) (other written)
    | failed error =>
      obtain ⟨h, eq, -, status, -⟩ := succeeded
      obtain rfl := Option.some.inj eq
      cases status
  | swept isRecover =>
    refine Function.Iterate.rec (fun v : JobView => v.Succeeded payload result →
      (s.view j).Succeeded payload result) id (fun v before => ?_) _ succeeded
    exact before ∘ JobView.succeeded_of_recover
  | expired isExpire =>
    obtain ⟨h, eq, -⟩ := succeeded
    cases eq

/-- A `finish` is by a worker that has claimed the job. -/
theorem finishedJob_eq_some {s : World} {a : Action} {j : JobId} {v : Verdict}
    (finished : s.finishedJob a = some (j, v)) :
    ∃ w since payload, a = .finish w v ∧ s.worker w = .claimed j since payload := by
  unfold World.finishedJob at finished
  split at finished
  · rename_i w v'
    split at finished
    · rename_i i since payload phase
      obtain ⟨rfl, rfl⟩ := Prod.mk.inj (Option.some.inj finished)
      exact ⟨w, since, payload, rfl, phase⟩
    · cases finished
  · cases finished

/-- The history and the record after a job has succeeded. -/
theorem step_finish_succeeded {cfg : QueueConfig} {s t : World} {w : ℕ} {j : JobId} {since : ℤ}
    {payload : String} {result : Option String}
    (next : step cfg s (.finish w (.succeeded result)) = some t)
    (phase : s.worker w = .claimed j since payload) (g : Lineage) :
    (t.view j).record = some (finishedRecord cfg s.clock (.succeeded result) (s.view j).record) ∧
      (g.note cfg s (.finish w (.succeeded result))).births = g.births ∧
      (g.note cfg s (.finish w (.succeeded result))).answer j = some ⟨g.claim w, payload, result⟩ ∧
      (g.note cfg s (.finish w (.succeeded result))).stored j =
        if result = none then g.stored j else some ⟨g.claim w, payload, result⟩ := by
  have finished : s.finishedJob (.finish w (.succeeded result)) = some (j, .succeeded result) := by
    simp [World.finishedJob, phase]
  refine ⟨step_finished next finished, ?_, ?_, ?_⟩
  · simp [Lineage.note, phase]
  · simp [Lineage.note, phase]
  · simp only [Lineage.note, phase]
    split_ifs
    · rfl
    · simp

/-- Every record with a payload has its answer and its result from its own job, whatever its status. -/
structure StoredBelong (s : World × Lineage) : Prop where
  answered : ∀ j payload result, (s.1.view j).Succeeded payload result →
    ∃ answer, s.2.answer j = some answer ∧ answer.For s.2 j payload ∧
      ∀ returned, answer.result = some returned → result = some returned
  stored : ∀ j payload result, (s.1.view j).Holds payload result →
    ∃ answer, s.2.stored j = some answer ∧ answer.For s.2 j payload ∧ answer.result = some result

theorem StoredBelong.resultsBelong {s : World × Lineage} (belong : StoredBelong s) :
    ResultsBelong s :=
  fun j h payload found has status =>
    ⟨belong.answered j payload h.result ⟨h, found, has, status, rfl⟩,
      fun result stored => belong.stored j payload result ⟨h, found, has, stored⟩⟩

/-- An answer stays one for the present job as long as the ID has a record. -/
theorem Answer.For.note {cfg : QueueConfig} {s t : World} {a : Action} {g : Lineage} {j : JobId}
    {payload : String} {answer : Answer} (own : answer.For g j payload)
    (next : step cfg s a = some t) (known : s.redis.job j ≠ none) :
    answer.For (g.note cfg s a) j payload := by
  rcases note_births (g := g) (j := j) next with ⟨births, -⟩ | ⟨-, fresh⟩
  · exact ⟨own.birth.trans births.symm, own.payload⟩
  · exact absurd fresh known

/-- A worker that read the present job has the payload of its record. -/
theorem LineageInv.answer_for {s : World × Lineage} (inv : LineageInv s) {w : ℕ} {j : JobId}
    {since : ℤ} {claimed payload : String} {h : Record} (phase : s.1.worker w = .claimed j since claimed)
    (current : s.2.claim w = s.2.births j) (found : s.1.redis.job j = some h)
    (has : h.payload = some payload) (result : Option String) :
    Answer.For s.2 j payload ⟨s.2.claim w, claimed, result⟩ := by
  have fetched : (s.1.worker w).fetchedJob = some (j, some claimed) := by rw [phase]; rfl
  have accepted := inv.fetched w j claimed fetched current
  exact ⟨current, Option.some.inj (accepted.symm.trans (inv.record j h payload found has))⟩

/-- A record that `finish` leaves with a payload had it before. -/
theorem payload_of_finishedRecord {cfg : QueueConfig} {now : ℤ} {v : Verdict} {record : Option Record}
    {payload : String} (has : (finishedRecord cfg now v record).payload = some payload) :
    ∃ h, record = some h ∧ h.payload = some payload := by
  cases record with
  | none => simp [finishedRecord, Verdict.write_payload] at has
  | some h => exact ⟨h, rfl, by simpa [finishedRecord, Verdict.write_payload] using has⟩

/-- The job succeeds by a worker that read it. -/
theorem step_storedBelong_finish {cfg : QueueConfig} {s t : World} {g : Lineage} {w : ℕ} {j : JobId}
    {since : ℤ} {claimed payload : String} {result : Option String} (inv : LineageInv (s, g))
    (belong : StoredBelong (s, g)) (current : FinishCurrent (s, g) (.finish w (.succeeded result)))
    (next : step cfg s (.finish w (.succeeded result)) = some t)
    (phase : s.worker w = .claimed j since claimed) {h : Record} (after : (t.view j).record = some h)
    (has : h.payload = some payload) :
    (∃ answer, (g.note cfg s (.finish w (.succeeded result))).answer j = some answer ∧
      answer.For (g.note cfg s (.finish w (.succeeded result))) j payload ∧
      ∀ returned, answer.result = some returned → h.result = some returned) ∧
    ∀ returned, h.result = some returned →
      ∃ answer, (g.note cfg s (.finish w (.succeeded result))).stored j = some answer ∧
        answer.For (g.note cfg s (.finish w (.succeeded result))) j payload ∧
        answer.result = some returned := by
  obtain ⟨record, -, answered, stored⟩ := step_finish_succeeded next phase g
  obtain rfl := Option.some.inj (record.symm.trans after)
  obtain ⟨before, found, had⟩ := payload_of_finishedRecord has
  have known : s.redis.job j = some before := found
  have birth := current w result j since claimed rfl phase ⟨before, known, by rw [had]; simp⟩
  have mine := (inv.answer_for phase birth known had result).note next (by rw [known]; simp)
  refine ⟨⟨_, answered, mine, fun returned same => ?_⟩, fun returned kept => ?_⟩
  · dsimp only at same
    rw [same, found]
    rfl
  · rw [stored]
    cases result with
    | none =>
      rw [found] at kept
      obtain ⟨answer, last, own, same⟩ := belong.stored j payload returned ⟨before, found, had, kept⟩
      exact ⟨answer, last, own.note next (by rw [known]; simp), same⟩
    | some written =>
      rw [found] at kept
      exact ⟨_, rfl, mine, kept⟩

theorem step_storedBelong {cfg : QueueConfig} {s t : World} {a : Action} {g : Lineage}
    (inv : LineageInv (s, g)) (belong : StoredBelong (s, g)) (current : FinishCurrent (s, g) a)
    (next : step cfg s a = some t) : StoredBelong (t, g.note cfg s a) := by
  refine ⟨fun j payload result succeeded => ?_, fun j payload result holds => ?_⟩
  all_goals by_cases finishing : ∃ result, s.finishedJob a = some (j, .succeeded result)
  · obtain ⟨written, finished⟩ := finishing
    obtain ⟨w, since, claimed, rfl, phase⟩ := finishedJob_eq_some finished
    obtain ⟨h, found, has, -, rfl⟩ := succeeded
    exact (step_storedBelong_finish inv belong current next phase found has).1
  · have other := fun result finished => finishing ⟨result, finished⟩
    have before := step_succeeded next other succeeded
    obtain ⟨answer, last, own, same⟩ := belong.answered j payload result before
    obtain ⟨h, found, -⟩ := before
    have known : s.redis.job j = some h := found
    exact ⟨answer, (note_answer other).1.trans last, own.note next (by rw [known]; simp), same⟩
  · obtain ⟨written, finished⟩ := finishing
    obtain ⟨w, since, claimed, rfl, phase⟩ := finishedJob_eq_some finished
    obtain ⟨h, found, has, stored⟩ := holds
    exact (step_storedBelong_finish inv belong current next phase found has).2 result stored
  · have other := fun result finished => finishing ⟨result, finished⟩
    have before := (step_holds next holds).resolve_right (other _)
    obtain ⟨answer, last, own, same⟩ := belong.stored j payload result before
    obtain ⟨h, found, -⟩ := before
    have known : s.redis.job j = some h := found
    exact ⟨answer, (note_answer other).2.trans last, own.note next (by rw [known]; simp), same⟩

/-- A `finish` that ends in a state whose results belong is by a worker that read its job. -/
theorem finishCurrent_of_resultsBelong {cfg : QueueConfig} {s : World × Lineage} {t : World}
    {a : Action} (next : step cfg s.1 a = some t) (belong : ResultsBelong (t, s.2.note cfg s.1 a)) :
    FinishCurrent s a := by
  rintro w result j since payload rfl phase ⟨h, found, has⟩
  obtain ⟨stored, hasPayload⟩ := Option.ne_none_iff_exists'.1 has
  obtain ⟨written, births, answered, -⟩ := step_finish_succeeded next phase s.2
  rw [show (s.1.view j).record = some h from found] at written
  obtain ⟨⟨answer, last, own, -⟩, -⟩ := belong j _ stored written
    (by rw [finishedRecord, Verdict.write_payload]; exact hasPayload) (by cases result <;> rfl)
  have birth := own.birth
  rw [births] at birth
  obtain rfl := Option.some.inj (answered.symm.trans last)
  exact birth

/-- Every state of the run has its results where they belong exactly when every `finish` of the run
that lets a record with a payload succeed is by a worker that read this very job. -/
theorem results_belong_iff (cfg : QueueConfig) {as : List Action} {u : World}
    (run : (queueMachine cfg).Run as u) :
    (resultMachine cfg).Throughout ResultsBelong as ↔
      (resultMachine cfg).Along FinishCurrent (World.init, Lineage.empty) as := by
  have recorded : ∃ g, (resultMachine cfg).Run as (u, g) := run.withHistory
  obtain ⟨g, recorded⟩ := recorded
  have known : ∀ pre s, (resultMachine cfg).Run pre s → LineageInv s := by
    intro pre s reach
    refine Machine.run_invariant (P := fun _ _ => True) lineageInv_init (fun s a t inv _ next => ?_)
      (fun _ _ _ _ _ _ => trivial) reach
    obtain ⟨next, noted⟩ := Machine.withHistory_step.1 next
    have kept := step_lineageInv inv next
    rw [← noted] at kept
    exact kept
  constructor
  · refine Machine.Throughout.along (fun pre s a t reach next belong => ?_) recorded
    obtain ⟨next, noted⟩ := Machine.withHistory_step.1 next
    have eq : t = (t.1, s.2.note cfg s.1 a) := Prod.ext rfl noted
    rw [eq] at belong
    exact finishCurrent_of_resultsBelong next belong
  · intro along pre post s split reach
    have init : StoredBelong (World.init, Lineage.empty) :=
      ⟨by rintro j payload result ⟨h, ⟨⟩, -⟩, by rintro j payload result ⟨h, ⟨⟩, -⟩⟩
    refine StoredBelong.resultsBelong (Machine.Along.throughout (m := resultMachine cfg) init
      (fun pre s a t reach belong current next => ?_) along pre post s split reach)
    obtain ⟨next, noted⟩ := Machine.withHistory_step.1 next
    have kept := step_storedBelong (known pre s reach) belong current next
    rw [← noted] at kept
    exact kept

/-- What the runtime returns for a positive text. -/
def positiveResult : String := JsonText.dumpsTexts 0 [("label", "positive")]

/-- A worker claims a job shortly before its record expires; the key is used again for another text,
and then the worker finishes. -/
def reusedKey : List Action :=
  [.enqueue "job" (jobPayload "default/sentiment" "http://sentiment" "good"), .tick 599, .blmove 0,
    .hgetall 0, .readClock 0, .hset 0, .tick 1, .expire "job",
    .enqueue "job" (jobPayload "default/sentiment" "http://sentiment" "bad"),
    .finish 0 (.succeeded (some positiveResult))]

theorem results_belong_iff_reusedKey :
    ∃ u, (queueMachine testConfig).Run reusedKey u ∧
      ((resultMachine testConfig).Throughout ResultsBelong reusedKey ↔
        (resultMachine testConfig).Along FinishCurrent (World.init, Lineage.empty) reusedKey) :=
  ⟨_, rfl, results_belong_iff testConfig rfl⟩

theorem jobPayload_ne :
    jobPayload "default/sentiment" "http://sentiment" "good" ≠
      jobPayload "default/sentiment" "http://sentiment" "bad" := by
  intro eq
  have read := congrArg JsonText.loadsTexts eq
  rw [jobPayload, jobPayload, JsonText.loadsTexts_dumpsTexts, JsonText.loadsTexts_dumpsTexts] at read
  exact absurd read (by decide)

/-- The record for the second text holds the result that was computed for the first. -/
theorem reusedKey_mixes_results :
    ∃ u h, (resultMachine testConfig).Run reusedKey u ∧ u.1.redis.job "job" = some h ∧
      h.payload = some (jobPayload "default/sentiment" "http://sentiment" "bad") ∧
      h.status = some .succeeded ∧ h.result = some positiveResult ∧
      u.2.answer "job" =
        some ⟨1, jobPayload "default/sentiment" "http://sentiment" "good", some positiveResult⟩ ∧
      ¬ ResultsBelong u := by
  refine ⟨_, _, rfl, rfl, rfl, rfl, rfl, rfl, fun belong => ?_⟩
  obtain ⟨⟨answer, last, own, -⟩, -⟩ := belong "job" _ _ rfl rfl rfl
  obtain rfl := Option.some.inj last
  exact jobPayload_ne own.payload

end Kernexys.Queue
