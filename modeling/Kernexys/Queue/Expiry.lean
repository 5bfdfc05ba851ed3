import Kernexys.Queue.Delivery

/-!
# Records that expire between two commands

A record may lapse at any moment.  `HSET` recreates a missing key, without the payload and without
a TTL, so a claim's stamp or a `finish` that lands after the expiry leaves a record that `enqueue`
answers with a conflict.  The records of a run stay well formed exactly when no such write lands on
a missing key (`records_wellFormed_iff`).
-/

namespace Kernexys.Queue

/-- Every record carries the payload its enqueue stored, has a TTL, and an identical repeat of that
enqueue is not a conflict. -/
def WellFormed (cfg : QueueConfig) (s : World) : Prop :=
  ∀ j h, s.redis.job j = some h → h.expireAt ≠ none ∧ ∃ payload, s.accepted j = some payload ∧
    h.payload = some payload ∧ (enqueueScript cfg s.clock j payload s.redis).1 ≠ .conflict

/-- The record, if there is one, carries the payload of its enqueue and has a TTL. -/
def JobView.Carries (v : JobView) (accepted : Option String) : Prop :=
  ∀ h ∈ v.record, accepted ≠ none ∧ h.payload = accepted ∧ h.expireAt ≠ none

theorem wellFormed_iff_carries (cfg : QueueConfig) (s : World) :
    WellFormed cfg s ↔ ∀ j, (s.view j).Carries (s.accepted j) := by
  constructor
  · intro formed j h found
    obtain ⟨ttl, payload, accepted, same, -⟩ := formed j h found
    exact ⟨by simp [accepted], by rw [same, accepted], ttl⟩
  · intro carries j h found
    obtain ⟨known, same, ttl⟩ := carries j h found
    obtain ⟨payload, accepted⟩ := Option.ne_none_iff_exists'.1 known
    rw [accepted] at same
    refine ⟨ttl, payload, accepted, same, ?_⟩
    rw [enqueueScript_repeat cfg s.clock found same]
    simp

/-- Every state of the run has well formed records. -/
def RecordsWellFormed (cfg : QueueConfig) (as : List Action) : Prop :=
  ∀ pre post s, as = pre ++ post → (queueMachine cfg).Run pre s → WellFormed cfg s

/-- A claim's `HSET` and a `finish` land on a key that exists. -/
def WritesFound (s : World) (a : Action) : Prop :=
  (∀ j ∈ s.stampedJob a, (s.view j).record ≠ none) ∧
    ∀ f ∈ s.finishedJob a, (s.view f.1).record ≠ none

/-- A record that keeps payload and TTL still carries them. -/
theorem JobView.Carries.of_record {v v' : JobView} {accepted : Option String} {h h' : Record}
    (carries : v.Carries accepted) (found : v.record = some h) (found' : v'.record = some h')
    (payload : h'.payload = h.payload) (ttl : h.expireAt ≠ none → h'.expireAt ≠ none) :
    v'.Carries accepted := by
  intro k hk
  rw [found'] at hk
  obtain rfl := Option.some.inj hk
  obtain ⟨known, same, deadline⟩ := carries h found
  exact ⟨known, payload.trans same, ttl deadline⟩

/-- An iteration of the sweep writes neither payload nor TTL. -/
theorem JobView.Carries.recover {v : JobView} {accepted : Option String}
    (carries : v.Carries accepted) (strandedBefore now : ℤ) :
    (v.recover strandedBefore now).Carries accepted := by
  rcases v.recover_cases strandedBefore now with ⟨-, eq⟩ | ⟨h, found, -, cases⟩
  · rw [eq]
    exact carries
  · rcases cases with ⟨-, eq⟩ | ⟨stamp, -, ⟨-, -, eq⟩ | ⟨-, eq⟩⟩
    · rw [eq]
      exact carries.of_record found rfl rfl id
    · rw [eq]
      exact carries.of_record found rfl rfl id
    · rw [eq]
      exact carries

theorem Verdict.write_payload (v : Verdict) (h : Record) : (v.write h).payload = h.payload := by
  rcases v with (_ | result) | error <;> rfl

theorem step_carries {cfg : QueueConfig} {s t : World} {a : Action} {j : JobId}
    (carries : (s.view j).Carries (s.accepted j)) (writes : WritesFound s a)
    (next : step cfg s a = some t) : (t.view j).Carries (t.accepted j) := by
  have job := step_job next j
  generalize t.view j = v, t.accepted j = payload at job ⊢
  cases job with
  | same | popped | unlinked => exact carries
  | created payload isEnqueue fresh =>
    intro h found
    obtain rfl := Option.some.inj found
    simp [freshRecord]
  | stamped w since payload reading isHset phase =>
    obtain ⟨h, found⟩ := Option.ne_none_iff_exists'.1
      (writes.1 j (by simp [World.stampedJob, isHset, phase]))
    rw [found]
    exact carries.of_record found rfl rfl id
  | finished w v since payload isFinish phase =>
    obtain ⟨h, found⟩ := Option.ne_none_iff_exists'.1
      (writes.2 (j, v) (by simp [World.finishedJob, isFinish, phase]))
    rw [found]
    exact carries.of_record found rfl (v.write_payload h) fun _ => by simp [finishedRecord]
  | swept isRecover =>
    exact Function.Iterate.rec (fun v : JobView => v.Carries (s.accepted j)) carries
      (fun v carries => carries.recover _ _) _
  | expired isExpire =>
    intro h found
    cases found

/-- A write that creates a record leaves it without a payload. -/
theorem writesFound_of_carries {cfg : QueueConfig} {s t : World} {a : Action}
    (next : step cfg s a = some t) (carries : ∀ j, (t.view j).Carries (t.accepted j)) :
    WritesFound s a := by
  refine ⟨fun j stamped missing => ?_, fun f finished missing => ?_⟩
  · obtain ⟨reading, written⟩ := step_stamped next stamped
    rw [missing] at written
    obtain ⟨known, same, -⟩ := carries j _ written
    exact known same.symm
  · have written := step_finished next finished
    rw [missing] at written
    obtain ⟨known, same, -⟩ := carries f.1 _ written
    exact known (same.symm.trans (f.2.write_payload {}))

/-- The records of a run are well formed in every state exactly when every claim's `HSET` and every
`finish` of the run lands on a key that exists. -/
theorem records_wellFormed_iff (cfg : QueueConfig) {as : List Action} {u : World}
    (run : (queueMachine cfg).Run as u) :
    RecordsWellFormed cfg as ↔ (queueMachine cfg).Along WritesFound World.init as := by
  refine Machine.throughout_iff_along (I := WellFormed cfg) (fun j h found => ?_)
    (fun _ s a t _ formed writes next => ?_) (fun _ s a t _ next formed => ?_) run
  · cases found
  · rw [wellFormed_iff_carries] at formed ⊢
    exact fun j => step_carries (formed j) writes next
  · exact writesFound_of_carries next ((wellFormed_iff_carries cfg t).1 formed)

/-- The record of the job lapses between a claim's `HGETALL` and its `HSET`. -/
def expiredClaim : List Action :=
  [.enqueue "job" "payload", .tick 599, .blmove 0, .hgetall 0, .readClock 0, .tick 1, .expire "job",
    .hset 0]

theorem records_wellFormed_iff_expiredClaim :
    ∃ u, (queueMachine testConfig).Run expiredClaim u ∧ (RecordsWellFormed testConfig expiredClaim ↔
      (queueMachine testConfig).Along WritesFound World.init expiredClaim) :=
  ⟨_, rfl, records_wellFormed_iff testConfig rfl⟩

/-- The claim's `HSET` brings the record back without payload and TTL, and the identical enqueue is
then a conflict. -/
theorem expiredClaim_leaves_malformed_record :
    ∃ u h, (queueMachine testConfig).Run expiredClaim u ∧ u.redis.job "job" = some h ∧
      h.payload = none ∧ h.expireAt = none ∧
      (enqueueScript testConfig u.clock "job" "payload" u.redis).1 = .conflict ∧
      ¬ RecordsWellFormed testConfig expiredClaim := by
  refine ⟨_, _, rfl, rfl, rfl, rfl, by decide, fun formed => ?_⟩
  exact (formed expiredClaim [] _ rfl rfl "job" _ rfl).1 rfl

end Kernexys.Queue
