import Kernexys.Lib.CanonicalJson
import Kernexys.Queue.Expiry

/-!
# Enqueue

`enqueue` hands the canonical text of a payload to the script and reads its reply.  A record keeps
the text it was created with until it expires (`step_keeps_payload`), and the script looks at it
before it looks at the length of the queue, so a later enqueue of the same job ID compares payloads
and writes nothing.
-/

namespace Kernexys.Queue

open CanonicalJson

/-- `EnqueueResult`. -/
structure EnqueueResult where
  created : Bool
  full : Bool
  conflict : Bool
deriving DecidableEq, Repr

/-- What `enqueue` makes of the number that the script returns. -/
def EnqueueReply.result (reply : EnqueueReply) : EnqueueResult :=
  ⟨reply.code == 1, reply.code == -1, reply.code == -2⟩

/-- A payload dictionary. -/
structure Payload where
  fields : Dict
  distinct : (Json.obj fields).distinct = true

namespace Payload

/-- The payload field: the fields as JSON. -/
def text (floats : FloatText) (p : Payload) : String := dumps floats (.obj p.fields)

/-- The same dictionary, whatever the order of its fields.  Python's `==` also identifies `1`, `1.0`
and `True`, which JSON writes in three ways. -/
def same (p q : Payload) : Bool := (Json.obj p.fields).agree identical (.obj q.fields)

theorem text_eq_iff (floats : FloatText) (p q : Payload) :
    p.text floats = q.text floats ↔ p.same q = true :=
  dumps_eq_iff floats p.distinct q.distinct

/-- A payload whose values are texts. -/
def ofTexts (entries : List (String × String)) (keys : (entries.map Prod.fst).Nodup) : Payload where
  fields := entries.map fun (entry : String × String) => (entry.1, Json.str entry.2)
  distinct := distinct_texts keys

/-- Payloads of texts are the same exactly when they are equal in Python. -/
theorem same_ofTexts (entries : List (String × String)) (keys : (entries.map Prod.fst).Nodup)
    (q : Payload) : (ofTexts entries keys).same q = (texts entries).eq (.obj q.fields) :=
  agree_texts entries _

end Payload

/-- `RedisInferenceQueue.enqueue` at clock reading `now`. -/
def enqueue (floats : FloatText) (cfg : QueueConfig) (now : ℤ) (j : JobId) (payload : Payload)
    (r : Redis) : EnqueueResult × Redis :=
  let reply := enqueueScript cfg now j (payload.text floats) r
  (reply.1.result, reply.2)

/-! ## The record keeps its payload -/

/-- The job has a record with this payload. -/
def JobView.Stores (payload : String) (v : JobView) : Prop :=
  ∃ h, v.record = some h ∧ h.payload = some payload

theorem JobView.Stores.recover {payload : String} {v : JobView} (stores : v.Stores payload)
    (strandedBefore now : ℤ) : (v.recover strandedBefore now).Stores payload := by
  obtain ⟨h, found, stored⟩ := stores
  rcases v.recover_cases strandedBefore now with ⟨-, eq⟩ | ⟨h', found', -, cases⟩
  · rw [eq]
    exact ⟨h, found, stored⟩
  · obtain rfl := Option.some.inj (found.symm.trans found')
    rcases cases with ⟨-, eq⟩ | ⟨stamp, -, ⟨-, -, eq⟩ | ⟨-, eq⟩⟩
    · rw [eq]
      exact ⟨_, rfl, stored⟩
    · rw [eq]
      exact ⟨_, rfl, stored⟩
    · rw [eq]
      exact ⟨h, found, stored⟩

/-- Only the expiry of its record takes the payload of a job away. -/
theorem step_keeps_payload {cfg : QueueConfig} {s t : World} {a : Action} {j : JobId}
    {payload : String} (stores : (s.view j).Stores payload) (kept : a ≠ .expire j) (next : step cfg s a = some t) :
    (t.view j).Stores payload := by
  obtain ⟨h, found, stored⟩ := stores
  have job := step_job next j
  generalize t.view j = v, t.accepted j = last at job ⊢
  cases job with
  | same | popped | unlinked => exact ⟨h, found, stored⟩
  | created text isEnqueue fresh =>
    rw [found] at fresh
    cases fresh
  | stamped w since text reading isHset phase =>
    rw [found]
    exact ⟨_, rfl, stored⟩
  | finished w v since text isFinish phase =>
    rw [found]
    exact ⟨_, rfl, (v.write_payload h).trans stored⟩
  | swept isRecover =>
    exact Function.Iterate.rec (JobView.Stores payload) ⟨h, found, stored⟩
      (fun v stores => stores.recover _ _) _
  | expired isExpire => exact absurd isExpire kept

theorem exec_keeps_payload {cfg : QueueConfig} {s t : World} {as : List Action} {j : JobId}
    {payload : String} (stores : (s.view j).Stores payload) (kept : .expire j ∉ as)
    (run : (queueMachine cfg).exec s as = some t) : (t.view j).Stores payload :=
  Machine.exec_invariant (I := fun u => (u.view j).Stores payload)
    (fun _ _ _ stores kept next => step_keeps_payload stores kept next) stores
    (Machine.along_of_forall_mem fun _ mem _ => ne_of_mem_of_not_mem mem kept) run

/-! ## Repeated enqueues -/

/-- While the record lives, the script compares payloads and writes nothing. -/
theorem enqueueScript_of_stores (cfg : QueueConfig) (now : ℤ) {j : JobId} {payload : String}
    {r : Redis} (stores : (r.view j).Stores payload) (text : String) :
    enqueueScript cfg now j text r = (if payload = text then .existing else .conflict, r) := by
  obtain ⟨h, found, stored⟩ := stores
  have job : r.job j = some h := found
  rw [enqueueScript, job]
  dsimp only
  rw [stored]
  split_ifs with differs same same
  · exact absurd (congrArg some same) differs
  · rfl
  · rfl
  · exact absurd (Option.some.inj (not_not.1 differs)) same

theorem enqueue_of_stores (floats : FloatText) (cfg : QueueConfig) (now : ℤ) {j : JobId}
    {p : Payload} {r : Redis} (stores : (r.view j).Stores (p.text floats)) (q : Payload) :
    enqueue floats cfg now j q r = (⟨false, false, !p.same q⟩, r) := by
  rw [enqueue, enqueueScript_of_stores cfg now stores]
  cases compared : p.same q with
  | true =>
    rw [if_pos ((Payload.text_eq_iff floats p q).2 compared)]
    rfl
  | false =>
    have differs : p.text floats ≠ q.text floats := by
      rw [Ne, Payload.text_eq_iff, compared]
      exact Bool.false_ne_true
    rw [if_neg differs]
    rfl

theorem EnqueueReply.result_created {reply : EnqueueReply} (created : reply.result.created = true) :
    reply = .created := by
  cases reply with
  | created => rfl
  | conflict | existing | full => cases created

theorem EnqueueReply.result_full {reply : EnqueueReply} (full : reply.result.full = true) :
    reply.result.created = false := by
  cases reply with
  | full => rfl
  | conflict | existing | created => cases full

/-- An enqueue that is not accepted writes nothing. -/
theorem enqueue_of_not_created {floats : FloatText} {cfg : QueueConfig} {now : ℤ} {j : JobId}
    {p : Payload} {r : Redis} (refused : (enqueue floats cfg now j p r).1.created = false) :
    (enqueue floats cfg now j p r).2 = r := by
  rcases enqueueScript_cases cfg now j (p.text floats) r with ⟨-, same⟩ | ⟨-, reply⟩
  · exact same
  · rw [enqueue, reply] at refused
    cases refused

/-- An accepted enqueue pushes its job ID and stores its payload. -/
theorem step_enqueue_created {floats : FloatText} {cfg : QueueConfig} {s t : World} {j : JobId}
    {p : Payload} (accepted : (enqueue floats cfg s.clock j p s.redis).1.created = true)
    (next : step cfg s (.enqueue j (p.text floats)) = some t) :
    t.redis.queue = s.redis.queue ++ [j] ∧ (t.view j).Stores (p.text floats) := by
  rcases enqueueScript_cases cfg s.clock j (p.text floats) s.redis with ⟨refused, -⟩ | ⟨-, reply⟩
  · exact absurd (EnqueueReply.result_created accepted) refused
  · rw [step, reply] at next
    obtain rfl := Option.some.inj next
    refine ⟨rfl, freshRecord cfg s.clock (p.text floats), ?_, rfl⟩
    rw [World.view, Redis.view_accept]

/-- While the record lives, a step that enqueues its job changes nothing. -/
theorem step_enqueue_of_stores {cfg : QueueConfig} {s : World} {j : JobId} {payload : String}
    (stores : (s.view j).Stores payload) (text : String) :
    step cfg s (.enqueue j text) = some s := by
  rw [step, enqueueScript_of_stores cfg s.clock stores]
  split_ifs <;> rfl

theorem enqueue_idempotent (floats : FloatText) (cfg : QueueConfig) {s t u : World} {j : JobId}
    {p : Payload} {as : List Action}
    (accepted : (enqueue floats cfg s.clock j p s.redis).1.created = true)
    (first : step cfg s (.enqueue j (p.text floats)) = some t)
    (run : (queueMachine cfg).exec t as = some u) (kept : .expire j ∉ as) :
    (∀ q, enqueue floats cfg u.clock j q u.redis = (⟨false, false, !p.same q⟩, u.redis)) ∧
      (∀ i q, (enqueue floats cfg u.clock i q u.redis).1.full = true →
        (enqueue floats cfg u.clock i q u.redis).2 = u.redis) ∧
      t.redis.queue = s.redis.queue ++ [j] ∧
      (queueMachine cfg).Along (fun v a => ∀ text, a = .enqueue j text → step cfg v a = some v)
        t as := by
  obtain ⟨pushed, stores⟩ := step_enqueue_created accepted first
  have stores' := exec_keeps_payload stores kept run
  refine ⟨enqueue_of_stores floats cfg u.clock stores', fun i q full => ?_, pushed, ?_⟩
  · exact enqueue_of_not_created (EnqueueReply.result_full full)
  · rintro pre a post v rfl reach text rfl
    have earlier : .expire j ∉ pre := fun mem => kept (List.mem_append_left _ mem)
    exact step_enqueue_of_stores (exec_keeps_payload stores earlier reach) text

/-- The payload of a job for `sentiment`, and one for another text. -/
def goodPayload : Payload :=
  .ofTexts [("endpoint", "http://sentiment"), ("text", "good")] (by decide)

/-- The payload with another text. -/
def badPayload : Payload :=
  .ofTexts [("endpoint", "http://sentiment"), ("text", "bad")] (by decide)

theorem enqueue_idempotent_claimed :
    ∃ t u, step testConfig World.init (.enqueue "job" (goodPayload.text codeText)) = some t ∧
      (queueMachine testConfig).exec t [.blmove 0, .hgetall 0, .readClock 0, .hset 0] = some u ∧
      enqueue codeText testConfig u.clock "job" goodPayload u.redis =
        (⟨false, false, false⟩, u.redis) ∧
      enqueue codeText testConfig u.clock "job" badPayload u.redis =
        (⟨false, false, true⟩, u.redis) := by
  refine ⟨_, _, rfl, rfl, ?_⟩
  obtain ⟨repeats, -⟩ := enqueue_idempotent codeText testConfig (s := World.init) (p := goodPayload)
    rfl rfl rfl (by decide : .expire "job" ∉ [.blmove 0, .hgetall 0, .readClock 0, Action.hset 0])
  exact ⟨repeats goodPayload, repeats badPayload⟩

end Kernexys.Queue
