import Kernexys.Api.Deployments
import Kernexys.Inference.JobIds
import Kernexys.Inference.Outcome
import Kernexys.Queue.Enqueue

/-!
# Enqueue and poll

`enqueue_job` answers a repeated request from the reply of the script, always with the status
`queued`; `get_job` answers from the record.  After an accepted request the two agree exactly while
the record says `queued` (`repeat_agrees_iff`).
-/

namespace Kernexys.Inference

open Api Queue CanonicalJson

/-! ## Failures -/

/-- The exceptions that the two handlers can end with. -/
inductive JobFailure where
  | route (failure : Failure)
  | typeError
  | poll (error : PollError)

namespace JobFailure

/-- An `ApiError`. -/
def api (statusCode : ℕ) (code message : String) : JobFailure :=
  route (.api ⟨statusCode, code, message⟩)

/-- The 409 of `_ready_endpoint`. -/
def notReady : JobFailure := api 409 "deployment_not_ready" "The model deployment is not ready."

/-- The 503 of a control API without a queue. -/
def asyncInferenceDisabled : JobFailure :=
  api 503 "async_inference_disabled" "Asynchronous inference is not enabled."

/-- The 503 of an `AsyncQueueError`. -/
def redisUnavailable : JobFailure :=
  api 503 "redis_unavailable" "The asynchronous queue is unavailable."

/-- The 429 of a full queue. -/
def queueFull : JobFailure := api 429 "queue_full" "The asynchronous inference queue is full."

/-- The 409 of a key that was used for another payload. -/
def idempotencyConflict : JobFailure :=
  api 409 "idempotency_conflict"
    "The idempotency key was already used for a different inference request."

/-- The 404 of a job without a record. -/
def jobNotFound : JobFailure := api 404 "job_not_found" "The inference job was not found."

end JobFailure

/-! ## The endpoint -/

/-- `value.get(key, default)`. -/
def getField (value : Json) (key : String) (default : Json) : Except JobFailure Json :=
  (getOr value key default).mapError .route

/-- The values that a `for` loop goes through. -/
def iterate : Json → Except JobFailure (List Json)
  | .arr items => .ok items
  | .obj fields => .ok (fields.map fun field => .str field.1)
  | .str s => .ok (s.toList.map fun c => .str (String.singleton c))
  | _ => .error .typeError

/-- One of the conditions says that the deployment is available.  `any` stops at the first. -/
def anyAvailable : List Json → Except JobFailure Bool
  | [] => .ok false
  | condition :: conditions => do
    let type ← getField condition "type" .null
    let status ← getField condition "status" .null
    if type.eq (.str "Available") && status.eq (.str "True") then return true
    else anyAvailable conditions

/-- `_ready_endpoint`. -/
def readyEndpoint (deployment : Json) : Except JobFailure String := do
  let status ← getField deployment "status" (.obj [])
  let endpoint ← getField status "endpoint" .null
  let conditions ← iterate (← getField status "conditions" (.arr []))
  let available ← anyAvailable conditions
  match endpoint with
  | .str text => if available && text ≠ "" then return text else throw .notReady
  | _ => throw .notReady

/-! ## The handlers -/

/-- A request to `enqueue_job`, as its validators let it through. -/
structure EnqueueRequest extends JobRequest where
  text : String
  key_short : ∀ key, idempotencyKey = some key → key.length ≤ 128
  text_bounded : AsyncInferenceRequest text

/-- The payload of the job. -/
def EnqueueRequest.payload (request : EnqueueRequest) (endpoint : String) : Payload :=
  .ofTexts [("deployment", request.ns.1 ++ "/" ++ request.name.1), ("endpoint", endpoint),
    ("text", request.text)] (by simp)

/-- How a handler finds the queue: it is switched off, Redis does not answer before or after the
command has run, or it answers. -/
inductive QueueAccess where
  | disabled
  | unavailable
  | lost
  | connected
  deriving DecidableEq

/-- A response with an `AsyncInferenceJob`. -/
structure JobResponse (V : Type) where
  statusCode : ℕ
  jobId : String
  job : AsyncInferenceJob V

section Handlers

variable {V : Type} (sha256 : ByteArray → BitVec 256) (floats : FloatText) (cfg : QueueConfig)

/-- What `enqueue_job` makes of the result of `enqueue`. -/
def enqueueAnswer (jobId : String) (result : EnqueueResult) : Except JobFailure (JobResponse V) :=
  if result.full then .error .queueFull
  else if result.conflict then .error .idempotencyConflict
  else .ok ⟨if result.created then 202 else 200, jobId, ⟨.queued, none, none⟩⟩

/-- `enqueue_job` at clock reading `now`, with the reply of the gateway, on this Redis. -/
def enqueueJob (now : ℤ) (gateway : Except DeploymentGatewayError Json) (access : QueueAccess)
    (request : EnqueueRequest) (r : Redis) : Except JobFailure (JobResponse V) × Redis :=
  match gateway with
  | .error error =>
    (.error (.route (.api (deploymentError error request.ns.1 request.name.1))), r)
  | .ok deployment =>
    match readyEndpoint deployment with
    | .error failure => (.error failure, r)
    | .ok endpoint =>
      let jobId := request.jobId sha256
      let reply := enqueue floats cfg now jobId (request.payload endpoint) r
      match access with
      | .disabled => (.error .asyncInferenceDisabled, r)
      | .unavailable => (.error .redisUnavailable, r)
      | .lost => (.error .redisUnavailable, reply.2)
      | .connected => (enqueueAnswer jobId reply.1, reply.2)

/-- `get_job`. -/
def AsyncRoutes.getJob (alnum : Alnum) (codec : JsonCodec V) (access : QueueAccess) (jobId : String)
    (r : Redis) : Except JobFailure (JobResponse V) :=
  if validJobId alnum jobId then
    match access with
    | .disabled => .error .asyncInferenceDisabled
    | .unavailable | .lost => .error .redisUnavailable
    | .connected =>
      match r.job jobId with
      | none => .error .jobNotFound
      | some record =>
        match Inference.getJob codec record with
        | .ok job => .ok ⟨200, jobId, job⟩
        | .error error => .error (.poll error)
  else .error .jobNotFound

/-! ## Agreement -/

/-- Both requests are answered with a job, and with the same job ID and status. -/
def Agree (repeated polled : Except JobFailure (JobResponse V)) : Prop :=
  ∃ a b, repeated = .ok a ∧ polled = .ok b ∧ a.jobId = b.jobId ∧ a.job.status = b.job.status

/-- The request has the namespace, name, key and text of an earlier one. -/
structure EnqueueRequest.Repeats (again first : EnqueueRequest) : Prop where
  ns : again.ns = first.ns
  name : again.name = first.name
  key : again.idempotencyKey = first.idempotencyKey
  text : again.text = first.text

/-- The gateway returns the deployment, ready at this endpoint. -/
def ReadyAt (endpoint : String) (gateway : Except DeploymentGatewayError Json) : Prop :=
  ∃ deployment, gateway = .ok deployment ∧ readyEndpoint deployment = .ok endpoint

/-- The record holds no result, or one that decodes to an object or to `null`. -/
def ResultDecodes (codec : JsonCodec V) (record : Record) : Prop :=
  ∀ text, record.result = some text →
    ∃ value, codec.loads text = .ok value ∧ value.all codec.isDict = true

variable {sha256 floats cfg}

theorem enqueueJob_of_ready {now : ℤ} {gateway : Except DeploymentGatewayError Json}
    {request : EnqueueRequest} {r : Redis} {endpoint : String} (ready : ReadyAt endpoint gateway) :
    (enqueueJob (V := V) sha256 floats cfg now gateway .connected request r).1 =
      enqueueAnswer (request.jobId sha256)
        (enqueue floats cfg now (request.jobId sha256) (request.payload endpoint) r).1 := by
  obtain ⟨deployment, rfl, eq⟩ := ready
  simp only [enqueueJob, eq]

/-- Only a connected queue and a ready deployment make for a job. -/
theorem ready_of_enqueueJob {now : ℤ} {gateway : Except DeploymentGatewayError Json}
    {access : QueueAccess} {request : EnqueueRequest} {r : Redis} {response : JobResponse V}
    (answered : (enqueueJob sha256 floats cfg now gateway access request r).1 = .ok response) :
    access = .connected ∧ ∃ endpoint, ReadyAt endpoint gateway := by
  cases gateway with
  | error error => cases answered
  | ok deployment =>
    cases ready : readyEndpoint deployment with
    | error failure =>
      simp only [enqueueJob, ready] at answered
      cases answered
    | ok endpoint =>
      cases access with
      | connected => exact ⟨rfl, endpoint, deployment, rfl, ready⟩
      | disabled | unavailable | lost =>
        simp only [enqueueJob, ready] at answered
        cases answered

theorem enqueueAnswer_of_ok {jobId : String} {result : EnqueueResult} {response : JobResponse V}
    (answered : enqueueAnswer jobId result = .ok response) :
    result.full = false ∧ result.conflict = false ∧ response.jobId = jobId ∧
      response.job.status = .queued := by
  unfold enqueueAnswer at answered
  split_ifs at answered with full conflict created
  all_goals
    cases answered
    exact ⟨by simpa using full, by simpa using conflict, rfl, rfl⟩

/-- The last part of `get_job`: the status is read after the result. -/
def statusWith (codec : JsonCodec V) (record : Record) (result : Option V) :
    Except PollError (AsyncInferenceJob V) :=
  match record.status with
  | none => .error .keyError
  | some status =>
    if result.all codec.isDict then .ok ⟨status, result, record.error⟩ else .error .validationError

theorem statusWith_ok_iff {codec : JsonCodec V} {record : Record} {result : Option V}
    {status : Status} :
    (∃ job, statusWith codec record result = .ok job ∧ job.status = status) ↔
      record.status = some status ∧ result.all codec.isDict = true := by
  unfold statusWith
  cases record.status with
  | none => simp
  | some status' =>
    by_cases dict : result.all codec.isDict = true
    · simp [dict]
    · simp [dict]

/-- `get_job` returns a record exactly when it has a status and its result decodes. -/
theorem getJob_ok_iff {codec : JsonCodec V} {record : Record} {status : Status} :
    (∃ job, getJob codec record = .ok job ∧ job.status = status) ↔
      record.status = some status ∧ ResultDecodes codec record := by
  cases stored : record.result with
  | none =>
    have eq : getJob codec record = statusWith codec record none := by
      simp only [getJob, stored]
      rfl
    rw [eq, statusWith_ok_iff]
    simp [ResultDecodes, stored]
  | some text =>
    cases loaded : codec.loads text with
    | ok value =>
      have eq : getJob codec record = statusWith codec record value := by
        simp only [getJob, stored, loaded]
        rfl
      rw [eq, statusWith_ok_iff]
      simp [ResultDecodes, stored, loaded]
    | error error =>
      have eq : getJob codec record = .error (.decode error) := by
        simp only [getJob, stored, loaded]
        rfl
      rw [eq]
      simp [ResultDecodes, stored, loaded]

/-- `get_job` returns a job exactly when it is connected and can read a record under a valid ID. -/
theorem asyncGetJob_eq_ok_iff {alnum : Alnum} {codec : JsonCodec V} {access : QueueAccess}
    {jobId : String} {r : Redis} {record : Record} (valid : validJobId alnum jobId = true)
    (found : r.job jobId = some record) {response : JobResponse V} :
    AsyncRoutes.getJob alnum codec access jobId r = .ok response ↔ access = .connected ∧
      ∃ job, getJob codec record = .ok job ∧ response = ⟨200, jobId, job⟩ := by
  simp only [AsyncRoutes.getJob, valid, found, if_true]
  cases access with
  | disabled | unavailable | lost => simp
  | connected =>
    cases returned : getJob codec record with
    | ok job => simp [eq_comm]
    | error error => simp

/-! ## The payload -/

theorem payload_text (request : EnqueueRequest) (endpoint : String) :
    (request.payload endpoint).text floats =
      jobPayload (request.ns.1 ++ "/" ++ request.name.1) endpoint request.text :=
  dumps_texts floats (by simp)

theorem jobPayload_inj {deployment endpoint endpoint' text : String}
    (same : jobPayload deployment endpoint text = jobPayload deployment endpoint' text) :
    endpoint = endpoint' := by
  have read := congrArg JsonText.loadsTexts same
  rw [jobPayload, jobPayload, JsonText.loadsTexts_dumpsTexts, JsonText.loadsTexts_dumpsTexts]
    at read
  simpa using read

/-- A repeat carries the same payload exactly when the endpoint is the same. -/
theorem payload_same_iff {again first : EnqueueRequest} (repeats : again.Repeats first)
    (endpoint endpoint' : String) :
    (first.payload endpoint).same (again.payload endpoint') = true ↔ endpoint = endpoint' := by
  rw [← Payload.text_eq_iff codeText, payload_text, payload_text, repeats.ns, repeats.name,
    repeats.text]
  exact ⟨jobPayload_inj, fun same => by rw [same]⟩

/-- After an accepted request its record holds the payload. -/
theorem stores_of_accepted {s t : World} {request : EnqueueRequest} {endpoint : String}
    {response : JobResponse V}
    (accepted : enqueueAnswer (request.jobId sha256) (enqueue floats cfg s.clock
      (request.jobId sha256) (request.payload endpoint) s.redis).1 = .ok response)
    (next : step cfg s (.enqueue (request.jobId sha256) ((request.payload endpoint).text floats)) =
      some t) :
    (t.view (request.jobId sha256)).Stores ((request.payload endpoint).text floats) := by
  obtain ⟨notFull, noConflict, -, -⟩ := enqueueAnswer_of_ok accepted
  generalize request.jobId sha256 = j at *
  generalize request.payload endpoint = p at *
  cases found : s.redis.job j with
  | some h =>
    have stored : h.payload = some (p.text floats) := by
      by_contra differs
      simp [enqueue, enqueueScript, found, differs, EnqueueReply.result, EnqueueReply.code]
        at noConflict
    have stores : (s.view j).Stores (p.text floats) := ⟨h, found, stored⟩
    obtain rfl := Option.some.inj ((step_enqueue_of_stores stores _).symm.trans next)
    exact stores
  | none =>
    have room : ¬ cfg.capacity ≤ s.redis.queue.length := by
      intro full
      simp [enqueue, enqueueScript, found, full, EnqueueReply.result, EnqueueReply.code] at notFull
    have created : (enqueue floats cfg s.clock j p s.redis).1.created = true := by
      simp [enqueue, enqueueScript, found, room, EnqueueReply.result, EnqueueReply.code]
    exact (step_enqueue_created created next).2

/-- While the record lives, a repeat is told that its job is queued, unless the endpoint has
changed. -/
theorem enqueueJob_of_stores {u : World} {first again : EnqueueRequest}
    {gateway : Except DeploymentGatewayError Json} {endpoint endpoint' : String}
    (stores : (u.view (again.jobId sha256)).Stores ((first.payload endpoint).text floats))
    (repeats : again.Repeats first) (ready : ReadyAt endpoint' gateway) :
    (enqueueJob (V := V) sha256 floats cfg u.clock gateway .connected again u.redis).1 =
      if endpoint = endpoint' then .ok ⟨200, again.jobId sha256, ⟨.queued, none, none⟩⟩
      else .error .idempotencyConflict := by
  rw [enqueueJob_of_ready ready, enqueue_of_stores floats cfg u.clock stores]
  have compared := payload_same_iff repeats endpoint endpoint'
  split_ifs with same
  · rw [compared.2 same]
    rfl
  · rw [Bool.eq_false_iff.2 fun agree => same (compared.1 agree)]
    rfl

/-- A repeat of an accepted request and a poll of its job agree exactly when the queue is connected,
the deployment is ready at the endpoint of the first request, and the record still says that the job
is queued, with no result that does not decode. -/
theorem repeat_agrees_iff (alnum : Alnum) (codec : JsonCodec V) {s t u : World}
    {first again : EnqueueRequest} {gateway gateway' : Except DeploymentGatewayError Json}
    {access : QueueAccess} {endpoint : String} {response : JobResponse V} {as : List Action}
    (keyed : first.Keyed) (ready : ReadyAt endpoint gateway)
    (accepted : (enqueueJob sha256 floats cfg s.clock gateway .connected first s.redis).1 =
      .ok response)
    (next : step cfg s (.enqueue (first.jobId sha256) ((first.payload endpoint).text floats)) =
      some t)
    (run : (queueMachine cfg).exec t as = some u) (kept : .expire (first.jobId sha256) ∉ as)
    (repeats : again.Repeats first) :
    Agree (enqueueJob sha256 floats cfg u.clock gateway' access again u.redis).1
        (AsyncRoutes.getJob alnum codec access (again.jobId sha256) u.redis) ↔
      access = .connected ∧ ReadyAt endpoint gateway' ∧
        ∃ h, u.redis.job (again.jobId sha256) = some h ∧ h.status = some .queued ∧
          ResultDecodes codec h := by
  have sameId := JobRequest.jobId_congr sha256 keyed repeats.ns.symm repeats.name.symm
    repeats.key.symm
  have valid := JobRequest.validJobId_jobId sha256 alnum again.toJobRequest
  rw [enqueueJob_of_ready ready] at accepted
  have stores := exec_keeps_payload (stores_of_accepted accepted next) kept run
  rw [sameId] at stores
  have answer : ∀ endpoint', ReadyAt endpoint' gateway' →
      (enqueueJob (V := V) sha256 floats cfg u.clock gateway' .connected again u.redis).1 =
        if endpoint = endpoint' then .ok ⟨200, again.jobId sha256, ⟨.queued, none, none⟩⟩
        else .error .idempotencyConflict :=
    fun _ => enqueueJob_of_stores stores repeats
  obtain ⟨h, found, -⟩ := stores
  have polls : ∀ b, AsyncRoutes.getJob alnum codec access (again.jobId sha256) u.redis = .ok b ↔
      access = .connected ∧ ∃ job, getJob codec h = .ok job ∧ b = ⟨200, again.jobId sha256, job⟩ :=
    fun _ => asyncGetJob_eq_ok_iff valid found
  constructor
  · rintro ⟨a, b, answered, polled, -, statuses⟩
    obtain ⟨rfl, endpoint', ready'⟩ := ready_of_enqueueJob answered
    rw [answer endpoint' ready'] at answered
    split_ifs at answered with same
    obtain ⟨-, job, read, rfl⟩ := (polls b).1 polled
    obtain rfl := Except.ok.inj answered
    exact ⟨rfl, same ▸ ready', h, found, getJob_ok_iff.1 ⟨job, read, statuses.symm⟩⟩
  · rintro ⟨rfl, ready', h', found', readable⟩
    obtain rfl := Option.some.inj (found.symm.trans found')
    obtain ⟨job, read, queued⟩ := getJob_ok_iff.2 readable
    exact ⟨_, _, (answer endpoint ready').trans (if_pos rfl), (polls _).2 ⟨rfl, job, read, rfl⟩,
      rfl, queued.symm⟩

end Handlers

/-! ## A job that is running -/

/-- A deployment that is ready at `http://sentiment`. -/
def readyDeployment : Json :=
  .obj [("status", .obj [("endpoint", .str "http://sentiment"),
    ("conditions", .arr [.obj [("type", .str "Available"), ("status", .str "True")]])])]

theorem readyAt_readyDeployment : ReadyAt "http://sentiment" (.ok readyDeployment) :=
  ⟨readyDeployment, rfl, rfl⟩

/-- A request for the sentiment of a text. -/
def goodRequest : EnqueueRequest where
  toJobRequest := plainRequest
  text := "good"
  key_short key same := by
    obtain rfl := Option.some.inj same
    decide
  text_bounded := by decide

theorem goodRequest_keyed : goodRequest.Keyed := ⟨"a", by decide, rfl⟩

theorem goodRequest_repeats : goodRequest.Repeats goodRequest := ⟨rfl, rfl, rfl, rfl⟩

/-- The commands of a worker that claims a job. -/
def claimActions : List Action := [.blmove 0, .hgetall 0, .readClock 0, .hset 0]

theorem pop_queued (j : JobId) (payload : String) :
    ((queueMachine testConfig).exec World.init [.enqueue j payload, .blmove 0]).bind
        (fun u => u.redis.job j) = some (freshRecord testConfig 0 payload) := by
  simp [queueMachine, step, enqueueScript, World.init, Redis.empty, testConfig, Redis.hset,
    Redis.expire, Redis.rpush, Redis.blmove, World.setWorker, freshRecord]

theorem claim_running (j : JobId) (payload : String) :
    ((queueMachine testConfig).exec World.init (.enqueue j payload :: claimActions)).bind
        (fun u => u.redis.job j) =
      some { status := some .running, payload := some payload, claimedAt := some (.numeral 0),
             expireAt := some 600 } := by
  simp [claimActions, queueMachine, step, enqueueScript, World.init, Redis.empty, testConfig,
    Redis.hset, Redis.expire, Redis.rpush, Redis.blmove, World.setWorker, World.fetch,
    Redis.stampRunning, World.claimedJob]

theorem goodRequest_accepted :
    (enqueueJob (V := List (String × String)) knownDigest codeText testConfig World.init.clock
      (.ok readyDeployment) .connected goodRequest World.init.redis).1 =
      .ok ⟨202, goodRequest.jobId knownDigest, ⟨.queued, none, none⟩⟩ :=
  (enqueueJob_of_ready readyAt_readyDeployment).trans rfl

theorem repeat_agrees_iff_popped :
    ∃ t u, step testConfig World.init (.enqueue (goodRequest.jobId knownDigest)
        ((goodRequest.payload "http://sentiment").text codeText)) = some t ∧
      (queueMachine testConfig).exec t [.blmove 0] = some u ∧
      Agree (enqueueJob knownDigest codeText testConfig u.clock (.ok readyDeployment) .connected
          goodRequest u.redis).1
        (AsyncRoutes.getJob asciiAlnum textsCodec .connected (goodRequest.jobId knownDigest)
          u.redis) := by
  have popped := pop_queued (goodRequest.jobId knownDigest)
    ((goodRequest.payload "http://sentiment").text codeText)
  obtain ⟨u, run, found⟩ := Option.bind_eq_some_iff.1 popped
  obtain ⟨t, next, rest⟩ := Option.bind_eq_some_iff.1 run
  refine ⟨t, u, next, rest, ?_⟩
  exact (repeat_agrees_iff asciiAlnum textsCodec (s := World.init) goodRequest_keyed
    readyAt_readyDeployment goodRequest_accepted next rest (by simp) goodRequest_repeats).2
    ⟨rfl, readyAt_readyDeployment, _, found, rfl, fun _ stored => by cases stored⟩

/-- A worker has claimed the job: the repeat says that it is queued, and the poll that it runs. -/
theorem running_job_reported_queued :
    ∃ t u, step testConfig World.init (.enqueue (goodRequest.jobId knownDigest)
        ((goodRequest.payload "http://sentiment").text codeText)) = some t ∧
      (queueMachine testConfig).exec t claimActions = some u ∧
      (enqueueJob (V := List (String × String)) knownDigest codeText testConfig u.clock
          (.ok readyDeployment) .connected goodRequest u.redis).1 =
        .ok ⟨200, goodRequest.jobId knownDigest, ⟨.queued, none, none⟩⟩ ∧
      AsyncRoutes.getJob asciiAlnum textsCodec .connected (goodRequest.jobId knownDigest) u.redis =
        .ok ⟨200, goodRequest.jobId knownDigest, ⟨.running, none, none⟩⟩ := by
  have running := claim_running (goodRequest.jobId knownDigest)
    ((goodRequest.payload "http://sentiment").text codeText)
  obtain ⟨u, run, found⟩ := Option.bind_eq_some_iff.1 running
  obtain ⟨t, next, rest⟩ := Option.bind_eq_some_iff.1 run
  refine ⟨t, u, next, rest, ?_, ?_⟩
  · exact (enqueueJob_of_stores ⟨_, found, rfl⟩ goodRequest_repeats readyAt_readyDeployment).trans
      (if_pos rfl)
  · have valid := JobRequest.validJobId_jobId knownDigest asciiAlnum goodRequest.toJobRequest
    exact (asyncGetJob_eq_ok_iff valid found).2 ⟨rfl, _, rfl, rfl⟩

end Kernexys.Inference
