import Kernexys.Inference.Request

/-!
# Outcomes of a runtime call

`infer`, `process_job` and `get_job` see the same outcomes of a call to the runtime: `infer` passes
them on, `process_job` records them, and `get_job` reads the record.  They agree on every outcome
except a 200 whose body is no JSON object (`outcome_classified_iff`).  Python's `json` enters as a
`JsonCodec`, with the law that what it has decoded it writes and reads back.
-/

namespace Kernexys.Inference

open Http

/-! ## The outcome of a call -/

/-- The exceptions of aiohttp: `ClientError`, and `TimeoutError`. -/
inductive TransportError where
  | clientError
  | timeout
  deriving DecidableEq

/-- The call fails, or a response comes, of which the body arrives or not. -/
inductive RuntimeOutcome where
  | failed (error : TransportError)
  | response (status : ℕ) (body : Except TransportError Bytes)

/-- Why a body does not decode: it is not JSON or not in its encoding, or it is nested too deeply. -/
inductive DecodeError where
  | valueError
  | recursionError
  deriving DecidableEq

/-- Python's `json` on the values `V` other than `None`.  `decode` reads the bytes of a body that is
not blank, `loads` a text. -/
structure JsonCodec (V : Type) where
  decode : Bytes → Except DecodeError (Option V)
  loads : String → Except DecodeError (Option V)
  dumps : V → String
  isDict : V → Bool
  loads_dumps : ∀ body v, decode body = .ok (some v) → loads (dumps v) = .ok (some v)

section Codec

variable {V : Type} (codec : JsonCodec V)

/-- White space in bytes. -/
def blankByte (b : UInt8) : Bool := b.toNat ∈ [9, 10, 11, 12, 13, 32]

/-- `response.json()` once the body is read: `None` for a blank body. -/
def responseJson (body : Bytes) : Except DecodeError (Option V) :=
  match ((body.dropWhile blankByte).reverse.dropWhile blankByte).reverse with
  | [] => .ok none
  | stripped => codec.decode stripped

/-! ## The three functions -/

/-- How `infer` ends, once the endpoint is known: it returns a value, raises an `ApiError`, or lets
another exception through. -/
inductive InferEnd (V : Type) where
  | returned (value : Option V)
  | apiError (status : ℕ) (code message : String)
  | raised (error : DecodeError)

/-- `infer`, once the endpoint is known. -/
def infer : RuntimeOutcome → InferEnd V
  | .failed _ => .apiError 503 "runtime_unavailable" "The model runtime is unavailable."
  | .response status body =>
    if status ≠ 200 then .apiError 502 "runtime_error" "The model runtime failed the request."
    else
      match body with
      | .error _ => .apiError 503 "runtime_unavailable" "The model runtime is unavailable."
      | .ok body =>
        match responseJson codec body with
        | .ok value => .returned value
        | .error error => .raised error

/-- What `process_job` hands to `finish`; it catches every exception of the call. -/
def processJob : RuntimeOutcome → Queue.Verdict
  | .failed _ => .failed "The model runtime request failed."
  | .response status body =>
    if status ≠ 200 then .failed "The model runtime request failed."
    else
      match body with
      | .error _ => .failed "The model runtime request failed."
      | .ok body =>
        match responseJson codec body with
        | .ok value => .succeeded (value.map codec.dumps)
        | .error _ => .failed "The model runtime request failed."

/-- `AsyncInferenceJob`, without the job ID. -/
structure AsyncInferenceJob (V : Type) where
  status : Queue.Status
  result : Option V
  error : Option String

/-- Why `get_job` fails on a record: it has no status, its result does not decode, or the decoded
result is no object. -/
inductive PollError where
  | keyError
  | decode (error : DecodeError)
  | validationError
  deriving DecidableEq

/-- The part of `get_job` after the record is read. -/
def getJob (record : Queue.Record) : Except PollError (AsyncInferenceJob V) := do
  let result ←
    match record.result with
    | none => pure none
    | some text =>
      match codec.loads text with
      | .ok value => pure value
      | .error error => throw (.decode error)
  match record.status with
  | none => throw .keyError
  | some status =>
    if result.all codec.isDict then return ⟨status, result, record.error⟩
    else throw .validationError

/-! ## Agreement -/

/-- The object that the runtime answered with: the status is 200 and the body decodes to one. -/
def answer : RuntimeOutcome → Option V
  | .response 200 (.ok body) =>
    match responseJson codec body with
    | .ok value => value.filter codec.isDict
    | .error _ => none
  | _ => none

/-- The record holds no result, or one that `get_job` can read. -/
def Readable (record : Queue.Record) : Prop :=
  ∀ text, record.result = some text → ∃ v, codec.loads text = .ok (some v) ∧ codec.isDict v = true

/-- The three functions agree on the outcome. -/
structure Classified (outcome : RuntimeOutcome) : Prop where
  answered : ∀ v, answer codec outcome = some v → infer codec outcome = .returned (some v) ∧
    processJob codec outcome = .succeeded (some (codec.dumps v))
  refused : answer codec outcome = none →
    (∃ status code message, infer codec outcome = .apiError status code message ∧
      (status = 502 ∨ status = 503)) ∧ ∃ error, processJob codec outcome = .failed error
  polled : ∀ record, Readable codec record → ∃ job,
    getJob codec ((processJob codec outcome).write record) = .ok job ∧
      job.status = (processJob codec outcome).status ∧
      ∀ v, answer codec outcome = some v → job.result = some v

/-- A 200 comes with the body of an object. -/
def AnswersObject (outcome : RuntimeOutcome) : Prop :=
  ∀ body, outcome = .response 200 (.ok body) →
    ∃ v, responseJson codec body = .ok (some v) ∧ codec.isDict v = true

variable {codec}

/-- A decoded value is read back from the record. -/
theorem loads_dumps_of_responseJson {body : Bytes} {v : V}
    (decoded : responseJson codec body = .ok (some v)) :
    codec.loads (codec.dumps v) = .ok (some v) := by
  unfold responseJson at decoded
  split at decoded
  · cases decoded
  · exact codec.loads_dumps _ v decoded

/-- `get_job` returns every record with a status and a readable result. -/
theorem getJob_of_readable {record : Queue.Record} {status : Queue.Status}
    (readable : Readable codec record) (has : record.status = some status) :
    ∃ job, getJob codec record = .ok job ∧ job.status = status ∧
      ∀ text v, record.result = some text → codec.loads text = .ok (some v) → job.result = some v := by
  unfold getJob
  cases stored : record.result with
  | none =>
    rw [has]
    exact ⟨⟨status, none, record.error⟩, rfl, rfl, fun _ _ found => by cases found⟩
  | some text =>
    obtain ⟨v, loaded, dict⟩ := readable text stored
    rw [has]
    refine ⟨⟨status, some v, record.error⟩, ?_, rfl, fun text' w same loaded' => ?_⟩
    · simp only [loaded, pure_bind, Option.all_some, dict, if_true]
      rfl
    · cases same
      rw [loaded] at loaded'
      cases loaded'
      rfl

theorem Readable.failed {record : Queue.Record} (readable : Readable codec record) (error : String) :
    Readable codec ((Queue.Verdict.failed error).write record) := readable

theorem readable_dumps {record : Queue.Record} {v : V}
    (back : codec.loads (codec.dumps v) = .ok (some v)) (dict : codec.isDict v = true) :
    Readable codec ((Queue.Verdict.succeeded (some (codec.dumps v))).write record) := by
  intro text stored
  obtain rfl := Option.some.inj stored
  exact ⟨v, back, dict⟩

/-- An outcome that all three functions treat as a failure. -/
theorem classified_of_failure {outcome : RuntimeOutcome} {status : ℕ} {code message error : String}
    (none_ : answer codec outcome = none)
    (raised : infer codec outcome = .apiError status code message) (known : status = 502 ∨ status = 503)
    (recorded : processJob codec outcome = .failed error) : Classified codec outcome := by
  refine ⟨fun v some_ => ?_, fun _ => ⟨⟨status, code, message, raised, known⟩, error, recorded⟩,
    fun record readable => ?_⟩
  · rw [none_] at some_
    cases some_
  · rw [recorded, none_]
    obtain ⟨job, returned, same, -⟩ := getJob_of_readable (readable.failed error) rfl
    exact ⟨job, returned, same, fun v absent => by cases absent⟩

theorem answer_of_status_ne {status : ℕ} (other : status ≠ 200) (body : Except TransportError Bytes) :
    answer codec (.response status body) = none := by
  unfold answer
  split
  · rename_i eq
    exact absurd (RuntimeOutcome.response.inj eq).1 other
  · rfl

/-- An outcome with an object, on which all three functions agree. -/
theorem classified_of_object {body : Bytes} {v : V} (decoded : responseJson codec body = .ok (some v))
    (dict : codec.isDict v = true) : Classified codec (.response 200 (.ok body)) := by
  have some_ : answer codec (.response 200 (.ok body)) = some v := by
    simp [answer, decoded, Option.filter, dict]
  have recorded : processJob codec (.response 200 (.ok body)) =
      .succeeded (some (codec.dumps v)) := by
    simp [processJob, decoded]
  have back := loads_dumps_of_responseJson decoded
  refine ⟨fun w same => ?_, fun none_ => ?_, fun record _ => ?_⟩
  · obtain rfl := Option.some.inj (some_.symm.trans same)
    exact ⟨by simp [infer, decoded], recorded⟩
  · rw [some_] at none_
    cases none_
  · rw [recorded, some_]
    obtain ⟨job, returned, same, result⟩ := getJob_of_readable (readable_dumps back dict) rfl
    refine ⟨job, returned, same, fun w eq => ?_⟩
    obtain rfl := Option.some.inj eq
    exact result _ v rfl back

/-- The three functions agree exactly on the outcomes that are not a 200 without an object. -/
theorem outcome_classified_iff (codec : JsonCodec V) (outcome : RuntimeOutcome) :
    Classified codec outcome ↔ AnswersObject codec outcome := by
  constructor
  · rintro classified body rfl
    by_contra missing
    have none_ : answer codec (.response 200 (.ok body)) = none := by
      cases decoded : responseJson codec body with
      | error error => simp [answer, decoded]
      | ok value =>
        cases value with
        | none => simp [answer, decoded]
        | some v =>
          have notDict : codec.isDict v = false := by
            cases dict : codec.isDict v with
            | false => rfl
            | true => exact absurd ⟨v, decoded, dict⟩ missing
          simp [answer, decoded, Option.filter, notDict]
    -- `infer` returns what was decoded, or lets the exception through
    obtain ⟨⟨status, code, message, raised, -⟩, -⟩ := classified.refused none_
    cases decoded : responseJson codec body with
    | error error => simp [infer, decoded] at raised
    | ok value => simp [infer, decoded] at raised
  · intro object
    rcases outcome with error | ⟨status, body⟩
    · exact classified_of_failure rfl rfl (Or.inr rfl) rfl
    · by_cases ok : status = 200
      · subst ok
        cases body with
        | error error => exact classified_of_failure rfl rfl (Or.inr rfl) rfl
        | ok body =>
          obtain ⟨v, decoded, dict⟩ := object body rfl
          exact classified_of_object decoded dict
      · exact classified_of_failure (answer_of_status_ne ok body)
          (if_pos ok) (Or.inl rfl) (if_pos ok)

end Codec

/-! ## Objects of strings -/

/-- The codec of the objects whose values are strings. -/
def textsCodec : JsonCodec (List (String × String)) where
  decode body := ((JsonText.loadsTexts (latin1 body)).map some).elim (.error .valueError) .ok
  loads text := ((JsonText.loadsTexts text).map some).elim (.error .valueError) .ok
  dumps := JsonText.dumpsTexts 0
  isDict _ := true
  loads_dumps body v _ := by rw [JsonText.loadsTexts_dumpsTexts]; rfl

/-- The body of a prediction. -/
def prediction : Bytes := ascii (JsonText.dumpsTexts 0 [("label", "positive")])

theorem outcome_classified_iff_prediction :
    Classified textsCodec (.response 200 (.ok prediction)) := by
  have decoded : responseJson textsCodec prediction = .ok (some [("label", "positive")]) := rfl
  refine (outcome_classified_iff _ _).2 fun body same => ?_
  obtain ⟨-, ⟨⟩⟩ := RuntimeOutcome.response.inj same
  exact ⟨_, decoded, rfl⟩

/-- A 200 with a text that is not JSON: `infer` lets the ValueError through.  A 200 with an empty
body: `infer` returns nothing, and `process_job` records a success without a result. -/
theorem malformed_bodies_misclassified :
    infer textsCodec (.response 200 (.ok (ascii "oops"))) = .raised .valueError ∧
      processJob textsCodec (.response 200 (.ok (ascii "oops"))) =
        .failed "The model runtime request failed." ∧
      infer textsCodec (.response 200 (.ok [])) = .returned none ∧
      processJob textsCodec (.response 200 (.ok [])) = .succeeded none ∧
      ¬ Classified textsCodec (.response 200 (.ok (ascii "oops"))) ∧
      ¬ Classified textsCodec (.response 200 (.ok [])) := by
  refine ⟨rfl, rfl, rfl, rfl, fun classified => ?_, fun classified => ?_⟩
  · obtain ⟨⟨status, code, message, raised, -⟩, -⟩ := classified.refused rfl
    cases raised
  · obtain ⟨⟨status, code, message, raised, -⟩, -⟩ := classified.refused rfl
    cases raised

end Kernexys.Inference
