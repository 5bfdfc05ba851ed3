import Kernexys.Lib.Text
import Kernexys.Http.BodyLimit
import Kernexys.Queue.Results

/-!
# The text of an inference request

The control API bounds the characters of a text, and the runtime the bytes of the request and the
characters that remain without the surrounding white space.  `text_served_iff` says which of the
texts that the API admits the runtime hands to its classifier.
-/

namespace Kernexys.Inference

open Http Source JsonText

/-! ## The request -/

/-- `AsyncInferenceRequest`: a text of 1 to 4096 characters. -/
def AsyncInferenceRequest (text : String) : Prop := 1 ≤ text.length ∧ text.length ≤ 4096

instance (text : String) : Decidable (AsyncInferenceRequest text) := inferInstanceAs (Decidable (_ ∧ _))

/-- The body that `infer` sends: `json.dumps` of an object with the field `text`. -/
def inferBody (text : String) : Bytes := ascii (dumpsTexts 1 [("text", text)])

/-- The body that `process_job` sends for the payload of a job. -/
def processJobBody (payload : String) : Option Bytes :=
  ((loadsTexts payload).bind fun fields => fields.lookup "text").map inferBody

/-- `process_job` sends the text that was enqueued. -/
theorem processJobBody_jobPayload (deployment endpoint text : String) :
    processJobBody (Queue.jobPayload deployment endpoint text) = some (inferBody text) := by
  rw [processJobBody, Queue.jobPayload, loadsTexts_dumpsTexts]
  rfl

/-! ## The runtime -/

/-- `BoundedText`: the text without the white space around it, of 1 to 4096 characters. -/
def boundedText (text : String) : Option String :=
  let stripped := Text.strip Text.whiteSpace text
  if 1 ≤ stripped.length ∧ stripped.length ≤ 4096 then some stripped else none

/-- `InferRequest`: no field but `text`, of which the last one counts. -/
def inferRequest (fields : List (String × String)) : Option String :=
  if fields.all fun field => field.1 = "text" then fields.getLast?.bind fun field => boundedText field.2
  else none

/-- The default of `max_request_bytes`. -/
def maxRequestBytes : ℤ := 16384

/-- What `request.body()` reads from the replayed messages, or nothing when the client has gone.
After the last one `_replay` makes up an empty request. -/
def requestBody : List Message → Option Bytes
  | [] => some []
  | .disconnect :: _ => none
  | .request body moreBody :: messages =>
    if moreBody.getD false then (requestBody messages).map fun rest => body.getD [] ++ rest
    else some (body.getD [])

section Status

variable (predicts : String → Bool)

/-- The status that `infer` of the runtime answers to a body: 422 for one that `InferRequest` refuses,
500 for a text for which `predict` raises. -/
def inferStatus (body : Bytes) : ℕ :=
  match (loadsTexts (latin1 body)).bind inferRequest with
  | none => 422
  | some text => if predicts text then 200 else 500

/-- The status with which the ready runtime answers, from the calls of its limiter. -/
def runtimeStatus (log : List Event) : Option ℕ :=
  match log.getLast? with
  | some ⟨.respond response, _⟩ => some response.status
  | some ⟨.app (some messages), _⟩ => (requestBody messages).map (inferStatus predicts)
  | _ => none

end Status

/-- The bodies of the messages. -/
def content (messages : List Message) : Bytes :=
  messages.flatMap fun
    | .request body _ => body.getD []
    | .disconnect => []

/-- A connection that delivers this body, in any number of parts; a declared length is that of the
body. -/
structure Sends {σ : Type} (next : σ → Option (Message × σ)) (s : σ) (scope : Scope) (body : Bytes) :
    Prop where
  http : scope.type = "http"
  declared : ∀ value length, header scope (ascii "content-length") = some value →
    parseInt value = some length → length = body.length
  parts : ∃ messages last t, Delivers next (messages ++ [last]) s t ∧
    (∀ m ∈ messages, m.ends = false) ∧ last.ends = true ∧ last ≠ .disconnect ∧
    content (messages ++ [last]) = body

theorem length_content (messages : List Message) : (content messages).length = bodyLength messages := by
  induction messages with
  | nil => rfl
  | cons message messages ih =>
    rw [bodyLength_cons, ← ih]
    cases message <;> simp [content, Message.size]

theorem requestBody_parts {messages : List Message} {last : Message}
    (open_ : ∀ m ∈ messages, m.ends = false) (closes : last.ends = true)
    (request : last ≠ .disconnect) :
    requestBody (messages ++ [last]) = some (content (messages ++ [last])) := by
  induction messages with
  | nil =>
    cases last with
    | disconnect => exact absurd rfl request
    | request body moreBody =>
      have final : moreBody.getD false = false := by simpa [Message.ends] using closes
      simp [requestBody, content, final]
  | cons message messages ih =>
    obtain ⟨here, others⟩ := List.forall_mem_cons.1 open_
    cases message with
    | disconnect => cases here
    | request body moreBody =>
      have more : moreBody.getD false = true := by simpa [Message.ends] using here
      rw [List.cons_append, requestBody, if_pos more, ih others]
      rfl

/-- How the runtime answers a request with this body. -/
theorem runtimeStatus_of_sends (predicts : String → Bool) {σ : Type}
    {next : σ → Option (Message × σ)} {s : σ} {scope : Scope}
    {body : Bytes} (sends : Sends next s scope body) (requestId : String) :
    ∃ enough, ∀ fuel, enough ≤ fuel → runtimeStatus predicts
        ((Runtime.call maxRequestBytes requestId scope fuel).run (serve next) s).log =
      some (if (body.length : ℤ) ≤ maxRequestBytes then inferStatus predicts body else 413) := by
  obtain ⟨messages, last, t, delivered, open_, closes, request, rfl⟩ := sends.parts
  refine ⟨messages.length + 1, fun fuel enough => ?_⟩
  rw [Runtime.call]
  by_cases fits : ((content (messages ++ [last])).length : ℤ) ≤ maxRequestBytes
  · have declared : DeclaresWithin maxRequestBytes scope := fun value length found parsed =>
      (sends.declared value length found parsed).trans_le fits
    rw [if_pos fits, limitBody_of_declared _ sends.http declared,
      run_readBody_fits _ delivered open_ closes (by rwa [Nat.zero_add, ← length_content]) enough,
      runtimeStatus, List.getLast?_concat]
    dsimp only
    rw [List.nil_append, requestBody_parts open_ closes request]
    rfl
  · rw [if_neg fits]
    by_cases declared : DeclaresWithin maxRequestBytes scope
    · have exceeds : maxRequestBytes < ((0 + bodyLength (messages ++ [last]) : ℕ) : ℤ) := by
        rw [Nat.zero_add, ← length_content]
        exact not_le.1 fits
      obtain ⟨log, u, run⟩ := run_readBody_exceeds (Runtime.reject maxRequestBytes requestId)
        delivered open_ request exceeds enough []
      rw [limitBody_of_declared _ sends.http declared, run, runtimeStatus, List.getLast?_concat]
      rfl
    · rw [limitBody_of_not_declared _ sends.http declared]
      rfl

/-! ## Which texts are served -/

theorem latin1_ascii {s : String} (small : ∀ c ∈ s.toList, c.toNat < 128) : latin1 (ascii s) = s := by
  have back : (s.toList.map fun c => Char.ofNat (UInt8.ofNat c.toNat).toNat) = s.toList := by
    refine (List.map_congr_left fun c mem => ?_).trans s.toList.map_id
    have code : (UInt8.ofNat c.toNat).toNat = c.toNat := by
      rw [UInt8.toNat_ofNat']
      have := small c mem
      omega
    rw [code, Char.ofNat_toNat, id]
  rw [latin1, ascii, List.map_map]
  exact (congrArg String.ofList back).trans String.ofList_toList

/-- The runtime reads the text that was sent. -/
theorem inferRequest_inferBody (text : String) :
    (loadsTexts (latin1 (inferBody text))).bind inferRequest = boundedText text := by
  rw [inferBody, latin1_ascii (ascii_dumpsTexts _ _), loadsTexts_dumpsTexts, Option.bind_some,
    inferRequest, if_pos (by simp), List.getLast?_singleton, Option.bind_some]

theorem inferStatus_inferBody (predicts : String → Bool) (text : String) :
    inferStatus predicts (inferBody text) =
      if boundedText text = none then 422
      else if predicts (Text.strip Text.whiteSpace text) then 200 else 500 := by
  rw [inferStatus, inferRequest_inferBody]
  unfold boundedText
  dsimp only
  split_ifs <;> simp_all

theorem length_inferBody (text : String) :
    (inferBody text).length = 12 + (escape text.toList).length := by
  have key : (escape "text".toList).length = 4 := by decide
  simp only [inferBody, ascii, List.length_map, dumpsTexts, dumpsField, dumpsFields, quote,
    String.toList_ofList, List.length_cons, List.length_append, List.length_replicate,
    List.length_nil, key]
  omega

theorem length_strip_le (space : Char → Bool) (text : String) :
    (Text.strip space text).length ≤ text.length := by
  have first := (List.dropWhile_sublist space (l := text.toList)).length_le
  have last := (List.dropWhile_sublist space (l := (text.toList.dropWhile space).reverse)).length_le
  rw [List.length_reverse] at last
  rw [Text.strip, String.length_ofList, List.length_reverse, ← String.length_toList]
  exact last.trans first

/-- The text fits into the request when it is escaped, and is not all white space. -/
def Servable (text : String) : Prop :=
  (escape text.toList).length ≤ 16372 ∧ Text.strip Text.whiteSpace text ≠ ""

theorem boundedText_isSome_iff {text : String} (accepted : AsyncInferenceRequest text) :
    (boundedText text).isSome ↔ Text.strip Text.whiteSpace text ≠ "" := by
  have short := (length_strip_le Text.whiteSpace text).trans accepted.2
  have empty : Text.strip Text.whiteSpace text ≠ "" ↔
      1 ≤ (Text.strip Text.whiteSpace text).length := by
    rw [Nat.one_le_iff_ne_zero, Ne, Ne, String.length_eq_zero_iff]
  unfold boundedText
  rw [empty]
  dsimp only
  split_ifs with bounds
  · simp [bounds.1]
  · simp only [Option.isSome_none, Bool.false_eq_true, false_iff]
    exact fun long => bounds ⟨long, short⟩

theorem inferBody_fits_iff (text : String) :
    ((inferBody text).length : ℤ) ≤ maxRequestBytes ↔ (escape text.toList).length ≤ 16372 := by
  rw [length_inferBody, maxRequestBytes]
  omega

theorem status_cases (fits bounded predicted : Prop) [Decidable fits] [Decidable bounded]
    [Decidable predicted] :
    let status : Option ℕ :=
      some (if fits then if ¬ bounded then 422 else if predicted then 200 else 500 else 413)
    (status = some 200 ∨ status = some 500 ∨ status = some 413 ∨ status = some 422) ∧
      (status = some 413 ∨ status = some 422 ↔ ¬ (fits ∧ bounded)) ∧
      (status = some 200 ↔ (fits ∧ bounded) ∧ predicted) := by
  by_cases one : fits <;> by_cases two : bounded <;> by_cases three : predicted <;>
    simp [one, two, three]

/-- A text that the API admits reaches the runtime unchanged by either route.  The runtime refuses it,
with 413 or 422, exactly if it is not servable; it answers a servable text by 200, or by 500 if
`predict` raises. -/
theorem text_served_iff (text : String) (accepted : AsyncInferenceRequest text) :
    (∀ deployment endpoint,
      processJobBody (Queue.jobPayload deployment endpoint text) = some (inferBody text)) ∧
    (((inferBody text).length : ℤ) ≤ maxRequestBytes ∧ boundedText text ≠ none ↔ Servable text) ∧
    ∀ (predicts : String → Bool) {σ : Type} (next : σ → Option (Message × σ)) (s : σ) (scope : Scope)
        (requestId : String),
      Sends next s scope (inferBody text) → ∃ enough, ∀ fuel, enough ≤ fuel →
        let status := runtimeStatus predicts
          ((Runtime.call maxRequestBytes requestId scope fuel).run (serve next) s).log
        (status = some 200 ∨ status = some 500 ∨ status = some 413 ∨ status = some 422) ∧
          (status = some 413 ∨ status = some 422 ↔ ¬ Servable text) ∧
          (status = some 200 ↔
            Servable text ∧ predicts (Text.strip Text.whiteSpace text) = true) := by
  have served : ((inferBody text).length : ℤ) ≤ maxRequestBytes ∧ boundedText text ≠ none ↔
      Servable text := by
    rw [inferBody_fits_iff, ← Option.isSome_iff_ne_none, boundedText_isSome_iff accepted, Servable]
  refine ⟨fun deployment endpoint => processJobBody_jobPayload deployment endpoint text, served,
    fun predicts σ next s scope requestId sends => ?_⟩
  obtain ⟨enough, answer⟩ := runtimeStatus_of_sends predicts sends requestId
  refine ⟨enough, fun fuel le => ?_⟩
  have cases := status_cases (((inferBody text).length : ℤ) ≤ maxRequestBytes)
    (boundedText text ≠ none) (predicts (Text.strip Text.whiteSpace text) = true)
  simp only [not_not] at cases
  rw [answer fuel le, inferStatus_inferBody, ← served]
  exact cases

/-- A connection that delivers a body in one message. -/
theorem sends_once (body : Bytes) :
    Sends List.next? [Message.request (some body) none] ⟨"http", []⟩ body := by
  have delivered : Delivers List.next? ([] ++ [Message.request (some body) none])
      [Message.request (some body) none] [] := ⟨[], rfl, rfl⟩
  refine ⟨rfl, fun value length found _ => ?_, [], .request (some body) none, [], delivered, ?_, rfl,
    ?_, ?_⟩
  · cases found
  · simp
  · simp
  · simp [content]

theorem text_served_iff_good : ∃ enough, ∀ fuel, enough ≤ fuel → runtimeStatus (fun _ => true)
    ((Runtime.call maxRequestBytes "" ⟨"http", []⟩ fuel).run (serve List.next?)
      [.request (some (inferBody "good")) none]).log = some 200 := by
  have accepted : AsyncInferenceRequest "good" := by decide
  have servable : Servable "good" := ⟨by decide, by decide⟩
  obtain ⟨enough, answer⟩ := (text_served_iff "good" accepted).2.2 (fun _ => true) List.next?
    [.request (some (inferBody "good")) none] ⟨"http", []⟩ "" (sends_once _)
  exact ⟨enough, fun fuel le => (answer fuel le).2.2.2 ⟨servable, rfl⟩⟩

/-- A character over and over. -/
def repeated (n : ℕ) (c : Char) : String := String.ofList (List.replicate n c)

theorem length_repeated (n : ℕ) (c : Char) : (repeated n c).length = n := by
  rw [repeated, String.length_ofList, List.length_replicate]

theorem length_escape_repeated (n : ℕ) (c : Char) :
    (escape (repeated n c).toList).length = n * (escapeChar c).length := by
  rw [repeated, String.toList_ofList, escape, List.length_flatMap, List.map_replicate,
    List.sum_replicate, smul_eq_mul]

/-- As many emoji as the API admits. -/
def emoji : String := repeated 4096 (Char.ofNat 0x1f600)

theorem length_inferBody_emoji : (inferBody emoji).length = 49164 := by
  have short : shortEscape (Char.ofNat 0x1f600) = none := rfl
  have each : (escapeChar (Char.ofNat 0x1f600)).length = 12 := by
    rw [escapeChar, short]
    rfl
  rw [length_inferBody, emoji, length_escape_repeated, each]

/-- The API admits a blank and the emoji; the runtime answers 422 to the one, 413 to the other, whatever
its classifier does. -/
theorem admitted_texts_refused :
    AsyncInferenceRequest " " ∧ boundedText " " = none ∧
      AsyncInferenceRequest emoji ∧ maxRequestBytes < (inferBody emoji).length ∧
      ∀ predicts, ∃ enough, ∀ fuel, enough ≤ fuel →
        runtimeStatus predicts ((Runtime.call maxRequestBytes "" ⟨"http", []⟩ fuel).run
          (serve List.next?) [.request (some (inferBody " ")) none]).log = some 422 ∧
        runtimeStatus predicts ((Runtime.call maxRequestBytes "" ⟨"http", []⟩ fuel).run
          (serve List.next?) [.request (some (inferBody emoji)) none]).log = some 413 := by
  have blank : boundedText " " = none := by decide
  have short : ((inferBody " ").length : ℤ) ≤ maxRequestBytes := by
    rw [inferBody_fits_iff]
    decide
  have long : maxRequestBytes < (inferBody emoji).length := by
    rw [length_inferBody_emoji]
    decide
  have count : emoji.length = 4096 := length_repeated 4096 _
  have admitted : AsyncInferenceRequest emoji := ⟨by omega, by omega⟩
  refine ⟨by decide, blank, admitted, long, fun predicts => ?_⟩
  obtain ⟨enough, answer⟩ := runtimeStatus_of_sends predicts (sends_once (inferBody " ")) ""
  obtain ⟨enough', answer'⟩ := runtimeStatus_of_sends predicts (sends_once (inferBody emoji)) ""
  refine ⟨max enough enough', fun fuel le => ⟨?_, ?_⟩⟩
  · rw [answer fuel (le_trans (le_max_left _ _) le), if_pos short, inferStatus_inferBody,
      if_pos blank]
  · rw [answer' fuel (le_trans (le_max_right _ _) le), if_neg (not_le.2 long)]

end Kernexys.Inference
