import Kernexys.Lib.Program
import Kernexys.Lib.Source
import Kernexys.Lib.Json

/-!
# The request body limit

`RequestBodyLimitMiddleware` of the control API (`app/middleware.py`) and of the runtime
(`runtime_app/middleware.py`).  The two classes are one text up to the body of the 413 response and
the function `_replay`; `limitBody` is that text.  A middleware is a program over the calls it
makes: it awaits `receive`, calls the wrapped app, or sends a response.
-/

namespace Kernexys.Http

open Source

/-- The type `bytes` of Python. -/
abbrev Bytes : Type := List UInt8

/-! ## Requests -/

/-- The messages that ASGI delivers for an HTTP request. -/
inductive Message where
  | request (body : Option Bytes) (moreBody : Option Bool)
  | disconnect
  deriving DecidableEq

namespace Message

/-- The length of `message.get("body", b"")`. -/
def size : Message → ℕ
  | request body _ => (body.getD []).length
  | disconnect => 0

/-- The message ends the body, or the connection. -/
def ends : Message → Bool
  | request _ moreBody => !moreBody.getD false
  | disconnect => true

end Message

/-- The sum of the body lengths. -/
def bodyLength (messages : List Message) : ℕ := (messages.map Message.size).sum

/-- The scope of an ASGI call. -/
structure Scope where
  type : String
  headers : List (Bytes × Bytes) := []

/-- `bytes.decode("latin-1")`. -/
def latin1 (bytes : Bytes) : String := String.ofList (bytes.map fun b => Char.ofNat b.toNat)

/-- The ASCII bytes of a literal. -/
def ascii (s : String) : Bytes := s.toList.map fun c => UInt8.ofNat c.toNat

/-- `_header`: the value of the first header of this name. -/
def header (scope : Scope) (name : Bytes) : Option String :=
  (scope.headers.find? fun entry => entry.1 = name).map fun entry => latin1 entry.2

/-! ## Python's `int` -/

/-- The white space that `int` ignores around a number, among the characters of latin-1. -/
def numberSpace (c : Char) : Bool := c.toNat ∈ [9, 10, 11, 12, 13, 32, 0x85, 0xA0]

/-- The value of a list of decimal digits. -/
def decimal (digits : List Char) : ℕ := digits.foldl (fun n c => 10 * n + (c.toNat - 48)) 0

/-- Digits, with single underscores between them; `int` refuses more than 4300 digits. -/
def unsigned (text : List Char) : Option ℕ :=
  let groups := text.splitOn '_'
  if groups.all (fun group => !group.isEmpty && group.all Char.isDigit) ∧ groups.flatten.length ≤ 4300 then
    some (decimal groups.flatten)
  else none

/-- `int(text)`, or none for a ValueError. -/
def parseInt (text : String) : Option ℤ :=
  match ((text.toList.dropWhile numberSpace).reverse.dropWhile numberSpace).reverse with
  | '+' :: digits => (unsigned digits).map fun n => (n : ℤ)
  | '-' :: digits => (unsigned digits).map fun n => -(n : ℤ)
  | digits => (unsigned digits).map fun n => (n : ℤ)

/-! ## The middleware -/

/-- A `JSONResponse`. -/
structure Response where
  status : ℕ
  content : Json

/-- The calls of the middleware.  `app none` calls the wrapped app with `receive` itself, and
`app (some messages)` with `_replay` of the messages. -/
inductive Op where
  | receive
  | app (replayed : Option (List Message))
  | respond (response : Response)

/-- `receive` replies with a message, or with nothing when it never returns. -/
abbrev Op.Reply : Op → Type
  | receive => Option Message
  | app _ => Unit
  | respond _ => Unit

/-- A limiter, up to its calls. -/
abbrev Code : Type → Type := Program Op Op.Reply

/-- A call with its reply. -/
abbrev Event : Type := Program.Event Op Op.Reply

/-- How a call of the middleware ends: it returns, or it waits for a message for ever. -/
inductive Ending where
  | returned
  | waiting
  | outOfFuel
  deriving DecidableEq

/-- The loop that reads the body. -/
def readBody (reject : Response) (maxBytes : ℤ) : ℕ → List Message → ℕ → Code Ending
  | 0, _, _ => return .outOfFuel
  | fuel + 1, buffered, total => do
    match ← Program.perform Op.receive with
    | none => return .waiting
    | some message =>
      let buffered := buffered ++ [message]
      match message with
      | .disconnect => do
        let _ ← Program.perform (Op.app (some buffered))
        return .returned
      | .request body moreBody =>
        let total := total + (body.getD []).length
        if (total : ℤ) > maxBytes then do
          let _ ← Program.perform (Op.respond reject)
          return .returned
        else if moreBody.getD false then readBody reject maxBytes fuel buffered total
        else do
          let _ ← Program.perform (Op.app (some buffered))
          return .returned

/-- `RequestBodyLimitMiddleware.__call__`, for a given 413 response. -/
def limitBody (reject : Response) (maxBytes : ℤ) (scope : Scope) (fuel : ℕ) : Code Ending :=
  if scope.type ≠ "http" then do
    let _ ← Program.perform (Op.app none)
    return .returned
  else
    match (header scope (ascii "content-length")).bind parseInt with
    | some length =>
      if length > maxBytes then do
        let _ ← Program.perform (Op.respond reject)
        return .returned
      else readBody reject maxBytes fuel [] 0
    | none => readBody reject maxBytes fuel [] 0

/-- The message of both 413 responses. -/
def limitMessage (maxBytes : ℤ) : String :=
  "Request bodies are limited to " ++ toString maxBytes ++ " bytes."

namespace ControlApi

/-- The response of `_reject`; the request id is that of the context, if one is set. -/
def reject (maxBytes : ℤ) (requestId : Option String) : Response where
  status := 413
  content := .obj [("error", .obj [("code", .str "request_too_large"),
    ("message", .str (limitMessage maxBytes)), ("request_id", .str (requestId.getD "")),
    ("details", .null)])]

/-- `__call__` of the limiter of the control API. -/
def call (maxBytes : ℤ) (requestId : Option String) : Scope → ℕ → Code Ending :=
  limitBody (reject maxBytes requestId) maxBytes

/-- `_replay`: the messages, then what `downstream` delivers. -/
def replay {σ : Type} (downstream : σ → Option (Message × σ)) :
    List Message × σ → Option (Message × (List Message × σ))
  | (message :: messages, s) => some (message, (messages, s))
  | ([], s) => (downstream s).map fun (message, t) => (message, ([], t))

end ControlApi

namespace Runtime

/-- The response of `_reject`, which always has a request id. -/
def reject (maxBytes : ℤ) (requestId : String) : Response where
  status := 413
  content := .obj [("error", .obj [("code", .str "request_too_large"),
    ("message", .str (limitMessage maxBytes)), ("request_id", .str requestId)])]

/-- `__call__` of the limiter of the runtime. -/
def call (maxBytes : ℤ) (requestId : String) : Scope → ℕ → Code Ending :=
  limitBody (reject maxBytes requestId) maxBytes

/-- The message that `_replay` makes up once the buffered ones are read. -/
def emptyRequest : Message := .request (some []) (some false)

/-- `_replay`: the messages, then empty requests. -/
def replay : List Message → Option (Message × List Message)
  | message :: messages => some (message, messages)
  | [] => some (emptyRequest, [])

end Runtime

/-! ## The loop against a source of messages -/

section Server

variable {σ : Type} (next : σ → Option (Message × σ))

/-- The server of a connection: `receive` takes the next message of the source. -/
def serve : (op : Op) → σ → op.Reply × σ
  | .receive, s =>
    match next s with
    | some (message, t) => (some message, t)
    | none => (none, s)
  | .app _, s => ((), s)
  | .respond _, s => ((), s)

/-- A message that `receive` returned. -/
def received (message : Message) : Event := ⟨.receive, some message⟩

/-- From `total` on, the running sums of the body lengths stay within the limit, up to the message
that ends the body or the connection.  There is a sum at every message but a disconnect. -/
def WithinLimit (maxBytes : ℤ) (total : ℕ) (s : σ) : Prop :=
  ∀ messages message t, Delivers next (messages ++ [message]) s t →
    (∀ m ∈ messages, m.ends = false) → message ≠ .disconnect →
    ((total + bodyLength (messages ++ [message]) : ℕ) : ℤ) ≤ maxBytes

variable {next} {s t : σ} {maxBytes : ℤ} {total : ℕ}

theorem bodyLength_cons (message : Message) (messages : List Message) :
    bodyLength (message :: messages) = message.size + bodyLength messages := by
  simp [bodyLength]

/-- The sums stay within the limit when the first one does and, if the body goes on, all others. -/
theorem withinLimit_request {body : Option Bytes} {moreBody : Option Bool}
    (first : next s = some (.request body moreBody, t)) :
    WithinLimit next maxBytes total s ↔
      ((total + (body.getD []).length : ℕ) : ℤ) ≤ maxBytes ∧
        (moreBody.getD false = true →
          WithinLimit next maxBytes (total + (body.getD []).length) t) := by
  constructor
  · intro within
    refine ⟨?_, fun more messages message u delivered open_ request => ?_⟩
    · simpa [bodyLength, Message.size] using
        within [] (.request body moreBody) t ⟨t, first, rfl⟩ (by simp) (by simp)
    · have sum := within (.request body moreBody :: messages) message u ⟨t, first, delivered⟩
        (List.forall_mem_cons.2 ⟨by simp [Message.ends, more], open_⟩) request
      rwa [List.cons_append, bodyLength_cons, ← Nat.add_assoc] at sum
  · rintro ⟨small, later⟩ messages message u delivered open_ request
    cases messages with
    | nil =>
      obtain ⟨s', eq, -⟩ := delivered
      rw [first] at eq
      cases eq
      simpa [bodyLength, Message.size] using small
    | cons m messages =>
      obtain ⟨s', eq, rest⟩ := delivered
      rw [first] at eq
      cases eq
      obtain ⟨here, open_⟩ := List.forall_mem_cons.1 open_
      have sum := later (by simpa [Message.ends] using here) messages message u rest open_ request
      rwa [List.cons_append, bodyLength_cons, ← Nat.add_assoc]

/-! ### One round of the loop -/

section Round

variable (reject : Response) (fuel : ℕ) (buffered : List Message)

theorem run_readBody_waiting (waits : next s = none) :
    (readBody reject maxBytes (fuel + 1) buffered total).run (serve next) s =
      ⟨[⟨.receive, none⟩], .waiting, s⟩ := by
  have answer : serve next .receive s = (none, s) := by
    simp only [serve, waits]
  rw [readBody, Program.perform_bind, Program.run_call_of_serve _ answer]
  rfl

theorem run_readBody_disconnect (first : next s = some (.disconnect, t)) :
    (readBody reject maxBytes (fuel + 1) buffered total).run (serve next) s =
      ⟨[received .disconnect, ⟨.app (some (buffered ++ [.disconnect])), ()⟩], .returned, t⟩ := by
  have answer : serve next .receive s = (some .disconnect, t) := by
    simp only [serve, first]
  rw [readBody, Program.perform_bind, Program.run_call_of_serve _ answer]
  rfl

variable {body : Option Bytes} {moreBody : Option Bool}

theorem run_readBody_large (first : next s = some (.request body moreBody, t))
    (large : ((total + (body.getD []).length : ℕ) : ℤ) > maxBytes) :
    (readBody reject maxBytes (fuel + 1) buffered total).run (serve next) s =
      ⟨[received (.request body moreBody), ⟨.respond reject, ()⟩], .returned, t⟩ := by
  have answer : serve next .receive s = (some (.request body moreBody), t) := by
    simp only [serve, first]
  rw [readBody, Program.perform_bind, Program.run_call_of_serve _ answer]
  simp only [if_pos large]
  rfl

theorem run_readBody_more (first : next s = some (.request body moreBody, t))
    (small : ¬ ((total + (body.getD []).length : ℕ) : ℤ) > maxBytes)
    (more : moreBody.getD false = true) :
    (readBody reject maxBytes (fuel + 1) buffered total).run (serve next) s =
      let rest := (readBody reject maxBytes fuel (buffered ++ [.request body moreBody])
        (total + (body.getD []).length)).run (serve next) t
      ⟨received (.request body moreBody) :: rest.log, rest.result, rest.final⟩ := by
  have answer : serve next .receive s = (some (.request body moreBody), t) := by
    simp only [serve, first]
  rw [readBody, Program.perform_bind, Program.run_call_of_serve _ answer]
  simp only [if_neg small, if_pos more]
  rfl

theorem run_readBody_last (first : next s = some (.request body moreBody, t))
    (small : ¬ ((total + (body.getD []).length : ℕ) : ℤ) > maxBytes)
    (last : ¬ moreBody.getD false = true) :
    (readBody reject maxBytes (fuel + 1) buffered total).run (serve next) s =
      ⟨[received (.request body moreBody),
        ⟨.app (some (buffered ++ [.request body moreBody])), ()⟩], .returned, t⟩ := by
  have answer : serve next .receive s = (some (.request body moreBody), t) := by
    simp only [serve, first]
  rw [readBody, Program.perform_bind, Program.run_call_of_serve _ answer]
  simp only [if_neg small, if_neg last]
  rfl

end Round

/-! ### Whole runs -/

/-- How the loop ends when a message that ends the body is among the first `n`: it calls the app
with the messages it read, or it has read just the messages that exceed the limit and rejects. -/
inductive Read (next : σ → Option (Message × σ)) (reject : Response) (maxBytes : ℤ)
    (buffered : List Message) (total : ℕ) (s : σ) : Program.Ran σ Op Op.Reply Ending → Prop where
  | called (messages : List Message) (t : σ) (within : WithinLimit next maxBytes total s)
      (delivered : Delivers next messages s t) :
      Read next reject maxBytes buffered total s
        ⟨messages.map received ++ [⟨.app (some (buffered ++ messages)), ()⟩], .returned, t⟩
  | rejected (messages : List Message) (message : Message) (t : σ)
      (beyond : ¬ WithinLimit next maxBytes total s)
      (delivered : Delivers next (messages ++ [message]) s t)
      (exceeds : maxBytes < ((total + bodyLength (messages ++ [message]) : ℕ) : ℤ))
      (first : messages ≠ [] → ((total + bodyLength messages : ℕ) : ℤ) ≤ maxBytes) :
      Read next reject maxBytes buffered total s
        ⟨(messages ++ [message]).map received ++ [⟨.respond reject, ()⟩], .returned, t⟩

/-- A message of an open body, before the rest of the loop. -/
theorem Read.cons {reject : Response} {buffered : List Message} {body : Option Bytes}
    {moreBody : Option Bool} (first : next s = some (.request body moreBody, t))
    (small : ((total + (body.getD []).length : ℕ) : ℤ) ≤ maxBytes)
    (more : moreBody.getD false = true) {ran : Program.Ran σ Op Op.Reply Ending}
    (rest : Read next reject maxBytes (buffered ++ [.request body moreBody])
      (total + (body.getD []).length) t ran) :
    Read next reject maxBytes buffered total s
      ⟨received (.request body moreBody) :: ran.log, ran.result, ran.final⟩ := by
  cases rest with
  | called messages u within delivered =>
    rw [List.append_assoc]
    exact .called (.request body moreBody :: messages) u
      ((withinLimit_request first).2 ⟨small, fun _ => within⟩) ⟨t, first, delivered⟩
  | rejected messages message u beyond delivered exceeds earlier =>
    refine .rejected (.request body moreBody :: messages) message u ?_ ⟨t, first, delivered⟩ ?_ ?_
    · exact fun within => beyond (((withinLimit_request first).1 within).2 more)
    · rwa [List.cons_append, bodyLength_cons, ← Nat.add_assoc]
    · intro _
      rw [bodyLength_cons, ← Nat.add_assoc]
      cases messages with
      | nil => simpa [bodyLength, Message.size] using small
      | cons m messages => exact earlier (by simp)

/-- A body within the limit is read to its end, and the app gets all of it. -/
theorem run_readBody_fits (reject : Response) {messages : List Message} {last : Message}
    (delivered : Delivers next (messages ++ [last]) s t) (open_ : ∀ m ∈ messages, m.ends = false)
    (closes : last.ends = true)
    (fits : ((total + bodyLength (messages ++ [last]) : ℕ) : ℤ) ≤ maxBytes) {fuel : ℕ}
    (enough : messages.length < fuel) (buffered : List Message) :
    (readBody reject maxBytes fuel buffered total).run (serve next) s =
      ⟨(messages ++ [last]).map received ++ [⟨.app (some (buffered ++ (messages ++ [last]))), ()⟩],
        .returned, t⟩ := by
  induction messages generalizing fuel buffered total s with
  | nil =>
    obtain ⟨fuel, rfl⟩ := Nat.exists_eq_succ_of_ne_zero (Nat.ne_zero_of_lt enough)
    obtain ⟨t', first, rfl⟩ := delivered
    cases last with
    | disconnect => exact run_readBody_disconnect reject fuel buffered first
    | request body moreBody =>
      simp only [List.nil_append, bodyLength, Message.size, List.map_cons, List.map_nil,
        List.sum_singleton] at fits
      exact run_readBody_last reject fuel buffered first (by omega)
        (by simpa [Message.ends] using closes)
  | cons message messages ih =>
    obtain ⟨fuel, rfl⟩ := Nat.exists_eq_succ_of_ne_zero (Nat.ne_zero_of_lt enough)
    obtain ⟨s', first, delivered⟩ := delivered
    obtain ⟨here, others⟩ := List.forall_mem_cons.1 open_
    cases message with
    | disconnect => cases here
    | request body moreBody =>
      rw [List.cons_append, bodyLength_cons, Message.size, ← Nat.add_assoc] at fits
      have small : ¬ ((total + (body.getD []).length : ℕ) : ℤ) > maxBytes := by
        push_cast at fits ⊢
        omega
      rw [run_readBody_more reject fuel buffered first small (by simpa [Message.ends] using here),
        ih delivered others fits (Nat.lt_of_succ_lt_succ enough)]
      simp

/-- A body beyond the limit is rejected. -/
theorem run_readBody_exceeds (reject : Response) {messages : List Message} {last : Message}
    (delivered : Delivers next (messages ++ [last]) s t) (open_ : ∀ m ∈ messages, m.ends = false)
    (request : last ≠ .disconnect)
    (exceeds : maxBytes < ((total + bodyLength (messages ++ [last]) : ℕ) : ℤ)) {fuel : ℕ}
    (enough : messages.length < fuel) (buffered : List Message) :
    ∃ log u, (readBody reject maxBytes fuel buffered total).run (serve next) s =
      ⟨log ++ [⟨.respond reject, ()⟩], .returned, u⟩ := by
  induction messages generalizing fuel buffered total s with
  | nil =>
    obtain ⟨fuel, rfl⟩ := Nat.exists_eq_succ_of_ne_zero (Nat.ne_zero_of_lt enough)
    obtain ⟨t', first, rfl⟩ := delivered
    cases last with
    | disconnect => exact absurd rfl request
    | request body moreBody =>
      simp only [List.nil_append, bodyLength, Message.size, List.map_cons, List.map_nil,
        List.sum_singleton] at exceeds
      exact ⟨[_], _, run_readBody_large reject fuel buffered first exceeds⟩
  | cons message messages ih =>
    obtain ⟨fuel, rfl⟩ := Nat.exists_eq_succ_of_ne_zero (Nat.ne_zero_of_lt enough)
    obtain ⟨s', first, delivered⟩ := delivered
    obtain ⟨here, others⟩ := List.forall_mem_cons.1 open_
    cases message with
    | disconnect => cases here
    | request body moreBody =>
      by_cases large : ((total + (body.getD []).length : ℕ) : ℤ) > maxBytes
      · exact ⟨[_], _, run_readBody_large reject fuel buffered first large⟩
      · rw [List.cons_append, bodyLength_cons, Message.size, ← Nat.add_assoc] at exceeds
        obtain ⟨log, u, rest⟩ := ih delivered others exceeds (Nat.lt_of_succ_lt_succ enough)
          (buffered ++ [.request body moreBody])
        refine ⟨received (.request body moreBody) :: log, u, ?_⟩
        rw [run_readBody_more reject fuel buffered first large (by simpa [Message.ends] using here),
          rest]
        rfl

/-! ## Admitted requests -/

/-- The first Content-Length header, if it is a number, is within the limit. -/
def DeclaresWithin (maxBytes : ℤ) (scope : Scope) : Prop :=
  ∀ value length, header scope (ascii "content-length") = some value →
    parseInt value = some length → length ≤ maxBytes

/-- The declared length and the body itself stay within the limit. -/
structure Admits (next : σ → Option (Message × σ)) (maxBytes : ℤ) (scope : Scope) (s : σ) : Prop where
  declared : DeclaresWithin maxBytes scope
  body : WithinLimit next maxBytes 0 s

theorem limitBody_of_declared (reject : Response) {scope : Scope} (http : scope.type = "http")
    (declared : DeclaresWithin maxBytes scope) (fuel : ℕ) :
    limitBody reject maxBytes scope fuel = readBody reject maxBytes fuel [] 0 := by
  rw [limitBody, if_neg (not_not_intro http)]
  cases given : (header scope (ascii "content-length")).bind parseInt with
  | none => rfl
  | some length =>
    obtain ⟨value, found, parsed⟩ := Option.bind_eq_some_iff.1 given
    exact if_neg (not_lt.2 (declared value length found parsed))

theorem limitBody_of_not_declared (reject : Response) {scope : Scope} (http : scope.type = "http")
    (large : ¬ DeclaresWithin maxBytes scope) (fuel : ℕ) :
    limitBody reject maxBytes scope fuel =
      .call (Op.respond reject) fun _ => .ret .returned := by
  simp only [DeclaresWithin, not_forall] at large
  obtain ⟨value, length, found, parsed, large⟩ := large
  have given : (header scope (ascii "content-length")).bind parseInt = some length :=
    Option.bind_eq_some_iff.2 ⟨value, found, parsed⟩
  rw [limitBody, if_neg (not_not_intro http), given]
  exact if_pos (not_le.1 large)

end Server

end Kernexys.Http
