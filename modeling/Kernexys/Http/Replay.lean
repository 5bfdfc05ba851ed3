import Kernexys.Http.BodyLimit

/-!
# What the app receives

The limiter of the control API is transparent for the requests it lets through
(`body_limit_transparent`).  The runtime's limiter takes the same decisions, but its app sees empty
requests where the client's next messages should be; the two agree exactly as long as these are the
client's messages after its body (`limiters_agree_iff`).
-/

namespace Kernexys.Http

open Source

section Server

variable {σ : Type} {next : σ → Option (Message × σ)} {s t : σ} {maxBytes : ℤ} {total : ℕ}

/-! ## The control API -/

/-- The replayed messages are delivered one by one, and then those of the source. -/
theorem ControlApi.yields_replay (messages : List Message) (s : σ) (n : ℕ) :
    yields (replay next) n (messages, s) =
      messages.take n ++ yields next (n - messages.length) s := by
  have buffered : ∀ rest, Delivers (replay next) messages (messages ++ rest, s) (rest, s) := by
    induction messages with
    | nil => exact fun rest => rfl
    | cons message messages ih => exact fun rest => ⟨(messages ++ rest, s), rfl, ih rest⟩
  have empty : ∀ n s, yields (replay next) n ([], s) = yields next n s := by
    intro n
    induction n with
    | zero => exact fun s => rfl
    | succ n ih =>
      intro s
      cases first : next s with
      | none =>
        rw [yields_of_none first, yields_of_none (by simp [replay, first])]
      | some delivered =>
        obtain ⟨message, t⟩ := delivered
        have passed : replay next ([], s) = some (message, ([], t)) := by
          simp [replay, first]
        rw [yields_of_some first, yields_of_some passed, ih]
  have all := buffered []
  rw [List.append_nil] at all
  rw [all.yields_eq, empty]

/-- The replayed messages are delivered one by one, and then empty requests. -/
theorem Runtime.yields_replay (messages : List Message) (n : ℕ) :
    yields Runtime.replay n messages =
      messages.take n ++ List.replicate (n - messages.length) emptyRequest := by
  induction n generalizing messages with
  | zero => simp [yields]
  | succ n ih =>
    cases messages with
    | nil =>
      have made : Runtime.replay [] = some (emptyRequest, []) := rfl
      rw [yields_of_some made, ih]
      simp [List.replicate_succ]
    | cons message messages =>
      have passed : Runtime.replay (message :: messages) = some (message, messages) := rfl
      rw [yields_of_some passed, ih]
      simp

/-- What a call of a limiter amounts to; the two 413 responses differ in their content. -/
inductive Act where
  | read (message : Option Message)
  | call (replayed : Option (List Message))
  | refuse (status : ℕ)
  deriving DecidableEq

/-- What a call amounts to. -/
def act : Event → Act
  | ⟨.receive, message⟩ => .read message
  | ⟨.app replayed, _⟩ => .call replayed
  | ⟨.respond response, _⟩ => .refuse response.status

/-- Two runs do the same, up to the content of responses. -/
structure SameActs (ran ran' : Program.Ran σ Op Op.Reply Ending) : Prop where
  acts : ran.log.map act = ran'.log.map act
  result : ran.result = ran'.result
  final : ran.final = ran'.final

theorem SameActs.refl (ran : Program.Ran σ Op Op.Reply Ending) : SameActs ran ran := ⟨rfl, rfl, rfl⟩

/-- Two loops that differ in their response do the same. -/
theorem sameActs_readBody {reject reject' : Response} (status : reject.status = reject'.status)
    (fuel : ℕ) (buffered : List Message) (total : ℕ) (s : σ) :
    SameActs ((readBody reject maxBytes fuel buffered total).run (serve next) s)
      ((readBody reject' maxBytes fuel buffered total).run (serve next) s) := by
  induction fuel generalizing buffered total s with
  | zero => exact .refl _
  | succ fuel ih =>
    cases first : next s with
    | none =>
      rw [run_readBody_waiting reject fuel buffered first,
        run_readBody_waiting reject' fuel buffered first]
      exact .refl _
    | some delivered =>
      obtain ⟨message, t⟩ := delivered
      cases message with
      | disconnect =>
        rw [run_readBody_disconnect reject fuel buffered first,
          run_readBody_disconnect reject' fuel buffered first]
        exact .refl _
      | request body moreBody =>
        by_cases large : ((total + (body.getD []).length : ℕ) : ℤ) > maxBytes
        · rw [run_readBody_large reject fuel buffered first large,
            run_readBody_large reject' fuel buffered first large]
          refine ⟨?_, rfl, rfl⟩
          change [Act.read _, Act.refuse reject.status] = [Act.read _, Act.refuse reject'.status]
          rw [status]
        · by_cases more : moreBody.getD false = true
          · rw [run_readBody_more reject fuel buffered first large more,
              run_readBody_more reject' fuel buffered first large more]
            obtain ⟨acts, result, final⟩ := ih (buffered ++ [.request body moreBody])
              (total + (body.getD []).length) t
            exact ⟨congrArg (Act.read _ :: ·) acts, result, final⟩
          · rw [run_readBody_last reject fuel buffered first large more,
              run_readBody_last reject' fuel buffered first large more]
            exact .refl _

theorem sameActs_limitBody {reject reject' : Response} (status : reject.status = reject'.status)
    (scope : Scope) (fuel : ℕ) (s : σ) :
    SameActs ((limitBody reject maxBytes scope fuel).run (serve next) s)
      ((limitBody reject' maxBytes scope fuel).run (serve next) s) := by
  by_cases http : scope.type = "http"
  · by_cases declared : DeclaresWithin maxBytes scope
    · rw [limitBody_of_declared _ http declared, limitBody_of_declared _ http declared]
      exact sameActs_readBody status fuel [] 0 s
    · rw [limitBody_of_not_declared _ http declared, limitBody_of_not_declared _ http declared]
      refine ⟨?_, rfl, rfl⟩
      change [Act.refuse reject.status] = [Act.refuse reject'.status]
      rw [status]
  · rw [limitBody, limitBody, if_pos http, if_pos http]
    exact .refl _

/-- The source delivers these messages, of which the last one, and no other, ends the body or the
connection. -/
structure UpToEnd (next : σ → Option (Message × σ)) (s : σ) (messages : List Message) (t : σ) :
    Prop where
  delivered : Delivers next messages s t
  ends : ∃ earlier last, messages = earlier ++ [last] ∧ (∀ m ∈ earlier, m.ends = false) ∧
    last.ends = true

theorem upToEnd_singleton {message : Message} (first : next s = some (message, t))
    (ends : message.ends = true) : UpToEnd next s [message] t :=
  ⟨⟨t, first, rfl⟩, [], message, rfl, by simp, ends⟩

theorem UpToEnd.cons {message : Message} {messages : List Message} {u : σ}
    (first : next s = some (message, t)) (open_ : message.ends = false)
    (rest : UpToEnd next t messages u) : UpToEnd next s (message :: messages) u := by
  obtain ⟨earlier, last, rfl, before, ends⟩ := rest.ends
  exact ⟨⟨t, first, rest.delivered⟩, message :: earlier, last, rfl,
    List.forall_mem_cons.2 ⟨open_, before⟩, ends⟩

/-- The first message is the only one, or it does not end the body and the rest is up to its end. -/
theorem UpToEnd.cases {messages : List Message} (read : UpToEnd next s messages t) :
    ∃ message u, next s = some (message, u) ∧
      (message.ends = true ∧ messages = [message] ∧ t = u ∨
        message.ends = false ∧ ∃ rest, messages = message :: rest ∧ UpToEnd next u rest t) := by
  obtain ⟨delivered, earlier, last, rfl, before, ends⟩ := read
  cases earlier with
  | nil =>
    obtain ⟨u, first, rfl⟩ := delivered
    exact ⟨last, u, first, Or.inl ⟨ends, rfl, rfl⟩⟩
  | cons message earlier =>
    obtain ⟨u, first, rest⟩ := delivered
    obtain ⟨open_, before⟩ := List.forall_mem_cons.1 before
    exact ⟨message, u, first, Or.inr ⟨open_, _, rfl, rest, earlier, last, rfl, before, ends⟩⟩

/-- A source has at most one first message that ends the body. -/
theorem UpToEnd.unique {messages messages' : List Message} {t' : σ}
    (read : UpToEnd next s messages t) (read' : UpToEnd next s messages' t') :
    messages = messages' ∧ t = t' := by
  induction messages generalizing s messages' with
  | nil =>
    obtain ⟨message, u, -, ⟨-, empty, -⟩ | ⟨-, rest, empty, -⟩⟩ := read.cases
    · cases empty
    · cases empty
  | cons head tail ih =>
    obtain ⟨message, u, first, this⟩ := read.cases
    obtain ⟨message', u', first', this'⟩ := read'.cases
    obtain ⟨rfl, rfl⟩ := Prod.mk.inj (Option.some.inj (first.symm.trans first'))
    rcases this with ⟨ends, only, rfl⟩ | ⟨open_, rest, eq, later⟩
    · rcases this' with ⟨-, only', rfl⟩ | ⟨open_, -⟩
      · exact ⟨only.trans only'.symm, rfl⟩
      · cases ends.symm.trans open_
    · rcases this' with ⟨ends, -⟩ | ⟨-, rest', rfl, later'⟩
      · cases open_.symm.trans ends
      · obtain ⟨rfl, rfl⟩ := List.cons.inj eq
        obtain ⟨rfl, rfl⟩ := ih later later'
        exact ⟨rfl, rfl⟩

/-- The loop calls the app with the messages up to the end of the body, and has read no others. -/
theorem upToEnd_readBody {reject : Response} {fuel : ℕ} {before buffered : List Message}
    {total : ℕ} {s : σ}
    (called : ⟨.app (some buffered), ()⟩ ∈
      ((readBody reject maxBytes fuel before total).run (serve next) s).log) :
    ∃ body, buffered = before ++ body ∧
      UpToEnd next s body ((readBody reject maxBytes fuel before total).run (serve next) s).final := by
  induction fuel generalizing before total s with
  | zero => cases called
  | succ fuel ih =>
    cases first : next s with
    | none =>
      rw [run_readBody_waiting reject fuel before first] at called
      simp at called
    | some delivered =>
      obtain ⟨message, t⟩ := delivered
      cases message with
      | disconnect =>
        rw [run_readBody_disconnect reject fuel before first] at called ⊢
        obtain rfl : buffered = before ++ [.disconnect] := by simpa [received] using called
        exact ⟨_, rfl, upToEnd_singleton first rfl⟩
      | request body moreBody =>
        by_cases large : ((total + (body.getD []).length : ℕ) : ℤ) > maxBytes
        · rw [run_readBody_large reject fuel before first large] at called
          simp [received] at called
        · by_cases more : moreBody.getD false = true
          · rw [run_readBody_more reject fuel before first large more] at called ⊢
            have later := (List.mem_cons.1 called).resolve_left (by simp [received])
            obtain ⟨rest, rfl, read⟩ := ih later
            refine ⟨.request body moreBody :: rest, by simp, read.cons first ?_⟩
            simp [Message.ends, more]
          · rw [run_readBody_last reject fuel before first large more] at called ⊢
            obtain rfl : buffered = before ++ [.request body moreBody] := by
              simpa [received] using called
            refine ⟨_, rfl, upToEnd_singleton first ?_⟩
            simpa [Message.ends] using more

theorem upToEnd_limitBody {reject : Response} {scope : Scope} {fuel : ℕ} {buffered : List Message}
    (called : ⟨.app (some buffered), ()⟩ ∈
      ((limitBody reject maxBytes scope fuel).run (serve next) s).log) :
    UpToEnd next s buffered ((limitBody reject maxBytes scope fuel).run (serve next) s).final := by
  by_cases http : scope.type = "http"
  · by_cases declared : DeclaresWithin maxBytes scope
    · rw [limitBody_of_declared _ http declared] at called ⊢
      obtain ⟨body, rfl, read⟩ := upToEnd_readBody called
      exact read
    · rw [limitBody_of_not_declared _ http declared] at called
      simp [Program.run, serve] at called
  · rw [limitBody, if_pos http] at called
    simp [Program.perform_bind, Program.run, serve] at called

/-- The two limiters read the same messages and take the same decision.  When they call the app with a
body, the client has sent a message that ends it, and the first `k` messages that the two apps receive
are the same exactly if those that the client sends after that message are empty requests. -/
theorem limiters_agree_iff (next : σ → Option (Message × σ)) (s : σ) (maxBytes : ℤ)
    (requestId : Option String) (requestId' : String) (scope : Scope) (fuel : ℕ) :
    let api := (ControlApi.call maxBytes requestId scope fuel).run (serve next) s
    let runtime := (Runtime.call maxBytes requestId' scope fuel).run (serve next) s
    SameActs api runtime ∧
      ∀ buffered, ⟨.app (some buffered), ()⟩ ∈ api.log →
        (∃ body t, UpToEnd next s body t) ∧
        ∀ body t, UpToEnd next s body t → ∀ k,
          (yields (ControlApi.replay next) k (buffered, api.final) = yields Runtime.replay k buffered ↔
            yields next (k - body.length) t =
              List.replicate (k - body.length) Runtime.emptyRequest) := by
  intro api runtime
  have status : (ControlApi.reject maxBytes requestId).status =
      (Runtime.reject maxBytes requestId').status := rfl
  refine ⟨sameActs_limitBody status scope fuel s, fun buffered called => ?_⟩
  have read : UpToEnd next s buffered api.final := upToEnd_limitBody called
  refine ⟨⟨buffered, api.final, read⟩, fun body t read' k => ?_⟩
  obtain ⟨rfl, rfl⟩ := read'.unique read
  rw [ControlApi.yields_replay, Runtime.yields_replay, List.append_cancel_left_eq]

/-- The message of the body itself is the same for both apps. -/
theorem limiters_agree_iff_body :
    let messages : List Message := [.request (some [1]) (some false), .disconnect]
    let api := (ControlApi.call 16384 none ⟨"http", []⟩ 2).run (serve List.next?) messages
    yields (ControlApi.replay List.next?) 1 ([.request (some [1]) (some false)], api.final) =
      yields Runtime.replay 1 [.request (some [1]) (some false)] := by
  intro messages api
  have called : ⟨.app (some [.request (some [1]) (some false)]), ()⟩ ∈ api.log :=
    List.mem_cons_of_mem _ (List.mem_singleton_self _)
  have read : UpToEnd List.next? messages [.request (some [1]) (some false)] [.disconnect] :=
    upToEnd_singleton rfl rfl
  exact (((limiters_agree_iff List.next? messages 16384 none "" ⟨"http", []⟩ 2).2 _ called).2 _ _
    read 1).2 rfl

/-- The app of the control API sees the client go away, that of the runtime an empty request. -/
theorem limiters_differ_after_body :
    let messages : List Message := [.request (some [1]) (some false), .disconnect]
    let api := (ControlApi.call 16384 none ⟨"http", []⟩ 2).run (serve List.next?) messages
    let runtime := (Runtime.call 16384 "" ⟨"http", []⟩ 2).run (serve List.next?) messages
    let buffered : List Message := [.request (some [1]) (some false)]
    api.log.getLast?.map act = some (.call (some buffered)) ∧
      runtime.log.getLast?.map act = some (.call (some buffered)) ∧
      yields (ControlApi.replay List.next?) 2 (buffered, api.final) = messages ∧
      yields Runtime.replay 2 buffered = [.request (some [1]) (some false), Runtime.emptyRequest] ∧
      yields (ControlApi.replay List.next?) 2 (buffered, api.final) ≠
        yields Runtime.replay 2 buffered := by
  decide

end Server

end Kernexys.Http
