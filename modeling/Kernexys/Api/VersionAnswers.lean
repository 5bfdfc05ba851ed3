import Kernexys.Lib.JsonCompare
import Kernexys.Api.Registry

/-!
# How requests for a registered version are answered

A request that starts when its version is registered reads the registered row, whatever other
requests do, and answers by comparing its body with the row.  The comparison of the metadata is
Python's, so a boolean passes for the number that it equals.
-/

namespace Kernexys.Api

/-- The body has the content of the row; its metadata is the same JSON document. -/
def SameContent (row : ModelVersion) (body : VersionCreate) : Prop :=
  row.runtimeImage = body.runtimeImage ∧ row.artifactDigest = body.artifactDigest ∧
    (Json.obj row.metadataJson).agree Json.strictSame (.obj body.metadata) = true

/-- The metadata of the row and of the body mix booleans and numbers. -/
def mixesMetadata (row : ModelVersion) (body : VersionCreate) : Bool :=
  (Json.obj row.metadataJson).mixes (.obj body.metadata)

theorem sameContent_iff (row : ModelVersion) (body : VersionCreate) :
    SameContent row body ↔ versionMatches row body = true ∧ mixesMetadata row body = false := by
  rw [SameContent, Json.agree_strictSame, versionMatches, mixesMetadata]
  simp only [Bool.and_eq_true, beq_iff_eq, Bool.not_eq_true']
  tauto

/-! ## The answer -/

section Answer

variable {lax : Coercions} {s₀ : Stores}
  {c : Config Stores Request Op Op.Reply (Except Failure Response)} {modelName : ResourceName}
  {version : VersionName} {row : ModelVersion}

/-- A reply that the stores can give after `s₀`. -/
def LaterReply (s₀ : Stores) (_ : List Event) (op : Op) (r : op.Reply) : Prop :=
  ∃ s t : Stores, s₀.registry.Grows s.registry ∧ s.Executes op r t

/-- The answer of a request for a registered version. -/
def versionAnswer (modelName : ResourceName) (version : VersionName) (row : ModelVersion)
    (body : VersionCreate) : Except Failure Response :=
  if versionMatches row body then .ok (.version 200 (.ofRow row))
  else .error (.api (immutableModelVersion modelName.1 version.1))

theorem calls_putVersion_registered (registered : s₀.registry.version modelName.1 version.1 = some row)
    (body : VersionCreate) :
    (putVersion modelName version body).Calls (LaterReply s₀) (fun _ _ => True)
      (fun _ result => result = versionAnswer modelName version row body) [] := by
  have model : s₀.registry.models.find modelName.1 ≠ none := by
    have stored := Table.find_eq_some_iff.1 registered
    have named : row.modelName = modelName.1 := congrArg Prod.fst stored.2
    exact named ▸ s₀.registry.foreign_key row stored.1
  unfold putVersion Session.getModel
  rw [Program.perform_bind]
  refine Program.calls_call trivial fun r may => ?_
  obtain ⟨s, t, grows, db, ⟨now, executed⟩, -⟩ := may
  have read : s.registry.models.find modelName.1 = r := congrArg Prod.fst executed
  cases r with
  | none => exact absurd read (grows.models _ model)
  | some _ =>
    unfold RegistryRepository.putVersion Session.getVersion
    dsimp only
    rw [Program.perform_bind, Program.call_bind]
    refine Program.calls_call trivial fun r may => ?_
    obtain ⟨s, t, grows, db, ⟨now, executed⟩, -⟩ := may
    have read : s.registry.version modelName.1 version.1 = r := congrArg Prod.fst executed
    rw [grows.version registered] at read
    subst read
    exact Program.calls_ret (answerVersion_existing modelName version body row)

/-- How requests for the registered version end. -/
def LaterEnds (modelName : ResourceName) (version : VersionName) (row : ModelVersion)
    (request : Request) (_ : List Event) (result : Except Failure Response) : Prop :=
  ∀ body, request = .putVersion modelName version body →
    result = versionAnswer modelName version row body

/-- Whatever other requests do, a request that starts after `s₀` answers by the row. -/
theorem answer_of_registered (reach : (apiHost lax).Reachable s₀ c)
    (registered : s₀.registry.version modelName.1 version.1 = some row) {i : ℕ}
    {body : VersionCreate} {log : List Event} {answer : Except Failure Response}
    (finished : c.thread i = some ⟨.putVersion modelName version body, log, .ret answer⟩) :
    answer = versionAnswer modelName version row body := by
  have programs : ∀ request, (handle lax request).Calls (LaterReply s₀) (fun _ _ => True)
      (LaterEnds modelName version row request) [] := by
    intro request
    by_cases later : ∃ body, request = .putVersion modelName version body
    · obtain ⟨body, rfl⟩ := later
      refine (calls_putVersion_registered registered body).mono (fun _ _ => id) ?_
      rintro _ _ rfl _ ⟨⟩
      rfl
    · refine (Program.calls_trivial _ _).mono (fun _ _ => id) fun _ _ _ body eq => ?_
      exact absurd ⟨body, eq⟩ later
  have verified : Host.Verified (fun _ => LaterReply s₀) (fun _ _ _ => True)
      (LaterEnds modelName version row) (fun s => s₀.registry.Grows s.registry) (fun _ _ => True) c := by
    refine reach.verified programs (.refl _) ?_ fun s job log op r t grows _ _ executed => ?_
    · rintro s _ grows ⟨c, -, rfl⟩
      exact ⟨grows, fun _ => id⟩
    · have executes : s.Executes op r t := executed
      exact ⟨⟨s, t, grows, executes⟩, grows.trans executes.grows, trivial, fun _ => id⟩
  exact (verified.follows finished).rest body rfl

/-- The answer is 200 exactly for the content of the row, and 409 exactly for any other. -/
structure AnswersByContent (modelName : ResourceName) (version : VersionName) (row : ModelVersion)
    (body : VersionCreate) (answer : Except Failure Response) : Prop where
  same : answer = .ok (.version 200 (.ofRow row)) ↔ SameContent row body
  different : answer = .error (.api (immutableModelVersion modelName.1 version.1)) ↔
    ¬ SameContent row body

theorem answersByContent_iff (body : VersionCreate) :
    AnswersByContent modelName version row body (versionAnswer modelName version row body) ↔
      (mixesMetadata row body = true → versionMatches row body = false) := by
  have content := sameContent_iff row body
  unfold versionAnswer
  cases matched : versionMatches row body with
  | false =>
    rw [matched] at content
    refine ⟨fun _ _ => rfl, fun _ => ⟨?_, ?_⟩⟩
    · simp [content]
    · simp [content]
  | true =>
    rw [matched] at content
    refine ⟨fun ⟨same, _⟩ mixed => ?_, fun plain => ⟨?_, ?_⟩⟩
    · have unmixed := (content.1 (same.1 rfl)).2
      rw [mixed] at unmixed
      cases unmixed
    · have unmixed : mixesMetadata row body = false := by simpa using plain
      simp [content, unmixed]
    · have unmixed : mixesMetadata row body = false := by simpa using plain
      simp [content, unmixed]

/-- A request that starts when its version is registered answers by its content, unless its metadata
equal the registered ones in Python and have a boolean where those have a number, or the other way
round.  Every such request can be answered. -/
theorem version_answer_iff (reach : (apiHost lax).Reachable s₀ c)
    (registered : s₀.registry.version modelName.1 version.1 = some row) (body : VersionCreate) :
    (∀ i log answer, c.thread i = some ⟨.putVersion modelName version body, log, .ret answer⟩ →
      (AnswersByContent modelName version row body answer ↔
        (mixesMetadata row body = true → versionMatches row body = false))) ∧
    ∀ i, c.thread i = none → ∃ d log answer, (apiHost lax).Reachable s₀ d ∧
      d.thread i = some ⟨.putVersion modelName version body, log, .ret answer⟩ := by
  refine ⟨fun i log answer finished => ?_, fun i new => ?_⟩
  · rw [answer_of_registered reach registered finished]
    exact answersByContent_iff body
  · exact ⟨_, _, _, reach.start_run Stores.executes_serve i (.putVersion modelName version body) new,
      Function.update_self ..⟩

end Answer

/-! ## A number and a boolean -/

/-- A version with some metadata. -/
def versionBody (metadata : Dict) : VersionCreate where
  runtimeImage := "image"
  metadata := metadata
  image_valid := sampleBody.image_valid
  digest_valid := sampleBody.digest_valid

/-- The stores with the model and the version registered. -/
def registeredStores (metadata : Dict) : Stores :=
  ((putVersion sampleModel sampleVersion (versionBody metadata)).run Stores.serve
    ((putModel sampleModel ⟨none, by simp⟩).run Stores.serve Stores.empty).final).final

/-- The registered row. -/
def registeredRow (metadata : Dict) : ModelVersion :=
  { versionRecord sampleModel sampleVersion (versionBody metadata) with id := 1, createdAt := 0 }

theorem registeredStores_version (metadata : Dict) :
    (registeredStores metadata).registry.version "m" "1" = some (registeredRow metadata) := rfl

theorem version_answer_iff_other_number :
    ∃ c log, (apiHost strictCoercions).Reachable (registeredStores [("a", .int 1)]) c ∧
      c.thread 0 = some ⟨.putVersion sampleModel sampleVersion (versionBody [("a", .int 2)]), log,
        .ret (.error (.api (immutableModelVersion "m" "1")))⟩ ∧
      AnswersByContent sampleModel sampleVersion (registeredRow [("a", .int 1)])
        (versionBody [("a", .int 2)]) (.error (.api (immutableModelVersion "m" "1"))) := by
  have start : (apiHost strictCoercions).Reachable (registeredStores [("a", .int 1)]) _ :=
    Host.Reachable.start
  have done := start.start_run Stores.executes_serve 0
    (.putVersion sampleModel sampleVersion (versionBody [("a", .int 2)])) rfl
  refine ⟨_, _, done, rfl, ?_⟩
  exact ((version_answer_iff done (registeredStores_version _) (versionBody [("a", .int 2)])).1 0 _ _
    rfl).2 nofun

/-- `True` is accepted for a registered `1`. -/
theorem boolean_accepted_for_number :
    ∃ c log, (apiHost strictCoercions).Reachable (registeredStores [("a", .int 1)]) c ∧
      c.thread 0 = some ⟨.putVersion sampleModel sampleVersion (versionBody [("a", .bool true)]), log,
        .ret (.ok (.version 200 (.ofRow (registeredRow [("a", .int 1)]))))⟩ ∧
      ¬ SameContent (registeredRow [("a", .int 1)]) (versionBody [("a", .bool true)]) := by
  have start : (apiHost strictCoercions).Reachable (registeredStores [("a", .int 1)]) _ :=
    Host.Reachable.start
  have done := start.start_run Stores.executes_serve 0
    (.putVersion sampleModel sampleVersion (versionBody [("a", .bool true)])) rfl
  refine ⟨_, _, done, rfl, ?_⟩
  rw [sameContent_iff]
  rintro ⟨-, unmixed⟩
  cases unmixed

end Kernexys.Api
