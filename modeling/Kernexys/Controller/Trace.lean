import Kernexys.Controller.Reconcile

/-!
# The calls of a reconcile

For arbitrary replies: `Stage` says which call a reconcile may make after which calls, and `Ends`
with which error it returns (`reconcile_calls`).  What holds of the controller under interference is
read off these two.
-/

namespace Kernexys.Controller

/-! ## A child step -/

section Child

variable (k : Kind) (object : k.Object) (f : k.Object → Except String k.Object)

/-- The next call of a child step. -/
inductive ChildCall : List Event → Op → Prop where
  | get : ChildCall [] (.get k object.metadata.key)
  | create {e o} (missing : e.reason = .notFound)
      (mutated : mutate f object.metadata.key object = .ok o) :
      ChildCall [⟨.get k object.metadata.key, .error e⟩] (.create k o)
  | update {existing o} (mutated : mutate f object.metadata.key existing = .ok o)
      (changed : existing ≠ o) :
      ChildCall [⟨.get k object.metadata.key, .ok existing⟩] (.update k o)

/-- The log of a child step that has ended, and its result. -/
inductive ChildEnds : List Event → Except String k.Object → Prop where
  | unread {e} (failed : e.reason ≠ .notFound) :
      ChildEnds [⟨.get k object.metadata.key, .error e⟩] (.error e.message)
  | unmutated {e m} (missing : e.reason = .notFound)
      (refused : mutate f object.metadata.key object = .error m) :
      ChildEnds [⟨.get k object.metadata.key, .error e⟩] (.error m)
  | uncreated {e o e'} (missing : e.reason = .notFound)
      (mutated : mutate f object.metadata.key object = .ok o) :
      ChildEnds [⟨.get k object.metadata.key, .error e⟩, ⟨.create k o, .error e'⟩]
        (.error e'.message)
  | created {e o v} (missing : e.reason = .notFound)
      (mutated : mutate f object.metadata.key object = .ok o) :
      ChildEnds [⟨.get k object.metadata.key, .error e⟩, ⟨.create k o, .ok v⟩] (.ok v)
  | refused {existing m} (refused : mutate f object.metadata.key existing = .error m) :
      ChildEnds [⟨.get k object.metadata.key, .ok existing⟩] (.error m)
  | unchanged {existing} (mutated : mutate f object.metadata.key existing = .ok existing) :
      ChildEnds [⟨.get k object.metadata.key, .ok existing⟩] (.ok existing)
  | unupdated {existing o e} (mutated : mutate f object.metadata.key existing = .ok o)
      (changed : existing ≠ o) :
      ChildEnds [⟨.get k object.metadata.key, .ok existing⟩, ⟨.update k o, .error e⟩]
        (.error e.message)
  | updated {existing o v} (mutated : mutate f object.metadata.key existing = .ok o)
      (changed : existing ≠ o) :
      ChildEnds [⟨.get k object.metadata.key, .ok existing⟩, ⟨.update k o, .ok v⟩] (.ok v)

theorem calls_createOrUpdate {C : List Event → Op → Prop} {log : List Event}
    (calls : ∀ step op, ChildCall k object f step op → C (log ++ step) op) :
    (createOrUpdate k object f).Calls Program.anyReply C
      (fun log' r => ∃ step, log' = log ++ step ∧ ChildEnds k object f step r) log := by
  unfold createOrUpdate
  simp only [Program.perform_bind]
  refine Program.calls_call (by simpa using calls [] _ .get) fun r _ => ?_
  cases r with
  | error e =>
    dsimp only
    split_ifs with failed
    · exact Program.calls_ret ⟨_, rfl, .unread failed⟩
    · rw [not_not] at failed
      cases mutated : mutate f object.metadata.key object with
      | error m => exact Program.calls_ret ⟨_, rfl, .unmutated failed mutated⟩
      | ok o =>
        dsimp only
        refine Program.calls_call (calls _ _ (.create failed mutated)) fun r _ => ?_
        rw [List.append_assoc]
        cases r with
        | error e' => exact Program.calls_ret ⟨_, rfl, .uncreated failed mutated⟩
        | ok v => exact Program.calls_ret ⟨_, rfl, .created failed mutated⟩
  | ok existing =>
    dsimp only
    cases mutated : mutate f object.metadata.key existing with
    | error m => exact Program.calls_ret ⟨_, rfl, .refused mutated⟩
    | ok o =>
      dsimp only
      split_ifs with same
      · subst same
        exact Program.calls_ret ⟨_, rfl, .unchanged mutated⟩
      · refine Program.calls_call (calls _ _ (.update mutated same)) fun r _ => ?_
        rw [List.append_assoc]
        cases r with
        | error e => exact Program.calls_ret ⟨_, rfl, .unupdated mutated same⟩
        | ok v => exact Program.calls_ret ⟨_, rfl, .updated mutated same⟩

variable {k object f}

/-- The last reply of a child step that succeeds is its result. -/
theorem ChildEnds.last {step : List Event} {v : k.Object}
    (ends : ChildEnds k object f step (.ok v)) : ∃ before event, step = before ++ [event] ∧
      ((event = ⟨.get k object.metadata.key, .ok v⟩ ∧
        mutate f object.metadata.key v = .ok v) ∨
        (∃ o, event = ⟨.create k o, .ok v⟩ ∧ mutate f object.metadata.key object = .ok o) ∨
        ∃ existing o, event = ⟨.update k o, .ok v⟩ ∧
          mutate f object.metadata.key existing = .ok o) := by
  cases ends with
  | created missing mutated => exact ⟨[_], _, rfl, Or.inr (Or.inl ⟨_, rfl, mutated⟩)⟩
  | unchanged mutated => exact ⟨[], _, rfl, Or.inl ⟨rfl, mutated⟩⟩
  | updated mutated changed => exact ⟨[_], _, rfl, Or.inr (Or.inr ⟨_, _, rfl, mutated⟩)⟩

end Child

/-! ## A reconcile -/

/-- The calls of the step for the Deployment. -/
abbrev DeploymentCall (md : ModelDeployment) : List Event → Op → Prop :=
  ChildCall .deployment (desiredDeployment md) (mutateOwned .deployment md (mutateDeployment md))

/-- How the step for the Deployment ends. -/
abbrev DeploymentEnds (md : ModelDeployment) : List Event → Except String Deployment → Prop :=
  ChildEnds .deployment (desiredDeployment md) (mutateOwned .deployment md (mutateDeployment md))

/-- The calls of the step for the Service. -/
abbrev ServiceCall (md : ModelDeployment) : List Event → Op → Prop :=
  ChildCall .service (desiredService md) (mutateOwned .service md (mutateService md))

/-- How the step for the Service ends. -/
abbrev ServiceEnds (md : ModelDeployment) : List Event → Except String Service → Prop :=
  ChildEnds .service (desiredService md) (mutateOwned .service md (mutateService md))

section Reconcile

variable (order : MapOrder)

/-- The log between the read of `md` and its status, the status desired then, and the error that the
reconcile has met. -/
inductive Body (md : ModelDeployment) :
    List Event → ((String → ℤ) → ModelDeploymentStatus) → Option String → Prop where
  | invalid {e} (error : validateSpec order md = some e) : Body md [] (invalidStatus md e) none
  | deploymentFailed {step e} (valid : validateSpec order md = none)
      (ends : DeploymentEnds md step (.error e)) :
      Body md step (errorStatus md "DeploymentReconcileFailed" e) (some e)
  | serviceFailed {step d step' e} (valid : validateSpec order md = none)
      (ends : DeploymentEnds md step (.ok d)) (ends' : ServiceEnds md step' (.error e)) :
      Body md (step ++ step') (errorStatus md "ServiceReconcileFailed" e) (some e)
  | observed {step d step' s} (valid : validateSpec order md = none)
      (ends : DeploymentEnds md step (.ok d)) (ends' : ServiceEnds md step' (.ok s)) :
      Body md (step ++ step') (observedStatus md d s) none

variable (request : NamespacedName)

/-- The call that a reconcile makes after a log. -/
inductive Stage : List Event → Op → Prop where
  | read : Stage [] (.get .modelDeployment request)
  | deployment {md step op} (live : md.metadata.deletionTimestamp = none)
      (valid : validateSpec order md = none) (call : DeploymentCall md step op) :
      Stage (⟨.get .modelDeployment request, .ok md⟩ :: step) op
  | service {md step d step' op} (live : md.metadata.deletionTimestamp = none)
      (valid : validateSpec order md = none) (ends : DeploymentEnds md step (.ok d))
      (call : ServiceCall md step' op) :
      Stage (⟨.get .modelDeployment request, .ok md⟩ :: (step ++ step')) op
  | now {md body desired error} (live : md.metadata.deletionTimestamp = none)
      (ends : Body order md body desired error) :
      Stage (⟨.get .modelDeployment request, .ok md⟩ :: body) .now
  | status {md body desired error now} (live : md.metadata.deletionTimestamp = none)
      (ends : Body order md body desired error) (changed : md.status ≠ desired now) :
      Stage (⟨.get .modelDeployment request, .ok md⟩ :: (body ++ [⟨.now, now⟩]))
        (.updateStatus { md with status := desired now })

/-- The log of a reconcile that has returned, and its error. -/
inductive Ends : List Event → Option String → Prop where
  | missing {e} (missing : e.reason = .notFound) :
      Ends [⟨.get .modelDeployment request, .error e⟩] none
  | unread {e} (failed : e.reason ≠ .notFound) :
      Ends [⟨.get .modelDeployment request, .error e⟩] (some e.message)
  | deleting {md} (deleting : md.metadata.deletionTimestamp ≠ none) :
      Ends [⟨.get .modelDeployment request, .ok md⟩] none
  | done {md body desired error now last result} (live : md.metadata.deletionTimestamp = none)
      (ends : Body order md body desired error)
      (status : last = [] ∨ ∃ r, last = [⟨.updateStatus { md with status := desired now }, r⟩])
      (kept : error ≠ none → result ≠ none) :
      Ends (⟨.get .modelDeployment request, .ok md⟩ :: (body ++ ⟨.now, now⟩ :: last)) result

variable {order request}

/-- The status step, after a log that ends with the reading of the clock. -/
theorem calls_updateStatusIfChanged {md : ModelDeployment} {body : List Event}
    {desired : (String → ℤ) → ModelDeploymentStatus} {error : Option String} {now : String → ℤ}
    (live : md.metadata.deletionTimestamp = none) (ends : Body order md body desired error) :
    (updateStatusIfChanged md (desired now)).Calls Program.anyReply (Stage order request)
      (fun log _ => ∃ last, log = ⟨.get .modelDeployment request, .ok md⟩ ::
        (body ++ ⟨.now, now⟩ :: last) ∧
        (last = [] ∨ ∃ r, last = [⟨.updateStatus { md with status := desired now }, r⟩]))
      (⟨.get .modelDeployment request, .ok md⟩ :: (body ++ [⟨.now, now⟩])) := by
  unfold updateStatusIfChanged
  split_ifs with same
  · exact Program.calls_ret ⟨[], rfl, Or.inl rfl⟩
  · simp only [Program.perform_bind]
    refine Program.calls_call (.status live ends same) fun r _ => ?_
    have shape : ∃ last, ⟨.get .modelDeployment request, .ok md⟩ :: (body ++ [⟨.now, now⟩]) ++
        [⟨.updateStatus { md with status := desired now }, r⟩] =
        (⟨.get .modelDeployment request, .ok md⟩ :: (body ++ ⟨.now, now⟩ :: last) : List Event) ∧
        (last = [] ∨ ∃ r, last = [⟨.updateStatus { md with status := desired now }, r⟩]) :=
      ⟨_, by simp, Or.inr ⟨r, rfl⟩⟩
    cases r with
    | error e =>
      dsimp only
      split_ifs <;> exact Program.calls_ret shape
    | ok v => exact Program.calls_ret shape

theorem calls_updateInvalidStatus {md : ModelDeployment} {e : String}
    (live : md.metadata.deletionTimestamp = none) (error : validateSpec order md = some e) :
    (updateInvalidStatus md e).Calls Program.anyReply (Stage order request) (Ends order request)
      [⟨.get .modelDeployment request, .ok md⟩] := by
  have ends : Body order md [] (invalidStatus md e) none := .invalid error
  unfold updateInvalidStatus
  rw [Program.perform_bind]
  refine Program.calls_call (.now live ends) fun now _ => ?_
  refine (calls_updateStatusIfChanged live ends).mono (fun _ _ => id) fun log result h => ?_
  obtain ⟨last, rfl, status⟩ := h
  exact .done live ends status fun bad => absurd rfl bad

theorem calls_reconcileError {md : ModelDeployment} {body : List Event} {reason e : String}
    (live : md.metadata.deletionTimestamp = none)
    (ends : Body order md body (errorStatus md reason e) (some e)) :
    (reconcileError md reason e).Calls Program.anyReply (Stage order request) (Ends order request)
      (⟨.get .modelDeployment request, .ok md⟩ :: body) := by
  unfold reconcileError
  rw [Program.perform_bind]
  refine Program.calls_call (.now live ends) fun now _ => ?_
  refine Program.Calls.bind (calls_updateStatusIfChanged live ends) fun log result h => ?_
  obtain ⟨last, rfl, status⟩ := h
  exact Program.calls_ret (.done live ends status fun _ => by simp)

theorem calls_reconcileChildren {md : ModelDeployment}
    (live : md.metadata.deletionTimestamp = none) (valid : validateSpec order md = none) :
    (reconcileChildren md).Calls Program.anyReply (Stage order request) (Ends order request)
      [⟨.get .modelDeployment request, .ok md⟩] := by
  unfold reconcileChildren
  refine Program.Calls.bind (calls_createOrUpdate _ _ _ fun step op call =>
    .deployment live valid call) fun log r h => ?_
  obtain ⟨step, rfl, ends⟩ := h
  cases r with
  | error e => exact calls_reconcileError live (.deploymentFailed valid ends)
  | ok d =>
    refine Program.Calls.bind (calls_createOrUpdate _ _ _ fun step' op call => ?_) fun log r h => ?_
    · rw [List.append_assoc, List.singleton_append]
      exact .service live valid ends call
    · obtain ⟨step', rfl, ends'⟩ := h
      rw [List.append_assoc, List.singleton_append]
      cases r with
      | error e => exact calls_reconcileError live (.serviceFailed valid ends ends')
      | ok s =>
        have body : Body order md (step ++ step') (observedStatus md d s) none :=
          .observed valid ends ends'
        dsimp only [updateObservedStatus]
        rw [Program.perform_bind, Program.call_bind]
        refine Program.calls_call (.now live body) fun now _ => ?_
        refine Program.Calls.bind (calls_updateStatusIfChanged live body) fun log result h => ?_
        obtain ⟨last, rfl, status⟩ := h
        cases result with
        | some e => exact Program.calls_ret (.done live body status fun bad => absurd rfl bad)
        | none => exact Program.calls_ret (.done live body status fun bad => absurd rfl bad)

/-- The calls of a reconcile and the error it returns, for all replies. -/
theorem reconcile_calls (order : MapOrder) (request : NamespacedName) :
    (reconcile order request).Calls Program.anyReply (Stage order request) (Ends order request) [] := by
  unfold reconcile
  simp only [Program.perform_bind]
  refine Program.calls_call .read fun r _ => ?_
  cases r with
  | error e =>
    dsimp only
    split_ifs with missing
    · exact Program.calls_ret (.missing missing)
    · exact Program.calls_ret (.unread missing)
  | ok md =>
    dsimp only [reconcileRead]
    split_ifs with deleting
    · exact Program.calls_ret (.deleting deleting)
    · rw [not_not] at deleting
      cases valid : validateSpec order md with
      | some e => exact calls_updateInvalidStatus deleting valid
      | none => exact calls_reconcileChildren deleting valid

end Reconcile

/-! ## Where a call can come from -/

section Stage

variable {order : MapOrder} {request : NamespacedName} {log : List Event}

/-- The kind of object that a call is about. -/
def Op.on : Op → Option Kind
  | get k _ => some k
  | create k _ => some k
  | update k _ => some k
  | updateStatus _ => none
  | now => none

theorem ChildCall.on {k : Kind} {object : k.Object} {f : k.Object → Except String k.Object}
    {step : List Event} {op : Op} (call : ChildCall k object f step op) : op.on = some k := by
  cases call <;> rfl

theorem ChildEnds.on {k : Kind} {object : k.Object} {f : k.Object → Except String k.Object}
    {step : List Event} {r : Except String k.Object} (ends : ChildEnds k object f step r)
    {event : Event} (mem : event ∈ step) : event.1.on = some k := by
  cases ends <;>
    simp only [List.mem_cons, List.not_mem_nil, or_false] at mem <;>
    rcases mem with rfl | rfl <;> rfl

/-- Before its last call, a child step has at most read the child. -/
theorem ChildCall.mem {k : Kind} {object : k.Object} {f : k.Object → Except String k.Object}
    {step : List Event} {op : Op} (call : ChildCall k object f step op) {event : Event}
    (mem : event ∈ step) : event.1 = .get k object.metadata.key := by
  cases call with
  | get => cases mem
  | create | update =>
    rw [List.mem_singleton.1 mem]

theorem Stage.modelDeployment_inv {op : Op} (stage : Stage order request log op)
    (on : op.on = some .modelDeployment) : log = [] ∧ op = .get .modelDeployment request := by
  cases stage with
  | read => exact ⟨rfl, rfl⟩
  | deployment live valid call =>
    rw [call.on] at on
    cases on
  | service live valid ends call =>
    rw [call.on] at on
    cases on
  | now => cases on
  | status => cases on

theorem Stage.deployment_inv {op : Op} (stage : Stage order request log op)
    (on : op.on = some .deployment) : ∃ md step,
      log = ⟨.get .modelDeployment request, .ok md⟩ :: step ∧ DeploymentCall md step op := by
  cases stage with
  | read => cases on
  | deployment live valid call => exact ⟨_, _, rfl, call⟩
  | service live valid ends call =>
    rw [call.on] at on
    cases on
  | now => cases on
  | status => cases on

theorem Stage.service_inv {op : Op} (stage : Stage order request log op)
    (on : op.on = some .service) : ∃ md step d step',
      log = ⟨.get .modelDeployment request, .ok md⟩ :: (step ++ step') ∧
      DeploymentEnds md step (.ok d) ∧ ServiceCall md step' op := by
  cases stage with
  | read => cases on
  | deployment live valid call =>
    rw [call.on] at on
    cases on
  | service live valid ends call => exact ⟨_, _, _, _, rfl, ends, call⟩
  | now => cases on
  | status => cases on

/-- A write comes after the read of a ModelDeployment that is not being deleted. -/
theorem Stage.write_inv {op : Op} (stage : Stage order request log op) (write : op.isWrite = true) :
    ∃ md rest, log = ⟨.get .modelDeployment request, .ok md⟩ :: rest ∧
      md.metadata.deletionTimestamp = none := by
  cases stage with
  | read => cases write
  | deployment live => exact ⟨_, _, rfl, live⟩
  | service live => exact ⟨_, _, rfl, live⟩
  | now => cases write
  | status live => exact ⟨_, _, rfl, live⟩

end Stage

end Kernexys.Controller
