import Kernexys.Api.Routes

/-!
# The calls of the deployment routes

Which calls a deployment request can make, in terms of the calls before.
-/

namespace Kernexys.Api

/-- The requests that are for a deployment. -/
def Request.isDeployment : Request → Bool
  | .putModel _ _ => false
  | .putVersion _ _ _ => false
  | _ => true

variable (lax : Coercions)

/-- A call of a deployment request, after a log. -/
inductive DeploymentCall : Request → List Event → Op → Prop where
  | lookup {ns name body} :
      DeploymentCall (.putDeployment ns name body) []
        (.query (.getVersion body.model.1 body.version.1))
  | patch {ns name body row} :
      DeploymentCall (.putDeployment ns name body)
        [⟨.query (.getVersion body.model.1 body.version.1), some row⟩]
        (.kubernetes (.patch ns.1 name.1
          (desiredResource ns.1 name.1 body row.runtimeImage row.artifactDigest)))
  | reread {ns name body log} :
      DeploymentCall (.putDeployment ns name body) log (.kubernetes (.get ns.1 name.1))
  | read {ns name} : DeploymentCall (.getDeployment ns name) [] (.kubernetes (.get ns.1 name.1))
  | delete {ns name} :
      DeploymentCall (.deleteDeployment ns name) [] (.kubernetes (.delete ns.1 name.1))
  | rollbackRead {ns name body log} :
      DeploymentCall (.rollbackDeployment ns name body) log (.kubernetes (.get ns.1 name.1))
  | rollbackLookup {ns name body current spec model}
      (read : currentModel current = .ok (spec, model)) :
      DeploymentCall (.rollbackDeployment ns name body)
        [⟨.kubernetes (.get ns.1 name.1), .ok current⟩] (.query (.getVersion model body.version.1))
  | rollbackPatch {ns name body current spec model row resource}
      (read : currentModel current = .ok (spec, model))
      (desired : rollbackResource lax ns.1 name.1 current spec model body.version.1 row =
        .ok resource) :
      DeploymentCall (.rollbackDeployment ns name body)
        [⟨.kubernetes (.get ns.1 name.1), .ok current⟩,
          ⟨.query (.getVersion model body.version.1), some row⟩]
        (.kubernetes (.patch ns.1 name.1 resource))

theorem DeploymentCall.isDeployment {lax : Coercions} {request : Request} {log : List Event} {op : Op}
    (call : DeploymentCall lax request log op) : request.isDeployment = true := by
  cases call <;> rfl

section Calls

variable {lax} {A : List Event → (op : Op) → op.Reply → Prop} {C : List Event → Op → Prop}
  {log : List Event}

/-- `Gateway.apply` patches, and may read after it. -/
theorem calls_apply {ns name : String} {body : Json} (patch : C log (.kubernetes (.patch ns name body)))
    (get : ∀ log, C log (.kubernetes (.get ns name))) :
    (Gateway.apply ns name body).Calls A C (fun _ _ => True) log := by
  refine Program.calls_call patch fun r _ => ?_
  cases r with
  | error e => trivial
  | ok value =>
    cases value with
    | none => exact Program.calls_call (get _) fun _ _ => trivial
    | some value => trivial

theorem calls_putDeployment (ns name : ResourceName) (body : DeploymentUpsert) :
    (putDeployment lax ns name body).Calls A (DeploymentCall lax (.putDeployment ns name body))
      (fun _ _ => True) [] := by
  unfold putDeployment Session.getVersion
  rw [Program.perform_bind]
  refine Program.calls_call .lookup fun r _ => ?_
  cases r with
  | none => trivial
  | some row => exact Program.Calls.bind (calls_apply .patch fun _ => .reread) fun _ _ _ => trivial

theorem calls_rollbackDeployment (ns name : ResourceName) (body : RollbackRequest) :
    (rollbackDeployment lax ns name body).Calls A
      (DeploymentCall lax (.rollbackDeployment ns name body)) (fun _ _ => True) [] := by
  unfold rollbackDeployment Gateway.get Session.getVersion
  rw [Program.perform_bind]
  refine Program.calls_call .rollbackRead fun r _ => ?_
  cases r with
  | error e => trivial
  | ok current =>
    dsimp only
    cases read : currentModel current with
    | error e => trivial
    | ok found =>
      obtain ⟨spec, model⟩ := found
      dsimp only
      rw [Program.perform_bind]
      refine Program.calls_call (.rollbackLookup read) fun r _ => ?_
      cases r with
      | none => trivial
      | some row =>
        dsimp only
        cases desired :
            rollbackResource lax ns.1 name.1 current spec model body.version.1 row with
        | error e => trivial
        | ok resource =>
          exact Program.Calls.bind (calls_apply (.rollbackPatch read desired) fun _ => .rollbackRead)
            fun _ _ _ => trivial

theorem calls_getDeployment (ns name : ResourceName) :
    (getDeployment lax ns name).Calls A (DeploymentCall lax (.getDeployment ns name))
      (fun _ _ => True) [] :=
  Program.calls_call .read fun _ _ => trivial

theorem calls_deleteDeployment (ns name : ResourceName) :
    (deleteDeployment ns name).Calls A (DeploymentCall lax (.deleteDeployment ns name))
      (fun _ _ => True) [] := by
  refine Program.calls_call .delete fun r _ => ?_
  cases r with
  | ok _ => trivial
  | error e =>
    dsimp only
    split_ifs <;> trivial

theorem deployment_calls {request : Request} (deployment : request.isDeployment = true) :
    (handle lax request).Calls A (DeploymentCall lax request) (fun _ _ => True) [] := by
  cases request with
  | putModel modelName body => cases deployment
  | putVersion modelName version body => cases deployment
  | putDeployment ns name body => exact calls_putDeployment ns name body
  | getDeployment ns name => exact calls_getDeployment ns name
  | deleteDeployment ns name => exact calls_deleteDeployment ns name
  | rollbackDeployment ns name body => exact calls_rollbackDeployment ns name body

end Calls

end Kernexys.Api
