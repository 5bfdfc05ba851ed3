import Kernexys.Controller.ApiServer
import Kernexys.Controller.Trace

/-!
# Reconciles that share a cluster

Any number of reconciles run on a cluster that also changes by itself.  Every thread follows the
stages of a reconcile, and what it has read was stored at some time (`verified_of_reachable`).
-/

namespace Kernexys.Controller

/-- A reconcile: the object it is for, and the order in which it iterates over maps. -/
structure Job where
  order : MapOrder
  request : NamespacedName

/-- Reconciles on a cluster that changes by itself as `interferes` allows. -/
def controllerHost (interferes : Cluster → Cluster → Prop) :
    Host Cluster Job Op Op.Reply (Option String) where
  program job := reconcile job.order job.request
  executes := Cluster.Executes
  interferes := interferes

/-- No version is forgotten. -/
def Cluster.Grows (c c' : Cluster) : Prop :=
  ∀ k key, ∀ o ∈ c.history k key, o ∈ c'.history k key

/-- The version that a read returned was stored at some time, and a write returned the object it was
about. -/
structure Seen (c : Cluster) (event : Event) : Prop where
  get : ∀ k key o, event = ⟨.get k key, .ok o⟩ → o ∈ c.history k key
  create : ∀ k o v, event = ⟨.create k o, .ok v⟩ → v.metadata.key = o.metadata.key
  update : ∀ k o v, event = ⟨.update k o, .ok v⟩ → v.metadata.key = o.metadata.key

theorem Cluster.grows_put (c : Cluster) (k : Kind) (o : k.Object) : c.Grows (c.put k o) := by
  refine forall_setEntry c.history (P := fun k key l => ∀ o ∈ c.history k key, o ∈ l) ?_
    fun _ _ _ => id
  intro o' mem
  exact List.mem_cons_of_mem _ mem

theorem Cluster.Writes.grows {c c' : Cluster} {k : Kind} {accepted : Option k.Object}
    {r : Except ApiError k.Object} (writes : c.Writes k accepted r c') : c.Grows c' := by
  rcases writes with ⟨rfl, -⟩ | ⟨v, -, rfl, -⟩
  · exact fun _ _ _ => id
  · exact c.grows_put k v

theorem Cluster.Executes.grows {c c' : Cluster} {op : Op} {r : op.Reply}
    (executes : c.Executes op r c') : c.Grows c' := by
  cases op with
  | get k key =>
    rw [executes.1]
    exact fun _ _ _ => id
  | create k o => exact Cluster.Writes.grows executes
  | update k o => exact Cluster.Writes.grows executes
  | updateStatus o => exact Cluster.Writes.grows (k := .modelDeployment) executes
  | now =>
    obtain rfl : c' = c := executes
    exact fun _ _ _ => id

/-- What a call has shown when it returns. -/
theorem Cluster.Executes.seen {c c' : Cluster} {op : Op} {r : op.Reply}
    (executes : c.Executes op r c') : Seen c' ⟨op, r⟩ := by
  refine ⟨?_, ?_, ?_⟩
  · rintro k key o ⟨⟩
    exact executes.grows k key o (executes.2 o rfl)
  · rintro k o v ⟨⟩
    rcases executes with ⟨-, e, failed⟩ | ⟨v', accepted, -, ok | ⟨e, lost⟩⟩
    · cases failed
    · cases ok
      rw [(Cluster.acceptCreate_eq_some accepted).2]
      rfl
    · cases lost
  · rintro k o v ⟨⟩
    rcases executes with ⟨-, e, failed⟩ | ⟨v', accepted, -, ok | ⟨e, lost⟩⟩
    · cases failed
    · cases ok
      obtain ⟨before, -, -, key⟩ := Cluster.acceptUpdate_eq_some accepted
      exact key
    · cases lost

/-- With clients that forget no version, every thread follows the stages of a reconcile, and what it
has read was stored at some time. -/
theorem verified_of_reachable {interferes : Cluster → Cluster → Prop} {c₀ : Cluster}
    {c : Config Cluster Job Op Op.Reply (Option String)}
    (grows : ∀ c c', interferes c c' → c.Grows c')
    (reach : (controllerHost interferes).Reachable c₀ c) :
    Host.Verified (fun _ => Program.anyReply) (fun job => Stage job.order job.request)
      (fun job => Ends job.order job.request) (fun _ => True) Seen c := by
  have keep : ∀ {c c' : Cluster}, c.Grows c' → ∀ event, Seen c event → Seen c' event :=
    fun grows event seen =>
      ⟨fun k key o eq => grows k key o (seen.get k key o eq), seen.create, seen.update⟩
  refine reach.verified (fun job => reconcile_calls job.order job.request) trivial
    (fun s t _ changed => ⟨trivial, keep (grows s t changed)⟩)
    fun s job log op r t _ _ _ executed => ?_
  have executed : s.Executes op r t := executed
  exact ⟨trivial, trivial, executed.seen, keep executed.grows⟩

end Kernexys.Controller
