import Kernexys.Api.Deployments
import Kernexys.Api.Reading

/-!
# Requests among other clients

The API on a cluster that holds ModelDeployments of other clients too.  Every change of a resource
gives it a new resource version, so that what was read at a version is what is stored at it.
-/

namespace Kernexys.Api

/-! ## The system -/

/-- A Kubernetes call returns an error. -/
def Op.Fails : (op : Op) → op.Reply → Prop
  | .query _, _ => False
  | .kubernetes (.patch _ _ _), r => ∃ e, r = .error e
  | .kubernetes (.get _ _), r => ∃ e, r = .error e
  | .kubernetes (.delete _ _), r => ∃ e, r = .error e

variable {lax : Coercions}

/-- The document has a resource version. -/
def Versioned (live : Json) (version : ℕ) : Prop :=
  live.field resourceVersionPath = some (.str (toString version))

theorem Versioned.inj {live live' : Json} {version version' : ℕ} (versioned : Versioned live version)
    (versioned' : Versioned live' version')
    (same : live.field resourceVersionPath = live'.field resourceVersionPath) :
    version = version' := by
  rw [versioned, versioned'] at same
  exact Nat.repr_injective (Json.str.inj (Option.some.inj same))

/-- Every resource is one that the cluster can hold, with a resource version from the past. -/
def Cluster.Sound (times : Timestamps lax) (c : Cluster) : Prop :=
  ∀ key stored, c.object key = some stored →
    Held times stored.live ∧ ∃ version < c.nextVersion, Versioned stored.live version

/-- Every resource that changes takes a new resource version. -/
structure Cluster.Evolves (c c' : Cluster) : Prop where
  nextVersion : c.nextVersion ≤ c'.nextVersion
  fresh : ∀ key stored, c'.object key = some stored → c.object key = some stored ∨
    ∃ version, c.nextVersion ≤ version ∧ Versioned stored.live version

/-- Any number of requests, while other clients may change the resources.  A call that returns an
error has written nothing. -/
def rollbackHost (times : Timestamps lax) : Host Stores Request Op Op.Reply (Except Failure Response)
    where
  program := handle lax
  executes s op r t := s.Executes op r t ∧ (op.Fails r → t.cluster = s.cluster) ∧ t.cluster.Sound times
  interferes s t := t.registry = s.registry ∧ s.cluster.Evolves t.cluster ∧ t.cluster.Sound times

theorem Cluster.Evolves.refl (c : Cluster) : c.Evolves c := ⟨le_rfl, fun _ _ => Or.inl⟩

theorem Cluster.Executes.evolves {c c' : Cluster} {call : KubernetesCall} {r : call.Reply}
    (executes : c.Executes call r c') : c.Evolves c' := by
  cases call with
  | patch ns name body =>
    rcases executes with ⟨rfl, -⟩ | ⟨-, stored, applied, rfl, -⟩
    · exact .refl c'
    · refine ⟨Nat.le_succ _, fun key stored' found => ?_⟩
      by_cases same : key = (ns, name)
      · subst same
        obtain rfl := Option.some.inj ((c.object_put_self _ _).symm.trans found)
        exact Or.inr ⟨c.nextVersion, le_rfl, applied.resourceVersion⟩
      · rw [c.object_put_ne stored same] at found
        exact Or.inl found
  | get ns name =>
    obtain ⟨rfl, -⟩ := executes
    exact .refl c'
  | delete ns name =>
    rcases executes with ⟨rfl, -⟩ | ⟨-, rfl, -⟩
    · exact .refl c'
    · refine ⟨le_rfl, fun key stored found => ?_⟩
      by_cases same : key = (ns, name)
      · subst same
        cases (c.object_erase_self (ns, name)).symm.trans found
      · rw [c.object_erase_ne same] at found
        exact Or.inl found

theorem Stores.Executes.evolves {s t : Stores} {op : Op} {r : op.Reply} (executes : s.Executes op r t) :
    s.cluster.Evolves t.cluster := by
  cases op with
  | query query =>
    obtain ⟨db, -, rfl⟩ := executes
    exact .refl s.cluster
  | kubernetes call =>
    obtain ⟨c, executes, rfl⟩ := executes
    exact executes.evolves

/-! ## What a rollback has seen -/

/-- The document was read, and is still there if the resource has its version. -/
structure Seen (times : Timestamps lax) (c : Cluster) (key : String × String) (current : Json) :
    Prop where
  held : Held times current
  past : ∃ version < c.nextVersion, Versioned current version
  same : ∀ stored, c.object key = some stored →
    stored.live.field resourceVersionPath = current.field resourceVersionPath →
    stored.live = current

theorem Seen.evolves {times : Timestamps lax} {c c' : Cluster} {key : String × String}
    {current : Json} (seen : Seen times c key current) (evolves : c.Evolves c') :
    Seen times c' key current := by
  obtain ⟨version, past, versioned⟩ := seen.past
  refine ⟨seen.held, ⟨version, past.trans_le evolves.nextVersion, versioned⟩,
    fun stored found same => ?_⟩
  rcases evolves.fresh key stored found with before | ⟨version', next, versioned'⟩
  · exact seen.same stored before same
  · obtain rfl := versioned'.inj versioned same
    omega

/-- What a call has shown, for good, about the stores. -/
def Shown (times : Timestamps lax) (s : Stores) : Event → Prop
  | ⟨.kubernetes (.get ns name), r⟩ => ∀ current, r = .ok current →
    Seen times s.cluster (ns, name) current
  | ⟨.kubernetes (.patch _ _ body), r⟩ => body.field resourceVersionPath ≠ none → r ≠ .ok none
  | ⟨.query (.getVersion modelName version), r⟩ => ∀ row, r = some row →
    s.registry.version modelName version = some row
  | _ => True

section Shown

variable {times : Timestamps lax} {s t : Stores}

theorem Shown.mono {event : Event} (shown : Shown times s event)
    (grows : s.registry.Grows t.registry) (evolves : s.cluster.Evolves t.cluster) :
    Shown times t event := by
  obtain ⟨op, r⟩ := event
  cases op with
  | query query =>
    cases query with
    | getVersion modelName version => exact fun row eq => grows.version (shown row eq)
    | _ => trivial
  | kubernetes call =>
    cases call with
    | get ns name => exact fun current eq => (shown current eq).evolves evolves
    | patch ns name body => exact shown
    | delete ns name => trivial

/-- What a call shows when it returns. -/
theorem Stores.Executes.shown {op : Op} {r : op.Reply} (executes : s.Executes op r t)
    (sound : t.cluster.Sound times) : Shown times t ⟨op, r⟩ := by
  cases op with
  | query query =>
    obtain ⟨db, ⟨now, answered⟩, rfl⟩ := executes
    cases query with
    | getVersion modelName version =>
      cases answered
      exact fun row eq => eq
    | _ => trivial
  | kubernetes call =>
    obtain ⟨c, executes, rfl⟩ := executes
    cases call with
    | get ns name =>
      rintro current rfl
      obtain ⟨rfl, ⟨e, failed⟩ | ⟨stored, found, eq⟩⟩ := executes
      · cases failed
      · cases eq
        obtain ⟨held, past⟩ := sound _ stored found
        refine ⟨held, past, fun stored' found' _ => ?_⟩
        rw [Option.some.inj (found.symm.trans found')]
    | patch ns name body =>
      rintro named rfl
      rcases executes with ⟨-, e, failed⟩ | ⟨admits, stored, -, -, outcome⟩
      · cases failed
      · rcases outcome with ⟨e, failed⟩ | eq | ⟨absent, -⟩
        · cases failed
        · cases eq
        · obtain ⟨version, named⟩ := Option.ne_none_iff_exists'.1 named
          obtain ⟨stored, found, -⟩ := admits.version version named
          cases absent.symm.trans found
    | delete ns name => trivial

end Shown

/-- Everything that is in a log is still so. -/
theorem shown_of_reachable {times : Timestamps lax} {s₀ : Stores} (sound : s₀.cluster.Sound times)
    {c : Config Stores Request Op Op.Reply (Except Failure Response)}
    (reach : (rollbackHost times).Reachable s₀ c) :
    c.shared.cluster.Sound times ∧
      ∀ i th, c.thread i = some th → ∀ event ∈ th.log, Shown times c.shared event := by
  have verified : Host.Verified (fun _ => Program.anyReply) (fun _ _ _ => True) (fun _ _ _ => True)
      (fun s => s.cluster.Sound times) (Shown times) c := by
    refine reach.verified (fun _ => Program.calls_trivial _ _) sound ?_ ?_
    · rintro s t - ⟨registry, evolves, sound⟩
      refine ⟨sound, fun event shown => shown.mono ?_ evolves⟩
      rw [registry]
      exact .refl s.registry
    · rintro s job log op r t - - - ⟨executes, -, sound⟩
      exact ⟨trivial, sound, Stores.Executes.shown executes sound, fun event shown =>
        shown.mono (Stores.Executes.grows executes) (Stores.Executes.evolves executes)⟩
  exact ⟨verified.shared, fun i th running => verified.known running⟩

end Kernexys.Api
