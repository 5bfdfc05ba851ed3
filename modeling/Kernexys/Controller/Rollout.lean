import Kernexys.Api.Schemas
import Kernexys.Config.Settings
import Kernexys.Controller.Convergence
import Kernexys.Lib.CanonicalJson

/-!
# The runtime that a Deployment starts

The controller hands the model, the version and the port to the runtime as variables of its container,
and the image brings the version that was baked into it.  `runtime_starts_iff` follows them through a
reconcile and the settings of the runtime: which runtimes start, and that the ones that do are found by
the probes and by the Service.
-/

namespace Kernexys.Controller

open Cluster (serve)
open Kernexys.Config (Environment Python RuntimeSettings)

/-! ## The environment of a container -/

/-- What Kubernetes makes of the references to other variables in the value of one. -/
structure Kubelet where
  expand : Container → String → String
  plain : ∀ container text, '$' ∉ text.toList → expand container text = text

/-- The environment of the process: the last entry of the container for a name, or else that of the
image. -/
def processEnvironment (kubelet : Kubelet) (image : Environment) (container : Container) :
    Environment := fun name =>
  match container.env.reverse.find? fun entry => entry.name = name with
  | some entry => some (kubelet.expand container entry.value)
  | none => image name

/-- The variables of the runtime that its Dockerfile sets. -/
def imageEnvironment (baked : String) : Environment := fun name =>
  if name = "KERNEXYS_BAKED_MODEL_VERSION" then some baked else none

/-- The start of the runtime in a container. -/
def startRuntime (python : Python) (kubelet : Kubelet) (baked : String) (container : Container) :
    Except String RuntimeSettings :=
  RuntimeSettings.fromEnv python (processEnvironment kubelet (imageEnvironment baked) container)

/-! ## Ports -/

/-- The port of the container that a port of a probe or of a Service stands for. -/
def Container.targetPort (container : Container) : IntOrString → Option ℤ
  | .int n => some n
  | .str name => (container.ports.find? fun port => port.name = name).map ContainerPort.containerPort

/-- Every probe of the container and every port of the Service leads to this port. -/
structure ReachedAt (port : ℤ) (container : Container) (service : Service) : Prop where
  probes : ∀ probe ∈ [container.startupProbe, container.livenessProbe, container.readinessProbe],
    ∃ get, probe.bind Probe.httpGet = some get ∧ container.targetPort get.port = some port
  service : service.spec.ports ≠ [] ∧
    ∀ servicePort ∈ service.spec.ports, container.targetPort servicePort.targetPort = some port

/-! ## The runtime of a ModelDeployment -/

/-- The settings that the runtime reads from its variables. -/
def runtimeSettings (baked : String) (modelDeployment : ModelDeployment) : RuntimeSettings where
  modelName := modelDeployment.spec.model.name
  modelVersion := modelDeployment.spec.model.version
  bakedModelVersion := baked
  serverPort := desiredRuntimePort modelDeployment

/-- A name of the custom resource, by the characters of its pattern. -/
theorem not_mem_name {ends middle : List Char} {c : Char} (name : Api.Name ends middle)
    (end_ : c ∉ ends) (inner : c ∉ middle) : c ∉ name.1.toList := by
  intro mem
  have matched := name.2
  rw [Api.isName, Bool.and_eq_true, Text.fullmatch, RegularExpression.rmatch_iff_matches'] at matched
  have named := Text.mem_alphabet matched.2 c mem
  simp only [Text.bounded, Text.alphabet_mul, Text.alphabet_oneOf, Text.alphabet_optional,
    Text.alphabet_star, List.mem_append] at named
  tauto

theorem not_mem_toString (n : ℤ) : '$' ∉ (toString n).toList := by
  intro mem
  rcases CanonicalJson.mem_intText mem with digit | minus
  · revert digit
    decide
  · revert minus
    decide

section

variable {modelDeployment : ModelDeployment} {name : Api.ResourceName} {version : Api.VersionName}
  {python : Python} {kubelet : Kubelet} {baked : String}

/-- The three variables of the container, that of the image, and no other. -/
structure RuntimeEnvironment (baked : String) (modelDeployment : ModelDeployment) (env : Environment) :
    Prop where
  name : env "KERNEXYS_MODEL_NAME" = some modelDeployment.spec.model.name
  version : env "KERNEXYS_MODEL_VERSION" = some modelDeployment.spec.model.version
  port : env "KERNEXYS_RUNTIME_PORT" = some (toString (desiredRuntimePort modelDeployment))
  baked : env "KERNEXYS_BAKED_MODEL_VERSION" = some baked
  other : ∀ name, name ∉ ["KERNEXYS_MODEL_NAME", "KERNEXYS_MODEL_VERSION", "KERNEXYS_RUNTIME_PORT",
    "KERNEXYS_BAKED_MODEL_VERSION"] → env name = none

theorem runtimeEnvironment (sameName : modelDeployment.spec.model.name = name.1)
    (sameVersion : modelDeployment.spec.model.version = version.1) :
    RuntimeEnvironment baked modelDeployment (processEnvironment kubelet (imageEnvironment baked)
      (runtimeContainer modelDeployment)) := by
  have plain := kubelet.plain (runtimeContainer modelDeployment)
  refine ⟨?_, ?_, ?_, rfl, fun other fresh => ?_⟩
  · show some (kubelet.expand _ modelDeployment.spec.model.name) = _
    rw [sameName, plain _ (not_mem_name name (by decide) (by decide))]
  · show some (kubelet.expand _ modelDeployment.spec.model.version) = _
    rw [sameVersion, plain _ (not_mem_name version (by decide) (by decide))]
  · show some (kubelet.expand _ (toString (desiredRuntimePort modelDeployment))) = _
    rw [plain _ (not_mem_toString _)]
  · simp only [List.mem_cons, List.not_mem_nil, or_false, not_or] at fresh
    obtain ⟨notName, notVersion, notPort, notBaked⟩ := fresh
    simp [processEnvironment, runtimeContainer, imageEnvironment, Ne.symm notName,
      Ne.symm notVersion, Ne.symm notPort, notBaked]

/-- With these variables the runtime checks exactly these settings. -/
theorem RuntimeEnvironment.fromEnv {env : Environment}
    (vars : RuntimeEnvironment baked modelDeployment env) (valid : ValidSpec modelDeployment)
    (decimal : ∀ n : ℤ, 1 ≤ n → n ≤ 65535 → python.int (toString n) = some n) :
    RuntimeSettings.fromEnv python env =
      match (runtimeSettings baked modelDeployment).postInit with
      | some error => .error error
      | none => .ok (runtimeSettings baked modelDeployment) := by
  obtain ⟨least, most⟩ := valid.port
  obtain ⟨n, eq⟩ := Int.eq_ofNat_of_zero_le (zero_le_one.trans least)
  have positive : 0 < n := by omega
  have absent (name : String) (default : ℕ+) (missing : env name = none) :
      Config.positiveInt python env name default = .ok default :=
    Config.positiveInt_eq_ok_iff.2 (Or.inl ⟨missing, rfl⟩)
  have port : Config.positiveInt python env "KERNEXYS_RUNTIME_PORT" 8080 = .ok ⟨n, positive⟩ := by
    refine Config.positiveInt_eq_ok_iff.2 (Or.inr ⟨_, vars.port, ?_⟩)
    rw [decimal _ least most, eq]
    rfl
  unfold RuntimeSettings.fromEnv
  rw [port, absent _ _ (vars.other "KERNEXYS_MAX_REQUEST_BYTES" (by decide)),
    absent _ _ (vars.other "KERNEXYS_RUNTIME_LIMIT_CONCURRENCY" (by decide)),
    absent _ _ (vars.other "KERNEXYS_RUNTIME_TIMEOUT_KEEP_ALIVE_SECONDS" (by decide)),
    absent _ _ (vars.other "KERNEXYS_RUNTIME_TIMEOUT_GRACEFUL_SHUTDOWN_SECONDS" (by decide))]
  have read : runtimeSettings baked modelDeployment =
      { modelName := Config.getenv env "KERNEXYS_MODEL_NAME" "sentiment"
        modelVersion := Config.getenv env "KERNEXYS_MODEL_VERSION" baked
        bakedModelVersion := Config.getenv env "KERNEXYS_BAKED_MODEL_VERSION" "v1"
        serverHost := Config.getenv env "KERNEXYS_RUNTIME_HOST" "0.0.0.0"
        serverPort := (n : ℤ) } := by
    simp [runtimeSettings, Config.getenv, vars.name, vars.version, vars.baked,
      vars.other "KERNEXYS_RUNTIME_HOST" (by decide), eq]
  have bakedRead : Config.getenv env "KERNEXYS_BAKED_MODEL_VERSION" "v1" = baked := by
    simp [Config.getenv, vars.baked]
  rw [read, bakedRead]
  rfl

theorem runtimeSettings_valid_iff (sameName : modelDeployment.spec.model.name = name.1)
    (valid : ValidSpec modelDeployment) : (runtimeSettings baked modelDeployment).Valid ↔
      modelDeployment.spec.model.version = baked ∧ baked ∈ ["v1", "v2"] := by
  constructor
  · intro accepted
    exact ⟨accepted.version, accepted.baked⟩
  · rintro ⟨same, supported⟩
    have named := name.2
    simp only [Api.isName, Bool.and_eq_true, decide_eq_true_eq] at named
    obtain ⟨least, most⟩ := valid.port
    refine ⟨?_, ?_, supported, same, fun count mem => ?_, most⟩
    · show Text.fullmatch Config.modelNamePattern modelDeployment.spec.model.name = true
      rw [sameName]
      exact named.2
    · show modelDeployment.spec.model.name.length ≤ 63
      rw [sameName]
      exact named.1.2
    · simp only [RuntimeSettings.counts, runtimeSettings, List.mem_cons, List.not_mem_nil,
        or_false] at mem
      rcases mem with rfl | rfl | rfl | rfl | rfl
      · decide
      · exact least
      · decide
      · decide
      · decide

/-- The runtime of the container starts exactly when its version is baked into the image, and then with
the settings of the spec. -/
theorem startRuntime_eq_ok_iff (sameName : modelDeployment.spec.model.name = name.1)
    (sameVersion : modelDeployment.spec.model.version = version.1) (valid : ValidSpec modelDeployment)
    (decimal : ∀ n : ℤ, 1 ≤ n → n ≤ 65535 → python.int (toString n) = some n)
    {settings : RuntimeSettings} :
    startRuntime python kubelet baked (runtimeContainer modelDeployment) = .ok settings ↔
      (modelDeployment.spec.model.version = baked ∧ baked ∈ ["v1", "v2"]) ∧
        settings = runtimeSettings baked modelDeployment := by
  rw [startRuntime, (runtimeEnvironment sameName sameVersion).fromEnv valid decimal,
    ← runtimeSettings_valid_iff sameName valid, ← RuntimeSettings.postInit_eq_none_iff]
  cases (runtimeSettings baked modelDeployment).postInit with
  | some error => simp
  | none => simp [eq_comm]

/-- The probes and the Service find the port that the runtime listens on. -/
theorem reachedAt (spec : ServiceSpec) {service : Service}
    (written : service.spec = serviceSpec modelDeployment spec) :
    ReachedAt (desiredRuntimePort modelDeployment) (runtimeContainer modelDeployment) service := by
  refine ⟨fun probe mem => ?_, ?_, fun port mem => ?_⟩
  · simp only [List.mem_cons, List.not_mem_nil, or_false] at mem
    rcases mem with rfl | rfl | rfl <;> exact ⟨_, rfl, rfl⟩
  · rw [written]
    exact List.cons_ne_nil _ _
  · rw [written] at mem
    obtain rfl := List.mem_singleton.1 mem
    rfl

end

/-- After a reconcile, the runtime of the stored Deployment starts exactly when the version of the spec
is the one baked into its image; it then serves the model and version of the spec, on the port that the
probes and the stored Service lead to. -/
theorem runtime_starts_iff (python : Python)
    (decimal : ∀ n : ℤ, 1 ≤ n → n ≤ 65535 → python.int (toString n) = some n) (kubelet : Kubelet)
    (baked : String) (order : MapOrder) (c : Cluster) (key : NamespacedName) (md : ModelDeployment)
    (stored : c.object .modelDeployment key = some md)
    (live : md.metadata.deletionTimestamp = none) (valid : validateSpec order md = none)
    (deployment : ∀ v, c.object .deployment key = some v → ControlledBy md v.metadata)
    (service : ∀ v, c.object .service key = some v → ControlledBy md v.metadata)
    (name : Api.ResourceName) (version : Api.VersionName) (sameName : md.spec.model.name = name.1)
    (sameVersion : md.spec.model.version = version.1) :
    ∃ d s container, ((reconcile order key).run serve c).final.object .deployment key = some d ∧
      ((reconcile order key).run serve c).final.object .service key = some s ∧
      d.spec.template.spec.containers = [container] ∧
      ((∃ settings, startRuntime python kubelet baked container = .ok settings) ↔
        md.spec.model.version = baked ∧ baked ∈ ["v1", "v2"]) ∧
      ∀ settings, startRuntime python kubelet baked container = .ok settings →
        settings.modelName = md.spec.model.name ∧ settings.modelVersion = md.spec.model.version ∧
          ReachedAt settings.serverPort container s := by
  have accepted := (validateSpec_eq_none_iff order md).1 valid
  obtain ⟨-, converged, -⟩ := run_reconcile_settles order stored live accepted deployment service
  obtain ⟨d, foundD, -, specD⟩ := converged.deployment
  obtain ⟨s, foundS, -, specS⟩ := converged.service
  have starts {settings : RuntimeSettings} :
      startRuntime python kubelet baked (runtimeContainer md) = .ok settings ↔
        (md.spec.model.version = baked ∧ baked ∈ ["v1", "v2"]) ∧ settings = runtimeSettings baked md :=
    startRuntime_eq_ok_iff sameName sameVersion accepted decimal
  refine ⟨d, s, runtimeContainer md, foundD, foundS, by rw [specD]; rfl, ⟨?_, fun fits => ?_⟩, ?_⟩
  · rintro ⟨settings, started⟩
    exact (starts.1 started).1
  · exact ⟨_, starts.2 ⟨fits, rfl⟩⟩
  · intro settings started
    obtain rfl := (starts.1 started).2
    exact ⟨rfl, rfl, reachedAt _ specS⟩

/-- Python on ASCII texts. -/
def asciiPython : Python := ⟨String.toInt?, Text.strip Text.whiteSpace, String.toLower, String.toUpper⟩

/-- A Kubernetes that expands no references. -/
def plainKubelet : Kubelet := ⟨fun _ text => text, fun _ _ _ => rfl⟩

/-- The ModelDeployment of the reference model. -/
def sentimentDeployment : ModelDeployment where
  metadata := { name := "sentiment", ns := "default", uid := "uid-1", generation := 1 }
  spec := { model := ⟨"sentiment", "v2"⟩, runtime := ⟨"registry/sentiment:v2", 9000⟩ }
  status := {}

theorem sentimentDeployment_valid : ValidSpec sentimentDeployment := by
  refine ⟨by decide, by decide, by decide, by decide, by decide, by decide, ?_, ?_⟩
  · intro entry mem
    exact absurd mem (Multiset.notMem_zero entry)
  · intro entry mem
    exact absurd mem (Multiset.notMem_zero entry)

theorem runtime_starts_iff_sentiment :
    ∃ d s container,
      ((reconcile MapOrder.any ⟨"sentiment", "default"⟩).run serve
        (Cluster.empty.put .modelDeployment sentimentDeployment)).final.object .deployment
          ⟨"sentiment", "default"⟩ = some d ∧
      ((reconcile MapOrder.any ⟨"sentiment", "default"⟩).run serve
        (Cluster.empty.put .modelDeployment sentimentDeployment)).final.object .service
          ⟨"sentiment", "default"⟩ = some s ∧
      d.spec.template.spec.containers = [container] ∧
      ((∃ settings, startRuntime asciiPython plainKubelet "v2" container = .ok settings) ↔
        "v2" = "v2" ∧ "v2" ∈ ["v1", "v2"]) ∧
      ∀ settings, startRuntime asciiPython plainKubelet "v2" container = .ok settings →
        settings.modelName = "sentiment" ∧ settings.modelVersion = "v2" ∧
          ReachedAt settings.serverPort container s := by
  refine runtime_starts_iff asciiPython (fun n _ _ => Int.toInt?_repr n) plainKubelet "v2"
    MapOrder.any _ _ (Cluster.empty.stamp (k := .modelDeployment) sentimentDeployment) rfl rfl ?_ ?_ ?_
    ⟨"sentiment", by decide⟩ ⟨"v2", by decide⟩ rfl rfl
  · exact (validateSpec_eq_none_iff MapOrder.any _).2 (sentimentDeployment_valid.of_spec rfl)
  · intro v found
    cases found
  · intro v found
    cases found

end Kernexys.Controller
