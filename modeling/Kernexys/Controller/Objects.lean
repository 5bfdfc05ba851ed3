import Mathlib

/-!
# The Kubernetes objects of the controller

The types of `modeldeployment_types.go` and the parts of the Deployment and Service types that the
controller reads or writes.  Maps are finite maps and lists are lists, so that nil and empty are one
value; a quantity is its amount in units of `10⁻⁹`.  Equality of these values is then what
`equality.Semantic.DeepEqual` decides.  A field `rest` holds, by name, the fields of the Go type
that the controller leaves at their zero value.
-/

namespace Kernexys.Controller

/-- A `map[string]string`. -/
abbrev StringMap : Type := Finmap fun _ : String => String

/-- A `resource.Quantity`, in units of `10⁻⁹`. -/
abbrev Quantity : Type := ℤ

/-- A `corev1.ResourceList`. -/
abbrev ResourceList : Type := Finmap fun _ : String => Quantity

/-! ## Metadata -/

/-- A `types.NamespacedName`. -/
structure NamespacedName where
  name : String
  ns : String
  deriving DecidableEq

/-- A `metav1.OwnerReference`. -/
structure OwnerReference where
  apiVersion : String
  kind : String
  name : String
  uid : String
  controller : Option Bool := none
  blockOwnerDeletion : Option Bool := none
  deriving DecidableEq

/-- `metav1.ObjectMeta`; an unset `resourceVersion` is the empty text. -/
structure ObjectMeta where
  name : String
  ns : String
  uid : String := ""
  resourceVersion : Option ℕ := none
  generation : ℤ := 0
  deletionTimestamp : Option ℤ := none
  labels : StringMap := ∅
  ownerReferences : List OwnerReference := []
  deriving DecidableEq

/-- The namespace and name of an object. -/
def ObjectMeta.key (m : ObjectMeta) : NamespacedName := ⟨m.name, m.ns⟩

/-- An API object. -/
structure Object (Spec Status : Type) where
  metadata : ObjectMeta
  spec : Spec
  status : Status
  deriving DecidableEq

/-! ## ModelDeployment -/

/-- `ModelReference` of the custom resource. -/
structure ModelReference where
  name : String
  version : String
  deriving DecidableEq

/-- `RuntimeSpec` of the custom resource; port 0 is an absent one. -/
structure RuntimeSpec where
  image : String
  port : ℤ := 0
  deriving DecidableEq

/-- `RuntimeResources` of the custom resource. -/
structure RuntimeResources where
  limits : ResourceList := ∅
  requests : ResourceList := ∅
  deriving DecidableEq

/-- `ModelDeploymentSpec` of the custom resource. -/
structure ModelDeploymentSpec where
  model : ModelReference
  runtime : RuntimeSpec
  replicas : Option ℤ := none
  resources : RuntimeResources := {}
  deriving DecidableEq

/-- A `metav1.ConditionStatus`. -/
inductive ConditionStatus where
  | true
  | false
  | unknown
  deriving DecidableEq

/-- `metav1.Condition`. -/
structure Condition where
  type : String
  status : ConditionStatus
  observedGeneration : ℤ
  lastTransitionTime : ℤ
  reason : String
  message : String
  deriving DecidableEq

/-- `ModelDeploymentStatus` of the custom resource. -/
structure ModelDeploymentStatus where
  observedGeneration : ℤ := 0
  desiredReplicas : ℤ := 0
  readyReplicas : ℤ := 0
  activeModel : String := ""
  activeVersion : String := ""
  endpoint : String := ""
  conditions : List Condition := []
  deriving DecidableEq

/-- The custom resource. -/
abbrev ModelDeployment : Type := Object ModelDeploymentSpec ModelDeploymentStatus

/-! ## Deployment -/

/-- An `intstr.IntOrString`. -/
inductive IntOrString where
  | int (n : ℤ)
  | str (s : String)
  deriving DecidableEq

/-- A `metav1.LabelSelectorRequirement`. -/
structure LabelSelectorRequirement where
  key : String
  operator : String
  values : List String
  deriving DecidableEq

/-- A `metav1.LabelSelector`. -/
structure LabelSelector where
  matchLabels : StringMap := ∅
  matchExpressions : List LabelSelectorRequirement := []
  deriving DecidableEq

/-- An `appsv1.DeploymentStrategyType`. -/
inductive DeploymentStrategyType where
  | recreate
  | rollingUpdate
  deriving DecidableEq

/-- An `appsv1.RollingUpdateDeployment`. -/
structure RollingUpdateDeployment where
  maxUnavailable : Option IntOrString := none
  maxSurge : Option IntOrString := none
  deriving DecidableEq

/-- An `appsv1.DeploymentStrategy`. -/
structure DeploymentStrategy where
  type : Option DeploymentStrategyType := none
  rollingUpdate : Option RollingUpdateDeployment := none
  deriving DecidableEq

/-- A `corev1.Capabilities`. -/
structure Capabilities where
  add : List String := []
  drop : List String := []
  deriving DecidableEq

/-- A `corev1.SecurityContext`. -/
structure SecurityContext where
  allowPrivilegeEscalation : Option Bool := none
  readOnlyRootFilesystem : Option Bool := none
  runAsNonRoot : Option Bool := none
  capabilities : Option Capabilities := none
  rest : StringMap := ∅
  deriving DecidableEq

/-- A `corev1.SeccompProfileType`. -/
inductive SeccompProfileType where
  | unconfined
  | runtimeDefault
  | localhost
  deriving DecidableEq

/-- A `corev1.SeccompProfile`. -/
structure SeccompProfile where
  type : SeccompProfileType
  localhostProfile : Option String := none
  deriving DecidableEq

/-- A `corev1.PodSecurityContext`. -/
structure PodSecurityContext where
  runAsUser : Option ℤ := none
  runAsGroup : Option ℤ := none
  runAsNonRoot : Option Bool := none
  seccompProfile : Option SeccompProfile := none
  rest : StringMap := ∅
  deriving DecidableEq

/-- A `corev1.EnvVar`. -/
structure EnvVar where
  name : String
  value : String := ""
  rest : StringMap := ∅
  deriving DecidableEq

/-- A `corev1.Protocol`. -/
inductive Protocol where
  | tcp
  | udp
  | sctp
  deriving DecidableEq

/-- A `corev1.ContainerPort`. -/
structure ContainerPort where
  name : String := ""
  hostPort : ℤ := 0
  containerPort : ℤ
  protocol : Option Protocol := none
  hostIP : String := ""
  deriving DecidableEq

/-- A `corev1.ResourceRequirements`. -/
structure ResourceRequirements where
  limits : ResourceList := ∅
  requests : ResourceList := ∅
  claims : List String := []
  deriving DecidableEq

/-- A `corev1.URIScheme`. -/
inductive URIScheme where
  | http
  | https
  deriving DecidableEq

/-- A `corev1.HTTPGetAction`. -/
structure HTTPGetAction where
  path : String := ""
  port : IntOrString
  host : String := ""
  scheme : Option URIScheme := none
  httpHeaders : List (String × String) := []
  deriving DecidableEq

/-- A `corev1.Probe`. -/
structure Probe where
  httpGet : Option HTTPGetAction := none
  initialDelaySeconds : ℤ := 0
  timeoutSeconds : ℤ := 0
  periodSeconds : ℤ := 0
  successThreshold : ℤ := 0
  failureThreshold : ℤ := 0
  rest : StringMap := ∅
  deriving DecidableEq

/-- A `corev1.PullPolicy`. -/
inductive PullPolicy where
  | always
  | never
  | ifNotPresent
  deriving DecidableEq

/-- A `corev1.TerminationMessagePolicy`. -/
inductive TerminationMessagePolicy where
  | readFile
  | fallbackToLogsOnError
  deriving DecidableEq

/-- A `corev1.Container`. -/
structure Container where
  name : String
  image : String := ""
  imagePullPolicy : Option PullPolicy := none
  terminationMessagePath : String := ""
  terminationMessagePolicy : Option TerminationMessagePolicy := none
  securityContext : Option SecurityContext := none
  env : List EnvVar := []
  ports : List ContainerPort := []
  resources : ResourceRequirements := {}
  startupProbe : Option Probe := none
  livenessProbe : Option Probe := none
  readinessProbe : Option Probe := none
  rest : StringMap := ∅
  deriving DecidableEq

/-- A `corev1.RestartPolicy`. -/
inductive RestartPolicy where
  | always
  | onFailure
  | never
  deriving DecidableEq

/-- A `corev1.DNSPolicy`. -/
inductive DNSPolicy where
  | clusterFirstWithHostNet
  | clusterFirst
  | default
  | none
  deriving DecidableEq

/-- A `corev1.PodSpec`. -/
structure PodSpec where
  automountServiceAccountToken : Option Bool := none
  enableServiceLinks : Option Bool := none
  restartPolicy : Option RestartPolicy := none
  dnsPolicy : Option DNSPolicy := none
  schedulerName : String := ""
  terminationGracePeriodSeconds : Option ℤ := none
  securityContext : Option PodSecurityContext := none
  containers : List Container := []
  rest : StringMap := ∅
  deriving DecidableEq

/-- A `corev1.PodTemplateSpec`, of whose metadata only the labels are set. -/
structure PodTemplateSpec where
  labels : StringMap := ∅
  annotations : StringMap := ∅
  spec : PodSpec := {}
  rest : StringMap := ∅
  deriving DecidableEq

/-- An `appsv1.DeploymentSpec`. -/
structure DeploymentSpec where
  replicas : Option ℤ := none
  selector : Option LabelSelector := none
  template : PodTemplateSpec := {}
  strategy : DeploymentStrategy := {}
  minReadySeconds : ℤ := 0
  revisionHistoryLimit : Option ℤ := none
  paused : Bool := false
  progressDeadlineSeconds : Option ℤ := none
  deriving DecidableEq

/-- An `appsv1.DeploymentConditionType`. -/
inductive DeploymentConditionType where
  | available
  | progressing
  | replicaFailure
  deriving DecidableEq

/-- An `appsv1.DeploymentCondition`. -/
structure DeploymentCondition where
  type : DeploymentConditionType
  status : ConditionStatus
  reason : String := ""
  message : String := ""
  deriving DecidableEq

/-- An `appsv1.DeploymentStatus`, as far as the controller reads it. -/
structure DeploymentStatus where
  observedGeneration : ℤ := 0
  replicas : ℤ := 0
  updatedReplicas : ℤ := 0
  readyReplicas : ℤ := 0
  availableReplicas : ℤ := 0
  conditions : List DeploymentCondition := []
  deriving DecidableEq

/-- An `appsv1.Deployment`. -/
abbrev Deployment : Type := Object DeploymentSpec DeploymentStatus

/-! ## Service -/

/-- A `corev1.ServiceType`. -/
inductive ServiceType where
  | clusterIP
  | nodePort
  | loadBalancer
  | externalName
  deriving DecidableEq

/-- A `corev1.ServiceAffinity`. -/
inductive ServiceAffinity where
  | clientIP
  | none
  deriving DecidableEq

/-- A `corev1.ServicePort`. -/
structure ServicePort where
  name : String := ""
  protocol : Option Protocol := none
  appProtocol : Option String := none
  port : ℤ
  targetPort : IntOrString
  nodePort : ℤ := 0
  deriving DecidableEq

/-- A `corev1.SessionAffinityConfig`. -/
structure SessionAffinityConfig where
  clientIPTimeoutSeconds : Option ℤ := none
  deriving DecidableEq

/-- A `corev1.ServiceSpec`. -/
structure ServiceSpec where
  ports : List ServicePort := []
  selector : StringMap := ∅
  clusterIP : String := ""
  clusterIPs : List String := []
  type : Option ServiceType := none
  externalIPs : List String := []
  sessionAffinity : Option ServiceAffinity := none
  loadBalancerIP : String := ""
  loadBalancerSourceRanges : List String := []
  externalName : String := ""
  externalTrafficPolicy : String := ""
  healthCheckNodePort : ℤ := 0
  publishNotReadyAddresses : Bool := false
  sessionAffinityConfig : Option SessionAffinityConfig := none
  ipFamilies : List String := []
  ipFamilyPolicy : Option String := none
  allocateLoadBalancerNodePorts : Option Bool := none
  loadBalancerClass : Option String := none
  internalTrafficPolicy : Option String := none
  trafficDistribution : Option String := none
  deriving DecidableEq

/-- A `corev1.Service`, whose status nobody here reads. -/
abbrev Service : Type := Object ServiceSpec Unit

/-! ## Kinds -/

/-- The kinds of objects the controller reads and writes. -/
inductive Kind where
  | modelDeployment
  | deployment
  | service
  deriving DecidableEq

namespace Kind

/-- The spec of the objects of a kind. -/
abbrev Spec : Kind → Type
  | modelDeployment => ModelDeploymentSpec
  | deployment => DeploymentSpec
  | service => ServiceSpec

/-- The status of the objects of a kind. -/
abbrev Status : Kind → Type
  | modelDeployment => ModelDeploymentStatus
  | deployment => DeploymentStatus
  | service => Unit

/-- The objects of a kind. -/
abbrev Object (k : Kind) : Type := Controller.Object k.Spec k.Status

/-- The status of an object that was just created. -/
def emptyStatus : (k : Kind) → k.Status
  | modelDeployment => {}
  | deployment => {}
  | service => ()

instance : (k : Kind) → DecidableEq k.Spec
  | modelDeployment => inferInstanceAs (DecidableEq ModelDeploymentSpec)
  | deployment => inferInstanceAs (DecidableEq DeploymentSpec)
  | service => inferInstanceAs (DecidableEq ServiceSpec)

instance : (k : Kind) → DecidableEq k.Status
  | modelDeployment => inferInstanceAs (DecidableEq ModelDeploymentStatus)
  | deployment => inferInstanceAs (DecidableEq DeploymentStatus)
  | service => inferInstanceAs (DecidableEq Unit)

/-- How Go prints the type of the object (`%T`). -/
def goType : Kind → String
  | modelDeployment => "*v1alpha1.ModelDeployment"
  | deployment => "*v1.Deployment"
  | service => "*v1.Service"

end Kind

end Kernexys.Controller
