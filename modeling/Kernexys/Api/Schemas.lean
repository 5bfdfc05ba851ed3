import Kernexys.Lib.Json
import Kernexys.Lib.Text

/-!
# The request schemas

`schemas.py`.  A request body is a structure that carries what its validators guarantee.
-/

namespace Kernexys.Api

open RegularExpression Text

/-! ## Characters -/

/-- The characters that names of resources start and end with. -/
def lowerAlphanumeric : List Char := span 'a' 26 ++ span '0' 10

/-- The characters that versions start and end with. -/
def alphanumeric : List Char := span 'A' 26 ++ lowerAlphanumeric

/-- `str.isspace`, which also holds of the four information separators. -/
def isSpace (c : Char) : Bool := whiteSpace c || (0x1c ≤ c.toNat && c.toNat ≤ 0x1f)

/-- The code points of the zeros that start the runs of ten decimal digits, which are what `\d`
matches in a Python pattern. -/
def decimalZeros : List ℕ :=
  [0x30, 0x660, 0x6f0, 0x7c0, 0x966, 0x9e6, 0xa66, 0xae6, 0xb66, 0xbe6, 0xc66, 0xce6, 0xd66, 0xde6,
    0xe50, 0xed0, 0xf20, 0x1040, 0x1090, 0x17e0, 0x1810, 0x1946, 0x19d0, 0x1a80, 0x1a90, 0x1b50,
    0x1bb0, 0x1c40, 0x1c50, 0xa620, 0xa8d0, 0xa900, 0xa9d0, 0xa9f0, 0xaa50, 0xabf0, 0xff10, 0x104a0,
    0x10d30, 0x11066, 0x110f0, 0x11136, 0x111d0, 0x112f0, 0x11450, 0x114d0, 0x11650, 0x116c0,
    0x11730, 0x118e0, 0x11950, 0x11c50, 0x11d50, 0x11da0, 0x11f50, 0x16a60, 0x16ac0, 0x16b50,
    0x1d7ce, 0x1d7d8, 0x1d7e2, 0x1d7ec, 0x1d7f6, 0x1e140, 0x1e2f0, 0x1e4f0, 0x1e950, 0x1fbf0]

/-- `\d`. -/
def decimalDigits : List Char :=
  decimalZeros.flatMap fun first => span (Char.ofNat first) 10

/-! ## Names -/

/-- A name as the constraints of `ResourceName` and `VersionName` want it. -/
def isName (ends middle : List Char) (s : String) : Bool :=
  1 ≤ s.length && s.length ≤ 63 && fullmatch (bounded ends (middle ++ ends)) s

/-- The names that the constraints let through. -/
def Name (ends middle : List Char) : Type := { s : String // isName ends middle s = true }

/-- The constraints strip white space first. -/
def Name.parse (ends middle : List Char) (s : String) : Option (Name ends middle) :=
  if valid : isName ends middle (strip whiteSpace s) = true then some ⟨_, valid⟩ else none

/-- `ResourceName`: a DNS label. -/
abbrev ResourceName : Type := Name lowerAlphanumeric ['-']

/-- `VersionName`, which may also have capitals, dots and underscores. -/
abbrev VersionName : Type := Name alphanumeric ['-', '.', '_']

/-- A name that was validated passes unchanged. -/
theorem Name.parse_val {ends middle : List Char}
    (apart : (ends.all fun c => !whiteSpace c) = true) (name : Name ends middle) :
    parse ends middle name.1 = some name := by
  have matched := name.2
  rw [isName, Bool.and_eq_true] at matched
  have stripped : strip whiteSpace name.1 = name.1 :=
    strip_bounded matched.2 fun c mem => by simpa using List.all_eq_true.1 apart c mem
  rw [parse, dif_pos (by rw [stripped]; exact name.2)]
  exact congrArg some (Subtype.ext stripped)

theorem ResourceName.parse_val (name : ResourceName) : Name.parse _ _ name.1 = some name :=
  Name.parse_val (by decide) name

theorem VersionName.parse_val (name : VersionName) : Name.parse _ _ name.1 = some name :=
  Name.parse_val (by decide) name

/-! ## The registry -/

/-- The body of `put_model`. -/
structure ModelUpsert where
  description : Option String
  short : ∀ text, description = some text → text.length ≤ 2000

/-- `validate_runtime_image`. -/
def validateRuntimeImage (value : String) : Except String String :=
  let value := strip isSpace value
  if value = "" ∨ value.toList.any isSpace then
    .error "runtime_image must be a non-empty OCI image reference"
  else .ok value

/-- The pattern of a digest. -/
def digestPattern : RegularExpression Char :=
  literal "sha256:" * oneOf (span '0' 10 ++ span 'a' 6) ^ 64

/-- `validate_artifact_digest` of a text.  No character but an ASCII letter becomes one that the
pattern matches when it is lowered. -/
def validateArtifactDigest (value : String) : Except String String :=
  let value := String.ofList ((strip isSpace value).toList.map Char.toLower)
  if fullmatch digestPattern value then .ok value
  else .error "artifact_digest must be a sha256 digest"

/-- A version body: its image and digest are results of their validators. -/
structure VersionCreate where
  runtimeImage : String
  artifactDigest : Option String := none
  metadata : Dict := []
  image_valid : ∃ value : String, 1 ≤ value.length ∧ value.length ≤ 512 ∧
    validateRuntimeImage value = .ok runtimeImage
  digest_valid : ∀ digest, artifactDigest = some digest →
    ∃ value : String, value.length ≤ 128 ∧ validateArtifactDigest value = .ok digest

theorem validateArtifactDigest_ne {value : String} : validateArtifactDigest value ≠ .ok "" := by
  intro eq
  rw [validateArtifactDigest] at eq
  split at eq
  next matched =>
    rw [Except.ok.inj eq] at matched
    revert matched
    decide
  next => cases eq

/-- A digest that was validated is not empty. -/
theorem VersionCreate.artifactDigest_ne (body : VersionCreate) : body.artifactDigest ≠ some "" := by
  intro eq
  obtain ⟨value, -, validated⟩ := body.digest_valid "" eq
  exact validateArtifactDigest_ne validated

/-! ## Deployments -/

/-- `_RESOURCE_NAME_PATTERN`. -/
def resourceNamePattern : RegularExpression Char :=
  let part := bounded lowerAlphanumeric ('-' :: '.' :: lowerAlphanumeric)
  optional (part * char '/') * part

/-- `_RESOURCE_QUANTITY_PATTERN`. -/
def resourceQuantityPattern : RegularExpression Char :=
  let digit := oneOf decimalDigits
  let sign := optional (oneOf ['+', '-'])
  let exponent := oneOf ['e', 'E'] * sign * repeated digit
  let suffix := exponent + oneOf ['n', 'u', 'm', 'k', 'K', 'M', 'G', 'T', 'P', 'E'] +
    oneOf ['K', 'M', 'G', 'T', 'P', 'E'] * char 'i'
  sign * (repeated digit * optional (char '.' * star digit) + char '.' * repeated digit) *
    optional suffix

/-- A name that `validate_resources` lets through. -/
def isResourceEntryName (name : String) : Bool :=
  name.length ≤ 253 && fullmatch resourceNamePattern name

/-- A quantity that `validate_resources` lets through. -/
def isResourceQuantity (quantity : String) : Bool :=
  quantity.length ≤ 64 && fullmatch resourceQuantityPattern quantity

/-- The entries that `validate_resources` lets through. -/
def Quantities : Type :=
  { entries : List (String × String) //
    ∀ entry ∈ entries, isResourceEntryName entry.1 = true ∧ isResourceQuantity entry.2 = true }

theorem Quantities.valid_nil : ∀ entry ∈ ([] : List (String × String)),
    isResourceEntryName entry.1 = true ∧ isResourceQuantity entry.2 = true := by
  simp

/-- `validate_resources`. -/
def validateResources : List (String × String) → Except String Quantities
  | [] => .ok ⟨[], Quantities.valid_nil⟩
  | (name, quantity) :: values =>
    let quantity := strip isSpace quantity
    if named : isResourceEntryName name = true then
      if valid : isResourceQuantity quantity = true then
        match validateResources values with
        | .ok normalized => .ok ⟨(name, quantity) :: normalized.1, by
            simpa using ⟨⟨named, valid⟩, fun a b => normalized.2 (a, b)⟩⟩
        | .error e => .error e
      else .error ("invalid Kubernetes resource quantity for " ++ name)
    else .error ("invalid Kubernetes resource name: " ++ name)

/-- `DeploymentResources`: requests and limits, both empty by default. -/
structure DeploymentResources where
  requests : Quantities := ⟨[], Quantities.valid_nil⟩
  limits : Quantities := ⟨[], Quantities.valid_nil⟩

/-- The body of `put_deployment`. -/
structure DeploymentUpsert where
  model : ResourceName
  version : VersionName
  replicas : ℤ := 1
  port : ℤ := 8080
  resources : DeploymentResources := {}
  replicas_valid : 1 ≤ replicas ∧ replicas ≤ 100 := by decide
  port_valid : 1 ≤ port ∧ port ≤ 65535 := by decide

/-- The body of `rollback_deployment`. -/
structure RollbackRequest where
  version : VersionName

end Kernexys.Api
