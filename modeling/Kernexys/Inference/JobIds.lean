import Kernexys.Api.Schemas
import Kernexys.Lib.Hex

/-!
# Job IDs

`enqueue_job` takes the ID of a job with an idempotency key from the hash of `namespace/name/key`,
and that of a job without one from `uuid4`; `get_job` checks an ID before it looks for it.  The key
may hold slashes, a namespace and a name may not, so the hashed text determines all three.  SHA-256
is any function to 256 bits.
-/

namespace Kernexys.Inference

open Api Text

/-! ## The IDs of `enqueue_job` -/

/-- `hexdigest` of a digest of 256 bits. -/
def hexdigest (digest : BitVec 256) : String := String.ofList (Hex.digits 64 digest.toNat)

/-- `uuid4` of 128 random bits: the variant and the version are set. -/
def uuid4 (random : BitVec 128) : BitVec 128 :=
  let variant := (random &&& ~~~(0xc000#128 <<< 48)) ||| (0x8000#128 <<< 48)
  (variant &&& ~~~(0xf000#128 <<< 64)) ||| (4#128 <<< 76)

/-- The digits in groups of 8, 4, 4, 4 and the rest. -/
def hyphenate (hex : List Char) : List Char :=
  hex.take 8 ++ '-' :: (hex.drop 8).take 4 ++ '-' :: (hex.drop 12).take 4 ++
    '-' :: (hex.drop 16).take 4 ++ '-' :: hex.drop 20

/-- `str` of a UUID. -/
def uuidText (uuid : BitVec 128) : String := String.ofList (hyphenate (Hex.digits 32 uuid.toNat))

/-- The parts of a request that its job ID is made of, and the bits that `uuid4` draws for it. -/
structure JobRequest where
  ns : ResourceName
  name : ResourceName
  idempotencyKey : Option String
  random : BitVec 128

namespace JobRequest

/-- The request has a key, and the key is not empty. -/
def Keyed (request : JobRequest) : Prop := ∃ key ≠ "", request.idempotencyKey = some key

/-- The text that is hashed. -/
def identityText (request : JobRequest) (key : String) : String :=
  request.ns.1 ++ "/" ++ request.name.1 ++ "/" ++ key

/-- The bytes that are hashed, if the request has a key that is not empty. -/
def identity (request : JobRequest) : Option ByteArray :=
  (request.idempotencyKey.filter fun key => key ≠ "").map fun key =>
    (request.identityText key).toUTF8

variable (sha256 : ByteArray → BitVec 256)

/-- The ID of the job: the digest of its identity, or a random UUID. -/
def jobId (request : JobRequest) : String :=
  match request.identity with
  | some bytes => hexdigest (sha256 bytes)
  | none => uuidText (uuid4 request.random)

end JobRequest

/-! ## The check of `get_job` -/

/-- `str.isalnum` of one character.  Beyond ASCII it follows the Unicode tables. -/
structure Alnum where
  isAlnum : Char → Bool
  ascii : ∀ c : Char, c.toNat < 128 → isAlnum c = c.isAlphanum

/-- `get_job` looks for the ID. -/
def validJobId (alnum : Alnum) (jobId : String) : Bool :=
  let rest := jobId.toList.filter fun c => c ≠ '-'
  jobId.length ≤ 64 && !rest.isEmpty && rest.all alnum.isAlnum

theorem Alnum.isAlnum_of_isAlphanum (alnum : Alnum) {c : Char} (is : c.isAlphanum = true) :
    alnum.isAlnum c = true := by
  have ascii : c.toNat < 128 := by
    simp only [Char.isAlphanum, Char.isAlpha, Char.isUpper, Char.isLower, Char.isDigit,
      Bool.or_eq_true, Bool.and_eq_true, decide_eq_true_eq, UInt32.le_iff_toNat_le] at is
    simp at is
    omega
  rw [alnum.ascii c ascii, is]

/-- Digits and dashes of which not all are dashes pass the check. -/
theorem validJobId_ofList (alnum : Alnum) {l : List Char} (short : l.length ≤ 64)
    (each : ∀ c ∈ l, c = '-' ∨ c.isAlphanum = true) (some_ : ∃ c ∈ l, c ≠ '-') :
    validJobId alnum (String.ofList l) = true := by
  obtain ⟨c, mem, notDash⟩ := some_
  have kept : c ∈ l.filter fun c => c ≠ '-' := List.mem_filter.2 ⟨mem, by simpa using notDash⟩
  have alnums : ∀ d ∈ l.filter fun c => c ≠ '-', alnum.isAlnum d = true := by
    intro d kept
    obtain ⟨mem, notDash⟩ := List.mem_filter.1 kept
    rcases each d mem with rfl | is
    · simp at notDash
    · exact alnum.isAlnum_of_isAlphanum is
  rw [validJobId]
  simp only [String.toList_ofList, String.length_ofList, Bool.and_eq_true, decide_eq_true_eq,
    Bool.not_eq_true', List.isEmpty_eq_false_iff_exists_mem, List.all_eq_true]
  exact ⟨⟨short, c, kept⟩, alnums⟩

/-! ## Keyed and unkeyed IDs -/

theorem hexdigest_injective : Function.Injective hexdigest := by
  intro d e same
  have digits := String.ofList_injective same
  exact BitVec.eq_of_toNat_eq (Hex.digits_inj (by omega) (by omega) digits)

theorem length_hexdigest (digest : BitVec 256) : (hexdigest digest).length = 64 := by
  rw [hexdigest, String.length_ofList, Hex.length_digits]

theorem length_hyphenate {hex : List Char} (full : hex.length = 32) :
    (hyphenate hex).length = 36 := by
  simp [hyphenate, full]

theorem mem_hyphenate {hex : List Char} {c : Char} (mem : c ∈ hyphenate hex) :
    c = '-' ∨ c ∈ hex := by
  simp only [hyphenate, List.mem_append, List.mem_cons] at mem
  rcases mem with (((mem | rfl | mem) | rfl | mem) | rfl | mem) | rfl | mem
  · exact Or.inr (List.mem_of_mem_take mem)
  · exact Or.inl rfl
  · exact Or.inr (List.mem_of_mem_drop (List.mem_of_mem_take mem))
  · exact Or.inl rfl
  · exact Or.inr (List.mem_of_mem_drop (List.mem_of_mem_take mem))
  · exact Or.inl rfl
  · exact Or.inr (List.mem_of_mem_drop (List.mem_of_mem_take mem))
  · exact Or.inl rfl
  · exact Or.inr (List.mem_of_mem_drop mem)

theorem mem_hyphenate_of_take {hex : List Char} {c : Char} (mem : c ∈ hex.take 8) :
    c ∈ hyphenate hex := by
  simp [hyphenate, mem]

theorem length_uuidText (uuid : BitVec 128) : (uuidText uuid).length = 36 := by
  rw [uuidText, String.length_ofList, length_hyphenate (Hex.length_digits 32 _)]

theorem ne_dash_of_isAlphanum {c : Char} (is : c.isAlphanum = true) : c ≠ '-' := by
  rintro rfl
  cases is

theorem validJobId_hexdigest (alnum : Alnum) (digest : BitVec 256) :
    validJobId alnum (hexdigest digest) = true := by
  have each : ∀ c ∈ Hex.digits 64 digest.toNat, c.isAlphanum = true :=
    fun c mem => Hex.isAlphanum_of_mem_digits mem
  have full := Hex.length_digits 64 digest.toNat
  rw [hexdigest]
  generalize Hex.digits 64 digest.toNat = hex at each full ⊢
  obtain ⟨c, mem⟩ := List.exists_mem_of_length_pos (l := hex) (by omega)
  exact validJobId_ofList alnum full.le (fun c mem => Or.inr (each c mem))
    ⟨c, mem, ne_dash_of_isAlphanum (each c mem)⟩

theorem validJobId_uuidText (alnum : Alnum) (uuid : BitVec 128) :
    validJobId alnum (uuidText uuid) = true := by
  have each : ∀ c ∈ Hex.digits 32 uuid.toNat, c.isAlphanum = true :=
    fun c mem => Hex.isAlphanum_of_mem_digits mem
  have full := Hex.length_digits 32 uuid.toNat
  rw [uuidText]
  generalize Hex.digits 32 uuid.toNat = hex at each full ⊢
  obtain ⟨c, mem⟩ := List.exists_mem_of_length_pos (l := hex.take 8) (by simp [full])
  refine validJobId_ofList alnum (by rw [length_hyphenate full]; decide) (fun d inText => ?_)
    ⟨c, mem_hyphenate_of_take mem, ne_dash_of_isAlphanum (each c (List.mem_of_mem_take mem))⟩
  exact (mem_hyphenate inText).imp_right (each d)

/-! ## The hashed text -/

/-- The name pattern has no slash. -/
theorem slash_notMem_name (name : ResourceName) : '/' ∉ name.1.toList := by
  intro mem
  have matched := name.2
  rw [isName, Bool.and_eq_true] at matched
  have inPattern := mem_alphabet (RegularExpression.rmatch_iff_matches' .. |>.1 matched.2) _ mem
  revert inPattern
  decide

namespace JobRequest

theorem toList_identityText (request : JobRequest) (key : String) :
    (request.identityText key).toList =
      request.ns.1.toList ++ '/' :: (request.name.1.toList ++ '/' :: key.toList) := by
  simp [identityText]

/-- The hashed bytes determine the namespace, the name and the key. -/
theorem identityText_inj {r q : JobRequest} {key key' : String}
    (same : (r.identityText key).toUTF8 = (q.identityText key').toUTF8) :
    r.ns = q.ns ∧ r.name = q.name ∧ key = key' := by
  have texts := congrArg String.toList (String.toByteArray_inj.1 same)
  rw [toList_identityText, toList_identityText] at texts
  obtain ⟨ns, rest⟩ := append_separator_inj (slash_notMem_name _) (slash_notMem_name _) texts
  obtain ⟨name, keys⟩ := append_separator_inj (slash_notMem_name _) (slash_notMem_name _) rest
  exact ⟨Subtype.ext (String.toList_injective ns), Subtype.ext (String.toList_injective name),
    String.toList_injective keys⟩

theorem identity_of_key {request : JobRequest} {key : String} (nonempty : key ≠ "")
    (has : request.idempotencyKey = some key) :
    request.identity = some (request.identityText key).toUTF8 := by
  simp [identity, has, nonempty]

theorem identity_eq_none {request : JobRequest} (unkeyed : ¬ request.Keyed) :
    request.identity = none := by
  cases has : request.idempotencyKey with
  | none => simp [identity, has]
  | some key =>
    have empty : key = "" := by
      by_contra nonempty
      exact unkeyed ⟨key, nonempty, has⟩
    simp [identity, has, empty]

/-- The ID of a keyed request is a digest. -/
theorem jobId_of_keyed (sha256 : ByteArray → BitVec 256) {request : JobRequest}
    (keyed : request.Keyed) : ∃ key, request.idempotencyKey = some key ∧
      request.identity = some (request.identityText key).toUTF8 ∧
      request.jobId sha256 = hexdigest (sha256 (request.identityText key).toUTF8) := by
  obtain ⟨key, nonempty, has⟩ := keyed
  refine ⟨key, has, identity_of_key nonempty has, ?_⟩
  rw [jobId, identity_of_key nonempty has]

/-- The ID of any other request is a UUID. -/
theorem jobId_of_unkeyed (sha256 : ByteArray → BitVec 256) {request : JobRequest}
    (unkeyed : ¬ request.Keyed) : request.jobId sha256 = uuidText (uuid4 request.random) := by
  rw [jobId, identity_eq_none unkeyed]

/-- Keyed requests with the same namespace, name and key have the same ID. -/
theorem jobId_congr (sha256 : ByteArray → BitVec 256) {r q : JobRequest} (keyed : r.Keyed)
    (ns : r.ns = q.ns) (name : r.name = q.name) (key : r.idempotencyKey = q.idempotencyKey) :
    r.jobId sha256 = q.jobId sha256 := by
  obtain ⟨text, nonempty, has⟩ := keyed
  rw [jobId, jobId, identity_of_key nonempty has, identity_of_key nonempty (key.symm.trans has),
    identityText, identityText, ns, name]

/-- `get_job` looks for every ID that `enqueue_job` issues. -/
theorem validJobId_jobId (sha256 : ByteArray → BitVec 256) (alnum : Alnum) (request : JobRequest) :
    validJobId alnum (request.jobId sha256) = true := by
  by_cases keyed : request.Keyed
  · obtain ⟨key, -, -, eq⟩ := jobId_of_keyed sha256 keyed
    rw [eq]
    exact validJobId_hexdigest alnum _
  · rw [jobId_of_unkeyed sha256 keyed]
    exact validJobId_uuidText alnum _

/-- The bytes that are hashed for the requests of a set. -/
def hashed (requests : Set JobRequest) : Set ByteArray :=
  {bytes | ∃ request ∈ requests, request.identity = some bytes}

/-- Where the hash is injective, two keyed requests share their ID exactly when they share the
namespace, the name and the key. -/
theorem jobId_eq_iff {sha256 : ByteArray → BitVec 256} {requests : Set JobRequest}
    (injective : Set.InjOn sha256 (hashed requests)) {r q : JobRequest} (memR : r ∈ requests)
    (memQ : q ∈ requests) (keyedR : r.Keyed) (keyedQ : q.Keyed) :
    r.jobId sha256 = q.jobId sha256 ↔
      r.ns = q.ns ∧ r.name = q.name ∧ r.idempotencyKey = q.idempotencyKey := by
  refine ⟨fun same => ?_, fun ⟨ns, name, key⟩ => jobId_congr sha256 keyedR ns name key⟩
  obtain ⟨key, hasR, bytesR, idR⟩ := jobId_of_keyed sha256 keyedR
  obtain ⟨key', hasQ, bytesQ, idQ⟩ := jobId_of_keyed sha256 keyedQ
  rw [idR, idQ] at same
  have hashes := hexdigest_injective same
  obtain ⟨ns, name, keys⟩ :=
    identityText_inj (injective ⟨r, memR, bytesR⟩ ⟨q, memQ, bytesQ⟩ hashes)
  exact ⟨ns, name, by rw [hasR, hasQ, keys]⟩

theorem jobId_ne_of_unkeyed (sha256 : ByteArray → BitVec 256) {r q : JobRequest} (keyed : r.Keyed)
    (unkeyed : ¬ q.Keyed) : r.jobId sha256 ≠ q.jobId sha256 := by
  obtain ⟨key, -, -, eq⟩ := jobId_of_keyed sha256 keyed
  intro same
  rw [eq, jobId_of_unkeyed sha256 unkeyed] at same
  have lengths := congrArg String.length same
  rw [length_hexdigest, length_uuidText] at lengths
  cases lengths

end JobRequest

theorem job_identity_faithful (sha256 : ByteArray → BitVec 256) (alnum : Alnum)
    (requests : Set JobRequest) (injective : Set.InjOn sha256 (JobRequest.hashed requests)) :
    (∀ r ∈ requests, ∀ q ∈ requests, r.Keyed → q.Keyed →
      (r.jobId sha256 = q.jobId sha256 ↔
        r.ns = q.ns ∧ r.name = q.name ∧ r.idempotencyKey = q.idempotencyKey)) ∧
      (∀ r q : JobRequest, r.Keyed → ¬ q.Keyed → r.jobId sha256 ≠ q.jobId sha256) ∧
      ∀ request : JobRequest, validJobId alnum (request.jobId sha256) = true :=
  ⟨fun _ memR _ memQ keyedR keyedQ => JobRequest.jobId_eq_iff injective memR memQ keyedR keyedQ,
    fun _ _ keyed unkeyed => JobRequest.jobId_ne_of_unkeyed sha256 keyed unkeyed,
    fun request => JobRequest.validJobId_jobId sha256 alnum request⟩

/-- `str.isalnum` on ASCII. -/
def asciiAlnum : Alnum := ⟨Char.isAlphanum, fun _ _ => rfl⟩

/-- SHA-256 on the two texts that are hashed below. -/
def knownDigest (bytes : ByteArray) : BitVec 256 :=
  if bytes = "team/sentiment/a".toUTF8 then
    0x05e8c536db804bf778d6dc5e4615f418b1f1a7f68966802bcfc71d5e73e7e01f
  else 0xf558d001e48e7cef72933dfe7935471d1f91803feec95a66942db5a3ab664061

/-- Requests to one deployment: with a key, with a key that looks like a path, and without a key. -/
def plainRequest : JobRequest := ⟨⟨"team", by decide⟩, ⟨"sentiment", by decide⟩, some "a", 0⟩

/-- A request whose key has a slash. -/
def pathRequest : JobRequest := ⟨⟨"team", by decide⟩, ⟨"sentiment", by decide⟩, some "a/b", 0⟩

/-- The same request without a key. -/
def unkeyedRequest : JobRequest := ⟨⟨"team", by decide⟩, ⟨"sentiment", by decide⟩, none, 0⟩

theorem job_identity_faithful_path :
    plainRequest.jobId knownDigest ≠ pathRequest.jobId knownDigest ∧
      plainRequest.jobId knownDigest ≠ unkeyedRequest.jobId knownDigest ∧
      validJobId asciiAlnum (pathRequest.jobId knownDigest) = true := by
  have keyed : plainRequest.Keyed := ⟨"a", by decide, rfl⟩
  have keyed' : pathRequest.Keyed := ⟨"a/b", by decide, rfl⟩
  have unkeyed : ¬ unkeyedRequest.Keyed := by
    rintro ⟨key, -, has⟩
    cases has
  have injective : Set.InjOn knownDigest (JobRequest.hashed {plainRequest, pathRequest}) := by
    rintro a ⟨r, rfl | rfl, foundA⟩ b ⟨q, rfl | rfl, foundB⟩ same
    · exact Option.some.inj (foundA.symm.trans foundB)
    · obtain rfl := Option.some.inj foundA
      obtain rfl := Option.some.inj foundB
      exact absurd same (by decide)
    · obtain rfl := Option.some.inj foundA
      obtain rfl := Option.some.inj foundB
      exact absurd same (by decide)
    · exact Option.some.inj (foundA.symm.trans foundB)
  obtain ⟨equal, apart, valid⟩ := job_identity_faithful knownDigest asciiAlnum _ injective
  refine ⟨fun same => ?_, apart _ _ keyed unkeyed, valid _⟩
  have keys := ((equal _ (Or.inl rfl) _ (Or.inr rfl) keyed keyed').1 same).2.2
  exact absurd (Option.some.inj keys) (by decide)

end Kernexys.Inference
