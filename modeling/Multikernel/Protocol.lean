import Mathlib.Data.List.AList
import Mathlib.Data.UInt
/-!
# The daemon's data

The types of `runtime/protocol/types.go` that the lifecycle service reads and
writes, and the pure checks of `runtime/internal/lifecycle/service.go` over
them. Times are nanoseconds, `0` the zero time; every time the daemon stores
is UTC. A Go `error` keeps its text and the two sentinels the daemon tests for.
-/

namespace Multikernel

/-- A map keyed by strings, as the JSON state files hold it. -/
abbrev Table (α : Type) := AList fun _ : String => α

/-- `sandbox.State`. -/
inductive State where
  | absent | allocating | created | loaded | running | stopping | stopped | releasing
  deriving DecidableEq, Repr

def State.text : State → String
  | .absent => "ABSENT"
  | .allocating => "ALLOCATING"
  | .created => "CREATED"
  | .loaded => "LOADED"
  | .running => "RUNNING"
  | .stopping => "STOPPING"
  | .stopped => "STOPPED"
  | .releasing => "RELEASING"

inductive Method where
  | createSandbox | loadSandbox | startSandbox | stopSandbox | deleteSandbox
  deriving DecidableEq, Repr

def Method.text : Method → String
  | .createSandbox => "CreateSandbox"
  | .loadSandbox => "LoadSandbox"
  | .startSandbox => "StartSandbox"
  | .stopSandbox => "StopSandbox"
  | .deleteSandbox => "DeleteSandbox"

/-- `protocol.Error.Code`. -/
inductive Code where
  | invalidArgument | notFound | alreadyExists | staleGeneration | idempotencyConflict
  | failedPrecondition | resourceExhausted | backendTimeout | backendFailure | aborted
  | operatorAction | internal
  deriving DecidableEq, Repr

structure Error where
  code : Code
  message : String
  operationID : String
  retryable : Bool
  deriving DecidableEq, Repr

structure DirectoryIdentity where
  device : UInt64
  inode : UInt64
  uid : UInt32
  deriving DecidableEq, Repr

structure StorageConfig where
  path : String
  imageID : String
  filesystemUUID : String
  sizeBytes : UInt64
  quotaBytes : UInt64
  inodeLimit : UInt64
  port : UInt32
  sha256 : String
  deriving DecidableEq, Repr

/-- `Labels` is a map; its entries are kept in key order. -/
structure SandboxConfig where
  schemaVersion : Int
  id : String
  cpus : List Int
  memoryBytes : UInt64
  kernelManifest : String
  bundle : String
  bundleIdentity : DirectoryIdentity
  agentPort : UInt32
  childCID : UInt32
  storage : Option StorageConfig
  labels : List (String × String)
  deriving DecidableEq, Repr

/-- The state of a storage export. -/
inductive Lease where
  | preparing | active | quiescing | released
  deriving DecidableEq, Repr

structure StorageStatus where
  exportGeneration : String
  state : Lease
  offlineCheck : String
  reads : UInt64
  readBytes : UInt64
  writes : UInt64
  writtenBytes : UInt64
  flushes : UInt64
  releasedAt : Nat
  deriving DecidableEq, Repr

structure Sandbox where
  id : String
  generation : String
  state : State
  error : Option Error
  config : SandboxConfig
  storage : Option StorageStatus
  createdAt : Nat
  updatedAt : Nat
  deriving DecidableEq, Repr

structure MutationResult where
  sandbox : Sandbox
  replayed : Bool
  deriving DecidableEq, Repr

/-- A Go `error`: its text, and whether `errors.Is` finds `ErrUnsafeSession`
or `context.DeadlineExceeded` in it. -/
structure Err where
  text : String
  unsafeSession : Bool := false
  deadlineExceeded : Bool := false
  deriving DecidableEq, Repr

namespace Err

/-- `fmt.Errorf(prefix + ": %w", e)`. -/
def wrap (text : String) (e : Err) : Err := { e with text := text ++ ": " ++ e.text }

/-- `errors.Join`: nil values are discarded. -/
def join : List (Option Err) → Option Err
  | [] => none
  | none :: es => join es
  | some e :: es =>
    match join es with
    | none => some e
    | some e' => some ⟨e.text ++ "\n" ++ e'.text, e.unsafeSession || e'.unsafeSession,
        e.deadlineExceeded || e'.deadlineExceeded⟩

theorem join_some_ne_none (e : Err) (es : List (Option Err)) : join (some e :: es) ≠ none := by
  unfold join
  split <;> simp

theorem join_eq_none {x : Option Err} {es : List (Option Err)} : join (x :: es) = none ↔ x = none ∧ join es = none := by
  cases x with
  | none => simp [join]
  | some e => simp [join_some_ne_none]

end Err

/-- `apierr`. -/
def apierr (code : Code) (msg : String) (retry : Bool) : Error := ⟨code, msg, "", retry⟩

def operationError (code : Code) (msg : String) (retry : Bool) (operationID : String) : Error :=
  { apierr code msg retry with operationID }

/-! ## Request fingerprints -/

/-- `fingerprint(method, value)`. The code hashes the JSON of the pair with
SHA-256; the model keeps the pair, so no two inputs collide. -/
inductive Fingerprint where
  | create (config : SandboxConfig)
  | target (method : Method) (id gen : String)
  deriving DecidableEq, Repr

/-! ## Validation -/

/-- `^[first][rest]{0,n}$`. -/
def matchesRE (first rest : Char → Bool) (n : Nat) (s : String) : Bool :=
  match s.toList with
  | [] => false
  | c :: cs => first c && cs.length ≤ n && cs.all rest

def isLower (c : Char) : Bool := 'a' ≤ c && c ≤ 'z'

def isUpper (c : Char) : Bool := 'A' ≤ c && c ≤ 'Z'

def isDigit (c : Char) : Bool := '0' ≤ c && c ≤ '9'

/-- `^[a-z][a-z0-9-]{0,62}$`. -/
def idRE : String → Bool := matchesRE isLower (fun c => isLower c || isDigit c || c == '-') 62

/-- `^[a-z][a-z0-9.-]{0,62}$`. -/
def manifestRE : String → Bool :=
  matchesRE isLower (fun c => isLower c || isDigit c || c == '.' || c == '-') 62

/-- `^[a-z][a-z0-9_.-]{0,62}$`. -/
def labelKeyRE : String → Bool :=
  matchesRE isLower (fun c => isLower c || isDigit c || c == '_' || c == '.' || c == '-') 62

def printableASCII (value : String) (min max : Nat) : Bool :=
  min ≤ value.utf8ByteSize && value.utf8ByteSize ≤ max &&
    value.toList.all fun c => 0x20 ≤ c.toNat && c.toNat ≤ 0x7e

/-- `filepath.IsAbs`. -/
def isAbs (path : String) : Bool := path.toList.head? == some '/'

def networkExpectationLabel : String := "io.multikernel.network-expectation-v1"

/-- `protocol.NetworkExpectation`: the error, if any. -/
def networkExpectation (c : SandboxConfig) : Option String :=
  match c.labels.find? (·.1 == networkExpectationLabel) with
  | none => none
  | some (_, value) =>
    if value ≠ "required" ∧ value ≠ "none" then some "invalid network expectation label" else none

/-- The CPU loop of `validateConfig`; `seen` holds the CPUs before. -/
def validateCPUs : List Int → List Int → Option String
  | [], _ => none
  | n :: ns, seen =>
    if n = 0 then some "APIC ID 0 is forbidden"
    else if n < 0 ∨ n ∈ seen then some "invalid or duplicate CPU"
    else validateCPUs ns (n :: seen)

def validateConfig (c : SandboxConfig) : Option String :=
  if c.schemaVersion ≠ 1 then some "schema_version must be 1"
  else if ¬idRE c.id then some "invalid sandbox ID"
  else if c.cpus.length = 0 then some "at least one CPU is required"
  else match validateCPUs c.cpus [] with
  | some e => some e
  | none =>
    if c.memoryBytes < 512 * 2 ^ 20 then some "memory must be at least 512 MiB"
    else if ¬manifestRE c.kernelManifest then some "invalid kernel manifest name"
    else if ¬isAbs c.bundle then some "bundle path must be absolute"
    else if c.bundleIdentity.device = 0 ∨ c.bundleIdentity.inode = 0 then
      some "bundle identity must contain a nonzero device and inode"
    else if c.labels.length > 32 then some "at most 32 labels are allowed"
    else match networkExpectation c with
    | some e => some e
    | none =>
      if c.labels.any fun l => ¬labelKeyRE l.1 || l.2.utf8ByteSize > 256 then some "invalid label key or value"
      else if c.agentPort < 1024 then some "agent port must be at least 1024"
      else if c.childCID = 0 ∨ c.childCID = 0xffffffff then some "child CID must be a concrete nonzero value"
      else none

/-- Two configurations want the same CPU, port, CID or bundle. -/
def overlap (a b : SandboxConfig) : Bool :=
  b.cpus.any (fun n => n ∈ a.cpus) || a.agentPort == b.agentPort || a.childCID == b.childCID ||
    a.bundle == b.bundle

theorem overlap_false {a b : SandboxConfig} :
    overlap a b = false ↔
      a.cpus.Disjoint b.cpus ∧ a.agentPort ≠ b.agentPort ∧ a.childCID ≠ b.childCID ∧ a.bundle ≠ b.bundle := by
  simp only [overlap, Bool.or_eq_false_iff, List.any_eq_false, decide_eq_true_eq, beq_eq_false_iff_ne, and_assoc]
  exact and_congr_left fun _ => ⟨fun h n ha hb => h n hb ha, fun h n hb ha => h ha hb⟩

theorem overlap_comm (a b : SandboxConfig) : overlap a b = overlap b a := by
  rw [Bool.eq_iff_iff, ← not_iff_not, Bool.not_eq_true, Bool.not_eq_true, overlap_false, overlap_false]
  constructor
  all_goals
    rintro ⟨h1, h2, h3, h4⟩
    exact ⟨fun n ha hb => h1 hb ha, h2.symm, h3.symm, h4.symm⟩

/-! ## What a validated configuration looks like -/

theorem validateCPUs_pos {ns seen : List Int} (h : validateCPUs ns seen = none) : ∀ n ∈ ns, 0 < n := by
  induction ns generalizing seen with
  | nil => simp
  | cons n ns ih =>
    simp only [validateCPUs] at h
    split at h
    · cases h
    · split at h
      · cases h
      · rename_i h0 hn
        intro m hm
        rcases List.mem_cons.1 hm with rfl | hm
        · omega
        · exact ih h m hm

theorem validateConfig_cpus {c : SandboxConfig} (h : validateConfig c = none) : ∀ n ∈ c.cpus, 0 < n := by
  unfold validateConfig at h
  split at h
  · cases h
  split at h
  · cases h
  split at h
  · cases h
  split at h
  · cases h
  · rename_i hc
    exact validateCPUs_pos hc

/-! ## Backend states -/

def failureState (method : Method) (actual fallback : State) : State :=
  match actual with
  | .absent | .created | .running => actual
  | .loaded => if method = .stopSandbox ∨ method = .deleteSandbox then .stopped else .loaded
  | _ => fallback

def stateMatches (durable actual : State) : Bool :=
  durable == actual || (durable == .stopped && actual == .loaded)

/-! ## Random identities -/

/-- The last `n` hexadecimal digits of `v`. -/
def hexDigits : Nat → Nat → List Char
  | 0, _ => []
  | n + 1, v => hexDigits n (v / 16) ++ [Nat.digitChar (v % 16)]

/-- `generation()`: sixteen random bytes in hexadecimal. -/
def hexGeneration (v : Nat) : String := String.ofList (hexDigits 32 v)

theorem length_hexDigits (n v : Nat) : (hexDigits n v).length = n := by
  induction n generalizing v with
  | zero => rfl
  | succ n ih => simp [hexDigits, ih]

theorem hexGeneration_ne_empty (v : Nat) : hexGeneration v ≠ "" := by
  intro h
  have := congrArg (·.toList.length) h
  simp [hexGeneration, length_hexDigits] at this

end Multikernel
