import Multikernel.Protocol
import Mathlib.Data.List.Sort
/-!
# The storage store

`runtime/internal/storage/types.go` and `store.go`: the durable leases of
storage exports, one for each sandbox generation. The file is keyed by
`exportKey`, the pair here. Every stored time is UTC, so the checks of the
zone offsets have nothing to reject.
-/

namespace Multikernel

structure ImageIdentity where
  device : UInt64
  inode : UInt64
  deriving DecidableEq, Repr

structure PreparedImage where
  path : String
  imageID : String
  filesystemUUID : String
  sizeBytes : UInt64
  quotaBytes : UInt64
  inodeLimit : UInt64
  port : UInt32
  sha256 : String
  deriving DecidableEq, Repr

structure Counters where
  reads : UInt64 := 0
  readBytes : UInt64 := 0
  writes : UInt64 := 0
  writtenBytes : UInt64 := 0
  flushes : UInt64 := 0
  deriving DecidableEq, Repr

structure Export where
  sandboxID : String
  sandboxGeneration : String
  exportGeneration : String
  peerCID : UInt32
  image : PreparedImage
  imageIdentity : ImageIdentity
  state : Lease
  createdAt : Nat
  updatedAt : Nat
  releasedAt : Nat := 0
  offlineCheck : String := ""
  counters : Counters := {}
  deriving DecidableEq, Repr

/-- What the lifecycle state says about a sandbox's export. -/
structure Owner where
  generation : String
  peerCID : UInt32
  image : PreparedImage
  exportGeneration : String
  deriving DecidableEq, Repr

/-! ## Validation -/

/-- A regular expression of one character class after another. -/
def matchesAll : List (Char → Bool) → List Char → Bool
  | [], [] => true
  | p :: ps, c :: cs => p c && matchesAll ps cs
  | _, _ => false

def isHex (c : Char) : Bool := isDigit c || ('a' ≤ c && c ≤ 'f')

/-- `^[a-zA-Z0-9][a-zA-Z0-9_.-]{0,63}$`. -/
def identityRE : String → Bool :=
  matchesRE (fun c => isLower c || isUpper c || isDigit c)
    (fun c => isLower c || isUpper c || isDigit c || c == '_' || c == '.' || c == '-') 63

/-- `^[a-f0-9]{32}$`. -/
def generationRE (s : String) : Bool := matchesAll (List.replicate 32 isHex) s.toList

/-- `^[a-f0-9]{8}-[a-f0-9]{4}-[a-f0-9]{4}-[a-f0-9]{4}-[a-f0-9]{12}$`. -/
def uuidRE (s : String) : Bool :=
  matchesAll (List.replicate 8 isHex ++ (· == '-') :: List.replicate 4 isHex ++ (· == '-') :: List.replicate 4 isHex ++
    (· == '-') :: List.replicate 4 isHex ++ (· == '-') :: List.replicate 12 isHex) s.toList

/-- `^[a-f0-9]{64}$`. -/
def digestRE (s : String) : Bool := matchesAll (List.replicate 64 isHex) s.toList

/-- `^e2fsck-clean-sha256:[a-f0-9]{64}$`. -/
def offlineCheckRE (s : String) : Bool :=
  matchesAll ("e2fsck-clean-sha256:".toList.map (fun p c => p == c) ++ List.replicate 64 isHex) s.toList

def validPeerCID (cid : UInt32) : Bool := cid != 0 && cid != 0xffffffff

/-- `filepath.Clean(path) == path` for an absolute path. -/
def isClean (path : String) : Bool :=
  path == "/" || ((path.toList.drop 1).splitOn '/').all fun part => part != [] && part != ['.'] && part != ['.', '.']

def validatePrepared (value : PreparedImage) : Option String :=
  if ¬isAbs value.path ∨ ¬isClean value.path ∨ value.path.toList.any (fun c => c == '\x00' || c == '\n' || c == '\r') then
    some "storage image path must be absolute and canonical"
  else if ¬identityRE value.imageID ∨ ¬uuidRE value.filesystemUUID then
    some "invalid image identity or filesystem UUID"
  else if ¬digestRE value.sha256 then some "storage image digest is malformed"
  else if value.sizeBytes < 64 * 2 ^ 20 ∨ value.sizeBytes > 16 * 2 ^ 30 ∨ value.sizeBytes % 4096 ≠ 0 ∨
      value.quotaBytes ≠ value.sizeBytes then
    some "image size must be aligned, bounded by, and equal to its enforced quota"
  else if value.inodeLimit < 128 ∨ value.inodeLimit > 2097152 ∨ value.port < 1024 ∨ value.port > 65535 then
    some "inode limit and non-privileged export port are required"
  else none

def validateExport (value : Export) : Option String :=
  if value.peerCID = 0xffffffff ∨ (value.state ≠ .released ∧ ¬validPeerCID value.peerCID) then
    some "storage peer CID is absent or reserved"
  else if ¬identityRE value.sandboxID ∨ ¬generationRE value.sandboxGeneration ∨ ¬generationRE value.exportGeneration then
    some "storage key, owner, or generation is invalid"
  else match validatePrepared value.image with
  | some e => some e
  | none =>
    if value.imageIdentity.device = 0 ∨ value.imageIdentity.inode = 0 then
      some "storage image inode identity is absent"
    else if value.createdAt = 0 ∨ value.updatedAt < value.createdAt then some "storage timestamps are invalid"
    else if value.state ≠ .released then
      if value.releasedAt ≠ 0 ∨ value.offlineCheck ≠ "" ∨ value.counters ≠ {} then
        some "unreleased storage state contains release results"
      else none
    else if value.releasedAt = 0 ∨ value.releasedAt ≠ value.updatedAt ∨ ¬offlineCheckRE value.offlineCheck then
      some "released storage state has invalid completion evidence"
    else none

/-- The claim two live exports make on one resource. -/
def Export.conflict (a b : Export) : Option String :=
  if a.image.path = b.image.path then some "path"
  else if a.image.port = b.image.port then some "port"
  else if a.image.filesystemUUID = b.image.filesystemUUID then some "filesystem UUID"
  else if a.sandboxID = b.sandboxID then some "sandbox owner"
  else if a.peerCID = b.peerCID then some "peer CID"
  else none

/-- The loop of `validateDiskState`; `live` holds the claims made so far. -/
def validateExports : List Export → List Export → Option String
  | [], _ => none
  | value :: values, live =>
    match validateExport value with
    | some e => some ("invalid durable storage export \"" ++ value.sandboxID ++ "\\x00" ++ value.sandboxGeneration ++
        "\": " ++ e)
    | none =>
      if value.state = .released then validateExports values live
      else match live.findSome? value.conflict with
      | some label => some ("live storage " ++ label ++ " is allocated by multiple records")
      | none => validateExports values (value :: live)

/-! ## The store -/

/-- The exports by `exportKey`. -/
abbrev Exports := AList fun _ : String × String => Export

def exportKey (id generation : String) : String × String := (id, generation)

def Exports.values (x : Exports) : List Export := x.entries.map (·.2)

def validateDiskState (x : Exports) : Option String := validateExports x.values []

def validTransition (previous next : Export) : Bool :=
  if previous.sandboxID ≠ next.sandboxID ∨ previous.sandboxGeneration ≠ next.sandboxGeneration ∨
      previous.peerCID ≠ next.peerCID ∨ previous.exportGeneration ≠ next.exportGeneration ∨
      previous.image ≠ next.image ∨ previous.createdAt ≠ next.createdAt ∨ next.updatedAt < previous.updatedAt then
    false
  else previous.state == next.state || (previous.state == .preparing && next.state == .active) ||
    (previous.state == .active && next.state == .quiescing) || (previous.state == .quiescing && next.state == .released)

/-- Order of `List`: by sandbox, then by generation. -/
def Export.le (a b : Export) : Bool :=
  if a.sandboxID = b.sandboxID then a.sandboxGeneration ≤ b.sandboxGeneration else a.sandboxID ≤ b.sandboxID

/-- `Put`; `err` is a failing write, which leaves the state as it was. -/
def Exports.put (x : Exports) (value : Export) (err : Option Err) : Exports × Option Err :=
  let key := exportKey value.sandboxID value.sandboxGeneration
  match validateExport value with
  | some e => (x, some { text := e })
  | none =>
    if x.lookup key = none ∧ value.state ≠ .preparing then
      (x, some { text := "new storage ownership must begin in PREPARING" })
    else if (x.lookup key).any fun previous => !validTransition previous value then
      (x, some { text := "storage identity or state transition is invalid" })
    else match validateDiskState (x.insert key value) with
    | some e => (x, some { text := e })
    | none =>
      match err with
      | some e => (x, some e)
      | none => (x.insert key value, none)

inductive ExportCall where
  | get (id generation : String)
  | list
  | put (value : Export)

def ExportCall.Reply : ExportCall → Type
  | .get _ _ => Option Export
  | .list => List Export
  | .put _ => Option Err

def Exports.call (x : Exports) (err : Option Err) : (c : ExportCall) → Exports × c.Reply
  | .get id generation => (x, x.lookup (exportKey id generation))
  | .list => (x, x.values.insertionSort (fun a b => a.le b))
  | .put value => x.put value err

end Multikernel
