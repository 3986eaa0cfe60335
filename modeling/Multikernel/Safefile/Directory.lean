import Multikernel.Lib.Logic
/-!
# Replacing and removing a file by its identity

`Directory.ReplaceIdentity` and `RemoveIfIdentity` of
`runtime/internal/safefile/directory_linux.go`, call by call, on a directory
that maps names to inodes. Every call can fail without effect, and before each
of them other processes may change the directory.

Names are kept apart by what they are for. The private ones, of a temporary file
and of a file under removal, are drawn from 64 random bits and from a digest in
the source.
-/

namespace Multikernel.Safefile
open Lib

/-! ## The directory -/

inductive Name where
  | file (name : String)
  /-- `.NAME.exchange.RANDOM`. -/
  | exchange (name : Name) (random : Nat)
  /-- `removalQuarantine`: `.mklinux-remove-DIGEST-DEVICE-INODE`. -/
  | removal (name : Name) (inode : Nat)
  deriving DecidableEq, Repr

/-- What `SameObject` compares: the inode, and its owner, mode and link count. -/
structure Identity where
  inode : Nat
  attrs : Nat
  deriving DecidableEq, Repr

inductive Errno where
  | noent | exist
  | other
  deriving DecidableEq, Repr

/-- Every inode in use is below `next`. `created` and `unlinked` are history
variables: the inodes that the calls of this process have made, and those they
have unlinked. -/
structure Directory where
  entries : Name → Option Nat
  attrs : Nat → Nat
  contents : Nat → String
  next : Nat
  created : List Nat := []
  unlinked : List Nat := []

namespace Directory

def set (d : Directory) (name : Name) (entry : Option Nat) : Directory :=
  { d with entries := fun n => if n = name then entry else d.entries n }

def identity (d : Directory) (inode : Nat) : Identity := ⟨inode, d.attrs inode⟩

@[simp] theorem set_self (d : Directory) (name : Name) (entry : Option Nat) : (d.set name entry).entries name = entry := by
  simp [set]

theorem set_of_ne (d : Directory) {name n : Name} (entry : Option Nat) (h : n ≠ name) :
    (d.set name entry).entries n = d.entries n := by
  simp [set, h]

@[simp] theorem set_created (d : Directory) (name : Name) (entry : Option Nat) : (d.set name entry).created = d.created := rfl

@[simp] theorem set_unlinked (d : Directory) (name : Name) (entry : Option Nat) : (d.set name entry).unlinked = d.unlinked :=
  rfl

@[simp] theorem set_identity (d : Directory) (name : Name) (entry : Option Nat) (i : Nat) :
    (d.set name entry).identity i = d.identity i := rfl

end Directory

/-! ## System calls -/

/-- The places of the two functions that make a call. -/
inductive Point where
  | verify | random | create | write | chmod | sync | fstat | close
  | publish | check | exchange | statOld | statInstalled | exchangeBack | discard | syncDirectory
  | statQuarantine | statName | quarantine | statMoved | restore | openQuarantine | fstatQuarantine | closeQuarantine
  | statAgain | unlink | statGone | syncRemoval | statEntry
  deriving DecidableEq, Repr

inductive Sys where
  /-- What a caller checks before it uses the directory. -/
  | verify
  | random
  /-- `openat` with `O_CREAT|O_EXCL`. -/
  | create (name : Name)
  | write (inode : Nat) (data : String)
  | chmod (inode : Nat)
  | fsync (inode : Nat)
  | fstat (inode : Nat)
  | close (inode : Nat)
  | stat (name : Name)
  /-- `renameat2` with `RENAME_NOREPLACE`. -/
  | rename (source target : Name)
  /-- `renameat2` with `RENAME_EXCHANGE`. -/
  | exchange (a b : Name)
  | openPath (name : Name)
  | unlink (name : Name)
  | syncDirectory
  deriving DecidableEq, Repr

def Sys.Reply : Sys → Type
  | .random | .create _ | .openPath _ => Except Errno Nat
  | .fstat _ | .stat _ => Except Errno Identity
  | _ => Option Errno

def Sys.failure (e : Errno) : (s : Sys) → s.Reply
  | .random | .create _ | .openPath _ | .fstat _ | .stat _ => .error e
  | .verify | .write _ _ | .chmod _ | .fsync _ | .close _ | .rename _ _ | .exchange _ _ | .unlink _ | .syncDirectory => some e

/-- What the environment decides in a call: what another process has put at a
name before it and made of the attributes, and whether the call fails. -/
structure Answer where
  meddle : Option (Name × Option Nat) := none
  attrs : Option (Nat → Nat) := none
  fails : Option Errno := none
  random : Nat := 0

/-- Another process at work. -/
def Directory.meddled (d : Directory) (a : Answer) : Directory :=
  let d := match a.meddle with
    | none => d
    | some (name, entry) => { d.set name entry with next := max d.next ((entry.map (· + 1)).getD 0) }
  { d with attrs := a.attrs.getD d.attrs }

/-- A call that works as far as the directory lets it. -/
def sysStep (d : Directory) (a : Answer) : (s : Sys) → Directory × s.Reply
  | .verify | .chmod _ | .fsync _ | .close _ | .syncDirectory => (d, none)
  | .random => (d, .ok a.random)
  | .create name =>
    match d.entries name with
    | some _ => (d, .error .exist)
    | none => ({ d.set name (some d.next) with next := d.next + 1, created := d.next :: d.created }, .ok d.next)
  | .write inode data => ({ d with contents := fun i => if i = inode then data else d.contents i }, none)
  | .fstat inode => (d, .ok (d.identity inode))
  | .stat name =>
    match d.entries name with
    | none => (d, .error .noent)
    | some inode => (d, .ok (d.identity inode))
  | .rename source target =>
    match d.entries source, d.entries target with
    | none, _ => (d, some .noent)
    | some _, some _ => (d, some .exist)
    | some inode, none => ((d.set source none).set target (some inode), none)
  | .exchange a b =>
    match d.entries a, d.entries b with
    | some i, some j => ((d.set a (some j)).set b (some i), none)
    | _, _ => (d, some .noent)
  | .openPath name =>
    match d.entries name with
    | none => (d, .error .noent)
    | some inode => (d, .ok inode)
  | .unlink name =>
    match d.entries name with
    | none => (d, some .noent)
    | some inode => ({ d.set name none with unlinked := inode :: d.unlinked }, none)

abbrev Call := Point × Sys

def step (d : Directory) (c : Call) (a : Answer) : Directory × c.2.Reply :=
  match a.fails with
  | some e => (d.meddled a, c.2.failure e)
  | none => sysStep (d.meddled a) a c.2

abbrev FsI : Interface := ⟨Call, fun c => c.2.Reply⟩

abbrev Fs : Machine FsI := ⟨Directory, Answer, step⟩

abbrev Act := Prog FsI

def perform (p : Point) (s : Sys) : Act s.Reply := Prog.perform (I := FsI) (p, s)

/-! ## `RemoveIfIdentity` -/

/-- `err == nil && SameObject(current, expected)`. -/
def same (r : Except Errno Identity) (expected : Identity) : Bool :=
  match r with
  | .ok current => current == expected
  | .error _ => false

/-- `RemoveIfIdentity` once the file is under its private name. -/
def removeQuarantined (name : Name) (expected : Identity) : Act (Except String Bool) := do
  let quarantine := Name.removal name expected.inode
  match ← perform .openQuarantine (.openPath quarantine) with
  | .error _ => return .error "open"
  | .ok inode =>
    let opened ← perform .fstatQuarantine (.fstat inode)
    let closeErr ← perform .closeQuarantine (.close inode)
    if ¬same opened expected then
      return .error "opened removal quarantine has a conflicting identity"
    if closeErr.isSome then
      return .error "close"
    if ¬same (← perform .statAgain (.stat quarantine)) expected then
      return .error "removal quarantine changed before unlink"
    if (← perform .unlink (.unlink quarantine)).isSome then
      return .error "unlink"
    match ← perform .statGone (.stat name) with
    | .ok _ => return .error "file pathname was replaced during removal"
    | .error .noent =>
      if (← perform .syncRemoval .syncDirectory).isSome then
        return .error "sync"
      return .ok true
    | .error _ => return .error "stat"

/-- Move the file to its private name, and back if it is not the expected one. -/
def quarantineFile (name : Name) (expected : Identity) : Act (Except String Bool) := do
  let quarantine := Name.removal name expected.inode
  if (← perform .quarantine (.rename name quarantine)).isSome then
    return .error "rename"
  if ¬same (← perform .statMoved (.stat quarantine)) expected then
    let _ ← perform .restore (.rename quarantine name)
    return .error "file changed before removal quarantine"
  removeQuarantined name expected

def removeIfIdentity (name : Name) (expected : Identity) : Act (Except String Bool) := do
  if expected.inode = 0 then
    return .error "invalid identity-conditioned removal"
  match ← perform .statQuarantine (.stat (.removal name expected.inode)) with
  | .ok quarantined =>
    if quarantined ≠ expected then
      return .error "removal quarantine has a conflicting identity"
    removeQuarantined name expected
  | .error .noent =>
    match ← perform .statName (.stat name) with
    | .error .noent => return .ok false
    | .error _ => return .error "file identity changed before removal"
    | .ok current =>
      if current ≠ expected then
        return .error "file identity changed before removal"
      quarantineFile name expected
  | .error _ => return .error "stat"

/-! ## `ReplaceIdentity` -/

/-- A new private file under a random name. -/
def createTemporary (name : Name) : Nat → Act (Except String (Name × Nat))
  | 0 => return .error "could not allocate identity-bound replacement"
  | attempts + 1 => do
    match ← perform .random .random with
    | .error _ => return .error "random"
    | .ok random =>
      match ← perform .create (.create (.exchange name random)) with
      | .ok inode => return .ok (.exchange name random, inode)
      | .error .exist => createTemporary name attempts
      | .error _ => return .error "create"

def fillTemporary (inode : Nat) (data : String) : Act (Except String Identity) := do
  if (← perform .write (.write inode data)).isSome then
    return .error "write"
  if (← perform .chmod (.chmod inode)).isSome then
    return .error "chmod"
  if (← perform .sync (.fsync inode)).isSome then
    return .error "sync"
  match ← perform .fstat (.fstat inode) with
  | .error _ => return .error "stat"
  | .ok published => return .ok published

/-- The contents, mode and identity of the temporary file; it is closed whatever
happens. -/
def writeTemporary (inode : Nat) (data : String) : Act (Except String Identity) := do
  let filled ← fillTemporary inode data
  if (← perform .close (.close inode)).isSome then
    return .error "close"
  return filled

/-- Once the temporary and the public name have changed places. -/
def settleExchange (name temporary : Name) (published expected : Identity) : Act (Except String Identity × Bool) := do
  let old ← perform .statOld (.stat temporary)
  let installed ← perform .statInstalled (.stat name)
  if ¬same old expected ∨ ¬same installed published then
    let rollbackErr ← perform .exchangeBack (.exchange temporary name)
    return (.error "replacement target changed during exchange", rollbackErr.isNone)
  match ← removeIfIdentity temporary expected with
  | .ok true =>
    if (← perform .syncDirectory .syncDirectory).isSome then
      return (.error "sync", false)
    return (.ok published, false)
  | _ => return (.error "remove exchanged prior identity", false)

/-- Publish the temporary file. The second result is whether the deferred
function is to unlink its name. -/
def publishTemporary (name temporary : Name) (published : Identity) :
    Option Identity → Act (Except String Identity × Bool)
  | none => do
    if (← perform .publish (.rename temporary name)).isSome then
      return (.error "rename", true)
    if (← perform .syncDirectory .syncDirectory).isSome then
      return (.error "sync", false)
    return (.ok published, false)
  | some expected => do
    if ¬same (← perform .check (.stat name)) expected then
      return (.error "replacement target identity changed", true)
    if (← perform .exchange (.exchange temporary name)).isSome then
      return (.error "exchange", true)
    settleExchange name temporary published expected

/-- `ReplaceIdentity` once it has its temporary file. -/
def installTemporary (name temporary : Name) (inode : Nat) (data : String) (expected : Option Identity) :
    Act (Except String Identity × Bool) := do
  match ← writeTemporary inode data with
  | .error text => return (.error text, true)
  | .ok published => publishTemporary name temporary published expected

def replaceIdentity (name : Name) (data : String) (expected : Option Identity) : Act (Except String Identity) := do
  match ← createTemporary name 16 with
  | .error text => return .error text
  | .ok (temporary, inode) =>
    let (result, temporaryPresent) ← installTemporary name temporary inode data expected
    if temporaryPresent then
      let _ ← perform .discard (.unlink temporary)
    return result

end Multikernel.Safefile
