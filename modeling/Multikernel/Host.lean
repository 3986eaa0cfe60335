import Multikernel.Lib.Logic
import Multikernel.State.Store
import Multikernel.Storage.Backend
import Multikernel.Kerf.Backend
/-!
# The daemon's host

Everything the lifecycle and storage services reach from their code: the two
stores, the two backends, the boot artifacts, the clock, the random source,
the request context, the locks, and the service's one variable `poolReady`.
`World` is the state of it all, `Answer` what the environment decides in one
call, `step` what the call does.

A kernel call takes no context: its context only decides which error it fails
with, and a call may fail with any.
-/

namespace Multikernel
open Lib

/-- `lifecycle.Artifacts`; `verifies` says whether it has
`VerifyPreparedInitramfs`. -/
structure Artifacts where
  kernel : String := ""
  initrd : String := ""
  cmdline : String := ""
  kernelFile : Option File := none
  initrdFile : Option File := none
  manifestSHA256 : String := ""
  verifies : Bool := false
  deriving DecidableEq, Repr

/-- The artifact resolver, and the prepared boot resolver of the rootfs
service. `close` closes the files of an artifact set or of a prepared boot. -/
inductive ArtifactCall where
  | resolve (manifest : String)
  | close (files : List File)
  | openPreparedBoot (bundle : String) (storage : Option StorageConfig) (manifestSHA256 : String)
  | verifyPreparedInitramfs (archive : File)

def ArtifactCall.Reply : ArtifactCall → Type
  | .resolve _ => Except Err Artifacts
  | .close _ => Option Err
  | .openPreparedBoot _ _ _ => Except Err (File × File)
  | .verifyPreparedInitramfs _ => Option Err

/-- The mutexes: the allocation lock, a sandbox's lock, the storage service's. -/
inductive Lock where
  | global
  | sandbox (id : String)
  | storage
  deriving DecidableEq, Repr

/-- `context.Context`: the request's, or one `context.WithoutCancel` made. -/
inductive Ctx where
  | request | detached
  deriving DecidableEq, Repr

/-- `hostcheck.Check` at startup: whether an idle pool is left to recover, and
whether the host passes `validatePoolReport`. -/
structure HostReport where
  recoverableIdlePool : Bool := false
  policy : Option Err := none

/-- Calls that change nothing a service keeps. -/
inductive EnvCall where
  | lock (l : Lock)
  | unlock (l : Lock)
  | ctxErr
  | checkpoint (point : String)
  | generation
  | now
  | hostCheck

def EnvCall.Reply : EnvCall → Type
  | .lock _ | .unlock _ => Unit
  | .ctxErr | .checkpoint _ => Option Err
  | .generation => Except Err String
  | .now => Nat
  | .hostCheck => HostReport

inductive Call where
  | env (c : EnvCall)
  | poolReady
  | setPoolReady (ready : Bool)
  | store (c : StoreCall)
  | exports (c : ExportCall)
  | kerf (c : KerfCall)
  | server (c : ServerCall)
  | artifacts (c : ArtifactCall)

def Call.Reply : Call → Type
  | .env c => c.Reply
  | .poolReady => Bool
  | .setPoolReady _ => Unit
  | .store c => c.Reply
  | .exports c => c.Reply
  | .kerf c => c.Reply
  | .server c => c.Reply
  | .artifacts c => c.Reply

/-- What the environment decides in a call. Each call reads the fields it
needs; by default it works. -/
structure Answer where
  err : Option Err := none
  write : Write := .done
  state : Option State := none
  instances : Option (List String) := none
  observation : Option Observation := none
  identity : ImageIdentity := ⟨1, 1⟩
  check : String := "e2fsck-clean-sha256:0000000000000000000000000000000000000000000000000000000000000000"
  artifacts : Artifacts := {}
  files : File × File := (3, 4)
  report : HostReport := {}
  entropy : Nat := 0
  time : Nat := 1

/-- `observed` is a history variable: what the running operation last observed
of each instance. -/
structure World where
  store : Store
  exports : Exports
  servers : Servers
  kernel : Kernel
  poolReady : Bool
  ctx : Option Err
  observed : Table State

def World.init : World := ⟨.empty, ∅, ∅, .empty, false, none, ∅⟩

def observedAfter (w : World) : (c : KerfCall) → c.Reply → Table State
  | .observe id, .ok s => w.observed.insert id s
  | .observe id, .error _ => w.observed.erase id
  | _, _ => w.observed

/-- A call that changes nothing but the context's state. -/
def envStep (w : World) (a : Answer) : (c : EnvCall) → World × c.Reply
  | .lock _ | .unlock _ => (w, ())
  | .ctxErr => ({ w with ctx := w.ctx <|> a.err }, w.ctx <|> a.err)
  | .checkpoint _ => (w, a.err)
  | .generation =>
    (w, match a.err with
      | none => .ok (hexGeneration a.entropy)
      | some e => .error e)
  | .now => (w, a.time)
  | .hostCheck => (w, a.report)

def artifactReply (a : Answer) : (c : ArtifactCall) → c.Reply
  | .resolve _ =>
    match a.err with
    | none => .ok a.artifacts
    | some e => .error e
  | .close _ => a.err
  | .openPreparedBoot _ _ _ =>
    match a.err with
    | none => .ok a.files
    | some e => .error e
  | .verifyPreparedInitramfs _ => a.err

def step (w : World) (c : Call) (a : Answer) : World × c.Reply :=
  match c with
  | .env c => envStep w a c
  | .poolReady => (w, w.poolReady)
  | .setPoolReady ready => ({ w with poolReady := ready }, ())
  | .store c =>
    let r := w.store.call a.time a.write a.err c
    ({ w with store := r.1 }, r.2)
  | .exports c =>
    let r := w.exports.call a.err c
    ({ w with exports := r.1 }, r.2)
  | .kerf c =>
    let r := w.kernel.call a.err a.state a.instances c
    ({ w with kernel := r.1, observed := observedAfter w c r.2 }, r.2)
  | .server c =>
    let r := w.servers.call a.err a.identity a.observation a.check c
    ({ w with servers := r.1 }, r.2)
  | .artifacts c => (w, artifactReply a c)

abbrev HostI : Interface := ⟨Call, Call.Reply⟩

abbrev Host : Machine HostI := ⟨World, Answer, step⟩

/-- What may answer a call in a world. -/
abbrev Env := World → Call → Answer → Prop

/-- A program of the daemon. -/
abbrev Act := Prog HostI

/-! ## The calls -/

def perform (c : Call) : Act c.Reply := Prog.perform (I := HostI) c

def lock (l : Lock) : Act Unit := perform (.env (.lock l))

def unlock (l : Lock) : Act Unit := perform (.env (.unlock l))

/-- Run `p` with `l` held. -/
def withLock {α : Type} (l : Lock) (p : Act α) : Act α := do
  lock l
  let r ← p
  unlock l
  return r

def ctxErr : Act (Option Err) := perform (.env .ctxErr)

/-- `ctx.Err()`. -/
def Ctx.err : Ctx → Act (Option Err)
  | .request => ctxErr
  | .detached => return none

def checkpoint (point : String) : Act (Option Err) := perform (.env (.checkpoint point))

/-- `generation()`. -/
def generation : Act (Except Err String) := perform (.env .generation)

/-- `time.Now().UTC()`. -/
def now : Act Nat := perform (.env .now)

/-- The variable `poolReady` of the service. -/
def poolReady : Act Bool := perform .poolReady

def setPoolReady (ready : Bool) : Act Unit := perform (.setPoolReady ready)

def hostCheck : Act HostReport := perform (.env .hostCheck)

/-! ### `statepkg.Store` -/

namespace store

def result (key : String) : Act (Option IdempotentResult) := perform (.store (.result key))

def sandbox (id : String) : Act (Option Sandbox) := perform (.store (.sandbox id))

def snapshot : Act Snapshot := perform (.store .snapshot)

def journalEntries : Act (Except Err (List JournalEntry)) := perform (.store .journalEntries)

def append (e : JournalEntry) : Act (Option Err) := perform (.store (.append e))

def change (ch : Change) : Act (Option Err) := perform (.store (.change ch))

abbrev commit (sb : Sandbox) (key : String) (fp : Fingerprint) (r : MutationResult) : Act (Option Err) :=
  change (.commit sb key fp r)

abbrev commitFailure (sb : Sandbox) (key : String) (fp : Fingerprint) (failure : Error) : Act (Option Err) :=
  change (.commitFailure sb key fp failure)

abbrev tombstone (key : String) (fp : Fingerprint) (failure : Error) : Act (Option Err) :=
  change (.tombstone key fp failure)

abbrev abortCreate (id key : String) (fp : Fingerprint) (failure : Error) : Act (Option Err) :=
  change (.abortCreate id key fp failure)

abbrev setSandbox (sb : Sandbox) : Act (Option Err) := change (.setSandbox sb)

abbrev removeSandbox (id : String) : Act (Option Err) := change (.removeSandbox id)

end store

/-! ### `kerf.Backend` -/

namespace backend

def ensurePool : Act (Option Err) := perform (.kerf .ensurePool)

def releasePool : Act (Option Err) := perform (.kerf .releasePool)

def act (op : KerfOp) (sb : Sandbox) : Act (Option Err) := perform (.kerf (.act op sb))

abbrev create (sb : Sandbox) : Act (Option Err) := act .create sb

abbrev load (sb : Sandbox) (kernel initrd cmdline : String) (files : LoadFiles) : Act (Option Err) :=
  act (.load kernel initrd cmdline files) sb

abbrev start (sb : Sandbox) : Act (Option Err) := act .start sb

abbrev stop (sb : Sandbox) : Act (Option Err) := act .stop sb

abbrev delete (sb : Sandbox) : Act (Option Err) := act .delete sb

def observe (id : String) : Act (Except Err State) := perform (.kerf (.observe id))

def listInstances : Act (Except Err (List String)) := perform (.kerf .listInstances)

end backend

/-! ### `storage.Store` -/

namespace exports

def get (id generation : String) : Act (Option Export) := perform (.exports (.get id generation))

def list : Act (List Export) := perform (.exports .list)

def put (value : Export) : Act (Option Err) := perform (.exports (.put value))

end exports

/-! ### `storage.Backend` -/

namespace server

def inspect (image : PreparedImage) : Act (Except Err ImageIdentity) := perform (.server (.inspect image))

def inspectCurrent (image : PreparedImage) : Act (Except Err ImageIdentity) :=
  perform (.server (.inspectCurrent image))

def start (value : Export) : Act (Option Err) := perform (.server (.start value))

def observe (value : Export) : Act (Except Err Observation) := perform (.server (.observe value))

def stop (value : Export) : Act (Except Err Counters) := perform (.server (.stop value))

def offlineCheck (value : Export) : Act (Except Err String) := perform (.server (.offlineCheck value))

end server

/-! ### The artifact resolvers -/

namespace resolver

def resolve (manifest : String) : Act (Except Err Artifacts) := perform (.artifacts (.resolve manifest))

def close (files : List File) : Act (Option Err) := perform (.artifacts (.close files))

def openPreparedBoot (bundle : String) (storage : Option StorageConfig) (manifestSHA256 : String) :
    Act (Except Err (File × File)) :=
  perform (.artifacts (.openPreparedBoot bundle storage manifestSHA256))

def verifyPreparedInitramfs (archive : File) : Act (Option Err) :=
  perform (.artifacts (.verifyPreparedInitramfs archive))

end resolver

/-! ## The rule of each call -/

section Rules
variable {S : Type} {T : Trans HostI S} {G : S → Call → Prop} {s : S} {Q : Option Err → S → Prop}

@[simp] theorem sat_lock {l : Lock} {Q : Unit → S → Prop} :
    Sat T G (lock l) s Q ↔ G s (.env (.lock l)) ∧ ∀ (r : Unit) s', T s (.env (.lock l)) r s' → Q r s' :=
  Iff.rfl

@[simp] theorem sat_unlock {l : Lock} {Q : Unit → S → Prop} :
    Sat T G (unlock l) s Q ↔ G s (.env (.unlock l)) ∧ ∀ (r : Unit) s', T s (.env (.unlock l)) r s' → Q r s' :=
  Iff.rfl

@[simp] theorem sat_ctxErr :
    Sat T G ctxErr s Q ↔ G s (.env .ctxErr) ∧ ∀ (r : Option Err) s', T s (.env .ctxErr) r s' → Q r s' :=
  Iff.rfl

@[simp] theorem sat_checkpoint {point : String} :
    Sat T G (checkpoint point) s Q ↔
      G s (.env (.checkpoint point)) ∧ ∀ (r : Option Err) s', T s (.env (.checkpoint point)) r s' → Q r s' :=
  Iff.rfl

@[simp] theorem sat_generation {Q : Except Err String → S → Prop} :
    Sat T G generation s Q ↔ G s (.env .generation) ∧ ∀ (r : Except Err String) s', T s (.env .generation) r s' → Q r s' :=
  Iff.rfl

@[simp] theorem sat_now {Q : Nat → S → Prop} :
    Sat T G now s Q ↔ G s (.env .now) ∧ ∀ (r : Nat) s', T s (.env .now) r s' → Q r s' :=
  Iff.rfl

@[simp] theorem sat_poolReady {Q : Bool → S → Prop} :
    Sat T G poolReady s Q ↔ G s .poolReady ∧ ∀ (r : Bool) s', T s .poolReady r s' → Q r s' :=
  Iff.rfl

@[simp] theorem sat_setPoolReady {ready : Bool} {Q : Unit → S → Prop} :
    Sat T G (setPoolReady ready) s Q ↔
      G s (.setPoolReady ready) ∧ ∀ (r : Unit) s', T s (.setPoolReady ready) r s' → Q r s' :=
  Iff.rfl

@[simp] theorem sat_hostCheck {Q : HostReport → S → Prop} :
    Sat T G hostCheck s Q ↔ G s (.env .hostCheck) ∧ ∀ (r : HostReport) s', T s (.env .hostCheck) r s' → Q r s' :=
  Iff.rfl

@[simp] theorem sat_store_result {key : String} {Q : Option IdempotentResult → S → Prop} :
    Sat T G (store.result key) s Q ↔
      G s (.store (.result key)) ∧ ∀ (r : Option IdempotentResult) s', T s (.store (.result key)) r s' → Q r s' :=
  Iff.rfl

@[simp] theorem sat_store_sandbox {id : String} {Q : Option Sandbox → S → Prop} :
    Sat T G (store.sandbox id) s Q ↔
      G s (.store (.sandbox id)) ∧ ∀ (r : Option Sandbox) s', T s (.store (.sandbox id)) r s' → Q r s' :=
  Iff.rfl

@[simp] theorem sat_store_snapshot {Q : Snapshot → S → Prop} :
    Sat T G store.snapshot s Q ↔
      G s (.store .snapshot) ∧ ∀ (r : Snapshot) s', T s (.store .snapshot) r s' → Q r s' :=
  Iff.rfl

@[simp] theorem sat_store_journalEntries {Q : Except Err (List JournalEntry) → S → Prop} :
    Sat T G store.journalEntries s Q ↔
      G s (.store .journalEntries) ∧
        ∀ (r : Except Err (List JournalEntry)) s', T s (.store .journalEntries) r s' → Q r s' :=
  Iff.rfl

@[simp] theorem sat_store_append {e : JournalEntry} :
    Sat T G (store.append e) s Q ↔
      G s (.store (.append e)) ∧ ∀ (r : Option Err) s', T s (.store (.append e)) r s' → Q r s' :=
  Iff.rfl

@[simp] theorem sat_store_change {ch : Change} :
    Sat T G (store.change ch) s Q ↔
      G s (.store (.change ch)) ∧ ∀ (r : Option Err) s', T s (.store (.change ch)) r s' → Q r s' :=
  Iff.rfl

@[simp] theorem sat_backend_ensurePool :
    Sat T G backend.ensurePool s Q ↔
      G s (.kerf .ensurePool) ∧ ∀ (r : Option Err) s', T s (.kerf .ensurePool) r s' → Q r s' :=
  Iff.rfl

@[simp] theorem sat_backend_releasePool :
    Sat T G backend.releasePool s Q ↔
      G s (.kerf .releasePool) ∧ ∀ (r : Option Err) s', T s (.kerf .releasePool) r s' → Q r s' :=
  Iff.rfl

@[simp] theorem sat_backend_act {op : KerfOp} {sb : Sandbox} :
    Sat T G (backend.act op sb) s Q ↔
      G s (.kerf (.act op sb)) ∧ ∀ (r : Option Err) s', T s (.kerf (.act op sb)) r s' → Q r s' :=
  Iff.rfl

@[simp] theorem sat_backend_observe {id : String} {Q : Except Err State → S → Prop} :
    Sat T G (backend.observe id) s Q ↔
      G s (.kerf (.observe id)) ∧ ∀ (r : Except Err State) s', T s (.kerf (.observe id)) r s' → Q r s' :=
  Iff.rfl

@[simp] theorem sat_backend_listInstances {Q : Except Err (List String) → S → Prop} :
    Sat T G backend.listInstances s Q ↔
      G s (.kerf .listInstances) ∧ ∀ (r : Except Err (List String)) s', T s (.kerf .listInstances) r s' → Q r s' :=
  Iff.rfl

@[simp] theorem sat_exports_get {id generation : String} {Q : Option Export → S → Prop} :
    Sat T G (exports.get id generation) s Q ↔
      G s (.exports (.get id generation)) ∧
        ∀ (r : Option Export) s', T s (.exports (.get id generation)) r s' → Q r s' :=
  Iff.rfl

@[simp] theorem sat_exports_list {Q : List Export → S → Prop} :
    Sat T G exports.list s Q ↔
      G s (.exports .list) ∧ ∀ (r : List Export) s', T s (.exports .list) r s' → Q r s' :=
  Iff.rfl

@[simp] theorem sat_exports_put {value : Export} :
    Sat T G (exports.put value) s Q ↔
      G s (.exports (.put value)) ∧ ∀ (r : Option Err) s', T s (.exports (.put value)) r s' → Q r s' :=
  Iff.rfl

@[simp] theorem sat_server_inspect {image : PreparedImage} {Q : Except Err ImageIdentity → S → Prop} :
    Sat T G (server.inspect image) s Q ↔
      G s (.server (.inspect image)) ∧
        ∀ (r : Except Err ImageIdentity) s', T s (.server (.inspect image)) r s' → Q r s' :=
  Iff.rfl

@[simp] theorem sat_server_inspectCurrent {image : PreparedImage} {Q : Except Err ImageIdentity → S → Prop} :
    Sat T G (server.inspectCurrent image) s Q ↔
      G s (.server (.inspectCurrent image)) ∧
        ∀ (r : Except Err ImageIdentity) s', T s (.server (.inspectCurrent image)) r s' → Q r s' :=
  Iff.rfl

@[simp] theorem sat_server_start {value : Export} :
    Sat T G (server.start value) s Q ↔
      G s (.server (.start value)) ∧ ∀ (r : Option Err) s', T s (.server (.start value)) r s' → Q r s' :=
  Iff.rfl

@[simp] theorem sat_server_observe {value : Export} {Q : Except Err Observation → S → Prop} :
    Sat T G (server.observe value) s Q ↔
      G s (.server (.observe value)) ∧
        ∀ (r : Except Err Observation) s', T s (.server (.observe value)) r s' → Q r s' :=
  Iff.rfl

@[simp] theorem sat_server_stop {value : Export} {Q : Except Err Counters → S → Prop} :
    Sat T G (server.stop value) s Q ↔
      G s (.server (.stop value)) ∧ ∀ (r : Except Err Counters) s', T s (.server (.stop value)) r s' → Q r s' :=
  Iff.rfl

@[simp] theorem sat_server_offlineCheck {value : Export} {Q : Except Err String → S → Prop} :
    Sat T G (server.offlineCheck value) s Q ↔
      G s (.server (.offlineCheck value)) ∧
        ∀ (r : Except Err String) s', T s (.server (.offlineCheck value)) r s' → Q r s' :=
  Iff.rfl

@[simp] theorem sat_resolver_resolve {manifest : String} {Q : Except Err Artifacts → S → Prop} :
    Sat T G (resolver.resolve manifest) s Q ↔
      G s (.artifacts (.resolve manifest)) ∧
        ∀ (r : Except Err Artifacts) s', T s (.artifacts (.resolve manifest)) r s' → Q r s' :=
  Iff.rfl

@[simp] theorem sat_resolver_close {files : List File} :
    Sat T G (resolver.close files) s Q ↔
      G s (.artifacts (.close files)) ∧ ∀ (r : Option Err) s', T s (.artifacts (.close files)) r s' → Q r s' :=
  Iff.rfl

@[simp] theorem sat_resolver_openPreparedBoot {bundle : String} {storage : Option StorageConfig} {manifestSHA256 : String}
    {Q : Except Err (File × File) → S → Prop} :
    Sat T G (resolver.openPreparedBoot bundle storage manifestSHA256) s Q ↔
      G s (.artifacts (.openPreparedBoot bundle storage manifestSHA256)) ∧
        ∀ (r : Except Err (File × File)) s', T s (.artifacts (.openPreparedBoot bundle storage manifestSHA256)) r s' → Q r s' :=
  Iff.rfl

@[simp] theorem sat_resolver_verifyPreparedInitramfs {archive : File} :
    Sat T G (resolver.verifyPreparedInitramfs archive) s Q ↔
      G s (.artifacts (.verifyPreparedInitramfs archive)) ∧
        ∀ (r : Option Err) s', T s (.artifacts (.verifyPreparedInitramfs archive)) r s' → Q r s' :=
  Iff.rfl

@[simp] theorem sat_withLock {α : Type} {l : Lock} {p : Act α} {Q : α → S → Prop} :
    Sat T G (withLock l p) s Q ↔
      G s (.env (.lock l)) ∧ ∀ (r : Unit) s', T s (.env (.lock l)) r s' → Sat T G p s' fun a t =>
        G t (.env (.unlock l)) ∧ ∀ (r' : Unit) t', T t (.env (.unlock l)) r' t' → Q a t' := by
  simp [withLock]

end Rules

end Multikernel
