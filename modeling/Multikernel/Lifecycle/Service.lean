import Multikernel.Storage.Service
/-!
# The lifecycle service

`runtime/internal/lifecycle/service.go`: the requests of a sandbox's life.
`mutate` is their common frame: it journals an intent, runs the operation's
own steps (`fn`), observes the backend, commits the snapshot and journals the
completion. Every early return of the source is an early return here; a
crash is a run that stops before its next call.

`fn` gets the sandbox and returns it with its changes. The source journals a
pointer to the sandbox it works on, so a completion carries the sandbox as it
is when the completion is written.
-/

namespace Multikernel
open Lib

/-- The fields of `lifecycle.Service` that do not change while it serves:
which parts are configured, and the limits of the pool. -/
structure Service where
  artifacts : Artifacts := {}
  resolver : Bool := false
  preparedBoot : Bool := false
  storage : Bool := false
  inventory : Bool := false
  poolCPUs : List Int := []
  poolMemoryBytes : UInt64 := 0
  poolMemoryReserve : UInt64 := 0

/-- The answer to a request. -/
abbrev Response := Except Error MutationResult

/-- The sandboxes of a snapshot. -/
def Snapshot.list (d : Snapshot) : List Sandbox := d.sandboxes.entries.map (·.2)

def preparedStorage (value : StorageConfig) : PreparedImage :=
  { path := value.path, imageID := value.imageID, filesystemUUID := value.filesystemUUID, sizeBytes := value.sizeBytes,
    quotaBytes := value.quotaBytes, inodeLimit := value.inodeLimit, port := value.port, sha256 := value.sha256 }

def storageStatus (value : Export) : StorageStatus :=
  { exportGeneration := value.exportGeneration, state := value.state, offlineCheck := value.offlineCheck,
    reads := value.counters.reads, readBytes := value.counters.readBytes, writes := value.counters.writes,
    writtenBytes := value.counters.writtenBytes, flushes := value.counters.flushes, releasedAt := value.releasedAt }

namespace Service
variable (s : Service)

/-! ## Artifacts -/

def artifactsFor (manifest : String) : Act (Except Err Artifacts) := do
  if ¬s.resolver then
    return .ok s.artifacts
  match ← resolver.resolve manifest with
  | .error e => return .error e
  | .ok resolved => return .ok { resolved with cmdline := s.artifacts.cmdline }

/-- `Artifacts.Close`. -/
def closeArtifacts (a : Artifacts) : Act (Option Err) :=
  match a.kernelFile.toList ++ a.initrdFile.toList with
  | [] => return none
  | files => resolver.close files

def openPreparedBoot (config : SandboxConfig) (artifacts : Artifacts) : Act (Except Err (File × File)) := do
  match ← resolver.openPreparedBoot config.bundle config.storage artifacts.manifestSHA256 with
  | .error e => return .error e
  | .ok (directory, archive) =>
    if let some e ← (if artifacts.verifies then resolver.verifyPreparedInitramfs archive else return none) then
      let closed ← resolver.close [directory, archive]
      return .error ((Err.join [some e, closed]).getD e)
    return .ok (directory, archive)

/-! ## The pool -/

def ensurePool : Act (Option Err) := do
  if ← poolReady then
    return none
  if let some e ← backend.ensurePool then
    return some e
  setPoolReady true
  return none

def releasePool : Act (Option Err) := do
  if !(← poolReady) then
    return none
  if let some e ← backend.releasePool then
    return some e
  setPoolReady false
  return none

def releaseIdlePool : Act (Option Err) := withLock .global do
  let d ← store.snapshot
  if d.list.any fun sandbox => sandbox.state ≠ .absent then
    return none
  releasePool

/-! ## Storage -/

def provisionStorage (ctx : Ctx) (sandbox : Sandbox) : Act (Sandbox × Option Err) := do
  if ¬s.storage then
    return (sandbox, none)
  match sandbox.config.storage with
  | none => return (sandbox, some { text := "prepared storage identity is required" })
  | some image =>
    match ← Storage.provision ctx sandbox.id sandbox.generation sandbox.config.childCID (preparedStorage image) with
    | .error e => return (sandbox, some e)
    | .ok value =>
      if sandbox.storage.any fun status => status.exportGeneration ≠ value.exportGeneration then
        return (sandbox, some { text := "sandbox storage generation differs from durable export" })
      return ({ sandbox with storage := some (storageStatus value) }, none)

def releaseStorage (ctx : Ctx) (sandbox : Sandbox) : Act (Sandbox × Option Err) := do
  if ¬s.storage then
    return (sandbox, none)
  match sandbox.storage with
  | none => return (sandbox, some { text := "sandbox has no generation-bound storage export" })
  | some status =>
    if status.exportGeneration = "" then
      return (sandbox, some { text := "sandbox has no generation-bound storage export" })
    match ← Storage.release ctx sandbox.id sandbox.generation status.exportGeneration sandbox.config.childCID with
    | .error e => return (sandbox, some e)
    | .ok value => return ({ sandbox with storage := some (storageStatus value) }, none)

/-! ## The frame of every mutation -/

/-- A recorded result, returned again. -/
def replayed (old : IdempotentResult) : Response :=
  match old.outcome with
  | .error failure => .error failure
  | .ok r => .ok { r with replayed := true }

/-- `replay`: the recorded result of the key, if it has one. -/
def replay (key : String) (fp : Fingerprint) : Act (Option Response) := do
  if ¬printableASCII key 1 128 then
    return some (.error (apierr .invalidArgument "idempotency key must be 1-128 printable ASCII bytes" false))
  match ← store.result key with
  | none => return none
  | some old =>
    if old.fingerprint ≠ fp then
      return some (.error (apierr .idempotencyConflict "idempotency key has different input" false))
    return some (replayed old)

def failureCode (e : Err) : Code :=
  if e.unsafeSession then .operatorAction
  else if e.deadlineExceeded then .backendTimeout
  else .backendFailure

def failureMessage : Code → String
  | .backendTimeout => "backend operation timed out"
  | .operatorAction => "storage session requires operator action"
  | _ => "backend operation failed"

def persistenceFailed (op : String) : Error := operationError .internal "state persistence failed" true op

def injected (point op : String) : Error := operationError .internal ("injected crash " ++ point) true op

/-- The state a failed operation leaves its sandbox in. An unsafe storage
session keeps its claim even when the instance is gone. -/
def stateAfterFailure (method : Method) (code : Code) (sb : Sandbox) (observed : Except Err State) : State :=
  let state := match observed with
    | .ok actual => failureState method actual sb.state
    | .error _ => sb.state
  if code = .operatorAction ∧ state = .absent then .releasing else state

/-- `mutate` after `fn` failed with `e`. -/
def mutateFailed (method : Method) (key : String) (fp : Fingerprint) (intent : JournalEntry) (sb : Sandbox) (e : Err) :
    Act Response := do
  let op := intent.operationID
  let code := failureCode e
  let pe := operationError code (failureMessage code) (code ≠ .operatorAction) op
  let observed ← backend.observe sb.id
  let sb := { sb with state := stateAfterFailure method code sb observed }
  if let some _ ← store.append { intent with phase := .complete, error := some pe, state := sb.state, sandbox := some sb } then
    return .error (persistenceFailed op)
  let updatedAt ← now
  let sb := { sb with error := some pe, updatedAt }
  if let some _ ← (if code = .operatorAction then store.commitFailure sb key fp pe
      else if method = .createSandbox ∧ observed.toOption = some .absent then store.removeSandbox sb.id
      else store.setSandbox sb) then
    return .error (persistenceFailed op)
  return .error pe

/-- `mutate` after the backend did not confirm the state `fn` set. -/
def mutateUnconfirmed (intent : JournalEntry) (sb : Sandbox) : Act Response := do
  let op := intent.operationID
  let pe := operationError .backendFailure "backend state did not confirm operation" true op
  if let some _ ← store.append { intent with phase := .complete, error := some pe, sandbox := some sb } then
    return .error (persistenceFailed op)
  if let some _ ← store.setSandbox { sb with error := some pe } then
    return .error (persistenceFailed op)
  return .error pe

/-- `mutate` after the backend confirmed the state `fn` set. -/
def mutateConfirmed (key : String) (fp : Fingerprint) (intent : JournalEntry) (sb : Sandbox) : Act Response := do
  let op := intent.operationID
  if let some _ ← checkpoint "after-observation" then
    return .error (injected "after observation" op)
  let updatedAt ← now
  let sb := { sb with error := none, updatedAt }
  let result : MutationResult := ⟨sb, false⟩
  if let some _ ← checkpoint "before-snapshot" then
    return .error (injected "before snapshot" op)
  if let some _ ← store.commit sb key fp result then
    return .error (persistenceFailed op)
  if let some _ ← checkpoint "after-snapshot" then
    return .error (injected "after snapshot" op)
  if let some _ ← checkpoint "before-completion" then
    return .error (injected "before completion" op)
  if let some _ ← store.append { intent with phase := .complete, state := sb.state, sandbox := some sb } then
    return .error (persistenceFailed op)
  if let some _ ← checkpoint "after-completion" then
    return .error (injected "after completion" op)
  return .ok result

/-- `mutate` after `fn`, which left the sandbox as `sb`. -/
def mutateEnded (method : Method) (key : String) (fp : Fingerprint) (intent : JournalEntry) :
    Sandbox × Option Err → Act Response
  | (sb, some e) => mutateFailed method key fp intent sb e
  | (sb, none) => do
    if let some _ ← checkpoint "after-external-mutation" then
      return .error (injected "after external mutation" intent.operationID)
    match ← backend.observe sb.id with
    | .error _ => mutateUnconfirmed intent sb
    | .ok actual =>
      if stateMatches sb.state actual then mutateConfirmed key fp intent sb
      else mutateUnconfirmed intent sb

/-- `mutate` once its intent is journaled. -/
def mutateJournaled (method : Method) (key : String) (fp : Fingerprint) (intent : JournalEntry) (sb : Sandbox)
    (fn : Sandbox → Act (Sandbox × Option Err)) : Act Response := do
  let op := intent.operationID
  if let some _ ← checkpoint "after-intent" then
    return .error (injected "after intent" op)
  if let some _ ← checkpoint "before-external-mutation" then
    return .error (injected "before external mutation" op)
  mutateEnded method key fp intent (← fn sb)

/-- The intent of an operation on `sb`. -/
def intentOf (method : Method) (key : String) (fp : Fingerprint) (sb : Sandbox) (op : String) : JournalEntry :=
  { operationID := op, idempotencyKey := key, fingerprint := fp, sandboxID := sb.id, generation := sb.generation,
    method, phase := .intent, state := sb.state, sandbox := some sb }

/-- `mutate` as the operation `op`. -/
def mutateAs (method : Method) (key : String) (fp : Fingerprint) (sb : Sandbox)
    (fn : Sandbox → Act (Sandbox × Option Err)) (op : String) : Act Response := do
  if let some _ ← checkpoint "before-intent" then
    return .error (injected "before intent" op)
  if let some _ ← store.append (intentOf method key fp sb op) then
    return .error (persistenceFailed op)
  mutateJournaled method key fp (intentOf method key fp sb op) sb fn

def mutate (method : Method) (key : String) (fp : Fingerprint) (sb : Sandbox)
    (fn : Sandbox → Act (Sandbox × Option Err)) : Act Response := do
  if let some r ← replay key fp then
    return r
  mutateAs method key fp sb fn ((← generation).toOption.getD "")

/-! ## Cancelling a create -/

/-- The scan of `cancelCreateLocked`: the last create intent of the key and
whether it is complete, or an entry of the key with other input. -/
def scanCreate (c : SandboxConfig) (key : String) (fp : Fingerprint) :
    List JournalEntry → Option JournalEntry → Bool → Option (Option JournalEntry × Bool)
  | [], intent, completed => some (intent, completed)
  | entry :: entries, intent, completed =>
    if entry.method ≠ .createSandbox ∨ entry.idempotencyKey ≠ key then
      scanCreate c key fp entries intent completed
    else if entry.fingerprint ≠ fp ∨ entry.sandboxID ≠ c.id ∨ entry.sandbox.map (·.config) ≠ some c then none
    else if entry.phase = .intent then scanCreate c key fp entries (some entry) false
    else if intent.any fun i => entry.operationID == i.operationID then scanCreate c key fp entries intent true
    else scanCreate c key fp entries intent completed

/-- Complete the loads that depend on the cancelled create. -/
def cancelDependents (id : String) (state : State) : List JournalEntry → Act (Option Error)
  | [] => return none
  | pending :: rest => do
    if pending.sandboxID ≠ id ∨ pending.method = .createSandbox then
      cancelDependents id state rest
    else if pending.method ≠ .loadSandbox then
      return some (apierr .failedPrecondition "create cancellation found a non-load dependent operation" false)
    else
      if let some _ ← store.append { pending with
          phase := .complete
          state := state
          error := some ⟨.aborted, "operation canceled with its create", pending.operationID, false⟩ } then
        return some (apierr .internal "persist dependent create cancellation" true)
      cancelDependents id state rest

/-- Delete what the cancelled create left in the backend. -/
def cancelInstance (sandbox : Sandbox) (actual : State) : Act (Option Error) := do
  if actual ≠ .created then
    return none
  if let some _ ← backend.delete sandbox then
    return some (apierr .backendFailure "delete canceled create sandbox" true)
  match ← backend.observe sandbox.id with
  | .ok .absent => return none
  | _ => return some (apierr .backendFailure "canceled create deletion was not observed" true)

/-- Release the pool when the snapshot has at most one owner. -/
def cancelPool : Act (Option Error) := do
  let d ← store.snapshot
  if 1 < d.sandboxes.keys.length then
    return none
  if let some _ ← backend.releasePool then
    return some (apierr .backendFailure "release canceled create pool" true)
  setPoolReady false
  return none

/-- `cancelCreateLocked` once the cancellation is durable. -/
def cancelResources (ctx : Ctx) (c : SandboxConfig) (key : String) (fp : Fingerprint) (sandbox : Sandbox)
    (failure : Error) : Act (Option Error) := do
  match ← backend.observe sandbox.id with
  | .error _ => return some (apierr .backendFailure "observe canceled create" true)
  | .ok actual =>
    if actual ≠ .absent ∧ actual ≠ .created then
      return some (apierr .failedPrecondition "backend progressed beyond cancellable create state" false)
    match ← (if sandbox.storage.any fun status => status.state ≠ .released then s.releaseStorage ctx sandbox
        else return (sandbox, none)) with
    | (_, some _) => return some (apierr .backendFailure "release canceled create storage" true)
    | (sandbox, none) =>
      if let some e ← cancelInstance sandbox actual then
        return some e
      if let some e ← cancelPool then
        return some e
      if let some _ ← store.abortCreate c.id key fp failure then
        return some (apierr .internal "persist canceled create completion" true)
      return none

/-- `cancelCreateLocked` for the create that `intent` journals. -/
def cancelOwned (ctx : Ctx) (c : SandboxConfig) (key : String) (fp : Fingerprint) (entries : List JournalEntry)
    (intent : JournalEntry) (completed : Bool) (sandbox : Sandbox) : Act (Option Error) := do
  if sandbox.state ≠ .allocating ∧ sandbox.state ≠ .created then
    return some (apierr .failedPrecondition "sandbox progressed beyond cancellable create state" false)
  let failure : Error := ⟨.aborted, "create canceled by runtime shim", intent.operationID, false⟩
  if let some _ ← (if completed then return none else store.append { intent with
      phase := .complete
      error := some failure
      state := sandbox.state }) then
    return some (apierr .internal "persist create cancellation intent" true)
  if let some e ← cancelDependents c.id sandbox.state (incomplete entries) then
    return some e
  if let some _ ← store.tombstone key fp failure then
    return some (apierr .internal "persist create cancellation tombstone" true)
  s.cancelResources ctx c key fp sandbox failure

/-- `cancelCreateLocked`: no error is the answer `true`. -/
def cancelCreateLocked (ctx : Ctx) (c : SandboxConfig) (key : String) (fp : Fingerprint) : Act (Option Error) := do
  if (← store.result key).any fun previous => previous.fingerprint ≠ fp then
    return some (apierr .idempotencyConflict "create cancellation fingerprint differs" false)
  match ← store.journalEntries with
  | .error _ => return some (apierr .internal "create journal is unavailable" true)
  | .ok entries =>
    match scanCreate c key fp entries none false with
    | none => return some (apierr .idempotencyConflict "create cancellation does not own journaled input" false)
    | some (intent, completed) =>
      match intent, ← store.sandbox c.id with
      | none, none =>
        if let some _ ← store.tombstone key fp (apierr .aborted "create canceled before allocation" false) then
          return some (apierr .internal "persist create cancellation" true)
        return none
      | none, some _ =>
        return some (apierr .idempotencyConflict "sandbox ID is not owned by canceled create" false)
      | some intent, some sandbox =>
        if sandbox.generation ≠ intent.generation ∨ sandbox.config ≠ c then
          return some (apierr .idempotencyConflict "sandbox ID is not owned by canceled create" false)
        s.cancelOwned ctx c key fp entries intent completed sandbox
      | some intent, none =>
        match intent.sandbox with
        | none => return some (apierr .idempotencyConflict "create cancellation does not own journaled input" false)
        | some sandbox => s.cancelOwned ctx c key fp entries intent completed sandbox

def cancelCreate (ctx : Ctx) (c : SandboxConfig) (key : String) : Act (Option Error) := do
  if (validateConfig c).isSome ∨ ¬printableASCII key 1 128 then
    return some (apierr .invalidArgument "invalid create cancellation identity" false)
  withLock .global (withLock (.sandbox c.id) (s.cancelCreateLocked ctx c key (.create c)))

/-! ## Create -/

/-- The approved manifest and boot archive that a create names. -/
def checkArtifacts (c : SandboxConfig) : Act (Option Error) := do
  if ¬s.resolver then
    return none
  match ← s.artifactsFor c.kernelManifest with
  | .error _ => return some (apierr .failedPrecondition "approved kernel manifest validation failed" false)
  | .ok artifacts =>
    let verifyErr ← (if s.preparedBoot ∧ artifacts.verifies then do
        match ← openPreparedBoot c artifacts with
        | .error e => return some e
        | .ok (directory, archive) => resolver.close [directory, archive]
      else return none)
    let closeErr ← closeArtifacts artifacts
    if verifyErr.isSome then
      return some (apierr .failedPrecondition "prepared boot archive does not match approved kernel profile" false)
    if closeErr.isSome then
      return some (apierr .failedPrecondition "approved kernel artifact close failed" false)
    return none

/-- The memory loop of `Create`. -/
def allocatedMemory (usable : UInt64) : List Sandbox → UInt64 → UInt64
  | [], allocated => allocated
  | x :: xs, allocated =>
    if x.state = .absent then allocatedMemory usable xs allocated
    else if x.config.memoryBytes > usable - allocated then usable
    else allocatedMemory usable xs (allocated + x.config.memoryBytes)

def usableMemory : UInt64 :=
  if s.poolMemoryReserve < s.poolMemoryBytes then s.poolMemoryBytes - s.poolMemoryReserve else 0

def memoryExceeded (c : SandboxConfig) (sandboxes : List Sandbox) : Bool :=
  s.poolMemoryBytes ≠ 0 && c.memoryBytes > s.usableMemory - allocatedMemory s.usableMemory sandboxes 0

/-- `releasePool` for the create that brought the pool up. -/
def rollbackPool (firstSandbox : Bool) : Act (Option Err) :=
  if firstSandbox then releasePool else return none

/-- The steps of a create. -/
def createFn (firstSandbox : Bool) (current : Sandbox) : Act (Sandbox × Option Err) := do
  if let some e ← store.setSandbox current then
    return (current, some e)
  if let some e ← (if firstSandbox then ensurePool else return none) then
    return (current, some e)
  if let some e ← backend.create current then
    let poolErr ← rollbackPool firstSandbox
    return (current, Err.join [some e, poolErr])
  match ← s.provisionStorage .request current with
  | (current, some e) =>
    let deleteErr ← backend.delete current
    let poolErr ← rollbackPool firstSandbox
    return (current, Err.join [some e, deleteErr, poolErr])
  | (current, none) =>
    if let some e ← store.setSandbox current then
      let (current, storageErr) ← s.releaseStorage .detached current
      let deleteErr ← backend.delete current
      return (current, Err.join [some e, storageErr, deleteErr])
    return ({ current with state := .created }, none)

/-- The checks of `Create` that read no state. -/
def validateCreate (c : SandboxConfig) : Option Error :=
  match validateConfig c with
  | some e => some (apierr .invalidArgument e false)
  | none =>
    if s.storage ∧ c.storage = none then
      some (apierr .invalidArgument "prepared storage identity is required" false)
    else match (if s.poolCPUs = [] then none else c.cpus.find? (· ∉ s.poolCPUs)) with
    | some cpu => some (apierr .invalidArgument ("APIC ID " ++ toString cpu ++ " is outside the configured Kerf pool") false)
    | none => none

/-- What stands in the way of a new sandbox. -/
def admission (c : SandboxConfig) (existing : Option Sandbox) (d : Snapshot) : Option Error :=
  if existing.isSome then some (apierr .alreadyExists "sandbox ID exists" false)
  else if d.list.any fun x => overlap c x.config then
    some (apierr .resourceExhausted "CPU, port, or writable bundle overlaps another sandbox" false)
  else if s.memoryExceeded c d.list then
    some (apierr .resourceExhausted "sandbox memory exceeds configured usable Kerf pool memory" false)
  else none

/-- `Create` of the admitted sandbox `sb`. A create that fails after its
caller is gone is cancelled at once. -/
def createAdmitted (c : SandboxConfig) (key : String) (firstSandbox : Bool) (sb : Sandbox) : Act Response := do
  match ← mutate .createSandbox key (.create c) sb (s.createFn firstSandbox) with
  | .ok r => return .ok r
  | .error apiErr =>
    if let none ← Ctx.request.err then
      return .error apiErr
    if let some _ ← s.cancelCreateLocked .detached c key (.create c) then
      return .error (apierr .internal "persist automatic create cancellation" true)
    return .error apiErr

/-- `Create` with both locks held. -/
def createLocked (c : SandboxConfig) (key : String) : Act Response := do
  let existing ← store.sandbox c.id
  let d ← store.snapshot
  if let some e := s.admission c existing d then
    return .error e
  match ← generation with
  | .error e => return .error (apierr .internal e.text true)
  | .ok g =>
    let t ← now
    s.createAdmitted c key d.list.isEmpty ⟨c.id, g, .allocating, none, c, none, t, t⟩

def create (c : SandboxConfig) (key : String) : Act Response := do
  if let some e := s.validateCreate c then
    return .error e
  if let some e ← s.checkArtifacts c then
    return .error e
  withLock .global do
    if let some r ← replay key (.create c) then
      return r
    withLock (.sandbox c.id) (s.createLocked c key)

/-! ## Load, start, stop -/

/-- The steps of a transition. `fn` works on a copy of the sandbox. -/
def transitionFn (intermediate : Option State) (target : State) (fn : Sandbox → Act (Option Err)) (current : Sandbox) :
    Act (Sandbox × Option Err) := do
  let moving := { current with state := intermediate.getD current.state }
  if let some e ← (if intermediate.isSome then store.setSandbox moving else return none) then
    return (moving, some e)
  if let some e ← fn current then
    return (moving, some e)
  return ({ moving with state := target }, none)

/-- `transition` of the sandbox `sb`. -/
def transitionFrom (sb : Sandbox) (id gen key : String) (method : Method) (source : List State)
    (intermediate : Option State) (target : State) (fn : Sandbox → Act (Option Err)) : Act Response := do
  if sb.generation ≠ gen then
    return .error (apierr .staleGeneration "generation does not match" false)
  let fp := Fingerprint.target method id gen
  if let some r ← replay key fp then
    return r
  if sb.state = target then
    mutate method key fp sb fun current => return (current, none)
  else if sb.state ∉ source then
    return .error (apierr .failedPrecondition ("invalid state " ++ sb.state.text) false)
  else
    mutate method key fp sb (transitionFn intermediate target fn)

def transition (id gen key : String) (method : Method) (source : List State) (intermediate : Option State)
    (target : State) (fn : Sandbox → Act (Option Err)) : Act Response := withLock (.sandbox id) do
  match ← store.sandbox id with
  | none => return .error (apierr .notFound "sandbox not found" false)
  | some sb => transitionFrom sb id gen key method source intermediate target fn

/-- The files a load boots from. They are closed when the load ends, which has
no result. -/
def bootFiles (config : SandboxConfig) (artifacts : Artifacts) : Act (Except Err LoadFiles) := do
  let approved : LoadFiles := { kernel := artifacts.kernelFile, initramfs := artifacts.initrdFile }
  if ¬s.preparedBoot then
    return .ok approved
  match ← openPreparedBoot config artifacts with
  | .error e => return .error e
  | .ok (runtimeDir, initramfs) => return .ok { approved with runtimeDir := some runtimeDir, initramfs := some initramfs }

/-- The steps of a load. -/
def loadFn (x : Sandbox) : Act (Option Err) := do
  match ← s.artifactsFor x.config.kernelManifest with
  | .error e => return some e
  | .ok artifacts =>
    match ← s.bootFiles x.config artifacts with
    | .error e => return some e
    | .ok files =>
      match ← s.provisionStorage .request x with
      | (_, some e) => return some e
      | (x, none) => backend.load x artifacts.kernel artifacts.initrd artifacts.cmdline files

/-- The create that made generation `gen` of sandbox `id`. -/
def findCreate (id gen : String) (entries : List JournalEntry) : Option JournalEntry :=
  entries.reverse.find? fun entry => entry.method == .createSandbox && entry.phase == .intent && entry.sandboxID == id &&
    entry.sandbox.any fun sb => sb.generation == gen

/-- A load whose caller is gone cancels the create it belongs to. -/
def cancelLoaded (id gen : String) : Act (Option Error) := do
  match ← store.journalEntries with
  | .error _ => return some (apierr .internal "read create ownership after canceled load" true)
  | .ok entries =>
    match findCreate id gen entries with
    | none => return some (apierr .internal "create ownership is unavailable after canceled load" true)
    | some create =>
      match create.sandbox with
      | none => return some (apierr .internal "create ownership is unavailable after canceled load" true)
      | some sandbox =>
        if let some _ ← s.cancelCreate .detached sandbox.config create.idempotencyKey then
          return some (apierr .internal "automatic canceled-load cleanup failed" true)
        return none

def load (id gen key : String) : Act Response := do
  match ← transition id gen key .loadSandbox [.created] none .loaded s.loadFn with
  | .ok r => return .ok r
  | .error apiErr =>
    if let none ← Ctx.request.err then
      return .error apiErr
    if let some e ← s.cancelLoaded id gen then
      return .error e
    return .error apiErr

def start (id gen key : String) : Act Response :=
  transition id gen key .startSandbox [.loaded, .stopped] none .running backend.start

def stop (id gen key : String) : Act Response :=
  transition id gen key .stopSandbox [.running, .loaded] (some .stopping) .stopped fun x =>
    if x.state = .loaded then return none else backend.stop x

/-! ## Delete -/

/-- The steps of a delete once the instance is stopped. -/
def deleteStopped (releasing : Sandbox) : Act (Sandbox × Option Err) := do
  match ← s.releaseStorage .request releasing with
  | (releasing, some e) => return (releasing, some e)
  | (releasing, none) =>
    if let some e ← backend.delete releasing then
      return (releasing, some e)
    return ({ releasing with state := .absent }, none)

/-- The steps of a delete. -/
def deleteFn (current : Sandbox) : Act (Sandbox × Option Err) := do
  let releasing := { current with state := .releasing }
  if let some e ← store.setSandbox releasing then
    return (releasing, some e)
  if let some e ← (if current.state = .running then backend.stop releasing else return none) then
    return (releasing, some e)
  s.deleteStopped releasing

/-- `Delete` of the sandbox `sb`. -/
def deleteFrom (sb : Sandbox) (id gen key : String) : Act Response := do
  if sb.generation ≠ gen then
    return .error (apierr .staleGeneration "generation does not match" false)
  mutate .deleteSandbox key (.target .deleteSandbox id gen) sb s.deleteFn

def delete (id gen key : String) : Act Response := withLock .global (withLock (.sandbox id) do
  if let some r ← replay key (.target .deleteSandbox id gen) then
    return r
  match ← store.sandbox id with
  | none => return .error (apierr .notFound "sandbox not found" false)
  | some sb => s.deleteFrom sb id gen key)

end Service

end Multikernel
