import Multikernel.Lifecycle.Service
/-!
# Reconciliation

`Reconcile` and `reconcileIncomplete` of
`runtime/internal/lifecycle/service.go`, and the part of
`runtime/cmd/mkruntimed/main.go` that runs before a daemon serves: recover an
idle pool, then reconcile. Each incomplete intent of the journal is taken to
its end from the sandbox it carries and what the backend shows.
-/

namespace Multikernel
open Lib

/-- The text of an error that stops the daemon for an operator. -/
def operatorAction (text : String) : Err := { text := "OPERATOR_ACTION: " ++ text }

namespace Service
variable (s : Service)

/-! ## One incomplete intent -/

def unexpected (actual : State) : Err := { text := "unexpected backend state " ++ actual.text }

/-- `finish`: the operation took the sandbox to `state`. -/
def recoverFinish (intent : JournalEntry) (sandbox : Sandbox) (state : State) : Act (Option Err) := do
  let sandbox := { sandbox with state, error := none }
  if let some e ← store.commit sandbox intent.idempotencyKey intent.fingerprint ⟨sandbox, false⟩ then
    return some e
  store.append { intent with phase := .complete, state }

/-- `fail`: keep the sandbox of the intent for an operator. -/
def recoverFail (intent : JournalEntry) (sandbox : Sandbox) (cause : Err) : Act (Option Err) := do
  let failure := apierr .operatorAction "incomplete operation could not be reconciled safely" false
  if let some e ← store.setSandbox { sandbox with error := some failure } then
    return some e
  if let some e ← store.append { intent with phase := .complete, error := some failure, state := sandbox.state } then
    return some e
  return some (cause.wrap ("OPERATOR_ACTION: reconcile " ++ intent.method.text))

/-- The operation ends well if the backend now shows one of `wanted`. -/
def recoverObserve (sandbox : Sandbox) (wanted : List State) (state : State) : Act (Sandbox × Except Err State) := do
  match ← backend.observe sandbox.id with
  | .error e => return (sandbox, .error e)
  | .ok actual => return (sandbox, if actual ∈ wanted then .ok state else .error (unexpected actual))

/-- The instance of an interrupted create, made if it is missing. -/
def createMissing (sandbox : Sandbox) (actual : State) : Act (Option Err) := do
  if actual ≠ .absent then
    return none
  if let some e ← ensurePool then
    return some e
  backend.create sandbox

/-- The create once its instance is observed. -/
def recoverCreated (sandbox : Sandbox) : Except Err State → Act (Sandbox × Except Err State)
  | .error e => return (sandbox, .error e)
  | .ok actual => do
    if actual ≠ .created then
      return (sandbox, .error (unexpected actual))
    match ← s.provisionStorage .request sandbox with
    | (sandbox, some e) => return (sandbox, .error e)
    | (sandbox, none) => return (sandbox, .ok .created)

def recoverCreate (sandbox : Sandbox) (actual : State) : Act (Sandbox × Except Err State) := do
  if let some e ← createMissing sandbox actual then
    return (sandbox, .error e)
  s.recoverCreated sandbox (← backend.observe sandbox.id)

/-- The steps of a load, which here keep the storage status they find. -/
def loadRecovered (sandbox : Sandbox) : Act (Sandbox × Option Err) := do
  match ← s.artifactsFor sandbox.config.kernelManifest with
  | .error e => return (sandbox, some e)
  | .ok artifacts =>
    match ← s.bootFiles sandbox.config artifacts with
    | .error e => return (sandbox, some e)
    | .ok files =>
      match ← s.provisionStorage .request sandbox with
      | (sandbox, some e) => return (sandbox, some e)
      | (sandbox, none) =>
        let loadErr ← backend.load sandbox artifacts.kernel artifacts.initrd artifacts.cmdline files
        return (sandbox, loadErr)

def recoverLoad (sandbox : Sandbox) (actual : State) : Act (Sandbox × Except Err State) := do
  match ← (if actual = .created then s.loadRecovered sandbox else return (sandbox, none)) with
  | (sandbox, some e) => return (sandbox, .error e)
  | (sandbox, none) => recoverObserve sandbox [.loaded] .loaded

def recoverStart (sandbox : Sandbox) (actual : State) : Act (Sandbox × Except Err State) := do
  if let some e ← (if actual = .loaded ∨ actual = .stopped then backend.start sandbox else return none) then
    return (sandbox, .error e)
  recoverObserve sandbox [.running] .running

/-- A stop that finds no instance releases the storage and ends ABSENT. -/
def recoverStop (sandbox : Sandbox) (actual : State) : Act (Sandbox × Except Err State) := do
  if let some e ← (if actual = .running then backend.stop sandbox else return none) then
    return (sandbox, .error e)
  if actual = .absent then
    match ← s.releaseStorage .request sandbox with
    | (sandbox, some e) => return (sandbox, .error e)
    | (sandbox, none) => return (sandbox, .ok .absent)
  else
    recoverObserve sandbox [.loaded, .stopped] .stopped

/-- A delete that finds no instance releases nothing. -/
def recoverDelete (sandbox : Sandbox) (actual : State) : Act (Sandbox × Except Err State) := do
  if let some e ← (if actual = .running then backend.stop sandbox else return none) then
    return (sandbox, .error e)
  match ← (if actual ≠ .absent then s.releaseStorage .request sandbox else return (sandbox, none)) with
  | (sandbox, some e) => return (sandbox, .error e)
  | (sandbox, none) =>
    if let some e ← (if actual ≠ .absent then backend.delete sandbox else return none) then
      return (sandbox, .error e)
    recoverObserve sandbox [.absent] .absent

def recover (method : Method) (sandbox : Sandbox) (actual : State) : Act (Sandbox × Except Err State) :=
  match method with
  | .createSandbox => s.recoverCreate sandbox actual
  | .loadSandbox => s.recoverLoad sandbox actual
  | .startSandbox => recoverStart sandbox actual
  | .stopSandbox => s.recoverStop sandbox actual
  | .deleteSandbox => s.recoverDelete sandbox actual

def reconcileIncomplete (intent : JournalEntry) : Act (Option Err) := do
  match intent.sandbox with
  | none =>
    return some (operatorAction
      ("incomplete " ++ intent.method.text ++ " intent " ++ intent.operationID ++ " has no recoverable sandbox"))
  | some sandbox =>
    match ← backend.observe sandbox.id with
    | .error e => return some e
    | .ok actual =>
      match ← s.recover intent.method sandbox actual with
      | (sandbox, .ok state) => recoverFinish intent sandbox state
      | (sandbox, .error cause) => recoverFail intent sandbox cause

def reconcileIntents : List JournalEntry → Act (Option Err)
  | [] => return none
  | intent :: rest => do
    if let some e ← s.reconcileIncomplete intent then
      return some e
    reconcileIntents rest

/-! ## The recovery set -/

/-- The key, the sandbox and its configuration name one sandbox. -/
def consistentIdentity (key : String) (sandbox : Sandbox) : Bool :=
  key == sandbox.id && sandbox.config.id == key && sandbox.generation != ""

/-- Another generation or configuration of a sandbox. -/
def disowns (intent : JournalEntry) (config : SandboxConfig) (previous : Sandbox) : Bool :=
  previous.generation ≠ intent.generation || previous.config ≠ config

def isAborted (r : IdempotentResult) : Bool :=
  match r.outcome with
  | .error failure => failure.code == .aborted
  | .ok _ => false

/-- The validation of the incomplete intents against each other, the snapshot
and the recorded results. -/
def validateRecovery (d : Snapshot) : List JournalEntry → Table Sandbox → Act (Except Err (Table Sandbox))
  | [], owners => return .ok owners
  | intent :: rest, owners => do
    match intent.sandbox with
    | none => return .error (operatorAction "incomplete intent has no recoverable sandbox identity")
    | some sandbox =>
      if intent.generation = "" then
        return .error (operatorAction "incomplete intent has no recoverable sandbox identity")
      if (owners.lookup intent.sandboxID).any (disowns intent sandbox.config) then
        return .error (operatorAction "incomplete intents disagree about sandbox ownership")
      if (d.sandboxes.lookup intent.sandboxID).any (disowns intent sandbox.config) then
        return .error (operatorAction "incomplete intent does not own the durable sandbox")
      if (← store.result intent.idempotencyKey).any isAborted then
        return .error (operatorAction "canceled operation has an incomplete journal intent")
      validateRecovery d rest (owners.insert intent.sandboxID sandbox)

def addOwner (owners : Table Owner) (sandbox : Sandbox) : Table Owner :=
  match sandbox.config.storage with
  | none => owners
  | some image => owners.insert sandbox.id
      { generation := sandbox.generation, peerCID := sandbox.config.childCID, image := preparedStorage image,
        exportGeneration := (sandbox.storage.map (·.exportGeneration)).getD "" }

/-- The owners of storage: the snapshot's sandboxes over those of the intents. -/
def storageOwners (recovery : Table Sandbox) (d : Snapshot) : Table Owner :=
  (recovery.entries.map (·.2) ++ d.list).foldl addOwner ∅

/-! ## Reconcile -/

/-- `List`: the sandboxes in order of their IDs. -/
def list : Act (List Sandbox) := do
  let d ← store.snapshot
  return d.list.insertionSort fun a b => a.id ≤ b.id

def checkInventory : Act (Option Err) := do
  if ¬s.inventory then
    return none
  match ← backend.listInstances with
  | .error e => return some e
  | .ok instances =>
    let known := (← list).map (·.id)
    let unknown := instances.filter (· ∉ known)
    if unknown ≠ [] then
      return some (operatorAction ("unknown backend instances: " ++ ",".intercalate unknown))
    return none

/-- Mark every sandbox whose instance is in another state. -/
def reconcileStates (pending : List String) : List Sandbox → Act (Option Err)
  | [] => return none
  | sb :: rest => do
    match ← backend.observe sb.id with
    | .error e => return some e
    | .ok actual =>
      if stateMatches sb.state actual ∨ sb.id ∈ pending then
        reconcileStates pending rest
      else
        let mismatch := "journal=" ++ sb.state.text ++ " backend=" ++ actual.text ++ " incomplete=false"
        if let some e ← store.setSandbox { sb with error := some (apierr .operatorAction mismatch false) } then
          return some e
        reconcileStates pending rest

/-- Durable sandboxes own the pool the last daemon left. -/
def adoptPool (d : Snapshot) : Act Unit :=
  if d.list.isEmpty then return () else setPoolReady true

/-- `Reconcile` once the recovery set is valid. -/
def reconcileValid (d : Snapshot) (pending : List JournalEntry) (recovery : Table Sandbox) : Act (Option Err) := do
  adoptPool d
  if let some e ← (if s.storage then Storage.reconcile .request (storageOwners recovery d) else return none) then
    return some (e.wrap "storage reconcile")
  if let some e ← s.reconcileIntents pending then
    return some e
  if let some e ← s.checkInventory then
    return some e
  reconcileStates (pending.map (·.sandboxID)) (← list)

def reconcile : Act (Option Err) := withLock .global do
  let d ← store.snapshot
  if d.sandboxes.entries.any fun r => !consistentIdentity r.1 r.2 then
    return some (operatorAction "inconsistent durable sandbox identity")
  match ← store.journalEntries with
  | .error e => return some e
  | .ok entries =>
    match ← validateRecovery d (incomplete entries) ∅ with
    | .error e => return some e
    | .ok recovery => s.reconcileValid d (incomplete entries) recovery

/-! ## Startup -/

def hasLiveSandboxes (d : Snapshot) : Bool := d.list.any fun sandbox => sandbox.state ≠ .absent

/-- The idle pool of a daemon that died. -/
def recoverIdlePool (report : HostReport) : Act (Option Err) := do
  if ¬report.recoverableIdlePool then
    return report.policy
  if let some e ← backend.releasePool then
    return some e
  return (← hostCheck).policy

/-- `main`, up to the point where the daemon serves. -/
def boot : Act (Option Err) := do
  let d ← store.snapshot
  if let some e ← (if hasLiveSandboxes d then return none else do recoverIdlePool (← hostCheck)) then
    return some e
  s.reconcile

end Service

end Multikernel
