import Multikernel.Host
/-!
# The storage service

`runtime/internal/storage/service.go`: `Provision`, `Release` and `Reconcile`
move an export through PREPARING, ACTIVE, QUIESCING and RELEASED, with a
durable `Put` before and after each step of the server process.
-/

namespace Multikernel.Storage
open Lib

/-- `fmt.Errorf("%w: " + detail, ErrUnsafeSession)`. -/
def unsafeSession (detail : String) : Err := { errUnsafeSession with text := errUnsafeSession.text ++ ": " ++ detail }

/-- The error of `backend.Stop`, where the counters are not used. -/
def stopServer (value : Export) : Act (Option Err) := do
  match ← server.stop value with
  | .error e => return some e
  | .ok _ => return none

/-- `value` becomes ACTIVE; `retained` is the text of a failing write. -/
def publishActive (value : Export) (retained : String) : Act (Except Err Export) := do
  let updatedAt ← now
  let active := { value with state := .active, updatedAt }
  if let some e ← exports.put active then
    return .error (e.wrap retained)
  return .ok active

def recoverPreparation (ctx : Ctx) (value : Export) : Act (Except Err Export) := do
  if let some e ← ctx.err then
    return .error e
  match ← server.observe value with
  | .error e => return .error (e.wrap "observe retained storage preparation")
  | .ok observation =>
    if observation.clientLost then
      return .error (unsafeSession "preparing server disappeared after client acceptance")
    if ¬observation.active ∧ ¬observation.preAcceptance then
      return .error (unsafeSession "preparing server is absent without exact pre-acceptance evidence")
    if observation.active ∧ observation.generation ≠ value.exportGeneration then
      return .error { text := "preparing storage process has a conflicting generation" }
    if let some e ← (if observation.active then stopServer value else return none) then
      return .error (e.wrap "stop ambiguous storage preparation")
    match ← server.inspect value.image with
    | .error e => return .error (e.wrap "reinspect retained storage preparation")
    | .ok identity =>
      if identity ≠ value.imageIdentity then
        return .error { text := "retained storage image identity changed" }
      if let some e ← server.start value then
        return .error (e.wrap "restart retained storage preparation")
      publishActive value "publish recovered storage export with PREPARING ownership retained"

/-- `Provision` of a generation that has an export. -/
def provisionExisting (ctx : Ctx) (peerCID : UInt32) (image : PreparedImage) (existing : Export) :
    Act (Except Err Export) := do
  if existing.image ≠ image ∨ existing.peerCID ≠ peerCID then
    return .error { text := "sandbox generation has conflicting or incomplete storage state" }
  if existing.state = .preparing then
    recoverPreparation ctx existing
  else if existing.state ≠ .active then
    return .error { text := "sandbox generation has conflicting or incomplete storage state" }
  else
    match ← server.observe existing with
    | .error _ => return .error { text := "durable export is not active with its recorded generation" }
    | .ok observation =>
      if ¬observation.active ∨ observation.generation ≠ existing.exportGeneration then
        return .error { text := "durable export is not active with its recorded generation" }
      return .ok { existing with counters := observation.counters }

/-- A live export that claims what a new one would. -/
def allocated (sandboxID : String) (peerCID : UInt32) (image : PreparedImage) (existing : Export) : Bool :=
  existing.state ≠ .released && (existing.sandboxID == sandboxID || existing.peerCID == peerCID ||
    existing.image.path == image.path || existing.image.port == image.port ||
    existing.image.filesystemUUID == image.filesystemUUID)

/-- `Provision` of a generation that has none. -/
def provisionNew (sandboxID sandboxGeneration : String) (peerCID : UInt32) (image : PreparedImage) :
    Act (Except Err Export) := do
  if (← exports.list).any (allocated sandboxID peerCID image) then
    return .error { text := "storage owner, peer CID, path, port, or filesystem UUID is already allocated" }
  match ← server.inspect image with
  | .error e => return .error (e.wrap "inspect prepared image")
  | .ok imageIdentity =>
    match ← generation with
    | .error e => return .error e
    | .ok exportGeneration =>
      let createdAt ← now
      let value : Export :=
        { sandboxID, sandboxGeneration, exportGeneration, peerCID, image, imageIdentity, state := .preparing,
          createdAt, updatedAt := createdAt }
      if let some e ← exports.put value then
        return .error e
      if let some e ← server.start value then
        return .error (e.wrap "start storage export with PREPARING ownership retained")
      publishActive value "publish active storage export with PREPARING ownership retained"

def provision (ctx : Ctx) (sandboxID sandboxGeneration : String) (peerCID : UInt32) (image : PreparedImage) :
    Act (Except Err Export) := withLock .storage do
  if let some e ← ctx.err then
    return .error e
  if ¬identityRE sandboxID ∨ ¬generationRE sandboxGeneration ∨ ¬validPeerCID peerCID then
    return .error { text := "invalid sandbox identity" }
  if let some e := validatePrepared image then
    return .error { text := e }
  match ← exports.get sandboxID sandboxGeneration with
  | some existing => provisionExisting ctx peerCID image existing
  | none => provisionNew sandboxID sandboxGeneration peerCID image

/-- The last steps of a release: the check of the closed image, then the
durable result. -/
def finishRelease (value : Export) (counters : Counters) (interrupted : String) : Act (Except Err Export) := do
  match ← server.offlineCheck value with
  | .error e => return .error (e.wrap interrupted)
  | .ok offlineCheck =>
    let releasedAt ← now
    let released := { value with state := .released, counters, offlineCheck, releasedAt, updatedAt := releasedAt }
    if let some e ← exports.put released then
      return .error e
    return .ok released

def release (ctx : Ctx) (sandboxID sandboxGeneration exportGeneration : String) (peerCID : UInt32) :
    Act (Except Err Export) := withLock .storage do
  if let some e ← ctx.err then
    return .error e
  match ← exports.get sandboxID sandboxGeneration with
  | none => return .error { text := "storage export not found" }
  | some value =>
    if value.exportGeneration ≠ exportGeneration ∨ ¬validPeerCID peerCID ∨ value.peerCID ≠ peerCID then
      return .error { text := "stale storage export generation" }
    if value.state = .released then
      return .ok value
    if value.state ≠ .active ∧ value.state ≠ .quiescing then
      return .error { text := "storage export is not safely releasable" }
    let updatedAt ← now
    let quiescing := { value with state := .quiescing, updatedAt }
    if let some e ← exports.put quiescing then
      return .error e
    match ← server.stop quiescing with
    | .error e => return .error (e.wrap "stop storage export")
    | .ok counters => finishRelease quiescing counters "offline filesystem check"

/-! ## Reconcile -/

/-- A live export is what the lifecycle state says it is. -/
def ownedBy (owners : Table Owner) (value : Export) : Bool :=
  match owners.lookup value.sandboxID with
  | none => false
  | some owner => owner.generation == value.sandboxGeneration && owner.peerCID == value.peerCID &&
      owner.image == value.image && (owner.exportGeneration == "" || owner.exportGeneration == value.exportGeneration)

def reconcileActive (value : Export) : Act (Option Err) := do
  match ← server.observe value with
  | .error e => return some e
  | .ok observation =>
    if observation.active ∧ observation.generation = value.exportGeneration then
      return none
    if observation.active then
      return some { text := "active storage process has a conflicting generation" }
    if observation.clientLost then
      return some (unsafeSession
        "active server disappeared after client acceptance; automatic session recovery is unsafe")
    if ¬observation.preAcceptance then
      return some (unsafeSession "active storage server is absent without exact pre-acceptance evidence")
    match ← server.inspectCurrent value.image with
    | .error e => return some (e.wrap "restart durable storage export")
    | .ok identity =>
      if identity ≠ value.imageIdentity then
        return some { text := "restart durable storage export: durable storage image identity changed" }
      if let some e ← server.start value then
        return some (e.wrap "restart durable storage export")
      return none

def reconcileQuiescing (value : Export) : Act (Option Err) := do
  match ← server.observe value with
  | .error e => return some (e.wrap "observe quiescing storage export")
  | .ok observation =>
    if observation.active ∧ observation.generation ≠ value.exportGeneration then
      return some { text := "quiescing storage process has a conflicting generation" }
    if ¬observation.active ∧ ¬observation.closed then
      return some (unsafeSession "quiescing server is absent without a graceful close record")
    match ← (if observation.active then server.stop value else return .ok observation.counters) with
    | .error e => return some (e.wrap "resume storage quiescence")
    | .ok counters =>
      match ← finishRelease value counters "recover offline filesystem check" with
      | .error e => return some e
      | .ok _ => return none

def reconcileExport (ctx : Ctx) (value : Export) : Act (Option Err) := do
  if let some e ← ctx.err then
    return some e
  match value.state with
  | .released => return none
  | .active => reconcileActive value
  | .preparing =>
    match ← recoverPreparation ctx value with
    | .error e => return some e
    | .ok _ => return none
  | .quiescing => reconcileQuiescing value

def reconcileExports (ctx : Ctx) : List Export → Act (Option Err)
  | [] => return none
  | value :: values => do
    if let some e ← reconcileExport ctx value then
      return some e
    reconcileExports ctx values

def reconcile (ctx : Ctx) (owners : Table Owner) : Act (Option Err) := withLock .storage do
  if let some e ← ctx.err then
    return some e
  let values ← exports.list
  if values.any fun value => value.state ≠ .released && !ownedBy owners value then
    return some { text := "OPERATOR_ACTION: storage export does not match lifecycle ownership" }
  reconcileExports ctx values

end Multikernel.Storage
