import Multikernel.Network.Host
/-!
# The network service

`runtime/internal/network/service.go`. `Add`, `Check`, `Delete`, `Bind`,
`Unbind`, `Report` and `Reconcile` hold `mu`; `Provision` and `Release` hold
`orchestrate` and take `mu` only inside the operations they call.
-/

namespace Multikernel.Network
open Lib

/-- The flags of `mknetd`, and whether its backend is a `NamespaceBackend`. -/
structure Flags where
  subnet : String := "172.31.0.0/24"
  mtu : Int := 1400
  dns : DNS := {}
  namespaces : Bool := true

structure Service where
  subnet : Nat
  ones : Nat
  mtu : Int
  dns : DNS
  primaryBootID : String
  namespaces : Bool

/-- `NewService`. -/
def Service.new (f : Flags) (bootID : String) : Except Err Service :=
  match (parseCIDR f.subnet).bind fun c => (to4 c.1).map fun ip => (ip, c.2) with
  | none => .error { text := "mknetd subnet must be a canonical IPv4 CIDR" }
  | some (ip, ones, bits) =>
    let network := ip / 2 ^ (32 - ones) * 2 ^ (32 - ones)
    if dotted network ++ "/" ++ toString ones ≠ f.subnet then
      .error { text := "mknetd subnet must be a canonical IPv4 CIDR" }
    else if bits ≠ 32 ∨ ones < 16 ∨ ones > 30 then .error { text := "mknetd subnet must be between /16 and /30" }
    else if ¬isPrivate ip then .error { text := "mknetd guest subnet must use RFC1918 private space" }
    else if f.mtu < 576 ∨ f.mtu > 65515 then .error { text := "mknetd MTU must be between 576 and 65515" }
    else if ¬Network.primaryBootID bootID then .error { text := "mknetd primary boot ID is invalid" }
    else if f.dns.oversized then .error { text := "mknetd DNS lists are bounded to eight entries" }
    else if f.dns.nameservers.any fun server => (parseIP server).isNone then
      .error { text := "mknetd DNS server must be an IP address" }
    else .ok ⟨network, ones, f.mtu, f.dns, bootID, f.namespaces⟩

/-- The first free `/30` of the subnet: an endpoint's address and gateway. -/
def Service.allocate (s : Service) (es : List Endpoint) : Option (String × String) :=
  (List.range (2 ^ (30 - s.ones))).findSome? fun index =>
    let base := addIP s.subnet (index * 4)
    let candidate := dotted (addIP base 2) ++ "/30"
    if es.any (·.address == candidate) then none else some (candidate, dotted (addIP base 1))

/-- Delete the backend resources of an endpoint. -/
def Service.rollbackAllocation (s : Service) (e : Endpoint) : Act (Option Err) := do
  let deleted := (← backend.delete e).map (Err.wrap "delete partial endpoint")
  if ¬e.managedNamespace then
    return Err.join [deleted]
  if ¬s.namespaces then
    return Err.join [deleted, some { text := "managed endpoint backend cannot delete namespaces" }]
  let removed ← backend.deleteNamespace e.netNS
  return Err.join [deleted, removed.map (Err.wrap "delete partial namespace")]

def discardAllocationRecord (e : Endpoint) : Act (Option Err) := store.delete e.networkName e.containerID e.ifName

/-- The backend resources of an endpoint, then its record. -/
def Service.retire (s : Service) (e : Endpoint) : Act (Option Err) := do
  match ← s.rollbackAllocation e with
  | some err => return some err
  | none => discardAllocationRecord e

def allocationFailure (stage : String) (rollbackErr : Option Err) : APIError :=
  ⟨.internal, stage ++ (if rollbackErr = none then "; allocation rolled back"
    else "; rollback incomplete; reconciliation required"), true⟩

def Service.abandon (s : Service) (e : Endpoint) (stage : String) : Act (Except APIError Endpoint) :=
  return .error (allocationFailure stage (← s.retire e))

/-- `Add` of an identity that has an endpoint. -/
def addExisting (existing requested : Endpoint) : Act (Except APIError Endpoint) := do
  if ¬sameAdd existing requested then
    return .error ⟨.alreadyExists, "endpoint identity is already bound to different input", false⟩
  if existing.transitional then
    return .error ⟨.failedPrecondition, "endpoint allocation is incomplete and requires reconciliation", true⟩
  if (← backend.check existing).isSome then
    return .error ⟨.failedPrecondition, "network backend check failed", true⟩
  return .ok existing

/-- The last steps of an allocation: the backend's endpoint, then READY. -/
def Service.raise (s : Service) (e : Endpoint) : Act (Except APIError Endpoint) := do
  if (← backend.add e).isSome then
    return ← s.abandon e "network endpoint creation failed"
  let updatedAt ← now
  let ready := { e with state := .ready, updatedAt }
  if (← store.put ready).isSome then
    return ← s.abandon ready "endpoint readiness persistence failed"
  return .ok ready

/-- `Add` once the record of the allocation is stored. -/
def Service.realise (s : Service) (e : Endpoint) : Act (Except APIError Endpoint) := do
  if ¬e.managedNamespace then
    return ← s.raise e
  match ← backend.createNamespace e.generation with
  | .error _ => s.abandon e "network namespace creation failed"
  | .ok created =>
    if created ≠ e.netNS then
      return ← s.abandon e "network namespace identity mismatch"
    s.raise e

/-- The record of a new allocation. -/
def Service.allocation (s : Service) (requested : Endpoint) (slot : String × String) (gen : String) (createdAt : Nat) :
    Endpoint :=
  { requested with
    generation := gen, address := slot.1, gateway := slot.2, primaryBootID := s.primaryBootID, mtu := s.mtu, dns := s.dns,
    state := .allocating, createdAt, updatedAt := createdAt,
    netNS := if requested.managedNamespace then managedNamespacePath gen else requested.netNS }

/-- `Add` of a new identity. -/
def Service.addNew (s : Service) (requested : Endpoint) : Act (Except APIError Endpoint) := do
  match s.allocate (← store.list) with
  | none => return .error ⟨.resourceExhausted, "network address pool is exhausted", false⟩
  | some slot =>
    match ← generation with
    | .error _ => return .error ⟨.internal, "endpoint generation failed", true⟩
    | .ok gen =>
      let createdAt ← now
      if requested.managedNamespace ∧ ¬s.namespaces then
        return .error ⟨.unsupported, "network backend cannot create namespaces", false⟩
      let e := s.allocation requested slot gen createdAt
      if (← store.put e).isSome then
        return .error ⟨.internal, "endpoint allocation persistence failed", true⟩
      s.realise e

/-- A request without an owner comes from CNI. -/
def Endpoint.owned (e : Endpoint) : Endpoint := if e.owner = .unset then { e with owner := .cni } else e

def Service.add (s : Service) (request : Endpoint) : Act (Except APIError Endpoint) := withLock .mu do
  if let some issue := validateEndpoint request true then
    return .error issue
  let requested := request.owned
  if requested.owner ≠ .cni ∧ requested.owner ≠ .runtime then
    return .error ⟨.invalidArgument, "endpoint owner must be cni or runtime", false⟩
  if requested.managedNamespace ∧ requested.owner ≠ .runtime then
    return .error ⟨.invalidArgument, "only runtime-owned endpoints may create a namespace", false⟩
  match ← store.get requested.networkName requested.containerID requested.ifName with
  | some existing => addExisting existing requested
  | none => s.addNew requested

def check (request : Endpoint) : Act (Except APIError Endpoint) := withLock .mu do
  if let some issue := validateEndpoint request true then
    return .error issue
  let requested := request.owned
  match ← store.get requested.networkName requested.containerID requested.ifName with
  | none => return .error ⟨.notFound, "endpoint does not exist", false⟩
  | some existing =>
    if ¬sameAdd existing requested then
      return .error ⟨.staleIdentity, "endpoint input no longer matches its allocation", false⟩
    if requested.generation ≠ "" ∧ requested.generation ≠ existing.generation then
      return .error ⟨.staleGeneration, "endpoint generation does not match", false⟩
    if existing.transitional then
      return .error ⟨.failedPrecondition, "endpoint is in a transitional state", true⟩
    if (← backend.check existing).isSome then
      return .error ⟨.failedPrecondition, "network backend check failed", true⟩
    return .ok existing

/-- Store `e` as DELETING, unless it is. -/
def markDeleting (e : Endpoint) : Act (Except Err Endpoint) := do
  if e.state = .deleting then
    return .ok e
  let updatedAt ← now
  let marked := { e with state := .deleting, updatedAt }
  match ← store.put marked with
  | some err => return .error err
  | none => return .ok marked

/-- `Delete` once the record is DELETING. -/
def Service.tearDown (s : Service) (e : Endpoint) : Act (Option APIError) := do
  if (← backend.delete e).isSome then
    return some ⟨.internal, "network endpoint deletion failed", true⟩
  if e.managedNamespace ∧ ¬s.namespaces then
    return some ⟨.internal, "managed endpoint backend cannot delete namespaces", false⟩
  if (← (if e.managedNamespace then backend.deleteNamespace e.netNS else pure none)).isSome then
    return some ⟨.internal, "network namespace deletion failed", true⟩
  if (← store.delete e.networkName e.containerID e.ifName).isSome then
    return some ⟨.internal, "endpoint record deletion persistence failed", true⟩
  return none

def Service.delete (s : Service) (requested : Endpoint) : Act (Option APIError) := withLock .mu do
  if let some issue := validateEndpoint requested false then
    return some issue
  match ← store.get requested.networkName requested.containerID requested.ifName with
  | none => return none
  | some existing =>
    if requested.generation = "" ∨ requested.generation ≠ existing.generation then
      return some ⟨.staleGeneration, "endpoint generation does not match", false⟩
    if requested.netNS ≠ "" ∧ requested.netNS ≠ existing.netNS then
      return some ⟨.staleIdentity, "endpoint namespace no longer matches its allocation", false⟩
    if existing.sandboxID ≠ "" then
      return some ⟨.failedPrecondition, "endpoint is still bound to a sandbox generation", true⟩
    match ← markDeleting existing with
    | .error _ => return some ⟨.internal, "endpoint deletion transition persistence failed", true⟩
    | .ok marked => s.tearDown marked

/-- The sandbox of a request has a valid identity and generation. -/
def Endpoint.named (e : Endpoint) : Bool := identifier e.sandboxID && endpointGeneration e.sandboxGeneration

/-- `Bind` once its namespace's endpoint is found. -/
def bindFound (requested found : Endpoint) : Act (Except APIError Endpoint) := do
  if requested.generation ≠ "" ∧ requested.generation ≠ found.generation then
    return .error ⟨.staleGeneration, "endpoint generation does not match", false⟩
  if found.transitional then
    return .error ⟨.failedPrecondition, "endpoint is in a transitional state", true⟩
  if found.sandboxID ≠ "" ∧
      (found.sandboxID ≠ requested.sandboxID ∨ found.sandboxGeneration ≠ requested.sandboxGeneration) then
    return .error ⟨.alreadyExists, "endpoint is bound to a different sandbox generation", false⟩
  if (← backend.check found).isSome then
    return .error ⟨.failedPrecondition, "network backend check failed", true⟩
  let updatedAt ← now
  let bound := { found with
    sandboxID := requested.sandboxID, sandboxGeneration := requested.sandboxGeneration, updatedAt }
  if (← store.put bound).isSome then
    return .error ⟨.internal, "endpoint binding persistence failed", true⟩
  return .ok bound

def bind (requested : Endpoint) : Act (Except APIError Endpoint) := withLock .mu do
  if requested.netNS = "" ∨ ¬requested.named then
    return .error ⟨.invalidArgument, "BIND requires namespace and valid sandbox identity/generation", false⟩
  match (← store.list).filter fun candidate => candidate.netNS == requested.netNS with
  | [] => return .error ⟨.notFound, "namespace has no CNI endpoint", false⟩
  | [found] => bindFound requested found
  | _ => return .error ⟨.failedPrecondition, "namespace has multiple endpoint allocations", false⟩

/-- The request `Provision` makes of `Bind` for an endpoint. -/
def Endpoint.bindTo (e requested : Endpoint) : Endpoint :=
  { netNS := e.netNS, generation := e.generation, sandboxID := requested.sandboxID,
    sandboxGeneration := requested.sandboxGeneration }

/-- `Provision` without an endpoint of this identity or namespace. -/
def Service.provisionNew (s : Service) (requested : Endpoint) : Act (Except APIError Endpoint) := do
  match ← s.add { requested with
      owner := .runtime, managedNamespace := requested.netNS == "", sandboxID := "", sandboxGeneration := "" } with
  | .error issue => return .error issue
  | .ok allocated =>
    match ← bind (allocated.bindTo requested) with
    | .ok bound => return .ok bound
    | .error issue =>
      let _ ← s.delete allocated
      return .error issue

def Service.provision (s : Service) (requested : Endpoint) : Act (Except APIError Endpoint) := withLock .orchestrate do
  if ¬requested.named then
    return .error ⟨.invalidArgument, "PROVISION requires sandbox identity/generation", false⟩
  match (← store.list).find? fun candidate =>
      candidate.key == requested.key || (requested.netNS ≠ "" && candidate.netNS == requested.netNS) with
  | none => s.provisionNew requested
  | some candidate =>
    if candidate.key ≠ requested.key ∨ (requested.netNS ≠ "" ∧ candidate.netNS ≠ requested.netNS) then
      return .error ⟨.alreadyExists, "namespace endpoint identity belongs to a different workload", false⟩
    bind (candidate.bindTo requested)

/-- The first endpoint in the order of the list that carries the sandbox. -/
def carrier (es : List Endpoint) (sandboxID : String) : Option Endpoint := es.find? (·.sandboxID == sandboxID)

def unbind (requested : Endpoint) : Act (Option APIError) := withLock .mu do
  if ¬requested.named then
    return some ⟨.invalidArgument, "UNBIND requires valid sandbox identity/generation", false⟩
  match carrier (← store.list) requested.sandboxID with
  | none => return none
  | some found =>
    if found.sandboxGeneration ≠ requested.sandboxGeneration then
      return some ⟨.staleGeneration, "sandbox generation does not match endpoint binding", false⟩
    let updatedAt ← now
    if (← store.put { found with sandboxID := "", sandboxGeneration := "", updatedAt }).isSome then
      return some ⟨.internal, "endpoint unbinding persistence failed", true⟩
    return none

/-- `Release` of an endpoint the runtime owns. -/
def Service.releaseOwned (s : Service) (found : Endpoint) : Act (Option APIError) := do
  match ← markDeleting found with
  | .error _ => return some ⟨.internal, "runtime endpoint deletion transition persistence failed", true⟩
  | .ok marked =>
    if (← s.rollbackAllocation marked).isSome then
      return some ⟨.internal, "runtime endpoint cleanup failed", true⟩
    if (← discardAllocationRecord marked).isSome then
      return some ⟨.internal, "runtime endpoint record deletion persistence failed", true⟩
    return none

def Service.release (s : Service) (requested : Endpoint) : Act (Option APIError) := withLock .orchestrate do
  if ¬requested.named then
    return some ⟨.invalidArgument, "RELEASE requires valid sandbox identity/generation", false⟩
  match carrier (← store.list) requested.sandboxID with
  | none => return none
  | some found =>
    if found.sandboxGeneration ≠ requested.sandboxGeneration then
      return some ⟨.staleGeneration, "sandbox generation does not match endpoint binding", false⟩
    if found.owner ≠ .runtime then
      return ← unbind requested
    s.releaseOwned found

/-- The counters of a report are at least the recorded ones. -/
def Endpoint.covers (requested found : Endpoint) : Bool :=
  found.rxPackets ≤ requested.rxPackets && found.txPackets ≤ requested.txPackets && found.rxDrops ≤ requested.rxDrops &&
    found.txDrops ≤ requested.txDrops && found.errors ≤ requested.errors

def report (requested : Endpoint) : Act (Option APIError) := withLock .mu do
  if ¬requested.named ∨ ¬endpointGeneration requested.generation then
    return some ⟨.invalidArgument, "REPORT requires endpoint and sandbox generations", false⟩
  match carrier (← store.list) requested.sandboxID with
  | none => return some ⟨.notFound, "sandbox has no network endpoint", false⟩
  | some found =>
    if found.generation ≠ requested.generation ∨ found.sandboxGeneration ≠ requested.sandboxGeneration then
      return some ⟨.staleGeneration, "counter report generation does not match", false⟩
    if found.transitional then
      return some ⟨.failedPrecondition, "endpoint is in a transitional state", true⟩
    if ¬requested.covers found then
      return some ⟨.staleCounter, "network counters cannot decrease", false⟩
    if requested.state ≠ .ready ∧ requested.state ≠ .degraded ∧ requested.state ≠ .disconnected then
      return some ⟨.invalidArgument, "invalid endpoint link state", false⟩
    let updatedAt ← now
    let reported := { found with
      rxPackets := requested.rxPackets, txPackets := requested.txPackets, rxDrops := requested.rxDrops,
      txDrops := requested.txDrops, errors := requested.errors, state := requested.state, updatedAt }
    if (← store.put reported).isSome then
      return some ⟨.internal, "endpoint counter persistence failed", true⟩
    return none

/-! ## Startup -/

/-- The name of an endpoint in an error of `Reconcile`. -/
def Endpoint.label (e : Endpoint) : String :=
  e.networkName ++ "/" ++ e.containerID ++ "/" ++ e.ifName ++ " generation " ++ e.generation

/-- One record of `Reconcile`. -/
def Service.reconcileOne (s : Service) (e : Endpoint) : Act (Option Err) := do
  if e.primaryBootID ≠ "" ∧ e.primaryBootID ≠ s.primaryBootID then
    return (← discardAllocationRecord e).map (Err.wrap ("retire prior-boot endpoint " ++ e.label))
  if e.transitional then
    match ← s.rollbackAllocation e with
    | some err => return some (err.wrap ("complete transitional endpoint " ++ e.label))
    | none => return (← discardAllocationRecord e).map (Err.wrap ("discard transitional endpoint " ++ e.label))
  return (← backend.check e).map (Err.wrap ("endpoint " ++ e.label))

def Service.reconcileAll (s : Service) : List Endpoint → Act (List (Option Err))
  | [] => return []
  | e :: es => do
    let failure ← s.reconcileOne e
    return failure :: (← s.reconcileAll es)

def Service.reconcile (s : Service) : Act (Option Err) := withLock .mu do
  return Err.join (← s.reconcileAll (← store.list))

/-- The part of `mknetd`'s `run` before it listens. -/
def boot (f : Flags) : Act (Except Err Service) := do
  if let some e ← store.openStore then
    return .error e
  match ← bootID with
  | .error e => return .error e
  | .ok id =>
    match Service.new f id with
    | .error e => return .error e
    | .ok s =>
      match ← s.reconcile with
      | some e => return .error e
      | none => return .ok s

end Multikernel.Network
