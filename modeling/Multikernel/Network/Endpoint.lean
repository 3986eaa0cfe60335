import Multikernel.Storage.Store
/-!
# Network endpoints

`runtime/internal/network/types.go` and the pure checks of `service.go`,
`store.go` and `backend_linux.go` over an endpoint, with the functions of
Go's `net` and `path/filepath` they call. `Owner` and `State` come from the
wire as any text.
-/

namespace Multikernel.Network

/-! ## `net` and `path/filepath` -/

/-- A decimal number without leading zeros, at most 255. -/
def parseOctet (cs : List Char) : Option Nat :=
  if cs = [] ∨ ¬cs.all isDigit ∨ (cs.length > 1 ∧ cs.head? = some '0') then none
  else
    let v := cs.foldl (fun n c => 10 * n + (c.toNat - 48)) 0
    if v ≤ 255 then some v else none

def parseIPv4 (cs : List Char) : Option Nat :=
  match (cs.splitOn '.').map parseOctet with
  | [some a, some b, some c, some d] => some (a * 2 ^ 24 + b * 2 ^ 16 + c * 2 ^ 8 + d)
  | _ => none

def hexValue (c : Char) : Nat :=
  if isDigit c then c.toNat - 48 else if isLower c then c.toNat - 87 else c.toNat - 55

/-- One to four hexadecimal digits. -/
def parseHextet (cs : List Char) : Option Nat :=
  if cs = [] ∨ cs.length > 4 ∨ ¬cs.all (fun c => isHex c || ('A' ≤ c && c ≤ 'F')) then none
  else some (cs.foldl (fun n c => 16 * n + hexValue c) 0)

/-- The fields of one side of `::`; the last one of an address may be IPv4. -/
def parseFields (last : Bool) : List (List Char) → Option (List Nat)
  | [] => some []
  | [cs] =>
    if '.' ∈ cs then
      if last then (parseIPv4 cs).map fun v => [v / 2 ^ 16, v % 2 ^ 16] else none
    else (parseHextet cs).map fun v => [v]
  | cs :: rest => do return (← parseHextet cs) :: (← parseFields last rest)

/-- Cut a text at the first `::`. -/
def cutEllipsis : List Char → Option (List Char × List Char)
  | ':' :: ':' :: cs => some ([], cs)
  | c :: cs => (cutEllipsis cs).map fun p => (c :: p.1, p.2)
  | [] => none

def fieldsOf (cs : List Char) : List (List Char) := if cs = [] then [] else cs.splitOn ':'

def parseIPv6 (cs : List Char) : Option Nat := do
  let fields ← match cutEllipsis cs with
    | none => parseFields true (cs.splitOn ':')
    | some (l, r) => do
      let l ← parseFields false (fieldsOf l)
      let r ← parseFields true (fieldsOf r)
      -- An ellipsis stands for at least one field.
      if l.length + r.length < 8 then some (l ++ List.replicate (8 - l.length - r.length) 0 ++ r) else none
  if fields.length = 8 then some (fields.foldl (fun n v => 2 ^ 16 * n + v) 0) else none

/-- `net.IP` in its sixteen-byte form: an IPv4 address is mapped. -/
def mapIPv4 (v : Nat) : Nat := 0xffff * 2 ^ 32 + v

/-- `ip.To4()`. -/
def to4 (ip : Nat) : Option Nat := if ip / 2 ^ 32 = 0xffff then some (ip % 2 ^ 32) else none

/-- `netip.ParseAddr` without a zone: the address and its length in bits. -/
def parseAddr (s : String) : Option (Nat × Nat) :=
  match s.toList.find? (fun c => c == '.' || c == ':') with
  | some '.' => (parseIPv4 s.toList).map fun v => (mapIPv4 v, 32)
  | some _ => (parseIPv6 s.toList).map fun v => (v, 128)
  | none => none

/-- `net.ParseIP`. -/
def parseIP (s : String) : Option Nat := (parseAddr s).map (·.1)

/-- `net.ParseCIDR`: the address, the mask's ones and its length in bits. -/
def parseCIDR (s : String) : Option (Nat × Nat × Nat) :=
  let (address, mask) := s.toList.span (· ≠ '/')
  match mask with
  | [] => none
  | _ :: mask => do
    let (ip, bits) ← parseAddr (String.ofList address)
    if mask = [] ∨ ¬mask.all isDigit then none
    else
      let ones := mask.foldl (fun n c => 10 * n + (c.toNat - 48)) 0
      if ones ≤ bits then some (ip, ones, bits) else none

/-- `addIP`, on the four bytes of an address. -/
def addIP (ip value : Nat) : Nat := (ip + value) % 2 ^ 32

/-- `ip.String()` of an IPv4 address. -/
def dotted (v : Nat) : String :=
  toString (v / 2 ^ 24 % 256) ++ "." ++ toString (v / 2 ^ 16 % 256) ++ "." ++ toString (v / 2 ^ 8 % 256) ++ "." ++
    toString (v % 256)

/-- `ip.IsPrivate()` of an IPv4 address. -/
def isPrivate (v : Nat) : Bool :=
  v / 2 ^ 24 == 10 || v / 2 ^ 20 == 172 * 16 + 1 || v / 2 ^ 16 == 192 * 256 + 168

/-- The elements `filepath.Clean` keeps, last first. -/
def cleanStep (rooted : Bool) (out : List (List Char)) (part : List Char) : List (List Char) :=
  if part = [] ∨ part = ['.'] then out
  else if part = ['.', '.'] then
    match out with
    | [] => if rooted then [] else [part]
    | top :: rest => if top = ['.', '.'] then part :: out else rest
  else part :: out

/-- `filepath.Clean`. -/
def filepathClean (cs : List Char) : List Char :=
  let rooted := cs.head? == some '/'
  let parts := ((cs.splitOn '/').foldl (cleanStep rooted) []).reverse
  if rooted then '/' :: List.intercalate ['/'] parts
  else if parts = [] then ['.'] else List.intercalate ['/'] parts

/-- The text after the last slash, and the text up to and with it. -/
def splitLast (cs : List Char) : List Char × List Char :=
  ((cs.reverse.takeWhile (· ≠ '/')).reverse, (cs.reverse.dropWhile (· ≠ '/')).reverse)

/-- `filepath.Dir`. -/
def filepathDir (path : String) : String := String.ofList (filepathClean (splitLast path.toList).2)

/-- `filepath.Base`. -/
def filepathBase (path : String) : String :=
  if path = "" then "."
  else
    let cs := (path.toList.reverse.dropWhile (· == '/')).reverse
    if cs = [] then "/" else String.ofList (splitLast cs).1

/-! ## `types.go` -/

inductive LinkState where
  | allocating | ready | degraded | disconnected | deleting
  | other (text : String)
  deriving DecidableEq, Repr

/-- `Endpoint.Owner`; `unset` is the empty text. -/
inductive EndpointOwner where
  | unset | cni | runtime
  | other (text : String)
  deriving DecidableEq, Repr

structure DNS where
  nameservers : List String := []
  domain : String := ""
  search : List String := []
  options : List String := []
  deriving DecidableEq, Repr

structure Endpoint where
  containerID : String := ""
  networkName : String := ""
  ifName : String := ""
  netNS : String := ""
  owner : EndpointOwner := .unset
  managedNamespace : Bool := false
  sandboxID : String := ""
  sandboxGeneration : String := ""
  primaryBootID : String := ""
  generation : String := ""
  address : String := ""
  gateway : String := ""
  mtu : Int := 0
  dns : DNS := {}
  state : LinkState := .other ""
  createdAt : Nat := 0
  updatedAt : Nat := 0
  rxPackets : UInt64 := 0
  txPackets : UInt64 := 0
  rxDrops : UInt64 := 0
  txDrops : UInt64 := 0
  errors : UInt64 := 0
  deriving DecidableEq, Repr

/-- `APIError.Code`. -/
inductive APICode where
  | invalidArgument | notFound | alreadyExists | staleGeneration | staleIdentity | staleCounter
  | failedPrecondition | resourceExhausted | unsupported | internal
  deriving DecidableEq, Repr

structure APIError where
  code : APICode
  message : String
  retryable : Bool := false
  deriving DecidableEq, Repr

/-! ## Identities -/

/-- `^[A-Za-z0-9][A-Za-z0-9_.-]{0,127}$`. -/
def identifier : String → Bool :=
  matchesRE (fun c => isLower c || isUpper c || isDigit c)
    (fun c => isLower c || isUpper c || isDigit c || c == '_' || c == '.' || c == '-') 127

/-- `^[0-9a-f]{32}$`. -/
def endpointGeneration : String → Bool := generationRE

/-- `^[0-9a-f]{8}-[0-9a-f]{4}-[0-9a-f]{4}-[0-9a-f]{4}-[0-9a-f]{12}$`. -/
def primaryBootID : String → Bool := uuidRE

/-- `endpointKey`. No identifier contains the separator, so the triple is the
key. -/
def endpointKey (networkName containerID ifName : String) : String × String × String :=
  (networkName, containerID, ifName)

def Endpoint.key (e : Endpoint) : String × String × String := endpointKey e.networkName e.containerID e.ifName

/-- An endpoint is in the middle of an allocation or a deletion. -/
def Endpoint.transitional (e : Endpoint) : Bool := e.state == .allocating || e.state == .deleting

/-- `^/proc/([0-9]+)/ns/net$`. -/
def procNetNS (path : String) : Bool :=
  let cs := path.toList
  let digits := (cs.drop 6).takeWhile isDigit
  cs.take 6 == "/proc/".toList && digits ≠ [] && (cs.drop 6).dropWhile isDigit == "/ns/net".toList

/-- `if bad { return errors.New(text) }`; the checks of a function are joined
by `or`. -/
def refuse (bad : Prop) [Decidable bad] (text : String) : Option String := if bad then some text else none

@[simp] theorem refuse_eq_none {bad : Prop} [Decidable bad] {text : String} : refuse bad text = none ↔ ¬bad := by
  simp [refuse]

/-- The error of `netnsTarget`. -/
def netnsTarget (path : String) : Option String :=
  if procNetNS path then none
  else if (filepathDir path = "/run/netns" ∨ filepathDir path = "/var/run/netns") ∧ identifier (filepathBase path) then
    none
  else some "network namespace must be /proc/PID/ns/net or /run/netns/NAME"

def managedNamespacePath (generation : String) : String :=
  "/run/netns/mk-" ++ String.ofList (generation.toList.take 12)

structure Topology where
  hostIf : String
  chain : String
  guestNetwork : String
  transitHost : String
  transitPeer : String
  /-- The address of the child. -/
  child : Nat
  deriving DecidableEq, Repr

/-- The names and addresses of an endpoint. -/
def endpointTopology (e : Endpoint) : Except String Topology :=
  if ¬endpointGeneration e.generation then
    .error "endpoint generation is not a 128-bit lowercase hexadecimal value"
  else match (parseCIDR e.address).bind fun c => (to4 c.1).map fun ip => (ip, c.2) with
  | none => .error "endpoint address is not IPv4 CIDR"
  | some (ip, ones, bits) =>
    let network := ip / 4 * 4
    if bits ≠ 32 ∨ ones ≠ 30 ∨ ip ≠ addIP network 2 then
      .error "endpoint address must be the second usable address of an IPv4 /30"
    else if parseIP e.gateway ≠ some (mapIPv4 (addIP network 1)) then
      .error "endpoint gateway does not match its IPv4 /30"
    else
      let slot := ip % 2 ^ 16 / 4
      let third := slot / 64
      let fourth := slot % 64 * 4 + 1
      if third > 255 then .error "endpoint address exceeds the transit allocation range"
      else .ok
        { hostIf := "mkv" ++ String.ofList (e.generation.toList.take 11)
          chain := "MK-" ++ String.ofList (e.generation.toList.take 12)
          guestNetwork := dotted network ++ "/30"
          transitHost := "100.64." ++ toString third ++ "." ++ toString fourth
          transitPeer := "100.64." ++ toString third ++ "." ++ toString (fourth + 1)
          child := ip }

def refusal {α : Type} : Except String α → Option String
  | .error text => some text
  | .ok _ => none

def DNS.oversized (d : DNS) : Bool := d.nameservers.length > 8 || d.search.length > 8 || d.options.length > 8

def validateStoredEndpoint (key : String × String × String) (e : Endpoint) : Option String :=
  (refuse (key ≠ e.key ∨ ¬identifier e.networkName ∨ ¬identifier e.containerID ∨ ¬identifier e.ifName ∨
    e.ifName.utf8ByteSize > 15) "endpoint key or workload identity is invalid").or <|
  (refuse (e.owner ≠ .cni ∧ e.owner ≠ .runtime) "endpoint owner is invalid").or <|
  (refuse (e.primaryBootID ≠ "" ∧ ¬primaryBootID e.primaryBootID) "endpoint primary boot ID is invalid").or <|
  (refuse (e.managedNamespace ≠ (e.owner == .runtime)) "managed namespace ownership is inconsistent").or <|
  (refusal (endpointTopology e)).or <|
  (refuse (e.mtu < 576 ∨ e.mtu > 65515) "endpoint MTU is invalid").or <|
  (if e.managedNamespace then
    refuse (e.netNS ≠ managedNamespacePath e.generation) "managed namespace path differs from its generation"
  else netnsTarget e.netNS).or <|
  (refuse (e.state ∉ [.allocating, .deleting, .ready, .degraded, .disconnected]) "endpoint state is invalid").or <|
  (refuse (¬(e.sandboxID = "" ↔ e.sandboxGeneration = "") ∨
    e.sandboxID ≠ "" ∧ (¬identifier e.sandboxID ∨ ¬endpointGeneration e.sandboxGeneration))
    "endpoint sandbox binding is invalid").or <|
  (refuse (e.state = .allocating ∧ e.sandboxID ≠ "") "allocating endpoint may not be sandbox-bound").or <|
  (refuse e.dns.oversized "endpoint DNS policy is oversized").or <|
  refuse (e.dns.nameservers.any fun server => (parseIP server).isNone) "endpoint DNS server is invalid"

section Stored
variable {key : String × String × String} {e : Endpoint}

theorem key_of_stored (h : validateStoredEndpoint key e = none) : e.key = key := by
  simp only [validateStoredEndpoint, Option.or_eq_none_iff, refuse_eq_none, not_or, not_not] at h
  exact h.1.1.symm

/-- An endpoint still being allocated belongs to no sandbox. -/
theorem unbound_of_allocating (h : validateStoredEndpoint key e = none) (hs : e.state = .allocating) :
    e.sandboxID = "" := by
  simp only [validateStoredEndpoint, Option.or_eq_none_iff, refuse_eq_none, not_and, not_not] at h
  exact h.2.2.2.2.2.2.2.2.2.1 hs

end Stored

def validateEndpoint (e : Endpoint) (requireNetNS : Bool) : Option APIError :=
  if ¬identifier e.containerID ∨ ¬identifier e.networkName ∨ ¬identifier e.ifName then
    some ⟨.invalidArgument, "network, container ID, and interface name must be valid identifiers", false⟩
  else if e.ifName.utf8ByteSize > 15 then
    some ⟨.invalidArgument, "interface name exceeds the Linux 15-byte limit", false⟩
  else if requireNetNS ∧ ¬e.managedNamespace ∧ e.netNS.toList.head? ≠ some '/' then
    some ⟨.invalidArgument, "ADD and CHECK require an absolute network namespace path", false⟩
  else none

def sameAdd (a b : Endpoint) : Bool :=
  let netNSMatches := a.netNS == b.netNS || a.managedNamespace && b.managedNamespace && (a.netNS == "" || b.netNS == "")
  a.containerID == b.containerID && a.networkName == b.networkName && a.ifName == b.ifName && netNSMatches &&
    a.owner == b.owner && a.managedNamespace == b.managedNamespace

end Multikernel.Network
