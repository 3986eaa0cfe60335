import Multikernel.Lib.Logic
import Multikernel.Network.Endpoint
/-!
# The guest's network

`ConfigureNetworkContext` and `CloseNetworkContext` (`runtime/agent/manager.go`)
create the guest's TUN link and replace its `resolv.conf`. The link is not
persistent: it goes with the last descriptor. Every call can fail, and some fail
after they have taken effect.

A setup that fails once the link is there closes the descriptor first and then
deletes the link by name, which is gone; the manager keeps the name as a
leftover, and no `CloseNetwork` can delete it. `network_recoverable_iff`: the
manager gets back to a working network exactly if setup failed before that.

Left out: the path of `resolv.conf`, its owner and its link count, and the
causes inside error texts.
-/

namespace Multikernel.GuestNetwork
open Lib
open Network (parseIP parseCIDR to4)

/-! ## The system -/

/-- What `/bundle/rootfs/etc/resolv.conf` can be. -/
inductive Entry where
  | regular (content : String) (mode : Nat)
  | symlink (target : String)
  | other
  deriving DecidableEq, Repr

/-- `tun` is the descriptor of `/dev/net/tun` and the link it has; an entry of
the directory has its inode. -/
structure World where
  tun : Option (Option String) := none
  others : List String := []
  resolv : Option (Nat × Entry) := none
  next : Nat := 1
  deriving DecidableEq, Repr

def World.hasLink (w : World) (name : String) : Bool := w.tun = some (some name) || name ∈ w.others

def World.deleteLink (w : World) (name : String) : World :=
  if w.tun = some (some name) then { w with tun := some none } else { w with others := w.others.filter (· ≠ name) }

/-- The commands given to `ip`. -/
inductive Command where
  | addressAdd (address dev : String)
  | linkSet (dev : String) (mtu : Int)
  | routeAdd (gateway dev : String)
  | linkDelete (dev : String)
  deriving DecidableEq, Repr

inductive Call where
  | ctxErr
  | openTun
  | tunSetIff (name : String)
  | closeTun
  | ip (command : Command)
  | openDirectory
  | entryIdentity
  | readRegular (mode : Nat)
  | captureSymlink
  | removeIf (inode : Nat)
  | publishRegular (content : String) (mode : Nat)
  | publishSymlink (target : String)
  | sync
  | closeDirectory
  deriving DecidableEq, Repr

/-- A `Bool` alone says that the call failed. -/
abbrev Call.Reply : Call → Type
  | .entryIdentity => Option (Option Entry)
  | .readRegular _ => Option (String × Nat)
  | .captureSymlink => Option (String × Nat)
  | .removeIf _ => Bool × Bool
  | .publishRegular _ _ => Option Nat × Bool
  | .publishSymlink _ => Option Nat × Bool
  | _ => Bool

/-- A call works if it can, fails, or fails after it has taken effect. -/
inductive Answer where
  | ok
  | fail
  | late
  deriving DecidableEq, Repr

/-- A new entry where there is none. -/
def World.publish (w : World) (a : Answer) (e : Entry) (valid : Bool) : World × Option Nat × Bool :=
  if a = .fail ∨ ¬valid then (w, none, true)
  else
    match w.resolv with
    | some _ => (w, none, false)
    | none => ({ w with resolv := some (w.next, e), next := w.next + 1 }, some w.next, a = .late)

def World.ip (w : World) (a : Answer) : Command → World × Bool
  | .linkDelete dev => if w.hasLink dev ∧ a ≠ .fail then (w.deleteLink dev, a = .late) else (w, true)
  | .addressAdd _ dev => (w, a ≠ .ok || !w.hasLink dev)
  | .linkSet dev _ => (w, a ≠ .ok || !w.hasLink dev)
  | .routeAdd _ dev => (w, a ≠ .ok || !w.hasLink dev)

def World.removeIf (w : World) (a : Answer) (inode : Nat) : World × Bool × Bool :=
  match w.resolv with
  | none => (w, false, a ≠ .ok)
  | some (i, _) =>
    if i ≠ inode ∨ a = .fail then (w, false, true) else ({ w with resolv := none }, true, a = .late)

def step (w : World) (c : Call) (a : Answer) : World × c.Reply :=
  match c with
  | .ctxErr => (w, decide (a ≠ .ok))
  | .openTun => if a = .ok then ({ w with tun := some none }, false) else (w, true)
  | .tunSetIff name =>
    if a = .ok ∧ ¬w.hasLink name then ({ w with tun := some (some name) }, false) else (w, true)
  | .closeTun => ({ w with tun := none }, decide (a ≠ .ok))
  | .ip command => w.ip a command
  | .openDirectory => (w, decide (a ≠ .ok))
  | .entryIdentity => (w, if a = .ok then some (w.resolv.map (·.2)) else none)
  | .readRegular mode =>
    (w, match w.resolv with
      | some (i, .regular content mode') =>
        if a = .ok ∧ mode' = mode ∧ content.utf8ByteSize ≤ 1048576 then some (content, i) else none
      | _ => none)
  | .captureSymlink =>
    (w, match w.resolv with
      | some (i, .symlink target) => if a = .ok ∧ target.utf8ByteSize ≤ 4096 then some (target, i) else none
      | _ => none)
  | .removeIf inode => w.removeIf a inode
  | .publishRegular content mode => w.publish a (.regular content mode) (mode &&& 18 = 0)
  | .publishSymlink target => w.publish a (.symlink target) (target ≠ "" && target.utf8ByteSize ≤ 4096)
  | .sync => (w, decide (a ≠ .ok))
  | .closeDirectory => (w, decide (a ≠ .ok))

abbrev GuestI : Interface := ⟨Call, Call.Reply⟩

abbrev Guest : Machine GuestI := ⟨World, Answer, step⟩

abbrev Act := Prog GuestI

def perform (c : Call) : Act c.Reply := Prog.perform (I := GuestI) c

/-! ## `resolv.conf` -/

/-- `dnsReplacement`; `managed` is the inode if `managedOwned`. -/
structure DnsReplacement where
  original : String := ""
  originalSymlink : String := ""
  originalMode : Nat := 0
  originalExisted : Bool := false
  originalRemoved : Bool := false
  managed : Option Nat := none
  restored : Bool := false
  deriving DecidableEq, Repr

/-- The second half of `restore`: put back what was removed. -/
def DnsReplacement.putBack (d : DnsReplacement) : Act (DnsReplacement × Bool) := do
  if ¬d.originalExisted ∨ ¬d.originalRemoved then
    return ({ d with restored := true }, false)
  else
    let r ← (if d.originalSymlink ≠ "" then perform (.publishSymlink d.originalSymlink)
      else perform (.publishRegular d.original d.originalMode))
    return (if r.1.isSome then { d with restored := true, originalRemoved := false } else d, r.2 || r.1.isNone)

def DnsReplacement.restore (d : DnsReplacement) : Act (DnsReplacement × Bool) := do
  if d.restored then
    return (d, ← perform .sync)
  else
    match d.managed with
    | none => d.putBack
    | some inode =>
      let r ← perform (.removeIf inode)
      if r.2 then return (d, true) else DnsReplacement.putBack { d with managed := none }

/-- The managed file in the place of the original. -/
def publishManaged (d : DnsReplacement) (nameservers : List String) : Act (DnsReplacement × Bool) := do
  let r ← perform (.publishRegular (String.join (nameservers.map fun server => "nameserver " ++ server ++ "\n")) 420)
  return ({ d with managed := r.1 }, r.2 || r.1.isNone)

/-- Take the original away, then publish. -/
def removeOriginal (d : DnsReplacement) (inode : Nat) (nameservers : List String) : Act (DnsReplacement × Bool) := do
  let r ← perform (.removeIf inode)
  if r.2 ∨ ¬r.1 then return (d, true) else publishManaged { d with originalRemoved := true } nameservers

def replaceEntry (nameservers : List String) : Act (DnsReplacement × Bool) := do
  match ← perform .entryIdentity with
  | none => return ({}, true)
  | some none => publishManaged {} nameservers
  | some (some (.regular _ mode)) =>
    let d : DnsReplacement := { originalExisted := true, originalMode := mode }
    if mode &&& 18 ≠ 0 then return (d, true)
    else
      match ← perform (.readRegular mode) with
      | none => return (d, true)
      | some (original, inode) => removeOriginal { d with original } inode nameservers
  | some (some (.symlink _)) =>
    let d : DnsReplacement := { originalExisted := true }
    match ← perform .captureSymlink with
    | none => return (d, true)
    | some (originalSymlink, inode) => removeOriginal { d with originalSymlink } inode nameservers
  | some (some .other) => return ({ originalExisted := true }, true)

/-- The owner if there is something left to own, and whether it failed. -/
def replaceDNS (nameservers : List String) : Act (Option DnsReplacement × Bool) := do
  if ← perform .openDirectory then
    return (none, true)
  else
    let r ← replaceEntry nameservers
    if r.2 then
      let restored ← r.1.restore
      if restored.2 then
        return (some restored.1, true)
      else
        let _ ← perform .closeDirectory
        return (none, true)
    else
      return (some r.1, false)

/-! ## The manager -/

structure NetworkConfig where
  name : String
  address : String
  gateway : String
  mtu : Int
  nameservers : List String := []
  deriving DecidableEq, Repr

/-- The manager's fields about the network. A `networkConfig` has a name. -/
structure Manager where
  network : Bool := false
  networkName : String := ""
  networkMTU : Int := 0
  networkConfig : Option NetworkConfig := none
  dnsOwner : Option DnsReplacement := none
  dnsManaged : Bool := false
  deriving DecidableEq, Repr

inductive Stage where
  | tunOpen
  | tunRequest
  | tunCreate
  | address
  | link
  | route
  | dns
  deriving DecidableEq, Repr

inductive Failure where
  | context
  | invalidArgument (text : String)
  | failedPrecondition (text : String)
  | setup (stage : Stage)
  | cleanup (text : String)
  deriving DecidableEq, Repr

/-- `subnet.Contains(gateway)`, for a subnet whose address is IPv4 or mapped. -/
def subnetContains (ip ones bits gateway : Nat) : Bool :=
  if bits = 32 ∨ 96 ≤ ones then
    let host := if bits = 32 then 32 - ones else 128 - ones
    (to4 gateway).any fun g => g / 2 ^ host == ip % 2 ^ 32 / 2 ^ host
  else (to4 gateway).isNone && gateway / 2 ^ (128 - ones) == ip / 2 ^ (128 - ones)

def NetworkConfig.check (c : NetworkConfig) : Option Failure :=
  if c.name = "" ∨ 15 < c.name.utf8ByteSize ∨ c.address = "" ∨ c.gateway = "" ∨ c.mtu < 576 ∨ 65515 < c.mtu then
    some (.invalidArgument "valid network name, address, gateway, and MTU are required")
  else
    match (parseCIDR c.address).filter fun a => (to4 a.1).isSome with
    | none => some (.invalidArgument "network address must be IPv4 CIDR")
    | some (ip, ones, bits) =>
      if (parseIP c.gateway).all fun gateway => !subnetContains ip ones bits gateway || gateway == ip then
        some (.invalidArgument "network gateway must be a distinct address in the endpoint subnet")
      else if c.nameservers.any fun server => (parseIP server).isNone then
        some (.invalidArgument "network DNS server is not an IP address")
      else none

def NetworkConfig.commands (c : NetworkConfig) : List (Stage × Command) :=
  [(.address, .addressAdd c.address c.name), (.link, .linkSet c.name c.mtu), (.route, .routeAdd c.gateway c.name)]

/-- The stage of the first command that fails. -/
def runCommands : List (Stage × Command) → Act (Option Stage)
  | [] => return none
  | (stage, command) :: rest => do
    if ← perform (.ip command) then return some stage else runCommands rest

/-- What a failed setup does once the link is there. -/
def abandon (m : Manager) (name : String) (stage : Stage) (text : String) : Act (Manager × List Failure) := do
  let _ ← perform .closeTun
  if ← perform (.ip (.linkDelete name)) then
    return ({ m with networkName := name }, [.setup stage, .cleanup text])
  else
    return (m, [.setup stage])

/-- The setup with the link there. -/
def setUp (m : Manager) (c : NetworkConfig) : Act (Manager × List Failure) := do
  match ← runCommands c.commands with
  | some stage => abandon m c.name stage "delete child network after setup failure"
  | none =>
    let r ← replaceDNS c.nameservers
    if r.2 then
      abandon { m with dnsOwner := r.1, dnsManaged := r.1.isSome } c.name .dns "delete child network after DNS failure"
    else
      return ({ network := true, networkName := c.name, networkMTU := c.mtu, networkConfig := some c
                dnsOwner := r.1, dnsManaged := true }, [])

/-- The link, then what needs it. -/
def createLink (m : Manager) (c : NetworkConfig) : Act (Manager × List Failure) := do
  if ← perform .openTun then
    return (m, [.setup .tunOpen])
  else if 16 ≤ c.name.utf8ByteSize then
    let _ ← perform .closeTun
    return (m, [.setup .tunRequest])
  else if ← perform (.tunSetIff c.name) then
    let _ ← perform .closeTun
    return (m, [.setup .tunCreate])
  else
    setUp m c

/-- An empty list of failures is a nil error. -/
def configureNetworkContext (m : Manager) (c : NetworkConfig) : Act (Manager × List Failure) := do
  if ← perform .ctxErr then
    return (m, [.context])
  else
    match c.check with
    | some failure => return (m, [failure])
    | none =>
      if m.network ∧ m.networkName = c.name ∧ m.networkMTU = c.mtu ∧ m.dnsManaged ∧ m.networkConfig = some c then
        return (m, [])
      else if m.network ∨ m.networkName ≠ "" ∨ m.dnsManaged ∨ m.networkConfig.isSome then
        return (m, [.failedPrecondition "network is already configured or cleanup is pending"])
      else
        createLink m c

/-- The link, by its name. -/
def closeLink (m : Manager) : Act (Manager × List Failure) := do
  if m.networkName ≠ "" then
    if ← perform (.ip (.linkDelete m.networkName)) then
      return (m, [.cleanup "delete child network"])
    else
      return ({ m with networkName := "", networkMTU := 0 }, [])
  else
    return (m, [])

/-- The descriptor, once no name is left. -/
def closeDevice (m : Manager) : Act (Manager × List Failure) := do
  if m.network ∧ m.networkName = "" then
    let failed ← perform .closeTun
    return ({ m with network := false }, if failed then [.cleanup "close"] else [])
  else
    return (m, [])

def closeDNS (m : Manager) : Act (Manager × List Failure) := do
  if m.dnsManaged then
    match m.dnsOwner with
    | none => return (m, [.cleanup "restore DNS: ownership state is missing"])
    | some owner =>
      let r ← owner.restore
      if r.2 then
        return ({ m with dnsOwner := some r.1 }, [.cleanup "restore DNS"])
      else
        let failed ← perform .closeDirectory
        return ({ m with dnsOwner := none, dnsManaged := false }, if failed then [.cleanup "close DNS ownership"] else [])
  else
    return (m, [])

def closeNetworkContext (m : Manager) : Act (Manager × List Failure) := do
  if ← perform .ctxErr then
    return (m, [.context])
  else
    let link ← closeLink m
    let device ← closeDevice link.1
    let dns ← closeDNS device.1
    let failures := link.2 ++ device.2 ++ dns.2
    return (if failures = [] then { dns.1 with networkConfig := none } else dns.1, failures)

/-! ## Getting back -/

/-- The original is there as it was, and a file or link `replaceDNS` takes. -/
def Resolvable (original : Option Entry) : Prop :=
  match original with
  | none => True
  | some (.regular content mode) => mode &&& 18 = 0 ∧ content.utf8ByteSize ≤ 1048576
  | some (.symlink target) => target ≠ "" ∧ target.utf8ByteSize ≤ 4096
  | some .other => False

/-- The request is valid and its link's name is not in use. -/
def Workable (c : NetworkConfig) (w : World) : Prop := c.check = none ∧ c.name ∉ w.others

/-- A program with every call working. -/
def works {α : Type} (p : Act α) (w : World) : World × α := finish Guest p w fun _ => .ok

theorem works_bind {α β : Type} (p : Act α) (f : α → Act β) (w : World) :
    works (p >>= f) w = works (f (works p w).2) (works p w).1 := finish_bind Guest p f w .ok

theorem works_perform {α : Type} (call : Call) (f : call.Reply → Act α) (w : World) :
    works (perform call >>= f) w = works (f (step w call .ok).2) (step w call .ok).1 := rfl

/-- With every call working, `CloseNetwork` succeeds, the original `resolv.conf`
is then in place, and a following `ConfigureNetwork` succeeds. -/
def Recovers (original : Option Entry) (m : Manager) (w : World) : Prop :=
  ∃ m₁ w₁, works (closeNetworkContext m) w = (w₁, m₁, []) ∧ w₁.resolv.map (·.2) = original
    ∧ ∀ c, Workable c w₁ → (works (configureNetworkContext m₁ c) w₁).2.2 = []

/-! ### A leftover name -/

section Stuck
variable {c : NetworkConfig} {m : Manager} {w : World}

/-- The manager keeps the name of a link that does not exist. -/
def Stuck (name : String) (m : Manager) (w : World) : Prop := m.networkName = name ∧ w.hasLink name = false

abbrev anyAnswer : Trans GuestI World := Guest.trans fun _ _ _ => True

abbrev After {α : Type} (p : Act α) (w : World) (Q : α → World → Prop) : Prop := Sat anyAnswer (fun _ _ => True) p w Q

/-- One call, with any answer. -/
theorem after_perform {call : Call} {α : Type} {f : call.Reply → Act α} {Q : α → World → Prop}
    (h : ∀ a, After (f (step w call a).2) (step w call a).1 Q) : After (perform call >>= f) w Q := by
  refine ⟨trivial, ?_⟩
  rintro r w' ⟨a, -, hstep⟩
  have hworld : w' = (step w call a).1 := (congrArg Prod.fst hstep).symm
  have hreply : r = (step w call a).2 := (congrArg Prod.snd hstep).symm
  rw [hworld, hreply]
  exact h a

/-- A missing link cannot be deleted. -/
theorem ip_linkDelete_missing {name : String} (h : w.hasLink name = false) (a : Answer) :
    w.ip a (.linkDelete name) = (w, true) := by
  simp [World.ip, h]

theorem after_abandon (hname : c.name ∉ w.others) (stage : Stage) (text : String) :
    After (abandon m c.name stage text) w fun r w' => r.2 ≠ [] ∧ Stuck c.name r.1 w' := by
  unfold abandon
  apply after_perform
  intro a
  -- the link went with its descriptor
  have hgone : (step w .closeTun a).1.hasLink c.name = false := by simp [step, World.hasLink, hname]
  apply after_perform
  intro b
  have hdelete : step (step w .closeTun a).1 (.ip (.linkDelete c.name)) b = ((step w .closeTun a).1, true) :=
    ip_linkDelete_missing hgone b
  rw [hdelete]
  exact ⟨by simp, rfl, hgone⟩

/-- The calls about `resolv.conf`. -/
def Call.AboutDNS : Call → Prop
  | .openDirectory | .entryIdentity | .readRegular _ | .captureSymlink | .removeIf _ | .publishRegular _ _
  | .publishSymlink _ | .sync | .closeDirectory => True
  | _ => False

theorem publish_others (w : World) (a : Answer) (e : Entry) (valid : Bool) : (w.publish a e valid).1.others = w.others := by
  unfold World.publish
  split
  · rfl
  · split <;> rfl

theorem removeIf_others (w : World) (a : Answer) (inode : Nat) : (w.removeIf a inode).1.others = w.others := by
  unfold World.removeIf
  split
  · rfl
  · split <;> rfl

theorem step_others (w : World) (call : Call) (a : Answer) (h : call.AboutDNS) : (step w call a).1.others = w.others := by
  cases call with
  | publishRegular | publishSymlink => exact publish_others _ _ _ _
  | removeIf inode => exact removeIf_others _ _ _
  | ctxErr | openTun | tunSetIff _ | closeTun | ip _ => exact h.elim
  | _ => rfl

abbrev DnsOnly {α : Type} (p : Act α) : Prop := Only Call.AboutDNS p

theorem dnsOnly_call {call : Call} {α : Type} {f : call.Reply → Act α} (hc : call.AboutDNS) (h : ∀ r, DnsOnly (f r)) :
    DnsOnly (perform call >>= f) :=
  ⟨hc, fun r _ _ => h r⟩

theorem dnsOnly_putBack (d : DnsReplacement) : DnsOnly d.putBack := by
  unfold DnsReplacement.putBack
  refine Sat.unless trivial fun _ => ?_
  apply Emits.bind (R := fun _ => True)
  · refine Sat.unless ?_ fun _ => ?_
    · exact ⟨trivial, fun _ _ _ => trivial⟩
    · exact ⟨trivial, fun _ _ _ => trivial⟩
  · intro r _
    trivial

theorem dnsOnly_restore (d : DnsReplacement) : DnsOnly d.restore := by
  unfold DnsReplacement.restore
  refine Sat.unless ?_ fun _ => ?_
  · exact dnsOnly_call (by trivial) fun _ => trivial
  · cases d.managed with
    | none => exact dnsOnly_putBack d
    | some inode =>
      refine dnsOnly_call (by trivial) ?_
      intro r
      exact Sat.unless trivial fun _ => dnsOnly_putBack _

theorem dnsOnly_publishManaged (d : DnsReplacement) (nameservers : List String) : DnsOnly (publishManaged d nameservers) :=
  dnsOnly_call (by trivial) fun _ => trivial

theorem dnsOnly_removeOriginal (d : DnsReplacement) (inode : Nat) (nameservers : List String) :
    DnsOnly (removeOriginal d inode nameservers) := by
  refine dnsOnly_call (by trivial) ?_
  intro r
  exact Sat.unless trivial fun _ => dnsOnly_publishManaged _ _

theorem dnsOnly_replaceEntry (nameservers : List String) : DnsOnly (replaceEntry nameservers) := by
  refine dnsOnly_call (by trivial) ?_
  intro r
  match r with
  | none => trivial
  | some none => exact dnsOnly_publishManaged _ _
  | some (some (.regular _ mode)) =>
    refine Sat.unless trivial fun _ => ?_
    refine dnsOnly_call (by trivial) ?_
    intro r
    match r with
    | none => trivial
    | some (original, inode) => exact dnsOnly_removeOriginal _ _ _
  | some (some (.symlink _)) =>
    refine dnsOnly_call (by trivial) ?_
    intro r
    match r with
    | none => trivial
    | some (target, inode) => exact dnsOnly_removeOriginal _ _ _
  | some (some .other) => trivial

theorem dnsOnly_replaceDNS (nameservers : List String) : DnsOnly (replaceDNS nameservers) := by
  refine dnsOnly_call (by trivial) ?_
  intro failed
  refine Sat.unless trivial fun _ => ?_
  apply Emits.bind (dnsOnly_replaceEntry nameservers)
  intro r _
  refine Sat.unless ?_ fun _ => trivial
  apply Emits.bind (dnsOnly_restore _)
  intro restored _
  exact Sat.unless trivial fun _ => dnsOnly_call (by trivial) fun _ => trivial

theorem after_replaceDNS (w : World) (nameservers : List String) :
    After (replaceDNS nameservers) w fun _ w' => w'.others = w.others := by
  have h := (dnsOnly_replaceDNS nameservers).sat (T := anyAnswer) (J := fun w' => w'.others = w.others) (s := w) rfl (by
    rintro w₁ call r w₂ hw hc ⟨a, -, hstep⟩
    have hothers := step_others w₁ call a hc
    rw [show (step w₁ call a).1 = w₂ from congrArg Prod.fst hstep] at hothers
    exact hothers.trans hw)
  exact h.imp (fun _ _ _ => trivial) fun _ _ hr => hr.1

theorem after_runCommands (w : World) (l : List (Stage × Command)) (hl : ∀ x ∈ l, ∀ dev, x.2 ≠ .linkDelete dev) :
    After (runCommands l) w fun _ w' => w'.others = w.others := by
  induction l with
  | nil => rfl
  | cons x l ih =>
    obtain ⟨stage, command⟩ := x
    have hworld : ∀ a, (w.ip a command).1 = w := by
      intro a
      cases command with
      | linkDelete dev => exact absurd rfl (hl _ List.mem_cons_self dev)
      | _ => rfl
    unfold runCommands
    apply after_perform
    intro a
    rw [show (step w (.ip command) a).1 = w from hworld a]
    exact Sat.unless rfl fun _ => ih fun x hx => hl x (List.mem_cons_of_mem _ hx)

/-- Whatever fails once the link is there leaves its name behind. -/
theorem after_setUp (hname : c.name ∉ w.others) : After (setUp m c) w fun r w' => r.2 ≠ [] → Stuck c.name r.1 w' := by
  unfold setUp
  apply Sat.bind (after_runCommands w c.commands (by simp [NetworkConfig.commands]))
  intro stage w₁ hw₁
  cases stage with
  | some stage => exact (after_abandon (hw₁ ▸ hname) stage _).mono fun _ _ h _ => h.2
  | none =>
    apply Sat.bind (after_replaceDNS w₁ c.nameservers)
    intro r w₂ hw₂
    have hname₂ : c.name ∉ w₂.others := by rw [hw₂, hw₁]; exact hname
    refine Sat.unless ?_ fun _ hfail => absurd rfl hfail
    exact (after_abandon hname₂ .dns _).mono fun _ _ h _ => h.2

/-- With a name of no link, `CloseNetwork` fails on a system that works. -/
theorem Stuck.not_recovers (h : Stuck c.name m w) (hname : c.name ≠ "") (original : Option Entry) :
    ¬Recovers original m w := by
  rintro ⟨m₁, w₁, hclose, -⟩
  obtain ⟨hm, hlink⟩ := h
  have hdelete : step w (.ip (.linkDelete c.name)) .ok = (w, true) := ip_linkDelete_missing hlink .ok
  have hfirst : works (closeLink m) w = (w, m, [.cleanup "delete child network"]) := by
    unfold closeLink
    rw [if_pos (by rw [hm]; exact hname), hm, works_perform, hdelete]
    rfl
  have hfailures : (works (closeNetworkContext m) w).2.2 = [] := by rw [hclose]
  unfold closeNetworkContext at hfailures
  rw [works_perform, if_neg (by simp [step]), works_bind, show (step w .ctxErr .ok).1 = w from rfl, hfirst,
    works_bind, works_bind] at hfailures
  exact absurd hfailures (by simp [works, finish, pure])

end Stuck

/-! ### A system that works -/

section Works
variable {c : NetworkConfig} {m : Manager} {w w' : World} {α : Type}

theorem works_publish (e : Entry) {valid : Bool} (hv : valid = true) (hw : w.resolv = none) :
    w.publish .ok e valid = ({ w with resolv := some (w.next, e), next := w.next + 1 }, some w.next, false) := by
  simp [World.publish, hv, hw]

theorem works_publishManaged (d : DnsReplacement) (nameservers : List String) (hw : w.resolv = none) :
    (works (publishManaged d nameservers) w).2.2 = false := by
  unfold publishManaged
  rw [works_perform]
  have hpublish := works_publish (w := w)
    (.regular (String.join (nameservers.map fun server => "nameserver " ++ server ++ "\n")) 420)
    (show decide (420 &&& 18 = 0) = true by decide) hw
  simp only [step, hpublish]
  rfl

theorem works_removeOriginal (d : DnsReplacement) {inode : Nat} {e : Entry} (nameservers : List String)
    (hw : w.resolv = some (inode, e)) : (works (removeOriginal d inode nameservers) w).2.2 = false := by
  unfold removeOriginal
  rw [works_perform]
  have hremove : step w (.removeIf inode) .ok = ({ w with resolv := none }, true, false) := by
    simp [step, World.removeIf, hw]
  rw [hremove]
  exact works_publishManaged _ nameservers rfl

theorem works_replaceEntry (nameservers : List String) (hfit : Resolvable (w.resolv.map (·.2))) :
    (works (replaceEntry nameservers) w).2.2 = false := by
  unfold replaceEntry
  rw [works_perform]
  match hw : w.resolv with
  | none =>
    simp only [step, hw]
    exact works_publishManaged _ nameservers hw
  | some (i, .regular content mode) =>
    rw [hw] at hfit
    obtain ⟨hmode, hsize⟩ := hfit
    simp only [step, hw, if_true, Option.map_some]
    rw [if_neg (not_not.2 hmode), works_perform]
    have hread : step w (.readRegular mode) .ok = (w, some (content, i)) := by simp [step, hw, hsize]
    rw [hread]
    exact works_removeOriginal _ nameservers hw
  | some (i, .symlink target) =>
    rw [hw] at hfit
    obtain ⟨-, hsize⟩ := hfit
    simp only [step, hw, if_true, Option.map_some]
    rw [works_perform]
    have hread : step w .captureSymlink .ok = (w, some (target, i)) := by simp [step, hw, hsize]
    rw [hread]
    exact works_removeOriginal _ nameservers hw
  | some (i, .other) =>
    rw [hw] at hfit
    exact hfit.elim

theorem works_replaceDNS (nameservers : List String) (hfit : Resolvable (w.resolv.map (·.2))) :
    (works (replaceDNS nameservers) w).2.2 = false := by
  unfold replaceDNS
  rw [works_perform, if_neg (by simp [step]), works_bind]
  have hentry : ¬(works (replaceEntry nameservers) (step w .openDirectory .ok).1).2.2 = true := by
    rw [show (step w .openDirectory .ok).1 = w from rfl, works_replaceEntry nameservers hfit]
    simp
  rw [if_neg hentry]
  rfl

theorem works_runCommands {l : List (Stage × Command)} (h : ∀ x ∈ l, w.ip .ok x.2 = (w, false)) :
    works (runCommands l) w = (w, none) := by
  induction l with
  | nil => rfl
  | cons x l ih =>
    obtain ⟨stage, command⟩ := x
    have hip : step w (.ip command) .ok = (w, false) := h _ List.mem_cons_self
    unfold runCommands
    rw [works_perform, hip]
    exact ih fun x hx => h x (List.mem_cons_of_mem _ hx)

theorem works_setUp (hlink : w.hasLink c.name) (hfit : Resolvable (w.resolv.map (·.2))) : (works (setUp m c) w).2.2 = [] := by
  have hcommands : works (runCommands c.commands) w = (w, none) := by
    apply works_runCommands
    intro x hx
    simp only [NetworkConfig.commands, List.mem_cons, List.not_mem_nil, or_false] at hx
    rcases hx with rfl | rfl | rfl
    · simp [World.ip, hlink]
    · simp [World.ip, hlink]
    · simp [World.ip, hlink]
  have hdns : ¬(works (replaceDNS c.nameservers) w).2.2 = true := by
    rw [works_replaceDNS c.nameservers hfit]
    simp
  unfold setUp
  rw [works_bind, hcommands, works_bind, if_neg hdns]
  rfl

/-- A checked name fits into an interface request. -/
theorem name_fits (hcheck : c.check = none) : c.name ≠ "" ∧ ¬16 ≤ c.name.utf8ByteSize := by
  unfold NetworkConfig.check at hcheck
  split at hcheck
  · cases hcheck
  · rename_i hbounds
    rw [not_or, not_or] at hbounds
    exact ⟨hbounds.1, fun hlong => hbounds.2.1 hlong⟩

/-- An unconfigured manager configures the network. -/
theorem works_configure (hc : Workable c w) (hfit : Resolvable (w.resolv.map (·.2))) :
    (works (configureNetworkContext {} c) w).2.2 = [] := by
  obtain ⟨hcheck, hname⟩ := hc
  have hlink : step { w with tun := some none } (.tunSetIff c.name) .ok = ({ w with tun := some (some c.name) }, false) := by
    simp [step, World.hasLink, hname]
  unfold configureNetworkContext
  rw [works_perform, if_neg (by simp [step]), hcheck]
  simp only
  rw [if_neg (by simp), if_neg (by simp), createLink, works_perform, if_neg (by simp [step]), if_neg (name_fits hcheck).2,
    works_perform]
  have hopen : (step (step w .ctxErr .ok).1 .openTun .ok).1 = { w with tun := some none } := rfl
  rw [hopen, hlink]
  exact works_setUp (by simp [World.hasLink]) hfit

/-- A manager that is unconfigured still recovers. -/
theorem recovers_idle (hfit : Resolvable (w.resolv.map (·.2))) : Recovers (w.resolv.map (·.2)) {} w :=
  ⟨{}, w, rfl, rfl, fun _ hc => works_configure hc hfit⟩

end Works

/-! ### Where setup fails -/

/-- The link came to be: the request was valid, and the answers to the context's
check, to opening the device and to `TUNSETIFF` were good. -/
def LinkMade (c : NetworkConfig) (as : List Answer) : Prop := c.check = none ∧ as.take 3 = [.ok, .ok, .ok]

section Configure
variable {c : NetworkConfig} {m m' : Manager} {w w' : World} {as : List Answer} {failures : List Failure}

theorem exec_perform {α : Type} (call : Call) (f : call.Reply → Act α) (w : World) (a : Answer) (as : List Answer) :
    exec Guest (perform call >>= f) w (a :: as) = exec Guest (f (step w call a).2) (step w call a).1 as := rfl

theorem createLink_cases (hcheck : c.check = none) (hname : c.name ∉ w.others)
    (hrun : exec Guest (createLink m c) w as = (w', some (m', failures))) :
    (as.take 2 = [.ok, .ok] ∧ exec Guest (setUp m c) { w with tun := some (some c.name) } (as.drop 2) = (w', some (m', failures)))
      ∨ (as.take 2 ≠ [.ok, .ok] ∧ m' = m ∧ w'.resolv = w.resolv) := by
  unfold createLink at hrun
  cases as with
  | nil => cases hrun
  | cons a as =>
    rw [exec_perform] at hrun
    by_cases ha : a = .ok
    · subst ha
      rw [if_neg (by simp [step]), if_neg (name_fits hcheck).2] at hrun
      cases as with
      | nil => cases hrun
      | cons b as =>
        rw [exec_perform, show (step w .openTun .ok).1 = { w with tun := some none } from rfl] at hrun
        by_cases hb : b = .ok
        · subst hb
          have hlink : step { w with tun := some none } (.tunSetIff c.name) .ok = ({ w with tun := some (some c.name) }, false) := by
            simp [step, World.hasLink, hname]
          rw [hlink] at hrun
          exact .inl ⟨rfl, hrun⟩
        · have hfail : step { w with tun := some none } (.tunSetIff c.name) b = ({ w with tun := some none }, true) := by
            simp [step, hb]
          rw [hfail] at hrun
          cases as with
          | nil => cases hrun
          | cons d as =>
            cases hrun
            exact .inr ⟨by simpa using hb, rfl, rfl⟩
    · have hfail : step w .openTun a = (w, true) := by simp [step, ha]
      rw [hfail] at hrun
      cases hrun
      refine .inr ⟨?_, rfl, rfl⟩
      intro htake
      exact ha (by simpa using congrArg List.head? htake)

/-- A run either goes on with the setup of a link that is there, or leaves the
manager unconfigured and `resolv.conf` alone. -/
theorem configure_cases (hname : c.name ∉ w.others)
    (hrun : exec Guest (configureNetworkContext {} c) w as = (w', some (m', failures))) :
    (LinkMade c as ∧ exec Guest (setUp {} c) { w with tun := some (some c.name) } (as.drop 3) = (w', some (m', failures)))
      ∨ (¬LinkMade c as ∧ m' = {} ∧ w'.resolv = w.resolv) := by
  unfold configureNetworkContext at hrun
  cases as with
  | nil => cases hrun
  | cons a as =>
    rw [exec_perform] at hrun
    by_cases ha : a = .ok
    · subst ha
      rw [if_neg (by simp [step])] at hrun
      cases hcheck : c.check with
      | some failure =>
        rw [hcheck] at hrun
        cases hrun
        refine .inr ⟨?_, rfl, rfl⟩
        rintro ⟨hvalid, -⟩
        rw [hcheck] at hvalid
        cases hvalid
      | none =>
        rw [hcheck] at hrun
        simp only at hrun
        rw [if_neg (by simp), if_neg (by simp)] at hrun
        rcases createLink_cases hcheck hname hrun with ⟨htake, hset⟩ | ⟨htake, hm, hw⟩
        · exact .inl ⟨⟨hcheck, by rw [List.take_succ_cons, htake]⟩, hset⟩
        · refine .inr ⟨?_, hm, hw⟩
          rintro ⟨-, hmade⟩
          rw [List.take_succ_cons] at hmade
          exact htake (List.cons.inj hmade).2
    · rw [if_pos (by simp [step, ha])] at hrun
      cases hrun
      refine .inr ⟨?_, rfl, rfl⟩
      rintro ⟨-, hmade⟩
      exact ha (by simpa using congrArg List.head? hmade)

end Configure

/-- After a setup that failed, an unconfigured manager gets back to a working
network exactly if it failed before the link was there. -/
theorem network_recoverable_iff (c : NetworkConfig) (w w' : World) (as : List Answer) (m' : Manager) (failures : List Failure)
    (hname : c.name ∉ w.others) (hfit : Resolvable (w.resolv.map (·.2)))
    (hrun : exec Guest (configureNetworkContext {} c) w as = (w', some (m', failures))) (hfail : failures ≠ []) :
    Recovers (w.resolv.map (·.2)) m' w' ↔ ¬LinkMade c as := by
  rcases configure_cases hname hrun with ⟨hmade, hset⟩ | ⟨hnot, rfl, hresolv⟩
  · have hstuck : Stuck c.name m' w' :=
      (after_setUp (m := {}) (w := { w with tun := some (some c.name) }) hname).exec_result (meets_true _ _ _ _) hset hfail
    have hno := hstuck.not_recovers (name_fits hmade.1).1 (w.resolv.map (·.2))
    exact ⟨fun h => absurd h hno, fun h => absurd hmade h⟩
  · rw [← hresolv] at hfit ⊢
    exact ⟨fun _ => hnot, fun _ => recovers_idle hfit⟩

def sampleConfig : NetworkConfig := ⟨"mk0", "10.0.0.2/24", "10.0.0.1", 1500, ["10.0.0.1"]⟩

def sampleWorld : World := { others := ["lo"], resolv := some (7, .symlink "../run/resolv.conf"), next := 8 }

/-- The device cannot be opened. -/
theorem recoverable_tunOpen :
    (exec Guest (configureNetworkContext {} sampleConfig) sampleWorld [.ok, .fail]).2 = some ({}, [.setup .tunOpen])
      ∧ Recovers (some (.symlink "../run/resolv.conf")) {} sampleWorld := by
  have hrun : exec Guest (configureNetworkContext {} sampleConfig) sampleWorld [.ok, .fail]
      = (sampleWorld, some ({}, [.setup .tunOpen])) := by decide +kernel
  have hfit : Resolvable (sampleWorld.resolv.map (·.2)) := ⟨by decide, by decide +kernel⟩
  have hiff := network_recoverable_iff sampleConfig sampleWorld sampleWorld [.ok, .fail] {} [.setup .tunOpen]
    (by decide) hfit hrun (by simp)
  exact ⟨congrArg Prod.snd hrun, hiff.2 (by simp [LinkMade])⟩

/-- The first `ip` command fails, and every call after it works: `CloseNetwork`
then fails, and so it does again. -/
theorem network_not_recoverable :
    (exec Guest (configureNetworkContext {} sampleConfig) sampleWorld [.ok, .ok, .ok, .fail, .ok, .ok])
        = (sampleWorld, some ({ networkName := "mk0" },
            [.setup .address, .cleanup "delete child network after setup failure"]))
      ∧ works (closeNetworkContext { networkName := "mk0" }) sampleWorld
        = (sampleWorld, { networkName := "mk0" }, [.cleanup "delete child network"])
      ∧ (works (configureNetworkContext { networkName := "mk0" } sampleConfig) sampleWorld).2.2
        = [.failedPrecondition "network is already configured or cleanup is pending"]
      ∧ ¬Recovers (some (.symlink "../run/resolv.conf")) { networkName := "mk0" } sampleWorld := by
  have hclose : works (closeNetworkContext { networkName := "mk0" }) sampleWorld
      = (sampleWorld, { networkName := "mk0" }, [.cleanup "delete child network"]) := by decide +kernel
  refine ⟨by decide +kernel, hclose, by decide +kernel, ?_⟩
  rintro ⟨m₁, w₁, hworks, -⟩
  rw [hclose] at hworks
  cases hworks

end Multikernel.GuestNetwork
