import Multikernel.Lib.Logic
import Multikernel.Network.Endpoint
/-!
# Commands on a network host

What `ip`, `iptables`, `ip6tables` and `nsenter` do when the backend of
`mknetd` runs them: to the links, addresses and routes of a network namespace,
the host's own or that of an endpoint, and to the host's firewall. A command
has its effect or fails without one. It fails where what it names is missing or
in the way, and wherever else the environment says so. The namespaces of the
endpoints are not the host's own.
-/

namespace Multikernel.Network
open Lib
variable {name dev : String} {site : Site} {f : Space → Link → Except String Space} {s : Space}

/-! ## The firewall -/

inductive Proto where
  | tcp | udp
  deriving DecidableEq, Repr

inductive Target where
  | accept | drop | reject | masquerade
  | chain (name : String)
  deriving DecidableEq, Repr

/-- A rule. Every address in it is a single one, an interface name that ends in
`+` stands for all names it starts. -/
structure Rule where
  inIf : Option String := none
  outIf : Option String := none
  src : Option Nat := none
  notSrc : Option Nat := none
  dst : Option Nat := none
  proto : Option Proto := none
  dport : Option Nat := none
  /-- `-m conntrack --ctstate RELATED,ESTABLISHED`. -/
  established : Bool := false
  target : Target
  deriving DecidableEq, Repr

structure Packet where
  inIf : String
  outIf : String
  src : Nat
  dst : Nat
  proto : Option Proto := none
  dport : Nat := 0
  established : Bool := false
  deriving DecidableEq, Repr

def matchesIf (name iface : String) : Bool :=
  if name.toList.getLast? = some '+' then name.toList.dropLast.isPrefixOf iface.toList else name == iface

theorem matchesIf_literal {iface : String} (h : name.toList.getLast? ≠ some '+') :
    matchesIf name iface = (name == iface) := by
  rw [matchesIf, if_neg h]

/-- What a rule does not say anything about is of any value. -/
def given {α : Type} (field : Option α) (test : α → Bool) : Bool := field.all test

def Rule.applies (r : Rule) (p : Packet) : Bool :=
  given r.inIf (matchesIf · p.inIf) && given r.outIf (matchesIf · p.outIf) && given r.src (· == p.src) &&
    given r.notSrc (· != p.src) && given r.dst (· == p.dst) && given r.proto (some · == p.proto) &&
    given r.dport (· == p.dport) && (!r.established || p.established)

inductive Verdict where
  | accept | refuse
  deriving DecidableEq, Repr

/-- What a rule decides of a packet; `jump` is what the chains it can jump to
decide. -/
def Rule.verdict (jump : String → Option Verdict) (p : Packet) (r : Rule) : Option Verdict :=
  if r.applies p then
    match r.target with
    | .accept => some .accept
    | .drop | .reject => some .refuse
    | .chain name => jump name
    | .masquerade => none
  else none

/-- The first rule that decides. -/
def decideBy (jump : String → Option Verdict) (p : Packet) (rules : List Rule) : Option Verdict :=
  rules.findSome? (·.verdict jump p)

/-- `iptables`, `ip6tables` and `iptables -t nat`. -/
inductive RuleTable where
  | filter4 | filter6 | nat4
  deriving DecidableEq, Repr

/-- The chains of every table. -/
abbrev Chains := RuleTable → String → Option (List Rule)

namespace Chains

def set (c : Chains) (t : RuleTable) (name : String) (rules : Option (List Rule)) : Chains :=
  fun t' name' => if t' = t ∧ name' = name then rules else c t' name'

variable (c : Chains) (t : RuleTable) (name : String) (rules : Option (List Rule))

@[simp] theorem set_self : c.set t name rules t name = rules := by simp [set]

theorem set_of_ne {t' : RuleTable} {name' : String} (h : ¬(t' = t ∧ name' = name)) :
    c.set t name rules t' name' = c t' name' := by
  rw [set, if_neg h]

/-- A built-in chain jumps to the chain `name`. -/
def uses : Bool :=
  ["INPUT", "FORWARD", "POSTROUTING"].any fun builtin =>
    ((c t builtin).getD []).any fun r => r.target == .chain name

end Chains

/-! ## Namespaces -/

structure Link where
  up : Bool := false
  mtu : Int := 1500
  /-- The two ends of a `veth` pair share it. -/
  cable : Option String := none
  deriving DecidableEq, Repr

structure Route where
  network : String
  via : String
  dev : String
  deriving DecidableEq, Repr

structure Space where
  links : String → Option Link := fun _ => none
  /-- An address and its device. -/
  addresses : List (String × String) := []
  routes : List Route := []
  /-- `net.ipv4.ip_forward`. -/
  forwarding : Bool := false

namespace Space

def setLink (s : Space) (name : String) (link : Option Link) : Space :=
  { s with links := fun n => if n = name then link else s.links n }

/-- Addresses and routes go with their device. -/
def dropLinks (s : Space) (gone : String → Link → Bool) : Space :=
  let left := fun n => (s.links n).filter fun l => !gone n l
  { s with
    links := left
    addresses := s.addresses.filter fun a => (left a.2).isSome
    routes := s.routes.filter fun r => (left r.dev).isSome }

end Space

/-- `policy` is what is left to the host's own rules, after those listed in
`FORWARD`, and to the policy of that chain. -/
structure Host where
  own : Space := {}
  inside : String → Space := fun _ => {}
  chains : Chains
  policy : Packet → Verdict := fun _ => .accept

namespace Host

/-- An interface of the host exists and is up. -/
def up (h : Host) (name : String) : Bool := (h.own.links name).any (·.up)

/-- What a chain decides; the chains a built-in one jumps to jump no further. -/
def chainVerdict (h : Host) (p : Packet) (name : String) : Option Verdict :=
  decideBy (fun _ => none) p ((h.chains .filter4 name).getD [])

/-- The host forwards an IPv4 packet. -/
def forwards (h : Host) (p : Packet) : Bool :=
  ((decideBy (h.chainVerdict p) p ((h.chains .filter4 "FORWARD").getD [])).getD (h.policy p)) == .accept

end Host

/-! ## Commands -/

/-- Where a command runs: in the host's namespace, or behind
`nsenter --net=PATH --`. -/
inductive Site where
  | own
  | inside (path : String)
  deriving DecidableEq, Repr

inductive Command where
  /-- `ip link add NAME type veth peer name PEER`. -/
  | linkAdd (name peer : String)
  /-- `ip link set NAME netns TARGET`, the target of the namespace at `path`. -/
  | linkMove (name path : String)
  /-- `ip link set NAME [mtu MTU] up`. -/
  | linkUp (site : Site) (name : String) (mtu : Option Int)
  | linkDelete (name : String)
  | addressAdd (site : Site) (address dev : String)
  | tuntapAdd (site : Site) (dev : String)
  /-- `sysctl -w net.ipv4.ip_forward=1`. -/
  | forwarding (site : Site)
  | routeReplace (site : Site) (route : Route)
  | routeAdd (route : Route)
  | routeDelete (route : Route)
  /-- `-N`. -/
  | newChain (t : RuleTable) (name : String)
  /-- `-A`. -/
  | append (t : RuleTable) (name : String) (rule : Rule)
  /-- `-I NAME 1`. -/
  | insert (t : RuleTable) (name : String) (rule : Rule)
  /-- `-D`. -/
  | remove (t : RuleTable) (name : String) (rule : Rule)
  /-- `-F`. -/
  | flush (t : RuleTable) (name : String)
  /-- `-X`. -/
  | deleteChain (t : RuleTable) (name : String)
  deriving DecidableEq, Repr

namespace Host

def space (h : Host) : Site → Space
  | .own => h.own
  | .inside path => h.inside path

def setSpace (h : Host) (site : Site) (s : Space) : Host :=
  match site with
  | .own => { h with own := s }
  | .inside path => { h with inside := fun p => if p = path then s else h.inside p }

def fileExists : String := "RTNETLINK answers: File exists"

def noDevice (name : String) : String := "Cannot find device \"" ++ name ++ "\""

def noChain : String := "iptables: No chain/target/match by that name."

/-- Change a device of a namespace. -/
def onDevice (h : Host) (site : Site) (dev : String) (f : Space → Link → Except String Space) : Except String Host :=
  match (h.space site).links dev with
  | none => .error (noDevice dev)
  | some link => (f (h.space site) link).map (h.setSpace site)

/-- Change a chain; the one a rule jumps to must exist. -/
def onChain (h : Host) (t : RuleTable) (name : String) (f : List Rule → Except String (Option (List Rule))) :
    Except String Host :=
  match h.chains t name with
  | none => .error noChain
  | some rules => (f rules).map fun next => { h with chains := h.chains.set t name next }

def targetExists (h : Host) (t : RuleTable) (r : Rule) : Bool :=
  match r.target with
  | .chain name => (h.chains t name).isSome
  | _ => true

/-- What a command does, or what it prints where it fails. -/
def apply (h : Host) : Command → Except String Host
  | .linkAdd name peer =>
    if (h.own.links name).isSome ∨ (h.own.links peer).isSome then .error fileExists
    else .ok { h with own := (h.own.setLink peer (some { cable := some name })).setLink name (some { cable := some name }) }
  | .linkMove name path =>
    match h.own.links name with
    | none => .error (noDevice name)
    | some link =>
      if ((h.inside path).links name).isSome then .error fileExists
      else
        let moved := (h.inside path).setLink name (some { link with up := false })
        .ok (Host.setSpace { h with own := h.own.dropLinks fun n _ => n == name } (.inside path) moved)
  | .linkUp site name mtu =>
    h.onDevice site name fun s link => .ok (s.setLink name (some { link with up := true, mtu := mtu.getD link.mtu }))
  | .linkDelete name =>
    match h.own.links name with
    | none => .error (noDevice name)
    | some link =>
      -- Both ends of a pair go, wherever they are.
      let gone := fun n (l : Link) => l.cable.isSome && l.cable == link.cable || n == name
      .ok { h with
        own := h.own.dropLinks gone
        inside := fun path => (h.inside path).dropLinks fun _ l => l.cable.isSome && l.cable == link.cable }
  | .addressAdd site address dev =>
    h.onDevice site dev fun s _ =>
      if (address, dev) ∈ s.addresses then .error fileExists
      else .ok { s with addresses := s.addresses ++ [(address, dev)] }
  | .tuntapAdd site dev =>
    if ((h.space site).links dev).isSome then .error "ioctl(TUNSETIFF): Device or resource busy"
    else .ok (h.setSpace site ((h.space site).setLink dev (some {})))
  | .forwarding site => .ok (h.setSpace site { h.space site with forwarding := true })
  | .routeReplace site route =>
    h.onDevice site route.dev fun s _ =>
      .ok { s with routes := s.routes.filter (·.network ≠ route.network) ++ [route] }
  | .routeAdd route =>
    h.onDevice .own route.dev fun s _ =>
      if s.routes.any (·.network == route.network) then .error fileExists
      else .ok { s with routes := s.routes ++ [route] }
  | .routeDelete route =>
    h.onDevice .own route.dev fun s _ =>
      if route ∈ s.routes then .ok { s with routes := s.routes.erase route }
      else .error "RTNETLINK answers: No such process"
  | .newChain t name =>
    if (h.chains t name).isSome then .error "iptables: Chain already exists."
    else .ok { h with chains := h.chains.set t name (some []) }
  | .append t name rule =>
    h.onChain t name fun rules => if h.targetExists t rule then .ok (some (rules ++ [rule])) else .error noChain
  | .insert t name rule =>
    h.onChain t name fun rules => if h.targetExists t rule then .ok (some (rule :: rules)) else .error noChain
  | .remove t name rule =>
    h.onChain t name fun rules =>
      if rule ∈ rules then .ok (some (rules.erase rule))
      else .error "iptables: Bad rule (does a matching rule exist in that chain?)."
  | .flush t name => h.onChain t name fun _ => .ok (some [])
  | .deleteChain t name =>
    h.onChain t name fun rules =>
      if rules ≠ [] then .error "iptables: Directory not empty."
      else if h.chains.uses t name then .error "iptables: Too many links."
      else .ok none

end Host

/-! ## The runner -/

/-- A command is answered with nothing, or with the output of its failure. -/
abbrev ShellI : Interface := ⟨Command, fun _ => Option String⟩

/-- The environment lets a command work or makes it fail with some output. -/
def shellStep (h : Host) (c : Command) (fails : Option String) : Host × Option String :=
  match fails with
  | some output => (h, some output)
  | none =>
    match h.apply c with
    | .ok h' => (h', none)
    | .error output => (h, some output)

abbrev Shell : Machine ShellI := ⟨Host, Option String, shellStep⟩

abbrev Cmds := Prog ShellI

def runner (c : Command) : Cmds (Option String) := Prog.perform (I := ShellI) c

/-- A command leaves the host as it is, or does what it is for and succeeds. -/
theorem shell_cases {E : Host → Command → Option String → Prop} {h h' : Host} {c : Command} {r : Option String}
    (ht : Shell.trans E h c r h') :
    (∃ output, r = some output ∧ h' = h) ∨ (r = none ∧ h.apply c = .ok h') := by
  obtain ⟨a, -, ha⟩ := ht
  simp only [shellStep] at ha
  split at ha
  · rename_i output
    exact .inl ⟨output, (congrArg Prod.snd ha).symm, (congrArg Prod.fst ha).symm⟩
  · split at ha
    · rename_i h'' happly
      obtain ⟨rfl, rfl⟩ := Prod.mk.inj ha
      exact .inr ⟨rfl, happly⟩
    · rename_i output _
      exact .inl ⟨output, (congrArg Prod.snd ha).symm, (congrArg Prod.fst ha).symm⟩

/-! ## Frames -/

section Frames
variable {h h' : Host} {c : Command}

theorem onDevice_ok (hf : h.onDevice site dev f = .ok h') :
    ∃ link s, (h.space site).links dev = some link ∧ f (h.space site) link = .ok s ∧ h' = h.setSpace site s := by
  unfold Host.onDevice at hf
  split at hf
  · cases hf
  · rename_i link hlink
    cases hs : f (h.space site) link with
    | error e => rw [hs] at hf; cases hf
    | ok s =>
      rw [hs] at hf
      cases hf
      exact ⟨link, s, hlink, hs, rfl⟩

theorem onChain_ok {t : RuleTable} {f : List Rule → Except String (Option (List Rule))}
    (hf : h.onChain t name f = .ok h') :
    ∃ rules next, h.chains t name = some rules ∧ f rules = .ok next ∧
      h' = { h with chains := h.chains.set t name next } := by
  unfold Host.onChain at hf
  split at hf
  · cases hf
  · rename_i rules hrules
    cases hs : f rules with
    | error e => rw [hs] at hf; cases hf
    | ok next =>
      rw [hs] at hf
      cases hf
      exact ⟨rules, next, hrules, hs, rfl⟩

/-- The chain a command changes. -/
def Command.chain : Command → Option (RuleTable × String)
  | .newChain t name | .append t name _ | .insert t name _ | .remove t name _ | .flush t name | .deleteChain t name =>
    some (t, name)
  | _ => none

/-- What becomes of that chain. -/
def Command.edit : Command → Option (List Rule) → Option (List Rule)
  | .newChain _ _ => fun _ => some []
  | .append _ _ rule => Option.map (· ++ [rule])
  | .insert _ _ rule => Option.map (rule :: ·)
  | .remove _ _ rule => Option.map (·.erase rule)
  | .flush _ _ => Option.map fun _ => []
  | .deleteChain _ _ => fun _ => none
  | _ => id

@[simp] theorem setSpace_chains : (h.setSpace site s).chains = h.chains := by
  cases site <;> rfl

@[simp] theorem setSpace_policy : (h.setSpace site s).policy = h.policy := by
  cases site <;> rfl

/-- A command that changes devices leaves the firewall alone. -/
theorem firewall_onDevice (hf : h.onDevice site dev f = .ok h') : h'.chains = h.chains ∧ h'.policy = h.policy := by
  obtain ⟨link, s, -, -, rfl⟩ := onDevice_ok hf
  exact ⟨setSpace_chains, setSpace_policy⟩

/-- A command that changes a chain leaves the rest alone. -/
theorem effect_onChain {t : RuleTable} {f : List Rule → Except String (Option (List Rule))}
    {g : Option (List Rule) → Option (List Rule)} (hf : h.onChain t name f = .ok h')
    (hg : ∀ rules next, f rules = .ok next → next = g (some rules)) :
    h'.chains = h.chains.set t name (g (h.chains t name)) ∧ h'.own = h.own ∧ h'.policy = h.policy := by
  obtain ⟨rules, next, hrules, hnext, rfl⟩ := onChain_ok hf
  rw [hrules, hg rules next hnext]
  exact ⟨rfl, rfl, rfl⟩

/-- A command that works changes one chain, or devices only. -/
theorem apply_cases (hc : h.apply c = .ok h') :
    (∃ t name, c.chain = some (t, name) ∧ h'.chains = h.chains.set t name (c.edit (h.chains t name)) ∧
      h'.own = h.own ∧ h'.policy = h.policy) ∨
    (c.chain = none ∧ h'.chains = h.chains ∧ h'.policy = h.policy) := by
  cases c with
  | newChain t name =>
    simp only [Host.apply] at hc
    split at hc <;> cases hc
    exact .inl ⟨t, name, rfl, rfl, rfl, rfl⟩
  | append t name rule =>
    refine .inl ⟨t, name, rfl, effect_onChain hc fun rules next hnext => ?_⟩
    split at hnext <;> cases hnext
    rfl
  | insert t name rule =>
    refine .inl ⟨t, name, rfl, effect_onChain hc fun rules next hnext => ?_⟩
    split at hnext <;> cases hnext
    rfl
  | remove t name rule =>
    refine .inl ⟨t, name, rfl, effect_onChain hc fun rules next hnext => ?_⟩
    split at hnext <;> cases hnext
    rfl
  | flush t name =>
    refine .inl ⟨t, name, rfl, effect_onChain hc fun rules next hnext => ?_⟩
    cases hnext
    rfl
  | deleteChain t name =>
    refine .inl ⟨t, name, rfl, effect_onChain (g := fun _ => none) hc fun rules next hnext => ?_⟩
    repeat' split at hnext
    all_goals cases hnext
    rfl
  | linkUp | addressAdd | routeReplace | routeAdd | routeDelete =>
    simp only [Host.apply] at hc
    exact .inr ⟨rfl, firewall_onDevice hc⟩
  | forwarding site =>
    cases hc
    exact .inr ⟨rfl, setSpace_chains, setSpace_policy⟩
  | tuntapAdd site dev =>
    simp only [Host.apply] at hc
    split at hc <;> cases hc
    exact .inr ⟨rfl, setSpace_chains, setSpace_policy⟩
  | linkAdd name peer =>
    simp only [Host.apply] at hc
    split at hc <;> cases hc
    exact .inr ⟨rfl, rfl, rfl⟩
  | linkMove name path =>
    simp only [Host.apply] at hc
    repeat' split at hc
    all_goals cases hc
    exact .inr ⟨rfl, rfl, rfl⟩
  | linkDelete name =>
    simp only [Host.apply] at hc
    split at hc <;> cases hc
    exact .inr ⟨rfl, rfl, rfl⟩

/-- What a command leaves in a chain. -/
theorem chains_apply (hc : h.apply c = .ok h') (t : RuleTable) (name : String) :
    h'.chains t name = if c.chain = some (t, name) then c.edit (h.chains t name) else h.chains t name := by
  obtain ⟨t₀, name₀, hchain, hset, -⟩ | ⟨hchain, hsame, -⟩ := apply_cases hc
  · rw [hset, hchain]
    by_cases heq : t₀ = t ∧ name₀ = name
    · obtain ⟨rfl, rfl⟩ := heq
      simp
    · rw [Chains.set_of_ne _ _ _ _ (fun hx => heq ⟨hx.1.symm, hx.2.symm⟩), if_neg]
      rintro ⟨⟩
      exact heq ⟨rfl, rfl⟩
  · rw [hsame, hchain, if_neg (by simp)]

theorem policy_apply (hc : h.apply c = .ok h') : h'.policy = h.policy := by
  obtain ⟨-, -, -, -, -, hp⟩ | ⟨-, -, hp⟩ := apply_cases hc
  · exact hp
  · exact hp

/-! ## Links of the host -/

@[simp] theorem links_setLink {link : Option Link} (n : String) :
    (s.setLink name link).links n = if n = name then link else s.links n := rfl

theorem up_dropLinks {gone : String → Link → Bool} {n : String} (hup : ((s.dropLinks gone).links n).any (·.up))
    : (s.links n).any (·.up) := by
  simp only [Space.dropLinks] at hup
  cases hl : s.links n with
  | none => simp [hl] at hup
  | some link =>
    by_cases hg : gone n link <;> simp_all [Option.filter]

/-- A change of devices that brings no other interface up. -/
theorem up_onDevice {n : String} (hf : h.onDevice site dev f = .ok h')
    (hn : ∀ s link s', s.links dev = some link → f s link = .ok s' → (s'.links n).any (·.up) → (s.links n).any (·.up))
    (hup : h'.up n) : h.up n := by
  obtain ⟨link, s, hlink, hs, rfl⟩ := onDevice_ok hf
  cases site with
  | own => exact hn h.own link s hlink hs hup
  | inside path => exact hup

/-- Only its own activation brings an interface of the host up. -/
theorem up_of_apply (hc : h.apply c = .ok h') {n : String} (hup : h'.up n) :
    h.up n ∨ ∃ mtu, c = .linkUp .own n mtu := by
  obtain ⟨-, -, -, -, hown, -⟩ | ⟨hchain, -⟩ := apply_cases hc
  · rw [Host.up, hown] at hup
    exact .inl hup
  cases c with
  | newChain | append | insert | remove | flush | deleteChain => cases hchain
  | linkUp site name mtu =>
    simp only [Host.apply] at hc
    by_cases hown : site = .own ∧ name = n
    · obtain ⟨rfl, rfl⟩ := hown
      exact .inr ⟨mtu, rfl⟩
    · left
      obtain ⟨link, s, hlink, hs, rfl⟩ := onDevice_ok hc
      cases site with
      | inside path => exact hup
      | own =>
        cases hs
        have hne : n ≠ name := fun hx => hown ⟨rfl, hx.symm⟩
        simpa [Host.up, Host.setSpace, Host.space, hne] using hup
  | addressAdd site address dev =>
    simp only [Host.apply] at hc
    refine .inl (up_onDevice hc (fun s link s' _ hs => ?_) hup)
    split at hs <;> cases hs
    exact id
  | routeReplace site route =>
    simp only [Host.apply] at hc
    refine .inl (up_onDevice hc (fun s link s' _ hs => ?_) hup)
    cases hs
    exact id
  | routeAdd | routeDelete =>
    simp only [Host.apply] at hc
    refine .inl (up_onDevice hc (fun s link s' _ hs => ?_) hup)
    split at hs <;> cases hs
    exact id
  | forwarding site =>
    cases hc
    cases site <;> exact .inl hup
  | tuntapAdd site dev =>
    simp only [Host.apply] at hc
    split at hc <;> cases hc
    cases site with
    | inside path => exact .inl hup
    | own =>
      -- A new device is down.
      by_cases hn : n = dev
      · simp [Host.up, Host.setSpace, hn] at hup
      · exact .inl (by simpa [Host.up, Host.setSpace, Host.space, hn] using hup)
  | linkAdd name peer =>
    simp only [Host.apply] at hc
    split at hc <;> cases hc
    by_cases hn : n = name
    · simp [Host.up, hn] at hup
    · by_cases hp : n = peer
      · simp [Host.up, hp] at hup
      · exact .inl (by simpa [Host.up, hn, hp] using hup)
  | linkMove name path =>
    simp only [Host.apply] at hc
    repeat' split at hc
    all_goals cases hc
    exact .inl (up_dropLinks hup)
  | linkDelete name =>
    simp only [Host.apply] at hc
    split at hc <;> cases hc
    exact .inl (up_dropLinks hup)

/-- Where its deletion works, an interface is gone. -/
theorem links_linkDelete (hc : h.apply (.linkDelete name) = .ok h') : h'.own.links name = none := by
  simp only [Host.apply] at hc
  split at hc <;> cases hc
  rename_i link hlink
  simp [Space.dropLinks, hlink]

theorem linkDelete_error {output : String} (hc : h.apply (.linkDelete name) = .error output) :
    h.own.links name = none := by
  simp only [Host.apply] at hc
  split at hc
  · assumption
  · cases hc

end Frames

end Multikernel.Network
