import Multikernel.Network.Addresses
import Multikernel.Network.Isolation
import Multikernel.Protocol.Strict
/-!
# What `Check` establishes of the firewall

`LinuxBackend.Check` of `runtime/internal/network/backend_linux.go`, with
`firewall_order_linux.go`, `ingress_precedence_linux.go` and
`state_match_linux.go`, on whatever the inspected commands print. Beside it
stands how a listing of `iptables -S` is read: line by line, the first rule
that applies to a packet and has a verdict decides. `check_seals`: where
`Check` passes, the listings it has seen confine every packet that arrives on
the endpoint's interface.
-/

namespace Multikernel.Network
open Lib
variable {ws : List String} {name chain : String}

/-! ## `strings` -/

/-- `strings.Fields`. -/
def fields (s : String) : List String := ((s.toList.splitOnP Protocol.isSpace).filter (!·.isEmpty)).map String.ofList

/-- `strings.Split(s, "\n")`. -/
def lines (s : String) : List String := (s.toList.splitOn '\n').map String.ofList

/-- `strings.Join(words, " ")`. -/
def unwords (words : List String) : String := String.ofList ([' '].intercalate (words.map String.toList))

/-- Lines as a command prints them. -/
def printed (ls : List String) : String := String.ofList (ls.flatMap fun l => l.toList ++ ['\n'])

def trimSpace (s : String) : String :=
  String.ofList ((s.toList.dropWhile Protocol.isSpace).reverse.dropWhile Protocol.isSpace).reverse

/-- A text that is one field. -/
def IsWord (w : String) : Prop := w.toList ≠ [] ∧ w.toList.all (!Protocol.isSpace ·)

instance (w : String) : Decidable (IsWord w) := inferInstanceAs (Decidable (_ ∧ _))

section Fields

theorem fields_append (a b : List Char) :
    fields (String.ofList (a ++ ' ' :: b)) = fields (String.ofList a) ++ fields (String.ofList b) := by
  have hspace : Protocol.isSpace ' ' = true := by decide
  simp only [fields, String.toList_ofList]
  rw [List.splitOnP_append_cons a b hspace, List.filter_append, List.map_append]

theorem IsWord.fields {w : String} (h : IsWord w) : fields w = [w] := by
  have hnone : ∀ c ∈ w.toList, Protocol.isSpace c = false := by
    intro c hc
    simpa using List.all_eq_true.1 h.2 c hc
  rw [Network.fields, List.splitOnP_eq_singleton hnone]
  simp [h.1]

theorem fields_unwords (h : ∀ w ∈ ws, IsWord w) : fields (unwords ws) = ws := by
  induction ws with
  | nil => rfl
  | cons w ws ih =>
    obtain ⟨hw, hws⟩ := List.forall_mem_cons.1 h
    cases ws with
    | nil => simpa [unwords] using hw.fields
    | cons v ws =>
      have hsplit : [' '].intercalate ((w :: v :: ws).map String.toList) =
          w.toList ++ ' ' :: [' '].intercalate ((v :: ws).map String.toList) := by
        simp [List.intercalate_cons_cons]
      have hrest : fields (String.ofList ([' '].intercalate ((v :: ws).map String.toList))) = v :: ws := ih hws
      rw [unwords, hsplit, fields_append, hrest, String.ofList_toList, hw.fields]
      rfl

/-- A line that ends where the text goes on. -/
theorem lines_append (a b : List Char) :
    lines (String.ofList (a ++ '\n' :: b)) = lines (String.ofList a) ++ lines (String.ofList b) := by
  simp only [lines, String.toList_ofList, List.splitOn]
  rw [List.splitOnP_append_cons a b (by decide), List.map_append]

theorem lines_of_not_mem {s : String} (h : '\n' ∉ s.toList) : lines s = [s] := by
  have hnone : ∀ c ∈ s.toList, (c == '\n') = false := by
    rintro c hc
    simp only [beq_eq_false_iff_ne]
    rintro rfl
    exact h hc
  rw [lines, List.splitOn, List.splitOnP_eq_singleton hnone]
  simp

theorem lines_printed {ls : List String} (h : ∀ l ∈ ls, '\n' ∉ l.toList) : lines (printed ls) = ls ++ [""] := by
  induction ls with
  | nil => rfl
  | cons l ls ih =>
    obtain ⟨hl, hls⟩ := List.forall_mem_cons.1 h
    have hsplit : (l :: ls).flatMap (fun l => l.toList ++ ['\n']) = l.toList ++ '\n' :: ls.flatMap fun l => l.toList ++ ['\n'] := by
      simp
    have hrest : lines (String.ofList (ls.flatMap fun l => l.toList ++ ['\n'])) = ls ++ [""] := ih hls
    rw [printed, hsplit, lines_append, hrest, String.ofList_toList, lines_of_not_mem hl]
    rfl

/-- Words hold no line feed, and neither does a line made of them. -/
theorem not_mem_unwords (h : ∀ w ∈ ws, IsWord w) : '\n' ∉ (unwords ws).toList := by
  have hword : ∀ {w : String}, IsWord w → '\n' ∉ w.toList := by
    intro w hw hx
    exact absurd (List.all_eq_true.1 hw.2 _ hx) (by decide)
  rw [unwords, String.toList_ofList]
  induction ws with
  | nil => simp
  | cons w ws ih =>
    obtain ⟨hw, hws⟩ := List.forall_mem_cons.1 h
    cases ws with
    | nil => simpa using hword hw
    | cons v ws =>
      have hrest := ih hws
      simp only [List.map_cons, List.intercalate_cons_cons, List.mem_append, List.mem_singleton, not_or] at hrest ⊢
      exact ⟨⟨hword hw, by decide⟩, hrest⟩

end Fields

/-! ## `Check` -/

/-- The paths of the tools; an empty one is the default. -/
structure Tools where
  ip : String := ""
  iptables : String := ""
  ip6tables : String := ""
  nsenter : String := ""
  deriving DecidableEq, Repr

def Tools.defaults (x : Tools) : Tools where
  ip := if x.ip = "" then "/usr/sbin/ip" else x.ip
  iptables := if x.iptables = "" then "/usr/sbin/iptables" else x.iptables
  ip6tables := if x.ip6tables = "" then "/usr/sbin/ip6tables" else x.ip6tables
  nsenter := if x.nsenter = "" then "/usr/bin/nsenter" else x.nsenter

/-- `InspectRunner.Output`: what a command prints, or its failure. -/
abbrev Inspector := String → List String → Except String String

/-- The administrative flag, among those after the index and the name of a
link. -/
def hasFlagUp (words : List String) : Bool :=
  match words.drop 2 with
  | [] => false
  | flags :: _ =>
    flags.toList.head? == some '<' && flags.toList.getLast? == some '>' &&
      (flags.toList.tail.dropLast.splitOn ',').any (· == ['U', 'P'])

/-- A wanted text stands among the words of a line. -/
def hasWords (words : List String) (expected : String) : Bool :=
  if expected = "UP" then hasFlagUp words
  else
    let tokens := fields expected
    (List.range (words.length + 1 - tokens.length)).any fun i => unwords ((words.drop i).take tokens.length) == expected

def endpointStateMatches (output : String) (want : List String) : Bool :=
  let text := trimSpace output
  if want = [] then true
  else if want = ["1"] then text == "1"
  else if want.length > 1 ∧ (lines text).length ≠ 1 then false
  else (lines text).any fun line => want.all (hasWords (fields line))

/-- The address of the child as a rule names it. -/
def Topology.source (t : Topology) : String := dotted t.child ++ "/32"

/-- The listing of the endpoint's chain that `Check` wants. -/
def endpointChain (chain source egress : String) : List (List String) :=
  [["-N", chain],
   ["-A", chain, "!", "-s", source, "-j", "DROP"],
   ["-A", chain, "-d", "169.254.169.254/32", "-p", "udp", "-m", "udp", "--dport", "53", "-j", "ACCEPT"],
   ["-A", chain, "-d", "169.254.169.254/32", "-p", "tcp", "-m", "tcp", "--dport", "53", "-j", "ACCEPT"],
   ["-A", chain, "-d", "169.254.169.254/32", "-j", "REJECT", "--reject-with", "icmp-port-unreachable"],
   ["-A", chain, "-o", "mkv+", "-j", "DROP"],
   ["-A", chain, "-o", egress, "-j", "ACCEPT"],
   ["-A", chain, "-j", "DROP"]]

/-- `^[A-Za-z0-9_.:-]{1,15}$`. -/
def literalIngress : String → Bool :=
  matchesRE (fun c => isLower c || isUpper c || isDigit c || c ∈ ['_', '.', ':', '-'])
    (fun c => isLower c || isUpper c || isDigit c || c ∈ ['_', '.', ':', '-']) 14

/-- A rule that `ingressGuardFirst` allows before the guard: its ingress is
another one. -/
def otherIngress (chain hostIf : String) : List String → Bool
  | a :: c :: option :: name :: rest =>
    2 ≤ rest.length && a == "-A" && c == chain && option == "-i" && literalIngress name && name != hostIf &&
      -- No duplicate interface match, negation or quoting.
      rest.all fun w => w != "-i" && w != "--in-interface" && w != "!" && !w.toList.any (· ∈ ['\x22', '\x27', '\x5c'])
  | _ => false

def guardRule (chain hostIf target : String) : List String := ["-A", chain, "-i", hostIf, "-j", target]

/-- The loop of `ingressGuardFirst`. -/
def guardFirst (chain hostIf target : String) : List String → Bool
  | [] => false
  | line :: rest =>
    line == unwords (guardRule chain hostIf target) || otherIngress chain hostIf (fields line) && guardFirst chain hostIf target rest

def ingressGuardFirst (data chain hostIf target : String) : Bool :=
  let ls := lines (String.ofList data.toList.dropLast)
  data.utf8ByteSize ≤ 1024 * 1024 && data.toList.getLast? == some '\n' && ls.length ≤ 4096 && 2 ≤ ls.length &&
    (ls.head? == some (unwords ["-P", chain, "ACCEPT"]) || ls.head? == some (unwords ["-P", chain, "DROP"])) &&
    guardFirst chain hostIf target ls.tail

namespace LinuxBackend
variable (b : LinuxBackend) (x : Tools) (output : Inspector) (e : Endpoint) (t : Topology)

/-- A command of `Check` and the texts its output must hold. -/
structure Probe where
  name : String
  args : List String
  want : List String := []

/-- `b.ns`. -/
def ns (args : List String) : List String := ["--net=" ++ e.netNS, "--"] ++ args

def probes : List Probe :=
  [⟨x.ip, ["-o", "link", "show", "dev", t.hostIf], ["mtu " ++ toString e.mtu, "UP"]⟩,
   ⟨x.ip, ["route", "show", t.guestNetwork], ["via " ++ t.transitPeer, "dev " ++ t.hostIf]⟩,
   ⟨x.nsenter, ns e [x.ip, "-o", "address", "show", "dev", e.ifName], [e.gateway ++ "/30"]⟩,
   ⟨x.nsenter, ns e [x.ip, "-o", "link", "show", "dev", e.ifName], ["mtu " ++ toString e.mtu, "UP"]⟩,
   ⟨x.nsenter, ns e ["/usr/sbin/sysctl", "-n", "net.ipv4.ip_forward"], ["1"]⟩,
   ⟨x.nsenter, ns e [x.ip, "route", "show", "default"], ["via " ++ t.transitHost, "dev mkhost0"]⟩,
   ⟨x.iptables, ["-w", "-C", "FORWARD", "-i", t.hostIf, "-j", t.chain], []⟩,
   ⟨x.iptables, ["-w", "-C", "INPUT", "-i", t.hostIf, "-j", "DROP"], []⟩,
   ⟨x.ip6tables, ["-w", "-C", "INPUT", "-i", t.hostIf, "-j", "DROP"], []⟩,
   ⟨x.ip6tables, ["-w", "-C", "FORWARD", "-i", t.hostIf, "-j", "DROP"], []⟩,
   ⟨x.iptables, ["-w", "-C", t.chain, "!", "-s", t.source, "-j", "DROP"], []⟩,
   ⟨x.iptables, ["-w", "-C", t.chain, "-d", "169.254.169.254/32", "-p", "udp", "--dport", "53", "-j", "ACCEPT"], []⟩,
   ⟨x.iptables, ["-w", "-C", t.chain, "-d", "169.254.169.254/32", "-p", "tcp", "--dport", "53", "-j", "ACCEPT"], []⟩,
   ⟨x.iptables, ["-w", "-C", t.chain, "-d", "169.254.169.254/32", "-j", "REJECT"], []⟩,
   ⟨x.iptables, ["-w", "-C", t.chain, "-o", "mkv+", "-j", "DROP"], []⟩,
   ⟨x.iptables, ["-w", "-C", t.chain, "-o", b.egress, "-j", "ACCEPT"], []⟩,
   ⟨x.iptables, ["-w", "-C", t.chain, "-j", "DROP"], []⟩,
   ⟨x.iptables, ["-w", "-C", "FORWARD", "-i", b.egress, "-o", t.hostIf, "-m", "conntrack", "--ctstate",
      "RELATED,ESTABLISHED", "-j", "ACCEPT"], []⟩,
   ⟨x.iptables, ["-w", "-t", "nat", "-C", "POSTROUTING", "-s", t.source, "-o", b.egress, "-j", "MASQUERADE"], []⟩]

/-- The error of a command whose output does not pass a test. -/
def inspected (output : Inspector) (name : String) (args : List String) (test : String → Bool) (text : String) : Option String :=
  match output name args with
  | .error err => some err
  | .ok out => refuse (¬test out) text

def checkEndpointChain : Option String :=
  inspected output x.iptables ["-w", "-S", t.chain]
    (· == printed ((endpointChain t.chain t.source b.egress).map unwords))
    "endpoint firewall chain differs from the required ordered policy"

/-- The chains that must begin with a guard of the endpoint, and its target. -/
def ingressChecks : List (String × String × String) :=
  [(x.iptables, "INPUT", "DROP"), (x.iptables, "FORWARD", t.chain), (x.ip6tables, "INPUT", "DROP"),
   (x.ip6tables, "FORWARD", "DROP")]

def checkIngressPrecedence : Option String :=
  (ingressChecks x t).findSome? fun c =>
    inspected output c.1 ["-w", "-S", c.2.1] (ingressGuardFirst · c.2.1 t.hostIf c.2.2)
      "endpoint ingress guard precedence is not established"

/-- `Check`, with a runner that can inspect or one that cannot. -/
def check (runner : Option Inspector) : Option String :=
  match endpointTopology e with
  | .error text => some text
  | .ok t =>
    match runner with
    | none => some "Linux backend runner cannot inspect endpoint state"
    | some output =>
      ((b.probes x.defaults e t).findSome? fun c =>
        inspected output c.name c.args (endpointStateMatches · c.want)
          "endpoint observed link, route, address or forwarding state differs from required values").or <|
      (b.checkEndpointChain x.defaults output t).or <|
      checkIngressPrecedence x.defaults output t

end LinuxBackend

/-! ## How a listing is read -/

/-- What the words of a rule say that are not read here: the other notations of
an address, the other protocols, and the matches and targets of extensions,
jumps to chains that have not been listed among them. -/
structure Extensions where
  address : String → Nat → Bool
  proto : String → Packet → Bool
  rest : List String → Packet → Option Target

/-- A rule as `iptables -S` lists it: its plain matches in their order, each of
them negated or not, and what follows. -/
structure Listed where
  src : Option (Bool × String) := none
  dst : Option (Bool × String) := none
  inIf : Option (Bool × String) := none
  outIf : Option (Bool × String) := none
  proto : Option (Bool × String) := none
  /-- `-m PROTO --dport PORT`. -/
  port : Option (String × Nat) := none
  rest : List String
  deriving DecidableEq, Repr

/-- `[!] OPTION VALUE`, where the words begin with it. -/
def readMatch (option : String) (ws : List String) : Option (Bool × String) × List String :=
  match ws with
  | a :: b :: rest =>
    if a = option then (some (false, b), rest)
    else
      match rest with
      | [] => (none, ws)
      | c :: rest => if a = "!" ∧ b = option then (some (true, c), rest) else (none, ws)
  | _ => (none, ws)

/-- A number in decimal digits. -/
def readNumber (text : String) : Option Nat :=
  if text.toList.all isDigit then some (text.toList.foldl (fun n c => 10 * n + (c.toNat - 48)) 0) else none

def readPort (ws : List String) : Option (String × Nat) × List String :=
  match ws with
  | m :: proto :: option :: port :: rest =>
    if m = "-m" ∧ (proto = "tcp" ∨ proto = "udp") ∧ option = "--dport" then
      match readNumber port with
      | none => (none, ws)
      | some n => (some (proto, n), rest)
    else (none, ws)
  | _ => (none, ws)

/-- The words after `-A CHAIN`. -/
def readRule (ws : List String) : Listed :=
  let src := readMatch "-s" ws
  let dst := readMatch "-d" src.2
  let inIf := readMatch "-i" dst.2
  let outIf := readMatch "-o" inIf.2
  let proto := readMatch "-p" outIf.2
  let port := readPort proto.2
  ⟨src.1, dst.1, inIf.1, outIf.1, proto.1, port.1, port.2⟩

def readWords : List String → Option Listed
  | a :: _ :: ws => if a = "-A" then some (readRule ws) else none
  | _ => none

def readLine (line : String) : Option Listed := readWords (fields line)

/-- The policy of a built-in chain, from the first line of its listing. -/
def policyOf (text : String) : Target :=
  if ((lines text).head?.map fields).bind (·[2]?) = some "DROP" then .drop else .accept

namespace Extensions
variable (k : Extensions) (jump : String → Option (Option Target)) (p : Packet)

/-- An address lies in a block. -/
def inBlock (block : String) (a : Nat) : Bool :=
  match parseCIDR block with
  | some (ip, ones, bits) => ((to4 ip).getD ip) >>> (bits - ones) == a >>> (bits - ones)
  | none => k.address block a

def ofProto (name : String) : Bool :=
  if name = "tcp" then p.proto == some .tcp else if name = "udp" then p.proto == some .udp else k.proto name p

/-- A match holds, or if it is negated does not. -/
def holds (m : Option (Bool × String)) (test : String → Bool) : Bool := given m fun m => m.1 != test m.2

def applies (r : Listed) : Bool :=
  holds r.src (k.inBlock · p.src) && holds r.dst (k.inBlock · p.dst) && holds r.inIf (matchesIf · p.inIf) &&
    holds r.outIf (matchesIf · p.outIf) && holds r.proto (k.ofProto p) &&
    given r.port fun m => k.ofProto p m.1 && m.2 == p.dport

/-- What the target of a rule decides; `jump` are the chains that have been
listed. -/
def target (rest : List String) : Option Target :=
  match rest with
  | j :: name :: _ =>
    if j = "-j" then
      if name = "ACCEPT" then some .accept
      else if name = "DROP" then some .drop
      else if name = "REJECT" then some .reject
      else (jump name).getD (k.rest rest p)
    else k.rest rest p
  | _ => k.rest rest p

def verdict (r : Listed) : Option Target := if k.applies p r then k.target jump p r.rest else none

/-- The first rule of a listing that decides. -/
def decides (text : String) : Option Target := ((lines text).filterMap readLine).findSome? (k.verdict jump p)

/-- What becomes of a packet in a built-in chain, where of all others the chain
`user` has been listed. -/
def fate (user : Option String) (listing : String → String) (builtin : String) : Target :=
  let jump := fun name => if user = some name then some (k.decides (fun _ => none) p (listing name)) else none
  (k.decides jump p (listing builtin)).getD (policyOf (listing builtin))

end Extensions

/-- The listings of a tool in what the inspected commands have printed. -/
def Inspector.listing (output : Inspector) (tool chain : String) : String :=
  match output tool ["-w", "-S", chain] with
  | .ok text => text
  | .error _ => ""

/-- What an endpoint may send. -/
def LinuxBackend.Permits (b : LinuxBackend) (t : Topology) (p : Packet) : Prop :=
  p.src = t.child ∧
    (p.dst = linkLocalDNS ∧ p.dport = 53 ∧ (p.proto = some .tcp ∨ p.proto = some .udp) ∨
      p.dst ≠ linkLocalDNS ∧ p.outIf = b.egress ∧ ¬matchesIf "mkv+" p.outIf)

/-- The inspected firewall confines a packet of an endpoint. -/
structure Sealed (k : Extensions) (b : LinuxBackend) (x : Tools) (output : Inspector) (t : Topology) (p : Packet) : Prop where
  input4 : k.fate p (some t.chain) (output.listing x.iptables) "INPUT" = .drop
  forward4 : k.fate p (some t.chain) (output.listing x.iptables) "FORWARD" = .accept → b.Permits t p
  input6 : k.fate p none (output.listing x.ip6tables) "INPUT" = .drop
  forward6 : k.fate p none (output.listing x.ip6tables) "FORWARD" = .drop

/-- The name of one interface. -/
def Literal (name : String) : Prop := IsWord name ∧ name.toList.getLast? ≠ some '+'

theorem readLine_unwords (hws : ∀ w ∈ ws, IsWord w) : readLine (unwords ws) = readWords ws := by
  rw [readLine, fields_unwords hws]

/-! ## Before the guard -/

section Guard
variable {k : Extensions} {jump : String → Option (Option Target)} {p : Packet} {chain hostIf target : String}

theorem otherIngress_cases (h : otherIngress chain hostIf ws) :
    ∃ name rest, ws = "-A" :: chain :: "-i" :: name :: rest ∧ literalIngress name ∧ name ≠ hostIf := by
  match ws with
  | a :: c :: option :: name :: rest =>
    simp only [otherIngress, Bool.and_eq_true, beq_iff_eq, bne_iff_ne] at h
    obtain ⟨⟨⟨⟨⟨⟨-, rfl⟩, rfl⟩, rfl⟩, hlit⟩, hne⟩, -⟩ := h
    exact ⟨name, rest, rfl, hlit, hne⟩

/-- The loop stops at the guard, and all it has passed is for other interfaces. -/
theorem guardFirst_cases {ls : List String} (h : guardFirst chain hostIf target ls) :
    ∃ before after, ls = before ++ unwords (guardRule chain hostIf target) :: after ∧
      ∀ line ∈ before, otherIngress chain hostIf (fields line) := by
  induction ls with
  | nil => cases h
  | cons line ls ih =>
    simp only [guardFirst, Bool.or_eq_true, beq_iff_eq, Bool.and_eq_true] at h
    rcases h with rfl | ⟨hother, hrest⟩
    · exact ⟨[], ls, rfl, by simp⟩
    · obtain ⟨before, after, rfl, hbefore⟩ := ih hrest
      exact ⟨line :: before, after, rfl, List.forall_mem_cons.2 ⟨hother, hbefore⟩⟩

theorem getLast?_of_literalIngress (h : literalIngress name) : name.toList.getLast? ≠ some '+' := by
  intro hplus
  have hmem := List.mem_of_getLast? hplus
  unfold literalIngress matchesRE at h
  split at h
  · cases h
  · rename_i c cs heq
    rw [heq] at hmem
    simp only [Bool.and_eq_true, List.all_eq_true] at h
    obtain rfl | hmem := List.mem_cons.1 hmem
    · exact absurd h.1.1 (by decide)
    · exact absurd (h.2 _ hmem) (by decide)

/-- A rule with a positive literal ingress says nothing of a packet of another
interface. -/
theorem verdict_of_otherIngress (hlit : literalIngress name) (hne : name ≠ p.inIf) :
    k.verdict jump p (readRule ("-i" :: name :: ws)) = none := by
  have hin : (readRule ("-i" :: name :: ws)).inIf = some (false, name) := by
    cases ws <;> simp [readRule, readMatch]
  have hno : k.applies p (readRule ("-i" :: name :: ws)) = false := by
    have hfalse : Extensions.holds (some (false, name)) (matchesIf · p.inIf) = false := by
      simp [Extensions.holds, given, matchesIf_literal (getLast?_of_literalIngress hlit), hne]
    simp [Extensions.applies, hin, hfalse]
  simp [Extensions.verdict, hno]

theorem verdict_of_before {line : String} (h : otherIngress chain p.inIf (fields line)) :
    ∀ r ∈ readLine line, k.verdict jump p r = none := by
  obtain ⟨name, rest, hfields, hlit, hne⟩ := otherIngress_cases h
  intro r hr
  simp only [readLine, readWords, hfields, if_pos, Option.mem_def, Option.some.injEq] at hr
  rw [← hr]
  exact verdict_of_otherIngress hlit hne

/-- A listing that passes: its policy, rules for other interfaces, the guard. -/
theorem lines_of_ingressGuardFirst {data : String} (h : ingressGuardFirst data chain hostIf target) :
    ∃ first before after, lines data = first :: before ++ unwords (guardRule chain hostIf target) :: after ∧
      (first = unwords ["-P", chain, "ACCEPT"] ∨ first = unwords ["-P", chain, "DROP"]) ∧
      ∀ line ∈ before, otherIngress chain hostIf (fields line) := by
  simp only [ingressGuardFirst, Bool.and_eq_true, Bool.or_eq_true, beq_iff_eq] at h
  obtain ⟨⟨⟨⟨⟨-, hlast⟩, -⟩, -⟩, hpolicy⟩, hguard⟩ := h
  obtain ⟨before, after, htail, hbefore⟩ := guardFirst_cases hguard
  have hdata : lines data = lines (String.ofList data.toList.dropLast) ++ [""] := by
    have hsplit : data.toList.dropLast ++ ['\n'] = data.toList := List.dropLast_append_getLast? '\n' hlast
    have hlines := lines_append data.toList.dropLast []
    rw [hsplit, String.ofList_toList] at hlines
    exact hlines
  cases hls : lines (String.ofList data.toList.dropLast) with
  | nil => simp [hls] at hpolicy
  | cons first ls =>
    rw [hls] at hdata htail hpolicy
    obtain rfl : ls = _ := htail
    refine ⟨first, before, after ++ [""], ?_, by simpa using hpolicy, hbefore⟩
    rw [hdata]
    simp

/-- The guard decides of what arrives on its interface. -/
theorem decides_of_ingressGuardFirst {data : String} (hchain : IsWord chain) (hif : Literal p.inIf) (htarget : IsWord target)
    (h : ingressGuardFirst data chain p.inIf target) {v : Target} (hv : k.target jump p ["-j", target] = some v) :
    k.decides jump p data = some v := by
  obtain ⟨first, before, after, hlines, hfirst, hbefore⟩ := lines_of_ingressGuardFirst h
  have hwords : IsWord "-P" ∧ IsWord "ACCEPT" ∧ IsWord "DROP" ∧ IsWord "-A" ∧ IsWord "-i" ∧ IsWord "-j" := by decide
  have hhead : readLine first = none := by
    rcases hfirst with rfl | rfl
    · rw [readLine_unwords (by simp [hwords, hchain])]
      rfl
    · rw [readLine_unwords (by simp [hwords, hchain])]
      rfl
  have hpassed : (before.filterMap readLine).findSome? (k.verdict jump p) = none := by
    rw [List.findSome?_eq_none_iff]
    intro r hr
    obtain ⟨line, hline, hread⟩ := List.mem_filterMap.1 hr
    exact verdict_of_before (hbefore line hline) r hread
  have hguard : readLine (unwords (guardRule chain p.inIf target)) = some { inIf := some (false, p.inIf), rest := ["-j", target] } := by
    rw [guardRule, readLine_unwords (by simp [hwords, hchain, hif.1, htarget])]
    simp [readWords, readRule, readMatch, readPort]
  have hverdict : k.verdict jump p { inIf := some (false, p.inIf), rest := ["-j", target] } = some v := by
    simp [Extensions.verdict, Extensions.applies, Extensions.holds, given, matchesIf_literal hif.2, hv]
  rw [Extensions.decides, hlines, List.cons_append, List.filterMap_cons, hhead, List.filterMap_append, List.findSome?_append,
    hpassed, List.filterMap_cons, hguard]
  simp [hverdict]

end Guard

/-! ## The endpoint's chain -/

theorem isSpace_of_isHex {c : Char} (h : isHex c) : Protocol.isSpace c = false := by
  have hlow : c.toNat ≤ 102 := by
    simp only [isHex, isDigit, Bool.or_eq_true, Bool.and_eq_true, decide_eq_true_eq] at h
    rcases h with h | h
    · exact (show c.toNat ≤ 57 from h.2).trans (by decide)
    · exact h.2
  by_contra hspace
  simp only [Protocol.isSpace, Bool.not_eq_false, Bool.or_eq_true, decide_eq_true_eq, Bool.and_eq_true, List.mem_cons,
    List.not_mem_nil, or_false] at hspace
  rcases hspace with hx | hx
  · rcases hx with rfl | rfl | rfl | rfl | rfl | rfl | rfl | rfl | rfl | rfl | rfl | rfl | rfl | rfl <;> exact absurd h (by decide)
  · omega

section Names
variable {e : Endpoint} {t : Topology}

/-- A name made of a fixed beginning and hexadecimal digits. -/
theorem isWord_hex {first : String} {cs : List Char} (hfirst : IsWord first) (hcs : ∀ c ∈ cs, isHex c) :
    IsWord (first ++ String.ofList cs) := by
  refine ⟨by simp [hfirst.1], ?_⟩
  rw [String.toList_append, String.toList_ofList, List.all_append, hfirst.2, Bool.true_and, List.all_eq_true]
  intro c hc
  simp [isSpace_of_isHex (hcs c hc)]

theorem hex_of_take (ht : endpointTopology e = .ok t) (n : Nat) : ∀ c ∈ e.generation.toList.take n, isHex c :=
  fun c hc => mem_matchesAll (topology_ok ht).1 c (List.mem_of_mem_take hc)

theorem isWord_chain (ht : endpointTopology e = .ok t) : IsWord t.chain := by
  rw [(topology_ok ht).2.2]
  exact isWord_hex (by decide) (hex_of_take ht 12)

theorem literal_hostIf (ht : endpointTopology e = .ok t) : Literal t.hostIf := by
  rw [Literal, (topology_ok ht).2.1]
  refine ⟨isWord_hex (by decide) (hex_of_take ht 11), fun hplus => ?_⟩
  have hmem := List.mem_of_getLast? hplus
  simp only [String.toList_append, String.toList_ofList, List.mem_append] at hmem
  rcases hmem with hmem | hmem
  · exact absurd hmem (by decide)
  · exact absurd (hex_of_take ht 11 _ hmem) (by decide)

theorem isWord_source : IsWord t.source := by
  refine ⟨by simp [Topology.source], ?_⟩
  rw [Topology.source, String.toList_append, List.all_append, Bool.and_eq_true]
  refine ⟨List.all_eq_true.2 fun c hc => ?_, by decide⟩
  obtain hdigit | rfl := mem_dotted hc
  · simp [isSpace_of_isHex (c := c) (by simp [isHex, hdigit])]
  · decide

theorem child_lt (ht : endpointTopology e = .ok t) : t.child < 2 ^ 32 := by
  unfold endpointTopology at ht
  rw [if_neg (not_not.2 (topology_ok ht).1)] at ht
  split at ht
  · cases ht
  · rename_i ip ones bits hip
    have hlt : ip < 2 ^ 32 := by
      obtain ⟨c, -, hc⟩ := Option.bind_eq_some_iff.1 hip
      obtain ⟨v, hv, heq⟩ := Option.map_eq_some_iff.1 hc
      obtain rfl : v = ip := congrArg Prod.fst heq
      unfold to4 at hv
      split at hv <;> cases hv
      exact Nat.mod_lt _ (by decide)
    dsimp only at ht
    repeat' split at ht
    all_goals cases ht
    exact hlt

end Names

section Chain
variable {k : Extensions} {jump : String → Option (Option Target)} {p : Packet} {b : LinuxBackend} {t : Topology}

theorem inBlock_host {v a : Nat} (hv : v < 2 ^ 32) : k.inBlock (dotted v ++ "/32") a = (v == a) := by
  have hcidr : parseCIDR (dotted v ++ "/32") = some (mapIPv4 v, 32, 32) := by
    have h32 : dotted v ++ "/" ++ toString 32 = dotted v ++ "/32" := by
      rw [String.append_assoc]
      rfl
    rw [← h32]
    exact parseCIDR_dotted hv (le_refl 32)
  simp [Extensions.inBlock, hcidr, to4_mapIPv4 hv]

theorem inBlock_linkLocalDNS {a : Nat} : k.inBlock "169.254.169.254/32" a = (linkLocalDNS == a) := by
  have htext : "169.254.169.254/32" = dotted linkLocalDNS ++ "/32" := by decide +kernel
  rw [htext]
  exact inBlock_host (by decide)

/-- The rules of the chain that `Check` wants. -/
theorem rules_endpointChain {source egress : String} (hchain : IsWord chain) (hsource : IsWord source)
    (hegress : IsWord egress) :
    (lines (printed ((endpointChain chain source egress).map unwords))).filterMap readLine =
      [{ src := some (true, source), rest := ["-j", "DROP"] },
       { dst := some (false, "169.254.169.254/32"), proto := some (false, "udp"), port := some ("udp", 53),
         rest := ["-j", "ACCEPT"] },
       { dst := some (false, "169.254.169.254/32"), proto := some (false, "tcp"), port := some ("tcp", 53),
         rest := ["-j", "ACCEPT"] },
       { dst := some (false, "169.254.169.254/32"), rest := ["-j", "REJECT", "--reject-with", "icmp-port-unreachable"] },
       { outIf := some (false, "mkv+"), rest := ["-j", "DROP"] },
       { outIf := some (false, egress), rest := ["-j", "ACCEPT"] },
       { rest := ["-j", "DROP"] }] := by
  have hrows : ∀ row ∈ endpointChain chain source egress, ∀ w ∈ row, IsWord w := by
    have hfixed : ∀ w ∈ ["-N", "-A", "!", "-s", "-d", "-p", "-m", "-o", "-j", "DROP", "ACCEPT", "REJECT", "udp", "tcp", "--dport",
        "53", "169.254.169.254/32", "mkv+", "--reject-with", "icmp-port-unreachable"], IsWord w := by decide
    simp only [List.forall_mem_cons] at hfixed
    simp [endpointChain, hfixed, hchain, hsource, hegress]
  have hlines : ∀ line ∈ (endpointChain chain source egress).map unwords, '\n' ∉ line.toList := by
    intro line hline
    obtain ⟨row, hrow, rfl⟩ := List.mem_map.1 hline
    exact not_mem_unwords (hrows row hrow)
  have hread : ((endpointChain chain source egress).map unwords).filterMap readLine =
      (endpointChain chain source egress).filterMap readWords := by
    rw [List.filterMap_map]
    exact List.filterMap_congr fun row hrow => readLine_unwords (hrows row hrow)
  have hend : [""].filterMap readLine = [] := by decide
  rw [lines_printed hlines, List.filterMap_append, hread, hend, List.append_nil]
  have hport : readNumber "53" = some 53 := by decide
  simp [endpointChain, readWords, readRule, readMatch, readPort, hport]

/-- The chain decides of every packet: its last rule applies to all. -/
theorem decides_endpointChain {source egress : String} (hchain : IsWord chain) (hsource : IsWord source)
    (hegress : IsWord egress) :
    ∃ v, k.decides jump p (printed ((endpointChain chain source egress).map unwords)) = some v := by
  have hlast : k.verdict jump p { rest := ["-j", "DROP"] } = some .drop := by
    simp [Extensions.verdict, Extensions.applies, Extensions.holds, given, Extensions.target]
  have hsome : (k.decides jump p (printed ((endpointChain chain source egress).map unwords))).isSome := by
    rw [Extensions.decides, rules_endpointChain hchain hsource hegress, List.findSome?_isSome_iff]
    exact ⟨{ rest := ["-j", "DROP"] }, by simp, by rw [hlast]; rfl⟩
  exact Option.isSome_iff_exists.1 hsome

/-- What the endpoint's chain accepts. -/
theorem permits_of_endpointChain (ht : t.child < 2 ^ 32) (hchain : IsWord t.chain) (hegress : Literal b.egress)
    (h : k.decides jump p (printed ((endpointChain t.chain t.source b.egress).map unwords)) = some .accept) : b.Permits t p := by
  have hsource : k.inBlock t.source p.src = (t.child == p.src) := inBlock_host ht
  have hout : matchesIf b.egress p.outIf = (b.egress == p.outIf) := matchesIf_literal hegress.2
  rw [Extensions.decides, rules_endpointChain hchain isWord_source hegress.1] at h
  simp only [List.findSome?_cons, List.findSome?_nil, Extensions.verdict, Extensions.applies, Extensions.holds, given,
    Extensions.target, Extensions.ofProto, Option.all_some, Option.all_none, hsource, hout, inBlock_linkLocalDNS] at h
  by_cases hsrc : t.child = p.src
  · refine ⟨hsrc.symm, ?_⟩
    by_cases hdst : linkLocalDNS = p.dst
    · refine .inl ⟨hdst.symm, ?_⟩
      by_cases hport : 53 = p.dport
      · refine ⟨hport.symm, ?_⟩
        by_cases hudp : p.proto = some .udp
        · exact .inr hudp
        · by_cases htcp : p.proto = some .tcp
          · exact .inl htcp
          · simp [hsrc, hdst, hudp, htcp] at h
      · simp [hsrc, hdst, hport] at h
    · by_cases hmkv : matchesIf "mkv+" p.outIf
      · simp [hsrc, hdst, hmkv] at h
      · by_cases hegr : b.egress = p.outIf
        · exact .inr ⟨Ne.symm hdst, hegr.symm, hmkv⟩
        · simp [hsrc, hdst, hmkv, hegr] at h
  · simp [hsrc] at h

end Chain

/-! ## What `Check` has seen -/

section Check
variable {b : LinuxBackend} {x : Tools} {output : Inspector} {e : Endpoint}

theorem inspected_none {text : String} {args : List String} {test : String → Bool}
    (h : LinuxBackend.inspected output name args test text = none) : ∃ out, output name args = .ok out ∧ test out := by
  unfold LinuxBackend.inspected at h
  split at h
  · cases h
  · rename_i out hout
    exact ⟨out, hout, by simpa using h⟩

theorem listing_inspected {tool text : String} {test : String → Bool}
    (h : LinuxBackend.inspected output tool ["-w", "-S", chain] test text = none) : test (output.listing tool chain) := by
  obtain ⟨out, hout, htest⟩ := inspected_none h
  rw [Inspector.listing, hout]
  exact htest

/-- A chain with a guard that drops. -/
theorem fate_of_dropGuard {k : Extensions} {p : Packet} {user : Option String} {listing : String → String} {builtin : String}
    (hbuiltin : IsWord builtin) (hif : Literal p.inIf) (h : ingressGuardFirst (listing builtin) builtin p.inIf "DROP") :
    k.fate p user listing builtin = .drop := by
  have htarget (jump : String → Option (Option Target)) : k.target jump p ["-j", "DROP"] = some .drop := by
    simp [Extensions.target]
  rw [Extensions.fate, decides_of_ingressGuardFirst hbuiltin hif (by decide) h (htarget _)]
  rfl

/-- A chain whose guard hands everything to a chain that has been listed and
decides of everything. -/
theorem fate_of_jumpGuard {k : Extensions} {p : Packet} {user : String} {listing : String → String} {builtin : String} {v : Target}
    (hbuiltin : IsWord builtin) (hif : Literal p.inIf) (huser : IsWord user) (hname : user ∉ ["ACCEPT", "DROP", "REJECT"])
    (h : ingressGuardFirst (listing builtin) builtin p.inIf user) (hv : k.decides (fun _ => none) p (listing user) = some v) :
    k.fate p (some user) listing builtin = v := by
  simp only [List.mem_cons, List.not_mem_nil, or_false, not_or] at hname
  have htarget : k.target (fun name => if some user = some name then some (k.decides (fun _ => none) p (listing name)) else none) p
      ["-j", user] = some v := by
    simp [Extensions.target, hname, hv]
  rw [Extensions.fate, decides_of_ingressGuardFirst hbuiltin hif huser h htarget]
  rfl

/-- Where `Check` passes, the listings it has seen confine every packet that
arrives on the endpoint's interface, whatever the words it does not know mean. -/
theorem check_seals (hegress : Literal b.egress) (hcheck : b.check x e (some output) = none) :
    ∃ t, endpointTopology e = .ok t ∧ ∀ (k : Extensions) (p : Packet), p.inIf = t.hostIf → Sealed k b x.defaults output t p := by
  unfold LinuxBackend.check at hcheck
  split at hcheck
  · cases hcheck
  rename_i t ht
  simp only [Option.or_eq_none_iff] at hcheck
  obtain ⟨-, hchain, hingress⟩ := hcheck
  have hlisted : output.listing x.defaults.iptables t.chain = printed ((endpointChain t.chain t.source b.egress).map unwords) := by
    simpa using listing_inspected hchain
  have hguards : ∀ c ∈ LinuxBackend.ingressChecks x.defaults t,
      ingressGuardFirst (output.listing c.1 c.2.1) c.2.1 t.hostIf c.2.2 := by
    intro c hc
    exact listing_inspected (List.findSome?_eq_none_iff.1 hingress c hc)
  simp only [LinuxBackend.ingressChecks, List.forall_mem_cons] at hguards
  obtain ⟨hinput4, hforward4, hinput6, hforward6, -⟩ := hguards
  refine ⟨t, ht, fun k p hp => ?_⟩
  have hif : Literal p.inIf := hp ▸ literal_hostIf ht
  rw [← hp] at hinput4 hforward4 hinput6 hforward6
  constructor
  · exact fate_of_dropGuard (by decide) hif hinput4
  · intro haccept
    have hname : t.chain ∉ ["ACCEPT", "DROP", "REJECT"] := by
      simp only [List.mem_cons, List.not_mem_nil, or_false, not_or]
      exact ⟨chain_ne ht (by decide), chain_ne ht (by decide), chain_ne ht (by decide)⟩
    obtain ⟨v, hv⟩ : ∃ v, k.decides (fun _ => none) p (output.listing x.defaults.iptables t.chain) = some v := by
      rw [hlisted]
      exact decides_endpointChain (isWord_chain ht) isWord_source hegress.1
    rw [fate_of_jumpGuard (by decide) hif (isWord_chain ht) hname hforward4 hv] at haccept
    rw [hlisted, haccept] at hv
    exact permits_of_endpointChain (child_lt ht) (isWord_chain ht) hegress hv
  · exact fate_of_dropGuard (by decide) hif hinput6
  · exact fate_of_dropGuard (by decide) hif hforward6

end Check

/-- The inspected commands on a host with the first endpoint and nothing else. -/
def firstInspector : Inspector := fun tool args =>
  let listing := fun chain target => printed [unwords ["-P", chain, "ACCEPT"], unwords (guardRule chain "mkv00000000000" target)]
  .ok <|
    if "-S" ∈ args then
      if "MK-000000000000" ∈ args then printed ((endpointChain "MK-000000000000" firstTopology.source "uplink").map unwords)
      else if "INPUT" ∈ args then listing "INPUT" "DROP"
      else listing "FORWARD" (if tool = "/usr/sbin/ip6tables" then "DROP" else "MK-000000000000")
    else if "net.ipv4.ip_forward" ∈ args then "1\n"
    else if "address" ∈ args then "8: eth0 inet 10.0.0.1/30\n"
    else if "default" ∈ args then "default via 100.64.0.1 dev mkhost0\n"
    else if "route" ∈ args then "via 100.64.0.2 dev mkv00000000000\n"
    else if "link" ∈ args then "7: link: <UP> mtu 1500\n"
    else ""

/-- On that host `Check` passes. -/
theorem check_seals_first :
    Literal "uplink" ∧ LinuxBackend.check ⟨"uplink"⟩ {} firstEndpoint (some firstInspector) = none ∧
      ∃ t, endpointTopology firstEndpoint = .ok t ∧
        ∀ (k : Extensions) (p : Packet), p.inIf = t.hostIf → Sealed k ⟨"uplink"⟩ (Tools.defaults {}) firstInspector t p := by
  have hegress : Literal "uplink" := by
    constructor
    · decide
    · decide
  have hcheck : LinuxBackend.check ⟨"uplink"⟩ {} firstEndpoint (some firstInspector) = none := by
    have ht : endpointTopology firstEndpoint = .ok firstTopology := by decide +kernel
    have hchain : LinuxBackend.checkEndpointChain ⟨"uplink"⟩ (Tools.defaults {}) firstInspector firstTopology = none := by
      simp [LinuxBackend.checkEndpointChain, LinuxBackend.inspected, firstInspector, firstTopology]
    have hingress : LinuxBackend.checkIngressPrecedence (Tools.defaults {}) firstInspector firstTopology = none := by
      decide +kernel
    simp only [LinuxBackend.check, ht, hchain, hingress, Option.or_none]
    decide +kernel
  exact ⟨hegress, hcheck, check_seals (b := ⟨"uplink"⟩) hegress hcheck⟩

end Multikernel.Network
