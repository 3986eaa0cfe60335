import Multikernel.Lib.Runs
import Multikernel.Network.Shell
/-!
# The network backend's commands

`LinuxBackend.Add` and `Delete` of `runtime/internal/network/backend_linux.go`
as the commands they run. `guards_cover_live_link`: in every run of them,
stopped anywhere and with any commands failing, an endpoint's interface that is
up has the rules that keep its packets from the primary.
-/

namespace Multikernel.Network
open Lib

/-! ## Names and addresses of an endpoint -/

theorem topology_ok {e : Endpoint} {t : Topology} (ht : endpointTopology e = .ok t) :
    endpointGeneration e.generation ∧ t.hostIf = "mkv" ++ String.ofList (e.generation.toList.take 11) ∧
      t.chain = "MK-" ++ String.ofList (e.generation.toList.take 12) := by
  unfold endpointTopology at ht
  by_cases hgen : endpointGeneration e.generation
  · rw [if_neg (not_not.2 hgen)] at ht
    split at ht
    · cases ht
    · dsimp only at ht
      repeat' split at ht
      all_goals cases ht
      exact ⟨hgen, rfl, rfl⟩
  · rw [if_pos hgen] at ht
    cases ht

/-- No built-in chain has the name of an endpoint's. -/
theorem chain_ne {e : Endpoint} {t : Topology} (ht : endpointTopology e = .ok t) {name : String}
    (hname : name.toList.head? ≠ some 'M') : t.chain ≠ name := by
  rintro rfl
  apply hname
  rw [(topology_ok ht).2.2, String.toList_append]
  rfl

/-! ## `Add` and `Delete` -/

structure LinuxBackend where
  egress : String
  deriving DecidableEq, Repr

/-- 169.254.169.254. -/
def linkLocalDNS : Nat := ((169 * 256 + 254) * 256 + 169) * 256 + 254

def peerIf : String := "mkhost0"

/-- Drop what arrives on an interface. -/
def dropRule (iface : String) : Rule := { inIf := some iface, target := .drop }

/-- The chains that guard the primary. -/
def guards : List (RuleTable × String) := [(.filter4, "INPUT"), (.filter6, "INPUT"), (.filter6, "FORWARD")]

def jumpRule (t : Topology) : Rule := { inIf := some t.hostIf, target := .chain t.chain }

namespace LinuxBackend
variable (b : LinuxBackend) (e : Endpoint) (t : Topology)

/-- The endpoint's chain as `Add` completes it. -/
def chainRules : List Rule :=
  [{ notSrc := some t.child, target := .drop },
   { dst := some linkLocalDNS, proto := some .udp, dport := some 53, target := .accept },
   { dst := some linkLocalDNS, proto := some .tcp, dport := some 53, target := .accept },
   { dst := some linkLocalDNS, target := .reject },
   { outIf := some "mkv+", target := .drop },
   { outIf := some b.egress, target := .accept },
   { target := .drop }]

/-- What comes back to an endpoint. -/
def returnRule : Rule := { inIf := some b.egress, outIf := some t.hostIf, established := true, target := .accept }

def masqueradeRule : Rule := { src := some t.child, outIf := some b.egress, target := .masquerade }

/-- The addresses and routes on both sides of a new link. -/
def linkCommands : List Command :=
  [.linkMove peerIf e.netNS,
   .addressAdd .own (t.transitHost ++ "/30") t.hostIf,
   .linkUp .own t.hostIf (some e.mtu),
   .linkUp (.inside e.netNS) "lo" none,
   .addressAdd (.inside e.netNS) (t.transitPeer ++ "/30") peerIf,
   .linkUp (.inside e.netNS) peerIf (some e.mtu),
   .tuntapAdd (.inside e.netNS) e.ifName,
   .addressAdd (.inside e.netNS) (e.gateway ++ "/30") e.ifName,
   .linkUp (.inside e.netNS) e.ifName (some e.mtu),
   .forwarding (.inside e.netNS),
   .routeReplace (.inside e.netNS) ⟨"default", t.transitHost, peerIf⟩,
   .routeAdd ⟨t.guestNetwork, t.transitPeer, t.hostIf⟩]

def addCommands : List Command :=
  [.linkAdd t.hostIf peerIf] ++
  -- FORWARD policy never sees traffic addressed to the primary itself.
  guards.map (fun g => .insert g.1 g.2 (dropRule t.hostIf)) ++
  linkCommands e t ++
  .newChain .filter4 t.chain :: (b.chainRules t).map (.append .filter4 t.chain) ++
  [.insert .filter4 "FORWARD" (jumpRule t),
   .insert .filter4 "FORWARD" (b.returnRule t),
   .append .nat4 "POSTROUTING" (b.masqueradeRule t)]

/-- What `Delete` takes down before the link. -/
def deleteCommands : List Command :=
  [.remove .nat4 "POSTROUTING" (b.masqueradeRule t),
   .remove .filter4 "FORWARD" (b.returnRule t),
   .remove .filter4 "FORWARD" (jumpRule t),
   .flush .filter4 t.chain,
   .deleteChain .filter4 t.chain,
   .routeDelete ⟨t.guestNetwork, t.transitPeer, t.hostIf⟩]

end LinuxBackend

def absenceMarkers : List String :=
  ["Bad rule (does a matching rule exist in that chain?)", "No chain/target/match by that name", "No such process",
    "Cannot find device", "does not exist"]

/-- `resourceAbsent`, on the output of a failed command. -/
def resourceAbsent (output : String) : Bool :=
  absenceMarkers.any fun marker => output.toList.tails.any marker.toList.isPrefixOf

/-- Run commands up to the first that fails. -/
def runAll : List Command → Cmds (Option String)
  | [] => return none
  | c :: cs => do
    match ← runner c with
    | none => runAll cs
    | some output => return some output

/-- Run all commands; the failures that are not for want of a resource. -/
def runEach : List Command → Cmds (List String)
  | [] => return []
  | c :: cs => do
    let output ← runner c
    let failures ← runEach cs
    return (output.filter fun o => !resourceAbsent o).toList ++ failures

/-- `errors.Join`. -/
def joinErrors (failures : List String) : Option String :=
  if failures = [] then none else some ("\n".intercalate failures)

namespace LinuxBackend
variable (b : LinuxBackend)

/-- `Delete`, once the names are known. -/
def tearDown (t : Topology) : Cmds (Option String) := do
  let failures ← runEach (b.deleteCommands t)
  -- Keep the primary-access guard if link removal fails.
  let output ← runner (.linkDelete t.hostIf)
  match output.filter fun o => !resourceAbsent o with
  | some o => return joinErrors (failures ++ [o])
  | none =>
    let rest ← runEach (guards.map fun g => .remove g.1 g.2 (dropRule t.hostIf))
    return joinErrors (failures ++ rest)

def delete (e : Endpoint) : Cmds (Option String) :=
  match endpointTopology e with
  | .error text => return some text
  | .ok t => b.tearDown t

/-- Where a command has failed, `Add` takes the endpoint down again. -/
def rollBack (e : Endpoint) : Option String → Cmds (Option String)
  | none => return none
  | some output => do
    let _ ← b.delete e
    return some output

def add (e : Endpoint) : Cmds (Option String) :=
  if b.egress = "" then return some "mknetd egress interface is required"
  else
    match endpointTopology e with
    | .error text => return some text
    | .ok t =>
      match netnsTarget e.netNS with
      | some text => return some text
      | none => runAll (b.addCommands e t) >>= b.rollBack e

end LinuxBackend

/-! ## Runs -/

/-- A call of the backend and what the environment answers; where the answers
run out the call is stopped. -/
structure BackendTurn where
  backend : LinuxBackend
  endpoint : Endpoint
  adding : Bool
  answers : List (Option String)

namespace BackendTurn

def prog (x : BackendTurn) : Cmds (Option String) :=
  if x.adding then x.backend.add x.endpoint else x.backend.delete x.endpoint

def after (h : Host) (x : BackendTurn) : Host := (exec Shell x.prog h x.answers).1

end BackendTurn

/-- What a tool prints for the want of a resource it prints only then: the
command could not have worked. -/
def Truthful (h : Host) (c : Command) (fails : Option String) : Prop :=
  ∀ output, fails = some output → resourceAbsent output → ∀ h', h.apply c ≠ .ok h'

/-- The answers of a turn are truthful. -/
def BackendTurn.Honest (h : Host) (x : BackendTurn) : Prop := Meets Shell Truthful x.prog h x.answers

/-! ## Runs of commands -/

section Runs
variable {T : Trans ShellI Host} {G : Host → Command → Prop}

theorem runAll_emits (cs : List Command) : Emits (I := ShellI) (· ∈ cs) (runAll cs) fun _ => True := by
  induction cs with
  | nil => trivial
  | cons c cs ih =>
    refine ⟨List.mem_cons_self, fun r _ _ => ?_⟩
    cases r with
    | none => exact ih.mono (fun _ => List.mem_cons_of_mem c) fun _ => id
    | some output => trivial

theorem runEach_emits (cs : List Command) : Emits (I := ShellI) (· ∈ cs) (runEach cs) fun _ => True := by
  induction cs with
  | nil => trivial
  | cons c cs ih =>
    refine ⟨List.mem_cons_self, fun r _ _ => ?_⟩
    exact (ih.mono (fun _ => List.mem_cons_of_mem c) fun _ => id).bind fun _ _ => trivial

/-- The second part of a list of commands runs where the first has worked. -/
theorem sat_runAll_append {cs ds : List Command} {h : Host} {Q : Option String → Host → Prop}
    (hcs : Sat T G (runAll cs) h fun r h' => (r = none → Sat T G (runAll ds) h' Q) ∧ (r ≠ none → Q r h')) :
    Sat T G (runAll (cs ++ ds)) h Q := by
  induction cs generalizing h with
  | nil => exact hcs.1 rfl
  | cons c cs ih =>
    refine ⟨hcs.1, fun r h' hr => ?_⟩
    have hnext := hcs.2 r h' hr
    cases r with
    | none => exact ih hnext
    | some output => exact hnext.2 (by simp)

end Runs

/-! ## The guard of a live link -/

/-- A chain has the rule that drops what arrives on an interface. -/
def Drops (h : Host) (n : String) (g : RuleTable × String) : Prop :=
  ∃ rules, h.chains g.1 g.2 = some rules ∧ dropRule n ∈ rules

/-- Every chain that guards the primary does. -/
def Guarded (h : Host) (n : String) : Prop := ∀ g ∈ guards, Drops h n g

def Covered (h : Host) (n : String) : Prop := h.up n → Guarded h n

/-- A command leaves a guard of an interface where it is. -/
def Spares (c : Command) (n : String) (g : RuleTable × String) : Prop :=
  c.chain = some g → ∀ rules, dropRule n ∈ rules → ∃ rules', c.edit (some rules) = some rules' ∧ dropRule n ∈ rules'

section Guard
variable {h h' : Host} {c : Command} {n : String} {g : RuleTable × String}

theorem drops_apply (hc : h.apply c = .ok h') (hs : Spares c n g) (hg : Drops h n g) : Drops h' n g := by
  obtain ⟨rules, hrules, hin⟩ := hg
  have hchains := chains_apply hc g.1 g.2
  by_cases hchain : c.chain = some g
  · rw [if_pos hchain, hrules] at hchains
    rw [Drops, hchains]
    exact hs hchain rules hin
  · rw [if_neg hchain] at hchains
    exact ⟨rules, hchains.trans hrules, hin⟩

theorem covered_apply (hc : h.apply c = .ok h') (hs : ∀ g ∈ guards, Spares c n g)
    (hl : ∀ mtu, c = .linkUp .own n mtu → Guarded h n) (hcov : Covered h n) : Covered h' n := by
  intro hup g hg
  apply drops_apply hc (hs g hg)
  obtain hup | ⟨mtu, rfl⟩ := up_of_apply hc hup
  · exact hcov hup g hg
  · exact hl mtu rfl g hg

theorem spares_of_chain (hc : c.chain ≠ some g) : Spares c n g := fun hchain => absurd hchain hc

/-- A command that takes no rule away. -/
def Command.additive : Command → Bool
  | .newChain _ _ | .remove _ _ _ | .flush _ _ | .deleteChain _ _ => false
  | _ => true

theorem spares_additive (hc : c.additive) : Spares c n g := by
  cases c with
  | append t name rule => exact fun _ rules hin => ⟨rules ++ [rule], rfl, List.mem_append_left _ hin⟩
  | insert t name rule => exact fun _ rules hin => ⟨rule :: rules, rfl, List.mem_cons_of_mem rule hin⟩
  | newChain | remove | flush | deleteChain => cases hc
  | linkAdd | linkMove | linkUp | linkDelete | addressAdd | tuntapAdd | forwarding | routeReplace | routeAdd
  | routeDelete => exact spares_of_chain (by simp [Command.chain])

theorem spares_remove (t : RuleTable) (name : String) {rule : Rule} (hne : rule ≠ dropRule n) :
    Spares (.remove t name rule) n g :=
  fun _ rules hin => ⟨rules.erase rule, rfl, (List.mem_erase_of_ne hne.symm).2 hin⟩

/-- A command that keeps an interface covered, whatever the host. -/
def Mild (n : String) (c : Command) : Prop := (∀ g ∈ guards, Spares c n g) ∧ ∀ mtu, c ≠ .linkUp .own n mtu

theorem covered_trans {E : Host → Command → Option String → Prop} {r : Option String} (ht : Shell.trans E h c r h')
    (hc : Mild n c) (hcov : Covered h n) : Covered h' n := by
  obtain ⟨output, -, rfl⟩ | ⟨-, happly⟩ := shell_cases ht
  · exact hcov
  · exact covered_apply happly hc.1 (fun mtu hx => absurd hx (hc.2 mtu)) hcov

theorem drops_trans {E : Host → Command → Option String → Prop} {r : Option String} (ht : Shell.trans E h c r h')
    (hs : Spares c n g) (hg : Drops h n g) : Drops h' n g := by
  obtain ⟨output, -, rfl⟩ | ⟨-, happly⟩ := shell_cases ht
  · exact hg
  · exact drops_apply happly hs hg

variable {b : LinuxBackend} {e : Endpoint} {t : Topology}

theorem chain_not_guard (ht : endpointTopology e = .ok t) (hg : g ∈ guards) : some (RuleTable.filter4, t.chain) ≠ some g := by
  have hne : t.chain ≠ "INPUT" := chain_ne ht (by decide)
  rintro ⟨⟩
  simp [guards, hne] at hg

theorem mild_deleteCommands (ht : endpointTopology e = .ok t) : ∀ c ∈ b.deleteCommands t, Mild n c := by
  have hrule : ∀ t name (rule : Rule), rule.target ≠ .drop → Mild n (.remove t name rule) := by
    refine fun t name rule htarget => ⟨fun g _ => spares_remove t name ?_, by simp⟩
    rintro rfl
    exact htarget rfl
  simp only [LinuxBackend.deleteCommands, List.forall_mem_cons]
  refine ⟨hrule _ _ _ ?_, hrule _ _ _ ?_, hrule _ _ _ ?_, ⟨fun g hg => ?_, by simp⟩, ⟨fun g hg => ?_, by simp⟩,
    ⟨fun g _ => spares_additive rfl, by simp⟩, by simp⟩
  · simp [LinuxBackend.masqueradeRule]
  · simp [LinuxBackend.returnRule]
  · simp [jumpRule]
  · exact spares_of_chain (chain_not_guard ht hg)
  · exact spares_of_chain (chain_not_guard ht hg)

/-- `Add` spares every guard, and of the host's interfaces activates only its
own. -/
theorem spares_addCommands (ht : endpointTopology e = .ok t) :
    ∀ c ∈ b.addCommands e t, (∀ g ∈ guards, Spares c n g) ∧ ∀ mtu, c = .linkUp .own n mtu → n = t.hostIf := by
  have hadd : ∀ c ∈ b.addCommands e t, c.additive ∨ c = .newChain .filter4 t.chain := by
    simp [LinuxBackend.addCommands, LinuxBackend.linkCommands, LinuxBackend.chainRules, guards, Command.additive]
  have hup : ∀ c ∈ b.addCommands e t, ∀ mtu, c = .linkUp .own n mtu → n = t.hostIf := by
    simp [LinuxBackend.addCommands, LinuxBackend.linkCommands, LinuxBackend.chainRules, guards, eq_comm]
  intro c hc
  refine ⟨fun g hg => ?_, hup c hc⟩
  obtain hc | rfl := hadd c hc
  · exact spares_additive hc
  · exact spares_of_chain (chain_not_guard ht hg)

/-- Where the deletion of the link counts as done, the link is gone. -/
theorem gone_of_linkDelete {name : String} {r : Option String} (ht : Shell.trans Truthful h (.linkDelete name) r h')
    (hr : r.filter (fun o => !resourceAbsent o) = none) : h'.own.links name = none := by
  obtain ⟨a, htrue, ha⟩ := ht
  cases a with
  | some output =>
    -- A forced failure: it says that the link is absent.
    cases ha
    have habsent : resourceAbsent output := by
      by_contra hx
      simp [Option.filter, hx] at hr
    cases happly : h.apply (.linkDelete name) with
    | error o => exact linkDelete_error happly
    | ok h'' => exact absurd happly (htrue output rfl habsent h'')
  | none =>
    simp only [shellStep] at ha
    split at ha
    · rename_i happly
      cases ha
      exact links_linkDelete happly
    · rename_i happly
      cases ha
      exact linkDelete_error happly

/-- Taking an endpoint down keeps every interface covered. -/
theorem covered_tearDown (ht : endpointTopology e = .ok t) (hcov : Covered h n) :
    Sat (Shell.trans Truthful) (fun h _ => Covered h n) (b.tearDown t) h fun _ h' => Covered h' n := by
  refine Sat.bind ((runEach_emits _).sat (J := (Covered · n)) hcov ?_ |>.imp (fun _ _ hx => hx.1) (fun _ _ hx => hx.1))
    fun failures h₁ hcov₁ => ?_
  · exact fun h c r h' hcov hc hr => covered_trans hr (mild_deleteCommands ht c hc) hcov
  refine ⟨hcov₁, fun output h₂ h₂t => ?_⟩
  have hcov₂ : Covered h₂ n := covered_trans h₂t ⟨fun g _ => spares_additive rfl, by simp⟩ hcov₁
  dsimp only [Prog.bind]
  split
  · exact hcov₂
  · rename_i hdone
    have hgone := gone_of_linkDelete h₂t hdone
    -- The guards go where the link is gone, and nothing brings it back up.
    refine Sat.bind ((runEach_emits _).sat (J := fun h => Covered h n ∧ (n = t.hostIf → ¬h.up n)) ?_ ?_ |>.imp
      (fun _ _ hx => hx.1.1) (fun _ _ hx => hx.1.1)) fun rest h₃ hcov₃ => hcov₃
    · refine ⟨hcov₂, ?_⟩
      rintro rfl
      simp [Host.up, hgone]
    · intro h c r h' hJ hc hr
      obtain ⟨g, hg, rfl⟩ := List.mem_map.1 hc
      obtain ⟨output, -, rfl⟩ | ⟨-, happly⟩ := shell_cases hr
      · exact hJ
      by_cases hn : n = t.hostIf
      · have hdown : ¬h'.up n := by
          intro hup
          obtain hup | ⟨mtu, hx⟩ := up_of_apply happly hup
          · exact hJ.2 hn hup
          · cases hx
        exact ⟨fun hup => absurd hup hdown, fun _ => hdown⟩
      · have hne : dropRule t.hostIf ≠ dropRule n := by
          intro hx
          cases hx
          exact hn rfl
        exact ⟨covered_apply happly (fun g _ => spares_remove _ _ hne) (fun mtu hx => by cases hx) hJ.1, fun hx => absurd hx hn⟩

/-- The guards of a new link, one after the other. -/
theorem guarded_inserts {gs ds : List (RuleTable × String)} (hcov : Covered h n)
    (hdone : ∀ g ∈ ds, Drops h t.hostIf g) :
    Sat (Shell.trans Truthful) (fun h _ => Covered h n) (runAll (gs.map fun g => .insert g.1 g.2 (dropRule t.hostIf))) h
      fun r h' => Covered h' n ∧ (r = none → ∀ g, g ∈ ds ∨ g ∈ gs → Drops h' t.hostIf g) := by
  -- The list is what is left to do, `ds` what has been done.
  induction gs generalizing h ds with
  | nil => exact ⟨hcov, fun _ g hg => hdone g (by simpa using hg)⟩
  | cons g gs ih =>
    refine ⟨hcov, fun r h' hr => ?_⟩
    have hcov' : Covered h' n := covered_trans hr ⟨fun g _ => spares_additive rfl, by simp⟩ hcov
    cases r with
    | some output => exact ⟨hcov', by simp⟩
    | none =>
      have hnew : Drops h' t.hostIf g := by
        obtain ⟨output, hx, -⟩ | ⟨-, happly⟩ := shell_cases hr
        · cases hx
        obtain ⟨rules, next, hrules, hnext, rfl⟩ := onChain_ok happly
        split at hnext <;> cases hnext
        exact ⟨dropRule t.hostIf :: rules, Chains.set_self _ _ _ _, List.mem_cons_self⟩
      have hdone' : ∀ d ∈ g :: ds, Drops h' t.hostIf d := by
        intro d hd
        obtain rfl | hd := List.mem_cons.1 hd
        · exact hnew
        · exact drops_trans hr (spares_additive rfl) (hdone d hd)
      refine (ih hcov' hdone').mono fun r h'' hx => ⟨hx.1, fun hr d hd => hx.2 hr d ?_⟩
      simp only [List.mem_cons] at hd ⊢
      tauto

/-- Adding an endpoint keeps every interface covered. -/
theorem covered_addCommands (ht : endpointTopology e = .ok t) (hcov : Covered h n) :
    Sat (Shell.trans Truthful) (fun h _ => Covered h n) (runAll (b.addCommands e t)) h fun _ h' => Covered h' n := by
  have hspares := fun n => spares_addCommands (b := b) (n := n) ht
  unfold LinuxBackend.addCommands at hspares ⊢
  simp only [List.append_assoc] at hspares ⊢
  refine sat_runAll_append ((runAll_emits _).sat (J := (Covered · n)) hcov ?_ |>.imp (fun _ _ hx => hx.1)
    fun r h₁ hx => ⟨fun _ => ?_, fun _ => hx.1⟩)
  · intro h c r h' hcov hc hr
    obtain rfl := List.mem_singleton.1 hc
    exact covered_trans hr ⟨fun g _ => spares_additive rfl, by simp⟩ hcov
  have hnone : ∀ g ∈ ([] : List (RuleTable × String)), Drops h₁ t.hostIf g := by simp
  refine sat_runAll_append ((guarded_inserts hx.1 hnone).mono fun r h₂ hx => ⟨fun hr => ?_, fun _ => hx.1⟩)
  have hguard : Guarded h₂ t.hostIf := fun g hg => hx.2 hr g (.inr hg)
  -- From here on the link may go up: its guards are there and stay.
  refine ((runAll_emits _).sat (J := fun h => Covered h n ∧ Guarded h t.hostIf) ⟨hx.1, hguard⟩ ?_).imp
    (fun _ _ hx => hx.1.1) (fun _ _ hx => hx.1.1)
  intro h c r h' hJ hc hr
  have hmem := List.mem_append_right [.linkAdd t.hostIf peerIf]
    (List.mem_append_right (guards.map fun g => .insert g.1 g.2 (dropRule t.hostIf)) hc)
  obtain ⟨output, -, rfl⟩ | ⟨-, happly⟩ := shell_cases hr
  · exact hJ
  · refine ⟨covered_apply happly (hspares n c hmem).1 (fun mtu hup => ?_) hJ.1,
      fun g hg => drops_apply happly ((hspares t.hostIf c hmem).1 g hg) (hJ.2 g hg)⟩
    rw [(hspares n c hmem).2 mtu hup]
    exact hJ.2

theorem covered_delete (hcov : Covered h n) :
    Sat (Shell.trans Truthful) (fun h _ => Covered h n) (b.delete e) h fun _ h' => Covered h' n := by
  unfold LinuxBackend.delete
  split
  · exact hcov
  · rename_i ht
    exact covered_tearDown ht hcov

theorem covered_add (hcov : Covered h n) :
    Sat (Shell.trans Truthful) (fun h _ => Covered h n) (b.add e) h fun _ h' => Covered h' n := by
  unfold LinuxBackend.add
  split
  · exact hcov
  split
  · exact hcov
  rename_i ht
  split
  · exact hcov
  refine (covered_addCommands ht hcov).bind fun r h₁ hcov₁ => ?_
  cases r with
  | none => exact hcov₁
  | some output => exact (covered_delete hcov₁).bind fun _ _ hcov₂ => hcov₂

end Guard

/-- In every run of `Add` and `Delete`, stopped anywhere and with any commands
failing, an interface that is up has its guards, if only what was up before the
run had them. -/
theorem guards_cover_live_link {h : Host} {n : String} {turns : List BackendTurn} (hstart : h.up n → Guarded h n)
    (hturns : Conforms BackendTurn.after BackendTurn.Honest h turns) (hup : (run BackendTurn.after h turns).up n) :
    Guarded (run BackendTurn.after h turns) n := by
  have hcov : Covered (run BackendTurn.after h turns) n := by
    refine hturns.inv (J := (Covered · n)) hstart fun h x hcov hx => ?_
    have hsat : Sat (Shell.trans Truthful) (fun h _ => Covered h n) x.prog h fun _ h' => Covered h' n := by
      unfold BackendTurn.prog
      split
      · exact covered_add hcov
      · exact covered_delete hcov
    exact hsat.exec_world (J := (Covered · n)) (fun _ _ => id) (fun _ _ => id) x.answers hx
  exact hcov hup

/-- A host with its built-in chains and nothing else. -/
def bareHost : Host where
  chains t name :=
    match t, name with
    | .filter4, "INPUT" | .filter4, "FORWARD" | .filter6, "INPUT" | .filter6, "FORWARD" | .nat4, "POSTROUTING" => some []
    | _, _ => none

def firstEndpoint : Endpoint :=
  { netNS := "/run/netns/mk-000000000000", ifName := "eth0", generation := "00000000000000000000000000000001",
    address := "10.0.0.2/30", gateway := "10.0.0.1", mtu := 1500 }

/-- `Add` of that endpoint as far as `n` commands that work. -/
def firstAdd (n : Nat) : BackendTurn := ⟨⟨"uplink"⟩, firstEndpoint, true, List.replicate n none⟩

/-- The link is up after the seventh command. -/
theorem guards_cover_first_link :
    (run BackendTurn.after bareHost [firstAdd 7]).up "mkv00000000000" ∧
      Guarded (run BackendTurn.after bareHost [firstAdd 7]) "mkv00000000000" := by
  have hup : (run BackendTurn.after bareHost [firstAdd 7]).up "mkv00000000000" := by decide +kernel
  refine ⟨hup, guards_cover_live_link (fun hx => absurd hx (by decide)) ⟨?_, trivial⟩ hup⟩
  refine meets_of_passes Shell (b := fun _ _ a => a.isNone) (fun h c a ha output hx => ?_) (by decide +kernel)
  rw [hx] at ha
  cases ha

end Multikernel.Network
