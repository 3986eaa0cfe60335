import Multikernel.Network.Backend
/-!
# Isolation while an endpoint is built or torn down

`Add` activates an endpoint's link before `FORWARD` jumps to the endpoint's
chain, and `Delete` takes that jump away before the link. In between, what the
endpoint sends is left to the host's own rules. `isolated_iff_policy`: no run
of `Add` and `Delete` ever forwards a packet of an endpoint that its complete
chain refuses exactly where the host's own rules and policy forward none.
`forwards_before_jump` is the run that shows it on a host that forwards by
default.
-/

namespace Multikernel.Network
open Lib
variable {b : LinuxBackend} {e : Endpoint} {t : Topology} {h : Host} {E : Host → Command → Option String → Prop}

/-! ## Names of interfaces -/

theorem mem_matchesAll {p : Char → Bool} {n : Nat} {cs : List Char} (h : matchesAll (List.replicate n p) cs) :
    ∀ c ∈ cs, p c := by
  induction n generalizing cs with
  | zero =>
    cases cs with
    | nil => simp
    | cons c cs => cases h
  | succ n ih =>
    cases cs with
    | nil => cases h
    | cons c cs =>
      simp only [List.replicate_succ, matchesAll, Bool.and_eq_true] at h
      simp only [List.forall_mem_cons]
      exact ⟨h.1, ih h.2⟩

section Names
variable {e e' : Endpoint} {t t' : Topology}

/-- The name of an endpoint's interface stands for itself only. -/
theorem matchesIf_hostIf (ht : endpointTopology e = .ok t) (iface : String) : matchesIf t.hostIf iface = (t.hostIf == iface) := by
  obtain ⟨hgen, hname, -⟩ := topology_ok ht
  refine matchesIf_literal fun hplus => ?_
  rw [hname, String.toList_append, String.toList_ofList, List.getLast?_append] at hplus
  cases hlast : (e.generation.toList.take 11).getLast? with
  | none => simp [hlast] at hplus
  | some c =>
    have hc : c = '+' := by simpa [hlast] using hplus
    have hhex := mem_matchesAll hgen c (List.mem_of_mem_take (List.mem_of_getLast? hlast))
    rw [hc] at hhex
    exact absurd hhex (by decide)

/-- Endpoints that share a chain share the interface. -/
theorem hostIf_of_chain (ht : endpointTopology e = .ok t) (ht' : endpointTopology e' = .ok t') (hc : t'.chain = t.chain) :
    t'.hostIf = t.hostIf := by
  obtain ⟨-, hname, hchain⟩ := topology_ok ht
  obtain ⟨-, hname', hchain'⟩ := topology_ok ht'
  rw [hchain, hchain'] at hc
  have htake : e'.generation.toList.take 12 = e.generation.toList.take 12 := by
    simpa using congrArg String.toList hc
  have htake' := congrArg (List.take 11) htake
  rw [List.take_take, List.take_take] at htake'
  rw [hname, hname']
  exact congrArg (fun cs => "mkv" ++ String.ofList cs) htake'

theorem hostIf_ne_peer (ht : endpointTopology e = .ok t) : t.hostIf ≠ peerIf := by
  intro hx
  have hlist := congrArg String.toList hx
  rw [(topology_ok ht).2.1, String.toList_append] at hlist
  simp [peerIf] at hlist

end Names

/-! ## First match -/

/-- A rule can apply to packets that arrive on an interface. -/
def Rule.concerns (r : Rule) (n : String) : Bool := given r.inIf (matchesIf · n)

section Match
variable {jump : String → Option Verdict} {p : Packet}

theorem verdict_of_not_concerns {r : Rule} (h : ¬r.concerns p.inIf) : r.verdict jump p = none := by
  have happlies : r.applies p = false := by
    simp only [Rule.concerns, Bool.not_eq_true] at h
    simp [Rule.applies, h]
  simp [Rule.verdict, happlies]

theorem decideBy_filter (rules : List Rule) :
    decideBy jump p (rules.filter (·.concerns p.inIf)) = decideBy jump p rules := by
  induction rules with
  | nil => rfl
  | cons r rules ih =>
    by_cases hr : r.concerns p.inIf
    · rw [List.filter_cons, if_pos hr]
      simp only [decideBy, List.findSome?_cons] at ih ⊢
      rw [ih]
    · rw [List.filter_cons, if_neg hr, ih]
      simp only [decideBy, List.findSome?_cons, verdict_of_not_concerns hr]

/-- What the first rules of a list decide, the list decides. -/
theorem decideBy_of_isPrefix {rules all : List Rule} (h : rules <+: all) {v : Verdict} (hv : decideBy jump p rules = some v) :
    decideBy jump p all = some v := by
  obtain ⟨rest, rfl⟩ := h
  unfold decideBy at hv ⊢
  rw [List.findSome?_append, hv]
  rfl

end Match

/-- The endpoint's chain, as `Add` completes it, accepts a packet. -/
def LinuxBackend.accepts (b : LinuxBackend) (t : Topology) (p : Packet) : Bool :=
  decideBy (fun _ => none) p (b.chainRules t) == some .accept

/-! ## What the runs keep -/

/-- Of what concerns the endpoint, `FORWARD` holds jumps to its chain only, and
the chain is a beginning of the complete one. -/
structure Confined (b : LinuxBackend) (t : Topology) (policy : Packet → Verdict) (h : Host) : Prop where
  policy : h.policy = policy
  jumps : ∃ k, ((h.chains .filter4 "FORWARD").getD []).filter (·.concerns t.hostIf) = List.replicate k (jumpRule t)
  chain : (h.chains .filter4 t.chain).getD [] <+: b.chainRules t

/-- A packet of the endpoint is forwarded only if its complete chain accepts it,
or the host's own rules do. -/
theorem Confined.accepts {policy : Packet → Verdict} (hh : Confined b t policy h) (ht : endpointTopology e = .ok t)
    {p : Packet} (hp : p.inIf = t.hostIf) (hf : h.forwards p) : b.accepts t p ∨ policy p = .accept := by
  obtain ⟨k, hk⟩ := hh.jumps
  have hdecide : decideBy (h.chainVerdict p) p ((h.chains .filter4 "FORWARD").getD []) =
      if k = 0 then none else h.chainVerdict p t.chain := by
    rw [← decideBy_filter, hp, hk]
    have hjump : (jumpRule t).verdict (h.chainVerdict p) p = h.chainVerdict p t.chain := by
      simp [Rule.verdict, Rule.applies, jumpRule, given, matchesIf_hostIf ht, hp]
    simp [decideBy, List.findSome?_replicate, hjump]
  simp only [Host.forwards, hdecide, beq_iff_eq, hh.policy] at hf
  cases hv : (if k = 0 then none else h.chainVerdict p t.chain) with
  | none =>
    rw [hv] at hf
    exact .inr hf
  | some v =>
    rw [hv] at hf
    obtain rfl : v = .accept := hf
    split at hv
    · cases hv
    · left
      rw [LinuxBackend.accepts, decideBy_of_isPrefix hh.chain hv]
      rfl

section Steps
variable {b : LinuxBackend} {e e' : Endpoint} {t t' : Topology} {policy : Packet → Verdict} {h h' : Host} {c : Command}

/-- What a command does to `FORWARD` does not matter to the endpoint, or is a
jump to its chain. -/
def Forwarding (t : Topology) (c : Command) : Prop :=
  c.chain = some (.filter4, "FORWARD") →
    ∃ r : Rule, (r.concerns t.hostIf → r = jumpRule t) ∧
      (c = .insert .filter4 "FORWARD" r ∨ c = .remove .filter4 "FORWARD" r)

theorem Confined.apply (hh : Confined b t policy h) (hc : h.apply c = .ok h') (hforward : Forwarding t c)
    (hchain : c.chain = some (.filter4, t.chain) → (c.edit (h.chains .filter4 t.chain)).getD [] <+: b.chainRules t) :
    Confined b t policy h' := by
  obtain ⟨k, hk⟩ := hh.jumps
  refine ⟨(policy_apply hc).trans hh.policy, ?_, ?_⟩
  · rw [chains_apply hc]
    split
    · rename_i hF
      cases hold : h.chains .filter4 "FORWARD" with
      | none =>
        obtain ⟨r, -, rfl | rfl⟩ := hforward hF <;> exact ⟨0, rfl⟩
      | some rules =>
        rw [hold] at hk
        obtain ⟨r, hr, rfl | rfl⟩ := hforward hF
        · -- An insertion: the rule is a jump, or it is filtered out.
          by_cases hconcerns : r.concerns t.hostIf
          · obtain rfl := hr hconcerns
            refine ⟨k + 1, ?_⟩
            simp only [Command.edit, Option.map_some, Option.getD_some] at hk ⊢
            rw [List.filter_cons, if_pos hconcerns, hk]
            rfl
          · refine ⟨k, ?_⟩
            simp only [Command.edit, Option.map_some, Option.getD_some] at hk ⊢
            rw [List.filter_cons, if_neg hconcerns, hk]
        · refine ⟨if r = jumpRule t then k - 1 else k, ?_⟩
          simp only [Command.edit, Option.map_some, Option.getD_some] at hk ⊢
          rw [← List.erase_filter, hk, List.erase_replicate]
          by_cases hjump : r = jumpRule t
          · simp [hjump]
          · simp [hjump]
    · exact ⟨k, hk⟩
  · rw [chains_apply hc]
    split
    · rename_i hC
      exact hchain hC
    · exact hh.chain

/-- A command that keeps the endpoint confined, whatever its chain holds. -/
def Gentle (b : LinuxBackend) (t : Topology) (c : Command) : Prop :=
  Forwarding t c ∧ (c.chain = some (.filter4, t.chain) → ∀ rules, (c.edit rules).getD [] <+: b.chainRules t)

theorem Confined.trans {r : Option String} (hh : Confined b t policy h) (hr : Shell.trans E h c r h')
    (hc : Gentle b t c) : Confined b t policy h' := by
  obtain ⟨output, -, rfl⟩ | ⟨-, happly⟩ := shell_cases hr
  · exact hh
  · exact hh.apply happly hc.1 fun hchain => hc.2 hchain _

theorem gentle_of_chain (hforward : c.chain ≠ some (.filter4, "FORWARD")) (hchain : c.chain ≠ some (.filter4, t.chain)) :
    Gentle b t c :=
  ⟨fun hx => absurd hx hforward, fun hx => absurd hx hchain⟩

/-- A rule of another endpoint in `FORWARD` does not concern this one. -/
theorem forwarding_jump (ht' : endpointTopology e' = .ok t') (hsame : t'.hostIf = t.hostIf → t' = t) :
    (jumpRule t').concerns t.hostIf → jumpRule t' = jumpRule t := by
  intro hx
  have hname : t'.hostIf = t.hostIf := by
    simpa [Rule.concerns, jumpRule, given, matchesIf_hostIf ht'] using hx
  rw [hsame hname]

theorem forwarding_return (hegress : ¬matchesIf b.egress t.hostIf) :
    (b.returnRule t').concerns t.hostIf → b.returnRule t' = jumpRule t :=
  fun hx => absurd hx hegress

/-- Creating, emptying or deleting a chain of an endpoint. -/
theorem gentle_chain (ht' : endpointTopology e' = .ok t')
    (hc : c = .newChain .filter4 t'.chain ∨ c = .flush .filter4 t'.chain ∨ c = .deleteChain .filter4 t'.chain) :
    Gentle b t c := by
  have hne : t'.chain ≠ "FORWARD" := chain_ne ht' (by decide)
  obtain rfl | rfl | rfl := hc
  · exact ⟨fun hx => absurd hx (by simp [Command.chain, hne]), fun _ _ => ⟨_, rfl⟩⟩
  · refine ⟨fun hx => absurd hx (by simp [Command.chain, hne]), fun _ rules => ?_⟩
    cases rules <;> exact ⟨_, rfl⟩
  · exact ⟨fun hx => absurd hx (by simp [Command.chain, hne]), fun _ _ => ⟨_, rfl⟩⟩

/-- A rule of `FORWARD` that comes or goes. -/
theorem gentle_forward (ht : endpointTopology e = .ok t) {r : Rule} (hr : r.concerns t.hostIf → r = jumpRule t)
    (hc : c = .insert .filter4 "FORWARD" r ∨ c = .remove .filter4 "FORWARD" r) : Gentle b t c := by
  refine ⟨fun _ => ⟨r, hr, hc⟩, fun hx => ?_⟩
  have hne : t.chain ≠ "FORWARD" := chain_ne ht (by decide)
  obtain rfl | rfl := hc <;> exact absurd (by simpa [Command.chain] using hx.symm) hne

theorem gentle_of_other (ht : endpointTopology e = .ok t) {table : RuleTable} {name : String} (hc : c.chain = some (table, name))
    (hname : (table, name) ≠ (.filter4, "FORWARD")) (hfirst : name.toList.head? ≠ some 'M') : Gentle b t c := by
  refine gentle_of_chain ?_ ?_
  · rw [hc]
    simpa using hname
  · rw [hc]
    rintro ⟨⟩
    exact chain_ne ht hfirst rfl

theorem gentle_guard (ht : endpointTopology e = .ok t) {g : RuleTable × String} (hg : g ∈ guards) (hc : c.chain = some g) :
    Gentle b t c := by
  have hguards : ∀ g ∈ guards, g ≠ (.filter4, "FORWARD") ∧ g.2.toList.head? ≠ some 'M' := by decide
  exact gentle_of_other ht hc (hguards g hg).1 (hguards g hg).2

theorem chain_linkCommands : ∀ c ∈ LinuxBackend.linkCommands e t, c.chain = none := by
  simp [LinuxBackend.linkCommands, Command.chain]

theorem gentle_of_none (hc : c.chain = none) : Gentle b t c := gentle_of_chain (by simp [hc]) (by simp [hc])

variable (ht : endpointTopology e = .ok t) (ht' : endpointTopology e' = .ok t') (hsame : t'.hostIf = t.hostIf → t' = t)
  (hegress : ¬matchesIf b.egress t.hostIf)
include ht ht' hsame hegress

/-- What `Delete` runs is gentle to every endpoint. -/
theorem gentle_deleteCommands : ∀ c ∈ b.deleteCommands t', Gentle b t c := by
  simp only [LinuxBackend.deleteCommands, List.forall_mem_cons]
  refine ⟨gentle_of_other ht rfl (by decide) (by decide), gentle_forward ht (forwarding_return hegress) (.inr rfl),
    gentle_forward ht (forwarding_jump ht' hsame) (.inr rfl), gentle_chain ht' (.inr (.inl rfl)),
    gentle_chain ht' (.inr (.inr rfl)), gentle_of_none rfl, by simp⟩

/-- Taking any endpoint down keeps this one confined. -/
theorem confined_tearDown (hh : Confined b t policy h) :
    Sat (Shell.trans E) (fun h _ => Confined b t policy h) (b.tearDown t') h fun _ h' => Confined b t policy h' := by
  have hgentle := gentle_deleteCommands ht ht' hsame hegress
  refine Sat.bind ((runEach_emits _).sat (J := Confined b t policy) hh ?_ |>.imp (fun _ _ hx => hx.1) (fun _ _ hx => hx.1))
    fun failures h₁ hh₁ => ⟨hh₁, fun output h₂ h₂t => ?_⟩
  · exact fun h c r h' hh hc hr => hh.trans hr (hgentle c hc)
  have hh₂ : Confined b t policy h₂ := hh₁.trans h₂t (gentle_of_none rfl)
  dsimp only [Prog.bind]
  split
  · exact hh₂
  · refine Sat.bind ((runEach_emits _).sat (J := Confined b t policy) hh₂ ?_ |>.imp (fun _ _ hx => hx.1) (fun _ _ hx => hx.1))
      fun rest h₃ hh₃ => hh₃
    intro h c r h' hh hc hr
    obtain ⟨g, hg, rfl⟩ := List.mem_map.1 hc
    apply hh.trans hr
    exact gentle_guard ht hg rfl

/-- The endpoint's chain as it grows. -/
theorem confined_appends {ds rs : List Rule} (hrules : b.chainRules t' = ds ++ rs) (hh : Confined b t policy h)
    (hds : t' = t → h.chains .filter4 t.chain = some ds) :
    Sat (Shell.trans E) (fun h _ => Confined b t policy h) (runAll (rs.map (.append .filter4 t'.chain))) h
      fun _ h' => Confined b t policy h' := by
  -- `ds` is in the chain, `rs` is still to come.
  induction rs generalizing h ds with
  | nil => exact hh
  | cons rule rs ih =>
    refine ⟨hh, fun r h' hr => ?_⟩
    have hne : t'.chain ≠ "FORWARD" := chain_ne ht' (by decide)
    obtain ⟨output, rfl, rfl⟩ | ⟨rfl, happly⟩ := shell_cases hr
    · exact hh
    have hrules' : b.chainRules t' = ds ++ [rule] ++ rs := by rw [hrules, List.append_assoc]; rfl
    refine ih hrules' (hh.apply happly ?_ ?_) ?_
    · exact fun hx => absurd hx (by simp [Command.chain, hne])
    · intro hx
      have hchain : t'.chain = t.chain := by simpa [Command.chain] using hx
      obtain rfl := hsame (hostIf_of_chain ht ht' hchain)
      rw [hds rfl]
      exact ⟨rs, hrules'.symm⟩
    · rintro rfl
      rw [chains_apply happly]
      simp [Command.chain, Command.edit, hds]

/-- Building any endpoint keeps this one confined. -/
theorem confined_addCommands (hh : Confined b t policy h) :
    Sat (Shell.trans E) (fun h _ => Confined b t policy h) (runAll (b.addCommands e' t')) h
      fun _ h' => Confined b t policy h' := by
  unfold LinuxBackend.addCommands
  refine sat_runAll_append (sat_runAll_append ?_)
  -- Up to the chain nothing concerns `FORWARD`.
  refine (runAll_emits _).sat (J := Confined b t policy) hh ?_ |>.imp (fun _ _ hx => hx.1)
    fun _ h₁ hx => ⟨fun _ => ⟨hx.1, fun r h₂ h₂t => ?_⟩, fun hr => ⟨fun hx => absurd hx hr, fun _ => hx.1⟩⟩
  · intro h c r h' hh hc hr
    apply hh.trans hr
    simp only [List.mem_append, List.mem_map] at hc
    obtain (hc | ⟨g, hg, rfl⟩) | hc := hc
    · exact gentle_of_none (by simp_all [Command.chain])
    · exact gentle_guard ht hg rfl
    · exact gentle_of_none (chain_linkCommands c hc)
  have hh₂ : Confined b t policy h₂ := hx.1.trans h₂t (gentle_chain ht' (.inl rfl))
  cases r with
  | some output => exact ⟨by simp, fun _ => hh₂⟩
  | none =>
    have hrules : b.chainRules t' = [] ++ b.chainRules t' := rfl
    refine (confined_appends ht ht' hsame hegress hrules hh₂ ?_).mono fun r h₃ hh₃ => ⟨fun _ => ?_, fun _ => hh₃⟩
    · rintro rfl
      obtain ⟨output, hx, -⟩ | ⟨-, happly⟩ := shell_cases h₂t
      · cases hx
      · rw [chains_apply happly]
        simp [Command.chain, Command.edit]
    · refine (runAll_emits _).sat (J := Confined b t policy) hh₃ ?_ |>.imp (fun _ _ hx => hx.1) (fun _ _ hx => hx.1)
      intro h c r h' hh hc hr
      apply hh.trans hr
      simp only [List.mem_cons, List.not_mem_nil, or_false] at hc
      obtain rfl | rfl | rfl := hc
      · exact gentle_forward ht (forwarding_jump ht' hsame) (.inl rfl)
      · exact gentle_forward ht (forwarding_return hegress) (.inl rfl)
      · exact gentle_of_other ht rfl (by decide) (by decide)

end Steps

/-- A turn of the backend whose endpoint, if it has the interface of `t`, is that
endpoint. -/
def Distinct (b : LinuxBackend) (t : Topology) (x : BackendTurn) : Prop :=
  x.backend = b ∧ ∀ t', endpointTopology x.endpoint = .ok t' → t'.hostIf = t.hostIf → t' = t

theorem confined_turn {policy : Packet → Verdict} {x : BackendTurn} (ht : endpointTopology e = .ok t)
    (hegress : ¬matchesIf b.egress t.hostIf) (hx : Distinct b t x) (hh : Confined b t policy h)
    : Confined b t policy (x.after h) := by
  obtain ⟨rfl, hsame⟩ := hx
  have hdelete : ∀ h, Confined x.backend t policy h → Sat (Shell.trans fun _ _ _ => True)
      (fun h _ => Confined x.backend t policy h) (x.backend.delete x.endpoint) h
      fun _ h' => Confined x.backend t policy h' := by
    intro h hh
    unfold LinuxBackend.delete
    split
    · exact hh
    · rename_i t' ht'
      exact confined_tearDown ht ht' (hsame t' ht') hegress hh
  have hsat : Sat (Shell.trans fun _ _ _ => True) (fun h _ => Confined x.backend t policy h) x.prog h
      fun _ h' => Confined x.backend t policy h' := by
    unfold BackendTurn.prog
    split
    · unfold LinuxBackend.add
      split
      · exact hh
      split
      · exact hh
      rename_i t' ht'
      split
      · exact hh
      refine (confined_addCommands ht ht' (hsame t' ht') hegress hh).bind fun r h₁ hh₁ => ?_
      cases r with
      | none => exact hh₁
      | some output => exact (hdelete h₁ hh₁).bind fun _ _ hh₂ => hh₂
    · exact hdelete h hh
  exact hsat.exec_world (fun _ _ => id) (fun _ _ => id) x.answers (meets_true Shell _ _ _)

/-! ## Before the jump -/

/-- Run commands that all work. -/
def Host.applyAll (h : Host) (cs : List Command) : Except String Host := cs.foldlM Host.apply h

theorem ok_bind {α β : Type} (a : α) (f : α → Except String β) : (Except.ok a >>= f) = f a := rfl

/-- A list of commands stopped after those that have worked. -/
theorem exec_runAll {α : Type} {cs ds : List Command} {h' : Host} {f : Option String → Cmds α}
    (hcs : h.applyAll cs = .ok h') (hds : ds ≠ []) :
    exec Shell (runAll (cs ++ ds) >>= f) h (List.replicate cs.length none) = (h', none) := by
  induction cs generalizing h with
  | nil =>
    cases hcs
    cases ds with
    | nil => exact absurd rfl hds
    | cons d ds => rfl
  | cons c cs ih =>
    cases happly : h.apply c with
    | error output =>
      rw [Host.applyAll, List.foldlM_cons, happly] at hcs
      cases hcs
    | ok h₁ =>
      rw [Host.applyAll, List.foldlM_cons, happly] at hcs
      have hstep : shellStep h c none = (h₁, none) := by simp only [shellStep, happly]
      simp only [List.cons_append, runAll, runner, Prog.perform, Prog.call_bind, List.length_cons, List.replicate_succ, exec,
        hstep]
      exact ih hcs

/-- A host on which the endpoint can be built, and that has nothing of it yet. -/
structure Ready (b : LinuxBackend) (e : Endpoint) (t : Topology) (h : Host) : Prop where
  egress : b.egress ≠ ""
  target : netnsTarget e.netNS = none
  guards : ∀ g ∈ guards, (h.chains g.1 g.2).isSome
  forward : ∀ r ∈ (h.chains .filter4 "FORWARD").getD [], ¬r.concerns t.hostIf
  chain : h.chains .filter4 t.chain = none
  link : h.own.links t.hostIf = none
  peer : h.own.links peerIf = none
  inside : (h.inside e.netNS).links peerIf = none
  address : ∀ a ∈ h.own.addresses, a.2 ≠ t.hostIf

/-- `Add` brings the link up with its seventh command; `FORWARD` is still as it
was. -/
theorem linkUp_of_ready (ht : endpointTopology e = .ok t) (hr : Ready b e t h) :
    ∃ h', h.applyAll ((b.addCommands e t).take 7) = .ok h' ∧ h'.up t.hostIf ∧ h'.policy = h.policy ∧
      h'.chains .filter4 "FORWARD" = h.chains .filter4 "FORWARD" := by
  have hne := hostIf_ne_peer ht
  obtain ⟨i4, hi4⟩ := Option.isSome_iff_exists.1 (hr.guards (.filter4, "INPUT") (by decide))
  obtain ⟨i6, hi6⟩ := Option.isSome_iff_exists.1 (hr.guards (.filter6, "INPUT") (by decide))
  obtain ⟨f6, hf6⟩ := Option.isSome_iff_exists.1 (hr.guards (.filter6, "FORWARD") (by decide))
  simp only at hi4 hi6 hf6
  have haddress : (t.transitHost ++ "/30", t.hostIf) ∉ h.own.addresses := fun hx => hr.address _ hx rfl
  simp [LinuxBackend.addCommands, LinuxBackend.linkCommands, guards, Host.applyAll, List.foldlM, Host.apply, hr.link, hr.peer,
    Host.onChain, Chains.set, hi4, hi6, hf6, Host.targetExists, dropRule, Except.map, ok_bind, hne, Ne.symm hne,
    hr.inside, Host.setSpace, Host.onDevice, Host.space, Space.dropLinks, Option.filter, Space.setLink, haddress, Host.up,
    pure, Except.pure]

/-- No run forwards what an endpoint's complete chain refuses, exactly if the
host's own rules and policy do not. -/
theorem isolated_iff_policy {b : LinuxBackend} {e : Endpoint} {t : Topology} {h : Host} (ht : endpointTopology e = .ok t)
    (hegress : ¬matchesIf b.egress t.hostIf) (hready : Ready b e t h) :
    (∀ turns : List BackendTurn, (∀ x ∈ turns, Distinct b t x) → (run BackendTurn.after h turns).up t.hostIf →
      ∀ p : Packet, p.inIf = t.hostIf → (run BackendTurn.after h turns).forwards p → b.accepts t p) ↔
    ∀ p : Packet, p.inIf = t.hostIf → h.policy p = .accept → b.accepts t p := by
  constructor
  · intro hrun p hp hpolicy
    -- Stop `Add` right after the link is up.
    obtain ⟨h', happly, hup, hpol, hforward⟩ := linkUp_of_ready ht hready
    let stopped : BackendTurn := ⟨b, e, true, List.replicate 7 none⟩
    have hafter : stopped.after h = h' := by
      have hadd : b.add e = runAll (b.addCommands e t) >>= b.rollBack e := by
        unfold LinuxBackend.add
        rw [if_neg hready.egress, ht]
        dsimp only
        rw [hready.target]
      have hrest : (b.addCommands e t).drop 7 ≠ [] := by
        simp [LinuxBackend.addCommands, LinuxBackend.linkCommands, guards]
      have hexec := exec_runAll (f := b.rollBack e) happly hrest
      rw [List.take_append_drop, ← hadd] at hexec
      exact congrArg Prod.fst hexec
    have hdistinct : ∀ x ∈ [stopped], Distinct b t x := by
      intro x hx
      obtain rfl := List.mem_singleton.1 hx
      refine ⟨rfl, fun t' ht' _ => ?_⟩
      rw [ht] at ht'
      exact (Except.ok.inj ht').symm
    refine hrun [stopped] hdistinct ?_ p hp ?_
    · rw [run_cons, hafter]
      exact hup
    · rw [run_cons, hafter, run_nil]
      -- None of the rules there concerns the endpoint.
      have hnone : decideBy (h'.chainVerdict p) p ((h'.chains .filter4 "FORWARD").getD []) = none := by
        rw [← decideBy_filter, hp, hforward, List.filter_eq_nil_iff.2 hready.forward]
        rfl
      rw [Host.forwards, hnone, hpol]
      simpa using hpolicy
  · intro hpolicy turns hturns _ p hp hf
    have hinit : Confined b t h.policy h := by
      refine ⟨rfl, ⟨0, ?_⟩, ?_⟩
      · exact List.filter_eq_nil_iff.2 hready.forward
      · rw [hready.chain]
        exact ⟨_, rfl⟩
    have hconf : Confined b t h.policy (run BackendTurn.after h turns) :=
      (conforms_of_mem hturns).inv hinit fun h x hh hx => confined_turn ht hegress hx hh
    obtain hacc | hacc := hconf.accepts ht hp hf
    · exact hacc
    · exact hpolicy p hp hacc

def firstTopology : Topology :=
  { hostIf := "mkv00000000000", chain := "MK-000000000000", guestNetwork := "10.0.0.0/30", transitHost := "100.64.0.1",
    transitPeer := "100.64.0.2", child := 10 * 2 ^ 24 + 2 }

/-- A packet of that endpoint to the interface of another. -/
def sidewaysPacket : Packet :=
  { inIf := "mkv00000000000", outIf := "mkv11111111111", src := 10 * 2 ^ 24 + 2, dst := 10 * 2 ^ 24 + 6 }

/-- On a host that drops what arrives from endpoints by itself the condition
holds. -/
theorem isolated_behind_drop :
    let h : Host := { bareHost with policy := fun p => if matchesIf "mkv+" p.inIf then .refuse else .accept }
    ∀ turns : List BackendTurn, (∀ x ∈ turns, Distinct ⟨"uplink"⟩ firstTopology x) →
      (run BackendTurn.after h turns).up firstTopology.hostIf → ∀ p : Packet, p.inIf = firstTopology.hostIf →
        (run BackendTurn.after h turns).forwards p → LinuxBackend.accepts ⟨"uplink"⟩ firstTopology p := by
  intro h
  refine (isolated_iff_policy (e := firstEndpoint) (by decide +kernel) (by decide) ?_).2 ?_
  · refine ⟨by decide, by decide +kernel, by decide, by decide, by decide, by decide, by decide, by decide, by decide⟩
  · intro p hp hpolicy
    have hmatch : matchesIf "mkv+" p.inIf := by
      rw [hp]
      decide
    simp [h, hmatch] at hpolicy

/-- On a host that forwards by default, an endpoint whose link has just been
activated reaches another endpoint. -/
theorem forwards_before_jump :
    endpointTopology firstEndpoint = .ok firstTopology ∧
      (run BackendTurn.after bareHost [firstAdd 7]).up firstTopology.hostIf ∧
      sidewaysPacket.inIf = firstTopology.hostIf ∧
      (run BackendTurn.after bareHost [firstAdd 7]).forwards sidewaysPacket ∧
      ¬LinuxBackend.accepts ⟨"uplink"⟩ firstTopology sidewaysPacket := by
  refine ⟨by decide +kernel, by decide +kernel, rfl, by decide +kernel, by decide +kernel⟩

end Multikernel.Network
