import Multikernel.Lib.Runs
/-!
# The transport of a task's init process

`Start` of the init process (`tasks_create.go`) attaches the network device,
starts the agent relay and connects to the guest agent (`connectAgent` in
`agent_transport.go`), and `Delete` (`tasks_process.go`) takes them down again.
The service has one field for each of the three. Any step may fail; `Start` may
then be called again, since the process is still CREATED. A relay may exit, and
whoever calls the guest puts a new one in its place (`replaceExitedRelay`).

`connectAgent` takes down what it has set up if it fails itself. The steps of
`Start` that come after it do not, and the next `Start` puts a second transport
into the fields; nor does it look whether the relay was stopped
(`start_leaks`). If a device is only ever attached while the fields hold nothing
live, every transport is in its field, and a `Delete` that succeeds leaves none
(`transports_owned`). For that it is enough that the device has one descriptor
at a time, as a TUN device with a single queue does, and that relays can be
killed.

`Start` holds the service's lock all the time and `Delete` comes after it; a step
here is one call out of the service.
-/

namespace Multikernel.Transport
open Lib

/-! ## A field and what it is for -/

/-- A field of the service, and the relays (devices, clients) that are live,
whether the field holds them or not. -/
structure Slot where
  field : Option Nat := none
  live : List Nat := []
  deriving DecidableEq, Repr

/-- A new one is put into the field. -/
def Slot.put (s : Slot) (n : Nat) : Slot := ⟨some n, n :: s.live⟩

/-- The one in the field is closed, and the field cleared. -/
def Slot.close (s : Slot) : Slot := ⟨none, s.live.filter fun n => s.field ≠ some n⟩

def Slot.exit (s : Slot) (n : Nat) : Slot := { s with live := s.live.filter (· ≠ n) }

/-- The field holds nothing that is live. -/
def Slot.Idle (s : Slot) : Prop := ∀ n ∈ s.field, n ∉ s.live

/-- At most one is live, and it is in the field. -/
structure Slot.Owned (s : Slot) : Prop where
  one : s.live.length ≤ 1
  field : ∀ n ∈ s.live, s.field = some n

/-! ## The service -/

inductive Status where
  | created
  | running
  | stopped
  | deleted
  deriving DecidableEq, Repr

/-- Where a call is. `killing` and `unlinking` are the halves of `stopRelay`, for
`connectAgent` or for `Delete`. -/
inductive Phase where
  | idle
  | attaching
  | persisting
  | launching
  | sandbox
  | capturing
  | dialling
  | negotiating
  | configuring
  | failing
  | killing (deleting : Bool)
  | unlinking (deleting : Bool)
  | creating
  | opening
  | starting
  | deleting
  | stoppingNetwork
  | quiescing
  | releasing (stopped : Bool)
  deriving DecidableEq, Repr

structure Service where
  relay : Slot := {}
  netDevice : Slot := {}
  agent : Slot := {}
  relaySocket : Bool := false
  relayOwner : Bool := false
  pump : Bool := false
  status : Status := .created
  phase : Phase := .idle
  next : Nat := 0
  deriving DecidableEq, Repr

/-- `stopNetwork`: the pump, the guest's network, the device. Whatever fails, the
descriptor is closed. -/
def Service.stopNetwork (s : Service) : Service := { s with pump := false, netDevice := s.netDevice.close }

/-- A `Start` that has got to `connectAgent`: whether the stale socket could be
removed, and whether there is an endpoint. -/
def Service.start (s : Service) (removed bound : Bool) : Service :=
  if s.phase = .idle ∧ s.status = .created then
    if ¬removed then { s with relaySocket := false }
    else if ¬bound then { s with relaySocket := true }
    else { s with relaySocket := true, phase := .attaching }
  else s

/-- A `Delete` that has got past its checks. -/
def Service.delete (s : Service) : Service :=
  if s.phase = .idle ∧ (s.status = .created ∨ s.status = .stopped) then
    { s with phase := if s.agent.field.isSome then .deleting else .killing true }
  else s

/-- After the relay: the end of `connectAgent`, or the rest of `Delete`. -/
def afterRelay (deleting stopped : Bool) : Phase := if deleting then .releasing stopped else .idle

/-- The next step of the call under way works or fails. -/
def Service.advance (s : Service) (ok : Bool) : Service :=
  match s.phase with
  | .idle => s
  | .attaching =>
    if ok then { s with netDevice := s.netDevice.put s.next, next := s.next + 1, phase := .persisting }
    else { s with phase := .idle }
  | .persisting => { s with phase := if ok then .launching else .failing }
  | .launching =>
    -- the field has the command also if it does not start
    if ok then { s with relay := s.relay.put s.next, next := s.next + 1, phase := .sandbox }
    else { s with relay := ⟨some s.next, s.relay.live⟩, next := s.next + 1, phase := .failing }
  | .sandbox => { s with phase := if ¬ok then .failing else if s.relayOwner then .dialling else .capturing }
  | .capturing => if ok then { s with relayOwner := true, phase := .dialling } else { s with phase := .failing }
  | .dialling =>
    if ok then { s with agent := s.agent.put s.next, next := s.next + 1, phase := .negotiating }
    else { s with phase := .failing }
  | .negotiating =>
    if ok then { s with phase := .configuring } else { s with agent := s.agent.close, phase := .failing }
  | .configuring =>
    if ok then { s with pump := true, phase := .creating } else { s with agent := s.agent.close, phase := .failing }
  | .failing => { s.stopNetwork with phase := .killing false }
  | .killing deleting =>
    if ok ∨ s.relay.field = none then { s with relay := s.relay.close, phase := .unlinking deleting }
    else { s with phase := afterRelay deleting false }
  | .unlinking deleting =>
    if ¬s.relaySocket then { s with phase := afterRelay deleting true }
    else if ok then { s with relayOwner := false, relaySocket := false, phase := afterRelay deleting true }
    else { s with phase := afterRelay deleting false }
  | .creating => { s with phase := if ok then .opening else .idle }
  | .opening => { s with phase := if ok then .starting else .idle }
  -- `StartProcess` failed and the guest still says CREATED, or the process counts as started
  | .starting => { s with phase := .idle, status := if ok then .running else s.status }
  | .deleting => { s with phase := if ok then .stoppingNetwork else .idle }
  | .stoppingNetwork => { s.stopNetwork with phase := .quiescing }
  | .quiescing => { s with agent := s.agent.close, phase := .killing true }
  | .releasing stopped => { s with phase := .idle, status := if ok ∧ stopped then .deleted else s.status }

/-- How `replaceExitedRelay` ends, once it has found the relay dead. -/
inductive Replacement where
  | reapFailed
  | unlinkFailed
  | launchFailed
  | captured
  | abandoned (killed : Bool)
  deriving DecidableEq, Repr

/-- A call through the agent finds that the relay has exited. -/
def Service.replace (s : Service) (r : Replacement) : Service :=
  if s.agent.field.isSome ∧ s.relay.field.isSome ∧ s.relay.live.all (fun n => s.relay.field ≠ some n) ∧ s.relaySocket then
    match r with
    | .reapFailed => s
    | .unlinkFailed => { s with relay := ⟨none, s.relay.live⟩ }
    | .launchFailed => { s with relay := ⟨none, s.relay.live⟩, relayOwner := false }
    | .captured => { s with relay := s.relay.put s.next, next := s.next + 1, relayOwner := true }
    | .abandoned killed =>
      { s with relay := ⟨none, if killed then s.relay.live else s.next :: s.relay.live⟩, next := s.next + 1, relayOwner := false }
  else s

inductive Event where
  | start (removed bound : Bool)
  | delete
  | advance (ok : Bool)
  | exit (n : Nat)
  | replace (r : Replacement)
  | stopped
  deriving DecidableEq, Repr

def Service.step (s : Service) : Event → Service
  | .start removed bound => s.start removed bound
  | .delete => s.delete
  | .advance ok => s.advance ok
  | .exit n => { s with relay := s.relay.exit n }
  | .replace r => s.replace r
  | .stopped => if s.status = .running then { s with status := .stopped } else s

/-! ## The rules -/

/-- A device is attached only while no field holds anything live, and a relay
that is given up is killed. -/
def Clear (s : Service) : Event → Prop
  | .advance ok => s.phase = .attaching → ok → s.relay.Idle ∧ s.netDevice.Idle ∧ s.agent.Idle
  | .replace r => r ≠ .abandoned false
  | _ => True

/-- The device has one descriptor at a time. -/
def Exclusive (s : Service) : Event → Prop
  | .advance ok => s.phase = .attaching → ok → s.netDevice.live = []
  | _ => True

/-- Relays can be killed. -/
def Kills (s : Service) : Event → Prop
  | .advance ok => ∀ d, s.phase = .killing d → s.relay.field = none ∨ ok
  | .replace r => r ≠ .abandoned false
  | _ => True

instance (s : Slot) : Decidable s.Idle := inferInstanceAs (Decidable (∀ n ∈ s.field, n ∉ s.live))

instance (s : Service) (e : Event) : Decidable (Clear s e) :=
  match e with
  | .advance ok =>
    inferInstanceAs (Decidable (s.phase = .attaching → ok → s.relay.Idle ∧ s.netDevice.Idle ∧ s.agent.Idle))
  | .replace r => inferInstanceAs (Decidable (r ≠ .abandoned false))
  | .start _ _ | .delete | .exit _ | .stopped => .isTrue trivial

instance (s : Service) (e : Event) : Decidable (Exclusive s e) :=
  match e with
  | .advance ok => inferInstanceAs (Decidable (s.phase = .attaching → ok → s.netDevice.live = []))
  | .start _ _ | .delete | .exit _ | .replace _ | .stopped => .isTrue trivial

/-- Every transport is in its field, and none is left after a deletion. -/
structure Owned (s : Service) : Prop where
  relay : s.relay.Owned
  netDevice : s.netDevice.Owned
  agent : s.agent.Owned
  deleted : s.status = .deleted → s.relay.live = [] ∧ s.netDevice.live = [] ∧ s.agent.live = []

/-! ## Leaks -/

def connect : List Event :=
  [.start true true, .advance true, .advance true, .advance true, .advance true, .advance true, .advance true, .advance true,
    .advance true]

/-- `Start` fails after it has connected, and is called again. -/
def retried : List Event := connect ++ [.advance false] ++ connect

/-- The sandbox does not start, the relay is not killed, and `Start` is called
again. The device is attached while no descriptor is open. -/
def unkilled : List Event :=
  [.start true true, .advance true, .advance true, .advance true, .advance false, .advance true, .advance false,
    .start true true, .advance true, .advance true, .advance true]

theorem start_leaks :
    ((run Service.step {} retried).netDevice.live = [3, 0] ∧ (run Service.step {} retried).relay.live = [4, 1]
      ∧ (run Service.step {} retried).agent.live = [5, 2] ∧ (run Service.step {} retried).relay.field = some 4)
    ∧ Conforms Service.step Exclusive {} unkilled ∧ (run Service.step {} unkilled).relay = ⟨some 3, [3, 1]⟩ := by
  decide +kernel

/-! ## The invariant -/

section Slots
variable {s : Slot} {n : Nat}

/-- What is in the field is live, and nothing else is. -/
def Slot.Tight (s : Slot) : Prop := s = {} ∨ ∃ n, s = ⟨some n, [n]⟩

theorem Slot.owned_nil {field : Option Nat} : Slot.Owned ⟨field, []⟩ := ⟨Nat.zero_le _, nofun⟩

theorem Slot.Owned.nil_or (h : s.Owned) : s.live = [] ∨ ∃ n, s = ⟨some n, [n]⟩ := by
  obtain ⟨field, live⟩ := s
  obtain ⟨hone, hfield⟩ := h
  match live with
  | [] => exact .inl rfl
  | [n] => exact .inr ⟨n, by rw [show field = some n from hfield n List.mem_cons_self]⟩
  | _ :: _ :: _ => exact absurd hone (by simp)

theorem Slot.Owned.idle (h : s.Owned) (hidle : s.Idle) : s.live = [] := by
  rcases h.nil_or with hnil | ⟨n, rfl⟩
  · exact hnil
  · exact absurd List.mem_cons_self (hidle n rfl)

theorem Slot.Tight.owned (h : s.Tight) : s.Owned := by
  rcases h with rfl | ⟨n, rfl⟩
  · exact Slot.owned_nil
  · exact ⟨Nat.le_refl _, fun m hm => by rw [List.mem_singleton.1 hm]⟩

theorem Slot.Tight.eq_of_idle (h : s.Tight) (hidle : s.Idle) : s = {} := by
  rcases h with rfl | ⟨n, rfl⟩
  · rfl
  · exact absurd List.mem_cons_self (hidle n rfl)

theorem Slot.Tight.close (h : s.Tight) : s.close = {} := by
  rcases h with rfl | ⟨n, rfl⟩
  · rfl
  · simp [Slot.close]

theorem Slot.Owned.close (h : s.Owned) : s.close = {} := by
  rcases h.nil_or with hnil | ⟨n, rfl⟩
  · simp [Slot.close, hnil]
  · simp [Slot.close]

theorem Slot.tight_put (n : Nat) : (Slot.put {} n).Tight := .inr ⟨n, rfl⟩

theorem Slot.owned_put (h : s.live = []) (n : Nat) : (s.put n).Owned := by
  unfold Slot.put
  rw [h]
  exact Slot.Tight.owned (.inr ⟨n, rfl⟩)

theorem Slot.Owned.exit (h : s.Owned) (n : Nat) : (s.exit n).Owned where
  one := Nat.le_trans (List.length_filter_le _ _) h.one
  field := fun m hm => h.field m (List.mem_filter.1 hm).1

theorem Slot.Tight.field_isSome (h : s.Tight) : s.field.isSome ↔ s ≠ {} := by
  rcases h with rfl | ⟨n, rfl⟩
  · simp
  · simp

end Slots

/-- What holds at a step of a call. -/
def Facts (s : Service) : Prop :=
  match s.phase with
  | .idle | .attaching => s.agent = {} → s.netDevice = {}
  | .persisting | .launching => s.agent = {} ∧ s.relay.live = []
  | .sandbox | .capturing | .dialling | .failing => s.agent = {}
  | .negotiating | .configuring | .creating | .opening | .starting | .deleting | .stoppingNetwork => s.agent ≠ {}
  | .quiescing => s.netDevice = {}
  | .killing _ => s.agent = {} ∧ s.netDevice = {}
  | .unlinking _ => s.agent = {} ∧ s.netDevice = {} ∧ s.relay.live = []
  | .releasing stopped => s.agent = {} ∧ s.netDevice = {} ∧ (stopped → s.relay.live = [])

structure Good (s : Service) : Prop where
  relay : s.relay.Owned
  netDevice : s.netDevice.Tight
  agent : s.agent.Tight
  facts : Facts s
  deleted : s.status = .deleted → s.phase = .idle ∧ s.relay.live = [] ∧ s.agent = {} ∧ s.netDevice = {}

section Good
variable {s : Service}

theorem Good.owned (h : Good s) : Owned s where
  relay := h.relay
  netDevice := h.netDevice.owned
  agent := h.agent.owned
  deleted := by
    intro hdeleted
    obtain ⟨-, hrelay, hagent, hdevice⟩ := h.deleted hdeleted
    rw [hagent, hdevice]
    exact ⟨hrelay, rfl, rfl⟩

theorem Good.busy (h : Good s) (hphase : s.phase ≠ .idle) : s.status ≠ .deleted := fun hdeleted =>
  hphase (h.deleted hdeleted).1

theorem good_init : Good {} where
  relay := Slot.owned_nil
  netDevice := .inl rfl
  agent := .inl rfl
  facts := fun _ => rfl
  deleted := nofun

theorem Good.start (h : Good s) (removed bound : Bool) : Good (s.start removed bound) := by
  unfold Service.start
  split
  · rename_i hidle
    have hfacts : s.agent = {} → s.netDevice = {} := by
      have hf := h.facts
      rw [Facts, hidle.1] at hf
      exact hf
    have hcreated : s.status ≠ .deleted := by
      rw [hidle.2]
      exact nofun
    split
    · exact ⟨h.relay, h.netDevice, h.agent, h.facts, h.deleted⟩
    split
    · exact ⟨h.relay, h.netDevice, h.agent, h.facts, h.deleted⟩
    · exact ⟨h.relay, h.netDevice, h.agent, hfacts, fun hdeleted => absurd hdeleted hcreated⟩
  · exact h

theorem Good.delete (h : Good s) : Good s.delete := by
  unfold Service.delete
  split
  · rename_i hidle
    have hfacts : s.agent = {} → s.netDevice = {} := by
      have hf := h.facts
      rw [Facts, hidle.1] at hf
      exact hf
    have hlive : s.status ≠ .deleted := by
      rcases hidle.2 with hstatus | hstatus <;> rw [hstatus] <;> exact nofun
    refine ⟨h.relay, h.netDevice, h.agent, ?_, fun hdeleted => absurd hdeleted hlive⟩
    by_cases hagent : s.agent.field.isSome
    · simp only [hagent, if_true]
      exact h.agent.field_isSome.1 hagent
    · simp only [hagent, Bool.false_eq_true, if_false]
      have hnone : s.agent = {} := by
        by_contra hne
        exact hagent (h.agent.field_isSome.2 hne)
      exact ⟨hnone, hfacts hnone⟩
  · exact h

/-- While there is a client, nothing is said of the relay. -/
theorem facts_relay (h : Facts s) (hagent : s.agent ≠ {}) (relay : Slot) (owner : Bool) (next : Nat) :
    Facts { s with relay := relay, relayOwner := owner, next := next } := by
  unfold Facts at h ⊢
  cases hphase : s.phase <;> rw [hphase] at h
  case persisting => exact absurd h.1 hagent
  case launching => exact absurd h.1 hagent
  case unlinking => exact absurd h.1 hagent
  case releasing => exact absurd h.1 hagent
  all_goals exact h

theorem Good.replace (h : Good s) (r : Replacement) (hr : r ≠ .abandoned false) : Good (s.replace r) := by
  unfold Service.replace
  split
  · rename_i hdead
    obtain ⟨hagent, -, hlive, -⟩ := hdead
    rw [h.agent.field_isSome] at hagent
    -- the field's relay is dead, so none is live
    have hnil : s.relay.live = [] := by
      rcases h.relay.nil_or with hnil | ⟨n, heq⟩
      · exact hnil
      · rw [heq] at hlive
        simp at hlive
    have hchanged : ∀ relay owner next, Slot.Owned relay →
        Good { s with relay := relay, relayOwner := owner, next := next } := fun relay owner next hrelay =>
      ⟨hrelay, h.netDevice, h.agent, facts_relay h.facts hagent relay owner next,
        fun hdeleted => absurd (h.deleted hdeleted).2.2.1 hagent⟩
    cases r with
    | reapFailed => exact h
    | unlinkFailed | launchFailed =>
      apply hchanged
      rw [hnil]
      exact Slot.owned_nil
    | captured => exact hchanged _ _ _ (Slot.owned_put hnil s.next)
    | abandoned killed =>
      cases killed with
      | false => exact absurd rfl hr
      | true =>
        apply hchanged
        simp only [hnil, if_true]
        exact Slot.owned_nil
  · exact h

theorem Good.exit (h : Good s) (n : Nat) : Good { s with relay := s.relay.exit n } := by
  have hnil : s.relay.live = [] → (s.relay.exit n).live = [] := by
    intro hnil
    simp [Slot.exit, hnil]
  refine ⟨h.relay.exit n, h.netDevice, h.agent, ?_, ?_⟩
  · have hf := h.facts
    unfold Facts at hf ⊢
    cases hphase : s.phase <;> rw [hphase] at hf
    case persisting => exact ⟨hf.1, hnil hf.2⟩
    case launching => exact ⟨hf.1, hnil hf.2⟩
    case unlinking => exact ⟨hf.1, hf.2.1, hnil hf.2.2⟩
    case releasing => exact ⟨hf.1, hf.2.1, fun hstopped => hnil (hf.2.2 hstopped)⟩
    all_goals exact hf
  · intro hdeleted
    obtain ⟨hphase, hrelay, hrest⟩ := h.deleted hdeleted
    exact ⟨hphase, hnil hrelay, hrest⟩

/-- A call goes on with everything as it is. -/
theorem Good.turn (h : Good s) (hlive : s.status ≠ .deleted) {phase : Phase} (hf : Facts { s with phase := phase }) :
    Good { s with phase := phase } :=
  ⟨h.relay, h.netDevice, h.agent, hf, fun hdel => absurd hdel hlive⟩

theorem Good.advance (h : Good s) (ok : Bool)
    (hclear : s.phase = .attaching → ok → s.relay.Idle ∧ s.netDevice.Idle ∧ s.agent.Idle) : Good (s.advance ok) := by
  have hf := h.facts
  have hbusy := h.busy
  unfold Service.advance
  unfold Facts at hf
  cases hphase : s.phase <;> rw [hphase] at hf
  case idle => exact h
  all_goals
    have hlive : s.status ≠ .deleted := hbusy (by rw [hphase]; exact nofun)
    simp only
  case attaching =>
    split
    · rename_i hok
      obtain ⟨hrelay, hdevice, hagent⟩ := hclear hphase hok
      refine ⟨h.relay, ?_, h.agent, ⟨h.agent.eq_of_idle hagent, h.relay.idle hrelay⟩, fun hdel => absurd hdel hlive⟩
      rw [h.netDevice.eq_of_idle hdevice]
      exact Slot.tight_put s.next
    · exact h.turn hlive hf
  case persisting =>
    cases ok with
    | true => exact h.turn hlive hf
    | false => exact h.turn hlive hf.1
  case launching =>
    split
    · exact ⟨Slot.owned_put hf.2 s.next, h.netDevice, h.agent, hf.1, fun hdel => absurd hdel hlive⟩
    · refine ⟨?_, h.netDevice, h.agent, hf.1, fun hdel => absurd hdel hlive⟩
      rw [hf.2]
      exact Slot.owned_nil
  case sandbox =>
    apply h.turn hlive
    cases ok with
    | false => exact hf
    | true =>
      cases howner : s.relayOwner with
      | true | false => exact hf
  case capturing =>
    split
    · exact ⟨h.relay, h.netDevice, h.agent, hf, fun hdel => absurd hdel hlive⟩
    · exact h.turn hlive hf
  case dialling =>
    split
    · refine ⟨h.relay, h.netDevice, ?_, ?_, fun hdel => absurd hdel hlive⟩
      · rw [hf]
        exact Slot.tight_put s.next
      · exact nofun
    · exact h.turn hlive hf
  case negotiating =>
    split
    · exact h.turn hlive hf
    · exact ⟨h.relay, h.netDevice, .inl h.agent.close, h.agent.close, fun hdel => absurd hdel hlive⟩
  case configuring =>
    split
    · exact ⟨h.relay, h.netDevice, h.agent, hf, fun hdel => absurd hdel hlive⟩
    · exact ⟨h.relay, h.netDevice, .inl h.agent.close, h.agent.close, fun hdel => absurd hdel hlive⟩
  case failing => exact ⟨h.relay, .inl h.netDevice.close, h.agent, ⟨hf, h.netDevice.close⟩, fun hdel => absurd hdel hlive⟩
  case killing deleting =>
    split
    · have hclosed := h.relay.close
      refine ⟨?_, h.netDevice, h.agent, ⟨hf.1, hf.2, ?_⟩, fun hdel => absurd hdel hlive⟩
      · rw [hclosed]
        exact Slot.owned_nil
      · rw [hclosed]
    · apply h.turn hlive
      cases deleting with
      | true => exact ⟨hf.1, hf.2, nofun⟩
      | false => exact fun _ => hf.2
  case unlinking deleting =>
    split
    · apply h.turn hlive
      cases deleting with
      | true => exact ⟨hf.1, hf.2.1, fun _ => hf.2.2⟩
      | false => exact fun _ => hf.2.1
    split
    · refine ⟨h.relay, h.netDevice, h.agent, ?_, fun hdel => absurd hdel hlive⟩
      cases deleting with
      | true => exact ⟨hf.1, hf.2.1, fun _ => hf.2.2⟩
      | false => exact fun _ => hf.2.1
    · apply h.turn hlive
      cases deleting with
      | true => exact ⟨hf.1, hf.2.1, nofun⟩
      | false => exact fun _ => hf.2.1
  case creating =>
    cases ok with
    | true => exact h.turn hlive hf
    | false => exact h.turn hlive fun hnone => absurd hnone hf
  case opening =>
    cases ok with
    | true => exact h.turn hlive hf
    | false => exact h.turn hlive fun hnone => absurd hnone hf
  case starting =>
    refine ⟨h.relay, h.netDevice, h.agent, fun hnone => absurd hnone hf, ?_⟩
    cases ok with
    | true => exact nofun
    | false => exact fun hdel => absurd hdel hlive
  case deleting =>
    cases ok with
    | true => exact h.turn hlive hf
    | false => exact h.turn hlive fun hnone => absurd hnone hf
  case stoppingNetwork => exact ⟨h.relay, .inl h.netDevice.close, h.agent, h.netDevice.close, fun hdel => absurd hdel hlive⟩
  case quiescing => exact ⟨h.relay, h.netDevice, .inl h.agent.close, ⟨h.agent.close, hf⟩, fun hdel => absurd hdel hlive⟩
  case releasing stopped =>
    refine ⟨h.relay, h.netDevice, h.agent, fun _ => hf.2.1, ?_⟩
    intro hdel
    split at hdel
    · rename_i hdone
      exact ⟨rfl, hf.2.2 hdone.2, hf.1, hf.2.1⟩
    · exact absurd hdel hlive

theorem Good.step (h : Good s) (e : Event) (hclear : Clear s e) : Good (s.step e) := by
  cases e with
  | start removed bound => exact h.start removed bound
  | delete => exact h.delete
  | advance ok => exact h.advance ok hclear
  | exit n => exact h.exit n
  | replace r => exact h.replace r hclear
  | stopped =>
    simp only [Service.step]
    split
    · exact ⟨h.relay, h.netDevice, h.agent, h.facts, nofun⟩
    · exact h

end Good

/-! ## One descriptor at a time -/

/-- While no device is attached and no call is under way, nothing is live. -/
def Sealed (s : Service) : Prop :=
  match s.phase with
  | .idle | .attaching => s.netDevice = {} → s.agent = {} ∧ s.relay.live = []
  | .releasing _ => s.relay.live = []
  | .persisting | .launching | .sandbox | .capturing | .dialling | .negotiating | .configuring | .creating | .opening
  | .starting | .deleting => s.netDevice ≠ {}
  | .failing | .killing _ | .unlinking _ | .stoppingNetwork | .quiescing => True

section Sealed
variable {s : Service}

theorem Sealed.clear (h : Sealed s) (hgood : Good s) {e : Event} (he : Exclusive s e) (hkills : Kills s e) :
    Clear s e := by
  cases e with
  | advance ok =>
    intro hphase hok
    have hdevice : s.netDevice = {} := by
      rcases hgood.netDevice with hnone | ⟨n, heq⟩
      · exact hnone
      · have hnil := he hphase hok
        rw [heq] at hnil
        cases hnil
    unfold Sealed at h
    rw [hphase] at h
    obtain ⟨hagent, hrelay⟩ := h hdevice
    rw [hdevice, hagent]
    refine ⟨fun n _ => ?_, nofun, nofun⟩
    rw [hrelay]
    exact List.not_mem_nil
  | replace r => exact hkills
  | start | delete | exit | stopped => trivial

theorem Sealed.advance (h : Sealed s) (hgood : Good s) (ok : Bool)
    (hkill : ∀ d, s.phase = .killing d → s.relay.field = none ∨ ok) : Sealed (s.advance ok) := by
  have hf := hgood.facts
  unfold Facts at hf
  unfold Sealed at h
  unfold Service.advance
  cases hphase : s.phase <;> rw [hphase] at h hf <;> simp only
  case idle =>
    unfold Sealed
    rw [hphase]
    exact h
  case attaching =>
    split
    · exact nofun
    · exact h
  case persisting =>
    cases ok with
    | true => exact h
    | false => trivial
  case launching =>
    split
    · exact h
    · trivial
  case sandbox =>
    cases ok with
    | false => trivial
    | true =>
      cases howner : s.relayOwner with
      | true | false => exact h
  case capturing =>
    split
    · exact h
    · trivial
  case dialling =>
    split
    · exact h
    · trivial
  case negotiating =>
    split
    · exact h
    · trivial
  case configuring =>
    split
    · exact h
    · trivial
  case failing => trivial
  case killing deleting =>
    split
    · trivial
    · rename_i hnot
      exact absurd (hkill deleting hphase).symm hnot
  case unlinking deleting =>
    split
    · cases deleting with
      | true => exact hf.2.2
      | false => exact fun _ => ⟨hf.1, hf.2.2⟩
    split
    · cases deleting with
      | true => exact hf.2.2
      | false => exact fun _ => ⟨hf.1, hf.2.2⟩
    · cases deleting with
      | true => exact hf.2.2
      | false => exact fun _ => ⟨hf.1, hf.2.2⟩
  case creating =>
    cases ok with
    | true => exact h
    | false => exact fun hnone => absurd hnone h
  case opening =>
    cases ok with
    | true => exact h
    | false => exact fun hnone => absurd hnone h
  case starting => exact fun hnone => absurd hnone h
  case deleting =>
    cases ok with
    | true => trivial
    | false => exact fun hnone => absurd hnone h
  case stoppingNetwork => trivial
  case quiescing => trivial
  case releasing stopped => exact fun _ => ⟨hf.1, h⟩

theorem Sealed.delete (h : Sealed s) (hgood : Good s) : Sealed s.delete := by
  unfold Service.delete
  split
  · rename_i hidle
    unfold Sealed at h
    rw [hidle.1] at h
    by_cases hagent : s.agent.field.isSome
    · simp only [hagent, if_true]
      intro hnone
      exact (hgood.agent.field_isSome.1 hagent) (h hnone).1
    · simp only [hagent, Bool.false_eq_true, if_false]
      trivial
  · exact h

/-- Relays that go or come, where none is said to be live. -/
theorem Sealed.relay (h : Sealed s) (hgood : Good s) (relay : Slot) (owner : Bool) (next : Nat)
    (hrelay : s.agent = {} → s.relay.live = [] → relay.live = []) :
    Sealed { s with relay := relay, relayOwner := owner, next := next } := by
  have hf := hgood.facts
  unfold Facts at hf
  unfold Sealed at h ⊢
  cases hphase : s.phase <;> rw [hphase] at h hf
  case idle => exact fun hnone => ⟨(h hnone).1, hrelay (h hnone).1 (h hnone).2⟩
  case attaching => exact fun hnone => ⟨(h hnone).1, hrelay (h hnone).1 (h hnone).2⟩
  case releasing => exact hrelay hf.1 h
  all_goals exact h

theorem Sealed.replace (h : Sealed s) (hgood : Good s) (r : Replacement) : Sealed (s.replace r) := by
  unfold Service.replace
  split
  · rename_i hdead
    have hagent : s.agent ≠ {} := hgood.agent.field_isSome.1 hdead.1
    have hchanged : ∀ relay owner next, Sealed { s with relay := relay, relayOwner := owner, next := next } :=
      fun relay owner next => h.relay hgood relay owner next fun hnone => absurd hnone hagent
    cases r with
    | reapFailed => exact h
    | unlinkFailed | launchFailed | captured | abandoned => exact hchanged _ _ _
  · exact h

theorem Sealed.step (h : Sealed s) (hgood : Good s) (e : Event) (hkills : Kills s e) : Sealed (s.step e) := by
  cases e with
  | start removed bound =>
    simp only [Service.step, Service.start]
    split
    · rename_i hidle
      have hs := h
      unfold Sealed at hs
      rw [hidle.1] at hs
      split
      · exact h
      split
      · exact h
      · exact hs
    · exact h
  | delete => exact h.delete hgood
  | advance ok => exact h.advance hgood ok hkills
  | exit n =>
    apply h.relay hgood
    intro _ hnil
    simp [Slot.exit, hnil]
  | replace r => exact h.replace hgood r
  | stopped =>
    simp only [Service.step]
    split
    · exact h
    · exact h

end Sealed

/-- Every relay, device and client that is live is in its field, and a `Delete`
that succeeds leaves none: in every run in which a device is attached only while
the fields hold nothing live, and so in every run with one descriptor at a time
in which relays can be killed. -/
theorem transports_owned (es : List Event) :
    (Conforms Service.step Clear {} es → Owned (run Service.step {} es))
      ∧ (Conforms Service.step (fun s e => Exclusive s e ∧ Kills s e) {} es → Owned (run Service.step {} es)) := by
  constructor
  · intro hes
    exact (hes.inv good_init fun s e h he => h.step e he).owned
  · intro hes
    have hinv : Good (run Service.step {} es) ∧ Sealed (run Service.step {} es) := by
      apply hes.inv (J := fun s => Good s ∧ Sealed s) ⟨good_init, fun _ => ⟨rfl, rfl⟩⟩
      rintro s e ⟨hgood, hsealed⟩ ⟨he, hkills⟩
      exact ⟨hgood.step e (hsealed.clear hgood he hkills), hsealed.step hgood e hkills⟩
    exact hinv.1.owned

/-- The sandbox does not start at first; the relay exits once and is replaced;
the process ends and is deleted. -/
def lifetime : List Event :=
  [.start true true, .advance true, .advance true, .advance true, .advance false, .advance true, .advance true, .advance true]
    ++ connect ++ [.advance true, .exit 3, .replace .captured, .advance true, .advance true, .stopped]
    ++ [.delete, .advance true, .advance true, .advance true, .advance true, .advance true, .advance true]

theorem transports_owned_lifetime :
    (run Service.step {} lifetime).status = .deleted ∧ Owned (run Service.step {} lifetime) :=
  ⟨by decide +kernel, (transports_owned lifetime).1 (by decide +kernel)⟩

end Multikernel.Transport
