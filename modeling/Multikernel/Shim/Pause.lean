import Multikernel.Shim.Kill
/-!
# Pausing and resuming a task

The shim's `Pause` and `Resume` (`task_control.go`) signal every process of the
task, one after another, and take the signals back in reverse order if a step
fails. Each signal is sent under an operation ID of its own until there is an
answer, and is then acknowledged (`applyGuestSignal` in `agent_transport.go`).
Requests and replies get lost, the guest or its server refuses, and persists and
the event fail.

What is taken back are the targets before the one that failed. The guest may
have acted on that one too: its reply was lost, or only its acknowledgement
failed (`pause_leaves_stopped`). Where it has not, and the table agreed with the
guest to begin with, a failed call leaves everything as it was
(`change_restores_iff`).

Left out: what other requests do to the guest's processes meanwhile.
-/

namespace Multikernel.Pause
open Lib
open Signals (Manager Failure)
open Kill (Fate Persist)

/-! ## The guest -/

/-- The agent's manager, and whether the process of an ID is stopped. -/
structure Guest where
  manager : Manager
  stopped : String → Bool

def sigcont : Nat := 18
def sigstop : Nat := 19

/-- Whether a process is stopped after a signal. -/
def effect (signal : Nat) (stopped : Bool) : Bool :=
  if signal = sigstop then true else if signal = sigcont then false else stopped

def Guest.signalProcess (g : Guest) (id : String) (signal : Nat) (op : String) (err : Option Failure) :
    Guest × Option Failure :=
  let r := g.manager.signalProcess id signal op err
  let sent := r.1.delivered.length ≠ g.manager.delivered.length
  (⟨r.1, fun i => if sent ∧ i = id then effect signal (g.stopped i) else g.stopped i⟩, r.2)

def Guest.acknowledgeSignal (g : Guest) (id op : String) : Guest × Option Failure :=
  let r := g.manager.acknowledgeSignal id op
  (⟨r.1, g.stopped⟩, r.2)

/-! ## One signal -/

inductive Reply where
  | lost
  | rejected
  | answered (err : Option Failure)
  deriving DecidableEq, Repr

def Reply.failed : Reply → Bool
  | .answered none => false
  | .lost | .rejected | .answered (some _) => true

/-- `callAgentWithReconnectContext`: the request is sent again until there is an
answer or the time is over. -/
def request (call : Guest → Guest × Option Failure) : Guest → List Fate → Guest × Reply
  | g, [] => (g, .lost)
  | g, .requestLost :: fates => request call g fates
  | g, .replyLost :: fates => request call (call g).1 fates
  | g, .answered :: _ => ((call g).1, .answered (call g).2)
  | g, .rejected :: _ => (g, .rejected)

/-- What one signal meets: the ID made for it, if one could be made, the answer
of `kill`, and what becomes of the requests to send and to acknowledge it. -/
structure Attempt where
  operationID : Option String
  err : Option Failure
  sends : List Fate
  acks : List Fate

inductive SignalError where
  | identity
  | transport
  | remote
  | acknowledge
  deriving DecidableEq, Repr

def applyGuestSignal (g : Guest) (id : String) (signal : Nat) (a : Attempt) : Guest × List SignalError :=
  match a.operationID with
  | none => (g, [.identity])
  | some op =>
    let s := request (·.signalProcess id signal op a.err) g a.sends
    let k := request (·.acknowledgeSignal id op) s.1 a.acks
    let acknowledge := if k.2.failed then [SignalError.acknowledge] else []
    match s.2 with
    | .lost => (s.1, [.transport])
    | .rejected | .answered (some _) => (k.1, .remote :: acknowledge)
    | .answered none => (k.1, acknowledge)

/-! ## All of them -/

/-- The `n`th signal of a call meets `attempts n`. The number is that of the
targets that came before the failure. -/
def signalProcessTargets (attempts : Nat → Attempt) (signal : Nat) :
    List String → Guest → Nat → Guest × Nat × List SignalError
  | [], g, _ => (g, 0, [])
  | id :: ids, g, n =>
    let r := applyGuestSignal g id signal (attempts n)
    if r.2 = [] then
      let s := signalProcessTargets attempts signal ids r.1 (n + 1)
      (s.1, s.2.1 + 1, s.2.2)
    else (r.1, 0, r.2)

/-- The targets in the order they are taken back, and those that failed. -/
def rollbackProcessSignals (attempts : Nat → Attempt) (signal : Nat) :
    List String → Guest → Nat → Guest × List String
  | [], g, _ => (g, [])
  | id :: ids, g, n =>
    let r := applyGuestSignal g id signal (attempts n)
    let s := rollbackProcessSignals attempts signal ids r.1 (n + 1)
    (s.1, if r.2 = [] then s.2 else id :: s.2)

/-! ## The table of processes -/

inductive Status where
  | created
  | running
  | paused
  | stopped
  deriving DecidableEq, Repr

/-- The shim's processes by exec ID; the task's own has the empty one. -/
@[ext]
structure Table where
  entries : List (String × Status)
  nodup : (entries.map (·.1)).Nodup

def Table.set (t : Table) (ids : List String) (status : Status) : Table where
  entries := t.entries.map fun p => if p.1 ∈ ids then (p.1, status) else p
  nodup := by
    have hkeys : (t.entries.map fun p => if p.1 ∈ ids then (p.1, status) else p).map (·.1) = t.entries.map (·.1) := by
      rw [List.map_map]
      apply List.map_congr_left
      intro p _
      simp only [Function.comp]
      split
      · rfl
      · rfl
    rw [hkeys]
    exact t.nodup

/-- `sort.Slice`, whatever order it makes of the targets. -/
structure Sorter where
  sort : List String → List String
  perm : ∀ l, (sort l).Perm l

def agentID (execID : String) : String := if execID = "" then "init" else execID

/-- The exec IDs of the processes with a status, in the order they are signalled. -/
def signalTargets (sorter : Sorter) (t : Table) (status : Status) : List String :=
  sorter.sort ((t.entries.filter fun p => p.2 = status).map (·.1))

/-! ## `Pause` and `Resume` -/

inductive Change where
  | pause
  | resume
  deriving DecidableEq, Repr

def Change.start : Change → Status
  | .pause => .running
  | .resume => .paused

def Change.target : Change → Status
  | .pause => .paused
  | .resume => .running

def Change.signal : Change → Nat
  | .pause => sigstop
  | .resume => sigcont

def Change.back : Change → Nat
  | .pause => sigcont
  | .resume => sigstop

structure Service where
  processes : Table
  agent : Bool
  guest : Guest
  record : Table

/-- What a call meets: whether its context, its checks and the lock let it in,
its signals, and the answers of the persists and of the event's journal. -/
structure Inputs where
  admitted : Bool
  attempts : Nat → Attempt
  persist : Persist
  publish : Bool
  persistRollback : Persist

inductive Error where
  | request
  | notFound
  | failedPrecondition
  | signal (err : SignalError)
  | rollback (id : String)
  | persist
  | publish
  | persistRollback
  deriving DecidableEq, Repr

/-- Every target has its signal, and the call takes it all back. -/
def Service.undo (s : Service) (c : Change) (targets : List String) (i : Inputs) (err : Error) : Service × List Error :=
  let b := rollbackProcessSignals i.attempts c.back (targets.map agentID).reverse s.guest targets.length
  let processes := s.processes.set targets c.start
  let p := i.persistRollback.persist processes s.record
  ({ s with guest := b.1, processes, record := p.1 },
    err :: b.2.map .rollback ++ if p.2 then [.persistRollback] else [])

/-- The call with its targets. -/
def Service.carry (s : Service) (c : Change) (targets : List String) (i : Inputs) : Service × List Error :=
  let r := signalProcessTargets i.attempts c.signal (targets.map agentID) s.guest 0
  if r.2.2 ≠ [] then
    let b := rollbackProcessSignals i.attempts c.back ((targets.map agentID).take r.2.1).reverse r.1 (r.2.1 + 1)
    ({ s with guest := b.1 }, r.2.2.map .signal ++ b.2.map .rollback)
  else
    let processes := s.processes.set targets c.target
    let p := i.persist.persist processes s.record
    let s := { s with guest := r.1, processes, record := p.1 }
    if p.2 then s.undo c targets i .persist
    else if ¬i.publish then s.undo c targets i .publish
    else (s, [])

def Service.change (sorter : Sorter) (c : Change) (s : Service) (i : Inputs) : Service × List Error :=
  if ¬i.admitted then (s, [.request])
  else
    match s.processes.entries.lookup "" with
    | none => (s, [.notFound])
    | some status =>
      if status ≠ c.start ∨ ¬s.agent then (s, [.failedPrecondition])
      else s.carry c (signalTargets sorter s.processes c.start) i

def Service.pause (sorter : Sorter) (s : Service) (i : Inputs) : Service × List Error := s.change sorter .pause i

def Service.resume (sorter : Sorter) (s : Service) (i : Inputs) : Service × List Error := s.change sorter .resume i

/-! ## When a signal gets through -/

/-- Some sending of the request reaches the guest. -/
def reaches : List Fate → Bool
  | [] => false
  | .requestLost :: fates => reaches fates
  | .replyLost :: _ => true
  | .answered :: _ => true
  | .rejected :: _ => false

/-- Some sending of the request is answered. -/
def replied : List Fate → Bool
  | [] => false
  | .requestLost :: fates => replied fates
  | .replyLost :: fates => replied fates
  | .answered :: _ => true
  | .rejected :: _ => false

/-- The guest delivers the signal. -/
structure Takes (g : Guest) (id : String) (a : Attempt) : Prop where
  identity : a.operationID.isSome
  running : g.manager.processes id = some .running
  room : g.manager.signalResults.length < Signals.maxSignalResults
  sent : a.err = none
  reached : reaches a.sends

/-- And the shim learns of it, and acknowledges. -/
structure Succeeds (g : Guest) (id : String) (a : Attempt) : Prop where
  takes : Takes g id a
  answered : replied a.sends
  acknowledged : replied a.acks

theorem reaches_of_replied {fates : List Fate} (h : replied fates) : reaches fates := by
  induction fates with
  | nil => cases h
  | cons fate fates ih =>
    cases fate with
    | requestLost => exact ih h
    | replyLost | answered => rfl
    | rejected => cases h

section Request
variable (call : Guest → Guest × Option Failure) (hagain : ∀ g, call (call g).1 = call g)
include hagain

theorem request_guest (g : Guest) (fates : List Fate) :
    (request call g fates).1 = if reaches fates then (call g).1 else g := by
  induction fates generalizing g with
  | nil => rfl
  | cons fate fates ih =>
    cases fate with
    | requestLost => exact ih g
    | replyLost =>
      rw [request, ih, hagain, ite_self]
      rfl
    | answered | rejected => rfl

theorem request_reply (g : Guest) (fates : List Fate) :
    (request call g fates).2 = .answered (call g).2 ∧ replied fates
      ∨ ((request call g fates).2 = .lost ∨ (request call g fates).2 = .rejected) ∧ ¬replied fates := by
  induction fates generalizing g with
  | nil => exact .inr ⟨.inl rfl, nofun⟩
  | cons fate fates ih =>
    cases fate with
    | requestLost => exact ih g
    | replyLost =>
      have h := ih (call g).1
      rw [hagain] at h
      exact h
    | answered => exact .inl ⟨rfl, rfl⟩
    | rejected => exact .inr ⟨.inr rfl, nofun⟩

end Request

section Apply
variable {g : Guest} {id op : String} {signal : Nat} {err : Option Failure} {a : Attempt}

def keys (g : Guest) : List String := g.manager.signalResults.map (·.1)

theorem signalProcess_again (id op : String) (signal : Nat) (err : Option Failure) (g : Guest) :
    (g.signalProcess id signal op err).1.signalProcess id signal op err = g.signalProcess id signal op err := by
  have hagain : (g.manager.signalProcess id signal op err).1.signalProcess id signal op err
      = g.manager.signalProcess id signal op err := by
    unfold Manager.signalProcess
    split
    · exact Signals.signalOnce_again g.manager id signal op err
    · rfl
  simp only [Guest.signalProcess, hagain, ne_eq, not_true_eq_false, false_and, if_false]

theorem guest_acknowledgeSignal_again (id op : String) (g : Guest) :
    (g.acknowledgeSignal id op).1.acknowledgeSignal id op = g.acknowledgeSignal id op := by
  simp only [Guest.acknowledgeSignal, Signals.acknowledgeSignal_again]

/-- A new operation is refused, or it is entered and answered as `kill` answers. -/
theorem signalProcess_new (hrange : 0 < signal ∧ signal < 65) (hform : Signals.wellFormed op) (hnew : op ∉ keys g) :
    (g.manager.processes id = some .running ∧ g.manager.signalResults.length < Signals.maxSignalResults
        ∧ (g.signalProcess id signal op err).2 = err
        ∧ (g.signalProcess id signal op err).1.manager.signalResults
          = g.manager.signalResults ++ [(op, ⟨id, signal, err⟩)]
        ∧ (g.signalProcess id signal op err).1.manager.processes = g.manager.processes
        ∧ ∀ x, (g.signalProcess id signal op err).1.stopped x
          = if err = none ∧ x = id then effect signal (g.stopped x) else g.stopped x)
      ∨ (¬(g.manager.processes id = some .running ∧ g.manager.signalResults.length < Signals.maxSignalResults)
        ∧ (g.signalProcess id signal op err).2 ≠ none ∧ (g.signalProcess id signal op err).1 = g) := by
  have hlookup : g.manager.signalResults.lookup op = none := Signals.lookup_eq_none_iff.2 hnew
  unfold Guest.signalProcess Manager.signalProcess Manager.signalOnce
  simp only [hrange, and_self, if_true, hform, not_true_eq_false, if_false, hlookup]
  by_cases hrunning : g.manager.processes id = some .running
  case neg => simp [hrunning]
  by_cases hroom : Signals.maxSignalResults ≤ g.manager.signalResults.length
  case pos => simp [hrunning, hroom]
  left
  simp only [hrunning, ne_eq, not_true_eq_false, if_false, hroom]
  refine ⟨trivial, Nat.lt_of_not_le hroom, trivial, trivial, trivial, fun x => ?_⟩
  cases err with
  | none | some => simp

/-- What one signal does, with an operation ID that is new to the guest. -/
structure Applied (g : Guest) (id : String) (signal : Nat) (a : Attempt) (r : Guest × List SignalError) : Prop where
  ok : r.2 = [] ↔ Succeeds g id a
  moved : ∀ x, Takes g id a ∧ x = id → r.1.stopped x = effect signal (g.stopped x)
  kept : ∀ x, ¬(Takes g id a ∧ x = id) → r.1.stopped x = g.stopped x
  processes : r.1.manager.processes = g.manager.processes
  ledger : Succeeds g id a → r.1.manager.signalResults = g.manager.signalResults
  keys : ∀ o ∈ keys r.1, o ∈ keys g ∨ a.operationID = some o

theorem acknowledgeSignal_stopped (g : Guest) (fates : List Fate) :
    (request (·.acknowledgeSignal id op) g fates).1.stopped = g.stopped
      ∧ (request (·.acknowledgeSignal id op) g fates).1.manager.processes = g.manager.processes
      ∧ keys (request (·.acknowledgeSignal id op) g fates).1 ⊆ keys g := by
  have hretired := Kill.retired_acknowledgeSignal id op g.manager
  have hkeys : keys (g.acknowledgeSignal id op).1 ⊆ keys g := by
    simp only [keys, Guest.acknowledgeSignal]
    rcases Signals.acknowledgeSignal_cases g.manager id op with hsame | ⟨-, hs⟩
    · rw [hsame]
      exact fun _ h => h
    · rw [hs]
      exact List.map_subset _ (List.filter_subset_self _)
  rw [request_guest _ (guest_acknowledgeSignal_again id op)]
  split
  · exact ⟨rfl, hretired.processes, hkeys⟩
  · exact ⟨rfl, rfl, fun _ h => h⟩

/-- What sending the signal of a new operation does. -/
structure Sent (g : Guest) (id : String) (signal : Nat) (op : String) (a : Attempt) (s : Guest × Reply) : Prop where
  ok : s.2 = .answered none ↔ Takes g id a ∧ replied a.sends
  moved : ∀ x, Takes g id a ∧ x = id → s.1.stopped x = effect signal (g.stopped x)
  kept : ∀ x, ¬(Takes g id a ∧ x = id) → s.1.stopped x = g.stopped x
  processes : s.1.manager.processes = g.manager.processes
  ledger : s.1.manager.signalResults = g.manager.signalResults
    ∨ s.1.manager.signalResults = g.manager.signalResults ++ [(op, ⟨id, signal, a.err⟩)]

theorem sent (hrange : 0 < signal ∧ signal < 65) (hid : a.operationID = some op) (hform : Signals.wellFormed op)
    (hnew : op ∉ keys g) : Sent g id signal op a (request (·.signalProcess id signal op a.err) g a.sends) := by
  have hguest := request_guest (·.signalProcess id signal op a.err) (signalProcess_again id op signal a.err) g a.sends
  have hreply := request_reply (·.signalProcess id signal op a.err) (signalProcess_again id op signal a.err) g a.sends
  have hsome : a.operationID.isSome := by rw [hid]; rfl
  rcases @signalProcess_new g id op signal a.err hrange hform hnew with
    ⟨hrunning, hroom, herr, hledger, hprocesses, hstopped⟩ | ⟨hnot, herr, hsame⟩
  · have htakes : Takes g id a ↔ a.err = none ∧ reaches a.sends :=
      ⟨fun h => ⟨h.sent, h.reached⟩, fun h => ⟨hsome, hrunning, hroom, h.1, h.2⟩⟩
    constructor
    case ok =>
      rw [htakes]
      rcases hreply with ⟨hanswer, hreplied⟩ | ⟨hnone, hreplied⟩
      · rw [hanswer, herr]
        constructor
        · intro h
          exact ⟨⟨Reply.answered.inj h, reaches_of_replied hreplied⟩, hreplied⟩
        · intro h
          rw [h.1.1]
      · constructor
        · intro h
          rcases hnone with hnone | hnone <;> rw [hnone] at h <;> cases h
        · exact fun h => absurd h.2 hreplied
    case moved =>
      intro x hx
      obtain ⟨hnone, hreached⟩ := htakes.1 hx.1
      rw [hguest, if_pos hreached, hstopped, if_pos ⟨hnone, hx.2⟩]
    case kept =>
      intro x hx
      rw [hguest]
      split
      · rename_i hreached
        rw [hstopped, if_neg]
        exact fun h => hx ⟨htakes.2 ⟨h.1, hreached⟩, h.2⟩
      · rfl
    case processes =>
      rw [hguest]
      split
      · exact hprocesses
      · rfl
    case ledger =>
      rw [hguest]
      split
      · exact .inr hledger
      · exact .inl rfl
  · have htakes : ¬Takes g id a := fun h => hnot ⟨h.running, h.room⟩
    rw [hsame, ite_self] at hguest
    constructor
    case ok =>
      constructor
      · intro h
        rcases hreply with ⟨hanswer, -⟩ | ⟨hnone, -⟩
        · rw [hanswer] at h
          exact absurd (Reply.answered.inj h) herr
        · rcases hnone with hnone | hnone <;> rw [hnone] at h <;> cases h
      · exact fun h => absurd h.1 htakes
    case moved => exact fun x h => absurd h.1 htakes
    case kept => exact fun x _ => by rw [hguest]
    case processes => rw [hguest]
    case ledger => exact .inl (by rw [hguest])

/-- The acknowledgement of an operation of this process. -/
theorem acknowledged_iff (hform : Signals.wellFormed op)
    (hentry : ∀ x ∈ g.manager.signalResults, x.1 = op → x.2.id = id)
    (fates : List Fate) : (request (·.acknowledgeSignal id op) g fates).2.failed = false ↔ replied fates := by
  have hok : (g.acknowledgeSignal id op).2 = none := by
    simp only [Guest.acknowledgeSignal, Manager.acknowledgeSignal, hform, not_true_eq_false, if_false]
    cases hlookup : g.manager.signalResults.lookup op with
    | none => rfl
    | some result =>
      have hid : result.id = id := hentry _ (Signals.mem_of_lookup hlookup) rfl
      simp [hid]
  rcases request_reply (·.acknowledgeSignal id op) (guest_acknowledgeSignal_again id op) g fates with
    ⟨hanswer, hreplied⟩ | ⟨hnone, hreplied⟩
  · simp only [hanswer, hok]
    exact ⟨fun _ => hreplied, fun _ => rfl⟩
  · rcases hnone with hnone | hnone
    · simpa [hnone, Reply.failed] using hreplied
    · simpa [hnone, Reply.failed] using hreplied

theorem acknowledged_ledger (hform : Signals.wellFormed op)
    (hentry : ∀ x ∈ g.manager.signalResults, x.1 = op → x.2.id = id)
    {fates : List Fate} (hreplied : replied fates) :
    (request (·.acknowledgeSignal id op) g fates).1.manager.signalResults
      = g.manager.signalResults.filter fun x => !decide (x.1 = op) := by
  rw [request_guest _ (guest_acknowledgeSignal_again id op), if_pos (reaches_of_replied hreplied)]
  simp only [Guest.acknowledgeSignal, Manager.acknowledgeSignal, hform, not_true_eq_false, if_false]
  cases hlookup : g.manager.signalResults.lookup op with
  | none =>
    symm
    rw [List.filter_eq_self]
    intro x hx
    have hne : x.1 ≠ op := fun heq => Signals.lookup_eq_none_iff.1 hlookup (heq ▸ List.mem_map_of_mem hx)
    simpa using hne
  | some result =>
    have hid : result.id = id := hentry _ (Signals.mem_of_lookup hlookup) rfl
    simp [hid, Manager.retire]

theorem applied (hrange : 0 < signal ∧ signal < 65)
    (hop : ∀ op ∈ a.operationID, Signals.wellFormed op ∧ op ∉ keys g) :
    Applied g id signal a (applyGuestSignal g id signal a) := by
  unfold applyGuestSignal
  cases hid : a.operationID with
  | none =>
    have hnot : ¬Takes g id a := by
      intro h
      have hsome := h.identity
      rw [hid] at hsome
      cases hsome
    exact
      { ok := ⟨nofun, fun h => absurd h.takes hnot⟩
        moved := fun x h => absurd h.1 hnot
        kept := fun x _ => rfl
        processes := rfl
        ledger := fun _ => rfl
        keys := fun o ho => .inl ho }
  | some op =>
    obtain ⟨hform, hnew⟩ := hop op hid
    have hs := @sent g id op signal a hrange hid hform hnew
    simp only
    generalize request (·.signalProcess id signal op a.err) g a.sends = s at hs ⊢
    obtain ⟨hstopped, hprocesses, hkeys⟩ := @acknowledgeSignal_stopped id op s.1 a.acks
    have hsent : ∀ o ∈ keys s.1, o ∈ keys g ∨ some op = some o := by
      intro o ho
      rcases hs.ledger with heq | heq
      · rw [keys, heq] at ho
        exact .inl ho
      · rw [keys, heq, List.map_append, List.mem_append] at ho
        exact ho.imp_right fun ho => congrArg some (List.mem_singleton.1 ho).symm
    have hentry : ∀ x ∈ s.1.manager.signalResults, x.1 = op → x.2.id = id := by
      intro x hx hxo
      have hold : x ∉ g.manager.signalResults := fun hmem => hnew (hxo ▸ List.mem_map_of_mem hmem)
      rcases hs.ledger with heq | heq
      · rw [heq] at hx
        exact absurd hx hold
      · rw [heq, List.mem_append] at hx
        rcases hx with hx | hx
        · exact absurd hx hold
        · rw [List.mem_singleton.1 hx]
    have hack := acknowledged_iff hform hentry a.acks
    have hcleared : Succeeds g id a →
        (request (·.acknowledgeSignal id op) s.1 a.acks).1.manager.signalResults = g.manager.signalResults := by
      intro h
      have hold : (g.manager.signalResults.filter fun x => !decide (x.1 = op)) = g.manager.signalResults := by
        rw [List.filter_eq_self]
        intro x hx
        have hne : x.1 ≠ op := fun heq => hnew (heq ▸ List.mem_map_of_mem hx)
        simpa using hne
      rw [acknowledged_ledger hform hentry h.acknowledged]
      rcases hs.ledger with heq | heq
      · rw [heq]
        exact hold
      · rw [heq, List.filter_append, hold]
        simp
    generalize request (·.acknowledgeSignal id op) s.1 a.acks = k at hstopped hprocesses hkeys hack hcleared ⊢
    -- the guest is `s.1` or `k.1`, which differ in the ledger only
    have hcommon : ∀ e : List SignalError, (e = [] ↔ Succeeds g id a) → Applied g id signal a (k.1, e) := fun e he =>
      { ok := he
        moved := fun x hx => by rw [hstopped]; exact hs.moved x hx
        kept := fun x hx => by rw [hstopped]; exact hs.kept x hx
        processes := hprocesses.trans hs.processes
        ledger := hcleared
        keys := fun o ho => hid ▸ hsent o (hkeys ho) }
    have hrefused : s.2 ≠ .answered none → ¬Succeeds g id a := fun hne h => hne (hs.ok.2 ⟨h.takes, h.answered⟩)
    cases hreply : s.2 with
    | lost =>
      have hnot := hrefused (by rw [hreply]; exact nofun)
      exact
        { ok := ⟨nofun, fun h => absurd h hnot⟩
          moved := hs.moved
          kept := hs.kept
          processes := hs.processes
          ledger := fun h => absurd h hnot
          keys := fun o ho => hid ▸ hsent o ho }
    | rejected =>
      have hnot := hrefused (by rw [hreply]; exact nofun)
      exact hcommon _ ⟨nofun, fun h => absurd h hnot⟩
    | answered err =>
      cases err with
      | some f =>
        have hnot := hrefused (by rw [hreply]; exact nofun)
        exact hcommon _ ⟨nofun, fun h => absurd h hnot⟩
      | none =>
        obtain ⟨htakes, hreplied⟩ := hs.ok.1 hreply
        apply hcommon
        constructor
        · intro h
          refine ⟨htakes, hreplied, hack.1 ?_⟩
          cases hfailed : k.2.failed with
          | false => rfl
          | true =>
            rw [hfailed] at h
            cases h
        · intro h
          rw [hack.2 h.acknowledged]
          rfl

end Apply

/-! ## The targets one after another -/

/-- `newSignalOperationID` makes IDs of 32 hexadecimal digits, each anew. -/
structure Fresh (g : Guest) (attempts : Nat → Attempt) : Prop where
  form : ∀ n, ∀ op ∈ (attempts n).operationID, Signals.wellFormed op
  new : ∀ n, ∀ op ∈ (attempts n).operationID, op ∉ keys g
  distinct : ∀ n m, ∀ op ∈ (attempts n).operationID, op ∈ (attempts m).operationID → n = m

/-- The ledger and the processes are those of `g`. -/
structure Like (g g' : Guest) : Prop where
  processes : g'.manager.processes = g.manager.processes
  ledger : g'.manager.signalResults = g.manager.signalResults

section Targets
variable {g g' : Guest} {attempts : Nat → Attempt} {signal n : Nat} {b : Bool} {id : String} {ids : List String} {a : Attempt}

theorem Like.takes (h : Like g g') : Takes g' id a ↔ Takes g id a := by
  constructor
  · rintro ⟨hid, hrunning, hroom, hsent, hreached⟩
    rw [h.processes] at hrunning
    rw [h.ledger] at hroom
    exact ⟨hid, hrunning, hroom, hsent, hreached⟩
  · rintro ⟨hid, hrunning, hroom, hsent, hreached⟩
    rw [← h.processes] at hrunning
    rw [← h.ledger] at hroom
    exact ⟨hid, hrunning, hroom, hsent, hreached⟩

theorem Like.succeeds (h : Like g g') : Succeeds g' id a ↔ Succeeds g id a :=
  ⟨fun hs => ⟨h.takes.1 hs.takes, hs.answered, hs.acknowledged⟩, fun hs => ⟨h.takes.2 hs.takes, hs.answered, hs.acknowledged⟩⟩

theorem Like.keys (h : Like g g') : keys g' = keys g := by
  unfold Pause.keys
  rw [h.ledger]

/-- The first `k` targets have the signal, and the next one if the guest took it. -/
structure Stuck (g g' : Guest) (attempts : Nat → Attempt) (b : Bool) (ids : List String) (n k : Nat) (id : String)
    (after : Guest) : Prop where
  target : ids[k]? = some id
  before : ∀ j < k, ∀ x ∈ ids[j]?, Succeeds g x (attempts (n + j))
  fails : ¬Succeeds g id (attempts (n + k))
  moved : ∀ x, x ∈ ids.take k ∨ (Takes g id (attempts (n + k)) ∧ x = id) → after.stopped x = b
  kept : ∀ x, ¬(x ∈ ids.take k ∨ (Takes g id (attempts (n + k)) ∧ x = id)) → after.stopped x = g'.stopped x
  keys : ∀ o ∈ keys after, o ∈ keys g ∨ o ∈ (attempts (n + k)).operationID

/-- Every target has the signal. -/
structure Through (g g' : Guest) (attempts : Nat → Attempt) (b : Bool) (ids : List String) (n : Nat) (after : Guest) :
    Prop where
  all : ∀ j, ∀ x ∈ ids[j]?, Succeeds g x (attempts (n + j))
  like : Like g after
  moved : ∀ x ∈ ids, after.stopped x = b
  kept : ∀ x, x ∉ ids → after.stopped x = g'.stopped x

section Cons
variable {mid after : Guest} {k : Nat} {t : String}
variable (hfirst : Succeeds g id (attempts n)) (hmoved : ∀ x, x = id → mid.stopped x = b)
  (hkept : ∀ x, x ≠ id → mid.stopped x = g'.stopped x)
include hfirst hmoved hkept

theorem Through.cons (h : Through g mid attempts b ids (n + 1) after) : Through g g' attempts b (id :: ids) n after where
  all := by
    intro j x hx
    cases j with
    | zero =>
      cases hx
      exact hfirst
    | succ j =>
      rw [← Nat.add_assoc, Nat.add_right_comm]
      exact h.all j x hx
  like := h.like
  moved := by
    intro x hx
    by_cases hmem : x ∈ ids
    · exact h.moved x hmem
    · rw [h.kept x hmem]
      exact hmoved x ((List.mem_cons.1 hx).resolve_right hmem)
  kept := by
    intro x hx
    rw [List.mem_cons, not_or] at hx
    rw [h.kept x hx.2, hkept x hx.1]

theorem Stuck.cons (h : Stuck g mid attempts b ids (n + 1) k t after) :
    Stuck g g' attempts b (id :: ids) n (k + 1) t after := by
  have hshift : ∀ j, n + (j + 1) = n + 1 + j := fun j => by omega
  constructor
  case target => exact h.target
  case before =>
    intro j hj x hx
    cases j with
    | zero =>
      cases hx
      exact hfirst
    | succ j =>
      rw [hshift]
      exact h.before j (Nat.lt_of_succ_lt_succ hj) x hx
  case fails =>
    rw [hshift]
    exact h.fails
  case moved =>
    intro x hx
    rw [hshift, List.take_succ_cons, List.mem_cons, or_assoc] at hx
    by_cases hrest : x ∈ ids.take k ∨ (Takes g t (attempts (n + 1 + k)) ∧ x = t)
    · exact h.moved x hrest
    · rw [h.kept x hrest]
      exact hmoved x (hx.resolve_right hrest)
  case kept =>
    intro x hx
    rw [hshift, List.take_succ_cons, List.mem_cons, or_assoc, not_or] at hx
    rw [h.kept x hx.2, hkept x hx.1]
  case keys =>
    rw [hshift]
    exact h.keys

end Cons

theorem signalProcessTargets_spec (hrange : 0 < signal ∧ signal < 65) (hb : ∀ s, effect signal s = b)
    (hnew : Fresh g attempts) (hlike : Like g g') (n : Nat) :
    let r := signalProcessTargets attempts signal ids g' n
    (r.2.2 = [] ∧ Through g g' attempts b ids n r.1)
      ∨ (r.2.2 ≠ [] ∧ ∃ id, Stuck g g' attempts b ids n r.2.1 id r.1) := by
  induction ids generalizing g' n with
  | nil => exact .inl ⟨rfl, nofun, hlike, nofun, fun _ _ => rfl⟩
  | cons id ids ih =>
    have happ := @applied g' id signal (attempts n) hrange fun op hop =>
      ⟨hnew.form n op hop, hlike.keys ▸ hnew.new n op hop⟩
    simp only [signalProcessTargets]
    split
    · rename_i hok
      have hsucceeds := happ.ok.1 hok
      have hfirst := hlike.succeeds.1 hsucceeds
      have hmoved : ∀ x, x = id → (applyGuestSignal g' id signal (attempts n)).1.stopped x = b := fun x hx =>
        (happ.moved x ⟨hsucceeds.takes, hx⟩).trans (hb _)
      have hkept : ∀ x, x ≠ id → (applyGuestSignal g' id signal (attempts n)).1.stopped x = g'.stopped x := fun x hx =>
        happ.kept x fun h => hx h.2
      have hnext : Like g (applyGuestSignal g' id signal (attempts n)).1 :=
        ⟨happ.processes.trans hlike.processes, (happ.ledger hsucceeds).trans hlike.ledger⟩
      rcases ih hnext (n + 1) with ⟨hnil, hthrough⟩ | ⟨herr, t, hstuck⟩
      · exact .inl ⟨hnil, hthrough.cons hfirst hmoved hkept⟩
      · exact .inr ⟨herr, t, hstuck.cons hfirst hmoved hkept⟩
    · rename_i hfails
      right
      refine ⟨hfails, id, rfl, nofun, fun h => hfails (happ.ok.2 (hlike.succeeds.2 h)), ?_, ?_, ?_⟩
      · intro x hx
        obtain ⟨htakes, hxid⟩ := hx.resolve_left (List.not_mem_nil)
        exact (happ.moved x ⟨hlike.takes.2 htakes, hxid⟩).trans (hb _)
      · intro x hx
        exact happ.kept x fun h => hx (.inr ⟨hlike.takes.1 h.1, h.2⟩)
      · intro o ho
        rw [← hlike.keys]
        exact happ.keys o ho

/-- Signals that all get through, with IDs that are new to the guest. -/
theorem rollbackProcessSignals_spec (hrange : 0 < signal ∧ signal < 65) (hb : ∀ s, effect signal s = b)
    (hform : ∀ m, ∀ op ∈ (attempts m).operationID, Signals.wellFormed op)
    (hnew : ∀ m, n ≤ m → ∀ op ∈ (attempts m).operationID, op ∉ keys g)
    (hok : (rollbackProcessSignals attempts signal ids g n).2 = []) :
    (∀ x ∈ ids, (rollbackProcessSignals attempts signal ids g n).1.stopped x = b)
      ∧ ∀ x, x ∉ ids → (rollbackProcessSignals attempts signal ids g n).1.stopped x = g.stopped x := by
  induction ids generalizing g n with
  | nil => exact ⟨nofun, fun _ _ => rfl⟩
  | cons id ids ih =>
    have happ := @applied g id signal (attempts n) hrange fun op hop => ⟨hform n op hop, hnew n (Nat.le_refl n) op hop⟩
    simp only [rollbackProcessSignals] at hok ⊢
    split at hok
    · rename_i hnil
      have hsucceeds := happ.ok.1 hnil
      have hkeys : keys (applyGuestSignal g id signal (attempts n)).1 = keys g := by
        unfold keys
        rw [happ.ledger hsucceeds]
      obtain ⟨hmoved, hkept⟩ := ih (fun m hm op hop => hkeys ▸ hnew m (Nat.le_of_succ_le hm) op hop) hok
      constructor
      · intro x hx
        by_cases hmem : x ∈ ids
        · exact hmoved x hmem
        · rw [hkept x hmem]
          exact (happ.moved x ⟨hsucceeds.takes, (List.mem_cons.1 hx).resolve_right hmem⟩).trans (hb _)
      · intro x hx
        rw [List.mem_cons, not_or] at hx
        rw [hkept x hx.2]
        exact happ.kept x fun h => hx.1 h.2
    · cases hok

end Targets

/-! ## A failed call -/

/-- Whether the processes are stopped when the change is made. -/
def Change.stops : Change → Bool
  | .pause => true
  | .resume => false

/-- The table says of a process that it is paused exactly if it is stopped. -/
def Agrees (s : Service) : Prop :=
  ∀ p ∈ s.processes.entries, (p.2 = .running → s.guest.stopped (agentID p.1) = false)
    ∧ (p.2 = .paused → s.guest.stopped (agentID p.1) = true)

/-- Every process of the guest is as it was, and the table agrees. -/
def Restored (s s' : Service) : Prop := (∀ id, s'.guest.stopped id = s.guest.stopped id) ∧ Agrees s'

/-- The call gets to its signals. -/
structure Ready (c : Change) (s : Service) (i : Inputs) : Prop where
  admitted : i.admitted
  status : s.processes.entries.lookup "" = some c.start
  agent : s.agent

/-- The guest does not take the signal of the first target whose step fails,
unless an earlier one stands for the same process. -/
def Clean (g : Guest) (attempts : Nat → Attempt) (ids : List String) : Prop :=
  ∀ k, ∀ id ∈ ids[k]?, (∀ j < k, ∀ x ∈ ids[j]?, Succeeds g x (attempts j)) → Takes g id (attempts k) →
    Succeeds g id (attempts k) ∨ id ∈ ids.take k

section Change
variable {sorter : Sorter} {c : Change} {s s' : Service} {i : Inputs} {t : Table} {status : Status}

theorem mem_signalTargets {id : String} : id ∈ signalTargets sorter t status ↔ (id, status) ∈ t.entries := by
  rw [signalTargets, (sorter.perm _).mem_iff, List.mem_map]
  constructor
  · rintro ⟨⟨x, st⟩, hmem, rfl⟩
    obtain ⟨hentry, hst⟩ := List.mem_filter.1 hmem
    obtain rfl : st = status := by simpa using hst
    exact hentry
  · intro hmem
    exact ⟨_, List.mem_filter.2 ⟨hmem, by simp⟩, rfl⟩

theorem set_set_signalTargets (t : Table) (start target : Status) :
    (t.set (signalTargets sorter t start) target).set (signalTargets sorter t start) start = t := by
  apply Table.ext
  simp only [Table.set, List.map_map]
  rw [List.map_congr_left (g := id), List.map_id]
  rintro ⟨x, st⟩ hx
  simp only [Function.comp, mem_signalTargets, id_eq]
  by_cases hmem : (x, start) ∈ t.entries
  · have heq : (x, st) = (x, start) := List.inj_on_of_nodup_map t.nodup hx hmem rfl
    simp only [hmem, if_true, heq]
  · simp only [hmem, if_false]

theorem Change.signal_range (c : Change) : 0 < c.signal ∧ c.signal < 65 := by
  cases c <;> decide

theorem Change.back_range (c : Change) : 0 < c.back ∧ c.back < 65 := by
  cases c <;> decide

theorem Change.signal_effect (c : Change) (b : Bool) : effect c.signal b = c.stops := by
  cases c <;> rfl

theorem Change.back_effect (c : Change) (b : Bool) : effect c.back b = !c.stops := by
  cases c <;> rfl

/-- The targets are in the state the change starts from. -/
theorem Agrees.target (h : Agrees s) {x : String} (hx : x ∈ (signalTargets sorter s.processes c.start).map agentID) :
    s.guest.stopped x = !c.stops := by
  obtain ⟨id, hid, rfl⟩ := List.mem_map.1 hx
  have hagree := h _ (mem_signalTargets.1 hid)
  cases c with
  | pause => exact hagree.1 rfl
  | resume => exact hagree.2 rfl

theorem agrees_congr (s s' : Service) (hprocesses : s'.processes = s.processes)
    (hguest : ∀ id, s'.guest.stopped id = s.guest.stopped id) : Agrees s' ↔ Agrees s := by
  simp only [Agrees, hprocesses, hguest]

theorem rollback_nil {errs : List Error} {ids : List String} (hsub : ∀ id ∈ ids, Error.rollback id ∈ errs)
    (hback : ∀ id, Error.rollback id ∉ errs) : ids = [] :=
  List.eq_nil_iff_forall_not_mem.2 fun id hid => hback id (hsub id hid)

/-- A call that stops at a target. -/
theorem stuck_restored_iff {after final : Guest} {k : Nat} {id : String} {ids : List String}
    (hids : ids = (signalTargets sorter s.processes c.start).map agentID)
    (hstuck : Stuck s.guest s.guest i.attempts c.stops ids 0 k id after)
    (hmoved : ∀ x ∈ (ids.take k).reverse, final.stopped x = !c.stops)
    (hkept : ∀ x, x ∉ (ids.take k).reverse → final.stopped x = after.stopped x) :
    Restored s { s with guest := final } ↔ Agrees s ∧ Clean s.guest i.attempts ids := by
  simp only [List.mem_reverse] at hmoved hkept
  have hzero : ∀ j, i.attempts (0 + j) = i.attempts j := fun j => by rw [Nat.zero_add]
  have htarget : Agrees s → ∀ x ∈ ids, s.guest.stopped x = !c.stops := by
    intro hagrees x hx
    rw [hids] at hx
    exact hagrees.target hx
  have hid : id ∈ ids := List.mem_of_getElem? hstuck.target
  constructor
  · rintro ⟨hguest, hagrees⟩
    have hagrees : Agrees s := (agrees_congr s { s with guest := final } rfl hguest).1 hagrees
    refine ⟨hagrees, fun j x hx hbefore htakes => ?_⟩
    rcases Nat.lt_trichotomy j k with hlt | rfl | hgt
    · exact .inl (hzero j ▸ hstuck.before j hlt x hx)
    · right
      obtain rfl : id = x := Option.some.inj (hstuck.target.symm.trans hx)
      by_contra hnot
      -- the signal stays with the target
      have hstays : final.stopped id = c.stops := by
        rw [hkept id hnot]
        exact hstuck.moved id (.inr ⟨(hzero j).symm ▸ htakes, rfl⟩)
      have hwas : final.stopped id = s.guest.stopped id := hguest id
      rw [hstays, htarget hagrees id hid] at hwas
      cases hc : c.stops <;> rw [hc] at hwas <;> cases hwas
    · exact absurd ((hzero k).symm ▸ hbefore k hgt id hstuck.target) hstuck.fails
  · rintro ⟨hagrees, hclean⟩
    have hguest : ∀ x, final.stopped x = s.guest.stopped x := by
      intro x
      by_cases hx : x ∈ ids.take k
      · rw [hmoved x hx, htarget hagrees x (List.mem_of_mem_take hx)]
      · rw [hkept x hx]
        apply hstuck.kept
        rintro (hmem | ⟨htakes, rfl⟩)
        · exact hx hmem
        · rw [hzero] at htakes
          rcases hclean k x hstuck.target (fun j hj y hy => hzero j ▸ hstuck.before j hj y hy) htakes with hsucceeds | hmem
          · exact hstuck.fails ((hzero k).symm ▸ hsucceeds)
          · exact hx hmem
    exact ⟨hguest, (agrees_congr s { s with guest := final } rfl hguest).2 hagrees⟩

/-- A call that has signalled all its targets, and takes it all back. -/
theorem through_restored_iff {after : Service} {ids : List String}
    (hids : ids = (signalTargets sorter s.processes c.start).map agentID)
    (hthrough : Through s.guest s.guest i.attempts c.stops ids 0 after.guest)
    {final : Service} (hprocesses : final.processes = s.processes)
    (hmoved : ∀ x ∈ ids.reverse, final.guest.stopped x = !c.stops)
    (hkept : ∀ x, x ∉ ids.reverse → final.guest.stopped x = after.guest.stopped x) :
    Restored s final ↔ Agrees s ∧ Clean s.guest i.attempts ids := by
  simp only [List.mem_reverse] at hmoved hkept
  constructor
  · rintro ⟨hguest, hagrees⟩
    refine ⟨(agrees_congr s _ hprocesses hguest).1 hagrees, fun k x hx _ _ => .inl ?_⟩
    have hsucceeds := hthrough.all k x hx
    rwa [Nat.zero_add] at hsucceeds
  · rintro ⟨hagrees, -⟩
    have hguest : ∀ x, final.guest.stopped x = s.guest.stopped x := by
      intro x
      by_cases hx : x ∈ ids
      · rw [hmoved x hx]
        rw [hids] at hx
        exact (hagrees.target hx).symm
      · rw [hkept x hx, hthrough.kept x hx]
    exact ⟨hguest, (agrees_congr s _ hprocesses hguest).2 hagrees⟩

/-- Taking it all back, when its signals get through. -/
theorem undo_restored_iff (hnew : Fresh s.guest i.attempts) (err : Error) {after : Service}
    (hprocesses : after.processes = s.processes.set (signalTargets sorter s.processes c.start) c.target)
    (hthrough : Through s.guest s.guest i.attempts c.stops ((signalTargets sorter s.processes c.start).map agentID) 0
      after.guest)
    (hback : ∀ id, .rollback id ∉ (after.undo c (signalTargets sorter s.processes c.start) i err).2) :
    Restored s (after.undo c (signalTargets sorter s.processes c.start) i err).1
      ↔ Agrees s ∧ Clean s.guest i.attempts ((signalTargets sorter s.processes c.start).map agentID) := by
  have hnil : (rollbackProcessSignals i.attempts c.back ((signalTargets sorter s.processes c.start).map agentID).reverse
      after.guest (signalTargets sorter s.processes c.start).length).2 = [] :=
    rollback_nil (fun id hid => by simp [Service.undo, hid]) hback
  obtain ⟨hmoved, hkept⟩ := rollbackProcessSignals_spec c.back_range c.back_effect hnew.form
    (fun m _ op hop => hthrough.like.keys ▸ hnew.new m op hop) hnil
  apply through_restored_iff rfl hthrough _ hmoved hkept
  simp only [Service.undo, hprocesses]
  exact set_set_signalTargets s.processes c.start c.target

theorem carry_restored_iff (hnew : Fresh s.guest i.attempts)
    (hfails : (s.carry c (signalTargets sorter s.processes c.start) i).2 ≠ [])
    (hback : ∀ id, .rollback id ∉ (s.carry c (signalTargets sorter s.processes c.start) i).2) :
    Restored s (s.carry c (signalTargets sorter s.processes c.start) i).1
      ↔ Agrees s ∧ Clean s.guest i.attempts ((signalTargets sorter s.processes c.start).map agentID) := by
  have hspec := @signalProcessTargets_spec s.guest s.guest i.attempts c.signal c.stops
    ((signalTargets sorter s.processes c.start).map agentID) c.signal_range c.signal_effect hnew ⟨rfl, rfl⟩ 0
  simp only [Service.carry] at hspec hfails hback ⊢
  generalize signalProcessTargets i.attempts c.signal ((signalTargets sorter s.processes c.start).map agentID) s.guest 0
    = r at hspec hfails hback ⊢
  rcases hspec with ⟨hnil, hthrough⟩ | ⟨herr, id, hstuck⟩
  · simp only [hnil, ne_eq, not_true_eq_false, if_false] at hfails hback ⊢
    split
    · rename_i hpersist
      rw [if_pos hpersist] at hback
      exact undo_restored_iff hnew _ rfl hthrough hback
    rename_i hpersist
    rw [if_neg hpersist] at hfails hback
    split
    · rename_i hpublish
      rw [if_pos hpublish] at hback
      exact undo_restored_iff hnew _ rfl hthrough hback
    · rename_i hpublish
      rw [if_neg hpublish] at hfails
      exact absurd rfl hfails
  · rw [if_pos herr] at hback ⊢
    have hnil : (rollbackProcessSignals i.attempts c.back
        (((signalTargets sorter s.processes c.start).map agentID).take r.2.1).reverse r.1 (r.2.1 + 1)).2 = [] :=
      rollback_nil (fun id hid => by simp [hid]) hback
    have hunused : ∀ m, r.2.1 + 1 ≤ m → ∀ op ∈ (i.attempts m).operationID, op ∉ keys r.1 := by
      intro m hm op hop hmem
      -- an ID of a later signal is not the one that may be left in the ledger
      rcases hstuck.keys op hmem with hold | hlast
      · exact hnew.new m op hop hold
      · have heq := hnew.distinct m (0 + r.2.1) op hop hlast
        omega
    obtain ⟨hmoved, hkept⟩ := rollbackProcessSignals_spec c.back_range c.back_effect hnew.form hunused hnil
    exact stuck_restored_iff rfl hstuck hmoved hkept

/-- A failed call leaves the guest and the table as they were exactly if they
agreed before and the guest did not take the signal at which it failed. -/
theorem change_restores_iff (sorter : Sorter) (c : Change) (s : Service) (i : Inputs) (hnew : Fresh s.guest i.attempts)
    (hfails : (s.change sorter c i).2 ≠ []) (hback : ∀ id, .rollback id ∉ (s.change sorter c i).2) :
    Restored s (s.change sorter c i).1 ↔
      Agrees s ∧ (Ready c s i → Clean s.guest i.attempts ((signalTargets sorter s.processes c.start).map agentID)) := by
  have hself : ∀ errs : List Error, ¬Ready c s i → (Restored s (s, errs).1 ↔
      Agrees s ∧ (Ready c s i → Clean s.guest i.attempts ((signalTargets sorter s.processes c.start).map agentID))) := by
    intro errs hnot
    exact ⟨fun h => ⟨h.2, fun hready => absurd hready hnot⟩, fun h => ⟨fun _ => rfl, h.1⟩⟩
  unfold Service.change at hfails hback ⊢
  split
  · rename_i hadmitted
    exact hself _ fun h => hadmitted h.admitted
  rename_i hadmitted
  rw [if_neg hadmitted] at hfails hback
  split
  · rename_i hlookup
    apply hself
    intro h
    rw [h.status] at hlookup
    cases hlookup
  rename_i status hlookup
  simp only [hlookup] at hfails hback
  split
  · rename_i hnot
    apply hself
    intro h
    rcases hnot with hnot | hnot
    · exact hnot (Option.some.inj (hlookup.symm.trans h.status))
    · exact hnot h.agent
  · rename_i hready
    rw [if_neg hready] at hfails hback
    rw [not_or, not_not, not_not] at hready
    have hready : Ready c s i := ⟨not_not.1 hadmitted, hready.1 ▸ hlookup, hready.2⟩
    rw [carry_restored_iff hnew hfails hback]
    exact and_congr_right fun _ => ⟨fun h _ => h, fun h => h hready⟩

end Change

/-! ## Two processes -/

def unsorted : Sorter := ⟨fun l => l, fun _ => .refl _⟩

def sampleTable : Table := ⟨[("", .running), ("a", .running)], by decide⟩

def sampleService : Service where
  processes := sampleTable
  agent := true
  guest := ⟨{ processes := fun _ => some .running }, fun _ => false⟩
  record := sampleTable

def sampleID (last : String) : String := "0000000000000000000000000000000" ++ last

/-- The second signal meets these fates, the others are answered. -/
def sampleAttempts (sends acks : List Fate) : Nat → Attempt
  | 0 => ⟨some (sampleID "0"), none, [.answered], [.answered]⟩
  | 1 => ⟨some (sampleID "1"), none, sends, acks⟩
  | 2 => ⟨some (sampleID "2"), none, [.answered], [.answered]⟩
  | _ => ⟨none, none, [], []⟩

def sampleInputs (sends acks : List Fate) : Inputs where
  admitted := true
  attempts := sampleAttempts sends acks
  persist := .ok
  publish := true
  persistRollback := .ok

theorem sampleAttempts_cases (sends acks : List Fate) (n : Nat) :
    (sampleAttempts sends acks n).operationID = none
      ∨ n < 3 ∧ (sampleAttempts sends acks n).operationID = some (sampleID (Nat.digitChar n).toString) := by
  match n with
  | 0 => exact .inr ⟨by decide, rfl⟩
  | 1 => exact .inr ⟨by decide, rfl⟩
  | 2 => exact .inr ⟨by decide, rfl⟩
  | n + 3 => exact .inl rfl

theorem sampleAttempts_fresh (sends acks : List Fate) : Fresh sampleService.guest (sampleAttempts sends acks) where
  form := by
    intro n op hop
    rcases sampleAttempts_cases sends acks n with hnone | ⟨hn, hsome⟩
    · rw [hnone] at hop
      cases hop
    · rw [hsome] at hop
      cases hop
      have hall : ∀ n < 3, Signals.wellFormed (sampleID (Nat.digitChar n).toString) := by decide +kernel
      exact hall n hn
  new := by
    intro n op _
    exact List.not_mem_nil
  distinct := by
    intro n m op hop hop'
    rcases sampleAttempts_cases sends acks n with hnone | ⟨hn, hsome⟩
    · rw [hnone] at hop
      cases hop
    rcases sampleAttempts_cases sends acks m with hnone | ⟨hm, hsome'⟩
    · rw [hnone] at hop'
      cases hop'
    rw [hsome] at hop
    rw [hsome'] at hop'
    have hall : ∀ n < 3, ∀ m < 3, sampleID (Nat.digitChar m).toString = sampleID (Nat.digitChar n).toString → n = m := by
      decide +kernel
    exact hall n hn m hm (Option.some.inj (hop'.trans hop.symm))

/-- The second process is stopped, and only the acknowledgement of that fails. -/
theorem pause_leaves_stopped :
    Fresh sampleService.guest (sampleInputs [.answered] [.requestLost]).attempts
      ∧ (sampleService.pause unsorted (sampleInputs [.answered] [.requestLost])).2 = [.signal .acknowledge]
      ∧ sampleService.guest.stopped "a" = false
      ∧ (sampleService.pause unsorted (sampleInputs [.answered] [.requestLost])).1.guest.stopped "a" = true :=
  ⟨sampleAttempts_fresh _ _, by decide +kernel, rfl, by decide +kernel⟩

theorem sampleService_agrees : Agrees sampleService := by
  unfold Agrees
  decide +kernel

/-- The request to stop the second process is lost. -/
theorem pause_restores_first :
    Restored sampleService (sampleService.change unsorted .pause (sampleInputs [.requestLost] [])).1 := by
  have hback : (sampleService.change unsorted .pause (sampleInputs [.requestLost] [])).2 = [.signal .transport] := by
    decide +kernel
  refine (change_restores_iff unsorted .pause sampleService (sampleInputs [.requestLost] []) (sampleAttempts_fresh _ _)
    (by rw [hback]; exact nofun) (by rw [hback]; simp)).2 ⟨sampleService_agrees, fun _ => ?_⟩
  intro k id hid _ htakes
  match k with
  | 0 => exact .inl ⟨htakes, rfl, rfl⟩
  | 1 => cases htakes.reached
  | k + 2 => cases hid

end Multikernel.Pause
