import Multikernel.Agent.Signals
/-!
# Killing a process

The shim's `Kill` (`task_control.go`) on one process, over the guest's ledger of
signals. A call notes the signal and an operation ID in the recovery record,
sends it until an answer comes, notes that it has one, acknowledges it to the
guest and clears the note. It holds the service's lock for each of these notes
and not for the requests between them, so calls interleave there; each section
under the lock is one event. Requests and replies get lost and are sent again,
persists fail with or without effect, and the shim dies anywhere and recovers
the note from its record (`recoverExisting` in `recovery.go`).

Calls that overlap share the operation, and the acknowledgement of one lets the
guest deliver the request of another again: three deliveries for two calls
(`kill_delivers_thrice`). Without overlap there is at most one for each
(`kill_at_most_once`).

Left out: other processes' operations, which could only fill the ledger (a
request the server rejects covers that), and the fields of the record that are
not about signals.
-/

namespace Multikernel.Kill
open Lib
open Signals (Manager Failure Delivery Status)

/-! ## The shim -/

structure Pending where
  signal : Nat
  operation : String
  acknowledged : Bool
  deriving DecidableEq, Repr

/-- What the shim and its record keep of the process; `running` is RUNNING or
PAUSED. -/
structure Memory where
  present : Bool := true
  running : Bool := true
  pending : Option Pending := none
  deriving DecidableEq, Repr

/-- A persist works, fails, or fails after it has taken effect. -/
inductive Persist where
  | ok
  | fail
  | late
  deriving DecidableEq, Repr

/-- The record after a persist, and whether it failed. -/
def Persist.persist {α : Type} : Persist → α → α → α × Bool
  | .ok, memory, _ => (memory, false)
  | .fail, _, record => (record, true)
  | .late, memory, _ => (memory, true)

/-- Why a `Kill` fails. -/
inductive Refusal where
  | notFound
  | failedPrecondition
  | otherSignal
  | noIdentity
  | persistIntent
  | transport
  | persistObserved
  | acknowledge
  | refused
  | persistRetired
  | lost
  deriving DecidableEq, Repr

/-- Where a call of `Kill` is; without failures it has returned success. -/
inductive Phase where
  | signalling (op : String)
  | answered (op : String) (refused : Bool)
  | acknowledging (op : String) (refused : Bool)
  | acknowledged (op : String) (refused : Bool)
  | done (op : String) (failures : List Refusal)
  deriving DecidableEq, Repr

structure Call where
  signal : Nat
  phase : Phase
  deriving DecidableEq, Repr

/-- The steps of `recoverExisting` about the note. -/
inductive Recovery where
  | start
  | signalling
  | settling
  | acknowledging
  | clearing
  deriving DecidableEq, Repr

inductive Mode where
  | serving
  | recovering (step : Recovery)
  | down
  deriving DecidableEq, Repr

/-- `issued` is a history variable: the operation IDs made, with their signals. -/
structure World where
  memory : Memory := {}
  agent : Bool := true
  record : Memory := {}
  guest : Manager
  calls : List Call := []
  mode : Mode := .serving
  issued : List (String × Nat) := []

/-- What becomes of a request: it is lost, its reply is lost, it is answered by
the manager, or the server rejects it before that. -/
inductive Fate where
  | requestLost
  | replyLost
  | answered
  | rejected
  deriving DecidableEq, Repr

/-- The operation of a call that is under way. -/
def Phase.active : Phase → Option String
  | .signalling op | .answered op _ | .acknowledging op _ | .acknowledged op _ => some op
  | .done _ _ => none

def World.enter (w : World) (c : Call) : World := { w with calls := w.calls ++ [c] }

def World.move (w : World) (k : Nat) (c : Call) : World := { w with calls := w.calls.set k c }

/-- The first section of `Kill`; the ID is the one made if one is needed. -/
def World.kill (w : World) (signal : Nat) (operationID : Option String) (p : Persist) : World :=
  if w.mode ≠ .serving then w
  else if ¬w.memory.present then w.enter ⟨signal, .done "" [.notFound]⟩
  else if ¬w.memory.running ∨ ¬w.agent then w.enter ⟨signal, .done "" [.failedPrecondition]⟩
  else
    match w.memory.pending with
    | some q =>
      if q.signal ≠ signal then w.enter ⟨signal, .done "" [.otherSignal]⟩
      else w.enter ⟨signal, if q.acknowledged then .acknowledging q.operation false else .signalling q.operation⟩
    | none =>
      match operationID with
      | none => w.enter ⟨signal, .done "" [.noIdentity]⟩
      | some op =>
        let memory := { w.memory with pending := some ⟨signal, op, false⟩ }
        let r := p.persist memory w.record
        let w := { w with record := r.1, issued := w.issued ++ [(op, signal)] }
        if r.2 then w.enter ⟨signal, .done op [.persistIntent]⟩
        else World.enter { w with memory } ⟨signal, .signalling op⟩

def failures (refused : Bool) : List Refusal := if refused then [.refused] else []

/-- One attempt of the request a call is making. -/
def World.attempt (id : String) (w : World) (k : Nat) (fate : Fate) (err : Option Failure) : World :=
  match w.calls[k]? with
  | some ⟨signal, .signalling op⟩ =>
    let r := w.guest.signalProcess id signal op err
    match fate with
    | .requestLost => w
    | .replyLost => { w with guest := r.1 }
    | .answered => World.move { w with guest := r.1 } k ⟨signal, .answered op r.2.isSome⟩
    | .rejected => w.move k ⟨signal, .answered op true⟩
  | some ⟨signal, .acknowledging op refused⟩ =>
    let r := w.guest.acknowledgeSignal id op
    match fate with
    | .requestLost => w
    | .replyLost => { w with guest := r.1 }
    | .answered => World.move { w with guest := r.1 } k
        ⟨signal, if r.2.isSome then .done op (failures refused ++ [.acknowledge]) else .acknowledged op refused⟩
    | .rejected => w.move k ⟨signal, .done op (failures refused ++ [.acknowledge])⟩
  | _ => w

/-- The time for the request is over. -/
def World.giveUp (w : World) (k : Nat) : World :=
  match w.calls[k]? with
  | some ⟨signal, .signalling op⟩ => w.move k ⟨signal, .done op [.transport]⟩
  | some ⟨signal, .acknowledging op refused⟩ => w.move k ⟨signal, .done op (failures refused ++ [.acknowledge])⟩
  | _ => w

/-- The note counts as answered, or not. -/
def Memory.mark (m : Memory) (acknowledged : Bool) : Memory :=
  { m with pending := m.pending.map fun q => { q with acknowledged } }

/-- The process is the one the call knows, and its note is of this operation. -/
def Memory.holds (m : Memory) (op : String) : Bool := m.present && m.pending.any (·.operation = op)

/-- The second section of `Kill`. -/
def World.observe (w : World) (k : Nat) (p : Persist) : World :=
  match w.calls[k]? with
  | some ⟨signal, .answered op refused⟩ =>
    if w.memory.holds op then
      let r := p.persist (w.memory.mark true) w.record
      World.move { w with memory := w.memory.mark !r.2, record := r.1 } k
        ⟨signal, if r.2 then .done op (failures refused ++ [.persistObserved]) else .acknowledging op refused⟩
    else w.move k ⟨signal, .acknowledging op refused⟩
  | _ => w

/-- The last section of `Kill`. -/
def World.clear (w : World) (k : Nat) (p : Persist) : World :=
  match w.calls[k]? with
  | some ⟨signal, .acknowledged op refused⟩ =>
    if w.memory.holds op then
      let cleared := { w.memory with pending := none }
      let r := p.persist cleared w.record
      let memory := if r.2 then { w.memory with pending := some ⟨signal, op, true⟩ } else cleared
      World.move { w with memory, record := r.1 } k
        ⟨signal, .done op (failures refused ++ if r.2 then [.persistRetired] else [])⟩
    else w.move k ⟨signal, .done op (failures refused)⟩
  | _ => w

/-- The last section of `waitProcess`, for a process that has ended: the note
counts as answered, and is acknowledged and cleared under the lock. -/
def World.stopped (id : String) (w : World) (p : Persist) (fate : Fate) (p' : Persist) : World :=
  match w.mode, w.memory.running, w.guest.processes id with
  | .serving, true, some (.stopped _) =>
    let memory := { w.memory.mark true with running := false }
    let r := p.persist memory w.record
    if r.2 then { w with record := r.1 }
    else
      let w := { w with memory, record := r.1 }
      match memory.pending with
      | none => w
      | some q =>
        let a := w.guest.acknowledgeSignal id q.operation
        match fate with
        | .requestLost => w
        | .rejected => w
        | .replyLost => { w with guest := a.1 }
        | .answered =>
          let w := { w with guest := a.1 }
          let r := p'.persist { memory with pending := none } w.record
          { w with record := r.1, memory := if r.2 then memory else { memory with pending := none } }
  | _, _, _ => w

/-! ## Recovery -/

/-- The shim dies: its calls are lost, and its record is what a new one reads. -/
def World.crash (w : World) : World :=
  { w with
    memory := w.record
    agent := true
    mode := .recovering .start
    calls := w.calls.map fun c =>
      match c.phase.active with
      | none => c
      | some op => ⟨c.signal, .done op [.lost]⟩ }

/-- One step of the recovery of the process. -/
def World.recover (id : String) (w : World) (fate : Fate) (err : Option Failure) (p : Persist) : World :=
  match w.mode with
  | .recovering .start =>
    if ¬w.memory.present ∨ ¬w.memory.running then { w with mode := .serving }
    else
      match w.guest.processes id with
      | some (.stopped _) =>
        { w with memory := { w.memory.mark true with running := false }, mode := .recovering .settling }
      | some .running =>
        match w.memory.pending with
        | some ⟨_, _, false⟩ => { w with mode := .recovering .signalling }
        | _ => { w with mode := .recovering .settling }
      | _ => { w with mode := .down }
  | .recovering .signalling =>
    match w.memory.pending with
    | none => w
    | some q =>
      let r := w.guest.signalProcess id q.signal q.operation err
      match fate with
      | .requestLost => w
      | .replyLost => { w with guest := r.1 }
      | .answered => { w with guest := r.1, memory := w.memory.mark true, mode := .recovering .settling }
      | .rejected => { w with memory := w.memory.mark true, mode := .recovering .settling }
  | .recovering .settling =>
    let r := p.persist w.memory w.record
    { w with record := r.1, mode := if r.2 then .down else if w.memory.pending.isSome then .recovering .acknowledging else .serving }
  | .recovering .acknowledging =>
    match w.memory.pending with
    | none => w
    | some q =>
      let r := w.guest.acknowledgeSignal id q.operation
      match fate with
      | .requestLost => w
      | .replyLost => { w with guest := r.1 }
      | .answered =>
        if r.2.isSome then { w with guest := r.1, mode := .down }
        else { w with guest := r.1, memory := { w.memory with pending := none }, mode := .recovering .clearing }
      | .rejected => { w with mode := .down }
  | .recovering .clearing =>
    let r := p.persist w.memory w.record
    { w with record := r.1, mode := if r.2 then .down else .serving }
  | _ => w

/-! ## Runs -/

inductive Event where
  | kill (signal : Nat) (operationID : Option String) (p : Persist)
  | attempt (k : Nat) (fate : Fate) (err : Option Failure)
  | giveUp (k : Nat)
  | observe (k : Nat) (p : Persist)
  | clear (k : Nat) (p : Persist)
  | exit
  | stopped (p : Persist) (fate : Fate) (p' : Persist)
  | deleted
  | persisted
  | crash
  | recover (fate : Fate) (err : Option Failure) (p : Persist)
  | abort

def World.step (id : String) (w : World) : Event → World
  | .kill signal operationID p => w.kill signal operationID p
  | .attempt k fate err => w.attempt id k fate err
  | .giveUp k => w.giveUp k
  | .observe k p => w.observe k p
  | .clear k p => w.clear k p
  | .exit => { w with guest := w.guest.step (.status id (some (.stopped true))) }
  | .stopped p fate p' => w.stopped id p fate p'
  -- a process that has ended leaves the table, and the last one takes the agent
  | .deleted => if w.memory.running then w else { w with memory := { w.memory with present := false }, agent := false }
  -- another part of the service persists what is in memory
  | .persisted => if w.mode = .serving then { w with record := w.memory } else w
  | .crash => w.crash
  | .recover fate err p => w.recover id fate err p
  | .abort => if w.mode = .serving then w else { w with mode := .down }

/-- A process that runs, with a ledger that keeps no operation. -/
def World.init (id : String) : World := { guest := { processes := fun i => if i = id then some .running else none } }

/-- `newSignalOperationID`: 32 hexadecimal digits, made anew. -/
def Fresh (w : World) (op : String) : Prop := Signals.wellFormed op ∧ op ∉ w.issued.map (·.1)

instance (w : World) (op : String) : Decidable (Fresh w op) := inferInstanceAs (Decidable (_ ∧ _))

def New (w : World) : Event → Prop
  | .kill _ operationID _ => ∀ op ∈ operationID, Fresh w op
  | _ => True

/-- No call is under way when another starts. -/
def Alone (w : World) : Event → Prop
  | .kill _ _ _ => ∀ c ∈ w.calls, c.phase.active = none
  | _ => True

instance (w : World) (e : Event) : Decidable (New w e) :=
  match e with
  | .kill _ operationID _ => inferInstanceAs (Decidable (∀ op ∈ operationID, Fresh w op))
  | .attempt _ _ _ | .giveUp _ | .observe _ _ | .clear _ _ | .exit | .stopped _ _ _ | .deleted | .persisted | .crash
  | .recover _ _ _ | .abort => .isTrue trivial

instance (w : World) (e : Event) : Decidable (Alone w e) :=
  match e with
  | .kill _ _ _ => inferInstanceAs (Decidable (∀ c ∈ w.calls, c.phase.active = none))
  | .attempt _ _ _ | .giveUp _ | .observe _ _ | .clear _ _ | .exit | .stopped _ _ _ | .deleted | .persisted | .crash
  | .recover _ _ _ | .abort => .isTrue trivial

/-! ## Calls that overlap -/

def idX : String := "00000000000000000000000000000000"

/-- Two calls share one operation. The first one's acknowledgement is carried
out twice, since its reply is lost, and the second one's request is delivered
again after each. -/
def overlap : List Event :=
  [.kill 10 (some idX) .ok, .kill 10 none .ok,
    .attempt 0 .answered none, .observe 0 .ok, .attempt 0 .replyLost none,
    .attempt 1 .replyLost none, .attempt 0 .answered none, .attempt 1 .answered none]

theorem kill_delivers_thrice :
    Conforms (World.step "init") New (World.init "init") overlap
      ∧ (run (World.step "init") (World.init "init") overlap).guest.delivered.length = 3
      ∧ (run (World.step "init") (World.init "init") overlap).calls.length = 2 := by
  decide +kernel

/-! ## What the guest does with an operation -/

section Guest
variable {id op : String} {signal : Nat} {m m' : Manager}

/-- If it was delivered, a repeated request is answered from the ledger. -/
def Covered (m : Manager) (op : String) : Prop :=
  op ∈ m.delivered.map (·.operation) → op ∈ m.signalResults.map (·.1)

/-- What a request to signal may have done, whether it arrived or not. -/
structure Served (id op : String) (signal : Nat) (m m' : Manager) : Prop where
  processes : m'.processes = m.processes
  sound : Signals.Sound m → Signals.Sound m'
  ledger : (∀ x ∈ m.signalResults, x.2.id = id) → ∀ x ∈ m'.signalResults, x.2.id = id
  delivered : m'.delivered = m.delivered ∨
    (m'.delivered = m.delivered ++ [⟨op, id, signal⟩] ∧ op ∉ m.signalResults.map (·.1) ∧ m.processes id = some .running)
  covered : ∀ o, Covered m o → Covered m' o

theorem served_refl : Served id op signal m m :=
  ⟨rfl, fun h => h, fun h => h, .inl rfl, fun _ h => h⟩

theorem served_signalProcess (id op : String) (signal : Nat) (m : Manager) (err : Option Failure) :
    Served id op signal m (m.signalProcess id signal op err).1 := by
  unfold Manager.signalProcess
  split
  case isFalse => exact served_refl
  rcases Signals.signalOnce_cases m id signal op err with hsame | ⟨hnew, hrunning, -, hs⟩
  · rw [hsame]
    exact served_refl
  have hsound : Signals.Sound m → Signals.Sound (m.signalOnce id signal op err).1 := fun h => h.signalOnce id signal op err
  rw [hs] at hsound ⊢
  constructor
  case processes => rfl
  case sound => exact hsound
  case ledger =>
    intro h x hx
    rcases List.mem_append.1 hx with hx | hx
    · exact h x hx
    · obtain rfl := List.mem_singleton.1 hx
      rfl
  case delivered =>
    by_cases herr : err.isNone
    · exact .inr ⟨by simp only [herr, if_true], hnew, hrunning⟩
    · exact .inl (by simp only [herr]; rfl)
  case covered =>
    intro o h ho
    simp only [List.map_append, List.mem_append, List.map_cons, List.map_nil, List.mem_singleton]
    by_cases heq : o = op
    · exact .inr heq
    · left
      apply h
      split at ho
      · simpa [heq] using ho
      · exact ho

/-- What a request to acknowledge may have done. -/
structure Retired (id op : String) (m m' : Manager) : Prop where
  processes : m'.processes = m.processes
  sound : Signals.Sound m → Signals.Sound m'
  ledger : (∀ x ∈ m.signalResults, x.2.id = id) → ∀ x ∈ m'.signalResults, x.2.id = id
  delivered : m'.delivered = m.delivered
  covered : ∀ o, o ≠ op → Covered m o → Covered m' o

theorem retired_refl : Retired id op m m :=
  ⟨rfl, fun h => h, fun h => h, rfl, fun _ _ h => h⟩

theorem retired_acknowledgeSignal (id op : String) (m : Manager) : Retired id op m (m.acknowledgeSignal id op).1 := by
  have hsound : Signals.Sound m → Signals.Sound (m.acknowledgeSignal id op).1 := fun h => h.acknowledgeSignal id op
  rcases Signals.acknowledgeSignal_cases m id op with hsame | ⟨-, hs⟩
  · rw [hsame]
    exact retired_refl
  rw [hs] at hsound ⊢
  constructor
  case processes => rfl
  case sound => exact hsound
  case ledger => exact fun h x hx => h x (List.mem_of_mem_filter hx)
  case delivered => rfl
  case covered =>
    intro o ho h hmem
    obtain ⟨x, hx, rfl⟩ := List.mem_map.1 (h hmem)
    exact List.mem_map_of_mem (List.mem_filter.2 ⟨hx, by simpa using ho⟩)

/-- The guest takes every acknowledgement of the process's own operations. -/
theorem acknowledgeSignal_ok (hform : Signals.wellFormed op) (hledger : ∀ x ∈ m.signalResults, x.2.id = id) :
    (m.acknowledgeSignal id op).2 = none := by
  unfold Manager.acknowledgeSignal
  rw [if_neg (not_not.2 hform)]
  cases hlookup : m.signalResults.lookup op with
  | none => rfl
  | some result =>
    have hid : result.id = id := hledger _ (Signals.mem_of_lookup hlookup)
    simp only [hid, ne_eq, not_true_eq_false, if_false]

end Guest

/-! ## The invariant -/

/-- The note is of an operation that was issued. -/
def Known (issued : List (String × Nat)) (m : Memory) : Prop := ∀ q ∈ m.pending, (q.operation, q.signal) ∈ issued

/-- The process's operations are issued once and for one signal, and no two
calls are under way. -/
structure Base (id : String) (w : World) : Prop where
  sound : Signals.Sound w.guest
  ledger : ∀ x ∈ w.guest.signalResults, x.2.id = id
  delivered : ∀ d ∈ w.guest.delivered, d.id = id ∧ (d.operation, d.signal) ∈ w.issued
  issued : (w.issued.map (·.1)).Nodup
  form : ∀ x ∈ w.issued, Signals.wellFormed x.1
  count : ∀ signal, (w.issued.map (·.2)).count signal ≤ (w.calls.map (·.signal)).count signal
  memory : Known w.issued w.memory
  record : Known w.issued w.record
  calls : ∀ c ∈ w.calls, ∀ op ∈ c.phase.active, (op, c.signal) ∈ w.issued
  sole : ∃ k : Nat, ∀ (j : Nat) (c : Call), w.calls[j]? = some c → j ≠ k → c.phase.active = none
  idle : w.mode ≠ .serving → ∀ c ∈ w.calls, c.phase.active = none

/-- The notes while the process runs: what may be sent again is covered. -/
structure Notes (g : Manager) (memory record : Memory) : Prop where
  running : memory.present ∧ memory.running ∧ record.present ∧ record.running
  memory : ∀ q ∈ memory.pending, q.acknowledged = false → Covered g q.operation
  record : ∀ q ∈ record.pending, q.acknowledged = false → Covered g q.operation

/-- The record does not send again what the memory has answered. -/
def Settled (memory record : Memory) : Prop :=
  ∀ q ∈ memory.pending, q.acknowledged → ∀ r ∈ record.pending, r.acknowledged = false → r.operation ≠ q.operation

/-- A call under way is the one that is noted. -/
def Fits (memory : Memory) (c : Call) : Prop :=
  match c.phase with
  | .signalling op | .answered op _ => memory.pending = some ⟨c.signal, op, false⟩
  | .acknowledging op _ | .acknowledged op _ => memory.pending = some ⟨c.signal, op, true⟩
  | .done _ _ => True

/-- Whether the note counts as answered at a step of recovery. -/
def Mode.marks : Mode → Option Bool
  | .recovering .signalling => some false
  | .recovering .settling | .recovering .acknowledging => some true
  | .recovering .start | .recovering .clearing | .serving | .down => none

/-- What holds while the process runs. -/
structure Live (w : World) : Prop where
  notes : Notes w.guest w.memory w.record
  settled : w.mode ≠ .recovering .settling → w.mode ≠ .down → Settled w.memory w.record
  noted : ∀ b ∈ w.mode.marks, ∀ q ∈ w.memory.pending, q.acknowledged = b
  fits : ∀ c ∈ w.calls, Fits w.memory c

structure Ordered (id : String) (w : World) : Prop where
  base : Base id w
  once : (w.guest.delivered.map (·.operation)).Nodup
  live : w.guest.processes id = some .running → Live w

section Notes
variable {issued : List (String × Nat)} {m r : Memory} {b : Bool} {q : Pending}

/-- Marking the note leaves its operation. -/
theorem mem_mark (h : q ∈ (m.mark b).pending) :
    q.acknowledged = b ∧ ∃ r ∈ m.pending, r.operation = q.operation ∧ r.signal = q.signal := by
  obtain ⟨r, hr, rfl⟩ := Option.map_eq_some_iff.1 h
  exact ⟨rfl, r, hr, rfl, rfl⟩

theorem Known.mark (h : Known issued m) (b : Bool) : Known issued (m.mark b) := by
  intro q hq
  obtain ⟨-, r, hr, hop, hsig⟩ := mem_mark hq
  rw [← hop, ← hsig]
  exact h r hr

theorem Known.persist (hm : Known issued m) (hr : Known issued r) (p : Persist) : Known issued (p.persist m r).1 := by
  cases p with
  | ok => exact hm
  | fail => exact hr
  | late => exact hm

end Notes

theorem fits_done {memory : Memory} {c : Call} (h : c.phase.active = none) : Fits memory c := by
  obtain ⟨signal, phase⟩ := c
  cases phase with
  | done op failures => trivial
  | signalling | answered | acknowledging | acknowledged => cases h

theorem settled_self (memory : Memory) : Settled memory memory := by
  intro q hq hack r hr hnot
  rw [Option.mem_def] at hq hr
  rw [hq] at hr
  cases hr
  rw [hack] at hnot
  cases hnot

/-- The process runs. -/
abbrev World.Up (w : World) (id : String) : Prop := w.guest.processes id = some .running

/-- No call is under way. -/
abbrev World.Idle (w : World) : Prop := ∀ c ∈ w.calls, c.phase.active = none

section Ordered
variable {id op : String} {signal k : Nat} {w : World} {c c' : Call} {m : Manager} {memory record : Memory} {mode : Mode}

theorem ordered_init (id : String) : Ordered id (World.init id) where
  base :=
    { sound := ⟨rfl, .nil, Nat.zero_le _, fun _ => Nat.le_refl _, by simp [World.init]⟩
      ledger := by simp [World.init]
      delivered := by simp [World.init]
      issued := .nil
      form := by simp [World.init]
      count := fun _ => Nat.le_refl _
      memory := nofun
      record := nofun
      calls := by simp [World.init]
      sole := ⟨0, by simp [World.init]⟩
      idle := by simp [World.init] }
  once := .nil
  live := fun _ =>
    { notes := ⟨⟨rfl, rfl, rfl, rfl⟩, by simp [World.init], by simp [World.init]⟩
      settled := fun _ _ => settled_self _
      noted := nofun
      fits := by simp [World.init] }

/-- Only a shim that serves has calls under way. -/
theorem Base.serving (hb : Base id w) (hc : w.calls[k]? = some c) (hactive : c.phase.active = some op) :
    w.mode = .serving := by
  by_contra hnot
  rw [hb.idle hnot c (List.mem_of_getElem? hc)] at hactive
  cases hactive

theorem mem_enter {d : Call} (hd : d ∈ w.calls ++ [c]) : d = c ∨ d ∈ w.calls := by
  rcases List.mem_append.1 hd with hd | hd
  · exact .inr hd
  · exact .inl (List.mem_singleton.1 hd)

theorem sole_enter {j : Nat} {d : Call} (hidle : w.Idle)
    (hd : (w.calls ++ [c])[j]? = some d) (hj : j ≠ w.calls.length) : d.phase.active = none := by
  rcases Nat.lt_or_gt_of_ne hj with hlt | hgt
  · rw [List.getElem?_append_left hlt] at hd
    exact hidle d (List.mem_of_getElem? hd)
  · rw [List.getElem?_eq_none (by simp; omega)] at hd
    cases hd

/-- A request to signal, where the operation is covered. -/
theorem Ordered.served (h : Ordered id w) (hs : Served id op signal w.guest m) (hissued : (op, signal) ∈ w.issued)
    (hcovered : w.Up id → Covered w.guest op) : Ordered id { w with guest := m } := by
  have hdelivered : ∀ d ∈ m.delivered, d ∈ w.guest.delivered ∨ d = ⟨op, id, signal⟩ := by
    intro d hd
    rcases hs.delivered with heq | ⟨heq, -, -⟩
    · rw [heq] at hd
      exact .inl hd
    · rw [heq, List.mem_append, List.mem_singleton] at hd
      exact hd
  constructor
  case base =>
    refine { h.base with sound := hs.sound h.base.sound, ledger := hs.ledger h.base.ledger, delivered := ?_ }
    intro d hd
    rcases hdelivered d hd with hd | rfl
    · exact h.base.delivered d hd
    · exact ⟨rfl, hissued⟩
  case once =>
    rcases hs.delivered with heq | ⟨heq, hnew, hrunning⟩
    · simp only [heq]
      exact h.once
    · have hfirst : op ∉ w.guest.delivered.map (·.operation) := fun hmem => hnew (hcovered hrunning hmem)
      simp only [heq, List.map_append, List.map_cons, List.map_nil]
      exact List.nodup_append.2 ⟨h.once, List.nodup_singleton _, by
        rintro _ ho _ hop rfl
        exact hfirst (List.mem_singleton.1 hop ▸ ho)⟩
  case live =>
    intro hrunning
    have hlive := h.live (hs.processes ▸ hrunning)
    exact { hlive with notes :=
      { running := hlive.notes.running
        memory := fun q hq hack => hs.covered _ (hlive.notes.memory q hq hack)
        record := fun q hq hack => hs.covered _ (hlive.notes.record q hq hack) } }

/-- An acknowledgement of an operation that is not sent again. -/
theorem Ordered.retired (h : Ordered id w) (hr : Retired id op w.guest m)
    (hnever : w.Up id →
      (∀ q ∈ w.memory.pending, q.acknowledged = false → q.operation ≠ op)
        ∧ ∀ q ∈ w.record.pending, q.acknowledged = false → q.operation ≠ op) : Ordered id { w with guest := m } := by
  constructor
  case base =>
    refine { h.base with sound := hr.sound h.base.sound, ledger := hr.ledger h.base.ledger, delivered := ?_ }
    rw [hr.delivered]
    exact h.base.delivered
  case once =>
    simp only [hr.delivered]
    exact h.once
  case live =>
    intro hrunning
    rw [hr.processes] at hrunning
    have hlive := h.live hrunning
    obtain ⟨hmemory, hrecord⟩ := hnever hrunning
    exact { hlive with notes :=
      { running := hlive.notes.running
        memory := fun q hq hack => hr.covered _ (hmemory q hq hack) (hlive.notes.memory q hq hack)
        record := fun q hq hack => hr.covered _ (hrecord q hq hack) (hlive.notes.record q hq hack) } }

/-- The notes change, with no call under way. -/
theorem Ordered.noted (h : Ordered id w) (hidle : w.Idle)
    (hmemory : Known w.issued memory) (hrecord : Known w.issued record)
    (hnotes : w.Up id → Notes w.guest memory record)
    (hsettled : w.Up id → mode ≠ .recovering .settling → mode ≠ .down → Settled memory record)
    (hnoted : w.Up id → ∀ b ∈ mode.marks, ∀ q ∈ memory.pending, q.acknowledged = b) :
    Ordered id { w with memory := memory, record := record, mode := mode } where
  base := { h.base with memory := hmemory, record := hrecord, idle := fun _ => hidle }
  once := h.once
  live := fun hrunning =>
    { notes := hnotes hrunning
      settled := hsettled hrunning
      noted := hnoted hrunning
      fits := fun c hc => fits_done (hidle c hc) }

/-- The call under way moves on, and the notes with it. -/
theorem Ordered.moved (h : Ordered id w) (hc : w.calls[k]? = some c) (hactive : c.phase.active = some op)
    (hsignal : c'.signal = c.signal) (hsame : ∀ o ∈ c'.phase.active, o = op)
    (hmemory : Known w.issued memory) (hrecord : Known w.issued record)
    (hlive : w.Up id → Notes w.guest memory record ∧ Settled memory record ∧ Fits memory c') :
    Ordered id (World.move { w with memory := memory, record := record } k c') := by
  have hmem : c ∈ w.calls := List.mem_of_getElem? hc
  have hserving := h.base.serving hc hactive
  obtain ⟨i, hi⟩ := h.base.sole
  have hik : i = k := by
    by_contra hne
    rw [hi k c hc (Ne.symm hne)] at hactive
    cases hactive
  have hothers : ∀ j d, (w.calls.set k c')[j]? = some d → j ≠ k → d.phase.active = none := by
    intro j d hd hjk
    rw [List.getElem?_set_ne (Ne.symm hjk)] at hd
    exact hi j d hd (hik ▸ hjk)
  have hset : ∀ d ∈ w.calls.set k c', d = c' ∨ d.phase.active = none := by
    intro d hd
    obtain ⟨j, hj⟩ := List.getElem?_of_mem hd
    by_cases hjk : j = k
    · subst hjk
      rw [List.getElem?_set_self' , hc] at hj
      exact .inl (Option.some.inj hj).symm
    · exact .inr (hothers j d hj hjk)
  constructor
  case base =>
    refine { h.base with memory := hmemory, record := hrecord, count := ?_, calls := ?_, sole := ⟨k, hothers⟩, idle := ?_ }
    · intro s
      have hmap : (w.calls.set k c').map (·.signal) = w.calls.map (·.signal) := by
        rw [List.map_set, hsignal]
        apply List.ext_getElem?
        intro j
        rw [List.getElem?_set]
        split
        · rename_i hkj
          subst hkj
          simpa [hc] using (List.getElem?_eq_some_iff.1 hc).1
        · rfl
      simp only [World.move, hmap]
      exact h.base.count s
    · intro d hd o ho
      rcases hset d hd with rfl | hdone
      · rw [hsame o ho, hsignal]
        exact h.base.calls c hmem op hactive
      · rw [hdone] at ho
        cases ho
    · exact fun hnot => absurd hserving hnot
  case once => exact h.once
  case live =>
    intro hrunning
    obtain ⟨hnotes, hsettled, hfits⟩ := hlive hrunning
    constructor
    case notes => exact hnotes
    case settled => exact fun _ _ => hsettled
    case noted =>
      simp only [World.move, hserving]
      exact nofun
    case fits =>
      intro d hd
      rcases hset d hd with rfl | hdone
      · exact hfits
      · exact fits_done hdone

/-- A call comes while none is under way. -/
theorem Ordered.entered (h : Ordered id w) (hidle : w.Idle) (hserving : w.mode = .serving)
    (hissued : ∀ op ∈ c.phase.active, (op, c.signal) ∈ w.issued)
    (hfits : w.Up id → Fits w.memory c) : Ordered id (w.enter c) := by
  constructor
  case base =>
    refine { h.base with count := ?_, calls := ?_, sole := ⟨_, fun _ _ => sole_enter hidle⟩, idle := fun hnot => absurd hserving hnot }
    · intro s
      simp only [World.enter, List.map_append, List.count_append]
      exact Nat.le_add_right_of_le (h.base.count s)
    · intro d hd
      rcases mem_enter hd with rfl | hd
      · exact hissued
      · exact h.base.calls d hd
  case once => exact h.once
  case live =>
    intro hrunning
    refine { h.live hrunning with fits := ?_ }
    intro d hd
    rcases mem_enter hd with rfl | hd
    · exact hfits hrunning
    · exact fits_done (hidle d hd)

theorem Ordered.memory_of_fits (h : Ordered id w) (hc : w.calls[k]? = some c)
    (hrunning : w.Up id) : Fits w.memory c :=
  (h.live hrunning).fits c (List.mem_of_getElem? hc)

/-- A call under way moves on with the notes as they are. -/
theorem Ordered.move (h : Ordered id w) (hc : w.calls[k]? = some c) (hactive : c.phase.active = some op)
    (hsignal : c'.signal = c.signal) (hsame : ∀ o ∈ c'.phase.active, o = op)
    (hfits : Fits w.memory c → Fits w.memory c') : Ordered id (w.move k c') := by
  apply h.moved hc hactive hsignal hsame h.base.memory h.base.record
  intro hrunning
  have hlive := h.live hrunning
  have hserving := h.base.serving hc hactive
  refine ⟨hlive.notes, hlive.settled ?_ ?_, hfits (h.memory_of_fits hc hrunning)⟩
  · rw [hserving]
    exact nofun
  · rw [hserving]
    exact nofun

/-- A call with an operation of its own comes while none is under way. -/
theorem Ordered.issue (h : Ordered id w) (hidle : w.Idle) (hserving : w.mode = .serving)
    (hfresh : Fresh w op) (hactive : ∀ o ∈ c.phase.active, o = op)
    (hmemory : memory.pending = none ∨ memory.pending = some ⟨c.signal, op, false⟩)
    (hrecord : record.pending = some ⟨c.signal, op, false⟩ ∨ record.pending = w.record.pending)
    (hlive : w.Up id → Notes w.guest memory record ∧ Fits memory c) :
    Ordered id (World.enter { w with memory := memory, record := record, issued := w.issued ++ [(op, c.signal)] } c) := by
  have hold : ∀ {x}, x ∈ w.issued → x ∈ w.issued ++ [(op, c.signal)] := fun hx => List.mem_append_left _ hx
  have hnew : (op, c.signal) ∈ w.issued ++ [(op, c.signal)] := List.mem_append_right _ (List.mem_singleton.2 rfl)
  constructor
  case base =>
    constructor
    case sound => exact h.base.sound
    case ledger => exact h.base.ledger
    case delivered => exact fun d hd => ⟨(h.base.delivered d hd).1, hold (h.base.delivered d hd).2⟩
    case issued =>
      simp only [World.enter, List.map_append, List.map_cons, List.map_nil]
      refine List.nodup_append.2 ⟨h.base.issued, List.nodup_singleton _, ?_⟩
      rintro _ ho _ hop rfl
      exact hfresh.2 (List.mem_singleton.1 hop ▸ ho)
    case form =>
      intro x hx
      rcases List.mem_append.1 hx with hx | hx
      · exact h.base.form x hx
      · obtain rfl := List.mem_singleton.1 hx
        exact hfresh.1
    case count =>
      intro s
      simp only [World.enter, List.map_append, List.count_append, List.map_cons, List.map_nil]
      exact Nat.add_le_add_right (h.base.count s) _
    case memory =>
      intro q hq
      simp only [World.enter, Option.mem_def] at hq ⊢
      rcases hmemory with hnone | hsome
      · rw [hnone] at hq
        cases hq
      · rw [hsome] at hq
        cases hq
        exact hnew
    case record =>
      intro q hq
      simp only [World.enter, Option.mem_def] at hq ⊢
      rcases hrecord with hsome | hsame
      · rw [hsome] at hq
        cases hq
        exact hnew
      · rw [hsame] at hq
        exact hold (h.base.record q hq)
    case calls =>
      intro d hd o ho
      rcases mem_enter hd with rfl | hd
      · rw [hactive o ho]
        exact hnew
      · exact hold (h.base.calls d hd o ho)
    case sole => exact ⟨_, fun _ _ => sole_enter hidle⟩
    case idle => exact fun hnot => absurd hserving hnot
  case once => exact h.once
  case live =>
    intro hrunning
    obtain ⟨hnotes, hfits⟩ := hlive hrunning
    constructor
    case notes => exact hnotes
    case settled =>
      intro _ _ q hq hack
      rcases hmemory with hnone | hsome
      · rw [Option.mem_def, World.enter, hnone] at hq
        cases hq
      · rw [Option.mem_def, World.enter, hsome] at hq
        cases hq
        cases hack
    case noted =>
      simp only [World.enter, hserving]
      exact nofun
    case fits =>
      intro d hd
      rcases mem_enter hd with rfl | hd
      · exact hfits
      · exact fits_done (hidle d hd)

theorem Ordered.kill (h : Ordered id w) (signal : Nat) (operationID : Option String) (p : Persist)
    (hnew : ∀ op ∈ operationID, Fresh w op) (halone : w.Idle) :
    Ordered id (w.kill signal operationID p) := by
  unfold World.kill
  split
  · exact h
  rename_i hserving
  rw [not_not] at hserving
  have hdone : ∀ op failures, Ordered id (w.enter ⟨signal, .done op failures⟩) :=
    fun op failures => h.entered halone hserving (by simp [Phase.active]) fun _ => trivial
  split
  · exact hdone _ _
  split
  · exact hdone _ _
  split
  · rename_i q hq
    split
    · exact hdone _ _
    rename_i hsignal
    obtain ⟨s, o, acknowledged⟩ := q
    obtain rfl : s = signal := not_not.1 hsignal
    have hissued := h.base.memory _ hq
    cases acknowledged with
    | true | false =>
      apply h.entered halone hserving
      · rintro _ ⟨⟩
        exact hissued
      · exact fun _ => hq
  · rename_i hnone
    split
    · exact hdone _ _
    rename_i op
    have hfresh := hnew op rfl
    -- a new operation has not been delivered
    have hcovered : Covered w.guest op := by
      intro hmem
      obtain ⟨d, hd, rfl⟩ := List.mem_map.1 hmem
      exact absurd (List.mem_map_of_mem (h.base.delivered d hd).2) hfresh.2
    have hsome : ∀ q ∈ some (Pending.mk signal op false), q.acknowledged = false → Covered w.guest q.operation := by
      rintro _ ⟨⟩ _
      exact hcovered
    cases p with
    | ok =>
      refine h.issue (c := ⟨signal, .signalling op⟩) halone hserving hfresh (by rintro _ ⟨⟩; rfl) (.inr rfl) (.inl rfl) ?_
      intro hrunning
      have hnotes := (h.live hrunning).notes
      exact ⟨⟨⟨hnotes.running.1, hnotes.running.2.1, hnotes.running.1, hnotes.running.2.1⟩, hsome, hsome⟩, rfl⟩
    | fail =>
      refine h.issue (c := ⟨signal, .done op [.persistIntent]⟩) halone hserving hfresh nofun (.inl hnone) (.inr rfl) ?_
      intro hrunning
      exact ⟨(h.live hrunning).notes, trivial⟩
    | late =>
      refine h.issue (c := ⟨signal, .done op [.persistIntent]⟩) halone hserving hfresh nofun (.inl hnone) (.inl rfl) ?_
      intro hrunning
      have hnotes := (h.live hrunning).notes
      exact ⟨⟨⟨hnotes.running.1, hnotes.running.2.1, hnotes.running.1, hnotes.running.2.1⟩, hnotes.memory, hsome⟩, trivial⟩

/-- An attempt is lost, or it serves the request and the call may have its
answer. -/
theorem attempt_cases (id : String) (w : World) (k : Nat) (fate : Fate) (err : Option Failure) :
    w.attempt id k fate err = w
      ∨ (∃ signal op m, w.calls[k]? = some ⟨signal, .signalling op⟩ ∧ Served id op signal w.guest m
          ∧ (w.attempt id k fate err = { w with guest := m }
            ∨ ∃ refused, w.attempt id k fate err = World.move { w with guest := m } k ⟨signal, .answered op refused⟩
              ∧ (refused = false → m = (w.guest.signalProcess id signal op err).1
                ∧ (w.guest.signalProcess id signal op err).2 = none)))
      ∨ ∃ signal op refused m, w.calls[k]? = some ⟨signal, .acknowledging op refused⟩ ∧ Retired id op w.guest m
          ∧ (w.attempt id k fate err = { w with guest := m }
            ∨ w.attempt id k fate err = World.move { w with guest := m } k ⟨signal, .acknowledged op refused⟩
            ∨ (w.attempt id k fate err
                = World.move { w with guest := m } k ⟨signal, .done op (failures refused ++ [.acknowledge])⟩
              ∧ (fate = .rejected ∨ (w.guest.acknowledgeSignal id op).2 ≠ none))) := by
  unfold World.attempt
  split
  · rename_i signal op hc
    right; left
    cases fate with
    | requestLost => exact ⟨signal, op, w.guest, hc, served_refl, .inl rfl⟩
    | replyLost => exact ⟨signal, op, _, hc, served_signalProcess id op signal w.guest err, .inl rfl⟩
    | answered =>
      refine ⟨signal, op, _, hc, served_signalProcess id op signal w.guest err, .inr ⟨_, rfl, fun hok => ⟨rfl, ?_⟩⟩⟩
      rwa [Option.isSome_eq_false_iff, Option.isNone_iff_eq_none] at hok
    | rejected => exact ⟨signal, op, w.guest, hc, served_refl, .inr ⟨true, rfl, nofun⟩⟩
  · rename_i signal op refused hc
    right; right
    cases fate with
    | requestLost => exact ⟨signal, op, refused, w.guest, hc, retired_refl, .inl rfl⟩
    | replyLost => exact ⟨signal, op, refused, _, hc, retired_acknowledgeSignal id op w.guest, .inl rfl⟩
    | answered =>
      refine ⟨signal, op, refused, _, hc, retired_acknowledgeSignal id op w.guest, .inr ?_⟩
      simp only
      split
      · rename_i hsome
        exact .inr ⟨rfl, .inr (Option.isSome_iff_ne_none.1 hsome)⟩
      · exact .inl rfl
    | rejected => exact ⟨signal, op, refused, w.guest, hc, retired_refl, .inr (.inr ⟨rfl, .inl rfl⟩)⟩
  · exact .inl rfl

theorem Ordered.attempt (h : Ordered id w) (k : Nat) (fate : Fate) (err : Option Failure) :
    Ordered id (w.attempt id k fate err) := by
  rcases attempt_cases id w k fate err with hsame | ⟨signal, op, m, hc, hs, hcase⟩ | ⟨signal, op, refused, m, hc, hr, hcase⟩
  · rw [hsame]
    exact h
  · have hmem := List.mem_of_getElem? hc
    have hserved : Ordered id { w with guest := m } := by
      apply h.served hs (h.base.calls _ hmem op rfl)
      intro hrunning
      exact (h.live hrunning).notes.memory _ (h.memory_of_fits hc hrunning) rfl
    rcases hcase with heq | ⟨refused, heq, -⟩
    · rw [heq]
      exact hserved
    · rw [heq]
      exact hserved.move hc rfl rfl (by rintro _ ⟨⟩; rfl) fun hfits => hfits
  · have hretired : Ordered id { w with guest := m } := by
      apply h.retired hr
      intro hrunning
      have hnote : w.memory.pending = some ⟨signal, op, true⟩ := h.memory_of_fits hc hrunning
      have hserving := h.base.serving hc rfl
      constructor
      · intro q hq hack
        rw [hnote] at hq
        cases hq
        cases hack
      · exact fun q hq hack => (h.live hrunning).settled (by simp [hserving]) (by simp [hserving]) _ hnote rfl q hq hack
    rcases hcase with heq | heq | ⟨heq, -⟩
    · rw [heq]
      exact hretired
    · rw [heq]
      exact hretired.move hc rfl rfl (by rintro _ ⟨⟩; rfl) fun hfits => hfits
    · rw [heq]
      exact hretired.move hc rfl rfl nofun fun _ => trivial

theorem Ordered.giveUp (h : Ordered id w) (k : Nat) : Ordered id (w.giveUp k) := by
  unfold World.giveUp
  split
  · rename_i hc
    exact h.move hc rfl rfl nofun fun _ => trivial
  · rename_i hc
    exact h.move hc rfl rfl nofun fun _ => trivial
  · exact h

theorem Ordered.observe (h : Ordered id w) (k : Nat) (p : Persist) : Ordered id (w.observe k p) := by
  unfold World.observe
  split
  · rename_i signal op refused hc
    have hmarked := h.base.memory.mark
    have hnote : w.Up id → w.memory.pending = some ⟨signal, op, false⟩ := h.memory_of_fits hc
    have hcovered : w.Up id → ∀ q ∈ (w.memory.mark false).pending,
        q.acknowledged = false → Covered w.guest q.operation := by
      intro hrunning q hq _
      obtain ⟨-, r, hr, hop, -⟩ := mem_mark hq
      obtain rfl : Pending.mk signal op false = r := Option.some.inj ((hnote hrunning).symm.trans hr)
      rw [← hop]
      exact (h.live hrunning).notes.memory _ hr rfl
    have hanswered : ∀ q ∈ (w.memory.mark true).pending, q.acknowledged = false → Covered w.guest q.operation := by
      intro q hq hack
      rw [(mem_mark hq).1] at hack
      cases hack
    have hunsettled : ∀ record, Settled (w.memory.mark false) record := by
      intro record q hq hack
      rw [(mem_mark hq).1] at hack
      cases hack
    split
    · cases p with
      | ok =>
        refine h.moved hc rfl rfl (by rintro _ ⟨⟩; rfl) (hmarked true) (hmarked true) fun hrunning => ?_
        have hup := (h.live hrunning).notes.running
        refine ⟨⟨⟨hup.1, hup.2.1, hup.1, hup.2.1⟩, hanswered, hanswered⟩, settled_self _, ?_⟩
        simp [Fits, Memory.mark, Persist.persist, hnote hrunning]
      | fail =>
        refine h.moved hc rfl rfl nofun (hmarked false) h.base.record fun hrunning => ?_
        have hnotes := (h.live hrunning).notes
        exact ⟨⟨hnotes.running, hcovered hrunning, hnotes.record⟩, hunsettled _, trivial⟩
      | late =>
        refine h.moved hc rfl rfl nofun (hmarked false) (hmarked true) fun hrunning => ?_
        have hup := (h.live hrunning).notes.running
        exact ⟨⟨⟨hup.1, hup.2.1, hup.1, hup.2.1⟩, hcovered hrunning, hanswered⟩, hunsettled _, trivial⟩
    · rename_i hholds
      refine h.moved hc rfl rfl (by rintro _ ⟨⟩; rfl) h.base.memory h.base.record fun hrunning => ?_
      -- while the process runs, the note is the call's
      refine absurd ?_ hholds
      simp [Memory.holds, hnote hrunning, (h.live hrunning).notes.running.1]
  · exact h

theorem Ordered.clear (h : Ordered id w) (k : Nat) (p : Persist) : Ordered id (w.clear k p) := by
  unfold World.clear
  split
  · rename_i signal op refused hc
    have hissued : (op, signal) ∈ w.issued := h.base.calls _ (List.mem_of_getElem? hc) op rfl
    have hrestored : Known w.issued { w.memory with pending := some ⟨signal, op, true⟩ } := by
      rintro _ ⟨⟩
      exact hissued
    have hanswered : ∀ q ∈ some (Pending.mk signal op true), q.acknowledged = false → Covered w.guest q.operation := by
      rintro _ ⟨⟩ hack
      cases hack
    have hnote : w.Up id → w.memory.pending = some ⟨signal, op, true⟩ := h.memory_of_fits hc
    have hserving := h.base.serving hc rfl
    split
    · cases p with
      | ok =>
        refine h.moved hc rfl rfl nofun nofun nofun fun hrunning => ?_
        have hup := (h.live hrunning).notes.running
        exact ⟨⟨⟨hup.1, hup.2.1, hup.1, hup.2.1⟩, nofun, nofun⟩, settled_self _, trivial⟩
      | fail =>
        refine h.moved hc rfl rfl nofun hrestored h.base.record fun hrunning => ?_
        have hlive := h.live hrunning
        refine ⟨⟨hlive.notes.running, hanswered, hlive.notes.record⟩, ?_, trivial⟩
        rintro _ ⟨⟩ _
        exact hlive.settled (by simp [hserving]) (by simp [hserving]) _ (hnote hrunning) rfl
      | late =>
        refine h.moved hc rfl rfl nofun hrestored nofun fun hrunning => ?_
        have hup := (h.live hrunning).notes.running
        exact ⟨⟨⟨hup.1, hup.2.1, hup.1, hup.2.1⟩, hanswered, nofun⟩, fun _ _ _ _ => nofun, trivial⟩
    · exact h.move hc rfl rfl nofun fun _ => trivial
  · exact h

/-- Once the process has ended, only that operations are issued once matters. -/
theorem Ordered.ended (h : Ordered id w) (hended : ¬w.Up id)
    (hmemory : Known w.issued memory) (hrecord : Known w.issued record) :
    Ordered id { w with memory := memory, record := record } where
  base := { h.base with memory := hmemory, record := hrecord }
  once := h.once
  live := fun hrunning => absurd hrunning hended

theorem Ordered.stopped (h : Ordered id w) (p : Persist) (fate : Fate) (p' : Persist) :
    Ordered id (w.stopped id p fate p') := by
  unfold World.stopped
  split
  · rename_i waited _ _ hstopped
    have hended : ¬w.Up id := by simp [hstopped]
    have hmarked : Known w.issued { w.memory.mark true with running := false } := h.base.memory.mark true
    have hpersisted := hmarked.persist h.base.record p
    simp only
    split
    · exact h.ended hended h.base.memory hpersisted
    have hnoted := h.ended hended hmarked hpersisted
    split
    · exact hnoted
    rename_i q hq
    have hretired := hnoted.retired (retired_acknowledgeSignal id q.operation w.guest) fun hrunning => absurd hrunning hended
    cases fate with
    | requestLost | rejected => exact hnoted
    | replyLost => exact hretired
    | answered =>
      have hstill : (w.guest.acknowledgeSignal id q.operation).1.processes id ≠ some .running := by
        rw [(retired_acknowledgeSignal id q.operation w.guest).processes]
        exact hended
      have hcleared : Known w.issued { w.memory.mark true with running := false, pending := none } := nofun
      apply hretired.ended hstill
      · split
        · exact hmarked
        · exact hcleared
      · exact hcleared.persist hpersisted p'
  · exact h

theorem Ordered.crash (h : Ordered id w) : Ordered id w.crash := by
  have hdone : ∀ c ∈ w.crash.calls, c.phase.active = none ∧ ∃ d ∈ w.calls, d.signal = c.signal := by
    intro c hc
    obtain ⟨d, hd, rfl⟩ := List.mem_map.1 hc
    cases hactive : d.phase.active with
    | none => exact ⟨hactive, d, hd, rfl⟩
    | some op => exact ⟨rfl, d, hd, rfl⟩
  have hsignals : w.crash.calls.map (·.signal) = w.calls.map (·.signal) := by
    simp only [World.crash, List.map_map]
    apply List.map_congr_left
    intro c _
    simp only [Function.comp]
    split
    · rfl
    · rfl
  constructor
  case base =>
    constructor
    case sound => exact h.base.sound
    case ledger => exact h.base.ledger
    case delivered => exact h.base.delivered
    case issued => exact h.base.issued
    case form => exact h.base.form
    case count =>
      intro s
      rw [hsignals]
      exact h.base.count s
    case memory => exact h.base.record
    case record => exact h.base.record
    case calls =>
      intro c hc op hop
      rw [(hdone c hc).1] at hop
      cases hop
    case sole => exact ⟨0, fun j c hc _ => (hdone c (List.mem_of_getElem? hc)).1⟩
    case idle => exact fun _ c hc => (hdone c hc).1
  case once => exact h.once
  case live =>
    intro hrunning
    have hnotes := (h.live hrunning).notes
    have hup := hnotes.running
    exact
      { notes := ⟨⟨hup.2.2.1, hup.2.2.2, hup.2.2.1, hup.2.2.2⟩, hnotes.record, hnotes.record⟩
        settled := fun _ _ => settled_self _
        noted := nofun
        fits := fun c hc => fits_done (hdone c hc).1 }

/-- Recovery goes on with the notes as they are, or fails. -/
theorem Ordered.turn (h : Ordered id w) (hidle : w.Idle)
    (hsettled : w.Up id → mode ≠ .recovering .settling → mode ≠ .down →
      Settled w.memory w.record)
    (hnoted : w.Up id → ∀ b ∈ mode.marks, ∀ q ∈ w.memory.pending, q.acknowledged = b) :
    Ordered id { w with mode := mode } :=
  h.noted hidle h.base.memory h.base.record (fun hrunning => (h.live hrunning).notes) hsettled hnoted

theorem Ordered.down (h : Ordered id w) (hidle : w.Idle) : Ordered id { w with mode := .down } :=
  h.turn hidle (fun _ _ hnot => absurd rfl hnot) nofun

/-- Recovery has its answer, and the note is marked. -/
theorem Ordered.mark (h : Ordered id w) (hidle : w.Idle) :
    Ordered id { w with memory := w.memory.mark true, mode := .recovering .settling } := by
  apply h.noted hidle (h.base.memory.mark true) h.base.record
  · intro hrunning
    have hnotes := (h.live hrunning).notes
    refine ⟨hnotes.running, ?_, hnotes.record⟩
    intro q hq hack
    rw [(mem_mark hq).1] at hack
    cases hack
  · exact fun _ hnot => absurd rfl hnot
  · rintro _ _ ⟨⟩ q hq
    exact (mem_mark hq).1

/-- Recovery persists, and does not go on if that fails. -/
theorem Ordered.persist (h : Ordered id w) (hidle : w.Idle) (p : Persist)
    (hdown : p ≠ .ok → mode = .down)
    (hnoted : w.Up id → ∀ b ∈ mode.marks, ∀ q ∈ w.memory.pending, q.acknowledged = b) :
    Ordered id { w with record := (p.persist w.memory w.record).1, mode := mode } := by
  have hcopied : Ordered id { w with record := w.memory, mode := mode } := by
    apply h.noted hidle h.base.memory h.base.memory _ (fun _ _ _ => settled_self _) hnoted
    intro hrunning
    obtain ⟨⟨hpresent, hrunning, -, -⟩, hmemory, -⟩ := (h.live hrunning).notes
    exact ⟨⟨hpresent, hrunning, hpresent, hrunning⟩, hmemory, hmemory⟩
  cases p with
  | ok => exact hcopied
  | fail =>
    rw [hdown nofun]
    exact h.down hidle
  | late => exact hcopied

theorem Ordered.recover (h : Ordered id w) (fate : Fate) (err : Option Failure) (p : Persist) :
    Ordered id (w.recover id fate err p) := by
  have hidle := h.base.idle
  unfold World.recover
  split
  · rename_i hmode
    have hidle := hidle (by simp [hmode])
    have hsettled : w.Up id → Settled w.memory w.record := fun hrunning =>
      (h.live hrunning).settled (by simp [hmode]) (by simp [hmode])
    split
    · exact h.turn hidle (fun hrunning _ _ => hsettled hrunning) nofun
    split
    · rename_i waited hstopped
      have hended : ¬w.Up id := by simp [hstopped]
      exact h.noted hidle (h.base.memory.mark true) h.base.record (fun hrunning => absurd hrunning hended)
        (fun hrunning => absurd hrunning hended) fun hrunning => absurd hrunning hended
    · split
      · rename_i signal op hnote
        apply h.turn hidle (fun hrunning _ _ => hsettled hrunning)
        rintro _ _ ⟨⟩ q hq
        obtain rfl : Pending.mk signal op false = q := Option.some.inj (hnote.symm.trans hq)
        rfl
      · rename_i hanswered
        apply h.turn hidle (fun _ hnot => absurd rfl hnot)
        rintro _ _ ⟨⟩ ⟨signal, op, acknowledged⟩ hq
        cases acknowledged with
        | true => rfl
        | false => exact absurd hq (hanswered signal op)
    · exact h.down hidle
  · rename_i hmode
    have hidle := hidle (by simp [hmode])
    split
    · exact h
    rename_i q hq
    have hserved : Ordered id { w with guest := (w.guest.signalProcess id q.signal q.operation err).1 } := by
      apply h.served (served_signalProcess id q.operation q.signal w.guest err) (h.base.memory q hq)
      intro hrunning
      have hlive := h.live hrunning
      exact hlive.notes.memory q hq (hlive.noted false (by rw [hmode]; rfl) q hq)
    cases fate with
    | requestLost => exact h
    | replyLost => exact hserved
    | answered => exact hserved.mark hidle
    | rejected => exact h.mark hidle
  · rename_i hmode
    apply h.persist (hidle (by simp [hmode])) p
    · intro hp
      cases p with
      | ok => exact absurd rfl hp
      | fail | late => rfl
    · intro hrunning b hb
      have hnoted := (h.live hrunning).noted true (by rw [hmode]; rfl)
      split at hb
      · cases hb
      split at hb
      · cases hb
        exact hnoted
      · cases hb
  · rename_i hmode
    have hidle := hidle (by simp [hmode])
    split
    · exact h
    rename_i q hq
    have hretired : Ordered id { w with guest := (w.guest.acknowledgeSignal id q.operation).1 } := by
      apply h.retired (retired_acknowledgeSignal id q.operation w.guest)
      intro hrunning
      have hlive := h.live hrunning
      have hack : q.acknowledged = true := hlive.noted true (by rw [hmode]; rfl) q hq
      constructor
      · intro q' hq' hack'
        obtain rfl : q = q' := Option.some.inj (hq.symm.trans hq')
        rw [hack] at hack'
        cases hack'
      · exact hlive.settled (by simp [hmode]) (by simp [hmode]) q hq hack
    cases fate with
    | requestLost => exact h
    | replyLost => exact hretired
    | answered =>
      simp only
      split
      · exact hretired.down hidle
      · apply hretired.noted hidle (by rintro _ ⟨⟩) h.base.record
        · intro hrunning
          have hnotes := (hretired.live hrunning).notes
          exact ⟨hnotes.running, by rintro _ ⟨⟩, hnotes.record⟩
        · intro _ _ _ q hq
          cases hq
        · exact fun _ => nofun
    | rejected => exact h.down hidle
  · rename_i hmode
    apply h.persist (hidle (by simp [hmode])) p
    · intro hp
      cases p with
      | ok => exact absurd rfl hp
      | fail | late => rfl
    · intro _ b hb
      split at hb
      · cases hb
      · cases hb
  · exact h

theorem Ordered.step (h : Ordered id w) (e : Event) (hnew : New w e) (halone : Alone w e) : Ordered id (w.step id e) := by
  cases e with
  | kill signal operationID p => exact h.kill signal operationID p hnew halone
  | attempt k fate err => exact h.attempt k fate err
  | giveUp k => exact h.giveUp k
  | observe k p => exact h.observe k p
  | clear k p => exact h.clear k p
  | exit =>
    exact
      { base := { h.base with sound := h.base.sound.step (.status id (some (.stopped true))) }
        once := h.once
        live := fun hrunning => by simp [World.step, Manager.step] at hrunning }
  | stopped p fate p' => exact h.stopped p fate p'
  | deleted =>
    simp only [World.step]
    split
    · exact h
    · rename_i hstopped
      exact
        { base := { h.base with }
          once := h.once
          live := fun hrunning => absurd (h.live hrunning).notes.running.2.1 hstopped }
  | persisted =>
    simp only [World.step]
    split
    · rename_i hserving
      refine ⟨{ h.base with record := h.base.memory }, h.once, fun hrunning => ?_⟩
      have hlive := h.live hrunning
      obtain ⟨⟨hpresent, hrunning, -, -⟩, hmemory, -⟩ := hlive.notes
      exact { hlive with
        notes := ⟨⟨hpresent, hrunning, hpresent, hrunning⟩, hmemory, hmemory⟩
        settled := fun _ _ => settled_self _ }
    · exact h
  | crash => exact h.crash
  | recover fate err p => exact h.recover fate err p
  | abort =>
    simp only [World.step]
    split
    · exact h
    · rename_i hnot
      exact h.down (h.base.idle hnot)

theorem ordered_run {es : List Event}
    (hes : Conforms (World.step id) (fun w e => New w e ∧ Alone w e) (World.init id) es) :
    Ordered id (run (World.step id) (World.init id) es) :=
  hes.inv (ordered_init id) fun _ e h hK => h.step e hK.1 hK.2

/-- Every operation is issued by a call with its signal and delivered once. -/
theorem Ordered.delivered_le_calls (h : Ordered id w) (signal : Nat) :
    (w.guest.delivered.map (·.signal)).count signal ≤ (w.calls.map (·.signal)).count signal := by
  have hnodup : (w.guest.delivered.map fun d => (d.operation, d.signal)).Nodup := by
    apply List.Nodup.of_map Prod.fst
    rw [List.map_map]
    exact h.once
  obtain ⟨l, hperm, hsub⟩ : (w.guest.delivered.map fun d => (d.operation, d.signal)).Subperm w.issued := by
    apply List.subperm_of_subset hnodup
    intro x hx
    obtain ⟨d, hd, rfl⟩ := List.mem_map.1 hx
    exact (h.base.delivered d hd).2
  calc (w.guest.delivered.map (·.signal)).count signal
      = ((w.guest.delivered.map fun d => (d.operation, d.signal)).map (·.2)).count signal := by rw [List.map_map]; rfl
    _ = (l.map (·.2)).count signal := ((hperm.map _).count_eq signal).symm
    _ ≤ (w.issued.map (·.2)).count signal := (hsub.map _).count_le signal
    _ ≤ (w.calls.map (·.signal)).count signal := h.base.count signal

end Ordered

/-- Calls that do not overlap: the signals the process gets are no more than the
calls with them, whatever is lost, fails or dies. The manager keeps its ledger
whatever else it is asked. -/
theorem kill_at_most_once (id : String) :
    (∀ es, Conforms (World.step id) (fun w e => New w e ∧ Alone w e) (World.init id) es → ∀ signal,
      ((run (World.step id) (World.init id) es).guest.delivered.map (·.signal)).count signal
        ≤ ((run (World.step id) (World.init id) es).calls.map (·.signal)).count signal)
    ∧ ∀ es : List Signals.Event, Signals.Sound (run Manager.step {} es) :=
  ⟨fun _ hes signal => (ordered_run hes).delivered_le_calls signal, Signals.sound_run⟩

/-- A signal whose reply is lost, a crash, the recovery and a second call. -/
def recovered : List Event :=
  [.kill 10 (some idX) .ok, .attempt 0 .replyLost none, .crash, .recover .answered none .ok, .recover .answered none .ok,
    .recover .answered none .ok, .recover .answered none .ok, .recover .answered none .ok,
    .kill 10 (some "00000000000000000000000000000001") .ok, .attempt 1 .answered none, .observe 1 .ok,
    .attempt 1 .answered none, .clear 1 .ok]

theorem kill_at_most_once_recovered :
    ((run (World.step "init") (World.init "init") recovered).guest.delivered.map (·.signal)).count 10
      ≤ ((run (World.step "init") (World.init "init") recovered).calls.map (·.signal)).count 10 :=
  (kill_at_most_once "init").1 recovered (by decide +kernel) 10

end Multikernel.Kill
