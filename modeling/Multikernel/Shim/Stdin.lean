import Multikernel.Lib.Logic
import Multikernel.Lib.Runs
/-!
# A process's standard input

The shim's pump (`process_streams.go`) reads the client's FIFO, keeps the chunk
in its recovery record until the guest has it, and writes it with its offset;
`Manager.WriteAt` (`runtime/agent/manager.go`) takes a chunk once however often
it arrives. Requests and replies get lost or are late, persists fail with or
without effect, and the shim dies before any call and starts again from the last
record.

A read takes the bytes out of the FIFO before the record has them. If the shim
never dies in between, the guest's input is a piece of what was read, from its
start (`stdin_in_order`). Otherwise a chunk is skipped (`stdin_skips`). The input
of a process with a terminal is closed with a byte of the agent's own.
-/

namespace Multikernel.Stdin
open Lib

/-! ## The guest -/

/-- A chunk of which a part is written. The source keeps its digest. -/
structure Begun where
  start : Nat
  data : List UInt8
  accepted : Nat
  deriving DecidableEq, Repr

/-- The agent's state of one process. `written` is a history variable: what the
process's standard input has received. -/
structure Guest where
  terminal : Bool := false
  running : Bool := true
  closed : Bool := false
  offset : Nat := 0
  last : Option (Nat × List UInt8) := none
  begun : Option Begun := none
  written : List UInt8 := []
  deriving DecidableEq, Repr

/-- The results of `stdin.Write`, one after another: how many bytes it took, and
whether it failed. A writer that never returns leaves the rest of the chunk. -/
abbrev Writes := List (Nat × Bool)

/-- The loop of `WriteAt`: what is taken of the rest of a chunk, and whether that
is all of it. -/
def writeRemaining : List UInt8 → Writes → List UInt8 × Bool
  | remaining, [] => ([], remaining.isEmpty)
  | remaining, (n, failed) :: writes =>
    if remaining.length ≤ n then
      (remaining, true)
    else if failed ∨ n = 0 then
      (remaining.take n, false)
    else
      let r := writeRemaining (remaining.drop n) writes
      (remaining.take n ++ r.1, r.2)

def maxOffset : Nat := 18446744073709551615

def Guest.writeAt (g : Guest) (offset : Nat) (data : List UInt8) (writes : Writes) : Guest × Except String Nat :=
  if data = [] ∨ data.length > 65536 then
    (g, .error "stdin chunk must contain between 1 byte and 64 KiB")
  else if g.last = some (offset, data) ∧ g.offset = offset + data.length then
    (g, .ok g.offset)
  else if g.begun.any fun b => b.start ≠ offset ∨ b.data ≠ data then
    (g, .error "stdin chunk offset or data differs from the partially accepted replay")
  else if ¬g.running then
    (g, .error "process is not running")
  else if g.closed then
    (g, .error "process stdin is closed")
  else if offset ≠ g.offset ∨ data.length > maxOffset - offset then
    (g, .error "stdin chunk offset differs from the exact acknowledged position")
  else
    let accepted := (g.begun.map (·.accepted)).getD 0
    let r := writeRemaining (data.drop accepted) writes
    if r.2 then
      ({ g with
          written := g.written ++ r.1
          last := some (offset, data)
          offset := offset + data.length
          begun := none }, .ok (offset + data.length))
    else
      ({ g with written := g.written ++ r.1, begun := some ⟨offset, data, accepted + r.1.length⟩ }, .error "write")

/-- `Manager.CloseStdin`; `result` is what `stdin.Write` or `stdin.Close` gives.
A terminal has no half-close, so its process gets EOT. -/
def Guest.closeStdin (g : Guest) (result : Nat × Bool) : Guest × Except String Nat :=
  if ¬g.running then
    (g, if g.closed then .ok 0 else .error "process is not running")
  else if g.closed then
    (g, .ok 0)
  else if g.terminal then
    ({ g with closed := true, written := g.written ++ [4].take result.1 }, if result.2 then .error "write" else .ok 0)
  else
    ({ g with closed := true }, if result.2 then .error "close" else .ok 0)

/-! ## The shim's host -/

/-- What the shim has of the process and puts into its record. `running` is a
status of `RUNNING` or `PAUSED`. -/
structure Process where
  running : Bool := true
  stdinClosed : Bool := false
  stdinCloseAcked : Bool := false
  stdinOffset : Nat := 0
  stdinDrainRemaining : Nat := 0
  stdinPending : List UInt8 := []
  deriving DecidableEq, Repr

/-- `taken` is what all incarnations of the shim have read from the FIFO. `sent`
has every request that was sent, in order. -/
structure World where
  taken : List UInt8 := []
  record : Process := {}
  memory : Process := {}
  guest : Guest := {}
  sent : List (Nat × List UInt8) := []
  deriving DecidableEq, Repr

/-- A persist works, or it fails, with or without its effect. -/
inductive Persist where
  | works
  | fails (effect : Bool)
  deriving DecidableEq, Repr

def Persist.takesEffect : Persist → Bool
  | .works => true
  | .fails effect => effect

def Persist.error : Persist → Option String
  | .works => none
  | .fails _ => some "persist"

def World.persist (w : World) (p : Persist) : World := if p.takesEffect then { w with record := w.memory } else w

/-- A change of the process that is undone if it cannot be persisted. -/
def World.transact (w : World) (changed : Process) (p : Persist) : World :=
  let w' := { w with memory := changed }.persist p
  if p.error.isSome then { w' with memory := w.memory } else w'

def maxStdinCloseDrain : Nat := 1048576

/-- What happens beside the pump: in the guest, and in the shim's other
goroutines, each of which holds the service's lock. -/
inductive Event where
  /-- A request that was sent arrives, for the first time or again. -/
  | late (k : Nat) (writes : Writes)
  | exits
  | closesStdin (result : Nat × Bool)
  /-- `CloseIO`, with what is in the FIFO. -/
  | closeIORequest (buffered : Nat) (p : Persist)
  | acknowledgeStdinClose (p : Persist)
  /-- `waitProcess` once the guest has reported the end of the process. -/
  | stops (p : Persist)
  /-- Any other persist. -/
  | persists (p : Persist)
  deriving DecidableEq, Repr

def World.event (held : Bool) (w : World) : Event → World
  | .late k writes =>
    match w.sent[k]? with
    | none => w
    | some (offset, data) => { w with guest := (w.guest.writeAt offset data writes).1 }
  | .exits => { w with guest := { w.guest with running := false } }
  | .closesStdin result => { w with guest := (w.guest.closeStdin result).1 }
  | .closeIORequest buffered p =>
    if held ∨ w.memory.stdinClosed ∨ ¬w.memory.running ∨ buffered > maxStdinCloseDrain then w
    else w.transact { w.memory with stdinClosed := true, stdinDrainRemaining := buffered } p
  | .acknowledgeStdinClose p =>
    if held ∨ w.memory.stdinCloseAcked ∨ w.memory.stdinDrainRemaining ≠ 0 ∨ w.memory.stdinPending ≠ [] then w
    else w.transact { w.memory with stdinCloseAcked := true } p
  | .stops p =>
    if held ∨ w.guest.running then w
    else w.transact { w.memory with running := false, stdinPending := [] } p
  | .persists p => if held then w else w.persist p

/-! ## Calls of the pump -/

inductive ReadErr where
  | eof | again | failed
  | closedPipe | persist
  deriving DecidableEq, Repr

/-- The errors after which the pump reads again. -/
def ReadErr.transient : Option ReadErr → Bool
  | none | some .eof | some .again => true
  | _ => false

structure ReadReply where
  bytes : List UInt8 := []
  err : Option ReadErr := none
  deriving DecidableEq, Repr

inductive AgentReply where
  | ok (offset : Nat)
  | rejected
  | lost
  deriving DecidableEq, Repr

inductive Op where
  /-- The process as it is under the lock. -/
  | get
  | set (p : Process)
  /-- One nonblocking read of the FIFO. -/
  | read (size : Nat)
  | persistRecovery
  | writeProcess (offset : Nat) (data : List UInt8)
  | closeProcessStdin
  deriving DecidableEq, Repr

def Op.Reply : Op → Type
  | .get => Process
  | .set _ => Unit
  | .read _ => ReadReply
  | .persistRecovery => Option String
  | .writeProcess _ _ | .closeProcessStdin => AgentReply

/-- A call, and whether the pump holds the lock over from the call before. -/
structure Call where
  held : Bool
  op : Op
  deriving DecidableEq, Repr

structure Answer where
  /-- What happens before the call. -/
  before : List Event := []
  chunk : ReadReply := { err := some .again }
  persist : Persist := .works
  /-- A request arrives, and its reply does. -/
  arrives : Bool := true
  replied : Bool := true
  writes : Writes := []
  deriving DecidableEq, Repr

def AgentReply.of (a : Answer) (r : Except String Nat) : AgentReply :=
  if a.arrives ∧ a.replied then
    match r with
    | .ok offset => .ok offset
    | .error _ => .rejected
  else
    .lost

def perfect (w : World) (a : Answer) : (op : Op) → World × op.Reply
  | .get => (w, w.memory)
  | .set p => ({ w with memory := p }, ())
  | .read size =>
    let bytes := a.chunk.bytes.take size
    ({ w with taken := w.taken ++ bytes }, ⟨bytes, a.chunk.err⟩)
  | .persistRecovery => (w.persist a.persist, a.persist.error)
  | .writeProcess offset data =>
    let r := w.guest.writeAt offset data a.writes
    ({ w with guest := if a.arrives then r.1 else w.guest, sent := w.sent ++ [(offset, data)] }, .of a r.2)
  | .closeProcessStdin =>
    let r := w.guest.closeStdin (a.writes.headD (1, false))
    ({ w with guest := if a.arrives then r.1 else w.guest }, .of a r.2)

def step (w : World) (c : Call) (a : Answer) : World × c.op.Reply :=
  perfect (a.before.foldl (World.event c.held) w) a c.op

abbrev StdinI : Interface := ⟨Call, fun c => c.op.Reply⟩

abbrev Host : Machine StdinI := ⟨World, Answer, step⟩

abbrev Act := Prog StdinI

/-- A call without the lock, or the first one under it. -/
def perform (op : Op) : Act op.Reply := Prog.perform (I := StdinI) ⟨false, op⟩

def performLocked (op : Op) : Act op.Reply := Prog.perform (I := StdinI) ⟨true, op⟩

/-! ## The pump -/

def bufferSize : Nat := 32768

def Process.readSize (p : Process) : Nat := if p.stdinClosed then min bufferSize p.stdinDrainRemaining else bufferSize

def Process.drained (p : Process) (count : Nat) : Process :=
  if p.stdinClosed then { p with stdinDrainRemaining := p.stdinDrainRemaining - count } else p

/-- `readStdinChunk` after the read, which was under the lock. -/
def keepChunk (p : Process) (r : ReadReply) : Act (List UInt8 × Option ReadErr × Bool) := do
  if r.bytes = [] then
    return ([], some (r.err.getD .eof), false)
  let p := p.drained r.bytes.length
  if ¬p.running then
    performLocked (.set p)
    return ([], some .closedPipe, false)
  performLocked (.set { p with stdinPending := r.bytes })
  if (← performLocked .persistRecovery).isSome then
    return ([], some .persist, false)
  return (r.bytes, r.err, true)

/-- `readStdinChunk` with the bytes that it has read. A reader that is not a file
is read without the lock, and its chunk is not queued yet. -/
def readStdinChunk (file : Bool) : Act (List UInt8 × Option ReadErr × Bool) := do
  if ¬file then
    let r ← perform (.read bufferSize)
    return (r.bytes, r.err, false)
  let p ← perform .get
  if p.stdinClosed ∧ p.stdinDrainRemaining = 0 then
    return ([], some .eof, false)
  let r ← performLocked (.read p.readSize)
  keepChunk p r

/-- A change of the process under the lock, which is undone if it cannot be
persisted. -/
def commit (old changed : Process) (what : String) : Act (Option String) := do
  performLocked (.set changed)
  match ← performLocked .persistRecovery with
  | some text =>
    performLocked (.set old)
    return some (what ++ text)
  | none => return none

/-- At most so many attempts fit into its 30 seconds. -/
def callAgentWithReconnect (op : Op) (h : op.Reply = AgentReply) : Nat → Act (Except String Nat)
  | 0 => return .error "deadline"
  | attempts + 1 => do
    match h ▸ (← perform op) with
    | .ok offset => return .ok offset
    | .rejected => return .error "rejected"
    | .lost => callAgentWithReconnect op h attempts

def deliverPendingStdin (attempts : Nat) : Act (Option String) := do
  let p ← perform .get
  if p.stdinPending = [] then
    return none
  match ← callAgentWithReconnect (.writeProcess p.stdinOffset p.stdinPending) rfl attempts with
  | .error text => return some text
  | .ok response =>
    if p.stdinPending.length > maxOffset - p.stdinOffset ∨ response ≠ p.stdinOffset + p.stdinPending.length then
      return some "guest acknowledged an invalid stdin offset"
    let q ← perform .get
    if q.stdinOffset ≠ p.stdinOffset ∨ q.stdinPending ≠ p.stdinPending then
      return some "pending stdin identity changed during guest acknowledgement"
    commit q { q with stdinOffset := response, stdinPending := [] } "persist acknowledged stdin offset: "

def acknowledgeStdinClose (attempts : Nat) : Act (Option String) := do
  let p ← perform .get
  if p.stdinDrainRemaining ≠ 0 ∨ p.stdinPending ≠ [] then
    return some "failed precondition"
  if p.stdinCloseAcked then
    return none
  match ← callAgentWithReconnect .closeProcessStdin rfl attempts with
  | .error text => return some text
  | .ok _ =>
    let q ← perform .get
    if q.stdinCloseAcked then
      return none
    commit q { q with stdinCloseAcked := true } "persist acknowledged stdin close: "

def retryPendingStdinClose (attempts : Nat) : Nat → Act Unit
  | 0 => return ()
  | rounds + 1 => do
    let p ← perform .get
    if ¬p.stdinClosed ∨ p.stdinCloseAcked ∨ ¬p.running then
      return ()
    match ← acknowledgeStdinClose attempts with
    | none => return ()
    | some _ => retryPendingStdinClose attempts rounds

/-- A chunk that `readStdinChunk` has not queued: whether the pump goes on. -/
def queueChunk (data : List UInt8) : Act Bool := do
  let p ← perform .get
  if ¬p.running then
    return false
  performLocked (.set { p with stdinPending := data })
  return (← performLocked .persistRecovery).isNone

/-- What the pump does with a chunk. -/
def forwardChunk (attempts : Nat) (data : List UInt8) (queued : Bool) : Act Bool := do
  if data = [] then
    return true
  if queued then
    return (← deliverPendingStdin attempts).isNone
  if ¬(← queueChunk data) then
    return false
  return (← deliverPendingStdin attempts).isNone

/-- And when there was none. -/
def awaitChunk (attempts rounds : Nat) (err : Option ReadErr) : Act Bool := do
  let p ← perform .get
  if p.stdinClosed ∧ p.stdinDrainRemaining ≠ 0 ∧ err = some .eof then
    return false
  if p.stdinClosed ∧ ¬p.stdinCloseAcked ∧ p.stdinDrainRemaining = 0 then
    retryPendingStdinClose attempts rounds
    return false
  return true

/-- The loop of `pumpStdin`. -/
def pumpLoop (file : Bool) (attempts : Nat) : Nat → Act Unit
  | 0 => return ()
  | rounds + 1 => do
    let p ← perform .get
    if p.stdinClosed ∧ p.stdinDrainRemaining = 0 then
      if p.stdinCloseAcked then
        return ()
      retryPendingStdinClose attempts rounds
    else
      let (data, err, queued) ← readStdinChunk file
      if ¬(← forwardChunk attempts data queued) then
        return ()
      if ¬ReadErr.transient err then
        return ()
      if data ≠ [] then
        pumpLoop file attempts rounds
      else if ← awaitChunk attempts rounds err then
        pumpLoop file attempts rounds
      else
        return ()

/-- The deferred function of `pumpStdin`. -/
def closeReader (attempts rounds : Nat) : Act Unit := do
  let p ← perform .get
  if p.stdinPending ≠ [] ∨ p.stdinDrainRemaining ≠ 0 then
    return ()
  retryPendingStdinClose attempts rounds

/-- What the pump does after the chunk it starts with. -/
def pumpReader (reader : Option Bool) (attempts rounds : Nat) : Act Unit :=
  match reader with
  | none => retryPendingStdinClose attempts rounds
  | some file => do
    pumpLoop file attempts rounds
    closeReader attempts rounds

/-- `reader` says whether the reader is a file, if there is one. -/
def pumpStdin (reader : Option Bool) (attempts rounds : Nat) : Act Unit := do
  match ← deliverPendingStdin attempts with
  | some _ => if reader.isSome then closeReader attempts rounds
  | none => pumpReader reader attempts rounds

/-! ## Incarnations -/

/-- A shim that starts from the last record. `stopped`: the guest reports that
the process has ended. -/
structure Incarnation where
  stopped : Bool := false
  reader : Option Bool := some true
  attempts : Nat
  rounds : Nat
  answers : List Answer
  /-- What happens once the pump has ended. -/
  after : List Event := []
  deriving DecidableEq, Repr

/-- `recoverExisting`, for this process. -/
def World.incarnation (w : World) (i : Incarnation) : World :=
  let w := { w with memory := w.record }
  if ¬w.memory.running then
    i.after.foldl (World.event false) w
  else if i.stopped ∧ ¬w.guest.running then
    i.after.foldl (World.event false) { w with memory := { w.memory with running := false, stdinPending := [] } }
  else
    let x := exec Host (pumpStdin i.reader i.attempts i.rounds) w i.answers
    -- If the shim has died, only the guest goes on.
    i.after.foldl (World.event x.2.isNone) x.1

/-! ## The guest takes a chunk once -/

/-- The guest has received what was read, from its start, up to its offset and
what it has of the chunk it has begun. Once its input is closed nothing follows,
and a terminal has had EOT. -/
structure Guest.Sound (taken : List UInt8) (g : Guest) : Prop where
  received : g.terminal = false ∨ g.closed = false → g.written <+: taken
  settled : g.closed = false → g.begun = none → g.written.length = g.offset
  begun : g.closed = false → ∀ b, g.begun = some b → b.start = g.offset ∧ g.written.length = g.offset + b.accepted ∧
    b.accepted ≤ b.data.length ∧ b.data <+: taken.drop g.offset

section Guest
variable {g : Guest} {taken data : List UInt8} {offset : Nat} {writes : Writes}

theorem writeRemaining_taken (remaining : List UInt8) (writes : Writes) :
    (writeRemaining remaining writes).1 <+: remaining ∧
      ((writeRemaining remaining writes).2 → (writeRemaining remaining writes).1 = remaining) := by
  induction writes generalizing remaining with
  | nil =>
    refine ⟨⟨remaining, rfl⟩, fun h => ?_⟩
    exact (List.isEmpty_iff.1 h).symm
  | cons result writes ih =>
    obtain ⟨n, failed⟩ := result
    simp only [writeRemaining]
    split
    · exact ⟨List.prefix_rfl, fun _ => rfl⟩
    · split
      · exact ⟨⟨remaining.drop n, List.take_append_drop n remaining⟩, fun h => by cases h⟩
      · obtain ⟨hpiece, hall⟩ := ih (remaining.drop n)
        refine ⟨?_, fun h => ?_⟩
        · obtain ⟨t, ht⟩ := hpiece
          exact ⟨t, by rw [List.append_assoc, ht, List.take_append_drop]⟩
        · rw [hall h, List.take_append_drop]

/-- More of what was read, right behind what the guest has. -/
theorem received_more {piece : List UInt8} (h : g.written <+: taken) (hpiece : piece <+: taken.drop g.written.length) :
    g.written ++ piece <+: taken := by
  obtain ⟨t, rfl⟩ := h
  rw [List.drop_left] at hpiece
  obtain ⟨u, rfl⟩ := hpiece
  exact ⟨u, by rw [List.append_assoc]⟩

theorem Guest.Sound.writeAt (h : g.Sound taken) (hdata : data <+: taken.drop offset) :
    (g.writeAt offset data writes).1.Sound taken := by
  unfold Guest.writeAt
  split
  · exact h
  split
  · exact h
  split
  · exact h
  rename_i hbegun
  split
  · exact h
  split
  · exact h
  rename_i hopen
  split
  · exact h
  rename_i hoffset
  replace hopen : g.closed = false := by simpa using hopen
  obtain ⟨rfl, -⟩ : offset = g.offset ∧ ¬data.length > maxOffset - offset := by simpa using hoffset
  -- Where in the chunk the guest is.
  have hposition : g.written.length = g.offset + (g.begun.map (·.accepted)).getD 0 ∧ (g.begun.map (·.accepted)).getD 0 ≤ data.length := by
    cases hb : g.begun with
    | none => exact ⟨by simpa using h.settled hopen hb, by simp⟩
    | some b =>
      obtain ⟨hstart, hwritten, haccepted, -⟩ := h.begun hopen b hb
      have hsame : b.data = data := by
        rw [hb] at hbegun
        simp only [Option.any_some, decide_eq_true_eq, not_or, not_not] at hbegun
        exact hbegun.2
      exact ⟨by simpa using hwritten, by simpa [hsame] using haccepted⟩
  obtain ⟨hwritten, haccepted⟩ := hposition
  generalize (g.begun.map (·.accepted)).getD 0 = accepted at hwritten haccepted
  obtain ⟨hpiece, hall⟩ := writeRemaining_taken (data.drop accepted) writes
  have hreceived : g.written ++ (writeRemaining (data.drop accepted) writes).1 <+: taken := by
    refine received_more (h.received (.inr hopen)) (hpiece.trans ?_)
    rw [hwritten, ← List.drop_drop]
    obtain ⟨t, ht⟩ := hdata
    rw [← ht, List.drop_append_of_le_length haccepted]
    exact ⟨t, rfl⟩
  dsimp only
  split
  · rename_i hcomplete
    refine ⟨fun _ => hreceived, fun _ _ => ?_, fun _ b hb => by cases hb⟩
    simp only [hall hcomplete, List.length_append, List.length_drop]
    omega
  · refine ⟨fun _ => hreceived, fun _ hb => (by cases hb), ?_⟩
    rintro - b ⟨⟩
    have hle := hpiece.length_le
    rw [List.length_drop] at hle
    refine ⟨rfl, ?_, ?_, hdata⟩
    · simp only [List.length_append]
      omega
    · dsimp only
      omega

theorem Guest.Sound.closeStdin (h : g.Sound taken) (result : Nat × Bool) : (g.closeStdin result).1.Sound taken := by
  unfold Guest.closeStdin
  split
  · exact h
  split
  · exact h
  split
  · rename_i hterminal
    exact ⟨by simp [hterminal], by simp, by simp⟩
  · exact ⟨fun _ => h.received (.inl (by simpa using ‹¬g.terminal›)), by simp, by simp⟩

theorem closeStdin_running (result : Nat × Bool) : (g.closeStdin result).1.running = g.running := by
  unfold Guest.closeStdin
  repeat' split
  all_goals rfl

theorem writeAt_stopped (h : g.running = false) : (g.writeAt offset data writes).1 = g := by
  unfold Guest.writeAt
  split
  · rfl
  split
  · rfl
  split
  · rfl
  rw [if_pos (by simp [h])]

theorem writeAt_running : (g.writeAt offset data writes).1.running = g.running := by
  unfold Guest.writeAt
  dsimp only
  repeat' split
  all_goals rfl

theorem Guest.Sound.grows {bytes : List UInt8} (h : g.Sound taken) : g.Sound (taken ++ bytes) := by
  refine ⟨fun ho => (h.received ho).trans (List.prefix_append _ _), h.settled, fun hopen b hb => ?_⟩
  obtain ⟨hstart, hwritten, haccepted, hdata⟩ := h.begun hopen b hb
  refine ⟨hstart, hwritten, haccepted, hdata.trans ?_⟩
  have := (h.received (.inr hopen)).length_le
  rw [List.drop_append_of_le_length (by omega)]
  exact List.prefix_append _ _

end Guest

/-! ## What the shim keeps -/

/-- The pending bytes are those at the offset. -/
def Slice (taken : List UInt8) (p : Process) : Prop := p.stdinPending <+: taken.drop p.stdinOffset

/-- And no byte was read after them. -/
def Covers (taken : List UInt8) (p : Process) : Prop :=
  p.stdinOffset ≤ taken.length ∧ taken.drop p.stdinOffset = p.stdinPending

/-- As long as the guest process runs, what was sent and what is recorded is of
the right place. -/
structure Fit (w : World) : Prop where
  guest : w.guest.Sound w.taken
  sent : w.guest.running → ∀ r ∈ w.sent, r.2 <+: w.taken.drop r.1
  record : w.guest.running → Slice w.taken w.record
  running : w.guest.running → w.memory.running ∧ w.record.running

/-- And the shim has in memory what it has read. -/
structure Full (w : World) : Prop extends Fit w where
  covers : w.guest.running → Covers w.taken w.memory

/-- And the guest has all of it. -/
structure Idle (w : World) : Prop extends Full w where
  idle : w.guest.running → w.memory.stdinPending = []

/-- The shim has read one more chunk, which it does not have in memory yet. -/
structure Hanging (data : List UInt8) (w : World) : Prop extends Fit w where
  idle : w.guest.running → w.memory.stdinPending = []
  data : w.guest.running → Covers w.taken { w.memory with stdinPending := data }

theorem drop_grows (taken bytes : List UInt8) (n : Nat) : taken.drop n <+: (taken ++ bytes).drop n := by
  rw [List.drop_append]
  exact List.prefix_append _ _

theorem Covers.slice {taken : List UInt8} {p : Process} (h : Covers taken p) : Slice taken p := by
  refine ⟨[], ?_⟩
  rw [List.append_nil, h.2]

theorem Slice.covers {taken : List UInt8} {p : Process} (h : Slice taken p)
    (hlength : p.stdinOffset + p.stdinPending.length = taken.length) : Covers taken p := by
  refine ⟨by omega, (List.IsPrefix.eq_of_length h ?_).symm⟩
  rw [List.length_drop]
  omega

/-! ## Beside the pump -/

/-- The same place in the input. -/
def Same (p q : Process) : Prop := p.stdinOffset = q.stdinOffset ∧ p.stdinPending = q.stdinPending ∧ p.running = q.running

/-- What happens beside the pump. -/
structure Beside (held : Bool) (w w' : World) : Prop where
  taken : w'.taken = w.taken
  sent : w'.sent = w.sent
  running : w'.guest.running → w.guest.running
  held : held → w'.memory = w.memory ∧ w'.record = w.record
  memory : w'.guest.running → Same w'.memory w.memory
  record : w'.guest.running → w'.record = w.record ∨ Same w'.record w.memory
  guest : w.guest.Sound w.taken → (w.guest.running → ∀ r ∈ w.sent, r.2 <+: w.taken.drop r.1) → w'.guest.Sound w.taken

section Beside
variable {held : Bool} {w w' w'' : World}

theorem Same.refl (p : Process) : Same p p := ⟨rfl, rfl, rfl⟩

theorem Same.trans {p q r : Process} (h : Same p q) (h' : Same q r) : Same p r :=
  ⟨h.1.trans h'.1, h.2.1.trans h'.2.1, h.2.2.trans h'.2.2⟩

theorem Beside.refl (held : Bool) (w : World) : Beside held w w :=
  ⟨rfl, rfl, fun h => h, fun _ => ⟨rfl, rfl⟩, fun _ => .refl _, fun _ => .inl rfl, fun h _ => h⟩

theorem Beside.trans (h : Beside held w w') (h' : Beside held w' w'') : Beside held w w'' where
  taken := h'.taken.trans h.taken
  sent := h'.sent.trans h.sent
  running := fun hr => h.running (h'.running hr)
  held := fun hh => ⟨(h'.held hh).1.trans (h.held hh).1, (h'.held hh).2.trans (h.held hh).2⟩
  memory := fun hr => (h'.memory hr).trans (h.memory (h'.running hr))
  record := fun hr => by
    have hr' := h'.running hr
    obtain heq | hsame := h'.record hr
    · obtain heq' | hsame' := h.record hr'
      · exact .inl (heq.trans heq')
      · exact .inr (by rw [heq]; exact hsame')
    · exact .inr (hsame.trans (h.memory hr'))
  guest := fun hsound hsent => by
    have hsound' := h.guest hsound hsent
    rw [← h.taken] at hsound' ⊢
    refine h'.guest hsound' fun hr r hmem => ?_
    rw [h.sent] at hmem
    rw [h.taken]
    exact hsent (h.running hr) r hmem

/-- A change of the process by another goroutine. -/
theorem beside_transact {changed : Process} (p : Persist) (h : w.guest.running → Same changed w.memory) :
    Beside false w (w.transact changed p) := by
  have hguest : (w.transact changed p).guest = w.guest ∧ (w.transact changed p).taken = w.taken ∧
      (w.transact changed p).sent = w.sent := by
    cases p with
    | works => exact ⟨rfl, rfl, rfl⟩
    | fails effect => cases effect <;> exact ⟨rfl, rfl, rfl⟩
  refine ⟨hguest.2.1, hguest.2.2, by rw [hguest.1]; exact id, by simp, fun hr => ?_, fun hr => ?_, by rw [hguest.1]; exact fun h _ => h⟩
  · rw [hguest.1] at hr
    cases p with
    | works => exact h hr
    | fails effect => cases effect <;> exact .refl _
  · rw [hguest.1] at hr
    cases p with
    | works => exact .inr (h hr)
    | fails effect =>
      cases effect with
      | false => exact .inl rfl
      | true => exact .inr (h hr)

theorem beside_guest {g : Guest} (hr : g.running → w.guest.running)
    (hg : w.guest.Sound w.taken → (w.guest.running → ∀ r ∈ w.sent, r.2 <+: w.taken.drop r.1) → g.Sound w.taken) :
    Beside held w { w with guest := g } :=
  ⟨rfl, rfl, hr, fun _ => ⟨rfl, rfl⟩, fun _ => .refl _, fun _ => .inl rfl, hg⟩

/-- Other goroutines change the process only without the lock. -/
theorem beside_unless {p : Prop} [Decidable p] (h : ¬p → Beside false w w') :
    Beside held w (if held ∨ p then w else w') := by
  split
  · exact .refl _ _
  · rename_i hc
    obtain rfl : held = false := by simpa using fun h => hc (.inl h)
    exact h fun hp => hc (.inr hp)

theorem beside_event (e : Event) : Beside held w (w.event held e) := by
  cases e with
  | late k writes =>
    simp only [World.event]
    split
    · exact .refl _ _
    · rename_i offset data hk
      refine beside_guest (by rw [writeAt_running]; exact id) fun hsound hsent => ?_
      cases hrunning : w.guest.running with
      | false => rwa [writeAt_stopped hrunning]
      | true => exact hsound.writeAt (hsent hrunning _ (List.mem_of_getElem? hk))
  | exits => exact beside_guest (by simp) fun h _ => ⟨h.received, h.settled, h.begun⟩
  | closesStdin result => exact beside_guest (by rw [closeStdin_running]; exact id) fun h _ => h.closeStdin result
  | closeIORequest buffered p => exact beside_unless fun _ => beside_transact p fun _ => ⟨rfl, rfl, rfl⟩
  | acknowledgeStdinClose p => exact beside_unless fun _ => beside_transact p fun _ => ⟨rfl, rfl, rfl⟩
  | stops p => exact beside_unless fun hend => beside_transact p fun hr => absurd hr hend
  | persists p =>
    simp only [World.event]
    split
    · exact .refl _ _
    · rename_i hc
      obtain rfl : held = false := by simpa using hc
      cases p with
      | works => exact ⟨rfl, rfl, id, by simp, fun _ => .refl _, fun _ => .inr (.refl _), fun h _ => h⟩
      | fails effect =>
        cases effect with
        | false => exact .refl _ _
        | true => exact ⟨rfl, rfl, id, by simp, fun _ => .refl _, fun _ => .inr (.refl _), fun h _ => h⟩

theorem beside_events (events : List Event) : Beside held w (events.foldl (World.event held) w) := by
  induction events generalizing w with
  | nil => exact .refl _ _
  | cons e events ih => exact (beside_event e).trans ih

theorem Fit.beside (h : Fit w) (hb : Beside held w w')
    (hrecord : w'.guest.running → Slice w.taken w'.record ∧ w'.record.running) : Fit w' where
  guest := by rw [hb.taken]; exact hb.guest h.guest h.sent
  sent := fun hr => by rw [hb.sent, hb.taken]; exact h.sent (hb.running hr)
  record := fun hr => by rw [hb.taken]; exact (hrecord hr).1
  running := fun hr => by
    have hm := (hb.memory hr).2.2
    exact ⟨hm.trans (h.running (hb.running hr)).1, (hrecord hr).2⟩

theorem Fit.beside_held (h : Fit w) (hb : Beside true w w') : Fit w' :=
  h.beside hb fun hr => by
    rw [(hb.held rfl).2]
    exact ⟨h.record (hb.running hr), (h.running (hb.running hr)).2⟩

/-- The record is as it was, or it is of what is in memory. -/
theorem slice_beside (h : Fit w) (hslice : w.guest.running → Slice w.taken w.memory) (hb : Beside held w w')
    (hr : w'.guest.running) : Slice w.taken w'.record ∧ w'.record.running := by
  obtain heq | hsame := hb.record hr
  · rw [heq]
    exact ⟨h.record (hb.running hr), (h.running (hb.running hr)).2⟩
  · refine ⟨?_, hsame.2.2.trans (h.running (hb.running hr)).1⟩
    rw [Slice, hsame.1, hsame.2.1]
    exact hslice (hb.running hr)

theorem Full.beside (h : Full w) (hb : Beside held w w') : Full w' where
  toFit := h.toFit.beside hb (slice_beside h.toFit (fun hr => (h.covers hr).slice) hb)
  covers := fun hr => by
    obtain ⟨hoffset, hpending, -⟩ := hb.memory hr
    rw [Covers, hb.taken, hoffset, hpending]
    exact h.covers (hb.running hr)

theorem Idle.beside (h : Idle w) (hb : Beside held w w') : Idle w' where
  toFull := h.toFull.beside hb
  idle := fun hr => by rw [(hb.memory hr).2.1]; exact h.idle (hb.running hr)

theorem Hanging.beside {data : List UInt8} (h : Hanging data w) (hb : Beside held w w') : Hanging data w' where
  toFit := h.toFit.beside hb (slice_beside h.toFit (fun hr => by rw [Slice, h.idle hr]; exact ⟨_, rfl⟩) hb)
  idle := fun hr => by rw [(hb.memory hr).2.1]; exact h.idle (hb.running hr)
  data := fun hr => by
    have hdata := h.data (hb.running hr)
    simp only [Covers, hb.taken, (hb.memory hr).1] at hdata ⊢
    exact hdata

end Beside

/-! ## The pump, call by call -/

/-- Whatever is answered and happens beside it, the program keeps the shim fit. -/
abbrev Goes {α : Type} (p : Act α) (w : World) (Q : α → World → Prop) : Prop :=
  Sat (Host.trans fun _ _ _ => True) (fun w _ => Fit w) p w Q

section Goes
variable {α : Type} {op : Op} {f : op.Reply → Act α} {w : World} {Q : α → World → Prop}

theorem goes_call {held : Bool} (hw : Fit w)
    (h : ∀ w' a, Beside held w w' → Goes (f (perfect w' a op).2) (perfect w' a op).1 Q) :
    Goes (Prog.perform (I := StdinI) ⟨held, op⟩ >>= f) w Q := by
  refine ⟨hw, fun r w' hr => ?_⟩
  obtain ⟨a, -, hstep⟩ := hr
  change perfect _ a op = (w', r) at hstep
  have hnext := h _ a (beside_events a.before)
  rw [hstep] at hnext
  exact hnext

theorem goes_perform (hw : Fit w)
    (h : ∀ w' a, Beside false w w' → Goes (f (perfect w' a op).2) (perfect w' a op).1 Q) : Goes (perform op >>= f) w Q :=
  goes_call hw h

theorem goes_performLocked (hw : Fit w)
    (h : ∀ w' a, Beside true w w' → Goes (f (perfect w' a op).2) (perfect w' a op).1 Q) :
    Goes (performLocked op >>= f) w Q :=
  goes_call hw h

end Goes

section Keeps
variable {w : World} {p : Process} {data : List UInt8}

/-- The memory is written, under the lock. -/
theorem Fit.set (h : Fit w) (hp : w.guest.running → Covers w.taken p ∧ p.running) : Full { w with memory := p } where
  toFit := ⟨h.guest, h.sent, h.record, fun hr => ⟨(hp hr).2, (h.running hr).2⟩⟩
  covers := fun hr => (hp hr).1

theorem Full.persist (h : Full w) (a : Persist) : Full (w.persist a) := by
  unfold World.persist
  split
  · exact ⟨⟨h.guest, h.sent, fun hr => (h.covers hr).slice, fun hr => ⟨(h.running hr).1, (h.running hr).1⟩⟩, h.covers⟩
  · exact h

/-- A request with the bytes of its place, which arrives or does not. -/
theorem Full.writes (h : Full w) {offset : Nat} (hdata : w.guest.running → data <+: w.taken.drop offset) (a : Answer) :
    Full (perfect w a (.writeProcess offset data)).1 := by
  have hrunning : (perfect w a (.writeProcess offset data)).1.guest.running = w.guest.running := by
    simp only [perfect]
    split
    · exact writeAt_running
    · rfl
  have hguest : (perfect w a (.writeProcess offset data)).1.guest.Sound w.taken := by
    simp only [perfect]
    split
    · cases hr : w.guest.running with
      | false => rw [writeAt_stopped hr]; exact h.guest
      | true => exact h.guest.writeAt (hdata hr)
    · exact h.guest
  refine ⟨⟨hguest, fun hr r hmem => ?_, fun hr => h.record (hrunning ▸ hr), fun hr => h.running (hrunning ▸ hr)⟩,
    fun hr => h.covers (hrunning ▸ hr)⟩
  rw [hrunning] at hr
  rcases List.mem_append.1 hmem with hmem | hmem
  · exact h.sent hr r hmem
  · rw [List.mem_singleton.1 hmem]
    exact hdata hr

theorem Full.closes (h : Full w) (a : Answer) : Full (perfect w a .closeProcessStdin).1 := by
  simp only [perfect]
  split
  · have hrunning := closeStdin_running (g := w.guest) (a.writes.headD (1, false))
    exact ⟨⟨h.guest.closeStdin _, fun hr => h.sent (hrunning ▸ hr), fun hr => h.record (hrunning ▸ hr),
      fun hr => h.running (hrunning ▸ hr)⟩, fun hr => h.covers (hrunning ▸ hr)⟩
  · exact h

theorem Fit.reads (h : Fit w) (bytes : List UInt8) : Fit { w with taken := w.taken ++ bytes } where
  guest := h.guest.grows
  sent := fun hr r hmem => (h.sent hr r hmem).trans (drop_grows _ _ _)
  record := fun hr => (h.record hr).trans (drop_grows _ _ _)
  running := h.running

/-- A chunk out of the FIFO hangs between there and the memory. -/
theorem Idle.reads (h : Idle w) (bytes : List UInt8) : Hanging bytes { w with taken := w.taken ++ bytes } where
  toFit := h.toFit.reads bytes
  idle := h.idle
  data := fun hr => by
    obtain ⟨hle, hdrop⟩ := h.covers hr
    rw [h.idle hr, List.drop_eq_nil_iff] at hdrop
    refine ⟨by simp only [List.length_append]; omega, ?_⟩
    simp only [List.drop_append, List.drop_eq_nil_iff.2 hdrop, List.nil_append]
    rw [Nat.sub_eq_zero_of_le hle, List.drop_zero]

end Keeps

section Delivery
variable {w : World}

theorem goes_callAgent {offset : Nat} {data : List UInt8} (attempts : Nat) (hw : Full w)
    (hdata : w.guest.running → data <+: w.taken.drop offset) :
    Goes (callAgentWithReconnect (.writeProcess offset data) rfl attempts) w fun _ => Full := by
  induction attempts generalizing w with
  | zero => exact hw
  | succ attempts ih =>
    refine goes_perform hw.toFit fun w₁ a hb => ?_
    have hdata₁ : w₁.guest.running → data <+: w₁.taken.drop offset := by
      intro hr
      rw [hb.taken]
      exact hdata (hb.running hr)
    have hw₂ := (hw.beside hb).writes hdata₁ a
    have hdata₂ : (perfect w₁ a (.writeProcess offset data)).1.guest.running →
        data <+: (perfect w₁ a (.writeProcess offset data)).1.taken.drop offset := by
      intro hr
      refine hdata₁ ?_
      simp only [perfect] at hr
      split at hr
      · rwa [writeAt_running] at hr
      · exact hr
    generalize (perfect w₁ a (.writeProcess offset data)) = x at hw₂ hdata₂ ⊢
    obtain ⟨w₂, reply⟩ := x
    change AgentReply at reply
    cases reply with
    | ok | rejected => exact hw₂
    | lost => exact ih hw₂ hdata₂

theorem goes_callClose (attempts : Nat) (hw : Full w) :
    Goes (callAgentWithReconnect .closeProcessStdin rfl attempts) w fun _ => Full := by
  induction attempts generalizing w with
  | zero => exact hw
  | succ attempts ih =>
    refine goes_perform hw.toFit fun w₁ a hb => ?_
    have hw₂ := (hw.beside hb).closes a
    generalize perfect w₁ a .closeProcessStdin = x at hw₂ ⊢
    obtain ⟨w₂, reply⟩ := x
    change AgentReply at reply
    cases reply with
    | ok | rejected => exact hw₂
    | lost => exact ih hw₂

theorem goes_commit {changed : Process} {what : String} (hw : Full w)
    (hchanged : w.guest.running → Covers w.taken changed ∧ changed.running) :
    Goes (commit w.memory changed what) w fun r w' => Full w' ∧ (r = none → w'.memory = changed) ∧
      (r ≠ none → w'.memory = w.memory) := by
  refine goes_performLocked hw.toFit fun w₁ a₁ hb₁ => ?_
  have hfull : Full { w₁ with memory := changed } :=
    (hw.beside hb₁).toFit.set fun hr => by rw [hb₁.taken]; exact hchanged (hb₁.running hr)
  refine goes_performLocked hfull.toFit fun w₂ a₂ hb₂ => ?_
  have hw₂ := (hfull.beside hb₂).persist a₂.persist
  have hmemory : (w₂.persist a₂.persist).memory = changed := by
    have heq := (hb₂.held rfl).1
    unfold World.persist
    split <;> exact heq
  have htaken : (w₂.persist a₂.persist).taken = w.taken ∧ (w₂.persist a₂.persist).guest = w₂.guest := by
    have heq : w₂.taken = w.taken := hb₂.taken.trans hb₁.taken
    unfold World.persist
    split <;> exact ⟨heq, rfl⟩
  cases herror : a₂.persist.error with
  | none =>
    have hreply : (perfect w₂ a₂ .persistRecovery).2 = none := herror
    rw [hreply]
    exact ⟨hw₂, fun _ => hmemory, by simp⟩
  | some text =>
    have hreply : (perfect w₂ a₂ .persistRecovery).2 = some text := herror
    rw [hreply]
    refine goes_performLocked hw₂.toFit fun w₃ a₃ hb₃ => ?_
    refine ⟨(hw₂.beside hb₃).toFit.set fun hr => ?_, by simp, fun _ => rfl⟩
    have hr₂ : (w₂.persist a₂.persist).guest.running := hb₃.running hr
    rw [htaken.2] at hr₂
    have hr₀ := hb₁.running (hb₂.running hr₂)
    rw [hb₃.taken]
    exact ⟨by rw [show (perfect w₂ a₂ .persistRecovery).1.taken = w.taken from htaken.1]; exact hw.covers hr₀, (hw.running hr₀).1⟩

theorem goes_deliverPendingStdin (attempts : Nat) (hw : Full w) :
    Goes (deliverPendingStdin attempts) w fun r w' => Full w' ∧ (r = none → Idle w') := by
  refine goes_perform hw.toFit fun w₁ a₁ hb₁ => ?_
  have hw₁ := hw.beside hb₁
  refine sat_ite.2 ⟨fun hnil => ⟨hw₁, fun _ => ⟨hw₁, fun _ => hnil⟩⟩, fun _ => ?_⟩
  refine (goes_callAgent attempts hw₁ fun hr => (hw₁.covers hr).slice).bind fun r w₂ hw₂ => ?_
  cases r with
  | error text => exact ⟨hw₂, by simp⟩
  | ok response =>
    refine sat_ite.2 ⟨fun _ => ⟨hw₂, by simp⟩, fun hresponse => ?_⟩
    refine goes_perform hw₂.toFit fun w₃ a₃ hb₃ => ?_
    have hw₃ := hw₂.beside hb₃
    refine sat_ite.2 ⟨fun _ => ⟨hw₃, by simp⟩, fun hsame => ?_⟩
    -- The acknowledged offset is right behind the last byte that was read.
    have hchanged : w₃.guest.running → Covers w₃.taken { w₃.memory with stdinOffset := response, stdinPending := [] } ∧
        w₃.memory.running := by
      intro hr
      obtain ⟨hle, hdrop⟩ := hw₃.covers hr
      have hlength := congrArg List.length hdrop
      rw [List.length_drop] at hlength
      simp only [not_or, not_not] at hresponse hsame
      have hresponse : response = w₁.memory.stdinOffset + w₁.memory.stdinPending.length := hresponse.2
      have hoffset : w₃.memory.stdinOffset = w₁.memory.stdinOffset := hsame.1
      have hpending : w₃.memory.stdinPending = w₁.memory.stdinPending := hsame.2
      have hend : response = w₃.taken.length := by
        rw [hresponse, ← hoffset, ← hpending]
        omega
      refine ⟨⟨by simp only [hend, Nat.le_refl], ?_⟩, (hw₃.running hr).1⟩
      simp only [hend, List.drop_length]
    refine (goes_commit hw₃ hchanged).mono fun r w₄ h₄ => ⟨h₄.1, fun hnone => ⟨h₄.1, fun _ => ?_⟩⟩
    rw [h₄.2.1 hnone]

/-- Nothing of a close request touches the input. -/
theorem goes_acknowledgeStdinClose (attempts : Nat) (hw : Full w) :
    Goes (acknowledgeStdinClose attempts) w fun _ => Full := by
  refine goes_perform hw.toFit fun w₁ a₁ hb₁ => ?_
  have hw₁ := hw.beside hb₁
  refine Sat.unless hw₁ fun _ => Sat.unless hw₁ fun _ => ?_
  refine (goes_callClose attempts hw₁).bind fun r w₂ hw₂ => ?_
  cases r with
  | error text => exact hw₂
  | ok n =>
    refine goes_perform hw₂.toFit fun w₃ a₃ hb₃ => ?_
    have hw₃ := hw₂.beside hb₃
    refine Sat.unless hw₃ fun _ => ?_
    have hchanged : w₃.guest.running → Covers w₃.taken { w₃.memory with stdinCloseAcked := true } ∧ w₃.memory.running :=
      fun hr => ⟨hw₃.covers hr, (hw₃.running hr).1⟩
    exact (goes_commit hw₃ hchanged).mono fun _ _ h => h.1

theorem goes_retryPendingStdinClose (attempts rounds : Nat) (hw : Full w) :
    Goes (retryPendingStdinClose attempts rounds) w fun _ => Full := by
  induction rounds generalizing w with
  | zero => exact hw
  | succ rounds ih =>
    refine goes_perform hw.toFit fun w₁ a₁ hb₁ => ?_
    have hw₁ := hw.beside hb₁
    refine Sat.unless hw₁ fun _ => ?_
    refine (goes_acknowledgeStdinClose attempts hw₁).bind fun r w₂ hw₂ => ?_
    cases r with
    | none => exact hw₂
    | some text => exact ih hw₂

end Delivery

section Pump
variable {w : World} {file : Bool} {data : List UInt8}

/-- What `readStdinChunk` leaves: a chunk is in memory, or hangs if it was not
queued. -/
def Read (data : List UInt8) (err : Option ReadErr) (queued : Bool) (w : World) : Prop :=
  if data = [] then Full w ∧ (ReadErr.transient err → Idle w) else if queued then Full w else Hanging data w

theorem Hanging.read {err : Option ReadErr} (h : Hanging data w) : Read data err false w := by
  unfold Read
  split
  · rename_i hnil
    subst hnil
    have hcovers : w.guest.running → Covers w.taken w.memory := by
      intro hr
      rw [Covers, h.idle hr]
      exact h.data hr
    exact ⟨⟨h.toFit, hcovers⟩, fun _ => ⟨⟨h.toFit, hcovers⟩, h.idle⟩⟩
  · rw [if_neg (by simp)]
    exact h

theorem goes_keepChunk {r : ReadReply} (hw : Hanging r.bytes w) :
    Goes (keepChunk w.memory r) w fun r w' => Read r.1 r.2.1 r.2.2 w' := by
  refine sat_ite.2 ⟨fun hnil => ?_, fun hne => ?_⟩
  · rw [hnil] at hw
    exact hw.read
  have hsame : (w.memory.drained r.bytes.length).stdinOffset = w.memory.stdinOffset ∧
      (w.memory.drained r.bytes.length).running = w.memory.running := by
    unfold Process.drained
    split <;> exact ⟨rfl, rfl⟩
  refine sat_ite.2 ⟨fun hstopped => ?_, fun hrunning => ?_⟩
  · -- Bytes are dropped only if the process has ended.
    refine goes_performLocked hw.toFit fun w₁ a₁ hb₁ => ⟨?_, fun h => by cases h⟩
    refine (hw.toFit.beside_held hb₁).set fun hr => absurd ?_ hstopped
    rw [hsame.2]
    exact (hw.running (hb₁.running hr)).1
  refine goes_performLocked hw.toFit fun w₁ a₁ hb₁ => ?_
  have hw₁ : Full { w₁ with memory := { w.memory.drained r.bytes.length with stdinPending := r.bytes } } := by
    refine (hw.toFit.beside_held hb₁).set fun hr => ⟨?_, by simpa using hrunning⟩
    rw [Covers, hb₁.taken]
    simp only [hsame.1]
    exact hw.data (hb₁.running hr)
  refine goes_performLocked hw₁.toFit fun w₂ a₂ hb₂ => ?_
  have hw₂ := (hw₁.beside hb₂).persist a₂.persist
  refine sat_ite.2 ⟨fun _ => ⟨hw₂, fun h => by cases h⟩, fun _ => ?_⟩
  change Read r.bytes r.err true _
  rw [Read, if_neg hne, if_pos rfl]
  exact hw₂

theorem goes_readStdinChunk (hw : Idle w) : Goes (readStdinChunk file) w fun r w' => Read r.1 r.2.1 r.2.2 w' := by
  refine Sat.unless ?_ fun _ => ?_
  · refine goes_perform hw.toFit fun w₁ a₁ hb₁ => ?_
    exact ((hw.beside hb₁).reads _).read
  refine goes_perform hw.toFit fun w₁ a₁ hb₁ => ?_
  have hw₁ := hw.beside hb₁
  refine Sat.unless ⟨hw₁.toFull, fun _ => hw₁⟩ fun _ => ?_
  refine goes_performLocked hw₁.toFit fun w₂ a₂ hb₂ => ?_
  have hw₂ := (hw₁.beside hb₂).reads (a₂.chunk.bytes.take w₁.memory.readSize)
  have hmemory : w₁.memory = w₂.memory := (hb₂.held rfl).1.symm
  change Goes (keepChunk w₁.memory ⟨a₂.chunk.bytes.take w₁.memory.readSize, a₂.chunk.err⟩)
    { w₂ with taken := w₂.taken ++ a₂.chunk.bytes.take w₁.memory.readSize } _
  rw [hmemory] at hw₂ ⊢
  exact goes_keepChunk (r := ⟨_, a₂.chunk.err⟩) hw₂

theorem goes_queueChunk (hw : Hanging data w) : Goes (queueChunk data) w fun _ => Full := by
  refine goes_perform hw.toFit fun w₁ a₁ hb₁ => ?_
  have hw₁ := hw.beside hb₁
  refine sat_ite.2 ⟨fun hstopped => ?_, fun _ => ?_⟩
  · have hend : ¬w₁.guest.running := fun hr => hstopped (hw₁.running hr).1
    exact ⟨hw₁.toFit, fun hr => absurd hr hend⟩
  · refine goes_performLocked hw₁.toFit fun w₂ a₂ hb₂ => ?_
    have hfull : Full { w₂ with memory := { w₁.memory with stdinPending := data } } :=
      (hw₁.toFit.beside_held hb₂).set fun hr => by
        rw [hb₂.taken]
        exact ⟨hw₁.data (hb₂.running hr), (hw₁.running (hb₂.running hr)).1⟩
    refine goes_performLocked hfull.toFit fun w₃ a₃ hb₃ => ?_
    exact (hfull.beside hb₃).persist a₃.persist

theorem goes_forwardChunk (attempts : Nat) {err : Option ReadErr} {queued : Bool} (hw : Read data err queued w) :
    Goes (forwardChunk attempts data queued) w fun r w' => Full w' ∧ (r = true → ReadErr.transient err → Idle w') := by
  unfold forwardChunk
  refine sat_ite.2 ⟨fun hnil => ?_, fun hne => ?_⟩
  · rw [Read, if_pos hnil] at hw
    exact ⟨hw.1, fun _ => hw.2⟩
  rw [Read, if_neg hne] at hw
  have hdeliver : ∀ {w : World}, Full w → Goes (do return (← deliverPendingStdin attempts).isNone) w
      fun r w' => Full w' ∧ (r = true → ReadErr.transient err → Idle w') := by
    intro w hw
    refine (goes_deliverPendingStdin attempts hw).bind fun r w' h => ⟨h.1, fun hr _ => h.2 ?_⟩
    simpa using hr
  refine sat_ite.2 ⟨fun hqueued => ?_, fun hqueued => ?_⟩
  · rw [if_pos hqueued] at hw
    exact hdeliver hw
  · rw [if_neg hqueued] at hw
    refine (goes_queueChunk hw).bind fun go w₁ hw₁ => ?_
    exact sat_ite.2 ⟨fun _ => ⟨hw₁, by simp⟩, fun _ => hdeliver hw₁⟩

theorem goes_awaitChunk (attempts rounds : Nat) {err : Option ReadErr} (hw : Idle w) :
    Goes (awaitChunk attempts rounds err) w fun r w' => Full w' ∧ (r = true → Idle w') := by
  refine goes_perform hw.toFit fun w₁ a₁ hb₁ => ?_
  have hw₁ := hw.beside hb₁
  refine sat_ite.2 ⟨fun _ => ⟨hw₁.toFull, by simp⟩, fun _ => Sat.unless ?_ fun _ => ⟨hw₁.toFull, fun _ => hw₁⟩⟩
  exact (goes_retryPendingStdinClose attempts rounds hw₁.toFull).bind fun _ _ h => ⟨h, by simp⟩

theorem goes_pumpLoop (attempts rounds : Nat) (hw : Idle w) : Goes (pumpLoop file attempts rounds) w fun _ => Full := by
  induction rounds generalizing w with
  | zero => exact hw.toFull
  | succ rounds ih =>
    refine goes_perform hw.toFit fun w₁ a₁ hb₁ => ?_
    have hw₁ := hw.beside hb₁
    refine Sat.unless ?_ fun _ => ?_
    · exact Sat.unless hw₁.toFull fun _ => goes_retryPendingStdinClose attempts rounds hw₁.toFull
    refine (goes_readStdinChunk hw₁).bind fun r w₂ hw₂ => ?_
    refine (goes_forwardChunk attempts hw₂).bind fun go w₃ hw₃ => ?_
    refine Sat.unless hw₃.1 fun hgo => Sat.unless hw₃.1 fun herr => ?_
    have hidle := hw₃.2 (by simpa using hgo) (by simpa using herr)
    refine Sat.unless (ih hidle) fun _ => ?_
    refine (goes_awaitChunk attempts rounds hidle).bind fun more w₄ hw₄ => ?_
    exact sat_ite.2 ⟨fun hmore => ih (hw₄.2 hmore), fun _ => hw₄.1⟩

theorem goes_closeReader (attempts rounds : Nat) (hw : Full w) : Goes (closeReader attempts rounds) w fun _ => Full := by
  refine goes_perform hw.toFit fun w₁ a₁ hb₁ => ?_
  have hw₁ := hw.beside hb₁
  exact Sat.unless hw₁ fun _ => goes_retryPendingStdinClose attempts rounds hw₁

theorem goes_pumpStdin (reader : Option Bool) (attempts rounds : Nat) (hw : Full w) :
    Goes (pumpStdin reader attempts rounds) w fun _ => Full := by
  refine (goes_deliverPendingStdin attempts hw).bind fun r w₁ hw₁ => ?_
  cases r with
  | some text => exact Sat.unless (goes_closeReader attempts rounds hw₁.1) fun _ => hw₁.1
  | none =>
    cases reader with
    | none => exact goes_retryPendingStdinClose attempts rounds hw₁.1
    | some file =>
      exact (goes_pumpLoop attempts rounds (hw₁.2 rfl)).bind fun _ _ hw₂ => goes_closeReader attempts rounds hw₂

end Pump

/-! ## Every run -/

/-- Every byte that was read is in the last record, as acknowledged or pending,
unless nothing can reach the guest process any more. -/
def Accounted (w : World) (_ : Incarnation) : Prop :=
  w.guest.running → w.record.stdinOffset + w.record.stdinPending.length = w.taken.length

theorem fit_incarnation {w : World} (i : Incarnation) (hw : Fit w) (haccounted : Accounted w i) : Fit (w.incarnation i) := by
  have hstart : Full { w with memory := w.record } :=
    hw.set fun hr => ⟨(hw.record hr).covers (haccounted hr), (hw.running hr).2⟩
  unfold World.incarnation
  dsimp only
  split
  · exact (hstart.beside (beside_events i.after)).toFit
  split
  · rename_i hstopped
    have hend : ¬w.guest.running := hstopped.2
    have hfull : Full { w with memory := { w.record with running := false, stdinPending := [] } } :=
      hw.set fun hr => absurd hr hend
    exact (hfull.beside (beside_events i.after)).toFit
  · have hpump := goes_pumpStdin i.reader i.attempts i.rounds hstart
    have hresult := hpump.exec i.answers (meets_true Host _ _ _)
    generalize exec Host (pumpStdin i.reader i.attempts i.rounds) { w with memory := w.record } i.answers = x at hresult
    obtain ⟨w', _ | u⟩ := x
    · obtain ⟨c, hfit⟩ := hresult
      exact Fit.beside_held hfit (beside_events i.after)
    · exact ((hresult : Full w').beside (beside_events i.after)).toFit

/-- If the shim dies only while the last record has every byte it has read, the
guest process has received a piece of what was read, from its start, as long as
it has no terminal or its input is open. -/
theorem stdin_in_order (terminal : Bool) (incarnations : List Incarnation)
    (h : Conforms World.incarnation Accounted { guest := { terminal } } incarnations) :
    let w := run World.incarnation { guest := { terminal } } incarnations
    w.guest.terminal = false ∨ w.guest.closed = false → w.guest.written <+: w.taken := by
  have hinit : Fit { guest := { terminal } } :=
    ⟨⟨fun _ => List.prefix_rfl, fun _ _ => rfl, by simp⟩, by simp, fun _ => List.prefix_rfl, fun _ => ⟨rfl, rfl⟩⟩
  exact (h.inv hinit fun w i hw hi => fit_incarnation i hw hi).guest.received

instance (w : World) (i : Incarnation) : Decidable (Accounted w i) := inferInstanceAs (Decidable (_ → _))

/-- One incarnation reads a chunk and dies before the record has it. -/
def diesHolding : Incarnation := ⟨false, some true, 3, 8, [{}, {}, {}, { chunk := { bytes := [1, 2] } }], []⟩

/-- The next one reads on. -/
def readsOn : Incarnation :=
  ⟨false, some true, 3, 8, [{}, {}, {}, { chunk := { bytes := [3] } }, {}, {}, {}, { writes := [(1, false)] }, {}], []⟩

/-- The reply is lost, the write is short, and the shim dies with the chunk in its record. -/
def diesKeeping : Incarnation :=
  ⟨false, some true, 3, 8, [{}, {}, {}, { chunk := { bytes := [1, 2] } }, {}, {}, {}, { writes := [(1, true)], replied := false }], []⟩

/-- At the end the input is closed. -/
def replays : Incarnation :=
  ⟨false, some true, 3, 8, [{}, { writes := [(1, false)] }, {}, {}, {}, {}, {}, { chunk := { bytes := [3] } }, {}, {}, {},
    { writes := [(1, false)] }], [.closesStdin (1, false)]⟩

/-- A chunk of which the guest has a part is completed by the next incarnation. -/
theorem stdin_in_order_replayed :
    Conforms World.incarnation Accounted {} [diesKeeping, replays] ∧
      (run World.incarnation {} [diesKeeping, replays]).guest.written = [1, 2, 3] ∧
      (run World.incarnation {} [diesKeeping, replays]).guest.written <+: (run World.incarnation {} [diesKeeping, replays]).taken :=
  have h : Conforms World.incarnation Accounted {} [diesKeeping, replays] := by decide +kernel
  ⟨h, by decide +kernel, stdin_in_order false _ h (by decide +kernel)⟩

/-- A chunk that was read but not recorded is skipped. -/
theorem stdin_skips :
    ¬((run World.incarnation {} [diesHolding, readsOn]).guest.written <+: (run World.incarnation {} [diesHolding, readsOn]).taken) := by
  decide +kernel

example : (run World.incarnation {} [diesHolding, readsOn]).guest.written = [3] ∧
    (run World.incarnation {} [diesHolding, readsOn]).taken = [1, 2, 3] := by
  decide +kernel

-- A terminal's EOT was never in the FIFO.
example : (run World.incarnation { guest := { terminal := true } } [diesKeeping, replays]).guest.written = [1, 2, 3, 4] ∧
    (run World.incarnation { guest := { terminal := true } } [diesKeeping, replays]).taken = [1, 2, 3] := by
  decide +kernel

end Multikernel.Stdin
