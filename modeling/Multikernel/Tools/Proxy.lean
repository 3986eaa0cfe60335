import Mathlib.Logic.Function.Basic
import Multikernel.Lib.Logic
/-!
# The stream proxy of the NBD client

`native_stream_proxy` of `tools/native_stream_proxy.h`: one loop forwards two
streams at once, each through a buffer of 64 KiB that is compacted in place.
`poll`, `send`, `recv`, `shutdown` and the clock answer anything; `send` takes at
most the bytes it is given and `recv` brings at most the bytes it is asked for.

`proxy_forwards`: at every moment of every run what is sent to an endpoint is the
start of what was received from the other, and a return of 0 means that nothing
is left of either stream.
-/

namespace Multikernel.Proxy
open Lib
open Function (update update_self update_of_ne update_idem update_eq_self)

/-! ## Endpoints -/

/-- The indices 0 and 1 of `fd`. -/
inductive Side where
  | left | right
  deriving DecidableEq, Repr

/-- `1 - i`. -/
def Side.other : Side → Side
  | .left => .right
  | .right => .left

inductive Errno where
  | eintr | eagain | enospc | enotconn | epipe | ebadf | eio | etimedout
  | other (code : Nat)
  deriving DecidableEq, Repr

/-- `EWOULDBLOCK` is `EAGAIN`. -/
def Errno.transient (e : Errno) : Bool := e == .eintr || e == .eagain

/-- What `native_proxy_error` is called with; no endpoint is `-1`. -/
structure Failure where
  stage : String
  endpoint : Option Side
  error : Errno
  deriving DecidableEq, Repr

/-! ## Buffers -/

/-- `sizeof(d->data)`. -/
def capacity : Nat := 65536

/-- `struct direction`; `stop` is its `end`. A time of 0 is none. -/
structure Direction where
  data : Nat → UInt8 := fun _ => 0
  begin : Nat := 0
  stop : Nat := 0
  eof : Bool := false
  shutdown : Bool := false
  retryDelay : Int := 0
  retryAfter : Int := 0
  retryStarted : Int := 0

namespace Direction

/-- The bytes that are received and not sent. -/
def pending (d : Direction) : List UInt8 := (List.range (d.stop - d.begin)).map fun k => d.data (d.begin + k)

/-- `memmove` to the start of the buffer. -/
def move (d : Direction) : Direction :=
  { d with
    data := fun k => if k < d.stop - d.begin then d.data (d.begin + k) else d.data k
    stop := d.stop - d.begin
    begin := 0 }

def compact (d : Direction) : Direction :=
  if d.begin = d.stop then { d with begin := 0, stop := 0 }
  else if d.stop = capacity ∧ d.begin ≠ 0 then d.move
  else d

/-- What `recv` writes behind the bytes that are there. -/
def fill (d : Direction) (bytes : List UInt8) : Direction :=
  { d with
    data := fun k => if d.stop ≤ k ∧ k < d.stop + bytes.length then bytes.getD (k - d.stop) 0 else d.data k
    stop := d.stop + bytes.length }

/-- A `send` that took `n` bytes. -/
def advance (d : Direction) (n : Nat) : Direction :=
  { d with begin := d.begin + n, retryAfter := 0, retryStarted := 0, retryDelay := 0 }

/-- A `send` to a full ring at time `now`. -/
def defer (d : Direction) (now : Int) : Direction :=
  let delay := if d.retryDelay ≠ 0 then (if d.retryDelay < 16 then d.retryDelay * 2 else 16) else 1
  { d with
    retryStarted := if d.retryAfter = 0 then now else d.retryStarted
    retryDelay := delay
    retryAfter := now + delay }

end Direction

/-! ## Calls -/

structure Revents where
  pollIn : Bool := false
  pollOut : Bool := false
  hup : Bool := false
  err : Bool := false
  nval : Bool := false
  deriving DecidableEq, Repr

inductive Call where
  /-- `fcntl` with `F_GETFL`, then with `F_SETFL` and `O_NONBLOCK`. -/
  | getFlags (i : Side)
  | setNonblocking (i : Side)
  | clock
  | shutdown (i : Side)
  /-- The events of each descriptor, `POLLIN` and `POLLOUT`; one without events
  is given as `-1`. -/
  | poll (events : Side → Bool × Bool) (timeout : Int)
  | socketError (i : Side)
  | send (i : Side) (bytes : List UInt8)
  | recv (i : Side) (size : Nat)
  /-- An assignment to `direction[i]`. -/
  | assign (i : Side) (d : Direction)

def Call.Reply : Call → Type
  | .getFlags _ | .setNonblocking _ | .shutdown _ => Option Errno
  | .clock => Except Errno Int
  | .poll _ _ => Except Errno (Side → Revents)
  | .socketError _ => Except Errno (Option Errno)
  | .send _ _ => Except Errno Nat
  | .recv _ _ => Except Errno (List UInt8)
  | .assign _ _ => Unit

/-- One direction, from endpoint `i` to the other: what was received from the one
and sent to the other, and the buffer. `shut` is how much had been sent when the
other endpoint's write side was shut down. -/
structure Flow where
  received : List UInt8 := []
  ended : Bool := false
  sent : List UInt8 := []
  shut : Option Nat := none
  direction : Direction := {}

abbrev World := Side → Flow

/-- What the environment decides in a call. -/
structure Answer where
  errno : Option Errno := none
  count : Nat := 0
  bytes : List UInt8 := []
  time : Int := 0
  revents : Side → Revents := fun _ => {}
  error : Option Errno := none

def Answer.result {α : Type} (a : Answer) (v : α) : Except Errno α :=
  match a.errno with
  | some e => .error e
  | none => .ok v

def step (w : World) (c : Call) (a : Answer) : World × c.Reply :=
  match c with
  | .getFlags _ | .setNonblocking _ => (w, a.errno)
  | .clock => (w, a.result a.time)
  | .shutdown i =>
    let f := w i.other
    -- Without a connection there is nothing left to shut down.
    (if a.errno = none ∨ a.errno = some .enotconn then update w i.other { f with shut := some f.sent.length } else w, a.errno)
  | .poll events _ => (w, a.result fun i => if (events i).1 || (events i).2 then a.revents i else {})
  | .socketError _ => (w, a.result a.error)
  | .send i bytes =>
    let f := w i.other
    match a.errno with
    | some e => (w, .error e)
    | none => (update w i.other { f with sent := f.sent ++ bytes.take a.count }, .ok (bytes.take a.count).length)
  | .recv i size =>
    let f := w i
    match a.errno with
    | some e => (w, .error e)
    | none =>
      (update w i { f with received := f.received ++ a.bytes.take size, ended := f.ended || (a.bytes.take size).isEmpty },
        .ok (a.bytes.take size))
  | .assign i d => (update w i { w i with direction := d }, ())

abbrev ProxyI : Interface := ⟨Call, Call.Reply⟩

abbrev Sockets : Machine ProxyI := ⟨World, Answer, step⟩

abbrev Act := Prog ProxyI

def perform (c : Call) : Act c.Reply := Prog.perform (I := ProxyI) c

/-! ## The loop -/

/-- `NATIVE_PROXY_QUEUE_TIMEOUT_MS`. -/
def queueTimeout : Int := 15000

/-- A conversion to `int`. -/
def toInt (x : Int) : Int := x.bmod 4294967296

/-- Set both descriptors nonblocking. -/
def setNonblocking : List Side → Act (Option Failure)
  | [] => return none
  | i :: is => do
    match ← perform (.getFlags i) with
    | some e => return some ⟨"fcntl", some i, e⟩
    | none =>
      match ← perform (.setNonblocking i) with
      | some e => return some ⟨"fcntl", some i, e⟩
      | none => setNonblocking is

/-- Shut down the peer once a drained direction has ended. -/
def finishDirection (i : Side) (d : Direction) : Act (Except Failure Direction) := do
  if d.eof ∧ d.stop = 0 ∧ ¬d.shutdown then
    let done := { d with shutdown := true }
    match ← perform (.shutdown i.other) with
    | some e =>
      if e ≠ .enotconn then
        return .error ⟨"shutdown", some i.other, e⟩
      perform (.assign i done)
      return .ok done
    | none =>
      perform (.assign i done)
      return .ok done
  else
    return .ok d

/-- Whether a direction may write now, and the timeout it asks of `poll`; `none`
where the ring has been full for too long. -/
def pace (now : Int) (d : Direction) (timeout : Int) : Option (Bool × Int) :=
  if d.stop ≤ d.begin ∨ d.retryAfter = 0 then some (true, timeout)
  else
    let budget := queueTimeout - (now - d.retryStarted)
    if budget ≤ 0 then none
    else
      let timeout := if timeout < 0 ∨ budget < timeout then toInt budget else timeout
      let pause := d.retryAfter - now
      if pause > 0 then some (false, if pause < timeout then toInt pause else timeout) else some (true, timeout)

/-- The first loop over the directions, for one of them. -/
def prepare (now : Int) (i : Side) (d : Direction) (timeout : Int) : Act (Except Failure (Direction × Bool × Int)) := do
  perform (.assign i d.compact)
  match ← finishDirection i d.compact with
  | .error f => return .error f
  | .ok d =>
    match pace now d timeout with
    | none => return .error ⟨"mk-queue-timeout", some i.other, .etimedout⟩
    | some (allowed, timeout) => return .ok (d, allowed, timeout)

/-- The clock is read while a ring is full. -/
def readClock (d : Side → Direction) : Act (Except Errno Int) :=
  if (d .left).retryAfter ≠ 0 ∨ (d .right).retryAfter ≠ 0 then perform .clock else return .ok 0

/-- What `poll` is asked for an endpoint: room in its own direction's buffer, and
something to write in the other's. -/
def eventsOf (d : Side → Direction) (allowed : Side → Bool) (i : Side) : Bool × Bool :=
  (!(d i).eof && (d i).stop < capacity, (d i.other).begin < (d i.other).stop && allowed i.other)

/-- The second loop, over what `poll` reports. -/
def pollErrors (revents : Side → Revents) : List Side → Act (Option Failure)
  | [] => return none
  | i :: is => do
    if (revents i).nval then
      return some ⟨"poll-invalid", some i, .ebadf⟩
    if (revents i).err then
      match ← perform (.socketError i) with
      | .error e => return some ⟨"socket-error-query", some i, e⟩
      | .ok error => return some ⟨"poll-error", some i, error.getD .eio⟩
    pollErrors revents is

/-- The write of the third loop. `mk` is `NATIVE_PROXY_MK_ENDPOINT`. -/
def sendPending (mk : Option Side) (i : Side) (d : Direction) : Act (Except Failure Direction) := do
  match ← perform (.send i.other d.pending) with
  | .ok n =>
    if n = 0 then
      return .error ⟨"send-zero", some i.other, .epipe⟩
    perform (.assign i (d.advance n))
    return .ok (d.advance n)
  | .error e =>
    if e = .enospc ∧ some i.other = mk then
      match ← perform .clock with
      | .error e => return .error ⟨"clock", some i.other, e⟩
      | .ok now =>
        perform (.assign i (d.defer now))
        return .ok (d.defer now)
    else if ¬e.transient then
      return .error ⟨"send", some i.other, e⟩
    else
      return .ok d

/-- The read of the third loop. -/
def receive (i : Side) (d : Direction) : Act (Except Failure Direction) := do
  match ← perform (.recv i (capacity - d.stop)) with
  | .ok bytes =>
    let d' := if bytes = [] then { d with eof := true } else d.fill bytes
    perform (.assign i d')
    return .ok d'
  | .error e =>
    if ¬e.transient then
      return .error ⟨"recv", some i, e⟩
    return .ok d

/-- The third loop, for one direction. -/
def transfer (mk : Option Side) (revents : Side → Revents) (allowed : Bool) (i : Side) (d : Direction) :
    Act (Except Failure Direction) := do
  let sent ← (if d.begin < d.stop ∧ allowed ∧ ((revents i.other).pollOut ∨ (revents i.other).hup) then sendPending mk i d
    else pure (.ok d))
  match sent with
  | .error f => return .error f
  | .ok d =>
    if ¬d.eof ∧ d.stop < capacity ∧ ((revents i).pollIn ∨ (revents i).hup) then
      receive i d
    else
      return .ok d

/-- Values for both sides. -/
def both {α : Type} (l r : α) : Side → α
  | .left => l
  | .right => r

/-- What follows `poll`. -/
def serve (mk : Option Side) (d : Side → Direction) (allowed : Side → Bool) (revents : Side → Revents) :
    Act (Except Failure (Side → Direction)) := do
  match ← pollErrors revents [.left, .right] with
  | some f => return .error f
  | none =>
    match ← transfer mk revents (allowed .left) .left (d .left) with
    | .error f => return .error f
    | .ok l =>
      match ← transfer mk revents (allowed .right) .right (d .right) with
      | .error f => return .error f
      | .ok r => return .ok (both l r)

/-- One turn of the loop; `none` is a return of 0. -/
def turn (mk : Option Side) (d : Side → Direction) : Act (Except Failure (Option (Side → Direction))) := do
  match ← readClock d with
  | .error e => return .error ⟨"clock", none, e⟩
  | .ok now =>
    match ← prepare now .left (d .left) (-1) with
    | .error f => return .error f
    | .ok (l, allowedL, timeout) =>
      match ← prepare now .right (d .right) timeout with
      | .error f => return .error f
      | .ok (r, allowedR, timeout) =>
        if l.shutdown ∧ r.shutdown then
          return .ok none
        match ← perform (.poll (eventsOf (both l r) (both allowedL allowedR)) timeout) with
        | .error e => return if e = .eintr then .ok (some (both l r)) else .error ⟨"poll", none, e⟩
        | .ok revents => return (← serve mk (both l r) (both allowedL allowedR) revents).map some

/-- `n` turns of the loop; `none` if it is still running then. -/
def loop (mk : Option Side) : Nat → (Side → Direction) → Act (Option (Except Failure Unit))
  | 0, _ => return none
  | n + 1, d => do
    match ← turn mk d with
    | .error f => return some (.error f)
    | .ok none => return some (.ok ())
    | .ok (some d) => loop mk n d

def nativeStreamProxy (mk : Option Side) (n : Nat) : Act (Option (Except Failure Unit)) := do
  match ← setNonblocking [.left, .right] with
  | some f => return some (.error f)
  | none => loop mk n fun _ => {}

/-! ## Bytes in the buffer -/

theorem drop_length_take {α : Type} (n : Nat) (l : List α) : l.drop (l.take n).length = l.drop n := by
  rw [List.length_take]
  rcases Nat.le_total n l.length with hle | hle
  · rw [Nat.min_eq_left hle]
  · rw [Nat.min_eq_right hle, List.drop_length, List.drop_eq_nil_of_le hle]

namespace Direction
variable {d : Direction}

theorem length_pending : d.pending.length = d.stop - d.begin := by simp [pending]

theorem pending_eq_nil (h : d.begin = d.stop) : d.pending = [] := by simp [pending, h]

theorem pending_move : d.move.pending = d.pending := by
  apply List.ext_getElem
  · simp [move, pending]
  · intro k hk _
    have hlt : k < d.stop - d.begin := by simpa [move, pending] using hk
    simp [move, pending, hlt]

theorem pending_compact : d.compact.pending = d.pending := by
  unfold compact
  split
  · rename_i h
    rw [pending_eq_nil h]
    rfl
  · split
    · exact pending_move
    · rfl

theorem pending_advance (n : Nat) : (d.advance n).pending = d.pending.drop n := by
  apply List.ext_getElem
  · simp only [length_pending, List.length_drop, advance]
    omega
  · intro k _ _
    simp [advance, pending, Nat.add_assoc]

theorem pending_fill (h : d.begin ≤ d.stop) (bytes : List UInt8) : (d.fill bytes).pending = d.pending ++ bytes := by
  apply List.ext_getElem
  · simp only [length_pending, List.length_append, fill]
    omega
  · intro k hk _
    have hlt : k < d.stop + bytes.length - d.begin := by simpa [fill, pending] using hk
    by_cases hold : k < d.stop - d.begin
    · have hbelow : ¬d.stop ≤ d.begin + k := by omega
      rw [List.getElem_append_left (by simpa [pending] using hold)]
      simp [fill, pending, hbelow]
    · have hnew : d.stop ≤ d.begin + k ∧ d.begin + k < d.stop + bytes.length := by omega
      have hindex : d.begin + k - d.stop = k - (d.stop - d.begin) := by omega
      have hin : k - (d.stop - d.begin) < bytes.length := by omega
      rw [List.getElem_append_right (by simpa [pending] using hold)]
      simp [fill, pending, hnew, hindex, hin]

theorem compact_bounds (h : d.begin ≤ d.stop) (hcap : d.stop ≤ capacity) :
    d.compact.begin ≤ d.compact.stop ∧ d.compact.stop ≤ capacity := by
  unfold compact
  split
  · exact ⟨Nat.le_refl 0, Nat.zero_le _⟩
  · split
    · exact ⟨Nat.zero_le _, Nat.le_trans (Nat.sub_le _ _) hcap⟩
    · exact ⟨h, hcap⟩

theorem compact_shutdown : d.compact.shutdown = d.shutdown ∧ d.compact.eof = d.eof := by
  unfold compact
  split
  · exact ⟨rfl, rfl⟩
  · split
    · exact ⟨rfl, rfl⟩
    · exact ⟨rfl, rfl⟩

end Direction

/-! ## What holds of a direction -/

/-- At every moment. -/
structure Flow.Sound (f : Flow) : Prop where
  ordered : f.sent <+: f.received
  begin : f.direction.begin ≤ f.direction.stop
  stop : f.direction.stop ≤ capacity
  shut : ∀ k, f.shut = some k → f.ended ∧ f.sent = f.received ∧ k = f.sent.length

/-- Between the statements of the loop, where the function has `d`. -/
structure Flow.Exact (f : Flow) (d : Direction) : Prop where
  direction : f.direction = d
  received : f.received = f.sent ++ d.pending
  begin : d.begin ≤ d.stop
  stop : d.stop ≤ capacity
  eof : d.eof = f.ended
  shut : d.shutdown → f.shut = some f.sent.length ∧ d.eof ∧ d.pending = []
  unshut : d.shutdown = false → f.shut = none

section Flows
variable {f : Flow} {d : Direction}

theorem Flow.Exact.sound (h : f.Exact d) : f.Sound where
  ordered := by
    rw [h.received]
    exact List.prefix_append _ _
  begin := by
    rw [h.direction]
    exact h.begin
  stop := by
    rw [h.direction]
    exact h.stop
  shut k hk := by
    cases hs : d.shutdown with
    | false =>
      rw [h.unshut hs] at hk
      cases hk
    | true =>
      obtain ⟨hshut, heof, hnil⟩ := h.shut hs
      rw [hshut] at hk
      refine ⟨h.eof ▸ heof, ?_, (Option.some.inj hk).symm⟩
      rw [h.received, hnil, List.append_nil]

end Flows

@[simp] theorem Side.other_other (i : Side) : i.other.other = i := by cases i <;> rfl

def Safe (w : World) : Prop := ∀ j, (w j).Sound

theorem Safe.update {w : World} (h : Safe w) {i : Side} {f : Flow} (hf : f.Sound) : Safe (update w i f) := by
  intro j
  by_cases hj : j = i
  · rw [hj, update_self]
    exact hf
  · rw [update_of_ne hj]
    exact h j

/-- Whatever the environment answers, every call is made in a safe world. -/
abbrev Keeps {α : Type} (p : Act α) (w : World) (Q : α → World → Prop) : Prop :=
  Sat (Sockets.trans fun _ _ _ => True) (fun w _ => Safe w) p w Q

/-- A part of the loop that works on direction `i` has left the other alone, and
has the buffer that it returns. -/
structure Moves (i : Side) (w : World) (r : Except Failure Direction) (w' : World) : Prop where
  safe : Safe w'
  other : ∀ j, j ≠ i → w' j = w j
  exact : ∀ d, r = .ok d → (w' i).Exact d

section Programs
variable {w : World} {i : Side} {d d' : Direction}

theorem Moves.refl (hw : Safe w) (h : (w i).Exact d) : Moves i w (.ok d) w :=
  ⟨hw, fun _ _ => rfl, fun _ hd => Except.ok.inj hd ▸ h⟩

theorem Moves.error (hw : Safe w) {failure : Failure} : Moves i w (.error failure) w :=
  ⟨hw, fun _ _ => rfl, fun _ hd => by cases hd⟩

/-- An effect on direction `i`, and the assignment that follows it. -/
theorem keeps_assign {f : Flow} (hw : Safe w) (hf : f.Sound) (h : Flow.Exact { f with direction := d } d) :
    Keeps (do perform (.assign i d); return (.ok d : Except Failure Direction)) (update w i f) (Moves i w) := by
  refine ⟨hw.update hf, fun r w' hr => ?_⟩
  obtain ⟨a, -, hstep⟩ := hr
  obtain ⟨rfl, -⟩ := Prod.mk.inj hstep
  rw [update_self, update_idem]
  refine ⟨hw.update h.sound, fun j hj => update_of_ne hj _ w, fun d' hd => ?_⟩
  obtain rfl := Except.ok.inj hd
  rw [update_self]
  exact h

theorem Flow.Exact.compact {f : Flow} (h : f.Exact d) : Flow.Exact { f with direction := d.compact } d.compact where
  direction := rfl
  received := by
    rw [Direction.pending_compact]
    exact h.received
  begin := (Direction.compact_bounds h.begin h.stop).1
  stop := (Direction.compact_bounds h.begin h.stop).2
  eof := Direction.compact_shutdown.2.trans h.eof
  shut hs := by
    rw [Direction.compact_shutdown.1] at hs
    rw [Direction.compact_shutdown.2, Direction.pending_compact]
    exact h.shut hs
  unshut hs := h.unshut (Direction.compact_shutdown.1.symm.trans hs)

theorem keeps_finishDirection (hw : Safe w) (h : (w i).Exact d) : Keeps (finishDirection i d) w (Moves i w) := by
  unfold finishDirection
  refine sat_ite.2 ⟨fun hdue => ⟨hw, fun r w' hr => ?_⟩, fun _ => Moves.refl hw h⟩
  obtain ⟨heof, hstop, hunshut⟩ := hdue
  have hnil : d.pending = [] := by simp [Direction.pending, hstop]
  have hshut : Flow.Exact { w i with shut := some (w i).sent.length, direction := { d with shutdown := true } }
      { d with shutdown := true } :=
    ⟨rfl, h.received, h.begin, h.stop, h.eof, fun _ => ⟨rfl, heof, hnil⟩, fun hx => by cases hx⟩
  have hmid : Flow.Sound { w i with shut := some (w i).sent.length } := by
    have hsame := hshut.sound
    exact ⟨hsame.ordered, (hw i).begin, (hw i).stop, hsame.shut⟩
  obtain ⟨a, -, hstep⟩ := hr
  obtain ⟨hworld, hreply⟩ := Prod.mk.inj hstep
  change a.errno = r at hreply
  change (if a.errno = none ∨ a.errno = some .enotconn then _ else w) = w' at hworld
  rw [Side.other_other, hreply] at hworld
  cases r with
  | none =>
    rw [if_pos (.inl rfl)] at hworld
    rw [← hworld]
    exact keeps_assign hw hmid hshut
  | some e =>
    refine sat_ite.2 ⟨fun hne => ?_, fun heq => ?_⟩
    · rw [if_neg (by simpa using hne)] at hworld
      rw [← hworld]
      exact Moves.error hw
    · rw [if_pos (.inr (congrArg some (not_not.1 heq)))] at hworld
      rw [← hworld]
      exact keeps_assign hw hmid hshut

theorem Moves.trans {w' w'' : World} {r r' : Except Failure Direction} (h : Moves i w r w') (h' : Moves i w' r' w'') :
    Moves i w r' w'' :=
  ⟨h'.safe, fun j hj => (h'.other j hj).trans (h.other j hj), h'.exact⟩

/-- The first loop keeps a direction exact. -/
theorem keeps_prepare (now timeout : Int) (hw : Safe w) (h : (w i).Exact d) :
    Keeps (prepare now i d timeout) w fun r w' => Moves i w (r.map (·.1)) w' := by
  have hcompact := h.compact
  refine ⟨hw, fun r w₁ hr => ?_⟩
  obtain ⟨a, -, hstep⟩ := hr
  obtain ⟨rfl, -⟩ := Prod.mk.inj hstep
  have hw₁ : Safe (update w i { w i with direction := d.compact }) := hw.update hcompact.sound
  have hmoves : Moves i w (.ok d.compact) (update w i { w i with direction := d.compact }) := by
    refine ⟨hw₁, fun j hj => update_of_ne hj _ w, fun d' hd => ?_⟩
    obtain rfl := Except.ok.inj hd
    rw [update_self]
    exact hcompact
  have hfinish := keeps_finishDirection hw₁ (by rw [update_self]; exact hcompact)
  refine Sat.bind (p := finishDirection i d.compact) hfinish fun r w₂ hr => ?_
  have hmoved := hmoves.trans hr
  cases r with
  | error failure => exact hmoved
  | ok d₂ =>
    dsimp only
    split
    · exact ⟨hmoved.safe, hmoved.other, fun _ hd => by cases hd⟩
    · exact hmoved

/-- What a `send` that took some of the pending bytes leaves, before and after
`begin` moves on. -/
theorem Flow.Exact.send {f : Flow} (h : f.Exact d) (n : Nat) :
    Flow.Sound { f with sent := f.sent ++ d.pending.take n } ∧
      ((d.pending.take n).length ≠ 0 → Flow.Exact
        { f with sent := f.sent ++ d.pending.take n, direction := d.advance (d.pending.take n).length }
        (d.advance (d.pending.take n).length)) := by
  have hunshut : (d.pending.take n).length ≠ 0 → d.shutdown = false := by
    intro hsome
    cases hs : d.shutdown with
    | false => rfl
    | true =>
      rw [(h.shut hs).2.2] at hsome
      simp at hsome
  have hsplit : f.received = f.sent ++ d.pending.take n ++ d.pending.drop n := by
    rw [List.append_assoc, List.take_append_drop]
    exact h.received
  constructor
  · refine ⟨?_, h.sound.begin, h.sound.stop, fun k hk => ?_⟩
    · rw [hsplit]
      exact List.prefix_append _ _
    · obtain ⟨hended, hall, hlen⟩ := h.sound.shut k hk
      have hnil : d.pending = [] := by
        have hreceived := h.received
        rw [← hall] at hreceived
        simpa using hreceived
      simpa [hnil] using ⟨hended, hall, hlen⟩
  · intro hsome
    have hlen : (d.pending.take n).length ≤ d.stop - d.begin := by
      rw [← Direction.length_pending]
      exact List.length_take_le' _ _
    refine ⟨rfl, ?_, ?_, h.stop, h.eof, fun hs => ?_, fun _ => h.unshut (hunshut hsome)⟩
    · rw [Direction.pending_advance, drop_length_take]
      exact hsplit
    · have hbegin := h.begin
      change d.begin + (d.pending.take n).length ≤ d.stop
      omega
    · change d.shutdown = true at hs
      rw [hunshut hsome] at hs
      cases hs

theorem keeps_sendPending (mk : Option Side) (hw : Safe w) (h : (w i).Exact d) : Keeps (sendPending mk i d) w (Moves i w) := by
  refine ⟨hw, fun r w₁ hr => ?_⟩
  obtain ⟨a, -, hstep⟩ := hr
  change step w (.send i.other d.pending) a = (w₁, r) at hstep
  simp only [step, Side.other_other] at hstep
  cases herr : a.errno with
  | none =>
    rw [herr] at hstep
    obtain ⟨rfl, rfl⟩ := Prod.mk.inj hstep
    obtain ⟨hmid, hnext⟩ := h.send a.count
    refine Sat.unless ?_ fun hsome => keeps_assign hw hmid (hnext hsome)
    exact ⟨hw.update hmid, fun j hj => update_of_ne hj _ w, fun _ hd => by cases hd⟩
  | some e =>
    rw [herr] at hstep
    obtain ⟨rfl, rfl⟩ := Prod.mk.inj hstep
    refine Sat.unless ⟨hw, fun r w₂ hr => ?_⟩ fun _ => Sat.unless (Moves.error hw) fun _ => Moves.refl hw h
    obtain ⟨b, -, hclock⟩ := hr
    obtain ⟨rfl, -⟩ := Prod.mk.inj hclock
    change Except Errno Int at r
    cases r with
    | error e => exact Moves.error hw
    | ok now =>
      have hdefer : Flow.Exact { w i with direction := d.defer now } (d.defer now) :=
        ⟨rfl, h.received, h.begin, h.stop, h.eof, h.shut, h.unshut⟩
      have hassign := keeps_assign (i := i) hw (hw i) hdefer
      rwa [update_eq_self] at hassign

theorem Flow.Exact.receive {f : Flow} (h : f.Exact d) (heof : d.eof = false) {bytes : List UInt8}
    (hfits : bytes.length ≤ capacity - d.stop) :
    Flow.Sound { f with received := f.received ++ bytes, ended := f.ended || bytes.isEmpty } ∧
      Flow.Exact { f with
          received := f.received ++ bytes
          ended := f.ended || bytes.isEmpty
          direction := if bytes = [] then { d with eof := true } else d.fill bytes }
        (if bytes = [] then { d with eof := true } else d.fill bytes) := by
  have hunshut : d.shutdown = false := by
    cases hs : d.shutdown with
    | false => rfl
    | true =>
      rw [(h.shut hs).2.1] at heof
      cases heof
  have hopen := h.unshut hunshut
  constructor
  · refine ⟨h.sound.ordered.trans (List.prefix_append _ _), h.sound.begin, h.sound.stop, fun k hk => ?_⟩
    rw [show f.shut = some k from hk] at hopen
    cases hopen
  · by_cases hnil : bytes = []
    · rw [if_pos hnil, hnil]
      refine ⟨rfl, ?_, h.begin, h.stop, by simp, fun hs => ?_, fun _ => hopen⟩
      · rw [List.append_nil]
        exact h.received
      · rw [show d.shutdown = true from hs] at hunshut
        cases hunshut
    · rw [if_neg hnil]
      refine ⟨rfl, ?_, ?_, ?_, ?_, fun hs => ?_, fun _ => hopen⟩
      · rw [Direction.pending_fill h.begin, ← List.append_assoc]
        exact congrArg (· ++ bytes) h.received
      · exact Nat.le_trans h.begin (Nat.le_add_right _ _)
      · have hstop := h.stop
        change d.stop + bytes.length ≤ capacity
        omega
      · have hsome : bytes.isEmpty = false := by simpa using hnil
        rw [hsome, Bool.or_false]
        exact h.eof
      · rw [show d.shutdown = true from hs] at hunshut
        cases hunshut

theorem keeps_receive (hw : Safe w) (h : (w i).Exact d) (heof : d.eof = false) : Keeps (receive i d) w (Moves i w) := by
  refine ⟨hw, fun r w₁ hr => ?_⟩
  obtain ⟨a, -, hstep⟩ := hr
  change step w (.recv i (capacity - d.stop)) a = (w₁, r) at hstep
  simp only [step] at hstep
  cases herr : a.errno with
  | none =>
    rw [herr] at hstep
    obtain ⟨rfl, rfl⟩ := Prod.mk.inj hstep
    obtain ⟨hmid, hnext⟩ := h.receive heof (List.length_take_le (capacity - d.stop) a.bytes)
    exact keeps_assign hw hmid hnext
  | some e =>
    rw [herr] at hstep
    obtain ⟨rfl, rfl⟩ := Prod.mk.inj hstep
    exact Sat.unless (Moves.error hw) fun _ => Moves.refl hw h

theorem keeps_transfer (mk : Option Side) (revents : Side → Revents) (allowed : Bool) (hw : Safe w) (h : (w i).Exact d) :
    Keeps (transfer mk revents allowed i d) w (Moves i w) := by
  unfold transfer
  have hsend : Keeps (if d.begin < d.stop ∧ allowed ∧ ((revents i.other).pollOut ∨ (revents i.other).hup) then
      sendPending mk i d else pure (.ok d)) w (Moves i w) :=
    Sat.unless (keeps_sendPending mk hw h) fun _ => Moves.refl hw h
  refine Sat.bind hsend fun r w₁ hr => ?_
  cases r with
  | error failure => exact hr
  | ok d₁ =>
    refine sat_ite.2 ⟨fun hdue => ?_, fun _ => hr⟩
    refine (keeps_receive hr.safe (hr.exact d₁ rfl) (by simpa using hdue.1)).mono fun r w₂ hr' => hr.trans hr'

end Programs

/-! ## The loop -/

theorem Side.forall {P : Side → Prop} (hl : P .left) (hr : P .right) (i : Side) : P i := by
  cases i
  · exact hl
  · exact hr

/-- The function has both buffers. -/
def Holds (d : Side → Direction) (w : World) : Prop := Safe w ∧ ∀ i, (w i).Exact (d i)

section Loop
variable {w w' : World} {d : Side → Direction}

theorem Moves.left {l : Direction} (h : Moves .left w (.ok l) w') (hw : Holds d w) : Holds (both l (d .right)) w' := by
  refine ⟨h.safe, Side.forall (h.exact l rfl) ?_⟩
  rw [h.other .right (by decide)]
  exact hw.2 .right

theorem Moves.right {l r : Direction} (h : Moves .right w (.ok r) w') (hw : Holds (both l (d .right)) w) :
    Holds (both l r) w' := by
  refine ⟨h.safe, Side.forall ?_ (h.exact r rfl)⟩
  rw [h.other .left (by decide)]
  exact hw.2 .left

/-- A call without an effect. -/
theorem keeps_call {α : Type} {c : Call} {k : c.Reply → Act α} {Q : α → World → Prop} (hw : Safe w)
    (hc : ∀ a, (step w c a).1 = w) (hk : ∀ r, Keeps (k r) w Q) : Keeps (.call c k) w Q := by
  refine ⟨hw, fun r w' hr => ?_⟩
  obtain ⟨a, -, hstep⟩ := hr
  obtain rfl : w = w' := (hc a).symm.trans (congrArg Prod.fst hstep)
  exact hk r

theorem keeps_pollErrors (hw : Safe w) (revents : Side → Revents) (is : List Side) :
    Keeps (pollErrors revents is) w fun _ w' => w' = w := by
  induction is with
  | nil => exact rfl
  | cons i is ih =>
    refine Sat.unless rfl fun _ => Sat.unless ?_ fun _ => ih
    refine keeps_call hw (fun _ => rfl) fun r => ?_
    change Except Errno (Option Errno) at r
    cases r with
    | error | ok => exact rfl

theorem keeps_serve (mk : Option Side) (allowed : Side → Bool) (revents : Side → Revents) (hw : Holds d w) :
    Keeps (serve mk d allowed revents) w fun r w' => Safe w' ∧ ∀ d', r = .ok d' → Holds d' w' := by
  refine Sat.bind (keeps_pollErrors hw.1 revents _) ?_
  rintro r _ rfl
  cases r with
  | some failure => exact ⟨hw.1, fun _ hd => by cases hd⟩
  | none =>
    refine Sat.bind (keeps_transfer mk revents _ hw.1 (hw.2 .left)) fun r w₁ hr => ?_
    cases r with
    | error failure => exact ⟨hr.safe, fun _ hd => by cases hd⟩
    | ok l =>
      have hl := hr.left hw
      refine Sat.bind (keeps_transfer mk revents _ hl.1 (hl.2 .right)) fun r w₂ hr' => ?_
      cases r with
      | error failure => exact ⟨hr'.safe, fun _ hd => by cases hd⟩
      | ok r =>
        refine ⟨hr'.safe, fun d' hd => ?_⟩
        obtain rfl := Except.ok.inj hd
        exact hr'.right hl

/-- Both directions are done. -/
def Done (w : World) : Prop :=
  ∀ i, (w i).ended ∧ (w i).sent = (w i).received ∧ (w i).shut = some (w i).sent.length

theorem Holds.done (hw : Holds d w) (hs : ∀ i, (d i).shutdown) : Done w := by
  intro i
  obtain ⟨hshut, heof, hnil⟩ := (hw.2 i).shut (hs i)
  refine ⟨(hw.2 i).eof ▸ heof, ?_, hshut⟩
  rw [(hw.2 i).received, hnil, List.append_nil]

/-- After a turn the function goes on with both buffers, is done, or fails. -/
structure Turned (r : Except Failure (Option (Side → Direction))) (w : World) : Prop where
  safe : Safe w
  done : r = .ok none → Done w
  goes : ∀ d, r = .ok (some d) → Holds d w

theorem Turned.error (hw : Safe w) {failure : Failure} : Turned (.error failure) w :=
  ⟨hw, (fun hx => by cases hx), (fun _ hx => by cases hx)⟩

theorem Turned.more (hw : Holds d w) : Turned (.ok (some d)) w := by
  refine ⟨hw.1, (fun hx => by cases hx), fun d' hd => ?_⟩
  obtain rfl := Option.some.inj (Except.ok.inj hd)
  exact hw

theorem keeps_turn (mk : Option Side) (hw : Holds d w) : Keeps (turn mk d) w Turned := by
  have hclock : Keeps (readClock d) w fun _ w' => w' = w :=
    Sat.unless (keeps_call hw.1 (fun _ => rfl) fun _ => rfl) fun _ => rfl
  refine Sat.bind hclock ?_
  rintro r _ rfl
  cases r with
  | error e => exact Turned.error hw.1
  | ok now =>
    refine Sat.bind (keeps_prepare now (-1) hw.1 (hw.2 .left)) fun r w₁ hr => ?_
    match r with
    | .error failure => exact Turned.error hr.safe
    | .ok (l, allowedL, timeout) =>
      have hl := hr.left hw
      refine Sat.bind (keeps_prepare now timeout hl.1 (hl.2 .right)) fun r w₂ hr' => ?_
      match r with
      | .error failure => exact Turned.error hr'.safe
      | .ok (r, allowedR, timeout) =>
        have hboth := hr'.right hl
        refine sat_ite.2 ⟨fun hs => ?_, fun _ => keeps_call hboth.1 (fun _ => rfl) fun reply => ?_⟩
        · exact ⟨hboth.1, fun _ => hboth.done (Side.forall hs.1 hs.2), (fun _ hx => by cases hx)⟩
        · change Except Errno (Side → Revents) at reply
          cases reply with
          | error e =>
            by_cases he : e = .eintr
            · rw [he]
              exact Turned.more hboth
            · change Turned (if e = .eintr then _ else _) w₂
              rw [if_neg he]
              exact Turned.error hboth.1
          | ok revents =>
            refine Sat.bind (p := serve mk _ _ revents) (keeps_serve mk _ revents hboth) fun r w₃ hserved => ?_
            cases r with
            | error failure => exact Turned.error hserved.1
            | ok d' => exact Turned.more (hserved.2 d' rfl)

theorem keeps_loop (mk : Option Side) (n : Nat) (hw : Holds d w) :
    Keeps (loop mk n d) w fun r w' => Safe w' ∧ (r = some (.ok ()) → Done w') := by
  induction n generalizing d w with
  | zero => exact ⟨hw.1, fun hx => by cases hx⟩
  | succ n ih =>
    refine Sat.bind (keeps_turn mk hw) fun r w' hr => ?_
    match r with
    | .error failure => exact ⟨hr.safe, fun hx => by cases hx⟩
    | .ok none => exact ⟨hr.safe, fun _ => hr.done rfl⟩
    | .ok (some d') => exact ih (hr.goes d' rfl)

theorem keeps_setNonblocking (hw : Safe w) (is : List Side) : Keeps (setNonblocking is) w fun _ w' => w' = w := by
  induction is with
  | nil => exact rfl
  | cons i is ih =>
    refine keeps_call hw (fun _ => rfl) fun r => ?_
    change Option Errno at r
    cases r with
    | some e => exact rfl
    | none =>
      refine keeps_call hw (fun _ => rfl) fun r => ?_
      change Option Errno at r
      cases r with
      | some e => exact rfl
      | none => exact ih

theorem holds_init : Holds (fun _ => {}) fun _ => {} := by
  have hexact : Flow.Exact {} {} :=
    ⟨rfl, rfl, Nat.le_refl 0, Nat.zero_le _, rfl, (fun hx => by cases hx), fun _ => rfl⟩
  exact ⟨fun _ => hexact.sound, fun _ => hexact⟩

theorem keeps_nativeStreamProxy (mk : Option Side) (n : Nat) :
    Keeps (nativeStreamProxy mk n) (fun _ => {}) fun r w' => Safe w' ∧ (r = some (.ok ()) → Done w') := by
  refine Sat.bind (keeps_setNonblocking holds_init.1 _) ?_
  rintro r _ rfl
  cases r with
  | some failure => exact ⟨holds_init.1, fun hx => by cases hx⟩
  | none => exact keeps_loop mk n holds_init

end Loop

/-- In every run, for any number of turns and stopped before any call: what is
sent to an endpoint is the start of what was received from the other, the
buffers are within bounds, and a write side is shut down after its last byte.
A return of 0 means that both streams ended, were sent whole, and that both write
sides are shut down. -/
theorem proxy_forwards (mk : Option Side) (n : Nat) (as : List Answer) :
    (∀ i, ((exec Sockets (nativeStreamProxy mk n) (fun _ => {}) as).1 i).Sound) ∧
      ((exec Sockets (nativeStreamProxy mk n) (fun _ => {}) as).2 = some (some (.ok ())) →
        Done (exec Sockets (nativeStreamProxy mk n) (fun _ => {}) as).1) := by
  have hkeeps := keeps_nativeStreamProxy mk n
  refine ⟨hkeeps.exec_world (J := Safe) (fun _ _ h => h) (fun _ _ h => h.1) as (meets_true Sockets _ _ as), fun hreturned => ?_⟩
  have hresult := hkeeps.exec_result (meets_true Sockets _ _ as) (Prod.ext rfl hreturned)
  exact hresult.2 rfl

end Multikernel.Proxy
