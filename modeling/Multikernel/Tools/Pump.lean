import Multikernel.Tools.Proxy
/-!
# The pump of the agent relay

`wr` and `pump` of `tools/mkvsock-relay.c`. The loop reads and writes through one
table of descriptors, and takes a side that has ended out of it: what then comes
from the other side is written to descriptor -1.

`pump_forwards`: in every run in which nothing comes from a side after the end of
the other, the bytes are forwarded whole and in order. Otherwise the relay dies
with them (`pump_dies_after_half_close`).
-/

namespace Multikernel.Pump
open Lib
open Function (update update_self update_of_ne update_idem update_eq_self)
open Proxy (Side Errno)

/-! ## Calls -/

/-- A descriptor of the table; `none` is -1. -/
abbrev Fd := Option Side

inductive Call where
  | poll (fds : Side → Fd)
  | read (fd : Fd) (size : Nat)
  | write (fd : Fd) (bytes : List UInt8)
  | shutdown (fd : Fd)

/-- `poll` says whether `POLLIN` or `POLLHUP` is set. -/
def Call.Reply : Call → Type
  | .poll _ => Except Errno (Side → Bool)
  | .read _ _ => Except Errno (List UInt8)
  | .write _ _ => Except Errno Nat
  | .shutdown _ => Option Errno

/-- What was read from a side and written to the other, and whether the other's
write side is shut down. -/
structure Stream where
  received : List UInt8 := []
  ended : Bool := false
  sent : List UInt8 := []
  shut : Bool := false
  deriving DecidableEq, Repr

abbrev World := Side → Stream

/-- What the environment decides in a call. -/
structure Answer where
  errno : Option Errno := none
  ready : Side → Bool := fun _ => false
  bytes : List UInt8 := []
  count : Nat := 0

def step (w : World) (c : Call) (a : Answer) : World × c.Reply :=
  match c with
  | .poll fds =>
    (w, match a.errno with
      | some e => .error e
      | none => .ok fun i => (fds i).isSome && a.ready i)
  | .read none _ | .write none _ => (w, .error .ebadf)
  | .shutdown none => (w, some .ebadf)
  | .read (some i) size =>
    let s := w i
    match a.errno with
    | some e => (w, .error e)
    | none =>
      (update w i { s with received := s.received ++ a.bytes.take size, ended := s.ended || (a.bytes.take size).isEmpty },
        .ok (a.bytes.take size))
  | .write (some i) bytes =>
    let s := w i.other
    match a.errno with
    | some e => (w, .error e)
    | none => (update w i.other { s with sent := s.sent ++ bytes.take a.count }, .ok (bytes.take a.count).length)
  | .shutdown (some i) =>
    let s := w i.other
    (if a.errno = none then update w i.other { s with shut := true } else w, a.errno)

abbrev PumpI : Interface := ⟨Call, Call.Reply⟩

abbrev Sockets : Machine PumpI := ⟨World, Answer, step⟩

abbrev Act := Prog PumpI

def perform (c : Call) : Act c.Reply := Prog.perform (I := PumpI) c

/-! ## The loops -/

/-- How a loop ends: it has run for as long as it was given, it is done, or the
relay has exited after `die`. -/
inductive Outcome (α : Type) where
  | running
  | died (stage : String)
  | done (a : α)
  deriving DecidableEq, Repr

/-- `sizeof(q)`. -/
def capacity : Nat := 65536

/-- `wr`, for at most `n` calls of `write`. -/
def wr (fd : Fd) : Nat → List UInt8 → Act (Outcome Unit)
  | _, [] => return .done ()
  | 0, _ => return .running
  | n + 1, bytes => do
    match ← perform (.write fd bytes) with
    | .error e => if e = .eintr then wr fd n bytes else return .died "relay write"
    | .ok x => if x = 0 then return .died "relay write" else wr fd n (bytes.drop x)

/-- The table, with one descriptor out of it. -/
def drop (p : Side → Fd) (i : Side) : Side → Fd := fun j => if j = i then none else p j

/-- One side of the loop's body. -/
def forward (n : Nat) (ready : Bool) (i : Side) (p : Side → Fd) : Act (Outcome (Side → Fd)) := do
  if (p i).isSome ∧ ready then
    match ← perform (.read (p i) capacity) with
    | .ok (x :: xs) =>
      match ← wr (p i.other) n (x :: xs) with
      | .running => return .running
      | .died stage => return .died stage
      | .done _ => return .done p
    | _ =>
      let _ ← perform (.shutdown (p i.other))
      return .done (drop p i)
  else
    return .done p

/-- The source counts the descriptors that are left in the table; here for at
most `n` turns. -/
def loop : Nat → (Side → Fd) → Act (Outcome Unit)
  | n, p =>
    if (p .left).isNone ∧ (p .right).isNone then return .done ()
    else
      match n with
      | 0 => return .running
      | n + 1 => do
        match ← perform (.poll p) with
        | .error e => if e = .eintr then loop n p else return .died "poll"
        | .ok ready =>
          match ← forward n (ready .left) .left p with
          | .running => return .running
          | .died stage => return .died stage
          | .done p =>
            match ← forward n (ready .right) .right p with
            | .running => return .running
            | .died stage => return .died stage
            | .done p => loop n p

def pump (n : Nat) : Act (Outcome Unit) := loop n fun i => some i

/-! ## Runs in which nothing comes late -/

/-- The sockets work, and no bytes come from a side after the end of the other. -/
def Timely (w : World) (c : Call) (a : Answer) : Prop :=
  match c with
  | .poll _ => a.errno = none ∨ a.errno = some .eintr
  | .read (some i) _ => a.errno = none ∧ (a.bytes ≠ [] → (w i.other).ended = false)
  | .write (some _) _ => a.errno = some .eintr ∨ a.errno = none ∧ 0 < a.count
  | .shutdown (some _) => a.errno = none
  | _ => True

/-- At every moment. -/
structure Stream.Sound (s : Stream) : Prop where
  ordered : s.sent <+: s.received
  shut : s.shut → s.ended ∧ s.sent = s.received

/-- Nothing that was read is still to be written. -/
structure Stream.Whole (s : Stream) : Prop where
  sent : s.sent = s.received
  shut : s.shut → s.ended

theorem Stream.Whole.sound {s : Stream} (h : s.Whole) : s.Sound := by
  exact ⟨h.sent ▸ List.prefix_refl _, fun hs => ⟨h.shut hs, h.sent⟩⟩

section Worlds
variable {w : World} {i j : Side}

theorem sound_update (h : ∀ j, (w j).Sound) {s : Stream} (hs : s.Sound) (j : Side) : (update w i s j).Sound := by
  by_cases hj : j = i
  · rw [hj, update_self]
    exact hs
  · rw [update_of_ne hj]
    exact h j

theorem other_ne (i : Side) : i.other ≠ i := by cases i <;> decide

theorem eq_or_other (i j : Side) : j = i ∨ j = i.other := by cases i <;> cases j <;> decide

end Worlds

/-- The table has the sides that have not ended. -/
def Table (w : World) (p : Side → Fd) : Prop := ∀ i, p i = if (w i).ended then none else some i

/-- Between the statements of the loop. Of two sides that have ended, the first
one's shutdown has reached the other. -/
structure Between (p : Side → Fd) (w : World) : Prop where
  whole : ∀ i, (w i).Whole
  table : Table w p
  closed : ∀ i, (w i).ended → (w i).shut ∨ (w i.other).ended ∧ (w i.other).shut

/-- Nothing is left to write, and what has ended is shut down. -/
def Settled (w : World) : Prop := ∀ i, (w i).sent = (w i).received ∧ ((w i).ended → (w i).shut)

/-- Every call is made in a sound world, and `poll` in a settled one. -/
def Guarded (w : World) (c : Call) : Prop := (∀ i, (w i).Sound) ∧ ∀ fds, c = .poll fds → Settled w

/-- Both sides have ended, and at least one write side is shut down. -/
def Ended (w : World) : Prop :=
  ∀ i, (w i).ended ∧ (w i).sent = (w i).received ∧ ((w i).shut ∨ (w i.other).shut)

abbrev Keeps {α : Type} (p : Act α) (w : World) (Q : α → World → Prop) : Prop := Sat (Sockets.trans Timely) Guarded p w Q

/-- What a part of the loop leaves: it does not die. -/
def Lives {α : Type} (Q : α → World → Prop) (r : Outcome α) (w : World) : Prop :=
  (∀ i, (w i).Sound) ∧ (∀ stage, r ≠ .died stage) ∧ ∀ a, r = .done a → Q a w

section Programs
variable {w : World} {i : Side} {p : Side → Fd}

theorem Lives.running {α : Type} {Q : α → World → Prop} (h : ∀ i, (w i).Sound) : Lives Q .running w :=
  ⟨h, (fun _ hx => by cases hx), (fun _ hx => by cases hx)⟩

theorem Lives.done {α : Type} {Q : α → World → Prop} {a : α} (h : ∀ i, (w i).Sound) (hQ : Q a w) : Lives Q (.done a) w := by
  refine ⟨h, (fun _ hx => by cases hx), fun b hb => ?_⟩
  obtain rfl : a = b := Outcome.done.inj hb
  exact hQ

theorem update_sent (h : (w i).received = (w i).sent) : update w i { w i with sent := (w i).received } = w := by
  rw [h]
  exact update_eq_self i w

/-- `wr` writes everything. -/
theorem keeps_wr (n : Nat) {rest : List UInt8} (hw : ∀ j, (w j).Sound) (hopen : (w i).shut = false)
    (hrest : (w i).received = (w i).sent ++ rest) :
    Keeps (wr (some i.other) n rest) w (Lives fun _ w' => w' = update w i { w i with sent := (w i).received }) := by
  induction n generalizing w rest with
  | zero =>
    cases rest with
    | nil => exact Lives.done hw (update_sent (by simpa using hrest)).symm
    | cons x xs => exact Lives.running hw
  | succ n ih =>
    cases rest with
    | nil => exact Lives.done hw (update_sent (by simpa using hrest)).symm
    | cons x xs =>
      refine ⟨⟨hw, (fun _ hx => by cases hx)⟩, fun r w' hr => ?_⟩
      obtain ⟨a, ha, hstep⟩ := hr
      change step w (.write (some i.other) (x :: xs)) a = (w', r) at hstep
      simp only [step, Side.other_other] at hstep
      rcases ha with herr | ⟨herr, hcount⟩
      · rw [herr] at hstep
        obtain ⟨rfl, rfl⟩ := Prod.mk.inj hstep
        exact ih hw hopen hrest
      · rw [herr] at hstep
        obtain ⟨rfl, rfl⟩ := Prod.mk.inj hstep
        have hsome : ((x :: xs).take a.count).length ≠ 0 := by
          rw [List.length_take, List.length_cons]
          omega
        have hsplit : (w i).received = (w i).sent ++ (x :: xs).take a.count ++ (x :: xs).drop a.count := by
          rw [List.append_assoc, List.take_append_drop]
          exact hrest
        refine sat_ite.2 ⟨fun hx => absurd hx hsome, fun _ => ?_⟩
        rw [Proxy.drop_length_take]
        have hsound : Stream.Sound { w i with sent := (w i).sent ++ (x :: xs).take a.count } := by
          refine ⟨?_, fun hs => ?_⟩
          · rw [hsplit]
            exact List.prefix_append _ _
          · rw [show (w i).shut = true from hs] at hopen
            cases hopen
        have hnext := ih (sound_update (i := i) hw hsound) (by rwa [update_self]) (by rw [update_self]; exact hsplit)
        simpa only [update_self, update_idem] using hnext

theorem Between.sound (h : Between p w) (j : Side) : (w j).Sound := (h.whole j).sound

/-- A side of the table has not ended. -/
theorem Between.live (h : Between p w) (hsome : (p i).isSome) : p i = some i ∧ (w i).ended = false := by
  have htable := h.table i
  cases hended : (w i).ended with
  | true =>
    rw [hended, if_pos rfl] at htable
    rw [htable] at hsome
    cases hsome
  | false =>
    rw [hended] at htable
    exact ⟨htable, rfl⟩

/-- The bytes of a read are all written. -/
theorem Between.forwarded (h : Between p w) {s : Stream} (hsent : s.sent = s.received) (hended : s.ended = (w i).ended)
    (hshut : s.shut = (w i).shut) : Between p (update w i s) := by
  have hsame (j : Side) : (update w i s j).ended = (w j).ended ∧ (update w i s j).shut = (w j).shut := by
    by_cases hj : j = i
    · rw [hj, update_self]
      exact ⟨hended, hshut⟩
    · rw [update_of_ne hj]
      exact ⟨rfl, rfl⟩
  refine ⟨fun j => ?_, fun j => ?_, fun j hj => ?_⟩
  · by_cases hj : j = i
    · rw [hj, update_self]
      refine ⟨hsent, fun hs => ?_⟩
      rw [hended]
      exact (h.whole i).shut (hshut ▸ hs)
    · rw [update_of_ne hj]
      exact h.whole j
  · rw [(hsame j).1]
    exact h.table j
  · rw [(hsame j).1] at hj
    rw [(hsame j).2, (hsame j.other).1, (hsame j.other).2]
    exact h.closed j hj

/-- The table and the world once side `i` has ended. -/
theorem Between.ended (h : Between p w) (hlive : (w i).ended = false) {s : Stream} (hsent : s.sent = s.received)
    (hended : s.ended) (hshut : s.shut = false → (w i.other).ended ∧ (w i.other).shut) : Between (drop p i) (update w i s) := by
  refine ⟨fun j => ?_, fun j => ?_, fun j hj => ?_⟩
  · by_cases hj : j = i
    · rw [hj, update_self]
      exact ⟨hsent, fun _ => hended⟩
    · rw [update_of_ne hj]
      exact h.whole j
  · by_cases hj : j = i
    · rw [hj, update_self, if_pos hended]
      exact if_pos rfl
    · rw [update_of_ne hj]
      exact (if_neg hj).trans (h.table j)
  · rcases eq_or_other i j with rfl | rfl
    · rw [update_self, update_of_ne (other_ne j)]
      cases hs : s.shut with
      | true => exact .inl rfl
      | false => exact .inr (hshut hs)
    · rw [update_of_ne (other_ne i)] at hj ⊢
      rcases h.closed i.other hj with hs | ⟨hx, -⟩
      · exact .inl hs
      · rw [Side.other_other, hlive] at hx
        cases hx

theorem keeps_forward (n : Nat) (ready : Bool) (h : Between p w) : Keeps (forward n ready i p) w (Lives Between) := by
  unfold forward
  refine sat_ite.2 ⟨fun hdue => ?_, fun _ => Lives.done h.sound h⟩
  obtain ⟨hfd, hlive⟩ := h.live hdue.1
  have hopen : (w i).shut = false := by
    cases hs : (w i).shut with
    | false => rfl
    | true =>
      rw [(h.whole i).shut hs] at hlive
      cases hlive
  rw [hfd]
  refine ⟨⟨h.sound, (fun _ hx => by cases hx)⟩, fun r w₁ hr => ?_⟩
  obtain ⟨a, ⟨herr, htimely⟩, hstep⟩ := hr
  change step w (.read (some i) capacity) a = (w₁, r) at hstep
  simp only [step, herr] at hstep
  obtain ⟨rfl, rfl⟩ := Prod.mk.inj hstep
  rw [hlive, Bool.false_or]
  cases hbytes : a.bytes.take capacity with
  | cons x xs =>
    have hother : p i.other = some i.other := by
      have htable := h.table i.other
      rwa [htimely (by rintro hx; simp [hx] at hbytes), if_neg (by simp)] at htable
    rw [hother]
    have hread : Stream.Sound { w i with received := (w i).received ++ x :: xs, ended := (x :: xs).isEmpty } := by
      refine ⟨?_, fun hs => ?_⟩
      · rw [(h.whole i).sent]
        exact List.prefix_append _ _
      · rw [show (w i).shut = true from hs] at hopen
        cases hopen
    have hwr := keeps_wr n (sound_update (i := i) h.sound hread) (by rwa [update_self])
      (by rw [update_self]; exact congrArg (· ++ x :: xs) (h.whole i).sent.symm)
    refine Sat.bind (p := wr (some i.other) n (x :: xs)) hwr fun r w₂ hr => ?_
    cases r with
    | running => exact Lives.running hr.1
    | died stage => exact absurd rfl (hr.2.1 stage)
    | done u =>
      refine Lives.done hr.1 ?_
      rw [hr.2.2 u rfl, update_self, update_idem]
      exact h.forwarded rfl hlive.symm rfl
  | nil =>
    have hread : Stream.Sound { w i with received := (w i).received ++ [], ended := true } := by
      rw [List.append_nil]
      exact ⟨(h.sound i).ordered, fun _ => ⟨rfl, (h.whole i).sent⟩⟩
    have hsound := sound_update (i := i) h.sound hread
    have htable := h.table i.other
    change Keeps (perform (.shutdown (p i.other)) >>= fun _ => pure (Outcome.done (drop p i))) _ _
    cases hother : (w i.other).ended with
    | true =>
      rw [hother, if_pos rfl] at htable
      rw [htable]
      refine ⟨⟨hsound, (fun _ hx => by cases hx)⟩, fun r w₂ hr => ?_⟩
      obtain ⟨b, -, hstep⟩ := hr
      obtain ⟨rfl, -⟩ := Prod.mk.inj hstep
      have hshut : (w i.other).shut := by
        rcases h.closed i.other hother with hs | ⟨hx, -⟩
        · exact hs
        · rw [Side.other_other, hlive] at hx
          cases hx
      refine Lives.done hsound (h.ended hlive ?_ rfl fun _ => ⟨hother, hshut⟩)
      rw [List.append_nil]
      exact (h.whole i).sent
    | false =>
      rw [hother, if_neg (by simp)] at htable
      rw [htable]
      refine ⟨⟨hsound, (fun _ hx => by cases hx)⟩, fun r w₂ hr => ?_⟩
      obtain ⟨b, hb, hstep⟩ := hr
      change b.errno = none at hb
      change step _ (.shutdown (some i.other)) b = (w₂, r) at hstep
      simp only [step, hb, if_pos, Side.other_other, update_self, update_idem] at hstep
      obtain ⟨rfl, -⟩ := Prod.mk.inj hstep
      have hbetween : Between (drop p i) (update w i { w i with received := (w i).received ++ [], ended := true, shut := true }) := by
        refine h.ended hlive ?_ rfl (fun hx => by cases hx)
        rw [List.append_nil]
        exact (h.whole i).sent
      exact Lives.done hbetween.sound hbetween

theorem Between.done (h : Between p w) (hl : (p .left).isNone) (hr : (p .right).isNone) : Ended w := by
  have hended (i : Side) : (w i).ended := by
    have htable := h.table i
    cases hx : (w i).ended with
    | true => rfl
    | false =>
      rw [hx] at htable
      cases i with
      | left =>
        rw [htable] at hl
        cases hl
      | right =>
        rw [htable] at hr
        cases hr
  refine fun i => ⟨hended i, (h.whole i).sent, ?_⟩
  rcases h.closed i (hended i) with hs | ⟨-, hs⟩
  · exact .inl hs
  · exact .inr hs

/-- The loop goes on only while a side has not ended. -/
theorem Between.settled (h : Between p w) (hmore : ¬((p .left).isNone ∧ (p .right).isNone)) : Settled w := by
  refine fun i => ⟨(h.whole i).sent, fun hi => ?_⟩
  rcases h.closed i hi with hs | ⟨hother, -⟩
  · exact hs
  · have hnone (j : Side) : (p j).isNone := by
      have hj : (w j).ended := by
        rcases eq_or_other i j with rfl | rfl
        · exact hi
        · exact hother
      rw [h.table j, if_pos hj]
      rfl
    exact absurd ⟨hnone .left, hnone .right⟩ hmore

theorem keeps_loop (n : Nat) (h : Between p w) : Keeps (loop n p) w (Lives fun _ => Ended) := by
  induction n generalizing w p with
  | zero =>
    unfold loop
    exact sat_ite.2 ⟨fun hx => Lives.done h.sound (h.done hx.1 hx.2), fun _ => Lives.running h.sound⟩
  | succ n ih =>
    unfold loop
    refine sat_ite.2 ⟨fun hx => Lives.done h.sound (h.done hx.1 hx.2), fun hmore => ?_⟩
    refine ⟨⟨h.sound, fun _ _ => h.settled hmore⟩, fun r w₁ hr => ?_⟩
    obtain ⟨a, ha, hstep⟩ := hr
    obtain ⟨rfl, hreply⟩ := Prod.mk.inj hstep
    change Except Errno (Side → Bool) at r
    cases r with
    | error e =>
      refine Sat.unless (ih h) fun hne => ?_
      rcases ha with herr | herr
      · rw [herr] at hreply
        cases hreply
      · rw [herr] at hreply
        exact absurd (Except.error.inj hreply).symm hne
    | ok ready =>
      refine Sat.bind (p := forward n (ready .left) .left p) (keeps_forward n _ h) fun r w₁ hl => ?_
      cases r with
      | running => exact Lives.running hl.1
      | died stage => exact absurd rfl (hl.2.1 stage)
      | done p₁ =>
        refine Sat.bind (keeps_forward n _ (hl.2.2 p₁ rfl)) fun r w₂ hr => ?_
        cases r with
        | running => exact Lives.running hr.1
        | died stage => exact absurd rfl (hr.2.1 stage)
        | done p₂ => exact ih (hr.2.2 p₂ rfl)

theorem between_init : Between (fun i => some i) fun _ => {} :=
  ⟨fun _ => ⟨rfl, fun hx => by cases hx⟩, fun _ => rfl, fun _ hx => by cases hx⟩

end Programs

/-- As long as the sockets work and no bytes come from a side after the end of the
other: at every moment what is written to a side is the start of what was read
from the other, and its write side is shut down only after the end; `poll` is
called with nothing left to write, and with the shutdown done for a side that has
ended; the relay does not die, and returns only when both sides have ended. -/
theorem pump_forwards (n : Nat) (as : List Answer) (h : Meets Sockets Timely (pump n) (fun _ => {}) as) :
    (∀ i, ((exec Sockets (pump n) (fun _ => {}) as).1 i).Sound) ∧
    (∀ x ∈ calls Sockets (pump n) (fun _ => {}) as, ∀ fds, x.2 = .poll fds → Settled x.1) ∧
    (∀ stage, (exec Sockets (pump n) (fun _ => {}) as).2 ≠ some (.died stage)) ∧
    ((exec Sockets (pump n) (fun _ => {}) as).2 = some (.done ()) → Ended (exec Sockets (pump n) (fun _ => {}) as).1) := by
  have hkeeps := keeps_loop n between_init
  refine ⟨?_, fun x hx => (hkeeps.calls h x hx).2, fun stage hdied => ?_, fun hdone => ?_⟩
  · exact hkeeps.exec_world (J := fun w => ∀ i, (w i).Sound) (fun _ _ hg => hg.1) (fun _ _ hl => hl.1) as h
  · exact (hkeeps.exec_result h (Prod.ext rfl hdied)).2.1 stage rfl
  · exact (hkeeps.exec_result h (Prod.ext rfl hdone)).2.2 () rfl

instance decidableTimely (w : World) : (c : Call) → (a : Answer) → Decidable (Timely w c a)
  | .poll _, a => inferInstanceAs (Decidable (a.errno = none ∨ a.errno = some .eintr))
  | .read (some i) _, a => inferInstanceAs (Decidable (a.errno = none ∧ (a.bytes ≠ [] → (w i.other).ended = false)))
  | .read none _, _ => .isTrue trivial
  | .write (some _) _, a => inferInstanceAs (Decidable (a.errno = some .eintr ∨ a.errno = none ∧ 0 < a.count))
  | .write none _, _ => .isTrue trivial
  | .shutdown (some _), a => inferInstanceAs (Decidable (a.errno = none))
  | .shutdown none, _ => .isTrue trivial

/-- Two bytes from the left in two writes, one from the right, and both ends. -/
def inTurn : List Answer :=
  [{ ready := (· = .left) }, { bytes := [1, 2] }, { count := 1 }, { errno := some .eintr }, { count := 1 },
    { ready := (· = .right) }, { bytes := [3] }, { count := 1 }, { ready := fun _ => true }, {}, {}, {}, {}]

theorem pump_forwards_inTurn :
    (exec Sockets (pump 9) (fun _ => {}) inTurn).2 = some (.done ()) ∧ Ended (exec Sockets (pump 9) (fun _ => {}) inTurn).1 := by
  have htimely : Meets Sockets Timely (pump 9) (fun _ => {}) inTurn :=
    meets_of_passes Sockets (b := fun w c a => decide (Timely w c a)) (fun _ _ _ h => of_decide_eq_true h) (by decide +kernel)
  have hdone : (exec Sockets (pump 9) (fun _ => {}) inTurn).2 = some (.done ()) := by decide +kernel
  exact ⟨hdone, (pump_forwards 9 inTurn htimely).2.2.2 hdone⟩

/-- The left side closes its sending direction, then a byte comes from the right. -/
def halfClosed : List Answer := [{ ready := (· = .left) }, {}, {}, { ready := (· = .right) }, { bytes := [7] }, { count := 1 }]

/-- The relay exits with the byte. -/
theorem pump_dies_after_half_close :
    (exec Sockets (pump 9) (fun _ => {}) halfClosed).2 = some (.died "relay write") ∧
      ((exec Sockets (pump 9) (fun _ => {}) halfClosed).1 .right).received = [7] ∧
      ((exec Sockets (pump 9) (fun _ => {}) halfClosed).1 .right).sent = [] ∧
      ((exec Sockets (pump 9) (fun _ => {}) halfClosed).1 .right).ended = false := by
  decide +kernel

end Multikernel.Pump
