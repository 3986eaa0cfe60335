import Multikernel.Lib.Runs
import Mathlib.Data.List.Basic
import Mathlib.Logic.Function.Basic
/-!
# The guest's output buffer

`lockedBuffer` (`runtime/agent/manager.go`) takes what a process writes and
gives it to a reader by offset. A reader that has come to an offset is taken to
have everything before it, so a read discards; a writer that finds the buffer
full waits until a read has made room, or gives up after its timer and sets
`truncated`. Every section under the buffer's lock is one event here, and the
events of any number of writers and of the reader come in any order.

`output_exact`: a reader that neither goes back nor ahead of what it was given
sees exactly the bytes written, at the positions it names, until `truncated` is
set. Positions are natural numbers: they stay far below 2^64.
-/

namespace Multikernel.Output

open Lib
open Function (update update_self update_of_ne)

/-! ## The buffer -/

def maxOutputBytes : Nat := 4194304

/-- Channels are numbered as they are made; all but the current one are closed. -/
structure LockedBuffer where
  b : List UInt8 := []
  base : Nat := 0
  space : Option Nat := none
  made : Nat := 0
  truncated : Bool := false

def LockedBuffer.make (b : LockedBuffer) : LockedBuffer := { b with space := some b.made, made := b.made + 1 }

/-- What a writer finds under the lock: room for so many bytes, or none and the
channel to wait on. -/
inductive Found where
  | room (available : Nat)
  | full (space : Option Nat)

/-- The locked section of `Write`, with `p` still to be written. -/
def LockedBuffer.attempt (b : LockedBuffer) (p : List UInt8) : LockedBuffer × Found :=
  let b := if b.space.isNone then b.make else b
  let available := maxOutputBytes - b.b.length
  if 0 < available then
    let available := if p.length < available then p.length else available
    ({ b with b := b.b ++ p.take available }, .room available)
  else (b, .full b.space)

/-- Bytes go from the front, and waiting writers are woken. -/
def LockedBuffer.drop (b : LockedBuffer) (n : Nat) : LockedBuffer :=
  let rest := { b with b := b.b.drop n, base := b.base + n }
  if b.space.isSome then rest.make else rest

/-- The first half of `slice`: what the reader is past goes. -/
def LockedBuffer.discard (b : LockedBuffer) (offset : Nat) : LockedBuffer :=
  if b.base < offset then
    let discard := min (offset - b.base) b.b.length
    if 0 < discard then b.drop discard else b
  else b

def LockedBuffer.slice (b : LockedBuffer) (offset limit : Nat) : LockedBuffer × List UInt8 × Nat :=
  let b := b.discard offset
  let offset := if offset < b.base then b.base else offset
  let last := b.base + b.b.length
  if last ≤ offset then (b, [], last)
  else
    let last := if 0 < limit ∧ limit < last - offset then offset + limit else last
    (b, (b.b.take (last - b.base)).drop (offset - b.base), last)

/-! ## Writers and the reader -/

/-- A writer in `Write`, with what it has left. -/
inductive Writer where
  | idle
  | writing (p : List UInt8)
  | waiting (p : List UInt8) (space : Option Nat)

def Writer.rest : Writer → List UInt8
  | .idle => []
  | .writing p => p
  | .waiting p _ => p

/-- A call of `slice` and its result. -/
structure Reading where
  offset : Nat
  limit : Nat
  data : List UInt8
  last : Nat

/-- History variables: `given` is what each writer was called with, `stream` is
what came into the buffer and from whom, `readings` what the reader got. -/
structure Channel where
  buffer : LockedBuffer := {}
  writers : Nat → Writer := fun _ => .idle
  given : Nat → List UInt8 := fun _ => []
  stream : List (Nat × UInt8) := []
  readings : List Reading := []

def Channel.bytes (c : Channel) : List UInt8 := c.stream.map (·.2)

/-- What the stream has of one writer. -/
def Channel.written (c : Channel) (w : Nat) : List UInt8 := (c.stream.filter (·.1 = w)).map (·.2)

inductive Event where
  | call (w : Nat) (p : List UInt8)
  | turn (w : Nat)
  | wake (w : Nat)
  | expire (w : Nat)
  | read (offset limit : Nat)

/-- A turn of the loop in `Write`. -/
def Channel.turn (c : Channel) (w : Nat) (p : List UInt8) : Channel :=
  if p = [] then { c with writers := update c.writers w .idle }
  else
    let r := c.buffer.attempt p
    match r.2 with
    | .room n => { c with
        buffer := r.1
        writers := update c.writers w (.writing (p.drop n))
        stream := c.stream ++ (p.take n).map fun x => (w, x) }
    | .full space => { c with buffer := r.1, writers := update c.writers w (.waiting p space) }

def Channel.read (c : Channel) (offset limit : Nat) : Channel :=
  let r := c.buffer.slice offset limit
  { c with buffer := r.1, readings := c.readings ++ [⟨offset, limit, r.2.1, r.2.2⟩] }

/-- An event that cannot come where a writer is changes nothing. -/
def Channel.step (c : Channel) : Event → Channel
  | .call w p =>
    match c.writers w with
    | .idle => { c with writers := update c.writers w (.writing p), given := update c.given w (c.given w ++ p) }
    | _ => c
  | .turn w =>
    match c.writers w with
    | .writing p => c.turn w p
    | _ => c
  | .wake w =>
    match c.writers w with
    | .waiting p space => if c.buffer.space = space then c else { c with writers := update c.writers w (.writing p) }
    | _ => c
  | .expire w =>
    match c.writers w with
    | .waiting _ _ => { c with buffer := { c.buffer with truncated := true }, writers := update c.writers w .idle }
    | _ => c
  | .read offset limit => c.read offset limit

/-- The reader's offsets do not go back, nor past an end it was given. -/
def Steady (readings : List Reading) (offset : Nat) : Prop :=
  (∀ r ∈ readings, r.offset ≤ offset) ∧ (offset = 0 ∨ ∃ r ∈ readings, offset ≤ r.last)

def Rule (c : Channel) : Event → Prop
  | .read offset _ => Steady c.readings offset
  | _ => True

/-! ## What the reader is given -/

/-- A reading is the stream from its offset to its end. -/
structure Reading.Exact (bytes : List UInt8) (r : Reading) : Prop where
  start : r.offset ≤ r.last
  reached : r.last ≤ bytes.length
  data : r.data = (bytes.take r.last).drop r.offset
  limited : 0 < r.limit → r.last - r.offset ≤ r.limit

/-- A second reading that asks for as much or more. -/
def Reading.Again (r r' : Reading) : Prop :=
  r.offset = r'.offset ∧ (r'.limit = 0 ∨ 0 < r.limit ∧ r.limit ≤ r'.limit)

/-- The buffer holds the end of the stream, and readings are pieces of it. -/
structure Kept (c : Channel) : Prop where
  position : c.buffer.base + c.buffer.b.length = c.bytes.length
  bounded : c.buffer.b.length ≤ maxOutputBytes
  retained : c.buffer.b = c.bytes.drop c.buffer.base
  exact : ∀ r ∈ c.readings, r.Exact c.bytes
  again : c.readings.Pairwise fun r r' => r.Again r' → r.last ≤ r'.last
  /-- Nothing is discarded that the reader has not passed. -/
  passed : c.buffer.base = 0 ∨ ∃ r ∈ c.readings, c.buffer.base ≤ r.offset

/-- Until `truncated` is set, all a writer was called with is in the stream or
still to be written. -/
def Complete (c : Channel) : Prop :=
  c.buffer.truncated = false → ∀ w, c.written w ++ (c.writers w).rest = c.given w

section Buffer
variable {b : LockedBuffer} {p : List UInt8} {offset : Nat}

@[simp] theorem make_b : b.make.b = b.b := rfl
@[simp] theorem make_base : b.make.base = b.base := rfl
@[simp] theorem make_truncated : b.make.truncated = b.truncated := rfl

/-- All an attempt does to the bytes: it appends what there is room for. -/
theorem attempt_cases (b : LockedBuffer) (p : List UInt8) :
    ∃ b', b'.base = b.base ∧ b'.truncated = b.truncated ∧
      ((∃ n ≤ p.length, b.b.length + n ≤ maxOutputBytes ∧ b'.b = b.b ++ p.take n ∧ b.attempt p = (b', .room n)) ∨
        (b'.b = b.b ∧ ∃ space, b.attempt p = (b', .full space))) := by
  unfold LockedBuffer.attempt
  generalize hm : (if b.space.isNone then b.make else b) = b₁
  have hb : b₁.b = b.b ∧ b₁.base = b.base ∧ b₁.truncated = b.truncated := by
    subst hm
    split <;> simp
  obtain ⟨hbytes, hbase, htrunc⟩ := hb
  simp only [hbytes]
  split
  · rename_i hroom
    generalize hn : (if p.length < maxOutputBytes - b.b.length then p.length else maxOutputBytes - b.b.length) = n
    have hle : n ≤ p.length ∧ b.b.length + n ≤ maxOutputBytes := by
      subst hn
      split <;> omega
    exact ⟨{ b₁ with b := b.b ++ p.take n }, hbase, htrunc, .inl ⟨n, hle.1, hle.2, rfl, rfl⟩⟩
  · exact ⟨b₁, hbase, htrunc, .inr ⟨hbytes, b₁.space, rfl⟩⟩

@[simp] theorem drop_b (n : Nat) : (b.drop n).b = b.b.drop n := by
  unfold LockedBuffer.drop
  split <;> rfl

@[simp] theorem drop_base (n : Nat) : (b.drop n).base = b.base + n := by
  unfold LockedBuffer.drop
  split <;> rfl

@[simp] theorem drop_truncated (n : Nat) : (b.drop n).truncated = b.truncated := by
  unfold LockedBuffer.drop
  split <;> rfl

/-- A discard goes as far as the offset, at most to the end. -/
theorem discard_cases (b : LockedBuffer) (offset : Nat) :
    ∃ n ≤ b.b.length, (b.discard offset).base = b.base + n ∧ (b.discard offset).b = b.b.drop n
      ∧ (b.discard offset).truncated = b.truncated ∧ (n = 0 ∨ b.base + n ≤ offset)
      ∧ (offset ≤ b.base + n ∨ n = b.b.length) := by
  unfold LockedBuffer.discard
  by_cases hlt : b.base < offset
  · rw [if_pos hlt]
    dsimp only
    by_cases hpos : 0 < min (offset - b.base) b.b.length
    · rw [if_pos hpos]
      exact ⟨_, Nat.min_le_right _ _, drop_base _, drop_b _, drop_truncated _, by omega, by omega⟩
    · rw [if_neg hpos]
      exact ⟨0, by omega, rfl, rfl, rfl, .inl rfl, by omega⟩
  · rw [if_neg hlt]
    exact ⟨0, by omega, rfl, rfl, rfl, .inl rfl, by omega⟩

end Buffer

/-! ## One event -/

section Step
variable {c : Channel} {w : Nat} {p : List UInt8} {offset limit : Nat}

theorem Reading.Exact.extend {bytes : List UInt8} {r : Reading} (h : r.Exact bytes) (more : List UInt8) :
    r.Exact (bytes ++ more) where
  start := h.start
  reached := Nat.le_trans h.reached (by simp)
  data := by rw [h.data, List.take_append_of_le_length h.reached]
  limited := h.limited

theorem Reading.Exact.length_le {bytes : List UInt8} {r : Reading} (h : r.Exact bytes) (hlimit : 0 < r.limit) :
    r.data.length ≤ r.limit := by
  have hlimited := h.limited hlimit
  rw [h.data, List.length_drop, List.length_take]
  omega

theorem Kept.init : Kept {} where
  position := rfl
  bounded := Nat.zero_le _
  retained := rfl
  exact := by simp
  again := .nil
  passed := .inl rfl

theorem Complete.init : Complete {} := fun _ _ => rfl

/-- Only a writer's own state changes. -/
theorem Kept.same {c' : Channel} (h : Kept c) (hb : c'.buffer.b = c.buffer.b) (hbase : c'.buffer.base = c.buffer.base)
    (hstream : c'.stream = c.stream) (hreadings : c'.readings = c.readings) : Kept c' := by
  have hbytes : c'.bytes = c.bytes := by rw [Channel.bytes, hstream]; rfl
  constructor
  case position => rw [hb, hbase, hbytes]; exact h.position
  case bounded => rw [hb]; exact h.bounded
  case retained => rw [hb, hbase, hbytes]; exact h.retained
  case exact => rw [hreadings, hbytes]; exact h.exact
  case again => rw [hreadings]; exact h.again
  case passed => rw [hreadings, hbase]; exact h.passed

theorem Kept.turn (h : Kept c) (w : Nat) (p : List UInt8) : Kept (c.turn w p) := by
  unfold Channel.turn
  split
  · exact h.same rfl rfl rfl rfl
  · obtain ⟨b', hbase, -, ⟨n, -, hroom, hb, hattempt⟩ | ⟨hb, space, hattempt⟩⟩ := attempt_cases c.buffer p
    · rw [hattempt]
      have hbytes : Channel.bytes { c with
          buffer := b'
          writers := update c.writers w (.writing (p.drop n))
          stream := c.stream ++ (p.take n).map fun x => (w, x) } = c.bytes ++ p.take n := by
        simp [Channel.bytes, Function.comp_def]
      have hposition := h.position
      constructor
      case position =>
        rw [hbytes]
        simp only [hb, hbase, List.length_append]
        omega
      case bounded =>
        simp only [hb, List.length_append]
        have := List.length_take_le n p
        omega
      case retained =>
        rw [hbytes]
        simp only [hb, hbase]
        rw [List.drop_append_of_le_length (by omega), ← h.retained]
      case exact =>
        rw [hbytes]
        intro r hr
        exact (h.exact r hr).extend _
      case again => exact h.again
      case passed => simp only [hbase]; exact h.passed
    · rw [hattempt]
      exact h.same hb hbase rfl rfl

/-- What `slice` gives at an offset that is between the base and the end. -/
theorem Kept.slice (h : Kept c) (hbase : c.buffer.base ≤ offset) (hend : offset ≤ c.bytes.length) (limit : Nat) :
    ∃ b' last, c.buffer.slice offset limit = (b', (c.bytes.take last).drop offset, last)
      ∧ b'.base = offset ∧ b'.b = c.bytes.drop offset ∧ b'.truncated = c.buffer.truncated
      ∧ offset ≤ last ∧ last ≤ c.bytes.length ∧ (last = c.bytes.length ∨ 0 < limit ∧ last = offset + limit)
      ∧ (0 < limit → last - offset ≤ limit) := by
  obtain ⟨n, hn, hbase', hb', htrunc, hpast, hfar⟩ := discard_cases c.buffer offset
  have hposition := h.position
  have hto : c.buffer.base + n = offset := by omega
  rw [hto] at hbase'
  have hbytes : (c.buffer.discard offset).b = c.bytes.drop offset := by
    rw [hb', h.retained, List.drop_drop, hto]
  have hlast : (c.buffer.discard offset).base + (c.buffer.discard offset).b.length = c.bytes.length := by
    rw [hbase', hbytes, List.length_drop]
    omega
  unfold LockedBuffer.slice
  generalize c.buffer.discard offset = b' at hbase' hbytes hlast htrunc
  rw [hbase'] at hlast
  simp only [hbase', hlast, Nat.lt_irrefl, if_false, Nat.sub_self, List.drop_zero]
  by_cases hle : c.bytes.length ≤ offset
  · rw [if_pos hle]
    have hnil : (c.bytes.take c.bytes.length).drop offset = [] := by rw [List.take_length, List.drop_eq_nil_iff.2 hle]
    exact ⟨b', c.bytes.length, by rw [hnil], hbase', hbytes, htrunc, hend, Nat.le_refl _, .inl rfl, by omega⟩
  · rw [if_neg hle]
    generalize hl : (if 0 < limit ∧ limit < c.bytes.length - offset then offset + limit else c.bytes.length) = last
    have hbound : offset ≤ last ∧ last ≤ c.bytes.length ∧ (last = c.bytes.length ∨ 0 < limit ∧ last = offset + limit)
        ∧ (0 < limit → last - offset ≤ limit) := by
      subst hl
      split <;> omega
    exact ⟨b', last, by rw [hbytes, List.drop_take], hbase', hbytes, htrunc, hbound⟩

/-- A reading of a steady reader. -/
theorem Kept.read (h : Kept c) (hsteady : Steady c.readings offset) (limit : Nat) : Kept (c.read offset limit) := by
  obtain ⟨hforward, hwithin⟩ := hsteady
  have hbase : c.buffer.base ≤ offset := by
    rcases h.passed with hzero | ⟨r, hr, hle⟩
    · omega
    · exact Nat.le_trans hle (hforward r hr)
  have hend : offset ≤ c.bytes.length := by
    rcases hwithin with rfl | ⟨r, hr, hle⟩
    · exact Nat.zero_le _
    · exact Nat.le_trans hle (h.exact r hr).reached
  obtain ⟨b', last, hslice, hbase', hb', -, hle, hlast, hwhole, hlimit⟩ := h.slice hbase hend limit
  unfold Channel.read
  rw [hslice]
  have hposition := h.position
  constructor
  case position =>
    change b'.base + b'.b.length = c.bytes.length
    rw [hbase', hb', List.length_drop]
    omega
  case bounded =>
    change b'.b.length ≤ _
    have hkept := h.bounded
    rw [hb', List.length_drop]
    omega
  case retained =>
    change b'.b = c.bytes.drop b'.base
    rw [hbase', hb']
  case exact =>
    intro r hr
    rcases List.mem_append.1 hr with hr | hr
    · exact h.exact r hr
    · obtain rfl := List.mem_singleton.1 hr
      exact ⟨hle, hlast, rfl, hlimit⟩
  case again =>
    apply List.pairwise_append.2
    refine ⟨h.again, List.pairwise_singleton _ _, ?_⟩
    rintro r hr r' hr' ⟨hoffset, hwider⟩
    obtain rfl := List.mem_singleton.1 hr'
    -- it ends at the stream's end or at its limit, and the earlier one at neither later
    have hr := h.exact r hr
    have hreached : r.last ≤ c.bytes.length := hr.reached
    have hlimited := hr.limited
    have hstart := hr.start
    simp only at hoffset hwider ⊢
    omega
  case passed => exact .inr ⟨_, List.mem_append_right _ List.mem_cons_self, Nat.le_of_eq hbase'⟩

/-- All an event does: nothing, a change of its writer alone, a turn of the
loop, a writer that gives up, or a reading. -/
theorem step_cases (c : Channel) (e : Event) :
    c.step e = c
      ∨ (∃ w p, c.writers w = .idle ∧ c.step e = { c with
          writers := update c.writers w (.writing p), given := update c.given w (c.given w ++ p) })
      ∨ (∃ w p, c.writers w = .writing p ∧ c.step e = c.turn w p)
      ∨ (∃ w p space, c.writers w = .waiting p space ∧ c.step e = { c with writers := update c.writers w (.writing p) })
      ∨ (∃ w, c.step e = { c with buffer := { c.buffer with truncated := true }, writers := update c.writers w .idle })
      ∨ ∃ offset limit, e = .read offset limit ∧ c.step e = c.read offset limit := by
  cases e with
  | call w p =>
    cases hw : c.writers w with
    | idle => exact .inr (.inl ⟨w, p, hw, by simp only [Channel.step, hw]⟩)
    | writing | waiting => exact .inl (by simp only [Channel.step, hw])
  | turn w =>
    cases hw : c.writers w with
    | idle => exact .inl (by simp only [Channel.step, hw])
    | writing q => exact .inr (.inr (.inl ⟨w, q, hw, by simp only [Channel.step, hw]⟩))
    | waiting q space => exact .inl (by simp only [Channel.step, hw])
  | wake w =>
    cases hw : c.writers w with
    | idle | writing => exact .inl (by simp only [Channel.step, hw])
    | waiting q space =>
      by_cases hspace : c.buffer.space = space
      · exact .inl (by simp only [Channel.step, hw, if_pos hspace])
      · exact .inr (.inr (.inr (.inl ⟨w, q, space, hw, by simp only [Channel.step, hw, if_neg hspace]⟩)))
  | expire w =>
    cases hw : c.writers w with
    | idle | writing => exact .inl (by simp only [Channel.step, hw])
    | waiting q space => exact .inr (.inr (.inr (.inr (.inl ⟨w, by simp only [Channel.step, hw]⟩))))
  | read offset limit => exact .inr (.inr (.inr (.inr (.inr ⟨offset, limit, rfl, rfl⟩))))

theorem Kept.step (h : Kept c) (e : Event) (hrule : Rule c e) : Kept (c.step e) := by
  obtain hs | ⟨w, p, -, hs⟩ | ⟨w, p, -, hs⟩ | ⟨w, p, space, -, hs⟩ | ⟨w, hs⟩ | ⟨offset, limit, rfl, hs⟩ := step_cases c e
  · rw [hs]
    exact h
  · rw [hs]
    exact h.same rfl rfl rfl rfl
  · rw [hs]
    exact h.turn w p
  · rw [hs]
    exact h.same rfl rfl rfl rfl
  · rw [hs]
    exact h.same rfl rfl rfl rfl
  · rw [hs]
    exact h.read hrule limit

/-- A writer's state changes and nothing of its bytes is lost. -/
theorem rest_update (hrest : ∀ w, c.written w ++ (c.writers w).rest = c.given w) {x : Writer}
    (hx : x.rest = (c.writers w).rest) (v : Nat) : c.written v ++ (update c.writers w x v).rest = c.given v := by
  by_cases hv : v = w
  · subst hv
    rw [update_self, hx]
    exact hrest v
  · rw [update_of_ne hv]
    exact hrest v

theorem own_bytes (w : Nat) (p : List UInt8) :
    ((p.map fun x => (w, x)).filter fun x => decide (x.1 = w)).map (·.2) = p := by
  rw [List.filter_eq_self.2 (by simp), List.map_map]
  exact List.map_id _

theorem other_bytes {v : Nat} (h : w ≠ v) (p : List UInt8) :
    ((p.map fun x => (w, x)).filter fun x => decide (x.1 = v)).map (·.2) = [] := by
  rw [List.filter_eq_nil_iff.2 (by simp [h]), List.map_nil]

theorem Complete.turn (h : Complete c) (hw : c.writers w = .writing p) : Complete (c.turn w p) := by
  intro hopen
  unfold Channel.turn at hopen ⊢
  split
  · rename_i hnil
    rw [if_pos hnil] at hopen
    subst hnil
    exact rest_update (h hopen) (by rw [hw]; rfl)
  · rename_i hnil
    rw [if_neg hnil] at hopen
    obtain ⟨b', -, htrunc, ⟨n, -, -, -, hattempt⟩ | ⟨-, space, hattempt⟩⟩ := attempt_cases c.buffer p
    · rw [hattempt] at hopen ⊢
      have hrest := h (htrunc.symm.trans hopen)
      intro v
      by_cases hv : v = w
      · -- what it has appended is now in the stream, the rest is left
        subst hv
        have hv := hrest v
        rw [hw] at hv
        simp only [Channel.written, Writer.rest] at hv ⊢
        simp only [update_self, List.filter_append, List.map_append, List.append_assoc]
        rw [← hv, own_bytes, List.take_append_drop]
      · have hv' := hrest v
        simp only [Channel.written] at hv' ⊢
        simp only [update_of_ne hv, List.filter_append, List.map_append]
        rw [← hv']
        rw [other_bytes (Ne.symm hv), List.append_nil]
    · rw [hattempt] at hopen ⊢
      exact rest_update (h (htrunc.symm.trans hopen)) (by rw [hw]; rfl)

theorem slice_truncated (b : LockedBuffer) (offset limit : Nat) : (b.slice offset limit).1.truncated = b.truncated := by
  obtain ⟨n, -, -, -, htrunc, -, -⟩ := discard_cases b offset
  have hfst : (b.slice offset limit).1 = b.discard offset := by
    simp only [LockedBuffer.slice, apply_ite Prod.fst, ite_self]
  rw [hfst, htrunc]

theorem Complete.step (h : Complete c) (e : Event) : Complete (c.step e) := by
  obtain hs | ⟨w, p, hw, hs⟩ | ⟨w, p, hw, hs⟩ | ⟨w, p, space, hw, hs⟩ | ⟨w, hs⟩ | ⟨offset, limit, rfl, hs⟩ := step_cases c e
  · rw [hs]
    exact h
  · rw [hs]
    intro hopen v
    have hv := h hopen v
    by_cases hvw : v = w
    · subst hvw
      rw [hw] at hv
      simp only [Channel.written, Writer.rest, update_self] at hv ⊢
      rw [← hv, List.append_nil]
    · simpa only [Channel.written, update_of_ne hvw] using hv
  · rw [hs]
    exact h.turn hw
  · rw [hs]
    intro hopen
    exact rest_update (h hopen) (by rw [hw]; rfl)
  · rw [hs]
    intro hopen
    cases hopen
  · rw [hs]
    intro hopen
    exact h ((slice_truncated c.buffer offset limit).symm.trans hopen)

end Step

/-! ## Whole runs -/

theorem Kept.run {c : Channel} {es : List Event} (h : Conforms Channel.step Rule c es) (hc : Kept c) :
    Kept (run Channel.step c es) :=
  h.inv hc fun _ e hk hrule => hk.step e hrule

theorem Complete.run {c : Channel} (hc : Complete c) (es : List Event) : Complete (run Channel.step c es) := by
  induction es generalizing c with
  | nil => exact hc
  | cons e es ih => exact ih (hc.step e)

/-- Two readings at one offset are the stream up to their ends. -/
theorem prefix_of_last {bytes : List UInt8} {r r' : Reading} (h : r.Exact bytes) (h' : r'.Exact bytes)
    (hoffset : r.offset = r'.offset) (hlast : r.last ≤ r'.last) : r.data <+: r'.data := by
  rw [h.data, h'.data, hoffset, List.drop_take, List.drop_take]
  exact List.take_prefix_take_left (by omega)

/-- A reader that neither goes back nor ahead of what it was given, beside any
number of writers, as long as no writer has given up. -/
theorem output_exact (es : List Event) (c : Channel) (hc : run Channel.step {} es = c)
    (hrule : Conforms Channel.step Rule {} es) (hopen : c.buffer.truncated = false) :
    c.buffer.base + c.buffer.b.length = c.bytes.length
      ∧ c.buffer.b.length ≤ maxOutputBytes
      ∧ (∀ w, c.written w ++ (c.writers w).rest = c.given w)
      ∧ (∀ r ∈ c.readings, r.offset ≤ r.last ∧ r.last ≤ c.bytes.length
          ∧ r.data = (c.bytes.take r.last).drop r.offset ∧ (0 < r.limit → r.last - r.offset ≤ r.limit))
      ∧ c.readings.Pairwise fun r r' => r.offset = r'.offset →
          (r.data <+: r'.data ∨ r'.data <+: r.data) ∧ (r.Again r' → r.data <+: r'.data) := by
  have hkept : Kept c := hc ▸ Kept.init.run hrule
  have hcomplete : Complete c := hc ▸ Complete.init.run es
  refine ⟨hkept.position, hkept.bounded, hcomplete hopen, ?_, ?_⟩
  · intro r hr
    have h := hkept.exact r hr
    exact ⟨h.start, h.reached, h.data, h.limited⟩
  · apply hkept.again.imp_of_mem
    intro r r' hr hr' hagain hoffset
    have h := hkept.exact r hr
    have h' := hkept.exact r' hr'
    constructor
    · rcases Nat.le_total r.last r'.last with hle | hle
      · exact .inl (prefix_of_last h h' hoffset hle)
      · exact .inr (prefix_of_last h' h hoffset.symm hle)
    · intro hwider
      exact prefix_of_last h h' hoffset (hagain hwider)

/-- Two writers and a reader that reads twice from the start. -/
def sampleEvents : List Event :=
  [.call 0 [1, 2, 3], .call 1 [7], .turn 0, .read 0 2, .turn 1, .read 0 0, .read 2 2]

theorem sampleEvents_exact :
    (run Channel.step {} sampleEvents).readings.map (fun r => (r.data, r.last)) = [([1, 2], 2), ([1, 2, 3, 7], 4), ([3, 7], 4)]
      ∧ ∀ w, (run Channel.step {} sampleEvents).written w ++ ((run Channel.step {} sampleEvents).writers w).rest
          = (run Channel.step {} sampleEvents).given w := by
  have hrule : Conforms Channel.step Rule {} sampleEvents := by
    simp [sampleEvents, Conforms, Rule, Steady, Channel.step, Channel.turn, Channel.read, LockedBuffer.attempt,
      LockedBuffer.slice, LockedBuffer.discard, LockedBuffer.make, maxOutputBytes, update]
  exact ⟨by decide, (output_exact sampleEvents _ rfl hrule (by decide)).2.2.1⟩

/-! ## `ReadOutput` -/

inductive ErrorKind where
  | invalidArgument
  | notFound
  deriving DecidableEq, Repr

/-- What `ReadOutput` sees of a process. -/
structure Process where
  status : String
  stdout : Channel
  stderr : Channel

/-- What `ReadOutput` returns. -/
structure Answer where
  stdout : List UInt8
  stderr : List UInt8
  nextStdout : Nat
  nextStderr : Nat
  status : String

def readOutput (found : Option Process) (stdoutOffset stderrOffset limit : Nat) :
    Option Process × Except (ErrorKind × String) Answer :=
  if limit = 0 ∨ 65536 < limit then
    (found, .error (.invalidArgument, "output read limit must be between 1 and 64 KiB"))
  else
    match found with
    | none => (found, .error (.notFound, "process not found"))
    | some p =>
      let stdout := p.stdout.buffer.slice stdoutOffset limit
      let stderr := p.stderr.buffer.slice stderrOffset limit
      (some { p with stdout := p.stdout.read stdoutOffset limit, stderr := p.stderr.read stderrOffset limit },
        .ok ⟨stdout.2.1, stderr.2.1, stdout.2.2, stderr.2.2, p.status⟩)

/-- Both streams of an answer are read as above, 64 KiB of each at most. -/
theorem readOutput_exact {p : Process} {found' : Option Process} {stdoutOffset stderrOffset limit : Nat} {a : Answer}
    (hout : Kept p.stdout) (herr : Kept p.stderr) (hsteady : Steady p.stdout.readings stdoutOffset)
    (hsteady' : Steady p.stderr.readings stderrOffset)
    (h : readOutput (some p) stdoutOffset stderrOffset limit = (found', .ok a)) :
    ∃ p', found' = some p' ∧ Kept p'.stdout ∧ Kept p'.stderr
      ∧ a.stdout = (p.stdout.bytes.take a.nextStdout).drop stdoutOffset ∧ a.stdout.length ≤ 65536
      ∧ a.stderr = (p.stderr.bytes.take a.nextStderr).drop stderrOffset ∧ a.stderr.length ≤ 65536 := by
  unfold readOutput at h
  split at h
  · cases h
  · rename_i hlimit
    cases h
    have hread := hout.read hsteady limit
    have hread' := herr.read hsteady' limit
    have hlast := hread.exact _ (List.mem_append_right _ List.mem_cons_self)
    have hlast' := hread'.exact _ (List.mem_append_right _ List.mem_cons_self)
    have hpos : 0 < limit := by omega
    have hmax : limit ≤ 65536 := by omega
    exact ⟨_, rfl, hread, hread', hlast.data, Nat.le_trans (hlast.length_le hpos) hmax,
      hlast'.data, Nat.le_trans (hlast'.length_le hpos) hmax⟩

end Multikernel.Output
