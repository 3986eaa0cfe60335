import Multikernel.Shim.Stdin
/-!
# Chunks of standard input

`Manager.WriteAt` and `Manager.Write` (`runtime/agent/manager.go`) over any
sequence of calls on one process. The writer takes any part of what it is given,
and fails or not. What the process has received is what was acknowledged, chunk
after chunk, and behind it what the writer took of one chunk more. A repetition
of the last chunk is acknowledged and not written again; any other chunk at an
old offset is refused (`delivered_once`), also one that was acknowledged there
(`old_chunk_refused`).
-/

namespace Multikernel.Agent
open Stdin (Guest Begun Writes writeRemaining writeRemaining_taken)
open Lib (run conforms_of_forall)

abbrev Chunk := Nat × List UInt8

/-- A call, or a change of the process beside the calls. `Write` goes to the
offset it finds; one whose offset has moved on before it writes is a `WriteAt`. -/
inductive Call where
  | writeAt (offset : Nat) (data : List UInt8) (writes : Writes)
  | write (data : List UInt8) (writes : Writes)
  | status (running closed : Bool)
  deriving DecidableEq, Repr

/-- The process, the chunks of the calls so far and those that were
acknowledged, repetitions included. -/
structure Log where
  guest : Guest := {}
  offered : List Chunk := []
  acked : List Chunk := []
  deriving DecidableEq, Repr

def Log.writeAt (l : Log) (offset : Nat) (data : List UInt8) (writes : Writes) : Log where
  guest := (l.guest.writeAt offset data writes).1
  offered := l.offered ++ [(offset, data)]
  acked := if (l.guest.writeAt offset data writes).2.toOption.isSome then l.acked ++ [(offset, data)] else l.acked

def Log.call (l : Log) : Call → Log
  | .writeAt offset data writes => l.writeAt offset data writes
  | .write data writes => l.writeAt l.guest.offset data writes
  | .status running closed => { l with guest := { l.guest with running, closed } }

/-! ## One call -/

/-- How much the guest has of the chunk it has begun. -/
def accepted (g : Guest) : Nat := (g.begun.map (·.accepted)).getD 0

/-- The chunk is the next one, and the one that is begun if one is. -/
structure Next (g : Guest) (offset : Nat) (data : List UInt8) : Prop where
  here : offset = g.offset
  nonempty : data ≠ []
  small : data.length ≤ 65536
  same : ∀ b, g.begun = some b → b.data = data

theorem writeRemaining_eq_take (remaining : List UInt8) (writes : Writes) :
    ∃ m ≤ remaining.length, (writeRemaining remaining writes).1 = remaining.take m ∧
      ((writeRemaining remaining writes).2 → m = remaining.length) := by
  obtain ⟨hpiece, hall⟩ := writeRemaining_taken remaining writes
  refine ⟨(writeRemaining remaining writes).1.length, hpiece.length_le, List.prefix_iff_eq_take.1 hpiece, fun h => ?_⟩
  rw [hall h]

section Call
variable {g : Guest} {offset : Nat} {data : List UInt8}

/-- Everything `WriteAt` can do. -/
theorem writeAt_cases (g : Guest) (offset : Nat) (data : List UInt8) (writes : Writes) :
    (∃ text, g.writeAt offset data writes = (g, .error text)) ∨
      (g.last = some (offset, data) ∧ g.writeAt offset data writes = (g, .ok g.offset)) ∨
      (Next g offset data ∧ ∃ m ≤ (data.drop (accepted g)).length,
        ((m = (data.drop (accepted g)).length ∧ g.writeAt offset data writes = ({ g with
            written := g.written ++ (data.drop (accepted g)).take m, last := some (offset, data)
            offset := offset + data.length, begun := none }, .ok (offset + data.length))) ∨
          ∃ text, g.writeAt offset data writes = ({ g with
            written := g.written ++ (data.drop (accepted g)).take m
            begun := some ⟨offset, data, accepted g + m⟩ }, .error text))) := by
  unfold Guest.writeAt
  split
  · exact .inl ⟨_, rfl⟩
  rename_i hsize
  split
  · rename_i hlast
    exact .inr (.inl ⟨hlast.1, rfl⟩)
  split
  · exact .inl ⟨_, rfl⟩
  rename_i hbegun
  split
  · exact .inl ⟨_, rfl⟩
  split
  · exact .inl ⟨_, rfl⟩
  split
  · exact .inl ⟨_, rfl⟩
  rename_i hoffset
  simp only [not_or, not_not] at hsize hoffset
  refine .inr (.inr ⟨⟨hoffset.1, hsize.1, Nat.le_of_not_lt hsize.2, fun b hb => ?_⟩, ?_⟩)
  · rw [hb] at hbegun
    simp only [Option.any_some, decide_eq_true_eq, not_or, not_not] at hbegun
    exact hbegun.2
  · obtain ⟨m, hm, htake, hall⟩ := writeRemaining_eq_take (data.drop (accepted g)) writes
    refine ⟨m, hm, ?_⟩
    dsimp only
    rw [← accepted]
    split
    · rename_i hcomplete
      rw [htake]
      exact .inl ⟨hall hcomplete, rfl⟩
    · rw [htake, List.length_take, Nat.min_eq_left hm]
      exact .inr ⟨_, rfl⟩

end Call

/-! ## Chunks one after another -/

/-- Chunks that lie back to back, from offset `n` on. -/
def Contiguous : Nat → List Chunk → Prop
  | _, [] => True
  | n, c :: chunks => c.1 = n ∧ Contiguous (n + c.2.length) chunks

def bytes (chunks : List Chunk) : List UInt8 := chunks.flatMap (·.2)

section Contiguous
variable {n : Nat} {chunks : List Chunk} {c : Chunk}

theorem Contiguous.append (h : Contiguous n chunks) (hc : c.1 = n + (bytes chunks).length) : Contiguous n (chunks ++ [c]) := by
  induction chunks generalizing n with
  | nil => exact ⟨by simpa [bytes] using hc, trivial⟩
  | cons d chunks ih =>
    refine ⟨h.1, ih h.2 ?_⟩
    simp only [bytes, List.flatMap_cons, List.length_append] at hc ⊢
    omega

/-- A chunk lies between the ends. -/
theorem Contiguous.bounds (h : Contiguous n chunks) (hc : c ∈ chunks) :
    n ≤ c.1 ∧ c.1 + c.2.length ≤ n + (bytes chunks).length := by
  induction chunks generalizing n with
  | nil => cases hc
  | cons d chunks ih =>
    simp only [bytes, List.flatMap_cons, List.length_append] at ih ⊢
    rcases List.mem_cons.1 hc with rfl | hc
    · have := h.1
      omega
    · have := ih h.2 hc
      omega

/-- The last chunk is at the end. -/
theorem Contiguous.last (h : Contiguous n chunks) (hc : chunks.getLast? = some c) : c.1 + c.2.length = n + (bytes chunks).length := by
  induction chunks generalizing n with
  | nil => cases hc
  | cons d chunks ih =>
    simp only [bytes, List.flatMap_cons, List.length_append] at ih ⊢
    cases chunks with
    | nil =>
      simp only [List.getLast?_singleton, Option.some.injEq] at hc
      subst hc
      have := h.1
      simp only [List.flatMap_nil, List.length_nil]
      omega
    | cons e chunks =>
      rw [List.getLast?_cons_cons] at hc
      have := ih h.2 hc
      omega

end Contiguous

/-! ## Every run -/

/-- The chunks that were acknowledged, each once, and what the guest has. -/
structure Accounted (l : Log) (chunks : List Chunk) : Prop where
  contiguous : Contiguous 0 chunks
  nonempty : ∀ c ∈ chunks, c.2 ≠ []
  small : ∀ c ∈ chunks, c.2.length ≤ 65536
  acked : ∀ c, c ∈ l.acked ↔ c ∈ chunks
  latest : l.acked.getLast? = chunks.getLast?
  last : l.guest.last = chunks.getLast?
  offset : l.guest.offset = (bytes chunks).length
  written : l.guest.written = bytes chunks ++ (l.guest.begun.map fun b => b.data.take b.accepted).getD []
  begun : ∀ b, l.guest.begun = some b → b.start = l.guest.offset ∧ b.accepted ≤ b.data.length ∧ (b.start, b.data) ∈ l.offered

section Run
variable {l : Log} {chunks : List Chunk}

/-- What was taken of the chunk so far. -/
theorem begun_eq_take {g : Guest} {offset : Nat} {data : List UInt8} (h : Next g offset data) :
    (g.begun.map fun b => b.data.take b.accepted).getD [] = data.take (accepted g) := by
  cases hb : g.begun with
  | none => simp [accepted, hb]
  | some b => simp [accepted, hb, h.same b hb]

theorem accepted_le {g : Guest} {offset : Nat} {data : List UInt8} (h : Next g offset data)
    (hbegun : ∀ b, g.begun = some b → b.accepted ≤ b.data.length) : accepted g ≤ data.length := by
  cases hb : g.begun with
  | none => simp [accepted, hb]
  | some b =>
    have := hbegun b hb
    rw [h.same b hb] at this
    simpa [accepted, hb] using this

theorem accounted_writeAt (h : Accounted l chunks) (offset : Nat) (data : List UInt8) (writes : Writes) :
    ∃ chunks', Accounted (l.writeAt offset data writes) chunks' := by
  have hoffered : ∀ b, l.guest.begun = some b → (b.start, b.data) ∈ l.offered ++ [(offset, data)] :=
    fun b hb => List.mem_append_left _ (h.begun b hb).2.2
  unfold Log.writeAt
  rcases writeAt_cases l.guest offset data writes with ⟨text, heq⟩ | ⟨hlast, heq⟩ | ⟨hnext, m, hm, ⟨hall, heq⟩ | ⟨text, heq⟩⟩
  · rw [heq]
    exact ⟨chunks, h.contiguous, h.nonempty, h.small, h.acked, h.latest, h.last, h.offset, h.written,
      fun b hb => ⟨(h.begun b hb).1, (h.begun b hb).2.1, hoffered b hb⟩⟩
  · -- The last chunk once more.
    rw [heq]
    rw [h.last] at hlast
    refine ⟨chunks, h.contiguous, h.nonempty, h.small, fun c => ?_, ?_, h.last, h.offset, h.written,
      fun b hb => ⟨(h.begun b hb).1, (h.begun b hb).2.1, hoffered b hb⟩⟩
    · have hmem : (offset, data) ∈ chunks := List.mem_of_getLast? hlast
      simp only [Except.toOption, Option.isSome_some, if_true, List.mem_append, List.mem_singleton, h.acked]
      constructor
      · rintro (hc | rfl)
        · exact hc
        · exact hmem
      · exact .inl
    · simp only [Except.toOption, Option.isSome_some, if_true, List.getLast?_append, List.getLast?_singleton, hlast]
      rfl
  · -- All of it is there now.
    rw [heq]
    have hwritten : l.guest.written ++ (data.drop (accepted l.guest)).take m = bytes chunks ++ data := by
      rw [h.written, begun_eq_take hnext, hall, List.take_length, List.append_assoc, List.take_append_drop]
    have hlength : offset = (bytes chunks).length := by rw [hnext.here, h.offset]
    refine ⟨chunks ++ [(offset, data)], h.contiguous.append (by simpa using hlength), ?_, ?_, ?_, ?_, ?_, ?_, ?_, ?_⟩
    · intro c hc
      rcases List.mem_append.1 hc with hc | hc
      · exact h.nonempty c hc
      · rw [List.mem_singleton.1 hc]
        exact hnext.nonempty
    · intro c hc
      rcases List.mem_append.1 hc with hc | hc
      · exact h.small c hc
      · rw [List.mem_singleton.1 hc]
        exact hnext.small
    · intro c
      simp only [Except.toOption, Option.isSome_some, if_true, List.mem_append, h.acked]
    · simp [Except.toOption]
    · simp
    · simp [bytes, hlength]
    · simp [bytes, hwritten]
    · intro b hb
      cases hb
  · -- A part of it.
    rw [heq]
    have hle := accepted_le hnext fun b hb => (h.begun b hb).2.1
    have hwritten : l.guest.written ++ (data.drop (accepted l.guest)).take m = bytes chunks ++ data.take (accepted l.guest + m) := by
      rw [h.written, begun_eq_take hnext, List.append_assoc, ← List.take_add]
    refine ⟨chunks, h.contiguous, h.nonempty, h.small, h.acked, h.latest, h.last, h.offset, hwritten, ?_⟩
    rintro b ⟨⟩
    rw [List.length_drop] at hm
    refine ⟨hnext.here, ?_, List.mem_append_right _ (List.mem_singleton.2 rfl)⟩
    dsimp only
    omega

theorem accounted_call (h : Accounted l chunks) (c : Call) : ∃ chunks', Accounted (l.call c) chunks' := by
  cases c with
  | writeAt offset data writes => exact accounted_writeAt h offset data writes
  | write data writes => exact accounted_writeAt h _ data writes
  | status running closed =>
    exact ⟨chunks, h.contiguous, h.nonempty, h.small, h.acked, h.latest, h.last, h.offset, h.written, h.begun⟩

theorem accounted_run (calls : List Call) : ∃ chunks, Accounted (run Log.call {} calls) chunks := by
  have hinit : Accounted {} [] :=
    ⟨trivial, by simp, by simp, by simp, rfl, rfl, rfl, rfl, fun b hb => by cases hb⟩
  have hall : Lib.Conforms Log.call (fun _ _ => True) {} calls := conforms_of_forall (fun _ _ => trivial) _ calls
  refine hall.inv (J := fun l => ∃ chunks, Accounted l chunks) ⟨[], hinit⟩ ?_
  rintro l c ⟨chunks, h⟩ -
  exact accounted_call h c

/-- The last chunk once more. -/
theorem last_acknowledged (h : Accounted l chunks) {offset : Nat} {data : List UInt8} (hlast : chunks.getLast? = some (offset, data))
    (writes : Writes) : l.guest.writeAt offset data writes = (l.guest, .ok (offset + data.length)) := by
  have hmem := List.mem_of_getLast? hlast
  have hend : l.guest.offset = offset + data.length := by
    have := h.contiguous.last hlast
    have := h.offset
    dsimp only at *
    omega
  have hsize : ¬(data = [] ∨ data.length > 65536) := by
    rintro (hempty | hlong)
    · exact h.nonempty _ hmem hempty
    · have := h.small _ hmem
      dsimp only at this
      omega
  unfold Guest.writeAt
  rw [if_neg hsize, if_pos ⟨h.last.trans hlast, hend⟩, hend]

/-- A chunk at the offset of one that was acknowledged is the last one once more,
or refused. -/
theorem old_refused (h : Accounted l chunks) {offset : Nat} {data data' : List UInt8} (hold : (offset, data) ∈ chunks)
    (hne : chunks.getLast? ≠ some (offset, data')) (writes : Writes) :
    ∃ text, l.guest.writeAt offset data' writes = (l.guest, .error text) := by
  rcases writeAt_cases l.guest offset data' writes with hrefused | ⟨hlast, -⟩ | ⟨hnext, -⟩
  · exact hrefused
  · exact absurd (h.last.symm.trans hlast) hne
  · have hbounds := (h.contiguous.bounds hold).2
    have hpos : 0 < data.length := List.length_pos_iff.2 (h.nonempty _ hold)
    have := hnext.here
    have := h.offset
    dsimp only at hbounds
    omega

end Run

/-- After every sequence of calls: the process has received the acknowledged
chunks in the order of their offsets and a part of at most one more, the last
acknowledged chunk is acknowledged again without being written, and every other
chunk at the offset of an acknowledged one is refused without being written. -/
theorem delivered_once (calls : List Call) :
    (∃ chunks : List Chunk, Contiguous 0 chunks ∧ (∀ c, c ∈ (run Log.call {} calls).acked ↔ c ∈ chunks) ∧
      ((run Log.call {} calls).guest.written = bytes chunks ∨
        ∃ data n, ((bytes chunks).length, data) ∈ (run Log.call {} calls).offered ∧
          ((bytes chunks).length, data) ∉ (run Log.call {} calls).acked ∧
          (run Log.call {} calls).guest.written = bytes chunks ++ data.take n)) ∧
    (∀ offset data writes, (run Log.call {} calls).acked.getLast? = some (offset, data) →
      (run Log.call {} calls).guest.writeAt offset data writes = ((run Log.call {} calls).guest, .ok (offset + data.length))) ∧
    ∀ offset data data' writes, (offset, data) ∈ (run Log.call {} calls).acked →
      (run Log.call {} calls).acked.getLast? ≠ some (offset, data') →
      ∃ text, (run Log.call {} calls).guest.writeAt offset data' writes = ((run Log.call {} calls).guest, .error text) := by
  obtain ⟨chunks, h⟩ := accounted_run calls
  generalize run Log.call {} calls = l at h
  refine ⟨⟨chunks, h.contiguous, h.acked, ?_⟩, ?_, ?_⟩
  · cases hb : l.guest.begun with
    | none => exact .inl (by simpa [hb] using h.written)
    | some b =>
      obtain ⟨hstart, -, hoffered⟩ := h.begun b hb
      rw [h.offset] at hstart
      rw [hstart] at hoffered
      refine .inr ⟨b.data, b.accepted, hoffered, fun hacked => ?_, by simpa [hb] using h.written⟩
      have hmem := (h.acked _).1 hacked
      have hpos : 0 < b.data.length := List.length_pos_iff.2 (h.nonempty _ hmem)
      have := (h.contiguous.bounds hmem).2
      dsimp only at this
      omega
  · intro offset data writes hlast
    exact last_acknowledged h (by rw [← h.latest]; exact hlast) writes
  · intro offset data data' writes hold hne
    exact old_refused h ((h.acked _).1 hold) (by rw [← h.latest]; exact hne) writes

/-- Two chunks, and the first of them again. -/
theorem old_chunk_refused :
    (run Log.call {} [.writeAt 0 [1] [(1, false)], .writeAt 1 [2] [(1, false)]]).acked = [(0, [1]), (1, [2])] ∧
      ∃ text, ((run Log.call {} [.writeAt 0 [1] [(1, false)], .writeAt 1 [2] [(1, false)]]).guest.writeAt 0 [1] [(1, false)]).2 =
        .error text := by
  refine ⟨by decide, "stdin chunk offset differs from the exact acknowledged position", ?_⟩
  rfl

/-- A short write that fails is made good by the repetition. -/
example : (run Log.call {} [.write [1, 2] [(1, true)], .write [1, 2] [(1, false)]]).guest.written = [1, 2] := by decide

end Multikernel.Agent
