import Multikernel.Lib.Logic
import Multikernel.Lib.Runs
import Multikernel.State.Store
/-!
# Writing the snapshot, step by step

The mutators of `runtime/internal/state/store.go` with `persistLocked` and
`Directory.Replace` (`runtime/internal/safefile/directory_linux.go`), call by
call: a mutator changes the snapshot in memory, writes it to a temporary file,
renames that over `state.json` and syncs the directory; on an error it puts back
the records it changed. Each step can fail. `State.Store` has the write as one
call, which is all that the runs of the daemon see of it (`mutate_refines`).

A failing sync after the rename returns an error and restores the memory, but the
file is already the new one.
-/

namespace Multikernel.Durable
open Lib
variable {name : Nat} {d : Snapshot}

/-! ## The host -/

/-- The steps of a write. -/
inductive Point where
  | marshal | capacity | openDirectory
  | random | create | write | sync | close | rename | syncDirectory
  /-- The `syncDir` hook of the store. -/
  | syncHook
  deriving DecidableEq, Repr

/-- The step comes after the rename. -/
def Point.late : Point → Bool
  | .syncDirectory | .syncHook => true
  | _ => false

/-- What a file holds: the encoding of a snapshot, or a part of one. -/
inductive Content where
  | whole (d : Snapshot)
  | part

/-- The store in memory, its two files, and the temporary files by their random
names. `failed` and `collisions` are history variables of one write: the step
that failed, and the names that were taken. -/
structure World where
  memory : Snapshot
  file : Option Content
  temporaries : AList fun _ : Nat => Content
  journal : List JournalEntry
  journalFailed : Bool := false
  torn : Bool := false
  failed : Option Point := none
  collisions : Nat := 0

inductive Call where
  | memory
  | remember (d : Snapshot)
  /-- A step that changes nothing. -/
  | pass (p : Point)
  | random
  /-- `openat` with `O_CREAT|O_EXCL`. -/
  | create (name : Nat)
  | write (name : Nat) (d : Snapshot)
  | rename (name : Nat)
  | unlink (name : Nat)

def Call.Reply : Call → Type
  | .memory => Snapshot
  | .remember _ | .unlink _ => Unit
  | .random => Except Err Nat
  | .create _ => Except Err Bool
  | .pass _ | .write _ _ | .rename _ => Option Err

/-- What the environment decides in a call. -/
structure Answer where
  fails : Option Err := none
  random : Nat := 0

def World.fail (w : World) (p : Point) : World := { w with failed := some p }

def step (w : World) (c : Call) (a : Answer) : World × c.Reply :=
  match c with
  | .memory => (w, w.memory)
  | .remember d => ({ w with memory := d }, ())
  | .pass p =>
    match a.fails with
    | some e => (w.fail p, some e)
    | none => (w, none)
  | .random =>
    match a.fails with
    | some e => (w.fail .random, .error e)
    | none => (w, .ok a.random)
  | .create name =>
    match a.fails with
    | some e => (w.fail .create, .error e)
    | none =>
      if name ∈ w.temporaries then ({ w with collisions := w.collisions + 1 }, .ok false)
      else ({ w with temporaries := w.temporaries.insert name .part }, .ok true)
  | .write name d =>
    match a.fails with
    | some e => (w.fail .write, some e)
    | none => ({ w with temporaries := w.temporaries.insert name (.whole d) }, none)
  | .rename name =>
    match a.fails with
    | some e => (w.fail .rename, some e)
    | none => ({ w with file := w.temporaries.lookup name, temporaries := w.temporaries.erase name }, none)
  | .unlink name =>
    match a.fails with
    | some _ => (w, ())
    | none => ({ w with temporaries := w.temporaries.erase name }, ())

abbrev MediumI : Interface := ⟨Call, Call.Reply⟩

abbrev Medium : Machine MediumI := ⟨World, Answer, step⟩

abbrev Act := Prog MediumI

def perform (c : Call) : Act c.Reply := Prog.perform (I := MediumI) c

/-! ## The code -/

/-- The first name that is not taken, of so many. -/
def allocate : Nat → Act (Except Err (Option Nat))
  | 0 => return .ok none
  | attempts + 1 => do
    match ← perform .random with
    | .error e => return .error e
    | .ok name =>
      match ← perform (.create name) with
      | .error e => return .error e
      | .ok false => allocate attempts
      | .ok true => return .ok (some name)

/-- The deferred removal of the temporary file. -/
def discard (name : Nat) (e : Err) : Act (Option Err) := do
  perform (.unlink name)
  return some e

/-- `Replace` once it has a temporary file. -/
def publish (name : Nat) (d : Snapshot) : Act (Option Err) := do
  let written ← perform (.write name d)
  let synced ← if written.isSome then pure written else perform (.pass .sync)
  let closed ← perform (.pass .close)
  match synced, closed with
  | some e, _ => discard name e
  | none, some e => discard name e
  | none, none =>
    match ← perform (.rename name) with
    | some e => discard name e
    | none => perform (.pass .syncDirectory)

/-- `Directory.Replace` of `state.json`. -/
def replace (d : Snapshot) : Act (Option Err) := do
  match ← allocate 16 with
  | .error e => return some e
  | .ok none => return some { text := "could not allocate a unique replacement file" }
  | .ok (some name) => publish name d

def persistLocked : Act (Option Err) := do
  if let some e ← perform (.pass .marshal) then
    return some e
  if let some e ← perform (.pass .capacity) then
    return some e
  if let some e ← perform (.pass .openDirectory) then
    return some e
  if let some e ← replace (← perform .memory) then
    return some e
  perform (.pass .syncHook)

/-- Put a record back, or take it out where there was none. -/
def restore {α : Type} (t : Table α) (k : String) : Option α → Table α
  | some v => t.insert k v
  | none => t.erase k

/-- The records a mutator keeps for its undo. -/
def saved (d : Snapshot) : Change → Option Sandbox × Option IdempotentResult
  | .commit sb key _ _ | .commitFailure sb key _ _ => (d.sandboxes.lookup sb.id, d.results.lookup key)
  | .tombstone key _ _ => (none, d.results.lookup key)
  | .abortCreate id key _ _ => (d.sandboxes.lookup id, d.results.lookup key)
  | .setSandbox sb => (d.sandboxes.lookup sb.id, none)
  | .removeSandbox id => (d.sandboxes.lookup id, none)

/-- The undo of each mutator. -/
def undo (d : Snapshot) (sandbox : Option Sandbox) (result : Option IdempotentResult) : Change → Snapshot
  | .commit sb key _ _ =>
    { d with
      sandboxes := restore d.sandboxes sb.id sandbox
      results := if key ≠ "" then restore d.results key result else d.results }
  | .commitFailure sb key _ _ =>
    { d with sandboxes := restore d.sandboxes sb.id sandbox, results := restore d.results key result }
  | .tombstone key _ _ => { d with results := restore d.results key result }
  | .abortCreate id key _ _ =>
    { d with sandboxes := restore d.sandboxes id sandbox, results := restore d.results key result }
  | .setSandbox sb => { d with sandboxes := restore d.sandboxes sb.id sandbox }
  | .removeSandbox id =>
    match sandbox with
    | some previous => { d with sandboxes := d.sandboxes.insert id previous }
    | none => d

/-- `Commit`, `CommitFailure`, `Tombstone`, `AbortCreate`, `SetSandbox` and
`RemoveSandbox`. -/
def mutate (ch : Change) : Act (Option Err) := do
  let before ← perform .memory
  perform (.remember (before.change ch))
  match ← persistLocked with
  | none => return none
  | some e =>
    let changed ← perform .memory
    perform (.remember (undo changed (saved before ch).1 (saved before ch).2 ch))
    return some e

def emptySnapshot : Snapshot := ⟨0, ∅, ∅⟩

/-- The snapshot that `state.json` holds; without a file it is empty. -/
def World.stored (w : World) : Option Snapshot :=
  match w.file with
  | none => some emptySnapshot
  | some .part => none
  | some (.whole d) => some d

/-- The last sequence of the journal. -/
def World.last (w : World) : Nat := (w.journal.getLast?.map (·.sequence)).getD 0

/-- `Open` on what the files hold. -/
def World.restart (w : World) : Option Snapshot :=
  w.stored.bind fun d => if w.torn ∨ w.last < d.sequence then none else some { d with sequence := w.last }

/-- A call of a mutator, with an answer for each of its steps. -/
def World.mutate (w : World) (ch : Change) (f : Nat → Answer) : World × Option Err :=
  finish Medium (Durable.mutate ch) { w with failed := none, collisions := 0 } f

/-- The step at which a write stopped; sixteen names that are taken are one. -/
def World.stopped (w : World) : Option Point := if w.collisions = 16 then some .create else w.failed

/-! ## What a write leaves -/

/-- The memory and the journal are as they were. -/
structure World.Kept (w w' : World) : Prop where
  memory : w'.memory = w.memory
  journal : w'.journal = w.journal
  torn : w'.torn = w.torn
  journalFailed : w'.journalFailed = w.journalFailed

/-- Nothing has failed yet, and a name can still be found. -/
def World.Going (w : World) : Prop := w.failed = none ∧ w.collisions < 16

/-- How a write of `d` ends. -/
inductive Written (w : World) (d : Snapshot) (w' : World) : Option Err → Prop where
  | done (hfile : w'.file = some (.whole d)) (hgoing : w'.Going) : Written w d w' none
  | early {e : Err} {p : Point} (hfile : w'.file = w.file) (hstop : w'.stopped = some p) (hp : p.late = false) :
      Written w d w' (some e)
  | late {e : Err} {p : Point} (hfile : w'.file = some (.whole d)) (hstop : w'.stopped = some p) (hp : p.late) :
      Written w d w' (some e)

abbrev Ends {α : Type} (p : Act α) (w : World) (Q : α → World → Prop) : Prop :=
  Sat (Medium.trans fun _ _ _ => True) (fun _ _ => True) p w Q

section Rules
variable {α : Type} {w : World} {Q : α → World → Prop}

theorem ends_perform {c : Call} {f : c.Reply → Act α} (h : ∀ a, Ends (f (step w c a).2) (step w c a).1 Q) :
    Ends (perform c >>= f) w Q := by
  refine ⟨trivial, fun r w' hr => ?_⟩
  obtain ⟨a, -, hr⟩ := hr
  have hstep := h a
  change step w c a = (w', r) at hr
  rw [hr] at hstep
  exact hstep

theorem ends_failing {c : Call} {f : c.Reply → Act α} (hfail : ∀ e n, Ends (f (step w c ⟨some e, n⟩).2) (step w c ⟨some e, n⟩).1 Q)
    (hok : ∀ n, Ends (f (step w c ⟨none, n⟩).2) (step w c ⟨none, n⟩).1 Q) : Ends (perform c >>= f) w Q := by
  refine ends_perform fun a => ?_
  obtain ⟨fails, n⟩ := a
  cases fails with
  | some e => exact hfail e n
  | none => exact hok n

theorem ends_pass {p : Point} {f : Option Err → Act α} (hfail : ∀ e, Ends (f (some e)) (w.fail p) Q) (hok : Ends (f none) w Q) :
    Ends (perform (.pass p) >>= f) w Q :=
  ends_failing (fun e _ => hfail e) fun _ => hok

theorem ends_random {f : Except Err Nat → Act α} (hfail : ∀ e, Ends (f (.error e)) (w.fail .random) Q)
    (hok : ∀ name, Ends (f (.ok name)) w Q) : Ends (perform .random >>= f) w Q :=
  ends_failing (fun e _ => hfail e) hok

theorem ends_write {f : Option Err → Act α} (hfail : ∀ e, Ends (f (some e)) (w.fail .write) Q)
    (hok : Ends (f none) { w with temporaries := w.temporaries.insert name (.whole d) } Q) :
    Ends (perform (.write name d) >>= f) w Q :=
  ends_failing (fun e _ => hfail e) fun _ => hok

theorem ends_rename {f : Option Err → Act α} (hfail : ∀ e, Ends (f (some e)) (w.fail .rename) Q)
    (hok : Ends (f none) { w with file := w.temporaries.lookup name, temporaries := w.temporaries.erase name } Q) :
    Ends (perform (.rename name) >>= f) w Q :=
  ends_failing (fun e _ => hfail e) fun _ => hok

theorem ends_create {f : Except Err Bool → Act α} (hfail : ∀ e, Ends (f (.error e)) (w.fail .create) Q)
    (htaken : Ends (f (.ok false)) { w with collisions := w.collisions + 1 } Q)
    (hmade : Ends (f (.ok true)) { w with temporaries := w.temporaries.insert name .part } Q) :
    Ends (perform (.create name) >>= f) w Q := by
  refine ends_failing (fun e _ => hfail e) fun n => ?_
  by_cases hname : name ∈ w.temporaries
  · have hstep : step w (.create name) ⟨none, n⟩ = ({ w with collisions := w.collisions + 1 }, .ok false) := by
      simp only [step, hname, if_true]
    rw [hstep]
    exact htaken
  · have hstep : step w (.create name) ⟨none, n⟩ =
        ({ w with temporaries := w.temporaries.insert name .part }, .ok true) := by
      simp only [step, hname, if_false]
    rw [hstep]
    exact hmade

end Rules

section Writes
variable {w : World}

theorem World.Going.stopped (h : w.Going) : w.stopped = none := by
  unfold World.stopped
  rw [if_neg (by have := h.2; omega)]
  exact h.1

theorem World.Going.fail (h : w.Going) (p : Point) : (w.fail p).stopped = some p := by
  unfold World.stopped World.fail
  rw [if_neg (by have := h.2; dsimp only; omega)]

/-- How the search for a name ends. -/
inductive Allocated (w' : World) : Except Err (Option Nat) → Prop where
  | failed {e : Err} {p : Point} (hstop : w'.stopped = some p) (hp : p.late = false) : Allocated w' (.error e)
  | exhausted (hstop : w'.stopped = some .create) : Allocated w' (.ok none)
  | found {name : Nat} (h : w'.Going) : Allocated w' (.ok (some name))

theorem ends_allocate {attempts : Nat} (hfailed : w.failed = none) (hattempts : w.collisions + attempts = 16) :
    Ends (allocate attempts) w fun r w' => w.Kept w' ∧ w'.file = w.file ∧ Allocated w' r := by
  induction attempts generalizing w with
  | zero =>
    refine ⟨⟨rfl, rfl, rfl, rfl⟩, rfl, .exhausted ?_⟩
    unfold World.stopped
    exact if_pos hattempts
  | succ attempts ih =>
    have hgoing : w.Going := ⟨hfailed, by omega⟩
    refine ends_random (fun e => ⟨⟨rfl, rfl, rfl, rfl⟩, rfl, .failed (hgoing.fail .random) rfl⟩) fun name => ?_
    refine ends_create (fun e => ⟨⟨rfl, rfl, rfl, rfl⟩, rfl, .failed (hgoing.fail .create) rfl⟩) ?_ ?_
    · refine Sat.mono (ih hfailed (by dsimp only; omega)) fun r w' h => ?_
      exact ⟨⟨h.1.memory, h.1.journal, h.1.torn, h.1.journalFailed⟩, h.2⟩
    · exact ⟨⟨rfl, rfl, rfl, rfl⟩, rfl, .found hgoing⟩

/-- The removal of the temporary file changes nothing else. -/
theorem ends_discard {w₀ : World} {e : Err} (h : w₀.Kept w ∧ Written w₀ d w (some e)) :
    Ends (discard name e) w fun r w' => w₀.Kept w' ∧ Written w₀ d w' r := by
  refine ends_perform fun a => ?_
  obtain ⟨fails, -⟩ := a
  cases fails with
  | some _ => exact h
  | none =>
    obtain ⟨⟨hmemory, hjournal, htorn, hfailed⟩, hwritten⟩ := h
    refine ⟨⟨hmemory, hjournal, htorn, hfailed⟩, ?_⟩
    cases hwritten with
    | early hfile hstop hp => exact .early hfile hstop hp
    | late hfile hstop hp => exact .late hfile hstop hp

theorem ends_publish (h : w.Going) : Ends (publish name d) w fun r w' => w.Kept w' ∧ Written w d w' r := by
  -- Before the rename every failure ends in `discard`.
  have hdiscard {w₁ : World} {e : Err} {p : Point} (hkept : w.Kept w₁) (hlt : w₁.collisions < 16)
      (hfile : w₁.file = w.file) (hfailed : w₁.failed = some p) (hp : p.late = false) :
      Ends (discard name e) w₁ fun r w' => w.Kept w' ∧ Written w d w' r := by
    have hstop : w₁.stopped = some p := by
      unfold World.stopped
      rw [if_neg (by omega), hfailed]
    exact ends_discard ⟨hkept, .early hfile hstop hp⟩
  unfold publish
  refine ends_write (fun e => ?_) ?_
  · refine ends_pass (fun e' => ?_) ?_
    · exact hdiscard ⟨rfl, rfl, rfl, rfl⟩ h.2 rfl rfl rfl
    · exact hdiscard ⟨rfl, rfl, rfl, rfl⟩ h.2 rfl rfl rfl
  refine ends_pass (fun e => ?_) ?_
  · refine ends_pass (fun e' => ?_) ?_
    · exact hdiscard ⟨rfl, rfl, rfl, rfl⟩ h.2 rfl rfl rfl
    · exact hdiscard ⟨rfl, rfl, rfl, rfl⟩ h.2 rfl rfl rfl
  refine ends_pass (fun e => ?_) ?_
  · exact hdiscard ⟨rfl, rfl, rfl, rfl⟩ h.2 rfl rfl rfl
  refine ends_rename (fun e => ?_) ?_
  · exact hdiscard ⟨rfl, rfl, rfl, rfl⟩ h.2 rfl rfl rfl
  have hfile : AList.lookup name (w.temporaries.insert name (.whole d)) = some (.whole d) := AList.lookup_insert _
  refine ends_pass (f := pure) (fun e => ?_) ?_
  · exact ⟨⟨rfl, rfl, rfl, rfl⟩, .late hfile (World.Going.fail h .syncDirectory) rfl⟩
  · exact ⟨⟨rfl, rfl, rfl, rfl⟩, .done hfile h⟩

theorem World.Kept.trans {w₁ w₂ : World} (h : w.Kept w₁) (h' : w₁.Kept w₂) : w.Kept w₂ :=
  ⟨h'.memory.trans h.memory, h'.journal.trans h.journal, h'.torn.trans h.torn, h'.journalFailed.trans h.journalFailed⟩

/-- What was written after a part that left the file as it was. -/
theorem Written.after {w₁ w₂ : World} {r : Option Err} (h : Written w₁ d w₂ r) (hfile : w₁.file = w.file) :
    Written w d w₂ r := by
  cases h with
  | done hnew hgoing => exact .done hnew hgoing
  | early hold hstop hp => exact .early (hold.trans hfile) hstop hp
  | late hnew hstop hp => exact .late hnew hstop hp

theorem ends_replace (hfailed : w.failed = none) (hnone : w.collisions = 0) :
    Ends (replace d) w fun r w' => w.Kept w' ∧ Written w d w' r := by
  refine Sat.bind (ends_allocate hfailed (by omega)) fun r w₁ hr => ?_
  obtain ⟨hkept, hfile, hallocated⟩ := hr
  cases hallocated with
  | failed hstop hp => exact ⟨hkept, .early hfile hstop hp⟩
  | exhausted hstop => exact ⟨hkept, .early hfile hstop rfl⟩
  | found hgoing => exact Sat.mono (ends_publish hgoing) fun r w₂ h => ⟨hkept.trans h.1, h.2.after hfile⟩

theorem ends_persistLocked (hfailed : w.failed = none) (hnone : w.collisions = 0) :
    Ends persistLocked w fun r w' => w.Kept w' ∧ Written w w.memory w' r := by
  have hgoing : w.Going := ⟨hfailed, by omega⟩
  have hearly {e : Err} {p : Point} (hp : p.late = false) : w.Kept (w.fail p) ∧ Written w w.memory (w.fail p) (some e) :=
    ⟨⟨rfl, rfl, rfl, rfl⟩, .early rfl (hgoing.fail p) hp⟩
  unfold persistLocked
  refine ends_pass (fun e => hearly rfl) (ends_pass (fun e => hearly rfl) (ends_pass (fun e => hearly rfl) ?_))
  refine ends_perform fun _ => Sat.bind (ends_replace hfailed hnone) fun r w₁ hr => ?_
  obtain ⟨hkept, hwritten⟩ := hr
  cases r with
  | some e => exact ⟨hkept, hwritten⟩
  | none =>
    cases hwritten with
    | done hfile hgoing =>
      refine ends_pass (f := pure) (fun e => ?_) ?_
      · exact ⟨hkept.trans ⟨rfl, rfl, rfl, rfl⟩, .late hfile (hgoing.fail .syncHook) rfl⟩
      · exact ⟨hkept, .done hfile hgoing⟩

end Writes

/-! ## Undoing a change -/

/-- The same snapshot: its maps have the same records. -/
structure SameSnapshot (d d' : Snapshot) : Prop where
  sequence : d.sequence = d'.sequence
  sandboxes : ∀ id, d.sandboxes.lookup id = d'.sandboxes.lookup id
  results : ∀ key, d.results.lookup key = d'.results.lookup key

section Undo
variable {α : Type} {t t' : Table α} {k : String}

/-- A map that differs in one record gets it back. -/
theorem lookup_restore (h : ∀ id, id ≠ k → t'.lookup id = t.lookup id) (id : String) :
    (restore t' k (t.lookup k)).lookup id = t.lookup id := by
  by_cases hid : id = k
  · subst hid
    cases hold : t.lookup id with
    | none => exact AList.lookup_erase _ _
    | some v => exact AList.lookup_insert _
  · cases t.lookup k with
    | none => exact (AList.lookup_erase_ne hid).trans (h id hid)
    | some v => exact (AList.lookup_insert_ne hid).trans (h id hid)

theorem lookup_restore_insert {v : α} (id : String) : (restore (t.insert k v) k (t.lookup k)).lookup id = t.lookup id :=
  lookup_restore (fun _ hid => AList.lookup_insert_ne hid) id

theorem lookup_restore_erase (id : String) : (restore (t.erase k) k (t.lookup k)).lookup id = t.lookup id :=
  lookup_restore (fun _ hid => AList.lookup_erase_ne hid) id

/-- Every mutator undoes its own change. -/
theorem undo_change (d : Snapshot) (ch : Change) : SameSnapshot (undo (d.change ch) (saved d ch).1 (saved d ch).2 ch) d := by
  cases ch with
  | commit sb key fp r =>
    refine ⟨rfl, fun id => ?_, fun id => ?_⟩
    · change (restore (if sb.state = .absent then _ else _) sb.id _).lookup id = _
      split
      · exact lookup_restore_erase id
      · exact lookup_restore_insert id
    · change (if key ≠ "" then restore (if key ≠ "" then _ else _) key _ else (if key ≠ "" then _ else _)).lookup id = _
      split
      · exact lookup_restore_insert id
      · rfl
  | commitFailure sb key fp failure => exact ⟨rfl, lookup_restore_insert, lookup_restore_insert⟩
  | tombstone key fp failure => exact ⟨rfl, fun _ => rfl, lookup_restore_insert⟩
  | abortCreate id key fp failure => exact ⟨rfl, lookup_restore_erase, lookup_restore_insert⟩
  | setSandbox sb => exact ⟨rfl, lookup_restore_insert, fun _ => rfl⟩
  | removeSandbox id =>
    change SameSnapshot (match d.sandboxes.lookup id with
      | some previous => { d.change (.removeSandbox id) with
          sandboxes := (d.change (.removeSandbox id)).sandboxes.insert id previous }
      | none => d.change (.removeSandbox id)) d
    cases hold : d.sandboxes.lookup id with
    | none =>
      refine ⟨rfl, fun id' => ?_, fun _ => rfl⟩
      by_cases hid : id' = id
      · subst hid
        exact (AList.lookup_erase _ _).trans hold.symm
      · exact AList.lookup_erase_ne hid
    | some previous =>
      refine ⟨rfl, fun id' => ?_, fun _ => rfl⟩
      have hback : (restore (d.sandboxes.erase id) id (d.sandboxes.lookup id)).lookup id' = d.sandboxes.lookup id' :=
        lookup_restore_erase id'
      rw [hold] at hback
      exact hback

end Undo

/-! ## All or nothing -/

/-- After an error the snapshot is the old one, in memory and for a restart;
after success a restart loads the new one. -/
structure AllOrNothing (w : World) (ch : Change) (x : World × Option Err) : Prop where
  error : x.2 ≠ none → SameSnapshot x.1.memory w.memory ∧ ∃ d, x.1.restart = some d ∧ SameSnapshot d w.memory
  success : x.2 = none → ∃ d, x.1.restart = some d ∧ SameSnapshot d (w.memory.change ch)

/-- The journal is whole, and the memory knows its last sequence. -/
def World.Intact (w : World) : Prop := w.torn = false ∧ w.last = w.memory.sequence

/-- The file holds the records that the memory has. -/
def World.Settled (w : World) : Prop :=
  ∃ d, w.stored = some d ∧ d.sequence ≤ w.memory.sequence ∧
    (∀ id, d.sandboxes.lookup id = w.memory.sandboxes.lookup id) ∧ ∀ key, d.results.lookup key = w.memory.results.lookup key

/-- What all or nothing takes, by the step at which the write stopped: before the
rename, a file that holds what the memory has; after it, a change that changes
nothing. -/
def World.Keeps (w : World) (ch : Change) : Option Point → Prop
  | none => w.Intact
  | some p => w.Intact ∧ if p.late then SameSnapshot (w.memory.change ch) w.memory else w.Settled

section AllOrNothing
variable {w w' : World} {ch : Change}

theorem ends_mutate (ch : Change) (hfailed : w.failed = none) (hnone : w.collisions = 0) :
    Ends (mutate ch) w fun r w' => w'.journal = w.journal ∧ w'.torn = w.torn ∧ w'.journalFailed = w.journalFailed ∧
      Written w (w.memory.change ch) w' r ∧ (r = none → w'.memory = w.memory.change ch) ∧
      (r ≠ none → SameSnapshot w'.memory w.memory) := by
  refine ends_perform fun _ => ends_perform fun _ => ?_
  refine Sat.bind (ends_persistLocked (w := { w with memory := w.memory.change ch }) hfailed hnone) fun r w₁ hr => ?_
  obtain ⟨⟨hmemory, hjournal, htorn, hjf⟩, hwritten⟩ := hr
  have hwritten := hwritten.after (w := w) rfl
  cases r with
  | none => exact ⟨hjournal, htorn, hjf, hwritten, fun _ => hmemory, fun hx => absurd rfl hx⟩
  | some e =>
    refine ends_perform fun _ => ends_perform fun _ => ⟨hjournal, htorn, hjf, ?_, (fun hx => by cases hx), fun _ => ?_⟩
    · cases hwritten with
      | early hfile hstop hp => exact .early hfile hstop hp
      | late hfile hstop hp => exact .late hfile hstop hp
    · change SameSnapshot (undo w₁.memory _ _ ch) w.memory
      rw [show w₁.memory = w.memory.change ch from hmemory]
      exact undo_change w.memory ch

/-- What a restart loads. -/
theorem restart_same {d₀ : Snapshot} (hstored : w.stored = some d₀) :
    (∃ d', w.restart = some d' ∧ SameSnapshot d' d) ↔ w.torn = false ∧ w.last = d.sequence ∧ d₀.sequence ≤ d.sequence ∧
      (∀ id, d₀.sandboxes.lookup id = d.sandboxes.lookup id) ∧ ∀ key, d₀.results.lookup key = d.results.lookup key := by
  unfold World.restart
  rw [hstored, Option.bind_some]
  constructor
  · rintro ⟨d', hd', hsame⟩
    split at hd'
    · cases hd'
    rename_i hopen
    obtain rfl := Option.some.inj hd'
    simp only [not_or, Bool.not_eq_true, Nat.not_lt] at hopen
    exact ⟨hopen.1, hsame.sequence, hsame.sequence ▸ hopen.2, hsame.sandboxes, hsame.results⟩
  · rintro ⟨htorn, hlast, hle, hsandboxes, hresults⟩
    rw [if_neg (by simp [htorn, hlast, hle])]
    exact ⟨_, rfl, hlast, hsandboxes, hresults⟩

/-- A file with the new snapshot. -/
theorem restart_written (hfile : w'.file = some (.whole (w.memory.change ch))) (hjournal : w'.journal = w.journal)
    (htorn : w'.torn = w.torn) (hd : d.sequence = w.memory.sequence) :
    (∃ d', w'.restart = some d' ∧ SameSnapshot d' d) ↔ w.Intact ∧ SameSnapshot (w.memory.change ch) d := by
  have hstored : w'.stored = some (w.memory.change ch) := by rw [World.stored, hfile]
  have hlast : w'.last = w.last := by rw [World.last, hjournal]; rfl
  have hsequence := change_sequence w.memory ch
  rw [restart_same hstored, htorn, hlast, hd]
  constructor
  · rintro ⟨ht, hl, -, hsandboxes, hresults⟩
    exact ⟨⟨ht, hl⟩, hsequence.trans hd.symm, hsandboxes, hresults⟩
  · rintro ⟨⟨ht, hl⟩, -, hsandboxes, hresults⟩
    exact ⟨ht, hl, hsequence.le, hsandboxes, hresults⟩

/-- A file as it was. -/
theorem restart_kept (hfile : w'.file = w.file) (hjournal : w'.journal = w.journal) (htorn : w'.torn = w.torn) :
    (∃ d', w'.restart = some d' ∧ SameSnapshot d' w.memory) ↔ w.Intact ∧ w.Settled := by
  have hstored : w'.stored = w.stored := by rw [World.stored, hfile]; rfl
  have hlast : w'.last = w.last := by rw [World.last, hjournal]; rfl
  cases hd : w.stored with
  | none =>
    constructor
    · rintro ⟨d', hd', -⟩
      rw [World.restart, hstored, hd] at hd'
      cases hd'
    · rintro ⟨-, d, hsome, -⟩
      rw [hd] at hsome
      cases hsome
  | some d =>
    rw [restart_same (hstored.trans hd), htorn, hlast]
    constructor
    · rintro ⟨ht, hl, hle, hrest⟩
      exact ⟨⟨ht, hl⟩, d, hd, hle, hrest⟩
    · rintro ⟨⟨ht, hl⟩, d', hd', hrest⟩
      obtain rfl := Option.some.inj (hd.symm.trans hd')
      exact ⟨ht, hl, hrest⟩

theorem allOrNothing_iff {r : Option Err} (hjournal : w'.journal = w.journal) (htorn : w'.torn = w.torn)
    (hwritten : Written w (w.memory.change ch) w' r) (hundone : r ≠ none → SameSnapshot w'.memory w.memory) :
    AllOrNothing w ch (w', r) ↔ w.Keeps ch w'.stopped := by
  cases hwritten with
  | done hfile hgoing =>
    have hloads := restart_written (d := w.memory.change ch) hfile hjournal htorn (change_sequence _ _)
    rw [hgoing.stopped]
    constructor
    · intro h
      exact (hloads.1 (h.success rfl)).1
    · intro h
      exact ⟨fun hx => absurd rfl hx, fun _ => hloads.2 ⟨h, rfl, fun _ => rfl, fun _ => rfl⟩⟩
  | early hfile hstop hp =>
    have hloads := restart_kept hfile hjournal htorn
    rw [hstop]
    simp only [World.Keeps, hp, Bool.false_eq_true, if_false]
    constructor
    · intro h
      exact hloads.1 (h.error (by simp)).2
    · intro h
      exact ⟨fun hx => ⟨hundone hx, hloads.2 h⟩, fun hx => by cases hx⟩
  | late hfile hstop hp =>
    have hloads := restart_written hfile hjournal htorn (d := w.memory) rfl
    rw [hstop]
    simp only [World.Keeps, hp, if_true]
    constructor
    · intro h
      exact hloads.1 (h.error (by simp)).2
    · intro h
      exact ⟨fun hx => ⟨hundone hx, hloads.2 h⟩, fun hx => by cases hx⟩

end AllOrNothing

theorem always_true {α : Type} (p : Act α) (w : World) (f : Nat → Answer) : Always Medium (fun _ _ _ => True) p w f := by
  induction p generalizing w f with
  | ret a => trivial
  | call c k ih => exact ⟨trivial, ih _ _ _⟩

/-- How a call of a mutator ends, whichever of its steps fail. -/
theorem World.mutate_spec (w : World) (ch : Change) (f : Nat → Answer) :
    (w.mutate ch f).1.journal = w.journal ∧ (w.mutate ch f).1.torn = w.torn ∧
      (w.mutate ch f).1.journalFailed = w.journalFailed ∧
      Written w (w.memory.change ch) (w.mutate ch f).1 (w.mutate ch f).2 ∧
      ((w.mutate ch f).2 = none → (w.mutate ch f).1.memory = w.memory.change ch) ∧
      ((w.mutate ch f).2 ≠ none → SameSnapshot (w.mutate ch f).1.memory w.memory) := by
  have hends := Sat.finish (f := f) (ends_mutate (w := { w with failed := none, collisions := 0 }) ch rfl rfl)
    (always_true _ _ _)
  obtain ⟨hjournal, htorn, hjf, hwritten, hdone, hundone⟩ := hends
  exact ⟨hjournal, htorn, hjf, hwritten.after rfl, hdone, hundone⟩

/-- For every state of the store, every mutator and whatever its steps answer:
the call is all or nothing exactly where the step it stopped at allows it. -/
theorem mutate_all_or_nothing (w : World) (ch : Change) (f : Nat → Answer) :
    AllOrNothing w ch (w.mutate ch f) ↔ w.Keeps ch (w.mutate ch f).1.stopped := by
  obtain ⟨hjournal, htorn, -, hwritten, -, hundone⟩ := w.mutate_spec ch f
  exact allOrNothing_iff hjournal htorn hwritten hundone

/-! ## Failing syncs -/

def World.init : World := ⟨emptySnapshot, none, ∅, [], false, false, none, 0⟩

/-- A sandbox that is being created. -/
def box : Sandbox :=
  { id := "box", generation := "0123456789abcdef0123456789abcdef", state := .allocating, error := none
    config := ⟨1, "box", [1], 0, "", "", ⟨0, 0, 0⟩, 0, 3, none, []⟩
    storage := none, createdAt := 1, updatedAt := 1 }

/-- The sync of the directory fails, and nothing else does. -/
def unsynced (n : Nat) : Answer := if n = 12 then { fails := some { text := "input/output error" } } else {}

/-- `SetSandbox` returns an error and the memory has no sandbox, but a restart
loads one. -/
theorem setSandbox_unsynced :
    (World.init.mutate (.setSandbox box) unsynced).1.stopped = some .syncDirectory ∧
      (World.init.mutate (.setSandbox box) unsynced).2 = some { text := "input/output error" } ∧
      (World.init.mutate (.setSandbox box) unsynced).1.memory.sandboxes.lookup "box" = none ∧
      ((World.init.mutate (.setSandbox box) unsynced).1.restart.bind fun d => d.sandboxes.lookup "box") = some box := by
  decide +kernel

/-! ## Runs -/

/-- The store with a write as one call. -/
def World.store (w : World) : Store := ⟨w.journal, w.journalFailed, w.torn, w.memory, w.stored.getD emptySnapshot⟩

/-- Every way a mutator can go is one of that store's. -/
theorem World.mutate_refines (w : World) (ch : Change) (f : Nat → Answer) :
    ∃ o, SameSnapshot (w.mutate ch f).1.store.data (w.store.persist (w.memory.change ch) o).1.data ∧
      (w.mutate ch f).1.store.disk = (w.store.persist (w.memory.change ch) o).1.disk ∧
      (w.mutate ch f).2 = (w.store.persist (w.memory.change ch) o).2 := by
  obtain ⟨-, -, -, hwritten, hdone, hundone⟩ := w.mutate_spec ch f
  generalize (w.mutate ch f).2 = r at hwritten hdone hundone
  cases hwritten with
  | done hfile =>
    refine ⟨.done, ?_, by simp only [World.store, World.stored, hfile]; rfl, rfl⟩
    rw [World.store, hdone rfl]
    exact ⟨rfl, fun _ => rfl, fun _ => rfl⟩
  | @early e _ hfile => exact ⟨.refused e, hundone (by simp), by simp only [World.store, World.stored, hfile]; rfl, rfl⟩
  | @late e _ hfile => exact ⟨.unsynced e, hundone (by simp), by simp only [World.store, World.stored, hfile]; rfl, rfl⟩

inductive Event where
  | mutate (ch : Change) (f : Nat → Answer)
  | append (e : JournalEntry) (now : Nat) (o : Write)
  | restart

def World.turn (w : World) : Event → World
  | .mutate ch f => (w.mutate ch f).1
  | .append e now o =>
    let s := (w.store.append e now o).1
    { w with journal := s.journal, journalFailed := s.journalFailed, torn := s.torn, memory := s.data }
  | .restart =>
    match w.restart with
    | some d => { w with memory := d, journalFailed := false }
    | none => w

/-- No step after a rename fails, and an append is done or refused. -/
def World.Plain (w : World) : Event → Prop
  | .mutate ch f => ∀ p, (w.mutate ch f).1.stopped = some p → p.late = false
  | .append _ _ o => o = .done ∨ ∃ e, o = .refused e
  | .restart => True

section Runs
variable {w : World}

theorem World.last_append (w : World) (e : JournalEntry) : ({ w with journal := w.journal ++ [e] } : World).last = e.sequence := by
  simp [World.last]

theorem World.Settled.append (hintact : w.Intact) (hsettled : w.Settled) {e : JournalEntry} {now : Nat} {o : Write}
    (ho : o = .done ∨ ∃ err, o = .refused err) : (w.turn (.append e now o)).Intact ∧ (w.turn (.append e now o)).Settled := by
  obtain ⟨d, hd, hle, hsandboxes, hresults⟩ := hsettled
  have hkept : w.Intact ∧ w.Settled := ⟨hintact, d, hd, hle, hsandboxes, hresults⟩
  simp only [World.turn, Store.append]
  split
  · exact hkept
  rcases ho with rfl | ⟨err, rfl⟩
  · dsimp only
    split
    · exact hkept
    · exact ⟨⟨hintact.1, World.last_append w _⟩, d, hd, Nat.le_succ_of_le hle, hsandboxes, hresults⟩
  · dsimp only
    split <;> exact hkept

theorem World.Settled.turn (hintact : w.Intact) (hsettled : w.Settled) {ev : Event} (hev : w.Plain ev) :
    (w.turn ev).Intact ∧ (w.turn ev).Settled := by
  cases ev with
  | append e now o => exact World.Settled.append hintact hsettled hev
  | restart =>
    obtain ⟨d, hd, hle, hsandboxes, hresults⟩ := hsettled
    have hrestart : w.restart = some { d with sequence := w.last } := by
      rw [World.restart, hd, Option.bind_some, if_neg (by simp [hintact.1, hintact.2, hle])]
    simp only [World.turn, hrestart]
    exact ⟨⟨hintact.1, rfl⟩, d, hd, hintact.2 ▸ hle, fun _ => rfl, fun _ => rfl⟩
  | mutate ch f =>
    obtain ⟨hjournal, htorn, -, hwritten, hdone, hundone⟩ := w.mutate_spec ch f
    have hlast : (w.mutate ch f).1.last = w.last := by rw [World.last, hjournal]; rfl
    simp only [World.turn]
    generalize hr : (w.mutate ch f).2 = r at hwritten hdone hundone
    cases hwritten with
    | done hfile hgoing =>
      have hmemory := hdone rfl
      have hsequence := change_sequence w.memory ch
      refine ⟨⟨htorn.trans hintact.1, ?_⟩, w.memory.change ch, by rw [World.stored, hfile], ?_, ?_, ?_⟩
      · rw [hlast, hmemory, hsequence]
        exact hintact.2
      · rw [hmemory]
      · simp [hmemory]
      · simp [hmemory]
    | early hfile hstop hp =>
      obtain ⟨hsequence, hsandboxes, hresults⟩ := hundone (by simp)
      obtain ⟨d, hd, hle, hs, hres⟩ := hsettled
      refine ⟨⟨htorn.trans hintact.1, ?_⟩, d, ?_, ?_, ?_, ?_⟩
      · rw [hlast, hsequence]
        exact hintact.2
      · rw [World.stored, hfile]
        exact hd
      · rw [hsequence]
        exact hle
      · exact fun id => (hs id).trans (hsandboxes id).symm
      · exact fun key => (hres key).trans (hresults key).symm
    | late hfile hstop hp =>
      rw [hev _ hstop] at hp
      cases hp

/-- While no step after a rename fails and the journal works, every call of a
mutator is all or nothing. -/
theorem mutate_run {es : List Event} (hes : Conforms World.turn World.Plain .init es) (ch : Change) (f : Nat → Answer)
    (hf : World.Plain (run World.turn .init es) (.mutate ch f)) :
    AllOrNothing (run World.turn .init es) ch ((run World.turn .init es).mutate ch f) := by
  have hinv : (run World.turn .init es).Intact ∧ (run World.turn .init es).Settled :=
    hes.inv (J := fun w => w.Intact ∧ w.Settled)
      ⟨⟨rfl, rfl⟩, emptySnapshot, rfl, Nat.le_refl _, fun _ => rfl, fun _ => rfl⟩ fun w ev hw hev => hw.2.turn hw.1 hev
  obtain ⟨hjournal, htorn, -, hwritten, -, hundone⟩ := (run World.turn .init es).mutate_spec ch f
  refine (allOrNothing_iff hjournal htorn hwritten hundone).2 ?_
  cases hstop : ((run World.turn .init es).mutate ch f).1.stopped with
  | none => exact hinv.1
  | some p =>
    refine ⟨hinv.1, ?_⟩
    rw [hf p hstop]
    exact hinv.2

end Runs

/-- The rename fails, and nothing else does. -/
def unrenamed (n : Nat) : Answer := if n = 11 then { fails := some { text := "input/output error" } } else {}

/-- A sandbox is written, its removal fails at the rename, an intent is
journalled, and the daemon restarts. -/
def restarted : List Event :=
  [.mutate (.setSandbox box) fun _ => {}, .mutate (.removeSandbox "box") unrenamed,
    .append
      { operationID := "op", idempotencyKey := "key", fingerprint := .target .loadSandbox "box" box.generation, sandboxID := "box"
        generation := box.generation, method := .loadSandbox, phase := .intent, state := .allocating, sandbox := none } 5 .done,
    .restart]

theorem plain_of_stopped {w : World} {ch : Change} {f : Nat → Answer} (h : (w.mutate ch f).1.stopped.all (!·.late)) :
    w.Plain (.mutate ch f) :=
  fun p hp => by simpa [hp] using h

theorem mutate_run_restarted :
    (run World.turn .init restarted).memory.sequence = 1 ∧ (run World.turn .init restarted).memory.sandboxes.keys = ["box"] ∧
      AllOrNothing (run World.turn .init restarted) (.setSandbox { box with state := .created })
        ((run World.turn .init restarted).mutate (.setSandbox { box with state := .created }) fun _ => {}) := by
  have hes : Conforms World.turn World.Plain .init restarted :=
    ⟨plain_of_stopped (by decide +kernel), plain_of_stopped (by decide +kernel), .inl rfl, trivial, trivial⟩
  exact ⟨by decide +kernel, by decide +kernel, mutate_run hes _ _ (plain_of_stopped (by decide +kernel))⟩

end Multikernel.Durable
