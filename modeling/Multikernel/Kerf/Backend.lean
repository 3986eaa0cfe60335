import Multikernel.Protocol
import Mathlib.Data.List.Sort
/-!
# The Kerf backend

`kerf.Backend` and `kerf.InventoryBackend` of `runtime/internal/kerf/kerf.go`:
the calls, and the kernel instances and the resource pool behind them. A call
that succeeds has its effect; a call that fails has none unless the
environment says so (`state`), and an instance may have changed by itself by
the time it is observed (`state` again).
-/

namespace Multikernel

/-- An open file. -/
abbrev File := Nat

/-- `kerf.LoadFiles`. -/
structure LoadFiles where
  runtimeDir : Option File := none
  initramfs : Option File := none
  kernel : Option File := none
  deriving DecidableEq, Repr

/-- The calls on one instance. -/
inductive KerfOp where
  | create
  | load (kernel initrd cmdline : String) (files : LoadFiles)
  | start
  | stop
  | delete
  deriving DecidableEq, Repr

inductive KerfCall where
  | ensurePool
  | releasePool
  | act (op : KerfOp) (sb : Sandbox)
  | observe (id : String)
  | listInstances

def KerfCall.Reply : KerfCall → Type
  | .ensurePool => Option Err
  | .releasePool => Option Err
  | .act _ _ => Option Err
  | .observe _ => Except Err State
  | .listInstances => Except Err (List String)

/-- The instances that are not absent, those whose last successful start no
successful stop followed, and whether the pool is there: a successful
`EnsurePool` and no successful `ReleasePool` since. -/
structure Kernel where
  inst : Table State
  started : List String
  pool : Bool

namespace Kernel

def empty : Kernel := ⟨∅, [], false⟩

def state (k : Kernel) (id : String) : State := (k.inst.lookup id).getD .absent

def setState (k : Kernel) (id : String) (s : State) : Kernel :=
  { k with inst := if s = .absent then k.inst.erase id else k.inst.insert id s }

/-- The state an operation leaves an instance in. -/
def after : KerfOp → State
  | .create => .created
  | .load _ _ _ _ => .loaded
  | .start => .running
  | .stop => .loaded
  | .delete => .absent

def startedAfter (k : Kernel) (id : String) : KerfOp → List String
  | .start => id :: k.started
  | .load _ _ _ _ => k.started
  | _ => k.started.filter (· ≠ id)

/-- One call: `err` says whether it fails, `state` overrides the state of the
instance it names, `instances` the inventory. -/
def call (k : Kernel) (err : Option Err) (state : Option State) (instances : Option (List String)) :
    (c : KerfCall) → Kernel × c.Reply
  | .ensurePool => (if err = none then { k with pool := true } else k, err)
  | .releasePool => (if err = none then { k with pool := false } else k, err)
  | .act op sb =>
    match err with
    | none => (({ k with started := k.startedAfter sb.id op } : Kernel).setState sb.id (state.getD (after op)), none)
    | some e => (k.setState sb.id (state.getD (k.state sb.id)), some e)
  | .observe id =>
    let k := k.setState id (state.getD (k.state id))
    (k, match err with
      | none => .ok (k.state id)
      | some e => .error e)
  | .listInstances =>
    (k, match err with
      | none => .ok (instances.getD (k.inst.keys.insertionSort (· ≤ ·)))
      | some e => .error e)

@[simp] theorem state_setState (k : Kernel) (id : String) (s : State) : (k.setState id s).state id = s := by
  unfold setState state
  split
  · simp [*]
  · simp

theorem state_setState_ne (k : Kernel) {id id' : String} (s : State) (h : id' ≠ id) :
    (k.setState id s).state id' = k.state id' := by
  unfold setState state
  split
  · simp [AList.lookup_erase_ne h]
  · simp [AList.lookup_insert_ne h]

end Kernel

end Multikernel
