import Multikernel.Lib.Logic
import Multikernel.Lib.Runs
import Multikernel.Lifecycle.Reconcile
/-!
# Runs of the daemon

A run is a sequence of turns: a request, a restart, or a graceful shutdown,
each with what the environment answers. The answers of a turn may end before
its program does: then the daemon died there. A restart loses what was in
memory, reopens the stores and boots; a daemon that cannot reconcile does not
serve. Requests are served one after another.
-/

namespace Multikernel
open Lib
variable {d : Daemon} {ts : List Turn} {w : World}

inductive Request where
  | create (c : SandboxConfig) (key : String)
  | load (id gen key : String)
  | start (id gen key : String)
  | stop (id gen key : String)
  | delete (id gen key : String)
  | cancelCreate (c : SandboxConfig) (key : String)
  deriving DecidableEq

/-- The sandbox and generation of a request on an existing sandbox. -/
def Request.target : Request → Option (String × String)
  | .load id gen _ | .start id gen _ | .stop id gen _ | .delete id gen _ => some (id, gen)
  | .create _ _ | .cancelCreate _ _ => none

def Request.key : Request → String
  | .create _ key | .load _ _ key | .start _ _ key | .stop _ _ key | .delete _ _ key | .cancelCreate _ key => key

def Request.fingerprint : Request → Fingerprint
  | .create c _ | .cancelCreate c _ => .create c
  | .load id gen _ => .target .loadSandbox id gen
  | .start id gen _ => .target .startSandbox id gen
  | .stop id gen _ => .target .stopSandbox id gen
  | .delete id gen _ => .target .deleteSandbox id gen

inductive Op where
  | request (r : Request)
  | boot
  | shutdown
  deriving DecidableEq

/-- What a finished operation returns. -/
inductive Outcome where
  | response (r : Response)
  | cancelled (e : Option Error)
  | ended (e : Option Err)

def Request.program (s : Service) : Request → Act Outcome
  | .create c key => return .response (← s.create c key)
  | .load id gen key => return .response (← s.load id gen key)
  | .start id gen key => return .response (← Service.start id gen key)
  | .stop id gen key => return .response (← Service.stop id gen key)
  | .delete id gen key => return .response (← s.delete id gen key)
  | .cancelCreate c key => return .cancelled (← s.cancelCreate .request c key)

def Op.program (s : Service) : Op → Act Outcome
  | .request r => r.program s
  | .boot => return .ended (← s.boot)
  | .shutdown => return .ended (← Service.releaseIdlePool)

structure Turn where
  op : Op
  answers : List Answer

/-- The host and whether a daemon serves on it. -/
structure Daemon where
  world : World
  up : Bool

def Daemon.init : Daemon := ⟨.init, false⟩

/-- The world an operation starts in: its context is fresh and it has observed
nothing yet. -/
def World.fresh (w : World) : World := { w with ctx := none, observed := ∅ }

/-- A new process over the store as it was found on disk. -/
def World.reopened (w : World) (store : Store) : World := { w.fresh with store, poolReady := false }

/-- Where an operation starts, if it does: a request needs a daemon that
serves, a new daemon a store that opens. -/
def Daemon.begin (d : Daemon) : Op → Option World
  | .boot => d.world.store.reopen.map d.world.reopened
  | _ => if d.up then some d.world.fresh else none

/-- Whether the daemon serves after an operation. -/
def Op.serves : Op → Option Outcome → Bool
  | .request _, r => r.isSome
  | .boot, some (.ended none) => true
  | _, _ => false

def Service.turn (s : Service) (d : Daemon) (t : Turn) : Daemon :=
  match d.begin t.op with
  | none => ⟨d.world, false⟩
  | some w =>
    let r := exec Host (t.op.program s) w t.answers
    ⟨r.1, t.op.serves r.2⟩

/-- What a turn returns, if it ends. -/
def Service.outcome (s : Service) (d : Daemon) (t : Turn) : Option Outcome :=
  (d.begin t.op).bind fun w => (exec Host (t.op.program s) w t.answers).2

/-- The turn is a request that is answered with success. -/
def Service.acknowledges (s : Service) (d : Daemon) (t : Turn) : Bool :=
  match s.outcome d t with
  | some (.response (.ok _)) => true
  | _ => false

theorem Service.outcome_of_acknowledges {s : Service} {t : Turn} (h : s.acknowledges d t) :
    ∃ x, s.outcome d t = some (.response (.ok x)) := by
  unfold Service.acknowledges at h
  split at h
  · exact ⟨_, by assumption⟩
  · cases h

/-- The calls of a turn, each with the world it is made in. -/
def Service.turnCalls (s : Service) (d : Daemon) (t : Turn) : List (World × Call) :=
  match d.begin t.op with
  | none => []
  | some w => calls Host (t.op.program s) w t.answers

/-- The calls of a run, each with the operation that makes it. -/
def Service.runCalls (s : Service) : Daemon → List Turn → List (Op × World × Call)
  | _, [] => []
  | d, t :: ts => (s.turnCalls d t).map (fun x => (t.op, x)) ++ Service.runCalls s (s.turn d t) ts

/-- The state after a run from an empty host. -/
def Service.after (s : Service) (ts : List Turn) : Daemon := run s.turn .init ts

/-- Every operation of a run from `d` met `K` where it started. -/
def Service.ConformingFrom (s : Service) (K : World → Op → List Answer → Prop) (d : Daemon) (ts : List Turn) : Prop :=
  Conforms s.turn (fun d t => ∀ w, d.begin t.op = some w → K w t.op t.answers) d ts

abbrev Service.Conforming (s : Service) (K : World → Op → List Answer → Prop) (ts : List Turn) : Prop :=
  s.ConformingFrom K .init ts

/-! ## Runs on fixed inputs -/

/-- Every operation of the run passes the check `b` where it starts. -/
def Service.checks (s : Service) (b : World → Op → List Answer → Bool) : Daemon → List Turn → Bool
  | _, [] => true
  | d, t :: ts => (d.begin t.op).all (fun w => b w t.op t.answers) && Service.checks s b (s.turn d t) ts

theorem Service.conforming_of_checks {s : Service} {K : World → Op → List Answer → Prop}
    {b : World → Op → List Answer → Bool} (hK : ∀ w op as, b w op as → K w op as) (h : s.checks b d ts)
    : s.ConformingFrom K d ts := by
  induction ts generalizing d with
  | nil => trivial
  | cons t ts ih =>
    simp only [Service.checks, Bool.and_eq_true] at h
    exact ⟨fun w hw => hK w _ _ (by simpa [hw] using h.1), ih h.2⟩

/-- A working environment for one turn; its random values start at `100 * n`. -/
def working (n : Nat) : List Answer := (List.range 60).map fun i => { entropy := 100 * n + i }

/-- The same, but call `k` meets `a`. -/
def except (n k : Nat) (a : Answer) : List Answer := (working n).set k { a with entropy := 100 * n + k }

def diskFull : Answer := { write := .refused { text := "no space left on device" } }

def syncFailed : Answer := { write := .unsynced { text := "input/output error" } }

/-- A valid configuration on CPU `n`, with a port, CID and bundle of its own. -/
def sampleConfig (id : String) (n : Nat) : SandboxConfig :=
  { schemaVersion := 1, id, cpus := [n], memoryBytes := 512 * 2 ^ 20, kernelManifest := "k",
    bundle := "/" ++ toString n, bundleIdentity := ⟨1, 1, 0⟩, agentPort := 2000 + n.toUInt32, childCID := 3 + n.toUInt32,
    storage := none, labels := [] }

/-- A delete returns without an error but leaves the instance, as the
observation after it shows; then the daemon shuts down. -/
def deletedUnconfirmed : List Turn :=
  [⟨.boot, working 0⟩, ⟨.request (.create (sampleConfig "a" 1) "k1"), working 1⟩,
    ⟨.request (.delete "a" (hexGeneration 105) "k2"), except 2 11 { state := some .created }⟩, ⟨.shutdown, working 3⟩]

/-! ## Invariants of runs -/

theorem step_keyed (h : w.store.Keyed) (c : Call) (a : Answer) : (step w c a).1.store.Keyed := by
  cases c with
  | store c => exact h.call a.time a.write a.err c
  | env c => cases c <;> exact h
  | _ => exact h

theorem exec_keyed {α : Type} (p : Act α) (h : w.store.Keyed) (as : List Answer) : (exec Host p w as).1.store.Keyed :=
  exec_inv Host (J := fun w => w.store.Keyed) (fun _ c a h => step_keyed h c a) p h as

section Invariants
variable {s : Service} {K : World → Op → List Answer → Prop} {J : World → Prop}

theorem begin_inv {op : Op} (hfresh : ∀ w : World, J w → J w.fresh)
    (hopen : ∀ (w : World) (st : Store), J w → w.store.reopen = some st → J (w.reopened st)) (hd : J d.world)
    (hw : d.begin op = some w) : J w := by
  cases op with
  | boot =>
    obtain ⟨st, hst, rfl⟩ := Option.map_eq_some_iff.1 hw
    exact hopen _ _ hd hst
  | request | shutdown =>
    simp only [Daemon.begin, Option.ite_none_right_eq_some, Option.some.injEq] at hw
    exact hw.2 ▸ hfresh _ hd

/-- An operation starts without observations. -/
theorem begin_observed {op : Op} (hw : d.begin op = some w) : w.observed = ∅ := by
  cases op with
  | boot =>
    obtain ⟨st, -, rfl⟩ := Option.map_eq_some_iff.1 hw
    rfl
  | request | shutdown =>
    obtain ⟨-, hw⟩ := Option.ite_none_right_eq_some.1 hw
    exact Option.some.inj hw ▸ rfl

theorem Service.ConformingFrom.observed (h : s.ConformingFrom K d ts) :
    s.ConformingFrom (fun w op as => K w op as ∧ w.observed = ∅) d ts := by
  induction ts generalizing d with
  | nil => trivial
  | cons t ts ih => exact ⟨fun w hw => ⟨h.1 w hw, begin_observed hw⟩, ih h.2⟩

/-- What the operations that meet `K` keep, wherever they stop, holds after
every conforming run. -/
theorem Service.ConformingFrom.inv (h : s.ConformingFrom K d ts) (hd : J d.world)
    (hfresh : ∀ w : World, J w → J w.fresh)
    (hopen : ∀ (w : World) (st : Store), J w → w.store.reopen = some st → J (w.reopened st))
    (hop : ∀ w op as, J w → K w op as → J (exec Host (op.program s) w as).1) : J (run s.turn d ts).world := by
  refine Conforms.inv (J := fun d => J d.world) h hd fun d t hd hK => ?_
  unfold Service.turn
  cases hw : d.begin t.op with
  | none => exact hd
  | some w => exact hop w t.op t.answers (begin_inv hfresh hopen hd hw) (hK w hw)

/-- What the calls of the operations that meet `K` satisfy, the calls of every
conforming run satisfy. -/
theorem Service.ConformingFrom.calls {P : Op → World → Call → Prop} (h : s.ConformingFrom K d ts) (hd : J d.world)
    (hfresh : ∀ w : World, J w → J w.fresh)
    (hopen : ∀ (w : World) (st : Store), J w → w.store.reopen = some st → J (w.reopened st))
    (hop : ∀ w op as, J w → K w op as → J (exec Host (op.program s) w as).1)
    (hcalls : ∀ w op as, J w → K w op as → ∀ x ∈ Lib.calls Host (op.program s) w as, P op x.1 x.2) :
    ∀ x ∈ s.runCalls d ts, P x.1 x.2.1 x.2.2 := by
  induction ts generalizing d with
  | nil => intro x hx; cases hx
  | cons t ts ih =>
    intro x hx
    rcases List.mem_append.1 hx with hx | hx
    · -- A call of the first turn, if it began.
      obtain ⟨y, hy, rfl⟩ := List.mem_map.1 hx
      unfold Service.turnCalls at hy
      cases hw : d.begin t.op with
      | none => simp [hw] at hy
      | some w =>
        rw [hw] at hy
        exact hcalls w t.op t.answers (begin_inv hfresh hopen hd hw) (h.1 w hw) y hy
    · refine ih h.2 ?_ x hx
      unfold Service.turn
      cases hw : d.begin t.op with
      | none => exact hd
      | some w => exact hop w t.op t.answers (begin_inv hfresh hopen hd hw) (h.1 w hw)

/-- What every call keeps holds after every run. -/
theorem Service.run_inv (s : Service) (ts : List Turn) (hd : J d.world) (hfresh : ∀ w : World, J w → J w.fresh)
    (hopen : ∀ (w : World) (st : Store), J w → w.store.reopen = some st → J (w.reopened st))
    (hstep : ∀ w c a, J w → J (step w c a).1) : J (run s.turn d ts).world :=
  Service.ConformingFrom.inv (K := fun _ _ _ => True) (conforms_of_forall (fun _ _ _ _ => trivial) d ts) hd hfresh hopen
    fun _ op as hw _ => exec_inv Host hstep (op.program s) hw as

end Invariants

theorem Service.after_keyed (s : Service) (ts : List Turn) : (s.after ts).world.store.Keyed :=
  s.run_inv (J := fun w => w.store.Keyed) ts Store.keyed_empty (fun _ h => h) (fun _ _ h hst => h.reopen hst)
    fun _ c a h => step_keyed h c a

end Multikernel
