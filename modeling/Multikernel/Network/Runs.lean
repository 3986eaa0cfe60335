import Multikernel.Lib.Runs
import Multikernel.Network.Service
/-!
# Runs of the network daemon

Requests served one after another, and restarts. The answers of a turn may end
before its program does: then the daemon died there, and what it had in memory
is lost. A daemon that cannot open its store or reconcile does not serve.

`Through J` is the logic of a turn: its program goes only through worlds with
`J`, and what it returns and leaves is as stated.
-/

namespace Multikernel.Network
open Lib

inductive Request where
  | add (e : Endpoint)
  | check (e : Endpoint)
  | delete (e : Endpoint)
  | bind (e : Endpoint)
  | provision (e : Endpoint)
  | release (e : Endpoint)
  | unbind (e : Endpoint)
  | report (e : Endpoint)
  deriving DecidableEq

/-- What a request is answered with. -/
abbrev Response := Except APIError (Option Endpoint)

def ofEndpoint (r : Except APIError Endpoint) : Response := r.map some

def ofStatus : Option APIError → Response
  | none => .ok none
  | some e => .error e

/-- `Dispatch`. -/
def Request.program (s : Service) : Request → Act Response
  | .add e => return ofEndpoint (← s.add e)
  | .check e => return ofEndpoint (← Network.check e)
  | .delete e => return ofStatus (← s.delete e)
  | .bind e => return ofEndpoint (← Network.bind e)
  | .provision e => return ofEndpoint (← s.provision e)
  | .release e => return ofStatus (← s.release e)
  | .unbind e => return ofStatus (← Network.unbind e)
  | .report e => return ofStatus (← Network.report e)

inductive Op where
  | request (r : Request)
  | boot (f : Flags)

structure Turn where
  op : Op
  answers : List Answer

/-- The host and the service that serves on it, if one does. -/
structure Daemon where
  world : World
  service : Option Service

def Daemon.init : Daemon := ⟨.init, none⟩

def Daemon.turn (d : Daemon) (t : Turn) : Daemon :=
  match t.op, d.service with
  | .boot f, _ =>
    let r := exec Net (boot f) d.world t.answers
    ⟨r.1, r.2.bind Except.toOption⟩
  | .request _, none => d
  | .request r, some s =>
    let x := exec Net (r.program s) d.world t.answers
    ⟨x.1, x.2.map fun _ => s⟩

/-- The turn is a request that is answered with success. -/
def Daemon.acknowledges (d : Daemon) (t : Turn) : Bool :=
  match t.op, d.service with
  | .request r, some s =>
    match (exec Net (r.program s) d.world t.answers).2 with
    | some (.ok _) => true
    | _ => false
  | _, _ => false

/-- The state after a run from an empty host. -/
def Daemon.after (ts : List Turn) : Daemon := run Daemon.turn .init ts

/-! ## Runs on fixed inputs -/

/-- A working environment for one turn; its random values start at `100 * n`. -/
def working (n : Nat) : List Answer := (List.range 30).map fun i => { entropy := 100 * n + i }

/-- A container's interface in the namespace of process `n`. -/
def sampleEndpoint (n : Nat) : Endpoint :=
  { containerID := "c" ++ toString n, networkName := "pods", ifName := "eth0", netNS := "/proc/" ++ toString n ++ "/ns/net" }

def sampleGeneration : String := "0123456789abcdef0123456789abcdef"

/-- The endpoint of `sampleEndpoint n`, and a sandbox for it. -/
def sampleBinding (n : Nat) (sandboxID : String) : Endpoint :=
  { netNS := "/proc/" ++ toString n ++ "/ns/net", sandboxID, sandboxGeneration := sampleGeneration }

def booted : Turn := ⟨.boot {}, working 0⟩

def served (n : Nat) (r : Request) : Turn := ⟨.request r, working n⟩

/-! ## Records -/

section Records
variable {x : Endpoints} {e e' : Endpoint} {k k' : String × String × String}

theorem Endpoints.mem_values : e ∈ x.values ↔ ∃ k, x.lookup k = some e := by
  simp only [Endpoints.values, List.mem_map, Sigma.exists]
  constructor
  · rintro ⟨k, e, h, rfl⟩
    exact ⟨k, AList.mem_lookup_iff.2 h⟩
  · rintro ⟨k, h⟩
    exact ⟨k, e, AList.mem_lookup_iff.1 h, rfl⟩

theorem Endpoints.insert_cases (h : (x.insert k e).lookup k' = some e') : (k' = k ∧ e' = e) ∨ x.lookup k' = some e' := by
  by_cases hk : k' = k
  · subst hk
    rw [AList.lookup_insert, Option.some.injEq] at h
    exact .inl ⟨rfl, h.symm⟩
  · rw [AList.lookup_insert_ne hk] at h
    exact .inr h

theorem Endpoints.erase_cases (h : (x.erase k).lookup k' = some e') : k' ≠ k ∧ x.lookup k' = some e' := by
  by_cases hk : k' = k
  · subst hk
    rw [AList.lookup_erase] at h
    cases h
  · rw [AList.lookup_erase_ne hk] at h
    exact ⟨hk, h⟩

end Records

/-! ## The logic of a turn -/

abbrev Through {α : Type} (J : World → Prop) (p : Act α) (w : World) (Q : α → World → Prop) : Prop :=
  Sat (Net.trans fun _ _ _ => True) (fun w _ => J w) p w Q

/-- What a write of `next` leaves, and its reply. -/
inductive Persists (w : World) (next : Endpoints) : World → Option Err → Prop where
  | done {w' : World} (h : w'.store = ⟨next, next⟩) : Persists w next w' none
  | failed {w' : World} {e : Err} (hdata : w'.store.data = w.store.data)
      (hfile : w'.store.file = w.store.file ∨ w'.store.file = next) : Persists w next w' (some e)

theorem persists {w w' : World} {next : Endpoints} {p : Persist} (h : w'.store = (w.store.persist next p).1) :
    Persists w next w' (w.store.persist next p).2 := by
  cases p with
  | done => exact .done h
  | failed e => exact .failed (by rw [h]; rfl) (.inl (by rw [h]; rfl))
  | unsynced e => exact .failed (by rw [h]; rfl) (.inr (by rw [h]; rfl))

theorem persists_put {e : Endpoint} (h : validateStoredEndpoint e.key e = none) (w : World) (a : Answer) :
    Persists w (w.store.data.insert e.key e) (storeStep w a (.put e)).1 (storeStep w a (.put e)).2 := by
  have hput : w.store.put e a.persist = w.store.persist (w.store.data.insert e.key e) a.persist := by
    rw [Store.put, h]
  change Persists w _ _ (w.store.put e a.persist).2
  rw [hput]
  exact persists (congrArg Prod.fst hput)

/-- A record that fails its check is not written. -/
theorem put_refused {e : Endpoint} {text : String} (h : validateStoredEndpoint e.key e = some text) (w : World)
    (a : Answer) : storeStep w a (.put e) = (w, some { text }) := by
  have hput : w.store.put e a.persist = (w.store, some { text }) := by rw [Store.put, h]
  simp only [storeStep, hput]
  rfl

section Rules
variable {α : Type} {J : World → Prop} {w : World} {Q : α → World → Prop}

theorem through_perform {c : Call} {f : c.Reply → Act α} (hw : J w)
    (h : ∀ a, Through J (f (step w c a).2) (step w c a).1 Q) : Through J (perform c >>= f) w Q := by
  refine ⟨hw, fun r w' hr => ?_⟩
  obtain ⟨a, -, hr⟩ := hr
  change step w c a = (w', r) at hr
  have hstep := h a
  rw [hr] at hstep
  exact hstep

/-- A call that leaves the world as it was. -/
theorem through_still {c : Call} {f : c.Reply → Act α} (hc : ∀ a, (step w c a).1 = w) (hw : J w)
    (h : ∀ r, Through J (f r) w Q) : Through J (perform c >>= f) w Q := by
  refine through_perform hw fun a => ?_
  rw [hc a]
  exact h _

theorem through_backend {c : BackendCall} {f : c.Reply → Act α} (hw : J w) (h : ∀ r, Through J (f r) w Q) :
    Through J (perform (.backend c) >>= f) w Q :=
  through_still (fun _ => rfl) hw h

theorem through_now {f : Nat → Act α} (hw : J w) (h : ∀ t, Through J (f t) w Q) : Through J (now >>= f) w Q :=
  through_still (fun _ => rfl) hw h

theorem through_list {f : List Endpoint → Act α} (hw : J w)
    (h : ∀ es, es.Perm w.store.data.values → Through J (f es) w Q) : Through J (store.list >>= f) w Q :=
  through_perform hw fun a => h _ (a.order_perm _)

theorem through_get {networkName containerID ifName : String} {f : Option Endpoint → Act α} (hw : J w)
    (h : Through J (f (w.store.data.lookup (endpointKey networkName containerID ifName))) w Q) :
    Through J (store.get networkName containerID ifName >>= f) w Q :=
  through_perform hw fun _ => h

theorem through_put {e : Endpoint} {f : Option Err → Act α} (hw : J w)
    (hrefused : ∀ err, Through J (f (some err)) w Q)
    (hput : validateStoredEndpoint e.key e = none → ∀ w' r, Persists w (w.store.data.insert e.key e) w' r →
      Through J (f r) w' Q) :
    Through J (store.put e >>= f) w Q := by
  refine through_perform hw fun a => ?_
  change Through J (f (storeStep w a (.put e)).2) (storeStep w a (.put e)).1 Q
  cases hv : validateStoredEndpoint e.key e with
  | some text =>
    rw [put_refused hv]
    exact hrefused _
  | none => exact hput hv _ _ (persists_put hv w a)

theorem through_delete {networkName containerID ifName : String} {f : Option Err → Act α} (hw : J w)
    (h : ∀ w' r, Persists w (w.store.data.erase (endpointKey networkName containerID ifName)) w' r →
      Through J (f r) w' Q) :
    Through J (store.delete networkName containerID ifName >>= f) w Q :=
  through_perform hw fun _ => h _ _ (persists rfl)

theorem through_withLock {m : Mutex} {p : Act α} (hw : J w) (h : Through J p w fun a w' => J w' ∧ Q a w') :
    Through J (withLock m p) w Q := by
  refine through_still (fun _ => rfl) hw fun _ => h.bind fun a w' hq => ?_
  exact through_still (fun _ => rfl) hq.1 fun _ => hq.2

end Rules

end Multikernel.Network
