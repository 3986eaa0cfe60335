import Multikernel.Lib.Logic
import Multikernel.Network.Endpoint
/-!
# The network daemon's host

What the service of `mknetd` reaches from its code: its store
(`runtime/internal/network/store.go`), the backend that owns namespaces, links
and firewall rules, the two mutexes, the clock and the random source. The
backend answers any call with success or an error. `List` returns the records
in the order of a map iteration, which the environment chooses.
-/

namespace Multikernel.Network
open Lib

/-! ## The store -/

abbrev Endpoints := AList fun _ : String × String × String => Endpoint

def Endpoints.values (x : Endpoints) : List Endpoint := x.entries.map (·.2)

/-- The map in memory and the last `state.json` written. -/
structure Store where
  data : Endpoints
  file : Endpoints

/-- How `persistLocked` ends. -/
inductive Persist where
  | done
  /-- The file is left as it was. -/
  | failed (e : Err)
  /-- The file is replaced, the sync of its directory fails. -/
  | unsynced (e : Err)

/-- Write `next`; the map in memory goes back where that fails. -/
def Store.persist (st : Store) (next : Endpoints) : Persist → Store × Option Err
  | .done => (⟨next, next⟩, none)
  | .failed e => (st, some e)
  | .unsynced e => (⟨st.data, next⟩, some e)

def Store.put (st : Store) (e : Endpoint) (p : Persist) : Store × Option Err :=
  match validateStoredEndpoint e.key e with
  | some text => (st, some { text })
  | none => st.persist (st.data.insert e.key e) p

def Store.delete (st : Store) (key : String × String × String) (p : Persist) : Store × Option Err :=
  st.persist (st.data.erase key) p

/-- `OpenStore`: every record of the file must pass its check. -/
def Store.open (st : Store) (unreadable : Option Err) : Store × Option Err :=
  match unreadable with
  | some e => (st, some (e.wrap "read mknetd state"))
  | none =>
    match st.file.entries.findSome? fun x => validateStoredEndpoint x.1 x.2 with
    | some text => (st, some { text := "invalid durable endpoint: " ++ text })
    | none => (⟨st.file, st.file⟩, none)

/-! ## Calls -/

inductive Mutex where
  | mu | orchestrate
  deriving DecidableEq, Repr

inductive StoreCall where
  | openStore
  | get (key : String × String × String)
  | list
  | put (e : Endpoint)
  | delete (key : String × String × String)
  deriving DecidableEq

def StoreCall.Reply : StoreCall → Type
  | .openStore | .put _ | .delete _ => Option Err
  | .get _ => Option Endpoint
  | .list => List Endpoint

inductive BackendCall where
  | add (e : Endpoint)
  | check (e : Endpoint)
  | delete (e : Endpoint)
  | createNamespace (generation : String)
  | deleteNamespace (path : String)
  deriving DecidableEq

def BackendCall.Reply : BackendCall → Type
  | .add _ | .check _ | .delete _ | .deleteNamespace _ => Option Err
  | .createNamespace _ => Except Err String

inductive Call where
  | lock (m : Mutex)
  | unlock (m : Mutex)
  | store (c : StoreCall)
  | backend (c : BackendCall)
  | bootID
  | generation
  | now
  deriving DecidableEq

def Call.Reply : Call → Type
  | .lock _ | .unlock _ => Unit
  | .store c => c.Reply
  | .backend c => c.Reply
  | .bootID | .generation => Except Err String
  | .now => Nat

/-- What the environment decides in a call; by default it works. -/
structure Answer where
  err : Option Err := none
  persist : Persist := .done
  shuffle : List Endpoint → List Endpoint := id
  created : Option String := none
  bootID : String := "00000000-0000-0000-0000-000000000001"
  entropy : Nat := 0
  time : Nat := 1

/-- `recorded` is a history variable: the generations the store has held. -/
structure World where
  store : Store
  recorded : List String

def World.init : World := ⟨⟨∅, ∅⟩, []⟩

/-- The records in an order of the environment's choice. -/
def Answer.order (a : Answer) (es : List Endpoint) : List Endpoint :=
  if (a.shuffle es).Perm es then a.shuffle es else es

theorem Answer.order_perm (a : Answer) (es : List Endpoint) : (a.order es).Perm es := by
  unfold Answer.order
  split
  · assumption
  · exact .refl es

def Answer.drawn (a : Answer) (v : String) : Except Err String :=
  match a.err with
  | none => .ok v
  | some e => .error e

def storeStep (w : World) (a : Answer) : (c : StoreCall) → World × c.Reply
  | .openStore =>
    let r := w.store.open a.err
    ({ w with store := r.1 }, r.2)
  | .get key => (w, w.store.data.lookup key)
  | .list => (w, a.order w.store.data.values)
  | .put e =>
    let r := w.store.put e a.persist
    (⟨r.1, if r.2 = none then w.recorded.insert e.generation else w.recorded⟩, r.2)
  | .delete key =>
    let r := w.store.delete key a.persist
    ({ w with store := r.1 }, r.2)

def backendReply (a : Answer) : (c : BackendCall) → c.Reply
  | .add _ | .check _ | .delete _ | .deleteNamespace _ => a.err
  | .createNamespace generation => a.drawn (a.created.getD (managedNamespacePath generation))

def step (w : World) (c : Call) (a : Answer) : World × c.Reply :=
  match c with
  | .lock _ | .unlock _ => (w, ())
  | .store c => storeStep w a c
  | .backend c => (w, backendReply a c)
  | .bootID => (w, a.drawn a.bootID)
  | .generation => (w, a.drawn (hexGeneration a.entropy))
  | .now => (w, a.time)

abbrev NetI : Interface := ⟨Call, Call.Reply⟩

abbrev Net : Machine NetI := ⟨World, Answer, step⟩

/-- A program of the network daemon. -/
abbrev Act := Prog NetI

def perform (c : Call) : Act c.Reply := Prog.perform (I := NetI) c

def withLock {α : Type} (m : Mutex) (p : Act α) : Act α := do
  perform (.lock m)
  let r ← p
  perform (.unlock m)
  return r

def generation : Act (Except Err String) := perform .generation

def now : Act Nat := perform .now

def bootID : Act (Except Err String) := perform .bootID

namespace store

def openStore : Act (Option Err) := perform (.store .openStore)

def get (networkName containerID ifName : String) : Act (Option Endpoint) :=
  perform (.store (.get (endpointKey networkName containerID ifName)))

def list : Act (List Endpoint) := perform (.store .list)

def put (e : Endpoint) : Act (Option Err) := perform (.store (.put e))

def delete (networkName containerID ifName : String) : Act (Option Err) :=
  perform (.store (.delete (endpointKey networkName containerID ifName)))

end store

namespace backend

def add (e : Endpoint) : Act (Option Err) := perform (.backend (.add e))

def check (e : Endpoint) : Act (Option Err) := perform (.backend (.check e))

def delete (e : Endpoint) : Act (Option Err) := perform (.backend (.delete e))

def createNamespace (generation : String) : Act (Except Err String) := perform (.backend (.createNamespace generation))

def deleteNamespace (path : String) : Act (Option Err) := perform (.backend (.deleteNamespace path))

end backend

end Multikernel.Network
