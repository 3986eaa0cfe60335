import Multikernel.Storage.Store
/-!
# The storage backend

`storage.Backend` of `runtime/internal/storage/service.go`, as
`backend_linux.go` implements it: one server process for each export
generation, and the evidence its log leaves behind. A server that was never
started has no log, so its observation carries no evidence at all.
-/

namespace Multikernel

/-- A server process of an export generation: alive or not, whether its log
shows an accepted client and a synced close. -/
structure Server where
  live : Bool := true
  accepted : Bool := false
  closed : Bool := false
  counters : Counters := {}
  deriving DecidableEq, Repr

structure Observation where
  active : Bool := false
  closed : Bool := false
  clientLost : Bool := false
  preAcceptance : Bool := false
  generation : String := ""
  counters : Counters := {}
  deriving DecidableEq, Repr

/-- The servers by export generation. -/
abbrev Servers := Table Server

/-- `Observe` on the true state of the server. -/
def Servers.observe (servers : Servers) (value : Export) : Observation :=
  match servers.lookup value.exportGeneration with
  | none => {}
  | some s =>
    if s.live then { active := true, generation := value.exportGeneration }
    else if s.closed then { closed := true, counters := s.counters }
    else if s.accepted then { clientLost := true }
    else { preAcceptance := true }

def errUnsafeSession : Err :=
  { text := "OPERATOR_ACTION: storage session lacks safe recovery or release evidence", unsafeSession := true }

inductive ServerCall where
  | inspect (image : PreparedImage)
  | inspectCurrent (image : PreparedImage)
  | start (value : Export)
  | observe (value : Export)
  | stop (value : Export)
  | offlineCheck (value : Export)

def ServerCall.Reply : ServerCall → Type
  | .inspect _ => Except Err ImageIdentity
  | .inspectCurrent _ => Except Err ImageIdentity
  | .start _ => Option Err
  | .observe _ => Except Err Observation
  | .stop _ => Except Err Counters
  | .offlineCheck _ => Except Err String

/-- One call: `err` says whether it fails, `identity` what the image is,
`observation` what is seen of the server (the truth by default) and `check`
the checker's verdict. `Stop` needs a live server or a synced close. -/
def Servers.call (servers : Servers) (err : Option Err) (identity : ImageIdentity) (observation : Option Observation)
    (check : String) : (c : ServerCall) → Servers × c.Reply
  | .inspect _ | .inspectCurrent _ =>
    (servers, match err with
      | none => .ok identity
      | some e => .error e)
  | .start value => (if err = none then servers.insert value.exportGeneration {} else servers, err)
  | .observe value =>
    (servers, match err with
      | none => .ok (observation.getD (servers.observe value))
      | some e => .error e)
  | .stop value =>
    match err, servers.lookup value.exportGeneration with
    | some e, _ => (servers, .error e)
    | none, none => (servers, .error errUnsafeSession)
    | none, some s =>
      if s.live ∨ s.closed then
        (servers.insert value.exportGeneration { s with live := false, closed := true }, .ok s.counters)
      else (servers, .error errUnsafeSession)
  | .offlineCheck _ =>
    (servers, match err with
      | none => .ok check
      | some e => .error e)

end Multikernel
