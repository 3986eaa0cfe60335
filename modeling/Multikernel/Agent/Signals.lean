import Multikernel.Lib.Runs
import Mathlib.Data.List.Count
import Mathlib.Data.List.Nodup
/-!
# The guest's ledger of signals

`SignalOnce`, `AcknowledgeSignal` and `Delete` of the agent's `Manager`
(`runtime/agent/manager.go`). A signal comes with an operation ID; the ledger
keeps its result until the caller acknowledges it, so that a request that is
sent again is answered and not delivered again.

`Sound` holds after any calls (`sound_run`): the ledger is bounded,
`signalOrder` lists its keys, and an operation is delivered once more only after
it has been retired.
-/

namespace Multikernel.Signals
open Lib

inductive Status where
  | created
  | running
  | stopped (waited : Bool)
  deriving DecidableEq, Repr

inductive ErrorKind where
  | invalidArgument
  | unsupported
  | failedPrecondition
  | errno
  deriving DecidableEq, Repr

structure Failure where
  kind : ErrorKind
  text : String
  deriving DecidableEq, Repr

structure SignalResult where
  id : String
  signal : Nat
  err : Option Failure
  deriving DecidableEq, Repr

/-- A signal that `kill` has sent to a process group. -/
structure Delivery where
  operation : String
  id : String
  signal : Nat
  deriving DecidableEq, Repr

/-- `delivered` and `retired` are history variables. -/
structure Manager where
  processes : String → Option Status := fun _ => none
  signalResults : List (String × SignalResult) := []
  signalOrder : List String := []
  delivered : List Delivery := []
  retired : List String := []

def maxSignalResults : Nat := 4096

/-- `^[0-9a-f]{32}$` -/
def wellFormed (operationID : String) : Bool :=
  operationID.length = 32 && operationID.toList.all fun c => ('0' ≤ c && c ≤ '9') || ('a' ≤ c && c ≤ 'f')

def malformed : Failure := ⟨.invalidArgument, "signal operation ID must be 32 lowercase hexadecimal characters"⟩

/-- The answer of `kill`, if the signal is sent, is an input. -/
def Manager.signalOnce (m : Manager) (id : String) (signal : Nat) (operationID : String) (err : Option Failure) :
    Manager × Option Failure :=
  if ¬wellFormed operationID then (m, some malformed)
  else
    match m.signalResults.lookup operationID with
    | some result =>
      if result.id ≠ id ∨ result.signal ≠ signal then
        (m, some ⟨.invalidArgument, "signal operation ID was reused with a different target or signal"⟩)
      else (m, result.err)
    | none =>
      if m.processes id ≠ some .running then (m, some ⟨.failedPrecondition, "process is not running"⟩)
      else if maxSignalResults ≤ m.signalResults.length then
        (m, some ⟨.failedPrecondition, "signal replay ledger is full"⟩)
      else
        ({ m with
            signalResults := m.signalResults ++ [(operationID, ⟨id, signal, err⟩)]
            signalOrder := m.signalOrder ++ [operationID]
            delivered := if err.isNone then m.delivered ++ [⟨operationID, id, signal⟩] else m.delivered }, err)

/-- The entries that stay. -/
def Manager.retire (m : Manager) (gone : String × SignalResult → Bool) : Manager :=
  { m with
    signalResults := m.signalResults.filter (!gone ·)
    retired := m.retired ++ (m.signalResults.filter gone).map (·.1) }

def Manager.acknowledgeSignal (m : Manager) (id operationID : String) : Manager × Option Failure :=
  if ¬wellFormed operationID then (m, some malformed)
  else
    match m.signalResults.lookup operationID with
    | none => (m, none)
    | some result =>
      if result.id ≠ id then (m, some ⟨.invalidArgument, "signal operation ID acknowledgement target differs"⟩)
      else ({ m.retire (·.1 = operationID) with signalOrder := m.signalOrder.erase operationID }, none)

def Manager.delete (m : Manager) (id : String) : Manager × Option Failure :=
  match m.processes id with
  | none => (m, none)
  | some .running => (m, some ⟨.failedPrecondition, "process is running"⟩)
  | some (.stopped false) => (m, some ⟨.failedPrecondition, "process exit has not been waited"⟩)
  | some _ =>
    let rest := m.retire (·.2.id = id)
    ({ rest with
        processes := fun i => if i = id then none else m.processes i
        signalOrder := m.signalOrder.filter fun op => (rest.signalResults.lookup op).isSome }, none)

/-- The server's `SignalProcess`, with a number from the shim. -/
def Manager.signalProcess (m : Manager) (id : String) (signal : Nat) (operationID : String) (err : Option Failure) :
    Manager × Option Failure :=
  if 0 < signal ∧ signal < 65 then m.signalOnce id signal operationID err
  else (m, some ⟨.unsupported, "unsupported signal"⟩)

/-! ## What a call does -/

section Calls
variable {m : Manager} {id op : String} {signal : Nat} {err : Option Failure}

theorem lookup_eq_none_iff {β : Type} {l : List (String × β)} : l.lookup op = none ↔ op ∉ l.map (·.1) := by
  induction l with
  | nil => simp
  | cons x l ih =>
    obtain ⟨k, v⟩ := x
    rw [List.lookup_cons]
    by_cases hk : op = k
    · simp [hk]
    · rw [beq_eq_false_iff_ne.2 hk]
      simpa [hk] using ih

theorem mem_of_lookup {β : Type} {l : List (String × β)} {v : β} (h : l.lookup op = some v) : (op, v) ∈ l := by
  induction l with
  | nil => cases h
  | cons x l ih =>
    obtain ⟨k, u⟩ := x
    rw [List.lookup_cons] at h
    split at h
    · rename_i hk
      cases h
      rw [beq_iff_eq] at hk
      rw [hk]
      exact List.mem_cons_self
    · exact List.mem_cons_of_mem _ (ih h)

/-- A request is answered from the ledger or refused, or its signal is sent now. -/
theorem signalOnce_cases (m : Manager) (id : String) (signal : Nat) (op : String) (err : Option Failure) :
    (m.signalOnce id signal op err).1 = m ∨
      (op ∉ m.signalResults.map (·.1) ∧ m.processes id = some .running ∧ m.signalResults.length < maxSignalResults
        ∧ m.signalOnce id signal op err = ({ m with
            signalResults := m.signalResults ++ [(op, ⟨id, signal, err⟩)]
            signalOrder := m.signalOrder ++ [op]
            delivered := if err.isNone then m.delivered ++ [⟨op, id, signal⟩] else m.delivered }, err)) := by
  unfold Manager.signalOnce
  split
  · exact .inl rfl
  cases hlookup : m.signalResults.lookup op with
  | some result =>
    simp only
    split
    · exact .inl rfl
    · exact .inl rfl
  | none =>
    simp only
    split
    · exact .inl rfl
    · rename_i hrunning
      split
      · exact .inl rfl
      · rename_i hroom
        exact .inr ⟨lookup_eq_none_iff.1 hlookup, not_not.1 hrunning, Nat.not_le.1 hroom, rfl⟩

/-- A signal that is answered with success has been delivered with its
operation, now or before. -/
theorem signalOnce_delivered (h : (m.signalOnce id signal op err).2 = none)
    (hledger : ∀ x ∈ m.signalResults, x.2.err = none → ⟨x.1, x.2.id, x.2.signal⟩ ∈ m.delivered) :
    ⟨op, id, signal⟩ ∈ (m.signalOnce id signal op err).1.delivered := by
  unfold Manager.signalOnce at h ⊢
  split at h
  · cases h
  rename_i hform
  rw [if_neg hform]
  cases hlookup : m.signalResults.lookup op with
  | some result =>
    simp only [hlookup] at h ⊢
    split at h
    · cases h
    · rename_i hsame
      rw [if_neg hsame]
      rw [not_or, not_not, not_not] at hsame
      have hmem := hledger _ (mem_of_lookup hlookup) h
      rw [hsame.1, hsame.2] at hmem
      exact hmem
  | none =>
    simp only [hlookup] at h ⊢
    split at h
    · cases h
    rename_i hrunning
    rw [if_neg hrunning]
    split at h
    · cases h
    rename_i hroom
    simp only at h
    rw [if_neg hroom, h]
    simp

theorem acknowledgeSignal_cases (m : Manager) (id op : String) :
    (m.acknowledgeSignal id op).1 = m ∨
      (op ∈ m.signalResults.map (·.1) ∧ m.acknowledgeSignal id op
        = ({ m.retire (·.1 = op) with signalOrder := m.signalOrder.erase op }, none)) := by
  unfold Manager.acknowledgeSignal
  split
  · exact .inl rfl
  cases hlookup : m.signalResults.lookup op with
  | none => exact .inl rfl
  | some result =>
    simp only
    split
    · exact .inl rfl
    · exact .inr ⟨List.mem_map_of_mem (mem_of_lookup hlookup), rfl⟩

theorem lookup_append_new {β : Type} {l : List (String × β)} {v : β} (h : op ∉ l.map (·.1)) :
    (l ++ [(op, v)]).lookup op = some v := by
  induction l with
  | nil => simp
  | cons x l ih =>
    obtain ⟨k, u⟩ := x
    rw [List.map_cons, List.mem_cons, not_or] at h
    rw [List.cons_append, List.lookup_cons, beq_eq_false_iff_ne.2 h.1]
    exact ih h.2

/-- A request that is sent again has the answer it had, and does nothing more. -/
theorem signalOnce_again (m : Manager) (id : String) (signal : Nat) (op : String) (err : Option Failure) :
    (m.signalOnce id signal op err).1.signalOnce id signal op err = m.signalOnce id signal op err := by
  rcases signalOnce_cases m id signal op err with hsame | ⟨hnew, -, -, hs⟩
  · rw [hsame]
  · by_cases hform : wellFormed op
    case neg => simp [Manager.signalOnce, hform]
    rw [hs]
    unfold Manager.signalOnce
    simp only [hform, not_true_eq_false, if_false, lookup_append_new hnew]
    simp

theorem acknowledgeSignal_again (m : Manager) (id op : String) :
    (m.acknowledgeSignal id op).1.acknowledgeSignal id op = m.acknowledgeSignal id op := by
  rcases acknowledgeSignal_cases m id op with hsame | ⟨-, hs⟩
  · rw [hsame]
  · by_cases hform : wellFormed op
    case neg => simp [Manager.acknowledgeSignal, hform]
    have hgone : (m.retire (·.1 = op)).signalResults.lookup op = none := by
      rw [lookup_eq_none_iff]
      simp [Manager.retire]
    rw [hs]
    unfold Manager.acknowledgeSignal
    simp only [hform, not_true_eq_false, if_false, hgone]

end Calls

/-! ## Runs -/

/-- A call of the manager, or a change of a process beside the calls. -/
inductive Event where
  | signal (id : String) (signal : Nat) (operationID : String) (err : Option Failure)
  | acknowledge (id operationID : String)
  | delete (id : String)
  | status (id : String) (status : Option Status)

def Manager.step (m : Manager) : Event → Manager
  | .signal id signal operationID err => (m.signalProcess id signal operationID err).1
  | .acknowledge id operationID => (m.acknowledgeSignal id operationID).1
  | .delete id => (m.delete id).1
  | .status id status => { m with processes := fun i => if i = id then status else m.processes i }

/-- The ledger and its listing. An operation has been delivered at most once
more often than it was retired, and no more often than that unless it is in
the ledger. -/
structure Sound (m : Manager) : Prop where
  order : m.signalOrder = m.signalResults.map (·.1)
  nodup : m.signalOrder.Nodup
  bounded : m.signalResults.length ≤ maxSignalResults
  once : ∀ op, (m.delivered.map (·.operation)).count op ≤ m.retired.count op + m.signalOrder.count op
  results : ∀ x ∈ m.signalResults, x.2.err = none → ⟨x.1, x.2.id, x.2.signal⟩ ∈ m.delivered

theorem sound_init : Sound {} where
  order := rfl
  nodup := .nil
  bounded := Nat.zero_le _
  once := fun _ => Nat.le_refl _
  results := by simp

section Sound
variable {m : Manager} {op : String}

theorem Sound.signalOnce (h : Sound m) (id : String) (signal : Nat) (op : String) (err : Option Failure) :
    Sound (m.signalOnce id signal op err).1 := by
  rcases signalOnce_cases m id signal op err with hsame | ⟨hnew, -, hroom, hs⟩
  · rw [hsame]
    exact h
  rw [hs]
  have hfresh : op ∉ m.signalOrder := by rw [h.order]; exact hnew
  constructor
  case order => simp [h.order]
  case nodup => exact List.nodup_append.2 ⟨h.nodup, List.nodup_singleton _, by simpa using fun x hx (hxo : x = op) => hfresh (hxo ▸ hx)⟩
  case bounded =>
    rw [List.length_append]
    exact hroom
  case once =>
    intro o
    have hold := h.once o
    simp only [List.count_append]
    by_cases herr : err.isNone
    · simp only [herr, if_true, List.map_append, List.count_append, List.map_cons, List.map_nil]
      omega
    · simp only [herr, Bool.false_eq_true, if_false]
      omega
  case results =>
    intro x hx hnone
    rcases List.mem_append.1 hx with hx | hx
    · have hmem := h.results x hx hnone
      split
      · exact List.mem_append_left _ hmem
      · exact hmem
    · obtain rfl := List.mem_singleton.1 hx
      simp only at hnone
      simp [hnone]

/-- Entries go from the ledger, and their operations count as retired. -/
theorem Sound.retire (h : Sound m) (gone : String × SignalResult → Bool) (order : List String)
    (horder : order = (m.signalResults.filter (!gone ·)).map (·.1)) : Sound { m.retire gone with signalOrder := order } := by
  have hsub : order.Sublist m.signalOrder := by
    rw [horder, h.order]
    exact (List.filter_sublist).map _
  constructor
  case order => exact horder
  case nodup => exact h.nodup.sublist hsub
  case bounded => exact Nat.le_trans (List.length_filter_le _ _) h.bounded
  case once =>
    intro o
    have hold := h.once o
    have hsplit : (m.signalResults.map (·.1)).count o
        = ((m.signalResults.filter gone).map (·.1)).count o + ((m.signalResults.filter (!gone ·)).map (·.1)).count o := by
      rw [← List.count_append, ← List.map_append]
      exact (((List.filter_append_perm gone m.signalResults).map _).count_eq o).symm
    rw [h.order, hsplit] at hold
    simp only [Manager.retire, List.count_append, horder]
    omega
  case results =>
    intro x hx
    exact h.results x (List.mem_of_mem_filter hx)

theorem Sound.acknowledgeSignal (h : Sound m) (id op : String) : Sound (m.acknowledgeSignal id op).1 := by
  rcases acknowledgeSignal_cases m id op with hsame | ⟨-, hs⟩
  · rw [hsame]
    exact h
  rw [hs]
  apply h.retire
  rw [h.nodup.erase_eq_filter, h.order, List.filter_map]
  congr 1

theorem Sound.delete (h : Sound m) (id : String) : Sound (m.delete id).1 := by
  have hdeleted : Sound { m.retire (·.2.id = id) with
      signalOrder := m.signalOrder.filter fun o => ((m.retire (·.2.id = id)).signalResults.lookup o).isSome } := by
    apply h.retire
    rw [h.order, List.filter_map]
    congr 1
    apply List.filter_congr
    intro x hx
    -- keys are unique, so a key stays exactly if its entry does
    have hkeys : (m.signalResults.map (·.1)).Nodup := h.order ▸ h.nodup
    rw [Function.comp, Bool.eq_iff_iff, Option.isSome_iff_ne_none, Ne, lookup_eq_none_iff, not_not, List.mem_map]
    constructor
    · rintro ⟨y, hy, hyx⟩
      obtain ⟨hmem, hstays⟩ := List.mem_filter.1 hy
      rwa [List.inj_on_of_nodup_map hkeys hmem hx hyx] at hstays
    · intro hstays
      exact ⟨x, List.mem_filter.2 ⟨hx, hstays⟩, rfl⟩
  unfold Manager.delete
  split
  · exact h
  · exact h
  · exact h
  · exact ⟨hdeleted.order, hdeleted.nodup, hdeleted.bounded, hdeleted.once, hdeleted.results⟩

theorem Sound.step (h : Sound m) (e : Event) : Sound (m.step e) := by
  cases e with
  | signal id signal op err =>
    simp only [Manager.step, Manager.signalProcess]
    split
    · exact h.signalOnce id signal op err
    · exact h
  | acknowledge id op => exact h.acknowledgeSignal id op
  | delete id => exact h.delete id
  | status id status => exact ⟨h.order, h.nodup, h.bounded, h.once, h.results⟩

/-- Whatever is called, in any order. -/
theorem sound_run (es : List Event) : Sound (run Manager.step {} es) := by
  have hrun : ∀ m, Sound m → Sound (run Manager.step m es) := by
    induction es with
    | nil => exact fun m h => h
    | cons e es ih => exact fun m h => ih _ (h.step e)
  exact hrun _ sound_init

end Sound

end Multikernel.Signals
