import Multikernel.Protocol
/-!
# The lifecycle store

`runtime/internal/state/store.go`: a write-ahead journal of operation intents
and completions, and a snapshot of sandboxes and recorded results. `journal`
is the file's entries, `data` the snapshot in memory and `disk` the one in
`state.json`. A snapshot write that fails rolls the memory back, and one that
fails after its rename leaves the new snapshot in the file (`persist`); an append
can be refused, fail before or after its bytes are written, or leave a torn entry
(`Write`). The map `operations` of the code is the view `operation` of the
journal.
-/

namespace Multikernel
variable {e : JournalEntry} {s : Store} {id : String} {a : Sandbox}

inductive Phase where
  | intent | complete
  deriving DecidableEq, Repr

structure JournalEntry where
  sequence : Nat := 0
  time : Nat := 0
  operationID : String
  idempotencyKey : String
  fingerprint : Fingerprint
  sandboxID : String
  generation : String
  method : Method
  phase : Phase
  state : State
  error : Option Error := none
  sandbox : Option Sandbox
  deriving DecidableEq, Repr

/-- A recorded result: the error replay if there is one, else the result. -/
structure IdempotentResult where
  fingerprint : Fingerprint
  outcome : Except Error MutationResult

structure Snapshot where
  sequence : Nat
  sandboxes : Table Sandbox
  results : Table IdempotentResult

/-- The immutable binding of an operation, and whether it is complete. -/
structure JournalOperation where
  sandboxID : String
  generation : String
  method : Method
  key : String
  fingerprint : Fingerprint
  complete : Bool
  deriving DecidableEq, Repr

def operationBinding (e : JournalEntry) : JournalOperation :=
  ⟨e.sandboxID, e.generation, e.method, e.idempotencyKey, e.fingerprint, false⟩

structure Store where
  journal : List JournalEntry
  journalFailed : Bool
  /-- The last append left a partial entry, which no later open accepts. -/
  torn : Bool
  data : Snapshot
  disk : Snapshot

/-- How a write to a state file ends. -/
inductive Write where
  | done
  /-- Nothing is written; the store goes on. -/
  | refused (e : Err)
  /-- Nothing is written; the journal is closed. -/
  | failed (e : Err)
  /-- The bytes are written, a sync after it fails; the journal is closed. -/
  | unsynced (e : Err)
  /-- Part of the bytes is written; the journal is closed. -/
  | torn (e : Err)

def errClosed : Err := { text := "store closed" }

namespace Store

/-- `operations[id]`. -/
def operation (s : Store) (id : String) : Option JournalOperation :=
  (s.journal.reverse.find? (·.operationID == id)).map fun e =>
    { operationBinding e with complete := e.phase == .complete }

/-- The checks of `Append` on an entry's identity and phase. -/
def checkEntry (s : Store) (e : JournalEntry) : Option Err :=
  if e.operationID = "" ∨
      e.sandbox.any fun sb => sb.id ≠ e.sandboxID || sb.generation ≠ e.generation || sb.config.id ≠ e.sandboxID then
    some { text := "invalid lifecycle journal operation identity" }
  else match e.phase with
  | .intent =>
    if (s.operation e.operationID).isSome then
      some { text := "lifecycle journal operation identity reused" }
    else none
  | .complete =>
    if s.operation e.operationID ≠ some (operationBinding e) then
      some { text := "lifecycle journal completion does not own a pending intent" }
    else none

/-- The entry as written: the next sequence number and the time. -/
def stamp (s : Store) (e : JournalEntry) (now : Nat) : JournalEntry :=
  { e with sequence := s.data.sequence + 1, time := now }

def append (s : Store) (e : JournalEntry) (now : Nat) (o : Write) : Store × Option Err :=
  if s.journalFailed then (s, some errClosed)
  else match o with
  | .failed err => ({ s with journalFailed := true }, some err)
  | _ =>
    match s.checkEntry e with
    | some err => (s, some err)
    | none =>
      match o with
      | .done => ({ s with
          journal := s.journal ++ [s.stamp e now]
          data := { s.data with sequence := s.data.sequence + 1 } }, none)
      | .refused err | .failed err => (s, some err)
      | .unsynced err => ({ s with journal := s.journal ++ [s.stamp e now], journalFailed := true }, some err)
      | .torn err => ({ s with torn := true, journalFailed := true }, some err)

/-- `persistLocked` after a change of the snapshot to `d`, with its rollback. -/
def persist (s : Store) (d : Snapshot) (o : Write) : Store × Option Err :=
  match o with
  | .done => ({ s with data := d, disk := d }, none)
  | .unsynced err => ({ s with disk := d }, some err)
  | .refused err | .failed err | .torn err => (s, some err)

/-- `Open` on what a stopped daemon left behind. -/
def reopen (s : Store) : Option Store :=
  let last := (s.journal.getLast?.map (·.sequence)).getD 0
  if s.torn ∨ last < s.disk.sequence then none
  else some { s with journalFailed := false, data := { s.disk with sequence := last } }

def empty : Store := ⟨[], false, false, ⟨0, ∅, ∅⟩, ⟨0, ∅, ∅⟩⟩

end Store

/-- The mutators of the snapshot. -/
inductive Change where
  | commit (sb : Sandbox) (key : String) (fp : Fingerprint) (r : MutationResult)
  | commitFailure (sb : Sandbox) (key : String) (fp : Fingerprint) (failure : Error)
  | tombstone (key : String) (fp : Fingerprint) (failure : Error)
  | abortCreate (id key : String) (fp : Fingerprint) (failure : Error)
  | setSandbox (sb : Sandbox)
  | removeSandbox (id : String)

/-- What a mutator makes of the snapshot. `Commit` drops an ABSENT sandbox and
records nothing under the empty key. -/
def Snapshot.change (d : Snapshot) : Change → Snapshot
  | .commit sb key fp r =>
    { d with
      sandboxes := if sb.state = .absent then d.sandboxes.erase sb.id else d.sandboxes.insert sb.id sb
      results := if key ≠ "" then d.results.insert key ⟨fp, .ok r⟩ else d.results }
  | .commitFailure sb key fp failure =>
    { d with sandboxes := d.sandboxes.insert sb.id sb, results := d.results.insert key ⟨fp, .error failure⟩ }
  | .tombstone key fp failure => { d with results := d.results.insert key ⟨fp, .error failure⟩ }
  | .abortCreate id key fp failure =>
    { d with sandboxes := d.sandboxes.erase id, results := d.results.insert key ⟨fp, .error failure⟩ }
  | .setSandbox sb => { d with sandboxes := d.sandboxes.insert sb.id sb }
  | .removeSandbox id => { d with sandboxes := d.sandboxes.erase id }

/-- The store's operations as a client calls them. -/
inductive StoreCall where
  | result (key : String)
  | sandbox (id : String)
  | snapshot
  | journalEntries
  | append (e : JournalEntry)
  | change (ch : Change)

def StoreCall.Reply : StoreCall → Type
  | .result _ => Option IdempotentResult
  | .sandbox _ => Option Sandbox
  | .snapshot => Snapshot
  | .journalEntries => Except Err (List JournalEntry)
  | .append _ => Option Err
  | .change _ => Option Err

/-- One call: `now` is the clock, `o` how a write ends, `err` a failing read. -/
def Store.call (s : Store) (now : Nat) (o : Write) (err : Option Err) : (c : StoreCall) → Store × c.Reply
  | .result key => (s, s.data.results.lookup key)
  | .sandbox id => (s, s.data.sandboxes.lookup id)
  | .snapshot => (s, s.data)
  | .journalEntries =>
    (s, if s.journalFailed then .error errClosed else match err with
      | some e => .error e
      | none => .ok s.journal)
  | .append e => s.append e now o
  | .change ch => s.persist (s.data.change ch) o

/-! ## Incomplete intents -/

/-- `Incomplete`: the intents no completion closes. -/
def incomplete (es : List JournalEntry) : List JournalEntry :=
  es.filter fun e => e.phase == .intent && !es.any fun d => d.phase == .complete && d.operationID == e.operationID

theorem mem_incomplete {es : List JournalEntry} :
    e ∈ incomplete es ↔
      e ∈ es ∧ e.phase = .intent ∧ ∀ d ∈ es, d.phase = .complete → d.operationID ≠ e.operationID := by
  simp [incomplete]

/-- A completion closes the intents of its operation and nothing else. -/
theorem incomplete_append_complete {es : List JournalEntry} {c : JournalEntry} (hc : c.phase = .complete) :
    incomplete (es ++ [c]) = (incomplete es).filter (·.operationID ≠ c.operationID) := by
  have hlast : [c].filter (fun e => e.phase == .intent &&
      !(es ++ [c]).any fun d => d.phase == .complete && d.operationID == e.operationID) = [] := by
    simp [hc]
  rw [incomplete, List.filter_append, hlast, List.append_nil, incomplete, List.filter_filter]
  refine List.filter_congr fun e _ => ?_
  by_cases h : e.operationID = c.operationID
  · simp [hc, h]
  · have h' : (c.operationID == e.operationID) = false := by simpa using Ne.symm h
    simp [h, h']

theorem incomplete_subset (es : List JournalEntry) : ∀ e ∈ incomplete es, e ∈ es :=
  fun _ he => (mem_incomplete.1 he).1

namespace Store

/-! ## What an append can do -/

/-- The store after an append: nothing written, or the entry at the end. -/
theorem append_cases (s : Store) (e : JournalEntry) (now : Nat) (o : Write) :
    (((s.append e now o).2 ≠ none ∧ (s.append e now o).1.journal = s.journal) ∨
      (s.journalFailed = false ∧ s.checkEntry e = none ∧ (s.append e now o).1.journal = s.journal ++ [s.stamp e now] ∧
        ((s.append e now o).2 ≠ none → (s.append e now o).1.journalFailed = true))) ∧
    (s.append e now o).1.data.sandboxes = s.data.sandboxes ∧
    (s.append e now o).1.data.results = s.data.results ∧ (s.append e now o).1.disk = s.disk := by
  unfold append
  cases hf : s.journalFailed with
  | true => simp
  | false =>
    cases ha : s.checkEntry e <;> cases o <;> simp

/-- A store opens with the entries and records of its files. -/
theorem reopen_cases {s' : Store} (h : s.reopen = some s') :
    s'.journal = s.journal ∧ s'.data.sandboxes = s.disk.sandboxes ∧ s'.data.results = s.disk.results ∧ s'.disk = s.disk := by
  unfold reopen at h
  simp only [Option.ite_none_left_eq_some, Option.some.injEq] at h
  obtain ⟨-, rfl⟩ := h
  exact ⟨rfl, rfl, rfl, rfl⟩

theorem journalEntries_reply (s : Store) (now : Nat) (o : Write) (err : Option Err) :
    (s.call now o err .journalEntries).2 = .ok s.journal ∨ ∃ e, (s.call now o err .journalEntries).2 = .error e := by
  unfold call
  cases s.journalFailed with
  | true => exact .inr ⟨_, rfl⟩
  | false => cases err with
    | none => exact .inl rfl
    | some e => exact .inr ⟨e, rfl⟩

/-- A failing write of the snapshot leaves the memory as it was, and the file so
or with the new snapshot. -/
theorem persist_cases (s : Store) (d : Snapshot) (o : Write) :
    (∃ e f, s.persist d o = ({ s with disk := f }, some e) ∧ (f = s.disk ∨ f = d)) ∨
      s.persist d o = ({ s with data := d, disk := d }, none) := by
  cases o with
  | done => exact .inr rfl
  | unsynced e => exact .inl ⟨e, d, rfl, .inr rfl⟩
  | refused e | failed e | torn e => exact .inl ⟨e, s.disk, rfl, .inl rfl⟩

theorem persist_journal (s : Store) (d : Snapshot) (o : Write) : (s.persist d o).1.journal = s.journal := by
  cases o <;> rfl

end Store

/-! ## Changes of the snapshot -/

theorem change_sequence (d : Snapshot) (ch : Change) : (d.change ch).sequence = d.sequence := by
  cases ch <;> rfl

theorem lookup_insert_cases {α : Type} {t : Table α} {k : String} {v a : α} (h : (t.insert k v).lookup id = some a)
    : (id = k ∧ a = v) ∨ t.lookup id = some a := by
  by_cases hid : id = k
  · subst hid
    rw [AList.lookup_insert, Option.some.injEq] at h
    exact .inl ⟨rfl, h.symm⟩
  · rw [AList.lookup_insert_ne hid] at h
    exact .inr h

theorem lookup_erase_cases {α : Type} {t : Table α} {k : String} {a : α} (h : (t.erase k).lookup id = some a)
    : t.lookup id = some a := by
  by_cases hid : id = k
  · subst hid
    simp at h
  · rwa [AList.lookup_erase_ne hid] at h

/-- The sandbox a change puts into the snapshot. -/
def Change.adds : Change → Option Sandbox
  | .commit sb _ _ _ | .commitFailure sb _ _ _ | .setSandbox sb => some sb
  | .tombstone _ _ _ | .abortCreate _ _ _ _ | .removeSandbox _ => none

theorem Change.lookup_cases {ch : Change} {d : Snapshot} (ha : (d.change ch).sandboxes.lookup id = some a) :
    d.sandboxes.lookup id = some a ∨ (ch.adds = some a ∧ a.id = id) := by
  cases ch with
  | commit sb k fp r =>
    simp only [Snapshot.change] at ha
    split at ha
    · exact .inl (lookup_erase_cases ha)
    · exact (lookup_insert_cases ha).elim (fun ⟨hi, e⟩ => .inr (by simp [e, hi, adds])) .inl
  | commitFailure sb k fp failure =>
    exact (lookup_insert_cases ha).elim (fun ⟨hi, e⟩ => .inr (by simp [e, hi, adds])) .inl
  | tombstone k fp failure => exact .inl ha
  | abortCreate i k fp failure => exact .inl (lookup_erase_cases ha)
  | setSandbox sb => exact (lookup_insert_cases ha).elim (fun ⟨hi, e⟩ => .inr (by simp [e, hi, adds])) .inl
  | removeSandbox i => exact .inl (lookup_erase_cases ha)

namespace Store

/-- A record of `id`, in memory or in the file. -/
def Records (s : Store) (id : String) (a : Sandbox) : Prop :=
  s.data.sandboxes.lookup id = some a ∨ s.disk.sandboxes.lookup id = some a

theorem records_append {now : Nat} {o : Write} : (s.append e now o).1.Records id a ↔ s.Records id a := by
  obtain ⟨-, hsb, -, hdisk⟩ := s.append_cases e now o
  rw [Records, hsb, hdisk, Records]

/-- A change adds no record but its own. -/
theorem records_change {ch : Change} {o : Write} (h : (s.persist (s.data.change ch) o).1.Records id a)
    : s.Records id a ∨ (ch.adds = some a ∧ a.id = id) := by
  have hnew (h : (s.data.change ch).sandboxes.lookup id = some a) : s.Records id a ∨ (ch.adds = some a ∧ a.id = id) :=
    (Change.lookup_cases h).imp_left .inl
  rcases persist_cases s (s.data.change ch) o with ⟨_, _, hs, rfl | rfl⟩ | hs <;> rw [hs] at h
  · exact .inl h
  · exact h.elim (fun h => .inl (.inl h)) hnew
  · exact h.elim hnew hnew

theorem records_reopen {s' : Store} (hs : s.reopen = some s') (h : s'.Records id a) :
    s.disk.sandboxes.lookup id = some a := by
  obtain ⟨-, hsb, -, hdisk⟩ := reopen_cases hs
  rwa [Records, hsb, hdisk, or_self_iff] at h

end Store

/-! ## Identities

Whatever its clients do, the store keeps a sandbox under its own ID, and an
entry of the journal carries the sandbox it names. -/

structure Store.Keyed (s : Store) : Prop where
  records : ∀ id a, s.Records id a → a.id = id
  journal : ∀ e ∈ s.journal, ∀ a, e.sandbox = some a →
    a.id = e.sandboxID ∧ a.generation = e.generation ∧ a.config.id = e.sandboxID

namespace Store

theorem checkEntry_identity (h : s.checkEntry e = none) (ha : e.sandbox = some a) :
    a.id = e.sandboxID ∧ a.generation = e.generation ∧ a.config.id = e.sandboxID := by
  unfold checkEntry at h
  split at h
  · cases h
  · rename_i hid
    simp only [ha, Option.any_some, not_or, Bool.or_eq_true, decide_eq_true_eq, not_not] at hid
    tauto

theorem Keyed.append (h : s.Keyed) (e : JournalEntry) (now : Nat) (o : Write) : (s.append e now o).1.Keyed := by
  refine ⟨fun id a ha => h.records id a (records_append.1 ha), fun d hd a ha => ?_⟩
  rcases (append_cases s e now o).1 with ⟨-, hj⟩ | ⟨-, hcheck, hj, -⟩
  · exact h.journal d (hj ▸ hd) a ha
  · rw [hj, List.mem_append, List.mem_singleton] at hd
    rcases hd with hd | rfl
    · exact h.journal d hd a ha
    · exact checkEntry_identity hcheck ha

theorem Keyed.call (h : s.Keyed) (now : Nat) (o : Write) (err : Option Err) (c : StoreCall) :
    (s.call now o err c).1.Keyed := by
  cases c with
  | append e => exact h.append e now o
  | change ch =>
    refine ⟨fun id a ha => (records_change ha).elim (h.records id a) And.right, ?_⟩
    show ∀ e ∈ (s.persist (s.data.change ch) o).1.journal, _
    rw [persist_journal]
    exact h.journal
  | result | sandbox | snapshot | journalEntries => exact h

theorem Keyed.reopen {s' : Store} (h : s.Keyed) (hs : s.reopen = some s') : s'.Keyed :=
  ⟨fun id a ha => h.records id a (.inr (records_reopen hs ha)), (reopen_cases hs).1 ▸ h.journal⟩

theorem keyed_empty : empty.Keyed := ⟨fun id a h => by simp [Records, empty] at h, fun e he => by simp [empty] at he⟩

theorem Keyed.sandboxes (h : s.Keyed) (id : String) (a : Sandbox) (ha : s.data.sandboxes.lookup id = some a) :
    a.id = id :=
  h.records id a (.inl ha)

end Store

end Multikernel
