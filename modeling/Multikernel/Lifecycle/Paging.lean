import Multikernel.Lib.Feed
import Multikernel.Lib.Runs
import Multikernel.State.Store
import Multikernel.Storage.Store
/-!
# Paging through the journal

`AuditEvents` (`runtime/internal/lifecycle/audit.go`, with
`runtime/protocol/audit.go`) and `Events` return the journal by pages, each
client going on from the last sequence it received. Both are readers of a log
with increasing keys (`Lib.Feed`). The audit view refuses a page with an entry
whose metadata is invalid; methods, states, phases and error codes are
enumerations here, so what is left to check is an entry's identity and time.
-/

namespace Multikernel
open Lib
variable {limit : UInt32} {err : Option Err} {page : AuditPage}

/-! ## The audit view -/

/-- What a read answers instead of a page. -/
inductive ReadCode where
  | unsupported | invalidArgument | internal
  deriving DecidableEq, Repr

structure ReadError where
  code : ReadCode
  message : String
  retryable : Bool
  deriving DecidableEq, Repr

structure AuditQuery where
  version : Int := 1
  afterSequence : Nat := 0
  limit : UInt32 := 0

def AuditQuery.validate (q : AuditQuery) : Option String :=
  if q.version ≠ 1 then some "unsupported audit version"
  else if q.limit > 512 then some "audit limit must be at most 512"
  else none

def AuditQuery.pageLimit (q : AuditQuery) : UInt32 := if q.limit = 0 then 128 else q.limit

inductive AuditOutcome where
  | pending | succeeded | failed
  deriving DecidableEq, Repr

structure AuditRecord where
  version : Int := 1
  component : String := "mkruntimed"
  sequence : Nat
  time : Nat
  operationID : String
  sandboxID : String
  generation : String
  method : Method
  phase : Phase
  outcome : AuditOutcome
  state : State
  errorCode : Option Code
  deriving DecidableEq, Repr

/-- The first time after the year 9999, in nanoseconds from the zero time. -/
def yearTenThousand : Nat := 315537897600 * 1000000000

def AuditRecord.validate (r : AuditRecord) : Option String :=
  if r.version ≠ 1 ∨ r.component ≠ "mkruntimed" ∨ r.sequence = 0 ∨ r.time = 0 ∨ yearTenThousand ≤ r.time ∨
      ¬idRE r.sandboxID ∨ ¬generationRE r.generation ∨ ¬printableASCII r.operationID 1 128 then
    some "invalid audit record identity"
  else match r.phase with
  | .intent => if r.outcome ≠ .pending ∨ r.errorCode ≠ none then some "invalid audit intent outcome" else none
  | .complete =>
    if r.outcome = .succeeded ∧ r.errorCode = none then none
    else if r.outcome ≠ .failed ∨ r.errorCode = none then some "invalid audit completion outcome"
    else none

structure AuditPage where
  version : Int := 1
  records : List AuditRecord := []
  nextSequence : Nat
  highWaterSequence : Nat
  hasMore : Bool := false
  deriving DecidableEq, Repr

/-- The record of an entry. -/
def auditRecord (entry : JournalEntry) : AuditRecord :=
  { sequence := entry.sequence, time := entry.time, operationID := entry.operationID, sandboxID := entry.sandboxID,
    generation := entry.generation, method := entry.method, phase := entry.phase, state := entry.state
    outcome := if entry.phase = .complete then (if entry.error.isSome then .failed else .succeeded) else .pending
    errorCode := if entry.phase = .complete then entry.error.map (·.code) else none }

/-- The loop of `AuditEvents`. -/
def auditScan (after limit : Nat) : List JournalEntry → AuditPage → Except ReadError AuditPage
  | [], page => .ok page
  | entry :: entries, page =>
    if entry.sequence ≤ after then auditScan after limit entries page
    else
      let record := auditRecord entry
      if record.validate ≠ none then .error ⟨.internal, "audit journal metadata is invalid", false⟩
      else
        let page := { page with records := page.records ++ [record], nextSequence := record.sequence }
        if page.records.length = limit then .ok page else auditScan after limit entries page

def highWater (entries : List JournalEntry) : Nat := (entries.getLast?.map (·.sequence)).getD 0

/-- `AuditEvents`, on what `JournalEntries` returned. -/
def auditEvents (journal : Except Err (List JournalEntry)) (query : AuditQuery) : Except ReadError AuditPage :=
  if query.version ≠ 1 then .error ⟨.unsupported, "audit version must be 1", false⟩
  else if query.validate ≠ none then .error ⟨.invalidArgument, "audit limit must be at most 512", false⟩
  else match journal with
  | .error _ => .error ⟨.internal, "audit journal is unavailable", true⟩
  | .ok entries =>
    if query.afterSequence > highWater entries then
      .error ⟨.invalidArgument, "audit cursor is ahead of the journal", false⟩
    else
      match auditScan query.afterSequence query.pageLimit.toNat entries
        { nextSequence := query.afterSequence, highWaterSequence := highWater entries } with
      | .error issue => .error issue
      | .ok page => .ok { page with hasMore := decide (page.nextSequence < page.highWaterSequence) }

/-! ## The event stream -/

/-- `protocol.Event`. -/
structure JournalEvent where
  version : Int := 1
  sequence : Nat
  time : Nat
  sandboxID : String
  generation : String
  method : Method
  state : State
  error : Option Error
  deriving DecidableEq, Repr

def journalEvent (entry : JournalEntry) : JournalEvent :=
  { sequence := entry.sequence, time := entry.time, sandboxID := entry.sandboxID, generation := entry.generation,
    method := entry.method, state := entry.state, error := entry.error }

/-- The loop of `Events`. -/
def eventScan (after limit : Nat) : List JournalEntry → List JournalEvent → List JournalEvent
  | [], events => events
  | entry :: entries, events =>
    if entry.phase ≠ .complete ∨ entry.sequence ≤ after then eventScan after limit entries events
    else
      let events := events ++ [journalEvent entry]
      if events.length = limit then events else eventScan after limit entries events

def eventLimit (limit : UInt32) : UInt32 := if limit = 0 then 128 else limit

/-- `Events`, on what `JournalEntries` returned. -/
def watchEvents (journal : Except Err (List JournalEntry)) (after : Nat) (limit : UInt32) :
    Except ReadError (List JournalEvent) :=
  if eventLimit limit > 1024 then .error ⟨.invalidArgument, "event limit must be at most 1024", false⟩
  else match journal with
  | .error _ => .error ⟨.internal, "event journal is unavailable", true⟩
  | .ok entries => .ok (eventScan after (eventLimit limit).toNat entries [])

/-! ## What a page holds -/

/-- Every entry is wanted in the audit view, completions in the event stream. -/
def anyEntry (_ : JournalEntry) : Bool := true

def completion (entry : JournalEntry) : Bool := entry.phase == .complete

/-- The metadata of an entry is valid. -/
def auditable (entry : JournalEntry) : Bool := (auditRecord entry).validate.isNone

abbrev auditPage (entries : List JournalEntry) (after limit : Nat) : List JournalEntry :=
  Feed.page JournalEntry.sequence anyEntry entries after limit

abbrev eventPage (entries : List JournalEntry) (after limit : Nat) : List JournalEntry :=
  Feed.page JournalEntry.sequence completion entries after limit

/-- A page with more entries. -/
def AuditPage.add (page : AuditPage) (es : List JournalEntry) : AuditPage :=
  { page with
    records := page.records ++ es.map auditRecord
    nextSequence := Feed.next JournalEntry.sequence page.nextSequence es }

section Scans
variable {after limit : Nat} {entries : List JournalEntry} {page : AuditPage}

@[simp] theorem AuditPage.add_nil : page.add [] = page := by
  simp [AuditPage.add]

theorem AuditPage.add_cons (entry : JournalEntry) (es : List JournalEntry) :
    page.add (entry :: es) = AuditPage.add { page with
      records := page.records ++ [auditRecord entry], nextSequence := entry.sequence } es := by
  simp [AuditPage.add, Feed.next_cons]

/-- The loop returns the next entries, or an error if one of them is invalid. -/
theorem auditScan_eq (room : Nat) (hroom : page.records.length + (room + 1) = limit) :
    auditScan after limit entries page =
      if (auditPage entries after (room + 1)).all auditable then .ok (page.add (auditPage entries after (room + 1)))
      else .error ⟨.internal, "audit journal metadata is invalid", false⟩ := by
  induction entries generalizing page room with
  | nil => simp [auditScan]
  | cons entry entries ih =>
    rw [auditScan]
    by_cases hold : entry.sequence ≤ after
    · rw [if_pos hold, auditPage, Feed.page_skip fun _ => hold]
      exact ih room hroom
    have hany : anyEntry entry := rfl
    rw [if_neg hold, auditPage, Feed.page_cons hany (Nat.not_le.1 hold)]
    by_cases hvalid : (auditRecord entry).validate = none
    · simp only [hvalid, ne_eq, not_true_eq_false, if_false, List.all_cons, auditable, Option.isNone_none, Bool.true_and,
        AuditPage.add_cons]
      cases room with
      | zero =>
        -- The page is full.
        rw [if_pos (by simpa using hroom)]
        simp [auditRecord]
      | succ room =>
        rw [if_neg (by simp only [List.length_append, List.length_singleton]; omega)]
        exact ih room (by simp only [List.length_append, List.length_singleton]; omega)
    · rw [if_pos hvalid, List.all_cons, if_neg]
      simp [auditable, hvalid]

theorem eventScan_eq {events : List JournalEvent} (room : Nat) (hroom : events.length + (room + 1) = limit) :
    eventScan after limit entries events = events ++ (eventPage entries after (room + 1)).map journalEvent := by
  induction entries generalizing events room with
  | nil => simp [eventScan]
  | cons entry entries ih =>
    rw [eventScan]
    by_cases hskip : entry.phase ≠ .complete ∨ entry.sequence ≤ after
    · rw [if_pos hskip, eventPage, Feed.page_skip fun hw => hskip.resolve_left (not_not.2 (by simpa [completion] using hw))]
      exact ih room hroom
    rw [if_neg hskip]
    simp only [not_or, not_not, Nat.not_le] at hskip
    rw [eventPage, Feed.page_cons (by simpa [completion] using hskip.1) hskip.2]
    dsimp only
    cases room with
    | zero =>
      rw [if_pos (by simpa using hroom)]
      simp
    | succ room =>
      rw [if_neg (by simp only [List.length_append, List.length_singleton]; omega)]
      have hrest : (events ++ [journalEvent entry]).length + (room + 1) = limit := by
        simp only [List.length_append, List.length_singleton]
        omega
      rw [ih room hrest]
      simp

end Scans

/-! ## The numbers of the entries -/

/-- The entries are numbered from one, and a store that is open knows the last
number. -/
structure Store.Numbered (s : Store) : Prop where
  journal : s.journal.map (·.sequence) = List.range' 1 s.journal.length
  sequence : s.journalFailed = false → s.data.sequence = s.journal.length

namespace Store
variable {s s' : Store}

theorem Numbered.mem (h : s.Numbered) {e : JournalEntry} (he : e ∈ s.journal) :
    1 ≤ e.sequence ∧ e.sequence ≤ s.journal.length := by
  have hmem : e.sequence ∈ s.journal.map (·.sequence) := List.mem_map_of_mem he
  rw [h.journal, List.mem_range'_1] at hmem
  omega

theorem Numbered.increasing (h : s.Numbered) : Feed.Increasing JournalEntry.sequence s.journal := by
  have hlt : (s.journal.map (·.sequence)).Pairwise (· < ·) := by
    rw [h.journal]
    exact List.pairwise_lt_range'
  exact List.pairwise_map.1 hlt

theorem Numbered.highWater_eq (h : s.Numbered) : highWater s.journal = s.journal.length := by
  have hlast : s.journal.getLast?.map (·.sequence) = (List.range' 1 s.journal.length).getLast? := by
    rw [← h.journal, List.getLast?_map]
  unfold highWater
  rw [hlast]
  cases hn : s.journal.length with
  | zero => rfl
  | succ n =>
    rw [List.range'_1_concat, List.getLast?_concat]
    simp [Nat.add_comm]

/-- The next entry gets the next number. -/
theorem Numbered.stamped (h : s.Numbered) (hopen : s.journalFailed = false) (e : JournalEntry) (now : Nat) :
    (s.journal ++ [s.stamp e now]).map (·.sequence) = List.range' 1 (s.journal ++ [s.stamp e now]).length := by
  rw [List.map_append, h.journal, List.length_append, List.length_singleton, List.range'_1_concat]
  simp [stamp, h.sequence hopen, Nat.add_comm]

theorem Numbered.append (h : s.Numbered) (e : JournalEntry) (now : Nat) (o : Write) : (s.append e now o).1.Numbered := by
  unfold Store.append
  split
  · exact h
  rename_i hopen
  have hopen : s.journalFailed = false := by simpa using hopen
  split
  · exact ⟨h.journal, fun hx => by cases hx⟩
  split
  · exact h
  cases o with
  | done => exact ⟨h.stamped hopen e now, fun _ => by simp [h.sequence hopen]⟩
  | refused | failed => exact h
  | unsynced => exact ⟨h.stamped hopen e now, fun hx => by cases hx⟩
  | torn => exact ⟨h.journal, fun hx => by cases hx⟩

theorem Numbered.call (h : s.Numbered) (now : Nat) (o : Write) (err : Option Err) (c : StoreCall) :
    (s.call now o err c).1.Numbered := by
  cases c with
  | result | sandbox | snapshot | journalEntries => exact h
  | append e => exact h.append e now o
  | change ch =>
    change (s.persist (s.data.change ch) o).1.Numbered
    rcases persist_cases s (s.data.change ch) o with ⟨e, _, hs, -⟩ | hs <;> rw [hs]
    · exact ⟨h.journal, h.sequence⟩
    · exact ⟨h.journal, fun hopen => (change_sequence s.data ch).trans (h.sequence hopen)⟩

theorem Numbered.reopen (h : s.Numbered) (hs : s.reopen = some s') : s'.Numbered := by
  unfold Store.reopen at hs
  simp only [Option.ite_none_left_eq_some, Option.some.injEq] at hs
  obtain ⟨-, rfl⟩ := hs
  exact ⟨h.journal, fun _ => h.highWater_eq⟩

/-- No call takes an entry from the journal. -/
theorem call_grows (s : Store) (now : Nat) (o : Write) (err : Option Err) (c : StoreCall) :
    ∃ new, (s.call now o err c).1.journal = s.journal ++ new := by
  cases c with
  | result | sandbox | snapshot | journalEntries => exact ⟨[], (List.append_nil _).symm⟩
  | append e =>
    rcases (append_cases s e now o).1 with ⟨-, hj⟩ | ⟨-, -, hj, -⟩
    · exact ⟨[], hj.trans (List.append_nil _).symm⟩
    · exact ⟨_, hj⟩
  | change ch =>
    exact ⟨[], (persist_journal s _ o).trans (List.append_nil _).symm⟩

end Store

/-! ## Clients -/

/-- A store, a client of the audit view and a client of the event stream. -/
structure Followers where
  store : Store := Store.empty
  cursor : Nat := 0
  records : List AuditRecord := []
  last : Nat := 0
  events : List JournalEvent := []

/-- What may happen next: any call of the store, a restart of the daemon, or a
page of one of the clients. -/
inductive Followers.Step where
  | store (now : Nat) (o : Write) (err : Option Err) (c : StoreCall)
  | restart
  | audit (limit : UInt32) (err : Option Err)
  | watch (limit : UInt32) (err : Option Err)

namespace Followers

/-- What `JournalEntries` returns. -/
def entries (s : Followers) (err : Option Err) : Except Err (List JournalEntry) :=
  (s.store.call 0 .done err .journalEntries).2

/-- The next page of the audit client. -/
def auditNext (s : Followers) (limit : UInt32) (err : Option Err) : Except ReadError AuditPage :=
  auditEvents (s.entries err) { afterSequence := s.cursor, limit }

/-- The next page of the other client. -/
def watchNext (s : Followers) (limit : UInt32) (err : Option Err) : Except ReadError (List JournalEvent) :=
  watchEvents (s.entries err) s.last limit

def receive (s : Followers) (page : AuditPage) : Followers :=
  { s with cursor := page.nextSequence, records := s.records ++ page.records }

def receiveEvents (s : Followers) (es : List JournalEvent) : Followers :=
  { s with last := (es.getLast?.map (·.sequence)).getD s.last, events := s.events ++ es }

def turn (s : Followers) : Step → Followers
  | .store now o err c => { s with store := (s.store.call now o err c).1 }
  | .restart => { s with store := s.store.reopen.getD s.store }
  | .audit limit err =>
    match s.auditNext limit err with
    | .error _ => s
    | .ok page => s.receive page
  | .watch limit err =>
    match s.watchNext limit err with
    | .error _ => s
    | .ok es => s.receiveEvents es

/-- After a run from an empty store. -/
def after (steps : List Step) : Followers := run turn {} steps

/-- Pages of the given limits, while there are more. -/
def follow : List UInt32 → Followers → Followers
  | [], s => s
  | limit :: limits, s =>
    match s.auditNext limit none with
    | .error _ => s
    | .ok page => if page.hasMore then follow limits (s.receive page) else s.receive page

/-- Both clients have what the journal holds up to where they are. -/
structure Faithful (s : Followers) : Prop where
  numbered : s.store.Numbered
  cursor : s.cursor ≤ s.store.journal.length
  records : s.records = (Feed.received JournalEntry.sequence anyEntry s.store.journal s.cursor).map auditRecord
  last : s.last ≤ s.store.journal.length
  events : s.events = (Feed.received JournalEntry.sequence completion s.store.journal s.last).map journalEvent

section Faithful
variable {s : Followers}

/-- Limits are positive in the end. -/
theorem pageLimit_pos (q : AuditQuery) : ∃ room, q.pageLimit.toNat = room + 1 := by
  refine Nat.exists_eq_succ_of_ne_zero fun hx => ?_
  unfold AuditQuery.pageLimit at hx
  split at hx
  · cases hx
  · rename_i hne
    exact hne (UInt32.toNat_inj.1 hx)

theorem entries_cases (err : Option Err) : s.entries err = .ok s.store.journal ∨ ∃ e, s.entries err = .error e :=
  Store.journalEntries_reply _ _ _ _

/-- The page of a readable journal: the next entries, if they are valid. -/
theorem auditNext_eq (h : s.Faithful) (hlimit : limit ≤ 512) (hread : s.entries err = .ok s.store.journal) :
    ∃ room, s.auditNext limit err =
      if (auditPage s.store.journal s.cursor (room + 1)).all auditable then
        .ok { records := (auditPage s.store.journal s.cursor (room + 1)).map auditRecord
              nextSequence := Feed.next JournalEntry.sequence s.cursor (auditPage s.store.journal s.cursor (room + 1))
              highWaterSequence := s.store.journal.length
              hasMore := decide (Feed.next JournalEntry.sequence s.cursor
                (auditPage s.store.journal s.cursor (room + 1)) < s.store.journal.length) }
      else .error ⟨.internal, "audit journal metadata is invalid", false⟩ := by
  obtain ⟨room, hroom⟩ := pageLimit_pos { afterSequence := s.cursor, limit }
  have hvalid : AuditQuery.validate { afterSequence := s.cursor, limit } = none := by
    simp only [AuditQuery.validate, ne_eq, not_true_eq_false, if_false]
    exact if_neg (by simpa using hlimit)
  refine ⟨room, ?_⟩
  unfold auditNext auditEvents
  rw [hread, hvalid]
  simp only [ne_eq, not_true_eq_false, if_false, h.numbered.highWater_eq]
  rw [if_neg (by have := h.cursor; omega), auditScan_eq room (by simpa using hroom.symm)]
  by_cases hall : (auditPage s.store.journal s.cursor (room + 1)).all auditable
  · rw [if_pos hall, if_pos hall]
    rfl
  · rw [if_neg hall, if_neg hall]

theorem auditNext_refused (hlimit : ¬limit ≤ 512) (err : Option Err) :
    ∃ issue, s.auditNext limit err = .error issue := by
  have hvalid : AuditQuery.validate { afterSequence := s.cursor, limit } ≠ none := by
    simp only [AuditQuery.validate, ne_eq, not_true_eq_false, if_false]
    rw [if_pos (by simpa using hlimit)]
    simp
  unfold auditNext auditEvents
  simp only [ne_eq, not_true_eq_false, if_false]
  rw [if_pos hvalid]
  exact ⟨_, rfl⟩

/-- Every page has the next entries, all of them valid. -/
theorem auditNext_ok (h : s.Faithful) (hpage : s.auditNext limit err = .ok page) :
    ∃ room, (auditPage s.store.journal s.cursor (room + 1)).all auditable ∧
      page.records = (auditPage s.store.journal s.cursor (room + 1)).map auditRecord ∧
      page.nextSequence = Feed.next JournalEntry.sequence s.cursor (auditPage s.store.journal s.cursor (room + 1)) ∧
      page.highWaterSequence = s.store.journal.length ∧
      page.hasMore = decide (page.nextSequence < page.highWaterSequence) := by
  by_cases hlimit : limit ≤ 512
  · rcases entries_cases (s := s) err with hread | ⟨e, hread⟩
    · obtain ⟨room, hnext⟩ := auditNext_eq h hlimit hread
      rw [hpage] at hnext
      split at hnext
      · rename_i hall
        obtain rfl := Except.ok.inj hnext
        exact ⟨room, hall, rfl, rfl, rfl, rfl⟩
      · cases hnext
    · unfold auditNext auditEvents at hpage
      simp only [hread] at hpage
      split at hpage
      · cases hpage
      · split at hpage <;> cases hpage
  · obtain ⟨issue, hissue⟩ := auditNext_refused (s := s) hlimit err
    rw [hissue] at hpage
    cases hpage

/-- Every page of the event stream has the next completions. -/
theorem watchNext_ok {es : List JournalEvent} (hes : s.watchNext limit err = .ok es) :
    ∃ room, es = (eventPage s.store.journal s.last (room + 1)).map journalEvent := by
  unfold watchNext watchEvents at hes
  split at hes
  · cases hes
  rcases entries_cases (s := s) err with hread | ⟨e, hread⟩
  · rw [hread] at hes
    obtain ⟨room, hroom⟩ := pageLimit_pos { limit }
    refine ⟨room, (Except.ok.inj hes).symm.trans ?_⟩
    exact eventScan_eq room (by simpa [AuditQuery.pageLimit, eventLimit] using hroom.symm)
  · rw [hread] at hes
    cases hes

theorem watchNext_eq (hlimit : limit ≤ 1024) (hread : s.entries err = .ok s.store.journal) :
    ∃ es, s.watchNext limit err = .ok es := by
  have hsmall : ¬eventLimit limit > 1024 := by
    unfold eventLimit
    split
    · decide
    · simpa using hlimit
  unfold watchNext watchEvents
  rw [hread, if_neg hsmall]
  exact ⟨_, rfl⟩

theorem page_append_drop (wanted : JournalEntry → Bool) (entries : List JournalEntry) (start limit : Nat) :
    Feed.pending JournalEntry.sequence wanted entries start = Feed.page JournalEntry.sequence wanted entries start limit ++
      (Feed.pending JournalEntry.sequence wanted entries start).drop limit :=
  (List.take_append_drop _ _).symm

theorem page_subset {wanted : JournalEntry → Bool} {entries : List JournalEntry} {start limit : Nat} :
    ∀ e ∈ Feed.page JournalEntry.sequence wanted entries start limit, e ∈ entries :=
  fun _ he => (Feed.mem_pending (List.mem_of_mem_take he)).1

/-- The journal grows. -/
theorem Faithful.grow (h : s.Faithful) {store : Store} (hstore : store.Numbered) {new : List JournalEntry}
    (hnew : store.journal = s.store.journal ++ new) : ({ s with store } : Followers).Faithful := by
  have hlater : ∀ e ∈ new, s.store.journal.length < e.sequence := by
    have hall := hstore.journal
    rw [hnew, List.map_append, h.numbered.journal, List.length_append, ← List.range'_append_1] at hall
    have hnum := List.append_cancel_left hall
    intro e he
    have hmem : e.sequence ∈ new.map (·.sequence) := List.mem_map_of_mem he
    rw [hnum, List.mem_range'_1] at hmem
    omega
  have hle : s.store.journal.length ≤ store.journal.length := by
    rw [hnew, List.length_append]
    omega
  refine ⟨hstore, h.cursor.trans hle, ?_, h.last.trans hle, ?_⟩
  · change s.records = (Feed.received JournalEntry.sequence anyEntry store.journal s.cursor).map auditRecord
    rw [hnew, Feed.received_append fun e he => h.cursor.trans_lt (hlater e he)]
    exact h.records
  · change s.events = (Feed.received JournalEntry.sequence completion store.journal s.last).map journalEvent
    rw [hnew, Feed.received_append fun e he => h.last.trans_lt (hlater e he)]
    exact h.events

theorem Faithful.receive (h : s.Faithful) (hpage : s.auditNext limit err = .ok page) : (s.receive page).Faithful := by
  obtain ⟨room, -, hrecords, hnext, -, -⟩ := auditNext_ok h hpage
  refine ⟨h.numbered, ?_, ?_, h.last, h.events⟩
  · change page.nextSequence ≤ _
    rw [hnext]
    exact Feed.next_le h.cursor (fun e he => (h.numbered.mem he).2) page_subset
  · change s.records ++ page.records =
      (Feed.received JournalEntry.sequence anyEntry s.store.journal page.nextSequence).map auditRecord
    have hadvance := Feed.advance h.numbered.increasing (page_append_drop anyEntry s.store.journal s.cursor (room + 1))
    rw [hnext, hadvance.1, List.map_append, ← h.records, hrecords]

theorem Faithful.receiveEvents (h : s.Faithful) {es : List JournalEvent} (hes : s.watchNext limit err = .ok es)
    : (s.receiveEvents es).Faithful := by
  obtain ⟨room, rfl⟩ := watchNext_ok hes
  have hlast : (((eventPage s.store.journal s.last (room + 1)).map journalEvent).getLast?.map (·.sequence)).getD s.last =
      Feed.next JournalEntry.sequence s.last (eventPage s.store.journal s.last (room + 1)) := by
    rw [List.getLast?_map, Option.map_map]
    rfl
  refine ⟨h.numbered, h.cursor, h.records, ?_, ?_⟩
  · change ((List.getLast? _).map _).getD s.last ≤ _
    rw [hlast]
    exact Feed.next_le h.last (fun e he => (h.numbered.mem he).2) page_subset
  · change s.events ++ _ = (Feed.received JournalEntry.sequence completion s.store.journal
      (((List.getLast? _).map _).getD s.last)).map journalEvent
    have hadvance := Feed.advance h.numbered.increasing (page_append_drop completion s.store.journal s.last (room + 1))
    rw [hlast, hadvance.1, List.map_append, ← h.events]

theorem Faithful.turn (h : s.Faithful) (step : Step) : (s.turn step).Faithful := by
  cases step with
  | store now o err c =>
    obtain ⟨new, hnew⟩ := s.store.call_grows now o err c
    exact h.grow (h.numbered.call now o err c) hnew
  | restart =>
    unfold Followers.turn
    cases hs : s.store.reopen with
    | none => exact h
    | some store =>
      refine h.grow (h.numbered.reopen hs) ((Store.reopen_cases hs).1.trans (List.append_nil _).symm)
  | audit limit err =>
    unfold Followers.turn
    dsimp only
    split
    · exact h
    · rename_i page hpage
      exact h.receive hpage
  | watch limit err =>
    unfold Followers.turn
    dsimp only
    split
    · exact h
    · rename_i es hes
      exact h.receiveEvents hes

theorem faithful_after (steps : List Step) : (after steps).Faithful :=
  (conforms_of_forall (K := fun _ _ => True) (fun _ _ => trivial) _ steps).inv
    ⟨⟨rfl, fun _ => rfl⟩, le_rfl, rfl, le_rfl, rfl⟩ fun _ step hs _ => hs.turn step

end Faithful

/-! ## Following to the end -/

section Follow
variable {s : Followers}

/-- An open store can be read. -/
theorem entries_open (h : s.store.journalFailed = false) : s.entries none = .ok s.store.journal := by
  simp [entries, Store.call, h]

/-- The entries the audit client has yet to get. -/
abbrev unread (s : Followers) : List JournalEntry := Feed.pending JournalEntry.sequence anyEntry s.store.journal s.cursor

abbrev unseen (s : Followers) : List JournalEntry := Feed.pending JournalEntry.sequence completion s.store.journal s.last

theorem Faithful.unread_eq_nil (h : s.Faithful) : s.unread = [] ↔ s.store.journal.length ≤ s.cursor := by
  constructor
  · intro hnil
    cases hn : s.store.journal.length with
    | zero => exact Nat.zero_le _
    | succ n =>
      -- The last entry has the last number.
      have hmem : n + 1 ∈ s.store.journal.map (·.sequence) := by
        rw [h.numbered.journal, hn, List.mem_range'_1]
        omega
      obtain ⟨e, he, hseq⟩ := List.mem_map.1 hmem
      have hread := List.filter_eq_nil_iff.1 hnil e he
      simp only [anyEntry, Bool.true_and, decide_eq_true_eq, Nat.not_lt] at hread
      omega
  · intro hend
    refine List.filter_eq_nil_iff.2 fun e he => ?_
    have hle := (h.numbered.mem he).2
    simp only [anyEntry, Bool.true_and, decide_eq_true_eq]
    omega

/-- With nothing left to get, the client has the whole journal. -/
theorem Faithful.records_all (h : s.Faithful) (hnone : s.unread = []) : s.records = s.store.journal.map auditRecord := by
  have hall : s.store.journal.filter anyEntry = s.store.journal := List.filter_eq_self.2 fun _ _ => rfl
  rw [h.records, Feed.received_of_pending h.numbered.increasing hnone, hall]

theorem Faithful.events_all (h : s.Faithful) (hnone : s.unseen = []) :
    s.events = (s.store.journal.filter completion).map journalEvent := by
  rw [h.events, Feed.received_of_pending h.numbered.increasing hnone]

/-- What a page leaves unread. -/
theorem Faithful.unread_receive (h : s.Faithful) (hpage : s.auditNext limit err = .ok page)
    : ∃ room, (s.receive page).unread = s.unread.drop (room + 1) := by
  obtain ⟨room, -, -, hnext, -, -⟩ := auditNext_ok h hpage
  refine ⟨room, ?_⟩
  change Feed.pending JournalEntry.sequence anyEntry s.store.journal page.nextSequence = _
  rw [hnext]
  exact (Feed.advance h.numbered.increasing (page_append_drop anyEntry s.store.journal s.cursor (room + 1))).2

theorem Faithful.hasMore_iff (h : s.Faithful) (hpage : s.auditNext limit err = .ok page) :
    page.highWaterSequence = s.store.journal.length ∧ (page.hasMore = false ↔ page.nextSequence = page.highWaterSequence) := by
  obtain ⟨room, -, -, -, hhigh, hmore⟩ := auditNext_ok h hpage
  have hle : page.nextSequence ≤ s.store.journal.length := (h.receive hpage).cursor
  refine ⟨hhigh, ?_⟩
  rw [hmore, hhigh, decide_eq_false_iff_not]
  omega

/-- There is more exactly while entries are unread. -/
theorem Faithful.hasMore_iff_unread (h : s.Faithful) (hpage : s.auditNext limit err = .ok page)
    : page.hasMore ↔ (s.receive page).unread ≠ [] := by
  obtain ⟨room, -, -, -, hhigh, hmore⟩ := auditNext_ok h hpage
  rw [ne_eq, (h.receive hpage).unread_eq_nil, hmore, decide_eq_true_eq, hhigh]
  exact Nat.not_le.symm

/-- Valid entries are all received, in as many pages as there are entries. -/
theorem Faithful.follow_all {limits : List UInt32} (h : s.Faithful) (hopen : s.store.journalFailed = false)
    (hlimits : ∀ l ∈ limits, l ≤ 512) (hvalid : ∀ e ∈ s.unread, auditable e) (henough : s.unread.length < limits.length) :
    (follow limits s).records = s.store.journal.map auditRecord := by
  induction limits generalizing s with
  | nil => exact absurd henough (Nat.not_lt_zero _)
  | cons limit limits ih =>
    obtain ⟨page, hpage⟩ : ∃ page, s.auditNext limit none = .ok page := by
      obtain ⟨room, hnext⟩ := auditNext_eq h (hlimits limit List.mem_cons_self) (entries_open hopen)
      have hall : (auditPage s.store.journal s.cursor (room + 1)).all auditable :=
        List.all_eq_true.2 fun e he => hvalid e (List.mem_of_mem_take he)
      rw [if_pos hall] at hnext
      exact ⟨_, hnext⟩
    have hreceived := h.receive hpage
    obtain ⟨room, hunread⟩ := h.unread_receive hpage
    unfold follow
    rw [hpage]
    dsimp only
    by_cases hmore : page.hasMore
    · rw [if_pos hmore]
      refine ih hreceived hopen (fun l hl => hlimits l (List.mem_cons_of_mem _ hl)) (fun e he => hvalid e ?_) ?_
      · rw [hunread] at he
        exact List.mem_of_mem_drop he
      · have hleft := (h.hasMore_iff_unread hpage).1 hmore
        have hpos := List.length_pos_of_ne_nil hleft
        rw [hunread, List.length_drop] at hpos ⊢
        simp only [List.length_cons] at henough
        omega
    · rw [if_neg hmore]
      refine hreceived.records_all ?_
      by_contra hleft
      exact hmore ((h.hasMore_iff_unread hpage).2 hleft)

/-- What a client gets by following is valid. -/
theorem Faithful.follow_valid (h : s.Faithful) (limits : List UInt32) :
    ∃ new, (follow limits s).records = s.records ++ new ∧ ∀ r ∈ new, r.validate = none := by
  induction limits generalizing s with
  | nil => exact ⟨[], (List.append_nil _).symm, fun r hr => by cases hr⟩
  | cons limit limits ih =>
    unfold follow
    cases hpage : s.auditNext limit none with
    | error issue => exact ⟨[], (List.append_nil _).symm, fun r hr => by cases hr⟩
    | ok page =>
      obtain ⟨room, hall, hrecords, -, -, -⟩ := auditNext_ok h hpage
      have hvalid : ∀ r ∈ page.records, r.validate = none := by
        rw [hrecords]
        intro r hr
        obtain ⟨e, he, rfl⟩ := List.mem_map.1 hr
        simpa [auditable] using List.all_eq_true.1 hall e he
      dsimp only
      split
      · obtain ⟨new, hnew, hrest⟩ := ih (h.receive hpage)
        refine ⟨page.records ++ new, by rw [hnew, ← List.append_assoc]; rfl, fun r hr => ?_⟩
        rcases List.mem_append.1 hr with hr | hr
        · exact hvalid r hr
        · exact hrest r hr
      · exact ⟨page.records, rfl, hvalid⟩

/-- All completions are received, in as many pages as there are of them. -/
theorem Faithful.watch_all {limits : List UInt32} (h : s.Faithful) (hopen : s.store.journalFailed = false)
    (hlimits : ∀ l ∈ limits, l ≤ 1024) (henough : s.unseen.length ≤ limits.length) :
    (run Followers.turn s (limits.map fun l => .watch l none)).events =
      (s.store.journal.filter completion).map journalEvent := by
  induction limits generalizing s with
  | nil => exact h.events_all (List.eq_nil_of_length_eq_zero (Nat.le_zero.1 henough))
  | cons limit limits ih =>
    obtain ⟨es, hes⟩ := watchNext_eq (hlimits limit List.mem_cons_self) (entries_open hopen)
    have hturn : s.turn (.watch limit none) = s.receiveEvents es := by
      simp only [Followers.turn, hes]
    have hunseen : ∃ room, (s.receiveEvents es).unseen = s.unseen.drop (room + 1) := by
      obtain ⟨room, rfl⟩ := watchNext_ok hes
      refine ⟨room, ?_⟩
      have hadvance := Feed.advance h.numbered.increasing (page_append_drop completion s.store.journal s.last (room + 1))
      rw [← hadvance.2]
      change Feed.pending JournalEntry.sequence completion s.store.journal
        (((List.map journalEvent _).getLast?.map (·.sequence)).getD s.last) = _
      rw [List.getLast?_map, Option.map_map]
      rfl
    obtain ⟨room, hunseen⟩ := hunseen
    rw [List.map_cons, run_cons, hturn]
    refine ih (h.receiveEvents hes) hopen (fun l hl => hlimits l (List.mem_cons_of_mem _ hl)) ?_
    rw [hunseen, List.length_drop]
    simp only [List.length_cons] at henough
    omega

end Follow

/-- The two clients of a journal: what they have, what each page says, and that
they come to its end. -/
structure Complete (s : Followers) : Prop where
  /-- The records of the journal are in sequence. -/
  numbered : s.store.journal.map (·.sequence) = List.range' 1 s.store.journal.length
  /-- The audit client has each record up to its cursor once, in order. -/
  records : s.records = (s.store.journal.filter fun e => decide (e.sequence ≤ s.cursor)).map auditRecord
  /-- So does the other client with completions. -/
  events : s.events =
    (s.store.journal.filter fun e => completion e && decide (e.sequence ≤ s.last)).map journalEvent
  /-- There is no more exactly at the high-water mark. -/
  hasMore : ∀ limit err page, s.auditNext limit err = .ok page →
    page.highWaterSequence = s.store.journal.length ∧ (page.hasMore = false ↔ page.nextSequence = page.highWaterSequence)
  /-- Following `HasMore` brings the audit client to the end, exactly if the
  metadata of what it has yet to get is valid. -/
  audit : s.store.journalFailed = false →
    ((∀ limits : List UInt32, (∀ l ∈ limits, l ≤ 512) → s.store.journal.length < limits.length →
        (follow limits s).records = s.store.journal.map auditRecord) ↔
      ∀ e ∈ s.store.journal, s.cursor < e.sequence → auditable e)
  /-- Asking on brings the other client to the end. -/
  watch : s.store.journalFailed = false → ∀ limits : List UInt32, (∀ l ∈ limits, l ≤ 1024) →
    s.store.journal.length ≤ limits.length →
    (run turn s (limits.map fun l => .watch l none)).events = (s.store.journal.filter completion).map journalEvent

/-- After every run of store calls, restarts and pages: paging is complete. -/
theorem paging_complete (steps : List Step) : (after steps).Complete := by
  have h := faithful_after steps
  generalize after steps = s at h
  refine ⟨h.numbered.journal, h.records, h.events, fun _ _ _ => h.hasMore_iff, fun hopen => ?_, fun hopen limits hlimits hn => ?_⟩
  · have hunread : (∀ e ∈ s.unread, auditable e) ↔ ∀ e ∈ s.store.journal, s.cursor < e.sequence → auditable e := by
      simp [Feed.pending, anyEntry]
    rw [← hunread]
    constructor
    · intro hall e he
      obtain ⟨new, hnew, hvalid⟩ := h.follow_valid (List.replicate (s.store.journal.length + 1) 0)
      rw [hall _ (fun l hl => by rw [List.eq_of_mem_replicate hl]; decide) (by simp)] at hnew
      have hsplit := Feed.received_append_pending h.numbered.increasing anyEntry s.cursor
      have heach : s.store.journal.filter anyEntry = s.store.journal := List.filter_eq_self.2 fun _ _ => rfl
      rw [heach] at hsplit
      rw [← hsplit, List.map_append, ← h.records] at hnew
      have hrest := List.append_cancel_left hnew
      have hrecord := hvalid (auditRecord e) (hrest ▸ List.mem_map_of_mem he)
      simp [auditable, hrecord]
    · intro hvalid limits hlimits hn
      exact h.follow_all hopen hlimits hvalid ((List.length_filter_le _ _).trans_lt hn)
  · exact h.watch_all hopen hlimits ((List.length_filter_le _ _).trans hn)

/-- An entry the store accepts, with an operation ID that does not print. -/
def oddEntry : JournalEntry :=
  { operationID := "op\t1", idempotencyKey := "k", fingerprint := .target .loadSandbox "box" "g", sandboxID := "box",
    generation := "0123456789abcdef0123456789abcdef", method := .loadSandbox, phase := .intent, state := .created,
    sandbox := none }

def oddJournal : List Step := [.store 1 .done none (.append oddEntry)]

/-- Such an entry stops the audit client before it. -/
theorem oddJournal_unread : (after oddJournal).store.journal.length = 1 ∧ (after oddJournal).store.journalFailed = false ∧
    (after oddJournal).auditNext 0 none = .error ⟨.internal, "audit journal metadata is invalid", false⟩ ∧
    (follow [0, 0] (after oddJournal)).records = [] :=
  ⟨by decide +kernel, by decide +kernel, rfl, by decide +kernel⟩

end Followers

end Multikernel
