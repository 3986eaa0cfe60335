import Mathlib.Data.List.Basic
import Multikernel.Lib.Logic
import Multikernel.Lib.Runs
/-!
# The shim's event journal

`runtime/cmd/containerd-shim-multikernel-v2/event_journal.go`: an event is
queued in memory and in the journal file before it is delivered, and leaves both
once the broker has taken it. Every function holds `eventMu` while it works on
the queue, and `publish` queues its event and flushes in two such sections, so a
run of the shim is a sequence of sections, of crashes and of restarts.

A persist that fails leaves the old journal or the new one, and a delivery that
fails may have reached the broker. `Shim.at_least_once`: first deliveries are in
the order in which the events were queued, and an event that was queued is in
the file until the broker has it.
-/

namespace Multikernel.Events
open Lib

/-! ## The journal -/

/-- The Task events. -/
inductive Kind where
  | create | start | execAdded | execStarted | exit | delete | paused | resumed
  deriving DecidableEq, Repr

/-- `supportedEventTopics` has one topic for each. -/
inductive Topic where
  | task (kind : Kind)
  | other (name : String)
  deriving DecidableEq, Repr

def Topic.supported : Topic → Bool
  | .task _ => true
  | .other _ => false

/-- `none` is a payload of some other type. -/
def eventMatchesTopic (topic : Topic) (event : Option Kind) : Bool :=
  match topic with
  | .task kind => event == some kind
  | .other _ => false

/-- `publication` is a history variable: the number of the `publish` call that
queued the event. -/
structure PersistedEvent where
  sequence : Nat
  topic : Topic
  typeURL : String
  value : List UInt8
  publication : Nat
  deriving DecidableEq, Repr

structure EventJournal where
  schemaVersion : Nat := 1
  nextSequence : Nat := 1
  pending : List PersistedEvent := []
  deriving DecidableEq, Repr

def maxPendingEvents : Nat := 4096

/-- `typeurl.UnmarshalAny`: `none` if it fails. -/
abbrev Unmarshal := String → List UInt8 → Option (Option Kind)

/-- The loop of `validateEventJournal`. -/
def validatePending (unmarshal : Unmarshal) (nextSequence : Nat) : Nat → List PersistedEvent → Option String
  | _, [] => none
  | previous, event :: events =>
    if event.sequence = 0 ∨ event.sequence ≥ nextSequence ∨ event.sequence ≤ previous ∨ ¬event.topic.supported ∨
        event.typeURL = "" ∨ event.typeURL.utf8ByteSize > 256 ∨ event.value.length > 1048576 then
      some "event journal contains an invalid pending event"
    else
      match unmarshal event.typeURL event.value with
      | none => some "event journal contains an undecodable event"
      | some decoded =>
        if ¬eventMatchesTopic event.topic decoded then
          some "event journal topic and payload type differ"
        else
          validatePending unmarshal nextSequence event.sequence events

def validateEventJournal (unmarshal : Unmarshal) (value : EventJournal) : Option String :=
  if value.schemaVersion ≠ 1 ∨ value.nextSequence = 0 ∨ value.pending.length > maxPendingEvents then
    some "event journal identity or bounds are invalid"
  else
    validatePending unmarshal value.nextSequence 0 value.pending

/-! ## Calls -/

inductive Call where
  /-- Publish the journal, or remove the file. -/
  | persist (journal : Option EventJournal)
  /-- `publisher.Publish`. -/
  | deliver (event : PersistedEvent)
  | read
  deriving DecidableEq

def Call.Reply : Call → Type
  | .persist _ | .deliver _ => Option String
  | .read => Except String (Option EventJournal)

/-- What is outside the process. `delivered` has the publications that the broker
has taken, in order, each as often as it was taken. -/
structure World where
  file : Option EventJournal := none
  delivered : List Nat := []
  deriving DecidableEq

/-- A call works, or it fails, with or without its effect. -/
inductive Answer where
  | works
  | fails (effect : Bool)
  deriving DecidableEq, Repr

def Answer.takesEffect : Answer → Bool
  | .works => true
  | .fails effect => effect

def Answer.error : Answer → Option String
  | .works => none
  | .fails _ => some "failed"

def step (w : World) (c : Call) (a : Answer) : World × c.Reply :=
  match c with
  | .persist journal => (if a.takesEffect then { w with file := journal } else w, a.error)
  | .deliver event =>
    (if a.takesEffect then { w with delivered := w.delivered ++ [event.publication] } else w, a.error)
  | .read =>
    (w, match a with
      | .works => .ok w.file
      | .fails _ => .error "failed")

abbrev EventI : Interface := ⟨Call, Call.Reply⟩

abbrev Host : Machine EventI := ⟨World, Answer, step⟩

abbrev Act := Prog EventI

def perform (c : Call) : Act c.Reply := Prog.perform (I := EventI) c

/-! ## The sections -/

section Sections
variable (unmarshal : Unmarshal)

def loadEventJournal (events : EventJournal) : Act (Except String EventJournal) := do
  match ← perform .read with
  | .error text => return .error ("read event journal: " ++ text)
  | .ok none => return .ok (if events.nextSequence = 0 then {} else events)
  | .ok (some value) =>
    match validateEventJournal unmarshal value with
    | some text => return .error text
    | none => return .ok value

def persistEventJournalLocked (events : EventJournal) : Act (Option String) := do
  match validateEventJournal unmarshal events with
  | some text => return some text
  | none => perform (.persist (if events.pending = [] then none else some events))

/-- The loop of `flushEvents`, with what it leaves in the queue. -/
def flushPending (events : EventJournal) : List PersistedEvent → Act (Option String × List PersistedEvent)
  | [] => return (none, [])
  | next :: rest => do
    match unmarshal next.typeURL next.value with
    | none => return (some "unmarshal", next :: rest)
    | some _ =>
      match ← perform (.deliver next) with
      | some text => return (some text, next :: rest)
      | none =>
        match ← persistEventJournalLocked unmarshal { events with pending := rest } with
        | some text => return (some ("acknowledge published event: " ++ text), next :: rest)
        | none => flushPending events rest

def flushEvents (events : EventJournal) : Act (Option String × EventJournal) := do
  let (err, pending) ← flushPending unmarshal events events.pending
  return (err, { events with pending := pending })

/-- The arguments of `publish`: `encoded` is what `typeurl.MarshalAny` makes of
the event, unless it fails. -/
structure Publication where
  topic : Topic
  event : Option Kind
  encoded : Option (String × List UInt8)
  deriving DecidableEq, Repr

/-- `publish` up to its `flushEvents`. -/
def enqueue (events : EventJournal) (p : Publication) (publication : Nat) : Act (Option String × EventJournal) := do
  match p.encoded with
  | none => return (some "marshal", events)
  | some (typeURL, value) =>
    if ¬eventMatchesTopic p.topic p.event then
      return (some "event topic and payload type differ", events)
    if events.pending.length ≥ maxPendingEvents then
      return (some "event journal pending limit reached", events)
    let events := if events.nextSequence = 0 then {} else events
    let queued := { events with
      pending := events.pending ++ [⟨events.nextSequence, p.topic, typeURL, value, publication⟩]
      nextSequence := events.nextSequence + 1 }
    match ← persistEventJournalLocked unmarshal queued with
    | some text =>
      return (some ("persist event before publication: " ++ text),
        { queued with pending := queued.pending.dropLast, nextSequence := queued.nextSequence - 1 })
    | none => return (none, queued)

end Sections

/-! ## Runs -/

/-- The shim on its host. `events` is what it has in memory, if it runs.
`publications` counts the `publish` calls so far and `succeeded` has those that
queued their event, in that order: `publish` then returns success. -/
structure Shim where
  world : World := {}
  events : Option EventJournal := none
  publications : Nat := 0
  succeeded : List Nat := []
  deriving DecidableEq

inductive Section where
  | enqueue (p : Publication)
  | flush
  /-- A new process, whatever became of the one before it. -/
  | start
  deriving DecidableEq, Repr

/-- The answers may end before the section does: the shim dies there. -/
structure Turn where
  op : Section
  answers : List Answer
  deriving DecidableEq, Repr

def Shim.turn (unmarshal : Unmarshal) (s : Shim) (t : Turn) : Shim :=
  match t.op, s.events with
  | .start, _ =>
    let x := exec Host (loadEventJournal unmarshal {}) s.world t.answers
    { s with world := x.1, events := x.2.bind Except.toOption }
  | _, none => s
  | .flush, some events =>
    let x := exec Host (flushEvents unmarshal events) s.world t.answers
    { s with world := x.1, events := x.2.map (·.2) }
  | .enqueue p, some events =>
    let x := exec Host (enqueue unmarshal events p s.publications) s.world t.answers
    { s with
      world := x.1
      events := x.2.map (·.2)
      publications := s.publications + 1
      succeeded := if x.2.map (·.1) = some none then s.succeeded ++ [s.publications] else s.succeeded }

/-! ## What a section keeps -/

def publications (pending : List PersistedEvent) : List Nat := pending.map (·.publication)

def World.journaled (w : World) : List Nat := publications ((w.file.map (·.pending)).getD [])

/-- The events that were queued and that the broker does not have yet. -/
def waiting (succeeded delivered : List Nat) : List Nat := succeeded.filter fun n => n ∉ delivered

/-- First deliveries follow the order of success. -/
def InOrder (succeeded delivered : List Nat) : Prop :=
  ∀ a b, [a, b].Sublist succeeded → b ∈ delivered → a ∈ delivered ∧ delivered.idxOf a < delivered.idxOf b

/-- A queue that still has everything to be delivered, in order, and nothing
from a `publish` to come. -/
structure Queued (succeeded delivered : List Nat) (bound : Nat) (queue : List Nat) : Prop where
  holds : (waiting succeeded delivered).Sublist queue
  nodup : queue.Nodup
  below : ∀ n ∈ queue, n < bound

structure Kept (succeeded : List Nat) (bound : Nat) (w : World) : Prop where
  file : Queued succeeded w.delivered bound w.journaled
  order : InOrder succeeded w.delivered
  below : ∀ n ∈ w.delivered, n < bound

section Lists
variable {succeeded delivered queue : List Nat} {bound n : Nat}

theorem waiting_delivered : waiting succeeded (delivered ++ [n]) = (waiting succeeded delivered).filter (· ≠ n) := by
  simp only [waiting, List.filter_filter]
  congr 1
  funext m
  by_cases h : m = n <;> simp [h]

theorem waiting_delivered_sublist : (waiting succeeded (delivered ++ [n])).Sublist (waiting succeeded delivered) := by
  rw [waiting_delivered]
  exact List.filter_sublist

/-- A queue keeps what it has to when the broker takes an event. -/
theorem Queued.taken (h : Queued succeeded delivered bound queue) : Queued succeeded (delivered ++ [n]) bound queue :=
  ⟨waiting_delivered_sublist.trans h.holds, h.nodup, h.below⟩

/-- And also without that event, if it was the first one. -/
theorem Queued.rest {rest : List Nat} (h : Queued succeeded delivered bound (n :: rest)) :
    Queued succeeded (delivered ++ [n]) bound rest := by
  obtain ⟨hn, hnodup⟩ := List.nodup_cons.1 h.nodup
  refine ⟨?_, hnodup, fun m hm => h.below m (List.mem_cons_of_mem n hm)⟩
  rw [waiting_delivered]
  have hfilter := h.holds.filter (· ≠ n)
  rw [List.filter_cons, if_neg (by simp)] at hfilter
  exact hfilter.trans List.filter_sublist

/-- The first event of a queue may be delivered. -/
theorem InOrder.taken {rest : List Nat} (h : InOrder succeeded delivered) (hq : Queued succeeded delivered bound (n :: rest)) :
    InOrder succeeded (delivered ++ [n]) := by
  intro a b hab hb
  by_cases hold : b ∈ delivered
  · obtain ⟨ha, hlt⟩ := h a b hab hold
    refine ⟨List.mem_append_left _ ha, ?_⟩
    rwa [List.idxOf_append_of_mem ha, List.idxOf_append_of_mem hold]
  -- `b` is the event just delivered. Were `a` still waiting, the queue would
  -- have it before `b`, its first event.
  obtain rfl : b = n := by simpa [hold] using hb
  have ha : a ∈ delivered := by
    by_contra ha
    have hboth : [a, b].Sublist (waiting succeeded delivered) := by
      have hfilter := hab.filter fun m => decide (m ∉ delivered)
      rwa [List.filter_cons, if_pos (by simpa using ha), List.filter_cons, if_pos (by simpa using hold), List.filter_nil] at hfilter
    have hqueue := hboth.trans hq.holds
    obtain ⟨hnot, -⟩ := List.nodup_cons.1 hq.nodup
    cases hqueue with
    | cons _ hrest => exact hnot (hrest.subset (by simp))
    | cons_cons _ hrest => exact hnot (hrest.subset (by simp))
  refine ⟨List.mem_append_left _ ha, ?_⟩
  rw [List.idxOf_append_of_mem ha, List.idxOf_append_of_notMem hold]
  have := List.idxOf_lt_length_of_mem ha
  omega

/-- A new event is queued behind the others. -/
theorem Queued.enqueued (h : Queued succeeded delivered bound queue) :
    Queued succeeded delivered (bound + 1) (queue ++ [bound]) := by
  refine ⟨h.holds.trans (List.sublist_append_left _ _), ?_, fun m hm => ?_⟩
  · rw [List.nodup_append]
    refine ⟨h.nodup, by simp, ?_⟩
    intro m hm k hk heq
    have := h.below m hm
    simp only [List.mem_singleton] at hk
    omega
  · rcases List.mem_append.1 hm with hm | hm
    · exact Nat.lt_succ_of_lt (h.below m hm)
    · simp only [List.mem_singleton] at hm
      omega

theorem Queued.succ (h : Queued succeeded delivered bound queue) : Queued succeeded delivered (bound + 1) queue :=
  ⟨h.holds, h.nodup, fun n hn => Nat.lt_succ_of_lt (h.below n hn)⟩

/-- The new event has succeeded. -/
theorem Queued.published (h : Queued succeeded delivered bound queue) (hbelow : ∀ n ∈ delivered, n < bound) :
    Queued (succeeded ++ [bound]) delivered (bound + 1) (queue ++ [bound]) := by
  refine ⟨?_, h.enqueued.nodup, h.enqueued.below⟩
  have hnew : bound ∉ delivered := fun hmem => Nat.lt_irrefl _ (hbelow bound hmem)
  have hwaiting : waiting (succeeded ++ [bound]) delivered = waiting succeeded delivered ++ [bound] := by
    simp [waiting, hnew]
  rw [hwaiting]
  exact h.holds.append (List.Sublist.refl _)

theorem InOrder.published (h : InOrder succeeded delivered) (hbelow : ∀ n ∈ delivered, n < bound) :
    InOrder (succeeded ++ [bound]) delivered := by
  intro a b hab hb
  have hne : b ≠ bound := fun heq => Nat.lt_irrefl _ (heq ▸ hbelow b hb)
  refine h a b ?_ hb
  obtain ⟨l, m, hlm, hl, hm⟩ := List.sublist_append_iff.1 hab
  -- The last event is not `b`, so nothing of the pair is in the second part.
  have hnil : m = [] := by
    obtain rfl | ⟨m, x, rfl⟩ := List.eq_nil_or_concat m
    · rfl
    · rw [List.concat_eq_append] at hlm hm
      rw [← List.append_assoc] at hlm
      obtain ⟨-, hx⟩ := List.append_inj' (show [a] ++ [b] = (l ++ m) ++ [x] from hlm) rfl
      cases hx
      have hmem := hm.subset (List.mem_append_right m (List.mem_singleton_self b))
      exact absurd (List.mem_singleton.1 hmem) hne
  rw [hnil, List.append_nil] at hlm
  rwa [hlm]

end Lists

section Keeps
variable {u : Unmarshal} {succeeded : List Nat} {bound : Nat} {w : World} {events : EventJournal}

theorem Kept.succ (h : Kept succeeded bound w) : Kept succeeded (bound + 1) w :=
  ⟨h.file.succ, h.order, fun n hn => Nat.lt_succ_of_lt (h.below n hn)⟩

theorem journaled_persist :
    World.journaled ⟨if events.pending = [] then none else some events, w.delivered⟩ = publications events.pending := by
  by_cases h : events.pending = []
  · simp [World.journaled, h]
  · simp [World.journaled, h]

theorem kept_persist (hw : Kept succeeded bound w) (hq : Queued succeeded w.delivered bound (publications events.pending)) :
    Sat (Host.trans fun _ _ _ => True) (fun w _ => Kept succeeded bound w) (persistEventJournalLocked u events) w
      fun r w' => Kept succeeded bound w' ∧ w'.delivered = w.delivered ∧
        (r = none → w'.journaled = publications events.pending) := by
  unfold persistEventJournalLocked
  split
  · exact ⟨hw, rfl, by simp⟩
  · refine ⟨hw, fun r w' hr => ?_⟩
    obtain ⟨a, -, hstep⟩ := hr
    have hnew : Kept succeeded bound ⟨if events.pending = [] then none else some events, w.delivered⟩ :=
      ⟨by rw [journaled_persist]; exact hq, hw.order, hw.below⟩
    cases a with
    | works =>
      cases hstep
      exact ⟨hnew, rfl, fun _ => journaled_persist⟩
    | fails effect =>
      cases effect with
      | false =>
        cases hstep
        exact ⟨hw, rfl, by simp [Answer.error]⟩
      | true =>
        cases hstep
        exact ⟨hnew, rfl, by simp [Answer.error]⟩

theorem kept_flushPending (pending : List PersistedEvent) (hw : Kept succeeded bound w)
    (hq : Queued succeeded w.delivered bound (publications pending)) :
    Sat (Host.trans fun _ _ _ => True) (fun w _ => Kept succeeded bound w) (flushPending u events pending) w
      fun r w' => Kept succeeded bound w' ∧ Queued succeeded w'.delivered bound (publications r.2) := by
  induction pending generalizing w with
  | nil => exact ⟨hw, hq⟩
  | cons next rest ih =>
    unfold flushPending
    split
    · exact ⟨hw, hq⟩
    refine ⟨hw, fun r w₁ h₁ => ?_⟩
    obtain ⟨a, -, hstep⟩ := h₁
    -- The broker has the event, whatever it answered.
    have htaken : Kept succeeded bound { w with delivered := w.delivered ++ [next.publication] } := by
      refine ⟨hw.file.taken, hw.order.taken hq, fun n hn => ?_⟩
      rcases List.mem_append.1 hn with hn | hn
      · exact hw.below n hn
      · rw [List.mem_singleton.1 hn]
        exact hq.below _ (List.mem_cons_self ..)
    cases a with
    | fails effect =>
      cases effect with
      | false =>
        cases hstep
        exact ⟨hw, hq⟩
      | true =>
        cases hstep
        exact ⟨htaken, hq.taken⟩
    | works =>
      cases hstep
      refine (kept_persist htaken (by exact hq.rest)).bind fun r w₂ h₂ => ?_
      obtain ⟨hw₂, hdelivered, -⟩ := h₂
      cases r with
      | some text => exact ⟨hw₂, by rw [hdelivered]; exact hq.taken⟩
      | none => exact ih hw₂ (by rw [hdelivered]; exact hq.rest)

/-- What a running shim has in memory. -/
structure Ready (succeeded delivered : List Nat) (bound : Nat) (events : EventJournal) : Prop where
  started : events.nextSequence ≠ 0
  queued : Queued succeeded delivered bound (publications events.pending)

theorem kept_flushEvents (hw : Kept succeeded bound w) (he : Ready succeeded w.delivered bound events) :
    Sat (Host.trans fun _ _ _ => True) (fun w _ => Kept succeeded bound w) (flushEvents u events) w
      fun r w' => Kept succeeded bound w' ∧ Ready succeeded w'.delivered bound r.2 :=
  (kept_flushPending events.pending hw he.queued).bind fun _ _ h => ⟨h.1, he.started, h.2⟩

/-- Past its checks `publish` leaves the event in memory and in the file, or not
in memory. -/
theorem kept_enqueue {p : Publication} (hw : Kept succeeded bound w) (he : Ready succeeded w.delivered bound events) :
    Sat (Host.trans fun _ _ _ => True) (fun w _ => Kept succeeded (bound + 1) w) (enqueue u events p bound) w
      fun r w' => Kept succeeded (bound + 1) w' ∧ w'.delivered = w.delivered ∧
        ((r.1 ≠ none ∧ Ready succeeded w.delivered (bound + 1) r.2) ∨
          (r.1 = none ∧ r.2.nextSequence ≠ 0 ∧ publications r.2.pending = publications events.pending ++ [bound] ∧
            w'.journaled = publications events.pending ++ [bound])) := by
  have hrefused : ∀ text : String, ((some text, events) : Option String × EventJournal).1 ≠ none ∧
      Ready succeeded w.delivered (bound + 1) events := fun text => ⟨by simp, he.started, he.queued.succ⟩
  unfold enqueue
  split
  · exact ⟨hw.succ, rfl, .inl (hrefused _)⟩
  rename_i typeURL value _
  refine Sat.unless ⟨hw.succ, rfl, .inl (hrefused _)⟩ fun _ => ?_
  refine Sat.unless ⟨hw.succ, rfl, .inl (hrefused _)⟩ fun _ => ?_
  rw [if_neg he.started]
  have hqueue : publications (events.pending ++ [⟨events.nextSequence, p.topic, typeURL, value, bound⟩]) =
      publications events.pending ++ [bound] := by simp [publications]
  refine (kept_persist hw.succ (by rw [hqueue]; exact he.queued.enqueued)).bind fun r w₁ h₁ => ?_
  obtain ⟨hw₁, hdelivered, hfile⟩ := h₁
  rw [hqueue] at hfile
  cases r with
  | some text =>
    refine ⟨hw₁, hdelivered, .inl ⟨by simp, ?_, ?_⟩⟩
    · exact he.started
    · simpa using he.queued.succ
  | none => exact ⟨hw₁, hdelivered, .inr ⟨rfl, by simp, hqueue, hfile rfl⟩⟩

theorem kept_loadEventJournal (hw : Kept succeeded bound w) :
    Sat (Host.trans fun _ _ _ => True) (fun w _ => Kept succeeded bound w) (loadEventJournal u {}) w
      fun r w' => Kept succeeded bound w' ∧ ∀ events, r = .ok events → Ready succeeded w'.delivered bound events := by
  refine ⟨hw, fun r w₁ h₁ => ?_⟩
  obtain ⟨a, -, hstep⟩ := h₁
  cases a with
  | fails effect =>
    cases hstep
    exact ⟨hw, by simp⟩
  | works =>
    cases hstep
    have hfile := hw.file
    cases hjournal : w.file with
    | none =>
      rw [World.journaled, hjournal] at hfile
      refine ⟨hw, ?_⟩
      rintro events ⟨⟩
      exact ⟨by simp, hfile⟩
    | some value =>
      rw [World.journaled, hjournal] at hfile
      dsimp only [Prog.bind]
      split
      · exact ⟨hw, by simp⟩
      · rename_i hvalid
        refine ⟨hw, ?_⟩
        rintro events ⟨⟩
        refine ⟨fun hzero => ?_, hfile⟩
        rw [validateEventJournal, if_pos (.inr (.inl hzero))] at hvalid
        cases hvalid

end Keeps

/-! ## Every run -/

structure Sound (s : Shim) : Prop where
  kept : Kept s.succeeded s.publications s.world
  ready : ∀ events, s.events = some events → Ready s.succeeded s.world.delivered s.publications events

section Turn
variable {unmarshal : Unmarshal} {s : Shim} (h : Sound s) (answers : List Answer)
include h

theorem sound_start : Sound (s.turn unmarshal ⟨.start, answers⟩) := by
  have hload := kept_loadEventJournal (u := unmarshal) h.kept
  have has := meets_true Host (loadEventJournal unmarshal {}) s.world answers
  refine ⟨hload.exec_world (fun _ _ hw => hw) (fun _ _ hw => hw.1) answers has, fun events hevents => ?_⟩
  change (exec Host (loadEventJournal unmarshal {}) s.world answers).2.bind Except.toOption = some events at hevents
  change Ready _ (exec Host (loadEventJournal unmarshal {}) s.world answers).1.delivered _ events
  have hresult := hload.exec answers has
  generalize exec Host (loadEventJournal unmarshal {}) s.world answers = x at hevents hresult
  obtain ⟨w, _ | _ | loaded⟩ := x
  · cases hevents
  · cases hevents
  · cases hevents
    exact hresult.2 _ rfl

theorem sound_flush {events : EventJournal} (hevents : s.events = some events) : Sound (s.turn unmarshal ⟨.flush, answers⟩) := by
  have hflush := kept_flushEvents (u := unmarshal) h.kept (h.ready events hevents)
  have has := meets_true Host (flushEvents unmarshal events) s.world answers
  have hturn : s.turn unmarshal ⟨.flush, answers⟩ =
      { s with
        world := (exec Host (flushEvents unmarshal events) s.world answers).1
        events := (exec Host (flushEvents unmarshal events) s.world answers).2.map (·.2) } := by
    simp only [Shim.turn, hevents]
  rw [hturn]
  refine ⟨hflush.exec_world (fun _ _ hw => hw) (fun _ _ hw => hw.1) answers has, fun left hleft => ?_⟩
  have hresult := hflush.exec answers has
  dsimp only at hleft ⊢
  generalize exec Host (flushEvents unmarshal events) s.world answers = x at hleft hresult
  obtain ⟨w, _ | r⟩ := x
  · cases hleft
  · cases hleft
    exact hresult.2

theorem sound_enqueue {events : EventJournal} (p : Publication) (hevents : s.events = some events) :
    Sound (s.turn unmarshal ⟨.enqueue p, answers⟩) := by
  have henqueue := kept_enqueue (u := unmarshal) (p := p) h.kept (h.ready events hevents)
  have has := meets_true Host (enqueue unmarshal events p s.publications) s.world answers
  have hresult := henqueue.exec answers has
  have hkept := henqueue.exec_world (J := Kept s.succeeded (s.publications + 1)) (fun _ _ hw => hw) (fun _ _ hw => hw.1) answers has
  simp only [Shim.turn, hevents]
  generalize exec Host (enqueue unmarshal events p s.publications) s.world answers = x at hresult hkept
  obtain ⟨w, _ | ⟨err, queued⟩⟩ := x
  · exact ⟨hkept, by rintro events ⟨⟩⟩
  · obtain ⟨-, hdelivered, ⟨herr, hready⟩ | ⟨herr, hstarted, hqueue, hfile⟩⟩ := hresult
    · have hnone : ¬(some err = some none) := by simpa using herr
      simp only [Option.map_some, hnone, if_false]
      refine ⟨hkept, ?_⟩
      rintro events ⟨⟩
      dsimp only
      rw [hdelivered]
      exact hready
    · obtain rfl : err = none := herr
      -- The event is the last one in memory and in the file.
      have hqueued : Queued (s.succeeded ++ [s.publications]) w.delivered (s.publications + 1)
          (publications events.pending ++ [s.publications]) := by
        rw [show w.delivered = s.world.delivered from hdelivered]
        exact (h.ready events hevents).queued.published h.kept.below
      have hdelivered : w.delivered = s.world.delivered := hdelivered
      simp only [Option.map_some, if_true]
      refine ⟨⟨?_, ?_, hkept.below⟩, ?_⟩
      · rw [show w.journaled = _ from hfile]
        exact hqueued
      · dsimp only
        rw [hdelivered]
        exact h.kept.order.published h.kept.below
      · rintro events' ⟨⟩
        refine ⟨hstarted, ?_⟩
        dsimp only
        rw [show publications queued.pending = _ from hqueue]
        exact hqueued

end Turn

theorem sound_turn (unmarshal : Unmarshal) {s : Shim} (t : Turn) (h : Sound s) : Sound (s.turn unmarshal t) := by
  obtain ⟨op, answers⟩ := t
  cases hevents : s.events with
  | none =>
    cases op with
    | start => exact sound_start h answers
    | flush | enqueue => simpa only [Shim.turn, hevents] using h
  | some events =>
    cases op with
    | start => exact sound_start h answers
    | flush => exact sound_flush h answers hevents
    | enqueue p => exact sound_enqueue h answers p hevents

theorem sound_run (unmarshal : Unmarshal) (turns : List Turn) : Sound (run (Shim.turn unmarshal) {} turns) := by
  have hinit : Sound {} := by
    refine ⟨⟨⟨List.Sublist.refl _, List.nodup_nil, by simp [World.journaled, publications]⟩, ?_, by simp⟩, by simp⟩
    intro a b hab
    cases hab
  exact (conforms_of_forall (fun _ _ => trivial) _ turns : Conforms (Shim.turn unmarshal) (fun _ _ => True) {} turns).inv hinit
    fun s t hs _ => sound_turn unmarshal t hs

/-- In every run of the shim, first deliveries are in the order in which the
events were queued, and what was queued is in the file until the broker has it. -/
theorem Shim.at_least_once (unmarshal : Unmarshal) (turns : List Turn) :
    InOrder (run (Shim.turn unmarshal) {} turns).succeeded (run (Shim.turn unmarshal) {} turns).world.delivered ∧
      ∀ n ∈ (run (Shim.turn unmarshal) {} turns).succeeded, n ∉ (run (Shim.turn unmarshal) {} turns).world.delivered →
        n ∈ (run (Shim.turn unmarshal) {} turns).world.journaled := by
  have h := sound_run unmarshal turns
  refine ⟨h.kept.order, fun n hn hwaiting => h.kept.file.holds.subset ?_⟩
  exact List.mem_filter.2 ⟨hn, by simpa using hwaiting⟩

-- A delivery that is not acknowledged in the file is made again after a restart.
example :
    let exit : Publication := ⟨.task .exit, some .exit, some ("TaskExit", [])⟩
    let s := run (Shim.turn fun _ _ => some (some .exit)) {}
      [⟨.start, [.works]⟩, ⟨.enqueue exit, [.works]⟩, ⟨.flush, [.works, .fails false]⟩, ⟨.start, [.works]⟩, ⟨.flush, [.works, .works]⟩]
    s.succeeded = [0] ∧ s.world.delivered = [0, 0] ∧ s.world.journaled = [] := by
  decide +kernel

end Multikernel.Events
