import Multikernel.Shim.Kill
/-!
# A `Kill` that succeeds

The note a `Kill` leaves in the recovery record says that the guest has
answered, not what. A call that finds an answer noted only acknowledges it and
clears the note, and succeeds also if the guest had refused the signal
(`refused_kill_succeeds`).

If a call that was refused always gets to clear its note, the next one starts
with a note of its own, and a call that succeeds was delivered
(`killed_was_delivered`). A shim that dies needs no such condition: recovery
clears the note before it serves.
-/

namespace Multikernel.Kill
open Lib
open Signals (Manager Failure Delivery Status)

/-- The guest refuses the signal, and the acknowledgement of that gets lost. -/
def refusal : List Event :=
  [.kill 10 (some idX) .ok, .attempt 0 .answered (some ⟨.errno, "operation not permitted"⟩), .observe 0 .ok, .giveUp 0,
    .kill 10 none .ok, .attempt 1 .answered none, .clear 1 .ok]

theorem refused_kill_succeeds :
    Conforms (World.step "init") (fun w e => New w e ∧ Alone w e) (World.init "init") refusal
      ∧ (run (World.step "init") (World.init "init") refusal).calls[1]? = some ⟨10, .done idX []⟩
      ∧ (run (World.step "init") (World.init "init") refusal).guest.delivered = [] := by
  decide +kernel

/-- The guest refused, and the answer is noted. -/
def Phase.refused : Phase → Bool
  | .acknowledging _ refused | .acknowledged _ refused => refused
  | _ => false

/-- A call that was refused, and has noted that it was answered, gets its
acknowledgement through and clears its note. -/
def Settles (w : World) : Event → Prop
  | .attempt k fate _ => ∀ c ∈ w.calls[k]?, c.phase.refused → fate ≠ .rejected
  | .giveUp k => ∀ c ∈ w.calls[k]?, ¬c.phase.refused
  | .clear k p => ∀ c ∈ w.calls[k]?, c.phase.refused → p = .ok
  | _ => True

instance (w : World) (e : Event) : Decidable (Settles w e) :=
  match e with
  | .attempt k fate _ => inferInstanceAs (Decidable (∀ c ∈ w.calls[k]?, c.phase.refused → fate ≠ .rejected))
  | .giveUp k => inferInstanceAs (Decidable (∀ c ∈ w.calls[k]?, ¬c.phase.refused))
  | .clear k p => inferInstanceAs (Decidable (∀ c ∈ w.calls[k]?, c.phase.refused → p = .ok))
  | .kill _ _ _ | .observe _ _ | .exit | .stopped _ _ _ | .deleted | .persisted | .crash | .recover _ _ _
  | .abort => .isTrue trivial

/-! ## What the shim takes for delivered -/

/-- The operation of a call the guest has not refused. -/
def Phase.success : Phase → Option String
  | .answered op false | .acknowledging op false | .acknowledged op false | .done op [] => some op
  | _ => none

/-- What the shim takes for delivered is delivered; a note of a refusal is left
only while its call is under way. -/
structure Told (id : String) (w : World) : Prop where
  calls : ∀ c ∈ w.calls, ∀ op ∈ c.phase.success, ⟨op, id, c.signal⟩ ∈ w.guest.delivered
  note : w.mode = .serving → w.memory.present → w.memory.running → ∀ q ∈ w.memory.pending, q.acknowledged →
    ⟨q.operation, id, q.signal⟩ ∈ w.guest.delivered ∨
      ∃ c ∈ w.calls, c.phase.refused ∧ c.phase.active = some q.operation
  cleared : w.mode = .recovering .clearing → w.memory.pending = none

section Told
variable {id op : String} {signal k : Nat} {w : World} {c c' : Call} {m : Manager} {memory record : Memory}

theorem told_init (id : String) : Told id (World.init id) where
  calls := by simp [World.init]
  note := by simp [World.init]
  cleared := nofun

theorem mem_set_of_ne {d : Call} (hd : d ∈ w.calls) (hc : w.calls[k]? = some c) (hne : d ≠ c) : d ∈ w.calls.set k c' := by
  obtain ⟨j, hj⟩ := List.getElem?_of_mem hd
  have hkj : k ≠ j := by
    rintro rfl
    exact hne (Option.some.inj (hj.symm.trans hc))
  apply List.mem_of_getElem? (i := j)
  rw [List.getElem?_set_ne hkj]
  exact hj

/-- The guest only delivers more. -/
theorem Told.guest (h : Told id w) (hsub : w.guest.delivered ⊆ m.delivered) : Told id { w with guest := m } where
  calls := fun c hc op hop => hsub (h.calls c hc op hop)
  note := fun hmode hpresent hrunning q hq hack => (h.note hmode hpresent hrunning q hq hack).imp_left fun hd => hsub hd
  cleared := h.cleared

theorem Served.subset (hs : Served id op signal w.guest m) : w.guest.delivered ⊆ m.delivered := by
  rcases hs.delivered with heq | ⟨heq, -, -⟩
  · rw [heq]
    exact fun _ hd => hd
  · rw [heq]
    exact List.subset_append_left _ _

theorem Retired.subset (hr : Retired id op w.guest m) : w.guest.delivered ⊆ m.delivered := by
  rw [hr.delivered]
  exact fun _ hd => hd

/-- A call moves on, and the note with it. -/
theorem Told.moved (h : Told id w) (hc : w.calls[k]? = some c)
    (hsuccess : ∀ o ∈ c'.phase.success, ⟨o, id, c'.signal⟩ ∈ w.guest.delivered)
    (hnote : w.mode = .serving → memory.present → memory.running → ∀ q ∈ memory.pending, q.acknowledged →
      ⟨q.operation, id, q.signal⟩ ∈ w.guest.delivered ∨ (c'.phase.refused ∧ c'.phase.active = some q.operation)
        ∨ ∃ d ∈ w.calls, d ≠ c ∧ d.phase.refused ∧ d.phase.active = some q.operation)
    (hcleared : w.mode = .recovering .clearing → memory.pending = none) :
    Told id (World.move { w with memory := memory, record := record } k c') where
  calls := by
    intro d hd
    rcases List.mem_or_eq_of_mem_set hd with hd | rfl
    · exact h.calls d hd
    · exact hsuccess
  note := by
    intro hmode hpresent hrunning q hq hack
    refine (hnote hmode hpresent hrunning q hq hack).imp_right ?_
    rintro (hc' | ⟨d, hd, hne, hd'⟩)
    · exact ⟨c', List.mem_set (List.getElem?_eq_some_iff.1 hc).1 c', hc'⟩
    · exact ⟨d, mem_set_of_ne hd hc hne, hd'⟩
  cleared := hcleared

/-- A call moves on: it is not one of a noted refusal, or it stays one. -/
theorem Told.move (h : Told id w) (hc : w.calls[k]? = some c)
    (hsuccess : ∀ o ∈ c'.phase.success, ⟨o, id, c'.signal⟩ ∈ w.guest.delivered)
    (hrefused : c.phase.refused → c'.phase.refused ∧ c'.phase.active = c.phase.active) : Told id (w.move k c') := by
  apply h.moved hc hsuccess _ h.cleared
  intro hmode hpresent hrunning q hq hack
  refine (h.note hmode hpresent hrunning q hq hack).imp_right ?_
  rintro ⟨d, hd, hphase, hactive⟩
  by_cases heq : d = c
  · subst heq
    obtain ⟨hphase, hsame⟩ := hrefused hphase
    exact .inl ⟨hphase, hsame.trans hactive⟩
  · exact .inr ⟨d, hd, heq, hphase, hactive⟩

theorem Told.enter (h : Told id w) (hsuccess : ∀ o ∈ c.phase.success, ⟨o, id, c.signal⟩ ∈ w.guest.delivered) :
    Told id (w.enter c) where
  calls := by
    intro d hd
    rcases List.mem_append.1 hd with hd | hd
    · exact h.calls d hd
    · obtain rfl := List.mem_singleton.1 hd
      exact hsuccess
  note := by
    intro hmode hpresent hrunning q hq hack
    refine (h.note hmode hpresent hrunning q hq hack).imp_right ?_
    rintro ⟨d, hd, hd'⟩
    exact ⟨d, List.mem_append_left _ hd, hd'⟩
  cleared := h.cleared

theorem Told.kill (h : Told id w) (signal : Nat) (operationID : Option String) (p : Persist)
    (halone : ∀ c ∈ w.calls, c.phase.active = none) : Told id (w.kill signal operationID p) := by
  unfold World.kill
  split
  · exact h
  rename_i hserving
  rw [not_not] at hserving
  split
  · exact h.enter nofun
  rename_i hpresent
  rw [not_not] at hpresent
  split
  · exact h.enter nofun
  rename_i hup
  rw [not_or, not_not, not_not] at hup
  split
  · rename_i q hq
    split
    · exact h.enter nofun
    rename_i hsignal
    obtain ⟨s, o, acknowledged⟩ := q
    obtain rfl : s = signal := not_not.1 hsignal
    cases acknowledged with
    | false => exact h.enter nofun
    | true =>
      apply h.enter
      rintro _ ⟨⟩
      -- no refused call is under way, so the note is of a delivery
      rcases h.note hserving hpresent hup.1 _ hq rfl with hd | ⟨c, hc, -, hactive⟩
      · exact hd
      · rw [halone c hc] at hactive
        cases hactive
  · rename_i hnone
    split
    · exact h.enter nofun
    rename_i op
    have hsilent : ∀ memory record issued, (∀ q ∈ memory.pending, q.acknowledged = false) →
        Told id { w with memory := memory, record := record, issued := issued } := by
      intro memory record issued hnot
      refine ⟨h.calls, fun _ _ _ q hq hack => ?_, ?_⟩
      · rw [hnot q hq] at hack
        cases hack
      · intro hmode
        simp only [hserving] at hmode
        cases hmode
    cases p with
    | ok => exact (hsilent _ _ _ (by rintro _ ⟨⟩; rfl)).enter nofun
    | fail | late => exact (hsilent _ _ _ (by rw [hnone]; exact nofun)).enter nofun

theorem Told.attempt (h : Told id w) (hb : Base id w) (k : Nat) (fate : Fate) (err : Option Failure)
    (hsettles : ∀ c ∈ w.calls[k]?, c.phase.refused → fate ≠ .rejected) : Told id (w.attempt id k fate err) := by
  rcases attempt_cases id w k fate err with hsame | ⟨signal, op, m, hc, hs, hcase⟩ | ⟨signal, op, refused, m, hc, hr, hcase⟩
  · rw [hsame]
    exact h
  · have hserved : Told id { w with guest := m } := h.guest hs.subset
    rcases hcase with heq | ⟨refused, heq, hok⟩
    · rw [heq]
      exact hserved
    · rw [heq]
      apply hserved.move hc
      · intro o ho
        cases refused with
        | true => cases ho
        | false =>
          cases ho
          obtain ⟨rfl, hnone⟩ := hok rfl
          unfold Manager.signalProcess at hnone ⊢
          split at hnone
          · rename_i hrange
            rw [if_pos hrange]
            exact Signals.signalOnce_delivered hnone hb.sound.results
          · cases hnone
      · exact nofun
  · have hretired : Told id { w with guest := m } := h.guest hr.subset
    have hknown : ∀ o, (refused = false → o = op) → refused = false → ⟨o, id, signal⟩ ∈ m.delivered := by
      rintro o ho rfl
      rw [ho rfl]
      exact hr.subset (h.calls _ (List.mem_of_getElem? hc) op rfl)
    rcases hcase with heq | heq | ⟨heq, hfailed⟩
    · rw [heq]
      exact hretired
    · rw [heq]
      apply hretired.move hc
      · intro o ho
        cases refused with
        | true => cases ho
        | false =>
          cases ho
          exact hknown op (fun _ => rfl) rfl
      · exact fun href => ⟨href, rfl⟩
    · rw [heq]
      apply hretired.move hc
      · intro o ho
        cases refused with
        | true | false => cases ho
      · intro href
        -- the guest takes the acknowledgement, so the request was rejected before
        rcases hfailed with hrejected | herr
        · exact absurd hrejected (hsettles _ hc href)
        · refine absurd (acknowledgeSignal_ok ?_ hb.ledger) herr
          exact hb.form _ (hb.calls _ (List.mem_of_getElem? hc) op rfl)

theorem Told.giveUp (h : Told id w) (k : Nat) (hsettles : ∀ c ∈ w.calls[k]?, ¬c.phase.refused) : Told id (w.giveUp k) := by
  unfold World.giveUp
  split
  · rename_i hc
    exact h.move hc nofun nofun
  · rename_i signal op refused hc
    apply h.move hc
    · intro o ho
      cases refused with
      | true | false => cases ho
    · exact fun href => absurd href (hsettles _ hc)
  · exact h

theorem holds_iff {op : String} : memory.holds op ↔ memory.present ∧ ∃ q ∈ memory.pending, q.operation = op := by
  simp [Memory.holds, Option.any_eq_true]

/-- An operation has one signal. -/
theorem Base.signal_eq (hb : Base id w) {s s' : Nat} (h : (op, s) ∈ w.issued) (h' : (op, s') ∈ w.issued) : s = s' :=
  congrArg Prod.snd (List.inj_on_of_nodup_map hb.issued h h' rfl)

theorem Told.observe (h : Told id w) (hb : Base id w) (k : Nat) (p : Persist) : Told id (w.observe k p) := by
  unfold World.observe
  split
  · rename_i signal op refused hc
    have hissued : (op, signal) ∈ w.issued := hb.calls _ (List.mem_of_getElem? hc) op rfl
    have hsuccess : ∀ o ∈ (Phase.acknowledging op refused).success, ⟨o, id, signal⟩ ∈ w.guest.delivered := by
      intro o ho
      cases refused with
      | true => cases ho
      | false => exact h.calls _ (List.mem_of_getElem? hc) o ho
    have hfailed : ∀ o ∈ (Phase.done op (failures refused ++ [.persistObserved])).success, ⟨o, id, signal⟩ ∈ w.guest.delivered := by
      intro o ho
      cases refused with
      | true | false => cases ho
    have hserving : w.mode ≠ .recovering .clearing := by
      rw [hb.serving hc rfl]
      exact nofun
    have hunmarked : ∀ q ∈ (w.memory.mark false).pending, ¬q.acknowledged := by
      intro q hq hack
      rw [(mem_mark hq).1] at hack
      cases hack
    split
    · rename_i hholds
      obtain ⟨-, q₀, hq₀, hop⟩ := holds_iff.1 hholds
      cases p with
      | ok =>
        apply h.moved hc hsuccess _ fun hmode => absurd hmode hserving
        intro _ _ _ q hq _
        obtain ⟨-, r, hr, hqop, hqsig⟩ := mem_mark hq
        obtain rfl : q₀ = r := Option.some.inj (hq₀.symm.trans hr)
        have hqop : q.operation = op := hqop.symm.trans hop
        cases refused with
        | true => exact .inr (.inl ⟨rfl, congrArg some hqop.symm⟩)
        | false =>
          left
          have hnoted : (op, q.signal) ∈ w.issued := by
            rw [← hqsig, ← hop]
            exact hb.memory q₀ hq₀
          have hsame : q.signal = signal := hb.signal_eq hnoted hissued
          rw [hqop, hsame]
          exact hsuccess op rfl
      | fail | late =>
        apply h.moved hc hfailed _ fun hmode => absurd hmode hserving
        exact fun _ _ _ q hq hack => absurd hack (hunmarked q hq)
    · exact h.move hc hsuccess nofun
  · exact h

theorem Told.clear (h : Told id w) (hb : Base id w) (k : Nat) (p : Persist)
    (hsettles : ∀ c ∈ w.calls[k]?, c.phase.refused → p = .ok) : Told id (w.clear k p) := by
  unfold World.clear
  split
  · rename_i signal op refused hc
    have hknown : refused = false → ⟨op, id, signal⟩ ∈ w.guest.delivered := by
      rintro rfl
      exact h.calls _ (List.mem_of_getElem? hc) op rfl
    have hsuccess : ∀ more, ∀ o ∈ (Phase.done op (failures refused ++ more)).success, ⟨o, id, signal⟩ ∈ w.guest.delivered := by
      intro more o ho
      cases refused with
      | true => cases ho
      | false =>
        cases more with
        | nil =>
          cases ho
          exact hknown rfl
        | cons x more => cases ho
    have hserving : w.mode ≠ .recovering .clearing := by
      rw [hb.serving hc rfl]
      exact nofun
    have hrestored : p ≠ .ok → ∀ q ∈ some (Pending.mk signal op true), ⟨q.operation, id, q.signal⟩ ∈ w.guest.delivered := by
      rintro hp _ ⟨⟩
      cases refused with
      | true => exact absurd (hsettles _ hc rfl) hp
      | false => exact hknown rfl
    split
    · cases p with
      | ok =>
        apply h.moved hc (hsuccess _) _ fun hmode => absurd hmode hserving
        intro _ _ _ q hq
        cases hq
      | fail | late =>
        apply h.moved hc (hsuccess _) _ fun hmode => absurd hmode hserving
        exact fun _ _ _ q hq _ => .inl (hrestored nofun q hq)
    · rename_i hholds
      have hdone : (Phase.done op (failures refused)).success = (Phase.done op (failures refused ++ [])).success := by
        rw [List.append_nil]
      apply h.moved hc (hdone ▸ hsuccess []) _ fun hmode => absurd hmode hserving
      intro hmode hpresent hrunning q hq hack
      refine (h.note hmode hpresent hrunning q hq hack).imp_right ?_
      rintro ⟨d, hd, hphase, hactive⟩
      refine .inr ⟨d, hd, ?_, hphase, hactive⟩
      -- the note is of another operation
      rintro rfl
      exact hholds (holds_iff.2 ⟨hpresent, q, hq, (Option.some.inj hactive).symm⟩)
  · exact h

/-- Nobody is served, so nobody reads the note. -/
theorem Told.turn {mode : Mode} (h : Told id w) (hserving : mode = .serving → memory.pending = none ∨ ¬(memory.present ∧ memory.running))
    (hcleared : mode = .recovering .clearing → memory.pending = none) :
    Told id { w with memory := memory, record := record, mode := mode } where
  calls := h.calls
  note := by
    intro hmode hpresent hrunning q hq
    rcases hserving hmode with hnone | hnot
    · rw [Option.mem_def, hnone] at hq
      cases hq
    · exact absurd ⟨hpresent, hrunning⟩ hnot
  cleared := hcleared

theorem Told.stopped (h : Told id w) (p : Persist) (fate : Fate) (p' : Persist) : Told id (w.stopped id p fate p') := by
  unfold World.stopped
  split
  · rename_i hmode _ _
    -- the process no longer counts as running, so its note is not read
    have hended : ∀ guest memory record, w.guest.delivered ⊆ guest.delivered → memory.running = false →
        Told id { w with guest := guest, memory := memory, record := record } := by
      intro guest memory record hsub hnot
      have hnone : w.mode = .recovering .clearing → memory.pending = none := by
        rw [hmode]
        exact nofun
      exact (h.guest hsub).turn (fun _ => .inr (by simp [hnot])) hnone
    have hack := fun op => (retired_acknowledgeSignal id op w.guest).subset
    simp only
    split
    · exact ⟨h.calls, h.note, h.cleared⟩
    split
    · exact hended _ _ _ (fun _ hd => hd) rfl
    rename_i q hq
    cases fate with
    | requestLost | rejected => exact hended _ _ _ (fun _ hd => hd) rfl
    | replyLost => exact hended _ _ _ (hack q.operation) rfl
    | answered =>
      apply hended _ _ _ (hack q.operation)
      split
      · rfl
      · rfl
  · exact h

theorem Told.crash (h : Told id w) : Told id w.crash where
  calls := by
    intro c hc op hop
    obtain ⟨d, hd, rfl⟩ := List.mem_map.1 hc
    cases hactive : d.phase.active with
    | none =>
      simp only [hactive] at hop ⊢
      exact h.calls d hd op hop
    | some o =>
      simp only [hactive] at hop
      cases hop
  note := nofun
  cleared := nofun

theorem Told.recover (h : Told id w) (fate : Fate) (err : Option Failure) (p : Persist) :
    Told id (w.recover id fate err p) := by
  have hbusy : ∀ guest memory record mode, w.guest.delivered ⊆ guest.delivered → mode ≠ .serving →
      mode ≠ .recovering .clearing → Told id { w with guest := guest, memory := memory, record := record, mode := mode } :=
    fun guest memory record mode hsub hserving hclearing =>
      (h.guest hsub).turn (fun hmode => absurd hmode hserving) fun hmode => absurd hmode hclearing
  have hrefl : w.guest.delivered ⊆ w.guest.delivered := fun _ hd => hd
  unfold World.recover
  split
  · split
    · rename_i hnot
      have hnot : ¬(w.memory.present ∧ w.memory.running) := by
        rintro ⟨hpresent, hrunning⟩
        rcases hnot with hnot | hnot
        · exact hnot hpresent
        · exact hnot hrunning
      exact h.turn (fun _ => .inr hnot) nofun
    split
    · exact hbusy _ _ _ _ hrefl nofun nofun
    · split
      · exact hbusy _ _ _ _ hrefl nofun nofun
      · exact hbusy _ _ _ _ hrefl nofun nofun
    · exact hbusy _ _ _ _ hrefl nofun nofun
  · split
    · exact h
    rename_i q hq
    have hsub := (served_signalProcess id q.operation q.signal w.guest err).subset
    cases fate with
    | requestLost => exact h
    | replyLost => exact h.guest hsub
    | answered => exact hbusy _ _ _ _ hsub nofun nofun
    | rejected => exact hbusy _ _ _ _ hrefl nofun nofun
  · apply h.turn
    · intro hmode
      split at hmode
      · cases hmode
      split at hmode
      · cases hmode
      · rename_i hnone
        exact .inl (Option.not_isSome_iff_eq_none.1 hnone)
    · intro hmode
      split at hmode
      · cases hmode
      split at hmode
      · cases hmode
      · cases hmode
  · split
    · exact h
    rename_i q hq
    have hsub := (retired_acknowledgeSignal id q.operation w.guest).subset
    cases fate with
    | requestLost => exact h
    | replyLost => exact h.guest hsub
    | answered =>
      simp only
      split
      · exact hbusy _ _ _ _ hsub nofun nofun
      · exact (h.guest hsub).turn nofun fun _ => rfl
    | rejected => exact hbusy _ _ _ _ hrefl nofun nofun
  · rename_i hclearing
    exact h.turn (fun _ => .inl (h.cleared hclearing)) fun _ => h.cleared hclearing
  · exact h

theorem Told.step (h : Told id w) (hb : Base id w) (e : Event) (halone : Alone w e) (hsettles : Settles w e) :
    Told id (w.step id e) := by
  cases e with
  | kill signal operationID p => exact h.kill signal operationID p halone
  | attempt k fate err => exact h.attempt hb k fate err hsettles
  | giveUp k => exact h.giveUp k hsettles
  | observe k p => exact h.observe hb k p
  | clear k p => exact h.clear hb k p hsettles
  | exit => exact h.guest fun _ hd => hd
  | stopped p fate p' => exact h.stopped p fate p'
  | deleted =>
    simp only [World.step]
    split
    · exact h
    · refine ⟨h.calls, ?_, h.cleared⟩
      rintro _ ⟨⟩
  | persisted =>
    simp only [World.step]
    split
    · exact ⟨h.calls, h.note, h.cleared⟩
    · exact h
  | crash => exact h.crash
  | recover fate err p => exact h.recover fate err p
  | abort =>
    simp only [World.step]
    split
    · exact h
    · apply h.turn
      · intro hmode
        cases hmode
      · intro hmode
        cases hmode

end Told

/-- If a refused call always clears its note, a call that succeeds was
delivered with its operation. -/
theorem killed_was_delivered (id : String) (es : List Event)
    (hes : Conforms (World.step id) (fun w e => (New w e ∧ Alone w e) ∧ Settles w e) (World.init id) es) :
    ∀ c ∈ (run (World.step id) (World.init id) es).calls, ∀ op, c.phase = .done op [] →
      ⟨op, id, c.signal⟩ ∈ (run (World.step id) (World.init id) es).guest.delivered := by
  have hinv : Ordered id (run (World.step id) (World.init id) es) ∧ Told id (run (World.step id) (World.init id) es) := by
    apply hes.inv (J := fun w => Ordered id w ∧ Told id w) ⟨ordered_init id, told_init id⟩
    rintro w e ⟨hordered, htold⟩ ⟨⟨hnew, halone⟩, hsettles⟩
    exact ⟨hordered.step e hnew halone, htold.step hordered.base e halone hsettles⟩
  intro c hc op hdone
  apply hinv.2.calls c hc op
  rw [hdone]
  rfl

theorem killed_was_delivered_recovered :
    ⟨"00000000000000000000000000000001", "init", 10⟩ ∈
      (run (World.step "init") (World.init "init") recovered).guest.delivered :=
  killed_was_delivered "init" recovered (by decide +kernel) ⟨10, .done "00000000000000000000000000000001" []⟩
    (by decide +kernel) _ rfl

end Multikernel.Kill
