import Multikernel.Lifecycle.Requests
/-!
# The frame of a cancellation

A cancellation closes the create and its loads in the journal, records the
tombstone, deletes what the create left behind, gives up the pool and, last,
the record. `host_cancelCreateLocked` walks this frame: what is left to prove
is what its calls keep, what happens to the pool, and what follows from the
removal of a record whose instance was last observed ABSENT.
-/

namespace Multikernel
open Lib
variable {id : String} {sb : Sandbox}

/-- What a cancellation does before it gives up the pool and the record. -/
inductive Undoes : Call → Prop
  | looks {c : Call} (h : Looks c) : Undoes c
  | observe (id : String) : Undoes (.kerf (.observe id))
  | delete (sb : Sandbox) : Undoes (.kerf (.act .delete sb))
  | complete {e : JournalEntry} (h : e.phase = .complete) : Undoes (.store (.append e))
  | tombstone (key : String) (fp : Fingerprint) (failure : Error) :
    Undoes (.store (.change (.tombstone key fp failure)))

attribute [simp] Undoes.looks Undoes.observe Undoes.delete Undoes.complete Undoes.tombstone

/-- The journal has a create intent under `key`. -/
def Store.Creates (st : Store) (key : String) : Prop :=
  ∃ e ∈ st.journal, e.phase = .intent ∧ e.method = .createSandbox ∧ e.idempotencyKey = key

theorem Store.Creates.step {w : World} {key : String} (h : w.store.Creates key) (c : Call) (a : Answer) :
    (step w c a).1.store.Creates key := by
  obtain ⟨e, he, hcreate⟩ := h
  exact ⟨e, (journal_grows w c a).subset he, hcreate⟩

section Replies
variable {E : Env} {G : World → Call → Prop} {α : Type} {Q : α → World → Prop} {w : World}

/-- An observation replies with the state it leaves behind, and is remembered. -/
theorem host_observe_reply {f : Except Err State → Act α} (hG : G w (.kerf (.observe id)))
    (hf : ∀ r a, E w (.kerf (.observe id)) a → (r = match a.err with | none => .ok ((step w (.kerf (.observe id)) a).1.kernel.state id) | some e => .error e) → (∀ st, r = .ok st → (step w (.kerf (.observe id)) a).1.observed.lookup id = some st) → Sat (Host.trans E) G (f r) (step w (.kerf (.observe id)) a).1 Q) :
    Sat (Host.trans E) G (backend.observe id >>= f) w Q := by
  refine ⟨hG, fun r w' hr => ?_⟩
  obtain ⟨a, hE, hr⟩ := hr
  have hw' : (step w (.kerf (.observe id)) a).1 = w' := congrArg Prod.fst hr
  have hrep : (w.kernel.call a.err a.state a.instances (.observe id)).2 = r := congrArg Prod.snd hr
  subst hw'
  refine hf r a hE hrep.symm fun st hst => ?_
  have hok : (w.kernel.call a.err a.state a.instances (.observe id)).2 = .ok st := hrep.trans hst
  show (observedAfter w (.observe id) (w.kernel.call a.err a.state a.instances (.observe id)).2).lookup id = some st
  rw [hok]
  simp [observedAfter]

theorem host_observe {f : Except Err State → Act α} (hG : G w (.kerf (.observe id)))
    (hf : ∀ r a, E w (.kerf (.observe id)) a → (∀ st, r = .ok st → (step w (.kerf (.observe id)) a).1.observed.lookup id = some st) → Sat (Host.trans E) G (f r) (step w (.kerf (.observe id)) a).1 Q) :
    Sat (Host.trans E) G (backend.observe id >>= f) w Q :=
  host_observe_reply hG fun r a hE _ hr => hf r a hE hr

theorem observed_of_looks {c : Call} (hc : Looks c) (w : World) (a : Answer) : (step w c a).1.observed = w.observed :=
  (beside_of_looks hc w a).observed

end Replies

namespace Service
variable {s : Service} {E : Env} {G : World → Call → Prop} {w : World} {ctx : Ctx}
  {c : SandboxConfig} {key : String} {fp : Fingerprint}

theorem undoes_cancelDependents (id : String) (state : State) (pending : List JournalEntry) :
    Only Undoes (cancelDependents id state pending) := by
  induction pending with
  | nil => trivial
  | cons e rest ih =>
    unfold cancelDependents
    split
    · exact ih
    · split
      · trivial
      · exact Emits.guard (by simp) (fun _ => trivial) ih

theorem looks_releaseStorage (sb : Sandbox) : Emits Looks (s.releaseStorage ctx sb) fun r => r.1.id = sb.id := by
  refine (s.apart_releaseStorage ctx sb).mono (fun _ h => .aside h.aside) ?_
  rintro ⟨_, e⟩ ⟨status, rfl⟩
  rfl

/-- A cancellation of the create of `c` under `key` makes only calls in `G` and
ends in `Q`. `J` holds on the way: its calls keep it, giving up the pool of a
journaled create does; giving up the record, once its instance was observed
ABSENT, ends in `Q`. -/
structure Undone (E : Env) (G : World → Call → Prop) (J Q : World → Prop) (c : SandboxConfig)
    (key : String) (fp : Fingerprint) : Prop where
  guard : ∀ w x, J w → Undoes x → G w x
  step : ∀ w x a, E w x a → J w → Undoes x → J (step w x a).1
  stop : ∀ w, J w → Q w
  pool : ∀ w, J w → w.store.Creates key → Sat (Host.trans E) G cancelPool w fun _ w' => J w'
  abort : ∀ w failure, J w → w.observed.lookup c.id = some .absent →
    G w (.store (.change (.abortCreate c.id key fp failure))) ∧
      ∀ a, E w (.store (.change (.abortCreate c.id key fp failure))) a →
        Q (Multikernel.step w (.store (.change (.abortCreate c.id key fp failure))) a).1

section Rule
variable {J Q : World → Prop}

/-- The instance of the create is gone, or was never there. -/
theorem host_cancelInstance {actual : State} (hG : ∀ w x, J w → Undoes x → G w x)
    (hJ : ∀ w x a, E w x a → J w → Undoes x → J (step w x a).1) (hw : J w)
    (hactual : actual = .absent ∨ actual = .created) (hobs : w.observed.lookup sb.id = some actual) :
    Sat (Host.trans E) G (cancelInstance sb actual) w fun r w' =>
      J w' ∧ (r = none → w'.observed.lookup sb.id = some .absent) := by
  refine sat_ite.2 ⟨fun hne => ?_, fun _ => ?_⟩
  · have habsent : actual = .absent := hactual.resolve_right hne
    exact ⟨hw, fun _ => habsent ▸ hobs⟩
  · have hdelete : Only Undoes (backend.delete sb) := by simp
    refine ((host_keeps_on hdelete hw hJ).imp (fun w c h => hG w c h.1 h.2) fun _ _ h => h).guard
      (fun _ _ h => ⟨h.1, fun h => by cases h⟩) fun w1 h1 => ?_
    refine host_observe (hG w1 _ h1.1 (by simp)) fun r a hE hr => ?_
    have hw2 : J (step w1 (.kerf (.observe sb.id)) a).1 := hJ w1 _ a hE h1.1 (by simp)
    split
    · exact ⟨hw2, fun _ => hr _ rfl⟩
    · exact ⟨hw2, fun h => by cases h⟩

/-- Giving up the pool observes nothing. -/
theorem observed_cancelPool : Sat (Host.trans E) (fun _ _ => True) cancelPool w fun _ w' => w'.observed = w.observed := by
  refine ⟨trivial, fun d w1 h1 => ?_⟩
  have hw1 : w1.observed = w.observed := by
    obtain ⟨a, -, h1⟩ := h1
    exact congrArg (·.1.observed) h1.symm
  refine Sat.unless hw1 fun _ => ⟨trivial, fun r w2 h2 => ?_⟩
  have hw2 : w2.observed = w1.observed := by
    obtain ⟨a, -, h2⟩ := h2
    exact congrArg (·.1.observed) h2.symm
  cases r with
  | some e => exact hw2.trans hw1
  | none =>
    refine ⟨trivial, fun _ w3 h3 => ?_⟩
    obtain ⟨a, -, h3⟩ := h3
    exact (congrArg (·.1.observed) h3.symm : w3.observed = w2.observed).trans (hw2.trans hw1)

theorem host_cancelResources {failure : Error} (hJ : Undone E G J Q c key fp) (hw : J w)
    (hcreates : w.store.Creates key) (hid : sb.id = c.id) :
    Sat (Host.trans E) G (s.cancelResources ctx c key fp sb failure) w fun _ w' => Q w' := by
  refine host_observe (hJ.guard w _ hw (by simp)) fun r a hE hr => ?_
  have hw1 : J (step w (.kerf (.observe sb.id)) a).1 := hJ.step w _ a hE hw (by simp)
  cases r with
  | error e => exact hJ.stop _ hw1
  | ok actual =>
    refine Sat.unless (hJ.stop _ hw1) fun hactual => ?_
    simp only [not_and_or, not_not] at hactual
    -- Releasing the storage works aside: the observation still stands.
    have hrelease : Emits Looks (if sb.storage.any fun status => status.state ≠ .released then s.releaseStorage ctx sb
        else return (sb, none)) fun r => r.1.id = sb.id :=
      Sat.unless (looks_releaseStorage sb) fun _ => sat_pure.2 rfl
    have hkeeps := host_keeps_on (E := E) hrelease
      (J := fun w' => (J w' ∧ w'.store.Creates key) ∧ w'.observed.lookup sb.id = some actual)
      ⟨⟨hw1, hcreates.step _ a⟩, hr actual rfl⟩ fun w' x a hE hw' hx =>
        ⟨⟨hJ.step w' x a hE hw'.1.1 (.looks hx), hw'.1.2.step x a⟩, by rw [observed_of_looks hx]; exact hw'.2⟩
    refine (hkeeps.imp (fun w' x h => hJ.guard w' x h.1.1.1 (.looks h.2)) fun _ _ h => h).bind fun r w2 h2 => ?_
    obtain ⟨⟨⟨hw2, hcreates2⟩, hobs2⟩, hsame⟩ := h2
    obtain ⟨sb', _ | e⟩ := r
    · have hsb' : sb'.id = sb.id := hsame
      refine (host_cancelInstance (J := fun w => J w ∧ w.store.Creates key) (fun w x h => hJ.guard w x h.1)
        (fun w x a hE h hx => ⟨hJ.step w x a hE h.1 hx, h.2.step x a⟩) ⟨hw2, hcreates2⟩ hactual (hsb' ▸ hobs2)).guard
        (fun _ _ h => hJ.stop _ h.1.1) fun w3 h3 => ?_
      obtain ⟨⟨hw3, hcreates3⟩, hobs3⟩ := h3
      refine ((hJ.pool w3 hw3 hcreates3).and observed_cancelPool).guard
        (fun _ _ h => hJ.stop _ h.1) fun w4 h4 => ?_
      have habsent : w4.observed.lookup c.id = some .absent := by
        rw [h4.2, ← hid, ← hsb']
        exact hobs3 rfl
      refine ⟨(hJ.abort w4 failure h4.1 habsent).1, fun r w5 h5 => ?_⟩
      obtain ⟨a, hE, h5⟩ := h5
      have hw5 : (step w4 (.store (.change (.abortCreate c.id key fp failure))) a).1 = w5 := congrArg Prod.fst h5
      have := hw5 ▸ (hJ.abort w4 failure h4.1 habsent).2 a hE
      cases r <;> exact this
    · exact hJ.stop _ hw2

theorem host_cancelOwned (entries : List JournalEntry) (intent : JournalEntry) (completed : Bool)
    (hJ : Undone E G J Q c key fp) (hw : J w) (hcreates : w.store.Creates key) (hid : sb.id = c.id) :
    Sat (Host.trans E) G (s.cancelOwned ctx c key fp entries intent completed sb) w fun _ w' => Q w' := by
  have hundo {α : Type} {p : Act α} {w : World} (hp : Only Undoes p) (hw : J w ∧ w.store.Creates key) :
      Sat (Host.trans E) G p w fun _ w' => J w' ∧ w'.store.Creates key :=
    (host_keeps_on (J := fun w => J w ∧ w.store.Creates key) hp hw
      fun w x a hE h hx => ⟨hJ.step w x a hE h.1 hx, h.2.step x a⟩).imp (fun w x h => hJ.guard w x h.1.1 h.2) fun _ _ h => h.1
  refine Sat.unless (hJ.stop w hw) fun _ => ?_
  have hclose (failure : Error) : Only Undoes (if completed then return none else store.append { intent with
      phase := .complete
      error := some failure
      state := sb.state }) := by simp
  refine (hundo (hclose _) ⟨hw, hcreates⟩).guard (fun _ _ h => hJ.stop _ h.1) fun w1 h1 => ?_
  refine (hundo (undoes_cancelDependents _ _ _) h1).guard (fun _ _ h => hJ.stop _ h.1) fun w2 h2 => ?_
  have htombstone (failure : Error) : Only Undoes (store.tombstone key fp failure) :=
    ⟨.tombstone _ _ _, fun _ _ _ => trivial⟩
  refine (hundo (htombstone _) h2).guard (fun _ _ h => hJ.stop _ h.1) fun w3 h3 => ?_
  exact host_cancelResources hJ h3.1 h3.2 hid

theorem host_cancelCreateLocked (hJ : Undone E G J Q c key fp) (hkeyed : w.store.Keyed) (hw : J w) :
    Sat (Host.trans E) G (s.cancelCreateLocked ctx c key fp) w fun _ w' => Q w' := by
  have hlook {x : Call} (hx : Looks x) : G w x := hJ.guard w x hw (.looks hx)
  refine host_result (hlook (by simp)) (Sat.unless (hJ.stop w hw) fun _ => ?_)
  refine host_journalEntries (hlook (by simp)) (fun _ => hJ.stop w hw) ?_
  cases hscan : scanCreate c key fp w.store.journal none false with
  | none => simpa only [hscan, sat_pure] using hJ.stop w hw
  | some found =>
    obtain ⟨found, completed⟩ := found
    simp only [hscan]
    refine host_sandbox (hlook (by simp)) ?_
    cases found with
    | none =>
      cases w.store.data.sandboxes.lookup c.id with
      | some sb => exact hJ.stop w hw
      | none =>
        refine ⟨hJ.guard w _ hw (by simp), fun r w' hr => ?_⟩
        obtain ⟨a, hE, hr⟩ := hr
        have hstep : (step w _ a).1 = w' := congrArg Prod.fst hr
        have hw' : J w' := hstep ▸ hJ.step w _ a hE hw (by simp)
        cases r <;> exact hJ.stop _ hw'
    | some i =>
      obtain ⟨hmem, hmethod, hkey, hphase, -, hid, -⟩ := (scanCreate_found hscan rfl).resolve_left (by simp)
      have hcreates : w.store.Creates key := ⟨i, hmem, hphase, hmethod, hkey⟩
      cases hsb : w.store.data.sandboxes.lookup c.id with
      | none =>
        cases hi : i.sandbox with
        | none => simpa only [hi, sat_pure] using hJ.stop w hw
        | some sb =>
          simp only [hi]
          have hsb : sb.id = c.id := (hkeyed.journal i hmem sb hi).1.trans hid
          exact host_cancelOwned w.store.journal i completed hJ hw hcreates hsb
      | some sb =>
        refine Sat.unless (hJ.stop w hw) fun _ => ?_
        exact host_cancelOwned w.store.journal i completed hJ hw hcreates (hkeyed.sandboxes c.id sb hsb)

theorem host_cancelCreate (hJ : Undone E G J Q c key (.create c)) (hQ : ∀ w l, Q w → G w (.env (.unlock l)))
    (hkeyed : w.store.Keyed) (hw : J w) : Sat (Host.trans E) G (s.cancelCreate ctx c key) w fun _ w' => Q w' := by
  have hlook {x : Call} (hx : Looks x) : G w x := hJ.guard w x hw (.looks hx)
  refine Sat.unless (hJ.stop w hw) fun _ => ?_
  refine host_lock (hlook (by simp)) (Sat.bind (R := fun _ w' => Q w') ?_ fun _ w' h => host_unlock (hQ w' _ h) h)
  refine host_lock (hlook (by simp)) (Sat.bind (R := fun _ w' => Q w') ?_ fun _ w' h => host_unlock (hQ w' _ h) h)
  exact host_cancelCreateLocked hJ hkeyed hw

/-- A load whose caller is gone cancels the create of its generation. -/
theorem host_cancelLoaded {gen : String} (hlook : ∀ x, Looks x → G w x) (hstop : Q w)
    (hJ : ∀ f sb, findCreate id gen w.store.journal = some f → f.sandbox = some sb → sb.config.id = id → ∃ J : World → Prop, J w ∧ Undone E G J Q sb.config f.idempotencyKey (.create sb.config))
    (hQ : ∀ w l, Q w → G w (.env (.unlock l))) (hkeyed : w.store.Keyed) :
    Sat (Host.trans E) G (s.cancelLoaded id gen) w fun _ w' => Q w' := by
  refine host_journalEntries (hlook _ (by simp)) (fun _ => hstop) ?_
  cases hfind : findCreate id gen w.store.journal with
  | none => simpa only [hfind, sat_pure] using hstop
  | some f =>
    cases hsb : f.sandbox with
    | none => simpa only [hfind, hsb, sat_pure] using hstop
    | some sb =>
      simp only [hfind, hsb]
      obtain ⟨hmem, -, -, rfl, -⟩ := findCreate_found hfind
      obtain ⟨J, hw, hundone⟩ := hJ f sb hfind hsb (hkeyed.journal f hmem sb hsb).2.2
      exact (host_cancelCreate hundone hQ hkeyed hw).guard (fun _ _ h => h) fun _ h => h

end Rule

end Service

end Multikernel
