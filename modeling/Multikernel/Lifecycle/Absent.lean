import Multikernel.Lifecycle.Cancel
/-!
# ABSENT is observed

A record labelled ABSENT holds no memory at admission and no pool at shutdown,
so the label must be true. Every path that removes a record or labels it
ABSENT first observes the instance to be gone, but one: a delete whose effect
the backend does not confirm stores the state it wanted (`not_witnessed`).
`witnessed_of_confirmed` says that the others are right, and that a record
labelled ABSENT then has no instance.
-/

namespace Multikernel
open Lib
variable {ch : Change} {sb : Sandbox} {w : World} {c : Call} {a : Answer} {id gen : String} {x : Option String}
  {op : KerfOp} {pending : List JournalEntry} {actual : State}

/-- The record that a change removes or labels ABSENT. -/
def Change.drops : Change → Option String
  | .commit sb _ _ _ | .commitFailure sb _ _ _ | .setSandbox sb => if sb.state = .absent then some sb.id else none
  | .abortCreate id _ _ _ | .removeSandbox id => some id
  | .tombstone _ _ _ => none

/-- The call removes a record or labels it ABSENT only after its operation last
observed the instance ABSENT. -/
def Witnessed (w : World) (c : Call) : Prop :=
  ∀ ch id, c = .store (.change ch) → ch.drops = some id → w.observed.lookup id = some .absent

/-- A record labelled ABSENT, in memory or in the file, has no instance. -/
def World.Vacant (w : World) : Prop :=
  ∀ id sb, w.store.Records id sb → sb.state = .absent → w.kernel.state id = .absent

/-- What was observed ABSENT still is, but for the instance `x`. -/
def World.Trusts (x : Option String) (w : World) : Prop :=
  ∀ id, x ≠ some id → w.observed.lookup id = some .absent → w.kernel.state id = .absent

structure World.Settled (x : Option String) (w : World) : Prop where
  vacant : w.Vacant
  trusts : w.Trusts x

/-- The backend makes no instance but the one it is asked to create. -/
def Still (w : World) (c : Call) (a : Answer) : Prop :=
  ∀ id, w.kernel.state id = .absent → (∀ sb, c = .kerf (.act .create sb) → sb.id ≠ id) →
    (step w c a).1.kernel.state id = .absent

/-- A delete that succeeds leaves no instance, and a missing instance can be
observed. -/
def Confirms (w : World) (c : Call) (a : Answer) : Prop :=
  match c with
  | .kerf (.act .delete sb) => a.err = none → (step w c a).1.kernel.state sb.id = .absent
  | .kerf (.observe id) => w.kernel.state id = .absent → a.err = none
  | _ => True

/-! ## One call -/

theorem Change.drops_of_adds (h : ch.adds = some sb) (hstate : sb.state = .absent) : ch.drops = some sb.id := by
  cases ch with
  | commit | commitFailure | setSandbox =>
    cases h
    simp [drops, hstate]
  | tombstone | abortCreate | removeSandbox => cases h

/-- What an operation has observed of an instance changes only when it
observes it. -/
theorem observed_step (h : (step w c a).1.observed.lookup id = some .absent) :
    (c ≠ .kerf (.observe id) ∧ w.observed.lookup id = some .absent) ∨
      (c = .kerf (.observe id) ∧ (step w c a).1.kernel.state id = .absent) := by
  cases c with
  | kerf c =>
    cases c with
    | observe i =>
      by_cases hi : id = i
      · subst hi
        refine .inr ⟨rfl, ?_⟩
        cases ha : a.err with
        | none => simpa [step, Kernel.call, ha, observedAfter] using h
        | some e => simp [step, Kernel.call, ha, observedAfter] at h
      · refine .inl ⟨fun hc => hi (by cases hc; rfl), ?_⟩
        cases ha : a.err with
        | none => simpa [step, Kernel.call, ha, observedAfter, AList.lookup_insert_ne hi] using h
        | some e => simpa [step, Kernel.call, ha, observedAfter, AList.lookup_erase_ne hi] using h
    | ensurePool | releasePool | act | listInstances => exact .inl ⟨fun hc => (by cases hc), h⟩
  | env c => cases c <;> exact .inl ⟨fun hc => (by cases hc), h⟩
  | _ => exact .inl ⟨fun hc => (by cases hc), h⟩

/-- A call that creates nothing keeps a settled world, if it drops only
records without an instance. -/
theorem World.Settled.step (h : w.Settled x) (ha : Still w c a) (hcreate : ∀ sb, c ≠ .kerf (.act .create sb))
    (hdrop : ∀ ch id, c = .store (.change ch) → ch.drops = some id → w.kernel.state id = .absent) :
    (step w c a).1.Settled x := by
  have hkeep {id : String} (hid : w.kernel.state id = .absent) : (Multikernel.step w c a).1.kernel.state id = .absent :=
    ha id hid fun sb hc => absurd hc (hcreate sb)
  refine ⟨fun id sb hsb hstate => ?_, fun id hx hobs => ?_⟩
  · rcases records_step hsb with hsb | ⟨ch, hc, hadds, rfl⟩
    · exact hkeep (h.vacant id sb hsb hstate)
    · exact hkeep (hdrop ch sb.id hc (Change.drops_of_adds hadds hstate))
  · rcases observed_step hobs with ⟨-, hobs⟩ | ⟨-, habsent⟩
    · exact hkeep (h.trusts id hx hobs)
    · exact habsent

theorem World.Settled.weaken (h : w.Settled none) (x : Option String) : w.Settled x :=
  ⟨h.vacant, fun id _ => h.trusts id (by simp)⟩

theorem World.Settled.beside {w' : World} (h : w.Settled x) (hb : w.Beside w') : w'.Settled x := by
  refine ⟨?_, ?_⟩
  · unfold World.Vacant
    rw [hb.store, hb.kernel]
    exact h.vacant
  · unfold World.Trusts
    rw [hb.observed, hb.kernel]
    exact h.trusts

/-- An observation settles the instance it observes. -/
theorem World.Settled.observe (h : w.Settled (some id)) (ha : Still w (.kerf (.observe id)) a)
    : (Multikernel.step w (.kerf (.observe id)) a).1.Settled none := by
  have hstep := h.step ha (fun _ hc => (by cases hc)) fun _ _ hc => (by cases hc)
  refine ⟨hstep.vacant, fun i _ hobs => ?_⟩
  rcases observed_step hobs with ⟨hne, -⟩ | ⟨-, habsent⟩
  · exact hstep.trusts i (fun heq => hne (by cases heq; rfl)) hobs
  · exact habsent

/-- Creating an instance settles nothing about it, unless it has no ABSENT
record. -/
theorem World.Settled.create (h : w.Settled x) (ha : Still w (.kerf (.act .create sb)) a)
    (hx : x = none ∨ x = some sb.id) (hlabel : ∀ r, w.store.Records sb.id r → r.state ≠ .absent) :
    (Multikernel.step w (.kerf (.act .create sb)) a).1.Settled (some sb.id) := by
  have hkeep {id : String} (hne : sb.id ≠ id) (hid : w.kernel.state id = .absent) :
      (Multikernel.step w (.kerf (.act .create sb)) a).1.kernel.state id = .absent :=
    ha id hid fun sb' hc => by
      cases hc
      exact hne
  refine ⟨fun id r hr hstate => ?_, fun id hne hobs => ?_⟩
  · have hne : sb.id ≠ id := fun heq => hlabel r (heq ▸ hr) hstate
    exact hkeep hne (h.vacant id r hr hstate)
  · have hne : sb.id ≠ id := fun heq => hne (heq ▸ rfl)
    refine hkeep hne (h.trusts id ?_ hobs)
    rcases hx with rfl | rfl
    · simp
    · simpa using hne

/-! ## Calls that create nothing and drop nothing -/

structure Quiet (c : Call) : Prop where
  create : ∀ sb, c ≠ .kerf (.act .create sb)
  drops : ∀ ch, c = .store (.change ch) → ch.drops = none

/-- Nor do these observe. -/
structure Silent (c : Call) : Prop extends Quiet c where
  observe : ∀ id, c ≠ .kerf (.observe id)

theorem observed_of_silent (hc : Silent c) (w : World) (a : Answer) : (step w c a).1.observed = w.observed := by
  cases c with
  | kerf c =>
    cases c with
    | observe id => exact absurd rfl (hc.observe id)
    | ensurePool | releasePool | act | listInstances => rfl
  | env c => cases c <;> rfl
  | _ => rfl

theorem Looks.silent (h : Looks c) : Silent c where
  create sb hc := by
    subst hc
    cases h with | aside h => cases h
  drops ch hc := by
    subst hc
    cases h with | aside h => cases h
  observe id hc := by
    subst hc
    cases h with | aside h => cases h

theorem silent_append (e : JournalEntry) : Silent (.store (.append e)) :=
  ⟨⟨fun _ h => (by cases h), fun _ h => (by cases h)⟩, fun _ h => (by cases h)⟩

theorem silent_change (h : ch.drops = none) : Silent (.store (.change ch)) :=
  ⟨⟨fun _ hc => (by cases hc), fun _ hc => (by cases hc; exact h)⟩, fun _ hc => (by cases hc)⟩

theorem quiet_observe (id : String) : Quiet (.kerf (.observe id)) :=
  ⟨fun _ h => (by cases h), fun _ h => (by cases h)⟩

theorem silent_act (hop : op ≠ .create) (sb : Sandbox) : Silent (.kerf (.act op sb)) :=
  ⟨⟨fun _ h => hop (by cases h; rfl), fun _ h => (by cases h)⟩, fun _ h => (by cases h)⟩

theorem Acts.silent {O : KerfOp → Prop} {σ : Sandbox} (h : Acts O σ c) (hO : ¬O .create) : Silent c := by
  cases h with
  | aside h => exact (Looks.aside h.aside).silent
  | act hop => exact silent_act (fun h => hO (h ▸ hop)) _

theorem Undoes.quiet (h : Undoes c) : Quiet c := by
  cases h with
  | looks h => exact h.silent.toQuiet
  | observe id => exact quiet_observe id
  | delete sb => exact (silent_act (by simp) sb).toQuiet
  | complete => exact (silent_append _).toQuiet
  | tombstone => exact (silent_change rfl).toQuiet

/-- The call is made over records whose ABSENT labels are true, and adds no
other. -/
def Justified (w : World) (c : Call) : Prop := w.Vacant ∧ Witnessed w c

theorem Quiet.witnessed (h : Quiet c) (w : World) : Witnessed w c := by
  intro ch id hc hdrop
  rw [h.drops ch hc] at hdrop
  cases hdrop

theorem World.Settled.quiet (h : w.Settled x) (hc : Quiet c) (ha : Still w c a) : (Multikernel.step w c a).1.Settled x :=
  h.step ha hc.create fun ch id hch hdrop => by
    rw [hc.drops ch hch] at hdrop
    cases hdrop

section Rules
variable {E : Env} {α β : Type} {w : World} {x : Option String} {Q : α → World → Prop}

/-- Every call of the program is justified, and it ends settled. -/
def Settling (E : Env) (p : Act α) (w : World) : Prop :=
  Sat (Host.trans E) Justified p w fun _ w' => w'.Settled none

variable (hE : ∀ w c a, E w c a → Still w c a)
include hE

theorem settled_of_quiet {p : Act α} {R : α → Prop} (hp : Emits Quiet p R) (hw : w.Settled x) :
    Ensures E Justified p w fun r w' => w'.Settled x ∧ R r :=
  (host_keeps_on hp hw fun w c a ha hw hc => hw.quiet hc (hE w c a ha)).imp
    (fun w _ h => ⟨h.1.vacant, h.2.witnessed w⟩) fun _ _ h => h

/-- A silent part leaves the last observations to the rest. -/
theorem host_silent {p : Act β} {f : β → Act α} {R : β → Prop} (hp : Emits Silent p R) (hw : w.Settled x)
    (hf : ∀ r w', w'.Settled x → w'.observed = w.observed → R r → Ensures E Justified (f r) w' Q) :
    Ensures E Justified (p >>= f) w Q := by
  have h := host_keeps_on (E := E) (J := fun w' => w'.Settled x ∧ w'.observed = w.observed) hp ⟨hw, rfl⟩
    fun w' c a ha hw' hc => ⟨hw'.1.quiet hc.toQuiet (hE w' c a ha), (observed_of_silent hc w' a).trans hw'.2⟩
  exact (h.imp (fun w' _ h => ⟨h.1.1.vacant, h.2.witnessed w'⟩) fun _ _ h => h).bind
    fun r w' h => hf r w' h.1.1 h.1.2 h.2

/-- A silent part whose error ends the program. -/
theorem host_silent_guard {p : Act (Option Err)} {f : Option Err → Act α} (hp : Only Silent p)
    (hw : w.Settled x) (hsome : ∀ e w', w'.Settled x → Ensures E Justified (f (some e)) w' Q)
    (hnone : ∀ w', w'.Settled x → w'.observed = w.observed → Ensures E Justified (f none) w' Q) :
    Ensures E Justified (p >>= f) w Q := by
  refine host_silent hE hp hw fun r w' hw' hobs _ => ?_
  cases r with
  | some e => exact hsome e w' hw'
  | none => exact hnone w' hw' hobs

/-- A silent part that only reads the store. -/
theorem settled_of_silent {p : Act α} (hp : Only (fun c => Silent c ∧ Reads c) p) (hw : w.Settled none) :
    Ensures E Justified p w fun _ w' => w'.Settled none ∧ w'.observed = w.observed ∧ w'.store = w.store := by
  have h := host_keeps_on (E := E) (J := fun w' => w'.Settled none ∧ w'.observed = w.observed ∧ w'.store = w.store) hp
    ⟨hw, rfl, rfl⟩ fun w' c a ha hw' hc => ⟨hw'.1.quiet hc.1.toQuiet (hE w' c a ha),
      (observed_of_silent hc.1 w' a).trans hw'.2.1, (store_of_reads hc.2 w' a).trans hw'.2.2⟩
  exact h.imp (fun w' _ h => ⟨h.1.1.vacant, h.2.1.witnessed w'⟩) fun _ _ h => h.1

/-- A record whose instance was observed ABSENT may be dropped. -/
theorem host_drop (hw : w.Settled none) (hobs : ∀ id, ch.drops = some id → w.observed.lookup id = some .absent)
    : Settling E (store.change ch) w := by
  refine ⟨⟨hw.vacant, fun ch' id hc hdrop => ?_⟩, fun r w' hr => ?_⟩
  · cases hc
    exact hobs id hdrop
  · obtain ⟨a, ha, hr⟩ := hr
    have hw' : (step w (.store (.change ch)) a).1 = w' := congrArg Prod.fst hr
    refine hw' ▸ hw.step (hE w _ a ha) (fun _ hc => (by cases hc)) fun ch' id hc hdrop => ?_
    cases hc
    exact hw.trusts id (by simp) (hobs id hdrop)

/-- An observation is remembered, and true. -/
theorem host_observed {f : Except Err State → Act α} (hw : w.Settled x)
    (hf : ∀ r w', w'.Settled x → (∀ st, r = .ok st → w'.observed.lookup id = some st) → Ensures E Justified (f r) w' Q)
    : Ensures E Justified (backend.observe id >>= f) w Q :=
  host_observe ⟨hw.vacant, (quiet_observe id).witnessed w⟩ fun r a ha hr =>
    hf r _ (hw.quiet (quiet_observe id) (hE w _ a ha)) hr

end Rules

namespace Service
variable {s : Service} {E : Env} {w : World} {sb : Sandbox} {method : Method} {key : String}
  {fp : Fingerprint} {intent : JournalEntry}

/-! ## Silent parts -/

theorem silent_now : Only Silent now := ⟨(Looks.aside (by simp)).silent, fun _ _ _ => trivial⟩

theorem silent_checkpoint (point : String) : Only Silent (checkpoint point) :=
  ⟨(Looks.aside (by simp)).silent, fun _ _ _ => trivial⟩

theorem silent_storeAppend (e : JournalEntry) : Only Silent (store.append e) :=
  ⟨silent_append e, fun _ _ _ => trivial⟩

theorem silent_replay : Only Silent (replay key fp) := by
  have hresult (key : String) : Silent (.store (.result key)) := (Looks.result key).silent
  simp [replay, Option.forall, hresult]

theorem silent_provisionStorage (ctx : Ctx) (sb : Sandbox) :
    Emits Silent (s.provisionStorage ctx sb) fun r => r.1.state = sb.state ∧ r.1.id = sb.id := by
  refine (s.apart_provisionStorage ctx sb).mono (fun _ h => (Looks.aside h.aside).silent) ?_
  rintro ⟨_, e⟩ ⟨status, rfl⟩
  exact ⟨rfl, rfl⟩

theorem silent_releaseStorage (ctx : Ctx) (sb : Sandbox) :
    Emits Silent (s.releaseStorage ctx sb) fun r => r.1.state = sb.state ∧ r.1.id = sb.id := by
  refine (s.apart_releaseStorage ctx sb).mono (fun _ h => (Looks.aside h.aside).silent) ?_
  rintro ⟨_, e⟩ ⟨status, rfl⟩
  exact ⟨rfl, rfl⟩

theorem silent_backend (hop : op ≠ .create) (sb : Sandbox) : Only Silent (backend.act op sb) :=
  ⟨silent_act hop sb, fun _ _ _ => trivial⟩

/-- An action that the state of the instance asks for. -/
theorem silent_actIf {p : Prop} [Decidable p] (hop : op ≠ .create) (sb : Sandbox) :
    Only Silent (if p then backend.act op sb else return none) :=
  Sat.unless (silent_backend hop sb) fun _ => trivial

theorem silent_setSandbox (hsb : sb.state ≠ .absent) : Only Silent (store.setSandbox sb) :=
  ⟨silent_change (if_neg hsb), fun _ _ _ => trivial⟩

@[simp] theorem silent_pool : Silent .poolReady ∧ (∀ b, Silent (.setPoolReady b)) ∧ Silent (.kerf .ensurePool) ∧
    Silent (.kerf .releasePool) ∧ Silent (.kerf .listInstances) := by
  refine ⟨?_, fun b => ?_, ?_, ?_, ?_⟩
  all_goals exact ⟨⟨fun _ h => (by cases h), fun _ h => (by cases h)⟩, fun _ h => (by cases h)⟩

theorem silent_ensurePool : Only (fun c => Silent c ∧ Reads c) ensurePool := by
  simp [ensurePool, Option.forall]

theorem silent_rollbackPool (firstSandbox : Bool) : Only Silent (rollbackPool firstSandbox) := by
  simp [rollbackPool, releasePool, Option.forall]

theorem silent_loadRecovered : Emits Silent (s.loadRecovered sb) fun r => r.1.state = sb.state := by
  have haside (c : Call) (hc : Outside c) : Silent c := (Looks.aside hc.aside).silent
  refine Emits.bind ((s.apart_artifactsFor _).imp haside) fun r _ => ?_
  cases r with
  | error e => exact sat_pure.2 rfl
  | ok artifacts =>
    refine Emits.bind ((s.apart_bootFiles _ _).imp haside) fun r _ => ?_
    cases r with
    | error e => exact sat_pure.2 rfl
    | ok files =>
      refine Emits.bind (silent_provisionStorage .request sb) fun r hr => ?_
      obtain ⟨sb', _ | e⟩ := r
      · exact Emits.bind (silent_backend (by simp) sb') fun _ _ => hr.1
      · exact hr.1

theorem Settled.unlock (hw : w.Settled none) (l : Lock) : Justified w (.env (.unlock l)) :=
  ⟨hw.vacant, (Looks.aside (by simp)).silent.witnessed w⟩

/-- A failed operation labels its sandbox ABSENT only when it observed so. -/
theorem stateAfterFailure_absent {code : Code} {observed : Except Err State}
    (h : stateAfterFailure method code sb observed = .absent) (hsb : sb.state ≠ .absent) : observed = .ok .absent := by
  unfold stateAfterFailure at h
  cases observed with
  | error e =>
    simp only at h
    split at h
    · cases h
    · exact absurd h hsb
  | ok actual =>
    simp only at h
    split at h
    · cases h
    · cases actual with
      | absent => rfl
      | created | running => cases h
      | loaded =>
        simp only [failureState] at h
        split at h <;> cases h
      | allocating | stopping | stopped | releasing => exact absurd h hsb

/-- What the steps of an operation must leave for `mutate`. -/
def Leaves (E : Env) (r : Sandbox × Option Err) (w : World) : Prop :=
  w.Settled none ∧ (r.2 ≠ none → r.1.state ≠ .absent) ∧
    (r.2 = none → r.1.state = .absent → w.kernel.state r.1.id = .absent ∧ ∀ w c a, E w c a → Confirms w c a)

section Operations
variable (hE : ∀ w c a, E w c a → Still w c a)
include hE

/-! ## `mutate` -/

theorem settled_mutateFailed (hw : w.Settled none) (hsb : sb.state ≠ .absent) (e : Err) :
    Settling E (mutateFailed method key fp intent sb e) w := by
  refine host_observed hE hw fun observed w1 h1 hobs => ?_
  refine host_silent_guard hE (silent_storeAppend _) h1 (fun _ _ h => h) fun w2 h2 hobs2 => ?_
  refine host_silent hE silent_now h2 fun t w3 h3 hobs3 _ => ?_
  -- Whichever write follows, what it drops was just observed ABSENT.
  have hseen (h : observed = .ok .absent) : w3.observed.lookup sb.id = some .absent := by
    rw [hobs3, hobs2]
    exact hobs _ h
  have hlabel {id : String} (h : (if stateAfterFailure method (failureCode e) sb observed = .absent then some sb.id
      else none) = some id) : w3.observed.lookup id = some .absent := by
    obtain ⟨hstate, hid⟩ := Option.ite_none_right_eq_some.1 h
    exact Option.some.inj hid ▸ hseen (stateAfterFailure_absent hstate hsb)
  refine Sat.bind (R := fun _ w' => w'.Settled none) ?_ fun r _ h => by cases r <;> exact h
  refine Sat.unless (host_drop hE h3 fun id hid => hlabel hid) fun _ => ?_
  refine sat_ite.2 ⟨fun h => host_drop hE h3 fun id hid => ?_, fun _ => host_drop hE h3 fun id hid => hlabel hid⟩
  cases hid
  cases observed with
  | error e => cases h.2
  | ok actual => exact hseen (congrArg Except.ok (Option.some.inj h.2))

theorem settled_mutateUnconfirmed (hw : w.Settled none) (hsb : sb.state ≠ .absent) :
    Settling E (mutateUnconfirmed intent sb) w := by
  refine host_silent_guard hE (silent_storeAppend _) hw (fun _ _ h => h) fun w1 h1 _ => ?_
  have hset (e : Error) : Only Silent (store.setSandbox { sb with error := some e }) :=
    ⟨silent_change (if_neg hsb), fun _ _ _ => trivial⟩
  exact host_silent_guard hE (hset _) h1 (fun _ _ h => h) fun _ h _ => h

theorem settled_mutateConfirmed (hw : w.Settled none)
    (hobs : sb.state = .absent → w.observed.lookup sb.id = some .absent) :
    Settling E (mutateConfirmed key fp intent sb) w := by
  refine host_silent_guard hE (silent_checkpoint _) hw (fun _ _ h => h) fun w1 h1 hobs1 => ?_
  refine host_silent hE silent_now h1 fun t w2 h2 hobs2 _ => ?_
  refine host_silent_guard hE (silent_checkpoint _) h2 (fun _ _ h => h) fun w3 h3 hobs3 => ?_
  refine Sat.guard (host_drop hE h3 fun id hid => ?_) (fun _ _ h => h) fun w4 h4 => ?_
  · obtain ⟨hstate, hid⟩ := Option.ite_none_right_eq_some.1 hid
    rw [← Option.some.inj hid, hobs3, hobs2, hobs1]
    exact hobs hstate
  · -- Nothing after the commit drops a record.
    have henv (c : EnvCall) : Quiet (.env c) := (Looks.aside (by simp)).silent.toQuiet
    have happend (e : JournalEntry) : Quiet (.store (.append e)) := (silent_append e).toQuiet
    refine (settled_of_quiet (R := fun _ => True) hE ?_ h4).mono fun _ _ h => h.1
    simp [Option.forall, henv, happend]

/-- `mutate` after its steps: a delete that succeeded is confirmed. -/
theorem settled_mutateEnded {r : Sandbox × Option Err} (hr : Leaves E r w) :
    Settling E (mutateEnded method key fp intent r) w := by
  obtain ⟨hw, herr, hok⟩ := hr
  obtain ⟨sb, _ | e⟩ := r
  · refine host_checkpoint ⟨hw.vacant, (Looks.aside (by simp)).silent.witnessed w⟩ (fun _ => hw) ?_
    refine host_observe_reply ⟨hw.vacant, (quiet_observe _).witnessed w⟩ fun r a ha hrep hr => ?_
    have h1 := hw.quiet (quiet_observe sb.id) (hE w _ a ha)
    -- A missing instance is observed, so the delete is confirmed.
    have hconfirmed (hstate : sb.state = .absent) : r = .ok .absent := by
      obtain ⟨habsent, hconfirms⟩ := hok rfl hstate
      have herr : a.err = none := hconfirms w _ a ha habsent
      rw [hrep, herr, hE w _ a ha sb.id habsent fun _ hc => (by cases hc)]
    cases r with
    | error e => exact settled_mutateUnconfirmed hE h1 fun hstate => by cases hconfirmed hstate
    | ok actual =>
      refine sat_ite.2 ⟨fun hmatch => ?_, fun hmatch => ?_⟩
      · exact settled_mutateConfirmed hE h1 fun hstate => hr _ (hconfirmed hstate)
      · refine settled_mutateUnconfirmed hE h1 fun hstate => hmatch ?_
        cases hconfirmed hstate
        rw [hstate]
        rfl
  · exact settled_mutateFailed hE hw (herr (by simp)) e

theorem settled_mutate {fn : Sandbox → Act (Sandbox × Option Err)} (hw : w.Settled none)
    (hfn : ∀ w', w'.Settled none → w'.observed = w.observed → Ensures E Justified (fn sb) w' (Leaves E)) :
    Settling E (mutate method key fp sb fn) w := by
  refine host_silent hE silent_replay hw fun r w1 h1 hobs1 _ => ?_
  cases r with
  | some r => exact h1
  | none =>
    have hgeneration : Only Silent generation := ⟨(Looks.aside (by simp)).silent, fun _ _ _ => trivial⟩
    refine host_silent hE hgeneration h1 fun op w2 h2 hobs2 _ => ?_
    refine host_silent_guard hE (silent_checkpoint _) h2 (fun _ _ h => h) fun w3 h3 hobs3 => ?_
    refine host_silent_guard hE (silent_storeAppend _) h3 (fun _ _ h => h) fun w4 h4 hobs4 => ?_
    refine host_silent_guard hE (silent_checkpoint _) h4 (fun _ _ h => h) fun w5 h5 hobs5 => ?_
    refine host_silent_guard hE (silent_checkpoint _) h5 (fun _ _ h => h) fun w6 h6 hobs6 => ?_
    have hobs : w6.observed = w.observed := by rw [hobs6, hobs5, hobs4, hobs3, hobs2, hobs1]
    exact (hfn w6 h6 hobs).bind fun r w7 h7 => settled_mutateEnded hE h7

/-! ## The steps of each operation -/

/-- A create labels its record before it makes the instance, and has observed
nothing of it. -/
theorem settled_createFn {firstSandbox : Bool} (hw : w.Settled none) (hsb : sb.state ≠ .absent)
    (hobs : w.observed.lookup sb.id = none) :
    Ensures E Justified (s.createFn firstSandbox sb) w fun r w' =>
      w'.Settled none ∧ (r.2 ≠ none → r.1.state ≠ .absent) := by
  have hset : Silent (.store (.change (.setSandbox sb))) := silent_change (if_neg hsb)
  have hvacant {id : String} {r : Sandbox} (hr : (w.store.data.change (.setSandbox sb)).sandboxes.lookup id = some r)
      (hstate : r.state = .absent) : w.kernel.state id = .absent := by
    rcases lookup_insert_cases hr with ⟨-, rfl⟩ | hr
    · exact absurd hstate hsb
    · exact hw.vacant id r (.inl hr) hstate
  refine host_change ⟨hw.vacant, hset.witnessed w⟩ (fun e d hd => ⟨⟨fun id r hr hstate => ?_, hw.trusts⟩, fun _ => hsb⟩) ?_
  · rcases hr with hr | hr
    · exact hw.vacant id r (.inl hr) hstate
    · rcases hd with rfl | rfl
      · exact hw.vacant id r (.inr hr) hstate
      · exact hvacant hr hstate
  generalize hw1 : ({ w with store := { w.store with
    data := w.store.data.change (.setSandbox sb), disk := w.store.data.change (.setSandbox sb) } } : World) = w1
  have hrecord {r : Sandbox} (hr : w1.store.Records sb.id r) : r = sb := by
    subst hw1
    simpa [Store.Records, Snapshot.change, eq_comm] using hr
  have hobs1 : w1.observed.lookup sb.id = none := by
    subst hw1
    exact hobs
  have h1 : w1.Settled none := by
    subst hw1
    exact ⟨fun id r hr hstate => hvacant (or_self_iff.1 hr) hstate, hw.trusts⟩
  -- Bringing the pool up changes neither the record nor what was observed.
  have hpool : Ensures E Justified (if firstSandbox then ensurePool else return none) w1 fun _ w' =>
      w'.Settled none ∧ w'.observed = w1.observed ∧ w'.store = w1.store :=
    Sat.unless (settled_of_silent hE silent_ensurePool h1) fun _ => ⟨h1, rfl, rfl⟩
  refine hpool.guard (fun _ _ h => ⟨h.1, fun _ => hsb⟩) fun w2 h2 => ?_
  refine host_perform ⟨h2.1.vacant, fun _ _ hc => (by cases hc)⟩ fun r a ha _ => ?_
  have hw3 : (step w2 (.kerf (.act .create sb)) a).1.Settled none := by
    have hobs3 : (step w2 (.kerf (.act .create sb)) a).1.observed.lookup sb.id = none := by
      show w2.observed.lookup sb.id = none
      rw [h2.2.1]
      exact hobs1
    have hcreated := h2.1.create (hE w2 _ a ha) (.inl rfl) fun r hr => by
      rw [h2.2.2] at hr
      exact hrecord hr ▸ hsb
    refine ⟨hcreated.vacant, fun id _ hid => hcreated.trusts id (fun heq => ?_) hid⟩
    cases heq
    rw [hobs3] at hid
    cases hid
  cases r with
  | some e => exact host_silent hE (silent_rollbackPool _) hw3 fun _ _ h _ _ => ⟨h, fun _ => hsb⟩
  | none =>
    refine host_silent hE (silent_provisionStorage .request sb) hw3 fun r w4 h4 _ hr => ?_
    obtain ⟨sb', _ | e⟩ := r
    · have hsb' : sb'.state ≠ .absent := fun h => hsb (hr.1.symm.trans h)
      refine host_silent_guard hE (silent_setSandbox hsb') h4 (fun _ w5 h5 => ?_) fun _ h _ => ⟨h, fun h => absurd rfl h⟩
      refine host_silent hE (silent_releaseStorage .detached sb') h5 fun r w6 h6 _ hr => ?_
      exact host_silent hE (silent_backend (by simp) r.1) h6 fun _ _ h _ _ => ⟨h, fun _ h => hsb' (hr.1.symm.trans h)⟩
    · refine host_silent hE (silent_backend (by simp) sb') h4 fun _ w5 h5 _ _ => ?_
      exact host_silent hE (silent_rollbackPool _) h5 fun _ _ h _ _ => ⟨h, fun _ h => hsb (hr.1.symm.trans h)⟩

theorem leaves_createFn {firstSandbox : Bool} (hw : w.Settled none) (hsb : sb.state ≠ .absent)
    (hobs : w.observed.lookup sb.id = none) :
    Ensures E Justified (s.createFn firstSandbox sb) w (Leaves E) := by
  have hsteps : Steps (fun _ => True) sb .created (s.createFn firstSandbox sb) :=
    (allocates_createFn firstSandbox (.refl sb)).mono fun _ _ => trivial
  have hlift : Yields E (s.createFn firstSandbox sb) w fun r _ =>
      r.1.Same sb ∧ (r.2 = none → r.1.state = .created) := Emits.lift hsteps
  refine ((settled_createFn hE hw hsb hobs).and hlift).mono fun r w' h => ?_
  refine ⟨h.1.1, h.1.2, fun hok hstate => ?_⟩
  rw [h.2.2 hok] at hstate
  cases hstate

theorem leaves_transitionFn {intermediate : Option State} {target : State} {fn : Sandbox → Act (Option Err)}
    (hw : w.Settled none) (hsb : sb.state ≠ .absent) (hinter : intermediate ≠ some .absent) (htarget : target ≠ .absent)
    (hfn : Only (Moves sb) (fn sb)) :
    Ensures E Justified (transitionFn intermediate target fn sb) w (Leaves E) := by
  have hmoving : intermediate.getD sb.state ≠ .absent := by
    cases intermediate with
    | none => exact hsb
    | some st => exact fun h => hinter (congrArg some h)
  have hset : Only Silent (if intermediate.isSome then
      store.setSandbox { sb with state := intermediate.getD sb.state } else return none) :=
    Sat.unless (silent_setSandbox hmoving) fun _ => trivial
  have hmoves : Only Silent (fn sb) := hfn.imp (fun _ h => h.silent (by simp))
  refine host_silent_guard hE hset hw (fun _ _ h => ⟨h, fun _ => hmoving, fun h => by cases h⟩) fun w1 h1 _ => ?_
  exact host_silent_guard hE hmoves h1 (fun _ _ h => ⟨h, fun _ => hmoving, fun h => by cases h⟩)
    fun _ h _ => ⟨h, fun h => absurd rfl h, fun _ h => absurd h htarget⟩

/-- A delete that succeeds has removed the instance. -/
theorem leaves_deleteFn (hconfirms : ∀ w c a, E w c a → Confirms w c a) (hw : w.Settled none) :
    Ensures E Justified (s.deleteFn sb) w (Leaves E) := by
  have hfailed {w' : World} {sb' : Sandbox} {e : Err} (h : w'.Settled none) (hsb' : sb'.state = .releasing) :
      Leaves E (sb', some e) w' :=
    ⟨h, fun _ hstate => (by rw [hsb'] at hstate; cases hstate), fun h => (by cases h)⟩
  have hset : Only Silent (store.setSandbox { sb with state := .releasing }) := silent_setSandbox (by simp)
  refine host_silent_guard hE hset hw (fun _ _ h => hfailed h rfl) fun w1 h1 _ => ?_
  refine host_silent_guard hE (silent_actIf (by simp) _) h1 (fun _ _ h => hfailed h rfl) fun w2 h2 _ => ?_
  refine host_silent hE (silent_releaseStorage .request _) h2 fun r w3 h3 _ hr => ?_
  obtain ⟨sb', _ | e⟩ := r
  · have hdelete : Silent (.kerf (.act .delete sb')) := silent_act (by simp) sb'
    refine host_perform ⟨h3.vacant, hdelete.witnessed w3⟩ fun r a ha hrep => ?_
    have h4 := h3.quiet hdelete.toQuiet (hE w3 _ a ha)
    cases r with
    | some e => exact hfailed h4 hr.1
    | none =>
      refine ⟨h4, fun h => absurd rfl h, fun _ _ => ⟨hconfirms w3 _ a ha ?_, hconfirms⟩⟩
      cases herr : a.err with
      | none => rfl
      | some e =>
        simp only [step, Kernel.call, herr] at hrep
        cases hrep
  · exact hfailed h3 hr.1

/-! ## Requests -/

theorem settled_transition {source : List State} {intermediate : Option State} {target : State}
    {fn : Sandbox → Act (Option Err)} (hw : w.Settled none) (hsource : .absent ∉ source)
    (hinter : intermediate ≠ some .absent) (htarget : target ≠ .absent)
    (hfn : ∀ sb, Only (Moves sb) (fn sb)) :
    Settling E (transition id gen key method source intermediate target fn) w := by
  refine host_transition (fun _ h => ⟨hw.vacant, h.looks.silent.witnessed w⟩) (fun _ _ => hw) fun sb _ => ?_
  refine Sat.mono (Q := fun _ w' => w'.Settled none) ?_ fun _ _ h => ⟨fun l => Settled.unlock h l, h⟩
  refine Sat.unless hw fun _ => host_silent hE silent_replay hw fun r w1 h1 _ _ => ?_
  cases r with
  | some r => exact h1
  | none =>
    refine sat_ite.2 ⟨fun hdone => settled_mutate hE h1 fun w2 h2 _ => ?_, fun _ => Sat.unless h1 fun hin => ?_⟩
    · exact ⟨h2, fun h => absurd rfl h, fun _ h => absurd (hdone.symm.trans h) htarget⟩
    · have hsb : sb.state ≠ .absent := fun h => hin fun hmem => hsource (h ▸ hmem)
      exact settled_mutate hE h1 fun w2 h2 _ => leaves_transitionFn hE h2 hsb hinter htarget (hfn sb)

theorem settled_delete (hconfirms : ∀ w c a, E w c a → Confirms w c a) (hw : w.Settled none) :
    Settling E (s.delete id gen key) w := by
  refine host_delete (fun _ h => ⟨hw.vacant, h.looks.silent.witnessed w⟩) (fun _ _ => hw) fun sb _ => ?_
  refine Sat.mono (Q := fun _ w' => w'.Settled none) ?_ fun _ _ h => ⟨fun l => Settled.unlock h l, h⟩
  exact Sat.unless hw fun _ => settled_mutate hE hw fun w' h' _ => leaves_deleteFn hE hconfirms h'

/-- A cancellation drops a record that it has observed ABSENT. -/
theorem undone_settled {c : SandboxConfig} :
    Undone E Justified (World.Settled none) (World.Settled none) c key fp where
  guard w _ hw hx := ⟨hw.vacant, hx.quiet.witnessed w⟩
  step w x a ha hw hx := hw.quiet hx.quiet (hE w x a ha)
  stop _ hw := hw
  pool w hw _ := by
    have hsnapshot : Quiet (.store .snapshot) := Looks.snapshot.silent.toQuiet
    have hpool : Only Quiet cancelPool := by
      simp [cancelPool, Option.forall, hsnapshot, silent_pool.2.2.2.1.toQuiet, (silent_pool.2.1 _).toQuiet]
    exact (settled_of_quiet hE hpool hw).mono fun _ _ h => h.1
  abort w failure hw hobs := by
    refine ⟨⟨hw.vacant, fun ch id hc hdrop => ?_⟩, fun a ha => hw.step (hE w _ a ha) (fun _ hc => (by cases hc)) ?_⟩
    · cases hc
      cases hdrop
      exact hobs
    · intro ch id hc hdrop
      cases hc
      cases hdrop
      exact hw.trusts _ (by simp) hobs

theorem settled_create {c : SandboxConfig} (hkeyed : w.store.Keyed) (hw : w.Settled none) (hobs : w.observed = ∅) :
    Settling E (s.create c key) w := by
  refine host_create (fun w' _ h hc => ⟨(hw.beside h).vacant, hc.silent.witnessed w'⟩) (fun _ _ h _ => hw.beside h)
    fun w' v t h _ _ => ?_
  refine Sat.mono (Q := fun _ w' => w'.Settled none) ?_ fun _ _ h => ⟨fun l => Settled.unlock h l, h⟩
  have hmutate : Settling E (mutate .createSandbox key (.create c) (newSandbox c (hexGeneration v) t)
      (s.createFn w.store.data.list.isEmpty)) w' :=
    settled_mutate hE (hw.beside h) fun w2 h2 hobs2 =>
      leaves_createFn hE h2 (by simp [newSandbox]) (by simp [hobs2, h.observed, hobs])
  refine host_orCancelled (host_keyed hmutate (h.store ▸ hkeyed)) (fun _ _ h => h.1)
    fun _ w1 h1 => ⟨⟨h1.1.vacant, (Looks.aside (by simp)).silent.witnessed w1⟩, fun w2 h2 => ?_⟩
  have hw2 := h1.1.beside h2
  exact ⟨hw2, fun _ => (host_cancelCreateLocked (undone_settled hE) (h2.store ▸ h1.2) hw2).mono fun _ _ h _ => h⟩

theorem settled_cancelCreate {ctx : Ctx} {c : SandboxConfig} (hkeyed : w.store.Keyed) (hw : w.Settled none) :
    Settling E (s.cancelCreate ctx c key) w :=
  host_cancelCreate (undone_settled hE) (fun _ l h => Settled.unlock h l) hkeyed hw

theorem settled_load (hkeyed : w.store.Keyed) (hw : w.Settled none) : Settling E (s.load id gen key) w := by
  have htrans : Settling E (transition id gen key .loadSandbox [.created] none .loaded s.loadFn) w :=
    settled_transition hE hw (by simp) (by simp) (by simp) fun sb => moves_loadFn (.refl sb)
  refine host_orCancelled (host_keyed htrans hkeyed) (fun _ _ h => h.1)
    fun _ w1 h1 => ⟨⟨h1.1.vacant, (Looks.aside (by simp)).silent.witnessed w1⟩, fun w2 h2 => ?_⟩
  have hw2 := h1.1.beside h2
  exact ⟨hw2, fun _ => (host_cancelLoaded (fun _ hx => ⟨hw2.vacant, hx.silent.witnessed w2⟩) hw2
    (fun _ _ _ _ _ => ⟨World.Settled none, hw2, undone_settled hE⟩) (fun _ l h => Settled.unlock h l)
    (h2.store ▸ h1.2)).mono fun _ _ h _ => h⟩

end Operations

/-! ## Reconcile -/

/-- What the recovery of `sb` must leave: an error says nothing of its
instance, a result ABSENT was observed. -/
structure Recovered (sb : Sandbox) (r : Sandbox × Except Err State) (w : World) : Prop where
  state : r.1.state = sb.state
  settled : w.Settled (some sb.id)
  ok : ∀ st, r.2 = .ok st → w.Settled none ∧ (st = .absent → w.observed.lookup r.1.id = some .absent)

theorem recovered_error {e : Err} {sb' : Sandbox} (hw : w.Settled none) (h : sb'.state = sb.state) :
    Recovered sb (sb', .error e) w :=
  ⟨h, hw.weaken _, fun _ h => (by cases h)⟩

/-- No record of an interrupted create is labelled ABSENT. -/
def Unlabelled (pending : List JournalEntry) (st : Store) : Prop :=
  ∀ e ∈ pending, e.method = .createSandbox → ∀ sb, e.sandbox = some sb →
    ∀ r, st.Records sb.id r → r.state ≠ .absent

/-- The call labels no record ABSENT: what `Commit` has to label so, it drops. -/
def Labels (c : Call) : Prop :=
  ∀ ch sb, c = .store (.change ch) → ch.adds = some sb → sb.state = .absent → ∃ key fp r, ch = .commit sb key fp r

theorem Unlabelled.step (h : Unlabelled pending w.store) (hc : Labels c) (a : Answer)
    : Unlabelled pending (step w c a).1.store := by
  intro e he hm sb hsb r hr hstate
  rcases records_step hr with hold | ⟨ch, rfl, hadds, hid⟩
  · exact h e he hm sb hsb r hold hstate
  · obtain ⟨key, fp, res, rfl⟩ := hc ch r rfl hadds hstate
    -- The commit of an ABSENT sandbox erases its record.
    have hgone : (w.store.data.change (.commit r key fp res)).sandboxes.lookup sb.id = none := by
      simp [Snapshot.change, hstate, hid]
    change (w.store.persist _ a.write).1.Records sb.id r at hr
    rcases Store.persist_cases w.store (w.store.data.change (.commit r key fp res)) a.write with ⟨e', _, hs, rfl | rfl⟩ | hs <;>
      rw [hs] at hr
    · exact h e he hm sb hsb r hr hstate
    · exact h e he hm sb hsb r (.inl (hr.resolve_right (by simp [hgone]))) hstate
    · simp [Store.Records, hgone] at hr

theorem labels_recoverFinish {st : State} : Only Labels (recoverFinish intent sb st) := by
  have happend (e : JournalEntry) : Labels (.store (.append e)) := fun _ _ hc => (by cases hc)
  have hcommit (sb : Sandbox) (key : String) (fp : Fingerprint) (r : MutationResult) :
      Labels (.store (.change (.commit sb key fp r))) := by
    intro ch sb' hc hadds _
    cases hc
    cases hadds
    exact ⟨key, fp, r, rfl⟩
  simp [recoverFinish, Option.forall, happend, hcommit]

/-- A recovery changes no record before it finishes or fails. -/
theorem store_of_resumes {σ : Sandbox} (h : Resumes σ c) (w : World) (a : Answer) : (step w c a).1.store = w.store := by
  cases h with
  | probes h =>
    cases h with
    | acts h =>
      cases h with
      | aside h => exact store_of_reads (.aside h.aside) w a
      | act => rfl
    | observe => rfl
  | poolReady | setPoolReady | ensurePool => rfl

theorem host_recover : Yields E (s.recover method sb actual) w fun _ w' => w'.store = w.store := by
  have hp : Emits (Resumes sb) (s.recover method sb actual) fun r => r.1.Same sb := resumes_recover (.refl sb)
  have h := host_keeps (E := E) (J := fun w' => w'.store = w.store) hp rfl
    fun w' c a hw' hc => (store_of_resumes hc w' a).trans hw'
  exact h.imp (fun _ _ _ => trivial) fun _ _ h => h.1

section Reconcile
variable (hE : ∀ w c a, E w c a → Still w c a)
include hE

theorem recovered_recoverObserve {sb' : Sandbox} {wanted : List State} {st : State} (hw : w.Settled none)
    (hsb : sb'.state = sb.state) (hst : st = .absent → wanted = [.absent]) :
    Ensures E Justified (recoverObserve sb' wanted st) w (Recovered sb) := by
  refine host_observed hE hw fun r w1 h1 hobs => ?_
  cases r with
  | error e => exact recovered_error h1 hsb
  | ok actual =>
    by_cases hmem : actual ∈ wanted
    · refine ⟨hsb, h1.weaken _, fun st' hst' => ⟨h1, fun habsent => ?_⟩⟩
      have hst'' : st = st' := by simpa [hmem] using hst'
      have hactual : actual = .absent := by simpa [hst (hst''.trans habsent)] using hmem
      exact hactual ▸ hobs actual rfl
    · exact ⟨hsb, h1.weaken _, fun st' hst' => by simp [hmem] at hst'⟩

/-- A missing instance is made for a record that is not labelled ABSENT. -/
theorem settled_createMissing (hw : w.Settled none) (hlabel : ∀ r, w.store.Records sb.id r → r.state ≠ .absent) :
    Ensures E Justified (createMissing sb actual) w fun _ w' => w'.Settled (some sb.id) := by
  refine Sat.unless (hw.weaken _) fun _ => ?_
  refine (settled_of_silent hE silent_ensurePool hw).guard (fun _ _ h => h.1.weaken _) fun w1 h1 => ?_
  refine ⟨⟨h1.1.vacant, fun _ _ hc => (by cases hc)⟩, fun r w2 h2 => ?_⟩
  obtain ⟨a, ha, h2⟩ := h2
  have hstep : (step w1 (.kerf (.act .create sb)) a).1 = w2 := congrArg Prod.fst h2
  show w2.Settled (some sb.id)
  exact hstep ▸ h1.1.create (hE w1 _ a ha) (.inl rfl) fun r hr => hlabel r (h1.2.2 ▸ hr)

theorem recovered_recoverCreate (hw : w.Settled none) (hlabel : ∀ r, w.store.Records sb.id r → r.state ≠ .absent) :
    Ensures E Justified (s.recoverCreate sb actual) w (Recovered sb) := by
  refine (settled_createMissing hE hw hlabel).guard (fun _ _ h => ⟨rfl, h, fun _ h => (by cases h)⟩) fun w1 h1 => ?_
  refine host_observe ⟨h1.vacant, (quiet_observe _).witnessed w1⟩ fun r a ha _ => ?_
  have h2 := h1.observe (hE w1 _ a ha)
  cases r with
  | error e => exact recovered_error h2 rfl
  | ok actual =>
    refine Sat.unless (recovered_error h2 rfl) fun _ => ?_
    refine host_silent hE (silent_provisionStorage .request sb) h2 fun r w3 h3 _ hr => ?_
    obtain ⟨sb', _ | e⟩ := r
    · refine ⟨hr.1, h3.weaken _, fun st hst => ⟨h3, fun habsent => ?_⟩⟩
      cases hst
      cases habsent
    · exact recovered_error h3 hr.1

theorem recovered_recoverLoad (hw : w.Settled none) :
    Ensures E Justified (s.recoverLoad sb actual) w (Recovered sb) := by
  have hload : Emits Silent (if actual = .created then s.loadRecovered sb else return (sb, none)) fun r =>
      r.1.state = sb.state := Sat.unless silent_loadRecovered fun _ => sat_pure.2 rfl
  refine host_silent hE hload hw fun r w1 h1 _ hr => ?_
  obtain ⟨sb', _ | e⟩ := r
  · exact recovered_recoverObserve hE h1 hr fun h => by cases h
  · exact recovered_error h1 hr

theorem recovered_recoverStart (hw : w.Settled none) :
    Ensures E Justified (recoverStart sb actual) w (Recovered sb) :=
  host_silent_guard hE (silent_actIf (by simp) sb) hw (fun _ _ h => recovered_error h rfl)
    fun _ h _ => recovered_recoverObserve hE h rfl fun h => by cases h

/-- A stop ends ABSENT only when the instance was observed so. -/
theorem recovered_recoverStop (hw : w.Settled none) (hobs : w.observed.lookup sb.id = some actual) :
    Ensures E Justified (s.recoverStop sb actual) w (Recovered sb) := by
  refine host_silent_guard hE (silent_actIf (by simp) sb) hw (fun _ _ h => recovered_error h rfl) fun w1 h1 hobs1 => ?_
  refine sat_ite.2 ⟨fun habsent => ?_, fun _ => recovered_recoverObserve hE h1 rfl fun h => by cases h⟩
  refine host_silent hE (silent_releaseStorage .request sb) h1 fun r w2 h2 hobs2 hr => ?_
  obtain ⟨sb', _ | e⟩ := r
  · have hid : sb'.id = sb.id := hr.2
    refine ⟨hr.1, h2.weaken _, fun st _ => ⟨h2, fun _ => ?_⟩⟩
    show w2.observed.lookup sb'.id = some .absent
    rw [hobs2, hobs1, hid, hobs, habsent]
  · exact recovered_error h2 hr.1

theorem recovered_recoverDelete (hw : w.Settled none) :
    Ensures E Justified (s.recoverDelete sb actual) w (Recovered sb) := by
  refine host_silent_guard hE (silent_actIf (by simp) sb) hw (fun _ _ h => recovered_error h rfl) fun w1 h1 _ => ?_
  have hrelease : Emits Silent (if actual ≠ .absent then s.releaseStorage .request sb else return (sb, none)) fun r =>
      r.1.state = sb.state :=
    Sat.unless ((silent_releaseStorage .request sb).mono (fun _ h => h) fun _ h => h.1) fun _ => sat_pure.2 rfl
  refine host_silent hE hrelease h1 fun r w2 h2 _ hr => ?_
  obtain ⟨sb', _ | e⟩ := r
  · exact host_silent_guard hE (silent_actIf (by simp) sb') h2 (fun _ _ h => recovered_error h hr)
      fun _ h _ => recovered_recoverObserve hE h hr fun _ => rfl
  · exact recovered_error h2 hr

theorem recovered_recover (hw : w.Settled none) (hobs : w.observed.lookup sb.id = some actual)
    (hlabel : method = .createSandbox → ∀ r, w.store.Records sb.id r → r.state ≠ .absent) :
    Ensures E Justified (s.recover method sb actual) w (Recovered sb) := by
  cases method with
  | createSandbox => exact recovered_recoverCreate hE hw (hlabel rfl)
  | loadSandbox => exact recovered_recoverLoad hE hw
  | startSandbox => exact recovered_recoverStart hE hw
  | stopSandbox => exact recovered_recoverStop hE hw hobs
  | deleteSandbox => exact recovered_recoverDelete hE hw

theorem settled_recoverFinish {st : State} (hw : w.Settled none)
    (hobs : st = .absent → w.observed.lookup sb.id = some .absent) : Settling E (recoverFinish intent sb st) w := by
  refine Sat.guard (host_drop hE hw fun id hid => ?_) (fun _ _ h => h) fun w1 h1 => ?_
  · obtain ⟨hstate, hid⟩ := Option.ite_none_right_eq_some.1 hid
    exact Option.some.inj hid ▸ hobs hstate
  · have happend : Only Quiet (store.append { intent with phase := .complete, state := st }) :=
      ⟨(silent_append _).toQuiet, fun _ _ _ => trivial⟩
    exact (settled_of_quiet hE happend h1).mono fun _ _ h => h.1

theorem settled_recoverFail {cause : Err} (hw : w.Settled x) (hsb : sb.state ≠ .absent) :
    Ensures E Justified (recoverFail intent sb cause) w fun r w' => w'.Settled x ∧ r ≠ none := by
  have hset : Only Silent (store.setSandbox { sb with
      error := some (apierr .operatorAction "incomplete operation could not be reconciled safely" false) }) :=
    silent_setSandbox hsb
  refine host_silent_guard hE hset hw (fun _ _ h => ⟨h, by simp⟩) fun w1 h1 _ => ?_
  exact host_silent_guard hE (silent_storeAppend _) h1 (fun _ _ h => ⟨h, by simp⟩) fun _ h _ => ⟨h, by simp⟩

/-- The recovery of an intent ends settled, or with an error. -/
theorem settled_reconcileIncomplete (hw : w.Settled none) (hlabels : Unlabelled pending w.store)
    (hmem : intent ∈ pending) (hstate : ∀ sb, intent.sandbox = some sb → sb.state ≠ .absent) :
    Ensures E Justified (s.reconcileIncomplete intent) w fun r w' =>
      w'.Vacant ∧ (r = none → w'.Settled none ∧ Unlabelled pending w'.store) := by
  unfold reconcileIncomplete
  cases hsb : intent.sandbox with
  | none => exact ⟨hw.vacant, fun _ => ⟨hw, hlabels⟩⟩
  | some sb =>
    refine host_observe ⟨hw.vacant, (quiet_observe _).witnessed w⟩ fun r a ha hobs => ?_
    have h1 := hw.quiet (quiet_observe sb.id) (hE w _ a ha)
    cases r with
    | error e => exact ⟨h1.vacant, fun _ => ⟨h1, hlabels⟩⟩
    | ok actual =>
      have hrecover := recovered_recover (s := s) hE h1 (hobs actual rfl) fun hm => hlabels intent hmem hm sb hsb
      refine (hrecover.and host_recover).bind fun r w2 h2 => ?_
      obtain ⟨h2, hstore⟩ := h2
      obtain ⟨sb', e | st⟩ := r
      · have hstate' : sb'.state ≠ .absent := fun h => hstate sb hsb (h2.state.symm.trans h)
        exact (settled_recoverFail hE h2.settled hstate').mono fun _ _ h => ⟨h.1.vacant, fun hr => absurd hr h.2⟩
      · obtain ⟨h2, hobs2⟩ := h2.ok st rfl
        have hunlabelled : Unlabelled pending w2.store := hstore ▸ hlabels
        have hfinish : Only Labels (recoverFinish intent sb' st) := labels_recoverFinish
        have hkeeps := host_keeps (E := E) (J := fun w' => Unlabelled pending w'.store) hfinish hunlabelled
          fun _ _ a h hc => h.step hc a
        exact (Sat.and (settled_recoverFinish hE h2 hobs2) hkeeps).mono
          fun _ _ h => ⟨h.1.vacant, fun _ => ⟨h.1, h.2.1⟩⟩

theorem settled_reconcileIntents {todo : List JournalEntry} (hw : w.Settled none)
    (hlabels : Unlabelled pending w.store) (hsub : ∀ e ∈ todo, e ∈ pending)
    (hstate : ∀ e ∈ pending, ∀ sb, e.sandbox = some sb → sb.state ≠ .absent) :
    Ensures E Justified (s.reconcileIntents todo) w fun r w' => w'.Vacant ∧ (r = none → w'.Settled none) := by
  induction todo generalizing w with
  | nil => exact ⟨hw.vacant, fun _ => hw⟩
  | cons e rest ih =>
    have he := hsub e List.mem_cons_self
    refine (settled_reconcileIncomplete hE hw hlabels he (hstate e he)).guard
      (fun _ _ h => ⟨h.1, fun h => by cases h⟩) fun w1 h1 => ?_
    exact ih (h1.2 rfl).1 (h1.2 rfl).2 fun e' he' => hsub e' (List.mem_cons_of_mem _ he')

/-- A record labelled ABSENT is found to be right, so it is not marked. -/
theorem settled_reconcileStates {pending : List String} {todo : List Sandbox} (hw : w.Settled none)
    (htodo : ∀ sb ∈ todo, sb.state = .absent → w.kernel.state sb.id = .absent) :
    Settling E (reconcileStates pending todo) w := by
  induction todo generalizing w with
  | nil => exact hw
  | cons sb rest ih =>
    refine host_observe_reply ⟨hw.vacant, (quiet_observe _).witnessed w⟩ fun r a ha hrep _ => ?_
    have hstill := hE w _ a ha
    have h1 := hw.quiet (quiet_observe sb.id) hstill
    have hkeep {i : String} (hi : w.kernel.state i = .absent) :
        (step w (.kerf (.observe sb.id)) a).1.kernel.state i = .absent := hstill i hi fun _ hc => (by cases hc)
    have hrest := fun sb' hsb' hst => hkeep (htodo sb' (List.mem_cons_of_mem _ hsb') hst)
    cases r with
    | error e => exact h1
    | ok actual =>
      refine Sat.unless (ih h1 hrest) fun hmismatch => ?_
      have hstate : sb.state ≠ .absent := by
        intro habsent
        refine hmismatch (.inl ?_)
        have hactual : actual = .absent := by
          rw [hkeep (htodo sb List.mem_cons_self habsent)] at hrep
          cases herr : a.err with
          | none =>
            rw [herr] at hrep
            exact Except.ok.inj hrep
          | some e =>
            rw [herr] at hrep
            cases hrep
        rw [hactual, habsent]
        rfl
      have hset (e : Error) : Silent (.store (.change (.setSandbox { sb with error := some e }))) :=
        silent_change (if_neg hstate)
      refine host_perform ⟨h1.vacant, (hset _).witnessed _⟩ fun r b hb _ => ?_
      have h2 := h1.quiet (hset _).toQuiet (hE _ _ b hb)
      cases r with
      | some e => exact h2
      | none => exact ih h2 hrest

theorem settled_reconcile (hkeyed : w.store.Keyed) (hw : w.Settled none) (hlabels : Unlabelled w.store.pending w.store)
    (hstate : ∀ e ∈ w.store.pending, ∀ sb, e.sandbox = some sb → sb.state ≠ .absent) :
    Ensures E Justified s.reconcile w fun _ w' => w'.Vacant := by
  refine host_reconcile (fun w' _ h hc => ⟨(hw.beside h).vacant, hc.silent.witnessed w'⟩)
    (fun _ _ h => (hw.beside h).vacant) fun w1 recovery h1 _ => ?_
  refine Sat.mono (Q := fun _ w' => w'.Vacant) ?_
    fun _ w' h => ⟨fun _ => ⟨h, (Looks.aside (by simp)).silent.witnessed w'⟩, h⟩
  have hadopt : Only (fun c => Silent c ∧ Reads c) (adoptPool w.store.data) := by
    simp [adoptPool]
  have hstorage : Only (fun c => Silent c ∧ Reads c) (if s.storage then
      Storage.reconcile .request (storageOwners recovery w.store.data) else return none) :=
    Sat.unless ((Storage.apart_reconcile .request _).imp (fun _ h => ⟨(Looks.aside h.aside).silent, .aside h.aside⟩)) fun _ => trivial
  -- Up to the intents nothing changes the lifecycle store.
  refine (settled_of_silent hE hadopt (hw.beside h1)).bind fun _ w2 h2 => ?_
  refine (settled_of_silent hE hstorage h2.1).guard (fun _ _ h => h.1.vacant) fun w3 h3 => ?_
  have hstore : w3.store = w.store := h3.2.2.trans (h2.2.2.trans h1.store)
  have hintents := settled_reconcileIntents (s := s) (w := w3) hE h3.1 (hstore.symm ▸ hlabels) (fun _ h => h) hstate
  refine (host_keyed hintents (hstore.symm ▸ hkeyed)).guard (fun _ _ h => h.1.1) fun w4 h4 => ?_
  have hinventory : Only Quiet s.checkInventory := by
    have hsnapshot : Quiet (.store .snapshot) := Looks.snapshot.silent.toQuiet
    simp [checkInventory, list, hsnapshot, silent_pool.2.2.2.2.toQuiet]
  refine (host_keyed (settled_of_quiet hE hinventory (h4.1.2 rfl)) h4.2).guard (fun _ _ h => h.1.1.vacant) fun w5 h5 => ?_
  -- The records listed here are those of the store.
  refine sat_bind.2 (host_snapshot ⟨h5.1.1.vacant, Looks.snapshot.silent.witnessed w5⟩ ?_)
  refine sat_bind.1 (Sat.mono (settled_reconcileStates hE h5.1.1 fun sb hsb hstate => ?_) fun _ _ h => h.vacant)
  obtain ⟨id, hid⟩ := mem_list ((List.perm_insertionSort _ _).mem_iff.1 hsb)
  rw [h5.2.sandboxes id sb hid]
  exact h5.1.1.vacant id sb (.inl hid) hstate

theorem settled_boot (hkeyed : w.store.Keyed) (hw : w.Settled none) (hlabels : Unlabelled w.store.pending w.store)
    (hstate : ∀ e ∈ w.store.pending, ∀ sb, e.sandbox = some sb → sb.state ≠ .absent) :
    Ensures E Justified s.boot w fun _ w' => w'.Vacant := by
  refine host_snapshot ⟨hw.vacant, Looks.snapshot.silent.witnessed w⟩ ?_
  have hcheck : Only (fun c => Silent c ∧ Reads c) (if hasLiveSandboxes w.store.data then return none
      else do recoverIdlePool (← hostCheck)) := by
    have hhost : Silent (.env .hostCheck) := (Looks.aside (by simp)).silent
    simp [recoverIdlePool, Option.forall, hhost]
  refine (settled_of_silent hE hcheck hw).guard (fun _ _ h => h.1.vacant) fun w1 h1 => ?_
  refine settled_reconcile hE (h1.2.2 ▸ hkeyed) h1.1 ?_ ?_
  all_goals rwa [h1.2.2]

theorem settled_releaseIdlePool (hw : w.Settled none) :
    Ensures E Justified releaseIdlePool w fun _ w' => w'.Vacant := by
  have hlock (l : Lock) : Silent (.env (.lock l)) := (Looks.aside (by simp)).silent
  have hunlock (l : Lock) : Silent (.env (.unlock l)) := (Looks.aside (by simp)).silent
  have hp : Only Silent releaseIdlePool := by
    simp [releaseIdlePool, releasePool, Option.forall, hlock, hunlock, Looks.snapshot.silent]
  exact (settled_of_quiet hE (hp.imp (fun _ h => h.toQuiet)) hw).mono fun _ _ h => h.1.vacant

end Reconcile

end Service

/-- The backend makes no instance by itself; a delete finds its effect when it
looks; and a new daemon finds no incomplete intent of a sandbox that the intent
labels ABSENT, nor a create whose record is. -/
def Service.Confirmed (s : Service) (w : World) (op : Op) (as : List Answer) : Prop :=
  Meets Host (fun w c a => Still w c a ∧ ((∃ id gen key, op = .request (.delete id gen key)) → Confirms w c a))
    (op.program s) w as ∧
  (op = .boot → (∀ e ∈ w.store.pending, ∀ sb, e.sandbox = some sb → sb.state ≠ .absent) ∧
    Service.Unlabelled w.store.pending w.store)

namespace Service
variable {s : Service} {w : World}

theorem settled_op {E : Env} {op : Op} (hE : ∀ w c a, E w c a → Still w c a)
    (hdelete : (∃ id gen key, op = .request (.delete id gen key)) → ∀ w c a, E w c a → Confirms w c a)
    (hboot : op = .boot → (∀ e ∈ w.store.pending, ∀ sb, e.sandbox = some sb → sb.state ≠ .absent) ∧
      Unlabelled w.store.pending w.store)
    (hkeyed : w.store.Keyed) (hw : w.Vacant) (hobs : w.observed = ∅) :
    Ensures E Justified (op.program s) w fun _ w' => w'.Vacant := by
  have hsettled : w.Settled none := ⟨hw, fun id _ h => by simp [hobs] at h⟩
  cases op with
  | boot => exact (settled_boot hE hkeyed hsettled (hboot rfl).2 (hboot rfl).1).bind fun _ _ h => h
  | shutdown => exact (settled_releaseIdlePool hE hsettled).bind fun _ _ h => h
  | request r =>
    cases r with
    | create c key => exact (settled_create hE hkeyed hsettled hobs).bind fun _ _ h => h.vacant
    | load id gen key => exact (settled_load hE hkeyed hsettled).bind fun _ _ h => h.vacant
    | start id gen key =>
      exact (settled_transition hE hsettled (by simp) (by simp) (by simp) fun sb => acts_backend (by simp) (.refl sb)).bind
        fun _ _ h => h.vacant
    | stop id gen key =>
      exact (settled_transition hE hsettled (by simp) (by simp) (by simp) fun sb => moves_stopFn (.refl sb)).bind
        fun _ _ h => h.vacant
    | delete id gen key => exact (settled_delete hE (hdelete ⟨id, gen, key, rfl⟩) hsettled).bind fun _ _ h => h.vacant
    | cancelCreate c key => exact (settled_cancelCreate hE hkeyed hsettled).bind fun _ _ h => h.vacant

theorem vacant_op {op : Op} {as : List Answer} (hkeyed : w.store.Keyed) (hw : w.Vacant) (hobs : w.observed = ∅)
    (hK : s.Confirmed w op as) :
    Sat (Host.trans fun w c a => Still w c a ∧ ((∃ id gen key, op = .request (.delete id gen key)) → Confirms w c a))
      Justified (op.program s) w fun _ w' => w'.Vacant :=
  settled_op (fun _ _ _ h => h.1) (fun hop _ _ _ h => h.2 hop) hK.2 hkeyed hw hobs

/-- In a run whose deletes are confirmed, an operation removes a record or
labels it ABSENT only after it last observed the instance ABSENT, and at every
call a record labelled ABSENT has no instance. -/
theorem witnessed_of_confirmed (s : Service) (ts : List Turn) (h : s.Conforming s.Confirmed ts) :
    ∀ x ∈ s.runCalls .init ts, Witnessed x.2.1 x.2.2 ∧ x.2.1.Vacant := by
  refine h.observed.calls (J := fun w => w.store.Keyed ∧ w.Vacant) (P := fun _ w c => Witnessed w c ∧ w.Vacant)
    ⟨Store.keyed_empty, fun id sb hsb => by simp [Daemon.init, World.init, Store.Records, Store.empty] at hsb⟩ (fun _ h => h) ?_ ?_ ?_
  · rintro w st ⟨hkeyed, hw⟩ hst
    exact ⟨hkeyed.reopen hst, fun id sb hsb => hw id sb (.inr (Store.records_reopen hst hsb))⟩
  · rintro w op as ⟨hkeyed, hw⟩ ⟨hK, hobs⟩
    exact ⟨exec_keyed _ hkeyed as,
      (vacant_op hkeyed hw hobs hK).exec_world (fun _ _ h => h.1) (fun _ _ h => h) as hK.1⟩
  · rintro w op as ⟨hkeyed, hw⟩ ⟨hK, hobs⟩ x hx
    exact ((vacant_op hkeyed hw hobs hK).calls hK.1 x hx).symm

/-! ## Runs on fixed inputs -/

/-- `Still` and `Confirms` as a check. -/
def stillAndConfirms (w : World) (c : Call) (a : Answer) : Bool :=
  match c with
  | .kerf (.act .create _) => true
  | .kerf (.act op sb) =>
    (w.kernel.state sb.id ≠ .absent && (op ≠ .delete || a.err ≠ none)) || (step w c a).1.kernel.state sb.id = .absent
  | .kerf (.observe id) =>
    w.kernel.state id ≠ .absent || (a.err = none && (step w c a).1.kernel.state id = .absent)
  | _ => true

theorem state_of_act_ne (h : id ≠ sb.id) (a : Answer) :
    (step w (.kerf (.act op sb)) a).1.kernel.state id = w.kernel.state id := by
  simp only [step, Kernel.call]
  cases a.err with
  | none | some => exact Kernel.state_setState_ne _ _ h

theorem still_of_check (h : stillAndConfirms w c a) : Still w c a ∧ Confirms w c a := by
  have hother {c : Call} (hk : ∀ id, (step w c a).1.kernel.state id = w.kernel.state id) : Still w c a :=
    fun id hid _ => (hk id).trans hid
  cases c with
  | kerf c =>
    cases c with
    | observe i =>
      simp only [stillAndConfirms, Bool.or_eq_true, Bool.and_eq_true, decide_eq_true_eq] at h
      refine ⟨fun id hid _ => ?_, fun habsent => (h.resolve_left (not_not.2 habsent)).1⟩
      by_cases hi : id = i
      · subst hi
        exact (h.resolve_left (not_not.2 hid)).2
      · exact (Kernel.state_setState_ne _ _ hi).trans hid
    | act op sb =>
      by_cases hop : op = .create
      · subst hop
        refine ⟨fun id hid hne => ?_, trivial⟩
        rw [state_of_act_ne (fun heq => hne sb rfl heq.symm)]
        exact hid
      · have hcheck : (w.kernel.state sb.id ≠ .absent ∧ (op ≠ .delete ∨ a.err ≠ none)) ∨
            (step w (.kerf (.act op sb)) a).1.kernel.state sb.id = .absent := by
          cases op <;> simp_all [stillAndConfirms]
        refine ⟨fun id hid _ => ?_, ?_⟩
        · by_cases hi : id = sb.id
          · subst hi
            exact hcheck.resolve_left fun h => h.1 hid
          · exact (state_of_act_ne hi a).trans hid
        · cases op with
          | delete => exact fun herr => hcheck.resolve_left fun h => h.2.elim (fun h => h rfl) fun h => h herr
          | create | load | start | stop => trivial
    | ensurePool | releasePool =>
      refine ⟨hother fun id => ?_, trivial⟩
      simp only [step, Kernel.call]
      split <;> rfl
    | listInstances => exact ⟨hother fun _ => rfl, trivial⟩
  | env c => exact ⟨hother fun _ => by cases c <;> rfl, trivial⟩
  | poolReady | setPoolReady | store | exports | server | artifacts => exact ⟨hother fun _ => rfl, trivial⟩

/-- The instance of a loaded sandbox is gone when it is started; another one is
created and deleted. -/
def lostAtStart : List Turn :=
  [⟨.boot, working 0⟩, ⟨.request (.create (sampleConfig "a" 1) "k1"), working 1⟩,
    ⟨.request (.load "a" (hexGeneration 105) "k2"), working 2⟩,
    ⟨.request (.start "a" (hexGeneration 105) "k3"), except 3 9 { err := some { text := "no instance" }, state := some .absent }⟩,
    ⟨.request (.create (sampleConfig "b" 2) "k4"), working 4⟩, ⟨.request (.delete "b" (hexGeneration 405) "k5"), working 5⟩,
    ⟨.boot, working 6⟩]

theorem witnessed_lostAtStart :
    (Service.after {} lostAtStart).world.store.data.list.map (fun sb => (sb.id, sb.state)) = [("a", .absent)] ∧
      ∀ x ∈ Service.runCalls {} .init lostAtStart, Witnessed x.2.1 x.2.2 ∧ x.2.1.Vacant := by
  refine ⟨by decide +kernel, witnessed_of_confirmed {} lostAtStart (conforming_of_checks
    (b := fun w op as => passes Host stillAndConfirms (op.program {}) w as && w.store.pending.isEmpty)
    (fun w op as h => ?_) (by decide +kernel))⟩
  simp only [Bool.and_eq_true, List.isEmpty_iff] at h
  refine ⟨meets_of_passes Host (fun _ _ _ hc => ⟨(still_of_check hc).1, fun _ => (still_of_check hc).2⟩) h.1, fun _ => ?_⟩
  rw [h.2]
  exact ⟨fun e he => (by cases he), fun e he => (by cases he)⟩

def dropsOf : Call → Option String
  | .store (.change ch) => ch.drops
  | _ => none

/-- The record is labelled ABSENT over an observation of CREATED, and the pool is
released under the instance. -/
theorem not_witnessed :
    (¬∀ x ∈ Service.runCalls {} .init deletedUnconfirmed, Witnessed x.2.1 x.2.2) ∧
      (Service.after {} deletedUnconfirmed).world.kernel.inst.keys = ["a"] ∧
      (Service.after {} deletedUnconfirmed).world.kernel.pool = false := by
  refine ⟨fun h => ?_, by decide +kernel, by decide +kernel⟩
  have hbad : (Service.runCalls {} .init deletedUnconfirmed).any (fun x =>
      dropsOf x.2.2 = some "a" && x.2.1.observed.lookup "a" = some .created) := by
    decide +kernel
  obtain ⟨⟨op, w, c⟩, hx, hbad⟩ := List.any_eq_true.1 hbad
  simp only [Bool.and_eq_true, decide_eq_true_eq] at hbad
  obtain ⟨hdrop, hobs⟩ := hbad
  unfold dropsOf at hdrop
  split at hdrop
  · have habsent := h _ hx _ "a" rfl hdrop
    rw [hobs] at habsent
    cases habsent
  · cases hdrop

end Service

end Multikernel
