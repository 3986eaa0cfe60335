import Multikernel.Lifecycle.Cancel
/-!
# Who releases the pool

The instances of all sandboxes come from one pool. The service may release it
only when the snapshot holds no sandbox but the one being created or
cancelled. A cancellation takes a snapshot of at most one record for its own
(`cancelPool`), so it goes wrong when the one record is another sandbox, and a
shutdown passes over records labelled ABSENT: `not_idle` cancels a create twice,
and shuts down over a record whose label is wrong. `idle_of_undisturbed` says
when no operation does.
-/

namespace Multikernel
open Lib
variable {σ : Sandbox} {key id gen : String} {method : Method} {target : State}

/-! ## Which sandboxes the snapshot holds -/

/-- The snapshot has a record of `id`. -/
def Store.Holds (st : Store) (id : String) : Prop := id ∈ st.data.sandboxes

/-- The snapshot holds one sandbox, which is not `id`. -/
def Store.OneOther (st : Store) (id : String) : Prop := ∃ k, k ≠ id ∧ ∀ i, st.Holds i ↔ i = k

abbrev Unreleased (c : Call) : Prop := c ≠ .kerf .releasePool

/-- The call is no release of the pool and neither adds nor removes a record. -/
structure Steady (c : Call) : Prop where
  pool : Unreleased c
  holds : ∀ w a i, (step w c a).1.store.Holds i ↔ w.store.Holds i

/-- The call is no release of the pool and neither adds nor removes a record
but that of `id`. -/
structure Spares (id : String) (c : Call) : Prop where
  pool : Unreleased c
  others : ∀ w a i, i ≠ id → ((step w c a).1.store.Holds i ↔ w.store.Holds i)

/-- Moreover it does not remove `id`. -/
structure Retains (id : String) (c : Call) : Prop extends Spares id c where
  self : ∀ w a, w.store.Holds id → (step w c a).1.store.Holds id

theorem holds_of_reads {c : Call} (hc : Reads c) (w : World) (a : Answer) (i : String) :
    (step w c a).1.store.Holds i ↔ w.store.Holds i := by
  rw [store_of_reads hc]

theorem holds_append (w : World) (e : JournalEntry) (a : Answer) (i : String) :
    (step w (.store (.append e)) a).1.store.Holds i ↔ w.store.Holds i := by
  show i ∈ (w.store.append e a.time a.write).1.data.sandboxes ↔ _
  rw [(Store.append_cases w.store e a.time a.write).2.1]
  rfl

/-- A write of the snapshot is refused or done. -/
theorem holds_change (w : World) (ch : Change) (a : Answer) (i : String) :
    ((step w (.store (.change ch)) a).1.store.Holds i ↔ w.store.Holds i) ∨
      ((step w (.store (.change ch)) a).1.store.Holds i ↔ i ∈ (w.store.data.change ch).sandboxes) := by
  show (i ∈ (w.store.persist (w.store.data.change ch) a.write).1.data.sandboxes ↔ _) ∨
    (i ∈ (w.store.persist (w.store.data.change ch) a.write).1.data.sandboxes ↔ _)
  rcases Store.persist_cases w.store (w.store.data.change ch) a.write with ⟨e, _, h, -⟩ | h <;> rw [h]
  · exact .inl Iff.rfl
  · exact .inr Iff.rfl

/-- A change of one sandbox leaves the others. -/
theorem holds_of_touches {c : Call} (hc : Touches σ key c) (w : World) (a : Answer) {i : String} (hi : i ≠ σ.id)
    : (step w c a).1.store.Holds i ↔ w.store.Holds i := by
  cases c with
  | store c =>
    cases c with
    | append e => exact holds_append w e a i
    | change ch =>
      refine (holds_change w ch a i).elim id fun h => h.trans ?_
      cases ch with
      | commit sb k fp r =>
        have hne : i ≠ sb.id := hc.1.id ▸ hi
        simp only [Snapshot.change]
        split <;> simp [Store.Holds, hne]
      | commitFailure sb k fp r =>
        have hne : i ≠ sb.id := hc.1.id ▸ hi
        simp [Snapshot.change, Store.Holds, hne]
      | tombstone => rfl
      | abortCreate j k fp e =>
        have hne : i ≠ j := hc.1 ▸ hi
        simp [Snapshot.change, Store.Holds, hne]
      | setSandbox sb =>
        have hne : i ≠ sb.id := hc.id ▸ hi
        simp [Snapshot.change, Store.Holds, hne]
      | removeSandbox j =>
        have hne : i ≠ j := hc ▸ hi
        simp [Snapshot.change, Store.Holds, hne]
    | result | sandbox | snapshot | journalEntries => rfl
  | env c => cases c <;> rfl
  | _ => rfl

theorem Steady.retains {c : Call} (h : Steady c) : Retains id c :=
  ⟨⟨h.pool, fun w a i _ => h.holds w a i⟩, fun w a => (h.holds w a id).2⟩

theorem Aside.steady {c : Call} (h : Aside c) : Steady c where
  pool hc := by
    subst hc
    cases h
  holds := holds_of_reads (.aside h)

theorem steady_reads {c : Call} (h : Reads c) (hpool : Unreleased c) : Steady c :=
  ⟨hpool, holds_of_reads h⟩

theorem ActsOn.retains {O : KerfOp → Prop} {c : Call} (h : ActsOn O σ c) : Retains σ.id c := by
  refine ⟨⟨?_, fun w a i hi => holds_of_touches (h.touches "") w a hi⟩, fun w a hw => ?_⟩
  · rintro rfl
    cases h with | acts h => cases h with | aside h => cases h
  · cases h with
    | acts h =>
      cases h with
      | aside h => exact h.aside.steady.retains.self w a hw
      | act => exact hw
    | setSandbox hsb =>
      refine (holds_change w _ a σ.id).elim (·.2 hw) fun h => h.2 ?_
      simp [Snapshot.change, hsb.id]

theorem Records.spares {c : Call} (h : Records method σ key target c) : Spares σ.id c := by
  refine ⟨?_, fun w a i hi => holds_of_touches h.touches w a hi⟩
  rintro rfl
  cases h

/-- Only a create or a delete removes its sandbox. -/
theorem Records.retains {c : Call} (h : Records method σ key target c) (hm : method ≠ .createSandbox)
    (ht : target ≠ .absent) : Retains σ.id c := by
  refine ⟨h.spares, fun w a hw => ?_⟩
  cases h with
  | env c => exact (Aside.env c).steady.retains.self w a hw
  | result | observe => exact hw
  | append => exact (holds_append w _ a σ.id).2 hw
  | commit fp r hsb hstate =>
    refine (holds_change w _ a σ.id).elim (·.2 hw) fun h => h.2 ?_
    simp [Snapshot.change, hstate, ht, hsb.id]
  | commitFailure fp hsb =>
    refine (holds_change w _ a σ.id).elim (·.2 hw) fun h => h.2 ?_
    simp [Snapshot.change, hsb.id]
  | setSandbox hsb =>
    refine (holds_change w _ a σ.id).elim (·.2 hw) fun h => h.2 ?_
    simp [Snapshot.change, hsb.id]
  | removeSandbox hcreate => exact absurd hcreate hm

/-! ## Programs -/

theorem eq_of_length_le_one {α : Type} {l : List α} (hl : ¬1 < l.length) {a b : α} (ha : a ∈ l) (hb : b ∈ l) : a = b := by
  match l with
  | [] => cases ha
  | [x] => rw [List.mem_singleton.1 ha, List.mem_singleton.1 hb]
  | x :: y :: rest => simp at hl

section Programs
variable {E : Env} {α β : Type} {w : World} {id : String} {Q : α → World → Prop}

/-- A release of the pool finds no sandbox but `id`. -/
def Frees (id : String) (w : World) (c : Call) : Prop := c = .kerf .releasePool → ∀ i, w.store.Holds i → i = id

theorem frees_of_ne {c : Call} (h : Unreleased c) : Frees id w c := fun hc => absurd hc h

theorem frees_of_spares {p : Act α} {R : α → Prop} (hp : Emits (Spares id) p R) :
    Ensures E (Frees id) p w fun r w' => (∀ i, i ≠ id → (w'.store.Holds i ↔ w.store.Holds i)) ∧ R r := by
  have h := host_keeps (E := E) (J := fun w' => ∀ i, i ≠ id → (w'.store.Holds i ↔ w.store.Holds i)) hp
    (fun _ _ => Iff.rfl) fun w' c a hw' hc i hi => (hc.others w' a i hi).trans (hw' i hi)
  exact h.imp (fun _ _ h => frees_of_ne h.2.pool) fun _ _ h => h

theorem oneOther_congr {st st' : Store} (hst : ∀ i, st'.Holds i ↔ st.Holds i) : st'.OneOther id ↔ st.OneOther id := by
  simp only [Store.OneOther, hst]

end Programs

theorem looks_ne {c : Call} (hc : Looks c) : Unreleased c := by
  rintro rfl
  cases hc with | aside h => cases h

theorem Undoes.steady {x : Call} (h : Undoes x) : Steady x := by
  cases h with
  | looks h => exact steady_reads h.reads (looks_ne h)
  | observe => exact steady_reads (by simp) nofun
  | delete sb => exact ⟨nofun, fun _ _ _ => Iff.rfl⟩
  | complete => exact ⟨nofun, fun w a i => holds_append w _ a i⟩
  | tombstone => exact ⟨nofun, fun w a i => (holds_change w _ a i).elim id id⟩

/-- A cancellation journals no intent. -/
theorem Undoes.creates {w : World} {x : Call} (h : Undoes x) {a : Answer} (hw : (step w x a).1.store.Creates key) :
    w.store.Creates key := by
  cases h with
  | looks h => rwa [(beside_of_looks h w a).store] at hw
  | observe | delete => exact hw
  | tombstone =>
    obtain ⟨e, he, hcreate⟩ := hw
    exact ⟨e, journal_of_change w _ a ▸ he, hcreate⟩
  | complete hphase =>
    obtain ⟨e, he, hcreate⟩ := hw
    rcases (Store.append_cases w.store _ a.time a.write).1 with ⟨-, hj⟩ | ⟨-, -, hj, -⟩
    · exact ⟨e, hj ▸ he, hcreate⟩
    · have he' : e ∈ w.store.journal ++ [w.store.stamp _ a.time] := hj ▸ he
      rcases List.mem_append.1 he' with he' | he'
      · exact ⟨e, he', hcreate⟩
      · rw [List.mem_singleton.1 he'] at hcreate
        exact absurd (hphase.symm.trans hcreate.1) (by decide)

namespace Service
variable {s : Service} {E : Env} {w : World} {c : SandboxConfig} {key : String}
  {fp : Fingerprint} {ctx : Ctx}

/-! ## Cancellation -/

/-- The pool of a cancelled create is released under one record at most, so it
must not be another sandbox's. -/
theorem frees_cancelPool (hw : ¬w.store.OneOther c.id) :
    Ensures E (Frees c.id) cancelPool w fun _ w' => w'.store = w.store := by
  have hreads : Only Reads cancelPool := by simp [cancelPool, Option.forall]
  have hstore := host_keeps (E := E) (J := fun w' => w'.store = w.store) hreads rfl
    fun w' x a hw' hx => (store_of_reads hx w' a).trans hw'
  refine (Sat.and (Q := fun _ _ => True) ?_ hstore).mono fun _ _ h => h.2.1
  refine host_snapshot (frees_of_ne fun h => by cases h) (Sat.unless trivial fun hlen => ?_)
  refine ⟨fun _ i hi => ?_, fun r w' _ => ?_⟩
  · by_contra hne
    refine hw ⟨i, hne, fun j => ⟨fun hj => ?_, fun hj => hj ▸ hi⟩⟩
    -- Two records would have kept the pool.
    exact eq_of_length_le_one hlen hj hi
  · cases r with
    | some e => trivial
    | none => exact ⟨frees_of_ne fun h => (by cases h), fun _ _ _ => trivial⟩

/-- Only the cancellation of a journaled create reaches the pool. -/
theorem undone_frees : Undone E (Frees c.id) (fun w => w.store.OneOther c.id → ¬w.store.Creates key) (fun _ => True) c key fp where
  guard w x _ hx := frees_of_ne hx.steady.pool
  step w x a _ hw hx hone hcreates := hw ((oneOther_congr (hx.steady.holds w a)).1 hone) (hx.creates hcreates)
  stop _ _ := trivial
  pool w hw hcreates := (frees_cancelPool fun hone => hw hone hcreates).mono fun _ w' h => by rwa [h]
  abort w failure _ _ := ⟨frees_of_ne nofun, fun _ _ => trivial⟩

theorem frees_cancelCreateLocked (hkeyed : w.store.Keyed) (hw : w.store.OneOther c.id → ¬w.store.Creates key) :
    Ensures E (Frees c.id) (s.cancelCreateLocked ctx c key fp) w fun _ _ => True :=
  host_cancelCreateLocked undone_frees hkeyed hw

theorem frees_cancelCreate (hkeyed : w.store.Keyed) (hw : w.store.OneOther c.id → ¬w.store.Creates key) :
    Ensures E (Frees c.id) (s.cancelCreate ctx c key) w fun _ _ => True :=
  host_cancelCreate undone_frees (fun _ _ _ => frees_of_ne nofun) hkeyed hw

/-! ## Create -/

theorem frees_of_looks {c : Call} (hc : Looks c) : Frees id w c := frees_of_ne (looks_ne hc)

theorem isEmpty_list {d : Snapshot} : d.list.isEmpty ↔ ∀ i, i ∉ d.sandboxes := by
  simp only [Snapshot.list, List.isEmpty_map, List.isEmpty_iff]
  refine ⟨fun h i hi => ?_, fun h => List.eq_nil_iff_forall_not_mem.2 fun x hx => ?_⟩
  · simp [AList.mem_keys, AList.keys, List.keys, h] at hi
  · exact h x.1 (List.mem_map_of_mem hx)

/-- The first create works alone. -/
theorem frees_createFirst {firstSandbox : Bool} {sb : Sandbox} (hsb : sb.id = c.id) (hw : ∀ i, ¬w.store.Holds i) :
    Ensures E (Frees c.id) (s.createAdmitted c key firstSandbox sb) w fun _ _ => True := by
  have h := host_keeps (E := E) (J := fun w => ∀ i, w.store.Holds i → i = c.id)
    (touches_createAdmitted (s := s) c firstSandbox hsb : Emits (Touches sb key) _ _) (fun i hi => absurd hi (hw i))
    fun w' x a hw' hx i hi => by
      by_contra hne
      exact hne (hw' i ((holds_of_touches hx w' a (hsb ▸ hne)).1 hi))
  exact h.imp (fun _ _ h _ => h.1) fun _ _ _ => trivial

/-- A later create leaves the pool alone, unless its caller is gone and its own
record did not last. -/
theorem frees_createLater {sb : Sandbox} (hsb : sb.id = c.id) (hkeyed : w.store.Keyed) (hw : ¬w.store.Holds c.id)
    (hK : w.store.OneOther c.id → ∀ w c a, E w c a → Stays w c a) :
    Ensures E (Frees c.id) (s.createAdmitted c key false sb) w fun _ _ => True := by
  have hmutate : Only (Spares c.id) (mutate .createSandbox key (.create c) sb (s.createFn false)) :=
    hsb ▸ emits_mutate (fun _ h => h.spares) (steps_createFn (.refl sb) (fun _ h => h.retains.toSpares) (by simp))
  refine host_orCancelled (host_keyed (frees_of_spares hmutate) hkeyed) (fun _ _ _ => trivial)
    fun _ w1 h1 => ⟨frees_of_looks (by simp), fun w2 h2 => ⟨trivial, fun hgone => ?_⟩⟩
  rw [← h2.store] at h1
  obtain ⟨⟨hothers, -⟩, hkeyed2⟩ := h1
  refine (frees_cancelCreateLocked hkeyed2 fun hone => absurd (hK ?_) hgone).mono fun _ _ _ _ => trivial
  -- The one other sandbox was there before this create.
  obtain ⟨k, hk, hall⟩ := hone
  refine ⟨k, hk, fun i => ?_⟩
  by_cases hi : i = c.id
  · exact ⟨fun h => absurd (hi ▸ h) hw, fun h => absurd (h.symm.trans hi) hk⟩
  · rw [← hothers i hi]
    exact hall i

theorem frees_create (hkeyed : w.store.Keyed) (hK : w.store.OneOther c.id → ∀ w c a, E w c a → Stays w c a) :
    Ensures E (Frees c.id) (s.create c key) w fun _ _ => True := by
  refine host_create (fun _ _ _ h => frees_of_looks h) (fun _ _ _ _ => trivial) fun w' v t h _ hadm => ?_
  have hmissing : ¬w.store.Holds c.id := by
    have := hadm.2.2
    unfold admission at this
    split at this
    · cases this
    · rename_i hnone
      simpa [Store.Holds, AList.lookup_isSome] using hnone
  refine Sat.mono (Q := fun _ _ => True) ?_ fun _ _ _ => ⟨fun _ => frees_of_looks (by simp), trivial⟩
  cases hempty : w.store.data.list.isEmpty with
  | true => exact frees_createFirst rfl fun i => by rw [h.store]; exact isEmpty_list.1 hempty i
  | false => exact frees_createLater rfl (h.store ▸ hkeyed) (h.store ▸ hmissing) (h.store ▸ hK)

/-! ## Load, start, stop, delete -/

/-- A transition keeps the pool and every record, and changes nothing without
its own. -/
theorem retains_transition {source : List State} {intermediate : Option State} {fn : Sandbox → Act (Option Err)}
    (hfn : ∀ sb, Only (Moves sb) (fn sb)) (hm : method ≠ .createSandbox) (ht : target ≠ .absent)
    (hkeyed : w.store.Keyed) :
    Ensures E (fun _ c => Unreleased c)
      (transition id gen key method source intermediate target fn) w fun _ w' =>
        (∀ i, w'.store.Holds i ↔ w.store.Holds i) ∧ (¬w.store.Holds id → w'.store = w.store) := by
  refine host_transition (fun _ h => looks_ne h.looks) (fun _ _ => ⟨fun _ => Iff.rfl, fun _ => rfl⟩) fun sb hsb => ?_
  obtain rfl := hkeyed.sandboxes id sb hsb
  have hself : w.store.Holds sb.id := AList.lookup_isSome.1 (by rw [hsb]; rfl)
  have hp : Only (Retains sb.id) (transitionFrom sb sb.id gen key method source intermediate target fn) :=
    emits_transitionFrom (fun _ h => h.retains hm ht) (fun _ h => h.retains) (hfn sb)
  have h := host_keeps (E := E) (J := fun w' => ∀ i, w'.store.Holds i ↔ w.store.Holds i) hp (fun _ => Iff.rfl)
    fun w' c a hw' hc i => by
      by_cases hi : i = sb.id
      · subst hi
        exact ⟨fun _ => hself, fun _ => hc.self w' a ((hw' _).2 hself)⟩
      · exact (hc.others w' a i hi).trans (hw' i)
  exact h.imp (fun _ _ h => h.2.pool) fun _ _ h => ⟨fun _ => looks_ne (by simp), h.1, fun hno => absurd hself hno⟩

theorem spares_delete : Ensures E (fun _ c => Unreleased c) (s.delete id gen key) w fun _ _ => True := by
  refine host_delete (fun _ h => looks_ne h.looks) (fun _ _ => trivial) fun sb _ => ?_
  have hp : Only (Spares sb.id) (s.deleteFrom sb id gen key) :=
    emits_deleteFrom (fun _ h => h.spares) fun _ h => h.retains.toSpares
  exact hp.lift.imp (fun _ _ h => h.pool) fun _ _ _ => ⟨fun _ => looks_ne (by simp), trivial⟩

theorem frees_load (hkeyed : w.store.Keyed)
    (hK : w.store.OneOther id → (∀ w c a, E w c a → Stays w c a) ∨ findCreate id gen w.store.journal = none) :
    Ensures E (Frees id) (s.load id gen key) w fun _ _ => True := by
  have htrans := host_keyed (retains_transition (E := E) (fun sb => moves_loadFn (.refl sb)) (by decide) (by decide) hkeyed :
    Sat _ _ (transition id gen key .loadSandbox [.created] none .loaded s.loadFn) w _) hkeyed
  refine host_orCancelled (htrans.imp (fun _ _ h => frees_of_ne h) fun _ _ h => h) (fun _ _ _ => trivial)
    fun _ w1 h1 => ⟨frees_of_looks (by simp), fun w2 h2 => ⟨trivial, fun hgone => ?_⟩⟩
  rw [← h2.store] at h1
  obtain ⟨⟨hholds, hsame⟩, hkeyed2⟩ := h1
  refine (host_cancelLoaded (Q := fun _ => True) (fun _ h => frees_of_looks h) trivial (fun f sb hf hsb hid => ?_)
    (fun _ _ _ => frees_of_ne nofun) hkeyed2).mono fun _ _ _ _ => trivial
  refine ⟨_, fun hone => ?_, hid ▸ undone_frees⟩
  have hone0 : w.store.OneOther id := (oneOther_congr hholds).1 hone
  -- One other sandbox: the load found none of its own and changed nothing.
  have hno : ¬w.store.Holds id := fun h => by
    obtain ⟨k, hk, hall⟩ := hone0
    exact hk ((hall id).1 h).symm
  rw [hsame hno] at hf
  exact absurd ((hK hone0).resolve_left hgone) (by simp [hf])

/-! ## Reconcile and shutdown -/

theorem unreleased_reconcileIncomplete (intent : JournalEntry) : Only Unreleased (s.reconcileIncomplete intent) := by
  unfold reconcileIncomplete
  cases intent.sandbox with
  | none => trivial
  | some sb =>
    refine Only.bind (by simp) fun r => ?_
    cases r with
    | error e => trivial
    | ok actual =>
      refine Emits.bind ((resumes_recover (.refl sb)).imp (fun c hc => ?_)) fun r _ => ?_
      · rintro rfl
        cases hc with | probes h => cases h with | acts h => exact (ActsOn.acts h).retains.pool rfl
      · obtain ⟨sb, e | state⟩ := r <;> simp [recoverFail, recoverFinish, Option.forall]

theorem unreleased_reconcileStates (pending : List String) (listed : List Sandbox) :
    Only Unreleased (reconcileStates pending listed) := by
  induction listed with
  | nil => trivial
  | cons sb rest ih =>
    refine Only.bind (by simp) fun r => ?_
    cases r with
    | error e => trivial
    | ok actual => exact Sat.unless ih fun _ => Emits.guard (by simp) (fun _ => trivial) ih

theorem unreleased_reconcileIntents (pending : List JournalEntry) : Only Unreleased (s.reconcileIntents pending) := by
  induction pending with
  | nil => trivial
  | cons intent rest ih => exact Emits.guard (unreleased_reconcileIncomplete intent) (fun _ => trivial) ih

/-- `Reconcile` releases no pool. -/
theorem unreleased_reconcile (w : World) : Ensures E (fun _ c => Unreleased c) s.reconcile w fun _ _ => True := by
  have hstorage (owners : Table Owner) : Only Unreleased (Storage.reconcile .request owners) :=
    (Storage.apart_reconcile .request owners).imp (fun _ h => h.aside.steady.pool)
  refine host_reconcile (fun _ _ _ h => looks_ne h) (fun _ _ _ => trivial) fun w' recovery _ _ => ?_
  refine Sat.mono (Q := fun _ _ => True) (Emits.lift ?_) fun _ _ _ => ⟨fun _ => looks_ne (by simp), trivial⟩
  refine Only.bind (by simp [adoptPool]) fun _ => ?_
  refine Emits.guard (Sat.unless (hstorage _) fun _ => trivial) (fun _ => trivial) ?_
  refine Emits.guard (unreleased_reconcileIntents _) (fun _ => trivial) ?_
  refine Emits.guard (by simp [checkInventory, list]) (fun _ => trivial) ?_
  exact Only.bind (by simp [list]) fun listed => unreleased_reconcileStates _ listed

/-- At shutdown the pool goes only when no record is live. -/
theorem frees_releaseIdlePool (hK : hasLiveSandboxes w.store.data ∨ w.store.data.list = []) :
    Ensures E (fun w c => c = .kerf .releasePool → ∀ i, ¬w.store.Holds i) releaseIdlePool w fun _ _ => True := by
  refine host_lock nofun (Sat.bind (R := fun _ _ => True) ?_ fun _ _ _ => host_unlock nofun trivial)
  refine host_snapshot nofun (Sat.unless trivial fun hidle => ?_)
  refine ⟨nofun, fun ready w1 h1 => ?_⟩
  have hstore : w1.store = w.store := trans_reads h1 .poolReady
  cases ready with
  | false => trivial
  | true =>
    refine ⟨fun _ => ?_, fun r w2 _ => ?_⟩
    · rw [hstore]
      exact isEmpty_list.1 (List.isEmpty_iff.2 (hK.resolve_left hidle))
    · cases r with
      | some e => trivial
      | none => exact ⟨nofun, fun _ _ _ => trivial⟩

end Service

/-! ## Runs -/

/-- The sandbox an operation creates or cancels. A load cancels the create it
belongs to when its caller is gone. -/
def Op.subject : Op → Option String
  | .request (.create c _) | .request (.cancelCreate c _) => some c.id
  | .request (.load id _ _) => some id
  | _ => none

/-- The service releases the pool only when the snapshot holds no sandbox but
the one being created or cancelled. The release of a left-over pool before a
daemon reconciles is not the service's. -/
def Op.Idle (op : Op) (w : World) (c : Call) : Prop :=
  c = .kerf .releasePool → op ≠ .boot → ∀ id, w.store.Holds id → op.subject = some id

/-- When one other sandbox is in the snapshot, a cancellation finds no create
to cancel: the caller of a create or a load stays, a load's sandbox was not
created, a cancelled key is not that of a create. A shutdown finds no snapshot
whose records are all labelled ABSENT. -/
def Service.Undisturbed (s : Service) (w : World) (op : Op) (as : List Answer) : Prop :=
  match op with
  | .request (.create c _) => w.store.OneOther c.id → Meets Host Service.Stays (op.program s) w as
  | .request (.load id gen _) => w.store.OneOther id →
    Meets Host Service.Stays (op.program s) w as ∨ Service.findCreate id gen w.store.journal = none
  | .request (.cancelCreate c key) => w.store.OneOther c.id → ¬w.store.Creates key
  | .shutdown => Service.hasLiveSandboxes w.store.data ∨ w.store.data.list = []
  | _ => True

namespace Service
variable {s : Service}

theorem calls_idle {w : World} {op : Op} {as : List Answer} (hkeyed : w.store.Keyed) (hK : s.Undisturbed w op as) :
    ∀ x ∈ calls Host (op.program s) w as, op.Idle x.1 x.2 := by
  -- An operation that never releases the pool, and one that frees its own sandbox.
  have hnever {E} (hp : Ensures E (fun _ c => Unreleased c) (op.program s) w fun _ _ => True)
      (has : Meets Host E (op.program s) w as) : ∀ x ∈ calls Host (op.program s) w as, op.Idle x.1 x.2 :=
    fun x hx hrel => absurd hrel (hp.calls has x hx)
  have hfrees {E} {id : String} (hop : op.subject = some id)
      (hp : Ensures E (Frees id) (op.program s) w fun _ _ => True) (has : Meets Host E (op.program s) w as) :
      ∀ x ∈ calls Host (op.program s) w as, op.Idle x.1 x.2 := by
    intro x hx hrel _ i hi
    rw [hp.calls has x hx hrel i hi, hop]
  have hall := meets_true Host (op.program s) w as
  cases op with
  | boot => exact fun x _ _ hboot => absurd rfl hboot
  | shutdown =>
    intro x hx hrel _ i hi
    have hp : Sat (Host.trans fun _ _ _ => True) _ (Op.program s .shutdown) w fun _ _ => True :=
      (frees_releaseIdlePool hK).bind fun _ _ _ => trivial
    exact absurd hi (hp.calls hall x hx hrel i)
  | request r =>
    cases r with
    | create c key =>
      by_cases hone : w.store.OneOther c.id
      · exact hfrees rfl ((frees_create hkeyed fun _ _ _ _ h => h).bind fun _ _ _ => trivial) (hK hone)
      · exact hfrees rfl ((frees_create hkeyed fun h => absurd h hone).bind fun _ _ _ => trivial) hall
    | load id gen key =>
      by_cases hone : w.store.OneOther id
      · rcases hK hone with has | hnone
        · exact hfrees rfl ((frees_load hkeyed fun _ => .inl fun _ _ _ h => h).bind fun _ _ _ => trivial) has
        · exact hfrees rfl ((frees_load hkeyed fun _ => .inr hnone).bind fun _ _ _ => trivial) hall
      · exact hfrees rfl ((frees_load hkeyed fun h => absurd h hone).bind fun _ _ _ => trivial) hall
    | start id gen key =>
      exact hnever ((retains_transition (fun sb => acts_backend (by simp) (.refl sb)) (by decide) (by decide) hkeyed).bind
        fun _ _ _ => trivial) hall
    | stop id gen key =>
      exact hnever ((retains_transition (fun sb => moves_stopFn (.refl sb)) (by decide) (by decide) hkeyed).bind
        fun _ _ _ => trivial) hall
    | delete id gen key => exact hnever (spares_delete.bind fun _ _ _ => trivial) hall
    | cancelCreate c key => exact hfrees rfl ((frees_cancelCreate hkeyed hK).bind fun _ _ _ => trivial) hall

/-- In a run whose operations are all undisturbed, the service releases the
pool only when it is idle, and `Reconcile` never does. -/
theorem idle_of_undisturbed (s : Service) (ts : List Turn) (h : s.Conforming s.Undisturbed ts) :
    (∀ x ∈ s.runCalls .init ts, x.1.Idle x.2.1 x.2.2) ∧
      ∀ w as, ∀ x ∈ calls Host s.reconcile w as, x.2 ≠ .kerf .releasePool := by
  refine ⟨?_, fun w as x hx => (unreleased_reconcile w).calls (meets_true Host s.reconcile w as) x hx⟩
  exact h.calls (J := fun w => w.store.Keyed) Store.keyed_empty (fun _ h => h) (fun _ _ h hst => h.reopen hst)
    (fun w op as hw _ => exec_keyed (op.program s) hw as)
    fun w op as hw hK => calls_idle hw hK

/-- A create is cancelled, then another sandbox is created. -/
def cancelledOnce : List Turn :=
  [⟨.boot, working 0⟩, ⟨.request (.create (sampleConfig "a" 1) "k1"), working 1⟩,
    ⟨.request (.cancelCreate (sampleConfig "a" 1) "k1"), working 2⟩,
    ⟨.request (.create (sampleConfig "b" 2) "k2"), working 3⟩]

theorem not_oneOther {st : Store} (h : st.data.sandboxes.keys = [] ∨ id ∈ st.data.sandboxes.keys) :
    ¬st.OneOther id := by
  rintro ⟨k, hk, hall⟩
  rcases h with h | h
  · have hmem : k ∈ st.data.sandboxes.keys := (hall k).2 rfl
    simp [h] at hmem
  · exact hk ((hall id).1 h).symm

theorem undisturbed_of_not_oneOther {w : World} {op : Op} {as : List Answer}
    (h : ∀ id, op.subject = some id → ¬w.store.OneOther id) (hdown : hasLiveSandboxes w.store.data ∨ w.store.data.list = []) :
    s.Undisturbed w op as := by
  cases op with
  | request r =>
    cases r with
    | create | load | cancelCreate => exact fun hone => absurd hone (h _ rfl)
    | start | stop | delete => trivial
  | boot => trivial
  | shutdown => exact hdown

/-- The other sandbox is deleted and the daemon shuts down. -/
def shutDownIdle : List Turn :=
  cancelledOnce ++ [⟨.request (.delete "b" (hexGeneration 305) "k3"), working 4⟩, ⟨.shutdown, working 5⟩]

theorem idle_shutDownIdle :
    (Service.after {} cancelledOnce).world.store.data.sandboxes.keys = ["b"] ∧
      (Service.after {} cancelledOnce).world.kernel.pool ∧ (Service.after {} shutDownIdle).world.kernel.pool = false ∧
      (∀ x ∈ Service.runCalls {} .init shutDownIdle, x.1.Idle x.2.1 x.2.2) ∧
        ∀ w as, ∀ x ∈ calls Host (Service.reconcile {}) w as, x.2 ≠ .kerf .releasePool := by
  refine ⟨by decide +kernel, by decide +kernel, by decide +kernel, idle_of_undisturbed {} shutDownIdle (conforming_of_checks
    (b := fun w op _ => (op.subject.all fun id => w.store.data.sandboxes.keys = [] || id ∈ w.store.data.sandboxes.keys) &&
      (hasLiveSandboxes w.store.data || w.store.data.list.isEmpty))
    (fun w op as h => ?_) (by decide +kernel))⟩
  simp only [Bool.and_eq_true, Bool.or_eq_true, List.isEmpty_iff] at h
  exact undisturbed_of_not_oneOther (fun id hid => not_oneOther (by simpa [hid] using h.1)) h.2

/-- The cancellation is repeated: the snapshot holds one sandbox, the other. -/
def cancelledTwice : List Turn := cancelledOnce ++ [⟨.request (.cancelCreate (sampleConfig "a" 1) "k1"), working 4⟩]

def isRelease : Call → Bool
  | .kerf .releasePool => true
  | _ => false

/-- The pool is released under a live sandbox: by the repeated cancellation, and
by a shutdown over an instance that was labelled ABSENT. -/
theorem not_idle :
    (¬∀ x ∈ Service.runCalls {} .init cancelledTwice, x.1.Idle x.2.1 x.2.2) ∧
      (¬∀ x ∈ Service.runCalls {} .init deletedUnconfirmed, x.1.Idle x.2.1 x.2.2) ∧
      (Service.after {} deletedUnconfirmed).world.kernel.inst.keys = ["a"] := by
  have hnot {ts : List Turn} (id : String) (hbad : (Service.runCalls {} .init ts).any fun x => isRelease x.2.2 &&
      x.1 ≠ .boot && x.1.subject ≠ some id && id ∈ x.2.1.store.data.sandboxes.keys) :
      ¬∀ x ∈ Service.runCalls {} .init ts, x.1.Idle x.2.1 x.2.2 := by
    intro h
    obtain ⟨⟨op, w, c⟩, hx, hbad⟩ := List.any_eq_true.1 hbad
    simp only [Bool.and_eq_true, decide_eq_true_eq] at hbad
    obtain ⟨⟨⟨hrel, hop⟩, hsubject⟩, hid⟩ := hbad
    have hc : c = .kerf .releasePool := by
      unfold isRelease at hrel
      split at hrel
      · rfl
      · cases hrel
    exact hsubject (h _ hx hc hop id hid)
  exact ⟨hnot "b" (by decide +kernel), hnot "a" (by decide +kernel), by decide +kernel⟩

end Service

end Multikernel
