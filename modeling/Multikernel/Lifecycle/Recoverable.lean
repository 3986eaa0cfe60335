import Multikernel.Lifecycle.Aborted
/-!
# Histories that the daemon recovers from

`Reconcile` refuses to start when the incomplete intents contradict the
snapshot, each other, or an ABORTED result. The service can write such a
history itself: it creates a sandbox whose ID an incomplete intent or, after a
write that failed late, `state.json` names, cancels a create under a key that an
intent of another operation carries, or takes a key for new that `state.json`
has as ABORTED (`not_recoverable`). In every run without these, what a restart
finds passes the validation (`recoverable_of_orderly`).
-/

namespace Multikernel
open Lib

namespace Service
variable {s : Service} {key : String}

/-! ## Identities -/

/-- Records of one ID are of one generation and configuration, and every record
is well formed. -/
def Agree (a b : Sandbox) : Prop :=
  (a.id = b.id → a.generation = b.generation ∧ a.config = b.config) ∧
    (a.generation ≠ "" ∧ a.config.id = a.id) ∧ b.generation ≠ "" ∧ b.config.id = b.id

theorem respects_agree : Respects Agree where
  symm h := ⟨fun hid => ⟨(h.1 hid.symm).1.symm, (h.1 hid.symm).2.symm⟩, h.2.2, h.2.1⟩
  same hs h := by
    obtain ⟨hid, hgen, hconfig⟩ := hs
    refine ⟨fun he => ?_, ?_, h.2.2⟩
    · rw [← hgen, ← hconfig]
      exact h.1 (hid.trans he)
    · rw [← hgen, ← hconfig, ← hid]
      exact h.2.1

theorem Admits.lookup_none {st : Store} {c : SandboxConfig} (h : s.Admits st c key) :
    st.data.sandboxes.lookup c.id = none := by
  have hadm := h.2.2
  unfold admission at hadm
  split at hadm
  · cases hadm
  · rename_i hno
    simpa using hno

theorem joins_agree {st : Store} {c : SandboxConfig} (hkeyed : st.Keyed) (hw : Compatible Agree [] st)
    (hadm : s.Admits st c key) (hid : ∀ e ∈ st.pending, e.sandboxID ≠ c.id) (hdisk : st.disk.sandboxes.lookup c.id = none) :
    Joins Agree st c := by
  refine fun v t => ⟨⟨fun _ => ⟨rfl, rfl⟩, ⟨hexGeneration_ne_empty v, rfl⟩, hexGeneration_ne_empty v, rfl⟩, fun b hb => ?_⟩
  refine ⟨fun he => ?_, ⟨hexGeneration_ne_empty v, rfl⟩, (hw b b (.inr hb) (.inr hb)).2.1⟩
  -- No owner has the ID of the new sandbox.
  exfalso
  replace he : b.id = c.id := he.symm
  rcases hb with ⟨i, hb | hb⟩ | ⟨e, hmem, hb⟩
  · rw [← hkeyed.sandboxes i b hb, he, hadm.lookup_none] at hb
    cases hb
  · rw [← hkeyed.records i b (.inr hb), he, hdisk] at hb
    cases hb
  · exact hid e hmem ((hkeyed.journal e (incomplete_subset _ e hmem) b hb).1.symm.trans he)

end Service

/-! ## The validation -/

/-- What `Reconcile` requires of the recovery set. -/
structure Store.Recoverable (st : Store) : Prop where
  durable : ∀ e ∈ st.pending, ∀ a b, e.sandbox = some a → st.data.sandboxes.lookup e.sandboxID = some b →
    b.generation = e.generation ∧ b.config = a.config
  agree : ∀ e ∈ st.pending, ∀ f ∈ st.pending, ∀ a b, e.sandbox = some a → f.sandbox = some b →
    e.sandboxID = f.sandboxID → e.generation = f.generation ∧ a.config = b.config
  unaborted : ∀ e ∈ st.pending, (st.data.results.lookup e.idempotencyKey).any Service.isAborted = false

/-- The checks of `Reconcile` before it acts. -/
structure World.Validates (w : World) : Prop where
  identities : w.store.data.sandboxes.entries.all fun r => Service.consistentIdentity r.1 r.2
  recovery : ∀ as e, (exec Host (Service.validateRecovery w.store.data w.store.pending ∅) w as).2 ≠ some (.error e)

namespace Service
variable {E : Env} {s : Service} {w : World}

theorem recoverable_of_agree (hkeyed : w.store.Keyed) (hagree : Compatible Agree [] w.store) (hw : w.store.Unaborted) :
    w.store.Recoverable := by
  have hid {e : JournalEntry} {a : Sandbox} (he : e ∈ w.store.pending) (ha : e.sandbox = some a) :=
    hkeyed.journal e (incomplete_subset _ e he) a ha
  refine ⟨fun e he a b ha hb => ?_, fun e he f hf a b ha hb heq => ?_, hw.results⟩
  · obtain ⟨haid, hagen, -⟩ := hid he ha
    obtain ⟨hgen, hconfig⟩ := (hagree b a (.inr (.inl ⟨_, .inl hb⟩)) (.inr (.inr ⟨e, he, ha⟩))).1
      ((hkeyed.sandboxes _ b hb).trans haid.symm)
    exact ⟨hgen.trans hagen, hconfig⟩
  · obtain ⟨haid, hagen, -⟩ := hid he ha
    obtain ⟨hbid, hbgen, -⟩ := hid hf hb
    obtain ⟨hgen, hconfig⟩ := (hagree a b (.inr (.inr ⟨e, he, ha⟩)) (.inr (.inr ⟨f, hf, hb⟩))).1
      (haid.trans (heq.trans hbid.symm))
    exact ⟨hagen.symm.trans (hgen.trans hbgen), hconfig⟩

/-- The loop over the intents, with the owners it has collected. -/
theorem validateRecovery_ok (hrec : w.store.Recoverable) (hcarried : ∀ e ∈ w.store.pending, ∃ a, e.sandbox = some a)
    (hgen : ∀ e ∈ w.store.pending, e.generation ≠ "") (hkeyed : w.store.Keyed) {todo : List JournalEntry}
    (owners : Table Sandbox) (htodo : ∀ e ∈ todo, e ∈ w.store.pending)
    (howners : ∀ id a, owners.lookup id = some a → ∃ e ∈ w.store.pending, e.sandboxID = id ∧ e.sandbox = some a) :
    Yields E (validateRecovery w.store.data todo owners) w fun r _ => ∃ o, r = .ok o := by
  induction todo generalizing owners with
  | nil => exact ⟨owners, rfl⟩
  | cons i rest ih =>
    have hi := htodo i List.mem_cons_self
    obtain ⟨sb, hsb⟩ := hcarried i hi
    have hnot {p : Sandbox} (hp : p.generation = i.generation ∧ p.config = sb.config) :
        ¬(disowns i sb.config p = true) := by simp [disowns, hp]
    unfold validateRecovery
    simp only [hsb]
    refine sat_ite.2 ⟨fun h => absurd h (hgen i hi), fun _ => sat_ite.2 ⟨fun h => ?_, fun _ => sat_ite.2 ⟨fun h => ?_, fun _ => ?_⟩⟩⟩
    · exfalso
      cases ho : owners.lookup i.sandboxID with
      | none => simp [ho] at h
      | some p =>
        obtain ⟨e, he, heid, hep⟩ := howners _ p ho
        obtain ⟨hg, hc⟩ := hrec.agree e he i hi p sb hep hsb heid
        have hpg := (hkeyed.journal e (incomplete_subset _ e he) p hep).2.1
        exact hnot ⟨hpg.trans hg, hc⟩ (by simpa [ho] using h)
    · exfalso
      cases ho : w.store.data.sandboxes.lookup i.sandboxID with
      | none => simp [ho] at h
      | some p => exact hnot (hrec.durable i hi sb p hsb ho) (by simpa [ho] using h)
    · refine host_result trivial (sat_ite.2 ⟨fun h => ?_, fun _ => ?_⟩)
      · rw [hrec.unaborted i hi] at h
        cases h
      · refine ih _ (fun e he => htodo e (List.mem_cons_of_mem _ he)) fun id a ha => ?_
        rcases lookup_insert_cases ha with ⟨rfl, rfl⟩ | ha
        · exact ⟨i, hi, rfl, hsb⟩
        · exact howners id a ha

theorem Store.Unaborted.reopen {st st' : Store} (h : st.Unaborted) (hst : st.reopen = some st') : st'.Unaborted := by
  obtain ⟨hj, -, hres, hdisk⟩ := Store.reopen_cases hst
  have hpending : st'.pending = st.pending := by rw [Store.pending, hj, Store.pending]
  refine ⟨fun e he => h.carried e (hpending ▸ he), fun e he => ?_, fun e he => ?_, fun pre e post hpre he => ?_⟩
  · rw [Snapshot.aborts, hres]
    exact h.disk e (hpending ▸ he)
  · exact hdisk ▸ h.disk e (hpending ▸ he)
  · exact h.creates pre e post (hj ▸ hpre) (hpending ▸ he)

theorem unaborted_empty : Store.empty.Unaborted := by
  have hnone (e : JournalEntry) : e ∉ Store.empty.pending := by simp [Store.pending, incomplete, Store.empty]
  exact ⟨fun e he => absurd he (hnone e), fun e he => absurd he (hnone e), fun e he => absurd he (hnone e),
    fun _ e _ _ he => absurd he (hnone e)⟩

theorem Conforming.unaborted {ts : List Turn} (h : s.Conforming s.Orderly ts) : (s.after ts).world.store.Unaborted := by
  refine (Service.ConformingFrom.inv (J := fun w => w.store.Unaborted ∧ w.store.Keyed) h
    ⟨unaborted_empty, Store.keyed_empty⟩ (fun _ h => h) (fun w st hw hst => ⟨Store.Unaborted.reopen hw.1 hst, hw.2.reopen hst⟩)
    fun w op as hw hK => ⟨?_, ?_⟩).1
  · exact (unaborted_op (E := fun _ _ _ => True) hw.2 hw.1 hK).exec_world (fun _ _ h => h) (fun _ _ h => h) as
      (meets_true Host _ w as)
  · exact exec_keyed (op.program s) hw.2 as

/-- A world whose owners agree passes the validation of `Reconcile`. -/
theorem validates_of_agree (hkeyed : w.store.Keyed) (hagree : Compatible Agree [] w.store) (hun : w.store.Unaborted) :
    w.Validates := by
  have hgen (e : JournalEntry) (he : e ∈ w.store.pending) : e.generation ≠ "" := by
    obtain ⟨a, ha⟩ := hun.carried e he
    have hown : w.store.Owns a := .inr ⟨e, he, ha⟩
    exact (hkeyed.journal e (incomplete_subset _ e he) a ha).2.1 ▸ (hagree a a (.inr hown) (.inr hown)).2.1.1
  refine ⟨List.all_eq_true.2 fun r hr => ?_, fun as e he => ?_⟩
  · have hlookup : w.store.data.sandboxes.lookup r.1 = some r.2 := AList.mem_lookup_iff.2 hr
    have hown : w.store.Owns r.2 := .inl ⟨_, .inl hlookup⟩
    have hwell := (hagree r.2 r.2 (.inr hown) (.inr hown)).2.1
    have hid := hkeyed.sandboxes r.1 r.2 hlookup
    simp [consistentIdentity, hid, hwell]
  · have hok := validateRecovery_ok (E := fun _ _ _ => True) (recoverable_of_agree hkeyed hagree hun) hun.carried hgen
      hkeyed ∅ (fun _ h => h) fun id a ha => by simp at ha
    obtain ⟨o, ho⟩ := hok.exec_result (meets_true Host _ _ as) (Prod.ext rfl he)
    cases ho

/-- What a restart finds after an orderly run passes the validation of
`Reconcile`. -/
theorem recoverable_of_orderly (s : Service) (ts : List Turn) (h : s.Conforming s.Orderly ts) (st : Store)
    (hst : (s.after ts).world.store.reopen = some st) : st.Recoverable ∧ ((s.after ts).world.reopened st).Validates := by
  have hkeyed : st.Keyed := (after_keyed s ts).reopen hst
  have hagree : Compatible Agree [] (s.after ts).world.store :=
    Conforming.compatible respects_agree h fun w c key as hkeyed hw hK hadm =>
      joins_agree hkeyed hw hadm (hK hadm).1 (hK hadm).2.2.2
  have hun : st.Unaborted := Store.Unaborted.reopen (Conforming.unaborted h) hst
  exact ⟨recoverable_of_agree (w := (s.after ts).world.reopened st) hkeyed (compatible_reopen hagree hst) hun,
    validates_of_agree hkeyed (compatible_reopen hagree hst) hun⟩

/-- Create, delete, and create again under the same name, all complete. -/
def reusedName : List Turn :=
  [⟨.boot, working 0⟩, ⟨.request (.create (sampleConfig "a" 1) "k1"), working 1⟩,
    ⟨.request (.delete "a" (hexGeneration 105) "k2"), working 2⟩,
    ⟨.request (.create (sampleConfig "a" 2) "k3"), working 3⟩]

theorem remembers_of_keys {st : Store} (h : st.disk.results.keys = st.data.results.keys) (key : String) : Remembers st key := by
  intro hres
  have hkey : key ∉ st.disk.results := by rwa [AList.mem_keys, h, ← AList.mem_keys, ← AList.lookup_eq_none]
  simp [Snapshot.aborts, AList.lookup_eq_none.2 hkey]

theorem recoverable_reusedName : ∃ st, (Service.after {} reusedName).world.store.reopen = some st ∧
    st.data.sandboxes.keys = ["a"] ∧ st.Recoverable ∧ ((Service.after {} reusedName).world.reopened st).Validates := by
  have hkeys : (Service.after {} reusedName).world.store.reopen.map (·.data.sandboxes.keys) = some ["a"] := by decide +kernel
  obtain ⟨st, hst, hkeys⟩ := Option.map_eq_some_iff.1 hkeys
  refine ⟨st, hst, hkeys, recoverable_of_orderly {} reusedName (conforming_of_startsComplete ?_ (by decide +kernel)) st hst⟩
  intro w op as hw hdisk hkeys
  have hcan (id key : String) : Cancellable w.store id key := by simp [Cancellable, hw]
  cases op with
  | request r =>
    cases r with
    | create c key => exact fun hadm => ⟨by simp [hw], by simp [hw], remembers_of_keys hkeys key, hdisk ▸ hadm.lookup_none⟩
    | load id gen key => exact ⟨remembers_of_keys hkeys key, fun f _ _ _ _ _ => hcan id f.idempotencyKey⟩
    | start id gen key | stop id gen key | delete id gen key => exact remembers_of_keys hkeys key
    | cancelCreate c key => exact hcan c.id key
  | boot | shutdown => trivial

/-- The same, but the commit of the first create is refused. -/
def reusedPending : List Turn :=
  [⟨.boot, working 0⟩, ⟨.request (.create (sampleConfig "a" 1) "k1"), except 1 24 diskFull⟩,
    ⟨.request (.delete "a" (hexGeneration 105) "k2"), working 2⟩,
    ⟨.request (.create (sampleConfig "a" 2) "k3"), working 3⟩]

/-- A cancellation ahead of its create, whose tombstone is renamed into place
before the write fails, and the create, which stops when its intent is journaled. -/
def tombstonedLate : List Turn :=
  [⟨.boot, working 0⟩, ⟨.request (.cancelCreate (sampleConfig "a" 1) "k1"), except 1 5 syncFailed⟩,
    ⟨.request (.create (sampleConfig "a" 1) "k1"), (working 2).take 12⟩]

/-- The intent of the first generation contradicts the record of the second,
or carries a key that the file has as ABORTED, and the next daemon does not
start. -/
theorem not_recoverable :
    (∃ st, (Service.after {} reusedPending).world.store.reopen = some st ∧ ¬st.Recoverable) ∧
      (Service.after {} (reusedPending ++ [⟨.boot, working 4⟩])).up = false ∧
      (∃ st, (Service.after {} tombstonedLate).world.store.reopen = some st ∧ ¬st.Recoverable) ∧
      (Service.after {} (tombstonedLate ++ [⟨.boot, working 3⟩])).up = false := by
  refine ⟨?_, by decide +kernel, ?_, by decide +kernel⟩
  · have hfound : (Service.after {} reusedPending).world.store.reopen.map (fun st =>
        (st.pending.map fun e => (e.sandboxID, e.generation, e.sandbox.isSome),
          (st.data.sandboxes.lookup "a").map (·.generation))) =
        some ([("a", hexGeneration 105, true)], some (hexGeneration 305)) := by decide +kernel
    obtain ⟨st, hst, heq⟩ := Option.map_eq_some_iff.1 hfound
    obtain ⟨hpending, hrecord⟩ := Prod.mk.inj heq
    obtain ⟨e, he, hentry⟩ : ∃ e ∈ st.pending, (e.sandboxID, e.generation, e.sandbox.isSome) = ("a", hexGeneration 105, true) :=
      List.mem_map.1 (hpending ▸ List.mem_singleton_self _)
    simp only [Prod.mk.injEq, Option.isSome_iff_exists] at hentry
    obtain ⟨hid, hgen, a, ha⟩ := hentry
    obtain ⟨b, hb, hbgen⟩ := Option.map_eq_some_iff.1 hrecord
    refine ⟨st, hst, fun h => ?_⟩
    have hsame := (h.durable e he a b ha (hid ▸ hb)).1
    rw [hbgen, hgen] at hsame
    exact absurd hsame (by decide +kernel)
  · have hfound : (Service.after {} tombstonedLate).world.store.reopen.map (fun st =>
        st.pending.map fun e => (st.data.results.lookup e.idempotencyKey).any isAborted) = some [true] := by decide +kernel
    obtain ⟨st, hst, hpending⟩ := Option.map_eq_some_iff.1 hfound
    obtain ⟨e, he, haborted⟩ : ∃ e ∈ st.pending, (st.data.results.lookup e.idempotencyKey).any isAborted = true :=
      List.mem_map.1 (hpending ▸ List.mem_singleton_self _)
    exact ⟨st, hst, fun h => by rw [h.unaborted e he] at haborted; cases haborted⟩

end Service

end Multikernel
