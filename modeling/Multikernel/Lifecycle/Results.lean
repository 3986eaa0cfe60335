import Multikernel.Lifecycle.Journal
/-!
# Recorded results

A result is recorded under its key once, and every request asks for the key's
result before it writes anything. So what the store holds under a key `k` is
changed by two things only: the cancellation of the create that `k` belongs to,
and the recovery of an intent that carries `k`. `Elsewhere k` holds of the calls
that are neither; the lemmas here say that every request makes only such calls
once `k` has a result.
-/

namespace Multikernel
open Lib

/-- The key a change records a result under. -/
def Change.key : Change → Option String
  | .commit _ key _ _ | .commitFailure _ key _ _ | .tombstone key _ _ | .abortCreate _ key _ _ => some key
  | .setSandbox _ | .removeSandbox _ => none

/-- The call records no result under `k` and journals no intent under it. -/
def Elsewhere (k : String) : Call → Prop
  | .store (.append e) => e.phase = .intent → e.idempotencyKey ≠ k
  | .store (.change ch) => ch.key ≠ some k
  | _ => True

section Elsewhere
variable {k key : String} {c : Call}

theorem Reads.elsewhere (h : Reads c) : Elsewhere k c := by
  cases h with
  | aside h => cases h <;> trivial
  | _ => trivial

theorem Touches.elsewhere {σ : Sandbox} (h : Touches σ key c) (hk : key ≠ k) : Elsewhere k c := by
  cases c with
  | store c =>
    cases c with
    | append e => exact fun hp => (h.2 hp).1 ▸ hk
    | change ch =>
      cases ch with
      | commit | commitFailure | abortCreate =>
        obtain ⟨-, rfl⟩ := h
        exact fun heq => hk (Option.some.inj heq)
      | tombstone =>
        obtain rfl := h
        exact fun heq => hk (Option.some.inj heq)
      | setSandbox | removeSandbox => exact fun heq => by cases heq
    | result | sandbox | snapshot | journalEntries => trivial
  | _ => trivial

theorem Cancels.elsewhere {id : String} {fp : Fingerprint} (h : Cancels id key fp c) (hk : key ≠ k) : Elsewhere k c := by
  cases c with
  | store c =>
    cases c with
    | append e => exact fun hp => absurd (h.2.symm.trans hp) (by decide)
    | change ch =>
      cases ch with
      | tombstone =>
        obtain ⟨rfl, -⟩ := cancels_tombstone.1 h
        exact fun heq => hk (Option.some.inj heq)
      | abortCreate =>
        obtain ⟨-, rfl, -⟩ := cancels_abortCreate.1 h
        exact fun heq => hk (Option.some.inj heq)
      | commit | commitFailure | setSandbox | removeSandbox => cases h
    | result | sandbox | snapshot | journalEntries => trivial
  | _ => trivial

/-- A change leaves the results of the other keys. -/
theorem Change.results_ne {ch : Change} (d : Snapshot) (h : ch.key ≠ some k) :
    (d.change ch).results.lookup k = d.results.lookup k := by
  have hne {key : String} (hkey : some key ≠ some k) : k ≠ key := fun heq => hkey (congrArg some heq.symm)
  cases ch with
  | commit sb key fp r =>
    simp only [Snapshot.change]
    split
    · exact AList.lookup_insert_ne (hne h)
    · rfl
  | commitFailure | tombstone | abortCreate => exact AList.lookup_insert_ne (hne h)
  | setSandbox | removeSandbox => rfl

/-- No intent of the key becomes incomplete. -/
theorem pending_of_elsewhere (hc : Elsewhere k c) (w : World) (a : Answer) {e : JournalEntry}
    (he : e ∈ (step w c a).1.store.pending) (hk : e.idempotencyKey = k) : e ∈ w.store.pending := by
  cases c with
  | store c =>
    cases c with
    | append x =>
      rcases Store.mem_pending_append he with he | ⟨rfl, hp⟩
      · exact he
      · exact absurd hk (hc hp)
    | change ch => rwa [Store.pending, journal_of_change w ch a] at he
    | result | sandbox | snapshot | journalEntries => exact he
  | env c => cases c <;> exact he
  | _ => exact he

/-- No intent of the key is journaled. -/
theorem journal_of_elsewhere (hc : Elsewhere k c) (w : World) (a : Answer) {e : JournalEntry}
    (he : e ∈ (step w c a).1.store.journal) (hp : e.phase = .intent) (hk : e.idempotencyKey = k) : e ∈ w.store.journal := by
  cases c with
  | store c =>
    cases c with
    | append x =>
      rcases (Store.append_cases w.store x a.time a.write).1 with ⟨-, hj⟩ | ⟨-, -, hj, -⟩
      · exact hj ▸ he
      · have he' : e ∈ w.store.journal ++ [w.store.stamp x a.time] := hj ▸ he
        rcases List.mem_append.1 he' with he' | he'
        · exact he'
        · rw [List.mem_singleton.1 he'] at hp hk
          exact absurd hk (hc hp)
    | change ch => rwa [journal_of_change w ch a] at he
    | result | sandbox | snapshot | journalEntries => exact he
  | env c => cases c <;> exact he
  | _ => exact he

end Elsewhere

/-- The snapshot holds a result of fingerprint `fp` under `k`, with an outcome in `P`. -/
def Snapshot.Binds (d : Snapshot) (k : String) (fp : Fingerprint) (P : Except Error MutationResult → Prop) : Prop :=
  ∃ o, d.results.lookup k = some ⟨fp, o⟩ ∧ P o

/-- Memory and file hold such a result. -/
structure Store.Binds (st : Store) (k : String) (fp : Fingerprint) (P : Except Error MutationResult → Prop) : Prop where
  data : st.data.Binds k fp P
  disk : st.disk.Binds k fp P

section Binds
variable {k : String} {fp : Fingerprint} {P : Except Error MutationResult → Prop} {st : Store}

theorem Store.Binds.append (h : st.Binds k fp P) (e : JournalEntry) (now : Nat) (o : Write) :
    (st.append e now o).1.Binds k fp P := by
  obtain ⟨-, -, hres, hdisk⟩ := st.append_cases e now o
  exact ⟨by rw [Snapshot.Binds, hres]; exact h.data, hdisk ▸ h.disk⟩

/-- A change binds the key as before if the snapshot it makes does. -/
theorem Store.Binds.persist (h : st.Binds k fp P) {d : Snapshot} (hd : d.Binds k fp P) (o : Write) :
    (st.persist d o).1.Binds k fp P := by
  rcases st.persist_cases d o with ⟨e, _, hs, rfl | rfl⟩ | hs <;> rw [hs]
  · exact h
  · exact ⟨h.data, hd⟩
  · exact ⟨hd, hd⟩

theorem Store.Binds.step {w : World} {c : Call} (h : w.store.Binds k fp P) (hc : Elsewhere k c) (a : Answer) :
    (step w c a).1.store.Binds k fp P := by
  cases c with
  | store c =>
    cases c with
    | append e => exact h.append e a.time a.write
    | change ch =>
      refine Store.Binds.persist h ?_ a.write
      rw [Snapshot.Binds, Change.results_ne _ hc]
      exact h.data
    | result | sandbox | snapshot | journalEntries => exact h
  | env c => cases c <;> exact h
  | _ => exact h

theorem Store.Binds.reopen {st' : Store} (h : st.Binds k fp P) (hst : st.reopen = some st') : st'.Binds k fp P := by
  obtain ⟨-, -, hres, hdisk⟩ := Store.reopen_cases hst
  exact ⟨by rw [Snapshot.Binds, hres]; exact h.disk, hdisk ▸ h.disk⟩

end Binds

/-- No incomplete intent carries `k`. -/
def Store.Free (st : Store) (k : String) : Prop := ∀ e ∈ st.pending, e.idempotencyKey ≠ k

/-- The journal has the intent of the create of `c` under `k` that made generation `gen`
of sandbox `id`. -/
def Store.Created (st : Store) (c : SandboxConfig) (k id gen : String) : Prop :=
  ∃ f ∈ st.journal, f.method = .createSandbox ∧ f.phase = .intent ∧ f.idempotencyKey = k ∧ f.sandboxID = id ∧
    ∃ sb, f.sandbox = some sb ∧ sb.generation = gen ∧ sb.config = c

/-- A property of the store that binds `k` to `fp`, and that only calls about `k`
can change. -/
structure Stable (k : String) (fp : Fingerprint) (J : Store → Prop) : Prop where
  binds : ∀ st, J st → ∃ o, st.data.results.lookup k = some ⟨fp, o⟩
  step : ∀ w c a, J w.store → Elsewhere k c → J (step w c a).1.store

namespace Service
variable {s : Service} {E : Env} {w : World} {k : String} {fp : Fingerprint} {J : Store → Prop}

theorem keeps_elsewhere {α : Type} {p : Act α} {R : α → Prop} (hJ : Stable k fp J) (hp : Emits (Elsewhere k) p R)
    (hw : J w.store) : Keeps E J p w :=
  (host_keeps (J := fun w => J w.store) hp hw hJ.step).imp (fun _ _ h => h.1) fun _ _ h => h.1

/-- A request under `k` ends with the lookup of `k`. -/
theorem keeps_replayed {α : Type} {fp' : Fingerprint} {f : Option Response → Act α} (hJ : Stable k fp J) (hw : J w.store)
    (hf : ∀ r, Keeps E J (f (some r)) w) : Keeps E J (replay k fp' >>= f) w := by
  refine host_replay hw (fun r _ => hf r) fun _ hnone => ?_
  obtain ⟨o, ho⟩ := hJ.binds _ hw
  rw [ho] at hnone
  cases hnone

theorem keeps_mutateBound {method : Method} {fp' : Fingerprint} {sb : Sandbox} {fn : Sandbox → Act (Sandbox × Option Err)}
    (hJ : Stable k fp J) (hw : J w.store) : Keeps E J (mutate method k fp' sb fn) w :=
  keeps_replayed hJ hw fun _ => hw

theorem keeps_boundCreate {c : SandboxConfig} {key : String} (hJ : Stable k fp J) (hw : J w.store) :
    Keeps E J (s.create c key) w := by
  refine host_create (fun _ _ h _ => h.store ▸ hw) (fun _ _ h _ => h.store ▸ hw) fun w' v t h _ hadm => ?_
  refine Sat.mono (Q := fun _ w' => J w'.store) ?_ fun _ _ h => ⟨fun _ => h, h⟩
  by_cases hk : key = k
  · obtain ⟨o, ho⟩ := hJ.binds _ hw
    obtain ⟨-, hnone, -⟩ := hadm
    rw [hk, ho] at hnone
    cases hnone
  · have hp : Only (Elsewhere k) (s.createAdmitted c key w.store.data.list.isEmpty (newSandbox c (hexGeneration v) t)) :=
      (touches_createAdmitted c _ rfl).imp (fun _ h => h.elsewhere hk)
    exact keeps_elsewhere hJ hp (h.store ▸ hw)

theorem keeps_boundTransition {id gen key : String} {method : Method} {source : List State} {intermediate : Option State}
    {target : State} {fn : Sandbox → Act (Option Err)} (hJ : Stable k fp J)
    (hfn : ∀ sb, Only (Moves sb) (fn sb)) (hw : J w.store) :
    Ensures E (fun w _ => J w.store) (transition id gen key method source intermediate target fn) w fun _ w' =>
      J w'.store ∧ ∀ e ∈ w'.store.journal, e.phase = .intent → e.idempotencyKey = k → e ∈ w.store.journal := by
  refine host_transition (fun _ _ => hw) (fun _ _ => ⟨hw, fun _ h _ _ => h⟩) fun sb _ => ?_
  refine Sat.mono (Q := fun _ w' => J w'.store ∧
    ∀ e ∈ w'.store.journal, e.phase = .intent → e.idempotencyKey = k → e ∈ w.store.journal) ?_ fun _ _ h => ⟨fun _ => h.1, h⟩
  by_cases hk : key = k
  · -- The key has its result: nothing happens.
    subst hk
    refine Sat.unless ⟨hw, fun _ h _ _ => h⟩ fun _ => host_replay hw (fun _ _ => ⟨hw, fun _ h _ _ => h⟩) ?_
    intro _ hnone
    obtain ⟨o, ho⟩ := hJ.binds _ hw
    rw [ho] at hnone
    cases hnone
  · have hp : Only (Elsewhere k) (transitionFrom sb id gen key method source intermediate target fn) :=
      emits_transitionFrom (fun _ h => h.touches.elsewhere hk) (fun _ h => (h.touches key).elsewhere hk) (hfn sb)
    have hkeeps := host_keeps (E := E) (J := fun w' => J w'.store ∧
      ∀ e ∈ w'.store.journal, e.phase = .intent → e.idempotencyKey = k → e ∈ w.store.journal) hp ⟨hw, fun _ h _ _ => h⟩
      fun w' c a hw' hc => ⟨hJ.step w' c a hw'.1 hc,
        fun e he hp hk => hw'.2 e (journal_of_elsewhere hc w' a he hp hk) hp hk⟩
    exact hkeeps.imp (fun _ _ h => h.1.1) fun _ _ h => h.1

theorem keeps_boundDelete {id gen key : String} (hJ : Stable k fp J) (hw : J w.store) :
    Keeps E J (s.delete id gen key) w := by
  refine host_delete (fun _ _ => hw) (fun _ _ => hw) fun sb _ => ?_
  refine Sat.mono (Q := fun _ w' => J w'.store) ?_ fun _ _ h => ⟨fun _ => h, h⟩
  by_cases hk : key = k
  · subst hk
    exact Sat.unless hw fun _ => keeps_mutateBound hJ hw
  · exact keeps_elsewhere hJ (emits_deleteFrom (fun _ h => h.touches.elsewhere hk) fun _ h => (h.touches key).elsewhere hk) hw

/-- A cancellation under `k` goes on only for the create that `k` belongs to. -/
theorem keeps_boundCancel {ctx : Ctx} {c : SandboxConfig} {key : String} (hJ : Stable k fp J) (hw : J w.store)
    (hcancel : key = k → fp = .create c → ∀ w x a, J w.store → Cancels c.id k (.create c) x → J (step w x a).1.store) :
    Keeps E J (s.cancelCreate ctx c key) w := by
  by_cases hk : key = k
  · subst hk
    by_cases hfp : fp = .create c
    · exact (host_keeps (J := fun w => J w.store) cancels_cancelCreate hw (hcancel rfl hfp)).imp (fun _ _ h => h.1) fun _ _ h => h.1
    · refine Sat.unless hw fun _ => Keeps.locked hw (Keeps.locked hw (host_result hw ?_))
      obtain ⟨o, ho⟩ := hJ.binds _ hw
      refine Sat.unless hw fun hno => absurd ?_ hno
      rw [ho]
      simpa using hfp
  · exact keeps_elsewhere hJ (cancels_cancelCreate.imp (fun _ h => h.elsewhere hk)) hw

/-- A load cancels the create of its generation when its caller is gone. -/
theorem keeps_boundLoad {id gen key : String} (hJ : Stable k fp J) (hw : J w.store)
    (hcancel : (∀ w c a, E w c a → Stays w c a) ∨ ∀ c, fp = .create c → w.store.Created c k id gen →
      ∀ w x a, J w.store → Cancels c.id k (.create c) x → J (step w x a).1.store) :
    Keeps E J (s.load id gen key) w := by
  refine host_orCancelled (keeps_boundTransition hJ (fun sb => moves_loadFn (.refl sb)) hw) (fun _ _ h => h.1)
    fun _ w1 h1 => ⟨h1.1, fun w2 h2 => ?_⟩
  rw [← h2.store] at h1
  obtain ⟨hw2, hjournal⟩ := h1
  refine ⟨hw2, fun hgone => Sat.mono (Q := fun _ w => J w.store) ?_ fun _ _ h _ => h⟩
  refine host_journalEntries hw2 (fun _ => hw2) ?_
  cases hfind : findCreate id gen w2.store.journal with
  | none => simpa only [hfind, sat_pure] using hw2
  | some f =>
    obtain ⟨hmem, hmethod, hphase, hid, sb, hsb, hgen⟩ := findCreate_found hfind
    simp only [hfind, hsb]
    refine Sat.guard (keeps_boundCancel hJ hw2 fun hk hfp => ?_) (fun _ _ h => h) fun _ h => h
    have hmem0 : f ∈ w.store.journal := hjournal f hmem hphase hk
    exact hcancel.resolve_left hgone sb.config hfp ⟨f, hmem0, hmethod, hphase, hk, hid, sb, hsb, hgen, rfl⟩

/-! ## Reconcile -/

theorem keeps_boundReconcile (hJ : Stable k fp J) (hkeyed : w.store.Keyed) (hw : J w.store)
    (hpending : (∀ e ∈ w.store.pending, (w.store.data.results.lookup e.idempotencyKey).any isAborted = false) →
      w.store.Free k) : Keeps E J s.reconcile w := by
  refine host_reconcile (fun _ _ h _ => h.store ▸ hw) (fun _ _ h => h.store ▸ hw) fun w' recovery h hvalid => ?_
  refine Sat.mono (Q := fun _ w' => J w'.store) ?_ fun _ _ h => ⟨fun _ => h, h⟩
  have hfree := hpending hvalid
  have hid (i : JournalEntry) (hi : i ∈ w.store.pending) (sb : Sandbox) (hsb : i.sandbox = some sb) : i.sandboxID = sb.id :=
    (hkeyed.journal i (incomplete_subset _ i hi) sb hsb).1.symm
  have hintents : Only (Elsewhere k) (s.reconcileIntents w.store.pending) := by
    refine (recovers_reconcileIntents (fun _ h => h) hid).imp (fun c hc => ?_)
    obtain ⟨i, hi, σ, -, hc⟩ := hc
    exact hc.touches.elsewhere (hfree i hi)
  have hp := only_reconcileValid w.store.data recovery (fun _ h => h.elsewhere) (fun _ h => by cases h) hintents
  exact keeps_elsewhere hJ hp (h.store ▸ hw)

theorem keeps_boundBoot (hJ : Stable k fp J) (hkeyed : w.store.Keyed) (hw : J w.store)
    (hpending : (∀ e ∈ w.store.pending, (w.store.data.results.lookup e.idempotencyKey).any isAborted = false) →
      w.store.Free k) : Keeps E J s.boot w := by
  refine host_snapshot hw ?_
  have hcheck : Only Reads (if hasLiveSandboxes w.store.data then return none else do recoverIdlePool (← hostCheck)) := by
    simp [recoverIdlePool, Option.forall]
  refine Keeps.after_reads hcheck hw fun r w' h => ?_
  cases r with
  | some e =>
    show J w'.store
    exact h ▸ hw
  | none => exact keeps_boundReconcile hJ (h ▸ hkeyed) (h ▸ hw) (h ▸ hpending)

theorem keeps_boundShutdown (hJ : Stable k fp J) (hw : J w.store) : Keeps E J releaseIdlePool w := by
  have hp : Only (Elsewhere k) releaseIdlePool := by
    simp [releaseIdlePool, releasePool, Option.forall, Reads.elsewhere]
  exact keeps_elsewhere hJ hp hw

/-! ## Every operation -/

/-- Every operation keeps `J`: it leaves the create of `k` alone, or `J`
allows for its cancellation. -/
theorem keeps_boundOp {op : Op} (hJ : Stable k fp J) (hkeyed : w.store.Keyed) (hw : J w.store)
    (hcancel : (∀ c, fp = .create c → ∀ w x a, J w.store → Cancels c.id k (.create c) x → J (step w x a).1.store) ∨
      ∀ c, fp = .create c → op ≠ .request (.cancelCreate c k) ∧ ∀ id gen key, op = .request (.load id gen key) →
        w.store.Created c k id gen → ∀ w c a, E w c a → Stays w c a)
    (hpending : (∀ e ∈ w.store.pending, (w.store.data.results.lookup e.idempotencyKey).any isAborted = false) →
      w.store.Free k) : Keeps E J (op.program s) w := by
  cases op with
  | boot => exact (keeps_boundBoot hJ hkeyed hw hpending).map
  | shutdown => exact (keeps_boundShutdown hJ hw).map
  | request r =>
    have htransition {id gen key : String} {method : Method} {source : List State} {intermediate : Option State}
        {target : State} {fn : Sandbox → Act (Option Err)} (hfn : ∀ sb, Only (Moves sb) (fn sb)) :
        Keeps E J (transition id gen key method source intermediate target fn) w :=
      Sat.mono (keeps_boundTransition hJ hfn hw) fun _ _ h => h.1
    cases r with
    | create c key => exact (keeps_boundCreate hJ hw).map
    | load id gen key =>
      refine Keeps.map (keeps_boundLoad hJ hw ?_)
      by_cases hstays : ∀ w c a, E w c a → Stays w c a
      · exact .inl hstays
      · refine .inr fun c hfp hcreated => ?_
        rcases hcancel with h | h
        · exact h c hfp
        · exact absurd ((h c hfp).2 id gen key rfl hcreated) hstays
    | start id gen key => exact (htransition fun sb => acts_backend (by simp) (.refl sb)).map
    | stop id gen key => exact (htransition fun sb => moves_stopFn (.refl sb)).map
    | delete id gen key => exact (keeps_boundDelete hJ hw).map
    | cancelCreate c key =>
      refine Keeps.map (keeps_boundCancel hJ hw fun hk hfp => ?_)
      rcases hcancel with h | h
      · exact h c hfp
      · exact absurd (hk ▸ rfl) (h c hfp).1

end Service

end Multikernel