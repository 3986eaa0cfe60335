import Multikernel.Lifecycle.Requests
/-!
# Who owns an allocation

A sandbox owns its CPUs, ports and bundle while it is in the snapshot, and also
while `state.json` holds it or an incomplete intent carries it: a restart or its
recovery may put it back. `Owns` is all of them. A call adds no owner but the
sandbox its operation works on (`owns_step`), so a relation that holds between
any two owners and between them and a new sandbox holds along every run
(`Compatible`).
-/

namespace Multikernel
open Lib
variable {c : Call} {σ : Sandbox} {key id gen : String} {w : World}

/-! ## Owners -/

/-- A sandbox of the snapshot, in memory or in the file, or of an incomplete intent. -/
def Store.Owns (s : Store) (a : Sandbox) : Prop := (∃ id, s.Records id a) ∨ ∃ e ∈ s.pending, e.sandbox = some a

theorem mem_incomplete_append {es : List JournalEntry} {e x : JournalEntry} (h : x ∈ incomplete (es ++ [e])) :
    x ∈ incomplete es ∨ (x = e ∧ e.phase = .intent) := by
  obtain ⟨hx, hp, hno⟩ := mem_incomplete.1 h
  rcases List.mem_append.1 hx with hx | hx
  · exact .inl (mem_incomplete.2 ⟨hx, hp, fun d hd => hno d (List.mem_append_left _ hd)⟩)
  · rw [List.mem_singleton] at hx
    exact .inr ⟨hx, hx ▸ hp⟩

/-- The owner a call may add. -/
def Call.adds : Call → Option Sandbox
  | .store (.append e) => if e.phase = .intent then e.sandbox else none
  | .store (.change ch) => ch.adds
  | _ => none

/-- A call adds at most one owner. -/
theorem owns_step {x : Sandbox} (w : World) (a : Answer) (h : (step w c a).1.store.Owns x) :
    w.store.Owns x ∨ c.adds = some x := by
  cases c with
  | store c =>
    cases c with
    | append e =>
      rcases h with ⟨id, hid⟩ | ⟨i, hi, hx⟩
      · exact .inl (.inl ⟨id, Store.records_append.1 hid⟩)
      · rcases (Store.append_cases w.store e a.time a.write).1 with ⟨-, hj⟩ | ⟨-, -, hj, -⟩
        · exact .inl (.inr ⟨i, by rw [Store.pending, ← hj]; exact hi, hx⟩)
        · have hi' : i ∈ incomplete (w.store.journal ++ [w.store.stamp e a.time]) := hj ▸ hi
          rcases mem_incomplete_append hi' with hi | ⟨rfl, hp⟩
          · exact .inl (.inr ⟨i, hi, hx⟩)
          · exact .inr ((if_pos hp).trans hx)
    | change ch =>
      rcases h with ⟨id, hid⟩ | ⟨i, hi, hx⟩
      · exact (Store.records_change hid).imp (fun h => .inl ⟨id, h⟩) And.left
      · rw [Store.pending, journal_of_change w ch a] at hi
        exact .inl (.inr ⟨i, hi, hx⟩)
    | result | sandbox | snapshot | journalEntries => exact .inl h
  | env c => cases c <;> exact .inl h
  | _ => exact .inl h

/-- Every owner a call may add is one of `L`, up to its state. -/
def Adds (L : List Sandbox) (c : Call) : Prop := ∀ x, c.adds = some x → ∃ σ ∈ L, x.Same σ

theorem Reads.adds (h : Reads c) (L : List Sandbox) : Adds L c := by
  intro x hx
  cases h with
  | aside h => cases h <;> cases hx
  | _ => cases hx

theorem Touches.adds (h : Touches σ key c) : Adds [σ] c := by
  intro x hx
  cases c with
  | store c =>
    cases c with
    | append e =>
      simp only [Call.adds, Option.ite_none_right_eq_some] at hx
      obtain ⟨-, sb, hsb, hsame⟩ := h.2 hx.1
      exact ⟨σ, List.mem_singleton_self σ, Option.some.inj (hx.2.symm.trans hsb) ▸ hsame⟩
    | change ch =>
      cases ch with
      | commit | commitFailure =>
        cases hx
        exact ⟨σ, List.mem_singleton_self σ, h.1⟩
      | setSandbox =>
        cases hx
        exact ⟨σ, List.mem_singleton_self σ, h⟩
      | tombstone | abortCreate | removeSandbox => cases hx
    | result | sandbox | snapshot | journalEntries => cases hx
  | _ => cases hx

theorem Cancels.adds {fp : Fingerprint} (h : Cancels id key fp c) (L : List Sandbox) : Adds L c := by
  intro x hx
  cases c with
  | store c =>
    cases c with
    | append e =>
      simp only [Call.adds, Option.ite_none_right_eq_some] at hx
      cases hx.1.symm.trans h.2
    | change ch =>
      cases ch with
      | commit | commitFailure | setSandbox => cases h
      | tombstone | abortCreate | removeSandbox => cases hx
    | result | sandbox | snapshot | journalEntries => cases hx
  | _ => cases hx

/-! ## Relations between owners -/

section Compatible
variable {R : Sandbox → Sandbox → Prop} {E : Env} {L : List Sandbox} {α : Type}

/-- A symmetric relation that looks only at the identity of the sandboxes. -/
structure Respects (R : Sandbox → Sandbox → Prop) : Prop where
  symm : ∀ {a b}, R a b → R b a
  same : ∀ {a a' b}, a.Same a' → R a b → R a' b

/-- `R` holds between any two owners, those of `L` included. -/
def Compatible (R : Sandbox → Sandbox → Prop) (L : List Sandbox) (s : Store) : Prop :=
  ∀ a b, (a ∈ L ∨ s.Owns a) → (b ∈ L ∨ s.Owns b) → R a b

theorem Compatible.step (hR : Respects R) (h : Compatible R L w.store) (hc : Adds L c) (a : Answer)
    : Compatible R L (step w c a).1.store := by
  -- Every owner after the call was one before it, up to its state.
  have hbefore (x : Sandbox) (hx : x ∈ L ∨ (Multikernel.step w c a).1.store.Owns x) :
      ∃ y, (y ∈ L ∨ w.store.Owns y) ∧ y.Same x := by
    rcases hx with hx | hx
    · exact ⟨x, .inl hx, .refl x⟩
    · rcases owns_step w a hx with hx | hx
      · exact ⟨x, .inr hx, .refl x⟩
      · obtain ⟨σ, hσ, hsame⟩ := hc x hx
        exact ⟨σ, .inl hσ, hsame.symm⟩
  intro x y hx hy
  obtain ⟨x', hx', hxs⟩ := hbefore x hx
  obtain ⟨y', hy', hys⟩ := hbefore y hy
  exact hR.same hxs (hR.symm (hR.same hys (hR.symm (h x' y' hx' hy'))))

theorem Compatible.nil {s : Store} (h : Compatible R L s) : Compatible R [] s :=
  fun a b ha hb => h a b (.inr (ha.resolve_left (by simp))) (.inr (hb.resolve_left (by simp)))

/-- Owners of the store may be listed as well. -/
theorem Compatible.of_owns {s : Store} (h : Compatible R [] s) (hL : ∀ σ ∈ L, s.Owns σ) : Compatible R L s :=
  fun a b ha hb => h a b (.inr (ha.elim (hL a) id)) (.inr (hb.elim (hL b) id))

/-- A new sandbox that `R` relates to every owner and to itself joins them. -/
theorem Compatible.join (hR : Respects R) {s : Store} (h : Compatible R [] s) (hσ : R σ σ)
    (hnew : ∀ b, s.Owns b → R σ b) : Compatible R [σ] s := by
  intro a b ha hb
  rcases ha with ha | ha <;> rcases hb with hb | hb
  · rw [List.mem_singleton.1 ha, List.mem_singleton.1 hb]
    exact hσ
  · exact List.mem_singleton.1 ha ▸ hnew b hb
  · exact hR.symm (List.mem_singleton.1 hb ▸ hnew a ha)
  · exact h a b (.inr ha) (.inr hb)

/-- A program that adds only owners of `L` keeps the relation. -/
theorem keeps_compatible (hR : Respects R) {p : Act α} (hp : Only (Adds L) p)
    (hw : Compatible R L w.store) : Keeps E (Compatible R []) p w := by
  have h := host_keeps (E := E) (J := fun w => Compatible R L w.store) hp hw fun w c a hw hc => hw.step hR hc a
  exact h.imp (fun _ _ h => h.1.nil) fun _ _ h => h.1.nil

/-- A part that touches one owner keeps the relation. -/
theorem keeps_touches (hR : Respects R) {p : Act α} (hp : Only (Touches σ key) p)
    (hw : Compatible R [] w.store) (hσ : w.store.Owns σ) : Keeps E (Compatible R []) p w :=
  keeps_compatible hR (hp.imp (fun _ h => h.adds))
    (hw.of_owns fun _ ha => List.mem_singleton.1 ha ▸ hσ)

theorem keeps_cancels (hR : Respects R) {p : Act α} {fp : Fingerprint}
    (hp : Only (Cancels id key fp) p) (hw : Compatible R [] w.store) : Keeps E (Compatible R []) p w :=
  keeps_compatible hR (hp.imp (fun _ h => h.adds [])) hw

end Compatible

/-! ## Operations -/

section Operations
variable {R : Sandbox → Sandbox → Prop} {E : Env} {s : Service} {w : World}

/-- The sandbox the create makes with the random value `v` may join the owners. -/
def JoinsAs (R : Sandbox → Sandbox → Prop) (st : Store) (c : SandboxConfig) (v t : Nat) : Prop :=
  R (newSandbox c (hexGeneration v) t) (newSandbox c (hexGeneration v) t) ∧
    ∀ b, st.Owns b → R (newSandbox c (hexGeneration v) t) b

/-- Every sandbox the create can make may join the owners. -/
def Joins (R : Sandbox → Sandbox → Prop) (st : Store) (c : SandboxConfig) : Prop := ∀ v t, JoinsAs R st c v t

namespace Service

theorem keeps_create (hR : Respects R) {c : SandboxConfig} (hw : Compatible R [] w.store)
    (hnew : s.Admits w.store c key → ∀ w' v t, w.Beside w' → Draws E w' v → JoinsAs R w.store c v t) :
    Keeps E (Compatible R []) (s.create c key) w := by
  refine host_create (fun _ _ h _ => h.store ▸ hw) (fun _ _ h _ => h.store ▸ hw) fun w' v t h hv hadm => ?_
  obtain ⟨hself, hothers⟩ := hnew hadm w' v t h hv
  have hnew : Compatible R [newSandbox c (hexGeneration v) t] w'.store := h.store ▸ hw.join hR hself hothers
  have hadds : Only (Adds [newSandbox c (hexGeneration v) t])
      (s.createAdmitted c key w.store.data.list.isEmpty (newSandbox c (hexGeneration v) t)) :=
    (touches_createAdmitted c _ rfl).imp (fun _ h => h.adds)
  exact (keeps_compatible hR hadds hnew).mono fun _ _ h => ⟨fun _ => h, h⟩

theorem keeps_transition (hR : Respects R) {method : Method} {source : List State} {intermediate : Option State}
    {target : State} {fn : Sandbox → Act (Option Err)} (hfn : ∀ sb, Only (Moves sb) (fn sb))
    (hw : Compatible R [] w.store) :
    Keeps E (Compatible R []) (transition id gen key method source intermediate target fn) w := by
  refine host_transition (fun _ _ => hw) (fun _ _ => hw) fun sb hsb => ?_
  have htouches : Only (Touches sb key) (transitionFrom sb id gen key method source intermediate target fn) :=
    emits_transitionFrom (fun _ h => h.touches) (fun _ h => h.touches key) (hfn sb)
  exact (keeps_touches hR htouches hw (.inl ⟨id, .inl hsb⟩)).mono fun _ _ h => ⟨fun _ => h, h⟩

theorem keeps_cancelLoaded (hR : Respects R) (hw : Compatible R [] w.store) :
    Keeps E (Compatible R []) (s.cancelLoaded id gen) w := by
  refine host_journalEntries hw (fun e => hw) ?_
  cases hfind : findCreate id gen w.store.journal with
  | none => simpa only [hfind, sat_pure] using hw
  | some create =>
    cases hsb : create.sandbox with
    | none => simpa only [hfind, hsb, sat_pure] using hw
    | some sb =>
      simp only [hfind, hsb]
      exact (keeps_cancels hR cancels_cancelCreate hw).guard (fun _ _ h => h) fun _ h => h

theorem keeps_load (hR : Respects R) (hw : Compatible R [] w.store) :
    Keeps E (Compatible R []) (s.load id gen key) w := by
  refine host_orCancelled (keeps_transition hR (fun sb => moves_loadFn (.refl sb)) hw) (fun _ _ h => h)
    fun _ w1 h1 => ⟨h1, fun w2 h2 => ?_⟩
  rw [← h2.store] at h1
  exact ⟨h1, fun _ => Sat.mono (keeps_cancelLoaded hR h1) fun _ _ h _ => h⟩

theorem keeps_delete (hR : Respects R) (hw : Compatible R [] w.store) :
    Keeps E (Compatible R []) (s.delete id gen key) w := by
  refine host_delete (fun _ _ => hw) (fun _ _ => hw) fun sb hsb => ?_
  have htouches : Only (Touches sb key) (s.deleteFrom sb id gen key) :=
    emits_deleteFrom (fun _ h => h.touches) fun _ h => h.touches key
  exact (keeps_touches hR htouches hw (.inl ⟨id, .inl hsb⟩)).mono fun _ _ h => ⟨fun _ => h, h⟩

/-! ### Recovery -/

theorem keeps_reconcileIntents (hR : Respects R) (hkeyed : w.store.Keyed) (hw : Compatible R [] w.store) :
    Keeps E (Compatible R []) (s.reconcileIntents w.store.pending) w := by
  have hp : Only (Recovers w.store.pending) (s.reconcileIntents w.store.pending) :=
    recovers_reconcileIntents (fun _ h => h) fun i hi sb hsb => (hkeyed.journal i (incomplete_subset _ i hi) sb hsb).1.symm
  refine keeps_compatible hR (L := w.store.pending.filterMap (·.sandbox)) (hp.imp ?_) (hw.of_owns ?_)
  · rintro c ⟨i, hi, σ, hσ, hc⟩ x hx
    obtain ⟨τ, hτ, hsame⟩ := hc.touches.adds x hx
    exact ⟨σ, List.mem_filterMap.2 ⟨i, hi, hσ⟩, List.mem_singleton.1 hτ ▸ hsame⟩
  · intro σ hσ
    obtain ⟨i, hi, hσ⟩ := List.mem_filterMap.1 hσ
    exact .inr ⟨i, hi, hσ⟩

theorem keeps_reconcileStates (hR : Respects R) (pending : List String) (hw : Compatible R [] w.store) :
    Keeps E (Compatible R []) (do reconcileStates pending (← list)) w := by
  refine sat_bind.2 (host_snapshot hw ?_)
  refine keeps_compatible hR (L := w.store.data.list)
    ((marks_reconcileStates pending _ fun sb hsb => by simpa using hsb).imp ?_)
    (hw.of_owns fun a ha => .inl ((mem_list ha).imp fun _ => .inl))
  rintro c (hc | ⟨hσ, hsame⟩) x hx
  · exact hc.adds _ x hx
  · cases hx
    exact ⟨_, hσ, hsame⟩

theorem keeps_reconcileValid (hR : Respects R) (hkeyed : w.store.Keyed) (recovery : Table Sandbox)
    (hw : Compatible R [] w.store) :
    Keeps E (Compatible R []) (s.reconcileValid w.store.data w.store.pending recovery) w := by
  refine Keeps.after_reads (by simp [adoptPool]) hw fun _ w1 h1 => ?_
  have hstorage : Only Reads (if s.storage then Storage.reconcile .request (storageOwners recovery w.store.data)
      else return none) :=
    Sat.unless ((Storage.apart_reconcile _ _).imp (fun _ h => .aside h.aside)) fun _ => trivial
  refine Keeps.after_reads hstorage (h1 ▸ hw) fun r w2 h2 => ?_
  have h : w2.store = w.store := h2.trans h1
  cases r with
  | some e => exact h ▸ hw
  | none =>
    rw [← h] at hw hkeyed ⊢
    refine Sat.guard (keeps_reconcileIntents hR hkeyed hw) (fun _ _ h => h) fun w3 h3 => ?_
    refine Keeps.after_reads reads_checkInventory h3 fun r w4 h4 => ?_
    rw [← h4] at h3
    cases r with
    | some e => exact h3
    | none => exact keeps_reconcileStates hR _ h3

theorem keeps_reconcile (hR : Respects R) (hkeyed : w.store.Keyed) (hw : Compatible R [] w.store) :
    Keeps E (Compatible R []) s.reconcile w := by
  refine Keeps.locked hw (host_snapshot hw (Sat.unless hw fun _ => ?_))
  refine host_journalEntries hw (fun e => hw) ?_
  refine Keeps.after_reads ((looks_validateRecovery _ _ _).imp (fun _ h => h.reads)) hw fun r w' h' => ?_
  rw [← h'] at hw hkeyed ⊢
  cases r with
  | error e => exact hw
  | ok recovery => exact keeps_reconcileValid hR hkeyed recovery hw

theorem keeps_boot (hR : Respects R) (hkeyed : w.store.Keyed) (hw : Compatible R [] w.store) :
    Keeps E (Compatible R []) s.boot w := by
  refine host_snapshot hw (Keeps.after_reads ?_ hw fun r w' h' => ?_)
  · simp [recoverIdlePool, Option.forall]
  · rw [← h'] at hw hkeyed
    cases r with
    | some e => exact hw
    | none => exact keeps_reconcile hR hkeyed hw

/-- Every operation keeps a relation between the owners that its new sandbox,
if it makes one, has to all of them. -/
theorem keeps_op (hR : Respects R) (op : Op) (hkeyed : w.store.Keyed) (hw : Compatible R [] w.store)
    (hnew : ∀ c key, op = .request (.create c key) → s.Admits w.store c key →
      ∀ w' v t, w.Beside w' → Draws E w' v → JoinsAs R w.store c v t) : Keeps E (Compatible R []) (op.program s) w := by
  cases op with
  | boot => exact (keeps_boot hR hkeyed hw).map
  | shutdown => exact (Keeps.of_reads reads_releaseIdlePool hw).map
  | request r =>
    cases r with
    | create c key => exact (keeps_create hR hw (hnew c key rfl)).map
    | load id gen key => exact (keeps_load hR hw).map
    | start id gen key => exact (keeps_transition hR (fun sb => acts_backend (by simp) (.refl sb)) hw).map
    | stop id gen key => exact (keeps_transition hR (fun sb => moves_stopFn (.refl sb)) hw).map
    | delete id gen key => exact (keeps_delete hR hw).map
    | cancelCreate c key => exact (keeps_cancels hR cancels_cancelCreate hw).map

/-! ### Runs -/

theorem owns_reopen {st st' : Store} (hst : st.reopen = some st') {a : Sandbox} (ha : st'.Owns a) : st.Owns a := by
  rw [Store.Owns, Store.pending, (Store.reopen_cases hst).1] at ha
  exact ha.imp_left fun ⟨id, h⟩ => ⟨id, .inr (Store.records_reopen hst h)⟩

theorem compatible_reopen {st st' : Store} (h : Compatible R [] st) (hst : st.reopen = some st') :
    Compatible R [] st' :=
  fun a b ha hb => h a b (.inr (owns_reopen hst (ha.resolve_left (by simp)))) (.inr (owns_reopen hst (hb.resolve_left (by simp))))

/-- Owners stay related in every run whose creates meet `K`. -/
theorem Conforming.compatible {K : World → Op → List Answer → Prop} {ts : List Turn} (hR : Respects R)
    (h : s.Conforming K ts) (hK : ∀ w c key as, w.store.Keyed → Compatible R [] w.store →
      K w (.request (.create c key)) as → s.Admits w.store c key → Joins R w.store c) : Compatible R [] (s.after ts).world.store := by
  refine (Service.ConformingFrom.inv (J := fun w => Compatible R [] w.store ∧ w.store.Keyed) h ⟨?_, Store.keyed_empty⟩
    (fun _ h => h) (fun _ _ h hst => ⟨compatible_reopen h.1 hst, h.2.reopen hst⟩) fun w op as hw hop => ⟨?_, ?_⟩).1
  · intro a b ha
    rcases ha with ha | ⟨id, ha⟩ | ⟨e, he, -⟩
    · simp at ha
    · simp [Daemon.init, World.init, Store.Records, Store.empty] at ha
    · simp [Daemon.init, World.init, Store.empty, Store.pending, incomplete] at he
  · have hkeeps : Keeps (fun _ _ _ => True) (Compatible R []) (op.program s) w :=
      keeps_op hR op hw.2 hw.1 fun c key hc hadm _ v t _ _ => hK w c key as hw.2 hw.1 (hc ▸ hop) hadm v t
    exact hkeeps.exec_world (fun _ _ h => h) (fun _ _ h => h) as (meets_true Host _ w as)
  · exact exec_keyed (op.program s) hw.2 as

/-- A run whose operations all start with a complete journal, and with the
snapshot of the file in memory. -/
theorem conforming_of_startsComplete {K : World → Op → List Answer → Prop} {d : Daemon} {ts : List Turn}
    (hK : ∀ w op as, w.store.pending = [] → w.store.disk.sandboxes = w.store.data.sandboxes →
      w.store.disk.results.keys = w.store.data.results.keys → K w op as)
    (h : s.checks (fun w _ _ => w.store.pending = [] ∧ w.store.disk.sandboxes.entries = w.store.data.sandboxes.entries ∧
      w.store.disk.results.keys = w.store.data.results.keys) d ts) : s.ConformingFrom K d ts := by
  refine conforming_of_checks (fun w op as hw => ?_) h
  obtain ⟨hpending, hsandboxes, hkeys⟩ := of_decide_eq_true hw
  exact hK w op as hpending (AList.ext hsandboxes) hkeys

end Service

end Operations

end Multikernel
