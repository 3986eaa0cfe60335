import Multikernel.Lifecycle.Journal
/-!
# Recovery after an acknowledged request

A request that fails after its intent is journaled leaves the intent behind,
and the service goes on serving its sandbox. The next daemon recovers the old
intent from the sandbox it carries, over whatever was done since
(`not_honours`). Recovery honours an acknowledged request if the request found
no incomplete intent of its sandbox (`honours_of_nothingPending`).
-/

namespace Multikernel
open Lib

/-- The incomplete intents of one sandbox. -/
def Store.pendingOf (st : Store) (id gen : String) : List JournalEntry :=
  st.pending.filter fun e => e.sandboxID = id ∧ e.generation = gen

/-- Recovery has intents of the sandbox to handle, none of them in `old`. -/
def Store.OnlyLater (st : Store) (old : List JournalEntry) (id gen : String) : Prop :=
  st.pendingOf id gen ≠ [] ∧ ∀ e ∈ st.pendingOf id gen, e ∉ old

/-- The restart `b` acts on the instance of the sandbox, or puts the sandbox
back into a `state.json` without it or serves it again, only for intents that
are not in `old`. -/
structure Service.Honours (s : Service) (d : Daemon) (b : Turn) (old : List JournalEntry) (id gen : String) : Prop where
  backend : ∀ x ∈ s.turnCalls d b, ∀ op sb, x.2 = .kerf (.act op sb) → sb.id = id → sb.generation = gen →
    d.world.store.OnlyLater old id gen
  snapshot : (∀ sb, d.world.store.disk.sandboxes.lookup id = some sb → sb.generation ≠ gen) →
    ∀ sb, ((s.turn d b).up ∧ (s.turn d b).world.store.data.sandboxes.lookup id = some sb ∨
      (s.turn d b).world.store.disk.sandboxes.lookup id = some sb) → sb.generation = gen → d.world.store.OnlyLater old id gen

/-- The service would serve the request: the generation is in the snapshot, or
the key has a result. -/
def Request.Served (r : Request) (st : Store) (id gen : String) : Prop :=
  (∃ sb, st.data.sandboxes.lookup id = some sb ∧ sb.generation = gen) ∨ (st.data.results.lookup r.key).isSome

/-- A request on a sandbox finds no incomplete intent of it. -/
def NothingPending (w : World) (op : Op) (_ : List Answer) : Prop :=
  ∀ r id gen, op = .request r → r.target = some (id, gen) → r.Served w.store id gen → w.store.pendingOf id gen = []

namespace Service
variable {E : Env} {s : Service} {w : World}

/-! ## Acknowledgement -/

theorem served_transition {id gen key : String} {method : Method} {source : List State} {intermediate : Option State}
    {target : State} {fn : Sandbox → Act (Option Err)} :
    Yields E (transition id gen key method source intermediate target fn) w fun r _ =>
      ∀ x, r = .ok x → ∃ sb, w.store.data.sandboxes.lookup id = some sb ∧ sb.generation = gen := by
  refine host_withLock (host_sandbox trivial ?_)
  cases hsb : w.store.data.sandboxes.lookup id with
  | none => exact fun x hx => by cases hx
  | some sb =>
    refine sat_ite.2 ⟨fun _ x hx => (by cases hx), fun hgen => ?_⟩
    exact (emits_true _).lift.mono fun _ _ _ x _ => ⟨sb, rfl, by simpa using hgen⟩

/-- Only a request that would be served is answered with success. -/
theorem served_request {r : Request} {id gen : String} (hr : r.target = some (id, gen)) :
    Yields E (r.program s) w fun out _ =>
      ∀ x, out = .response (.ok x) → r.Served w.store id gen := by
  have hmap {p : Act Response} (hp : Yields E p w fun r' _ =>
      ∀ x, r' = .ok x → r.Served w.store id gen) : Yields E
        (do return Outcome.response (← p)) w fun out _ => ∀ x, out = .response (.ok x) → r.Served w.store id gen :=
    hp.bind fun r' w' h x hx => h x (by cases hx; rfl)
  have htransition {key : String} {method : Method} {source : List State} {intermediate : Option State} {target : State}
      {fn : Sandbox → Act (Option Err)} :
      Yields E (transition id gen key method source intermediate target fn) w fun r' _ =>
        ∀ x, r' = .ok x → r.Served w.store id gen :=
    served_transition.mono fun _ _ h x hx => .inl (h x hx)
  cases r with
  | load id' gen' key =>
    cases hr
    refine hmap (htransition.bind fun r' w' h => ?_)
    cases r' with
    | ok r' => exact h
    | error e =>
      refine (emits_true _).lift.bind fun gone _ _ => ?_
      cases gone with
      | none => exact fun x hx => by cases hx
      | some _ => exact (emits_true _).lift.bind fun e _ _ => by cases e <;> exact fun x hx => by cases hx
  | start | stop =>
    cases hr
    exact hmap htransition
  | delete id' gen' key =>
    cases hr
    refine hmap (host_withLock (host_withLock (host_replay trivial (fun r' hr' x hx => ?_) fun _ _ => ?_)))
    · obtain ⟨-, y, hy, -⟩ := hr' x hx
      exact .inr (by simp [Request.key, hy])
    · refine host_sandbox trivial ?_
      cases hsb : w.store.data.sandboxes.lookup id with
      | none => exact fun x hx => by cases hx
      | some sb =>
        refine sat_ite.2 ⟨fun _ x hx => (by cases hx), fun hgen => ?_⟩
        exact (emits_true _).lift.mono fun _ _ _ x _ => .inl ⟨sb, hsb, by simpa using hgen⟩
  | create | cancelCreate => cases hr

/-- A request that finds nothing pending and is acknowledged leaves nothing
pending. -/
theorem pendingOf_of_acknowledged {d : Daemon} {y : Turn} {r : Request} {id gen : String}
    (hy : y.op = .request r) (hr : r.target = some (id, gen)) (hack : s.acknowledges d y)
    (hK : ∀ w, d.begin y.op = some w → NothingPending w y.op y.answers) :
    (s.turn d y).world.store.pendingOf id gen = [] := by
  obtain ⟨op, as⟩ := y
  subst hy
  obtain ⟨x, hx⟩ := outcome_of_acknowledges hack
  obtain ⟨w, hw, hout⟩ := Option.bind_eq_some_iff.1 hx
  have hturn : (s.turn d ⟨.request r, as⟩).world = (exec Host (r.program s) w as).1 := by
    simp only [Service.turn, hw]
    rfl
  have hexec : exec Host (r.program s) w as = ((exec Host (r.program s) w as).1, some (.response (.ok x))) :=
    Prod.ext rfl hout
  have hserved := (served_request (E := fun _ _ _ => True) (s := s) hr).exec_result (meets_true Host _ w as) hexec x rfl
  have hsettles := (settles_request (E := fun _ _ _ => True) (s := s) r).exec_result (meets_true Host _ w as) hexec x rfl
  have hnone := hK w hw r id gen rfl hr hserved
  rw [hturn, Store.pendingOf, List.filter_eq_nil_iff]
  exact fun e he => List.filter_eq_nil_iff.1 hnone e (hsettles.pending e he)

/-! ## What a restart does -/

/-- The call acts on no instance but that of an intent's sandbox. -/
def ActsFor (pending : List JournalEntry) (c : Call) : Prop :=
  ∀ op sb, c = .kerf (.act op sb) → ∃ e ∈ pending, ∃ σ, e.sandbox = some σ ∧ sb.Same σ

theorem actsFor_of_reads {c : Call} (h : Reads c) (pending : List JournalEntry) : ActsFor pending c := by
  rintro op sb rfl
  cases h with | aside h => cases h

theorem actsFor_reconcileValid (d : Snapshot) {pending : List JournalEntry} (recovery : Table Sandbox)
    (hid : ∀ i ∈ pending, ∀ sb, i.sandbox = some sb → i.sandboxID = sb.id) :
    Only (ActsFor pending) (s.reconcileValid d pending recovery) := by
  refine only_reconcileValid d recovery (fun _ h => actsFor_of_reads h pending) (by rintro _ _ _ ⟨⟩) ?_
  refine (recovers_reconcileIntents (fun _ h => h) hid).imp ?_
  rintro c ⟨e, he, σ, hσ, hc⟩ op sb rfl
  exact ⟨e, he, σ, hσ, hc.acts op sb rfl⟩

/-- A restart acts on instances only to recover incomplete intents. -/
theorem actsFor_boot (hkeyed : w.store.Keyed) :
    Ensures E (fun _ c => ActsFor w.store.pending c) (Op.boot.program s) w fun _ _ => True := by
  refine Sat.bind (p := s.boot) (R := fun _ _ => True) ?_ fun _ _ _ => trivial
  have hG {c : Call} (hc : Reads c) : ActsFor w.store.pending c := actsFor_of_reads hc _
  refine host_snapshot (hG (by simp)) (host_reads ?_ (fun _ _ _ => hG) fun r w1 h1 => ?_)
  · simp [recoverIdlePool, Option.forall]
  cases r with
  | some e => trivial
  | none =>
    refine host_lock (hG (by simp)) ((host_snapshot (hG (by simp)) ?_).bind (R := fun _ _ => True)
      fun _ _ _ => host_unlock (hG (by simp)) trivial)
    refine Sat.unless trivial fun _ => host_journalEntries (hG (by simp)) (fun _ => trivial) ?_
    refine host_reads ((looks_validateRecovery _ _ _).imp (fun _ h => h.reads)) (fun _ _ _ => hG) fun r w2 h2 => ?_
    cases r with
    | error e => trivial
    | ok recovery =>
      have hpending : incomplete w1.store.journal = w.store.pending := by rw [h1, Store.pending]
      simp only [hpending]
      exact (actsFor_reconcileValid _ recovery fun i hi sb hsb =>
        (hkeyed.journal i (incomplete_subset _ i hi) sb hsb).1.symm).lift

/-- What owned a sandbox after a restart owned it before. -/
theorem owns_boot (hkeyed : w.store.Keyed) (as : List Answer) {a : Sandbox}
    (ha : (exec Host (Op.boot.program s) w as).1.store.Owns a) : ∃ b, w.store.Owns b ∧ b.Same a := by
  have hR : Respects fun a b => (∃ x, w.store.Owns x ∧ x.Same a) ∧ ∃ x, w.store.Owns x ∧ x.Same b :=
    ⟨And.symm, fun hs ⟨⟨x, hx, hxa⟩, hb⟩ => ⟨⟨x, hx, hxa.trans hs⟩, hb⟩⟩
  have hstart : Compatible (fun a b => (∃ x, w.store.Owns x ∧ x.Same a) ∧ ∃ x, w.store.Owns x ∧ x.Same b) [] w.store :=
    fun a b ha hb => ⟨⟨a, ha.resolve_left (by simp), .refl a⟩, ⟨b, hb.resolve_left (by simp), .refl b⟩⟩
  have hend := (keeps_op (E := fun _ _ _ => True) (s := s) hR .boot hkeyed hstart fun _ _ h => by cases h).exec_world
    (fun _ _ h => h) (fun _ _ h => h) as (meets_true Host _ w as)
  exact (hend a a (.inr ha) (.inr ha)).1

/-! ## Runs -/

theorem run_journal_grows (s : Service) (d : Daemon) (ts : List Turn) :
    d.world.store.journal <+: (run s.turn d ts).world.store.journal :=
  s.run_inv (J := fun w => d.world.store.journal <+: w.store.journal) ts (List.prefix_refl _) (fun _ h => h)
    (fun _ _ h hst => (Store.reopen_cases hst).1 ▸ h) fun w c a h => h.trans (journal_grows w c a)

/-- Intents journaled by the time of an acknowledgement that left nothing
pending are not pending later. -/
theorem not_mem_old {st st' : Store} {id gen : String} (hnone : st.pendingOf id gen = [])
    (hgrows : st.journal <+: st'.journal) : ∀ e ∈ st'.pendingOf id gen, e ∉ st.journal := by
  intro e he hold
  obtain ⟨he, hid⟩ := List.mem_filter.1 he
  exact List.filter_eq_nil_iff.1 hnone e (mem_incomplete_of_grows hgrows hold he) hid

theorem pendingOf_ne_nil {st : Store} (hkeyed : st.Keyed) {e : JournalEntry} (he : e ∈ st.pending) {σ sb : Sandbox}
    (hσ : e.sandbox = some σ) (hsame : sb.Same σ) : st.pendingOf sb.id sb.generation ≠ [] := by
  obtain ⟨hid, hgen, -⟩ := hkeyed.journal e (incomplete_subset _ e he) σ hσ
  refine List.ne_nil_of_mem (List.mem_filter.2 ⟨he, ?_⟩)
  simp [hsame.id, hsame.generation, hid, hgen]

/-- In a run whose requests find nothing pending, every restart after an
acknowledged request honours it. -/
theorem honours_of_nothingPending (s : Service) (pre post : List Turn) (y b : Turn) (r : Request) (id gen : String)
    (hy : y.op = .request r) (hr : r.target = some (id, gen)) (hack : s.acknowledges (s.after pre) y) (hb : b.op = .boot)
    (hK : s.Conforming NothingPending (pre ++ y :: post)) :
    s.Honours (s.after (pre ++ y :: post)) b (s.after (pre ++ [y])).world.store.journal id gen := by
  have hyturn : s.after (pre ++ [y]) = s.turn (s.after pre) y := run_append pre [y]
  have hpost : s.after (pre ++ y :: post) = run s.turn (s.after (pre ++ [y])) post := by
    rw [hyturn]
    exact run_append pre (y :: post)
  have hnone : (s.after (pre ++ [y])).world.store.pendingOf id gen = [] := by
    rw [hyturn]
    exact pendingOf_of_acknowledged hy hr hack (conforms_append.1 hK).2.1
  have hlater := not_mem_old hnone (run_journal_grows s (s.after (pre ++ [y])) post)
  rw [← hpost] at hlater
  have hkeyed := after_keyed s (pre ++ y :: post)
  generalize s.after (pre ++ y :: post) = d at hlater hkeyed
  obtain ⟨op, as⟩ := b
  subst hb
  cases hst : d.world.store.reopen with
  | none =>
    have hbegin : d.begin .boot = none := by simp [Daemon.begin, hst]
    refine ⟨by simp [turnCalls, hbegin], fun hno sb hsb hgen => absurd hgen (hno sb ?_)⟩
    simpa [Service.turn, hbegin] using hsb
  | some st =>
    have hbegin : d.begin .boot = some (d.world.reopened st) := by simp [Daemon.begin, hst]
    have hpending : st.pending = d.world.store.pending := by rw [Store.pending, (Store.reopen_cases hst).1, Store.pending]
    have hkeyed' : (d.world.reopened st).store.Keyed := hkeyed.reopen hst
    refine ⟨fun c hc op sb hcall hid hgen => ?_, fun hno sb hsb hgen => ?_⟩
    · simp only [turnCalls, hbegin] at hc
      obtain ⟨e, he, σ, hσ, hsame⟩ := (actsFor_boot (E := fun _ _ _ => True) (s := s) hkeyed').calls
        (meets_true Host _ _ as) c hc op sb hcall
      exact ⟨hid ▸ hgen ▸ pendingOf_ne_nil hkeyed (hpending ▸ he) hσ hsame, hlater⟩
    · simp only [Service.turn, hbegin] at hsb
      replace hsb := hsb.imp_left And.right
      obtain ⟨a, ha, hsame⟩ := owns_boot hkeyed' as (.inl ⟨id, hsb⟩)
      have hend := exec_keyed (Op.boot.program s) hkeyed' as
      have hsbid : sb.id = id := hend.records id sb hsb
      rcases ha with ⟨i, ha⟩ | ⟨e, he, hσ⟩
      · -- The new process has in memory what the file holds.
        replace ha := Store.records_reopen hst ha
        rw [← hkeyed.records i a (.inr ha), hsame.id, hsbid] at ha
        exact absurd (hsame.generation.trans hgen) (hno a ha)
      · exact ⟨hsbid ▸ hgen ▸ pendingOf_ne_nil hkeyed (hpending ▸ he) hσ hsame.symm, hlater⟩

/-- A restart after an acknowledged delete. -/
theorem honours_delete :
    Service.Honours {} (Service.after {} [⟨.boot, working 0⟩, ⟨.request (.create (sampleConfig "a" 1) "k1"), working 1⟩,
        ⟨.request (.delete "a" (hexGeneration 105) "k2"), working 2⟩]) ⟨.boot, working 3⟩
      (Service.after {} [⟨.boot, working 0⟩, ⟨.request (.create (sampleConfig "a" 1) "k1"), working 1⟩,
        ⟨.request (.delete "a" (hexGeneration 105) "k2"), working 2⟩]).world.store.journal "a" (hexGeneration 105) :=
  honours_of_nothingPending {} [⟨.boot, working 0⟩, ⟨.request (.create (sampleConfig "a" 1) "k1"), working 1⟩] []
    ⟨.request (.delete "a" (hexGeneration 105) "k2"), working 2⟩ ⟨.boot, working 3⟩ _ _ _ rfl rfl (by decide +kernel) rfl
    (conforming_of_startsComplete (fun w op as hw _ _ r id gen _ _ _ => by simp [Store.pendingOf, hw]) (by decide +kernel))

/-- A create whose commit is refused, and the delete of its sandbox. -/
def deletedPending : List Turn :=
  [⟨.boot, working 0⟩, ⟨.request (.create (sampleConfig "a" 1) "k1"), except 1 24 diskFull⟩,
    ⟨.request (.delete "a" (hexGeneration 105) "k2"), working 2⟩]

/-- The call creates the instance of generation `gen` of sandbox `id`. -/
def isCreate (id gen : String) (c : Call) : Bool :=
  match c with
  | .kerf (.act .create sb) => sb.id == id && sb.generation == gen
  | _ => false

/-- The delete is acknowledged, and the next daemon creates the instance again
and puts the sandbox back. -/
theorem not_honours :
    Service.acknowledges {} (Service.after {} (deletedPending.take 2)) ⟨.request (.delete "a" (hexGeneration 105) "k2"), working 2⟩ ∧
      (Service.turnCalls {} (Service.after {} deletedPending) ⟨.boot, working 3⟩).any
        (fun x => isCreate "a" (hexGeneration 105) x.2) ∧
      ((Service.after {} (deletedPending ++ [⟨.boot, working 3⟩])).world.store.data.sandboxes.lookup "a").map
        (fun sb => (sb.generation, sb.state)) = some (hexGeneration 105, .created) ∧
      ¬Service.Honours {} (Service.after {} deletedPending) ⟨.boot, working 3⟩
        (Service.after {} deletedPending).world.store.journal "a" (hexGeneration 105) := by
  have hback : ((Service.after {} (deletedPending ++ [⟨.boot, working 3⟩])).world.store.data.sandboxes.lookup "a").map
      (fun sb => (sb.generation, sb.state)) = some (hexGeneration 105, .created) := by decide +kernel
  have hup : (Service.after {} (deletedPending ++ [⟨.boot, working 3⟩])).up := by decide +kernel
  refine ⟨by decide +kernel, by decide +kernel, hback, fun h => ?_⟩
  have hgone : (Service.after {} deletedPending).world.store.disk.sandboxes.lookup "a" = none := by decide +kernel
  obtain ⟨sb, hsb, heq⟩ := Option.map_eq_some_iff.1 hback
  rw [Service.after, run_append] at hsb hup
  obtain ⟨hne, hlater⟩ := h.snapshot (by simp [hgone]) sb (.inl ⟨hup, hsb⟩) (congrArg Prod.fst heq)
  -- Every incomplete intent is in the journal, so none came later.
  obtain ⟨e, he⟩ := List.exists_mem_of_ne_nil _ hne
  exact hlater e he (incomplete_subset _ e (List.mem_filter.1 he).1)

end Service

end Multikernel
