import Multikernel.Lifecycle.Owners
/-!
# What the journal says of a finished request

The journal only grows, and only `mutate` and the cancellations append to it.
A request that is answered with success has closed its own intent and left no
new one (`Settles`), and its result is recorded under its key.
-/

namespace Multikernel
open Lib
variable {e x : JournalEntry} {st : Store} {id gen : String}

/-! ## Calls and the journal -/

/-- Every call but an append. -/
inductive Unjournaled : Call → Prop
  | reads {c : Call} (h : Reads c) : Unjournaled c
  | act (op : KerfOp) (sb : Sandbox) : Unjournaled (.kerf (.act op sb))
  | change (ch : Change) : Unjournaled (.store (.change ch))

attribute [simp] Unjournaled.reads Unjournaled.act Unjournaled.change

theorem Allocates.unjournaled {σ : Sandbox} {c : Call} (h : Allocates σ c) : Unjournaled c := by
  cases h with
  | reads h => exact .reads h
  | works h =>
    cases h with
    | acts h =>
      cases h with
      | aside h => exact .reads (.aside h.aside)
      | act => exact .act _ _
    | setSandbox h => exact .change _

theorem journal_of_unjournaled {c : Call} (hc : Unjournaled c) (w : World) (a : Answer) :
    (step w c a).1.store.journal = w.store.journal := by
  cases hc with
  | reads h => rw [store_of_reads h]
  | act => rfl
  | change ch => exact journal_of_change w ch a

/-- An entry that is incomplete later was so as soon as it was journaled. -/
theorem mem_incomplete_of_grows {es fs : List JournalEntry} (h : es <+: fs) (he : e ∈ es) (hf : e ∈ incomplete fs)
    : e ∈ incomplete es := by
  obtain ⟨-, hp, hno⟩ := mem_incomplete.1 hf
  exact mem_incomplete.2 ⟨he, hp, fun d hd => hno d (h.subset hd)⟩

/-- An append adds at most its own intent. -/
theorem Store.mem_pending_append {now : Nat} {o : Write} (he : e ∈ (st.append x now o).1.pending) :
    e ∈ st.pending ∨ (e = st.stamp x now ∧ x.phase = .intent) := by
  rcases (st.append_cases x now o).1 with ⟨-, hj⟩ | ⟨-, -, hj, -⟩
  · exact .inl (by rwa [Store.pending, hj] at he)
  · rw [Store.pending, hj] at he
    exact mem_incomplete_append he

/-- A completion that is written closes its operation. -/
theorem Store.not_mem_pending_of_complete {now : Nat} {o : Write} (hx : x.phase = .complete)
    (ho : (st.append x now o).2 = none) :
    ∀ e ∈ (st.append x now o).1.pending, e ∈ st.pending ∧ e.operationID ≠ x.operationID := by
  intro e he
  rcases (st.append_cases x now o).1 with ⟨hne, -⟩ | ⟨-, -, hj, -⟩
  · exact absurd ho hne
  · rw [Store.pending, hj, incomplete_append_complete (show (st.stamp x now).phase = .complete from hx)] at he
    obtain ⟨he, hop⟩ := List.mem_filter.1 he
    exact ⟨he, of_decide_eq_true hop⟩

section Rules
variable {E : Env} {G : World → Call → Prop} {α : Type} {Q : α → World → Prop} {w : World}

/-- An append either fails or puts its entry at the end. -/
theorem host_append {f : Option Err → Act α} (hG : G w (.store (.append e)))
    (herr : ∀ err w', Ensures E G (f (some err)) w' Q)
    (h : ∀ w' now, w.store.checkEntry e = none → w'.store.journal = w.store.journal ++ [w.store.stamp e now] → w'.store.data.results = w.store.data.results → w'.store.disk = w.store.disk → Ensures E G (f none) w' Q)
    : Ensures E G (store.append e >>= f) w Q := by
  refine ⟨hG, fun r w' hr => ?_⟩
  obtain ⟨a, -, hr⟩ := hr
  have hw : { w with store := (w.store.append e a.time a.write).1 } = w' := congrArg Prod.fst hr
  have hr : (w.store.append e a.time a.write).2 = r := congrArg Prod.snd hr
  obtain ⟨hj, -, hres, hdisk⟩ := Store.append_cases w.store e a.time a.write
  cases r with
  | some err => exact herr err w'
  | none =>
    rcases hj with ⟨hne, -⟩ | ⟨-, hcheck, hj, -⟩
    · exact absurd hr hne
    · subst hw
      exact h _ a.time hcheck hj hres hdisk

/-- A part that appends nothing leaves the journal to the rest as it was. -/
theorem host_unjournaled {β : Type} {p : Act α} {f : α → Act β} {R : α → Prop} {Q : β → World → Prop}
    (hp : Emits Unjournaled p R)
    (hf : ∀ a w', R a → w'.store.journal = w.store.journal → Yields E (f a) w' Q) :
    Yields E (p >>= f) w Q := by
  have hsame := host_keeps (E := E) (J := fun w' => w'.store.journal = w.store.journal) hp rfl
    fun w' c a hw' hc => (journal_of_unjournaled hc w' a).trans hw'
  exact (hsame.imp (fun _ _ _ => trivial) fun _ _ h => h).bind fun a w' h => hf a w' h.2 h.1

/-- A completion closes its operation if it is written, and opens nothing in any case. -/
theorem host_complete {J : Store → Prop} (hJ : ∀ st, J st → ∀ x now o, x.phase = .complete → J (st.append x now o).1)
    {f : Option Err → Act α} (hx : x.phase = .complete) (hw : J w.store)
    (herr : ∀ e w', J w'.store → (∀ e ∈ w'.store.pending, e ∈ w.store.pending) → Ensures E (fun w _ => J w.store) (f (some e)) w' Q)
    (h : ∀ w', J w'.store → (∀ e ∈ w'.store.pending, e ∈ w.store.pending ∧ e.operationID ≠ x.operationID) → Ensures E (fun w _ => J w.store) (f none) w' Q) :
    Ensures E (fun w _ => J w.store) (store.append x >>= f) w Q := by
  refine ⟨hw, fun r w' hr => ?_⟩
  obtain ⟨a, -, hr⟩ := hr
  have hstore : (w.store.append x a.time a.write).1 = w'.store := congrArg (·.1.store) hr
  have hreply : (w.store.append x a.time a.write).2 = r := congrArg Prod.snd hr
  have hw' : J w'.store := hstore ▸ hJ _ hw x a.time a.write hx
  cases r with
  | some e =>
    refine herr e w' hw' fun e he => ?_
    rcases Store.mem_pending_append (hstore ▸ he) with he | ⟨-, hp⟩
    · exact he
    · exact absurd (hx.symm.trans hp) (by decide)
  | none => exact h w' hw' (hstore ▸ Store.not_mem_pending_of_complete hx hreply)

/-- `cancelOwned` once the create it cancels is complete. -/
def Service.cancelCompleted (s : Service) (ctx : Ctx) (c : SandboxConfig) (key : String) (fp : Fingerprint)
    (entries : List JournalEntry) (sandbox : Sandbox) (failure : Error) : Act (Option Error) := do
  if let some e ← Service.cancelDependents c.id sandbox.state (incomplete entries) then
    return some e
  if let some _ ← store.tombstone key fp failure then
    return some (apierr .internal "persist create cancellation tombstone" true)
  s.cancelResources ctx c key fp sandbox failure

/-- A cancellation completes what depends on its create. -/
theorem Service.cancelDependents_completes {J : Store → Prop}
    (hJ : ∀ st, J st → ∀ x now o, x.phase = .complete → J (st.append x now o).1) (id : String) (state : State)
    (todo : List JournalEntry) (hw : J w.store) :
    Ensures E (fun w _ => J w.store) (Service.cancelDependents id state todo) w fun r w' =>
      J w'.store ∧ (∀ e ∈ w'.store.pending, e ∈ w.store.pending) ∧
        (r = none → ∀ e ∈ todo, e.sandboxID = id → e.method ≠ .createSandbox → e ∉ w'.store.pending) := by
  induction todo generalizing w with
  | nil => exact ⟨hw, fun _ h => h, by simp⟩
  | cons e rest ih =>
    unfold Service.cancelDependents
    refine sat_ite.2 ⟨fun hother => (ih hw).mono ?_, fun _ => sat_ite.2 ⟨fun _ => ⟨hw, fun _ h => h, by simp⟩, fun _ => ?_⟩⟩
    · rintro r w' ⟨hu, hsub, hdone⟩
      refine ⟨hu, hsub, fun hr x hx hid hm => ?_⟩
      rcases List.mem_cons.1 hx with rfl | hx
      · exact absurd hid (hother.resolve_right hm)
      · exact hdone hr x hx hid hm
    · refine host_complete hJ rfl hw (fun _ w' hu hsub => ⟨hu, hsub, by simp⟩) fun w1 hu1 hsub1 => (ih hu1).mono ?_
      rintro r w' ⟨hu, hsub, hdone⟩
      refine ⟨hu, fun x hx => (hsub1 x (hsub x hx)).1, fun hr x hx hid hm => ?_⟩
      rcases List.mem_cons.1 hx with rfl | hx
      · exact fun hmem => (hsub1 x (hsub x hmem)).2 rfl
      · exact hdone hr x hx hid hm

end Rules

/-! ## A successful request -/

/-- What a success leaves behind: nothing new is pending, and the key has the
result, in the file too unless the success was only looked up. -/
structure Settles (key : String) (fp : Fingerprint) (st st' : Store) (x : MutationResult) : Prop where
  printable : printableASCII key 1 128
  pending : ∀ e ∈ st'.pending, e ∈ st.pending
  recorded : ∃ y, st'.data.results.lookup key = some ⟨fp, .ok y⟩ ∧ (x = y ∨ x = { y with replayed := true })
  written : st' = st ∨ st'.disk.results.lookup key = st'.data.results.lookup key

/-- A recorded success settles at once. -/
theorem Recorded.settles {key : String} {fp : Fingerprint} {r : Response} (h : Recorded st key fp r) :
    ∀ x, r = .ok x → Settles key fp st st x := by
  intro x hx
  obtain ⟨hkey, y, hy, rfl⟩ := h x hx
  exact ⟨hkey, fun _ h => h, ⟨y, hy, .inr rfl⟩, .inl rfl⟩

/-- A refused request settles nothing. -/
theorem settles_error {key : String} {fp : Fingerprint} {st' : Store} {e : Error} :
    ∀ x, (Except.error e : Response) = .ok x → Settles key fp st st' x :=
  fun x h => by cases h

namespace Service
variable {E : Env} {w : World} {method : Method} {key : String} {fp : Fingerprint} {target : State}
  {intent : JournalEntry} {sb : Sandbox} {P : List JournalEntry}

theorem fails_mutateFailed (e : Err) :
    Emits (fun _ => True) (mutateFailed method key fp intent sb e) fun r => ∀ x, r ≠ .ok x := by
  simp [mutateFailed, Option.forall]

theorem fails_mutateUnconfirmed : Emits (fun _ => True) (mutateUnconfirmed intent sb) fun r => ∀ x, r ≠ .ok x := by
  simp [mutateUnconfirmed, Option.forall]

/-- Every incomplete intent is one of `P` or of the operation `op`. -/
def Pends (P : List JournalEntry) (op : String) (journal : List JournalEntry) : Prop :=
  ∀ e ∈ incomplete journal, e ∈ P ∨ e.operationID = op

theorem Pends.append {journal : List JournalEntry} {op : String} (h : Pends P op journal) (he : e.operationID = op)
    (hc : e.phase = .complete) : ∀ x ∈ incomplete (journal ++ [e]), x ∈ P := by
  intro x hx
  rw [incomplete_append_complete hc] at hx
  obtain ⟨hx, hne⟩ := List.mem_filter.1 hx
  exact (h x hx).resolve_right (by simpa [he] using hne)

/-- A success has only `P` pending, and its result in memory and in the file. -/
def Commits (P : List JournalEntry) (key : String) (fp : Fingerprint) (r : Response) (st : Store) : Prop :=
  ∀ x, r = .ok x → (∀ e ∈ st.pending, e ∈ P) ∧ st.data.results.lookup key = some ⟨fp, .ok x⟩ ∧
    st.disk.results.lookup key = some ⟨fp, .ok x⟩

theorem settles_mutateConfirmed (hkey : key ≠ "") (hw : Pends P intent.operationID w.store.journal) :
    Yields E (mutateConfirmed key fp intent sb) w fun r w' => Commits P key fp r w'.store := by
  have hfail {e : Error} {w' : World} : Commits P key fp (.error e) w'.store := fun x h => by cases h
  refine host_checkpoint trivial (fun _ => hfail) (host_now trivial fun updatedAt => ?_)
  refine host_checkpoint trivial (fun _ => hfail) (host_change trivial (fun _ _ _ => hfail) ?_)
  refine host_checkpoint trivial (fun _ => hfail) (host_checkpoint trivial (fun _ => hfail) ?_)
  refine host_append trivial (fun _ _ => hfail) fun w' t hcheck hj hres hdisk => ?_
  refine host_checkpoint trivial (fun _ => hfail) fun x hx => ⟨?_, ?_⟩
  · rw [Store.pending, hj]
    exact hw.append rfl rfl
  · cases hx
    rw [hres, hdisk]
    simp [Snapshot.change, hkey]

/-- `mutate` from the end of its steps. -/
theorem settles_mutateEnded (intent : JournalEntry) {r : Sandbox × Option Err} (hkey : key ≠ "")
    (hw : Pends P intent.operationID w.store.journal) :
    Yields E (mutateEnded method key fp intent r) w fun r w' => Commits P key fp r w'.store := by
  have hfail {p : Act Response} {w : World} (hp : Emits (fun _ => True) p fun r => ∀ x, r ≠ .ok x) :
      Yields E p w fun r w' => Commits P key fp r w'.store :=
    hp.lift.mono fun _ _ h x hx => absurd hx (h x)
  obtain ⟨sb, _ | e⟩ := r
  · refine host_checkpoint trivial (fun _ => fun x hx => by cases hx) ?_
    refine host_unjournaled (R := fun _ => True) (by simp) fun actual w' _ hj => ?_
    cases actual with
    | error e => exact hfail fails_mutateUnconfirmed
    | ok actual =>
      exact Sat.unless (settles_mutateConfirmed hkey (hj ▸ hw)) fun _ => hfail fails_mutateUnconfirmed
  · exact hfail (fails_mutateFailed e)

/-- Whatever its operation ID, the intent of a mutation is the only new entry
until it is completed. -/
theorem settles_mutateAs {fn : Sandbox → Act (Sandbox × Option Err)} (hfn : Steps (Allocates sb) sb target (fn sb))
    (hprint : printableASCII key 1 128) (op : String) :
    Yields E (mutateAs method key fp sb fn op) w fun r w' => ∀ x, r = .ok x →
      Settles key fp w.store w'.store x := by
  have hkey : key ≠ "" := by
    rintro rfl
    simp [printableASCII] at hprint
  refine host_checkpoint trivial (fun _ => settles_error) ?_
  refine host_append trivial (fun _ _ => settles_error) fun w1 t _ hj _ _ => ?_
  refine host_checkpoint trivial (fun _ => settles_error) (host_checkpoint trivial (fun _ => settles_error) ?_)
  refine host_unjournaled (Emits.mono hfn (fun _ h => h.unjournaled) fun _ h => h) fun r w2 _ h2 => ?_
  have hpends : Pends w.store.pending op w2.store.journal := by
    rw [h2, hj]
    intro e he
    rcases mem_incomplete_append he with he | ⟨rfl, -⟩
    · exact .inl he
    · exact .inr rfl
  refine (settles_mutateEnded (intentOf method key fp sb op) hkey hpends).mono fun r w' h x hx => ?_
  obtain ⟨hpending, hrec, hdisk⟩ := h x hx
  exact ⟨hprint, hpending, ⟨x, hrec, .inl rfl⟩, .inr (hdisk.trans hrec.symm)⟩

theorem settles_mutate {fn : Sandbox → Act (Sandbox × Option Err)} (hfn : Steps (Allocates sb) sb target (fn sb)) :
    Yields E (mutate method key fp sb fn) w fun r w' => ∀ x, r = .ok x →
      Settles key fp w.store w'.store x := by
  refine host_replay trivial (fun r hr => hr.settles) fun hprint _ => ?_
  exact host_generation trivial (fun _ => settles_mutateAs hfn hprint _) fun _ _ => settles_mutateAs hfn hprint _

/-! ## Requests -/

section Requests
variable {s : Service} {α : Type} {Q : α → World → Prop}

theorem host_withLock {l : Lock} {p : Act α} (hp : Yields E p w Q) :
    Yields E (withLock l p) w Q :=
  host_lock trivial (hp.bind fun _ _ h => host_unlock trivial h)

theorem settles_transition {source : List State} {intermediate : Option State} {target : State}
    {fn : Sandbox → Act (Option Err)} (hfn : ∀ sb, Only (Moves sb) (fn sb)) :
    Yields E (transition id gen key method source intermediate target fn) w fun r w' =>
      ∀ x, r = .ok x → Settles key (.target method id gen) w.store w'.store x := by
  refine host_withLock (host_sandbox trivial ?_)
  cases w.store.data.sandboxes.lookup id with
  | none => exact settles_error
  | some sb =>
    refine Sat.unless settles_error fun _ => host_replay trivial (fun r hr => hr.settles) fun _ _ => ?_
    refine sat_ite.2 ⟨fun h => settles_mutate (steps_done h), fun _ => ?_⟩
    refine Sat.unless settles_error fun _ => ?_
    exact settles_mutate (steps_transitionFn (hfn sb) (.refl sb)).allocates

theorem settles_load :
    Yields E (s.load id gen key) w fun r w' =>
      ∀ x, r = .ok x → Settles key (.target .loadSandbox id gen) w.store w'.store x := by
  refine host_orCancelled (settles_transition fun sb => moves_loadFn (.refl sb)) (fun _ _ h => h) fun _ _ _ => ⟨trivial, fun _ _ => ?_⟩
  exact ⟨settles_error, fun _ => (emits_true _).lift.mono fun _ _ _ _ => settles_error⟩

theorem settles_delete :
    Yields E (s.delete id gen key) w fun r w' =>
      ∀ x, r = .ok x → Settles key (.target .deleteSandbox id gen) w.store w'.store x := by
  refine host_withLock (host_withLock (host_replay trivial (fun r hr => hr.settles) fun _ _ => host_sandbox trivial ?_))
  cases w.store.data.sandboxes.lookup id with
  | none => exact settles_error
  | some sb => exact Sat.unless settles_error fun _ => settles_mutate (steps_deleteFn (.refl sb)).allocates

theorem settles_createAdmitted {c : SandboxConfig} {firstSandbox : Bool} :
    Yields E (s.createAdmitted c key firstSandbox sb) w fun r w' =>
      ∀ x, r = .ok x → Settles key (.create c) w.store w'.store x := by
  refine host_orCancelled (settles_mutate (allocates_createFn firstSandbox (.refl sb))) (fun _ _ h => h)
    fun _ _ _ => ⟨trivial, fun _ _ => ?_⟩
  exact ⟨settles_error, fun _ => (emits_true _).lift.mono fun _ _ _ _ => settles_error⟩

theorem settles_create {c : SandboxConfig} :
    Yields E (s.create c key) w fun r w' =>
      ∀ x, r = .ok x → Settles key (.create c) w.store w'.store x := by
  unfold create
  cases s.validateCreate c with
  | some e => exact settles_error
  | none =>
    refine host_reads ((s.apart_checkArtifacts c).imp (fun _ h => .aside h.aside)) (fun _ _ _ _ => trivial)
      fun r w1 h1 => ?_
    cases r with
    | some e => exact settles_error
    | none =>
      rw [← h1]
      refine host_withLock (host_replay trivial (fun r hr => hr.settles) fun _ _ => host_withLock ?_)
      refine host_sandbox trivial (host_snapshot trivial ?_)
      cases s.admission c (w1.store.data.sandboxes.lookup c.id) w1.store.data with
      | some e => exact settles_error
      | none => exact host_generation trivial (fun _ => settles_error) fun _ _ => host_now trivial fun _ => settles_createAdmitted

/-- A request answered with success has settled. -/
theorem settles_request (r : Request) :
    Yields E (r.program s) w fun out w' =>
      ∀ x, out = .response (.ok x) → Settles r.key r.fingerprint w.store w'.store x := by
  have hmap {p : Act Response} {fp : Fingerprint} {key : String} (hp : Yields E p w fun r w' =>
      ∀ x, r = .ok x → Settles key fp w.store w'.store x) : Yields E
        (do return Outcome.response (← p)) w fun out w' =>
          ∀ x, out = .response (.ok x) → Settles key fp w.store w'.store x :=
    hp.bind fun r w' h x hx => h x (by cases hx; rfl)
  cases r with
  | create c key => exact hmap settles_create
  | load id gen key => exact hmap settles_load
  | start id gen key => exact hmap (settles_transition fun sb => acts_backend (by simp) (.refl sb))
  | stop id gen key => exact hmap (settles_transition fun sb => moves_stopFn (.refl sb))
  | delete id gen key => exact hmap settles_delete
  | cancelCreate c key =>
    exact (emits_true _).lift.bind fun _ _ _ x hx => by cases hx

end Requests

end Service

end Multikernel
