import Multikernel.Lifecycle.Keeps
/-!
# The frame of each request

Every request takes its locks, looks at the store and returns, or goes on to
mutate. The rules here walk that frame once: what is left to prove is what
happens when the request stops, and what its mutation does. A request that
only looked leaves a world `Beside` the one it started in.
-/

namespace Multikernel
open Lib
variable {key id gen : String}

/-- The worlds differ in nothing that decides what the service does next but
the storage exports, their servers and the caller's context. -/
structure World.Beside (w w' : World) : Prop where
  store : w'.store = w.store
  kernel : w'.kernel = w.kernel
  poolReady : w'.poolReady = w.poolReady
  observed : w'.observed = w.observed

namespace World.Beside
variable {u v w : World}

@[refl] theorem refl (w : World) : w.Beside w := ⟨rfl, rfl, rfl, rfl⟩

theorem trans (h : u.Beside v) (h' : v.Beside w) : u.Beside w :=
  ⟨h'.store.trans h.store, h'.kernel.trans h.kernel, h'.poolReady.trans h.poolReady, h'.observed.trans h.observed⟩

end World.Beside

/-- Calls that work aside or read the store. -/
inductive Looks : Call → Prop
  | aside {c : Call} (h : Aside c) : Looks c
  | result (key : String) : Looks (.store (.result key))
  | sandbox (id : String) : Looks (.store (.sandbox id))
  | snapshot : Looks (.store .snapshot)
  | journalEntries : Looks (.store .journalEntries)

attribute [simp] Looks.aside Looks.result Looks.sandbox Looks.snapshot Looks.journalEntries

/-- What a request does before it finds its sandbox. -/
inductive Peeks : Call → Prop
  | env (c : EnvCall) : Peeks (.env c)
  | result (key : String) : Peeks (.store (.result key))
  | sandbox (id : String) : Peeks (.store (.sandbox id))

attribute [simp] Peeks.env Peeks.result Peeks.sandbox

theorem Peeks.looks {c : Call} (h : Peeks c) : Looks c := by
  cases h <;> simp

theorem Looks.reads {c : Call} (h : Looks c) : Reads c := by
  cases h with
  | aside h => exact .aside h
  | _ => simp

theorem beside_of_looks {c : Call} (hc : Looks c) (w : World) (a : Answer) : w.Beside (step w c a).1 := by
  cases hc with
  | aside h =>
    cases h with
    | env c => cases c <;> exact ⟨rfl, rfl, rfl, rfl⟩
    | exports | server | artifacts => exact ⟨rfl, rfl, rfl, rfl⟩
  | result | sandbox | snapshot | journalEntries => exact ⟨rfl, rfl, rfl, rfl⟩

section Frame
variable {E : Env} {G : World → Call → Prop} {α β : Type} {w : World}

/-- A part that only looks leaves a world beside to the rest. -/
theorem host_looks {p : Act β} {f : β → Act α} {R : β → Prop} {Q : α → World → Prop} (hp : Emits Looks p R)
    (hG : ∀ w' c, w.Beside w' → Looks c → G w' c)
    (hf : ∀ r w', w.Beside w' → R r → Sat (Host.trans E) G (f r) w' Q) : Sat (Host.trans E) G (p >>= f) w Q := by
  have h := host_keeps (E := E) (J := w.Beside) hp (.refl w) fun w' c a hw' hc => hw'.trans (beside_of_looks hc w' a)
  exact (h.imp (fun w' c h => hG w' c h.1 h.2) fun _ _ h => h).bind fun r w' h => hf r w' h.1 h.2

end Frame

/-- The incomplete intents of the journal. -/
def Store.pending (s : Store) : List JournalEntry := incomplete s.journal

theorem mem_list {d : Snapshot} {a : Sandbox} (h : a ∈ d.list) : ∃ id, d.sandboxes.lookup id = some a := by
  obtain ⟨⟨id, b⟩, hx, rfl⟩ := List.mem_map.1 h
  exact ⟨id, AList.mem_lookup_iff.2 hx⟩

/-- The create passes every check that depends on its input and the store. -/
def Service.Admits (s : Service) (st : Store) (c : SandboxConfig) (key : String) : Prop :=
  s.validateCreate c = none ∧ st.data.results.lookup key = none ∧
    s.admission c (st.data.sandboxes.lookup c.id) st.data = none

/-- The sandbox that a create makes. -/
def newSandbox (c : SandboxConfig) (g : String) (t : Nat) : Sandbox := ⟨c.id, g, .allocating, none, c, none, t, t⟩

namespace Service
variable {s : Service} {E : Env} {G : World → Call → Prop} {w : World}
  {Q : Response → World → Prop}

/-- The caller is still there whenever the service asks. -/
def Stays (w : World) (c : Call) (a : Answer) : Prop := c = .env .ctxErr → (w.ctx <|> a.err) = none

theorem host_ctxErr {α : Type} {Q : α → World → Prop} {f : Option Err → Act α}
    (hG : G w (.env .ctxErr)) (hnone : ∀ w', w.Beside w' → Sat (Host.trans E) G (f none) w' Q)
    (hsome : (¬∀ w c a, E w c a → Stays w c a) → ∀ e w', w.Beside w' → Sat (Host.trans E) G (f (some e)) w' Q) :
    Sat (Host.trans E) G (ctxErr >>= f) w Q := by
  refine host_perform hG fun r a hE hrep => ?_
  cases r with
  | none => exact hnone _ ⟨rfl, rfl, rfl, rfl⟩
  | some e =>
    refine hsome (fun h => ?_) e _ ⟨rfl, rfl, rfl, rfl⟩
    cases (h w _ a hE rfl).symm.trans hrep

/-- `p`, and the cancellation `q` when `p` fails and its caller is gone. -/
def orCancelled (p : Act Response) (q : Act (Option Error)) (f : Error → Error) : Act Response := do
  match ← p with
  | .ok r => return .ok r
  | .error apiErr =>
    if let none ← Ctx.request.err then
      return .error apiErr
    if let some e ← q then
      return .error (f e)
    return .error apiErr

theorem host_orCancelled {p : Act Response} {q : Act (Option Error)} {f : Error → Error} {R : Response → World → Prop}
    (hp : Sat (Host.trans E) G p w R) (hok : ∀ r w', R (.ok r) w' → Q (.ok r) w')
    (herr : ∀ e w', R (.error e) w' → G w' (.env .ctxErr) ∧ ∀ w'', w'.Beside w'' → Q (.error e) w'' ∧
      ((¬∀ w c a, E w c a → Stays w c a) → Sat (Host.trans E) G q w'' fun _ w => ∀ e, Q (.error e) w)) :
    Sat (Host.trans E) G (orCancelled p q f) w Q := by
  refine hp.bind fun r w1 h1 => ?_
  cases r with
  | ok r => exact hok r w1 h1
  | error e =>
    obtain ⟨hG, hgone⟩ := herr e w1 h1
    refine host_ctxErr hG (fun w2 h2 => (hgone w2 h2).1) fun hstays _ w2 h2 => ?_
    exact ((hgone w2 h2).2 hstays).guard (fun x _ h => h (f x)) fun _ h => h e

/-- `mutate` keeps what its own calls and its steps keep. -/
theorem host_mutate {J : World → Prop} {method : Method} {fp : Fingerprint} {sb : Sandbox} {target : State}
    {fn : Sandbox → Act (Sandbox × Option Err)} (hw : J w) (hG : ∀ w c, J w → Records method sb key target c → G w c)
    (hJ : ∀ w c a, J w → Records method sb key target c → J (step w c a).1)
    (hsteps : Steps (fun _ => True) sb target (fn sb))
    (hfn : ∀ w, J w → Sat (Host.trans E) G (fn sb) w fun _ w' => J w') :
    Sat (Host.trans E) G (mutate method key fp sb fn) w fun _ w' => J w' := by
  have hrec {α : Type} {p : Act α} {R : α → Prop} {w : World} (hw : J w) (hp : Emits (Records method sb key target) p R) :
      Sat (Host.trans E) G p w fun r w' => J w' ∧ R r :=
    (host_keeps hp hw hJ).imp (fun w c h => hG w c h.1 h.2) fun _ _ h => h
  have happend (op : String) : Only (Records method sb key target) (store.append (intentOf method key fp sb op)) :=
    ⟨.append rfl fun _ => ⟨rfl, sb, rfl, .refl sb⟩, fun _ _ _ => trivial⟩
  refine (hrec hw records_replay).bind fun r w1 h1 => ?_
  cases r with
  | some r => exact h1.1
  | none =>
    refine (hrec (R := fun _ => True) h1.1 (by simp)).bind fun op w2 h2 => ?_
    refine (hrec (R := fun _ => True) h2.1 (by simp)).guard (fun _ _ h => h.1) fun w3 h3 => ?_
    refine (hrec h3.1 (happend _)).guard (fun _ _ h => h.1) fun w4 h4 => ?_
    refine (hrec (R := fun _ => True) h4.1 (by simp)).guard (fun _ _ h => h.1) fun w5 h5 => ?_
    refine (hrec (R := fun _ => True) h5.1 (by simp)).guard (fun _ _ h => h.1) fun w6 h6 => ?_
    refine ((hfn w6 h6.1).and (Emits.lift hsteps)).bind fun r w7 h7 => ?_
    exact (hrec h7.1 (records_mutateEnded h7.2 rfl)).mono fun _ _ h => h.1

theorem host_create {c : SandboxConfig} (hG : ∀ w' c, w.Beside w' → Looks c → G w' c)
    (hstop : ∀ r w', w.Beside w' → Recorded w.store key (.create c) r → Q r w')
    (hnew : ∀ w' v t, w.Beside w' → Draws E w' v → s.Admits w.store c key → Sat (Host.trans E) G (s.createAdmitted c key w.store.data.list.isEmpty (newSandbox c (hexGeneration v) t)) w' fun r w'' => (∀ l, G w'' (.env (.unlock l))) ∧ Q r w'') :
    Sat (Host.trans E) G (s.create c key) w Q := by
  unfold Service.create
  cases hvalid : s.validateCreate c with
  | some e => exact hstop _ w (.refl w) recorded_error
  | none =>
    refine host_looks ((s.apart_checkArtifacts c).imp (fun _ h => .aside h.aside)) hG fun r w1 h1 _ => ?_
    cases r with
    | some e => exact hstop _ w1 h1 recorded_error
    | none =>
      have hlook {c : Call} (hc : Looks c) : G w1 c := hG w1 c h1 hc
      -- Both locks are released in the world the inner part ends in.
      refine host_lock (hlook (by simp)) (Sat.bind (R := fun r w'' => (∀ l, G w'' (.env (.unlock l))) ∧ Q r w'') ?_
        fun r w'' h => host_unlock (h.1 _) h.2)
      have hdone {r : Response} (hr : Recorded w.store key (.create c) r) : (∀ l, G w1 (.env (.unlock l))) ∧ Q r w1 :=
        ⟨fun l => hlook (by simp), hstop r w1 h1 hr⟩
      refine host_replay (hlook (by simp)) (fun r hr => hdone (h1.store ▸ hr)) fun _ hres => ?_
      refine host_lock (hlook (by simp)) (Sat.bind (R := fun r w'' => (∀ l, G w'' (.env (.unlock l))) ∧ Q r w'') ?_
        fun r w'' h => host_unlock (h.1 _) h)
      refine host_sandbox (hlook (by simp)) (host_snapshot (hlook (by simp)) ?_)
      cases hadm : s.admission c (w1.store.data.sandboxes.lookup c.id) w1.store.data with
      | some e => exact hdone recorded_error
      | none =>
        refine host_generation (hlook (by simp)) (fun e => hdone recorded_error) fun v hv => ?_
        refine host_now (hlook (by simp)) fun t => ?_
        rw [h1.store] at hres hadm ⊢
        exact hnew w1 v t h1 hv ⟨hvalid, hres, hadm⟩

theorem host_transition {method : Method} {source : List State} {intermediate : Option State} {target : State}
    {fn : Sandbox → Act (Option Err)} (hG : ∀ c, Peeks c → G w c)
    (hmissing : w.store.data.sandboxes.lookup id = none → ∀ e, Q (.error e) w)
    (hfound : ∀ sb, w.store.data.sandboxes.lookup id = some sb → Sat (Host.trans E) G (transitionFrom sb id gen key method source intermediate target fn) w fun r w' => (∀ l, G w' (.env (.unlock l))) ∧ Q r w') :
    Sat (Host.trans E) G (transition id gen key method source intermediate target fn) w Q := by
  refine host_lock (hG _ (by simp)) (Sat.bind (R := fun r w' => (∀ l, G w' (.env (.unlock l))) ∧ Q r w') ?_
    fun r w' h => host_unlock (h.1 _) h.2)
  refine host_sandbox (hG _ (by simp)) ?_
  cases hsb : w.store.data.sandboxes.lookup id with
  | none => exact ⟨fun l => hG _ (by simp), hmissing hsb _⟩
  | some sb => exact hfound sb hsb

theorem host_delete (hG : ∀ c, Peeks c → G w c)
    (hstop : ∀ r, Recorded w.store key (.target .deleteSandbox id gen) r → Q r w)
    (hfound : ∀ sb, w.store.data.sandboxes.lookup id = some sb → Sat (Host.trans E) G (s.deleteFrom sb id gen key) w fun r w' => (∀ l, G w' (.env (.unlock l))) ∧ Q r w') :
    Sat (Host.trans E) G (s.delete id gen key) w Q := by
  have hdone {r : Response} (hr : Recorded w.store key (.target .deleteSandbox id gen) r) :
      (∀ l, G w (.env (.unlock l))) ∧ Q r w := ⟨fun l => hG _ (by simp), hstop r hr⟩
  refine host_lock (hG _ (by simp)) (Sat.bind (R := fun r w' => (∀ l, G w' (.env (.unlock l))) ∧ Q r w') ?_
    fun r w' h => host_unlock (h.1 _) h.2)
  refine host_lock (hG _ (by simp)) (Sat.bind (R := fun r w' => (∀ l, G w' (.env (.unlock l))) ∧ Q r w') ?_
    fun r w' h => host_unlock (h.1 _) h)
  refine host_replay (hG _ (by simp)) (fun r hr => hdone hr) fun _ _ => host_sandbox (hG _ (by simp)) ?_
  cases hsb : w.store.data.sandboxes.lookup id with
  | none => exact hdone recorded_error
  | some sb => exact hfound sb hsb

theorem looks_validateRecovery (d : Snapshot) (pending : List JournalEntry) (owners : Table Sandbox) :
    Only Looks (validateRecovery d pending owners) := by
  induction pending generalizing owners with
  | nil => trivial
  | cons intent rest ih =>
    unfold validateRecovery
    cases intent.sandbox with
    | none => trivial
    | some sb =>
      refine Sat.unless trivial fun _ => Sat.unless trivial fun _ => ?_
      refine Sat.unless trivial fun _ => ?_
      exact Only.bind (by simp) fun _ => Sat.unless trivial fun _ => ih _

/-- A recovery set is valid only without intents of a cancelled operation. -/
theorem unaborted_validateRecovery (d : Snapshot) (pending : List JournalEntry) (owners : Table Sandbox) :
    Sat (Host.trans E) (fun _ _ => True) (validateRecovery d pending owners) w fun r _ =>
      ∀ recovery, r = .ok recovery → ∀ e ∈ pending, (w.store.data.results.lookup e.idempotencyKey).any isAborted = false := by
  induction pending generalizing owners with
  | nil => exact fun _ _ e he => by cases he
  | cons intent rest ih =>
    unfold validateRecovery
    cases intent.sandbox with
    | none => exact fun _ h => by cases h
    | some sb =>
      refine sat_ite.2 ⟨fun _ _ h => (by cases h), fun _ => sat_ite.2 ⟨fun _ _ h => (by cases h), fun _ => ?_⟩⟩
      refine sat_ite.2 ⟨fun _ _ h => (by cases h), fun _ => host_result trivial ?_⟩
      refine sat_ite.2 ⟨fun _ _ h => (by cases h), fun hno => (ih _).mono fun r _ h recovery hr e he => ?_⟩
      rcases List.mem_cons.1 he with rfl | he
      · exact Bool.eq_false_iff.2 hno
      · exact h recovery hr e he

theorem reads_checkInventory : Only Reads s.checkInventory := by
  simp [checkInventory, list]

theorem reads_releaseIdlePool : Only Reads releaseIdlePool := by
  simp [releaseIdlePool, releasePool, Option.forall]

/-- Once its history is valid, `Reconcile` recovers the incomplete intents, and
beside that reads and writes states back. -/
theorem only_reconcileValid {P : Call → Prop} {pending : List JournalEntry} (d : Snapshot) (recovery : Table Sandbox)
    (hreads : ∀ c, Reads c → P c) (hset : ∀ sb, P (.store (.change (.setSandbox sb))))
    (hintents : Only P (s.reconcileIntents pending)) : Only P (s.reconcileValid d pending recovery) := by
  refine Only.bind (Emits.imp (P := Reads) (by simp [adoptPool]) hreads) fun _ => ?_
  refine Emits.guard (Sat.unless ?_ fun _ => trivial) (fun _ => trivial) ?_
  · exact (Storage.apart_reconcile _ _).imp fun _ h => hreads _ (.aside h.aside)
  refine Emits.guard hintents (fun _ => trivial) (Emits.guard (reads_checkInventory.imp hreads) (fun _ => trivial) ?_)
  refine Only.bind (Emits.imp (P := Reads) (by simp [list]) hreads) fun listed => ?_
  refine (marks_reconcileStates _ listed fun _ h => h).imp ?_
  rintro c (hc | _)
  · exact hreads c hc
  · exact hset _

/-- `Reconcile` stops at a recovery set it cannot take, or goes on from it. -/
theorem host_reconcile {Q : Option Err → World → Prop} (hG : ∀ w' c, w.Beside w' → Looks c → G w' c)
    (hstop : ∀ e w', w.Beside w' → Q (some e) w')
    (hvalid : ∀ w' recovery, w.Beside w' →
      (∀ e ∈ w.store.pending, (w.store.data.results.lookup e.idempotencyKey).any isAborted = false) →
      Sat (Host.trans E) G (s.reconcileValid w.store.data w.store.pending recovery) w'
        fun r w'' => (∀ l, G w'' (.env (.unlock l))) ∧ Q r w'') :
    Sat (Host.trans E) G s.reconcile w Q := by
  have hlook {c : Call} (hc : Looks c) : G w c := hG w c (.refl w) hc
  have hdone {e : Err} {w' : World} (h : w.Beside w') : (∀ l, G w' (.env (.unlock l))) ∧ Q (some e) w' :=
    ⟨fun l => hG w' _ h (by simp), hstop e w' h⟩
  refine host_lock (hlook (by simp)) (Sat.bind (R := fun r w' => (∀ l, G w' (.env (.unlock l))) ∧ Q r w') ?_
    fun r w' h => host_unlock (h.1 _) h.2)
  refine host_snapshot (hlook (by simp)) (Sat.unless (hdone (.refl w)) fun _ => ?_)
  refine host_journalEntries (hlook (by simp)) (fun _ => hdone (.refl w)) ?_
  have hlooks := host_keeps (E := E) (J := w.Beside) (looks_validateRecovery w.store.data w.store.pending ∅) (.refl w)
    fun w' c a hw' hc => hw'.trans (beside_of_looks hc w' a)
  refine ((hlooks.and (unaborted_validateRecovery _ _ _)).imp (fun w' c h => hG w' c h.1 h.2) fun _ _ h => h).bind
    fun r w' h => ?_
  cases r with
  | error e => exact hdone h.1.1
  | ok recovery => exact hvalid w' recovery h.1.1 (h.2 recovery rfl)

/-- What `findCreate` finds. -/
theorem findCreate_found {entries : List JournalEntry} {f : JournalEntry} (h : findCreate id gen entries = some f) :
    f ∈ entries ∧ f.method = .createSandbox ∧ f.phase = .intent ∧ f.sandboxID = id ∧
      ∃ sb, f.sandbox = some sb ∧ sb.generation = gen := by
  have hmem := List.mem_reverse.1 (List.mem_of_find?_eq_some h)
  have hp := List.find?_some h
  simp only [Bool.and_eq_true, beq_iff_eq] at hp
  obtain ⟨⟨⟨hm, hphase⟩, hid⟩, hsb⟩ := hp
  cases hs : f.sandbox with
  | none => simp [hs] at hsb
  | some sb => exact ⟨hmem, hm, hphase, hid, sb, rfl, by simpa [hs] using hsb⟩

end Service

end Multikernel
