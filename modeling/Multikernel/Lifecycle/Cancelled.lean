import Multikernel.Lifecycle.Aborted
import Multikernel.Lifecycle.Keys
import Multikernel.Lifecycle.Results
/-!
# A cancelled create stays cancelled

A cancellation that is answered with `true` has recorded ABORTED under the
key, removed the sandbox, and left no incomplete intent of its generation
(`Annulled`). The last needs that no other create made that generation
(`Singular`), which holds as long as the random source repeats no generation
(`Unused`). From there on the key keeps its result and the generation has no
owner, in every run of requests one after another. A load of another sandbox
under the same key holds another lock; when it is in flight, it replaces the
result (`not_terminal`).
-/

namespace Multikernel
open Lib
variable {id key gen : String} {i : Option JournalEntry}

/-! ## One create for each generation -/

/-- The random source, 128 bits of `crypto/rand`, gives no generation that the journal has. -/
def Unused (w : World) (c : Call) (a : Answer) : Prop :=
  c = .env .generation → ∀ e ∈ w.store.journal, e.generation ≠ hexGeneration a.entropy

/-- The intent of a create that made generation `gen` of sandbox `id`. -/
structure JournalEntry.Makes (e : JournalEntry) (id gen : String) : Prop where
  phase : e.phase = .intent
  method : e.method = .createSandbox
  id : e.sandboxID = id
  generation : e.generation = gen

/-- No generation was made by two operations. -/
def Store.Singular (st : Store) : Prop :=
  ∀ id gen, ∀ e ∈ st.journal, ∀ f ∈ st.journal, e.Makes id gen → f.Makes id gen → e.operationID = f.operationID

/-- The intents that are journaled satisfy `P`. -/
def Intends (P : JournalEntry → Prop) : Call → Prop
  | .store (.append e) => e.phase = .intent → P e
  | _ => True

section Intends
variable {P : JournalEntry → Prop} {c : Call}

theorem Reads.intends (h : Reads c) : Intends P c := by
  cases h with
  | aside h => cases h <;> trivial
  | _ => trivial

theorem Harmless.intends (h : Harmless c) : Intends P c := by
  cases h with
  | reads h => exact h.intends
  | complete h => exact fun hp => absurd (h.symm.trans hp) (by decide)
  | _ => trivial

theorem Cancels.intends {fp : Fingerprint} (h : Cancels id key fp c) : Intends P c := by
  cases c with
  | store c =>
    cases c with
    | append e => exact fun hp => absurd (h.2.symm.trans hp) (by decide)
    | change | result | sandbox | snapshot | journalEntries => trivial
  | _ => trivial

/-- A new entry of the journal satisfies `P` if it is an intent. -/
theorem journal_of_intends (hc : Intends P c) (w : World) (a : Answer) {e : JournalEntry}
    (he : e ∈ (step w c a).1.store.journal) (hp : e.phase = .intent) :
    e ∈ w.store.journal ∨ ∃ x, P x ∧ e = w.store.stamp x a.time := by
  cases c with
  | store c =>
    cases c with
    | append x =>
      rcases (Store.append_cases w.store x a.time a.write).1 with ⟨-, hj⟩ | ⟨-, -, hj, -⟩
      · exact .inl (hj ▸ he)
      · have he' : e ∈ w.store.journal ++ [w.store.stamp x a.time] := hj ▸ he
        rcases List.mem_append.1 he' with he' | he'
        · exact .inl he'
        · rw [List.mem_singleton] at he'
          rw [he'] at hp
          exact .inr ⟨x, hc hp, he'⟩
    | change ch => exact .inl (journal_of_change w ch a ▸ he)
    | result | sandbox | snapshot | journalEntries => exact .inl he
  | env c => cases c <;> exact .inl he
  | _ => exact .inl he

/-- Intents of other methods make no generation. -/
theorem Store.Singular.step {w : World} (h : w.store.Singular) (hc : Intends (·.method ≠ .createSandbox) c) (a : Answer) :
    (step w c a).1.store.Singular := by
  have hold {id gen : String} {e : JournalEntry} (he : e ∈ (Multikernel.step w c a).1.store.journal)
      (hm : e.Makes id gen) : e ∈ w.store.journal := by
    rcases journal_of_intends hc w a he hm.phase with he | ⟨x, hx, rfl⟩
    · exact he
    · exact absurd hm.method hx
  exact fun id gen e he f hf hme hmf => h id gen e (hold he hme) f (hold hf hmf) hme hmf

/-- The generation `gen` of `id` is that of the operation `op`, if it was made at all. -/
def Store.MadeBy (st : Store) (id gen op : String) : Prop := ∀ e ∈ st.journal, e.Makes id gen → e.operationID = op

/-- An operation may make a generation that no other made. -/
theorem Store.Singular.step_made {w : World} {op : String} (h : w.store.Singular ∧ w.store.MadeBy id gen op)
    (hc : Intends (fun e => e.sandboxID = id ∧ e.generation = gen ∧ e.operationID = op) c) (a : Answer) :
    (Multikernel.step w c a).1.store.Singular ∧ (Multikernel.step w c a).1.store.MadeBy id gen op := by
  obtain ⟨hsingular, hmade⟩ := h
  have hmade' : (Multikernel.step w c a).1.store.MadeBy id gen op := by
    intro e he hm
    rcases journal_of_intends hc w a he hm.phase with he | ⟨x, hx, rfl⟩
    · exact hmade e he hm
    · exact hx.2.2
  refine ⟨fun id' gen' e he f hf hme hmf => ?_, hmade'⟩
  rcases journal_of_intends hc w a he hme.phase with he | ⟨x, hx, rfl⟩
  · rcases journal_of_intends hc w a hf hmf.phase with hf | ⟨y, hy, rfl⟩
    · exact hsingular id' gen' e he f hf hme hmf
    · obtain rfl : id = id' := hy.1.symm.trans hmf.id
      obtain rfl : gen = gen' := hy.2.1.symm.trans hmf.generation
      exact (hmade e he hme).trans hy.2.2.symm
  · obtain rfl : id = id' := hx.1.symm.trans hme.id
    obtain rfl : gen = gen' := hx.2.1.symm.trans hme.generation
    exact hx.2.2.trans (hmade' f hf hmf).symm

end Intends

namespace Service
variable {s : Service} {E : Env} {w : World} {sb : Sandbox} {key : String} {fp : Fingerprint}
  {method : Method} {target : State} {P : JournalEntry → Prop} {fn : Sandbox → Act (Sandbox × Option Err)}

theorem intends_mutateAs {op : String} (hfn : Steps (Allocates sb) sb target (fn sb))
    (hP : P (intentOf method key fp sb op)) : Only (Intends P) (mutateAs method key fp sb fn op) := by
  have happend : Only (Intends P) (store.append (intentOf method key fp sb op)) :=
    ⟨fun _ => hP, fun _ _ _ => trivial⟩
  refine Emits.guard ⟨trivial, fun _ _ _ => trivial⟩ (fun _ => trivial) (Emits.guard happend (fun _ => trivial) ?_)
  exact (harmless_mutateJournaled hfn).imp (fun _ h => h.intends)

theorem intends_replay : Only (Intends P) (replay key fp) :=
  Emits.mono (P := Reads) (by simp [replay, Option.forall]) (fun _ h => h.intends) fun _ h => h

theorem intends_mutate (hfn : Steps (Allocates sb) sb target (fn sb)) (hP : ∀ op, P (intentOf method key fp sb op)) :
    Only (Intends P) (mutate method key fp sb fn) := by
  refine Emits.bind intends_replay fun r _ => ?_
  cases r with
  | some r => trivial
  | none => exact Only.bind ⟨trivial, fun _ _ _ => trivial⟩ fun op => intends_mutateAs hfn (hP _)

theorem intends_transitionFrom {source : List State} {intermediate : Option State} {fn : Sandbox → Act (Option Err)}
    (hfn : Only (Moves sb) (fn sb)) (hP : ∀ op, P (intentOf method key (.target method id gen) sb op)) :
    Only (Intends P) (transitionFrom sb id gen key method source intermediate target fn) := by
  refine Sat.unless trivial fun _ => Emits.bind intends_replay fun r _ => ?_
  cases r with
  | some r => trivial
  | none =>
    refine sat_ite.2 ⟨fun h => intends_mutate (steps_done h) hP, fun _ => Sat.unless trivial fun _ => ?_⟩
    exact intends_mutate (steps_transitionFn hfn (.refl sb)).allocates hP

theorem intends_deleteFrom (hP : ∀ op, P (intentOf .deleteSandbox key (.target .deleteSandbox id gen) sb op)) :
    Only (Intends P) (s.deleteFrom sb id gen key) :=
  Sat.unless trivial fun _ => intends_mutate (steps_deleteFn (.refl sb)).allocates hP

theorem intends_cancelLoaded : Only (Intends P) (s.cancelLoaded id gen) := by
  refine Only.bind ⟨trivial, fun _ _ _ => trivial⟩ fun r => ?_
  cases r with
  | error e => trivial
  | ok entries =>
    cases hfind : findCreate id gen entries with
    | none => simp [hfind]
    | some create =>
      cases hsb : create.sandbox with
      | none => simp [hfind, hsb]
      | some sb =>
        simp only [hfind, hsb]
        exact Emits.guard (cancels_cancelCreate.imp (fun _ h => h.intends)) (fun _ => trivial) trivial

/-! ### Operations -/

/-- A part that journals no create. -/
theorem keeps_singular {α : Type} {p : Act α} {R : α → Prop} (hp : Emits (Intends (·.method ≠ .createSandbox)) p R)
    (hw : w.store.Singular) : Keeps E Store.Singular p w :=
  (host_keeps (J := fun w => w.store.Singular) hp hw fun _ _ a h hc => h.step hc a).imp (fun _ _ h => h.1) fun _ _ h => h.1

theorem singular_mutate (hfn : Steps (Allocates sb) sb target (fn sb)) (hw : w.store.Singular)
    (hnew : ∀ e ∈ w.store.journal, e.generation ≠ sb.generation) :
    Keeps E Store.Singular (mutate method key fp sb fn) w := by
  have hkeeps (op : String) : Keeps E Store.Singular (mutateAs method key fp sb fn op) w := by
    have hmade : w.store.MadeBy sb.id sb.generation op := fun e he hm => absurd hm.generation (hnew e he)
    have hp : Only (Intends fun e => e.sandboxID = sb.id ∧ e.generation = sb.generation ∧ e.operationID = op)
        (mutateAs method key fp sb fn op) := intends_mutateAs hfn ⟨rfl, rfl, rfl⟩
    have h := host_keeps (E := E) (J := fun w => w.store.Singular ∧ w.store.MadeBy sb.id sb.generation op) hp ⟨hw, hmade⟩
      fun _ _ a h hc => Store.Singular.step_made h hc a
    exact h.imp (fun _ _ h => h.1.1) fun _ _ h => h.1.1
  exact host_replay hw (fun _ _ => hw) fun _ _ => host_generation hw (fun _ => hkeeps _) fun _ _ => hkeeps _

theorem singular_create {c : SandboxConfig} (hE : ∀ w c a, E w c a → Unused w c a) (hw : w.store.Singular) :
    Keeps E Store.Singular (s.create c key) w := by
  refine host_create (fun _ _ h _ => h.store ▸ hw) (fun _ _ h _ => h.store ▸ hw) fun w' v t h hv _ => ?_
  refine Sat.mono (Q := fun _ w' => w'.store.Singular) ?_ fun _ _ h => ⟨fun _ => h, h⟩
  obtain ⟨a, ha, rfl⟩ := hv
  have hmutate : Keeps E Store.Singular (mutate .createSandbox key (.create c) (newSandbox c (hexGeneration a.entropy) t)
      (s.createFn w.store.data.list.isEmpty)) w' :=
    singular_mutate (allocates_createFn _ (.refl _)) (h.store ▸ hw) (hE _ _ _ ha rfl)
  refine hmutate.bind fun r w1 h1 => ?_
  cases r with
  | ok r => exact h1
  | error e =>
    have hcancel : Only (Intends (·.method ≠ .createSandbox)) (s.cancelCreateLocked .detached c key (.create c)) :=
      cancels_cancelCreateLocked.imp (fun _ h => h.intends)
    refine Keeps.after_reads (by simp [Ctx.err]) h1 fun gone w2 h2 => ?_
    rw [← h2] at h1
    cases gone with
    | none => exact h1
    | some _ => exact Sat.guard (keeps_singular hcancel h1) (fun _ _ h => h) fun _ h => h

theorem singular_transition {source : List State} {intermediate : Option State} {fn : Sandbox → Act (Option Err)}
    (hfn : ∀ sb, Only (Moves sb) (fn sb)) (hm : method ≠ .createSandbox) (hw : w.store.Singular) :
    Keeps E Store.Singular (transition id gen key method source intermediate target fn) w := by
  refine host_transition (fun _ _ => hw) (fun _ _ => hw) fun sb _ => ?_
  exact Sat.mono (keeps_singular (intends_transitionFrom (hfn sb) fun _ => hm) hw) fun _ _ h => ⟨fun _ => h, h⟩

theorem singular_op {op : Op} (hE : ∀ w c a, E w c a → Unused w c a) (hw : w.store.Singular) :
    Keeps E Store.Singular (op.program s) w := by
  cases op with
  | boot => exact (keeps_singular (harmless_boot.imp (fun _ h => h.intends)) hw).map
  | shutdown => exact (Keeps.of_reads reads_releaseIdlePool hw).map
  | request r =>
    cases r with
    | create c key => exact (singular_create hE hw).map
    | load id gen key =>
      refine Keeps.map (host_orCancelled (singular_transition (fun sb => moves_loadFn (.refl sb)) (by decide) hw) (fun _ _ h => h)
        fun _ w1 h1 => ⟨h1, fun w2 h2 => ?_⟩)
      rw [← h2.store] at h1
      exact ⟨h1, fun _ => Sat.mono (keeps_singular intends_cancelLoaded h1) fun _ _ h _ => h⟩
    | start id gen key => exact (singular_transition (fun sb => acts_backend (by simp) (.refl sb)) (by decide) hw).map
    | stop id gen key => exact (singular_transition (fun sb => moves_stopFn (.refl sb)) (by decide) hw).map
    | delete id gen key =>
      have hdelete : Keeps E Store.Singular (s.delete id gen key) w := by
        refine host_delete (fun _ _ => hw) (fun _ _ => hw) fun sb _ => ?_
        exact Sat.mono (keeps_singular (intends_deleteFrom fun _ h => by cases h) hw) fun _ _ h => ⟨fun _ => h, h⟩
      exact hdelete.map
    | cancelCreate c key => exact (keeps_singular (cancels_cancelCreate.imp (fun _ h => h.intends)) hw).map

/-! ## What a cancellation leaves behind -/

section Cancel
variable {ctx : Ctx} {c : SandboxConfig} {failure : Error}

/-- The key has the result `failure` and the sandbox no record, in memory and in
the file. -/
def Withdrawn (c : SandboxConfig) (key : String) (fp : Fingerprint) (failure : Error) (st : Store) : Prop :=
  st.disk = st.data ∧ st.data.results.lookup key = some ⟨fp, .error failure⟩ ∧ st.data.sandboxes.lookup c.id = none

theorem withdrawn_cancelResources (sb : Sandbox) :
    Yields E (s.cancelResources ctx c key fp sb failure) w fun r w' =>
      r = none → Withdrawn c key fp failure w'.store ∧ w'.store.journal = w.store.journal := by
  have hstop {e : Error} {w' : World} : some e = none → Withdrawn c key fp failure w'.store ∧ w'.store.journal = w.store.journal :=
    fun h => by cases h
  refine host_unjournaled (R := fun _ => True) (by simp) fun r w1 _ h1 => ?_
  cases r with
  | error e => exact hstop
  | ok actual =>
    refine Sat.unless hstop fun _ => host_unjournaled (R := fun _ => True) ?_ fun r w2 _ h2 => ?_
    · refine Sat.unless ?_ fun _ => trivial
      exact (s.apart_releaseStorage ctx sb).mono (fun _ h => .reads (.aside h.aside)) fun _ _ => trivial
    obtain ⟨sb, _ | e⟩ := r
    · refine host_unjournaled (R := fun _ => True) ?_ fun r w3 _ h3 => ?_
      · refine Sat.unless trivial fun _ => Emits.guard (by simp) (fun _ => trivial) ?_
        refine Only.bind (by simp) fun r => ?_
        split <;> trivial
      cases r with
      | some e => exact hstop
      | none =>
        refine host_unjournaled (R := fun _ => True) (by simp [cancelPool, Option.forall]) fun r w4 _ h4 => ?_
        cases r with
        | some e => exact hstop
        | none =>
          refine host_change trivial (fun _ _ _ => hstop) fun _ => ⟨⟨rfl, ?_, ?_⟩, ((h4.trans h3).trans h2).trans h1⟩
          · simp [Snapshot.change]
          · simp [Snapshot.change]
    · exact hstop

/-- What is incomplete after the cancellation was so before; of the sandbox itself only
creates are, and not the operation `i`. -/
def Closed (id : String) (i : Option JournalEntry) (P P' : List JournalEntry) : Prop :=
  ∀ e ∈ P', e ∈ P ∧ ∀ x, i = some x → e.sandboxID = id → e.method = .createSandbox ∧ e.operationID ≠ x.operationID

structure Annulled (c : SandboxConfig) (key : String) (fp : Fingerprint) (i : Option JournalEntry) (st st' : Store) : Prop where
  withdrawn : ∃ failure, failure.code = .aborted ∧ Withdrawn c key fp failure st'
  closed : Closed c.id i st.pending st'.pending

theorem annulled_cancelOwned {completed : Bool} {intent : JournalEntry}
    (hscan : scanCreate c key fp w.store.journal none false = some (some intent, completed)) (sb : Sandbox) :
    Yields E (s.cancelOwned ctx c key fp w.store.journal intent completed sb) w fun r w' =>
      r = none → Annulled c key fp (some intent) w.store w'.store := by
  have htrue : ∀ st, (fun _ : Store => True) st → ∀ x now o, x.phase = .complete → (fun _ : Store => True) (st.append x now o).1 :=
    fun _ _ _ _ _ _ => trivial
  have hstop {e : Error} {w' : World} : some e = none → Annulled c key fp (some intent) w.store w'.store :=
    fun h => by cases h
  refine Sat.unless hstop fun _ => ?_
  -- The rest, from a world where the create is complete.
  have hrest (failure : Error) (hfailure : failure.code = .aborted) (w1 : World)
      (hsub : ∀ e ∈ w1.store.pending, e ∈ w.store.pending ∧ e.operationID ≠ intent.operationID) :
      Yields E (s.cancelCompleted ctx c key fp w.store.journal sb failure) w1 fun r w' =>
        r = none → Annulled c key fp (some intent) w.store w'.store := by
    refine (cancelDependents_completes (J := fun _ => True) htrue c.id sb.state w.store.pending trivial).bind ?_
    rintro r w2 ⟨_, hsub2, hdone⟩
    cases r with
    | some e => exact hstop
    | none =>
      refine host_change trivial (fun _ _ _ => hstop) ?_
      refine (withdrawn_cancelResources sb).mono fun r w' h hr => ?_
      obtain ⟨hwithdrawn, hjournal⟩ := h hr
      refine ⟨⟨failure, hfailure, hwithdrawn⟩, fun e he => ?_⟩
      rw [Store.pending, hjournal] at he
      obtain ⟨hmem, hne⟩ := hsub e (hsub2 e he)
      refine ⟨hmem, fun x hx hid => ⟨?_, Option.some.inj hx ▸ hne⟩⟩
      by_contra hm
      exact hdone rfl e hmem hid hm he
  cases completed with
  | true =>
    obtain ⟨i, hi, d, hd, hp, hop⟩ := (scanCreate_done hscan rfl).resolve_left (by simp)
    cases hi
    exact hrest _ rfl w fun e he => ⟨he, fun heq => (mem_incomplete.1 he).2.2 d hd hp (hop.trans heq.symm)⟩
  | false => exact host_complete (J := fun _ => True) htrue rfl trivial (fun _ _ _ _ => hstop) fun w1 _ hsub => hrest _ rfl w1 hsub

/-- A cancellation that is answered with `true` annuls the create that its scan found. -/
theorem annulled_cancelCreateLocked :
    Yields E (s.cancelCreateLocked ctx c key fp) w fun r w' =>
      r = none → ∃ i completed, scanCreate c key fp w.store.journal none false = some (i, completed) ∧
        Annulled c key fp i w.store w'.store := by
  have hstop {e : Error} {w' : World} : some e = none →
      ∃ i completed, scanCreate c key fp w.store.journal none false = some (i, completed) ∧ Annulled c key fp i w.store w'.store :=
    fun h => by cases h
  refine host_result trivial (Sat.unless hstop fun _ => host_journalEntries trivial (fun _ => hstop) ?_)
  cases hscan : scanCreate c key fp w.store.journal none false with
  | none =>
    simp only [hscan]
    exact fun h => by cases h
  | some found =>
    obtain ⟨found, completed⟩ := found
    simp only [hscan]
    refine host_sandbox trivial ?_
    have howned (sb : Sandbox) (i : JournalEntry) (hi : found = some i) :
        Yields E (s.cancelOwned ctx c key fp w.store.journal i completed sb) w fun r w' =>
          r = none → ∃ i' completed', some (found, completed) = some (i', completed') ∧ Annulled c key fp i' w.store w'.store := by
      subst hi
      exact (annulled_cancelOwned hscan sb).mono fun r w' h hr => ⟨_, _, rfl, h hr⟩
    cases found with
    | none =>
      cases hsb : w.store.data.sandboxes.lookup c.id with
      | none =>
        refine host_change trivial (fun _ _ _ h => by cases h) fun _ => ⟨none, completed, rfl, ?_, fun e he => ⟨he, fun x hx => ?_⟩⟩
        · exact ⟨apierr .aborted "create canceled before allocation" false, rfl, rfl, by simp [Snapshot.change], hsb⟩
        · cases hx
      | some sb => exact fun h => by cases h
    | some i =>
      cases w.store.data.sandboxes.lookup c.id with
      | none =>
        cases hsb : i.sandbox with
        | none =>
          simp only [hsb]
          exact fun h => by cases h
        | some sb =>
          simp only [hsb]
          exact howned sb i rfl
      | some sb => exact sat_ite.2 ⟨fun _ h => (by cases h), fun _ => howned sb i rfl⟩

theorem annulled_cancelCreate :
    Yields E (s.cancelCreate ctx c key) w fun r w' =>
      r = none → ∃ i completed, scanCreate c key (.create c) w.store.journal none false = some (i, completed) ∧
        Annulled c key (.create c) i w.store w'.store :=
  sat_ite.2 ⟨fun _ h => (by cases h), fun _ => host_withLock (host_withLock annulled_cancelCreateLocked)⟩

end Cancel

/-! ## Every continuation -/

/-- The random source repeats no generation in the operation. -/
def Unrepeated (s : Service) (w : World) (op : Op) (as : List Answer) : Prop := Meets Host Unused (op.program s) w as

/-- The key holds an ABORTED result of the create of `c`, in memory and in the file. -/
def Aborted (c : SandboxConfig) (key : String) (st : Store) : Prop :=
  st.Binds key (.create c) fun o => ∃ failure, o = .error failure ∧ failure.code = .aborted

/-- The generation `gen` of sandbox `id` was made, and nothing owns it any more. -/
structure Gone (id gen : String) (st : Store) : Prop where
  made : ∃ i ∈ st.journal, i.generation = gen
  unowned : ∀ a, st.Owns a → ¬(a.id = id ∧ a.generation = gen)

section Continuation
variable {c : SandboxConfig} {id gen : String}

theorem stable_aborted : Stable key (.create c) (Aborted c key) :=
  ⟨fun _ h => ⟨_, h.data.choose_spec.1⟩, fun _ _ a h hx => h.step hx a⟩

/-- Cancelling the create again records ABORTED again. -/
theorem aborted_of_cancels {x : Call} (h : Aborted c key w.store) (hx : Cancels c.id key (.create c) x) (a : Answer) :
    Aborted c key (step w x a).1.store := by
  cases x with
  | store x =>
    cases x with
    | append e => exact h.append e a.time a.write
    | change ch =>
      cases ch with
      | tombstone k f failure =>
        obtain ⟨rfl, rfl, hcode⟩ := hx
        exact h.persist ⟨.error failure, by simp [Snapshot.change], failure, rfl, hcode⟩ a.write
      | abortCreate i k f failure =>
        obtain ⟨-, rfl, rfl, hcode⟩ := hx
        exact h.persist ⟨.error failure, by simp [Snapshot.change], failure, rfl, hcode⟩ a.write
      | commit | commitFailure | setSandbox | removeSandbox => cases hx
    | result | sandbox | snapshot | journalEntries => exact h
  | env x => cases x <;> exact h
  | _ => exact h

/-- Recovery does not get to an intent of an aborted key. -/
theorem aborted_op {op : Op} (hkeyed : w.store.Keyed) (hw : Aborted c key w.store) : Keeps E (Aborted c key) (op.program s) w := by
  refine keeps_boundOp stable_aborted hkeyed hw (.inl fun c' hc' w x a h hx => ?_) fun hvalid e he hk => ?_
  · cases hc'
    exact aborted_of_cancels h hx a
  · obtain ⟨o, ho, failure, rfl, hcode⟩ := hw.data
    have hno := hvalid e he
    rw [hk, ho] at hno
    simp [isAborted, hcode] at hno

/-- Only a create adds an owner, and it draws another generation. -/
theorem gone_op {op : Op} (hE : ∀ w c a, E w c a → Unused w c a) (hkeyed : w.store.Keyed) (hw : Gone id gen w.store) :
    Keeps E (Gone id gen) (op.program s) w := by
  have hR : Respects fun a b : Sandbox => ¬(a.id = id ∧ a.generation = gen) ∧ ¬(b.id = id ∧ b.generation = gen) := by
    refine ⟨fun h => ⟨h.2, h.1⟩, fun hsame h => ⟨?_, h.2⟩⟩
    rw [← hsame.id, ← hsame.generation]
    exact h.1
  obtain ⟨⟨i, hi, rfl⟩, hunowned⟩ := hw
  have howner {a : Sandbox} (ha : a ∈ ([] : List Sandbox) ∨ w.store.Owns a) : ¬(a.id = id ∧ a.generation = i.generation) :=
    hunowned a (ha.resolve_left (by simp))
  have hkeeps := keeps_op (E := E) (s := s) (w := w) hR op hkeyed (fun a b ha hb => ⟨howner ha, howner hb⟩)
    fun c key _ _ w' v t h hv => ?_
  · have hmade := Sat.inv (J := fun w => ∃ j ∈ w.store.journal, j.generation = i.generation) hkeeps ⟨i, hi, rfl⟩ ?_
    · exact hmade.imp (fun _ _ h => ⟨h.2, fun a ha => (h.1 a a (.inr ha) (.inr ha)).1⟩)
        fun _ _ h => ⟨h.2, fun a ha => (h.1 a a (.inr ha) (.inr ha)).1⟩
    · rintro w1 x r w2 ⟨j, hj, hgen⟩ ⟨a, -, hr⟩
      have hw2 : (step w1 x a).1 = w2 := congrArg Prod.fst hr
      exact ⟨j, hw2 ▸ (journal_grows w1 x a).subset hj, hgen⟩
  · obtain ⟨a, ha, rfl⟩ := hv
    have hnew : ¬((newSandbox c (hexGeneration a.entropy) t).id = id ∧
        (newSandbox c (hexGeneration a.entropy) t).generation = i.generation) :=
      fun heq => hE _ _ _ ha rfl i (h.store ▸ hi) heq.2.symm
    exact ⟨⟨hnew, hnew⟩, fun b hb => ⟨hnew, hunowned b hb⟩⟩

/-- The create of an aborted key is refused at its lookup. -/
theorem refused_create (hw : Aborted c key w.store) :
    Ensures E (fun _ x => Looks x) (s.create c key) w fun r _ => ∀ x, r ≠ .ok x := by
  obtain ⟨o, ho, failure, rfl, -⟩ := hw.data
  refine host_create (fun _ _ _ h => h) (fun r _ _ hr x hx => ?_) fun _ _ _ _ _ hadm => ?_
  · obtain ⟨-, y, hy, -⟩ := hr x hx
    rw [ho] at hy
    cases hy
  · obtain ⟨-, hnone, -⟩ := hadm
    rw [ho] at hnone
    cases hnone

end Continuation

/-- What holds once the create of `c` under `key` is cancelled, the scan having found `i`. -/
structure Terminal (c : SandboxConfig) (key : String) (i : Option JournalEntry) (st : Store) : Prop where
  keyed : st.Keyed
  aborted : Aborted c key st
  gone : ∀ x, i = some x → Gone c.id x.generation st

theorem Annulled.terminal {c : SandboxConfig} {completed : Bool} {st st' : Store}
    (h : Annulled c key (.create c) i st st') (hkeyed : st'.Keyed) (hgrows : st.journal <+: st'.journal)
    (hsingular : st.Singular) (hscan : scanCreate c key (.create c) st.journal none false = some (i, completed))
    : Terminal c key i st' := by
  obtain ⟨⟨failure, hcode, hdisk, hres, hsb⟩, hclosed⟩ := h
  have hbinds : st'.data.Binds key (.create c) fun o => ∃ failure, o = .error failure ∧ failure.code = .aborted :=
    ⟨_, hres, failure, rfl, hcode⟩
  refine ⟨hkeyed, ⟨hbinds, hdisk ▸ hbinds⟩, fun x hx => ?_⟩
  obtain ⟨hmem, hmethod, -, hphase, -, hid, -⟩ := (scanCreate_found hscan hx).resolve_left (by simp)
  refine ⟨⟨x, hgrows.subset hmem, rfl⟩, fun a ha hagain => ?_⟩
  rcases ha with ⟨id', ha⟩ | ⟨e, he, ha⟩
  · -- The record was removed.
    rw [Store.Records, hdisk, or_self_iff] at ha
    rw [← hkeyed.sandboxes id' a ha, hagain.1, hsb] at ha
    cases ha
  · -- An incomplete intent would be a second create of the generation.
    obtain ⟨hpending, hcreates⟩ := hclosed e he
    obtain ⟨heid, hegen, -⟩ := hkeyed.journal e (incomplete_subset _ e he) a ha
    obtain ⟨hcreate, hne⟩ := hcreates x hx (heid.symm.trans hagain.1)
    obtain ⟨hemem, hephase, -⟩ := mem_incomplete.1 hpending
    exact hne (hsingular c.id x.generation e hemem x hmem
      ⟨hephase, hcreate, heid.symm.trans hagain.1, hegen.symm.trans hagain.2⟩ ⟨hphase, hmethod, hid, rfl⟩)

theorem Terminal.op {c : SandboxConfig} {op : Op} {as : List Answer} (h : Terminal c key i w.store)
    (hfresh : s.Unrepeated w op as) :
    Terminal c key i (exec Host (op.program s) w as).1.store where
  keyed := exec_keyed _ h.keyed as
  aborted := (aborted_op (E := Unused) h.keyed h.aborted).exec_world (fun _ _ h => h) (fun _ _ h => h) as hfresh
  gone x hx := (gone_op (E := Unused) (fun _ _ _ h => h) h.keyed (h.gone x hx)).exec_world (fun _ _ h => h) (fun _ _ h => h) as hfresh

theorem singular_after {ts : List Turn} (h : s.Conforming s.Unrepeated ts) : (s.after ts).world.store.Singular := by
  refine h.inv (J := fun w => w.store.Singular) (fun _ _ e he => by cases he) (fun _ h => h) (fun w st hw hst => ?_)
    fun w op as hw hfresh => (singular_op (E := Unused) (fun _ _ _ h => h) hw).exec_world (fun _ _ h => h) (fun _ _ h => h) as hfresh
  have hj : (w.reopened st).store.journal = w.store.journal := (Store.reopen_cases hst).1
  intro id gen e he f hf
  exact hw id gen e (hj ▸ he) f (hj ▸ hf)

/-- The turn of a cancellation that is answered with `true`. -/
theorem terminal_turn {d : Daemon} {c : SandboxConfig} {as : List Answer} (hkeyed : d.world.store.Keyed)
    (hsingular : d.world.store.Singular)
    (hok : s.outcome d ⟨.request (.cancelCreate c key), as⟩ = some (.cancelled none)) :
    ∃ i completed, scanCreate c key (.create c) d.world.store.journal none false = some (i, completed) ∧
      Terminal c key i (s.turn d ⟨.request (.cancelCreate c key), as⟩).world.store := by
  unfold Service.outcome at hok
  cases hw : d.begin (.request (.cancelCreate c key)) with
  | none => simp [hw] at hok
  | some w =>
    simp only [hw, Option.bind_some] at hok
    obtain ⟨-, hfresh⟩ := Option.ite_none_right_eq_some.1 hw
    have hstore : w.store = d.world.store := by
      rw [← Option.some.inj hfresh]
      rfl
    have hsat : Sat (Host.trans fun _ _ _ => True) (fun _ _ => True) (Op.program s (.request (.cancelCreate c key))) w
        fun out w' => out = .cancelled none → ∃ i completed, scanCreate c key (.create c) w.store.journal none false = some (i, completed) ∧
          Annulled c key (.create c) i w.store w'.store :=
      annulled_cancelCreate.bind fun r w' h hr => h (by cases hr; rfl)
    obtain ⟨i, completed, hscan, hannulled⟩ := hsat.exec_result (meets_true Host _ w as) (Prod.ext rfl hok) rfl
    have hgrows := exec_inv Host (J := fun w' => w.store.journal <+: w'.store.journal)
      (fun w' x a h => h.trans (journal_grows w' x a)) (Op.program s (.request (.cancelCreate c key))) (List.prefix_refl _) as
    unfold Service.turn
    simp only [hw]
    refine ⟨i, completed, hstore ▸ hscan, hannulled.terminal (exec_keyed _ (hstore ▸ hkeyed) as) hgrows ?_ hscan⟩
    exact hstore ▸ hsingular

theorem Terminal.reopen {c : SandboxConfig} {st st' : Store} (h : Terminal c key i st) (hst : st.reopen = some st')
    : Terminal c key i st' := by
  refine ⟨h.keyed.reopen hst, h.aborted.reopen hst, fun x hx => ?_⟩
  obtain ⟨hmade, hunowned⟩ := h.gone x hx
  exact ⟨(Store.reopen_cases hst).1 ▸ hmade, fun a ha => hunowned a (owns_reopen hst ha)⟩

/-- After a cancellation that is answered with `true`, whatever follows: the key keeps its
ABORTED result, the same create neither succeeds nor calls `backend.Create`, and the
generation that was cancelled is in no record, in memory or in the file. -/
theorem terminal_of_cancelled (s : Service) (ts₁ ts₂ : List Turn) (c : SandboxConfig) (key : String) (as : List Answer)
    (hfresh : s.Conforming s.Unrepeated (ts₁ ++ ⟨.request (.cancelCreate c key), as⟩ :: ts₂))
    (hok : s.outcome (s.after ts₁) ⟨.request (.cancelCreate c key), as⟩ = some (.cancelled none)) :
    let d := s.after (ts₁ ++ ⟨.request (.cancelCreate c key), as⟩ :: ts₂)
    Aborted c key d.world.store ∧
      (∀ as' x, s.outcome d ⟨.request (.create c key), as'⟩ ≠ some (.response (.ok x))) ∧
      (∀ as', ∀ x ∈ s.turnCalls d ⟨.request (.create c key), as'⟩, ∀ sb, x.2 ≠ .kerf (.act .create sb)) ∧
      ∀ i completed, scanCreate c key (.create c) (s.after ts₁).world.store.journal none false = some (some i, completed) →
        ∀ sb, d.world.store.Records c.id sb → sb.generation ≠ i.generation := by
  intro d
  obtain ⟨hfresh₁, -, hfresh₂⟩ := conforms_append.1 hfresh
  obtain ⟨i, completed, hscan, hterminal⟩ := terminal_turn (s.after_keyed ts₁) (singular_after hfresh₁) hok
  have hd : Terminal c key i d.world.store := by
    have hrun : d = run s.turn (s.turn (s.after ts₁) ⟨.request (.cancelCreate c key), as⟩) ts₂ := run_append _ _
    rw [hrun]
    exact Service.ConformingFrom.inv (J := fun w => Terminal c key i w.store) hfresh₂ hterminal (fun _ h => h)
      (fun _ _ h hst => h.reopen hst) fun _ _ _ h hK => h.op hK
  have hbegin (w : World) (hw : d.begin (.request (.create c key)) = some w) : Aborted c key w.store := by
    obtain ⟨-, hw⟩ := Option.ite_none_right_eq_some.1 hw
    rw [← Option.some.inj hw]
    exact hd.aborted
  have hcreate (w : World) (hw : Aborted c key w.store) : Sat (Host.trans fun _ _ _ => True) (fun _ x => Looks x)
      (Op.program s (.request (.create c key))) w fun out _ => ∀ x, out ≠ .response (.ok x) :=
    (refused_create hw).bind fun r _ hr x hx => hr x (by cases hx; rfl)
  refine ⟨hd.aborted, fun as' x hx => ?_, fun as' x hx sb hsb => ?_, fun i' completed' hscan' sb hsb hgen => ?_⟩
  · obtain ⟨w, hw, hx⟩ := Option.bind_eq_some_iff.1 hx
    exact (hcreate w (hbegin w hw)).exec_result (meets_true Host _ w as') (Prod.ext rfl hx) x rfl
  · unfold Service.turnCalls at hx
    cases hw : d.begin (.request (.create c key)) with
    | none => simp [hw] at hx
    | some w =>
      simp only [hw] at hx
      have hlooks := (hcreate w (hbegin w hw)).calls (meets_true Host _ w as') x hx
      rw [hsb] at hlooks
      cases hlooks with
      | aside h => cases h
  · rw [hscan] at hscan'
    cases hscan'
    exact (hd.gone i' rfl).unowned sb (.inl ⟨c.id, hsb⟩) ⟨hd.keyed.records c.id sb hsb, hgen⟩

/-- A sandbox is created and its create cancelled; then it is created under another key, and
the daemon restarts. -/
def cancelledThenCreated : List Turn :=
  [⟨.boot, working 0⟩, ⟨.request (.create (sampleConfig "a" 1) "k1"), working 1⟩,
    ⟨.request (.cancelCreate (sampleConfig "a" 1) "k1"), working 2⟩,
    ⟨.request (.create (sampleConfig "a" 1) "k2"), working 3⟩, ⟨.boot, working 4⟩]

def isCancelled : Outcome → Bool
  | .cancelled none => true
  | _ => false

theorem eq_of_isCancelled {out : Outcome} (h : isCancelled out) : out = .cancelled none := by
  unfold isCancelled at h
  split at h
  · rfl
  · cases h

/-- The random source gives no generation that the journal has. -/
def drawsNew (w : World) (c : Call) (a : Answer) : Bool :=
  match c with
  | .env .generation => w.store.journal.all (·.generation ≠ hexGeneration a.entropy)
  | _ => true

theorem terminal_cancelledThenCreated :
    (scanCreate (sampleConfig "a" 1) "k1" (.create (sampleConfig "a" 1))
        (after {} (cancelledThenCreated.take 2)).world.store.journal none false).any (·.1.isSome) ∧
      ((after {} cancelledThenCreated).world.store.data.sandboxes.lookup "a").isSome ∧
      Aborted (sampleConfig "a" 1) "k1" (after {} cancelledThenCreated).world.store ∧
      ∀ i completed, scanCreate (sampleConfig "a" 1) "k1" (.create (sampleConfig "a" 1))
          (after {} (cancelledThenCreated.take 2)).world.store.journal none false = some (some i, completed) →
        ∀ sb, (after {} cancelledThenCreated).world.store.data.sandboxes.lookup "a" = some sb → sb.generation ≠ i.generation := by
  have hcancelled : (Service.outcome {} (after {} (cancelledThenCreated.take 2))
      ⟨.request (.cancelCreate (sampleConfig "a" 1) "k1"), working 2⟩).any isCancelled := by
    decide +kernel
  obtain ⟨out, hout, hnone⟩ := (Option.any_eq_true _ _).1 hcancelled
  have hok := eq_of_isCancelled hnone
  have hterminal := terminal_of_cancelled {} (cancelledThenCreated.take 2) (cancelledThenCreated.drop 3) (sampleConfig "a" 1)
    "k1" (working 2) (conforming_of_checks (b := fun w op as => passes Host drawsNew (op.program {}) w as)
      (fun w op as h => meets_of_passes Host (fun w c a hc hgen e he => by
        subst hgen
        simpa using List.all_eq_true.1 hc e he) h) (by decide +kernel)) (hok ▸ hout)
  exact ⟨by decide +kernel, by decide +kernel, hterminal.1, fun i completed hscan sb hsb => hterminal.2.2.2 i completed hscan sb (.inl hsb)⟩

/-- The load of `b` has looked up the key and waits at its intent, while the
create of `a` under the same key is cancelled. -/
def cancelBesideLoad : List (Event Serving Request) :=
  .spawn (.create (sampleConfig "b" 2) "kb") :: calling 0 31 ++
    [.spawn (.load "b" (hexGeneration 105) "k"), .spawn (.cancelCreate (sampleConfig "a" 1) "k")] ++ calling 1 5 ++ calling 2 8

/-- The cancellation is answered with `true` and has recorded ABORTED; then the
load goes on and puts its own success under the key. -/
theorem not_terminal :
    (Service.served {} .init cancelBesideLoad).threads.map Thread.succeeded = [true, false, true] ∧
      (recorded (Service.served {} .init cancelBesideLoad).shared "k").any (fun r =>
        r.fingerprint = .create (sampleConfig "a" 1) && r.outcome matches .error ⟨.aborted, _, _, _⟩) ∧
      (recorded (Service.served {} .init (cancelBesideLoad ++ calling 1 16)).shared "k").any (fun r =>
        r.fingerprint = .target .loadSandbox "b" (hexGeneration 105) && r.outcome matches .ok _) ∧
      ¬Aborted (sampleConfig "a" 1) "k" (Service.served {} .init (cancelBesideLoad ++ calling 1 16)).shared.world.store := by
  have hloaded : (recorded (Service.served {} .init (cancelBesideLoad ++ calling 1 16)).shared "k").any (fun r =>
      r.fingerprint = .target .loadSandbox "b" (hexGeneration 105) && r.outcome matches .ok _) := by
    decide +kernel
  refine ⟨by decide +kernel, by decide +kernel, hloaded, fun h => ?_⟩
  obtain ⟨o, ho, -⟩ := h.data
  rw [recorded, ho] at hloaded
  simp at hloaded

end Service

end Multikernel
