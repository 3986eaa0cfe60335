import Multikernel.Lifecycle.Journal
/-!
# Incomplete intents and ABORTED results

A cancelled create records ABORTED under its key, and `Reconcile` refuses an
incomplete intent that carries such a key. `mutate` journals an intent only
under a key without a result in memory. So it has to be shown that a cancellation
first completes every intent that carries its key (`Cleared`): it does when
those intents are the create itself or loads of its sandbox (`Cancellable`),
and when no create of the same ID came in between (`Unaborted.creates`). Besides,
a cancellation whose write failed late must not be followed by a request under
its key, which memory takes for new (`Remembers`).
-/

namespace Multikernel
open Lib
variable {α : Type} {c : Call} {st₀ st : Store} {id gen : String} {fn : Sandbox → Act (Sandbox × Option Err)}

/-- The snapshot records ABORTED under the key. -/
def Snapshot.aborts (d : Snapshot) (key : String) : Bool := (d.results.lookup key).any Service.isAborted

/-- Incomplete intents carry a sandbox, their results are not ABORTED, in memory
or in the file, and no create of an ID follows an incomplete intent of it. -/
structure Store.Unaborted (st : Store) : Prop where
  carried : ∀ e ∈ st.pending, ∃ a, e.sandbox = some a
  results : ∀ e ∈ st.pending, st.data.aborts e.idempotencyKey = false
  disk : ∀ e ∈ st.pending, st.disk.aborts e.idempotencyKey = false
  creates : ∀ pre e post, st.journal = pre ++ e :: post → e ∈ st.pending →
    ∀ f ∈ post, f.phase = .intent → f.method = .createSandbox → f.sandboxID ≠ e.sandboxID

/-! ## What the calls of an operation keep -/

section Steps
variable {st : Store} {x : JournalEntry} {now : Nat} {o : Write}

theorem eq_of_append_singleton {l pre post : List α} {x e : α} (h : l ++ [x] = pre ++ e :: post) :
    (post = [] ∧ e = x) ∨ ∃ post', post = post' ++ [x] ∧ l = pre ++ e :: post' := by
  rcases List.eq_nil_or_concat post with rfl | ⟨post', y, rfl⟩
  · exact .inl ⟨rfl, by simpa using (List.append_inj' h rfl).2.symm⟩
  · have h' : l ++ [x] = (pre ++ e :: post') ++ [y] := by simpa using h
    obtain ⟨hl, hx⟩ := List.append_inj' h' rfl
    cases hx
    exact .inr ⟨post', by simp, hl⟩

theorem Store.Unaborted.append (h : st.Unaborted)
    (hx : x.phase = .intent → (∃ a, x.sandbox = some a) ∧
      st.data.aborts x.idempotencyKey = false ∧ st.disk.aborts x.idempotencyKey = false ∧
      (x.method = .createSandbox → ∀ e ∈ st.pending, e.sandboxID ≠ x.sandboxID)) : (st.append x now o).1.Unaborted := by
  have hmem (e : JournalEntry) (he : e ∈ (st.append x now o).1.pending) := Store.mem_pending_append he
  obtain ⟨hj, -, hres, hdisk⟩ := st.append_cases x now o
  refine ⟨fun e he => ?_, fun e he => ?_, fun e he => ?_, fun pre e post hpre he f hf hp hm => ?_⟩
  · rcases hmem e he with he | ⟨rfl, hp⟩
    · exact h.carried e he
    · exact (hx hp).1
  · rw [Snapshot.aborts, hres]
    rcases hmem e he with he | ⟨rfl, hp⟩
    · exact h.results e he
    · exact (hx hp).2.1
  · rw [hdisk]
    rcases hmem e he with he | ⟨rfl, hp⟩
    · exact h.disk e he
    · exact (hx hp).2.2.1
  · rcases hj with ⟨-, hj⟩ | ⟨-, -, hj, -⟩
    · rw [hj] at hpre
      exact h.creates pre e post hpre (by rwa [Store.pending, hj] at he) f hf hp hm
    · rw [hj] at hpre
      rcases eq_of_append_singleton hpre with ⟨rfl, -⟩ | ⟨post', rfl, hst⟩
      · simp at hf
      · -- `e` was journaled before, so it was pending before.
        have he' : e ∈ st.pending := mem_incomplete_of_grows (List.prefix_append _ _)
          (hst ▸ List.mem_append_right _ List.mem_cons_self) (by rwa [Store.pending, hj] at he)
        rcases List.mem_append.1 hf with hf | hf
        · exact h.creates pre e post' hst he' f hf hp hm
        · rw [List.mem_singleton] at hf
          subst hf
          exact fun hid => (hx hp).2.2.2 hm e he' hid.symm

theorem Store.Unaborted.persist (h : st.Unaborted) {ch : Change}
    (hch : ∀ e ∈ st.pending, (st.data.change ch).aborts e.idempotencyKey = false) :
    (st.persist (st.data.change ch) o).1.Unaborted := by
  rcases st.persist_cases (st.data.change ch) o with ⟨e, _, hs, rfl | rfl⟩ | hs <;> rw [hs]
  · exact h
  · exact ⟨h.carried, h.results, hch, h.creates⟩
  · exact ⟨h.carried, hch, hch, h.creates⟩

end Steps

/-- Calls that journal no intent and record no ABORTED result. -/
inductive Harmless : Call → Prop
  | reads {c : Call} (h : Reads c) : Harmless c
  | act (op : KerfOp) (sb : Sandbox) : Harmless (.kerf (.act op sb))
  | complete {e : JournalEntry} (h : e.phase = .complete) : Harmless (.store (.append e))
  | commit (sb : Sandbox) (key : String) (fp : Fingerprint) (r : MutationResult) :
    Harmless (.store (.change (.commit sb key fp r)))
  | commitFailure (sb : Sandbox) (key : String) (fp : Fingerprint) {e : Error} (h : e.code ≠ .aborted) :
    Harmless (.store (.change (.commitFailure sb key fp e)))
  | setSandbox (sb : Sandbox) : Harmless (.store (.change (.setSandbox sb)))
  | removeSandbox (id : String) : Harmless (.store (.change (.removeSandbox id)))

attribute [simp] Harmless.reads Harmless.act Harmless.complete Harmless.commit Harmless.commitFailure
  Harmless.setSandbox Harmless.removeSandbox

theorem any_lookup_insert {t : Table IdempotentResult} {k key : String} {r : IdempotentResult}
    (hr : Service.isAborted r = false) (ht : (t.lookup key).any Service.isAborted = false) :
    ((t.insert k r).lookup key).any Service.isAborted = false := by
  by_cases hk : key = k
  · subst hk
    simpa using hr
  · rwa [AList.lookup_insert_ne hk]

theorem Store.Unaborted.step {w : World} (h : w.store.Unaborted) (hc : Harmless c) (a : Answer) :
    (step w c a).1.store.Unaborted := by
  cases hc with
  | reads hr => rwa [store_of_reads hr]
  | act => exact h
  | complete hp => exact h.append fun hi => by rw [hp] at hi; cases hi
  | commit sb key fp r =>
    refine h.persist fun e he => ?_
    simp only [Snapshot.aborts, Snapshot.change]
    split
    · exact any_lookup_insert rfl (h.results e he)
    · exact h.results e he
  | commitFailure sb key fp hcode =>
    exact h.persist fun e he => any_lookup_insert (by simpa [Service.isAborted] using hcode) (h.results e he)
  | setSandbox | removeSandbox => exact h.persist fun e he => h.results e he

theorem Allocates.harmless {σ : Sandbox} (h : Allocates σ c) : Harmless c := by
  cases h with
  | reads h => exact .reads h
  | works h =>
    cases h with
    | acts h =>
      cases h with
      | aside h => exact .reads (.aside h.aside)
      | act => exact .act _ _
    | setSandbox h => exact .setSandbox _

namespace Service
variable {E : Env} {s : Service} {w : World} {method : Method} {key : String}
  {fp : Fingerprint} {intent : JournalEntry} {sb : Sandbox} {target : State}

/-! ## Mutations -/

theorem failureCode_ne_aborted (e : Err) : failureCode e ≠ .aborted := by
  unfold failureCode
  split
  · simp
  · split <;> simp

theorem harmless_mutateFailed (e : Err) : Only Harmless (mutateFailed method key fp intent sb e) := by
  simp [mutateFailed, Option.forall, operationError, apierr, failureCode_ne_aborted]

theorem harmless_mutateEnded {r : Sandbox × Option Err} : Only Harmless (mutateEnded method key fp intent r) := by
  obtain ⟨sb, _ | e⟩ := r
  · simp [mutateEnded, mutateUnconfirmed, mutateConfirmed, Option.forall]
  · exact harmless_mutateFailed e

/-- What happened to the store since `st₀` under one mutation of `id`. -/
structure Since (st₀ : Store) (method : Method) (id : String) (st : Store) : Prop where
  unaborted : st.Unaborted
  grows : st₀.journal <+: st.journal
  intents : ∀ f ∈ st.journal, f.phase = .intent → f ∈ st₀.journal ∨ (f.method = method ∧ f.sandboxID = id)

theorem Since.pending (h : Since st₀ method id st) :
    ∀ e ∈ st.pending, e ∈ st₀.pending ∨ (e.method = method ∧ e.sandboxID = id) := by
  intro e he
  obtain ⟨hmem, hp, -⟩ := mem_incomplete.1 he
  exact (h.intents e hmem hp).imp (fun h₀ => mem_incomplete_of_grows h.grows h₀ he) fun h => h

theorem Since.step (h : Since st₀ method id w.store) (hc : Harmless c) (a : Answer) :
    Since st₀ method id (step w c a).1.store := by
  refine ⟨h.unaborted.step hc a, h.grows.trans (journal_grows w c a), fun f hf hp => ?_⟩
  have hsame (hj : (Multikernel.step w c a).1.store.journal = w.store.journal) :
      f ∈ st₀.journal ∨ (f.method = method ∧ f.sandboxID = id) := h.intents f (hj ▸ hf) hp
  cases hc with
  | reads hr => exact hsame (by rw [store_of_reads hr])
  | act => exact hsame rfl
  | complete hx =>
    rcases (Store.append_cases w.store _ a.time a.write).1 with ⟨-, hj⟩ | ⟨-, -, hj, -⟩
    · exact hsame hj
    · have hf' : f ∈ w.store.journal ++ [w.store.stamp _ a.time] := hj ▸ hf
      rcases List.mem_append.1 hf' with hf' | hf'
      · exact h.intents f hf' hp
      · rw [List.mem_singleton] at hf'
        rw [hf'] at hp
        exact absurd (hx.symm.trans hp) (by decide)
  | commit | commitFailure | setSandbox | removeSandbox => exact hsame (journal_of_unjournaled (.change _) w a)

theorem since_harmless {p : Act α} (hp : Only Harmless p) (hw : Since st₀ method id w.store) :
    Ensures E (fun w _ => w.store.Unaborted) p w fun _ w' => Since st₀ method id w'.store := by
  have h := host_keeps (E := E) (J := fun w => Since st₀ method id w.store) hp hw fun w c a hw hc => hw.step hc a
  exact h.imp (fun _ _ h => h.1.unaborted) fun _ _ h => h.1

theorem harmless_mutateJournaled (hfn : Steps (Allocates sb) sb target (fn sb)) :
    Only Harmless (mutateJournaled method key fp intent sb fn) := by
  refine Emits.guard (by simp) (fun _ => trivial) (Emits.guard (by simp) (fun _ => trivial) ?_)
  exact Emits.bind (Emits.mono hfn (fun _ h => h.harmless) fun _ _ => trivial) fun r _ => harmless_mutateEnded

/-- An intent under a key without a result. -/
theorem since_intent {x : JournalEntry} (h : st.Unaborted) {a : Sandbox} (ha : x.sandbox = some a)
    (hx : st.data.results.lookup x.idempotencyKey = none) (hdisk : st.disk.aborts x.idempotencyKey = false)
    (hcreate : x.method = .createSandbox → ∀ e ∈ st.pending, e.sandboxID ≠ x.sandboxID) (now : Nat) (o : Write) :
    Since st x.method x.sandboxID (st.append x now o).1 := by
  have hjournal := (st.append_cases x now o).1
  refine ⟨h.append fun _ => ⟨⟨a, ha⟩, by simp [Snapshot.aborts, hx], hdisk, hcreate⟩, ?_, fun f hf _ => ?_⟩
  · rcases hjournal with ⟨-, hj⟩ | ⟨-, -, hj, -⟩
    · exact hj ▸ List.prefix_refl _
    · exact hj ▸ List.prefix_append _ _
  · rcases hjournal with ⟨-, hj⟩ | ⟨-, -, hj, -⟩
    · exact .inl (hj ▸ hf)
    · rw [hj, List.mem_append, List.mem_singleton] at hf
      rcases hf with hf | rfl
      · exact .inl hf
      · exact .inr ⟨rfl, rfl⟩

theorem since_mutateAs (hfn : Steps (Allocates sb) sb target (fn sb)) (hw : w.store.Unaborted)
    (hres : w.store.data.results.lookup key = none) (hdisk : w.store.disk.aborts key = false)
    (hcreate : method = .createSandbox → ∀ e ∈ w.store.pending, e.sandboxID ≠ sb.id) (op : String) :
    Ensures E (fun w _ => w.store.Unaborted) (mutateAs method key fp sb fn op) w fun _ w' =>
      Since w.store method sb.id w'.store := by
  refine host_checkpoint hw (fun _ => ⟨hw, List.prefix_refl _, fun f hf _ => .inl hf⟩) ⟨hw, fun r w' hr => ?_⟩
  obtain ⟨a, -, hr⟩ := hr
  have hstore : (w.store.append (intentOf method key fp sb op) a.time a.write).1 = w'.store := congrArg (·.1.store) hr
  have hsince : Since w.store method sb.id w'.store :=
    hstore ▸ since_intent (x := intentOf method key fp sb op) hw rfl hres hdisk hcreate a.time a.write
  cases r with
  | some e => exact hsince
  | none => exact since_harmless (harmless_mutateJournaled hfn) hsince

/-- A key that is new to the store in memory has no ABORTED result in the file. -/
def Remembers (st : Store) (key : String) : Prop := st.data.results.lookup key = none → st.disk.aborts key = false

/-- `mutate` journals one intent, under a key without a result. -/
theorem since_mutate (hfn : Steps (Allocates sb) sb target (fn sb)) (hw : w.store.Unaborted)
    (hkey : Remembers w.store key) (hcreate : method = .createSandbox → ∀ e ∈ w.store.pending, e.sandboxID ≠ sb.id) :
    Ensures E (fun w _ => w.store.Unaborted) (mutate method key fp sb fn) w fun _ w' =>
      Since w.store method sb.id w'.store := by
  refine host_replay hw (fun _ _ => ⟨hw, List.prefix_refl _, fun f hf _ => .inl hf⟩) fun _ hres => ?_
  have hdisk := hkey hres
  exact host_generation hw (fun _ => since_mutateAs hfn hw hres hdisk hcreate _) fun _ _ =>
    since_mutateAs hfn hw hres hdisk hcreate _

/-! ## Cancellation -/

section Scan
variable {c : SandboxConfig} {entries : List JournalEntry} {found r : Option JournalEntry} {completed done : Bool}

/-- One entry of the scan: another operation's, an intent, or a completion. -/
theorem scanCreate_cons {entry : JournalEntry}
    (h : scanCreate c key fp (entry :: entries) found completed = some (r, done)) :
    ((entry.method ≠ .createSandbox ∨ entry.idempotencyKey ≠ key) ∧
        scanCreate c key fp entries found completed = some (r, done)) ∨
      entry.sandboxID = c.id ∧
        ((entry.phase = .intent ∧ scanCreate c key fp entries (some entry) false = some (r, done)) ∨
          (entry.phase = .complete ∧ (∃ i, found = some i ∧ entry.operationID = i.operationID) ∧
            scanCreate c key fp entries found true = some (r, done)) ∨
          (entry.phase = .complete ∧ scanCreate c key fp entries found completed = some (r, done))) := by
  unfold scanCreate at h
  split at h
  · exact .inl ⟨by assumption, h⟩
  · split at h
    · cases h
    · rename_i hinput
      simp only [not_or, not_not] at hinput
      refine .inr ⟨hinput.2.1, ?_⟩
      cases hp : entry.phase with
      | intent => simpa [hp] using h
      | complete =>
        simp only [hp, reduceCtorEq, if_false] at h
        split at h
        · rename_i hop
          cases found with
          | none => simp at hop
          | some i => exact .inr (.inl ⟨rfl, ⟨i, rfl, by simpa using hop⟩, h⟩)
        · exact .inr (.inr ⟨rfl, h⟩)

theorem scanCreate_owned (h : scanCreate c key fp entries found completed = some (r, done)) :
    ∀ e ∈ entries, e.method = .createSandbox → e.idempotencyKey = key → e.sandboxID = c.id := by
  induction entries generalizing found completed with
  | nil => simp
  | cons entry rest ih =>
    intro e he hm hk
    rcases List.mem_cons.1 he with rfl | he
    · rcases scanCreate_cons h with ⟨hne, -⟩ | ⟨hid, -⟩
      · exact absurd hk (hne.resolve_left (not_not.2 hm))
      · exact hid
    · rcases scanCreate_cons h with ⟨-, h⟩ | ⟨-, ⟨-, h⟩ | ⟨-, -, h⟩ | ⟨-, h⟩⟩ <;> exact ih h e he hm hk

theorem scanCreate_isSome (h : scanCreate c key fp entries found completed = some (r, done)) (hf : found.isSome) :
    r.isSome := by
  induction entries generalizing found completed with
  | nil =>
    cases h
    exact hf
  | cons entry rest ih =>
    rcases scanCreate_cons h with ⟨-, h⟩ | ⟨-, ⟨-, h⟩ | ⟨-, -, h⟩ | ⟨-, h⟩⟩
    · exact ih h hf
    · exact ih h rfl
    · exact ih h hf
    · exact ih h hf

/-- Every create intent of the key is the one found or comes before it. -/
theorem scanCreate_last (h : scanCreate c key fp entries found completed = some (r, done)) {e : JournalEntry}
    (he : e ∈ entries) (hp : e.phase = .intent) (hm : e.method = .createSandbox) (hk : e.idempotencyKey = key) :
    ∃ i, r = some i ∧ ∃ pre post, entries = pre ++ e :: post ∧ (i = e ∨ i ∈ post) := by
  induction entries generalizing found completed with
  | nil => simp at he
  | cons entry rest ih =>
    by_cases hmem : e ∈ rest
    · have hrest {found completed} (h : scanCreate c key fp rest found completed = some (r, done)) :
          ∃ i, r = some i ∧ ∃ pre post, entry :: rest = pre ++ e :: post ∧ (i = e ∨ i ∈ post) := by
        obtain ⟨i, hi, pre, post, heq, hor⟩ := ih h hmem
        exact ⟨i, hi, entry :: pre, post, by rw [heq, List.cons_append], hor⟩
      rcases scanCreate_cons h with ⟨-, h⟩ | ⟨-, ⟨-, h⟩ | ⟨-, -, h⟩ | ⟨-, h⟩⟩ <;> exact hrest h
    · obtain rfl := (List.mem_cons.1 he).resolve_right hmem
      rcases scanCreate_cons h with ⟨hne, -⟩ | ⟨-, ⟨-, h⟩ | ⟨hc, -⟩ | ⟨hc, -⟩⟩
      · exact absurd hk (hne.resolve_left (not_not.2 hm))
      · obtain ⟨i, hi⟩ := Option.isSome_iff_exists.1 (scanCreate_isSome h rfl)
        refine ⟨i, hi, [], rest, rfl, ?_⟩
        rcases scanCreate_found h hi with hfound | ⟨hmem, -⟩
        · exact .inl (Option.some.inj hfound).symm
        · exact .inr hmem
      · exact absurd (hp.symm.trans hc) (by decide)
      · exact absurd (hp.symm.trans hc) (by decide)

/-- The scan calls the create complete only if it is. -/
theorem scanCreate_done (h : scanCreate c key fp entries found completed = some (r, done)) (hd : done = true) :
    (completed = true ∧ r = found) ∨
      ∃ i, r = some i ∧ ∃ d ∈ entries, d.phase = .complete ∧ d.operationID = i.operationID := by
  induction entries generalizing found completed with
  | nil =>
    cases h
    exact .inl ⟨hd, rfl⟩
  | cons entry rest ih =>
    have hlift (h : ∃ i, r = some i ∧ ∃ d ∈ rest, d.phase = .complete ∧ d.operationID = i.operationID) :
        ∃ i, r = some i ∧ ∃ d ∈ entry :: rest, d.phase = .complete ∧ d.operationID = i.operationID := by
      obtain ⟨i, hi, d, hmem, hd⟩ := h
      exact ⟨i, hi, d, List.mem_cons_of_mem _ hmem, hd⟩
    rcases scanCreate_cons h with ⟨-, h⟩ | ⟨-, ⟨-, h⟩ | ⟨hc, ⟨i, hi, hop⟩, h⟩ | ⟨-, h⟩⟩
    · exact (ih h).imp_right hlift
    · exact .inr (hlift ((ih h).resolve_left (by simp)))
    · rcases ih h with ⟨-, hr⟩ | hr
      · exact .inr ⟨i, hr.trans hi, entry, List.mem_cons_self, hc, hop⟩
      · exact .inr (hlift hr)
    · exact (ih h).imp_right hlift

end Scan

/-- Nothing pending carries the key, so its result may become ABORTED. -/
structure Cleared (key : String) (st : Store) : Prop where
  unaborted : st.Unaborted
  none : ∀ e ∈ st.pending, e.idempotencyKey ≠ key

theorem Cleared.persist (h : Cleared key st) {ch : Change} (r : IdempotentResult)
    (hch : (st.data.change ch).results = st.data.results.insert key r) (o : Write) :
    Cleared key (st.persist (st.data.change ch) o).1 := by
  refine ⟨h.unaborted.persist fun e he => ?_, fun e he => h.none e ?_⟩
  · rw [Snapshot.aborts, hch, AList.lookup_insert_ne (h.none e he)]
    exact h.unaborted.results e he
  · rcases st.persist_cases (st.data.change ch) o with ⟨_, _, hs, -⟩ | hs <;> rwa [hs] at he

/-- A cancellation of the key keeps it clear. -/
theorem Cleared.step (h : Cleared key w.store) (hc : Cancels id key fp c) (a : Answer) :
    Cleared key (step w c a).1.store := by
  cases c with
  | store c =>
    cases c with
    | append x =>
      refine ⟨h.unaborted.append fun hi => absurd (hc.2.symm.trans hi) (by decide), fun e he => ?_⟩
      rcases Store.mem_pending_append he with he | ⟨-, hp⟩
      · exact h.none e he
      · exact absurd (hc.2.symm.trans hp) (by decide)
    | change ch =>
      cases ch with
      | tombstone k f failure =>
        obtain ⟨rfl, -⟩ := cancels_tombstone.1 hc
        exact h.persist ⟨f, .error failure⟩ rfl a.write
      | abortCreate i k f failure =>
        obtain ⟨-, rfl, -⟩ := cancels_abortCreate.1 hc
        exact h.persist ⟨f, .error failure⟩ rfl a.write
      | commit | commitFailure | setSandbox | removeSandbox => cases hc
    | result | sandbox | snapshot | journalEntries => exact h
  | env c => cases c <;> exact h
  | _ => exact h

theorem keeps_cleared (id : String) {p : Act α} (hp : Only (Cancels id key fp) p)
    (hw : Cleared key w.store) : Keeps E Store.Unaborted p w := by
  have h := host_keeps (E := E) (J := fun w => Cleared key w.store) hp hw fun w c a hw hc => hw.step hc a
  exact h.imp (fun _ _ h => h.1.unaborted) fun _ _ h => h.1.unaborted

/-- Completions keep it. -/
theorem Store.Unaborted.complete (h : st.Unaborted) (x : JournalEntry) (now : Nat) (o : Write)
    (hx : x.phase = .complete) : (st.append x now o).1.Unaborted :=
  h.append fun hi => absurd (hx.symm.trans hi) (by decide)

/-- A cancellation of `key` for sandbox `id` completes every intent that
carries the key. -/
def Cancellable (st : Store) (id key : String) : Prop :=
  ∀ e ∈ st.pending, e.idempotencyKey = key → e.method ≠ .createSandbox →
    e.sandboxID = id ∧ ∃ f ∈ st.journal, f.phase = .intent ∧ f.method = .createSandbox ∧ f.idempotencyKey = key

section Cancel
variable {ctx : Ctx} {c : SandboxConfig}

/-- Once the dependents are complete and the create is, nothing pending
carries the key. -/
theorem not_pending_of_cancelled {completed : Bool} {P : List JournalEntry} (hw : w.store.Unaborted)
    (hcan : Cancellable w.store c.id key)
    (hscan : scanCreate c key fp w.store.journal none false = some (some intent, completed))
    (hP : ∀ e ∈ P, e ∈ w.store.pending) (hintent : intent ∉ P)
    (hdone : ∀ e ∈ w.store.pending, e.sandboxID = c.id → e.method ≠ .createSandbox → e ∉ P) :
    ∀ e ∈ P, e.idempotencyKey ≠ key := by
  intro e he hk
  obtain ⟨hmem, hp, -⟩ := mem_incomplete.1 (hP e he)
  by_cases hm : e.method = .createSandbox
  · -- A pending create of the key is the last one, which is complete.
    obtain ⟨i, hi, pre, post, hjournal, hor⟩ := scanCreate_last hscan hmem hp hm hk
    cases hi
    rcases hor with rfl | hpost
    · exact hintent he
    · obtain ⟨himem, him, hik, hip, -⟩ := (scanCreate_found hscan rfl).resolve_left (by simp)
      refine hw.creates pre e post hjournal (hP e he) intent hpost hip him ?_
      rw [scanCreate_owned hscan intent himem him hik, scanCreate_owned hscan e hmem hm hk]
  · exact hdone e (hP e he) (hcan e (hP e he) hk hm).1 hm he

theorem unaborted_cancelOwned {completed : Bool} (hw : w.store.Unaborted) (hcan : Cancellable w.store c.id key)
    (hscan : scanCreate c key fp w.store.journal none false = some (some intent, completed)) :
    Keeps E Store.Unaborted (s.cancelOwned ctx c key fp w.store.journal intent completed sb) w := by
  refine Sat.unless hw fun _ => ?_
  have hrest (failure : Error) (hfailure : failure.code = .aborted) (w1 : World) (hu : w1.store.Unaborted)
      (hsub : ∀ e ∈ w1.store.pending, e ∈ w.store.pending) (hintent : intent ∉ w1.store.pending) :
      Keeps E Store.Unaborted (s.cancelCompleted ctx c key fp w.store.journal sb failure) w1 := by
    refine (cancelDependents_completes (fun _ => Store.Unaborted.complete) c.id sb.state w.store.pending hu).bind ?_
    rintro r w2 ⟨hu2, hsub2, hdone⟩
    cases r with
    | some e => exact hu2
    | none =>
      have hcleared : Cleared key w2.store := ⟨hu2, not_pending_of_cancelled hw hcan hscan
        (fun e he => hsub e (hsub2 e he)) (fun he => hintent (hsub2 intent he)) (hdone rfl)⟩
      exact keeps_cleared c.id (Emits.guard (by simp [hfailure]) (fun _ => trivial) (cancels_cancelResources sb hfailure)) hcleared
  cases completed with
  | true =>
    obtain ⟨i, hi, d, hd, hp, hop⟩ := (scanCreate_done hscan rfl).resolve_left (by simp)
    cases hi
    exact hrest _ rfl w hw (fun _ h => h) fun hmem => (mem_incomplete.1 hmem).2.2 d hd hp hop
  | false =>
    refine host_complete (fun _ => Store.Unaborted.complete) rfl hw (fun _ _ hu _ => hu) fun w1 hu hsub => ?_
    exact hrest _ rfl w1 hu (fun e he => (hsub e he).1) fun hmem => (hsub intent hmem).2 rfl

theorem unaborted_cancelCreateLocked (hw : w.store.Unaborted) (hcan : Cancellable w.store c.id key) :
    Keeps E Store.Unaborted (s.cancelCreateLocked ctx c key fp) w := by
  refine host_result hw (Sat.unless hw fun _ => host_journalEntries hw (fun _ => hw) ?_)
  cases hscan : scanCreate c key fp w.store.journal none false with
  | none => simpa only [hscan, sat_pure] using hw
  | some found =>
    obtain ⟨found, completed⟩ := found
    simp only [hscan]
    refine host_sandbox hw ?_
    cases found with
    | none =>
      have hnone (e : JournalEntry) (he : e ∈ w.store.pending) : e.idempotencyKey ≠ key := by
        intro hk
        obtain ⟨hmem, hp, -⟩ := mem_incomplete.1 he
        have hno {f : JournalEntry} (hf : f ∈ w.store.journal) (hp : f.phase = .intent) (hm : f.method = .createSandbox)
            (hk : f.idempotencyKey = key) : False := by
          obtain ⟨i, hi, -⟩ := scanCreate_last hscan hf hp hm hk
          cases hi
        by_cases hm : e.method = .createSandbox
        · exact hno hmem hp hm hk
        · obtain ⟨-, f, hf, hfp, hfm, hfk⟩ := hcan e he hk hm
          exact hno hf hfp hfm hfk
      cases w.store.data.sandboxes.lookup c.id with
      | none =>
        have htombstone : Only (Cancels c.id key fp) (store.tombstone key fp
            (apierr .aborted "create canceled before allocation" false)) := by simp [apierr]
        exact keeps_cleared c.id (Emits.guard htombstone (fun _ => trivial) trivial) ⟨hw, hnone⟩
      | some sb => exact hw
    | some i =>
      cases w.store.data.sandboxes.lookup c.id with
      | none =>
        cases hsb : i.sandbox with
        | none => simpa only [hsb, sat_pure] using hw
        | some sb =>
          simp only [hsb]
          exact unaborted_cancelOwned hw hcan hscan
      | some sb => exact Sat.unless hw fun _ => unaborted_cancelOwned hw hcan hscan

theorem unaborted_cancelCreate (hw : w.store.Unaborted) (hcan : Cancellable w.store c.id key) :
    Keeps E Store.Unaborted (s.cancelCreate ctx c key) w :=
  Sat.unless hw fun _ => Keeps.locked hw (Keeps.locked hw (unaborted_cancelCreateLocked hw hcan))

end Cancel

/-! ## Operations -/

theorem since_refl (hw : w.store.Unaborted) (method : Method) (id : String) : Since w.store method id w.store :=
  ⟨hw, List.prefix_refl _, fun _ hf _ => .inl hf⟩

theorem unaborted_create {c : SandboxConfig} (hw : w.store.Unaborted)
    (hK : s.Admits w.store c key → (∀ e ∈ w.store.pending, e.sandboxID ≠ c.id) ∧
      (∀ e ∈ w.store.pending, e.idempotencyKey = key → e.method = .createSandbox) ∧ Remembers w.store key) :
    Keeps E Store.Unaborted (s.create c key) w := by
  unfold Service.create
  cases hvalid : s.validateCreate c with
  | some e => exact hw
  | none =>
    refine Keeps.after_reads ((s.apart_checkArtifacts c).imp (fun _ h => .aside h.aside)) hw fun r w' h' => ?_
    rw [← h'] at hw hK
    cases r with
    | some e => exact hw
    | none =>
      refine Keeps.locked hw (host_replay hw (fun _ _ => hw) fun _ hres => Keeps.locked hw ?_)
      refine host_sandbox hw (host_snapshot hw ?_)
      cases hadm : s.admission c (w'.store.data.sandboxes.lookup c.id) w'.store.data with
      | some e => exact hw
      | none =>
        obtain ⟨hid, hkey, hremembers⟩ := hK ⟨hvalid, hres, hadm⟩
        refine host_generation hw (fun _ => hw) fun v _ => host_now hw fun t => ?_
        refine host_orCancelled (since_mutate (allocates_createFn _ (.refl _)) hw hremembers fun _ => hid)
          (fun _ _ h => h.unaborted) fun _ w1 hsince => ⟨hsince.unaborted, fun w2 h2 => ?_⟩
        rw [← h2.store] at hsince
        refine ⟨hsince.unaborted, fun _ => Sat.mono (unaborted_cancelCreateLocked hsince.unaborted ?_) fun _ _ h _ => h⟩
        intro e he hk hm
        rcases hsince.pending e he with he | ⟨hcreate, -⟩
        · exact absurd (hkey e he hk) hm
        · exact absurd hcreate hm

theorem since_transition {source : List State} {intermediate : Option State} {target : State}
    {fn : Sandbox → Act (Option Err)} (hfn : ∀ sb, Only (Moves sb) (fn sb))
    (hm : method ≠ .createSandbox) (hkeyed : w.store.Keyed) (hw : w.store.Unaborted) (hkey : Remembers w.store key) :
    Ensures E (fun w _ => w.store.Unaborted) (transition id gen key method source intermediate target fn) w
      fun _ w' => Since w.store method id w'.store := by
  have hrefl := since_refl hw method id
  refine host_lock hw (Sat.bind (R := fun _ w' => Since w.store method id w'.store) ?_
    fun _ w' h => host_unlock h.unaborted (sat_pure.2 h))
  refine host_sandbox hw ?_
  cases hsb : w.store.data.sandboxes.lookup id with
  | none => exact hrefl
  | some sb =>
    obtain rfl := hkeyed.sandboxes id sb hsb
    refine Sat.unless hrefl fun _ => host_replay hw (fun _ _ => hrefl) fun _ _ => ?_
    refine sat_ite.2 ⟨fun h => ?_, fun _ => Sat.unless hrefl fun _ => ?_⟩
    · exact since_mutate (steps_done h) hw hkey fun h => absurd h hm
    · exact since_mutate (steps_transitionFn (hfn sb) (.refl sb)).allocates hw hkey fun h => absurd h hm

theorem unaborted_load (hkeyed : w.store.Keyed) (hw : w.store.Unaborted) (hkey : Remembers w.store key)
    (hK : ∀ f ∈ w.store.journal, f.phase = .intent → f.method = .createSandbox → f.sandboxID = id → f.generation = gen → Cancellable w.store id f.idempotencyKey)
    : Keeps E Store.Unaborted (s.load id gen key) w := by
  refine host_orCancelled (since_transition (fun sb => moves_loadFn (.refl sb)) (by decide) hkeyed hw hkey)
    (fun _ _ h => h.unaborted) fun _ w1 hsince => ⟨hsince.unaborted, fun w2 h2 => ?_⟩
  rw [← h2.store] at hsince
  refine ⟨hsince.unaborted, fun _ => Sat.mono (Q := fun _ w => w.store.Unaborted) ?_ fun _ _ h _ => h⟩
  refine host_journalEntries hsince.unaborted (fun _ => hsince.unaborted) ?_
  cases hfind : findCreate id gen w2.store.journal with
  | none => simpa only [hfind, sat_pure] using hsince.unaborted
  | some f =>
    obtain ⟨hmem, hm, hp, hid, sb, hsb, hgen⟩ := findCreate_found hfind
    simp only [hfind, hsb]
    -- The create was journaled before this load.
    have hf : f ∈ w.store.journal := (hsince.intents f hmem hp).resolve_right fun h => by simp [hm] at h
    obtain ⟨-, hfgen, hfid⟩ := hkeyed.journal f hf sb hsb
    have hcan := hK f hf hp hm hid (hfgen.symm.trans hgen)
    refine Sat.guard (unaborted_cancelCreate hsince.unaborted ?_) (fun _ _ h => h) fun _ h => h
    intro e he hk _
    refine ⟨?_, f, hmem, hp, hm, rfl⟩
    rw [hfid, hid]
    rcases hsince.pending e he with he | ⟨-, heid⟩
    · exact (hcan e he hk (by assumption)).1
    · exact heid

theorem unaborted_delete (hw : w.store.Unaborted) (hkey : Remembers w.store key) :
    Keeps E Store.Unaborted (s.delete id gen key) w := by
  refine Keeps.locked hw (Keeps.locked hw (host_replay hw (fun _ _ => hw) fun _ _ => host_sandbox hw ?_))
  cases w.store.data.sandboxes.lookup id with
  | none => exact hw
  | some sb =>
    refine Sat.unless hw fun _ => ?_
    exact (since_mutate (steps_deleteFn (.refl _)).allocates hw hkey fun h => by cases h).mono fun _ _ h => h.unaborted

theorem harmless_reconcileIncomplete (i : JournalEntry) : Only Harmless (s.reconcileIncomplete i) := by
  unfold reconcileIncomplete
  cases i.sandbox with
  | none => trivial
  | some σ =>
    refine Only.bind (by simp) fun r => ?_
    cases r with
    | error e => trivial
    | ok actual =>
      refine Emits.bind ((resumes_recover (Sandbox.Same.refl σ)).mono (fun _ h => h.allocates.harmless) fun _ _ => trivial) fun r _ => ?_
      obtain ⟨sb, e | state⟩ := r <;> simp [recoverFail, recoverFinish, Option.forall]

theorem harmless_reconcileIntents (todo : List JournalEntry) : Only Harmless (s.reconcileIntents todo) := by
  induction todo with
  | nil => trivial
  | cons i rest ih => exact Emits.guard (harmless_reconcileIncomplete i) (fun _ => trivial) ih

theorem harmless_boot : Only Harmless s.boot := by
  have hreads {α : Type} {p : Act α} (hp : Only Reads p) : Only Harmless p :=
    hp.imp (fun _ h => .reads h)
  refine Only.bind (by simp) fun d => ?_
  refine Emits.guard (hreads (by simp [recoverIdlePool, Option.forall])) (fun _ => trivial) ?_
  refine Emits.locked (fun _ h => .reads (.aside h)) (Only.bind (by simp) fun d => ?_)
  refine Sat.unless trivial fun _ => Only.bind (by simp) fun r => ?_
  cases r with
  | error e => trivial
  | ok entries =>
    refine Emits.bind (hreads ((looks_validateRecovery _ _ _).imp (fun _ h => h.reads))) fun r _ => ?_
    cases r with
    | error e => trivial
    | ok recovery =>
      exact only_reconcileValid _ recovery (fun _ h => .reads h) .setSandbox (harmless_reconcileIntents _)

theorem keeps_harmless {p : Act α} (hp : Only Harmless p) (hw : w.store.Unaborted) : Keeps E Store.Unaborted p w :=
  (since_harmless hp (since_refl hw .createSandbox "")).mono fun _ _ h => h.unaborted

/-- The history stays recoverable through the operation: a create reuses
neither the ID of an incomplete intent or of a record of the file nor the key of
an intent of another method, a cancellation completes every intent that carries
its key, and no request reuses a key that only the file has as ABORTED. -/
def Orderly (s : Service) (w : World) (op : Op) (_ : List Answer) : Prop :=
  match op with
  | .request (.create c key) => s.Admits w.store c key → (∀ e ∈ w.store.pending, e.sandboxID ≠ c.id) ∧
      (∀ e ∈ w.store.pending, e.idempotencyKey = key → e.method = .createSandbox) ∧ Remembers w.store key ∧
      w.store.disk.sandboxes.lookup c.id = none
  | .request (.cancelCreate c key) => Cancellable w.store c.id key
  | .request (.load id gen key) => Remembers w.store key ∧ ∀ f ∈ w.store.journal, f.phase = .intent →
      f.method = .createSandbox → f.sandboxID = id → f.generation = gen → Cancellable w.store id f.idempotencyKey
  | .request (.start _ _ key) | .request (.stop _ _ key) | .request (.delete _ _ key) => Remembers w.store key
  | .boot | .shutdown => True

theorem unaborted_op {op : Op} {as : List Answer} (hkeyed : w.store.Keyed) (hw : w.store.Unaborted)
    (hK : s.Orderly w op as) : Keeps E Store.Unaborted (op.program s) w := by
  cases op with
  | boot => exact (keeps_harmless harmless_boot hw).map
  | shutdown => exact (Keeps.of_reads reads_releaseIdlePool hw).map
  | request r =>
    cases r with
    | create c key => exact (unaborted_create hw fun h => ⟨(hK h).1, (hK h).2.1, (hK h).2.2.1⟩).map
    | load id gen key => exact (unaborted_load hkeyed hw hK.1 hK.2).map
    | start id gen key =>
      have h : Keeps E Store.Unaborted (start id gen key) w :=
        (since_transition (fun sb => acts_backend (by simp) (.refl sb)) (by decide) hkeyed hw hK).mono fun _ _ h => h.unaborted
      exact h.map
    | stop id gen key =>
      have h : Keeps E Store.Unaborted (stop id gen key) w :=
        (since_transition (fun sb => moves_stopFn (.refl sb)) (by decide) hkeyed hw hK).mono fun _ _ h => h.unaborted
      exact h.map
    | delete id gen key => exact (unaborted_delete hw hK).map
    | cancelCreate c key => exact (unaborted_cancelCreate hw hK).map

end Service

end Multikernel
