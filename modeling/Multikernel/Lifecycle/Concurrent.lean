import Multikernel.Lib.Threads
import Multikernel.Lifecycle.Requests
import Multikernel.Lifecycle.Runs
/-!
# Concurrent lifecycle requests

Every request is a thread: each call is one atomic step, and the mutexes decide
who waits. `Load`, `Start` and `Stop` hold the lock of their sandbox, `Create`,
`Delete` and `CancelCreate` the global one as well. The idempotency keys are
shared by all sandboxes, so no lock guards a key.

A request claims its key: it writes a result under it, with its fingerprint,
while it holds its locks (`Claim`). A load whose caller is gone cancels the
create of its sandbox and so claims the key of that create too. While any two
requests in flight that claim one key with different fingerprints share a lock,
no one writes under a key between the lookup of another request and its commit
(`Rely`), so a recorded result is never replaced by one of another operation.
-/

namespace Multikernel
open Lib

/-- The host under several requests. Each has a context of its own, so what one
learns from `ctx.Err()` says nothing about the others. -/
abbrev Serving : Machine HostI := ⟨World, Answer, fun w => step { w with ctx := none }⟩

def mutexes : Locking HostI Lock where
  takes
    | .env (.lock l) => some l
    | _ => none
  drops
    | .env (.unlock l) => some l
    | _ => none

abbrev HostShared := Shared Serving Lock

abbrev HostPool := Pool Serving Lock Request Outcome

/-- `Results[key]`. -/
def recorded (s : HostShared) (key : String) : Option IdempotentResult := s.world.store.data.results.lookup key

/-! ## Claims -/

/-- A key, the fingerprint it is written with, and the locks held meanwhile. -/
structure Claim where
  key : String
  fingerprint : Fingerprint
  locks : List Lock
  deriving DecidableEq

def Request.locks : Request → List Lock
  | .create c _ | .cancelCreate c _ => [.sandbox c.id, .global]
  | .delete id _ _ => [.sandbox id, .global]
  | .load id _ _ | .start id _ _ | .stop id _ _ => [.sandbox id]

/-- What a request claims by its own input. -/
def Request.claim (r : Request) : Claim := ⟨r.key, r.fingerprint, r.locks⟩

/-- What a create of `c`, and its cancellation, claims. -/
abbrev createClaim (c : SandboxConfig) (key : String) : Claim := ⟨key, .create c, [.sandbox c.id, .global]⟩

/-- What the cancellation of the create that `e` journals claims. -/
def JournalEntry.claim (e : JournalEntry) : Option Claim := e.sandbox.map fun sb => createClaim sb.config e.idempotencyKey

/-- The entry is the intent of the create of generation `gen` of sandbox `id`. -/
def JournalEntry.creates (id gen : String) (e : JournalEntry) : Bool :=
  e.method == .createSandbox && e.phase == .intent && e.sandboxID == id && e.sandbox.any fun sb => sb.generation == gen

/-- All that a request may claim, with `journal` as it is. -/
def Request.claims (r : Request) (journal : List JournalEntry) : List Claim :=
  r.claim :: match r with
    | .load id gen _ => (journal.filter (·.creates id gen)).filterMap (·.claim)
    | _ => []

theorem Request.claim_mem (r : Request) (journal : List JournalEntry) : r.claim ∈ r.claims journal := List.mem_cons_self

theorem Request.claims_subset (r : Request) {journal journal' : List JournalEntry} (h : journal ⊆ journal') :
    r.claims journal ⊆ r.claims journal' := by
  refine List.cons_subset_cons _ ?_
  cases r with
  | load id gen key => exact List.filterMap_subset _ (List.filter_subset _ h)
  | _ => exact List.Subset.refl _

/-- The two write different results under one key only with a lock in common. -/
def Claim.Agrees (a b : Claim) : Prop := a.key = b.key → a.fingerprint = b.fingerprint ∨ ∃ l ∈ a.locks, l ∈ b.locks

instance (a b : Claim) : Decidable (a.Agrees b) :=
  inferInstanceAs (Decidable (a.key = b.key → a.fingerprint = b.fingerprint ∨ ∃ l ∈ a.locks, l ∈ b.locks))

/-! ## What a step does to the results -/

/-- The key and the fingerprint a change records a result under. -/
def Change.binding : Change → Option (String × Fingerprint)
  | .commit _ key fp _ | .commitFailure _ key fp _ | .tombstone key fp _ | .abortCreate _ key fp _ => some (key, fp)
  | .setSandbox _ | .removeSandbox _ => none

theorem Change.results_cases (ch : Change) (d : Snapshot) (k : String) :
    (d.change ch).results.lookup k = d.results.lookup k ∨
      ∃ fp o, ch.binding = some (k, fp) ∧ (d.change ch).results.lookup k = some ⟨fp, o⟩ := by
  have hinsert (key : String) (fp : Fingerprint) (o : Except Error MutationResult) (hb : ch.binding = some (key, fp)) :
      (d.results.insert key ⟨fp, o⟩).lookup k = d.results.lookup k ∨
        ∃ fp' o', ch.binding = some (k, fp') ∧ (d.results.insert key ⟨fp, o⟩).lookup k = some ⟨fp', o'⟩ := by
    by_cases hk : k = key
    · subst hk
      exact .inr ⟨fp, o, hb, AList.lookup_insert _⟩
    · exact .inl (AList.lookup_insert_ne hk)
  cases ch with
  | commit sb key fp r =>
    simp only [Snapshot.change]
    split
    · exact hinsert key fp _ rfl
    · exact .inl rfl
  | commitFailure sb key fp failure | tombstone key fp failure | abortCreate id key fp failure => exact hinsert key fp _ rfl
  | setSandbox | removeSandbox => exact .inl rfl

/-- A result is recorded by a change that names it. -/
theorem recorded_cases (i : Nat) (s : HostShared) (c : Call) (a : Answer) (k : String) :
    recorded (s.step mutexes i c a).1 k = recorded s k ∨
      ∃ ch fp o, c = .store (.change ch) ∧ ch.binding = some (k, fp) ∧
        recorded (s.step mutexes i c a).1 k = some ⟨fp, o⟩ := by
  cases c with
  | store c =>
    cases c with
    | append e =>
      obtain ⟨-, -, hres, -⟩ := Store.append_cases s.world.store e a.time a.write
      exact .inl (congrArg (·.lookup k) hres)
    | change ch =>
      have hstep : recorded (s.step mutexes i (.store (.change ch)) a).1 k =
          (s.world.store.persist (s.world.store.data.change ch) a.write).1.data.results.lookup k := rfl
      rw [hstep]
      rcases Store.persist_cases s.world.store (s.world.store.data.change ch) a.write with ⟨e, _, hs, -⟩ | hs <;> rw [hs]
      · exact .inl rfl
      · exact (ch.results_cases s.world.store.data k).imp_right fun ⟨fp, o, hb, h⟩ => ⟨ch, fp, o, rfl, hb, h⟩
    | result | sandbox | snapshot | journalEntries => exact .inl rfl
  | env c => cases c <;> exact .inl rfl
  | _ => exact .inl rfl

/-- The journal only grows. -/
theorem journal_subset (i : Nat) (s : HostShared) (c : Call) (a : Answer) :
    s.world.store.journal ⊆ (s.step mutexes i c a).1.world.store.journal := by
  cases c with
  | store c =>
    cases c with
    | append e =>
      rcases (Store.append_cases s.world.store e a.time a.write).1 with ⟨-, hj⟩ | ⟨-, -, hj, -⟩
      · exact fun x hx => hj ▸ hx
      · exact fun x hx => hj ▸ List.mem_append_left _ hx
    | change ch =>
      have hstep : (s.step mutexes i (.store (.change ch)) a).1.world.store.journal =
          (s.world.store.persist (s.world.store.data.change ch) a.write).1.journal := rfl
      rw [hstep, Store.persist_journal]
      exact List.Subset.refl _
    | result | sandbox | snapshot | journalEntries => exact List.Subset.refl _
  | env c => cases c <;> exact List.Subset.refl _
  | _ => exact List.Subset.refl _

/-! ## Rely and guarantee -/

/-- Thread `i` holds the locks. -/
def Held (i : Nat) (locks : List Lock) (s : HostShared) : Prop := ∀ l ∈ locks, s.owner l = some i

/-- What is recorded, if anything, has fingerprint `fp`. -/
def Clear (fp : Fingerprint) (x : Option IdempotentResult) : Prop := ∀ y, x = some y → y.fingerprint = fp

/-- A result with fingerprint `fp` is recorded. -/
def Bound (fp : Fingerprint) (x : Option IdempotentResult) : Prop := ∃ o, x = some ⟨fp, o⟩

theorem Bound.clear {fp : Fingerprint} {x : Option IdempotentResult} (h : Bound fp x) : Clear fp x := by
  obtain ⟨o, rfl⟩ := h
  rintro _ ⟨⟩
  rfl

/-- No recorded result is replaced by one of another operation. -/
def Preserves (s s' : HostShared) : Prop := ∀ k fp, Bound fp (recorded s k) → Bound fp (recorded s' k)

/-- What the others do while request `r` runs as thread `i`. The storage
service's lock guards no key. -/
structure Rely (r : Request) (i : Nat) (s s' : HostShared) : Prop where
  owner : ∀ l, l ≠ .storage → (s'.owner l = some i ↔ s.owner l = some i)
  journal : s.world.store.journal ⊆ s'.world.store.journal
  bound : Preserves s s'
  claimed : ∀ cl ∈ r.claims s.world.store.journal, Held i cl.locks s →
    recorded s' cl.key = recorded s cl.key ∨ Bound cl.fingerprint (recorded s' cl.key)

/-- What a call of request `r`, thread `i`, does: it writes results under its
claims only, with their locks held and no other operation's result in the way,
and drops only its own locks. -/
structure Guarantee (r : Request) (i : Nat) (s : HostShared) (c : Call) (s' : HostShared) : Prop where
  drops : ∀ l, c = .env (.unlock l) → l ≠ .storage → s.owner l = some i
  journal : s.world.store.journal ⊆ s'.world.store.journal
  results : ∀ k, recorded s' k = recorded s k ∨ ∃ cl ∈ r.claims s.world.store.journal, cl.key = k ∧ Held i cl.locks s ∧
    Clear cl.fingerprint (recorded s k) ∧ Bound cl.fingerprint (recorded s' k)

section RelyGuarantee
variable {r r' : Request} {i j : Nat} {s s' s'' : HostShared}

theorem Request.ne_storage {cl : Claim} {journal : List JournalEntry} (h : cl ∈ r.claims journal) :
    ∀ l ∈ cl.locks, l ≠ .storage := by
  rcases List.mem_cons.1 h with rfl | h
  · intro l hl
    cases r <;> simp only [Request.claim, Request.locks, List.mem_cons, List.not_mem_nil, or_false] at hl
    all_goals rcases hl with rfl | rfl <;> exact fun h => by cases h
  · cases r with
    | load id gen key =>
      obtain ⟨e, -, he⟩ := List.mem_filterMap.1 h
      obtain ⟨sb, -, rfl⟩ := Option.map_eq_some_iff.1 he
      intro l hl
      simp only [List.mem_cons, List.not_mem_nil, or_false] at hl
      rcases hl with rfl | rfl <;> exact fun h => by cases h
    | _ => cases h

theorem Guarantee.preserves {c : Call} (h : Guarantee r i s c s') : Preserves s s' := by
  intro k fp hb
  rcases h.results k with hk | ⟨cl, -, rfl, -, hclear, hbound⟩
  · exact hk ▸ hb
  · obtain ⟨o, ho⟩ := hb
    -- What was there has the fingerprint of the claim.
    obtain rfl := hclear _ ho
    exact hbound

theorem Rely.refl (r : Request) (i : Nat) (s : HostShared) : Rely r i s s :=
  ⟨fun _ _ => .rfl, List.Subset.refl _, fun _ _ h => h, fun _ _ _ => .inl rfl⟩

theorem Rely.held {cl : Claim} (h : Rely r i s s') (hcl : cl ∈ r.claims s.world.store.journal) (hs : Held i cl.locks s) :
    Held i cl.locks s' :=
  fun l hl => (h.owner l (Request.ne_storage hcl l hl)).2 (hs l hl)

theorem Rely.trans (h : Rely r i s s') (h' : Rely r i s' s'') : Rely r i s s'' where
  owner l hl := (h'.owner l hl).trans (h.owner l hl)
  journal := List.Subset.trans h.journal h'.journal
  bound k fp hb := h'.bound k fp (h.bound k fp hb)
  claimed cl hcl hs := by
    rcases h'.claimed cl (r.claims_subset h.journal hcl) (h.held hcl hs) with h'eq | hb
    · rw [h'eq]
      exact h.claimed cl hcl hs
    · exact .inr hb

/-- What a request keeps, the others may rely on. -/
theorem rely_of_guarantee {c : Call} {a : Answer} (h : Guarantee r i s c (s.step mutexes i c a).1)
    (hfree : mutexes.Free s c) (hij : i ≠ j)
    (hagree : ∀ cl ∈ r.claims s.world.store.journal, ∀ cl' ∈ r'.claims s.world.store.journal, cl.Agrees cl') :
    Rely r' j s (s.step mutexes i c a).1 where
  owner l hl := by
    change mutexes.pass i s.owner c l = some j ↔ s.owner l = some j
    unfold Locking.pass
    split
    · -- The lock that is taken was free.
      rename_i htake
      have hnone : s.owner l = none := by simpa [Locking.Free, htake] using hfree
      simp [hnone, hij]
    · split
      · rename_i hdrop
        have hown : s.owner l = some i := by
          refine h.drops l ?_ hl
          unfold mutexes at hdrop
          simp only at hdrop
          split at hdrop
          · cases hdrop
            rfl
          · cases hdrop
        simp [hown, hij]
      · rfl
  journal := h.journal
  bound := h.preserves
  claimed cl' hcl' hheld' := by
    rcases h.results cl'.key with hk | ⟨cl, hcl, hkey, hheld, -, hbound⟩
    · exact .inl hk
    · rcases hagree cl hcl cl' hcl' hkey with hfp | ⟨l, hl, hl'⟩
      · exact .inr (hfp ▸ hbound)
      · -- Both hold `l`.
        exact absurd (Option.some.inj ((hheld l hl).symm.trans (hheld' l hl'))) hij

end RelyGuarantee

end Multikernel
