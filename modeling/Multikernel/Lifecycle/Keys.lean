import Multikernel.Lifecycle.Concurrent
/-!
# One key, one operation

Each request keeps its guarantee whatever the others do within its rely. From
that, in every interleaving in which requests in flight that claim one key for
different operations share a lock: a recorded result is never replaced by one of
another operation, and no two requests of different operations succeed under one
key.
-/

namespace Multikernel
open Lib
variable {id key gen : String} {fp : Fingerprint}

/-! ## Calls between the lookup and the unlock -/

/-- Calls that drop no lifecycle lock and record results only under `b`. -/
def Under (b : Option (String × Fingerprint)) : Call → Prop
  | .env (.lock l) | .env (.unlock l) => l = .storage
  | .store (.change ch) => ch.binding = none ∨ ch.binding = b
  | _ => True

section Under
variable {b : Option (String × Fingerprint)}

@[simp] theorem under_lock {l : Lock} : Under b (.env (.lock l)) ↔ l = .storage := Iff.rfl
@[simp] theorem under_unlock {l : Lock} : Under b (.env (.unlock l)) ↔ l = .storage := Iff.rfl
@[simp] theorem under_ctxErr : Under b (.env .ctxErr) := trivial
@[simp] theorem under_checkpoint {point : String} : Under b (.env (.checkpoint point)) := trivial
@[simp] theorem under_generation : Under b (.env .generation) := trivial
@[simp] theorem under_now : Under b (.env .now) := trivial
@[simp] theorem under_poolReady : Under b .poolReady := trivial
@[simp] theorem under_setPoolReady {ready : Bool} : Under b (.setPoolReady ready) := trivial
@[simp] theorem under_exports {c : ExportCall} : Under b (.exports c) := trivial
@[simp] theorem under_kerf {c : KerfCall} : Under b (.kerf c) := trivial
@[simp] theorem under_server {c : ServerCall} : Under b (.server c) := trivial
@[simp] theorem under_artifacts {c : ArtifactCall} : Under b (.artifacts c) := trivial
@[simp] theorem under_sandbox : Under b (.store (.sandbox id)) := trivial
@[simp] theorem under_snapshot : Under b (.store .snapshot) := trivial
@[simp] theorem under_journalEntries : Under b (.store .journalEntries) := trivial
@[simp] theorem under_append {e : JournalEntry} : Under b (.store (.append e)) := trivial
@[simp] theorem under_change {ch : Change} : Under b (.store (.change ch)) ↔ ch.binding = none ∨ ch.binding = b := Iff.rfl

@[simp] theorem under_ctx_err (ctx : Ctx) : Only (Under b) ctx.err := by
  cases ctx <;> simp [Ctx.err]

theorem Outside.under {c : Call} (h : Outside c) : Under b c := by
  cases h <;> first | rfl | trivial

theorem ActsOn.under {O : KerfOp → Prop} {σ : Sandbox} {c : Call} (h : ActsOn O σ c) : Under b c := by
  cases h with
  | acts h =>
    cases h with
    | aside h => exact h.under
    | act => trivial
  | setSandbox => exact .inl rfl

namespace Service
variable {s : Service} {key : String} {fp : Fingerprint} {method : Method} {intent : JournalEntry} {sb : Sandbox}

/-- The steps of an operation record nothing. -/
theorem Steps.under {O : KerfOp → Prop} {σ : Sandbox} {target : State} {p : Act (Sandbox × Option Err)}
    (h : Steps (ActsOn O σ) σ target p) : Only (Under b) p :=
  Emits.mono h (fun _ h => h.under) fun _ _ => trivial

theorem under_createFn (firstSandbox : Bool) (sb : Sandbox) : Only (Under b) (s.createFn firstSandbox sb) := by
  refine Emits.mono (steps_createFn (P := Under b) (.refl sb) (fun _ h => h.under) fun _ => ⟨?_, ?_⟩) (fun _ h => h) fun _ _ => trivial
  · simp [ensurePool, Option.forall]
  · simp [releasePool, Option.forall]

theorem under_setSandbox (sb : Sandbox) : Only (Under b) (store.setSandbox sb) := by
  simp [Change.binding]

/-! ### The rest of `mutate` and of a cancellation -/

theorem under_mutateFailed (e : Err) :
    Emits (Under (some (key, fp))) (mutateFailed method key fp intent sb e) fun r => ∃ e, r = .error e := by
  refine Only.bind (by simp) fun observed => ?_
  refine Emits.guard (by simp) (fun _ => ⟨_, rfl⟩) (Only.bind (by simp) fun t => ?_)
  refine Emits.guard ?_ (fun _ => ⟨_, rfl⟩) ⟨_, rfl⟩
  refine sat_ite.2 ⟨fun _ => by simp [Change.binding], fun _ => Sat.unless ?_ fun _ => under_setSandbox _⟩
  simp [Change.binding]

theorem under_mutateUnconfirmed : Emits (Under b) (mutateUnconfirmed intent sb) fun r => ∃ e, r = .error e := by
  refine Emits.guard (by simp) (fun _ => ⟨_, rfl⟩) ?_
  exact Emits.guard (under_setSandbox _) (fun _ => ⟨_, rfl⟩) ⟨_, rfl⟩

theorem under_cancelDependents (id : String) (state : State) (pending : List JournalEntry) :
    Only (Under b) (cancelDependents id state pending) := by
  induction pending with
  | nil => trivial
  | cons e rest ih =>
    refine Sat.unless ih fun _ => Sat.unless trivial fun _ => ?_
    exact Emits.guard (by simp) (fun _ => trivial) ih

theorem under_cancelResources (ctx : Ctx) (c : SandboxConfig) (sb : Sandbox) (failure : Error) :
    Only (Under (some (key, fp))) (s.cancelResources ctx c key fp sb failure) := by
  refine Only.bind (by simp) fun r => ?_
  cases r with
  | error e => trivial
  | ok actual =>
    refine Sat.unless trivial fun _ => Emits.bind (R := fun _ => True) ?_ fun r _ => ?_
    · exact Sat.unless ((s.apart_releaseStorage ctx sb).mono (fun _ h => h.under) fun _ _ => trivial) fun _ => trivial
    · obtain ⟨sb, _ | e⟩ := r
      · refine Emits.guard ?_ (fun _ => trivial) (Emits.guard (by simp [cancelPool, Option.forall]) (fun _ => trivial) ?_)
        · refine Sat.unless trivial fun _ => Emits.guard (by simp) (fun _ => trivial) ?_
          refine Only.bind (by simp) fun r => ?_
          split <;> trivial
        · exact Emits.guard (by simp [Change.binding]) (fun _ => trivial) trivial
      · trivial

end Service

end Under

/-! ## The rule of each call -/

abbrev Serves {α : Type} (r : Request) (i : Nat) (p : Act α) (s : HostShared × History HostI) (Q : α → HostShared → Prop) :
    Prop :=
  Amid (mutexes.trans (fun _ : HostShared => True) (fun _ _ _ => True) i) (fun s s' => Rely r i s.1 s'.1 ∧ s'.2 = s.2)
    (fun s c s' => Guarantee r i s.1 c s'.1) p s fun a s => Q a s.1

/-- What is known stays known while the others run. -/
def Lasting (r : Request) (i : Nat) (A : HostShared → Prop) : Prop := ∀ s s', A s → Rely r i s s' → A s'

/-- Request `r` has the claim `cl`, and holds the locks. -/
structure Has (r : Request) (i : Nat) (cl : Claim) (locks : List Lock) (s : HostShared) : Prop where
  claim : cl ∈ r.claims s.world.store.journal
  held : Held i locks s

/-- It holds the locks of the claim, and what is recorded under the key is in `P`. -/
structure Owns (r : Request) (i : Nat) (cl : Claim) (P : Option IdempotentResult → Prop) (s : HostShared) : Prop
    extends Has r i cl cl.locks s where
  recorded : P (recorded s cl.key)

/-- Properties of what is recorded that results of the operation keep, and others
do not have. -/
structure Settled (fp : Fingerprint) (P : Option IdempotentResult → Prop) : Prop where
  own : ∀ x, Bound fp x → P x
  clear : ∀ x, P x → Clear fp x

theorem settled_clear (fp : Fingerprint) : Settled fp (Clear fp) := ⟨fun _ h => h.clear, fun _ h => h⟩

theorem settled_bound (fp : Fingerprint) : Settled fp (Bound fp) := ⟨fun _ h => h, fun _ h => h.clear⟩

section Rules
variable {α : Type} {r : Request} {i : Nat} {s : HostShared × History HostI} {Q : α → HostShared → Prop} {cl : Claim}
  {locks : List Lock} {P : Option IdempotentResult → Prop}

theorem lasting_has (hl : ∀ l ∈ locks, l ≠ .storage) : Lasting r i (Has r i cl locks) := fun _ _ hs hR =>
  ⟨r.claims_subset hR.journal hs.claim, fun l h => (hR.owner l (hl l h)).2 (hs.held l h)⟩

theorem Has.lasting {s : HostShared} (hs : Has r i cl cl.locks s) : Lasting r i (Has r i cl cl.locks) :=
  lasting_has (Request.ne_storage hs.claim)

theorem lasting_owns (hP : Settled cl.fingerprint P) : Lasting r i (Owns r i cl P) := fun s s' hs hR => by
  refine ⟨lasting_has (Request.ne_storage hs.claim) s s' hs.toHas hR, ?_⟩
  rcases hR.claimed cl hs.claim hs.held with heq | hb
  · exact heq ▸ hs.recorded
  · exact hP.own _ hb

theorem serves_perform {A : HostShared → Prop} {c : Call} {f : c.Reply → Act α} (hs : A s.1) (hA : Lasting r i A)
    (h : ∀ s a h', A s → mutexes.Free s c → Guarantee r i s c (s.step mutexes i c a).1 ∧
      Serves r i (f (s.step mutexes i c a).2) ((s.step mutexes i c a).1, h') Q) :
    Serves r i (perform c >>= f) s Q := by
  refine amid_perform (A := fun s => A s.1) hs (fun s s' hs hR => hA s.1 s'.1 hs hR.1) ?_
  rintro s x ⟨s', h'⟩ hs ⟨-, hfree, a, -, hstep, -⟩
  have hnext := h s.1 a h' hs hfree
  rw [hstep] at hnext
  exact hnext

/-- A call that takes and drops no lifecycle lock leaves their owners. -/
theorem owner_of_under {b : Option (String × Fingerprint)} {c : Call} (hc : Under b c) (s : HostShared) (a : Answer) {l : Lock}
    (hl : l ≠ .storage) : (s.step mutexes i c a).1.owner l = s.owner l := by
  change mutexes.pass i s.owner c l = s.owner l
  cases c with
  | env c =>
    cases c with
    | lock m | unlock m =>
      obtain rfl := hc
      simp [Locking.pass, mutexes, hl.symm]
    | ctxErr | checkpoint | generation | now | hostCheck => rfl
  | _ => rfl

/-- A call that records nothing keeps the guarantee, and what the others rely
on. -/
theorem guarantee_of_idle {c : Call} (hc : Under none c) (s : HostShared) (a : Answer) :
    Guarantee r i s c (s.step mutexes i c a).1 ∧ Rely r i s (s.step mutexes i c a).1 := by
  have hsame (k : String) : recorded (s.step mutexes i c a).1 k = recorded s k := by
    refine (recorded_cases i s c a k).resolve_right ?_
    rintro ⟨ch, fp, o, rfl, hb, -⟩
    rcases hc with h | h <;> simp [h] at hb
  refine ⟨⟨?_, journal_subset i s c a, fun k => .inl (hsame k)⟩, ?_, journal_subset i s c a, ?_, fun cl _ _ => .inl (hsame _)⟩
  · rintro l rfl hl
    exact absurd hc hl
  · intro l hl
    rw [owner_of_under hc s a hl]
  · intro k fp hb
    rwa [hsame]

/-- A call that records under the claim of its request keeps the guarantee. -/
theorem Owns.step {c : Call} {s : HostShared} (hs : Owns r i cl P s) (hP : Settled cl.fingerprint P)
    (hc : Under (some (cl.key, cl.fingerprint)) c) (a : Answer) :
    Guarantee r i s c (s.step mutexes i c a).1 ∧ Owns r i cl P (s.step mutexes i c a).1 := by
  have hcases (k : String) : Multikernel.recorded (s.step mutexes i c a).1 k = Multikernel.recorded s k ∨
      cl.key = k ∧ Bound cl.fingerprint (Multikernel.recorded (s.step mutexes i c a).1 k) := by
    refine (recorded_cases i s c a k).imp_right ?_
    rintro ⟨ch, fp, o, rfl, hb, ho⟩
    rcases hc with h | h
    · simp [h] at hb
    · rw [h, Option.some.injEq, Prod.mk.injEq] at hb
      exact ⟨hb.1, o, hb.2 ▸ ho⟩
  refine ⟨⟨?_, journal_subset i s c a, fun k => (hcases k).imp_right ?_⟩, ⟨r.claims_subset (journal_subset i s c a) hs.claim, ?_⟩, ?_⟩
  · rintro l rfl hl
    exact absurd hc hl
  · rintro ⟨rfl, hb⟩
    exact ⟨cl, hs.claim, rfl, hs.held, hP.clear _ hs.recorded, hb⟩
  · intro l hl
    rw [owner_of_under hc s a (Request.ne_storage hs.claim l hl)]
    exact hs.held l hl
  · rcases hcases cl.key with heq | ⟨-, hb⟩
    · rw [heq]
      exact hs.recorded
    · exact hP.own _ hb

/-- A program that records nothing. -/
theorem serves_idle {p : Act α} {R : α → Prop} {A : HostShared → Prop} (hp : Emits (Under none) p R) (hs : A s.1)
    (hA : Lasting r i A) : Serves r i p s fun x s => R x ∧ A s := by
  refine Emits.amid (A := fun s : HostShared × History HostI => A s.1) hp hs (fun s s' hs hR => hA s.1 s'.1 hs hR.1) ?_
  rintro s c x ⟨s', h'⟩ hs hc ⟨-, -, a, -, hstep, -⟩
  obtain ⟨hG, hR⟩ := guarantee_of_idle (r := r) (i := i) hc s.1 a
  rw [hstep] at hG hR
  exact ⟨hG, hA _ _ hs hR⟩

/-- A program that records under its claim. -/
theorem serves_owned {p : Act α} {R : α → Prop} (hP : Settled cl.fingerprint P)
    (hp : Emits (Under (some (cl.key, cl.fingerprint))) p R) (hs : Owns r i cl P s.1) :
    Serves r i p s fun x s => R x ∧ Owns r i cl P s := by
  refine Emits.amid (A := fun s : HostShared × History HostI => Owns r i cl P s.1) hp hs
    (fun s s' hs hR => lasting_owns hP s.1 s'.1 hs hR.1) ?_
  rintro s c x ⟨s', h'⟩ hs hc ⟨-, -, a, -, hstep, -⟩
  have h := hs.step hP hc a
  rw [hstep] at h
  exact h

/-- A result recorded under the claim. -/
theorem serves_record {ch : Change} {f : Option Err → Act α} (hs : Owns r i cl (Clear cl.fingerprint) s.1)
    (hch : ∀ d : Snapshot, Bound cl.fingerprint ((d.change ch).results.lookup cl.key))
    (hb : ch.binding = some (cl.key, cl.fingerprint))
    (hfail : ∀ s e, Owns r i cl (Clear cl.fingerprint) s.1 → Serves r i (f (some e)) s Q)
    (hdone : ∀ s, Owns r i cl (Bound cl.fingerprint) s.1 → Serves r i (f none) s Q) :
    Serves r i (store.change ch >>= f) s Q := by
  refine serves_perform hs (lasting_owns (settled_clear _)) fun s a h' hs _ => ?_
  obtain ⟨hG, hs'⟩ := hs.step (settled_clear _) (c := .store (.change ch)) (.inr hb) a
  refine ⟨hG, ?_⟩
  have hreply : (s.step mutexes i (.store (.change ch)) a).2 = (s.world.store.persist (s.world.store.data.change ch) a.write).2 :=
    rfl
  have hworld : recorded (s.step mutexes i (.store (.change ch)) a).1 cl.key =
      (s.world.store.persist (s.world.store.data.change ch) a.write).1.data.results.lookup cl.key := rfl
  rcases Store.persist_cases s.world.store (s.world.store.data.change ch) a.write with ⟨e, _, hp, -⟩ | hp
  · rw [hreply, hp]
    exact hfail _ e hs'
  · rw [hreply, hp]
    refine hdone _ ⟨hs'.toHas, ?_⟩
    rw [hworld, hp]
    exact hch _

/-- How a program ends that holds the locks: if it succeeded, the result of the
claim is recorded. -/
structure Ends (r : Request) (i : Nat) (cl : Claim) (locks : List Lock) (ok : Prop) (s : HostShared) : Prop
    extends Has r i cl locks s where
  bound : ok → Bound cl.fingerprint (recorded s cl.key)

theorem Owns.ends {s : HostShared} (hs : Owns r i cl (Bound cl.fingerprint) s) (ok : Prop) : Ends r i cl cl.locks ok s :=
  ⟨hs.toHas, fun _ => hs.recorded⟩

theorem Has.fails {s : HostShared} {ok : Prop} (hs : Has r i cl locks s) (hok : ¬ok) : Ends r i cl locks ok s :=
  ⟨hs, fun h => absurd h hok⟩

theorem serves_withLock {m : Lock} {p : Act α} {ok : α → Prop} (hm : m ≠ .storage) (hnew : m ∉ locks)
    (hl : ∀ l ∈ locks, l ≠ .storage) (hs : Has r i cl locks s.1)
    (h : ∀ s, Has r i cl (m :: locks) s.1 → Serves r i p s fun x s => Ends r i cl (m :: locks) (ok x) s) :
    Serves r i (withLock m p) s fun x s => Ends r i cl locks (ok x) s := by
  have hpass {s : HostShared} {l : Lock} (hlock : l ∈ locks) (c : Call) (hc : c = .env (.lock m) ∨ c = .env (.unlock m)) :
      mutexes.pass i s.owner c l = s.owner l := by
    have hne : m ≠ l := fun h => hnew (h ▸ hlock)
    rcases hc with rfl | rfl <;> simp [Locking.pass, mutexes, hne]
  have hG {s : HostShared} {c : Call} {a : Answer} (hc : c = .env (.lock m) ∨ c = .env (.unlock m))
      (hown : c = .env (.unlock m) → s.owner m = some i) : Guarantee r i s c (s.step mutexes i c a).1 := by
    refine ⟨?_, journal_subset i s c a, fun k => .inl ?_⟩
    · rintro l rfl -
      rcases hc with h | h
      · cases h
      · cases h
        exact hown rfl
    · rcases hc with rfl | rfl <;> rfl
  refine serves_perform hs (lasting_has hl) fun s a h' hs _ => ⟨hG (.inl rfl) fun h => (by cases h), ?_⟩
  refine (h _ ⟨r.claims_subset (journal_subset i s _ a) hs.claim, ?_⟩).bind fun x s hs => ?_
  · intro l hl
    change mutexes.pass i s.owner (.env (.lock m)) l = some i
    rcases List.mem_cons.1 hl with rfl | hl
    · simp [Locking.pass, mutexes]
    · rw [hpass hl _ (.inl rfl)]
      exact hs.held l hl
  · have hlasting : Lasting r i (Ends r i cl (m :: locks) (ok x)) := fun s s' hs hR =>
      ⟨lasting_has (List.forall_mem_cons.2 ⟨hm, hl⟩) s s' hs.toHas hR, fun hok => hR.bound _ _ (hs.bound hok)⟩
    refine serves_perform hs hlasting fun s a h' hs _ => ⟨hG (.inr rfl) fun _ => hs.held m List.mem_cons_self, ?_⟩
    refine ⟨⟨r.claims_subset (journal_subset i s _ a) hs.claim, fun l hl => ?_⟩, hs.bound⟩
    change mutexes.pass i s.owner (.env (.unlock m)) l = some i
    rw [hpass hl _ (.inr rfl)]
    exact hs.held l (List.mem_cons_of_mem _ hl)

theorem serves_result {f : Option IdempotentResult → Act α} (hl : ∀ l ∈ locks, l ≠ .storage)
    (hs : Has r i cl locks s.1) (h : ∀ s, Has r i cl locks s.1 → Serves r i (f (recorded s.1 key)) s Q) :
    Serves r i (store.result key >>= f) s Q := by
  refine serves_perform hs (lasting_has hl) fun s a h' hs _ => ?_
  obtain ⟨hG, hR⟩ := guarantee_of_idle (r := r) (i := i) (c := .store (.result key)) trivial s a
  exact ⟨hG, h (_, h') (lasting_has hl _ _ hs hR)⟩

theorem serves_journalEntries {f : Except Err (List JournalEntry) → Act α} (hl : ∀ l ∈ locks, l ≠ .storage)
    (hs : Has r i cl locks s.1) (herr : ∀ s e, Has r i cl locks s.1 → Serves r i (f (.error e)) s Q)
    (hok : ∀ s, Has r i cl locks s.1 → Serves r i (f (.ok s.1.world.store.journal)) s Q) :
    Serves r i (store.journalEntries >>= f) s Q := by
  refine serves_perform hs (lasting_has hl) fun s a h' hs _ => ?_
  obtain ⟨hG, hR⟩ := guarantee_of_idle (r := r) (i := i) (c := .store .journalEntries) trivial s a
  have hs' := lasting_has hl _ _ hs hR
  refine ⟨hG, ?_⟩
  have hreply : (s.step mutexes i (.store .journalEntries) a).2 = (s.world.store.call a.time a.write a.err .journalEntries).2 :=
    rfl
  rw [hreply]
  rcases Store.journalEntries_reply s.world.store a.time a.write a.err with h | ⟨e, h⟩ <;> rw [h]
  · exact hok (_, h') hs'
  · exact herr (_, h') e hs'

/-- The lookup of the key: a recorded success is the operation's own. -/
theorem serves_lookup (hl : ∀ l ∈ locks, l ≠ .storage) (hs : Has r i cl locks s.1) :
    Serves r i (Service.replay cl.key cl.fingerprint) s fun x s => Ends r i cl locks (∃ y, x = some (.ok y)) s ∧
      (x = none → cl.key ≠ "" ∧ recorded s cl.key = none) := by
  have hfail {e : Error} {s : HostShared} (hs : Has r i cl locks s) :
      Ends r i cl locks (∃ y, some (.error e : Response) = some (.ok y)) s ∧
        (some (.error e : Response) = none → cl.key ≠ "" ∧ recorded s cl.key = none) :=
    ⟨hs.fails fun h => (by simp at h), fun h => by cases h⟩
  unfold Service.replay
  split
  · exact hfail hs
  · rename_i hkey
    refine serves_result hl hs fun s hs => ?_
    cases hrec : recorded s.1 cl.key with
    | none =>
      refine ⟨hs.fails fun h => (by simp at h), fun _ => ⟨?_, hrec⟩⟩
      rintro h
      simp [h, printableASCII] at hkey
    | some old =>
      refine amid_ite (fun _ => hfail hs) fun hfp => ⟨⟨hs, fun _ => ⟨old.outcome, ?_⟩⟩, fun h => by cases h⟩
      rw [hrec, ← not_not.1 hfp]

theorem serves_replay {f : Option Response → Act α} (hk : cl.key = key) (hfp : cl.fingerprint = fp)
    (hl : ∀ l ∈ locks, l ≠ .storage) (hs : Has r i cl locks s.1)
    (hsome : ∀ s x, Ends r i cl locks (∃ y, x = .ok y) s.1 → Serves r i (f (some x)) s Q)
    (hnone : ∀ s, Has r i cl locks s.1 → cl.key ≠ "" → recorded s.1 cl.key = none → Serves r i (f none) s Q) :
    Serves r i (Service.replay key fp >>= f) s Q := by
  subst hk hfp
  refine (serves_lookup hl hs).bind fun x s hs => ?_
  cases x with
  | none => exact hnone s hs.1.toHas (hs.2 rfl).1 (hs.2 rfl).2
  | some x =>
    refine hsome s x ⟨hs.1.toHas, ?_⟩
    rintro ⟨y, rfl⟩
    exact hs.1.bound ⟨y, rfl⟩

end Rules

/-! ## Each request -/

namespace Service
variable {sv : Service} {r : Request} {i : Nat} {s : HostShared × History HostI} {cl : Claim} {method : Method}
  {intent : JournalEntry} {sb : Sandbox} {b : Option (String × Fingerprint)}

theorem serves_mutateConfirmed (hkey : cl.key ≠ "") (hs : Owns r i cl (Clear cl.fingerprint) s.1) :
    Serves r i (mutateConfirmed cl.key cl.fingerprint intent sb) s fun x s => Ends r i cl cl.locks (∃ y, x = .ok y) s := by
  have hclear := settled_clear cl.fingerprint
  have hfail {s : HostShared} {e : Error} (hs : Has r i cl cl.locks s) :
      Ends r i cl cl.locks (∃ y, (.error e : Response) = .ok y) s :=
    hs.fails fun ⟨_, h⟩ => by cases h
  unfold mutateConfirmed
  refine (serves_owned (R := fun _ => True) hclear (by simp) hs).guard (fun _ _ hs => hfail hs.2.toHas) fun s hs => ?_
  refine (serves_owned (R := fun _ => True) hclear (by simp) hs.2).bind fun t s hs => ?_
  refine (serves_owned (R := fun _ => True) hclear (by simp) hs.2).guard (fun _ _ hs => hfail hs.2.toHas) fun s hs => ?_
  refine serves_record hs.2 (fun d => ?_) rfl (fun _ _ hs => hfail hs.toHas) fun s hs => ?_
  · rw [Snapshot.change, if_pos hkey]
    exact ⟨_, AList.lookup_insert _⟩
  · -- The result is recorded: whatever the rest returns, it stays.
    refine (serves_owned (R := fun _ => True) (settled_bound cl.fingerprint) ?_ hs).mono fun _ _ h => h.2.ends _
    simp [Option.forall]

theorem serves_mutateEnded (hkey : cl.key ≠ "") (x : Sandbox × Option Err) (hs : Owns r i cl (Clear cl.fingerprint) s.1) :
    Serves r i (mutateEnded method cl.key cl.fingerprint intent x) s fun x s =>
      Ends r i cl cl.locks (∃ y, x = .ok y) s := by
  have hclear := settled_clear cl.fingerprint
  have hfail {x : Response} {s : HostShared} (hs : (∃ e, x = .error e) ∧ Owns r i cl (Clear cl.fingerprint) s) :
      Ends r i cl cl.locks (∃ y, x = .ok y) s := by
    obtain ⟨⟨e, rfl⟩, hs⟩ := hs
    exact hs.toHas.fails fun ⟨_, h⟩ => by cases h
  obtain ⟨sb, _ | e⟩ := x
  · refine (serves_owned (R := fun _ => True) hclear (by simp) hs).guard (fun _ _ hs => hfail ⟨⟨_, rfl⟩, hs.2⟩) fun s hs => ?_
    refine (serves_owned (R := fun _ => True) hclear (by simp) hs.2).bind fun actual s hs => ?_
    cases actual with
    | error e => exact (serves_owned hclear under_mutateUnconfirmed hs.2).mono fun _ _ => hfail
    | ok actual =>
      refine amid_ite (fun _ => serves_mutateConfirmed hkey hs.2) fun _ => ?_
      exact (serves_owned hclear under_mutateUnconfirmed hs.2).mono fun _ _ => hfail
  · exact (serves_owned hclear (under_mutateFailed e) hs).mono fun _ _ => hfail

theorem serves_mutate {fn : Sandbox → Act (Sandbox × Option Err)} (hk : cl.key = key) (hfp : cl.fingerprint = fp)
    (hfn : Only (Under (some (key, fp))) (fn sb)) (hs : Has r i cl cl.locks s.1) :
    Serves r i (mutate method key fp sb fn) s fun x s => Ends r i cl cl.locks (∃ y, x = .ok y) s := by
  subst hk hfp
  have hclear := settled_clear cl.fingerprint
  have hfail {s : HostShared} {e : Error} (hs : Has r i cl cl.locks s) :
      Ends r i cl cl.locks (∃ y, (.error e : Response) = .ok y) s :=
    hs.fails fun ⟨_, h⟩ => by cases h
  unfold mutate
  refine serves_replay rfl rfl (Request.ne_storage hs.claim) hs (fun s x hs => hs) fun s hs hkey hnone => ?_
  have hown : Owns r i cl (Clear cl.fingerprint) s.1 := ⟨hs, fun y hy => by rw [hnone] at hy; cases hy⟩
  refine (serves_owned (R := fun _ => True) hclear (by simp) hown).bind fun op s hs => ?_
  unfold mutateAs mutateJournaled
  refine (serves_owned (R := fun _ => True) hclear (by simp) hs.2).guard (fun _ _ hs => hfail hs.2.toHas) fun s hs => ?_
  refine (serves_owned (R := fun _ => True) hclear (by simp) hs.2).guard (fun _ _ hs => hfail hs.2.toHas) fun s hs => ?_
  refine (serves_owned (R := fun _ => True) hclear (by simp) hs.2).guard (fun _ _ hs => hfail hs.2.toHas) fun s hs => ?_
  refine (serves_owned (R := fun _ => True) hclear (by simp) hs.2).guard (fun _ _ hs => hfail hs.2.toHas) fun s hs => ?_
  exact (serves_owned hclear hfn hs.2).bind fun x s hs => serves_mutateEnded hkey x hs.2

/-! ### Cancellation -/

section Cancel
variable {ctx : Ctx} {c : SandboxConfig}

theorem serves_tombstone {failure : Error} {f : Option Err → Act (Option Error)}
    (hs : Owns r i cl (Clear cl.fingerprint) s.1)
    (hfail : ∀ e, ∃ x, f (some e) = return some x)
    (hdone : ∀ s, Owns r i cl (Bound cl.fingerprint) s.1 →
      Serves r i (f none) s fun x s => Ends r i cl cl.locks (x = none) s) :
    Serves r i (store.tombstone cl.key cl.fingerprint failure >>= f) s fun x s => Ends r i cl cl.locks (x = none) s := by
  refine serves_record hs (fun d => ⟨_, AList.lookup_insert _⟩) rfl (fun s e hs => ?_) hdone
  obtain ⟨x, hx⟩ := hfail e
  rw [hx]
  exact hs.toHas.fails fun h => by cases h

theorem serves_cancelOwned (entries : List JournalEntry) (completed : Bool) (sb : Sandbox)
    (hs : Owns r i cl (Clear cl.fingerprint) s.1) :
    Serves r i (sv.cancelOwned ctx c cl.key cl.fingerprint entries intent completed sb) s fun x s =>
      Ends r i cl cl.locks (x = none) s := by
  have hclear := settled_clear cl.fingerprint
  have hfail {s : HostShared} {e : Error} (hs : Has r i cl cl.locks s) : Ends r i cl cl.locks (some e = none) s :=
    hs.fails fun h => by cases h
  unfold cancelOwned
  refine amid_ite (fun _ => hfail hs.toHas) fun _ => ?_
  refine (serves_owned (R := fun _ => True) hclear (by simp) hs).guard (fun _ _ hs => hfail hs.2.toHas) fun s hs => ?_
  refine (serves_owned hclear (under_cancelDependents _ _ _) hs.2).guard (fun _ _ hs => hfail hs.2.toHas) fun s hs => ?_
  refine serves_tombstone hs.2 (fun e => ⟨_, rfl⟩) fun s hs => ?_
  exact (serves_owned (settled_bound _) (under_cancelResources _ _ _ _) hs).mono fun _ _ h => h.2.ends _

theorem serves_cancelCreateLocked (hk : cl.key = key) (hfp : cl.fingerprint = fp) (hs : Has r i cl cl.locks s.1) :
    Serves r i (sv.cancelCreateLocked ctx c key fp) s fun x s => Ends r i cl cl.locks (x = none) s := by
  subst hk hfp
  have hclear := settled_clear cl.fingerprint
  have hfail {s : HostShared} {e : Error} (hs : Has r i cl cl.locks s) : Ends r i cl cl.locks (some e = none) s :=
    hs.fails fun h => by cases h
  have hlocks := Request.ne_storage hs.claim
  unfold cancelCreateLocked
  refine serves_result hlocks hs fun s hs => amid_ite (fun _ => hfail hs) fun hprevious => ?_
  have hown : Owns r i cl (Clear cl.fingerprint) s.1 := by
    refine ⟨hs, fun y hy => ?_⟩
    rw [hy] at hprevious
    simpa using hprevious
  refine (serves_owned (R := fun _ => True) hclear (by simp) hown).bind fun entries s hs => ?_
  cases entries with
  | error e => exact hfail hs.2.toHas
  | ok entries =>
    cases hscan : scanCreate c cl.key cl.fingerprint entries none false with
    | none =>
      simp only [hscan]
      exact hfail hs.2.toHas
    | some found =>
      obtain ⟨found, completed⟩ := found
      simp only [hscan]
      refine (serves_owned (R := fun _ => True) hclear (by simp) hs.2).bind fun stored s hs => ?_
      cases found with
      | none =>
        cases stored with
        | none => exact serves_tombstone hs.2 (fun e => ⟨_, rfl⟩) fun s hs => hs.ends _
        | some sb => exact hfail hs.2.toHas
      | some intent =>
        cases stored with
        | none =>
          cases hsb : intent.sandbox with
          | none =>
            simp only [hsb]
            exact hfail hs.2.toHas
          | some sb =>
            simp only [hsb]
            exact serves_cancelOwned entries completed sb hs.2
        | some sb => exact amid_ite (fun _ => hfail hs.2.toHas) fun _ => serves_cancelOwned entries completed sb hs.2

/-- The cancellation of the create of `c`, which claims its key. -/
theorem serves_cancelCreate (hs : Has r i (createClaim c key) [] s.1) :
    Serves r i (sv.cancelCreate ctx c key) s fun x s => Ends r i (createClaim c key) [] (x = none) s := by
  unfold cancelCreate
  refine amid_ite (fun _ => hs.fails fun h => by cases h) fun _ => ?_
  refine serves_withLock (by simp) (by simp) (by simp) hs fun s hs => ?_
  refine serves_withLock (by simp) (by simp) (by simp) hs fun s hs => ?_
  exact serves_cancelCreateLocked rfl rfl hs

end Cancel

/-! ### Create -/

theorem serves_createAdmitted {c : SandboxConfig} (firstSandbox : Bool) (sb : Sandbox)
    (hs : Has r i (createClaim c key) (createClaim c key).locks s.1) :
    Serves r i (sv.createAdmitted c key firstSandbox sb) s fun x s =>
      Ends r i (createClaim c key) (createClaim c key).locks (∃ y, x = .ok y) s := by
  have hfail {s : HostShared} {e : Error} (hs : Has r i (createClaim c key) (createClaim c key).locks s) :
      Ends r i (createClaim c key) (createClaim c key).locks (∃ y, (.error e : Response) = .ok y) s :=
    hs.fails fun ⟨_, h⟩ => by cases h
  unfold createAdmitted
  refine (serves_mutate rfl rfl (under_createFn firstSandbox sb) hs).bind fun x s hs => ?_
  cases x with
  | ok y => exact hs
  | error apiErr =>
    refine (serves_idle (under_ctx_err .request) hs.toHas hs.toHas.lasting).guard (fun e s hs => ?_) fun s hs => hfail hs.2
    exact (serves_cancelCreateLocked rfl rfl hs.2).guard (fun _ s hs => hfail hs.toHas) fun s hs => hfail hs.toHas

theorem serves_create {c : SandboxConfig} (hs : Has r i (createClaim c key) [] s.1) :
    Serves r i (sv.create c key) s fun x s => Ends r i (createClaim c key) [] (∃ y, x = .ok y) s := by
  have hfail {locks : List Lock} {s : HostShared} {e : Error} (hs : Has r i (createClaim c key) locks s) :
      Ends r i (createClaim c key) locks (∃ y, (.error e : Response) = .ok y) s :=
    hs.fails fun ⟨_, h⟩ => by cases h
  unfold create
  cases sv.validateCreate c with
  | some e => exact hfail hs
  | none =>
    refine (serves_idle ((sv.apart_checkArtifacts c).imp (fun _ h => h.under)) hs (lasting_has (by simp))).guard (fun e s hs => hfail hs.2) fun s hs => ?_
    refine serves_withLock (by simp) (by simp) (by simp) hs.2 fun s hs => ?_
    refine serves_replay rfl rfl (by simp) hs (fun s x hs => hs) fun s hs _ _ => ?_
    refine serves_withLock (by simp) (by simp) (by simp) hs fun s hs => ?_
    unfold createLocked
    have hlasting := Has.lasting hs
    refine (serves_idle (R := fun _ => True) (by simp) hs hlasting).bind fun existing s hs => ?_
    refine (serves_idle (R := fun _ => True) (by simp) hs.2 hlasting).bind fun d s hs => ?_
    cases sv.admission c existing d with
    | some e => exact hfail hs.2
    | none =>
      refine (serves_idle (R := fun _ => True) (by simp) hs.2 hlasting).bind fun g s hs => ?_
      cases g with
      | error e => exact hfail hs.2
      | ok g =>
        refine (serves_idle (R := fun _ => True) (by simp) hs.2 hlasting).bind fun t s hs => ?_
        exact serves_createAdmitted _ _ hs.2

/-! ### Load, start, stop -/

abbrev targetClaim (method : Method) (id gen key : String) : Claim := ⟨key, .target method id gen, [.sandbox id]⟩

theorem serves_transition {source : List State} {intermediate : Option State} {target : State}
    {fn : Sandbox → Act (Option Err)} (hfn : ∀ sb, Only (Moves sb) (fn sb))
    (hs : Has r i (targetClaim method id gen key) [] s.1) :
    Serves r i (transition id gen key method source intermediate target fn) s fun x s =>
      Ends r i (targetClaim method id gen key) [] (∃ y, x = .ok y) s := by
  have hfail {s : HostShared} {e : Error}
      (hs : Has r i (targetClaim method id gen key) (targetClaim method id gen key).locks s) :
      Ends r i (targetClaim method id gen key) (targetClaim method id gen key).locks (∃ y, (.error e : Response) = .ok y) s :=
    hs.fails fun ⟨_, h⟩ => by cases h
  unfold transition
  refine serves_withLock (by simp) (by simp) (by simp) hs fun s hs => ?_
  have hlasting := Has.lasting hs
  refine (serves_idle (R := fun _ => True) (by simp) hs hlasting).bind fun stored s hs => ?_
  cases stored with
  | none => exact hfail hs.2
  | some sb =>
    unfold transitionFrom
    refine amid_ite (fun _ => hfail hs.2) fun _ => ?_
    refine serves_replay rfl rfl (Request.ne_storage hs.2.claim) hs.2 (fun s x hs => hs) fun s hs _ _ => ?_
    refine amid_ite (fun _ => ?_) fun _ => amid_ite (fun _ => hfail hs) fun _ => ?_
    · refine serves_mutate rfl rfl ?_ hs
      trivial
    · exact serves_mutate rfl rfl (steps_transitionFn (hfn sb) (.refl sb)).under hs

/-- A cancelled load claims the key of the create it cancels. -/
theorem serves_cancelLoaded (hs : Has (.load id gen key) i (targetClaim .loadSandbox id gen key) [] s.1) :
    Serves (.load id gen key) i (sv.cancelLoaded id gen) s fun _ s =>
      Has (.load id gen key) i (targetClaim .loadSandbox id gen key) [] s := by
  unfold cancelLoaded
  refine serves_journalEntries (by simp) hs (fun _ _ hs => hs) fun s hs => ?_
  cases hfind : findCreate id gen s.1.world.store.journal with
  | none =>
    simp only [hfind]
    exact hs
  | some create =>
    simp only [hfind]
    cases hsb : create.sandbox with
    | none => exact hs
    | some sandbox =>
      -- The intent it found is in the journal, so the load has its claim.
      have hclaim : createClaim sandbox.config create.idempotencyKey ∈
          (Request.load id gen key).claims s.1.world.store.journal := by
        refine List.mem_cons_of_mem _ (List.mem_filterMap.2 ⟨create, List.mem_filter.2 ⟨?_, ?_⟩, ?_⟩)
        · exact List.mem_reverse.1 (List.mem_of_find?_eq_some hfind)
        · exact List.find?_some hfind
        · rw [JournalEntry.claim, hsb]
          rfl
      have hback {s : HostShared} (hs : Has (.load id gen key) i (createClaim sandbox.config create.idempotencyKey) [] s) :
          Has (.load id gen key) i (targetClaim .loadSandbox id gen key) [] s :=
        ⟨Request.claim_mem _ _, hs.held⟩
      exact Amid.guard (serves_cancelCreate ⟨hclaim, hs.held⟩) (fun _ s hs => hback hs.toHas) fun s hs => hback hs.toHas

theorem serves_load (hs : Has (.load id gen key) i (targetClaim .loadSandbox id gen key) [] s.1) :
    Serves (.load id gen key) i (sv.load id gen key) s fun x s =>
      Ends (.load id gen key) i (targetClaim .loadSandbox id gen key) [] (∃ y, x = .ok y) s := by
  unfold Service.load
  refine (serves_transition (fun sb => moves_loadFn (.refl sb)) hs).bind fun x s hs => ?_
  cases x with
  | ok y => exact hs
  | error apiErr =>
    have hfail {s : HostShared} {e : Error} (hs : Has (.load id gen key) i (targetClaim .loadSandbox id gen key) [] s) :
        Ends (.load id gen key) i (targetClaim .loadSandbox id gen key) [] (∃ y, (.error e : Response) = .ok y) s :=
      hs.fails fun ⟨_, h⟩ => by cases h
    refine (serves_idle (under_ctx_err .request) hs.toHas (lasting_has (by simp))).guard (fun e s hs => ?_) fun s hs => hfail hs.2
    exact (serves_cancelLoaded hs.2).guard (fun _ s hs => hfail hs) fun s hs => hfail hs

/-! ### Delete -/

theorem serves_delete (hs : Has (.delete id gen key) i (Request.delete id gen key).claim [] s.1) :
    Serves (.delete id gen key) i (sv.delete id gen key) s fun x s =>
      Ends (.delete id gen key) i (Request.delete id gen key).claim [] (∃ y, x = .ok y) s := by
  have hfail {locks : List Lock} {s : HostShared} {e : Error}
      (hs : Has (.delete id gen key) i (Request.delete id gen key).claim locks s) :
      Ends (.delete id gen key) i (Request.delete id gen key).claim locks (∃ y, (.error e : Response) = .ok y) s :=
    hs.fails fun ⟨_, h⟩ => by cases h
  unfold Service.delete
  refine serves_withLock (by simp) (by simp) (by simp) hs fun s hs => ?_
  refine serves_withLock (by simp) (by simp) (by simp) hs fun s hs => ?_
  refine serves_replay rfl rfl (by simp) hs (fun s x hs => hs) fun s hs _ _ => ?_
  refine (serves_idle (R := fun _ => True) (by simp) hs (lasting_has (by simp))).bind fun stored s hs => ?_
  cases stored with
  | none => exact hfail hs.2
  | some sb => exact amid_ite (fun _ => hfail hs.2) fun _ => serves_mutate rfl rfl (steps_deleteFn (.refl sb)).under hs.2

end Service

/-! ## Every interleaving -/

def Outcome.success : Outcome → Bool
  | .response (.ok _) | .cancelled none => true
  | _ => false

/-- A request that succeeds leaves a result of its own under its key. -/
def Answered (r : Request) (x : Outcome) (s : HostShared) : Prop := x.success → Bound r.fingerprint (recorded s r.key)

theorem serves_request (sv : Service) (r : Request) (i : Nat) (s : HostShared) :
    Serves r i (r.program sv) (s, []) (Answered r) := by
  have hs : Has r i r.claim [] s := ⟨r.claim_mem _, fun _ h => by cases h⟩
  have hresponse {x : Response} {s : HostShared} (h : Ends r i r.claim [] (∃ y, x = .ok y) s) : Answered r (.response x) s := by
    intro hx
    refine h.bound ?_
    cases x with
    | ok y => exact ⟨y, rfl⟩
    | error e => cases hx
  cases r with
  | create c key => exact (Service.serves_create hs).bind fun _ _ => hresponse
  | load id gen key => exact (Service.serves_load hs).bind fun _ _ => hresponse
  | start id gen key => exact (Service.serves_transition (fun sb => Service.acts_backend (by simp) (.refl sb)) hs).bind fun _ _ => hresponse
  | stop id gen key => exact (Service.serves_transition (fun sb => Service.moves_stopFn (.refl sb)) hs).bind fun _ _ => hresponse
  | delete id gen key => exact (Service.serves_delete hs).bind fun _ _ => hresponse
  | cancelCreate c key =>
    refine (Service.serves_cancelCreate hs).bind fun x s h hx => h.bound ?_
    cases x with
    | none => rfl
    | some e => cases hx

/-- The condition on an event: any two requests in flight agree on the keys they
claim. -/
def Agreeing (s : HostPool) (_ : Event Serving Request) : Prop :=
  s.threads.Pairwise fun t t' => t.live → t'.live →
    ∀ cl ∈ t.op.claims s.shared.world.store.journal, ∀ cl' ∈ t'.op.claims s.shared.world.store.journal, cl.Agrees cl'

instance (s : HostPool) (e : Event Serving Request) : Decidable (Agreeing s e) :=
  inferInstanceAs (Decidable (List.Pairwise _ _))

theorem Claim.Agrees.symm {a b : Claim} (h : a.Agrees b) : b.Agrees a := fun hkey =>
  (h hkey.symm).imp Eq.symm fun ⟨l, hl, hl'⟩ => ⟨l, hl', hl⟩

theorem Agreeing.apart {s : HostPool} {e : Event Serving Request} (h : Agreeing s e) {i j : Nat}
    {t t' : Thread HostI Request Outcome} (hi : s.threads[i]? = some t) (hj : s.threads[j]? = some t') (hlive : t.live)
    (hlive' : t'.live) (hij : i ≠ j) :
    ∀ cl ∈ t.op.claims s.shared.world.store.journal, ∀ cl' ∈ t'.op.claims s.shared.world.store.journal, cl.Agrees cl' := by
  obtain ⟨hi', rfl⟩ := List.getElem?_eq_some_iff.1 hi
  obtain ⟨hj', rfl⟩ := List.getElem?_eq_some_iff.1 hj
  intro cl hcl cl' hcl'
  rcases Nat.lt_or_gt_of_ne hij with hlt | hlt
  · exact List.pairwise_iff_getElem.1 h i j hi' hj' hlt hlive hlive' cl hcl cl' hcl'
  · exact (List.pairwise_iff_getElem.1 h j i hj' hi' hlt hlive' hlive cl' hcl' cl hcl).symm

/-- The proof of every interleaving. -/
def Service.keyDiscipline (sv : Service) : RelyGuarantee Serving mutexes (Request.program sv) where
  cond := Agreeing
  J _ := True
  Inv _ := True
  E _ _ _ := True
  R := Rely
  G r i s c s' := Guarantee r i s.1 c s'
  Q := Answered
  R_refl := Rely.refl
  R_trans _ _ _ _ _ := Rely.trans
  proof r i s _ := serves_request sv r i s
  cond_answer _ _ _ _ _ _ _ _ _ := trivial
  inv_turn _ _ _ _ := trivial
  J_step _ _ _ _ _ _ _ _ := trivial
  Q_step _ _ _ _ _ _ _ _ _ hG hQ hx := hG.preserves _ _ (hQ hx)
  rely := by
    intro s i j a r made c k t _ _ hcond hi hj hlive hij hfree hG
    exact rely_of_guarantee hG hfree hij (hcond.apart hi hj rfl hlive hij)

/-- The requests are served by threads. -/
def Service.serve (sv : Service) : HostPool → Event Serving Request → HostPool := Pool.turn mutexes (Request.program sv)

/-- The pool after a run of events that starts with no request in flight. -/
def Service.served (sv : Service) (w : World) (es : List (Event Serving Request)) : HostPool :=
  run sv.serve ⟨⟨w, fun _ => none⟩, []⟩ es

section Runs
variable {sv : Service} {w : World}

theorem kept_served {es : List (Event Serving Request)} (h : Conforms sv.serve Agreeing ⟨⟨w, fun _ => none⟩, []⟩ es) :
    sv.keyDiscipline.Kept (sv.served w es) :=
  RelyGuarantee.Kept.run (P := sv.keyDiscipline) ⟨trivial, trivial, fun _ _ hi => (by cases hi)⟩ h

/-- In every interleaving in which requests in flight that claim one key for
different operations share a lock: no two requests with one key and different
fingerprints both succeed, and what is recorded under a key keeps its
fingerprint. -/
theorem Service.one_operation_per_key (sv : Service) (w : World) :
    (∀ es, Conforms sv.serve Agreeing ⟨⟨w, fun _ => none⟩, []⟩ es →
      ∀ (i j : Nat) r r' made made' x x', (sv.served w es).threads[i]? = some ⟨r, made, .ret x⟩ →
        (sv.served w es).threads[j]? = some ⟨r', made', .ret x'⟩ → x.success → x'.success → r.key = r'.key →
        r.fingerprint = r'.fingerprint) ∧
    ∀ es₁ es₂, Conforms sv.serve Agreeing ⟨⟨w, fun _ => none⟩, []⟩ (es₁ ++ es₂) →
      ∀ key old, recorded (sv.served w es₁).shared key = some old →
        ∃ new, recorded (sv.served w (es₁ ++ es₂)).shared key = some new ∧ new.fingerprint = old.fingerprint := by
  refine ⟨?_, ?_⟩
  · intro es h i j r r' made made' x x' hi hj hx hx' hkey
    have hbound : Bound r.fingerprint (recorded (sv.served w es).shared r.key) := (kept_served h).due i _ hi hx
    have hbound' : Bound r'.fingerprint (recorded (sv.served w es).shared r'.key) := (kept_served h).due j _ hj hx'
    obtain ⟨o, ho⟩ := hbound
    rw [← hkey] at hbound'
    exact hbound'.clear _ ho
  · intro es₁ es₂ h key old hold
    obtain ⟨h₁, h₂⟩ := conforms_append.1 h
    have hpreserves : Preserves (sv.served w es₁).shared (sv.served w (es₁ ++ es₂)).shared := by
      unfold Service.served
      rw [run_append]
      exact RelyGuarantee.Kept.shared_run (P := sv.keyDiscipline) (fun _ _ _ h => h) (fun _ _ _ h h' k fp hb => h' k fp (h k fp hb))
        (fun _ _ _ _ _ _ _ hG => hG.preserves) (kept_served h₁) h₂
    obtain ⟨o, ho⟩ := hpreserves key old.fingerprint ⟨old.outcome, hold⟩
    exact ⟨_, ho, rfl⟩

end Runs

/-! ### Runs on fixed inputs -/

/-- Thread `i` makes `n` calls in a working environment; its random values start
at `100 * (i + 1)`. -/
def calling (i n : Nat) : List (Event Serving Request) :=
  (List.range n).map fun k => .act i { entropy := 100 * (i + 1) + k }

def Thread.succeeded (t : Thread HostI Request Outcome) : Bool :=
  match t.rest with
  | .ret x => x.success
  | .call _ _ => false

/-- A load and a start of one sandbox under one key: the start waits for the
lock until the load is done. -/
def startBesideLoad : List (Event Serving Request) :=
  .spawn (.create (sampleConfig "a" 1) "ka") :: calling 0 31 ++
    [.spawn (.load "a" (hexGeneration 105) "k"), .spawn (.start "a" (hexGeneration 105) "k")] ++
    calling 1 5 ++ calling 2 3 ++ calling 1 21

theorem Service.one_operation_per_key_sharedLock :
    (recorded (Service.served {} .init startBesideLoad).shared "k").any
        (·.fingerprint = .target .loadSandbox "a" (hexGeneration 105)) ∧
      ∀ old, recorded (Service.served {} .init startBesideLoad).shared "k" = some old →
        ∃ new, recorded (Service.served {} .init (startBesideLoad ++ calling 2 30)).shared "k" = some new ∧
          new.fingerprint = old.fingerprint :=
  ⟨by decide +kernel, fun old hold =>
    (Service.one_operation_per_key {} .init).2 startBesideLoad (calling 2 30) (by decide +kernel) "k" old hold⟩

/-- Two sandboxes; the load of `a` has looked up the key and waits at its intent,
while the load of `b` runs to its end under the same key. -/
def loadBesideLoad : List (Event Serving Request) :=
  .spawn (.create (sampleConfig "a" 1) "ka") :: calling 0 31 ++ .spawn (.create (sampleConfig "b" 2) "kb") :: calling 1 28 ++
    [.spawn (.load "a" (hexGeneration 105) "k"), .spawn (.load "b" (hexGeneration 205) "k")] ++ calling 2 5 ++ calling 3 21

/-- Both loads succeed, and the result of the first one replaces that of the
second. -/
theorem Service.two_operations_per_key :
    ((Service.served {} .init (loadBesideLoad ++ calling 2 16)).threads.filter Thread.succeeded).map
        (fun t => (t.op.key, t.op.fingerprint)) =
      [("ka", .create (sampleConfig "a" 1)), ("kb", .create (sampleConfig "b" 2)),
        ("k", .target .loadSandbox "a" (hexGeneration 105)), ("k", .target .loadSandbox "b" (hexGeneration 205))] ∧
    (recorded (Service.served {} .init loadBesideLoad).shared "k").map (·.fingerprint) =
      some (.target .loadSandbox "b" (hexGeneration 205)) ∧
    (recorded (Service.served {} .init (loadBesideLoad ++ calling 2 16)).shared "k").map (·.fingerprint) =
      some (.target .loadSandbox "a" (hexGeneration 105)) := by
  decide +kernel

end Multikernel
