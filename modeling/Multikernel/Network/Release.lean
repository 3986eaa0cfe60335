import Multikernel.Network.Concurrent
/-!
# Release beside the other network requests

Each request keeps its guarantee whatever the others do within its rely. From
that, in every interleaving in which no `Bind`, `Unbind` or `Report` of a sandbox
runs beside a `Release` of it: an endpoint generation marked DELETING never
leaves that state, a discarded one never comes back, and a record is deleted
only by the request that deleted the backend resources of its generation.
-/

namespace Multikernel.Network
open Lib
variable {A : NetShared × History NetI → Prop} {c : Call} {B : NetShared → Prop}

/-- The random source gives no generation the store has held. -/
def Fresh (w : World) (c : Call) (a : Answer) : Prop :=
  c = .generation → a.err = none → hexGeneration a.entropy ∉ w.recorded

abbrev Guards {α : Type} (r : Request) (i : Nat) (p : Act α) (s : NetShared × History NetI)
    (Q : α → NetShared × History NetI → Prop) : Prop :=
  Amid (locking.trans (fun s : NetShared => s.world.Tidy) Fresh i) (fun s s' => Rely r i s.1 s'.1 ∧ s'.2 = s.2)
    (fun s c s' => Guarantee r i s c s'.1) p s Q

/-! ## The rule of each call -/

/-- Calls that only read. -/
inductive Quiet : Call → Prop where
  | backend (c : BackendCall) : Quiet (.backend c)
  | get (k : String × String × String) : Quiet (.store (.get k))
  | list : Quiet (.store .list)
  | generation : Quiet .generation
  | now : Quiet .now

section Rules
variable {α : Type} {r : Request} {i : Nat} {s : NetShared × History NetI} {Q : α → NetShared × History NetI → Prop}
  {e : Endpoint}

/-- What is known of a state stays known while the others run. -/
def Stable (r : Request) (i : Nat) (A : NetShared × History NetI → Prop) : Prop :=
  ∀ s s' h, A (s, h) → Rely r i s s' → A (s', h)

theorem guards_perform {f : c.Reply → Act α} (hs : A s) (hA : Stable r i A)
    (h : ∀ s a, A s → s.1.world.Tidy → Fresh s.1.world c a → locking.Free s.1 c → Guarantee r i s c (s.1.step locking i c a).1 ∧ Guards r i (f (s.1.step locking i c a).2) ((s.1.step locking i c a).1, s.2 ++ [⟨c, (s.1.step locking i c a).2⟩]) Q) :
    Guards r i (perform c >>= f) s Q := by
  refine amid_perform hs (fun s s' hs hR => ?_) ?_
  · obtain ⟨s', _⟩ := s'
    obtain ⟨hR, rfl⟩ := hR
    exact hA s.1 s' s.2 hs hR
  · rintro s x ⟨s', h'⟩ hs ⟨htidy, hfree, a, hE, hstep, hh⟩
    obtain ⟨hG, hrest⟩ := h s a hs htidy hE hfree
    simp only at hh
    subst hh
    rw [hstep] at hG hrest
    exact ⟨hG, hrest⟩

theorem step_quiet (hc : Quiet c) (s : NetShared) (a : Answer) : (s.step locking i c a).1 = s := by
  cases hc <;> rfl

theorem guarantee_same {s' : NetShared} (hw : s.1.world.Same s'.world)
    (hdrops : ∀ m, c = .unlock m → s.1.owner m = some i)
    (htorn : ∀ k e, c = .store (.delete k) → s.1.world.at k = some e → torn s.2 = some e.generation) :
    Guarantee r i s c s' :=
  ⟨.inl hw, hdrops, htorn⟩

theorem guards_quiet {f : c.Reply → Act α} (hc : Quiet c) (hs : A s) (hA : Stable r i A)
    (h : ∀ s a, A s → s.1.world.Tidy → Fresh s.1.world c a → Guards r i (f (step s.1.world c a).2) (s.1, s.2 ++ [⟨c, (step s.1.world c a).2⟩]) Q) :
    Guards r i (perform c >>= f) s Q := by
  refine guards_perform hs hA fun s a hs htidy hE _ => ?_
  rw [step_quiet hc]
  refine ⟨guarantee_same (World.Same.refl _) ?_ ?_, h s a hs htidy hE⟩
  · rintro m rfl
    cases hc
  · rintro k e rfl
    cases hc

/-- What is known of the locks and the store only. -/
def Stable₁ (r : Request) (i : Nat) (B : NetShared → Prop) : Prop := ∀ s s', B s → Rely r i s s' → B s'

theorem Stable₁.stable (h : Stable₁ r i B) : Stable r i fun s => B s.1 := fun s s' _ => h s s'

theorem guards_backend {c : BackendCall} {f : c.Reply → Act α} (hs : B s.1) (hB : Stable₁ r i B)
    (h : ∀ s x, B s.1 → Guards r i (f x) s Q) : Guards r i (perform (.backend c) >>= f) s Q :=
  guards_quiet (.backend c) hs hB.stable fun _ _ hs _ _ => h _ _ hs

theorem guards_now {f : Nat → Act α} (hs : B s.1) (hB : Stable₁ r i B) (h : ∀ s t, B s.1 → Guards r i (f t) s Q)
    : Guards r i (now >>= f) s Q :=
  guards_quiet .now hs hB.stable fun _ _ hs _ _ => h _ _ hs

theorem guards_list {f : List Endpoint → Act α} (hs : B s.1) (hB : Stable₁ r i B)
    (h : ∀ s es, B s.1 → (∀ e ∈ es, s.1.world.at e.key = some e) → Guards r i (f es) s Q) :
    Guards r i (store.list >>= f) s Q := by
  refine guards_quiet .list hs hB.stable fun s a hs htidy _ => h _ _ hs fun e he => ?_
  obtain ⟨k, hk⟩ := Endpoints.mem_values.1 ((a.order_perm _).mem_iff.1 he)
  rw [key_of_stored (htidy.valid k e hk)]
  exact hk

theorem guards_get {networkName containerID ifName : String} {f : Option Endpoint → Act α} (hs : B s.1)
    (hB : Stable₁ r i B)
    (hnone : ∀ s, B s.1 → s.1.world.at (endpointKey networkName containerID ifName) = none → Guards r i (f none) s Q)
    (hsome : ∀ s e, B s.1 → e.key = endpointKey networkName containerID ifName → s.1.world.at e.key = some e → Guards r i (f (some e)) s Q) :
    Guards r i (store.get networkName containerID ifName >>= f) s Q := by
  refine guards_quiet (.get _) hs hB.stable fun s a hs htidy _ => ?_
  change Guards r i (f (s.1.world.at (endpointKey networkName containerID ifName))) _ Q
  cases hget : s.1.world.at (endpointKey networkName containerID ifName) with
  | none => exact hnone _ hs hget
  | some e =>
    have hkey := key_of_stored (htidy.valid _ e hget)
    exact hsome _ e hs hkey (hkey ▸ hget)

/-- A write either leaves the records as they were, or puts `e` in its place. -/
theorem put_cases (w : World) (e : Endpoint) (a : Answer) :
    ((∃ err, (storeStep w a (.put e)).2 = some err) ∧ w.Same (storeStep w a (.put e)).1) ∨
      ((storeStep w a (.put e)).2 = none ∧ validateStoredEndpoint e.key e = none ∧
        (storeStep w a (.put e)).1.at e.key = some e ∧ (∀ k, k ≠ e.key → (storeStep w a (.put e)).1.at k = w.at k) ∧
        ∀ g, g ∈ (storeStep w a (.put e)).1.recorded ↔ g ∈ w.recorded ∨ e.generation = g) := by
  cases hv : validateStoredEndpoint e.key e with
  | some text =>
    rw [put_refused hv]
    exact .inl ⟨⟨_, rfl⟩, World.Same.refl w⟩
  | none =>
    have hput : w.store.put e a.persist = w.store.persist (w.store.data.insert e.key e) a.persist := by
      rw [Store.put, hv]
    have hw : storeStep w a (.put e) = (⟨(w.store.put e a.persist).1,
      if (w.store.put e a.persist).2 = none then w.recorded.insert e.generation else w.recorded⟩,
      (w.store.put e a.persist).2) := rfl
    rw [hw, hput]
    cases a.persist with
    | failed err => exact .inl ⟨⟨err, rfl⟩, World.Same.refl w⟩
    | unsynced err => exact .inl ⟨⟨err, rfl⟩, fun _ => rfl, fun _ => .rfl⟩
    | done =>
      refine .inr ⟨rfl, rfl, AList.lookup_insert _, fun k hk => AList.lookup_insert_ne hk, fun g => ?_⟩
      change g ∈ w.recorded.insert e.generation ↔ _
      rw [List.mem_insert_iff, or_comm, eq_comm]

theorem delete_cases (w : World) (k : String × String × String) (a : Answer) :
    w.Same (storeStep w a (.delete k)).1 ∨
      ((storeStep w a (.delete k)).1.at k = none ∧ (∀ k', k' ≠ k → (storeStep w a (.delete k)).1.at k' = w.at k') ∧
        (storeStep w a (.delete k)).1.recorded = w.recorded) := by
  have hw : storeStep w a (.delete k) = ({ w with store := (w.store.persist (w.store.data.erase k) a.persist).1 },
    (w.store.persist (w.store.data.erase k) a.persist).2) := rfl
  rw [hw]
  cases a.persist with
  | failed err | unsynced err => exact .inl ⟨fun _ => rfl, fun _ => .rfl⟩
  | done => exact .inr ⟨AList.lookup_erase _ _, fun k' hk' => AList.lookup_erase_ne hk', rfl⟩

theorem guards_put {f : Option Err → Act α} (hs : B s.1) (hB : Stable₁ r i B)
    (hmove : ∀ s, B s → s.world.Tidy → Move s.world.recorded (s.world.at e.key) (some e) ∧ MayChange r i s (s.world.at e.key))
    (hfail : ∀ s err, B s.1 → Guards r i (f (some err)) s Q)
    (hdone : ∀ s s', B s → validateStoredEndpoint e.key e = none → s'.1.owner = s.owner → s'.1.world.at e.key = some e → Guards r i (f none) s' Q) :
    Guards r i (store.put e >>= f) s Q := by
  refine guards_perform hs hB.stable fun s a hs htidy _ _ => ?_
  have howner : (s.1.step locking i (.store (.put e)) a).1.owner = s.1.owner := rfl
  have hworld : (s.1.step locking i (.store (.put e)) a).1.world = (storeStep s.1.world a (.put e)).1 := rfl
  have hreply : (s.1.step locking i (.store (.put e)) a).2 = (storeStep s.1.world a (.put e)).2 := rfl
  rcases put_cases s.1.world e a with ⟨⟨err, herr⟩, hsame⟩ | ⟨hnone, hv, hat, hother, hrec⟩
  · refine ⟨guarantee_same (hworld ▸ hsame) (fun m h => by cases h) (fun k e h => by cases h), ?_⟩
    rw [hreply, herr]
    exact hfail _ err (hB s.1 _ hs (rely_of_same (hworld ▸ hsame) howner))
  · obtain ⟨hm, hmay⟩ := hmove s.1 hs htidy
    refine ⟨⟨.inr ⟨e.key, _, some e, ⟨rfl, hworld ▸ hat, hm, ?_, hworld ▸ hother, ?_⟩, hmay⟩,
      fun m h => (by cases h), fun k e h => (by cases h)⟩, ?_⟩
    · rintro _ ⟨⟩
      exact hv
    · intro g
      rw [hworld, hrec g]
      exact or_congr_right ⟨fun h => ⟨e, rfl, h⟩, fun ⟨_, h, hg⟩ => Option.some.inj h ▸ hg⟩
    · rw [hreply, hnone]
      exact hdone s.1 _ hs hv howner (hworld ▸ hat)

theorem guards_delete {f : Option Err → Act α} (hs : A s) (hA : Stable r i A)
    (hperm : ∀ s o, A s → s.1.world.at e.key = some o → Permits r i s.1 o ∧ torn s.2 = some o.generation)
    (h : ∀ s s' x, A s → s'.1.owner = s.1.owner → Guards r i (f x) s' Q) :
    Guards r i (store.delete e.networkName e.containerID e.ifName >>= f) s Q := by
  change Guards r i (perform (.store (.delete e.key)) >>= f) s Q
  refine guards_perform hs hA fun s a hs htidy _ _ => ?_
  have hworld : (s.1.step locking i (.store (.delete e.key)) a).1.world = (storeStep s.1.world a (.delete e.key)).1 := rfl
  have htorn (k e') (hk : Call.store (.delete e.key) = .store (.delete k)) (he' : s.1.world.at k = some e') :
      torn s.2 = some e'.generation := by
    cases hk
    exact (hperm s e' hs he').2
  refine ⟨⟨?_, fun m hm => (by cases hm), htorn⟩, h s _ _ hs rfl⟩
  rcases delete_cases s.1.world e.key a with hsame | ⟨hat, hother, hrec⟩
  · exact .inl (hworld ▸ hsame)
  · cases ho : s.1.world.at e.key with
    | none =>
      refine .inl ⟨fun k => ?_, fun g => by rw [hworld, hrec]⟩
      by_cases hk : k = e.key
      · rw [hk, hworld, hat, ho]
      · rw [hworld, hother k hk]
    | some o =>
      refine .inr ⟨e.key, some o, none, ⟨ho, hworld ▸ hat, .discard, fun _ h => (by cases h), hworld ▸ hother, fun g => ?_⟩,
        (hperm s o hs ho).1⟩
      rw [hworld, hrec]
      exact ⟨.inl, fun h => h.resolve_right fun ⟨_, h, _⟩ => by cases h⟩

/-- A lock taken, the program under it, and the lock dropped. -/
theorem guards_withLock {m : Mutex} {p : Act α} {C D : NetShared → Prop} (hs : B s.1) (hB : Stable₁ r i B)
    (hin : ∀ s s' : NetShared, B s → s'.owner = locking.pass i s.owner (.lock m) → C s') (hC : Stable₁ r i C)
    (hheld : ∀ s, C s → s.owner m = some i)
    (hout : ∀ s s' : NetShared, C s → s'.owner = locking.pass i s.owner (.unlock m) → D s')
    (h : ∀ s, C s.1 → Guards r i p s fun _ s => C s.1) : Guards r i (withLock m p) s fun _ s => D s.1 := by
  refine guards_perform hs hB.stable fun s a hs _ _ _ => ⟨?_, ?_⟩
  · exact guarantee_same (World.Same.refl _) (fun m h => by cases h) (fun k e h => by cases h)
  refine (h _ (hin s.1 _ hs rfl)).bind fun x s hs => ?_
  refine guards_perform hs hC.stable fun s a hs _ _ _ => ⟨?_, hout s.1 _ hs rfl⟩
  refine guarantee_same (World.Same.refl _) (fun m' h => ?_) (fun k e h => by cases h)
  cases h
  exact hheld s.1 hs

end Rules

/-! ## What is known of the locks -/

section Locks
variable {α : Type} {r : Request} {i : Nat} {s : NetShared × History NetI} {p : Act α}

/-- Before and after an operation that takes `mu`. -/
def Outer (r : Request) (i : Nat) (s : NetShared) : Prop := r.orchestrated → s.owner .orchestrate = some i

theorem stable_outer : Stable₁ r i (Outer r i) := fun _ _ hs hR ho => (hR.owner _).2 (hs ho)

theorem stable_shield : Stable₁ r i (Shield r i) := fun _ _ hs hR => hR.shield hs

def Orchestrating (i : Nat) (s : NetShared) : Prop := s.owner .orchestrate = some i

theorem stable_orchestrating : Stable₁ r i (Orchestrating i) := fun _ _ hs hR => (hR.owner _).2 hs

theorem guards_mu (hs : Outer r i s.1) (h : ∀ s, Shield r i s.1 → Guards r i p s fun _ s => Shield r i s.1) :
    Guards r i (withLock .mu p) s fun _ s => Outer r i s.1 := by
  refine guards_withLock hs stable_outer ?_ stable_shield (fun _ hs => hs.1) ?_ h
  · intro s s' hs ho
    refine ⟨by rw [ho]; rfl, fun hor => ?_⟩
    rw [ho]
    exact hs hor
  · intro s s' hs ho hor
    rw [ho]
    exact hs.2 hor

theorem guards_orchestrate (h : ∀ s, Orchestrating i s.1 → Guards r i p s fun _ s => Orchestrating i s.1) :
    Guards r i (withLock .orchestrate p) s fun _ _ => True := by
  refine guards_withLock (B := fun _ => True) (D := fun _ => True) trivial (fun _ _ _ _ => trivial) ?_ stable_orchestrating
    (fun _ hs => hs) (fun _ _ _ _ => trivial) h
  intro s s' _ ho
  rw [Orchestrating, ho]
  rfl

/-- What a call that leaves the locks leaves known. -/
structure OfLocks (r : Request) (i : Nat) (B : NetShared → Prop) : Prop where
  rely : Stable₁ r i B
  owner : ∀ s s', B s → s'.owner = s.owner → B s'

theorem ofLocks_shield : OfLocks r i (Shield r i) := ⟨stable_shield, fun s s' hs ho => by rwa [Shield, ho]⟩

theorem ofLocks_orchestrating : OfLocks r i (Orchestrating i) :=
  ⟨stable_orchestrating, fun s s' hs ho => by rwa [Orchestrating, ho]⟩

end Locks

/-! ## What each operation does -/

/-- The record of `e` is there and the thread may change it. -/
def Having (r : Request) (i : Nat) (e : Endpoint) (s : NetShared) : Prop := s.world.at e.key = some e ∧ Permits r i s e

/-- The same of some record of the generation of `e`. -/
def Holding (r : Request) (i : Nat) (e : Endpoint) (s : NetShared) : Prop :=
  ∃ o : Endpoint, o.key = e.key ∧ o.generation = e.generation ∧ Having r i o s

section Operations
variable {α : Type} {r : Request} {i : Nat} {s : NetShared × History NetI} {B : NetShared → Prop}
  {Q : α → NetShared × History NetI → Prop} {e : Endpoint} {sv : Service}

theorem stable_having : Stable₁ r i (Having r i e) := fun _ _ hs hR =>
  ⟨hR.mine _ e hs.1 hs.2, hR.permits_iff.2 hs.2⟩

theorem stable_holding : Stable₁ r i (Holding r i e) := by
  rintro s s' ⟨o, hkey, hgen, ho⟩ hR
  exact ⟨o, hkey, hgen, stable_having s s' ho hR⟩

theorem Stable₁.and {C : NetShared → Prop} (hB : Stable₁ r i B) (hC : Stable₁ r i C) : Stable₁ r i fun s => B s ∧ C s :=
  fun s s' hs hR => ⟨hB s s' hs.1 hR, hC s s' hs.2 hR⟩

/-- Deleting the backend resources: without an error they are gone. -/
theorem guards_rollbackAllocation {f : Option Err → Act α} (hs : B s.1) (hB : Stable₁ r i B)
    (h : ∀ s x, B s.1 → (x = none → torn s.2 = some e.generation) → Guards r i (f x) s Q) :
    Guards r i (sv.rollbackAllocation e >>= f) s Q := by
  refine Amid.bind (P := fun x s => B s.1 ∧ (x = none → torn s.2 = some e.generation)) ?_ fun x s hs => h s x hs.1 hs.2
  unfold Service.rollbackAllocation
  refine guards_quiet (.backend _) hs hB.stable fun s a hs _ _ => ?_
  have htorn (hnone : (a.err.map (Err.wrap "delete partial endpoint")) = none) :
      torn (s.2 ++ [⟨.backend (.delete e), a.err⟩]) = some e.generation := by
    rw [torn_append, Option.map_eq_none_iff.1 hnone]
    rfl
  refine amid_ite (fun _ => ⟨hs, fun hx => htorn (Err.join_eq_none.1 hx).1⟩) fun _ => amid_ite (fun _ => ⟨hs, fun hx => ?_⟩) fun _ => ?_
  · exact htorn (Err.join_eq_none.1 hx).1
  · refine guards_quiet (A := fun x => B x.1 ∧ ((a.err.map (Err.wrap "delete partial endpoint")) = none →
      torn x.2 = some e.generation)) (.backend _) ⟨hs, htorn⟩ (fun s s' h hs hR => ⟨hB s s' hs.1 hR, hs.2⟩) fun s a' hs _ _ => ?_
    refine ⟨hs.1, fun hx => ?_⟩
    rw [torn_append]
    exact hs.2 (Err.join_eq_none.1 hx).1

theorem guards_discard {networkName containerID ifName : String} {f : Option Err → Act α} (hB : OfLocks r i B)
    (hkey : e.key = endpointKey networkName containerID ifName)
    (hs : B s.1 ∧ Holding r i e s.1 ∧ torn s.2 = some e.generation) (h : ∀ s x, B s.1 → Guards r i (f x) s Q) :
    Guards r i (store.delete networkName containerID ifName >>= f) s Q := by
  obtain ⟨rfl, rfl, rfl⟩ : e.networkName = networkName ∧ e.containerID = containerID ∧ e.ifName = ifName := by
    simpa [Endpoint.key, endpointKey] using hkey
  refine guards_delete (A := fun s => B s.1 ∧ Holding r i e s.1 ∧ torn s.2 = some e.generation) hs ?_ ?_ ?_
  · exact fun s s' h hs hR => ⟨hB.rely s s' hs.1 hR, stable_holding s s' hs.2.1 hR, hs.2.2⟩
  · rintro s o ⟨-, ⟨o', hkey', hgen, hat, hperm⟩, htorn⟩ ho
    rw [← hkey', hat, Option.some.injEq] at ho
    subst ho
    exact ⟨hperm, hgen ▸ htorn⟩
  · exact fun s s' x hs ho => h s' x (hB.owner s.1 s'.1 hs.1 ho)

theorem guards_abandon {stage : String} (hB : OfLocks r i B) (hs : B s.1 ∧ Holding r i e s.1) :
    Guards r i (sv.abandon e stage) s fun _ s => B s.1 := by
  unfold Service.abandon
  refine Amid.bind (P := fun _ s => B s.1) ?_ fun _ s (hs : B s.1) => hs
  unfold Service.retire
  refine guards_rollbackAllocation hs (hB.rely.and stable_holding) fun s x hs htorn => ?_
  cases x with
  | some err => exact hs.1
  | none =>
    change Guards r i (discardAllocationRecord e >>= pure) s _
    exact guards_discard hB rfl ⟨hs.1, hs.2, htorn rfl⟩ fun _ _ hs => hs

/-- An endpoint that carries no sandbox, under `mu`. -/
theorem permits_unbound {s : NetShared} (hs : Shield r i s) (he : e.sandboxID = "") : Permits r i s e := .inl ⟨hs, .inl he⟩

theorem guards_raise (hs : Shield r i s.1 ∧ Having r i e s.1) (hstate : e.state = .allocating) :
    Guards r i (sv.raise e) s fun _ s => Shield r i s.1 := by
  have hstable : Stable₁ r i fun s => Shield r i s ∧ Having r i e s := stable_shield.and stable_having
  unfold Service.raise
  refine guards_backend hs hstable fun s x hs => amid_ite (fun _ => ?_) fun _ => ?_
  · exact guards_abandon ofLocks_shield ⟨hs.1, e, rfl, rfl, hs.2⟩
  refine guards_now hs hstable fun s t hs => guards_put hs hstable ?_ ?_ ?_
  · intro s hs _
    rw [show s.world.at (Endpoint.key { e with state := .ready, updatedAt := t }) = some e from hs.2.1]
    refine ⟨.rewrite rfl ?_, hs.2.2⟩
    rw [hstate]
    exact Nat.zero_le _
  · exact fun s err hs => guards_abandon ofLocks_shield ⟨hs.1, e, rfl, rfl, hs.2⟩
  · exact fun s s' hs _ ho _ => ofLocks_shield.owner s s'.1 hs.1 ho

theorem guards_realise (hs : Shield r i s.1 ∧ Having r i e s.1) (hstate : e.state = .allocating) :
    Guards r i (sv.realise e) s fun _ s => Shield r i s.1 := by
  have hstable : Stable₁ r i fun s => Shield r i s ∧ Having r i e s := stable_shield.and stable_having
  unfold Service.realise
  refine amid_ite (fun _ => guards_raise hs hstate) fun _ => guards_backend hs hstable fun s x hs => ?_
  have habandon (stage : String) : Guards r i (sv.abandon e stage) s fun _ s => Shield r i s.1 :=
    guards_abandon ofLocks_shield ⟨hs.1, e, rfl, rfl, hs.2⟩
  cases x with
  | error err => exact habandon _
  | ok created => exact amid_ite (fun _ => habandon _) fun _ => guards_raise hs hstate

theorem guards_addNew (hs : Shield r i s.1 ∧ s.1.world.at e.key = none) :
    Guards r i (sv.addNew e) s fun _ s => Shield r i s.1 := by
  have hstable : Stable₁ r i fun s => Shield r i s ∧ s.world.at e.key = none := fun s s' hs hR =>
    ⟨hR.shield hs.1, hR.absent hs.1 _ hs.2⟩
  unfold Service.addNew
  refine guards_list hs hstable fun s es hs _ => ?_
  cases sv.allocate es with
  | none => exact hs.1
  | some slot =>
    refine guards_quiet .generation hs hstable.stable fun s a hs _ hfresh => ?_
    have hdrawn : (step s.1.world .generation a).2 = a.drawn (hexGeneration a.entropy) := rfl
    rw [hdrawn]
    cases herr : a.err with
    | some err =>
      simp only [Answer.drawn, herr]
      exact hs.1
    | none =>
      simp only [Answer.drawn, herr]
      -- The generation stays new while the thread holds `mu`.
      have hnew := hfresh rfl herr
      have hstable' : Stable₁ r i fun s => (Shield r i s ∧ s.world.at e.key = none) ∧
          hexGeneration a.entropy ∉ s.world.recorded := fun s s' hs hR =>
        ⟨hstable s s' hs.1 hR, fun hg => hs.2 ((hR.recorded hs.1.1 _).1 hg)⟩
      refine guards_now ⟨hs, hnew⟩ hstable' fun s t hs => amid_ite (fun _ => hs.1.1) fun _ => ?_
      refine guards_put hs hstable' ?_ (fun s err hs => hs.1.1) ?_
      · intro s hs _
        rw [show s.world.at (sv.allocation e slot (hexGeneration a.entropy) t).key = none from hs.1.2]
        exact ⟨.allocate hs.2, hs.1.1⟩
      · intro s s' hs hv ho hat
        have hshield := ofLocks_shield.owner s s'.1 hs.1.1 ho
        exact guards_realise ⟨hshield, hat, permits_unbound hshield (unbound_of_allocating hv rfl)⟩ rfl

theorem guards_add (hs : Outer r i s.1) : Guards r i (sv.add e) s fun _ s => Outer r i s.1 := by
  unfold Service.add
  refine guards_mu hs fun s hs => ?_
  split
  · exact hs
  refine amid_ite (fun _ => hs) fun _ => amid_ite (fun _ => hs) fun _ => guards_get hs stable_shield ?_ ?_
  · exact fun s hs hnone => guards_addNew ⟨hs, hnone⟩
  · intro s existing hs _ _
    unfold addExisting
    refine amid_ite (fun _ => hs) fun _ => amid_ite (fun _ => hs) fun _ => guards_backend hs stable_shield fun s x hs => ?_
    exact amid_ite (fun _ => hs) fun _ => hs

theorem guards_check (hs : Outer r i s.1) : Guards r i (check e) s fun _ s => Outer r i s.1 := by
  unfold check
  refine guards_mu hs fun s hs => ?_
  split
  · exact hs
  refine guards_get hs stable_shield (fun s hs _ => hs) fun s existing hs _ _ => ?_
  refine amid_ite (fun _ => hs) fun _ => amid_ite (fun _ => hs) fun _ => amid_ite (fun _ => hs) fun _ => ?_
  exact guards_backend hs stable_shield fun s x hs => amid_ite (fun _ => hs) fun _ => hs

theorem stage_le_deleting (x : LinkState) : x.stage ≤ 2 := by
  cases x <;> simp [LinkState.stage]

theorem guards_markDeleting (hB : OfLocks r i B) (hs : B s.1 ∧ Having r i e s.1) :
    Guards r i (markDeleting e) s fun x s => B s.1 ∧ ∀ marked, x = .ok marked → Holding r i marked s.1 := by
  have hstable : Stable₁ r i fun s => B s ∧ Having r i e s := hB.rely.and stable_having
  unfold markDeleting
  refine amid_ite (fun _ => ⟨hs.1, ?_⟩) fun _ => guards_now hs hstable fun s t hs => guards_put hs hstable ?_ ?_ ?_
  · rintro _ ⟨⟩
    exact ⟨e, rfl, rfl, hs.2⟩
  · intro s hs _
    rw [show s.world.at (Endpoint.key { e with state := .deleting, updatedAt := t }) = some e from hs.2.1]
    exact ⟨.rewrite rfl (stage_le_deleting _), hs.2.2⟩
  · exact fun s err hs => ⟨hs.1, fun _ h => (by cases h)⟩
  · intro s s' hs _ ho hat
    refine ⟨hB.owner s s'.1 hs.1 ho, ?_⟩
    rintro _ ⟨⟩
    refine ⟨_, rfl, rfl, hat, ?_⟩
    have hperm := hs.2.2
    simp only [Permits, Shield, Releasing] at hperm ⊢
    rw [ho]
    exact hperm

theorem guards_delete_request (hs : Outer r i s.1) : Guards r i (sv.delete e) s fun _ s => Outer r i s.1 := by
  unfold Service.delete
  refine guards_mu hs fun s hs => ?_
  split
  · exact hs
  refine guards_get hs stable_shield (fun s hs _ => hs) fun s existing hs _ hat => ?_
  refine amid_ite (fun _ => hs) fun _ => amid_ite (fun _ => hs) fun _ => amid_ite (fun _ => hs) fun hunbound => ?_
  have hhave : Having r i existing s.1 := ⟨hat, permits_unbound hs (not_not.1 hunbound)⟩
  refine (guards_markDeleting ofLocks_shield ⟨hs, hhave⟩).bind fun x s hs => ?_
  cases x with
  | error err => exact hs.1
  | ok marked =>
    have hstable : Stable₁ r i fun s => Shield r i s ∧ Holding r i marked s := stable_shield.and stable_holding
    unfold Service.tearDown
    refine guards_quiet (.backend _) (A := fun s => Shield r i s.1 ∧ Holding r i marked s.1) ⟨hs.1, hs.2 marked rfl⟩
      hstable.stable fun s a hs _ _ => amid_ite (fun _ => hs.1) fun herr => amid_ite (fun _ => hs.1) fun _ => ?_
    have htorn : torn (s.2 ++ [⟨.backend (.delete marked), a.err⟩]) = some marked.generation := by
      change ¬a.err.isSome at herr
      rw [torn_append]
      exact if_pos (by simpa using herr)
    refine Amid.bind (P := fun _ s => (Shield r i s.1 ∧ Holding r i marked s.1) ∧ torn s.2 = some marked.generation) ?_ ?_
    · refine amid_ite (fun _ => ?_) fun _ => ⟨hs, htorn⟩
      change Guards r i (perform (.backend (.deleteNamespace marked.netNS)) >>= pure) _ _
      refine guards_quiet (.backend _)
        (A := fun s => (Shield r i s.1 ∧ Holding r i marked s.1) ∧ torn s.2 = some marked.generation) ⟨hs, htorn⟩
        (fun s s' h hs hR => ⟨hstable s s' hs.1 hR, hs.2⟩) fun s a' hs _ _ => ⟨hs.1, ?_⟩
      rw [torn_append]
      exact hs.2
    · intro x s hs
      refine amid_ite (fun _ => hs.1.1) fun _ => ?_
      refine guards_discard ofLocks_shield rfl ⟨hs.1.1, hs.1.2, hs.2⟩ fun s x hs => ?_
      exact amid_ite (fun _ => hs) fun _ => hs

/-- The endpoint that carries the sandbox of the request, under `mu`. -/
theorem permits_carrier {s : NetShared} (hs : Shield r i s) (he : e.sandboxID = r.sandbox) : Permits r i s e :=
  .inl ⟨hs, .inr he⟩

theorem guards_bind (hs : Outer r i s.1) (he : e.sandboxID = r.sandbox) :
    Guards r i (Network.bind e) s fun _ s => Outer r i s.1 := by
  unfold Network.bind
  refine guards_mu hs fun s hs => amid_ite (fun _ => hs) fun _ => guards_list hs stable_shield fun s es hs hes => ?_
  split
  · exact hs
  · rename_i found hfound
    have hmem : found ∈ es.filter fun candidate => candidate.netNS == e.netNS := by
      rw [hfound]
      exact List.mem_singleton_self found
    unfold bindFound
    refine amid_ite (fun _ => hs) fun _ => amid_ite (fun _ => hs) fun _ => amid_ite (fun _ => hs) fun hother => ?_
    have hhave : Having r i found s.1 := by
      refine ⟨hes found (List.mem_filter.1 hmem).1, ?_⟩
      by_cases h0 : found.sandboxID = ""
      · exact permits_unbound hs h0
      · simp only [ne_eq, h0, not_false_eq_true, true_and, not_or, not_not] at hother
        exact permits_carrier hs (hother.1.trans he)
    have hstable : Stable₁ r i fun s => Shield r i s ∧ Having r i found s := stable_shield.and stable_having
    refine guards_backend ⟨hs, hhave⟩ hstable fun s x hs => amid_ite (fun _ => hs.1) fun _ => ?_
    refine guards_now hs hstable fun s t hs => guards_put hs hstable ?_ (fun s err hs => hs.1) ?_
    · intro s hs _
      rw [show s.world.at (Endpoint.key { found with
        sandboxID := e.sandboxID, sandboxGeneration := e.sandboxGeneration, updatedAt := t }) = some found from hs.2.1]
      exact ⟨.rewrite rfl le_rfl, hs.2.2⟩
    · exact fun s s' hs _ ho _ => ofLocks_shield.owner s s'.1 hs.1 ho
  · exact hs

theorem outer_of_orchestrating {s : NetShared} (hs : Orchestrating i s) : Outer r i s := fun _ => hs

theorem guards_provision (he : r = .provision e) : Guards r i (sv.provision e) s fun _ _ => True := by
  have hor {s : NetShared} (hs : Outer r i s) : Orchestrating i s := hs (by rw [he]; rfl)
  have hbind (s : NetShared × History NetI) (candidate : Endpoint) (hs : Outer r i s.1) :
      Guards r i (Network.bind (candidate.bindTo e)) s fun _ s => Outer r i s.1 :=
    guards_bind hs (by rw [he]; rfl)
  unfold Service.provision
  refine guards_orchestrate fun s hs => amid_ite (fun _ => hs) fun _ => ?_
  refine guards_list hs stable_orchestrating fun s es hs _ => ?_
  split
  · unfold Service.provisionNew
    refine (guards_add (outer_of_orchestrating hs)).bind fun x s hs => ?_
    cases x with
    | error issue => exact hor hs
    | ok allocated =>
      refine (hbind s allocated hs).bind fun x s hs => ?_
      cases x with
      | ok bound => exact hor hs
      | error issue => exact (guards_delete_request hs).bind fun _ s hs => hor hs
  · refine amid_ite (fun _ => hs) fun _ => ?_
    exact (hbind s _ (outer_of_orchestrating hs)).mono fun _ s hs => hor hs

theorem guards_unbind (hs : Outer r i s.1) (he : e.sandboxID = r.sandbox) :
    Guards r i (unbind e) s fun _ s => Outer r i s.1 := by
  unfold unbind
  refine guards_mu hs fun s hs => amid_ite (fun _ => hs) fun _ => guards_list hs stable_shield fun s es hs hes => ?_
  split
  · exact hs
  · rename_i found hfound
    obtain ⟨hmem, hid⟩ := carrier_some hfound
    have hhave : Having r i found s.1 := ⟨hes found hmem, permits_carrier hs (hid.trans he)⟩
    have hstable : Stable₁ r i fun s => Shield r i s ∧ Having r i found s := stable_shield.and stable_having
    refine amid_ite (fun _ => hs) fun _ => guards_now ⟨hs, hhave⟩ hstable fun s t hs => ?_
    refine guards_put hs hstable ?_ (fun s err hs => hs.1) ?_
    · intro s hs _
      rw [show s.world.at (Endpoint.key { found with sandboxID := "", sandboxGeneration := "", updatedAt := t }) = some found
        from hs.2.1]
      exact ⟨.rewrite rfl le_rfl, hs.2.2⟩
    · exact fun s s' hs _ ho _ => ofLocks_shield.owner s s'.1 hs.1 ho

theorem stage_le_of_not_transitional (he : ¬e.transitional) {x : LinkState}
    (hx : ¬(x ≠ .ready ∧ x ≠ .degraded ∧ x ≠ .disconnected)) : e.state.stage ≤ x.stage := by
  have hle : e.state.stage ≤ 1 := by
    unfold Endpoint.transitional at he
    cases hstate : e.state <;> simp_all [LinkState.stage]
  have hone : x.stage = 1 := by
    simp only [not_and_or, not_not] at hx
    rcases hx with rfl | rfl | rfl <;> rfl
  rw [hone]
  exact hle

theorem guards_report (hs : Outer r i s.1) (he : e.sandboxID = r.sandbox) :
    Guards r i (report e) s fun _ s => Outer r i s.1 := by
  unfold report
  refine guards_mu hs fun s hs => amid_ite (fun _ => hs) fun _ => guards_list hs stable_shield fun s es hs hes => ?_
  split
  · exact hs
  · rename_i found hfound
    obtain ⟨hmem, hid⟩ := carrier_some hfound
    have hhave : Having r i found s.1 := ⟨hes found hmem, permits_carrier hs (hid.trans he)⟩
    have hstable : Stable₁ r i fun s => Shield r i s ∧ Having r i found s := stable_shield.and stable_having
    refine amid_ite (fun _ => hs) fun _ => amid_ite (fun _ => hs) fun htrans => ?_
    refine amid_ite (fun _ => hs) fun _ => amid_ite (fun _ => hs) fun hstate => ?_
    refine guards_now ⟨hs, hhave⟩ hstable fun s t hs => guards_put hs hstable ?_ (fun s err hs => hs.1) ?_
    · intro s hs _
      rw [show s.world.at (Endpoint.key { found with
        rxPackets := e.rxPackets, txPackets := e.txPackets, rxDrops := e.rxDrops, txDrops := e.txDrops,
        errors := e.errors, state := e.state, updatedAt := t }) = some found from hs.2.1]
      exact ⟨.rewrite rfl (stage_le_of_not_transitional htrans hstate), hs.2.2⟩
    · exact fun s s' hs _ ho _ => ofLocks_shield.owner s s'.1 hs.1 ho

theorem guards_release (he : r = .release e) : Guards r i (sv.release e) s fun _ _ => True := by
  have hor {s : NetShared} (hs : Outer r i s) : Orchestrating i s := hs (by rw [he]; rfl)
  unfold Service.release
  refine guards_orchestrate fun s hs => amid_ite (fun _ => hs) fun hnamed => ?_
  refine guards_list hs stable_orchestrating fun s es hs hes => ?_
  split
  · exact hs
  · rename_i found hfound
    obtain ⟨hmem, hid⟩ := carrier_some hfound
    refine amid_ite (fun _ => hs) fun _ => amid_ite (fun _ => ?_) fun _ => ?_
    · exact (guards_unbind (outer_of_orchestrating hs) (by rw [he]; rfl)).mono fun _ s hs => hor hs
    · have hreleasing : Releasing r i s.1 := by
        refine ⟨by rw [he]; rfl, ?_, hs⟩
        rw [he]
        exact ne_empty_of_named (e := e) (by simpa using hnamed)
      have hhave : Having r i found s.1 := ⟨hes found hmem, .inr ⟨hreleasing, by rw [hid, he]; rfl⟩⟩
      unfold Service.releaseOwned
      refine (guards_markDeleting ofLocks_orchestrating ⟨hs, hhave⟩).bind fun x s hs => ?_
      cases x with
      | error err => exact hs.1
      | ok marked =>
        refine guards_rollbackAllocation (B := fun s => Orchestrating i s ∧ Holding r i marked s) ⟨hs.1, hs.2 marked rfl⟩
          (stable_orchestrating.and stable_holding) fun s x hs htorn => amid_ite (fun _ => hs.1) fun hx => ?_
        have hx : x = none := by simpa using hx
        refine guards_discard ofLocks_orchestrating rfl ⟨hs.1, hs.2, htorn hx⟩ fun s x hs => ?_
        exact amid_ite (fun _ => hs) fun _ => hs

end Operations

/-! ## Every interleaving -/

/-- The requests are served by threads. -/
def Service.serve (sv : Service) : NetPool → Event Net Request → NetPool := Pool.turn locking (Request.program sv)

/-- No one serves a request yet. -/
def unserved (w : World) : NetPool := ⟨⟨w, fun _ => none⟩, []⟩

/-- The condition on an event: a request does not arrive while one it clashes
with runs, and the random source repeats no generation. -/
def Undisturbed (s : NetPool) : Event Net Request → Prop
  | .spawn r => ∀ t ∈ s.threads, t.live → ¬r.Clashes t.op ∧ ¬t.op.Clashes r
  | .act i a => s.next i = some .generation → a.err = none → hexGeneration a.entropy ∉ s.shared.world.recorded

theorem guards_request (sv : Service) (r : Request) (i : Nat) (s : NetShared) :
    Guards r i (r.program sv) (s, []) fun _ _ => True := by
  have hstart (hr : r.orchestrated = false) : Outer r i (s, ([] : History NetI)).1 := fun h => by simp [hr] at h
  cases r with
  | add e => exact (guards_add (hstart rfl)).bind fun _ _ _ => trivial
  | check e => exact (guards_check (hstart rfl)).bind fun _ _ _ => trivial
  | delete e => exact (guards_delete_request (hstart rfl)).bind fun _ _ _ => trivial
  | bind e => exact (guards_bind (hstart rfl) rfl).bind fun _ _ _ => trivial
  | provision e => exact (guards_provision rfl).bind fun _ _ _ => trivial
  | release e => exact (guards_release rfl).bind fun _ _ _ => trivial
  | unbind e => exact (guards_unbind (hstart rfl) rfl).bind fun _ _ _ => trivial
  | report e => exact (guards_report (hstart rfl) rfl).bind fun _ _ _ => trivial

/-- The proof of every interleaving. -/
def Service.discipline (sv : Service) : RelyGuarantee Net locking (Request.program sv) where
  cond := Undisturbed
  J s := s.world.Tidy
  Inv := Pool.Apart fun r r' => ¬r.Clashes r'
  E := Fresh
  R := Rely
  G := Guarantee
  Q _ _ _ := True
  R_refl := Rely.refl
  R_trans _ _ _ _ _ := Rely.trans
  proof r i s _ := guards_request sv r i s
  cond_answer := by
    intro s i a r made c k hcond hi hc herr
    exact hcond (hc ▸ Pool.next_eq hi) herr
  inv_turn s e hs he := hs.turn fun r hr => by
    subst hr
    exact he
  J_step := by
    intro r i s h c s' hs hG
    rcases hG.world with hsame | ⟨k, o, n, hm, -⟩
    · exact hsame.tidy hs
    · exact hm.tidy hs
  Q_step _ _ _ _ _ _ _ _ _ _ _ := trivial
  rely := by
    intro s i j a r made c k t hinv htidy _ hi hj hlive hij hfree hG
    refine rely_of_guarantee hG htidy hfree rfl hij ?_ ?_
    · exact hinv i j _ t hi hj rfl hlive hij
    · exact hinv j i t _ hj hi hlive rfl hij.symm

instance (s : NetPool) (e : Event Net Request) : Decidable (Undisturbed s e) :=
  match e with
  | .spawn r => inferInstanceAs (Decidable (∀ t ∈ s.threads, t.live → ¬r.Clashes t.op ∧ ¬t.op.Clashes r))
  | .act i a => inferInstanceAs (Decidable
      (s.next i = some .generation → a.err = none → hexGeneration a.entropy ∉ s.shared.world.recorded))

/-- The pool after a run of events. -/
def Service.after (sv : Service) (w : World) (es : List (Event Net Request)) : NetPool := run sv.serve (unserved w) es

section Runs
variable {sv : Service} {w : World}

theorem kept_start (sv : Service) (hw : w.Tidy) : sv.discipline.Kept (unserved w) :=
  ⟨hw, fun i j t t' hi => (by cases hi), fun i t hi => (by cases hi)⟩

theorem kept_after {es : List (Event Net Request)} (hw : w.Tidy) (h : Conforms sv.serve Undisturbed (unserved w) es) :
    sv.discipline.Kept (sv.after w es) :=
  (kept_start sv hw).run h

/-- Over any part of a run, endpoint generations only get older. -/
theorem ages_after {es₁ es₂ : List (Event Net Request)} (hw : w.Tidy)
    (h : Conforms sv.serve Undisturbed (unserved w) (es₁ ++ es₂)) :
    (sv.after w es₁).shared.world.Ages (sv.after w (es₁ ++ es₂)).shared.world := by
  obtain ⟨h₁, h₂⟩ := conforms_append.1 h
  unfold Service.after
  rw [run_append]
  refine (kept_after hw h₁).shared_run (D := fun s s' : NetShared => s.world.Ages s'.world) (fun s => World.Ages.refl _)
    (fun _ _ _ => World.Ages.trans) ?_ h₂
  intro r i s h c s' _ hG
  rcases hG.world with hsame | ⟨k, o, n, hm, -⟩
  · exact hsame.ages
  · exact hm.ages

theorem deleting_of_stage {x : LinkState} (h : 2 ≤ x.stage) : x = .deleting := by
  cases x <;> simp_all [LinkState.stage]

/-- In every interleaving in which no `Bind`, `Unbind` or `Report` of a sandbox
runs beside a `Release` of it: a generation marked DELETING stays DELETING until
its record is gone; a discarded one is not written back; and `Store.Delete`
removes only a record of the generation whose backend resources the same request
deleted. -/
theorem Service.release_atomic (sv : Service) (hw : w.Tidy) :
    (∀ es₁ es₂, Conforms sv.serve Undisturbed (unserved w) (es₁ ++ es₂) →
      ∀ k e k' e', (sv.after w es₁).shared.world.at k = some e → e.state = .deleting →
        (sv.after w (es₁ ++ es₂)).shared.world.at k' = some e' → e'.generation = e.generation → e'.state = .deleting) ∧
    (∀ es₁ es₂ es₃, Conforms sv.serve Undisturbed (unserved w) (es₁ ++ es₂ ++ es₃) →
      ∀ k e, (sv.after w es₁).shared.world.at k = some e →
        (∀ k' e', (sv.after w (es₁ ++ es₂)).shared.world.at k' = some e' → e'.generation ≠ e.generation) →
        ∀ k' e', (sv.after w (es₁ ++ es₂ ++ es₃)).shared.world.at k' = some e' → e'.generation ≠ e.generation) ∧
    ∀ es, Conforms sv.serve Undisturbed (unserved w) es →
      ∀ (i : Nat) r made key k e, (sv.after w es).threads[i]? = some ⟨r, made, .call (.store (.delete key)) k⟩ →
        (sv.after w es).shared.world.at key = some e → torn made = some e.generation := by
  refine ⟨?_, ?_, ?_⟩
  · intro es₁ es₂ h k e k' e' he hdel he' hgen
    have htidy := (kept_after hw (conforms_append.1 h).1).shared
    have hrec := htidy.recorded k e he
    obtain ⟨o, ho, hogen, hstage⟩ := (ages_after hw h).older k' e' he' (hgen ▸ hrec)
    -- The record `e'` comes from is the one that was DELETING.
    have hkey := htidy.distinct k' o k e ho he (hogen.trans hgen)
    rw [hkey, he, Option.some.injEq] at ho
    rw [← ho, hdel] at hstage
    exact deleting_of_stage hstage
  · intro es₁ es₂ es₃ h k e he hgone k' e' he' hgen
    have h₁₂ := (conforms_append.1 h).1
    have hrec := (kept_after hw (conforms_append.1 h₁₂).1).shared.recorded k e he
    have hrec₂ := (ages_after hw h₁₂).recorded _ hrec
    obtain ⟨o, ho, hogen, -⟩ := (ages_after hw h).older k' e' he' (hgen ▸ hrec₂)
    exact hgone k' o ho (hogen.trans hgen)
  · intro es h i r made key k e hi he
    have hcond : Undisturbed (sv.after w es) (.act i {}) := fun hnext => by
      rw [Pool.next_eq hi] at hnext
      cases hnext
    exact ((kept_after hw h).step (P := sv.discipline) hcond hi rfl).1.torn key e rfl he

end Runs

/-! ### Runs on fixed inputs -/

def sampleService : Service := ⟨172 * 2 ^ 24 + 31 * 2 ^ 16, 24, 1400, {}, "00000000-0000-0000-0000-000000000001", true⟩

/-- A sandbox's endpoint in a namespace of its own. -/
def sampleProvision : Endpoint :=
  { containerID := "c1", networkName := "pods", ifName := "eth0", sandboxID := "s", sandboxGeneration := sampleGeneration }

/-- Thread `i` makes `n` calls, and all of them succeed. -/
def acts (i n : Nat) : List (Event Net Request) := List.replicate n (.act i {})

/-- The records of the store. -/
def Service.records (sv : Service) (es : List (Event Net Request)) : List (String × LinkState) :=
  (sv.after .init es).shared.world.store.data.values.map fun e => (e.generation, e.state)

/-- An endpoint for sandbox `s`, and its release up to the DELETING record while
an allocation waits at `mu`. -/
def releasedBesideAdd : List (Event Net Request) :=
  .spawn (.provision sampleProvision) :: acts 0 20 ++ [.spawn (.release sampleProvision), .spawn (.add (sampleEndpoint 2))] ++
    acts 1 2 ++ acts 2 3 ++ acts 1 2

theorem tidy_init : World.init.Tidy :=
  ⟨fun _ _ h => (by cases h), fun _ _ h => (by cases h), fun _ _ _ _ h => (by cases h)⟩

theorem Service.release_atomic_besideAdd :
    (∃ e, (sampleService.after .init releasedBesideAdd).shared.world.at sampleProvision.key = some e ∧
      e.state = .deleting ∧ e.generation = hexGeneration 0) ∧
      ∀ k' e', (sampleService.after .init (releasedBesideAdd ++ acts 1 9)).shared.world.at k' = some e' →
        e'.generation = hexGeneration 0 → e'.state = .deleting := by
  have hdel : ((sampleService.after .init releasedBesideAdd).shared.world.at sampleProvision.key).any fun e =>
      e.state = .deleting ∧ e.generation = hexGeneration 0 := by
    decide +kernel
  obtain ⟨e, he, hstate⟩ := (Option.any_eq_true _ _).1 hdel
  obtain ⟨hstate, hgen₀⟩ := of_decide_eq_true hstate
  refine ⟨⟨e, he, hstate, hgen₀⟩, fun k' e' he' hgen => ?_⟩
  exact (release_atomic sampleService tidy_init).1 releasedBesideAdd (acts 1 9) (by decide +kernel) _ e k' e' he hstate he'
    (hgen.trans hgen₀.symm)

/-- A report of sandbox `s` has read its endpoint when a release of `s` marks
it DELETING. -/
def releasedBesideReport : List (Event Net Request) :=
  .spawn (.provision sampleProvision) :: acts 0 20 ++
    [.spawn (.report { sampleProvision with generation := hexGeneration 0, state := .ready }),
      .spawn (.release sampleProvision)] ++ acts 1 2 ++ acts 2 4

/-- The release goes on and discards the record; then the report writes it
back, READY. -/
theorem Service.release_not_atomic :
    sampleService.records releasedBesideReport = [(hexGeneration 0, .deleting)] ∧
      sampleService.records (releasedBesideReport ++ acts 2 4) = [] ∧
      sampleService.records (releasedBesideReport ++ acts 2 4 ++ acts 1 3) = [(hexGeneration 0, .ready)] := by
  decide +kernel

end Multikernel.Network
