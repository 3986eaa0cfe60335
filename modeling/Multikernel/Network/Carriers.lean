import Multikernel.Network.Writes
/-!
# One endpoint per sandbox

`Release`, `Unbind` and `Report` act on the first endpoint they find with a
sandbox's ID. `Bind` finds its endpoint by namespace and does not look whether
another one carries the sandbox, so two can. Where every `Bind` and `Provision`
names a sandbox that no other endpoint carries, at most one endpoint carries a
sandbox after any run, the three operations do not depend on the order of the
list, and a release that succeeds leaves the sandbox without an endpoint.
-/

namespace Multikernel.Network
open Lib

/-! ## Records and their sandboxes -/

/-- Every record is under its own key, and at most one carries a sandbox. -/
structure Endpoints.Sole (x : Endpoints) : Prop where
  keyed : ∀ k e, x.lookup k = some e → e.key = k
  sole : ∀ k e k' e', x.lookup k = some e → x.lookup k' = some e' → e.sandboxID ≠ "" → e'.sandboxID = e.sandboxID →
    k' = k

/-- No record under another key carries the sandbox of `e`. -/
def Endpoints.Fits (x : Endpoints) (e : Endpoint) : Prop :=
  ∀ k e', x.lookup k = some e' → e.sandboxID ≠ "" → e'.sandboxID = e.sandboxID → k = e.key

section Records
variable {x : Endpoints} {e e' : Endpoint} {k k' : String × String × String}

theorem Endpoints.sole_empty : (∅ : Endpoints).Sole := ⟨fun _ _ h => (by cases h), fun _ _ _ _ h => (by cases h)⟩

theorem Endpoints.Sole.insert (hx : x.Sole) (he : x.Fits e) : Endpoints.Sole (x.insert e.key e) where
  keyed k a ha := by
    rcases Endpoints.insert_cases ha with ⟨rfl, rfl⟩ | ha
    · rfl
    · exact hx.keyed k a ha
  sole k a k' a' ha ha' hne heq := by
    rcases Endpoints.insert_cases ha with ⟨rfl, rfl⟩ | ha₀ <;>
      rcases Endpoints.insert_cases ha' with ⟨rfl, rfl⟩ | ha₀'
    · rfl
    · exact he k' a' ha₀' hne heq
    · exact (he k a ha₀ (heq ▸ hne) heq.symm).symm
    · exact hx.sole k a k' a' ha₀ ha₀' hne heq

theorem Endpoints.Sole.erase (hx : x.Sole) (k : String × String × String) : Endpoints.Sole (x.erase k) where
  keyed k a ha := hx.keyed k a (Endpoints.erase_cases ha).2
  sole k a k' a' ha ha' := hx.sole k a k' a' (Endpoints.erase_cases ha).2 (Endpoints.erase_cases ha').2

theorem Endpoints.fits_of_unbound (h : e.sandboxID = "") : x.Fits e := fun _ _ _ hne => absurd h hne

/-- A record that keeps its sandbox fits in its own place. -/
theorem Endpoints.Sole.fits (hx : x.Sole) (h : x.lookup e.key = some e) (hkey : e'.key = e.key)
    (hid : e'.sandboxID = e.sandboxID) : x.Fits e' := by
  intro k a ha hne heq
  rw [hid] at hne heq
  rw [hkey]
  exact hx.sole e.key e k a h ha hne heq

theorem Endpoints.Sole.lookup_of_mem (hx : x.Sole) (h : e ∈ x.values) : x.lookup e.key = some e := by
  obtain ⟨k, hk⟩ := Endpoints.mem_values.1 h
  rw [hx.keyed k e hk]
  exact hk

theorem carrier_some {es : List Endpoint} {id : String} (h : carrier es id = some e) : e ∈ es ∧ e.sandboxID = id :=
  ⟨List.mem_of_find?_eq_some h, by simpa using List.find?_some h⟩

theorem Endpoints.Sole.carrier (hx : x.Sole) {es : List Endpoint} {id : String} (hes : es.Perm x.values)
    (h : carrier es id = some e) : x.lookup e.key = some e ∧ e.sandboxID = id :=
  ⟨hx.lookup_of_mem (hes.mem_iff.1 (carrier_some h).1), (carrier_some h).2⟩

theorem Endpoints.no_carrier {es : List Endpoint} {id : String} (hes : es.Perm x.values) (h : Network.carrier es id = none)
    (hk : x.lookup k = some e) : e.sandboxID ≠ id := by
  have hmem : e ∈ es := hes.mem_iff.2 (Endpoints.mem_values.2 ⟨k, hk⟩)
  simpa using List.find?_eq_none.1 h e hmem

theorem ne_empty_of_named (h : e.named) : e.sandboxID ≠ "" := by
  intro h0
  simp only [Endpoint.named, h0, Bool.and_eq_true] at h
  exact absurd h.1 (by decide)

end Records

/-! ## What each operation keeps -/

/-- The store in memory and the file. -/
structure World.Sole (w : World) : Prop where
  data : w.store.data.Sole
  file : w.store.file.Sole

theorem Persists.sole {w w' : World} {next : Endpoints} {r : Option Err} (h : Persists w next w' r) (hw : w.Sole)
    (hnext : next.Sole) : w'.Sole := by
  cases h with
  | done h => exact ⟨h ▸ hnext, h ▸ hnext⟩
  | failed hdata hfile =>
    refine ⟨hdata ▸ hw.data, ?_⟩
    rcases hfile with h | h
    · exact h ▸ hw.file
    · exact h ▸ hnext

/-- Every endpoint of `w'` that carries a sandbox carried it in `w`. -/
def World.Binds (w w' : World) : Prop :=
  ∀ k e, w'.store.data.lookup k = some e → e.sandboxID ≠ "" → ∃ e₀, w.store.data.lookup k = some e₀ ∧ e₀.sandboxID = e.sandboxID

theorem Persists.binds {w₀ w w' : World} {next : Endpoints} {r : Option Err} (h : Persists w next w' r) (hw : w₀.Binds w)
    (hnext : ∀ k e, next.lookup k = some e → e.sandboxID ≠ "" →
      ∃ e₀, w.store.data.lookup k = some e₀ ∧ e₀.sandboxID = e.sandboxID) : w₀.Binds w' := by
  intro k e he hne
  cases h with
  | done h =>
    rw [h] at he
    obtain ⟨e₁, he₁, hid₁⟩ := hnext k e he hne
    obtain ⟨e₀, he₀, hid₀⟩ := hw k e₁ he₁ (hid₁ ▸ hne)
    exact ⟨e₀, he₀, hid₀.trans hid₁⟩
  | failed hdata _ =>
    rw [hdata] at he
    exact hw k e he hne

/-- `w` is sole and has no binding that `w₀` did not have. -/
structure World.From (w₀ w : World) : Prop where
  sole : w.Sole
  binds : w₀.Binds w

theorem World.From.refl {w : World} (h : w.Sole) : w.From w := ⟨h, fun _ e he _ => ⟨e, he, rfl⟩⟩

theorem World.From.unbound {w₀ w w' : World} {e : Endpoint} {r : Option Err} (hw : w₀.From w) (he : e.sandboxID = "")
    (h : Persists w (w.store.data.insert e.key e) w' r) : w₀.From w' := by
  refine ⟨h.sole hw.sole (hw.sole.data.insert (Endpoints.fits_of_unbound he)), h.binds hw.binds fun k a ha hne => ?_⟩
  rcases Endpoints.insert_cases ha with ⟨-, rfl⟩ | ha
  · exact absurd he hne
  · exact ⟨a, ha, rfl⟩

section Operations
variable {s : Service} {w₀ w : World} {e : Endpoint}

/-- Only a binding binds. -/
theorem from_upheld : Upheld s w₀.From where
  keyed _ k e hw he := hw.sole.data.keyed k e he
  revised w w' e₀ e r hw he₀ he hid _ hp := by
    rcases hid with hid | hid
    · have hkey : e₀.key = e.key := he.key.symm
      refine ⟨hp.sole hw.sole (hw.sole.data.insert (hw.sole.data.fits (e := e₀) (hkey ▸ he₀) he.key hid)),
        hp.binds hw.binds fun k a ha _ => ?_⟩
      rcases Endpoints.insert_cases ha with ⟨rfl, rfl⟩ | ha
      · exact ⟨e₀, he₀, hid.symm⟩
      · exact ⟨a, ha, rfl⟩
    · exact hw.unbound hid hp
  erased w w' k r hw hp :=
    ⟨hp.sole hw.sole (hw.sole.data.erase k), hp.binds hw.binds fun _ a ha _ => ⟨a, (Endpoints.erase_cases ha).2, rfl⟩⟩
  allocated w w' e es slot gen t r hw _ _ _ hv hp := hw.unbound (e := s.allocation e slot gen t) (unbound_of_allocating hv rfl) hp

/-- So what keeps to the endpoints that were bound keeps them sole. -/
theorem sole_of_from {α : Type} {p : Act α} (h : ∀ w, World.From w₀ w → Through w₀.From p w fun _ => w₀.From) (hw : w₀.Sole) :
    Through World.Sole p w₀ fun _ => World.Sole :=
  (h w₀ (.refl hw)).imp (fun _ _ h => h.sole) fun _ _ h => h.sole

/-- Marking a stored endpoint DELETING. -/
theorem sole_markDeleting {α : Type} {f : Except Err Endpoint → Act α} {Q : α → World → Prop} (hw : w.Sole)
    (h : w.store.data.lookup e.key = some e) (herr : ∀ (w' : World) err, w'.Sole → Through World.Sole (f (.error err)) w' Q)
    (hok : ∀ (w' : World) (marked : Endpoint), w'.Sole → marked.key = e.key →
      (∀ k a, w'.store.data.lookup k = some a → k ≠ e.key → w.store.data.lookup k = some a) →
      Through World.Sole (f (.ok marked)) w' Q) :
    Through World.Sole (markDeleting e >>= f) w Q := by
  unfold markDeleting
  refine sat_bind.2 (Sat.unless (hok w e hw rfl fun _ _ ha _ => ha) fun _ => ?_)
  refine through_now hw fun t => through_put hw (fun err => herr w err hw) fun _ w' r hp => ?_
  have hw' : w'.Sole := hp.sole hw (hw.data.insert (hw.data.fits h rfl rfl))
  cases hp with
  | failed _ _ => exact herr w' _ hw'
  | done hs =>
    refine hok w' _ hw' rfl fun k a ha hk => ?_
    rw [hs] at ha
    exact (Endpoints.insert_cases ha).resolve_left fun h => hk h.1

/-- Binding the one endpoint of a namespace, where every carrier of the sandbox
is in that namespace. -/
theorem sole_bind (hw : w.Sole)
    (hK : ∀ k a, w.store.data.lookup k = some a → a.sandboxID = e.sandboxID → a.netNS = e.netNS) :
    Through World.Sole (Network.bind e) w fun _ => World.Sole := by
  unfold Network.bind
  refine through_withLock hw (Sat.unless ⟨hw, hw⟩ fun _ => through_list hw fun es hes => ?_)
  split
  · exact ⟨hw, hw⟩
  · rename_i found hfound
    have hmem (a : Endpoint) (ha : a ∈ w.store.data.values) (hns : a.netNS = e.netNS) : a = found := by
      have : a ∈ es.filter fun candidate => candidate.netNS == e.netNS :=
        List.mem_filter.2 ⟨hes.mem_iff.2 ha, by simpa using hns⟩
      rw [hfound] at this
      exact List.mem_singleton.1 this
    unfold bindFound
    refine Sat.unless ⟨hw, hw⟩ fun _ => Sat.unless ⟨hw, hw⟩ fun _ => ?_
    refine Sat.unless ⟨hw, hw⟩ fun _ => through_backend hw fun _ => Sat.unless ⟨hw, hw⟩ fun _ => ?_
    refine through_now hw fun t => through_put hw (fun _ => ⟨hw, hw⟩) fun _ w' r hp => ?_
    have hw' : w'.Sole := by
      refine hp.sole hw (hw.data.insert fun k a ha _ heq => ?_)
      -- Every carrier is in the namespace, and `found` is the only one there.
      have hfa := hmem a (Endpoints.mem_values.2 ⟨k, ha⟩) (hK k a ha heq)
      rw [← hw.data.keyed k a ha, hfa]
      rfl
    exact Sat.unless ⟨hw', hw'⟩ fun _ => ⟨hw', hw'⟩
  · exact ⟨hw, hw⟩

theorem sole_provision (hw : w.Sole)
    (hK : ∀ k a, w.store.data.lookup k = some a → a.sandboxID = e.sandboxID → a.key = e.key) :
    Through World.Sole (s.provision e) w fun _ => World.Sole := by
  unfold Service.provision
  refine through_withLock hw (Sat.unless ⟨hw, hw⟩ fun hnamed => through_list hw fun es hes => ?_)
  split
  · rename_i hnone
    -- No endpoint has this identity, so none carries the sandbox.
    have hnot (k) (a : Endpoint) (ha : w.store.data.lookup k = some a) : a.sandboxID ≠ e.sandboxID := by
      intro hid
      have hmem : a ∈ es := hes.mem_iff.2 (Endpoints.mem_values.2 ⟨k, ha⟩)
      have := List.find?_eq_none.1 hnone a hmem
      simp [hK k a ha hid] at this
    unfold Service.provisionNew
    refine Sat.bind (R := fun _ => w.From)
      ((upheld_add from_upheld w (.refl hw)).imp (fun _ _ h => h.sole) fun _ _ h => h) fun r w' hw' => ?_
    cases r with
    | error issue => exact ⟨hw'.sole, hw'.sole⟩
    | ok allocated =>
      refine Sat.bind (sole_bind hw'.sole ?_) fun r w'' hw'' => ?_
      · intro k a ha hid
        have hne : a.sandboxID ≠ "" := by
          rw [hid]
          exact ne_empty_of_named (e := e) (by simpa using hnamed)
        obtain ⟨a₀, ha₀, hid₀⟩ := hw'.binds k a ha hne
        exact absurd (hid₀.trans hid) (hnot k a₀ ha₀)
      · cases r with
        | ok bound => exact ⟨hw'', hw''⟩
        | error issue => exact (sole_of_from (upheld_delete from_upheld) hw'').bind fun _ _ h => ⟨h, h⟩
  · rename_i candidate hfind
    refine Sat.unless ⟨hw, hw⟩ fun hc => ?_
    simp only [not_or, not_not] at hc
    have hcand := hw.data.lookup_of_mem (hes.mem_iff.1 (List.mem_of_find?_eq_some hfind))
    refine (sole_bind hw ?_).mono fun _ _ h => ⟨h, h⟩
    intro k a ha hid
    -- The carrier and the candidate have the identity of the request.
    have hka : k = candidate.key := by rw [← hw.data.keyed k a ha, hK k a ha hid, hc.1]
    rw [hka, hcand, Option.some.injEq] at ha
    exact ha ▸ rfl

/-- Nothing is bound to the sandbox generation of `e`. -/
def World.Free (w : World) (e : Endpoint) : Prop :=
  ∀ k a, w.store.data.lookup k = some a → ¬(a.sandboxID = e.sandboxID ∧ a.sandboxGeneration = e.sandboxGeneration)

/-- Without the one carrier of its sandbox, nothing is bound to it. -/
theorem World.Sole.free {w' : World} {found : Endpoint} (hw : w.Sole) (hfound : w.store.data.lookup found.key = some found)
    (hid : found.sandboxID = e.sandboxID) (hne : e.sandboxID ≠ "")
    (h : ∀ k a, w'.store.data.lookup k = some a → a.sandboxID ≠ "" → k ≠ found.key ∧ w.store.data.lookup k = some a) :
    w'.Free e := by
  rintro k a ha ⟨haid, -⟩
  obtain ⟨hk, ha⟩ := h k a ha (haid ▸ hne)
  exact hk (hw.data.sole found.key found k a hfound ha (hid ▸ hne) (haid.trans hid.symm))

theorem sole_unbind (hw : w.Sole) : Through World.Sole (unbind e) w fun r w' => w'.Sole ∧ (r = none → w'.Free e) := by
  unfold unbind
  have hstop (x : APIError) : w.Sole ∧ w.Sole ∧ (some x = none → w.Free e) := ⟨hw, hw, fun h => by cases h⟩
  refine through_withLock hw (Sat.unless (hstop _) fun hnamed => through_list hw fun es hes => ?_)
  split
  · rename_i hnone
    exact ⟨hw, hw, fun _ k a ha h => Endpoints.no_carrier hes hnone ha h.1⟩
  · rename_i found hcarrier
    obtain ⟨hfound, hid⟩ := hw.data.carrier hes hcarrier
    refine Sat.unless (hstop _) fun _ => through_now hw fun t => ?_
    refine through_put hw (fun _ => hstop _) fun _ w' r hp => ?_
    have hw' := hp.sole hw (hw.data.insert (Endpoints.fits_of_unbound rfl))
    cases hp with
    | failed _ _ => exact ⟨hw', hw', fun h => by cases h⟩
    | done hs =>
      refine ⟨hw', hw', fun _ => hw.free hfound hid (ne_empty_of_named (by simpa using hnamed)) fun k a ha hne => ?_⟩
      rw [hs] at ha
      by_cases hk : k = found.key
      · subst hk
        rw [show found.key = Endpoint.key { found with sandboxID := "", sandboxGeneration := "", updatedAt := t } from rfl,
          AList.lookup_insert, Option.some.injEq] at ha
        exact absurd (ha ▸ rfl) hne
      · exact ⟨hk, (Endpoints.insert_cases ha).resolve_left fun h => hk h.1⟩

theorem sole_releaseOwned (hw : w.Sole) {found : Endpoint} (hfound : w.store.data.lookup found.key = some found)
    (hid : found.sandboxID = e.sandboxID) (hne : e.sandboxID ≠ "") :
    Through World.Sole (s.releaseOwned found) w fun r w' => w'.Sole ∧ (r = none → w'.Free e) := by
  unfold Service.releaseOwned
  refine sole_markDeleting hw hfound (fun w' _ hw' => ⟨hw', fun h => by cases h⟩) fun w' marked hw' hkey hrest => ?_
  refine upheld_rollbackAllocation hw' fun r => sat_ite.2 ⟨fun _ => ⟨hw', fun h => by cases h⟩, fun _ => ?_⟩
  refine through_delete hw' fun w'' r hp => ?_
  have hw'' := hp.sole hw' (hw'.data.erase _)
  cases hp with
  | failed _ _ => exact ⟨hw'', fun h => by cases h⟩
  | done hs =>
    refine ⟨hw'', fun _ => hw.free hfound hid hne fun k a ha _ => ?_⟩
    rw [hs] at ha
    obtain ⟨hk, ha⟩ := Endpoints.erase_cases ha
    have hk : k ≠ found.key := hkey ▸ hk
    exact ⟨hk, hrest k a ha hk⟩

/-- A release that succeeds leaves nothing bound to the sandbox generation. -/
theorem sole_release (hw : w.Sole) :
    Through World.Sole (s.release e) w fun r w' => w'.Sole ∧ (r = none → w'.Free e) := by
  unfold Service.release
  have hstop (x : APIError) : w.Sole ∧ w.Sole ∧ (some x = none → w.Free e) := ⟨hw, hw, fun h => by cases h⟩
  refine through_withLock hw (Sat.unless (hstop _) fun hnamed => through_list hw fun es hes => ?_)
  split
  · rename_i hnone
    exact ⟨hw, hw, fun _ k a ha h => Endpoints.no_carrier hes hnone ha h.1⟩
  · rename_i found hcarrier
    obtain ⟨hfound, hid⟩ := hw.data.carrier hes hcarrier
    refine Sat.unless (hstop _) fun _ => Sat.unless ?_ fun _ => ?_
    · exact (sole_unbind hw).mono fun _ _ h => ⟨h.1, h⟩
    · exact (sole_releaseOwned hw hfound hid (ne_empty_of_named (by simpa using hnamed))).mono fun _ _ h => ⟨h.1, h⟩

end Operations

/-! ## The order of the list -/

/-- The answers differ at most in the order of the list. -/
def Answer.SameButOrder (a a' : Answer) : Prop := { a with shuffle := id } = { a' with shuffle := id }

theorem Answer.SameButOrder.step {a a' : Answer} (h : a.SameButOrder a') (w : World) {c : Call} (hc : c ≠ .store .list) :
    Network.step w c a = Network.step w c a' := by
  obtain ⟨err, persist, _, created, bootID, entropy, time⟩ := a
  obtain ⟨err', persist', _, created', bootID', entropy', time'⟩ := a'
  simp only [Answer.SameButOrder, Answer.mk.injEq, true_and] at h
  obtain ⟨rfl, rfl, rfl, rfl, rfl, rfl⟩ := h
  cases c with
  | store c => cases c <;> first | rfl | exact absurd rfl hc
  | _ => rfl

/-- Whatever the order of the list, the program goes on the same. -/
def OrderFree {α : Type} : Act α → World → Prop
  | .ret _, _ => True
  | .call c k, w =>
    (∀ a a' : Answer, a.SameButOrder a' → k (step w c a).2 = k (step w c a').2) ∧
      ∀ a, OrderFree (k (step w c a).2) (step w c a).1

section Order
variable {α β : Type} {w : World}

theorem world_of_sameButOrder {a a' : Answer} (h : a.SameButOrder a') (w : World) (c : Call) :
    (step w c a).1 = (step w c a').1 := by
  by_cases hc : c = .store .list
  · subst hc
    rfl
  · rw [h.step w hc]

theorem OrderFree.exec_eq {p : Act α} {as as' : List Answer} (h : OrderFree p w)
    (has : List.Forall₂ Answer.SameButOrder as as') : exec Net p w as = exec Net p w as' := by
  induction p generalizing w as as' with
  | ret a => rfl
  | call c k ih =>
    cases has with
    | nil => rfl
    | @cons a a' as as' ha has =>
      have hnext := ih _ (h.2 a) has
      simp only [exec]
      rw [hnext, h.1 a a' ha, world_of_sameButOrder ha w c]

theorem OrderFree.bind {p : Act α} {f : α → Act β} (hp : OrderFree p w) (hf : ∀ a w', OrderFree (f a) w') :
    OrderFree (p >>= f) w := by
  induction p generalizing w with
  | ret a => exact hf a w
  | call c k ih => exact ⟨fun a a' h => congrArg (· >>= f) (hp.1 a a' h), fun a => ih _ (hp.2 a)⟩

/-- Any call but `List`. -/
def Unlisted (c : Call) : Prop := c ≠ .store .list

theorem orderFree_of_emits {p : Act α} (h : Only Unlisted p) (w : World) : OrderFree p w := by
  induction p generalizing w with
  | ret a => trivial
  | call c k ih => exact ⟨fun a a' ha => by rw [ha.step w h.1], fun a => ih _ (h.2 _ () trivial) _⟩

theorem orderFree_list {f : List Endpoint → Act α}
    (heq : ∀ es es', es.Perm w.store.data.values → es'.Perm w.store.data.values → f es = f es')
    (h : ∀ es, es.Perm w.store.data.values → OrderFree (f es) w) : OrderFree (store.list >>= f) w :=
  ⟨fun a a' _ => heq _ _ (a.order_perm _) (a'.order_perm _), fun a => h _ (a.order_perm _)⟩

theorem orderFree_withLock {m : Mutex} {p : Act α} (h : OrderFree p w) : OrderFree (withLock m p) w :=
  ⟨fun _ _ _ => rfl, fun _ => h.bind fun _ _ => ⟨fun _ _ _ => rfl, fun _ => trivial⟩⟩

theorem Endpoints.Sole.carrier_eq {x : Endpoints} (hx : x.Sole) {es es' : List Endpoint} {id : String}
    (hes : es.Perm x.values) (hes' : es'.Perm x.values) (hid : id ≠ "") : Network.carrier es id = Network.carrier es' id := by
  cases hc : Network.carrier es id with
  | none =>
    cases hc' : Network.carrier es' id with
    | none => rfl
    | some e' =>
      obtain ⟨he', hid'⟩ := hx.carrier hes' hc'
      exact absurd hid' (Endpoints.no_carrier hes hc he')
  | some e =>
    obtain ⟨he, heid⟩ := hx.carrier hes hc
    cases hc' : Network.carrier es' id with
    | none => exact absurd heid (Endpoints.no_carrier hes' hc' he)
    | some e' =>
      obtain ⟨he', heid'⟩ := hx.carrier hes' hc'
      have hkey := hx.sole e.key e e'.key e' he he' (heid ▸ hid) (heid'.trans heid.symm)
      rw [hkey, he] at he'
      exact he'

/-- A program that goes on with the carrier of a sandbox. -/
theorem orderFree_carrier {id : String} {f : List Endpoint → Act α} (hw : w.Sole) (hid : id ≠ "")
    (hf : ∀ es es', carrier es id = carrier es' id → f es = f es') (h : ∀ es, OrderFree (f es) w) :
    OrderFree (store.list >>= f) w :=
  orderFree_list (fun es es' hes hes' => hf es es' (hw.data.carrier_eq hes hes' hid)) fun es _ => h es

theorem orderFree_ite {c : Prop} [Decidable c] {p q : Act α} (hp : c → OrderFree p w) (hq : ¬c → OrderFree q w) :
    OrderFree (if c then p else q) w := by
  split
  · exact hp ‹_›
  · exact hq ‹_›

end Order

section Ordered
variable {s : Service} {w : World} {e : Endpoint}

theorem orderFree_unbind (hw : w.Sole) : OrderFree (unbind e) w := by
  unfold unbind
  refine orderFree_withLock (orderFree_ite (fun _ => trivial) fun hnamed => ?_)
  refine orderFree_carrier hw (ne_empty_of_named (e := e) (by simpa using hnamed)) (fun es es' h => by simp only [h]) fun es => ?_
  refine orderFree_of_emits ?_ w
  split
  · trivial
  · refine Sat.unless trivial fun _ => ⟨nofun, fun t _ _ => ⟨nofun, fun r _ _ => ?_⟩⟩
    exact Sat.unless trivial fun _ => trivial

theorem orderFree_report (hw : w.Sole) : OrderFree (report e) w := by
  unfold report
  refine orderFree_withLock (orderFree_ite (fun _ => trivial) fun hnamed => ?_)
  simp only [not_or, not_not] at hnamed
  refine orderFree_carrier hw (ne_empty_of_named hnamed.1) (fun es es' h => by simp only [h]) fun es => ?_
  refine orderFree_of_emits ?_ w
  split
  · trivial
  · refine Sat.unless trivial fun _ => Sat.unless trivial fun _ => ?_
    refine Sat.unless trivial fun _ => Sat.unless trivial fun _ => ?_
    refine ⟨nofun, fun t _ _ => ⟨nofun, fun r _ _ => ?_⟩⟩
    exact Sat.unless trivial fun _ => trivial

theorem unlisted_rollbackAllocation : Only Unlisted (s.rollbackAllocation e) := by
  unfold Service.rollbackAllocation
  refine ⟨nofun, fun r _ _ => Sat.unless trivial fun _ => Sat.unless trivial fun _ => ?_⟩
  exact ⟨nofun, fun _ _ _ => trivial⟩

theorem unlisted_markDeleting : Only Unlisted (markDeleting e) := by
  unfold markDeleting
  refine Sat.unless trivial fun _ => ⟨nofun, fun t _ _ => ⟨nofun, fun r _ _ => ?_⟩⟩
  change Option Err at r
  cases r <;> trivial

theorem unlisted_releaseOwned : Only Unlisted (s.releaseOwned e) := by
  unfold Service.releaseOwned
  refine unlisted_markDeleting.bind fun r => ?_
  cases r with
  | error err => trivial
  | ok marked =>
    refine unlisted_rollbackAllocation.bind fun r => Sat.unless trivial fun _ => ⟨nofun, fun r _ _ => ?_⟩
    exact Sat.unless trivial fun _ => trivial

theorem orderFree_release (hw : w.Sole) : OrderFree (s.release e) w := by
  unfold Service.release
  refine orderFree_withLock (orderFree_ite (fun _ => trivial) fun hnamed => ?_)
  refine orderFree_carrier hw (ne_empty_of_named (e := e) (by simpa using hnamed)) (fun es es' h => by simp only [h]) fun es => ?_
  split
  · trivial
  · refine orderFree_ite (fun _ => trivial) fun _ => orderFree_ite (fun _ => ?_) fun _ => ?_
    · exact orderFree_unbind hw
    · exact orderFree_of_emits unlisted_releaseOwned w

/-- The requests that look for the carrier of a sandbox do not depend on the
order of the list. -/
theorem orderFree_request {r : Request} (hw : w.Sole) (hr : r ∈ [.release e, .unbind e, .report e]) :
    OrderFree (r.program s) w := by
  simp only [List.mem_cons, List.not_mem_nil, or_false] at hr
  rcases hr with rfl | rfl | rfl
  · exact (orderFree_release hw).bind fun _ _ => trivial
  · exact (orderFree_unbind hw).bind fun _ _ => trivial
  · exact (orderFree_report hw).bind fun _ _ => trivial

end Ordered

/-! ## Runs -/

/-- The sandbox a request binds is carried by no endpoint but the one it
names: `Bind` names it by its namespace, `Provision` by its identity. -/
def Request.Unclaimed (w : World) : Request → Prop
  | .bind e => ∀ a ∈ w.store.data.values, a.sandboxID = e.sandboxID → a.netNS = e.netNS
  | .provision e => ∀ a ∈ w.store.data.values, a.sandboxID = e.sandboxID → a.key = e.key
  | _ => True

def Daemon.Unclaimed (d : Daemon) (t : Turn) : Prop :=
  match t.op with
  | .request r => r.Unclaimed d.world
  | .boot _ => True

instance (d : Daemon) (t : Turn) : Decidable (d.Unclaimed t) := by
  unfold Daemon.Unclaimed Request.Unclaimed
  exact match t.op with
    | .boot _ => .isTrue trivial
    | .request r => by cases r <;> infer_instance

theorem sole_request {s : Service} {r : Request} {w : World} (hw : w.Sole) (hr : r.Unclaimed w) :
    Through World.Sole (r.program s) w fun _ => World.Sole := by
  cases r with
  | add e => exact (sole_of_from (upheld_add from_upheld) hw).bind fun _ _ h => h
  | check e => exact (upheld_check w hw).bind fun _ _ h => h
  | delete e => exact (sole_of_from (upheld_delete from_upheld) hw).bind fun _ _ h => h
  | bind e => exact (sole_bind hw fun k a ha => hr a (Endpoints.mem_values.2 ⟨k, ha⟩)).bind fun _ _ h => h
  | provision e => exact (sole_provision hw fun k a ha => hr a (Endpoints.mem_values.2 ⟨k, ha⟩)).bind fun _ _ h => h
  | release e => exact (sole_release hw).bind fun _ _ h => h.1
  | unbind e => exact (sole_unbind hw).bind fun _ _ h => h.1
  | report e => exact (sole_of_from (upheld_report (s := s) from_upheld) hw).bind fun _ _ h => h

theorem sole_upheldAtBoot : UpheldAtBoot World.Sole where
  opened _ hw _ := ⟨hw.file, hw.file⟩
  erased _ _ k _ hw hp := hp.sole hw (hw.data.erase k)

theorem sole_turn {d : Daemon} {t : Turn} (hd : d.world.Sole) (ht : d.Unclaimed t) : (d.turn t).world.Sole := by
  obtain ⟨op, as⟩ := t
  cases op with
  | boot f => exact (upheld_boot sole_upheldAtBoot f hd).exec_world (fun _ _ h => h) (fun _ _ h => h) as (meets_true Net _ _ as)
  | request r =>
    unfold Daemon.turn
    cases d.service with
    | none => exact hd
    | some s => exact (sole_request hd ht).exec_world (fun _ _ h => h) (fun _ _ h => h) as (meets_true Net _ _ as)

/-- Where every binding names a sandbox no other endpoint carries: after any
run at most one endpoint carries a sandbox; `Release`, `Unbind` and `Report`
end the same for every order of the list; and a release that succeeds leaves
nothing bound to its sandbox generation. -/
theorem Daemon.one_endpoint_per_sandbox {ts : List Turn} (h : Conforms Daemon.turn Daemon.Unclaimed .init ts) :
    (∀ k e k' e', (after ts).world.store.data.lookup k = some e → (after ts).world.store.data.lookup k' = some e' →
      e.sandboxID ≠ "" → e'.sandboxID = e.sandboxID → k' = k) ∧
    (∀ s e, ∀ r ∈ [.release e, .unbind e, .report e], ∀ as as', List.Forall₂ Answer.SameButOrder as as' →
      exec Net (Request.program s r) (after ts).world as = exec Net (Request.program s r) (after ts).world as') ∧
    ∀ (s : Service) e as w', exec Net (s.release e) (after ts).world as = (w', some none) → w'.Free e := by
  have hsole : (after ts).world.Sole :=
    h.inv (J := fun d => d.world.Sole) ⟨Endpoints.sole_empty, Endpoints.sole_empty⟩ fun d t hd ht => sole_turn hd ht
  refine ⟨hsole.data.sole, ?_, ?_⟩
  · intro s e r hr as as' has
    exact (orderFree_request hsole hr).exec_eq has
  · intro s e as w' he
    exact ((sole_release hsole).exec_result (meets_true Net _ _ as) he).2 rfl

def boundOnce : List Turn :=
  [booted, served 1 (.add (sampleEndpoint 1)), served 2 (.add (sampleEndpoint 2)), served 3 (.bind (sampleBinding 1 "s"))]

/-- One endpoint is bound; its release does not see the order of the list. -/
theorem Daemon.one_endpoint_boundOnce :
    ((after boundOnce).world.store.data.values.filter (·.sandboxID == "s")).length = 1 ∧
      ∀ (s : Service) as w', exec Net (s.release (sampleBinding 1 "s")) (after boundOnce).world as = (w', some none) →
        w'.Free (sampleBinding 1 "s") :=
  ⟨by decide +kernel, fun s => (one_endpoint_per_sandbox (by decide +kernel)).2.2 s _⟩

def boundTwice : List Turn := boundOnce ++ [served 4 (.bind (sampleBinding 2 "s"))]

/-- Two endpoints in different namespaces are bound to one sandbox. A release
of the sandbox then succeeds and leaves one of them bound. -/
theorem Daemon.two_endpoints_per_sandbox :
    ((after boundTwice).world.store.data.values.filter (·.sandboxID == "s")).length = 2 ∧
      (after boundTwice).acknowledges (served 5 (.release (sampleBinding 1 "s"))) ∧
      (after (boundTwice ++ [served 5 (.release (sampleBinding 1 "s"))])).world.store.data.values.any fun e =>
        e.sandboxID == "s" && e.sandboxGeneration == sampleGeneration := by
  decide +kernel

end Multikernel.Network
