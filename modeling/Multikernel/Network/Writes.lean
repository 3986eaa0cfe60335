import Multikernel.Network.Runs
/-!
# What the network service writes

Whatever it serves, the service writes to its store in four ways: it revises a
stored record, it deletes one, `Add` puts the record of a new allocation, and
`Bind` gives a record a sandbox. A property of the store that the first three
keep (`Upheld`), and the last (`Rebound`) where something is bound, holds wherever
a request or a restart stops.
-/

namespace Multikernel.Network
open Lib

/-- `e` is a later form of `e₀`. -/
structure Endpoint.Revises (e e₀ : Endpoint) : Prop where
  key : e.key = e₀.key
  generation : e.generation = e₀.generation
  address : e.address = e₀.address
  gateway : e.gateway = e₀.gateway

/-- What the writes of the service `s` keep that bind nothing. -/
structure Upheld (s : Service) (J : World → Prop) : Prop where
  keyed : ∀ w k e, J w → w.store.data.lookup k = some e → e.key = k
  revised : ∀ w w' e₀ e r, J w → w.store.data.lookup e.key = some e₀ → e.Revises e₀ →
    e.sandboxID = e₀.sandboxID ∨ e.sandboxID = "" → validateStoredEndpoint e.key e = none →
    Persists w (w.store.data.insert e.key e) w' r → J w'
  erased : ∀ w w' k r, J w → Persists w (w.store.data.erase k) w' r → J w'
  allocated : ∀ w w' e es slot gen t r, J w → es.Perm w.store.data.values → s.allocate es = some slot →
    w.store.data.lookup e.key = none → validateStoredEndpoint e.key (s.allocation e slot gen t) = none →
    Persists w (w.store.data.insert e.key (s.allocation e slot gen t)) w' r → J w'

/-- And what a binding keeps. -/
def Rebound (J : World → Prop) : Prop :=
  ∀ w w' e₀ e r, J w → w.store.data.lookup e.key = some e₀ → e.Revises e₀ → validateStoredEndpoint e.key e = none →
    Persists w (w.store.data.insert e.key e) w' r → J w'

section Requests
variable {s : Service} {J : World → Prop} {w : World} {e : Endpoint}

theorem upheld_rollbackAllocation {α : Type} {f : Option Err → Act α} {Q : α → World → Prop} (hw : J w)
    (h : ∀ r, Through J (f r) w Q) : Through J (s.rollbackAllocation e >>= f) w Q := by
  refine Sat.bind (R := fun _ w' => w' = w) ?_ fun r w' hw' => hw' ▸ h r
  unfold Service.rollbackAllocation
  refine through_backend hw fun _ => Sat.unless rfl fun _ => Sat.unless rfl fun _ => ?_
  exact through_backend hw fun _ => rfl

theorem upheld_check : ∀ w, J w → Through J (check e) w fun _ => J := by
  intro w hw
  unfold check
  refine through_withLock hw ?_
  split
  · exact ⟨hw, hw⟩
  refine through_get hw ?_
  split
  · exact ⟨hw, hw⟩
  refine Sat.unless ⟨hw, hw⟩ fun _ => Sat.unless ⟨hw, hw⟩ fun _ => ?_
  refine Sat.unless ⟨hw, hw⟩ fun _ => through_backend hw fun _ => ?_
  exact Sat.unless ⟨hw, hw⟩ fun _ => ⟨hw, hw⟩

variable (hJ : Upheld s J)
include hJ

theorem upheld_abandon {stage : String} (hw : J w) : Through J (s.abandon e stage) w fun _ => J := by
  unfold Service.abandon Service.retire
  refine Sat.bind (R := fun _ => J) ?_ fun _ _ h => h
  refine upheld_rollbackAllocation hw fun r => ?_
  cases r with
  | some err => exact hw
  | none => exact through_delete (f := pure) hw fun w' r hp => hJ.erased w w' _ r hw hp

/-- A stored record in a later form. -/
theorem upheld_put {α : Type} {e₀ : Endpoint} {f : Option Err → Act α} {Q : α → World → Prop} (hw : J w)
    (he₀ : w.store.data.lookup e₀.key = some e₀) (he : e.Revises e₀) (hid : e.sandboxID = e₀.sandboxID ∨ e.sandboxID = "")
    (hf : ∀ r w', J w' → Through J (f r) w' Q) : Through J (store.put e >>= f) w Q :=
  through_put hw (fun _ => hf _ w hw) fun hv w' r hp =>
    hf r w' (hJ.revised w w' e₀ e r hw (by rw [he.key]; exact he₀) he hid hv hp)

theorem upheld_raise (hw : J w) (he : w.store.data.lookup e.key = some e) : Through J (s.raise e) w fun _ => J := by
  unfold Service.raise
  refine through_backend hw fun _ => Sat.unless (upheld_abandon hJ hw) fun _ => ?_
  refine through_now hw fun t => upheld_put hJ hw he ⟨rfl, rfl, rfl, rfl⟩ (.inl rfl) fun r w' hw' => ?_
  exact Sat.unless (upheld_abandon hJ hw') fun _ => hw'

theorem upheld_realise (hw : J w) (he : w.store.data.lookup e.key = some e) : Through J (s.realise e) w fun _ => J := by
  unfold Service.realise
  refine Sat.unless (upheld_raise hJ hw he) fun _ => through_backend hw fun r => ?_
  cases r with
  | error err => exact upheld_abandon hJ hw
  | ok created => exact Sat.unless (upheld_abandon hJ hw) fun _ => upheld_raise hJ hw he

theorem upheld_addNew (hw : J w) (he : w.store.data.lookup e.key = none) : Through J (s.addNew e) w fun _ => J := by
  unfold Service.addNew
  refine through_list hw fun es hes => ?_
  cases hslot : s.allocate es with
  | none => exact hw
  | some slot =>
    refine through_still (fun _ => rfl) hw fun r => ?_
    cases r with
    | error err => exact hw
    | ok gen =>
      refine through_now hw fun t => Sat.unless hw fun _ => through_put hw (fun _ => hw) fun hv w' r hp => ?_
      have hw' := hJ.allocated w w' e es slot gen t r hw hes hslot he hv hp
      cases hp with
      | failed hdata hfile => exact hw'
      | done hs =>
        refine upheld_realise hJ hw' ?_
        rw [hs]
        exact AList.lookup_insert _

theorem upheld_add : ∀ w, J w → Through J (s.add e) w fun _ => J := by
  intro w hw
  unfold Service.add
  refine through_withLock hw ?_
  split
  · exact ⟨hw, hw⟩
  refine Sat.unless ⟨hw, hw⟩ fun _ => Sat.unless ⟨hw, hw⟩ fun _ => through_get hw ?_
  split
  · unfold addExisting
    refine Sat.unless ⟨hw, hw⟩ fun _ => Sat.unless ⟨hw, hw⟩ fun _ => through_backend hw fun _ => ?_
    exact Sat.unless ⟨hw, hw⟩ fun _ => ⟨hw, hw⟩
  · rename_i hnone
    exact (upheld_addNew hJ hw hnone).mono fun _ _ h => ⟨h, h⟩

/-- Marking a stored endpoint DELETING. -/
theorem upheld_markDeleting {α : Type} {f : Except Err Endpoint → Act α} {Q : α → World → Prop} (hw : J w)
    (he : w.store.data.lookup e.key = some e) (herr : ∀ w' err, J w' → Through J (f (.error err)) w' Q)
    (hok : ∀ w' marked, J w' → Through J (f (.ok marked)) w' Q) : Through J (markDeleting e >>= f) w Q := by
  unfold markDeleting
  refine sat_bind.2 (Sat.unless (hok w e hw) fun _ => ?_)
  refine through_now hw fun t => upheld_put hJ hw he ⟨rfl, rfl, rfl, rfl⟩ (.inl rfl) fun r w' hw' => ?_
  cases r with
  | some err => exact herr w' err hw'
  | none => exact hok w' _ hw'

theorem upheld_delete : ∀ w, J w → Through J (s.delete e) w fun _ => J := by
  intro w hw
  unfold Service.delete
  refine through_withLock hw ?_
  split
  · exact ⟨hw, hw⟩
  refine through_get hw ?_
  split
  · exact ⟨hw, hw⟩
  rename_i existing hget
  refine Sat.unless ⟨hw, hw⟩ fun _ => Sat.unless ⟨hw, hw⟩ fun _ => ?_
  refine Sat.unless ⟨hw, hw⟩ fun _ => ?_
  have hkey := hJ.keyed w _ _ hw hget
  refine upheld_markDeleting hJ hw (hkey ▸ hget) (fun w' _ hw' => ⟨hw', hw'⟩) fun w' marked hw' => ?_
  unfold Service.tearDown
  refine through_backend hw' fun _ => Sat.unless ⟨hw', hw'⟩ fun _ => Sat.unless ⟨hw', hw'⟩ fun _ => ?_
  refine sat_bind.2 (Sat.mono (Q := fun _ w'' => w'' = w') ?_ ?_)
  · exact Sat.unless (through_backend (f := pure) hw' fun _ => rfl) fun _ => rfl
  rintro _ _ rfl
  refine Sat.unless ⟨hw', hw'⟩ fun _ => through_delete hw' fun w'' r hp => ?_
  have hw'' := hJ.erased _ w'' _ r hw' hp
  exact Sat.unless ⟨hw'', hw''⟩ fun _ => ⟨hw'', hw''⟩

/-- A record of the list is stored under its key. -/
theorem lookup_of_listed {es : List Endpoint} (hw : J w) (hes : es.Perm w.store.data.values) (he : e ∈ es) :
    w.store.data.lookup e.key = some e := by
  obtain ⟨k, hk⟩ := Endpoints.mem_values.1 (hes.mem_iff.1 he)
  rw [hJ.keyed w k e hw hk]
  exact hk

theorem upheld_bind (hbound : Rebound J) : ∀ w, J w → Through J (Network.bind e) w fun _ => J := by
  intro w hw
  unfold Network.bind
  refine through_withLock hw (Sat.unless ⟨hw, hw⟩ fun _ => through_list hw fun es hes => ?_)
  split
  · exact ⟨hw, hw⟩
  · rename_i found hfound
    have hmem : found ∈ es.filter fun candidate => candidate.netNS == e.netNS := by
      rw [hfound]
      exact List.mem_singleton_self found
    have hlookup := lookup_of_listed hJ hw hes (List.mem_filter.1 hmem).1
    unfold bindFound
    refine Sat.unless ⟨hw, hw⟩ fun _ => Sat.unless ⟨hw, hw⟩ fun _ => ?_
    refine Sat.unless ⟨hw, hw⟩ fun _ => through_backend hw fun _ => Sat.unless ⟨hw, hw⟩ fun _ => ?_
    refine through_now hw fun t => through_put hw (fun _ => ⟨hw, hw⟩) fun hv w' r hp => ?_
    have hw' := hbound w w' found { found with sandboxID := e.sandboxID, sandboxGeneration := e.sandboxGeneration, updatedAt := t }
      r hw hlookup ⟨rfl, rfl, rfl, rfl⟩ hv hp
    exact Sat.unless ⟨hw', hw'⟩ fun _ => ⟨hw', hw'⟩
  · exact ⟨hw, hw⟩

theorem upheld_provision (hbound : Rebound J) : ∀ w, J w → Through J (s.provision e) w fun _ => J := by
  intro w hw
  unfold Service.provision
  refine through_withLock hw (Sat.unless ⟨hw, hw⟩ fun _ => through_list hw fun es _ => ?_)
  split
  · unfold Service.provisionNew
    refine (upheld_add hJ w hw).bind fun r w' hw' => ?_
    cases r with
    | error issue => exact ⟨hw', hw'⟩
    | ok allocated =>
      refine (upheld_bind hJ hbound w' hw').bind fun r w'' hw'' => ?_
      cases r with
      | ok bound => exact ⟨hw'', hw''⟩
      | error issue => exact (upheld_delete hJ w'' hw'').bind fun _ _ h => ⟨h, h⟩
  · exact Sat.unless ⟨hw, hw⟩ fun _ => (upheld_bind hJ hbound w hw).mono fun _ _ h => ⟨h, h⟩

theorem upheld_unbind : ∀ w, J w → Through J (unbind e) w fun _ => J := by
  intro w hw
  unfold unbind
  refine through_withLock hw (Sat.unless ⟨hw, hw⟩ fun _ => through_list hw fun es hes => ?_)
  split
  · exact ⟨hw, hw⟩
  · rename_i found hcarrier
    have hlookup := lookup_of_listed hJ hw hes (List.mem_of_find?_eq_some hcarrier)
    refine Sat.unless ⟨hw, hw⟩ fun _ => through_now hw fun t => ?_
    refine upheld_put hJ hw hlookup ⟨rfl, rfl, rfl, rfl⟩ (.inr rfl) fun r w' hw' => ?_
    exact Sat.unless ⟨hw', hw'⟩ fun _ => ⟨hw', hw'⟩

theorem upheld_release : ∀ w, J w → Through J (s.release e) w fun _ => J := by
  intro w hw
  unfold Service.release
  refine through_withLock hw (Sat.unless ⟨hw, hw⟩ fun _ => through_list hw fun es hes => ?_)
  split
  · exact ⟨hw, hw⟩
  · rename_i found hcarrier
    have hlookup := lookup_of_listed hJ hw hes (List.mem_of_find?_eq_some hcarrier)
    refine Sat.unless ⟨hw, hw⟩ fun _ => Sat.unless ?_ fun _ => ?_
    · exact (upheld_unbind hJ w hw).mono fun _ _ h => ⟨h, h⟩
    · unfold Service.releaseOwned
      refine upheld_markDeleting hJ hw hlookup (fun w' _ hw' => ⟨hw', hw'⟩) fun w' marked hw' => ?_
      refine upheld_rollbackAllocation hw' fun r => Sat.unless ⟨hw', hw'⟩ fun _ => ?_
      refine through_delete hw' fun w'' r hp => ?_
      have hw'' := hJ.erased _ w'' _ r hw' hp
      exact Sat.unless ⟨hw'', hw''⟩ fun _ => ⟨hw'', hw''⟩

theorem upheld_report : ∀ w, J w → Through J (report e) w fun _ => J := by
  intro w hw
  unfold report
  refine through_withLock hw (Sat.unless ⟨hw, hw⟩ fun _ => through_list hw fun es hes => ?_)
  split
  · exact ⟨hw, hw⟩
  · rename_i found hcarrier
    have hlookup := lookup_of_listed hJ hw hes (List.mem_of_find?_eq_some hcarrier)
    refine Sat.unless ⟨hw, hw⟩ fun _ => Sat.unless ⟨hw, hw⟩ fun _ => ?_
    refine Sat.unless ⟨hw, hw⟩ fun _ => Sat.unless ⟨hw, hw⟩ fun _ => through_now hw fun t => ?_
    refine upheld_put hJ hw hlookup ⟨rfl, rfl, rfl, rfl⟩ (.inl rfl) fun r w' hw' => ?_
    exact Sat.unless ⟨hw', hw'⟩ fun _ => ⟨hw', hw'⟩

theorem upheld_request (hbound : Rebound J) (r : Request) (hw : J w) : Through J (r.program s) w fun _ => J := by
  cases r with
  | add e => exact (upheld_add hJ w hw).bind fun _ _ h => h
  | check e => exact (upheld_check w hw).bind fun _ _ h => h
  | delete e => exact (upheld_delete hJ w hw).bind fun _ _ h => h
  | bind e => exact (upheld_bind hJ hbound w hw).bind fun _ _ h => h
  | provision e => exact (upheld_provision hJ hbound w hw).bind fun _ _ h => h
  | release e => exact (upheld_release hJ w hw).bind fun _ _ h => h
  | unbind e => exact (upheld_unbind hJ w hw).bind fun _ _ h => h
  | report e => exact (upheld_report hJ w hw).bind fun _ _ h => h

end Requests

/-! ## Restarts -/

/-- A restart only reads the file and deletes records. -/
structure UpheldAtBoot (J : World → Prop) : Prop where
  opened : ∀ w : World, J w → (∀ x ∈ w.store.file.entries, validateStoredEndpoint x.1 x.2 = none) →
    J { w with store := ⟨w.store.file, w.store.file⟩ }
  erased : ∀ w w' k r, J w → Persists w (w.store.data.erase k) w' r → J w'

section Boot
variable {s : Service} {J : World → Prop} {w : World} {e : Endpoint} (hJ : UpheldAtBoot J)
include hJ

theorem upheld_reconcileOne (hw : J w) : Through J (s.reconcileOne e) w fun _ => J := by
  have hdiscard {text : String} : Through J (discardAllocationRecord e >>= fun r => pure (r.map (Err.wrap text))) w fun _ => J :=
    through_delete hw fun w' r hp => hJ.erased w w' _ r hw hp
  unfold Service.reconcileOne
  refine Sat.unless hdiscard fun _ => Sat.unless ?_ fun _ => ?_
  · refine upheld_rollbackAllocation hw fun r => ?_
    cases r with
    | some err => exact hw
    | none => exact hdiscard
  · exact through_backend hw fun _ => hw

theorem upheld_reconcileAll (es : List Endpoint) : ∀ w, J w → Through J (s.reconcileAll es) w fun _ => J := by
  induction es with
  | nil => exact fun w hw => hw
  | cons e es ih =>
    intro w hw
    exact (upheld_reconcileOne hJ hw).bind fun _ w' hw' => (ih w' hw').bind fun _ _ h => h

theorem upheld_boot (f : Flags) (hw : J w) : Through J (boot f) w fun _ => J := by
  unfold boot
  refine through_perform hw fun a => ?_
  have hopen : J (step w (.store .openStore) a).1 := by
    change J { w with store := (w.store.open a.err).1 }
    unfold Store.open
    split
    · exact hw
    · split
      · exact hw
      · rename_i hvalid
        exact hJ.opened w hw fun x hx => List.findSome?_eq_none_iff.1 hvalid x hx
  generalize step w (.store .openStore) a = x at hopen ⊢
  obtain ⟨w', r⟩ := x
  change Option Err at r
  cases r with
  | some err => exact hopen
  | none =>
    refine through_still (fun _ => rfl) hopen fun r => ?_
    cases r with
    | error err => exact hopen
    | ok id =>
      dsimp only
      split
      · exact hopen
      · refine Sat.bind (R := fun _ => J) ?_ fun r w'' hw'' => ?_
        · unfold Service.reconcile
          refine through_withLock hopen (through_list hopen fun es _ => ?_)
          exact (upheld_reconcileAll hJ es w' hopen).bind fun _ _ h => ⟨h, h⟩
        · cases r <;> exact hw''

end Boot

end Multikernel.Network
