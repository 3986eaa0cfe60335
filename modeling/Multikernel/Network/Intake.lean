import Multikernel.Network.Addresses
import Multikernel.Network.Concurrent
/-!
# Requests and the records made of them

`Add` and `Provision` check a request, build the record of a new allocation
from it, and `Put` checks that record by rules of its own. A request is
`Storable` where the second check follows from the first one: `Provision` of an
endpoint in a namespace of the caller's never is, nor are some requests of `Add`.
For a storable request the record and every later form of it pass, so a daemon
whose writes work never says that it could not persist them.
-/

namespace Multikernel.Network
open Lib

/-! ## Records the store accepts -/

/-- What `validateStoredEndpoint` asks of a record under its own key. -/
structure Endpoint.Sound (e : Endpoint) : Prop where
  identity : identifier e.networkName ∧ identifier e.containerID ∧ identifier e.ifName ∧ e.ifName.utf8ByteSize ≤ 15
  owner : e.owner = .cni ∨ e.owner = .runtime
  bootID : e.primaryBootID = "" ∨ Network.primaryBootID e.primaryBootID
  managed : e.managedNamespace = (e.owner == .runtime)
  topology : refusal (endpointTopology e) = none
  mtu : 576 ≤ e.mtu ∧ e.mtu ≤ 65515
  path : e.managedNamespace → e.netNS = managedNamespacePath e.generation
  target : e.managedNamespace = false → netnsTarget e.netNS = none
  state : e.state ∈ [.allocating, .deleting, .ready, .degraded, .disconnected]
  sandbox : e.sandboxID = "" ∧ e.sandboxGeneration = "" ∨ e.named
  unbound : e.state = .allocating → e.sandboxID = ""
  dns : e.dns.oversized = false ∧ ∀ server ∈ e.dns.nameservers, (parseIP server).isSome

section Sound
variable {e e' : Endpoint}

theorem sandboxID_ne_of_named (h : e.named) : e.sandboxID ≠ "" ∧ e.sandboxGeneration ≠ "" := by
  simp only [Endpoint.named, Bool.and_eq_true] at h
  constructor
  · intro hx
    rw [hx] at h
    exact absurd h.1 (by decide)
  · intro hx
    rw [hx] at h
    exact absurd h.2 (by decide)

theorem sound_iff : validateStoredEndpoint e.key e = none ↔ e.Sound := by
  simp only [validateStoredEndpoint, Option.or_eq_none_iff, refuse_eq_none, not_or, not_not, not_and_or, not_lt]
  constructor
  · rintro ⟨⟨-, hnet, hcontainer, hif, hshort⟩, howner, hboot, hmanaged, htop, hmtu, hns, hstate, hsandbox, hunbound, hdns,
      hservers⟩
    refine ⟨⟨hnet, hcontainer, hif, hshort⟩, howner, hboot, hmanaged, htop, hmtu, fun hm => ?_, fun hm => ?_, hstate, ?_, ?_,
      by simpa using hdns, ?_⟩
    · simpa [hm] using hns
    · simpa [hm] using hns
    · by_cases hid : e.sandboxID = ""
      · exact .inl ⟨hid, hsandbox.1.1 hid⟩
      · refine .inr ?_
        have hnamed := hsandbox.2.resolve_left hid
        simpa [Endpoint.named] using hnamed
    · intro hs
      exact hunbound.resolve_left (fun h => h hs)
    · intro server hserver
      by_contra hnone
      exact hservers (List.any_eq_true.2 ⟨server, hserver, by simpa using hnone⟩)
  · intro h
    refine ⟨⟨trivial, h.identity⟩, h.owner, h.bootID, h.managed, h.topology, h.mtu, ?_, h.state, ?_, ?_, by simp [h.dns.1], ?_⟩
    · split
      · rename_i hm
        simpa using h.path hm
      · rename_i hm
        exact h.target (by simpa using hm)
    · rcases h.sandbox with ⟨hid, hgen⟩ | hnamed
      · exact ⟨by simp [hid, hgen], .inl (by simp [hid])⟩
      · have hne := sandboxID_ne_of_named hnamed
        exact ⟨by simp [hne.1, hne.2], .inr (by simpa [Endpoint.named] using hnamed)⟩
    · by_cases hs : e.state = .allocating
      · exact .inr (h.unbound hs)
      · exact .inl hs
    · intro hany
      obtain ⟨server, hserver, hnone⟩ := List.any_eq_true.1 hany
      have hsome := h.dns.2 server hserver
      simp only [Option.isNone_iff_eq_none] at hnone
      rw [hnone] at hsome
      cases hsome

/-- A record of which only the link, the sandbox and the counters change. -/
theorem Endpoint.Sound.revise (h : e.Sound)
    (hsame : e' = { e with
      state := e'.state, sandboxID := e'.sandboxID, sandboxGeneration := e'.sandboxGeneration, updatedAt := e'.updatedAt,
      rxPackets := e'.rxPackets, txPackets := e'.txPackets, rxDrops := e'.rxDrops, txDrops := e'.txDrops,
      errors := e'.errors })
    (hstate : e'.state ∈ [.allocating, .deleting, .ready, .degraded, .disconnected])
    (hsandbox : e'.sandboxID = "" ∧ e'.sandboxGeneration = "" ∨ e'.named)
    (hunbound : e'.state = .allocating → e'.sandboxID = "") : e'.Sound := by
  rw [hsame]
  exact ⟨h.identity, h.owner, h.bootID, h.managed, h.topology, h.mtu, h.path, h.target, hstate, hsandbox, hunbound, h.dns⟩

end Sound

/-- The later forms of a record: what `Add`, `Bind`, `Unbind`, `Report`, `Delete`
and `Release` make of it. -/
inductive Endpoint.Becomes (e : Endpoint) : Endpoint → Prop where
  | same : Becomes e e
  | ready {d : Endpoint} (h : Becomes e d) (hs : d.state = .allocating) (updatedAt : Nat) :
      Becomes e { d with state := .ready, updatedAt }
  | bound {d : Endpoint} (h : Becomes e d) (hs : ¬d.transitional) (requested : Endpoint) (hr : requested.named)
      (updatedAt : Nat) :
      Becomes e { d with
        sandboxID := requested.sandboxID, sandboxGeneration := requested.sandboxGeneration, updatedAt }
  | unbound {d : Endpoint} (h : Becomes e d) (updatedAt : Nat) :
      Becomes e { d with sandboxID := "", sandboxGeneration := "", updatedAt }
  | reported {d : Endpoint} (h : Becomes e d) (hs : ¬d.transitional) (requested : Endpoint)
      (hr : requested.state = .ready ∨ requested.state = .degraded ∨ requested.state = .disconnected) (updatedAt : Nat) :
      Becomes e { d with
        rxPackets := requested.rxPackets, txPackets := requested.txPackets, rxDrops := requested.rxDrops,
        txDrops := requested.txDrops, errors := requested.errors, state := requested.state, updatedAt }
  | deleting {d : Endpoint} (h : Becomes e d) (updatedAt : Nat) : Becomes e { d with state := .deleting, updatedAt }

section Becomes
variable {e d : Endpoint}

theorem Endpoint.Sound.ready (h : e.Sound) (updatedAt : Nat) : ({ e with state := .ready, updatedAt } : Endpoint).Sound :=
  h.revise rfl (by simp) h.sandbox (fun hx => by cases hx)

theorem Endpoint.Sound.bound (h : e.Sound) (hs : ¬e.transitional) {requested : Endpoint} (hr : requested.named)
    (updatedAt : Nat) : ({ e with
      sandboxID := requested.sandboxID, sandboxGeneration := requested.sandboxGeneration, updatedAt } : Endpoint).Sound := by
  refine h.revise rfl h.state (.inr hr) fun hx => absurd ?_ hs
  have hx : e.state = .allocating := hx
  simp [Endpoint.transitional, hx]

theorem Endpoint.Sound.becomes (h : e.Sound) (hd : e.Becomes d) : d.Sound := by
  induction hd with
  | same => exact h
  | ready _ _ updatedAt ih => exact ih.ready updatedAt
  | bound _ hs _ hr updatedAt ih => exact ih.bound hs hr updatedAt
  | unbound _ _ ih => exact ih.revise rfl ih.state (.inl ⟨rfl, rfl⟩) fun _ => rfl
  | reported _ hs requested hr _ ih =>
    refine ih.revise rfl ?_ ih.sandbox fun hx => ?_
    · rcases hr with hr | hr | hr <;> simp [hr]
    · have hx : requested.state = .allocating := hx
      rcases hr with hr | hr | hr <;> · rw [hr] at hx; cases hx
  | deleting _ _ ih => exact ih.revise rfl (by simp) ih.sandbox (fun hx => by cases hx)

end Becomes

/-! ## The record of an allocation -/

/-- What `NewService` checks of a service. -/
structure Service.Fit (s : Service) : Prop where
  subnet : Subnet s.subnet s.ones
  mtu : 576 ≤ s.mtu ∧ s.mtu ≤ 65515
  bootID : Network.primaryBootID s.primaryBootID
  dns : s.dns.oversized = false ∧ ∀ server ∈ s.dns.nameservers, (parseIP server).isSome

theorem to4_lt {ip v : Nat} (h : to4 ip = some v) : v < 2 ^ 32 := by
  unfold to4 at h
  split at h
  · obtain rfl := Option.some.inj h
    exact Nat.mod_lt _ (by decide)
  · cases h

theorem Service.new_fit {f : Flags} {id : String} {s : Service} (h : Service.new f id = .ok s) : s.Fit := by
  unfold Service.new at h
  cases hparse : (parseCIDR f.subnet).bind fun c => (to4 c.1).map fun ip => (ip, c.2) with
  | none => rw [hparse] at h; cases h
  | some c =>
    obtain ⟨ip, ones, bits⟩ := c
    rw [hparse] at h
    dsimp only at h
    split at h
    · cases h
    rename_i htext
    split at h
    · cases h
    rename_i hlength
    split at h
    · cases h
    rename_i hprivate
    split at h
    · cases h
    rename_i hmtu
    split at h
    · cases h
    rename_i hboot
    split at h
    · cases h
    rename_i hsize
    split at h
    · cases h
    rename_i hservers
    obtain rfl := Except.ok.inj h
    have hlt : ip < 2 ^ 32 := by
      obtain ⟨c, -, hc⟩ := Option.bind_eq_some_iff.1 hparse
      obtain ⟨v, hv, hveq⟩ := Option.map_eq_some_iff.1 hc
      obtain rfl : v = ip := congrArg Prod.fst hveq
      exact to4_lt hv
    have hnet : ip / 2 ^ (32 - ones) * 2 ^ (32 - ones) ≤ ip := Nat.div_mul_le_self _ _
    have hip : ip / 2 ^ (32 - ones) * 2 ^ (32 - ones) = ip := by
      have htext := not_not.1 htext
      have hcanon := parseCIDR_dotted (hnet.trans_lt hlt) (show ones ≤ 32 by omega)
      rw [← htext, hcanon] at hparse
      simp only [Option.bind_some, to4_mapIPv4 (hnet.trans_lt hlt), Option.map_some, Option.some.injEq, Prod.mk.injEq] at hparse
      exact hparse.1
    have hones : 16 ≤ ones ∧ ones ≤ 30 := by omega
    have hrange : 576 ≤ f.mtu ∧ f.mtu ≤ 65515 := by omega
    refine ⟨⟨hones, ?_, hnet.trans_lt hlt, ?_⟩, hrange, by simpa using hboot, by simpa using hsize, ?_⟩
    · exact Nat.mul_mod_left _ _
    · rw [hip]
      simpa using hprivate
    · intro server hserver
      by_contra hnone
      exact hservers (List.any_eq_true.2 ⟨server, hserver, by simpa using hnone⟩)

theorem isHex_digitChar {n : Nat} (h : n < 16) : isHex (Nat.digitChar n) := by
  have hall : ∀ n < 16, isHex (Nat.digitChar n) := by decide
  exact hall n h

theorem matchesAll_replicate {p : Char → Bool} {cs : List Char} (h : ∀ c ∈ cs, p c) :
    matchesAll (List.replicate cs.length p) cs := by
  induction cs with
  | nil => rfl
  | cons c cs ih =>
    simp only [List.length_cons, List.replicate_succ, matchesAll, Bool.and_eq_true]
    exact ⟨h c List.mem_cons_self, ih fun c hc => h c (List.mem_cons_of_mem _ hc)⟩

theorem isHex_of_mem_hexDigits {n v : Nat} {c : Char} (h : c ∈ hexDigits n v) : isHex c := by
  induction n generalizing v with
  | zero => cases h
  | succ n ih =>
    rcases List.mem_append.1 h with h | h
    · exact ih h
    · rw [List.mem_singleton.1 h]
      exact isHex_digitChar (Nat.mod_lt _ (by decide))

/-- What the service draws is an endpoint generation. -/
theorem endpointGeneration_hexGeneration (v : Nat) : endpointGeneration (hexGeneration v) := by
  have hmatch : matchesAll (List.replicate (hexDigits 32 v).length isHex) (hexDigits 32 v) :=
    matchesAll_replicate fun _ => isHex_of_mem_hexDigits
  rw [length_hexDigits] at hmatch
  simpa [endpointGeneration, generationRE, hexGeneration] using hmatch

/-- The request passes the checks of `Add`. -/
structure Endpoint.Admitted (e : Endpoint) : Prop where
  valid : validateEndpoint e true = none
  owner : e.owned.owner = .cni ∨ e.owned.owner = .runtime
  managed : e.managedNamespace → e.owned.owner = .runtime

/-- What the store asks of a request beyond that: a managed namespace for every
endpoint of the runtime, a namespace path it knows, and no sandbox. -/
structure Endpoint.Storable (e : Endpoint) : Prop where
  managed : e.managedNamespace = (e.owned.owner == .runtime)
  target : e.managedNamespace = false → netnsTarget e.netNS = none
  sandboxID : e.sandboxID = ""
  sandboxGeneration : e.sandboxGeneration = ""

section Allocation
variable {s : Service} {e : Endpoint} {es : List Endpoint} {slot : String × String}

@[simp] theorem owned_networkName : e.owned.networkName = e.networkName := by
  unfold Endpoint.owned
  split <;> rfl

@[simp] theorem owned_containerID : e.owned.containerID = e.containerID := by
  unfold Endpoint.owned
  split <;> rfl

@[simp] theorem owned_ifName : e.owned.ifName = e.ifName := by
  unfold Endpoint.owned
  split <;> rfl

@[simp] theorem owned_netNS : e.owned.netNS = e.netNS := by
  unfold Endpoint.owned
  split <;> rfl

@[simp] theorem owned_sandboxID : e.owned.sandboxID = e.sandboxID := by
  unfold Endpoint.owned
  split <;> rfl

@[simp] theorem owned_sandboxGeneration : e.owned.sandboxGeneration = e.sandboxGeneration := by
  unfold Endpoint.owned
  split <;> rfl

theorem identity_of_valid {required : Bool} (h : validateEndpoint e required = none) :
    identifier e.networkName ∧ identifier e.containerID ∧ identifier e.ifName ∧ e.ifName.utf8ByteSize ≤ 15 := by
  unfold validateEndpoint at h
  split at h
  · cases h
  rename_i hid
  split at h
  · cases h
  rename_i hshort
  simp only [not_or, not_not] at hid
  exact ⟨hid.2.1, hid.1, hid.2.2, by omega⟩

/-- The addresses of a free block. -/
theorem endpointTopology_slot (h : Subnet s.subnet s.ones) (hslot : s.allocate es = some slot)
    (haddress : e.address = slot.1) (hgateway : e.gateway = slot.2) (hgen : endpointGeneration e.generation) :
    refusal (endpointTopology e) = none := by
  obtain ⟨i, hi, rfl, -⟩ := allocate_some h hslot
  have hlt := h.slot_lt_pow hi
  have hfour := h.mod_four
  have hparse : ((parseCIDR e.address).bind fun c => (to4 c.1).map fun ip => (ip, c.2)) =
      some (s.subnet + 4 * i + 2, 30, 32) := by
    rw [haddress, parseCIDR_slotAddress h hi]
    simp [to4_mapIPv4 (show s.subnet + 4 * i + 2 < 2 ^ 32 by omega)]
  have hblock : (s.subnet + 4 * i + 2) / 4 * 4 = s.subnet + 4 * i := by omega
  have hpeer : parseIP e.gateway = some (mapIPv4 (s.subnet + 4 * i + 1)) := by
    rw [hgateway]
    exact parseIP_dotted (by omega)
  unfold endpointTopology
  rw [if_neg (not_not.2 hgen), hparse]
  simp only [hblock]
  rw [addIP_eq (by omega), addIP_eq (by omega), if_neg (by simp), if_neg (not_not.2 hpeer), if_neg (by omega)]
  rfl

theorem allocation_sound (hs : s.Fit) (hadmitted : e.Admitted) (hstorable : e.Storable) (hslot : s.allocate es = some slot)
    {gen : String} (hgen : endpointGeneration gen) (t : Nat) : (s.allocation e.owned slot gen t).Sound where
  identity := by simpa [Service.allocation] using identity_of_valid hadmitted.valid
  owner := hadmitted.owner
  bootID := .inr hs.bootID
  managed := by simpa [Service.allocation] using hstorable.managed
  topology := endpointTopology_slot hs.subnet hslot rfl rfl hgen
  mtu := hs.mtu
  path hm := if_pos hm
  target hm := by
    have hm : e.managedNamespace = false := by simpa [Service.allocation] using hm
    simpa [Service.allocation, hm] using hstorable.target hm
  state := by simp [Service.allocation]
  sandbox := .inl ⟨by simpa [Service.allocation] using hstorable.sandboxID,
    by simpa [Service.allocation] using hstorable.sandboxGeneration⟩
  unbound _ := by simpa [Service.allocation] using hstorable.sandboxID
  dns := hs.dns

/-- A request whose record passes. -/
theorem storable_of_sound {gen : String} {t : Nat} (h : (s.allocation e.owned slot gen t).Sound) : e.Storable := by
  have hid : e.sandboxID = "" := by simpa [Service.allocation] using h.unbound rfl
  refine ⟨by simpa [Service.allocation] using h.managed, fun hm => ?_, hid, ?_⟩
  · have htarget := h.target (by simpa [Service.allocation] using hm)
    simpa [Service.allocation, hm] using htarget
  · rcases h.sandbox with ⟨-, hgen⟩ | hnamed
    · simpa [Service.allocation] using hgen
    · exact absurd (by simpa [Service.allocation] using hid) (sandboxID_ne_of_named hnamed).1

/-- An empty store leaves every block free. -/
theorem allocate_empty (h : Subnet s.subnet s.ones) : ∃ slot, s.allocate [] = some slot := by
  cases hslot : s.allocate [] with
  | some slot => exact ⟨slot, rfl⟩
  | none =>
    obtain ⟨e, he, -⟩ := (allocate_none h).1 hslot 0 (Nat.two_pow_pos _)
    cases he

end Allocation

/-! ## Answers -/

/-- The answer says that a write failed, and to try again. -/
def PersistenceFailed {α : Type} (r : Except APIError α) : Prop :=
  ∃ issue, r = .error issue ∧ issue.code = .internal ∧ issue.retryable ∧
    "persistence failed".toList <:+: issue.message.toList

/-- The replies of a store that holds only sound records and whose writes work,
whatever other requests do meanwhile. -/
def Works : Trans NetI Unit := fun _ c r _ =>
  match c, r with
  | .store .list, (es : List Endpoint) => ∀ e ∈ es, e.Sound
  | .store (.put e), r => e.Sound → r = none
  | .generation, r => ∀ gen, r = .ok gen → endpointGeneration gen
  | _, _ => True

section Programs
variable {s : Service} {e : Endpoint}

/-- With such replies, the program never answers that a write failed. -/
abbrev NeverFails {α : Type} (p : Act (Except APIError α)) : Prop :=
  Sat Works (fun _ _ => True) p () fun r _ => ¬PersistenceFailed r

theorem not_persistenceFailed_ok {α : Type} {a : α} : ¬PersistenceFailed (.ok a) := by
  rintro ⟨issue, hissue, -⟩
  cases hissue

theorem not_persistenceFailed {α : Type} {issue : APIError} (h : ¬"persistence failed".toList <:+: issue.message.toList) :
    ¬PersistenceFailed (α := α) (.error issue) := by
  rintro ⟨issue', hissue, -, -, hmessage⟩
  cases hissue
  exact h hmessage

theorem not_persistenceFailed_code {α : Type} {issue : APIError} (h : issue.code ≠ .internal) :
    ¬PersistenceFailed (α := α) (.error issue) := by
  rintro ⟨issue', hissue, hcode, -⟩
  cases hissue
  exact h hcode

theorem neverFails_withLock {α : Type} {m : Mutex} {p : Act (Except APIError α)} (h : NeverFails p) :
    NeverFails (withLock m p) := by
  refine ⟨trivial, fun _ _ _ => ?_⟩
  exact Sat.bind (p := p) h fun _ _ hr => ⟨trivial, fun _ _ _ => hr⟩

theorem neverFails_abandon {stage : String}
    (h : ∀ err, ¬"persistence failed".toList <:+: (allocationFailure stage err).message.toList) :
    NeverFails (s.abandon e stage) :=
  Sat.bind (emits_true (s.retire e)).lift fun err _ _ => not_persistenceFailed (h err)

/-- The stages of an allocation that are not writes. -/
theorem neverFails_stage {stage : String} (h : stage ∈
    ["network endpoint creation failed", "network namespace creation failed", "network namespace identity mismatch"]) :
    NeverFails (s.abandon e stage) := by
  refine neverFails_abandon fun err => ?_
  unfold allocationFailure
  simp only [List.mem_cons, List.not_mem_nil, or_false] at h
  rcases h with rfl | rfl | rfl <;> split <;> decide +kernel

theorem neverFails_raise (he : e.Sound) : NeverFails (s.raise e) := by
  unfold Service.raise
  refine ⟨trivial, fun r _ _ => sat_ite.2 ⟨fun _ => neverFails_stage (by simp), fun _ => ?_⟩⟩
  refine ⟨trivial, fun updatedAt _ _ => ⟨trivial, fun r _ hr => sat_ite.2 ⟨fun hsome => ?_, fun _ => ?_⟩⟩⟩
  · obtain rfl : r = none := hr (he.ready updatedAt)
    cases hsome
  · exact not_persistenceFailed_ok

theorem neverFails_realise (he : e.Sound) : NeverFails (s.realise e) := by
  unfold Service.realise
  refine Sat.unless (neverFails_raise he) fun _ => ⟨trivial, fun r _ _ => ?_⟩
  change Except Err String at r
  cases r with
  | error err => exact neverFails_stage (by simp)
  | ok created => exact sat_ite.2 ⟨fun _ => neverFails_stage (by simp), fun _ => neverFails_raise he⟩

theorem neverFails_addNew (hs : s.Fit) (hadmitted : e.Admitted) (hstorable : e.Storable) :
    NeverFails (s.addNew e.owned) := by
  unfold Service.addNew
  refine ⟨trivial, fun es _ _ => ?_⟩
  change List Endpoint at es
  dsimp only [Prog.bind]
  cases hslot : s.allocate es with
  | none => exact not_persistenceFailed_code (by decide)
  | some slot =>
    refine ⟨trivial, fun r _ hr => ?_⟩
    change Except Err String at r
    cases r with
    | error err => exact not_persistenceFailed (by decide +kernel)
    | ok gen =>
      refine ⟨trivial, fun createdAt _ _ => sat_ite.2 ⟨fun _ => not_persistenceFailed_code (by decide), fun _ => ?_⟩⟩
      have hsound := allocation_sound hs hadmitted hstorable hslot (hr gen rfl) createdAt
      refine ⟨trivial, fun r _ hr => sat_ite.2 ⟨fun hsome => ?_, fun _ => neverFails_realise hsound⟩⟩
      obtain rfl : r = none := hr hsound
      cases hsome

theorem neverFails_addExisting {existing requested : Endpoint} : NeverFails (addExisting existing requested) := by
  unfold addExisting
  refine sat_ite.2 ⟨fun _ => not_persistenceFailed_code (by decide), fun _ => ?_⟩
  refine sat_ite.2 ⟨fun _ => not_persistenceFailed_code (by decide), fun _ => ⟨trivial, fun _ _ _ => ?_⟩⟩
  exact sat_ite.2 ⟨fun _ => not_persistenceFailed_code (by decide), fun _ => not_persistenceFailed_ok⟩

theorem neverFails_add (hs : s.Fit) (hadmitted : e.Admitted) (hstorable : e.Storable) : NeverFails (s.add e) := by
  unfold Service.add
  apply neverFails_withLock
  rw [hadmitted.valid]
  refine sat_ite.2 ⟨fun _ => not_persistenceFailed_code (by decide), fun _ => ?_⟩
  refine sat_ite.2 ⟨fun _ => not_persistenceFailed_code (by decide), fun _ => ⟨trivial, fun r _ _ => ?_⟩⟩
  change Option Endpoint at r
  cases r with
  | some existing => exact neverFails_addExisting
  | none => exact neverFails_addNew hs hadmitted hstorable

theorem neverFails_bind : NeverFails (bind e) := by
  unfold bind
  apply neverFails_withLock
  refine sat_ite.2 ⟨fun _ => not_persistenceFailed_code (by decide), fun hnamed => ⟨trivial, fun es _ hes => ?_⟩⟩
  have hnamed : e.named := by
    by_contra hx
    exact hnamed (.inr hx)
  change List Endpoint at es
  dsimp only [Prog.bind]
  split
  · exact not_persistenceFailed_code (by decide)
  · rename_i found hfound
    have hsound : found.Sound := hes found (List.mem_of_mem_filter (hfound ▸ List.mem_singleton_self found))
    unfold bindFound
    refine sat_ite.2 ⟨fun _ => not_persistenceFailed_code (by decide), fun _ => ?_⟩
    refine sat_ite.2 ⟨fun _ => not_persistenceFailed_code (by decide), fun hsettled => ?_⟩
    refine sat_ite.2 ⟨fun _ => not_persistenceFailed_code (by decide), fun _ => ⟨trivial, fun _ _ _ => ?_⟩⟩
    refine sat_ite.2 ⟨fun _ => not_persistenceFailed_code (by decide), fun _ => ⟨trivial, fun updatedAt _ _ => ?_⟩⟩
    refine ⟨trivial, fun r _ hr => sat_ite.2 ⟨fun hsome => ?_, fun _ => not_persistenceFailed_ok⟩⟩
    obtain rfl : r = none := hr (hsound.bound hsettled hnamed updatedAt)
    cases hsome
  · exact not_persistenceFailed_code (by decide)

/-- The request `Provision` makes of `Add`. -/
def Endpoint.provisioned (e : Endpoint) : Endpoint :=
  { e with owner := .runtime, managedNamespace := e.netNS == "", sandboxID := "", sandboxGeneration := "" }

theorem neverFails_provision (hs : s.Fit) (hadmitted : e.provisioned.Admitted) (hstorable : e.provisioned.Storable) :
    NeverFails (s.provision e) := by
  unfold Service.provision
  apply neverFails_withLock
  refine sat_ite.2 ⟨fun _ => not_persistenceFailed_code (by decide), fun _ => ⟨trivial, fun es _ _ => ?_⟩⟩
  change List Endpoint at es
  dsimp only [Prog.bind]
  split
  · unfold Service.provisionNew
    refine Sat.bind (neverFails_add hs hadmitted hstorable) fun r _ hr => ?_
    cases r with
    | error issue => exact hr
    | ok allocated =>
      refine Sat.bind neverFails_bind fun r _ hr => ?_
      cases r with
      | ok bound => exact hr
      | error issue => exact Sat.bind (emits_true (s.delete allocated)).lift fun _ _ _ => hr
  · exact sat_ite.2 ⟨fun _ => not_persistenceFailed_code (by decide), fun _ => neverFails_bind⟩

end Programs

/-! ## Runs -/

/-- The records in memory are sound. -/
def World.Sound (w : World) : Prop := ∀ k e, w.store.data.lookup k = some e → e.key = k ∧ e.Sound

section Worlds
variable {w : World}

theorem sound_of_stored {k : String × String × String} {e : Endpoint} (h : validateStoredEndpoint k e = none) :
    e.key = k ∧ e.Sound := by
  obtain rfl := key_of_stored h
  exact ⟨rfl, sound_iff.1 h⟩

theorem Persists.sound {w' : World} {next : Endpoints} {r : Option Err} (h : Persists w next w' r) (hw : w.Sound)
    (hnext : ∀ k e, next.lookup k = some e → e.key = k ∧ e.Sound) : w'.Sound := by
  intro k e he
  cases h with
  | done h => exact hnext k e (by rw [h] at he; exact he)
  | failed hdata _ => exact hw k e (hdata ▸ he)

/-- Whatever a call does, it leaves sound records. -/
theorem World.Sound.step (hw : w.Sound) (c : Call) (a : Answer) : (Network.step w c a).1.Sound := by
  cases c with
  | lock | unlock | backend | bootID | generation | now => exact hw
  | store c =>
    cases c with
    | get | list => exact hw
    | openStore =>
      change World.Sound ⟨(w.store.open a.err).1, w.recorded⟩
      unfold Store.open
      split
      · exact hw
      · split
        · exact hw
        · rename_i hall
          intro k e he
          exact sound_of_stored (List.findSome?_eq_none_iff.1 hall ⟨k, e⟩ (AList.mem_lookup_iff.1 he))
    | put e =>
      change (storeStep w a (.put e)).1.Sound
      cases hv : validateStoredEndpoint e.key e with
      | some text => rw [put_refused hv]; exact hw
      | none =>
        refine (persists_put hv w a).sound hw fun k e' he' => ?_
        rcases Endpoints.insert_cases he' with ⟨rfl, rfl⟩ | he'
        · exact sound_of_stored hv
        · exact hw k e' he'
    | delete k =>
      have hp : Persists w (w.store.data.erase k) (storeStep w a (.delete k)).1 _ := persists rfl
      exact hp.sound hw fun k' e he => hw k' e (Endpoints.erase_cases he).2

/-- A store of sound records whose writes work. -/
theorem World.Sound.works (hw : w.Sound) (c : Call) {a : Answer} (ha : a.persist = .done) :
    Works () c (Network.step w c a).2 () := by
  cases c with
  | lock | unlock | backend | bootID | now => trivial
  | generation =>
    intro gen hgen
    change a.drawn (hexGeneration a.entropy) = .ok gen at hgen
    unfold Answer.drawn at hgen
    split at hgen
    · obtain rfl := Except.ok.inj hgen
      exact endpointGeneration_hexGeneration _
    · cases hgen
  | store c =>
    cases c with
    | get | openStore | delete => trivial
    | list =>
      intro e he
      obtain ⟨k, hk⟩ := Endpoints.mem_values.1 ((a.order_perm _).mem_iff.1 he)
      exact (hw k e hk).2
    | put e =>
      intro he
      change (w.store.put e a.persist).2 = none
      rw [Store.put, sound_iff.2 he, ha]
      rfl

theorem sound_exec {α : Type} (p : Act α) (hw : w.Sound) (as : List Answer) : (exec Net p w as).1.Sound := by
  have hsat := (emits_true p).sat (T := Net.trans fun _ _ _ => True) hw (by
    rintro w c r w' hw - ⟨a, -, hstep⟩
    obtain rfl : (Network.step w c a).1 = w' := congrArg Prod.fst hstep
    exact hw.step c a)
  exact hsat.exec_world (fun _ _ h => h.1) (fun _ _ h => h.1) as (meets_true Net _ _ as)

end Worlds

/-- A daemon that serves does so with a service it could start with, and its
records are sound. -/
structure Daemon.Sound (d : Daemon) : Prop where
  world : d.world.Sound
  service : ∀ s, d.service = some s → s.Fit

theorem Daemon.Sound.turn {d : Daemon} (hd : d.Sound) (t : Turn) : (d.turn t).Sound := by
  obtain ⟨op, as⟩ := t
  cases op with
  | boot f =>
    refine ⟨sound_exec _ hd.world as, fun s hs => ?_⟩
    change (exec Net (boot f) d.world as).2.bind Except.toOption = some s at hs
    obtain ⟨r, hr, hok⟩ := Option.bind_eq_some_iff.1 hs
    cases r with
    | error err => cases hok
    | ok s' =>
      obtain rfl := Option.some.inj hok
      have hboot := (boot_emits f).lift (T := Net.trans fun _ _ _ => True) (s := d.world)
      obtain ⟨id, hid⟩ := hboot.exec_result (meets_true Net _ _ as) (Prod.ext rfl hr) s' rfl
      exact Service.new_fit hid
  | request r =>
    unfold Daemon.turn
    cases hs : d.service with
    | none => exact hd
    | some s =>
      refine ⟨sound_exec _ hd.world as, fun s' hs' => ?_⟩
      obtain ⟨-, -, rfl⟩ := Option.map_eq_some_iff.1 hs'
      exact hd.service s hs

theorem Daemon.sound_after (ts : List Turn) : (Daemon.after ts).Sound :=
  (conforms_of_mem (P := fun _ => True) fun _ _ => trivial).inv
    ⟨fun _ _ h => (by cases h), fun _ h => (by cases h)⟩ fun _ t hd _ => hd.turn t

/-! ## The two ways in -/

/-- The operations that make an endpoint. -/
inductive Intake where
  | add | provision

def Intake.request : Intake → Endpoint → Request
  | .add, e => .add e
  | .provision, e => .provision e

/-- The request as `Add` gets it. -/
def Intake.asked : Intake → Endpoint → Endpoint
  | .add, e => e
  | .provision, e => e.provisioned

/-- The request passes the service's own checks. -/
def Intake.Admits : Intake → Endpoint → Prop
  | .add, e => e.Admitted
  | .provision, e => e.named ∧ e.provisioned.Admitted

theorem Intake.admitted {op : Intake} {e : Endpoint} (h : op.Admits e) : (op.asked e).Admitted := by
  cases op with
  | add => exact h
  | provision => exact h.2

/-- A storable request is never answered with a failed write. -/
theorem neverFails_intake {s : Service} (hs : s.Fit) {op : Intake} {e : Endpoint} (h : op.Admits e)
    (hstorable : (op.asked e).Storable) : NeverFails ((op.request e).program s) := by
  have hlift {p : Act (Except APIError Endpoint)} (hp : NeverFails p) : NeverFails (return ofEndpoint (← p)) := by
    refine Sat.bind hp fun r _ hr => ?_
    cases r with
    | ok e => exact not_persistenceFailed_ok
    | error issue =>
      rintro ⟨issue', hissue, hrest⟩
      cases hissue
      exact hr ⟨issue, rfl, hrest⟩
  cases op with
  | add => exact hlift (neverFails_add hs h hstorable)
  | provision => exact hlift (neverFails_provision hs h.2 hstorable)

/-- Requests in any interleaving, with writes that work. -/
def intakeProof (s : Service) (hs : s.Fit) : RelyGuarantee Net locking (Request.program s) where
  cond _ e := ∀ i a, e = .act i a → a.persist = .done
  J sh := sh.world.Sound
  Inv _ := True
  E _ _ a := a.persist = .done
  R _ _ _ _ := True
  G _ _ _ _ s' := s'.world.Sound
  Q r a _ := ∀ op e, r = Intake.request op e → op.Admits e → (op.asked e).Storable → ¬PersistenceFailed a
  R_refl _ _ _ := trivial
  R_trans _ _ _ _ _ _ _ := trivial
  proof r i sh hsh := by
    have hstep (x : NetShared × History NetI) (c : Call) (reply : c.Reply) (x' : NetShared × History NetI)
        (hx : locking.trans (M := Net) (fun sh => World.Sound sh.world) (fun _ _ a => Answer.persist a = .done) i x c reply x') :
        Works () c reply () ∧ x'.1.world.Sound := by
      obtain ⟨hsound, -, a, ha, hx, -⟩ := hx
      have hworld : x'.1.world = (Network.step x.1.world c a).1 := congrArg (fun y => y.1.world) hx.symm
      have hreply : reply = (Network.step x.1.world c a).2 := congrArg Prod.snd hx.symm
      rw [hworld, hreply]
      exact ⟨hsound.works c ha, hsound.step c a⟩
    by_cases hin : ∃ op e, r = Intake.request op e ∧ op.Admits e ∧ (op.asked e).Storable
    · obtain ⟨op, e, rfl, hadmits, hstorable⟩ := hin
      exact (Sat.amid (neverFails_intake hs hadmits hstorable) hstep).mono fun a _ ha _ _ _ _ _ => ha
    · refine (Sat.amid (emits_true _).lift hstep).mono fun a _ _ op e hr hadmits hstorable => ?_
      exact absurd ⟨op, e, hr, hadmits, hstorable⟩ hin
  cond_answer _ i a _ _ _ _ h _ := h i a rfl
  inv_turn _ _ _ _ := trivial
  J_step _ _ _ _ _ _ _ h := h
  Q_step _ _ _ _ _ _ _ _ _ _ h := h
  rely _ _ _ _ _ _ _ _ _ _ _ _ _ _ _ _ _ _ := trivial

/-- The requests a daemon serves from here on. -/
def Daemon.serve (d : Daemon) (s : Service) (events : List (Event Net Request)) : NetPool :=
  run (Pool.turn locking (Request.program s)) ⟨⟨d.world, fun _ => none⟩, []⟩ events

/-- For every daemon that serves and every request that passes the checks of
`Add` or `Provision`: the record of a new allocation and all its later forms are
accepted by the store, and in no interleaving of requests whose writes work is
it answered that a write failed, exactly where the request is storable. -/
theorem Daemon.intake_matches_store {ts : List Turn} {s : Service} (hs : (after ts).service = some s) (op : Intake)
    (e : Endpoint) (h : op.Admits e) :
    ((∀ es slot entropy createdAt d, s.allocate es = some slot →
        (s.allocation (op.asked e).owned slot (hexGeneration entropy) createdAt).Becomes d →
        validateStoredEndpoint d.key d = none) ∧
      ∀ events : List (Event Net Request), (∀ i a, .act i a ∈ events → a.persist = .done) →
        ∀ t ∈ ((after ts).serve s events).threads, t.op = op.request e → ∀ r, t.rest = .ret r → ¬PersistenceFailed r) ↔
      (op.asked e).Storable := by
  have hsound := sound_after ts
  have hfit := hsound.service s hs
  constructor
  · rintro ⟨hrecords, -⟩
    obtain ⟨slot, hslot⟩ := allocate_empty hfit.subnet
    exact storable_of_sound (sound_iff.1 (hrecords [] slot 0 0 _ hslot .same))
  · intro hstorable
    constructor
    · intro es slot entropy createdAt d hslot hd
      have hgen := endpointGeneration_hexGeneration entropy
      exact sound_iff.2 ((allocation_sound hfit (Intake.admitted h) hstorable hslot hgen createdAt).becomes hd)
    · intro events hevents t ht hop r hr
      have hkept : (intakeProof s hfit).Kept ⟨⟨(after ts).world, fun _ => none⟩, []⟩ :=
        ⟨hsound.world, trivial, fun i t hi => by cases hi⟩
      have hconforms : Conforms (Pool.turn locking (Request.program s)) (intakeProof s hfit).cond
          ⟨⟨(after ts).world, fun _ => none⟩, []⟩ events :=
        conforms_of_mem fun event hevent => fun i a ha => hevents i a (ha ▸ hevent)
      obtain ⟨i, hi⟩ := List.getElem?_of_mem ht
      have hdue := (hkept.run hconforms).due i t hi
      obtain ⟨top, made, rest⟩ := t
      subst hr
      exact hdue op e hop h hstorable

/-- An endpoint of CNI in a namespace of a process, and all its later forms. -/
theorem Daemon.intake_matches_store_add : ∃ s, (after [booted]).service = some s ∧
    Intake.add.Admits (sampleEndpoint 1) ∧
    ∀ slot entropy createdAt d, s.allocate [] = some slot →
      (s.allocation (sampleEndpoint 1).owned slot (hexGeneration entropy) createdAt).Becomes d →
      validateStoredEndpoint d.key d = none := by
  obtain ⟨s, hs⟩ : ∃ s, (after [booted]).service = some s := Option.isSome_iff_exists.1 (by decide +kernel)
  have hadmits : Intake.add.Admits (sampleEndpoint 1) :=
    ⟨by decide +kernel, by decide +kernel, by decide +kernel⟩
  have hstorable : (Intake.add.asked (sampleEndpoint 1)).Storable :=
    ⟨by decide +kernel, by decide +kernel, by decide +kernel, by decide +kernel⟩
  have hmain := (intake_matches_store hs .add _ hadmits).2 hstorable
  exact ⟨s, hs, hadmits, fun slot entropy createdAt d => hmain.1 [] slot entropy createdAt d⟩

/-- A sandbox in the namespace of a process. -/
def unstorable : Endpoint := { sampleEndpoint 1 with sandboxID := "s1", sandboxGeneration := sampleGeneration }

/-- The error `Provision` answers with. -/
def Daemon.provisionError (d : Daemon) (e : Endpoint) (as : List Answer) : Option APIError := do
  let s ← d.service
  match (exec Net (s.provision e) d.world as).2 with
  | some (.error issue) => some issue
  | _ => none

/-- On an empty host where everything works, `Provision` in a namespace of the
caller's says that a write failed. -/
theorem provision_unstorable : Intake.provision.Admits unstorable ∧
    (Daemon.after [booted]).provisionError unstorable (working 1) =
      some ⟨.internal, "endpoint allocation persistence failed", true⟩ := by
  refine ⟨⟨by decide +kernel, by decide +kernel, by decide +kernel, by decide +kernel⟩, ?_⟩
  decide +kernel

end Multikernel.Network
