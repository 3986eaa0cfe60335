import Multikernel.Network.Backend
import Multikernel.Network.Writes
/-!
# Addresses of endpoints

`Add` gives a new endpoint the first `/30` block of the subnet that no stored
endpoint holds, and the backend derives a transit block from it by a map of its
own. For every subnet `mknetd` accepts, fixed over the run: whatever is stored,
in memory or in the file, the guest blocks are apart and inside the subnet, and
so are the transit blocks inside 100.64.0.0/10; and `Add` answers
RESOURCE_EXHAUSTED to a new endpoint exactly when every block is held.
-/

namespace Multikernel.Network
open Lib
variable {net ones : Nat} {k : String × String × String} {x : Endpoints}

/-! ## Texts of addresses -/

section Texts
variable {n v ones : Nat}

theorem parseOctet_toString (h : n < 256) : parseOctet (toString n).toList = some n := by
  have hall : ∀ n < 256, parseOctet (toString n).toList = some n := by decide +kernel
  exact hall n h

theorem isDigit_of_mem_toString (h : n < 256) {c : Char} (hc : c ∈ (toString n).toList) : isDigit c := by
  have hall : ∀ n < 256, (toString n).toList.all isDigit := by decide +kernel
  exact List.all_eq_true.1 (hall n h) c hc

theorem toList_dotted : (dotted v).toList = ['.'].intercalate
    [(toString (v / 2 ^ 24 % 256)).toList, (toString (v / 2 ^ 16 % 256)).toList, (toString (v / 2 ^ 8 % 256)).toList,
      (toString (v % 256)).toList] := by
  simp [dotted, List.intercalate]

/-- A dotted address consists of digits and dots. -/
theorem mem_dotted {c : Char} (hc : c ∈ (dotted v).toList) : isDigit c ∨ c = '.' := by
  have hdot : ".".toList = ['.'] := rfl
  simp only [dotted, String.toList_append, List.mem_append, hdot, List.mem_singleton] at hc
  have hoctet {n : Nat} : n % 256 < 256 := Nat.mod_lt _ (by decide)
  rcases hc with (((((hc | hc) | hc) | hc) | hc) | hc) | hc
  · exact .inl (isDigit_of_mem_toString hoctet hc)
  · exact .inr hc
  · exact .inl (isDigit_of_mem_toString hoctet hc)
  · exact .inr hc
  · exact .inl (isDigit_of_mem_toString hoctet hc)
  · exact .inr hc
  · exact .inl (isDigit_of_mem_toString hoctet hc)

theorem parseIPv4_dotted (h : v < 2 ^ 32) : parseIPv4 (dotted v).toList = some v := by
  have hoctet {n : Nat} : n % 256 < 256 := Nat.mod_lt _ (by decide)
  have hdot {n : Nat} : '.' ∉ (toString (n % 256)).toList := fun hx =>
    absurd (isDigit_of_mem_toString hoctet hx) (by decide)
  unfold parseIPv4
  rw [toList_dotted, List.splitOn_intercalate '.' (by simp only [List.forall_mem_cons]; exact ⟨hdot, hdot, hdot, hdot, by simp⟩)
    (by simp)]
  simp only [List.map_cons, List.map_nil, parseOctet_toString hoctet, Option.some.injEq]
  omega

theorem parseAddr_dotted (h : v < 2 ^ 32) : parseAddr (dotted v) = some (mapIPv4 v, 32) := by
  have hfirst : (dotted v).toList.find? (fun c => c == '.' || c == ':') = some '.' := by
    -- The first octet has only digits.
    have hnone : (toString (v / 2 ^ 24 % 256)).toList.find? (fun c => c == '.' || c == ':') = none := by
      refine List.find?_eq_none.2 fun c hc hx => ?_
      have hdigit := isDigit_of_mem_toString (Nat.mod_lt _ (by decide)) hc
      simp only [Bool.or_eq_true, beq_iff_eq] at hx
      obtain rfl | rfl := hx
      · exact absurd hdigit (by decide)
      · exact absurd hdigit (by decide)
    rw [toList_dotted, List.intercalate_cons_cons, List.append_assoc, List.find?_append, hnone]
    rfl
  rw [parseAddr, hfirst]
  simp only [parseIPv4_dotted h]
  rfl

theorem parseIP_dotted (h : v < 2 ^ 32) : parseIP (dotted v) = some (mapIPv4 v) := by
  rw [parseIP, parseAddr_dotted h]
  rfl

theorem to4_mapIPv4 (h : v < 2 ^ 32) : to4 (mapIPv4 v) = some v := by
  unfold to4 mapIPv4
  rw [if_pos (by omega)]
  congr 1
  omega

theorem parseCIDR_dotted (h : v < 2 ^ 32) (hones : ones ≤ 32) :
    parseCIDR (dotted v ++ "/" ++ toString ones) = some (mapIPv4 v, ones, 32) := by
  have hlist : (dotted v ++ "/" ++ toString ones).toList = (dotted v).toList ++ '/' :: (toString ones).toList := by
    simp
  have hslash : ∀ c ∈ (dotted v).toList, decide (c ≠ '/') = true := by
    intro c hc
    rw [decide_eq_true_eq]
    rintro rfl
    obtain hx | hx := mem_dotted hc
    · exact absurd hx (by decide)
    · exact absurd hx (by decide)
  have hmask : ∀ ones ≤ 32, (toString ones).toList ≠ [] ∧ (toString ones).toList.all isDigit ∧
      (toString ones).toList.foldl (fun n c => 10 * n + (c.toNat - 48)) 0 = ones := by
    decide +kernel
  obtain ⟨hne, hdigits, hvalue⟩ := hmask ones hones
  unfold parseCIDR
  rw [hlist, List.span_eq_takeWhile_dropWhile, List.takeWhile_append_of_pos hslash, List.dropWhile_append_of_pos hslash]
  simp only [List.takeWhile_cons, List.dropWhile_cons, ne_eq, not_true_eq_false, decide_false, Bool.false_eq_true, if_false,
    List.append_nil, String.ofList_toList, parseAddr_dotted h, hne, hdigits, hvalue, or_self]
  exact if_pos hones

end Texts

/-! ## Blocks of a subnet -/

/-- A subnet that `mknetd` accepts, by its first address and its length. -/
structure Subnet (net ones : Nat) : Prop where
  length : 16 ≤ ones ∧ ones ≤ 30
  canonical : net % 2 ^ (32 - ones) = 0
  inside : net < 2 ^ 32
  isPrivate : isPrivate net

/-- The address and the gateway of the endpoint in block `i`. -/
def slotAddress (net i : Nat) : String := dotted (net + 4 * i + 2) ++ "/30"

def slotGateway (net i : Nat) : String := dotted (net + 4 * i + 1)

section Slots
variable {net ones i j : Nat}

theorem Subnet.end_le (h : Subnet net ones) : net + 2 ^ (32 - ones) ≤ 2 ^ 32 := by
  have hdvd : 2 ^ (32 - ones) ∣ 2 ^ 32 := Nat.pow_dvd_pow 2 (by omega)
  obtain ⟨c, hc⟩ := hdvd
  obtain ⟨d, hd⟩ := Nat.dvd_of_mod_eq_zero h.canonical
  have hlt : d < c := by
    refine Nat.lt_of_mul_lt_mul_left (a := 2 ^ (32 - ones)) ?_
    rw [← hc, ← hd]
    exact h.inside
  rw [hc, hd, ← Nat.mul_succ]
  exact Nat.mul_le_mul_left _ hlt

theorem Subnet.size (h : Subnet net ones) : 2 ^ (32 - ones) = 4 * 2 ^ (30 - ones) := by
  have hlength := h.length
  rw [show 32 - ones = 2 + (30 - ones) by omega, Nat.pow_add]

/-- Block `i` ends inside the subnet. -/
theorem Subnet.slot_lt (h : Subnet net ones) (hi : i < 2 ^ (30 - ones)) : net + 4 * i + 4 ≤ net + 2 ^ (32 - ones) := by
  rw [h.size]
  omega

theorem Subnet.slot_lt_pow (h : Subnet net ones) (hi : i < 2 ^ (30 - ones)) : net + 4 * i + 4 ≤ 2 ^ 32 :=
  (h.slot_lt hi).trans h.end_le

theorem Subnet.mod_four (h : Subnet net ones) : net % 4 = 0 := by
  have hdvd : 4 ∣ 2 ^ (32 - ones) := by
    rw [h.size]
    exact Dvd.intro _ rfl
  exact Nat.mod_eq_zero_of_dvd (hdvd.trans (Nat.dvd_of_mod_eq_zero h.canonical))

/-- The subnet lies in one `/16`. -/
theorem Subnet.low_lt (h : Subnet net ones) (hi : i < 2 ^ (30 - ones)) : net % 2 ^ 16 + 4 * i + 4 ≤ 2 ^ 16 := by
  have hdvd : 2 ^ (32 - ones) ∣ 2 ^ 16 := Nat.pow_dvd_pow 2 (by have := h.length; omega)
  obtain ⟨c, hc⟩ := hdvd
  have hmod : 2 ^ (32 - ones) ∣ net % 2 ^ 16 := by
    rw [Nat.dvd_mod_iff ⟨c, hc⟩]
    exact Nat.dvd_of_mod_eq_zero h.canonical
  obtain ⟨d, hd⟩ := hmod
  have hlt : d < c := by
    refine Nat.lt_of_mul_lt_mul_left (a := 2 ^ (32 - ones)) ?_
    rw [← hc, ← hd]
    exact Nat.mod_lt _ (by decide)
  have hend : 2 ^ (32 - ones) * d + 2 ^ (32 - ones) ≤ 2 ^ 16 := by
    rw [hc, ← Nat.mul_succ]
    exact Nat.mul_le_mul_left _ hlt
  have hsize := h.size
  rw [hd]
  omega

theorem parseCIDR_slotAddress (h : Subnet net ones) (hi : i < 2 ^ (30 - ones)) :
    parseCIDR (slotAddress net i) = some (mapIPv4 (net + 4 * i + 2), 30, 32) := by
  have hlt := h.slot_lt_pow hi
  have htext : slotAddress net i = dotted (net + 4 * i + 2) ++ "/" ++ toString 30 := by
    rw [slotAddress, String.append_assoc]
    rfl
  rw [htext]
  exact parseCIDR_dotted (by omega) (by decide)

variable {s : Service} {es : List Endpoint}

theorem addIP_eq {a b : Nat} (h : a + b < 2 ^ 32) : addIP a b = a + b := Nat.mod_eq_of_lt h

/-- The texts `allocate` tries. -/
theorem candidate_eq (h : Subnet net ones) (hi : i < 2 ^ (30 - ones)) :
    dotted (addIP (addIP net (i * 4)) 2) ++ "/30" = slotAddress net i ∧
      dotted (addIP (addIP net (i * 4)) 1) = slotGateway net i := by
  have hlt := h.slot_lt_pow hi
  rw [addIP_eq (a := net) (b := i * 4) (by omega), addIP_eq (by omega), addIP_eq (by omega), Nat.mul_comm i 4]
  exact ⟨rfl, rfl⟩

theorem allocate_some (h : Subnet s.subnet s.ones) {slot : String × String} (hslot : s.allocate es = some slot) :
    ∃ i < 2 ^ (30 - s.ones), slot = (slotAddress s.subnet i, slotGateway s.subnet i) ∧
      ∀ e ∈ es, e.address ≠ slotAddress s.subnet i := by
  obtain ⟨i, hi, hfree⟩ := List.exists_of_findSome?_eq_some hslot
  have hi := List.mem_range.1 hi
  obtain ⟨haddress, hgateway⟩ := candidate_eq h hi
  simp only [haddress, hgateway] at hfree
  split at hfree
  · cases hfree
  · rename_i hany
    refine ⟨i, hi, (Option.some.inj hfree).symm, fun e he hx => hany ?_⟩
    exact List.any_eq_true.2 ⟨e, he, by simpa using hx⟩

theorem allocate_none (h : Subnet s.subnet s.ones) :
    s.allocate es = none ↔ ∀ i < 2 ^ (30 - s.ones), ∃ e ∈ es, e.address = slotAddress s.subnet i := by
  unfold Service.allocate
  rw [List.findSome?_eq_none_iff]
  simp only [List.mem_range]
  refine forall₂_congr fun i hi => ?_
  obtain ⟨haddress, -⟩ := candidate_eq h hi
  simp [haddress]

end Slots

/-! ## Transit blocks -/

/-- The first address of the transit block of a guest address. -/
def transitBase (ip : Nat) : Nat := 100 * 2 ^ 24 + 64 * 2 ^ 16 + ip % 2 ^ 16 / 4 * 4

theorem dotted_transit (ip : Nat) {k : Nat} (hk : k < 4) :
    dotted (transitBase ip + k) =
      "100.64." ++ toString (ip % 2 ^ 16 / 4 / 64) ++ "." ++ toString (ip % 2 ^ 16 / 4 % 64 * 4 + k) := by
  have hfirst : (transitBase ip + k) / 2 ^ 24 % 256 = 100 := by unfold transitBase; omega
  have hsecond : (transitBase ip + k) / 2 ^ 16 % 256 = 64 := by unfold transitBase; omega
  have hthird : (transitBase ip + k) / 2 ^ 8 % 256 = ip % 2 ^ 16 / 4 / 64 := by unfold transitBase; omega
  have hfourth : (transitBase ip + k) % 256 = ip % 2 ^ 16 / 4 % 64 * 4 + k := by unfold transitBase; omega
  unfold dotted
  rw [hfirst, hsecond, hthird, hfourth]
  rfl

/-- What the backend derives from a valid address. -/
theorem topology_transit {e : Endpoint} {t : Topology} {ip : Nat} (ht : endpointTopology e = .ok t)
    (hip : parseCIDR e.address = some (mapIPv4 ip, 30, 32)) (hlt : ip < 2 ^ 32) :
    t.child = ip ∧ t.transitHost = dotted (transitBase ip + 1) ∧ t.transitPeer = dotted (transitBase ip + 2) := by
  have hparse : ((parseCIDR e.address).bind fun c => (to4 c.1).map fun ip => (ip, c.2)) = some (ip, 30, 32) := by
    rw [hip]
    simp [to4_mapIPv4 hlt]
  unfold endpointTopology at ht
  rw [hparse] at ht
  rw [dotted_transit ip (by decide), dotted_transit ip (by decide)]
  split at ht
  · cases ht
  · dsimp only at ht
    repeat' split at ht
    all_goals cases ht
    exact ⟨rfl, rfl, rfl⟩

/-! ## The stored endpoints -/

/-- Every record is valid and holds a block of the subnet, no two the same. -/
structure Endpoints.Spread (net ones : Nat) (x : Endpoints) : Prop where
  valid : ∀ k e, x.lookup k = some e → validateStoredEndpoint k e = none
  slot : ∀ k e, x.lookup k = some e → ∃ i < 2 ^ (30 - ones), e.address = slotAddress net i ∧ e.gateway = slotGateway net i
  apart : ∀ k e k' e', x.lookup k = some e → x.lookup k' = some e' → e.address = e'.address → k = k'

section Spread
variable {net ones : Nat} {x : Endpoints} {e : Endpoint}

theorem Endpoints.spread_empty : (∅ : Endpoints).Spread net ones := by
  constructor <;> intro k e h
  · cases h
  · cases h
  · intro e' h'
    cases h'

/-- A record whose block no other record holds. -/
theorem Endpoints.Spread.insert (hx : x.Spread net ones) (hv : validateStoredEndpoint e.key e = none)
    (hslot : ∃ i < 2 ^ (30 - ones), e.address = slotAddress net i ∧ e.gateway = slotGateway net i)
    (hfree : ∀ k e', x.lookup k = some e' → e'.address = e.address → k = e.key) :
    Endpoints.Spread net ones (x.insert e.key e) where
  valid k a ha := by
    obtain ⟨rfl, rfl⟩ | ha := Endpoints.insert_cases ha
    · exact hv
    · exact hx.valid k a ha
  slot k a ha := by
    obtain ⟨rfl, rfl⟩ | ha := Endpoints.insert_cases ha
    · exact hslot
    · exact hx.slot k a ha
  apart k a k' a' ha ha' heq := by
    obtain ⟨rfl, rfl⟩ | hold := Endpoints.insert_cases ha <;> obtain ⟨rfl, rfl⟩ | hold' := Endpoints.insert_cases ha'
    · rfl
    · exact (hfree k' a' hold' heq.symm).symm
    · exact hfree k a hold heq
    · exact hx.apart k a k' a' hold hold' heq

theorem Endpoints.Spread.erase (hx : x.Spread net ones) (k : String × String × String) :
    Endpoints.Spread net ones (x.erase k) where
  valid k a ha := hx.valid k a (Endpoints.erase_cases ha).2
  slot k a ha := hx.slot k a (Endpoints.erase_cases ha).2
  apart k a k' a' ha ha' := hx.apart k a k' a' (Endpoints.erase_cases ha).2 (Endpoints.erase_cases ha').2

end Spread

/-- In memory and in the file. -/
structure World.Spread (net ones : Nat) (w : World) : Prop where
  data : w.store.data.Spread net ones
  file : w.store.file.Spread net ones

theorem Persists.spread {w w' : World} {next : Endpoints} {r : Option Err} (h : Persists w next w' r)
    (hw : w.Spread net ones) (hnext : next.Spread net ones) : w'.Spread net ones := by
  cases h with
  | done h => exact ⟨h ▸ hnext, h ▸ hnext⟩
  | failed hdata hfile =>
    refine ⟨hdata ▸ hw.data, ?_⟩
    obtain h | h := hfile
    · exact h ▸ hw.file
    · exact h ▸ hnext

theorem spread_rebound : Rebound (World.Spread net ones) := by
  intro w w' e₀ e r hw he₀ he hv hp
  refine hp.spread hw (hw.data.insert hv ?_ fun k e' he' haddr => ?_)
  · rw [he.address, he.gateway]
    exact hw.data.slot _ _ he₀
  · exact hw.data.apart k e' e.key e₀ he' he₀ (haddr.trans he.address)

theorem spread_upheld {s : Service} (hs : Subnet s.subnet s.ones) : Upheld s (World.Spread s.subnet s.ones) where
  keyed w k e hw he := key_of_stored (hw.data.valid k e he)
  revised w w' e₀ e r hw he₀ he _ hv hp := spread_rebound w w' e₀ e r hw he₀ he hv hp
  erased w w' k r hw hp := hp.spread hw (hw.data.erase k)
  allocated w w' e es slot gen t r hw hes hslot he hv hp := by
    obtain ⟨i, hi, rfl, hfree⟩ := allocate_some hs hslot
    refine hp.spread hw (hw.data.insert (e := s.allocation e _ gen t) hv ⟨i, hi, rfl, rfl⟩ fun k e' he' haddr => ?_)
    exact absurd haddr (hfree e' (hes.mem_iff.2 (Endpoints.mem_values.2 ⟨k, he'⟩)))

theorem spread_upheldAtBoot : UpheldAtBoot (World.Spread net ones) where
  opened _ hw _ := ⟨hw.file, hw.file⟩
  erased _ _ k _ hw hp := hp.spread hw (hw.data.erase k)

/-! ## Runs -/

/-- Every start of the daemon has the same subnet. -/
def Turn.Serves (subnet : String) (t : Turn) : Prop :=
  match t.op with
  | .boot f => f.subnet = subnet
  | .request _ => True

/-- A subnet as `mknetd` takes it. -/
def subnetText (net ones : Nat) : String := dotted net ++ "/" ++ toString ones

theorem Service.new_subnet (h : Subnet net ones) {f : Flags} {id : String} {s : Service}
    (hf : f.subnet = subnetText net ones) (hs : Service.new f id = .ok s) : s.subnet = net ∧ s.ones = ones := by
  have hlength := h.length
  have hparse : ((parseCIDR f.subnet).bind fun c => (to4 c.1).map fun ip => (ip, c.2)) = some (net, ones, 32) := by
    rw [hf, subnetText, parseCIDR_dotted h.inside (by omega)]
    simp [to4_mapIPv4 h.inside]
  have hnet : net / 2 ^ (32 - ones) * 2 ^ (32 - ones) = net :=
    Nat.div_mul_cancel (Nat.dvd_of_mod_eq_zero h.canonical)
  unfold Service.new at hs
  rw [hparse] at hs
  dsimp only at hs
  repeat' split at hs
  all_goals cases hs
  exact ⟨hnet, rfl⟩

/-- The service and the store of a daemon that serves the subnet. -/
structure Daemon.Serving (net ones : Nat) (d : Daemon) : Prop where
  service : ∀ s, d.service = some s → s.subnet = net ∧ s.ones = ones
  spread : d.world.Spread net ones

/-- A daemon that serves has the service of its flags. -/
theorem boot_emits (f : Flags) :
    Emits (I := NetI) (fun _ => True) (boot f) fun r => ∀ s, r = .ok s → ∃ id, Service.new f id = .ok s := by
  unfold boot
  refine ⟨trivial, fun r _ _ => ?_⟩
  change Option Err at r
  cases r with
  | some err => exact fun s hs => by cases hs
  | none =>
    refine ⟨trivial, fun r _ _ => ?_⟩
    change Except Err String at r
    cases r with
    | error err => exact fun s hs => by cases hs
    | ok id =>
      dsimp only [Prog.bind]
      cases hnew : Service.new f id with
      | error err => exact fun s hs => by cases hs
      | ok s =>
        refine (emits_true (s.reconcile)).bind fun r => ?_
        cases r with
        | some err => exact fun s hs => by cases hs
        | none =>
          intro s' hs
          cases hs
          exact ⟨id, hnew⟩

theorem Daemon.Serving.turn (hsub : Subnet net ones) {d : Daemon} {t : Turn} (hd : d.Serving net ones)
    (ht : t.Serves (subnetText net ones)) : (d.turn t).Serving net ones := by
  obtain ⟨op, as⟩ := t
  cases op with
  | boot f =>
    have hboot := (upheld_boot spread_upheldAtBoot f hd.spread).and (boot_emits f).lift
    constructor
    · intro s hs
      change (exec Net (boot f) d.world as).2.bind Except.toOption = some s at hs
      obtain ⟨r, hr, hok⟩ := Option.bind_eq_some_iff.1 hs
      obtain ⟨id, hid⟩ := (hboot.exec_result (meets_true Net _ _ as) (Prod.ext rfl hr)).2 s (by
        cases r with
        | error err => cases hok
        | ok s' => exact congrArg Except.ok (Option.some.inj hok))
      exact Service.new_subnet hsub ht hid
    · exact hboot.exec_world (fun _ _ h => h) (fun _ _ h => h.1) as (meets_true Net _ _ as)
  | request r =>
    unfold Daemon.turn
    cases hs : d.service with
    | none => exact hd
    | some s =>
      obtain ⟨rfl, rfl⟩ := hd.service s hs
      have hsat := upheld_request (spread_upheld hsub) spread_rebound r hd.spread
      constructor
      · intro s' hs'
        obtain ⟨-, -, rfl⟩ := Option.map_eq_some_iff.1 hs'
        exact ⟨rfl, rfl⟩
      · exact hsat.exec_world (fun _ _ h => h) (fun _ _ h => h) as (meets_true Net _ _ as)

theorem Daemon.serving_after (hsub : Subnet net ones) {ts : List Turn}
    (hts : ∀ t ∈ ts, t.Serves (subnetText net ones)) : (Daemon.after ts).Serving net ones := by
  refine (conforms_of_mem hts).inv (J := Daemon.Serving net ones) ?_ fun d t hd ht => hd.turn hsub ht
  exact ⟨fun s hs => (by cases hs), Endpoints.spread_empty, Endpoints.spread_empty⟩

/-! ## An exhausted pool -/

/-- The request is answered RESOURCE_EXHAUSTED. -/
def Exhausted (r : Except APIError Endpoint) : Prop := ∃ issue, r = .error issue ∧ issue.code = .resourceExhausted

/-- `Add` would allocate: the request passes its checks and its identity has no
endpoint. -/
def Endpoint.AsksForNew (e : Endpoint) (w : World) : Prop :=
  validateEndpoint e true = none ∧ (e.owned.owner = .cni ∨ e.owned.owner = .runtime) ∧
    (e.managedNamespace → e.owned.owner = .runtime) ∧ w.store.data.lookup e.key = none

section Add
variable {s : Service} {e : Endpoint} {w : World}

theorem not_exhausted {code : APICode} {text : String} {again : Bool} (h : code ≠ .resourceExhausted) :
    ¬Exhausted (.error ⟨code, text, again⟩) := by
  rintro ⟨issue, hissue, hcode⟩
  cases hissue
  exact h hcode

theorem not_exhausted_ok : ¬Exhausted (.ok e) := by
  rintro ⟨issue, hissue, -⟩
  cases hissue

theorem abandon_emits {stage : String} : Emits (I := NetI) (fun _ => True) (s.abandon e stage) fun r => ¬Exhausted r :=
  (emits_true (s.retire e)).bind fun _ => not_exhausted (by decide)

theorem raise_emits : Emits (I := NetI) (fun _ => True) (s.raise e) fun r => ¬Exhausted r := by
  unfold Service.raise
  refine ⟨trivial, fun r _ _ => Sat.unless abandon_emits fun _ => ⟨trivial, fun t _ _ => ⟨trivial, fun r _ _ => ?_⟩⟩⟩
  exact Sat.unless abandon_emits fun _ => not_exhausted_ok

theorem realise_emits : Emits (I := NetI) (fun _ => True) (s.realise e) fun r => ¬Exhausted r := by
  unfold Service.realise
  refine Sat.unless raise_emits fun _ => ⟨trivial, fun r _ _ => ?_⟩
  change Except Err String at r
  cases r with
  | error err => exact abandon_emits
  | ok created => exact Sat.unless abandon_emits fun _ => raise_emits

/-- A new endpoint finds the pool exhausted where every block is held. -/
theorem addNew_exhausted (hs : Subnet s.subnet s.ones) :
    Through (fun _ => True) (s.addNew e) w fun r _ => Exhausted r ↔
      ∀ i < 2 ^ (30 - s.ones), ∃ a ∈ w.store.data.values, a.address = slotAddress s.subnet i := by
  unfold Service.addNew
  refine through_list trivial fun es hes => ?_
  have hmem : s.allocate es = none ↔
      ∀ i < 2 ^ (30 - s.ones), ∃ a ∈ w.store.data.values, a.address = slotAddress s.subnet i := by
    rw [allocate_none hs]
    simp only [hes.mem_iff]
  cases hslot : s.allocate es with
  | none => exact iff_of_true ⟨_, rfl, rfl⟩ (hmem.1 hslot)
  | some slot =>
    have hfree : ¬∀ i < 2 ^ (30 - s.ones), ∃ a ∈ w.store.data.values, a.address = slotAddress s.subnet i := by
      rw [← hmem, hslot]
      simp
    refine through_still (fun _ => rfl) trivial fun r => ?_
    cases r with
    | error err => exact iff_of_false (not_exhausted (by decide)) hfree
    | ok gen =>
      refine through_now trivial fun t => sat_ite.2 ⟨fun _ => iff_of_false (not_exhausted (by decide)) hfree, fun _ => ?_⟩
      refine through_perform trivial fun a => sat_ite.2 ⟨fun _ => iff_of_false (not_exhausted (by decide)) hfree, fun _ => ?_⟩
      exact realise_emits.lift.mono fun r _ hr => iff_of_false hr hfree

theorem code_of_validateEndpoint {required : Bool} {issue : APIError} (h : validateEndpoint e required = some issue) :
    issue.code = .invalidArgument := by
  unfold validateEndpoint at h
  repeat' split at h
  all_goals cases h
  all_goals rfl

@[simp] theorem owned_key : e.owned.key = e.key := by
  unfold Endpoint.owned
  split <;> rfl

@[simp] theorem owned_managedNamespace : e.owned.managedNamespace = e.managedNamespace := by
  unfold Endpoint.owned
  split <;> rfl

/-- `Add` is answered RESOURCE_EXHAUSTED exactly where it asks for a new endpoint
and every block is held. -/
theorem add_exhausted (hs : Subnet s.subnet s.ones) :
    Through (fun _ => True) (s.add e) w fun r _ => Exhausted r ↔ e.AsksForNew w ∧
      ∀ i < 2 ^ (30 - s.ones), ∃ a ∈ w.store.data.values, a.address = slotAddress s.subnet i := by
  unfold Service.add
  refine through_withLock trivial ?_
  split
  · rename_i issue hissue
    refine ⟨trivial, iff_of_false ?_ fun hx => ?_⟩
    · rintro ⟨issue', hissue', hcode⟩
      cases hissue'
      rw [code_of_validateEndpoint hissue] at hcode
      cases hcode
    · rw [hx.1.1] at hissue
      cases hissue
  rename_i hvalid
  have hvalid : validateEndpoint e true = none := by
    cases hv : validateEndpoint e true with
    | none => rfl
    | some issue => exact absurd hv (hvalid issue)
  refine sat_ite.2 ⟨fun howner => ⟨trivial, iff_of_false (not_exhausted (by decide)) fun hx => ?_⟩, fun howner => ?_⟩
  · exact hx.1.2.1.elim howner.1 howner.2
  refine sat_ite.2 ⟨fun hmanaged => ⟨trivial, iff_of_false (not_exhausted (by decide)) fun hx => ?_⟩, fun hmanaged => ?_⟩
  · rw [owned_managedNamespace] at hmanaged
    exact hmanaged.2 (hx.1.2.2.1 hmanaged.1)
  refine through_get trivial ?_
  have hkey : endpointKey e.owned.networkName e.owned.containerID e.owned.ifName = e.key := owned_key
  rw [hkey]
  cases hlookup : w.store.data.lookup e.key with
  | some existing =>
    have hstored : ¬(e.AsksForNew w ∧
        ∀ i < 2 ^ (30 - s.ones), ∃ a ∈ w.store.data.values, a.address = slotAddress s.subnet i) := by
      intro hx
      rw [hx.1.2.2.2] at hlookup
      cases hlookup
    unfold addExisting
    refine sat_ite.2 ⟨fun _ => ⟨trivial, iff_of_false (not_exhausted (by decide)) hstored⟩, fun _ => ?_⟩
    refine sat_ite.2 ⟨fun _ => ⟨trivial, iff_of_false (not_exhausted (by decide)) hstored⟩, fun _ => ?_⟩
    refine through_backend trivial fun _ => ?_
    exact sat_ite.2 ⟨fun _ => ⟨trivial, iff_of_false (not_exhausted (by decide)) hstored⟩,
      fun _ => ⟨trivial, iff_of_false not_exhausted_ok hstored⟩⟩
  | none =>
    have hasks : e.AsksForNew w := by
      refine ⟨hvalid, ?_, ?_, hlookup⟩
      · by_contra hx
        exact howner ⟨fun h => hx (.inl h), fun h => hx (.inr h)⟩
      · intro hm
        by_contra hx
        exact hmanaged ⟨by rw [owned_managedNamespace]; exact hm, hx⟩
    exact (addNew_exhausted hs).mono fun r _ hr => ⟨trivial, hr.trans (and_iff_right hasks).symm⟩

end Add

/-! ## Blocks of stored endpoints -/

/-- The first address of the guest block of an endpoint. -/
def Endpoint.guestBlock (e : Endpoint) : Option Nat :=
  ((parseCIDR e.address).bind fun c => to4 c.1).map fun ip => ip / 4 * 4

/-- The first address of the transit block the backend derives. -/
def Endpoint.transitBlock (e : Endpoint) : Option Nat :=
  (endpointTopology e).toOption.bind fun t => ((parseIP t.transitHost).bind to4).map fun ip => ip / 4 * 4

/-- Blocks of four addresses have none in common. -/
def Apart (a b : Option Nat) : Prop := ∀ m ∈ a, ∀ n ∈ b, m + 4 ≤ n ∨ n + 4 ≤ m

/-- An endpoint has the two host addresses of a `/30` block of the subnet, and
those of a transit block of 100.64.0.0/10. -/
structure Endpoint.Placed (e : Endpoint) (net ones : Nat) : Prop where
  guest : ∃ base, e.guestBlock = some base ∧ net ≤ base ∧ base + 4 ≤ net + 2 ^ (32 - ones) ∧
    parseIP e.gateway = some (mapIPv4 (base + 1)) ∧ parseCIDR e.address = some (mapIPv4 (base + 2), 30, 32)
  transit : ∃ base t, e.transitBlock = some base ∧ endpointTopology e = .ok t ∧
    100 * 2 ^ 24 + 64 * 2 ^ 16 ≤ base ∧ base + 4 ≤ 100 * 2 ^ 24 + 64 * 2 ^ 16 + 2 ^ 22 ∧
    parseIP t.transitHost = some (mapIPv4 (base + 1)) ∧ parseIP t.transitPeer = some (mapIPv4 (base + 2))

section Blocks
variable {net ones i : Nat} {e : Endpoint}

theorem guestBlock_eq (h : Subnet net ones) (hi : i < 2 ^ (30 - ones)) (he : e.address = slotAddress net i) :
    e.guestBlock = some (net + 4 * i) := by
  have hlt := h.slot_lt_pow hi
  have hfour := h.mod_four
  rw [Endpoint.guestBlock, he, parseCIDR_slotAddress h hi]
  simp only [Option.bind_some]
  rw [to4_mapIPv4 (by omega)]
  simp only [Option.map_some, Option.some.injEq]
  omega

theorem topology_of_stored (hv : validateStoredEndpoint k e = none) : ∃ t, endpointTopology e = .ok t := by
  have htop : refusal (endpointTopology e) = none := by
    simp only [validateStoredEndpoint, Option.or_eq_none_iff] at hv
    exact hv.2.2.2.2.1
  cases ht : endpointTopology e with
  | error text => rw [ht] at htop; cases htop
  | ok t => exact ⟨t, rfl⟩

/-- The transit block of block `i`: the subnet lies in one `/16`. -/
theorem transitBlock_eq (h : Subnet net ones) (hi : i < 2 ^ (30 - ones)) (he : e.address = slotAddress net i)
    {t : Topology} (ht : endpointTopology e = .ok t) :
    e.transitBlock = some (100 * 2 ^ 24 + 64 * 2 ^ 16 + net % 2 ^ 16 + 4 * i) ∧
      t.transitHost = dotted (100 * 2 ^ 24 + 64 * 2 ^ 16 + net % 2 ^ 16 + 4 * i + 1) ∧
      t.transitPeer = dotted (100 * 2 ^ 24 + 64 * 2 ^ 16 + net % 2 ^ 16 + 4 * i + 2) := by
  have hlt := h.slot_lt_pow hi
  have hlow := h.low_lt hi
  have hfour := h.mod_four
  obtain ⟨-, hhost, hpeer⟩ := topology_transit ht (he ▸ parseCIDR_slotAddress h hi) (by omega)
  have hbase : transitBase (net + 4 * i + 2) = 100 * 2 ^ 24 + 64 * 2 ^ 16 + net % 2 ^ 16 + 4 * i := by
    unfold transitBase
    omega
  rw [hbase] at hhost hpeer
  refine ⟨?_, hhost, hpeer⟩
  rw [Endpoint.transitBlock, ht]
  simp only [Except.toOption, Option.bind_some, hhost]
  rw [parseIP_dotted (by omega), Option.bind_some, to4_mapIPv4 (by omega)]
  simp only [Option.map_some, Option.some.injEq]
  omega

theorem Endpoints.Spread.placed (h : Subnet net ones) (hx : x.Spread net ones) (he : x.lookup k = some e)
    : e.Placed net ones := by
  obtain ⟨i, hi, haddress, hgateway⟩ := hx.slot k e he
  obtain ⟨t, ht⟩ := topology_of_stored (hx.valid k e he)
  obtain ⟨htransit, hhost, hpeer⟩ := transitBlock_eq h hi haddress ht
  have hlt := h.slot_lt_pow hi
  have hlow := h.low_lt hi
  refine ⟨⟨net + 4 * i, guestBlock_eq h hi haddress, by omega, h.slot_lt hi, ?_, ?_⟩,
    ⟨_, t, htransit, ht, by omega, by omega, ?_, ?_⟩⟩
  · rw [hgateway]
    exact parseIP_dotted (by omega)
  · rw [haddress]
    exact parseCIDR_slotAddress h hi
  · rw [hhost]
    exact parseIP_dotted (by omega)
  · rw [hpeer]
    exact parseIP_dotted (by omega)

theorem apart_of_ne {a i j : Nat} (h : i ≠ j) : Apart (some (a + 4 * i)) (some (a + 4 * j)) := by
  rintro m ⟨⟩ n ⟨⟩
  omega

theorem Endpoints.Spread.blocks_differ (h : Subnet net ones) (hx : x.Spread net ones) {k' : String × String × String}
    {e' : Endpoint} (he : x.lookup k = some e) (he' : x.lookup k' = some e') (hne : k ≠ k')
    : Apart e.guestBlock e'.guestBlock ∧ Apart e.transitBlock e'.transitBlock := by
  obtain ⟨i, hi, haddress, -⟩ := hx.slot k e he
  obtain ⟨j, hj, haddress', -⟩ := hx.slot k' e' he'
  obtain ⟨t, ht⟩ := topology_of_stored (hx.valid k e he)
  obtain ⟨t', ht'⟩ := topology_of_stored (hx.valid k' e' he')
  have hij : i ≠ j := by
    rintro rfl
    exact hne (hx.apart k e k' e' he he' (haddress.trans haddress'.symm))
  rw [guestBlock_eq h hi haddress, guestBlock_eq h hj haddress', (transitBlock_eq h hi haddress ht).1,
    (transitBlock_eq h hj haddress' ht').1]
  exact ⟨apart_of_ne hij, apart_of_ne hij⟩

/-- A block is held by the endpoint with its address. -/
theorem Endpoints.Spread.held_iff (h : Subnet net ones) (hx : x.Spread net ones) (hi : i < 2 ^ (30 - ones)) :
    (∃ a ∈ x.values, a.address = slotAddress net i) ↔ ∃ a ∈ x.values, a.guestBlock = some (net + 4 * i) := by
  constructor
  · rintro ⟨a, ha, haddress⟩
    exact ⟨a, ha, guestBlock_eq h hi haddress⟩
  · rintro ⟨a, ha, hblock⟩
    obtain ⟨k, hk⟩ := Endpoints.mem_values.1 ha
    obtain ⟨j, hj, haddress, -⟩ := hx.slot k a hk
    rw [guestBlock_eq h hj haddress, Option.some.injEq] at hblock
    have hji : j = i := by omega
    exact ⟨a, ha, hji ▸ haddress⟩

end Blocks

/-- After every run with one subnet: every stored endpoint, in memory and in the
file, has the host addresses of a guest block of the subnet and of a transit
block; no two share either; and `Add` is answered RESOURCE_EXHAUSTED exactly
where it asks for a new endpoint and every block is held. -/
theorem Daemon.blocks_apart {net ones : Nat} (hsub : Subnet net ones) {ts : List Turn}
    (hts : ∀ t ∈ ts, t.Serves (subnetText net ones)) :
    (∀ x ∈ [(after ts).world.store.data, (after ts).world.store.file],
      (∀ k e, x.lookup k = some e → e.Placed net ones) ∧
      ∀ k e k' e', x.lookup k = some e → x.lookup k' = some e' → k ≠ k' →
        Apart e.guestBlock e'.guestBlock ∧ Apart e.transitBlock e'.transitBlock) ∧
    ∀ s, (after ts).service = some s → ∀ e as w' r, exec Net (s.add e) (after ts).world as = (w', some r) →
      (Exhausted r ↔ e.AsksForNew (after ts).world ∧
        ∀ i < 2 ^ (30 - ones), ∃ a ∈ (after ts).world.store.data.values, a.guestBlock = some (net + 4 * i)) := by
  have hserving := serving_after hsub hts
  constructor
  · intro x hx
    have hspread : x.Spread net ones := by
      simp only [List.mem_cons, List.not_mem_nil, or_false] at hx
      obtain rfl | rfl := hx
      · exact hserving.spread.data
      · exact hserving.spread.file
    exact ⟨fun k e he => hspread.placed hsub he, fun k e k' e' he he' hne => hspread.blocks_differ hsub he he' hne⟩
  · intro s hs e as w' r hexec
    obtain ⟨rfl, rfl⟩ := hserving.service s hs
    rw [(add_exhausted hsub).exec_result (meets_true Net _ _ as) hexec]
    refine and_congr_right fun _ => forall₂_congr fun i hi => ?_
    exact hserving.spread.data.held_iff hsub hi

/-- A daemon with two blocks, which two endpoints have taken. -/
def twoBlocks : List Turn :=
  [⟨.boot { subnet := "10.0.0.0/29" }, working 0⟩, served 1 (.add (sampleEndpoint 1)), served 2 (.add (sampleEndpoint 2))]

/-- The endpoints are in their blocks, and a third one finds the pool exhausted. -/
theorem Daemon.blocks_apart_twoBlocks :
    (∃ e e', (after twoBlocks).world.store.data.lookup (sampleEndpoint 1).key = some e ∧
        (after twoBlocks).world.store.data.lookup (sampleEndpoint 2).key = some e' ∧ e.Placed (10 * 2 ^ 24) 29 ∧
        Apart e.guestBlock e'.guestBlock ∧ Apart e.transitBlock e'.transitBlock) ∧
      ∀ s, (after twoBlocks).service = some s → ∀ as w' r,
        exec Net (s.add (sampleEndpoint 3)) (after twoBlocks).world as = (w', some r) → Exhausted r := by
  have hsub : Subnet (10 * 2 ^ 24) 29 := ⟨by decide, by decide, by decide, by decide⟩
  have hts : ∀ t ∈ twoBlocks, t.Serves (subnetText (10 * 2 ^ 24) 29) := by
    simp only [twoBlocks, List.forall_mem_cons]
    exact ⟨(by decide +kernel : "10.0.0.0/29" = subnetText (10 * 2 ^ 24) 29), trivial, trivial, by simp⟩
  have hmain := blocks_apart hsub hts
  have hstored (n : Nat) (h : ((after twoBlocks).world.store.data.lookup (sampleEndpoint n).key).isSome) :=
    Option.isSome_iff_exists.1 h
  constructor
  · obtain ⟨e, he⟩ := hstored 1 (by decide +kernel)
    obtain ⟨e', he'⟩ := hstored 2 (by decide +kernel)
    obtain ⟨hplaced, hapart⟩ := hmain.1 _ List.mem_cons_self
    exact ⟨e, e', he, he', hplaced _ e he, hapart _ e _ e' he he' (by decide +kernel)⟩
  · intro s hs as w' r hexec
    refine (hmain.2 s hs _ as w' r hexec).2 ⟨⟨by decide +kernel, by decide +kernel, by decide +kernel, by decide +kernel⟩, ?_⟩
    decide +kernel

end Multikernel.Network
