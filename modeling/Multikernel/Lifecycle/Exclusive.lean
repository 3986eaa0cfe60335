import Multikernel.Lifecycle.Owners
/-!
# Exclusive allocation

No two sandboxes of the snapshot share a CPU, a port, a CID or a bundle.
`Create` checks this against the snapshot in memory only, but an incomplete
intent keeps its sandbox too, and recovery writes that sandbox back
(`recoverFinish`, `recoverFail`); after a write that failed late `state.json` may
hold one as well. So the rule holds in every run whose creates stay clear of
these, and fails in others (`not_exclusive`).
-/

namespace Multikernel
open Lib

/-- Distinct sandboxes share nothing, and no sandbox holds CPU 0. -/
structure Snapshot.Exclusive (d : Snapshot) : Prop where
  apart : ∀ i j a b, d.sandboxes.lookup i = some a → d.sandboxes.lookup j = some b → i ≠ j →
    a.config.cpus.Disjoint b.config.cpus ∧ a.config.agentPort ≠ b.config.agentPort ∧
      a.config.childCID ≠ b.config.childCID ∧ a.config.bundle ≠ b.config.bundle
  cpus : ∀ i a, d.sandboxes.lookup i = some a → 0 ∉ a.config.cpus

/-- A create that will be admitted overlaps no other sandbox of an incomplete
intent or of the file. -/
def Service.Clear (s : Service) (w : World) (op : Op) (_ : List Answer) : Prop :=
  ∀ c key, op = .request (.create c key) → s.Admits w.store c key → ∀ sb,
    ((∃ e ∈ w.store.pending, e.sandbox = some sb) ∨ ∃ id, w.store.disk.sandboxes.lookup id = some sb) →
      sb.id ≠ c.id → overlap c sb.config = false

/-- What `overlap` checks, between records of different sandboxes. -/
def Disjointed (a b : Sandbox) : Prop :=
  (a.id ≠ b.id → overlap a.config b.config = false) ∧ 0 ∉ a.config.cpus ∧ 0 ∉ b.config.cpus

theorem respects_disjointed : Respects Disjointed where
  symm h := ⟨fun hid => overlap_comm _ _ ▸ h.1 hid.symm, h.2.2, h.2.1⟩
  same hs h := ⟨hs.id ▸ hs.config ▸ h.1, hs.config ▸ h.2.1, h.2.2⟩

namespace Service
variable {s : Service} {st : Store} {c : SandboxConfig} {key : String}

theorem Admits.cpus (h : s.Admits st c key) : 0 ∉ c.cpus := by
  have hvalid : validateConfig c = none := by
    have := h.1
    unfold validateCreate at this
    split at this
    · cases this
    · assumption
  exact fun h0 => absurd (validateConfig_cpus hvalid 0 h0) (by decide)

/-- An admitted create overlaps no sandbox of the snapshot. -/
theorem Admits.overlap (h : s.Admits st c key) {id : String} {b : Sandbox} (hb : st.data.sandboxes.lookup id = some b) :
    overlap c b.config = false := by
  have hadm := h.2.2
  unfold admission at hadm
  split at hadm
  · cases hadm
  · split at hadm
    · cases hadm
    · rename_i hno
      simp only [List.any_eq_true, not_exists, not_and, Bool.not_eq_true] at hno
      exact hno b (List.mem_map.2 ⟨⟨id, b⟩, AList.mem_lookup_iff.1 hb, rfl⟩)

theorem Admits.joins (h : s.Admits st c key) (hcpus : ∀ b, st.Owns b → 0 ∉ b.config.cpus)
    (hclear : ∀ sb, ((∃ e ∈ st.pending, e.sandbox = some sb) ∨ ∃ id, st.disk.sandboxes.lookup id = some sb) →
      sb.id ≠ c.id → Multikernel.overlap c sb.config = false) :
    Joins Disjointed st c := by
  refine fun v t => ⟨⟨fun hne => absurd rfl hne, h.cpus, h.cpus⟩, fun b hb => ⟨fun hne => ?_, h.cpus, hcpus b hb⟩⟩
  rcases hb with ⟨id, hb | hb⟩ | hb
  · exact h.overlap hb
  · exact hclear b (.inr ⟨id, hb⟩) (Ne.symm hne)
  · exact hclear b (.inl hb) (Ne.symm hne)

/-- In a run whose creates are all clear, every snapshot is exclusive. Turns
may stop before any of their calls, so this is every snapshot on the way. -/
theorem exclusive_of_clear (s : Service) (ts : List Turn) (h : s.Conforming s.Clear ts) :
    (s.after ts).world.store.data.Exclusive := by
  have hR : Compatible Disjointed [] (s.after ts).world.store := by
    refine Conforming.compatible respects_disjointed h fun w c key as _ hw hclear hadm => ?_
    exact hadm.joins (fun b hb => (hw b b (.inr hb) (.inr hb)).2.1) (hclear c key rfl hadm)
  have hkeyed := after_keyed s ts
  have howns {i : String} {a : Sandbox} (ha : (s.after ts).world.store.data.sandboxes.lookup i = some a) :
      a ∈ ([] : List Sandbox) ∨ (s.after ts).world.store.Owns a := .inr (.inl ⟨i, .inl ha⟩)
  refine ⟨fun i j a b ha hb hij => overlap_false.1 ((hR a b (howns ha) (howns hb)).1 ?_),
    fun i a ha => (hR a a (howns ha) (howns ha)).2.1⟩
  rwa [hkeyed.sandboxes i a ha, hkeyed.sandboxes j b hb]

/-- Two creates that succeed. -/
def twoCreates : List Turn :=
  [⟨.boot, working 0⟩, ⟨.request (.create (sampleConfig "a" 1) "k1"), working 1⟩,
    ⟨.request (.create (sampleConfig "b" 2) "k2"), working 2⟩]

theorem exclusive_twoCreates :
    (Service.after {} twoCreates).world.store.data.sandboxes.keys = ["b", "a"] ∧
      (Service.after {} twoCreates).world.store.data.Exclusive := by
  refine ⟨by decide +kernel, exclusive_of_clear {} twoCreates (conforming_of_startsComplete ?_ (by decide +kernel))⟩
  intro w op as hw hdisk _ c key _ hadm sb hsb _
  obtain ⟨id, hid⟩ := hsb.resolve_left (by simp [hw])
  exact hadm.overlap (hdisk ▸ hid)

/-- A create whose commit is refused keeps its intent. The sandbox is deleted,
another one takes its CPU, and the next daemon brings the first one back. -/
def resurrected : List Turn :=
  [⟨.boot, working 0⟩, ⟨.request (.create (sampleConfig "a" 1) "k1"), except 1 24 diskFull⟩,
    ⟨.request (.delete "a" (hexGeneration 105) "k2"), working 2⟩,
    ⟨.request (.create { sampleConfig "b" 2 with cpus := [1] } "k3"), working 3⟩, ⟨.boot, working 4⟩]

theorem not_exclusive : ¬(Service.after {} resurrected).world.store.data.Exclusive := by
  intro h
  have ha : ((Service.after {} resurrected).world.store.data.sandboxes.lookup "a").map (·.config.cpus) = some [1] := by
    decide +kernel
  have hb : ((Service.after {} resurrected).world.store.data.sandboxes.lookup "b").map (·.config.cpus) = some [1] := by
    decide +kernel
  obtain ⟨a, ha, hca⟩ := Option.map_eq_some_iff.1 ha
  obtain ⟨b, hb, hcb⟩ := Option.map_eq_some_iff.1 hb
  exact (h.apart "a" "b" a b ha hb (by decide)).1 (hca ▸ List.mem_singleton_self 1) (hcb ▸ List.mem_singleton_self 1)

end Service

end Multikernel
