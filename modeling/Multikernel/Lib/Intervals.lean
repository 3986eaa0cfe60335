import Mathlib.Data.Set.Card
import Mathlib.Order.Bounds.Basic
import Mathlib.Order.Interval.Finset.Nat
import Mathlib.Order.Interval.Set.Infinite
import Mathlib.Tactic.Common
/-!
# Sweeping sorted intervals

Spans sorted by their first number are swept from left to right inside a frame:
a span that overlaps or touches the current one extends it, any other closes it
and leaves a gap. The tally then counts the numbers that some span covers, and
the longest gap is the longest run of the frame's numbers that none covers
(`tally_size`, `tally_gap`), however the spans nest and overlap.
-/

namespace Multikernel.Lib.Intervals

/-- The numbers from `lo` to `hi`, both included. -/
structure Span where
  lo : Nat
  hi : Nat
  le : lo ≤ hi

def Span.size (s : Span) : Nat := s.hi - s.lo + 1

/-- A span extended to the end of another. -/
def Span.join (s r : Span) : Span := ⟨s.lo, max s.hi r.hi, le_trans s.le (le_max_left _ _)⟩

/-- The numbers that some span holds. -/
def covered (ss : List Span) : Set Nat := {a | ∃ s ∈ ss, s.lo ≤ a ∧ a ≤ s.hi}

/-- Some run of `n` numbers from `lo` on and before `up` is outside `u`. -/
def Free (lo up : Nat) (u : Set Nat) (n : Nat) : Prop :=
  ∃ a, lo ≤ a ∧ a + n ≤ up ∧ ∀ x, a ≤ x → x < a + n → x ∉ u

/-- What a sweep has counted: covered numbers, and the longest gap. -/
structure Tally where
  size : Nat
  gap : Nat

/-- Sweep the rest, with `cur` still open. -/
def sweep (frame : Span) : Span → List Span → Tally → Tally
  | cur, [], t => ⟨t.size + cur.size, max t.gap (frame.hi - cur.hi)⟩
  | cur, s :: ss, t =>
    if s.lo ≤ cur.hi + 1 then sweep frame (cur.join s) ss t
    else sweep frame s ss ⟨t.size + cur.size, max t.gap (s.lo - cur.hi - 1)⟩

def tally (frame : Span) (t : Tally) : List Span → Tally
  | [] => ⟨t.size, max t.gap frame.size⟩
  | s :: ss => sweep frame s ss ⟨t.size, max t.gap (s.lo - frame.lo)⟩

abbrev Sorted (ss : List Span) : Prop := ss.Pairwise fun s r => s.lo ≤ r.lo

/-! ## What is covered -/

section Covered
variable {s r : Span} {ss ss' : List Span} {a : Nat}

@[simp] theorem covered_nil : covered [] = ∅ := by
  ext a
  simp [covered]

theorem mem_covered_cons : a ∈ covered (s :: ss) ↔ (s.lo ≤ a ∧ a ≤ s.hi) ∨ a ∈ covered ss := by
  simp [covered]

theorem covered_cons : covered (s :: ss) = Set.Icc s.lo s.hi ∪ covered ss := by
  ext a
  exact mem_covered_cons

theorem covered_perm (h : ss.Perm ss') : covered ss = covered ss' := by
  ext a
  simp only [covered, Set.mem_ofPred_eq, h.mem_iff]

theorem covered_flatMap {α : Type} (f : α → List Span) (l : List α) :
    covered (l.flatMap f) = {a | ∃ x ∈ l, a ∈ covered (f x)} := by
  ext a
  simp only [covered, List.mem_flatMap, Set.mem_ofPred_eq]
  constructor
  · rintro ⟨s, ⟨x, hx, hs⟩, ha⟩
    exact ⟨x, hx, s, hs, ha⟩
  · rintro ⟨x, hx, s, hs, ha⟩
    exact ⟨s, ⟨x, hx, hs⟩, ha⟩

theorem covered_finite (ss : List Span) : (covered ss).Finite := by
  induction ss with
  | nil => rw [covered_nil]; exact Set.finite_empty
  | cons s ss ih => rw [covered_cons]; exact (Set.finite_Icc _ _).union ih

theorem ncard_span (s : Span) : (Set.Icc s.lo s.hi).ncard = s.size := by
  have hcard : (Set.Icc s.lo s.hi).ncard = (Finset.Icc s.lo s.hi).card := by
    rw [← Finset.coe_Icc, Set.ncard_coe_finset]
  rw [hcard, Nat.card_Icc, Span.size]
  have hle := s.le
  omega

theorem not_mem_covered (hss : ∀ r ∈ ss, a < r.lo) : a ∉ covered ss := by
  rintro ⟨r, hr, hlo, -⟩
  exact absurd hlo (Nat.not_le.2 (hss r hr))

/-- A span that overlaps or touches the current one is as good as part of it. -/
theorem covered_join (hlo : s.lo ≤ r.lo) (htouch : r.lo ≤ s.hi + 1) (ss : List Span) :
    covered (s.join r :: ss) = covered (s :: r :: ss) := by
  ext a
  have hr := r.le
  simp only [mem_covered_cons, Span.join]
  rw [← or_assoc]
  apply or_congr_left
  simp only [le_max_iff]
  omega

end Covered

/-! ## Runs outside -/

section Free
variable {s : Span} {ss : List Span} {lo up n : Nat} {u v : Set Nat}

theorem free_congr (h : ∀ x, lo ≤ x → x < up → (x ∈ u ↔ x ∈ v)) : Free lo up u n ↔ Free lo up v n := by
  apply exists_congr
  intro a
  apply and_congr_right
  intro ha
  apply and_congr_right
  intro hup
  apply forall_congr'
  intro x
  apply imp_congr_right
  intro hx
  apply imp_congr_right
  intro hlt
  rw [h x (ha.trans hx) (hlt.trans_le hup)]

/-- A run beside a span lies before it or after it. -/
theorem free_split (hlo : lo ≤ s.lo) (hup : s.hi < up) (hss : ∀ r ∈ ss, s.lo ≤ r.lo) :
    Free lo up (covered (s :: ss)) n ↔ n ≤ s.lo - lo ∨ Free (s.hi + 1) up (covered (s :: ss)) n := by
  have hle := s.le
  constructor
  · rintro ⟨a, ha, hn, hfree⟩
    by_cases hbefore : n = 0 ∨ a + n ≤ s.lo
    · left
      omega
    · by_cases hafter : s.hi < a
      · exact .inr ⟨a, hafter, hn, hfree⟩
      · -- otherwise the run meets the span, at its own start or at the span's
        have hmeet : max a s.lo ∈ covered (s :: ss) := mem_covered_cons.2 (.inl (by omega))
        exact absurd hmeet (hfree (max a s.lo) (by omega) (by omega))
  · rintro (hn | ⟨a, ha, hn, hfree⟩)
    · refine ⟨lo, le_rfl, by omega, ?_⟩
      intro x _ hx
      apply not_mem_covered
      intro r hr
      rcases List.mem_cons.1 hr with rfl | hr
      · omega
      · have hrs := hss r hr
        omega
    · exact ⟨a, by omega, hn, hfree⟩

end Free

/-! ## The sweep -/

section Sweep
variable {frame c : Span} {ss : List Span} {t : Tally} {S : Set Nat}

theorem sweep_size (hs : Sorted (c :: ss)) (t : Tally) :
    (sweep frame c ss t).size = t.size + (covered (c :: ss)).ncard := by
  induction ss generalizing c t with
  | nil => rw [covered_cons, covered_nil, Set.union_empty, ncard_span]; rfl
  | cons s ss ih =>
    obtain ⟨hcur, hsort⟩ := List.pairwise_cons.1 hs
    rw [sweep]
    split
    · rename_i htouch
      have hnext := ih (c := c.join s)
        (List.pairwise_cons.2 ⟨fun r hr => hcur r (List.mem_cons_of_mem _ hr), hsort.of_cons⟩) t
      rw [hnext, covered_join (hcur s List.mem_cons_self) htouch]
    · rename_i hapart
      -- the closed span is apart from all that follow, so the counts add up
      have hdisj : Disjoint (Set.Icc c.lo c.hi) (covered (s :: ss)) := by
        rw [Set.disjoint_left]
        intro a ha
        apply not_mem_covered
        intro r hr
        have hsr : s.lo ≤ r.lo := by
          rcases List.mem_cons.1 hr with rfl | hr
          · exact le_rfl
          · exact List.rel_of_pairwise_cons hsort hr
        have hacur := ha.2
        omega
      rw [ih hsort, covered_cons (s := c), Set.ncard_union_eq hdisj (Set.finite_Icc _ _) (covered_finite _),
        ncard_span, Nat.add_assoc]

theorem sweep_gap (hs : Sorted (c :: ss)) (hin : ∀ s ∈ c :: ss, s.hi ≤ frame.hi) (ht : IsGreatest S t.gap) :
    IsGreatest (S ∪ {n | Free (c.hi + 1) (frame.hi + 1) (covered (c :: ss)) n}) (sweep frame c ss t).gap := by
  induction ss generalizing c t S with
  | nil =>
    have hcur := hin c List.mem_cons_self
    apply ht.union
    constructor
    · refine ⟨c.hi + 1, le_rfl, by omega, ?_⟩
      intro x hx _ hmem
      simp only [mem_covered_cons, covered_nil, Set.mem_empty_iff_false, or_false] at hmem
      omega
    · rintro n ⟨a, ha, hn, -⟩
      omega
  | cons s ss ih =>
    obtain ⟨hcur, hsort⟩ := List.pairwise_cons.1 hs
    have hframe := hin s (by simp)
    rw [sweep]
    split
    · rename_i htouch
      have hmerge := covered_join (hcur s List.mem_cons_self) htouch ss
      have hnext := ih (c := c.join s) (t := t)
        (List.pairwise_cons.2 ⟨fun r hr => hcur r (List.mem_cons_of_mem _ hr), hsort.of_cons⟩)
        (by
          intro r hr
          rcases List.mem_cons.1 hr with rfl | hr
          · exact max_le (hin c List.mem_cons_self) hframe
          · exact hin r (by simp [hr])) ht
      rw [hmerge] at hnext
      have hset : {n | Free (c.hi + 1) (frame.hi + 1) (covered (c :: s :: ss)) n}
          = {n | Free (max c.hi s.hi + 1) (frame.hi + 1) (covered (c :: s :: ss)) n} := by
        ext n
        constructor
        · rintro ⟨a, ha, hn, hfree⟩
          by_cases hzero : n = 0
          · exact ⟨max c.hi s.hi + 1, le_rfl, by have := hin c List.mem_cons_self; omega, by omega⟩
          · -- a run that starts after `c` and inside `s` would meet `s` at its start
            have hout : a ∉ covered (c :: s :: ss) := hfree a le_rfl (by omega)
            simp only [mem_covered_cons, not_or] at hout
            exact ⟨a, by omega, hn, hfree⟩
        · rintro ⟨a, ha, hn, hfree⟩
          exact ⟨a, by omega, hn, hfree⟩
      rw [hset]
      exact hnext
    · rename_i hapart
      have hnext := ih (t := ⟨t.size + c.size, max t.gap (s.lo - c.hi - 1)⟩)
        (S := S ∪ Set.Iic (s.lo - c.hi - 1)) hsort (fun r hr => hin r (List.mem_cons_of_mem _ hr)) (ht.union isGreatest_Iic)
      have hset : {n | Free (c.hi + 1) (frame.hi + 1) (covered (c :: s :: ss)) n}
          = Set.Iic (s.lo - c.hi - 1) ∪ {n | Free (s.hi + 1) (frame.hi + 1) (covered (s :: ss)) n} := by
        ext n
        have hright : Free (c.hi + 1) (frame.hi + 1) (covered (c :: s :: ss)) n
            ↔ Free (c.hi + 1) (frame.hi + 1) (covered (s :: ss)) n := by
          apply free_congr
          intro x hx _
          rw [mem_covered_cons, or_iff_right (by omega)]
        rw [Set.mem_ofPred_eq, hright, free_split (by omega) (by omega) (List.pairwise_cons.1 hsort).1, Nat.sub_sub]
        rfl
      rw [hset, ← Set.union_assoc]
      exact hnext

end Sweep

section Tally
variable {frame : Span} {ss : List Span} {t : Tally} {S : Set Nat}

theorem tally_size (hs : Sorted ss) : (tally frame t ss).size = t.size + (covered ss).ncard := by
  cases ss with
  | nil => simp [tally]
  | cons s ss => exact sweep_size hs _

theorem tally_gap (hs : Sorted ss) (hin : ∀ s ∈ ss, frame.lo ≤ s.lo ∧ s.hi ≤ frame.hi) (ht : IsGreatest S t.gap) :
    IsGreatest (S ∪ {n | Free frame.lo (frame.hi + 1) (covered ss) n}) (tally frame t ss).gap := by
  cases ss with
  | nil =>
    have hle := frame.le
    apply ht.union
    rw [covered_nil]
    constructor
    · exact ⟨frame.lo, le_rfl, by rw [Span.size]; omega, fun _ _ _ => Set.notMem_empty _⟩
    · rintro n ⟨a, ha, hn, -⟩
      rw [Span.size]
      omega
  | cons s ss =>
    obtain ⟨hlo, hhi⟩ := hin s List.mem_cons_self
    have hset : {n | Free frame.lo (frame.hi + 1) (covered (s :: ss)) n}
        = Set.Iic (s.lo - frame.lo) ∪ {n | Free (s.hi + 1) (frame.hi + 1) (covered (s :: ss)) n} := by
      ext n
      exact free_split hlo (by omega) (List.pairwise_cons.1 hs).1
    rw [hset, ← Set.union_assoc]
    exact sweep_gap hs (fun r hr => (hin r hr).2) (ht.union isGreatest_Iic)

end Tally

end Multikernel.Lib.Intervals
