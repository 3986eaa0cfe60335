import Mathlib.Data.List.Basic
import Mathlib.Tactic.Common
/-!
# Reading a growing log by pages

The items of a log have increasing keys, and a reader wants some of them. It
remembers the last key it received, and a page is the next few wanted items
after that key. However long the pages are and wherever the log grows between
them, a reader has what the log holds up to its key (`advance`,
`received_append`), and every page that is not empty brings it forward.
-/

namespace Multikernel.Lib.Feed

variable {α : Type} (key : α → Nat) (wanted : α → Bool)

/-- The wanted items up to a key. -/
def received (log : List α) (after : Nat) : List α := log.filter fun x => wanted x && decide (key x ≤ after)

/-- The wanted items after a key. -/
def pending (log : List α) (after : Nat) : List α := log.filter fun x => wanted x && decide (after < key x)

/-- The next few of them. -/
def page (log : List α) (after limit : Nat) : List α := (pending key wanted log after).take limit

/-- The key to go on from after a page. -/
def next (after : Nat) (page : List α) : Nat := (page.getLast?.map key).getD after

/-- The keys of a log increase. -/
abbrev Increasing (log : List α) : Prop := log.Pairwise fun x y => key x < key y

variable {key wanted} {log first rest : List α} {after limit : Nat} {x : α}

@[simp] theorem page_nil : page key wanted [] after limit = [] := by simp [page, pending]

@[simp] theorem page_zero : page key wanted log after 0 = [] := by simp [page]

theorem page_skip (h : wanted x → key x ≤ after) : page key wanted (x :: log) after limit = page key wanted log after limit := by
  have hx : ¬(wanted x && decide (after < key x)) = true := by
    intro hx
    rw [Bool.and_eq_true, decide_eq_true_eq] at hx
    exact absurd (h hx.1) (Nat.not_le.2 hx.2)
  unfold page pending
  rw [List.filter_cons_of_neg (a := x) hx]

theorem page_cons (hw : wanted x) (hx : after < key x) :
    page key wanted (x :: log) after (limit + 1) = x :: page key wanted log after limit := by
  simp [page, pending, hw, hx]

@[simp] theorem next_nil : next key after [] = after := rfl

theorem next_cons : next key after (x :: log) = next key (key x) log := by
  cases log with
  | nil => simp [next]
  | cons y log => simp [next, List.getLast?_cons]

theorem received_append_pending (h : Increasing key log) (wanted : α → Bool) (after : Nat) :
    received key wanted log after ++ pending key wanted log after = log.filter wanted := by
  induction log with
  | nil => rfl
  | cons x log ih =>
    obtain ⟨hx, hlog⟩ := List.pairwise_cons.1 h
    have ih := ih hlog
    by_cases hle : key x ≤ after
    · have hlt : ¬after < key x := Nat.not_lt.2 hle
      cases hw : wanted x <;> simpa [received, pending, hw, hle, hlt] using ih
    · -- From here on every key is above.
      have hlt : after < key x := Nat.not_le.1 hle
      have hnone : received key wanted log after = [] := by
        refine List.filter_eq_nil_iff.2 fun y hy => ?_
        have hxy := hx y hy
        simp only [Bool.and_eq_true, decide_eq_true_eq]
        omega
      rw [hnone, List.nil_append] at ih
      have hcons : received key wanted (x :: log) after = [] := by
        rw [received, List.filter_cons_of_neg (by simp [hle])]
        exact hnone
      rw [hcons, List.nil_append]
      cases hw : wanted x <;> simpa [pending, hw, hlt] using ih

/-- A key between two parts of the wanted items. -/
theorem split_at (hsplit : log.filter wanted = first ++ rest)
    (hfirst : ∀ x ∈ first, key x ≤ after) (hrest : ∀ x ∈ rest, after < key x) :
    received key wanted log after = first ∧ pending key wanted log after = rest := by
  have hreceived : received key wanted log after = (log.filter wanted).filter fun x => decide (key x ≤ after) := by
    simp only [received, List.filter_filter, Bool.and_comm]
  have hpending : pending key wanted log after = (log.filter wanted).filter fun x => decide (after < key x) := by
    simp only [pending, List.filter_filter, Bool.and_comm]
  rw [hreceived, hpending, hsplit, List.filter_append, List.filter_append]
  constructor
  · rw [List.filter_eq_self.2 (by simpa using hfirst), List.filter_eq_nil_iff.2 (by simpa using hrest), List.append_nil]
  · rw [List.filter_eq_nil_iff.2 (by simpa using hfirst), List.filter_eq_self.2 (by simpa using hrest), List.nil_append]

theorem mem_received (h : x ∈ received key wanted log after) : key x ≤ after := by
  simp only [received, List.mem_filter, Bool.and_eq_true, decide_eq_true_eq] at h
  exact h.2.2

theorem mem_pending (h : x ∈ pending key wanted log after) : x ∈ log ∧ after < key x := by
  simp only [pending, List.mem_filter, Bool.and_eq_true, decide_eq_true_eq] at h
  exact ⟨h.1, h.2.2⟩

/-- What a page does: its items are received, the others stay pending. -/
theorem advance (h : Increasing key log) (hpage : pending key wanted log after = first ++ rest) :
    received key wanted log (next key after first) = received key wanted log after ++ first ∧
      pending key wanted log (next key after first) = rest := by
  have hall := received_append_pending h wanted after
  rw [hpage, ← List.append_assoc] at hall
  have hincreasing : Increasing key (log.filter wanted) := h.filter _
  rcases List.eq_nil_or_concat' first with rfl | ⟨init, x, rfl⟩
  · refine split_at hall.symm ?_ ?_
    · intro y hy
      rw [List.append_nil] at hy
      exact mem_received hy
    · intro y hy
      exact (mem_pending (hpage ▸ List.mem_append_right _ hy)).2
  · have hnext : next key after (init ++ [x]) = key x := by simp [next]
    rw [hnext]
    rw [← hall] at hincreasing
    refine split_at hall.symm ?_ ?_
    · intro y hy
      rw [← List.append_assoc, List.append_assoc, List.singleton_append] at hincreasing
      rw [← List.append_assoc, List.mem_append, List.mem_singleton] at hy
      rcases hy with hy | rfl
      · exact Nat.le_of_lt ((List.pairwise_append.1 hincreasing).2.2 y hy x List.mem_cons_self)
      · exact Nat.le_refl _
    · intro y hy
      exact (List.pairwise_append.1 hincreasing).2.2 x (by simp) y hy

/-- Items with later keys are not received yet. -/
theorem received_append {new : List α} (hnew : ∀ x ∈ new, after < key x) :
    received key wanted (log ++ new) after = received key wanted log after := by
  have hnone : new.filter (fun x => wanted x && decide (key x ≤ after)) = [] := by
    refine List.filter_eq_nil_iff.2 fun x hx => ?_
    have hlt := hnew x hx
    simp only [Bool.and_eq_true, decide_eq_true_eq]
    omega
  rw [received, received, List.filter_append, hnone, List.append_nil]

/-- The key stays one of the log, or the one it was. -/
theorem next_le {bound : Nat} (hafter : after ≤ bound) (hlog : ∀ x ∈ log, key x ≤ bound) (hfirst : ∀ x ∈ first, x ∈ log) :
    next key after first ≤ bound := by
  unfold next
  cases hlast : first.getLast? with
  | none => exact hafter
  | some x => exact hlog x (hfirst x (List.mem_of_getLast? hlast))

/-- Where nothing is pending, everything is received. -/
theorem received_of_pending (h : Increasing key log) (hnone : pending key wanted log after = []) :
    received key wanted log after = log.filter wanted := by
  have hall := received_append_pending h wanted after
  rwa [hnone, List.append_nil] at hall

end Multikernel.Lib.Feed
