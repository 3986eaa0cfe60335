import Mathlib.Data.List.Basic
import Mathlib.Data.List.Infix
/-!
# Paths as text

A path is its characters. `components` is how a kernel reads it: what stands
between slashes, repeated slashes counting once.
-/

namespace Multikernel.Lib

abbrev Component := List Char

def components (path : List Char) : List Component := (path.splitOn '/').filter (· ≠ [])

/-- Components with a slash between them. -/
def join (cs : List Component) : List Char := ['/'].intercalate cs

def absolute (cs : List Component) : List Char := '/' :: join cs

/-- A component that names something: not empty, not `.` and not `..`. -/
structure Plain (c : Component) : Prop where
  nonempty : c ≠ []
  slash : '/' ∉ c
  dot : c ≠ ['.']
  dots : c ≠ ['.', '.']

section Components
variable {cs ds : List Component}

theorem slash_of_mem_splitOn {path : List Char} : ∀ c ∈ path.splitOn '/', '/' ∉ c := by
  induction path with
  | nil => simp
  | cons x path ih =>
    rw [List.splitOn, List.splitOnP_cons_eq_if_modifyHead, ← List.splitOn]
    intro c hc
    split at hc
    · rcases List.mem_cons.1 hc with rfl | hc
      · simp
      · exact ih c hc
    · rename_i hx
      cases hsplit : path.splitOn '/' with
      | nil => exact absurd hsplit (List.splitOnP_ne_nil _ _)
      | cons d rest =>
        rw [hsplit] at hc ih
        rcases List.mem_cons.1 hc with rfl | hc
        · intro hin
          rcases List.mem_cons.1 hin with rfl | hin
          · exact hx (beq_self_eq_true _)
          · exact ih d (List.mem_cons_self ..) hin
        · exact ih c (List.mem_cons_of_mem _ hc)

theorem splitOn_join (h : ∀ c ∈ cs, Plain c) (hne : cs ≠ []) : (join cs).splitOn '/' = cs :=
  List.splitOn_intercalate '/' (fun c hc => (h c hc).slash) hne

theorem components_join (h : ∀ c ∈ cs, Plain c) : components (join cs) = cs := by
  by_cases hne : cs = []
  · subst hne
    rfl
  · rw [components, splitOn_join h hne, List.filter_eq_self]
    intro c hc
    exact decide_eq_true (h c hc).nonempty

/-! ## One path below another -/

/-- Each component behind its slash. -/
def slashed (cs : List Component) : List Char := cs.flatMap ('/' :: ·)

theorem absolute_eq_slashed (hne : cs ≠ []) : absolute cs = slashed cs := by
  induction cs with
  | nil => exact absurd rfl hne
  | cons c cs ih =>
    cases cs with
    | nil => simp [absolute, join, slashed]
    | cons d cs =>
      have hcs := ih (by simp)
      simp only [absolute, join, slashed, List.intercalate_cons_cons, List.flatMap_cons] at hcs ⊢
      rw [List.append_assoc, List.singleton_append, hcs]
      rfl

theorem join_concat (hne : cs ≠ []) (c : Component) : join (cs ++ [c]) = join cs ++ '/' :: c := by
  have hne' : cs ++ [c] ≠ [] := by simp
  have hlong := absolute_eq_slashed hne'
  have hshort := absolute_eq_slashed hne
  rw [slashed, List.flatMap_append, ← slashed, ← hshort] at hlong
  simpa [absolute] using hlong

end Components

end Multikernel.Lib
