import Mathlib.Data.List.Forall2
import Mathlib.Tactic.Common
/-!
# Checks in a row

A function that checks its input returns an error text or goes on. What it has
accepted is read back check by check.
-/

namespace Multikernel.Lib

def raiseIf (c : Prop) [Decidable c] (text : String) : Except String Unit := if c then .error text else .ok ()

variable {ε α β : Type} {x : Except ε α} {f : α → Except ε β} {b : β}

theorem bind_eq_ok : (x >>= f) = .ok b ↔ ∃ a, x = .ok a ∧ f a = .ok b := by
  cases x <;> simp [bind, Except.bind]

theorem raiseIf_eq_ok {c : Prop} [Decidable c] {text : String} {u : Unit} : raiseIf c text = .ok u ↔ ¬c := by
  unfold raiseIf
  split <;> simp_all

/-- A check of each element. -/
theorem mapM_eq_ok {f : α → Except String β} {l : List α} {bs : List β} :
    l.mapM f = .ok bs ↔ List.Forall₂ (fun a b => f a = .ok b) l bs := by
  induction l generalizing bs with
  | nil => cases bs <;> simp [pure, Except.pure]
  | cons a l ih =>
    simp only [List.mapM_cons, bind_eq_ok, ih, List.forall₂_cons_left_iff]
    constructor
    · rintro ⟨b, hb, rest, hrest, heq⟩
      cases heq
      exact ⟨b, rest, hb, hrest, rfl⟩
    · rintro ⟨b, rest, hb, hrest, rfl⟩
      exact ⟨b, hb, rest, hrest, rfl⟩

end Multikernel.Lib
