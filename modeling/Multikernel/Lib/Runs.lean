import Mathlib.Tactic.Common
/-!
# Runs of a system under a condition

A system takes events one after another. `Conforms K` says that every event of
a run met the condition `K` in the state it came in. An invariant of the
conforming steps holds after every conforming run.
-/

namespace Multikernel.Lib

variable {S E : Type} (turn : S → E → S) (K : S → E → Prop)

def run (s : S) (es : List E) : S := es.foldl turn s

def Conforms : S → List E → Prop
  | _, [] => True
  | s, e :: es => K s e ∧ Conforms (turn s e) es

variable {turn K} {s : S}

@[simp] theorem run_nil : run turn s [] = s := rfl

@[simp] theorem run_cons (e : E) (es : List E) : run turn s (e :: es) = run turn (turn s e) es := rfl

theorem run_append (es fs : List E) : run turn s (es ++ fs) = run turn (run turn s es) fs := by
  simp [run]

theorem conforms_append {es fs : List E} :
    Conforms turn K s (es ++ fs) ↔ Conforms turn K s es ∧ Conforms turn K (run turn s es) fs := by
  induction es generalizing s with
  | nil => simp [Conforms]
  | cons e es ih => simp [Conforms, ih, and_assoc]

/-- A condition that does not depend on the state. -/
theorem conforms_of_mem {P : E → Prop} {es : List E} (h : ∀ e ∈ es, P e) : Conforms turn (fun _ e => P e) s es := by
  induction es generalizing s with
  | nil => trivial
  | cons e es ih => exact ⟨h e List.mem_cons_self, ih fun x hx => h x (List.mem_cons_of_mem e hx)⟩

theorem conforms_of_forall (hK : ∀ s e, K s e) (s : S) (es : List E) : Conforms turn K s es := by
  induction es generalizing s with
  | nil => trivial
  | cons e es ih => exact ⟨hK s e, ih _⟩

instance decidableConforms [∀ s e, Decidable (K s e)] (s : S) (es : List E) : Decidable (Conforms turn K s es) :=
  match es with
  | [] => .isTrue trivial
  | e :: es => @instDecidableAnd _ _ _ (decidableConforms (turn s e) es)

theorem Conforms.inv {J : S → Prop} {es : List E} (h : Conforms turn K s es) (hs : J s)
    (hstep : ∀ s e, J s → K s e → J (turn s e)) : J (run turn s es) := by
  induction es generalizing s with
  | nil => exact hs
  | cons e es ih => exact ih h.2 (hstep s e hs h.1)

end Multikernel.Lib
