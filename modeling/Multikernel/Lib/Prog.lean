import Mathlib.Tactic.Common
/-!
# Programs that call an environment

A `Prog` is a program as the calls it makes: it returns, or it makes one call
and goes on with the reply. A `Machine` says what a call does to the world,
given what the environment answers. `exec` runs a program on a list of
answers; when the list runs out, the process stops before its next call, so a
statement about every list of answers is one about every crash.
-/

namespace Multikernel.Lib

/-- The calls a program can make, each with the type of its reply. -/
structure Interface where
  Call : Type
  Reply : Call → Type

inductive Prog (I : Interface) (α : Type) : Type where
  | ret (a : α)
  | call (c : I.Call) (k : I.Reply c → Prog I α)

namespace Prog
variable {I : Interface} {α β γ : Type}

protected def bind : Prog I α → (α → Prog I β) → Prog I β
  | .ret a, f => f a
  | .call c k, f => .call c fun r => (k r).bind f

instance : Monad (Prog I) where
  pure := .ret
  bind := Prog.bind

/-- One call. -/
def perform (c : I.Call) : Prog I (I.Reply c) := .call c .ret

@[simp] theorem call_bind (c : I.Call) (k : I.Reply c → Prog I α) (f : α → Prog I β) :
    (Prog.call c k >>= f) = .call c fun r => k r >>= f := rfl

end Prog

/-- What a call does: the world after it and its reply, for an answer of the
environment. -/
structure Machine (I : Interface) where
  World : Type
  Answer : Type
  step : World → (c : I.Call) → Answer → World × I.Reply c

variable {I : Interface} (M : Machine I) {α : Type}

/-- Run `p` on the answers; `none` is a process that stopped before a call. -/
def exec : Prog I α → M.World → List M.Answer → M.World × Option α
  | .ret a, w, _ => (w, some a)
  | .call _ _, w, [] => (w, none)
  | .call c k, w, a :: as => exec (k (M.step w c a).2) (M.step w c a).1 as

/-- The calls of a run, each with the world it is made in. -/
def calls : Prog I α → M.World → List M.Answer → List (M.World × I.Call)
  | .ret _, _, _ => []
  | .call _ _, _, [] => []
  | .call c k, w, a :: as => (w, c) :: calls (k (M.step w c a).2) (M.step w c a).1 as

/-- Every answer the run consumes meets `E`. -/
def Meets (E : M.World → I.Call → M.Answer → Prop) : Prog I α → M.World → List M.Answer → Prop
  | .ret _, _, _ => True
  | .call _ _, _, [] => True
  | .call c k, w, a :: as => E w c a ∧ Meets E (k (M.step w c a).2) (M.step w c a).1 as

/-- The same for a condition that can be evaluated. -/
def passes (b : M.World → I.Call → M.Answer → Bool) : Prog I α → M.World → List M.Answer → Bool
  | .ret _, _, _ => true
  | .call _ _, _, [] => true
  | .call c k, w, a :: as => b w c a && passes b (k (M.step w c a).2) (M.step w c a).1 as

theorem meets_of_passes {E : M.World → I.Call → M.Answer → Prop} {b : M.World → I.Call → M.Answer → Bool}
    (hE : ∀ w c a, b w c a → E w c a) {p : Prog I α} {w : M.World} {as : List M.Answer} (h : passes M b p w as) :
    Meets M E p w as := by
  induction p generalizing w as with
  | ret a => trivial
  | call c k ih =>
    cases as with
    | nil => trivial
    | cons a as =>
      simp only [passes, Bool.and_eq_true] at h
      exact ⟨hE w c a h.1, ih _ h.2⟩

/-- What the calls that are made keep holds at the end if it held at the start. -/
theorem Meets.inv {E : M.World → I.Call → M.Answer → Prop} {J : M.World → Prop}
    (hJ : ∀ w c a, E w c a → J w → J (M.step w c a).1) {p : Prog I α} {w : M.World} {as : List M.Answer}
    (h : Meets M E p w as) (hw : J w) : J (exec M p w as).1 := by
  induction p generalizing w as with
  | ret a => exact hw
  | call c k ih =>
    cases as with
    | nil => exact hw
    | cons a as => exact ih _ h.2 (hJ w c a h.1 hw)

/-- What every call keeps, every run keeps. -/
theorem exec_inv {J : M.World → Prop} (hJ : ∀ w c a, J w → J (M.step w c a).1) (p : Prog I α) {w : M.World} (hw : J w)
    (as : List M.Answer) : J (exec M p w as).1 := by
  induction p generalizing w as with
  | ret a => exact hw
  | call c k ih =>
    cases as with
    | nil => exact hw
    | cons a as => exact ih _ (hJ w c a hw) as

/-- A program returns once it has enough answers, whatever they are. -/
theorem exec_returns (p : Prog I α) (w : M.World) (f : Nat → M.Answer) :
    ∃ n, (exec M p w ((List.range n).map f)).2.isSome := by
  induction p generalizing w f with
  | ret a => exact ⟨0, rfl⟩
  | call c k ih =>
    obtain ⟨n, hn⟩ := ih (M.step w c (f 0)).2 (M.step w c (f 0)).1 (f ∘ Nat.succ)
    refine ⟨n + 1, ?_⟩
    rw [List.range_succ_eq_map, List.map_cons, List.map_map]
    exact hn

theorem meets_true (p : Prog I α) (w : M.World) (as : List M.Answer) : Meets M (fun _ _ _ => True) p w as := by
  induction p generalizing w as with
  | ret a => trivial
  | call c k ih =>
    cases as with
    | nil => trivial
    | cons a as => exact ⟨trivial, ih _ _ as⟩

/-! ## Runs that do not stop early -/

/-- Run `p` to its end, with an answer for every call. -/
def finish : Prog I α → M.World → (Nat → M.Answer) → M.World × α
  | .ret a, w, _ => (w, a)
  | .call c k, w, f => finish (k (M.step w c (f 0)).2) (M.step w c (f 0)).1 fun n => f (n + 1)

/-- With one answer to every call, a program runs part by part. -/
theorem finish_bind {β : Type} (p : Prog I α) (f : α → Prog I β) (w : M.World) (a : M.Answer) :
    finish M (p >>= f) w (fun _ => a) = finish M (f (finish M p w fun _ => a).2) (finish M p w fun _ => a).1 fun _ => a := by
  induction p generalizing w with
  | ret x => rfl
  | call c k ih => exact ih (M.step w c a).2 (M.step w c a).1

/-- How many calls that run makes. -/
def steps : Prog I α → M.World → M.Answer → Nat
  | .ret _, _, _ => 0
  | .call c k, w, a => steps (k (M.step w c a).2) (M.step w c a).1 a + 1

/-- The first part runs to its end on one answer to every call, the rest on other answers. -/
theorem exec_bind_steps {β : Type} (p : Prog I α) (f : α → Prog I β) (w : M.World) (a : M.Answer) (as : List M.Answer) :
    exec M (p >>= f) w (List.replicate (steps M p w a) a ++ as) =
      exec M (f (finish M p w fun _ => a).2) (finish M p w fun _ => a).1 as := by
  induction p generalizing w with
  | ret x => rfl
  | call c k ih => exact ih (M.step w c a).2 (M.step w c a).1

def Always (E : M.World → I.Call → M.Answer → Prop) : Prog I α → M.World → (Nat → M.Answer) → Prop
  | .ret _, _, _ => True
  | .call c k, w, f => E w c (f 0) ∧ Always E (k (M.step w c (f 0)).2) (M.step w c (f 0)).1 fun n => f (n + 1)

def passesAlways (b : M.World → I.Call → M.Answer → Bool) : Prog I α → M.World → (Nat → M.Answer) → Bool
  | .ret _, _, _ => true
  | .call c k, w, f =>
    b w c (f 0) && passesAlways b (k (M.step w c (f 0)).2) (M.step w c (f 0)).1 fun n => f (n + 1)

theorem always_of_passes {E : M.World → I.Call → M.Answer → Prop} {b : M.World → I.Call → M.Answer → Bool}
    (hE : ∀ w c a, b w c a → E w c a) {p : Prog I α} {w : M.World} {f : Nat → M.Answer} (h : passesAlways M b p w f) :
    Always M E p w f := by
  induction p generalizing w f with
  | ret a => trivial
  | call c k ih =>
    simp only [passesAlways, Bool.and_eq_true] at h
    exact ⟨hE w c (f 0) h.1, ih _ h.2⟩

end Multikernel.Lib
