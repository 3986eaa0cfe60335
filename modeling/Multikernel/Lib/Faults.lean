import Multikernel.Lib.Logic
/-!
# One fault

`OneFault T fail p s ok bad`: run on `T`, program `p` ends in `ok`; if one of
its calls fails instead, with the reply `fail` and no effect, and the calls
after it work again, it ends in what `bad` says of that call. One proof by the
rules below follows the program once and covers every call as the failing one.
-/

namespace Multikernel.Lib

variable {I : Interface} {S α β : Type}

/-- `p` with every call working as `T` says. -/
abbrev Clean (T : Trans I S) (p : Prog I α) (s : S) (Q : α → S → Prop) : Prop := Sat T (fun _ _ => True) p s Q

def OneFault (T : Trans I S) (fail : (c : I.Call) → I.Reply c) :
    Prog I α → S → (α → S → Prop) → (I.Call → α → S → Prop) → Prop
  | .ret a, s, ok, _ => ok a s
  | .call c k, s, ok, bad =>
    Clean T (k (fail c)) s (bad c) ∧ ∀ r s', T s c r s' → OneFault T fail (k r) s' ok bad

/-- `T` with at most one fault, and the call that had it. -/
def faulty (T : Trans I S) (fail : (c : I.Call) → I.Reply c) : Trans I (S × Option I.Call) :=
  fun w c r w' => (T w.1 c r w'.1 ∧ w'.2 = w.2) ∨ (w.2 = none ∧ r = fail c ∧ w' = (w.1, some c))

variable {T : Trans I S} {fail : (c : I.Call) → I.Reply c} {p : Prog I α} {s : S} {ok : α → S → Prop}
  {bad : I.Call → α → S → Prop}

theorem OneFault.clean (h : OneFault T fail p s ok bad) : Clean T p s ok := by
  induction p generalizing s with
  | ret a => exact h
  | call c k ih => exact ⟨trivial, fun r s' hr => ih r (h.2 r s' hr)⟩

theorem OneFault.bind {f : α → Prog I β} {ok' : β → S → Prop} {bad' : I.Call → β → S → Prop}
    (hp : OneFault T fail p s ok bad) (hok : ∀ a s, ok a s → OneFault T fail (f a) s ok' bad')
    (hbad : ∀ c a s, bad c a s → Clean T (f a) s (bad' c)) : OneFault T fail (p >>= f) s ok' bad' := by
  induction p generalizing s with
  | ret a => exact hok a s hp
  | call c k ih => exact ⟨hp.1.bind (hbad c), fun r s' hr => ih r (hp.2 r s' hr)⟩

theorem OneFault.mono {ok' : α → S → Prop} {bad' : I.Call → α → S → Prop} (h : OneFault T fail p s ok bad)
    (hok : ∀ a s, ok a s → ok' a s) (hbad : ∀ c a s, bad c a s → bad' c a s) : OneFault T fail p s ok' bad' := by
  induction p generalizing s with
  | ret a => exact hok a s h
  | call c k ih => exact ⟨h.1.mono (hbad c), fun r s' hr => ih r (h.2 r s' hr)⟩

/-- After the fault every call works. -/
theorem Sat.faulty {Q : α → S → Prop} (h : Clean T p s Q) (c : I.Call) :
    Sat (faulty T fail) (fun _ _ => True) p (s, some c) fun a w => w.2 = some c ∧ Q a w.1 := by
  induction p generalizing s with
  | ret a => exact ⟨rfl, h⟩
  | call d k ih =>
    refine ⟨trivial, fun r w' hr => ?_⟩
    obtain ⟨s', d'⟩ := w'
    obtain ⟨hT, hd⟩ | ⟨hnone, -, -⟩ := hr
    · cases hd
      exact ih r (h.2 r s' hT)
    · cases hnone

theorem OneFault.sat (h : OneFault T fail p s ok bad) :
    Sat (faulty T fail) (fun _ _ => True) p (s, none)
      fun a w => (w.2 = none ∧ ok a w.1) ∨ ∃ c, w.2 = some c ∧ bad c a w.1 := by
  induction p generalizing s with
  | ret a => exact .inl ⟨rfl, h⟩
  | call c k ih =>
    refine ⟨trivial, fun r w' hr => ?_⟩
    obtain ⟨s', d'⟩ := w'
    obtain ⟨hT, hd⟩ | ⟨-, rfl, hw⟩ := hr
    · cases hd
      exact ih r (h.2 r s' hT)
    · cases hw
      exact (h.1.faulty c).mono fun a w hw => .inr ⟨c, hw⟩

/-- `M` with a record of the call that has failed. -/
@[reducible] def Machine.recording (M : Machine I) (failed : M.Answer → Bool) : Machine I where
  World := M.World × Option I.Call
  Answer := M.Answer
  step := fun w c a => (((M.step w.1 c a).1, if failed a then some c else w.2), (M.step w.1 c a).2)

end Multikernel.Lib
