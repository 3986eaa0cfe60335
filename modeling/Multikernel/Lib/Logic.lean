import Multikernel.Lib.Prog
/-!
# A logic of calls

`Sat T G p s Q`: from state `s`, with replies and states as the transition
relation `T` allows them, program `p` makes only calls that `G` allows in the
state they are made in, and returns only what `Q` allows. `T` can be a machine
(`Machine.trans`) or a small monitor that keeps what one argument needs;
`Sat.simulate` takes a result from the monitor to the machine, and `Sat.exec`
and `Sat.calls` to every run, crashed or not.

`Emits P p Q` is the logic without a state: whatever the replies, `p` makes
only calls in `P` and returns only results in `Q`.
-/

namespace Multikernel.Lib

variable {I : Interface} {S S' α β : Type}

/-- The replies and next states of a call. -/
abbrev Trans (I : Interface) (S : Type) := S → (c : I.Call) → I.Reply c → S → Prop

def Sat (T : Trans I S) (G : S → I.Call → Prop) : Prog I α → S → (α → S → Prop) → Prop
  | .ret a, s, Q => Q a s
  | .call c k, s, Q => G s c ∧ ∀ r s', T s c r s' → Sat T G (k r) s' Q

/-- A machine whose answers meet `E`. -/
def Machine.trans (M : Machine I) (E : M.World → I.Call → M.Answer → Prop) : Trans I M.World :=
  fun w c r w' => ∃ a, E w c a ∧ M.step w c a = (w', r)

section Sat
variable {T : Trans I S} {G : S → I.Call → Prop}

@[simp] theorem sat_ret {a : α} {s : S} {Q : α → S → Prop} : Sat T G (.ret a) s Q ↔ Q a s := Iff.rfl

@[simp] theorem sat_call {c : I.Call} {k : I.Reply c → Prog I α} {s : S} {Q : α → S → Prop} :
    Sat T G (.call c k) s Q ↔ G s c ∧ ∀ r s', T s c r s' → Sat T G (k r) s' Q := Iff.rfl

@[simp] theorem sat_pure {a : α} {s : S} {Q : α → S → Prop} : Sat T G (pure a) s Q ↔ Q a s := Iff.rfl

@[simp] theorem forall_unit {P : Unit → Prop} : (∀ u, P u) ↔ P () := ⟨fun h => h (), fun h _ => h⟩

@[simp] theorem forall_except {ε : Type} {P : Except ε α → Prop} :
    (∀ r, P r) ↔ (∀ e, P (.error e)) ∧ ∀ a, P (.ok a) :=
  ⟨fun h => ⟨fun e => h _, fun a => h _⟩, fun h r => by cases r with
    | error e => exact h.1 e
    | ok a => exact h.2 a⟩

theorem Sat.mono {p : Prog I α} {s : S} {Q Q' : α → S → Prop} (h : Sat T G p s Q)
    (hQ : ∀ a s', Q a s' → Q' a s') : Sat T G p s Q' := by
  induction p generalizing s with
  | ret a => exact hQ a s h
  | call c k ih => exact ⟨h.1, fun r s' hr => ih r (h.2 r s' hr)⟩

/-- More calls, more results. -/
theorem Sat.imp {G' : S → I.Call → Prop} {p : Prog I α} {s : S} {Q Q' : α → S → Prop} (h : Sat T G p s Q)
    (hG : ∀ s c, G s c → G' s c) (hQ : ∀ a s, Q a s → Q' a s) : Sat T G' p s Q' := by
  induction p generalizing s with
  | ret a => exact hQ a s h
  | call c k ih => exact ⟨hG s c h.1, fun r s' hr => ih r (h.2 r s' hr)⟩

@[simp] theorem sat_bind {p : Prog I α} {f : α → Prog I β} {s : S} {Q : β → S → Prop} :
    Sat T G (p >>= f) s Q ↔ Sat T G p s fun a s' => Sat T G (f a) s' Q := by
  induction p generalizing s with
  | ret a => rfl
  | call c k ih => simp only [Prog.call_bind, sat_call, ih]

/-- Run the first part for its postcondition, then the rest from there. -/
theorem Sat.bind {p : Prog I α} {f : α → Prog I β} {s : S} {R : α → S → Prop} {Q : β → S → Prop}
    (hp : Sat T G p s R) (hf : ∀ a s', R a s' → Sat T G (f a) s' Q) : Sat T G (p >>= f) s Q :=
  sat_bind.2 (hp.mono hf)

@[simp] theorem sat_ite {c : Prop} [Decidable c] {p q : Prog I α} {s : S} {Q : α → S → Prop} :
    Sat T G (if c then p else q) s Q ↔ (c → Sat T G p s Q) ∧ (¬c → Sat T G q s Q) := by
  split <;> simp_all

/-- A branch that returns early. -/
theorem Sat.unless {c : Prop} [Decidable c] {p q : Prog I α} {s : S} {Q : α → S → Prop} (hp : Sat T G p s Q)
    (hq : ¬c → Sat T G q s Q) : Sat T G (if c then p else q) s Q :=
  sat_ite.2 ⟨fun _ => hp, hq⟩

/-- An early return on an error. -/
theorem Sat.guard {ε : Type} {p : Prog I (Option ε)} {f : Option ε → Prog I β} {s : S} {R : Option ε → S → Prop}
    {Q : β → S → Prop} (hp : Sat T G p s R) (hsome : ∀ e s', R (some e) s' → Sat T G (f (some e)) s' Q)
    (hnone : ∀ s', R none s' → Sat T G (f none) s' Q) : Sat T G (p >>= f) s Q := by
  refine hp.bind fun r s' hr => ?_
  cases r with
  | none => exact hnone s' hr
  | some e => exact hsome e s' hr

/-- An invariant of the system holds at every call and at the end. -/
theorem Sat.inv {J : S → Prop} {p : Prog I α} {s : S} {Q : α → S → Prop} (h : Sat T G p s Q) (hs : J s)
    (hJ : ∀ s c r s', J s → T s c r s' → J s') : Sat T (fun s c => G s c ∧ J s) p s fun a s => Q a s ∧ J s := by
  induction p generalizing s with
  | ret a => exact ⟨h, hs⟩
  | call c k ih => exact ⟨⟨h.1, hs⟩, fun r s' hr => ih r (h.2 r s' hr) (hJ s c r s' hs hr)⟩

/-- Two results about one program. -/
theorem Sat.and {G' : S → I.Call → Prop} {p : Prog I α} {s : S} {Q Q' : α → S → Prop} (h : Sat T G p s Q)
    (h' : Sat T G' p s Q') : Sat T G p s fun a s => Q a s ∧ Q' a s := by
  induction p generalizing s with
  | ret a => exact ⟨h, h'⟩
  | call c k ih => exact ⟨h.1, fun r s' hr => ih r (h.2 r s' hr) (h'.2 r s' hr)⟩

/-- What holds of a small system holds of every system it simulates. -/
theorem Sat.simulate {T' : Trans I S'} {G' : S' → I.Call → Prop} {R : S' → S → Prop} {p : Prog I α} {s : S} {s' : S'}
    {Q : α → S → Prop} {Q' : α → S' → Prop} (h : Sat T G p s Q) (hs : R s' s)
    (hT : ∀ s' s c r t', R s' s → G s c → T' s' c r t' → ∃ t, T s c r t ∧ R t' t)
    (hG : ∀ s' s c, R s' s → G s c → G' s' c) (hQ : ∀ s' s a, R s' s → Q a s → Q' a s') : Sat T' G' p s' Q' := by
  induction p generalizing s s' with
  | ret a => exact hQ s' s a hs h
  | call c k ih =>
    refine ⟨hG s' s c hs h.1, fun r t' ht' => ?_⟩
    obtain ⟨t, ht, hR⟩ := hT s' s c r t' hs h.1 ht'
    exact ih r (h.2 r t ht) hR

end Sat

/-! ## Without a state -/

/-- Whatever the replies, `p` makes only calls in `P` and returns only results
in `Q`. -/
abbrev Emits (P : I.Call → Prop) (p : Prog I α) (Q : α → Prop) : Prop :=
  Sat (S := Unit) (fun _ _ _ _ => True) (fun _ c => P c) p () fun a _ => Q a

/-- `p` makes only calls in `P`. -/
abbrev Only (P : I.Call → Prop) (p : Prog I α) : Prop := Emits P p fun _ => True

theorem Emits.mono {P P' : I.Call → Prop} {p : Prog I α} {Q Q' : α → Prop} (h : Emits P p Q)
    (hP : ∀ c, P c → P' c) (hQ : ∀ a, Q a → Q' a) : Emits P' p Q' :=
  h.simulate (R := fun _ _ => True) trivial (fun _ _ _ _ t _ _ _ => ⟨t, trivial, trivial⟩) (fun _ _ c _ => hP c)
    fun _ _ a _ => hQ a

theorem Emits.imp {P P' : I.Call → Prop} {p : Prog I α} {Q : α → Prop} (h : Emits P p Q) (hP : ∀ c, P c → P' c) :
    Emits P' p Q :=
  h.mono hP fun _ h => h

theorem Emits.bind {P : I.Call → Prop} {p : Prog I α} {f : α → Prog I β} {R : α → Prop} {Q : β → Prop}
    (hp : Emits P p R) (hf : ∀ a, R a → Emits P (f a) Q) : Emits P (p >>= f) Q :=
  Sat.bind hp fun a _ ha => hf a ha

theorem Only.bind {P : I.Call → Prop} {p : Prog I α} {f : α → Prog I β} {Q : β → Prop} (hp : Only P p)
    (hf : ∀ a, Emits P (f a) Q) : Emits P (p >>= f) Q :=
  Emits.bind hp fun a _ => hf a

theorem Emits.guard {ε : Type} {P : I.Call → Prop} {p : Prog I (Option ε)} {f : Option ε → Prog I β} {Q : β → Prop}
    (hp : Only P p) (hsome : ∀ e, Emits P (f (some e)) Q) (hnone : Emits P (f none) Q) :
    Emits P (p >>= f) Q :=
  Sat.guard hp (fun e _ _ => hsome e) fun _ _ => hnone

/-- Whatever the system, `p` makes only such calls. -/
theorem Emits.lift {P : I.Call → Prop} {T : Trans I S} {p : Prog I α} {Q : α → Prop} {s : S} (h : Emits P p Q) :
    Sat T (fun _ c => P c) p s fun a _ => Q a :=
  h.simulate (R := fun _ _ => True) trivial (fun _ u _ _ _ _ _ _ => ⟨u, trivial, trivial⟩) (fun _ _ _ _ h => h)
    fun _ _ _ _ h => h

theorem emits_true (p : Prog I α) : Only (fun _ => True) p := by
  induction p with
  | ret a => trivial
  | call c k ih => exact ⟨trivial, fun r _ _ => ih r⟩

/-- An invariant of every emitted call holds at every call and at the end. -/
theorem Emits.sat {P : I.Call → Prop} {T : Trans I S} {J : S → Prop} {p : Prog I α} {Q : α → Prop} {s : S}
    (h : Emits P p Q) (hs : J s) (hJ : ∀ s c r s', J s → P c → T s c r s' → J s') :
    Sat T (fun s c => J s ∧ P c) p s (fun a s => J s ∧ Q a) :=
  h.simulate (R := fun s _ => J s) hs (fun s u c r s' hs hc hr => ⟨u, trivial, hJ s c r s' hs hc hr⟩)
    (fun _ _ _ hs hc => ⟨hs, hc⟩) fun _ _ _ hs ha => ⟨hs, ha⟩

/-! ## Runs -/

section Runs
variable {M : Machine I} {E : M.World → I.Call → M.Answer → Prop} {G : M.World → I.Call → Prop}
  {p : Prog I α} {w : M.World} {Q : α → M.World → Prop}

/-- A property of every call and every result is a property of every run. -/
theorem Sat.exec (h : Sat (M.trans E) G p w Q) (as : List M.Answer) (has : Meets M E p w as) :
    match Lib.exec M p w as with
    | (w', some a) => Q a w'
    | (w', none) => ∃ c, G w' c := by
  induction p generalizing w as with
  | ret a => exact h
  | call c k ih =>
    cases as with
    | nil => exact ⟨c, h.1⟩
    | cons a as => exact ih _ (h.2 _ _ ⟨a, has.1, rfl⟩) as has.2

/-- What holds at every call and at the end holds wherever the run stops. -/
theorem Sat.exec_world {J : M.World → Prop} (h : Sat (M.trans E) G p w Q) (hG : ∀ w c, G w c → J w)
    (hQ : ∀ a w, Q a w → J w) (as : List M.Answer) (has : Meets M E p w as) : J (Lib.exec M p w as).1 := by
  have he := h.exec as has
  generalize Lib.exec M p w as = r at he
  obtain ⟨w', _ | a⟩ := r
  · obtain ⟨c, hc⟩ := he
    exact hG w' c hc
  · exact hQ a w' he

theorem Sat.exec_result {w' : M.World} {a : α} (h : Sat (M.trans E) G p w Q) {as : List M.Answer}
    (has : Meets M E p w as) (he : Lib.exec M p w as = (w', some a)) : Q a w' := by
  have h' := h.exec as has
  rw [he] at h'
  exact h'

theorem Sat.calls (h : Sat (M.trans E) G p w Q) {as : List M.Answer} (has : Meets M E p w as) :
    ∀ x ∈ Lib.calls M p w as, G x.1 x.2 := by
  induction p generalizing w as with
  | ret a => simp [Lib.calls]
  | call c k ih =>
    cases as with
    | nil => simp [Lib.calls]
    | cons a as =>
      intro x hx
      rcases List.mem_cons.1 hx with rfl | hx
      · exact h.1
      · exact ih _ (h.2 _ _ ⟨a, has.1, rfl⟩) has.2 x hx

theorem Sat.finish (h : Sat (M.trans E) G p w Q) {f : Nat → M.Answer} (hf : Always M E p w f) :
    Q (Lib.finish M p w f).2 (Lib.finish M p w f).1 := by
  induction p generalizing w f with
  | ret a => exact h
  | call c k ih => exact ih _ (h.2 _ _ ⟨f 0, hf.1, rfl⟩) hf.2

end Runs

end Multikernel.Lib
