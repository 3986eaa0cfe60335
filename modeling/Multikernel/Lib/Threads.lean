import Multikernel.Lib.Logic
import Multikernel.Lib.Runs
/-!
# Interleaved programs

A `Pool` runs programs as threads over one machine: an event starts a thread
for an operation, or lets one thread make its next call. A call that takes a
lock waits until the lock is free. Each call is one atomic step, so a run of
events is any interleaving.

`Amid T R G p s Q` is the logic of one thread: between its calls the others
change the state as the rely `R` allows; each of its own calls is a step that
`G` allows; what it returns satisfies `Q`. A `RelyGuarantee` has such a proof
for every operation, with the guarantee of each thread within the rely of every
other one that runs at the same time; then every step of every run that meets
its condition is a guaranteed one.
-/

namespace Multikernel.Lib

variable {I : Interface} {L O S α β : Type}

/-! ## The logic of one thread -/

def Amid (T : Trans I S) (R : S → S → Prop) (G : S → I.Call → S → Prop) : Prog I α → S → (α → S → Prop) → Prop
  | .ret a, s, Q => Q a s
  | .call c k, s, Q => ∀ s', R s s' → ∀ r s'', T s' c r s'' → G s' c s'' ∧ Amid T R G (k r) s'' Q

section Amid
variable {T : Trans I S} {R : S → S → Prop} {G : S → I.Call → S → Prop} {s : S}

theorem Amid.mono {p : Prog I α} {Q Q' : α → S → Prop} (h : Amid T R G p s Q) (hQ : ∀ a s, Q a s → Q' a s) :
    Amid T R G p s Q' := by
  induction p generalizing s with
  | ret a => exact hQ a s h
  | call c k ih => exact fun s' hs r s'' hr => ⟨(h s' hs r s'' hr).1, ih r (h s' hs r s'' hr).2⟩

theorem Amid.bind {p : Prog I α} {f : α → Prog I β} {P : α → S → Prop} {Q : β → S → Prop} (hp : Amid T R G p s P)
    (hf : ∀ a s, P a s → Amid T R G (f a) s Q) : Amid T R G (p >>= f) s Q := by
  induction p generalizing s with
  | ret a => exact hf a s hp
  | call c k ih => exact fun s' hs r s'' hr => ⟨(hp s' hs r s'' hr).1, ih r (hp s' hs r s'' hr).2⟩

theorem amid_ite {c : Prop} [Decidable c] {p q : Prog I α} {Q : α → S → Prop} (hp : c → Amid T R G p s Q)
    (hq : ¬c → Amid T R G q s Q) : Amid T R G (if c then p else q) s Q := by
  split
  · exact hp ‹_›
  · exact hq ‹_›

/-- An early return on an error. -/
theorem Amid.guard {ε : Type} {p : Prog I (Option ε)} {f : Option ε → Prog I β} {P : Option ε → S → Prop} {Q : β → S → Prop}
    (hp : Amid T R G p s P) (hsome : ∀ e s, P (some e) s → Amid T R G (f (some e)) s Q)
    (hnone : ∀ s, P none s → Amid T R G (f none) s Q) : Amid T R G (p >>= f) s Q := by
  refine hp.bind fun x s hs => ?_
  cases x with
  | none => exact hnone s hs
  | some e => exact hsome e s hs

/-- One call, from what is known whatever the others do before it. -/
theorem amid_perform {A : S → Prop} {c : I.Call} {f : I.Reply c → Prog I α} {Q : α → S → Prop} (hs : A s)
    (hA : ∀ s s', A s → R s s' → A s')
    (h : ∀ s r s', A s → T s c r s' → G s c s' ∧ Amid T R G (f r) s' Q) : Amid T R G (.perform c >>= f) s Q :=
  fun s' hr r s'' ht => h s' r s'' (hA s s' hs hr) ht

/-- What is known holds at every call and at the end, if the others and the
emitted calls keep it. -/
theorem Emits.amid {P : I.Call → Prop} {A : S → Prop} {p : Prog I α} {Q : α → Prop} (hp : Emits P p Q) (hs : A s)
    (hA : ∀ s s', A s → R s s' → A s') (hstep : ∀ s c r s', A s → P c → T s c r s' → G s c s' ∧ A s') :
    Amid T R G p s fun a s => Q a ∧ A s := by
  induction p generalizing s with
  | ret a => exact ⟨hp, hs⟩
  | call c k ih =>
    intro s' hr r s'' ht
    have h := hstep s' c r s'' (hA s s' hs hr) hp.1 ht
    exact ⟨h.1, ih r (hp.2 r () trivial) h.2⟩

/-- A result that rests on each reply alone, whatever the others do. -/
theorem Sat.amid {T' : Trans I Unit} {G' : Unit → I.Call → Prop} {p : Prog I α} {Q : α → Unit → Prop} (hp : Sat T' G' p () Q)
    (hstep : ∀ s c r s', T s c r s' → T' () c r () ∧ G s c s') : Amid T R G p s fun a _ => Q a () := by
  induction p generalizing s with
  | ret a => exact hp
  | call c k ih =>
    intro s' _ r s'' ht
    have h := hstep s' c r s'' ht
    exact ⟨h.2, ih r (hp.2 r () h.1)⟩

/-- While a thread waits for its next call, the others may go on. -/
theorem Amid.stable (htrans : ∀ s s' s'', R s s' → R s' s'' → R s s'') {c : I.Call} {k : I.Reply c → Prog I α} {s' : S}
    {Q : α → S → Prop} (h : Amid T R G (.call c k) s Q) (hs : R s s') : Amid T R G (.call c k) s' Q :=
  fun s'' hs' r t ht => h s'' (htrans s s' s'' hs hs') r t ht

end Amid

/-! ## Pools -/

/-- Which calls take a lock and which drop one. -/
structure Locking (I : Interface) (L : Type) where
  takes : I.Call → Option L
  drops : I.Call → Option L

/-- What the threads share: the world, and who holds each lock. -/
structure Shared (M : Machine I) (L : Type) where
  world : M.World
  owner : L → Option Nat

/-- The calls a thread has made, with their replies. -/
abbrev History (I : Interface) := List ((c : I.Call) × I.Reply c)

structure Thread (I : Interface) (O α : Type) where
  op : O
  made : History I
  rest : Prog I α

def Thread.live (t : Thread I O α) : Bool :=
  match t.rest with
  | .ret _ => false
  | .call _ _ => true

structure Pool (M : Machine I) (L O α : Type) where
  shared : Shared M L
  threads : List (Thread I O α)

/-- The call thread `i` makes next, if it runs. -/
def Pool.next {M : Machine I} (s : Pool M L O α) (i : Nat) : Option I.Call :=
  match s.threads[i]? with
  | some ⟨_, _, .call c _⟩ => some c
  | _ => none

theorem Pool.next_eq {M : Machine I} {s : Pool M L O α} {i : Nat} {op : O} {made : History I} {c : I.Call}
    {k : I.Reply c → Prog I α} (h : s.threads[i]? = some ⟨op, made, .call c k⟩) : s.next i = some c := by
  simp [Pool.next, h]

inductive Event (M : Machine I) (O : Type) where
  | spawn (op : O)
  | act (i : Nat) (a : M.Answer)

variable {M : Machine I} [DecidableEq L]

/-- No one holds the lock the call takes. -/
def Locking.Free (K : Locking I L) (s : Shared M L) (c : I.Call) : Prop := (K.takes c).all fun l => (s.owner l).isNone

instance (K : Locking I L) (s : Shared M L) (c : I.Call) : Decidable (K.Free s c) :=
  inferInstanceAs (Decidable ((K.takes c).all (fun l => (s.owner l).isNone) = true))

/-- Who holds each lock after a call of thread `i`. -/
def Locking.pass (K : Locking I L) (i : Nat) (owner : L → Option Nat) (c : I.Call) (l : L) : Option Nat :=
  if K.takes c = some l then some i else if K.drops c = some l then none else owner l

/-- One call of thread `i`. -/
def Shared.step (K : Locking I L) (i : Nat) (s : Shared M L) (c : I.Call) (a : M.Answer) : Shared M L × I.Reply c :=
  let x := M.step s.world c a
  (⟨x.1, K.pass i s.owner c⟩, x.2)

/-- An event; a thread that is done or waits for a lock stays as it is. -/
def Pool.turn (K : Locking I L) (body : O → Prog I α) (s : Pool M L O α) : Event M O → Pool M L O α
  | .spawn op => { s with threads := s.threads ++ [⟨op, [], body op⟩] }
  | .act i a =>
    match s.threads[i]? with
    | some ⟨op, made, .call c k⟩ =>
      if K.Free s.shared c then
        let x := s.shared.step K i c a
        ⟨x.1, s.threads.set i ⟨op, made ++ [⟨c, x.2⟩], k x.2⟩⟩
      else s
    | _ => s

/-- The calls of thread `i`, in states with `J` and on answers that meet `E`. -/
def Locking.trans (K : Locking I L) (J : Shared M L → Prop) (E : M.World → I.Call → M.Answer → Prop) (i : Nat) :
    Trans I (Shared M L × History I) :=
  fun s c r s' => J s.1 ∧ K.Free s.1 c ∧ ∃ a, E s.1.world c a ∧ s.1.step K i c a = (s'.1, r) ∧ s'.2 = s.2 ++ [⟨c, r⟩]

/-- What an event does to a pool: nothing, a new thread, or a call. -/
inductive Pool.Turn (K : Locking I L) (body : O → Prog I α) (s : Pool M L O α) : Event M O → Pool M L O α → Prop where
  | idle (e : Event M O) : Turn K body s e s
  | spawn (op : O) : Turn K body s (.spawn op) { s with threads := s.threads ++ [⟨op, [], body op⟩] }
  | act {i : Nat} {op : O} {made : History I} {c : I.Call} {k : I.Reply c → Prog I α} (a : M.Answer)
      (hi : s.threads[i]? = some ⟨op, made, .call c k⟩) (hfree : K.Free s.shared c) :
      Turn K body s (.act i a) ⟨(s.shared.step K i c a).1, s.threads.set i
        ⟨op, made ++ [⟨c, (s.shared.step K i c a).2⟩], k (s.shared.step K i c a).2⟩⟩

theorem Pool.turn_cases (K : Locking I L) (body : O → Prog I α) (s : Pool M L O α) (e : Event M O) :
    Pool.Turn K body s e (s.turn K body e) := by
  cases e with
  | spawn op => exact .spawn op
  | act i a =>
    simp only [Pool.turn]
    split
    · split
      · exact .act a ‹_› ‹_›
      · exact .idle _
    · exact .idle _

/-- Any two operations that run are related. -/
def Pool.Apart (C : O → O → Prop) (s : Pool M L O α) : Prop :=
  ∀ (i j : Nat) (t t' : Thread I O α), s.threads[i]? = some t → s.threads[j]? = some t' → t.live → t'.live → i ≠ j → C t.op t'.op

omit [DecidableEq L] in
/-- A thread of the pool after a call was there before, for the same operation. -/
theorem Pool.before_act {s : Pool M L O α} {i j : Nat} {op : O} {made made' : History I} {p p' : Prog I α}
    {t : Thread I O α} (hi : s.threads[i]? = some ⟨op, made, p⟩) (hlive : Thread.live ⟨op, made, p⟩)
    (hj : (s.threads.set i ⟨op, made', p'⟩)[j]? = some t) (ht : t.live) :
    ∃ t', s.threads[j]? = some t' ∧ t'.op = t.op ∧ t'.live := by
  rw [List.getElem?_set] at hj
  split at hj
  · rename_i hij
    subst hij
    split at hj
    · obtain rfl := Option.some.inj hj
      exact ⟨_, hi, rfl, hlive⟩
    · cases hj
  · exact ⟨t, hj, rfl, ht⟩

theorem Pool.Apart.turn {C : O → O → Prop} {K : Locking I L} {body : O → Prog I α} {s : Pool M L O α} {e : Event M O}
    (h : s.Apart C) (hspawn : ∀ op, e = .spawn op → ∀ t ∈ s.threads, t.live → C op t.op ∧ C t.op op) :
    (s.turn K body e).Apart C := by
  have hturn := Pool.turn_cases K body s e
  generalize s.turn K body e = s' at hturn
  cases hturn with
  | idle => exact h
  | act a hi hfree =>
    intro j j' t t' hj hj' hlive hlive' hne
    obtain ⟨t₀, hj, hop, hlive⟩ := Pool.before_act hi rfl hj hlive
    obtain ⟨t₀', hj', hop', hlive'⟩ := Pool.before_act hi rfl hj' hlive'
    rw [← hop, ← hop']
    exact h j j' t₀ t₀' hj hj' hlive hlive' hne
  | spawn op =>
    intro j j' t t' hj hj' hlive hlive' hne
    rw [List.getElem?_append] at hj hj'
    -- The new thread is the last one.
    split at hj <;> split at hj'
    · exact h j j' t t' hj hj' hlive hlive' hne
    · obtain ⟨-, rfl⟩ := List.getElem?_eq_some_iff.1 hj'
      rw [List.getElem_singleton]
      exact (hspawn op rfl t (List.mem_of_getElem? hj) hlive).2
    · obtain ⟨-, rfl⟩ := List.getElem?_eq_some_iff.1 hj
      rw [List.getElem_singleton]
      exact (hspawn op rfl t' (List.mem_of_getElem? hj') hlive').1
    · obtain ⟨hlt, -⟩ := List.getElem?_eq_some_iff.1 hj
      obtain ⟨hlt', -⟩ := List.getElem?_eq_some_iff.1 hj'
      simp only [List.length_singleton] at hlt hlt'
      omega

/-! ## Rely and guarantee -/

/-- A proof about every interleaving. `J` holds of what is shared, `Inv` of the
pool, in every run whose events meet `cond`. -/
structure RelyGuarantee (M : Machine I) (K : Locking I L) (body : O → Prog I α) where
  cond : Pool M L O α → Event M O → Prop
  J : Shared M L → Prop
  Inv : Pool M L O α → Prop
  E : M.World → I.Call → M.Answer → Prop
  R : O → Nat → Shared M L → Shared M L → Prop
  G : O → Nat → Shared M L × History I → I.Call → Shared M L → Prop
  Q : O → α → Shared M L → Prop
  R_refl : ∀ op i s, R op i s s
  R_trans : ∀ op i s s' s'', R op i s s' → R op i s' s'' → R op i s s''
  /-- Every operation keeps its side, whenever it starts. -/
  proof : ∀ op i s, J s → Amid (K.trans J E i) (fun s s' => R op i s.1 s'.1 ∧ s'.2 = s.2) (fun s c s' => G op i s c s'.1)
    (body op) (s, []) fun a s => Q op a s.1
  cond_answer : ∀ s i a op made c k, cond s (.act i a) → s.threads[i]? = some ⟨op, made, .call c k⟩ →
    E s.shared.world c a
  inv_turn : ∀ s e, Inv s → cond s e → Inv (s.turn K body e)
  J_step : ∀ op i s h c s', J s → G op i (s, h) c s' → J s'
  Q_step : ∀ op a op' i s h c s', J s → G op' i (s, h) c s' → Q op a s → Q op a s'
  /-- A step of one thread is within the rely of every other one that runs. -/
  rely : ∀ (s : Pool M L O α) (i j : Nat) a op made c k (t : Thread I O α), Inv s → J s.shared → cond s (.act i a) →
    s.threads[i]? = some ⟨op, made, .call c k⟩ → s.threads[j]? = some t → t.live → i ≠ j → K.Free s.shared c →
    G op i (s.shared, made) c (s.shared.step K i c a).1 → R t.op j s.shared (s.shared.step K i c a).1

namespace RelyGuarantee
variable {K : Locking I L} {body : O → Prog I α} (P : RelyGuarantee M K body)

/-- What a thread has yet to keep: its side while it runs, its result once it is
done. -/
def Due (s : Shared M L) (i : Nat) (t : Thread I O α) : Prop :=
  match t.rest with
  | .ret a => P.Q t.op a s
  | .call _ _ => Amid (K.trans P.J P.E i) (fun s s' => P.R t.op i s.1 s'.1 ∧ s'.2 = s.2)
      (fun s c s' => P.G t.op i s c s'.1) t.rest (s, t.made) fun a s => P.Q t.op a s.1

structure Kept (s : Pool M L O α) : Prop where
  shared : P.J s.shared
  inv : P.Inv s
  due : ∀ i t, s.threads[i]? = some t → P.Due s.shared i t

variable {P}

/-- The next call of a thread is a guaranteed step, and its rest stays due. -/
theorem Kept.step {s : Pool M L O α} {i : Nat} {op : O} {made : History I} {c : I.Call} {k : I.Reply c → Prog I α}
    {a : M.Answer} (h : P.Kept s) (hcond : P.cond s (.act i a)) (hi : s.threads[i]? = some ⟨op, made, .call c k⟩)
    (hfree : K.Free s.shared c) :
    P.G op i (s.shared, made) c (s.shared.step K i c a).1 ∧
      P.Due (s.shared.step K i c a).1 i
        ⟨op, made ++ [⟨c, (s.shared.step K i c a).2⟩], k (s.shared.step K i c a).2⟩ := by
  have hE := P.cond_answer s i a op made c k hcond hi
  have hnext := h.due i _ hi (s.shared, made) ⟨P.R_refl op i s.shared, rfl⟩ (s.shared.step K i c a).2
    ((s.shared.step K i c a).1, made ++ [⟨c, (s.shared.step K i c a).2⟩]) ⟨h.shared, hfree, a, hE, rfl, rfl⟩
  refine ⟨hnext.1, ?_⟩
  unfold RelyGuarantee.Due
  split
  · rename_i b hb
    have hret := hnext.2
    rw [show k (s.shared.step K i c a).2 = .ret b from hb] at hret
    exact hret
  · exact hnext.2

/-- A step of another thread leaves what is due as it was. -/
theorem Due.stable {s s' : Shared M L} {j : Nat} {t : Thread I O α} (h : P.Due s j t) (hR : t.live → P.R t.op j s s')
    (hQ : ∀ a, P.Q t.op a s → P.Q t.op a s') : P.Due s' j t := by
  obtain ⟨op, made, rest⟩ := t
  cases rest with
  | ret a => exact hQ a h
  | call c k =>
    unfold RelyGuarantee.Due at h ⊢
    have htrans (x y z : Shared M L × History I) (hxy : P.R op j x.1 y.1 ∧ y.2 = x.2) (hyz : P.R op j y.1 z.1 ∧ z.2 = y.2) :
        P.R op j x.1 z.1 ∧ z.2 = x.2 :=
      ⟨P.R_trans op j _ _ _ hxy.1 hyz.1, hyz.2.trans hxy.2⟩
    exact Amid.stable htrans h ⟨hR rfl, rfl⟩

theorem due_start {s : Shared M L} (hs : P.J s) (i : Nat) (op : O) : P.Due s i ⟨op, [], body op⟩ := by
  have h := P.proof op i s hs
  unfold RelyGuarantee.Due
  split
  · rename_i a ha
    rw [show body op = .ret a from ha] at h
    exact h
  · exact h

theorem Kept.turn {s : Pool M L O α} {e : Event M O} (h : P.Kept s) (hcond : P.cond s e) :
    P.Kept (s.turn K body e) := by
  have hinv := P.inv_turn s e h.inv hcond
  have hturn := Pool.turn_cases K body s e
  generalize s.turn K body e = s' at hinv hturn
  cases hturn with
  | idle => exact h
  | spawn op =>
    refine ⟨h.shared, hinv, fun i t hi => ?_⟩
    rw [List.getElem?_append] at hi
    split at hi
    · exact h.due i t hi
    · obtain ⟨-, rfl⟩ := List.getElem?_eq_some_iff.1 hi
      rw [List.getElem_singleton]
      exact due_start h.shared i op
  | @act i op made c k a hi hfree =>
    obtain ⟨hG, hdue⟩ := h.step hcond hi hfree
    refine ⟨P.J_step _ _ _ _ _ _ h.shared hG, hinv, fun j t hj => ?_⟩
    rw [List.getElem?_set] at hj
    split at hj
    · rename_i hij
      subst hij
      split at hj
      · exact Option.some.inj hj ▸ hdue
      · cases hj
    · rename_i hij
      refine (h.due j t hj).stable (fun hlive => ?_) fun b => P.Q_step _ _ _ _ _ _ _ _ h.shared hG
      exact P.rely s i j a op made c k t h.inv h.shared hcond hi hj hlive hij hfree hG

/-- After every run that meets the condition, every thread keeps its side. -/
theorem Kept.run {s : Pool M L O α} {es : List (Event M O)} (h : P.Kept s)
    (hes : Conforms (Pool.turn K body) P.cond s es) : P.Kept (Lib.run (Pool.turn K body) s es) :=
  hes.inv h fun _ _ hs he => hs.turn he

/-- What the guaranteed steps make of the shared state, every run does. -/
theorem Kept.shared_run {D : Shared M L → Shared M L → Prop} (hrefl : ∀ s, D s s)
    (htrans : ∀ s s' s'', D s s' → D s' s'' → D s s'')
    (hG : ∀ op i s h c s', P.J s → P.G op i (s, h) c s' → D s s') {s : Pool M L O α} {es : List (Event M O)}
    (h : P.Kept s) (hes : Conforms (Pool.turn K body) P.cond s es) :
    D s.shared (Lib.run (Pool.turn K body) s es).shared := by
  induction es generalizing s with
  | nil => exact hrefl s.shared
  | cons e es ih =>
    refine htrans _ _ _ ?_ (ih (h.turn hes.1) hes.2)
    have hcond := hes.1
    have hturn := Pool.turn_cases K body s e
    generalize s.turn K body e = s' at hturn
    cases hturn with
    | idle | spawn => exact hrefl s.shared
    | act a hi hfree => exact hG _ _ _ _ _ _ h.shared (h.step hcond hi hfree).1

end RelyGuarantee

end Multikernel.Lib
