import Multikernel.Lib.Threads
import Multikernel.Network.Carriers
/-!
# Concurrent network requests

Every request is a thread: each store or backend call is one atomic step, and
the two mutexes decide who waits. `Release` and `Provision` hold `orchestrate`,
the others `mu`, so a release rewrites records while another request holds `mu`
and works on what it read.

The argument is by who may change a record. A thread that holds `mu` changes
records that carry no sandbox or its own; a release, those of its sandbox. While
no `Bind`, `Unbind` or `Report` of a sandbox runs beside a release of it, no one
changes a record another thread is working on (`Rely`), so every write goes
over the record it was computed from (`Guarantee`) and an endpoint generation
only gets older (`Ages`).
-/

namespace Multikernel.Network
open Lib

/-! ## Threads -/

def locking : Locking NetI Mutex where
  takes
    | .lock m => some m
    | _ => none
  drops
    | .unlock m => some m
    | _ => none

abbrev NetShared := Shared Net Mutex

abbrev NetPool := Pool Net Mutex Request Response

def Request.sandbox : Request → String
  | .bind e | .provision e | .release e | .unbind e | .report e => e.sandboxID
  | .add _ | .check _ | .delete _ => ""

/-- The requests that hold `orchestrate` all along. -/
def Request.orchestrated : Request → Bool
  | .provision _ | .release _ => true
  | _ => false

def Request.isRelease : Request → Bool
  | .release _ => true
  | _ => false

/-- A release beside a request that works on the endpoint of its sandbox. -/
def Request.Clashes : Request → Request → Prop
  | .release e, .bind e' | .release e, .unbind e' | .release e, .report e' => e.sandboxID = e'.sandboxID
  | _, _ => False

instance (r r' : Request) : Decidable (r.Clashes r') :=
  match r, r' with
  | .release e, .bind e' | .release e, .unbind e' | .release e, .report e' =>
    inferInstanceAs (Decidable (e.sandboxID = e'.sandboxID))
  | .release _, .add _ | .release _, .check _ | .release _, .delete _ | .release _, .provision _ | .release _, .release _ =>
    .isFalse id
  | .add _, _ | .check _, _ | .delete _, _ | .bind _, _ | .provision _, _ | .unbind _, _ | .report _, _ => .isFalse id

/-- The generation of the last endpoint whose backend resources were deleted. -/
def tornStep (g : Option String) (x : (c : Call) × c.Reply) : Option String :=
  match x with
  | ⟨.backend (.delete e), r⟩ => if Option.isNone (α := Err) r then some e.generation else g
  | _ => g

def torn (h : History NetI) : Option String := h.foldl tornStep none

@[simp] theorem torn_append (h : History NetI) (x : (c : Call) × c.Reply) : torn (h ++ [x]) = tornStep (torn h) x := by
  simp [torn]

/-! ## The life of a record -/

def World.at (w : World) (k : String × String × String) : Option Endpoint := w.store.data.lookup k

/-- How far an endpoint generation has come. -/
def LinkState.stage : LinkState → Nat
  | .allocating => 0
  | .deleting => 2
  | _ => 1

/-- The records are valid, their generations are recorded and differ. -/
structure World.Tidy (w : World) : Prop where
  valid : ∀ k e, w.at k = some e → validateStoredEndpoint k e = none
  recorded : ∀ k e, w.at k = some e → e.generation ∈ w.recorded
  distinct : ∀ k e k' e', w.at k = some e → w.at k' = some e' → e.generation = e'.generation → k = k'

/-- What may become of the record under a key. -/
inductive Move (recorded : List String) : Option Endpoint → Option Endpoint → Prop where
  | allocate {e : Endpoint} (h : e.generation ∉ recorded) : Move recorded none (some e)
  | rewrite {o n : Endpoint} (hgen : n.generation = o.generation) (hstage : o.state.stage ≤ n.state.stage) :
      Move recorded (some o) (some n)
  | discard {o : Endpoint} : Move recorded (some o) none

/-- The same records and history. -/
structure World.Same (w w' : World) : Prop where
  at_eq : ∀ k, w'.at k = w.at k
  recorded : ∀ g, g ∈ w'.recorded ↔ g ∈ w.recorded

/-- The record under `k` moves from `o` to `n`; nothing else changes. -/
structure World.Moves (w w' : World) (k : String × String × String) (o n : Option Endpoint) : Prop where
  old : w.at k = o
  new : w'.at k = n
  move : Move w.recorded o n
  valid : ∀ e, n = some e → validateStoredEndpoint k e = none
  other : ∀ k', k' ≠ k → w'.at k' = w.at k'
  recorded : ∀ g, g ∈ w'.recorded ↔ g ∈ w.recorded ∨ ∃ e, n = some e ∧ e.generation = g

/-- Every record of a generation that was recorded comes from one that was not
older. -/
structure World.Ages (w w' : World) : Prop where
  recorded : ∀ g ∈ w.recorded, g ∈ w'.recorded
  older : ∀ k e, w'.at k = some e → e.generation ∈ w.recorded →
    ∃ o, w.at k = some o ∧ o.generation = e.generation ∧ o.state.stage ≤ e.state.stage

section Life
variable {w w' w'' : World} {k : String × String × String} {o n : Option Endpoint}

theorem World.Same.refl (w : World) : w.Same w := ⟨fun _ => rfl, fun _ => .rfl⟩

theorem World.Same.tidy (h : w.Same w') (hw : w.Tidy) : w'.Tidy where
  valid k e he := hw.valid k e (h.at_eq k ▸ he)
  recorded k e he := (h.recorded _).2 (hw.recorded k e (h.at_eq k ▸ he))
  distinct k e k' e' he he' := hw.distinct k e k' e' (h.at_eq k ▸ he) (h.at_eq k' ▸ he')

theorem World.Same.ages (h : w.Same w') : w.Ages w' where
  recorded g hg := (h.recorded g).2 hg
  older k e he _ := ⟨e, h.at_eq k ▸ he, rfl, le_rfl⟩

/-- A record that moved is the one under `k`, or was there before. -/
theorem World.Moves.cases (h : w.Moves w' k o n) {k' : String × String × String} {e : Endpoint} (he : w'.at k' = some e) :
    (k' = k ∧ n = some e) ∨ (k' ≠ k ∧ w.at k' = some e) := by
  by_cases hk : k' = k
  · subst hk
    exact .inl ⟨rfl, h.new ▸ he⟩
  · exact .inr ⟨hk, h.other k' hk ▸ he⟩

/-- The new record's generation is new, or its record is the one under `k`. -/
theorem World.Moves.key_eq (h : w.Moves w' k o n) (hw : w.Tidy) {k' : String × String × String} {e e' : Endpoint}
    (he : n = some e) (he' : w.at k' = some e') (hgen : e.generation = e'.generation) : k' = k := by
  obtain ⟨hold, -, hmove, -, -, -⟩ := h
  subst he
  cases hmove with
  | allocate hnew => exact absurd (hgen ▸ hw.recorded k' e' he') hnew
  | rewrite hg _ => exact hw.distinct k' e' k _ he' hold (hgen.symm.trans hg)

theorem World.Moves.tidy (h : w.Moves w' k o n) (hw : w.Tidy) : w'.Tidy where
  valid k' e he := by
    rcases h.cases he with ⟨rfl, hn⟩ | ⟨-, he⟩
    · exact h.valid e hn
    · exact hw.valid k' e he
  recorded k' e he := by
    rcases h.cases he with ⟨rfl, hn⟩ | ⟨-, he⟩
    · exact (h.recorded _).2 (.inr ⟨e, hn, rfl⟩)
    · exact (h.recorded _).2 (.inl (hw.recorded k' e he))
  distinct k₁ e₁ k₂ e₂ h₁ h₂ hgen := by
    rcases h.cases h₁ with ⟨rfl, hn₁⟩ | ⟨-, h₁⟩ <;> rcases h.cases h₂ with ⟨rfl, hn₂⟩ | ⟨-, h₂⟩
    · rfl
    · exact (h.key_eq hw hn₁ h₂ hgen).symm
    · exact h.key_eq hw hn₂ h₁ hgen.symm
    · exact hw.distinct k₁ e₁ k₂ e₂ h₁ h₂ hgen

theorem World.Moves.ages (h : w.Moves w' k o n) : w.Ages w' where
  recorded g hg := (h.recorded g).2 (.inl hg)
  older k' e he hg := by
    rcases h.cases he with ⟨rfl, hn⟩ | ⟨-, he⟩
    · obtain ⟨hold, -, hmove, -, -, -⟩ := h
      subst hn
      cases hmove with
      | allocate hnew => exact absurd hg hnew
      | rewrite hgen hstage => exact ⟨_, hold, hgen.symm, hstage⟩
    · exact ⟨e, he, rfl, le_rfl⟩

theorem World.Ages.refl (w : World) : w.Ages w := (World.Same.refl w).ages

theorem World.Ages.trans (h : w.Ages w') (h' : w'.Ages w'') : w.Ages w'' where
  recorded g hg := h'.recorded g (h.recorded g hg)
  older k e he hg := by
    obtain ⟨e', he', hgen', hstage'⟩ := h'.older k e he (h.recorded _ hg)
    obtain ⟨o, ho, hgen, hstage⟩ := h.older k e' he' (hgen' ▸ hg)
    exact ⟨o, ho, hgen.trans hgen', hstage.trans hstage'⟩

end Life

/-! ## Rely and guarantee -/

/-- The thread holds `mu`, and `orchestrate` if its request does. -/
def Shield (r : Request) (i : Nat) (s : NetShared) : Prop :=
  s.owner .mu = some i ∧ (r.orchestrated → s.owner .orchestrate = some i)

/-- The thread is a release that holds `orchestrate`. -/
def Releasing (r : Request) (i : Nat) (s : NetShared) : Prop :=
  r.isRelease ∧ r.sandbox ≠ "" ∧ s.owner .orchestrate = some i

/-- The thread may change this record. -/
def Permits (r : Request) (i : Nat) (s : NetShared) (o : Endpoint) : Prop :=
  (Shield r i s ∧ (o.sandboxID = "" ∨ o.sandboxID = r.sandbox)) ∨ (Releasing r i s ∧ o.sandboxID = r.sandbox)

/-- The same, where the record may be absent: only a thread with `mu` adds one. -/
def MayChange (r : Request) (i : Nat) (s : NetShared) : Option Endpoint → Prop
  | none => Shield r i s
  | some o => Permits r i s o

/-- What the other threads leave alone. -/
structure Rely (r : Request) (i : Nat) (s s' : NetShared) : Prop where
  owner : ∀ m, s'.owner m = some i ↔ s.owner m = some i
  mine : ∀ k o, s.world.at k = some o → Permits r i s o → s'.world.at k = some o
  absent : Shield r i s → ∀ k, s.world.at k = none → s'.world.at k = none
  recorded : Shield r i s → ∀ g, g ∈ s'.world.recorded ↔ g ∈ s.world.recorded

/-- What a call of the thread may do: change one record it may change; drop
only a lock it holds; and delete only the record of the generation whose backend
resources it deleted. -/
structure Guarantee (r : Request) (i : Nat) (s : NetShared × History NetI) (c : Call) (s' : NetShared) : Prop where
  world : s.1.world.Same s'.world ∨ ∃ k o n, s.1.world.Moves s'.world k o n ∧ MayChange r i s.1 o
  drops : ∀ m, c = .unlock m → s.1.owner m = some i
  torn : ∀ k e, c = .store (.delete k) → s.1.world.at k = some e → torn s.2 = some e.generation

section Rely
variable {r : Request} {i : Nat} {s s' s'' : NetShared} {o : Endpoint} {k : String × String × String}

theorem Rely.shield (h : Rely r i s s') (hs : Shield r i s) : Shield r i s' :=
  ⟨(h.owner .mu).2 hs.1, fun ho => (h.owner .orchestrate).2 (hs.2 ho)⟩

theorem Rely.permits_iff (h : Rely r i s s') : Permits r i s' o ↔ Permits r i s o := by
  simp only [Permits, Shield, Releasing, h.owner]

theorem Rely.refl (r : Request) (i : Nat) (s : NetShared) : Rely r i s s :=
  ⟨fun _ => .rfl, fun _ _ h _ => h, fun _ _ h => h, fun _ _ => .rfl⟩

theorem Rely.trans (h : Rely r i s s') (h' : Rely r i s' s'') : Rely r i s s'' where
  owner m := (h'.owner m).trans (h.owner m)
  mine k o ho hp := h'.mine k o (h.mine k o ho hp) (h.permits_iff.2 hp)
  absent hs k hk := h'.absent (h.shield hs) k (h.absent hs k hk)
  recorded hs g := (h'.recorded (h.shield hs) g).trans (h.recorded hs g)

/-- A call that changes no record and no lock of the thread. -/
theorem rely_of_same (hw : s.world.Same s'.world) (ho : s'.owner = s.owner) : Rely r i s s' where
  owner m := by rw [ho]
  mine k o h _ := (hw.at_eq k).trans h
  absent _ k h := (hw.at_eq k).trans h
  recorded _ g := hw.recorded g

end Rely

section Others
variable {r r' : Request} {i j : Nat} {s s' : NetShared}

theorem not_shield_both (hij : i ≠ j) (h : Shield r i s) : ¬Shield r' j s := fun h' =>
  hij (Option.some.inj (h.1.symm.trans h'.1))

/-- A request that holds `mu` and a release beside it do not meet, unless they
clash. -/
theorem not_shield_releasing {o : Endpoint} (hij : i ≠ j) (hclash : ¬r'.Clashes r) (h : Shield r i s)
    (ho : o.sandboxID = "" ∨ o.sandboxID = r.sandbox) (h' : Releasing r' j s) (ho' : o.sandboxID = r'.sandbox) : False := by
  obtain ⟨hrel, hne, horch⟩ := h'
  have hor : r.orchestrated = false := by
    by_contra hc
    exact hij (Option.some.inj ((h.2 (by simpa using hc)).symm.trans horch))
  have hsame : r'.sandbox = r.sandbox := by
    rcases ho with h0 | h0
    · exact absurd (ho'.symm.trans h0) hne
    · exact ho'.symm.trans h0
  cases r' with
  | release e =>
    cases r with
    | bind e' | unbind e' | report e' => exact hclash hsame
    | provision e' | release e' => cases hor
    | add e' | check e' | delete e' => exact hne hsame
  | _ => cases hrel

/-- Two threads may not change one record. -/
theorem not_permits_both {o : Endpoint} (hij : i ≠ j) (hclash : ¬r.Clashes r') (hclash' : ¬r'.Clashes r)
    (h : Permits r i s o) (h' : Permits r' j s o) : False := by
  rcases h with ⟨hs, ho⟩ | ⟨hr, ho⟩ <;> rcases h' with ⟨hs', ho'⟩ | ⟨hr', ho'⟩
  · exact not_shield_both hij hs hs'
  · exact not_shield_releasing hij hclash' hs ho hr' ho'
  · exact not_shield_releasing hij.symm hclash hs' ho' hr ho
  · exact hij (Option.some.inj (hr.2.2.symm.trans hr'.2.2))

/-- A call takes a free lock and drops its own. -/
theorem owner_pass {c : Call} (hfree : locking.Free s c) (hdrops : ∀ m, c = .unlock m → s.owner m = some i) (hij : i ≠ j)
    (m : Mutex) : locking.pass i s.owner c m = some j ↔ s.owner m = some j := by
  unfold Locking.pass
  split
  · rename_i ht
    have hnone : s.owner m = none := by simpa [Locking.Free, ht] using hfree
    simp [hnone, hij]
  · split
    · rename_i hd
      have hc : c = .unlock m := by
        cases c with
        | unlock m' => exact congrArg Call.unlock (Option.some.inj hd)
        | _ => cases hd
      simp [hdrops m hc, hij]
    · exact .rfl

/-- What a step of one thread may do is within what the others rely on, unless
one is a release and the other works on the endpoint of its sandbox. -/
theorem rely_of_guarantee {h : History NetI} {c : Call} (hG : Guarantee r i (s, h) c s') (htidy : s.world.Tidy)
    (hfree : locking.Free s c) (howner : s'.owner = locking.pass i s.owner c) (hij : i ≠ j) (hclash : ¬r.Clashes r')
    (hclash' : ¬r'.Clashes r) : Rely r' j s s' := by
  have hown (m : Mutex) : s'.owner m = some j ↔ s.owner m = some j := by
    rw [howner]
    exact owner_pass hfree hG.drops hij m
  rcases hG.world with hsame | ⟨k, o, n, hm, hperm⟩
  · exact ⟨hown, fun k o ho _ => (hsame.at_eq k).trans ho, fun _ k hk => (hsame.at_eq k).trans hk, fun _ => hsame.recorded⟩
  · refine ⟨hown, fun k' o' ho' hp => ?_, fun hs k' hk' => ?_, fun hs g => ?_⟩
    · by_cases hk : k' = k
      · subst hk
        rw [hm.old] at ho'
        subst ho'
        exact (not_permits_both hij hclash hclash' hperm hp).elim
      · exact (hm.other k' hk).trans ho'
    · by_cases hk : k' = k
      · subst hk
        rw [hm.old] at hk'
        subst hk'
        exact absurd hs (not_shield_both hij hperm)
      · exact (hm.other k' hk).trans hk'
    · -- Only an allocation records a generation, and it needs `mu`.
      rw [hm.recorded g, or_iff_left_iff_imp]
      rintro ⟨e, rfl, rfl⟩
      have hmove := hm.move
      cases o with
      | none => exact absurd hs (not_shield_both hij hperm)
      | some o =>
        cases hmove with
        | rewrite hgen _ => exact hgen ▸ htidy.recorded k o hm.old

end Others

end Multikernel.Network
