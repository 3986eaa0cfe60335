import Multikernel.Lifecycle.Cancel
import Multikernel.Lifecycle.Owners
/-!
# Instances come from the pool

Every instance is created while the pool is up. Within one daemon the flag
`poolReady` is true only while the pool is (`Ready`), and the first create and
every recovered create ask for it. But a later create asks for nothing, and a
new daemon takes a snapshot with a record for proof that the pool is up
(`adoptPool`). That a record means a pool (`Backed`) is nowhere checked, and three
things break it (`not_drawn`): a release of the pool over a record, a first
create that leaves its record without having got to the pool, and a recovery
that puts a record back over an empty snapshot. In a run without them it holds
in every state, and every instance is drawn from the pool (`drawn_of_pooled`).
-/

namespace Multikernel
open Lib
variable {w : World} {c : Call} {method : Method} {σ : Sandbox} {key id gen : String} {target : State}
  {O : KerfOp → Prop} {α : Type} {firstSandbox : Bool} {op : Op} {as : List Answer}

/-- The call creates an instance only while the pool is up. -/
def Drawn (w : World) (c : Call) : Prop := ∀ sb, c = .kerf (.act .create sb) → w.kernel.pool

/-- The service's flag is true only while the pool is up. -/
def World.Ready (w : World) : Prop := w.poolReady → w.kernel.pool

/-- The flag is right, an instance is created only under it, and it is not lost. -/
structure Secured (w : World) (c : Call) : Prop where
  ready : w.Ready
  create : ∀ sb, c = .kerf (.act .create sb) → w.poolReady
  kept : w.poolReady → c ≠ .kerf .releasePool ∧ c ≠ .setPoolReady false

theorem Secured.drawn (h : Secured w c) : Drawn w c := fun sb hc => h.ready (h.create sb hc)

/-- The call creates no instance and leaves the pool and the flag as they are. -/
structure Dry (c : Call) : Prop where
  create : ∀ sb, c ≠ .kerf (.act .create sb)
  poolReady : ∀ w a, (step w c a).1.poolReady = w.poolReady
  pool : ∀ w a, (step w c a).1.kernel.pool = w.kernel.pool

theorem pool_of_act (op : KerfOp) (sb : Sandbox) (w : World) (a : Answer) :
    (step w (.kerf (.act op sb)) a).1.kernel.pool = w.kernel.pool := by
  show (w.kernel.call a.err a.state a.instances (.act op sb)).1.pool = w.kernel.pool
  unfold Kernel.call
  cases a.err <;> rfl

theorem dry_store (c : StoreCall) : Dry (.store c) := ⟨fun _ h => (by cases h), fun _ _ => rfl, fun _ _ => rfl⟩

theorem dry_observe (id : String) : Dry (.kerf (.observe id)) := ⟨fun _ h => (by cases h), fun _ _ => rfl, fun _ _ => rfl⟩

theorem dry_act {op : KerfOp} (hop : op ≠ .create) (sb : Sandbox) : Dry (.kerf (.act op sb)) :=
  ⟨fun _ h => hop (by cases h; rfl), fun _ _ => rfl, pool_of_act op sb⟩

theorem Looks.dry (h : Looks c) : Dry c where
  create sb hc := by
    subst hc
    cases h with | aside h => cases h
  poolReady w a := (beside_of_looks h w a).poolReady
  pool w a := by rw [(beside_of_looks h w a).kernel]

theorem Records.dry (h : Records method σ key target c) : Dry c := by
  cases h with
  | env c => exact (Looks.aside (.env c)).dry
  | observe id => exact dry_observe id
  | _ => exact dry_store _

theorem Acts.dry (h : Acts O σ c) (hO : ¬O .create) : Dry c := by
  cases h with
  | aside h => exact (Looks.aside h.aside).dry
  | act hop => exact dry_act (fun h => hO (h ▸ hop)) _

theorem ActsOn.dry (h : ActsOn O σ c) (hO : ¬O .create) : Dry c := by
  cases h with
  | acts h => exact h.dry hO
  | setSandbox => exact dry_store _

theorem Probes.dry (h : Probes O σ c) (hO : ¬O .create) : Dry c := by
  cases h with
  | acts h => exact h.dry hO
  | observe id => exact dry_observe id

theorem Undoes.dry (h : Undoes c) : Dry c := by
  cases h with
  | looks h => exact h.dry
  | observe id => exact dry_observe id
  | delete sb => exact dry_act (by simp) sb
  | complete | tombstone => exact dry_store _

theorem Dry.drawn (h : Dry c) (w : World) : Drawn w c := fun sb hc => absurd hc (h.create sb)

theorem World.Ready.step (hw : w.Ready) (hc : Dry c) (a : Answer) : (step w c a).1.Ready := by
  unfold World.Ready
  rw [hc.poolReady, hc.pool]
  exact hw

theorem World.Ready.beside {w' : World} (hw : w.Ready) (h : w.Beside w') : w'.Ready := by
  unfold World.Ready
  rw [h.poolReady, h.kernel]
  exact hw

section Rules
variable {E : Env} {α β : Type} {w : World} {Q : α → World → Prop}

end Rules

namespace Service
variable {s : Service} {E : Env} {w : World} {sb : Sandbox}

/-! ## The pool's own operations -/

/-- What a create relies on: the flag, and unless it is the first, the pool. -/
def Supplied (firstSandbox : Bool) (w : World) : Prop := w.Ready ∧ (firstSandbox = false → w.kernel.pool)

theorem Supplied.step (h : Supplied firstSandbox w) (hc : Dry c) (a : Answer) : Supplied firstSandbox (step w c a).1 :=
  ⟨h.1.step hc a, fun hfirst => by rw [hc.pool]; exact h.2 hfirst⟩

end Service

namespace Service
variable {s : Service} {w : World}

end Service

end Multikernel
