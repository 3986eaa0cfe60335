import Multikernel.Lifecycle.Reconcile
/-!
# Programs that stay apart from the lifecycle state

The storage service and the artifact resolvers call neither the lifecycle
store nor the Kerf backend, and what they do to a sandbox is its storage
status. Every argument about the lifecycle store, the instances or the pool
passes over them with these lemmas.
-/

namespace Multikernel
open Lib

/-- Calls that reach neither the lifecycle store, the kernel nor the variables
of the service. -/
inductive Aside : Call → Prop
  | env (c : EnvCall) : Aside (.env c)
  | exports (c : ExportCall) : Aside (.exports c)
  | server (c : ServerCall) : Aside (.server c)
  | artifacts (c : ArtifactCall) : Aside (.artifacts c)

attribute [simp] Aside.env Aside.exports Aside.server Aside.artifacts

/-- Of these, the ones that take and drop no lifecycle lock. -/
inductive Outside : Call → Prop
  | ctxErr : Outside (.env .ctxErr)
  | checkpoint (point : String) : Outside (.env (.checkpoint point))
  | generation : Outside (.env .generation)
  | now : Outside (.env .now)
  | lock : Outside (.env (.lock .storage))
  | unlock : Outside (.env (.unlock .storage))
  | exports (c : ExportCall) : Outside (.exports c)
  | server (c : ServerCall) : Outside (.server c)
  | artifacts (c : ArtifactCall) : Outside (.artifacts c)

attribute [simp] Outside.ctxErr Outside.checkpoint Outside.generation Outside.now Outside.lock Outside.unlock Outside.exports
  Outside.server Outside.artifacts

theorem Outside.aside {c : Call} (h : Outside c) : Aside c := by
  cases h <;> simp

/-- `p` makes only these. -/
abbrev Apart {α : Type} (p : Act α) : Prop := Only Outside p

@[simp] theorem apart_ctx_err (ctx : Ctx) : Apart ctx.err := by
  cases ctx <;> simp [Ctx.err]

/-- Locks change nothing. -/
theorem Emits.locked {α : Type} {P : Call → Prop} {l : Lock} {p : Act α} {Q : α → Prop} (hP : ∀ c, Aside c → P c)
    (hp : Emits P p Q) : Emits P (withLock l p) Q :=
  sat_withLock.2 ⟨hP _ (.env _), fun _ _ _ => hp.mono (fun _ h => h) fun _ h => ⟨hP _ (.env _), fun _ _ _ => h⟩⟩

namespace Storage

@[simp] theorem apart_publishActive (value : Export) (retained : String) : Apart (publishActive value retained) := by
  simp [publishActive, Option.forall]

@[simp] theorem apart_recoverPreparation (ctx : Ctx) (value : Export) : Apart (recoverPreparation ctx value) := by
  cases ctx <;> simp [recoverPreparation, stopServer, Ctx.err, Option.forall]

@[simp] theorem apart_finishRelease (value : Export) (counters : Counters) (interrupted : String) :
    Apart (finishRelease value counters interrupted) := by
  simp [finishRelease, Option.forall]

theorem apart_provision (ctx : Ctx) (id gen : String) (cid : UInt32) (image : PreparedImage) :
    Apart (provision ctx id gen cid image) := by
  cases ctx <;> cases h : validatePrepared image <;>
    simp [provision, provisionExisting, provisionNew, Ctx.err, Option.forall, h]

theorem apart_release (ctx : Ctx) (id gen export_ : String) (cid : UInt32) : Apart (release ctx id gen export_ cid) := by
  cases ctx <;> simp [release, Ctx.err, Option.forall]

theorem apart_reconcileActive (value : Export) : Apart (reconcileActive value) := by
  simp [reconcileActive, Option.forall]

theorem apart_reconcileQuiescing (value : Export) : Apart (reconcileQuiescing value) := by
  refine Only.bind (by simp) fun r => ?_
  cases r with
  | error e => simp
  | ok observation =>
    refine Sat.unless trivial fun _ => Sat.unless trivial fun _ => ?_
    refine Only.bind (by simp) fun r => ?_
    cases r with
    | error e => simp
    | ok counters =>
      refine Emits.bind (apart_finishRelease value counters _) fun r _ => ?_
      cases r <;> simp

@[simp] theorem apart_reconcileExport (ctx : Ctx) (value : Export) : Apart (reconcileExport ctx value) := by
  refine Emits.bind (apart_ctx_err ctx) fun r _ => ?_
  cases r with
  | some e => simp
  | none =>
    cases h : value.state with
    | released => simp
    | active => simpa [h] using apart_reconcileActive value
    | quiescing => simpa [h] using apart_reconcileQuiescing value
    | preparing =>
      refine Emits.bind (apart_recoverPreparation ctx value) fun r _ => ?_
      cases r <;> simp

@[simp] theorem apart_reconcileExports (ctx : Ctx) (values : List Export) : Apart (reconcileExports ctx values) := by
  induction values with
  | nil => simp [reconcileExports]
  | cons value values ih =>
    refine Emits.bind (apart_reconcileExport ctx value) fun r _ => ?_
    cases r with
    | none => exact ih
    | some e => simp

theorem apart_reconcile (ctx : Ctx) (owners : Table Owner) : Apart (reconcile ctx owners) := by
  cases ctx <;> simp [reconcile, Ctx.err, Option.forall]

end Storage

namespace Service
variable (s : Service)

theorem apart_artifactsFor (manifest : String) : Apart (s.artifactsFor manifest) := by
  simp [artifactsFor]

theorem apart_openPreparedBoot (config : SandboxConfig) (artifacts : Artifacts) :
    Apart (openPreparedBoot config artifacts) := by
  simp [openPreparedBoot, Option.forall]

theorem apart_closeArtifacts (artifacts : Artifacts) : Apart (closeArtifacts artifacts) := by
  unfold closeArtifacts
  split <;> simp

theorem apart_bootFiles (config : SandboxConfig) (artifacts : Artifacts) : Apart (s.bootFiles config artifacts) := by
  unfold bootFiles
  split
  · simp
  · refine Emits.bind (apart_openPreparedBoot config artifacts) fun r _ => ?_
    cases r <;> simp

theorem apart_checkArtifacts (c : SandboxConfig) : Apart (s.checkArtifacts c) := by
  unfold checkArtifacts
  split
  · simp
  · refine Emits.bind (s.apart_artifactsFor _) fun r _ => ?_
    cases r with
    | error e => simp
    | ok artifacts =>
      refine Emits.bind (R := fun _ => True) ?_ fun verifyErr _ => ?_
      · split
        · refine Emits.bind (apart_openPreparedBoot c artifacts) fun r _ => ?_
          cases r <;> simp
        · simp
      · refine Emits.bind (apart_closeArtifacts artifacts) fun closeErr _ => ?_
        simp

/-- Provisioning changes nothing of the sandbox but its storage status. -/
theorem apart_provisionStorage (ctx : Ctx) (sandbox : Sandbox) :
    Emits Outside (s.provisionStorage ctx sandbox) fun r => ∃ status, r.1 = { sandbox with storage := status } := by
  unfold provisionStorage
  split
  · exact ⟨_, rfl⟩
  · split
    · exact ⟨_, rfl⟩
    · refine Emits.bind (Storage.apart_provision _ _ _ _ _) fun r _ => ?_
      cases r with
      | error e => exact ⟨_, rfl⟩
      | ok value =>
        simp only [sat_ite, sat_pure]
        exact ⟨fun _ => ⟨_, rfl⟩, fun _ => ⟨_, rfl⟩⟩

/-- So does releasing. -/
theorem apart_releaseStorage (ctx : Ctx) (sandbox : Sandbox) :
    Emits Outside (s.releaseStorage ctx sandbox) fun r => ∃ status, r.1 = { sandbox with storage := status } := by
  unfold releaseStorage
  split
  · exact ⟨_, rfl⟩
  · split
    · exact ⟨_, rfl⟩
    · split
      · exact ⟨_, rfl⟩
      · refine Emits.bind (Storage.apart_release _ _ _ _ _) fun r _ => ?_
        cases r with
        | error | ok => exact ⟨_, rfl⟩

end Service

end Multikernel
