import Multikernel.Lifecycle.Apart
/-!
# What a request writes

A request works on one sandbox under one idempotency key. `Touches σ key`
holds of the calls that journal or store only sandboxes with the identity of
`σ`, remove no other, and record a result under no other key; `Cancels id key fp`
of those a cancellation makes, which only complete, remove and record ABORTED. The
lemmas here say so of every program, whatever its calls reply.
-/

namespace Multikernel
open Lib
variable {id gen key : String} {op : KerfOp} {σ : Sandbox} {c : Call} {P : Call → Prop}

/-- Two records of one sandbox: ID, generation and configuration agree. -/
structure Sandbox.Same (a b : Sandbox) : Prop where
  id : a.id = b.id
  generation : a.generation = b.generation
  config : a.config = b.config

namespace Sandbox.Same
variable {a b c : Sandbox}

@[refl] theorem refl (a : Sandbox) : a.Same a := ⟨rfl, rfl, rfl⟩

theorem symm (h : a.Same b) : b.Same a := ⟨h.id.symm, h.generation.symm, h.config.symm⟩

theorem trans (h : a.Same b) (h' : b.Same c) : a.Same c :=
  ⟨h.id.trans h'.id, h.generation.trans h'.generation, h.config.trans h'.config⟩

@[simp] theorem mk_iff {state : State} {error : Option Error} {config : SandboxConfig}
    {storage : Option StorageStatus} {createdAt updatedAt : Nat} :
    (Sandbox.mk id gen state error config storage createdAt updatedAt).Same b ↔
      id = b.id ∧ gen = b.generation ∧ config = b.config :=
  ⟨fun h => ⟨h.id, h.generation, h.config⟩, fun h => ⟨h.1, h.2.1, h.2.2⟩⟩

end Sandbox.Same

/-- The sandbox and the key a change is about. -/
def Change.Touches (σ : Sandbox) (key : String) : Change → Prop
  | .commit sb k _ _ | .commitFailure sb k _ _ => sb.Same σ ∧ k = key
  | .tombstone k _ _ => k = key
  | .abortCreate id k _ _ => id = σ.id ∧ k = key
  | .setSandbox sb => sb.Same σ
  | .removeSandbox id => id = σ.id

def Touches (σ : Sandbox) (key : String) : Call → Prop
  | .store (.append e) =>
    e.sandboxID = σ.id ∧ (e.phase = .intent → e.idempotencyKey = key ∧ ∃ sb, e.sandbox = some sb ∧ sb.Same σ)
  | .store (.change ch) => ch.Touches σ key
  | _ => True

def Cancels (id key : String) (fp : Fingerprint) : Call → Prop
  | .store (.append e) => e.sandboxID = id ∧ e.phase = .complete
  | .store (.change (.tombstone k f e)) => k = key ∧ f = fp ∧ e.code = .aborted
  | .store (.change (.abortCreate i k f e)) => i = id ∧ k = key ∧ f = fp ∧ e.code = .aborted
  | .store (.change _) => False
  | _ => True

section Rules
variable {σ : Sandbox} {key id k : String} {fp f : Fingerprint} {sb : Sandbox} {failure : Error}

@[simp] theorem touches_append {e : JournalEntry} :
    Touches σ key (.store (.append e)) ↔
      e.sandboxID = σ.id ∧ (e.phase = .intent → e.idempotencyKey = key ∧ ∃ sb, e.sandbox = some sb ∧ sb.Same σ) :=
  Iff.rfl

@[simp] theorem touches_change {ch : Change} : Touches σ key (.store (.change ch)) ↔ ch.Touches σ key := Iff.rfl

@[simp] theorem cancels_act : Cancels id key fp (.kerf (.act op sb)) := trivial

@[simp] theorem cancels_append {e : JournalEntry} :
    Cancels id key fp (.store (.append e)) ↔ e.sandboxID = id ∧ e.phase = .complete := Iff.rfl

@[simp] theorem cancels_tombstone :
    Cancels id key fp (.store (.change (.tombstone k f failure))) ↔ k = key ∧ f = fp ∧ failure.code = .aborted := Iff.rfl

@[simp] theorem cancels_abortCreate {i : String} :
    Cancels id key fp (.store (.change (.abortCreate i k f failure))) ↔
      i = id ∧ k = key ∧ f = fp ∧ failure.code = .aborted := Iff.rfl

end Rules

/-- Calls that change neither the store nor an instance. -/
inductive Reads : Call → Prop
  | aside {c : Call} (h : Aside c) : Reads c
  | poolReady : Reads .poolReady
  | setPoolReady (ready : Bool) : Reads (.setPoolReady ready)
  | ensurePool : Reads (.kerf .ensurePool)
  | releasePool : Reads (.kerf .releasePool)
  | observe (id : String) : Reads (.kerf (.observe id))
  | listInstances : Reads (.kerf .listInstances)
  | result (key : String) : Reads (.store (.result key))
  | sandbox (id : String) : Reads (.store (.sandbox id))
  | snapshot : Reads (.store .snapshot)
  | journalEntries : Reads (.store .journalEntries)

attribute [simp] Reads.aside Reads.poolReady Reads.setPoolReady Reads.ensurePool Reads.releasePool Reads.observe
  Reads.listInstances Reads.result Reads.sandbox Reads.snapshot Reads.journalEntries

@[simp] theorem Reads.touches (h : Reads c) : Touches σ key c := by
  cases h with
  | aside h => cases h <;> trivial
  | _ => trivial

@[simp] theorem Reads.cancels {fp : Fingerprint} (h : Reads c) : Cancels id key fp c := by
  cases h with
  | aside h => cases h <;> trivial
  | _ => trivial

/-- A cancellation touches the sandbox whose create it cancels. -/
theorem Cancels.touches {fp : Fingerprint} (h : Cancels σ.id key fp c) : Touches σ key c := by
  cases c with
  | store c =>
    cases c with
    | append e => exact ⟨h.1, fun hp => by simp [h.2] at hp⟩
    | change ch =>
      cases ch with
      | tombstone => exact h.1
      | abortCreate => exact ⟨h.1, h.2.1⟩
      | commit | commitFailure | setSandbox | removeSandbox => cases h
    | result | sandbox | snapshot | journalEntries => trivial
  | _ => trivial

/-- What an operation on `σ` may do in the backend: act on its instance with an
operation in `O`. -/
inductive Acts (O : KerfOp → Prop) (σ : Sandbox) : Call → Prop
  | aside {c : Call} (h : Outside c) : Acts O σ c
  | act {op : KerfOp} {sb : Sandbox} (hop : O op) (h : sb.Same σ) : Acts O σ (.kerf (.act op sb))

/-- Its steps also store its record. -/
inductive ActsOn (O : KerfOp → Prop) (σ : Sandbox) : Call → Prop
  | acts {c : Call} (h : Acts O σ c) : ActsOn O σ c
  | setSandbox {sb : Sandbox} (h : sb.Same σ) : ActsOn O σ (.store (.change (.setSandbox sb)))

attribute [simp] Acts.aside

/-- Any operation. -/
abbrev Works (σ : Sandbox) : Call → Prop := ActsOn (fun _ => True) σ

/-- Any operation on an instance that is there. -/
abbrev Moves (σ : Sandbox) : Call → Prop := Acts (· ≠ .create) σ

section ActsOn
variable {O : KerfOp → Prop} {σ sb : Sandbox}

@[simp] theorem acts_act : Acts O σ (.kerf (.act op sb)) ↔ O op ∧ sb.Same σ :=
  ⟨fun h => by cases h with
    | aside h => cases h
    | act hop h => exact ⟨hop, h⟩, fun h => .act h.1 h.2⟩

@[simp] theorem actsOn_setSandbox : ActsOn O σ (.store (.change (.setSandbox sb))) ↔ sb.Same σ :=
  ⟨fun h => by cases h with
    | acts h => cases h with | aside h => cases h
    | setSandbox h => exact h, .setSandbox⟩

theorem Acts.works (h : Acts O σ c) : Works σ c := by
  cases h with
  | aside h => exact .acts (.aside h)
  | act _ h => exact .acts (.act trivial h)

theorem ActsOn.works (h : ActsOn O σ c) : Works σ c := by
  cases h with
  | acts h => exact h.works
  | setSandbox h => exact .setSandbox h

end ActsOn

/-- A recovery also observes. -/
inductive Probes (O : KerfOp → Prop) (σ : Sandbox) : Call → Prop
  | acts {c : Call} (h : Acts O σ c) : Probes O σ c
  | observe (id : String) : Probes O σ (.kerf (.observe id))

/-- The recovery of a create brings the pool up. -/
inductive Resumes (σ : Sandbox) : Call → Prop
  | probes {O : KerfOp → Prop} {c : Call} (h : Probes O σ c) : Resumes σ c
  | poolReady : Resumes σ .poolReady
  | setPoolReady : Resumes σ (.setPoolReady true)
  | ensurePool : Resumes σ (.kerf .ensurePool)

attribute [simp] Probes.acts Probes.observe Resumes.poolReady Resumes.setPoolReady Resumes.ensurePool

/-- A create may work on the pool. -/
inductive Allocates (σ : Sandbox) : Call → Prop
  | works {c : Call} (h : Works σ c) : Allocates σ c
  | reads {c : Call} (h : Reads c) : Allocates σ c

attribute [simp] Allocates.works Allocates.reads

theorem Resumes.allocates (h : Resumes σ c) : Allocates σ c := by
  cases h with
  | probes h =>
    cases h with
    | acts h => exact .works h.works
    | observe => simp
  | _ => simp

theorem ActsOn.touches {O : KerfOp → Prop} (key : String) (h : ActsOn O σ c) : Touches σ key c := by
  cases h with
  | acts h =>
    cases h with
    | aside h => exact (Reads.aside h.aside).touches
    | act => trivial
  | setSandbox h => exact h

theorem Allocates.touches (h : Allocates σ c) : Touches σ key c := by
  cases h with
  | reads h => exact h.touches
  | works h => exact h.touches key

/-- What `mutate` itself does to complete an operation on `σ` that ends in
state `target`. -/
inductive Records (method : Method) (σ : Sandbox) (key : String) (target : State) : Call → Prop
  | env (c : EnvCall) : Records method σ key target (.env c)
  | result (key' : String) : Records method σ key target (.store (.result key'))
  | observe (id : String) : Records method σ key target (.kerf (.observe id))
  | append {e : JournalEntry} (hid : e.sandboxID = σ.id)
    (he : e.phase = .intent → e.idempotencyKey = key ∧ ∃ sb, e.sandbox = some sb ∧ sb.Same σ) :
    Records method σ key target (.store (.append e))
  | commit {sb : Sandbox} (fp : Fingerprint) (r : MutationResult) (h : sb.Same σ) (hstate : sb.state = target) :
    Records method σ key target (.store (.change (.commit sb key fp r)))
  | commitFailure {sb : Sandbox} (fp : Fingerprint) {e : Error} (h : sb.Same σ) (hcode : e.code = .operatorAction) :
    Records method σ key target (.store (.change (.commitFailure sb key fp e)))
  | setSandbox {sb : Sandbox} (h : sb.Same σ) : Records method σ key target (.store (.change (.setSandbox sb)))
  | removeSandbox {id : String} (hm : method = .createSandbox) (h : id = σ.id) :
    Records method σ key target (.store (.change (.removeSandbox id)))

attribute [simp] Records.env Records.result Records.observe

theorem Records.touches {method : Method} {target : State} (h : Records method σ key target c) : Touches σ key c := by
  cases h with
  | env | result | observe => trivial
  | append hid he => exact ⟨hid, he⟩
  | commit fp r h => exact ⟨h, rfl⟩
  | commitFailure fp h => exact ⟨h, rfl⟩
  | setSandbox h => exact h
  | removeSandbox _ h => exact h

/-- Recovery of an intent touches the sandbox it carries, under its key, and
acts on no other instance. -/
structure Handles (σ : Sandbox) (key : String) (c : Call) : Prop where
  touches : Touches σ key c
  acts : ∀ op sb, c = .kerf (.act op sb) → sb.Same σ

theorem Allocates.handles (h : Allocates σ c) : Handles σ key c := by
  refine ⟨h.touches, ?_⟩
  rintro op sb rfl
  cases h with
  | works h => cases h with | acts h => exact (acts_act.1 h).2
  | reads h => cases h with | aside h => cases h

@[simp] theorem handles_store {c : StoreCall} : Handles σ key (.store c) ↔ Touches σ key (.store c) :=
  ⟨Handles.touches, fun h => ⟨h, fun _ _ hc => by cases hc⟩⟩

namespace Service
variable {O : KerfOp → Prop} {s : Service} {σ : Sandbox} {key : String} {fp : Fingerprint} {method : Method} {intent : JournalEntry}
  {sb : Sandbox} {target : State}

/-! ## `mutate` -/

theorem records_mutateFailed (hsb : sb.Same σ) (hi : intent.sandboxID = σ.id) (e : Err) :
    Only (Records method σ key target) (mutateFailed method key fp intent sb e) := by
  refine Only.bind (by simp) fun observed => ?_
  refine Emits.guard ⟨.append hi (by simp), fun _ _ _ => trivial⟩ (fun _ => trivial) ?_
  refine Only.bind (by simp) fun updatedAt => ?_
  refine Emits.guard ?_ (fun _ => trivial) trivial
  refine sat_ite.2 ⟨fun hcode => ⟨?_, fun _ _ _ => trivial⟩, fun _ => sat_ite.2 ⟨fun h => ?_, fun _ => ?_⟩⟩
  · exact .commitFailure fp ⟨hsb.id, hsb.generation, hsb.config⟩ hcode
  · exact ⟨.removeSandbox h.1 hsb.id, fun _ _ _ => trivial⟩
  · exact ⟨.setSandbox ⟨hsb.id, hsb.generation, hsb.config⟩, fun _ _ _ => trivial⟩

theorem records_mutateUnconfirmed (hsb : sb.Same σ) (hi : intent.sandboxID = σ.id) :
    Only (Records method σ key target) (mutateUnconfirmed intent sb) := by
  refine Emits.guard ⟨.append hi (by simp), fun _ _ _ => trivial⟩ (fun _ => trivial) ?_
  refine Emits.guard ⟨.setSandbox ⟨hsb.id, hsb.generation, hsb.config⟩, fun _ _ _ => trivial⟩ (fun _ => trivial) trivial

theorem records_mutateConfirmed (hsb : sb.Same σ) (hstate : sb.state = target) (hi : intent.sandboxID = σ.id) :
    Only (Records method σ key target) (mutateConfirmed key fp intent sb) := by
  refine Emits.guard (by simp) (fun _ => trivial) (Only.bind (by simp) fun updatedAt => ?_)
  refine Emits.guard (by simp) (fun _ => trivial) (Emits.guard ⟨?_, fun _ _ _ => trivial⟩ (fun _ => trivial) ?_)
  · exact .commit fp _ ⟨hsb.id, hsb.generation, hsb.config⟩ hstate
  refine Emits.guard (by simp) (fun _ => trivial) (Emits.guard (by simp) (fun _ => trivial) ?_)
  refine Emits.guard ⟨.append hi (by simp), fun _ _ _ => trivial⟩ (fun _ => trivial) ?_
  exact Emits.guard (by simp) (fun _ => trivial) trivial

/-- The steps `p` of an operation on `σ` hand back the same sandbox, in state
`target` unless they fail. -/
def Steps (P : Call → Prop) (σ : Sandbox) (target : State) (p : Act (Sandbox × Option Err)) : Prop :=
  Emits P p fun r => r.1.Same σ ∧ (r.2 = none → r.1.state = target)

theorem Steps.mono {P' : Call → Prop} {p : Act (Sandbox × Option Err)} (h : Steps P σ target p) (hP : ∀ c, P c → P' c)
    : Steps P' σ target p :=
  Emits.mono h hP fun _ h => h

/-- An operation that finds its sandbox in the target state has no steps. -/
theorem steps_done (h : σ.state = target) : Steps P σ target (return (σ, none)) :=
  ⟨.refl σ, fun _ => h⟩

theorem records_mutateEnded {r : Sandbox × Option Err} (hr : r.1.Same σ ∧ (r.2 = none → r.1.state = target))
    (hi : intent.sandboxID = σ.id) :
    Only (Records method σ key target) (mutateEnded method key fp intent r) := by
  obtain ⟨sb, _ | e⟩ := r
  · refine Emits.guard (by simp) (fun _ => trivial) (Only.bind (by simp) fun actual => ?_)
    cases actual with
    | error e => exact records_mutateUnconfirmed hr.1 hi
    | ok actual =>
      exact Sat.unless (records_mutateConfirmed hr.1 (hr.2 rfl) hi) fun _ => records_mutateUnconfirmed hr.1 hi
  · exact records_mutateFailed hr.1 hi e

theorem records_replay : Only (Records method σ key target) (replay key fp) := by
  simp [replay, Option.forall]

/-- `mutate` records, and does what its steps do. -/
theorem emits_mutate {fn : Sandbox → Act (Sandbox × Option Err)} (hP : ∀ c, Records method σ key target c → P c)
    (hfn : Steps P σ target (fn σ)) : Only P (mutate method key fp σ fn) := by
  have hrec {α : Type} {p : Act α} {Q : α → Prop} (hp : Emits (Records method σ key target) p Q) : Emits P p Q :=
    hp.imp hP
  refine Emits.bind (hrec records_replay) fun r _ => ?_
  cases r with
  | some r => trivial
  | none =>
    refine Only.bind (hrec (by simp)) fun op => ?_
    refine Emits.guard (hrec (by simp)) (fun _ => trivial) ?_
    refine Emits.guard (hrec ⟨.append rfl fun _ => ⟨rfl, σ, rfl, .refl σ⟩, fun _ _ _ => trivial⟩) (fun _ => trivial) ?_
    refine Emits.guard (hrec (by simp)) (fun _ => trivial) (Emits.guard (hrec (by simp)) (fun _ => trivial) ?_)
    exact Emits.bind hfn fun r hr => hrec (records_mutateEnded hr rfl)

theorem touches_mutate {fn : Sandbox → Act (Sandbox × Option Err)} (hfn : Steps (Allocates σ) σ target (fn σ)) :
    Only (Touches σ key) (mutate method key fp σ fn) :=
  emits_mutate (fun _ h => h.touches) (hfn.mono fun _ h => h.touches)

/-! ## The steps of each operation -/

theorem allocates_ensurePool : Only (Allocates σ) ensurePool := by
  simp [ensurePool, Option.forall]

theorem allocates_releasePool : Only (Allocates σ) releasePool := by
  simp [releasePool, Option.forall]

/-- Provisioning and releasing storage hand back the same sandbox. -/
theorem acts_provisionStorage (ctx : Ctx) (hsb : sb.Same σ) :
    Emits (Acts O σ) (s.provisionStorage ctx sb) fun r => r.1.Same σ := by
  refine (s.apart_provisionStorage ctx sb).mono (fun c hc => .aside hc) ?_
  rintro ⟨_, e⟩ ⟨status, rfl⟩
  exact ⟨hsb.id, hsb.generation, hsb.config⟩

theorem acts_releaseStorage (ctx : Ctx) (hsb : sb.Same σ) :
    Emits (Acts O σ) (s.releaseStorage ctx sb) fun r => r.1.Same σ := by
  refine (s.apart_releaseStorage ctx sb).mono (fun c hc => .aside hc) ?_
  rintro ⟨_, e⟩ ⟨status, rfl⟩
  exact ⟨hsb.id, hsb.generation, hsb.config⟩

theorem acts_setSandbox (hsb : sb.Same σ) : Only (ActsOn O σ) (store.setSandbox sb) := by
  simp [hsb]

theorem acts_backend (hop : O op) (hsb : sb.Same σ) : Only (Acts O σ) (backend.act op sb) := by
  simp [hop, hsb]

theorem actsOn_of_acts {α : Type} {p : Act α} {Q : α → Prop} (h : Emits (Acts O σ) p Q) : Emits (ActsOn O σ) p Q :=
  h.imp (fun _ h => .acts h)

theorem Steps.allocates {p : Act (Sandbox × Option Err)} (h : Steps (ActsOn O σ) σ target p) : Steps (Allocates σ) σ target p :=
  h.mono fun _ h => .works h.works

/-- The steps of a create work on its sandbox; the first create also works on
the pool. -/
theorem steps_createFn {firstSandbox : Bool} (hsb : sb.Same σ) (hP : ∀ c, Works σ c → P c)
    (hpool : firstSandbox → Emits P ensurePool (fun _ => True) ∧ Only P releasePool) :
    Steps P σ .created (s.createFn firstSandbox sb) := by
  have hwork {α : Type} {p : Act α} {Q : α → Prop} (hp : Emits (Works σ) p Q) : Emits P p Q := hp.imp hP
  have hrollback : Only P (rollbackPool firstSandbox) :=
    sat_ite.2 ⟨fun h => (hpool h).2, fun _ => trivial⟩
  -- Every early return is an error, so only the last one must have reached CREATED.
  refine Emits.guard (hwork (acts_setSandbox hsb)) (fun e => ⟨hsb, fun h => by cases h⟩) ?_
  refine Emits.guard (sat_ite.2 ⟨fun h => (hpool h).1, fun _ => trivial⟩) (fun e => ⟨hsb, fun h => by cases h⟩) ?_
  refine Emits.guard (hwork (actsOn_of_acts (acts_backend trivial hsb))) (fun e => Emits.bind hrollback fun _ _ => ⟨hsb, ?_⟩) ?_
  · exact fun h => absurd h (Err.join_some_ne_none _ _)
  refine Emits.bind (hwork (actsOn_of_acts (acts_provisionStorage .request hsb))) fun r hr => ?_
  obtain ⟨sb, _ | e⟩ := r
  · refine Emits.guard (hwork (acts_setSandbox hr)) (fun e => ?_) ⟨⟨hr.id, hr.generation, hr.config⟩, fun _ => rfl⟩
    refine Emits.bind (hwork (actsOn_of_acts (acts_releaseStorage .detached hr))) fun r hr => ?_
    refine Emits.bind (hwork (actsOn_of_acts (acts_backend trivial hr))) fun _ _ => ⟨hr, ?_⟩
    exact fun h => absurd h (Err.join_some_ne_none _ _)
  · refine Emits.bind (hwork (actsOn_of_acts (acts_backend trivial hr))) fun _ _ => ?_
    refine Emits.bind hrollback fun _ _ => ⟨hr, ?_⟩
    exact fun h => absurd h (Err.join_some_ne_none _ _)

theorem allocates_createFn (firstSandbox : Bool) (hsb : sb.Same σ) :
    Steps (Allocates σ) σ .created (s.createFn firstSandbox sb) :=
  steps_createFn hsb (fun _ h => .works h) fun _ => ⟨allocates_ensurePool, allocates_releasePool⟩

theorem steps_transitionFn {intermediate : Option State} {fn : Sandbox → Act (Option Err)}
    (hfn : Only (Moves σ) (fn sb)) (hsb : sb.Same σ) :
    Steps (ActsOn (· ≠ .create) σ) σ target (transitionFn intermediate target fn sb) := by
  have hmoving : ({ sb with state := intermediate.getD sb.state } : Sandbox).Same σ :=
    ⟨hsb.id, hsb.generation, hsb.config⟩
  refine Emits.guard ?_ (fun e => ⟨hmoving, fun h => by cases h⟩) ?_
  · simp [hsb.id, hsb.generation, hsb.config]
  · exact Emits.guard (actsOn_of_acts hfn) (fun e => ⟨hmoving, fun h => by cases h⟩)
      ⟨⟨hsb.id, hsb.generation, hsb.config⟩, fun _ => rfl⟩

theorem steps_deleteFn (hsb : sb.Same σ) : Steps (ActsOn (· ≠ .create) σ) σ .absent (s.deleteFn sb) := by
  have hreleasing : ({ sb with state := .releasing } : Sandbox).Same σ := ⟨hsb.id, hsb.generation, hsb.config⟩
  refine Emits.guard (acts_setSandbox hreleasing) (fun e => ⟨hreleasing, fun h => by cases h⟩) ?_
  refine Emits.guard (sat_ite.2 ⟨fun _ => actsOn_of_acts (acts_backend (by simp) hreleasing), fun _ => trivial⟩)
    (fun e => ⟨hreleasing, fun h => by cases h⟩) ?_
  refine Emits.bind (actsOn_of_acts (acts_releaseStorage .request hreleasing)) fun r hr => ?_
  obtain ⟨sb, _ | e⟩ := r
  · exact Emits.guard (actsOn_of_acts (acts_backend (by simp) hr)) (fun e => ⟨hr, fun h => by cases h⟩)
      ⟨⟨hr.id, hr.generation, hr.config⟩, fun _ => rfl⟩
  · exact ⟨hr, fun h => by cases h⟩

theorem moves_loadFn (hsb : sb.Same σ) : Only (Moves σ) (s.loadFn sb) := by
  have haside (c : Call) (hc : Outside c) : Moves σ c := .aside hc
  refine Emits.bind ((s.apart_artifactsFor _).imp haside) fun r _ => ?_
  cases r with
  | error e => trivial
  | ok artifacts =>
    refine Emits.bind ((s.apart_bootFiles _ _).imp haside) fun r _ => ?_
    cases r with
    | error e => trivial
    | ok files =>
      refine Emits.bind (acts_provisionStorage .request hsb) fun r hr => ?_
      obtain ⟨sb, _ | e⟩ := r
      · exact acts_backend (by simp) hr
      · trivial

theorem moves_stopFn (hsb : sb.Same σ) :
    Only (Moves σ) (if sb.state = .loaded then return none else backend.stop sb) := by
  simp [hsb]

/-! ## Cancellation -/

section Cancel
variable {ctx : Ctx} {c : SandboxConfig} {failure : Error}

theorem cancels_cancelDependents (id : String) (state : State) (pending : List JournalEntry) :
    Only (Cancels id key fp) (cancelDependents id state pending) := by
  induction pending with
  | nil => trivial
  | cons e rest ih =>
    unfold cancelDependents
    split
    · exact ih
    · rename_i hid
      split
      · trivial
      · refine Emits.guard ?_ (fun _ => trivial) ih
        simp only [not_or, not_not] at hid
        simp [hid.1]

theorem cancels_cancelResources (sb : Sandbox) (hfailure : failure.code = .aborted) :
    Only (Cancels c.id key fp) (s.cancelResources ctx c key fp sb failure) := by
  refine Only.bind (by simp) fun r => ?_
  cases r with
  | error e => trivial
  | ok actual =>
    refine Sat.unless trivial fun _ => ?_
    refine Emits.bind (R := fun _ => True) ?_ fun r _ => ?_
    · refine Sat.unless ?_ fun _ => trivial
      exact (s.apart_releaseStorage ctx sb).mono (fun c hc => (Reads.aside hc.aside).cancels) fun _ _ => trivial
    · obtain ⟨sb, _ | e⟩ := r
      · refine Emits.guard ?_ (fun _ => trivial) ?_
        · refine Sat.unless trivial fun _ => Emits.guard (by simp) (fun _ => trivial) ?_
          refine Only.bind (by simp) fun r => ?_
          split <;> trivial
        · refine Emits.guard ?_ (fun _ => trivial) ?_
          · simp [cancelPool, Option.forall]
          · simp [Option.forall, hfailure]
      · trivial

theorem cancels_cancelOwned (entries : List JournalEntry) (hi : intent.sandboxID = c.id) (completed : Bool) (sb : Sandbox) :
    Only (Cancels c.id key fp) (s.cancelOwned ctx c key fp entries intent completed sb) := by
  refine Sat.unless trivial fun _ => ?_
  refine Emits.guard (by simp [hi]) (fun _ => trivial) ?_
  refine Emits.guard (cancels_cancelDependents _ _ _) (fun _ => trivial) ?_
  exact Emits.guard (by simp) (fun _ => trivial) (cancels_cancelResources sb rfl)

/-- The create that the scan finds is an intent of the key, with the input of
the request. -/
theorem scanCreate_found {entries : List JournalEntry} {found : Option JournalEntry} {completed : Bool}
    {r : Option JournalEntry × Bool} {i : JournalEntry} (h : scanCreate c key fp entries found completed = some r)
    (hi : r.1 = some i) :
    found = some i ∨ (i ∈ entries ∧ i.method = .createSandbox ∧ i.idempotencyKey = key ∧ i.phase = .intent ∧
      i.fingerprint = fp ∧ i.sandboxID = c.id ∧ i.sandbox.map (·.config) = some c) := by
  induction entries generalizing found completed with
  | nil =>
    cases h
    exact .inl hi
  | cons e rest ih =>
    have hrest {found' completed'} (h' : scanCreate c key fp rest found' completed' = some r)
        (hf : found' = some i → found = some i ∨ (i ∈ e :: rest ∧ i.method = .createSandbox ∧ i.idempotencyKey = key ∧
          i.phase = .intent ∧ i.fingerprint = fp ∧ i.sandboxID = c.id ∧ i.sandbox.map (·.config) = some c)) :=
      (ih h').elim hf fun ⟨hm, hx⟩ => .inr ⟨List.mem_cons_of_mem _ hm, hx⟩
    unfold scanCreate at h
    split at h
    · exact hrest h .inl
    · rename_i hkey
      split at h
      · cases h
      · rename_i hinput
        split at h
        · simp only [not_or, not_not] at hkey hinput
          exact hrest h fun he => .inr (by cases he; simp_all)
        · split at h <;> exact hrest h .inl

theorem cancels_cancelCreateLocked : Only (Cancels c.id key fp) (s.cancelCreateLocked ctx c key fp) := by
  refine Only.bind (by simp) fun r => Sat.unless trivial fun _ => ?_
  refine Only.bind (by simp) fun r => ?_
  cases r with
  | error e => trivial
  | ok entries =>
    cases hscan : scanCreate c key fp entries none false with
    | none => simp [hscan]
    | some found =>
      obtain ⟨found, completed⟩ := found
      simp only [hscan]
      refine Only.bind (by simp) fun r => ?_
      have hid {i} (hi : found = some i) : i.sandboxID = c.id :=
        ((scanCreate_found hscan hi).resolve_left (by simp)).2.2.2.2.2.1
      cases found with
      | none => cases r <;> simp [Option.forall, apierr]
      | some i =>
        cases r with
        | none =>
          cases hsb : i.sandbox with
          | none => simp [hsb]
          | some sb => simpa [hsb] using cancels_cancelOwned entries (hid rfl) completed sb
        | some sb => exact Sat.unless trivial fun _ => cancels_cancelOwned entries (hid rfl) completed sb

theorem cancels_cancelCreate : Only (Cancels c.id key (.create c)) (s.cancelCreate ctx c key) := by
  simp [cancelCreate, cancels_cancelCreateLocked]

end Cancel

/-! ## Requests -/

theorem touches_createAdmitted (c : SandboxConfig) (firstSandbox : Bool) (hc : σ.id = c.id) :
    Only (Touches σ key) (s.createAdmitted c key firstSandbox σ) := by
  refine Emits.bind (touches_mutate (allocates_createFn firstSandbox (.refl σ))) fun r _ => ?_
  cases r with
  | ok r => trivial
  | error apiErr =>
    have hcancel : Only (Touches σ key) (s.cancelCreateLocked .detached c key (.create c)) :=
      cancels_cancelCreateLocked.imp (fun _ h => Cancels.touches (hc ▸ h))
    exact Emits.guard (by simp [Ctx.err]) (fun _ => Emits.guard hcancel (fun _ => trivial) trivial) trivial

theorem emits_transitionFrom {source : List State} {intermediate : Option State} {target : State}
    {fn : Sandbox → Act (Option Err)} (hR : ∀ c, Records method σ key target c → P c)
    (hW : ∀ c, ActsOn (· ≠ .create) σ c → P c) (hfn : Only (Moves σ) (fn σ)) :
    Only P (transitionFrom σ id gen key method source intermediate target fn) := by
  refine Sat.unless trivial fun _ => ?_
  refine Emits.bind (records_replay.imp hR) fun r _ => ?_
  cases r with
  | some r => trivial
  | none =>
    refine sat_ite.2 ⟨fun h => ?_, fun _ => Sat.unless trivial fun _ => ?_⟩
    · exact emits_mutate hR (steps_done h)
    · exact emits_mutate hR ((steps_transitionFn hfn (.refl σ)).mono hW)

theorem emits_deleteFrom (hR : ∀ c, Records .deleteSandbox σ key .absent c → P c)
    (hW : ∀ c, ActsOn (· ≠ .create) σ c → P c) : Only P (s.deleteFrom σ id gen key) :=
  Sat.unless trivial fun _ => emits_mutate hR ((steps_deleteFn (.refl σ)).mono hW)

/-! ## Recovery -/

section Recovery
variable {actual : State}

theorem probes_of_acts {α : Type} {p : Act α} {Q : α → Prop} (h : Emits (Acts O σ) p Q) : Emits (Probes O σ) p Q :=
  h.imp (fun _ h => .acts h)

theorem resumes_of_probes {α : Type} {p : Act α} {Q : α → Prop} (h : Emits (Probes O σ) p Q) : Emits (Resumes σ) p Q :=
  h.imp (fun _ h => .probes h)

theorem resumes_ensurePool : Only (Resumes σ) ensurePool := by
  simp [ensurePool, Option.forall]

theorem probes_recoverObserve (hsb : sb.Same σ) (wanted : List State) (state : State) :
    Emits (Probes O σ) (recoverObserve sb wanted state) fun r => r.1.Same σ := by
  simp [recoverObserve, hsb]

theorem resumes_createMissing (hsb : sb.Same σ) : Only (Resumes σ) (createMissing sb actual) := by
  refine Sat.unless trivial fun _ => ?_
  exact Emits.guard resumes_ensurePool (fun _ => trivial)
    (resumes_of_probes (probes_of_acts (O := fun _ => True) (acts_backend trivial hsb)))

/-- The rest of a recovered create. -/
theorem probes_recoverCreated (hsb : sb.Same σ) (r : Except Err State) :
    Emits (Probes O σ) (s.recoverCreated sb r) fun r => r.1.Same σ := by
  cases r with
  | error e => exact hsb
  | ok actual =>
    refine Sat.unless hsb fun _ => ?_
    refine Emits.bind (probes_of_acts (acts_provisionStorage .request hsb)) fun r hr => ?_
    obtain ⟨sb, _ | e⟩ := r <;> exact hr

theorem resumes_recoverCreate (hsb : sb.Same σ) :
    Emits (Resumes σ) (s.recoverCreate sb actual) fun r => r.1.Same σ := by
  refine Emits.guard (resumes_createMissing hsb) (fun e => hsb) (resumes_of_probes (O := (· ≠ .create)) ?_)
  exact Only.bind (by simp) fun r => probes_recoverCreated hsb r

theorem probes_loadRecovered (hsb : sb.Same σ) :
    Emits (Probes (· ≠ .create) σ) (s.loadRecovered sb) fun r => r.1.Same σ := by
  have haside (c : Call) (hc : Outside c) : Probes (· ≠ .create) σ c := .acts (.aside hc)
  refine Emits.bind ((s.apart_artifactsFor _).imp haside) fun r _ => ?_
  cases r with
  | error e => exact hsb
  | ok artifacts =>
    refine Emits.bind ((s.apart_bootFiles _ _).imp haside) fun r _ => ?_
    cases r with
    | error e => exact hsb
    | ok files =>
      refine Emits.bind (probes_of_acts (acts_provisionStorage .request hsb)) fun r hr => ?_
      obtain ⟨sb, _ | e⟩ := r
      · exact Emits.bind (probes_of_acts (acts_backend (by simp) hr)) fun _ _ => hr
      · exact hr

theorem probes_recoverLoad (hsb : sb.Same σ) :
    Emits (Probes (· ≠ .create) σ) (s.recoverLoad sb actual) fun r => r.1.Same σ := by
  refine Emits.bind (Sat.unless (probes_loadRecovered hsb) fun _ => sat_pure.2 hsb) fun r hr => ?_
  obtain ⟨sb, _ | e⟩ := r
  · exact probes_recoverObserve hr _ _
  · exact hr

/-- A recovery that acts on the instance in one of its states. -/
theorem probes_act {c : Prop} [Decidable c] (hop : op ≠ .create) (hsb : sb.Same σ) :
    Only (Probes (· ≠ .create) σ) (if c then backend.act op sb else return none) :=
  Sat.unless (probes_of_acts (acts_backend hop hsb)) fun _ => trivial

theorem probes_recoverStart (hsb : sb.Same σ) :
    Emits (Probes (· ≠ .create) σ) (recoverStart sb actual) fun r => r.1.Same σ :=
  Emits.guard (probes_act (by simp) hsb) (fun _ => hsb) (probes_recoverObserve hsb _ _)

theorem probes_recoverStop (hsb : sb.Same σ) :
    Emits (Probes (· ≠ .create) σ) (s.recoverStop sb actual) fun r => r.1.Same σ := by
  refine Emits.guard (probes_act (by simp) hsb) (fun e => hsb) ?_
  refine Sat.unless ?_ fun _ => probes_recoverObserve hsb _ _
  refine Emits.bind (probes_of_acts (acts_releaseStorage .request hsb)) fun r hr => ?_
  obtain ⟨sb, _ | e⟩ := r <;> exact hr

theorem probes_recoverDelete (hsb : sb.Same σ) :
    Emits (Probes (· ≠ .create) σ) (s.recoverDelete sb actual) fun r => r.1.Same σ := by
  refine Emits.guard (probes_act (by simp) hsb) (fun e => hsb) ?_
  refine Emits.bind (Sat.unless (probes_of_acts (acts_releaseStorage .request hsb)) fun _ => sat_pure.2 hsb)
    fun r hr => ?_
  obtain ⟨sb, _ | e⟩ := r
  · exact Emits.guard (probes_act (by simp) hr) (fun e => hr) (probes_recoverObserve hr _ _)
  · exact hr

/-- Only the recovery of a create makes an instance or works on the pool. -/
theorem probes_recover (hsb : sb.Same σ) (hm : method ≠ .createSandbox) :
    Emits (Probes (· ≠ .create) σ) (s.recover method sb actual) fun r => r.1.Same σ := by
  cases method with
  | createSandbox => exact absurd rfl hm
  | loadSandbox => exact probes_recoverLoad hsb
  | startSandbox => exact probes_recoverStart hsb
  | stopSandbox => exact probes_recoverStop hsb
  | deleteSandbox => exact probes_recoverDelete hsb

theorem resumes_recover (hsb : sb.Same σ) : Emits (Resumes σ) (s.recover method sb actual) fun r => r.1.Same σ := by
  by_cases hm : method = .createSandbox
  · subst hm
    exact resumes_recoverCreate hsb
  · exact resumes_of_probes (probes_recover hsb hm)

theorem handles_reconcileIncomplete (hσ : intent.sandbox = some σ) (hi : intent.sandboxID = σ.id) :
    Only (Handles σ intent.idempotencyKey) (s.reconcileIncomplete intent) := by
  simp only [reconcileIncomplete, hσ]
  refine Only.bind ⟨(Allocates.reads (by simp)).handles, fun _ _ _ => trivial⟩ fun r => ?_
  cases r with
  | error e => trivial
  | ok actual =>
    refine Emits.bind ((resumes_recover (Sandbox.Same.refl σ)).imp (fun _ h => h.allocates.handles)) fun r hr => ?_
    obtain ⟨sb, e | state⟩ := r
    · have hsb : sb.id = σ.id ∧ sb.generation = σ.generation ∧ sb.config = σ.config := ⟨hr.id, hr.generation, hr.config⟩
      simp [recoverFail, Option.forall, Change.Touches, hi, hsb]
    · have hsb : sb.id = σ.id ∧ sb.generation = σ.generation ∧ sb.config = σ.config := ⟨hr.id, hr.generation, hr.config⟩
      simp [recoverFinish, Option.forall, Change.Touches, hi, hsb]

/-- What the recovery of the intents `pending` may do. -/
def Recovers (pending : List JournalEntry) (c : Call) : Prop :=
  ∃ i ∈ pending, ∃ σ, i.sandbox = some σ ∧ Handles σ i.idempotencyKey c

theorem recovers_reconcileIntents {pending todo : List JournalEntry} (hsub : ∀ i ∈ todo, i ∈ pending)
    (hid : ∀ i ∈ pending, ∀ sb, i.sandbox = some sb → i.sandboxID = sb.id) :
    Only (Recovers pending) (s.reconcileIntents todo) := by
  induction todo with
  | nil => trivial
  | cons i rest ih =>
    have hi := hsub i List.mem_cons_self
    refine Emits.guard ?_ (fun e => trivial) (ih fun j hj => hsub j (List.mem_cons_of_mem _ hj))
    cases hsb : i.sandbox with
    | none => simp [reconcileIncomplete, hsb]
    | some sb =>
      exact (handles_reconcileIncomplete hsb (hid i hi sb hsb)).imp (fun c hc => ⟨i, hi, sb, hsb, hc⟩)

/-- The last loop of `Reconcile` marks the records it lists. -/
inductive Marks (listed : List Sandbox) : Call → Prop
  | reads {c : Call} (h : Reads c) : Marks listed c
  | setSandbox {sb σ : Sandbox} (hσ : σ ∈ listed) (h : sb.Same σ) : Marks listed (.store (.change (.setSandbox sb)))

theorem marks_reconcileStates (pending : List String) (listed : List Sandbox) {todo : List Sandbox} (hsub : ∀ sb ∈ todo, sb ∈ listed) :
    Only (Marks listed) (reconcileStates pending todo) := by
  induction todo with
  | nil => trivial
  | cons sb rest ih =>
    have hrest := ih fun x hx => hsub x (List.mem_cons_of_mem _ hx)
    refine Only.bind ⟨.reads (by simp), fun _ _ _ => trivial⟩ fun r => ?_
    cases r with
    | error e => trivial
    | ok actual =>
      refine Sat.unless hrest fun _ => ?_
      refine Emits.guard ⟨.setSandbox (hsub sb List.mem_cons_self) ?_, fun _ _ _ => trivial⟩ (fun e => trivial) hrest
      exact ⟨rfl, rfl, rfl⟩

end Recovery

end Service

end Multikernel
