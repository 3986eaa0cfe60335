import Multikernel.Lifecycle.Requests
/-!
# Stop before release

`Delete` must stop a running instance before it gives up its storage and
deletes it. It stops the instance when the durable label is RUNNING. A failed
stop can leave the label at STOPPING or RELEASING while the instance runs, and
the next delete then goes straight to the release (`not_rested`). Where the
label of a running instance is RUNNING, it does not (`rested_of_labelled`).
-/

namespace Multikernel
open Lib

/-- The call gives up the storage session of a sandbox or its instance. -/
inductive GivesUp : Call → Prop
  | exports (c : ExportCall) : GivesUp (.exports c)
  | server (c : ServerCall) : GivesUp (.server c)
  | delete (sb : Sandbox) : GivesUp (.kerf (.act .delete sb))

/-- The call gives up nothing while the instance of `id` runs: since the last
successful start no stop has succeeded. -/
def Rested (id : String) (w : World) (c : Call) : Prop := GivesUp c → id ∉ w.kernel.started

section Rules
variable {E : Env} {G : World → Call → Prop} {α : Type} {Q : α → World → Prop} {w : World}

/-- An action fails, or has its effect. -/
theorem host_act {op : KerfOp} {sb : Sandbox} {f : Option Err → Act α} (hG : G w (.kerf (.act op sb)))
    (herr : ∀ e w', w'.kernel.started = w.kernel.started → Ensures E G (f (some e)) w' Q)
    (hok : ∀ w', w'.kernel.started = w.kernel.startedAfter sb.id op → Ensures E G (f none) w' Q) :
    Ensures E G (backend.act op sb >>= f) w Q := by
  refine ⟨hG, fun r w' hr => ?_⟩
  obtain ⟨a, -, hr⟩ := hr
  have hk : (w.kernel.call a.err a.state a.instances (.act op sb)).1 = w'.kernel := congrArg (·.1.kernel) hr
  have hrep : (w.kernel.call a.err a.state a.instances (.act op sb)).2 = r := congrArg Prod.snd hr
  unfold Kernel.call at hk hrep
  cases ha : a.err with
  | none =>
    simp only [ha] at hk hrep
    exact hrep ▸ hok w' (hk ▸ rfl)
  | some e =>
    simp only [ha] at hk hrep
    exact hrep ▸ herr e w' (hk ▸ rfl)

end Rules

theorem started_of_looks {c : Call} (hc : Looks c) (w : World) (a : Answer) :
    (step w c a).1.kernel.started = w.kernel.started := by
  rw [(beside_of_looks hc w a).kernel]

theorem Peeks.rested {id : String} {c : Call} (h : Peeks c) (w : World) : Rested id w c := by
  intro hc
  cases h <;> cases hc

theorem Records.rested {method : Method} {σ : Sandbox} {key id : String} {target : State} {c : Call}
    (h : Records method σ key target c) (w : World) : Rested id w c := by
  intro hc
  cases h <;> cases hc

theorem started_of_records {method : Method} {σ : Sandbox} {key : String} {target : State} {c : Call}
    (h : Records method σ key target c) (w : World) (a : Answer) :
    (step w c a).1.kernel.started = w.kernel.started := by
  cases h with
  | env c => cases c <;> rfl
  | _ => rfl

namespace Service
variable {s : Service} {E : Env} {w : World} {sb : Sandbox} {id : String}

/-- Once the instance rests, releasing its storage and deleting it is safe. -/
theorem rested_deleteStopped (sb : Sandbox) (hid : sb.id = id) (hw : id ∉ w.kernel.started) :
    Ensures E (Rested id) (s.deleteStopped sb) w fun _ w' => id ∉ w'.kernel.started := by
  have hstorage : Emits Looks (s.releaseStorage .request sb) fun r => r.1.id = id := by
    refine (s.apart_releaseStorage .request sb).mono (fun _ h => .aside h.aside) ?_
    rintro ⟨_, e⟩ ⟨status, rfl⟩
    exact hid
  have hkeeps := host_keeps (E := E) (J := fun w' => id ∉ w'.kernel.started) hstorage hw
    fun w' c a hw' hc => by rwa [started_of_looks hc]
  have hrested : Ensures E (Rested id) (s.releaseStorage .request sb) w fun r w' => id ∉ w'.kernel.started ∧ r.1.id = id :=
    hkeeps.imp (fun _ _ h _ => h.1) fun _ _ h => h
  refine hrested.bind fun r w1 h1 => ?_
  obtain ⟨releasing, _ | e⟩ := r
  · refine host_act (fun _ => h1.1) (fun e w2 h2 => ?_) fun w2 h2 => ?_
    all_goals show id ∉ w2.kernel.started
    · rw [h2]
      exact h1.1
    · rw [h2]
      exact fun h => h1.1 (List.mem_of_mem_filter h)
  · exact h1.1

/-- A label RUNNING stops the instance first. -/
theorem rested_deleteFn (hid : sb.id = id) (hw : id ∈ w.kernel.started → sb.state = .running) :
    Ensures E (Rested id) (s.deleteFn sb) w fun _ w' => id ∈ w'.kernel.started → sb.state = .running := by
  refine host_change (fun hc => by cases hc) (fun _ _ _ => hw) ?_
  by_cases hrunning : sb.state = .running
  · rw [if_pos hrunning]
    refine host_act (fun hc => by cases hc) (fun _ _ _ _ => hrunning) fun w1 h1 => ?_
    have hstopped : id ∉ w1.kernel.started := by
      rw [h1]
      exact fun h => by simpa [hid] using List.of_mem_filter h
    exact Sat.mono (rested_deleteStopped { sb with state := .releasing } hid hstopped) fun _ _ _ _ => hrunning
  · rw [if_neg hrunning]
    have hidle : id ∉ w.kernel.started := fun h => hrunning (hw h)
    exact Sat.mono (rested_deleteStopped { sb with state := .releasing } hid hidle) fun _ _ h h' => absurd h' h

theorem rested_delete {gen key : String} (hkeyed : w.store.Keyed)
    (hK : ∀ sb, w.store.data.sandboxes.lookup id = some sb → id ∈ w.kernel.started → sb.state = .running) :
    Ensures E (Rested id) (s.delete id gen key) w fun _ _ => True := by
  refine host_delete (fun _ h => h.rested w) (fun _ _ => trivial) fun sb hsb => ?_
  refine Sat.unless ⟨fun _ => (Peeks.env _).rested w, trivial⟩ fun _ => ?_
  refine Sat.mono (host_mutate (J := fun w => id ∈ w.kernel.started → sb.state = .running) (hK sb hsb)
    (fun w _ _ hc => hc.rested w) (fun w c a hw hc => by rwa [started_of_records hc])
    ((steps_deleteFn (.refl sb)).mono fun _ _ => trivial) fun _ h => rested_deleteFn (hkeyed.sandboxes id sb hsb) h)
    fun _ w' _ => ⟨fun _ => (Peeks.env _).rested w', trivial⟩

end Service

/-- A delete finds the label of a running instance at RUNNING. -/
def Service.Labelled (w : World) (op : Op) (_ : List Answer) : Prop :=
  ∀ id gen key, op = .request (.delete id gen key) → ∀ sb, w.store.data.sandboxes.lookup id = some sb →
    id ∈ w.kernel.started → sb.state = .running

namespace Service

/-- In a run whose deletes find running instances labelled RUNNING, no delete
gives up a running instance or its storage. -/
theorem rested_of_labelled (s : Service) (ts : List Turn) (h : s.Conforming Labelled ts) :
    ∀ x ∈ s.runCalls .init ts, ∀ id gen key, x.1 = .request (.delete id gen key) → Rested id x.2.1 x.2.2 := by
  refine h.calls (J := fun w => w.store.Keyed) (P := fun op w c => ∀ id gen key, op = .request (.delete id gen key) → Rested id w c)
    Store.keyed_empty (fun _ h => h) (fun _ _ h hst => h.reopen hst) (fun _ op as hw _ => exec_keyed _ hw as) ?_
  rintro w _ as hkeyed hK x hx id gen key rfl
  have hp : Sat (Host.trans fun _ _ _ => True) (Rested id) (Op.program s (.request (.delete id gen key))) w fun _ _ => True :=
    (rested_delete hkeyed (hK id gen key rfl)).bind fun _ _ _ => trivial
  exact hp.calls (meets_true Host _ w as) x hx

/-- A sandbox is created, loaded, started and deleted. -/
def deletedRunning : List Turn :=
  [⟨.boot, working 0⟩, ⟨.request (.create (sampleConfig "a" 1) "k1"), working 1⟩,
    ⟨.request (.load "a" (hexGeneration 105) "k2"), working 2⟩, ⟨.request (.start "a" (hexGeneration 105) "k3"), working 3⟩,
    ⟨.request (.delete "a" (hexGeneration 105) "k4"), working 4⟩]

theorem rested_deletedRunning :
    (Service.after {} (deletedRunning.take 4)).world.kernel.started = ["a"] ∧
      (Service.after {} deletedRunning).world.kernel.inst.keys = [] ∧
      ∀ x ∈ Service.runCalls {} .init deletedRunning, ∀ id gen key, x.1 = .request (.delete id gen key) →
        Rested id x.2.1 x.2.2 := by
  refine ⟨by decide +kernel, by decide +kernel, rested_of_labelled {} deletedRunning (conforming_of_checks
    (b := fun w _ _ => w.kernel.started.all fun id => (w.store.data.sandboxes.lookup id).all (·.state = .running))
    (fun w op as h id gen key _ sb hsb hid => ?_) (by decide +kernel))⟩
  simpa [hsb] using List.all_eq_true.1 h id hid

def timedOut : Answer := { err := some { text := "timeout", deadlineExceeded := true } }

/-- The stop fails, and so does the observation after it: the label stays at
STOPPING. -/
def deletedStopping : List Turn :=
  deletedRunning.take 4 ++ [⟨.request (.stop "a" (hexGeneration 105) "k4"), (except 4 10 timedOut).set 11 timedOut⟩,
    ⟨.request (.delete "a" (hexGeneration 105) "k5"), working 5⟩]

def isDelete (c : Call) : Bool :=
  match c with
  | .kerf (.act .delete _) => true
  | _ => false

theorem not_rested : ¬∀ x ∈ Service.runCalls {} .init deletedStopping, ∀ id gen key,
    x.1 = .request (.delete id gen key) → Rested id x.2.1 x.2.2 := by
  intro h
  have hbad : (Service.runCalls {} .init deletedStopping).any (fun x =>
      x.1 = .request (.delete "a" (hexGeneration 105) "k5") && isDelete x.2.2 && "a" ∈ x.2.1.kernel.started) := by
    decide +kernel
  obtain ⟨⟨op, w, c⟩, hx, hbad⟩ := List.any_eq_true.1 hbad
  simp only [Bool.and_eq_true, decide_eq_true_eq] at hbad
  obtain ⟨⟨hop, hdelete⟩, hstarted⟩ := hbad
  have hc : GivesUp c := by
    unfold isDelete at hdelete
    split at hdelete
    · exact .delete _
    · cases hdelete
  exact h _ hx "a" _ _ hop hc hstarted

end Service

end Multikernel
