import Multikernel.Lifecycle.Results
/-!
# Replaying a request

A request that succeeded has its result under its key, and `Results` says that
the result stays. Repeating the key then answers from the store: the recorded
success for the same input, a conflict for another. But a request looks for
its result only after some checks of its own. A create first has its artifacts
approved; a load, start or stop first finds the generation it names. `Reaches`
says that the repeated request gets as far as the lookup.
-/

namespace Multikernel
open Lib

/-- What a request of fingerprint `fp'` is told once its key holds the success `x` of
fingerprint `fp`. -/
def recalled (fp fp' : Fingerprint) (x : MutationResult) : Response :=
  if fp' = fp then .ok { x with replayed := true }
  else .error (apierr .idempotencyConflict "idempotency key has different input" false)

/-- The artifacts a call asks about are approved. -/
def Approves (_ : World) (c : Call) (a : Answer) : Prop := ∀ x, c = .artifacts x → a.err = none

namespace Service

/-- The request gets to the lookup of its key. A load also asks whether its caller is
still there before it returns a conflict. -/
def Reaches (s : Service) (w : World) (as : List Answer) : Request → Prop
  | .create c key => s.validateCreate c = none ∧ Meets Host Approves ((Request.create c key).program s) w as
  | .load id gen key => (∃ sb, w.store.data.sandboxes.lookup id = some sb ∧ sb.generation = gen) ∧
      Meets Host Stays ((Request.load id gen key).program s) w as
  | .start id gen _ | .stop id gen _ => ∃ sb, w.store.data.sandboxes.lookup id = some sb ∧ sb.generation = gen
  | .delete _ _ _ => True
  | .cancelCreate _ _ => False

/-- The operation does not cancel the create of `k`: neither by name, nor because it is a
load of what that create made whose caller is gone. -/
def Spares (s : Service) (k : String) (fp : Fingerprint) (w : World) (op : Op) (as : List Answer) : Prop :=
  ∀ c, fp = .create c → op ≠ .request (.cancelCreate c k) ∧ ∀ id gen key, op = .request (.load id gen key) →
    w.store.Created c k id gen → Meets Host Stays (op.program s) w as

/-- `p` leaves `w` as it is, wherever it stops, and returns a value in `R`. -/
def Idle {α : Type} (E : Env) (p : Act α) (w : World) (R : α → Prop) : Prop :=
  Sat (Host.trans E) (fun w' _ => w' = w) p w fun r w' => w' = w ∧ R r

section Idle
variable {E : Env} {w : World} {α β : Type} {R : α → Prop}

theorem Idle.bind {p : Act β} {f : β → Act α} {T : β → Prop} (hp : Idle E p w T) (hf : ∀ r, T r → Idle E (f r) w R) :
    Idle E (p >>= f) w R := by
  refine Sat.bind hp ?_
  rintro r w' ⟨rfl, hr⟩
  exact hf r hr

theorem Idle.locked {l : Lock} {p : Act α} (hp : Idle E p w R) : Idle E (withLock l p) w R :=
  host_lock rfl (Idle.bind hp fun _ hr => host_unlock rfl ⟨rfl, hr⟩)

end Idle

/-! ## The artifacts of a create -/

section Artifacts
variable {s : Service} {E : Env} {w : World} {α : Type} {R : α → Prop}
  (hE : ∀ w c a, E w c a → Approves w c a)
include hE

theorem idle_artifacts {c : ArtifactCall} {f : c.Reply → Act α}
    (hf : ∀ a : Answer, a.err = none → Idle E (f (artifactReply a c)) w R) : Idle E (perform (.artifacts c) >>= f) w R := by
  refine host_perform rfl fun r a ha hr => ?_
  exact hr ▸ hf a (hE w _ a ha c rfl)

theorem idle_artifactsFor (manifest : String) : Idle E (s.artifactsFor manifest) w fun r => ∃ a, r = .ok a := by
  unfold artifactsFor
  refine Sat.unless ⟨rfl, _, rfl⟩ fun _ => idle_artifacts hE fun a ha => ?_
  simp only [artifactReply, ha]
  exact ⟨rfl, _, rfl⟩

theorem idle_openPreparedBoot (config : SandboxConfig) (artifacts : Artifacts) :
    Idle E (openPreparedBoot config artifacts) w fun r => ∃ files, r = .ok files := by
  refine idle_artifacts hE fun a ha => ?_
  simp only [artifactReply, ha]
  have hverify : Idle E (if artifacts.verifies then resolver.verifyPreparedInitramfs a.files.2 else return none) w (· = none) :=
    Sat.unless (idle_artifacts hE fun _ hb => ⟨rfl, hb⟩) fun _ => ⟨rfl, rfl⟩
  refine hverify.bind fun r hr => ?_
  subst hr
  exact ⟨rfl, _, rfl⟩

theorem idle_closeArtifacts (artifacts : Artifacts) : Idle E (closeArtifacts artifacts) w (· = none) := by
  unfold closeArtifacts
  split
  · exact ⟨rfl, rfl⟩
  · exact idle_artifacts hE fun _ ha => ⟨rfl, ha⟩

theorem idle_checkArtifacts (c : SandboxConfig) : Idle E (s.checkArtifacts c) w (· = none) := by
  refine Sat.unless ⟨rfl, rfl⟩ fun _ => (idle_artifactsFor hE _).bind ?_
  rintro _ ⟨artifacts, rfl⟩
  refine Idle.bind (T := (· = none)) (Sat.unless ((idle_openPreparedBoot hE c artifacts).bind ?_) fun _ => ⟨rfl, rfl⟩) ?_
  · rintro _ ⟨⟨directory, archive⟩, rfl⟩
    exact idle_artifacts hE fun _ ha => ⟨rfl, ha⟩
  · rintro _ rfl
    refine (idle_closeArtifacts hE artifacts).bind ?_
    rintro _ rfl
    exact ⟨rfl, rfl⟩

end Artifacts

/-! ## The lookup of each request -/

section Lookup
variable {s : Service} {E : Env} {w : World} {k : String} {fp : Fingerprint} {x : MutationResult}

/-- The lookup finds what the key holds. -/
theorem idle_replay {α : Type} {R : α → Prop} {fp' : Fingerprint} {f : Option Response → Act α}
    (hkey : printableASCII k 1 128) (hres : w.store.data.results.lookup k = some ⟨fp, .ok x⟩)
    (hf : Idle E (f (some (recalled fp fp' x))) w R) : Idle E (replay k fp' >>= f) w R := by
  unfold replay
  rw [if_neg (by simpa using hkey)]
  refine sat_bind.2 (host_result rfl ?_)
  rw [hres]
  refine sat_ite.2 ⟨fun hfp => ?_, fun hfp => ?_⟩
  · rw [recalled, if_neg fun h => hfp h.symm] at hf
    exact hf
  · rw [recalled, if_pos (not_not.1 hfp).symm] at hf
    exact hf

variable (hkey : printableASCII k 1 128) (hres : w.store.data.results.lookup k = some ⟨fp, .ok x⟩)
include hkey hres

theorem idle_transition {id gen : String} {method : Method} {source : List State} {intermediate : Option State}
    {target : State} {fn : Sandbox → Act (Option Err)}
    (hsb : ∃ sb, w.store.data.sandboxes.lookup id = some sb ∧ sb.generation = gen) :
    Idle E (transition id gen k method source intermediate target fn) w (· = recalled fp (.target method id gen) x) := by
  obtain ⟨sb, hsb, hgen⟩ := hsb
  refine Idle.locked (host_sandbox rfl ?_)
  rw [hsb]
  refine sat_ite.2 ⟨fun h => absurd hgen h, fun _ => ?_⟩
  exact idle_replay hkey hres ⟨rfl, rfl⟩

theorem idle_load {id gen : String} (hE : ∀ w c a, E w c a → Stays w c a)
    (hsb : ∃ sb, w.store.data.sandboxes.lookup id = some sb ∧ sb.generation = gen) :
    Idle E (s.load id gen k) w (· = recalled fp (.target .loadSandbox id gen) x) := by
  refine (idle_transition hkey hres hsb).bind fun r hr => ?_
  cases r with
  | ok r => exact ⟨rfl, hr⟩
  | error e =>
    -- The caller is still there, so nothing is cancelled.
    refine host_perform rfl fun gone a ha hgone => ?_
    have hstays : (w.ctx <|> a.err) = none := hE _ _ _ ha rfl
    have hctx : w.ctx = none := by
      cases h : w.ctx with
      | none => rfl
      | some e => simp [h] at hstays
    have hw : (step w (.env .ctxErr) a).1 = w := by
      show { w with ctx := w.ctx <|> a.err } = w
      rw [hstays, ← hctx]
    obtain rfl : none = gone := hstays.symm.trans hgone
    exact ⟨hw, hr⟩

theorem idle_delete {id gen : String} : Idle E (s.delete id gen k) w (· = recalled fp (.target .deleteSandbox id gen) x) :=
  Idle.locked (Idle.locked (idle_replay hkey hres ⟨rfl, rfl⟩))

theorem idle_create {c : SandboxConfig} (hE : ∀ w c a, E w c a → Approves w c a) (hvalid : s.validateCreate c = none) :
    Idle E (s.create c k) w (· = recalled fp (.create c) x) := by
  unfold create
  rw [hvalid]
  refine (idle_checkArtifacts hE c).bind ?_
  rintro _ rfl
  exact Idle.locked (idle_replay hkey hres ⟨rfl, rfl⟩)

end Lookup

/-- A request that reaches the lookup of a bound key has no effect and is told what the
key holds. -/
theorem exec_of_reaches {s : Service} {w : World} {fp : Fingerprint} {x : MutationResult} {r : Request}
    {as : List Answer} (hkey : printableASCII r.key 1 128)
    (hres : w.store.data.results.lookup r.key = some ⟨fp, .ok x⟩) (hreach : s.Reaches w as r) :
    (exec Host (r.program s) w as).1 = w ∧
      ∀ out, (exec Host (r.program s) w as).2 = some out → out = .response (recalled fp r.fingerprint x) := by
  have hexec {E : Env} {p : Act Response} {q : Response} (hp : Idle E p w (· = q))
      (has : Meets Host E (do return Outcome.response (← p)) w as) :
      (exec Host (do return Outcome.response (← p)) w as).1 = w ∧
        ∀ out, (exec Host (do return Outcome.response (← p)) w as).2 = some out → out = .response q := by
    have hout : Idle E (do return Outcome.response (← p)) w (· = .response q) := hp.bind fun r hr => ⟨rfl, by rw [hr]⟩
    exact ⟨Sat.exec_world hout (fun _ _ h => h) (fun _ _ h => h.1) as has,
      fun out hsome => (Sat.exec_result hout has (Prod.ext rfl hsome)).2⟩
  cases r with
  | create c key => exact hexec (idle_create hkey hres (fun _ _ _ h => h) hreach.1) hreach.2
  | load id gen key => exact hexec (idle_load hkey hres (fun _ _ _ h => h) hreach.1) hreach.2
  | start | stop => exact hexec (idle_transition hkey hres hreach) (meets_true Host _ w as)
  | delete id gen key => exact hexec (idle_delete hkey hres) (meets_true Host _ w as)
  | cancelCreate c key => cases hreach

/-! ## Every run -/

section Runs
variable {s : Service}

/-- The key stays bound to its success. -/
theorem stable_bound (k : String) (fp : Fingerprint) (y : MutationResult) :
    Stable k fp fun st => st.Binds k fp (· = .ok y) ∧ st.Free k := by
  refine ⟨fun st h => ⟨_, h.1.data.choose_spec.1⟩, fun w c a h hc => ⟨h.1.step hc a, ?_⟩⟩
  intro e he hk
  exact h.2 e (pending_of_elsewhere hc w a he hk) hk

/-- Operations that spare the create of the key leave its result. -/
theorem bound_after {k : String} {fp : Fingerprint} {y : MutationResult} {d : Daemon} {ts : List Turn}
    (hts : s.ConformingFrom (s.Spares k fp) d ts) (hkeyed : d.world.store.Keyed)
    (hd : d.world.store.Binds k fp (· = .ok y) ∧ d.world.store.Free k) :
    (run s.turn d ts).world.store.Binds k fp (· = .ok y) ∧ (run s.turn d ts).world.store.Free k := by
  have hinv := hts.inv (J := fun w => w.store.Keyed ∧ w.store.Binds k fp (· = .ok y) ∧ w.store.Free k)
    ⟨hkeyed, hd⟩ (fun _ h => h) (fun w st h hst => ?_) fun w op as h hspares => ⟨exec_keyed _ h.1 as, ?_⟩
  · exact hinv.2
  · have hfree : st.Free k := by
      rw [Store.Free, Store.pending, (Store.reopen_cases hst).1]
      exact h.2.2
    exact ⟨h.1.reopen hst, h.2.1.reopen hst, hfree⟩
  · have hkeeps {E : Env} (hcancel : ∀ c, fp = .create c → op ≠ .request (.cancelCreate c k) ∧
        ∀ id gen key, op = .request (.load id gen key) → w.store.Created c k id gen → ∀ w c a, E w c a → Stays w c a)
        (has : Meets Host E (op.program s) w as) := Sat.exec_world (keeps_boundOp (s := s) (stable_bound k fp y) h.1 h.2
          (.inr hcancel) fun _ => h.2.2) (fun _ _ h => h) (fun _ _ h => h) as has
    by_cases hstays : Meets Host Stays (op.program s) w as
    · exact hkeeps (fun c hfp => ⟨(hspares c hfp).1, fun _ _ _ _ _ _ _ _ h => h⟩) hstays
    · refine hkeeps (fun c hfp => ⟨(hspares c hfp).1, fun id gen key hop hcreated => ?_⟩) (meets_true Host _ w as)
      exact absurd ((hspares c hfp).2 id gen key hop hcreated) hstays

/-- What a served request settles, the daemon's store has. -/
theorem settles_outcome {d : Daemon} {r : Request} {as : List Answer} {x : MutationResult}
    (hok : s.outcome d ⟨.request r, as⟩ = some (.response (.ok x))) :
    Settles r.key r.fingerprint d.world.store (s.turn d ⟨.request r, as⟩).world.store x := by
  unfold Service.outcome at hok
  cases hw : d.begin (.request r) with
  | none => simp [hw] at hok
  | some w =>
    simp only [hw, Option.bind_some] at hok
    obtain ⟨-, hfresh⟩ := Option.ite_none_right_eq_some.1 hw
    have hstore : w.store = d.world.store := by
      rw [← Option.some.inj hfresh]
      rfl
    have hsat := settles_request (E := fun _ _ _ => True) (s := s) (w := w) r
    have hsettles := Sat.exec_result hsat (meets_true Host _ w as) (Prod.ext rfl hok) x rfl
    unfold Service.turn
    simp only [hw]
    exact hstore ▸ hsettles

/-- A request succeeds while no intent under its key is incomplete and the file has the
result of the key that memory has, if any, and what follows spares its create. Then a
request under the key that reaches its lookup returns, has no effect and is told the
recorded result, or that its input differs. -/
theorem recalled_of_reaches (s : Service) (ts₁ ts₂ : List Turn) (r r' : Request) (as as' : List Answer) (x : MutationResult)
    (w : World) (hfree : (s.after ts₁).world.store.Free r.key)
    (hstored : ∀ o, (s.after ts₁).world.store.data.results.lookup r.key = some o →
      (s.after ts₁).world.store.disk.results.lookup r.key = some o)
    (hok : s.outcome (s.after ts₁) ⟨.request r, as⟩ = some (.response (.ok x)))
    (hspares : s.ConformingFrom (s.Spares r.key r.fingerprint) (s.after (ts₁ ++ [⟨.request r, as⟩])) ts₂)
    (hw : (s.after (ts₁ ++ ⟨.request r, as⟩ :: ts₂)).begin (.request r') = some w) (hkey : r'.key = r.key)
    (hreach : s.Reaches w as' r') :
    (exec Host (r'.program s) w as').1 = w ∧
      (∀ out, (exec Host (r'.program s) w as').2 = some out → out = .response (recalled r.fingerprint r'.fingerprint x)) ∧
      ∀ f : Nat → Answer, ∃ n, (exec Host (r'.program s) w ((List.range n).map f)).2.isSome := by
  obtain ⟨hprint, hpending, ⟨y, hy, hxy⟩, hwritten⟩ := settles_outcome hok
  have hdisk : (s.turn (s.after ts₁) ⟨.request r, as⟩).world.store.disk.results.lookup r.key = some ⟨r.fingerprint, .ok y⟩ := by
    rcases hwritten with hsame | hwritten
    · rw [hsame] at hy ⊢
      exact hstored _ hy
    · exact hwritten.trans hy
  have hkeyed : (s.after (ts₁ ++ [⟨.request r, as⟩])).world.store.Keyed := s.after_keyed _
  rw [after, run_append] at hspares hkeyed
  rw [after, run_append] at hw
  obtain ⟨⟨⟨_, hres, rfl⟩, -⟩, -⟩ := bound_after (y := y) hspares hkeyed
    ⟨⟨⟨_, hy, rfl⟩, ⟨_, hdisk, rfl⟩⟩, fun e he => hfree e (hpending e he)⟩
  -- The repeated request starts with the store as the run left it.
  obtain ⟨-, hfresh⟩ := Option.ite_none_right_eq_some.1 hw
  have hstore : w.store.data.results.lookup r'.key = some ⟨r.fingerprint, .ok y⟩ := by
    rw [← Option.some.inj hfresh, hkey]
    exact hres
  have hsame : recalled r.fingerprint r'.fingerprint y = recalled r.fingerprint r'.fingerprint x := by
    rcases hxy with rfl | rfl <;> rfl
  obtain ⟨hworld, hout⟩ := exec_of_reaches (s := s) (hkey ▸ hprint) hstore hreach
  exact ⟨hworld, hsame ▸ hout, exec_returns Host _ w⟩

end Runs

/-- A sandbox is created. -/
def createdOnce : List Turn := [⟨.boot, working 0⟩, ⟨.request (.create (sampleConfig "a" 1) "k1"), working 1⟩]

def loadOnce : Request := .load "a" (hexGeneration 105) "k2"

/-- It is loaded, started, and the load is repeated. -/
def startedSince : List Turn :=
  createdOnce ++ [⟨.request loadOnce, working 2⟩, ⟨.request (.start "a" (hexGeneration 105) "k3"), working 3⟩]

theorem recalled_startedSince :
    ∃ x w, Service.outcome {} (after {} createdOnce) ⟨.request loadOnce, working 2⟩ = some (.response (.ok x)) ∧
      (after {} startedSince).begin (.request loadOnce) = some w ∧
      exec Host (loadOnce.program {}) w (working 4) = (w, some (.response (.ok { x with replayed := true }))) := by
  have hack : Service.acknowledges {} (after {} createdOnce) ⟨.request loadOnce, working 2⟩ := by decide +kernel
  obtain ⟨x, hx⟩ := outcome_of_acknowledges hack
  have hcheck : ((after {} startedSince).begin (.request loadOnce)).any fun w =>
      (w.store.data.sandboxes.lookup "a").any (·.generation = hexGeneration 105) &&
        passes Host (fun w _ a => (w.ctx <|> a.err).isNone) (loadOnce.program {}) w (working 4) &&
        (exec Host (loadOnce.program {}) w (working 4)).2.isSome := by
    decide +kernel
  obtain ⟨w, hw, hcheck⟩ := (Option.any_eq_true _ _).1 hcheck
  simp only [Bool.and_eq_true] at hcheck
  obtain ⟨⟨hsb, hpasses⟩, hend⟩ := hcheck
  obtain ⟨sb, hsb, hgen⟩ := (Option.any_eq_true _ _).1 hsb
  have hfree : (after {} createdOnce).world.store.Free loadOnce.key := by
    rw [Store.Free, show (after {} createdOnce).world.store.pending = [] by decide +kernel]
    exact fun e he => by cases he
  have hstays : Meets Host Stays (loadOnce.program {}) w (working 4) :=
    meets_of_passes Host (fun w c a h _ => by simpa using h) hpasses
  have hnew : (after {} createdOnce).world.store.data.results.lookup loadOnce.key = none := by decide +kernel
  obtain ⟨hworld, hout, -⟩ := recalled_of_reaches {} createdOnce
    [⟨.request (.start "a" (hexGeneration 105) "k3"), working 3⟩] loadOnce loadOnce (working 2) (working 4) x w hfree
    (fun o ho => absurd (hnew.symm.trans ho) (by simp)) hx
    (conforming_of_checks (b := fun _ _ _ => true) (fun _ _ _ _ c hc => by cases hc) (by decide +kernel)) hw rfl
    ⟨⟨sb, hsb, by simpa using hgen⟩, hstays⟩
  obtain ⟨out, hsome⟩ := Option.isSome_iff_exists.1 hend
  refine ⟨x, w, hx, hw, Prod.ext hworld ?_⟩
  rw [hsome, hout out hsome, recalled, if_pos rfl]

def isNotFound : Outcome → Bool
  | .response (.error e) => e.code = .notFound
  | _ => false

/-- It is loaded, deleted, and the load is repeated. -/
theorem not_recalled : ¬∀ (s : Service) (ts₁ ts₂ : List Turn) (r : Request) (as as' : List Answer) (x : MutationResult) (out : Outcome),
    s.outcome (s.after ts₁) ⟨.request r, as⟩ = some (.response (.ok x)) →
    (∀ t ∈ ts₂, ∀ c key, t.op ≠ .request (.cancelCreate c key)) →
    s.outcome (s.after (ts₁ ++ ⟨.request r, as⟩ :: ts₂)) ⟨.request r, as'⟩ = some out →
    out = .response (.ok { x with replayed := true }) := by
  intro h
  have hack : Service.acknowledges {} (after {} createdOnce) ⟨.request loadOnce, working 2⟩ := by decide +kernel
  obtain ⟨x, hx⟩ := outcome_of_acknowledges hack
  have hrepeat : (Service.outcome {} (after {} (createdOnce ++ [⟨.request loadOnce, working 2⟩,
      ⟨.request (.delete "a" (hexGeneration 105) "k3"), working 3⟩])) ⟨.request loadOnce, working 4⟩).any isNotFound := by
    decide +kernel
  obtain ⟨out, hout, hcode⟩ := (Option.any_eq_true _ _).1 hrepeat
  have hok := h {} createdOnce [⟨.request (.delete "a" (hexGeneration 105) "k3"), working 3⟩] loadOnce (working 2) (working 4)
    x out hx (by simp) hout
  subst hok
  cases hcode

end Service

end Multikernel
