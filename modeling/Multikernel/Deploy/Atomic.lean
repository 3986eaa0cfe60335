import Multikernel.Deploy.Activate
/-!
# Activation and crashes

`activate_atomic_iff`: which failing calls leave the links or the selector
wrong, and on which hosts every crash leaves links that resolve. The links are
changed before the selector, so a new link leads through the old selector for a
while; after a failed sync of the selector the old links lead through the new one.
-/

namespace Multikernel.Deploy
open Lib
variable {c : Call} {α : Type}

/-! ## Crashes -/

theorem faulty_of_once {s s' : Recorded.World} {r : c.Reply} (h : Recorded.trans Once s c r s') :
    faulty Works fails s c r s' := by
  obtain ⟨a, hone, hstep⟩ := h
  cases a with
  | true =>
    cases hstep
    exact .inl ⟨rfl, rfl⟩
  | false =>
    cases hstep
    exact .inr ⟨hone.resolve_left (by simp), rfl, rfl⟩

theorem sat_once {p : Act α} {s : Recorded.World} {G : Recorded.World → Call → Prop} {Q : α → Recorded.World → Prop}
    (h : Sat (faulty Works fails) G p s Q) : Sat (Recorded.trans Once) G p s Q := by
  refine h.simulate (R := fun s' s => s' = s) rfl ?_ ?_ ?_
  · rintro _ s c r s' rfl - hr
    exact ⟨s', faulty_of_once hr, rfl⟩
  · rintro _ s c rfl hG
    exact hG
  · rintro _ s a rfl hQ
    exact hQ

/-- The links are files of the new deployment, and one of the two is selected. -/
structure Held (w : World) (id : String) (files : List String) (s : World) : Prop where
  deployments : s.deployments = w.deployments
  links : ∀ n ∈ s.links, n ∈ files
  current : s.current = w.current ∨ s.current = some id

/-- A call that makes no other link. -/
def Call.Within (id : String) (files : List String) : Call → Prop
  | .replace (.link n) => n ∈ files
  | .replace (.current i) => i = id
  | _ => True

section Crash
variable {w : World} {id : String} {files : List String} {s : Recorded.World}

/-- `p` keeps that wherever it is stopped. -/
abbrev Holds {α : Type} (w : World) (id : String) (files : List String) (p : Act α) (s : Recorded.World) (Q : α → Prop) : Prop :=
  Sat (faulty Works fails) (fun s _ => Held w id files s.1) p s fun a s => Held w id files s.1 ∧ Q a

theorem Held.works {s : World} (h : Held w id files s) (hc : c.Within id files) : Held w id files (works s c).1 := by
  cases c with
  | symlink t =>
    simp only [Deploy.works]
    split
    · exact h
    · exact ⟨h.deployments, h.links, h.current⟩
  | unlinkTemp t =>
    simp only [Deploy.works]
    split
    · exact ⟨h.deployments, h.links, h.current⟩
    · exact h
  | unlink name =>
    simp only [Deploy.works]
    split
    · exact ⟨h.deployments, fun n hn => h.links n (Finset.mem_of_mem_erase hn), h.current⟩
    · exact h
  | replace t =>
    simp only [Deploy.works]
    split
    · cases t with
      | link n =>
        refine ⟨h.deployments, fun m hm => ?_, h.current⟩
        rcases Finset.mem_insert.1 hm with rfl | hm
        · exact hc
        · exact h.links m hm
      | current i =>
        have hi : i = id := hc
        exact ⟨h.deployments, h.links, .inr (congrArg some hi)⟩
    · exact h
  | _ => exact h

theorem Held.faulty {s' : Recorded.World} {r : c.Reply} (h : Held w id files s.1) (hr : faulty Works fails s c r s')
    (hc : c.Within id files) : Held w id files s'.1 := by
  rcases hr with ⟨hworks, -⟩ | ⟨-, -, rfl⟩
  · have hs : (Deploy.works s.1 c).1 = s'.1 := congrArg Prod.fst hworks
    exact hs ▸ h.works hc
  · exact h

theorem Holds.of_emits {p : Act α} {Q : α → Prop} (hp : Emits (Call.Within id files) p Q) (h : Held w id files s.1) :
    Holds w id files p s Q := by
  have hsat := Emits.sat (T := Lib.faulty Works fails) (J := fun s => Held w id files s.1) hp h fun s c r s' hs hc hr => hs.faulty hr hc
  exact hsat.imp (fun _ _ hG => hG.1) fun _ _ hQ => hQ

theorem emits_sync (t : Target) : Only (Call.Within id files) (syncDirectory t) := by
  refine ⟨trivial, fun opened _ _ => ?_⟩
  cases opened with
  | false => trivial
  | true => exact ⟨trivial, fun _ _ _ => ⟨trivial, fun _ _ _ => trivial⟩⟩

theorem emits_abandon (t : Target) : Only (Call.Within id files) (abandon t) :=
  ⟨trivial, fun _ _ _ => trivial⟩

theorem emits_atomicSymlink {t : Target} (ht : (Call.replace t).Within id files) :
    Only (Call.Within id files) (atomicSymlink t) := by
  refine ⟨trivial, fun made _ _ => ?_⟩
  cases made with
  | false => trivial
  | true =>
    refine ⟨trivial, fun found _ _ => ?_⟩
    cases found with
    | true => trivial
    | false =>
      refine ⟨trivial, fun linked _ _ => ?_⟩
      cases linked with
      | false => trivial
      | true =>
        refine ⟨ht, fun replaced _ _ => ?_⟩
        cases replaced with
        | false => exact emits_abandon t
        | true =>
          refine (emits_sync t).bind fun synced => ?_
          cases synced with
          | false => exact emits_abandon t
          | true => trivial

theorem emits_unlinkEach (names : List String) : Only (Call.Within id files) (unlinkEach names) := by
  induction names with
  | nil => trivial
  | cons name names ih =>
    refine ⟨trivial, fun gone _ _ => ?_⟩
    cases gone with
    | failed => trivial
    | missing => exact ih
    | done =>
      refine (emits_sync _).bind fun synced => ?_
      cases synced with
      | false => trivial
      | true => exact ih

theorem emits_relinkEach {names : List String} (h : ∀ n ∈ names, n ∈ files) :
    Only (Call.Within id files) (relinkEach names) := by
  induction names with
  | nil => trivial
  | cons name names ih =>
    refine (emits_atomicSymlink (t := .link name) (h name List.mem_cons_self)).bind fun made => ?_
    cases made with
    | false => trivial
    | true => exact ih fun n hn => h n (List.mem_cons_of_mem _ hn)

theorem emits_rollback {p : Progress} (h : ∀ n ∈ p.removed, n ∈ files) :
    Only (Call.Within id files) (rollback p) := by
  refine (emits_unlinkEach _).bind fun gone => ?_
  cases gone with
  | false => trivial
  | true =>
    refine (emits_relinkEach fun n hn => h n (List.mem_reverse.1 hn)).bind fun _ => ?_
    trivial

/-- A link that is found is one of the new deployment, so none goes. -/
theorem holds_managedLink (name : String) (h : Held w id files s.1) :
    Holds w id files (managedLink name) s fun r => r = some true → name ∈ files := by
  refine ⟨h, fun found s' hr => ?_⟩
  have hs' := h.faulty hr trivial
  cases found with
  | false => exact ⟨hs', by simp⟩
  | true =>
    have hname : name ∈ files := by
      rcases hr with ⟨hworks, -⟩ | ⟨-, hfails, -⟩
      · have hfound : decide (name ∈ s.1.links) = true := congrArg Prod.snd hworks
        exact h.links name (of_decide_eq_true hfound)
      · cases hfails
    exact ⟨hs', fun r s'' hr' => ⟨hs'.faulty hr' trivial, fun _ => hname⟩⟩

theorem holds_linkEach (names created removed : List String) (hremoved : ∀ n ∈ removed, n ∈ files) (h : Held w id files s.1) :
    Holds w id files (linkEach files names created removed) s fun p => ∀ n ∈ p.removed, n ∈ files := by
  induction names generalizing created s with
  | nil => exact ⟨h, hremoved⟩
  | cons name names ih =>
    refine (holds_managedLink name h).bind ?_
    rintro managed s₁ ⟨h₁, hname⟩
    cases managed with
    | none => exact ⟨h₁, hremoved⟩
    | some managed =>
      by_cases hfile : name ∈ files
      · cases managed with
        | true => simpa [hfile] using ih created h₁
        | false =>
          simp only [hfile, Bool.false_eq_true, not_false_eq_true, and_self, if_true]
          refine (Holds.of_emits (emits_atomicSymlink (t := .link name) hfile) h₁).bind ?_
          rintro made s₂ ⟨h₂, -⟩
          cases made with
          | false => exact ⟨h₂, hremoved⟩
          | true => exact ih _ h₂
      · cases managed with
        | true => exact absurd (hname rfl) hfile
        | false => simpa [hfile] using ih created h₁

theorem holds_activate (hfiles : ∀ files', Ready w id files' → files' = files) (h : Held w id files w) :
    Holds w id files (activate id) (w, none) fun _ => True := by
  refine ⟨h, fun clear s₁ hr => ?_⟩
  have h₁ := h.faulty (s := (w, none)) hr trivial
  cases clear with
  | false => exact ⟨h₁, trivial⟩
  | true =>
    refine ⟨h₁, fun found s₂ hr₂ => ?_⟩
    have h₂ := h₁.faulty hr₂ trivial
    cases found with
    | none => exact ⟨h₂, trivial⟩
    | some files' =>
      have hready : Ready w id files' := by
        rcases hr with ⟨hworks, -⟩ | ⟨-, hfails, -⟩
        · rcases hr₂ with ⟨hworks₂, -⟩ | ⟨-, hfails, -⟩
          · have hs₁ : w = s₁.1 := congrArg Prod.fst hworks
            have hverify : s₁.1.verify id = some files' := congrArg Prod.snd hworks₂
            exact ⟨congrArg Prod.snd hworks, hs₁ ▸ hverify⟩
          · cases hfails
        · cases hfails
      obtain rfl := hfiles files' hready
      refine ⟨h₂, fun clear s₃ hr₃ => ?_⟩
      have h₃ := h₂.faulty hr₃ trivial
      cases clear with
      | false => exact ⟨h₃, trivial⟩
      | true =>
        refine (holds_linkEach LINKS [] [] (by simp) h₃).bind ?_
        rintro p s₄ ⟨h₄, hremoved⟩
        have hback : Only (Call.Within id _) (rollback p) := emits_rollback hremoved
        by_cases hfinished : p.finished
        · simp only [hfinished, if_true]
          refine (Holds.of_emits (emits_atomicSymlink (t := .current id) rfl) h₄).bind ?_
          rintro switched s₅ ⟨h₅, -⟩
          cases switched with
          | false => exact Holds.of_emits hback h₅
          | true => exact ⟨h₅, trivial⟩
        · simp only [hfinished]
          exact Holds.of_emits hback h₄

theorem Held.resolves {s : World} (h : Held w id files s) (hverify : w.verify id = some files)
    (hfiles : ∀ n ∈ files, w.Selects n) : Resolves s := by
  have hsame : ∀ i, s.verify i = w.verify i := by
    intro i
    rw [World.verify, World.verify, h.deployments]
  intro n hn
  have hin := h.links n hn
  rcases h.current with hcurrent | hcurrent
  · obtain ⟨i, old, hi, hold, hn⟩ := hfiles n hin
    exact ⟨i, old, hcurrent.trans hi, (hsame i).trans hold, hn⟩
  · exact ⟨id, files, hcurrent, (hsame id).trans hverify, hin⟩

theorem resolves_of_covered (h : Covered w id) (as : List Bool) (has : Meets Recorded Once (activate id) (w, none) as) :
    Resolves (exec Recorded (activate id) (w, none) as).1.1 := by
  by_cases hready : ∃ files, Ready w id files
  · obtain ⟨files, hready⟩ := hready
    obtain ⟨hlinks, hfiles⟩ := h.2 files hready
    have hone : ∀ files', Ready w id files' → files' = files := by
      intro files' hready'
      exact Option.some.inj (hready'.2.symm.trans hready.2)
    have hstart : Held w id files w := ⟨rfl, hlinks, .inl rfl⟩
    refine (sat_once (holds_activate hone hstart)).exec_world (J := fun s : Recorded.World => Resolves s.1) ?_ ?_ as has
    · intro s _ hs
      exact hs.resolves hready.2 hfiles
    · intro _ s hs
      exact hs.1.resolves hready.2 hfiles
  · -- The checks fail, so nothing is changed.
    have hsame : Sat (faulty Works fails) (fun s _ => s.1 = w) (activate id) (w, none) fun _ s => s.1 = w := by
      refine ⟨rfl, fun clear s₁ hr => ?_⟩
      rcases hr with ⟨hworks, -⟩ | ⟨-, rfl, rfl⟩
      · have hs₁ : w = s₁.1 := congrArg Prod.fst hworks
        have hclear : (w.current.all fun i => (w.verify i).isSome) = clear := congrArg Prod.snd hworks
        cases clear with
        | false => exact hs₁.symm
        | true =>
          refine ⟨hs₁.symm, fun found s₂ hr₂ => ?_⟩
          rcases hr₂ with ⟨hworks₂, -⟩ | ⟨-, rfl, rfl⟩
          · have hs₂ : (Deploy.works s₁.1 (.verify id)).1 = s₂.1 := congrArg Prod.fst hworks₂
            have hfound : s₁.1.verify id = found := congrArg Prod.snd hworks₂
            cases found with
            | none => exact (hs₁.trans hs₂).symm
            | some files => exact absurd ⟨files, hclear, hs₁ ▸ hfound⟩ hready
          · exact hs₁.symm
      · rfl
    refine (sat_once hsame).exec_world (J := fun s : Recorded.World => Resolves s.1) ?_ ?_ as has
    · rintro s _ rfl
      exact h.1
    · rintro _ s rfl
      exact h.1

/-! The other way, with the runs in which a wrong link is seen. -/

theorem meets_works (p : Act α) (s : Recorded.World) (n : Nat) : Meets Recorded Once p s (List.replicate n true) := by
  induction p generalizing s n with
  | ret a => trivial
  | call c k ih =>
    cases n with
    | zero => trivial
    | succ n => exact ⟨.inl rfl, ih _ _ n⟩

theorem meets_fault (p : Act α) (w : World) (n m : Nat) :
    Meets Recorded Once p (w, none) (List.replicate n true ++ false :: List.replicate m true) := by
  induction p generalizing w n with
  | ret a => trivial
  | call c k ih =>
    cases n with
    | zero => exact ⟨.inr rfl, meets_works _ _ m⟩
    | succ n => exact ⟨.inl rfl, ih _ _ n⟩

theorem exec_works {w w' : World} {o : Option Call} {r : c.Reply} {f : c.Reply → Act α} (hworks : works w c = (w', r))
    (as : List Bool) : exec Recorded (perform c >>= f) (w, o) (true :: as) = exec Recorded (f r) (w', o) as := by
  change exec Recorded (f (works w c).2) ((works w c).1, o) as = _
  rw [hworks]

theorem works_deployments (w : World) (c : Call) : (works w c).1.deployments = w.deployments := by
  cases c with
  | symlink t | unlink name | unlinkTemp t =>
    simp only [works]
    split <;> rfl
  | replace t =>
    simp only [works]
    split
    · cases t <;> rfl
    · rfl
  | _ => rfl

theorem exec_deployments (p : Act α) (s : Recorded.World) (as : List Bool) :
    (exec Recorded p s as).1.1.deployments = s.1.deployments := by
  refine exec_inv Recorded (J := fun s' : Recorded.World => s'.1.deployments = s.1.deployments) ?_ p rfl as
  intro s' c a hs
  cases a with
  | true => exact (works_deployments s'.1 c).trans hs
  | false => exact hs

theorem finish_works {p : Act α} {w : World} {Q : α → World → Prop} (h : Clean Works p w Q) :
    ∃ a w', finish Recorded p (w, none) (fun _ => true) = ((w', none), a) ∧ Q a w' := by
  induction p generalizing w with
  | ret a => exact ⟨a, w, rfl, h⟩
  | call c k ih => exact ih (works w c).2 (h.2 _ _ rfl)

/-- What is left when the loop has ended. -/
def switch (id : String) (p : Progress) : Act Bool := do
  if ← atomicSymlink (.current id) then
    return true
  else
    rollback p

/-- With every call working, the loop ends with the new deployment's links. -/
theorem exec_until_switch (hready : Ready w id files) (htemps : w.temps = []) (hlinks : ∀ n ∈ w.links, n ∈ LINKS) :
    ∃ n p w₁, w₁.current = w.current ∧ w₁.deployments = w.deployments ∧ (∀ n, n ∈ w₁.links ↔ n ∈ files) ∧
      Track w.links p w₁ ∧ ∀ as : List Bool, exec Recorded (activate id) (w, none) (List.replicate n true ++ as) =
        exec Recorded (switch id p) (w₁, none) as := by
  have hstart : Track w.links ⟨true, [], []⟩ w := ⟨htemps, by simp, by simp, by simp⟩
  have hloop := (fault_linkEach files w.links links_nodup [] [] hstart (by simp)).clean
  obtain ⟨p, w₁, hfinish, hfinished, htrack, hlooped⟩ := finish_works hloop
  have hall := hlooped.all (verify_subset hready.2) hlinks fun _ => False.elim
  refine ⟨steps Recorded (linkEach files LINKS [] []) (w, none) true + 3, p, w₁, hlooped.current, hlooped.deployments,
    fun n => by simpa using hall n, htrack, fun as => ?_⟩
  have hpreflight : ∀ create, works w (.preflight create) = (w, true) := fun create => by simp [works, hready.1]
  have hverify : works w (.verify id) = (w, some files) := by simp [works, hready.2]
  rw [List.replicate_succ, List.replicate_succ, List.replicate_succ]
  refine (exec_works (hpreflight false) _).trans ?_
  refine (exec_works hverify _).trans ?_
  refine (exec_works (hpreflight true) _).trans ?_
  refine (exec_bind_steps Recorded _ _ (w, none) true as).trans ?_
  rw [hfinish]
  simp only [hfinished, if_true]
  rfl

/-- Stopped before the switch, the new links lead through the old selector. -/
theorem selects_of_resolves (hready : Ready w id files) (htemps : w.temps = []) (hlinks : ∀ n ∈ w.links, n ∈ LINKS)
    (h : ∀ as, Meets Recorded Once (activate id) (w, none) as → Resolves (exec Recorded (activate id) (w, none) as).1.1) :
    ∀ n ∈ files, w.Selects n := by
  obtain ⟨k, p, w₁, hcurrent, hdeployments, hfiles, htrack, hexec⟩ := exec_until_switch hready htemps hlinks
  intro n hn
  have hmeets : Meets Recorded Once (activate id) (w, none) (List.replicate k true ++ []) := by
    rw [List.append_nil]
    exact meets_works _ _ k
  have hstopped : Resolves w₁ := by
    have hrun := h _ hmeets
    rw [hexec []] at hrun
    exact hrun
  obtain ⟨i, old, hi, hold, hin⟩ := hstopped n ((hfiles n).2 hn)
  rw [World.verify, hdeployments] at hold
  exact ⟨i, old, hcurrent.symm.trans hi, hold, hin⟩

/-- If the sync of the selector fails, the old links lead through the new one. -/
theorem links_of_resolves (hready : Ready w id files) (htemps : w.temps = []) (hlinks : ∀ n ∈ w.links, n ∈ LINKS)
    (h : ∀ as, Meets Recorded Once (activate id) (w, none) as → Resolves (exec Recorded (activate id) (w, none) as).1.1) :
    ∀ n ∈ w.links, n ∈ files := by
  obtain ⟨k, p, w₁, hcurrent, hdeployments, hfiles, htrack, hexec⟩ := exec_until_switch hready htemps hlinks
  have hput : (w₁.put (.current id)).temps = [] := htrack.temps
  have hback : Clean Works (do if ← abandon (.current id) then return true else rollback p) (w₁.put (.current id))
      fun _ w' => w'.current = some id ∧ w'.links = w.links := by
    refine (clean_abandon hput).bind ?_
    rintro _ _ ⟨rfl, rfl⟩
    have htrack' : Track w.links p (w₁.put (.current id)) := ⟨htrack.temps, htrack.created, htrack.removed, htrack.links⟩
    refine (clean_rollback htrack').mono ?_
    rintro r w' ⟨-, hcurrent', hlinks'⟩
    exact ⟨hcurrent', hlinks'⟩
  have hlexists : works w₁ (.lexists (.current id)) = (w₁, false) := by simp [works, htrack.temps]
  have hsymlink : works w₁ (.symlink (.current id)) = ({ w₁ with temps := [.current id] }, true) := by
    simp [works, htrack.temps]
  have hswitch : ∀ as : List Bool, exec Recorded (switch id p) (w₁, none) (List.replicate 4 true ++ false :: as) =
      exec Recorded (do if ← abandon (.current id) then return true else rollback p)
        (w₁.put (.current id), some (.openDir (.current id))) as := by
    intro as
    refine (exec_works (r := true) (show works w₁ (.mkdir (.current id)) = (w₁, true) from rfl) _).trans ?_
    refine (exec_works hlexists _).trans ?_
    refine (exec_works hsymlink _).trans ?_
    refine (exec_works (replace_temp htrack.temps) _).trans ?_
    rfl
  obtain ⟨m, hm⟩ := exec_returns Recorded (do if ← abandon (.current id) then return true else rollback p)
    (w₁.put (.current id), some (.openDir (.current id))) fun _ => true
  rw [List.map_const', List.length_range] at hm
  have hrun := h _ (meets_fault _ w (k + 4) m)
  have hdeployed := exec_deployments (activate id) (w, none) (List.replicate (k + 4) true ++ false :: List.replicate m true)
  rw [List.replicate_add, List.append_assoc, hexec, hswitch] at hrun hdeployed
  have hended := (sat_once (hback.faulty (.openDir (.current id)))).exec _ (meets_works _ _ m)
  generalize exec Recorded _ (w₁.put (.current id), some (.openDir (.current id))) (List.replicate m true) = out at hm hrun hdeployed hended
  obtain ⟨s, _ | r⟩ := out
  · cases hm
  obtain ⟨-, hselected, hsame⟩ := hended
  intro n hn
  obtain ⟨i, new, hi, hnew, hin⟩ := hrun n (hsame.symm.subset hn)
  cases hselected.symm.trans hi
  rw [World.verify, hdeployed] at hnew
  cases hready.2.symm.trans hnew
  exact hin

end Crash

/-- If one call fails, the tool leaves what it should unless that call is the
sync of a step or the look at a link that is to go. After a crash, with or without
such a failure before it, the links present lead to files of the selected
deployment exactly when they did before, no link is to go and none is new to the
deployment selected before. -/
theorem activate_atomic_iff (w : World) (id : String) (htemps : w.temps = []) (hlinks : ∀ n ∈ w.links, n ∈ LINKS) :
    (∀ as w' failed result, Meets Recorded Once (activate id) (w, none) as →
      exec Recorded (activate id) (w, none) as = ((w', failed), some result) →
      (Settled w id w' result ↔ ∀ c, failed = some c → ¬Unguarded w id c)) ∧
    ((∀ as, Meets Recorded Once (activate id) (w, none) as → Resolves (exec Recorded (activate id) (w, none) as).1.1) ↔
      Covered w id) := by
  constructor
  · intro as w' failed result has hexec
    have hsat := (sat_once (fault_activate htemps hlinks).sat).exec_result has hexec
    rcases hsat with ⟨hnone, hsettled⟩ | ⟨c, hc, hends⟩
    · cases hnone
      exact ⟨fun _ _ => nofun, fun _ => hsettled⟩
    · cases hc
      rw [settled_iff hends]
      exact ⟨fun hguarded c' hc' => Option.some.inj hc' ▸ hguarded, fun hguarded => hguarded c rfl⟩
  · constructor
    · intro h
      refine ⟨h [] trivial, fun files hready => ?_⟩
      exact ⟨links_of_resolves hready htemps hlinks h, selects_of_resolves hready htemps hlinks h⟩
    · exact resolves_of_covered

/-! ## Two hosts -/

def oldId : String := "0000000000000000000000000000000000000000000000000000000000000001"

def newId : String := "0000000000000000000000000000000000000000000000000000000000000002"

def modulesUnit : String := "systemd/multikernel-modules.service"

/-- A host whose deployment has these files and whose links are all there, with a
complete deployment installed beside it. -/
def installed (files : List String) : World where
  current := some oldId
  links := files.toFinset
  deployments := [(oldId, files), (newId, LINKS)]

theorem covered_installed : Covered (installed LINKS) newId := by
  have hold : (installed LINKS).verify oldId = some LINKS := by decide +kernel
  have hnew : (installed LINKS).verify newId = some LINKS := by decide +kernel
  have hselects : ∀ n ∈ LINKS, (installed LINKS).Selects n := fun n hn => ⟨oldId, LINKS, rfl, hold, hn⟩
  have hlinks : ∀ n ∈ (installed LINKS).links, n ∈ LINKS := fun n hn => List.mem_toFinset.1 hn
  refine ⟨fun n hn => hselects n (hlinks n hn), fun files hready => ?_⟩
  cases hready.2.symm.trans hnew
  exact ⟨hlinks, hselects⟩

/-- The files are the same and the directory of the selector cannot be made: the
tool raises and nothing has changed, and no crash shows a wrong link. -/
theorem activate_atomic_iff_mkdir :
    Settled (installed LINKS) newId
        (exec Recorded (activate newId) (installed LINKS, none) (List.replicate 51 true ++ [false])).1.1 false ∧
      ∀ as, Meets Recorded Once (activate newId) (installed LINKS, none) as →
        Resolves (exec Recorded (activate newId) (installed LINKS, none) as).1.1 := by
  have h := activate_atomic_iff (installed LINKS) newId rfl fun n hn => List.mem_toFinset.1 hn
  refine ⟨?_, h.2.2 covered_installed⟩
  have hfailed : (exec Recorded (activate newId) (installed LINKS, none) (List.replicate 51 true ++ [false])).1.2 =
      some (.mkdir (.current newId)) := by decide +kernel
  have hresult : (exec Recorded (activate newId) (installed LINKS, none) (List.replicate 51 true ++ [false])).2 =
      some false := by decide +kernel
  refine (h.1 _ _ _ false (meets_fault _ _ 51 0) (Prod.ext (Prod.ext rfl hfailed) hresult)).2 ?_
  rintro _ ⟨⟩ hunguarded
  exact hunguarded

/-- An older deployment without the modules unit is followed by a complete one. The sync
after the new link fails and the link stays; or the sync after the switch fails, and
the tool raises with the new deployment selected. -/
theorem activate_leaves_link :
    let w := installed (LINKS.filter (· ≠ modulesUnit))
    let link := List.replicate 17 true ++ false :: List.replicate 2 true
    let selector := List.replicate 62 true ++ false :: List.replicate 6 true
    (Meets Recorded Once (activate newId) (w, none) link ∧
      (exec Recorded (activate newId) (w, none) link).1.2 = some (.fsync (.link modulesUnit)) ∧
      (exec Recorded (activate newId) (w, none) link).2 = some false ∧
      modulesUnit ∉ w.links ∧ modulesUnit ∈ (exec Recorded (activate newId) (w, none) link).1.1.links) ∧
    (Meets Recorded Once (activate newId) (w, none) selector ∧
      (exec Recorded (activate newId) (w, none) selector).1.2 = some (.fsync (.current newId)) ∧
      (exec Recorded (activate newId) (w, none) selector).2 = some false ∧
      (exec Recorded (activate newId) (w, none) selector).1.1.current = some newId ∧ w.current ≠ some newId) := by
  refine ⟨⟨meets_fault _ _ 17 2, ?_⟩, ⟨meets_fault _ _ 62 6, ?_⟩⟩
  · decide +kernel
  · decide +kernel

end Multikernel.Deploy
