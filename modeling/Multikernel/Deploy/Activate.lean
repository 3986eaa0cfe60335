import Multikernel.Lib.Faults
import Mathlib.Data.Finset.Basic
/-!
# Activating a deployment

`activate` of `scripts/manage-runtime-deployment.py`. The managed links all lead
through the selector `current`; links are added and removed one by one, then the
selector is switched, and what was done is undone if a call fails.

A step counts as done only after its directory is synced. If that fails, the
step has had its effect and is not undone, and a failing `lstat` reads as "no
link". `fault_activate` says where the tool ends for each call that may fail.
-/

namespace Multikernel.Deploy
open Lib
variable {c : Call} {links : Finset String} {files : List String} {w : World} {id : String}

/-! ## The files of a deployment -/

/-- `LINKS`: the managed links, by the name inside a deployment. -/
def LINKS : List String := [
  "runtime.env", "mkruntime/config.json", "systemd/sys-fs-multikernel.mount", "systemd/mkruntimed.service",
  "systemd/multikernel-modules.service", "systemd/mknetd.service", "cni/10-multikernel.conf",
  "containerd/20-multikernel-runtime.toml", "libexec/build-runtime-container-initramfs.sh",
  "libexec/validate-runtime-oci.py", "libexec/materialize-runtime-binds.py", "libexec/validate-runtime-bootstrap.py",
  "libexec/validate-runtime-docker-root.py", "libexec/validate-runtime-root.py", "libexec/validate-runtime-image.py",
  "libexec/build-runtime-rootfs.py", "libexec/runtime_safe_publish.py", "libexec/runtime_support_exec.py",
  "libexec/runtime-storage-identity.py", "libexec/validate-runtime-storage-mount.py", "libexec/build-runtime-storage.py",
  "libexec/verify-runtime-rootfs.py", "libexec/guest/mk-agent-init", "libexec/guest/runtime-mediated-init"]

/-- `KNOWN_FILE_SETS`, each in the order of `LINKS`. -/
def knownFileSets : List (List String) := do
  let missing ← [[], ["libexec/validate-runtime-storage-mount.py"], ["libexec/runtime_support_exec.py"],
    ["libexec/runtime_support_exec.py", "libexec/validate-runtime-storage-mount.py"]]
  let modules ← [[], ["systemd/multikernel-modules.service"]]
  let docker ← [[], ["libexec/validate-runtime-docker-root.py"]]
  return LINKS.filter fun n => n ∉ missing ∧ n ∉ modules ∧ n ∉ docker

/-! ## The host -/

/-- A link that the tool makes: a managed one, or the selector with what it selects. -/
inductive Target where
  | link (name : String)
  | current (id : String)
  deriving DecidableEq, Repr

/-- The selector, the managed links that exist, temporary links, and the files of
the deployments whose contents are as their manifests say. -/
structure World where
  current : Option String
  links : Finset String
  temps : List Target := []
  deployments : List (String × List String)

/-- `verify_deployment`. -/
def World.verify (w : World) (id : String) : Option (List String) :=
  (w.deployments.lookup id).filter (· ∈ knownFileSets)

inductive Removal where
  | done | missing | failed
  deriving DecidableEq, Repr

inductive Call where
  /-- `preflight_links`, without and with the parent directories made. -/
  | preflight (create : Bool)
  | verify (id : String)
  /-- The `lstat` of `is_symlink`. -/
  | lstat (name : String)
  | readlink (name : String)
  | mkdir (t : Target)
  | lexists (t : Target)
  | symlink (t : Target)
  | replace (t : Target)
  /-- The three calls of `sync_directory`, on the link's directory. -/
  | openDir (t : Target)
  | fsync (t : Target)
  | close (t : Target)
  | unlink (name : String)
  | unlinkTemp (t : Target)
  deriving DecidableEq, Repr

@[reducible] def Call.Reply : Call → Type
  | .verify _ => Option (List String)
  | .readlink _ => Option Bool
  | .unlink _ | .unlinkTemp _ => Removal
  | _ => Bool

def World.put (w : World) : Target → World
  | .link name => { w with links := insert name w.links }
  | .current id => { w with current := some id }

/-- A call that works. -/
def works (w : World) : (c : Call) → World × c.Reply
  | .preflight _ => (w, w.current.all fun id => (w.verify id).isSome)
  | .verify id => (w, w.verify id)
  | .lstat name => (w, decide (name ∈ w.links))
  | .readlink name => (w, if name ∈ w.links then some true else none)
  | .mkdir _ => (w, true)
  | .lexists t => (w, decide (t ∈ w.temps))
  | .symlink t => if t ∈ w.temps then (w, false) else ({ w with temps := t :: w.temps }, true)
  | .replace t => if t ∈ w.temps then (({ w with temps := w.temps.erase t }).put t, true) else (w, false)
  | .openDir _ | .fsync _ | .close _ => (w, true)
  | .unlink name => if name ∈ w.links then ({ w with links := w.links.erase name }, .done) else (w, .missing)
  | .unlinkTemp t => if t ∈ w.temps then ({ w with temps := w.temps.erase t }, .done) else (w, .missing)

/-- A call that fails, without effect. `is_symlink` and `lexists` then say no. -/
def fails : (c : Call) → c.Reply
  | .preflight _ | .lstat _ | .mkdir _ | .lexists _ | .symlink _ | .replace _ | .openDir _ | .fsync _ | .close _ => false
  | .verify _ => (none : Option (List String))
  | .readlink _ => (none : Option Bool)
  | .unlink _ | .unlinkTemp _ => Removal.failed

abbrev DeployI : Interface := ⟨Call, Call.Reply⟩

/-- The answer says whether the call works. -/
abbrev Host : Machine DeployI := ⟨World, Bool, fun w c a => if a then works w c else (w, fails c)⟩

abbrev Act := Prog DeployI

def perform (c : Call) : Act c.Reply := Prog.perform (I := DeployI) c

/-! ## The tool

A result of `false` is an exception. -/

def syncDirectory (t : Target) : Act Bool := do
  let opened : Bool ← perform (.openDir t)
  if ¬opened then
    return false
  let synced : Bool ← perform (.fsync t)
  let closed : Bool ← perform (.close t)
  return synced && closed

/-- The handler of `atomic_symlink`. -/
def abandon (t : Target) : Act Bool := do
  let _ ← perform (.unlinkTemp t)
  return false

def atomicSymlink (t : Target) : Act Bool := do
  let made : Bool ← perform (.mkdir t)
  if ¬made then
    return false
  let found : Bool ← perform (.lexists t)
  if found then
    return false
  let linked : Bool ← perform (.symlink t)
  if ¬linked then
    return false
  let replaced : Bool ← perform (.replace t)
  if replaced then
    if ← syncDirectory t then
      return true
    else
      abandon t
  else
    abandon t

/-- `managed_link`. -/
def managedLink (name : String) : Act (Option Bool) := do
  let found : Bool ← perform (.lstat name)
  if found then
    perform (.readlink name)
  else
    return some false

/-- The variables of the loop: whether it was left by an exception, and what is
to be undone. -/
structure Progress where
  finished : Bool
  created : List String
  removed : List String
  deriving DecidableEq, Repr

def linkEach (files : List String) : List String → List String → List String → Act Progress
  | [], created, removed => return ⟨true, created, removed⟩
  | name :: names, created, removed => do
    match ← managedLink name with
    | none => return ⟨false, created, removed⟩
    | some managed =>
      if name ∈ files ∧ ¬managed then
        if ← atomicSymlink (.link name) then
          linkEach files names (created ++ [name]) removed
        else
          return ⟨false, created, removed⟩
      else if name ∉ files ∧ managed then
        let gone : Removal ← perform (.unlink name)
        if gone ≠ .done then
          return ⟨false, created, removed⟩
        if ← syncDirectory (.link name) then
          linkEach files names created (removed ++ [name])
        else
          return ⟨false, created, removed⟩
      else
        linkEach files names created removed

/-- The first loop of the handler; a link that is not there is passed over. -/
def unlinkEach : List String → Act Bool
  | [] => return true
  | name :: names => do
    match ← perform (.unlink name) with
    | .failed => return false
    | .missing => unlinkEach names
    | .done =>
      if ← syncDirectory (.link name) then
        unlinkEach names
      else
        return false

def relinkEach : List String → Act Bool
  | [] => return true
  | name :: names => do
    if ← atomicSymlink (.link name) then
      relinkEach names
    else
      return false

/-- The handler of `activate`. -/
def rollback (p : Progress) : Act Bool := do
  if ← unlinkEach p.created.reverse then
    let _ ← relinkEach p.removed.reverse
    return false
  else
    return false

def activate (id : String) : Act Bool := do
  let clear : Bool ← perform (.preflight false)
  if ¬clear then
    return false
  match ← perform (.verify id) with
  | none => return false
  | some files =>
    let clear : Bool ← perform (.preflight true)
    if ¬clear then
      return false
    let p ← linkEach files LINKS [] []
    if p.finished then
      if ← atomicSymlink (.current id) then
        return true
      else
        rollback p
    else
      rollback p

/-! ## What is asked of it -/

/-- The deployment that is selected has this file. -/
def World.Selects (w : World) (name : String) : Prop :=
  ∃ id files, w.current = some id ∧ w.verify id = some files ∧ name ∈ files

/-- The links present lead to files of the deployment that is selected. -/
def Resolves (w : World) : Prop := ∀ name ∈ w.links, w.Selects name

/-- After the tool: as before if it has raised, and the new deployment otherwise. -/
def Settled (w : World) (id : String) (w' : World) (result : Bool) : Prop :=
  if result then w'.current = some id ∧ ∃ files, w.verify id = some files ∧ w'.links = files.toFinset
  else w'.current = w.current ∧ w'.links = w.links

/-- A call whose failure is not undone: the sync of a step that has had its
effect, or the look at a link that is to go. -/
def Unguarded (w : World) (id : String) : Call → Prop
  | .openDir (.link _) | .fsync (.link _) | .close (.link _) => True
  | .openDir (.current _) | .fsync (.current _) | .close (.current _) => w.current ≠ some id
  | .lstat name => name ∈ w.links ∧ ∀ files, w.verify id = some files → name ∉ files
  | _ => False

/-- The checks before anything is changed pass, and these are the files. -/
def Ready (w : World) (id : String) (files : List String) : Prop :=
  (w.current.all fun i => (w.verify i).isSome) = true ∧ w.verify id = some files

/-- No link goes, and none is new to the deployment selected before. -/
def Covered (w : World) (id : String) : Prop :=
  Resolves w ∧ ∀ files, Ready w id files → (∀ name ∈ w.links, name ∈ files) ∧ ∀ name ∈ files, w.Selects name

/-- The host with a record of the call that has failed. -/
abbrev Recorded : Machine DeployI := Host.recording (! ·)

/-- At most one call fails. -/
def Once (w : Recorded.World) (_ : Call) (a : Bool) : Prop := a = true ∨ w.2 = none

/-! ## One link -/

def Works : Trans DeployI World := fun w c r w' => works w c = (w', r)

section Steps
variable {α : Type} {w w' : World} {c : Call} {r : c.Reply} {f : c.Reply → Act α} {Q ok : α → World → Prop}
  {bad : Call → α → World → Prop}

theorem clean_step (hworks : works w c = (w', r)) (h : Clean Works (f r) w' Q) : Clean Works (perform c >>= f) w Q := by
  refine ⟨trivial, fun r₁ w₁ hr => ?_⟩
  cases hworks.symm.trans hr
  exact h

theorem fault_step (hworks : works w c = (w', r)) (hbad : Clean Works (f (fails c)) w (bad c))
    (hok : OneFault Works fails (f r) w' ok bad) : OneFault Works fails (perform c >>= f) w ok bad := by
  refine ⟨hbad, fun r₁ w₁ hr => ?_⟩
  cases hworks.symm.trans hr
  exact hok

end Steps

/-- A call of `sync_directory`. -/
def Call.syncs (c : Call) (t : Target) : Prop := c = .openDir t ∨ c = .fsync t ∨ c = .close t

/-- A call of `atomic_symlink` without which there is no link. -/
def Call.makes (c : Call) (t : Target) : Prop := c = .mkdir t ∨ c = .symlink t ∨ c = .replace t

section Links
variable {w : World} {t : Target}

theorem fault_sync (t : Target) (w : World) :
    OneFault Works fails (syncDirectory t) w (fun r w' => r = true ∧ w' = w)
      fun c r w' => c.syncs t ∧ r = false ∧ w' = w := by
  refine fault_step rfl ⟨.inl rfl, rfl, rfl⟩ ?_
  refine fault_step rfl ?_ (fault_step rfl ⟨.inr (.inr rfl), rfl, rfl⟩ ⟨rfl, rfl⟩)
  exact clean_step rfl ⟨.inr (.inl rfl), rfl, rfl⟩

theorem clean_sync (t : Target) (w : World) : Clean Works (syncDirectory t) w fun r w' => r = true ∧ w' = w :=
  (fault_sync t w).clean

theorem clean_abandon (h : w.temps = []) : Clean Works (abandon t) w fun r w' => r = false ∧ w' = w := by
  have hmissing : works w (.unlinkTemp t) = (w, .missing) := by simp [works, h]
  exact clean_step hmissing ⟨rfl, rfl⟩

theorem put_temps (w : World) (t : Target) : (w.put t).temps = w.temps := by cases t <;> rfl

theorem replace_temp (h : w.temps = []) : works { w with temps := [t] } (.replace t) = (w.put t, true) := by
  obtain ⟨current, links, temps, deployments⟩ := w
  cases h
  cases t <;> simp [works, World.put]

/-- A new link is there, or it is not, or it is there and not synced. -/
theorem fault_atomicSymlink (h : w.temps = []) :
    OneFault Works fails (atomicSymlink t) w (fun r w' => r = true ∧ w' = w.put t) fun c r w' =>
      (c = .lexists t ∧ r = true ∧ w' = w.put t) ∨ (c.syncs t ∧ r = false ∧ w' = w.put t) ∨
        (c.makes t ∧ r = false ∧ w' = w) := by
  have hput : (w.put t).temps = [] := (put_temps w t).trans h
  have hlexists : works w (.lexists t) = (w, false) := by simp [works, h]
  have hsymlink : works w (.symlink t) = ({ w with temps := [t] }, true) := by simp [works, h]
  have hreplaced : Clean Works (do
      let replaced : Bool ← perform (.replace t)
      if replaced then if ← syncDirectory t then return true else abandon t else abandon t) { w with temps := [t] }
      fun r w' => r = true ∧ w' = w.put t := by
    refine clean_step (replace_temp h) ((clean_sync t _).bind ?_)
    rintro _ _ ⟨rfl, rfl⟩
    exact ⟨rfl, rfl⟩
  refine fault_step rfl (.inr (.inr ⟨.inl rfl, rfl, rfl⟩)) ?_
  refine fault_step hlexists ?_ ?_
  · -- A failed look for a temporary link finds none.
    exact clean_step hsymlink (hreplaced.mono fun _ _ hr => .inl ⟨rfl, hr⟩)
  refine fault_step hsymlink (.inr (.inr ⟨.inr (.inl rfl), rfl, rfl⟩)) ?_
  refine fault_step (replace_temp h) ?_ ?_
  · have hgone : works { w with temps := [t] } (.unlinkTemp t) = (w, .done) := by
      obtain ⟨current, links, temps, deployments⟩ := w
      cases h
      simp [works]
    exact clean_step hgone (.inr (.inr ⟨.inr (.inr rfl), rfl, rfl⟩))
  refine (fault_sync t _).bind ?_ ?_
  · rintro _ _ ⟨rfl, rfl⟩
    exact ⟨rfl, rfl⟩
  · rintro c _ _ ⟨hc, rfl, rfl⟩
    exact (clean_abandon hput).mono fun _ _ hr => .inr (.inl ⟨hc, hr⟩)

theorem clean_atomicSymlink (h : w.temps = []) :
    Clean Works (atomicSymlink t) w fun r w' => r = true ∧ w' = w.put t :=
  (fault_atomicSymlink h).clean

/-- `managed_link`, for a link that is there or is not. -/
theorem fault_managedLink (name : String) (w : World) :
    OneFault Works fails (managedLink name) w (fun r w' => r = some (decide (name ∈ w.links)) ∧ w' = w) fun c r w' =>
      w' = w ∧ ((c = .lstat name ∧ r = some false) ∨ (c = .readlink name ∧ r = none)) := by
  by_cases hname : name ∈ w.links
  · have hlstat : works w (.lstat name) = (w, true) := by simp [works, hname]
    have hreadlink : works w (.readlink name) = (w, some true) := by simp [works, hname]
    refine fault_step hlstat ⟨rfl, .inl ⟨rfl, rfl⟩⟩ ⟨⟨rfl, .inr ⟨rfl, rfl⟩⟩, fun r w' hr => ?_⟩
    cases hreadlink.symm.trans hr
    exact ⟨by simp [hname], rfl⟩
  · have hlstat : works w (.lstat name) = (w, false) := by simp [works, hname]
    exact fault_step hlstat ⟨rfl, .inl ⟨rfl, rfl⟩⟩ ⟨by simp [hname], rfl⟩

end Links

/-! ## The loop -/

/-- What can be undone: what was created and removed leads from `e` to here. -/
structure Track (e : Finset String) (p : Progress) (w : World) : Prop where
  temps : w.temps = []
  created : ∀ n ∈ p.created, n ∉ e
  removed : ∀ n ∈ p.removed, n ∈ e
  links : ∀ n, n ∈ w.links ↔ (n ∈ e ∧ n ∉ p.removed) ∨ n ∈ p.created

/-- The links after the loop over `names`: those of the deployment, and those
that were kept by mistake. -/
structure Looped (files names : List String) (kept : String → Prop) (w w' : World) : Prop where
  temps : w'.temps = []
  current : w'.current = w.current
  deployments : w'.deployments = w.deployments
  links : ∀ n, n ∈ w'.links ↔ if n ∈ names then n ∈ files ∨ kept n else n ∈ w.links

/-- Links before a call failed that was not undone. -/
def toggled (links : Finset String) : Call → Finset String
  | .openDir (.link n) | .fsync (.link n) | .close (.link n) => if n ∈ links then links.erase n else insert n links
  | _ => links

/-- A call that raises when it fails. -/
def Call.raises : Call → Prop
  | .lstat _ | .lexists _ | .openDir (.current _) | .fsync (.current _) | .close (.current _) => False
  | _ => True

/-- A call whose failure goes unnoticed. -/
def Call.silent : Call → Prop
  | .lstat _ | .lexists _ => True
  | _ => False

section Loop
variable {files names created removed : List String} {name : String} {w w₀ w' : World} {e : Finset String} {fin fin' : Bool}

/-- One name, and then the others. -/
theorem Looped.cons {kept : String → Prop} {w'' : World} (h : Looped files names kept w' w'')
    (hcurrent : w'.current = w.current) (hdeployments : w'.deployments = w.deployments) (hname : name ∉ names)
    (hfirst : name ∈ w'.links ↔ name ∈ files ∨ kept name) (hothers : ∀ n, n ≠ name → (n ∈ w'.links ↔ n ∈ w.links)) :
    Looped files (name :: names) kept w w'' where
  temps := h.temps
  current := h.current.trans hcurrent
  deployments := h.deployments.trans hdeployments
  links := by
    intro n
    rw [h.links n]
    by_cases hn : n = name
    · subst hn
      simp [hname, hfirst]
    · simp [hn, hothers n hn]

theorem clean_linkEach (files : List String) {names : List String} (hnodup : names.Nodup) (created removed : List String)
    (htemps : w.temps = []) :
    Clean Works (linkEach files names created removed) w
      fun p w' => p.finished = true ∧ Looped files names (fun _ => False) w w' := by
  induction names generalizing created removed w with
  | nil => exact ⟨rfl, htemps, rfl, rfl, by simp⟩
  | cons name names ih =>
    obtain ⟨hname, hnodup⟩ := List.nodup_cons.1 hnodup
    have hgo {created removed : List String} {v : World} (htemps : v.temps = [])
        (hworld : v.current = w.current ∧ v.deployments = w.deployments) (hfirst : name ∈ v.links ↔ name ∈ files)
        (hothers : ∀ n, n ≠ name → (n ∈ v.links ↔ n ∈ w.links)) :
        Clean Works (linkEach files names created removed) v fun p w'' =>
          p.finished = true ∧ Looped files (name :: names) (fun _ => False) w w'' := by
      refine (ih hnodup created removed htemps).mono ?_
      rintro p w'' ⟨hfinished, hlooped⟩
      exact ⟨hfinished, hlooped.cons hworld.1 hworld.2 hname (by simp [hfirst]) hothers⟩
    refine (fault_managedLink name w).clean.bind ?_
    rintro _ w ⟨rfl, rfl⟩
    by_cases hfiles : name ∈ files
    · by_cases hlinks : name ∈ w.links
      · simp only [hfiles, hlinks, decide_true, not_true, and_false, false_and, if_false]
        exact hgo htemps ⟨rfl, rfl⟩ (by simp [hfiles, hlinks]) fun _ _ => Iff.rfl
      · simp only [hfiles, hlinks, decide_false, Bool.false_eq_true, not_false_iff, and_true, if_true]
        refine (clean_atomicSymlink htemps).bind ?_
        rintro _ _ ⟨rfl, rfl⟩
        exact hgo (v := w.put (.link name)) htemps ⟨rfl, rfl⟩ (by simp [World.put, hfiles]) fun n hn => by simp [World.put, hn]
    · by_cases hlinks : name ∈ w.links
      · simp only [hfiles, hlinks, decide_true, not_true, false_and, if_false, not_false_iff, and_true, if_true]
        have hunlink : works w (.unlink name) = ({ w with links := w.links.erase name }, .done) := by simp [works, hlinks]
        refine clean_step hunlink ((clean_sync _ _).bind ?_)
        rintro _ _ ⟨rfl, rfl⟩
        exact hgo (v := { w with links := w.links.erase name }) htemps ⟨rfl, rfl⟩ (by simp [hfiles]) fun n hn => by simp [hn]
      · simp only [hfiles, hlinks, decide_false, false_and, if_false, Bool.false_eq_true, and_false]
        exact hgo htemps ⟨rfl, rfl⟩ (by simp [hfiles, hlinks]) fun _ _ => Iff.rfl

theorem Track.create (h : Track e ⟨fin, created, removed⟩ w) (hname : name ∉ e) :
    Track e ⟨fin', created ++ [name], removed⟩ (w.put (.link name)) where
  temps := h.temps
  created := by
    intro n hn
    rcases List.mem_append.1 hn with hn | hn
    · exact h.created n hn
    · rw [List.mem_singleton.1 hn]
      exact hname
  removed := h.removed
  links := by
    intro n
    have hn := h.links n
    simp only [World.put, Finset.mem_insert, List.mem_append, List.mem_singleton, hn]
    tauto

theorem Track.remove (h : Track e ⟨fin, created, removed⟩ w) (hname : name ∈ e) :
    Track e ⟨fin', created, removed ++ [name]⟩ { w with links := w.links.erase name } where
  temps := h.temps
  created := h.created
  removed := by
    intro n hn
    rcases List.mem_append.1 hn with hn | hn
    · exact h.removed n hn
    · rw [List.mem_singleton.1 hn]
      exact hname
  links := by
    intro n
    have hn := h.links n
    have hnew : n ∈ created → n ≠ name := by
      rintro hin rfl
      exact h.created n hin hname
    simp only [Finset.mem_erase, List.mem_append, List.mem_singleton, hn]
    tauto

/-- A link that was made and not synced. -/
theorem Track.made (h : Track e ⟨fin, created, removed⟩ w) (hcreated : name ∉ created) (hremoved : name ∉ removed) :
    Track (insert name e) ⟨fin', created, removed⟩ (w.put (.link name)) where
  temps := h.temps
  created := by
    intro n hn hin
    rcases Finset.mem_insert.1 hin with rfl | hin
    · exact hcreated hn
    · exact h.created n hn hin
  removed := fun n hn => Finset.mem_insert_of_mem (h.removed n hn)
  links := by
    intro n
    have hn := h.links n
    have hnot : n = name → n ∉ removed := by
      rintro rfl
      exact hremoved
    simp only [World.put, Finset.mem_insert, hn]
    tauto

/-- A link that was taken away, which was not synced. -/
theorem Track.taken (h : Track e ⟨fin, created, removed⟩ w) (hname : name ∈ e) (hremoved : name ∉ removed) :
    Track (e.erase name) ⟨fin', created, removed⟩ { w with links := w.links.erase name } where
  temps := h.temps
  created := fun n hn hin => h.created n hn (Finset.mem_of_mem_erase hin)
  removed := by
    intro n hn
    refine Finset.mem_erase.2 ⟨?_, h.removed n hn⟩
    rintro rfl
    exact hremoved hn
  links := by
    intro n
    have hn := h.links n
    have hnew : n ∈ created → n ≠ name := by
      rintro hin rfl
      exact h.created n hin hname
    simp only [Finset.mem_erase, hn]
    tauto

theorem Track.same (h : Track e ⟨fin, created, removed⟩ w) : Track e ⟨fin', created, removed⟩ w :=
  ⟨h.temps, h.created, h.removed, h.links⟩

/-- What a call that fails in the loop leaves. -/
def Broken (files names : List String) (links : Finset String) (w : World) (c : Call) (p : Progress) (w' : World) : Prop :=
  (p.finished = false ∧ c.raises ∧ Track (toggled links c) p w' ∧ w'.current = w.current ∧ w'.deployments = w.deployments) ∨
    (p.finished = true ∧ c.silent ∧ (∀ n, c = .lstat n → n ∈ names) ∧
      Looped files names (fun n => c = .lstat n ∧ n ∈ links) w w')

theorem toggled_syncs (links : Finset String) (hc : c.syncs (.link name)) :
    c.raises ∧ toggled links c = if name ∈ links then links.erase name else insert name links := by
  rcases hc with rfl | rfl | rfl <;> exact ⟨trivial, rfl⟩

theorem toggled_makes {t : Target} (links : Finset String) (hc : c.makes t) : c.raises ∧ toggled links c = links := by
  rcases hc with rfl | rfl | rfl <;> exact ⟨trivial, rfl⟩

/-- The rest of the loop, after the name at which a failure went unnoticed. -/
theorem Looped.silent (hc : ∀ n ∈ names, c ≠ .lstat n) (h : Looped files names (fun _ => False) w w')
    : Looped files names (fun n => c = .lstat n ∧ n ∈ links) w w' where
  temps := h.temps
  current := h.current
  deployments := h.deployments
  links := by
    intro n
    rw [h.links n]
    split
    · rename_i hn
      simp [hc n hn]
    · rfl

/-- A failure behind the first name. -/
theorem Broken.cons {p : Progress} {w'' : World} (h : Broken files names links w' c p w'')
    (hcurrent : w'.current = w.current) (hdeployments : w'.deployments = w.deployments) (hname : name ∉ names)
    (hfirst : name ∈ w'.links ↔ name ∈ files) (hothers : ∀ n, n ≠ name → (n ∈ w'.links ↔ n ∈ w.links)) :
    Broken files (name :: names) links w c p w'' := by
  rcases h with ⟨hfinished, hraises, htrack, hcurrent', hdeployments'⟩ | ⟨hfinished, hsilent, hlstat, hlooped⟩
  · exact .inl ⟨hfinished, hraises, htrack, hcurrent'.trans hcurrent, hdeployments'.trans hdeployments⟩
  · have hc : c ≠ .lstat name := fun hc => hname (hlstat name hc)
    refine .inr ⟨hfinished, hsilent, fun n hn => List.mem_cons_of_mem _ (hlstat n hn),
      hlooped.cons hcurrent hdeployments hname ?_ hothers⟩
    simp [hfirst, hc]

/-- The rest of the loop, after the call that failed unnoticed. -/
theorem broken_silent (hsilent : c.silent) (hc : ∀ n, c = .lstat n → n = name) (hname : name ∉ names)
    (hnodup : names.Nodup) (htemps : w'.temps = []) (hcurrent : w'.current = w.current)
    (hdeployments : w'.deployments = w.deployments)
    (hfirst : name ∈ w'.links ↔ name ∈ files ∨ (c = .lstat name ∧ name ∈ links))
    (hothers : ∀ n, n ≠ name → (n ∈ w'.links ↔ n ∈ w.links)) :
    Clean Works (linkEach files names created removed) w' (Broken files (name :: names) links w c) := by
  refine (clean_linkEach files hnodup created removed htemps).mono ?_
  rintro p w'' ⟨hfinished, hlooped⟩
  have hrest : ∀ n ∈ names, c ≠ .lstat n := by
    intro n hn heq
    rw [hc n heq] at hn
    exact hname hn
  refine .inr ⟨hfinished, hsilent, ?_, (hlooped.silent hrest).cons hcurrent hdeployments hname hfirst hothers⟩
  intro n hn
  rw [hc n hn]
  exact List.mem_cons_self ..

theorem fault_linkEach (files : List String) (links : Finset String) {names : List String} (hnodup : names.Nodup)
    (created removed : List String) (htrack : Track links ⟨true, created, removed⟩ w)
    (hfresh : ∀ n ∈ names, n ∉ created ∧ n ∉ removed) :
    OneFault Works fails (linkEach files names created removed) w
      (fun p w' => p.finished = true ∧ Track links p w' ∧ Looped files names (fun _ => False) w w')
      (Broken files names links w) := by
  induction names generalizing created removed w with
  | nil => exact ⟨rfl, htrack, htrack.temps, rfl, rfl, by simp⟩
  | cons name names ih =>
    obtain ⟨hname, hnodup⟩ := List.nodup_cons.1 hnodup
    obtain ⟨hcreated, hremoved⟩ := hfresh name (List.mem_cons_self ..)
    have hrest : ∀ n ∈ names, n ≠ name ∧ n ∉ created ∧ n ∉ removed := by
      intro n hn
      refine ⟨?_, hfresh n (List.mem_cons_of_mem _ hn)⟩
      rintro rfl
      exact hname hn
    have hsame : name ∈ w.links ↔ name ∈ links := by
      rw [htrack.links name]
      simp [hcreated, hremoved]
    -- Once the link of this name is right, the loop goes on with the other names.
    have hgo {created removed : List String} {w' : World} (htrack : Track links ⟨true, created, removed⟩ w')
        (hnew : ∀ n ∈ names, n ∉ created ∧ n ∉ removed) (hworld : w'.current = w.current ∧ w'.deployments = w.deployments)
        (hfirst : name ∈ w'.links ↔ name ∈ files) (hothers : ∀ n, n ≠ name → (n ∈ w'.links ↔ n ∈ w.links)) :
        OneFault Works fails (linkEach files names created removed) w'
          (fun p w'' => p.finished = true ∧ Track links p w'' ∧ Looped files (name :: names) (fun _ => False) w w'')
          (Broken files (name :: names) links w) := by
      refine (ih hnodup created removed htrack hnew).mono ?_ ?_
      · rintro p w'' ⟨hfinished, htrack', hlooped⟩
        exact ⟨hfinished, htrack', hlooped.cons hworld.1 hworld.2 hname (by simp [hfirst]) hothers⟩
      · exact fun c p w'' hbroken => hbroken.cons hworld.1 hworld.2 hname hfirst hothers
    refine (fault_managedLink name w).bind ?_ ?_
    · rintro _ s ⟨rfl, hs⟩
      rw [hs]
      clear hs s
      by_cases hfiles : name ∈ files
      · by_cases hlinks : name ∈ w.links
        · simp only [hfiles, hlinks, decide_true, not_true, and_false, false_and, if_false]
          exact hgo htrack (fun n hn => (hrest n hn).2) ⟨rfl, rfl⟩ (by simp [hfiles, hlinks]) fun _ _ => Iff.rfl
        · -- The link is made.
          have hothers : ∀ n, n ≠ name → (n ∈ (w.put (.link name)).links ↔ n ∈ w.links) := by
            intro n hn
            simp [World.put, hn]
          have hput : name ∈ (w.put (.link name)).links := by simp [World.put]
          simp only [hfiles, hlinks, decide_false, Bool.false_eq_true, not_false_iff, and_true, if_true]
          refine (fault_atomicSymlink htrack.temps).bind ?_ ?_
          · rintro _ _ ⟨rfl, rfl⟩
            have hnew : ∀ n ∈ names, n ∉ created ++ [name] ∧ n ∉ removed := by
              intro n hn
              simp [hrest n hn]
            exact hgo (htrack.create (hsame.not.1 hlinks)) hnew ⟨rfl, rfl⟩ (by simp [hput, hfiles]) hothers
          · rintro c _ _ (⟨rfl, rfl, rfl⟩ | ⟨hc, rfl, rfl⟩ | ⟨hc, rfl, hs⟩)
            · exact broken_silent trivial (by simp) hname hnodup htrack.temps rfl rfl (by simp [hput, hfiles]) hothers
            · obtain ⟨hraises, htoggled⟩ := toggled_syncs links hc
              refine .inl ⟨rfl, hraises, ?_, rfl, rfl⟩
              rw [htoggled, if_neg (hsame.not.1 hlinks)]
              exact htrack.made hcreated hremoved
            · obtain ⟨hraises, htoggled⟩ := toggled_makes links hc
              rw [hs]
              refine .inl ⟨rfl, hraises, ?_, rfl, rfl⟩
              rw [htoggled]
              exact htrack.same
      · by_cases hlinks : name ∈ w.links
        · -- The link is removed.
          have hunlink : works w (.unlink name) = ({ w with links := w.links.erase name }, .done) := by simp [works, hlinks]
          have hothers : ∀ n, n ≠ name → (n ∈ w.links.erase name ↔ n ∈ w.links) := by
            intro n hn
            simp [hn]
          simp only [hfiles, hlinks, decide_true, not_true, false_and, if_false, not_false_iff, and_true, if_true]
          refine fault_step hunlink ?_ ?_
          · exact .inl ⟨rfl, trivial, htrack.same, rfl, rfl⟩
          refine (fault_sync (.link name) _).bind ?_ ?_
          · rintro _ _ ⟨rfl, rfl⟩
            have hnew : ∀ n ∈ names, n ∉ created ∧ n ∉ removed ++ [name] := by
              intro n hn
              simp [hrest n hn]
            exact hgo (htrack.remove (hsame.1 hlinks)) hnew ⟨rfl, rfl⟩ (by simp [hfiles]) hothers
          · rintro c _ _ ⟨hc, rfl, rfl⟩
            obtain ⟨hraises, htoggled⟩ := toggled_syncs links hc
            refine .inl ⟨rfl, hraises, ?_, rfl, rfl⟩
            rw [htoggled, if_pos (hsame.1 hlinks)]
            exact htrack.taken (hsame.1 hlinks) hremoved
        · simp only [hfiles, hlinks, decide_false, false_and, if_false, Bool.false_eq_true, and_false]
          exact hgo htrack (fun n hn => (hrest n hn).2) ⟨rfl, rfl⟩ (by simp [hfiles, hlinks]) fun _ _ => Iff.rfl
    · rintro c _ s ⟨hs, ⟨rfl, rfl⟩ | ⟨rfl, rfl⟩⟩
      · -- The link reads as absent.
        rw [hs]
        clear hs s
        by_cases hfiles : name ∈ files
        · simp only [hfiles, Bool.false_eq_true, not_false_iff, and_true, if_true]
          refine (clean_atomicSymlink htrack.temps).bind ?_
          rintro _ _ ⟨rfl, rfl⟩
          refine broken_silent trivial (by simp [eq_comm]) hname hnodup htrack.temps rfl rfl (by simp [World.put, hfiles]) ?_
          intro n hn
          simp [World.put, hn]
        · simp only [hfiles, false_and, if_false, Bool.false_eq_true, and_false]
          exact broken_silent trivial (by simp [eq_comm]) hname hnodup htrack.temps rfl rfl (by simp [hfiles, hsame])
            fun _ _ => Iff.rfl
      · rw [hs]
        exact .inl ⟨rfl, trivial, htrack.same, rfl, rfl⟩

end Loop

/-! ## The handler -/

section Handler
variable {w : World} {e : Finset String} {p : Progress}

theorem clean_unlinkEach (names : List String) (w : World) :
    Clean Works (unlinkEach names) w fun r w' => r = true ∧ w'.temps = w.temps ∧ w'.current = w.current ∧
      ∀ n, n ∈ w'.links ↔ n ∈ w.links ∧ n ∉ names := by
  induction names generalizing w with
  | nil => exact ⟨rfl, rfl, rfl, by simp⟩
  | cons name names ih =>
    by_cases hname : name ∈ w.links
    · have hunlink : works w (.unlink name) = ({ w with links := w.links.erase name }, .done) := by simp [works, hname]
      refine clean_step hunlink ((clean_sync _ _).bind ?_)
      rintro _ _ ⟨rfl, rfl⟩
      refine (ih { w with links := w.links.erase name }).mono ?_
      rintro r w' ⟨hr, htemps, hcurrent, hlinks⟩
      refine ⟨hr, htemps, hcurrent, fun n => ?_⟩
      rw [hlinks n]
      simp only [Finset.mem_erase, List.mem_cons]
      tauto
    · have hunlink : works w (.unlink name) = (w, .missing) := by simp [works, hname]
      refine clean_step hunlink ((ih w).mono ?_)
      rintro r w' ⟨hr, htemps, hcurrent, hlinks⟩
      refine ⟨hr, htemps, hcurrent, fun n => ?_⟩
      rw [hlinks n]
      have hn : n ∈ w.links → n ≠ name := by
        rintro hin rfl
        exact hname hin
      simp only [List.mem_cons]
      tauto

theorem clean_relinkEach (names : List String) (h : w.temps = []) :
    Clean Works (relinkEach names) w fun _ w' => w'.current = w.current ∧ ∀ n, n ∈ w'.links ↔ n ∈ w.links ∨ n ∈ names := by
  induction names generalizing w with
  | nil => exact ⟨rfl, by simp⟩
  | cons name names ih =>
    refine (clean_atomicSymlink h).bind ?_
    rintro _ _ ⟨rfl, rfl⟩
    have hput : (w.put (.link name)).temps = [] := h
    refine (ih hput).mono ?_
    rintro _ w' ⟨hcurrent, hlinks⟩
    refine ⟨hcurrent, fun n => ?_⟩
    rw [hlinks n]
    simp only [World.put, Finset.mem_insert, List.mem_cons]
    tauto

/-- What was tracked is undone. -/
theorem clean_rollback (h : Track e p w) :
    Clean Works (rollback p) w fun r w' => r = false ∧ w'.current = w.current ∧ w'.links = e := by
  refine (clean_unlinkEach _ w).bind ?_
  rintro _ w₁ ⟨rfl, htemps, hcurrent, hlinks⟩
  refine (clean_relinkEach _ (htemps.trans h.temps)).bind ?_
  rintro _ w₂ ⟨hcurrent₂, hlinks₂⟩
  refine ⟨rfl, hcurrent₂.trans hcurrent, ?_⟩
  ext n
  have hn := h.links n
  have hcreated := h.created n
  have hremoved := h.removed n
  rw [hlinks₂ n, hlinks n]
  simp only [List.mem_reverse]
  tauto

end Handler

/-! ## Runs that end -/

/-- Where the tool ends if this call fails. -/
def Ends (w : World) (id : String) (c : Call) (result : Bool) (w' : World) : Prop :=
  (result = false ∧ c.raises ∧ w'.current = w.current ∧ w'.links = toggled w.links c) ∨
    (result = false ∧ c.syncs (.current id) ∧ w'.current = some id ∧ w'.links = w.links) ∨
    (result = true ∧ c.silent ∧ w'.current = some id ∧ ∃ files, w.verify id = some files ∧
      ∀ n, n ∈ w'.links ↔ n ∈ files ∨ (c = .lstat n ∧ n ∈ w.links))

theorem links_nodup : LINKS.Nodup := by decide

theorem known_subset (h : files ∈ knownFileSets) : ∀ n ∈ files, n ∈ LINKS := by
  simp only [knownFileSets, bind, pure, List.mem_flatMap, List.mem_singleton] at h
  obtain ⟨missing, -, modules, -, docker, -, rfl⟩ := h
  intro n hn
  exact List.mem_of_mem_filter hn

theorem verify_subset (h : w.verify id = some files) : ∀ n ∈ files, n ∈ LINKS := by
  rw [World.verify, Option.filter_eq_some_iff] at h
  exact known_subset (of_decide_eq_true h.2)

theorem Looped.all {kept : String → Prop} {w' : World} (h : Looped files LINKS kept w w')
    (hfiles : ∀ n ∈ files, n ∈ LINKS) (hlinks : ∀ n ∈ w.links, n ∈ LINKS) (hkept : ∀ n, kept n → n ∈ w.links)
    (n : String) : n ∈ w'.links ↔ n ∈ files ∨ kept n := by
  rw [h.links n]
  split
  · rfl
  · rename_i hn
    have h₁ : n ∉ w.links := fun hin => hn (hlinks n hin)
    have h₂ : n ∉ files := fun hin => hn (hfiles n hin)
    have h₃ : ¬kept n := fun hk => h₁ (hkept n hk)
    simp [h₁, h₂, h₃]

theorem fault_activate (htemps : w.temps = []) (hlinks : ∀ n ∈ w.links, n ∈ LINKS) :
    OneFault Works fails (activate id) w (fun r w' => Settled w id w' r) (Ends w id) := by
  have hraised : ∀ c : Call, c.raises → toggled w.links c = w.links → Ends w id c false w := by
    intro c hc htoggled
    exact .inl ⟨rfl, hc, rfl, htoggled.symm⟩
  have hpreflight : ∀ create, works w (.preflight create) = (w, w.current.all fun i => (w.verify i).isSome) := fun _ => rfl
  cases hclear : w.current.all fun i => (w.verify i).isSome with
  | false =>
    refine fault_step (hpreflight false) (hraised _ trivial rfl) ?_
    rw [hclear]
    exact ⟨rfl, rfl⟩
  | true =>
    refine fault_step (hpreflight false) (hraised _ trivial rfl) ?_
    rw [hclear]
    cases hverify : w.verify id with
    | none => exact fault_step (show works w (.verify id) = (w, none) from by simp [works, hverify]) (hraised _ trivial rfl) ⟨rfl, rfl⟩
    | some files =>
      refine fault_step (show works w (.verify id) = (w, some files) from by simp [works, hverify]) (hraised _ trivial rfl) ?_
      refine fault_step (hpreflight true) (hraised _ trivial rfl) ?_
      rw [hclear]
      have hfiles := verify_subset hverify
      have hstart : Track w.links ⟨true, [], []⟩ w := ⟨htemps, by simp, by simp, by simp⟩
      refine (fault_linkEach files w.links links_nodup [] [] hstart (by simp)).bind ?_ ?_
      · rintro p w₁ ⟨hfinished, htrack, hlooped⟩
        have hall := hlooped.all hfiles hlinks fun _ => False.elim
        simp only [hfinished, if_true]
        refine (fault_atomicSymlink htrack.temps).bind ?_ ?_
        · rintro _ _ ⟨rfl, rfl⟩
          refine ⟨rfl, files, hverify, ?_⟩
          ext n
          simpa [World.put] using hall n
        · rintro c _ w₂ (⟨rfl, rfl, rfl⟩ | ⟨hc, rfl, rfl⟩ | ⟨hc, rfl, rfl⟩)
          · refine .inr (.inr ⟨rfl, trivial, rfl, files, hverify, fun n => ?_⟩)
            simpa [World.put] using hall n
          · have htrack' : Track w.links p (w₁.put (.current id)) := ⟨htrack.temps, htrack.created, htrack.removed, htrack.links⟩
            refine (clean_rollback htrack').mono ?_
            rintro r w' ⟨hr, hcurrent, hback⟩
            exact .inr (.inl ⟨hr, hc, hcurrent, hback⟩)
          · obtain ⟨hraises, htoggled⟩ := toggled_makes w.links hc
            refine (clean_rollback htrack).mono ?_
            rintro r w' ⟨hr, hcurrent, hback⟩
            exact .inl ⟨hr, hraises, hcurrent.trans hlooped.current, hback.trans htoggled.symm⟩
      · rintro c p w₁ (⟨hfinished, hraises, htrack, hcurrent, -⟩ | ⟨hfinished, hsilent, -, hlooped⟩)
        · simp only [hfinished, Bool.false_eq_true, if_false]
          refine (clean_rollback htrack).mono ?_
          rintro r w' ⟨hr, hcurrent', hback⟩
          exact .inl ⟨hr, hraises, hcurrent'.trans hcurrent, hback⟩
        · have hall := hlooped.all hfiles hlinks fun _ hk => hk.2
          simp only [hfinished, if_true]
          refine (clean_atomicSymlink hlooped.temps).bind ?_
          rintro _ _ ⟨rfl, rfl⟩
          refine .inr (.inr ⟨rfl, hsilent, rfl, files, hverify, fun n => ?_⟩)
          simpa [World.put] using hall n

/-- What is left is as it should be, unless the call was one of those. -/
theorem settled_iff {w' : World} {result : Bool} (h : Ends w id c result w') :
    Settled w id w' result ↔ ¬Unguarded w id c := by
  rcases h with ⟨rfl, hraises, hcurrent, hlinks⟩ | ⟨rfl, hc, hcurrent, hlinks⟩ | ⟨rfl, hsilent, hcurrent, files, hverify, hlinks⟩
  · have hsettled : Settled w id w' false ↔ toggled w.links c = w.links := by
      simp [Settled, hcurrent, hlinks]
    rw [hsettled]
    have htoggle : ∀ n, (if n ∈ w.links then w.links.erase n else insert n w.links) ≠ w.links := by
      intro n heq
      split at heq
      · rename_i hn
        have hin : n ∈ w.links.erase n := heq.symm.subset hn
        exact Finset.notMem_erase n w.links hin
      · rename_i hn
        exact hn (heq ▸ Finset.mem_insert_self n w.links)
    cases c with
    | openDir t | fsync t | close t =>
      cases t with
      | link n => simp [toggled, Unguarded, htoggle n]
      | current i => exact hraises.elim
    | lstat | lexists => exact hraises.elim
    | _ => simp [toggled, Unguarded]
  · have hsettled : Settled w id w' false ↔ w.current = some id := by
      simp [Settled, hcurrent, hlinks, eq_comm]
    rw [hsettled]
    rcases hc with rfl | rfl | rfl <;> simp [Unguarded]
  · have hsettled : Settled w id w' true ↔ ∀ n, c = .lstat n → n ∈ w.links → n ∈ files := by
      simp only [Settled, if_true, hcurrent, true_and, hverify, Option.some.injEq, exists_eq_left']
      constructor
      · intro heq n hc hn
        have hin := (hlinks n).2 (.inr ⟨hc, hn⟩)
        rw [heq] at hin
        exact List.mem_toFinset.1 hin
      · intro hkept
        ext n
        rw [hlinks n, List.mem_toFinset]
        constructor
        · rintro (hn | ⟨hc, hn⟩)
          · exact hn
          · exact hkept n hc hn
        · exact .inl
    rw [hsettled]
    cases c with
    | lstat n => simp [Unguarded, hverify]
    | lexists t => simp [Unguarded]
    | _ => exact hsilent.elim

end Multikernel.Deploy
