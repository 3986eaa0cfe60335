import Multikernel.Lib.Faults
import Multikernel.Safefile.Foreign
/-!
# Owners of a private file

The shim's recovery record and its event journal are files that the shim
publishes again and again, each time on condition that the file is the one it
remembers. No other process interferes, one system call of one persist fails,
and later persists run with every call working.
-/

namespace Multikernel.Safefile
open Lib

/-! ## A persist -/

/-- Publish the contents, or remove the file if there are none, and remember the
identity. -/
def persist (name : Name) (memory : Option Identity) (content : Option String) : Act (Option String × Option Identity) := do
  if (← perform .verify .verify).isSome then
    return (some "verify", memory)
  match content with
  | some data =>
    match ← replaceIdentity name data memory with
    | .ok published => return (none, some published)
    | .error text => return (some text, memory)
  | none =>
    match memory with
    | none =>
      match ← perform .statEntry (.stat name) with
      | .error .noent => return (none, none)
      | _ => return (some "refusing to remove an unowned event journal", none)
    | some expected =>
      match ← removeIfIdentity name expected with
      | .ok true => return (none, none)
      | _ => return (some "owned event journal disappeared or changed before removal", some expected)

/-- `recoveryIdentity` is the memory; the record always has contents. -/
def persistRecovery (recoveryIdentity : Option Identity) (record : String) : Act (Option String × Option Identity) :=
  persist (.file "sandbox.json") recoveryIdentity (some record)

/-- A journal without pending events is removed. -/
def persistEventJournalLocked (eventJournalIdentity : Option Identity) (journal : Option String) :
    Act (Option String × Option Identity) :=
  persist (.file ".multikernel-events.json") eventJournalIdentity journal

/-! ## System calls of an undisturbed process -/

/-- No private name of that random number is in use. -/
def Fresh (name : Name) (random : Nat) (d : Directory) : Prop :=
  d.entries (.exchange name random) = none ∧ ∀ i < d.next, d.entries (.removal (.exchange name random) i) = none

/-- Every call works. -/
def Works (name : Name) : Trans FsI Directory :=
  fun d c r d' => ∃ a : Answer, (c.2 = .random → Fresh name a.random d) ∧ sysStep d a c.2 = (d', r)

def fault (c : Call) : c.2.Reply := c.2.failure .other

section Rules
variable {name n m : Name} {d d' : Directory} {s : Sys} {α : Type} {p : Point} {i j : Nat} {a : Answer}

theorem sysStep_answer (hs : s ≠ .random) (a a' : Answer) : sysStep d a s = sysStep d a' s := by
  cases s <;> first | rfl | exact absurd rfl hs

theorem sysStep_stat (h : d.entries n = some i) : sysStep d a (.stat n) = (d, .ok (d.identity i)) := by
  simp [sysStep, h]

theorem sysStep_stat_none (h : d.entries n = none) : sysStep d a (.stat n) = (d, .error .noent) := by
  simp [sysStep, h]

theorem sysStep_openPath (h : d.entries n = some i) : sysStep d a (.openPath n) = (d, .ok i) := by
  simp [sysStep, h]

theorem sysStep_rename (hn : d.entries n = some i) (hm : d.entries m = none) :
    sysStep d a (.rename n m) = ((d.set n none).set m (some i), none) := by
  simp only [sysStep, hn, hm]
  rfl

theorem sysStep_exchange (hn : d.entries n = some i) (hm : d.entries m = some j) :
    sysStep d a (.exchange n m) = ((d.set n (some j)).set m (some i), none) := by
  simp only [sysStep, hn, hm]
  rfl

theorem sysStep_unlink (h : d.entries n = some i) :
    sysStep d a (.unlink n) = ({ d.set n none with unlinked := i :: d.unlinked }, none) := by
  simp only [sysStep, h]
  rfl

theorem clean_perform {r : s.Reply} {f : s.Reply → Act α} {Q : α → Directory → Prop} (hs : s ≠ .random)
    (hstep : sysStep d {} s = (d', r)) (h : Clean (Works name) (f r) d' Q) : Clean (Works name) (perform p s >>= f) d Q := by
  refine ⟨trivial, fun r' d'' hr => ?_⟩
  obtain ⟨a, -, hr⟩ := hr
  rw [sysStep_answer hs a {}, hstep] at hr
  cases hr
  exact h

theorem fault_perform {r : s.Reply} {f : s.Reply → Act α} {ok : α → Directory → Prop} {bad : Call → α → Directory → Prop}
    (hs : s ≠ .random) (hstep : sysStep d {} s = (d', r)) (hbad : Clean (Works name) (f (s.failure .other)) d (bad (p, s)))
    (hok : OneFault (Works name) fault (f r) d' ok bad) : OneFault (Works name) fault (perform p s >>= f) d ok bad := by
  refine ⟨hbad, fun r' d'' hr => ?_⟩
  obtain ⟨a, -, hr⟩ := hr
  rw [sysStep_answer hs a {}, hstep] at hr
  cases hr
  exact hok

end Rules

/-! ## What a persist leaves -/

/-- The entries and attributes of `d'` are those of `d`. -/
structure Like (d d' : Directory) : Prop where
  entries : d'.entries = d.entries
  attrs : d'.attrs = d.attrs
  next : d.next ≤ d'.next

theorem Like.refl (d : Directory) : Like d d := ⟨rfl, rfl, Nat.le_refl _⟩

theorem Like.trans {d d' d'' : Directory} (h : Like d d') (h' : Like d' d'') : Like d d'' :=
  ⟨h'.entries.trans h.entries, h'.attrs.trans h.attrs, Nat.le_trans h.next h'.next⟩

theorem Like.set {d d' : Directory} (h : Like d d') (n : Name) (entry : Option Nat) : Like (d.set n entry) (d'.set n entry) :=
  ⟨by simp only [Directory.set, h.entries], h.attrs, h.next⟩

theorem Like.identity {d d' : Directory} (h : Like d d') (i : Nat) : d'.identity i = d.identity i := by
  simp only [Directory.identity, h.attrs]

theorem Directory.set_set (d : Directory) (n : Name) (e e' : Option Nat) : (d.set n e).set n e' = d.set n e' := by
  simp only [set]
  congr 1
  funext m
  split <;> rfl

theorem Directory.set_comm (d : Directory) {n m : Name} (h : n ≠ m) (e e' : Option Nat) :
    (d.set n e).set m e' = (d.set m e').set n e := by
  simp only [set]
  congr 1
  funext k
  by_cases hk : k = m
  · subst hk
    simp [h.symm]
  · simp [hk]

theorem Directory.set_same (d : Directory) {n : Name} {e : Option Nat} (h : d.entries n = e) : d.set n e = d := by
  simp only [set]
  congr 1
  funext m
  split
  · rename_i hm
    rw [hm, h]
  · rfl

/-- Failures up to the exchange, which leave everything as it was, and those of
the two lookups after it, on which it is taken back. -/
def Point.early : Point → Bool
  | .verify | .random | .create | .write | .chmod | .sync | .fstat | .close => true
  | .publish | .check | .exchange | .statOld | .statInstalled => true
  | _ => false

/-- Where a removal is when one of its calls fails: the file has its name, is
under the private one, or is gone. -/
inductive Phase where
  | before | between | past
  deriving DecidableEq, Repr

def Point.phase : Point → Phase
  | .openQuarantine | .fstatQuarantine | .closeQuarantine | .statAgain | .unlink => .between
  | .statGone | .syncRemoval => .past
  | _ => .before

def Directory.removing (d : Directory) (file : Name) (i : Nat) : Phase → Directory
  | .before => d
  | .between => (d.set file none).set (.removal file i) (some i)
  | .past => d.set file none

section Remove
variable {name file : Name} {expected : Identity} {d : Directory}

theorem fault_removeQuarantined (hfile : d.entries file = none) (hq : d.entries (.removal file expected.inode) = some expected.inode)
    (hid : d.identity expected.inode = expected) :
    OneFault (Works name) fault (removeQuarantined file expected) d
      (fun r d' => r = .ok true ∧ Like (d.set (.removal file expected.inode) none) d' ∧ d'.contents = d.contents)
      fun c r d' => (∃ text, r = .error text) ∧ c.1.early = false ∧
        ((c.1.phase = .between ∧ Like d d') ∨ (c.1.phase = .past ∧ Like (d.set (.removal file expected.inode) none) d')) := by
  have hsame : ¬¬same (.ok (d.identity expected.inode)) expected = true := by simp [same, hid]
  have hnext : file ≠ .removal file expected.inode := (removal_ne file expected.inode).symm
  unfold removeQuarantined
  refine fault_perform (by simp) (sysStep_openPath hq) ⟨⟨_, rfl⟩, rfl, .inl ⟨rfl, .refl d⟩⟩ ?_
  refine fault_perform (by simp) rfl ?_ ?_
  · refine clean_perform (by simp) rfl ?_
    exact ⟨⟨_, rfl⟩, rfl, .inl ⟨rfl, .refl d⟩⟩
  refine fault_perform (by simp) rfl ?_ ?_
  · rw [if_neg hsame]
    exact ⟨⟨_, rfl⟩, rfl, .inl ⟨rfl, .refl d⟩⟩
  rw [if_neg hsame, if_neg (by simp)]
  refine fault_perform (by simp) (sysStep_stat hq) ⟨⟨_, rfl⟩, rfl, .inl ⟨rfl, .refl d⟩⟩ ?_
  rw [if_neg hsame]
  refine fault_perform (by simp) (sysStep_unlink hq) ⟨⟨_, rfl⟩, rfl, .inl ⟨rfl, .refl d⟩⟩ ?_
  rw [if_neg (by simp)]
  have hgone : ({ d.set (.removal file expected.inode) none with unlinked := expected.inode :: d.unlinked } : Directory).entries file = none :=
    (Directory.set_of_ne d none hnext).trans hfile
  have hlike : Like (d.set (.removal file expected.inode) none)
      { d.set (.removal file expected.inode) none with unlinked := expected.inode :: d.unlinked } := ⟨rfl, rfl, Nat.le_refl _⟩
  refine fault_perform (by simp) (sysStep_stat_none hgone) ⟨⟨_, rfl⟩, rfl, .inr ⟨rfl, hlike⟩⟩ ?_
  refine fault_perform (by simp) rfl ⟨⟨_, rfl⟩, rfl, .inr ⟨rfl, hlike⟩⟩ ?_
  exact ⟨rfl, hlike, rfl⟩

theorem fault_removeIfIdentity (hpos : 0 < expected.inode) (hfile : d.entries file = some expected.inode)
    (hq : d.entries (.removal file expected.inode) = none) (hid : d.identity expected.inode = expected) :
    OneFault (Works name) fault (removeIfIdentity file expected) d
      (fun r d' => r = .ok true ∧ Like (d.set file none) d' ∧ d'.contents = d.contents)
      fun c r d' => (∃ text, r = .error text) ∧ c.1.early = false ∧ Like (d.removing file expected.inode c.1.phase) d' := by
  have hsame : ¬¬same (.ok (d.identity expected.inode)) expected = true := by simp [same, hid]
  have hne : Name.removal file expected.inode ≠ file := removal_ne file expected.inode
  unfold removeIfIdentity
  rw [if_neg (by omega)]
  refine fault_perform (by simp) (sysStep_stat_none hq) ⟨⟨_, rfl⟩, rfl, .refl d⟩ ?_
  refine fault_perform (by simp) (sysStep_stat hfile) ⟨⟨_, rfl⟩, rfl, .refl d⟩ ?_
  dsimp only
  rw [if_neg (by simp [hid])]
  unfold quarantineFile
  refine fault_perform (by simp) (sysStep_rename hfile hq) ⟨⟨_, rfl⟩, rfl, .refl d⟩ ?_
  rw [if_neg (by simp)]
  -- Under its private name from here on.
  have hmoved : ((d.set file none).set (.removal file expected.inode) (some expected.inode)).entries (.removal file expected.inode) =
      some expected.inode := Directory.set_self _ _ _
  have haway : ((d.set file none).set (.removal file expected.inode) (some expected.inode)).entries file = none := by
    rw [Directory.set_of_ne _ _ hne.symm, Directory.set_self]
  have hback : (((d.set file none).set (.removal file expected.inode) (some expected.inode)).set (.removal file expected.inode) none).set file
      (some expected.inode) = d := by
    rw [Directory.set_set, Directory.set_comm _ hne.symm, Directory.set_set, Directory.set_comm _ hne,
      Directory.set_same _ hfile, Directory.set_same _ hq]
  have hpast : ((d.set file none).set (.removal file expected.inode) (some expected.inode)).set (.removal file expected.inode) none =
      d.set file none := by
    rw [Directory.set_set, Directory.set_comm _ hne.symm, Directory.set_same _ hq]
  refine fault_perform (by simp) (sysStep_stat hmoved) ?_ ?_
  · refine clean_perform (by simp) (sysStep_rename hmoved haway) ?_
    rw [hback]
    exact ⟨⟨_, rfl⟩, rfl, .refl d⟩
  rw [if_neg (show ¬¬same (.ok (((d.set file none).set _ _).identity expected.inode)) expected = true from hsame)]
  refine (fault_removeQuarantined haway hmoved hid).mono ?_ ?_
  · rintro r d' ⟨hr, hlike, hcontents⟩
    rw [hpast] at hlike
    exact ⟨hr, hlike, hcontents⟩
  · rintro c r d' ⟨hr, hearly, ⟨hphase, hlike⟩ | ⟨hphase, hlike⟩⟩
    · rw [hphase]
      exact ⟨hr, hearly, hlike⟩
    · rw [hphase]
      rw [hpast] at hlike
      exact ⟨hr, hearly, hlike⟩

end Remove

/-- With a new file under a free name. -/
def Directory.plus (d : Directory) (n : Name) : Directory := { d.set n (some d.next) with next := d.next + 1 }

section Replace
variable {name : Name} {d : Directory}

theorem fault_createTemporary :
    OneFault (Works name) fault (createTemporary name 16) d
      (fun r d' => ∃ random, Fresh name random d ∧ r = .ok (.exchange name random, d.next) ∧ Like (d.plus (.exchange name random)) d')
      fun c r d' => (∃ text, r = .error text) ∧ c.1.early ∧ Like d d' := by
  refine ⟨⟨⟨_, rfl⟩, rfl, .refl d⟩, fun r d₁ h₁ => ?_⟩
  obtain ⟨a, hfresh, h₁⟩ := h₁
  cases h₁
  have hfresh := hfresh rfl
  refine ⟨⟨⟨_, rfl⟩, rfl, .refl d⟩, fun r d₂ h₂ => ?_⟩
  obtain ⟨a', -, h₂⟩ := h₂
  simp only [sysStep, hfresh.1] at h₂
  cases h₂
  exact ⟨a.random, hfresh, rfl, rfl, rfl, Nat.le_refl _⟩

theorem fault_writeTemporary {inode : Nat} {data : String} :
    OneFault (Works name) fault (writeTemporary inode data) d
      (fun r d' => r = .ok (d.identity inode) ∧ Like d d' ∧ d'.contents inode = data)
      fun c r d' => (∃ text, r = .error text) ∧ c.1.early ∧ Like d d' := by
  have hlike : ∀ contents, Like d { d with contents := contents } := fun _ => ⟨rfl, rfl, Nat.le_refl _⟩
  have hfill : OneFault (Works name) fault (fillTemporary inode data) d
      (fun r d' => r = .ok (d.identity inode) ∧ Like d d' ∧ d'.contents inode = data)
      fun c r d' => (∃ text, r = .error text) ∧ c.1.early ∧ Like d d' := by
    refine fault_perform (by simp) rfl ⟨⟨_, rfl⟩, rfl, .refl d⟩ ?_
    refine fault_perform (by simp) rfl ⟨⟨_, rfl⟩, rfl, hlike _⟩ ?_
    refine fault_perform (by simp) rfl ⟨⟨_, rfl⟩, rfl, hlike _⟩ ?_
    refine fault_perform (by simp) rfl ⟨⟨_, rfl⟩, rfl, hlike _⟩ ?_
    exact ⟨rfl, hlike _, if_pos rfl⟩
  refine hfill.bind ?_ ?_
  · rintro r d₁ hd₁
    exact fault_perform (by simp) rfl ⟨⟨_, rfl⟩, rfl, hd₁.2.1⟩ hd₁
  · rintro c r d₁ hd₁
    exact clean_perform (by simp) rfl hd₁

/-- The persist is past the exchange: its own file is public, whatever is left
of the old one. -/
def Swapped (name : Name) (n : Nat) (d d' : Directory) : Prop :=
  d'.entries name = some n ∧ ∀ i, d'.entries (.removal name i) = d.entries (.removal name i)

variable {random n : Nat}

theorem swapped_removing {i : Nat} {phase : Phase} {d' : Directory} (hname : d.entries name = some n)
    (h : Like (d.removing (.exchange name random) i phase) d') : Swapped name n d d' := by
  have hexchange := (exchange_ne name random).symm
  have hremoval := (removal_exchange_ne name random i).symm
  have hother : ∀ j, Name.removal name j ≠ .removal (.exchange name random) i := by
    rintro j hj
    exact hexchange (Name.removal.inj hj).1
  rw [Swapped, h.entries]
  cases phase with
  | before => exact ⟨hname, fun j => rfl⟩
  | between =>
    refine ⟨?_, fun j => ?_⟩
    · rw [Directory.removing, Directory.set_of_ne _ _ hremoval, Directory.set_of_ne _ _ hexchange, hname]
    · rw [Directory.removing, Directory.set_of_ne _ _ (hother j), Directory.set_of_ne _ _ (by simp)]
  | past =>
    refine ⟨?_, fun j => ?_⟩
    · rw [Directory.removing, Directory.set_of_ne _ _ hexchange, hname]
    · rw [Directory.removing, Directory.set_of_ne _ _ (by simp)]

theorem fault_settleExchange {old : Identity} (hpos : 0 < old.inode) (hname : d.entries name = some n)
    (ht : d.entries (.exchange name random) = some old.inode) (hq : d.entries (.removal (.exchange name random) old.inode) = none)
    (hid : d.identity old.inode = old) :
    OneFault (Works name) fault (settleExchange name (.exchange name random) (d.identity n) old) d
      (fun r d' => r = (.ok (d.identity n), false) ∧ Like (d.set (.exchange name random) none) d' ∧ d'.contents = d.contents)
      fun c r d' => (∃ text, r.1 = .error text) ∧
        ((c.1.early ∧ r.2 = true ∧ Like ((d.set (.exchange name random) (some n)).set name (some old.inode)) d') ∨
          (c.1.early = false ∧ r.2 = false ∧ Swapped name n d d')) := by
  have hold : same (.ok (d.identity old.inode)) old = true := by simp [same, hid]
  have hnew : same (.ok (d.identity n)) (d.identity n) = true := by simp [same]
  have hback := sysStep_exchange (a := {}) ht hname
  unfold settleExchange
  refine fault_perform (by simp) (sysStep_stat ht) ?_ ?_
  · refine clean_perform (by simp) (sysStep_stat hname) ?_
    refine clean_perform (by simp) hback ?_
    exact ⟨⟨_, rfl⟩, .inl ⟨rfl, rfl, .refl _⟩⟩
  refine fault_perform (by simp) (sysStep_stat hname) ?_ ?_
  · rw [if_pos (.inr (by simp [same, Sys.failure]))]
    refine clean_perform (by simp) hback ?_
    exact ⟨⟨_, rfl⟩, .inl ⟨rfl, rfl, .refl _⟩⟩
  rw [if_neg (by simp [hold, hnew])]
  refine (fault_removeIfIdentity hpos ht hq hid).bind ?_ ?_
  · rintro r d₁ ⟨rfl, hlike, hcontents⟩
    refine fault_perform (by simp) rfl ?_ ?_
    · have hpast : Like (d.removing (.exchange name random) 0 .past) d₁ := hlike
      exact ⟨⟨_, rfl⟩, .inr ⟨rfl, rfl, swapped_removing hname hpast⟩⟩
    · exact ⟨rfl, hlike, hcontents⟩
  · rintro c r d₁ ⟨⟨text, rfl⟩, hearly, hlike⟩
    exact ⟨⟨_, rfl⟩, .inr ⟨hearly, rfl, swapped_removing hname hlike⟩⟩

theorem fault_publishTemporary {memory : Option Identity} (ht : d.entries (.exchange name random) = some n)
    (hq : ∀ old, memory = some old → d.entries (.removal (.exchange name random) old.inode) = none)
    (hmemory : memory = none → d.entries name = none)
    (hold : ∀ old, memory = some old → 0 < old.inode ∧ d.entries name = some old.inode ∧ d.identity old.inode = old) :
    OneFault (Works name) fault (publishTemporary name (.exchange name random) (d.identity n) memory) d
      (fun r d' => r = (.ok (d.identity n), false) ∧ Like ((d.set (.exchange name random) none).set name (some n)) d' ∧
        d'.contents = d.contents)
      fun c r d' => (∃ text, r.1 = .error text) ∧
        ((c.1.early ∧ r.2 = true ∧ Like d d') ∨ (c.1.early = false ∧ r.2 = false ∧ Swapped name n d d')) := by
  have hne := exchange_ne name random
  cases memory with
  | none =>
    refine fault_perform (by simp) (sysStep_rename ht (hmemory rfl)) ⟨⟨_, rfl⟩, .inl ⟨rfl, rfl, .refl d⟩⟩ ?_
    refine fault_perform (by simp) rfl ?_ ?_
    · refine ⟨⟨_, rfl⟩, .inr ⟨rfl, rfl, Directory.set_self _ _ _, fun i => ?_⟩⟩
      rw [Directory.set_of_ne _ _ (removal_ne name i), Directory.set_of_ne _ _ (by simp)]
    · exact ⟨rfl, .refl _, rfl⟩
  | some old =>
    obtain ⟨hpos, hname, hid⟩ := hold old rfl
    refine fault_perform (by simp) (sysStep_stat hname) ⟨⟨_, rfl⟩, .inl ⟨rfl, rfl, .refl d⟩⟩ ?_
    rw [if_neg (by simp [same, hid])]
    refine fault_perform (by simp) (sysStep_exchange ht hname) ⟨⟨_, rfl⟩, .inl ⟨rfl, rfl, .refl d⟩⟩ ?_
    rw [if_neg (by simp)]
    -- The directory after the exchange.
    have ht' : ((d.set (.exchange name random) (some old.inode)).set name (some n)).entries (.exchange name random) = some old.inode := by
      rw [Directory.set_of_ne _ _ hne, Directory.set_self]
    have hq' : ((d.set (.exchange name random) (some old.inode)).set name (some n)).entries
        (.removal (.exchange name random) old.inode) = none := by
      rw [Directory.set_of_ne _ _ (removal_exchange_ne name random old.inode), Directory.set_of_ne _ _ (by simp [removal_ne]), hq old rfl]
    refine (fault_settleExchange hpos (Directory.set_self _ name (some n)) ht' hq' hid).mono ?_ ?_
    · rintro r d' ⟨hr, hlike, hcontents⟩
      rw [Directory.set_comm _ hne.symm, Directory.set_set] at hlike
      exact ⟨hr, hlike, hcontents⟩
    · rintro c r d' ⟨hr, ⟨hearly, hpresent, hlike⟩ | ⟨hearly, hpresent, hswapped⟩⟩
      · rw [Directory.set_comm _ hne.symm, Directory.set_set, Directory.set_set, Directory.set_same _ ht,
          Directory.set_same _ hname] at hlike
        exact ⟨hr, .inl ⟨hearly, hpresent, hlike⟩⟩
      · refine ⟨hr, .inr ⟨hearly, hpresent, hswapped.1, fun i => ?_⟩⟩
        rw [hswapped.2 i, Directory.set_of_ne _ _ (removal_ne name i), Directory.set_of_ne _ _ (by simp)]

theorem Like.plus_self {n : Name} {d' : Directory} (h : Like (d.plus n) d') : d'.entries n = some d.next := by
  rw [h.entries]
  exact Directory.set_self d n _

theorem Like.plus_of_ne {n m : Name} {d' : Directory} (h : Like (d.plus n) d') (hm : m ≠ n) : d'.entries m = d.entries m := by
  rw [h.entries]
  exact Directory.set_of_ne d _ hm

/-- The temporary file comes and goes. -/
theorem like_discarded {d₁ : Directory} (hfree : d.entries (.exchange name random) = none) (h : Like (d.plus (.exchange name random)) d₁) :
    Like d (d₁.set (.exchange name random) none) := by
  refine ⟨?_, h.attrs, Nat.le_trans (Nat.le_succ _) h.next⟩
  rw [(h.set _ none).entries]
  change ((d.set _ _).set _ none).entries = _
  rw [Directory.set_set, Directory.set_same _ hfree]

/-- What the memory says of the public name. -/
def Remembered (name : Name) (memory : Option Identity) (d : Directory) : Prop :=
  (memory = none → d.entries name = none) ∧
    ∀ old, memory = some old → 0 < old.inode ∧ d.entries name = some old.inode ∧ d.identity old.inode = old

variable {memory : Option Identity} {data : String}

theorem fault_installTemporary {d₁ : Directory} (hfresh : Fresh name random d) (hd₁ : Like (d.plus (.exchange name random)) d₁)
    (hmemory : Remembered name memory d) (hbelow : ∀ old, memory = some old → old.inode < d.next) :
    OneFault (Works name) fault (installTemporary name (.exchange name random) d.next data memory) d₁
      (fun r d' => r = (.ok (d.identity d.next), false) ∧ Like (d.plus name) d' ∧ d'.contents d.next = data)
      fun c r d' => (∃ text, r.1 = .error text) ∧
        ((c.1.early ∧ r.2 = true ∧ Like (d.plus (.exchange name random)) d') ∨
          (c.1.early = false ∧ r.2 = false ∧ Swapped name d.next d d')) := by
  have hne := (exchange_ne name random).symm
  unfold installTemporary
  refine fault_writeTemporary.bind ?_ ?_
  · rintro r d₂ ⟨rfl, hlike, hcontents⟩
    have hd₂ := hd₁.trans hlike
    have hid : ∀ i, d₂.identity i = d.identity i := fun i => hd₂.identity i
    have hq : ∀ old, memory = some old → d₂.entries (.removal (.exchange name random) old.inode) = none := fun old hold => by
      rw [hd₂.plus_of_ne (removal_ne _ _), hfresh.2 old.inode (hbelow old hold)]
    have hname : d₂.entries name = d.entries name := hd₂.plus_of_ne hne
    have hmemory₂ : Remembered name memory d₂ := by
      simpa only [Remembered, hname, hid] using hmemory
    have hpublish := fault_publishTemporary hd₂.plus_self hq hmemory₂.1 hmemory₂.2
    rw [hid] at hpublish
    change OneFault _ _ (publishTemporary _ _ (d₁.identity d.next) _) _ _ _
    rw [hd₁.identity]
    refine hpublish.mono ?_ ?_
    · rintro r d' ⟨hr, hpublished, hsame⟩
      refine ⟨hr, ⟨?_, ?_, ?_⟩, by rw [hsame, hcontents]⟩
      · rw [hpublished.entries, ((like_discarded hfresh.1 hd₂).set name (some d.next)).entries]
        rfl
      · rw [hpublished.attrs]
        exact hd₂.attrs
      · exact Nat.le_trans hd₂.next hpublished.next
    · rintro c r d' ⟨hr, ⟨hearly, hpresent, hlike'⟩ | ⟨hearly, hpresent, hswapped⟩⟩
      · exact ⟨hr, .inl ⟨hearly, hpresent, hd₂.trans hlike'⟩⟩
      · refine ⟨hr, .inr ⟨hearly, hpresent, hswapped.1, fun i => ?_⟩⟩
        rw [hswapped.2 i, hd₂.plus_of_ne (by simp)]
  · rintro c r d₂ ⟨⟨text, rfl⟩, hearly, hlike⟩
    exact ⟨⟨_, rfl⟩, .inl ⟨hearly, rfl, hd₁.trans hlike⟩⟩

theorem clean_discard {result : Except String Identity} {d₁ : Directory} {Q : Except String Identity → Directory → Prop}
    (hfree : d.entries (.exchange name random) = none) (hd₁ : Like (d.plus (.exchange name random)) d₁)
    (h : ∀ d', Like d d' → Q result d') :
    Clean (Works name) (do
      let _ ← perform .discard (.unlink (.exchange name random))
      return result) d₁ Q :=
  clean_perform (by simp) (sysStep_unlink hd₁.plus_self) (h _ ((like_discarded hfree hd₁).trans ⟨rfl, rfl, Nat.le_refl _⟩))

theorem fault_replaceIdentity (hmemory : Remembered name memory d) (hbelow : ∀ old, memory = some old → old.inode < d.next) :
    OneFault (Works name) fault (replaceIdentity name data memory) d
      (fun r d' => r = .ok (d.identity d.next) ∧ Like (d.plus name) d' ∧ d'.contents d.next = data)
      fun c r d' => (∃ text, r = .error text) ∧ ((c.1.early ∧ Like d d') ∨ (c.1.early = false ∧ Swapped name d.next d d')) := by
  unfold replaceIdentity
  refine fault_createTemporary.bind ?_ ?_
  · rintro r d₁ ⟨random, hfresh, rfl, hd₁⟩
    refine (fault_installTemporary hfresh hd₁ hmemory hbelow).bind ?_ ?_
    · rintro r d₂ ⟨rfl, hlike, hcontents⟩
      exact ⟨rfl, hlike, hcontents⟩
    · rintro c ⟨result, present⟩ d₂ ⟨⟨text, rfl⟩, ⟨hearly, rfl, hlike⟩ | ⟨hearly, rfl, hswapped⟩⟩
      · exact clean_discard hfresh.1 hlike fun d' hd' => ⟨⟨text, rfl⟩, .inl ⟨hearly, hd'⟩⟩
      · exact ⟨⟨text, rfl⟩, .inr ⟨hearly, hswapped⟩⟩
  · rintro c r d₁ ⟨⟨text, rfl⟩, hearly, hlike⟩
    exact ⟨⟨text, rfl⟩, .inl ⟨hearly, hlike⟩⟩

/-- The public name has a file though none is remembered, or not the one that is. -/
def Mistaken (name : Name) (memory : Option Identity) (d : Directory) : Prop :=
  (memory = none → d.entries name ≠ none) ∧ ∀ old, memory = some old → d.entries name ≠ some old.inode

theorem clean_publish_mistaken {published : Identity} (ht : d.entries (.exchange name random) = some n)
    (hmemory : Mistaken name memory d) :
    Clean (Works name) (publishTemporary name (.exchange name random) published memory) d
      fun r d' => (∃ text, r.1 = .error text) ∧ r.2 = true ∧ d' = d := by
  cases memory with
  | none =>
    obtain ⟨i, hi⟩ := Option.ne_none_iff_exists'.1 (hmemory.1 rfl)
    have hstep : sysStep d {} (.rename (.exchange name random) name) = (d, some .exist) := by
      simp only [sysStep, ht, hi]
      rfl
    exact clean_perform (by simp) hstep ⟨⟨_, rfl⟩, rfl, rfl⟩
  | some old =>
    cases hname : d.entries name with
    | none => exact clean_perform (by simp) (sysStep_stat_none hname) ⟨⟨_, rfl⟩, rfl, rfl⟩
    | some i =>
      refine clean_perform (by simp) (sysStep_stat hname) ?_
      have hne : d.identity i ≠ old := by
        rintro rfl
        exact hmemory.2 _ rfl hname
      rw [if_pos (by simp [same, hne])]
      exact ⟨⟨_, rfl⟩, rfl, rfl⟩

/-- Then a replacement is refused and changes nothing. -/
theorem clean_replace_mistaken (hmemory : Mistaken name memory d) :
    Clean (Works name) (replaceIdentity name data memory) d fun r d' => (∃ text, r = .error text) ∧ Like d d' := by
  unfold replaceIdentity
  refine fault_createTemporary.clean.bind ?_
  rintro r d₁ ⟨random, hfresh, rfl, hd₁⟩
  have hinstall : Clean (Works name) (installTemporary name (.exchange name random) d.next data memory) d₁
      fun r d' => (∃ text, r.1 = .error text) ∧ r.2 = true ∧ Like (d.plus (.exchange name random)) d' := by
    unfold installTemporary
    refine fault_writeTemporary.clean.bind ?_
    rintro r d₂ ⟨rfl, hlike, -⟩
    have hd₂ := hd₁.trans hlike
    have hmemory₂ : Mistaken name memory d₂ := by
      simpa only [Mistaken, hd₂.plus_of_ne (exchange_ne name random).symm] using hmemory
    refine (clean_publish_mistaken hd₂.plus_self hmemory₂).mono ?_
    rintro r d' ⟨hr, hpresent, rfl⟩
    exact ⟨hr, hpresent, hd₂⟩
  refine hinstall.bind ?_
  rintro ⟨result, present⟩ d₂ ⟨⟨text, rfl⟩, rfl, hlike⟩
  exact clean_discard hfresh.1 hlike fun d' hd' => ⟨⟨text, rfl⟩, hd'⟩

end Replace

/-! ## Where a persist leaves the owner -/

/-- Inodes in use are below `next`, and a file under removal is the one its name
says. -/
structure Tidy (d : Directory) : Prop where
  pos : 0 < d.next
  below : ∀ n i, d.entries n = some i → i < d.next
  quarantined : ∀ n j i, d.entries (.removal n j) = some i → i = j

/-- The owner remembers the file that is there. -/
structure Owned (name : Name) (memory : Option Identity) (d : Directory) : Prop where
  tidy : Tidy d
  remembered : Remembered name memory d
  free : ∀ old, memory = some old → d.entries (.removal name old.inode) = none

/-- The file it remembers is under its private name. -/
structure Pending (name : Name) (memory : Option Identity) (d : Directory) : Prop where
  tidy : Tidy d
  gone : d.entries name = none
  quarantined : ∃ old, memory = some old ∧ 0 < old.inode ∧ d.entries (.removal name old.inode) = some old.inode ∧
    d.identity old.inode = old

/-- Nothing it remembers is there any more. -/
structure Lost (name : Name) (memory : Option Identity) (d : Directory) : Prop where
  mistaken : Mistaken name memory d
  free : ∀ old, memory = some old → d.entries (.removal name old.inode) = none

inductive Standing where
  | owned | pending | lost
  deriving DecidableEq, Repr

/-- After a removal that fails in the phase. -/
def Phase.standing : Phase → Standing
  | .before => .owned
  | .between => .pending
  | .past => .lost

/-- After a persist of the contents in which the call at the point fails. -/
def Standing.after (content : Option String) (p : Point) : Standing :=
  match content with
  | some _ => if p.early then .owned else .lost
  | none => p.phase.standing

/-- After a persist in which every call works. -/
def Standing.next (content : Option String) : Standing → Standing
  | .owned => .owned
  | .pending => if content.isNone then .owned else .pending
  | .lost => .lost

def Stands (name : Name) (memory : Option Identity) (d : Directory) : Standing → Prop
  | .owned => Owned name memory d
  | .pending => Pending name memory d
  | .lost => Lost name memory d

/-- The contents are public. -/
def Published (name : Name) : Option String → Directory → Prop
  | none, d => d.entries name = none
  | some data, d => ∃ i, d.entries name = some i ∧ d.contents i = data

section Like
variable {name : Name} {memory : Option Identity} {d d' : Directory}

theorem Tidy.like (h : Tidy d) (hd : Like d d') : Tidy d' where
  pos := Nat.lt_of_lt_of_le h.pos hd.next
  below := fun n i hi => Nat.lt_of_lt_of_le (h.below n i (by rw [← hd.entries]; exact hi)) hd.next
  quarantined := fun n j i hi => h.quarantined n j i (by rw [← hd.entries]; exact hi)

theorem Tidy.unset (h : Tidy d) (n : Name) : Tidy (d.set n none) := by
  have hentries : ∀ m i, (d.set n none).entries m = some i → d.entries m = some i := by
    intro m i hi
    by_cases hm : m = n
    · subst hm
      rw [Directory.set_self] at hi
      cases hi
    · rwa [Directory.set_of_ne _ _ hm] at hi
  exact ⟨h.pos, fun m i hi => h.below m i (hentries m i hi), fun m j i hi => h.quarantined m j i (hentries _ i hi)⟩

theorem Owned.like (h : Owned name memory d) (hd : Like d d') : Owned name memory d' where
  tidy := h.tidy.like hd
  remembered := by
    have hremembered := h.remembered
    simpa only [Remembered, hd.entries, hd.identity] using hremembered
  free := fun old hold => by rw [hd.entries]; exact h.free old hold

theorem Pending.like (h : Pending name memory d) (hd : Like d d') : Pending name memory d' where
  tidy := h.tidy.like hd
  gone := by rw [hd.entries]; exact h.gone
  quarantined := by
    obtain ⟨old, hold, hpos, hq, hid⟩ := h.quarantined
    exact ⟨old, hold, hpos, by rw [hd.entries]; exact hq, by rw [hd.identity]; exact hid⟩

theorem Lost.like (h : Lost name memory d) (hd : Like d d') : Lost name memory d' where
  mistaken := by
    have hmistaken := h.mistaken
    simpa only [Mistaken, hd.entries] using hmistaken
  free := fun old hold => by rw [hd.entries]; exact h.free old hold

theorem owned_none (h : Tidy d) (hname : d.entries name = none) : Owned name none d where
  tidy := h
  remembered := ⟨fun _ => hname, fun old hold => by cases hold⟩
  free := fun old hold => by cases hold

end Like

/-! ## One persist -/

section Persist
variable {file : String} {memory : Option Identity} {d d' : Directory} {content : Option String}

/-- A new file is the owner's. -/
theorem owned_replaced (hd : Owned (.file file) memory d) (h : Like (d.plus (.file file)) d') :
    Owned (.file file) (some (d.identity d.next)) d' := by
  have hother : ∀ n j, d'.entries (.removal n j) = d.entries (.removal n j) := fun n j => h.plus_of_ne (by simp)
  refine ⟨⟨Nat.lt_of_lt_of_le (Nat.succ_pos _) h.next, ?_, ?_⟩, ⟨by simp, ?_⟩, ?_⟩
  · intro n i hi
    by_cases hn : n = .file file
    · subst hn
      rw [h.plus_self] at hi
      cases hi
      exact h.next
    · rw [h.plus_of_ne hn] at hi
      exact Nat.lt_of_lt_of_le (hd.tidy.below n i hi) (Nat.le_trans (Nat.le_succ _) h.next)
  · intro n j i hi
    rw [hother] at hi
    exact hd.tidy.quarantined n j i hi
  · rintro old ⟨⟩
    exact ⟨hd.tidy.pos, h.plus_self, h.identity d.next⟩
  · rintro old ⟨⟩
    rw [hother]
    -- Nothing has the inode number of a new file yet.
    refine Option.eq_none_iff_forall_ne_some.2 fun i hi => ?_
    have hi' := hd.tidy.quarantined _ _ i hi
    have hlt := hd.tidy.below _ i hi
    subst hi'
    exact Nat.lt_irrefl _ hlt

/-- The owner did not learn of the exchange. -/
theorem lost_swapped (hd : Owned (.file file) memory d) (h : Swapped (.file file) d.next d d') : Lost (.file file) memory d' := by
  refine ⟨⟨fun _ => by rw [h.1]; simp, fun old hold => ?_⟩, fun old hold => ?_⟩
  · obtain ⟨-, hname, -⟩ := hd.remembered.2 old hold
    have hlt := hd.tidy.below _ _ hname
    rw [h.1]
    intro heq
    have := Option.some.inj heq
    omega
  · rw [h.2, hd.free old hold]

theorem stands_removing {old : Identity} {phase : Phase} (hd : Owned (.file file) (some old) d)
    (h : Like (d.removing (.file file) old.inode phase) d') : Stands (.file file) (some old) d' phase.standing := by
  obtain ⟨hpos, hname, hid⟩ := hd.remembered.2 old rfl
  have hne : Name.file file ≠ .removal (.file file) old.inode := by simp
  cases phase with
  | before => exact hd.like h
  | between =>
    have htidy : Tidy ((d.set (.file file) none).set (.removal (.file file) old.inode) (some old.inode)) := by
      have hunset := hd.tidy.unset (.file file)
      refine ⟨hunset.pos, fun n i hi => ?_, fun n j i hi => ?_⟩
      · by_cases hn : n = .removal (.file file) old.inode
        · subst hn
          rw [Directory.set_self] at hi
          cases hi
          exact hd.tidy.below _ _ hname
        · rw [Directory.set_of_ne _ _ hn] at hi
          exact hunset.below n i hi
      · by_cases hn : Name.removal n j = .removal (.file file) old.inode
        · cases hn
          rw [Directory.set_self] at hi
          cases hi
          rfl
        · rw [Directory.set_of_ne _ _ hn] at hi
          exact hunset.quarantined n j i hi
    have hpending : Pending (.file file) (some old)
        ((d.set (.file file) none).set (.removal (.file file) old.inode) (some old.inode)) :=
      ⟨htidy, by rw [Directory.set_of_ne _ _ hne, Directory.set_self], old, rfl, hpos, Directory.set_self _ _ _, hid⟩
    exact hpending.like h
  | past =>
    have hlost : Lost (.file file) (some old) (d.set (.file file) none) := by
      refine ⟨⟨by simp, fun _ _ => by simp⟩, ?_⟩
      rintro old' ⟨⟩
      rw [Directory.set_of_ne _ _ hne.symm, hd.free old rfl]
    exact hlost.like h

theorem fault_persist (hd : Owned (.file file) memory d) :
    OneFault (Works (.file file)) fault (persist (.file file) memory content) d
      (fun r d' => r.1 = none ∧ Published (.file file) content d' ∧ Owned (.file file) r.2 d')
      fun c r d' => Stands (.file file) r.2 d' (.after content c.1) := by
  have howned : ∀ {content}, Stands (.file file) memory d (.after content .verify) := by
    intro content
    cases content <;> exact hd
  unfold persist
  refine fault_perform (by simp) rfl howned ?_
  rw [if_neg (by simp)]
  cases content with
  | some data =>
    have hbelow : ∀ old, memory = some old → old.inode < d.next := fun old hold =>
      hd.tidy.below _ _ (hd.remembered.2 old hold).2.1
    refine (fault_replaceIdentity hd.remembered hbelow).bind ?_ ?_
    · rintro r d₁ ⟨rfl, hlike, hcontents⟩
      exact ⟨rfl, ⟨d.next, hlike.plus_self, hcontents⟩, owned_replaced hd hlike⟩
    · rintro c r d₁ ⟨⟨text, rfl⟩, ⟨hearly, hlike⟩ | ⟨hearly, hswapped⟩⟩
      · have h : Standing.after (some data) c.1 = .owned := if_pos hearly
        rw [h]
        exact hd.like hlike
      · have h : Standing.after (some data) c.1 = .lost := by simp [Standing.after, hearly]
        rw [h]
        exact lost_swapped hd hswapped
  | none =>
    cases memory with
    | none =>
      have hname := hd.remembered.1 rfl
      refine fault_perform (by simp) (sysStep_stat_none hname) hd ?_
      exact ⟨rfl, hname, hd⟩
    | some old =>
      obtain ⟨hpos, hname, hid⟩ := hd.remembered.2 old rfl
      refine (fault_removeIfIdentity hpos hname (hd.free old rfl) hid).bind ?_ ?_
      · rintro r d₁ ⟨rfl, hlike, -⟩
        have hgone : d₁.entries (.file file) = none := by rw [hlike.entries, Directory.set_self]
        exact ⟨rfl, hgone, owned_none ((hd.tidy.unset _).like hlike) hgone⟩
      · rintro c r d₁ ⟨⟨text, rfl⟩, -, hlike⟩
        exact stands_removing hd hlike

theorem clean_persist_pending (hd : Pending (.file file) memory d) :
    Clean (Works (.file file)) (persist (.file file) memory content) d fun r d' =>
      ((r.1 = none ∧ Published (.file file) content d') ↔ content = none) ∧
        Stands (.file file) r.2 d' (Standing.next content .pending) := by
  obtain ⟨old, rfl, hpos, hq, hid⟩ := hd.quarantined
  unfold persist
  refine clean_perform (by simp) rfl ?_
  rw [if_neg (by simp)]
  cases content with
  | some data =>
    have hmistaken : Mistaken (.file file) (some old) d := ⟨by simp, fun _ _ => by rw [hd.gone]; simp⟩
    refine (clean_replace_mistaken hmistaken).bind ?_
    rintro r d₁ ⟨⟨text, rfl⟩, hlike⟩
    exact ⟨by simp, hd.like hlike⟩
  | none =>
    have hremove : Clean (Works (.file file)) (removeIfIdentity (.file file) old) d fun r d' =>
        r = .ok true ∧ Like (d.set (.removal (.file file) old.inode) none) d' := by
      unfold removeIfIdentity
      rw [if_neg (by omega)]
      refine clean_perform (by simp) (sysStep_stat hq) ?_
      dsimp only
      rw [if_neg (by simp [hid])]
      exact (fault_removeQuarantined hd.gone hq hid).clean.mono fun r d' h => ⟨h.1, h.2.1⟩
    refine hremove.bind ?_
    rintro r d₁ ⟨rfl, hlike⟩
    have hgone : d₁.entries (.file file) = none := by
      rw [hlike.entries, Directory.set_of_ne _ _ (by simp), hd.gone]
    exact ⟨⟨fun _ => rfl, fun _ => ⟨rfl, hgone⟩⟩, owned_none ((hd.tidy.unset _).like hlike) hgone⟩

theorem clean_persist_lost (hd : Lost (.file file) memory d) :
    Clean (Works (.file file)) (persist (.file file) memory content) d fun r d' => r.1 ≠ none ∧ Lost (.file file) r.2 d' := by
  unfold persist
  refine clean_perform (by simp) rfl ?_
  rw [if_neg (by simp)]
  cases content with
  | some data =>
    refine (clean_replace_mistaken hd.mistaken).bind ?_
    rintro r d₁ ⟨⟨text, rfl⟩, hlike⟩
    exact ⟨by simp, hd.like hlike⟩
  | none =>
    cases memory with
    | none =>
      obtain ⟨i, hi⟩ := Option.ne_none_iff_exists'.1 (hd.mistaken.1 rfl)
      exact clean_perform (by simp) (sysStep_stat hi) ⟨by simp, hd⟩
    | some old =>
      have hremove : Clean (Works (.file file)) (removeIfIdentity (.file file) old) d fun r d' => r ≠ .ok true ∧ d' = d := by
        unfold removeIfIdentity
        refine sat_ite.2 ⟨fun _ => ⟨by simp, rfl⟩, fun _ => ?_⟩
        refine clean_perform (by simp) (sysStep_stat_none (hd.free old rfl)) ?_
        cases hname : d.entries (.file file) with
        | none => exact clean_perform (by simp) (sysStep_stat_none hname) ⟨by simp, rfl⟩
        | some i =>
          refine clean_perform (by simp) (sysStep_stat hname) ?_
          have hne : d.identity i ≠ old := by
            rintro rfl
            exact hd.mistaken.2 _ rfl hname
          dsimp only
          rw [if_pos hne]
          exact ⟨by simp, rfl⟩
      refine hremove.bind ?_
      rintro r d₁ ⟨hr, rfl⟩
      cases r with
      | error text => exact ⟨by simp, hd⟩
      | ok removed =>
        cases removed with
        | false => exact ⟨by simp, hd⟩
        | true => exact absurd rfl hr

/-- A persist with every call working succeeds if it leaves the file its owner's. -/
theorem clean_persist {standing : Standing} (hd : Stands (.file file) memory d standing) :
    Clean (Works (.file file)) (persist (.file file) memory content) d fun r d' =>
      ((r.1 = none ∧ Published (.file file) content d') ↔ standing.next content = .owned) ∧
        Stands (.file file) r.2 d' (standing.next content) := by
  cases standing with
  | owned => exact (fault_persist hd).clean.mono fun r d' h => ⟨⟨fun _ => rfl, fun _ => ⟨h.1, h.2.1⟩⟩, h.2.2⟩
  | pending =>
    refine (clean_persist_pending hd).mono fun r d' h => ⟨h.1.trans ?_, h.2⟩
    cases content <;> simp [Standing.next]
  | lost =>
    refine (clean_persist_lost hd).mono fun r d' h => ⟨⟨fun hr => absurd hr.1 h.1, fun hnext => ?_⟩, h.2⟩
    cases hnext

end Persist

/-! ## Later persists -/

/-- The persists of a shim, whatever becomes of each. -/
def persistAll (name : Name) (memory : Option Identity) : List (Option String) → Act (Option Identity)
  | [] => return memory
  | content :: contents => do
    let r ← persist name memory content
    persistAll name r.2 contents

/-- The last of them, with what it returns. -/
def persistLast (name : Name) (memory : Option Identity) (contents : List (Option String)) (content : Option String) :
    Act (Option String × Option Identity) := do
  persist name (← persistAll name memory contents) content

/-- The later persists bring the file back under its owner's memory: nothing was
lost, or it is only to be removed and one of them removes it. -/
def recovers (content : Option String) (p : Point) (later : List (Option String)) : Bool :=
  match content with
  | some _ => p.early
  | none =>
    match p.phase with
    | .before => true
    | .between => later.any Option.isNone
    | .past => false

/-- The standing after persists in which every call works. -/
def Standing.run (standing : Standing) (contents : List (Option String)) : Standing :=
  contents.foldl (fun s content => s.next content) standing

theorem run_owned (contents : List (Option String)) : Standing.owned.run contents = .owned := by
  induction contents with
  | nil => rfl
  | cons content contents ih => exact ih

theorem run_lost (contents : List (Option String)) : Standing.lost.run contents = .lost := by
  induction contents with
  | nil => rfl
  | cons content contents ih => exact ih

theorem run_pending (contents : List (Option String)) :
    Standing.pending.run contents = .owned ↔ contents.any Option.isNone := by
  induction contents with
  | nil => simp [Standing.run]
  | cons content contents ih =>
    cases content with
    | none =>
      rw [show Standing.pending.run (none :: contents) = Standing.owned.run contents from rfl]
      simp [run_owned]
    | some data =>
      rw [show Standing.pending.run (some data :: contents) = Standing.pending.run contents from rfl]
      simpa using ih

theorem recovers_iff (content : Option String) (p : Point) (later : List (Option String)) :
    (Standing.after content p).run later = .owned ↔ recovers content p later := by
  cases content with
  | some data =>
    cases hearly : p.early
    · simp [Standing.after, recovers, hearly, run_lost]
    · simp [Standing.after, recovers, hearly, run_owned]
  | none =>
    cases hphase : p.phase
    · simp [Standing.after, recovers, hphase, Phase.standing, run_owned]
    · simpa [Standing.after, recovers, hphase, Phase.standing] using run_pending later
    · simp [Standing.after, recovers, hphase, Phase.standing, run_lost]

section Later
variable {file : String} {memory : Option Identity} {d : Directory} {standing : Standing}

theorem clean_persistAll (contents : List (Option String)) (hd : Stands (.file file) memory d standing) :
    Clean (Works (.file file)) (persistAll (.file file) memory contents) d fun memory' d' =>
      Stands (.file file) memory' d' (standing.run contents) := by
  induction contents generalizing memory d standing with
  | nil => exact hd
  | cons content contents ih => exact (clean_persist hd).bind fun r d₁ h => ih h.2

theorem clean_persistLast (contents : List (Option String)) (content : Option String) (hd : Stands (.file file) memory d standing) :
    Clean (Works (.file file)) (persistLast (.file file) memory contents content) d fun r d' =>
      (r.1 = none ∧ Published (.file file) content d') ↔
        standing.run (contents ++ [content]) = .owned := by
  refine (clean_persistAll contents hd).bind fun memory' d₁ hd₁ => (clean_persist hd₁).mono fun r d' h => ?_
  rw [Standing.run, List.foldl_append]
  exact h.1

end Later

/-! ## A shim that goes on after a fault -/

/-- The directory with a record of the system call that has failed. -/
abbrev Recorded : Machine FsI := Fs.recording fun a => a.fails.isSome

/-- No other process interferes, at most one call fails, and random names are
new. A call fails by itself with neither `ENOENT` nor `EEXIST`, which say
something about the directory. -/
def Undisturbed (name : Name) (w : Recorded.World) (c : Call) (a : Answer) : Prop :=
  a.meddle = none ∧ a.attrs = none ∧ (a.fails = none ∨ (a.fails = some .other ∧ w.2 = none)) ∧
    (c.2 = .random → Fresh name a.random w.1)

theorem faulty_of_undisturbed {name : Name} {w w' : Recorded.World} {c : Call} {r : c.2.Reply}
    (h : Recorded.trans (Undisturbed name) w c r w') : faulty (Works name) fault w c r w' := by
  obtain ⟨a, ⟨hmeddle, hattrs, hfails, hfresh⟩, hstep⟩ := h
  have hsame : w.1.meddled a = w.1 := by simp [Directory.meddled, hmeddle, hattrs]
  change ((((step w.1 c a).1, if a.fails.isSome then some c else w.2), (step w.1 c a).2) : Recorded.World × c.2.Reply) = (w', r) at hstep
  obtain hfails | ⟨hfails, hnone⟩ := hfails
  · have hworks : step w.1 c a = sysStep w.1 a c.2 := by simp [step, hfails, hsame]
    rw [hworks, hfails] at hstep
    cases hstep
    exact .inl ⟨⟨a, hfresh, rfl⟩, rfl⟩
  · have hfailed : step w.1 c a = (w.1, c.2.failure .other) := by simp [step, hfails, hsame]
    rw [hfailed, hfails] at hstep
    cases hstep
    exact .inr ⟨hnone, rfl, rfl⟩

theorem sat_undisturbed {name : Name} {α : Type} {p : Act α} {w : Recorded.World} {Q : α → Recorded.World → Prop}
    (h : Sat (faulty (Works name) fault) (fun _ _ => True) p w Q) :
    Sat (Recorded.trans (Undisturbed name)) (fun _ _ => True) p w Q := by
  refine h.simulate (R := fun w' w => w' = w) rfl ?_ (fun _ _ _ _ _ => trivial) ?_
  · rintro _ w c r w' rfl - hr
    exact ⟨w', faulty_of_undisturbed hr, rfl⟩
  · rintro _ w a rfl hQ
    exact hQ

theorem later_persist_iff (file : String) (memory : Option Identity) (d : Directory) (hd : Owned (.file file) memory d)
    (content : Option String) (f : Nat → Answer)
    (hf : Always Recorded (Undisturbed (.file file)) (persist (.file file) memory content) (d, none) f)
    (c : Call) (d' : Directory) (r : Option String × Option Identity)
    (hfinish : finish Recorded (persist (.file file) memory content) (d, none) f = ((d', some c), r))
    (contents : List (Option String)) (last : Option String) (g : Nat → Answer)
    (hg : Always Recorded (Undisturbed (.file file)) (persistLast (.file file) r.2 contents last) (d', some c) g) :
    ((finish Recorded (persistLast (.file file) r.2 contents last) (d', some c) g).2.1 = none ∧
        Published (.file file) last (finish Recorded (persistLast (.file file) r.2 contents last) (d', some c) g).1.1) ↔
      recovers content c.1 (contents ++ [last]) := by
  have hstands : Stands (.file file) r.2 d' (.after content c.1) := by
    have h := (sat_undisturbed (fault_persist hd).sat).finish hf
    rw [hfinish] at h
    obtain ⟨hnone, -⟩ | ⟨c', hc', hstands⟩ := h
    · cases hnone
    · cases hc'
      exact hstands
  have hlast := (sat_undisturbed ((clean_persistLast contents last hstands).faulty c)).finish hg
  rw [← recovers_iff]
  exact hlast.2

instance (name : Name) (random : Nat) (d : Directory) : Decidable (Fresh name random d) :=
  inferInstanceAs (Decidable (_ ∧ _))

instance (name : Name) (w : Recorded.World) (c : Call) (a : Answer) : Decidable (Undisturbed name w c a) :=
  decidable_of_iff (a.meddle = none ∧ a.attrs.isNone ∧ (a.fails = none ∨ (a.fails = some .other ∧ w.2 = none)) ∧
    (c.2 = .random → Fresh name a.random w.1)) (by simp [Undisturbed])

def undisturbedAt (name : Name) (w : Recorded.World) (c : Call) (a : Answer) : Bool := decide (Undisturbed name w c a)

theorem undisturbed_of {name : Name} (w : Recorded.World) (c : Call) (a : Answer) (h : undisturbedAt name w c a) :
    Undisturbed name w c a := of_decide_eq_true h

theorem always_undisturbed {α : Type} {name : Name} {p : Act α} {w : Recorded.World} {f : Nat → Answer}
    (h : passesAlways Recorded (undisturbedAt name) p w f) : Always Recorded (Undisturbed name) p w f :=
  always_of_passes Recorded undisturbed_of h

/-- The recovery record is file 1. -/
def recorded : Directory where
  entries := fun n => if n = .file "sandbox.json" then some 1 else none
  attrs := fun _ => 0
  contents := fun _ => ""
  next := 2

theorem owned_recorded : Owned (.file "sandbox.json") (some ⟨1, 0⟩) recorded := by
  refine ⟨⟨by decide, ?_, ?_⟩, ⟨by simp, ?_⟩, ?_⟩
  · intro n i hi
    simp only [recorded] at hi ⊢
    split at hi <;> cases hi
    decide
  · intro n j i hi
    simp [recorded] at hi
  · rintro old ⟨⟩
    decide
  · rintro old ⟨⟩
    rfl

/-- The call of that number fails. -/
def faultAt (k : Nat) (n : Nat) : Answer := if n = k then { fails := some .other } else {}

/-- A persist of the record with that fault, and the next one. -/
def firstPersist (k : Nat) : Recorded.World × Option String × Option Identity :=
  finish Recorded (persistRecovery (some ⟨1, 0⟩) "one") (recorded, none) (faultAt k)

def nextPersist (k : Nat) : Recorded.World × Option String × Option Identity :=
  finish Recorded (persistRecovery (firstPersist k).2.2 "two") (firstPersist k).1 fun _ => {}

theorem later_persist_after_write :
    (nextPersist 3).2.1 = none ∧ Published (.file "sandbox.json") (some "two") (nextPersist 3).1.1 :=
  (later_persist_iff "sandbox.json" (some ⟨1, 0⟩) recorded owned_recorded (some "one") (faultAt 3)
    (always_undisturbed (by decide +kernel))
    (.write, .write 2 "one") (firstPersist 3).1.1 (firstPersist 3).2 (Prod.ext (Prod.ext rfl (by decide +kernel)) rfl)
    [] (some "two") (fun _ => {})
    (always_undisturbed (by decide +kernel))).2 (by decide)

theorem later_persist_refused :
    (firstPersist 23).1.2 = some (.syncDirectory, .syncDirectory) ∧
      (nextPersist 23).2.1 = some "replacement target identity changed" := by
  decide +kernel

end Multikernel.Safefile
