import Multikernel.Safefile.Directory
/-!
# Foreign files under a race

While one `ReplaceIdentity` or `RemoveIfIdentity` runs, other processes create,
rename, replace and unlink at the public name. `RemoveIfIdentity` unlinks only
the expected file. `ReplaceIdentity` exchanges a raced substitute back and then
unlinks what came back under its temporary name, which is its own file only if
the public name still held that file (`unlinks_own`). Otherwise it destroys a
foreign one (`unlinks_foreign`).
-/

namespace Multikernel.Safefile
open Lib
variable {p : Point} {d' : Directory} {inode : Nat} {data : String}

/-- The file is the expected one, or one the call has made. -/
def Own (expected : Option Identity) (d : Directory) (i : Nat) : Prop := i ∈ d.created ∨ expected.map (·.inode) = some i

/-- The call has unlinked no file but its own. -/
def Spared (expected : Option Identity) (d : Directory) : Prop := ∀ i ∈ d.unlinked, Own expected d i

def Linked (d : Directory) (i : Nat) : Prop := ∃ n, d.entries n = some i

/-- Other processes work at the public name only. -/
def Outside (name : Name) (_ : Directory) (_ : Call) (a : Answer) : Prop :=
  ∀ m ∈ a.meddle, m.1 = name

/-- And when the call takes an exchange back, the public name holds a file of its
own, or none. -/
def Calm (name : Name) (expected : Option Identity) (d : Directory) (c : Call) (a : Answer) : Prop :=
  Outside name d c a ∧ (c.1 = .exchangeBack → ∀ i ∈ (d.meddled a).entries name, Own expected d i)

/-- Nothing but a file of the call is under the name. -/
def Holds (expected : Option Identity) (n : Name) (d : Directory) : Prop := ∀ i, d.entries n = some i → Own expected d i

/-- The call unlinks at private names only, and its own files. -/
def Careful (name : Name) (expected : Option Identity) (d : Directory) (c : Call) : Prop :=
  ∀ n, c.2 = .unlink n → n ≠ name ∧ Holds expected n d

/-! ## One system call -/

section Steps
variable {name n : Name} {expected : Option Identity} {d d' : Directory} {a : Answer} {s : Sys}

@[simp] theorem meddled_created : (d.meddled a).created = d.created := by
  unfold Directory.meddled
  split <;> rfl

@[simp] theorem meddled_unlinked : (d.meddled a).unlinked = d.unlinked := by
  unfold Directory.meddled
  split <;> rfl

theorem meddled_entries {c : Call} (h : Outside name d c a) (hn : n ≠ name) : (d.meddled a).entries n = d.entries n := by
  unfold Directory.meddled
  split
  · rfl
  · rename_i m entry hm
    have hm : m = name := h _ hm
    exact Directory.set_of_ne d entry (by rw [hm]; exact hn)

theorem holds_meddled {c : Call} (h : Outside name d c a) (hn : n ≠ name) (hd : Holds expected n d) :
    Holds expected n (d.meddled a) := by
  intro i hi
  rw [meddled_entries h hn] at hi
  simpa [Own] using hd i hi

/-- A call fails without effect, or does what it is for. -/
theorem fs_cases {E : Directory → Call → Answer → Prop} {r : s.Reply} (h : Fs.trans E d (p, s) r d') :
    ∃ a, E d (p, s) a ∧ ((∃ e, r = s.failure e ∧ d' = d.meddled a) ∨ sysStep (d.meddled a) a s = (d', r)) := by
  obtain ⟨a, ha, hstep⟩ := h
  refine ⟨a, ha, ?_⟩
  simp only [step] at hstep
  split at hstep
  · rename_i e _
    exact .inl ⟨e, (congrArg Prod.snd hstep).symm, (congrArg Prod.fst hstep).symm⟩
  · exact .inr hstep

/-- A call that leaves every entry alone. -/
def Sys.quiet : Sys → Bool
  | .create _ | .rename _ _ | .exchange _ _ | .unlink _ => false
  | _ => true

theorem quiet_sysStep (hs : s.quiet) :
    (sysStep d a s).1.entries = d.entries ∧ (sysStep d a s).1.created = d.created ∧
      (sysStep d a s).1.unlinked = d.unlinked := by
  cases s with
  | create | rename | exchange | unlink => cases hs
  | stat | openPath => simp only [sysStep]; split <;> exact ⟨rfl, rfl, rfl⟩
  | verify | random | write | chmod | fsync | fstat | close | syncDirectory => exact ⟨rfl, rfl, rfl⟩

/-- What reports an error has no effect. -/
theorem sysStep_failure {e : Errno} (h : sysStep d a s = (d', s.failure e)) : d' = d := by
  cases s with
  | create | rename | exchange | unlink | stat | openPath =>
    simp only [sysStep] at h
    split at h <;> cases h <;> rfl
  | random | fstat | verify | write | chmod | fsync | close | syncDirectory => cases h

/-- Every call but `unlink` keeps what is linked. -/
theorem linked_sysStep (hs : ∀ m, s ≠ .unlink m) {i : Nat} (hi : Linked d i) : Linked (sysStep d a s).1 i := by
  obtain ⟨k, hk⟩ := hi
  by_cases hq : s.quiet
  · exact ⟨k, by rw [(quiet_sysStep hq).1]; exact hk⟩
  cases s with
  | unlink m => exact absurd rfl (hs m)
  | create m =>
    simp only [sysStep]
    split
    · exact ⟨k, hk⟩
    · rename_i hm
      have hne : k ≠ m := by rintro rfl; rw [hm] at hk; cases hk
      exact ⟨k, by simpa [Directory.set, hne] using hk⟩
  | rename m m' =>
    simp only [sysStep]
    split
    · exact ⟨k, hk⟩
    · exact ⟨k, hk⟩
    · rename_i j hj hfree
      have hfree' : k ≠ m' := by rintro rfl; rw [hfree] at hk; cases hk
      by_cases hm : k = m
      · subst hm
        exact ⟨m', by rw [Directory.set_self, ← hj, hk]⟩
      · exact ⟨k, by rw [Directory.set_of_ne _ _ hfree', Directory.set_of_ne _ _ hm, hk]⟩
  | exchange m m' =>
    simp only [sysStep]
    split
    · rename_i j j' hj hj'
      by_cases hm : k = m
      · subst hm
        exact ⟨m', by rw [Directory.set_self, ← hj, hk]⟩
      by_cases hm' : k = m'
      · subst hm'
        exact ⟨m, by rw [Directory.set_of_ne _ _ (Ne.symm hm), Directory.set_self, ← hj', hk]⟩
      · exact ⟨k, by rw [Directory.set_of_ne _ _ hm', Directory.set_of_ne _ _ hm, hk]⟩
    · exact ⟨k, hk⟩
  | _ => exact absurd rfl hq

/-- Only `unlink` unlinks, and no file is forgotten. -/
theorem sysStep_history (hs : ∀ m, s ≠ .unlink m) :
    (sysStep d a s).1.unlinked = d.unlinked ∧ ∀ i ∈ d.created, i ∈ (sysStep d a s).1.created := by
  by_cases hq : s.quiet
  · obtain ⟨-, hcreated, hunlinked⟩ := quiet_sysStep (d := d) (a := a) hq
    rw [hcreated, hunlinked]
    exact ⟨rfl, fun i hi => hi⟩
  cases s with
  | unlink m => exact absurd rfl (hs m)
  | create m =>
    simp only [sysStep]
    split
    · exact ⟨rfl, fun i hi => hi⟩
    · exact ⟨rfl, fun i hi => List.mem_cons_of_mem _ hi⟩
  | rename | exchange => simp only [sysStep]; split <;> exact ⟨rfl, fun i hi => hi⟩
  | _ => exact absurd rfl hq

/-- A file found under a name is there. -/
theorem entry_of_same {E : Directory → Call → Answer → Prop} {r : Except Errno Identity} {id : Identity}
    (h : Fs.trans E d (p, .stat n) r d') (hr : same r id) : d'.entries n = some id.inode := by
  obtain ⟨a, ha, ⟨e, rfl, -⟩ | hstep⟩ := fs_cases h
  · cases hr
  · simp only [sysStep] at hstep
    split at hstep
    · cases hstep
      cases hr
    · rename_i j hj
      cases hstep
      have hid : (d.meddled a).identity j = id := by simpa [same] using hr
      rw [hj, ← hid]
      rfl

theorem careful (hs : ∀ m, s ≠ .unlink m) : Careful name expected d (p, s) :=
  fun m h => absurd h (hs m)

end Steps

/-! ## A careful call harms nothing foreign -/

section Careful
variable {name : Name} {expected : Option Identity} {d : Directory} {c : Call} {a : Answer}

theorem spared_of_careful (hc : Careful name expected d c) (ha : Outside name d c a) (hd : Spared expected d) :
    Spared expected (step d c a).1 := by
  have hm : Spared expected (d.meddled a) := by simpa only [Spared, Own, meddled_unlinked, meddled_created] using hd
  obtain ⟨p, s⟩ := c
  unfold step
  split
  · exact hm
  by_cases hs : ∀ m, s ≠ .unlink m
  · obtain ⟨hunlinked, hcreated⟩ := sysStep_history (d := d.meddled a) (a := a) hs
    intro i hi
    rw [hunlinked] at hi
    exact (hm i hi).imp_left (hcreated i)
  · obtain ⟨n, rfl⟩ : ∃ n, s = .unlink n := by simpa using hs
    obtain ⟨hn, hown⟩ := hc n rfl
    simp only [sysStep]
    split
    · exact hm
    · rename_i j hj
      intro i hi
      obtain rfl | hi := List.mem_cons.1 hi
      · exact holds_meddled ha hn hown i hj
      · exact hm i hi

/-- What it takes from a name is not foreign, and it moves the rest. -/
theorem linked_of_careful (hc : Careful name expected d c) (ha : Outside name d c a) {i : Nat}
    (hi : Linked (d.meddled a) i) (hforeign : ¬Own expected d i) : Linked (step d c a).1 i := by
  obtain ⟨p, s⟩ := c
  unfold step
  split
  · exact hi
  by_cases hs : ∀ m, s ≠ .unlink m
  · exact linked_sysStep hs hi
  · obtain ⟨n, rfl⟩ : ∃ n, s = .unlink n := by simpa using hs
    obtain ⟨hn, hown⟩ := hc n rfl
    obtain ⟨k, hk⟩ := hi
    have hne : k ≠ n := by
      rintro rfl
      have := holds_meddled ha hn hown i hk
      exact hforeign (by simpa [Own] using this)
    simp only [sysStep]
    split
    · exact ⟨k, hk⟩
    · exact ⟨k, by simpa [Directory.set, hne] using hk⟩

end Careful

/-- While the others are calm, the program unlinks carefully. -/
def Carefully {α : Type} (name : Name) (expected : Option Identity) (p : Prog FsI α) (d : Directory)
    (Q : α → Directory → Prop) : Prop :=
  Sat (Fs.trans (Calm name expected)) (Careful name expected) p d Q

/-! ## Private names -/

theorem exchange_ne (name : Name) (random : Nat) : Name.exchange name random ≠ name := by
  intro h
  have hsize := congrArg sizeOf h
  simp only [Name.exchange.sizeOf_spec] at hsize
  omega

theorem removal_ne (name : Name) (inode : Nat) : Name.removal name inode ≠ name := by
  intro h
  have hsize := congrArg sizeOf h
  simp only [Name.removal.sizeOf_spec] at hsize
  omega

theorem removal_exchange_ne (name : Name) (random inode : Nat) : Name.removal (.exchange name random) inode ≠ name := by
  intro h
  have hsize := congrArg sizeOf h
  simp only [Name.removal.sizeOf_spec, Name.exchange.sizeOf_spec] at hsize
  omega

/-! ## `RemoveIfIdentity` -/

section Remove
variable {name file : Name} {expected : Identity} {d : Directory} (hq : Name.removal file expected.inode ≠ name)
include hq

theorem careful_removeQuarantined :
    Carefully name (some expected) (removeQuarantined file expected) d fun _ _ => True := by
  unfold removeQuarantined
  refine ⟨careful (by simp), fun r d₁ h₁ => ?_⟩
  cases r with
  | error e => trivial
  | ok inode =>
    refine ⟨careful (by simp), fun opened d₂ h₂ => ⟨careful (by simp), fun closed d₃ h₃ => ?_⟩⟩
    refine Sat.unless trivial fun _ => Sat.unless trivial fun _ => ?_
    refine ⟨careful (by simp), fun found d₄ h₄ => Sat.unless trivial fun hsame => ⟨?_, fun unlinked d₅ h₅ => ?_⟩⟩
    · -- The expected file is under the private name, where nothing else puts one.
      have hentry := entry_of_same h₄ (by simpa using hsame)
      rintro n ⟨⟩
      refine ⟨hq, fun i hi => .inr ?_⟩
      rw [hentry] at hi
      exact hi
    · refine Sat.unless trivial fun _ => ⟨careful (by simp), fun gone d₆ h₆ => ?_⟩
      cases gone with
      | ok found => trivial
      | error e =>
        cases e with
        | noent => exact ⟨careful (by simp), fun synced d₇ h₇ => Sat.unless trivial fun _ => trivial⟩
        | exist | other => trivial

theorem careful_quarantineFile : Carefully name (some expected) (quarantineFile file expected) d fun _ _ => True := by
  unfold quarantineFile
  refine ⟨careful (by simp), fun r d₁ h₁ => Sat.unless trivial fun _ => ?_⟩
  refine ⟨careful (by simp), fun moved d₂ h₂ => Sat.unless ?_ fun _ => careful_removeQuarantined hq⟩
  exact ⟨careful (by simp), fun restored d₃ h₃ => trivial⟩

/-- Whatever happens at the public name, only the expected file is unlinked. -/
theorem careful_removeIfIdentity :
    Carefully name (some expected) (removeIfIdentity file expected) d fun _ _ => True := by
  unfold removeIfIdentity
  refine Sat.unless trivial fun _ => ⟨careful (by simp), fun r d₁ h₁ => ?_⟩
  cases r with
  | ok quarantined => exact Sat.unless trivial fun _ => careful_removeQuarantined hq
  | error e =>
    cases e with
    | exist | other => trivial
    | noent =>
      refine ⟨careful (by simp), fun r d₂ h₂ => ?_⟩
      cases r with
      | ok current => exact Sat.unless trivial fun _ => careful_quarantineFile hq
      | error e => cases e <;> trivial

end Remove

/-! ## `ReplaceIdentity` -/

section Replace
variable {name : Name} {expected : Option Identity} {d : Directory}

/-- The new private file is the call's own. -/
theorem careful_createTemporary (attempts : Nat) :
    Carefully name expected (createTemporary name attempts) d
      fun r d' => ∀ temporary inode, r = .ok (temporary, inode) →
        (∃ random, temporary = .exchange name random) ∧ Holds expected temporary d' := by
  induction attempts generalizing d with
  | zero => rintro temporary inode ⟨⟩
  | succ attempts ih =>
    refine ⟨careful (by simp), fun r d₁ h₁ => ?_⟩
    cases r with
    | error e => rintro temporary inode ⟨⟩
    | ok random =>
      refine ⟨careful (by simp), fun r d₂ h₂ => ?_⟩
      cases r with
      | error e =>
        cases e with
        | exist => exact ih
        | noent | other => rintro temporary inode ⟨⟩
      | ok inode =>
        rintro temporary inode' ⟨⟩
        refine ⟨⟨random, rfl⟩, ?_⟩
        obtain ⟨a, -, ⟨e, he, -⟩ | hstep⟩ := fs_cases h₂
        · cases he
        · simp only [sysStep] at hstep
          split at hstep
          · cases hstep
          · cases hstep
            intro i hi
            have hi : (d₁.meddled a).next = i := by simpa using hi
            exact .inl (by simp [← hi])

variable {temporary : Name} (hn : temporary ≠ name)
include hn

theorem holds_quiet {s : Sys} {r : s.Reply} (h : Fs.trans (Calm name expected) d (p, s) r d') (hs : s.quiet)
    (ht : Holds expected temporary d) : Holds expected temporary d' := by
  obtain ⟨a, ha, ⟨e, -, rfl⟩ | hstep⟩ := fs_cases h
  · exact holds_meddled ha.1 hn ht
  · obtain ⟨hentries, hcreated, -⟩ := quiet_sysStep (d := d.meddled a) (a := a) hs
    rw [hstep] at hentries hcreated
    intro i hi
    rw [hentries] at hi
    have hown := holds_meddled ha.1 hn ht i hi
    rwa [Own, ← hcreated] at hown

theorem holds_failed {s : Sys} {e : Errno} (h : Fs.trans (Calm name expected) d (p, s) (s.failure e) d')
    (ht : Holds expected temporary d) : Holds expected temporary d' := by
  obtain ⟨a, ha, ⟨-, -, rfl⟩ | hstep⟩ := fs_cases h
  · exact holds_meddled ha.1 hn ht
  · rw [sysStep_failure hstep]
    exact holds_meddled ha.1 hn ht

theorem careful_fillTemporary (ht : Holds expected temporary d) :
    Carefully name expected (fillTemporary inode data) d fun _ => Holds expected temporary := by
  refine ⟨careful (by simp), fun r d₁ h₁ => ?_⟩
  have ht₁ := holds_quiet hn h₁ rfl ht
  refine Sat.unless ht₁ fun _ => ⟨careful (by simp), fun r d₂ h₂ => ?_⟩
  have ht₂ := holds_quiet hn h₂ rfl ht₁
  refine Sat.unless ht₂ fun _ => ⟨careful (by simp), fun r d₃ h₃ => ?_⟩
  have ht₃ := holds_quiet hn h₃ rfl ht₂
  refine Sat.unless ht₃ fun _ => ⟨careful (by simp), fun r d₄ h₄ => ?_⟩
  have ht₄ := holds_quiet hn h₄ rfl ht₃
  cases r <;> exact ht₄

theorem careful_writeTemporary (ht : Holds expected temporary d) :
    Carefully name expected (writeTemporary inode data) d fun _ => Holds expected temporary := by
  refine (careful_fillTemporary hn ht).bind fun filled d₁ ht₁ => ⟨careful (by simp), fun r d₂ h₂ => ?_⟩
  have ht₂ := holds_quiet hn h₂ rfl ht₁
  exact Sat.unless ht₂ fun _ => ht₂

/-- The exchange taken back leaves the call's own file under the temporary name,
if the public name held one. -/
theorem holds_exchangeBack (h : Fs.trans (Calm name expected) d (.exchangeBack, .exchange temporary name) none d')
    : Holds expected temporary d' := by
  obtain ⟨a, ha, ⟨e, he, -⟩ | hstep⟩ := fs_cases h
  · cases he
  · simp only [sysStep] at hstep
    split at hstep
    · rename_i i j hi hj
      cases hstep
      intro k hk
      rw [Directory.set_of_ne _ _ hn, Directory.set_self] at hk
      have hown := ha.2 rfl k (hj.trans hk)
      simpa [Own] using hown
    · cases hstep

theorem careful_settleExchange {published old : Identity} (hq : Name.removal temporary old.inode ≠ name) :
    Carefully name (some old) (settleExchange name temporary published old) d
      fun r d' => r.2 → Holds (some old) temporary d' := by
  refine ⟨careful (by simp), fun r d₁ h₁ => ⟨careful (by simp), fun r d₂ h₂ => ?_⟩⟩
  refine sat_ite.2 ⟨fun _ => ⟨careful (by simp), fun back d₃ h₃ hback => ?_⟩, fun _ => ?_⟩
  · change Option Errno at back
    cases back with
    | some e => cases hback
    | none => exact holds_exchangeBack hn h₃
  · refine (careful_removeIfIdentity hq).bind fun r d₃ _ => ?_
    cases r with
    | error text => rintro ⟨⟩
    | ok removed =>
      cases removed with
      | false => rintro ⟨⟩
      | true =>
        refine ⟨careful (by simp), fun r d₄ h₄ => Sat.unless ?_ fun _ => ?_⟩
        · rintro ⟨⟩
        · rintro ⟨⟩

theorem careful_publishTemporary {published : Identity} (hq : ∀ old, expected = some old → Name.removal temporary old.inode ≠ name)
    (ht : Holds expected temporary d) :
    Carefully name expected (publishTemporary name temporary published expected) d
      fun r d' => r.2 → Holds expected temporary d' := by
  cases expected with
  | none =>
    refine ⟨careful (by simp), fun r d₁ h₁ => ?_⟩
    change Option Errno at r
    cases r with
    | some e => exact fun _ => holds_failed hn h₁ ht
    | none =>
      refine ⟨careful (by simp), fun r d₂ h₂ => Sat.unless ?_ fun _ => ?_⟩
      · rintro ⟨⟩
      · rintro ⟨⟩
  | some old =>
    refine ⟨careful (by simp), fun r d₁ h₁ => ?_⟩
    have ht₁ := holds_quiet hn h₁ rfl ht
    refine sat_ite.2 ⟨fun _ _ => ht₁, fun _ => ⟨careful (by simp), fun r d₂ h₂ => ?_⟩⟩
    change Option Errno at r
    cases r with
    | some e => exact fun _ => holds_failed hn h₂ ht₁
    | none => exact careful_settleExchange hn (hq old rfl)

theorem careful_installTemporary (hq : ∀ old, expected = some old → Name.removal temporary old.inode ≠ name)
    (ht : Holds expected temporary d) :
    Carefully name expected (installTemporary name temporary inode data expected) d
      fun r d' => r.2 → Holds expected temporary d' := by
  refine (careful_writeTemporary hn ht).bind fun written d₁ ht₁ => ?_
  cases written with
  | error text => exact fun _ => ht₁
  | ok published => exact careful_publishTemporary hn hq ht₁

omit hn in
theorem careful_replaceIdentity : Carefully name expected (replaceIdentity name data expected) d fun _ _ => True := by
  refine (careful_createTemporary 16).bind fun r d₁ hmade => ?_
  cases r with
  | error text => trivial
  | ok made =>
    obtain ⟨⟨random, hrandom⟩, ht⟩ := hmade made.1 made.2 rfl
    have hn : made.1 ≠ name := by rw [hrandom]; exact exchange_ne name random
    have hq : ∀ old, expected = some old → Name.removal made.1 old.inode ≠ name := by
      intro old _
      rw [hrandom]
      exact removal_exchange_ne name random old.inode
    refine (careful_installTemporary hn hq ht).bind fun r d₂ hd₂ => ?_
    refine sat_ite.2 ⟨fun hpresent => ⟨?_, fun _ d₃ h₃ => trivial⟩, fun _ => trivial⟩
    rintro n ⟨⟩
    exact ⟨hn, hd₂ hpresent⟩

end Replace

/-! ## Every interleaving -/

/-- A call of the package. -/
inductive Op where
  | replace (data : String) (expected : Option Identity)
  | remove (expected : Identity)
  deriving Repr

def Op.expected : Op → Option Identity
  | .replace _ expected => expected
  | .remove expected => some expected

/-- The call, without what it returns. -/
def Op.run (name : Name) : Op → Act Unit
  | .replace data expected => do
    let _ ← replaceIdentity name data expected
  | .remove expected => do
    let _ ← removeIfIdentity name expected

theorem careful_run (name : Name) (op : Op) (d : Directory) :
    Sat (Fs.trans (Calm name op.expected)) (Careful name op.expected) (op.run name) d fun _ _ => True := by
  cases op with
  | replace data expected => exact careful_replaceIdentity.bind fun _ _ _ => trivial
  | remove expected => exact (careful_removeIfIdentity (removal_ne name expected.inode)).bind fun _ _ _ => trivial

/-- While other processes work at the public name and leave the call's own file,
or none, there when it takes an exchange back, the call unlinks no foreign file,
and each of its steps leaves every foreign file under some name. -/
theorem unlinks_own (name : Name) (op : Op) (d : Directory) (hd : d.created = [] ∧ d.unlinked = [])
    (answers : List Answer) (h : Meets Fs (Calm name op.expected) (op.run name) d answers) :
    Spared op.expected (exec Fs (op.run name) d answers).1 ∧
      ∀ x ∈ calls Fs (op.run name) d answers, ∀ a, Outside name x.1 x.2 a →
        ∀ i, Linked (x.1.meddled a) i → ¬Own op.expected x.1 i → Linked (step x.1 x.2 a).1 i := by
  have hrun := careful_run name op d
  have hspared : Spared op.expected d := by simp [Spared, hd.2]
  refine ⟨?_, fun x hx a ha i hi hforeign => linked_of_careful (hrun.calls h x hx) ha hi hforeign⟩
  have hkeep : Sat (Fs.trans (Calm name op.expected)) (fun d _ => Spared op.expected d) (op.run name) d
      fun _ d => Spared op.expected d := by
    refine hrun.simulate (R := fun d' d => d' = d ∧ Spared op.expected d) ⟨rfl, hspared⟩ ?_ ?_ ?_
    · rintro _ d c r d' ⟨rfl, hd⟩ hc ⟨a, ha, hstep⟩
      refine ⟨d', ⟨a, ha, hstep⟩, rfl, ?_⟩
      have hd' := spared_of_careful hc ha.1 hd
      rwa [show step _ c a = (d', r) from hstep] at hd'
    · rintro _ d c ⟨rfl, hd⟩ _
      exact hd
    · rintro _ d u ⟨rfl, hd⟩ _
      exact hd
  exact hkeep.exec_world (fun _ _ hd => hd) (fun _ _ hd => hd) answers h

instance (expected : Option Identity) (d : Directory) (i : Nat) : Decidable (Own expected d i) :=
  inferInstanceAs (Decidable (_ ∨ _))

instance (name : Name) (d : Directory) (c : Call) (a : Answer) : Decidable (Outside name d c a) :=
  inferInstanceAs (Decidable (∀ m ∈ a.meddle, m.1 = name))

instance (name : Name) (expected : Option Identity) (d : Directory) (c : Call) (a : Answer) :
    Decidable (Calm name expected d c a) :=
  inferInstanceAs (Decidable (_ ∧ (_ → ∀ i ∈ (d.meddled a).entries name, Own expected d i)))

/-- File 1 is the public one. -/
def oneFile : Directory where
  entries := fun n => if n = .file "recovery.json" then some 1 else none
  attrs := fun _ => 0
  contents := fun _ => ""
  next := 2

/-- Its replacement, -/
def replacement : Act Unit := (Op.replace "new" (some ⟨1, 0⟩)).run (.file "recovery.json")

/-- and how others put file 7 in its place after the check, and file 8 there
before the exchange is taken back. -/
def raced (late : Option (Name × Option Nat)) : List Answer :=
  let still : Answer := {}
  [still, still, still, still, still, still, still, still, { meddle := some (.file "recovery.json", some 7) },
    still, still, { meddle := late }, still]

theorem unlinks_own_raced : Spared (some ⟨1, 0⟩) (exec Fs replacement oneFile (raced none)).1 :=
  (unlinks_own (.file "recovery.json") (.replace "new" (some ⟨1, 0⟩)) oneFile ⟨rfl, rfl⟩ (raced none)
    (meets_of_passes Fs (b := fun d c a => decide (Calm (.file "recovery.json") (some ⟨1, 0⟩) d c a))
      (fun _ _ _ h => of_decide_eq_true h) (by decide +kernel))).1

theorem unlinks_foreign :
    (exec Fs replacement oneFile (raced (some (.file "recovery.json", some 8)))).1.unlinked = [8] ∧
      Meets Fs (Outside (.file "recovery.json")) replacement oneFile (raced (some (.file "recovery.json", some 8))) :=
  ⟨by decide +kernel, meets_of_passes Fs (b := fun d c a => decide (Outside (.file "recovery.json") d c a))
    (fun _ _ _ h => of_decide_eq_true h) (by decide +kernel)⟩

end Multikernel.Safefile
