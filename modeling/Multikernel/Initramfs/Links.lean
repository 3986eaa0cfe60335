import Multikernel.Initramfs.Scan
import Mathlib.Logic.Relation
/-!
# Where the links of a root file system lead

`_safe_target` counts the components of one target as if each named a directory.
Whoever resolves the link goes through the links that it meets on the way, and
an absolute target is not counted at all. A link stays inside the root exactly
if two more counts stay above zero at each link that is followed: that of an
absolute target, and that of the components left over, from where the target
leads (`inside_iff_recounted`). The scan makes neither (`links_leave_root`).
-/

namespace Multikernel.Initramfs
open Lib

/-! ## Resolving -/

/-- A directory, by the names that lead to it, and the components still to take. -/
structure Place where
  dir : Location
  todo : List (List Char)
  deriving DecidableEq, Repr

/-- Where a link's target is taken from. -/
def linkBase (dir : Location) (target : List Char) : Location := if target.head? = some '/' then [] else dir

/-- One component. The end is a component that is not there, or no directory. -/
def Place.next (root : Node) : Place → Option Place
  | ⟨_, []⟩ => none
  | ⟨dir, c :: todo⟩ =>
    if skipped c then some ⟨dir, todo⟩
    else if c = ['.', '.'] then some ⟨dir.dropLast, todo⟩
    else match root.get (dir ++ [c]) with
    | some (.directory _ _) => some ⟨dir ++ [c], todo⟩
    | some (.symlink _ target) => some ⟨linkBase dir target, target.splitOn '/' ++ todo⟩
    | _ => none

/-- The next component is a link, which leads to `q`. -/
def Follows (root : Node) (p q : Place) : Prop :=
  ∃ c todo info target, p.todo = c :: todo ∧ ¬skipped c ∧ c ≠ ['.', '.'] ∧
    root.get (p.dir ++ [c]) = some (.symlink info target) ∧ q = ⟨linkBase p.dir target, target.splitOn '/' ++ todo⟩

/-- The next component leads from the root to its parent. -/
def Place.leaves (p : Place) : Prop := p.dir = [] ∧ p.todo.head? = some ['.', '.']

abbrev Reaches (root : Node) : Place → Place → Prop := Relation.ReflTransGen fun p q => p.next root = some q

/-- Resolution never steps from the root to its parent. -/
def Inside (root : Node) (p : Place) : Prop := ∀ q, Reaches root p q → ¬q.leaves

/-! ## Up to the next link -/

/-- The components that lead from directory to directory. -/
def stretch (root : Node) : Location → List (List Char) → List (List Char)
  | _, [] => []
  | dir, c :: todo =>
    if skipped c then c :: stretch root dir todo
    else if c = ['.', '.'] then c :: stretch root dir.dropLast todo
    else match root.get (dir ++ [c]) with
    | some (.directory _ _) => c :: stretch root (dir ++ [c]) todo
    | _ => []

/-- The directory that the components lead to, if there is no link on the way. -/
def arrival (root : Node) : Location → List (List Char) → Option Location
  | dir, [] => some dir
  | dir, c :: todo =>
    if skipped c then arrival root dir todo
    else if c = ['.', '.'] then arrival root dir.dropLast todo
    else match root.get (dir ++ [c]) with
    | some (.directory _ _) => arrival root (dir ++ [c]) todo
    | _ => none

/-- The count of `_safe_target` at a place, up to the next link. -/
def Place.counted (root : Node) (p : Place) : Bool := staysBelow p.dir.length (stretch root p.dir p.todo)

section Steps
variable {root : Node} {dir : Location} {c : List Char} {todo : List (List Char)} {p q : Place}

/-- What a step can do. -/
theorem next_cases (h : (Place.mk dir (c :: todo)).next root = some q) :
    (skipped c ∧ q = ⟨dir, todo⟩) ∨ (¬skipped c ∧ c = ['.', '.'] ∧ q = ⟨dir.dropLast, todo⟩) ∨
      (¬skipped c ∧ c ≠ ['.', '.'] ∧ (∃ info children, root.get (dir ++ [c]) = some (.directory info children)) ∧
        q = ⟨dir ++ [c], todo⟩) ∨
      Follows root ⟨dir, c :: todo⟩ q := by
  rw [Place.next] at h
  split at h
  · rename_i hskipped
    cases h
    exact .inl ⟨hskipped, rfl⟩
  rename_i hskipped
  split at h
  · rename_i hup
    cases h
    exact .inr (.inl ⟨hskipped, hup, rfl⟩)
  rename_i hup
  split at h
  · rename_i info children hget
    cases h
    exact .inr (.inr (.inl ⟨hskipped, hup, ⟨info, children, hget⟩, rfl⟩))
  · rename_i info target hget
    cases h
    exact .inr (.inr (.inr ⟨c, todo, info, target, rfl, hskipped, hup, hget, rfl⟩))
  · cases h

theorem Follows.next (h : Follows root p q) : p.next root = some q := by
  obtain ⟨dir, _⟩ := p
  obtain ⟨c, todo, info, target, rfl, hskipped, hup, hget, rfl⟩ := h
  rw [Place.next, if_neg hskipped, if_neg hup, hget]

/-- A step that follows no link takes one component off the count. -/
theorem counted_next (h : p.next root = some q) (hfollows : ¬Follows root p q) (hcounted : p.counted root) :
    q.counted root := by
  obtain ⟨dir, _ | ⟨c, todo⟩⟩ := p
  · cases h
  rcases next_cases h with ⟨hskipped, rfl⟩ | ⟨hskipped, hup, rfl⟩ | ⟨hskipped, hup, ⟨info, children, hget⟩, rfl⟩ | hlink
  · rw [Place.counted, stretch, if_pos hskipped, staysBelow, if_pos hskipped] at hcounted
    exact hcounted
  · rw [Place.counted, stretch, if_neg hskipped, if_pos hup, staysBelow, if_neg hskipped, if_pos hup] at hcounted
    split at hcounted
    · cases hcounted
    · rw [Place.counted, List.length_dropLast]
      exact hcounted
  · rw [Place.counted, stretch, if_neg hskipped, if_neg hup, hget, staysBelow, if_neg hskipped, if_neg hup] at hcounted
    rw [Place.counted, List.length_append]
    exact hcounted
  · exact absurd hlink hfollows

theorem not_leaves_of_counted (h : p.counted root) : ¬p.leaves := by
  rintro ⟨hdir, htodo⟩
  obtain ⟨dir, todo⟩ := p
  obtain ⟨rest, rfl⟩ : ∃ rest, todo = ['.', '.'] :: rest := by
    cases todo with
    | nil => cases htodo
    | cons c rest => cases htodo; exact ⟨rest, rfl⟩
  cases hdir
  have hskipped : ¬skipped ['.', '.'] := by decide
  rw [Place.counted, stretch, if_neg hskipped, if_pos rfl] at h
  cases h

/-- Where the count fails, resolution leaves the root before the next link. -/
theorem leaves_of_not_counted (h : ¬staysBelow dir.length (stretch root dir todo)) :
    ∃ q, Reaches root ⟨dir, todo⟩ q ∧ q.leaves := by
  induction todo generalizing dir with
  | nil => exact absurd rfl h
  | cons c todo ih =>
    have hgo : ∀ q : Place, (Place.mk dir (c :: todo)).next root = some q →
        (∃ r, Reaches root q r ∧ r.leaves) → ∃ r, Reaches root ⟨dir, c :: todo⟩ r ∧ r.leaves := by
      rintro q hq ⟨r, hr, hleaves⟩
      exact ⟨r, .head hq hr, hleaves⟩
    by_cases hskipped : skipped c
    · rw [stretch, if_pos hskipped, staysBelow, if_pos hskipped] at h
      exact hgo ⟨dir, todo⟩ (by rw [Place.next, if_pos hskipped]) (ih h)
    by_cases hup : c = ['.', '.']
    · rw [stretch, if_neg hskipped, if_pos hup, staysBelow, if_neg hskipped, if_pos hup] at h
      split at h
      · rename_i hdir
        exact ⟨⟨dir, c :: todo⟩, .refl, List.length_eq_zero_iff.1 hdir, by rw [hup]; rfl⟩
      · rw [← List.length_dropLast] at h
        exact hgo ⟨dir.dropLast, todo⟩ (by rw [Place.next, if_neg hskipped, if_pos hup]) (ih h)
    · rw [stretch, if_neg hskipped, if_neg hup] at h
      split at h
      · rename_i info children hget
        rw [staysBelow, if_neg hskipped, if_neg hup] at h
        refine hgo ⟨dir ++ [c], todo⟩ (by rw [Place.next, if_neg hskipped, if_neg hup, hget]) (ih ?_)
        rw [List.length_append]
        exact h
      · exact absurd rfl h

end Steps

/-! ## Every link of an accepted tree -/

/-- At every link that is followed, the count stays above zero over an absolute
target, and over the components left over. -/
def Recounted (root : Node) (p : Place) : Prop :=
  ∀ dir c todo info target, Reaches root p ⟨dir, c :: todo⟩ → ¬skipped c → c ≠ ['.', '.'] →
    root.get (dir ++ [c]) = some (.symlink info target) →
      (target.head? = some '/' → (Place.mk [] (target.splitOn '/')).counted root) ∧
      ∀ d, arrival root (linkBase dir target) (target.splitOn '/') = some d → (Place.mk d todo).counted root

/-- A count over a target and what is left over is two counts. -/
theorem counted_append {root : Node} {dir : Location} {parts todo : List (List Char)} :
    (Place.mk dir (parts ++ todo)).counted root ↔ (Place.mk dir parts).counted root ∧
      ∀ d, arrival root dir parts = some d → (Place.mk d todo).counted root := by
  unfold Place.counted
  dsimp only
  induction parts generalizing dir with
  | nil => simp [stretch, arrival, staysBelow]
  | cons c parts ih =>
    rw [List.cons_append, stretch, stretch, arrival]
    split
    · rename_i hskipped
      rw [staysBelow, if_pos hskipped, ih, staysBelow, if_pos hskipped]
    rename_i hskipped
    split
    · rename_i hup
      rw [staysBelow, if_neg hskipped, if_pos hup, staysBelow, if_neg hskipped, if_pos hup]
      split
      · simp
      · rw [← List.length_dropLast, ih]
    rename_i hup
    split
    · rw [staysBelow, if_neg hskipped, if_neg hup, staysBelow, if_neg hskipped, if_neg hup]
      have hlength : dir.length + 1 = (dir ++ [c]).length := by simp
      rw [hlength, ih]
    · simp [staysBelow]

theorem staysBelow_append {parts rest : List (List Char)} {depth : Nat} (h : staysBelow depth (parts ++ rest)) :
    staysBelow depth parts := by
  induction parts generalizing depth with
  | nil => rfl
  | cons part parts ih =>
    rw [List.cons_append, staysBelow] at h
    rw [staysBelow]
    split
    · rename_i hskipped
      rw [if_pos hskipped] at h
      exact ih h
    · rename_i hskipped
      rw [if_neg hskipped] at h
      split
      · rename_i hup
        rw [if_pos hup] at h
        split
        · rename_i hzero
          rw [if_pos hzero] at h
          exact h
        · rename_i hzero
          rw [if_neg hzero] at h
          exact ih h
      · rename_i hup
        rw [if_neg hup] at h
        exact ih h

theorem stretch_prefix (root : Node) (dir : Location) (todo : List (List Char)) : stretch root dir todo <+: todo := by
  induction todo generalizing dir with
  | nil => exact List.prefix_rfl
  | cons c todo ih =>
    rw [stretch]
    split
    · exact List.cons_prefix_cons.2 ⟨rfl, ih _⟩
    · split
      · exact List.cons_prefix_cons.2 ⟨rfl, ih _⟩
      · split
        · exact List.cons_prefix_cons.2 ⟨rfl, ih _⟩
        · exact List.nil_prefix

/-- Where the link at a location is resolved from. -/
def startOf (l : Location) (target : List Char) : Place := ⟨l.dropLast, target.splitOn '/'⟩

/-- From a place whose own count is right, where that of every relative target is. -/
theorem inside_iff {root : Node} {p : Place} (hp : p.counted root)
    (hown : ∀ l info target, root.get l = some (.symlink info target) → target.head? ≠ some '/' → (startOf l target).counted root) :
    Inside root p ↔ Recounted root p := by
  constructor
  · intro hinside dir c todo info target hq hskipped hup hget
    have hfollows : Follows root ⟨dir, c :: todo⟩ ⟨linkBase dir target, target.splitOn '/' ++ todo⟩ :=
      ⟨c, todo, info, target, rfl, hskipped, hup, hget, rfl⟩
    have hcounted : (Place.mk (linkBase dir target) (target.splitOn '/' ++ todo)).counted root := by
      by_contra hcount
      obtain ⟨s, hs, hleaves⟩ := leaves_of_not_counted hcount
      exact hinside s ((hq.tail hfollows.next).trans hs) hleaves
    obtain ⟨htarget, hrest⟩ := counted_append.1 hcounted
    refine ⟨fun habsolute => ?_, hrest⟩
    rwa [linkBase, if_pos habsolute] at htarget
  · intro hrecounted
    -- The count holds wherever resolution gets.
    have hall : ∀ q, Reaches root p q → q.counted root := by
      intro q hq
      induction hq with
      | refl => exact hp
      | tail hq hnext ih =>
        rename_i q r
        by_cases hfollows : Follows root q r
        · obtain ⟨dir, _⟩ := q
          obtain ⟨c, todo, info, target, rfl, hskipped, hup, hget, rfl⟩ := hfollows
          obtain ⟨habsolute, hrest⟩ := hrecounted dir c todo info target hq hskipped hup hget
          refine counted_append.2 ⟨?_, hrest⟩
          unfold linkBase
          split
          · rename_i hslash
            exact habsolute hslash
          · rename_i hrelative
            simpa only [startOf, List.dropLast_concat] using hown _ info target hget hrelative
        · exact counted_next hnext hfollows ih
    intro q hq
    exact not_leaves_of_counted (hall q hq)

theorem Accepted.counted {sha256 : List UInt8 → List Char} {root : Node} {raw : Raw}
    {items : List (Entry × Option (List UInt8))} (h : Accepted sha256 root raw items) (hnamed : root.Named) {l : Location}
    {info : Info} {target : List Char} (hget : root.get l = some (.symlink info target)) (hrelative : target.head? ≠ some '/') :
    (startOf l target).counted root := by
  obtain ⟨y, hy⟩ := h.entry hget
  simp only [entryOf, bind_eq_ok, raiseIf_eq_ok, not_not] at hy
  obtain ⟨-, -, -, hsafe, -⟩ := hy
  rw [safeTarget_pathOf (h.plain hnamed hget), Bool.or_eq_true, beq_iff_eq] at hsafe
  have hcount := hsafe.resolve_left hrelative
  obtain ⟨rest, hrest⟩ := stretch_prefix root l.dropLast (target.splitOn '/')
  rw [← hrest] at hcount
  exact staysBelow_append hcount

/-- A relative link of an accepted tree stays inside the root exactly if the
counts that the scan leaves out hold at each link that its resolution follows. -/
theorem inside_iff_recounted (sha256 : List UInt8 → List Char) (root : Node) (hnamed : root.Named) (entries : List Entry)
    (contents : Contents) (haccepted : scan sha256 root = .ok (entries, contents)) (l : Location) (info : Info)
    (target : List Char) (hget : root.get l = some (.symlink info target)) (hrelative : target.head? ≠ some '/') :
    Inside root (startOf l target) ↔ Recounted root (startOf l target) := by
  obtain ⟨raw, items, h, -, -⟩ := scan_eq_ok haccepted
  exact inside_iff (h.counted hnamed hget hrelative) fun _ _ _ hget hrelative => h.counted hnamed hget hrelative

/-- Resolution goes one way. -/
theorem Inside.step {root : Node} {p q : Place} (hp : ¬p.leaves) (hnext : p.next root = some q) (h : Inside root q) :
    Inside root p := by
  intro r hr
  rcases hr.cases_head with rfl | ⟨q', hq', hr'⟩
  · exact hp
  · rw [hnext] at hq'
    cases hq'
    exact h r hr'

theorem Inside.last {root : Node} {p : Place} (hp : ¬p.leaves) (hnext : p.next root = none) : Inside root p := by
  intro r hr
  rcases hr.cases_head with rfl | ⟨q, hq, -⟩
  · exact hp
  · rw [hnext] at hq
    cases hq

instance (p : Place) : Decidable p.leaves := inferInstanceAs (Decidable (_ ∧ _))

/-- `d/back` leads to `e`, and `y` through it back to the root. -/
def harmlessTree : Node :=
  .directory ⟨0, 1, 4, permBits 0o755, 0, 0, []⟩ [
    ("d".toList, .directory ⟨0, 2, 2, permBits 0o755, 0, 0, []⟩ [("back".toList, .symlink ⟨0, 3, 1, permBits 0o777, 0, 0, []⟩ "../e".toList)]),
    ("e".toList, .directory ⟨0, 4, 2, permBits 0o755, 0, 0, []⟩ []),
    ("y".toList, .symlink ⟨0, 5, 1, permBits 0o777, 0, 0, []⟩ "d/back/..".toList)]

theorem harmlessTree_named : harmlessTree.Named := named_of_walk (by decide)

theorem harmlessTree_inside : Inside harmlessTree (startOf ["y".toList] "d/back/..".toList) := by
  have h₀ : Inside harmlessTree ⟨[], []⟩ := .last (by decide) rfl
  have h₁ : Inside harmlessTree ⟨["e".toList], ["..".toList]⟩ := .step (by decide) rfl h₀
  have h₂ : Inside harmlessTree ⟨[], ["e".toList, "..".toList]⟩ := .step (by decide) rfl h₁
  have h₃ : Inside harmlessTree ⟨["d".toList], ["..".toList, "e".toList, "..".toList]⟩ := .step (by decide) rfl h₂
  have h₄ : Inside harmlessTree ⟨["d".toList], ["back".toList, "..".toList]⟩ := .step (by decide) rfl h₃
  exact .step (by decide) rfl h₄

theorem inside_iff_recounted_harmless :
    (scan hexdigest harmlessTree).isOk ∧ Recounted harmlessTree (startOf ["y".toList] "d/back/..".toList) := by
  obtain ⟨⟨entries, contents⟩, haccepted⟩ : ∃ r, scan hexdigest harmlessTree = .ok r := ⟨_, rfl⟩
  refine ⟨by rw [haccepted]; rfl, ?_⟩
  exact (inside_iff_recounted _ harmlessTree harmlessTree_named entries contents haccepted ["y".toList] _ _ rfl
    (by decide)).1 harmlessTree_inside

/-- `d/up` leads to the root, and `x` from there to the parent; `a` is absolute,
and is not counted. -/
def hostileTree : Node :=
  .directory ⟨0, 1, 3, permBits 0o755, 0, 0, []⟩ [
    ("a".toList, .symlink ⟨0, 2, 1, permBits 0o777, 0, 0, []⟩ "/..".toList),
    ("b".toList, .symlink ⟨0, 3, 1, permBits 0o777, 0, 0, []⟩ "a".toList),
    ("d".toList, .directory ⟨0, 4, 2, permBits 0o755, 0, 0, []⟩ [("up".toList, .symlink ⟨0, 5, 1, permBits 0o777, 0, 0, []⟩ "..".toList)]),
    ("x".toList, .symlink ⟨0, 6, 1, permBits 0o777, 0, 0, []⟩ "d/up/..".toList)]

/-- The scan accepts the tree, and two of its links leave the root. -/
theorem links_leave_root :
    hostileTree.Named ∧ (scan hexdigest hostileTree).isOk ∧
      ¬Inside hostileTree (startOf ["x".toList] "d/up/..".toList) ∧ ¬Inside hostileTree (startOf ["b".toList] "a".toList) := by
  refine ⟨named_of_walk (by decide), by decide +kernel, ?_, ?_⟩
  · intro h
    have h₁ : Reaches hostileTree ⟨[], ["d".toList, "up".toList, "..".toList]⟩ ⟨["d".toList], ["up".toList, "..".toList]⟩ :=
      .single rfl
    have h₂ := h₁.tail (c := ⟨["d".toList], ["..".toList, "..".toList]⟩) rfl
    have h₃ := h₂.tail (c := ⟨[], ["..".toList]⟩) rfl
    exact h _ h₃ (by decide)
  · intro h
    have h₁ : Reaches hostileTree ⟨[], ["a".toList]⟩ ⟨[], [[], "..".toList]⟩ := .single rfl
    have h₂ := h₁.tail (c := ⟨[], ["..".toList]⟩) rfl
    exact h _ h₂ (by decide)

end Multikernel.Initramfs
