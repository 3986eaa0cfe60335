import Multikernel.Boot.Archive
import Mathlib.Data.Char
import Mathlib.Data.List.DropRight
import Mathlib.Data.List.Lex
import Mathlib.Data.List.Sort
/-!
# The tree of a root file system

`scan` of `scripts/build-runtime-rootfs.py`, on a tree that does not change while
it is read. A name is its bytes, each as the character of that number, so
`os.fsencode` keeps lengths and order. `sha256` is a parameter.
-/

namespace Multikernel.Initramfs
open Lib
variable {path : List Char} {l : Location} {n root : Node} {sha256 : List UInt8 → List Char}
  {y : Entry × Option (List UInt8)}

/-- `stat.S_IMODE`. -/
def permBits (mode : Nat) : Fin 4096 := Fin.ofNat 4096 mode

/-- What `lstat` and `listxattr` tell of an object, but for its type and size. -/
structure Info where
  dev : Nat := 0
  ino : Nat
  nlink : Nat := 1
  perm : Fin 4096 := permBits 0o755
  uid : UInt32 := 0
  gid : UInt32 := 0
  xattrs : List (String × List UInt8) := []
  deriving DecidableEq, Repr

inductive Node where
  | directory (info : Info) (children : List (List Char × Node))
  | regular (info : Info) (data : List UInt8)
  | symlink (info : Info) (target : List Char)
  /-- A device, a pipe or a socket. -/
  | special (info : Info) (fmt : Nat)

def Node.info : Node → Info
  | .directory info _ | .regular info _ | .symlink info _ | .special info _ => info

/-- `st_mode`. -/
def Node.mode : Node → Nat
  | .directory info _ => Boot.typeDirectory + info.perm
  | .regular info _ => Boot.typeRegular + info.perm
  | .symlink info _ => Boot.typeSymlink + info.perm
  | .special info fmt => fmt + info.perm

def Node.isRegular : Node → Bool
  | .regular _ _ => true
  | _ => false

def Node.isDirectory : Node → Bool
  | .directory _ _ => true
  | _ => false

def Node.children : Node → List (List Char × Node)
  | .directory _ children => children
  | _ => []

abbrev Location := List (List Char)

/-- What is at a location, without following a link. -/
def Node.get : Node → Location → Option Node
  | n, [] => some n
  | n, c :: cs => (n.children.lookup c).bind (·.get cs)

/-- What a file system keeps: a directory's names are not empty, and it has no
name twice. They are listed in order. -/
def Node.Named (root : Node) : Prop :=
  ∀ l n, root.get l = some n → (n.children.map (·.1)).Pairwise (· < ·) ∧ ∀ c ∈ n.children, c.1 ≠ []

/-! ## Walking the tree -/

/-- The relative path of a child. -/
def childPath (path name : List Char) : List Char := if path = ['.'] then name else path ++ '/' :: name

mutual
/-- What the stack of `_scan_held` visits, in its order. -/
def Node.walk (path : List Char) : Node → List (List Char × Node)
  | .directory info children => (path, .directory info children) :: walkEach path children
  | .regular info data => [(path, .regular info data)]
  | .symlink info target => [(path, .symlink info target)]
  | .special info fmt => [(path, .special info fmt)]

def walkEach (path : List Char) : List (List Char × Node) → List (List Char × Node)
  | [] => []
  | (name, child) :: rest => child.walk (childPath path name) ++ walkEach path rest
end

def unsafeName (name : List Char) : Bool :=
  name == ['.'] || name == ['.', '.'] || name.contains '/' || name.contains (Char.ofNat 0)

/-- The stack loop: a directory's names are checked before they are visited. -/
def collect (root : Node) : Except String (List (List Char × Node)) :=
  let raw := root.walk ['.']
  match raw.find? fun x => x.2.children.any fun c => unsafeName c.1 with
  | some x => .error ("unsafe path component below " ++ String.ofList x.1)
  | none => .ok (raw.insertionSort fun a b => a.1 ≤ b.1)

/-! ## Hard links -/

abbrev Raw := List (List Char × Node)

def Node.key (n : Node) : Nat × Nat := (n.info.dev, n.info.ino)

/-- A regular file with more links than this one. -/
def Node.isLinked (n : Node) : Bool := n.isRegular && decide (1 < n.info.nlink)

/-- `hardlink_groups`: the paths of an inode that has several. -/
def hardlinkGroup (raw : Raw) (key : Nat × Nat) : List (List Char) :=
  (raw.filter fun x => x.2.isLinked && x.2.key == key).map (·.1)

section Scan
variable (sha256 : List UInt8 → List Char)

/-- `os.fsencode`. -/
def fsencode (path : List Char) : List UInt8 := path.map fun c => UInt8.ofNat c.toNat

/-- `hardlink_ids.get(key)`. -/
def hardlinkId (raw : Raw) (key : Nat × Nat) : Option (List Char) :=
  match hardlinkGroup raw key with
  | [] => none
  | paths => some ('h' :: (sha256 (fsencode ([Char.ofNat 0].intercalate paths))).take 16)

/-- `str.encode` refuses what `os.fsdecode` could not decode. -/
def encodable (path : List Char) : Bool := Boot.utf8Valid path.length (fsencode path)

/-- The links that the first object of an inode has, and those that were found. -/
def crosses (raw : Raw) (key : Nat × Nat) : Bool :=
  (raw.find? fun x => x.2.key == key).any fun x => x.2.info.nlink != (hardlinkGroup raw key).length

def checkLinks (raw : Raw) : Except String Unit := do
  let linked := raw.filter fun x => x.2.isLinked
  raiseIf (linked.any fun x => !encodable x.1) "surrogates not allowed"
  raiseIf (linked.any fun x => crosses raw x.2.key) "hardlink group crosses the root boundary"

/-! ## Link targets -/

/-- A component that leads nowhere. -/
def skipped (c : List Char) : Prop := c = [] ∨ c = ['.']

instance (c : List Char) : Decidable (skipped c) := inferInstanceAs (Decidable (_ ∨ _))

/-- The loop of `_safe_target`. -/
def staysBelow : Nat → List (List Char) → Bool
  | _, [] => true
  | depth, part :: rest =>
    if skipped part then staysBelow depth rest
    else if part = ['.', '.'] then
      if depth = 0 then false else staysBelow (depth - 1) rest
    else staysBelow (depth + 1) rest

/-- `posixpath.dirname`. -/
def dirname (path : List Char) : List Char :=
  let head := path.rdropWhile (· ≠ '/')
  if head.all (· = '/') then head else head.rdropWhile (· = '/')

def safeTarget (path target : List Char) : Bool :=
  target.head? == some '/' ||
    staysBelow (((dirname path).splitOn '/').filter fun part => ¬skipped part).length (target.splitOn '/')

/-! ## Entries -/

inductive Kind where
  | directory | regular | symlink
  deriving DecidableEq, Repr

/-- `Entry`, without what only the manifest has: the digest and the target. -/
structure Entry where
  path : List Char
  mode : Nat
  uid : Nat
  gid : Nat
  size : Nat
  kind : Kind
  hardlink : Option (List Char) := none
  deriving DecidableEq, Repr

def overlayOpaque : List String := ["trusted.overlay.opaque", "user.overlay.opaque"]

def checkXattrs (path : List Char) (n : Node) : Except String Unit := do
  raiseIf (n.info.xattrs.any fun x => x.1 ∉ overlayOpaque) ("unsupported xattrs on " ++ String.ofList path)
  raiseIf (n.info.xattrs.any fun x => ¬n.isDirectory ∨ (x.2 ≠ [121] ∧ x.2 ≠ [120]))
    ("malformed overlay opacity metadata on " ++ String.ofList path)

/-- An entry, and what `contents` gets for its path. -/
def entryOf (raw : Raw) (path : List Char) (n : Node) : Except String (Entry × Option (List UInt8)) := do
  checkXattrs path n
  match n with
  | .directory info _ => return (⟨path, n.mode, info.uid.toNat, info.gid.toNat, 0, .directory, none⟩, none)
  | .regular info data =>
    return (⟨path, n.mode, info.uid.toNat, info.gid.toNat, data.length, .regular, hardlinkId sha256 raw n.key⟩, some data)
  | .symlink info target =>
    raiseIf (¬safeTarget path target) ("escaping symlink: " ++ String.ofList path ++ " -> " ++ String.ofList target)
    return (⟨path, n.mode, info.uid.toNat, info.gid.toNat, target.length, .symlink, none⟩, some (fsencode target))
  | .special _ _ => throw ("unsupported file type at " ++ String.ofList path)

/-- `contents`: the bytes of a file or of a link, by path. -/
abbrev Contents := List (List Char × List UInt8)

def contentsOf (items : List (Entry × Option (List UInt8))) : Contents :=
  items.filterMap fun x => x.2.map (x.1.path, ·)

def scan (root : Node) : Except String (List Entry × Contents) := do
  let raw ← collect root
  checkLinks raw
  let items ← raw.mapM fun x => entryOf sha256 raw x.1 x.2
  return (items.map (·.1), contentsOf items)

end Scan

/-- In place of a digest, the bytes themselves in hexadecimal digits. -/
def hexdigest (data : List UInt8) : List Char := data.flatMap fun b => [Nat.digitChar (b.toNat / 16), Nat.digitChar (b.toNat % 16)]

/-! ## Paths of locations -/

/-- The path of a location. -/
def pathOf (l : Location) : List Char := l.foldl childPath ['.']

theorem foldl_childPath (hpath : path ≠ ['.']) (hl : ∀ c ∈ l, Plain c) :
    l.foldl childPath path = path ++ slashed l := by
  induction l generalizing path with
  | nil => simp [slashed]
  | cons c l ih =>
    have hstep : childPath path c = path ++ '/' :: c := if_neg hpath
    have hnext : childPath path c ≠ ['.'] := by
      rw [hstep]
      intro h
      have hlength := congrArg List.length h
      have hc := List.length_pos_iff.2 (hl c (List.mem_cons_self ..)).nonempty
      simp only [List.length_append, List.length_cons, List.length_nil] at hlength
      omega
    rw [List.foldl_cons, ih hnext fun d hd => hl d (List.mem_cons_of_mem _ hd), hstep]
    simp [slashed]

theorem pathOf_eq_join (hl : ∀ c ∈ l, Plain c) (hne : l ≠ []) : pathOf l = join l := by
  cases l with
  | nil => exact absurd rfl hne
  | cons c l =>
    have hc := hl c (List.mem_cons_self ..)
    have hstep : childPath ['.'] c = c := if_pos rfl
    have hjoin : '/' :: join (c :: l) = '/' :: (c ++ slashed l) := absolute_eq_slashed hne
    rw [pathOf, List.foldl_cons, hstep, foldl_childPath hc.dot fun d hd => hl d (List.mem_cons_of_mem _ hd)]
    exact (List.cons_inj_right _).1 hjoin.symm

theorem pathOf_inj {l' : Location} (hl : ∀ c ∈ l, Plain c) (hl' : ∀ c ∈ l', Plain c) (h : pathOf l = pathOf l')
    : l = l' := by
  have hroot : ∀ {m : Location}, (∀ c ∈ m, Plain c) → pathOf m = ['.'] → m = [] := by
    intro m hm heq
    by_contra hne
    have hcomponents := components_join hm
    rw [← pathOf_eq_join hm hne, heq] at hcomponents
    have hdot : ['.'] ∈ m := by rw [← hcomponents]; decide
    exact (hm _ hdot).dot rfl
  by_cases hne : l = []
  · subst hne
    exact (hroot hl' h.symm).symm
  · by_cases hne' : l' = []
    · subst hne'
      exact hroot hl h
    · rw [pathOf_eq_join hl hne, pathOf_eq_join hl' hne'] at h
      rw [← components_join hl, ← components_join hl', h]

theorem last_join (hl : ∀ c ∈ l, Plain c) (hne : join l ≠ []) : (join l).getLast hne ≠ '/' := by
  intro hlast
  rcases List.eq_nil_or_concat l with rfl | ⟨front, c, hfront⟩
  · exact hne rfl
  rw [List.concat_eq_append] at hfront
  subst hfront
  have hc := hl c (by simp)
  have hsuffix : c <:+ join (front ++ [c]) := by
    by_cases hnil : front = []
    · subst hnil
      exact ⟨[], by simp [join]⟩
    · exact ⟨join front ++ ['/'], by rw [join_concat hnil]; simp⟩
  have hmem : '/' ∈ c := by
    rw [← hlast, ← hsuffix.getLast hc.nonempty]
    exact List.getLast_mem _
  exact hc.slash hmem

/-- `_safe_target` counts from the directory that holds the link. -/
theorem safeTarget_pathOf {target : List Char} (hl : ∀ c ∈ l, Plain c) :
    safeTarget (pathOf l) target = (target.head? == some '/' || staysBelow l.dropLast.length (target.splitOn '/')) := by
  have hdirname : dirname (pathOf l) = join l.dropLast := by
    rcases List.eq_nil_or_concat l with rfl | ⟨front, c, hconcat⟩
    · decide
    rw [List.concat_eq_append] at hconcat
    subst hconcat
    have hc := hl c (by simp)
    have hfront : ∀ d ∈ front, Plain d := fun d hd => hl d (by simp [hd])
    have hname : ∀ a : List Char, (a ++ '/' :: c).rdropWhile (· ≠ '/') = a ++ ['/'] := by
      intro a
      rw [List.rdropWhile, List.reverse_append, List.reverse_cons, List.append_assoc,
        List.dropWhile_append_of_pos (by
          intro x hx
          exact decide_eq_true fun h => hc.slash (h ▸ List.mem_reverse.1 hx))]
      simp
    rw [pathOf_eq_join hl (by simp), List.dropLast_concat]
    by_cases hne : front = []
    · subst hne
      have hall : c.rdropWhile (· ≠ '/') = [] := by
        rw [List.rdropWhile_eq_nil_iff]
        intro x hx
        exact decide_eq_true fun h => hc.slash (h ▸ hx)
      simp only [dirname, join, List.nil_append, List.intercalate_singleton, hall]
      rfl
    · have hjoin := join_concat hne c
      have hfull : join front ≠ [] := by
        intro h
        have hcomponents := components_join hfront
        rw [h] at hcomponents
        exact hne hcomponents.symm
      have hlast := last_join hfront hfull
      have hsome : ¬(join front ++ ['/']).all (· = '/') := by
        intro hall
        rw [List.all_eq_true] at hall
        exact hlast (of_decide_eq_true (hall _ (List.mem_append_left _ (List.getLast_mem hfull))))
      simp only [dirname, hjoin, hname, hsome, if_false, Bool.false_eq_true]
      rw [List.rdropWhile_concat_pos _ _ _ (by simp), List.rdropWhile_eq_self_iff]
      intro h
      simpa using hlast
  have hcount : (((join l.dropLast).splitOn '/').filter fun part => ¬skipped part).length = l.dropLast.length := by
    have hplain : ∀ c ∈ l.dropLast, Plain c := fun c hc => hl c (List.mem_of_mem_dropLast hc)
    by_cases hne : l.dropLast = []
    · rw [hne]
      decide
    · rw [splitOn_join hplain hne, List.filter_eq_self.2]
      intro c hc
      exact decide_eq_true (not_or.2 ⟨(hplain c hc).nonempty, (hplain c hc).dot⟩)
  rw [safeTarget, hdirname, hcount]

/-! ## What was accepted -/

theorem get_append (m : Node) (l l' : Location) : m.get (l ++ l') = (m.get l).bind (·.get l') := by
  induction l generalizing m with
  | nil => rfl
  | cons c l ih =>
    simp only [List.cons_append, Node.get]
    cases m.children.lookup c with
    | none => rfl
    | some child => exact ih child

theorem mem_walk_self (path : List Char) (m : Node) : (path, m) ∈ m.walk path := by
  cases m <;> simp [Node.walk]

theorem mem_walkEach {name : List Char} {child : Node} {children : List (List Char × Node)} {x : List Char × Node}
    (hchild : (name, child) ∈ children) (hx : x ∈ child.walk (childPath path name)) : x ∈ walkEach path children := by
  induction children with
  | nil => cases hchild
  | cons first rest ih =>
    obtain ⟨name', child'⟩ := first
    rw [walkEach, List.mem_append]
    rcases List.mem_cons.1 hchild with heq | hin
    · cases heq
      exact .inl hx
    · exact .inr (ih hin)

/-- Every location is visited. -/
theorem mem_walk {m : Node} (path : List Char) (h : m.get l = some n) : (l.foldl childPath path, n) ∈ m.walk path := by
  induction l generalizing m path with
  | nil =>
    cases h
    exact mem_walk_self path _
  | cons c l ih =>
    rw [Node.get, Option.bind_eq_some_iff] at h
    obtain ⟨child, hlookup, hget⟩ := h
    have hin := ih (childPath path c) hget
    cases m with
    | directory info children =>
      rw [Node.walk]
      exact List.mem_cons_of_mem _ (mem_walkEach (Boot.mem_of_lookup hlookup) hin)
    | regular | symlink | special => cases hlookup

theorem named_of_walk
    (h : ∀ x ∈ root.walk ['.'], (x.2.children.map (·.1)).Pairwise (· < ·) ∧ ∀ c ∈ x.2.children, c.1 ≠ []) : root.Named :=
  fun _ n hget => h (_, n) (mem_walk ['.'] hget)

/-- The lists of an accepted scan. -/
structure Accepted (sha256 : List UInt8 → List Char) (root : Node) (raw : Raw) (items : List (Entry × Option (List UInt8))) :
    Prop where
  perm : raw.Perm (root.walk ['.'])
  safe : ∀ x ∈ raw, ∀ c ∈ x.2.children, unsafeName c.1 = false
  items : List.Forall₂ (fun x y => entryOf sha256 raw x.1 x.2 = .ok y) raw items

theorem scan_eq_ok {entries : List Entry} {contents : Contents} (h : scan sha256 root = .ok (entries, contents)) :
    ∃ raw items, Accepted sha256 root raw items ∧ entries = items.map (·.1) ∧ contents = contentsOf items := by
  simp only [scan, bind_eq_ok] at h
  obtain ⟨raw, hraw, -, -, items, hitems, hresult⟩ := h
  cases hresult
  refine ⟨raw, items, ?_, rfl, rfl⟩
  simp only [collect] at hraw
  split at hraw
  · cases hraw
  · rename_i hsafe
    cases hraw
    have hperm := List.perm_insertionSort (fun a b : List Char × Node => a.1 ≤ b.1) (root.walk ['.'])
    refine ⟨hperm, ?_, mapM_eq_ok.1 hitems⟩
    intro x hx c hc
    have hnone := List.find?_eq_none.1 hsafe x (hperm.mem_iff.1 hx)
    simp only [List.any_eq_true, not_exists, not_and, Bool.not_eq_true] at hnone
    exact hnone c hc

section Accepted
variable {sha256 : List UInt8 → List Char} {root : Node} {raw : Raw} {items : List (Entry × Option (List UInt8))}

theorem Accepted.mem_raw (h : Accepted sha256 root raw items) (hget : root.get l = some n) : (pathOf l, n) ∈ raw :=
  h.perm.mem_iff.2 (mem_walk ['.'] hget)

theorem Accepted.entry (h : Accepted sha256 root raw items) (hget : root.get l = some n) :
    ∃ y, entryOf sha256 raw (pathOf l) n = .ok y := by
  obtain ⟨i, hi, hx⟩ := List.mem_iff_getElem.1 (h.mem_raw hget)
  have hy := h.items.get hi (h.items.length_eq ▸ hi)
  rw [List.get_eq_getElem, hx] at hy
  exact ⟨_, hy⟩

theorem plain_of_safe {c : List Char} (hsafe : unsafeName c = false) (hne : c ≠ []) : Plain c := by
  simp only [unsafeName, Bool.or_eq_false_iff, beq_eq_false_iff_ne] at hsafe
  exact ⟨hne, by simpa using hsafe.1.2, hsafe.1.1.1, hsafe.1.1.2⟩

/-- The names of an accepted tree name something. -/
theorem Accepted.plain (h : Accepted sha256 root raw items) (hnamed : root.Named) (hget : root.get l = some n)
    : ∀ c ∈ l, Plain c := by
  intro c hc
  obtain ⟨front, rest, rfl⟩ := List.append_of_mem hc
  rw [get_append, Option.bind_eq_some_iff] at hget
  obtain ⟨m, hm, hrest⟩ := hget
  rw [Node.get, Option.bind_eq_some_iff] at hrest
  obtain ⟨child, hlookup, -⟩ := hrest
  have hin := Boot.mem_of_lookup hlookup
  exact plain_of_safe (h.safe _ (h.mem_raw hm) _ hin) ((hnamed front m hm).2 _ hin)

end Accepted

/-! ## One path, one object -/

/-- Everywhere in the tree the names are plain, and different. -/
def Fit (m : Node) : Prop :=
  ∀ l n, m.get l = some n → (n.children.map (·.1)).Nodup ∧ ∀ c ∈ n.children, Plain c.1

theorem lookup_of_mem {children : List (List Char × Node)} (hnodup : (children.map (·.1)).Nodup) {c : List Char × Node}
    (hc : c ∈ children) : children.lookup c.1 = some c.2 := by
  induction children with
  | nil => cases hc
  | cons first rest ih =>
    rw [List.map_cons, List.nodup_cons] at hnodup
    rw [List.lookup_cons]
    rcases List.mem_cons.1 hc with rfl | hin
    · simp
    · have hne : (c.1 == first.1) = false := by
        rw [beq_eq_false_iff_ne]
        intro heq
        exact hnodup.1 (heq ▸ List.mem_map_of_mem hin)
      rw [hne]
      exact ih hnodup.2 hin

theorem Fit.child {m : Node} (h : Fit m) {c : List Char × Node} (hc : c ∈ m.children) : Fit c.2 := by
  intro l n hget
  apply h (c.1 :: l) n
  rw [Node.get, lookup_of_mem (h [] m rfl).1 hc]
  exact hget

theorem childPath_pathOf (base : Location) (name : List Char) : childPath (pathOf base) name = pathOf (base ++ [name]) := by
  simp [pathOf]

mutual
/-- What is visited is at a location, whose path it has. -/
theorem walk_located (base : Location) : (m : Node) → Fit m → ∀ x ∈ m.walk (pathOf base),
    ∃ l, (∀ c ∈ l, Plain c) ∧ x.1 = pathOf (base ++ l) ∧ m.get l = some x.2
  | .directory info children, h => by
    intro x hx
    rw [Node.walk] at hx
    rcases List.mem_cons.1 hx with rfl | hx
    · exact ⟨[], by simp, by simp, rfl⟩
    · have hchildren := h [] _ rfl
      obtain ⟨c, hc, l, hl, hpath, hget⟩ := walkEach_located base children (fun c hc => ⟨hchildren.2 c hc, h.child hc⟩) x hx
      refine ⟨c.1 :: l, ?_, by rw [hpath]; simp, ?_⟩
      · intro d hd
        rcases List.mem_cons.1 hd with rfl | hd
        · exact hchildren.2 c hc
        · exact hl d hd
      · rw [Node.get, lookup_of_mem hchildren.1 hc]
        exact hget
  | .regular info data, _ => by
    intro x hx
    rw [Node.walk, List.mem_singleton] at hx
    exact ⟨[], by simp, by simp [hx], by rw [hx]; rfl⟩
  | .symlink info target, _ => by
    intro x hx
    rw [Node.walk, List.mem_singleton] at hx
    exact ⟨[], by simp, by simp [hx], by rw [hx]; rfl⟩
  | .special info fmt, _ => by
    intro x hx
    rw [Node.walk, List.mem_singleton] at hx
    exact ⟨[], by simp, by simp [hx], by rw [hx]; rfl⟩

theorem walkEach_located (base : Location) : (children : List (List Char × Node)) →
    (∀ c ∈ children, Plain c.1 ∧ Fit c.2) → ∀ x ∈ walkEach (pathOf base) children,
    ∃ c ∈ children, ∃ l, (∀ d ∈ l, Plain d) ∧ x.1 = pathOf (base ++ [c.1] ++ l) ∧ c.2.get l = some x.2
  | [], _ => by
    intro x hx
    cases hx
  | (name, child) :: rest, h => by
    intro x hx
    rw [walkEach, List.mem_append] at hx
    rcases hx with hx | hx
    · rw [childPath_pathOf] at hx
      obtain ⟨l, hl⟩ := walk_located (base ++ [name]) child (h _ (List.mem_cons_self ..)).2 x hx
      exact ⟨(name, child), List.mem_cons_self .., l, hl⟩
    · obtain ⟨c, hc, hl⟩ := walkEach_located base rest (fun c hc => h c (List.mem_cons_of_mem _ hc)) x hx
      exact ⟨c, List.mem_cons_of_mem _ hc, hl⟩
end

mutual
theorem walk_nodup (base : Location) (hbase : ∀ c ∈ base, Plain c) : (m : Node) → Fit m →
    ((m.walk (pathOf base)).map (·.1)).Nodup
  | .directory info children, h => by
    have hchildren := h [] _ rfl
    have hfit : ∀ c ∈ children, Plain c.1 ∧ Fit c.2 := fun c hc => ⟨hchildren.2 c hc, h.child hc⟩
    rw [Node.walk, List.map_cons, List.nodup_cons]
    refine ⟨?_, walkEach_nodup base hbase children hchildren.1 hfit⟩
    intro hin
    obtain ⟨x, hx, hpath⟩ := List.mem_map.1 hin
    obtain ⟨c, hc, l, hl, hx, -⟩ := walkEach_located base children hfit x hx
    have hplain : ∀ d ∈ base ++ [c.1] ++ l, Plain d := by
      intro d hd
      simp only [List.mem_append, List.mem_singleton] at hd
      rcases hd with (hd | rfl) | hd
      · exact hbase d hd
      · exact hchildren.2 c hc
      · exact hl d hd
    have hlocation := congrArg List.length (pathOf_inj hplain hbase (hx ▸ hpath))
    simp at hlocation
  | .regular info data, _ => by simp [Node.walk]
  | .symlink info target, _ => by simp [Node.walk]
  | .special info fmt, _ => by simp [Node.walk]

theorem walkEach_nodup (base : Location) (hbase : ∀ c ∈ base, Plain c) : (children : List (List Char × Node)) →
    (children.map (·.1)).Nodup → (∀ c ∈ children, Plain c.1 ∧ Fit c.2) →
    ((walkEach (pathOf base) children).map (·.1)).Nodup
  | [], _, _ => by simp [walkEach]
  | (name, child) :: rest, hnodup, h => by
    rw [List.map_cons, List.nodup_cons] at hnodup
    obtain ⟨hname, hchild⟩ := h _ (List.mem_cons_self ..)
    have hrest : ∀ c ∈ rest, Plain c.1 ∧ Fit c.2 := fun c hc => h c (List.mem_cons_of_mem _ hc)
    have hbase' : ∀ c ∈ base ++ [name], Plain c := by
      intro c hc
      rcases List.mem_append.1 hc with hc | hc
      · exact hbase c hc
      · rw [List.mem_singleton.1 hc]
        exact hname
    rw [walkEach, List.map_append, childPath_pathOf]
    refine (walk_nodup (base ++ [name]) hbase' child hchild).append (walkEach_nodup base hbase rest hnodup.2 hrest) ?_
    -- The paths differ in the component after `base`.
    intro path hleft hright
    obtain ⟨x, hx, rfl⟩ := List.mem_map.1 hleft
    obtain ⟨y, hy, hpath⟩ := List.mem_map.1 hright
    obtain ⟨l, hl, hxl, -⟩ := walk_located (base ++ [name]) child hchild x hx
    obtain ⟨c, hc, l', hl', hyl, -⟩ := walkEach_located base rest hrest y hy
    have hplain : ∀ {a : List Char} {k : Location}, Plain a → (∀ d ∈ k, Plain d) → ∀ d ∈ base ++ [a] ++ k, Plain d := by
      intro a k ha hk d hd
      simp only [List.mem_append, List.mem_singleton] at hd
      rcases hd with (hd | rfl) | hd
      · exact hbase d hd
      · exact ha
      · exact hk d hd
    have hsame := pathOf_inj (hplain (hrest c hc).1 hl') (hplain hname hl) (by rw [← hyl, ← hxl, hpath])
    simp only [List.append_assoc, List.append_cancel_left_eq, List.singleton_append, List.cons.injEq] at hsame
    exact hnodup.1 (List.mem_map.2 ⟨c, hc, hsame.1⟩)
end

theorem Accepted.fit {raw : Raw} {items : List (Entry × Option (List UInt8))} (h : Accepted sha256 root raw items)
    (hnamed : root.Named) : Fit root := by
  intro l n hget
  obtain ⟨hsorted, hne⟩ := hnamed l n hget
  have hnodup : (n.children.map (·.1)).Nodup := by
    refine hsorted.imp ?_
    rintro a _ hlt rfl
    exact List.lt_irrefl a hlt
  exact ⟨hnodup, fun c hc => plain_of_safe (h.safe _ (h.mem_raw hget) c hc) (hne c hc)⟩

theorem Accepted.nodup {raw : Raw} {items : List (Entry × Option (List UInt8))} (h : Accepted sha256 root raw items)
    (hnamed : root.Named) : (raw.map (·.1)).Nodup :=
  (h.perm.map _).nodup_iff.2 (walk_nodup [] (by simp) root (h.fit hnamed))

/-! ## Entries and contents -/

/-- An entry and its bytes, as `entryOf` makes them. -/
structure Sound (path : List Char) (n : Node) (y : Entry × Option (List UInt8)) : Prop where
  path : y.1.path = path
  mode : y.1.mode = n.mode
  owner : y.1.uid = n.info.uid.toNat ∧ y.1.gid = n.info.gid.toNat
  kind : match n with
    | .directory _ _ => y.1.kind = .directory ∧ y.1.size = 0 ∧ y.1.hardlink = none ∧ y.2 = none
    | .regular _ data => y.1.kind = .regular ∧ y.1.size = data.length ∧ y.2 = some data
    | .symlink _ target => y.1.kind = .symlink ∧ y.1.size = target.length ∧ y.1.hardlink = none ∧ y.2 = some (fsencode target)
    | .special _ _ => False

theorem entryOf_sound {raw : Raw} (h : entryOf sha256 raw path n = .ok y) : Sound path n y := by
  cases n with
  | directory info children =>
    obtain ⟨-, -, h⟩ := bind_eq_ok.1 h
    cases h
    exact ⟨rfl, rfl, ⟨rfl, rfl⟩, rfl, rfl, rfl, rfl⟩
  | regular info data =>
    obtain ⟨-, -, h⟩ := bind_eq_ok.1 h
    cases h
    exact ⟨rfl, rfl, ⟨rfl, rfl⟩, rfl, rfl, rfl⟩
  | symlink info target =>
    obtain ⟨-, -, h⟩ := bind_eq_ok.1 h
    obtain ⟨-, -, h⟩ := bind_eq_ok.1 h
    cases h
    exact ⟨rfl, rfl, ⟨rfl, rfl⟩, rfl, rfl, rfl, rfl⟩
  | special info fmt =>
    obtain ⟨-, -, h⟩ := bind_eq_ok.1 h
    cases h

section Items
variable {sha256 : List UInt8 → List Char} {root : Node} {raw : Raw} {items : List (Entry × Option (List UInt8))}

theorem Accepted.sound (h : Accepted sha256 root raw items) : List.Forall₂ (fun x y => Sound x.1 x.2 y) raw items :=
  h.items.imp fun _ _ hy => entryOf_sound hy

theorem Accepted.source (h : Accepted sha256 root raw items) (hy : y ∈ items) :
    ∃ x ∈ raw, entryOf sha256 raw x.1 x.2 = .ok y := by
  obtain ⟨i, hi, rfl⟩ := List.mem_iff_getElem.1 hy
  have hi' : i < raw.length := h.items.length_eq ▸ hi
  exact ⟨raw[i], List.getElem_mem hi', h.items.get hi' hi⟩

theorem Accepted.paths (h : Accepted sha256 root raw items) : items.map (·.1.path) = raw.map (·.1) := by
  have hsound := h.sound
  clear h
  induction hsound with
  | nil => rfl
  | cons hxy _ ih => rw [List.map_cons, List.map_cons, ih, hxy.path]

theorem lookup_contentsOf (hnodup : (items.map (·.1.path)).Nodup) (hy : y ∈ items) :
    (contentsOf items).lookup y.1.path = y.2 := by
  induction items with
  | nil => cases hy
  | cons first rest ih =>
    rw [List.map_cons, List.nodup_cons] at hnodup
    have hcons : contentsOf (first :: rest) = (first.2.map (first.1.path, ·)).toList ++ contentsOf rest := by
      cases hfirst : first.2 <;> simp [contentsOf, hfirst]
    rw [hcons]
    rcases List.mem_cons.1 hy with rfl | hin
    · cases hdata : y.2 with
      | none =>
        -- No later entry has this path.
        rw [Option.map_none, Option.toList_none, List.nil_append, List.lookup_eq_none_iff]
        intro p hp
        obtain ⟨z, hz, hmap⟩ := List.mem_filterMap.1 hp
        obtain ⟨data, -, rfl⟩ := Option.map_eq_some_iff.1 hmap
        rw [bne_iff_ne]
        intro heq
        exact hnodup.1 (List.mem_map.2 ⟨z, hz, heq.symm⟩)
      | some data => simp
    · have hne : (y.1.path == first.1.path) = false := by
        rw [beq_eq_false_iff_ne]
        intro heq
        exact hnodup.1 (heq ▸ List.mem_map_of_mem hin)
      cases first.2 with
      | none => exact ih hnodup.2 hin
      | some data =>
        rw [Option.map_some, Option.toList_some, List.singleton_append, List.lookup_cons, hne]
        exact ih hnodup.2 hin

theorem Accepted.lookup (h : Accepted sha256 root raw items) (hnamed : root.Named) (hy : y ∈ items)
    : (contentsOf items).lookup y.1.path = y.2 :=
  lookup_contentsOf (h.paths ▸ h.nodup hnamed) hy

end Items
end Multikernel.Initramfs
