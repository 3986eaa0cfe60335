import Multikernel.Boot.Archive
import Multikernel.Lib.Runs
/-!
# Unpacking a boot archive

The kernel's initramfs unpacker over the entries of an archive: names are
resolved through the directories and symbolic links of earlier entries, an
object of another type is replaced, entries of one inode are hard links.
`Verify` looks at the names as they are written; what it accepts comes out as
approved in every unpacking whose entries are where their names say
(`unpacked_approved`).
-/

namespace Multikernel.Boot
open Lib
variable {cs : List (List Char)} {raw : List Char} {l : Location} {links : List (LinkKey × List Char)}

abbrev Location := List (List Char)

/-- Devices, pipes and sockets. -/
inductive Special where
  | block | character | fifo | socket
  deriving DecidableEq, Repr

def Special.fmt : Special → Nat
  | .block => 0o060000
  | .character => 0o020000
  | .fifo => 0o010000
  | .socket => 0o140000

def specialOf (fmt : Nat) : Option Special := [Special.block, .character, .fifo, .socket].find? (·.fmt = fmt)

inductive Node where
  | directory
  | regular (ino : Nat)
  | symlink (target : List Char)
  | special (kind : Special)
  deriving DecidableEq, Repr

def Node.fmt : Node → Nat
  | .directory => typeDirectory
  | .regular _ => typeRegular
  | .symlink _ => typeSymlink
  | .special kind => kind.fmt

/-- What identifies an inode in the archive. -/
structure LinkKey where
  major : Nat
  minor : Nat
  ino : Nat
  fmt : Nat
  deriving DecidableEq, Repr

def Header.key (h : Header) : LinkKey := ⟨h.major, h.minor, h.ino, h.fmt⟩

/-- The root file system, and the names of the inodes that have several. -/
structure Root where
  nodes : List (Location × Node) := []
  contents : Nat → List UInt8 := fun _ => []
  next : Nat := 0
  links : List (LinkKey × List Char) := []

def Root.node (r : Root) (l : Location) : Option Node := r.nodes.lookup l

/-! ## Names -/

inductive Stroll where
  | arrived (l : Location)
  | link (dir : Location) (target : List Char) (rest : List (List Char))
  | stuck

/-- From directory to directory, up to the first symbolic link. -/
def Root.stroll (r : Root) : Location → List (List Char) → Stroll
  | dir, [] => .arrived dir
  | dir, c :: cs =>
    if c = ['.'] then r.stroll dir cs
    else if c = ['.', '.'] then r.stroll dir.dropLast cs
    else match r.node (dir ++ [c]) with
    | some .directory => r.stroll (dir ++ [c]) cs
    | some (.symlink target) => .link dir target cs
    | _ => .stuck

/-- Where a link's text starts. -/
def linkBase (dir : Location) (target : List Char) : Location := if target.head? = some '/' then [] else dir

/-- The directory a path leads to, through at most so many links. -/
def Root.walk (r : Root) : Nat → Location → List (List Char) → Option Location
  | n, dir, cs => match r.stroll dir cs with
    | .arrived l => some l
    | .stuck => none
    | .link dir target rest => match n with
      | 0 => none
      | n + 1 => r.walk n (linkBase dir target) (components target ++ rest)

/-- The location of a name, whether something is there or not. -/
def Root.locateFrom (r : Root) (dir : Location) (path : List Char) : Option Location :=
  match (components path).getLast? with
  | none => none
  | some last =>
    if last = ['.'] ∨ last = ['.', '.'] then none
    else (r.walk 40 (linkBase dir path) (components path).dropLast).map (· ++ [last])

def Root.locate (r : Root) (path : List Char) : Option Location := r.locateFrom [] path

/-- What is at a path. -/
def Root.find (r : Root) (path : List Char) : Option Node := (r.locate path).bind r.node

/-! ## Entries -/

/-- `clean_path`: an object of another type goes, unless it is a directory with
something in it. -/
def Root.cleanPath (r : Root) (l : Location) (fmt : Nat) : Root :=
  match r.node l with
  | none => r
  | some node =>
    if node.fmt = fmt ∨ (node = .directory ∧ r.nodes.any fun x => decide (l <+: x.1 ∧ l ≠ x.1)) then r
    else { r with nodes := r.nodes.filter (·.1 ≠ l) }

def Root.put (r : Root) (l : Location) (node : Node) : Root := { r with nodes := (l, node) :: r.nodes }

/-- `mkdir`, `symlink`, `mknod`. -/
def Root.make (r : Root) (l : Location) (node : Node) : Root := if (r.node l).isSome then r else r.put l node

inductive Linked where
  | no | yes | failed
  deriving DecidableEq, Repr

/-- `link`: another name for what is there, a link itself included. -/
def Root.link (r : Root) (old : List Char) (l : Location) : Root × Linked :=
  match r.find old, r.node l with
  | some node, none => if node = .directory then (r, .failed) else (r.put l node, .yes)
  | _, _ => (r, .failed)

/-- `maybe_link`. -/
def Root.maybeLink (r : Root) (e : Entry) (l : Option Location) : Root × Linked :=
  if e.header.nlink < 2 then (r, .no)
  else match r.links.lookup e.header.key with
  | none => ({ r with links := (e.header.key, e.raw) :: r.links }, .no)
  | some old => match l with
    | none => (r, .failed)
    | some l => (r.cleanPath l 0).link old l

/-- Where opening a name ends. -/
def Root.follow (r : Root) : Nat → Location → Option Location
  | n, l => match r.node l with
    | some (.symlink target) => match n with
      | 0 => none
      | n + 1 => (r.locateFrom l.dropLast target).bind (r.follow n)
    | _ => some l

/-- Open for writing and write the contents; a name that was linked just now
keeps what it has if there is nothing to write. -/
def Root.write (r : Root) (l : Location) (linked : Bool) (body : List UInt8) : Root :=
  match r.follow 40 l with
  | none => r
  | some l => match r.node l with
    | none =>
      { r.put l (.regular r.next) with contents := Function.update r.contents r.next body, next := r.next + 1 }
    | some (.regular i) =>
      { r with contents := Function.update r.contents i (if linked ∧ body = [] then r.contents i else body) }
    | some _ => r

def Root.unpackSymlink (r : Root) (e : Entry) : Root :=
  let target := text (e.body.takeWhile (· ≠ 0))
  if e.body.length > 4096 then r
  else match r.locate e.raw with
  | none => r
  | some l => if target = [] then r.cleanPath l 0 else (r.cleanPath l 0).make l (.symlink target)

def Root.unpackRegular (r : Root) (e : Entry) (l : Option Location) : Root :=
  match r.maybeLink e l with
  | (r, .failed) => r
  | (r, linked) => match l with
    | none => r
    | some l => r.write l (linked = .yes) e.body

def Root.unpackDirectory (r : Root) (l : Option Location) : Root :=
  match l with
  | none => r
  | some l => r.make l .directory

def Root.unpackSpecial (r : Root) (e : Entry) (kind : Special) (l : Option Location) : Root :=
  match r.maybeLink e l with
  | (r, .no) => match l with
    | none => r
    | some l => r.make l (.special kind)
  | (r, _) => r

/-- One entry. Contents of anything but files and links are skipped, and the
entry with them. -/
def Root.unpackEntry (r : Root) (e : Entry) : Root :=
  if e.header.fmt = typeSymlink then r.unpackSymlink e
  else if e.header.fmt ≠ typeRegular ∧ e.body ≠ [] then r
  else
    let l := r.locate e.raw
    let r := match l with
      | none => r
      | some l => r.cleanPath l e.header.fmt
    if e.header.fmt = typeRegular then r.unpackRegular e l
    else if e.header.fmt = typeDirectory then r.unpackDirectory l
    else match specialOf e.header.fmt with
    | some kind => r.unpackSpecial e kind l
    | none => r

def unpack (es : List Entry) : Root := run Root.unpackEntry {} es

/-- Every required path, and every optional one that exists, is a regular file
with the approved contents. -/
structure Delivered (sha256 : List UInt8 → String) (required optional : Policy) (r : Root) : Prop where
  required : ∀ name c, required.lookup name = some c → ∃ i, r.find name = some (.regular i) ∧ sha256 (r.contents i) = c.sha256
  optional : ∀ name c node, optional.lookup name = some c → r.find name = some node →
    ∃ i, node = .regular i ∧ sha256 (r.contents i) = c.sha256

/-! ## Where names say -/

/-- No symbolic link is above the name. -/
def Clear (r : Root) (name : List Char) : Prop :=
  ∀ dir, dir ≠ [] → dir <+: (components name).dropLast → ∀ target, r.node dir ≠ some (.symlink target)

/-- Every directory above the name is there. -/
def Grounded (r : Root) (name : List Char) : Prop :=
  ∀ dir, dir ≠ [] → dir <+: (components name).dropLast → r.node dir = some .directory

/-- An entry is where its name says: no link is above its name, nor above the
first name of its inode; above a critical file its directories are there; and a
link is not itself above a critical path. -/
structure InPlace (required optional : Policy) (r : Root) (e : Entry) : Prop where
  clear : Clear r e.name
  linked : ∀ old, 2 ≤ e.header.nlink → r.links.lookup e.header.key = some old → Clear r (trimDot old)
  grounded : (criticalFor required optional e.name).isSome → Grounded r e.name
  above : e.header.fmt = typeSymlink → ∀ p ∈ required ++ optional, ¬components e.name <+: (components p.1).dropLast

section Decide
variable (r : Root) (name : List Char)

theorem clear_iff : Clear r name ↔ ∀ dir ∈ (components name).dropLast.inits, dir ≠ [] → (r.node dir).all fun n => n.fmt != typeSymlink := by
  simp only [Clear, List.mem_inits]
  constructor
  · intro h dir hdir hne
    cases hnode : r.node dir with
    | none => rfl
    | some node =>
      cases node with
      | symlink target => exact absurd hnode (h dir hne hdir target)
      | special kind => cases kind <;> rfl
      | _ => rfl
  · intro h dir hne hdir target hnode
    have := h dir hdir hne
    rw [hnode] at this
    cases this

instance : Decidable (Clear r name) := decidable_of_iff _ (clear_iff r name).symm

instance : Decidable (Grounded r name) :=
  decidable_of_iff (∀ dir ∈ (components name).dropLast.inits, dir ≠ [] → r.node dir = some .directory)
    ⟨fun h dir hne hdir => h dir ((List.mem_inits ..).2 hdir) hne, fun h dir hdir hne => h dir hne ((List.mem_inits ..).1 hdir)⟩

instance (required optional : Policy) (e : Entry) : Decidable (InPlace required optional r e) :=
  decidable_of_iff (Clear r e.name ∧ (2 ≤ e.header.nlink → ∀ old ∈ r.links.lookup e.header.key, Clear r (trimDot old)) ∧
      ((criticalFor required optional e.name).isSome → Grounded r e.name) ∧
      (e.header.fmt = typeSymlink → ∀ p ∈ required ++ optional, ¬components e.name <+: (components p.1).dropLast))
    ⟨fun h => ⟨h.1, fun old hn hold => h.2.1 hn old hold, h.2.2.1, h.2.2.2⟩,
      fun h => ⟨h.clear, fun hn old hold => h.linked old hn hold, h.grounded, h.above⟩⟩

end Decide

section Names
variable {r : Root}

/-- Without links, a path leads where it says or nowhere. -/
theorem stroll_clear (dir : Location) (hplain : ∀ c ∈ cs, Plain c)
    (hclear : ∀ q, q ≠ [] → q <+: cs → ∀ target, r.node (dir ++ q) ≠ some (.symlink target)) :
    (r.stroll dir cs = .arrived (dir ++ cs) ∧ ∀ q, q ≠ [] → q <+: cs → r.node (dir ++ q) = some .directory) ∨
      (r.stroll dir cs = .stuck ∧ ∃ q, q ≠ [] ∧ q <+: cs ∧ r.node (dir ++ q) ≠ some .directory) := by
  induction cs generalizing dir with
  | nil =>
    left
    refine ⟨by simp [Root.stroll], fun q hne hq => absurd (List.prefix_nil.1 hq) hne⟩
  | cons c cs ih =>
    have hc := hplain c (List.mem_cons_self ..)
    have hfirst : [c] <+: c :: cs := ⟨cs, rfl⟩
    rw [Root.stroll, if_neg hc.dot, if_neg hc.dots]
    cases hnode : r.node (dir ++ [c]) with
    | none =>
      right
      exact ⟨rfl, [c], by simp, hfirst, by simp [hnode]⟩
    | some node =>
      cases node with
      | symlink target => exact absurd hnode (hclear [c] (by simp) hfirst target)
      | regular | special =>
        right
        exact ⟨rfl, [c], by simp, hfirst, by simp [hnode]⟩
      | directory =>
        have happend : ∀ q, dir ++ [c] ++ q = dir ++ c :: q := by simp
        rcases ih (dir ++ [c]) (fun c hc => hplain c (List.mem_cons_of_mem _ hc)) (fun q hne hq target => by
            rw [happend]
            exact hclear (c :: q) (by simp) (List.cons_prefix_cons.2 ⟨rfl, hq⟩) target) with ⟨harrived, hall⟩ | ⟨hstuck, q, hne, hq, hnot⟩
        · left
          refine ⟨harrived.trans (by rw [happend]), fun q hne hq => ?_⟩
          cases q with
          | nil => exact absurd rfl hne
          | cons d q =>
            obtain ⟨rfl, hrest⟩ := List.cons_prefix_cons.1 hq
            by_cases hq' : q = []
            · subst hq'
              exact hnode
            · rw [← happend]
              exact hall q hq' hrest
        · right
          refine ⟨hstuck, c :: q, by simp, List.cons_prefix_cons.2 ⟨rfl, hq⟩, ?_⟩
          rw [← happend]
          exact hnot

theorem components_dot (path : List Char) : components ('.' :: '/' :: path) = ['.'] :: components path := by
  simp [components, List.splitOn, List.splitOnP_cons_eq_if_modifyHead]

/-- The components of the name in the archive. -/
theorem raw_components (raw : List Char) :
    components raw = components (trimDot raw) ∨ components raw = ['.'] :: components (trimDot raw) := by
  unfold trimDot
  split
  · exact .inr (components_dot _)
  · exact .inl rfl

theorem locate_dot (h : trimDot raw = ['.']) : r.locate raw = none := by
  have hdot : components ['.'] = [['.']] := by decide
  rcases raw_components raw with hraw | hraw <;> rw [h, hdot] at hraw <;> simp [Root.locate, Root.locateFrom, hraw]

/-- Without links above it, a name is located where it says, if its directories
are there. -/
theorem locate_clear (hcs : components (trimDot raw) = cs) (hne : cs ≠ []) (hplain : ∀ c ∈ cs, Plain c)
    (hclear : Clear r (trimDot raw)) :
    (r.locate raw = some cs ∧ Grounded r (trimDot raw)) ∨ (r.locate raw = none ∧ ¬Grounded r (trimDot raw)) := by
  obtain ⟨front, last, rfl⟩ : ∃ front last, cs = front ++ [last] := ⟨_, _, (List.dropLast_append_getLast hne).symm⟩
  have hlast := hplain last (by simp)
  have hfront : ∀ c ∈ front, Plain c := fun c hc => hplain c (List.mem_append_left _ hc)
  rw [Clear, hcs, List.dropLast_concat] at hclear
  rw [Grounded, hcs, List.dropLast_concat]
  have hbase : ∀ dir, linkBase [] dir = [] := by
    intro dir
    unfold linkBase
    split <;> rfl
  have hstroll : r.stroll [] (components raw).dropLast = r.stroll [] front ∧ (components raw).getLast? = some last := by
    rcases raw_components raw with hraw | hraw
    · rw [hraw, hcs]
      simp
    · have hcons : ['.'] :: (front ++ [last]) = (['.'] :: front) ++ [last] := rfl
      rw [hraw, hcs, hcons, List.dropLast_concat, List.getLast?_concat, Root.stroll, if_pos rfl]
      exact ⟨rfl, rfl⟩
  rw [Root.locate, Root.locateFrom, hstroll.2, hbase]
  dsimp only
  rw [if_neg (by simp [hlast.dot, hlast.dots]), Root.walk, hstroll.1]
  rcases stroll_clear [] hfront (fun q hne' hq target => by simpa using hclear q hne' hq target) with ⟨harrived, hall⟩ | ⟨hstuck, q, hne', hq, hnot⟩
  · left
    rw [harrived]
    exact ⟨by simp, fun q hne hq => by simpa using hall q hne hq⟩
  · right
    rw [hstuck]
    exact ⟨rfl, fun h => hnot (by simpa using h q hne' hq)⟩

end Names

/-! ## One entry -/

section Entry
variable {r : Root} {e : Entry}

theorem node_put (r : Root) (l l' : Location) (node : Node) : (r.put l node).node l' = if l' = l then some node else r.node l' := by
  by_cases h : l' = l
  · subst h
    simp [Root.put, Root.node]
  · rw [if_neg h, Root.put, Root.node, List.lookup_cons, beq_false_of_ne h, Root.node]

theorem cleanPath_free (h : r.node l = none) (fmt : Nat) : r.cleanPath l fmt = r := by
  rw [Root.cleanPath, h]

theorem make_free (h : r.node l = none) (node : Node) : r.make l node = r.put l node := by
  rw [Root.make, h]
  rfl

/-- What is known when an entry's turn comes: nothing is at its name, its name is
located there or nowhere, and the other names of its inode are of its type. -/
structure Turn (r : Root) (e : Entry) : Prop where
  free : r.node (components e.name) = none
  located : r.locate e.raw = some (components e.name) ∧ Grounded r e.name ∨ r.locate e.raw = none
  shares : ∀ old l node, 2 ≤ e.header.nlink → r.links.lookup e.header.key = some old → r.locate old = some l →
    r.node l = some node → node.fmt = e.header.fmt

/-- The names of inodes, with or without the entry's. -/
def Noted (r : Root) (e : Entry) (links : List (LinkKey × List Char)) : Prop :=
  links = r.links ∨ (2 ≤ e.header.nlink ∧ links = (e.header.key, e.raw) :: r.links)

/-- Everything an entry can do at its turn. -/
inductive Effect (r : Root) (e : Entry) : Root → Prop where
  | still {links : List (LinkKey × List Char)} (hlinks : Noted r e links) : Effect r e { r with links }
  | put {links : List (LinkKey × List Char)} {node : Node} (hlinks : Noted r e links) (hfmt : node.fmt = e.header.fmt)
      (hfile : ∀ i, node ≠ .regular i) : Effect r e { r.put (components e.name) node with links }
  | create {links : List (LinkKey × List Char)} (hlinks : Noted r e links) (hfmt : e.header.fmt = typeRegular) :
      Effect r e { r.put (components e.name) (.regular r.next) with
        links, contents := Function.update r.contents r.next e.body, next := r.next + 1 }
  | share {old : List Char} {l : Location} {i : Nat} {body : List UInt8} (hold : r.links.lookup e.header.key = some old)
      (hl : r.locate old = some l) (hnode : r.node l = some (.regular i)) (hnlink : 2 ≤ e.header.nlink)
      (hfmt : e.header.fmt = typeRegular) :
      Effect r e { r.put (components e.name) (.regular i) with contents := Function.update r.contents i body }

theorem Noted.refl : Noted r e r.links := .inl rfl

theorem Effect.same (r : Root) (e : Entry) : Effect r e r := .still Noted.refl

theorem fmt_regular {node : Node} : node.fmt = typeRegular ↔ ∃ i, node = .regular i := by
  constructor
  · intro h
    cases node with
    | regular i => exact ⟨i, rfl⟩
    | directory | symlink => cases h
    | special kind => cases kind <;> cases h
  · rintro ⟨i, rfl⟩
    rfl

/-- Everything `maybe_link` can do at an entry's turn. -/
theorem maybeLink_cases (h : Turn r e) {l : Option Location} (hl : l = some (components e.name) ∨ l = none) :
    (∃ links, Noted r e links ∧ r.maybeLink e l = ({ r with links }, .no)) ∨ r.maybeLink e l = (r, .failed) ∨
      ∃ old o node, l = some (components e.name) ∧ 2 ≤ e.header.nlink ∧ r.links.lookup e.header.key = some old ∧
        r.locate old = some o ∧ r.node o = some node ∧ r.maybeLink e l = (r.put (components e.name) node, .yes) := by
  unfold Root.maybeLink
  split
  · exact .inl ⟨r.links, .inl rfl, rfl⟩
  rename_i hnlink
  have htwo : 2 ≤ e.header.nlink := Nat.le_of_not_lt hnlink
  cases hold : r.links.lookup e.header.key with
  | none => exact .inl ⟨_, .inr ⟨htwo, rfl⟩, rfl⟩
  | some old =>
    rcases hl with rfl | rfl
    · dsimp only
      rw [cleanPath_free h.free, Root.link, h.free, Root.find]
      cases ho : r.locate old with
      | none => exact .inr (.inl rfl)
      | some o =>
        cases hnode : r.node o with
        | none =>
          refine .inr (.inl ?_)
          simp [hnode]
        | some node =>
          simp only [Option.bind_some, hnode]
          split
          · exact .inr (.inl rfl)
          · exact .inr (.inr ⟨old, o, node, trivial, htwo, rfl, ho, hnode, rfl⟩)
    · exact .inr (.inl rfl)

/-- Opening a name at which nothing is makes a file. -/
theorem write_free (h : r.node l = none) (linked : Bool) (body : List UInt8) : r.write l linked body =
    { r.put l (.regular r.next) with contents := Function.update r.contents r.next body, next := r.next + 1 } := by
  have hfollow : r.follow 40 l = some l := by
    rw [Root.follow, h]
  rw [Root.write, hfollow]
  dsimp only
  rw [h]

theorem write_regular {i : Nat} (h : r.node l = some (.regular i)) (linked : Bool) (body : List UInt8) :
    ∃ body', r.write l linked body = { r with contents := Function.update r.contents i body' } := by
  have hfollow : r.follow 40 l = some l := by
    rw [Root.follow, h]
  rw [Root.write, hfollow]
  dsimp only
  rw [h]
  exact ⟨_, rfl⟩

theorem effect_regular (h : Turn r e) (hfmt : e.header.fmt = typeRegular) {l : Option Location}
    (hl : l = some (components e.name) ∨ l = none) : Effect r e (r.unpackRegular e l) := by
  unfold Root.unpackRegular
  rcases maybeLink_cases h hl with ⟨links, hlinks, heq⟩ | heq | ⟨old, o, node, rfl, htwo, hold, ho, hnode, heq⟩
  · rw [heq]
    rcases hl with rfl | rfl
    · dsimp only
      rw [write_free (r := { r with links }) h.free]
      exact .create hlinks hfmt
    · exact .still hlinks
  · rw [heq]
    exact Effect.same r e
  · rw [heq]
    obtain ⟨i, rfl⟩ := fmt_regular.1 ((h.shares old o node htwo hold ho hnode).trans hfmt)
    have hthere : (r.put (components e.name) (.regular i)).node (components e.name) = some (.regular i) := by
      rw [node_put, if_pos rfl]
    obtain ⟨body', hwrite⟩ := write_regular hthere (decide (Linked.yes = .yes)) e.body
    dsimp only
    rw [hwrite]
    exact .share hold ho hnode htwo hfmt

theorem effect_special (h : Turn r e) {kind : Special} (hkind : kind.fmt = e.header.fmt) {l : Option Location}
    (hl : l = some (components e.name) ∨ l = none) : Effect r e (r.unpackSpecial e kind l) := by
  have hnotRegular : e.header.fmt ≠ typeRegular := by
    rw [← hkind]
    cases kind <;> decide
  unfold Root.unpackSpecial
  rcases maybeLink_cases h hl with ⟨links, hlinks, heq⟩ | heq | ⟨old, o, node, rfl, htwo, hold, ho, hnode, heq⟩
  · rw [heq]
    rcases hl with rfl | rfl
    · dsimp only
      rw [make_free (r := { r with links }) h.free]
      exact .put hlinks hkind nofun
    · exact .still hlinks
  · rw [heq]
    exact Effect.same r e
  · rw [heq]
    have hfmt := h.shares old o node htwo hold ho hnode
    refine .put Noted.refl hfmt ?_
    rintro i rfl
    exact hnotRegular hfmt.symm

theorem effect_entry (h : Turn r e) : Effect r e (r.unpackEntry e) := by
  have hl : r.locate e.raw = some (components e.name) ∨ r.locate e.raw = none := by
    rcases h.located with hl | hl
    · exact .inl hl.1
    · exact .inr hl
  unfold Root.unpackEntry
  split
  · rename_i hfmt
    unfold Root.unpackSymlink
    dsimp only
    split
    · exact Effect.same r e
    rcases hl with hl | hl
    · rw [hl]
      dsimp only
      rw [cleanPath_free h.free]
      split
      · exact Effect.same r e
      · rw [make_free h.free]
        exact .put Noted.refl hfmt.symm nofun
    · rw [hl]
      exact Effect.same r e
  split
  · exact Effect.same r e
  have hclean : (match r.locate e.raw with
      | none => r
      | some l => r.cleanPath l e.header.fmt) = r := by
    rcases hl with hl | hl
    · rw [hl]
      exact cleanPath_free h.free _
    · rw [hl]
  dsimp only
  rw [hclean]
  split
  · rename_i hfmt
    exact effect_regular h hfmt hl
  split
  · rename_i hfmt
    unfold Root.unpackDirectory
    rcases hl with hl | hl
    · rw [hl]
      dsimp only
      rw [make_free h.free]
      exact .put Noted.refl hfmt.symm nofun
    · rw [hl]
      exact Effect.same r e
  · split
    · rename_i kind hkind
      exact effect_special h (by simpa using List.find?_some hkind) hl
    · exact Effect.same r e

end Entry

/-! ## Every unpacking -/

/-- The entry stands for a component. -/
def Critical (required optional : Policy) (e : Entry) : Prop := (criticalFor required optional e.name).isSome

/-- A critical file as it was in the archive, under no other name. -/
def Intact (r : Root) (e : Entry) : Prop :=
  Grounded r e.name ∧ ∃ i, r.node (components e.name) = some (.regular i) ∧ r.contents i = e.body ∧
    ∀ l, r.node l = some (.regular i) → l = components e.name

/-- What holds of the root when the entries `done` are unpacked. -/
structure Unpacked (required optional : Policy) (done : List Entry) (r : Root) : Prop where
  made : ∀ l node, r.node l = some node → ∃ e ∈ done, components e.name = l ∧ node.fmt = e.header.fmt
  inodes : ∀ l i, r.node l = some (.regular i) → i < r.next
  intact : ∀ e ∈ done, Critical required optional e → Intact r e
  links : ∀ key old, r.links.lookup key = some old →
    ∃ e ∈ done, e.name = trimDot old ∧ 2 ≤ e.header.nlink ∧ e.header.fmt = key.fmt
  below : ∀ l target, r.node l = some (.symlink target) → ∀ p ∈ required ++ optional, ¬l <+: (components p.1).dropLast

section Run
variable {sha256 : List UInt8 → String} {required optional : Policy} {r : Root} {e : Entry} {done : List Entry}

theorem name_inj {a b : List Char} (ha : safeName a) (hb : safeName b) (h : components a = components b) : a = b := by
  have hdot : components ['.'] = [['.']] := by decide
  rcases safeName_cases ha with rfl | ⟨cs, -, hcs, rfl⟩
  · rcases safeName_cases hb with rfl | ⟨ds, -, hds, rfl⟩
    · rfl
    · rw [hdot, components_join hds] at h
      exact absurd rfl (hds ['.'] (h ▸ List.mem_singleton.2 rfl)).dot
  · rcases safeName_cases hb with rfl | ⟨ds, -, hds, rfl⟩
    · rw [hdot, components_join hcs] at h
      exact absurd rfl (hcs ['.'] (h ▸ List.mem_singleton.2 rfl)).dot
    · rw [components_join hcs, components_join hds] at h
      rw [h]

/-- The entries up to one of them. -/
structure Upto (sha256 : List UInt8 → String) (required optional : Policy) (done : List Entry) (e : Entry) : Prop where
  safe : ∀ d ∈ done ++ [e], safeName d.name
  once : ((done ++ [e]).map Entry.name).Nodup
  approved : ∀ d ∈ done ++ [e], Approved sha256 required optional d

theorem Upto.new (h : Upto sha256 required optional done e) {d : Entry} (hd : d ∈ done) : components d.name ≠ components e.name := by
  intro heq
  have hname := name_inj (h.safe d (List.mem_append_left _ hd)) (h.safe e (by simp)) heq
  have hnodup := h.once
  rw [List.map_append, List.nodup_append] at hnodup
  exact hnodup.2.2 _ (List.mem_map_of_mem hd) e.name (by simp) hname

theorem Upto.unique (h : Upto sha256 required optional done e) {c d : Entry} (hc : c ∈ done) (hd : d ∈ done)
    (heq : components c.name = components d.name) : c = d := by
  have hname := name_inj (h.safe c (List.mem_append_left _ hc)) (h.safe d (List.mem_append_left _ hd)) heq
  have hnodup := h.once
  rw [List.map_append, List.nodup_append] at hnodup
  exact List.inj_on_of_nodup_map hnodup.1 hc hd hname

theorem locate_safe (hsafe : safeName (trimDot raw)) (hclear : Clear r (trimDot raw)) :
    (r.locate raw = some (components (trimDot raw)) ∧ Grounded r (trimDot raw)) ∨ r.locate raw = none := by
  rcases safeName_cases hsafe with hdot | ⟨cs, hne, hplain, hname⟩
  · exact .inr (locate_dot hdot)
  · have hcs : components (trimDot raw) = cs := by rw [hname, components_join hplain]
    rcases locate_clear hcs hne hplain hclear with h | h
    · rw [hcs]
      exact .inl h
    · exact .inr h.1

theorem Unpacked.turn (h : Unpacked required optional done r) (hup : Upto sha256 required optional done e)
    (hplace : InPlace required optional r e) : Turn r e := by
  refine ⟨?_, locate_safe (hup.safe e (by simp)) hplace.clear, ?_⟩
  · cases hnode : r.node (components e.name) with
    | none => rfl
    | some node =>
      obtain ⟨d, hd, heq, -⟩ := h.made _ _ hnode
      exact absurd heq (hup.new hd)
  · intro old l node hnlink hold hl hnode
    obtain ⟨d, hd, hname, -, hfmt⟩ := h.links _ _ hold
    have hlocated := locate_safe (hname ▸ hup.safe d (List.mem_append_left _ hd)) (hplace.linked old hnlink hold)
    rw [hl, ← hname] at hlocated
    obtain ⟨hloc, -⟩ : l = components d.name ∧ True := by
      rcases hlocated with hloc | hloc
      · exact ⟨Option.some.inj hloc.1, trivial⟩
      · cases hloc
    obtain ⟨c, hc, hcl, hcfmt⟩ := h.made _ _ hnode
    obtain rfl := hup.unique hc hd (hcl.trans hloc)
    rw [hcfmt, hfmt]
    rfl

/-- A new object at a free place leaves a critical file as it is, unless it is
another name of its inode or its contents change. -/
theorem Intact.put {node : Node} {contents : Nat → List UInt8} {next : Nat} (h : Intact r e) (hfree : r.node l = none)
    (hnode : ∀ i, r.node (components e.name) = some (.regular i) → node ≠ .regular i ∧ contents i = r.contents i) :
    Intact { r.put l node with contents, next, links } e := by
  have hput : ∀ l', ({ r.put l node with contents, next, links } : Root).node l' = if l' = l then some node else r.node l' :=
    fun l' => node_put r l l' node
  have hother : ∀ l' n, r.node l' = some n → l' ≠ l := by
    rintro l' n hn rfl
    rw [hfree] at hn
    cases hn
  obtain ⟨hground, i, hi, hcontents, honly⟩ := h
  refine ⟨fun dir hne hdir => ?_, i, ?_, ?_, fun l' hl' => ?_⟩
  · rw [hput, if_neg (hother _ _ (hground dir hne hdir))]
    exact hground dir hne hdir
  · rw [hput, if_neg (hother _ _ hi)]
    exact hi
  · exact (hnode i hi).2.trans hcontents
  · rw [hput] at hl'
    split at hl'
    · exact absurd (Option.some.inj hl') (hnode i hi).1
    · exact honly l' hl'

theorem Noted.links_of (hn : Noted r e links) (h : Unpacked required optional done r) (key : LinkKey)
    (old : List Char) (hold : links.lookup key = some old) :
    ∃ d ∈ done ++ [e], d.name = trimDot old ∧ 2 ≤ d.header.nlink ∧ d.header.fmt = key.fmt := by
  have hbefore : r.links.lookup key = some old → ∃ d ∈ done ++ [e], d.name = trimDot old ∧ 2 ≤ d.header.nlink ∧ d.header.fmt = key.fmt := by
    intro hold
    obtain ⟨d, hd, hrest⟩ := h.links key old hold
    exact ⟨d, List.mem_append_left _ hd, hrest⟩
  rcases hn with rfl | ⟨htwo, rfl⟩
  · exact hbefore hold
  · rw [List.lookup_cons] at hold
    by_cases hkey : key = e.header.key
    · subst hkey
      simp only [beq_self_eq_true] at hold
      cases hold
      exact ⟨e, by simp, rfl, htwo, rfl⟩
    · rw [beq_false_of_ne hkey] at hold
      exact hbefore hold

/-- The fields after an object was added at the entry's name. -/
theorem Unpacked.grow (h : Unpacked required optional done r) (hplace : InPlace required optional r e)
    (hfree : r.node (components e.name) = none) {node : Node} {contents : Nat → List UInt8} {next : Nat}
    (hfmt : node.fmt = e.header.fmt) (hnext : r.next ≤ next) (hino : ∀ i, node = .regular i → i < next)
    (hintact : ∀ d ∈ done, Critical required optional d → ∀ i, r.node (components d.name) = some (.regular i) → node ≠ .regular i ∧ contents i = r.contents i)
    (hlinks : Noted r e links)
    (hnew : Critical required optional e → Intact { r.put (components e.name) node with contents, next, links } e) :
    Unpacked required optional (done ++ [e]) { r.put (components e.name) node with contents, next, links } := by
  have hput : ∀ l, ({ r.put (components e.name) node with contents, next, links } : Root).node l =
      if l = components e.name then some node else r.node l := fun l => node_put r _ l node
  refine ⟨fun l n hn => ?_, fun l i hi => ?_, fun d hd hcritical => ?_, hlinks.links_of h, fun l target hl p hp => ?_⟩
  · rw [hput] at hn
    split at hn
    · rename_i hl
      cases hn
      exact ⟨e, by simp, hl.symm, hfmt⟩
    · obtain ⟨d, hd, hrest⟩ := h.made l n hn
      exact ⟨d, List.mem_append_left _ hd, hrest⟩
  · rw [hput] at hi
    split at hi
    · cases hi
      exact hino i rfl
    · exact Nat.lt_of_lt_of_le (h.inodes l i hi) hnext
  · rcases List.mem_append.1 hd with hd | hd
    · exact (h.intact d hd hcritical).put hfree (hintact d hd hcritical)
    · obtain rfl := List.mem_singleton.1 hd
      exact hnew hcritical
  · rw [hput] at hl
    split at hl
    · rename_i heq
      cases hl
      rw [heq]
      exact hplace.above hfmt.symm p hp
    · exact h.below l target hl p hp

/-- A new file has an inode of its own. -/
theorem Unpacked.create (h : Unpacked required optional done r) (hplace : InPlace required optional r e)
    (hfree : r.node (components e.name) = none) (hfmt : e.header.fmt = typeRegular) (hlinks : Noted r e links) :
    Unpacked required optional (done ++ [e]) { r.put (components e.name) (.regular r.next) with
      links, contents := Function.update r.contents r.next e.body, next := r.next + 1 } := by
  have hput := node_put r (components e.name)
  refine h.grow hplace hfree hfmt.symm (Nat.le_succ _) ?_ ?_ hlinks ?_
  · rintro i ⟨⟩
    exact Nat.lt_succ_self _
  · intro d hd hcritical i hi
    have hlt := h.inodes _ i hi
    refine ⟨?_, Function.update_of_ne (Nat.ne_of_lt hlt) _ _⟩
    rintro ⟨⟩
    exact Nat.lt_irrefl _ hlt
  · intro hcritical
    refine ⟨fun dir hne hdir => ?_, r.next, ?_, Function.update_self .., fun l hl => ?_⟩
    · have hground := hplace.grounded hcritical dir hne hdir
      refine (hput dir _).trans ?_
      rw [if_neg, hground]
      rintro rfl
      rw [hfree] at hground
      cases hground
    · exact (hput _ _).trans (if_pos rfl)
    · have hl' := (hput l (.regular r.next)).symm.trans hl
      split at hl'
      · assumption
      · exact absurd (h.inodes l _ hl') (Nat.lt_irrefl _)

theorem Unpacked.still (h : Unpacked required optional done r) (hlinks : Noted r e links)
    (hcritical : ¬Critical required optional e) : Unpacked required optional (done ++ [e]) { r with links } := by
  refine ⟨fun l node hn => ?_, h.inodes, fun d hd hc => ?_, hlinks.links_of h, h.below⟩
  · obtain ⟨d, hd, hrest⟩ := h.made l node hn
    exact ⟨d, List.mem_append_left _ hd, hrest⟩
  · rcases List.mem_append.1 hd with hd | hd
    · exact h.intact d hd hc
    · exact absurd (List.mem_singleton.1 hd ▸ hc) hcritical

/-- A critical file has one name. -/
theorem Approved.single (h : Approved sha256 required optional e) (hcritical : Critical required optional e) :
    e.header.fmt = typeRegular ∧ e.header.nlink = 1 := by
  obtain ⟨c, hc⟩ := Option.isSome_iff_exists.1 hcritical
  have hsafe := (h c hc).1
  simp only [safeMetadata, Bool.and_eq_true, beq_iff_eq] at hsafe
  exact ⟨hsafe.1.1.1.1.1.1, hsafe.1.1.2⟩

theorem Unpacked.share (h : Unpacked required optional done r) (hup : Upto sha256 required optional done e)
    (hplace : InPlace required optional r e) (hfree : r.node (components e.name) = none) {old : List Char} {i : Nat}
    {body : List UInt8} (hold : r.links.lookup e.header.key = some old) (hl : r.locate old = some l)
    (hnode : r.node l = some (.regular i)) (hnlink : 2 ≤ e.header.nlink) (hfmt : e.header.fmt = typeRegular) :
    Unpacked required optional (done ++ [e])
      { r.put (components e.name) (.regular i) with contents := Function.update r.contents i body } := by
  obtain ⟨o, ho, hname, htwo, -⟩ := h.links _ _ hold
  have hloc : l = components o.name := by
    have hlocated := locate_safe (hname ▸ hup.safe o (List.mem_append_left _ ho)) (hplace.linked old hnlink hold)
    rw [hl, ← hname] at hlocated
    rcases hlocated with hloc | hloc
    · exact Option.some.inj hloc.1
    · cases hloc
  refine h.grow hplace hfree hfmt.symm (le_refl r.next) ?_ ?_ Noted.refl ?_
  · rintro j ⟨⟩
    exact h.inodes l i hnode
  · -- The inode has a name with several links, so it is not a critical file's.
    intro d hd hcritical j hj
    have hne : i ≠ j := by
      rintro rfl
      obtain ⟨-, k, hk, -, honly⟩ := h.intact d hd hcritical
      rw [hj] at hk
      cases hk
      obtain rfl := hup.unique ho hd (hloc.symm.trans (honly l hnode))
      have := ((hup.approved o (List.mem_append_left _ ho)).single hcritical).2
      omega
    refine ⟨?_, Function.update_of_ne hne.symm _ _⟩
    rintro ⟨⟩
    exact hne rfl
  · intro hcritical
    have := ((hup.approved e (by simp)).single hcritical).2
    omega

/-- A critical file is created where its name says. -/
theorem unpack_critical (hturn : Turn r e) (happroved : Approved sha256 required optional e) (hcritical : Critical required optional e)
    (hplace : InPlace required optional r e) (hsafe : ∃ cs, cs ≠ [] ∧ (∀ c ∈ cs, Plain c) ∧ e.name = join cs) :
    r.unpackEntry e = { r.put (components e.name) (.regular r.next) with
      contents := Function.update r.contents r.next e.body, next := r.next + 1 } := by
  obtain ⟨hfmt, hnlink⟩ := happroved.single hcritical
  obtain ⟨cs, hne, hplain, hname⟩ := hsafe
  have hcs : components (trimDot e.raw) = cs := by
    rw [← components_join hplain, ← hname]
    rfl
  have hlocate : r.locate e.raw = some (components e.name) := by
    rcases locate_clear hcs hne hplain hplace.clear with hl | hl
    · rw [hl.1, ← hcs]
      rfl
    · exact absurd (hplace.grounded hcritical) hl.2
  have hlink : r.maybeLink e (some (components e.name)) = (r, .no) := by
    rw [Root.maybeLink, if_pos (by omega)]
  unfold Root.unpackEntry
  rw [if_neg (by rw [hfmt]; decide), if_neg (fun h => h.1 hfmt), hlocate]
  dsimp only
  rw [if_pos hfmt, cleanPath_free hturn.free, Root.unpackRegular, hlink]
  exact write_free hturn.free _ _

theorem Unpacked.step (h : Unpacked required optional done r) (hup : Upto sha256 required optional done e)
    (hplace : InPlace required optional r e) (hdot : Critical required optional e → e.name ≠ ['.']) :
    Unpacked required optional (done ++ [e]) (r.unpackEntry e) := by
  have hturn := h.turn hup hplace
  by_cases hcritical : Critical required optional e
  · have hsafe := safeName_cases (hup.safe e (by simp))
    have happroved := hup.approved e (by simp)
    rw [unpack_critical hturn happroved hcritical hplace (hsafe.resolve_left (hdot hcritical))]
    exact h.create hplace hturn.free (happroved.single hcritical).1 Noted.refl
  · have heffect := effect_entry hturn
    generalize r.unpackEntry e = r' at heffect
    cases heffect with
    | still hlinks => exact h.still hlinks hcritical
    | put hlinks hfmt hfile =>
      exact h.grow hplace hturn.free hfmt le_rfl (fun i hi => absurd hi (hfile i)) (fun _ _ _ i _ => ⟨hfile i, rfl⟩) hlinks
        fun hc => absurd hc hcritical
    | create hlinks hfmt => exact h.create hplace hturn.free hfmt hlinks
    | share hold hl hnode hnlink hfmt => exact h.share hup hplace hturn.free hold hl hnode hnlink hfmt

theorem unpacked_run {es rest : List Entry} (hacc : Accepted sha256 required optional es) (hes : done ++ rest = es)
    (h : Unpacked required optional done r) (hplaces : Conforms Root.unpackEntry (InPlace required optional) r rest) :
    Unpacked required optional es (run Root.unpackEntry r rest) := by
  induction rest generalizing done r with
  | nil =>
    rw [List.append_nil] at hes
    exact hes ▸ h
  | cons e rest ih =>
    have hes' : done ++ [e] ++ rest = es := by rw [← hes]; simp
    have hmem : ∀ d ∈ done ++ [e], d ∈ es := fun d hd => hes' ▸ List.mem_append_left _ hd
    have hup : Upto sha256 required optional done e := by
      refine ⟨fun d hd => hacc.safe d (hmem d hd), ?_, fun d hd => hacc.approved d (hmem d hd)⟩
      have honce := hacc.once
      rw [← hes', List.map_append] at honce
      exact (List.nodup_append.1 honce).1
    have hdot : Critical required optional e → e.name ≠ ['.'] := by
      intro hcritical
      obtain ⟨c, hc⟩ := Option.isSome_iff_exists.1 hcritical
      rcases Option.or_eq_some_iff.1 hc with hc | ⟨-, hc⟩
      · exact (hacc.policy _ (List.mem_append_left _ (mem_of_lookup hc))).2
      · exact (hacc.policy _ (List.mem_append_right _ (mem_of_lookup hc))).2
    exact ih hes' (h.step hup hplaces.1 hdot) hplaces.2

/-- A name of a component, as a path. -/
theorem trimDot_join (h : ∀ c ∈ cs, Plain c) : trimDot (join cs) = join cs := by
  unfold trimDot
  split
  · rename_i rest heq
    have hcs := components_join h
    rw [heq, components_dot] at hcs
    exact absurd rfl (h ['.'] (hcs ▸ List.mem_cons_self ..)).dot
  · rfl

/-- What is at a component's name, if no link is above it. -/
theorem find_clear {name : List Char} (hsafe : safeName name) (hdot : name ≠ ['.']) (hclear : Clear r name) :
    (r.find name = r.node (components name) ∧ Grounded r name) ∨ (r.find name = none ∧ ¬Grounded r name) := by
  obtain ⟨cs, hne, hplain, rfl⟩ := (safeName_cases hsafe).resolve_left hdot
  have htrim := trimDot_join hplain
  rw [← htrim] at hclear
  rcases locate_clear (by rw [htrim, components_join hplain]) hne hplain hclear with ⟨hl, hground⟩ | ⟨hl, hground⟩
  · left
    rw [htrim] at hground
    rw [Root.find, hl, components_join hplain]
    exact ⟨rfl, hground⟩
  · right
    rw [htrim] at hground
    rw [Root.find, hl]
    exact ⟨rfl, hground⟩

theorem Grounded.clear {name : List Char} (h : Grounded r name) : Clear r name := by
  intro dir hne hdir target heq
  rw [h dir hne hdir] at heq
  cases heq

/-- A critical file that is intact is found and approved. -/
theorem Intact.find (h : Intact r e) (hsafe : safeName e.name) (hdot : e.name ≠ ['.']) :
    ∃ i, r.find e.name = some (.regular i) ∧ r.contents i = e.body := by
  obtain ⟨hground, i, hi, hcontents, -⟩ := h
  rcases find_clear hsafe hdot hground.clear with ⟨hfind, -⟩ | ⟨-, hnot⟩
  · exact ⟨i, hfind.trans hi, hcontents⟩
  · exact absurd hground hnot

theorem Unpacked.delivered {es : List Entry} (h : Unpacked required optional es r) (hacc : Accepted sha256 required optional es) :
    Delivered sha256 required optional r := by
  constructor
  · intro name c hc
    obtain ⟨e, he, rfl⟩ := hacc.complete _ (mem_of_lookup hc)
    obtain ⟨hsafe, hdot⟩ := hacc.policy _ (List.mem_append_left _ (mem_of_lookup hc))
    have hfor : criticalFor required optional e.name = some c := by
      rw [criticalFor, hc]
      rfl
    obtain ⟨i, hfind, hcontents⟩ := (h.intact e he (Option.isSome_iff_exists.2 ⟨c, hfor⟩)).find hsafe hdot
    exact ⟨i, hfind, by rw [hcontents]; exact (hacc.approved e he c hfor).2⟩
  · intro name c node hc hnode
    have hin := mem_of_lookup hc
    obtain ⟨hsafe, hdot⟩ := hacc.policy _ (List.mem_append_right _ hin)
    have hclear : Clear r name := fun dir _ hdir target heq => h.below dir target heq _ (List.mem_append_right _ hin) hdir
    rcases find_clear hsafe hdot hclear with ⟨hfind, -⟩ | ⟨hfind, -⟩
    · rw [hfind] at hnode
      obtain ⟨e, he, hcomponents, -⟩ := h.made _ _ hnode
      obtain rfl := name_inj (hacc.safe e he) hsafe hcomponents
      have hfor : criticalFor required optional e.name = some c := by
        rw [criticalFor, hacc.disjoint _ hin, hc]
        rfl
      obtain ⟨-, i, hi, hcontents, -⟩ := h.intact e he (Option.isSome_iff_exists.2 ⟨c, hfor⟩)
      rw [hi] at hnode
      cases hnode
      exact ⟨i, rfl, by rw [hcontents]; exact (hacc.approved e he c hfor).2⟩
    · rw [hfind] at hnode
      cases hnode

end Run

/-- Every archive that `Verify` accepts comes out as approved, in every unpacking
in which each entry is where its name says. -/
theorem unpacked_approved (sha256 : List UInt8 → String) (required optional : Policy) (gunzip : List UInt8 → Option (List UInt8))
    (source : List UInt8) (h : verify sha256 required optional gunzip source = .ok ()) :
    ∃ data es, gunzip source = some data ∧ entriesOf data = some es ∧
      (Conforms Root.unpackEntry (InPlace required optional) {} es → Delivered sha256 required optional (unpack es)) := by
  obtain ⟨data, es, hdata, hes, hacc⟩ := verify_accepted h
  refine ⟨data, es, hdata, hes, fun hplaces => ?_⟩
  have hstart : Unpacked required optional [] {} :=
    ⟨fun l node hn => (by cases hn), fun l i hi => (by cases hi), fun e he => (by cases he), fun key old hold => (by cases hold),
      fun l target hl => (by cases hl)⟩
  exact (unpacked_run hacc (List.nil_append es) hstart hplaces).delivered hacc

/-! ## Two archives -/

def hexByte (n : Nat) : UInt8 := if n < 10 then UInt8.ofNat (48 + n) else UInt8.ofNat (87 + n)

def hexDigits : Nat → Nat → List UInt8
  | 0, _ => []
  | k + 1, n => hexDigits k (n / 16) ++ [hexByte (n % 16)]

def Entry.encode (e : Entry) : List UInt8 :=
  let h := e.header
  let fields := [h.ino, h.mode, h.uid, h.gid, h.nlink, h.mtime, h.filesize, h.major, h.minor, h.rmajor, h.rminor, h.namesize, h.check]
  [48, 55, 48, 55, 48, 49] ++ fields.flatMap (hexDigits 8) ++ e.raw.map (fun c => UInt8.ofNat c.toNat) ++ [0] ++
    List.replicate (align (110 + h.namesize)) 0 ++ e.body ++ List.replicate (align h.filesize) 0

def sampleEntry (name : String) (mode : Nat) (body : List UInt8) : Entry :=
  ⟨⟨0, mode, 0, 0, 1, 0, body.length, 0, 0, 0, 0, name.length + 1, 0⟩, name.toList, body⟩

def sampleArchive (es : List Entry) : List UInt8 := (es ++ [sampleEntry "TRAILER!!!" 0 []]).flatMap Entry.encode

def sampleDigest (body : List UInt8) : String :=
  String.ofList (List.replicate 64 (if body = [1] then 'a' else 'b'))

def samplePolicy : Policy := [("lib/m.ko".toList, ⟨sampleDigest [1], false⟩)]

def plainEntries : List Entry := [sampleEntry "lib" 0o040755 [], sampleEntry "lib/m.ko" 0o100644 [1]]

/-- A directory and the module in it. -/
theorem unpacked_approved_plain :
    entriesOf (sampleArchive plainEntries) = some plainEntries ∧ Delivered sampleDigest samplePolicy [] (unpack plainEntries) := by
  have hes : entriesOf (sampleArchive plainEntries) = some plainEntries := by decide +kernel
  obtain ⟨data, es, hdata, hentries, h⟩ := unpacked_approved sampleDigest samplePolicy [] some (sampleArchive plainEntries) (by decide +kernel)
  cases hdata
  rw [hes] at hentries
  cases hentries
  exact ⟨hes, h (by decide +kernel)⟩

/-- Then a link to the directory, and a file through the link. -/
def aliasedEntries : List Entry := plainEntries ++ [sampleEntry "x" 0o120777 [108, 105, 98], sampleEntry "x/m.ko" 0o100644 [2]]

theorem unpacked_replaced :
    verify sampleDigest samplePolicy [] some (sampleArchive aliasedEntries) = .ok () ∧
      entriesOf (sampleArchive aliasedEntries) = some aliasedEntries ∧
      (unpack aliasedEntries).find "lib/m.ko".toList = some (.regular 0) ∧ (unpack aliasedEntries).contents 0 = [2] ∧
      ¬Delivered sampleDigest samplePolicy [] (unpack aliasedEntries) := by
  have hfind : (unpack aliasedEntries).find "lib/m.ko".toList = some (.regular 0) := by decide +kernel
  have hcontents : (unpack aliasedEntries).contents 0 = [2] := by decide +kernel
  refine ⟨by decide +kernel, by decide +kernel, hfind, hcontents, fun h => ?_⟩
  obtain ⟨i, hi, hdigest⟩ := h.required "lib/m.ko".toList ⟨sampleDigest [1], false⟩ (by decide)
  rw [hfind] at hi
  cases hi
  rw [hcontents] at hdigest
  exact absurd hdigest (by decide +kernel)

end Multikernel.Boot
