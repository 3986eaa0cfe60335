import Multikernel.Initramfs.Scan
import Mathlib.Data.Nat.Digits.Defs
/-!
# The archive of a root file system

`write_newc` of `scripts/build-runtime-rootfs.py` and the admission of `main`,
which takes `payload_bytes + 512 * entries + 1024` for an upper bound of the
archive. A path or a link target may alone be longer than that leaves room for:
the bound holds exactly if the names, targets and paddings fit into it together
(`worstCase_iff`), and an archive may be longer (`worstCase_exceeded`).
-/

namespace Multikernel.Initramfs
open Lib
variable {id : List Char} {contents : Contents}

/-! ## Writing -/

/-- The arguments of `emit`. -/
structure Record where
  name : List Char
  mode : Nat
  uid : Nat
  gid : Nat
  nlink : Nat
  ino : Nat
  data : List UInt8
  deriving DecidableEq, Repr

/-- `f"{field:08x}"`: at least eight digits. -/
def hexField (n : Nat) : List UInt8 := fsencode ((Nat.toDigits 16 n).leftpad 8 '0')

def pad (count : Nat) : List UInt8 := List.replicate (Boot.align count) 0

def Record.encodedName (r : Record) : List UInt8 := fsencode r.name ++ [0]

def Record.fields (r : Record) : List Nat :=
  [r.ino, r.mode, r.uid, r.gid, r.nlink, 0, r.data.length, 0, 0, 0, 0, r.encodedName.length, 0]

/-- What `emit` writes. -/
def Record.emit (r : Record) : List UInt8 :=
  fsencode "070701".toList ++ r.fields.flatMap hexField ++ r.encodedName ++ pad (110 + r.encodedName.length) ++ r.data ++
    pad r.data.length

/-- The variables of the loop. -/
structure Writer where
  nextInode : Nat := 1
  assigned : List (List Char × Nat) := []
  emitted : List (List Char) := []

/-- `link_counts`. -/
def linkCount (entries : List Entry) (id : List Char) : Nat := entries.countP (·.hardlink = some id)

section Write
variable (entries : List Entry) (contents : Contents)

/-- `contents[entry.path]`. Directories have none. -/
def dataOf (e : Entry) : List UInt8 := (contents.lookup e.path).getD []

/-- An entry with links, `id` being their name. -/
def writeLinked (w : Writer) (e : Entry) (id : List Char) : Writer × Record :=
  let w := if (w.assigned.lookup id).isSome then w else
    { w with assigned := (id, w.nextInode) :: w.assigned, nextInode := w.nextInode + 1 }
  ({ w with emitted := id :: w.emitted },
    ⟨e.path, e.mode, e.uid, e.gid, linkCount entries id, (w.assigned.lookup id).getD 0,
      if id ∈ w.emitted then [] else dataOf contents e⟩)

def writeEntry (w : Writer) (e : Entry) : Writer × Record :=
  match e.hardlink with
  | some id => writeLinked entries contents w e id
  | none => ({ w with nextInode := w.nextInode + 1 },
      ⟨e.path, e.mode, e.uid, e.gid, if e.kind = .directory then 2 else 1, w.nextInode, dataOf contents e⟩)

def trailer (ino : Nat) : Record := ⟨Boot.trailer, 0, 0, 0, 1, ino, []⟩

def writeEach : Writer → List Entry → List Record
  | w, [] => [trailer w.nextInode]
  | w, e :: es => (writeEntry entries contents w e).2 :: writeEach (writeEntry entries contents w e).1 es

def writeNewc : List UInt8 := (writeEach entries contents {} entries).flatMap Record.emit

end Write

/-! ## Admission -/

def payloadBytes (entries : List Entry) : Nat := ((entries.filter (·.kind = .regular)).map (·.size)).sum

def worstCaseArchive (entries : List Entry) : Nat := payloadBytes entries + entries.length * 512 + 1024

/-- The arguments of `main`. -/
structure Limits where
  maxBytes : Int := 0
  maxInodes : Int := 0
  minFreeBytes : Int := 0
  minFreeInodes : Int := 0
  deriving DecidableEq, Repr

/-- The checks of `main` before it writes an archive. -/
def checkLimits (l : Limits) (entries : List Entry) (available freeInodes : Nat) : Except String Unit := do
  raiseIf (l.maxBytes ≠ 0 ∧ (payloadBytes entries : Int) > l.maxBytes) "payload bytes exceed limit"
  raiseIf (l.maxInodes ≠ 0 ∧ (entries.length : Int) > l.maxInodes) "entry count exceeds limit"
  raiseIf (l.minFreeInodes < 0 ∨ l.minFreeInodes > 1073741824) "free-inode reserve is outside the supported bounds"
  raiseIf ((available : Int) - worstCaseArchive entries < l.minFreeBytes ∨ (freeInodes : Int) < l.minFreeInodes + 2)
    "high-water refusal"

/-- The estimate is an upper bound, and what an admitted archive leaves free is
the reserve, unless compression makes it longer. -/
def UpperBound (entries : List Entry) (contents : Contents) : Prop :=
  (writeNewc entries contents).length ≤ worstCaseArchive entries ∧
    ∀ l available freeInodes, checkLimits l entries available freeInodes = .ok () →
      ∀ archive, archive ≤ (writeNewc entries contents).length → l.minFreeBytes ≤ (available : Int) - archive

/-! ## What is not payload -/

/-- A later path of an inode; the entries before it come last first. -/
def repeated (before : List Entry) (e : Entry) : Bool := e.hardlink.isSome && before.any (·.hardlink == e.hardlink)

/-- The inodes of the entries so far. -/
def inodes : List Entry → Nat
  | [] => 0
  | e :: before => inodes before + if repeated before e then 0 else 1

/-- The inode of the first path with these links. -/
def linkInode (id : List Char) : List Entry → Nat
  | [] => 0
  | _ :: before => if before.any (·.hardlink == some id) then linkInode id before else inodes before + 1

def inodeOf (before : List Entry) (e : Entry) : Nat :=
  match e.hardlink with
  | some id => if repeated before e then linkInode id before else inodes before + 1
  | none => inodes before + 1

def linksOf (entries : List Entry) (e : Entry) : Nat :=
  match e.hardlink with
  | some id => linkCount entries id
  | none => if e.kind = .directory then 2 else 1

def hexWidth (n : Nat) : Nat := max 8 (Nat.toDigits 16 n).length

/-- The bytes of an entry that are not file contents: the header, which has wider
fields for numbers above 32 bits, the name, a link's target, and the paddings. -/
def overhead (entries before : List Entry) (e : Entry) : Nat :=
  let data := if repeated before e then 0 else e.size
  54 + hexWidth (inodeOf before e) + hexWidth e.mode + hexWidth e.uid + hexWidth e.gid + hexWidth (linksOf entries e) +
    hexWidth data + hexWidth (e.path.length + 1) + (e.path.length + 1) + Boot.align (110 + (e.path.length + 1)) +
    Boot.align data + if e.kind = .symlink then e.size else 0

/-- File contents that are payload and not written again. -/
def spared (before : List Entry) (e : Entry) : Nat := if e.kind = .regular ∧ repeated before e then e.size else 0

/-- A sum over the entries, each with those before it. -/
def total (f : List Entry → Entry → Nat) : List Entry → List Entry → Nat
  | _, [] => 0
  | before, e :: es => f before e + total f (e :: before) es

/-- The overheads fit into 512 bytes an entry, the rest of the fixed part (900
bytes, the trailer having its 124) and what the hard links spare. -/
def Fits (entries : List Entry) : Prop :=
  total (overhead entries) [] entries + (hexWidth (inodes entries.reverse + 1) - 8) ≤
    entries.length * 512 + 900 + total spared [] entries

instance (entries : List Entry) : Decidable (Fits entries) := inferInstanceAs (Decidable (_ ≤ _))

/-! ## The records of the archive -/

/-- The record of an entry behind those before it. -/
def recordOf (entries : List Entry) (contents : Contents) (before : List Entry) (e : Entry) : Record :=
  ⟨e.path, e.mode, e.uid, e.gid, linksOf entries e, inodeOf before e, if repeated before e then [] else dataOf contents e⟩

/-- What the writer knows of the entries so far. -/
structure Writer.After (w : Writer) (before : List Entry) : Prop where
  next : w.nextInode = inodes before + 1
  assigned : ∀ id, w.assigned.lookup id = if before.any (·.hardlink == some id) then some (linkInode id before) else none
  emitted : ∀ id, id ∈ w.emitted ↔ before.any (·.hardlink == some id)

section Records
variable {entries before : List Entry} {contents : Contents} {w : Writer} {e : Entry}

theorem repeated_some (before : List Entry) (h : e.hardlink = some id) :
    repeated before e = before.any (·.hardlink == some id) := by
  simp [repeated, h]

theorem linkInode_cons (hbefore : before.any (·.hardlink == some id) = true) :
    linkInode id (e :: before) = linkInode id before := by
  rw [linkInode, if_pos hbefore]

theorem linkInode_first (hbefore : before.any (·.hardlink == some id) = false) :
    linkInode id (e :: before) = inodes before + 1 := by
  rw [linkInode, if_neg (by simp [hbefore])]

theorem writeLinked_after (h : w.After before) (hid : e.hardlink = some id) :
    (writeLinked entries contents w e id).1.After (e :: before) ∧
      (writeLinked entries contents w e id).2 = recordOf entries contents before e := by
  have hknown : ∀ id', (e :: before).any (·.hardlink == some id') = (id == id' || before.any (·.hardlink == some id')) := by
    intro id'
    simp [hid]
  have hrepeated := repeated_some before hid
  have hassigned := h.assigned id
  cases hbefore : before.any (·.hardlink == some id) with
  | true =>
    rw [hbefore, if_pos rfl] at hassigned
    rw [hbefore] at hrepeated
    have hin : id ∈ w.emitted := (h.emitted id).2 hbefore
    refine ⟨⟨?_, ?_, ?_⟩, ?_⟩
    · simp [writeLinked, hassigned, inodes, hrepeated, h.next]
    · intro id'
      have hlookup : (writeLinked entries contents w e id).1.assigned = w.assigned := by simp [writeLinked, hassigned]
      rw [hlookup, h.assigned id', hknown]
      by_cases hsame : id = id'
      · subst hsame
        simp [hbefore, linkInode_cons hbefore]
      · cases hother : before.any (·.hardlink == some id') with
        | true => simp [linkInode_cons hother]
        | false => simp [hsame]
    · intro id'
      have hemitted : (writeLinked entries contents w e id).1.emitted = id :: w.emitted := by simp [writeLinked, hassigned]
      rw [hemitted, List.mem_cons, h.emitted id', hknown, Bool.or_eq_true, beq_iff_eq]
      exact or_congr_left eq_comm
    · simp [writeLinked, recordOf, linksOf, inodeOf, hid, hassigned, hrepeated, hin]
  | false =>
    rw [hbefore, if_neg (by simp)] at hassigned
    rw [hbefore] at hrepeated
    have hout : id ∉ w.emitted := fun hin => by simp [(h.emitted id).1 hin] at hbefore
    refine ⟨⟨?_, ?_, ?_⟩, ?_⟩
    · simp [writeLinked, hassigned, inodes, hrepeated, h.next]
    · intro id'
      have hlookup : (writeLinked entries contents w e id).1.assigned = (id, w.nextInode) :: w.assigned := by
        simp [writeLinked, hassigned]
      rw [hlookup, List.lookup_cons, h.assigned id', hknown]
      by_cases hsame : id = id'
      · subst hsame
        simp [linkInode_first hbefore, h.next]
      · have hne : (id' == id) = false := beq_eq_false_iff_ne.2 (Ne.symm hsame)
        cases hother : before.any (·.hardlink == some id') with
        | true => simp [hne, linkInode_cons hother]
        | false => simp [hne, hsame]
    · intro id'
      have hemitted : (writeLinked entries contents w e id).1.emitted = id :: w.emitted := by simp [writeLinked, hassigned]
      rw [hemitted, List.mem_cons, h.emitted id', hknown, Bool.or_eq_true, beq_iff_eq]
      exact or_congr_left eq_comm
    · simp [writeLinked, recordOf, linksOf, inodeOf, hid, hassigned, hrepeated, hout, h.next]

theorem writeEntry_after (entries : List Entry) (contents : Contents) (e : Entry) (h : w.After before) :
    (writeEntry entries contents w e).1.After (e :: before) ∧
      (writeEntry entries contents w e).2 = recordOf entries contents before e := by
  cases hid : e.hardlink with
  | some id =>
    have heq : writeEntry entries contents w e = writeLinked entries contents w e id := by rw [writeEntry, hid]
    rw [heq]
    exact writeLinked_after h hid
  | none =>
    have hrepeated : repeated before e = false := by simp [repeated, hid]
    have hknown : ∀ id, (e :: before).any (·.hardlink == some id) = before.any (·.hardlink == some id) := by
      intro id
      simp [hid]
    have heq : writeEntry entries contents w e = ({ w with nextInode := w.nextInode + 1 },
        ⟨e.path, e.mode, e.uid, e.gid, if e.kind = .directory then 2 else 1, w.nextInode, dataOf contents e⟩) := by
      rw [writeEntry, hid]
    rw [heq]
    refine ⟨⟨?_, ?_, ?_⟩, ?_⟩
    · simp [inodes, hrepeated, h.next]
    · intro id
      rw [hknown]
      change w.assigned.lookup id = _
      rw [h.assigned id]
      cases hother : before.any (·.hardlink == some id) with
      | true => rw [linkInode_cons hother]
      | false => rfl
    · intro id
      rw [hknown]
      exact h.emitted id
    · simp [recordOf, linksOf, inodeOf, hid, hrepeated, h.next]

/-- The records, one for each entry, and the trailer. -/
def recordsFrom (entries : List Entry) (contents : Contents) : List Entry → List Entry → List Record
  | before, [] => [trailer (inodes before + 1)]
  | before, e :: es => recordOf entries contents before e :: recordsFrom entries contents (e :: before) es

theorem writeEach_eq (h : w.After before) (es : List Entry) :
    writeEach entries contents w es = recordsFrom entries contents before es := by
  induction es generalizing w before with
  | nil => rw [writeEach, recordsFrom, h.next]
  | cons e es ih =>
    obtain ⟨hafter, hrecord⟩ := writeEntry_after entries contents e h
    rw [writeEach, recordsFrom, hrecord, ih hafter]

theorem writeNewc_eq (entries : List Entry) (contents : Contents) :
    writeNewc entries contents = (recordsFrom entries contents [] entries).flatMap Record.emit := by
  have hstart : Writer.After {} [] := ⟨rfl, by simp, by simp⟩
  rw [writeNewc, writeEach_eq hstart]

end Records

/-! ## Lengths -/

@[simp] theorem length_fsencode (path : List Char) : (fsencode path).length = path.length := by simp [fsencode]

@[simp] theorem length_hexField (n : Nat) : (hexField n).length = hexWidth n := by
  rw [hexField, length_fsencode, List.leftpad, hexWidth, List.length_append, List.length_replicate]
  omega

@[simp] theorem length_pad (n : Nat) : (pad n).length = Boot.align n := by simp [pad]

theorem hexWidth_zero : hexWidth 0 = 8 := by decide

theorem length_emit (r : Record) : r.emit.length =
    54 + hexWidth r.ino + hexWidth r.mode + hexWidth r.uid + hexWidth r.gid + hexWidth r.nlink + hexWidth r.data.length +
      hexWidth (r.name.length + 1) + (r.name.length + 1) + Boot.align (110 + (r.name.length + 1)) + r.data.length +
      Boot.align r.data.length := by
  have hmagic : (fsencode "070701".toList).length = 6 := by decide
  simp only [Record.emit, Record.fields, Record.encodedName, List.length_append, List.flatMap_cons, List.flatMap_nil,
    List.length_nil, List.length_cons, length_hexField, length_pad, length_fsencode, hmagic, hexWidth_zero, Nat.zero_add]
  omega

theorem length_trailer (ino : Nat) : (trailer ino).emit.length = 116 + hexWidth ino := by
  have hone : hexWidth 1 = 8 := by decide
  have hname : hexWidth (10 + 1) = 8 := by decide
  have hpad : Boot.align (110 + (10 + 1)) = 3 := by decide
  have hnone : Boot.align 0 = 0 := by decide
  have hlength : Boot.trailer.length = 10 := by decide
  rw [length_emit]
  simp only [trailer, hlength, hexWidth_zero, hone, hname, hpad, hnone, List.length_nil]
  omega

/-- What a scan makes sure of. -/
structure Sized (contents : Contents) (e : Entry) : Prop where
  data : (dataOf contents e).length = e.size
  linked : e.hardlink ≠ none → e.kind = .regular
  directory : e.kind = .directory → e.size = 0

/-- File contents that are written. -/
def paid (before : List Entry) (e : Entry) : Nat := if e.kind = .regular ∧ ¬repeated before e then e.size else 0

theorem length_record (entries before : List Entry) {e : Entry} (h : Sized contents e) :
    (recordOf entries contents before e).emit.length = overhead entries before e + paid before e := by
  have hdata : (recordOf entries contents before e).data.length = if repeated before e then 0 else e.size := by
    simp only [recordOf]
    split
    · rfl
    · exact h.data
  rw [length_emit, hdata]
  simp only [recordOf, overhead, paid]
  cases hrepeated : repeated before e with
  | true =>
    have hregular : e.kind = .regular := by
      apply h.linked
      intro hnone
      simp [repeated, hnone] at hrepeated
    simp only [if_true, hregular, reduceCtorEq, if_false, not_true, and_false]
    omega
  | false =>
    simp only [Bool.false_eq_true, if_false, not_false_iff, and_true]
    cases hkind : e.kind with
    | directory =>
      rw [h.directory hkind]
      simp
    | regular | symlink =>
      simp only [reduceCtorEq, if_false, if_true]
      omega

theorem length_records (entries : List Entry) {es : List Entry} (hes : ∀ e ∈ es, Sized contents e)
    (before : List Entry) :
    ((recordsFrom entries contents before es).flatMap Record.emit).length =
      total (overhead entries) before es + total paid before es + 116 + hexWidth (inodes (es.reverse ++ before) + 1) := by
  induction es generalizing before with
  | nil => simp [recordsFrom, total, length_trailer]
  | cons e es ih =>
    have hrest := ih (fun x hx => hes x (List.mem_cons_of_mem _ hx)) (e :: before)
    have hfirst := length_record entries before (hes e (List.mem_cons_self ..))
    rw [recordsFrom, List.flatMap_cons, List.length_append, hrest, hfirst]
    simp only [total, List.reverse_cons, List.append_assoc, List.singleton_append]
    omega

/-- Payload is written, or spared. -/
theorem payload_eq (before es : List Entry) : payloadBytes es = total paid before es + total spared before es := by
  induction es generalizing before with
  | nil => rfl
  | cons e es ih =>
    have hrest := ih (e :: before)
    have hfirst : payloadBytes (e :: es) = (if e.kind = .regular then e.size else 0) + payloadBytes es := by
      unfold payloadBytes
      by_cases hkind : e.kind = .regular <;> simp [hkind]
    rw [hfirst, hrest]
    simp only [total, paid, spared]
    by_cases hkind : e.kind = .regular
    · cases repeated before e <;> simp [hkind] <;> omega
    · simp [hkind]

theorem length_writeNewc {entries : List Entry} (h : ∀ e ∈ entries, Sized contents e) :
    (writeNewc entries contents).length + total spared [] entries =
      payloadBytes entries + total (overhead entries) [] entries + 116 + hexWidth (inodes entries.reverse + 1) := by
  have hlength := length_records entries h []
  have hpayload := payload_eq [] entries
  rw [List.append_nil, ← writeNewc_eq] at hlength
  omega

theorem archive_le_iff {entries : List Entry} (h : ∀ e ∈ entries, Sized contents e) :
    (writeNewc entries contents).length ≤ worstCaseArchive entries ↔ Fits entries := by
  have hlength := length_writeNewc h
  have hwidth : 8 ≤ hexWidth (inodes entries.reverse + 1) := le_max_left _ _
  unfold Fits worstCaseArchive
  omega

/-! ## Every accepted tree -/

theorem Accepted.sized {sha256 : List UInt8 → List Char} {root : Node} {raw : Raw}
    {items : List (Entry × Option (List UInt8))} (h : Accepted sha256 root raw items) (hnamed : root.Named) :
    ∀ e ∈ items.map (·.1), Sized (contentsOf items) e := by
  intro e he
  obtain ⟨y, hy, rfl⟩ := List.mem_map.1 he
  have hlookup := h.lookup hnamed hy
  obtain ⟨⟨path, n⟩, -, hentry⟩ := h.source hy
  have hkind := (entryOf_sound hentry).kind
  cases n with
  | directory info children =>
    obtain ⟨hkind, hsize, hlink, hdata⟩ := hkind
    exact ⟨by rw [dataOf, hlookup, hdata, hsize]; rfl, fun hne => absurd hlink hne, fun _ => hsize⟩
  | regular info data =>
    obtain ⟨hkind, hsize, hdata⟩ := hkind
    exact ⟨by rw [dataOf, hlookup, hdata, hsize]; rfl, fun _ => hkind, by simp [hkind]⟩
  | symlink info target =>
    obtain ⟨hkind, hsize, hlink, hdata⟩ := hkind
    refine ⟨?_, fun hne => absurd hlink hne, by simp [hkind]⟩
    rw [dataOf, hlookup, hdata, hsize]
    exact length_fsencode target
  | special info fmt => exact hkind.elim

/-- The estimate bounds the archive of an accepted tree exactly if the overheads
of its entries fit into it. -/
theorem worstCase_iff (sha256 : List UInt8 → List Char) (root : Node) (hnamed : root.Named) (entries : List Entry)
    (contents : Contents) (haccepted : scan sha256 root = .ok (entries, contents)) :
    UpperBound entries contents ↔ Fits entries := by
  obtain ⟨raw, items, h, rfl, rfl⟩ := scan_eq_ok haccepted
  have hiff := archive_le_iff (h.sized hnamed)
  constructor
  · intro hbound
    exact hiff.1 hbound.1
  · intro hfits
    have hle := hiff.2 hfits
    refine ⟨hle, ?_⟩
    intro l available freeInodes hadmit archive harchive
    simp only [checkLimits, bind_eq_ok, raiseIf_eq_ok, not_or, exists_const] at hadmit
    omega

/-- A file with two names and a link. -/
def smallTree : Node :=
  .directory ⟨0, 1, 2, permBits 0o755, 0, 0, []⟩ [
    ("a".toList, .regular ⟨0, 2, 2, permBits 0o644, 0, 0, []⟩ [1, 2, 3]),
    ("b".toList, .regular ⟨0, 2, 2, permBits 0o644, 0, 0, []⟩ [1, 2, 3]),
    ("c".toList, .symlink ⟨0, 3, 1, permBits 0o777, 0, 0, []⟩ "a".toList)]

theorem smallTree_named : smallTree.Named := named_of_walk (by decide)

theorem worstCase_iff_small : ∃ entries contents, scan hexdigest smallTree = .ok (entries, contents) ∧
    UpperBound entries contents := by
  obtain ⟨⟨entries, contents⟩, haccepted⟩ : ∃ r, scan hexdigest smallTree = .ok r := ⟨_, rfl⟩
  refine ⟨entries, contents, haccepted, ?_⟩
  have hentries : Fits entries := by
    cases haccepted
    decide +kernel
  exact (worstCase_iff _ smallTree smallTree_named entries contents haccepted).2 hentries

/-- A link with a target of 2000 bytes. -/
def longTree : Node :=
  .directory ⟨0, 1, 2, permBits 0o755, 0, 0, []⟩
    [("l".toList, .symlink ⟨0, 2, 1, permBits 0o777, 0, 0, []⟩ (List.replicate 2000 'a'))]

/-- The build is admitted with just the room that was estimated, without a
reserve, and its archive is longer than that. -/
theorem worstCase_exceeded : longTree.Named ∧ ∃ entries contents, scan hexdigest longTree = .ok (entries, contents) ∧
    worstCaseArchive entries = 2048 ∧ checkLimits {} entries 2048 2 = .ok () ∧ (writeNewc entries contents).length = 2348 := by
  refine ⟨named_of_walk (by decide +kernel), ?_⟩
  have hrun : ((scan hexdigest longTree).toOption.any fun r => worstCaseArchive r.1 = 2048 ∧ (checkLimits {} r.1 2048 2).isOk ∧
      (writeNewc r.1 r.2).length = 2348) = true := by
    decide +kernel
  obtain ⟨⟨entries, contents⟩, haccepted, hresult⟩ := (Option.any_eq_true _ _).1 hrun
  obtain ⟨hworst, hadmit, hlength⟩ := of_decide_eq_true hresult
  refine ⟨entries, contents, ?_, hworst, ?_, hlength⟩
  · cases hscan : scan hexdigest longTree with
    | error text => simp [hscan, Except.toOption] at haccepted
    | ok r => simpa [hscan, Except.toOption] using haccepted
  · cases hresult : checkLimits {} entries 2048 2 with
    | error text => simp [hresult, Except.isOk, Except.toBool] at hadmit
    | ok u => rfl

end Multikernel.Initramfs
