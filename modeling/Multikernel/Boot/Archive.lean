import Multikernel.Lib.Checks
import Multikernel.Lib.Paths
import Multikernel.Network.Endpoint
/-!
# Boot archives

`runtime/internal/bootarchive/verify.go`. An archive is one gzip member that
holds one newc archive; `gunzip` is a parameter, as is the digest. A name is its
bytes, each as the character of that number.
-/

namespace Multikernel.Boot
open Lib
open Network (filepathClean)

/-- The thirteen fields of a newc header. -/
structure Header where
  ino : Nat
  mode : Nat
  uid : Nat
  gid : Nat
  nlink : Nat
  mtime : Nat
  filesize : Nat
  major : Nat
  minor : Nat
  rmajor : Nat
  rminor : Nat
  namesize : Nat
  check : Nat
  deriving DecidableEq, Repr

structure Entry where
  header : Header
  /-- The name as it stands in the archive. -/
  raw : List Char
  body : List UInt8
  deriving DecidableEq, Repr

/-- `strings.TrimPrefix(raw, "./")`. -/
def trimDot : List Char → List Char
  | '.' :: '/' :: rest => rest
  | raw => raw

def Entry.name (e : Entry) : List Char := trimDot e.raw

def typeMask : Nat := 0o170000
def typeRegular : Nat := 0o100000
def typeDirectory : Nat := 0o040000
def typeSymlink : Nat := 0o120000

/-- `mode & S_IFMT`. -/
def Header.fmt (h : Header) : Nat := h.mode &&& typeMask

def trailer : List Char := "TRAILER!!!".toList

/-! ## Reading -/

def maximumBytes : Nat := 536870912
def maximumEntries : Nat := 131072

/-- What is left of the data, and of the limit. -/
structure Reader where
  rest : List UInt8
  left : Nat

/-- `io.ReadFull` on the limited reader. -/
def Reader.read (r : Reader) (n : Nat) : Except String (List UInt8 × Reader) :=
  let k := min n (min r.left r.rest.length)
  if r.left - k = 0 then .error "boot archive exceeds decompressed limit"
  else if k < n then .error "unexpected EOF"
  else .ok (r.rest.take n, ⟨r.rest.drop n, r.left - n⟩)

def allZero (bs : List UInt8) : Bool := bs.all (· == 0)

def padding (r : Reader) (n : Nat) : Except String Reader := do
  let (bs, r) ← r.read n
  raiseIf (¬allZero bs) "nonzero boot archive alignment"
  return r

def hexDigit (b : UInt8) : Option Nat :=
  if 48 ≤ b ∧ b ≤ 57 then some (b.toNat - 48)
  else if 97 ≤ b ∧ b ≤ 102 then some (b.toNat - 87)
  else if 65 ≤ b ∧ b ≤ 70 then some (b.toNat - 55)
  else none

def hexField (bs : List UInt8) : Option Nat := bs.foldlM (fun n b => (hexDigit b).map (n * 16 + ·)) 0

/-- Eight digits a field. -/
def fields : Nat → List UInt8 → Option (List Nat)
  | 0, _ => some []
  | n + 1, bs => do
    let value ← hexField (bs.take 8)
    let rest ← fields n (bs.drop 8)
    return value :: rest

def Header.ofFields : List Nat → Option Header
  | [ino, mode, uid, gid, nlink, mtime, filesize, major, minor, rmajor, rminor, namesize, check] =>
    some ⟨ino, mode, uid, gid, nlink, mtime, filesize, major, minor, rmajor, rminor, namesize, check⟩
  | _ => none

/-- The bytes after the first of a character, each in its range. -/
def continues (low high : UInt8) (n : Nat) : List UInt8 → Bool
  | [] => false
  | b :: bs => decide (low ≤ b ∧ b ≤ high) && (bs.take n).length == n && (bs.take n).all fun b => decide (128 ≤ b ∧ b ≤ 191)

/-- `utf8.Valid`. -/
def utf8Valid : Nat → List UInt8 → Bool
  | _, [] => true
  | 0, _ => false
  | fuel + 1, b :: bs =>
    if b < 128 then utf8Valid fuel bs
    else if 194 ≤ b ∧ b ≤ 223 then continues 128 191 0 bs && utf8Valid fuel (bs.drop 1)
    else if b = 224 then continues 160 191 1 bs && utf8Valid fuel (bs.drop 2)
    else if b = 237 then continues 128 159 1 bs && utf8Valid fuel (bs.drop 2)
    else if 225 ≤ b ∧ b ≤ 239 then continues 128 191 1 bs && utf8Valid fuel (bs.drop 2)
    else if b = 240 then continues 144 191 2 bs && utf8Valid fuel (bs.drop 3)
    else if 241 ≤ b ∧ b ≤ 243 then continues 128 191 2 bs && utf8Valid fuel (bs.drop 3)
    else if b = 244 then continues 128 143 2 bs && utf8Valid fuel (bs.drop 3)
    else false

def text (bs : List UInt8) : List Char := bs.map fun b => Char.ofNat b.toNat

def align (n : Nat) : Nat := (4 - n % 4) % 4

/-- A header, its name and the padding behind them. -/
def readHeader (r : Reader) : Except String ((Header × List Char) × Reader) := do
  let (bytes, r) ← r.read 110
  raiseIf (text (bytes.take 6) ≠ "070701".toList) "boot archive must use newc without CRC"
  let some header := (fields 13 (bytes.drop 6)).bind Header.ofFields | throw "invalid boot archive hex field"
  raiseIf (header.namesize = 0 ∨ header.namesize > 4096 ∨ header.filesize > maximumBytes ∨ header.check ≠ 0)
    "boot archive name, size or checksum is invalid"
  let (raw, r) ← r.read header.namesize
  raiseIf (raw.getLast? ≠ some 0 ∨ 0 ∈ raw.dropLast ∨ ¬utf8Valid raw.length raw.dropLast) "invalid boot archive name"
  let r ← padding r (align (110 + header.namesize))
  return ((header, text raw.dropLast), r)

/-- What stands behind the trailer. -/
def readEnd (r : Reader) : Except String Unit := do
  raiseIf (r.left ≤ r.rest.length) "boot archive exceeds decompressed limit"
  raiseIf (¬allZero r.rest) "boot archive has data after trailer"

/-! ## Checks -/

structure Component where
  sha256 : String
  executable : Bool
  deriving DecidableEq, Repr

/-- A map by name. -/
abbrev Policy := List (List Char × Component)

def safeName (name : List Char) : Bool :=
  name == ['.'] || (name != [] && name != ['.', '.'] && !(['.', '.', '/'].isPrefixOf name) && !(['/'].isPrefixOf name) &&
    !name.contains '\\' && filepathClean name == name)

/-- Sixty-four digits, none of them a capital. -/
def lowerHex (s : String) : Bool :=
  s.length == 64 && s.toList.all fun c => c.isDigit || ('a' ≤ c && c ≤ 'f')

def checkPolicy (required optional : Policy) : Except String Unit := do
  raiseIf ((required ++ optional).any fun p => !safeName p.1 || p.1 == ['.'] || !lowerHex p.2.sha256)
    "invalid boot component policy"
  raiseIf (optional.any fun p => (required.lookup p.1).isSome) "overlapping boot component policies"

/-- The variables of the loop: the headers by name, and the critical names found. -/
structure Progress where
  seen : List (List Char × Header) := []
  found : List (List Char) := []

section Verify
variable (sha256 : List UInt8 → String) (required optional : Policy)

/-- The component that a name stands for. -/
def criticalFor (name : List Char) : Option Component := (required.lookup name).or (optional.lookup name)

/-- What a critical file may be. -/
def safeMetadata (h : Header) (c : Component) : Bool :=
  h.fmt == typeRegular && h.mode &&& 0o7022 == 0 && h.uid == 0 && h.gid == 0 && h.nlink == 1 && h.mode &&& 0o400 != 0 &&
    (!c.executable || h.mode &&& 0o100 != 0)

/-- What a directory above a critical file may be. -/
def safeDirectory (h : Header) : Bool := h.fmt == typeDirectory && h.mode &&& 0o7022 == 0 && h.uid == 0 && h.gid == 0

/-- The checks before the contents are read. -/
def checkName (p : Progress) (name : List Char) (h : Header) : Except String Unit := do
  raiseIf (¬safeName name) "unsafe boot archive path"
  raiseIf (p.seen.lookup name).isSome "duplicate normalized boot archive path"
  raiseIf ((criticalFor required optional name).any fun c => !safeMetadata h c)
    ("boot component " ++ String.ofList name ++ " has unsafe metadata")

/-- The check of the contents. -/
def checkDigest (name : List Char) (body : List UInt8) : Except String Unit :=
  raiseIf ((criticalFor required optional name).any fun c => sha256 body != c.sha256)
    ("boot component " ++ String.ofList name ++ " digest differs from approved artifact")

def Progress.add (p : Progress) (name : List Char) (h : Header) : Progress where
  seen := p.seen ++ [(name, h)]
  found := p.found ++ if (criticalFor required optional name).isSome then [name] else []

/-- The loop over the entries; the number is that of the entries still allowed. -/
def verifyEach : Nat → Progress → Reader → Except String Progress
  | 0, _, _ => .error "boot archive entry limit"
  | n + 1, p, r => do
    let ((h, raw), r) ← readHeader r
    if trimDot raw = trailer then
      raiseIf (raw ≠ trailer) "noncanonical boot archive trailer"
      raiseIf (h.filesize ≠ 0) "boot archive trailer has data"
      readEnd r
      return p
    else
      checkName required optional p (trimDot raw) h
      let (body, r) ← r.read h.filesize
      checkDigest sha256 required optional (trimDot raw) body
      let r ← padding r (align h.filesize)
      verifyEach n (p.add required optional (trimDot raw) h) r

/-- `path.Dir`, again and again, of a name that is clean. -/
def ancestors (name : List Char) : List (List Char) :=
  ((components name).dropLast.inits.filter (· ≠ [])).reverse.map join

def checkFound (p : Progress) : Except String Unit := do
  raiseIf (required.any fun c => !p.found.contains c.1) "boot archive lacks required component"
  raiseIf (p.found.any fun name => (ancestors name).any fun parent => !(p.seen.lookup parent).any safeDirectory)
    "boot component has unsafe ancestor"
  raiseIf (p.found ≠ [] ∧ (p.seen.lookup ['.']).any fun h => !safeDirectory h) "boot archive root directory is unsafe"

/-- What is done with the decompressed data. -/
def verifyData (data : List UInt8) : Except String Unit := do
  let p ← verifyEach sha256 required optional maximumEntries {} ⟨data, maximumBytes + 1⟩
  checkFound required p

/-- `Verify`. `gunzip` fails on anything but one whole gzip member. -/
def verify (gunzip : List UInt8 → Option (List UInt8)) (source : List UInt8) : Except String Unit := do
  checkPolicy required optional
  let some data := gunzip source | throw "boot archive gzip"
  verifyData sha256 required optional data

end Verify

/-! ## The entries -/

/-- The entries before the trailer, as a newc reader finds them. -/
def entriesFrom : Nat → Reader → Option (List Entry)
  | 0, _ => none
  | n + 1, r =>
    match readHeader r with
    | .error _ => none
    | .ok ((header, raw), r) =>
      if raw = trailer then some []
      else match r.read header.filesize with
      | .error _ => none
      | .ok (body, r) =>
        match padding r (align header.filesize) with
        | .error _ => none
        | .ok r => (entriesFrom n r).map (⟨header, raw, body⟩ :: ·)

def entriesOf (data : List UInt8) : Option (List Entry) := entriesFrom maximumEntries ⟨data, maximumBytes + 1⟩

/-! ## Safe names -/

/-- What `path.Clean` has kept of a relative path: names, and below them the
`..` that nothing was left for. -/
def Stack (out : List (List Char)) : Prop :=
  ∃ names ups, out = names ++ ups ∧ (∀ c ∈ names, Plain c) ∧ ∀ c ∈ ups, c = ['.', '.']

theorem stack_cleanStep {out : List (List Char)} {part : List Char} (h : Stack out) (hpart : '/' ∉ part) :
    Stack (Network.cleanStep false out part) := by
  obtain ⟨names, ups, rfl, hnames, hups⟩ := h
  unfold Network.cleanStep
  split
  · exact ⟨names, ups, rfl, hnames, hups⟩
  rename_i hempty
  simp only [not_or] at hempty
  split
  · rename_i hup
    cases names with
    | nil =>
      cases ups with
      | nil => exact ⟨[], [part], rfl, by simp, by simp [hup]⟩
      | cons up ups =>
        have htop := hups up (List.mem_cons_self ..)
        simp only [List.nil_append, htop, if_true]
        refine ⟨[], part :: ['.', '.'] :: ups, rfl, by simp, fun c hc => ?_⟩
        rcases List.mem_cons.1 hc with rfl | hc
        · exact hup
        · exact hups c (htop ▸ hc)
    | cons name names =>
      have hplain := hnames name (List.mem_cons_self ..)
      simp only [List.cons_append, hplain.dots, if_false]
      exact ⟨names, ups, rfl, fun c hc => hnames c (List.mem_cons_of_mem _ hc), hups⟩
  · rename_i hup
    refine ⟨part :: names, ups, rfl, fun c hc => ?_, hups⟩
    rcases List.mem_cons.1 hc with rfl | hc
    · exact ⟨hempty.1, hpart, hempty.2, hup⟩
    · exact hnames c hc

theorem stack_foldl {out parts : List (List Char)} (h : Stack out) (hparts : ∀ c ∈ parts, '/' ∉ c) :
    Stack (parts.foldl (Network.cleanStep false) out) := by
  induction parts generalizing out with
  | nil => exact h
  | cons part parts ih =>
    exact ih (stack_cleanStep h (hparts part (List.mem_cons_self ..))) fun c hc => hparts c (List.mem_cons_of_mem _ hc)

/-- A joined path that starts with `..` starts so as a text. -/
theorem join_dots (cs : List (List Char)) :
    join (['.', '.'] :: cs) = ['.', '.'] ∨ ['.', '.', '/'] <+: join (['.', '.'] :: cs) := by
  cases cs with
  | nil => exact .inl rfl
  | cons c cs => exact .inr ⟨join (c :: cs), by simp [join]⟩

theorem safeName_cases {name : List Char} (h : safeName name) :
    name = ['.'] ∨ ∃ cs, cs ≠ [] ∧ (∀ c ∈ cs, Plain c) ∧ name = join cs := by
  simp only [safeName, Bool.or_eq_true, Bool.and_eq_true, beq_iff_eq, bne_iff_ne, ne_eq, Bool.not_eq_true', Bool.eq_false_iff,
    List.isPrefixOf_iff_prefix] at h
  rcases h with h | ⟨⟨⟨⟨⟨-, hup⟩, hups⟩, hrooted⟩, -⟩, hclean⟩
  · exact .inl h
  have hstack : Stack ((name.splitOn '/').foldl (Network.cleanStep false) []) :=
    stack_foldl ⟨[], [], rfl, by simp, by simp⟩ slash_of_mem_splitOn
  have hhead : (name.head? == some '/') = false := by
    rw [beq_eq_false_iff_ne]
    intro hhead
    obtain ⟨rest, rfl⟩ := List.head?_eq_some_iff.1 hhead
    exact hrooted ⟨rest, rfl⟩
  rw [filepathClean, hhead] at hclean
  obtain ⟨names, ups, hout, hnames, hups'⟩ := hstack
  simp only [hout, Bool.false_eq_true, if_false] at hclean
  have hnone : ups = [] := by
    rcases ups.eq_nil_or_concat with hnil | ⟨front, up, rfl⟩
    · exact hnil
    · -- The name would start with the last `..` kept.
      have hlast : up = ['.', '.'] := hups' up (by simp)
      rw [if_neg (by simp)] at hclean
      have hname : name = join (['.', '.'] :: (names ++ front).reverse) := by
        rw [← hclean, hlast]
        simp [join]
      rcases join_dots (names ++ front).reverse with hdots | hdots
      · exact absurd (hname.trans hdots) hup
      · exact absurd (hname ▸ hdots) hups
  subst hnone
  rw [List.append_nil] at hclean
  split at hclean
  · exact .inl hclean.symm
  · rename_i hne
    exact .inr ⟨names.reverse, hne, fun c hc => hnames c (List.mem_reverse.1 hc), hclean.symm⟩

/-! ## What was accepted -/

section Accepted
variable {sha256 : List UInt8 → String} {required optional : Policy}

/-- A critical file as it was approved. -/
def Approved (sha256 : List UInt8 → String) (required optional : Policy) (e : Entry) : Prop :=
  ∀ c, criticalFor required optional e.name = some c → safeMetadata e.header c ∧ sha256 e.body = c.sha256

theorem verifyEach_entries {n : Nat} {p p' : Progress} {r : Reader}
    (h : verifyEach sha256 required optional n p r = .ok p') :
    ∃ es, entriesFrom n r = some es ∧ p'.seen = p.seen ++ es.map (fun e => (e.name, e.header)) ∧
      (∀ name, name ∈ p'.found ↔ name ∈ p.found ∨ ∃ e ∈ es, e.name = name ∧ (criticalFor required optional name).isSome) ∧
      (∀ e ∈ es, safeName e.name ∧ Approved sha256 required optional e) ∧
      ((p.seen.map (·.1)).Nodup → (p'.seen.map (·.1)).Nodup) := by
  induction n generalizing p r with
  | zero => cases h
  | succ n ih =>
    rw [verifyEach, bind_eq_ok] at h
    obtain ⟨⟨⟨header, raw⟩, r₁⟩, hheader, h⟩ := h
    dsimp only at h
    split at h
    · -- The trailer.
      simp only [bind_eq_ok, raiseIf_eq_ok, exists_const, not_not] at h
      obtain ⟨hraw, -, -, -, hp⟩ := h
      cases hp
      refine ⟨[], ?_, by simp, by simp, by simp, id⟩
      rw [entriesFrom, hheader]
      simp [hraw]
    · rename_i htrailer
      obtain ⟨⟨⟩, hname, h⟩ := bind_eq_ok.1 h
      obtain ⟨⟨body, r₂⟩, hbody, h⟩ := bind_eq_ok.1 h
      obtain ⟨⟨⟩, hdigest, h⟩ := bind_eq_ok.1 h
      obtain ⟨r₃, hpadding, hrest⟩ := bind_eq_ok.1 h
      simp only [checkName, bind_eq_ok, raiseIf_eq_ok, exists_const, not_not] at hname
      obtain ⟨hsafe, hnew, hmetadata⟩ := hname
      rw [checkDigest, raiseIf_eq_ok] at hdigest
      obtain ⟨es, hes, hseen, hfound, hall, hnodup⟩ := ih hrest
      refine ⟨⟨header, raw, body⟩ :: es, ?_, ?_, ?_, ?_, ?_⟩
      · have hraw : raw ≠ trailer := fun hraw => htrailer (by rw [hraw]; decide)
        simp only [entriesFrom, hheader, if_neg hraw, hbody, hpadding, hes, Option.map_some]
      · rw [hseen, Progress.add, List.append_assoc]
        rfl
      · intro name
        rw [hfound, Progress.add]
        simp only [List.mem_append, List.mem_cons, exists_eq_or_imp, Entry.name]
        by_cases hcritical : (criticalFor required optional (trimDot raw)).isSome
        · simp only [hcritical, if_true, List.mem_singleton]
          constructor
          · rintro ((hin | rfl) | hin)
            · exact .inl hin
            · exact .inr (.inl ⟨rfl, hcritical⟩)
            · exact .inr (.inr hin)
          · rintro (hin | ⟨rfl, -⟩ | hin)
            · exact .inl (.inl hin)
            · exact .inl (.inr rfl)
            · exact .inr hin
        · simp only [hcritical, if_false, Bool.false_eq_true, List.not_mem_nil, or_false]
          constructor
          · rintro (hin | hin)
            · exact .inl hin
            · exact .inr (.inr hin)
          · rintro (hin | ⟨rfl, hin⟩ | hin)
            · exact .inl hin
            · exact absurd hin hcritical
            · exact .inr hin
      · intro e he
        rcases List.mem_cons.1 he with rfl | he
        · refine ⟨hsafe, fun c hc => ?_⟩
          simp only [Entry.name] at hc
          rw [hc] at hmetadata hdigest
          simp only [Option.any_some, Bool.not_eq_true', Bool.not_eq_false, bne_iff_ne, ne_eq, not_not] at hmetadata hdigest
          exact ⟨hmetadata, hdigest⟩
        · exact hall e he
      · intro hp
        refine hnodup ?_
        rw [Progress.add, List.map_append]
        refine List.Nodup.append hp (by simp) ?_
        intro name hname hin
        rw [List.map_singleton, List.mem_singleton] at hin
        subst hin
        obtain ⟨x, hx, hname⟩ := List.mem_map.1 hname
        exact hnew (List.lookup_isSome_iff.2 ⟨x, hx, by simp [hname]⟩)

/-- Everything an accepted archive is known to be. -/
structure Accepted (sha256 : List UInt8 → String) (required optional : Policy) (es : List Entry) : Prop where
  policy : ∀ p ∈ required ++ optional, safeName p.1 ∧ p.1 ≠ ['.']
  disjoint : ∀ p ∈ optional, required.lookup p.1 = none
  safe : ∀ e ∈ es, safeName e.name
  once : (es.map Entry.name).Nodup
  approved : ∀ e ∈ es, Approved sha256 required optional e
  complete : ∀ p ∈ required, ∃ e ∈ es, e.name = p.1
  above : ∀ e ∈ es, (criticalFor required optional e.name).isSome → ∀ dir, dir ≠ [] → dir <+: (components e.name).dropLast →
    ∃ d ∈ es, d.name = join dir ∧ d.header.fmt = typeDirectory

theorem checkPolicy_eq_ok (h : checkPolicy required optional = .ok ()) :
    (∀ p ∈ required ++ optional, safeName p.1 ∧ p.1 ≠ ['.']) ∧ ∀ p ∈ optional, required.lookup p.1 = none := by
  simp only [checkPolicy, bind_eq_ok, raiseIf_eq_ok, exists_const] at h
  obtain ⟨hpolicy, hdisjoint⟩ := h
  constructor
  · intro p hp
    simp only [List.any_eq_true, Bool.or_eq_true, Bool.not_eq_true', beq_iff_eq, not_exists, not_and, not_or] at hpolicy
    have := hpolicy p hp
    exact ⟨by simpa using this.1.1, this.1.2⟩
  · intro p hp
    simp only [List.any_eq_true, not_exists, not_and, Option.isSome_iff_ne_none, not_not] at hdisjoint
    exact hdisjoint p hp

theorem mem_of_lookup {α β : Type} [BEq α] [LawfulBEq α] {l : List (α × β)} {k : α} {v : β} (h : l.lookup k = some v) : (k, v) ∈ l := by
  obtain ⟨before, after, rfl, -⟩ := List.lookup_eq_some_iff.1 h
  simp

/-- Whatever `Verify` accepts has such entries. -/
theorem verify_accepted {gunzip : List UInt8 → Option (List UInt8)} {source : List UInt8}
    (h : verify sha256 required optional gunzip source = .ok ()) :
    ∃ data es, gunzip source = some data ∧ entriesOf data = some es ∧ Accepted sha256 required optional es := by
  rw [verify, bind_eq_ok] at h
  obtain ⟨⟨⟩, hpolicy, h⟩ := h
  cases hdata : gunzip source with
  | none =>
    rw [hdata] at h
    cases h
  | some data =>
    rw [hdata] at h
    obtain ⟨p, hp, hfound⟩ := bind_eq_ok.1 h
    obtain ⟨es, hes, hseen, hfound', hall, hnodup⟩ := verifyEach_entries hp
    simp only [checkFound, bind_eq_ok, raiseIf_eq_ok, exists_const] at hfound
    obtain ⟨hcomplete, habove, -⟩ := hfound
    simp only [List.nil_append, List.not_mem_nil, false_or, List.map_nil, List.nodup_nil, true_implies] at hseen hfound' hnodup
    rw [hseen, List.map_map] at hnodup
    obtain ⟨hsafe, hdisjoint⟩ := checkPolicy_eq_ok hpolicy
    refine ⟨data, es, rfl, hes, ⟨hsafe, hdisjoint, fun e he => (hall e he).1, hnodup, fun e he => (hall e he).2, ?_, ?_⟩⟩
    · intro c hc
      simp only [List.any_eq_true, Bool.not_eq_true', List.contains_eq_mem, decide_eq_false_iff_not, not_exists, not_and,
        not_not] at hcomplete
      obtain ⟨e, he, hname, -⟩ := (hfound' c.1).1 (hcomplete c hc)
      exact ⟨e, he, hname⟩
    · intro e he hcritical dir hne hdir
      simp only [List.any_eq_true, Bool.not_eq_true', not_exists, not_and, Bool.not_eq_false] at habove
      have hparent := habove e.name ((hfound' e.name).2 ⟨e, he, rfl, hcritical⟩) (join dir) (by
        simp only [ancestors, List.mem_map, List.mem_reverse, List.mem_filter, List.mem_inits, decide_eq_true_eq]
        exact ⟨dir, ⟨hdir, hne⟩, rfl⟩)
      rw [Option.any_eq_true] at hparent
      obtain ⟨header, hlookup, hsafe⟩ := hparent
      have hin := mem_of_lookup hlookup
      rw [hseen] at hin
      obtain ⟨d, hd, heq⟩ := List.mem_map.1 hin
      obtain ⟨hname, rfl⟩ := Prod.mk.inj heq
      simp only [safeDirectory, Bool.and_eq_true, beq_iff_eq] at hsafe
      exact ⟨d, hd, hname, hsafe.1.1.1⟩

end Accepted

end Multikernel.Boot
