import Multikernel.Lib.Intervals
import Mathlib.Data.List.Sort
import Mathlib.Data.List.TakeWhile
/-!
# The memory pool's accounting

`poolinspect` reads the kernel's memory map, a list of address ranges nested by
indentation, and says how much of the multikernel pool is in use. The map is
read line by line with a stack of the ranges that are still open, and every
chunk of the pool is then swept over its sorted descendants with unsigned
64-bit arithmetic (`ParseMemory` in `memory.go`).

Which entry lies below which is said without the stack: below an entry are the
deeper entries that follow it up to the next one that is not (`Pool.below`).
`parseMemory_exact`: the numbers that come out of an accepted map are the
chunks' sizes, the count of the addresses below a chunk and the longest run of
free ones, exactly.

Left to the caller: reading the file.
-/

namespace Multikernel.Poolinspect

open Lib.Intervals

/-! ## Lines -/

/-- A string constant of the source, all ASCII. -/
def ascii (s : String) : List UInt8 := s.toList.map fun c => UInt8.ofNat c.toNat

def maxMemoryMapBytes : Nat := 1048576
def maxMemoryMapRanges : Nat := 8192
def poolName : List UInt8 := ascii "Multikernel Memory Pool"
def systemRam : List UInt8 := ascii "System RAM"
def errMemoryMap : String := "kernel memory map is unavailable, obscured or invalid"

/-- `interval`, both ends included. -/
structure Interval where
  start : UInt64
  stop : UInt64
  le : start ≤ stop
  deriving DecidableEq

def Interval.span (i : Interval) : Span := ⟨i.start.toNat, i.stop.toNat, UInt64.le_iff_toNat_le.1 i.le⟩

@[simp] theorem Interval.span_lo (i : Interval) : i.span.lo = i.start.toNat := rfl

@[simp] theorem Interval.span_hi (i : Interval) : i.span.hi = i.stop.toNat := rfl

def Interval.Within (i j : Interval) : Prop := j.start ≤ i.start ∧ i.stop ≤ j.stop

instance (i j : Interval) : Decidable (i.Within j) := inferInstanceAs (Decidable (_ ∧ _))

/-- One line: how deep it is indented, its range and its name. The whole
64-bit space is no range. -/
structure Entry where
  depth : Nat
  region : Interval
  name : List UInt8
  bounded : region.stop - region.start ≠ ~~~0
  deriving DecidableEq

def hexValue (b : UInt8) : Option Nat :=
  if 48 ≤ b ∧ b ≤ 57 then some (b.toNat - 48)
  else if 97 ≤ b ∧ b ≤ 102 then some (b.toNat - 87)
  else if 65 ≤ b ∧ b ≤ 70 then some (b.toNat - 55)
  else none

def isHex (b : UInt8) : Bool := (hexValue b).isSome

/-- `[ -~]` -/
def isPrintable (b : UInt8) : Bool := 32 ≤ b && b ≤ 126

/-- `strconv.ParseUint` in base 16; sixteen digits fit, so it does not fail. -/
def parseUint (digits : List UInt8) : UInt64 :=
  UInt64.ofNat (digits.foldl (fun n b => 16 * n + (hexValue b).getD 0) 0)

/-- The submatches of the expression `memoryLine`. -/
structure Match where
  indent : Nat
  start : List UInt8
  stop : List UInt8
  name : List UInt8

def memoryLine (line : List UInt8) : Option Match :=
  let text := line.dropWhile (· == 32)
  let start := text.takeWhile isHex
  match text.dropWhile isHex with
  | [] => none
  | dash :: text =>
    let stop := text.takeWhile isHex
    match text.dropWhile isHex with
    | space :: colon :: blank :: name =>
      if dash = 45 ∧ [space, colon, blank] = ascii " : "
          ∧ 1 ≤ start.length ∧ start.length ≤ 16 ∧ 1 ≤ stop.length ∧ stop.length ≤ 16
          ∧ 1 ≤ name.length ∧ name.length ≤ 256 ∧ name.all isPrintable then
        some ⟨(line.takeWhile (· == 32)).length, start, stop, name⟩
      else none
    | _ => none

def readLine (line : List UInt8) : Option Entry := do
  let found ← memoryLine line
  if found.indent % 2 ≠ 0 ∨ 64 < found.indent then none
  else
    let start := parseUint found.start
    let stop := parseUint found.stop
    if h : start ≤ stop then
      if hfull : stop - start ≠ ~~~0 then some ⟨found.indent / 2, ⟨start, stop, h⟩, found.name, hfull⟩ else none
    else none

/-- The lines of a text whose last byte, a newline, is cut off. -/
def lines (data : List UInt8) : List (List UInt8) := data.dropLast.splitOn 10

/-! ## The loop over the lines -/

/-- `memoryNode`; no pool is the source's -1. -/
structure MemoryNode where
  region : Interval
  pool : Option Nat
  deriving DecidableEq

/-- The loop's variables. -/
structure Map where
  stack : List MemoryNode := []
  chunks : List Interval := []
  allocations : List (List Interval) := []
  visibleRAM : Bool := false

/-- `strings.Contains` -/
def contains (name part : List UInt8) : Bool := name.tails.any part.isPrefixOf

/-- The pool a line at this place of the stack inherits from its parent, if it
lies within it. -/
def inherit (stack : List MemoryNode) (region : Interval) : Option (Option Nat) :=
  match stack.getLast? with
  | none => some none
  | some parent => if region.Within parent.region then some parent.pool else none

/-- A range inside a chunk is added to its allocations. -/
def allocate (allocations : List (List Interval)) (pool : Option Nat) (region : Interval) : List (List Interval) :=
  match pool with
  | none => allocations
  | some i => allocations.modify i (· ++ [region])

def Map.place (m : Map) (e : Entry) : Option Map :=
  if m.stack.length < e.depth then none
  else
    let stack := m.stack.take e.depth
    match inherit stack e.region with
    | none => none
    | some pool =>
      let visible := m.visibleRAM || (e.name = systemRam && decide (e.region.start < e.region.stop))
      if contains e.name poolName ∧ e.name ≠ poolName then none
      else if e.name = poolName then
        if pool.isSome ∨ (e.region.start = 0 ∧ e.region.stop = 0) then none
        else some ⟨stack ++ [⟨e.region, some m.chunks.length⟩], m.chunks ++ [e.region], m.allocations ++ [[]], visible⟩
      else
        some ⟨stack ++ [⟨e.region, pool⟩], m.chunks, allocate m.allocations pool e.region, visible⟩

def Map.read (m : Map) (line : List UInt8) : Option Map := (readLine line).bind m.place

/-! ## The loop over the chunks -/

structure Memory where
  largestFreeExtentBytes : UInt64 := 0
  chunks : Nat := 0
  totalBytes : UInt64 := 0
  allocatedBytes : UInt64 := 0
  availableBytes : UInt64 := 0
  deriving DecidableEq

/-- `sort.Slice` by the ranges' starts: any order of equal starts. -/
structure Sorter where
  sort : List Interval → List Interval
  perm : ∀ l, (sort l).Perm l
  sorted : ∀ l, (sort l).Pairwise fun i j => i.start ≤ j.start

def add (total n : UInt64) : Option UInt64 := if ~~~0 - total < n then none else some (total + n)

def Interval.size (i : Interval) : UInt64 := i.stop - i.start + 1

def Memory.largest (m : Memory) (size : UInt64) : Memory :=
  if m.largestFreeExtentBytes < size then { m with largestFreeExtentBytes := size } else m

/-- The current range, extended to the end of the next. -/
def Interval.extend (merged region : Interval) : Interval :=
  if h : merged.stop < region.stop then ⟨merged.start, region.stop, UInt64.le_trans merged.le (UInt64.le_of_lt h)⟩ else merged

/-- The next range overlaps the current one or continues it; at the end of the
space nothing can follow. -/
def touches (merged region : Interval) : Bool := merged.stop = ~~~0 || region.start ≤ merged.stop + 1

def merge (chunk : Interval) : Interval → List Interval → Memory → Option Memory
  | merged, [], m =>
    (add m.allocatedBytes merged.size).map fun n =>
      Memory.largest { m with allocatedBytes := n } (chunk.stop - merged.stop)
  | merged, region :: regions, m =>
    if touches merged region then merge chunk (merged.extend region) regions m
    else
      let m := m.largest (region.start - merged.stop - 1)
      (add m.allocatedBytes merged.size).bind fun n => merge chunk region regions { m with allocatedBytes := n }

def account (s : Sorter) (m : Memory) (part : Interval × List Interval) : Option Memory :=
  (add m.totalBytes part.1.size).bind fun n =>
    let m := { m with totalBytes := n }
    match s.sort part.2 with
    | [] => some (m.largest part.1.size)
    | merged :: regions => merge part.1 merged regions (m.largest (merged.start - part.1.start))

/-- Neighbours among the sorted chunks do not meet. -/
def separate : List Interval → Bool
  | i :: j :: rest => decide (i.stop < j.start) && separate (j :: rest)
  | _ => true

def measure (s : Sorter) (m : Map) : Option Memory :=
  if ¬ m.visibleRAM ∨ ¬ separate (s.sort m.chunks) then none
  else
    match (m.chunks.zip m.allocations).foldlM (account s) { chunks := m.chunks.length } with
    | none => none
    | some r => if r.totalBytes < r.allocatedBytes then none else some { r with availableBytes := r.totalBytes - r.allocatedBytes }

def parse (s : Sorter) (data : List UInt8) : Option Memory :=
  if data.length = 0 ∨ maxMemoryMapBytes < data.length ∨ data.getLast? ≠ some 10 then none
  else if maxMemoryMapRanges < (lines data).length then none
  else ((lines data).foldlM Map.read {}).bind (measure s)

def parseMemory (s : Sorter) (data : List UInt8) : Except String Memory :=
  match parse s data with
  | none => .error errMemoryMap
  | some m => .ok m

/-! ## What the numbers should be -/

/-- A chunk of the pool in a list of entries, with all entries that follow it. -/
structure Pool where
  entry : Entry
  after : List Entry

/-- The entries below the chunk: the deeper ones that follow it, up to the
first that is not. -/
def Pool.below (p : Pool) : List Entry := p.after.takeWhile fun e => p.entry.depth < e.depth

def pools : List Entry → List Pool
  | [] => []
  | e :: es => if e.name = poolName then ⟨e, es⟩ :: pools es else pools es

def entries (data : List UInt8) : Option (List Entry) := (lines data).mapM readLine

/-- The addresses that lie below some chunk. -/
def Allocated (es : List Entry) : Set Nat :=
  {a | ∃ p ∈ pools es, ∃ d ∈ p.below, d.region.start.toNat ≤ a ∧ a ≤ d.region.stop.toNat}

/-- The chunks' sizes, summed up. -/
def total (es : List Entry) : Nat :=
  (pools es).foldr (fun p n => (p.entry.region.stop.toNat - p.entry.region.start.toNat + 1) + n) 0

/-- The lengths of the free runs inside a chunk. -/
def FreeRun (es : List Entry) (n : Nat) : Prop :=
  ∃ p ∈ pools es, Free p.entry.region.start.toNat (p.entry.region.stop.toNat + 1) (Allocated es) n

/-! ## The stack against the indentation -/

/-- The next entry is still deeper than everything since the chunk. -/
def Pool.Open (p : Pool) : Prop := ∀ e ∈ p.after, p.entry.depth < e.depth

def Pool.push (p : Pool) (e : Entry) : Pool := ⟨p.entry, p.after ++ [e]⟩

section Pools
variable {es : List Entry} {e : Entry} {p : Pool}

theorem pools_append : pools (es ++ [e]) = (pools es).map (·.push e) ++ if e.name = poolName then [⟨e, []⟩] else [] := by
  induction es with
  | nil => simp [pools]
  | cons x es ih =>
    simp only [List.cons_append, pools]
    split
    · rw [ih]
      rfl
    · exact ih

theorem open_push : (p.push e).Open ↔ p.Open ∧ p.entry.depth < e.depth := by
  simp only [Pool.Open, Pool.push, List.mem_append, List.mem_singleton]
  constructor
  · intro h
    exact ⟨fun x hx => h x (.inl hx), h e (.inr rfl)⟩
  · rintro ⟨h, he⟩ x (hx | rfl)
    · exact h x hx
    · exact he

/-- An entry comes below a chunk exactly if the chunk is open and less deep. -/
theorem below_push_of_open (hp : p.Open) (he : p.entry.depth < e.depth) : (p.push e).below = p.below ++ [e] := by
  have hall : ∀ x ∈ p.after, decide (p.entry.depth < x.depth) = true := fun x hx => decide_eq_true (hp x hx)
  unfold Pool.below Pool.push
  rw [List.takeWhile_append_of_pos hall, List.takeWhile_eq_self_iff.2 hall]
  simp [he]

theorem below_push_of_not (h : ¬(p.Open ∧ p.entry.depth < e.depth)) : (p.push e).below = p.below := by
  unfold Pool.below Pool.push
  by_cases hp : p.Open
  · have hall : ∀ x ∈ p.after, decide (p.entry.depth < x.depth) = true := fun x hx => decide_eq_true (hp x hx)
    rw [List.takeWhile_append_of_pos hall, List.takeWhile_eq_self_iff.2 hall]
    simpa using fun he => h ⟨hp, he⟩
  · rw [List.takeWhile_append]
    split
    · rename_i hlen
      refine absurd ?_ hp
      intro x hx
      have hself := (List.takeWhile_prefix (l := p.after) (fun x => decide (p.entry.depth < x.depth))).eq_of_length hlen
      exact of_decide_eq_true (List.takeWhile_eq_self_iff.1 hself x hx)
    · rfl

end Pools

/-- The loop's variables against the entries it has read. A range on the stack
belongs to the chunk that is open there and less deep. -/
structure Tracks (es : List Entry) (m : Map) : Prop where
  chunks : m.chunks = (pools es).map (·.entry.region)
  allocations : m.allocations = (pools es).map fun p => p.below.map (·.region)
  pool_iff : ∀ (t : Nat) (node : MemoryNode), m.stack[t]? = some node → ∀ i : Nat,
    (node.pool = some i ↔ ∃ p : Pool, (pools es)[i]? = some p ∧ p.Open ∧ p.entry.depth ≤ t)
  inside : ∀ node ∈ m.stack, ∀ (i : Nat) (p : Pool), node.pool = some i → (pools es)[i]? = some p → node.region.Within p.entry.region
  nested : ∀ p ∈ pools es, ∀ d ∈ p.below, d.region.Within p.entry.region

theorem tracks_nil : Tracks [] {} where
  chunks := rfl
  allocations := rfl
  pool_iff := by simp
  inside := by simp
  nested := by simp [pools]

theorem Interval.Within.trans {i j k : Interval} (h : i.Within j) (h' : j.Within k) : i.Within k :=
  ⟨UInt64.le_trans h'.1 h.1, UInt64.le_trans h.2 h'.2⟩

theorem Interval.Within.rfl {i : Interval} : i.Within i := ⟨UInt64.le_refl _, UInt64.le_refl _⟩

section Place
variable {es : List Entry} {e : Entry} {m m' : Map} {pool : Option Nat}

/-- All a placed line does: it is no deeper than the stack, lies within its
parent, and either opens a chunk or joins the one it inherits. -/
theorem place_cases (h : m.place e = some m') :
    e.depth ≤ m.stack.length ∧ ∃ pool, inherit (m.stack.take e.depth) e.region = some pool
      ∧ ((e.name = poolName ∧ pool = none ∧ m'.stack = m.stack.take e.depth ++ [⟨e.region, some m.chunks.length⟩]
          ∧ m'.chunks = m.chunks ++ [e.region] ∧ m'.allocations = m.allocations ++ [[]])
        ∨ (e.name ≠ poolName ∧ m'.stack = m.stack.take e.depth ++ [⟨e.region, pool⟩] ∧ m'.chunks = m.chunks
          ∧ m'.allocations = allocate m.allocations pool e.region)) := by
  unfold Map.place at h
  by_cases hdeep : m.stack.length < e.depth
  · rw [if_pos hdeep] at h
    cases h
  rw [if_neg hdeep] at h
  refine ⟨by omega, ?_⟩
  cases hin : inherit (m.stack.take e.depth) e.region with
  | none => simp [hin] at h
  | some pool =>
    simp only [hin] at h
    refine ⟨pool, rfl, ?_⟩
    split at h
    · cases h
    split at h
    · rename_i hname
      split at h
      · cases h
      · rename_i hout
        cases h
        rw [not_or, Bool.not_eq_true, Option.isSome_eq_false_iff, Option.isNone_iff_eq_none] at hout
        exact .inl ⟨hname, hout.1, rfl, rfl, rfl⟩
    · rename_i hname
      cases h
      exact .inr ⟨hname, rfl, rfl, rfl⟩

/-- The pool a line inherits is the open chunk that is less deep. -/
theorem inherit_iff (ht : Tracks es m) (hdepth : e.depth ≤ m.stack.length)
    (h : inherit (m.stack.take e.depth) e.region = some pool) (i : Nat) :
    pool = some i ↔ ∃ p, (pools es)[i]? = some p ∧ p.Open ∧ p.entry.depth < e.depth := by
  unfold inherit at h
  cases hlast : (m.stack.take e.depth).getLast? with
  | none =>
    have hempty : m.stack.take e.depth = [] := List.getLast?_eq_none_iff.1 hlast
    have hzero : e.depth = 0 := by
      have := congrArg List.length hempty
      rw [List.length_take, List.length_nil] at this
      omega
    rw [hlast] at h
    cases h
    simp [hzero]
  | some parent =>
    rw [hlast] at h
    simp only at h
    split at h
    · cases h
      rw [List.getLast?_eq_getElem?, List.length_take, Nat.min_eq_left hdepth, List.getElem?_take] at hlast
      split at hlast
      · rw [ht.pool_iff _ parent hlast i]
        simp only [show ∀ d, d ≤ e.depth - 1 ↔ d < e.depth by omega]
      · cases hlast
    · cases h

theorem inherit_within (h : inherit (m.stack.take e.depth) e.region = some pool) {i : Nat} (hi : pool = some i) :
    ∃ parent ∈ m.stack, parent.pool = some i ∧ e.region.Within parent.region := by
  unfold inherit at h
  cases hlast : (m.stack.take e.depth).getLast? with
  | none =>
    rw [hlast] at h
    cases h
    cases hi
  | some parent =>
    rw [hlast] at h
    simp only at h
    split at h
    · rename_i hin
      cases h
      exact ⟨parent, List.mem_of_mem_take (List.mem_of_getLast? hlast), hi, hin⟩
    · cases h

theorem mem_stack_place {node : MemoryNode} {last : MemoryNode} (hstack : m'.stack = m.stack.take e.depth ++ [last])
    (h : node ∈ m'.stack) : node ∈ m.stack ∨ node = last := by
  rw [hstack, List.mem_append, List.mem_singleton] at h
  exact h.imp_left List.mem_of_mem_take

/-- Nodes below the new one keep their place. -/
theorem stack_place_cases {t : Nat} {node last : MemoryNode} (hdepth : e.depth ≤ m.stack.length)
    (hstack : m'.stack = m.stack.take e.depth ++ [last]) (h : m'.stack[t]? = some node) :
    (t < e.depth ∧ m.stack[t]? = some node) ∨ (t = e.depth ∧ node = last) := by
  have hlen : (m.stack.take e.depth).length = e.depth := by rw [List.length_take, Nat.min_eq_left hdepth]
  rw [hstack, List.getElem?_append, hlen] at h
  split at h
  · rename_i ht
    rw [List.getElem?_take_of_lt ht] at h
    exact .inl ⟨ht, h⟩
  · rename_i ht
    rw [List.getElem?_singleton] at h
    split at h
    · cases h
      exact .inr ⟨by omega, rfl⟩
    · cases h

theorem getElem?_pushed {i : Nat} {q : Pool} :
    ((pools es).map (·.push e))[i]? = some q ↔ ∃ p, (pools es)[i]? = some p ∧ q = p.push e := by
  rw [List.getElem?_map, Option.map_eq_some_iff]
  simp only [eq_comm]

/-- A line that is no chunk. -/
theorem Tracks.place_below (ht : Tracks es m) (hdepth : e.depth ≤ m.stack.length)
    (hin : inherit (m.stack.take e.depth) e.region = some pool) (hname : e.name ≠ poolName)
    (hstack : m'.stack = m.stack.take e.depth ++ [⟨e.region, pool⟩]) (hchunks : m'.chunks = m.chunks)
    (halloc : m'.allocations = allocate m.allocations pool e.region) : Tracks (es ++ [e]) m' := by
  have hpools : pools (es ++ [e]) = (pools es).map (·.push e) := by
    rw [pools_append, if_neg hname, List.append_nil]
  have hiff := inherit_iff ht hdepth hin
  constructor
  case chunks =>
    rw [hchunks, ht.chunks, hpools, List.map_map]
    rfl
  case allocations =>
    rw [halloc, hpools, ht.allocations]
    apply List.ext_getElem?
    intro i
    -- the chunk that the line inherits gets it, no other does
    cases hp : (pools es)[i]? with
    | none => cases pool <;> simp [allocate, hp, List.getElem?_modify]
    | some p =>
      by_cases hjoin : p.Open ∧ p.entry.depth < e.depth
      · have hpool : pool = some i := (hiff i).2 ⟨p, hp, hjoin⟩
        subst hpool
        simp [allocate, hp, below_push_of_open hjoin.1 hjoin.2]
      · have hpool : pool ≠ some i := by
          intro h
          obtain ⟨p', hp', hjoin'⟩ := (hiff i).1 h
          rw [hp] at hp'
          cases hp'
          exact hjoin hjoin'
        cases pool with
        | none => simp [allocate, hp, below_push_of_not hjoin]
        | some k =>
          have hk : k ≠ i := fun h => hpool (h ▸ rfl)
          simp [allocate, hp, hk, below_push_of_not hjoin]
  case pool_iff =>
    intro t node hnode i
    rw [hpools]
    rcases stack_place_cases hdepth hstack hnode with ⟨hlt, hold⟩ | ⟨rfl, rfl⟩
    · rw [ht.pool_iff t node hold i]
      constructor
      · rintro ⟨p, hp, hopen, hle⟩
        exact ⟨p.push e, getElem?_pushed.2 ⟨p, hp, rfl⟩, open_push.2 ⟨hopen, by omega⟩, hle⟩
      · rintro ⟨q, hq, hopen, hle⟩
        obtain ⟨p, hp, rfl⟩ := getElem?_pushed.1 hq
        exact ⟨p, hp, (open_push.1 hopen).1, hle⟩
    · rw [hiff i]
      constructor
      · rintro ⟨p, hp, hopen, hlt⟩
        exact ⟨p.push e, getElem?_pushed.2 ⟨p, hp, rfl⟩, open_push.2 ⟨hopen, hlt⟩, hlt.le⟩
      · rintro ⟨q, hq, hopen, -⟩
        obtain ⟨p, hp, rfl⟩ := getElem?_pushed.1 hq
        exact ⟨p, hp, open_push.1 hopen⟩
  case inside =>
    intro node hnode i q hi hq
    rw [hpools] at hq
    obtain ⟨p, hp, rfl⟩ := getElem?_pushed.1 hq
    rcases mem_stack_place hstack hnode with hold | rfl
    · exact ht.inside node hold i p hi hp
    · obtain ⟨parent, hparent, hpi, hwithin⟩ := inherit_within hin hi
      exact hwithin.trans (ht.inside parent hparent i p hpi hp)
  case nested =>
    intro q hq d hd
    rw [hpools] at hq
    obtain ⟨p, hp, rfl⟩ := List.mem_map.1 hq
    by_cases hjoin : p.Open ∧ p.entry.depth < e.depth
    · rw [below_push_of_open hjoin.1 hjoin.2, List.mem_append, List.mem_singleton] at hd
      rcases hd with hd | rfl
      · exact ht.nested p hp d hd
      · obtain ⟨i, hi⟩ := List.mem_iff_getElem?.1 hp
        obtain ⟨parent, hparent, hpi, hwithin⟩ := inherit_within hin ((hiff i).2 ⟨p, hi, hjoin⟩)
        exact hwithin.trans (ht.inside parent hparent i p hpi hi)
    · rw [below_push_of_not hjoin] at hd
      exact ht.nested p hp d hd

/-- A line that opens a chunk, where none is open. -/
theorem Tracks.place_chunk (ht : Tracks es m) (hdepth : e.depth ≤ m.stack.length)
    (hin : inherit (m.stack.take e.depth) e.region = some none) (hname : e.name = poolName)
    (hstack : m'.stack = m.stack.take e.depth ++ [⟨e.region, some m.chunks.length⟩])
    (hchunks : m'.chunks = m.chunks ++ [e.region]) (halloc : m'.allocations = m.allocations ++ [[]]) :
    Tracks (es ++ [e]) m' := by
  have hpools : pools (es ++ [e]) = (pools es).map (·.push e) ++ [⟨e, []⟩] := by
    rw [pools_append, if_pos hname]
  have hlen : m.chunks.length = (pools es).length := by rw [ht.chunks, List.length_map]
  have hnone : ∀ p ∈ pools es, ¬(p.Open ∧ p.entry.depth < e.depth) := by
    intro p hp hjoin
    obtain ⟨i, hi⟩ := List.mem_iff_getElem?.1 hp
    have hsome := (inherit_iff ht hdepth hin i).2 ⟨p, hi, hjoin⟩
    cases hsome
  have hget : ∀ (i : Nat) (q : Pool), (pools (es ++ [e]))[i]? = some q ↔
      (∃ p, (pools es)[i]? = some p ∧ q = p.push e) ∨ (i = m.chunks.length ∧ q = ⟨e, []⟩) := by
    intro i q
    rw [hpools, List.getElem?_append, List.length_map, ← hlen]
    split
    · rename_i hi
      rw [getElem?_pushed, or_iff_left (by omega)]
    · rename_i hi
      have hout : (pools es)[i]? = none := List.getElem?_eq_none (by omega)
      rw [List.getElem?_singleton]
      constructor
      · intro h
        split at h
        · cases h
          exact .inr ⟨by omega, rfl⟩
        · cases h
      · rintro (⟨p, hp, -⟩ | ⟨rfl, rfl⟩)
        · rw [hout] at hp
          cases hp
        · simp
  constructor
  case chunks =>
    rw [hchunks, ht.chunks, hpools, List.map_append, List.map_map]
    rfl
  case allocations =>
    rw [halloc, ht.allocations, hpools, List.map_append, List.map_map]
    congr 1
    apply List.map_congr_left
    intro p hp
    rw [Function.comp, below_push_of_not (hnone p hp)]
  case pool_iff =>
    intro t node hnode i
    rcases stack_place_cases hdepth hstack hnode with ⟨hlt, hold⟩ | ⟨rfl, rfl⟩
    · rw [ht.pool_iff t node hold i]
      constructor
      · rintro ⟨p, hp, hopen, hle⟩
        exact absurd ⟨hopen, by omega⟩ (hnone p (List.mem_of_getElem? hp))
      · rintro ⟨q, hq, hopen, hle⟩
        rcases (hget i q).1 hq with ⟨p, hp, rfl⟩ | ⟨-, rfl⟩
        · exact absurd (open_push.1 hopen) (hnone p (List.mem_of_getElem? hp))
        · exact absurd hle (by simpa using hlt)
    · constructor
      · intro hi
        cases hi
        exact ⟨⟨e, []⟩, (hget _ _).2 (.inr ⟨rfl, rfl⟩), by simp [Pool.Open], le_rfl⟩
      · rintro ⟨q, hq, hopen, -⟩
        rcases (hget i q).1 hq with ⟨p, hp, rfl⟩ | ⟨rfl, -⟩
        · exact absurd (open_push.1 hopen) (hnone p (List.mem_of_getElem? hp))
        · rfl
  case inside =>
    intro node hnode i q hi hq
    rcases (hget i q).1 hq with ⟨p, hp, rfl⟩ | ⟨rfl, rfl⟩
    · rcases mem_stack_place hstack hnode with hold | rfl
      · exact ht.inside node hold i p hi hp
      · cases hi
        have hout : (pools es)[m.chunks.length]? = none := List.getElem?_eq_none (by omega)
        rw [hout] at hp
        cases hp
    · rcases mem_stack_place hstack hnode with hold | rfl
      · -- an old range belongs to an old chunk
        obtain ⟨t, htn⟩ := List.mem_iff_getElem?.1 hold
        obtain ⟨p, hp, -⟩ := (ht.pool_iff t node htn m.chunks.length).1 hi
        have hout : (pools es)[m.chunks.length]? = none := List.getElem?_eq_none (by omega)
        rw [hout] at hp
        cases hp
      · exact .rfl
  case nested =>
    intro q hq d hd
    rw [hpools, List.mem_append, List.mem_singleton] at hq
    rcases hq with hq | rfl
    · obtain ⟨p, hp, rfl⟩ := List.mem_map.1 hq
      rw [below_push_of_not (hnone p hp)] at hd
      exact ht.nested p hp d hd
    · simp [Pool.below] at hd

theorem Tracks.place (ht : Tracks es m) (h : m.place e = some m') : Tracks (es ++ [e]) m' := by
  obtain ⟨hdepth, pool, hin, ⟨hname, rfl, hstack, hchunks, halloc⟩ | ⟨hname, hstack, hchunks, halloc⟩⟩ := place_cases h
  · exact ht.place_chunk hdepth hin hname hstack hchunks halloc
  · exact ht.place_below hdepth hin hname hstack hchunks halloc

theorem Tracks.read {ls : List (List UInt8)} (ht : Tracks es m) (h : ls.foldlM Map.read m = some m') :
    ∃ es', ls.mapM readLine = some es' ∧ Tracks (es ++ es') m' := by
  induction ls generalizing es m with
  | nil =>
    cases h
    exact ⟨[], rfl, by rwa [List.append_nil]⟩
  | cons l ls ih =>
    rw [List.foldlM_cons] at h
    obtain ⟨m₁, h₁, hrest⟩ := Option.bind_eq_some_iff.1 h
    obtain ⟨e, he, hplace⟩ := Option.bind_eq_some_iff.1 h₁
    obtain ⟨es', hes, ht'⟩ := ih (ht.place hplace) hrest
    refine ⟨e :: es', ?_, by rwa [List.append_assoc] at ht'⟩
    rw [List.mapM_cons, he, hes]
    rfl

end Place

/-! ## The sweep in 64 bits -/

def Memory.tally (m : Memory) : Tally := ⟨m.allocatedBytes.toNat, m.largestFreeExtentBytes.toNat⟩

theorem max_toNat : (~~~(0 : UInt64)).toNat = 18446744073709551615 := by decide

theorem eq_max_iff {n : UInt64} : n = ~~~0 ↔ n.toNat = 18446744073709551615 := by
  rw [← UInt64.toNat_inj, max_toNat]

theorem add_eq_some {a n b : UInt64} (h : add a n = some b) : b.toNat = a.toNat + n.toNat := by
  unfold add at h
  split at h
  · cases h
  · rename_i hfits
    cases h
    have hmax := max_toNat
    have ha := a.toNat_lt
    rw [UInt64.not_lt, UInt64.le_iff_toNat_le, UInt64.toNat_sub_of_le _ _ (UInt64.le_iff_toNat_le.2 (by omega)), hmax] at hfits
    rw [UInt64.toNat_add]
    omega

theorem largest_tally (m : Memory) (n : UInt64) : (m.largest n).tally = ⟨m.tally.size, max m.tally.gap n.toNat⟩ := by
  unfold Memory.largest Memory.tally
  split
  · rename_i h
    rw [UInt64.lt_iff_toNat_lt] at h
    simp only [Tally.mk.injEq, true_and]
    omega
  · rename_i h
    rw [UInt64.not_lt, UInt64.le_iff_toNat_le] at h
    simp only [Tally.mk.injEq, true_and]
    omega

@[simp] theorem largest_totalBytes (m : Memory) (n : UInt64) : (m.largest n).totalBytes = m.totalBytes := by
  unfold Memory.largest
  split <;> rfl

@[simp] theorem largest_chunks (m : Memory) (n : UInt64) : (m.largest n).chunks = m.chunks := by
  unfold Memory.largest
  split <;> rfl

section Sizes
variable {i j chunk merged region : Interval} {regions : List Interval} {m m' : Memory}

theorem Interval.le_toNat (i : Interval) : i.start.toNat ≤ i.stop.toNat := UInt64.le_iff_toNat_le.1 i.le

/-- A range that is not the whole space has a size. -/
theorem size_toNat (h : i.stop - i.start ≠ ~~~0) : i.size.toNat = i.span.size := by
  have hle := i.le_toNat
  have hsub : (i.stop - i.start).toNat = i.stop.toNat - i.start.toNat := UInt64.toNat_sub_of_le _ _ i.le
  rw [Ne, eq_max_iff, hsub] at h
  have hstop := i.stop.toNat_lt
  unfold Interval.size Span.size Interval.span
  rw [UInt64.toNat_add, hsub]
  simp only [UInt64.reduceToNat]
  omega

theorem bounded_of_within (h : i.Within j) (hj : j.stop - j.start ≠ ~~~0) : i.stop - i.start ≠ ~~~0 := by
  rw [Ne, eq_max_iff, UInt64.toNat_sub_of_le _ _ i.le]
  rw [Ne, eq_max_iff, UInt64.toNat_sub_of_le _ _ j.le] at hj
  have hstart := UInt64.le_iff_toNat_le.1 h.1
  have hstop := UInt64.le_iff_toNat_le.1 h.2
  have hlt := j.stop.toNat_lt
  omega

/-- The test for a touching range, at the end of the space as well. -/
theorem touches_iff : touches merged region ↔ region.span.lo ≤ merged.span.hi + 1 := by
  rw [touches, Bool.or_eq_true, decide_eq_true_eq, decide_eq_true_eq]
  have hstart := region.start.toNat_lt
  have hstop := merged.stop.toNat_lt
  rw [Interval.span_lo, Interval.span_hi]
  by_cases hmax : merged.stop = ~~~0
  · have hnat := eq_max_iff.1 hmax
    rw [or_iff_left_of_imp (fun _ => hmax), iff_true_left hmax]
    omega
  · have hnat := mt eq_max_iff.2 hmax
    rw [or_iff_right hmax, UInt64.le_iff_toNat_le, UInt64.toNat_add]
    simp only [UInt64.reduceToNat]
    omega

theorem extend_span : (merged.extend region).span = merged.span.join region.span := by
  unfold Interval.extend Span.join Interval.span
  split
  · rename_i h
    rw [UInt64.lt_iff_toNat_lt] at h
    simp only [Span.mk.injEq, true_and]
    omega
  · rename_i h
    rw [UInt64.not_lt, UInt64.le_iff_toNat_le] at h
    simp only [Span.mk.injEq, true_and]
    omega

theorem extend_within (h : merged.Within chunk) (h' : region.Within chunk) : (merged.extend region).Within chunk := by
  unfold Interval.extend
  split
  · exact ⟨h.1, h'.2⟩
  · exact h

theorem gap_toNat (hapart : ¬region.span.lo ≤ merged.span.hi + 1) :
    (region.start - merged.stop - 1).toNat = region.span.lo - merged.span.hi - 1 := by
  rw [Interval.span_lo, Interval.span_hi] at hapart ⊢
  have hone : (1 : UInt64).toNat = 1 := by simp
  have hle : merged.stop ≤ region.start := UInt64.le_iff_toNat_le.2 (by omega)
  have hsub : (region.start - merged.stop).toNat = region.start.toNat - merged.stop.toNat := UInt64.toNat_sub_of_le _ _ hle
  have hle' : 1 ≤ region.start - merged.stop := UInt64.le_iff_toNat_le.2 (by omega)
  rw [UInt64.toNat_sub_of_le _ _ hle', hsub, hone]

/-- The loop over a chunk's ranges is the sweep over their spans. -/
theorem merge_tally (hchunk : chunk.stop - chunk.start ≠ ~~~0) (hmerged : merged.Within chunk)
    (hin : ∀ r ∈ regions, r.Within chunk) (h : merge chunk merged regions m = some m') :
    m'.tally = sweep chunk.span merged.span (regions.map (·.span)) m.tally
      ∧ m'.totalBytes = m.totalBytes ∧ m'.chunks = m.chunks := by
  have hsize := size_toNat (bounded_of_within hmerged hchunk)
  induction regions generalizing merged m with
  | nil =>
    rw [merge] at h
    obtain ⟨n, hadd, rfl⟩ := Option.map_eq_some_iff.1 h
    have hgap : (chunk.stop - merged.stop).toNat = chunk.stop.toNat - merged.stop.toNat := UInt64.toNat_sub_of_le _ _ hmerged.2
    rw [largest_tally, hgap]
    simp only [List.map_nil, sweep, Memory.tally, Interval.span_hi, largest_totalBytes, largest_chunks,
      add_eq_some hadd, hsize, and_self]
  | cons region regions ih =>
    have hregion := hin region List.mem_cons_self
    have hrest : ∀ r ∈ regions, r.Within chunk := fun r hr => hin r (List.mem_cons_of_mem _ hr)
    rw [merge] at h
    rw [List.map_cons, sweep]
    by_cases htouch : touches merged region
    · rw [if_pos htouch] at h
      have hext := extend_within hmerged hregion
      rw [if_pos (touches_iff.1 htouch), ← extend_span]
      exact ih hext hrest h (size_toNat (bounded_of_within hext hchunk))
    · have hapart : ¬region.span.lo ≤ merged.span.hi + 1 := mt touches_iff.2 htouch
      rw [if_neg htouch] at h
      rw [if_neg hapart]
      have hgap := gap_toNat hapart
      obtain ⟨n, hadd, hmerge⟩ := Option.bind_eq_some_iff.1 h
      have htally := largest_tally m (region.start - merged.stop - 1)
      obtain ⟨hfinal, htotal, hcount⟩ := ih hregion hrest hmerge (size_toNat (bounded_of_within hregion hchunk))
      have hnext : Memory.tally { m.largest (region.start - merged.stop - 1) with allocatedBytes := n }
          = ⟨m.tally.size + merged.span.size, max m.tally.gap (region.span.lo - merged.span.hi - 1)⟩ := by
        have hbytes := congrArg Tally.size htally
        have hlargest := congrArg Tally.gap htally
        simp only [Memory.tally] at hbytes hlargest
        simp only [Memory.tally, add_eq_some hadd, hbytes, hlargest, hsize, hgap]
      rw [hnext] at hfinal
      exact ⟨hfinal, htotal.trans (largest_totalBytes _ _), hcount.trans (largest_chunks _ _)⟩

/-- One chunk: its size, the numbers its ranges cover, its longest gap. -/
theorem account_spec {s : Sorter} (hchunk : chunk.stop - chunk.start ≠ ~~~0) (hin : ∀ r ∈ regions, r.Within chunk)
    (h : account s m (chunk, regions) = some m') :
    m'.totalBytes.toNat = m.totalBytes.toNat + chunk.span.size
      ∧ m'.tally = tally chunk.span m.tally ((s.sort regions).map (·.span)) ∧ m'.chunks = m.chunks := by
  unfold account at h
  obtain ⟨n, hadd, h⟩ := Option.bind_eq_some_iff.1 h
  have htotal : n.toNat = m.totalBytes.toNat + chunk.span.size := by rw [add_eq_some hadd, size_toNat hchunk]
  have hsorted : ∀ r ∈ s.sort regions, r.Within chunk := fun r hr => hin r ((s.perm regions).mem_iff.1 hr)
  simp only at h
  cases hsort : s.sort regions with
  | nil =>
    rw [hsort] at h
    cases h
    refine ⟨?_, ?_, largest_chunks _ _⟩
    · rw [largest_totalBytes, htotal]
    · rw [largest_tally, size_toNat hchunk]
      rfl
  | cons merged rest =>
    rw [hsort] at h hsorted
    have hmerged := hsorted merged List.mem_cons_self
    obtain ⟨htally, hbytes, hcount⟩ := merge_tally hchunk hmerged (fun r hr => hsorted r (List.mem_cons_of_mem _ hr)) h
    refine ⟨?_, ?_, hcount.trans (largest_chunks _ _)⟩
    · rw [hbytes, largest_totalBytes, htotal]
    · rw [htally, largest_tally, UInt64.toNat_sub_of_le _ _ hmerged.1]
      rfl

theorem sorter_spans (s : Sorter) (regions : List Interval) : Sorted ((s.sort regions).map (·.span)) := by
  rw [Sorted, List.pairwise_map]
  apply (s.sorted regions).imp
  intro i j hij
  exact UInt64.le_iff_toNat_le.1 hij

end Sizes

/-! ## All chunks -/

def Interval.Apart (i j : Interval) : Prop := i.stop < j.start ∨ j.stop < i.start

theorem separate_pairwise {l : List Interval} (h : separate l = true) : l.Pairwise fun i j => i.stop < j.start := by
  induction l with
  | nil => exact .nil
  | cons i l ih =>
    cases l with
    | nil => exact List.pairwise_singleton _ _
    | cons j rest =>
      rw [separate, Bool.and_eq_true, decide_eq_true_eq] at h
      have htail := ih h.2
      refine List.pairwise_cons.2 ⟨?_, htail⟩
      intro k hk
      rcases List.mem_cons.1 hk with rfl | hk
      · exact h.1
      · exact UInt64.lt_trans (UInt64.lt_of_lt_of_le h.1 j.le) (List.rel_of_pairwise_cons htail hk)

/-- Chunks whose sorted neighbours do not meet are apart. -/
theorem chunks_apart {s : Sorter} {l : List Interval} (h : separate (s.sort l) = true) : l.Pairwise Interval.Apart := by
  have hsorted : (s.sort l).Pairwise Interval.Apart := (separate_pairwise h).imp .inl
  exact ((s.perm l).pairwise_iff fun hij => Or.symm hij).1 hsorted

/-- A chunk with the ranges counted as its allocations. -/
abbrev Part := Interval × List Interval

def Part.covered (part : Part) : Set Nat := Lib.Intervals.covered (part.2.map (·.span))

/-- What the loop over the chunks relies on. -/
structure Part.Proper (part : Part) : Prop where
  bounded : part.1.stop - part.1.start ≠ ~~~0
  within : ∀ r ∈ part.2, r.Within part.1

section Parts
variable {s : Sorter} {part : Part} {parts : List Part} {m m' : Memory} {S : Set Nat}

theorem Part.Proper.mem_chunk (h : part.Proper) {a : Nat} (ha : a ∈ part.covered) :
    part.1.start.toNat ≤ a ∧ a ≤ part.1.stop.toNat := by
  obtain ⟨_, hmem, hlo, hhi⟩ := ha
  obtain ⟨r, hr, rfl⟩ := List.mem_map.1 hmem
  have hstart := UInt64.le_iff_toNat_le.1 (h.within r hr).1
  have hstop := UInt64.le_iff_toNat_le.1 (h.within r hr).2
  rw [Interval.span_lo] at hlo
  rw [Interval.span_hi] at hhi
  omega

theorem account_covered (hp : part.Proper) (h : account s m part = some m') :
    m'.allocatedBytes.toNat = m.allocatedBytes.toNat + part.covered.ncard := by
  obtain ⟨-, htally, -⟩ := account_spec hp.bounded hp.within h
  have hsize := congrArg Tally.size htally
  rw [tally_size (sorter_spans s part.2), covered_perm ((s.perm part.2).map _)] at hsize
  exact hsize

theorem account_largest (hp : part.Proper) (h : account s m part = some m')
    (hm : IsGreatest S m.largestFreeExtentBytes.toNat) :
    IsGreatest (S ∪ {n | Free part.1.start.toNat (part.1.stop.toNat + 1) part.covered n}) m'.largestFreeExtentBytes.toNat := by
  obtain ⟨-, htally, -⟩ := account_spec hp.bounded hp.within h
  have hgap := congrArg Tally.gap htally
  have hin : ∀ r ∈ (s.sort part.2).map (·.span), part.1.span.lo ≤ r.lo ∧ r.hi ≤ part.1.span.hi := by
    intro r hr
    obtain ⟨i, hi, rfl⟩ := List.mem_map.1 hr
    have hwithin := hp.within i ((s.perm part.2).mem_iff.1 hi)
    exact ⟨UInt64.le_iff_toNat_le.1 hwithin.1, UInt64.le_iff_toNat_le.1 hwithin.2⟩
  have hgreatest := tally_gap (t := m.tally) (sorter_spans s part.2) hin hm
  rw [covered_perm ((s.perm part.2).map _), ← hgap] at hgreatest
  exact hgreatest

/-- The whole loop: sizes and counts add up, the longest gap is the longest of
any chunk. -/
theorem accounts_spec (hp : ∀ part ∈ parts, part.Proper) (hapart : (parts.map (·.1)).Pairwise Interval.Apart)
    (hm : IsGreatest S m.largestFreeExtentBytes.toNat) (h : parts.foldlM (account s) m = some m') :
    m'.totalBytes.toNat = m.totalBytes.toNat + parts.foldr (fun part n => part.1.span.size + n) 0
      ∧ m'.allocatedBytes.toNat = m.allocatedBytes.toNat + {a | ∃ part ∈ parts, a ∈ part.covered}.ncard
      ∧ IsGreatest (S ∪ {n | ∃ part ∈ parts, Free part.1.start.toNat (part.1.stop.toNat + 1) part.covered n})
          m'.largestFreeExtentBytes.toNat := by
  induction parts generalizing m S with
  | nil =>
    cases h
    simpa using hm
  | cons part parts ih =>
    rw [List.foldlM_cons] at h
    obtain ⟨m₁, hone, hrest⟩ := Option.bind_eq_some_iff.1 h
    have hpart := hp part List.mem_cons_self
    have hparts : ∀ p ∈ parts, p.Proper := fun p hp' => hp p (List.mem_cons_of_mem _ hp')
    obtain ⟨hfirst, hlater⟩ := List.pairwise_cons.1 hapart
    obtain ⟨htotal, hcount, hlargest⟩ := ih hparts hlater (account_largest hpart hone hm) hrest
    obtain ⟨htotal₁, -, -⟩ := account_spec hpart.bounded hpart.within hone
    refine ⟨?_, ?_, ?_⟩
    · rw [htotal, htotal₁, List.foldr_cons, Nat.add_assoc]
    · -- the chunks are apart, so no address is counted twice
      have hset : {a | ∃ p ∈ part :: parts, a ∈ p.covered} = part.covered ∪ {a | ∃ p ∈ parts, a ∈ p.covered} := by
        ext a
        simp
      have hdisj : Disjoint part.covered {a | ∃ p ∈ parts, a ∈ p.covered} := by
        rw [Set.disjoint_left]
        rintro a ha ⟨p, hmem, ha'⟩
        have hin := hpart.mem_chunk ha
        have hin' := (hparts p hmem).mem_chunk ha'
        have hpp : part.1.Apart p.1 := hfirst p.1 (List.mem_map_of_mem hmem)
        rw [Interval.Apart, UInt64.lt_iff_toNat_lt, UInt64.lt_iff_toNat_lt] at hpp
        omega
      have hfinite : {a | ∃ p ∈ parts, a ∈ p.covered}.Finite := by
        have hflat := covered_finite (parts.flatMap fun p => p.2.map (·.span))
        rwa [covered_flatMap] at hflat
      rw [hcount, account_covered hpart hone, hset, Set.ncard_union_eq hdisj (covered_finite _) hfinite, Nat.add_assoc]
    · have hset : {n | ∃ p ∈ part :: parts, Free p.1.start.toNat (p.1.stop.toNat + 1) p.covered n}
          = {n | Free part.1.start.toNat (part.1.stop.toNat + 1) part.covered n}
            ∪ {n | ∃ p ∈ parts, Free p.1.start.toNat (p.1.stop.toNat + 1) p.covered n} := by
        ext n
        simp
      rw [hset, ← Set.union_assoc]
      exact hlargest

end Parts

/-! ## The result -/

theorem parse_cases {s : Sorter} {data : List UInt8} {m : Memory} (h : parse s data = some m) :
    ∃ map r, (lines data).foldlM Map.read {} = some map ∧ separate (s.sort map.chunks) = true
      ∧ (map.chunks.zip map.allocations).foldlM (account s) { chunks := map.chunks.length } = some r
      ∧ r.allocatedBytes ≤ r.totalBytes ∧ m = { r with availableBytes := r.totalBytes - r.allocatedBytes } := by
  unfold parse at h
  split at h
  · cases h
  split at h
  · cases h
  obtain ⟨map, hmap, hmeasure⟩ := Option.bind_eq_some_iff.1 h
  unfold measure at hmeasure
  split at hmeasure
  · cases hmeasure
  rename_i hchecks
  split at hmeasure
  · cases hmeasure
  rename_i r hr
  split at hmeasure
  · cases hmeasure
  rename_i hle
  cases hmeasure
  rw [not_or, not_not, not_not] at hchecks
  exact ⟨map, r, hmap, hchecks.2, hr, UInt64.not_lt.1 hle, rfl⟩

/-- The chunks with their allocations, as the map's entries give them. -/
def Pool.part (p : Pool) : Part := (p.entry.region, p.below.map (·.region))

section Result
variable {es : List Entry} {p : Pool} {a : Nat}

theorem mem_part_covered : a ∈ p.part.covered ↔ ∃ d ∈ p.below, d.region.start.toNat ≤ a ∧ a ≤ d.region.stop.toNat := by
  simp [Part.covered, covered, Pool.part]

theorem allocated_eq (es : List Entry) : Allocated es = {a | ∃ part ∈ (pools es).map Pool.part, a ∈ part.covered} := by
  ext a
  simp [Allocated, mem_part_covered]

theorem total_eq (es : List Entry) : total es = ((pools es).map Pool.part).foldr (fun part n => part.1.span.size + n) 0 := by
  rw [List.foldr_map]
  rfl

/-- Inside a chunk only its own descendants are allocated. -/
theorem freeRun_eq (hproper : ∀ part ∈ (pools es).map Pool.part, part.Proper)
    (hapart : (pools es).Pairwise fun p q => p.entry.region.Apart q.entry.region) :
    {n | FreeRun es n} = {n | ∃ part ∈ (pools es).map Pool.part,
      Free part.1.start.toNat (part.1.stop.toNat + 1) part.covered n} := by
  have hown : ∀ p ∈ pools es, ∀ x, p.entry.region.start.toNat ≤ x → x < p.entry.region.stop.toNat + 1 →
      (x ∈ Allocated es ↔ x ∈ p.part.covered) := by
    intro p hp x hlo hhi
    rw [allocated_eq]
    constructor
    · rintro ⟨_, hmem, hx⟩
      obtain ⟨q, hq, rfl⟩ := List.mem_map.1 hmem
      by_cases hpq : p = q
      · rwa [hpq]
      · have hin := (hproper _ hmem).mem_chunk hx
        have hsymm : Std.Symm fun p q : Pool => p.entry.region.Apart q.entry.region := ⟨fun _ _ h => Or.symm h⟩
        have hdisjoint : p.entry.region.Apart q.entry.region := hapart.forall hp hq hpq
        have hq1 : q.part.1 = q.entry.region := rfl
        rw [Interval.Apart, UInt64.lt_iff_toNat_lt, UInt64.lt_iff_toNat_lt] at hdisjoint
        rw [hq1] at hin
        omega
    · intro hx
      exact ⟨p.part, List.mem_map_of_mem hp, hx⟩
  ext n
  simp only [FreeRun, List.mem_map, Set.mem_ofPred_eq]
  constructor
  · rintro ⟨p, hp, hfree⟩
    exact ⟨p.part, ⟨p, hp, rfl⟩, (free_congr (hown p hp)).1 hfree⟩
  · rintro ⟨_, ⟨p, hp, rfl⟩, hfree⟩
    exact ⟨p, hp, (free_congr (hown p hp)).2 hfree⟩

end Result

/-- What an accepted map is measured to be: the chunks' sizes, the addresses
below them, what is left, and the longest run of free addresses in a chunk,
which is 0 where there is no chunk. -/
theorem parseMemory_exact (s : Sorter) (data : List UInt8) (m : Memory) (h : parseMemory s data = .ok m) :
    ∃ es, entries data = some es
      ∧ m.totalBytes.toNat = total es
      ∧ m.allocatedBytes.toNat = (Allocated es).ncard
      ∧ (Allocated es).ncard ≤ total es ∧ m.availableBytes.toNat = total es - (Allocated es).ncard
      ∧ IsGreatest (insert 0 {n | FreeRun es n}) m.largestFreeExtentBytes.toNat := by
  have hparse : parse s data = some m := by
    unfold parseMemory at h
    split at h
    · cases h
    · rename_i hsome
      cases h
      exact hsome
  obtain ⟨map, r, hread, hsep, hfold, hle, rfl⟩ := parse_cases hparse
  obtain ⟨es, hes, ht⟩ := tracks_nil.read hread
  rw [List.nil_append] at ht
  have hparts : map.chunks.zip map.allocations = (pools es).map Pool.part := by
    rw [ht.chunks, ht.allocations, List.zip_map']
    rfl
  have hproper : ∀ part ∈ (pools es).map Pool.part, part.Proper := by
    intro part hpart
    obtain ⟨p, hp, rfl⟩ := List.mem_map.1 hpart
    refine ⟨p.entry.bounded, ?_⟩
    intro r hr
    obtain ⟨d, hd, rfl⟩ := List.mem_map.1 hr
    exact ht.nested p hp d hd
  have hapart := chunks_apart hsep
  rw [ht.chunks, List.pairwise_map] at hapart
  have hstart : IsGreatest {0} (Memory.largestFreeExtentBytes { chunks := map.chunks.length }).toNat := by
    simp
  rw [hparts] at hfold
  obtain ⟨htotal, hcount, hlargest⟩ := accounts_spec hproper (by rwa [List.map_map, List.pairwise_map]) hstart hfold
  simp only [UInt64.toNat_zero, Nat.zero_add] at htotal hcount
  rw [← total_eq] at htotal
  rw [← allocated_eq] at hcount
  rw [← freeRun_eq hproper hapart] at hlargest
  refine ⟨es, hes, htotal, hcount, ?_, ?_, hlargest⟩
  · rw [← htotal, ← hcount]
    exact UInt64.le_iff_toNat_le.1 hle
  · rw [UInt64.toNat_sub_of_le _ _ hle, htotal, hcount]

/-- Sorting by insertion is one way to sort. -/
def insertion : Sorter where
  sort := List.insertionSort fun i j => i.start ≤ j.start
  perm := List.perm_insertionSort _
  sorted l := by
    have htotal : Std.Total fun i j : Interval => i.start ≤ j.start := ⟨fun i j => UInt64.le_total i.start j.start⟩
    have htrans : IsTrans Interval fun i j => i.start ≤ j.start := ⟨fun _ _ _ h h' => UInt64.le_trans h h'⟩
    exact List.pairwise_insertionSort _ l

/-- Two ranges in a chunk that overlap, a third beside it, and the rest free. -/
def sampleMap : List UInt8 :=
  ascii "0-ff : System RAM\n  10-4f : Multikernel Memory Pool\n    18-1f : a\n      18-1b : b\n    1c-23 : c\n  50-5f : d\n"

theorem parseMemory_sample :
    parseMemory insertion sampleMap = .ok ⟨44, 1, 64, 12, 52⟩ ∧ ∃ es, entries sampleMap = some es
      ∧ total es = 64 ∧ (Allocated es).ncard = 12 ∧ IsGreatest (insert 0 {n | FreeRun es n}) 44 := by
  have hrun : parseMemory insertion sampleMap = .ok ⟨44, 1, 64, 12, 52⟩ := by decide +kernel
  obtain ⟨es, hes, htotal, hcount, -, -, hlargest⟩ := parseMemory_exact insertion sampleMap _ hrun
  exact ⟨hrun, es, hes, htotal.symm, hcount.symm, hlargest⟩

end Multikernel.Poolinspect
