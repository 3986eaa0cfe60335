import Multikernel.Lifecycle.Runs
/-!
# Memory admission

`Create` adds up the memory of the existing sandboxes in unsigned 64-bit
arithmetic, in the order in which the map is ranged over, and stops at the first
one that no longer fits. The sum so far never exceeds the usable memory, so
nothing wraps, and the check is the one on natural numbers
(`memory_admission`). It rests on the request being positive, which
`validateConfig` has checked: a request for nothing would pass beside sandboxes
that are over the limit.
-/

namespace Multikernel
variable {usable allocated : UInt64}

/-- What the sandboxes not labelled ABSENT have, as a natural number. -/
def committedMemory : List Sandbox → Nat
  | [] => 0
  | x :: xs => if x.state = .absent then committedMemory xs else x.config.memoryBytes.toNat + committedMemory xs

theorem committedMemory_perm {xs ys : List Sandbox} (h : xs.Perm ys) : committedMemory xs = committedMemory ys := by
  induction h with
  | nil => rfl
  | cons x _ ih => simp only [committedMemory, ih]
  | swap x y xs =>
    simp only [committedMemory]
    split_ifs <;> omega
  | trans _ _ ih ih' => exact ih.trans ih'

namespace Service

/-- The difference the loop compares with is the one of natural numbers. -/
def ExactDifference (usable allocated : UInt64) : Prop := (usable - allocated).toNat + allocated.toNat = usable.toNat

/-- No subtraction and no addition of the memory loop wraps, nor does the
subtraction after it. -/
def ExactLoop (usable : UInt64) : List Sandbox → UInt64 → Prop
  | [], allocated => ExactDifference usable allocated
  | x :: xs, allocated =>
    if x.state = .absent then ExactLoop usable xs allocated
    else ExactDifference usable allocated ∧
      if x.config.memoryBytes > usable - allocated then ExactDifference usable usable
      else (allocated + x.config.memoryBytes).toNat = allocated.toNat + x.config.memoryBytes.toNat ∧
        ExactLoop usable xs (allocated + x.config.memoryBytes)

theorem exactDifference_of_le (h : allocated.toNat ≤ usable.toNat) : ExactDifference usable allocated := by
  unfold ExactDifference
  rw [UInt64.toNat_sub_of_le _ _ (UInt64.le_iff_toNat_le.2 h)]
  omega

/-- What fits into the rest can be added. -/
theorem toNat_add_of_fits {size : UInt64} (h : allocated.toNat ≤ usable.toNat) (hfits : ¬size > usable - allocated) :
    (allocated + size).toNat = allocated.toNat + size.toNat ∧ allocated.toNat + size.toNat ≤ usable.toNat := by
  have hexact := exactDifference_of_le h
  have hsize : size.toNat ≤ (usable - allocated).toNat := UInt64.le_iff_toNat_le.1 (UInt64.not_lt.1 hfits)
  have hbound := usable.toNat_lt
  unfold ExactDifference at hexact
  have hsum : allocated.toNat + size.toNat ≤ usable.toNat := by omega
  refine ⟨?_, hsum⟩
  rw [UInt64.toNat_add, Nat.mod_eq_of_lt (by omega)]

/-- The loop never leaves the usable memory, so it is exact. -/
theorem exactLoop_of_le (xs : List Sandbox) (h : allocated.toNat ≤ usable.toNat) : ExactLoop usable xs allocated := by
  induction xs generalizing allocated with
  | nil => exact exactDifference_of_le h
  | cons x xs ih =>
    unfold ExactLoop
    split
    · exact ih h
    · refine ⟨exactDifference_of_le h, ?_⟩
      split
      · exact exactDifference_of_le le_rfl
      · rename_i hfits
        obtain ⟨hadd, hsum⟩ := toNat_add_of_fits h hfits
        exact ⟨hadd, ih (hadd ▸ hsum)⟩

/-- The loop ends at the sum, or at the usable memory if the sum is larger. -/
theorem allocatedMemory_eq (xs : List Sandbox) (h : allocated.toNat ≤ usable.toNat) :
    (allocatedMemory usable xs allocated).toNat = min usable.toNat (allocated.toNat + committedMemory xs) := by
  induction xs generalizing allocated with
  | nil =>
    simp only [allocatedMemory, committedMemory]
    omega
  | cons x xs ih =>
    simp only [allocatedMemory, committedMemory]
    split
    · exact ih h
    · split
      · rename_i hover
        have hexact := exactDifference_of_le h
        have hsize := UInt64.lt_iff_toNat_lt.1 hover
        unfold ExactDifference at hexact
        omega
      · rename_i hfits
        obtain ⟨hadd, hsum⟩ := toNat_add_of_fits h hfits
        rw [ih (hadd ▸ hsum), hadd, Nat.add_assoc]

theorem usableMemory_toNat (s : Service) :
    s.usableMemory.toNat = s.poolMemoryBytes.toNat - s.poolMemoryReserve.toNat := by
  unfold usableMemory
  split
  · rename_i h
    exact UInt64.toNat_sub_of_le _ _ (UInt64.le_of_lt h)
  · rename_i h
    have hle := UInt64.le_iff_toNat_le.1 (UInt64.not_lt.1 h)
    rw [UInt64.toNat_zero]
    omega

theorem validateConfig_memory {c : SandboxConfig} (h : validateConfig c = none) : 0 < c.memoryBytes.toNat := by
  unfold validateConfig at h
  split at h
  · cases h
  split at h
  · cases h
  split at h
  · cases h
  split at h
  · cases h
  split at h
  · cases h
  · rename_i hmem
    have hle := UInt64.le_iff_toNat_le.1 (UInt64.not_lt.1 hmem)
    have hmin : (512 * 2 ^ 20 : UInt64).toNat = 536870912 := by decide
    omega

/-- With a pool, a request passes the memory check in every order of the map
exactly if the sandboxes and the request fit into the usable memory, and nothing
wraps on the way. -/
theorem memory_admission (s : Service) (c : SandboxConfig) (d : Snapshot) (hpool : s.poolMemoryBytes ≠ 0)
    (hc : validateConfig c = none) (order : List Sandbox) (horder : order.Perm d.list) :
    (s.memoryExceeded c order = false ↔
      committedMemory d.list + c.memoryBytes.toNat ≤ s.poolMemoryBytes.toNat - s.poolMemoryReserve.toNat) ∧
    s.usableMemory.toNat = s.poolMemoryBytes.toNat - s.poolMemoryReserve.toNat ∧ ExactLoop s.usableMemory order 0 := by
  have hzero : (0 : UInt64).toNat ≤ s.usableMemory.toNat := Nat.zero_le _
  have hloop := allocatedMemory_eq order hzero
  have husable := s.usableMemory_toNat
  have hpos := validateConfig_memory hc
  rw [committedMemory_perm horder, UInt64.toNat_zero] at hloop
  have hexact : ExactDifference s.usableMemory (allocatedMemory s.usableMemory order 0) :=
    exactDifference_of_le (by omega)
  refine ⟨?_, husable, exactLoop_of_le order hzero⟩
  unfold ExactDifference at hexact
  rw [memoryExceeded, Bool.and_eq_false_iff, decide_eq_false_iff_not, decide_eq_false_iff_not, UInt64.not_lt,
    UInt64.le_iff_toNat_le]
  constructor
  · rintro (h | h)
    · exact absurd hpool h
    · omega
  · intro h
    right
    omega

def sampleSandbox (id : String) (n : Nat) (state : State) : Sandbox :=
  { id, generation := hexGeneration n, state, error := none, config := sampleConfig id n, storage := none, createdAt := n, updatedAt := n }

/-- Three sandboxes, one of them labelled ABSENT, and room for three. -/
def threeSandboxes : Snapshot :=
  ⟨7, ((∅ : Table Sandbox).insert "a" (sampleSandbox "a" 1 .running)).insert "b" (sampleSandbox "b" 2 .absent)
    |>.insert "c" (sampleSandbox "c" 3 .created), ∅⟩

def threeFit : Service := { poolMemoryBytes := 2147483648, poolMemoryReserve := 536870912 }

theorem memory_admission_reversed :
    threeSandboxes.list.map (·.state) = [.created, .absent, .running] ∧
      threeFit.memoryExceeded (sampleConfig "d" 4) threeSandboxes.list.reverse = false ∧
      ExactLoop threeFit.usableMemory threeSandboxes.list.reverse 0 := by
  have hc : validateConfig (sampleConfig "d" 4) = none := by decide +kernel
  have h := memory_admission threeFit (sampleConfig "d" 4) threeSandboxes (by decide) hc _ (List.reverse_perm _)
  exact ⟨by decide +kernel, h.1.2 (by decide +kernel), h.2.2⟩

end Service

end Multikernel
