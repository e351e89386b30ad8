import Mathlib.Data.List.Basic

/-! Little-endian reads of a byte buffer.  A read that does not lie in the buffer has no value. -/

namespace A2Wave.Buffer

abbrev Bytes := List UInt8

def littleEndian : Bytes → Nat
  | [] => 0
  | b :: bs => b.toNat + 256 * littleEndian bs

/-- The number in the `width` bytes from `offset`. -/
def read? (bytes : Bytes) (width offset : Nat) : Option Nat :=
  if offset + width ≤ bytes.length then some (littleEndian ((bytes.drop offset).take width)) else none

/-- `subarray`: the bounds are clamped. -/
def subarray (bytes : Bytes) (start stop : Nat) : Bytes := (bytes.take stop).drop start

variable {bytes : Bytes} {width offset : Nat}

theorem read?_of_le (h : offset + width ≤ bytes.length) : ∃ n, read? bytes width offset = some n := ⟨_, if_pos h⟩

theorem length_subarray {start stop : Nat} (h : start ≤ stop) (hstop : stop ≤ bytes.length) :
    (subarray bytes start stop).length = stop - start := by
  rw [subarray, List.length_drop, List.length_take]
  omega

end A2Wave.Buffer
