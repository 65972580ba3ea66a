import TakeADump.Drive.Read

/-!
# Which bytes a read command addresses

`DVD_LowRead64` hands a 64-bit offset to two 32-bit registers, in units that depend on the command. Behind its guard
nothing is lost but what lies below the unit (`addr_readRequest`), so a whole range comes out as it went in
(`range_readRequest`).
-/

namespace TakeADump

/-- The bytes one step of `dvd[3]` stands for. -/
def addressUnit (readCmd : UInt32) : Nat := if readCmd = dvdDvdr then 2048 else 4

/-- The bytes one step of `dvd[4]` stands for. -/
def lengthUnit (readCmd : UInt32) : Nat := if readCmd = dvdDvdr then 2048 else 1

theorem Request.range_eq (r : Request) :
    r.range = ⟨r.addr.toNat * addressUnit r.cmd, r.len.toNat * lengthUnit r.cmd⟩ := by
  unfold Request.range addressUnit lengthUnit
  split
  · rfl
  · rw [Nat.mul_one]

section Encoding

variable (e : Env) (dst : Region) (len : UInt32) {offset : UInt64} (readCmd : UInt32)

/-- The address register, in units. -/
theorem toNat_addr_readRequest (h : offset.toNat < 2 ^ 34) :
    (readRequest e dst len offset readCmd).addr.toNat = offset.toNat / addressUnit readCmd := by
  unfold readRequest addressUnit
  dsimp only
  split
  · rw [UInt64.toNat_toUInt32, UInt64.toNat_shiftRight, Nat.shiftRight_eq_div_pow]
    exact Nat.mod_eq_of_lt (Nat.lt_of_le_of_lt (Nat.div_le_div_right (Nat.le_of_lt h)) (by decide))
  · rw [UInt64.toNat_toUInt32, UInt64.toNat_shiftRight, Nat.shiftRight_eq_div_pow]
    refine Nat.mod_eq_of_lt (Nat.div_lt_of_lt_mul ?_)
    exact Nat.lt_of_lt_of_eq h (by decide)

/-- The length register, in units. -/
theorem toNat_len_readRequest :
    (readRequest e dst len offset readCmd).len.toNat = len.toNat / lengthUnit readCmd := by
  unfold readRequest lengthUnit
  dsimp only
  split
  · rw [UInt32.toNat_shiftRight, Nat.shiftRight_eq_div_pow]
    rfl
  · rw [Nat.div_one]

/-- The address, rounded down to the unit. -/
theorem addr_readRequest (h : offset.toNat < 2 ^ 34) : (readRequest e dst len offset readCmd).addr.toNat *
    addressUnit readCmd = offset.toNat / addressUnit readCmd * addressUnit readCmd := by
  rw [toNat_addr_readRequest e dst len readCmd h]

/-- A range of whole sectors is commanded as it is. -/
theorem range_readRequest (h : offset.toNat < 2 ^ 34) (hoffset : sectorSize ∣ offset.toNat)
    (hlen : sectorSize ∣ len.toNat) :
    (readRequest e dst len offset readCmd).range = ⟨offset.toNat, len.toNat⟩ := by
  have haddr : addressUnit readCmd ∣ sectorSize := by
    unfold addressUnit
    split <;> decide
  have hunit : lengthUnit readCmd ∣ sectorSize := by
    unfold lengthUnit
    split <;> decide
  rw [Request.range_eq, toNat_addr_readRequest e dst len readCmd h, toNat_len_readRequest]
  show Range.mk (_ / _ * addressUnit readCmd) (_ / _ * lengthUnit readCmd) = _
  rw [Nat.div_mul_cancel (Nat.dvd_trans haddr hoffset), Nat.div_mul_cancel (Nat.dvd_trans hunit hlen)]

end Encoding

/-! ## One call -/

variable (e : Env) (dst : Region) (len : UInt32) (offset : UInt64) (w : World)

/-- Only a rejected offset gives -1. -/
theorem readResult_eq_neg_one : readResult e dst len offset w = -1 ↔ 2 ^ 34 ≤ offset.toNat := by
  have hacc := accepts_iff offset
  unfold readResult
  split
  · have hlt := hacc.1 ‹_›
    split <;> omega
  · have hge := mt hacc.2 ‹_›
    omega

/-- A rejected offset changes nothing. -/
theorem readOnce_rejected (h : 2 ^ 34 ≤ offset.toNat) : readOnce e dst len offset w = w :=
  if_neg fun hacc => by have := (accepts_iff offset).1 hacc; omega

/-- The command stays in the registers. -/
theorem pending_readOnce (h : offset.toNat < 2 ^ 34) :
    (readOnce e dst len offset w).pending = readRequest e dst len offset w.readCmd := by
  rw [readOnce, if_pos ((accepts_iff offset).2 h), ← pending_readRegs]
  unfold readAccepted World.pending
  dsimp only
  split <;> simp

end TakeADump
