import Mathlib.Data.Int.Log
import Mathlib.Data.Rat.Floor
import Mathlib.Tactic.Linarith
import Mathlib.Tactic.Positivity
import Mathlib.Tactic.FieldSimp
import Mathlib.Tactic.GCongr
import Mathlib.Tactic.Zify

/-!
# Binary floating point numbers

The rounding of a binary format with `p` bits of precision and least exponent `emin`, on exact rationals: `round` goes
to the nearest multiple of the quantum of a number, and to the even one of two. There is no overflow.

* Numbers of the format stay (`round_of_fits`).
* The order stays (`round_mono`).
* The relative error is at most half a unit in the last place (`abs_round_sub_le`).
-/

namespace Rounding

/-! ## Integers -/

/-- The nearest integer, the even one of two. -/
def nearest (x : ℚ) : ℤ :=
  if 2 * Int.fract x < 1 then ⌊x⌋ else if 1 < 2 * Int.fract x then ⌊x⌋ + 1 else ⌊x⌋ + ⌊x⌋ % 2

@[simp] theorem nearest_intCast (m : ℤ) : nearest m = m := by simp [nearest]

theorem abs_nearest_sub_le (x : ℚ) : |(nearest x : ℚ) - x| ≤ 1 / 2 := by
  have hfract := Int.self_sub_floor x
  have hpos := Int.fract_nonneg x
  have hlt := Int.fract_lt_one x
  unfold nearest
  split_ifs with hlow hhigh
  · rw [abs_le]
    constructor <;> linarith
  · rw [abs_le]
    push_cast
    constructor <;> linarith
  · rw [abs_le]
    rcases Int.emod_two_eq_zero_or_one ⌊x⌋ with hmod | hmod
    · rw [hmod]
      push_cast
      constructor <;> linarith
    · rw [hmod]
      push_cast
      constructor <;> linarith

theorem nearest_mono {x y : ℚ} (h : x ≤ y) : nearest x ≤ nearest y := by
  have hfloor := Int.floor_mono h
  have hx := Int.self_sub_floor x
  have hy := Int.self_sub_floor y
  rcases hfloor.eq_or_lt with heq | hlt
  · have hfract : Int.fract x ≤ Int.fract y := by
      rw [← hx, ← hy, heq]
      linarith
    unfold nearest
    rw [heq]
    split_ifs <;> first | omega | (exfalso; linarith)
  · have hle : nearest x ≤ ⌊x⌋ + 1 := by
      unfold nearest
      split_ifs <;> omega
    have hge : ⌊y⌋ ≤ nearest y := by
      unfold nearest
      split_ifs <;> omega
    omega

/-! ## The format -/

section Format

variable (p : ℕ) (emin : ℤ)

/-- The distance of the numbers of the format around `x`. -/
def quantum (x : ℚ) : ℚ := 2 ^ max (Int.log 2 |x| - (p - 1)) emin

/-- The nearest number of the format. -/
def round (x : ℚ) : ℚ := nearest (x / quantum p emin x) * quantum p emin x

variable {p emin} {x y : ℚ}

theorem quantum_pos : 0 < quantum p emin x := zpow_pos two_pos _

/-- The error is at most half the quantum. -/
theorem abs_round_sub_le_quantum : |round p emin x - x| ≤ quantum p emin x / 2 := by
  have hpos : 0 < quantum p emin x := quantum_pos
  have hx : x = x / quantum p emin x * quantum p emin x := (div_mul_cancel₀ x hpos.ne').symm
  calc |round p emin x - x|
      = |((nearest (x / quantum p emin x) : ℚ) - x / quantum p emin x) * quantum p emin x| := by
        rw [sub_mul, ← hx, round]
    _ = |(nearest (x / quantum p emin x) : ℚ) - x / quantum p emin x| * quantum p emin x := by
        rw [abs_mul, abs_of_pos hpos]
    _ ≤ 1 / 2 * quantum p emin x := mul_le_mul_of_nonneg_right (abs_nearest_sub_le _) hpos.le
    _ = quantum p emin x / 2 := by ring

/-- A number in the normal range is at least `2 ^ (p - 1)` quanta. -/
theorem quantum_le (hp : 1 ≤ p) (hx : (2 : ℚ) ^ (emin + (p - 1)) ≤ x) : quantum p emin x ≤ x * 2 ^ (1 - (p : ℤ)) := by
  have hpos : 0 < x := lt_of_lt_of_le (zpow_pos two_pos _) hx
  have hlog : emin + (p - 1) ≤ Int.log 2 x := (Int.zpow_le_iff_le_log one_lt_two hpos).1 (by exact_mod_cast hx)
  unfold quantum
  rw [abs_of_pos hpos, max_eq_left (by omega)]
  calc (2 : ℚ) ^ (Int.log 2 x - (p - 1)) = 2 ^ Int.log 2 x * 2 ^ (1 - (p : ℤ)) := by
        rw [← zpow_add₀ two_ne_zero]
        congr 1
        ring
    _ ≤ x * 2 ^ (1 - (p : ℤ)) := by
        have hle : ((2 : ℕ) : ℚ) ^ Int.log 2 x ≤ x := Int.zpow_log_le_self one_lt_two hpos
        exact mul_le_mul_of_nonneg_right hle (zpow_pos two_pos _).le

/-- **The relative error** is at most half a unit in the last place. -/
theorem abs_round_sub_le (hp : 1 ≤ p) (hx : (2 : ℚ) ^ (emin + (p - 1)) ≤ x) :
    |round p emin x - x| ≤ x * 2 ^ (-(p : ℤ)) := by
  refine abs_round_sub_le_quantum.trans ?_
  have h := quantum_le hp hx
  have hhalf : x * 2 ^ (1 - (p : ℤ)) = x * 2 ^ (-(p : ℤ)) * 2 := by
    rw [sub_eq_neg_add, zpow_add₀ two_ne_zero, zpow_one, mul_assoc]
  linarith

/-- **Numbers of the format** are not changed. -/
theorem round_of_fits {m k : ℤ} (hm : |m| < 2 ^ p) (hk : emin ≤ k) :
    round p emin ((m : ℚ) * 2 ^ k) = m * 2 ^ k := by
  rcases eq_or_ne m 0 with rfl | hne
  · simp [round, nearest]
  have hpos : 0 < |(m : ℚ) * 2 ^ k| := abs_pos.2 (mul_ne_zero (Int.cast_ne_zero.2 hne) (zpow_pos two_pos k).ne')
  have hlt : |(m : ℚ) * 2 ^ k| < ((2 : ℕ) : ℚ) ^ ((p : ℤ) + k) := by
    rw [abs_mul, abs_of_pos (zpow_pos (two_pos : (0 : ℚ) < 2) k), Nat.cast_ofNat, zpow_add₀ two_ne_zero, zpow_natCast]
    exact mul_lt_mul_of_pos_right (by exact_mod_cast hm) (zpow_pos two_pos k)
  have hlog := (Int.lt_zpow_iff_log_lt one_lt_two hpos).1 hlt
  -- the quantum is `2 ^ (k - n)`, so the number is a multiple of it
  obtain ⟨n, hn⟩ : ∃ n : ℕ, max (Int.log 2 |(m : ℚ) * 2 ^ k| - (p - 1)) emin = k - n :=
    ⟨(k - max (Int.log 2 |(m : ℚ) * 2 ^ k| - (p - 1)) emin).toNat, by omega⟩
  have hmul : (m : ℚ) * 2 ^ k / quantum p emin ((m : ℚ) * 2 ^ k) = ((m * 2 ^ n : ℤ) : ℚ) := by
    rw [quantum, hn, zpow_sub₀ two_ne_zero, zpow_natCast]
    push_cast
    field_simp
  rw [round, hmul, nearest_intCast, ← hmul, div_mul_cancel₀ _ quantum_pos.ne']

theorem round_intCast {m : ℤ} (hm : |m| < 2 ^ p) (h : emin ≤ 0) : round p emin m = m := by
  have hfits : round p emin (m * 2 ^ (0 : ℤ)) = m * 2 ^ (0 : ℤ) := round_of_fits hm h
  rwa [zpow_zero, mul_one] at hfits

theorem round_nonneg (hx : 0 ≤ x) : 0 ≤ round p emin x := by
  have h : nearest ((0 : ℤ) : ℚ) ≤ nearest (x / quantum p emin x) :=
    nearest_mono (by rw [Int.cast_zero]; exact div_nonneg hx quantum_pos.le)
  rw [nearest_intCast] at h
  exact mul_nonneg (Int.cast_nonneg h) quantum_pos.le

/-- A multiple of the quantum above a number is above its rounding. -/
theorem round_le_of_multiple {m : ℤ} (h : x ≤ m * quantum p emin x) : round p emin x ≤ m * quantum p emin x := by
  have hle := nearest_mono ((div_le_iff₀ quantum_pos).2 h)
  rw [nearest_intCast] at hle
  exact mul_le_mul_of_nonneg_right (Int.cast_le.2 hle) quantum_pos.le

/-- A multiple of the quantum below a number is below its rounding. -/
theorem le_round_of_multiple {m : ℤ} (h : m * quantum p emin x ≤ x) : m * quantum p emin x ≤ round p emin x := by
  have hle := nearest_mono ((le_div_iff₀ quantum_pos).2 h)
  rw [nearest_intCast] at hle
  exact mul_le_mul_of_nonneg_right (Int.cast_le.2 hle) quantum_pos.le

/-- **The order stays.** -/
theorem round_mono (hp : 1 ≤ p) (hx : 0 ≤ x) (h : x ≤ y) : round p emin x ≤ round p emin y := by
  rcases hx.eq_or_lt with rfl | hpos
  · have hzero : round p emin 0 = 0 := by simp [round, nearest]
    rw [hzero]
    exact round_nonneg h
  have hypos : 0 < y := hpos.trans_le h
  have hlog := Int.log_mono_right (b := 2) hpos h
  have hqx : quantum p emin x = 2 ^ max (Int.log 2 x - (p - 1)) emin := by rw [quantum, abs_of_pos hpos]
  have hqy : quantum p emin y = 2 ^ max (Int.log 2 y - (p - 1)) emin := by rw [quantum, abs_of_pos hypos]
  rcases (show max (Int.log 2 x - (p - 1)) emin ≤ max (Int.log 2 y - (p - 1)) emin by omega).eq_or_lt with heq | hlt
  · -- the same quantum
    have hq : quantum p emin x = quantum p emin y := by rw [hqx, hqy, heq]
    unfold round
    rw [hq]
    exact mul_le_mul_of_nonneg_right (Int.cast_le.2 (nearest_mono (div_le_div_of_nonneg_right h quantum_pos.le)))
      quantum_pos.le
  · -- the power of two below `y` lies between the two, and is a multiple of both quanta
    obtain ⟨n, hn⟩ : ∃ n : ℕ, Int.log 2 y = n + max (Int.log 2 x - (p - 1)) emin :=
      ⟨(Int.log 2 y - max (Int.log 2 x - (p - 1)) emin).toNat, by omega⟩
    obtain ⟨m, hm⟩ : ∃ m : ℕ, Int.log 2 y = m + max (Int.log 2 y - (p - 1)) emin := ⟨p - 1, by omega⟩
    have hx' : (2 : ℚ) ^ Int.log 2 y = ((2 ^ n : ℤ) : ℚ) * quantum p emin x := by
      rw [hn, zpow_add₀ two_ne_zero, zpow_natCast, hqx]
      push_cast
      rfl
    have hy' : (2 : ℚ) ^ Int.log 2 y = ((2 ^ m : ℤ) : ℚ) * quantum p emin y := by
      rw [hm, zpow_add₀ two_ne_zero, zpow_natCast, hqy]
      push_cast
      rfl
    have hxle : x ≤ 2 ^ Int.log 2 y := by
      have hlt : x < ((2 : ℕ) : ℚ) ^ Int.log 2 y := (Int.lt_zpow_iff_log_lt one_lt_two hpos).2 (by omega)
      exact hlt.le
    have hyle : (2 : ℚ) ^ Int.log 2 y ≤ y := Int.zpow_log_le_self one_lt_two hypos
    calc round p emin x ≤ 2 ^ Int.log 2 y := hx' ▸ round_le_of_multiple (hx' ▸ hxle)
      _ ≤ round p emin y := hy' ▸ le_round_of_multiple (hy' ▸ hyle)

end Format

end Rounding
