import Mathlib.Data.Nat.Prime.Basic
import Mathlib.RingTheory.Coprime.Lemmas
import TakeADump.Model.Console

/-!
# Percentages

* Whatever the size of the disc, the percentage grows with what is done (`percentOf_mono`), lies between 0 and 100
  (`percentOf_bounds`) and is 100 at the end (`percentOf_self`): rounding keeps the order.
* For every size below `2 ^ 44` that 5 does not divide it is the exact one (`percentOf_eq`): the roundings lose less
  than the distance to the next middle of two integers, and the middles that are hit are eighths, which have a `double`.
-/

namespace TakeADump

/-! ## Order -/

theorem double_mono {x y : ℚ} (hx : 0 ≤ x) (h : x ≤ y) : double x ≤ double y := Rounding.round_mono (by decide) hx h

theorem double_nonneg {x : ℚ} (hx : 0 ≤ x) : 0 ≤ double x := Rounding.round_nonneg hx

theorem double_natCast {n : ℕ} (h : n < 2 ^ 53) : double n = n := by
  have hm : |(n : ℤ)| < 2 ^ 53 := by
    rw [Nat.abs_cast]
    exact_mod_cast h
  exact_mod_cast @Rounding.round_intCast 53 (-1074) _ hm (by decide)

theorem cround_mono {x y : ℚ} (hx : 0 ≤ x) (h : x ≤ y) : cround x ≤ cround y := by
  unfold cround
  rw [if_pos hx, if_pos (hx.trans h)]
  exact Int.floor_mono (by linarith)

theorem cround_natCast (n : ℕ) : cround n = n := by
  unfold cround
  rw [if_pos n.cast_nonneg]
  exact_mod_cast Int.floor_eq_iff.2 ⟨by push_cast; linarith, by push_cast; linarith⟩

section Percent

variable {o o' s : UInt64}

theorem percentOf_mono (h : o ≤ o') : percentOf o s ≤ percentOf o' s := by
  have hle : (o.toNat : ℚ) ≤ o'.toNat := by exact_mod_cast UInt64.le_iff_toNat_le.1 h
  have hs : 0 ≤ double s.toNat := double_nonneg s.toNat.cast_nonneg
  have ho : 0 ≤ double o.toNat := double_nonneg o.toNat.cast_nonneg
  have hq : double (double o.toNat / double s.toNat) ≤ double (double o'.toNat / double s.toNat) :=
    double_mono (div_nonneg ho hs) (div_le_div_of_nonneg_right (double_mono o.toNat.cast_nonneg hle) hs)
  have hpos : 0 ≤ double (double o.toNat / double s.toNat) := double_nonneg (div_nonneg ho hs)
  have hmul : 0 ≤ double (double o.toNat / double s.toNat) * 100 := mul_nonneg hpos (by norm_num)
  exact cround_mono (double_nonneg hmul) (double_mono hmul (mul_le_mul_of_nonneg_right hq (by norm_num)))

theorem percentOf_zero (s : UInt64) : percentOf 0 s = 0 := by
  have hzero : double 0 = 0 := by exact_mod_cast double_natCast (n := 0) (by norm_num)
  have hcround : cround 0 = 0 := by exact_mod_cast cround_natCast 0
  simp [percentOf, hzero, hcround]

theorem percentOf_self (hs : 0 < s.toNat) : percentOf s s = 100 := by
  have hone : double 1 = 1 := by exact_mod_cast double_natCast (n := 1) (by norm_num)
  have hhundred : double 100 = 100 := by exact_mod_cast double_natCast (n := 100) (by norm_num)
  have hcround : cround 100 = 100 := by exact_mod_cast cround_natCast 100
  have hle : (1 : ℚ) ≤ double s.toNat := by
    rw [← hone]
    exact double_mono zero_le_one (by exact_mod_cast hs)
  rw [percentOf, div_self (by linarith), hone, one_mul, hhundred, hcround]

/-- The percentage of what is done lies between 0 and 100. -/
theorem percentOf_bounds (h : o ≤ s) : 0 ≤ percentOf o s ∧ percentOf o s ≤ 100 := by
  constructor
  · have hmono := percentOf_mono (s := s) (UInt64.zero_le (a := o))
    rwa [percentOf_zero] at hmono
  · rcases Nat.eq_zero_or_pos s.toNat with hs | hs
    · have ho : o = 0 := by
        apply UInt64.toNat_inj.1
        have := UInt64.le_iff_toNat_le.1 h
        simp only [UInt64.toNat_zero]
        omega
      rw [ho, percentOf_zero]
      decide
    · exact (percentOf_mono h).trans_eq (percentOf_self hs)

/-! ## Exactness -/

/-- Two rationals round to the same integer if no midpoint of two integers comes close to the second one. -/
theorem floor_half_eq {a b d : ℚ} (hab : |a - b| < d) (hfar : ∀ k : ℤ, d ≤ |b - (k + 1 / 2)|) :
    ⌊a + 1 / 2⌋ = ⌊b + 1 / 2⌋ := by
  have hlow := Int.floor_le (b + 1 / 2)
  have hhigh := Int.lt_floor_add_one (b + 1 / 2)
  obtain ⟨hl, hr⟩ := abs_lt.1 hab
  have hbelow := hfar (⌊b + 1 / 2⌋ - 1)
  have habove := hfar ⌊b + 1 / 2⌋
  push_cast at hbelow
  rw [abs_of_nonneg (by linarith)] at hbelow
  rw [abs_of_nonpos (by linarith)] at habove
  rw [Int.floor_eq_iff]
  constructor <;> linarith

/-- `double (x)` is off by at most `2 ^ -53` of `x`. -/
theorem abs_double_sub_le {x : ℚ} (hx : (2 : ℚ) ^ (-1000 : ℤ) ≤ x) : |double x - x| ≤ x * 2 ^ (-53 : ℤ) :=
  Rounding.abs_round_sub_le (by decide) ((zpow_le_zpow_right₀ one_le_two (by decide)).trans hx)

/-- A small number of eighths or halves. -/
theorem double_dyadic {m : ℤ} {k : ℤ} (hm : |m| < 2 ^ 53) (hk : -1074 ≤ k) : double (m * 2 ^ k) = m * 2 ^ k :=
  Rounding.round_of_fits hm hk

variable {m n : ℕ}

/-- What the two roundings of a percentage lose. -/
theorem abs_percent_sub_lt (hm : 0 < m) (hmn : m ≤ n) (hn : n < 2 ^ 44) :
    |double (double ((m : ℚ) / n) * 100) - m / n * 100| < 1 / (2 * n) := by
  have hnpos : (0 : ℚ) < n := by exact_mod_cast hm.trans_le hmn
  have hmone : (1 : ℚ) ≤ m := by exact_mod_cast hm
  have hn' : (n : ℚ) < 2 ^ 44 := by exact_mod_cast hn
  have hq : (m : ℚ) / n ≤ 1 := (div_le_one hnpos).2 (by exact_mod_cast hmn)
  have hlow : (2 : ℚ) ^ (-1000 : ℤ) ≤ 1 / 2 ^ 44 :=
    calc (2 : ℚ) ^ (-1000 : ℤ) ≤ 2 ^ (-44 : ℤ) := zpow_le_zpow_right₀ one_le_two (by decide)
      _ = 1 / 2 ^ 44 := by norm_num
  have hbig : (1 : ℚ) / 2 ^ 44 ≤ m / n := div_le_div₀ (by linarith) hmone hnpos hn'.le
  have herr := abs_double_sub_le (hlow.trans hbig)
  generalize hx : (m : ℚ) / n = x at *
  obtain ⟨hl, hr⟩ := abs_le.1 herr
  have hu : (2 : ℚ) ^ (-53 : ℤ) = 1 / 9007199254740992 := by norm_num
  rw [hu] at hl hr
  have herr' := abs_double_sub_le (x := double x * 100) (by linarith)
  obtain ⟨hl', hr'⟩ := abs_le.1 herr'
  rw [hu] at hl' hr'
  have hd : (1 : ℚ) / 2 ^ 45 < 1 / (2 * n) := one_div_lt_one_div_of_lt (by linarith) (by linarith)
  rw [abs_lt]
  constructor <;> linarith

/-- The middle between two percentages is hit only at odd eighths, as `5` does not divide the size. -/
theorem eighths_of_middle {k : ℤ} (hmn : m ≤ n) (hn : 0 < n) (h5 : ¬ 5 ∣ n) (h : 200 * (m : ℤ) = (2 * k + 1) * n) :
    ∃ j : ℕ, j ≤ 8 ∧ 8 * m = j * n := by
  have hcop : IsCoprime (25 : ℤ) n := by
    have hprime : Nat.Coprime 5 n := (Nat.Prime.coprime_iff_not_dvd Nat.prime_five).2 h5
    exact_mod_cast Nat.isCoprime_iff_coprime.2 (Nat.Coprime.pow_left 2 hprime)
  have hdvd : (25 : ℤ) ∣ (2 * k + 1) * n := ⟨8 * m, by linarith⟩
  obtain ⟨j, hj⟩ := hcop.dvd_of_dvd_mul_right hdvd
  have hjn : 8 * (m : ℤ) = j * n := by
    rw [hj] at h
    linarith
  have hn' : (0 : ℤ) < n := by exact_mod_cast hn
  have hmn' : (m : ℤ) ≤ n := by exact_mod_cast hmn
  have hj0 : 0 ≤ j := by
    by_contra hneg
    nlinarith [Int.natCast_nonneg m]
  have hj8 : j ≤ 8 := by
    by_contra hbig
    nlinarith
  lift j to ℕ using hj0
  exact ⟨j, by omega, by exact_mod_cast hjn⟩

/-- **The percentage is exact**: the nearest integer to `100 * m / n`, the upper one of two, in spite of the three
roundings. -/
theorem cround_percent (hmn : m ≤ n) (hn : 0 < n) (hlt : n < 2 ^ 44) (h5 : ¬ 5 ∣ n) :
    cround (double (double ((m : ℚ) / n) * 100)) = ((200 * m + n) / (2 * n) : ℕ) := by
  have hnpos : (0 : ℚ) < n := by exact_mod_cast hn
  have hnonneg : 0 ≤ double (double ((m : ℚ) / n) * 100) :=
    double_nonneg (mul_nonneg (double_nonneg (div_nonneg m.cast_nonneg hnpos.le)) (by norm_num))
  have hexact : ⌊(m : ℚ) / n * 100 + 1 / 2⌋ = ((200 * m + n) / (2 * n) : ℕ) := by
    have hdiv : (m : ℚ) / n * 100 + 1 / 2 = ((200 * m + n : ℕ) : ℚ) / ((2 * n : ℕ) : ℚ) := by
      push_cast
      field_simp
      ring
    rw [hdiv, Rat.floor_natCast_div_natCast]
    rfl
  rw [cround, if_pos hnonneg, ← hexact]
  by_cases hmiddle : ∃ k : ℤ, 200 * (m : ℤ) = (2 * k + 1) * n
  · -- an odd number of eighths: nothing is lost
    obtain ⟨k, hk⟩ := hmiddle
    obtain ⟨j, hj8, hj⟩ := eighths_of_middle hmn hn h5 hk
    have hq : (m : ℚ) / n = (j : ℤ) * 2 ^ (-3 : ℤ) := by
      have hj' : 8 * (m : ℚ) = j * n := by exact_mod_cast hj
      have hpow : (2 : ℚ) ^ (-3 : ℤ) = 1 / 8 := by norm_num
      rw [hpow, div_eq_iff hnpos.ne']
      push_cast
      linarith
    have hd : double ((j : ℤ) * 2 ^ (-3 : ℤ)) = (j : ℤ) * 2 ^ (-3 : ℤ) :=
      double_dyadic (by rw [Nat.abs_cast]; norm_cast; omega) (by decide)
    have hd' : double ((j : ℤ) * 2 ^ (-3 : ℤ) * 100) = (j : ℤ) * 2 ^ (-3 : ℤ) * 100 := by
      have h100 : ((j : ℤ) : ℚ) * 2 ^ (-3 : ℤ) * 100 = ((25 * j : ℤ) : ℚ) * 2 ^ (-1 : ℤ) := by
        push_cast
        norm_num
        ring
      rw [h100]
      exact double_dyadic (by rw [abs_of_nonneg (by omega)]; norm_num; omega) (by decide)
    rw [hq, hd, hd']
  · rcases Nat.eq_zero_or_pos m with rfl | hm
    · have hzero : double 0 = 0 := by exact_mod_cast double_natCast (n := 0) (by norm_num)
      simp [hzero]
    refine floor_half_eq (abs_percent_sub_lt hm hmn hlt) fun k => ?_
    -- the distance to a middle is a whole number of `1 / (2 * n)`, and not zero
    have hdist : (m : ℚ) / n * 100 - (k + 1 / 2) = ((200 * m - (2 * k + 1) * n : ℤ) : ℚ) / (2 * n) := by
      push_cast
      field_simp
      ring
    have hne : 1 ≤ |200 * (m : ℤ) - (2 * k + 1) * n| := Int.one_le_abs (sub_ne_zero.2 fun h => hmiddle ⟨k, h⟩)
    rw [hdist, abs_div, abs_of_pos (by linarith : (0 : ℚ) < 2 * n), ← Int.cast_abs]
    exact div_le_div_of_nonneg_right (by exact_mod_cast hne) (by linarith)

theorem percentOf_eq (h : o ≤ s) (hs : 0 < s.toNat) (hlt : s.toNat < 2 ^ 44) (h5 : ¬ 5 ∣ s.toNat) :
    percentOf o s = ((200 * o.toNat + s.toNat) / (2 * s.toNat) : ℕ) := by
  have hle := UInt64.le_iff_toNat_le.1 h
  rw [percentOf, double_natCast (show o.toNat < 2 ^ 53 by omega), double_natCast (show s.toNat < 2 ^ 53 by omega)]
  exact cround_percent hle hs hlt h5

end Percent

end TakeADump
