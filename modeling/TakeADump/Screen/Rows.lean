import TakeADump.Lib.Terminal
import TakeADump.Screen.Percent
import TakeADump.Screen.Transcript

/-!
# The rows of a dump

The lines a dump prints are printable, none is longer than 60 bytes, and progress lines do not get shorter
(`length_progressText_mono`). `Rows`: what stands in the rows of a dump that reported some sectors, and how a line moves
it on.
-/

namespace TakeADump

open Printf

/-! ## Lines -/

section Lines

variable {minutes : Int} {o o' s : UInt64} {k : Int}

def progressText (offset size : UInt64) (errors : Int) : Bytes :=
  CFormat.ascii "Dumped " ++ (fixed (megabytesOf offset) ++ (CFormat.ascii " MB / " ++ (fixed (megabytesOf size) ++
    (CFormat.ascii " MB (" ++ (signed 0 (percentOf offset size) ++ (CFormat.ascii "%) (" ++ (signed 0 errors ++
      CFormat.ascii " errors)")))))))

def reportText (offset : UInt64) : Bytes := errorText ++ (pad 8 (numeral 16 offset.toNat) ++ [46])

theorem text_progressLine (o s : UInt64) (k : Int) :
    (Event.print progressLine [.megabytes o, .megabytes s, .percent o s, .int k]).text minutes =
      progressText o s k ++ [10] := by
  have hpieces : pieces progressLine.toList = (CFormat.ascii "Dumped ").map .byte ++ (.conv .fixed ::
      ((CFormat.ascii " MB / ").map .byte ++ (.conv .fixed :: ((CFormat.ascii " MB (").map .byte ++ (.conv (.dec 0) ::
        ((CFormat.ascii "%) (").map .byte ++ (.conv (.dec 0) ::
          ((CFormat.ascii " errors)").map .byte ++ [])))))))) := by decide +kernel
  show Printf.vprintf (Arg.convert minutes) (pieces progressLine.toList) _ ++ [10] = _
  rw [hpieces, vprintf_bytes, Printf.vprintf, vprintf_bytes, Printf.vprintf, vprintf_bytes, Printf.vprintf,
    vprintf_bytes, Printf.vprintf, vprintf_bytes, Printf.vprintf, List.append_nil]
  rfl

theorem printable_of_numeric {b : UInt8} (h : Numeric b) : Printable b := by
  unfold Numeric at h
  unfold Printable
  simp only [UInt8.le_iff_toNat_le, UInt8.lt_iff_toNat_lt, ← UInt8.toNat_inj] at *
  simp only [UInt8.reduceToNat] at *
  omega

theorem printable_progressText (o s : UInt64) (k : Int) : ∀ b ∈ progressText o s k, Printable b := by
  have hfixed : ∀ x, ∀ b ∈ fixed x, Printable b := fun _ _ hb => printable_of_numeric (numeric_fixed hb)
  have hsigned : ∀ k, ∀ b ∈ signed 0 k, Printable b := fun _ _ hb => printable_of_numeric (numeric_signed hb)
  unfold progressText
  simp only [List.forall_mem_append]
  exact ⟨by decide +kernel, hfixed _, by decide +kernel, hfixed _, by decide +kernel, hsigned _, by decide +kernel,
    hsigned _, by decide +kernel⟩

theorem printable_reportText (offset : UInt64) : ∀ b ∈ reportText offset, Printable b := by
  have hnumeral : ∀ b ∈ pad 8 (numeral 16 offset.toNat), Printable b := fun _ hb =>
    printable_of_numeric ((numeric_pad (fun _ => numeric_numeral (by decide) (by decide)) hb).elim Or.inl
      fun h => Or.inr (Or.inl h))
  unfold reportText
  simp only [List.forall_mem_append]
  exact ⟨by decide +kernel, hnumeral, by decide +kernel⟩

/-! ## Lengths -/

theorem length_signed_mono {k k' : Int} (hk : 0 ≤ k) (h : k ≤ k') : (signed 0 k).length ≤ (signed 0 k').length := by
  unfold signed
  rw [if_neg (by omega), if_neg (by omega), length_pad, length_pad, Nat.zero_max, Nat.zero_max]
  exact length_numeral_mono 10 (by omega)

theorem length_signed_le {k : Int} {n : Nat} (hk : 0 ≤ k) (hn : 0 < n) (h : k < 10 ^ n) : (signed 0 k).length ≤ n := by
  unfold signed
  rw [if_neg (by omega), length_pad, Nat.zero_max]
  refine length_numeral_le (by decide) hn ?_
  zify
  rwa [abs_of_nonneg hk]

theorem megabytesOf_mono (h : o ≤ o') : megabytesOf o ≤ megabytesOf o' := by
  have hle : (o.toNat : ℚ) ≤ o'.toNat := by exact_mod_cast UInt64.le_iff_toNat_le.1 h
  have hpos : 0 ≤ double o.toNat := double_nonneg o.toNat.cast_nonneg
  have hkilo : double (double o.toNat / 1024) ≤ double (double o'.toNat / 1024) :=
    double_mono (by positivity) (div_le_div_of_nonneg_right (double_mono o.toNat.cast_nonneg hle) (by norm_num))
  have hkilopos : 0 ≤ double (double o.toNat / 1024) := double_nonneg (by positivity)
  exact double_mono (by positivity) (div_le_div_of_nonneg_right hkilo (by norm_num))

/-- 16 GiB in megabytes. -/
theorem megabytesOf_bound : megabytesOf (UInt64.ofNat (2 ^ 34)) = 16384 := by
  have hbytes : double 17179869184 = 17179869184 := by exact_mod_cast double_natCast (n := 17179869184) (by norm_num)
  have hkilo : double 16777216 = 16777216 := by exact_mod_cast double_natCast (n := 16777216) (by norm_num)
  have hmega : double 16384 = 16384 := by exact_mod_cast double_natCast (n := 16384) (by norm_num)
  have hnat : (UInt64.ofNat (2 ^ 34)).toNat = 17179869184 := by decide
  rw [megabytesOf, hnat, Nat.cast_ofNat, hbytes, show (17179869184 : ℚ) / 1024 = 16777216 by norm_num, hkilo,
    show (16777216 : ℚ) / 1024 = 16384 by norm_num, hmega]

theorem length_megabytes_le (h : o.toNat ≤ 2 ^ 34) : (fixed (megabytesOf o)).length ≤ 8 := by
  have hle : o ≤ UInt64.ofNat (2 ^ 34) := UInt64.le_iff_toNat_le.2 h
  refine (length_fixed_mono (megabytesOf_mono hle)).trans ?_
  have hnearest : Rounding.nearest ((16384 : ℚ) * 100) = 1638400 := by
    have hcast : (16384 : ℚ) * 100 = (1638400 : ℤ) := by norm_num
    rw [hcast, Rounding.nearest_intCast]
  rw [megabytesOf_bound, length_fixed, hnearest]
  exact Nat.add_le_add_right (length_numeral_le (k := 5) (by decide) (by decide) (by decide)) 3

/-- A progress line is no longer than a row. -/
theorem length_progressText_le (ho : o ≤ s) (hs : s.toNat ≤ 2 ^ 34) (hk : 0 ≤ k) (hk' : k < 10 ^ 8) :
    (progressText o s k).length ≤ 60 := by
  have hbounds := percentOf_bounds ho
  have hoffset := length_megabytes_le ((UInt64.le_iff_toNat_le.1 ho).trans hs)
  have hsize := length_megabytes_le hs
  have hpercent := length_signed_le (n := 3) hbounds.1 (by decide) (by omega)
  have herrors := length_signed_le (n := 8) hk (by decide) hk'
  have hascii : (CFormat.ascii "Dumped ").length = 7 ∧ (CFormat.ascii " MB / ").length = 6 ∧
      (CFormat.ascii " MB (").length = 5 ∧ (CFormat.ascii "%) (").length = 4 ∧
        (CFormat.ascii " errors)").length = 8 := by decide
  unfold progressText
  simp only [List.length_append]
  omega

/-- **Progress lines do not get shorter.** -/
theorem length_progressText_mono (h : o ≤ o') : (progressText o s k).length ≤ (progressText o' s k).length := by
  have hpos := percentOf_mono (s := s) (UInt64.zero_le (a := o))
  rw [percentOf_zero] at hpos
  have hoffset := length_fixed_mono (megabytesOf_mono h)
  have hpercent := length_signed_mono hpos (percentOf_mono (s := s) h)
  unfold progressText
  simp only [List.length_append]
  omega

theorem length_reportText_le {offset : UInt64} (h : offset.toNat < 2 ^ 34) : (reportText offset).length ≤ 60 := by
  have hnumeral : (numeral 16 offset.toNat).length ≤ 9 :=
    length_numeral_le (by decide) (by decide) (h.trans (by decide))
  have hascii : errorText.length = 31 := by decide
  unfold reportText
  simp only [List.length_append, length_pad, List.length_singleton]
  omega

end Lines

/-! ## Rows -/

/-- The rows of a dump that began at `v₀` and reported these offsets: the last one holds at most `cap` bytes. -/
structure Rows (v₀ : View) (offsets : List UInt64) (cap : Nat) (v : View) : Prop where
  last : (v.text (v₀.row + 1 + offsets.length)).length ≤ cap
  blank : ∀ r, v₀.row + 1 + offsets.length < r → v.text r = []
  reports : ∀ i offset, offsets[i]? = some offset → reportText offset <+: v.text (v₀.row + 1 + i)
  above : ∀ r < v₀.row, v.text r = v₀.text r

section Rows

variable {v₀ v : View} {offsets : List UInt64} {cap cap' : Nat} {l : Bytes}

theorem lt_of_getElem? {i : Nat} {offset : UInt64} (h : offsets[i]? = some offset) : i < offsets.length :=
  (List.getElem?_eq_some_iff.1 h).1

/-- The heading goes to the row the dump begins in. -/
theorem Rows.heading (h : Rows v₀ [] cap v) (hrow : v.row = v₀.row) (l : Bytes) : Rows v₀ [] cap (v.line l) where
  last := by
    rw [View.line_text_of_ne (by simp [hrow])]
    exact h.last
  blank r hr := by
    rw [List.length_nil] at hr
    rw [View.line_text_of_ne (by omega)]
    exact h.blank r hr
  reports := by simp
  above r hr := by
    rw [View.line_text_of_ne (by omega)]
    exact h.above r hr

/-- A line goes to the last row. -/
theorem Rows.line (h : Rows v₀ offsets cap v) (hrow : v.row = v₀.row + 1 + offsets.length) (hl : l.length ≤ cap')
    (hcap : cap ≤ cap') : Rows v₀ offsets cap' (v.line l) where
  last := by
    have hlast := h.last
    rw [← hrow] at hlast ⊢
    rw [View.line_text_self, List.length_append, List.length_drop]
    omega
  blank r hr := by
    rw [View.line_text_of_ne (by omega)]
    exact h.blank r hr
  reports i offset hi := by
    have hlt := lt_of_getElem? hi
    rw [View.line_text_of_ne (by omega)]
    exact h.reports i offset hi
  above r hr := by
    rw [View.line_text_of_ne (by omega)]
    exact h.above r hr

/-- A report goes to the last row, and the next one is the last row then. -/
theorem Rows.report (h : Rows v₀ offsets cap v) (hrow : v.row = v₀.row + 1 + offsets.length) (offset : UInt64)
    (cap' : Nat) : Rows v₀ (offsets ++ [offset]) cap' (v.line (reportText offset)) where
  last := by
    rw [List.length_append, List.length_singleton, View.line_text_of_ne (by omega), h.blank _ (by omega)]
    exact Nat.zero_le _
  blank r hr := by
    rw [List.length_append, List.length_singleton] at hr
    rw [View.line_text_of_ne (by omega)]
    exact h.blank r (by omega)
  reports i offset' hi := by
    rcases Nat.lt_or_ge i offsets.length with hlt | hge
    · rw [List.getElem?_append_left hlt] at hi
      rw [View.line_text_of_ne (by omega)]
      exact h.reports i offset' hi
    · have hi' : i = offsets.length := by
        have := lt_of_getElem? hi
        rw [List.length_append, List.length_singleton] at this
        omega
      rw [hi', List.getElem?_concat_length] at hi
      cases hi
      rw [hi', ← hrow]
      exact View.isPrefix_line
  above r hr := by
    rw [View.line_text_of_ne (by omega)]
    exact h.above r hr

end Rows

end TakeADump
