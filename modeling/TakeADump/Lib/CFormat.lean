import Mathlib.Algebra.Group.Nat.Defs
import Mathlib.Data.List.TakeWhile
import Mathlib.Tactic.Common

/-!
# C strings and the conversions of `snprintf`

* `cstr n mem`: the string at `mem` as far as `n` bytes of it matter, that is the bytes before the first NUL among the
  first `n`. It is the first `k` bytes if byte `k` is the first NUL (`cstr_of_zero`) and longer if there is none up to
  `k` (`lt_length_cstr`).
* `decimal k`: what `%d` prints; different naturals print differently (`decimal_injective`), `m` digits are enough for a
  number below `10^m` (`length_decimal_le`), and no letter is among them (`not_mem_decimal`), so that a number at the
  end of a text is found again (`append_cons_inj_of_last`).
* `clip size xs`: what `snprintf` stores of `xs` in a buffer of `size` bytes (the terminating NUL aside).
-/

namespace CFormat

/-- The bytes of an ASCII literal. -/
def ascii (s : String) : List UInt8 := s.toList.map fun c => UInt8.ofNat c.toNat

/-- `%s`: the bytes before the first NUL, looking at `n` bytes at most. -/
def cstr (n : Nat) (mem : Nat → UInt8) : List UInt8 := ((List.range n).map mem).takeWhile (· ≠ 0)

/-- `%d`. -/
def decimal (k : Int) : List UInt8 :=
  match k with
  | .ofNat n => (Nat.toDigits 10 n).map fun c => UInt8.ofNat c.toNat
  | .negSucc n => 45 :: (Nat.toDigits 10 (n + 1)).map fun c => UInt8.ofNat c.toNat

/-- What `snprintf` stores of its output in a buffer of `size` bytes. -/
def clip (size : Nat) (xs : List UInt8) : List UInt8 := xs.take (size - 1)

/-! ## `%s` -/

/-- A string is no longer than any place of a NUL. -/
theorem length_cstr_le_of_zero {n k : Nat} {mem : Nat → UInt8} (h0 : mem k = 0) : (cstr n mem).length ≤ k := by
  by_contra hlt
  rw [Nat.not_le] at hlt
  have hpre := List.takeWhile_prefix (l := (List.range n).map mem) fun b => decide (b ≠ 0)
  have hk : (cstr n mem)[k] = mem k := (hpre.getElem hlt).trans (by rw [List.getElem_map, List.getElem_range])
  have hne : (cstr n mem)[k] ≠ 0 := by
    have := List.mem_takeWhile_imp (List.getElem_mem hlt)
    simpa using this
  exact hne (hk.trans h0)

/-- A string that ends within reach is printed whole. -/
theorem cstr_of_zero {n k : Nat} {mem : Nat → UInt8} (hk : k < n) (hne : ∀ i < k, mem i ≠ 0) (h0 : mem k = 0) :
    cstr n mem = (List.range k).map mem := by
  obtain ⟨m, rfl⟩ : ∃ m, n = k + (m + 1) := ⟨n - k - 1, by omega⟩
  unfold cstr
  rw [List.range_add, List.map_append, List.takeWhile_append_of_pos]
  · simp [List.range_succ_eq_map, h0]
  · intro b hb
    obtain ⟨i, hi, rfl⟩ := List.mem_map.1 hb
    simpa using hne i (List.mem_range.1 hi)

/-- A string that goes on after `k` bytes is printed further than `k`. -/
theorem lt_length_cstr {n k : Nat} {mem : Nat → UInt8} (hk : k < n) (hne : ∀ i ≤ k, mem i ≠ 0) :
    k < (cstr n mem).length := by
  obtain ⟨m, rfl⟩ : ∃ m, n = (k + 1) + m := ⟨n - (k + 1), by omega⟩
  unfold cstr
  rw [List.range_add, List.map_append, List.takeWhile_append_of_pos]
  · simp only [List.length_append, List.length_map, List.length_range]
    omega
  · intro b hb
    obtain ⟨i, hi, rfl⟩ := List.mem_map.1 hb
    simpa using hne i (by have := List.mem_range.1 hi; omega)

/-! ## `%d` -/

theorem map_digit_injective {l₁ l₂ : List Char} (h₁ : ∀ c ∈ l₁, c.isDigit) (h₂ : ∀ c ∈ l₂, c.isDigit)
    (h : l₁.map (fun c => UInt8.ofNat c.toNat) = l₂.map fun c => UInt8.ofNat c.toNat) : l₁ = l₂ := by
  have hback : ∀ l : List Char, (∀ c ∈ l, c.isDigit) →
      (l.map fun c => UInt8.ofNat c.toNat).map (fun b => Char.ofNat b.toNat) = l := by
    intro l hl
    rw [List.map_map]
    refine (List.map_congr_left fun c hc => ?_).trans (List.map_id l)
    have hd := hl c hc
    simp only [Char.isDigit, Bool.and_eq_true, decide_eq_true_eq, UInt32.le_iff_toNat_le] at hd
    have hlt : c.toNat < 256 := by
      have : c.toNat ≤ 57 := hd.2
      omega
    simp [Nat.mod_eq_of_lt hlt]
  rw [← hback l₁ h₁, h, hback l₂ h₂]

theorem decimal_injective {m n : Nat} (h : decimal m = decimal n) : m = n := by
  have hdig : Nat.toDigits 10 m = Nat.toDigits 10 n :=
    map_digit_injective (fun c hc => Nat.isDigit_of_mem_toDigits (by omega) (by omega) hc)
      (fun c hc => Nat.isDigit_of_mem_toDigits (by omega) (by omega) hc) h
  calc m = Nat.ofDigitChars 10 (Nat.toDigits 10 m) 0 := Nat.ofDigitChars_ten_toDigits.symm
    _ = Nat.ofDigitChars 10 (Nat.toDigits 10 n) 0 := by rw [hdig]
    _ = n := Nat.ofDigitChars_ten_toDigits

theorem length_decimal_le {n m : Nat} (hm : 0 < m) (h : n < 10 ^ m) : (decimal n).length ≤ m := by
  have := (Nat.length_toDigits_le_iff (b := 10) (by omega) hm).2 h
  simpa [decimal] using this

theorem digit_of_mem {n : Nat} {b : UInt8} (h : b ∈ (Nat.toDigits 10 n).map fun c => UInt8.ofNat c.toNat) :
    b.toNat ≤ 57 := by
  obtain ⟨c, hc, rfl⟩ := List.mem_map.1 h
  have hd : c.isDigit = true := Nat.isDigit_of_mem_toDigits (by omega) (by omega) hc
  simp only [Char.isDigit, Bool.and_eq_true, decide_eq_true_eq, UInt32.le_iff_toNat_le] at hd
  have hle : c.toNat ≤ 57 := hd.2
  rwa [UInt8.toNat_ofNat', Nat.mod_eq_of_lt (by omega)]

/-- What `%d` prints is no letter. -/
theorem not_mem_decimal {b : UInt8} (hb : 57 < b.toNat) (k : Int) : b ∉ decimal k := by
  intro h
  cases k with
  | ofNat n =>
    have := digit_of_mem h
    omega
  | negSucc n =>
    rcases List.mem_cons.1 h with rfl | h
    · exact absurd hb (by decide)
    · have := digit_of_mem h
      omega

/-- What follows the last `a` of a list is found again. -/
theorem append_cons_inj_of_last {α : Type*} {a : α} {x y u v : List α} (hu : a ∉ u) (hv : a ∉ v)
    (h : x ++ a :: u = y ++ a :: v) : x = y ∧ u = v := by
  rcases List.append_eq_append_iff.1 h with ⟨mid, rfl, hmid⟩ | ⟨mid, rfl, hmid⟩
  · cases mid with
    | nil => exact ⟨(List.append_nil x).symm, (List.cons.inj hmid).2⟩
    | cons b mid => exact absurd (by rw [(List.cons.inj hmid).2]; simp) hu
  · cases mid with
    | nil => exact ⟨List.append_nil y, (List.cons.inj hmid).2.symm⟩
    | cons b mid => exact absurd (by rw [(List.cons.inj hmid).2]; simp) hv

/-! ## Truncation -/

theorem clip_of_le {size : Nat} {xs : List UInt8} (h : xs.length < size) : clip size xs = xs :=
  List.take_of_length_le (by omega)

theorem length_clip (size : Nat) (xs : List UInt8) : (clip size xs).length = min (size - 1) xs.length :=
  List.length_take

end CFormat
