import Mathlib.Logic.Function.Basic
import Mathlib.Tactic.Common

/-!
# Terminals

What a program that writes lines and steps back over them relies on.

* `View`: rows of text and a cursor. A printable byte overwrites the row at the cursor, a newline goes to the start of
  the next row, and the sequence `ESC [ 1 A` goes one row up.
* `Terminal`: anything that shows a view and moves it on like that, as long as lines are no longer than its rows.
* A line that is written from the start of a row replaces as much of the row as it is long (`view_line`), so it stands
  there alone if the row was no longer (`line_text`).
-/

/-- Rows of text, numbered from the first one written, and the cursor. -/
structure View where
  row : Nat
  col : Nat
  text : Nat → List UInt8

namespace View

/-- A printable byte at the cursor. -/
def put (v : View) (b : UInt8) : View :=
  { v with
    col := v.col + 1
    text := Function.update v.text v.row ((v.text v.row).take v.col ++ b :: (v.text v.row).drop (v.col + 1)) }

def newline (v : View) : View := { v with row := v.row + 1, col := 0 }

def up (v : View) : View := { v with row := v.row - 1 }

/-- Printable bytes from the start of the row on, and a newline. -/
def line (v : View) (l : List UInt8) : View :=
  ⟨v.row + 1, 0, Function.update v.text v.row (l ++ (v.text v.row).drop l.length)⟩

end View

def Printable (b : UInt8) : Prop := 32 ≤ b ∧ b < 127

instance (b : UInt8) : Decidable (Printable b) := inferInstanceAs (Decidable (_ ∧ _))

structure Terminal (σ : Type) where
  feed : σ → UInt8 → σ
  width : Nat
  /-- What is seen, unless an escape sequence is going on. -/
  view : σ → Option View
  put : ∀ {t v b}, view t = some v → Printable b → v.col < width → v.col ≤ (v.text v.row).length →
    view (feed t b) = some (v.put b)
  newline : ∀ {t v}, view t = some v → view (feed t 10) = some v.newline
  up : ∀ {t v}, view t = some v → 0 < v.row → view ([27, 91, 49, 65].foldl feed t) = some v.up

namespace Terminal

variable {σ : Type} (T : Terminal σ) {t : σ} {v : View} {l : List UInt8}

/-- A terminal that was sent some bytes. -/
def feeds (t : σ) (l : List UInt8) : σ := l.foldl T.feed t

theorem feeds_append (t : σ) (l l' : List UInt8) : T.feeds t (l ++ l') = T.feeds (T.feeds t l) l' := List.foldl_append

/-- Printable bytes overwrite the row from the cursor on. -/
theorem view_puts (h : T.view t = some v) (hl : ∀ b ∈ l, Printable b) (hwidth : v.col + l.length ≤ T.width)
    (hcol : v.col ≤ (v.text v.row).length) : T.view (T.feeds t l) = some ⟨v.row, v.col + l.length,
      Function.update v.text v.row ((v.text v.row).take v.col ++ l ++ (v.text v.row).drop (v.col + l.length))⟩ := by
  induction l generalizing t v with
  | nil =>
    rw [List.append_nil, List.length_nil, Nat.add_zero, List.take_append_drop, Function.update_eq_self]
    exact h
  | cons b l ih =>
    rw [List.forall_mem_cons] at hl
    rw [List.length_cons] at hwidth
    have hput := T.put h hl.1 (by omega) hcol
    have hrow : (v.put b).text v.row = (v.text v.row).take v.col ++ b :: (v.text v.row).drop (v.col + 1) :=
      Function.update_self _ _ _
    have htake : ((v.put b).text v.row).take (v.col + 1) = (v.text v.row).take v.col ++ [b] := by
      rw [hrow, List.take_append, List.length_take, Nat.min_eq_left hcol,
        List.take_of_length_le (by rw [List.length_take]; omega)]
      simp
    have hdrop : ((v.put b).text v.row).drop (v.col + 1 + l.length) = (v.text v.row).drop (v.col + (l.length + 1)) := by
      rw [hrow, List.drop_append, List.length_take, Nat.min_eq_left hcol,
        List.drop_of_length_le (by rw [List.length_take]; omega)]
      rw [List.nil_append, show v.col + 1 + l.length - v.col = l.length + 1 by omega, List.drop_succ_cons,
        List.drop_drop]
      congr 1
      omega
    have hlen : (v.put b).col ≤ ((v.put b).text (v.put b).row).length := by
      show v.col + 1 ≤ ((v.put b).text v.row).length
      rw [hrow, List.length_append, List.length_take, List.length_cons]
      omega
    have hwidth' : (v.put b).col + l.length ≤ T.width := by
      show v.col + 1 + l.length ≤ T.width
      omega
    rw [feeds, List.foldl_cons]
    refine (ih hput hl.2 hwidth' hlen).trans ?_
    show some (View.mk v.row (v.col + 1 + l.length) (Function.update (Function.update v.text v.row _) v.row
      (((v.put b).text v.row).take (v.col + 1) ++ l ++ ((v.put b).text v.row).drop (v.col + 1 + l.length)))) = _
    rw [htake, hdrop, Function.update_idem, List.append_assoc, List.append_assoc, List.length_cons, Nat.add_assoc,
      Nat.add_comm 1]
    simp

/-- **A line.** -/
theorem view_line (h : T.view t = some v) (hl : ∀ b ∈ l, Printable b) (hwidth : l.length ≤ T.width) (hcol : v.col = 0) :
    T.view (T.feeds t (l ++ [10])) = some (v.line l) := by
  have hputs := T.view_puts h hl (by omega) (by omega)
  rw [feeds_append]
  refine (T.newline hputs).trans ?_
  rw [View.newline, View.line, hcol]
  simp

end Terminal

namespace View

variable {v : View} {l : List UInt8} {r : Nat}

theorem line_text_self : (v.line l).text v.row = l ++ (v.text v.row).drop l.length := Function.update_self _ _ _

/-- A line stands alone where there was nothing longer. -/
theorem line_text (h : (v.text v.row).length ≤ l.length) : (v.line l).text v.row = l := by
  rw [line_text_self, List.drop_of_length_le h, List.append_nil]

theorem isPrefix_line : l <+: (v.line l).text v.row := by
  rw [line_text_self]
  exact List.prefix_append _ _

theorem line_text_of_ne (h : r ≠ v.row) : (v.line l).text r = v.text r := Function.update_of_ne h _ _

end View

/-! ## A terminal -/

namespace Terminal

/-- A terminal that keeps all its rows: the view, and the bytes of an escape sequence so far. -/
def grid (width : Nat) : Terminal (View × List UInt8) where
  feed
    | (v, []), b => if b = 27 then (v, [27]) else if b = 10 then (v.newline, []) else (v.put b, [])
    | (v, [27, 91, 49]), b => if b = 65 then (v.up, []) else (v, [])
    | (v, pending), b => (v, pending ++ [b])
  width := width
  view t := if t.2 = [] then some t.1 else none
  put := by
    rintro ⟨v, pending⟩ v' b h hb - -
    obtain ⟨rfl, ⟨⟩⟩ := Option.ite_none_right_eq_some.1 h
    have h27 : b ≠ 27 := fun heq => absurd (heq ▸ hb) (by decide)
    have h10 : b ≠ 10 := fun heq => absurd (heq ▸ hb) (by decide)
    simp [h27, h10]
  newline := by
    rintro ⟨v, pending⟩ v' h
    obtain ⟨rfl, ⟨⟩⟩ := Option.ite_none_right_eq_some.1 h
    rfl
  up := by
    rintro ⟨v, pending⟩ v' h -
    obtain ⟨rfl, ⟨⟩⟩ := Option.ite_none_right_eq_some.1 h
    rfl

end Terminal
