import Mathlib.Data.List.Induction
import Mathlib.Tactic.Common

/-!
# Logs that roll over to a new part

A log keeps full parts and the part being written. Before a record is appended the log *rolls*: it opens the first
part, or closes the current one when it has reached `cap` and opens the next.

* nothing is lost or reordered: the parts of `ofRecords cap xs`, concatenated, are `xs` concatenated (`all_ofRecords`);
* with records of `r ∣ cap` symbols, the last one possibly shorter, every part but the last has exactly `cap` symbols
  and the last one between `1` and `cap` (`filled_ofRecords`, `Ready.filled_append`), so there are `⌈length / cap⌉`
  parts (`length_parts`) and a part rolled to always has room for a whole record (`Filled.ready`).
-/

namespace Rollover

variable {α : Type}

/-- The full parts, oldest first, and the part being written. -/
structure Log (α : Type) where
  full : List (List α)
  cur : Option (List α)

namespace Log

/-- Nothing opened yet. -/
def empty : Log α := ⟨[], none⟩

/-- All parts, in the order they were opened. -/
def parts (l : Log α) : List (List α) := l.full ++ l.cur.toList

/-- Everything written. -/
def all (l : Log α) : List α := l.parts.flatten

/-- No part is open, or the open one is full. -/
def needsPart (cap : Nat) (l : Log α) : Bool :=
  match l.cur with
  | none => true
  | some c => cap ≤ c.length

/-- No part open any more. -/
def closed (l : Log α) : Log α := ⟨l.parts, none⟩

/-- Make sure that a part with room is open. -/
def roll (cap : Nat) (l : Log α) : Log α := if l.needsPart cap then ⟨l.parts, some []⟩ else l

/-- Write `x` to the current part. -/
def append (l : Log α) (x : List α) : Log α := ⟨l.full, l.cur.map (· ++ x)⟩

/-- Write the records one after the other, rolling before each. -/
def ofRecords (cap : Nat) (xs : List (List α)) : Log α := xs.foldl (fun l x => (l.roll cap).append x) empty

theorem ofRecords_snoc (cap : Nat) (xs : List (List α)) (x : List α) :
    ofRecords cap (xs ++ [x]) = ((ofRecords cap xs).roll cap).append x := by
  simp [ofRecords, List.foldl_append]

@[simp] theorem parts_closed (l : Log α) : l.closed.parts = l.parts := by simp [closed, parts]

@[simp] theorem length_parts_open (l : Log α) (c : List α) :
    (Log.mk l.parts (some c)).parts.length = l.parts.length + 1 := by
  rw [parts, Option.toList_some, List.length_append, List.length_singleton]

@[simp] theorem all_closed (l : Log α) : l.closed.all = l.all := by simp [all]

theorem closed_of_none {l : Log α} (h : l.cur = none) : l.closed = l := by
  obtain ⟨full, cur⟩ := l
  subst h
  simp [closed, parts]

theorem roll_pos {cap : Nat} {l : Log α} (h : l.needsPart cap) : l.roll cap = ⟨l.parts, some []⟩ := if_pos h

theorem roll_neg {cap : Nat} {l : Log α} (h : ¬ l.needsPart cap) : l.roll cap = l := if_neg h

/-- A log that needs no part has one open. -/
theorem cur_of_not_needsPart {cap : Nat} {l : Log α} (h : ¬ l.needsPart cap) :
    ∃ c, l.cur = some c ∧ c.length < cap := by
  unfold needsPart at h
  cases hc : l.cur with
  | none => simp [hc] at h
  | some c => exact ⟨c, rfl, by simpa [hc] using h⟩

@[simp] theorem all_roll (cap : Nat) (l : Log α) : (l.roll cap).all = l.all := by
  unfold roll
  split <;> simp [all, parts]

theorem roll_cur (cap : Nat) (l : Log α) : ∃ c, (l.roll cap).cur = some c := by
  by_cases h : l.needsPart cap
  · exact ⟨[], by rw [roll_pos h]⟩
  · obtain ⟨c, hc, _⟩ := cur_of_not_needsPart h
    exact ⟨c, by rw [roll_neg h, hc]⟩

theorem parts_append {l : Log α} {c : List α} (h : l.cur = some c) (x : List α) :
    (l.append x).parts = l.full ++ [c ++ x] := by
  simp [parts, append, h]

@[simp] theorem length_parts_append (l : Log α) (x : List α) : (l.append x).parts.length = l.parts.length := by
  cases hcur : l.cur <;> simp [append, parts, hcur]

theorem all_append {l : Log α} {c : List α} (h : l.cur = some c) (x : List α) : (l.append x).all = l.all ++ x := by
  simp [all, parts, append, h]

@[simp] theorem append_nil (l : Log α) : l.append [] = l := by
  obtain ⟨full, cur⟩ := l
  cases cur <;> simp [append]

theorem all_ofRecords (cap : Nat) (xs : List (List α)) : (ofRecords cap xs).all = xs.flatten := by
  induction xs using List.reverseRecOn with
  | nil => rfl
  | append_singleton xs x ih =>
    obtain ⟨c, hc⟩ := roll_cur cap (ofRecords cap xs)
    rw [ofRecords_snoc, all_append hc, all_roll, ih, List.flatten_append]
    simp

end Log

/-! ## Full parts -/

/-- Every full part has `cap` symbols, the current one between `1` and `cap`. -/
structure Filled (cap : Nat) (l : Log α) : Prop where
  full : ∀ c ∈ l.full, c.length = cap
  cur : ∀ c, l.cur = some c → 0 < c.length ∧ c.length ≤ cap
  none : l.cur = none → l.full = []

/-- The current part holds whole records of `r` symbols. -/
def Aligned (r : Nat) (l : Log α) : Prop := ∀ c, l.cur = some c → r ∣ c.length

/-- Rolled: the current part holds whole records and has room for one more. -/
structure Ready (cap r : Nat) (l : Log α) : Prop where
  full : ∀ c ∈ l.full, c.length = cap
  cur : ∃ c, l.cur = some c ∧ r ∣ c.length ∧ c.length + r ≤ cap

variable {cap r : Nat} {l : Log α}

theorem filled_empty : Filled cap (Log.empty : Log α) :=
  ⟨fun _ h => absurd h List.not_mem_nil, fun _ h => (by cases h), fun _ => rfl⟩

theorem aligned_empty : Aligned r (Log.empty : Log α) := fun _ h => by cases h

/-- Two multiples of `r`, one below the other, are at least `r` apart. -/
theorem add_le_of_dvd {a b : Nat} (ha : r ∣ a) (hb : r ∣ b) (h : a < b) : a + r ≤ b := by
  obtain ⟨i, rfl⟩ := ha
  obtain ⟨j, rfl⟩ := hb
  have hij : i < j := Nat.lt_of_mul_lt_mul_left h
  calc r * i + r = r * (i + 1) := by rw [Nat.mul_succ]
    _ ≤ r * j := Nat.mul_le_mul_left r hij

/-- Every part of a log that needs a new one is full. -/
theorem Filled.full_of_needsPart (h : Filled cap l) (hn : l.needsPart cap) : ∀ c ∈ l.parts, c.length = cap := by
  intro c hc
  rcases List.mem_append.1 hc with hc | hc
  · exact h.full c hc
  · have hcur : l.cur = some c := by simpa [eq_comm] using hc
    have hle := (h.cur c hcur).2
    have hge : cap ≤ c.length := by simpa [Log.needsPart, hcur] using hn
    omega

/-- After rolling there is room for a whole record. -/
theorem Filled.ready (h : Filled cap l) (ha : Aligned r l) (hr : r ∣ cap) (hc : 0 < cap) :
    Ready cap r (l.roll cap) := by
  by_cases hn : l.needsPart cap
  · rw [Log.roll_pos hn]
    exact ⟨h.full_of_needsPart hn, [], rfl, Nat.dvd_zero r, by simpa using Nat.le_of_dvd hc hr⟩
  · obtain ⟨c, hcur, hlt⟩ := Log.cur_of_not_needsPart hn
    rw [Log.roll_neg hn]
    exact ⟨h.full, c, hcur, ha c hcur, add_le_of_dvd (ha c hcur) hr hlt⟩

/-- A record of `1` to `r` symbols fits. -/
theorem Ready.filled_append (h : Ready cap r l) {x : List α} (hx : 0 < x.length) (hxr : x.length ≤ r) :
    Filled cap (l.append x) := by
  obtain ⟨c, hc, _, hle⟩ := h.cur
  refine ⟨h.full, fun d hd => ?_, fun hn => by simp [Log.append, hc] at hn⟩
  simp only [Log.append, hc, Option.map_some, Option.some.injEq] at hd
  subst hd
  rw [List.length_append]
  omega

/-- A whole record keeps the parts made of whole records. -/
theorem Ready.aligned_append (h : Ready cap r l) {x : List α} (hx : x.length = r) : Aligned r (l.append x) := by
  obtain ⟨c, hc, hdvd, _⟩ := h.cur
  intro d hd
  simp only [Log.append, hc, Option.map_some, Option.some.injEq] at hd
  subst hd
  rw [List.length_append, hx]
  exact Nat.dvd_add hdvd (Nat.dvd_refl r)

/-- The number of the part a record goes to. -/
theorem Ready.length_full (h : Ready cap r l) (hr : 0 < r) : l.full.length = l.all.length / cap := by
  obtain ⟨c, hc, _, hle⟩ := h.cur
  have hfull : l.full.flatten.length = l.full.length * cap := by
    rw [List.length_flatten, List.map_congr_left h.full, List.map_const', List.sum_replicate_nat]
  have hall : l.all.length = l.full.length * cap + c.length := by
    simp [Log.all, Log.parts, hc, hfull]
  rw [hall, Nat.mul_comm, Nat.mul_add_div (by omega), Nat.div_eq_of_lt (by omega), Nat.add_zero]

/-- Whole records fill the parts. -/
theorem filled_ofRecords (hr : r ∣ cap) (hc : 0 < cap) (hr0 : 0 < r) {xs : List (List α)}
    (hxs : ∀ x ∈ xs, x.length = r) : Filled cap (Log.ofRecords cap xs) ∧ Aligned r (Log.ofRecords cap xs) := by
  induction xs using List.reverseRecOn with
  | nil => exact ⟨filled_empty, aligned_empty⟩
  | append_singleton xs x ih =>
    obtain ⟨hf, ha⟩ := ih fun y hy => hxs y (List.mem_append_left _ hy)
    have hx : x.length = r := hxs x (by simp)
    have hready := hf.ready ha hr hc
    rw [Log.ofRecords_snoc]
    exact ⟨hready.filled_append (by omega) (by omega), hready.aligned_append hx⟩

theorem length_flatten_eq {xs : List (List α)} {n : Nat} (h : ∀ x ∈ xs, x.length = n) :
    xs.flatten.length = xs.length * n := by
  induction xs with
  | nil => simp
  | cons x xs ih =>
    rw [List.flatten_cons, List.length_append, ih fun y hy => h y (by simp [hy]), h x (by simp), List.length_cons,
      Nat.succ_mul, Nat.add_comm]

theorem length_all (h : Filled cap l) : l.all.length = l.full.length * cap + (l.cur.getD []).length := by
  have hfull := length_flatten_eq h.full
  cases hcur : l.cur <;> simp [Log.all, Log.parts, hcur, hfull]

theorem length_of_full (h : ∀ c ∈ l.full, c.length = cap) {i : Nat} (hi : i < l.parts.length)
    (hlt : i < l.full.length) : l.parts[i].length = cap := by
  simp only [Log.parts, List.getElem_append_left hlt]
  exact h _ (List.getElem_mem hlt)

/-- The length of part `i`. -/
theorem length_part (h : Filled cap l) {i : Nat} (hi : i < l.parts.length) :
    l.parts[i].length = min cap (l.all.length - i * cap) := by
  have hall := length_all h
  rcases Nat.lt_or_ge i l.full.length with hlt | hge
  · have hmul : (i + 1) * cap ≤ l.full.length * cap := Nat.mul_le_mul_right cap hlt
    have hcap := length_of_full h.full hi hlt
    rw [Nat.succ_mul] at hmul
    omega
  · cases hcur : l.cur with
    | none =>
      simp only [Log.parts, hcur, Option.toList_none, List.append_nil] at hi
      omega
    | some c =>
      have hle := (h.cur c hcur).2
      have hlen : l.parts.length = l.full.length + 1 := by simp [Log.parts, hcur]
      obtain rfl : i = l.full.length := by omega
      rw [hcur, Option.getD_some] at hall
      simp only [Log.parts, hcur, Option.toList_some, List.getElem_concat_length]
      omega

/-- Part `i` at its place in everything written. -/
theorem part_eq (h : Filled cap l) {i : Nat} (hi : i < l.parts.length) :
    l.parts[i] = (l.all.drop (i * cap)).take cap := by
  have hlen := length_part h hi
  have hle : i ≤ l.full.length := by
    have : l.parts.length ≤ l.full.length + 1 := by cases hcur : l.cur <;> simp [Log.parts, hcur]
    omega
  have htake : l.parts.take i = l.full.take i := List.take_append_of_le_length hle
  have hbefore : (l.parts.take i).flatten.length = i * cap := by
    rw [htake, length_flatten_eq fun c hc => h.full c (List.mem_of_mem_take hc), List.length_take,
      Nat.min_eq_left hle]
  have hsplit : l.all = (l.parts.take i).flatten ++ (l.parts[i] ++ (l.parts.drop (i + 1)).flatten) := by
    rw [← List.flatten_cons, ← List.drop_eq_getElem_cons hi, ← List.flatten_append, List.take_append_drop]
    rfl
  have hdrop : l.all.drop (i * cap) = l.parts[i] ++ (l.parts.drop (i + 1)).flatten := by
    rw [hsplit, ← hbefore, List.drop_left]
  rcases Nat.lt_or_ge i l.full.length with hlt | hge
  · have hcap := length_of_full h.full hi hlt
    rw [hdrop, ← hcap, List.take_left]
  · have hnone : l.parts.drop (i + 1) = [] := by
      refine List.drop_eq_nil_of_le ?_
      cases hcur : l.cur <;> simp [Log.parts, hcur] <;> omega
    rw [hdrop, hnone, List.flatten_nil, List.append_nil, List.take_of_length_le]
    rw [hlen]
    exact Nat.min_le_left _ _

/-- A new part is needed iff everything written fills whole parts. -/
theorem needsPart_iff (h : Filled cap l) : l.needsPart cap = true ↔ cap ∣ l.all.length := by
  rw [length_all h]
  cases hcur : l.cur with
  | none => simp [Log.needsPart, hcur, h.none hcur]
  | some c =>
    obtain ⟨hpos, hle⟩ := h.cur c hcur
    simp only [Log.needsPart, hcur, Option.getD_some, decide_eq_true_iff, Nat.dvd_add_right (Nat.dvd_mul_left cap _)]
    exact ⟨fun hge => ⟨1, by omega⟩, Nat.le_of_dvd hpos⟩

/-- The number of the part that is opened next. -/
theorem length_parts_of_needsPart (h : Filled cap l) (hc : 0 < cap) (hn : l.needsPart cap) :
    l.parts.length = l.all.length / cap := by
  rw [Log.all, length_flatten_eq (h.full_of_needsPart hn), Nat.mul_div_cancel _ hc]

/-- Every part but the last is full. -/
theorem length_of_mem_dropLast (hfull : ∀ c ∈ l.full, c.length = cap) (hnone : l.cur = none → l.full = []) :
    ∀ c ∈ l.parts.dropLast, c.length = cap := by
  intro c hc
  cases hcur : l.cur with
  | none =>
    rw [Log.parts, hnone hcur, hcur] at hc
    cases hc
  | some d =>
    rw [Log.parts, hcur, Option.toList_some, List.dropLast_concat] at hc
    exact hfull c hc

/-- `⌈length / cap⌉` parts were opened. -/
theorem length_parts (h : Filled cap l) (hc : 0 < cap) : l.parts.length = (l.all.length + cap - 1) / cap := by
  obtain ⟨full, cur⟩ := l
  have hfull := length_flatten_eq h.full
  cases cur with
  | none =>
    have hnil : full = [] := h.none rfl
    subst hnil
    simp only [Log.parts, Log.all, List.nil_append, Option.toList_none, List.length_nil, List.flatten_nil,
      Nat.zero_add]
    exact (Nat.div_eq_of_lt (by omega)).symm
  | some c =>
    have hcur := h.cur c rfl
    simp only [Log.parts, Log.all, Option.toList_some, List.flatten_append, List.length_append,
      List.length_singleton, List.flatten_singleton] at *
    rw [hfull]
    symm
    rw [Nat.div_eq_iff hc]
    constructor
    · rw [Nat.succ_mul]; omega
    · rw [Nat.succ_mul]; omega

end Rollover
