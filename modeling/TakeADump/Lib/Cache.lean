import Mathlib.Data.Set.Image

/-!
# A write-back cache and a device that writes to memory

The memory is seen by a program through a cache, and by a device directly. `line a` is the cache line of address `a`.

* `State`: the memory, which lines are cached and whether they are dirty, what the cache holds, and the transfer the
  device is running.
* `Op`: what the program does. `Op.wait` returns when the transfer has ended, a successful one only after everything
  was delivered.
* `Disturb`: what happens between two operations of the program. Lines are evicted, dirty ones being written back, and
  the device writes to memory.
* `Run s ops s'`: some interleaving of `ops` with disturbances leads from `s` to `s'`.
* `Faithful`: in every interleaving, every load that follows a successful transfer reads what was delivered.

`faithful_cons` is the invariant rule; `faithful_transfer` says when a transfer whose destination is invalidated only
after it was started is read as delivered, and `exists_run_stale` that otherwise some interleaving is not.
-/

namespace Cache

inductive Status
  | absent
  | clean
  | dirty
  deriving DecidableEq

/-- A transfer: whether it succeeds, where the device may write, and what a successful transfer delivers. -/
structure Transfer (Addr Val : Type) where
  ok : Bool
  dest : Set Addr
  data : Addr → Option Val

structure State (Addr Line Val : Type) where
  mem : Addr → Val
  status : Line → Status
  held : Addr → Val
  busy : Option (Transfer Addr Val)
  written : Set Addr

inductive Op (Addr Val : Type)
  | start (t : Transfer Addr Val)
  | invalidate (A : Set Addr)
  | wait
  | store (A : Set Addr) (f : Addr → Val)
  | load (A : Set Addr)

variable {Addr Line Val : Type}

/-- The device may write `v` to `a`. -/
def Transfer.Writes (t : Transfer Addr Val) (a : Addr) (v : Val) : Prop :=
  if t.ok then t.data a = some v else a ∈ t.dest

/-- The cache with no transfer running. -/
def State.idle (mem : Addr → Val) (status : Line → Status) (held : Addr → Val) : State Addr Line Val :=
  ⟨mem, status, held, none, ∅⟩

section Steps

variable (line : Addr → Line)

/-- The line of `a` is dirty. -/
def State.Dirty (s : State Addr Line Val) (a : Addr) : Prop := s.status (line a) = .dirty

/-- What the program reads at `a`. -/
def State.visible (s : State Addr Line Val) (a : Addr) : Val :=
  if s.status (line a) = .absent then s.mem a else s.held a

open Classical in
/-- A line leaves the cache, written back if it is dirty. -/
noncomputable def State.evict (s : State Addr Line Val) (l : Line) : State Addr Line Val :=
  { s with
    mem := fun a => if line a = l ∧ s.status l = .dirty then s.held a else s.mem a
    status := fun l' => if l' = l then .absent else s.status l' }

open Classical in
/-- The device writes `f` to the addresses of `D`. -/
noncomputable def State.dma (s : State Addr Line Val) (D : Set Addr) (f : Addr → Val) : State Addr Line Val :=
  { s with
    mem := fun a => if a ∈ D then f a else s.mem a
    written := s.written ∪ D }

/-- What may happen between two operations. -/
inductive Disturb (s : State Addr Line Val) : State Addr Line Val → Prop
  | evict (l : Line) : Disturb s (s.evict line l)
  | dma {t : Transfer Addr Val} {D : Set Addr} {f : Addr → Val} (hbusy : s.busy = some t)
      (hwrites : ∀ a ∈ D, t.Writes a (f a)) : Disturb s (s.dma D f)

open Classical in
/-- The lines of `A` are cached. -/
noncomputable def State.fetch (s : State Addr Line Val) (A : Set Addr) : State Addr Line Val :=
  { s with
    status := fun l => if l ∈ line '' A ∧ s.status l = .absent then .clean else s.status l
    held := fun a => if line a ∈ line '' A ∧ s.status (line a) = .absent then s.mem a else s.held a }

/-- The operation can return. -/
def Op.Enabled (s : State Addr Line Val) : Op Addr Val → Prop
  | .wait => ∃ t, s.busy = some t ∧ (t.ok = true → ∀ a v, t.data a = some v → a ∈ s.written)
  | _ => True

open Classical in
noncomputable def Op.apply (s : State Addr Line Val) : Op Addr Val → State Addr Line Val
  | .start t => { s with busy := some t, written := ∅ }
  | .invalidate A => { s with status := fun l => if l ∈ line '' A then .absent else s.status l }
  | .wait => { s with busy := none }
  | .store A f =>
    { s.fetch line A with
      status := fun l => if l ∈ line '' A then .dirty else s.status l
      held := fun a => if a ∈ A then f a else (s.fetch line A).held a }
  | .load A => s.fetch line A

/-- Some interleaving of the operations with disturbances. -/
inductive Run : State Addr Line Val → List (Op Addr Val) → State Addr Line Val → Prop
  | nil (s) : Run s [] s
  | disturb {s s₁ s' ops} (hd : Disturb line s s₁) (hr : Run s₁ ops s') : Run s ops s'
  | op {s s' op ops} (he : Op.Enabled s op) (hr : Run (op.apply line s) ops s') : Run s (op :: ops) s'

/-- The last transfer after an operation, if it succeeds and nothing was stored since. -/
def latest : Option (Transfer Addr Val) → Op Addr Val → Option (Transfer Addr Val)
  | _, .start t => if t.ok then some t else none
  | _, .store _ _ => none
  | last, _ => last

/-- At the addresses of `A` the program reads what the transfer delivered. -/
def Delivers (last : Option (Transfer Addr Val)) (A : Set Addr) (s : State Addr Line Val) : Prop :=
  ∀ t, last = some t → ∀ a ∈ A, ∀ v, t.data a = some v → s.visible line a = v

/-- Every load, in every interleaving, reads what the last transfer delivered. -/
def Faithful (last : Option (Transfer Addr Val)) (s : State Addr Line Val) (ops : List (Op Addr Val)) : Prop :=
  ∀ pre A post, ops = pre ++ .load A :: post → ∀ s', Run line s pre s' → Delivers line (pre.foldl latest last) A s'

end Steps

variable {line : Addr → Line} {s s' : State Addr Line Val} {ops ops' : List (Op Addr Val)}

/-! ## Interleavings -/

theorem run_append (h : Run line s ops s') {s'' : State Addr Line Val} (h' : Run line s' ops' s'') :
    Run line s (ops ++ ops') s'' := by
  induction h with
  | nil s => exact h'
  | disturb hd _ ih => exact .disturb hd (ih h')
  | op he _ ih => exact .op he (ih h')

/-- A property that disturbances keep. -/
def Stable (line : Addr → Line) (P : State Addr Line Val → Prop) : Prop :=
  ∀ {s s'}, P s → Disturb line s s' → P s'

variable {P : State Addr Line Val → Prop}

theorem Stable.nil (hP : Stable line P) (h : P s) (hr : Run line s [] s') : P s' := by
  generalize hops : ([] : List (Op Addr Val)) = ops at hr
  induction hr with
  | nil s => exact h
  | disturb hd _ ih => exact ih (hP h hd) hops
  | op _ _ _ => cases hops

/-- The disturbances before an operation keep what is stable. -/
theorem Stable.cons (hP : Stable line P) (h : P s) {op : Op Addr Val} (hr : Run line s (op :: ops) s') :
    ∃ s₁, P s₁ ∧ op.Enabled s₁ ∧ Run line (op.apply line s₁) ops s' := by
  generalize hops : op :: ops = ops' at hr
  induction hr with
  | nil s => cases hops
  | disturb hd _ ih => exact ih (hP h hd) hops
  | op he hr _ =>
    cases hops
    exact ⟨_, h, he, hr⟩

section Faithful

variable {last : Option (Transfer Addr Val)} {op : Op Addr Val}

theorem faithful_nil : Faithful line last s [] := by
  intro pre A post h
  cases pre <;> cases h

/-- **The invariant rule**: what is stable before an operation is enough for the rest. -/
theorem faithful_cons (hP : Stable line P) (h : P s) (hload : ∀ A s₁, op = .load A → P s₁ → Delivers line last A s₁)
    (hrest : ∀ s₁, P s₁ → op.Enabled s₁ → Faithful line (latest last op) (op.apply line s₁) ops) :
    Faithful line last s (op :: ops) := by
  intro pre A post heq s' hr
  cases pre with
  | nil =>
    cases heq
    exact hload A s' rfl (hP.nil h hr)
  | cons op' pre =>
    cases heq
    obtain ⟨s₁, h₁, he, hr₁⟩ := hP.cons h hr
    exact hrest s₁ h₁ he pre A post rfl s' hr₁

/-- A load at the end of an interleaving of a faithful program. -/
theorem Faithful.delivers {A : Set Addr} {pre post : List (Op Addr Val)}
    (h : Faithful line last s (pre ++ .load A :: post)) (hr : Run line s pre s') :
    Delivers line (pre.foldl latest last) A s' := h pre A post rfl s' hr

end Faithful

/-! ## What disturbances keep -/

theorem dirty_evict {l : Line} {a : Addr} :
    (s.evict line l).Dirty line a ↔ line a ≠ l ∧ s.Dirty line a := by
  unfold State.Dirty State.evict
  by_cases h : line a = l
  · simp [h]
  · simp [h]

theorem absent_evict {l : Line} {a : Addr} (h : s.status (line a) = .absent) :
    (s.evict line l).status (line a) = .absent := by
  by_cases hl : line a = l
  · exact if_pos hl
  · exact (if_neg hl).trans h

/-- A write-back changes memory only below a dirty line. -/
theorem mem_evict (line : Addr → Line) (s : State Addr Line Val) (l : Line) (a : Addr) :
    (s.evict line l).mem a = s.mem a ∨ s.Dirty line a ∧ (s.evict line l).mem a = s.held a := by
  unfold State.evict State.Dirty
  by_cases h : line a = l ∧ s.status l = .dirty
  · exact Or.inr ⟨h.1 ▸ h.2, if_pos h⟩
  · exact Or.inl (if_neg h)

theorem mem_evict_of_not_dirty {l : Line} {a : Addr} (h : ¬ s.Dirty line a) : (s.evict line l).mem a = s.mem a :=
  (mem_evict line s l a).resolve_right fun h' => h h'.1

/-- A successful transfer keeps what it has delivered. -/
theorem mem_dma {t : Transfer Addr Val} {D : Set Addr} {f : Addr → Val} (hw : ∀ a ∈ D, t.Writes a (f a))
    (ht : t.ok = true) {a : Addr} {v : Val} (hv : t.data a = some v) (hmem : a ∈ s.written → s.mem a = v)
    (ha : a ∈ (s.dma D f).written) : (s.dma D f).mem a = v := by
  by_cases hD : a ∈ D
  · have hf := hw a hD
    rw [Transfer.Writes, if_pos ht, hv] at hf
    exact (if_pos hD).trans (Option.some.inj hf).symm
  · exact (if_neg hD).trans (hmem (ha.resolve_right hD))

/-- Idle, with every dirty line holding what `Q` allows. -/
def Dirties (line : Addr → Line) (Q : Addr → Val → Prop) (s : State Addr Line Val) : Prop :=
  s.busy = none ∧ ∀ a, s.Dirty line a → Q a (s.held a)

theorem stable_dirties (Q : Addr → Val → Prop) : Stable line (Dirties line Q) := by
  rintro s s' ⟨hbusy, hQ⟩ (l | ⟨hb, -⟩)
  · exact ⟨hbusy, fun a ha => hQ a (dirty_evict.1 ha).2⟩
  · rw [hbusy] at hb
    cases hb

/-- The transfer was started: what was delivered so far cannot be overwritten by other bytes. -/
def Started (line : Addr → Line) (t : Transfer Addr Val) (s : State Addr Line Val) : Prop :=
  s.busy = some t ∧ (t.ok = true → ∀ a v, t.data a = some v →
    (a ∈ s.written → s.mem a = v) ∧ (s.Dirty line a → s.held a = v))

theorem stable_started (t : Transfer Addr Val) : Stable line (Started line t) := by
  rintro s s' ⟨hbusy, hok⟩ (l | @⟨t', D, f, hb, hw⟩)
  · refine ⟨hbusy, fun ht a v hv => ⟨fun ha => ?_, fun ha => (hok ht a v hv).2 (dirty_evict.1 ha).2⟩⟩
    rcases mem_evict line s l a with h | ⟨hd, h⟩
    · exact h.trans ((hok ht a v hv).1 ha)
    · exact h.trans ((hok ht a v hv).2 hd)
  · rw [hbusy] at hb
    cases hb
    exact ⟨hbusy, fun ht a v hv => ⟨mem_dma hw ht hv (hok ht a v hv).1, (hok ht a v hv).2⟩⟩

/-- The destination was dropped from the cache. -/
def Dropped (line : Addr → Line) (t : Transfer Addr Val) (A : Set Addr) (s : State Addr Line Val) : Prop :=
  s.busy = some t ∧ ∀ a ∈ A, s.status (line a) = .absent ∧
    (t.ok = true → ∀ v, t.data a = some v → a ∈ s.written → s.mem a = v)

theorem stable_dropped (t : Transfer Addr Val) (A : Set Addr) : Stable line (Dropped line t A) := by
  rintro s s' ⟨hbusy, hA⟩ (l | @⟨t', D, f, hb, hw⟩)
  · refine ⟨hbusy, fun a ha => ⟨absent_evict (hA a ha).1, fun ht v hv hwr => ?_⟩⟩
    have hclean : ¬ s.Dirty line a := by simp [State.Dirty, (hA a ha).1]
    exact (mem_evict_of_not_dirty hclean).trans ((hA a ha).2 ht v hv hwr)
  · rw [hbusy] at hb
    cases hb
    exact ⟨hbusy, fun a ha => ⟨(hA a ha).1, fun ht v hv => mem_dma hw ht hv ((hA a ha).2 ht v hv)⟩⟩

/-- The transfer has ended, and what it delivered is what the program sees. -/
def Settled (line : Addr → Line) (t : Transfer Addr Val) (A : Set Addr) (s : State Addr Line Val) : Prop :=
  s.busy = none ∧ ∀ a ∈ A, ¬ s.Dirty line a ∧ (t.ok = true → ∀ v, t.data a = some v →
    s.mem a = v ∧ (s.status (line a) ≠ .absent → s.held a = v))

theorem stable_settled (t : Transfer Addr Val) (A : Set Addr) : Stable line (Settled line t A) := by
  rintro s s' ⟨hbusy, hA⟩ (l | ⟨hb, -⟩)
  · refine ⟨hbusy, fun a ha => ⟨fun hd => (hA a ha).1 (dirty_evict.1 hd).2, fun ht v hv => ?_⟩⟩
    obtain ⟨hmem, hheld⟩ := (hA a ha).2 ht v hv
    refine ⟨(mem_evict_of_not_dirty (hA a ha).1).trans hmem, fun hne => hheld fun habs => ?_⟩
    exact hne (absent_evict habs)
  · rw [hbusy] at hb
    cases hb

theorem Settled.visible {t : Transfer Addr Val} {A : Set Addr} (h : Settled line t A s) {a : Addr} (ha : a ∈ A)
    (ht : t.ok = true) {v : Val} (hv : t.data a = some v) : s.visible line a = v := by
  obtain ⟨hmem, hheld⟩ := (h.2 a ha).2 ht v hv
  unfold State.visible
  split
  · exact hmem
  · rename_i hne
    exact hheld hne

/-! ## What operations do -/

theorem dirty_fetch {A : Set Addr} {a : Addr} : (s.fetch line A).Dirty line a ↔ s.Dirty line a := by
  unfold State.Dirty State.fetch
  by_cases h : line a ∈ line '' A ∧ s.status (line a) = .absent
  · simp [h]
  · simp only [h, if_false]

theorem held_fetch_of_dirty {A : Set Addr} {a : Addr} (h : s.Dirty line a) :
    (s.fetch line A).held a = s.held a := by
  have hne : ¬ (line a ∈ line '' A ∧ s.status (line a) = .absent) := by
    rintro ⟨-, habs⟩
    rw [State.Dirty, habs] at h
    cases h
  exact if_neg hne

/-- Loads leave the dirty lines alone. -/
theorem Dirties.fetch {Q : Addr → Val → Prop} (h : Dirties line Q s) (A : Set Addr) :
    Dirties line Q (s.fetch line A) := by
  refine ⟨h.1, fun a ha => ?_⟩
  have hd := dirty_fetch.1 ha
  rw [held_fetch_of_dirty hd]
  exact h.2 a hd

theorem Settled.fetch {t : Transfer Addr Val} {A : Set Addr} (h : Settled line t A s) (B : Set Addr) :
    Settled line t A (s.fetch line B) := by
  refine ⟨h.1, fun a ha => ⟨fun hd => (h.2 a ha).1 (dirty_fetch.1 hd), fun ht v hv => ?_⟩⟩
  obtain ⟨hmem, hheld⟩ := (h.2 a ha).2 ht v hv
  refine ⟨hmem, fun hne => ?_⟩
  unfold State.fetch at hne ⊢
  by_cases hf : line a ∈ line '' B ∧ s.status (line a) = .absent
  · simpa only [hf, and_self, if_true] using hmem
  · simp only [hf, if_false] at hne ⊢
    exact hheld hne

section Rules

variable {last : Option (Transfer Addr Val)} {t : Transfer Addr Val} {A Z : Set Addr} {Q : Addr → Val → Prop}

/-- **A transfer whose destination is invalidated after its start.** What it delivers is read if the dirty lines it
meets hold the same. -/
theorem faithful_transfer (h : Dirties line Q s)
    (hQ : t.ok = true → ∀ a v, t.data a = some v → a ∈ A ∧ ∀ x, Q a x → x = v)
    (hrest : ∀ s', Settled line t A s' → Faithful line (if t.ok then some t else none) s' ops) :
    Faithful line last s (.start t :: .invalidate A :: .wait :: ops) := by
  refine faithful_cons (stable_dirties Q) h (fun _ _ h => by cases h) fun s₁ h₁ _ => ?_
  have hstart : Started line t (Op.apply line s₁ (.start t)) :=
    ⟨rfl, fun ht a v hv => ⟨fun ha => absurd ha (Set.notMem_empty a), fun ha => (hQ ht a v hv).2 _ (h₁.2 a ha)⟩⟩
  refine faithful_cons (stable_started t) hstart (fun _ _ h => by cases h) fun s₂ h₂ _ => ?_
  have hdrop : Dropped line t A (Op.apply line s₂ (.invalidate A)) := by
    refine ⟨h₂.1, fun a ha => ⟨if_pos ⟨a, ha, rfl⟩, fun ht v hv hwr => (h₂.2 ht a v hv).1 hwr⟩⟩
  refine faithful_cons (stable_dropped t A) hdrop (fun _ _ h => by cases h) fun s₃ h₃ he => ?_
  obtain ⟨t', hbusy, hdone⟩ := he
  rw [h₃.1] at hbusy
  cases hbusy
  refine hrest _ ⟨rfl, fun a ha => ⟨?_, fun ht v hv => ?_⟩⟩
  · simp [State.Dirty, Op.apply, (h₃.2 a ha).1]
  · exact ⟨(h₃.2 a ha).2 ht v hv (hdone ht a v hv), fun hne => absurd (h₃.2 a ha).1 hne⟩

/-- What was delivered is loaded. -/
theorem faithful_load (h : Settled line t A s) (hA : t.ok = true → ∀ a v, t.data a = some v → a ∈ A) (B : Set Addr)
    (hrest : ∀ s', Settled line t A s' → Faithful line (if t.ok then some t else none) s' ops) :
    Faithful line (if t.ok then some t else none) s (.load B :: ops) := by
  refine faithful_cons (stable_settled t A) h ?_ fun s₁ h₁ _ => hrest _ (h₁.fetch B)
  rintro C s₁ - h₁ t' ht' a - v hv
  cases hok : t.ok with
  | false => simp [hok] at ht'
  | true =>
    rw [hok, if_pos rfl] at ht'
    cases ht'
    exact h₁.visible (hA hok a v hv) hok hv

/-- Stores, then a load of what was stored. -/
theorem faithful_store (h : Dirties line Q s) (f : Addr → Val) (B : Set Addr)
    (hrest : ∀ s', Dirties line (fun a x => a ∈ Z → x = f a) s' → Faithful line none s' ops) :
    Faithful line last s (.store Z f :: .load B :: ops) := by
  refine faithful_cons (stable_dirties Q) h (fun _ _ h => by cases h) fun s₁ h₁ _ => ?_
  have hstored : Dirties line (fun a x => a ∈ Z → x = f a) (Op.apply line s₁ (.store Z f)) :=
    ⟨h₁.1, fun a _ ha => if_pos ha⟩
  refine faithful_cons (stable_dirties _) hstored ?_ fun s₂ h₂ _ => hrest _ (h₂.fetch B)
  rintro C s₂ - - t' ht'
  cases ht'

end Rules

/-! ## Interleavings that exist -/

section Exists

variable {t : Transfer Addr Val} {A : Set Addr}

/-- The device delivers everything at once. -/
noncomputable def State.deliver (s : State Addr Line Val) (t : Transfer Addr Val) : State Addr Line Val :=
  s.dma {a | (t.data a).isSome} fun a => (t.data a).getD (s.mem a)

theorem disturb_deliver (hbusy : s.busy = some t) (ht : t.ok = true) : Disturb line s (s.deliver t) := by
  refine .dma hbusy fun a ha => ?_
  obtain ⟨v, hv⟩ := Option.isSome_iff_exists.1 ha
  rw [Transfer.Writes, if_pos ht, hv]
  rfl

theorem enabled_wait (hbusy : s.busy = some t)
    (hdone : t.ok = true → ∀ a v, t.data a = some v → a ∈ s.written) : Op.Enabled s (.wait : Op Addr Val) :=
  ⟨t, hbusy, hdone⟩

variable (line) in
/-- Every transfer can run to its end. -/
theorem exists_run_transfer (s : State Addr Line Val) (t : Transfer Addr Val) (A : Set Addr) :
    ∃ s', Run line s [.start t, .invalidate A, .wait] s' := by
  cases ht : t.ok with
  | true =>
    refine ⟨_, .op trivial (.disturb (disturb_deliver (t := t) rfl ht) (.op trivial (.op ?_ (.nil _))))⟩
    refine enabled_wait (t := t) rfl fun _ a v hv => Or.inr ?_
    simp [hv]
  | false =>
    refine ⟨_, .op trivial (.op trivial (.op ?_ (.nil _)))⟩
    exact enabled_wait (t := t) rfl fun h => by rw [ht] at h; cases h

/-- **The stale interleaving.** A dirty line below a successful transfer may be written back over what was delivered,
before it is invalidated. -/
theorem exists_run_stale (ht : t.ok = true) {a : Addr} (hdirty : s.Dirty line a) :
    ∃ s', Run line s [.start t, .invalidate A, .wait] s' ∧ s'.visible line a = s.held a := by
  refine ⟨_, .op trivial (.disturb (disturb_deliver (t := t) rfl ht)
    (.disturb (.evict (line a)) (.op trivial (.op ?_ (.nil _))))), ?_⟩
  · refine enabled_wait (t := t) rfl fun _ a v hv => Or.inr ?_
    simp [hv]
  · rw [State.Dirty] at hdirty
    simp [State.visible, Op.apply, State.evict, State.deliver, State.dma, hdirty]

variable (line) in
/-- After a store, if nothing is evicted, the lines are dirty and hold what was stored. -/
theorem exists_run_store (s : State Addr Line Val) (Z B : Set Addr) (f : Addr → Val) :
    ∃ s', Run line s [.store Z f, .load B] s' ∧ ∀ a ∈ Z, s'.Dirty line a ∧ s'.held a = f a := by
  refine ⟨_, .op trivial (.op trivial (.nil _)), fun a ha => ?_⟩
  have hdirty : (Op.apply line s (.store Z f)).Dirty line a := if_pos ⟨a, ha, rfl⟩
  exact ⟨dirty_fetch.2 hdirty, (held_fetch_of_dirty hdirty).trans (if_pos ha)⟩

end Exists

end Cache
