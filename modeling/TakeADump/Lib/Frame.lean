import TakeADump.Lib.Loop

/-!
# Frames

A frame bounds what a run may change: a reflexive and transitive relation between the state before and the state after.
`Within F E x` says that every run of `x` stays inside the frame, whether it returns or stops, and stops only as `E`
allows. The rules follow the shape of the program, so a frame condition is stated for the primitive operations and
composed from there.
-/

namespace Imp

variable {ε σ α β L : Type}

structure Frame (σ : Type) where
  rel : σ → σ → Prop
  refl : ∀ s, rel s s
  trans : ∀ {s t u}, rel s t → rel t u → rel s u

/-- Every run of `x` stays inside the frame. -/
def Within (F : Frame σ) (E : ε → Prop) (x : EStateM ε σ α) : Prop :=
  ∀ s, Ends x s (fun _ s' => F.rel s s') (fun e s' => E e ∧ F.rel s s')

section Within

variable {F G : Frame σ} {E : ε → Prop} {x y : EStateM ε σ α}

theorem within_pure (a : α) : Within F E (pure a : EStateM ε σ α) := fun s => ends_pure.2 (F.refl s)

theorem within_get : Within F E (get : EStateM ε σ σ) := fun s => ends_get.2 (F.refl s)

theorem within_modify {f : σ → σ} (h : ∀ s, F.rel s (f s)) : Within F E (modify f : EStateM ε σ PUnit) :=
  fun s => ends_modify.2 (h s)

/-- A run inside the frame, continued from where it returns. -/
theorem Within.then {Q : β → σ → Prop} {E' : ε → σ → Prop} {f : α → EStateM ε σ β} {s : σ} (hx : Within F E x)
    (hE : ∀ e s', E e → F.rel s s' → E' e s') (hf : ∀ a s', F.rel s s' → Ends (f a) s' Q E') :
    Ends (x >>= f) s Q E' := by
  rw [ends_bind]
  exact (hx s).mono (fun a s' h => hf a s' h) (fun e s' h => hE e s' h.1 h.2)

theorem within_bind {f : α → EStateM ε σ β} (hx : Within F E x) (hf : ∀ a, Within F E (f a)) :
    Within F E (x >>= f) := by
  intro s
  refine hx.then (fun _ _ he h => ⟨he, h⟩) fun a s' h => ?_
  exact (hf a s').mono (fun _ _ h' => F.trans h h') (fun _ _ h' => ⟨h'.1, F.trans h h'.2⟩)

/-- A program is judged state by state where it starts by looking at the state. -/
theorem within_get_bind {f : σ → EStateM ε σ β} (hf : ∀ s, Within F E (f s)) :
    Within F E (get >>= f) := within_bind within_get hf

theorem within_ite {c : Prop} [Decidable c] (hx : c → Within F E x) (hy : ¬c → Within F E y) :
    Within F E (if c then x else y) := by
  by_cases h : c
  · rw [if_pos h]
    exact hx h
  · rw [if_neg h]
    exact hy h

/-- A loop stays inside the frame if every round does. -/
theorem within_loop {stuck : ε} {body : L → EStateM ε σ (Round L α)} (hstuck : E stuck)
    (hbody : ∀ l, Within F E (body l)) (n : Nat) (l : L) : Within F E (loop stuck body n l) := by
  intro s
  refine ends_loop (I := fun _ s' => F.rel s s') ?_ (fun _ _ h => ⟨hstuck, h⟩) n (F.refl s)
  intro l' s' h
  refine (hbody l' s').mono ?_ (fun _ _ h' => ⟨h'.1, F.trans h h'.2⟩)
  rintro (l'' | a) s'' h'
  · exact F.trans h h'
  · exact F.trans h h'

/-- A larger frame. -/
theorem Within.mono {E' : ε → Prop} (hx : Within F E x) (hF : ∀ {s t}, F.rel s t → G.rel s t)
    (hE : ∀ e, E e → E' e) : Within G E' x :=
  fun s => (hx s).mono (fun _ _ h => hF h) (fun e _ h => ⟨hE e h.1, hF h.2⟩)

end Within

end Imp
