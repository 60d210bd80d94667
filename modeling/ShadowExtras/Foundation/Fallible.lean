import ShadowExtras.Foundation.Run

/-!
# When a fallible computation succeeds

A computation in `Except` that only looks for faults is understood once it is known on which inputs
it succeeds. `Succeeds` says that it does, and the rules reduce it along the structure of the
program: a sequence succeeds if both parts do, and a loop over a list if the body does for every
element, provided that what the body does with an element does not depend on what it has gathered
before.
-/

namespace Foundation

universe u

variable {ε : Type*} {α β : Type u}

/-- The computation does not fault. -/
def Succeeds (r : Except ε α) : Prop := ∃ a, r = .ok a

theorem succeeds_ok (a : α) : Succeeds (.ok a : Except ε α) := ⟨a, rfl⟩

/-- A computation that was evaluated. -/
theorem succeeds_of_isOk {r : Except ε α} (h : r.isOk = true) : Succeeds r := by
  cases r with
  | error e => cases h
  | ok a => exact succeeds_ok a

theorem not_succeeds_error (e : ε) : ¬Succeeds (.error e : Except ε α) := by
  rintro ⟨a, h⟩
  simp at h

@[simp] theorem succeeds_pure (a : α) : Succeeds (pure a : Except ε α) := ⟨a, rfl⟩

/-- One part after the other. -/
theorem succeeds_bind {r : Except ε α} {f : α → Except ε β} :
    Succeeds (r >>= f) ↔ ∃ a, r = .ok a ∧ Succeeds (f a) := by
  cases r with
  | error e =>
    simp only [reduceCtorEq, false_and, exists_false, iff_false]
    exact not_succeeds_error e
  | ok a =>
    constructor
    · intro h
      exact ⟨a, rfl, h⟩
    · rintro ⟨b, hb, h⟩
      obtain rfl := Except.ok.inj hb
      exact h

/-- A second part whose success does not depend on the result of the first. -/
theorem succeeds_bind_const {r : Except ε α} {f : α → Except ε β} {P : Prop}
    (hf : ∀ a, Succeeds (f a) ↔ P) : Succeeds (r >>= f) ↔ Succeeds r ∧ P := by
  rw [succeeds_bind]
  constructor
  · rintro ⟨a, ha, hrest⟩
    exact ⟨⟨a, ha⟩, (hf a).mp hrest⟩
  · rintro ⟨⟨a, ha⟩, hrest⟩
    exact ⟨a, ha, (hf a).mpr hrest⟩

/-- Two computations whose results agree in the second component do so after a function on it. -/
theorem map_snd_congr {γ : Type u} {r r' : Except ε (α × β)} {f : β → γ}
    (h : r.map Prod.snd = r'.map Prod.snd) :
    (r.map fun a => (a.1, f a.2)).map Prod.snd = (r'.map fun a => (a.1, f a.2)).map Prod.snd := by
  have hmap : ∀ r : Except ε (α × β),
      (r.map fun a => (a.1, f a.2)).map Prod.snd = (r.map Prod.snd).map f := by
    intro r
    cases r <;> rfl
  rw [hmap, hmap, h]

/-- The results of a computation with a function behind it. -/
theorem map_eq_ok {r : Except ε α} {f : α → β} {b : β} :
    r.map f = .ok b ↔ ∃ a, r = .ok a ∧ f a = b := by
  cases r with
  | error e => simp [Except.map]
  | ok a => simp [Except.map]

/-- The results of two computations one after the other. -/
theorem bind_eq_ok {r : Except ε α} {f : α → Except ε β} {b : β} :
    r.bind f = .ok b ↔ ∃ a, r = .ok a ∧ f a = .ok b := by
  cases r with
  | error e => simp [Except.bind]
  | ok a => simp [Except.bind]

/-- A result that was evaluated, with what is decided about it. -/
theorem exists_ok_of_map {α : Type} {r : Except ε α} {P : α → Prop} [DecidablePred P]
    (h : r.map (fun a => decide (P a)) = .ok true) : ∃ a, r = .ok a ∧ P a := by
  obtain ⟨a, ha, hP⟩ := map_eq_ok.mp h
  exact ⟨a, ha, of_decide_eq_true hP⟩

/-- A map succeeds just if its argument does. -/
theorem succeeds_map {r : Except ε α} {f : α → β} : Succeeds (r.map f) ↔ Succeeds r := by
  cases r with
  | error e =>
    constructor
    · exact fun h => absurd h (not_succeeds_error e)
    · exact fun h => absurd h (not_succeeds_error e)
  | ok a =>
    constructor
    · exact fun _ => succeeds_ok a
    · exact fun _ => succeeds_ok (f a)

/-- A loop whose body succeeds on an element or not, whatever was gathered before. -/
theorem succeeds_foldlM {f : β → α → Except ε β} {P : α → Prop}
    (hf : ∀ b a, Succeeds (f b a) ↔ P a) (l : List α) (b : β) :
    Succeeds (l.foldlM f b) ↔ ∀ a ∈ l, P a := by
  induction l generalizing b with
  | nil => simp
  | cons a l ih =>
    rw [List.foldlM_cons, succeeds_bind, List.forall_mem_cons, ← hf b a]
    constructor
    · rintro ⟨c, hc, hrest⟩
      exact ⟨⟨c, hc⟩, (ih c).mp hrest⟩
    · rintro ⟨⟨c, hc⟩, hrest⟩
      exact ⟨c, hc, (ih c).mpr hrest⟩

/-- A loop that gathers the results. -/
theorem succeeds_mapM {f : α → Except ε β} (l : List α) :
    Succeeds (l.mapM f) ↔ ∀ a ∈ l, Succeeds (f a) := by
  induction l with
  | nil => simp
  | cons a l ih =>
    rw [List.mapM_cons, succeeds_bind, List.forall_mem_cons]
    constructor
    · rintro ⟨b, hb, hrest⟩
      obtain ⟨bs, hbs, -⟩ := succeeds_bind.mp hrest
      exact ⟨⟨b, hb⟩, ih.mp ⟨bs, hbs⟩⟩
    · rintro ⟨⟨b, hb⟩, hrest⟩
      obtain ⟨bs, hbs⟩ := ih.mpr hrest
      exact ⟨b, hb, succeeds_bind.mpr ⟨bs, hbs, succeeds_pure _⟩⟩

/-- A run of a machine that succeeds from a state exactly on the events that meet a condition, as
long as an invariant holds that every step keeps. -/
theorem succeeds_runSteps {σ ε' φ : Type*} {step : σ → ε' → Except φ σ} {P : σ → ε' → Prop} {s : σ}
    {es : List ε'} (Inv : σ → Prop) (hiff : ∀ s e, Inv s → (Succeeds (step s e) ↔ P s e))
    (hstep : ∀ s e s', Inv s → step s e = .ok s' → Inv s') (hs : Inv s) :
    Succeeds (runSteps step s es) ↔ StepsMeet step P s es := by
  constructor
  · intro h
    induction es generalizing s with
    | nil => trivial
    | cons e es ih =>
      obtain ⟨t, ht⟩ := h
      obtain ⟨u, hu, hrest⟩ := runSteps_cons_eq_ok.mp ht
      refine ⟨(hiff s e hs).mp ⟨u, hu⟩, fun s' hs' => ?_⟩
      obtain rfl := Except.ok.inj (hu.symm.trans hs')
      exact ih (hstep s e u hs hu) ⟨t, hrest⟩
  · intro h
    obtain ⟨t, ht, -⟩ := runSteps_ok_of_stepsMeet Inv (fun s e hs hP => by
      obtain ⟨s', hs'⟩ := (hiff s e hs).mpr hP
      exact ⟨s', hs', hstep s e s' hs hs'⟩) hs h
    exact ⟨t, ht⟩

end Foundation
