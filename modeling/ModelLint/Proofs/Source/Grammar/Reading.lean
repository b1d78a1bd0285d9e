import ModelLint.Source.Grammar.Basic

/-!
# What readers give

A property of all values that a reader of tokens can give follows from the values of the readers
that it is made of.

* `Parse.Yields`: the property.
* `Yields.bind`, `Yields.skip`: a reader behind another one.
* **`yields_repeated`, `yields_extended`**: readers that go on until nothing more is there.
* `yields_identifier`: names are identifiers.
-/

namespace ModelLint.Source.Parse

variable {α β : Type} {P : α → Prop} {Q : β → Prop}

/-- All values that a reader gives have a property. -/
def Yields (p : Parse α) (P : α → Prop) : Prop :=
  ∀ c a c', p c = some (a, c') → P a

variable {p q : Parse α} {f : α → Parse β}

theorem Yields.bind (hp : Yields p P) (hf : ∀ a, P a → Yields (f a) Q) : Yields (p >>= f) Q := by
  intro c b c' h
  obtain ⟨⟨a, c₁⟩, ha, hb⟩ := Option.bind_eq_some_iff.mp h
  exact hf a (hp c a c₁ ha) c₁ b c' hb

/-- What comes first does not matter. -/
theorem Yields.skip (hf : ∀ a, Yields (f a) Q) : Yields (p >>= f) Q :=
  Yields.bind (P := fun _ => True) (fun _ _ _ _ => trivial) fun a _ => hf a

theorem Yields.mono {P' : α → Prop} (hp : Yields p P) (h : ∀ a, P a → P' a) : Yields p P' :=
  fun c a c' ha => h a (hp c a c' ha)

theorem Yields.map {g : α → β} (hp : Yields p fun a => Q (g a)) : Yields (g <$> p) Q := by
  rw [← bind_pure_comp]
  refine hp.bind fun a ha c b c' h => ?_
  cases h
  exact ha

theorem yields_pure {a : α} (h : P a) : Yields (pure a) P := by
  intro c b c' hb
  cases hb
  exact h

theorem yields_failure : Yields (failure : Parse α) P := fun _ _ _ h => nomatch h

theorem yields_ite {c : Prop} [Decidable c] (hp : Yields p P) (hq : Yields q P) :
    Yields (if c then p else q) P := by
  split
  · exact hp
  · exact hq

theorem yields_check {c : Prop} [Decidable c] {g : PUnit → Parse β} (h : Yields (g ⟨⟩) Q) :
    Yields (if c then failure >>= g else g ⟨⟩) Q := by
  split
  · exact yields_failure
  · exact h

/-- Something that does not matter may come first. -/
theorem yields_maybe {c : Prop} [Decidable c] {first : Parse PUnit} {g : PUnit → Parse β}
    (h : Yields (g ⟨⟩) Q) : Yields (if c then first >>= g else g ⟨⟩) Q :=
  yields_ite (Yields.skip fun _ => h) h

/-- A value that is read in one of two ways. -/
theorem yields_either {c : Prop} [Decidable c] (hp : Yields p P) (hq : Yields q P)
    (hf : ∀ a, P a → Yields (f a) Q) : Yields (if c then p >>= f else q >>= f) Q := by
  split
  · exact hp.bind hf
  · exact hq.bind hf

theorem Yields.orElse (hp : Yields p P) (hq : Yields q P) : Yields (p <|> q) P := by
  intro c a c' h
  have h : (p c <|> q c) = some (a, c') := h
  rcases hpc : p c with _ | ⟨b, c₁⟩
  · rw [hpc] at h
    exact hq c a c' h
  · rw [hpc] at h
    obtain ⟨rfl, rfl⟩ := Prod.mk.inj (Option.some.inj h)
    exact hp c b c₁ hpc

/-! ## Alternatives and repetition -/

theorem yields_none : Yields (pure none) fun r => ∀ a ∈ r, P a := yields_pure fun _ h => nomatch h

theorem yields_some {a : α} (h : P a) : Yields (pure (some a)) fun r => ∀ a ∈ r, P a := by
  refine yields_pure fun b hb => ?_
  cases hb
  exact h

theorem Yields.found (hp : Yields p P) : Yields (some <$> p) fun r => ∀ a ∈ r, P a := by
  refine Yields.map (hp.mono fun a ha b hb => ?_)
  cases hb
  exact ha

theorem yields_optional (hp : Yields p P) : Yields (optional? p) fun r => ∀ a ∈ r, P a :=
  Yields.orElse hp.found yields_none

theorem Yields.behind (word : String) (hp : Yields p P) :
    Yields (do if ← accept word then some <$> p else return none) fun r => ∀ a ∈ r, P a := by
  refine Yields.skip fun isThere => ?_
  split
  · exact hp.found
  · exact yields_none

theorem yields_repeatUpTo {p : Parse (Option α)} (hp : Yields p fun r => ∀ a ∈ r, P a) :
    (fuel : Nat) → Yields (repeatUpTo p fuel) fun as => ∀ a ∈ as, P a
  | 0 => yields_pure fun _ h => nomatch h
  | fuel + 1 => by
    refine hp.bind fun r hr => ?_
    rcases r with _ | a
    · exact yields_pure fun _ h => nomatch h
    · exact (yields_repeatUpTo hp fuel).bind fun as has =>
        yields_pure (List.forall_mem_cons.mpr ⟨hr a rfl, has⟩)

/-- **What is read until nothing more is there.** -/
theorem yields_repeated {p : Parse (Option α)} (hp : Yields p fun r => ∀ a ∈ r, P a) :
    Yields (repeated p) fun as => ∀ a ∈ as, P a :=
  Yields.skip fun _ => yields_repeatUpTo hp _

theorem yields_extendUpTo {step : α → Parse (Option α)}
    (hstep : ∀ a, P a → Yields (step a) fun r => ∀ b ∈ r, P b) :
    (fuel : Nat) → {a : α} → P a → Yields (extendUpTo step fuel a) P
  | 0, _, ha => yields_pure ha
  | fuel + 1, a, ha => by
    refine (hstep a ha).bind fun r hr => ?_
    rcases r with _ | b
    · exact yields_pure ha
    · exact yields_extendUpTo hstep fuel (hr b rfl)

/-- **What a value becomes** when it goes on until nothing more is there. -/
theorem yields_extended {step : α → Parse (Option α)} {a : α}
    (hstep : ∀ a, P a → Yields (step a) fun r => ∀ b ∈ r, P b) (ha : P a) :
    Yields (extended step a) P :=
  Yields.skip fun _ => yields_extendUpTo hstep _ ha

theorem yields_commaSeparated (hp : Yields p P) :
    Yields (commaSeparated p) fun r => ∀ a ∈ r.1, P a := by
  refine hp.bind fun first hfirst => ?_
  refine (yields_repeated (yields_optional (Yields.skip fun _ => hp))).bind fun rest hrest => ?_
  exact Yields.skip fun _ => yields_pure (List.forall_mem_cons.mpr ⟨hfirst, hrest⟩)

theorem yields_commaJoined (hp : Yields p P) : Yields (commaJoined p) fun as => ∀ a ∈ as, P a := by
  refine hp.bind fun first hfirst => ?_
  refine (yields_repeated (yields_optional (Yields.skip fun _ => hp))).bind fun rest hrest => ?_
  exact yields_pure (List.forall_mem_cons.mpr ⟨hfirst, hrest⟩)

/-! ## Names -/

theorem yields_identifier : Yields identifier fun name => Text.isIdentifier name.toList = true := by
  refine Yields.skip fun t => ?_
  dsimp only
  split
  · next h => exact yields_pure (Bool.and_eq_true_iff.mp h).2
  · exact yields_failure

end ModelLint.Source.Parse
