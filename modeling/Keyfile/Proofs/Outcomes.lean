import Mathlib.Tactic.Common

/-!
# Outcomes of computations that may fail

A computation without effects either returns or fails. It returns from a sequence of steps exactly
when each step returns.
-/

namespace Keyfile

variable {ε α β : Type}

instance instDecidableEqOutcome [DecidableEq ε] [DecidableEq α] :
    DecidableEq (ExceptT ε Id α) :=
  inferInstanceAs (DecidableEq (Except ε α))

lemma ok_or_throw (x : ExceptT ε Id α) : (∃ a, x = pure a) ∨ ∃ error, x = throw error := by
  rcases x with error | a
  · exact .inr ⟨error, rfl⟩
  · exact .inl ⟨a, rfl⟩

lemma pure_inj {a b : α} (h : (pure a : ExceptT ε Id α) = pure b) : a = b := by
  injection h

lemma throw_ne_pure {error : ε} {a : α} : (throw error : ExceptT ε Id α) ≠ pure a := by
  rintro ⟨⟩

lemma bind_eq_pure_iff {x : ExceptT ε Id α} {f : α → ExceptT ε Id β} {b : β} :
    x >>= f = pure b ↔ ∃ a, x = pure a ∧ f a = pure b := by
  rcases ok_or_throw x with ⟨a, rfl⟩ | ⟨error, rfl⟩
  · rw [pure_bind]
    refine ⟨fun h => ⟨a, rfl, h⟩, ?_⟩
    rintro ⟨a', ha, h⟩
    rwa [pure_inj ha]
  · refine ⟨fun h => absurd h throw_ne_pure, ?_⟩
    rintro ⟨a, ha, -⟩
    exact absurd ha throw_ne_pure

lemma map_eq_pure_iff {x : ExceptT ε Id α} {f : α → β} {b : β} :
    f <$> x = pure b ↔ ∃ a, x = pure a ∧ f a = b := by
  rw [map_eq_pure_bind, bind_eq_pure_iff]
  exact ⟨fun ⟨a, ha, h⟩ => ⟨a, ha, pure_inj h⟩, fun ⟨a, ha, h⟩ => ⟨a, ha, by rw [h]⟩⟩

lemma map_eq_throw_iff {x : ExceptT ε Id α} {f : α → β} {error : ε} :
    f <$> x = throw error ↔ x = throw error := by
  rcases ok_or_throw x with ⟨a, rfl⟩ | ⟨other, rfl⟩
  · rw [map_pure]
    exact iff_of_false throw_ne_pure.symm throw_ne_pure.symm
  · constructor <;>
    · rintro ⟨⟩
      rfl

lemma exists_mem_of_mapM {f : α → ExceptT ε Id β} {l : List α} {results : List β}
    (h : l.mapM f = pure results) {b : β} (hb : b ∈ results) : ∃ a ∈ l, f a = pure b := by
  induction l generalizing results with
  | nil =>
    rw [← pure_inj h] at hb
    cases hb
  | cons a rest ih =>
    rw [List.mapM_cons] at h
    obtain ⟨first, hfirst, h⟩ := bind_eq_pure_iff.1 h
    obtain ⟨others, hothers, h⟩ := bind_eq_pure_iff.1 h
    rw [← pure_inj h] at hb
    rcases List.mem_cons.1 hb with rfl | hb
    · exact ⟨a, List.mem_cons_self, hfirst⟩
    · obtain ⟨other, hmem, heq⟩ := ih hothers hb
      exact ⟨other, List.mem_cons_of_mem _ hmem, heq⟩

lemma eq_pure_of_adapt {ε' : Type} {f : ε → ε'} {x : ExceptT ε Id α} {a : α}
    (h : ExceptT.adapt f x = pure a) : x = pure a := by
  rcases ok_or_throw x with ⟨b, rfl⟩ | ⟨error, rfl⟩
  · exact congrArg pure (pure_inj h)
  · cases h

/-- Two computations return related values or fail with related errors. -/
inductive Paired {ε' : Type} (values : α → β → Prop) (errors : ε → ε' → Prop) :
    ExceptT ε Id α → ExceptT ε' Id β → Prop
  | pure {a : α} {b : β} (h : values a b) : Paired values errors (pure a) (pure b)
  | throw {error : ε} {error' : ε'} (h : errors error error') :
      Paired values errors (throw error) (throw error')

namespace Paired

variable {ε' γ δ : Type} {values : α → β → Prop} {errors : ε → ε' → Prop}
  {x : ExceptT ε Id α} {y : ExceptT ε' Id β}

lemma bind {f : α → ExceptT ε Id γ} {g : β → ExceptT ε' Id δ} {results : γ → δ → Prop}
    (h : Paired values errors x y) (hf : ∀ a b, values a b → Paired results errors (f a) (g b)) :
    Paired results errors (x >>= f) (y >>= g) := by
  cases h with
  | pure h =>
    rw [pure_bind, pure_bind]
    exact hf _ _ h
  | throw h => exact .throw h

lemma mono {values' : α → β → Prop} {errors' : ε → ε' → Prop} (h : Paired values errors x y)
    (hvalues : ∀ a b, values a b → values' a b) (herrors : ∀ e e', errors e e' → errors' e e') :
    Paired values' errors' x y := by
  cases h with
  | pure h => exact .pure (hvalues _ _ h)
  | throw h => exact .throw (herrors _ _ h)

lemma exists_eq_pure {a : α} (h : Paired values errors (Pure.pure a) y) :
    ∃ b, y = Pure.pure b ∧ values a b := by
  generalize hx : (Pure.pure a : ExceptT ε Id α) = x at h
  cases h with
  | pure h =>
    obtain rfl := pure_inj hx
    exact ⟨_, rfl, h⟩
  | throw h => exact absurd hx.symm throw_ne_pure

end Paired

end Keyfile
