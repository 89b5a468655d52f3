import Mathlib.Logic.Basic
/-!
# Outcomes of stateful computations

A computation that may fail keeps its state when it does. Three facts open a
sequence of computations at the outcome of the first one. Two computations are
compared by their outcomes: both give results or both fail, in related states.

- `finalState` is the state a computation ends in, failed or not; `errorOf?` is the error
  of an outcome without a state.
- `map_eq_ok_iff` and `map_eq_error_iff` open such an outcome whose result is mapped.
- `Corresponds` relates two outcomes, `Corresponds.bind` goes on with both.
-/

namespace ScpiScript

variable {ε σ α β δ ρ γ κ : Type}

/-- A sequence goes on with the result of its first part. -/
theorem bind_of_ok {m : EStateM ε σ α} {f : α → EStateM ε σ β} {s t : σ} {a : α}
    (h : m s = .ok a t) : (m >>= f) s = f a t := by
  show EStateM.bind m f s = f a t
  rw [EStateM.bind, h]

/-- A sequence fails where its first part fails. -/
theorem bind_of_error {m : EStateM ε σ α} {f : α → EStateM ε σ β} {s t : σ} {e : ε}
    (h : m s = .error e t) : (m >>= f) s = .error e t := by
  show EStateM.bind m f s = .error e t
  rw [EStateM.bind, h]

/-- Reading the state does not change it. -/
theorem bind_get (f : σ → EStateM ε σ β) (s : σ) : (get >>= f) s = f s s := rfl

/-- The error in an outcome, if it is one. -/
def errorOf? : Except ε α → Option ε
  | .ok _ => none
  | .error e => some e

theorem errorOf?_eq_some {result : Except ε α} {e : ε} :
    errorOf? result = some e ↔ result = .error e := by
  cases result with
  | ok a => simp [errorOf?]
  | error e' => simp [errorOf?]

@[simp] theorem errorOf?_map (f : α → β) (result : Except ε α) :
    errorOf? (result.map f) = errorOf? result := by
  cases result <;> rfl

/-- A mapped outcome is a result exactly if the outcome was one. -/
theorem map_eq_ok_iff {f : α → β} {result : Except ε α} {b : β} :
    result.map f = .ok b ↔ ∃ a, result = .ok a ∧ f a = b := by
  cases result with
  | error e => exact iff_of_false nofun nofun
  | ok a =>
    constructor
    · exact fun h => ⟨a, rfl, Except.ok.inj h⟩
    · rintro ⟨_, heq, rfl⟩
      rw [← Except.ok.inj heq]
      rfl

/-- A mapped outcome fails as the outcome does. -/
theorem map_eq_error_iff {f : α → β} {result : Except ε α} {e : ε} :
    result.map f = .error e ↔ result = .error e := by
  cases result with
  | error e' =>
    show Except.error e' = Except.error e ↔ Except.error e' = Except.error e
    rw [Except.error.injEq, Except.error.injEq]
  | ok a => exact iff_of_false nofun nofun

/-- The state that a computation ends in. -/
def finalState : EStateM.Result ε σ α → σ
  | .ok _ s => s
  | .error _ s => s

/-- Two outcomes are both results or both failures, with related values, related
errors and related states. -/
inductive Corresponds (A : α → β → Prop) (E : ε → δ → Prop) (R : σ → ρ → Prop) :
    EStateM.Result ε σ α → EStateM.Result δ ρ β → Prop
  | ok {a : α} {b : β} {s : σ} {t : ρ} (result : A a b) (state : R s t) :
      Corresponds A E R (.ok a s) (.ok b t)
  | error {e : ε} {d : δ} {s : σ} {t : ρ} (cause : E e d) (state : R s t) :
      Corresponds A E R (.error e s) (.error d t)

namespace Corresponds

variable {A : α → β → Prop} {E : ε → δ → Prop} {R : σ → ρ → Prop}

/-- Corresponding outcomes leave related states. -/
theorem finalState {x : EStateM.Result ε σ α} {y : EStateM.Result δ ρ β}
    (h : Corresponds A E R x y) : R (finalState x) (finalState y) := by
  cases h with
  | ok _ hstate => exact hstate
  | error _ hstate => exact hstate

/-- Less can be asked of the values, the errors and the states. -/
theorem imp {A' : α → β → Prop} {E' : ε → δ → Prop} {R' : σ → ρ → Prop}
    {x : EStateM.Result ε σ α} {y : EStateM.Result δ ρ β} (h : Corresponds A E R x y)
    (hresult : ∀ a b, A a b → A' a b) (hcause : ∀ e d, E e d → E' e d)
    (hstate : ∀ s t, R s t → R' s t) : Corresponds A' E' R' x y := by
  cases h with
  | ok hA hR => exact .ok (hresult _ _ hA) (hstate _ _ hR)
  | error hE hR => exact .error (hcause _ _ hE) (hstate _ _ hR)

/-- Computations correspond if their first parts do, and what follows them does from
every pair of results. -/
theorem bind {B : γ → κ → Prop} {m : EStateM ε σ α} {n : EStateM δ ρ β}
    {f : α → EStateM ε σ γ} {g : β → EStateM δ ρ κ} {s : σ} {t : ρ}
    (h : Corresponds A E R (m s) (n t))
    (hnext : ∀ a b s' t', m s = .ok a s' → n t = .ok b t' → A a b → R s' t' →
      Corresponds B E R (f a s') (g b t')) :
    Corresponds B E R ((m >>= f) s) ((n >>= g) t) := by
  rcases hm : m s with ⟨a, s'⟩ | ⟨e, s'⟩ <;> rcases hn : n t with ⟨b, t'⟩ | ⟨d, t'⟩
  all_goals rw [hm, hn] at h
  · rw [bind_of_ok hm, bind_of_ok hn]
    cases h with
    | ok hresult hstate => exact hnext a b s' t' hm hn hresult hstate
  · cases h
  · cases h
  · rw [bind_of_error hm, bind_of_error hn]
    cases h with
    | error hcause hstate => exact .error hcause hstate

end Corresponds

end ScpiScript
