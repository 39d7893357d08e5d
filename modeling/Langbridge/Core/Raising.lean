/-
Computations that may raise over a state (`EStateM`): what was done before an exception stays done.

A run is followed forwards through `bind_of_ok` and `bind_of_error`, an exception backwards through `bind_error` and
`tryCatch_error`. `Goes` says of a computation what it may do to the state, however it ends, and what it raises; `Goes.seq`
composes such computations. `Keeps` says the first alone, of computations with any value.
-/
import Mathlib.Tactic

namespace Langbridge.Core.Raising

variable {ε σ α β : Type}

variable {x : EStateM ε σ α} {f : α → EStateM ε σ β} {s s' : σ}

theorem bind_of_ok {a : α} (h : x s = .ok a s') : (x >>= f) s = f a s' := by
  change EStateM.bind x f s = f a s'
  rw [EStateM.bind, h]

variable {e : ε}

theorem bind_of_error (h : x s = .error e s') : (x >>= f) s = .error e s' := by
  change EStateM.bind x f s = .error e s'
  rw [EStateM.bind, h]

/-- a sequence raises in its first part, or in what follows the first part -/
theorem bind_error (h : (x >>= f) s = .error e s') :
    x s = .error e s' ∨ ∃ a s₁, x s = .ok a s₁ ∧ f a s₁ = .error e s' := by
  cases hx : x s with
  | ok a s₁ =>
    rw [bind_of_ok hx] at h
    exact .inr ⟨a, s₁, rfl, h⟩
  | error e' s₁ =>
    rw [bind_of_error hx] at h
    cases h
    exact .inl rfl

/-- a sequence goes through both of its parts -/
theorem bind_ok {b : β} (h : (x >>= f) s = .ok b s') : ∃ a s₁, x s = .ok a s₁ ∧ f a s₁ = .ok b s' := by
  cases hx : x s with
  | ok a s₁ =>
    rw [bind_of_ok hx] at h
    exact ⟨a, s₁, rfl, h⟩
  | error e s₁ =>
    rw [bind_of_error hx] at h
    cases h

theorem tryCatch_of_ok {handle : ε → EStateM ε σ α} {a : α} (h : x s = .ok a s') : tryCatch x handle s = .ok a s' := by
  change EStateM.tryCatch x handle s = .ok a s'
  rw [EStateM.tryCatch, h]

/-- what leaves a handler was raised by it, for an exception of what it handles -/
theorem tryCatch_error {handle : ε → EStateM ε σ α}
    (h : tryCatch x handle s = .error e s') : ∃ e₁ s₁, x s = .error e₁ s₁ ∧ handle e₁ s₁ = .error e s' := by
  cases hx : x s with
  | ok a s₁ =>
    rw [tryCatch_of_ok hx] at h
    cases h
  | error e₁ s₁ =>
    change EStateM.tryCatch x handle s = .error e s' at h
    rw [EStateM.tryCatch, hx] at h
    exact ⟨e₁, s₁, rfl, h⟩

/-- a computation that takes a state to a related one, and raises just what is given -/
def Goes (rel : σ → σ → Prop) (raises : Option ε) (x : EStateM ε σ Unit) : Prop :=
  ∀ s, ∃ s', rel s s' ∧
    match raises with
    | none => x s = .ok () s'
    | some e => x s = .error e s'

variable {rel : σ → σ → Prop}

theorem Goes.modify {f : σ → σ} (hf : ∀ s, rel s (f s)) : Goes rel none (modify f : EStateM ε σ Unit) :=
  fun s => ⟨f s, hf s, rfl⟩

theorem Goes.pure (hrefl : ∀ s, rel s s) : Goes rel none (Pure.pure () : EStateM ε σ Unit) :=
  fun s => ⟨s, hrefl s, rfl⟩

theorem Goes.throw (hrefl : ∀ s, rel s s) (e : ε) : Goes rel (some e) (MonadExcept.throw e : EStateM ε σ Unit) :=
  fun s => ⟨s, hrefl s, rfl⟩

/-- a sequence raises what its first part raises, or else what its second part does -/
theorem Goes.seq (htrans : ∀ a b c, rel a b → rel b c → rel a c) {r r' : Option ε} {x y : EStateM ε σ Unit}
    (hx : Goes rel r x) (hy : Goes rel r' y) : Goes rel (r.or r') (x >>= fun _ => y) := by
  intro s
  obtain ⟨s₁, hrel, hx⟩ := hx s
  cases r with
  | some e => exact ⟨s₁, hrel, bind_of_error hx⟩
  | none =>
    obtain ⟨s₂, hrel', hy⟩ := hy s₁
    refine ⟨s₂, htrans _ _ _ hrel hrel', ?_⟩
    rw [Option.none_or, bind_of_ok hx]
    exact hy

/-- the state that a computation ends in -/
def final : EStateM.Result ε σ α → σ
  | .ok _ s => s
  | .error _ s => s

/-- a computation takes every state to a related one, however it ends -/
def Keeps (rel : σ → σ → Prop) (x : EStateM ε σ α) : Prop := ∀ s, rel s (final (x s))

theorem Keeps.return (hrefl : ∀ s, rel s s) (a : α) : Keeps rel (Pure.pure a : EStateM ε σ α) := fun s => hrefl s

theorem Keeps.raise (hrefl : ∀ s, rel s s) (e : ε) : Keeps rel (MonadExcept.throw e : EStateM ε σ α) :=
  fun s => hrefl s

theorem Keeps.update {f : σ → σ} (hf : ∀ s, rel s (f s)) : Keeps rel (modify f : EStateM ε σ Unit) := hf

theorem Keeps.bind (htrans : ∀ a b c, rel a b → rel b c → rel a c)
    (hx : Keeps rel x) (hf : ∀ a, Keeps rel (f a)) : Keeps rel (x >>= f) := by
  intro s
  have hfirst := hx s
  cases h : x s with
  | ok a s₁ =>
    rw [bind_of_ok h]
    rw [h] at hfirst
    exact htrans _ _ _ hfirst (hf a s₁)
  | error e s₁ =>
    rw [bind_of_error h]
    rwa [h] at hfirst

theorem Keeps.get_bind {f : σ → EStateM ε σ β} (hf : ∀ a, Keeps rel (f a)) : Keeps rel (get >>= f) := fun s => hf s s

end Langbridge.Core.Raising
