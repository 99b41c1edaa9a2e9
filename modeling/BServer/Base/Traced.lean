/-!
# `Base.Traced` — computations that call out, and may fault

What a program did is sometimes part of what it computed: which calls left it, and whether it ended in a value
or in a fault. `Traced κ ε α` keeps both, the calls in the order they were made, also those made before a fault.

Sequencing is `bind`. Its two lemmas say what a sequence ends in (`outcome_bind`) and what it called
(`calls_bind`); a proof about a handler reads off either half without the other.
-/

/-- The calls made, and the value or the fault the computation ended in. -/
structure Traced (κ ε α : Type) where
  calls   : List κ
  outcome : Except ε α

namespace Traced

variable {κ ε α β : Type}

/-- A value, without calling anything. -/
def done (a : α) : Traced κ ε α := ⟨[], .ok a⟩

def fault (e : ε) : Traced κ ε α := ⟨[], .error e⟩

/-- One call, and how it was answered. -/
def call (c : κ) (answer : Except ε α) : Traced κ ε α := ⟨[c], answer⟩

/-- The second computation runs on the value of the first, if there is one. -/
def andThen (x : Traced κ ε α) (f : α → Traced κ ε β) : Traced κ ε β :=
  match x.outcome with
  | .error e => ⟨x.calls, .error e⟩
  | .ok a    => ⟨x.calls ++ (f a).calls, (f a).outcome⟩

instance : Monad (Traced κ ε) where
  pure := done
  bind := andThen

@[simp] theorem outcome_pure (a : α) : (pure a : Traced κ ε α).outcome = .ok a := rfl

@[simp] theorem calls_pure (a : α) : (pure a : Traced κ ε α).calls = [] := rfl

@[simp] theorem outcome_fault (e : ε) : (fault e : Traced κ ε α).outcome = .error e := rfl

@[simp] theorem outcome_call (c : κ) (answer : Except ε α) : (call c answer).outcome = answer := rfl

/-- A sequence faults where its first part does, and otherwise ends as its second part does. -/
theorem outcome_bind (x : Traced κ ε α) (f : α → Traced κ ε β) :
    (x >>= f).outcome = match x.outcome with
      | .error e => .error e
      | .ok a => (f a).outcome := by
  show (andThen x f).outcome = _
  unfold andThen
  cases x.outcome with
  | error e => rfl
  | ok a => rfl

theorem outcome_bind_ok {x : Traced κ ε α} {a : α} (h : x.outcome = .ok a) (f : α → Traced κ ε β) :
    (x >>= f).outcome = (f a).outcome := by
  rw [outcome_bind, h]

theorem outcome_bind_error {x : Traced κ ε α} {e : ε} (h : x.outcome = .error e) (f : α → Traced κ ε β) :
    (x >>= f).outcome = .error e := by
  rw [outcome_bind, h]

/-- What a sequence that ends in a value went through. -/
theorem outcome_bind_eq_ok {x : Traced κ ε α} {f : α → Traced κ ε β} {b : β}
    (h : (x >>= f).outcome = .ok b) : ∃ a, x.outcome = .ok a ∧ (f a).outcome = .ok b := by
  rw [outcome_bind] at h
  split at h
  · cases h
  · next a ha => exact ⟨a, ha, h⟩

theorem calls_bind_ok {x : Traced κ ε α} {a : α} (h : x.outcome = .ok a) (f : α → Traced κ ε β) :
    (x >>= f).calls = x.calls ++ (f a).calls := by
  show (andThen x f).calls = _
  rw [andThen, h]

@[simp] theorem bind_pure_left (a : α) (f : α → Traced κ ε β) : (pure a >>= f) = f a := rfl

/-- What follows a last step that only computes can use its value. -/
theorem bind_pure_bind {γ : Type} (x : Traced κ ε α) (f : α → β) (g : β → Traced κ ε γ) :
    ((x >>= fun a => pure (f a)) >>= g) = (x >>= fun a => g (f a)) := by
  obtain ⟨calls, outcome⟩ := x
  cases outcome with
  | error e => rfl
  | ok a =>
      show (⟨(calls ++ []) ++ _, _⟩ : Traced κ ε γ) = _
      rw [List.append_nil]
      rfl

/-! ## Faults that cannot happen -/

/-- The computation does not end in the fault `e`. -/
def Avoids (e : ε) (x : Traced κ ε α) : Prop := x.outcome ≠ .error e

theorem avoids_pure (e : ε) (a : α) : (pure a : Traced κ ε α).Avoids e := nofun

/-- A call that is answered with a value, or with another fault. -/
theorem avoids_call {e : ε} {c : κ} {answer : Except ε α} (h : answer ≠ .error e) : (call c answer).Avoids e := h

/-- A sequence avoids a fault when each of its parts does. -/
theorem Avoids.bind {e : ε} {x : Traced κ ε α} {f : α → Traced κ ε β} (hx : x.Avoids e)
    (hf : ∀ a, x.outcome = .ok a → (f a).Avoids e) : (x >>= f).Avoids e := by
  intro h
  cases hout : x.outcome with
  | error e' =>
      rw [outcome_bind_error hout] at h
      cases h
      exact hx hout
  | ok a =>
      rw [outcome_bind_ok hout] at h
      exact hf a hout h

/-! ## Which calls are made -/

/-- A sequence calls what its first part does, and what its second does on the value of the first. -/
theorem calls_bind (x : Traced κ ε α) (f : α → Traced κ ε β) :
    (x >>= f).calls = x.calls ++ match x.outcome with
      | .error _ => []
      | .ok a => (f a).calls := by
  show (andThen x f).calls = _
  unfold andThen
  cases x.outcome with
  | error e => exact (List.append_nil _).symm
  | ok a => rfl

/-- Where the second part only computes. -/
theorem calls_bind_silent (x : Traced κ ε α) {f : α → Traced κ ε β} (hf : ∀ a, (f a).calls = []) :
    (x >>= f).calls = x.calls := by
  rw [calls_bind]
  cases x.outcome with
  | error e => exact List.append_nil _
  | ok a =>
      show x.calls ++ (f a).calls = x.calls
      rw [hf a, List.append_nil]

/-- The computation makes no call, or just one, which meets `C`. -/
def CallsOnce (C : κ → Prop) (x : Traced κ ε α) : Prop := x.calls = [] ∨ ∃ c, C c ∧ x.calls = [c]

namespace CallsOnce

variable {C : κ → Prop}

theorem pure (a : α) : (Pure.pure a : Traced κ ε α).CallsOnce C := Or.inl rfl

theorem fault (e : ε) : (Traced.fault e : Traced κ ε α).CallsOnce C := Or.inl rfl

theorem call {c : κ} (hc : C c) (answer : Except ε α) : (Traced.call c answer).CallsOnce C :=
  Or.inr ⟨c, hc, rfl⟩

theorem length_le {x : Traced κ ε α} (h : x.CallsOnce C) : x.calls.length ≤ 1 := by
  rcases h with h | ⟨c, _, h⟩
  · simp [h]
  · simp [h]

theorem forall_calls {x : Traced κ ε α} (h : x.CallsOnce C) : ∀ c ∈ x.calls, C c := by
  intro c hmem
  rcases h with h | ⟨d, hd, h⟩
  · rw [h] at hmem
    cases hmem
  · rw [h] at hmem
    rwa [List.mem_singleton.mp hmem]

/-- After the call, the rest of a sequence only computes. -/
theorem bind_silent {x : Traced κ ε α} {f : α → Traced κ ε β} (hx : x.CallsOnce C)
    (hf : ∀ a, (f a).calls = []) : (x >>= f).CallsOnce C := by
  unfold CallsOnce
  rw [calls_bind_silent x hf]
  exact hx

/-- What only computes leaves the call to the rest of the sequence. -/
theorem silent_bind {x : Traced κ ε α} {f : α → Traced κ ε β} (hx : x.calls = [])
    (hf : ∀ a, (f a).CallsOnce C) : (x >>= f).CallsOnce C := by
  unfold CallsOnce
  rw [calls_bind, hx, List.nil_append]
  cases x.outcome with
  | error e => exact Or.inl rfl
  | ok a => exact hf a

end CallsOnce

end Traced
