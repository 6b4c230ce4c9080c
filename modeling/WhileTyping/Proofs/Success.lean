import WhileTyping.Check

/-!
# Checks that succeed

A check that ends well has been through each of its parts, and every part ended well. This module
says so for each way of composing checks, as equivalences to rewrite with:

* **`Check.result_bind_eq_ok`**, **`bind_eq_ok`**: for checks and for plain results;
* **`Visit.Ends`**: a visit succeeds, leaving one value and returning another;
* **`Visit.ends_andThen`**, **`Visit.ends_within`**, **`Visit.ends_orAt`**, **`Visit.ends_after`**:
  for visits.

So the success of a check of a large piece turns into facts about the checks of its parts without
opening any of the combinators. **`Visit.left_andThen_of`** is for what a visit leaves behind
whether it succeeds or fails, **`Visit.andThen_of`** for that together with how it ends.
-/

namespace WhileTyping

/-! ## Results -/

section Results

variable {α β : Type} {r : Except TypeError α}

/-- A sequence succeeds if both of its parts do. -/
@[simp] theorem bind_eq_ok {k : α → Except TypeError β} {b : β} :
    r >>= k = .ok b ↔ ∃ a, r = .ok a ∧ k a = .ok b := by
  cases r <;> simp [bind, Except.bind]

@[simp] theorem pure_eq_ok {a b : α} : (pure a : Except TypeError α) = .ok b ↔ a = b := by
  simp [pure, Except.pure]

/-- What is done to errors has no bearing on success. -/
@[simp] theorem mapError_eq_ok {ε ε' : Type} {r : Except ε α} {f : ε → ε'} {a : α} :
    r.mapError f = .ok a ↔ r = .ok a := by
  cases r with
  | ok a' =>
    show Except.ok a' = .ok a ↔ _
    simp
  | error e =>
    show Except.error (f e) = .ok a ↔ _
    simp

/-- Nor has the span that is given to them. -/
@[simp] theorem located_eq_ok {span : Option Span} {a : α} : located span r = .ok a ↔ r = .ok a :=
  mapError_eq_ok

theorem discard_eq_ok {u : PUnit} : discard r = .ok u ↔ ∃ a, r = .ok a := by
  cases r <;> simp [discard, Functor.discard, Functor.mapConst, Except.map]

end Results

/-! ## Checks -/

namespace Check

@[simp] theorem result_bind_eq_ok {α β : Type} {c : Check α} {k : α → Check β} {b : β} :
    (c >>= k).result = .ok b ↔ ∃ a, c.result = .ok a ∧ (k a).result = .ok b := by
  rw [result_bind]
  exact bind_eq_ok

theorem result_discard_eq_ok {α : Type} {c : Check α} {u : PUnit} :
    (discard c).result = .ok u ↔ ∃ a, c.result = .ok a := by
  show (c >>= fun _ => pure PUnit.unit).result = .ok u ↔ _
  rw [result_bind_eq_ok]
  constructor
  · rintro ⟨a, ha, -⟩
    exact ⟨a, ha⟩
  · rintro ⟨a, ha⟩
    exact ⟨a, ha, rfl⟩

@[simp] theorem result_orAt_eq_ok {α : Type} {c : Check α} {span : Option Span} {a : α} :
    (c.orAt span).result = .ok a ↔ c.result = .ok a :=
  located_eq_ok

end Check

/-! ## Visits -/

namespace Visit

variable {σ τ α β : Type}

/-- The visit succeeds: what it leaves and what it returns. -/
def Ends (v : Visit σ α) (left : σ) (a : α) : Prop := v.left = left ∧ v.run.result = .ok a

@[simp] theorem ends_mk {l left : σ} {c : Check α} {a : α} :
    (⟨l, c⟩ : Visit σ α).Ends left a ↔ l = left ∧ c.result = .ok a :=
  .rfl

/-- Two visits in sequence end with something if both do. -/
@[simp] theorem ends_andThen {v : Visit σ α} {stop : σ → τ} {next : σ → α → Visit τ β} {left : τ}
    {b : β} :
    (v.andThen stop next).Ends left b ↔ ∃ l a, v.Ends l a ∧ (next l a).Ends left b := by
  unfold Ends andThen
  cases v.run.result with
  | ok a =>
    constructor
    · exact fun h => ⟨v.left, a, ⟨rfl, rfl⟩, h⟩
    · rintro ⟨l, a', ⟨rfl, ha⟩, h⟩
      cases ha
      exact h
  | error e => simp

/-- A part is visited within the whole. -/
@[simp] theorem ends_within {v : Visit σ α} {f : σ → τ} {left : τ} {a : α} :
    (v.within f).Ends left a ↔ ∃ l, v.Ends l a ∧ f l = left := by
  simp only [Ends, left_within, run_within]
  constructor
  · rintro ⟨hleft, hrun⟩
    exact ⟨v.left, ⟨rfl, hrun⟩, hleft⟩
  · rintro ⟨l, ⟨rfl, hrun⟩, hleft⟩
    exact ⟨hleft, hrun⟩

@[simp] theorem ends_orAt {v : Visit σ α} {span : Option Span} {left : σ} {a : α} :
    (v.orAt span).Ends left a ↔ v.Ends left a :=
  and_congr_right fun _ => Check.result_orAt_eq_ok

/-- A check and a visit after it. -/
@[simp] theorem ends_after {c : Check α} {untouched left : σ} {next : α → Visit σ β} {b : β} :
    (after c untouched next).Ends left b ↔ ∃ a, c.result = .ok a ∧ (next a).Ends left b := by
  rw [after, ends_andThen]
  constructor
  · rintro ⟨l, a, ⟨rfl, ha⟩, h⟩
    exact ⟨a, ha, h⟩
  · rintro ⟨a, ha, h⟩
    exact ⟨untouched, a, ⟨rfl, ha⟩, h⟩

/-- What a composed visit leaves behind has a property if it has it after each way of ending. -/
theorem left_andThen_of {P : τ → Prop} {v : Visit σ α} {stop : σ → τ} {next : σ → α → Visit τ β}
    (hstop : P (stop v.left)) (hnext : ∀ a, v.run.result = .ok a → P (next v.left a).left) :
    P (v.andThen stop next).left := by
  cases h : v.run.result with
  | ok a => exact left_andThen_of_ok stop next h ▸ hnext a h
  | error e => exact left_andThen_of_error stop next h ▸ hstop

/-- The same for a property of what is left and of the result. -/
theorem andThen_of {Q : τ → Except TypeError β → Prop} {v : Visit σ α} {stop : σ → τ}
    {next : σ → α → Visit τ β} (hstop : ∀ e, v.run.result = .error e → Q (stop v.left) (.error e))
    (hnext : ∀ a, v.run.result = .ok a → Q (next v.left a).left (next v.left a).run.result) :
    Q (v.andThen stop next).left (v.andThen stop next).run.result := by
  unfold andThen
  cases h : v.run.result with
  | ok a => exact hnext a h
  | error e => exact hstop e h

/-- The same for a check and a visit after it. -/
theorem left_after_of {P : σ → Prop} {c : Check α} {untouched : σ} {next : α → Visit σ β}
    (hstop : P untouched) (hnext : ∀ a, c.result = .ok a → P (next a).left) :
    P (after c untouched next).left :=
  left_andThen_of hstop hnext

end Visit

end WhileTyping
