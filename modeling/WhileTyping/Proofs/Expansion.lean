import Mathlib.Logic.Relation
import Mathlib.Order.WellFounded
import WhileTyping.Proofs.BuiltRegistry
import WhileTyping.Proofs.Success

/-!
# Expansion in a built registry

`Registry.expand` follows a chain of aliases for as many look-ups as there are aliases and one more.
In a built registry that is enough: a chain that goes on for longer would have passed one alias
twice, and then the alias would unfold to itself.

* **`Registry.Passes`**: the names that are looked up along a chain of aliases.
  **`Passes.length_le`**: they are all different, so there are at most as many as aliases.
* **`expand_cases`**: a chain comes to a type that is not an alias, or to an alias that is not
  declared, and any number of look-ups that is greater than the number of aliases gets there, with
  the same result (`expandUpTo_stable`).
* **`Registry.Expands`**: the type at the end of a chain of aliases. **`expand_eq_ok_iff`**:
  expansion finds it.
-/

namespace WhileTyping.Registry

open Relation (ReflTransGen TransGen)

/-- The second type is the end of the chain of aliases that starts at the first. -/
inductive Expands (reg : Registry) : Ty → Ty → Prop
  | stop {t : Ty} (h : ∀ n, t ≠ .named n) : Expands reg t t
  | step {n : String} {body t : Ty} (hbody : reg.alias? n = some body) (h : Expands reg body t) :
      Expands reg (.named n) t

/-- Following aliases from the first type finds the bodies of these aliases, one after the other,
and so comes to the second type. -/
inductive Passes (reg : Registry) : Ty → List String → Ty → Prop
  | here (t : Ty) : Passes reg t [] t
  | look {n : String} {names : List String} {body t : Ty} (hbody : reg.alias? n = some body)
      (h : Passes reg body names t) : Passes reg (.named n) (n :: names) t

variable {reg : Registry}

/-! ## Chains -/

section Passes

variable {t u : Ty} {names : List String}

/-- The aliases of a chain have been unfolded from its beginning. -/
theorem Passes.unfolds (h : reg.Passes t names u) :
    ∀ m ∈ names, ReflTransGen reg.Unfolds (.named m) t := by
  induction h with
  | here => exact fun m hm => absurd hm List.not_mem_nil
  | look hbody _ ih =>
    intro m hm
    rcases List.mem_cons.1 hm with rfl | hm
    · exact .refl
    · exact (ih m hm).tail (.body hbody)

/-- A chain that came to a name twice would unfold the name to itself. -/
theorem Passes.nodup (hwf : WellFounded reg.Unfolds) (h : reg.Passes t names u) : names.Nodup := by
  induction h with
  | here => exact .nil
  | @look n names body u hbody h ih =>
    refine List.nodup_cons.2 ⟨fun hn => ?_, ih⟩
    -- the alias would unfold to itself
    have hcircle : TransGen reg.Unfolds (.named n) (.named n) :=
      .tail' (h.unfolds n hn) (.body hbody)
    exact hwf.transGen.irrefl.irrefl _ hcircle

/-- A chain only passes through names that are declared. -/
theorem Passes.subset_names (h : reg.Passes t names u) : names ⊆ reg.aliases.map (·.1) := by
  induction h with
  | here => exact List.nil_subset _
  | look hbody _ ih =>
    exact List.cons_subset.2 ⟨List.mem_map.2 ⟨_, mem_aliases_of_alias? hbody, rfl⟩, ih⟩

/-- A chain finds at most as many bodies as there are aliases. -/
theorem Passes.length_le (hwf : WellFounded reg.Unfolds) (h : reg.Passes t names u) :
    names.length ≤ reg.aliases.length := by
  simpa using (h.nodup hwf).length_le_of_subset h.subset_names

/-- Every chain can be followed until there is nothing to look up, or nothing found. -/
theorem exists_passes (hwf : WellFounded reg.Unfolds) (t : Ty) :
    ∃ names u, reg.Passes t names u ∧ ∀ n, u = .named n → reg.alias? n = none := by
  induction t using hwf.induction with
  | _ t ih =>
    by_cases hnamed : ∃ n, t = .named n
    · obtain ⟨n, rfl⟩ := hnamed
      cases hbody : reg.alias? n with
      -- the walk ends at a name that is not declared
      | none =>
        refine ⟨[], _, .here _, fun m hm => ?_⟩
        cases hm
        exact hbody
      | some body =>
        obtain ⟨names, u, hpasses, hend⟩ := ih body (.body hbody)
        exact ⟨n :: names, u, .look hbody hpasses, hend⟩
    · exact ⟨[], t, .here t, fun n hn => absurd ⟨n, hn⟩ hnamed⟩

end Passes

/-! ## Expansion along a chain -/

/-- Each name on a chain takes one look-up. -/
theorem expandUpTo_of_passes {t u : Ty} {names : List String} (h : reg.Passes t names u) (k : Nat) :
    reg.expandUpTo (names.length + k) t = reg.expandUpTo k u := by
  induction h with
  | here => rw [List.length_nil, Nat.zero_add]
  | look hbody _ ih =>
    rw [List.length_cons, Nat.add_right_comm, expandUpTo, hbody]
    exact ih

/-- A type that is no name is its own expansion, with any number of look-ups. -/
theorem expandUpTo_of_ne_named {t : Ty} (h : ∀ n, t ≠ .named n) (k : Nat) :
    reg.expandUpTo k t = .ok t := by
  cases k with
  | zero => rfl
  | succ k =>
    cases t with
    | named n => exact absurd rfl (h n)
    | void | bool | char | int | string | inferred | array | record | union => rfl

/-- An expansion ends at a type that is not an alias, or at an alias that is not declared, however
many look-ups more than the number of aliases it may make. -/
theorem expand_cases (hwf : WellFounded reg.Unfolds) (t : Ty) :
    (∃ names u, reg.Passes t names u ∧ (∀ n, u ≠ .named n) ∧
        ∀ k, reg.aliases.length < k → reg.expandUpTo k t = .ok u) ∨
      ∃ names n, reg.Passes t names (.named n) ∧ reg.alias? n = none ∧
        ∀ k, reg.aliases.length < k → reg.expandUpTo k t = .error (.unknownType n) := by
  obtain ⟨names, u, hpasses, hend⟩ := exists_passes hwf t
  have hlen := hpasses.length_le hwf
  -- the look-ups left when the chain has come to its end
  have hleft : ∀ k, reg.aliases.length < k →
      reg.expandUpTo k t = reg.expandUpTo (k - names.length - 1 + 1) u := by
    intro k hk
    rw [← expandUpTo_of_passes hpasses]
    congr 1
    omega
  by_cases hnamed : ∃ n, u = .named n
  · obtain ⟨n, rfl⟩ := hnamed
    have hmissing := hend n rfl
    refine .inr ⟨names, n, hpasses, hmissing, fun k hk => ?_⟩
    rw [hleft k hk, expandUpTo, hmissing]
  · have hplain : ∀ n, u ≠ .named n := fun n hn => hnamed ⟨n, hn⟩
    refine .inl ⟨names, u, hpasses, hplain, fun k hk => ?_⟩
    rw [hleft k hk, expandUpTo_of_ne_named hplain]

/-- More look-ups than there are aliases all have the same result. -/
theorem expandUpTo_stable (hwf : WellFounded reg.Unfolds) (t : Ty) {k k' : Nat}
    (hk : reg.aliases.length < k) (hk' : reg.aliases.length < k') :
    reg.expandUpTo k t = reg.expandUpTo k' t := by
  rcases expand_cases hwf t with ⟨_, _, _, _, hok⟩ | ⟨_, _, _, _, herror⟩
  · rw [hok k hk, hok k' hk']
  · rw [herror k hk, herror k' hk']

/-! ## The end of a chain -/

/-- An expansion is not a name. -/
theorem Expands.ne_named {t e : Ty} (h : reg.Expands t e) (n : String) : e ≠ .named n := by
  induction h with
  | stop hstop => exact hstop n
  | step _ _ ih => exact ih

/-- An expansion is the end of a chain. -/
theorem Expands.exists_passes {t u : Ty} (h : reg.Expands t u) : ∃ names, reg.Passes t names u := by
  induction h with
  | stop => exact ⟨[], .here _⟩
  | step hbody _ ih =>
    obtain ⟨names, hpasses⟩ := ih
    exact ⟨_ :: names, .look hbody hpasses⟩

/-- The end of a chain is an expansion, if it is not a name. -/
theorem Passes.expands {t u : Ty} {names : List String} (h : reg.Passes t names u)
    (hu : ∀ n, u ≠ .named n) : reg.Expands t u := by
  induction h with
  | here => exact .stop hu
  | look hbody _ ih => exact .step hbody (ih hu)

/-- In a built registry an expansion succeeds where the chain of aliases has an end, and finds
it. -/
theorem expand_eq_ok_iff (hwf : WellFounded reg.Unfolds) {t u : Ty} {span : Option Span} :
    reg.expand t span = .ok u ↔ reg.Expands t u := by
  rw [expand, mapError_eq_ok]
  constructor
  · intro h
    rcases expand_cases hwf t with ⟨names, v, hpasses, hplain, hok⟩ | ⟨_, n, _, _, herror⟩
    · cases h.symm.trans (hok _ (Nat.lt_succ_self _))
      exact hpasses.expands hplain
    · cases h.symm.trans (herror _ (Nat.lt_succ_self _))
  · intro h
    obtain ⟨names, hpasses⟩ := h.exists_passes
    have hlen := hpasses.length_le hwf
    -- the steps along the aliases, and what is left of the bound
    have hsplit :
        reg.aliases.length + 1 = names.length + (reg.aliases.length + 1 - names.length) := by omega
    rw [hsplit, expandUpTo_of_passes hpasses, expandUpTo_of_ne_named h.ne_named]

end WhileTyping.Registry
