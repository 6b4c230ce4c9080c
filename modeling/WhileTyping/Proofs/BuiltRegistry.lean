import WhileTyping.Registry.Build

/-!
# Built registries

What `Registry.build` guarantees about the registries it returns. The main point is that aliases
may be recursive only through arrays and records:

* **`Registry.Unfolds`**: one step of expanding a type outside arrays and records, from an alias to
  its body or from a union to a member.
* **`acc_of_findCycle_eq_none`**: a walk that finds no circle has seen every type that these steps
  lead to, so none of them can go on for ever.
* **`wellFounded_unfolds`**: so in a built registry unfolding is a ground for induction.
-/

namespace WhileTyping.Registry

/-! ## The checks of a build -/

/-- A registry that is built holds the declarations of the file, and the file has passed all three
checks. -/
theorem build_ok {f : File} {reg : Registry} (h : (build f).result = .ok reg) :
    reg = ofFile f ∧ firstRepeated AliasDecl.name [] f.aliasDecls = none ∧
      firstRepeated MethodDecl.name [] f.methodDecls = none ∧
      reg.firstCircular f.aliasDecls = none := by
  unfold build at h
  split at h
  · cases h
  · rename_i haliases
    split at h
    · cases h
    · rename_i hmethods
      dsimp only at h
      split at h
      · cases h
      · rename_i hcircular
        cases h
        -- none of the three searches has found anything
        exact ⟨rfl, haliases, hmethods, hcircular⟩

/-- If no declaration is circular, the walk from each of them finds nothing. -/
theorem findCycle_eq_none_of_firstCircular {reg : Registry} {ds : List AliasDecl}
    (h : reg.firstCircular ds = none) : ∀ d ∈ ds, reg.findCycle [d.name] d.ty = none := by
  induction ds with
  | nil =>
    intro d hd
    cases hd
  | cons d ds ih =>
    rw [firstCircular] at h
    split at h
    · cases h
    · rename_i hd
      exact List.forall_mem_cons.2 ⟨hd, ih h⟩

/-! ## Unfolding -/

/-- The first type is what the second stands for, or one of its members. -/
inductive Unfolds (reg : Registry) : Ty → Ty → Prop
  | body {n : String} {t : Ty} (h : reg.alias? n = some t) : Unfolds reg t (.named n)
  | member {t : Ty} {ts : List Ty} (h : t ∈ ts) : Unfolds reg t (.union ts)

/-- An alias unfolds to its body only. -/
theorem acc_named {reg : Registry} {n : String}
    (h : ∀ t, reg.alias? n = some t → Acc reg.Unfolds t) : Acc reg.Unfolds (.named n) := by
  refine .intro _ fun t ht => ?_
  cases ht with
  | body hbody => exact h t hbody

/-- A union unfolds to its members only. -/
theorem acc_union {reg : Registry} {ts : List Ty} (h : ∀ t ∈ ts, Acc reg.Unfolds t) :
    Acc reg.Unfolds (.union ts) := by
  refine .intro _ fun t ht => ?_
  cases ht with
  | member hmem => exact h t hmem

/-- A type that is no alias and no union does not unfold. -/
theorem acc_of_ne {reg : Registry} {t : Ty} (hnamed : ∀ n, t ≠ .named n)
    (hunion : ∀ ts, t ≠ .union ts) : Acc reg.Unfolds t := by
  refine .intro _ fun u hu => ?_
  cases hu with
  | body => exact absurd rfl (hnamed _)
  | member => exact absurd rfl (hunion _)

/-- Every step from a type is one that the walk takes. -/
theorem acc_of_findCycle_eq_none {reg : Registry} {path : List String} {t : Ty}
    (h : reg.findCycle path t = none) : Acc reg.Unfolds t := by
  induction path, t using findCycle.induct reg with
  -- the induction is on the walk itself, so that the path need not be mentioned
  | case1 path n hn =>
    rw [findCycle, dif_pos hn] at h
    cases h
  | case2 path n hn body hbody ih =>
    -- the walk goes on with the body, and finds no circle there
    rw [findCycle, dif_neg hn] at h
    refine acc_named fun t ht => ?_
    rw [hbody] at ht
    cases ht
    refine ih ?_
    split at h
    · rename_i body' hbody'
      rw [hbody] at hbody'
      cases hbody'
      exact h
    · rename_i hbody'
      rw [hbody] at hbody'
      cases hbody'
  | case3 path n hn hbody =>
    refine acc_named fun t ht => ?_
    rw [hbody] at ht
    cases ht
  | case4 path ts ih =>
    rw [findCycle_union, List.findSome?_eq_none_iff] at h
    exact acc_union fun t ht => ih t ht (h t ht)
  | case5 path t hnamed hunion => exact acc_of_ne hnamed hunion

/-- In a registry that was built, unfolding comes to an end. A type begins with no alias, or with
one that is declared and has been walked from. -/
theorem wellFounded_unfolds {f : File} {reg : Registry} (h : (build f).result = .ok reg) :
    WellFounded reg.Unfolds := by
  obtain ⟨hreg, -, -, hcircular⟩ := build_ok h
  -- a body is that of a declaration, from which no cycle was found
  have hbody : ∀ n t, reg.alias? n = some t → Acc reg.Unfolds t := by
    intro n t ht
    have hmem := mem_aliases_of_alias? ht
    rw [hreg, ofFile] at hmem
    obtain ⟨d, hd, hdt⟩ := List.mem_map.1 hmem
    cases hdt
    exact acc_of_findCycle_eq_none (findCycle_eq_none_of_firstCircular hcircular d hd)
  refine ⟨fun t => ?_⟩
  -- other types reach aliases through unions only
  induction t with
  | named n => exact acc_named (hbody n)
  | union ts ih => exact acc_union ih
  | void | bool | char | int | string | inferred | array | record => exact acc_of_ne nofun nofun

end WhileTyping.Registry
