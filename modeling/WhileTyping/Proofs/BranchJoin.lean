import WhileTyping.Proofs.Annotations
import WhileTyping.Proofs.Scope
import WhileTyping.Proofs.UnionBound

/-!
# Environments after a branch

What `Env.merge` computes: name by name, a join of the types that the two arms of a branch leave a
variable with.

* **`Registry.Joins`**: a type is a join of two others.
* **`Env.joinTypes_joins`**: the type that `joinTypes` gives is one.
* **`Env.equivalent_joinTypes_swap`**: with the two types exchanged it gives an equivalent one.
* **`Env.exists_merge`**: two arms can be merged.
* **`Env.find?_merge_of_not_shared`**: names that are not `var` variables of both keep their types.
* **`Env.find?_merge_congr`**, **`Env.equivalent_merge_swap`**: the order of the names does not
  matter, and that of the arms only up to equivalence.
* **`Env.merge_joins`**: all of this for the registry of a file.
-/

namespace WhileTyping

namespace Registry

/-- The type `m` is above `l` and `r`, and is one of them if they compare. -/
structure Joins (reg : Registry) (l r m : Ty) : Prop where
  orderly : reg.Orderly m
  left : reg.isSubtype m l = .ok true
  right : reg.isSubtype m r = .ok true
  of_comparable : reg.isSubtype l r = .ok true ∨ reg.isSubtype r l = .ok true → m = l ∨ m = r

end Registry

namespace Env

/-- A `var` variable that both arms of a branch have. -/
def Shared (env left right : Env) (x : String) : Prop :=
  env.declared? x = some .inferred ∧ left.contains x = true ∧ right.contains x = true

variable {reg : Registry}

/-! ## Two types -/

section Types

variable (hwf : WellFounded reg.Unfolds) (hreg : reg.Bodies reg.Orderly) {l r j j' : Ty}
  (hl : reg.Orderly l) (hr : reg.Orderly r)

include hwf hreg hl hr

/-- What the types of two arms are joined to accepts both, and nothing smaller does. -/
theorem joinTypes_joins (h : joinTypes reg l r = .ok j) : reg.Joins l r j := by
  obtain ⟨hj, hjl, hjr⟩ := joinTypes_above hwf hreg hl hr h
  refine ⟨hj, (Registry.isSubtype_iff_below_of_orderly hreg hj hl).2 hjl,
    (Registry.isSubtype_iff_below_of_orderly hreg hj hr).2 hjr, fun hcomparable => ?_⟩
  rcases joinTypes_cases h with ⟨rfl, -⟩ | ⟨rfl, -⟩ | ⟨-, hlr, hrl⟩
  · exact .inl rfl
  · exact .inr rfl
  · simp [hlr, hrl] at hcomparable

/-- The order of the two types matters only up to equivalence. -/
theorem below_joinTypes_swap (h : joinTypes reg l r = .ok j) (h' : joinTypes reg r l = .ok j') :
    reg.Below j j' := by
  obtain ⟨-, hjl, hjr⟩ := joinTypes_above hwf hreg hl hr h
  rcases joinTypes_cases h' with ⟨rfl, -⟩ | ⟨rfl, -⟩ | ⟨rfl, hrl, hlr⟩
  · exact hjr
  · exact hjl
  -- the types do not compare, so both joins are unions of the same two types
  · rcases joinTypes_cases h with ⟨-, hlr'⟩ | ⟨-, hrl'⟩ | ⟨rfl, -⟩
    · cases hlr.symm.trans hlr'
    · cases hrl.symm.trans hrl'
    · exact Registry.below_unionOf_of_subset hreg (by simp [hl, hr]) (by simp)

/-- Joining in the other order gives an equivalent type. -/
theorem equivalent_joinTypes_swap (h : joinTypes reg l r = .ok j)
    (h' : joinTypes reg r l = .ok j') : reg.equivalent j j' = .ok true := by
  have hj : reg.Orderly j := (joinTypes_joins hwf hreg hl hr h).orderly
  have hj' : reg.Orderly j' := (joinTypes_joins hwf hreg hr hl h').orderly
  rw [Registry.equivalent_eq_true_iff, Registry.isSubtype_iff_below_of_orderly hreg hj hj',
    Registry.isSubtype_iff_below_of_orderly hreg hj' hj]
  exact ⟨below_joinTypes_swap hwf hreg hl hr h h', below_joinTypes_swap hwf hreg hr hl h' h⟩

end Types

/-- A type is joined with itself to itself, since it is equivalent to itself. -/
theorem joinTypes_self (hreg : reg.Bodies reg.Orderly) {t : Ty} (ht : reg.Orderly t) :
    joinTypes reg t t = .ok t := by
  have hself := Registry.isSubtype_self hreg ht
  simp only [joinTypes, Registry.equivalent_eq_true_iff.2 ⟨hself, hself⟩]
  rfl

/-! ## Two arms -/

section Arms

variable {env left right merged : Env}

/-- A name is in scope if it holds a type. -/
theorem contains_iff {x : String} : env.contains x = true ↔ ∃ t, env.current? x = some t := by
  simp [contains, current?, Option.isSome_iff_exists]

section Orderly

variable (hreg : reg.Bodies reg.Orderly) (hleft : left.All reg.Orderly)
  (hright : right.All reg.Orderly)

include hreg hleft hright

/-- One variable can be merged, as the types of both arms can be compared. -/
theorem exists_mergeBinding (x : String) (b : Binding) :
    ∃ b', (mergeBinding reg left right x b).result = .ok b' := by
  unfold mergeBinding
  split
  · rename_i l r _ hl hr
    obtain ⟨j, hj⟩ := exists_joinTypes hreg (hleft x l hl) (hright x r hr)
    exact ⟨_, Check.result_bind_eq_ok.2 ⟨j, hj, rfl⟩⟩
  · exact ⟨b, rfl⟩

/-- So can any number of variables, one after another. -/
theorem exists_mergeNames (names : List String) (env : Env) :
    ∃ merged, (mergeNames reg left right env names).Ends merged () := by
  induction names generalizing env with
  | nil => exact ⟨env, rfl, rfl⟩
  | cons name names ih =>
    -- the two sides stay as they are, so one name does not disturb the next
    have hfirst : ∃ env₁, (mergeName reg left right env name).Ends env₁ () := by
      unfold mergeName
      split
      · exact ⟨env, rfl, rfl⟩
      · rename_i b _
        obtain ⟨b', hb'⟩ := exists_mergeBinding hreg hleft hright name b
        exact ⟨env.insert name b', Visit.ends_after.2 ⟨b', hb', rfl, rfl⟩⟩
    obtain ⟨env₁, hfirst⟩ := hfirst
    obtain ⟨merged, hrest⟩ := ih env₁
    exact ⟨merged, Visit.ends_andThen.2 ⟨env₁, (), hfirst, hrest⟩⟩

/-- Two arms with orderly types merge, whatever the order of the variables. -/
theorem exists_merge (env : Env) : ∃ merged, (env.merge reg left right).Ends merged () :=
  exists_mergeNames hreg hleft hright _ env

end Orderly

/-- A name that is not a `var` variable of both arms is bound as before. -/
theorem find?_merge_of_not_shared (h : (env.merge reg left right).Ends merged ()) {x : String}
    (hx : ¬ env.Shared left right x) : merged.find? x = env.find? x := by
  rcases find?_merge h x with ⟨hnone, hnone'⟩ | ⟨b, b', hb, hb', hmerge⟩
  · rw [hnone, hnone']
  · rcases mergeBinding_cases hmerge with ⟨rfl, -⟩ | ⟨hinferred, -, l, r, hl, hr, -⟩
    · rw [hb, hb']
    · refine absurd ⟨?_, contains_iff.2 ⟨l, hl⟩, contains_iff.2 ⟨r, hr⟩⟩ hx
      rw [declared?, hb, Option.map_some, hinferred]

/-- What a name is bound to afterwards depends on its own binding alone. -/
theorem find?_merge_congr {env' merged' : Env} (h : (env.merge reg left right).Ends merged ())
    (h' : (env'.merge reg left right).Ends merged' ()) {x : String}
    (hx : env'.find? x = env.find? x) : merged'.find? x = merged.find? x := by
  rcases find?_merge h x with ⟨hnone, hm⟩ | ⟨b, c, hb, hc, hmerge⟩ <;>
    rcases find?_merge h' x with ⟨hnone', hm'⟩ | ⟨b', c', hb', hc', hmerge'⟩
  · rw [hm, hm']
  · cases (hx.trans hnone).symm.trans hb'
  · cases (hx.trans hb).symm.trans hnone'
  · cases (hx.trans hb).symm.trans hb'
    cases hmerge.symm.trans hmerge'
    rw [hc, hc']

/-- Exchanging the arms changes no type beyond equivalence. -/
theorem equivalent_merge_swap {swapped : Env} (hwf : WellFounded reg.Unfolds)
    (hreg : reg.Bodies reg.Orderly) (henv : env.All reg.Orderly) (hleft : left.All reg.Orderly)
    (hright : right.All reg.Orderly) (h : (env.merge reg left right).Ends merged ())
    (h' : (env.merge reg right left).Ends swapped ()) {x : String} {t t' : Ty}
    (ht : merged.current? x = some t) (ht' : swapped.current? x = some t') :
    reg.equivalent t t' = .ok true := by
  by_cases hx : env.Shared left right x
  · obtain ⟨hdeclared, hl, hr⟩ := hx
    obtain ⟨l, hl⟩ := contains_iff.1 hl
    obtain ⟨r, hr⟩ := contains_iff.1 hr
    -- the same two types are joined, in one order and in the other
    obtain ⟨j, hj, hjoin⟩ := current?_merge h hdeclared hl hr
    obtain ⟨j', hj', hjoin'⟩ := current?_merge h' hdeclared hr hl
    cases hj.symm.trans ht
    cases hj'.symm.trans ht'
    exact equivalent_joinTypes_swap hwf hreg (hleft x l hl) (hright x r hr) hjoin hjoin'
  -- the variable is bound as before in both
  · have hx' : ¬ env.Shared right left x := fun hshared => hx ⟨hshared.1, hshared.2.symm⟩
    rw [current?, find?_merge_of_not_shared h hx] at ht
    rw [current?, find?_merge_of_not_shared h' hx', ht] at ht'
    cases ht'
    have hself := Registry.isSubtype_self hreg (henv x t ht)
    exact Registry.equivalent_eq_true_iff.2 ⟨hself, hself⟩

end Arms

/-! ## The merged environment -/

/-- Merging two arms of a branch succeeds. It keeps the names and their declared types, changes only
the `var` variables that both arms have, and lets each hold a join of its types in the two arms. The
result does not depend on the order of the names, an arm merged with itself is kept, and exchanging
the arms gives equivalent types. -/
theorem merge_joins {f : File} (hbuild : (Registry.build f).result = .ok reg)
    (hbodies : reg.Bodies fun t => reg.expectValueType t none = .ok () ∧ t.Canonical)
    {env left right : Env} (henv : env.All reg.Orderly) (hleft : left.All reg.Orderly)
    (hright : right.All reg.Orderly) :
    ∃ merged, (env.merge reg left right).Ends merged () ∧
      (∀ x, merged.declared? x = env.declared? x) ∧
      (∀ x, ¬ env.Shared left right x → merged.find? x = env.find? x) ∧
      (∀ x l r, env.declared? x = some .inferred → left.current? x = some l →
        right.current? x = some r → ∃ m, merged.current? x = some m ∧ reg.Joins l r m) ∧
      (∀ env' : Env, (∀ x, env'.find? x = env.find? x) →
        ∃ merged', (env'.merge reg left right).Ends merged' () ∧
          ∀ x, merged'.find? x = merged.find? x) ∧
      (∃ kept, (env.merge reg left left).Ends kept () ∧
        ∀ x t, env.declared? x = some .inferred → left.current? x = some t →
          kept.current? x = some t) ∧
      ∃ swapped, (env.merge reg right left).Ends swapped () ∧
        ∀ x t t', merged.current? x = some t → swapped.current? x = some t' →
          reg.equivalent t t' = .ok true := by
  have hwf := Registry.wellFounded_unfolds hbuild
  have hreg := Registry.orderly_bodies hbodies
  obtain ⟨merged, hmerged⟩ := exists_merge hreg hleft hright env
  refine ⟨merged, hmerged, declared?_merge hmerged, fun x => find?_merge_of_not_shared hmerged,
    fun x l r hx hl hr => ?_, fun env' hsame => ?_, ?_, ?_⟩
  · obtain ⟨m, hm, hjoin⟩ := current?_merge hmerged hx hl hr
    exact ⟨m, hm, joinTypes_joins hwf hreg (hleft x l hl) (hright x r hr) hjoin⟩
  · -- another order of the same bindings, or another order of visiting them
    obtain ⟨merged', hmerged'⟩ := exists_merge hreg hleft hright env'
    exact ⟨merged', hmerged', fun x => find?_merge_congr hmerged hmerged' (hsame x)⟩
  · -- two arms that end alike
    obtain ⟨kept, hkept⟩ := exists_merge hreg hleft hleft env
    refine ⟨kept, hkept, fun x t hx ht => ?_⟩
    obtain ⟨m, hm, hjoin⟩ := current?_merge hkept hx ht ht
    cases hjoin.symm.trans (joinTypes_self hreg (hleft x t ht))
    exact hm
  · -- the arms the other way round
    obtain ⟨swapped, hswapped⟩ := exists_merge hreg hright hleft env
    exact ⟨swapped, hswapped, fun x t t' =>
      equivalent_merge_swap hwf hreg henv hleft hright hmerged hswapped⟩

/-- An environment holds types of a property if all its bindings do. -/
theorem all_of_bindings {P : Ty → Prop} {env : Env} (h : ∀ p ∈ env.bindings, P p.2.current) :
    env.All P := by
  intro x t ht
  obtain ⟨b, hb, rfl⟩ := Option.map_eq_some_iff.1 ht
  obtain ⟨before, after, hbindings, -⟩ := List.lookup_eq_some_iff.1 hb
  exact h (x, b) (by simp [hbindings])

/-- An alias of a union. -/
def toggleFile : File where
  decls := [.alias { name := "Toggle", ty := .union [.int, .bool] }]

/-- Two arms that leave `x` with types that do not compare and `y` with types that do, and of which
only one has `z`. -/
theorem merge_joins_toggle :
    let reg := Registry.ofFile toggleFile
    let env : Env := { bindings := [("x", ⟨.inferred, .int⟩), ("y", ⟨.inferred, .int⟩),
      ("z", ⟨.inferred, .char⟩)] }
    let left : Env := { bindings := [("x", ⟨.inferred, .string⟩), ("y", ⟨.inferred, .int⟩),
      ("z", ⟨.inferred, .bool⟩)] }
    let right : Env := { bindings := [("y", ⟨.inferred, .named "Toggle"⟩),
      ("x", ⟨.inferred, .named "Toggle"⟩)] }
    ∃ merged, (env.merge reg left right).Ends merged () ∧
      merged.current? "x" = some (.union [.string, .named "Toggle"]) ∧
      reg.Joins .string (.named "Toggle") (.union [.string, .named "Toggle"]) ∧
      merged.current? "y" = some (.named "Toggle") ∧ merged.find? "z" = env.find? "z" ∧
      ∃ swapped, (env.merge reg right left).Ends swapped () ∧
        swapped.current? "x" = some (.union [.named "Toggle", .string]) ∧
        reg.equivalent (.union [.string, .named "Toggle"]) (.union [.named "Toggle", .string]) =
          .ok true := by
  intro reg env left right
  obtain ⟨merged, hmerged, -, hother, hjoins, -, -, swapped, hswapped, hequivalent⟩ :=
    merge_joins (f := toggleFile)
      (show (Registry.build toggleFile).result = .ok reg by decide +kernel)
      (show reg.Bodies _ by decide +kernel)
      (all_of_bindings (show ∀ p ∈ env.bindings, reg.Orderly p.2.current by decide +kernel))
      (all_of_bindings (show ∀ p ∈ left.bindings, reg.Orderly p.2.current by decide +kernel))
      (all_of_bindings (show ∀ p ∈ right.bindings, reg.Orderly p.2.current by decide +kernel))
  have hvalue : (env.merge reg left right).left.current? "x" =
        some (.union [.string, .named "Toggle"]) ∧
      (env.merge reg left right).left.current? "y" = some (.named "Toggle") := by decide +kernel
  have hvalue' : (env.merge reg right left).left.current? "x" =
      some (.union [.named "Toggle", .string]) := by decide +kernel
  -- merging is a function, so the merged environment is the one computed here
  rw [hmerged.1] at hvalue
  rw [hswapped.1] at hvalue'
  obtain ⟨m, hm, hx⟩ := hjoins "x" .string (.named "Toggle") rfl rfl rfl
  cases hm.symm.trans hvalue.1
  have hz : ¬ env.Shared left right "z" := by simp [Shared, contains, find?, right]
  exact ⟨merged, hmerged, hvalue.1, hx, hvalue.2, hother "z" hz, swapped, hswapped, hvalue',
    hequivalent "x" _ _ hvalue.1 hvalue'⟩

end Env

end WhileTyping
