import WhileTyping.Proofs.Preorder
import WhileTyping.Proofs.SettledTypes

/-!
# Unions are upper bounds

A union is above each of the types it is made of, and so is the type that two arms of a branch leave
a variable with.

* **`Registry.below_union`**: a union is above all that one of its members is above. There is no
  rule for this where the lower type is an alias or a union; it takes transitivity, and an induction
  on the unfolding of the lower type.
* **`Registry.below_unionOf`**: so `unionOf` is above each type it is given, although a member may
  stand in it only up to the order of its own members.
* **`Env.exists_joinTypes`**, **`Env.joinTypes_above`**: two types of a variable have a join, and it
  is above both. **`Env.joinTypes_upper`**: it is settled if they are.
-/

namespace WhileTyping

namespace Registry

section Orderly

variable {reg : Registry} (hwf : WellFounded reg.Unfolds) (hreg : reg.Bodies reg.Orderly)

include hreg in
/-- For orderly types the search decides the relation. -/
theorem isSubtype_iff_below_of_orderly {s t : Ty} (hs : reg.Orderly s) (ht : reg.Orderly t) :
    reg.isSubtype s t = .ok true ↔ reg.Below s t :=
  isSubtype_iff_below (hreg.imp fun _ h => ⟨h.covers, h.regular.noRepeats⟩)
    ⟨hs.covers, hs.regular.noRepeats⟩ ⟨ht.covers, ht.regular.noRepeats⟩

include hreg in
/-- An orderly type is found to be a subtype of itself. -/
theorem isSubtype_self {t : Ty} (ht : reg.Orderly t) : reg.isSubtype t t = .ok true :=
  (isSubtype_iff_below_of_orderly hreg ht ht).2 (below_refl ht.noInferred)

include hreg in
/-- The search does not fail on orderly types. -/
theorem exists_answer {s t : Ty} (hs : reg.Orderly s) (ht : reg.Orderly t) :
    ∃ b, reg.isSubtype s t = .ok b := by
  obtain ⟨b, hb, -⟩ := subtype_complete (hreg.imp fun _ h => h.covers) [] hs.covers ht.covers
  exact ⟨b, hb⟩

include hwf hreg in
/-- The relation is transitive on orderly types. The one in the middle may be any type. -/
theorem below_trans_of_orderly {a b c : Ty} (ha : reg.Orderly a) (hc : reg.Orderly c)
    (hab : reg.Below a b) (hbc : reg.Below b c) : reg.Below a c :=
  below_trans hwf (hreg.imp fun _ h => ⟨h.covers, h.regular.noEmptyUnion⟩)
    ⟨ha.covers, ha.regular.noEmptyUnion⟩ ⟨hc.covers, hc.regular.noEmptyUnion⟩ hab hbc

/-- An alias is above its body. -/
theorem below_named {n : String} {body : Ty} (hbody : reg.alias? n = some body)
    (hvar : body.NoInferred) : reg.Below (.named n) body := by
  by_cases hvoid : body = .void
  · subst hvoid
    exact .of_rule (.void _)
  by_cases hself : body = .named n
  · subst hself
    exact .of_rule (.aliasSelf n)
  · exact .of_rule (.aliasAbove hvoid hself hbody (below_refl hvar))

include hwf hreg in
/-- A union is above all that one of its members is above. -/
theorem below_union {ss : List Ty} {s t : Ty} (hmem : s ∈ ss) (hs : reg.Orderly s)
    (ht : reg.Orderly t) (h : reg.Below s t) : reg.Below (.union ss) t := by
  -- general in the union, because a union below is compared member by member with itself
  induction t using hwf.induction generalizing ss s with
  | _ t ih =>
    cases t.outline with
    | named n =>
      obtain ⟨body, hbody⟩ := ht.covers.alias?
      have horderly := hreg.of_alias? hbody
      have hsbody : reg.Below s body :=
        below_trans_of_orderly hwf hreg hs horderly h (below_named hbody horderly.noInferred)
      exact .of_rule (.aliasBelow nofun hbody (ih body (.body hbody) hmem hs horderly hsbody))
    | union ts =>
      refine .of_rule (.unions fun u hu => ⟨s, hmem, ?_⟩)
      have horderly : reg.Orderly u := ht.alternative hu
      have hunion : reg.Below (.union ts) u :=
        ih u (.member hu) hu horderly horderly (below_refl horderly.noInferred)
      exact below_trans_of_orderly hwf hreg hs horderly h hunion
    | plain hnamed hunion =>
      by_cases hvoid : t = .void
      · subst hvoid
        exact .of_rule (.void _)
      · exact .of_rule (.unionAbove hvoid hnamed hunion hmem h)

include hreg in
/-- Every alternative of the given types is below a member of their union. -/
theorem exists_member_unionOf {ts : List Ty} {t a : Ty} (hts : ∀ t ∈ ts, reg.Orderly t)
    (ht : t ∈ ts) (ha : a ∈ t.alternatives) :
    ∃ m ∈ (ts.flatMap Ty.alternatives).foldl Ty.addMember [], reg.Orderly m ∧ reg.Below m a := by
  obtain ⟨m, hm, hsame⟩ := Ty.exists_same_foldl_addMember [] (List.mem_flatMap.2 ⟨t, ht, ha⟩)
  have horderly : reg.Orderly m := (orderly_unionOf (List.ne_nil_of_mem ht) hts).alternative hm
  have hnorepeats := horderly.regular.noRepeats
  have ha := ((hts t ht).alternative ha).regular.noRepeats
  exact ⟨m, hm, horderly, (below_refl horderly.noInferred).same
    (hreg.imp fun _ h => h.regular.noRepeats) hnorepeats hnorepeats hnorepeats ha m.same_refl hsame⟩

include hwf hreg in
/-- The union of some types is above each of them. -/
theorem below_unionOf {ts : List Ty} {t : Ty} (hts : ∀ t ∈ ts, reg.Orderly t) (ht : t ∈ ts) :
    reg.Below (.unionOf ts) t := by
  by_cases hunion : ∃ us, t = .union us
  · obtain ⟨us, rfl⟩ := hunion
    refine .of_rule (.unions fun u hu => ?_)
    obtain ⟨m, hm, -, hbelow⟩ := exists_member_unionOf hreg hts ht hu
    exact ⟨m, hm, hbelow⟩
  · have hself : t ∈ t.alternatives := by
      rw [Ty.alternatives_eq_self fun us hus => hunion ⟨us, hus⟩]
      exact List.mem_singleton_self t
    obtain ⟨m, hm, hm', hbelow⟩ := exists_member_unionOf hreg hts ht hself
    exact below_union hwf hreg hm hm' (hts t ht) hbelow

include hreg in
/-- A union is above the union of some of its types. -/
theorem below_unionOf_of_subset {ts us : List Ty} (hts : ∀ t ∈ ts, reg.Orderly t) (h : us ⊆ ts) :
    reg.Below (.unionOf ts) (.unionOf us) := by
  refine .of_rule (.unions fun a ha => ?_)
  obtain ⟨u, hu, ha⟩ := Ty.exists_alternative ha
  obtain ⟨m, hm, -, hbelow⟩ := exists_member_unionOf hreg hts (h hu) ha
  exact ⟨m, hm, hbelow⟩

end Orderly

section Settled

variable {reg : Registry} (hreg : reg.Bodies reg.Settled)

include hreg

/-- The same for settled types. -/
theorem isSubtype_iff_below_of_settled {s t : Ty} (hs : reg.Settled s) (ht : reg.Settled t) :
    reg.isSubtype s t = .ok true ↔ reg.Below s t :=
  isSubtype_iff_below_of_orderly (hreg.imp fun _ h => h.orderly) hs.orderly ht.orderly

theorem below_trans_of_settled (hwf : WellFounded reg.Unfolds) {a b c : Ty} (ha : reg.Settled a)
    (hc : reg.Settled c) (hab : reg.Below a b) (hbc : reg.Below b c) : reg.Below a c :=
  below_trans_of_orderly hwf (hreg.imp fun _ h => h.orderly) ha.orderly hc.orderly hab hbc

end Settled

/-- Equivalent types are subtypes of each other. -/
theorem equivalent_eq_true_iff {reg : Registry} {s t : Ty} :
    reg.equivalent s t = .ok true ↔
      reg.isSubtype s t = .ok true ∧ reg.isSubtype t s = .ok true := by
  simp only [equivalent, bind_eq_ok]
  constructor
  · rintro ⟨above, hst, hts⟩
    cases above with
    | true => exact ⟨hst, hts⟩
    | false => cases hts
  · rintro ⟨hst, hts⟩
    exact ⟨true, hst, hts⟩

end Registry

/-! ## After a branch -/

namespace Env

/-- The join of two types is the greater if they compare, and otherwise their union. -/
theorem joinTypes_cases {reg : Registry} {l r j : Ty} (h : joinTypes reg l r = .ok j) :
    (j = l ∧ reg.isSubtype l r = .ok true) ∨ (j = r ∧ reg.isSubtype r l = .ok true) ∨
      (j = .unionOf [l, r] ∧ reg.isSubtype l r = .ok false ∧ reg.isSubtype r l = .ok false) := by
  simp only [joinTypes, bind_eq_ok] at h
  obtain ⟨equiv, hequiv, h⟩ := h
  cases equiv with
  -- equivalent types are joined to the first
  | true =>
    cases h
    exact .inl ⟨rfl, (Registry.equivalent_eq_true_iff.1 hequiv).1⟩
  | false =>
    simp only [Bool.false_eq_true, if_false, bind_eq_ok] at h
    obtain ⟨above, hlr, h⟩ := h
    cases above with
    | true =>
      cases h
      exact .inl ⟨rfl, hlr⟩
    | false =>
      simp only [Bool.false_eq_true, if_false, bind_eq_ok] at h
      obtain ⟨below, hrl, h⟩ := h
      cases below with
      | true =>
        cases h
        exact .inr (.inl ⟨rfl, hrl⟩)
      | false =>
        cases h
        exact .inr (.inr ⟨rfl, hlr, hrl⟩)

section Join

variable {reg : Registry} (hwf : WellFounded reg.Unfolds) (hreg : reg.Bodies reg.Orderly)
  {l r j : Ty} (hl : reg.Orderly l) (hr : reg.Orderly r)

include hreg hl hr

/-- The types of two arms can be joined, as they can be compared. -/
theorem exists_joinTypes : ∃ j, joinTypes reg l r = .ok j := by
  obtain ⟨above, habove⟩ := Registry.exists_answer hreg hl hr
  obtain ⟨below, hbelow⟩ := Registry.exists_answer hreg hr hl
  cases above <;> cases below <;>
    exact ⟨_, by simp only [joinTypes, Registry.equivalent, habove, hbelow]; rfl⟩

include hwf in
/-- Two types of a variable join to a type above both. -/
theorem joinTypes_above (h : joinTypes reg l r = .ok j) :
    reg.Orderly j ∧ reg.Below j l ∧ reg.Below j r := by
  have hll : reg.Below l l := Registry.below_refl hl.noInferred
  have hrr : reg.Below r r := Registry.below_refl hr.noInferred
  rcases joinTypes_cases h with ⟨rfl, hlr⟩ | ⟨rfl, hrl⟩ | ⟨rfl, -⟩
  · exact ⟨hl, hll, (Registry.isSubtype_iff_below_of_orderly hreg hl hr).1 hlr⟩
  · exact ⟨hr, (Registry.isSubtype_iff_below_of_orderly hreg hr hl).1 hrl, hrr⟩
  · have harms : ∀ t ∈ [l, r], reg.Orderly t := by simp [hl, hr]
    exact ⟨Registry.orderly_unionOf (List.cons_ne_nil _ _) harms,
      Registry.below_unionOf hwf hreg harms (by simp),
      Registry.below_unionOf hwf hreg harms (by simp)⟩

end Join

/-- The join of settled types is settled. -/
theorem joinTypes_upper {reg : Registry} (hwf : WellFounded reg.Unfolds)
    (hreg : reg.Bodies reg.Settled) {l r j : Ty} (hl : reg.Settled l) (hr : reg.Settled r)
    (h : joinTypes reg l r = .ok j) : reg.Settled j ∧ reg.Below j l ∧ reg.Below j r := by
  obtain ⟨-, habove⟩ :=
    joinTypes_above hwf (hreg.imp fun _ h => h.orderly) hl.orderly hr.orderly h
  refine ⟨?_, habove⟩
  rcases joinTypes_cases h with ⟨rfl, -⟩ | ⟨rfl, -⟩ | ⟨rfl, -⟩
  · exact hl
  · exact hr
  · exact Registry.settled_unionOf (List.cons_ne_nil _ _) (by simp [hl, hr])

end Env

end WhileTyping
