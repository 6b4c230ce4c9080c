import WhileTyping.Proofs.BuiltRegistry
import WhileTyping.Proofs.TrailAdequacy

/-!
# Subtyping is a preorder

Reflexivity follows the structure of the type. Transitivity is the substance: the type in the middle
may be an alias or a union, which the rules for the outer two types never mention.

* **`below_refl`**: a type without `var` is below itself.
* **`Registry.Linked`**: related directly or through a type in the middle. Every linked pair is
  allowed by a rule with linked premises (`rule_of_linked`). If the middle type is an alias or a
  union, the pair is linked through its body or a member as well; aliases are not circular, so this
  comes to a middle type that is neither.
* **`below_trans`**: so linked pairs are related.

An empty union and an alias that is not declared are above `void`, but not above a union of `void`.
So transitivity needs an upper type that has neither.
-/

namespace WhileTyping

/-! ## Reflexivity -/

/-- Every type without `var` is below itself. The relation that holds of equal types obeys the
rules. -/
theorem Registry.below_refl {reg : Registry} {t : Ty} (h : t.NoInferred) : reg.Below t t := by
  induction t with
  | void => exact .of_rule (.void _)
  | bool | char | int | string => exact .of_rule (.primitive rfl)
  | inferred => exact absurd rfl h.here
  | array e ih => exact .of_rule (.array (ih h.element))
  | record fs ih =>
    refine .of_rule (.record le_rfl ?_)
    rintro ⟨f, g⟩ hp
    -- a pair of a list zipped with itself is twice the same
    obtain ⟨i, hf, hg⟩ := mem_zip_iff.1 hp
    have hfg : f = g := Option.some.inj (hf.symm.trans hg)
    have hmem : f ∈ fs := List.mem_of_getElem? hf
    exact ⟨congrArg Field.name hfg, hfg ▸ ih f hmem (h.field hmem)⟩
  | named n => exact .of_rule (.aliasSelf n)
  | union ts ih => exact .of_rule (.unions fun t ht => ⟨t, ht, ih t ht (h.member ht)⟩)

/-! ## Transitivity -/

/-- A type is an alias, a union, or neither. -/
inductive Ty.Outline : Ty → Prop
  | named (n : String) : Outline (.named n)
  | union (ts : List Ty) : Outline (.union ts)
  | plain {t : Ty} (hnamed : ∀ n, t ≠ .named n) (hunion : ∀ ts, t ≠ .union ts) : Outline t

/-- Every type is an alias, a union or neither. -/
theorem Ty.outline (t : Ty) : t.Outline := by
  cases t with
  | named n => exact .named n
  | union ts => exact .union ts
  | void | bool | char | int | string | inferred | array | record => exact .plain nofun nofun

namespace Registry

variable {reg : Registry}

/-- Related directly or through a third type. -/
def Linked (reg : Registry) (a c : Ty) : Prop :=
  reg.Below a c ∨ ∃ b, reg.Below a b ∧ reg.Below b c

/-- Above another type, an alias can be replaced by its body. -/
theorem Below.body_left {m : String} {body sub : Ty} (h : reg.Below (.named m) sub)
    (hself : sub ≠ .named m) (hbody : reg.alias? m = some body) : reg.Below body sub := by
  by_cases hvoid : sub = .void
  · subst hvoid
    exact .of_rule (.void _)
  · exact (Rule.aliasAbove_iff hvoid hself hbody).1 h.rule

/-- A type that cannot be unfolded and is below a union is below one of its members, if it has any.
-/
theorem Below.exists_member {ss : List Ty} {sub : Ty} (hne : ss ≠ [])
    (h : reg.Below (.union ss) sub) (hnamed : ∀ n, sub ≠ .named n)
    (hunion : ∀ ts, sub ≠ .union ts) : ∃ s ∈ ss, reg.Below s sub := by
  by_cases hvoid : sub = .void
  · subst hvoid
    obtain ⟨s, hs⟩ := List.exists_mem_of_ne_nil ss hne
    exact ⟨s, hs, .of_rule (.void s)⟩
  · exact (Rule.unionAbove_iff hvoid hnamed hunion).1 h.rule

/-- An alias linked to a type: its body is linked to it, whatever stands in the middle. -/
theorem linked_named {m : String} {body b c : Ty} (hbody : reg.alias? m = some body)
    (hab : reg.Below (.named m) b) (hbc : reg.Below b c) : Rule reg reg.Linked (.named m) c := by
  by_cases hvoid : c = .void
  · subst hvoid
    exact .void _
  by_cases hself : c = .named m
  · subst hself
    exact .aliasSelf m
  refine .aliasAbove hvoid hself hbody ?_
  by_cases hb : b = .named m
  · subst hb
    exact .inl (hbc.body_left hself hbody)
  · exact .inr ⟨b, hab.body_left hb hbody, hbc⟩

/-- Below a type that is no alias, an alias can be replaced by its body. -/
theorem Below.exists_body_right {sup : Ty} {n : String} (hnamed : ∀ m, sup ≠ .named m)
    (h : reg.Below sup (.named n)) : ∃ body, reg.alias? n = some body ∧ reg.Below sup body := by
  cases h.rule with
  | primitive hprim => cases hprim
  | aliasSelf | aliasAbove => exact absurd rfl (hnamed _)
  | aliasBelow _ hbody h => exact ⟨_, hbody, h⟩
  | unionAbove _ hnamed' => exact absurd rfl (hnamed' _)

/-- Three types none of which can be unfolded. -/
theorem linked_plain {a b c : Ty} (hanamed : ∀ n, a ≠ .named n) (haunion : ∀ ts, a ≠ .union ts)
    (hbnamed : ∀ n, b ≠ .named n) (hbunion : ∀ ts, b ≠ .union ts) (hcnamed : ∀ n, c ≠ .named n)
    (hcunion : ∀ ts, c ≠ .union ts) (hab : reg.Below a b) (hbc : reg.Below b c) :
    Rule reg reg.Linked a c := by
  cases hab.rule with
  | void =>
    cases hbc.rule with
    | void => exact .void _
    | primitive hprim => cases hprim
    | aliasBelow => exact absurd rfl (hcnamed _)
    | unionBelow => exact absurd rfl (hcunion _)
  -- the type in the middle is the one above
  | primitive => exact hbc.rule.mono fun _ _ => .inl
  | array helem =>
    cases hbc.rule with
    | void => exact .void _
    | primitive hprim => cases hprim
    | array helem' => exact .array (.inr ⟨_, helem, helem'⟩)
    | aliasBelow => exact absurd rfl (hcnamed _)
    | unionBelow => exact absurd rfl (hcunion _)
  | record hlen hfields =>
    cases hbc.rule with
    | void => exact .void _
    | primitive hprim => cases hprim
    | record hlen' hfields' =>
      refine .record (hlen.trans hlen') fun p hp => ?_
      obtain ⟨g, hfg, hgh⟩ := exists_zip_between hlen hp
      exact ⟨(hfields _ hfg).1.trans (hfields' _ hgh).1,
        .inr ⟨g.ty, (hfields _ hfg).2, (hfields' _ hgh).2⟩⟩
    | aliasBelow => exact absurd rfl (hcnamed _)
    | unionBelow => exact absurd rfl (hcunion _)
  -- the rules for aliases and unions do not apply to plain types
  | aliasSelf | aliasAbove => exact absurd rfl (hanamed _)
  | aliasBelow => exact absurd rfl (hbnamed _)
  | unions | unionAbove => exact absurd rfl (haunion _)
  | unionBelow => exact absurd rfl (hbunion _)

/-- A link through a type that cannot be unfolded. -/
theorem linked_through_plain {a b c : Ty} (hne : a ≠ .union []) (hvoid : c ≠ .void)
    (hanamed : ∀ n, a ≠ .named n) (hcnamed : ∀ n, c ≠ .named n) (hbnamed : ∀ n, b ≠ .named n)
    (hbunion : ∀ ts, b ≠ .union ts) (hab : reg.Below a b) (hbc : reg.Below b c) :
    Rule reg reg.Linked a c := by
  cases a.outline with
  | named m => exact absurd rfl (hanamed m)
  | union as =>
    -- one member is above the type in the middle, and serves for all that is below
    obtain ⟨s, hs, hsb⟩ := hab.exists_member (fun h => hne (h ▸ rfl)) hbnamed hbunion
    cases c.outline with
    | named n => exact absurd rfl (hcnamed n)
    | union cs =>
      have hbcs := (Rule.unionBelow_iff hbnamed hbunion).1 hbc.rule
      exact .unions fun t ht => ⟨s, hs, .inr ⟨b, hsb, hbcs t ht⟩⟩
    | plain _ hcunion => exact .unionAbove hvoid hcnamed hcunion hs (.inr ⟨b, hsb, hbc⟩)
  | plain _ haunion =>
    cases c.outline with
    | named n => exact absurd rfl (hcnamed n)
    | union cs =>
      have hbcs := (Rule.unionBelow_iff hbnamed hbunion).1 hbc.rule
      exact .unionBelow hanamed haunion fun t ht => .inr ⟨b, hab, hbcs t ht⟩
    | plain _ hcunion => exact linked_plain hanamed haunion hbnamed hbunion hcnamed hcunion hab hbc

/-- A link through a union. Where neither outer type is a union the link goes through a member. -/
theorem linked_through_union {a c : Ty} {bs : List Ty} (hvoid : c ≠ .void)
    (hanamed : ∀ n, a ≠ .named n) (hcnamed : ∀ n, c ≠ .named n)
    (hmember : ∀ b ∈ bs, reg.Below a b → reg.Below b c → Rule reg reg.Linked a c)
    (hab : reg.Below a (.union bs)) (hbc : reg.Below (.union bs) c) : Rule reg reg.Linked a c := by
  cases a.outline with
  | named m => exact absurd rfl (hanamed m)
  | union as =>
    have habs := Rule.unions_iff.1 hab.rule
    cases c.outline with
    | named n => exact absurd rfl (hcnamed n)
    | union cs =>
      refine .unions fun t ht => ?_
      -- from a member below to one in the middle, and from there to one above
      obtain ⟨b, hb, hbt⟩ := Rule.unions_iff.1 hbc.rule t ht
      obtain ⟨s, hs, hsb⟩ := habs b hb
      exact ⟨s, hs, .inr ⟨b, hsb, hbt⟩⟩
    | plain _ hcunion =>
      obtain ⟨b, hb, hbc⟩ := (Rule.unionAbove_iff hvoid hcnamed hcunion).1 hbc.rule
      obtain ⟨s, hs, hsb⟩ := habs b hb
      exact .unionAbove hvoid hcnamed hcunion hs (.inr ⟨b, hsb, hbc⟩)
  | plain _ haunion =>
    have habs := (Rule.unionBelow_iff hanamed haunion).1 hab.rule
    cases c.outline with
    | named n => exact absurd rfl (hcnamed n)
    | union cs =>
      refine .unionBelow hanamed haunion fun t ht => ?_
      obtain ⟨b, hb, hbt⟩ := Rule.unions_iff.1 hbc.rule t ht
      exact .inr ⟨b, habs b hb, hbt⟩
    | plain _ hcunion =>
      obtain ⟨b, hb, hbc⟩ := (Rule.unionAbove_iff hvoid hcnamed hcunion).1 hbc.rule
      -- no rule for unions is left, so a member takes the place of the union
      exact hmember b hb (habs b hb) hbc

/-- Every link is allowed by a rule with linked premises. Induction on the unfolding of the type in
the middle. -/
theorem rule_of_linked (hwf : WellFounded reg.Unfolds) {a b c : Ty} (hdeclared : reg.Declares a)
    (hne : a ≠ .union []) (hab : reg.Below a b) (hbc : reg.Below b c) :
    Rule reg reg.Linked a c := by
  induction b using hwf.induction with
  | _ b ih =>
    by_cases hvoid : c = .void
    · subst hvoid
      exact .void a
    by_cases hanamed : ∃ m, a = .named m
    · obtain ⟨m, rfl⟩ := hanamed
      obtain ⟨body, hbody⟩ := Option.isSome_iff_exists.1 hdeclared
      exact linked_named hbody hab hbc
    have hanamed : ∀ m, a ≠ .named m := fun m h => hanamed ⟨m, h⟩
    cases b.outline with
    | named m =>
      -- the rules above and below an alias in the middle both go to its body
      obtain ⟨body, hbody, habody⟩ := hab.exists_body_right hanamed
      by_cases hself : c = .named m
      · subst hself
        exact hab.rule.mono fun _ _ => .inl
      · exact ih body (.body hbody) habody (hbc.body_left hself hbody)
    -- an alias below is unfolded first, with the union in the middle as it is
    | union bs =>
      by_cases hcnamed : ∃ n, c = .named n
      · obtain ⟨n, rfl⟩ := hcnamed
        obtain ⟨body, hbody, hbbody⟩ := hbc.exists_body_right (by simp)
        exact .aliasBelow hanamed hbody (.inr ⟨_, hab, hbbody⟩)
      · exact linked_through_union hvoid hanamed (fun n h => hcnamed ⟨n, h⟩)
          (fun b hb => ih b (.member hb)) hab hbc
    | plain hbnamed hbunion =>
      by_cases hcnamed : ∃ n, c = .named n
      · obtain ⟨n, rfl⟩ := hcnamed
        obtain ⟨body, hbody, hbbody⟩ := hbc.exists_body_right hbnamed
        exact .aliasBelow hanamed hbody (.inr ⟨_, hab, hbbody⟩)
      · exact linked_through_plain hne hvoid hanamed (fun n h => hcnamed ⟨n, h⟩) hbnamed hbunion hab
          hbc

/-- Subtyping by the rules is transitive, where the upper and the lower type mention declared
aliases only and have no empty union. -/
theorem below_trans (hwf : WellFounded reg.Unfolds)
    (hreg : reg.Bodies fun t => reg.Covers t ∧ t.NoEmptyUnion) {a b c : Ty}
    (ha : reg.Covers a ∧ a.NoEmptyUnion) (hc : reg.Covers c ∧ c.NoEmptyUnion)
    (hab : reg.Below a b) (hbc : reg.Below b c) : reg.Below a c := by
  let P : Ty → Prop := fun u => reg.Declares u ∧ u ≠ .union []
  have hbodies : reg.Bodies (Ty.Everywhere P) := hreg.imp fun t ht => ht.1.and ht.2
  refine ⟨fun s t => reg.Linked s t ∧ s.Everywhere P ∧ t.Everywhere P, ?_,
    .inr ⟨b, hab, hbc⟩, ha.1.and ha.2, hc.1.and hc.2⟩
  rintro s t ⟨hst, hs, ht⟩
  -- the premises are linked, and again about types that satisfy the conditions
  refine Rule.everywhere hbodies hs ht ?_
  rcases hst with hst | ⟨u, hsu, hut⟩
  · exact hst.rule.mono fun _ _ => .inl
  · exact rule_of_linked hwf hs.here.1 hs.here.2 hsu hut

/-! ## The search -/

/-- In a registry that is built, the subtype check is reflexive and transitive on types that mention
declared aliases only and whose unions have members and repeat none. -/
theorem isSubtype_preorder {f : File} (hbuild : (build f).result = .ok reg)
    (hreg : reg.Bodies reg.Regular) :
    (∀ a, reg.Regular a → a.NoInferred → reg.isSubtype a a = .ok true) ∧
      ∀ a b c, reg.Regular a → reg.Regular b → reg.Regular c → reg.isSubtype a b = .ok true →
        reg.isSubtype b c = .ok true → reg.isSubtype a c = .ok true := by
  have hiff : ∀ {s t}, reg.Regular s → reg.Regular t →
      (reg.isSubtype s t = .ok true ↔ reg.Below s t) := fun hs ht =>
    isSubtype_iff_below (hreg.imp fun t ht => ⟨ht.covers, ht.noRepeats⟩)
      ⟨hs.covers, hs.noRepeats⟩ ⟨ht.covers, ht.noRepeats⟩
  constructor
  · intro a ha hinferred
    exact (hiff ha ha).2 (below_refl hinferred)
  · intro a b c ha hb hc hab hbc
    -- the search says what the relation says, and the relation is transitive
    refine (hiff ha hc).2 (below_trans (wellFounded_unfolds hbuild)
      (hreg.imp fun t ht => ⟨ht.covers, ht.noEmptyUnion⟩) ⟨ha.covers, ha.noEmptyUnion⟩
      ⟨hc.covers, hc.noEmptyUnion⟩ ((hiff ha hb).1 hab) ((hiff hb hc).1 hbc))

/-- A union one of whose members is an alias of a union. -/
theorem isSubtype_preorder_nested :
    let reg : Registry := { aliases :=
      [("Scalar", .union [.int, .bool]), ("Any", .union [.named "Scalar", .string])] }
    reg.isSubtype (.named "Any") (.named "Any") = .ok true ∧
      reg.isSubtype (.named "Any") .int = .ok true := by
  intro reg
  let f : File := { decls := [.alias { name := "Scalar", ty := .union [.int, .bool] },
    .alias { name := "Any", ty := .union [.named "Scalar", .string] }] }
  have hbuild : (build f).result = .ok reg := by decide +kernel
  have hreg : reg.Bodies reg.Regular := by decide +kernel
  have hany : reg.Regular (.named "Any") := by decide +kernel
  have hscalar : reg.Regular (.named "Scalar") := by decide +kernel
  have hint : reg.Regular .int := by decide +kernel
  have hupper : reg.isSubtype (.named "Any") (.named "Scalar") = .ok true := by decide +kernel
  have hlower : reg.isSubtype (.named "Scalar") .int = .ok true := by decide +kernel
  obtain ⟨hrefl, htrans⟩ := isSubtype_preorder hbuild hreg
  exact ⟨hrefl _ hany (by decide +kernel), htrans _ _ _ hany hscalar hint hupper hlower⟩

end Registry

end WhileTyping
