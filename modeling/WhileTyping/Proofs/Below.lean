import Mathlib.Order.Bounds.Defs
import WhileTyping.Proofs.SameTypes

/-!
# The subtype relation of the rules

`Registry.subtype` searches with a trail. This module says, without a search, which pairs of types
the rules relate when aliases may be recursive: the largest relation in which every pair is an
instance of a rule whose premises are in the relation again.

* **`Rule`**: the rules one by one, over a relation `X` for their premises. The side conditions make
  the shapes disjoint, in the order in which a comparison tries them.
* **`Registry.Below`**: a pair is related if some relation that is its own support
  (`Registry.Supported`) holds it. It is the largest such relation (`below_isGreatest`) and is
  closed under the rules in both directions (`Below.rule`, `Below.of_rule`).
* **`below_coinduct_same`**: to show pairs related it is enough to support them up to sameness of
  types, where no union repeats a member. So `Below` itself is closed under sameness (`Below.same`).
-/

namespace WhileTyping

/-! ## The rules -/

/-- The pairs of a supertype and a subtype that a rule allows, with `X` for its premises. -/
inductive Rule (reg : Registry) (X : Ty → Ty → Prop) : Ty → Ty → Prop
  | void (sup : Ty) : Rule reg X sup .void
  | primitive {t : Ty} (h : t.isPrimitive = true) : Rule reg X t t
  | array {s t : Ty} (h : X s t) : Rule reg X (.array s) (.array t)
  | record {fs gs : List Field} (hlen : fs.length ≤ gs.length)
      (h : ∀ p ∈ fs.zip gs, p.1.name = p.2.name ∧ X p.1.ty p.2.ty) :
      Rule reg X (.record fs) (.record gs)
  | aliasSelf (n : String) : Rule reg X (.named n) (.named n)
  -- the side conditions make the rules exclude each other, in the order of the search
  | aliasAbove {m : String} {sub body : Ty} (hvoid : sub ≠ .void) (hself : sub ≠ .named m)
      (hbody : reg.alias? m = some body) (h : X body sub) : Rule reg X (.named m) sub
  | aliasBelow {sup body : Ty} {n : String} (hnamed : ∀ m, sup ≠ .named m)
      (hbody : reg.alias? n = some body) (h : X sup body) : Rule reg X sup (.named n)
  | unions {ss ts : List Ty} (h : ∀ t ∈ ts, ∃ s ∈ ss, X s t) : Rule reg X (.union ss) (.union ts)
  | unionAbove {ss : List Ty} {s sub : Ty} (hvoid : sub ≠ .void) (hnamed : ∀ n, sub ≠ .named n)
      (hunion : ∀ ts, sub ≠ .union ts) (hs : s ∈ ss) (h : X s sub) : Rule reg X (.union ss) sub
  | unionBelow {sup : Ty} {ts : List Ty} (hnamed : ∀ m, sup ≠ .named m)
      (hunion : ∀ ss, sup ≠ .union ss) (h : ∀ t ∈ ts, X sup t) : Rule reg X sup (.union ts)

namespace Rule

variable {reg : Registry} {X Y : Ty → Ty → Prop} {sup sub : Ty}

/-- A rule whose premises are in one relation has its premises in every larger one. -/
theorem mono (hXY : ∀ s t, X s t → Y s t) (h : Rule reg X sup sub) : Rule reg Y sup sub := by
  cases h with
  | void => exact .void _
  | primitive h => exact .primitive h
  | array h => exact .array (hXY _ _ h)
  | record hlen h => exact .record hlen fun p hp => ⟨(h p hp).1, hXY _ _ (h p hp).2⟩
  | aliasSelf n => exact .aliasSelf n
  | aliasAbove hvoid hself hbody h => exact .aliasAbove hvoid hself hbody (hXY _ _ h)
  | aliasBelow hnamed hbody h => exact .aliasBelow hnamed hbody (hXY _ _ h)
  | unions h =>
    refine .unions fun t ht => ?_
    obtain ⟨s, hs, hst⟩ := h t ht
    exact ⟨s, hs, hXY _ _ hst⟩
  | unionAbove hvoid hnamed hunion hs h => exact .unionAbove hvoid hnamed hunion hs (hXY _ _ h)
  | unionBelow hnamed hunion h => exact .unionBelow hnamed hunion fun t ht => hXY _ _ (h t ht)

/-! Each pair of shapes is allowed by one rule only, so a rule can be read backwards. -/

/-- Of two arrays no other rule can hold, so the rule can be read backwards. -/
theorem array_iff {s t : Ty} : Rule reg X (.array s) (.array t) ↔ X s t := by
  constructor
  · intro h
    cases h with
    | primitive hprim => cases hprim
    | array h => exact h
  · exact .array

/-- The rule for two records, read in both directions. -/
theorem record_iff {fs gs : List Field} :
    Rule reg X (.record fs) (.record gs) ↔
      fs.length ≤ gs.length ∧ ∀ p ∈ fs.zip gs, p.1.name = p.2.name ∧ X p.1.ty p.2.ty := by
  constructor
  · intro h
    cases h with
    | primitive hprim => cases hprim
    | record hlen h => exact ⟨hlen, h⟩
  · exact fun h => .record h.1 h.2

/-- An alias above stands for its body, unless the lower type settles the comparison. -/
theorem aliasAbove_iff {m : String} {body : Ty} (hvoid : sub ≠ .void) (hself : sub ≠ .named m)
    (hbody : reg.alias? m = some body) : Rule reg X (.named m) sub ↔ X body sub := by
  constructor
  · intro h
    cases h with
    | void => exact absurd rfl hvoid
    | primitive hprim => cases hprim
    | aliasSelf => exact absurd rfl hself
    -- the only rule that is left
    | aliasAbove _ _ hbody' h =>
      rw [hbody] at hbody'
      cases hbody'
      exact h
    | aliasBelow hnamed => exact absurd rfl (hnamed m)
    | unionBelow hnamed => exact absurd rfl (hnamed m)
  · exact .aliasAbove hvoid hself hbody

/-- An alias below stands for its body if the upper type is no alias. -/
theorem aliasBelow_iff {n : String} {body : Ty} (hnamed : ∀ m, sup ≠ .named m)
    (hbody : reg.alias? n = some body) : Rule reg X sup (.named n) ↔ X sup body := by
  constructor
  · intro h
    cases h with
    | primitive hprim => cases hprim
    | aliasSelf => exact absurd rfl (hnamed n)
    | aliasAbove => exact absurd rfl (hnamed _)
    | aliasBelow _ hbody' h =>
      rw [hbody] at hbody'
      cases hbody'
      exact h
    | unionAbove _ hnamed' => exact absurd rfl (hnamed' n)
  · exact .aliasBelow hnamed hbody

/-- The rule for two unions, read in both directions. -/
theorem unions_iff {ss ts : List Ty} :
    Rule reg X (.union ss) (.union ts) ↔ ∀ t ∈ ts, ∃ s ∈ ss, X s t := by
  constructor
  · intro h
    cases h with
    | primitive hprim => cases hprim
    | unions h => exact h
    | unionAbove _ _ hunion => exact absurd rfl (hunion ts)
    | unionBelow _ hunion => exact absurd rfl (hunion ss)
  · exact .unions

/-- A union is above a type that is no union if one of its members is. -/
theorem unionAbove_iff {ss : List Ty} (hvoid : sub ≠ .void) (hnamed : ∀ n, sub ≠ .named n)
    (hunion : ∀ ts, sub ≠ .union ts) : Rule reg X (.union ss) sub ↔ ∃ s ∈ ss, X s sub := by
  constructor
  · intro h
    cases h with
    | void => exact absurd rfl hvoid
    | primitive hprim => cases hprim
    | aliasBelow => exact absurd rfl (hnamed _)
    | unions => exact absurd rfl (hunion _)
    | unionAbove _ _ _ hs h => exact ⟨_, hs, h⟩
    | unionBelow => exact absurd rfl (hunion _)
  · rintro ⟨s, hs, h⟩
    exact .unionAbove hvoid hnamed hunion hs h

/-- A union is below a type that is no union if all of its members are. -/
theorem unionBelow_iff {ts : List Ty} (hnamed : ∀ m, sup ≠ .named m)
    (hunion : ∀ ss, sup ≠ .union ss) : Rule reg X sup (.union ts) ↔ ∀ t ∈ ts, X sup t := by
  constructor
  · intro h
    cases h with
    | primitive hprim => cases hprim
    | aliasAbove => exact absurd rfl (hnamed _)
    | unions => exact absurd rfl (hunion _)
    | unionAbove => exact absurd rfl (hunion _)
    | unionBelow _ _ h => exact h
  · exact .unionBelow hnamed hunion

/-- The premises of a rule are about parts and alias bodies, so they inherit a condition that holds
at every depth of the two types and of the alias bodies. -/
theorem everywhere {P : Ty → Prop} (hreg : reg.Bodies (Ty.Everywhere P)) (hsup : sup.Everywhere P)
    (hsub : sub.Everywhere P) (h : Rule reg X sup sub) :
    Rule reg (fun s t => X s t ∧ s.Everywhere P ∧ t.Everywhere P) sup sub := by
  cases h with
  | void => exact .void _
  | primitive h => exact .primitive h
  | array h => exact .array ⟨h, hsup.element, hsub.element⟩
  | record hlen h =>
    refine .record hlen fun p hp => ⟨(h p hp).1, (h p hp).2, ?_, ?_⟩
    · exact hsup.field (List.of_mem_zip hp).1
    · exact hsub.field (List.of_mem_zip hp).2
  | aliasSelf n => exact .aliasSelf n
  -- an alias is not a part of its body, so what holds of bodies is needed here
  | aliasAbove hvoid hself hbody h =>
    exact .aliasAbove hvoid hself hbody ⟨h, hreg.of_alias? hbody, hsub⟩
  | aliasBelow hnamed hbody h => exact .aliasBelow hnamed hbody ⟨h, hsup, hreg.of_alias? hbody⟩
  | unions h =>
    refine .unions fun t ht => ?_
    obtain ⟨s, hs, hst⟩ := h t ht
    exact ⟨s, hs, hst, hsup.member hs, hsub.member ht⟩
  | unionAbove hvoid hnamed hunion hs h =>
    exact .unionAbove hvoid hnamed hunion hs ⟨h, hsup.member hs, hsub⟩
  | unionBelow hnamed hunion h =>
    exact .unionBelow hnamed hunion fun t ht => ⟨h t ht, hsup, hsub.member ht⟩

end Rule

/-! ## The largest relation -/

namespace Registry

/-- Every pair of the relation is an instance of a rule with premises in the relation. -/
def Supported (reg : Registry) (X : Ty → Ty → Prop) : Prop := ∀ s t, X s t → Rule reg X s t

/-- The second type is below the first by the rules. -/
def Below (reg : Registry) (sup sub : Ty) : Prop := ∃ X, reg.Supported X ∧ X sup sub

variable {reg : Registry}

/-- What is below is so by a rule. -/
theorem Below.rule {sup sub : Ty} (h : reg.Below sup sub) : Rule reg reg.Below sup sub := by
  obtain ⟨X, hX, h⟩ := h
  exact (hX _ _ h).mono fun s t hst => ⟨X, hX, hst⟩

/-- The union of the supported relations is supported itself. -/
theorem supported_below (reg : Registry) : reg.Supported reg.Below := fun _ _ h => h.rule

/-- It is the largest of them, which makes it the relation that coinduction proves. -/
theorem below_isGreatest (reg : Registry) : IsGreatest {X | reg.Supported X} reg.Below :=
  ⟨reg.supported_below, fun X hX _ _ h => ⟨X, hX, h⟩⟩

/-- What a rule derives from pairs that are below is below. -/
theorem Below.of_rule {sup sub : Ty} (h : Rule reg reg.Below sup sub) : reg.Below sup sub :=
  ⟨Rule reg reg.Below, fun _ _ h => h.mono fun _ _ h => h.rule, h⟩

/-! ## Coinduction up to sameness

A pair is moved along sameness on both sides. Every rule moves with it: the outer shapes agree, and
so do the parts, since unions that are the same have the same members. -/

/-- Pairs that are the same as a pair of the relation, among types without repeated members. -/
structure UpToSame (X : Ty → Ty → Prop) (sup sub : Ty) : Prop where
  sup_noRepeats : sup.NoRepeats
  sub_noRepeats : sub.NoRepeats
  origin : ∃ s t, s.NoRepeats ∧ t.NoRepeats ∧ s.same sup = true ∧ t.same sub = true ∧ X s t

end Registry

/-- Outer shapes that a side condition excludes stay excluded. -/
theorem Ty.same_ne {t t' : Ty} (h : t.same t' = true) :
    (t ≠ .void → t' ≠ .void) ∧ (∀ n, t ≠ .named n → t' ≠ .named n) ∧
      ((∀ ts, t ≠ .union ts) → ∀ ts, t' ≠ .union ts) := by
  refine ⟨?_, ?_, ?_⟩
  · rintro hne rfl
    cases Ty.same_cases h
    exact hne rfl
  · rintro n hne rfl
    cases Ty.same_cases h
    exact hne rfl
  · rintro hne ts rfl
    cases Ty.same_cases h with
    | equal => exact hne _ rfl
    | union => exact hne _ rfl

/-- A rule that holds of two types holds of any two that are the same as they, with premises up to
sameness. -/
theorem Rule.upToSame {reg : Registry} {X : Ty → Ty → Prop} {s t s' t' : Ty}
    (hreg : reg.Bodies Ty.NoRepeats) (hs : s.NoRepeats) (ht : t.NoRepeats) (hs' : s'.NoRepeats)
    (ht' : t'.NoRepeats) (hss' : s.same s' = true) (htt' : t.same t' = true)
    (h : Rule reg X s t) : Rule reg (Registry.UpToSame X) s' t' := by
  obtain ⟨hvoid', hnamed', hunion'⟩ := Ty.same_ne htt'
  obtain ⟨-, hsupNamed', hsupUnion'⟩ := Ty.same_ne hss'
  cases h with
  | void =>
    cases Ty.same_cases htt'
    exact .void _
  -- primitive types are the same as themselves only
  | primitive hprim =>
    cases Ty.same_cases hss' with
    | equal =>
      cases Ty.same_cases htt' with
      | equal => exact .primitive hprim
      | array | record | union => cases hprim
    | array | record | union => cases hprim
  | array h =>
    obtain ⟨a', rfl, haa'⟩ := Ty.same_array_left hss'
    obtain ⟨b', rfl, hbb'⟩ := Ty.same_array_left htt'
    exact .array ⟨hs'.element, ht'.element, _, _, hs.element, ht.element, haa', hbb', h⟩
  | @record fs gs hlen h =>
    obtain ⟨fs', rfl⟩ := Ty.same_record_left hss'
    obtain ⟨gs', rfl⟩ := Ty.same_record_left htt'
    have hfs := Ty.same_record_iff.1 hss'
    have hgs := Ty.same_record_iff.1 htt'
    refine .record (hfs.length_eq ▸ hgs.length_eq ▸ hlen) ?_
    rintro ⟨f', g'⟩ hp
    -- the four lists of fields agree place by place
    obtain ⟨i, hf', hg'⟩ := mem_zip_iff.1 hp
    obtain ⟨f, hf, hname, hff'⟩ := exists_getElem?_of_forall₂ hfs hf'
    obtain ⟨g, hg, hname', hgg'⟩ := exists_getElem?_of_forall₂ hgs hg'
    obtain ⟨hfg, hX⟩ := h (f, g) (mem_zip_iff.2 ⟨i, hf, hg⟩)
    refine ⟨hname ▸ hname' ▸ hfg, hs'.field (List.mem_of_getElem? hf'),
      ht'.field (List.mem_of_getElem? hg'), f.ty, g.ty, hs.field (List.mem_of_getElem? hf),
      ht.field (List.mem_of_getElem? hg), hff', hgg', hX⟩
  | aliasSelf n =>
    cases Ty.same_cases hss'
    cases Ty.same_cases htt'
    exact .aliasSelf n
  | @aliasAbove m _ body hvoid hself hbody h =>
    -- an alias is the same as itself only, so just the other side moves
    cases Ty.same_cases hss'
    have hb := hreg.of_alias? hbody
    exact .aliasAbove (hvoid' hvoid) (hnamed' m hself) hbody
      ⟨hb, ht', body, t, hb, ht, body.same_refl, htt', h⟩
  | @aliasBelow _ body n hnamed hbody h =>
    cases Ty.same_cases htt'
    have hb := hreg.of_alias? hbody
    exact .aliasBelow (fun m => hsupNamed' m (hnamed m)) hbody
      ⟨hs', hb, s, body, hs, hb, hss', body.same_refl, h⟩
  | unions h =>
    obtain ⟨ss', rfl⟩ := Ty.same_union_left hss'
    obtain ⟨ts', rfl⟩ := Ty.same_union_left htt'
    refine .unions fun t' htm' => ?_
    -- back to the first pair of unions, through the rule there, and forth again
    obtain ⟨t, htm, htt'⟩ := (Ty.exists_same_member ht ht' htt').2 t' htm'
    obtain ⟨s, hsm, hst⟩ := h t htm
    obtain ⟨s', hsm', hss'⟩ := (Ty.exists_same_member hs hs' hss').1 s hsm
    exact ⟨s', hsm', hs'.member hsm', ht'.member htm', s, t, hs.member hsm, ht.member htm, hss',
      htt', hst⟩
  -- the member that the rule picks has one like it on the other side
  | unionAbove hvoid hnamed hunion hsm h =>
    obtain ⟨ss', rfl⟩ := Ty.same_union_left hss'
    obtain ⟨s', hsm', hss'⟩ := (Ty.exists_same_member hs hs' hss').1 _ hsm
    exact .unionAbove (hvoid' hvoid) (fun n => hnamed' n (hnamed n)) (hunion' hunion) hsm'
      ⟨hs'.member hsm', ht', _, t, hs.member hsm, ht, hss', htt', h⟩
  | unionBelow hnamed hunion h =>
    obtain ⟨ts', rfl⟩ := Ty.same_union_left htt'
    refine .unionBelow (fun m => hsupNamed' m (hnamed m)) (hsupUnion' hunion) fun t' htm' => ?_
    obtain ⟨t, htm, htt'⟩ := (Ty.exists_same_member ht ht' htt').2 t' htm'
    exact ⟨hs', ht'.member htm', s, t, hs, ht.member htm, hss', htt', h t htm⟩

namespace Registry

/-- Pairs are related by the rules if each is the same as one that a rule allows, with premises
among those pairs. -/
theorem below_coinduct_same {reg : Registry} {X : Ty → Ty → Prop} (hreg : reg.Bodies Ty.NoRepeats)
    (hX : ∀ s t, X s t → s.NoRepeats ∧ t.NoRepeats)
    (hstep : ∀ s t, X s t → ∃ s₀ t₀, s₀.NoRepeats ∧ t₀.NoRepeats ∧ s₀.same s = true ∧
      t₀.same t = true ∧ Rule reg X s₀ t₀)
    {sup sub : Ty} (h : X sup sub) : reg.Below sup sub := by
  refine ⟨UpToSame X, ?_, (hX _ _ h).1, (hX _ _ h).2, sup, sub, (hX _ _ h).1, (hX _ _ h).2,
    sup.same_refl, sub.same_refl, h⟩
  rintro s' t' ⟨hs', ht', s, t, -, -, hss', htt', h⟩
  -- the step may itself start from a pair that is only the same, hence transitivity
  obtain ⟨s₀, t₀, hs₀, ht₀, hss, htt, hrule⟩ := hstep s t h
  exact hrule.upToSame hreg hs₀ ht₀ hs' ht' (Ty.same_trans hss hss') (Ty.same_trans htt htt')

/-- The rules do not see the order of union members. -/
theorem Below.same {reg : Registry} (hreg : reg.Bodies Ty.NoRepeats) {s t s' t' : Ty}
    (hs : s.NoRepeats) (ht : t.NoRepeats) (hs' : s'.NoRepeats) (ht' : t'.NoRepeats)
    (hss' : s.same s' = true) (htt' : t.same t' = true) (h : reg.Below s t) :
    reg.Below s' t' := by
  refine ⟨UpToSame reg.Below, ?_, hs', ht', s, t, hs, ht, hss', htt', h⟩
  rintro u v ⟨hu, hv, u₀, v₀, hu₀, hv₀, huu, hvv, h⟩
  exact h.rule.upToSame hreg hu₀ hv₀ hu hv huu hvv

end Registry

end WhileTyping
