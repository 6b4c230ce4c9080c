import Mathlib.Tactic.Tauto
import WhileTyping.Proofs.Expansion
import WhileTyping.Proofs.UnionBound

/-!
# When a type is above a union

The union of two types is an upper bound of them, but not always the least: a union above is
compared with a union below member by member, and an alias among the members is not replaced by the
members it stands for. So it has to find a single member above it, even where its own members would
find one each. This module says exactly when a type above two others is above their union.

* **`Registry.below_of_expands`**: a type and what it expands to are below each other.
* **`Registry.below_unionOf_plain_iff`**, **`Registry.below_unionOf_iff`**: what is above a union,
  for an upper type that expands to a plain type and to a union.
* **`Registry.TakesWhole`**: the condition on aliases.
* **`Registry.below_unionOf_iff_takesWhole`**, **`Registry.below_joinTypes_iff`**: what is above the
  union of some types, and above the join of two.
* **`Registry.unionOf_not_least`**: the union is not the least upper bound.
* **`Registry.unionOf_least`**: it is, apart from that condition, and so is the join after a branch.
-/

namespace WhileTyping.Registry

/-- If both types expand to unions and the second is an alias, a single member of the first union is
above the alias. -/
def TakesWhole (reg : Registry) (u t : Ty) : Prop :=
  ∀ n ss ts, t = .named n → reg.expand u none = .ok (.union ss) →
    reg.expand t none = .ok (.union ts) → ∃ s ∈ ss, reg.isSubtype s t = .ok true

variable {reg : Registry}

/-! ## Expansion -/

/-- A type and what it expands to are below each other. -/
theorem below_of_expands {t e : Ty} (h : reg.Expands t e) (hvar : e.NoInferred) :
    reg.Below t e ∧ reg.Below e t := by
  induction h with
  | stop => exact ⟨below_refl hvar, below_refl hvar⟩
  | @step n body e hbody h ih =>
    obtain ⟨habove, hbelow⟩ := ih hvar
    refine ⟨?_, .of_rule (.aliasBelow h.ne_named hbody hbelow)⟩
    by_cases hvoid : e = .void
    · subst hvoid
      exact .of_rule (.void _)
    · exact .of_rule (.aliasAbove hvoid (h.ne_named n) hbody habove)

section Orderly

variable (hwf : WellFounded reg.Unfolds) (hreg : reg.Bodies reg.Orderly)

include hreg

/-- What an orderly type expands to is orderly. -/
theorem orderly_of_expands {t e : Ty} (h : reg.Expands t e) (ht : reg.Orderly t) :
    reg.Orderly e := by
  induction h with
  | stop => exact ht
  | step hbody _ ih => exact ih (hreg.of_alias? hbody)

include hwf

/-- An orderly type can be expanded, since its names are declared. -/
theorem exists_expands {t : Ty} (ht : reg.Orderly t) : ∃ e, reg.Expands t e := by
  induction t using hwf.induction with
  | _ t ih =>
    by_cases hnamed : ∃ n, t = .named n
    · obtain ⟨n, rfl⟩ := hnamed
      obtain ⟨body, hbody⟩ := ht.covers.alias?
      obtain ⟨e, he⟩ := ih body (.body hbody) (hreg.of_alias? hbody)
      exact ⟨e, .step hbody he⟩
    · exact ⟨t, .stop fun n hn => hnamed ⟨n, hn⟩⟩

/-- A type can be replaced by its expansion on the upper side. -/
theorem below_iff_of_expands {u e t : Ty} (h : reg.Expands u e) (hu : reg.Orderly u)
    (ht : reg.Orderly t) : reg.Below u t ↔ reg.Below e t := by
  have he := orderly_of_expands hreg h hu
  obtain ⟨habove, hbelow⟩ := below_of_expands h he.noInferred
  exact ⟨below_trans_of_orderly hwf hreg he ht hbelow,
    below_trans_of_orderly hwf hreg hu ht habove⟩

/-- It can be on the lower side too. -/
theorem below_iff_of_expands_right {u t e : Ty} (h : reg.Expands t e) (hu : reg.Orderly u)
    (ht : reg.Orderly t) : reg.Below u t ↔ reg.Below u e := by
  have he := orderly_of_expands hreg h ht
  obtain ⟨habove, hbelow⟩ := below_of_expands h he.noInferred
  exact ⟨fun hut => below_trans_of_orderly hwf hreg hu he hut habove,
    fun hue => below_trans_of_orderly hwf hreg hu ht hue hbelow⟩

/-! ## Above a union -/

/-- A type is above each of its alternatives. -/
theorem below_alternative {t a : Ty} (ht : reg.Orderly t) (ha : a ∈ t.alternatives) :
    reg.Below t a := by
  have horderly := ht.alternative ha
  have hself : reg.Below a a := below_refl horderly.noInferred
  cases t with
  | union ts => exact below_union hwf hreg ha horderly horderly hself
  | void | bool | char | int | string | inferred | array | record | named =>
    cases List.mem_singleton.1 ha
    exact hself

/-- A type that cannot be unfolded is above a union if it is above all its types. -/
theorem below_unionOf_plain_iff {e : Ty} {ts : List Ty} (he : reg.Orderly e)
    (hnamed : ∀ n, e ≠ .named n) (hunion : ∀ ss, e ≠ .union ss) (hts : ∀ t ∈ ts, reg.Orderly t) :
    reg.Below e (.unionOf ts) ↔ ∀ t ∈ ts, reg.Below e t := by
  constructor
  · intro h t ht
    exact below_trans_of_orderly hwf hreg he (hts t ht) h (below_unionOf hwf hreg hts ht)
  · intro h
    refine .of_rule (.unionBelow hnamed hunion fun m hm => ?_)
    obtain ⟨t, ht, hm⟩ := Ty.exists_alternative hm
    have hmember : reg.Below t m := below_alternative hwf hreg (hts t ht) hm
    exact below_trans_of_orderly hwf hreg he ((hts t ht).alternative hm) (h t ht) hmember

/-- A union is above another if it has a member above each alternative of the types of the other. -/
theorem below_unionOf_iff {ss ts : List Ty} (hss : reg.Orderly (.union ss))
    (hts : ∀ t ∈ ts, reg.Orderly t) :
    reg.Below (.union ss) (.unionOf ts) ↔
      ∀ t ∈ ts, ∀ a ∈ t.alternatives, ∃ s ∈ ss, reg.Below s a := by
  constructor
  · intro h t ht a ha
    obtain ⟨m, hm, -, hma⟩ := exists_member_unionOf hreg hts ht ha
    obtain ⟨s, hs, hsm⟩ := Rule.unions_iff.1 h.rule m hm
    exact ⟨s, hs, below_trans_of_orderly hwf hreg (hss.alternative hs)
      ((hts t ht).alternative ha) hsm hma⟩
  · intro h
    refine .of_rule (.unions fun m hm => ?_)
    obtain ⟨t, ht, hm⟩ := Ty.exists_alternative hm
    exact h t ht m hm

/-- The alternatives of a type have members above them one by one if the union is above the type
and, should it be an alias of a union, a member is above the alias. -/
theorem alternatives_below_iff {ss : List Ty} {t e : Ty} (hss : reg.Orderly (.union ss))
    (ht : reg.Orderly t) (he : reg.Expands t e) :
    (∀ a ∈ t.alternatives, ∃ s ∈ ss, reg.Below s a) ↔
      reg.Below (.union ss) t ∧
        (∀ n ts, t = .named n → e = .union ts → ∃ s ∈ ss, reg.Below s t) := by
  have hne : ss ≠ [] := fun hnil => hss.canonical.here.1 (congrArg Ty.union hnil)
  cases t.outline with
  | named n =>
    have hself : ∀ a ∈ (Ty.named n).alternatives, a = .named n := fun a => List.mem_singleton.1
    constructor
    · intro h
      obtain ⟨s, hs, hst⟩ := h _ (List.mem_singleton_self _)
      exact ⟨below_union hwf hreg hs (hss.alternative hs) ht hst, fun _ _ _ _ => ⟨s, hs, hst⟩⟩
    · rintro ⟨habove, hwhole⟩ a ha
      rw [hself a ha]
      by_cases hunion : ∃ ts, e = .union ts
      · obtain ⟨ts, rfl⟩ := hunion
        exact hwhole n ts rfl rfl
      -- the alias stands for a plain type, which a single member is above
      · have horderly := orderly_of_expands hreg he ht
        obtain ⟨hte, het⟩ := below_of_expands he horderly.noInferred
        have habove' := below_trans_of_orderly hwf hreg hss horderly habove hte
        obtain ⟨s, hs, hse⟩ :=
          habove'.exists_member hne he.ne_named fun ts hts => hunion ⟨ts, hts⟩
        exact ⟨s, hs, below_trans_of_orderly hwf hreg (hss.alternative hs) ht hse het⟩
  | union ts =>
    constructor
    · -- between two unions the rule asks for exactly this
      exact fun h => ⟨.of_rule (.unions h), nofun⟩
    · exact fun h => Rule.unions_iff.1 h.1.rule
  | plain hnamed hunion =>
    rw [Ty.alternatives_eq_self hunion]
    constructor
    · intro h
      obtain ⟨s, hs, hst⟩ := h t (List.mem_singleton_self t)
      exact ⟨below_union hwf hreg hs (hss.alternative hs) ht hst,
        fun n _ hn => absurd hn (hnamed n)⟩
    · rintro ⟨habove, -⟩ a ha
      rw [List.mem_singleton.1 ha]
      exact habove.exists_member hne hnamed hunion

/-- To take an alias whole is to have a member above it, if the alias stands for a union. -/
theorem takesWhole_iff {ss : List Ty} {u t e : Ty} (hu : reg.Orderly u) (ht : reg.Orderly t)
    (hunion : reg.Expands u (.union ss)) (he : reg.Expands t e) :
    reg.TakesWhole u t ↔ ∀ n ts, t = .named n → e = .union ts → ∃ s ∈ ss, reg.Below s t := by
  have hss := orderly_of_expands hreg hunion hu
  have hexpand : reg.expand u none = .ok (.union ss) := (expand_eq_ok_iff hwf).2 hunion
  have hexpand' : reg.expand t none = .ok e := (expand_eq_ok_iff hwf).2 he
  have hbelow : ∀ s ∈ ss, reg.isSubtype s t = .ok true ↔ reg.Below s t :=
    fun s hs => isSubtype_iff_below_of_orderly hreg (hss.alternative hs) ht
  unfold TakesWhole
  rw [hexpand, hexpand']
  constructor
  · rintro h n ts hn rfl
    obtain ⟨s, hs, hst⟩ := h n ss ts hn rfl rfl
    exact ⟨s, hs, (hbelow s hs).1 hst⟩
  · -- both expansions are known, so the two statements speak of the same members
    rintro h n _ ts hn ⟨⟩ hts
    obtain ⟨s, hs, hst⟩ := h n ts hn (Except.ok.inj hts)
    exact ⟨s, hs, (hbelow s hs).2 hst⟩

/-- A type is above a union if it is above each of its types and takes the aliases among them
whole. -/
theorem below_unionOf_iff_takesWhole {u : Ty} {ts : List Ty} (hne : ts ≠ []) (hu : reg.Orderly u)
    (hts : ∀ t ∈ ts, reg.Orderly t) :
    reg.Below u (.unionOf ts) ↔ ∀ t ∈ ts, reg.Below u t ∧ reg.TakesWhole u t := by
  obtain ⟨e, he⟩ := exists_expands hwf hreg hu
  have horderly := orderly_of_expands hreg he hu
  have hiff : ∀ {t}, reg.Orderly t → (reg.Below u t ↔ reg.Below e t) :=
    below_iff_of_expands hwf hreg he hu
  rw [hiff (orderly_unionOf hne hts)]
  cases e.outline with
  | named n => exact absurd rfl (he.ne_named n)
  | union ss =>
    rw [below_unionOf_iff hwf hreg horderly hts]
    refine forall₂_congr fun t ht => ?_
    obtain ⟨e', he'⟩ := exists_expands hwf hreg (hts t ht)
    rw [alternatives_below_iff hwf hreg horderly (hts t ht) he', hiff (hts t ht),
      takesWhole_iff hwf hreg hu (hts t ht) he he']
  | plain hnamed hunion =>
    rw [below_unionOf_plain_iff hwf hreg horderly hnamed hunion hts]
    refine forall₂_congr fun t ht => ?_
    -- a type that is no union takes every alias whole, as nothing is asked of it
    have hwhole : reg.TakesWhole u t := by
      intro n ss _ _ hss
      rw [(expand_eq_ok_iff hwf).2 he] at hss
      exact absurd (Except.ok.inj hss) (hunion ss)
    rw [hiff (hts t ht), and_iff_left hwhole]

/-- A type is above the join of two types after a branch if it is above both, and above their union
unless they compare. -/
theorem below_joinTypes_iff {a b u j : Ty} (ha : reg.Orderly a) (hb : reg.Orderly b)
    (hu : reg.Orderly u) (h : Env.joinTypes reg a b = .ok j) :
    reg.Below u j ↔ reg.Below u a ∧ reg.Below u b ∧
      (reg.Below a b ∨ reg.Below b a ∨ reg.Below u (.unionOf [a, b])) := by
  obtain ⟨-, hja, hjb⟩ := Env.joinTypes_above hwf hreg ha hb h
  have habove : reg.Below u j → reg.Below u a ∧ reg.Below u b := fun huj =>
    ⟨below_trans_of_orderly hwf hreg hu ha huj hja, below_trans_of_orderly hwf hreg hu hb huj hjb⟩
  have hiff : ∀ {s t}, reg.Orderly s → reg.Orderly t →
      (reg.isSubtype s t = .ok true ↔ reg.Below s t) := isSubtype_iff_below_of_orderly hreg
  rcases Env.joinTypes_cases h with ⟨rfl, hab⟩ | ⟨rfl, hba⟩ | ⟨rfl, hab, hba⟩
  · rw [hiff ha hb] at hab
    exact ⟨fun h => ⟨h, (habove h).2, .inl hab⟩, fun h => h.1⟩
  · rw [hiff hb ha] at hba
    exact ⟨fun h => ⟨(habove h).1, h, .inr (.inl hba)⟩, fun h => h.2.1⟩
  · -- neither is above the other, so the join is the union
    have hab : ¬ reg.Below a b := fun h => by cases hab.symm.trans ((hiff ha hb).2 h)
    have hba : ¬ reg.Below b a := fun h => by cases hba.symm.trans ((hiff hb ha).2 h)
    simp only [hab, hba, false_or]
    exact ⟨fun h => ⟨(habove h).1, (habove h).2, h⟩, fun h => h.2.2⟩

end Orderly

/-! ## The least upper bound -/

/-- An alias of a union. -/
def flagFile : File where
  decls := [.alias { name := "Flag", ty := .union [.int, .bool] }]

/-- The union of an alias of a union and another type is not below all that is above both. -/
theorem unionOf_not_least :
    let reg := ofFile flagFile
    let u : Ty := .union [.int, .bool, .string]
    (build flagFile).result = .ok reg ∧
      (reg.Bodies fun t => reg.expectValueType t none = .ok () ∧ t.Canonical) ∧
      reg.Orderly (.named "Flag") ∧ reg.Orderly .string ∧ reg.Orderly u ∧
      reg.isSubtype u (.named "Flag") = .ok true ∧ reg.isSubtype u .string = .ok true ∧
      reg.isSubtype u (.unionOf [.named "Flag", .string]) = .ok false := by
  intro reg u
  refine ⟨?_, ?_, ?_, ?_, ?_, ?_, ?_, ?_⟩
  all_goals decide +kernel

/-- The union of two types is above both. It is below every type that is above both and that takes
them whole, and below no other. The join of the two types after a branch is the same bound, except
that aliases do not matter where one of the types is above the other. -/
theorem unionOf_least {f : File} (hbuild : (build f).result = .ok reg)
    (hbodies : reg.Bodies fun t => reg.expectValueType t none = .ok () ∧ t.Canonical)
    {a b u : Ty} (ha : reg.Orderly a) (hb : reg.Orderly b) (hu : reg.Orderly u) :
    reg.isSubtype (.unionOf [a, b]) a = .ok true ∧
      reg.isSubtype (.unionOf [a, b]) b = .ok true ∧
      (∃ answer, reg.isSubtype u (.unionOf [a, b]) = .ok answer) ∧
      (reg.isSubtype u (.unionOf [a, b]) = .ok true ↔
        reg.isSubtype u a = .ok true ∧ reg.isSubtype u b = .ok true ∧
          reg.TakesWhole u a ∧ reg.TakesWhole u b) ∧
      ∃ j, Env.joinTypes reg a b = .ok j ∧
        (reg.isSubtype u j = .ok true ↔
          reg.isSubtype u a = .ok true ∧ reg.isSubtype u b = .ok true ∧
            (reg.isSubtype a b = .ok true ∨ reg.isSubtype b a = .ok true ∨
              (reg.TakesWhole u a ∧ reg.TakesWhole u b))) := by
  have hwf := wellFounded_unfolds hbuild
  have hreg := orderly_bodies hbodies
  have hts : ∀ t ∈ [a, b], reg.Orderly t := by simp [ha, hb]
  have horderly : reg.Orderly (.unionOf [a, b]) := orderly_unionOf (List.cons_ne_nil _ _) hts
  have hiff : ∀ {s t}, reg.Orderly s → reg.Orderly t →
      (reg.isSubtype s t = .ok true ↔ reg.Below s t) := isSubtype_iff_below_of_orderly hreg
  have habove : ∀ t ∈ [a, b], reg.Below (.unionOf [a, b]) t :=
    fun t ht => below_unionOf hwf hreg hts ht
  have hunion : reg.Below u (.unionOf [a, b]) ↔
      reg.Below u a ∧ reg.Below u b ∧ reg.TakesWhole u a ∧ reg.TakesWhole u b := by
    rw [below_unionOf_iff_takesWhole hwf hreg (List.cons_ne_nil _ _) hu hts]
    simp only [List.forall_mem_cons, List.not_mem_nil, false_imp_iff, implies_true, and_true]
    -- the two conditions on the members change places with the one on the other type
    tauto
  rw [hiff horderly ha, hiff horderly hb, hiff hu horderly, hiff hu ha, hiff hu hb, hiff ha hb,
    hiff hb ha]
  refine ⟨habove a (by simp), habove b (by simp), exists_answer hreg hu horderly, hunion, ?_⟩
  obtain ⟨j, hj⟩ := Env.exists_joinTypes hreg ha hb
  obtain ⟨hj', -⟩ := Env.joinTypes_above hwf hreg ha hb hj
  refine ⟨j, hj, ?_⟩
  rw [hiff hu hj', below_joinTypes_iff hwf hreg ha hb hu hj, hunion]
  tauto

/-- A union with the alias among its members takes it whole, one with its members does not. -/
theorem unionOf_least_flag :
    let reg := ofFile flagFile
    let split : Ty := .union [.int, .bool, .string]
    let whole : Ty := .union [.named "Flag", .string]
    reg.TakesWhole whole (.named "Flag") ∧
      reg.isSubtype whole (.unionOf [.named "Flag", .string]) = .ok true ∧
      reg.isSubtype split (.named "Flag") = .ok true ∧ reg.isSubtype split .string = .ok true ∧
      ¬ reg.TakesWhole split (.named "Flag") := by
  intro reg split whole
  have hbuild : (build flagFile).result = .ok reg := by decide +kernel
  have hbodies : reg.Bodies fun t => reg.expectValueType t none = .ok () ∧ t.Canonical := by
    decide +kernel
  have hflag : reg.Orderly (.named "Flag") := by decide +kernel
  have hstring : reg.Orderly .string := by decide +kernel
  have habove : reg.isSubtype split (.named "Flag") = .ok true := by decide +kernel
  have habove' : reg.isSubtype split .string = .ok true := by decide +kernel
  -- the members one by one are above both, and the search refuses the union all the same
  have hrefused : reg.isSubtype split (.unionOf [.named "Flag", .string]) = .ok false := by
    decide +kernel
  have hwhole : reg.TakesWhole whole (.named "Flag") := by
    intro n ss ts _ hss _
    have hmembers : [.named "Flag", .string] = ss := Ty.union.inj (Except.ok.inj hss)
    exact ⟨.named "Flag", by simp [← hmembers], by decide +kernel⟩
  have hplain : ∀ u, reg.TakesWhole u .string := fun _ _ _ _ hnamed => by cases hnamed
  obtain ⟨-, -, -, hiff, -⟩ := unionOf_least hbuild hbodies hflag hstring
    (show reg.Orderly whole by decide +kernel)
  obtain ⟨-, -, -, hiff', -⟩ := unionOf_least hbuild hbodies hflag hstring
    (show reg.Orderly split by decide +kernel)
  refine ⟨hwhole, hiff.2 ⟨by decide +kernel, by decide +kernel, hwhole, hplain whole⟩, habove,
    habove', fun h => ?_⟩
  cases hrefused.symm.trans (hiff'.2 ⟨habove, habove', h, hplain split⟩)

end WhileTyping.Registry
