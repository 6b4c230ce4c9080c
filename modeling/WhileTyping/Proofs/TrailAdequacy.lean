import WhileTyping.Proofs.Below
import WhileTyping.Subtyping.Rules

/-!
# The search with a trail decides the rules

`Registry.subtype` accepts a pair that it meets again while comparing it. This module shows that the
answer is nevertheless the relation `Registry.Below` of the rules.

* **`subtype_true_cases`**: what an accepted comparison rests on: a pair on the trail, or a rule
  whose premises are accepted with the same trail or with the pair itself added to it.
* **`Backed`**: a trail each of whose pairs is an instance of a rule with premises accepted from
  there on. An accepted comparison under such a trail is in `Below` (`below_of_isSubtype`): every
  pair it ever takes for granted is one that it goes on to establish.
* **`subtype_complete`**: where every alias is declared, a comparison ends with an answer, and a
  pair in `Below` is accepted under any trail.
-/

namespace WhileTyping

/-! ## Searches through a list -/

/-- A search for `false` fails if every element answers `true`. -/
theorem allM_eq_true_iff {α : Type} {l : List α} {p : α → Except TypeError Bool} :
    l.allM p = .ok true ↔ ∀ a ∈ l, p a = .ok true := by
  induction l with
  | nil => simp [pure, Except.pure]
  | cons a l ih =>
    rw [List.allM_cons, List.forall_mem_cons, ← ih]
    cases p a with
    | error e => simp [bind, Except.bind]
    | ok b => cases b <;> simp [bind, Except.bind, pure, Except.pure]

/-- A search for `true` that succeeds has found an element. -/
theorem exists_of_anyM_eq_true {α : Type} {l : List α} {p : α → Except TypeError Bool}
    (h : l.anyM p = .ok true) : ∃ a ∈ l, p a = .ok true := by
  induction l with
  | nil => cases h
  | cons a l ih =>
    rw [List.anyM_cons] at h
    cases ha : p a with
    | error e => simp [ha, bind, Except.bind] at h
    | ok b =>
      cases b with
      | true => exact ⟨a, List.mem_cons_self .., ha⟩
      | false =>
        obtain ⟨a', hmem, ha'⟩ := ih (by simpa [ha, bind, Except.bind] using h)
        exact ⟨a', List.mem_cons_of_mem _ hmem, ha'⟩

/-- A comparison ends with an answer, and if a condition holds the answer is `true`. -/
def Answers (r : Except TypeError Bool) (Q : Prop) : Prop := ∃ b, r = .ok b ∧ (Q → b = true)

namespace Answers

theorem yes (Q : Prop) : Answers (.ok true) Q := ⟨true, rfl, fun _ => rfl⟩

theorem no {Q : Prop} (h : ¬ Q) : Answers (.ok false) Q := ⟨false, rfl, fun hQ => absurd hQ h⟩

/-- An answer to a question is one to any that implies it. -/
theorem imp {r : Except TypeError Bool} {Q R : Prop} (h : Answers r Q) (hRQ : R → Q) :
    Answers r R := by
  obtain ⟨b, hb, htrue⟩ := h
  exact ⟨b, hb, fun hR => htrue (hRQ hR)⟩

/-- A search through several answers is an answer to whether one is `true`. -/
theorem any {α : Type} {l : List α} {p : α → Except TypeError Bool} {Q : α → Prop}
    (h : ∀ a ∈ l, Answers (p a) (Q a)) : Answers (l.anyM p) (∃ a ∈ l, Q a) := by
  induction l with
  | nil => exact no (by simp)
  | cons a l ih =>
    obtain ⟨b, hb, htrue⟩ := h a (List.mem_cons_self ..)
    rw [List.anyM_cons, hb]
    cases b with
    | true => exact yes _
    | false =>
      refine (ih fun a' ha' => h a' (List.mem_cons_of_mem _ ha')).imp ?_
      rintro ⟨a', ha', hQ⟩
      rcases List.mem_cons.1 ha' with rfl | ha'
      · cases htrue hQ
      · exact ⟨a', ha', hQ⟩

/-- The same for whether all are. -/
theorem all {α : Type} {l : List α} {p : α → Except TypeError Bool} {Q : α → Prop}
    (h : ∀ a ∈ l, Answers (p a) (Q a)) : Answers (l.allM p) (∀ a ∈ l, Q a) := by
  induction l with
  | nil => exact yes _
  | cons a l ih =>
    obtain ⟨b, hb, htrue⟩ := h a (List.mem_cons_self ..)
    rw [List.allM_cons, hb]
    cases b with
    | false =>
      refine no fun hall => ?_
      cases htrue (hall a (List.mem_cons_self ..))
    | true =>
      exact (ih fun a' ha' => h a' (List.mem_cons_of_mem _ ha')).imp
        fun hall a' ha' => hall a' (List.mem_cons_of_mem _ ha')

end Answers

namespace Registry

variable {reg : Registry}

/-! ## Soundness -/

/-- What an accepted comparison rests on. Expanding an alias adds the pair to the trail, and no
other rule changes the trail. -/
theorem subtype_true_cases {sup sub : Ty} {trail : Trail}
    (h : reg.subtype sup sub trail = .ok true) :
    (∃ p ∈ trail, p.1.same sup = true ∧ p.2.same sub = true) ∨
      Rule reg (fun s t => reg.subtype s t trail = .ok true) sup sub ∨
      Rule reg (fun s t => reg.subtype s t ((sup, sub) :: trail) = .ok true) sup sub := by
  induction sup, sub, trail using subtype.induct reg with
  | case1 sup trail => exact .inr (.inl (.void _))
  | case2 | case3 | case4 | case5 => exact .inr (.inl (.primitive rfl))
  | case6 trail s t =>
    rw [subtype_array] at h
    exact .inr (.inl (.array h))
  -- too few fields to be below
  | case7 trail fs gs hlt =>
    rw [subtype_record, if_pos hlt] at h
    cases h
  | case8 trail fs gs hlt =>
    rw [subtype_record, if_neg hlt, allM_eq_true_iff] at h
    refine .inr (.inl (.record (Nat.le_of_not_lt hlt) fun p hp => ?_))
    have hfield := h p hp
    split at hfield
    · rename_i hname
      exact ⟨hname, hfield⟩
    · cases hfield
  | case9 trail m => exact .inr (.inl (.aliasSelf m))
  -- an alias that is not declared is no answer
  | case10 trail m sub hvoid hself hbody =>
    rw [subtype_named_left reg trail hvoid hself, hbody] at h
    cases h
  | case11 trail m sub hvoid hself body hbody hseen =>
    -- met before
    simp only [List.any_eq_true, Bool.and_eq_true] at hseen
    exact .inl hseen
  | case12 trail m sub hvoid hself body hbody hnew =>
    -- the body is compared with the pair itself on the trail
    rw [subtype_named_left reg trail hvoid hself, hbody] at h
    simp only [if_neg hnew] at h
    exact .inr (.inr (.aliasAbove hvoid hself hbody h))
  | case13 trail sup n hnamed hbody =>
    rw [subtype_named_right reg n trail hnamed, hbody] at h
    cases h
  | case14 trail sup n hnamed body hbody hseen =>
    simp only [List.any_eq_true, Bool.and_eq_true] at hseen
    exact .inl hseen
  | case15 trail sup n hnamed body hbody hnew =>
    rw [subtype_named_right reg n trail hnamed, hbody] at h
    simp only [if_neg hnew] at h
    exact .inr (.inr (.aliasBelow hnamed hbody h))
  | case16 trail ss ts =>
    rw [subtype_union_union, allM_eq_true_iff] at h
    exact .inr (.inl (.unions fun t ht => exists_of_anyM_eq_true (h t ht)))
  | case17 trail ss sub hvoid hnamed hunion =>
    rw [subtype_union_left reg ss trail hvoid hnamed hunion] at h
    obtain ⟨s, hs, hst⟩ := exists_of_anyM_eq_true h
    exact .inr (.inl (.unionAbove hvoid hnamed hunion hs hst))
  | case18 trail sup ts hnamed hunion =>
    rw [subtype_union_right reg ts trail hnamed hunion, allM_eq_true_iff] at h
    exact .inr (.inl (.unionBelow hnamed hunion h))
  | case19 sup sub trail =>
    rw [subtype] at h
    · cases h
    all_goals assumption

/-- A trail each of whose pairs is allowed by a rule whose premises are accepted once the pair is on
the trail. -/
inductive Backed (reg : Registry) : Trail → Prop
  | nil : Backed reg []
  | push {trail : Trail} {sup sub : Ty} (hsup : sup.NoRepeats) (hsub : sub.NoRepeats)
      (hrule : Rule reg (fun s t => reg.subtype s t ((sup, sub) :: trail) = .ok true) sup sub)
      (htrail : Backed reg trail) : Backed reg ((sup, sub) :: trail)

/-- Accepted under a trail that is backed. -/
def Granted (reg : Registry) (sup sub : Ty) : Prop :=
  sup.NoRepeats ∧ sub.NoRepeats ∧ ∃ trail, Backed reg trail ∧ reg.subtype sup sub trail = .ok true

/-- The premises of a rule that are accepted under a backed trail are granted. -/
theorem rule_granted (hreg : reg.Bodies Ty.NoRepeats) {sup sub : Ty} {trail : Trail}
    (hsup : sup.NoRepeats) (hsub : sub.NoRepeats) (htrail : Backed reg trail)
    (h : Rule reg (fun s t => reg.subtype s t trail = .ok true) sup sub) :
    Rule reg reg.Granted sup sub :=
  (h.everywhere hreg hsup hsub).mono fun _ _ ⟨hst, hs, ht⟩ => ⟨hs, ht, trail, htrail, hst⟩

/-- Every pair on a backed trail is allowed by a rule with granted premises. -/
theorem Backed.rule (hreg : reg.Bodies Ty.NoRepeats) {trail : Trail} (htrail : Backed reg trail) :
    ∀ p ∈ trail, p.1.NoRepeats ∧ p.2.NoRepeats ∧ Rule reg reg.Granted p.1 p.2 := by
  induction htrail with
  | nil =>
    intro p hp
    cases hp
  | push hsup hsub hrule htrail ih =>
    intro p hp
    rcases List.mem_cons.1 hp with rfl | hp
    · exact ⟨hsup, hsub, rule_granted hreg hsup hsub (.push hsup hsub hrule htrail) hrule⟩
    · exact ih p hp

/-- A granted pair is the same as one that a rule allows: itself, or the pair on the trail that it
was taken for. -/
theorem Granted.step (hreg : reg.Bodies Ty.NoRepeats) {sup sub : Ty} (h : reg.Granted sup sub) :
    ∃ s₀ t₀, s₀.NoRepeats ∧ t₀.NoRepeats ∧ s₀.same sup = true ∧ t₀.same sub = true ∧
      Rule reg reg.Granted s₀ t₀ := by
  obtain ⟨hsup, hsub, trail, htrail, h⟩ := h
  rcases subtype_true_cases h with ⟨p, hp, hs, ht⟩ | hrule | hrule
  -- a pair taken for granted: the trail knows a rule for it
  · obtain ⟨hs₀, ht₀, hrule⟩ := htrail.rule hreg p hp
    exact ⟨p.1, p.2, hs₀, ht₀, hs, ht, hrule⟩
  · exact ⟨sup, sub, hsup, hsub, sup.same_refl, sub.same_refl,
      rule_granted hreg hsup hsub htrail hrule⟩
  -- an alias was expanded: the longer trail is backed by this very rule
  · exact ⟨sup, sub, hsup, hsub, sup.same_refl, sub.same_refl,
      rule_granted hreg hsup hsub (.push hsup hsub hrule htrail) hrule⟩

/-- What the search affirms holds. The relation of what has been granted obeys the rules. -/
theorem below_of_isSubtype (hreg : reg.Bodies Ty.NoRepeats) {sup sub : Ty} (hsup : sup.NoRepeats)
    (hsub : sub.NoRepeats) (h : reg.isSubtype sup sub = .ok true) : reg.Below sup sub :=
  below_coinduct_same (X := reg.Granted) hreg (fun _ _ h => ⟨h.1, h.2.1⟩) (fun _ _ h => h.step hreg)
    ⟨hsup, hsub, [], .nil, h⟩

/-! ## Completeness -/

/-- Where every alias is declared, a comparison ends with an answer, and a pair that the rules
relate is accepted. Induction on the search: a pair on the trail is accepted at once, and otherwise
the rules leave no other way to relate the two types than the one the search takes. -/
theorem subtype_complete (hreg : reg.Bodies reg.Covers) {sup sub : Ty} (trail : Trail)
    (hsup : reg.Covers sup) (hsub : reg.Covers sub) :
    Answers (reg.subtype sup sub trail) (reg.Below sup sub) := by
  induction sup, sub, trail using subtype.induct reg with
  | case1 sup trail =>
    rw [subtype_void]
    exact .yes _
  | case2 trail | case3 trail | case4 trail | case5 trail =>
    rw [reg.subtype_primitive rfl]
    exact .yes _
  | case6 trail s t ih =>
    rw [subtype_array]
    exact (ih hsup.element hsub.element).imp fun h => Rule.array_iff.1 h.rule
  | case7 trail fs gs hlt =>
    rw [subtype_record, if_pos hlt]
    exact .no fun h => Nat.not_le_of_lt hlt (Rule.record_iff.1 h.rule).1
  | case8 trail fs gs hlt ih =>
    rw [subtype_record, if_neg hlt]
    refine (Answers.all fun p hp => ?_).imp fun h => (Rule.record_iff.1 h.rule).2
    split
    · have hf := hsup.field (List.of_mem_zip hp).1
      have hg := hsub.field (List.of_mem_zip hp).2
      exact (ih p hp hf hg).imp And.right
    · rename_i hname
      exact .no fun h => hname h.1
  | case9 trail m =>
    rw [subtype_named_self]
    exact .yes _
  | case10 trail m sub hvoid hself hbody =>
    -- the search would fail here, but every alias is declared
    obtain ⟨body, hbody'⟩ := hsup.alias?
    rw [hbody] at hbody'
    cases hbody'
  -- a pair that was met before is granted, which is on the safe side for completeness
  | case11 trail m sub hvoid hself body hbody hseen =>
    rw [subtype_named_left reg trail hvoid hself, hbody]
    simp only [if_pos hseen]
    exact .yes _
  -- the relation unfolds an alias by the same rule as the search, and knows of no trail
  | case12 trail m sub hvoid hself body hbody hnew ih =>
    rw [subtype_named_left reg trail hvoid hself, hbody]
    simp only [if_neg hnew]
    exact (ih (hreg.of_alias? hbody) hsub).imp
      fun h => (Rule.aliasAbove_iff hvoid hself hbody).1 h.rule
  | case13 trail sup n hnamed hbody =>
    obtain ⟨body, hbody'⟩ := hsub.alias?
    rw [hbody] at hbody'
    cases hbody'
  | case14 trail sup n hnamed body hbody hseen =>
    rw [subtype_named_right reg n trail hnamed, hbody]
    simp only [if_pos hseen]
    exact .yes _
  | case15 trail sup n hnamed body hbody hnew ih =>
    rw [subtype_named_right reg n trail hnamed, hbody]
    simp only [if_neg hnew]
    exact (ih hsup (hreg.of_alias? hbody)).imp fun h => (Rule.aliasBelow_iff hnamed hbody).1 h.rule
  | case16 trail ss ts ih =>
    rw [subtype_union_union]
    refine (Answers.all fun t ht => Answers.any fun s hs => ?_).imp
      fun h => Rule.unions_iff.1 h.rule
    exact ih t ht s hs (hsup.member hs) (hsub.member ht)
  | case17 trail ss sub hvoid hnamed hunion ih =>
    rw [subtype_union_left reg ss trail hvoid hnamed hunion]
    refine (Answers.any fun s hs => ?_).imp
      fun h => (Rule.unionAbove_iff hvoid hnamed hunion).1 h.rule
    exact ih s hs (hsup.member hs) hsub
  | case18 trail sup ts hnamed hunion ih =>
    rw [subtype_union_right reg ts trail hnamed hunion]
    refine (Answers.all fun t ht => ?_).imp fun h => (Rule.unionBelow_iff hnamed hunion).1 h.rule
    exact ih t ht hsup (hsub.member ht)
  | case19 sup sub trail hnamed hunion hvoid hnamed' hunion' hbool hchar hint hstring harray
      hrecord =>
    rw [subtype]
    -- shapes that the search refuses, and no rule relates
    · refine .no fun h => ?_
      cases h.rule with
      | void => exact hvoid rfl
      | primitive hprim => cases sup <;> simp_all [Ty.isPrimitive]
      | array => exact harray _ _ rfl rfl
      | record => exact hrecord _ _ rfl rfl
      | aliasSelf | aliasAbove => exact hnamed _ rfl
      | aliasBelow => exact hnamed' _ rfl
      | unions | unionAbove => exact hunion _ rfl
      | unionBelow => exact hunion' _ rfl
    all_goals assumption

/-! ## Adequacy -/

/-- The search decides the relation, if names are declared and members differ. -/
theorem isSubtype_iff_below (hreg : reg.Bodies fun t => reg.Covers t ∧ t.NoRepeats) {sup sub : Ty}
    (hsup : reg.Covers sup ∧ sup.NoRepeats) (hsub : reg.Covers sub ∧ sub.NoRepeats) :
    reg.isSubtype sup sub = .ok true ↔ reg.Below sup sub := by
  constructor
  · exact below_of_isSubtype (fun a ha => (hreg a ha).2) hsup.2 hsub.2
  · intro h
    obtain ⟨b, hb, htrue⟩ := subtype_complete (fun a ha => (hreg a ha).1) [] hsup.1 hsub.1
    exact htrue h ▸ hb

/-- Where every alias is declared and no union repeats a member, the search ends with an answer, and
it accepts exactly the pairs of the largest relation that the rules support. -/
theorem isSubtype_adequate (hreg : reg.Bodies fun t => reg.Covers t ∧ t.NoRepeats) {sup sub : Ty}
    (hsup : reg.Covers sup ∧ sup.NoRepeats) (hsub : reg.Covers sub ∧ sub.NoRepeats) :
    (∃ b, reg.isSubtype sup sub = .ok b) ∧
      (reg.isSubtype sup sub = .ok true ↔ reg.Below sup sub) ∧
      IsGreatest {X | reg.Supported X} reg.Below := by
  refine ⟨?_, isSubtype_iff_below hreg hsup hsub, reg.below_isGreatest⟩
  obtain ⟨b, hb, -⟩ := subtype_complete (fun a ha => (hreg a ha).1) [] hsup.1 hsub.1
  exact ⟨b, hb⟩

/-- Two recursive aliases with bodies of the same shape. The pairs listed support each other. -/
theorem isSubtype_adequate_recursive :
    let body (n : String) : Ty := .record [⟨"item", .int⟩, ⟨"rest", .union [.named n, .bool]⟩]
    let reg : Registry := { aliases := [("Stack", body "Stack"), ("Queue", body "Queue")] }
    reg.isSubtype (.named "Stack") (.named "Queue") = .ok true := by
  intro body reg
  have hreg : reg.Bodies fun t => reg.Covers t ∧ t.NoRepeats := by decide +kernel
  have hstack : reg.Covers (.named "Stack") ∧ (Ty.named "Stack").NoRepeats := by decide +kernel
  have hqueue : reg.Covers (.named "Queue") ∧ (Ty.named "Queue").NoRepeats := by decide +kernel
  refine (isSubtype_adequate hreg hstack hqueue).2.1.2 ?_
  -- six pairs that support each other by the rules
  refine ⟨fun s t => (s, t) ∈ [(Ty.named "Stack", Ty.named "Queue"), (body "Stack", .named "Queue"),
    (body "Stack", body "Queue"), (.int, .int), (.bool, .bool),
    (.union [.named "Stack", .bool], .union [.named "Queue", .bool])], ?_, by simp⟩
  intro s t hst
  simp only [List.mem_cons, Prod.mk.injEq, List.not_mem_nil, or_false] at hst
  rcases hst with ⟨rfl, rfl⟩ | ⟨rfl, rfl⟩ | ⟨rfl, rfl⟩ | ⟨rfl, rfl⟩ | ⟨rfl, rfl⟩ | ⟨rfl, rfl⟩
  · exact .aliasAbove (by simp) (by simp) (show reg.alias? _ = some (body "Stack") from rfl)
      (by simp)
  · exact .aliasBelow (by simp [body]) (show reg.alias? _ = some (body "Queue") from rfl) (by simp)
  · exact .record (by simp) (by simp)
  · exact .primitive rfl
  · exact .primitive rfl
  · exact .unions (by simp)

end Registry

end WhileTyping
