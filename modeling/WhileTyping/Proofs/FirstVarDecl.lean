import WhileTyping.Proofs.RepeatedCheck

/-!
# The first `var` declaration

Before the first `var` declaration of a method body, all variables have fixed types. So the second
check of a body that has passed its check goes through the same environments up to that declaration,
and stops there: the first check has resolved its cell.

* **`Env.Firm`**: all variables have fixed types, none of them with a fault.
* **`Stmt.check_firm`**: it stays so as long as there is no `var` declaration.
* **`Stmt.check_stops`**: the second check of a statement stops at its first `var` declaration and
  leaves the statement as it was. The induction follows the order of checking.
-/

namespace WhileTyping

open Visit

/-! ## Variables of fixed types -/

namespace Env

variable {reg : Registry} {env : Env}

/-- No variable is a `var` variable, and all have types without a fault. -/
def Firm (reg : Registry) (env : Env) : Prop :=
  ∀ x b, env.find? x = some b → b.declared ≠ .inferred ∧ reg.Faultless b.current

/-- Every type that a variable holds is faultless. -/
theorem Firm.all (henv : env.Firm reg) : env.All reg.Faultless := by
  intro x t ht
  obtain ⟨b, hb, rfl⟩ := Option.map_eq_some_iff.1 ht
  exact (henv x b hb).2

/-- A declared variable keeps its type. -/
theorem Firm.put (henv : env.Firm reg) (x : String) {t : Ty} (ht : reg.Faultless t) :
    (env.put x t).Firm reg := by
  intro y b hb
  by_cases hy : y = x
  · subst hy
    rw [find?_put_self] at hb
    cases hb
    refine ⟨?_, ht⟩
    rintro rfl
    cases ht
  · rw [find?_put_of_ne env t hy] at hb
    exact henv y b hb

/-- Merging leaves declared variables with their types, and drops none. -/
theorem Firm.merge {left right merged : Env} (henv : env.Firm reg)
    (h : (env.merge reg left right).Ends merged ()) : merged.Firm reg := by
  intro x b hb
  rcases find?_merge h x with ⟨-, hnone⟩ | ⟨b₀, b', hb₀, hb', hmerge⟩
  · rw [hnone] at hb
    cases hb
  · rw [hb'] at hb
    cases hb
    rcases mergeBinding_cases hmerge with ⟨rfl, -⟩ | ⟨hinferred, -⟩
    · exact henv x _ hb₀
    · exact absurd hinferred (henv x b₀ hb₀).1

/-- An assignment changes the type of a `var` variable only. -/
theorem Firm.store_eq {ctx : Context} {env' : Env} {target : Expr} {targetTy valueTy : Ty}
    {span : Option Span} (henv : env.Firm reg)
    (h : (target.store ctx env targetTy valueTy span).Ends env' ()) : env' = env := by
  rcases Expr.store_ends h with ⟨x, b, -, hb, hinferred, -⟩ | ⟨rfl, -⟩
  · exact absurd hinferred (henv x b hb).1
  · rfl

end Env

section Firm

variable {ctx : Context}

mutual
/-- A statement without `var` declarations that passes its check binds variables of fixed types. -/
theorem Stmt.check_firm : ∀ (s : Stmt) {env env' : Env} {s' : Stmt}, Stmt.VarFree s.nodes →
    env.Firm ctx.registry → (s.check ctx env).Ends (env', s') () → env'.Firm ctx.registry
  | ⟨form, span⟩, env, env', s', hfree, henv, h => by
    rw [Stmt.nodes] at hfree
    obtain ⟨hself, hfree⟩ := List.forall_mem_cons.1 hfree
    obtain ⟨form', hform, -⟩ := Stmt.check_ends h
    exact StmtForm.check_firm form hself hfree henv hform

/-- By cases on the statement. Only a `var` declaration brings in a variable without a written
type. -/
theorem StmtForm.check_firm : ∀ (form : StmtForm) {span : Option Span} {env : Env}
    {left : Env × StmtForm}, Stmt.isVarDecl ⟨form, span⟩ = false →
      Stmt.VarFree (Stmt.nodesForm form) → env.Firm ctx.registry →
        (form.check ctx env span).Ends left () → left.1.Firm ctx.registry
  | .assert e, span, env, left, hself, hfree, henv, h => by
    obtain ⟨e', -, rfl⟩ := StmtForm.assert_ends h
    exact henv
  | .assign target value, span, env, left, hself, hfree, henv, h => by
    obtain ⟨target', lt, value', rt, env', -, -, hstore, rfl⟩ := StmtForm.assign_ends h
    -- no variable is `var`, so an assignment changes nothing
    exact henv.store_eq hstore ▸ henv
  | .breakLoop, span, env, left, hself, hfree, henv, h
  | .continueLoop, span, env, left, hself, hfree, henv, h => by
    obtain ⟨rfl, -⟩ := Visit.ends_mk.1 h
    exact henv
  | .forLoop d condition step body, span, env, left, hself, hfree, henv, h => by
    obtain ⟨d', condition', env₁, step', inner, -, -, -, -, -, rfl⟩ := StmtForm.forLoop_ends h
    exact henv
  | .ifElse condition onTrue onFalse, span, env, left, hself, hfree, henv, h => by
    obtain ⟨condition', l, r, merged, -, -, -, hmerged, rfl⟩ := StmtForm.ifElse_ends h
    exact henv.merge hmerged
  | .call method args, span, env, left, hself, hfree, henv, h => by
    obtain ⟨sig, args', -, -, -, rfl⟩ := StmtForm.call_ends h
    exact henv
  | .print e, span, env, left, hself, hfree, henv, h => by
    obtain ⟨e', t, -, rfl⟩ := StmtForm.print_ends h
    exact henv
  | .ret none, span, env, left, hself, hfree, henv, h => by
    obtain ⟨-, rfl⟩ := StmtForm.retVoid_ends h
    exact henv
  | .ret (some e), span, env, left, hself, hfree, henv, h => by
    obtain ⟨e', t, -, -, rfl⟩ := StmtForm.ret_ends h
    exact henv
  | .switchOn selector cases, span, env, left, hself, hfree, henv, h => by
    obtain ⟨selector', t, env₁, cases', -, hcs, rfl⟩ := StmtForm.switchOn_ends h
    exact SwitchCase.checkAll_firm cases hfree henv hcs
  | .matchType selector cases, span, env, left, hself, hfree, henv, h => by
    obtain ⟨selector', t, cases', -, -, rfl⟩ := StmtForm.matchType_ends h
    exact henv
  | .declare d, span, env, left, hself, hfree, henv, h => by
    obtain ⟨d', hd, rfl⟩ := StmtForm.declare_ends h
    obtain ⟨-, hty, hinit⟩ := VarDecl.check_ends hd
    have hty := Registry.faultless_of_expectValueType hty
    rcases hinit with ⟨-, rfl⟩ | ⟨e, e', t, -, -, -, rfl⟩
    all_goals exact henv.put _ hty
  -- the one statement that would bind a `var` variable is excluded
  | .infer x cell init, span, env, left, hself, hfree, henv, h => by cases hself
  | .whileLoop condition body, span, env, left, hself, hfree, henv, h => by
    obtain ⟨condition', env₁, body', -, hbody, rfl⟩ := StmtForm.whileLoop_ends h
    exact Stmt.checkAll_firm body hfree henv hbody

theorem Stmt.checkAll_firm : ∀ (ss : List Stmt) {env env' : Env} {ss' : List Stmt},
    Stmt.VarFree (Stmt.nodesAll ss) → env.Firm ctx.registry →
      (Stmt.checkAll ctx env ss).Ends (env', ss') () → env'.Firm ctx.registry
  | [], env, env', ss', hfree, henv, h => by
    cases h.1
    exact henv
  | s :: ss, env, env', ss', hfree, henv, h => by
    rw [Stmt.nodesAll, Stmt.varFree_append] at hfree
    obtain ⟨env₁, s', env₂, rest, hs, hrest, hleft⟩ := Stmt.cons_ends h
    cases hleft
    have henv₁ := Stmt.check_firm s hfree.1 henv hs
    exact Stmt.checkAll_firm ss hfree.2 henv₁ hrest

/-- The cases of a `switch` go on from each other. -/
theorem SwitchCase.checkAll_firm : ∀ (cs : List SwitchCase) {selector : Ty} {env env' : Env}
    {cs' : List SwitchCase}, Stmt.VarFree (Stmt.nodesSwitch cs) → env.Firm ctx.registry →
      (SwitchCase.checkAll ctx selector env cs).Ends (env', cs') () → env'.Firm ctx.registry
  | [], selector, env, env', cs', hfree, henv, h => by
    cases h.1
    exact henv
  | ⟨value, body⟩ :: cs, selector, env, env', cs', hfree, henv, h => by
    rw [Stmt.nodesSwitch, Stmt.varFree_append] at hfree
    obtain ⟨value', env₁, body', env₂, rest, -, hbody, hrest, hleft⟩ := SwitchCase.cons_ends h
    cases hleft
    have henv₁ := Stmt.checkAll_firm body hfree.1 henv hbody
    exact SwitchCase.checkAll_firm cs hfree.2 henv₁ hrest
end

end Firm

/-! ## The first `var` declaration -/

/-- Statements without a `var` declaration have no first one. -/
theorem Stmt.varFree_iff {nodes : List Stmt} :
    Stmt.VarFree nodes ↔ nodes.find? Stmt.isVarDecl = none := by
  simp [Stmt.VarFree]

/-- The value of a case that has passed its check passes it again, and the body is next. -/
theorem SwitchCase.outcome_of_value {ctx : Context} {env : Env} {selector : Ty}
    {value value' : Option Expr} {body : List Stmt} {cs : List SwitchCase}
    (hvalue : (value = none ∧ value' = none) ∨
      ∃ e e' t, value = some e ∧ value' = some e' ∧ (e.synth ctx.registry env).Ends e' t ∧
        ctx.registry.expectSubtype selector t e'.span = .ok ()) :
    (SwitchCase.checkAll ctx selector env (⟨value', body⟩ :: cs)).outcome =
      ((Stmt.checkAll ctx env body).andThen (fun left => (left.1, ⟨value', left.2⟩ :: cs))
        fun left () => (SwitchCase.checkAll ctx selector left.1 cs).within
          fun rest => (rest.1, ⟨value', left.2⟩ :: rest.2)).outcome := by
  rcases hvalue with ⟨-, rfl⟩ | ⟨e, e', t, -, rfl, he, hsub⟩
  · rw [SwitchCase.checkAll]
  · have he := Expr.synth_again e _ _ (outcome_eq_ok.2 he)
    rw [SwitchCase.checkAll, outcome_andThen_of_ok _ _ he]
    exact outcome_after_of_ok _ _ hsub

section Stops

variable {ctx : Context} {v : Stmt} {x : String} {cell : Ty} {init : Expr}

/-- The cell of a `var` declaration has been filled by the first check. -/
theorem StmtForm.infer_stops (hP : ctx.registry.Hereditary ctx.registry.Faultless)
    {span : Option Span} {env : Env} {left : Env × StmtForm}
    (henv : env.Firm ctx.registry) (hblank : Blank init.slots)
    (h : ((StmtForm.infer x cell init).check ctx env span).Ends left ()) :
    (left.2.check ctx env span).outcome = ((env, left.2), .error ⟨.cellResolved x, span⟩) := by
  obtain ⟨init', t, hnew, hinit, rfl⟩ := StmtForm.infer_ends h
  obtain ⟨ht, hfilled⟩ := Expr.synth_filled hP henv.all init hblank hinit
  have ht : ctx.registry.Faultless t := Expr.of_filled ht hfilled
  -- an open cell is no type that passes a check, so the cell holds another type now
  have hresolved : ¬ t.isInferred = true := by
    intro hinferred
    rw [Env.isInferred_iff.1 hinferred] at ht
    cases ht
  have hinit := Expr.synth_again init _ _ (outcome_eq_ok.2 hinit)
  rw [StmtForm.check, if_neg (by simp [hnew]), outcome_andThen_of_ok _ _ hinit, if_neg hresolved]
  rfl

mutual
/-- A statement with a `var` declaration in it stops at the first when it is checked again, and is
left as it was. -/
theorem Stmt.check_stops (hP : ctx.registry.Hereditary ctx.registry.Faultless)
    (hv : v.form = .infer x cell init) :
    ∀ (s : Stmt) {env env' : Env} {s' : Stmt}, env.Firm ctx.registry →
    (∀ slot ∈ s.slots, slot.Empty) → s.nodes.find? Stmt.isVarDecl = some v →
      (s.check ctx env).Ends (env', s') () →
        ∃ env₁, (s'.check ctx env).outcome = ((env₁, s'), .error ⟨.cellResolved x, v.span⟩)
  | ⟨form, span⟩, env, env', s', henv, hempty, hfind, h => by
    rw [Stmt.nodes, List.find?_cons] at hfind
    obtain ⟨form', hform, rfl⟩ := Stmt.check_ends h
    cases hself : Stmt.isVarDecl ⟨form, span⟩ with
    -- the statement itself is the first `var` declaration
    | true =>
      rw [hself] at hfind
      cases hfind
      cases hv
      rw [Stmt.slots, Stmt.slotsForm, List.forall_mem_cons, Stmt.empty_exprSlots] at hempty
      have hstop := StmtForm.infer_stops hP henv hempty.2 hform
      exact ⟨env, outcome_within_eq.2 ⟨_, hstop, rfl⟩⟩
    -- the first one is inside the statement
    | false =>
      rw [hself] at hfind
      obtain ⟨env₁, hstop⟩ := StmtForm.check_stops hP hv form henv hempty hfind hform
      exact ⟨env₁, outcome_within_eq.2 ⟨_, hstop, rfl⟩⟩

/-- By cases on where the first one is. What comes before it is checked as it was the first time. -/
theorem StmtForm.check_stops (hP : ctx.registry.Hereditary ctx.registry.Faultless)
    (hv : v.form = .infer x cell init) : ∀ (form : StmtForm) {span : Option Span} {env : Env}
    {left : Env × StmtForm}, env.Firm ctx.registry → (∀ slot ∈ Stmt.slotsForm form, slot.Empty) →
      (Stmt.nodesForm form).find? Stmt.isVarDecl = some v →
        (form.check ctx env span).Ends left () →
          ∃ env₁, (left.2.check ctx env span).outcome =
            ((env₁, left.2), .error ⟨.cellResolved x, v.span⟩)
  | .forLoop d condition step body, span, env, left, henv, hempty, hfind, h => by
    simp only [Stmt.slotsForm, List.forall_mem_append] at hempty
    obtain ⟨⟨-, hstep⟩, hbody⟩ := hempty
    rw [Stmt.nodesForm, List.find?_append, Option.or_eq_some_iff] at hfind
    obtain ⟨d', condition', env₁, step', inner, hd, hkept, hcond, hs, hb, rfl⟩ :=
      StmtForm.forLoop_ends h
    have hty := Registry.faultless_of_expectValueType (VarDecl.check_ends hd).2.1
    have hput := henv.put d.name hty
    have hd := VarDecl.check_again (outcome_eq_ok.2 hd)
    have hcond := Expr.checkCondition_again (outcome_eq_ok.2 hcond)
    rw [← hkept.1, ← hkept.2] at hput hcond hs
    refine ⟨env, ?_⟩
    rcases hfind with hfind | ⟨hnone, hfind⟩
    · obtain ⟨env₂, hstop⟩ := Stmt.check_stops hP hv step hput hstep hfind hs
      rw [StmtForm.check, outcome_andThen_of_ok _ _ hd, outcome_andThen_of_ok _ _ hcond,
        outcome_andThen_of_error _ _ hstop]
    -- the step is checked as before, and the body from the same environment
    · have hfree := Stmt.varFree_iff.2 hnone
      have henv₁ := Stmt.check_firm step hfree hput hs
      have hs := Stmt.check_again step hfree (outcome_eq_ok.2 hs)
      obtain ⟨env₂, hstop⟩ := Stmt.checkAll_stops hP hv body henv₁ hbody hfind hb
      rw [StmtForm.check, outcome_andThen_of_ok _ _ hd, outcome_andThen_of_ok _ _ hcond,
        outcome_andThen_of_ok _ _ hs]
      exact outcome_within_eq.2 ⟨_, hstop, rfl⟩
  | .ifElse condition onTrue onFalse, span, env, left, henv, hempty, hfind, h => by
    simp only [Stmt.slotsForm, List.forall_mem_append] at hempty
    obtain ⟨⟨-, htrue⟩, hfalse⟩ := hempty
    rw [Stmt.nodesForm, List.find?_append, Option.or_eq_some_iff] at hfind
    obtain ⟨condition', l, r, merged, hcond, hl, hr, -, rfl⟩ := StmtForm.ifElse_ends h
    have hcond := Expr.checkCondition_again (outcome_eq_ok.2 hcond)
    refine ⟨env, ?_⟩
    rcases hfind with hfind | ⟨hnone, hfind⟩
    · obtain ⟨env₁, hstop⟩ := Stmt.checkAll_stops hP hv onTrue henv htrue hfind hl
      rw [StmtForm.check, outcome_andThen_of_ok _ _ hcond, outcome_andThen_of_error _ _ hstop]
    · have hl := Stmt.checkAll_again onTrue (Stmt.varFree_iff.2 hnone) (outcome_eq_ok.2 hl)
      obtain ⟨env₁, hstop⟩ := Stmt.checkAll_stops hP hv onFalse henv hfalse hfind hr
      rw [StmtForm.check, outcome_andThen_of_ok _ _ hcond, outcome_andThen_of_ok _ _ hl,
        outcome_andThen_of_error _ _ hstop]
  | .switchOn selector cases, span, env, left, henv, hempty, hfind, h => by
    rw [Stmt.slotsForm, List.forall_mem_append] at hempty
    obtain ⟨selector', t, env₁, cases', hsel, hcs, rfl⟩ := StmtForm.switchOn_ends h
    obtain ⟨env₂, hstop⟩ := SwitchCase.checkAll_stops hP hv cases henv hempty.2 hfind hcs
    have hsel := Expr.synth_again selector _ _ (outcome_eq_ok.2 hsel)
    refine ⟨env₂, ?_⟩
    rw [StmtForm.check, outcome_andThen_of_ok _ _ hsel]
    exact outcome_within_eq.2 ⟨_, hstop, rfl⟩
  | .matchType selector cases, span, env, left, henv, hempty, hfind, h => by
    rw [Stmt.slotsForm, List.forall_mem_append] at hempty
    obtain ⟨selector', t, cases', hsel, hcs, rfl⟩ := StmtForm.matchType_ends h
    have hstop := MatchCase.checkAll_stops hP hv cases henv hempty.2 hfind hcs
    have hsel := Expr.synth_again selector _ _ (outcome_eq_ok.2 hsel)
    refine ⟨env, ?_⟩
    rw [StmtForm.check, outcome_andThen_of_ok _ _ hsel]
    exact outcome_within_eq.2 ⟨_, hstop, rfl⟩
  | .whileLoop condition body, span, env, left, henv, hempty, hfind, h => by
    rw [Stmt.slotsForm, List.forall_mem_append] at hempty
    obtain ⟨condition', env₁, body', hcond, hbody, rfl⟩ := StmtForm.whileLoop_ends h
    obtain ⟨env₂, hstop⟩ := Stmt.checkAll_stops hP hv body henv hempty.2 hfind hbody
    have hcond := Expr.checkCondition_again (outcome_eq_ok.2 hcond)
    refine ⟨env₂, ?_⟩
    rw [StmtForm.check, outcome_andThen_of_ok _ _ hcond]
    exact outcome_within_eq.2 ⟨_, hstop, rfl⟩
  -- the other forms hold no statements
  | .assert _, _, _, _, _, _, hfind, _ | .assign _ _, _, _, _, _, _, hfind, _
  | .breakLoop, _, _, _, _, _, hfind, _ | .continueLoop, _, _, _, _, _, hfind, _
  | .call _ _, _, _, _, _, _, hfind, _ | .print _, _, _, _, _, _, hfind, _
  | .ret _, _, _, _, _, _, hfind, _ | .declare _, _, _, _, _, _, hfind, _
  | .infer _ _ _, _, _, _, _, _, hfind, _ => by cases hfind

/-- The same for a block. The statements before the one that holds it leave the environment they
left the first time. -/
theorem Stmt.checkAll_stops (hP : ctx.registry.Hereditary ctx.registry.Faultless)
    (hv : v.form = .infer x cell init) : ∀ (ss : List Stmt) {env : Env} {left : Env × List Stmt},
    env.Firm ctx.registry → (∀ slot ∈ Stmt.slotsAll ss, slot.Empty) →
      (Stmt.nodesAll ss).find? Stmt.isVarDecl = some v → (Stmt.checkAll ctx env ss).Ends left () →
        ∃ env₁, (Stmt.checkAll ctx env left.2).outcome =
          ((env₁, left.2), .error ⟨.cellResolved x, v.span⟩)
  | [], env, left, henv, hempty, hfind, h => by cases hfind
  | s :: ss, env, left, henv, hempty, hfind, h => by
    rw [Stmt.slotsAll, List.forall_mem_append] at hempty
    rw [Stmt.nodesAll, List.find?_append, Option.or_eq_some_iff] at hfind
    obtain ⟨env₁, s', env₂, rest, hs, hrest, rfl⟩ := Stmt.cons_ends h
    rcases hfind with hfind | ⟨hnone, hfind⟩
    · -- in the statement itself, so the rest of the block is not come to
      obtain ⟨env₃, hstop⟩ := Stmt.check_stops hP hv s henv hempty.1 hfind hs
      refine ⟨env₃, ?_⟩
      rw [Stmt.checkAll, outcome_andThen_of_error _ _ hstop]
    · have hfree := Stmt.varFree_iff.2 hnone
      have henv₁ := Stmt.check_firm s hfree henv hs
      have hs := Stmt.check_again s hfree (outcome_eq_ok.2 hs)
      obtain ⟨env₃, hstop⟩ := Stmt.checkAll_stops hP hv ss henv₁ hempty.2 hfind hrest
      refine ⟨env₃, ?_⟩
      rw [Stmt.checkAll, outcome_andThen_of_ok _ _ hs]
      exact outcome_within_eq.2 ⟨_, hstop, rfl⟩

/-- The same for the cases of a `switch`, which hand on their environment. -/
theorem SwitchCase.checkAll_stops (hP : ctx.registry.Hereditary ctx.registry.Faultless)
    (hv : v.form = .infer x cell init) : ∀ (cs : List SwitchCase) {selector : Ty} {env : Env}
    {left : Env × List SwitchCase}, env.Firm ctx.registry →
      (∀ slot ∈ Stmt.slotsSwitch cs, slot.Empty) →
        (Stmt.nodesSwitch cs).find? Stmt.isVarDecl = some v →
          (SwitchCase.checkAll ctx selector env cs).Ends left () →
            ∃ env₁, (SwitchCase.checkAll ctx selector env left.2).outcome =
              ((env₁, left.2), .error ⟨.cellResolved x, v.span⟩)
  | [], selector, env, left, henv, hempty, hfind, h => by cases hfind
  | ⟨value, body⟩ :: cs, selector, env, left, henv, hempty, hfind, h => by
    simp only [Stmt.slotsSwitch, List.forall_mem_append] at hempty
    obtain ⟨⟨-, hbodySlots⟩, hcsSlots⟩ := hempty
    rw [Stmt.nodesSwitch, List.find?_append, Option.or_eq_some_iff] at hfind
    obtain ⟨value', env₁, body', env₂, rest, hvalue, hbody, hrest, rfl⟩ := SwitchCase.cons_ends h
    -- the value of the case holds no statements and comes to the same again
    rw [SwitchCase.outcome_of_value hvalue]
    rcases hfind with hfind | ⟨hnone, hfind⟩
    · obtain ⟨env₃, hstop⟩ := Stmt.checkAll_stops hP hv body henv hbodySlots hfind hbody
      exact ⟨env₃, outcome_andThen_of_error _ _ hstop⟩
    · -- the body is checked as before, and hands on the environment it handed on then
      have hfree := Stmt.varFree_iff.2 hnone
      have henv₁ := Stmt.checkAll_firm body hfree henv hbody
      have hbody := Stmt.checkAll_again body hfree (outcome_eq_ok.2 hbody)
      obtain ⟨env₃, hstop⟩ := SwitchCase.checkAll_stops hP hv cs henv₁ hcsSlots hfind hrest
      refine ⟨env₃, ?_⟩
      rw [outcome_andThen_of_ok _ _ hbody]
      exact outcome_within_eq.2 ⟨_, hstop, rfl⟩

/-- The same for the cases of a `match`, which do not. -/
theorem MatchCase.checkAll_stops (hP : ctx.registry.Hereditary ctx.registry.Faultless)
    (hv : v.form = .infer x cell init) :
    ∀ (cs : List MatchCase) {selector : Ty} {span : Option Span}
    {env : Env} {cs' : List MatchCase}, env.Firm ctx.registry →
      (∀ slot ∈ Stmt.slotsMatch cs, slot.Empty) →
        (Stmt.nodesMatch cs).find? Stmt.isVarDecl = some v →
          (MatchCase.checkAll ctx selector span env cs).Ends cs' () →
            (MatchCase.checkAll ctx selector span env cs').outcome =
              (cs', .error ⟨.cellResolved x, v.span⟩)
  | [], selector, span, env, cs', henv, hempty, hfind, h => by cases hfind
  | ⟨t, y, body, caseSpan⟩ :: cs, selector, span, env, cs', henv, hempty, hfind, h => by
    rw [Stmt.slotsMatch, List.forall_mem_append] at hempty
    rw [Stmt.nodesMatch, List.find?_append, Option.or_eq_some_iff] at hfind
    obtain ⟨-, -, -, ht, -⟩ := MatchCase.cons_ends h
    -- the variable of the case has a written type too
    have hput := henv.put y (Registry.faultless_of_expectValueType ht)
    simp only [MatchCase.checkAll, Visit.ends_after, Visit.ends_andThen, Visit.ends_within] at h
    obtain ⟨⟨⟩, hcase, ⟨env₁, body'⟩, ⟨⟩, hbody, rest, hrest, rfl⟩ := h
    rcases hfind with hfind | ⟨hnone, hfind⟩
    · obtain ⟨env₂, hstop⟩ := Stmt.checkAll_stops hP hv body hput hempty.1 hfind hbody
      rw [MatchCase.checkAll, outcome_after_of_ok _ _ hcase, outcome_andThen_of_error _ _ hstop]
    · have hbody := Stmt.checkAll_again body (Stmt.varFree_iff.2 hnone) (outcome_eq_ok.2 hbody)
      have hstop := MatchCase.checkAll_stops hP hv cs henv hempty.2 hfind hrest
      rw [MatchCase.checkAll, outcome_after_of_ok _ _ hcase, outcome_andThen_of_ok _ _ hbody]
      exact outcome_within_eq.2 ⟨_, hstop, rfl⟩
end

end Stops

end WhileTyping
