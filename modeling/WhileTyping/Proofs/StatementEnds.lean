import WhileTyping.Proofs.Annotations
import WhileTyping.Proofs.Scope

/-!
# Statements that pass their check

What a statement has been checked for when its check succeeds, and what is left of it: one theorem
for each form of statement. The checks of its parts appear as they are, so a proof about all
statements takes a check apart by these theorems and goes on with the parts.

* **`StmtForm.forLoop_ends`**, **`StmtForm.ifElse_ends`**, **`StmtForm.whileLoop_ends`** and so on:
  the forms of statement.
* **`Stmt.cons_ends`**, **`SwitchCase.cons_ends`**, **`MatchCase.cons_ends`**: statements in
  sequence, and the cases of a `switch` or a `match`.
* **`Expr.store_ends`**: the two ways in which an assignment stores a value.
-/

namespace WhileTyping

/-! ## Parts of statements -/

/-- A condition that passes its check has a type that expands to `bool`. -/
theorem Expr.checkCondition_ends {ctx : Context} {env : Env} {e e' : Expr}
    (h : (e.checkCondition ctx env).Ends e' ()) :
    ∃ t u, (e.synth ctx.registry env).Ends e' t ∧
      ctx.registry.expectKind t (.single .bool) e'.span = .ok u := by
  simp only [Expr.checkCondition, Visit.ends_andThen, Visit.ends_mk, Check.result_discard_eq_ok,
    Check.result_lift] at h
  obtain ⟨e₁, t, he, rfl, u, hbool⟩ := h
  exact ⟨t, u, he, hbool⟩

/-- A store that succeeds either gives a `var` variable the type of the value, or leaves the
environment as it is. -/
theorem Expr.store_ends {ctx : Context} {env env' : Env} {target : Expr} {targetTy valueTy : Ty}
    {span : Option Span} (h : (target.store ctx env targetTy valueTy span).Ends env' ()) :
    (∃ x b, target.form = .var x ∧ env.find? x = some b ∧ b.declared = .inferred ∧
        env' = env.insert x { b with current := valueTy }) ∨
      (env' = env ∧ (∀ x, target.form = .var x → env.declared? x ≠ some .inferred) ∧
        ctx.registry.expectSubtype targetTy valueTy span = .ok ()) := by
  unfold Expr.store at h
  split at h
  · rename_i x hx
    simp only [Visit.ends_andThen, Env.refine] at h
    split at h
    · rename_i b hb
      split at h
      · rename_i hinferred
        simp only [Visit.ends_mk, Check.result_bind_eq_ok, Check.result_pure] at h
        obtain ⟨_, _, ⟨rfl, _, -, htrue⟩, h⟩ := h
        cases htrue
        obtain ⟨rfl, -⟩ := h
        -- a `var` variable takes on the type, and nothing is compared
        exact .inl ⟨x, b, hx, hb, Env.isInferred_iff.1 hinferred, rfl⟩
      · rename_i hinferred
        simp only [Visit.ends_mk, Check.result_pure] at h
        obtain ⟨_, _, ⟨rfl, hfalse⟩, h⟩ := h
        cases hfalse
        obtain ⟨rfl, hsub⟩ := h
        refine .inr ⟨rfl, fun y hy => ?_, hsub⟩
        cases hx.symm.trans hy
        simpa [Env.declared?, hb, Env.isInferred_iff] using hinferred
    · rename_i hnone
      simp only [Visit.ends_mk, Check.result_pure] at h
      obtain ⟨_, _, ⟨rfl, hfalse⟩, h⟩ := h
      cases hfalse
      obtain ⟨rfl, hsub⟩ := h
      refine .inr ⟨rfl, fun y hy => ?_, hsub⟩
      cases hx.symm.trans hy
      simp [Env.declared?, hnone]
  · -- a field or an element, which has a type of its own
    rename_i hform
    obtain ⟨rfl, hsub⟩ := h
    exact .inr ⟨rfl, fun x hx => absurd hx (hform x), hsub⟩

/-- A declaration that passes its check declares a new name, and its initial value fits. -/
theorem VarDecl.check_ends {ctx : Context} {env : Env} {span : Option Span} {d d' : VarDecl}
    (h : (d.check ctx env span).Ends d' ()) :
    env.contains d.name = false ∧ ctx.registry.expectValueType d.ty span = .ok () ∧
      ((d.init = none ∧ d' = d) ∨
        ∃ e e' t, d.init = some e ∧ (e.synth ctx.registry env).Ends e' t ∧
          ctx.registry.expectSubtype d.ty t (e'.span.or span) = .ok () ∧
          d' = { d with init := some e' }) := by
  unfold VarDecl.check at h
  split at h
  · cases h.2
  · rename_i hnew
    simp only [Visit.ends_after, Check.result_lift] at h
    -- the name is new, and the written type is accepted
    obtain ⟨⟨⟩, hty, h⟩ := h
    refine ⟨by simpa using hnew, hty, ?_⟩
    split at h
    · rename_i hinit
      obtain ⟨rfl, -⟩ := Visit.ends_mk.1 h
      exact .inl ⟨hinit, rfl⟩
    · rename_i e hinit
      simp only [Visit.ends_andThen, Visit.ends_mk, Check.result_lift] at h
      obtain ⟨e', t, he, rfl, hbelow⟩ := h
      exact .inr ⟨e, e', t, hinit, he, hbelow, rfl⟩

/-! ## Forms of statement -/

namespace StmtForm

variable {ctx : Context} {env : Env} {span : Option Span} {left : Env × StmtForm}

/-- An assertion leaves the environment as it is. -/
theorem assert_ends {e : Expr} (h : ((StmtForm.assert e).check ctx env span).Ends left ()) :
    ∃ e', (e.checkCondition ctx env).Ends e' () ∧ left = (env, .assert e') := by
  rw [check, Visit.ends_within] at h
  obtain ⟨e', he, rfl⟩ := h
  exact ⟨e', he, rfl⟩

/-- An assignment finds the types of its target and of its value before it stores anything. -/
theorem assign_ends {target value : Expr}
    (h : ((StmtForm.assign target value).check ctx env span).Ends left ()) :
    ∃ target' lt value' rt env', (target.synth ctx.registry env).Ends target' lt ∧
      (value.synth ctx.registry env).Ends value' rt ∧
      (target'.store ctx env lt rt value'.span).Ends env' () ∧
      left = (env', .assign target' value') := by
  unfold check at h
  split at h
  · simp only [Visit.ends_andThen, Visit.ends_within] at h
    obtain ⟨target', lt, htarget, value', rt, hvalue, env', hstore, rfl⟩ := h
    exact ⟨target', lt, value', rt, env', htarget, hvalue, hstore, rfl⟩
  · cases h.2

/-- The loop variable is bound while the rest of the loop is checked, and not after it. -/
theorem forLoop_ends {d : VarDecl} {condition : Expr} {step : Stmt} {body : List Stmt}
    (h : ((StmtForm.forLoop d condition step body).check ctx env span).Ends left ()) :
    ∃ d' condition' env₁ step' inner, (d.check ctx env span).Ends d' () ∧
      (d'.name = d.name ∧ d'.ty = d.ty) ∧
      (condition.checkCondition ctx (env.put d.name d.ty)).Ends condition' () ∧
      (step.check ctx (env.put d.name d.ty)).Ends (env₁, step') () ∧
      (Stmt.checkAll ctx env₁ body).Ends inner () ∧
      left = (env, .forLoop d' condition' step' inner.2) := by
  simp only [check, Visit.ends_andThen, Visit.ends_within] at h
  obtain ⟨d', _, hd, condition', _, hcondition, ⟨env₁, step'⟩, _, hstep, inner, hbody, rfl⟩ := h
  have hkept := d.check_left ctx env span
  rw [hd.1] at hkept
  rw [hkept.1, hkept.2] at hcondition hstep
  exact ⟨d', condition', env₁, step', inner, hd, hkept, hcondition, hstep, hbody, rfl⟩

/-- Both arms start from the environment of the statement, and what they end in is merged. -/
theorem ifElse_ends {condition : Expr} {onTrue onFalse : List Stmt}
    (h : ((StmtForm.ifElse condition onTrue onFalse).check ctx env span).Ends left ()) :
    ∃ condition' l r merged, (condition.checkCondition ctx env).Ends condition' () ∧
      (Stmt.checkAll ctx env onTrue).Ends l () ∧ (Stmt.checkAll ctx env onFalse).Ends r () ∧
      (env.merge ctx.registry l.1 r.1).Ends merged () ∧
      left = (merged, .ifElse condition' l.2 r.2) := by
  simp only [check, Visit.ends_andThen, Visit.ends_within, Visit.ends_orAt] at h
  obtain ⟨condition', _, hcondition, l, _, hl, r, _, hr, merged, hmerged, rfl⟩ := h
  exact ⟨condition', l, r, merged, hcondition, hl, hr, hmerged, rfl⟩

/-- A call as a statement may be of a method that returns nothing. -/
theorem call_ends {method : String} {args : List Expr}
    (h : ((StmtForm.call method args).check ctx env span).Ends left ()) :
    ∃ sig args', ctx.registry.method? method = some sig ∧ args.length = sig.params.length ∧
      (Expr.synthArgs ctx.registry env span sig.params args).Ends args' () ∧
      left = (env, .call method args') := by
  simp only [check, Expr.synthCall, Visit.ends_andThen, Visit.ends_mk] at h
  obtain ⟨args', t, hcall, rfl, -⟩ := h
  obtain ⟨sig, hsig, hlen, hargs, -⟩ := checkCall_ends hcall
  exact ⟨sig, args', hsig, hlen, hargs, rfl⟩

theorem print_ends {e : Expr} (h : ((StmtForm.print e).check ctx env span).Ends left ()) :
    ∃ e' t, (e.synth ctx.registry env).Ends e' t ∧ left = (env, .print e') := by
  simp only [check, Visit.ends_andThen, Visit.ends_mk] at h
  obtain ⟨e', t, he, rfl, -⟩ := h
  exact ⟨e', t, he, rfl⟩

/-- A `return` without a value stands in a method that returns nothing. -/
theorem retVoid_ends (h : ((StmtForm.ret none).check ctx env span).Ends left ()) :
    ctx.registry.expand ctx.ret span = .ok .void ∧ left = (env, .ret none) := by
  simp only [check, Visit.ends_mk, Check.result_bind_eq_ok, Check.result_lift] at h
  obtain ⟨rfl, t, hexpand, h⟩ := h
  cases t with
  | void => exact ⟨hexpand, rfl⟩
  | _ => cases h

/-- A value that is returned fits the type of the method. -/
theorem ret_ends {e : Expr} (h : ((StmtForm.ret (some e)).check ctx env span).Ends left ()) :
    ∃ e' t, (e.synth ctx.registry env).Ends e' t ∧
      ctx.registry.expectSubtype ctx.ret t e'.span = .ok () ∧ left = (env, .ret (some e')) := by
  simp only [check, Visit.ends_andThen, Visit.ends_mk, Check.result_lift] at h
  obtain ⟨e', t, he, rfl, hbelow⟩ := h
  exact ⟨e', t, he, hbelow, rfl⟩

/-- The cases of a `switch` are checked one after another, each from where the last ended. -/
theorem switchOn_ends {selector : Expr} {cases : List SwitchCase}
    (h : ((StmtForm.switchOn selector cases).check ctx env span).Ends left ()) :
    ∃ selector' t env₁ cases', (selector.synth ctx.registry env).Ends selector' t ∧
      (SwitchCase.checkAll ctx t env cases).Ends (env₁, cases') () ∧
      left = (env₁, .switchOn selector' cases') := by
  simp only [check, Visit.ends_andThen, Visit.ends_within] at h
  obtain ⟨selector', t, hselector, ⟨env₁, cases'⟩, hcases, rfl⟩ := h
  exact ⟨selector', t, env₁, cases', hselector, hcases, rfl⟩

/-- The cases of a `match` all start from the environment of the statement, which it keeps. -/
theorem matchType_ends {selector : Expr} {cases : List MatchCase}
    (h : ((StmtForm.matchType selector cases).check ctx env span).Ends left ()) :
    ∃ selector' t cases', (selector.synth ctx.registry env).Ends selector' t ∧
      (MatchCase.checkAll ctx t span env cases).Ends cases' () ∧
      left = (env, .matchType selector' cases') := by
  simp only [check, Visit.ends_andThen, Visit.ends_within] at h
  obtain ⟨selector', t, hselector, cases', hcases, rfl⟩ := h
  exact ⟨selector', t, cases', hselector, hcases, rfl⟩

/-- A declaration puts its variable into the environment that is left. -/
theorem declare_ends {d : VarDecl} (h : ((StmtForm.declare d).check ctx env span).Ends left ()) :
    ∃ d', (d.check ctx env span).Ends d' () ∧ left = (env.put d'.name d'.ty, .declare d') := by
  simp only [check, Visit.ends_andThen, Visit.ends_mk] at h
  obtain ⟨d', _, hd, rfl, -⟩ := h
  exact ⟨d', hd, rfl⟩

/-- A `var` declaration writes the type it finds in its cell. -/
theorem infer_ends {x : String} {cell : Ty} {init : Expr}
    (h : ((StmtForm.infer x cell init).check ctx env span).Ends left ()) :
    ∃ init' t, env.contains x = false ∧ (init.synth ctx.registry env).Ends init' t ∧
      left = (env.putInferred x t, .infer x t init') := by
  unfold check at h
  split at h
  · cases h.2
  · rename_i hnew
    simp only [Visit.ends_andThen] at h
    obtain ⟨init', t, hinit, h⟩ := h
    split at h
    · obtain ⟨rfl, -⟩ := Visit.ends_mk.1 h
      exact ⟨init', t, by simpa using hnew, hinit, rfl⟩
    · cases h.2

/-- A loop ends in the environment that its body ends in. -/
theorem whileLoop_ends {condition : Expr} {body : List Stmt}
    (h : ((StmtForm.whileLoop condition body).check ctx env span).Ends left ()) :
    ∃ condition' env₁ body', (condition.checkCondition ctx env).Ends condition' () ∧
      (Stmt.checkAll ctx env body).Ends (env₁, body') () ∧
      left = (env₁, .whileLoop condition' body') := by
  simp only [check, Visit.ends_andThen, Visit.ends_within] at h
  obtain ⟨condition', _, hcondition, ⟨env₁, body'⟩, hbody, rfl⟩ := h
  exact ⟨condition', env₁, body', hcondition, hbody, rfl⟩

end StmtForm

/-! ## Sequences -/

section Sequences

variable {ctx : Context} {env : Env}

/-- A statement keeps its span. -/
theorem Stmt.check_ends {form : StmtForm} {span : Option Span} {env' : Env} {s' : Stmt}
    (h : (Stmt.check ctx env ⟨form, span⟩).Ends (env', s') ()) :
    ∃ form', (form.check ctx env span).Ends (env', form') () ∧ s' = ⟨form', span⟩ := by
  rw [Stmt.check, Visit.ends_within] at h
  obtain ⟨⟨env₁, form'⟩, hform, hleft⟩ := h
  cases hleft
  exact ⟨form', hform, rfl⟩

/-- A statement of a block starts where the one before it ended. -/
theorem Stmt.cons_ends {s : Stmt} {ss : List Stmt} {left : Env × List Stmt}
    (h : (Stmt.checkAll ctx env (s :: ss)).Ends left ()) :
    ∃ env₁ s' env₂ rest, (s.check ctx env).Ends (env₁, s') () ∧
      (Stmt.checkAll ctx env₁ ss).Ends (env₂, rest) () ∧ left = (env₂, s' :: rest) := by
  simp only [Stmt.checkAll, Visit.ends_andThen, Visit.ends_within] at h
  obtain ⟨⟨env₁, s'⟩, _, hs, ⟨env₂, rest⟩, hrest, rfl⟩ := h
  exact ⟨env₁, s', env₂, rest, hs, hrest, rfl⟩

/-- The value of a case, if it has one, is checked before the body. -/
theorem SwitchCase.cons_ends {selector : Ty} {value : Option Expr} {body : List Stmt}
    {cs : List SwitchCase} {left : Env × List SwitchCase}
    (h : (SwitchCase.checkAll ctx selector env (⟨value, body⟩ :: cs)).Ends left ()) :
    ∃ value' env₁ body' env₂ rest,
      ((value = none ∧ value' = none) ∨
        ∃ e e' t, value = some e ∧ value' = some e' ∧ (e.synth ctx.registry env).Ends e' t ∧
          ctx.registry.expectSubtype selector t e'.span = .ok ()) ∧
      (Stmt.checkAll ctx env body).Ends (env₁, body') () ∧
      (SwitchCase.checkAll ctx selector env₁ cs).Ends (env₂, rest) () ∧
      left = (env₂, ⟨value', body'⟩ :: rest) := by
  cases value with
  | none =>
    simp only [SwitchCase.checkAll, Visit.ends_andThen, Visit.ends_within] at h
    obtain ⟨⟨env₁, body'⟩, _, hbody, ⟨env₂, rest⟩, hrest, rfl⟩ := h
    exact ⟨none, env₁, body', env₂, rest, .inl ⟨rfl, rfl⟩, hbody, hrest, rfl⟩
  | some e =>
    -- the value has its type found and compared before the body
    simp only [SwitchCase.checkAll, Visit.ends_andThen, Visit.ends_after, Visit.ends_within,
      Check.result_lift] at h
    obtain ⟨e', t, he, ⟨⟩, hbelow, ⟨env₁, body'⟩, _, hbody, ⟨env₂, rest⟩, hrest, rfl⟩ := h
    exact ⟨some e', env₁, body', env₂, rest, .inr ⟨e, e', t, rfl, rfl, he, hbelow⟩, hbody, hrest,
      rfl⟩

/-- A case declares its variable for its own body only. -/
theorem MatchCase.cons_ends {selector t : Ty} {x : String} {body : List Stmt}
    {span caseSpan : Option Span} {cs cs' : List MatchCase}
    (h : (MatchCase.checkAll ctx selector span env (⟨t, x, body, caseSpan⟩ :: cs)).Ends cs' ()) :
    ∃ env₁ body' rest, ctx.registry.expectValueType t (caseSpan.or span) = .ok () ∧
      ctx.registry.expectSubtype selector t (caseSpan.or span) = .ok () ∧
      (Stmt.checkAll ctx (env.put x t) body).Ends (env₁, body') () ∧
      (MatchCase.checkAll ctx selector span env cs).Ends rest () ∧
      cs' = ⟨t, x, body', caseSpan⟩ :: rest := by
  simp only [MatchCase.checkAll, Visit.ends_andThen, Visit.ends_after, Visit.ends_within,
    Check.result_bind_eq_ok, Check.result_lift] at h
  obtain ⟨_, ⟨⟨⟩, ht, ⟨⟩, hbelow, -⟩, ⟨env₁, body'⟩, _, hbody, rest, hrest, rfl⟩ := h
  exact ⟨env₁, body', rest, ht, hbelow, hbody, hrest, rfl⟩

end Sequences

end WhileTyping
