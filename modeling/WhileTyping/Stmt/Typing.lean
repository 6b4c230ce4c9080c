import WhileTyping.Expr.Typing
import WhileTyping.Stmt.Basic

/-!
# Checking statements

A statement is checked in an environment and leaves one behind, together with the statement as
annotated so far:

* a declaration binds its name, and a `var` declaration also fills its cell;
* an assignment to a `var` variable changes the type the variable holds;
* the arms of an `if` are checked from the same environment and then merged;
* the body of a `for` loop and of a `match` case has a scope of its own, which is dropped;
* the body of a `while` loop and of a `switch` case shares the environment around it.

The environment is left behind by a check that fails as well, with what changed before the failure.
-/

namespace WhileTyping

/-- What stays the same within one method body: the registry and the return type. -/
structure Context where
  registry : Registry := {}
  ret : Ty := .void

/-- The type of a condition is `bool`. -/
def Expr.checkCondition (ctx : Context) (env : Env) (e : Expr) : Visit Expr Unit :=
  (e.synth ctx.registry env).andThen id fun e t =>
    ⟨e, do discard <| ctx.registry.expectKind t (.single .bool) e.span⟩

/-- Checks a declaration with a written type, without binding its name. -/
def VarDecl.check (ctx : Context) (env : Env) (span : Option Span) (d : VarDecl) :
    Visit VarDecl Unit :=
  if env.contains d.name then ⟨d, .fail ⟨.duplicateDeclaration d.name, span⟩⟩
  else
    Visit.after (ctx.registry.expectValueType d.ty span) d fun () =>
      match d.init with
      | none => ⟨d, return ()⟩
      | some e =>
        (e.synth ctx.registry env).andThen (fun e => { d with init := some e }) fun e t =>
          ⟨{ d with init := some e }, ctx.registry.expectSubtype d.ty t (e.span.or span)⟩

/-- Stores a value of a type in a target of a type. A `var` variable takes on the type of the value,
any other target must be above it. -/
def Expr.store (ctx : Context) (env : Env) (target : Expr) (targetTy valueTy : Ty)
    (span : Option Span) : Visit Env Unit :=
  match target.form with
  | .var x =>
    (env.refine x valueTy).andThen id fun env refined =>
      if refined then ⟨env, return ()⟩
      else ⟨env, ctx.registry.expectSubtype targetTy valueTy span⟩
  | _ => ⟨env, ctx.registry.expectSubtype targetTy valueTy span⟩

mutual
def Stmt.check (ctx : Context) (env : Env) : Stmt → Visit (Env × Stmt) Unit
  | ⟨form, span⟩ => (form.check ctx env span).within fun left => (left.1, ⟨left.2, span⟩)

/-- Checks a statement of that form with the given span. -/
def StmtForm.check (ctx : Context) (env : Env) (span : Option Span) :
    StmtForm → Visit (Env × StmtForm) Unit
  | .assert e => (e.checkCondition ctx env).within fun e => (env, .assert e)
  | .assign target value =>
    if target.isAssignable then
      (target.synth ctx.registry env).andThen (fun target => (env, .assign target value))
        fun target lt =>
          (value.synth ctx.registry env).andThen (fun value => (env, .assign target value))
            fun value rt =>
              (target.store ctx env lt rt value.span).within fun env => (env, .assign target value)
    else
      ⟨(env, .assign target value),
        .fail ⟨.malformedTree "invalid assignment target", target.span⟩⟩
  | .breakLoop => ⟨(env, .breakLoop), return ()⟩
  | .continueLoop => ⟨(env, .continueLoop), return ()⟩
  -- the step is checked before the body, and all that they bind is forgotten after the loop
  | .forLoop d condition step body =>
    (d.check ctx env span).andThen (fun d => (env, .forLoop d condition step body)) fun d () =>
      (condition.checkCondition ctx (env.put d.name d.ty)).andThen
        (fun condition => (env, .forLoop d condition step body)) fun condition () =>
          (step.check ctx (env.put d.name d.ty)).andThen
            (fun left => (env, .forLoop d condition left.2 body)) fun left () =>
              (Stmt.checkAll ctx left.1 body).within
                fun inner => (env, .forLoop d condition left.2 inner.2)
  | .ifElse condition onTrue onFalse =>
    (condition.checkCondition ctx env).andThen
      (fun condition => (env, .ifElse condition onTrue onFalse)) fun condition () =>
        (Stmt.checkAll ctx env onTrue).andThen
          (fun left => (env, .ifElse condition left.2 onFalse)) fun left () =>
            -- both blocks start from the same environment
            (Stmt.checkAll ctx env onFalse).andThen
              (fun right => (env, .ifElse condition left.2 right.2)) fun right () =>
                ((env.merge ctx.registry left.1 right.1).orAt span).within
                  fun merged => (merged, .ifElse condition left.2 right.2)
  | .call method args =>
    -- what the method returns is thrown away, so it may be `void`
    (Expr.synthCall ctx.registry env method args span false).andThen
      (fun args => (env, .call method args)) fun args _ => ⟨(env, .call method args), return ()⟩
  | .print e =>
    (e.synth ctx.registry env).andThen (fun e => (env, .print e)) fun e _ =>
      ⟨(env, .print e), return ()⟩
  | .ret (some e) =>
    (e.synth ctx.registry env).andThen (fun e => (env, .ret (some e))) fun e t =>
      ⟨(env, .ret (some e)), ctx.registry.expectSubtype ctx.ret t e.span⟩
  | .ret none =>
    ⟨(env, .ret none), do
      -- an alias of `void` is as good as `void`
      match ← ctx.registry.expand ctx.ret span with
      | .void => return ()
      | _ => .fail ⟨.typeMismatch ctx.ret .void, span⟩⟩
  | .switchOn selector cases =>
    (selector.synth ctx.registry env).andThen (fun selector => (env, .switchOn selector cases))
      fun selector t =>
        (SwitchCase.checkAll ctx t env cases).within
          fun left => (left.1, .switchOn selector left.2)
  | .matchType selector cases =>
    (selector.synth ctx.registry env).andThen (fun selector => (env, .matchType selector cases))
      fun selector t =>
        (MatchCase.checkAll ctx t span env cases).within fun cases =>
          (env, .matchType selector cases)
  | .declare d =>
    (d.check ctx env span).andThen (fun d => (env, .declare d)) fun d () =>
      ⟨(env.put d.name d.ty, .declare d), return ()⟩
  | .infer x cell init =>
    if env.contains x then ⟨(env, .infer x cell init), .fail ⟨.duplicateDeclaration x, span⟩⟩
    else
      (init.synth ctx.registry env).andThen (fun init => (env, .infer x cell init)) fun init t =>
        -- a cell that an earlier check has filled is never filled again
        if cell.isInferred then
          ⟨(env.putInferred x t, .infer x t init), Check.report (.cellFilled x t)⟩
        else ⟨(env, .infer x cell init), .fail ⟨.cellResolved x, span⟩⟩
  | .whileLoop condition body =>
    (condition.checkCondition ctx env).andThen (fun condition => (env, .whileLoop condition body))
      fun condition () =>
        -- unlike the blocks of an `if`, the body leaves its variables behind
        (Stmt.checkAll ctx env body).within fun left => (left.1, .whileLoop condition left.2)

/-- Checks statements in order, up to the first that fails. -/
def Stmt.checkAll (ctx : Context) (env : Env) : List Stmt → Visit (Env × List Stmt) Unit
  | [] => ⟨(env, []), return ()⟩
  | s :: ss =>
    (s.check ctx env).andThen (fun left => (left.1, left.2 :: ss)) fun left () =>
      (Stmt.checkAll ctx left.1 ss).within fun rest => (rest.1, left.2 :: rest.2)

/-- Checks the cases of a `switch` on a value of a type. -/
def SwitchCase.checkAll (ctx : Context) (selector : Ty) (env : Env) :
    List SwitchCase → Visit (Env × List SwitchCase) Unit
  | [] => ⟨(env, []), return ()⟩
  | ⟨none, body⟩ :: cs =>
    (Stmt.checkAll ctx env body).andThen (fun left => (left.1, ⟨none, left.2⟩ :: cs))
      fun left () =>
        (SwitchCase.checkAll ctx selector left.1 cs).within
          fun rest => (rest.1, ⟨none, left.2⟩ :: rest.2)
  | ⟨some e, body⟩ :: cs =>
    (e.synth ctx.registry env).andThen (fun e => (env, ⟨some e, body⟩ :: cs)) fun e t =>
      Visit.after (ctx.registry.expectSubtype selector t e.span) (env, ⟨some e, body⟩ :: cs)
        fun () =>
          (Stmt.checkAll ctx env body).andThen (fun left => (left.1, ⟨some e, left.2⟩ :: cs))
            fun left () =>
              (SwitchCase.checkAll ctx selector left.1 cs).within
                fun rest => (rest.1, ⟨some e, left.2⟩ :: rest.2)

/-- Checks the cases of a `match` on a value of a type. A case without a span is reported at the
span of the statement. -/
def MatchCase.checkAll (ctx : Context) (selector : Ty) (span : Option Span) (env : Env) :
    List MatchCase → Visit (List MatchCase) Unit
  | [] => ⟨[], return ()⟩
  | ⟨t, x, body, caseSpan⟩ :: cs =>
    Visit.after (do
        ctx.registry.expectValueType t (caseSpan.or span)
        ctx.registry.expectSubtype selector t (caseSpan.or span)
        Check.report (.caseEntered x selector t))
      (⟨t, x, body, caseSpan⟩ :: cs) fun () =>
        (Stmt.checkAll ctx (env.put x t) body).andThen
          (fun left => ⟨t, x, left.2, caseSpan⟩ :: cs) fun left () =>
            (MatchCase.checkAll ctx selector span env cs).within
              fun rest => ⟨t, x, left.2, caseSpan⟩ :: rest
end

end WhileTyping
