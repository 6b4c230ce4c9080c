import WhileTyping.Proofs.Success
import WhileTyping.Session

/-!
# Trees without their types

Checking leaves a tree behind. Apart from the types found, it is the tree that was given: no node is
added, dropped or moved, whether the check succeeds or fails.

* **`Expr.bare`**, **`Stmt.bare`**, **`File.bare`**: the tree with every type slot emptied and every
  cell of a `var` declaration reset.
* **`Expr.bare_synth`**, **`Stmt.bare_check`**, **`Decl.bare_check`**, **`File.bare_check`**: the
  tree that is left and the tree that was given have the same bare tree.
-/

namespace WhileTyping

/-! ## Bare trees -/

namespace Expr

mutual
/-- The expression without the types of its nodes. -/
def bare : Expr → Expr
  | ⟨form, span, _⟩ => ⟨bareForm form, span, none⟩

def bareForm : ExprForm → ExprForm
  | .binary op l r => .binary op (bare l) (bare r)
  | .constant v => .constant v
  | .index source position => .index (bare source) (bare position)
  | .call method args => .call method (bareAll args)
  | .fill value size => .fill (bare value) (bare size)
  | .array items => .array (bareAll items)
  | .field source name => .field (bare source) name
  | .record fields => .record (bareFields fields)
  | .unary op operand => .unary op (bare operand)
  | .var x => .var x

def bareAll : List Expr → List Expr
  | [] => []
  | e :: es => bare e :: bareAll es

def bareFields : List FieldInit → List FieldInit
  | [] => []
  | ⟨n, e⟩ :: fs => ⟨n, bare e⟩ :: bareFields fs
end

end Expr

/-- The declaration without the types of its initial value. -/
def VarDecl.bare (d : VarDecl) : VarDecl := { d with init := d.init.map Expr.bare }

namespace Stmt

mutual
/-- The statement without the types of its expressions, and with the cells of its `var` declarations
reset. -/
def bare : Stmt → Stmt
  | ⟨form, span⟩ => ⟨bareForm form, span⟩

def bareForm : StmtForm → StmtForm
  | .assert e => .assert e.bare
  | .assign target value => .assign target.bare value.bare
  | .breakLoop => .breakLoop
  | .continueLoop => .continueLoop
  | .forLoop d condition step body => .forLoop d.bare condition.bare (bare step) (bareAll body)
  | .ifElse condition onTrue onFalse => .ifElse condition.bare (bareAll onTrue) (bareAll onFalse)
  | .call method args => .call method (Expr.bareAll args)
  | .print e => .print e.bare
  | .ret value => .ret (value.map Expr.bare)
  | .switchOn selector cases => .switchOn selector.bare (bareSwitch cases)
  | .matchType selector cases => .matchType selector.bare (bareMatch cases)
  | .declare d => .declare d.bare
  | .infer x _ init => .infer x .inferred init.bare
  | .whileLoop condition body => .whileLoop condition.bare (bareAll body)

def bareAll : List Stmt → List Stmt
  | [] => []
  | s :: ss => bare s :: bareAll ss

def bareSwitch : List SwitchCase → List SwitchCase
  | [] => []
  | ⟨value, body⟩ :: cs => ⟨value.map Expr.bare, bareAll body⟩ :: bareSwitch cs

def bareMatch : List MatchCase → List MatchCase
  | [] => []
  | ⟨t, x, body, span⟩ :: cs => ⟨t, x, bareAll body, span⟩ :: bareMatch cs
end

end Stmt

def Decl.bare : Decl → Decl
  | .alias d => .alias d
  | .method d => .method { d with body := Stmt.bareAll d.body }

/-- The file without the types found for its trees. -/
def File.bare (f : File) : File := { f with decls := f.decls.map Decl.bare }

/-! ## Expressions -/

section Expressions

variable (reg : Registry) (env : Env)

/-- A call is left as the visit of its arguments leaves it. -/
theorem left_checkCall (method : String) (args : List Expr) (span : Option Span)
    (valueRequired : Bool) {visitArgs : List Ty → Visit (List Expr) Unit} {P : List Expr → Prop}
    (hargs : P args) (hvisit : ∀ params, P (visitArgs params).left) :
    P (checkCall reg method args span valueRequired visitArgs).left := by
  unfold checkCall
  split
  · exact hargs
  · split
    · exact Visit.left_andThen_of (hvisit _) fun _ _ => hvisit _
    · exact hargs

/-- The two ways of ending leave the operand in the same place. -/
theorem bare_operand (mk : Expr → ExprForm) {e : Expr} {k : Expr → Ty → Check Ty}
    (hmk : ∀ e, Expr.bareForm (mk e) = mk e.bare) (he : (e.synth reg env).left.bare = e.bare) :
    Expr.bareForm ((e.synth reg env).andThen mk fun e t => ⟨mk e, k e t⟩).left =
      Expr.bareForm (mk e) := by
  refine Visit.left_andThen_of (P := fun form => Expr.bareForm form = _) ?_ fun t _ => ?_
  all_goals rw [hmk, he, hmk]

/-- The same for an expression with two operands, the second visited after the first. -/
theorem bare_operands (mk : Expr → Expr → ExprForm) {l r : Expr}
    {k : Expr → Ty → Expr → Ty → Check Ty}
    (hmk : ∀ l r, Expr.bareForm (mk l r) = mk l.bare r.bare)
    (hl : (l.synth reg env).left.bare = l.bare) (hr : (r.synth reg env).left.bare = r.bare) :
    Expr.bareForm ((l.synth reg env).andThen (fun l => mk l r) fun l lt =>
      (r.synth reg env).andThen (fun r => mk l r) fun r rt => ⟨mk l r, k l lt r rt⟩).left =
      Expr.bareForm (mk l r) := by
  refine Visit.left_andThen_of (P := fun form => Expr.bareForm form = _) ?_ fun lt _ => ?_
  · rw [hmk, hl, hmk]
  · refine Visit.left_andThen_of (P := fun form => Expr.bareForm form = _) ?_ fun rt _ => ?_
    all_goals rw [hmk, hl, hr, hmk]

mutual
/-- Finding the type of an expression changes nothing of it but its types. -/
theorem Expr.bare_synth : ∀ e : Expr, (e.synth reg env).left.bare = e.bare
  | ⟨form, span, some t⟩ => rfl
  | ⟨form, span, none⟩ => by
    have hform := ExprForm.bare_synth span form
    rw [Expr.synth]
    refine Visit.left_andThen_of (P := fun e => Expr.bare e = _) ?_ fun t _ => ?_
    all_goals rw [Expr.bare, hform, Expr.bare]

/-- By cases on the expression. Each visits its operands in place. -/
theorem ExprForm.bare_synth (span : Option Span) : ∀ form : ExprForm,
    Expr.bareForm (form.synth reg env span).left = Expr.bareForm form
  | .constant v | .var x => rfl
  | .binary op l r =>
    bare_operands reg env (.binary op) (fun _ _ => rfl) (Expr.bare_synth l) (Expr.bare_synth r)
  | .index source position =>
    bare_operands reg env .index (fun _ _ => rfl) (Expr.bare_synth source)
      (Expr.bare_synth position)
  | .fill value size =>
    bare_operands reg env .fill (fun _ _ => rfl) (Expr.bare_synth value) (Expr.bare_synth size)
  | .field source name =>
    bare_operand reg env (.field · name) (fun _ => rfl) (Expr.bare_synth source)
  | .unary op operand =>
    bare_operand reg env (.unary op) (fun _ => rfl) (Expr.bare_synth operand)
  | .call method args => by
    rw [ExprForm.synth, Visit.left_within, Expr.bareForm, Expr.bareForm]
    -- a call that is refused leaves its arguments, and otherwise they are what the visit left
    refine congrArg _ (left_checkCall reg method args span true (P := fun es => Expr.bareAll es = _)
      rfl fun params => ?_)
    exact Expr.bare_synthArgs span params args
  | .array items => by
    have hitems := Expr.bare_synthAll items
    rw [ExprForm.synth]
    refine Visit.left_andThen_of (P := fun form => Expr.bareForm form = _) ?_ fun ts _ => ?_
    all_goals rw [Expr.bareForm, hitems, Expr.bareForm]
  | .record fields => by
    have hfields := FieldInit.bare_synthAll span [] fields
    rw [ExprForm.synth]
    refine Visit.left_andThen_of (P := fun form => Expr.bareForm form = _) ?_ fun fs _ => ?_
    all_goals rw [Expr.bareForm, hfields, Expr.bareForm]

theorem Expr.bare_synthAll : ∀ es : List Expr,
    Expr.bareAll (Expr.synthAll reg env es).left = Expr.bareAll es
  | [] => rfl
  | e :: es => by
    have he := Expr.bare_synth e
    have hes := Expr.bare_synthAll es
    rw [Expr.synthAll]
    refine Visit.left_andThen_of (P := fun es => Expr.bareAll es = _) ?_ fun t _ => ?_
    · rw [Expr.bareAll, he, Expr.bareAll]
    · refine Visit.left_andThen_of (P := fun es => Expr.bareAll es = _) ?_ fun ts _ => ?_
      all_goals rw [Expr.bareAll, he, hes, Expr.bareAll]

/-- Arguments beyond the parameters are not visited, and stay as they are. -/
theorem Expr.bare_synthArgs (span : Option Span) : ∀ (params : List Ty) (es : List Expr),
    Expr.bareAll (Expr.synthArgs reg env span params es).left = Expr.bareAll es
  | _, [] => by rw [Expr.synthArgs]
  | [], e :: es => by rw [Expr.synthArgs]
  | p :: ps, e :: es => by
    have he := Expr.bare_synth e
    have hes := Expr.bare_synthArgs span ps es
    rw [Expr.synthArgs]
    refine Visit.left_andThen_of (P := fun es => Expr.bareAll es = _) ?_ fun t _ => ?_
    · rw [Expr.bareAll, he, Expr.bareAll]
    · refine Visit.left_after_of (P := fun es => Expr.bareAll es = _) ?_ fun _ _ => ?_
      · rw [Expr.bareAll, he, Expr.bareAll]
      · rw [Visit.left_within, Expr.bareAll, he, hes, Expr.bareAll]

theorem FieldInit.bare_synthAll (span : Option Span) : ∀ (seen : List String)
    (fs : List FieldInit),
    Expr.bareFields (FieldInit.synthAll reg env span seen fs).left = Expr.bareFields fs
  | _, [] => rfl
  | seen, ⟨n, e⟩ :: fs => by
    have he := Expr.bare_synth e
    have hfs := FieldInit.bare_synthAll span (n :: seen) fs
    rw [FieldInit.synthAll]
    split
    · rfl
    · refine Visit.left_andThen_of (P := fun fs => Expr.bareFields fs = _) ?_ fun t _ => ?_
      · rw [Expr.bareFields, he, Expr.bareFields]
      · refine Visit.left_andThen_of (P := fun fs => Expr.bareFields fs = _) ?_ fun ts _ => ?_
        all_goals rw [Expr.bareFields, he, hfs, Expr.bareFields]
end

end Expressions

/-! ## Statements -/

section Statements

variable (ctx : Context)

theorem Expr.bare_checkCondition (env : Env) (e : Expr) :
    (e.checkCondition ctx env).left.bare = e.bare := by
  have he := Expr.bare_synth ctx.registry env e
  exact Visit.left_andThen_of (P := fun e' => Expr.bare e' = _) he fun _ _ => he

/-- The check of a declaration visits its initial value, if there is one. -/
theorem VarDecl.bare_check (env : Env) (span : Option Span) (d : VarDecl) :
    (d.check ctx env span).left.bare = d.bare := by
  unfold VarDecl.check
  split
  · rfl
  · refine Visit.left_after_of (P := fun d' => VarDecl.bare d' = _) rfl fun _ _ => ?_
    split
    · rfl
    · rename_i e he
      have hinit := Expr.bare_synth ctx.registry env e
      refine Visit.left_andThen_of (P := fun d' => VarDecl.bare d' = _) ?_ fun _ _ => ?_
      all_goals rw [VarDecl.bare, VarDecl.bare, he, Option.map_some, Option.map_some, hinit]

/-! What a composed visit leaves has the bare form that was given if it has it in each way of
ending. -/

/-- To know the bare form that a visit leaves, it is enough to know that it is the same where the
visit stops and where it goes on. -/
theorem Stmt.bareForm_andThen {σ α β : Type} {v : Visit σ α} {stop : σ → Env × StmtForm}
    {next : σ → α → Visit (Env × StmtForm) β} {form : StmtForm}
    (hstop : Stmt.bareForm (stop v.left).2 = form)
    (hnext : ∀ a, Stmt.bareForm (next v.left a).left.2 = form) :
    Stmt.bareForm (v.andThen stop next).left.2 = form :=
  Visit.left_andThen_of (P := fun l : Env × StmtForm => Stmt.bareForm l.2 = form) hstop
    fun a _ => hnext a

/-- The same for the cases of a `switch`. -/
theorem Stmt.bareSwitch_andThen {σ α β : Type} {v : Visit σ α} {stop : σ → Env × List SwitchCase}
    {next : σ → α → Visit (Env × List SwitchCase) β} {cs : List SwitchCase}
    (hstop : Stmt.bareSwitch (stop v.left).2 = cs)
    (hnext : ∀ a, Stmt.bareSwitch (next v.left a).left.2 = cs) :
    Stmt.bareSwitch (v.andThen stop next).left.2 = cs :=
  Visit.left_andThen_of (P := fun l : Env × List SwitchCase => Stmt.bareSwitch l.2 = cs) hstop
    fun a _ => hnext a

mutual
/-- The check of a statement changes nothing of it but types and cells. -/
theorem Stmt.bare_check (env : Env) : ∀ s : Stmt, (s.check ctx env).left.2.bare = s.bare
  | ⟨form, span⟩ => by
    rw [Stmt.check, Visit.left_within, Stmt.bare, StmtForm.bare_check env span form, Stmt.bare]

/-- By cases on the statement. Wherever the check stops, it has put back what it came to. -/
theorem StmtForm.bare_check (env : Env) (span : Option Span) : ∀ form : StmtForm,
    Stmt.bareForm (form.check ctx env span).left.2 = Stmt.bareForm form
  | .breakLoop | .continueLoop | .ret none => rfl
  | .assert e => by
    rw [StmtForm.check, Visit.left_within, Stmt.bareForm, Expr.bare_checkCondition, Stmt.bareForm]
  | .assign target value => by
    have htarget := Expr.bare_synth ctx.registry env target
    have hvalue := Expr.bare_synth ctx.registry env value
    unfold StmtForm.check
    split
    · refine Stmt.bareForm_andThen ?_ fun _ => Stmt.bareForm_andThen ?_ fun _ => ?_
      · rw [Stmt.bareForm, htarget, Stmt.bareForm]
      all_goals simp only [Visit.left_within, Stmt.bareForm, htarget, hvalue]
    · rfl
  | .forLoop d condition step body => by
    have hd := d.bare_check ctx env span
    rw [StmtForm.check]
    refine Stmt.bareForm_andThen ?_ fun _ => Stmt.bareForm_andThen ?_ fun _ =>
      Stmt.bareForm_andThen ?_ fun _ => ?_
    all_goals simp only [Visit.left_within, Stmt.bareForm, hd, Expr.bare_checkCondition,
      Stmt.bare_check _ step, Stmt.bare_checkAll _ body]
  | .ifElse condition onTrue onFalse => by
    rw [StmtForm.check]
    refine Stmt.bareForm_andThen ?_ fun _ => Stmt.bareForm_andThen ?_ fun _ =>
      Stmt.bareForm_andThen ?_ fun _ => ?_
    all_goals simp only [Visit.left_within, Stmt.bareForm, Expr.bare_checkCondition,
      Stmt.bare_checkAll _ onTrue, Stmt.bare_checkAll _ onFalse]
  | .call method args => by
    have hargs : Expr.bareAll (Expr.synthCall ctx.registry env method args span false).left =
        Expr.bareAll args :=
      left_checkCall ctx.registry method args span false (P := fun es => Expr.bareAll es = _) rfl
        fun params => Expr.bare_synthArgs ctx.registry env span params args
    rw [StmtForm.check]
    refine Stmt.bareForm_andThen ?_ fun _ => ?_
    all_goals simp only [Stmt.bareForm, hargs]
  | .print e => by
    rw [StmtForm.check]
    refine Stmt.bareForm_andThen ?_ fun _ => ?_
    all_goals simp only [Stmt.bareForm, Expr.bare_synth]
  | .ret (some e) => by
    rw [StmtForm.check]
    refine Stmt.bareForm_andThen ?_ fun _ => ?_
    all_goals simp only [Stmt.bareForm, Option.map_some, Expr.bare_synth]
  | .switchOn selector cases => by
    rw [StmtForm.check]
    refine Stmt.bareForm_andThen ?_ fun t => ?_
    all_goals simp only [Visit.left_within, Stmt.bareForm, Expr.bare_synth,
      SwitchCase.bare_checkAll _ _ cases]
  | .matchType selector cases => by
    rw [StmtForm.check]
    refine Stmt.bareForm_andThen ?_ fun t => ?_
    all_goals simp only [Visit.left_within, Stmt.bareForm, Expr.bare_synth,
      MatchCase.bare_checkAll _ _ _ cases]
  | .declare d => by
    have hd := d.bare_check ctx env span
    rw [StmtForm.check]
    refine Stmt.bareForm_andThen ?_ fun _ => ?_
    all_goals simp only [Stmt.bareForm, hd]
  | .infer x cell init => by
    unfold StmtForm.check
    split
    · rfl
    · refine Stmt.bareForm_andThen ?_ fun t => ?_
      · simp only [Stmt.bareForm, Expr.bare_synth]
      · -- the cell is the one thing that changes apart from types, and a bare tree resets it
        split <;> simp only [Stmt.bareForm, Expr.bare_synth]
  | .whileLoop condition body => by
    rw [StmtForm.check]
    refine Stmt.bareForm_andThen ?_ fun _ => ?_
    all_goals simp only [Visit.left_within, Stmt.bareForm, Expr.bare_checkCondition,
      Stmt.bare_checkAll _ body]

theorem Stmt.bare_checkAll (env : Env) : ∀ ss : List Stmt,
    Stmt.bareAll (Stmt.checkAll ctx env ss).left.2 = Stmt.bareAll ss
  | [] => rfl
  | s :: ss => by
    have hs := Stmt.bare_check env s
    rw [Stmt.checkAll]
    refine Visit.left_andThen_of (P := fun l : Env × List Stmt => Stmt.bareAll l.2 = _) ?_
      fun _ _ => ?_
    · rw [Stmt.bareAll, hs, Stmt.bareAll]
    · rw [Visit.left_within, Stmt.bareAll, hs, Stmt.bare_checkAll _ ss, Stmt.bareAll]

theorem SwitchCase.bare_checkAll (selector : Ty) (env : Env) : ∀ cs : List SwitchCase,
    Stmt.bareSwitch (SwitchCase.checkAll ctx selector env cs).left.2 = Stmt.bareSwitch cs
  | [] => rfl
  | ⟨none, body⟩ :: cs => by
    rw [SwitchCase.checkAll]
    refine Stmt.bareSwitch_andThen ?_ fun _ => ?_
    all_goals simp only [Visit.left_within, Stmt.bareSwitch, Stmt.bare_checkAll _ body,
      SwitchCase.bare_checkAll _ _ cs]
  | ⟨some e, body⟩ :: cs => by
    rw [SwitchCase.checkAll]
    refine Stmt.bareSwitch_andThen ?_ fun _ => Stmt.bareSwitch_andThen ?_ fun _ =>
      Stmt.bareSwitch_andThen ?_ fun _ => ?_
    all_goals simp only [id, Visit.left_within, Stmt.bareSwitch, Option.map_some, Expr.bare_synth,
      Stmt.bare_checkAll _ body, SwitchCase.bare_checkAll _ _ cs]

/-- Each case is checked in an environment of its own, but all in one tree. -/
theorem MatchCase.bare_checkAll (selector : Ty) (span : Option Span) (env : Env) :
    ∀ cs : List MatchCase,
    Stmt.bareMatch (MatchCase.checkAll ctx selector span env cs).left = Stmt.bareMatch cs
  | [] => rfl
  | ⟨t, x, body, caseSpan⟩ :: cs => by
    rw [MatchCase.checkAll]
    refine Visit.left_after_of (P := fun cs => Stmt.bareMatch cs = _) rfl fun _ _ => ?_
    refine Visit.left_andThen_of (P := fun cs => Stmt.bareMatch cs = _) ?_ fun _ _ => ?_
    all_goals simp only [Visit.left_within, Stmt.bareMatch, Stmt.bare_checkAll _ body,
      MatchCase.bare_checkAll _ _ _ cs]
end

end Statements

/-! ## Files -/

/-- An alias stays as it is, and a method gets a body with the same bare tree. -/
theorem Decl.bare_check (reg : Registry) : ∀ d : Decl, (d.check reg).left.bare = d.bare
  | .alias d => Visit.left_after_of (P := fun d' => Decl.bare d' = _) rfl fun _ _ => rfl
  | .method d => by
    refine Visit.left_after_of (P := fun d' => Decl.bare d' = _) rfl fun env _ => ?_
    rw [Visit.left_within, Decl.bare, Stmt.bare_checkAll, Decl.bare]

namespace Session

/-- A session adds events to the check of a declaration, and nothing to what it leaves. -/
theorem left_checkDecl (s : Session) (d : Decl) :
    (s.checkDecl d).left = (d.check s.registry).left := by
  unfold checkDecl
  dsimp only
  split <;> rfl

/-- A run leaves the declarations that it does not come to as they are. -/
theorem bare_checkDecls (s : Session) (ds : List Decl) :
    (s.checkDecls ds).decls.map Decl.bare = ds.map Decl.bare := by
  induction ds with
  | nil => rfl
  | cons d ds ih =>
    have hd := Decl.bare_check s.registry d
    rw [← left_checkDecl] at hd
    unfold checkDecls
    dsimp only
    split
    · rw [List.map_cons, hd, ih, List.map_cons]
    · split
      · rw [List.map_cons, hd, ih, List.map_cons]
      · rw [List.map_cons, hd, List.map_cons]

end Session

/-- Checking a file changes nothing of it but the types on the tree. -/
theorem File.bare_check (f : File) : f.check.value.1.bare = f.bare := by
  unfold File.check
  dsimp only
  split
  · rfl
  · rename_i s hs
    rw [File.bare, Session.bare_checkDecls, File.bare]

end WhileTyping
