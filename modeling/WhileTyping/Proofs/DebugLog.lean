import WhileTyping.Proofs.SessionRuns

/-!
# What a run writes to the log

A logger at the level of debugging shows the course of a run declaration by declaration, and nothing
of what goes on within one. This is because all that the check of a body reports is for tracing.

* **`Check.Traces`**: a check reports trace events only. Two such checks in sequence are one again.
* **`Expr.synth_traces`**, **`Stmt.check_traces`**: expressions and statements are checked so, by
  induction on the syntax.
* **`Decl.check_log`**: the check of a declaration first reports that it starts, and then traces.
* **`Session.reached`**: the declarations that a run comes to.
* **`checkDecls_reached`**: what a run reports is made up of what the checks of these report.
* **`writeAll_checkDecl`**, **`writeAll_checkFile`**: the lines that are written for one declaration
  and for a file.
-/

namespace WhileTyping

open Log (Event Level Logger)

/-! ## Trace events only -/

namespace Check

/-- Every event that the check reports is for tracing. -/
def Traces {α : Type} (c : Check α) : Prop := ∀ e ∈ c.log, e.level = .trace

namespace Traces

variable {σ τ α β : Type}

/-- A check without events traces only. -/
theorem silent {c : Check α} (h : c.log = []) : c.Traces := by
  intro e he
  rw [h] at he
  cases he

theorem pure (a : α) : (Pure.pure a : Check α).Traces := silent rfl

theorem fail (e : TypeError) : (Check.fail e : Check α).Traces := silent rfl

theorem lift (r : Except TypeError α) : (liftM r : Check α).Traces := silent rfl

theorem report {e : Event} (h : e.level = .trace) : (Check.report e).Traces :=
  List.forall_mem_singleton.2 h

/-- Two checks in sequence trace if both do. -/
theorem bind {c : Check α} {k : α → Check β} (h : c.Traces) (hk : ∀ a, (k a).Traces) :
    (c >>= k).Traces := by
  cases hresult : c.result with
  | ok a =>
    rw [Traces, log_bind_of_ok k hresult, List.forall_mem_append]
    exact ⟨h, hk a⟩
  | error e =>
    rw [Traces, log_bind_of_error k hresult]
    exact h

/-- So do two visits. -/
theorem visit {v : Visit σ α} {stop : σ → τ} {next : σ → α → Visit τ β} (h : v.run.Traces)
    (hnext : ∀ a, (next v.left a).run.Traces) : (v.andThen stop next).run.Traces := by
  rw [Visit.run_andThen]
  exact h.bind hnext

end Traces

end Check

open Check (Traces)

/-! ## Rules on types -/

namespace Registry

variable (reg : Registry) (span : Option Span)

/-- Each step of a least upper bound is traced. -/
theorem raiseBound_traces (bound : Ty) (ts : List Ty) : (reg.raiseBound span bound ts).Traces := by
  induction ts generalizing bound with
  | nil => exact .pure _
  | cons t ts ih =>
    unfold raiseBound
    refine .bind (.lift _) fun above => ?_
    cases above with
    | true => exact .bind (.report rfl) fun _ => ih t
    | false => exact .bind (.lift _) fun _ => ih bound

/-- So is each field that the records of a union have in common. -/
theorem commonRecord_traces (records : List (List Field)) :
    (reg.commonRecord records span).Traces := by
  unfold commonRecord
  split
  · exact .pure _
  · refine .bind (.lift _) fun common => ?_
    split <;> exact .bind (.report rfl) fun _ => .pure _

theorem accessTarget_traces (source : Ty) (field : String) :
    (reg.accessTarget source field span).Traces := by
  unfold accessTarget
  refine .bind (.lift _) fun expanded => ?_
  split
  · refine .bind (.lift _) fun records => ?_
    split
    · refine .bind (.report rfl) fun _ => .bind (reg.commonRecord_traces span _) fun record => ?_
      split
      · exact .pure _
      · exact .fail _
    · exact .pure _
  · exact .pure _

/-- The search for a field is traced, whatever it comes to. -/
theorem fieldType_traces (source : Ty) (sourceSpan : Option Span) (field : String) :
    (reg.fieldType source sourceSpan field span).Traces := by
  unfold fieldType
  refine .bind (reg.accessTarget_traces span source field) fun target => ?_
  refine .bind (.lift _) fun record => ?_
  split
  · exact .pure _
  · exact .fail _

end Registry

mutual
/-- The same for constants. -/
theorem Value.typeOf_traces (reg : Registry) (span : Option Span) : ∀ v : Value,
    (v.typeOf reg span).Traces
  | .bool _ | .char _ | .int _ | .string _ => .pure _
  | .array vs => by
    rw [Value.typeOf]
    exact .bind (Value.typesOf_traces reg span vs) fun ts =>
      .bind (reg.raiseBound_traces span .void ts) fun _ => .pure _
  | .record es => by
    rw [Value.typeOf]
    exact .bind (Value.fieldsOf_traces reg span [] es) fun _ => .pure _

theorem Value.typesOf_traces (reg : Registry) (span : Option Span) : ∀ vs : List Value,
    (Value.typesOf reg span vs).Traces
  | [] => .pure _
  | v :: vs => by
    rw [Value.typesOf]
    exact .bind (Value.typeOf_traces reg span v) fun _ =>
      .bind (Value.typesOf_traces reg span vs) fun _ => .pure _

theorem Value.fieldsOf_traces (reg : Registry) (span : Option Span) :
    ∀ (seen : List String) (es : List Entry), (Value.fieldsOf reg span seen es).Traces
  | _, [] => .pure _
  | seen, ⟨n, v⟩ :: es => by
    rw [Value.fieldsOf]
    split
    · exact .fail _
    · exact .bind (Value.typeOf_traces reg span v) fun _ =>
        .bind (Value.fieldsOf_traces reg span _ es) fun _ => .pure _
end

/-- A call traces if its arguments do. -/
theorem checkCall_traces (reg : Registry) (method : String) (args : List Expr) (span : Option Span)
    (valueRequired : Bool) {visitArgs : List Ty → Visit (List Expr) Unit}
    (hargs : ∀ params, (visitArgs params).run.Traces) :
    (checkCall reg method args span valueRequired visitArgs).run.Traces := by
  unfold checkCall
  split
  · exact .fail _
  · split
    · refine .visit (hargs _) fun _ => ?_
      cases valueRequired with
      | true => exact .bind (.lift _) fun _ => .pure _
      | false => exact .pure _
    · exact .fail _

/-! ## Expressions -/

section Expressions

variable (reg : Registry) (env : Env)

mutual
/-- Finding the type of an expression is for tracing only. -/
theorem Expr.synth_traces : ∀ e : Expr, (e.synth reg env).run.Traces
  | ⟨form, span, some t⟩ => .pure t
  | ⟨form, span, none⟩ => by
    rw [Expr.synth]
    exact .visit (ExprForm.synth_traces span form) fun _ => .pure _

/-- By cases on the expression, each a sequence of visits. -/
theorem ExprForm.synth_traces (span : Option Span) : ∀ form : ExprForm,
    (form.synth reg env span).run.Traces
  | .binary op l r => by
    rw [ExprForm.synth]
    exact .visit (Expr.synth_traces l) fun _ => .visit (Expr.synth_traces r) fun _ => .lift _
  | .constant v => v.typeOf_traces reg span
  | .index source position => by
    rw [ExprForm.synth]
    exact .visit (Expr.synth_traces source) fun _ =>
      .visit (Expr.synth_traces position) fun _ => .lift _
  | .call method args => by
    rw [ExprForm.synth]
    exact checkCall_traces reg method args span true fun params =>
      Expr.synthArgs_traces span params args
  | .fill value size => by
    rw [ExprForm.synth]
    exact .visit (Expr.synth_traces value) fun _ => .visit (Expr.synth_traces size) fun _ =>
      .bind (.bind (.lift _) fun _ => .pure _) fun _ => .pure _
  -- the bound of the items is one of the two rules that report events
  | .array items => by
    rw [ExprForm.synth]
    exact .visit (Expr.synthAll_traces items) fun ts =>
      .bind (reg.raiseBound_traces span .void ts) fun _ => .pure _
  | .field source name => by
    rw [ExprForm.synth]
    exact .visit (Expr.synth_traces source) fun st => reg.fieldType_traces span st _ name
  | .record fields => by
    rw [ExprForm.synth]
    exact .visit (FieldInit.synthAll_traces span [] fields) fun _ => .pure _
  | .unary op operand => by
    rw [ExprForm.synth]
    exact .visit (Expr.synth_traces operand) fun _ => .lift _
  | .var x => by
    rw [ExprForm.synth]
    dsimp only
    split
    · exact .pure _
    · exact .fail _

theorem Expr.synthAll_traces : ∀ es : List Expr, (Expr.synthAll reg env es).run.Traces
  | [] => .pure _
  | e :: es => by
    rw [Expr.synthAll]
    exact .visit (Expr.synth_traces e) fun _ => .visit (Expr.synthAll_traces es) fun _ => .pure _

theorem Expr.synthArgs_traces (span : Option Span) : ∀ (params : List Ty) (es : List Expr),
    (Expr.synthArgs reg env span params es).run.Traces
  | _, [] => by
    rw [Expr.synthArgs]
    exact .pure _
  | [], e :: es => by
    rw [Expr.synthArgs]
    exact .pure _
  | p :: ps, e :: es => by
    rw [Expr.synthArgs]
    exact .visit (Expr.synth_traces e) fun _ =>
      .visit (.lift _) fun _ => Expr.synthArgs_traces span ps es

theorem FieldInit.synthAll_traces (span : Option Span) :
    ∀ (seen : List String) (fs : List FieldInit),
      (FieldInit.synthAll reg env span seen fs).run.Traces
  | _, [] => .pure _
  | seen, ⟨n, e⟩ :: fs => by
    rw [FieldInit.synthAll]
    split
    · exact .fail _
    · exact .visit (Expr.synth_traces e) fun _ =>
        .visit (FieldInit.synthAll_traces span _ fs) fun _ => .pure _
end

end Expressions

/-! ## Environments -/

namespace Env

/-- A `var` variable that takes on another type is traced. -/
theorem refine_traces (env : Env) (name : String) (t : Ty) : (env.refine name t).run.Traces := by
  unfold refine
  split
  · split
    · exact .bind (.report rfl) fun _ => .pure _
    · exact .pure _
  · exact .pure _

variable (reg : Registry) (left right : Env)

/-- So is one that is merged after a branch. -/
theorem mergeBinding_traces (name : String) (b : Binding) :
    (mergeBinding reg left right name b).Traces := by
  unfold mergeBinding
  split
  · exact .bind (.lift _) fun _ => .bind (.report rfl) fun _ => .pure _
  · exact .pure _

theorem mergeName_traces (env : Env) (name : String) :
    (mergeName reg left right env name).run.Traces := by
  unfold mergeName
  split
  · exact .pure _
  · exact .visit (mergeBinding_traces reg left right name _) fun _ => .pure _

/-- All that merging reports is one event for each variable. -/
theorem mergeNames_traces (env : Env) (names : List String) :
    (mergeNames reg left right env names).run.Traces := by
  induction names generalizing env with
  | nil => exact .pure _
  | cons name names ih => exact .visit (mergeName_traces reg left right env name) fun _ => ih _

theorem merge_traces (env : Env) : (env.merge reg left right).run.Traces :=
  mergeNames_traces reg left right env _

end Env

/-! ## Statements -/

section Statements

variable (ctx : Context)

theorem Expr.checkCondition_traces (env : Env) (e : Expr) : (e.checkCondition ctx env).run.Traces :=
  .visit (Expr.synth_traces ctx.registry env e) fun _ => .bind (.lift _) fun _ => .pure _

theorem VarDecl.check_traces (env : Env) (span : Option Span) (d : VarDecl) :
    (d.check ctx env span).run.Traces := by
  unfold VarDecl.check
  split
  · exact .fail _
  · refine .visit (.lift _) fun _ => ?_
    split
    · exact .pure _
    · exact .visit (Expr.synth_traces ctx.registry env _) fun _ => .lift _

theorem Expr.store_traces (env : Env) (target : Expr) (targetTy valueTy : Ty) (span : Option Span) :
    (target.store ctx env targetTy valueTy span).run.Traces := by
  unfold Expr.store
  split
  · refine .visit (env.refine_traces _ valueTy) fun refined => ?_
    split
    · exact .pure _
    · exact .lift _
  · exact .lift _

mutual
/-- The check of a statement is for tracing only. -/
theorem Stmt.check_traces (env : Env) : ∀ s : Stmt, (s.check ctx env).run.Traces
  | ⟨form, span⟩ => by
    rw [Stmt.check]
    exact StmtForm.check_traces env span form

/-- By cases on the statement, each a sequence of visits. -/
theorem StmtForm.check_traces (env : Env) (span : Option Span) : ∀ form : StmtForm,
    (form.check ctx env span).run.Traces
  | .breakLoop | .continueLoop => .pure _
  | .assert e => Expr.checkCondition_traces ctx env e
  | .assign target value => by
    unfold StmtForm.check
    split
    · exact .visit (Expr.synth_traces ctx.registry env target) fun lt =>
        .visit (Expr.synth_traces ctx.registry env value) fun rt =>
          Expr.store_traces ctx env _ lt rt _
    · exact .fail _
  | .forLoop d condition step body => by
    rw [StmtForm.check]
    exact .visit (d.check_traces ctx env span) fun _ =>
      .visit (Expr.checkCondition_traces ctx _ condition) fun _ =>
        .visit (Stmt.check_traces _ step) fun _ => Stmt.checkAll_traces _ body
  | .ifElse condition onTrue onFalse => by
    rw [StmtForm.check]
    exact .visit (Expr.checkCondition_traces ctx env condition) fun _ =>
      .visit (Stmt.checkAll_traces env onTrue) fun _ =>
        .visit (Stmt.checkAll_traces env onFalse) fun _ =>
          Env.merge_traces ctx.registry _ _ env
  | .call method args => by
    rw [StmtForm.check]
    exact .visit (checkCall_traces ctx.registry method args span false fun params =>
      Expr.synthArgs_traces ctx.registry env span params args) fun _ => .pure _
  | .print e => by
    rw [StmtForm.check]
    exact .visit (Expr.synth_traces ctx.registry env e) fun _ => .pure _
  | .ret (some e) => by
    rw [StmtForm.check]
    exact .visit (Expr.synth_traces ctx.registry env e) fun _ => .lift _
  | .ret none => by
    rw [StmtForm.check]
    refine .bind (.lift _) fun expanded => ?_
    split
    · exact .pure _
    · exact .fail _
  | .switchOn selector cases => by
    rw [StmtForm.check]
    exact .visit (Expr.synth_traces ctx.registry env selector) fun t =>
      SwitchCase.checkAll_traces t env cases
  | .matchType selector cases => by
    rw [StmtForm.check]
    exact .visit (Expr.synth_traces ctx.registry env selector) fun t =>
      MatchCase.checkAll_traces t span env cases
  | .declare d => by
    rw [StmtForm.check]
    exact .visit (d.check_traces ctx env span) fun _ => .pure _
  | .infer x cell init => by
    unfold StmtForm.check
    split
    · exact .fail _
    · refine .visit (Expr.synth_traces ctx.registry env init) fun t => ?_
      split
      · -- the type that the variable gets is reported, at the level of tracing
        exact .report rfl
      · exact .fail _
  | .whileLoop condition body => by
    rw [StmtForm.check]
    exact .visit (Expr.checkCondition_traces ctx env condition) fun _ =>
      Stmt.checkAll_traces env body

theorem Stmt.checkAll_traces (env : Env) : ∀ ss : List Stmt, (Stmt.checkAll ctx env ss).run.Traces
  | [] => .pure _
  | s :: ss => by
    rw [Stmt.checkAll]
    exact .visit (Stmt.check_traces env s) fun _ => Stmt.checkAll_traces _ ss

theorem SwitchCase.checkAll_traces (selector : Ty) (env : Env) : ∀ cs : List SwitchCase,
    (SwitchCase.checkAll ctx selector env cs).run.Traces
  | [] => .pure _
  | ⟨none, body⟩ :: cs => by
    rw [SwitchCase.checkAll]
    exact .visit (Stmt.checkAll_traces env body) fun _ =>
      SwitchCase.checkAll_traces selector _ cs
  | ⟨some e, body⟩ :: cs => by
    rw [SwitchCase.checkAll]
    exact .visit (Expr.synth_traces ctx.registry env e) fun _ => .visit (.lift _) fun _ =>
      .visit (Stmt.checkAll_traces env body) fun _ => SwitchCase.checkAll_traces selector _ cs

theorem MatchCase.checkAll_traces (selector : Ty) (span : Option Span) (env : Env) :
    ∀ cs : List MatchCase, (MatchCase.checkAll ctx selector span env cs).run.Traces
  | [] => .pure _
  | ⟨t, x, body, caseSpan⟩ :: cs => by
    rw [MatchCase.checkAll]
    exact .visit (.bind (.lift _) fun _ => .bind (.lift _) fun _ => .report rfl) fun _ =>
      .visit (Stmt.checkAll_traces _ body) fun _ => MatchCase.checkAll_traces selector span env cs
end

end Statements

/-! ## Declarations -/

namespace Decl

/-- The event that tells of the start of the check of a declaration. -/
def started : Decl → Event
  | .alias d => .aliasStarted d.name d.ty
  | .method d => .methodStarted d.name d.params.length d.ret

/-- The check of a signature first reports that the declaration is come to. -/
theorem checkSignature_eq (reg : Registry) (d : Decl) :
    ∃ rest : Check Env, d.checkSignature reg = (do Check.report d.started; rest) ∧ rest.Traces := by
  rcases d with d | d
  · exact ⟨_, rfl, .bind (.lift _) fun _ => .pure _⟩
  · exact ⟨_, rfl, .bind (.lift _) fun _ => .bind (.lift _) fun _ => .pure _⟩

/-- The check of a declaration reports its start, and then trace events only. -/
theorem check_log (reg : Registry) (d : Decl) :
    ∃ rest, (d.check reg).run.log = d.started :: rest ∧ ∀ e ∈ rest, e.level = .trace := by
  obtain ⟨signature, hsignature, htraces⟩ := d.checkSignature_eq reg
  unfold check Visit.after
  -- the start stands first even if the signature fails, so it is split off before the signature
  rw [Visit.run_andThen, hsignature, bind_assoc, Check.log_bind_of_ok _ rfl]
  refine ⟨_, rfl, htraces.bind fun env => ?_⟩
  rcases d with d | d
  · exact .pure _
  · exact Stmt.checkAll_traces _ env d.body

end Decl

/-! ## Loggers -/

namespace Log

/-- No event is more urgent than debugging. -/
theorem Event.debug_le_level (e : Event) : Level.debug ≤ e.level := by
  unfold level
  split <;> decide

namespace Logger

variable {l : Logger}

/-- What is written for one list of events after another. -/
theorem writeAll_append (l : Logger) (es fs : List Event) :
    l.writeAll (es ++ fs) = l.writeAll es ++ l.writeAll fs := by
  rw [writeAll, List.map_append, String.join_append]
  rfl

/-- Events that are not let through leave no text. -/
theorem writeAll_eq_empty {es : List Event} (h : ∀ e ∈ es, l.enabled e.level = false) :
    l.writeAll es = "" := by
  induction es with
  | nil => rfl
  | cons e es ih =>
    obtain ⟨he, hes⟩ := List.forall_mem_cons.1 h
    rw [← List.singleton_append, writeAll_append, ih hes, writeAll, List.map_singleton, write, he]
    rfl

/-- A debugging logger skips what is for tracing. -/
theorem writeAll_traces (hl : l.level = .debug) {es : List Event}
    (h : ∀ e ∈ es, e.level = .trace) : l.writeAll es = "" := by
  refine writeAll_eq_empty fun e he => ?_
  rw [h e he, enabled, hl]
  rfl

/-- No event is severe enough for a logger below debugging. -/
theorem writeAll_info (hl : l.level ≤ .info) (es : List Event) : l.writeAll es = "" := by
  -- `Level` has no order but the comparison of ranks, so the chain is one of ranks
  refine writeAll_eq_empty fun e _ => decide_eq_false fun hle => ?_
  have hdebug : Level.debug.rank ≤ e.level.rank := e.debug_le_level
  have hinfo : l.level.rank ≤ Level.info.rank := hl
  have hrank : e.level.rank ≤ l.level.rank := hle
  exact absurd (hdebug.trans (hrank.trans hinfo)) (by decide)

/-- The text of lines for debugging, each with the part of the checker it comes from. -/
def debugText (l : Logger) (lines : List (Source × String)) : String :=
  String.join (lines.map fun line => l.line .debug line.1.path line.2 ++ "\n")

/-- The same for lines. -/
theorem debugText_append (l : Logger) (lines more : List (Source × String)) :
    l.debugText (lines ++ more) = l.debugText lines ++ l.debugText more := by
  rw [debugText, List.map_append, String.join_append]
  rfl

/-- A logger at the level of debugging writes a line for each event of that level. -/
theorem writeAll_debug (hl : l.level = .debug) {e : Event} (he : e.level = .debug) :
    l.writeAll [e] = l.debugText [(e.source, e.message)] := by
  have henabled : l.enabled .debug = true := by rw [enabled, hl]; rfl
  rw [writeAll, debugText, List.map_singleton, List.map_singleton, he, write, henabled]
  rfl

end Logger

end Log

/-! ## Runs of a session -/

/-- The line that tells of the start of the check of a declaration. -/
def Decl.startLine : Decl → String
  | .alias d => "checking type " ++ d.name ++ " is " ++ d.ty.render
  | .method d =>
    "checking method " ++ d.name ++ "(" ++ toString d.params.length ++ " params) -> " ++
      d.ret.render

namespace Session

/-- The line on a declaration that fails with an error. -/
def failureLine (d : Decl) (e : TypeError) : String :=
  "declaration `" ++ d.name ++ "` failed: " ++ e.message ++ " (at " ++
    Event.renderPlace (e.span.or d.span) ++ ")"

/-- The lines on a declaration that a run comes to. -/
def declLines (s : Session) (d : Decl) : List (Log.Source × String) :=
  (.declarations, d.startLine) ::
    (s.error? d).toList.map fun e => (.session, failureLine d e)

/-- The line at the end of a run. -/
def summaryLine (s : Session) (failed : Nat) : String :=
  "checked " ++ toString s.file.decls.length ++ " declarations in " ++
    s.fileName.getD "<input>" ++ ": " ++ toString failed ++ " failed"

/-- The declarations that a run comes to: all of them if it keeps going, and otherwise those up to
the first that fails. -/
def reached (s : Session) (ds : List Decl) : List Decl :=
  if s.options.keepGoing then ds else ds.take (ds.findIdx (fun d => (s.error? d).isSome) + 1)

/-- The diagnostics of the declarations that a run comes to and that fail. -/
def diagnostics (s : Session) (ds : List Decl) : List Diagnostic :=
  ((s.reached ds).filterMap s.error?).map s.diagnostic

variable {s : Session}

/-- A run goes on after a declaration that passes. -/
theorem reached_cons_of_ok {d : Decl} (ds : List Decl) (h : s.error? d = none) :
    s.reached (d :: ds) = d :: s.reached ds := by
  unfold reached
  rw [List.findIdx_cons, h]
  cases s.options.keepGoing <;> rfl

/-- It goes on after one that fails only if it is told to. -/
theorem reached_cons_of_error {d : Decl} {e : TypeError} (ds : List Decl)
    (h : s.error? d = some e) :
    s.reached (d :: ds) = if s.options.keepGoing then d :: s.reached ds else [d] := by
  unfold reached
  rw [List.findIdx_cons, h]
  cases s.options.keepGoing <;> rfl

/-- The events of a run are those of its checks one after another. -/
theorem log_checkDecls_cons_of_ok {d : Decl} (ds : List Decl) (h : s.error? d = none) :
    (s.checkDecls (d :: ds)).log = (s.checkDecl d).run.log ++ (s.checkDecls ds).log := by
  rw [error?_eq_none] at h
  rw [checkDecls, result_checkDecl, h]

/-- A run reports what the checks of the declarations it comes to report, and ends with the errors
of those that fail. -/
theorem checkDecls_reached (s : Session) (ds : List Decl) :
    (s.checkDecls ds).log = (s.reached ds).flatMap (fun d => (s.checkDecl d).run.log) ∧
      (s.checkDecls ds).errors = (s.reached ds).filterMap s.error? := by
  induction ds with
  | nil =>
    unfold reached
    cases s.options.keepGoing <;> exact ⟨rfl, rfl⟩
  | cons d ds ih =>
    cases h : s.error? d with
    | none =>
      -- a declaration that passes is among those that are come to
      rw [log_checkDecls_cons_of_ok ds h, (checkDecls_cons_of_ok ds h).1, reached_cons_of_ok ds h,
        List.flatMap_cons, List.filterMap_cons_none h, ih.1, ih.2]
      exact ⟨rfl, rfl⟩
    | some e =>
      rw [checkDecls_cons_of_error ds h, reached_cons_of_error ds h]
      -- both the run and the declarations it comes to end here, unless the run keeps going
      split
      · rw [List.flatMap_cons, List.filterMap_cons_some h, ih.1, ih.2]
        exact ⟨rfl, rfl⟩
      · rw [List.flatMap_singleton, List.filterMap_cons_some h]
        exact ⟨rfl, rfl⟩

/-- A session reports what the check reports, and then the failure if there is one. -/
theorem log_checkDecl (s : Session) (d : Decl) :
    (s.checkDecl d).run.log = (d.check s.registry).run.log ++
      (s.error? d).toList.map fun e => .declarationFailed d.name e (e.span.or d.span) := by
  unfold error?
  rw [result_checkDecl, checkDecl]
  cases (d.check s.registry).run.result with
  | ok _ => exact (List.append_nil _).symm
  | error e => rfl

section Written

variable {l : Logger} (hl : l.level = .debug)
include hl

/-- The event with which a declaration starts is for debugging. -/
theorem writeAll_started (d : Decl) :
    l.writeAll [d.started] = l.debugText [(.declarations, d.startLine)] := by
  rcases d with d | d
  · exact Logger.writeAll_debug hl rfl
  · exact Logger.writeAll_debug hl rfl

/-- Of the check of a declaration a debugging logger writes the start, and the failure if there is
one. -/
theorem writeAll_checkDecl (s : Session) (d : Decl) :
    l.writeAll (s.checkDecl d).run.log = l.debugText (s.declLines d) := by
  obtain ⟨rest, hlog, hrest⟩ := d.check_log s.registry
  have hfailure : l.writeAll ((s.error? d).toList.map fun e =>
      .declarationFailed d.name e (e.span.or d.span)) =
        l.debugText ((s.error? d).toList.map fun e => (.session, failureLine d e)) := by
    cases s.error? d with
    | none => rfl
    | some e => exact Logger.writeAll_debug hl rfl
  -- the events between the start and the failure are for tracing, and leave no line
  calc l.writeAll (s.checkDecl d).run.log
    _ = l.writeAll [d.started] ++ l.writeAll rest ++ l.writeAll ((s.error? d).toList.map fun e =>
          .declarationFailed d.name e (e.span.or d.span)) := by
        rw [log_checkDecl, hlog, ← List.singleton_append, Logger.writeAll_append,
          Logger.writeAll_append]
    _ = l.debugText [(.declarations, d.startLine)] ++
          l.debugText ((s.error? d).toList.map fun e => (.session, failureLine d e)) := by
        rw [writeAll_started hl, Logger.writeAll_traces hl hrest, String.append_empty, hfailure]
    _ = l.debugText (s.declLines d) := (l.debugText_append _ _).symm

/-- The lines of several declarations are those of each in turn. -/
theorem writeAll_flatMap (s : Session) (ds : List Decl) :
    l.writeAll (ds.flatMap fun d => (s.checkDecl d).run.log) =
      l.debugText (ds.flatMap s.declLines) := by
  induction ds with
  | nil => rfl
  | cons d ds ih =>
    rw [List.flatMap_cons, List.flatMap_cons, Logger.writeAll_append, Logger.debugText_append,
      writeAll_checkDecl hl, ih]

/-- What a debugging logger writes of the check of a file. -/
theorem writeAll_checkFile (s : Session) :
    l.writeAll s.checkFile.log =
      l.debugText ((s.reached s.file.decls).flatMap s.declLines ++
        [(.session, s.summaryLine (s.diagnostics s.file.decls).length)]) := by
  have hsummary : l.writeAll [.fileFinished s.file.decls.length s.fileName
      (s.diagnostics s.file.decls).length] =
        l.debugText [(.session, s.summaryLine (s.diagnostics s.file.decls).length)] :=
    Logger.writeAll_debug hl rfl
  obtain ⟨hlog, herrors⟩ := s.checkDecls_reached s.file.decls
  unfold checkFile
  dsimp only
  rw [Logger.writeAll_append, Logger.debugText_append, hlog, herrors, writeAll_flatMap hl]
  exact congrArg _ hsummary

end Written

/-- A debugging logger writes, for every declaration that the run over a file comes to, one line on
its start and one more if it fails, and then a line with the number of diagnostics; these stand for
the failures among the declarations it comes to. A logger below that level writes nothing, not even
of the registry. -/
theorem debug_log {f : File} {reg : Registry} (hbuild : (Registry.build f).result = .ok reg)
    (options : Options) :
    let s : Session := ⟨f, reg, options⟩
    (start f options).value = .ok s ∧
      s.checkFile.value.2 = verdict (s.diagnostics f.decls) ∧
      (∀ l : Logger, l.level = .debug → l.writeAll s.checkFile.log =
        l.debugText ((s.reached f.decls).flatMap s.declLines ++
          [(.session, s.summaryLine (s.diagnostics f.decls).length)])) ∧
      ∀ l : Logger, l.level ≤ .info →
        l.writeAll ((start f options).log ++ s.checkFile.log) = "" := by
  intro s
  refine ⟨start_of_build hbuild options, ?_, fun l hl => writeAll_checkFile hl s,
    fun l hl => Logger.writeAll_info hl _⟩
  exact congrArg (fun errors => verdict (errors.map s.diagnostic)) (s.checkDecls_reached f.decls).2

/-- A file whose second declaration fails, without a place of the error, after it has declared a
`var` variable. -/
def brokenSumFile : File where
  name := some "sum.while"
  decls := [
    .alias { name := "Count", ty := .int },
    .method
      { name := "sum", params := [], ret := .void, span := some ⟨20, 64⟩
        body := [{ form := .infer "x" .inferred { form := .constant (.int 1) } },
          { form := .print
              { form := .binary .add { form := .var "x" } { form := .constant (.bool true) } } }] },
    .alias { name := "Total", ty := .named "Count" }]

/-- The second declaration fails, which ends the run. At the level of tracing there is more to read,
and at that of information nothing. -/
theorem debug_log_brokenSum :
    let reg := Registry.ofFile brokenSumFile
    let s : Session := ⟨brokenSumFile, reg, {}⟩
    let written := fun level => (⟨level, false⟩ : Logger).writeAll s.checkFile.log
    (Registry.build brokenSumFile).result = .ok reg ∧
      written .debug =
        "[DEBUG] whilec_typecheck::check::decl: checking type Count is int\n" ++
        "[DEBUG] whilec_typecheck::check::decl: checking method sum(0 params) -> void\n" ++
        "[DEBUG] whilec_typecheck: declaration `sum` failed: " ++
          "expected instance of int, found bool (at Some(Span \x7b start: 20, end: 64 \x7d))\n" ++
        "[DEBUG] whilec_typecheck: checked 3 declarations in sum.while: 1 failed\n" ∧
      written .trace ≠ written .debug ∧
      (⟨.info, false⟩ : Logger).writeAll
        ((start brokenSumFile {}).log ++ s.checkFile.log) = "" := by
  intro reg s written
  have hbuild : (Registry.build brokenSumFile).result = .ok reg := by decide +kernel
  obtain ⟨-, -, hdebug, hinfo⟩ := debug_log hbuild {}
  -- the trace event of the `var` declaration is what the two texts differ in
  refine ⟨hbuild, (hdebug _ rfl).trans ?_, ?_, hinfo _ (by decide)⟩
  · decide +kernel
  · decide +kernel

end Session

end WhileTyping
