import Mathlib.Data.Set.Basic
import Mathlib.Tactic.FinCases
import WhileTyping.Proofs.CircularAliases
import WhileTyping.Proofs.LargerRegistry
import WhileTyping.Proofs.SecondCheck
import WhileTyping.Proofs.TypingRules
import WhileTyping.Proofs.WriteOnce

/-!
# Where errors are found

Every error of a check has a place in the declaration that is checked. The comparison of types knows
of no places, and each rule that makes use of it has to say where its error belongs. The same walk
through the rules tells which errors are internal: those of a malformed declaration.

* **`Decl.spans`**: the spans of a declaration, of its parameters, statements, `match` cases and
  expressions.
* **`Decl.Malformed`**: a declaration that no program text gives.
* **`FailsAt`**: a computation fails with errors at spans of a set only, and with an internal one
  only under a condition. The sequence of two such computations is one again.
* **`isSubtype_failsAt`**: the comparison of types fails without a place, and **`FailsAt.located`**
  gives its errors one.
* **`Expr.synth_failsAt`**, **`Stmt.check_failsAt`**, **`Decl.check_fails`**: every check fails at
  a span of what it checks, by induction on the syntax.
* **`Registry.build_fails`**: a registry that cannot be built fails at a declaration.
* **`errors_located`**: so where everything has a span, every error has one.
-/

namespace WhileTyping

/-! ## The spans of a declaration -/

def StmtForm.caseSpans : StmtForm → List (Option Span)
  | .matchType _ cases => cases.map MatchCase.span
  | _ => []

/-- The span of a statement, and those of its `match` cases. -/
def Stmt.ownSpans (s : Stmt) : List (Option Span) := s.span :: s.form.caseSpans

namespace Decl

def paramSpans : Decl → List (Option Span)
  | .alias _ => []
  | .method d => d.params.map Parameter.span

/-- The spans of a declaration and of everything in it. -/
def spans (d : Decl) : List (Option Span) :=
  d.span :: (d.paramSpans ++ d.nodes.flatMap Stmt.ownSpans ++ d.exprs.map Expr.span)

end Decl

/-- An assignment to an expression that cannot be assigned to. -/
def StmtForm.Misassigns : StmtForm → Prop
  | .assign target _ => target.isAssignable = false
  | _ => False

/-- Holds something that no program text gives: an assignment to an expression that cannot be
assigned to, or a written type in which `var` occurs. -/
def Decl.Malformed (d : Decl) : Prop :=
  (∃ s ∈ d.nodes, s.form.Misassigns) ∨ ∃ t ∈ d.writtenTypes, ¬ t.NoInferred

/-- The spans of the expressions belong to a set. -/
def ExprsIn (S : Set (Option Span)) (es : List Expr) : Prop := ∀ e ∈ es, e.span ∈ S

/-- The spans of the statements and of their `match` cases belong to a set, and one of them is a
wrong assignment only under a condition. -/
def StmtsIn (S : Set (Option Span)) (M : Prop) (ss : List Stmt) : Prop :=
  ∀ s ∈ ss, (∀ span ∈ s.ownSpans, span ∈ S) ∧ (s.form.Misassigns → M)

/-- `var` occurs in one of the types only under a condition. -/
def VarOnlyIf (M : Prop) (ts : List Ty) : Prop := ∀ t ∈ ts, ¬ t.NoInferred → M

section Spans

variable {S : Set (Option Span)} {M : Prop}

theorem exprsIn_append {es es' : List Expr} :
    ExprsIn S (es ++ es') ↔ ExprsIn S es ∧ ExprsIn S es' :=
  List.forall_mem_append

theorem stmtsIn_append {ss ss' : List Stmt} :
    StmtsIn S M (ss ++ ss') ↔ StmtsIn S M ss ∧ StmtsIn S M ss' :=
  List.forall_mem_append

theorem varOnlyIf_append {ts ts' : List Ty} :
    VarOnlyIf M (ts ++ ts') ↔ VarOnlyIf M ts ∧ VarOnlyIf M ts' :=
  List.forall_mem_append

theorem varOnlyIf_cons {t : Ty} {ts : List Ty} :
    VarOnlyIf M (t :: ts) ↔ (¬ t.NoInferred → M) ∧ VarOnlyIf M ts :=
  List.forall_mem_cons

/-- The span of an expression is one of those of its nodes. -/
theorem Expr.span_mem {e : Expr} (h : ExprsIn S e.nodes) : e.span ∈ S := by
  obtain ⟨form, span, ty⟩ := e
  rw [Expr.nodes] at h
  exact h _ List.mem_cons_self

/-- A span with another to fall back on is one of the two. -/
theorem or_mem {span span' : Option Span} (h : span ∈ S) (h' : span' ∈ S) : span.or span' ∈ S := by
  cases span with
  | none => exact h'
  | some s => exact h

/-! ## Failures at given spans -/

/-- If it fails, then with an error at a span of the set, which is internal only under the
condition. -/
def FailsAt {α : Type} (S : Set (Option Span)) (M : Prop) (r : Except TypeError α) : Prop :=
  ∀ e, r = .error e → e.span ∈ S ∧ (e.fault.isInternal = true → M)

namespace FailsAt

variable {σ τ α β : Type} {r : Except TypeError α} {span : Option Span}

theorem ok (a : α) : FailsAt S M (.ok a) := nofun

theorem error {fault : Fault} (h : span ∈ S) (hfault : fault.isInternal = true → M) :
    FailsAt S M (.error ⟨fault, span⟩ : Except TypeError α) := by
  rintro e ⟨⟩
  exact ⟨h, hfault⟩

/-- If the first part fails, it does so at its own span, and else the second part does. -/
theorem bind {k : α → Except TypeError β} (h : FailsAt S M r) (hk : ∀ a, FailsAt S M (k a)) :
    FailsAt S M (r >>= k) := by
  cases r with
  | ok a => exact hk a
  | error e =>
    rintro e' ⟨⟩
    exact h e rfl

theorem discard (h : FailsAt S M r) : FailsAt S M (Functor.discard r) := by
  cases r with
  | ok a => exact ok _
  | error e =>
    rintro e' ⟨⟩
    exact h e rfl

theorem mapError {r : Except Fault α} (h : span ∈ S)
    (hfault : ∀ fault, r = .error fault → fault.isInternal = true → M) :
    FailsAt S M (r.mapError fun fault => ⟨fault, span⟩) := by
  cases r with
  | ok a => exact ok a
  | error fault => exact error h (hfault fault rfl)

/-- An error without a place gets the place that it is given. -/
theorem located (h : FailsAt {none} M r) (hspan : span ∈ S) :
    FailsAt S M (WhileTyping.located span r) := by
  cases r with
  | ok a => exact ok a
  | error e =>
    obtain ⟨hnone, hfault⟩ := h e rfl
    rintro e' ⟨⟩
    refine ⟨?_, hfault⟩
    show e.span.or span ∈ S
    rw [hnone]
    exact hspan

/-- The same for checks that report events. -/
theorem check {c : Check α} {k : α → Check β} (h : FailsAt S M c.result)
    (hk : ∀ a, FailsAt S M (k a).result) : FailsAt S M (c >>= k).result := by
  rw [Check.result_bind]
  exact h.bind hk

theorem checkDiscard {c : Check α} (h : FailsAt S M c.result) :
    FailsAt S M (Functor.discard c).result :=
  check h fun _ => ok _

/-- The same for visits, the second of which depends on what the first leaves. -/
theorem visit {v : Visit σ α} {stop : σ → τ} {next : σ → α → Visit τ β}
    (h : FailsAt S M v.run.result) (hnext : ∀ a, FailsAt S M (next v.left a).run.result) :
    FailsAt S M (v.andThen stop next).run.result := by
  rw [Visit.run_andThen]
  exact check h hnext

end FailsAt

/-! ## Rules on types -/

namespace Registry

variable (reg : Registry) {span : Option Span}

/-- A comparison fails without a place, for the rule that makes it to give one. -/
theorem isSubtype_failsAt (sup sub : Ty) : FailsAt {none} M (reg.isSubtype sup sub) := by
  intro e he
  obtain ⟨n, rfl, -, -⟩ := reaches_of_isSubtype_eq_error he
  exact ⟨rfl, nofun⟩

theorem equivalent_failsAt (s t : Ty) : FailsAt {none} M (reg.equivalent s t) := by
  intro e he
  obtain ⟨n, rfl, -, -⟩ := reaches_of_equivalent_eq_error he
  exact ⟨rfl, nofun⟩

/-- A rule that compares two types gives the comparison its own span. -/
theorem expectSubtype_failsAt (sup sub : Ty) (h : span ∈ S) :
    FailsAt S M (reg.expectSubtype sup sub span) := by
  refine ((reg.isSubtype_failsAt sup sub).located h).bind fun below => ?_
  cases below with
  | true => exact .ok _
  | false => exact .error h nofun

/-- Expansion fails only at a name that is not declared. -/
theorem expandUpTo_eq_error {k : Nat} {t : Ty} {fault : Fault}
    (h : reg.expandUpTo k t = .error fault) : ∃ n, fault = .unknownType n := by
  fun_induction expandUpTo reg k t with
  | case1 => cases h
  | case2 k n body hbody ih => exact ih h
  | case3 k n hnone =>
    cases h
    exact ⟨n, rfl⟩
  | case4 => cases h

/-- So expansion is never to blame for a tree that is malformed. -/
theorem expand_failsAt (t : Ty) (h : span ∈ S) : FailsAt S M (reg.expand t span) := by
  refine .mapError h fun fault hfault => ?_
  obtain ⟨n, rfl⟩ := reg.expandUpTo_eq_error hfault
  exact nofun

theorem expectKind_failsAt (t : Ty) (kinds : KindSet) (h : span ∈ S) :
    FailsAt S M (reg.expectKind t kinds span) := by
  refine (reg.expand_failsAt t h).bind fun expanded => ?_
  split
  · exact .ok _
  · exact .error h nofun

theorem expectNoVoid_failsAt (t : Ty) (h : span ∈ S) : FailsAt S M (t.expectNoVoid span) := by
  unfold Ty.expectNoVoid
  split
  · exact .error h nofun
  · exact .ok _

/-- A failure of a record type that is not about its names is one of its fields. -/
theorem wellFormedFields_eq_error {fs : List Field} {seen : List String} {fault : Fault}
    (h : reg.wellFormedFields seen fs = .error fault) (hinternal : fault.isInternal = true) :
    ∃ f ∈ fs, reg.wellFormed f.ty = .error fault := by
  induction fs generalizing seen with
  | nil => cases h
  | cons f fs ih =>
    obtain ⟨n, t⟩ := f
    rw [wellFormedFields] at h
    split at h
    · -- a name that comes twice is not an internal failure
      cases h
      cases hinternal
    · cases ht : reg.wellFormed t with
      | error fault' =>
        rw [ht] at h
        cases h
        exact ⟨_, List.mem_cons_self, ht⟩
      | ok =>
        rw [ht] at h
        obtain ⟨f, hf, herror⟩ := ih h
        exact ⟨f, List.mem_cons_of_mem _ hf, herror⟩

/-- A failure of several types is that of one of them. -/
theorem wellFormedAll_eq_error {ts : List Ty} {fault : Fault}
    (h : reg.wellFormedAll ts = .error fault) : ∃ t ∈ ts, reg.wellFormed t = .error fault := by
  induction ts with
  | nil => cases h
  | cons t ts ih =>
    rw [wellFormedAll] at h
    cases ht : reg.wellFormed t with
    | error fault' =>
      rw [ht] at h
      cases h
      exact ⟨t, List.mem_cons_self, ht⟩
    | ok =>
      rw [ht] at h
      obtain ⟨t, ht, herror⟩ := ih h
      exact ⟨t, List.mem_cons_of_mem _ ht, herror⟩

/-- Of the faults of a written type, only `var` is internal. -/
theorem not_noInferred_of_wellFormed {t : Ty} {fault : Fault}
    (h : reg.wellFormed t = .error fault) (hinternal : fault.isInternal = true) :
    ¬ t.NoInferred := by
  induction t with
  | void | bool | char | int | string => cases h
  -- the one internal failure there is
  | inferred => exact fun hno => hno.here rfl
  | array e ih => exact fun hno => ih h hno.element
  | record fs ih =>
    obtain ⟨f, hf, herror⟩ := reg.wellFormedFields_eq_error h hinternal
    exact fun hno => ih f hf herror (hno.field hf)
  | named n =>
    rw [wellFormed] at h
    split at h
    · cases h
    · cases h
      cases hinternal
  | union ts ih =>
    obtain ⟨t, ht, herror⟩ := reg.wellFormedAll_eq_error h
    exact fun hno => ih t ht herror (hno.member ht)

/-- A written type fails where it is written, and internally only if it holds `var`. -/
theorem expectValueType_failsAt (t : Ty) (h : span ∈ S) (hvar : ¬ t.NoInferred → M) :
    FailsAt S M (reg.expectValueType t span) := by
  refine .bind (.mapError h fun fault hfault hinternal => ?_) fun _ => expectNoVoid_failsAt t h
  exact hvar (reg.not_noInferred_of_wellFormed hfault hinternal)

/-- The same for the type that a method returns, which may be `void`. -/
theorem expectReturnType_failsAt (t : Ty) (h : span ∈ S) (hvar : ¬ t.NoInferred → M) :
    FailsAt S M (reg.expectReturnType t span) := by
  unfold expectReturnType
  split
  · exact .ok _
  · exact reg.expectValueType_failsAt t h hvar

/-- A least upper bound that does not exist is reported at the given span. -/
theorem raiseBound_failsAt (bound : Ty) (ts : List Ty) (h : span ∈ S) :
    FailsAt S M (reg.raiseBound span bound ts).result := by
  induction ts generalizing bound with
  | nil => exact .ok _
  | cons t ts ih =>
    unfold raiseBound
    refine .check ((reg.isSubtype_failsAt t bound).located h) fun above => ?_
    cases above with
    | true => exact .check (.ok _) fun _ => ih t
    | false => exact .check (reg.expectSubtype_failsAt bound t h) fun _ => ih bound

theorem recordsOf?_failsAt (ts : List Ty) (h : span ∈ S) :
    FailsAt S M (reg.recordsOf? span ts) := by
  induction ts with
  | nil => exact .ok _
  | cons t ts ih =>
    unfold recordsOf?
    refine (reg.expand_failsAt t h).bind fun expanded => ?_
    split
    · exact ih.bind fun _ => .ok _
    · exact .ok _

theorem widenField_failsAt (f g : Field) (h : span ∈ S) :
    FailsAt S M (reg.widenField span f g) := by
  refine ((reg.equivalent_failsAt f.ty g.ty).located h).bind fun same => ?_
  cases same <;> exact .ok _

theorem meetFields_failsAt (record fs : List Field) (h : span ∈ S) :
    FailsAt S M (reg.meetFields span record fs) := by
  induction fs with
  | nil => exact .ok _
  | cons f fs ih =>
    unfold meetFields
    split
    · exact ih
    · exact (reg.widenField_failsAt f _ h).bind fun _ => ih.bind fun _ => .ok _

/-- Meeting the fields of several records only compares types. -/
theorem meetAll_failsAt (fields : List Field) (records : List (List Field)) (h : span ∈ S) :
    FailsAt S M (reg.meetAll span fields records) := by
  induction records generalizing fields with
  | nil => exact .ok _
  | cons record records ih => exact (reg.meetFields_failsAt record fields h).bind fun _ => ih _

theorem commonRecord_failsAt (records : List (List Field)) (h : span ∈ S) :
    FailsAt S M (reg.commonRecord records span).result := by
  unfold commonRecord
  split
  · exact .ok _
  · refine .check (reg.meetAll_failsAt _ _ h) fun common => ?_
    split <;> exact .check (.ok _) fun _ => .ok _

/-- The record in which a field is looked up is found, or is missing at the given span. -/
theorem accessTarget_failsAt (source : Ty) (field : String) (h : span ∈ S) :
    FailsAt S M (reg.accessTarget source field span).result := by
  unfold accessTarget
  refine .check (reg.expand_failsAt source h) fun expanded => ?_
  split
  · refine .check (reg.recordsOf?_failsAt _ h) fun records => ?_
    split
    · refine .check (.ok _) fun _ => .check (reg.commonRecord_failsAt _ h) fun record => ?_
      split
      · exact .ok _
      · exact .error h fun hinternal => absurd hinternal Bool.false_ne_true
    · exact .ok _
  · exact .ok _

/-- A field fails at the span of the record, if there is none, or at its own. -/
theorem fieldType_failsAt (source : Ty) (field : String) {sourceSpan : Option Span}
    (hsource : sourceSpan ∈ S) (h : span ∈ S) :
    FailsAt S M (reg.fieldType source sourceSpan field span).result := by
  unfold fieldType
  refine .check (reg.accessTarget_failsAt source field h) fun target => ?_
  refine .check (reg.expectKind_failsAt target _ hsource) fun record => ?_
  split
  · exact .ok _
  · exact .error h fun hinternal => absurd hinternal Bool.false_ne_true

/-- What passes as a sequence is an array or a string. -/
theorem elementType_failsAt (source position : Ty) {sourceSpan positionSpan : Option Span}
    (hsource : sourceSpan ∈ S) (hposition : positionSpan ∈ S) :
    FailsAt S M (reg.elementType source position sourceSpan positionSpan span) := by
  refine (reg.expectKind_failsAt position _ hposition).discard.bind fun _ => ?_
  cases hkind : reg.expectKind source .sequence sourceSpan with
  | error e => exact fun _ he => reg.expectKind_failsAt source _ hsource _ (hkind.trans he)
  | ok expanded =>
    obtain ⟨-, haccepts⟩ := expectKind_eq_ok hkind
    cases expanded with
    | array | string => exact .ok _
    | void | bool | char | int | record | named | union | inferred => cases haccepts

end Registry

/-- An operand fails at its own span. -/
theorem BinaryOp.resultType_failsAt (op : BinaryOp) (reg : Registry) (lt rt : Ty)
    {lspan rspan : Option Span} (hl : lspan ∈ S) (hr : rspan ∈ S) :
    FailsAt S M (op.resultType reg lt rt lspan rspan) := by
  have hoperands : ∀ kind, FailsAt S M (reg.expectOperands kind lt rt lspan rspan) := fun kind =>
    (reg.expectKind_failsAt lt _ hl).discard.bind fun _ => (reg.expectKind_failsAt rt _ hr).discard
  cases op
  case eq | ne => exact .ok _
  all_goals exact (hoperands _).bind fun _ => .ok _

theorem UnaryOp.resultType_failsAt (op : UnaryOp) (reg : Registry) (t : Ty) {span : Option Span}
    (h : span ∈ S) : FailsAt S M (op.resultType reg t span) := by
  cases op
  all_goals exact (reg.expectKind_failsAt t _ h).discard.bind fun _ => .ok _

mutual
/-- A constant has one span for all that it holds. -/
theorem Value.typeOf_failsAt (reg : Registry) {span : Option Span} (h : span ∈ S) : ∀ v : Value,
    FailsAt S M (v.typeOf reg span).result
  | .bool _ | .char _ | .int _ | .string _ => .ok _
  | .array vs => by
    rw [Value.typeOf]
    exact .check (Value.typesOf_failsAt reg h vs) fun ts =>
      .check (reg.raiseBound_failsAt .void ts h) fun _ => .ok _
  | .record es => by
    rw [Value.typeOf]
    exact .check (Value.fieldsOf_failsAt reg h [] es) fun _ => .ok _

theorem Value.typesOf_failsAt (reg : Registry) {span : Option Span} (h : span ∈ S) :
    ∀ vs : List Value, FailsAt S M (Value.typesOf reg span vs).result
  | [] => .ok _
  | v :: vs => by
    rw [Value.typesOf]
    exact .check (Value.typeOf_failsAt reg h v) fun _ =>
      .check (Value.typesOf_failsAt reg h vs) fun _ => .ok _

theorem Value.fieldsOf_failsAt (reg : Registry) {span : Option Span} (h : span ∈ S) :
    ∀ (seen : List String) (es : List Entry), FailsAt S M (Value.fieldsOf reg span seen es).result
  | _, [] => .ok _
  | seen, ⟨n, v⟩ :: es => by
    rw [Value.fieldsOf]
    split
    · exact .error h nofun
    · exact .check (Value.typeOf_failsAt reg h v) fun _ =>
        .check (Value.fieldsOf_failsAt reg h _ es) fun _ => .ok _
end

/-- A call fails at its own span, or where its arguments do. -/
theorem checkCall_failsAt (reg : Registry) (method : String) (args : List Expr)
    {span : Option Span} (valueRequired : Bool) {visitArgs : List Ty → Visit (List Expr) Unit}
    (h : span ∈ S) (hargs : ∀ params, FailsAt S M (visitArgs params).run.result) :
    FailsAt S M (checkCall reg method args span valueRequired visitArgs).run.result := by
  unfold checkCall
  split
  · exact .error h nofun
  · split
    · refine .visit (hargs _) fun _ => ?_
      cases valueRequired with
      | true => exact .check (Registry.expectNoVoid_failsAt _ h) fun _ => .ok _
      | false => exact .ok _
    · exact .error h nofun

/-! ## Expressions -/

section Expressions

variable (reg : Registry) (env : Env)

/-- The rules report at the spans of the operands as the visits of the operands leave them. -/
theorem Expr.span_synth (e : Expr) : (e.synth reg env).left.span = e.span := by
  obtain ⟨form, span, _ | t⟩ := e
  · rw [Expr.synth]
    exact Visit.left_andThen_of (P := fun e : Expr => e.span = span) rfl fun _ _ => rfl
  · rfl

mutual
/-- An expression fails at the span of one of its nodes. -/
theorem Expr.synth_failsAt : ∀ e : Expr, ExprsIn S e.nodes →
    FailsAt S M (e.synth reg env).run.result
  | ⟨form, span, some t⟩, _ => .ok t
  | ⟨form, span, none⟩, h => by
    rw [Expr.nodes] at h
    obtain ⟨hspan, hform⟩ := List.forall_mem_cons.1 h
    rw [Expr.synth]
    exact .visit (ExprForm.synth_failsAt hspan form hform) fun _ => .ok _

/-- By cases on the expression. The operands are left with the spans they had. -/
theorem ExprForm.synth_failsAt {span : Option Span} (hspan : span ∈ S) : ∀ form : ExprForm,
    ExprsIn S (Expr.nodesForm form) → FailsAt S M (form.synth reg env span).run.result
  | .binary op l r, h => by
    rw [Expr.nodesForm, exprsIn_append] at h
    rw [ExprForm.synth]
    refine .visit (Expr.synth_failsAt l h.1) fun lt =>
      .visit (Expr.synth_failsAt r h.2) fun rt => ?_
    -- the rule is given the spans of the trees that are left
    rw [Expr.span_synth, Expr.span_synth]
    exact op.resultType_failsAt reg lt rt (Expr.span_mem h.1) (Expr.span_mem h.2)
  | .constant v, _ => v.typeOf_failsAt reg hspan
  | .index source position, h => by
    rw [Expr.nodesForm, exprsIn_append] at h
    rw [ExprForm.synth]
    refine .visit (Expr.synth_failsAt source h.1) fun st =>
      .visit (Expr.synth_failsAt position h.2) fun pt => ?_
    rw [Expr.span_synth, Expr.span_synth]
    exact reg.elementType_failsAt st pt (Expr.span_mem h.1) (Expr.span_mem h.2)
  | .call method args, h => by
    rw [ExprForm.synth]
    exact checkCall_failsAt reg method args true hspan fun params =>
      Expr.synthArgs_failsAt hspan params args h
  | .fill value size, h => by
    rw [Expr.nodesForm, exprsIn_append] at h
    rw [ExprForm.synth]
    refine .visit (Expr.synth_failsAt value h.1) fun t =>
      .visit (Expr.synth_failsAt size h.2) fun st => ?_
    rw [Expr.span_synth]
    exact .check (.checkDiscard (reg.expectKind_failsAt st _ (Expr.span_mem h.2))) fun _ => .ok _
  | .array items, h => by
    rw [ExprForm.synth]
    exact .visit (Expr.synthAll_failsAt items h) fun ts =>
      .check (reg.raiseBound_failsAt .void ts hspan) fun _ => .ok _
  | .field source name, h => by
    rw [ExprForm.synth]
    refine .visit (Expr.synth_failsAt source h) fun st => ?_
    rw [Expr.span_synth]
    exact reg.fieldType_failsAt st name (Expr.span_mem h) hspan
  | .record fields, h => by
    rw [ExprForm.synth]
    exact .visit (FieldInit.synthAll_failsAt hspan [] fields h) fun _ => .ok _
  | .unary op operand, h => by
    rw [ExprForm.synth]
    refine .visit (Expr.synth_failsAt operand h) fun t => ?_
    rw [Expr.span_synth]
    exact op.resultType_failsAt reg t (Expr.span_mem h)
  | .var x, _ => by
    rw [ExprForm.synth]
    dsimp only
    split
    · exact .ok _
    · -- a variable that is not declared is blamed on its use
      exact .error hspan nofun

theorem Expr.synthAll_failsAt : ∀ es : List Expr, ExprsIn S (Expr.nodesAll es) →
    FailsAt S M (Expr.synthAll reg env es).run.result
  | [], _ => .ok _
  | e :: es, h => by
    rw [Expr.nodesAll, exprsIn_append] at h
    rw [Expr.synthAll]
    exact .visit (Expr.synth_failsAt e h.1) fun _ =>
      .visit (Expr.synthAll_failsAt es h.2) fun _ => .ok _

/-- An argument that is missing or does not fit is reported at the call. -/
theorem Expr.synthArgs_failsAt {span : Option Span} (hspan : span ∈ S) : ∀ (params : List Ty)
    (es : List Expr), ExprsIn S (Expr.nodesAll es) →
      FailsAt S M (Expr.synthArgs reg env span params es).run.result
  | _, [], _ => by
    rw [Expr.synthArgs]
    exact .ok _
  | [], e :: es, _ => by
    rw [Expr.synthArgs]
    exact .ok _
  | p :: ps, e :: es, h => by
    rw [Expr.nodesAll, exprsIn_append] at h
    rw [Expr.synthArgs]
    refine .visit (Expr.synth_failsAt e h.1) fun t => ?_
    -- an argument without a span is blamed on the call
    rw [Expr.span_synth]
    exact .visit (reg.expectSubtype_failsAt p t (or_mem (Expr.span_mem h.1) hspan)) fun _ =>
      Expr.synthArgs_failsAt hspan ps es h.2

/-- A name that comes twice is reported at the record. -/
theorem FieldInit.synthAll_failsAt {span : Option Span} (hspan : span ∈ S) : ∀ (seen : List String)
    (fs : List FieldInit), ExprsIn S (Expr.nodesFields fs) →
      FailsAt S M (FieldInit.synthAll reg env span seen fs).run.result
  | _, [], _ => .ok _
  | seen, ⟨n, e⟩ :: fs, h => by
    rw [Expr.nodesFields, exprsIn_append] at h
    rw [FieldInit.synthAll]
    split
    · exact .error (or_mem (Expr.span_mem h.1) hspan) nofun
    · exact .visit (Expr.synth_failsAt e h.1) fun _ =>
        .visit (FieldInit.synthAll_failsAt hspan _ fs h.2) fun _ => .ok _
end

end Expressions

/-! ## Statements -/

/-! The types that the arms of a branch leave are compared without a place. -/

namespace Env

variable (reg : Registry)

/-- Joining the types of two arms fails without a place, as a comparison does. -/
theorem joinTypes_failsAt (left right : Ty) : FailsAt {none} M (joinTypes reg left right) := by
  refine (reg.equivalent_failsAt left right).bind fun same => ?_
  cases same with
  | true => exact .ok _
  | false =>
    refine (reg.isSubtype_failsAt left right).bind fun above => ?_
    cases above with
    | true => exact .ok _
    | false =>
      refine (reg.isSubtype_failsAt right left).bind fun below => ?_
      cases below <;> exact .ok _

theorem mergeBinding_failsAt (left right : Env) (name : String) (b : Binding) :
    FailsAt {none} M (mergeBinding reg left right name b).result := by
  unfold mergeBinding
  split
  · exact .check (joinTypes_failsAt reg _ _) fun _ => .check (.ok _) fun _ => .ok _
  · exact .ok _

theorem mergeName_failsAt (left right env : Env) (name : String) :
    FailsAt {none} M (mergeName reg left right env name).run.result := by
  unfold mergeName
  split
  · exact .ok _
  · exact .visit (mergeBinding_failsAt reg left right name _) fun _ => .ok _

theorem mergeNames_failsAt (left right env : Env) (names : List String) :
    FailsAt {none} M (mergeNames reg left right env names).run.result := by
  induction names generalizing env with
  | nil => exact .ok _
  | cons name names ih => exact .visit (mergeName_failsAt reg left right env name) fun _ => ih _

/-- So does merging, for the statement to give it one. -/
theorem merge_failsAt (env left right : Env) :
    FailsAt {none} M (env.merge reg left right).run.result :=
  mergeNames_failsAt reg left right env _

end Env

section Statements

variable (ctx : Context)

/-- A condition fails at the span of one of its nodes. -/
theorem Expr.checkCondition_failsAt (env : Env) {e : Expr} (h : ExprsIn S e.nodes) :
    FailsAt S M (e.checkCondition ctx env).run.result := by
  refine .visit (Expr.synth_failsAt ctx.registry env e h) fun t => ?_
  rw [Expr.span_synth]
  exact .checkDiscard (ctx.registry.expectKind_failsAt t _ (Expr.span_mem h))

/-- A declaration fails at its statement, or where its initial value does. -/
theorem VarDecl.check_failsAt (env : Env) {d : VarDecl} {span : Option Span} (hspan : span ∈ S)
    (hvar : ¬ d.ty.NoInferred → M) (h : ExprsIn S (Stmt.optionExprs d.init)) :
    FailsAt S M (d.check ctx env span).run.result := by
  unfold VarDecl.check
  split
  · exact .error hspan nofun
  · refine .visit (ctx.registry.expectValueType_failsAt d.ty hspan hvar) fun _ => ?_
    split
    · exact .ok _
    · rename_i e he
      rw [he] at h
      refine .visit (Expr.synth_failsAt ctx.registry env e h) fun t => ?_
      rw [Expr.span_synth]
      exact ctx.registry.expectSubtype_failsAt d.ty t (or_mem (Expr.span_mem h) hspan)

/-- A value that does not fit its target is reported at the value. -/
theorem Expr.store_failsAt (env : Env) (target : Expr) (targetTy valueTy : Ty)
    {span : Option Span} (hspan : span ∈ S) :
    FailsAt S M (target.store ctx env targetTy valueTy span).run.result := by
  have hexpect : FailsAt S M (ctx.registry.expectSubtype targetTy valueTy span) :=
    ctx.registry.expectSubtype_failsAt targetTy valueTy hspan
  -- taking on a type never fails
  have hrefine : ∀ x, FailsAt S M (env.refine x valueTy).run.result := by
    intro x
    unfold Env.refine
    split
    · split <;> exact .ok _
    · exact .ok _
  unfold Expr.store
  split
  · refine .visit (hrefine _) fun refined => ?_
    split
    · exact .ok _
    · exact hexpect
  · exact hexpect

mutual
/-- A statement fails at one of its own spans, or of those in it. It fails internally only if an
assignment has no target or a written type holds `var`. -/
theorem Stmt.check_failsAt (env : Env) : ∀ s : Stmt, StmtsIn S M s.nodes → ExprsIn S s.exprs →
    VarOnlyIf M s.writtenTypes → FailsAt S M (s.check ctx env).run.result
  | ⟨form, span⟩, hstmts, hexprs, hvars => by
    rw [Stmt.nodes] at hstmts
    obtain ⟨⟨hown, hassign⟩, hstmts⟩ := List.forall_mem_cons.1 hstmts
    obtain ⟨hspan, hcases⟩ := List.forall_mem_cons.1 hown
    rw [Stmt.check]
    exact StmtForm.check_failsAt env hspan form hcases hassign hstmts hexprs hvars

/-- By cases on the statement. -/
theorem StmtForm.check_failsAt (env : Env) {span : Option Span} (hspan : span ∈ S) :
    ∀ form : StmtForm, (∀ span ∈ form.caseSpans, span ∈ S) → (form.Misassigns → M) →
      StmtsIn S M (Stmt.nodesForm form) → ExprsIn S (Stmt.exprsForm form) →
        VarOnlyIf M (Stmt.writtenForm form) → FailsAt S M (form.check ctx env span).run.result
  | .breakLoop, _, _, _, _, _ | .continueLoop, _, _, _, _, _ => .ok _
  | .assert e, _, _, _, hexprs, _ => Expr.checkCondition_failsAt ctx env hexprs
  | .assign target value, _, hassign, _, hexprs, _ => by
    rw [Stmt.exprsForm, exprsIn_append] at hexprs
    unfold StmtForm.check
    split
    · -- a value that does not fit is blamed, not its target
      refine .visit (Expr.synth_failsAt ctx.registry env target hexprs.1) fun lt =>
        .visit (Expr.synth_failsAt ctx.registry env value hexprs.2) fun rt => ?_
      rw [Expr.span_synth]
      exact Expr.store_failsAt ctx env _ lt rt (Expr.span_mem hexprs.2)
    · rename_i htarget
      exact .error (Expr.span_mem hexprs.1) fun _ => hassign (Bool.eq_false_of_not_eq_true htarget)
  | .forLoop d condition step body, _, _, hstmts, hexprs, hvars => by
    rw [Stmt.nodesForm, stmtsIn_append] at hstmts
    rw [Stmt.exprsForm, exprsIn_append, exprsIn_append, exprsIn_append] at hexprs
    rw [Stmt.writtenForm, varOnlyIf_cons, varOnlyIf_append] at hvars
    obtain ⟨⟨⟨hinit, hcondition⟩, hstep⟩, hbody⟩ := hexprs
    rw [StmtForm.check]
    exact .visit (d.check_failsAt ctx env hspan hvars.1 hinit) fun _ =>
      .visit (Expr.checkCondition_failsAt ctx _ hcondition) fun _ =>
        .visit (Stmt.check_failsAt _ step hstmts.1 hstep hvars.2.1) fun _ =>
          Stmt.checkAll_failsAt _ body hstmts.2 hbody hvars.2.2
  | .ifElse condition onTrue onFalse, _, _, hstmts, hexprs, hvars => by
    rw [Stmt.nodesForm, stmtsIn_append] at hstmts
    rw [Stmt.exprsForm, exprsIn_append, exprsIn_append] at hexprs
    rw [Stmt.writtenForm, varOnlyIf_append] at hvars
    obtain ⟨⟨hcondition, htrue⟩, hfalse⟩ := hexprs
    rw [StmtForm.check]
    exact .visit (Expr.checkCondition_failsAt ctx env hcondition) fun _ =>
      .visit (Stmt.checkAll_failsAt env onTrue hstmts.1 htrue hvars.1) fun _ =>
        .visit (Stmt.checkAll_failsAt env onFalse hstmts.2 hfalse hvars.2) fun _ =>
          (Env.merge_failsAt ctx.registry env _ _).located hspan
  | .call method args, _, _, _, hexprs, _ => by
    rw [StmtForm.check]
    exact .visit (checkCall_failsAt ctx.registry method args false hspan fun params =>
      Expr.synthArgs_failsAt ctx.registry env hspan params args hexprs) fun _ => .ok _
  | .print e, _, _, _, hexprs, _ => by
    rw [StmtForm.check]
    exact .visit (Expr.synth_failsAt ctx.registry env e hexprs) fun _ => .ok _
  | .ret (some e), _, _, _, hexprs, _ => by
    rw [StmtForm.check]
    refine .visit (Expr.synth_failsAt ctx.registry env e hexprs) fun t => ?_
    rw [Expr.span_synth]
    exact ctx.registry.expectSubtype_failsAt ctx.ret t (Expr.span_mem hexprs)
  -- there is no expression to blame, so the statement is
  | .ret none, _, _, _, _, _ => by
    rw [StmtForm.check]
    refine .check (ctx.registry.expand_failsAt ctx.ret hspan) fun expanded => ?_
    split
    · exact .ok _
    · exact .error hspan nofun
  | .switchOn selector cases, _, _, hstmts, hexprs, hvars => by
    rw [Stmt.exprsForm, exprsIn_append] at hexprs
    rw [StmtForm.check]
    exact .visit (Expr.synth_failsAt ctx.registry env selector hexprs.1) fun t =>
      SwitchCase.checkAll_failsAt t env cases hstmts hexprs.2 hvars
  | .matchType selector cases, hcases, _, hstmts, hexprs, hvars => by
    rw [Stmt.exprsForm, exprsIn_append] at hexprs
    rw [StmtForm.check]
    exact .visit (Expr.synth_failsAt ctx.registry env selector hexprs.1) fun t =>
      MatchCase.checkAll_failsAt t hspan env cases hcases hstmts hexprs.2 hvars
  | .declare d, _, _, _, hexprs, hvars => by
    rw [Stmt.writtenForm, varOnlyIf_cons] at hvars
    rw [StmtForm.check]
    exact .visit (d.check_failsAt ctx env hspan hvars.1 hexprs) fun _ => .ok _
  -- a name that is taken and a cell that is full are both blamed on the statement
  | .infer x cell init, _, _, _, hexprs, _ => by
    unfold StmtForm.check
    split
    · exact .error hspan nofun
    · refine .visit (Expr.synth_failsAt ctx.registry env init hexprs) fun t => ?_
      split
      · exact .ok _
      · exact .error hspan nofun
  | .whileLoop condition body, _, _, hstmts, hexprs, hvars => by
    rw [Stmt.exprsForm, exprsIn_append] at hexprs
    rw [StmtForm.check]
    exact .visit (Expr.checkCondition_failsAt ctx env hexprs.1) fun _ =>
      Stmt.checkAll_failsAt env body hstmts hexprs.2 hvars

theorem Stmt.checkAll_failsAt (env : Env) : ∀ ss : List Stmt, StmtsIn S M (Stmt.nodesAll ss) →
    ExprsIn S (Stmt.exprsAll ss) → VarOnlyIf M (Stmt.writtenAll ss) →
      FailsAt S M (Stmt.checkAll ctx env ss).run.result
  | [], _, _, _ => .ok _
  | s :: ss, hstmts, hexprs, hvars => by
    rw [Stmt.nodesAll, stmtsIn_append] at hstmts
    rw [Stmt.exprsAll, exprsIn_append] at hexprs
    rw [Stmt.writtenAll, varOnlyIf_append] at hvars
    rw [Stmt.checkAll]
    exact .visit (Stmt.check_failsAt env s hstmts.1 hexprs.1 hvars.1) fun _ =>
      Stmt.checkAll_failsAt _ ss hstmts.2 hexprs.2 hvars.2

theorem SwitchCase.checkAll_failsAt (selector : Ty) (env : Env) : ∀ cs : List SwitchCase,
    StmtsIn S M (Stmt.nodesSwitch cs) → ExprsIn S (Stmt.exprsSwitch cs) →
      VarOnlyIf M (Stmt.writtenSwitch cs) →
        FailsAt S M (SwitchCase.checkAll ctx selector env cs).run.result
  | [], _, _, _ => .ok _
  | ⟨none, body⟩ :: cs, hstmts, hexprs, hvars => by
    rw [Stmt.nodesSwitch, stmtsIn_append] at hstmts
    rw [Stmt.exprsSwitch, exprsIn_append, exprsIn_append] at hexprs
    rw [Stmt.writtenSwitch, varOnlyIf_append] at hvars
    obtain ⟨⟨-, hbody⟩, hcs⟩ := hexprs
    rw [SwitchCase.checkAll]
    exact .visit (Stmt.checkAll_failsAt env body hstmts.1 hbody hvars.1) fun _ =>
      SwitchCase.checkAll_failsAt selector _ cs hstmts.2 hcs hvars.2
  -- the value of a case is blamed if it does not fit the selector
  | ⟨some e, body⟩ :: cs, hstmts, hexprs, hvars => by
    rw [Stmt.nodesSwitch, stmtsIn_append] at hstmts
    rw [Stmt.exprsSwitch, exprsIn_append, exprsIn_append] at hexprs
    rw [Stmt.writtenSwitch, varOnlyIf_append] at hvars
    obtain ⟨⟨he, hbody⟩, hcs⟩ := hexprs
    rw [SwitchCase.checkAll]
    refine .visit (Expr.synth_failsAt ctx.registry env e he) fun t => ?_
    rw [Expr.span_synth]
    exact .visit (ctx.registry.expectSubtype_failsAt selector t (Expr.span_mem he)) fun _ =>
      .visit (Stmt.checkAll_failsAt env body hstmts.1 hbody hvars.1) fun _ =>
        SwitchCase.checkAll_failsAt selector _ cs hstmts.2 hcs hvars.2

/-- A case that names a type has a span of its own for it. -/
theorem MatchCase.checkAll_failsAt (selector : Ty) {span : Option Span} (hspan : span ∈ S)
    (env : Env) : ∀ cs : List MatchCase, (∀ span ∈ cs.map MatchCase.span, span ∈ S) →
      StmtsIn S M (Stmt.nodesMatch cs) → ExprsIn S (Stmt.exprsMatch cs) →
        VarOnlyIf M (Stmt.writtenMatch cs) →
          FailsAt S M (MatchCase.checkAll ctx selector span env cs).run.result
  | [], _, _, _, _ => .ok _
  | ⟨t, x, body, caseSpan⟩ :: cs, hcases, hstmts, hexprs, hvars => by
    obtain ⟨hcase, hcases⟩ := List.forall_mem_cons.1 hcases
    rw [Stmt.nodesMatch, stmtsIn_append] at hstmts
    rw [Stmt.exprsMatch, exprsIn_append] at hexprs
    rw [Stmt.writtenMatch, varOnlyIf_cons, varOnlyIf_append] at hvars
    obtain ⟨hvar, hbody, hcs⟩ := hvars
    -- a case without a span is blamed on the statement
    have hplace : caseSpan.or span ∈ S := or_mem hcase hspan
    rw [MatchCase.checkAll]
    refine .visit ?_ fun _ => .visit (Stmt.checkAll_failsAt _ body hstmts.1 hexprs.1 hbody) fun _ =>
      MatchCase.checkAll_failsAt selector hspan env cs hcases hstmts.2 hexprs.2 hcs
    exact .check (ctx.registry.expectValueType_failsAt t hplace hvar) fun _ =>
      .check (ctx.registry.expectSubtype_failsAt selector t hplace) fun _ => .ok _
end

end Statements

/-! ## Declarations -/

/-- A parameter fails at its own span, and a name that comes twice at the method. -/
theorem Parameter.bindAll_failsAt (reg : Registry) {span : Option Span} (hspan : span ∈ S)
    (env : Env) {ps : List Parameter} (hps : ∀ p ∈ ps, p.span ∈ S)
    (hvars : VarOnlyIf M (ps.map Parameter.ty)) :
    FailsAt S M (Parameter.bindAll reg span env ps) := by
  induction ps generalizing env with
  | nil => exact .ok _
  | cons p ps ih =>
    obtain ⟨hp, hps⟩ := List.forall_mem_cons.1 hps
    rw [List.map_cons, varOnlyIf_cons] at hvars
    have hplace : p.span.or span ∈ S := or_mem hp hspan
    refine (reg.expectValueType_failsAt p.ty hplace hvars.1).bind fun _ => ?_
    split
    · exact .error hplace nofun
    · exact ih _ hps hvars.2

end Spans

namespace Decl

/-- The check of a declaration fails at a span of it, whether or not all of its spans are there, and
with an internal error only if the declaration is malformed. -/
theorem check_fails (reg : Registry) (d : Decl) :
    FailsAt {span | span ∈ d.spans} d.Malformed (d.check reg).run.result := by
  have hspan : d.span ∈ d.spans := List.mem_cons_self
  have hrest : ∀ span ∈ d.paramSpans ++ d.nodes.flatMap Stmt.ownSpans ++ d.exprs.map Expr.span,
      span ∈ d.spans := fun _ => List.mem_cons_of_mem _
  have hvars : VarOnlyIf d.Malformed d.writtenTypes := fun t ht hvar => .inr ⟨t, ht, hvar⟩
  -- the spans of parameters, of statements and of expressions
  simp only [List.forall_mem_append, List.forall_mem_map, List.mem_flatMap] at hrest
  obtain ⟨⟨hparams, hstmts⟩, hexprs⟩ := hrest
  rcases d with d | d
  · refine .visit (.check (.ok _) fun _ => ?_) fun _ => .ok _
    exact .check (reg.expectValueType_failsAt d.ty hspan (varOnlyIf_cons.1 hvars).1) fun _ => .ok _
  · have hps : ∀ p ∈ d.params, p.span ∈ (Decl.method d).spans :=
      fun p hp => hparams _ (List.mem_map_of_mem hp)
    rw [writtenTypes, varOnlyIf_append, varOnlyIf_cons] at hvars
    obtain ⟨htypes, hret, hbody⟩ := hvars
    refine .visit (.check (.ok _) fun _ => ?_) fun env => ?_
    · exact .check (Parameter.bindAll_failsAt reg hspan {} hps htypes) fun _ =>
        .check (reg.expectReturnType_failsAt d.ret hspan hret) fun _ => .ok _
    · exact Stmt.checkAll_failsAt ⟨reg, d.ret⟩ env d.body
        (fun s hs => ⟨fun span hown => hstmts span ⟨s, hs, hown⟩, fun h => .inl ⟨s, hs, h⟩⟩)
        hexprs hbody

/-- A declaration that fails its check does so at a span of its own. -/
theorem check_failsAt (reg : Registry) (d : Decl) (e : TypeError)
    (h : (d.check reg).run.result = .error e) : e.span ∈ d.spans :=
  (d.check_fails reg e h).1

end Decl

namespace Registry

/-- The declaration that repeats a name is one of those declared. -/
theorem mem_of_firstRepeated {α : Type} {name : α → String} {l : List α} {a : α}
    (h : firstRepeated name [] l = some a) : a ∈ l := by
  have hseen : ∀ n, n ∈ ([] : List String) ↔ n ∈ ([] : List α).map name := fun _ => .rfl
  rcases firstRepeated_cases [] l hseen .nil with ⟨hnone, -⟩ | ⟨b, hb, hrepeat⟩
  · rw [hnone] at h
    cases h
  · rw [hb] at h
    cases h
    obtain ⟨before, after, hl, -⟩ := hrepeat
    rw [List.nil_append] at hl
    rw [hl]
    exact List.mem_append_right _ List.mem_cons_self

/-- A registry that is not built is refused at one of the declarations, and never internally. -/
theorem build_fails (f : File) :
    FailsAt {span | ∃ d ∈ f.decls, d.span = span} False (build f).result := by
  have halias : ∀ d ∈ f.aliasDecls, ∃ d' ∈ f.decls, d'.span = d.span :=
    fun d hd => ⟨.alias d, File.mem_aliasDecls.1 hd, rfl⟩
  have hmethod : ∀ d ∈ f.methodDecls, ∃ d' ∈ f.decls, d'.span = d.span :=
    fun d hd => ⟨.method d, File.mem_methodDecls.1 hd, rfl⟩
  unfold build
  split
  · rename_i d hd
    exact .error (halias d (mem_of_firstRepeated hd)) nofun
  · split
    · rename_i d hd
      exact .error (hmethod d (mem_of_firstRepeated hd)) nofun
    · dsimp only
      split
      · rename_i d cycle hcycle
        -- the circle is blamed on an alias that leads to it
        obtain ⟨before, after, hdecls, -⟩ := firstCircular_eq_some hcycle
        have hd : d ∈ f.aliasDecls := by
          rw [hdecls]
          exact List.mem_append_right _ List.mem_cons_self
        exact .error (halias d hd) nofun
      · exact .ok _

/-- The part of this about the place. -/
theorem build_failsAt (f : File) (e : TypeError) (h : (build f).result = .error e) :
    ∃ d ∈ f.decls, d.span = e.span :=
  (build_fails f e h).1

end Registry

/-! ## Errors with a place -/

/-- If a declaration and everything in it have spans, an error of its check has one of these spans.
If the declarations of a file have spans, an error of building its registry has one of these. -/
theorem errors_located :
    (∀ (reg : Registry) (d : Decl) (e : TypeError), none ∉ d.spans →
      (d.check reg).run.result = .error e → ∃ s, e.span = some s ∧ some s ∈ d.spans) ∧
    ∀ (f : File) (e : TypeError), (∀ d ∈ f.decls, d.span ≠ none) →
      (Registry.build f).result = .error e →
        ∃ s, e.span = some s ∧ ∃ d ∈ f.decls, d.span = some s := by
  constructor
  · intro reg d e hspans herror
    -- the span is one of the declaration's, and none of these is missing
    have hmem : e.span ∈ d.spans := d.check_failsAt reg e herror
    obtain ⟨s, hs⟩ := Option.ne_none_iff_exists'.1 (ne_of_mem_of_not_mem hmem hspans)
    exact ⟨s, hs, hs ▸ hmem⟩
  · intro f e hspans herror
    obtain ⟨d, hd, hspan⟩ := Registry.build_failsAt f e herror
    obtain ⟨s, hs⟩ := Option.ne_none_iff_exists'.1 (hspans d hd)
    exact ⟨s, hspan ▸ hs, d, hd, hs⟩

/-- A declared alias whose body is not. -/
def lostRegistry : Registry where
  aliases := [("Gone", .named "Lost")]

/-- A branch after which a variable holds one of two types that cannot be compared in
`lostRegistry`. -/
def branchDecl : Decl :=
  .method
    { name := "pick"
      params := [⟨"g", .named "Gone", some ⟨5, 9⟩⟩, ⟨"n", .int, some ⟨11, 14⟩⟩,
        ⟨"c", .bool, some ⟨16, 20⟩⟩]
      ret := .void
      body := [
        { form := .infer "x" .inferred { form := .var "n", span := some ⟨32, 33⟩ }
          span := some ⟨24, 34⟩ },
        { form := .ifElse { form := .var "c", span := some ⟨39, 40⟩ }
            [{ form := .assign { form := .var "x", span := some ⟨44, 45⟩ }
                { form := .var "g", span := some ⟨48, 49⟩ }
               span := some ⟨44, 50⟩ }] []
          span := some ⟨35, 52⟩ }]
      span := some ⟨0, 54⟩ }

/-- A file with two aliases of one name. -/
def twiceFile : File where
  decls := [.alias { name := "Gone", ty := .int, span := some ⟨0, 16⟩ },
    .alias { name := "Gone", ty := .bool, span := some ⟨17, 34⟩ }]

/-- The error of the branch is at the `if`, where the two types meet, and that of the file at the
second declaration. -/
theorem errors_located_branch :
    (none ∉ branchDecl.spans ∧
      (branchDecl.check lostRegistry).run.result = .error ⟨.unknownType "Lost", some ⟨35, 52⟩⟩ ∧
      ∃ s, some ⟨35, 52⟩ = some s ∧ some s ∈ branchDecl.spans) ∧
    (∀ d ∈ twiceFile.decls, d.span ≠ none) ∧
      (Registry.build twiceFile).result =
        .error ⟨.duplicateDeclaration "Gone", some ⟨17, 34⟩⟩ ∧
      ∃ s, some ⟨17, 34⟩ = some s ∧ ∃ d ∈ twiceFile.decls, d.span = some s := by
  obtain ⟨hcheck, hbuild⟩ := errors_located
  have hspans : none ∉ branchDecl.spans := by decide
  have herror : (branchDecl.check lostRegistry).run.result =
      .error ⟨.unknownType "Lost", some ⟨35, 52⟩⟩ := by decide +kernel
  have hdecls : ∀ d ∈ twiceFile.decls, d.span ≠ none := by
    intro d hd
    fin_cases hd <;> exact Option.some_ne_none _
  have hrepeated : (Registry.build twiceFile).result =
      .error ⟨.duplicateDeclaration "Gone", some ⟨17, 34⟩⟩ := by decide +kernel
  exact ⟨⟨hspans, herror, hcheck _ _ _ hspans herror⟩, hdecls, hrepeated,
    hbuild _ _ hdecls hrepeated⟩

end WhileTyping
