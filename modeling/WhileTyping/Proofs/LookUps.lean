import WhileTyping.File.Typing
import WhileTyping.Proofs.BoundedSearch

/-!
# Checks read a registry by look-up

Two registries may list the same declarations in different orders, or with methods at different
places. A check does not see the difference: it looks names up, it reads of a method what the method
takes and returns, and it counts the aliases to bound an expansion.

* **`Registry.Interchangeable`**: two registries answer every look-up alike, as far as checks read
  the answers, and have equally many aliases. **`Registry.Agrees`** asks for equal answers.
* **`Interchangeable.answer`**: they answer every comparison of types alike. The proof follows the
  calls of the search, since its recursion is not on the types.
* **`Interchangeable.findCycle`**: a walk along their aliases finds the same circles.
* **`Expr.synth_agrees`**, **`Decl.check_agrees`**: they find the same types for expressions, and
  the check of a declaration ends in the same way, with the same tree left and the same events
  reported.
-/

namespace WhileTyping

/-- What a call reads of a signature. -/
def Signature.type (s : Signature) : List Ty × Ty := (s.params, s.ret)

namespace Registry

/-- The registries answer every look-up alike, as far as a check reads the answer, and have equally
many aliases. -/
structure Interchangeable (reg reg' : Registry) : Prop where
  alias? : ∀ n, reg.alias? n = reg'.alias? n
  type? : ∀ n, (reg.method? n).map Signature.type = (reg'.method? n).map Signature.type
  count : reg.aliases.length = reg'.aliases.length

/-- The registries give the same answer to every look-up. -/
structure Agrees (reg reg' : Registry) : Prop extends reg.Interchangeable reg' where
  method? : ∀ n, reg.method? n = reg'.method? n

end Registry

section Agrees

variable {reg reg' : Registry}

namespace Registry.Interchangeable

/-- The same aliases are declared. -/
theorem hasAlias (h : reg.Interchangeable reg') : reg.hasAlias = reg'.hasAlias := by
  funext n
  rw [Registry.hasAlias, h.alias?, Registry.hasAlias]

theorem resolve (h : reg.Interchangeable reg') : reg.resolve = reg'.resolve := by
  funext n
  rw [Registry.resolve, h.alias?, Registry.resolve]

/-! ## Written types -/

mutual
/-- The same written types pass their check. -/
theorem wellFormed (h : reg.Interchangeable reg') : ∀ t : Ty, reg.wellFormed t = reg'.wellFormed t
  | .void | .bool | .char | .int | .string | .inferred => rfl
  | .array e => wellFormed h e
  | .record fs => wellFormedFields h [] fs
  | .named n => by rw [Registry.wellFormed, h.hasAlias, Registry.wellFormed]
  | .union ts => wellFormedAll h ts

theorem wellFormedFields (h : reg.Interchangeable reg') : ∀ (seen : List String) (fs : List Field),
    reg.wellFormedFields seen fs = reg'.wellFormedFields seen fs
  | _, [] => rfl
  | seen, ⟨n, t⟩ :: fs => by
    rw [Registry.wellFormedFields, wellFormed h t, wellFormedFields h _ fs,
      Registry.wellFormedFields]

theorem wellFormedAll (h : reg.Interchangeable reg') : ∀ ts : List Ty,
    reg.wellFormedAll ts = reg'.wellFormedAll ts
  | [] => rfl
  | t :: ts => by
    rw [Registry.wellFormedAll, wellFormed h t, wellFormedAll h ts, Registry.wellFormedAll]
end

section Checks

variable (h : reg.Interchangeable reg')

include h

theorem expectValueType : reg.expectValueType = reg'.expectValueType := by
  funext t span
  rw [Registry.expectValueType, h.wellFormed, Registry.expectValueType]

theorem expectReturnType : reg.expectReturnType = reg'.expectReturnType := by
  funext t span
  unfold Registry.expectReturnType
  rw [h.expectValueType]

/-! ## Expansion and subtyping -/

/-- Look-ups come to the same bodies, one after another. -/
theorem expandUpTo (k : Nat) (t : Ty) : reg.expandUpTo k t = reg'.expandUpTo k t := by
  induction k generalizing t with
  | zero => rfl
  | succ k ih =>
    cases t with
    | named n =>
      rw [Registry.expandUpTo, h.alias?, Registry.expandUpTo]
      cases reg'.alias? n with
      | none => rfl
      | some body => exact ih body
    | void | bool | char | int | string | inferred | array | record | union => rfl

theorem expand : reg.expand = reg'.expand := by
  funext t span
  rw [Registry.expand, h.count, h.expandUpTo, Registry.expand]

theorem expectKind : reg.expectKind = reg'.expectKind := by
  funext t kinds span
  rw [Registry.expectKind, h.expand, Registry.expectKind]

/-- A step of a comparison is the same, whichever way it goes on. -/
theorem compareOnce (next : Comparison → Except TypeError Bool) (c : Comparison) :
    reg.compareOnce next c = reg'.compareOnce next c := by
  unfold Registry.compareOnce
  simp only [h.alias?]

/-- So is the whole comparison, with as many steps as it takes. -/
theorem answer (c : Comparison) : reg.answer c = reg'.answer c := by
  induction c using reg.wellFounded_calls.induction with
  | _ c ih =>
    calc reg.answer c
        = reg.compareOnce reg.answer c := reg.answer_eq c
      _ = reg.compareOnce reg'.answer c := compareOnce_congr ih
      _ = reg'.compareOnce reg'.answer c := h.compareOnce _ c
      _ = reg'.answer c := (reg'.answer_eq c).symm

theorem isSubtype : reg.isSubtype = reg'.isSubtype := by
  funext sup sub
  exact h.answer ⟨sup, sub, []⟩

theorem equivalent : reg.equivalent = reg'.equivalent := by
  funext s t
  rw [Registry.equivalent, h.isSubtype, Registry.equivalent]

theorem expectSubtype : reg.expectSubtype = reg'.expectSubtype := by
  funext sup sub span
  rw [Registry.expectSubtype, h.isSubtype, Registry.expectSubtype]

theorem raiseBound (span : Option Span) (bound : Ty) (ts : List Ty) :
    reg.raiseBound span bound ts = reg'.raiseBound span bound ts := by
  induction ts generalizing bound with
  | nil => rfl
  | cons t ts ih => simp only [Registry.raiseBound, h.isSubtype, h.expectSubtype, ih]

theorem leastUpperBound : reg.leastUpperBound = reg'.leastUpperBound := by
  funext ts span
  exact h.raiseBound span .void ts

/-! ## Fields of a union of records -/

theorem recordsOf? (span : Option Span) (ts : List Ty) :
    reg.recordsOf? span ts = reg'.recordsOf? span ts := by
  induction ts with
  | nil => rfl
  | cons t ts ih => simp only [Registry.recordsOf?, h.expand, ih]

theorem meetFields (span : Option Span) (record fs : List Field) :
    reg.meetFields span record fs = reg'.meetFields span record fs := by
  induction fs with
  | nil => rfl
  | cons f fs ih => simp only [Registry.meetFields, Registry.widenField, h.equivalent, ih]

theorem meetAll (span : Option Span) (fields : List Field) (records : List (List Field)) :
    reg.meetAll span fields records = reg'.meetAll span fields records := by
  induction records generalizing fields with
  | nil => rfl
  | cons record records ih => simp only [Registry.meetAll, h.meetFields, ih]

theorem commonRecord : reg.commonRecord = reg'.commonRecord := by
  funext records span
  unfold Registry.commonRecord
  simp only [h.meetAll]

theorem fieldType : reg.fieldType = reg'.fieldType := by
  funext source sourceSpan field span
  simp only [Registry.fieldType, Registry.accessTarget, h.expand, h.recordsOf?, h.commonRecord,
    h.expectKind]

theorem elementType : reg.elementType = reg'.elementType := by
  funext source position sourceSpan positionSpan span
  simp only [Registry.elementType, h.expectKind]

theorem merge : Env.merge reg = Env.merge reg' := by
  have hbinding : Env.mergeBinding reg = Env.mergeBinding reg' := by
    funext left right name b
    simp only [Env.mergeBinding, Env.joinTypes, h.equivalent, h.isSubtype]
  have hname : Env.mergeName reg = Env.mergeName reg' := by
    funext left right env name
    simp only [Env.mergeName, hbinding]
  have hnames : ∀ left right names env,
      Env.mergeNames reg left right env names = Env.mergeNames reg' left right env names := by
    intro left right names
    induction names with
    | nil => exact fun _ => rfl
    | cons name names ih =>
      intro env
      simp only [Env.mergeNames, hname, ih]
  funext env left right
  simp only [Env.merge, hnames]

/-! ## Circles -/

/-- The same walks come to a circle. -/
theorem findCycle (path : List String) (t : Ty) : reg.findCycle path t = reg'.findCycle path t := by
  fun_induction Registry.findCycle reg path t with
  | case1 path n hn => rw [Registry.findCycle, dif_pos hn]
  | case2 path n hn body hbody ih =>
    rw [Registry.findCycle, dif_neg hn, ih]
    split
    · rename_i body' hbody'
      rw [← h.alias?, hbody] at hbody'
      cases hbody'
      rfl
    · rename_i hnone
      rw [← h.alias?, hbody] at hnone
      cases hnone
  | case3 path n hn hnone =>
    rw [Registry.findCycle, dif_neg hn]
    split
    · rename_i body' hbody'
      rw [← h.alias?, hnone] at hbody'
      cases hbody'
    · rfl
  -- the members of a union are walked from one after another
  | case4 path ts ih =>
    rw [Registry.findCycle_union, List.findSome?_subtype fun _ _ => rfl, List.unattach_attach]
    induction ts with
    | nil => rfl
    | cons t ts ihts =>
      obtain ⟨ht, hts⟩ := List.forall_mem_cons.1 ih
      rw [List.findSome?_cons, List.findSome?_cons, ht, ihts hts]
  | case5 path t hnamed hunion =>
    rw [Registry.findCycle]
    · exact hnamed
    · exact hunion

theorem firstCircular (ds : List AliasDecl) : reg.firstCircular ds = reg'.firstCircular ds := by
  induction ds with
  | nil => rfl
  | cons d ds ih => rw [Registry.firstCircular, h.findCycle, ih, Registry.firstCircular]

end Checks

end Registry.Interchangeable

/-! ## Expressions -/

mutual
/-- Constants have the same types. -/
theorem Value.typeOf_agrees (h : reg.Interchangeable reg') (span : Option Span) : ∀ v : Value,
    v.typeOf reg span = v.typeOf reg' span
  | .bool _ | .char _ | .int _ | .string _ => rfl
  | .array vs => by
    simp only [Value.typeOf, Value.typesOf_agrees h span vs, h.leastUpperBound]
  | .record es => by simp only [Value.typeOf, Value.fieldsOf_agrees h span [] es]

theorem Value.typesOf_agrees (h : reg.Interchangeable reg') (span : Option Span) :
    ∀ vs : List Value, Value.typesOf reg span vs = Value.typesOf reg' span vs
  | [] => rfl
  | v :: vs => by
    simp only [Value.typesOf, Value.typeOf_agrees h span v, Value.typesOf_agrees h span vs]

theorem Value.fieldsOf_agrees (h : reg.Interchangeable reg') (span : Option Span) :
    ∀ (seen : List String) (es : List Entry),
    Value.fieldsOf reg span seen es = Value.fieldsOf reg' span seen es
  | _, [] => rfl
  | seen, ⟨n, v⟩ :: es => by
    simp only [Value.fieldsOf, Value.typeOf_agrees h span v, Value.fieldsOf_agrees h span _ es]
end

theorem BinaryOp.resultType_agrees (h : reg.Interchangeable reg') (op : BinaryOp) :
    op.resultType reg = op.resultType reg' := by
  funext lt rt lspan rspan
  unfold BinaryOp.resultType
  simp only [Registry.expectOperands, h.expectKind]

theorem UnaryOp.resultType_agrees (h : reg.Interchangeable reg') (op : UnaryOp) :
    op.resultType reg = op.resultType reg' := by
  funext t span
  unfold UnaryOp.resultType
  simp only [h.expectKind]

/-- A call looks up its method, of which only the type is read. -/
theorem checkCall_agrees (h : reg.Interchangeable reg') :
    checkCall reg = checkCall reg' := by
  funext method args span valueRequired visitArgs
  have htype := h.type? method
  unfold checkCall
  cases hsig : reg.method? method with
  | none =>
    rw [hsig] at htype
    rw [Option.map_eq_none_iff.1 htype.symm]
  | some sig =>
    rw [hsig] at htype
    obtain ⟨sig', hsig', heq⟩ := Option.map_eq_some_iff.1 htype.symm
    obtain ⟨hparams, hret⟩ := Prod.mk.inj heq
    rw [hsig']
    simp only [hparams, hret]

mutual
/-- An expression is visited alike, which covers its type, its tree and its events. -/
theorem Expr.synth_agrees (h : reg.Interchangeable reg') (env : Env) : ∀ e : Expr,
    e.synth reg env = e.synth reg' env
  | ⟨form, span, some t⟩ => rfl
  | ⟨form, span, none⟩ => by rw [Expr.synth, ExprForm.synth_agrees h env span form, Expr.synth]

/-- By cases on the expression. Every rule comes down to the look-ups above. -/
theorem ExprForm.synth_agrees (h : reg.Interchangeable reg') (env : Env)
    (span : Option Span) : ∀ form : ExprForm, form.synth reg env span = form.synth reg' env span
  | .binary op l r => by
    simp only [ExprForm.synth, Expr.synth_agrees h env l, Expr.synth_agrees h env r,
      op.resultType_agrees h]
  | .constant v => by simp only [ExprForm.synth, v.typeOf_agrees h]
  | .index source position => by
    simp only [ExprForm.synth, Expr.synth_agrees h env source, Expr.synth_agrees h env position,
      h.elementType]
  | .call method args => by
    simp only [ExprForm.synth, checkCall_agrees h, Expr.synthArgs_agrees h env span args]
  | .fill value size => by
    simp only [ExprForm.synth, Expr.synth_agrees h env value, Expr.synth_agrees h env size,
      h.expectKind]
  | .array items => by
    simp only [ExprForm.synth, Expr.synthAll_agrees h env items, h.leastUpperBound]
  | .field source name => by
    simp only [ExprForm.synth, Expr.synth_agrees h env source, h.fieldType]
  | .record fields => by
    simp only [ExprForm.synth, FieldInit.synthAll_agrees h env span [] fields]
  | .unary op operand => by
    simp only [ExprForm.synth, Expr.synth_agrees h env operand, op.resultType_agrees h]
  | .var x => rfl

theorem Expr.synthAll_agrees (h : reg.Interchangeable reg') (env : Env) : ∀ es : List Expr,
    Expr.synthAll reg env es = Expr.synthAll reg' env es
  | [] => rfl
  | e :: es => by
    simp only [Expr.synthAll, Expr.synth_agrees h env e, Expr.synthAll_agrees h env es]

/-- The same for arguments, whatever parameters they are for. -/
theorem Expr.synthArgs_agrees (h : reg.Interchangeable reg') (env : Env)
    (span : Option Span) : ∀ (es : List Expr) (params : List Ty),
    Expr.synthArgs reg env span params es = Expr.synthArgs reg' env span params es
  | [], _ => by rw [Expr.synthArgs, Expr.synthArgs]
  | e :: es, [] => by rw [Expr.synthArgs, Expr.synthArgs]
  | e :: es, p :: ps => by
    simp only [Expr.synthArgs, Expr.synth_agrees h env e, Expr.synthArgs_agrees h env span es ps,
      h.expectSubtype]

theorem FieldInit.synthAll_agrees (h : reg.Interchangeable reg') (env : Env)
    (span : Option Span) : ∀ (seen : List String) (fs : List FieldInit),
    FieldInit.synthAll reg env span seen fs =
      FieldInit.synthAll reg' env span seen fs
  | _, [] => rfl
  | seen, ⟨n, e⟩ :: fs => by
    simp only [FieldInit.synthAll, Expr.synth_agrees h env e,
      FieldInit.synthAll_agrees h env span _ fs]
end

/-! ## Statements -/

section Statements

variable {ret : Ty}

theorem Expr.checkCondition_agrees (h : reg.Interchangeable reg') (env : Env) (e : Expr) :
    e.checkCondition ⟨reg, ret⟩ env = e.checkCondition ⟨reg', ret⟩ env := by
  simp only [Expr.checkCondition, Expr.synth_agrees h env e, h.expectKind]

theorem VarDecl.check_agrees (h : reg.Interchangeable reg') (env : Env)
    (span : Option Span) (d : VarDecl) :
    d.check ⟨reg, ret⟩ env span = d.check ⟨reg', ret⟩ env span := by
  simp only [VarDecl.check, Expr.synth_agrees h env, h.expectValueType, h.expectSubtype]

theorem Expr.store_agrees (h : reg.Interchangeable reg') (env : Env) (target : Expr)
    (targetTy valueTy : Ty) (span : Option Span) :
    target.store ⟨reg, ret⟩ env targetTy valueTy span =
      target.store ⟨reg', ret⟩ env targetTy valueTy span := by
  simp only [Expr.store, h.expectSubtype]

mutual
/-- A statement is visited alike. -/
theorem Stmt.check_agrees (h : reg.Interchangeable reg') (env : Env) : ∀ s : Stmt,
    s.check ⟨reg, ret⟩ env = s.check ⟨reg', ret⟩ env
  | ⟨form, span⟩ => by rw [Stmt.check, StmtForm.check_agrees h env span form, Stmt.check]

/-- By cases on the statement. -/
theorem StmtForm.check_agrees (h : reg.Interchangeable reg') (env : Env)
    (span : Option Span) : ∀ form : StmtForm,
      form.check ⟨reg, ret⟩ env span = form.check ⟨reg', ret⟩ env span
  | .breakLoop | .continueLoop => rfl
  | .assert e => by simp only [StmtForm.check, Expr.checkCondition_agrees h]
  | .assign target value => by
    simp only [StmtForm.check, Expr.synth_agrees h, Expr.store_agrees h]
  | .forLoop d condition step body => by
    simp only [StmtForm.check, d.check_agrees h, Expr.checkCondition_agrees h,
      Stmt.check_agrees h _ step, Stmt.checkAll_agrees h _ body]
  | .ifElse condition onTrue onFalse => by
    simp only [StmtForm.check, Expr.checkCondition_agrees h, Stmt.checkAll_agrees h _ onTrue,
      Stmt.checkAll_agrees h _ onFalse, h.merge]
  | .call method args => by
    simp only [StmtForm.check, Expr.synthCall, checkCall_agrees h, Expr.synthArgs_agrees h]
  | .print e => by simp only [StmtForm.check, Expr.synth_agrees h]
  | .ret (some e) => by simp only [StmtForm.check, Expr.synth_agrees h, h.expectSubtype]
  | .ret none => by simp only [StmtForm.check, h.expand]
  | .switchOn selector cases => by
    simp only [StmtForm.check, Expr.synth_agrees h, SwitchCase.checkAll_agrees h _ _ cases]
  | .matchType selector cases => by
    simp only [StmtForm.check, Expr.synth_agrees h, MatchCase.checkAll_agrees h _ _ _ cases]
  | .declare d => by simp only [StmtForm.check, d.check_agrees h]
  | .infer x cell init => by simp only [StmtForm.check, Expr.synth_agrees h]
  | .whileLoop condition body => by
    simp only [StmtForm.check, Expr.checkCondition_agrees h, Stmt.checkAll_agrees h _ body]

theorem Stmt.checkAll_agrees (h : reg.Interchangeable reg') (env : Env) : ∀ ss : List Stmt,
    Stmt.checkAll ⟨reg, ret⟩ env ss = Stmt.checkAll ⟨reg', ret⟩ env ss
  | [] => rfl
  | s :: ss => by
    simp only [Stmt.checkAll, Stmt.check_agrees h _ s, Stmt.checkAll_agrees h _ ss]

theorem SwitchCase.checkAll_agrees (h : reg.Interchangeable reg') (selector : Ty)
    (env : Env) : ∀ cs : List SwitchCase,
    SwitchCase.checkAll ⟨reg, ret⟩ selector env cs = SwitchCase.checkAll ⟨reg', ret⟩ selector env cs
  | [] => rfl
  | ⟨none, body⟩ :: cs => by
    simp only [SwitchCase.checkAll, Stmt.checkAll_agrees h _ body,
      SwitchCase.checkAll_agrees h _ _ cs]
  | ⟨some e, body⟩ :: cs => by
    simp only [SwitchCase.checkAll, Expr.synth_agrees h, h.expectSubtype,
      Stmt.checkAll_agrees h _ body, SwitchCase.checkAll_agrees h _ _ cs]

theorem MatchCase.checkAll_agrees (h : reg.Interchangeable reg') (selector : Ty)
    (span : Option Span) (env : Env) : ∀ cs : List MatchCase,
    MatchCase.checkAll ⟨reg, ret⟩ selector span env cs =
      MatchCase.checkAll ⟨reg', ret⟩ selector span env cs
  | [] => rfl
  | ⟨t, x, body, caseSpan⟩ :: cs => by
    simp only [MatchCase.checkAll, h.expectValueType, h.expectSubtype,
      Stmt.checkAll_agrees h _ body, MatchCase.checkAll_agrees h _ _ _ cs]
end

end Statements

/-! ## Declarations -/

theorem Parameter.bindAll_agrees (h : reg.Interchangeable reg') (span : Option Span) (env : Env)
    (ps : List Parameter) :
    Parameter.bindAll reg span env ps = Parameter.bindAll reg' span env ps := by
  induction ps generalizing env with
  | nil => rfl
  | cons p ps ih => simp only [Parameter.bindAll, h.expectValueType, ih]

/-- A declaration is visited alike, so a file may be checked against either registry. -/
theorem Decl.check_agrees (h : reg.Interchangeable reg') : ∀ d : Decl,
    d.check reg = d.check reg'
  | .alias d => by simp only [Decl.check, Decl.checkSignature, h.expectValueType]
  | .method d => by
    simp only [Decl.check, Decl.checkSignature, Parameter.bindAll_agrees h, h.expectReturnType,
      Stmt.checkAll_agrees h]

end Agrees

end WhileTyping
