import WhileTyping.Proofs.ErrorSpans

/-!
# Trees without their places

A check reads the spans of a tree only to say where an error is. So the check of a tree without its
spans takes every step that the check of the tree takes: it leaves the same types, reports the same
events, and fails for the same reason.

* **`Expr.unplaced`**, **`Stmt.unplaced`**, **`Decl.unplaced`**: the tree without its spans. The
  types on it stay (**`Decl.slots_unplaced`**).
* **`unplaced`**, **`Check.unplaced`**, **`Visit.unplaced`**: a computation without the place of its
  error. For each way of composing computations, the places can be dropped before or after.
* **`Expr.unplaced_synth`**, **`Stmt.unplaced_check`**, **`Decl.unplaced_check`**: to check a tree
  and then drop the places is to drop the spans and then check.
-/

namespace WhileTyping

/-! ## Trees -/

namespace Expr

mutual
/-- The expression without the spans of its nodes. -/
def unplaced : Expr → Expr
  | ⟨form, _, ty⟩ => ⟨unplacedForm form, none, ty⟩

def unplacedForm : ExprForm → ExprForm
  | .binary op l r => .binary op (unplaced l) (unplaced r)
  | .constant v => .constant v
  | .index source position => .index (unplaced source) (unplaced position)
  | .call method args => .call method (unplacedAll args)
  | .fill value size => .fill (unplaced value) (unplaced size)
  | .array items => .array (unplacedAll items)
  | .field source name => .field (unplaced source) name
  | .record fields => .record (unplacedFields fields)
  | .unary op operand => .unary op (unplaced operand)
  | .var x => .var x

def unplacedAll : List Expr → List Expr
  | [] => []
  | e :: es => unplaced e :: unplacedAll es

def unplacedFields : List FieldInit → List FieldInit
  | [] => []
  | ⟨n, e⟩ :: fs => ⟨n, unplaced e⟩ :: unplacedFields fs
end

end Expr

def VarDecl.unplaced (d : VarDecl) : VarDecl := { d with init := d.init.map Expr.unplaced }

namespace Stmt

mutual
/-- The statement without its span and those of everything in it. -/
def unplaced : Stmt → Stmt
  | ⟨form, _⟩ => ⟨unplacedForm form, none⟩

def unplacedForm : StmtForm → StmtForm
  | .assert e => .assert e.unplaced
  | .assign target value => .assign target.unplaced value.unplaced
  | .breakLoop => .breakLoop
  | .continueLoop => .continueLoop
  | .forLoop d condition step body =>
    .forLoop d.unplaced condition.unplaced (unplaced step) (unplacedAll body)
  | .ifElse condition onTrue onFalse =>
    .ifElse condition.unplaced (unplacedAll onTrue) (unplacedAll onFalse)
  | .call method args => .call method (Expr.unplacedAll args)
  | .print e => .print e.unplaced
  | .ret value => .ret (value.map Expr.unplaced)
  | .switchOn selector cases => .switchOn selector.unplaced (unplacedSwitch cases)
  | .matchType selector cases => .matchType selector.unplaced (unplacedMatch cases)
  | .declare d => .declare d.unplaced
  | .infer x cell init => .infer x cell init.unplaced
  | .whileLoop condition body => .whileLoop condition.unplaced (unplacedAll body)

def unplacedAll : List Stmt → List Stmt
  | [] => []
  | s :: ss => unplaced s :: unplacedAll ss

def unplacedSwitch : List SwitchCase → List SwitchCase
  | [] => []
  | ⟨value, body⟩ :: cs => ⟨value.map Expr.unplaced, unplacedAll body⟩ :: unplacedSwitch cs

def unplacedMatch : List MatchCase → List MatchCase
  | [] => []
  | ⟨t, x, body, _⟩ :: cs => ⟨t, x, unplacedAll body, none⟩ :: unplacedMatch cs
end

end Stmt

def AliasDecl.unplaced (d : AliasDecl) : AliasDecl := { d with span := none }

def Parameter.unplaced (p : Parameter) : Parameter := { p with span := none }

def MethodDecl.unplaced (d : MethodDecl) : MethodDecl where
  name := d.name
  params := d.params.map Parameter.unplaced
  ret := d.ret
  body := Stmt.unplacedAll d.body

def Decl.unplaced : Decl → Decl
  | .alias d => .alias d.unplaced
  | .method d => .method d.unplaced

/-! The types on a tree are not touched. -/

mutual
/-- Slots have no spans. -/
theorem Expr.slots_unplaced : ∀ e : Expr, e.unplaced.slots = e.slots
  | ⟨form, _, ty⟩ => congrArg (ty :: ·) (Expr.slotsForm_unplaced form)

theorem Expr.slotsForm_unplaced : ∀ form : ExprForm,
    Expr.slotsForm (Expr.unplacedForm form) = Expr.slotsForm form
  | .constant _ | .var _ => rfl
  | .binary _ l r | .index l r | .fill l r => by
    rw [Expr.unplacedForm, Expr.slotsForm, Expr.slots_unplaced l, Expr.slots_unplaced r,
      Expr.slotsForm]
  | .call _ es | .array es => by
    rw [Expr.unplacedForm, Expr.slotsForm, Expr.slotsAll_unplaced es, Expr.slotsForm]
  | .field e _ | .unary _ e => by
    rw [Expr.unplacedForm, Expr.slotsForm, Expr.slots_unplaced e, Expr.slotsForm]
  | .record fs => by
    rw [Expr.unplacedForm, Expr.slotsForm, Expr.slotsFields_unplaced fs, Expr.slotsForm]

theorem Expr.slotsAll_unplaced : ∀ es : List Expr,
    Expr.slotsAll (Expr.unplacedAll es) = Expr.slotsAll es
  | [] => rfl
  | e :: es => by
    rw [Expr.unplacedAll, Expr.slotsAll, Expr.slots_unplaced e, Expr.slotsAll_unplaced es,
      Expr.slotsAll]

theorem Expr.slotsFields_unplaced : ∀ fs : List FieldInit,
    Expr.slotsFields (Expr.unplacedFields fs) = Expr.slotsFields fs
  | [] => rfl
  | ⟨_, e⟩ :: fs => by
    rw [Expr.unplacedFields, Expr.slotsFields, Expr.slots_unplaced e, Expr.slotsFields_unplaced fs,
      Expr.slotsFields]
end

namespace Stmt

theorem exprSlots_unplaced (e : Expr) : exprSlots e.unplaced = exprSlots e :=
  congrArg (List.map Slot.expr) e.slots_unplaced

theorem optionSlots_unplaced (value : Option Expr) :
    optionSlots (value.map Expr.unplaced) = optionSlots value := by
  cases value with
  | none => rfl
  | some e => exact exprSlots_unplaced e

theorem flatMap_exprSlots_unplaced (es : List Expr) :
    (Expr.unplacedAll es).flatMap exprSlots = es.flatMap exprSlots := by
  induction es with
  | nil => rfl
  | cons e es ih =>
    rw [Expr.unplacedAll, List.flatMap_cons, exprSlots_unplaced, ih, List.flatMap_cons]

mutual
/-- The same for statements. -/
theorem slots_unplaced : ∀ s : Stmt, s.unplaced.slots = s.slots
  | ⟨form, _⟩ => slotsForm_unplaced form

theorem slotsForm_unplaced : ∀ form : StmtForm, slotsForm (unplacedForm form) = slotsForm form
  | .breakLoop | .continueLoop => rfl
  | .assert e | .print e | .infer _ _ e => by
    simp only [unplacedForm, slotsForm, exprSlots_unplaced]
  | .assign target value => by simp only [unplacedForm, slotsForm, exprSlots_unplaced]
  | .forLoop d condition step body => by
    simp only [unplacedForm, slotsForm, VarDecl.unplaced, optionSlots_unplaced, exprSlots_unplaced,
      slots_unplaced step, slotsAll_unplaced body]
  | .ifElse condition onTrue onFalse => by
    simp only [unplacedForm, slotsForm, exprSlots_unplaced, slotsAll_unplaced onTrue,
      slotsAll_unplaced onFalse]
  | .call _ args => by simp only [unplacedForm, slotsForm, flatMap_exprSlots_unplaced]
  | .ret value => by simp only [unplacedForm, slotsForm, optionSlots_unplaced]
  | .switchOn selector cases => by
    simp only [unplacedForm, slotsForm, exprSlots_unplaced, slotsSwitch_unplaced cases]
  | .matchType selector cases => by
    simp only [unplacedForm, slotsForm, exprSlots_unplaced, slotsMatch_unplaced cases]
  | .declare d => by simp only [unplacedForm, slotsForm, VarDecl.unplaced, optionSlots_unplaced]
  | .whileLoop condition body => by
    simp only [unplacedForm, slotsForm, exprSlots_unplaced, slotsAll_unplaced body]

theorem slotsAll_unplaced : ∀ ss : List Stmt, slotsAll (unplacedAll ss) = slotsAll ss
  | [] => rfl
  | s :: ss => by
    rw [unplacedAll, slotsAll, slots_unplaced s, slotsAll_unplaced ss, slotsAll]

theorem slotsSwitch_unplaced : ∀ cs : List SwitchCase,
    slotsSwitch (unplacedSwitch cs) = slotsSwitch cs
  | [] => rfl
  | ⟨value, body⟩ :: cs => by
    rw [unplacedSwitch, slotsSwitch, optionSlots_unplaced, slotsAll_unplaced body,
      slotsSwitch_unplaced cs, slotsSwitch]

theorem slotsMatch_unplaced : ∀ cs : List MatchCase, slotsMatch (unplacedMatch cs) = slotsMatch cs
  | [] => rfl
  | ⟨_, _, body, _⟩ :: cs => by
    rw [unplacedMatch, slotsMatch, slotsAll_unplaced body, slotsMatch_unplaced cs, slotsMatch]
end

end Stmt

theorem Decl.slots_unplaced : ∀ d : Decl, d.unplaced.slots = d.slots
  | .alias _ => rfl
  | .method d => Stmt.slotsAll_unplaced d.body

/-! ## Computations -/

/-- An error without its span. -/
def TypeError.unplaced (e : TypeError) : TypeError := { e with span := none }

section Computations

variable {σ σ' τ τ' α β : Type}

/-- The same result, without the place of an error. -/
def unplaced (r : Except TypeError α) : Except TypeError α := r.mapError TypeError.unplaced

/-- Spans can be dropped from each of two parts. -/
theorem unplaced_bind {r r' : Except TypeError α} {k k' : α → Except TypeError β}
    (hr : unplaced r = r') (hk : ∀ a, unplaced (k a) = k' a) :
    unplaced (r >>= k) = r' >>= k' := by
  subst hr
  cases r with
  | ok a => exact hk a
  | error e => rfl

theorem unplaced_discard {r r' : Except TypeError α} (h : unplaced r = r') :
    unplaced (Functor.discard r) = Functor.discard r' := by
  subst h
  cases r <;> rfl

/-- A fault that is given a span, and loses it again. -/
theorem unplaced_mapError (r : Except Fault α) (span : Option Span) :
    unplaced (r.mapError fun fault => ⟨fault, span⟩) =
      r.mapError fun fault => (⟨fault, none⟩ : TypeError) := by
  cases r <;> rfl

theorem unplaced_ite {p : Prop} [Decidable p] {r s r' s' : Except TypeError α}
    (hr : unplaced r = r') (hs : unplaced s = s') :
    unplaced (if p then r else s) = if p then r' else s' := by
  rw [apply_ite unplaced, hr, hs]

/-- What fails without a place has none to lose. -/
theorem unplaced_located {r : Except TypeError α} (h : FailsAt {none} True r) (span : Option Span) :
    unplaced (located span r) = located none r := by
  cases r with
  | ok a => rfl
  | error e =>
    obtain ⟨fault, place⟩ := e
    obtain ⟨rfl, -⟩ := h _ rfl
    rfl

namespace Check

/-- A check without the span of its error. -/
def unplaced (c : Check α) : Check α := { c with result := WhileTyping.unplaced c.result }

/-- Spans can be dropped from each of two checks. Events have none. -/
theorem unplaced_bind {c c' : Check α} {k k' : α → Check β} (hc : c.unplaced = c')
    (hk : ∀ a, (k a).unplaced = k' a) : (c >>= k).unplaced = c' >>= k' := by
  subst hc
  obtain ⟨log, r⟩ := c
  cases r with
  | ok a =>
    show Check.mk (log ++ (k a).log) (WhileTyping.unplaced (k a).result) =
      Check.mk (log ++ (k' a).log) (k' a).result
    rw [← hk a]
    rfl
  | error e => rfl

theorem unplaced_lift {r r' : Except TypeError α} (h : WhileTyping.unplaced r = r') :
    (liftM r : Check α).unplaced = liftM r' := by
  subst h
  rfl

theorem unplaced_ite {p : Prop} [Decidable p] {c d c' d' : Check α} (hc : c.unplaced = c')
    (hd : d.unplaced = d') : (if p then c else d).unplaced = if p then c' else d' := by
  rw [apply_ite unplaced, hc, hd]

end Check

namespace Visit

/-- The visit without the place of its error, and with what it leaves seen through a function. -/
def unplaced (f : σ → σ') (v : Visit σ α) : Visit σ' α := ⟨f v.left, v.run.unplaced⟩

/-- A visit is a tree and a check. -/
theorem unplaced_mk {f : σ → σ'} {left : σ} {left' : σ'} {c c' : Check α} (hleft : f left = left')
    (hc : c.unplaced = c') : (⟨left, c⟩ : Visit σ α).unplaced f = ⟨left', c'⟩ := by
  rw [← hleft, ← hc]
  rfl

/-- Spans can be dropped from each of two visits, if they can from the tree in between. -/
theorem unplaced_andThen {f : σ → σ'} {g : τ → τ'} {v : Visit σ α} {v' : Visit σ' α} {stop : σ → τ}
    {stop' : σ' → τ'} {next : σ → α → Visit τ β} {next' : σ' → α → Visit τ' β}
    (hv : v.unplaced f = v') (hstop : ∀ l, g (stop l) = stop' (f l))
    (hnext : ∀ l a, (next l a).unplaced g = next' (f l) a) :
    (v.andThen stop next).unplaced g = v'.andThen stop' next' := by
  subst hv
  obtain ⟨left, log, r⟩ := v
  cases r with
  -- the tree that the second visit starts from has lost its spans
  | ok a =>
    show Visit.mk (g (next left a).left)
        ⟨log ++ (next left a).run.log, WhileTyping.unplaced (next left a).run.result⟩ =
      Visit.mk (next' (f left) a).left
        ⟨log ++ (next' (f left) a).run.log, (next' (f left) a).run.result⟩
    rw [← hnext]
    rfl
  | error e =>
    show Visit.mk (g (stop left)) _ = Visit.mk (stop' (f left)) _
    rw [hstop]
    rfl

/-- The same for a part that is visited within the whole. -/
theorem unplaced_within {f : σ → σ'} {g : τ → τ'} {v : Visit σ α} {v' : Visit σ' α} {mk : σ → τ}
    {mk' : σ' → τ'} (hv : v.unplaced f = v') (hmk : ∀ l, g (mk l) = mk' (f l)) :
    (v.within mk).unplaced g = v'.within mk' :=
  unplaced_mk ((hmk v.left).trans (congrArg (fun v => mk' (Visit.left v)) hv))
    (congrArg Visit.run hv)

/-- The same for a check and a visit after it. -/
theorem unplaced_after {g : σ → σ'} {c c' : Check α} {untouched : σ} {untouched' : σ'}
    {next : α → Visit σ β} {next' : α → Visit σ' β} (hc : c.unplaced = c')
    (huntouched : g untouched = untouched') (hnext : ∀ a, (next a).unplaced g = next' a) :
    (after c untouched next).unplaced g = after c' untouched' next' :=
  unplaced_andThen (unplaced_mk huntouched hc) (fun _ => rfl) fun _ => hnext

theorem unplaced_ite {f : σ → σ'} {p : Prop} [Decidable p] {v w : Visit σ α} {v' w' : Visit σ' α}
    (hv : v.unplaced f = v') (hw : w.unplaced f = w') :
    (if p then v else w).unplaced f = if p then v' else w' := by
  rw [apply_ite (unplaced f), hv, hw]

end Visit

end Computations

/-! ## Rules on types -/

namespace Registry

variable (reg : Registry) (span : Option Span)

/-- A comparison has no place of its own. -/
theorem unplaced_isSubtype (sup sub : Ty) :
    unplaced (located span (reg.isSubtype sup sub)) = located none (reg.isSubtype sup sub) :=
  unplaced_located (reg.isSubtype_failsAt sup sub) span

theorem unplaced_expectSubtype (sup sub : Ty) :
    unplaced (reg.expectSubtype sup sub span) = reg.expectSubtype sup sub none :=
  unplaced_bind (reg.unplaced_isSubtype span sup sub) fun _ => unplaced_ite rfl rfl

/-- A rule on types is the same without spans, its error apart. -/
theorem unplaced_expand (t : Ty) : unplaced (reg.expand t span) = reg.expand t none :=
  unplaced_mapError _ span

theorem unplaced_expectKind (t : Ty) (kinds : KindSet) :
    unplaced (reg.expectKind t kinds span) = reg.expectKind t kinds none :=
  unplaced_bind (reg.unplaced_expand span t) fun _ => unplaced_ite rfl rfl

theorem unplaced_expectNoVoid (t : Ty) : unplaced (t.expectNoVoid span) = t.expectNoVoid none :=
  unplaced_ite rfl rfl

theorem unplaced_expectValueType (t : Ty) :
    unplaced (reg.expectValueType t span) = reg.expectValueType t none :=
  unplaced_bind (unplaced_mapError _ span) fun _ => unplaced_expectNoVoid span t

theorem unplaced_expectReturnType (t : Ty) :
    unplaced (reg.expectReturnType t span) = reg.expectReturnType t none := by
  cases t with
  | void => rfl
  | bool | char | int | string | inferred | array | record | named | union =>
    exact reg.unplaced_expectValueType span _

/-- The same for bounds, whose events have no spans. -/
theorem unplaced_raiseBound (bound : Ty) (ts : List Ty) :
    (reg.raiseBound span bound ts).unplaced = reg.raiseBound none bound ts := by
  induction ts generalizing bound with
  | nil => rfl
  | cons t ts ih =>
    rw [raiseBound, raiseBound]
    refine Check.unplaced_bind (Check.unplaced_lift (reg.unplaced_isSubtype span t bound))
      fun above => ?_
    cases above with
    | true => exact Check.unplaced_bind rfl fun _ => ih t
    | false =>
      exact Check.unplaced_bind (Check.unplaced_lift (reg.unplaced_expectSubtype span bound t))
        fun _ => ih bound

theorem unplaced_recordsOf? (ts : List Ty) :
    unplaced (reg.recordsOf? span ts) = reg.recordsOf? none ts := by
  induction ts with
  | nil => rfl
  | cons t ts ih =>
    refine unplaced_bind (reg.unplaced_expand span t) fun expanded => ?_
    cases expanded with
    | record fs => exact unplaced_bind ih fun _ => rfl
    | void | bool | char | int | string | inferred | array | named | union => rfl

theorem unplaced_widenField (f g : Field) :
    unplaced (reg.widenField span f g) = reg.widenField none f g :=
  unplaced_bind (unplaced_located (reg.equivalent_failsAt f.ty g.ty) span) fun _ =>
    unplaced_ite rfl rfl

theorem unplaced_meetFields (record fs : List Field) :
    unplaced (reg.meetFields span record fs) = reg.meetFields none record fs := by
  induction fs with
  | nil => rfl
  | cons f fs ih =>
    rw [meetFields, meetFields]
    cases record.find? fun g => g.name == f.name with
    | none => exact ih
    | some g =>
      exact unplaced_bind (reg.unplaced_widenField span f g) fun _ => unplaced_bind ih fun _ => rfl

theorem unplaced_meetAll (fields : List Field) (records : List (List Field)) :
    unplaced (reg.meetAll span fields records) = reg.meetAll none fields records := by
  induction records generalizing fields with
  | nil => rfl
  | cons record records ih =>
    exact unplaced_bind (reg.unplaced_meetFields span record fields) fun _ => ih _

theorem unplaced_commonRecord (records : List (List Field)) :
    (reg.commonRecord records span).unplaced = reg.commonRecord records none := by
  cases records with
  | nil => rfl
  | cons first rest =>
    refine Check.unplaced_bind (Check.unplaced_lift (reg.unplaced_meetAll span first rest))
      fun common => ?_
    cases common <;> rfl

theorem unplaced_accessTarget (source : Ty) (field : String) :
    (reg.accessTarget source field span).unplaced = reg.accessTarget source field none := by
  refine Check.unplaced_bind (Check.unplaced_lift (reg.unplaced_expand span source))
    fun expanded => ?_
  cases expanded with
  | union ts =>
    refine Check.unplaced_bind (Check.unplaced_lift (reg.unplaced_recordsOf? span ts))
      fun records => ?_
    cases records with
    | none => rfl
    | some records =>
      refine Check.unplaced_bind rfl fun _ =>
        Check.unplaced_bind (reg.unplaced_commonRecord span records) fun record => ?_
      cases record <;> rfl
  | void | bool | char | int | string | inferred | array | named | record => rfl

/-- The same for the type of a field, which has two spans to drop. -/
theorem unplaced_fieldType (source : Ty) (sourceSpan : Option Span) (field : String) :
    (reg.fieldType source sourceSpan field span).unplaced =
      reg.fieldType source none field none := by
  refine Check.unplaced_bind (reg.unplaced_accessTarget span source field) fun target =>
    Check.unplaced_bind (Check.unplaced_lift (reg.unplaced_expectKind sourceSpan target _))
      fun record => ?_
  cases record.field? field <;> rfl

theorem unplaced_elementType (source position : Ty) (sourceSpan positionSpan : Option Span) :
    unplaced (reg.elementType source position sourceSpan positionSpan span) =
      reg.elementType source position none none none := by
  refine unplaced_bind (unplaced_discard (reg.unplaced_expectKind positionSpan position _))
    fun _ => unplaced_bind (reg.unplaced_expectKind sourceSpan source _) fun expanded => ?_
  cases expanded <;> rfl

end Registry

theorem BinaryOp.unplaced_resultType (op : BinaryOp) (reg : Registry) (lt rt : Ty)
    (lspan rspan : Option Span) :
    unplaced (op.resultType reg lt rt lspan rspan) = op.resultType reg lt rt none none := by
  have hoperands : ∀ kind, unplaced (reg.expectOperands kind lt rt lspan rspan) =
      reg.expectOperands kind lt rt none none := fun kind =>
    unplaced_bind (unplaced_discard (reg.unplaced_expectKind lspan lt _)) fun _ =>
      unplaced_discard (reg.unplaced_expectKind rspan rt _)
  cases op
  case eq | ne => rfl
  all_goals exact unplaced_bind (hoperands _) fun _ => rfl

theorem UnaryOp.unplaced_resultType (op : UnaryOp) (reg : Registry) (t : Ty) (span : Option Span) :
    unplaced (op.resultType reg t span) = op.resultType reg t none := by
  cases op
  all_goals exact unplaced_bind (unplaced_discard (reg.unplaced_expectKind span t _)) fun _ => rfl

mutual
/-- The same for constants. -/
theorem Value.unplaced_typeOf (reg : Registry) (span : Option Span) : ∀ v : Value,
    (v.typeOf reg span).unplaced = v.typeOf reg none
  | .bool _ | .char _ | .int _ | .string _ => rfl
  | .array vs => by
    rw [Value.typeOf, Value.typeOf]
    exact Check.unplaced_bind (Value.unplaced_typesOf reg span vs) fun ts =>
      Check.unplaced_bind (reg.unplaced_raiseBound span .void ts) fun _ => rfl
  | .record es => by
    rw [Value.typeOf, Value.typeOf]
    exact Check.unplaced_bind (Value.unplaced_fieldsOf reg span [] es) fun _ => rfl

theorem Value.unplaced_typesOf (reg : Registry) (span : Option Span) : ∀ vs : List Value,
    (Value.typesOf reg span vs).unplaced = Value.typesOf reg none vs
  | [] => rfl
  | v :: vs => by
    rw [Value.typesOf, Value.typesOf]
    exact Check.unplaced_bind (Value.unplaced_typeOf reg span v) fun _ =>
      Check.unplaced_bind (Value.unplaced_typesOf reg span vs) fun _ => rfl

theorem Value.unplaced_fieldsOf (reg : Registry) (span : Option Span) :
    ∀ (seen : List String) (es : List Entry),
      (Value.fieldsOf reg span seen es).unplaced = Value.fieldsOf reg none seen es
  | _, [] => rfl
  | seen, ⟨n, v⟩ :: es => by
    rw [Value.fieldsOf, Value.fieldsOf]
    exact Check.unplaced_ite rfl <| Check.unplaced_bind (Value.unplaced_typeOf reg span v) fun _ =>
      Check.unplaced_bind (Value.unplaced_fieldsOf reg span _ es) fun _ => rfl
end

theorem Expr.length_unplacedAll (es : List Expr) : (Expr.unplacedAll es).length = es.length := by
  induction es with
  | nil => rfl
  | cons e es ih => rw [Expr.unplacedAll, List.length_cons, ih, List.length_cons]

/-- A call is the same without spans if its arguments are. -/
theorem unplaced_checkCall (reg : Registry) (method : String) (args : List Expr)
    (span : Option Span) (valueRequired : Bool)
    {visitArgs visitArgs' : List Ty → Visit (List Expr) Unit}
    (hargs : ∀ params, (visitArgs params).unplaced Expr.unplacedAll = visitArgs' params) :
    (checkCall reg method args span valueRequired visitArgs).unplaced Expr.unplacedAll =
      checkCall reg method (Expr.unplacedAll args) none valueRequired visitArgs' := by
  unfold checkCall
  cases reg.method? method with
  | none => rfl
  | some sig =>
    dsimp only
    rw [Expr.length_unplacedAll]
    -- the three ways to refuse a call are at its own span
    refine Visit.unplaced_ite (Visit.unplaced_andThen (hargs _) (fun _ => rfl) fun _ _ => ?_) rfl
    cases valueRequired with
    | true =>
      exact Visit.unplaced_mk rfl (Check.unplaced_bind
        (Check.unplaced_lift (Registry.unplaced_expectNoVoid span sig.ret)) fun _ => rfl)
    | false => rfl

/-! ## Expressions -/

section Expressions

variable (reg : Registry) (env : Env)

/-- An expression without spans has none at its root. -/
theorem Expr.span_unplaced (e : Expr) : e.unplaced.span = none := by
  obtain ⟨form, span, ty⟩ := e
  rfl

mutual
/-- To drop spans and then find types is to find types and then drop spans. -/
theorem Expr.unplaced_synth : ∀ e : Expr,
    (e.synth reg env).unplaced Expr.unplaced = e.unplaced.synth reg env
  -- the type that stands on a node is taken as it is
  | ⟨form, span, some t⟩ => rfl
  | ⟨form, span, none⟩ => by
    rw [Expr.synth, Expr.unplaced, Expr.synth]
    exact Visit.unplaced_andThen (ExprForm.unplaced_synth span form) (fun _ => rfl) fun _ _ => rfl

/-- By cases on the expression. -/
theorem ExprForm.unplaced_synth (span : Option Span) : ∀ form : ExprForm,
    (form.synth reg env span).unplaced Expr.unplacedForm =
      (Expr.unplacedForm form).synth reg env none
  | .binary op l r => by
    rw [ExprForm.synth, Expr.unplacedForm, ExprForm.synth]
    refine Visit.unplaced_andThen (Expr.unplaced_synth l) (fun _ => rfl) fun l lt =>
      Visit.unplaced_andThen (Expr.unplaced_synth r) (fun _ => rfl) fun r rt => ?_
    -- the rule is given the spans of the operands, which are gone
    rw [Expr.span_unplaced, Expr.span_unplaced]
    exact Visit.unplaced_mk rfl (Check.unplaced_lift (op.unplaced_resultType reg lt rt _ _))
  | .constant v => Visit.unplaced_mk rfl (v.unplaced_typeOf reg span)
  | .index source position => by
    rw [ExprForm.synth, Expr.unplacedForm, ExprForm.synth]
    refine Visit.unplaced_andThen (Expr.unplaced_synth source) (fun _ => rfl) fun source st =>
      Visit.unplaced_andThen (Expr.unplaced_synth position) (fun _ => rfl) fun position pt => ?_
    rw [Expr.span_unplaced, Expr.span_unplaced]
    exact Visit.unplaced_mk rfl (Check.unplaced_lift (reg.unplaced_elementType span st pt _ _))
  | .call method args => by
    rw [ExprForm.synth, Expr.unplacedForm, ExprForm.synth]
    exact Visit.unplaced_within (unplaced_checkCall reg method args span true fun params =>
      Expr.unplaced_synthArgs span params args) fun _ => rfl
  | .fill value size => by
    rw [ExprForm.synth, Expr.unplacedForm, ExprForm.synth]
    refine Visit.unplaced_andThen (Expr.unplaced_synth value) (fun _ => rfl) fun value t =>
      Visit.unplaced_andThen (Expr.unplaced_synth size) (fun _ => rfl) fun size st => ?_
    rw [Expr.span_unplaced]
    exact Visit.unplaced_mk rfl (Check.unplaced_bind (Check.unplaced_bind
      (Check.unplaced_lift (reg.unplaced_expectKind _ st _)) fun _ => rfl) fun _ => rfl)
  | .array items => by
    rw [ExprForm.synth, Expr.unplacedForm, ExprForm.synth]
    exact Visit.unplaced_andThen (Expr.unplaced_synthAll items) (fun _ => rfl) fun _ ts =>
      Visit.unplaced_mk rfl (Check.unplaced_bind (reg.unplaced_raiseBound span .void ts)
        fun _ => rfl)
  | .field source name => by
    rw [ExprForm.synth, Expr.unplacedForm, ExprForm.synth]
    refine Visit.unplaced_andThen (Expr.unplaced_synth source) (fun _ => rfl) fun source st => ?_
    rw [Expr.span_unplaced]
    exact Visit.unplaced_mk rfl (reg.unplaced_fieldType span st _ name)
  | .record fields => by
    rw [ExprForm.synth, Expr.unplacedForm, ExprForm.synth]
    exact Visit.unplaced_andThen (FieldInit.unplaced_synthAll span [] fields) (fun _ => rfl)
      fun _ _ => rfl
  | .unary op operand => by
    rw [ExprForm.synth, Expr.unplacedForm, ExprForm.synth]
    refine Visit.unplaced_andThen (Expr.unplaced_synth operand) (fun _ => rfl) fun operand t => ?_
    rw [Expr.span_unplaced]
    exact Visit.unplaced_mk rfl (Check.unplaced_lift (op.unplaced_resultType reg t _))
  | .var x => by
    rw [ExprForm.synth, Expr.unplacedForm, ExprForm.synth]
    cases env.current? x <;> rfl

theorem Expr.unplaced_synthAll : ∀ es : List Expr,
    (Expr.synthAll reg env es).unplaced Expr.unplacedAll =
      Expr.synthAll reg env (Expr.unplacedAll es)
  | [] => rfl
  | e :: es => by
    rw [Expr.synthAll, Expr.unplacedAll, Expr.synthAll]
    exact Visit.unplaced_andThen (Expr.unplaced_synth e) (fun _ => rfl) fun _ _ =>
      Visit.unplaced_andThen (Expr.unplaced_synthAll es) (fun _ => rfl) fun _ _ => rfl

/-- The same for arguments. -/
theorem Expr.unplaced_synthArgs (span : Option Span) : ∀ (params : List Ty) (es : List Expr),
    (Expr.synthArgs reg env span params es).unplaced Expr.unplacedAll =
      Expr.synthArgs reg env none params (Expr.unplacedAll es)
  | _, [] => by
    rw [Expr.synthArgs, Expr.unplacedAll, Expr.synthArgs]
    rfl
  | [], e :: es => by
    rw [Expr.synthArgs, Expr.unplacedAll, Expr.synthArgs]
    rfl
  | p :: ps, e :: es => by
    rw [Expr.synthArgs, Expr.unplacedAll, Expr.synthArgs]
    refine Visit.unplaced_andThen (Expr.unplaced_synth e) (fun _ => rfl) fun e t => ?_
    rw [Expr.span_unplaced]
    exact Visit.unplaced_after (Check.unplaced_lift (reg.unplaced_expectSubtype _ p t)) rfl
      fun _ => Visit.unplaced_within (Expr.unplaced_synthArgs span ps es) fun _ => rfl

/-- The same for the fields of a record, with the names that were seen. -/
theorem FieldInit.unplaced_synthAll (span : Option Span) : ∀ (seen : List String)
    (fs : List FieldInit),
    (FieldInit.synthAll reg env span seen fs).unplaced Expr.unplacedFields =
      FieldInit.synthAll reg env none seen (Expr.unplacedFields fs)
  | _, [] => rfl
  | seen, ⟨n, e⟩ :: fs => by
    rw [FieldInit.synthAll, Expr.unplacedFields, FieldInit.synthAll, Expr.span_unplaced]
    exact Visit.unplaced_ite rfl <|
      Visit.unplaced_andThen (Expr.unplaced_synth e) (fun _ => rfl) fun _ _ =>
        Visit.unplaced_andThen (FieldInit.unplaced_synthAll span _ fs) (fun _ => rfl)
          fun _ _ => rfl
end

end Expressions

/-! ## Statements -/

section Statements

variable (ctx : Context)

theorem Expr.unplaced_checkCondition (env : Env) (e : Expr) :
    (e.checkCondition ctx env).unplaced Expr.unplaced = e.unplaced.checkCondition ctx env := by
  refine Visit.unplaced_andThen (Expr.unplaced_synth ctx.registry env e) (fun _ => rfl)
    fun e t => ?_
  rw [Expr.span_unplaced]
  exact Visit.unplaced_mk rfl (Check.unplaced_bind
    (Check.unplaced_lift (ctx.registry.unplaced_expectKind _ t _)) fun _ => rfl)

theorem VarDecl.unplaced_check (env : Env) (span : Option Span) (d : VarDecl) :
    (d.check ctx env span).unplaced VarDecl.unplaced = d.unplaced.check ctx env none := by
  obtain ⟨name, ty, init⟩ := d
  refine Visit.unplaced_ite rfl (Visit.unplaced_after
    (Check.unplaced_lift (ctx.registry.unplaced_expectValueType span ty)) rfl fun _ => ?_)
  cases init with
  | none => rfl
  | some e =>
    refine Visit.unplaced_andThen (Expr.unplaced_synth ctx.registry env e) (fun _ => rfl)
      fun e t => ?_
    rw [Expr.span_unplaced]
    exact Visit.unplaced_mk rfl (Check.unplaced_lift (ctx.registry.unplaced_expectSubtype _ ty t))

theorem Expr.isAssignable_unplaced (e : Expr) : e.unplaced.isAssignable = e.isAssignable := by
  obtain ⟨form, span, ty⟩ := e
  cases form <;> rfl

/-- What is stored does not depend on spans. -/
theorem Expr.unplaced_store (env : Env) (target : Expr) (targetTy valueTy : Ty)
    (span : Option Span) :
    (target.store ctx env targetTy valueTy span).unplaced id =
      target.unplaced.store ctx env targetTy valueTy none := by
  have hexpect := ctx.registry.unplaced_expectSubtype span targetTy valueTy
  obtain ⟨form, place, ty⟩ := target
  cases form with
  -- only a variable can come to hold another type
  | var x =>
    have hrefine : (env.refine x valueTy).unplaced id = env.refine x valueTy := by
      unfold Env.refine
      cases env.find? x with
      | none => rfl
      | some b => exact Visit.unplaced_ite rfl rfl
    rw [Expr.store, Expr.unplaced, Expr.store]
    refine Visit.unplaced_andThen hrefine (fun _ => rfl) fun env refined => ?_
    exact Visit.unplaced_ite rfl (Visit.unplaced_mk rfl (Check.unplaced_lift hexpect))
  | binary | constant | index | call | fill | array | field | record | unary =>
    exact Visit.unplaced_mk rfl (Check.unplaced_lift hexpect)

/-- Merging fails without a place, whatever place is then given. -/
theorem Env.unplaced_merge (reg : Registry) (env left right : Env) (span : Option Span) :
    ((env.merge reg left right).orAt span).unplaced id = (env.merge reg left right).orAt none := by
  -- a comparison of the two arms that fails has no place until the statement gives it one
  have hresult := unplaced_located (env.merge_failsAt reg left right) span
  exact Visit.unplaced_mk rfl (congrArg (Check.mk _) hresult)

mutual
/-- The same for statements, which leave the same environment. -/
theorem Stmt.unplaced_check (env : Env) : ∀ s : Stmt,
    (s.check ctx env).unplaced (Prod.map id Stmt.unplaced) = s.unplaced.check ctx env
  | ⟨form, span⟩ => by
    rw [Stmt.check, Stmt.unplaced, Stmt.check]
    exact Visit.unplaced_within (StmtForm.unplaced_check env span form) fun _ => rfl

/-- By cases on the statement. -/
theorem StmtForm.unplaced_check (env : Env) (span : Option Span) : ∀ form : StmtForm,
    (form.check ctx env span).unplaced (Prod.map id Stmt.unplacedForm) =
      (Stmt.unplacedForm form).check ctx env none
  | .breakLoop | .continueLoop => rfl
  | .assert e => by
    rw [StmtForm.check, Stmt.unplacedForm, StmtForm.check]
    exact Visit.unplaced_within (e.unplaced_checkCondition ctx env) fun _ => rfl
  | .assign target value => by
    rw [StmtForm.check, Stmt.unplacedForm, StmtForm.check, Expr.isAssignable_unplaced]
    -- a target that cannot be assigned to is an error at its own place
    refine Visit.unplaced_ite ?_ (by rw [Expr.span_unplaced]; rfl)
    refine Visit.unplaced_andThen (target.unplaced_synth ctx.registry env) (fun _ => rfl)
      fun target lt => Visit.unplaced_andThen (value.unplaced_synth ctx.registry env)
        (fun _ => rfl) fun value rt => ?_
    rw [Expr.span_unplaced]
    exact Visit.unplaced_within (target.unplaced_store ctx env lt rt _) fun _ => rfl
  | .forLoop d condition step body => by
    rw [StmtForm.check, Stmt.unplacedForm, StmtForm.check]
    exact Visit.unplaced_andThen (d.unplaced_check ctx env span) (fun _ => rfl) fun _ _ =>
      Visit.unplaced_andThen (condition.unplaced_checkCondition ctx _) (fun _ => rfl) fun _ _ =>
        Visit.unplaced_andThen (Stmt.unplaced_check _ step) (fun _ => rfl) fun _ _ =>
          Visit.unplaced_within (Stmt.unplaced_checkAll _ body) fun _ => rfl
  | .ifElse condition onTrue onFalse => by
    rw [StmtForm.check, Stmt.unplacedForm, StmtForm.check]
    -- merging has no span but that of the statement
    exact Visit.unplaced_andThen (condition.unplaced_checkCondition ctx env) (fun _ => rfl)
      fun _ _ => Visit.unplaced_andThen (Stmt.unplaced_checkAll env onTrue) (fun _ => rfl)
        fun left _ => Visit.unplaced_andThen (Stmt.unplaced_checkAll env onFalse) (fun _ => rfl)
          fun right _ => Visit.unplaced_within
            (Env.unplaced_merge ctx.registry env left.1 right.1 span) fun _ => rfl
  | .call method args => by
    rw [StmtForm.check, Stmt.unplacedForm, StmtForm.check]
    exact Visit.unplaced_andThen (unplaced_checkCall ctx.registry method args span false
      fun params => Expr.unplaced_synthArgs ctx.registry env span params args) (fun _ => rfl)
        fun _ _ => rfl
  | .print e => by
    rw [StmtForm.check, Stmt.unplacedForm, StmtForm.check]
    exact Visit.unplaced_andThen (e.unplaced_synth ctx.registry env) (fun _ => rfl) fun _ _ => rfl
  | .ret (some e) => by
    rw [StmtForm.check, Stmt.unplacedForm, Option.map_some, StmtForm.check]
    refine Visit.unplaced_andThen (e.unplaced_synth ctx.registry env) (fun _ => rfl) fun e t => ?_
    rw [Expr.span_unplaced]
    exact Visit.unplaced_mk rfl
      (Check.unplaced_lift (ctx.registry.unplaced_expectSubtype _ ctx.ret t))
  | .ret none => by
    rw [StmtForm.check, Stmt.unplacedForm, Option.map_none, StmtForm.check]
    refine Visit.unplaced_mk rfl (Check.unplaced_bind
      (Check.unplaced_lift (ctx.registry.unplaced_expand span ctx.ret)) fun expanded => ?_)
    cases expanded <;> rfl
  | .switchOn selector cases => by
    rw [StmtForm.check, Stmt.unplacedForm, StmtForm.check]
    exact Visit.unplaced_andThen (selector.unplaced_synth ctx.registry env) (fun _ => rfl)
      fun _ t => Visit.unplaced_within (SwitchCase.unplaced_checkAll t env cases) fun _ => rfl
  | .matchType selector cases => by
    rw [StmtForm.check, Stmt.unplacedForm, StmtForm.check]
    exact Visit.unplaced_andThen (selector.unplaced_synth ctx.registry env) (fun _ => rfl)
      fun _ t => Visit.unplaced_within (MatchCase.unplaced_checkAll t span env cases) fun _ => rfl
  | .declare d => by
    rw [StmtForm.check, Stmt.unplacedForm, StmtForm.check]
    exact Visit.unplaced_andThen (d.unplaced_check ctx env span) (fun _ => rfl) fun _ _ => rfl
  | .infer x cell init => by
    rw [StmtForm.check, Stmt.unplacedForm, StmtForm.check]
    exact Visit.unplaced_ite rfl <| Visit.unplaced_andThen (init.unplaced_synth ctx.registry env)
      (fun _ => rfl) fun _ _ => Visit.unplaced_ite rfl rfl
  | .whileLoop condition body => by
    rw [StmtForm.check, Stmt.unplacedForm, StmtForm.check]
    exact Visit.unplaced_andThen (condition.unplaced_checkCondition ctx env) (fun _ => rfl)
      fun _ _ => Visit.unplaced_within (Stmt.unplaced_checkAll env body) fun _ => rfl

theorem Stmt.unplaced_checkAll (env : Env) : ∀ ss : List Stmt,
    (Stmt.checkAll ctx env ss).unplaced (Prod.map id Stmt.unplacedAll) =
      Stmt.checkAll ctx env (Stmt.unplacedAll ss)
  | [] => rfl
  | s :: ss => by
    rw [Stmt.checkAll, Stmt.unplacedAll, Stmt.checkAll]
    exact Visit.unplaced_andThen (Stmt.unplaced_check env s) (fun _ => rfl) fun _ _ =>
      Visit.unplaced_within (Stmt.unplaced_checkAll _ ss) fun _ => rfl

theorem SwitchCase.unplaced_checkAll (selector : Ty) (env : Env) : ∀ cs : List SwitchCase,
    (SwitchCase.checkAll ctx selector env cs).unplaced (Prod.map id Stmt.unplacedSwitch) =
      SwitchCase.checkAll ctx selector env (Stmt.unplacedSwitch cs)
  | [] => rfl
  | ⟨none, body⟩ :: cs => by
    rw [SwitchCase.checkAll, Stmt.unplacedSwitch, Option.map_none, SwitchCase.checkAll]
    exact Visit.unplaced_andThen (Stmt.unplaced_checkAll env body) (fun _ => rfl) fun _ _ =>
      Visit.unplaced_within (SwitchCase.unplaced_checkAll selector _ cs) fun _ => rfl
  | ⟨some e, body⟩ :: cs => by
    rw [SwitchCase.checkAll, Stmt.unplacedSwitch, Option.map_some, SwitchCase.checkAll]
    refine Visit.unplaced_andThen (e.unplaced_synth ctx.registry env) (fun _ => rfl) fun e t => ?_
    rw [Expr.span_unplaced]
    exact Visit.unplaced_after
      (Check.unplaced_lift (ctx.registry.unplaced_expectSubtype _ selector t)) rfl fun _ =>
        Visit.unplaced_andThen (Stmt.unplaced_checkAll env body) (fun _ => rfl) fun _ _ =>
          Visit.unplaced_within (SwitchCase.unplaced_checkAll selector _ cs) fun _ => rfl

theorem MatchCase.unplaced_checkAll (selector : Ty) (span : Option Span) (env : Env) :
    ∀ cs : List MatchCase,
      (MatchCase.checkAll ctx selector span env cs).unplaced Stmt.unplacedMatch =
        MatchCase.checkAll ctx selector none env (Stmt.unplacedMatch cs)
  | [] => rfl
  | ⟨t, x, body, caseSpan⟩ :: cs => by
    rw [MatchCase.checkAll, Stmt.unplacedMatch, MatchCase.checkAll]
    refine Visit.unplaced_after ?_ rfl fun _ =>
      Visit.unplaced_andThen (Stmt.unplaced_checkAll _ body) (fun _ => rfl) fun _ _ =>
        Visit.unplaced_within (MatchCase.unplaced_checkAll selector span env cs) fun _ => rfl
    exact Check.unplaced_bind
      (Check.unplaced_lift (ctx.registry.unplaced_expectValueType _ t)) fun _ =>
        Check.unplaced_bind
          (Check.unplaced_lift (ctx.registry.unplaced_expectSubtype _ selector t)) fun _ => rfl
end

end Statements

/-! ## Declarations -/

theorem Parameter.unplaced_bindAll (reg : Registry) (span : Option Span) (env : Env)
    (ps : List Parameter) :
    WhileTyping.unplaced (Parameter.bindAll reg span env ps) =
      Parameter.bindAll reg none env (ps.map Parameter.unplaced) := by
  induction ps generalizing env with
  | nil => rfl
  | cons p ps ih =>
    refine unplaced_bind (reg.unplaced_expectValueType _ p.ty) fun _ => ?_
    exact unplaced_ite rfl (ih _)

/-- The same for the part of a declaration before its body. -/
theorem Decl.unplaced_checkSignature (reg : Registry) : ∀ d : Decl,
    (d.checkSignature reg).unplaced = d.unplaced.checkSignature reg
  | .alias d => Check.unplaced_bind rfl fun _ =>
      Check.unplaced_bind (Check.unplaced_lift (reg.unplaced_expectValueType _ d.ty)) fun _ => rfl
  | .method d => by
    have hlength : d.unplaced.params.length = d.params.length := List.length_map ..
    rw [checkSignature, unplaced, checkSignature, hlength]
    exact Check.unplaced_bind rfl fun _ =>
      Check.unplaced_bind (Check.unplaced_lift (Parameter.unplaced_bindAll reg _ {} d.params))
        fun _ => Check.unplaced_bind
          (Check.unplaced_lift (reg.unplaced_expectReturnType _ d.ret)) fun _ => rfl

/-- The spans of a declaration make no difference to its check, apart from the place of an error. -/
theorem Decl.unplaced_check (reg : Registry) : ∀ d : Decl,
    (d.check reg).unplaced Decl.unplaced = d.unplaced.check reg
  | .alias d => Visit.unplaced_after (Decl.unplaced_checkSignature reg (.alias d)) rfl fun _ => rfl
  | .method d => Visit.unplaced_after (Decl.unplaced_checkSignature reg (.method d)) rfl fun env =>
      Visit.unplaced_within (Stmt.unplaced_checkAll ⟨reg, d.ret⟩ env d.body) fun _ => rfl

end WhileTyping
