import Mathlib.Data.List.Forall2
import WhileTyping.Proofs.SessionRuns

/-!
# Types are written once

A session may check its declarations as often as it likes and in any order, and a check may fail in
the middle of an expression. A type that is on the tree stays there all the same, and an expression
never has a type before the expressions within it have theirs.

* **`Expr.nodes`**, **`Decl.exprs`**: the expressions of a tree, in pre-order.
* **`DownClosed`**: an expression that has a type has types at all expressions within it.
* **`Progress`**: what a check makes of a piece of a tree. Types are kept, the tree stays downward
  closed, and after a check that has come to the end of the piece every expression has a type.
* **`Expr.synth_progress`**, **`Stmt.check_advances`**, **`Decl.check_advances`**: every check makes
  progress, by induction on the syntax.
* **`Session.afterCall_onward`**, **`Session.afterCalls_onward`**: the step of one call, and from it
  the run of any sequence of calls.
* **`Session.types_written_once`**: the result for a session on a fresh file.
-/

namespace WhileTyping

/-! ## The expressions of a tree -/

namespace Expr

mutual
/-- An expression and the expressions within it. -/
def nodes : Expr → List Expr
  | ⟨form, span, ty⟩ => ⟨form, span, ty⟩ :: nodesForm form

def nodesForm : ExprForm → List Expr
  | .binary _ l r => nodes l ++ nodes r
  | .constant _ | .var _ => []
  | .index source position => nodes source ++ nodes position
  | .call _ args => nodesAll args
  | .fill value size => nodes value ++ nodes size
  | .array items => nodesAll items
  | .field source _ => nodes source
  | .record fields => nodesFields fields
  | .unary _ operand => nodes operand

def nodesAll : List Expr → List Expr
  | [] => []
  | e :: es => nodes e ++ nodesAll es

def nodesFields : List FieldInit → List Expr
  | [] => []
  | ⟨_, e⟩ :: fs => nodes e ++ nodesFields fs
end

end Expr

namespace Stmt

/-- The expressions in one that need not be there. -/
def optionExprs : Option Expr → List Expr
  | none => []
  | some e => e.nodes

mutual
/-- The expressions of a statement and of the statements within it. -/
def exprs : Stmt → List Expr
  | ⟨form, _⟩ => exprsForm form

def exprsForm : StmtForm → List Expr
  | .assert e | .print e => e.nodes
  | .assign target value => target.nodes ++ value.nodes
  | .breakLoop | .continueLoop => []
  | .forLoop decl condition step body =>
    optionExprs decl.init ++ condition.nodes ++ exprs step ++ exprsAll body
  | .ifElse condition onTrue onFalse => condition.nodes ++ exprsAll onTrue ++ exprsAll onFalse
  | .call _ args => Expr.nodesAll args
  | .ret value => optionExprs value
  | .switchOn selector cases => selector.nodes ++ exprsSwitch cases
  | .matchType selector cases => selector.nodes ++ exprsMatch cases
  | .declare decl => optionExprs decl.init
  | .infer _ _ init => init.nodes
  | .whileLoop condition body => condition.nodes ++ exprsAll body

def exprsAll : List Stmt → List Expr
  | [] => []
  | s :: ss => exprs s ++ exprsAll ss

def exprsSwitch : List SwitchCase → List Expr
  | [] => []
  | ⟨value, body⟩ :: cs => optionExprs value ++ exprsAll body ++ exprsSwitch cs

def exprsMatch : List MatchCase → List Expr
  | [] => []
  | ⟨_, _, body, _⟩ :: cs => exprsAll body ++ exprsMatch cs
end

end Stmt

/-- The expressions of a declaration. An alias has none. -/
def Decl.exprs : Decl → List Expr
  | .alias _ => []
  | .method d => Stmt.exprsAll d.body

/-! ## Their slots -/

/-- The slots of the expressions are among the given slots. -/
def Listed (es : List Expr) (slots : List Slot) : Prop := ∀ e ∈ es, Slot.expr e.ty ∈ slots

theorem listed_nil : Listed [] [] := nofun

/-- What is listed in two parts is listed in both together. -/
theorem Listed.append {es es' : List Expr} {slots slots' : List Slot} (h : Listed es slots)
    (h' : Listed es' slots') : Listed (es ++ es') (slots ++ slots') :=
  List.forall_mem_append.2 ⟨fun e he => List.mem_append_left _ (h e he),
    fun e he => List.mem_append_right _ (h' e he)⟩

namespace Expr

mutual
/-- The slots of an expression are those of its nodes, in order. -/
theorem slots_eq : ∀ e : Expr, e.slots = e.nodes.map Expr.ty
  | ⟨form, span, ty⟩ => by
    rw [slots, nodes, List.map_cons, slotsForm_eq form]

theorem slotsForm_eq : ∀ form : ExprForm, slotsForm form = (nodesForm form).map Expr.ty
  | .constant _ | .var _ => rfl
  | .binary _ a b | .index a b | .fill a b => by
    rw [slotsForm, nodesForm, List.map_append, slots_eq a, slots_eq b]
  | .field e _ | .unary _ e => by rw [slotsForm, nodesForm, slots_eq e]
  | .call _ es | .array es => by rw [slotsForm, nodesForm, slotsAll_eq es]
  | .record fs => by rw [slotsForm, nodesForm, slotsFields_eq fs]

theorem slotsAll_eq : ∀ es : List Expr, slotsAll es = (nodesAll es).map Expr.ty
  | [] => rfl
  | e :: es => by rw [slotsAll, nodesAll, List.map_append, slots_eq e, slotsAll_eq es]

theorem slotsFields_eq : ∀ fs : List FieldInit, slotsFields fs = (nodesFields fs).map Expr.ty
  | [] => rfl
  | ⟨_, e⟩ :: fs => by
    rw [slotsFields, nodesFields, List.map_append, slots_eq e, slotsFields_eq fs]
end

/-- The nodes of an expression in a statement have their slots there. -/
theorem nodes_listed (e : Expr) : Listed e.nodes (Stmt.exprSlots e) := by
  intro e' he'
  rw [Stmt.exprSlots, slots_eq, List.map_map]
  exact List.mem_map_of_mem he'

theorem nodesAll_listed (es : List Expr) : Listed (nodesAll es) (es.flatMap Stmt.exprSlots) := by
  intro e he
  rw [Stmt.flatMap_exprSlots, slotsAll_eq, List.map_map]
  exact List.mem_map_of_mem he

end Expr

namespace Stmt

theorem optionExprs_listed : ∀ e : Option Expr, Listed (optionExprs e) (optionSlots e)
  | none => listed_nil
  | some e => e.nodes_listed

mutual
/-- Every expression of a statement has its slot there. -/
theorem exprs_listed : ∀ s : Stmt, Listed s.exprs s.slots
  | ⟨form, span⟩ => by
    rw [exprs, slots]
    exact exprsForm_listed form

theorem exprsForm_listed : ∀ form : StmtForm, Listed (exprsForm form) (slotsForm form)
  | .assert e | .print e => e.nodes_listed
  | .assign target value => target.nodes_listed.append value.nodes_listed
  | .breakLoop | .continueLoop => listed_nil
  | .forLoop d condition step body => by
    rw [exprsForm, slotsForm]
    exact (((optionExprs_listed _).append condition.nodes_listed).append (exprs_listed step)).append
      (exprsAll_listed body)
  | .ifElse condition onTrue onFalse => by
    rw [exprsForm, slotsForm]
    exact (condition.nodes_listed.append (exprsAll_listed onTrue)).append (exprsAll_listed onFalse)
  | .call _ args => Expr.nodesAll_listed args
  | .ret value => optionExprs_listed value
  | .switchOn selector cases => by
    rw [exprsForm, slotsForm]
    exact selector.nodes_listed.append (exprsSwitch_listed cases)
  | .matchType selector cases => by
    rw [exprsForm, slotsForm]
    exact selector.nodes_listed.append (exprsMatch_listed cases)
  | .declare d => optionExprs_listed d.init
  -- the cell has a slot before those of the initial value
  | .infer _ cell init => fun e he => List.mem_cons_of_mem _ (init.nodes_listed e he)
  | .whileLoop condition body => by
    rw [exprsForm, slotsForm]
    exact condition.nodes_listed.append (exprsAll_listed body)

theorem exprsAll_listed : ∀ ss : List Stmt, Listed (exprsAll ss) (slotsAll ss)
  | [] => listed_nil
  | s :: ss => by
    rw [exprsAll, slotsAll]
    exact (exprs_listed s).append (exprsAll_listed ss)

theorem exprsSwitch_listed : ∀ cs : List SwitchCase, Listed (exprsSwitch cs) (slotsSwitch cs)
  | [] => listed_nil
  | ⟨value, body⟩ :: cs => by
    rw [exprsSwitch, slotsSwitch]
    exact ((optionExprs_listed value).append (exprsAll_listed body)).append (exprsSwitch_listed cs)

theorem exprsMatch_listed : ∀ cs : List MatchCase, Listed (exprsMatch cs) (slotsMatch cs)
  | [] => listed_nil
  | ⟨_, _, body, _⟩ :: cs => by
    rw [exprsMatch, slotsMatch]
    exact (exprsAll_listed body).append (exprsMatch_listed cs)
end

end Stmt

/-- The same for a declaration. -/
theorem Decl.exprs_listed : ∀ d : Decl, Listed d.exprs d.slots
  | .alias _ => listed_nil
  | .method d => Stmt.exprsAll_listed d.body

/-! ## Progress -/

/-- A type that is there stays as it is. -/
def TypeKept (t t' : Option Ty) : Prop := ∀ u, t = some u → t' = some u

/-- What has been found stays as it is: the type of an expression, or the type in a cell. -/
def Slot.Kept : Slot → Slot → Prop
  | .expr t, .expr t' => TypeKept t t'
  | .cell t, .cell t' => t ≠ .inferred → t' = t
  | _, _ => False

/-- What is kept twice is kept. -/
theorem TypeKept.trans {t t' t'' : Option Ty} (h : TypeKept t t') (h' : TypeKept t' t'') :
    TypeKept t t'' :=
  fun u hu => h' u (h u hu)

theorem Slot.Kept.trans : ∀ {s s' s'' : Slot}, s.Kept s' → s'.Kept s'' → s.Kept s''
  | .expr _, .expr _, .expr _, h, h' => TypeKept.trans h h'
  | .cell _, .cell _, .cell _, h, h' => by
    intro hne
    have hfirst := h hne
    subst hfirst
    exact h' hne

instance : Std.Refl TypeKept := ⟨fun _ _ h => h⟩

instance : Std.Refl Slot.Kept where
  refl
    | .expr t => Std.Refl.refl (r := TypeKept) t
    | .cell _ => fun _ => rfl

/-- Expressions that all have their types. -/
def AllTyped (es : List Expr) : Prop := ∀ e ∈ es, e.ty ≠ none

/-- An expression with a type has only expressions with types within it. -/
def DownClosed (es : List Expr) : Prop := ∀ e ∈ es, e.ty ≠ none → AllTyped e.nodes

/-- Two lists of expressions have this property if each does. -/
theorem downClosed_append {es es' : List Expr} :
    DownClosed (es ++ es') ↔ DownClosed es ∧ DownClosed es' :=
  List.forall_mem_append

/-- What a check makes of a piece of a tree, given by the slots of the piece and by its expressions.
`done` says when the check has come to the end of the piece. -/
structure Progress {α : Type} (Kept : α → α → Prop) (slots slots' : List α)
    (es es' : List Expr) (done : Prop) : Prop where
  kept : List.Forall₂ Kept slots slots'
  closed : DownClosed es → DownClosed es'
  complete : DownClosed es → done → AllTyped es'

namespace Progress

variable {α : Type} {Kept : α → α → Prop} {slots slots' more more' : List α}
  {es es' fs fs' : List Expr} {done done' : Prop}

/-- Less may be asked for. -/
theorem imp (h : Progress Kept slots slots' es es' done) (hdone : done' → done) :
    Progress Kept slots slots' es es' done' where
  kept := h.kept
  closed := h.closed
  complete hclosed hd := h.complete hclosed (hdone hd)

/-- A check that stops here makes the progress of one that has come to the end, apart from the
end. -/
theorem stop (h : Progress Kept slots slots' es es' done) :
    Progress Kept slots slots' es es' False :=
  h.imp False.elim

theorem nil : Progress Kept [] [] [] [] done where
  kept := .nil
  closed := id
  complete _ _ := nofun

/-- A piece that is not looked at stays as it is. -/
theorem refl [Std.Refl Kept] : Progress Kept slots slots es es False where
  kept := List.forall₂_refl slots
  closed := id
  complete _ := False.elim

/-- Two parts that progress do so together. -/
theorem append (h : Progress Kept slots slots' es es' done)
    (h' : Progress Kept more more' fs fs' done) :
    Progress Kept (slots ++ more) (slots' ++ more') (es ++ fs) (es' ++ fs') done where
  kept := List.rel_append h.kept h'.kept
  closed hclosed := by
    rw [downClosed_append] at hclosed ⊢
    exact ⟨h.closed hclosed.1, h'.closed hclosed.2⟩
  complete hclosed hdone := by
    rw [downClosed_append] at hclosed
    exact List.forall_mem_append.2 ⟨h.complete hclosed.1 hdone, h'.complete hclosed.2 hdone⟩

/-- The same progress within a statement. -/
theorem inStmt {slots slots' : List (Option Ty)} (h : Progress TypeKept slots slots' es es' done) :
    Progress Slot.Kept (slots.map Slot.expr) (slots'.map Slot.expr) es es' False where
  kept := by
    rw [List.forall₂_map_left_iff, List.forall₂_map_right_iff]
    exact h.kept
  closed := h.closed
  complete _ := False.elim

/-- A node takes a type only when everything within it has been done. -/
theorem node {form form' : ExprForm} {span : Option Span} {ty : Option Ty}
    (h : Progress TypeKept (Expr.slotsForm form) (Expr.slotsForm form') (Expr.nodesForm form)
      (Expr.nodesForm form') done) (hty : ty ≠ none → done) :
    Progress TypeKept (Expr.slots ⟨form, span, none⟩) (Expr.slots ⟨form', span, ty⟩)
      (Expr.nodes ⟨form, span, none⟩) (Expr.nodes ⟨form', span, ty⟩) (ty ≠ none) := by
  have htail : DownClosed (Expr.nodes ⟨form, span, none⟩) → DownClosed (Expr.nodesForm form) := by
    rw [Expr.nodes]
    exact fun hclosed => (List.forall_mem_cons.1 hclosed).2
  -- a type is written on the node only when its parts are done
  have hcomplete : DownClosed (Expr.nodes ⟨form, span, none⟩) → ty ≠ none →
      AllTyped (Expr.nodes ⟨form', span, ty⟩) := by
    intro hclosed hsome
    rw [Expr.nodes]
    exact List.forall_mem_cons.2 ⟨hsome, h.complete (htail hclosed) (hty hsome)⟩
  refine ⟨?_, fun hclosed => ?_, hcomplete⟩
  · rw [Expr.slots, Expr.slots]
    exact .cons (fun u hu => nomatch hu) h.kept
  · -- the node itself, and below it what the parts have come to
    have hhead := hcomplete hclosed
    rw [Expr.nodes] at hhead ⊢
    refine List.forall_mem_cons.2 ⟨?_, h.closed (htail hclosed)⟩
    rw [Expr.nodes]
    exact hhead

end Progress

/-! ## Expressions -/

section Visits

variable {σ τ α β : Type} {slots : τ → List (Option Ty)} {es : τ → List Expr} {given : τ}

/-- The visit of a piece makes progress with it, and comes to its end if it succeeds. -/
def Visit.Progresses (slots : σ → List (Option Ty)) (es : σ → List Expr) (given : σ)
    (v : Visit σ α) : Prop :=
  Progress TypeKept (slots given) (slots v.left) (es given) (es v.left) (∃ a, v.run.result = .ok a)

/-- Two visits in sequence progress, wherever the sequence stops. -/
theorem Visit.progresses_andThen {v : Visit σ α} {stop : σ → τ} {next : σ → α → Visit τ β}
    (hstop : Progress TypeKept (slots given) (slots (stop v.left)) (es given) (es (stop v.left))
      False)
    (hnext : ∀ a, v.run.result = .ok a → (next v.left a).Progresses slots es given) :
    (v.andThen stop next).Progresses slots es given := by
  refine Visit.andThen_of (Q := fun left r => Progress TypeKept (slots given) (slots left)
    (es given) (es left) (∃ b, r = .ok b)) (fun e _ => ?_) hnext
  refine hstop.imp ?_
  rintro ⟨b, hb⟩
  cases hb

end Visits

section Expressions

variable (reg : Registry) (env : Env)

/-- An expression with one operand, whose visit progresses. -/
theorem progresses_operand (mk : Expr → ExprForm) {e : Expr} {k : Expr → Ty → Check Ty}
    (hslots : ∀ e, Expr.slotsForm (mk e) = e.slots) (hnodes : ∀ e, Expr.nodesForm (mk e) = e.nodes)
    (he : (e.synth reg env).Progresses Expr.slots Expr.nodes e) :
    ((e.synth reg env).andThen mk fun e t => ⟨mk e, k e t⟩).Progresses Expr.slotsForm
      Expr.nodesForm (mk e) := by
  refine Visit.progresses_andThen ?_ fun t ht => ?_
  · rw [hslots, hslots, hnodes, hnodes]
    exact he.stop
  · rw [Visit.Progresses, hslots, hslots, hnodes, hnodes]
    exact he.imp fun _ => ⟨t, ht⟩

/-- The same for two operands. If the first fails, the second is as it was. -/
theorem progresses_operands (mk : Expr → Expr → ExprForm) {l r : Expr}
    {k : Expr → Ty → Expr → Ty → Check Ty}
    (hslots : ∀ l r, Expr.slotsForm (mk l r) = l.slots ++ r.slots)
    (hnodes : ∀ l r, Expr.nodesForm (mk l r) = l.nodes ++ r.nodes)
    (hl : (l.synth reg env).Progresses Expr.slots Expr.nodes l)
    (hr : (r.synth reg env).Progresses Expr.slots Expr.nodes r) :
    ((l.synth reg env).andThen (fun l => mk l r) fun l lt =>
      (r.synth reg env).andThen (fun r => mk l r) fun r rt => ⟨mk l r, k l lt r rt⟩).Progresses
        Expr.slotsForm Expr.nodesForm (mk l r) := by
  refine Visit.progresses_andThen ?_ fun lt hlt => Visit.progresses_andThen ?_ fun rt hrt => ?_
  · -- stopped in the first operand
    rw [hslots, hslots, hnodes, hnodes]
    exact hl.stop.append .refl
  · rw [hslots, hslots, hnodes, hnodes]
    exact hl.stop.append hr.stop
  · rw [Visit.Progresses, hslots, hslots, hnodes, hnodes]
    exact (hl.imp fun _ => ⟨lt, hlt⟩).append (hr.imp fun _ => ⟨rt, hrt⟩)

/-- A call that succeeds has been given as many arguments as parameters, and so has come to all of
them. -/
theorem progresses_checkCall (method : String) (args : List Expr) (span : Option Span)
    (valueRequired : Bool) {visitArgs : List Ty → Visit (List Expr) Unit}
    (hvisit : ∀ params, args.length = params.length →
      (visitArgs params).Progresses Expr.slotsAll Expr.nodesAll args) :
    (checkCall reg method args span valueRequired visitArgs).Progresses Expr.slotsAll Expr.nodesAll
      args := by
  -- a call that is refused at once leaves its arguments alone
  have hfails : ∀ e : TypeError, (⟨args, .fail e⟩ : Visit (List Expr) Ty).Progresses Expr.slotsAll
      Expr.nodesAll args := by
    intro e
    refine Progress.refl.imp ?_
    rintro ⟨t, ht⟩
    cases ht
  unfold checkCall
  split
  · exact hfails _
  · rename_i sig hsig
    split
    · rename_i hlen
      have hargs := hvisit sig.params hlen
      exact Visit.progresses_andThen hargs.stop fun _ hok => hargs.imp fun _ => ⟨(), hok⟩
    · exact hfails _

mutual
/-- Finding the type of an expression keeps the types that are there, and leaves none above a node
without one. -/
theorem Expr.synth_progress : ∀ e : Expr, (e.synth reg env).Progresses Expr.slots Expr.nodes e
  | ⟨form, span, some t⟩ => by
    -- everything below a type has one already
    refine ⟨List.forall₂_refl _, id, fun hclosed _ => ?_⟩
    have hself : (⟨form, span, some t⟩ : Expr) ∈ Expr.nodes ⟨form, span, some t⟩ := by
      rw [Expr.nodes]
      exact List.mem_cons_self
    exact hclosed _ hself (Option.some_ne_none t)
  | ⟨form, span, none⟩ => by
    have hform := ExprForm.synth_progress span form
    rw [Expr.synth]
    refine Visit.progresses_andThen ?_ fun t ht => ?_
    · exact (hform.node fun hnone => absurd rfl hnone).stop
    · exact (hform.node fun _ => ⟨t, ht⟩).imp fun _ => Option.some_ne_none t

/-- By cases on the expression. All operands have types by the time that the rule is come to. -/
theorem ExprForm.synth_progress (span : Option Span) : ∀ form : ExprForm,
    (form.synth reg env span).Progresses Expr.slotsForm Expr.nodesForm form
  -- no parts, so nothing to write below the node
  | .constant v | .var x => Progress.nil
  | .binary op l r =>
    progresses_operands reg env (.binary op) (fun _ _ => rfl) (fun _ _ => rfl)
      (Expr.synth_progress l) (Expr.synth_progress r)
  | .index source position =>
    progresses_operands reg env .index (fun _ _ => rfl) (fun _ _ => rfl)
      (Expr.synth_progress source) (Expr.synth_progress position)
  | .fill value size =>
    progresses_operands reg env .fill (fun _ _ => rfl) (fun _ _ => rfl)
      (Expr.synth_progress value) (Expr.synth_progress size)
  | .field source name =>
    progresses_operand reg env (.field · name) (fun _ => rfl) (fun _ => rfl)
      (Expr.synth_progress source)
  | .unary op operand =>
    progresses_operand reg env (.unary op) (fun _ => rfl) (fun _ => rfl)
      (Expr.synth_progress operand)
  | .call method args => by
    have hargs := progresses_checkCall reg method args span true fun params hlen =>
      Expr.synthArgs_progress span params args hlen
    rw [ExprForm.synth]
    exact hargs
  | .array items => by
    have hitems := Expr.synthAll_progress items
    rw [ExprForm.synth]
    exact Visit.progresses_andThen hitems.stop fun ts hts => hitems.imp fun _ => ⟨ts, hts⟩
  | .record fields => by
    have hfields := FieldInit.synthAll_progress span [] fields
    rw [ExprForm.synth]
    exact Visit.progresses_andThen hfields.stop fun fs hfs => hfields.imp fun _ => ⟨fs, hfs⟩

theorem Expr.synthAll_progress : ∀ es : List Expr,
    (Expr.synthAll reg env es).Progresses Expr.slotsAll Expr.nodesAll es
  | [] => Progress.nil
  | e :: es => by
    have he := Expr.synth_progress e
    have hes := Expr.synthAll_progress es
    rw [Expr.synthAll]
    refine Visit.progresses_andThen ?_ fun t ht => Visit.progresses_andThen ?_ fun ts hts => ?_
    · exact he.stop.append .refl
    · exact he.stop.append hes.stop
    · exact (he.imp fun _ => ⟨t, ht⟩).append (hes.imp fun _ => ⟨ts, hts⟩)

/-- The same for arguments, as many as there are parameters. -/
theorem Expr.synthArgs_progress (span : Option Span) : ∀ (params : List Ty) (es : List Expr),
    es.length = params.length →
      (Expr.synthArgs reg env span params es).Progresses Expr.slotsAll Expr.nodesAll es
  | _, [], _ => by
    rw [Expr.synthArgs]
    exact Progress.nil
  | [], e :: es, hlen => nomatch hlen
  | p :: ps, e :: es, hlen => by
    have he := Expr.synth_progress e
    have hes := Expr.synthArgs_progress span ps es (Nat.succ.inj hlen)
    rw [Expr.synthArgs]
    refine Visit.progresses_andThen ?_ fun t ht => Visit.progresses_andThen ?_ fun _ _ => ?_
    · exact he.stop.append .refl
    · exact he.stop.append .refl
    · exact (he.imp fun _ => ⟨t, ht⟩).append hes

theorem FieldInit.synthAll_progress (span : Option Span) : ∀ (seen : List String)
    (fs : List FieldInit),
      (FieldInit.synthAll reg env span seen fs).Progresses Expr.slotsFields Expr.nodesFields fs
  | _, [] => Progress.nil
  | seen, ⟨n, e⟩ :: fs => by
    have he := Expr.synth_progress e
    have hfs := FieldInit.synthAll_progress span (n :: seen) fs
    rw [FieldInit.synthAll]
    split
    · -- a name that comes twice stops the visit before its value
      refine Progress.refl.imp ?_
      rintro ⟨t, ht⟩
      cases ht
    · refine Visit.progresses_andThen ?_ fun t ht => Visit.progresses_andThen ?_ fun ts hts => ?_
      · exact he.stop.append .refl
      · exact he.stop.append hfs.stop
      · exact (he.imp fun _ => ⟨t, ht⟩).append (hfs.imp fun _ => ⟨ts, hts⟩)
end

end Expressions

/-! ## Statements -/

/-- Progress with a piece that holds statements. Where it ends makes no difference, since a
statement has no type of its own. -/
def Advances {σ : Type} (slots : σ → List Slot) (es : σ → List Expr) (a a' : σ) : Prop :=
  Progress Slot.Kept (slots a) (slots a') (es a) (es a') False

theorem Advances.refl {σ : Type} {slots : σ → List Slot} {es : σ → List Expr} (a : σ) :
    Advances slots es a a :=
  Progress.refl

/-- Two visits in sequence advance, wherever the sequence stops. -/
theorem advances_andThen {σ τ α β : Type} {slots : τ → List Slot} {es : τ → List Expr} {given : τ}
    {v : Visit σ α} {stop : σ → Env × τ} {next : σ → α → Visit (Env × τ) β}
    (hstop : Advances slots es given (stop v.left).2)
    (hnext : ∀ a, Advances slots es given (next v.left a).left.2) :
    Advances slots es given (v.andThen stop next).left.2 :=
  Visit.left_andThen_of (P := fun left : Env × τ => Advances slots es given left.2) hstop
    fun a _ => hnext a

section Statements

variable (ctx : Context)

theorem Expr.synth_advances (env : Env) (e : Expr) :
    Advances Stmt.exprSlots Expr.nodes e (e.synth ctx.registry env).left :=
  (Expr.synth_progress ctx.registry env e).inStmt

theorem Expr.checkCondition_advances (env : Env) (e : Expr) :
    Advances Stmt.exprSlots Expr.nodes e (e.checkCondition ctx env).left := by
  have he := e.synth_advances ctx env
  exact Visit.left_andThen_of he fun _ _ => he

theorem Expr.synthCall_advances (env : Env) (method : String) (args : List Expr)
    (span : Option Span) :
    Advances (fun es => es.flatMap Stmt.exprSlots) Expr.nodesAll args
      (Expr.synthCall ctx.registry env method args span false).left := by
  have hargs := progresses_checkCall ctx.registry method args span false fun params hlen =>
    Expr.synthArgs_progress ctx.registry env span params args hlen
  rw [Advances, Stmt.flatMap_exprSlots, Stmt.flatMap_exprSlots]
  exact hargs.inStmt

theorem VarDecl.check_advances (env : Env) (span : Option Span) (d : VarDecl) :
    Advances Stmt.optionSlots Stmt.optionExprs d.init (d.check ctx env span).left.init := by
  unfold VarDecl.check
  split
  · exact .refl _
  · refine Visit.left_after_of (P := fun d' : VarDecl => Advances _ _ d.init d'.init) (.refl _)
      fun _ _ => ?_
    split
    · exact .refl _
    · rename_i e he
      have hinit := e.synth_advances ctx env
      rw [he]
      exact Visit.left_andThen_of (P := fun d' : VarDecl => Advances _ _ (some e) d'.init) hinit
        fun _ _ => hinit

mutual
/-- The check of a statement keeps the types that are there. -/
theorem Stmt.check_advances (env : Env) : ∀ s : Stmt,
    Advances Stmt.slots Stmt.exprs s (s.check ctx env).left.2
  | ⟨form, span⟩ => by
    rw [Stmt.check]
    exact StmtForm.check_advances env span form

/-- By cases on the statement. -/
theorem StmtForm.check_advances (env : Env) (span : Option Span) : ∀ form : StmtForm,
    Advances Stmt.slotsForm Stmt.exprsForm form (form.check ctx env span).left.2
  | .breakLoop | .continueLoop | .ret none => .refl _
  | .assert e => e.checkCondition_advances ctx env
  | .assign target value => by
    have htarget := target.synth_advances ctx env
    have hvalue := value.synth_advances ctx env
    unfold StmtForm.check
    split
    · refine advances_andThen ?_ fun _ => advances_andThen ?_ fun _ => ?_
      · -- one goal for each place where the visit may stop
        exact htarget.append .refl
      · exact htarget.append hvalue
      · exact htarget.append hvalue
    · exact .refl _
  | .forLoop d condition step body => by
    have hd := d.check_advances ctx env span
    rw [StmtForm.check]
    refine advances_andThen ?_ fun _ => advances_andThen ?_ fun _ => advances_andThen ?_ fun _ => ?_
    · exact ((hd.append .refl).append .refl).append .refl
    · exact ((hd.append (condition.checkCondition_advances ctx _)).append .refl).append .refl
    · exact ((hd.append (condition.checkCondition_advances ctx _)).append
        (Stmt.check_advances _ step)).append .refl
    · exact ((hd.append (condition.checkCondition_advances ctx _)).append
        (Stmt.check_advances _ step)).append (Stmt.checkAll_advances _ body)
  | .ifElse condition onTrue onFalse => by
    have hcondition := condition.checkCondition_advances ctx env
    have htrue := Stmt.checkAll_advances env onTrue
    have hfalse := Stmt.checkAll_advances env onFalse
    rw [StmtForm.check]
    refine advances_andThen ?_ fun _ => advances_andThen ?_ fun _ => advances_andThen ?_ fun _ => ?_
    · exact (hcondition.append .refl).append .refl
    · exact (hcondition.append htrue).append .refl
    all_goals exact (hcondition.append htrue).append hfalse
  | .call method args => by
    have hargs := Expr.synthCall_advances ctx env method args span
    rw [StmtForm.check]
    exact advances_andThen hargs fun _ => hargs
  | .print e => by
    have he := e.synth_advances ctx env
    rw [StmtForm.check]
    exact advances_andThen he fun _ => he
  | .ret (some e) => by
    have he := e.synth_advances ctx env
    rw [StmtForm.check]
    exact advances_andThen he fun _ => he
  | .switchOn selector cases => by
    have hselector := selector.synth_advances ctx env
    rw [StmtForm.check]
    refine advances_andThen ?_ fun t => ?_
    · exact hselector.append .refl
    · exact hselector.append (SwitchCase.checkAll_advances t env cases)
  | .matchType selector cases => by
    have hselector := selector.synth_advances ctx env
    rw [StmtForm.check]
    refine advances_andThen ?_ fun t => ?_
    · exact hselector.append .refl
    · exact hselector.append (MatchCase.checkAll_advances t span env cases)
  | .declare d => by
    have hd := d.check_advances ctx env span
    rw [StmtForm.check]
    exact advances_andThen hd fun _ => hd
  | .infer x cell init => by
    have hinit := init.synth_advances ctx env
    -- a cell is written only while it says `inferred`
    have hcell : ∀ cell', (cell ≠ .inferred → cell' = cell) → Advances Stmt.slotsForm Stmt.exprsForm
        (.infer x cell init) (.infer x cell' (init.synth ctx.registry env).left) :=
      fun cell' hkept => ⟨.cons hkept hinit.kept, hinit.closed, fun _ => False.elim⟩
    unfold StmtForm.check
    split
    · exact .refl _
    · refine advances_andThen (hcell cell fun _ => rfl) fun t => ?_
      split
      · rename_i hinferred
        exact hcell t fun hne => absurd (Env.isInferred_iff.1 hinferred) hne
      · exact hcell cell fun _ => rfl
  | .whileLoop condition body => by
    have hcondition := condition.checkCondition_advances ctx env
    rw [StmtForm.check]
    refine advances_andThen ?_ fun _ => ?_
    · exact hcondition.append .refl
    · exact hcondition.append (Stmt.checkAll_advances env body)

theorem Stmt.checkAll_advances (env : Env) : ∀ ss : List Stmt,
    Advances Stmt.slotsAll Stmt.exprsAll ss (Stmt.checkAll ctx env ss).left.2
  | [] => .refl _
  | s :: ss => by
    have hs := Stmt.check_advances env s
    rw [Stmt.checkAll]
    refine advances_andThen ?_ fun _ => ?_
    · exact hs.append .refl
    · exact hs.append (Stmt.checkAll_advances _ ss)

theorem SwitchCase.checkAll_advances (selector : Ty) (env : Env) : ∀ cs : List SwitchCase,
    Advances Stmt.slotsSwitch Stmt.exprsSwitch cs (SwitchCase.checkAll ctx selector env cs).left.2
  | [] => .refl _
  | ⟨none, body⟩ :: cs => by
    have hbody := Stmt.checkAll_advances env body
    rw [SwitchCase.checkAll]
    refine advances_andThen ?_ fun _ => ?_
    · exact hbody.append .refl
    · exact hbody.append (SwitchCase.checkAll_advances selector _ cs)
  | ⟨some e, body⟩ :: cs => by
    have he := e.synth_advances ctx env
    have hbody := Stmt.checkAll_advances env body
    rw [SwitchCase.checkAll]
    refine advances_andThen ?_ fun _ => advances_andThen ?_ fun _ => advances_andThen ?_ fun _ => ?_
    · exact (he.append .refl).append .refl
    · exact (he.append .refl).append .refl
    · exact (he.append hbody).append .refl
    · exact (he.append hbody).append (SwitchCase.checkAll_advances selector _ cs)

theorem MatchCase.checkAll_advances (selector : Ty) (span : Option Span) (env : Env) :
    ∀ cs : List MatchCase,
      Advances Stmt.slotsMatch Stmt.exprsMatch cs (MatchCase.checkAll ctx selector span env cs).left
  | [] => .refl _
  | ⟨t, x, body, caseSpan⟩ :: cs => by
    have hbody := Stmt.checkAll_advances (env.put x t) body
    rw [MatchCase.checkAll]
    refine Visit.left_after_of (.refl _) fun _ _ => ?_
    refine Visit.left_andThen_of ?_ fun _ _ => ?_
    · exact hbody.append .refl
    · exact hbody.append (MatchCase.checkAll_advances selector span env cs)
end

end Statements

/-! ## Declarations -/

namespace Decl

/-- The same for a declaration. -/
theorem check_advances (reg : Registry) : ∀ d : Decl,
    Advances Decl.slots Decl.exprs d (d.check reg).left
  | .alias _ => Visit.left_after_of (.refl _) fun _ _ => .refl _
  | .method d => Visit.left_after_of (.refl _) fun env _ => Stmt.checkAll_advances _ env d.body

/-- The same declaration apart from its types, with the types of the first on the second. -/
def TypesKept (d d' : Decl) : Prop :=
  d'.bare = d.bare ∧ List.Forall₂ Slot.Kept d.slots d'.slots

/-- A later state of a declaration. -/
structure Onward (d d' : Decl) : Prop where
  kept : d.TypesKept d'
  closed : DownClosed d.exprs → DownClosed d'.exprs

theorem Onward.refl (d : Decl) : d.Onward d where
  kept := ⟨rfl, List.forall₂_refl _⟩
  closed := id

/-- One check after another goes onward. -/
theorem Onward.trans {d d' d'' : Decl} (h : d.Onward d') (h' : d'.Onward d'') : d.Onward d'' where
  kept := by
    refine ⟨h'.kept.1.trans h.kept.1, ?_⟩
    refine forall₂_comp ?_ h.kept.2 h'.kept.2
    exact fun _ _ _ _ => Slot.Kept.trans
  closed hclosed := h'.closed (h.closed hclosed)

/-- The check of a declaration goes onward from any tree. -/
theorem onward_check (reg : Registry) (d : Decl) : d.Onward (d.check reg).left where
  kept := ⟨d.bare_check reg, (d.check_advances reg).kept⟩
  closed := (d.check_advances reg).closed

/-- What holds of the trees at first holds of those that are left. -/
theorem downClosed_of_onward {ds ds' : List Decl} (h : List.Forall₂ Onward ds ds')
    (hclosed : ∀ d ∈ ds, DownClosed d.exprs) : ∀ d ∈ ds', DownClosed d.exprs := by
  induction h with
  | nil => exact hclosed
  | cons hd _ ih =>
    rw [List.forall_mem_cons] at hclosed ⊢
    exact ⟨hd.closed hclosed.1, ih hclosed.2⟩

/-- Nothing to be closed under where no expression has a type. -/
theorem downClosed_of_empty {d : Decl} (hempty : ∀ s ∈ d.slots, s.Empty) : DownClosed d.exprs := by
  intro e he hne
  have hnone : e.ty = none := hempty _ (d.exprs_listed e he)
  exact absurd hnone hne

end Decl

/-! ## Sessions -/

namespace Session

/-- What a session can be asked for: the check of the declaration at a position, or of the file. -/
inductive Call where
  | decl (position : Nat)
  | file
  deriving DecidableEq

/-- What a call leaves of the session. -/
def afterCall (s : Session) : Call → Session
  | .decl i => (s.checkAt i).left
  | .file => s.checkFile.value.1

/-- The session after some calls, one after another. -/
def afterCalls (s : Session) (calls : List Call) : Session := calls.foldl afterCall s

/-- A run over declarations goes onward with those it comes to, and leaves the others. -/
theorem checkDecls_onward (s : Session) (ds : List Decl) :
    List.Forall₂ Decl.Onward ds (s.checkDecls ds).decls := by
  induction ds with
  | nil => exact .nil
  | cons d ds ih =>
    have hd := d.onward_check s.registry
    cases h : s.error? d with
    | none =>
      rw [(checkDecls_cons_of_ok ds h).2]
      exact .cons hd ih
    | some e =>
      rw [checkDecls_cons_of_error ds h]
      split
      · exact .cons hd ih
      -- the declarations after the one that fails are not looked at
      · exact .cons hd (List.forall₂_same.2 fun d _ => .refl d)

/-- One declaration is replaced by what its check leaves. -/
theorem onward_set {ds : List Decl} {i : Nat} {d d' : Decl} (hd : ds[i]? = some d)
    (h : d.Onward d') : List.Forall₂ Decl.Onward ds (ds.set i d') := by
  rw [List.forall₂_iff_get]
  refine ⟨(List.length_set ..).symm, fun j hj hj' => ?_⟩
  simp only [List.get_eq_getElem, List.getElem_set]
  split
  · rename_i hij
    subst hij
    rw [List.getElem?_eq_getElem hj] at hd
    cases hd
    exact h
  · exact .refl _

/-- The step: one call takes every declaration onward. -/
theorem afterCall_onward (s : Session) : ∀ c : Call,
    List.Forall₂ Decl.Onward s.file.decls (s.afterCall c).file.decls
  | .file => s.checkDecls_onward s.file.decls
  | .decl i => by
    show List.Forall₂ Decl.Onward s.file.decls (s.checkAt i).left.file.decls
    unfold checkAt
    split
    · exact List.forall₂_same.2 fun d _ => .refl d
    · rename_i d hd
      have hcheck := d.onward_check s.registry
      rw [← left_checkDecl] at hcheck
      exact onward_set hd hcheck

/-- The run: so do any calls. -/
theorem afterCalls_onward (s : Session) (calls : List Call) :
    List.Forall₂ Decl.Onward s.file.decls (s.afterCalls calls).file.decls := by
  induction calls generalizing s with
  | nil => exact List.forall₂_same.2 fun d _ => .refl d
  | cons c calls ih =>
    have hstep := s.afterCall_onward c
    have hrest := ih (s.afterCall c)
    refine forall₂_comp ?_ hstep hrest
    exact fun _ _ _ _ => Decl.Onward.trans

/-- A session starts on the file as it is. -/
theorem file_of_start {f : File} {options : Options} {s : Session}
    (h : (start f options).value = .ok s) : s.file = f := by
  rw [start_of_build (registry_of_start h)] at h
  exact congrArg Session.file (Except.ok.inj h).symm

/-- In a session on a fresh file, whatever calls have been made and whatever calls come later, the
declarations stay the same apart from types that are added, and an expression that has a type has
types at all expressions within it. -/
theorem types_written_once {f : File} (hfresh : f.Fresh) {options : Options} {s : Session}
    (hstart : (start f options).value = .ok s) (calls later : List Call) :
    List.Forall₂ Decl.TypesKept (s.afterCalls calls).file.decls
        (s.afterCalls (calls ++ later)).file.decls ∧
      ∀ d ∈ (s.afterCalls calls).file.decls, DownClosed d.exprs := by
  constructor
  · have hrun := (s.afterCalls calls).afterCalls_onward later
    rw [afterCalls, afterCalls, List.foldl_append]
    exact hrun.imp fun _ _ h => h.kept
  · have hrun := s.afterCalls_onward calls
    rw [file_of_start hstart] at hrun
    exact Decl.downClosed_of_onward hrun fun d hd => Decl.downClosed_of_empty (hfresh d hd)

/-- A method that fails in the middle of an expression: the operands of the sum have types, the sum
has none. A second check finds the cell of the `var` declaration full. -/
def halfTypedFile : File where
  decls := [
    .alias { name := "Count", ty := .int },
    .method
      { name := "half", params := [], ret := .void
        body := [
          { form := .infer "x" .inferred { form := .unary .neg { form := .constant (.int 1) } } },
          { form := .print
              { form := .binary .add { form := .var "x" } { form := .constant (.bool true) } } },
          { form := .print { form := .var "x" } }] }]

/-- The first call stops in the second statement. The types it has found stay through the calls that
follow, one of which is for a declaration that is not there. -/
theorem types_written_once_halfTyped :
    let s : Session := ⟨halfTypedFile, Registry.ofFile halfTypedFile, { keepGoing := true }⟩
    let once := s.afterCalls [.decl 1]
    let again := s.afterCalls ([.decl 1] ++ [.file, .decl 7, .decl 1])
    halfTypedFile.Fresh ∧ (start halfTypedFile { keepGoing := true }).value = .ok s ∧
      once.file.decls.map Decl.slots =
        [[], [.cell .int, .expr (some .int), .expr (some .int), .expr none, .expr (some .int),
          .expr (some .bool), .expr none]] ∧
      List.Forall₂ Decl.TypesKept once.file.decls again.file.decls ∧
      ∀ d ∈ once.file.decls, DownClosed d.exprs := by
  intro s once again
  have hfresh : halfTypedFile.Fresh := by decide
  have hstart : (start halfTypedFile { keepGoing := true }).value = .ok s :=
    start_of_build (by decide +kernel) _
  obtain ⟨hkept, hclosed⟩ := types_written_once hfresh hstart [.decl 1] [.file, .decl 7, .decl 1]
  exact ⟨hfresh, hstart, by decide +kernel, hkept, hclosed⟩

end Session

end WhileTyping
