import WhileTyping.Proofs.ErrorSpans

/-!
# Types found again

`Expr.synth` takes the type in a full slot as it is and does not look below it. This module compares
it with `Expr.typeOf`, which has no slots to read or write and finds the type of every node anew.

* **`Expr.typeOf_bare`**: the types in the slots make no difference to `Expr.typeOf`.
* **`Agrees`**: every type that is there is the one that would be found anew. A tree without types
  agrees, and so does what a failed check leaves.
* **`Visit.Finds`**: a visit ends with the given result, and what it leaves agrees. The induction is
  over the syntax, with a theorem for each of the functions that make up the check.
* **`Expr.synth_transparent`**: on a tree that agrees, both end alike.
-/

namespace WhileTyping

/-! ## Types without slots -/

mutual
/-- The type of an expression, found from its operands whatever types they have been given. -/
def Expr.typeOf (reg : Registry) (env : Env) : Expr → Except TypeError Ty
  | ⟨form, span, _⟩ => form.typeOf reg env span

/-- By the rule for each expression. -/
def ExprForm.typeOf (reg : Registry) (env : Env) (span : Option Span) :
    ExprForm → Except TypeError Ty
  | .binary op l r => do
    let lt ← l.typeOf reg env
    let rt ← r.typeOf reg env
    op.resultType reg lt rt l.span r.span
  | .constant v => (v.typeOf reg span).result
  | .index source position => do
    let st ← source.typeOf reg env
    let pt ← position.typeOf reg env
    reg.elementType st pt source.span position.span span
  | .call method args =>
    match reg.method? method with
    | none => .error ⟨.unknownMethod method, span⟩
    | some sig =>
      if args.length = sig.params.length then do
        Expr.argsFit reg env span sig.params args
        sig.ret.expectNoVoid span
        return sig.ret
      else .error ⟨.arityMismatch method sig.params.length args.length, span⟩
  | .fill value size => do
    let t ← value.typeOf reg env
    let st ← size.typeOf reg env
    discard <| reg.expectKind st (.single .int) size.span
    return .array t
  | .array items => do
    let ts ← Expr.typesOf reg env items
    let bound ← (reg.leastUpperBound ts span).result
    return .array bound
  | .field source name => do
    let st ← source.typeOf reg env
    (reg.fieldType st source.span name span).result
  | .record fields => do
    let fs ← FieldInit.typesOf reg env span [] fields
    return .record fs
  | .unary op operand => do
    let t ← operand.typeOf reg env
    op.resultType reg t operand.span
  | .var x =>
    match env.current? x with
    | some t => return t
    | none => .error ⟨.undeclaredVariable x, span⟩

/-- The types of the items of an array. -/
def Expr.typesOf (reg : Registry) (env : Env) : List Expr → Except TypeError (List Ty)
  | [] => return []
  | e :: es => do
    let t ← e.typeOf reg env
    let ts ← Expr.typesOf reg env es
    return t :: ts

/-- Each argument has a type below that of its parameter. -/
def Expr.argsFit (reg : Registry) (env : Env) (span : Option Span) (params : List Ty) :
    List Expr → Except TypeError Unit
  | [] => return ()
  | e :: es =>
    match params with
    | [] => return ()
    | p :: ps => do
      let t ← e.typeOf reg env
      reg.expectSubtype p t (e.span.or span)
      Expr.argsFit reg env span ps es

/-- The fields that record fields initialise, after fields of the given names. -/
def FieldInit.typesOf (reg : Registry) (env : Env) (span : Option Span) (seen : List String) :
    List FieldInit → Except TypeError (List Field)
  | [] => return []
  | ⟨n, e⟩ :: fs =>
    if n ∈ seen then .error ⟨.duplicateDeclaration n, e.span.or span⟩
    else do
      let t ← e.typeOf reg env
      let ts ← FieldInit.typesOf reg env span (n :: seen) fs
      return ⟨n, t⟩ :: ts
end

section Bare

variable (reg : Registry) (env : Env)

/-- A bare expression has its span. -/
@[simp] theorem Expr.span_bare (e : Expr) : e.bare.span = e.span := by
  obtain ⟨form, span, ty⟩ := e
  rfl

mutual
/-- The type that is computed does not depend on what the slots hold. -/
theorem Expr.typeOf_bare : ∀ e : Expr, e.bare.typeOf reg env = e.typeOf reg env
  | ⟨form, span, ty⟩ => by
    rw [Expr.bare, Expr.typeOf, Expr.typeOf, ExprForm.typeOf_bare span form]

theorem ExprForm.typeOf_bare (span : Option Span) : ∀ form : ExprForm,
    (Expr.bareForm form).typeOf reg env span = form.typeOf reg env span
  | .constant v | .var x => rfl
  | .binary op l r | .index l r | .fill l r => by
    simp only [Expr.bareForm, ExprForm.typeOf, Expr.typeOf_bare l, Expr.typeOf_bare r,
      Expr.span_bare]
  | .field e name | .unary op e => by
    simp only [Expr.bareForm, ExprForm.typeOf, Expr.typeOf_bare e, Expr.span_bare]
  | .call method args => by
    simp only [Expr.bareForm, ExprForm.typeOf, Expr.argsFit_bareAll span _ args,
      Expr.length_bareAll]
  | .array items => by
    simp only [Expr.bareForm, ExprForm.typeOf, Expr.typesOf_bareAll items]
  | .record fields => by
    simp only [Expr.bareForm, ExprForm.typeOf, FieldInit.typesOf_bareFields span [] fields]

theorem Expr.typesOf_bareAll : ∀ es : List Expr,
    Expr.typesOf reg env (Expr.bareAll es) = Expr.typesOf reg env es
  | [] => rfl
  | e :: es => by
    simp only [Expr.bareAll, Expr.typesOf, Expr.typeOf_bare e, Expr.typesOf_bareAll es]

theorem Expr.argsFit_bareAll (span : Option Span) : ∀ (params : List Ty) (es : List Expr),
    Expr.argsFit reg env span params (Expr.bareAll es) = Expr.argsFit reg env span params es
  | _, [] => rfl
  | [], _ :: _ => by simp only [Expr.bareAll, Expr.argsFit]
  | p :: ps, e :: es => by
    simp only [Expr.bareAll, Expr.argsFit, Expr.typeOf_bare e, Expr.span_bare,
      Expr.argsFit_bareAll span ps es]

theorem FieldInit.typesOf_bareFields (span : Option Span) : ∀ (seen : List String)
    (fs : List FieldInit),
    FieldInit.typesOf reg env span seen (Expr.bareFields fs) =
      FieldInit.typesOf reg env span seen fs
  | _, [] => rfl
  | seen, ⟨n, e⟩ :: fs => by
    simp only [Expr.bareFields, FieldInit.typesOf, Expr.typeOf_bare e, Expr.span_bare,
      FieldInit.typesOf_bareFields span (n :: seen) fs]
end

end Bare

/-! ## Types that agree -/

/-- Every type that is there is the one that would be found anew. -/
def Agrees (reg : Registry) (env : Env) (es : List Expr) : Prop :=
  ∀ e ∈ es, ∀ t, e.ty = some t → e.typeOf reg env = .ok t

section Agrees

variable {reg : Registry} {env : Env}

/-- Two lists of expressions agree if each does. -/
theorem agrees_append {es es' : List Expr} :
    Agrees reg env (es ++ es') ↔ Agrees reg env es ∧ Agrees reg env es' :=
  List.forall_mem_append

/-- An expression agrees if its own slot does, and its parts do. -/
theorem agrees_node {form : ExprForm} {span : Option Span} {ty : Option Ty} :
    Agrees reg env (Expr.nodes ⟨form, span, ty⟩) ↔
      (∀ t, ty = some t → form.typeOf reg env span = .ok t) ∧
        Agrees reg env (Expr.nodesForm form) := by
  rw [Expr.nodes, Agrees, List.forall_mem_cons, Agrees]
  rfl

/-- A tree without types agrees. -/
theorem agrees_of_blank {e : Expr} (h : Blank e.slots) : Agrees reg env e.nodes := by
  intro n hn t ht
  rw [Expr.slots_eq] at h
  cases (h n.ty (List.mem_map_of_mem hn)).symm.trans ht

/-- The visit ends with the given result, and the types on what it leaves agree. -/
structure Visit.Finds {σ α : Type} (reg : Registry) (env : Env) (es : σ → List Expr)
    (r : Except TypeError α) (v : Visit σ α) : Prop where
  result : v.run.result = r
  agrees : Agrees reg env (es v.left)

/-- Two visits find what two computations give, if each does. -/
theorem Visit.finds_andThen {σ τ α β : Type} {es : τ → List Expr} {r : Except TypeError α}
    {k : α → Except TypeError β} {v : Visit σ α} {stop : σ → τ} {next : σ → α → Visit τ β}
    (hresult : v.run.result = r) (hstop : Agrees reg env (es (stop v.left)))
    (hnext : ∀ a, v.run.result = .ok a → (next v.left a).Finds reg env es (k a)) :
    (v.andThen stop next).Finds reg env es (r >>= k) := by
  subst hresult
  refine ⟨?_, left_andThen_of (P := fun l => Agrees reg env (es l)) hstop
    fun a ha => (hnext a ha).agrees⟩
  rw [run_andThen, Check.result_bind]
  cases h : v.run.result with
  | ok a => exact (hnext a h).result
  | error e => rfl

end Agrees

/-! ## Expressions -/

section Expressions

variable {reg : Registry} {env : Env}

/-- An expression with one operand, whose span is all that its rule reads of the tree. -/
theorem finds_operand (mk : Expr → ExprForm) {e : Expr} {k : Expr → Ty → Check Ty}
    {rule : Ty → Except TypeError Ty} (hnodes : ∀ e, Expr.nodesForm (mk e) = e.nodes)
    (hrule : ∀ e' t, e'.span = e.span → (k e' t).result = rule t)
    (he : (e.synth reg env).Finds reg env Expr.nodes (e.typeOf reg env)) :
    ((e.synth reg env).andThen mk fun e t => ⟨mk e, k e t⟩).Finds reg env Expr.nodesForm
      (e.typeOf reg env >>= rule) := by
  have hleft : Agrees reg env (Expr.nodesForm (mk (e.synth reg env).left)) := by
    rw [hnodes]
    exact he.agrees
  exact Visit.finds_andThen he.result hleft fun t _ =>
    ⟨hrule _ t (Expr.span_synth reg env e), hleft⟩

/-- The same for two operands. The second still agrees when the first has been visited. -/
theorem finds_operands (mk : Expr → Expr → ExprForm) {l r : Expr}
    {k : Expr → Ty → Expr → Ty → Check Ty} {rule : Ty → Ty → Except TypeError Ty}
    (hnodes : ∀ l r, Expr.nodesForm (mk l r) = l.nodes ++ r.nodes)
    (hrule : ∀ l' lt r' rt, l'.span = l.span → r'.span = r.span →
      (k l' lt r' rt).result = rule lt rt)
    (hgiven : Agrees reg env r.nodes)
    (hl : (l.synth reg env).Finds reg env Expr.nodes (l.typeOf reg env))
    (hr : (r.synth reg env).Finds reg env Expr.nodes (r.typeOf reg env)) :
    ((l.synth reg env).andThen (fun l => mk l r) fun l lt =>
      (r.synth reg env).andThen (fun r => mk l r) fun r rt => ⟨mk l r, k l lt r rt⟩).Finds reg env
        Expr.nodesForm (l.typeOf reg env >>= fun lt => r.typeOf reg env >>= rule lt) := by
  have hleft : Agrees reg env
      (Expr.nodesForm (mk (l.synth reg env).left (r.synth reg env).left)) := by
    rw [hnodes]
    exact agrees_append.2 ⟨hl.agrees, hr.agrees⟩
  refine Visit.finds_andThen hl.result ?_ fun lt _ => ?_
  -- after a failure the second operand is as it was given
  · rw [hnodes]
    exact agrees_append.2 ⟨hl.agrees, hgiven⟩
  · exact Visit.finds_andThen hr.result hleft fun rt _ =>
      ⟨hrule _ lt _ rt (Expr.span_synth reg env l) (Expr.span_synth reg env r), hleft⟩

/-- A call that is used as a value, given the visits of its arguments. -/
theorem finds_checkCall (method : String) {args : List Expr} (span : Option Span)
    {visitArgs : List Ty → Visit (List Expr) Unit} {fit : List Ty → Except TypeError Unit}
    (hgiven : Agrees reg env (Expr.nodesAll args))
    (hvisit : ∀ params, (visitArgs params).Finds reg env Expr.nodesAll (fit params)) :
    (checkCall reg method args span true visitArgs).Finds reg env Expr.nodesAll
      (match reg.method? method with
        | none => .error ⟨.unknownMethod method, span⟩
        | some sig =>
          if args.length = sig.params.length then do
            fit sig.params
            sig.ret.expectNoVoid span
            return sig.ret
          else .error ⟨.arityMismatch method sig.params.length args.length, span⟩) := by
  unfold checkCall
  cases reg.method? method with
  -- an unknown method is refused before the arguments are visited
  | none => exact ⟨rfl, hgiven⟩
  | some sig =>
    have hargs := hvisit sig.params
    dsimp only
    split
    · refine Visit.finds_andThen hargs.result hargs.agrees fun _ _ => ⟨?_, hargs.agrees⟩
      exact Check.result_bind ..
    · exact ⟨rfl, hgiven⟩

mutual
/-- Finding the type of an expression gives what is computed, and leaves a tree that agrees. -/
theorem Expr.synth_finds : ∀ e : Expr, Agrees reg env e.nodes →
    (e.synth reg env).Finds reg env Expr.nodes (e.typeOf reg env)
  | ⟨form, span, some t⟩, h => by
    rw [Expr.synth]
    exact ⟨((agrees_node.1 h).1 t rfl).symm, h⟩
  | ⟨form, span, none⟩, h => by
    have hform := ExprForm.synth_finds span form (agrees_node.1 h).2
    have hbare : (form.synth reg env span).left.typeOf reg env span = form.typeOf reg env span := by
      rw [← ExprForm.typeOf_bare, ExprForm.bare_synth, ExprForm.typeOf_bare]
    rw [Expr.synth, Expr.typeOf, ← bind_pure (form.typeOf reg env span)]
    refine Visit.finds_andThen hform.result ?_ fun t ht => ⟨rfl, ?_⟩
    · exact agrees_node.2 ⟨fun t ht => absurd ht.symm (Option.some_ne_none t), hform.agrees⟩
    -- the node takes the type that has been found for it
    · refine agrees_node.2 ⟨fun u hu => ?_, hform.agrees⟩
      cases hu
      rw [hbare, ← hform.result, ht]

/-- By cases on the expression. -/
theorem ExprForm.synth_finds (span : Option Span) : ∀ form : ExprForm,
    Agrees reg env (Expr.nodesForm form) →
      (form.synth reg env span).Finds reg env Expr.nodesForm (form.typeOf reg env span)
  | .constant v, h => ⟨rfl, h⟩
  | .var x, h => by
    refine ⟨?_, h⟩
    rw [ExprForm.synth, ExprForm.typeOf]
    cases env.current? x <;> rfl
  -- the rules read spans off the trees that are left, which have those of the given ones
  | .binary op l r, h => by
    obtain ⟨hl, hr⟩ := agrees_append.1 h
    rw [ExprForm.synth, ExprForm.typeOf]
    refine finds_operands (.binary op) (fun _ _ => rfl) (fun l' lt r' rt hls hrs => ?_) hr
      (Expr.synth_finds l hl) (Expr.synth_finds r hr)
    rw [hls, hrs]
    rfl
  | .index source position, h => by
    obtain ⟨hsource, hposition⟩ := agrees_append.1 h
    rw [ExprForm.synth, ExprForm.typeOf]
    refine finds_operands .index (fun _ _ => rfl) (fun l' lt r' rt hls hrs => ?_) hposition
      (Expr.synth_finds source hsource) (Expr.synth_finds position hposition)
    rw [hls, hrs]
    rfl
  | .fill value size, h => by
    obtain ⟨hvalue, hsize⟩ := agrees_append.1 h
    rw [ExprForm.synth, ExprForm.typeOf]
    refine finds_operands .fill (fun _ _ => rfl) (fun l' lt r' rt hls hrs => ?_) hsize
      (Expr.synth_finds value hvalue) (Expr.synth_finds size hsize)
    rw [hrs]
    cases reg.expectKind rt (.single .int) size.span <;> rfl
  | .field source name, h => by
    rw [ExprForm.synth, ExprForm.typeOf]
    refine finds_operand (.field · name) (fun _ => rfl) (fun e' t hs => ?_)
      (Expr.synth_finds source h)
    rw [hs]
  | .unary op operand, h => by
    rw [ExprForm.synth, ExprForm.typeOf]
    refine finds_operand (.unary op) (fun _ => rfl) (fun e' t hs => ?_)
      (Expr.synth_finds operand h)
    rw [hs]
    rfl
  | .call method args, h => by
    have hcall := finds_checkCall method span h fun params =>
      Expr.synthArgs_finds span params args h
    rw [ExprForm.synth, ExprForm.typeOf]
    exact ⟨hcall.result, hcall.agrees⟩
  | .array items, h => by
    have hitems := Expr.synthAll_finds items h
    rw [ExprForm.synth, ExprForm.typeOf]
    refine Visit.finds_andThen hitems.result hitems.agrees fun ts _ => ⟨?_, hitems.agrees⟩
    rw [Check.result_bind]
    rfl
  | .record fields, h => by
    have hfields := FieldInit.synthAll_finds span [] fields h
    rw [ExprForm.synth, ExprForm.typeOf]
    exact Visit.finds_andThen hfields.result hfields.agrees fun fs _ => ⟨rfl, hfields.agrees⟩

theorem Expr.synthAll_finds : ∀ es : List Expr, Agrees reg env (Expr.nodesAll es) →
    (Expr.synthAll reg env es).Finds reg env Expr.nodesAll (Expr.typesOf reg env es)
  | [], h => ⟨rfl, h⟩
  | e :: es, h => by
    obtain ⟨he, hes⟩ := agrees_append.1 h
    have hfirst := Expr.synth_finds e he
    have hrest := Expr.synthAll_finds es hes
    rw [Expr.synthAll, Expr.typesOf]
    refine Visit.finds_andThen hfirst.result ?_ fun t _ => Visit.finds_andThen hrest.result ?_
      fun ts _ => ⟨rfl, ?_⟩
    · exact agrees_append.2 ⟨hfirst.agrees, hes⟩
    all_goals exact agrees_append.2 ⟨hfirst.agrees, hrest.agrees⟩

/-- The same for arguments, which find no type but whether they fit. -/
theorem Expr.synthArgs_finds (span : Option Span) : ∀ (params : List Ty) (es : List Expr),
    Agrees reg env (Expr.nodesAll es) →
      (Expr.synthArgs reg env span params es).Finds reg env Expr.nodesAll
        (Expr.argsFit reg env span params es)
  | _, [], h => by
    rw [Expr.synthArgs]
    exact ⟨rfl, h⟩
  | [], e :: es, h => by
    rw [Expr.synthArgs]
    exact ⟨rfl, h⟩
  | p :: ps, e :: es, h => by
    obtain ⟨he, hes⟩ := agrees_append.1 h
    have hfirst := Expr.synth_finds e he
    have hrest := Expr.synthArgs_finds span ps es hes
    have hgiven := agrees_append.2 ⟨hfirst.agrees, hes⟩
    rw [Expr.synthArgs, Expr.argsFit]
    refine Visit.finds_andThen hfirst.result hgiven fun t _ => ?_
    rw [Expr.span_synth]
    -- the comparison with the parameter leaves the tree alone
    refine Visit.finds_andThen rfl hgiven fun _ _ => ⟨hrest.result, ?_⟩
    exact agrees_append.2 ⟨hfirst.agrees, hrest.agrees⟩

/-- The same for the fields of a record, with the names that were seen. -/
theorem FieldInit.synthAll_finds (span : Option Span) : ∀ (seen : List String)
    (fs : List FieldInit), Agrees reg env (Expr.nodesFields fs) →
      (FieldInit.synthAll reg env span seen fs).Finds reg env Expr.nodesFields
        (FieldInit.typesOf reg env span seen fs)
  | _, [], h => ⟨rfl, h⟩
  | seen, ⟨n, e⟩ :: fs, h => by
    obtain ⟨he, hfs⟩ := agrees_append.1 h
    have hfirst := Expr.synth_finds e he
    have hrest := FieldInit.synthAll_finds span (n :: seen) fs hfs
    rw [FieldInit.synthAll, FieldInit.typesOf]
    split
    · -- a name that comes twice, before anything is written
      exact ⟨rfl, h⟩
    · refine Visit.finds_andThen hfirst.result ?_ fun t _ => Visit.finds_andThen hrest.result ?_
        fun ts _ => ⟨rfl, ?_⟩
      · exact agrees_append.2 ⟨hfirst.agrees, hfs⟩
      all_goals exact agrees_append.2 ⟨hfirst.agrees, hrest.agrees⟩
end

end Expressions

/-- On an expression whose types, as far as it has any, are those that would be found anew, a check
ends as if it had none: with the same type or the same error. It leaves the same expression with
types that would be found anew, and on every node if there were none before and it succeeds. -/
theorem Expr.synth_transparent (reg : Registry) (env : Env) {e : Expr}
    (h : Agrees reg env e.nodes) :
    (e.synth reg env).run.result = e.typeOf reg env ∧
      (e.synth reg env).left.bare = e.bare ∧
      Agrees reg env (e.synth reg env).left.nodes ∧
      (Blank e.slots → ∀ t, e.typeOf reg env = .ok t → AllTyped (e.synth reg env).left.nodes) := by
  have hfinds := Expr.synth_finds e h
  refine ⟨hfinds.result, Expr.bare_synth reg env e, hfinds.agrees, fun hblank t ht => ?_⟩
  have hclosed : DownClosed e.nodes := by
    intro n hn hty
    rw [Expr.slots_eq] at hblank
    exact absurd (hblank n.ty (List.mem_map_of_mem hn)) hty
  exact (Expr.synth_progress reg env e).complete hclosed ⟨t, hfinds.result.trans ht⟩

/-- The check of a sum fails at its second operand and leaves types below the sum only. Checked
again, it fails as it would without them. -/
theorem Expr.synth_transparent_sum :
    let env := (({} : Env).put "n" .int).put "flag" .bool
    let inner : Expr := { form := .binary .add { form := .var "n" } { form := .constant (.int 1) } }
    let sum : Expr := { form := .binary .add inner { form := .var "flag" }, span := some ⟨0, 9⟩ }
    let left := (sum.synth {} env).left
    AllTyped (inner.synth {} env).left.nodes ∧
      left.slots = [none, some .int, some .int, some .int, some .bool] ∧
      Agrees {} env left.nodes ∧ left.bare = sum ∧
      (left.synth {} env).run.result = left.typeOf {} env ∧
      left.typeOf {} env = .error ⟨.notInstanceOf (.single .int) .bool, none⟩ := by
  intro env inner sum left
  have hblank : Blank inner.slots := show ∀ s ∈ inner.slots, s = none by decide +kernel
  have hblank' : Blank sum.slots := show ∀ s ∈ sum.slots, s = none by decide +kernel
  obtain ⟨-, -, -, htyped⟩ := Expr.synth_transparent {} env (agrees_of_blank hblank)
  -- the sum fails, and the tree it leaves is taken as the next input
  obtain ⟨-, hbare, hagrees, -⟩ := Expr.synth_transparent {} env (agrees_of_blank hblank')
  obtain ⟨hagain, -⟩ := Expr.synth_transparent {} env hagrees
  exact ⟨htyped hblank .int (by decide +kernel), by decide +kernel, hagrees, hbare, hagain,
    by decide +kernel⟩

end WhileTyping
