import WhileTyping.Proofs.BareTrees
import WhileTyping.Proofs.Sites

/-!
# Checking a tree again

A check leaves types on the tree, and a second check of what the first has left takes them as they
are. It ends as the first did, with the same result and the same tree, unless it comes to a `var`
declaration. This holds of a first check that fails as well: it has left types on the nodes before
the failure and none on the nodes after it.

* **`Visit.outcome`**: what a visit leaves and how it ends, without the events it reports.
* **`Expr.synth_again`**: the result for expressions. A node that has got its type is not looked at
  again, so only the nodes on the way to a failure matter.
* **`Stmt.VarFree`**: there is no `var` declaration among some statements.
* **`Stmt.check_again`**, **`Stmt.checkAll_again`**: the result for statements, where the second
  check also goes through the same environments.
-/

namespace WhileTyping

/-! ## Outcomes -/

namespace Visit

variable {σ τ α β : Type}

/-- What a visit leaves, and its result. -/
def outcome (v : Visit σ α) : σ × Except TypeError α := (v.left, v.run.result)

/-- The outcome of a visit that succeeds is what it ends with. -/
theorem outcome_eq_ok {v : Visit σ α} {l : σ} {a : α} : v.outcome = (l, .ok a) ↔ v.Ends l a :=
  Prod.mk.injEq .. ▸ .rfl

/-- If the first visit succeeds, the second decides the outcome. -/
theorem outcome_andThen_of_ok {v : Visit σ α} {l : σ} {a : α} (stop : σ → τ)
    (next : σ → α → Visit τ β) (h : v.outcome = (l, .ok a)) :
    (v.andThen stop next).outcome = (next l a).outcome := by
  obtain ⟨rfl, ha⟩ := outcome_eq_ok.1 h
  simp only [outcome, andThen, ha]

/-- If the first visit fails, the second does not take place. -/
theorem outcome_andThen_of_error {v : Visit σ α} {l : σ} {e : TypeError} (stop : σ → τ)
    (next : σ → α → Visit τ β) (h : v.outcome = (l, .error e)) :
    (v.andThen stop next).outcome = (stop l, .error e) := by
  obtain ⟨rfl, he⟩ := Prod.mk.inj h
  simp only [outcome, andThen, he]

/-- There are only these two. -/
theorem outcome_andThen_cases {v : Visit σ α} {stop : σ → τ} {next : σ → α → Visit τ β} {t : τ}
    {q : Except TypeError β} (h : (v.andThen stop next).outcome = (t, q)) :
    (∃ l e, v.outcome = (l, .error e) ∧ t = stop l ∧ q = .error e) ∨
      ∃ l a, v.outcome = (l, .ok a) ∧ (next l a).outcome = (t, q) := by
  cases hv : v.run.result with
  | ok a =>
    have hv : v.outcome = (v.left, .ok a) := by rw [outcome, hv]
    exact .inr ⟨v.left, a, hv, outcome_andThen_of_ok stop next hv ▸ h⟩
  | error e =>
    have hv : v.outcome = (v.left, .error e) := by rw [outcome, hv]
    rw [outcome_andThen_of_error stop next hv] at h
    cases h
    exact .inl ⟨v.left, e, hv, rfl, rfl⟩

theorem outcome_after_of_ok {c : Check α} {a : α} (untouched : σ) (next : α → Visit σ β)
    (h : c.result = .ok a) : (after c untouched next).outcome = (next a).outcome :=
  outcome_andThen_of_ok _ _ (outcome_eq_ok.2 ⟨rfl, h⟩)

theorem outcome_after_of_error {c : Check α} {e : TypeError} (untouched : σ)
    (next : α → Visit σ β) (h : c.result = .error e) :
    (after c untouched next).outcome = (untouched, .error e) :=
  outcome_andThen_of_error _ _ (Prod.ext rfl h)

/-- The same for a check and what comes after it. -/
theorem outcome_after_cases {c : Check α} {untouched : σ} {next : α → Visit σ β} {t : σ}
    {q : Except TypeError β} (h : (after c untouched next).outcome = (t, q)) :
    (∃ e, c.result = .error e ∧ t = untouched ∧ q = .error e) ∨
      ∃ a, c.result = .ok a ∧ (next a).outcome = (t, q) := by
  rcases outcome_andThen_cases h with ⟨l, e, hc, rfl, rfl⟩ | ⟨l, a, hc, h⟩
  · exact .inl ⟨e, (Prod.mk.inj hc).2, (Prod.mk.inj hc).1.symm, rfl⟩
  · exact .inr ⟨a, (Prod.mk.inj hc).2, h⟩

/-- A part is visited within the whole, which is put together again. -/
theorem outcome_within_eq {v : Visit σ α} {f : σ → τ} {t : τ} {q : Except TypeError α} :
    (v.within f).outcome = (t, q) ↔ ∃ l, v.outcome = (l, q) ∧ f l = t := by
  simp only [outcome, left_within, run_within, Prod.mk.injEq]
  constructor
  · rintro ⟨rfl, rfl⟩
    exact ⟨v.left, ⟨rfl, rfl⟩, rfl⟩
  · rintro ⟨l, ⟨rfl, rfl⟩, rfl⟩
    exact ⟨rfl, rfl⟩

end Visit

open Visit

/-! ## Expressions -/

/-- The visit of an expression and the visit of what it leaves have the same outcome. -/
def Expr.Again (reg : Registry) (env : Env) (e : Expr) : Prop :=
  ∀ e' q, (e.synth reg env).outcome = (e', q) → (e'.synth reg env).outcome = (e', q)

section Expressions

variable {reg : Registry} {env : Env}

/-- An expression with one operand comes to the same again, if the operand does. After a failure of
the rule, the operand has its type, and the rule fails again. -/
theorem ExprForm.operand_again (mk : Expr → ExprForm) (k : Expr → Ty → Check Ty)
    {span : Option Span} {e : Expr} {form' : ExprForm} {q : Except TypeError Ty}
    (hmk : ∀ e, (mk e).synth reg env span =
      (e.synth reg env).andThen mk fun e t => ⟨mk e, k e t⟩)
    (he : e.Again reg env) (h : ((mk e).synth reg env span).outcome = (form', q)) :
    (form'.synth reg env span).outcome = (form', q) := by
  rw [hmk] at h
  rcases outcome_andThen_cases h with ⟨e', x, he', rfl, rfl⟩ | ⟨e', t, he', h⟩
  · rw [hmk, outcome_andThen_of_error _ _ (he _ _ he')]
  · cases h
    rw [hmk, outcome_andThen_of_ok _ _ (he _ _ he')]
    rfl

/-- The same for two operands. If the first fails, the second is as it was. -/
theorem ExprForm.operands_again (mk : Expr → Expr → ExprForm)
    (k : Expr → Ty → Expr → Ty → Check Ty) {span : Option Span} {l r : Expr} {form' : ExprForm}
    {q : Except TypeError Ty}
    (hmk : ∀ l r, (mk l r).synth reg env span =
      (l.synth reg env).andThen (fun l => mk l r) fun l lt =>
        (r.synth reg env).andThen (fun r => mk l r) fun r rt => ⟨mk l r, k l lt r rt⟩)
    (hl : l.Again reg env) (hr : r.Again reg env)
    (h : ((mk l r).synth reg env span).outcome = (form', q)) :
    (form'.synth reg env span).outcome = (form', q) := by
  rw [hmk] at h
  rcases outcome_andThen_cases h with ⟨l', x, hl', rfl, rfl⟩ | ⟨l', lt, hl', h⟩
  · rw [hmk, outcome_andThen_of_error _ _ (hl _ _ hl')]
  rcases outcome_andThen_cases h with ⟨r', x, hr', rfl, rfl⟩ | ⟨r', rt, hr', h⟩
  · rw [hmk, outcome_andThen_of_ok _ _ (hl _ _ hl'), outcome_andThen_of_error _ _ (hr _ _ hr')]
  · cases h
    rw [hmk, outcome_andThen_of_ok _ _ (hl _ _ hl'), outcome_andThen_of_ok _ _ (hr _ _ hr')]
    rfl

theorem Expr.length_bareAll (es : List Expr) : (Expr.bareAll es).length = es.length := by
  induction es with
  | nil => rfl
  | cons e es ih => rw [Expr.bareAll, List.length_cons, ih, List.length_cons]

/-- Arguments do not get fewer or more. -/
theorem Expr.length_of_synthArgs {span : Option Span} {params : List Ty} {args args' : List Expr}
    {q : Except TypeError Unit}
    (h : (Expr.synthArgs reg env span params args).outcome = (args', q)) :
    args'.length = args.length := by
  have hbare := Expr.bare_synthArgs reg env span params args
  rw [(Prod.mk.inj h).1] at hbare
  rw [← Expr.length_bareAll, hbare, Expr.length_bareAll]

/-- The arguments of a call are counted again, and are as many as before. -/
theorem Expr.synthCall_again {method : String} {args args' : List Expr} {span : Option Span}
    {valueRequired : Bool} {q : Except TypeError Ty}
    (hargs : ∀ params args' q, (Expr.synthArgs reg env span params args).outcome = (args', q) →
      (Expr.synthArgs reg env span params args').outcome = (args', q))
    (h : (Expr.synthCall reg env method args span valueRequired).outcome = (args', q)) :
    (Expr.synthCall reg env method args' span valueRequired).outcome = (args', q) := by
  unfold Expr.synthCall checkCall at h ⊢
  cases hsig : reg.method? method with
  | none =>
    rw [hsig] at h
    cases h
    rfl
  | some sig =>
    rw [hsig] at h
    dsimp only at h ⊢
    by_cases hlen : args.length = sig.params.length
    · rw [if_pos hlen] at h
      rcases outcome_andThen_cases h with ⟨args₁, x, hargs', hleft, rfl⟩ | ⟨args₁, ⟨⟩, hargs', h⟩
      · -- an argument has failed, and fails again
        rw [id_eq] at hleft
        subst hleft
        rw [if_pos ((Expr.length_of_synthArgs hargs').trans hlen),
          outcome_andThen_of_error _ _ (hargs _ _ _ hargs')]
        rfl
      · cases h
        rw [if_pos ((Expr.length_of_synthArgs hargs').trans hlen),
          outcome_andThen_of_ok _ _ (hargs _ _ _ hargs')]
        rfl
    · -- the number of arguments is wrong, so they have not been visited
      rw [if_neg hlen] at h
      cases h
      rw [if_neg hlen]
      rfl

mutual
/-- What the visit of an expression leaves comes to the same when it is visited again. -/
theorem Expr.synth_again : ∀ e : Expr, e.Again reg env
  | ⟨form, span, some t⟩, e', q, h => by
    cases h
    rfl
  | ⟨form, span, none⟩, e', q, h => by
    rw [Expr.synth] at h
    rcases outcome_andThen_cases h with ⟨form', x, hform, rfl, rfl⟩ | ⟨form', t, hform, h⟩
    · rw [Expr.synth, outcome_andThen_of_error _ _ (ExprForm.synth_again form hform)]
    -- the node has its type now, and the second visit stops there
    · cases h
      rfl
termination_by structural e => e

/-- By cases on the expression. -/
theorem ExprForm.synth_again : ∀ (form : ExprForm) {span : Option Span} {form' : ExprForm}
    {q : Except TypeError Ty}, (form.synth reg env span).outcome = (form', q) →
      (form'.synth reg env span).outcome = (form', q)
  | .binary op l r, span, form', q, h =>
    ExprForm.operands_again (.binary op) (fun l lt r rt => op.resultType reg lt rt l.span r.span)
      (fun _ _ => rfl) (Expr.synth_again l) (Expr.synth_again r) h
  -- there is nothing in them that could have been filled in
  | .constant v, span, form', q, h | .var x, span, form', q, h => by
    cases h
    rfl
  | .index source position, span, form', q, h =>
    ExprForm.operands_again .index
      (fun source st position pt => reg.elementType st pt source.span position.span span)
      (fun _ _ => rfl) (Expr.synth_again source) (Expr.synth_again position) h
  | .call method args, span, form', q, h => by
    obtain ⟨args', hcall, rfl⟩ := outcome_within_eq.1 h
    refine outcome_within_eq.2 ⟨args', ?_, rfl⟩
    exact Expr.synthCall_again (fun params _ _ => Expr.synthArgs_again params args) hcall
  | .fill value size, span, form', q, h =>
    ExprForm.operands_again .fill
      (fun _ t size st => do
        discard <| reg.expectKind st (.single .int) size.span
        return .array t)
      (fun _ _ => rfl) (Expr.synth_again value) (Expr.synth_again size) h
  | .array items, span, form', q, h => by
    rw [ExprForm.synth] at h
    rcases outcome_andThen_cases h with ⟨items', x, hitems, rfl, rfl⟩ | ⟨items', ts, hitems, h⟩
    · rw [ExprForm.synth, outcome_andThen_of_error _ _ (Expr.synthAll_again items hitems)]
    · cases h
      rw [ExprForm.synth, outcome_andThen_of_ok _ _ (Expr.synthAll_again items hitems)]
      rfl
  | .field source name, span, form', q, h =>
    ExprForm.operand_again (.field · name) (fun source t => reg.fieldType t source.span name span)
      (fun _ => rfl) (Expr.synth_again source) h
  | .record fields, span, form', q, h => by
    rw [ExprForm.synth] at h
    rcases outcome_andThen_cases h with ⟨fields', x, hfields, rfl, rfl⟩ | ⟨fields', fs, hfields, h⟩
    · rw [ExprForm.synth, outcome_andThen_of_error _ _ (FieldInit.synthAll_again [] fields hfields)]
    · cases h
      rw [ExprForm.synth, outcome_andThen_of_ok _ _ (FieldInit.synthAll_again [] fields hfields)]
      rfl
  | .unary op operand, span, form', q, h =>
    ExprForm.operand_again (.unary op) (fun operand t => op.resultType reg t operand.span)
      (fun _ => rfl) (Expr.synth_again operand) h
termination_by structural form => form

theorem Expr.synthAll_again : ∀ (es : List Expr) {es' : List Expr} {q : Except TypeError (List Ty)},
    (Expr.synthAll reg env es).outcome = (es', q) →
      (Expr.synthAll reg env es').outcome = (es', q)
  | [], es', q, h => by
    cases h
    rfl
  | e :: es, es', q, h => by
    rw [Expr.synthAll] at h
    rcases outcome_andThen_cases h with ⟨e', x, he, rfl, rfl⟩ | ⟨e', t, he, h⟩
    · rw [Expr.synthAll, outcome_andThen_of_error _ _ (Expr.synth_again e _ _ he)]
    rcases outcome_andThen_cases h with ⟨rest, x, hes, rfl, rfl⟩ | ⟨rest, ts, hes, h⟩
    · rw [Expr.synthAll, outcome_andThen_of_ok _ _ (Expr.synth_again e _ _ he),
        outcome_andThen_of_error _ _ (Expr.synthAll_again es hes)]
    · cases h
      rw [Expr.synthAll, outcome_andThen_of_ok _ _ (Expr.synth_again e _ _ he),
        outcome_andThen_of_ok _ _ (Expr.synthAll_again es hes)]
      rfl
termination_by structural es => es

/-- The same for arguments, against the same parameters. -/
theorem Expr.synthArgs_again {span : Option Span} : ∀ (params : List Ty) (es : List Expr)
    {es' : List Expr} {q : Except TypeError Unit},
    (Expr.synthArgs reg env span params es).outcome = (es', q) →
      (Expr.synthArgs reg env span params es').outcome = (es', q)
  | _, [], es', q, h => by
    rw [Expr.synthArgs] at h
    cases h
    rw [Expr.synthArgs]
    rfl
  | [], e :: es, es', q, h => by
    cases h
    rfl
  | p :: ps, e :: es, es', q, h => by
    rw [Expr.synthArgs] at h
    rcases outcome_andThen_cases h with ⟨e', x, he, rfl, rfl⟩ | ⟨e', t, he, h⟩
    · rw [Expr.synthArgs, outcome_andThen_of_error _ _ (Expr.synth_again e _ _ he)]
    -- the argument has its type now, and is compared with the same parameter
    rcases outcome_after_cases h with ⟨x, hsub, rfl, rfl⟩ | ⟨⟨⟩, hsub, h⟩
    · rw [Expr.synthArgs, outcome_andThen_of_ok _ _ (Expr.synth_again e _ _ he),
        outcome_after_of_error _ _ hsub]
    · obtain ⟨rest, hrest, rfl⟩ := outcome_within_eq.1 h
      rw [Expr.synthArgs, outcome_andThen_of_ok _ _ (Expr.synth_again e _ _ he),
        outcome_after_of_ok _ _ hsub]
      exact outcome_within_eq.2 ⟨rest, Expr.synthArgs_again ps es hrest, rfl⟩
termination_by structural _ es => es

/-- The same for the fields of a record, with the names that were seen. -/
theorem FieldInit.synthAll_again {span : Option Span} : ∀ (seen : List String)
    (fs : List FieldInit) {fs' : List FieldInit} {q : Except TypeError (List Field)},
    (FieldInit.synthAll reg env span seen fs).outcome = (fs', q) →
      (FieldInit.synthAll reg env span seen fs').outcome = (fs', q)
  | _, [], fs', q, h => by
    cases h
    rfl
  | seen, ⟨n, e⟩ :: fs, fs', q, h => by
    rw [FieldInit.synthAll] at h
    -- a name that comes twice, then an error in the value, in the rest, or none
    by_cases hn : n ∈ seen
    · rw [if_pos hn] at h
      cases h
      rw [FieldInit.synthAll, if_pos hn]
      rfl
    rw [if_neg hn] at h
    rcases outcome_andThen_cases h with ⟨e', x, he, rfl, rfl⟩ | ⟨e', t, he, h⟩
    · rw [FieldInit.synthAll, if_neg hn, outcome_andThen_of_error _ _ (Expr.synth_again e _ _ he)]
    rcases outcome_andThen_cases h with ⟨rest, x, hfs, rfl, rfl⟩ | ⟨rest, ts, hfs, h⟩
    · rw [FieldInit.synthAll, if_neg hn, outcome_andThen_of_ok _ _ (Expr.synth_again e _ _ he),
        outcome_andThen_of_error _ _ (FieldInit.synthAll_again (n :: seen) fs hfs)]
    · cases h
      rw [FieldInit.synthAll, if_neg hn, outcome_andThen_of_ok _ _ (Expr.synth_again e _ _ he),
        outcome_andThen_of_ok _ _ (FieldInit.synthAll_again (n :: seen) fs hfs)]
      rfl
termination_by structural _ fs => fs
end

end Expressions

/-! ## Statements -/

theorem Expr.isAssignable_bare (e : Expr) : e.bare.isAssignable = e.isAssignable := by
  obtain ⟨form, span, ty⟩ := e
  cases form <;> rfl

/-- A target is still one when its type has been found. -/
theorem Expr.isAssignable_of_synth {reg : Registry} {env : Env} {e e' : Expr}
    {q : Except TypeError Ty} (h : (e.synth reg env).outcome = (e', q))
    (he : e.isAssignable = true) : e'.isAssignable = true := by
  have hbare := Expr.bare_synth reg env e
  rw [(Prod.mk.inj h).1] at hbare
  rw [← Expr.isAssignable_bare, hbare, Expr.isAssignable_bare, he]

namespace Stmt

/-- Whether a statement declares a variable with `var`. -/
def isVarDecl (s : Stmt) : Bool :=
  match s.form with
  | .infer _ _ _ => true
  | _ => false

/-- None of the statements is a `var` declaration. -/
def VarFree (nodes : List Stmt) : Prop := ∀ s ∈ nodes, s.isVarDecl = false

theorem varFree_append {nodes nodes' : List Stmt} :
    VarFree (nodes ++ nodes') ↔ VarFree nodes ∧ VarFree nodes' :=
  List.forall_mem_append

end Stmt

section Statements

variable {ctx : Context}

/-- A condition comes to the same again. -/
theorem Expr.checkCondition_again {env : Env} {e e' : Expr} {q : Except TypeError Unit}
    (h : (e.checkCondition ctx env).outcome = (e', q)) :
    (e'.checkCondition ctx env).outcome = (e', q) := by
  rcases outcome_andThen_cases h with ⟨e₁, x, he, rfl, rfl⟩ | ⟨e₁, t, he, h⟩
  · exact outcome_andThen_of_error _ _ (Expr.synth_again e _ _ he)
  · cases h
    exact outcome_andThen_of_ok _ _ (Expr.synth_again e _ _ he)

/-- A declaration comes to the same again from the same environment, which it does not extend
itself. -/
theorem VarDecl.check_again {env : Env} {span : Option Span} {d d' : VarDecl}
    {q : Except TypeError Unit} (h : (d.check ctx env span).outcome = (d', q)) :
    (d'.check ctx env span).outcome = (d', q) := by
  obtain ⟨x, t, init⟩ := d
  unfold VarDecl.check at h
  -- the name is looked up in the environment from before the declaration, both times
  by_cases hx : env.contains x = true
  · rw [if_pos hx] at h
    cases h
    rw [VarDecl.check, if_pos hx]
    rfl
  rw [if_neg hx] at h
  rcases outcome_after_cases h with ⟨e, hty, rfl, rfl⟩ | ⟨⟨⟩, hty, h⟩
  · rw [VarDecl.check, if_neg hx, outcome_after_of_error _ _ hty]
  cases init with
  | none =>
    cases h
    rw [VarDecl.check, if_neg hx, outcome_after_of_ok _ _ hty]
    rfl
  | some e =>
    rcases outcome_andThen_cases h with ⟨e', y, he, rfl, rfl⟩ | ⟨e', u, he, h⟩
    · rw [VarDecl.check, if_neg hx, outcome_after_of_ok _ _ hty]
      exact outcome_andThen_of_error _ _ (Expr.synth_again e _ _ he)
    · cases h
      rw [VarDecl.check, if_neg hx, outcome_after_of_ok _ _ hty]
      exact outcome_andThen_of_ok _ _ (Expr.synth_again e _ _ he)

mutual
/-- A statement without `var` declarations that has been checked is checked to the same end. -/
theorem Stmt.check_again : ∀ (s : Stmt) {env : Env} {left : Env × Stmt} {q : Except TypeError Unit},
    Stmt.VarFree s.nodes → (s.check ctx env).outcome = (left, q) →
      (left.2.check ctx env).outcome = (left, q)
  | ⟨form, span⟩, env, left, q, hfree, h => by
    rw [Stmt.nodes] at hfree
    obtain ⟨hself, hfree⟩ := List.forall_mem_cons.1 hfree
    obtain ⟨left', hform, rfl⟩ := outcome_within_eq.1 h
    exact outcome_within_eq.2 ⟨left', StmtForm.check_again form hself hfree hform, rfl⟩

/-- By cases on the statement. What a failed part has left behind fails again, before anything after
it is come to. -/
theorem StmtForm.check_again : ∀ (form : StmtForm) {span : Option Span} {env : Env}
    {left : Env × StmtForm} {q : Except TypeError Unit},
    Stmt.isVarDecl ⟨form, span⟩ = false → Stmt.VarFree (Stmt.nodesForm form) →
      (form.check ctx env span).outcome = (left, q) →
        (left.2.check ctx env span).outcome = (left, q)
  | .assert e, span, env, left, q, hself, hfree, h => by
    obtain ⟨e', he, rfl⟩ := outcome_within_eq.1 h
    exact outcome_within_eq.2 ⟨e', Expr.checkCondition_again he, rfl⟩
  | .assign target value, span, env, left, q, hself, hfree, h => by
    unfold StmtForm.check at h
    by_cases hassignable : target.isAssignable = true
    · rw [if_pos hassignable] at h
      rcases outcome_andThen_cases h with
        ⟨target', x, htarget, rfl, rfl⟩ | ⟨target', lt, htarget, h⟩
      · rw [StmtForm.check, if_pos (Expr.isAssignable_of_synth htarget hassignable),
          outcome_andThen_of_error _ _ (Expr.synth_again target _ _ htarget)]
      -- the target is still one that can be assigned to
      have hassignable' := Expr.isAssignable_of_synth htarget hassignable
      have htarget := Expr.synth_again target _ _ htarget
      rcases outcome_andThen_cases h with ⟨value', x, hvalue, rfl, rfl⟩ | ⟨value', rt, hvalue, h⟩
      · rw [StmtForm.check, if_pos hassignable', outcome_andThen_of_ok _ _ htarget,
          outcome_andThen_of_error _ _ (Expr.synth_again value _ _ hvalue)]
      · -- the value is stored in the environment from before the statement, as it was
        obtain ⟨env', hstore, rfl⟩ := outcome_within_eq.1 h
        rw [StmtForm.check, if_pos hassignable', outcome_andThen_of_ok _ _ htarget,
          outcome_andThen_of_ok _ _ (Expr.synth_again value _ _ hvalue)]
        exact outcome_within_eq.2 ⟨env', hstore, rfl⟩
    · rw [if_neg hassignable] at h
      cases h
      unfold StmtForm.check
      rw [if_neg hassignable]
      rfl
  | .breakLoop, span, env, left, q, hself, hfree, h
  | .continueLoop, span, env, left, q, hself, hfree, h
  | .ret none, span, env, left, q, hself, hfree, h => by
    cases h
    rfl
  | .forLoop d condition step body, span, env, left, q, hself, hfree, h => by
    rw [Stmt.nodesForm, Stmt.varFree_append] at hfree
    rw [StmtForm.check] at h
    rcases outcome_andThen_cases h with ⟨d', x, hd, rfl, rfl⟩ | ⟨d', ⟨⟩, hd, h⟩
    · rw [StmtForm.check, outcome_andThen_of_error _ _ (VarDecl.check_again hd)]
    have hd := VarDecl.check_again hd
    rcases outcome_andThen_cases h with
      ⟨condition', x, hcond, rfl, rfl⟩ | ⟨condition', ⟨⟩, hcond, h⟩
    · rw [StmtForm.check, outcome_andThen_of_ok _ _ hd,
        outcome_andThen_of_error _ _ (Expr.checkCondition_again hcond)]
    have hcond := Expr.checkCondition_again hcond
    rcases outcome_andThen_cases h with ⟨sleft, x, hs, rfl, rfl⟩ | ⟨sleft, ⟨⟩, hs, h⟩
    · rw [StmtForm.check, outcome_andThen_of_ok _ _ hd, outcome_andThen_of_ok _ _ hcond,
        outcome_andThen_of_error _ _ (Stmt.check_again step hfree.1 hs)]
    · obtain ⟨inner, hb, rfl⟩ := outcome_within_eq.1 h
      rw [StmtForm.check, outcome_andThen_of_ok _ _ hd, outcome_andThen_of_ok _ _ hcond,
        outcome_andThen_of_ok _ _ (Stmt.check_again step hfree.1 hs)]
      exact outcome_within_eq.2 ⟨inner, Stmt.checkAll_again body hfree.2 hb, rfl⟩
  | .ifElse condition onTrue onFalse, span, env, left, q, hself, hfree, h => by
    rw [Stmt.nodesForm, Stmt.varFree_append] at hfree
    rw [StmtForm.check] at h
    rcases outcome_andThen_cases h with
      ⟨condition', x, hcond, rfl, rfl⟩ | ⟨condition', ⟨⟩, hcond, h⟩
    · rw [StmtForm.check, outcome_andThen_of_error _ _ (Expr.checkCondition_again hcond)]
    have hcond := Expr.checkCondition_again hcond
    rcases outcome_andThen_cases h with ⟨l, x, hl, rfl, rfl⟩ | ⟨l, ⟨⟩, hl, h⟩
    · rw [StmtForm.check, outcome_andThen_of_ok _ _ hcond,
        outcome_andThen_of_error _ _ (Stmt.checkAll_again onTrue hfree.1 hl)]
    have hl := Stmt.checkAll_again onTrue hfree.1 hl
    rcases outcome_andThen_cases h with ⟨r, x, hr, rfl, rfl⟩ | ⟨r, ⟨⟩, hr, h⟩
    · rw [StmtForm.check, outcome_andThen_of_ok _ _ hcond, outcome_andThen_of_ok _ _ hl,
        outcome_andThen_of_error _ _ (Stmt.checkAll_again onFalse hfree.2 hr)]
    have hr := Stmt.checkAll_again onFalse hfree.2 hr
    -- the arms end in the same environments, so they are merged in the same way
    obtain ⟨merged, hmerged, rfl⟩ := outcome_within_eq.1 h
    rw [StmtForm.check, outcome_andThen_of_ok _ _ hcond, outcome_andThen_of_ok _ _ hl,
      outcome_andThen_of_ok _ _ hr]
    exact outcome_within_eq.2 ⟨merged, hmerged, rfl⟩
  | .call method args, span, env, left, q, hself, hfree, h => by
    rw [StmtForm.check] at h
    rcases outcome_andThen_cases h with ⟨args', x, hcall, rfl, rfl⟩ | ⟨args', t, hcall, h⟩
    all_goals
      have hcall := Expr.synthCall_again (fun params _ _ => Expr.synthArgs_again params args) hcall
    · rw [StmtForm.check, outcome_andThen_of_error _ _ hcall]
    · cases h
      rw [StmtForm.check, outcome_andThen_of_ok _ _ hcall]
      rfl
  | .print e, span, env, left, q, hself, hfree, h => by
    rw [StmtForm.check] at h
    rcases outcome_andThen_cases h with ⟨e', x, he, rfl, rfl⟩ | ⟨e', t, he, h⟩
    · rw [StmtForm.check, outcome_andThen_of_error _ _ (Expr.synth_again e _ _ he)]
    · cases h
      rw [StmtForm.check, outcome_andThen_of_ok _ _ (Expr.synth_again e _ _ he)]
      rfl
  | .ret (some e), span, env, left, q, hself, hfree, h => by
    rw [StmtForm.check] at h
    rcases outcome_andThen_cases h with ⟨e', x, he, rfl, rfl⟩ | ⟨e', t, he, h⟩
    · rw [StmtForm.check, outcome_andThen_of_error _ _ (Expr.synth_again e _ _ he)]
    · cases h
      rw [StmtForm.check, outcome_andThen_of_ok _ _ (Expr.synth_again e _ _ he)]
      rfl
  | .switchOn selector cases, span, env, left, q, hself, hfree, h => by
    rw [StmtForm.check] at h
    rcases outcome_andThen_cases h with ⟨selector', x, hsel, rfl, rfl⟩ | ⟨selector', t, hsel, h⟩
    · rw [StmtForm.check, outcome_andThen_of_error _ _ (Expr.synth_again selector _ _ hsel)]
    · obtain ⟨cleft, hcs, rfl⟩ := outcome_within_eq.1 h
      rw [StmtForm.check, outcome_andThen_of_ok _ _ (Expr.synth_again selector _ _ hsel)]
      exact outcome_within_eq.2 ⟨cleft, SwitchCase.checkAll_again cases hfree hcs, rfl⟩
  | .matchType selector cases, span, env, left, q, hself, hfree, h => by
    rw [StmtForm.check] at h
    rcases outcome_andThen_cases h with ⟨selector', x, hsel, rfl, rfl⟩ | ⟨selector', t, hsel, h⟩
    · rw [StmtForm.check, outcome_andThen_of_error _ _ (Expr.synth_again selector _ _ hsel)]
    · obtain ⟨cases', hcs, rfl⟩ := outcome_within_eq.1 h
      rw [StmtForm.check, outcome_andThen_of_ok _ _ (Expr.synth_again selector _ _ hsel)]
      exact outcome_within_eq.2 ⟨cases', MatchCase.checkAll_again cases hfree hcs, rfl⟩
  | .declare d, span, env, left, q, hself, hfree, h => by
    rw [StmtForm.check] at h
    rcases outcome_andThen_cases h with ⟨d', x, hd, rfl, rfl⟩ | ⟨d', ⟨⟩, hd, h⟩
    · rw [StmtForm.check, outcome_andThen_of_error _ _ (VarDecl.check_again hd)]
    · cases h
      rw [StmtForm.check, outcome_andThen_of_ok _ _ (VarDecl.check_again hd)]
      rfl
  -- ruled out: its cell would be found to be full
  | .infer x cell init, span, env, left, q, hself, hfree, h => by cases hself
  | .whileLoop condition body, span, env, left, q, hself, hfree, h => by
    rw [StmtForm.check] at h
    rcases outcome_andThen_cases h with
      ⟨condition', x, hcond, rfl, rfl⟩ | ⟨condition', ⟨⟩, hcond, h⟩
    · rw [StmtForm.check, outcome_andThen_of_error _ _ (Expr.checkCondition_again hcond)]
    · obtain ⟨inner, hb, rfl⟩ := outcome_within_eq.1 h
      rw [StmtForm.check, outcome_andThen_of_ok _ _ (Expr.checkCondition_again hcond)]
      exact outcome_within_eq.2 ⟨inner, Stmt.checkAll_again body hfree hb, rfl⟩

/-- The same for a block. The statements before the one that fails leave the same environments
again. -/
theorem Stmt.checkAll_again : ∀ (ss : List Stmt) {env : Env} {left : Env × List Stmt}
    {q : Except TypeError Unit}, Stmt.VarFree (Stmt.nodesAll ss) →
      (Stmt.checkAll ctx env ss).outcome = (left, q) →
        (Stmt.checkAll ctx env left.2).outcome = (left, q)
  | [], env, left, q, hfree, h => by
    cases h
    rfl
  | s :: ss, env, left, q, hfree, h => by
    rw [Stmt.nodesAll, Stmt.varFree_append] at hfree
    rw [Stmt.checkAll] at h
    rcases outcome_andThen_cases h with ⟨sleft, x, hs, rfl, rfl⟩ | ⟨sleft, ⟨⟩, hs, h⟩
    · rw [Stmt.checkAll, outcome_andThen_of_error _ _ (Stmt.check_again s hfree.1 hs)]
    · obtain ⟨rest, hrest, rfl⟩ := outcome_within_eq.1 h
      rw [Stmt.checkAll, outcome_andThen_of_ok _ _ (Stmt.check_again s hfree.1 hs)]
      exact outcome_within_eq.2 ⟨rest, Stmt.checkAll_again ss hfree.2 hrest, rfl⟩

/-- The same for the cases of a `switch`. -/
theorem SwitchCase.checkAll_again : ∀ (cs : List SwitchCase) {selector : Ty} {env : Env}
    {left : Env × List SwitchCase} {q : Except TypeError Unit}, Stmt.VarFree (Stmt.nodesSwitch cs) →
      (SwitchCase.checkAll ctx selector env cs).outcome = (left, q) →
        (SwitchCase.checkAll ctx selector env left.2).outcome = (left, q)
  | [], selector, env, left, q, hfree, h => by
    cases h
    rfl
  | ⟨none, body⟩ :: cs, selector, env, left, q, hfree, h => by
    rw [Stmt.nodesSwitch, Stmt.varFree_append] at hfree
    rw [SwitchCase.checkAll] at h
    rcases outcome_andThen_cases h with ⟨bleft, x, hb, rfl, rfl⟩ | ⟨bleft, ⟨⟩, hb, h⟩
    · rw [SwitchCase.checkAll, outcome_andThen_of_error _ _ (Stmt.checkAll_again body hfree.1 hb)]
    · obtain ⟨rest, hrest, rfl⟩ := outcome_within_eq.1 h
      rw [SwitchCase.checkAll, outcome_andThen_of_ok _ _ (Stmt.checkAll_again body hfree.1 hb)]
      exact outcome_within_eq.2 ⟨rest, SwitchCase.checkAll_again cs hfree.2 hrest, rfl⟩
  -- a case with a value, which may fail, not fit or pass, and then the body may fail or pass
  | ⟨some e, body⟩ :: cs, selector, env, left, q, hfree, h => by
    rw [Stmt.nodesSwitch, Stmt.varFree_append] at hfree
    rw [SwitchCase.checkAll] at h
    rcases outcome_andThen_cases h with ⟨e', x, he, rfl, rfl⟩ | ⟨e', t, he, h⟩
    · rw [SwitchCase.checkAll, outcome_andThen_of_error _ _ (Expr.synth_again e _ _ he)]
    have he := Expr.synth_again e _ _ he
    rcases outcome_after_cases h with ⟨x, hsub, rfl, rfl⟩ | ⟨⟨⟩, hsub, h⟩
    · rw [SwitchCase.checkAll, outcome_andThen_of_ok _ _ he, outcome_after_of_error _ _ hsub]
    rcases outcome_andThen_cases h with ⟨bleft, x, hb, rfl, rfl⟩ | ⟨bleft, ⟨⟩, hb, h⟩
    · rw [SwitchCase.checkAll, outcome_andThen_of_ok _ _ he, outcome_after_of_ok _ _ hsub,
        outcome_andThen_of_error _ _ (Stmt.checkAll_again body hfree.1 hb)]
    · obtain ⟨rest, hrest, rfl⟩ := outcome_within_eq.1 h
      rw [SwitchCase.checkAll, outcome_andThen_of_ok _ _ he, outcome_after_of_ok _ _ hsub,
        outcome_andThen_of_ok _ _ (Stmt.checkAll_again body hfree.1 hb)]
      exact outcome_within_eq.2 ⟨rest, SwitchCase.checkAll_again cs hfree.2 hrest, rfl⟩

/-- The same for the cases of a `match`. -/
theorem MatchCase.checkAll_again : ∀ (cs : List MatchCase) {selector : Ty} {span : Option Span}
    {env : Env} {cs' : List MatchCase} {q : Except TypeError Unit},
    Stmt.VarFree (Stmt.nodesMatch cs) →
      (MatchCase.checkAll ctx selector span env cs).outcome = (cs', q) →
        (MatchCase.checkAll ctx selector span env cs').outcome = (cs', q)
  | [], selector, span, env, cs', q, hfree, h => by
    cases h
    rfl
  | ⟨t, x, body, caseSpan⟩ :: cs, selector, span, env, cs', q, hfree, h => by
    rw [Stmt.nodesMatch, Stmt.varFree_append] at hfree
    rw [MatchCase.checkAll] at h
    -- the checks of the case itself look at nothing that was written
    rcases outcome_after_cases h with ⟨e, hcase, rfl, rfl⟩ | ⟨⟨⟩, hcase, h⟩
    · rw [MatchCase.checkAll, outcome_after_of_error _ _ hcase]
    rcases outcome_andThen_cases h with ⟨bleft, e, hb, rfl, rfl⟩ | ⟨bleft, ⟨⟩, hb, h⟩
    · rw [MatchCase.checkAll, outcome_after_of_ok _ _ hcase,
        outcome_andThen_of_error _ _ (Stmt.checkAll_again body hfree.1 hb)]
    · obtain ⟨rest, hrest, rfl⟩ := outcome_within_eq.1 h
      rw [MatchCase.checkAll, outcome_after_of_ok _ _ hcase,
        outcome_andThen_of_ok _ _ (Stmt.checkAll_again body hfree.1 hb)]
      exact outcome_within_eq.2 ⟨rest, MatchCase.checkAll_again cs hfree.2 hrest, rfl⟩
end

end Statements

end WhileTyping
