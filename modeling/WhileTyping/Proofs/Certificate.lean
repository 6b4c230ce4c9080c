import WhileTyping.Proofs.CompleteTypes
import WhileTyping.Proofs.TypingRules

/-!
# Accepted files obey the typing rules

A check goes through a file with an environment that it changes, and leaves types on the tree. Once
it has accepted the file, the types speak for themselves: each node obeys the typing rule for it.

* **`Env.Declares`**: what ties an environment to a scope. The variables are the same, with the same
  declared types, and one that is not a `var` variable holds the type it is declared with.
* **`Expr.synth_typed`**, **`Stmt.check_typed`**: a fresh tree that passes its check obeys the rules
  afterwards, and the environment that is left goes with the scope that is left. So does every
  method of an accepted file, whether its written unions are canonical or not.
-/

namespace WhileTyping

/-! ## Environments and scopes -/

/-- The environment binds the variables of the scope. -/
structure Env.Declares (env : Env) (Γ : Scope) : Prop where
  declared : ∀ x, env.declared? x = Γ.lookup x
  fixed : ∀ x b, env.find? x = some b → b.declared ≠ .inferred → b.current = b.declared

namespace Env.Declares

variable {env : Env} {Γ : Scope}

/-- A variable in scope is declared in the certificate as it is in the environment. -/
theorem lookup_of_find? (h : env.Declares Γ) {x : String} {b : Binding}
    (hb : env.find? x = some b) : Γ.lookup x = some b.declared := by
  rw [← h.declared, declared?, hb, Option.map_some]

/-- A variable that is not in scope is not declared there either. -/
theorem lookup_eq_none (h : env.Declares Γ) {x : String} (hx : env.contains x = false) :
    Γ.lookup x = none := by
  rw [← h.declared, declared?, Option.map_eq_none_iff]
  simpa [contains] using hx

/-- A new binding is a new declaration, if it holds its written type. -/
theorem insert (h : env.Declares Γ) (x : String) {b : Binding}
    (hb : b.declared ≠ .inferred → b.current = b.declared) :
    (env.insert x b).Declares ((x, b.declared) :: Γ) := by
  constructor
  · intro y
    by_cases hy : y = x
    · subst hy
      rw [declared?, find?_insert_self, List.lookup_cons_self, Option.map_some]
    · rw [declared?, find?_insert_of_ne env b hy, List.lookup_cons, beq_false_of_ne hy]
      exact h.declared y
  · -- a binding with a written type holds that type, the new one by assumption
    intro y c hc
    by_cases hy : y = x
    · subst hy
      rw [find?_insert_self] at hc
      cases hc
      exact hb
    · rw [find?_insert_of_ne env b hy] at hc
      exact h.fixed y c hc

theorem put (h : env.Declares Γ) (x : String) (t : Ty) : (env.put x t).Declares ((x, t) :: Γ) :=
  h.insert x fun _ => rfl

/-- An environment with the same declared types goes with the same scope. -/
theorem of_keeps (h : env.Declares Γ) {env' : Env} (hkeeps : env.Keeps env')
    (hnone : ∀ x, env.find? x = none → env'.find? x = none) : env'.Declares Γ := by
  constructor
  · intro x
    rw [← h.declared, declared?, declared?]
    cases hb : env.find? x with
    | none => rw [hnone x hb]
    | some b =>
      obtain ⟨b', hb', hdeclared, -⟩ := hkeeps x b hb
      rw [hb', Option.map_some, Option.map_some, hdeclared]
  · -- a variable with a written type has not changed at all
    intro x b' hb' hne
    cases hb : env.find? x with
    | none =>
      rw [hnone x hb] at hb'
      cases hb'
    | some b =>
      obtain ⟨c, hc, hdeclared, hfixed⟩ := hkeeps x b hb
      rw [hb'] at hc
      cases hc
      have hsame := hfixed (hdeclared ▸ hne)
      rw [hsame]
      exact h.fixed x b hb (hsame ▸ hne)

/-- Storing in a `var` variable declares nothing, since the scope only has its declared type. -/
theorem store (h : env.Declares Γ) {x : String} {b : Binding} (t : Ty)
    (hb : env.find? x = some b) (hinferred : b.declared = .inferred) :
    (env.insert x { b with current := t }).Declares Γ := by
  refine h.of_keeps (.insert_current t hb hinferred) fun y hy => ?_
  have hne : y ≠ x := by
    rintro rfl
    rw [hb] at hy
    cases hy
  exact (find?_insert_of_ne env _ hne).trans hy

/-- Merging after a branch changes no declared type, and no type of a variable that has a written
one. -/
theorem merge (h : env.Declares Γ) {reg : Registry} {left right merged : Env}
    (hmerge : (env.merge reg left right).Ends merged ()) : merged.Declares Γ := by
  refine h.of_keeps (hmerge.1 ▸ keeps_merge reg env left right) fun x hx => ?_
  rcases find?_merge hmerge x with ⟨-, hnone⟩ | ⟨b, b', hb, -, -⟩
  · exact hnone
  · rw [hx] at hb
    cases hb

end Env.Declares

/-! ## Expressions -/

section Expressions

variable {reg : Registry} {env : Env} {Γ : Scope}

mutual
/-- An expression without types that passes its check obeys the typing rules afterwards. -/
theorem Expr.synth_typed (henv : env.Declares Γ) :
    ∀ (e : Expr) {e' : Expr} {t : Ty}, Blank e.slots →
    (e.synth reg env).Ends e' t → e'.Typed reg Γ t
  | ⟨form, span, some u⟩, e', t, hblank, h => by
    -- a full slot would be taken as it is
    rw [Expr.slots] at hblank
    cases (blank_cons.1 hblank).1
  | ⟨form, span, none⟩, e', t, hblank, h => by
    rw [Expr.slots] at hblank
    simp only [Expr.synth, Visit.ends_andThen, Visit.ends_mk, Check.result_pure] at h
    obtain ⟨form', u, hform, rfl, hu⟩ := h
    cases hu
    exact .node (ExprForm.synth_typed henv form (blank_cons.1 hblank).2 hform)

/-- By cases on the expression. Each rule asks for what the check has asked for. -/
theorem ExprForm.synth_typed (henv : env.Declares Γ) :
    ∀ (form : ExprForm) {span : Option Span} {form' : ExprForm} {t : Ty},
    Blank (Expr.slotsForm form) → (form.synth reg env span).Ends form' t → form'.Typed reg Γ t
  | .binary op l r, span, form', t, hblank, h => by
    rw [Expr.slotsForm, blank_append] at hblank
    simp only [ExprForm.synth, Visit.ends_andThen, Visit.ends_mk, Check.result_lift] at h
    obtain ⟨l', lt, hl, r', rt, hr, rfl, ht⟩ := h
    exact .binary (Expr.synth_typed henv l hblank.1 hl) (Expr.synth_typed henv r hblank.2 hr)
      (BinaryOp.rule_of_resultType ht)
  | .constant v, span, form', t, hblank, h => by
    obtain ⟨rfl, ht⟩ := Visit.ends_mk.1 h
    exact .constant ht
  | .index source position, span, form', t, hblank, h => by
    rw [Expr.slotsForm, blank_append] at hblank
    simp only [ExprForm.synth, Visit.ends_andThen, Visit.ends_mk, Check.result_lift] at h
    obtain ⟨source', st, hsource, position', pt, hposition, rfl, ht⟩ := h
    obtain ⟨hint, helement⟩ := Registry.element_of_elementType ht
    exact .index (Expr.synth_typed henv source hblank.1 hsource)
      (Expr.synth_typed henv position hblank.2 hposition) hint helement
  -- the value of the call is used, so the check has ruled out `void`
  | .call method args, span, form', t, hblank, h => by
    rw [Expr.slotsForm] at hblank
    rw [ExprForm.synth, Visit.ends_within] at h
    obtain ⟨args', hcall, rfl⟩ := h
    obtain ⟨sig, hsig, hlen, hargs, rfl, hvoid⟩ := checkCall_ends hcall
    exact .call hsig (Expr.synthArgs_typed henv args hlen hblank hargs)
      (Registry.hasVoid_of_expectNoVoid (hvoid rfl))
  | .fill value size, span, form', t, hblank, h => by
    rw [Expr.slotsForm, blank_append] at hblank
    simp only [ExprForm.synth, Visit.ends_andThen, Visit.ends_mk, Check.result_bind_eq_ok,
      Check.result_discard_eq_ok, Check.result_lift, Check.result_pure] at h
    obtain ⟨value', u, hvalue, size', st, hsize, rfl, _, ⟨_, hint⟩, ht⟩ := h
    cases ht
    exact .fill (Expr.synth_typed henv value hblank.1 hvalue)
      (Expr.synth_typed henv size hblank.2 hsize)
      (Registry.expand_of_expectInt hint)
  | .array items, span, form', t, hblank, h => by
    rw [Expr.slotsForm] at hblank
    simp only [ExprForm.synth, Visit.ends_andThen, Visit.ends_mk, Check.result_bind_eq_ok,
      Check.result_pure] at h
    obtain ⟨items', ts, hitems, rfl, bound, hbound, ht⟩ := h
    cases ht
    exact .array (Expr.synthAll_typed henv items hblank hitems) hbound
  | .field source name, span, form', t, hblank, h => by
    rw [Expr.slotsForm] at hblank
    simp only [ExprForm.synth, Visit.ends_andThen, Visit.ends_mk] at h
    obtain ⟨source', st, hsource, rfl, ht⟩ := h
    exact .field (Expr.synth_typed henv source hblank hsource) ht
  | .record fields, span, form', t, hblank, h => by
    rw [Expr.slotsForm] at hblank
    simp only [ExprForm.synth, Visit.ends_andThen, Visit.ends_mk, Check.result_pure] at h
    obtain ⟨fields', fs, hfields, rfl, ht⟩ := h
    cases ht
    obtain ⟨htyped, hnodup, -⟩ := FieldInit.synthAll_typed henv fields hblank hfields
    exact .record htyped hnodup
  | .unary op operand, span, form', t, hblank, h => by
    rw [Expr.slotsForm] at hblank
    simp only [ExprForm.synth, Visit.ends_andThen, Visit.ends_mk, Check.result_lift] at h
    obtain ⟨operand', u, hoperand, rfl, ht⟩ := h
    exact .unary (Expr.synth_typed henv operand hblank hoperand) (UnaryOp.rule_of_resultType ht)
  | .var x, span, form', t, hblank, h => by
    rw [ExprForm.synth, Visit.ends_mk] at h
    obtain ⟨rfl, ht⟩ := h
    split at ht
    · rename_i u hu
      cases ht
      rw [Env.current?, Option.map_eq_some_iff] at hu
      obtain ⟨b, hb, rfl⟩ := hu
      -- the type found is the current one, which is the written one if there is one
      exact .var (henv.lookup_of_find? hb) (henv.fixed x b hb)
    · cases ht

theorem Expr.synthAll_typed (henv : env.Declares Γ) :
    ∀ (es : List Expr) {es' : List Expr} {ts : List Ty},
    Blank (Expr.slotsAll es) → (Expr.synthAll reg env es).Ends es' ts →
      Expr.TypedAll reg Γ es' ts
  | [], es', ts, hblank, h => by
    obtain ⟨rfl, hts⟩ := Visit.ends_mk.1 h
    cases hts
    exact .nil
  | e :: es, es', ts, hblank, h => by
    rw [Expr.slotsAll, blank_append] at hblank
    simp only [Expr.synthAll, Visit.ends_andThen, Visit.ends_mk, Check.result_pure] at h
    obtain ⟨e', t, he, rest, us, hrest, rfl, hts⟩ := h
    cases hts
    exact .cons (Expr.synth_typed henv e hblank.1 he) (Expr.synthAll_typed henv es hblank.2 hrest)

/-- The same for arguments, each below its parameter. -/
theorem Expr.synthArgs_typed (henv : env.Declares Γ) :
    ∀ (es : List Expr) {span : Option Span} {params : List Ty}
    {es' : List Expr}, es.length = params.length → Blank (Expr.slotsAll es) →
      (Expr.synthArgs reg env span params es).Ends es' () → Expr.TypedArgs reg Γ es' params
  | [], span, [], es', hlen, hblank, h => by
    obtain ⟨rfl, -⟩ := Visit.ends_mk.1 h
    exact .nil
  -- the check has compared the numbers before it looks at the arguments
  | [], span, p :: ps, es', hlen, hblank, h => by cases hlen
  | e :: es, span, [], es', hlen, hblank, h => by cases hlen
  | e :: es, span, p :: ps, es', hlen, hblank, h => by
    rw [Expr.slotsAll, blank_append] at hblank
    simp only [Expr.synthArgs, Visit.ends_andThen, Visit.ends_after, Visit.ends_within,
      Check.result_lift] at h
    obtain ⟨e', t, he, ⟨⟩, hbelow, rest, hrest, rfl⟩ := h
    exact .cons (Expr.synth_typed henv e hblank.1 he) (Registry.expectSubtype_eq_ok hbelow)
      (Expr.synthArgs_typed henv es (Nat.succ.inj hlen) hblank.2 hrest)

/-- The same for the fields of a record. That no name comes twice is carried through the induction
as the names seen so far. -/
theorem FieldInit.synthAll_typed (henv : env.Declares Γ) :
    ∀ (fs : List FieldInit) {span : Option Span}
    {seen : List String} {fs' : List FieldInit} {ts : List Field}, Blank (Expr.slotsFields fs) →
      (FieldInit.synthAll reg env span seen fs).Ends fs' ts →
        FieldInit.TypedAll reg Γ fs' ts ∧ (ts.map Field.name).Nodup ∧
          ∀ n ∈ ts.map Field.name, n ∉ seen
  | [], span, seen, fs', ts, hblank, h => by
    obtain ⟨rfl, hts⟩ := Visit.ends_mk.1 h
    cases hts
    exact ⟨.nil, List.nodup_nil, fun n hn => absurd hn List.not_mem_nil⟩
  | ⟨n, e⟩ :: fs, span, seen, fs', ts, hblank, h => by
    rw [Expr.slotsFields, blank_append] at hblank
    unfold FieldInit.synthAll at h
    split at h
    · cases h.2
    · rename_i hn
      simp only [Visit.ends_andThen, Visit.ends_mk, Check.result_pure] at h
      obtain ⟨e', t, he, rest, us, hrest, rfl, hts⟩ := h
      cases hts
      obtain ⟨htyped, hnodup, hseen⟩ := FieldInit.synthAll_typed henv fs hblank.2 hrest
      refine ⟨.cons (Expr.synth_typed henv e hblank.1 he) htyped, ?_, ?_⟩
      · -- the names after this one differ from it, since it counts as seen there
        rw [List.map_cons, List.nodup_cons]
        exact ⟨fun hmem => hseen n hmem (List.mem_cons_self ..), hnodup⟩
      · rw [List.map_cons, List.forall_mem_cons]
        exact ⟨hn, fun m hm hmem => hseen m hm (List.mem_cons_of_mem _ hmem)⟩
end

end Expressions

/-! ## Statements -/

section Statements

variable {ctx : Context} {env : Env} {Γ : Scope}

/-- A condition that passes its check is a truth value. -/
theorem Expr.checkCondition_typed (henv : env.Declares Γ) {e e' : Expr} (hblank : Blank e.slots)
    (h : (e.checkCondition ctx env).Ends e' ()) : e'.TypedCondition ctx.registry Γ := by
  obtain ⟨t, u, he, hbool⟩ := Expr.checkCondition_ends h
  exact ⟨t, Expr.synth_typed henv e hblank he, Registry.expand_of_expectBool hbool⟩

/-- A declaration that passes its check has a written type that passes its own, and an initial value
below it. -/
theorem VarDecl.check_typed (henv : env.Declares Γ) {span : Option Span} {d d' : VarDecl}
    (hempty : ∀ s ∈ Stmt.optionSlots d.init, s.Empty) (h : (d.check ctx env span).Ends d' ()) :
    d'.Typed ctx.registry Γ := by
  obtain ⟨hnew, hty, hinit⟩ := VarDecl.check_ends h
  have hnew := henv.lookup_eq_none hnew
  have hty := Registry.ne_inferred_of_expectValueType hty
  rcases hinit with ⟨hinit, rfl⟩ | ⟨e, e', t, hinit, he, hbelow, rfl⟩
  · refine ⟨hnew, hty, fun e he => ?_⟩
    rw [hinit] at he
    cases he
  · rw [hinit, Stmt.optionSlots, Stmt.empty_exprSlots] at hempty
    refine ⟨hnew, hty, fun e₁ he₁ => ?_⟩
    cases he₁
    exact ⟨t, Expr.synth_typed henv e hempty he, Registry.expectSubtype_eq_ok hbelow⟩

/-- An assignment obeys the rule for its target, a `var` variable or a place with a written type. -/
theorem StmtForm.assign_typed (henv : env.Declares Γ) {target value : Expr} {span : Option Span}
    {left : Env × StmtForm} (htarget : Blank target.slots) (hvalue : Blank value.slots)
    (h : ((StmtForm.assign target value).check ctx env span).Ends left ()) :
    left.2.Typed ctx Γ Γ ∧ left.1.Declares Γ := by
  obtain ⟨target', lt, value', rt, env', ht, hv, hstore, rfl⟩ := StmtForm.assign_ends h
  have htyped := Expr.synth_typed henv target htarget ht
  have hvtyped := Expr.synth_typed henv value hvalue hv
  rcases Expr.store_ends hstore with ⟨x, b, hx, hb, hinferred, rfl⟩ | ⟨rfl, hnot, hbelow⟩
  · have hvar : target'.IsVarVariable Γ := ⟨x, hx, hinferred ▸ henv.lookup_of_find? hb⟩
    exact ⟨.assignVar hvar htyped hvtyped, henv.store rt hb hinferred⟩
  · have hvar : ¬target'.IsVarVariable Γ := by
      rintro ⟨x, hx, hinferred⟩
      exact hnot x hx ((henv.declared x).trans hinferred)
    exact ⟨.assign hvar htyped ⟨rt, hvtyped, Registry.expectSubtype_eq_ok hbelow⟩, henv⟩

mutual
/-- A statement that passes its check obeys the rules afterwards, and the environment that is left
goes with the scope that is left. -/
theorem Stmt.check_typed : ∀ (s : Stmt) {env env' : Env} {Γ : Scope} {s' : Stmt}, env.Declares Γ →
    (∀ slot ∈ s.slots, slot.Empty) → (s.check ctx env).Ends (env', s') () →
      ∃ Γ', s'.Typed ctx Γ Γ' ∧ env'.Declares Γ'
  | ⟨form, span⟩, env, env', Γ, s', henv, hempty, h => by
    obtain ⟨form', hform, rfl⟩ := Stmt.check_ends h
    obtain ⟨Γ', htyped, hdeclares⟩ := StmtForm.check_typed form henv hempty hform
    exact ⟨Γ', .mk htyped, hdeclares⟩

/-- By cases on the statement. A statement that drops its scope goes on with the one it started
with. -/
theorem StmtForm.check_typed : ∀ (form : StmtForm) {span : Option Span} {env : Env} {Γ : Scope}
    {left : Env × StmtForm}, env.Declares Γ → (∀ slot ∈ Stmt.slotsForm form, slot.Empty) →
      (form.check ctx env span).Ends left () → ∃ Γ', left.2.Typed ctx Γ Γ' ∧ left.1.Declares Γ'
  | .assert e, span, env, Γ, left, henv, hempty, h => by
    rw [Stmt.slotsForm, Stmt.empty_exprSlots] at hempty
    obtain ⟨e', he, rfl⟩ := StmtForm.assert_ends h
    exact ⟨Γ, .assert (Expr.checkCondition_typed henv hempty he), henv⟩
  | .assign target value, span, env, Γ, left, henv, hempty, h => by
    rw [Stmt.slotsForm, List.forall_mem_append, Stmt.empty_exprSlots,
      Stmt.empty_exprSlots] at hempty
    exact ⟨Γ, StmtForm.assign_typed henv hempty.1 hempty.2 h⟩
  | .breakLoop, span, env, Γ, left, henv, hempty, h => by
    obtain ⟨rfl, -⟩ := Visit.ends_mk.1 h
    exact ⟨Γ, .breakLoop, henv⟩
  | .continueLoop, span, env, Γ, left, henv, hempty, h => by
    obtain ⟨rfl, -⟩ := Visit.ends_mk.1 h
    exact ⟨Γ, .continueLoop, henv⟩
  | .forLoop d condition step body, span, env, Γ, left, henv, hempty, h => by
    simp only [Stmt.slotsForm, List.forall_mem_append, Stmt.empty_exprSlots] at hempty
    obtain ⟨⟨⟨hinit, hcondition⟩, hstep⟩, hbody⟩ := hempty
    obtain ⟨d', condition', env₁, step', inner, hd, hkept, hcond, hs, hb, rfl⟩ :=
      StmtForm.forLoop_ends h
    have hput := henv.put d.name d.ty
    -- the check keeps the name and the written type of the declaration
    rw [← hkept.1, ← hkept.2] at hput hcond hs
    obtain ⟨Γ₁, hstyped, henv₁⟩ := Stmt.check_typed step hput hstep hs
    obtain ⟨Γ₂, hbtyped, -⟩ := Stmt.checkAll_typed body henv₁ hbody hb
    exact ⟨Γ, .forLoop (VarDecl.check_typed henv hinit hd)
      (Expr.checkCondition_typed hput hcondition hcond) hstyped hbtyped, henv⟩
  | .ifElse condition onTrue onFalse, span, env, Γ, left, henv, hempty, h => by
    simp only [Stmt.slotsForm, List.forall_mem_append, Stmt.empty_exprSlots] at hempty
    obtain ⟨⟨hcondition, htrue⟩, hfalse⟩ := hempty
    obtain ⟨condition', l, r, merged, hcond, hl, hr, hmerged, rfl⟩ := StmtForm.ifElse_ends h
    -- the scopes of both arms are dropped, as merging brings nothing new into scope
    obtain ⟨Γ₁, hltyped, -⟩ := Stmt.checkAll_typed onTrue henv htrue hl
    obtain ⟨Γ₂, hrtyped, -⟩ := Stmt.checkAll_typed onFalse henv hfalse hr
    exact ⟨Γ, .ifElse (Expr.checkCondition_typed henv hcondition hcond) hltyped hrtyped,
      henv.merge hmerged⟩
  | .call method args, span, env, Γ, left, henv, hempty, h => by
    rw [Stmt.slotsForm, Stmt.flatMap_exprSlots, List.forall_mem_map] at hempty
    obtain ⟨sig, args', hsig, hlen, hargs, rfl⟩ := StmtForm.call_ends h
    exact ⟨Γ, .call hsig (Expr.synthArgs_typed henv args hlen hempty hargs), henv⟩
  | .print e, span, env, Γ, left, henv, hempty, h => by
    rw [Stmt.slotsForm, Stmt.empty_exprSlots] at hempty
    obtain ⟨e', t, he, rfl⟩ := StmtForm.print_ends h
    exact ⟨Γ, .print (Expr.synth_typed henv e hempty he), henv⟩
  | .ret none, span, env, Γ, left, henv, hempty, h => by
    obtain ⟨hexpand, rfl⟩ := StmtForm.retVoid_ends h
    exact ⟨Γ, .retVoid (Registry.expand_eq_ok hexpand), henv⟩
  | .ret (some e), span, env, Γ, left, henv, hempty, h => by
    rw [Stmt.slotsForm, Stmt.optionSlots, Stmt.empty_exprSlots] at hempty
    obtain ⟨e', t, he, hbelow, rfl⟩ := StmtForm.ret_ends h
    exact ⟨Γ, .ret ⟨t, Expr.synth_typed henv e hempty he, Registry.expectSubtype_eq_ok hbelow⟩,
      henv⟩
  | .switchOn selector cases, span, env, Γ, left, henv, hempty, h => by
    rw [Stmt.slotsForm, List.forall_mem_append, Stmt.empty_exprSlots] at hempty
    obtain ⟨selector', t, env₁, cases', hsel, hcs, rfl⟩ := StmtForm.switchOn_ends h
    obtain ⟨Γ', htyped, henv₁⟩ := SwitchCase.checkAll_typed cases henv hempty.2 hcs
    exact ⟨Γ', .switchOn (Expr.synth_typed henv selector hempty.1 hsel) htyped, henv₁⟩
  | .matchType selector cases, span, env, Γ, left, henv, hempty, h => by
    rw [Stmt.slotsForm, List.forall_mem_append, Stmt.empty_exprSlots] at hempty
    obtain ⟨selector', t, cases', hsel, hcs, rfl⟩ := StmtForm.matchType_ends h
    exact ⟨Γ, .matchType (Expr.synth_typed henv selector hempty.1 hsel)
      (MatchCase.checkAll_typed cases henv hempty.2 hcs), henv⟩
  | .declare d, span, env, Γ, left, henv, hempty, h => by
    obtain ⟨d', hd, rfl⟩ := StmtForm.declare_ends h
    exact ⟨_, .declare (VarDecl.check_typed henv hempty hd), henv.put d'.name d'.ty⟩
  -- the scope lists the variable as `var`, and the certificate keeps its type in the cell
  | .infer x cell init, span, env, Γ, left, henv, hempty, h => by
    rw [Stmt.slotsForm, List.forall_mem_cons, Stmt.empty_exprSlots] at hempty
    obtain ⟨init', t, hnew, hinit, rfl⟩ := StmtForm.infer_ends h
    exact ⟨_, .infer (henv.lookup_eq_none hnew) (Expr.synth_typed henv init hempty.2 hinit),
      henv.insert x fun hne => absurd rfl hne⟩
  | .whileLoop condition body, span, env, Γ, left, henv, hempty, h => by
    rw [Stmt.slotsForm, List.forall_mem_append, Stmt.empty_exprSlots] at hempty
    obtain ⟨condition', env₁, body', hcond, hbody, rfl⟩ := StmtForm.whileLoop_ends h
    obtain ⟨Γ', htyped, henv₁⟩ := Stmt.checkAll_typed body henv hempty.2 hbody
    exact ⟨Γ', .whileLoop (Expr.checkCondition_typed henv hempty.1 hcond) htyped, henv₁⟩

/-- A fresh block that passes its check obeys the typing rules afterwards. -/
theorem Stmt.checkAll_typed : ∀ (ss : List Stmt) {env : Env} {Γ : Scope} {left : Env × List Stmt},
    env.Declares Γ → (∀ slot ∈ Stmt.slotsAll ss, slot.Empty) →
      (Stmt.checkAll ctx env ss).Ends left () →
        ∃ Γ', Stmt.TypedAll ctx Γ left.2 Γ' ∧ left.1.Declares Γ'
  | [], env, Γ, left, henv, hempty, h => by
    obtain ⟨rfl, -⟩ := Visit.ends_mk.1 h
    exact ⟨Γ, .nil, henv⟩
  | s :: ss, env, Γ, left, henv, hempty, h => by
    rw [Stmt.slotsAll, List.forall_mem_append] at hempty
    obtain ⟨env₁, s', env₂, rest, hs, hrest, rfl⟩ := Stmt.cons_ends h
    obtain ⟨Γ₁, htyped, henv₁⟩ := Stmt.check_typed s henv hempty.1 hs
    obtain ⟨Γ₂, htyped', henv₂⟩ := Stmt.checkAll_typed ss henv₁ hempty.2 hrest
    exact ⟨Γ₂, .cons htyped htyped', henv₂⟩

/-- The cases of a `switch` hand their scope on to each other. -/
theorem SwitchCase.checkAll_typed : ∀ (cs : List SwitchCase) {selector : Ty} {env : Env}
    {Γ : Scope} {left : Env × List SwitchCase}, env.Declares Γ →
      (∀ slot ∈ Stmt.slotsSwitch cs, slot.Empty) →
        (SwitchCase.checkAll ctx selector env cs).Ends left () →
          ∃ Γ', SwitchCase.TypedAll ctx selector Γ left.2 Γ' ∧ left.1.Declares Γ'
  | [], selector, env, Γ, left, henv, hempty, h => by
    obtain ⟨rfl, -⟩ := Visit.ends_mk.1 h
    exact ⟨Γ, .nil, henv⟩
  | ⟨value, body⟩ :: cs, selector, env, Γ, left, henv, hempty, h => by
    simp only [Stmt.slotsSwitch, List.forall_mem_append] at hempty
    obtain ⟨⟨hslots, hbodySlots⟩, hcsSlots⟩ := hempty
    obtain ⟨value', env₁, body', env₂, rest, hvalue, hbody, hrest, rfl⟩ := SwitchCase.cons_ends h
    obtain ⟨Γ₁, htyped, henv₁⟩ := Stmt.checkAll_typed body henv hbodySlots hbody
    obtain ⟨Γ₂, htyped', henv₂⟩ := SwitchCase.checkAll_typed cs henv₁ hcsSlots hrest
    refine ⟨Γ₂, .cons (fun e₁ he₁ => ?_) htyped htyped', henv₂⟩
    rcases hvalue with ⟨-, rfl⟩ | ⟨e, e', t, rfl, rfl, he, hbelow⟩
    · cases he₁
    · cases he₁
      rw [Stmt.optionSlots, Stmt.empty_exprSlots] at hslots
      exact ⟨t, Expr.synth_typed henv e hslots he, Registry.expectSubtype_eq_ok hbelow⟩

/-- The cases of a `match` each extend the scope of the statement by a variable of their own. -/
theorem MatchCase.checkAll_typed : ∀ (cs : List MatchCase) {selector : Ty} {span : Option Span}
    {env : Env} {Γ : Scope} {cs' : List MatchCase}, env.Declares Γ →
      (∀ slot ∈ Stmt.slotsMatch cs, slot.Empty) →
        (MatchCase.checkAll ctx selector span env cs).Ends cs' () →
          MatchCase.TypedAll ctx selector Γ cs'
  | [], selector, span, env, Γ, cs', henv, hempty, h => by
    obtain ⟨rfl, -⟩ := Visit.ends_mk.1 h
    exact .nil
  | ⟨t, x, body, caseSpan⟩ :: cs, selector, span, env, Γ, cs', henv, hempty, h => by
    rw [Stmt.slotsMatch, List.forall_mem_append] at hempty
    obtain ⟨env₁, body', rest, ht, hbelow, hbody, hrest, rfl⟩ := MatchCase.cons_ends h
    obtain ⟨Γ₁, htyped, -⟩ := Stmt.checkAll_typed body (henv.put x t) hempty.1 hbody
    exact .cons (Registry.ne_inferred_of_expectValueType ht) (Registry.expectSubtype_eq_ok hbelow)
      htyped (MatchCase.checkAll_typed cs henv hempty.2 hrest)
end

end Statements

/-! ## Accepted files -/

/-- The scope of a method body. -/
def MethodDecl.scope (d : MethodDecl) : Scope := (d.params.map fun p => (p.name, p.ty)).reverse

/-- Parameters make up the scope of a method, the last first. -/
theorem Parameter.declares_bindAll {reg : Registry} {span : Option Span} {env env' : Env}
    {Γ : Scope} {ps : List Parameter} (henv : env.Declares Γ)
    (h : Parameter.bindAll reg span env ps = .ok env') :
    env'.Declares ((ps.map fun p => (p.name, p.ty)).reverse ++ Γ) ∧ ∀ p ∈ ps, p.ty ≠ .inferred := by
  induction ps generalizing env Γ with
  | nil =>
    cases h
    exact ⟨henv, fun p hp => absurd hp List.not_mem_nil⟩
  | cons p ps ih =>
    simp only [Parameter.bindAll, bind_eq_ok] at h
    obtain ⟨⟨⟩, hty, h⟩ := h
    split at h
    · cases h
    · obtain ⟨hdeclares, hps⟩ := ih (henv.put p.name p.ty) h
      rw [List.map_cons, List.reverse_cons, List.append_assoc, List.singleton_append]
      exact ⟨hdeclares,
        List.forall_mem_cons.2 ⟨Registry.ne_inferred_of_expectValueType hty, hps⟩⟩

/-- The tree that an accepted file is left as obeys the typing rules. Apart from its types, it is
the tree of the file. -/
theorem File.accepted_obeys_rules {f : File} (hfresh : f.Fresh)
    (haccepted : f.check.value.2 = .ok ()) :
    f.check.value.1.bare = f.bare ∧
      ∀ d ∈ f.check.value.1.methodDecls, (∀ p ∈ d.params, p.ty ≠ .inferred) ∧
        ∃ Γ, Stmt.TypedAll ⟨.ofFile f, d.ret⟩ d.scope d.body Γ := by
  obtain ⟨reg, hbuild, hpasses⟩ := File.check_eq_ok haccepted
  have hmethods := File.checked_methods hbuild hpasses
  obtain ⟨rfl, -⟩ := Registry.build_ok hbuild
  refine ⟨File.bare_check f, fun d' hd' => ?_⟩
  obtain ⟨d, hd, env, left, henv, hbody, rfl⟩ := hmethods d' hd'
  have hempty : ({} : Env).Declares [] :=
    ⟨fun _ => rfl, fun x b hb => by cases hb⟩
  obtain ⟨hdeclares, hparams⟩ := Parameter.declares_bindAll hempty henv
  rw [List.append_nil] at hdeclares
  obtain ⟨Γ, htyped, -⟩ :=
    Stmt.checkAll_typed d.body hdeclares (hfresh _ (File.mem_methodDecls.1 hd)) hbody
  exact ⟨hparams, Γ, htyped⟩

/-! ## A method with all kinds of variables -/

/-- A body whose `match` case shadows a parameter, and whose `while` loop declares a variable that
is assigned to after the loop. -/
def tallyBody : List Stmt :=
  let total : Expr := { form := .var "total" }
  let one : Expr := { form := .constant (.int 1) }
  [{ form := .declare ⟨"total", .int, some { form := .constant (.int 0) }⟩ },
    { form := .matchType { form := .var "v" }
        [{ ty := .int, name := "v", body :=
            [{ form := .assign total { form := .binary .add total { form := .var "v" } } }] },
          { ty := .bool, name := "b", body := [{ form := .assert { form := .var "b" } }] }] },
    { form := .forLoop ⟨"i", .int, some one⟩
        { form := .binary .lt { form := .var "i" } { form := .var "n" } }
        { form := .assign { form := .var "i" } { form := .binary .add { form := .var "i" } one } }
        [{ form := .assign total { form := .call "next" [{ form := .var "i" }] } }] },
    { form := .whileLoop { form := .binary .lt { form := .var "n" } total }
        [{ form := .infer "last" .inferred total }] },
    { form := .assign { form := .var "last" } { form := .constant (.bool true) } },
    { form := .switchOn total
        [{ value := some one, body := [{ form := .call "show" [total] }] },
          { value := none, body := [] }] },
    { form := .ret (some total) }]

/-- The method with that body, and the two methods it calls. -/
def tallyFile : File where
  decls :=
    [.alias { name := "Count", ty := .int },
      .method
        { name := "tally"
          params := [{ name := "v", ty := .union [.int, .bool] }, { name := "n", ty := .int }]
          ret := .named "Count"
          body := tallyBody },
      .method
        { name := "next"
          params := [{ name := "k", ty := .named "Count" }]
          ret := .int
          body := [{ form := .ret (some { form := .var "k" }) }] },
      .method
        { name := "show"
          params := [{ name := "k", ty := .int }]
          ret := .void
          body := [{ form := .print { form := .var "k" } }, { form := .ret none }] }]

/-- The file is accepted, and all of its methods have a certificate. -/
theorem File.accepted_obeys_rules_tally :
    (tallyFile.Fresh ∧ tallyFile.check.value.2 = .ok ()) ∧
      tallyFile.check.value.1.methodDecls.map MethodDecl.name = ["tally", "next", "show"] ∧
      ∀ d ∈ tallyFile.check.value.1.methodDecls,
        ∃ Γ, Stmt.TypedAll ⟨.ofFile tallyFile, d.ret⟩ d.scope d.body Γ := by
  have hfresh : tallyFile.Fresh := by decide +kernel
  have haccepted : tallyFile.check.value.2 = .ok () := by decide +kernel
  obtain ⟨-, hmethods⟩ := File.accepted_obeys_rules hfresh haccepted
  exact ⟨⟨hfresh, haccepted⟩, by decide +kernel, fun d hd => (hmethods d hd).2⟩

end WhileTyping
