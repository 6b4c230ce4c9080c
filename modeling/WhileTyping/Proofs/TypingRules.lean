import WhileTyping.Expr.Typing
import WhileTyping.Proofs.Success
import WhileTyping.Stmt.Typing

/-!
# Typing rules

The types on a finished tree can be read without running a check. This module states the rules that
they obey, node by node: each rule speaks of one node, the types on its operands, and the variables
declared around it.

* **`Scope`**: the variables in scope with the types they are declared with.
* **`Expr.Typed`**: an expression has a type on every node, and each follows from those below it.
* **`Stmt.Typed`**: a statement and the scopes before and after it.

The rules mention no environment: of a `var` variable they say only that it is in scope. The second
part of the module inverts the functions on types that a check goes through.
-/

namespace WhileTyping

/-- The variables in scope, the newest first, each with its declared type. For a `var` variable that
is `inferred`. -/
abbrev Scope := List (String × Ty)

/-! ## Expressions -/

/-- What an operator makes of operands of the types `l` and `r`. -/
inductive BinaryOp.Rule (reg : Registry) (l r : Ty) : BinaryOp → Ty → Prop where
  | logical {op : BinaryOp} : op ∈ [.and, .or] → reg.expand l none = .ok .bool →
      reg.expand r none = .ok .bool → Rule reg l r op .bool
  | arithmetic {op : BinaryOp} : op ∈ [.add, .sub, .mul, .div, .rem] →
      reg.expand l none = .ok .int → reg.expand r none = .ok .int → Rule reg l r op .int
  | equality {op : BinaryOp} : op ∈ [.eq, .ne] → Rule reg l r op .bool
  | order {op : BinaryOp} : op ∈ [.lt, .le, .gt, .ge] → reg.expand l none = .ok .int →
      reg.expand r none = .ok .int → Rule reg l r op .bool

/-- The types that an operator takes and gives. -/
inductive UnaryOp.Rule (reg : Registry) (t : Ty) : UnaryOp → Ty → Prop where
  | neg : reg.expand t none = .ok .int → Rule reg t .neg .int
  | not : reg.expand t none = .ok .bool → Rule reg t .not .bool
  | length_array {element : Ty} : reg.expand t none = .ok (.array element) → Rule reg t .length .int
  | length_string : reg.expand t none = .ok .string → Rule reg t .length .int

/-- What is found at a position in a value of the type `source`. -/
inductive Registry.Element (reg : Registry) (source : Ty) : Ty → Prop where
  | array {element : Ty} :
      reg.expand source none = .ok (.array element) → Element reg source element
  | string : reg.expand source none = .ok .string → Element reg source .char

mutual
/-- Every node of the expression has a type, which follows from the types of its operands. -/
inductive Expr.Typed (reg : Registry) (Γ : Scope) : Expr → Ty → Prop where
  | node {form : ExprForm} {span : Option Span} {t : Ty} :
      ExprForm.Typed reg Γ form t → Expr.Typed reg Γ ⟨form, span, some t⟩ t

inductive ExprForm.Typed (reg : Registry) (Γ : Scope) : ExprForm → Ty → Prop where
  | binary {op : BinaryOp} {l r : Expr} {lt rt t : Ty} : Expr.Typed reg Γ l lt →
      Expr.Typed reg Γ r rt → op.Rule reg lt rt t → ExprForm.Typed reg Γ (.binary op l r) t
  | constant {v : Value} {span : Option Span} {t : Ty} : (v.typeOf reg span).result = .ok t →
      ExprForm.Typed reg Γ (.constant v) t
  | index {source position : Expr} {st pt t : Ty} : Expr.Typed reg Γ source st →
      Expr.Typed reg Γ position pt → reg.expand pt none = .ok .int → reg.Element st t →
      ExprForm.Typed reg Γ (.index source position) t
  /-- A call that is used as a value. -/
  | call {method : String} {args : List Expr} {sig : Signature} : reg.method? method = some sig →
      Expr.TypedArgs reg Γ args sig.params → sig.ret.hasVoid = false →
      ExprForm.Typed reg Γ (.call method args) sig.ret
  | fill {value size : Expr} {t st : Ty} : Expr.Typed reg Γ value t → Expr.Typed reg Γ size st →
      reg.expand st none = .ok .int → ExprForm.Typed reg Γ (.fill value size) (.array t)
  | array {items : List Expr} {ts : List Ty} {span : Option Span} {bound : Ty} :
      Expr.TypedAll reg Γ items ts → (reg.leastUpperBound ts span).result = .ok bound →
      ExprForm.Typed reg Γ (.array items) (.array bound)
  | field {source : Expr} {name : String} {sourceSpan span : Option Span} {st t : Ty} :
      Expr.Typed reg Γ source st → (reg.fieldType st sourceSpan name span).result = .ok t →
      ExprForm.Typed reg Γ (.field source name) t
  | record {fields : List FieldInit} {fs : List Field} : FieldInit.TypedAll reg Γ fields fs →
      (fs.map Field.name).Nodup → ExprForm.Typed reg Γ (.record fields) (.record fs)
  | unary {op : UnaryOp} {operand : Expr} {u t : Ty} : Expr.Typed reg Γ operand u →
      op.Rule reg u t → ExprForm.Typed reg Γ (.unary op operand) t
  /-- A variable with a written type is used at this type. -/
  | var {x : String} {declared t : Ty} : Γ.lookup x = some declared →
      (declared ≠ .inferred → t = declared) → ExprForm.Typed reg Γ (.var x) t

inductive Expr.TypedAll (reg : Registry) (Γ : Scope) : List Expr → List Ty → Prop where
  | nil : Expr.TypedAll reg Γ [] []
  | cons {e : Expr} {es : List Expr} {t : Ty} {ts : List Ty} : Expr.Typed reg Γ e t →
      Expr.TypedAll reg Γ es ts → Expr.TypedAll reg Γ (e :: es) (t :: ts)

/-- Arguments for parameters of the given types: as many, and each of a type below. -/
inductive Expr.TypedArgs (reg : Registry) (Γ : Scope) : List Expr → List Ty → Prop where
  | nil : Expr.TypedArgs reg Γ [] []
  | cons {e : Expr} {es : List Expr} {t p : Ty} {ps : List Ty} : Expr.Typed reg Γ e t →
      reg.isSubtype p t = .ok true → Expr.TypedArgs reg Γ es ps →
      Expr.TypedArgs reg Γ (e :: es) (p :: ps)

inductive FieldInit.TypedAll (reg : Registry) (Γ : Scope) : List FieldInit → List Field → Prop where
  | nil : FieldInit.TypedAll reg Γ [] []
  | cons {n : String} {e : Expr} {fs : List FieldInit} {t : Ty} {ts : List Field} :
      Expr.Typed reg Γ e t → FieldInit.TypedAll reg Γ fs ts →
      FieldInit.TypedAll reg Γ (⟨n, e⟩ :: fs) (⟨n, t⟩ :: ts)
end

/-! ## Statements -/

/-- The type of a condition is `bool`, if need be after expansion. -/
def Expr.TypedCondition (reg : Registry) (Γ : Scope) (e : Expr) : Prop :=
  ∃ t, e.Typed reg Γ t ∧ reg.expand t none = .ok .bool

/-- The expression has a type below the given one. -/
def Expr.TypedBelow (reg : Registry) (Γ : Scope) (sup : Ty) (e : Expr) : Prop :=
  ∃ t, e.Typed reg Γ t ∧ reg.isSubtype sup t = .ok true

/-- A declaration with a written type, of a name that is not in scope. -/
structure VarDecl.Typed (reg : Registry) (Γ : Scope) (d : VarDecl) : Prop where
  new : Γ.lookup d.name = none
  ne_inferred : d.ty ≠ .inferred
  init : ∀ e, d.init = some e → e.TypedBelow reg Γ d.ty

/-- Whether the expression is a variable that was declared by `var`. -/
def Expr.IsVarVariable (Γ : Scope) (e : Expr) : Prop :=
  ∃ x, e.form = .var x ∧ Γ.lookup x = some .inferred

mutual
/-- A statement that stands in the first scope and leaves the second one for what follows it. -/
inductive Stmt.Typed (ctx : Context) : Scope → Stmt → Scope → Prop where
  | mk {Γ Γ' : Scope} {form : StmtForm} {span : Option Span} : StmtForm.Typed ctx Γ form Γ' →
      Stmt.Typed ctx Γ ⟨form, span⟩ Γ'

inductive StmtForm.Typed (ctx : Context) : Scope → StmtForm → Scope → Prop where
  | assert {Γ : Scope} {e : Expr} : e.TypedCondition ctx.registry Γ →
      StmtForm.Typed ctx Γ (.assert e) Γ
  /-- An assignment to a `var` variable, which takes any value. -/
  | assignVar {Γ : Scope} {target value : Expr} {lt rt : Ty} : target.IsVarVariable Γ →
      target.Typed ctx.registry Γ lt → value.Typed ctx.registry Γ rt →
      StmtForm.Typed ctx Γ (.assign target value) Γ
  | assign {Γ : Scope} {target value : Expr} {lt : Ty} : ¬target.IsVarVariable Γ →
      target.Typed ctx.registry Γ lt → value.TypedBelow ctx.registry Γ lt →
      StmtForm.Typed ctx Γ (.assign target value) Γ
  | breakLoop {Γ : Scope} : StmtForm.Typed ctx Γ .breakLoop Γ
  | continueLoop {Γ : Scope} : StmtForm.Typed ctx Γ .continueLoop Γ
  /-- The loop variable is in scope in the loop only, and so is what its parts declare. -/
  | forLoop {Γ Γ₁ Γ₂ : Scope} {d : VarDecl} {condition : Expr} {step : Stmt} {body : List Stmt} :
      d.Typed ctx.registry Γ → condition.TypedCondition ctx.registry ((d.name, d.ty) :: Γ) →
      Stmt.Typed ctx ((d.name, d.ty) :: Γ) step Γ₁ → Stmt.TypedAll ctx Γ₁ body Γ₂ →
      StmtForm.Typed ctx Γ (.forLoop d condition step body) Γ
  | ifElse {Γ Γ₁ Γ₂ : Scope} {condition : Expr} {onTrue onFalse : List Stmt} :
      condition.TypedCondition ctx.registry Γ → Stmt.TypedAll ctx Γ onTrue Γ₁ →
      Stmt.TypedAll ctx Γ onFalse Γ₂ → StmtForm.Typed ctx Γ (.ifElse condition onTrue onFalse) Γ
  | call {Γ : Scope} {method : String} {args : List Expr} {sig : Signature} :
      ctx.registry.method? method = some sig → Expr.TypedArgs ctx.registry Γ args sig.params →
      StmtForm.Typed ctx Γ (.call method args) Γ
  | print {Γ : Scope} {e : Expr} {t : Ty} : e.Typed ctx.registry Γ t →
      StmtForm.Typed ctx Γ (.print e) Γ
  | ret {Γ : Scope} {e : Expr} : e.TypedBelow ctx.registry Γ ctx.ret →
      StmtForm.Typed ctx Γ (.ret (some e)) Γ
  | retVoid {Γ : Scope} : ctx.registry.expand ctx.ret none = .ok .void →
      StmtForm.Typed ctx Γ (.ret none) Γ
  | switchOn {Γ Γ' : Scope} {selector : Expr} {cases : List SwitchCase} {t : Ty} :
      selector.Typed ctx.registry Γ t → SwitchCase.TypedAll ctx t Γ cases Γ' →
      StmtForm.Typed ctx Γ (.switchOn selector cases) Γ'
  | matchType {Γ : Scope} {selector : Expr} {cases : List MatchCase} {t : Ty} :
      selector.Typed ctx.registry Γ t → MatchCase.TypedAll ctx t Γ cases →
      StmtForm.Typed ctx Γ (.matchType selector cases) Γ
  | declare {Γ : Scope} {d : VarDecl} : d.Typed ctx.registry Γ →
      StmtForm.Typed ctx Γ (.declare d) ((d.name, d.ty) :: Γ)
  /-- The cell of a `var` declaration holds the type of the initial value. -/
  | infer {Γ : Scope} {x : String} {t : Ty} {init : Expr} : Γ.lookup x = none →
      init.Typed ctx.registry Γ t → StmtForm.Typed ctx Γ (.infer x t init) ((x, .inferred) :: Γ)
  /-- What the body of a `while` loop declares stays in scope. -/
  | whileLoop {Γ Γ' : Scope} {condition : Expr} {body : List Stmt} :
      condition.TypedCondition ctx.registry Γ → Stmt.TypedAll ctx Γ body Γ' →
      StmtForm.Typed ctx Γ (.whileLoop condition body) Γ'

inductive Stmt.TypedAll (ctx : Context) : Scope → List Stmt → Scope → Prop where
  | nil {Γ : Scope} : Stmt.TypedAll ctx Γ [] Γ
  | cons {Γ Γ₁ Γ₂ : Scope} {s : Stmt} {ss : List Stmt} : Stmt.Typed ctx Γ s Γ₁ →
      Stmt.TypedAll ctx Γ₁ ss Γ₂ → Stmt.TypedAll ctx Γ (s :: ss) Γ₂

/-- The cases of a `switch` share the scope around it, each with what those before it declare. -/
inductive SwitchCase.TypedAll (ctx : Context) : Ty → Scope → List SwitchCase → Scope → Prop where
  | nil {selector : Ty} {Γ : Scope} : SwitchCase.TypedAll ctx selector Γ [] Γ
  | cons {selector : Ty} {Γ Γ₁ Γ₂ : Scope} {value : Option Expr} {body : List Stmt}
      {cs : List SwitchCase} : (∀ e, value = some e → e.TypedBelow ctx.registry Γ selector) →
      Stmt.TypedAll ctx Γ body Γ₁ → SwitchCase.TypedAll ctx selector Γ₁ cs Γ₂ →
      SwitchCase.TypedAll ctx selector Γ (⟨value, body⟩ :: cs) Γ₂

/-- A case of a `match` has its variable in scope, in the place of one of that name. -/
inductive MatchCase.TypedAll (ctx : Context) : Ty → Scope → List MatchCase → Prop where
  | nil {selector : Ty} {Γ : Scope} : MatchCase.TypedAll ctx selector Γ []
  | cons {selector t : Ty} {Γ Γ₁ : Scope} {x : String} {body : List Stmt} {span : Option Span}
      {cs : List MatchCase} : t ≠ .inferred → ctx.registry.isSubtype selector t = .ok true →
      Stmt.TypedAll ctx ((x, t) :: Γ) body Γ₁ → MatchCase.TypedAll ctx selector Γ cs →
      MatchCase.TypedAll ctx selector Γ (⟨t, x, body, span⟩ :: cs)
end

/-! ## Inversion -/

namespace Registry

variable {reg : Registry}

/-- The span is of no account for an expansion that succeeds. -/
theorem expand_eq_ok {t u : Ty} {span : Option Span} (h : reg.expand t span = .ok u) :
    reg.expand t none = .ok u := by
  rw [expand, mapError_eq_ok] at h ⊢
  exact h

/-- A type that is accepted is a subtype. -/
theorem expectSubtype_eq_ok {sup sub : Ty} {span : Option Span}
    (h : reg.expectSubtype sup sub span = .ok ()) : reg.isSubtype sup sub = .ok true := by
  simp only [expectSubtype, bind_eq_ok, located_eq_ok] at h
  obtain ⟨below, hbelow, h⟩ := h
  cases below with
  | true => exact hbelow
  | false => cases h

theorem ne_inferred_of_expectValueType {t : Ty} {span : Option Span}
    (h : reg.expectValueType t span = .ok ()) : t ≠ .inferred := by
  rintro rfl
  simp only [expectValueType, wellFormed, bind_eq_ok, mapError_eq_ok] at h
  obtain ⟨_, h, -⟩ := h
  cases h

/-- A type that is accepted where `void` is not has none in it. -/
theorem hasVoid_of_expectNoVoid {t : Ty} {span : Option Span} (h : t.expectNoVoid span = .ok ()) :
    t.hasVoid = false := by
  rw [Ty.expectNoVoid] at h
  split at h
  · cases h
  · rename_i hvoid
    simpa using hvoid

/-- A type of the expected kind expands to one. -/
theorem expectKind_eq_ok {t u : Ty} {kinds : KindSet} {span : Option Span}
    (h : reg.expectKind t kinds span = .ok u) :
    reg.expand t none = .ok u ∧ kinds.accepts u = true := by
  simp only [expectKind, bind_eq_ok] at h
  obtain ⟨expanded, hexpand, h⟩ := h
  split at h
  · rename_i haccepts
    cases h
    exact ⟨expand_eq_ok hexpand, haccepts⟩
  · cases h

/-- If the kind is that of truth values, the type expands to `bool`. -/
theorem expand_of_expectBool {t u : Ty} {span : Option Span}
    (h : reg.expectKind t (.single .bool) span = .ok u) : reg.expand t none = .ok .bool := by
  obtain ⟨hexpand, haccepts⟩ := expectKind_eq_ok h
  cases u with
  | bool => exact hexpand
  | _ => cases haccepts

/-- If it is that of numbers, the type expands to `int`. -/
theorem expand_of_expectInt {t u : Ty} {span : Option Span}
    (h : reg.expectKind t (.single .int) span = .ok u) : reg.expand t none = .ok .int := by
  obtain ⟨hexpand, haccepts⟩ := expectKind_eq_ok h
  cases u with
  | int => exact hexpand
  | _ => cases haccepts

/-- An element type that is found obeys the rule, as does the position. -/
theorem element_of_elementType {source position t : Ty}
    {sourceSpan positionSpan span : Option Span}
    (h : reg.elementType source position sourceSpan positionSpan span = .ok t) :
    reg.expand position none = .ok .int ∧ reg.Element source t := by
  simp only [elementType, bind_eq_ok, discard_eq_ok] at h
  obtain ⟨_, ⟨_, hposition⟩, u, hsource, h⟩ := h
  obtain ⟨hexpand, -⟩ := expectKind_eq_ok hsource
  refine ⟨expand_of_expectInt hposition, ?_⟩
  split at h
  · cases h
    exact .array hexpand
  · cases h
    exact .string hexpand
  · cases h

/-- Both operands are of the expected kind. -/
theorem expectOperands_eq_ok {kind : Kind} {l r : Ty} {lspan rspan : Option Span}
    (h : reg.expectOperands kind l r lspan rspan = .ok ()) :
    (∃ u, reg.expectKind l (.single kind) lspan = .ok u) ∧
      ∃ u, reg.expectKind r (.single kind) rspan = .ok u := by
  simp only [expectOperands, bind_eq_ok, discard_eq_ok] at h
  obtain ⟨_, hl, hr⟩ := h
  exact ⟨hl, hr⟩

end Registry

/-- An operator that gives a type obeys its rule. -/
theorem BinaryOp.rule_of_resultType {op : BinaryOp} {reg : Registry} {l r t : Ty}
    {lspan rspan : Option Span} (h : op.resultType reg l r lspan rspan = .ok t) :
    op.Rule reg l r t := by
  cases op with
  | and | or =>
    simp only [resultType, bind_eq_ok, pure_eq_ok] at h
    obtain ⟨⟨⟩, hoperands, rfl⟩ := h
    obtain ⟨⟨_, hl⟩, _, hr⟩ := Registry.expectOperands_eq_ok hoperands
    exact .logical (by decide) (Registry.expand_of_expectBool hl) (Registry.expand_of_expectBool hr)
  | add | sub | mul | div | rem =>
    simp only [resultType, bind_eq_ok, pure_eq_ok] at h
    obtain ⟨⟨⟩, hoperands, rfl⟩ := h
    obtain ⟨⟨_, hl⟩, _, hr⟩ := Registry.expectOperands_eq_ok hoperands
    exact .arithmetic (by decide) (Registry.expand_of_expectInt hl)
      (Registry.expand_of_expectInt hr)
  -- anything can be compared for equality
  | eq | ne =>
    cases h
    exact .equality (by decide)
  | lt | le | gt | ge =>
    simp only [resultType, bind_eq_ok, pure_eq_ok] at h
    obtain ⟨⟨⟩, hoperands, rfl⟩ := h
    obtain ⟨⟨_, hl⟩, _, hr⟩ := Registry.expectOperands_eq_ok hoperands
    exact .order (by decide) (Registry.expand_of_expectInt hl) (Registry.expand_of_expectInt hr)

/-- The same for one operand. -/
theorem UnaryOp.rule_of_resultType {op : UnaryOp} {reg : Registry} {t u : Ty}
    {span : Option Span} (h : op.resultType reg t span = .ok u) : op.Rule reg t u := by
  cases op with
  | neg =>
    simp only [resultType, bind_eq_ok, discard_eq_ok, pure_eq_ok] at h
    obtain ⟨_, ⟨_, ht⟩, rfl⟩ := h
    exact .neg (Registry.expand_of_expectInt ht)
  | not =>
    simp only [resultType, bind_eq_ok, discard_eq_ok, pure_eq_ok] at h
    obtain ⟨_, ⟨_, ht⟩, rfl⟩ := h
    exact .not (Registry.expand_of_expectBool ht)
  -- the operand is a sequence, which is an array or a string
  | length =>
    simp only [resultType, bind_eq_ok, discard_eq_ok, pure_eq_ok] at h
    obtain ⟨_, ⟨v, ht⟩, rfl⟩ := h
    obtain ⟨hexpand, haccepts⟩ := Registry.expectKind_eq_ok ht
    cases v with
    | array element => exact .length_array hexpand
    | string => exact .length_string hexpand
    | _ => cases haccepts

end WhileTyping
