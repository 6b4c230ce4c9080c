import WhileTyping.Env
import WhileTyping.Expr.Basic
import WhileTyping.Registry.WrittenType
import WhileTyping.Subtyping.CommonFields
import WhileTyping.Value.Typing

/-!
# Types of expressions

`Expr.synth` finds the type of an expression from the types of its operands and records it in the
type slot of the node. A node whose slot is full has that type and is not looked at again. What is
left behind is the expression with the slots filled so far: also when a node fails, the operands
typed before the failure keep their types.

The rules that only look at types come first, one for each form of expression.
-/

namespace WhileTyping

/-! ## Rules on types -/

/-- Both operands have the given kind. -/
def Registry.expectOperands (reg : Registry) (kind : Kind) (lt rt : Ty)
    (lspan rspan : Option Span) : Except TypeError Unit := do
  discard <| reg.expectKind lt (.single kind) lspan
  discard <| reg.expectKind rt (.single kind) rspan

/-- The type of a binary operation. Any two values may be compared for equality. -/
def BinaryOp.resultType (op : BinaryOp) (reg : Registry) (lt rt : Ty) (lspan rspan : Option Span) :
    Except TypeError Ty :=
  match op with
  | .and | .or => do
    reg.expectOperands .bool lt rt lspan rspan
    return .bool
  | .add | .sub | .mul | .div | .rem => do
    reg.expectOperands .int lt rt lspan rspan
    return .int
  | .eq | .ne => return .bool
  | .lt | .le | .gt | .ge => do
    reg.expectOperands .int lt rt lspan rspan
    return .bool

def UnaryOp.resultType (op : UnaryOp) (reg : Registry) (t : Ty) (span : Option Span) :
    Except TypeError Ty :=
  match op with
  | .neg => do
    discard <| reg.expectKind t (.single .int) span
    return .int
  | .not => do
    discard <| reg.expectKind t (.single .bool) span
    return .bool
  | .length => do
    discard <| reg.expectKind t .sequence span
    return .int

namespace Registry

/-- The type of an element of an array or a string. The position is looked at first. -/
def elementType (reg : Registry) (source position : Ty) (sourceSpan positionSpan : Option Span)
    (span : Option Span) : Except TypeError Ty := do
  discard <| reg.expectKind position (.single .int) positionSpan
  match ← reg.expectKind source .sequence sourceSpan with
  | .array e => return e
  | .string => return .char
  | other =>
    .error ⟨.malformedTree
      ("indexed value of type " ++ other.render ++ " passed the sequence check"), span⟩

/-- The type in which a field of a value is looked up: the record of the common fields if the value
is a union of records, and otherwise the type of the value itself, expanded. -/
def accessTarget (reg : Registry) (source : Ty) (field : String) (span : Option Span) :
    Check Ty := do
  match ← reg.expand source span with
  | .union ts =>
    match ← reg.recordsOf? span ts with
    | some records =>
      Check.report (.unionAccessed field source)
      match ← reg.commonRecord records span with
      | some record => return record
      | none => .fail ⟨.unknownField field source, span⟩
    | none => return .union ts
  | expanded => return expanded

/-- The type of a field of a value. -/
def fieldType (reg : Registry) (source : Ty) (sourceSpan : Option Span) (field : String)
    (span : Option Span) : Check Ty := do
  let target ← reg.accessTarget source field span
  let record ← reg.expectKind target (.single .record) sourceSpan
  match record.field? field with
  | some t => return t
  | none => .fail ⟨.unknownField field source, span⟩

end Registry

/-- Checks a call whose arguments are visited against the types of the parameters. The number of
arguments is looked at before any argument. Where a value is required, the method must not return
`void`. -/
def checkCall (reg : Registry) (method : String) (args : List Expr) (span : Option Span)
    (valueRequired : Bool) (visitArgs : List Ty → Visit (List Expr) Unit) : Visit (List Expr) Ty :=
  match reg.method? method with
  | none => ⟨args, .fail ⟨.unknownMethod method, span⟩⟩
  | some sig =>
    if args.length = sig.params.length then
      (visitArgs sig.params).andThen id fun args () =>
        ⟨args, do
          if valueRequired then sig.ret.expectNoVoid span
          return sig.ret⟩
    else ⟨args, .fail ⟨.arityMismatch method sig.params.length args.length, span⟩⟩

/-! ## Expressions -/

mutual
def Expr.synth (reg : Registry) (env : Env) : Expr → Visit Expr Ty
  | ⟨form, span, some t⟩ => ⟨⟨form, span, some t⟩, return t⟩
  | ⟨form, span, none⟩ =>
    (form.synth reg env span).andThen (fun form => ⟨form, span, none⟩) fun form t =>
      ⟨⟨form, span, some t⟩, return t⟩

/-- The type of a node of that form with the given span. -/
def ExprForm.synth (reg : Registry) (env : Env) (span : Option Span) :
    ExprForm → Visit ExprForm Ty
  | .binary op l r =>
    (l.synth reg env).andThen (fun l => .binary op l r) fun l lt =>
      (r.synth reg env).andThen (fun r => .binary op l r) fun r rt =>
        ⟨.binary op l r, op.resultType reg lt rt l.span r.span⟩
  | .constant v => ⟨.constant v, v.typeOf reg span⟩
  | .index source position =>
    (source.synth reg env).andThen (fun source => .index source position) fun source st =>
      (position.synth reg env).andThen (fun position => .index source position) fun position pt =>
        ⟨.index source position, reg.elementType st pt source.span position.span span⟩
  | .call method args =>
    -- a call used as a value must not return `void`
    (checkCall reg method args span true
      fun params => Expr.synthArgs reg env span params args).within (.call method)
  -- the value is looked at before the size, so its errors come first
  | .fill value size =>
    (value.synth reg env).andThen (fun value => .fill value size) fun value t =>
      (size.synth reg env).andThen (fun size => .fill value size) fun size st =>
        ⟨.fill value size, do
          discard <| reg.expectKind st (.single .int) size.span
          return .array t⟩
  | .array items =>
    (Expr.synthAll reg env items).andThen .array fun items ts =>
      ⟨.array items, do
        let bound ← reg.leastUpperBound ts span
        return .array bound⟩
  | .field source name =>
    (source.synth reg env).andThen (fun source => .field source name) fun source st =>
      ⟨.field source name, reg.fieldType st source.span name span⟩
  | .record fields =>
    (FieldInit.synthAll reg env span [] fields).andThen .record fun fields fs =>
      ⟨.record fields, return .record fs⟩
  | .unary op operand =>
    (operand.synth reg env).andThen (fun operand => .unary op operand) fun operand t =>
      ⟨.unary op operand, op.resultType reg t operand.span⟩
  | .var x =>
    ⟨.var x, match env.current? x with
      | some t => return t
      | none => .fail ⟨.undeclaredVariable x, span⟩⟩

/-- The types of some expressions, from left to right. -/
def Expr.synthAll (reg : Registry) (env : Env) : List Expr → Visit (List Expr) (List Ty)
  | [] => ⟨[], return []⟩
  | e :: es =>
    (e.synth reg env).andThen (fun e => e :: es) fun e t =>
      (Expr.synthAll reg env es).andThen (fun es => e :: es) fun es ts =>
        ⟨e :: es, return t :: ts⟩

/-- Checks arguments against the types of parameters, from left to right. An argument without a
span is reported at the span of the call. -/
def Expr.synthArgs (reg : Registry) (env : Env) (span : Option Span) (params : List Ty) :
    List Expr → Visit (List Expr) Unit
  | [] => ⟨[], return ()⟩
  | e :: es =>
    match params with
    | [] => ⟨e :: es, return ()⟩
    | p :: ps =>
      (e.synth reg env).andThen (fun e => e :: es) fun e t =>
        Visit.after (reg.expectSubtype p t (e.span.or span)) (e :: es) fun () =>
          (Expr.synthArgs reg env span ps es).within (e :: ·)

/-- The fields that record fields initialise, after fields of the given names. -/
def FieldInit.synthAll (reg : Registry) (env : Env) (span : Option Span) (seen : List String) :
    List FieldInit → Visit (List FieldInit) (List Field)
  | [] => ⟨[], return []⟩
  | ⟨n, e⟩ :: fs =>
    if n ∈ seen then ⟨⟨n, e⟩ :: fs, .fail ⟨.duplicateDeclaration n, e.span.or span⟩⟩
    else
      (e.synth reg env).andThen (fun e => ⟨n, e⟩ :: fs) fun e t =>
        (FieldInit.synthAll reg env span (n :: seen) fs).andThen (fun fs => ⟨n, e⟩ :: fs)
          fun fs ts => ⟨⟨n, e⟩ :: fs, return ⟨n, t⟩ :: ts⟩
end

/-- Checks a call in an environment and returns what the method returns. -/
def Expr.synthCall (reg : Registry) (env : Env) (method : String) (args : List Expr)
    (span : Option Span) (valueRequired : Bool) : Visit (List Expr) Ty :=
  checkCall reg method args span valueRequired fun params => Expr.synthArgs reg env span params args

end WhileTyping
