import WhileTyping.Span
import WhileTyping.Ty.Basic
import WhileTyping.Value

/-!
# Expressions

Every node carries a span, if it has a place in a file, and a slot for its type. The slot is filled
when the type of the node is first found, and is never written again.
-/

namespace WhileTyping

inductive BinaryOp where
  | and
  | or
  | add
  | sub
  | mul
  | div
  | rem
  | eq
  | ne
  | lt
  | le
  | gt
  | ge
  deriving DecidableEq, Repr

def BinaryOp.symbol : BinaryOp → String
  | .and => "&&"
  | .or => "||"
  | .add => "+"
  | .sub => "-"
  | .mul => "*"
  | .div => "/"
  | .rem => "%"
  | .eq => "=="
  | .ne => "!="
  | .lt => "<"
  | .le => "<="
  | .gt => ">"
  | .ge => ">="

inductive UnaryOp where
  | neg
  | not
  | length
  deriving DecidableEq, Repr

def UnaryOp.symbol : UnaryOp → String
  | .neg => "-"
  | .not => "!"
  | .length => "|..|"

mutual
structure Expr where
  form : ExprForm
  span : Option Span := none
  ty : Option Ty := none

inductive ExprForm where
  | binary (op : BinaryOp) (lhs rhs : Expr)
  | constant (value : Value)
  | index (source position : Expr)
  | call (method : String) (args : List Expr)
  /-- An array of `size` copies of one value. -/
  | fill (value size : Expr)
  | array (items : List Expr)
  | field (source : Expr) (name : String)
  | record (fields : List FieldInit)
  | unary (op : UnaryOp) (operand : Expr)
  | var (name : String)

structure FieldInit where
  name : String
  value : Expr
end

namespace Expr

/-- Whether a value may be assigned to the expression. -/
def isAssignable (e : Expr) : Bool :=
  match e.form with
  | .var _ | .index _ _ | .field _ _ => true
  | _ => false

/-- Fills an empty type slot and says whether it was empty. -/
def annotate (e : Expr) (t : Ty) : Expr × Bool :=
  match e.ty with
  | none => ({ e with ty := some t }, true)
  | some _ => (e, false)

/-! ## Type slots in pre-order -/

mutual
def slots : Expr → List (Option Ty)
  | ⟨form, _, ty⟩ => ty :: slotsForm form

def slotsForm : ExprForm → List (Option Ty)
  | .binary _ l r => slots l ++ slots r
  | .constant _ | .var _ => []
  | .index source position => slots source ++ slots position
  | .call _ args => slotsAll args
  | .fill value size => slots value ++ slots size
  | .array items => slotsAll items
  | .field source _ => slots source
  | .record fields => slotsFields fields
  | .unary _ operand => slots operand

def slotsAll : List Expr → List (Option Ty)
  | [] => []
  | e :: es => slots e ++ slotsAll es

def slotsFields : List FieldInit → List (Option Ty)
  | [] => []
  | ⟨_, e⟩ :: fs => slots e ++ slotsFields fs
end

end Expr

end WhileTyping
