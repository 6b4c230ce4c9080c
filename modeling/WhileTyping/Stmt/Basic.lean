import WhileTyping.Expr.Basic

/-!
# Statements

A `var` declaration has a cell for the type found for its variable, which starts as `inferred`.
-/

namespace WhileTyping

/-- A variable with a written type. -/
structure VarDecl where
  name : String
  ty : Ty
  init : Option Expr

mutual
structure Stmt where
  form : StmtForm
  span : Option Span := none

inductive StmtForm where
  | assert (condition : Expr)
  | assign (target value : Expr)
  | breakLoop
  | continueLoop
  | forLoop (decl : VarDecl) (condition : Expr) (step : Stmt) (body : List Stmt)
  | ifElse (condition : Expr) (onTrue onFalse : List Stmt)
  | call (method : String) (args : List Expr)
  | print (value : Expr)
  | ret (value : Option Expr)
  | switchOn (selector : Expr) (cases : List SwitchCase)
  | matchType (selector : Expr) (cases : List MatchCase)
  | declare (decl : VarDecl)
  | infer (name : String) (cell : Ty) (init : Expr)
  | whileLoop (condition : Expr) (body : List Stmt)

/-- A case without a value is the default. -/
structure SwitchCase where
  value : Option Expr
  body : List Stmt

/-- A case that binds the selector at a narrower type. -/
structure MatchCase where
  ty : Ty
  name : String
  body : List Stmt
  span : Option Span := none
end

def SwitchCase.isDefault (c : SwitchCase) : Bool := c.value.isNone

/-! ## Type slots in pre-order -/

/-- A place where checking leaves a type: the slot of an expression, or the cell of a `var`
declaration. -/
inductive Slot where
  | expr (ty : Option Ty)
  | cell (ty : Ty)
  deriving DecidableEq

namespace Stmt

def exprSlots (e : Expr) : List Slot := e.slots.map Slot.expr

def optionSlots : Option Expr → List Slot
  | none => []
  | some e => exprSlots e

mutual
def slots : Stmt → List Slot
  | ⟨form, _⟩ => slotsForm form

def slotsForm : StmtForm → List Slot
  | .assert e | .print e => exprSlots e
  | .assign target value => exprSlots target ++ exprSlots value
  | .breakLoop | .continueLoop => []
  | .forLoop decl condition step body =>
    optionSlots decl.init ++ exprSlots condition ++ slots step ++ slotsAll body
  | .ifElse condition onTrue onFalse =>
    exprSlots condition ++ slotsAll onTrue ++ slotsAll onFalse
  | .call _ args => args.flatMap exprSlots
  | .ret value => optionSlots value
  | .switchOn selector cases => exprSlots selector ++ slotsSwitch cases
  | .matchType selector cases => exprSlots selector ++ slotsMatch cases
  | .declare decl => optionSlots decl.init
  | .infer _ cell init => .cell cell :: exprSlots init
  | .whileLoop condition body => exprSlots condition ++ slotsAll body

def slotsAll : List Stmt → List Slot
  | [] => []
  | s :: ss => slots s ++ slotsAll ss

def slotsSwitch : List SwitchCase → List Slot
  | [] => []
  | ⟨value, body⟩ :: cs => optionSlots value ++ slotsAll body ++ slotsSwitch cs

def slotsMatch : List MatchCase → List Slot
  | [] => []
  | ⟨_, _, body, _⟩ :: cs => slotsAll body ++ slotsMatch cs
end

end Stmt

end WhileTyping
