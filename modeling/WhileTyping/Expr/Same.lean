import WhileTyping.Expr.Basic
import WhileTyping.Ty.Union

/-!
# Equality of expressions

Two expressions are the same when their forms, spans and type slots are. Types are compared up to
the order of union members.
-/

namespace WhileTyping

/-- Two type slots are the same when both are empty or both hold the same type. -/
def sameSlot : Option Ty → Option Ty → Bool
  | none, none => true
  | some s, some t => s.same t
  | _, _ => false

mutual
def Expr.same : Expr → Expr → Bool
  | ⟨f, span, ty⟩, ⟨f', span', ty'⟩ => f.same f' && span == span' && sameSlot ty ty'

def ExprForm.same : ExprForm → ExprForm → Bool
  | .binary op l r, .binary op' l' r' => op == op' && l.same l' && r.same r'
  | .constant v, .constant v' => v == v'
  | .index s i, .index s' i' => s.same s' && i.same i'
  | .call m es, .call m' es' => m == m' && Expr.sameAll es es'
  | .fill v n, .fill v' n' => v.same v' && n.same n'
  | .array es, .array es' => Expr.sameAll es es'
  | .field s n, .field s' n' => s.same s' && n == n'
  | .record fs, .record fs' => FieldInit.sameAll fs fs'
  | .unary op e, .unary op' e' => op == op' && e.same e'
  | .var x, .var x' => x == x'
  | _, _ => false

def Expr.sameAll : List Expr → List Expr → Bool
  | [], [] => true
  | e :: es, e' :: es' => e.same e' && Expr.sameAll es es'
  | _, _ => false

def FieldInit.sameAll : List FieldInit → List FieldInit → Bool
  | [], [] => true
  | ⟨n, e⟩ :: fs, ⟨n', e'⟩ :: fs' => n == n' && e.same e' && FieldInit.sameAll fs fs'
  | _, _ => false
end

end WhileTyping
