import WhileTyping.Expr.Same
import WhileTyping.Stmt.Basic

/-!
# Equality of statements

As for expressions, with the cells of `var` declarations compared as types.
-/

namespace WhileTyping

/-- Two optional expressions are the same when both are missing or both are there and the same. -/
def sameOption : Option Expr → Option Expr → Bool
  | none, none => true
  | some e, some e' => e.same e'
  | _, _ => false

def VarDecl.same (d d' : VarDecl) : Bool :=
  d.name == d'.name && d.ty.same d'.ty && sameOption d.init d'.init

mutual
def Stmt.same : Stmt → Stmt → Bool
  | ⟨f, span⟩, ⟨f', span'⟩ => f.same f' && span == span'

def StmtForm.same : StmtForm → StmtForm → Bool
  | .assert e, .assert e' => e.same e'
  | .assign l r, .assign l' r' => l.same l' && r.same r'
  | .breakLoop, .breakLoop | .continueLoop, .continueLoop => true
  | .forLoop d c s b, .forLoop d' c' s' b' =>
    d.same d' && c.same c' && s.same s' && Stmt.sameAll b b'
  | .ifElse c t f, .ifElse c' t' f' => c.same c' && Stmt.sameAll t t' && Stmt.sameAll f f'
  | .call m es, .call m' es' => m == m' && Expr.sameAll es es'
  | .print e, .print e' => e.same e'
  | .ret v, .ret v' => sameOption v v'
  | .switchOn e cs, .switchOn e' cs' => e.same e' && SwitchCase.sameAll cs cs'
  | .matchType e cs, .matchType e' cs' => e.same e' && MatchCase.sameAll cs cs'
  | .declare d, .declare d' => d.same d'
  | .infer x c e, .infer x' c' e' => x == x' && c.same c' && e.same e'
  | .whileLoop c b, .whileLoop c' b' => c.same c' && Stmt.sameAll b b'
  | _, _ => false

def Stmt.sameAll : List Stmt → List Stmt → Bool
  | [], [] => true
  | s :: ss, s' :: ss' => s.same s' && Stmt.sameAll ss ss'
  | _, _ => false

def SwitchCase.sameAll : List SwitchCase → List SwitchCase → Bool
  | [], [] => true
  | ⟨v, b⟩ :: cs, ⟨v', b'⟩ :: cs' =>
    sameOption v v' && Stmt.sameAll b b' && SwitchCase.sameAll cs cs'
  | _, _ => false

def MatchCase.sameAll : List MatchCase → List MatchCase → Bool
  | [], [] => true
  | ⟨t, x, b, span⟩ :: cs, ⟨t', x', b', span'⟩ :: cs' =>
    t.same t' && x == x' && Stmt.sameAll b b' && span == span' && MatchCase.sameAll cs cs'
  | _, _ => false
end

end WhileTyping
