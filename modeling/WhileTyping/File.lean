import WhileTyping.Stmt.Same

/-!
# Files

A file declares type aliases and methods. The order of declarations is kept.
-/

namespace WhileTyping

structure AliasDecl where
  name : String
  ty : Ty
  span : Option Span := none

structure Parameter where
  name : String
  ty : Ty
  span : Option Span := none

structure MethodDecl where
  name : String
  params : List Parameter
  ret : Ty
  body : List Stmt
  span : Option Span := none

inductive Decl where
  | alias (decl : AliasDecl)
  | method (decl : MethodDecl)

structure File where
  name : Option String := none
  decls : List Decl

namespace Decl

def name : Decl → String
  | .alias d => d.name
  | .method d => d.name

def span : Decl → Option Span
  | .alias d => d.span
  | .method d => d.span

/-- The type slots of a declaration in pre-order. An alias has none. -/
def slots : Decl → List Slot
  | .alias _ => []
  | .method d => Stmt.slotsAll d.body

end Decl

namespace File

def aliasDecls (f : File) : List AliasDecl :=
  f.decls.filterMap fun
    | .alias d => some d
    | .method _ => none

def methodDecls (f : File) : List MethodDecl :=
  f.decls.filterMap fun
    | .method d => some d
    | .alias _ => none

end File

/-! ## Equality -/

def AliasDecl.same (d d' : AliasDecl) : Bool :=
  d.name == d'.name && d.ty.same d'.ty && d.span == d'.span

def Parameter.same (p p' : Parameter) : Bool :=
  p.name == p'.name && p.ty.same p'.ty && p.span == p'.span

/-- Whether two lists have the same length and their elements are related in order. -/
def sameInOrder {α : Type} (r : α → α → Bool) : List α → List α → Bool
  | [], [] => true
  | a :: as, b :: bs => r a b && sameInOrder r as bs
  | _, _ => false

def MethodDecl.same (d d' : MethodDecl) : Bool :=
  d.name == d'.name && sameInOrder Parameter.same d.params d'.params && d.ret.same d'.ret &&
    Stmt.sameAll d.body d'.body && d.span == d'.span

def Decl.same : Decl → Decl → Bool
  | .alias d, .alias d' => d.same d'
  | .method d, .method d' => d.same d'
  | _, _ => false

def File.same (f f' : File) : Bool :=
  f.name == f'.name && sameInOrder Decl.same f.decls f'.decls

end WhileTyping
