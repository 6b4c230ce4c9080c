import WhileTyping.Diagnostic
import WhileTyping.Ty.Kind
import WhileTyping.Ty.Printer

/-!
# Type errors

A fault is the cause of a type error; a type error adds the place where it was found. The code and
the wording of every fault stand here.
-/

namespace WhileTyping

inductive Fault where
  | undeclaredVariable (name : String)
  | duplicateDeclaration (name : String)
  | typeMismatch (expected found : Ty)
  | notInstanceOf (expected : KindSet) (found : Ty)
  | arityMismatch (method : String) (expected found : Nat)
  | unknownField (field : String) (ty : Ty)
  | unknownType (name : String)
  | unknownMethod (name : String)
  | voidNotPermitted
  /-- The cell of a `var` declaration holds a type before the declaration is checked. -/
  | cellResolved (name : String)
  | cyclicType (name : String)
  /-- The tree holds something that no program text gives. -/
  | malformedTree (detail : String)
  deriving DecidableEq

namespace Fault

def code : Fault → String
  | .undeclaredVariable _ => "E0001"
  | .duplicateDeclaration _ => "E0002"
  | .typeMismatch _ _ => "E0003"
  | .notInstanceOf _ _ => "E0004"
  | .arityMismatch _ _ _ => "E0005"
  | .unknownField _ _ => "E0006"
  | .unknownType _ => "E0007"
  | .unknownMethod _ => "E0008"
  | .voidNotPermitted => "E0009"
  | .cellResolved _ => "E0010"
  | .cyclicType _ => "E0011"
  | .malformedTree _ => "E0012"

def message : Fault → String
  | .undeclaredVariable name => "unknown variable `" ++ name ++ "`"
  | .duplicateDeclaration name => "`" ++ name ++ "` is already declared"
  | .typeMismatch expected found =>
    "expected type " ++ expected.render ++ ", found " ++ found.render
  | .notInstanceOf expected found =>
    "expected instance of " ++ expected.render ++ ", found " ++ found.render
  | .arityMismatch method expected found =>
    "method `" ++ method ++ "` expects " ++ toString expected ++ " argument(s), found " ++
      toString found
  | .unknownField field ty => "type " ++ ty.render ++ " has no field `" ++ field ++ "`"
  | .unknownType name => "unknown type `" ++ name ++ "`"
  | .unknownMethod name => "unknown method `" ++ name ++ "`"
  | .voidNotPermitted => "void type not permitted here"
  | .cellResolved name =>
    "inferred variable `" ++ name ++ "` has a type before being declared"
  | .cyclicType name => "type `" ++ name ++ "` is defined in terms of itself"
  | .malformedTree detail => "internal failure: " ++ detail

def isInternal : Fault → Bool
  | .malformedTree _ => true
  | _ => false

end Fault

structure TypeError where
  fault : Fault
  span : Option Span := none
  deriving DecidableEq

namespace TypeError

def message (e : TypeError) : String := e.fault.message

/-- The error with a place, which one that already has a place keeps. -/
def orAt (e : TypeError) (span : Option Span) : TypeError := { e with span := e.span.or span }

/-- What is reported for an error in a file of that name. -/
def toDiagnostic (e : TypeError) (file : Option String) : Diagnostic where
  severity := if e.fault.isInternal then .bug else .error
  code := some e.fault.code
  message := e.message
  file := file
  span := e.span
  notes := if e.fault.isInternal then ["the syntax tree handed to the checker is malformed"] else []

end TypeError

/-- The same result, with a place for an error that has none. -/
def located {α : Type} (span : Option Span) (r : Except TypeError α) : Except TypeError α :=
  r.mapError (·.orAt span)

end WhileTyping
