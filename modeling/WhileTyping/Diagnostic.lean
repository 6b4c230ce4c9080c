import WhileTyping.Span

/-!
# Diagnostics

What is reported about a file: a severity, a stable code, a message and a place. The text of a
diagnostic is its headline.
-/

namespace WhileTyping

/-- An error is in the program that is checked, a bug in whatever built its tree. -/
inductive Severity where
  | error
  | bug
  deriving DecidableEq, Repr

def Severity.name : Severity → String
  | .error => "error"
  | .bug => "internal compiler error"

structure Diagnostic where
  severity : Severity
  code : Option String := none
  message : String
  file : Option String := none
  span : Option Span := none
  notes : List String := []
  deriving DecidableEq, Repr

namespace Diagnostic

def isBug (d : Diagnostic) : Bool := d.severity == .bug

/-- Where the diagnostic points, as it stands in front of the headline. -/
def place (d : Diagnostic) : String :=
  match d.file, d.span with
  | some file, some span => file ++ ":" ++ span.render ++ ": "
  | some file, none => file ++ ": "
  | none, some span => span.render ++ ": "
  | none, none => ""

def render (d : Diagnostic) : String :=
  let code := match d.code with
    | some c => "[" ++ c ++ "]"
    | none => ""
  d.place ++ d.severity.name ++ code ++ ": " ++ d.message

end Diagnostic

end WhileTyping
