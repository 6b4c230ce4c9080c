import WhileTyping.Registry.Basic

/-!
# Written types

A type written in a program mentions only declared aliases, repeats no field name within a record
and holds no `var`. A value type, moreover, holds no `void`; a return type is a value type or `void`
itself. Aliases are not expanded, since their bodies are written types of their own.
-/

namespace WhileTyping

namespace Registry

mutual
/-- The first fault of a written type, going through it from left to right. -/
def wellFormed (reg : Registry) : Ty → Except Fault Unit
  | .void | .bool | .char | .int | .string => .ok ()
  | .array e => reg.wellFormed e
  | .record fs => reg.wellFormedFields [] fs
  | .named n => if reg.hasAlias n then .ok () else .error (.unknownType n)
  | .union ts => reg.wellFormedAll ts
  | .inferred =>
    .error (.malformedTree "`var` used as a declared type outside a variable declaration")

/-- The same for the fields of a record after fields of the given names. -/
def wellFormedFields (reg : Registry) (seen : List String) : List Field → Except Fault Unit
  | [] => .ok ()
  | ⟨n, t⟩ :: fs =>
    if n ∈ seen then .error (.duplicateDeclaration n)
    else do
      reg.wellFormed t
      reg.wellFormedFields (n :: seen) fs

def wellFormedAll (reg : Registry) : List Ty → Except Fault Unit
  | [] => .ok ()
  | t :: ts => do
    reg.wellFormed t
    reg.wellFormedAll ts
end

end Registry

namespace Ty

mutual
/-- Whether `void` occurs in a type, without expanding aliases. -/
def hasVoid : Ty → Bool
  | .void => true
  | .array e => hasVoid e
  | .record fs => hasVoidFields fs
  | .union ts => hasVoidAll ts
  | .bool | .char | .int | .string | .named _ | .inferred => false

def hasVoidFields : List Field → Bool
  | [] => false
  | ⟨_, t⟩ :: fs => hasVoid t || hasVoidFields fs

def hasVoidAll : List Ty → Bool
  | [] => false
  | t :: ts => hasVoid t || hasVoidAll ts
end

def expectNoVoid (t : Ty) (span : Option Span) : Except TypeError Unit :=
  if t.hasVoid then .error ⟨.voidNotPermitted, span⟩ else .ok ()

end Ty

namespace Registry

/-- The check of the type of a parameter, a variable or an alias. -/
def expectValueType (reg : Registry) (t : Ty) (span : Option Span) : Except TypeError Unit := do
  (reg.wellFormed t).mapError fun fault => ⟨fault, span⟩
  t.expectNoVoid span

def expectReturnType (reg : Registry) (t : Ty) (span : Option Span) : Except TypeError Unit :=
  match t with
  | .void => .ok ()
  | t => reg.expectValueType t span

end Registry

end WhileTyping
