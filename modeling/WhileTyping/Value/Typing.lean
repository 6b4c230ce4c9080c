import WhileTyping.Subtyping.Bound
import WhileTyping.Value

/-!
# Types of constants

A constant has the type its shape gives. The items of an array must have a least upper bound, and
the entries of a record distinct names.
-/

namespace WhileTyping.Value

mutual
def typeOf (reg : Registry) (span : Option Span) : Value → Check Ty
  | .bool _ => return .bool
  | .char _ => return .char
  | .int _ => return .int
  | .string _ => return .string
  | .array vs => do
    let ts ← typesOf reg span vs
    let bound ← reg.leastUpperBound ts span
    return .array bound
  | .record es => do
    let fs ← fieldsOf reg span [] es
    return .record fs

def typesOf (reg : Registry) (span : Option Span) : List Value → Check (List Ty)
  | [] => return []
  | v :: vs => do
    let t ← typeOf reg span v
    let ts ← typesOf reg span vs
    return t :: ts

/-- The fields of the entries of a record after entries of the given names. -/
def fieldsOf (reg : Registry) (span : Option Span) (seen : List String) :
    List Entry → Check (List Field)
  | [] => return []
  | ⟨n, v⟩ :: es =>
    if n ∈ seen then .fail ⟨.duplicateDeclaration n, span⟩
    else do
      let t ← typeOf reg span v
      let fs ← fieldsOf reg span (n :: seen) es
      return ⟨n, t⟩ :: fs
end

end WhileTyping.Value
