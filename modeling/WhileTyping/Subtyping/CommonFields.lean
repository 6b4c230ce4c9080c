import WhileTyping.Check
import WhileTyping.Subtyping.Basic

/-!
# Fields of a union of records

A field can be read from a union of records if every member has it. The fields common to all stand
in the order of the first record, and one whose types differ has the union of them.
-/

namespace WhileTyping.Registry

/-- The field lists of some types if each expands to a record. The search ends at the first that
does not. -/
def recordsOf? (reg : Registry) (span : Option Span) :
    List Ty → Except TypeError (Option (List (List Field)))
  | [] => .ok (some [])
  | t :: ts => do
    match ← reg.expand t span with
    | .record fs => return (← reg.recordsOf? span ts).map (fs :: ·)
    | _ => return none

/-- A field with the type of its namesake in another record taken in. -/
def widenField (reg : Registry) (span : Option Span) (f g : Field) : Except TypeError Field := do
  if ← located span (reg.equivalent f.ty g.ty) then .ok f
  else .ok { f with ty := .unionOf [f.ty, g.ty] }

/-- The fields of a list that a record has too, each widened by the record's first field of that
name. -/
def meetFields (reg : Registry) (span : Option Span) (record : List Field) :
    List Field → Except TypeError (List Field)
  | [] => .ok []
  | f :: fs =>
    match record.find? fun g => g.name == f.name with
    | none => reg.meetFields span record fs
    | some g => do
      let widened ← reg.widenField span f g
      return widened :: (← reg.meetFields span record fs)

/-- The fields of a list that all of some records have. -/
def meetAll (reg : Registry) (span : Option Span) (fields : List Field) :
    List (List Field) → Except TypeError (List Field)
  | [] => .ok fields
  | record :: records => do reg.meetAll span (← reg.meetFields span record fields) records

/-- The record of the fields common to some records, if there are any. -/
def commonRecord (reg : Registry) (records : List (List Field)) (span : Option Span) :
    Check (Option Ty) :=
  match records with
  | [] => return none
  | first :: rest => do
    match ← reg.meetAll span first rest with
    | [] =>
      Check.report .noCommonField
      return none
    | f :: fs =>
      Check.report (.commonFields (.record (f :: fs)))
      return some (.record (f :: fs))

end WhileTyping.Registry
