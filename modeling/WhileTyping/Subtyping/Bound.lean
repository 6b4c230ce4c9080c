import WhileTyping.Check
import WhileTyping.Subtyping.Basic

/-!
# Least upper bounds

The bound of a list of types is found by going through it once. Each type either lies above the
bound so far and becomes the new bound, or must lie below it. No union is made up, so `int` and
`bool` have no bound. The bound of no types is `void`.
-/

namespace WhileTyping.Registry

/-- The least upper bound of some types and a bound found so far. -/
def raiseBound (reg : Registry) (span : Option Span) (bound : Ty) : List Ty → Check Ty
  | [] => return bound
  | t :: ts => do
    if ← located span (reg.isSubtype t bound) then
      Check.report (.boundRaised bound t)
      reg.raiseBound span t ts
    else
      reg.expectSubtype bound t span
      reg.raiseBound span bound ts

def leastUpperBound (reg : Registry) (ts : List Ty) (span : Option Span) : Check Ty :=
  reg.raiseBound span .void ts

end WhileTyping.Registry
