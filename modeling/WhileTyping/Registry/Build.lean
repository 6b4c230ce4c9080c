import WhileTyping.Check
import WhileTyping.Registry.Cycle

/-!
# Building a registry

A file gives a registry if no two aliases and no two methods share a name and no alias runs in a
circle. The faults are looked for in this order, and each is reported at the first declaration in
the file that shows it.
-/

namespace WhileTyping

/-- The first element whose name is among `seen` or the names before it. -/
def firstRepeated {α : Type} (name : α → String) (seen : List String) : List α → Option α
  | [] => none
  | a :: as =>
    if name a ∈ seen then some a
    else firstRepeated name (name a :: seen) as

namespace Registry

/-- The first alias of a list from which a walk comes back on itself, with that circle. -/
def firstCircular (reg : Registry) : List AliasDecl → Option (AliasDecl × AliasCycle)
  | [] => none
  | d :: ds =>
    match reg.findCycle [d.name] d.ty with
    | some cycle => some (d, cycle)
    | none => reg.firstCircular ds

def build (f : File) : Check Registry :=
  let reg := ofFile f
  match firstRepeated AliasDecl.name [] f.aliasDecls with
  | some d => .fail ⟨.duplicateDeclaration d.name, d.span⟩
  | none =>
    match firstRepeated MethodDecl.name [] f.methodDecls with
    | some d => .fail ⟨.duplicateDeclaration d.name, d.span⟩
    | none =>
      match reg.firstCircular f.aliasDecls with
      | some (d, cycle) =>
        ⟨[.aliasCycle cycle.name cycle.path], .error ⟨.cyclicType cycle.name, d.span⟩⟩
      | none => ⟨[.registryBuilt reg.methods.length reg.aliases.length], .ok reg⟩

end Registry

end WhileTyping
