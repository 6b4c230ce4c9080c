import WhileTyping.File
import WhileTyping.TypeError

/-!
# Registries

The aliases and method signatures that a file declares, for look-up by name. `Registry.build`
(`WhileTyping.Registry.Build`) makes one from a file whose names are distinct and whose aliases do
not run in a circle; the operations here are defined on any registry.
-/

namespace WhileTyping

/-- What a caller has to know of a method. -/
structure Signature where
  name : String
  params : List Ty
  ret : Ty
  span : Option Span := none
  deriving DecidableEq

def MethodDecl.signature (d : MethodDecl) : Signature :=
  ⟨d.name, d.params.map Parameter.ty, d.ret, d.span⟩

structure Registry where
  /-- Alias names with the types they stand for. -/
  aliases : List (String × Ty) := []
  methods : List Signature := []
  deriving DecidableEq

namespace Registry

/-- The declarations of a file as they stand. -/
def ofFile (f : File) : Registry where
  aliases := f.aliasDecls.map fun d => (d.name, d.ty)
  methods := f.methodDecls.map MethodDecl.signature

def alias? (reg : Registry) (name : String) : Option Ty := reg.aliases.lookup name

def hasAlias (reg : Registry) (name : String) : Bool := (reg.alias? name).isSome

def method? (reg : Registry) (name : String) : Option Signature :=
  reg.methods.find? fun s => s.name == name

/-- The body of an alias. -/
def resolve (reg : Registry) (name : String) : Except TypeError Ty :=
  match reg.alias? name with
  | some t => .ok t
  | none => .error ⟨.unknownType name, none⟩

/-- What is found by name is among the declarations. -/
theorem mem_aliases_of_alias? {reg : Registry} {n : String} {t : Ty}
    (h : reg.alias? n = some t) : (n, t) ∈ reg.aliases := by
  obtain ⟨l₁, l₂, hl, -⟩ := List.lookup_eq_some_iff.1 h
  rw [hl]
  exact List.mem_append_right _ (List.mem_cons_self ..)

/-! ## Expansion -/

/-- Follows aliases for at most the given number of look-ups. -/
def expandUpTo (reg : Registry) : Nat → Ty → Except Fault Ty
  | 0, t => .ok t
  | k + 1, .named n =>
    match reg.alias? n with
    | some t => reg.expandUpTo k t
    | none => .error (.unknownType n)
  | _ + 1, t => .ok t

/-- Follows aliases until the type is not one. Where no alias runs in a circle, a chain passes each
alias at most once and ends at the latest with the look-up after the last of them. -/
def expand (reg : Registry) (t : Ty) (span : Option Span) : Except TypeError Ty :=
  (reg.expandUpTo (reg.aliases.length + 1) t).mapError fun fault => ⟨fault, span⟩

/-- Expands a type and asks for its outer shape. The error shows the type before expansion. -/
def expectKind (reg : Registry) (t : Ty) (kinds : KindSet) (span : Option Span) :
    Except TypeError Ty := do
  let expanded ← reg.expand t span
  if kinds.accepts expanded then .ok expanded
  else .error ⟨.notInstanceOf kinds t, span⟩

end Registry

end WhileTyping
