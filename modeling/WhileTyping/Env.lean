import WhileTyping.Check
import WhileTyping.Subtyping.Basic

/-!
# Environments

The variables in scope, each with the type it was declared with and the type it now holds. The two
differ only for a variable declared by `var`: its declared type stays `inferred`, and the type it
holds follows the assignments to it.

After a branch the variables are merged one by one. Nothing is said about the order in which this
happens. It can be told only if merging fails: the variables before the one that fails are merged
then, and the others are not.
-/

namespace WhileTyping

structure Binding where
  declared : Ty
  current : Ty
  deriving DecidableEq

/-- An order in which names are visited. It may depend on all of the names, and on the order in
which they were bound. -/
structure VisitOrder where
  visit : List String → List String
  perm : ∀ names, (visit names).Perm names

/-- Names in the order in which they were bound. -/
def VisitOrder.asBound : VisitOrder := ⟨id, .refl⟩

structure Env where
  bindings : List (String × Binding) := []
  /-- The order in which variables are merged after a branch. -/
  order : VisitOrder := .asBound

/-- Binds a name in a list of bindings, in the place of an earlier binding if there is one. -/
def bindName (name : String) (b : Binding) : List (String × Binding) → List (String × Binding)
  | [] => [(name, b)]
  | (x, c) :: rest => if x = name then (name, b) :: rest else (x, c) :: bindName name b rest

namespace Env

def find? (env : Env) (name : String) : Option Binding := env.bindings.lookup name

def current? (env : Env) (name : String) : Option Ty := (env.find? name).map Binding.current

def declared? (env : Env) (name : String) : Option Ty := (env.find? name).map Binding.declared

def contains (env : Env) (name : String) : Bool := (env.find? name).isSome

def size (env : Env) : Nat := env.bindings.length

/-- The names in scope, in the order in which they were bound. -/
def names (env : Env) : List String := env.bindings.map Prod.fst

def insert (env : Env) (name : String) (b : Binding) : Env :=
  { env with bindings := bindName name b env.bindings }

/-- Binds a variable with a fixed type. -/
def put (env : Env) (name : String) (t : Ty) : Env := env.insert name ⟨t, t⟩

/-- Binds a `var` variable that holds a type. -/
def putInferred (env : Env) (name : String) (t : Ty) : Env := env.insert name ⟨.inferred, t⟩

/-- The new binding is found, whether or not it replaces an earlier one. -/
theorem find?_insert_self (env : Env) (name : String) (b : Binding) :
    (env.insert name b).find? name = some b := by
  show (bindName name b env.bindings).lookup name = some b
  induction env.bindings with
  | nil => simp [bindName]
  | cons p rest ih =>
    rw [bindName]
    split
    · simp
    · rename_i hx
      rw [List.lookup_cons, beq_false_of_ne (Ne.symm hx)]
      exact ih

/-- The other variables are found as before. -/
theorem find?_insert_of_ne (env : Env) {name x : String} (b : Binding) (h : x ≠ name) :
    (env.insert name b).find? x = env.find? x := by
  show (bindName name b env.bindings).lookup x = env.bindings.lookup x
  induction env.bindings with
  | nil => rw [bindName, List.lookup_cons, beq_false_of_ne h]
  | cons p rest ih =>
    obtain ⟨y, c⟩ := p
    rw [bindName]
    split
    · rename_i hy
      rw [List.lookup_cons, List.lookup_cons, hy, beq_false_of_ne h]
    · rw [List.lookup_cons, List.lookup_cons, ih]

/-- Lets a `var` variable hold another type. Answers `false`, and changes nothing, for a variable
that is not in scope or has a written type. -/
def refine (env : Env) (name : String) (t : Ty) : Visit Env Bool :=
  match env.find? name with
  | some b =>
    if b.declared.isInferred then
      ⟨env.insert name { b with current := t },
        do Check.report (.variableRefined name b.current t); return true⟩
    else ⟨env, return false⟩
  | none => ⟨env, return false⟩

/-! ## After a branch -/

/-- The type of a variable after a branch that leaves it with either of two types: the greater if
they compare, the left one if they are equivalent, and otherwise their union. -/
def joinTypes (reg : Registry) (left right : Ty) : Except TypeError Ty := do
  if ← reg.equivalent left right then return left
  else
    if ← reg.isSubtype left right then return left
    else
      if ← reg.isSubtype right left then return right
      else return .unionOf [left, right]

/-- A variable after a branch. Only a `var` variable that both arms have changes. -/
def mergeBinding (reg : Registry) (left right : Env) (name : String) (b : Binding) :
    Check Binding :=
  match b.declared.isInferred, left.current? name, right.current? name with
  | true, some lt, some rt => do
    let joined ← joinTypes reg lt rt
    Check.report (.variableMerged name lt rt joined)
    return { b with current := joined }
  | _, _, _ => return b

/-- Merges one variable, if it is in scope. -/
def mergeName (reg : Registry) (left right env : Env) (name : String) : Visit Env Unit :=
  match env.find? name with
  | none => ⟨env, return ()⟩
  | some b =>
    Visit.after (mergeBinding reg left right name b) env fun b => ⟨env.insert name b, return ()⟩

/-- Merges variables one after another, up to the first that fails. -/
def mergeNames (reg : Registry) (left right env : Env) : List String → Visit Env Unit
  | [] => ⟨env, return ()⟩
  | name :: names =>
    (mergeName reg left right env name).andThen id fun env () =>
      mergeNames reg left right env names

/-- The environment after a branch, from the one before it and those its two arms end with. If it
fails, the variables that were visited before are merged all the same. -/
def merge (reg : Registry) (env left right : Env) : Visit Env Unit :=
  mergeNames reg left right env (env.order.visit env.names)

end Env

end WhileTyping
