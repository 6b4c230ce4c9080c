import WhileTyping.Ty.Basic

/-!
# Kinds

An operator asks only for the outer shape of its operand: `+` wants an `int`, the length of a
sequence wants a string or an array. A `KindSet` names the shapes that are accepted.
-/

namespace WhileTyping

inductive Kind where
  | bool
  | char
  | int
  | string
  | array
  | record
  deriving DecidableEq, Repr

namespace Kind

/-- Every kind, in the order in which a set of kinds is listed. -/
def all : List Kind := [.bool, .char, .int, .string, .array, .record]

theorem mem_all (k : Kind) : k ∈ all := by cases k <;> simp [all]

def name : Kind → String
  | .bool => "bool"
  | .char => "char"
  | .int => "int"
  | .string => "string"
  | .array => "array"
  | .record => "record"

end Kind

/-- The outer shape of a type. An alias has none before it is expanded. -/
def Ty.kind? : Ty → Option Kind
  | .bool => some .bool
  | .char => some .char
  | .int => some .int
  | .string => some .string
  | .array _ => some .array
  | .record _ => some .record
  | .void | .named _ | .union _ | .inferred => none

structure KindSet where
  kinds : List Kind
  deriving DecidableEq, Repr

namespace KindSet

def single (k : Kind) : KindSet := ⟨[k]⟩

/-- What can be indexed and has a length. -/
def sequence : KindSet := ⟨[.string, .array]⟩

def contains (ks : KindSet) (k : Kind) : Bool := ks.kinds.contains k

/-- Whether the outer shape of a type is in the set. -/
def accepts (ks : KindSet) (t : Ty) : Bool := t.kind?.any ks.contains

/-- The members in their fixed order. -/
def toList (ks : KindSet) : List Kind := Kind.all.filter ks.contains

def render (ks : KindSet) : String := " or ".intercalate (ks.toList.map Kind.name)

/-- Listing in the fixed order neither drops nor adds a kind. -/
@[simp] theorem mem_toList {ks : KindSet} {k : Kind} :
    k ∈ ks.toList ↔ ks.contains k = true := by
  simp [toList, Kind.mem_all]

end KindSet

end WhileTyping
