/-!
# Types

The types of the language. An alias is kept as its name and looked up only where a rule needs its
body. A union is a list of members; `Ty.unionOf` builds the flat, duplicate-free ones, and nothing
stops a tree from carrying others. `inferred` stands for a type not known yet, written `var`.

`Ty` is nested in lists, so this module also gives what such a type does not come with: decidable
equality, a size that every component lies below, and an induction principle.
-/

namespace WhileTyping

mutual
inductive Ty where
  | void
  | bool
  | char
  | int
  | string
  | inferred
  | array (element : Ty)
  | record (fields : List Field)
  | named (name : String)
  | union (members : List Ty)

/-- A field of a record type. The order of fields is significant. -/
structure Field where
  name : String
  ty : Ty
end

namespace Ty

/-! ## Equality of written form -/

mutual
/-- Whether two types are written alike, member for member and field for field. -/
def identical : Ty → Ty → Bool
  | .void, .void | .bool, .bool | .char, .char | .int, .int | .string, .string
  | .inferred, .inferred => true
  | .array s, .array t => identical s t
  | .record fs, .record gs => identicalFields fs gs
  | .named m, .named n => m == n
  | .union ss, .union ts => identicalAll ss ts
  | _, _ => false

def identicalFields : List Field → List Field → Bool
  | [], [] => true
  | ⟨m, s⟩ :: fs, ⟨n, t⟩ :: gs => m == n && identical s t && identicalFields fs gs
  | _, _ => false

def identicalAll : List Ty → List Ty → Bool
  | [], [] => true
  | s :: ss, t :: ts => identical s t && identicalAll ss ts
  | _, _ => false
end

mutual
/-- The comparison decides equality. -/
theorem identical_iff : ∀ s t : Ty, identical s t = true ↔ s = t
  | .void, t | .bool, t | .char, t | .int, t | .string, t | .inferred, t => by
    cases t <;> simp [identical]
  | .array s, t => by cases t <;> simp [identical, identical_iff s]
  | .record fs, t => by cases t <;> simp [identical, identicalFields_iff fs]
  | .named m, t => by cases t <;> simp [identical]
  | .union ss, t => by cases t <;> simp [identical, identicalAll_iff ss]

theorem identicalFields_iff : ∀ fs gs : List Field, identicalFields fs gs = true ↔ fs = gs
  | [], gs => by cases gs <;> simp [identicalFields]
  | ⟨m, s⟩ :: fs, gs => by
    cases gs with
    | nil => simp [identicalFields]
    | cons g gs =>
      cases g
      simp [identicalFields, identical_iff s, identicalFields_iff fs]

theorem identicalAll_iff : ∀ ss ts : List Ty, identicalAll ss ts = true ↔ ss = ts
  | [], ts => by cases ts <;> simp [identicalAll]
  | s :: ss, ts => by cases ts <;> simp [identicalAll, identical_iff s, identicalAll_iff ss]
end

instance : DecidableEq Ty := fun s t => decidable_of_iff _ (identical_iff s t)

end Ty

instance : DecidableEq Field := fun f g =>
  decidable_of_iff (f.name = g.name ∧ f.ty = g.ty) (by cases f; cases g; simp)

namespace Ty

/-! ## Size -/

mutual
/-- The number of nodes of a type. -/
def size : Ty → Nat
  | .array t => size t + 1
  | .record fs => sizeFields fs + 1
  | .union ts => sizeAll ts + 1
  | .void | .bool | .char | .int | .string | .inferred | .named _ => 1

def sizeFields : List Field → Nat
  | [] => 0
  | ⟨_, t⟩ :: fs => size t + sizeFields fs

def sizeAll : List Ty → Nat
  | [] => 0
  | t :: ts => size t + sizeAll ts
end

/-- A member is no larger than the list it is in. -/
theorem size_le_sizeAll {t : Ty} {ts : List Ty} (h : t ∈ ts) : t.size ≤ sizeAll ts := by
  induction ts with
  | nil => cases h
  | cons s ss ih =>
    rw [sizeAll]
    rcases List.mem_cons.1 h with rfl | h
    · omega
    · have := ih h; omega

/-- The type of a field is no larger than the list of fields. -/
theorem size_le_sizeFields {f : Field} {fs : List Field} (h : f ∈ fs) :
    f.ty.size ≤ sizeFields fs := by
  induction fs with
  | nil => cases h
  | cons g gs ih =>
    cases g
    rw [sizeFields]
    rcases List.mem_cons.1 h with rfl | h
    · simp only; omega
    · have := ih h; omega

/-- Induction on a type, with the hypothesis at every member of a union and every field of a
record. -/
@[elab_as_elim, induction_eliminator]
theorem inductionOn {P : Ty → Prop} (t : Ty)
    (void : P .void) (bool : P .bool) (char : P .char) (int : P .int) (string : P .string)
    (inferred : P .inferred) (array : ∀ e, P e → P (.array e))
    (record : ∀ fs, (∀ f ∈ fs, P f.ty) → P (.record fs)) (named : ∀ n, P (.named n))
    (union : ∀ ts, (∀ t ∈ ts, P t) → P (.union ts)) : P t :=
  match t with
  | .void => void
  | .bool => bool
  | .char => char
  | .int => int
  | .string => string
  | .inferred => inferred
  | .array e => array e (inductionOn e void bool char int string inferred array record named union)
  | .record fs => record fs fun f _ =>
    inductionOn f.ty void bool char int string inferred array record named union
  | .named n => named n
  | .union ts => union ts fun t _ =>
    inductionOn t void bool char int string inferred array record named union
termination_by t.size
decreasing_by
  · simp only [size]; omega
  · rename_i h
    have := size_le_sizeFields h
    simp only [size]; omega
  · rename_i h
    have := size_le_sizeAll h
    simp only [size]; omega

/-! ## Observations -/

/-- The type of the first field of that name, on a record type. -/
def field? (name : String) : Ty → Option Ty
  | .record fs => (fs.find? fun f => f.name == name).map Field.ty
  | _ => none

def isPrimitive : Ty → Bool
  | .bool | .char | .int | .string => true
  | _ => false

def isInferred : Ty → Bool
  | .inferred => true
  | _ => false

end Ty

end WhileTyping
