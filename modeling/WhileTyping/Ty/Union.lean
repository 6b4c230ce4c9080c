import WhileTyping.Ty.Basic

/-!
# Unions

Equality of types up to the order of union members, and the union of a list of types.

Two unions are the same when they have equally many members and every member of the first is matched
by one of the second. On unions without repeated members this is equality of sets. The inner
comparison reads from the second union to the first, which shows only on unions with repeated
members: there the relation is not symmetric.
-/

namespace WhileTyping.Ty

/-- Whether two types are the same up to the order of union members at every depth. -/
def same : Ty → Ty → Bool
  | .void, .void | .bool, .bool | .char, .char | .int, .int | .string, .string
  | .inferred, .inferred => true
  | .array s, .array t => same s t
  | .record fs, .record gs =>
    fs.length == gs.length &&
      (fs.zip gs).attach.all fun ⟨p, _⟩ => p.1.name == p.2.name && same p.1.ty p.2.ty
  | .named m, .named n => m == n
  | .union ss, .union ts =>
    ss.length == ts.length && ss.attach.all fun ⟨s, _⟩ => ts.attach.any fun ⟨t, _⟩ => same t s
  | _, _ => false
termination_by s t => s.size + t.size
decreasing_by
  · simp only [size]; omega
  · rename_i h
    have := size_le_sizeFields (List.of_mem_zip h).1
    have := size_le_sizeFields (List.of_mem_zip h).2
    simp only [size]; omega
  · rename_i hs ht
    have := size_le_sizeAll hs
    have := size_le_sizeAll ht
    simp only [size]; omega

@[simp] theorem same_array (s t : Ty) : same (.array s) (.array t) = same s t := by rw [same]

@[simp] theorem same_named (m n : String) : same (.named m) (.named n) = (m == n) := by rw [same]

/-- Records are the same if they have the same fields in the same order. -/
theorem same_record (fs gs : List Field) :
    same (.record fs) (.record gs) = (fs.length == gs.length &&
      (fs.zip gs).all fun p => p.1.name == p.2.name && same p.1.ty p.2.ty) := by
  rw [same, List.all_subtype fun _ _ => rfl, List.unattach_attach]
  rfl

/-- Unions are the same if they are of equal length and each member of the first is matched. -/
theorem same_union (ss ts : List Ty) :
    same (.union ss) (.union ts) =
      (ss.length == ts.length && ss.all fun s => ts.any fun t => same t s) := by
  rw [same]
  simp

/-- A type is the same as itself. -/
@[simp] theorem same_refl (t : Ty) : same t t = true := by
  induction t with
  | void | bool | char | int | string | inferred => rw [same]
  | array e ih => simpa using ih
  | named n => simp
  | record fs ih =>
    rw [same_record]
    simp only [beq_self_eq_true, Bool.true_and, List.all_eq_true]
    intro p hp
    obtain ⟨i, hi, rfl⟩ := List.getElem_of_mem hp
    simp only [List.getElem_zip, beq_self_eq_true, Bool.true_and]
    exact ih _ (List.getElem_mem _)
  | union ts ih =>
    rw [same_union]
    simp only [beq_self_eq_true, Bool.true_and, List.all_eq_true, List.any_eq_true]
    -- each member is matched by itself
    exact fun t ht => ⟨t, ht, ih t ht⟩

/-! ## Building unions -/

/-- The members of a union, or the type itself as the only alternative. -/
def alternatives : Ty → List Ty
  | .union ts => ts
  | t => [t]

/-- Appends a member that no earlier member is the same as. -/
def addMember (members : List Ty) (t : Ty) : List Ty :=
  if members.any fun m => m.same t then members else members ++ [t]

/-- The union of some types: unions among them give their members, and of members that are the same
the first is kept. A single member still makes a union. -/
def unionOf (ts : List Ty) : Ty :=
  .union ((ts.flatMap alternatives).foldl addMember [])

end WhileTyping.Ty
