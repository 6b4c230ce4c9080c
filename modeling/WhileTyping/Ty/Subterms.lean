import WhileTyping.Ty.Basic

/-!
# Subterms

Every type that occurs in a type, the type itself first. Aliases are not expanded.
-/

namespace WhileTyping.Ty

mutual
/-- A type and the types within it, in pre-order. -/
def subterms : Ty → List Ty
  | .array e => .array e :: subterms e
  | .record fs => .record fs :: subtermsFields fs
  | .union ts => .union ts :: subtermsAll ts
  | t => [t]

def subtermsFields : List Field → List Ty
  | [] => []
  | ⟨_, t⟩ :: fs => subterms t ++ subtermsFields fs

def subtermsAll : List Ty → List Ty
  | [] => []
  | t :: ts => subterms t ++ subtermsAll ts
end

theorem self_mem_subterms (t : Ty) : t ∈ t.subterms := by cases t <;> simp [subterms]

/-- The subterms of a member are among those of the list. -/
theorem subterms_subset_subtermsAll {t : Ty} {ts : List Ty} (h : t ∈ ts) :
    t.subterms ⊆ subtermsAll ts := by
  induction ts with
  | nil => cases h
  | cons s ss ih =>
    rw [subtermsAll]
    rcases List.mem_cons.1 h with rfl | h
    · exact List.subset_append_left _ _
    · exact fun x hx => List.mem_append_right _ (ih h hx)

/-- The subterms of a field are among those of the record. -/
theorem subterms_subset_subtermsFields {f : Field} {fs : List Field} (h : f ∈ fs) :
    f.ty.subterms ⊆ subtermsFields fs := by
  induction fs with
  | nil => cases h
  | cons g gs ih =>
    cases g
    rw [subtermsFields]
    rcases List.mem_cons.1 h with rfl | h
    · exact List.subset_append_left _ _
    · exact fun x hx => List.mem_append_right _ (ih h hx)

/-! ## Components -/

theorem subterms_array (e : Ty) : e.subterms ⊆ (array e).subterms := by
  rw [subterms]
  exact List.subset_cons_self _ _

theorem subterms_field {f : Field} {fs : List Field} (h : f ∈ fs) :
    f.ty.subterms ⊆ (record fs).subterms := by
  rw [subterms]
  exact List.subset_cons_of_subset _ (subterms_subset_subtermsFields h)

theorem subterms_member {t : Ty} {ts : List Ty} (h : t ∈ ts) :
    t.subterms ⊆ (union ts).subterms := by
  rw [subterms]
  exact List.subset_cons_of_subset _ (subterms_subset_subtermsAll h)

theorem size_lt_array (e : Ty) : e.size < (array e).size := by
  rw [size]; omega

theorem size_lt_record {f : Field} {fs : List Field} (h : f ∈ fs) :
    f.ty.size < (record fs).size := by
  have := size_le_sizeFields h
  rw [size]; omega

/-- The members of a union are smaller than the union. -/
theorem size_lt_union {t : Ty} {ts : List Ty} (h : t ∈ ts) : t.size < (union ts).size := by
  have := size_le_sizeAll h
  rw [size]; omega

end WhileTyping.Ty
