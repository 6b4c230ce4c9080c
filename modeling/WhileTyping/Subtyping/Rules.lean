import WhileTyping.Subtyping.Basic

/-!
# The rules of subtyping one by one

`Registry.subtype` for each shape of the two types, in the order in which the shapes are tried.
-/

namespace WhileTyping

/-! ## Searching a list for itself -/

/-- Searching a list with its membership proofs is searching the list. -/
theorem allM_attach {α : Type} (l : List α) (p : α → Except TypeError Bool) :
    (l.attach.allM fun a => p a.1) = l.allM p := by
  have h : ∀ (q : α → Prop) (m : List { a // q a }),
      (m.allM fun a => p a.1) = (m.map (·.1)).allM p := by
    intro q m
    induction m with
    | nil => rfl
    | cons a m ih => simp only [List.map_cons, List.allM_cons, ih]
  rw [h, List.attach_map_subtype_val]

theorem anyM_attach {α : Type} (l : List α) (p : α → Except TypeError Bool) :
    (l.attach.anyM fun a => p a.1) = l.anyM p := by
  have h : ∀ (q : α → Prop) (m : List { a // q a }),
      (m.anyM fun a => p a.1) = (m.map (·.1)).anyM p := by
    intro q m
    induction m with
    | nil => rfl
    | cons a m ih => simp only [List.map_cons, List.anyM_cons, ih]
  rw [h, List.attach_map_subtype_val]

namespace Registry

/-! ## Shapes -/

@[simp] theorem subtype_void (reg : Registry) (sup : Ty) (trail : Trail) :
    reg.subtype sup .void trail = .ok true := by
  rw [subtype]

/-- A primitive type is below itself. -/
theorem subtype_primitive (reg : Registry) {t : Ty} (h : t.isPrimitive = true) (trail : Trail) :
    reg.subtype t t trail = .ok true := by
  cases t with
  | bool | char | int | string => rw [subtype]
  | void | inferred | array | record | named | union => cases h

@[simp] theorem subtype_array (reg : Registry) (s t : Ty) (trail : Trail) :
    reg.subtype (.array s) (.array t) trail = reg.subtype s t trail := by
  rw [subtype]

/-- The upper record may have fewer fields. Those it has are compared in order. -/
theorem subtype_record (reg : Registry) (fs gs : List Field) (trail : Trail) :
    reg.subtype (.record fs) (.record gs) trail =
      if gs.length < fs.length then .ok false
      else (fs.zip gs).allM fun p =>
        if p.1.name = p.2.name then reg.subtype p.1.ty p.2.ty trail else .ok false := by
  rw [subtype]
  split
  · rfl
  · exact allM_attach (fs.zip gs) fun p =>
      if p.1.name = p.2.name then reg.subtype p.1.ty p.2.ty trail else .ok false

@[simp] theorem subtype_named_self (reg : Registry) (n : String) (trail : Trail) :
    reg.subtype (.named n) (.named n) trail = .ok true := by
  rw [subtype.eq_def]
  simp

/-- An alias above is looked up first, and its body compared unless the pair is on the trail. -/
theorem subtype_named_left (reg : Registry) {m : String} {sub : Ty} (trail : Trail)
    (hvoid : sub ≠ .void) (hself : sub ≠ .named m) :
    reg.subtype (.named m) sub trail =
      match reg.alias? m with
      | none => .error ⟨.unknownType m, none⟩
      | some body =>
        if trail.any fun p => p.1.same (.named m) && p.2.same sub then .ok true
        else reg.subtype body sub ((.named m, sub) :: trail) := by
  rw [subtype, if_neg hself]
  · split
    · rename_i h
      rw [h]
    · rename_i body h
      rw [h]
      rfl
  · exact hvoid

/-- An alias below is looked up only if the upper type is none. -/
theorem subtype_named_right (reg : Registry) {sup : Ty} (n : String) (trail : Trail)
    (hsup : ∀ m, sup ≠ .named m) :
    reg.subtype sup (.named n) trail =
      match reg.alias? n with
      | none => .error ⟨.unknownType n, none⟩
      | some body =>
        if trail.any fun p => p.1.same sup && p.2.same (.named n) then .ok true
        else reg.subtype sup body ((sup, .named n) :: trail) := by
  rw [subtype]
  · split
    · rename_i h
      rw [h]
    · rename_i body h
      rw [h]
      rfl
  · exact hsup

/-- Of two unions, each member of the lower is searched for an upper one. -/
theorem subtype_union_union (reg : Registry) (ss ts : List Ty) (trail : Trail) :
    reg.subtype (.union ss) (.union ts) trail =
      ts.allM fun t => ss.anyM fun s => reg.subtype s t trail := by
  rw [subtype]
  refine Eq.trans ?_ (allM_attach ts fun t => ss.anyM fun s => reg.subtype s t trail)
  congr 1
  funext t
  exact anyM_attach ss fun s => reg.subtype s t.1 trail

/-- A type that is no union is searched for an upper member. -/
theorem subtype_union_left (reg : Registry) (ss : List Ty) {sub : Ty} (trail : Trail)
    (hvoid : sub ≠ .void) (hnamed : ∀ n, sub ≠ .named n) (hunion : ∀ ts, sub ≠ .union ts) :
    reg.subtype (.union ss) sub trail = ss.anyM fun s => reg.subtype s sub trail := by
  rw [subtype]
  · exact anyM_attach ss fun s => reg.subtype s sub trail
  · exact hvoid
  · exact hnamed
  · exact hunion

/-- All members of a lower union are compared with the upper type. -/
theorem subtype_union_right (reg : Registry) {sup : Ty} (ts : List Ty) (trail : Trail)
    (hnamed : ∀ m, sup ≠ .named m) (hunion : ∀ ss, sup ≠ .union ss) :
    reg.subtype sup (.union ts) trail = ts.allM fun t => reg.subtype sup t trail := by
  rw [subtype]
  · exact allM_attach ts fun t => reg.subtype sup t trail
  · exact hnamed
  · exact hunion

end Registry

end WhileTyping
