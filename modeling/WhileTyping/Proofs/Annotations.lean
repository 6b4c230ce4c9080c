import WhileTyping.Proofs.SettledTypes

/-!
# Types left on expressions

An expression that starts without types and passes its check ends with a type at every node, and the
type it is found to have is the one at its root. These types inherit the properties of the variables
in scope: in settled surroundings they are settled.

* **`Blank`**, **`Filled`**: type slots that are all empty, or all hold types of a property.
* **`Env.All`**, **`Env.Settled`**: every variable in scope holds a type of a property, or a settled
  type.
* **`checkCall_ends`**: what a call that passes its check has been checked for.
* **`Expr.synth_filled`**: the result for an expression. The induction follows the syntax, together
  with lists of operands, arguments and record fields.
-/

namespace WhileTyping

/-! ## Slots -/

/-- No slot holds a type. -/
def Blank (slots : List (Option Ty)) : Prop := ∀ s ∈ slots, s = none

/-- Every slot holds a type, and the type has the property. -/
def Filled (P : Ty → Prop) (slots : List (Option Ty)) : Prop :=
  ∀ s ∈ slots, ∃ t, s = some t ∧ P t

theorem blank_cons {s : Option Ty} {slots : List (Option Ty)} :
    Blank (s :: slots) ↔ s = none ∧ Blank slots :=
  List.forall_mem_cons

theorem blank_append {slots slots' : List (Option Ty)} :
    Blank (slots ++ slots') ↔ Blank slots ∧ Blank slots' :=
  List.forall_mem_append

section Filled

variable {P : Ty → Prop}

theorem filled_nil : Filled P [] := nofun

theorem filled_cons {t : Ty} {slots : List (Option Ty)} :
    Filled P (some t :: slots) ↔ P t ∧ Filled P slots := by
  simp [Filled]

theorem filled_append {slots slots' : List (Option Ty)} :
    Filled P (slots ++ slots') ↔ Filled P slots ∧ Filled P slots' :=
  List.forall_mem_append

/-- The type at the root of an expression is one of the types that fill its slots. -/
theorem Expr.of_filled {e : Expr} {t : Ty} (ht : e.ty = some t) (h : Filled P e.slots) : P t := by
  obtain ⟨form, span, ty⟩ := e
  cases ht
  rw [Expr.slots] at h
  exact (filled_cons.1 h).1

end Filled

/-- The variables of an environment hold types of a property. -/
def Env.All (P : Ty → Prop) (env : Env) : Prop := ∀ x t, env.current? x = some t → P t

/-- The variables of an environment hold settled types. -/
def Env.Settled (reg : Registry) (env : Env) : Prop :=
  ∀ x t, env.current? x = some t → reg.Settled t

/-! ## Rules -/

/-- The result of a binary operator is of a primitive type, whatever the operands. -/
theorem BinaryOp.isPrimitive_of_resultType {op : BinaryOp} {reg : Registry} {lt rt t : Ty}
    {lspan rspan : Option Span} (h : op.resultType reg lt rt lspan rspan = .ok t) :
    t.isPrimitive = true := by
  cases op <;> simp only [resultType, bind_eq_ok, pure_eq_ok] at h
  case eq | ne => exact h ▸ rfl
  all_goals
    obtain ⟨_, -, rfl⟩ := h
    rfl

/-- The result of a unary operator is of a primitive type. -/
theorem UnaryOp.isPrimitive_of_resultType {op : UnaryOp} {reg : Registry} {t u : Ty}
    {span : Option Span} (h : op.resultType reg t span = .ok u) : u.isPrimitive = true := by
  cases op <;> simp only [resultType, bind_eq_ok, pure_eq_ok] at h
  all_goals
    obtain ⟨_, -, rfl⟩ := h
    rfl

/-- A call that passes its check is of a declared method with as many parameters as arguments. -/
theorem checkCall_ends {reg : Registry} {method : String} {args args' : List Expr}
    {span : Option Span} {valueRequired : Bool} {visitArgs : List Ty → Visit (List Expr) Unit}
    {t : Ty} (h : (checkCall reg method args span valueRequired visitArgs).Ends args' t) :
    ∃ sig, reg.method? method = some sig ∧ args.length = sig.params.length ∧
      (visitArgs sig.params).Ends args' () ∧ t = sig.ret ∧
      (valueRequired = true → sig.ret.expectNoVoid span = .ok ()) := by
  unfold checkCall at h
  split at h
  · cases h.2
  · -- the method is known, and has as many parameters as there are arguments
    rename_i sig hsig
    split at h
    · rename_i hlen
      rw [Visit.ends_andThen] at h
      obtain ⟨args₁, ⟨⟩, hargs, rfl, hret⟩ := h
      refine ⟨sig, hsig, hlen, hargs, ?_⟩
      -- only a call whose value is used must not return `void`
      cases valueRequired with
      | true =>
        simp only [if_true, Check.result_bind_eq_ok, Check.result_lift, Check.result_pure] at hret
        obtain ⟨⟨⟩, hvoid, hret⟩ := hret
        cases hret
        exact ⟨rfl, fun _ => hvoid⟩
      | false =>
        cases hret
        exact ⟨rfl, fun hfalse => absurd hfalse Bool.false_ne_true⟩
    · cases h.2

/-! ## Expressions -/

section Expressions

variable {reg : Registry} {env : Env} {P : Ty → Prop}

mutual
/-- An expression without types that passes its check has a type at every node, the type it is found
to have at its root, and all of them with the property. -/
theorem Expr.synth_filled (hP : reg.Hereditary P) (henv : env.All P) :
    ∀ (e : Expr) {e' : Expr} {t : Ty}, Blank e.slots →
    (e.synth reg env).Ends e' t → e'.ty = some t ∧ Filled P e'.slots
  | ⟨form, span, some u⟩, e', t, hblank, h => by
    -- a full slot would be taken as it is
    rw [Expr.slots] at hblank
    cases (blank_cons.1 hblank).1
  | ⟨form, span, none⟩, e', t, hblank, h => by
    rw [Expr.slots] at hblank
    simp only [Expr.synth, Visit.ends_andThen, Visit.ends_mk, Check.result_pure] at h
    obtain ⟨form', u, hform, rfl, hu⟩ := h
    cases hu
    obtain ⟨ht, hfilled⟩ := ExprForm.synth_filled hP henv form (blank_cons.1 hblank).2 hform
    rw [Expr.slots]
    exact ⟨rfl, filled_cons.2 ⟨ht, hfilled⟩⟩

/-- By cases on the expression, each of which finds a type that has the property with its parts. -/
theorem ExprForm.synth_filled (hP : reg.Hereditary P) (henv : env.All P) :
    ∀ (form : ExprForm) {span : Option Span} {form' : ExprForm}
    {t : Ty}, Blank (Expr.slotsForm form) → (form.synth reg env span).Ends form' t →
      P t ∧ Filled P (Expr.slotsForm form')
  | .binary op l r, span, form', t, hblank, h => by
    rw [Expr.slotsForm, blank_append] at hblank
    simp only [ExprForm.synth, Visit.ends_andThen, Visit.ends_mk, Check.result_lift] at h
    obtain ⟨l', lt, hl, r', rt, hr, rfl, ht⟩ := h
    rw [Expr.slotsForm, filled_append]
    exact ⟨hP.primitive (BinaryOp.isPrimitive_of_resultType ht),
      (Expr.synth_filled hP henv l hblank.1 hl).2, (Expr.synth_filled hP henv r hblank.2 hr).2⟩
  | .constant v, span, form', t, hblank, h => by
    obtain ⟨rfl, ht⟩ := Visit.ends_mk.1 h
    exact ⟨v.of_typeOf hP ht, filled_nil⟩
  | .index source position, span, form', t, hblank, h => by
    rw [Expr.slotsForm, blank_append] at hblank
    simp only [ExprForm.synth, Visit.ends_andThen, Visit.ends_mk, Check.result_lift] at h
    obtain ⟨source', st, hsource, position', pt, hposition, rfl, ht⟩ := h
    obtain ⟨hst, hfilled⟩ := Expr.synth_filled hP henv source hblank.1 hsource
    rw [Expr.slotsForm, filled_append]
    exact ⟨hP.of_elementType (Expr.of_filled hst hfilled) ht,
      hfilled, (Expr.synth_filled hP henv position hblank.2 hposition).2⟩
  -- the type of a call is that of the signature, so nothing is asked of the arguments for it
  | .call method args, span, form', t, hblank, h => by
    rw [Expr.slotsForm] at hblank
    rw [ExprForm.synth, Visit.ends_within] at h
    obtain ⟨args', hcall, rfl⟩ := h
    obtain ⟨sig, hsig, hlen, hargs, rfl, -⟩ := checkCall_ends hcall
    exact ⟨hP.returns sig (List.mem_of_find?_eq_some hsig),
      Expr.synthArgs_filled hP henv args hlen hblank hargs⟩
  | .fill value size, span, form', t, hblank, h => by
    rw [Expr.slotsForm, blank_append] at hblank
    simp only [ExprForm.synth, Visit.ends_andThen, Visit.ends_mk, Check.result_bind_eq_ok,
      Check.result_pure] at h
    obtain ⟨value', u, hvalue, size', st, hsize, rfl, _, -, ht⟩ := h
    cases ht
    obtain ⟨hu, hfilled⟩ := Expr.synth_filled hP henv value hblank.1 hvalue
    rw [Expr.slotsForm, filled_append]
    exact ⟨hP.array.2 (Expr.of_filled hu hfilled), hfilled,
      (Expr.synth_filled hP henv size hblank.2 hsize).2⟩
  | .array items, span, form', t, hblank, h => by
    rw [Expr.slotsForm] at hblank
    simp only [ExprForm.synth, Visit.ends_andThen, Visit.ends_mk, Check.result_bind_eq_ok,
      Check.result_pure] at h
    obtain ⟨items', ts, hitems, rfl, bound, hbound, ht⟩ := h
    cases ht
    obtain ⟨hts, hfilled⟩ := Expr.synthAll_filled hP henv items hblank hitems
    exact ⟨hP.array.2 (hP.of_leastUpperBound hts hbound), hfilled⟩
  | .field source name, span, form', t, hblank, h => by
    rw [Expr.slotsForm] at hblank
    simp only [ExprForm.synth, Visit.ends_andThen, Visit.ends_mk] at h
    obtain ⟨source', st, hsource, rfl, ht⟩ := h
    obtain ⟨hst, hfilled⟩ := Expr.synth_filled hP henv source hblank hsource
    exact ⟨hP.of_fieldType (Expr.of_filled hst hfilled) ht,
      hfilled⟩
  | .record fields, span, form', t, hblank, h => by
    rw [Expr.slotsForm] at hblank
    simp only [ExprForm.synth, Visit.ends_andThen, Visit.ends_mk, Check.result_pure] at h
    obtain ⟨fields', fs, hfields, rfl, ht⟩ := h
    cases ht
    obtain ⟨hfs, hfilled⟩ := FieldInit.synthAll_filled hP henv fields hblank hfields
    exact ⟨hfs.2, hfilled⟩
  | .unary op operand, span, form', t, hblank, h => by
    rw [Expr.slotsForm] at hblank
    simp only [ExprForm.synth, Visit.ends_andThen, Visit.ends_mk, Check.result_lift] at h
    obtain ⟨operand', u, hoperand, rfl, ht⟩ := h
    exact ⟨hP.primitive (UnaryOp.isPrimitive_of_resultType ht),
      (Expr.synth_filled hP henv operand hblank hoperand).2⟩
  -- this is where the environment is read
  | .var x, span, form', t, hblank, h => by
    rw [ExprForm.synth, Visit.ends_mk] at h
    obtain ⟨rfl, ht⟩ := h
    split at ht
    · rename_i u hu
      cases ht
      exact ⟨henv x t hu, filled_nil⟩
    · cases ht

/-- The same for the items of an array, whose types are collected. -/
theorem Expr.synthAll_filled (hP : reg.Hereditary P) (henv : env.All P) :
    ∀ (es : List Expr) {es' : List Expr} {ts : List Ty},
    Blank (Expr.slotsAll es) → (Expr.synthAll reg env es).Ends es' ts →
      (∀ t ∈ ts, P t) ∧ Filled P (Expr.slotsAll es')
  | [], es', ts, hblank, h => by
    obtain ⟨rfl, hts⟩ := Visit.ends_mk.1 h
    cases hts
    exact ⟨nofun, filled_nil⟩
  | e :: es, es', ts, hblank, h => by
    rw [Expr.slotsAll, blank_append] at hblank
    simp only [Expr.synthAll, Visit.ends_andThen, Visit.ends_mk, Check.result_pure] at h
    obtain ⟨e', t, he, rest, us, hrest, rfl, hts⟩ := h
    cases hts
    obtain ⟨ht, hfilled⟩ := Expr.synth_filled hP henv e hblank.1 he
    obtain ⟨hus, hfilled'⟩ := Expr.synthAll_filled hP henv es hblank.2 hrest
    rw [Expr.slotsAll, filled_append]
    -- the type that is found is the one left in the first slot
    exact ⟨List.forall_mem_cons.2 ⟨Expr.of_filled ht hfilled, hus⟩, hfilled, hfilled'⟩

/-- The same for arguments, if there are as many as parameters. -/
theorem Expr.synthArgs_filled (hP : reg.Hereditary P) (henv : env.All P) :
    ∀ (es : List Expr) {span : Option Span} {params : List Ty}
    {es' : List Expr}, es.length = params.length → Blank (Expr.slotsAll es) →
      (Expr.synthArgs reg env span params es).Ends es' () → Filled P (Expr.slotsAll es')
  | [], span, params, es', hlen, hblank, h => by
    obtain ⟨rfl, -⟩ := Visit.ends_mk.1 h
    exact filled_nil
  -- arguments without a parameter are not looked at, but there are none
  | e :: es, span, [], es', hlen, hblank, h => by cases hlen
  | e :: es, span, p :: ps, es', hlen, hblank, h => by
    rw [Expr.slotsAll, blank_append] at hblank
    simp only [Expr.synthArgs, Visit.ends_andThen, Visit.ends_after, Visit.ends_within] at h
    obtain ⟨e', t, he, _, -, rest, hrest, rfl⟩ := h
    rw [Expr.slotsAll, filled_append]
    exact ⟨(Expr.synth_filled hP henv e hblank.1 he).2,
      Expr.synthArgs_filled hP henv es (Nat.succ.inj hlen) hblank.2 hrest⟩

/-- The same for the fields of a record, whose names are new as well. -/
theorem FieldInit.synthAll_filled (hP : reg.Hereditary P) (henv : env.All P) :
    ∀ (fs : List FieldInit) {span : Option Span}
    {seen : List String} {fs' : List FieldInit} {ts : List Field}, Blank (Expr.slotsFields fs) →
      (FieldInit.synthAll reg env span seen fs).Ends fs' ts →
        NewFields P seen ts ∧ Filled P (Expr.slotsFields fs')
  | [], span, seen, fs', ts, hblank, h => by
    obtain ⟨rfl, hts⟩ := Visit.ends_mk.1 h
    cases hts
    exact ⟨hP.newFields_nil, filled_nil⟩
  | ⟨n, e⟩ :: fs, span, seen, fs', ts, hblank, h => by
    rw [Expr.slotsFields, blank_append] at hblank
    unfold FieldInit.synthAll at h
    split at h
    · cases h.2
    · -- a name that was seen before has ended the visit with an error
      rename_i hn
      simp only [Visit.ends_andThen, Visit.ends_mk, Check.result_pure] at h
      obtain ⟨e', t, he, rest, us, hrest, rfl, hts⟩ := h
      cases hts
      obtain ⟨ht, hfilled⟩ := Expr.synth_filled hP henv e hblank.1 he
      obtain ⟨hus, hfilled'⟩ := FieldInit.synthAll_filled hP henv fs hblank.2 hrest
      rw [Expr.slotsFields, filled_append]
      exact ⟨hP.newFields_cons hn (Expr.of_filled ht hfilled) hus, hfilled, hfilled'⟩
end

end Expressions

end WhileTyping
