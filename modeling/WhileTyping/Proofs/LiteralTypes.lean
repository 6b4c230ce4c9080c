import Mathlib.Data.List.Forall2
import WhileTyping.Proofs.FoundTypes
import WhileTyping.Proofs.ValueSoundness

/-!
# Constants and the expressions that build them

A value can be written as one constant, or built from its scalars by array and record expressions.
Constants are typed by a recursion of their own, `Value.typeOf`. This module shows that it agrees
with the typing of expressions, and that a constant has the type it is given.

* **`Value.toExpr`**: the expression that builds a value.
* **`Value.run_synth_toExpr`**: finding its type runs like finding that of the constant: the same
  events, and the same type or error.
* **`Ty.Concrete`**: the types of constants. Comparing two of them expands no alias, so it means
  inclusion of values in every registry (`Registry.hasValue_of_subtype`).
* **`Registry.hasValue_of_raiseBound`**: so a bound of such types has the values of all of them.
* **`Value.typeOf_sound`**: a constant is a value of its type.
-/

namespace WhileTyping

/-! ## Building a value -/

namespace Value

mutual
/-- The expression that builds a value from its scalars, with the same span at every node. -/
def toExpr (span : Option Span) : Value → Expr
  | .bool b => ⟨.constant (.bool b), span, none⟩
  | .char c => ⟨.constant (.char c), span, none⟩
  | .int n => ⟨.constant (.int n), span, none⟩
  | .string s => ⟨.constant (.string s), span, none⟩
  | .array vs => ⟨.array (toExprs span vs), span, none⟩
  | .record es => ⟨.record (toInits span es), span, none⟩

/-- The items of an array, each on its own. -/
def toExprs (span : Option Span) : List Value → List Expr
  | [] => []
  | v :: vs => toExpr span v :: toExprs span vs

/-- The fields of a record, each on its own. -/
def toInits (span : Option Span) : List Entry → List FieldInit
  | [] => []
  | ⟨n, v⟩ :: es => ⟨n, toExpr span v⟩ :: toInits span es
end

end Value

/-- The type of a node without one is that of its form. -/
theorem Expr.run_synth_form (reg : Registry) (env : Env) (form : ExprForm) (span : Option Span) :
    (Expr.synth reg env ⟨form, span, none⟩).run = (form.synth reg env span).run := by
  rw [Expr.synth, Visit.run_andThen]
  exact bind_pure _

namespace Value

/-- Every expression that builds the value has the span of the whole. -/
theorem span_toExpr (span : Option Span) (v : Value) : (v.toExpr span).span = span := by
  cases v <;> rw [toExpr]

section Agreement

variable (reg : Registry) (env : Env) (span : Option Span)

mutual
/-- The expression has the type of the constant, and the same events are reported. -/
theorem run_synth_toExpr : ∀ v : Value, ((v.toExpr span).synth reg env).run = v.typeOf reg span
  | .bool _ | .char _ | .int _ | .string _ => by
    rw [toExpr, Expr.run_synth_form, ExprForm.synth]
  | .array vs => by
    rw [toExpr, Expr.run_synth_form, ExprForm.synth, Visit.run_andThen, run_synth_toExprs vs,
      typeOf]
  | .record es => by
    rw [toExpr, Expr.run_synth_form, ExprForm.synth, Visit.run_andThen, run_synth_toInits [] es,
      typeOf]

theorem run_synth_toExprs : ∀ vs : List Value,
    (Expr.synthAll reg env (toExprs span vs)).run = typesOf reg span vs
  | [] => by rw [toExprs, Expr.synthAll, typesOf]
  | v :: vs => by
    rw [toExprs, Expr.synthAll, Visit.run_andThen, run_synth_toExpr v, typesOf]
    congr 1
    funext t
    rw [Visit.run_andThen, run_synth_toExprs vs]

/-- The same for fields, with the names that were seen. -/
theorem run_synth_toInits : ∀ (seen : List String) (es : List Entry),
    (FieldInit.synthAll reg env span seen (toInits span es)).run = fieldsOf reg span seen es
  | seen, [] => by rw [toInits, FieldInit.synthAll, fieldsOf]
  | seen, ⟨n, v⟩ :: es => by
    rw [toInits, FieldInit.synthAll, fieldsOf]
    split
    · rw [span_toExpr, Option.or_self]
    · rw [Visit.run_andThen, run_synth_toExpr v]
      congr 1
      funext t
      rw [Visit.run_andThen, run_synth_toInits (n :: seen) es]
end

end Agreement

end Value

/-! ## Concrete types -/

namespace Ty

/-- A node that is neither an alias nor a union nor `var`. -/
def isShape : Ty → Bool
  | .named _ | .union _ | .inferred => false
  | _ => true

/-- No alias, union or `var` occurs. -/
def Concrete (t : Ty) : Prop := t.Everywhere fun u => u.isShape = true

/-- A type without parts is concrete if it is neither an alias nor a union. -/
theorem concrete_of_leaf {t : Ty} (hleaf : t.subterms = [t]) (hshape : t.isShape = true) :
    t.Concrete := by
  intro u hu
  rw [hleaf] at hu
  rw [List.mem_singleton.1 hu]
  exact hshape

end Ty

namespace Registry

variable {reg : Registry}

/-- A concrete type that is accepted in the place of another has no value that the other does not
have, under any registry and trail. -/
theorem hasValue_of_subtype {sup sub : Ty} {trail : Trail} (hsup : sup.Concrete)
    (hsub : sub.Concrete) (h : reg.subtype sup sub trail = .ok true) {v : Value}
    (hv : reg.HasValue sub v) : reg.HasValue sup v := by
  induction sup, sub, trail using subtype.induct reg generalizing v with
  | case1 => cases hv
  | case2 | case3 | case4 | case5 => exact hv
  | case6 trail s t ih =>
    rw [subtype_array] at h
    cases hv with
    | array hvs => exact .array fun v hv => ih hsup.element hsub.element h (hvs v hv)
  -- a record type with fewer fields is not below
  | case7 trail fs gs hlt =>
    rw [subtype_record, if_pos hlt] at h
    cases h
  | case8 trail fs gs hlt ih =>
    rw [subtype_record, if_neg hlt, allM_eq_true_iff] at h
    cases hv with
    | record hlen hname hes =>
      have hle : fs.length ≤ gs.length := Nat.le_of_not_lt hlt
      -- a field of the upper record, the one in the same place of the lower, and the entry there
      have hfield : ∀ p ∈ fs.zip gs, p.1.name = p.2.name ∧
          reg.subtype p.1.ty p.2.ty trail = .ok true := by
        intro p hp
        have hp' := h p hp
        split at hp'
        · rename_i hname
          exact ⟨hname, hp'⟩
        · cases hp'
      refine .record (hle.trans hlen) (fun p hp => ?_) fun p hp => ?_
      · obtain ⟨g, hfg, hge⟩ := exists_zip_between hle hp
        exact (hfield _ hfg).1.trans (hname _ hge)
      · obtain ⟨g, hfg, hge⟩ := exists_zip_between hle hp
        have hf := hsup.field (List.of_mem_zip hfg).1
        have hg := hsub.field (List.of_mem_zip hfg).2
        exact ih (p.1, g) hfg hf hg (hfield _ hfg).2 (hes _ hge)
  -- an alias or a union on either side is not concrete
  | case9 | case10 | case11 | case12 | case16 | case17 =>
    exact absurd hsup.here Bool.false_ne_true
  | case13 | case14 | case15 | case18 => exact absurd hsub.here Bool.false_ne_true
  | case19 =>
    rw [subtype] at h
    · cases h
    all_goals assumption

/-- The bound of some concrete types has the values of all of them. The invariant is that the bound
so far has the values of the types before. -/
theorem hasValue_of_raiseBound {span : Option Span} {bound top : Ty} {ts : List Ty}
    (hts : ∀ t ∈ bound :: ts, t.Concrete) (h : (reg.raiseBound span bound ts).result = .ok top) :
    ∀ t ∈ bound :: ts, ∀ v, reg.HasValue t v → reg.HasValue top v := by
  induction ts generalizing bound with
  | nil =>
    cases h
    intro t ht v hv
    rw [List.mem_singleton.1 ht] at hv
    exact hv
  | cons u us ih =>
    obtain ⟨hbound, hu, hus⟩ := by simpa only [List.forall_mem_cons] using hts
    rcases raiseBound_cons_cases h with ⟨habove, h⟩ | ⟨hbelow, h⟩
    · -- the type becomes the bound, above all that the old bound was above
      obtain ⟨hraised, hrest⟩ := List.forall_mem_cons.1 (ih (List.forall_mem_cons.2 ⟨hu, hus⟩) h)
      refine List.forall_mem_cons.2 ⟨fun v hv => ?_, List.forall_mem_cons.2 ⟨hraised, hrest⟩⟩
      exact hraised v (hasValue_of_subtype hu hbound habove hv)
    · -- the bound stays, and is above the type
      obtain ⟨hkept, hrest⟩ := List.forall_mem_cons.1 (ih (List.forall_mem_cons.2 ⟨hbound, hus⟩) h)
      refine List.forall_mem_cons.2 ⟨hkept, List.forall_mem_cons.2 ⟨fun v hv => ?_, hrest⟩⟩
      exact hkept v (hasValue_of_subtype hbound hu hbelow hv)

end Registry

/-! ## Soundness -/

namespace Value

variable {reg : Registry} {span : Option Span}

/-- The value has the type, and no alias or union is needed to say so. -/
def Inhabits (reg : Registry) (v : Value) (t : Ty) : Prop := t.Concrete ∧ reg.HasValue t v

/-- An array has the bound of the types of its items for their type. -/
theorem inhabits_array {vs : List Value} {ts : List Ty} {bound : Ty}
    (hconcrete : ∀ t ∈ ts, t.Concrete) (hvs : ∀ v ∈ vs, ∃ t ∈ ts, reg.HasValue t v)
    (h : (reg.leastUpperBound ts span).result = .ok bound) :
    (Value.array vs).Inhabits reg (.array bound) := by
  have hall : ∀ t ∈ .void :: ts, t.Concrete :=
    List.forall_mem_cons.2 ⟨Ty.concrete_of_leaf rfl rfl, hconcrete⟩
  constructor
  · exact Ty.everywhere_array_iff.2 ⟨rfl, hall bound (Registry.raiseBound_mem h)⟩
  · refine .array fun v hv => ?_
    obtain ⟨t, ht, htv⟩ := hvs v hv
    exact Registry.hasValue_of_raiseBound hall h t (List.mem_cons_of_mem _ ht) v htv

/-- A record has the record type of the types its fields have. -/
theorem inhabits_record {es : List Entry} {fs : List Field} (hconcrete : ∀ f ∈ fs, f.ty.Concrete)
    (h : List.Forall₂ (fun f e => f.name = e.name ∧ reg.HasValue f.ty e.value) fs es) :
    (Value.record es).Inhabits reg (.record fs) := by
  obtain ⟨hlen, hzip⟩ := List.forall₂_iff_zip.1 h
  exact ⟨Ty.everywhere_record_iff.2 ⟨rfl, hconcrete⟩,
    .record hlen.le (fun _ hp => (hzip hp).1) fun _ hp => (hzip hp).2⟩

mutual
/-- A constant belongs to the type that is found for it. -/
theorem typeOf_sound : ∀ (v : Value) {t : Ty}, (v.typeOf reg span).result = .ok t →
    v.Inhabits reg t
  | .bool b, t, h => by
    cases h
    exact ⟨Ty.concrete_of_leaf rfl rfl, .bool b⟩
  | .char c, t, h => by
    cases h
    exact ⟨Ty.concrete_of_leaf rfl rfl, .char c⟩
  | .int n, t, h => by
    cases h
    exact ⟨Ty.concrete_of_leaf rfl rfl, .int n⟩
  | .string s, t, h => by
    cases h
    exact ⟨Ty.concrete_of_leaf rfl rfl, .string s⟩
  | .array vs, t, h => by
    simp only [typeOf, Check.result_bind_eq_ok, Check.result_pure] at h
    obtain ⟨ts, hts, bound, hbound, h⟩ := h
    cases h
    -- the bound is above every element's type, so it has every element
    obtain ⟨hconcrete, hvs⟩ := typesOf_sound vs hts
    exact inhabits_array hconcrete hvs hbound
  | .record es, t, h => by
    simp only [typeOf, Check.result_bind_eq_ok, Check.result_pure] at h
    obtain ⟨fs, hfs, h⟩ := h
    cases h
    obtain ⟨hconcrete, hes⟩ := fieldsOf_sound es hfs
    exact inhabits_record hconcrete hes

/-- Each item of an array belongs to one of the types that are found. -/
theorem typesOf_sound : ∀ (vs : List Value) {ts : List Ty},
    (typesOf reg span vs).result = .ok ts →
      (∀ t ∈ ts, t.Concrete) ∧ ∀ v ∈ vs, ∃ t ∈ ts, reg.HasValue t v
  | [], ts, h => by
    cases h
    exact ⟨fun t ht => absurd ht List.not_mem_nil, fun v hv => absurd hv List.not_mem_nil⟩
  | v :: vs, ts, h => by
    simp only [typesOf, Check.result_bind_eq_ok, Check.result_pure] at h
    obtain ⟨t, ht, rest, hrest, h⟩ := h
    cases h
    obtain ⟨hconcrete, hv⟩ := typeOf_sound v ht
    obtain ⟨hconcrete', hvs⟩ := typesOf_sound vs hrest
    refine ⟨List.forall_mem_cons.2 ⟨hconcrete, hconcrete'⟩,
      List.forall_mem_cons.2 ⟨⟨t, List.mem_cons_self .., hv⟩, fun w hw => ?_⟩⟩
    obtain ⟨u, hu, huw⟩ := hvs w hw
    exact ⟨u, List.mem_cons_of_mem _ hu, huw⟩

/-- Each field of a record belongs to the type that is found under its name. -/
theorem fieldsOf_sound : ∀ (es : List Entry) {seen : List String} {fs : List Field},
    (fieldsOf reg span seen es).result = .ok fs →
      (∀ f ∈ fs, f.ty.Concrete) ∧
        List.Forall₂ (fun f e => f.name = e.name ∧ reg.HasValue f.ty e.value) fs es
  | [], seen, fs, h => by
    cases h
    exact ⟨fun f hf => absurd hf List.not_mem_nil, .nil⟩
  | ⟨n, v⟩ :: es, seen, fs, h => by
    unfold fieldsOf at h
    split at h
    · -- a name that comes twice has no type
      cases h
    · simp only [Check.result_bind_eq_ok, Check.result_pure] at h
      obtain ⟨t, ht, rest, hrest, h⟩ := h
      cases h
      obtain ⟨hconcrete, hv⟩ := typeOf_sound v ht
      obtain ⟨hconcrete', hes⟩ := fieldsOf_sound es hrest
      exact ⟨List.forall_mem_cons.2 ⟨hconcrete, hconcrete'⟩, .cons ⟨rfl, hv⟩ hes⟩
end

/-- A constant is typed like the expression that builds it, with the same events and the same type
or error, and it is a value of its type. -/
theorem constant_typed (v : Value) (reg : Registry) (env : Env) (span : Option Span) :
    (Expr.synth reg env ⟨.constant v, span, none⟩).run = ((v.toExpr span).synth reg env).run ∧
      ∀ t, (Expr.synth reg env ⟨.constant v, span, none⟩).run.result = .ok t →
        v.Inhabits reg t := by
  have hconstant : (Expr.synth reg env ⟨.constant v, span, none⟩).run = v.typeOf reg span := by
    rw [Expr.run_synth_form, ExprForm.synth]
  rw [hconstant, run_synth_toExpr]
  exact ⟨rfl, fun t => typeOf_sound v⟩

/-- An empty array among others takes their type, and a record with an entry to spare the type of
the one without. -/
theorem constant_typed_rows :
    let row : Value := .record [⟨"cells", .array [.array [], .array [.int 1]]⟩]
    let long : Value := .record [⟨"cells", .array []⟩, ⟨"mark", .bool true⟩]
    let rows : Ty := .array (.record [⟨"cells", .array (.array .int)⟩])
    ((Value.toExpr none (.array [long, row])).synth {} {}).run.result = .ok rows ∧
      Inhabits {} (.array [long, row]) rows := by
  intro row long rows
  obtain ⟨hrun, htyped⟩ := constant_typed (.array [long, row]) {} {} none
  have htype : (Expr.synth {} {} ⟨.constant (.array [long, row]), none, none⟩).run.result =
    .ok rows := by decide +kernel
  exact ⟨hrun ▸ htype, htyped rows htype⟩

end Value

end WhileTyping
