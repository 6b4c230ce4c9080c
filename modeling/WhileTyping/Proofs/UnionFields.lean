import WhileTyping.Expr.Typing
import WhileTyping.Proofs.CircularAliases
import WhileTyping.Proofs.LeastUnion
import WhileTyping.Proofs.TypingRules

/-!
# Fields of a union of records

A field of a union of records is read through the record of the common fields. That record is made
by going through the members, and each common field is widened by its namesakes one after the other.

* **`Registry.Widened`**: how the type of one field changes over a list of namesakes. It stays where
  the two types are equivalent, and otherwise becomes their union.
* **`Registry.meetAll_widened`**: every field of the result has come about in this way, from a field
  of the first record and its namesakes in all others. What is true of a common field follows from
  this by induction on the namesakes.
* **`Registry.Widened.above`**: the type is above those of all namesakes. The invariant is that it
  is above those met so far, which takes transitivity.
* **`Registry.names_meetAll`**: which names remain.
* **`Registry.result_fieldType_union`**: both ways of missing a field, no common field at all and
  none of this name, end in the same error.
-/

namespace WhileTyping

/-- The names that all of some records have, as the first of them orders them. -/
def commonNames : List (List Field) → List String
  | [] => []
  | first :: rest =>
    (first.map Field.name).filter fun n => rest.all fun fs => (fs.map Field.name).contains n

namespace Registry

/-- The type expands to a record, and the record has a field of that name and type. -/
def FieldOf (reg : Registry) (t : Ty) (name : String) (u : Ty) : Prop :=
  ∃ fs, reg.expand t none = .ok (.record fs) ∧ (Ty.record fs).field? name = some u

/-- How the first type of a field is widened by the types of its namesakes. -/
inductive Widened (reg : Registry) : Ty → List Ty → Ty → Prop
  | done (t : Ty) : Widened reg t [] t
  | kept {t u t' : Ty} {us : List Ty} (hequiv : reg.equivalent t u = .ok true)
      (h : Widened reg t us t') : Widened reg t (u :: us) t'
  | joined {t u t' : Ty} {us : List Ty} (hequiv : reg.equivalent t u = .ok false)
      (h : Widened reg (.unionOf [t, u]) us t') : Widened reg t (u :: us) t'

variable {reg : Registry} {span : Option Span}

/-! ## The fields of a result -/

/-- The first field of the name is found. -/
theorem field?_record_cons (f : Field) (fs : List Field) (name : String) :
    (Ty.record (f :: fs)).field? name =
      if f.name = name then some f.ty else (Ty.record fs).field? name := by
  by_cases h : f.name = name <;> simp [Ty.field?, h]

/-- If names differ, every field is found under its own. -/
theorem field?_of_mem {fs : List Field} (hnames : (fs.map Field.name).Nodup) {f : Field}
    (hf : f ∈ fs) : (Ty.record fs).field? f.name = some f.ty := by
  rw [Ty.field?, (find?_eq_some_iff_mem hnames).2 ⟨hf, rfl⟩]
  rfl

/-- A step can be put before others. -/
theorem Widened.cons {t u t' t'' : Ty} {us : List Ty} (hstep : reg.Widened t [u] t')
    (h : reg.Widened t' us t'') : reg.Widened t (u :: us) t'' := by
  cases hstep with
  | kept hequiv hdone =>
    cases hdone
    exact .kept hequiv h
  | joined hequiv hdone =>
    cases hdone
    exact .joined hequiv h

/-- A field keeps its name, and its type is widened by that of its namesake. -/
theorem widenField_widened {f g w : Field} (h : reg.widenField span f g = .ok w) :
    w.name = f.name ∧ reg.Widened f.ty [g.ty] w.ty := by
  simp only [widenField, bind_eq_ok, located_eq_ok] at h
  obtain ⟨equiv, hequiv, h⟩ := h
  cases equiv with
  | true =>
    cases h
    exact ⟨rfl, .kept hequiv (.done _)⟩
  | false =>
    cases h
    exact ⟨rfl, .joined hequiv (.done _)⟩

/-- A field that is left has come from the field of that name in the list, widened by the field of
that name in the record. -/
theorem meetFields_widened {record fs ws : List Field} (h : reg.meetFields span record fs = .ok ws)
    {name : String} {t : Ty} (ht : (Ty.record ws).field? name = some t) :
    ∃ u v, (Ty.record fs).field? name = some u ∧ (Ty.record record).field? name = some v ∧
      reg.Widened u [v] t := by
  induction fs generalizing ws with
  | nil =>
    cases h
    cases ht
  | cons f fs ih =>
    unfold meetFields at h
    split at h
    · rename_i hnone
      obtain ⟨u, v, hu, hv, hwidened⟩ := ih h ht
      -- the field is dropped as the record lacks it, so it is not the one asked for
      have hname : f.name ≠ name := by
        rintro rfl
        rw [Ty.field?, hnone] at hv
        cases hv
      exact ⟨u, v, by rw [field?_record_cons, if_neg hname, hu], hv, hwidened⟩
    · rename_i g hg
      simp only [bind_eq_ok, pure_eq_ok] at h
      obtain ⟨w, hw, rest, hrest, rfl⟩ := h
      obtain ⟨hname, hwidened⟩ := widenField_widened hw
      rw [field?_record_cons, hname] at ht
      rw [field?_record_cons]
      by_cases hf : f.name = name
      · -- the field asked for is this one, and its namesake has been found
        rw [if_pos hf] at ht ⊢
        cases ht
        exact ⟨f.ty, g.ty, rfl, by rw [← hf, Ty.field?, hg]; rfl, hwidened⟩
      · rw [if_neg hf] at ht ⊢
        exact ih hrest ht

/-- Every common field comes from the first record, and is widened by its namesakes in the others,
in their order. -/
theorem meetAll_widened {first ws : List Field} {rest : List (List Field)}
    (h : reg.meetAll span first rest = .ok ws) {name : String} {t : Ty}
    (ht : (Ty.record ws).field? name = some t) :
    ∃ u us, (first :: rest).map (fun fs => (Ty.record fs).field? name) = (u :: us).map some ∧
      reg.Widened u us t := by
  induction rest generalizing first with
  | nil =>
    cases h
    exact ⟨t, [], by rw [List.map_cons, ht]; rfl, .done t⟩
  | cons record rest ih =>
    simp only [meetAll, bind_eq_ok] at h
    obtain ⟨met, hmet, h⟩ := h
    -- what two records have in common stands in for them in the rest
    obtain ⟨m, us, hus, hwidened⟩ := ih h
    rw [List.map_cons, List.map_cons, List.cons.injEq] at hus
    obtain ⟨u, v, hu, hv, hstep⟩ := meetFields_widened hmet hus.1
    refine ⟨u, v :: us, ?_, hstep.cons hwidened⟩
    rw [List.map_cons, List.map_cons, hu, hv, hus.2]
    rfl

/-- The types that a field is made from are those it has in the records. -/
theorem mem_namesakes {records : List (List Field)} {name : String} {us : List Ty}
    (h : records.map (fun fs => (Ty.record fs).field? name) = us.map some) {u : Ty} :
    u ∈ us ↔ ∃ fs ∈ records, (Ty.record fs).field? name = some u := by
  rw [← List.mem_map_of_injective (Option.some_injective _), ← h, List.mem_map]

/-! ## Their names -/

/-- A field is found if its name is there. -/
theorem isSome_field?_record (fs : List Field) (name : String) :
    ((Ty.record fs).field? name).isSome = (fs.map Field.name).contains name := by
  rw [Ty.field?, Option.isSome_map, List.isSome_find?, List.contains_eq_any_beq, List.any_map]
  exact congrArg (List.any fs) (funext fun f => BEq.comm)

/-- Two records have the names in common that both have, in the order of the first. -/
theorem names_meetFields {record fs ws : List Field} (h : reg.meetFields span record fs = .ok ws) :
    ws.map Field.name = (fs.map Field.name).filter (record.map Field.name).contains := by
  induction fs generalizing ws with
  | nil =>
    cases h
    rfl
  | cons f fs ih =>
    have hsome := isSome_field?_record record f.name
    unfold meetFields at h
    split at h
    · -- the record has no field of the name, so the filter drops it as well
      rename_i hnone
      rw [Ty.field?, hnone] at hsome
      rw [ih h, List.map_cons, List.filter_cons_of_neg]
      exact Bool.not_eq_true _ ▸ hsome.symm
    · rename_i g hg
      rw [Ty.field?, hg] at hsome
      simp only [bind_eq_ok, pure_eq_ok] at h
      obtain ⟨w, hw, rest, hrest, rfl⟩ := h
      rw [List.map_cons, List.map_cons, List.filter_cons_of_pos hsome.symm, ih hrest,
        (widenField_widened hw).1]

/-- The names that remain are those that all records have. -/
theorem names_meetAll {first ws : List Field} {rest : List (List Field)}
    (h : reg.meetAll span first rest = .ok ws) :
    ws.map Field.name = commonNames (first :: rest) := by
  induction rest generalizing first with
  | nil =>
    cases h
    exact (List.filter_eq_self.2 fun _ _ => rfl).symm
  | cons record records ih =>
    simp only [meetAll, bind_eq_ok] at h
    obtain ⟨met, hmet, h⟩ := h
    rw [ih h, commonNames, commonNames, names_meetFields hmet, List.filter_filter]
    refine List.filter_congr fun n _ => ?_
    rw [List.all_cons, Bool.and_comm]

/-- A name is common to some records if each of them has a field of that name. -/
theorem mem_commonNames {first : List Field} {rest : List (List Field)} {name : String} :
    name ∈ commonNames (first :: rest) ↔
      ∀ fs ∈ first :: rest, ∃ u, (Ty.record fs).field? name = some u := by
  have hname : ∀ fs : List Field, (fs.map Field.name).contains name = true ↔
      ∃ u, (Ty.record fs).field? name = some u := by
    intro fs
    rw [← isSome_field?_record, Option.isSome_iff_exists]
  rw [commonNames, List.mem_filter, List.forall_mem_cons, ← hname, List.contains_iff_mem,
    List.all_eq_true]
  simp only [hname]

/-! ## Their types -/

section Orderly

variable (hwf : WellFounded reg.Unfolds) (hreg : reg.Bodies reg.Orderly)

include hwf hreg in
/-- A widened type is above the type it started from and those it was widened by. -/
theorem Widened.above {t t' : Ty} {us : List Ty} (h : reg.Widened t us t') (ht : reg.Orderly t)
    (hus : ∀ u ∈ us, reg.Orderly u) :
    reg.Orderly t' ∧ reg.Below t' t ∧ ∀ u ∈ us, reg.Below t' u := by
  induction h with
  | done t => exact ⟨ht, below_refl ht.noInferred, fun u hu => absurd hu List.not_mem_nil⟩
  | @kept t u t' us hequiv _ ih =>
    obtain ⟨hu, hus⟩ := List.forall_mem_cons.1 hus
    obtain ⟨ht', habove, hothers⟩ := ih ht hus
    -- equivalent, so above what is above it
    have htu : reg.Below t u :=
      (isSubtype_iff_below_of_orderly hreg ht hu).1 (equivalent_eq_true_iff.1 hequiv).1
    exact ⟨ht', habove, List.forall_mem_cons.2
      ⟨below_trans_of_orderly hwf hreg ht' hu habove htu, hothers⟩⟩
  | @joined t u t' us _ _ ih =>
    obtain ⟨hu, hus⟩ := List.forall_mem_cons.1 hus
    have hboth : ∀ s ∈ [t, u], reg.Orderly s := by simp [ht, hu]
    have hunion : reg.Orderly (.unionOf [t, u]) := orderly_unionOf (List.cons_ne_nil _ _) hboth
    obtain ⟨ht', habove, hothers⟩ := ih hunion hus
    -- the end is above the union, and the union above both of its parts
    have hpart : ∀ s ∈ [t, u], reg.Below t' s := fun s hs =>
      below_trans_of_orderly hwf hreg ht' (hboth s hs) habove (below_unionOf hwf hreg hboth hs)
    exact ⟨ht', hpart t (by simp), List.forall_mem_cons.2 ⟨hpart u (by simp), hothers⟩⟩

include hreg in
/-- Fields of orderly types can be widened, as their types can be compared. -/
theorem exists_widenField (span : Option Span) {f g : Field} (hf : reg.Orderly f.ty)
    (hg : reg.Orderly g.ty) : ∃ w, reg.widenField span f g = .ok w := by
  obtain ⟨above, habove⟩ := exists_answer hreg hf hg
  obtain ⟨below, hbelow⟩ := exists_answer hreg hg hf
  cases above <;> cases below <;>
    exact ⟨_, by simp only [widenField, equivalent, habove, hbelow]; rfl⟩

include hreg in
/-- So can all fields of a record. -/
theorem exists_meetFields (span : Option Span) {record fs : List Field}
    (hrecord : ∀ g ∈ record, reg.Orderly g.ty) (hfs : ∀ f ∈ fs, reg.Orderly f.ty) :
    ∃ ws, reg.meetFields span record fs = .ok ws := by
  induction fs with
  | nil => exact ⟨[], rfl⟩
  | cons f fs ih =>
    obtain ⟨hf, hfs⟩ := List.forall_mem_cons.1 hfs
    obtain ⟨rest, hrest⟩ := ih hfs
    unfold meetFields
    split
    · exact ⟨rest, hrest⟩
    · rename_i g hg
      obtain ⟨w, hw⟩ := exists_widenField hreg span hf
        (hrecord g (List.mem_of_find?_eq_some hg))
      exact ⟨w :: rest, by rw [hw, hrest]; rfl⟩

/-- A field that is found is one of them. -/
theorem orderly_of_field? {fs : List Field} {name : String} {u : Ty}
    (hfs : ∀ f ∈ fs, reg.Orderly f.ty) (h : (Ty.record fs).field? name = some u) :
    reg.Orderly u := by
  obtain ⟨f, hf, rfl⟩ := Option.map_eq_some_iff.1 h
  exact hfs f (List.mem_of_find?_eq_some hf)

include hwf hreg in
/-- Records whose fields have orderly types have common fields. -/
theorem exists_meetAll (span : Option Span) {first : List Field} {rest : List (List Field)}
    (hnames : (first.map Field.name).Nodup)
    (hrecords : ∀ fs ∈ first :: rest, ∀ f ∈ fs, reg.Orderly f.ty) :
    ∃ ws, reg.meetAll span first rest = .ok ws := by
  induction rest generalizing first with
  | nil => exact ⟨first, rfl⟩
  | cons record rest ih =>
    obtain ⟨hfirst, hothers⟩ := List.forall_mem_cons.1 hrecords
    obtain ⟨hrecord, hrest⟩ := List.forall_mem_cons.1 hothers
    obtain ⟨met, hmet⟩ := exists_meetFields hreg span hrecord hfirst
    have hnodup : (met.map Field.name).Nodup := by
      rw [names_meetFields hmet]
      exact hnames.filter _
    -- widened types can be compared with those of the next record
    have horderly : ∀ w ∈ met, reg.Orderly w.ty := by
      intro w hw
      obtain ⟨u, v, hu, hv, hwidened⟩ := meetFields_widened hmet (field?_of_mem hnodup hw)
      have hv := orderly_of_field? hrecord hv
      exact (hwidened.above hwf hreg (orderly_of_field? hfirst hu) (by simpa using hv)).1
    obtain ⟨ws, hws⟩ := ih hnodup (List.forall_mem_cons.2 ⟨horderly, hrest⟩)
    exact ⟨ws, by rw [meetAll, hmet]; exact hws⟩

include hwf hreg in
/-- The type of a common field is above the type that each record gives to a field of that name. -/
theorem meetAll_above {first ws : List Field} {rest : List (List Field)}
    (hrecords : ∀ fs ∈ first :: rest, ∀ f ∈ fs, reg.Orderly f.ty)
    (h : reg.meetAll span first rest = .ok ws) {name : String} {t : Ty}
    (ht : (Ty.record ws).field? name = some t) :
    reg.Orderly t ∧
      ∀ fs ∈ first :: rest, ∃ u, (Ty.record fs).field? name = some u ∧ reg.Below t u := by
  obtain ⟨u, us, hus, hwidened⟩ := meetAll_widened h ht
  have horderly : ∀ v ∈ u :: us, reg.Orderly v := by
    intro v hv
    obtain ⟨fs, hfs, hfield⟩ := (mem_namesakes hus).1 hv
    exact orderly_of_field? (hrecords fs hfs) hfield
  obtain ⟨hu, hothers⟩ := List.forall_mem_cons.1 horderly
  obtain ⟨ht', habove⟩ := hwidened.above hwf hreg hu hothers
  refine ⟨ht', fun fs hfs => ?_⟩
  -- each record has one of the types that went into the result
  have hmem : (Ty.record fs).field? name ∈ (u :: us).map some := hus ▸ List.mem_map_of_mem hfs
  obtain ⟨v, hv, hfield⟩ := List.mem_map.1 hmem
  exact ⟨v, hfield.symm, List.forall_mem_cons.2 habove v hv⟩

end Orderly

/-! ## Reading a field -/

/-- Records with no field in common have no record in common. -/
theorem result_commonRecord {first ws : List Field} {rest : List (List Field)}
    (h : reg.meetAll span first rest = .ok ws) :
    (reg.commonRecord (first :: rest) span).result =
      .ok (if ws = [] then none else some (.record ws)) := by
  rw [commonRecord, Check.result_bind, Check.result_lift, h]
  cases ws <;> rfl

/-- The record of the common fields: their names, and their types. -/
theorem exists_commonRecord (hwf : WellFounded reg.Unfolds) (hreg : reg.Bodies reg.Orderly)
    (span : Option Span) {first : List Field} {rest : List (List Field)}
    (hnames : (first.map Field.name).Nodup)
    (hrecords : ∀ fs ∈ first :: rest, ∀ f ∈ fs, reg.Orderly f.ty) :
    ∃ ws, (reg.commonRecord (first :: rest) span).result =
        .ok (if ws = [] then none else some (.record ws)) ∧
      ws.map Field.name = commonNames (first :: rest) ∧
      ∀ w ∈ ws, ∀ fs ∈ first :: rest, ∃ u, (Ty.record fs).field? w.name = some u ∧
        reg.isSubtype w.ty u = .ok true := by
  obtain ⟨ws, hws⟩ := exists_meetAll hwf hreg span hnames hrecords
  have hcommon := names_meetAll hws
  -- the names in common are some of those of the first record, which differ
  have hnodup : (ws.map Field.name).Nodup := by
    rw [hcommon, commonNames]
    exact hnames.filter _
  refine ⟨ws, result_commonRecord hws, hcommon, fun w hw fs hfs => ?_⟩
  obtain ⟨hw', habove⟩ := meetAll_above hwf hreg hrecords hws (field?_of_mem hnodup hw)
  obtain ⟨u, hu, hbelow⟩ := habove fs hfs
  have hu' := orderly_of_field? (hrecords fs hfs) hu
  exact ⟨u, hu, (isSubtype_iff_below_of_orderly hreg hw' hu').2 hbelow⟩

/-- Types that all expand to records are recognised as such. -/
theorem exists_recordsOf? (span : Option Span) {ts : List Ty}
    (h : ∀ t ∈ ts, ∃ fs, reg.expand t none = .ok (.record fs)) :
    ∃ records, reg.recordsOf? span ts = .ok (some records) ∧
      ∀ fs, fs ∈ records ↔ ∃ t ∈ ts, reg.expand t none = .ok (.record fs) := by
  induction ts with
  | nil => exact ⟨[], rfl, by simp⟩
  | cons t ts ih =>
    obtain ⟨⟨fs, hfs⟩, hts⟩ := List.forall_mem_cons.1 h
    obtain ⟨records, hrecords, hmem⟩ := ih hts
    -- the span matters to errors only
    have hexpand : reg.expand t span = .ok (.record fs) := mapError_eq_ok.2 (mapError_eq_ok.1 hfs)
    refine ⟨fs :: records, ?_, fun gs => ?_⟩
    · rw [recordsOf?, hexpand, hrecords]
      rfl
    · rw [List.mem_cons, List.exists_mem_cons_iff, hmem, hfs, Except.ok.injEq, Ty.record.injEq,
        eq_comm]

/-- Of a union of records, the fields they have in common are accessed. -/
theorem result_accessTarget_union {source : Ty} {name : String} {ts : List Ty}
    {records : List (List Field)} (hexpand : reg.expand source none = .ok (.union ts))
    (hrecords : reg.recordsOf? span ts = .ok (some records)) :
    (reg.accessTarget source name span).result =
      (reg.commonRecord records span).result >>= fun
        | some record => .ok record
        | none => .error ⟨.unknownField name source, span⟩ := by
  have hexpand : reg.expand source span = .ok (.union ts) :=
    mapError_eq_ok.2 (mapError_eq_ok.1 hexpand)
  simp only [accessTarget, Check.result_bind, Check.result_lift, Check.result_report, hexpand,
    hrecords, Except.bind]
  cases (reg.commonRecord records span).result with
  | error e => rfl
  | ok common => cases common <;> rfl

/-- A field of a union of records is looked up among the common fields. Whether they lack it or
there are none, the error is the same. -/
theorem result_fieldType_union {source : Ty} {sourceSpan : Option Span} {name : String}
    {ts : List Ty} {first ws : List Field} {rest : List (List Field)}
    (hexpand : reg.expand source none = .ok (.union ts))
    (hrecords : reg.recordsOf? span ts = .ok (some (first :: rest)))
    (hws : reg.meetAll span first rest = .ok ws) :
    (reg.fieldType source sourceSpan name span).result =
      match (Ty.record ws).field? name with
      | some t => .ok t
      | none => .error ⟨.unknownField name source, span⟩ := by
  -- without any field in common, the error is that of a missing field as well
  have htarget : (reg.accessTarget source name span).result =
      if ws = [] then .error ⟨.unknownField name source, span⟩ else .ok (.record ws) := by
    rw [result_accessTarget_union hexpand hrecords, result_commonRecord hws]
    split_ifs <;> rfl
  rw [fieldType, Check.result_bind, htarget]
  cases ws with
  | nil => rfl
  | cons w ws =>
    have hkind : reg.expectKind (.record (w :: ws)) (.single .record) sourceSpan =
      .ok (.record (w :: ws)) := rfl
    simp only [reduceCtorEq, if_false, Except.bind, Check.result_bind, Check.result_lift, hkind]
    cases (Ty.record (w :: ws)).field? name <;> rfl

/-- A node without a type has the type that its rule finds. -/
theorem result_synth_field {env : Env} {source : Expr} {name : String} {s : Ty}
    (h : (source.synth reg env).run.result = .ok s) :
    (Expr.synth reg env ⟨.field source name, span, none⟩).run.result =
      (reg.fieldType s (source.synth reg env).left.span name span).result := by
  rw [Expr.synth, Visit.run_andThen, Check.result_bind, ExprForm.synth, Visit.run_andThen,
    Check.result_bind, h]
  show Except.bind (reg.fieldType s _ name span).result Except.ok = _
  cases (reg.fieldType s _ name span).result <;> rfl

/-- A type has one field of a name, since it has one expansion. -/
theorem FieldOf.unique {t u u' : Ty} {name : String} (h : reg.FieldOf t name u)
    (h' : reg.FieldOf t name u') : u = u' := by
  obtain ⟨fs, hfs, hu⟩ := h
  obtain ⟨fs', hfs', hu'⟩ := h'
  cases hfs.symm.trans hfs'
  exact Option.some.inj (hu.symm.trans hu')

/-- All of some types have a field if all the records they expand to have it. -/
theorem forall_fieldOf_iff {ts : List Ty} {records : List (List Field)} {name : String}
    {P : Ty → Prop} (hmembers : ∀ m ∈ ts, ∃ fs, reg.expand m none = .ok (.record fs))
    (hrecords : ∀ fs, fs ∈ records ↔ ∃ m ∈ ts, reg.expand m none = .ok (.record fs)) :
    (∀ m ∈ ts, ∃ u, reg.FieldOf m name u ∧ P u) ↔
      ∀ fs ∈ records, ∃ u, (Ty.record fs).field? name = some u ∧ P u := by
  constructor
  · intro h fs hfs
    obtain ⟨m, hm, hexpand⟩ := (hrecords fs).1 hfs
    obtain ⟨u, ⟨fs', hfs', hu⟩, hP⟩ := h m hm
    -- a member has only one record
    cases hexpand.symm.trans hfs'
    exact ⟨u, hu, hP⟩
  · intro h m hm
    obtain ⟨fs, hfs⟩ := hmembers m hm
    obtain ⟨u, hu, hP⟩ := h fs ((hrecords fs).2 ⟨m, hm, hfs⟩)
    exact ⟨u, ⟨fs, hfs, hu⟩, hP⟩

section Settled

variable (hwf : WellFounded reg.Unfolds) (hreg : reg.Bodies reg.Settled) {s : Ty} {ts : List Ty}
  (hs : reg.Settled s) (hexpand : reg.expand s none = .ok (.union ts))
  (hmembers : ∀ m ∈ ts, ∃ fs, reg.expand m none = .ok (.record fs))

include hreg hs hexpand

/-- The fields of the members of a settled union are settled. -/
theorem settled_of_fieldOf {m u : Ty} {name : String} (hm : m ∈ ts) (h : reg.FieldOf m name u) :
    reg.Settled u := by
  obtain ⟨fs, hfs, hu⟩ := h
  obtain ⟨-, -, -, hts⟩ := settled_union.1 (hreg.of_expand hs hexpand)
  obtain ⟨f, hf, rfl⟩ := Option.map_eq_some_iff.1 hu
  exact (settled_record.1 (hreg.of_expand (hts m hm) hfs)).2 f (List.mem_of_find?_eq_some hf)

include hmembers

/-- The members of a settled union of records expand to settled records. -/
theorem exists_settled_records (span : Option Span) :
    ∃ first rest, reg.recordsOf? span ts = .ok (some (first :: rest)) ∧
      (∀ fs, fs ∈ first :: rest ↔ ∃ m ∈ ts, reg.expand m none = .ok (.record fs)) ∧
      ∀ fs ∈ first :: rest, reg.Settled (.record fs) := by
  obtain ⟨hne, -, -, hts⟩ := settled_union.1 (hreg.of_expand hs hexpand)
  obtain ⟨records, hrecords, hmem⟩ := exists_recordsOf? span hmembers
  obtain ⟨m, hm⟩ := List.exists_mem_of_ne_nil ts hne
  obtain ⟨fs, hfs⟩ := hmembers m hm
  have hrecords_ne : records ≠ [] := List.ne_nil_of_mem ((hmem fs).2 ⟨m, hm, hfs⟩)
  obtain ⟨first, rest, rfl⟩ := List.exists_cons_of_ne_nil hrecords_ne
  refine ⟨first, rest, hrecords, hmem, fun fs hfs => ?_⟩
  obtain ⟨m, hm, hfs⟩ := (hmem fs).1 hfs
  exact hreg.of_expand (hts m hm) hfs

include hwf in
/-- Either all members have the field, and the type found is above those of all members, or the
field is unknown. -/
theorem fieldType_union_cases (sourceSpan span : Option Span) (name : String) :
    (∃ t, (reg.fieldType s sourceSpan name span).result = .ok t ∧ reg.Orderly t ∧
        ∀ m ∈ ts, ∃ u, reg.FieldOf m name u ∧ reg.Below t u) ∨
      (¬ ∀ m ∈ ts, ∃ u, reg.FieldOf m name u) ∧
        (reg.fieldType s sourceSpan name span).result =
          .error ⟨.unknownField name s, span⟩ := by
  obtain ⟨first, rest, hrecords, hmem, hsettled⟩ :=
    exists_settled_records hreg hs hexpand hmembers span
  have horderly : ∀ fs ∈ first :: rest, ∀ f ∈ fs, reg.Orderly f.ty := fun fs hfs f hf =>
    ((settled_record.1 (hsettled fs hfs)).2 f hf).orderly
  have hnames := (settled_record.1 (hsettled first List.mem_cons_self)).1
  have hreg' := hreg.imp fun _ h => h.orderly
  obtain ⟨ws, hws⟩ := exists_meetAll hwf hreg' span hnames horderly
  rw [result_fieldType_union hexpand hrecords hws]
  cases hfound : (Ty.record ws).field? name with
  | some t =>
    -- from the records of the members back to the members
    obtain ⟨ht, habove⟩ := meetAll_above hwf hreg' horderly hws hfound
    exact .inl ⟨t, rfl, ht, (forall_fieldOf_iff hmembers hmem).2 habove⟩
  | none =>
    refine .inr ⟨fun hall => ?_, rfl⟩
    have hcommon : name ∈ commonNames (first :: rest) := by
      refine mem_commonNames.2 fun fs hfs => ?_
      obtain ⟨m, hm, hfs⟩ := (hmem fs).1 hfs
      obtain ⟨u, fs', hfs', hu⟩ := hall m hm
      cases hfs.symm.trans hfs'
      exact ⟨u, hu⟩
    -- a name that all members have has not been dropped on the way
    rw [← names_meetAll hws, ← List.contains_iff_mem, ← isSome_field?_record, hfound] at hcommon
    cases hcommon

end Settled

/-- A field of a union of records can be read if every member has it, and the type found is above
those of all members. In general, the record of the common fields of some records has the names that
are common to all, and gives each a type above those that the records give it. -/
theorem union_field_exact {f : File} (hbuild : (build f).result = .ok reg)
    (hbodies : reg.Bodies fun t => reg.expectValueType t none = .ok () ∧ t.Canonical) :
    (∀ (env : Env) (source : Expr) (name : String) (span : Option Span) (s : Ty) (ts : List Ty),
      (source.synth reg env).run.result = .ok s → reg.Settled s →
      reg.expand s none = .ok (.union ts) →
      (∀ m ∈ ts, ∃ fs, reg.expand m none = .ok (.record fs)) →
      let found := (Expr.synth reg env ⟨.field source name, span, none⟩).run.result
      ((∃ t, found = .ok t) ↔ ∀ m ∈ ts, ∃ u, reg.FieldOf m name u) ∧
        (∀ t, found = .ok t →
          ∀ m ∈ ts, ∀ u, reg.FieldOf m name u → reg.isSubtype t u = .ok true) ∧
        ∀ e, found = .error e → e = ⟨.unknownField name s, span⟩) ∧
    ∀ (records : List (List Field)) (span : Option Span), records ≠ [] →
      (∀ fs ∈ records, (fs.map Field.name).Nodup ∧ ∀ f ∈ fs, reg.Orderly f.ty) →
      (commonNames records = [] → (reg.commonRecord records span).result = .ok none) ∧
        (commonNames records ≠ [] →
          ∃ ws, (reg.commonRecord records span).result = .ok (some (.record ws)) ∧
            ws.map Field.name = commonNames records ∧
            ∀ w ∈ ws, ∀ fs ∈ records, ∃ u, (Ty.record fs).field? w.name = some u ∧
              reg.isSubtype w.ty u = .ok true) := by
  have hwf := wellFounded_unfolds hbuild
  have hsettled : reg.Bodies reg.Settled :=
    hbodies.imp fun _ h => settled_of_expectValueType h.1 h.2
  have hreg := orderly_bodies hbodies
  refine ⟨?_, ?_⟩
  · -- reading a field
    intro env source name span s ts hsource hs hexpand hmembers found
    have hfound : found =
        (reg.fieldType s (source.synth reg env).left.span name span).result :=
      result_synth_field hsource
    rw [hfound]
    rcases fieldType_union_cases hwf hsettled hs hexpand hmembers
      (source.synth reg env).left.span span name with ⟨t, ht, ht', habove⟩ | ⟨hmissing, herror⟩
    · rw [ht]
      refine ⟨⟨fun _ m hm => ?_, fun _ => ⟨t, rfl⟩⟩, fun t ht m hm u hu => ?_, fun e he => ?_⟩
      · obtain ⟨u, hu, -⟩ := habove m hm
        exact ⟨u, hu⟩
      · cases ht
        obtain ⟨u', hu', hbelow⟩ := habove m hm
        cases hu.unique hu'
        have hu := (settled_of_fieldOf hsettled hs hexpand hm hu).orderly
        exact (isSubtype_iff_below_of_orderly hreg ht' hu).2 hbelow
      · cases he
    · rw [herror]
      refine ⟨⟨?_, fun hall => absurd hall hmissing⟩, fun t ht => ?_, fun e he => ?_⟩
      · rintro ⟨t, ht⟩
        cases ht
      · cases ht
      · cases he
        rfl
  · -- the record that several have in common
    intro records span hne hrecords
    obtain ⟨first, rest, rfl⟩ := List.exists_cons_of_ne_nil hne
    obtain ⟨ws, hresult, hnames, habove⟩ := exists_commonRecord hwf hreg span
      (hrecords first List.mem_cons_self).1 fun fs hfs => (hrecords fs hfs).2
    have hnil : commonNames (first :: rest) = [] ↔ ws = [] := by rw [← hnames, List.map_eq_nil_iff]
    rw [Ne, hnil, hresult]
    refine ⟨fun hnil => ?_, fun hsome => ⟨ws, ?_, hnames, habove⟩⟩
    · rw [if_pos hnil]
    · rw [if_neg hsome]

/-- Two records with two fields in common, one of them of another type in each. -/
def shapeFile : File where
  decls := [
    .alias { name := "Point", ty := .record [⟨"x", .int⟩, ⟨"tag", .bool⟩] },
    .alias { name := "Label", ty := .record [⟨"tag", .string⟩, ⟨"size", .int⟩, ⟨"x", .int⟩] },
    .alias { name := "Shape", ty := .union [.named "Point", .named "Label"] }]

/-- A common field is read at a type above both of its types, and a field of one record only is
unknown. -/
theorem union_field_exact_shape :
    let reg := ofFile shapeFile
    let env := ({} : Env).put "p" (.named "Shape")
    let read : String → Except TypeError Ty := fun name =>
      (Expr.synth reg env ⟨.field ⟨.var "p", none, none⟩ name, none, none⟩).run.result
    let point : List Field := [⟨"x", .int⟩, ⟨"tag", .bool⟩]
    let label : List Field := [⟨"tag", .string⟩, ⟨"size", .int⟩, ⟨"x", .int⟩]
    (∃ t, read "tag" = .ok t ∧ reg.isSubtype t .bool = .ok true ∧
        reg.isSubtype t .string = .ok true) ∧
      (¬ ∃ t, read "size" = .ok t) ∧
      (∃ ws, (reg.commonRecord [point, label] none).result = .ok (some (.record ws)) ∧
        ws.map Field.name = ["x", "tag"]) ∧
      (reg.commonRecord [point, [⟨"size", .int⟩]] none).result = .ok none := by
  intro reg env read point label
  have hbuild : (build shapeFile).result = .ok reg := by decide +kernel
  have hbodies : reg.Bodies fun t => reg.expectValueType t none = .ok () ∧ t.Canonical := by
    decide +kernel
  have hsource : (Expr.synth reg env ⟨.var "p", none, none⟩).run.result = .ok (.named "Shape") := by
    decide +kernel
  have hshape : reg.Settled (.named "Shape") := settled_named.2 (by decide +kernel)
  have hexpand : reg.expand (.named "Shape") none =
      .ok (.union [.named "Point", .named "Label"]) := by decide +kernel
  have hpoint : reg.expand (.named "Point") none = .ok (.record point) := by decide +kernel
  have hlabel : reg.expand (.named "Label") none = .ok (.record label) := by decide +kernel
  have hmembers : ∀ m ∈ [.named "Point", .named "Label"],
      ∃ fs, reg.expand m none = .ok (.record fs) := by simp [hpoint, hlabel]
  obtain ⟨hread, hcommon⟩ := union_field_exact hbuild hbodies
  obtain ⟨htag, habove, -⟩ := hread env _ "tag" none _ _ hsource hshape hexpand hmembers
  obtain ⟨hsize, -⟩ := hread env _ "size" none _ _ hsource hshape hexpand hmembers
  have htags : ∀ m ∈ [.named "Point", .named "Label"], ∃ u, reg.FieldOf m "tag" u := by
    simpa using ⟨⟨.bool, point, hpoint, by decide +kernel⟩,
      ⟨.string, label, hlabel, by decide +kernel⟩⟩
  obtain ⟨t, ht⟩ := htag.2 htags
  refine ⟨⟨t, ht, ?_, ?_⟩, fun h => ?_, ?_, ?_⟩
  · exact habove t ht (.named "Point") (by simp) .bool ⟨point, hpoint, by decide +kernel⟩
  · exact habove t ht (.named "Label") (by simp) .string ⟨label, hlabel, by decide +kernel⟩
  · -- one of the two members has no such field
    obtain ⟨u, fs, hfs, hu⟩ := hsize.1 h (.named "Point") (by simp)
    cases hpoint.symm.trans hfs
    have hnone : (Ty.record point).field? "size" = none := by decide +kernel
    cases hnone.symm.trans hu
  · obtain ⟨ws, hws, hnames, -⟩ :=
      (hcommon [point, label] none (by simp) (by decide +kernel)).2 (by decide +kernel)
    exact ⟨ws, hws, hnames.trans (by decide +kernel)⟩
  · exact (hcommon [point, [⟨"size", .int⟩]] none (by simp) (by decide +kernel)).1
      (by decide +kernel)

end Registry

end WhileTyping
