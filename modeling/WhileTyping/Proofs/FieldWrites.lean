import WhileTyping.Proofs.Certificate
import WhileTyping.Proofs.CompleteTypes
import WhileTyping.Proofs.UnionFields

/-!
# Writing a field of a union of records

The target of an assignment has the type that reading it gives. For a field of a union of records
this type is above the types of the field in all members, so a value that fits the target may fit
some members only. This module says what is true of the value.

* **`Registry.Widened.eq_or_union`**: a widened type is the type it started from, or a union whose
  members all stand in the types it was made from.
* **`Registry.Widened.exists_above`**: so all that is below it is, alternative by alternative, below
  one of these types.
* **`Registry.Widened.eq_of_equivalent`**: nothing is widened where the types are equivalent, and
  then the value fits all members.
* **`Stmt.typed_of_mem_nodesAll`**: the statements within a block that obeys the typing rules obey
  them too, each in a scope of its own.
* **`File.field_write_unsafe`**: two files with a value that does not fit.
-/

namespace WhileTyping

namespace Registry

variable {reg : Registry}

/-! ## What is below a widened type -/

/-- A type that is widened stays as it is, or becomes a union of alternatives that all come from the
types it was widened by. -/
theorem Widened.eq_or_union {t t' : Ty} {us : List Ty} (h : reg.Widened t us t') :
    t' = t ∨ ∃ ms, t' = .union ms ∧ ∀ m ∈ ms, ∃ u ∈ t :: us, m ∈ u.alternatives := by
  induction h with
  | done t => exact .inl rfl
  -- an equivalent type is passed over, and the rest is as before
  | @kept t u t' us _ _ ih =>
    refine ih.imp_right fun ⟨ms, hms, hfrom⟩ => ⟨ms, hms, fun m hm => ?_⟩
    obtain ⟨v, hv, hmem⟩ := hfrom m hm
    rcases List.mem_cons.1 hv with rfl | hv
    · exact ⟨v, List.mem_cons_self, hmem⟩
    · exact ⟨v, List.mem_cons_of_mem _ (List.mem_cons_of_mem _ hv), hmem⟩
  | @joined t u t' us _ _ ih =>
    have hunion : ∀ m ∈ (Ty.unionOf [t, u]).alternatives,
        ∃ v ∈ t :: u :: us, m ∈ v.alternatives := by
      intro m hm
      obtain ⟨v, hv, hmem⟩ := Ty.exists_alternative hm
      exact ⟨v, List.mem_append_left us hv, hmem⟩
    -- the union is kept to the end, or goes into a larger one
    right
    rcases ih with rfl | ⟨ms, hms, hfrom⟩
    · exact ⟨_, rfl, hunion⟩
    · refine ⟨ms, hms, fun m hm => ?_⟩
      obtain ⟨v, hv, hmem⟩ := hfrom m hm
      rcases List.mem_cons.1 hv with rfl | hv
      · exact hunion m hmem
      · exact ⟨v, List.mem_cons_of_mem _ (List.mem_cons_of_mem _ hv), hmem⟩

/-- Types that are equivalent to it do not widen a type. -/
theorem Widened.eq_of_equivalent {t t' : Ty} {us : List Ty} (h : reg.Widened t us t')
    (hequiv : ∀ u ∈ us, reg.equivalent t u = .ok true) : t' = t := by
  induction h with
  | done t => rfl
  | kept _ _ ih => exact ih (List.forall_mem_cons.1 hequiv).2
  | joined hdiffer _ _ => cases hdiffer.symm.trans (List.forall_mem_cons.1 hequiv).1

section Orderly

variable (hwf : WellFounded reg.Unfolds) (hreg : reg.Bodies reg.Orderly)

include hwf hreg

/-- Each alternative of a type below a widened type is below one of the types it was made from. -/
theorem Widened.exists_above {t t' r e : Ty} {us : List Ty} (h : reg.Widened t us t')
    (hus : ∀ u ∈ t :: us, reg.Orderly u) (hr : reg.Orderly r) (hbelow : reg.Below t' r)
    (he : reg.Expands r e) : ∀ a ∈ e.alternatives, ∃ u ∈ t :: us, reg.Below u a := by
  intro a ha
  have he' := orderly_of_expands hreg he hr
  have ha' := he'.alternative ha
  obtain ⟨ht, htypes⟩ := List.forall_mem_cons.1 hus
  obtain ⟨ht', -⟩ := h.above hwf hreg ht htypes
  -- the value's type is expanded, to have its alternatives at hand
  have hte : reg.Below t' e :=
    below_trans_of_orderly hwf hreg ht' he' hbelow (below_of_expands he he'.noInferred).1
  rcases h.eq_or_union with rfl | ⟨ms, rfl, hfrom⟩
  · have hta := below_trans_of_orderly hwf hreg ht' ha' hte (below_alternative hwf hreg he' ha)
    exact ⟨t', List.mem_cons_self, hta⟩
  -- a union is above a union if for each member there is a member above it
  have hmember : ∃ m ∈ ms, reg.Below m a := by
    cases e.outline with
    | named n => exact absurd rfl (he.ne_named n)
    | union as => exact Rule.unions_iff.1 hte.rule a ha
    | plain hnamed hunion =>
      rw [Ty.alternatives_eq_self hunion, List.mem_singleton] at ha
      subst ha
      exact hte.exists_member (fun hnil => ht'.canonical.here.1 (hnil ▸ rfl)) hnamed hunion
  obtain ⟨m, hm, hma⟩ := hmember
  -- the member comes from one of the fields, which is above it
  obtain ⟨u, hu, hmu⟩ := hfrom m hm
  have hum := below_alternative hwf hreg (hus u hu) hmu
  exact ⟨u, hu, below_trans_of_orderly hwf hreg (hus u hu) ha' hum hma⟩

end Orderly

/-! ## The type of a target -/

section Union

variable {s t : Ty} {ts : List Ty} {name : String} {sourceSpan span : Option Span}
  (hexpand : reg.expand s none = .ok (.union ts))
  (hmembers : ∀ m ∈ ts, ∃ fs, reg.expand m none = .ok (.record fs))
  (h : (reg.fieldType s sourceSpan name span).result = .ok t)

include hexpand hmembers h

/-- A field of a union of records that has a type is one of the common fields. -/
theorem exists_common_of_fieldType :
    ∃ first rest ws, (∀ fs, fs ∈ first :: rest ↔ ∃ m ∈ ts, reg.expand m none = .ok (.record fs)) ∧
      reg.meetAll span first rest = .ok ws ∧ (Ty.record ws).field? name = some t := by
  obtain ⟨records, hrecords, hmem⟩ := exists_recordsOf? span hmembers
  have hfound := h
  simp only [fieldType, Check.result_bind_eq_ok] at hfound
  obtain ⟨target, htarget, -⟩ := hfound
  rw [result_accessTarget_union hexpand hrecords, bind_eq_ok] at htarget
  obtain ⟨common, hcommon, htarget⟩ := htarget
  cases records with
  -- a union without records has no field
  | nil =>
    cases hcommon
    cases htarget
  | cons first rest =>
    simp only [commonRecord, Check.result_bind_eq_ok, Check.result_lift] at hcommon
    obtain ⟨ws, hws, -⟩ := hcommon
    rw [result_fieldType_union hexpand hrecords hws] at h
    refine ⟨first, rest, ws, hmem, hws, ?_⟩
    split at h
    · rename_i u hu
      cases h
      exact hu
    · cases h

/-- The type of a field of a union of records is widened from the types that the field has in the
members, and all members have it. -/
theorem exists_widened_of_fieldType :
    ∃ u us, reg.Widened u us t ∧ (∀ v, v ∈ u :: us ↔ ∃ m ∈ ts, reg.FieldOf m name v) ∧
      ∀ m ∈ ts, ∃ v, reg.FieldOf m name v := by
  obtain ⟨first, rest, ws, hmem, hws, ht⟩ := exists_common_of_fieldType hexpand hmembers h
  obtain ⟨u, us, hus, hwidened⟩ := meetAll_widened hws ht
  refine ⟨u, us, hwidened, fun v => ?_, fun m hm => ?_⟩
  · rw [mem_namesakes hus]
    constructor
    · rintro ⟨fs, hfs, hv⟩
      obtain ⟨m, hm, hexpand⟩ := (hmem fs).1 hfs
      exact ⟨m, hm, fs, hexpand, hv⟩
    · rintro ⟨m, hm, fs, hfs, hv⟩
      exact ⟨fs, (hmem fs).2 ⟨m, hm, hfs⟩, hv⟩
  · obtain ⟨fs, hfs⟩ := hmembers m hm
    have hfield : (Ty.record fs).field? name ∈ (u :: us).map some :=
      hus ▸ List.mem_map_of_mem ((hmem fs).2 ⟨m, hm, hfs⟩)
    obtain ⟨v, -, hv⟩ := List.mem_map.1 hfield
    exact ⟨v, fs, hfs, hv.symm⟩

end Union

/-- The types that some records give to a field are equivalent. -/
def AgreeOnField (reg : Registry) (ts : List Ty) (name : String) : Prop :=
  ∀ m ∈ ts, ∀ m' ∈ ts, ∀ u u', reg.FieldOf m name u → reg.FieldOf m' name u' →
    reg.isSubtype u u' = .ok true

/-- How a value of the second type fits the field of some records, where the first is the type that
reading the field gives. -/
structure FitsField (reg : Registry) (ts : List Ty) (name : String) (t r : Ty) : Prop where
  /-- What is read is above what any record holds. -/
  above : ∀ m ∈ ts, ∀ u, reg.FieldOf m name u → reg.isSubtype t u = .ok true
  /-- Each alternative of the value fits at least one record. -/
  somewhere : ∃ e, reg.expand r none = .ok e ∧
    ∀ a ∈ e.alternatives, ∃ m ∈ ts, ∃ u, reg.FieldOf m name u ∧ reg.isSubtype u a = .ok true
  /-- The value fits all records if they agree on the field. -/
  everywhere : reg.AgreeOnField ts name →
    ∀ m ∈ ts, ∀ u, reg.FieldOf m name u → reg.isSubtype u r = .ok true

/-- Where the records agree on the field, it is not widened. -/
theorem Widened.eq_of_agree {u t : Ty} {us ts : List Ty} {name : String} (h : reg.Widened u us t)
    (hfrom : ∀ v, v ∈ u :: us ↔ ∃ m ∈ ts, reg.FieldOf m name v)
    (hagree : reg.AgreeOnField ts name) : t = u := by
  have hpairs : ∀ v ∈ u :: us, ∀ w ∈ u :: us, reg.isSubtype v w = .ok true := by
    intro v hv w hw
    obtain ⟨m, hm, hv⟩ := (hfrom v).1 hv
    obtain ⟨m', hm', hw⟩ := (hfrom w).1 hw
    exact hagree m hm m' hm' v w hv hw
  refine h.eq_of_equivalent fun w hw => equivalent_eq_true_iff.2 ?_
  have hw := List.mem_cons_of_mem u hw
  exact ⟨hpairs u List.mem_cons_self w hw, hpairs w hw u List.mem_cons_self⟩

/-- A value below the widened type fits the field as far as can be: each member of the union below
the value's type is one, and all are if the fields agree. -/
theorem fitsField_of_widened (hwf : WellFounded reg.Unfolds) (hreg : reg.Bodies reg.Orderly)
    {u t r : Ty} {us ts : List Ty} {name : String} (h : reg.Widened u us t)
    (hfrom : ∀ v, v ∈ u :: us ↔ ∃ m ∈ ts, reg.FieldOf m name v)
    (hus : ∀ v ∈ u :: us, reg.Orderly v) (hr : reg.Orderly r)
    (hbelow : reg.isSubtype t r = .ok true) : reg.FitsField ts name t r := by
  have hmem : ∀ {m v}, m ∈ ts → reg.FieldOf m name v → v ∈ u :: us :=
    fun hm hv => (hfrom _).2 ⟨_, hm, hv⟩
  have hiff : ∀ {v w}, reg.Orderly v → reg.Orderly w →
      (reg.isSubtype v w = .ok true ↔ reg.Below v w) := isSubtype_iff_below_of_orderly hreg
  obtain ⟨hu, hothers⟩ := List.forall_mem_cons.1 hus
  obtain ⟨ht, habove⟩ := h.above hwf hreg hu hothers
  have htr : reg.Below t r := (hiff ht hr).1 hbelow
  refine ⟨fun m hm v hv => ?_, ?_, fun hagree m hm v hv => ?_⟩
  · exact (hiff ht (hus v (hmem hm hv))).2 (List.forall_mem_cons.2 habove v (hmem hm hv))
  · -- each alternative of the value finds a record whose field is above it
    obtain ⟨e, he⟩ := exists_expands hwf hreg hr
    refine ⟨e, (expand_eq_ok_iff hwf).2 he, fun a ha => ?_⟩
    obtain ⟨v, hv, hva⟩ := h.exists_above hwf hreg hus hr htr he a ha
    obtain ⟨m, hm, hfield⟩ := (hfrom v).1 hv
    have ha' := (orderly_of_expands hreg he hr).alternative ha
    exact ⟨m, hm, v, hfield, (hiff (hus v hv) ha').2 hva⟩
  -- the value fits the first record, and through it the others
  · have hfirst := h.eq_of_agree hfrom hagree
    subst hfirst
    obtain ⟨m₀, hm₀, hfirst⟩ := (hfrom t).1 List.mem_cons_self
    have hv' := hus v (hmem hm hv)
    have hvt := (hiff hv' ht).1 (hagree m hm m₀ hm₀ v t hv hfirst)
    exact (hiff hv' hr).2 (below_trans_of_orderly hwf hreg hv' hr hvt htr)

end Registry

/-! ## The statements of a typed block -/

section Nodes

variable {ctx : Context}

mutual
/-- A statement that obeys the rules holds none that does not. -/
theorem Stmt.typed_of_mem_nodes : ∀ (s : Stmt) {Γ Γ' : Scope}, s.Typed ctx Γ Γ' →
    ∀ n ∈ s.nodes, ∃ Δ Δ', n.Typed ctx Δ Δ'
  | ⟨form, span⟩, Γ, Γ', h => by
    rw [Stmt.nodes, List.forall_mem_cons]
    refine ⟨⟨Γ, Γ', h⟩, ?_⟩
    cases h with
    | mk hform => exact StmtForm.typed_of_mem_nodes form hform

theorem StmtForm.typed_of_mem_nodes : ∀ (form : StmtForm) {Γ Γ' : Scope}, form.Typed ctx Γ Γ' →
    ∀ n ∈ Stmt.nodesForm form, ∃ Δ Δ', n.Typed ctx Δ Δ'
  | .forLoop d condition step body, Γ, Γ', h => by
    cases h with
    | forLoop _ _ hstep hbody =>
      rw [Stmt.nodesForm, List.forall_mem_append]
      exact ⟨Stmt.typed_of_mem_nodes step hstep, Stmt.typed_of_mem_nodesAll body hbody⟩
  | .ifElse condition onTrue onFalse, Γ, Γ', h => by
    cases h with
    | ifElse _ htrue hfalse =>
      rw [Stmt.nodesForm, List.forall_mem_append]
      exact ⟨Stmt.typed_of_mem_nodesAll onTrue htrue, Stmt.typed_of_mem_nodesAll onFalse hfalse⟩
  | .switchOn selector cases, Γ, Γ', h => by
    cases h with
    | switchOn _ hcases => exact SwitchCase.typed_of_mem_nodes cases hcases
  | .matchType selector cases, Γ, Γ', h => by
    cases h with
    | matchType _ hcases => exact MatchCase.typed_of_mem_nodes cases hcases
  | .whileLoop condition body, Γ, Γ', h => by
    cases h with
    | whileLoop _ hbody => exact Stmt.typed_of_mem_nodesAll body hbody
  -- the others hold no statements
  | .assert _, _, _, _ | .assign _ _, _, _, _ | .breakLoop, _, _, _ | .continueLoop, _, _, _
  | .call _ _, _, _, _ | .print _, _, _, _ | .ret _, _, _, _ | .declare _, _, _, _
  | .infer _ _ _, _, _, _ => fun n hn => absurd hn List.not_mem_nil

/-- The statements within a block that obeys the typing rules obey them too. -/
theorem Stmt.typed_of_mem_nodesAll : ∀ (ss : List Stmt) {Γ Γ' : Scope}, Stmt.TypedAll ctx Γ ss Γ' →
    ∀ n ∈ Stmt.nodesAll ss, ∃ Δ Δ', n.Typed ctx Δ Δ'
  | [], _, _, _ => fun n hn => absurd hn List.not_mem_nil
  | s :: ss, Γ, Γ', h => by
    cases h with
    | cons hs hss =>
      rw [Stmt.nodesAll, List.forall_mem_append]
      exact ⟨Stmt.typed_of_mem_nodes s hs, Stmt.typed_of_mem_nodesAll ss hss⟩

theorem SwitchCase.typed_of_mem_nodes : ∀ (cs : List SwitchCase) {selector : Ty} {Γ Γ' : Scope},
    SwitchCase.TypedAll ctx selector Γ cs Γ' → ∀ n ∈ Stmt.nodesSwitch cs, ∃ Δ Δ', n.Typed ctx Δ Δ'
  | [], _, _, _, _ => fun n hn => absurd hn List.not_mem_nil
  | ⟨value, body⟩ :: cs, selector, Γ, Γ', h => by
    cases h with
    | cons _ hbody hcs =>
      rw [Stmt.nodesSwitch, List.forall_mem_append]
      exact ⟨Stmt.typed_of_mem_nodesAll body hbody, SwitchCase.typed_of_mem_nodes cs hcs⟩

theorem MatchCase.typed_of_mem_nodes : ∀ (cs : List MatchCase) {selector : Ty} {Γ : Scope},
    MatchCase.TypedAll ctx selector Γ cs → ∀ n ∈ Stmt.nodesMatch cs, ∃ Δ Δ', n.Typed ctx Δ Δ'
  | [], _, _, _ => fun n hn => absurd hn List.not_mem_nil
  | ⟨t, x, body, span⟩ :: cs, selector, Γ, h => by
    cases h with
    | cons _ _ hbody hcs =>
      rw [Stmt.nodesMatch, List.forall_mem_append]
      exact ⟨Stmt.typed_of_mem_nodesAll body hbody, MatchCase.typed_of_mem_nodes cs hcs⟩
end

end Nodes

/-! ## Accepted files -/

/-- The check of an assignment between fresh expressions in a settled environment leaves settled
types on both. -/
theorem StmtForm.filled_assign_of_check {ctx : Context} (hreg : ctx.registry.AllSettled)
    {env env' : Env} {span : Option Span} {form : StmtForm} {target value : Expr}
    (henv : env.Settled ctx.registry) (hempty : ∀ slot ∈ Stmt.slotsForm form, slot.Empty)
    (h : (form.check ctx env span).Ends (env', .assign target value) ()) :
    Filled ctx.registry.Settled target.slots ∧ Filled ctx.registry.Settled value.slots := by
  -- a check changes types only, so what was checked is an assignment too
  have hbare := StmtForm.bare_check ctx env span form
  rw [h.1] at hbare
  cases form with
  | assign target₀ value₀ =>
    simp only [Stmt.slotsForm, List.forall_mem_append, Stmt.empty_exprSlots] at hempty
    obtain ⟨target₁, lt, value₁, rt, env₁, htarget, hvalue, -, hleft⟩ := StmtForm.assign_ends h
    cases hleft
    exact ⟨(Expr.synth_filled hreg.hereditary henv target₀ hempty.1 htarget).2,
      (Expr.synth_filled hreg.hereditary henv value₀ hempty.2 hvalue).2⟩
  | assert | breakLoop | continueLoop | forLoop | ifElse | call | print | ret | switchOn | matchType
  | declare | infer | whileLoop => simp [Stmt.bareForm] at hbare

/-- The same where a block comes to the assignment. -/
theorem Stmt.filled_assign_of_ready {ctx : Context} (hreg : ctx.registry.AllSettled)
    {p : Env × Stmt} {target value : Expr} (hready : Ready ctx p.1 p.2)
    (hform : (checkedAt ctx p).form = .assign target value) :
    Filled ctx.registry.Settled target.slots ∧ Filled ctx.registry.Settled value.slots := by
  obtain ⟨env, form, span⟩ := p
  rw [checkedAt] at hform
  generalize hleft : (check ctx env ⟨form, span⟩).left = left at hform
  obtain ⟨form', hcheck, hs⟩ := check_ends ⟨hleft, hready.passes⟩
  rw [hs] at hform
  cases hform
  exact StmtForm.filled_assign_of_check hreg hready.settled hready.empty hcheck

/-- The type at the root of a tree is in one of its slots. -/
theorem Filled.of_ty {P : Ty → Prop} {e : Expr} {t : Ty} (h : Filled P e.slots)
    (ht : e.ty = some t) : P t := by
  obtain ⟨form, span, ty⟩ := e
  rw [Expr.slots] at h
  obtain ⟨u, hu, hP⟩ := h ty List.mem_cons_self
  cases ht.symm.trans hu
  exact hP

/-- So is the type of the record whose field is read. -/
theorem Filled.of_field {P : Ty → Prop} {e source : Expr} {name : String} {t : Ty}
    (h : Filled P e.slots) (hfield : e.form = .field source name) (ht : source.ty = some t) :
    P t := by
  obtain ⟨form, span, ty⟩ := e
  cases hfield
  rw [Expr.slots, Expr.slotsForm] at h
  exact Filled.of_ty (fun slot hslot => h slot (List.mem_cons_of_mem _ hslot)) ht

/-- An assignment to a field of a union of records, in the tree that the check of a file leaves. -/
structure File.WritesField (f : File) (target value : Expr) (name : String) (ts : List Ty) :
    Prop where
  stored : ∃ d ∈ f.check.value.1.methodDecls, ∃ s ∈ Stmt.nodesAll d.body,
    s.form = .assign target value
  source : ∃ source s, target.form = .field source name ∧ source.ty = some s ∧
    (Registry.ofFile f).expand s none = .ok (.union ts)
  records : ∀ m ∈ ts, ∃ fs, (Registry.ofFile f).expand m none = .ok (.record fs)

section Accepted

variable {f : File} (hfresh : f.Fresh) (haccepted : f.check.value.2 = .ok ()) {d : MethodDecl}
  (hd : d ∈ f.check.value.1.methodDecls) {s : Stmt} (hs : s ∈ Stmt.nodesAll d.body)

include hfresh haccepted hd hs

/-- Every statement of an accepted file obeys the typing rules. -/
theorem File.typed_nodes : ∃ Γ Γ', StmtForm.Typed ⟨.ofFile f, d.ret⟩ Γ s.form Γ' := by
  obtain ⟨reg, hbuild, hpasses⟩ := File.check_eq_ok haccepted
  obtain ⟨d₀, hd₀, env, left, henv, hbody, rfl⟩ := File.checked_methods hbuild hpasses d hd
  obtain ⟨rfl, -⟩ := Registry.build_ok hbuild
  have hempty : ({} : Env).Declares [] := ⟨fun _ => rfl, fun x b hb => by cases hb⟩
  obtain ⟨hdeclares, -⟩ := Parameter.declares_bindAll hempty henv
  obtain ⟨Γ, htyped, -⟩ :=
    Stmt.checkAll_typed d₀.body hdeclares (hfresh _ (File.mem_methodDecls.1 hd₀)) hbody
  obtain ⟨Δ, Δ', hs⟩ := Stmt.typed_of_mem_nodesAll left.2 htyped s hs
  cases hs with
  | mk hform => exact ⟨Δ, Δ', hform⟩

/-- In an accepted file, the types found in an assignment are settled. -/
theorem File.filled_assign (hcan : f.Canonical) {target value : Expr}
    (hform : s.form = .assign target value) :
    Filled (Registry.ofFile f).Settled target.slots ∧
      Filled (Registry.ofFile f).Settled value.slots := by
  obtain ⟨reg, hbuild, hpasses⟩ := File.check_eq_ok haccepted
  have hwf := Registry.wellFounded_unfolds hbuild
  have hreg := File.allSettled hcan hbuild hpasses
  obtain ⟨ret, env, body, left, hprepared, hends, hleft⟩ :=
    File.checked_bodies hfresh hcan hbuild hpasses d hd
  obtain ⟨rfl, -⟩ := Registry.build_ok hbuild
  obtain ⟨hnodes, hready⟩ := Stmt.checkAll_sites hwf hreg body hprepared.settled hprepared.empty
    hprepared.canonical hends
  rw [hleft, hnodes] at hs
  obtain ⟨p, hp, rfl⟩ := List.mem_map.1 hs
  exact Stmt.filled_assign_of_ready hreg (hready p hp) hform

end Accepted

/-- An assignment to a field that obeys the typing rules: the types of its parts. -/
theorem StmtForm.typed_field_write {ctx : Context} {Γ Γ' : Scope} {target value source : Expr}
    {name : String} (h : StmtForm.Typed ctx Γ (.assign target value) Γ')
    (hfield : target.form = .field source name) :
    ∃ s t r sourceSpan span, source.ty = some s ∧ target.ty = some t ∧ value.ty = some r ∧
      (ctx.registry.fieldType s sourceSpan name span).result = .ok t ∧
      ctx.registry.isSubtype t r = .ok true := by
  obtain ⟨form, span, ty⟩ := target
  cases hfield
  cases h with
  -- the target is a field and no variable
  | assignVar hvar =>
    obtain ⟨x, hx, -⟩ := hvar
    cases hx
  | assign _ htarget hvalue =>
    obtain ⟨r, hvalue, hbelow⟩ := hvalue
    cases htarget with
    | node hform =>
      cases hform with
      | field hsource hfield =>
        cases hsource
        cases hvalue
        exact ⟨_, _, _, _, _, rfl, rfl, rfl, hfield, hbelow⟩

/-! ## Values that do not fit -/

/-- The assignment of a value to a field of the variable `p`, with the types that have been found.
-/
def writeField (name : String) (value : ExprForm) (source field found : Option Ty) : Stmt where
  form := .assign ⟨.field ⟨.var "p", none, source⟩ name, none, field⟩ ⟨value, none, found⟩

/-- A method that writes two fields of a union of records. The records agree on `v`, which is a
`Count` in one of them, but not on `w`. -/
def cellTree (source v w found : Option Ty) : File where
  decls :=
    [.alias { name := "Count", ty := .int },
      .alias { name := "A", ty := .record [⟨"v", .int⟩, ⟨"w", .int⟩] },
      .alias { name := "B", ty := .record [⟨"w", .bool⟩, ⟨"v", .named "Count"⟩] },
      .method
        { name := "put"
          params := [{ name := "p", ty := .union [.named "A", .named "B"] }]
          ret := .void
          body :=
            [writeField "v" (.constant (.int 1)) source v found,
              writeField "w" (.constant (.int 1)) source w found] }]

/-- The file as it is read, without types. -/
def cellFile : File := cellTree none none none none

/-- The types that are found. -/
theorem cellFile_check : cellFile.check.value =
    (cellTree (some (.union [.named "A", .named "B"])) (some .int) (some (.union [.int, .bool]))
      (some .int), .ok ()) := by with_unfolding_all rfl

/-- Both fields are written to through the union of two aliases. -/
theorem cellFile_writes (name : String) (t : Ty)
    (h : (name, t) = ("v", .int) ∨ (name, t) = ("w", .union [.int, .bool])) :
    cellFile.WritesField
      ⟨.field ⟨.var "p", none, some (.union [.named "A", .named "B"])⟩ name, none, some t⟩
      ⟨.constant (.int 1), none, some .int⟩ name [.named "A", .named "B"] := by
  refine ⟨?_, ⟨_, _, rfl, rfl, by decide +kernel⟩, ?_⟩
  · rw [cellFile_check]
    refine ⟨_, List.mem_singleton_self _, writeField name _ _ (some t) _, ?_, rfl⟩
    rcases h with h | h
    · cases h
      exact List.mem_cons_self
    · cases h
      exact List.mem_cons_of_mem _ List.mem_cons_self
  · simp only [List.forall_mem_cons, List.not_mem_nil, false_imp_iff, implies_true, and_true]
    exact ⟨⟨_, by rfl⟩, ⟨_, by rfl⟩⟩

/-- A union with a repeated member within it, and another that is taken for it. -/
def rowTy : Ty := .union [.array (.union [.bool, .bool]), .bool]

def rowsTy : Ty := .union [.array rowTy, .array rowTy]

/-- A method that writes a field on which two records agree, because the comparison of `Tree` with a
union that repeats a member comes back to a pair that it takes for the first. -/
def rowsTree (source v found : Option Ty) : File where
  decls :=
    [.alias { name := "Tree", ty := .array (.named "Tree") },
      .method
        { name := "put"
          params :=
            [{ name := "p"
               ty := .union [.record [⟨"v", rowsTy⟩], .record [⟨"v", .named "Tree"⟩]] },
              { name := "q", ty := .array rowTy }]
          ret := .void
          body := [writeField "v" (.var "q") source v found] }]

/-- The file as it is read, without types. -/
def rowsFile : File := rowsTree none none none

set_option maxRecDepth 2048 in
/-- The types that are found. -/
theorem rowsFile_check : rowsFile.check.value =
    (rowsTree (some (.union [.record [⟨"v", rowsTy⟩], .record [⟨"v", .named "Tree"⟩]]))
      (some rowsTy) (some (.array rowTy)), .ok ()) := by with_unfolding_all rfl

/-- The field is written to through the union of two record types. -/
theorem rowsFile_writes :
    let ts := [.record [⟨"v", rowsTy⟩], .record [⟨"v", .named "Tree"⟩]]
    rowsFile.WritesField ⟨.field ⟨.var "p", none, some (.union ts)⟩ "v", none, some rowsTy⟩
      ⟨.var "q", none, some (.array rowTy)⟩ "v" ts := by
  intro ts
  refine ⟨?_, ⟨_, _, rfl, rfl, by decide +kernel⟩, ?_⟩
  · rw [rowsFile_check]
    exact ⟨_, List.mem_singleton_self _, _, List.mem_cons_self, rfl⟩
  · simp only [ts, List.forall_mem_cons, List.not_mem_nil, false_imp_iff, implies_true, and_true]
    exact ⟨⟨_, by rfl⟩, ⟨_, by rfl⟩⟩

/-- A value of type `int` is written to a field that is a `bool` in one of the records. If unions
may repeat members, then even records that agree on a field may not take the value alike. -/
theorem File.field_write_unsafe :
    (cellFile.Fresh ∧ cellFile.Canonical ∧ cellFile.check.value.2 = .ok () ∧
      ∃ target value, cellFile.WritesField target value "w" [.named "A", .named "B"] ∧
        value.ty = some .int ∧ (Registry.ofFile cellFile).FieldOf (.named "B") "w" .bool ∧
        (Registry.ofFile cellFile).isSubtype .bool .int = .ok false) ∧
    rowsFile.Fresh ∧ rowsFile.check.value.2 = .ok () ∧
      ∃ target value, rowsFile.WritesField target value "v"
          [.record [⟨"v", rowsTy⟩], .record [⟨"v", .named "Tree"⟩]] ∧
        value.ty = some (.array rowTy) ∧
        (Registry.ofFile rowsFile).equivalent rowsTy (.named "Tree") = .ok true ∧
        (Registry.ofFile rowsFile).FieldOf (.record [⟨"v", .named "Tree"⟩]) "v" (.named "Tree") ∧
        (Registry.ofFile rowsFile).isSubtype (.named "Tree") (.array rowTy) = .ok false := by
  constructor
  · exact ⟨by decide +kernel, by decide +kernel, by rw [cellFile_check], _, _,
      cellFile_writes "w" (.union [.int, .bool]) (by simp), rfl, ⟨_, by rfl, by rfl⟩,
      by decide +kernel⟩
  · exact ⟨by decide +kernel, by rw [rowsFile_check], _, _, rowsFile_writes, rfl, by decide +kernel,
      ⟨_, by rfl, by rfl⟩, by decide +kernel⟩

/-- A value that an accepted file assigns to a field of a union of records is below the type that
reading the field gives, which is that of one of the records if they agree on the field. If the
unions of the file are canonical, the value fits at least one of the records, and all of them if
they agree. -/
theorem File.field_write_fits {f : File} (hfresh : f.Fresh) (haccepted : f.check.value.2 = .ok ())
    {target value : Expr} {name : String} {ts : List Ty}
    (hwrite : f.WritesField target value name ts) :
    ∃ t r, target.ty = some t ∧ value.ty = some r ∧
      (Registry.ofFile f).isSubtype t r = .ok true ∧
      (∀ m ∈ ts, ∃ u, (Registry.ofFile f).FieldOf m name u) ∧
      ((Registry.ofFile f).AgreeOnField ts name →
        ∃ m ∈ ts, (Registry.ofFile f).FieldOf m name t) ∧
      (f.Canonical → (Registry.ofFile f).FitsField ts name t r) := by
  obtain ⟨⟨d, hd, n, hn, hform⟩, ⟨source, s, hfield, hsource, hexpand⟩, hmembers⟩ := hwrite
  obtain ⟨Γ, Γ', htyped⟩ := File.typed_nodes hfresh haccepted hd hn
  rw [hform] at htyped
  obtain ⟨s', t, r, sourceSpan, span, hs, ht, hr, hfound, hbelow⟩ :=
    StmtForm.typed_field_write htyped hfield
  -- the source has one type, the one that the certificate speaks of
  cases hsource.symm.trans hs
  obtain ⟨u, us, hwidened, hfrom, hall⟩ :=
    Registry.exists_widened_of_fieldType hexpand hmembers hfound
  refine ⟨t, r, ht, hr, hbelow, hall, fun hagree => ?_, fun hcan => ?_⟩
  · -- fields that agree are not widened, so the target has the type of the first
    rw [hwidened.eq_of_agree hfrom hagree]
    exact (hfrom u).1 List.mem_cons_self
  · obtain ⟨reg, hbuild, hpasses⟩ := File.check_eq_ok haccepted
    have hwf := Registry.wellFounded_unfolds hbuild
    have hreg := (File.allSettled hcan hbuild hpasses).bodies
    obtain ⟨rfl, -⟩ := Registry.build_ok hbuild
    obtain ⟨htarget, hvalue⟩ := File.filled_assign hfresh haccepted hd hn hcan hform
    have hs := htarget.of_field hfield hsource
    have hus : ∀ v ∈ u :: us, (Registry.ofFile f).Orderly v := by
      intro v hv
      obtain ⟨m, hm, hv⟩ := (hfrom v).1 hv
      exact (Registry.settled_of_fieldOf hreg hs hexpand hm hv).orderly
    exact Registry.fitsField_of_widened hwf (hreg.imp fun _ h => h.orderly) hwidened hfrom hus
      (hvalue.of_ty hr).orderly hbelow

/-- The two records agree on `v`, up to an alias, so the `int` that is written fits both. On `w`
they do not, and it fits one of them. -/
theorem File.field_write_fits_cell :
    (cellFile.Fresh ∧ cellFile.Canonical ∧ cellFile.check.value.2 = .ok ()) ∧
      (Registry.ofFile cellFile).isSubtype (.named "Count") .int = .ok true ∧
      (Registry.ofFile cellFile).FitsField [.named "A", .named "B"] "w" (.union [.int, .bool])
        .int := by
  have hfresh : cellFile.Fresh := by decide +kernel
  have hcan : cellFile.Canonical := by decide +kernel
  have haccepted : cellFile.check.value.2 = .ok () := by rw [cellFile_check]
  have hv : (Registry.ofFile cellFile).FieldOf (.named "A") "v" .int := ⟨_, by rfl, by rfl⟩
  have hv' : (Registry.ofFile cellFile).FieldOf (.named "B") "v" (.named "Count") :=
    ⟨_, by rfl, by rfl⟩
  obtain ⟨_, _, ht, hr, -, -, -, hfits⟩ :=
    File.field_write_fits hfresh haccepted (cellFile_writes "v" .int (by simp))
  cases ht
  cases hr
  obtain ⟨_, _, ht, hr, -, -, -, hfits'⟩ :=
    File.field_write_fits hfresh haccepted (cellFile_writes "w" (.union [.int, .bool]) (by simp))
  cases ht
  cases hr
  -- the field `v` of the two members, up to equivalence the same
  have htypes : ∀ m ∈ [.named "A", .named "B"], ∀ u, (Registry.ofFile cellFile).FieldOf m "v" u →
      u = .int ∨ u = .named "Count" := by
    intro m hm u hu
    simp only [List.mem_cons, List.not_mem_nil, or_false] at hm
    rcases hm with rfl | rfl
    · exact .inl (hu.unique hv)
    · exact .inr (hu.unique hv')
  have hagree : (Registry.ofFile cellFile).AgreeOnField [.named "A", .named "B"] "v" := by
    intro m hm m' hm' u u' hu hu'
    rcases htypes m hm u hu with rfl | rfl <;> rcases htypes m' hm' u' hu' with rfl | rfl <;>
      decide +kernel
  exact ⟨⟨hfresh, hcan, haccepted⟩, (hfits hcan).everywhere hagree _ (by simp) _ hv', hfits' hcan⟩

end WhileTyping
