import Mathlib.Logic.Relation
import WhileTyping.Proofs.AcceptedFile

/-!
# The check of a written type

A written type is gone through twice, once for undeclared aliases, repeated fields and `var`, and
once for `void`. Together the two recursions ask one condition of every node, and the error they end
with is the first on a walk that does not stop at errors.

* **`Ty.walk`**: the stops of a walk through a type, depth first and from left to right. The name of
  a field is a stop of its own, ahead of the type of the field.
* **`Registry.wellFormed_eq_verdict`**: the first recursion ends with the first fault on the walk.
* **`Registry.ValueType`**: the condition at every node.
* **`Registry.expectValueType_eq_ok`**, **`Registry.expectValueType_eq_error`**: when the check
  succeeds, and how it fails.
* **`Registry.Enters`**: one step into a type, which may be from an alias to its body. Value types
  lead to value types only, if the bodies of aliases are value types.
* **`Stmt.checkAll_valueTypes`**: the types written in a block that passes its check are value
  types.
-/

namespace WhileTyping

open Relation (ReflTransGen)

/-! ## The walk -/

namespace Ty

/-- A stop on a walk through a type: a type that occurs in it, or the name of a field of a record,
with the names of the fields before it. -/
inductive Stop where
  | node (t : Ty)
  | fieldName (earlier : List String) (name : String)

mutual
/-- The stops of a walk through a type, depth first and from left to right. -/
def walk : Ty → List Stop
  | .array e => .node (.array e) :: walk e
  | .record fs => .node (.record fs) :: walkFields [] fs
  | .union ts => .node (.union ts) :: walkAll ts
  | t => [.node t]

/-- The same for the fields of a record after fields of the given names. -/
def walkFields (earlier : List String) : List Field → List Stop
  | [] => []
  | ⟨n, t⟩ :: fs => .fieldName earlier n :: (walk t ++ walkFields (n :: earlier) fs)

/-- The members of a union, in order. -/
def walkAll : List Ty → List Stop
  | [] => []
  | t :: ts => walk t ++ walkAll ts
end

/-- `void` does not occur. -/
def NoVoid (t : Ty) : Prop := t.Everywhere (· ≠ .void)

/-- Several types are without `void` if each is. -/
theorem hasVoidAll_eq_false {ts : List Ty} :
    hasVoidAll ts = false ↔ ∀ t ∈ ts, t.hasVoid = false := by
  induction ts with
  | nil => simp [hasVoidAll]
  | cons t ts ih => rw [hasVoidAll, Bool.or_eq_false_iff, ih, List.forall_mem_cons]

theorem hasVoidFields_eq_false {fs : List Field} :
    hasVoidFields fs = false ↔ ∀ f ∈ fs, f.ty.hasVoid = false := by
  induction fs with
  | nil => simp [hasVoidFields]
  | cons f fs ih =>
    obtain ⟨n, t⟩ := f
    rw [hasVoidFields, Bool.or_eq_false_iff, ih, List.forall_mem_cons]

/-- The search for `void` goes through all parts of a type. -/
theorem hasVoid_eq_false {t : Ty} : t.hasVoid = false ↔ t.NoVoid := by
  induction t with
  | void => simp [hasVoid, NoVoid, Everywhere, subterms]
  | bool | char | int | string | inferred | named =>
    simp [hasVoid, NoVoid, Everywhere, subterms]
  | array e ih =>
    -- an array type is not `void` itself, so only its elements matter
    rw [hasVoid, ih, NoVoid, NoVoid, everywhere_array_iff]
    simp only [ne_eq, reduceCtorEq, not_false_eq_true, true_and]
  | record fs ih =>
    rw [hasVoid, hasVoidFields_eq_false, NoVoid, everywhere_record_iff]
    simp only [ne_eq, reduceCtorEq, not_false_eq_true, true_and]
    exact forall₂_congr ih
  | union ts ih =>
    rw [hasVoid, hasVoidAll_eq_false, NoVoid, everywhere_union_iff]
    simp only [ne_eq, reduceCtorEq, not_false_eq_true, true_and]
    exact forall₂_congr ih

end Ty

/-- How a search for a fault ends. -/
def Fault.verdict : Option Fault → Except Fault Unit
  | none => .ok ()
  | some fault => .error fault

/-- The first of two faults decides, and the second if there is no first. -/
theorem Fault.verdict_or (first second : Option Fault) :
    verdict (first.or second) = (do verdict first; verdict second) := by
  cases first <;> rfl

namespace Registry

/-- What is wrong at a stop: an alias that is not declared, `var`, or a repeated name. -/
def faultAt (reg : Registry) : Ty.Stop → Option Fault
  | .node (.named n) => if reg.hasAlias n then none else some (.unknownType n)
  | .node .inferred =>
    some (.malformedTree "`var` used as a declared type outside a variable declaration")
  | .node _ => none
  | .fieldName earlier n => if n ∈ earlier then some (.duplicateDeclaration n) else none

/-- The first fault on a walk through a type. -/
def firstFault (reg : Registry) (t : Ty) : Option Fault := t.walk.findSome? reg.faultAt

/-! ## The first fault -/

section Walk

variable (reg : Registry)

mutual
/-- The check of a written type ends with the first fault on a walk through it. -/
theorem wellFormed_eq_verdict : ∀ t : Ty,
    reg.wellFormed t = Fault.verdict (t.walk.findSome? reg.faultAt)
  | .void | .bool | .char | .int | .string | .inferred => rfl
  | .array e => wellFormed_eq_verdict e
  | .record fs => wellFormedFields_eq_verdict [] fs
  | .named n => by
    show _ = Fault.verdict (List.findSome? reg.faultAt [.node (.named n)])
    rw [wellFormed, List.findSome?_singleton, faultAt]
    split <;> rfl
  | .union ts => wellFormedAll_eq_verdict ts

/-- The same for the fields of a record, with the names that come before them. -/
theorem wellFormedFields_eq_verdict : ∀ (seen : List String) (fs : List Field),
    reg.wellFormedFields seen fs = Fault.verdict ((Ty.walkFields seen fs).findSome? reg.faultAt)
  | _, [] => rfl
  | seen, ⟨n, t⟩ :: fs => by
    rw [wellFormedFields, Ty.walkFields, List.findSome?_cons, faultAt]
    split
    · rfl
    · -- no fault at the name: the walk goes on with the type of the field, then the other fields
      dsimp only
      rw [List.findSome?_append, Fault.verdict_or, wellFormed_eq_verdict t,
        wellFormedFields_eq_verdict (n :: seen) fs]

theorem wellFormedAll_eq_verdict : ∀ ts : List Ty,
    reg.wellFormedAll ts = Fault.verdict ((Ty.walkAll ts).findSome? reg.faultAt)
  | [] => rfl
  | t :: ts => by
    rw [wellFormedAll, Ty.walkAll, List.findSome?_append, Fault.verdict_or,
      wellFormed_eq_verdict t, wellFormedAll_eq_verdict ts]
end

end Walk

variable {reg : Registry} {t : Ty}

/-! ## Value types -/

/-- What a type without a fault satisfies at each node. -/
structure FaultlessNode (reg : Registry) (t : Ty) : Prop where
  declares : reg.Declares t
  ne_inferred : t ≠ .inferred
  fieldsDiffer : t.FieldsDiffer

/-- What a value type satisfies at each node. -/
structure ValueNode (reg : Registry) (t : Ty) : Prop extends reg.FaultlessNode t where
  ne_void : t ≠ .void

/-- A type whose aliases are declared, whose records do not repeat a name, and in which neither
`void` nor `var` occurs. -/
def ValueType (reg : Registry) (t : Ty) : Prop := t.Everywhere reg.ValueNode

/-- A type is faultless if each of its parts is by itself. -/
theorem faultless_iff_everywhere : reg.Faultless t ↔ t.Everywhere reg.FaultlessNode := by
  unfold Faultless
  induction t with
  | void | bool | char | int | string =>
    refine iff_of_true rfl fun u hu => ?_
    cases List.mem_singleton.1 hu
    exact ⟨trivial, nofun, trivial⟩
  -- `var` is the one type that is a fault by itself
  | inferred => exact iff_of_false nofun fun h => h.here.ne_inferred rfl
  | named n =>
    rw [wellFormed]
    constructor
    · intro h u hu
      cases List.mem_singleton.1 hu
      split at h
      · rename_i hn
        exact ⟨hn, nofun, trivial⟩
      · cases h
    · exact fun h => if_pos h.here.declares
  | array e ih =>
    rw [wellFormed, ih, Ty.everywhere_array_iff, and_iff_right ⟨trivial, nofun, trivial⟩]
  | record fs ih =>
    rw [wellFormed, wellFormedFields_eq_ok, Ty.everywhere_record_iff]
    constructor
    · rintro ⟨hnodup, -, hfields⟩
      exact ⟨⟨trivial, nofun, hnodup⟩, fun f hf => (ih f hf).1 (hfields f hf)⟩
    · rintro ⟨hnode, hfields⟩
      exact ⟨hnode.fieldsDiffer, fun _ _ => List.not_mem_nil,
        fun f hf => (ih f hf).2 (hfields f hf)⟩
  | union ts ih =>
    rw [wellFormed, wellFormedAll_eq_ok, Ty.everywhere_union_iff,
      and_iff_right ⟨trivial, nofun, trivial⟩]
    exact forall₂_congr ih

/-- It has no first fault then. -/
theorem firstFault_eq_none : reg.firstFault t = none ↔ t.Everywhere reg.FaultlessNode := by
  rw [← faultless_iff_everywhere, Faultless, wellFormed_eq_verdict, firstFault]
  cases t.walk.findSome? reg.faultAt <;> simp [Fault.verdict]

/-- A type is one of values if it is faultless, and `void` is no part of it. -/
theorem valueType_iff : reg.ValueType t ↔ t.Everywhere reg.FaultlessNode ∧ t.NoVoid := by
  constructor
  · exact fun h => ⟨fun u hu => (h u hu).toFaultlessNode, fun u hu => (h u hu).ne_void⟩
  · exact fun h u hu => ⟨h.1 u hu, h.2 u hu⟩

/-- The check in one piece: the first fault of the walk, or else `void` if it occurs. -/
theorem expectValueType_eq (span : Option Span) :
    reg.expectValueType t span =
      match reg.firstFault t with
      | some fault => .error ⟨fault, span⟩
      | none => t.expectNoVoid span := by
  rw [expectValueType, wellFormed_eq_verdict, firstFault]
  cases t.walk.findSome? reg.faultAt <;> rfl

/-- Exactly the types of values are accepted. -/
theorem expectValueType_eq_ok {span : Option Span} :
    reg.expectValueType t span = .ok () ↔ reg.ValueType t := by
  rw [expectValueType_eq, valueType_iff, ← firstFault_eq_none, ← Ty.hasVoid_eq_false]
  cases reg.firstFault t with
  | some fault => simp
  | none => cases h : t.hasVoid <;> simp [Ty.expectNoVoid, h]

/-- A failure is at the given span. It is the first fault on the walk, and is about `void` only
where there is none. -/
theorem expectValueType_eq_error {span : Option Span} {e : TypeError} :
    reg.expectValueType t span = .error e ↔ e.span = span ∧
      (reg.firstFault t = some e.fault ∨
        (e.fault = .voidNotPermitted ∧ t.Everywhere reg.FaultlessNode ∧ ¬ t.NoVoid)) := by
  rw [expectValueType_eq, ← firstFault_eq_none, ← Ty.hasVoid_eq_false]
  obtain ⟨fault, span'⟩ := e
  cases reg.firstFault t with
  -- a fault on the walk is reported, whether there is `void` or not
  | some fault' =>
    constructor
    · rintro ⟨⟩
      exact ⟨rfl, .inl rfl⟩
    · rintro ⟨rfl, hfault | ⟨-, hnone, -⟩⟩
      · cases hfault
        rfl
      · cases hnone
  | none =>
    -- no fault on the walk, so all depends on `void`
    show t.expectNoVoid span = _ ↔ _
    rw [Ty.expectNoVoid]
    split
    · rename_i hvoid
      constructor
      · rintro ⟨⟩
        exact ⟨rfl, .inr ⟨rfl, rfl, by simp [hvoid]⟩⟩
      · rintro ⟨rfl, hfault | ⟨rfl, -, -⟩⟩
        · cases hfault
        · rfl
    · rename_i hvoid
      constructor
      · intro hok
        cases hok
      · rintro ⟨-, hfault | ⟨-, -, hoccurs⟩⟩
        · cases hfault
        · exact absurd (Bool.eq_false_iff.2 hvoid) hoccurs

/-- A method returns nothing or a value. -/
theorem valueType_of_expectReturnType {span : Option Span}
    (h : reg.expectReturnType t span = .ok ()) (hvoid : t ≠ .void) : reg.ValueType t := by
  unfold expectReturnType at h
  split at h
  · exact absurd rfl hvoid
  · exact expectValueType_eq_ok.1 h

/-! ## What a type leads to -/

/-- One step into a type: to a component, or from an alias to its body. -/
inductive Enters (reg : Registry) : Ty → Ty → Prop
  | element (e : Ty) : Enters reg (.array e) e
  | field {f : Field} {fs : List Field} (h : f ∈ fs) : Enters reg (.record fs) f.ty
  | member {t : Ty} {ts : List Ty} (h : t ∈ ts) : Enters reg (.union ts) t
  | body {n : String} {t : Ty} (h : reg.alias? n = some t) : Enters reg (.named n) t

/-- A step from a type of values leads to one. -/
theorem ValueType.enters {u : Ty} (hbodies : reg.Bodies reg.ValueType) (ht : reg.ValueType t)
    (h : reg.Enters t u) : reg.ValueType u := by
  cases h with
  | element e => exact ht.element
  | field hf => exact ht.field hf
  | member hm => exact ht.member hm
  | body hbody => exact hbodies.of_alias? hbody

/-- So does any number of steps. -/
theorem ValueType.leads {u : Ty} (hbodies : reg.Bodies reg.ValueType) (ht : reg.ValueType t)
    (h : ReflTransGen reg.Enters t u) : reg.ValueType u := by
  induction h with
  | refl => exact ht
  | tail _ hstep ih => exact ih.enters hbodies hstep

end Registry

/-! ## The types written in a block -/

section Statements

variable {ctx : Context}

mutual
/-- The types written in a statement that passes its check are types of values. -/
theorem Stmt.check_valueTypes : ∀ (s : Stmt) {env : Env} {left : Env × Stmt},
    (s.check ctx env).Ends left () → ∀ t ∈ s.writtenTypes, ctx.registry.ValueType t
  | ⟨form, span⟩, env, left, h => by
    obtain ⟨form', hform, -⟩ := Stmt.check_ends h
    exact StmtForm.check_valueTypes form hform

/-- By cases on the statement. Only declarations and the cases of a `match` have types of their
own. -/
theorem StmtForm.check_valueTypes : ∀ (form : StmtForm) {span : Option Span} {env : Env}
    {left : Env × StmtForm}, (form.check ctx env span).Ends left () →
      ∀ t ∈ Stmt.writtenForm form, ctx.registry.ValueType t
  | .forLoop d condition step body, span, env, left, h => by
    obtain ⟨d', condition', env₁, step', inner, hd, -, -, hstep, hbody, -⟩ :=
      StmtForm.forLoop_ends h
    obtain ⟨-, hty, -⟩ := VarDecl.check_ends hd
    rw [Stmt.writtenForm, List.forall_mem_cons, List.forall_mem_append]
    exact ⟨Registry.expectValueType_eq_ok.1 hty, Stmt.check_valueTypes step hstep,
      Stmt.checkAll_valueTypes body hbody⟩
  | .ifElse condition onTrue onFalse, span, env, left, h => by
    obtain ⟨condition', l, r, merged, -, htrue, hfalse, -, -⟩ := StmtForm.ifElse_ends h
    rw [Stmt.writtenForm, List.forall_mem_append]
    exact ⟨Stmt.checkAll_valueTypes onTrue htrue, Stmt.checkAll_valueTypes onFalse hfalse⟩
  | .switchOn selector cases, span, env, left, h => by
    obtain ⟨selector', t, env₁, cases', -, hcases, -⟩ := StmtForm.switchOn_ends h
    exact SwitchCase.checkAll_valueTypes cases hcases
  | .matchType selector cases, span, env, left, h => by
    obtain ⟨selector', t, cases', -, hcases, -⟩ := StmtForm.matchType_ends h
    exact MatchCase.checkAll_valueTypes cases hcases
  | .whileLoop condition body, span, env, left, h => by
    obtain ⟨condition', env₁, body', -, hbody, -⟩ := StmtForm.whileLoop_ends h
    exact Stmt.checkAll_valueTypes body hbody
  | .declare d, span, env, left, h => by
    obtain ⟨d', hd, -⟩ := StmtForm.declare_ends h
    obtain ⟨-, hty, -⟩ := VarDecl.check_ends hd
    rw [Stmt.writtenForm, List.forall_mem_singleton]
    exact Registry.expectValueType_eq_ok.1 hty
  -- no type is written in the others
  | .assert _, _, _, _, _ | .assign _ _, _, _, _, _ | .breakLoop, _, _, _, _
  | .continueLoop, _, _, _, _ | .call _ _, _, _, _, _ | .print _, _, _, _, _ | .ret _, _, _, _, _
  | .infer _ _ _, _, _, _, _ => fun t ht => absurd ht List.not_mem_nil

theorem Stmt.checkAll_valueTypes : ∀ (ss : List Stmt) {env : Env} {left : Env × List Stmt},
    (Stmt.checkAll ctx env ss).Ends left () → ∀ t ∈ Stmt.writtenAll ss, ctx.registry.ValueType t
  | [], _, _, _ => fun t ht => absurd ht List.not_mem_nil
  | s :: ss, env, left, h => by
    obtain ⟨env₁, s', env₂, rest, hs, hss, -⟩ := Stmt.cons_ends h
    rw [Stmt.writtenAll, List.forall_mem_append]
    exact ⟨Stmt.check_valueTypes s hs, Stmt.checkAll_valueTypes ss hss⟩

theorem SwitchCase.checkAll_valueTypes : ∀ (cs : List SwitchCase) {selector : Ty} {env : Env}
    {left : Env × List SwitchCase}, (SwitchCase.checkAll ctx selector env cs).Ends left () →
      ∀ t ∈ Stmt.writtenSwitch cs, ctx.registry.ValueType t
  | [], _, _, _, _ => fun t ht => absurd ht List.not_mem_nil
  | ⟨value, body⟩ :: cs, selector, env, left, h => by
    obtain ⟨value', env₁, body', env₂, rest, -, hbody, hrest, -⟩ := SwitchCase.cons_ends h
    rw [Stmt.writtenSwitch, List.forall_mem_append]
    exact ⟨Stmt.checkAll_valueTypes body hbody, SwitchCase.checkAll_valueTypes cs hrest⟩

theorem MatchCase.checkAll_valueTypes : ∀ (cs : List MatchCase) {selector : Ty}
    {span : Option Span} {env : Env} {cs' : List MatchCase},
      (MatchCase.checkAll ctx selector span env cs).Ends cs' () →
        ∀ t ∈ Stmt.writtenMatch cs, ctx.registry.ValueType t
  | [], _, _, _, _, _ => fun t ht => absurd ht List.not_mem_nil
  | ⟨t, x, body, caseSpan⟩ :: cs, selector, span, env, cs', h => by
    obtain ⟨env₁, body', rest, hty, -, hbody, hrest, -⟩ := MatchCase.cons_ends h
    rw [Stmt.writtenMatch, List.forall_mem_cons, List.forall_mem_append]
    exact ⟨Registry.expectValueType_eq_ok.1 hty, Stmt.checkAll_valueTypes body hbody,
      MatchCase.checkAll_valueTypes cs hrest⟩
end

end Statements

/-- The types of parameters are types of values. -/
theorem Parameter.bindAll_valueTypes {reg : Registry} {span : Option Span} {env env' : Env}
    {ps : List Parameter} (h : Parameter.bindAll reg span env ps = .ok env') :
    ∀ t ∈ ps.map Parameter.ty, reg.ValueType t := by
  induction ps generalizing env with
  | nil => exact fun t ht => absurd ht List.not_mem_nil
  | cons p ps ih =>
    simp only [Parameter.bindAll, bind_eq_ok] at h
    obtain ⟨⟨⟩, hty, h⟩ := h
    split at h
    · cases h
    · rw [List.map_cons, List.forall_mem_cons]
      exact ⟨Registry.expectValueType_eq_ok.1 hty, ih h⟩

/-! ## Accepted files -/

/-- The types that a declaration writes for values: the body of an alias, the types of parameters,
of variables and of `match` cases, and what a method returns, unless that is `void`. -/
def Decl.valueTypes : Decl → List Ty
  | .alias d => [d.ty]
  | .method d =>
    d.params.map Parameter.ty ++ Stmt.writtenAll d.body ++ if d.ret = .void then [] else [d.ret]

/-- All types written in a declaration that passes its check are, but for `void` as what a method
returns. -/
theorem Decl.check_valueTypes {reg : Registry} {d : Decl}
    (h : (d.check reg).run.result = .ok ()) : ∀ t ∈ d.valueTypes, reg.ValueType t := by
  rcases d with d | d
  · rw [valueTypes, List.forall_mem_singleton]
    exact Registry.expectValueType_eq_ok.1 (Decl.check_alias_eq_ok h)
  · obtain ⟨env, henv, hret, hbody⟩ := Decl.check_method_eq_ok h
    rw [valueTypes, List.forall_mem_append, List.forall_mem_append]
    refine ⟨⟨Parameter.bindAll_valueTypes henv, Stmt.checkAll_valueTypes d.body ⟨rfl, hbody⟩⟩, ?_⟩
    split
    · exact fun t ht => absurd ht List.not_mem_nil
    · rename_i hvoid
      rw [List.forall_mem_singleton]
      exact Registry.valueType_of_expectReturnType hret hvoid

/-- The aliases of a file whose declarations pass their check stand for value types. -/
theorem Registry.bodies_valueType {f : File} {reg : Registry}
    (hbuild : (Registry.build f).result = .ok reg)
    (hpasses : ∀ d ∈ f.decls, (d.check reg).run.result = .ok ()) : reg.Bodies reg.ValueType := by
  obtain ⟨hreg, -⟩ := Registry.build_ok hbuild
  intro a ha
  rw [hreg, Registry.ofFile] at ha
  -- the registry holds nothing but the aliases that are declared, and each was checked
  obtain ⟨d, hd, rfl⟩ := List.mem_map.1 ha
  have hpass := hpasses _ (File.mem_aliasDecls.1 hd)
  exact expectValueType_eq_ok.1 (Decl.check_alias_eq_ok hpass)

/-- The check of a written type succeeds for value types exactly. It fails at the given span, with
the first fault on a walk through the type, or with `void` if the type has no other fault. The value
types written in an accepted file lead, through components and the bodies of aliases, to types
without `void`, without `var` and without an undeclared alias. -/
theorem Registry.expectValueType_exact :
    (∀ (reg : Registry) (t : Ty) (span : Option Span),
      (reg.expectValueType t span = .ok () ↔ reg.ValueType t) ∧
        ∀ e, reg.expectValueType t span = .error e ↔ e.span = span ∧
          (reg.firstFault t = some e.fault ∨
            (e.fault = .voidNotPermitted ∧ t.Everywhere reg.FaultlessNode ∧ ¬ t.NoVoid))) ∧
      ∀ f : File, f.check.value.2 = .ok () →
        ∃ reg, (Registry.build f).result = .ok reg ∧
          ∀ d ∈ f.decls, ∀ t ∈ d.valueTypes, ∀ u, ReflTransGen reg.Enters t u →
            u.NoVoid ∧ u.NoInferred ∧ reg.Covers u := by
  refine ⟨fun reg t span => ⟨expectValueType_eq_ok, fun e => expectValueType_eq_error⟩,
    fun f haccepted => ?_⟩
  obtain ⟨reg, hbuild, hpasses⟩ := File.check_eq_ok haccepted
  refine ⟨reg, hbuild, fun d hd t ht u hu => ?_⟩
  -- bodies of aliases are written types too, so the walk stays among types of values
  have hvalue : reg.ValueType u :=
    (Decl.check_valueTypes (hpasses d hd) t ht).leads (bodies_valueType hbuild hpasses) hu
  exact ⟨fun v hv => (hvalue v hv).ne_void, fun v hv => (hvalue v hv).ne_inferred,
    fun v hv => (hvalue v hv).declares⟩

/-- A record with three faults beside its `void`. -/
def crowdedRecord : Ty :=
  .record [⟨"a", .void⟩, ⟨"b", .array (.named "Nope")⟩, ⟨"a", .inferred⟩]

/-- A method with a parameter, a variable and a `match` case. -/
def sizeMethod : MethodDecl where
  name := "size"
  params := [{ name := "t", ty := .named "Tree" }]
  ret := .int
  body := [
    { form := .declare { name := "ts", ty := .array (.named "Tree"), init := none } },
    { form := .matchType { form := .field { form := .var "t" } "key" }
        [{ ty := .int, name := "k", body := [{ form := .ret (some { form := .var "k" }) }] }] },
    { form := .ret (some { form := .constant (.int 1) }) }]

/-- A file with an alias that leads back to itself. -/
def treeFile : File where
  decls := [
    .alias
      { name := "Tree"
        ty := .record [⟨"key", .named "Key"⟩, ⟨"parts", .array (.named "Tree")⟩] },
    .alias { name := "Key", ty := .union [.int, .string] },
    .method sizeMethod]

/-- The record has several faults, of which the first on the walk is reported. In the file, the
alias leads to itself and to the key. -/
theorem Registry.expectValueType_exact_tree :
    (∀ span, ({} : Registry).expectValueType crowdedRecord span =
        .error ⟨.unknownType "Nope", span⟩) ∧
      treeFile.check.value.2 = .ok () ∧
      (Registry.ofFile treeFile).Covers (.named "Key") := by
  have haccepted : treeFile.check.value.2 = .ok () := by decide +kernel
  obtain ⟨hexact, hfiles⟩ := expectValueType_exact
  obtain ⟨reg, hbuild, hreach⟩ := hfiles treeFile haccepted
  obtain ⟨rfl, -⟩ := build_ok hbuild
  refine ⟨fun span => ((hexact {} crowdedRecord span).2 _).2 ⟨rfl, .inl (by rfl)⟩, haccepted, ?_⟩
  -- from the type of the local variable through the array's elements and the field of the alias
  have hleads : ReflTransGen (ofFile treeFile).Enters (.array (.named "Tree")) (.named "Key") :=
    ((ReflTransGen.single (.element _)).tail (.body (by rfl))).tail
      (.field (f := ⟨"key", .named "Key"⟩) List.mem_cons_self)
  have hmethod : .method sizeMethod ∈ treeFile.decls := by simp [treeFile]
  exact (hreach _ hmethod _ (by decide +kernel) _ hleads).2.2

end WhileTyping
