import WhileTyping.Proofs.BuiltRegistry
import WhileTyping.Proofs.SettledBlocks
import WhileTyping.Session

/-!
# Accepted files

What follows from a file being accepted: each declaration passes its check against the registry of
the file. If the file is fresh and its written unions are canonical, all types that the check starts
from are settled, and so is every block that it comes to.

* **`File.Fresh`**, **`File.Canonical`**: no type has been found for the tree yet; the written
  unions have members, none of them repeated or a union.
* **`File.check_eq_ok`**: acceptance, declaration by declaration.
* **`File.registry_types`**, **`File.allSettled`**: the types in the registry of an accepted file
  have passed their check, and are settled.
* **`File.prepared`**: so is every block of its methods.
-/

namespace WhileTyping

/-! ## Fresh files -/

/-- The types that a declaration writes down, those of the body of a method included. -/
def Decl.writtenTypes : Decl → List Ty
  | .alias d => [d.ty]
  | .method d => d.params.map Parameter.ty ++ d.ret :: Stmt.writtenAll d.body

namespace File

/-- No expression has a type, and no `var` declaration a resolved cell. -/
def Fresh (f : File) : Prop := ∀ d ∈ f.decls, ∀ s ∈ d.slots, s.Empty

instance (f : File) : Decidable f.Fresh :=
  inferInstanceAs (Decidable (∀ d ∈ f.decls, ∀ s ∈ d.slots, s.Empty))

/-- The unions of every written type have members, none of them repeated or a union. -/
def Canonical (f : File) : Prop := ∀ d ∈ f.decls, ∀ t ∈ d.writtenTypes, t.Canonical

instance (f : File) : Decidable f.Canonical :=
  inferInstanceAs (Decidable (∀ d ∈ f.decls, ∀ t ∈ d.writtenTypes, t.Canonical))

/-- The aliases of a file are those among its declarations. -/
theorem mem_aliasDecls {f : File} {d : AliasDecl} : d ∈ f.aliasDecls ↔ .alias d ∈ f.decls := by
  simp only [aliasDecls, List.mem_filterMap]
  constructor
  · rintro ⟨d' | d', hmem, hd⟩
    · cases hd
      exact hmem
    · cases hd
  · exact fun h => ⟨_, h, rfl⟩

/-- The methods of a file are those among its declarations. -/
theorem mem_methodDecls {f : File} {d : MethodDecl} : d ∈ f.methodDecls ↔ .method d ∈ f.decls := by
  simp only [methodDecls, List.mem_filterMap]
  constructor
  · rintro ⟨d' | d', hmem, hd⟩
    · cases hd
    · cases hd
      exact hmem
  · exact fun h => ⟨_, h, rfl⟩

end File

/-! ## Declarations -/

namespace Session

/-- A session starts with the registry that is built for its file. -/
theorem registry_of_start {f : File} {options : Options} {s : Session}
    (h : (start f options).value = .ok s) : (Registry.build f).result = .ok s.registry := by
  simp only [start] at h
  split at h
  · rename_i reg hreg
    cases h
    exact hreg
  · cases h

/-- A session adds events to the check of a declaration, and nothing to its result. -/
theorem result_checkDecl (s : Session) (d : Decl) :
    (s.checkDecl d).run.result = (d.check s.registry).run.result := by
  unfold checkDecl
  dsimp only
  split
  · rfl
  · rename_i h
    exact h.symm

/-- A run without errors has come to every declaration, and each has passed. -/
theorem passes_of_checkDecls {s : Session} {ds : List Decl} (h : (s.checkDecls ds).errors = []) :
    ∀ d ∈ ds, (d.check s.registry).run.result = .ok () := by
  induction ds with
  | nil => exact nofun
  | cons d ds ih =>
    unfold checkDecls at h
    dsimp only at h
    split at h
    · rename_i hd
      rw [result_checkDecl] at hd
      exact List.forall_mem_cons.2 ⟨hd, ih h⟩
    · -- an error is kept, whether the run stops here or goes on
      split at h <;> cases h

end Session

/-- The registry of an accepted file is built, and each of its declarations passes its check. -/
theorem File.check_eq_ok {f : File} (h : f.check.value.2 = .ok ()) :
    ∃ reg, (Registry.build f).result = .ok reg ∧
      ∀ d ∈ f.decls, (d.check reg).run.result = .ok () := by
  unfold File.check at h
  dsimp only at h
  split at h
  · cases h
  · rename_i s hs
    dsimp only at h
    split at h
    · rename_i hnil
      exact ⟨s.registry, Session.registry_of_start hs, Session.passes_of_checkDecls hnil⟩
    · cases h

namespace Decl

variable {reg : Registry}

/-- An alias that passes its check stands for a type that passes its own. -/
theorem check_alias_eq_ok {d : AliasDecl} (h : ((Decl.alias d).check reg).run.result = .ok ()) :
    reg.expectValueType d.ty d.span = .ok () := by
  have hends : ((Decl.alias d).check reg).Ends _ () := ⟨rfl, h⟩
  simp only [check, checkSignature, Visit.ends_after, Check.result_bind_eq_ok,
    Check.result_lift] at hends
  obtain ⟨_, ⟨_, -, ⟨⟩, hty, -⟩, -⟩ := hends
  exact hty

/-- A method that passes its check has parameters that can be bound, and is left with the body that
the check of its body leaves. -/
theorem check_method_ends {d : MethodDecl} {left : Decl}
    (h : ((Decl.method d).check reg).Ends left ()) :
    ∃ env body, Parameter.bindAll reg d.span {} d.params = .ok env ∧
      reg.expectReturnType d.ret d.span = .ok () ∧
      (Stmt.checkAll ⟨reg, d.ret⟩ env d.body).Ends body () ∧
      left = .method { d with body := body.2 } := by
  simp only [check, checkSignature, Visit.ends_after, Visit.ends_within, Check.result_bind_eq_ok,
    Check.result_lift, Check.result_pure] at h
  obtain ⟨env, ⟨_, -, env', henv, ⟨⟩, hret, hpure⟩, body, hbody, rfl⟩ := h
  cases hpure
  exact ⟨env, body, henv, hret, hbody, rfl⟩

/-- A method passes its check with its parameters, its return type and its body. -/
theorem check_method_eq_ok {d : MethodDecl} (h : ((Decl.method d).check reg).run.result = .ok ()) :
    ∃ env, Parameter.bindAll reg d.span {} d.params = .ok env ∧
      reg.expectReturnType d.ret d.span = .ok () ∧
      (Stmt.checkAll ⟨reg, d.ret⟩ env d.body).run.result = .ok () := by
  obtain ⟨env, _, henv, hret, hbody, -⟩ := check_method_ends ⟨rfl, h⟩
  exact ⟨env, henv, hret, hbody.2⟩

end Decl

/-- Parameters with canonical types make a settled environment. -/
theorem Parameter.settled_bindAll {reg : Registry} {span : Option Span} {env env' : Env}
    {ps : List Parameter} (henv : env.Settled reg) (hcan : ∀ p ∈ ps, p.ty.Canonical)
    (h : Parameter.bindAll reg span env ps = .ok env') : env'.Settled reg := by
  induction ps generalizing env with
  | nil =>
    cases h
    exact henv
  | cons p ps ih =>
    obtain ⟨hp, hps⟩ := List.forall_mem_cons.1 hcan
    simp only [Parameter.bindAll, bind_eq_ok] at h
    obtain ⟨⟨⟩, hty, h⟩ := h
    split at h
    · cases h
    · exact ih (henv.insert _ (Registry.settled_of_expectValueType hty hp)) hps h

/-! ## Accepted files -/

/-- The types that the registry of an accepted file holds are written in the file, and pass their
check there. -/
theorem File.registry_types {f : File} {reg : Registry} {P : Ty → Prop}
    (hbuild : (Registry.build f).result = .ok reg)
    (hpasses : ∀ d ∈ f.decls, (d.check reg).run.result = .ok ())
    (hwritten : ∀ d ∈ f.decls, ∀ t ∈ d.writtenTypes, reg.Faultless t → P t) :
    reg.Bodies P ∧ ∀ s ∈ reg.methods, P s.ret := by
  obtain ⟨hreg, -⟩ := Registry.build_ok hbuild
  constructor
  · -- the body of an alias is what its declaration writes
    intro a ha
    rw [hreg, Registry.ofFile] at ha
    obtain ⟨d, hd, rfl⟩ := List.mem_map.1 ha
    have hmem := File.mem_aliasDecls.1 hd
    exact hwritten _ hmem d.ty (List.mem_singleton_self _)
      (Registry.faultless_of_expectValueType (Decl.check_alias_eq_ok (hpasses _ hmem)))
  · -- a method contributes what it returns
    intro s hs
    rw [hreg, Registry.ofFile] at hs
    obtain ⟨d, hd, rfl⟩ := List.mem_map.1 hs
    have hmem := File.mem_methodDecls.1 hd
    obtain ⟨-, -, hret, -⟩ := Decl.check_method_eq_ok (hpasses _ hmem)
    exact hwritten _ hmem d.ret (List.mem_append_right _ (List.mem_cons_self ..))
      (Registry.faultless_of_expectReturnType hret)

section Accepted

variable {f : File} {reg : Registry} (hcan : f.Canonical)
  (hbuild : (Registry.build f).result = .ok reg)
  (hpasses : ∀ d ∈ f.decls, (d.check reg).run.result = .ok ())

include hcan hbuild hpasses

/-- The types in the registry of an accepted canonical file are settled. -/
theorem File.allSettled : reg.AllSettled := by
  have hwritten : ∀ d ∈ f.decls, ∀ t ∈ d.writtenTypes, reg.Faultless t → reg.Settled t :=
    fun d hd t ht hfaultless => Registry.settled_of_faultless hfaultless (hcan d hd t ht)
  obtain ⟨hbodies, hreturns⟩ := File.registry_types hbuild hpasses hwritten
  exact ⟨hbodies, hreturns⟩

/-- Every block of a method of an accepted file is checked in a settled environment, fresh, and
passes. -/
theorem File.prepared (hfresh : f.Fresh) {d : MethodDecl} (hd : d ∈ f.methodDecls) :
    ∃ env, Parameter.bindAll reg d.span {} d.params = .ok env ∧
      ∀ p ∈ (env, d.body) :: Stmt.blocksAll ⟨reg, d.ret⟩ env d.body,
        Stmt.Prepared ⟨reg, d.ret⟩ p.1 p.2 := by
  have hmem := File.mem_methodDecls.1 hd
  have hsettled := File.allSettled hcan hbuild hpasses
  obtain ⟨env, henv, -, hbody⟩ := Decl.check_method_eq_ok (hpasses _ hmem)
  have hcanonical := hcan _ hmem
  rw [Decl.writtenTypes, List.forall_mem_append, List.forall_mem_cons, List.forall_mem_map]
    at hcanonical
  obtain ⟨hparams, -, hwritten⟩ := hcanonical
  -- a method starts with its parameters only
  have hempty : ({} : Env).Settled reg := fun x t h => by cases h
  have henv' := Parameter.settled_bindAll hempty hparams henv
  have hwf := Registry.wellFounded_unfolds hbuild
  -- the check of the body comes to every block in it from a settled environment
  obtain ⟨-, -, hblocks⟩ :=
    Stmt.checkAll_settles hwf hsettled d.body henv' (hfresh _ hmem) hwritten ⟨rfl, hbody⟩
  exact ⟨env, henv, hblocks⟩

end Accepted

end WhileTyping
