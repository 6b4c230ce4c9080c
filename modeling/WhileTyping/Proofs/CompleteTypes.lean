import WhileTyping.Proofs.AcceptedFile
import WhileTyping.Proofs.BareTrees
import WhileTyping.Proofs.Sites

/-!
# Types left on an accepted file

Checking a fresh file that is accepted leaves a complete tree: every expression has a type, every
`var` declaration the type of its initial value, and all of these types are settled.

* **`File.checked_methods`**: each method of the tree that is left is a method of the file, with the
  body that its check leaves.
* **`File.checked_bodies`**: the body has been checked fresh and in a settled environment.
* **`Stmt.cell_of_ready`**: a `var` declaration that passes its check holds the type left on its
  initial value.
-/

namespace WhileTyping

/-! ## The tree that is left -/

/-- If all declarations pass, the run comes to each, and keeps what its check leaves. -/
theorem Session.decls_checkDecls {s : Session} {ds : List Decl}
    (hpasses : ∀ d ∈ ds, (d.check s.registry).run.result = .ok ()) :
    (s.checkDecls ds).decls = ds.map fun d => (d.check s.registry).left := by
  induction ds with
  | nil => rfl
  | cons d ds ih =>
    obtain ⟨hd, hds⟩ := List.forall_mem_cons.1 hpasses
    rw [checkDecls, result_checkDecl, hd, List.map_cons, ← ih hds, left_checkDecl]

/-- An alias is left as it is. -/
theorem Decl.check_alias_ends {reg : Registry} {d : AliasDecl} {left : Decl}
    (h : ((Decl.alias d).check reg).Ends left ()) : left = .alias d := by
  simp only [check, Visit.ends_after, Visit.ends_mk] at h
  obtain ⟨_, -, rfl, -⟩ := h
  rfl

namespace File

variable {f : File} {reg : Registry} (hbuild : (Registry.build f).result = .ok reg)
  (hpasses : ∀ d ∈ f.decls, (d.check reg).run.result = .ok ())

include hbuild hpasses

/-- The declarations of an accepted file are left as the check of each leaves it. -/
theorem decls_check : f.check.value.1.decls = f.decls.map fun d => (d.check reg).left := by
  unfold File.check Session.start
  dsimp only
  rw [hbuild]
  exact Session.decls_checkDecls hpasses

/-- The methods of the tree that an accepted file is left as. -/
theorem checked_methods : ∀ d' ∈ f.check.value.1.methodDecls, ∃ d ∈ f.methodDecls, ∃ env body,
    Parameter.bindAll reg d.span {} d.params = .ok env ∧
    (Stmt.checkAll ⟨reg, d.ret⟩ env d.body).Ends body () ∧ d' = { d with body := body.2 } := by
  intro d' hd'
  have hmem := mem_methodDecls.1 hd'
  rw [decls_check hbuild hpasses, List.mem_map] at hmem
  obtain ⟨d | d, hd, hleft⟩ := hmem
  · cases Decl.check_alias_ends ⟨hleft, hpasses _ hd⟩
  · obtain ⟨env, body, henv, -, hbody, hmethod⟩ := Decl.check_method_ends ⟨hleft, hpasses _ hd⟩
    cases hmethod
    exact ⟨d, mem_methodDecls.2 hd, env, body, henv, hbody, rfl⟩

end File

/-! ## Cells -/

/-- The type that is found for an expression is left at its root. -/
theorem Expr.ty_of_synth {reg : Registry} {env : Env} {e e' : Expr} {t : Ty}
    (h : (e.synth reg env).Ends e' t) : e'.ty = some t := by
  obtain ⟨form, span, ty⟩ := e
  cases ty with
  | some u =>
    obtain ⟨rfl, hu⟩ := Visit.ends_mk.1 h
    cases hu
    rfl
  | none =>
    simp only [Expr.synth, Visit.ends_andThen, Visit.ends_mk, Check.result_pure] at h
    obtain ⟨form', u, -, rfl, hu⟩ := h
    cases hu
    rfl

/-- A `var` declaration is left where there was one, with the type of its initial value. -/
theorem StmtForm.cell_of_check {ctx : Context} {env env' : Env} {span : Option Span}
    {form : StmtForm} {x : String} {cell : Ty} {init : Expr}
    (h : (form.check ctx env span).Ends (env', .infer x cell init) ()) : init.ty = some cell := by
  have hbare := StmtForm.bare_check ctx env span form
  rw [h.1] at hbare
  cases form with
  | infer y cell' init' =>
    obtain ⟨init₁, t, -, hinit, hleft⟩ := StmtForm.infer_ends h
    cases hleft
    exact Expr.ty_of_synth hinit
  | assert | assign | breakLoop | continueLoop | forLoop | ifElse | call | print | ret | switchOn
  | matchType | declare | whileLoop => simp [Stmt.bareForm] at hbare

/-- The same where a block comes to the statement. -/
theorem Stmt.cell_of_ready {ctx : Context} {p : Env × Stmt} {x : String} {cell : Ty} {init : Expr}
    (hready : Ready ctx p.1 p.2) (hform : (checkedAt ctx p).form = .infer x cell init) :
    init.ty = some cell := by
  obtain ⟨env, form, span⟩ := p
  rw [checkedAt] at hform
  generalize hleft : (check ctx env ⟨form, span⟩).left = left at hform
  obtain ⟨form', hcheck, hs⟩ := check_ends ⟨hleft, hready.passes⟩
  rw [hs] at hform
  cases hform
  exact StmtForm.cell_of_check hcheck

/-! ## Accepted files -/

/-- The methods of an accepted file, each with the block that is left of its body. -/
theorem File.checked_bodies {f : File} {reg : Registry} (hfresh : f.Fresh) (hcan : f.Canonical)
    (hbuild : (Registry.build f).result = .ok reg)
    (hpasses : ∀ d ∈ f.decls, (d.check reg).run.result = .ok ()) :
    ∀ d' ∈ f.check.value.1.methodDecls, ∃ ret env body left,
      Stmt.Prepared ⟨reg, ret⟩ env body ∧ (Stmt.checkAll ⟨reg, ret⟩ env body).Ends left () ∧
        d'.body = left.2 := by
  intro d' hd'
  obtain ⟨d, hd, env, left, henv, hbody, rfl⟩ := File.checked_methods hbuild hpasses d' hd'
  obtain ⟨env', henv', hprepared⟩ := File.prepared hcan hbuild hpasses hfresh hd
  cases henv.symm.trans henv'
  exact ⟨d.ret, env, d.body, left, hprepared _ (List.mem_cons_self ..), hbody, rfl⟩

/-- In the tree that an accepted file is left as, all expressions and `var` declarations have
settled types, and the type of a `var` declaration is that of its initial value. Apart from its
types, the tree is that of the file. -/
theorem File.accepted_types_complete {f : File} (hfresh : f.Fresh) (hcan : f.Canonical)
    (haccepted : f.check.value.2 = .ok ()) :
    f.check.value.1.bare = f.bare ∧
      (∀ d ∈ f.check.value.1.methodDecls,
        ∀ s ∈ Stmt.slotsAll d.body, s.Full (Registry.ofFile f)) ∧
      ∀ d ∈ f.check.value.1.methodDecls, ∀ s ∈ Stmt.nodesAll d.body, ∀ x cell init,
        s.form = .infer x cell init → init.ty = some cell := by
  obtain ⟨reg, hbuild, hpasses⟩ := File.check_eq_ok haccepted
  have hwf := Registry.wellFounded_unfolds hbuild
  have hreg := File.allSettled hcan hbuild hpasses
  have hbodies := File.checked_bodies hfresh hcan hbuild hpasses
  obtain ⟨rfl, -⟩ := Registry.build_ok hbuild
  refine ⟨File.bare_check f, fun d hd => ?_, fun d hd s hs x cell init hform => ?_⟩
  · -- the slots of a body are full after its check
    obtain ⟨ret, env, body, left, hprepared, hends, hleft⟩ := hbodies d hd
    rw [hleft]
    exact (Stmt.checkAll_settles hwf hreg body hprepared.settled hprepared.empty
      hprepared.canonical hends).2.1
  · -- every `var` declaration that is left is one that the check has come to
    obtain ⟨ret, env, body, left, hprepared, hends, hleft⟩ := hbodies d hd
    obtain ⟨hnodes, hready⟩ := Stmt.checkAll_sites hwf hreg body hprepared.settled hprepared.empty
      hprepared.canonical hends
    rw [hleft, hnodes] at hs
    obtain ⟨p, hp, rfl⟩ := List.mem_map.1 hs
    exact Stmt.cell_of_ready (hready p hp) hform

/-! ## A variable of two record types -/

/-- The body of a method in which `q` is a `Point`, or a record that has another field for `y`. -/
def shiftBody : List Stmt :=
  [{ form := .infer "q" .inferred { form := .var "p" } },
    { form := .ifElse { form := .var "c" }
        [{ form := .assign { form := .var "q" }
            { form := .record [⟨"x", { form := .constant (.int 1) }⟩,
                ⟨"z", { form := .constant (.int 2) }⟩] } }] [] },
    { form := .infer "both" .inferred { form := .array [{ form := .var "q" }] } },
    { form := .ret (some
        { form := .call "next" [{ form := .field { form := .var "q" } "x" }] }) }]

/-- A file whose method `shift` calls a method that is declared after it. -/
def shiftFile : File where
  decls :=
    [.alias { name := "Point", ty := .record [⟨"x", .int⟩, ⟨"y", .int⟩] },
      .method
        { name := "shift"
          params := [{ name := "p", ty := .named "Point" }, { name := "c", ty := .bool }]
          ret := .int
          body := shiftBody },
      .method
        { name := "next"
          params := [{ name := "n", ty := .int }]
          ret := .int
          body := [{ form := .ret (some { form := .var "n" }) }] }]

/-- The variable holds a union of two record types, which its cell keeps along with the types of all
nodes. -/
theorem File.accepted_types_complete_shift :
    (shiftFile.Fresh ∧ shiftFile.Canonical ∧ shiftFile.check.value.2 = .ok ()) ∧
      .cell (.array (.union [.record [⟨"x", .int⟩, ⟨"z", .int⟩], .named "Point"])) ∈
        shiftFile.check.value.1.methodDecls.flatMap (fun d => Stmt.slotsAll d.body) ∧
      (∀ d ∈ shiftFile.check.value.1.methodDecls,
        ∀ s ∈ Stmt.slotsAll d.body, s.Full (Registry.ofFile shiftFile)) ∧
      ∀ d ∈ shiftFile.check.value.1.methodDecls, ∀ s ∈ Stmt.nodesAll d.body, ∀ x cell init,
        s.form = .infer x cell init → init.ty = some cell := by
  have hfresh : shiftFile.Fresh := by decide +kernel
  have hcan : shiftFile.Canonical := by decide +kernel
  have haccepted : shiftFile.check.value.2 = .ok () := by decide +kernel
  obtain ⟨-, hfull, hcells⟩ := File.accepted_types_complete hfresh hcan haccepted
  exact ⟨⟨hfresh, hcan, haccepted⟩, by decide +kernel, hfull, hcells⟩

end WhileTyping
