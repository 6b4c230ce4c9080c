import WhileTyping.Proofs.CompleteTypes
import WhileTyping.Proofs.FirstVarDecl
import WhileTyping.Proofs.SessionRuns

/-!
# A second check of a file

A file without `var` declarations can be checked any number of times, with the same result. An
accepted file with a `var` declaration can be checked once: the second check stops at the first of
them, whose cell the first check has resolved. Neither changes the tree that the first check has
left.

* **`Registry.build_bare`**: the registry does not depend on the types found.
* **`Decl.check_again`**, **`Session.checkDecls_again`**: declarations without `var` declarations.
* **`Decl.check_stops`**, **`Session.checkDecls_stops`**: declarations up to the first `var`
  declaration.
* **`File.check_again`**, **`File.check_stops`**: the same for a file.
-/

namespace WhileTyping

open Visit

/-! ## The registry of a file that has been checked -/

/-- A method without the types that were found in it. -/
def MethodDecl.bare (d : MethodDecl) : MethodDecl := { d with body := Stmt.bareAll d.body }

/-- A change that keeps names does not change which is repeated first. -/
theorem firstRepeated_map {α β : Type} {name : α → String} {name' : β → String} {g : α → β}
    (hname : ∀ a, name' (g a) = name a) (seen : List String) (l : List α) :
    firstRepeated name' seen (l.map g) = (firstRepeated name seen l).map g := by
  induction l generalizing seen with
  | nil => rfl
  | cons a l ih =>
    rw [List.map_cons, firstRepeated, firstRepeated, hname, ih]
    split <;> rfl

/-- Aliases hold no types that were found. -/
theorem File.aliasDecls_bare (f : File) : f.bare.aliasDecls = f.aliasDecls := by
  rw [aliasDecls, bare, List.filterMap_map, aliasDecls]
  congr 1
  funext d
  cases d <;> rfl

theorem File.methodDecls_bare (f : File) :
    f.bare.methodDecls = f.methodDecls.map MethodDecl.bare := by
  rw [methodDecls, bare, List.filterMap_map, methodDecls, List.map_filterMap]
  congr 1
  funext d
  cases d <;> rfl

namespace Registry

/-- Signatures do not either. -/
theorem ofFile_bare (f : File) : ofFile f.bare = ofFile f := by
  rw [ofFile, File.aliasDecls_bare, File.methodDecls_bare, List.map_map, ofFile]
  rfl

/-- So a registry is built without looking at them. -/
theorem build_bare (f : File) : build f.bare = build f := by
  have hmethods : firstRepeated MethodDecl.name [] (f.methodDecls.map MethodDecl.bare) =
      (firstRepeated MethodDecl.name [] f.methodDecls).map MethodDecl.bare :=
    firstRepeated_map (fun _ => rfl) [] _
  unfold build
  rw [ofFile_bare, File.aliasDecls_bare, File.methodDecls_bare, hmethods]
  cases firstRepeated MethodDecl.name [] f.methodDecls <;> rfl

/-- The registry of a file is the same after a check, which only fills in types. -/
theorem build_check (f : File) : build f.check.value.1 = build f := by
  rw [← build_bare, File.bare_check, build_bare]

end Registry

/-! ## Declarations -/

namespace Decl

/-- The statements of a declaration. -/
def nodes : Decl → List Stmt
  | .alias _ => []
  | .method d => Stmt.nodesAll d.body

variable {reg : Registry}

/-- A declaration without `var` comes to the same again. -/
theorem check_again {d d' : Decl} {q : Except TypeError Unit} (hfree : Stmt.VarFree d.nodes)
    (h : (d.check reg).outcome = (d', q)) : (d'.check reg).outcome = (d', q) := by
  rcases outcome_after_cases h with ⟨e, hsignature, rfl, rfl⟩ | ⟨env, hsignature, h⟩
  · exact outcome_after_of_error _ _ hsignature
  match d with
  | .alias d =>
    cases h
    exact outcome_after_of_ok _ _ hsignature
  | .method d =>
    obtain ⟨left, hbody, rfl⟩ := outcome_within_eq.1 h
    refine (outcome_after_of_ok _ _ hsignature).trans ?_
    exact outcome_within_eq.2 ⟨left, Stmt.checkAll_again d.body hfree hbody, rfl⟩

end Decl

/-- Parameters have written types. -/
theorem Parameter.firm_bindAll {reg : Registry} {span : Option Span} {env env' : Env}
    {ps : List Parameter} (henv : env.Firm reg)
    (h : Parameter.bindAll reg span env ps = .ok env') : env'.Firm reg := by
  induction ps generalizing env with
  | nil =>
    cases h
    exact henv
  | cons p ps ih =>
    simp only [Parameter.bindAll, bind_eq_ok] at h
    obtain ⟨⟨⟩, hty, h⟩ := h
    split at h
    · cases h
    · exact ih (henv.put _ (Registry.faultless_of_expectValueType hty)) h

/-- A declaration that has passed its check fails it at its first `var` declaration. -/
theorem Decl.check_stops {reg : Registry} (hP : reg.Hereditary reg.Faultless) {v : Stmt}
    {x : String} {cell : Ty} {init : Expr} (hv : v.form = .infer x cell init) {d d' : Decl}
    (hempty : ∀ slot ∈ d.slots, slot.Empty) (hfind : d.nodes.find? Stmt.isVarDecl = some v)
    (h : (d.check reg).Ends d' ()) :
    (d'.check reg).outcome = (d', .error ⟨.cellResolved x, v.span⟩) := by
  match d with
  | .alias d => cases hfind
  | .method d =>
    simp only [check, Visit.ends_after, Visit.ends_within] at h
    obtain ⟨env, hsignature, left, hbody, rfl⟩ := h
    have hbind := hsignature
    simp only [checkSignature, Check.result_bind_eq_ok, Check.result_lift, Check.result_pure]
      at hbind
    obtain ⟨_, -, env', hbind, ⟨⟩, -, henv'⟩ := hbind
    cases henv'
    -- a method starts with its parameters, all of which have written types
    have hnone : ({} : Env).Firm reg := fun x b h => by cases h
    have henv := Parameter.firm_bindAll hnone hbind
    -- the body is checked in the context of the method, with the registry of the file
    have hP : (⟨reg, d.ret⟩ : Context).registry.Hereditary reg.Faultless := hP
    obtain ⟨env₁, hstop⟩ := Stmt.checkAll_stops hP hv d.body henv hempty hfind hbody
    refine (outcome_after_of_ok _ _ hsignature).trans ?_
    exact outcome_within_eq.2 ⟨_, hstop, rfl⟩

/-! ## Sessions -/

namespace Session

variable {s : Session}

/-- The error of a declaration is the same again. -/
theorem error?_again {d : Decl} (hfree : Stmt.VarFree d.nodes) :
    s.error? (d.check s.registry).left = s.error? d ∧
      ((d.check s.registry).left.check s.registry).left = (d.check s.registry).left := by
  have hagain : ((d.check s.registry).left.check s.registry).outcome =
      (d.check s.registry).outcome := Decl.check_again hfree rfl
  obtain ⟨hleft, hresult⟩ := Prod.mk.inj hagain
  refine ⟨?_, hleft⟩
  simp only [error?, result_checkDecl, hresult]

/-- A run over declarations does not look at the file of the session. -/
theorem checkDecls_file (f f' : File) (reg : Registry) (options : Options) (ds : List Decl) :
    (⟨f', reg, options⟩ : Session).checkDecls ds = (⟨f, reg, options⟩ : Session).checkDecls ds := by
  induction ds with
  | nil => rfl
  | cons d ds ih => simp only [checkDecls, checkDecl, ih]

/-- What a run over declarations without `var` declarations leaves is left unchanged by a second
run, which finds the same errors. -/
theorem checkDecls_again {ds : List Decl} (hfree : ∀ d ∈ ds, Stmt.VarFree d.nodes) :
    (s.checkDecls (s.checkDecls ds).decls).decls = (s.checkDecls ds).decls ∧
      (s.checkDecls (s.checkDecls ds).decls).errors = (s.checkDecls ds).errors := by
  induction ds with
  | nil => exact ⟨rfl, rfl⟩
  | cons d ds ih =>
    obtain ⟨hd, hds⟩ := List.forall_mem_cons.1 hfree
    obtain ⟨herror, hleft⟩ := error?_again (s := s) hd
    obtain ⟨ihdecls, iherrors⟩ := ih hds
    cases h : s.error? d with
    | none =>
      rw [h] at herror
      obtain ⟨herrors, hdecls⟩ := checkDecls_cons_of_ok ds h
      rw [hdecls, herrors]
      obtain ⟨herrors', hdecls'⟩ := checkDecls_cons_of_ok (s.checkDecls ds).decls herror
      rw [hdecls', herrors', hleft, ihdecls, iherrors]
      exact ⟨rfl, rfl⟩
    | some e =>
      rw [h] at herror
      rw [checkDecls_cons_of_error ds h]
      -- a run that stops here has left the rest as it was, and leaves it so again
      by_cases hgo : s.options.keepGoing = true
      · rw [if_pos hgo, checkDecls_cons_of_error _ herror, if_pos hgo, hleft, ihdecls, iherrors]
        exact ⟨rfl, rfl⟩
      · rw [if_neg hgo, checkDecls_cons_of_error _ herror, if_neg hgo, hleft]
        exact ⟨rfl, rfl⟩

/-- A second run over declarations that have passed stops at the first `var` declaration. -/
theorem checkDecls_stops (hP : s.registry.Hereditary s.registry.Faultless)
    (hstop : s.options.keepGoing = false) {v : Stmt} {x : String} {cell : Ty} {init : Expr}
    (hv : v.form = .infer x cell init) {ds : List Decl}
    (hpasses : ∀ d ∈ ds, (d.check s.registry).run.result = .ok ())
    (hempty : ∀ d ∈ ds, ∀ slot ∈ d.slots, slot.Empty)
    (hfind : (ds.flatMap Decl.nodes).find? Stmt.isVarDecl = some v) :
    let left := ds.map fun d => (d.check s.registry).left
    (s.checkDecls left).decls = left ∧
      (s.checkDecls left).errors = [⟨.cellResolved x, v.span⟩] := by
  induction ds with
  | nil => cases hfind
  | cons d ds ih =>
    obtain ⟨hd, hds⟩ := List.forall_mem_cons.1 hpasses
    obtain ⟨hdempty, hdsempty⟩ := List.forall_mem_cons.1 hempty
    rw [List.flatMap_cons, List.find?_append, Option.or_eq_some_iff] at hfind
    simp only [List.map_cons]
    rcases hfind with hfind | ⟨hnone, hfind⟩
    · -- this declaration holds it
      have hsecond := Decl.check_stops hP hv hdempty hfind ⟨rfl, hd⟩
      obtain ⟨hleft, hresult⟩ := Prod.mk.inj hsecond
      have herror := error?_eq_some.2 hresult
      rw [checkDecls_cons_of_error _ herror, hstop, hleft]
      exact ⟨rfl, rfl⟩
    -- a declaration before it passes again and is left as it is
    · obtain ⟨herror, hleft⟩ := error?_again (s := s) (Stmt.varFree_iff.2 hnone)
      rw [error?_eq_none.2 hd] at herror
      obtain ⟨ihdecls, iherrors⟩ := ih hds hdsempty hfind
      obtain ⟨herrors', hdecls'⟩ := checkDecls_cons_of_ok _ herror
      rw [hdecls', herrors', hleft, ihdecls, iherrors]
      exact ⟨rfl, rfl⟩

end Session

/-! ## Files -/

namespace File

/-- The first `var` declaration of a file in the order of checking. -/
def firstVarDecl? (f : File) : Option Stmt := (f.decls.flatMap Decl.nodes).find? Stmt.isVarDecl

/-- A file whose registry is not built is left as it is. -/
theorem check_of_error {f : File} {e : TypeError} (h : (Registry.build f).result = .error e) :
    f.check.value = (f, .error (e.toDiagnostic f.name)) := by
  unfold check Session.start
  dsimp only
  rw [h]
  rfl

/-- The second check runs over what the first has left, with the same registry. -/
theorem check_check {f : File} {reg : Registry} (h : (Registry.build f).result = .ok reg) :
    let run := (⟨f, reg, {}⟩ : Session).checkDecls f.check.value.1.decls
    f.check.value.1.check.value = ({ f with decls := run.decls }, verdict f.name run.errors) := by
  intro run
  have hname : f.check.value.1.name = f.name := by rw [check_value h]
  have hbuild : (Registry.build f.check.value.1).result = .ok reg := by
    rw [Registry.build_check, h]
  have hrun : (⟨f.check.value.1, reg, {}⟩ : Session).checkDecls f.check.value.1.decls = run :=
    Session.checkDecls_file f _ reg {} _
  rw [check_value hbuild, hrun, hname]

/-- A file without `var` comes to the same again, with types filled in or not. -/
theorem check_again {f : File} (hfree : f.firstVarDecl? = none) :
    f.check.value.1.check.value = f.check.value := by
  have hfree : ∀ d ∈ f.decls, Stmt.VarFree d.nodes := by
    intro d hd s hs
    exact Stmt.varFree_iff.2 hfree s (List.mem_flatMap.2 ⟨d, hd, hs⟩)
  cases hbuild : (Registry.build f).result with
  | error e =>
    rw [check_of_error hbuild]
    exact check_of_error hbuild
  | ok reg =>
    obtain ⟨hdecls, herrors⟩ := Session.checkDecls_again (s := ⟨f, reg, {}⟩) hfree
    rw [check_check hbuild, check_value hbuild]
    dsimp only
    rw [hdecls, herrors]

/-- An accepted file is refused again at its first `var` declaration. -/
theorem check_stops {f : File} (hfresh : f.Fresh) (haccepted : f.check.value.2 = .ok ()) {v : Stmt}
    {x : String} {cell : Ty} {init : Expr} (hv : v.form = .infer x cell init)
    (hfind : f.firstVarDecl? = some v) :
    f.check.value.1.check.value =
      (f.check.value.1, .error (TypeError.toDiagnostic ⟨.cellResolved x, v.span⟩ f.name)) := by
  obtain ⟨reg, hbuild, hpasses⟩ := File.check_eq_ok haccepted
  obtain ⟨hbodies, hreturns⟩ :=
    File.registry_types hbuild hpasses fun _ _ _ _ (hfaultless : reg.Faultless _) => hfaultless
  have hP := Registry.hereditary_faultless hbodies hreturns
  obtain ⟨hdecls, herrors⟩ :=
    Session.checkDecls_stops (s := ⟨f, reg, {}⟩) hP rfl hv hpasses hfresh hfind
  -- the trees that the first check left are the ones that the second starts from
  rw [← File.decls_check hbuild hpasses] at hdecls herrors
  rw [check_check hbuild, hdecls, herrors]
  refine Prod.ext ?_ rfl
  rw [check_value hbuild]

end File

/-- A `var` declaration, with its parts. -/
theorem Stmt.exists_of_isVarDecl {s : Stmt} (h : s.isVarDecl = true) :
    ∃ x cell init, s.form = .infer x cell init := by
  unfold isVarDecl at h
  split at h
  · rename_i x cell init hform
    exact ⟨x, cell, init, hform⟩
  · cases h

/-- A file that holds no `var` declaration can be checked again: the second check ends as the first
did and leaves the same tree. If there is one, and the file was fresh and has been accepted, the
second check stops at the first `var` declaration, whose cell is resolved, and leaves the tree as it
was. -/
theorem File.second_check (f : File) :
    (f.firstVarDecl? = none → f.check.value.1.check.value = f.check.value) ∧
      ∀ v, f.Fresh → f.check.value.2 = .ok () → f.firstVarDecl? = some v →
        ∃ x cell init, v.form = .infer x cell init ∧
          f.check.value.1.check.value =
            (f.check.value.1,
              .error (TypeError.toDiagnostic ⟨.cellResolved x, v.span⟩ f.name)) := by
  refine ⟨File.check_again, fun v hfresh haccepted hfind => ?_⟩
  obtain ⟨x, cell, init, hv⟩ := Stmt.exists_of_isVarDecl (List.find?_some hfind)
  exact ⟨x, cell, init, hv, File.check_stops hfresh haccepted hv hfind⟩

/-- A method that declares `var` variables, one of them in the second arm of a branch. -/
def branchFile : File where
  name := some "branch.while"
  decls := [
    .alias { name := "Count", ty := .int },
    .method
      { name := "choose", params := [{ name := "c", ty := .bool }], ret := .void
        body := [
          { form := .ifElse { form := .var "c" }
              [{ form := .print { form := .constant (.int 0) } }]
              [{ form := .infer "x" .inferred { form := .constant (.int 1) }
                 span := some ⟨4, 9⟩ }] },
          { form := .infer "y" .inferred { form := .var "c" } }] }]

/-- A method that adds a truth value to a number. -/
def wrongSumFile : File where
  name := none
  decls := [
    .method
      { name := "sum", params := [], ret := .void
        body := [
          { form := .print
              { form := .binary .add { form := .constant (.int 1) }
                  { form := .constant (.bool true) } } }] }]

/-- The accepted file is refused at the first of its `var` declarations, in the arm. The refused one
is refused again with the same trees, in which the operands have types and the sum has none. -/
theorem File.second_check_branch :
    (branchFile.Fresh ∧ branchFile.check.value.2 = .ok () ∧
      branchFile.check.value.1.check.value =
        (branchFile.check.value.1,
          .error (TypeError.toDiagnostic ⟨.cellResolved "x", some ⟨4, 9⟩⟩ (some "branch.while")))) ∧
      wrongSumFile.check.value.1.decls.flatMap Decl.slots =
        [.expr none, .expr (some .int), .expr (some .bool)] ∧
      wrongSumFile.check.value.1.check.value = wrongSumFile.check.value := by
  have hfresh : branchFile.Fresh := by decide
  have haccepted : branchFile.check.value.2 = .ok () := by decide +kernel
  obtain ⟨-, hstops⟩ := File.second_check branchFile
  obtain ⟨hagain, -⟩ := File.second_check wrongSumFile
  obtain ⟨x, cell, init, hform, hsecond⟩ := hstops _ hfresh haccepted rfl
  cases hform
  exact ⟨⟨hfresh, haccepted, hsecond⟩, rfl, hagain rfl⟩

end WhileTyping
