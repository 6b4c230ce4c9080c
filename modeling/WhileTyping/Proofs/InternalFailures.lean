import Mathlib.Data.Set.Basic
import WhileTyping.Proofs.ErrorSpans

/-!
# Internal failures

An internal failure says that the tree is one that no program text gives. It is raised for nothing
else: whatever types are already on a tree and whatever the registry holds, a check that fails
internally has met a malformed declaration.

* **`Session.start_eq_error`**, **`Session.mem_errors`**: where the errors behind the diagnostics of
  a session come from.
* **`isBug_toDiagnostic`**: a diagnostic is a bug if its error is internal.
* **`internal_only_if_malformed`**: internal errors and bugs, for every way of checking.
-/

namespace WhileTyping

/-- A diagnostic calls for a bug report if the error it shows is internal. -/
theorem TypeError.isBug_toDiagnostic (e : TypeError) (file : Option String) :
    (e.toDiagnostic file).isBug = e.fault.isInternal := by
  unfold toDiagnostic Diagnostic.isBug
  cases e.fault.isInternal <;> rfl

namespace Session

/-- A session does not start if its registry is not built. -/
theorem start_eq_error {f : File} {options : Options} {diagnostic : Diagnostic}
    (h : (start f options).value = .error diagnostic) :
    ∃ e, (Registry.build f).result = .error e ∧
      diagnostic = e.toDiagnostic (options.file.or f.name) := by
  cases hbuild : (Registry.build f).result with
  | ok reg =>
    rw [start_of_build hbuild] at h
    cases h
  | error e =>
    simp only [start, hbuild] at h
    cases h
    exact ⟨e, rfl, rfl⟩

/-- The errors of a run are errors of declarations, whether or not it keeps going. -/
theorem mem_errors {s : Session} {ds : List Decl} {e : TypeError}
    (h : e ∈ (s.checkDecls ds).errors) :
    ∃ d ∈ ds, (d.check s.registry).run.result = .error e := by
  have hmem : e ∈ ds.filterMap s.error? := by
    cases hgo : s.options.keepGoing with
    | true => rwa [(checkDecls_keepGoing hgo ds).1] at h
    | false =>
      rw [errors_stop hgo] at h
      exact List.mem_of_mem_take h
  obtain ⟨d, hd, herror⟩ := List.mem_filterMap.1 hmem
  exact ⟨d, hd, error?_eq_some.1 herror⟩

/-- An internal error of a run is that of a malformed declaration. -/
theorem malformed_of_mem_errors {s : Session} {ds : List Decl} {e : TypeError}
    (h : e ∈ (s.checkDecls ds).errors) (hinternal : e.fault.isInternal = true) :
    ∃ d ∈ ds, d.Malformed := by
  obtain ⟨d, hd, herror⟩ := mem_errors h
  exact ⟨d, hd, (d.check_fails s.registry e herror).2 hinternal⟩

end Session

/-- A file is refused for its registry or for one of its declarations. -/
theorem File.check_eq_error {f : File} {diagnostic : Diagnostic}
    (h : f.check.value.2 = .error diagnostic) :
    (∃ e, (Registry.build f).result = .error e ∧ diagnostic = e.toDiagnostic f.name) ∨
      ∃ reg, ∃ e ∈ ((⟨f, reg, {}⟩ : Session).checkDecls f.decls).errors,
        diagnostic = e.toDiagnostic f.name := by
  cases hbuild : (Registry.build f).result with
  | error e =>
    rw [check_of_error hbuild] at h
    cases h
    exact .inl ⟨e, rfl, rfl⟩
  | ok reg =>
    rw [check_value hbuild] at h
    dsimp only at h
    refine .inr ⟨reg, ?_⟩
    cases herrors : ((⟨f, reg, {}⟩ : Session).checkDecls f.decls).errors with
    | nil =>
      rw [herrors] at h
      cases h
    | cons e es =>
      rw [herrors] at h
      cases h
      exact ⟨e, List.mem_cons_self, rfl⟩

/-- An internal error comes from a malformed declaration: one with an assignment to an expression
that cannot be assigned to, or with a written type in which `var` occurs. In particular an element
is never looked up in something that is no sequence. So no session is refused with a bug, and where
a check reports one, it has met a malformed declaration. -/
theorem internal_only_if_malformed :
    (∀ (reg : Registry) (d : Decl) (e : TypeError), (d.check reg).run.result = .error e →
      e.fault.isInternal = true → d.Malformed) ∧
    (∀ (reg : Registry) (source position : Ty) (sourceSpan positionSpan span : Option Span)
      (e : TypeError),
      reg.elementType source position sourceSpan positionSpan span = .error e →
        e.fault.isInternal = false) ∧
    (∀ (f : File) (options : Options) (diagnostic : Diagnostic),
      (Session.start f options).value = .error diagnostic → diagnostic.isBug = false) ∧
    (∀ (s : Session) (diagnostics : List Diagnostic), s.checkFile.value.2 = .error diagnostics →
      ∀ diagnostic ∈ diagnostics, diagnostic.isBug = true → ∃ d ∈ s.file.decls, d.Malformed) ∧
    ∀ (f : File) (diagnostic : Diagnostic), f.check.value.2 = .error diagnostic →
      diagnostic.isBug = true → ∃ d ∈ f.decls, d.Malformed := by
  have hbuild : ∀ (f : File) (e : TypeError), (Registry.build f).result = .error e →
      ¬ e.fault.isInternal = true := fun f e herror => (Registry.build_fails f e herror).2
  refine ⟨fun reg d e herror => (d.check_fails reg e herror).2, ?_, ?_, ?_, ?_⟩
  · -- the element type of any two types, at any spans
    intro reg source position sourceSpan positionSpan span e herror
    have hfails := reg.elementType_failsAt (S := Set.univ) (M := False) source position
      (Set.mem_univ sourceSpan) (Set.mem_univ positionSpan) e herror
    exact Bool.eq_false_of_not_eq_true hfails.2
  · -- a session is refused only for its registry
    intro f options diagnostic hstart
    obtain ⟨e, herror, rfl⟩ := Session.start_eq_error hstart
    rw [TypeError.isBug_toDiagnostic]
    exact Bool.eq_false_of_not_eq_true (hbuild f e herror)
  · intro s diagnostics hcheck diagnostic hmem hbug
    cases Session.eq_of_verdict_eq_error hcheck
    obtain ⟨e, he, rfl⟩ := List.mem_map.1 hmem
    rw [Session.diagnostic, TypeError.isBug_toDiagnostic] at hbug
    exact Session.malformed_of_mem_errors he hbug
  · intro f diagnostic hcheck hbug
    rcases File.check_eq_error hcheck with ⟨e, herror, rfl⟩ | ⟨reg, e, he, rfl⟩
    · rw [TypeError.isBug_toDiagnostic] at hbug
      exact absurd hbug (hbuild f e herror)
    · rw [TypeError.isBug_toDiagnostic] at hbug
      exact Session.malformed_of_mem_errors he hbug

/-- A method that assigns to a constant. -/
def strayDecl : Decl :=
  .method
    { name := "store", params := [], ret := .void
      body := [{ form := .assign { form := .constant (.int 1) } { form := .constant (.int 2) } }] }

/-- A value is assigned to a constant, which the tree of a statement can hold but no program says.
-/
theorem internal_only_if_malformed_stray :
    let invalid : TypeError := ⟨.malformedTree "invalid assignment target", none⟩
    let repeated : TypeError := ⟨.duplicateDeclaration "Gone", some ⟨17, 34⟩⟩
    let stray : File := { decls := [strayDecl] }
    let s : Session := ⟨stray, Registry.ofFile stray, {}⟩
    ((strayDecl.check {}).run.result = .error invalid ∧ strayDecl.Malformed) ∧
    (({} : Registry).elementType .int .int none none none =
        .error ⟨.notInstanceOf .sequence .int, none⟩ ∧
      (Fault.notInstanceOf .sequence .int).isInternal = false) ∧
    ((Session.start twiceFile {}).value = .error (repeated.toDiagnostic none) ∧
      (repeated.toDiagnostic none).isBug = false) ∧
    (s.checkFile.value.2 = .error [invalid.toDiagnostic none] ∧ ∃ d ∈ s.file.decls, d.Malformed) ∧
    stray.check.value.2 = .error (invalid.toDiagnostic none) ∧ ∃ d ∈ stray.decls, d.Malformed := by
  intro invalid repeated stray s
  obtain ⟨hdecl, helement, hstart, hsession, hfile⟩ := internal_only_if_malformed
  have hcheck : (strayDecl.check {}).run.result = .error invalid := by decide +kernel
  have hsequence : ({} : Registry).elementType .int .int none none none =
      .error ⟨.notInstanceOf .sequence .int, none⟩ := by decide +kernel
  have hrefused : (Session.start twiceFile {}).value = .error (repeated.toDiagnostic none) := by
    have hbuild : (Registry.build twiceFile).result = .error repeated := by decide +kernel
    simp only [Session.start, hbuild]
    rfl
  -- both drivers report what is found here
  have herrors : (s.checkDecls stray.decls).errors = [invalid] := by decide +kernel
  have hreported : s.checkFile.value.2 = .error [invalid.toDiagnostic none] := by
    show Session.verdict ((s.checkDecls stray.decls).errors.map s.diagnostic) = _
    rw [herrors]
    rfl
  have hrejected : stray.check.value.2 = .error (invalid.toDiagnostic none) := by
    have hbuild : (Registry.build stray).result = .ok (Registry.ofFile stray) := by decide +kernel
    rw [File.check_value hbuild]
    show File.verdict none (s.checkDecls stray.decls).errors = _
    rw [herrors]
    rfl
  exact ⟨⟨hcheck, hdecl _ _ _ hcheck rfl⟩, ⟨hsequence, helement _ _ _ _ _ _ _ hsequence⟩,
    ⟨hrefused, hstart _ _ _ hrefused⟩, ⟨hreported, hsession s _ hreported _ List.mem_cons_self rfl⟩,
    hrejected, hfile _ _ hrejected rfl⟩

end WhileTyping
