import WhileTyping.Proofs.AcceptedFile
import WhileTyping.Proofs.BareTrees

/-!
# Runs of a session

A file can be checked whole, with or without stopping at the first failure, or declaration by
declaration. All of these see the same failures, because the check of a declaration depends on the
registry and on that declaration alone.

* **`Session.failures`**: the diagnostics of the declarations that fail when each is checked on its
  own.
* **`checkDecls_keepGoing`**, **`errors_stop`**: a run that keeps going finds them all, one that
  stops finds the first.
* **`File.check_value`**: what the check of a file leaves, in terms of a run over its declarations.
* **`Session.checkEach`**: the session after the checks of some declarations, one after another.
* **`checkEach_frame`**: they leave alone every declaration that is not among them.
-/

namespace WhileTyping

namespace Session

/-! ## Failures -/

/-- The error of a declaration that fails when it is checked on its own. -/
def error? (s : Session) (d : Decl) : Option TypeError :=
  match (s.checkDecl d).run.result with
  | .ok () => none
  | .error e => some e

/-- The diagnostics of the declarations that fail when each is checked on its own, in the order of
the file. -/
def failures (s : Session) : List Diagnostic := (s.file.decls.filterMap s.error?).map s.diagnostic

/-- A declaration that passes has no error. -/
theorem error?_eq_none {s : Session} {d : Decl} :
    s.error? d = none ↔ (d.check s.registry).run.result = .ok () := by
  unfold error?
  rw [result_checkDecl]
  cases (d.check s.registry).run.result <;> simp

theorem error?_eq_some {s : Session} {d : Decl} {e : TypeError} :
    s.error? d = some e ↔ (d.check s.registry).run.result = .error e := by
  unfold error?
  rw [result_checkDecl]
  cases (d.check s.registry).run.result <;> simp

/-! ## Runs over declarations -/

section Runs

variable {s : Session}

/-- A run goes on after a declaration that passes. -/
theorem checkDecls_cons_of_ok {d : Decl} (ds : List Decl) (h : s.error? d = none) :
    (s.checkDecls (d :: ds)).errors = (s.checkDecls ds).errors ∧
      (s.checkDecls (d :: ds)).decls = (d.check s.registry).left :: (s.checkDecls ds).decls := by
  rw [error?_eq_none] at h
  rw [checkDecls, result_checkDecl, h, left_checkDecl]
  exact ⟨rfl, rfl⟩

/-- It goes on after one that fails only if it is told to. -/
theorem checkDecls_cons_of_error {d : Decl} {e : TypeError} (ds : List Decl)
    (h : s.error? d = some e) :
    s.checkDecls (d :: ds) =
      if s.options.keepGoing then
        ⟨(d.check s.registry).left :: (s.checkDecls ds).decls, e :: (s.checkDecls ds).errors,
          (s.checkDecl d).run.log ++ (s.checkDecls ds).log⟩
      else ⟨(d.check s.registry).left :: ds, [e], (s.checkDecl d).run.log⟩ := by
  rw [error?_eq_some] at h
  rw [checkDecls, result_checkDecl, h, left_checkDecl]

/-- A run that keeps going finds the error of every declaration that fails, and leaves every
declaration as its own check leaves it. -/
theorem checkDecls_keepGoing (hgo : s.options.keepGoing = true) (ds : List Decl) :
    (s.checkDecls ds).errors = ds.filterMap s.error? ∧
      (s.checkDecls ds).decls = ds.map fun d => (d.check s.registry).left := by
  induction ds with
  | nil => exact ⟨rfl, rfl⟩
  | cons d ds ih =>
    cases h : s.error? d with
    | none =>
      obtain ⟨herrors, hdecls⟩ := checkDecls_cons_of_ok ds h
      rw [herrors, hdecls, ih.1, ih.2, List.filterMap_cons_none h, List.map_cons]
      exact ⟨rfl, rfl⟩
    | some e =>
      rw [checkDecls_cons_of_error ds h, if_pos hgo, ih.1, ih.2, List.filterMap_cons_some h,
        List.map_cons]
      exact ⟨rfl, rfl⟩

/-- A run that stops finds the first of these errors only. -/
theorem errors_stop (hstop : s.options.keepGoing = false) (ds : List Decl) :
    (s.checkDecls ds).errors = (ds.filterMap s.error?).take 1 := by
  induction ds with
  | nil => rfl
  | cons d ds ih =>
    cases h : s.error? d with
    | none => rw [(checkDecls_cons_of_ok ds h).1, ih, List.filterMap_cons_none h]
    | some e =>
      rw [checkDecls_cons_of_error ds h, hstop, List.filterMap_cons_some h]
      rfl

end Runs

/-- A session starts if its registry is built. -/
theorem start_of_build {f : File} {reg : Registry} (h : (Registry.build f).result = .ok reg)
    (options : Options) : (start f options).value = .ok ⟨f, reg, options⟩ := by
  rw [start, h]

/-- A run that keeps going reports all failures. -/
theorem checkFile_keepGoing {s : Session} (hgo : s.options.keepGoing = true) :
    s.checkFile.value.2 = verdict s.failures := by
  show verdict ((s.checkDecls s.file.decls).errors.map s.diagnostic) = _
  rw [(checkDecls_keepGoing hgo _).1, failures]

/-- A run that does not reports the first. -/
theorem checkFile_stop {s : Session} (hstop : s.options.keepGoing = false) :
    s.checkFile.value.2 = verdict (s.failures.take 1) := by
  show verdict ((s.checkDecls s.file.decls).errors.map s.diagnostic) = _
  rw [errors_stop hstop, List.map_take, failures]

/-- What a run fails with is all that it has met with. -/
theorem eq_of_verdict_eq_error {ds ds' : List Diagnostic} (h : verdict ds = .error ds') :
    ds' = ds := by
  cases ds with
  | nil => cases h
  | cons d ds =>
    cases h
    rfl

end Session

namespace File

/-- How a check ends that stops at the first of some errors. -/
def verdict (name : Option String) : List TypeError → Except Diagnostic Unit
  | [] => .ok ()
  | e :: _ => .error (e.toDiagnostic name)

/-- What the check of a file with a registry leaves, and how it ends. -/
theorem check_value {f : File} {reg : Registry} (h : (Registry.build f).result = .ok reg) :
    let run := (⟨f, reg, {}⟩ : Session).checkDecls f.decls
    f.check.value = ({ f with decls := run.decls }, verdict f.name run.errors) := by
  intro run
  have hstart := Session.start_of_build h {}
  unfold check
  dsimp only
  rw [hstart]
  show (({ f with decls := run.decls } : File), _) = _
  cases run.errors <;> rfl

/-- A file is refused for its first failure. -/
theorem check_of_build {f : File} {reg : Registry} (h : (Registry.build f).result = .ok reg) :
    f.check.value.2 =
      match (⟨f, reg, {}⟩ : Session).failures with
      | [] => .ok ()
      | d :: _ => .error d := by
  rw [check_value h]
  dsimp only
  rw [Session.errors_stop rfl, Session.failures]
  cases List.filterMap (⟨f, reg, {}⟩ : Session).error? f.decls <;> rfl

end File

/-! ## One declaration after another -/

namespace Session

/-- The session after the checks of the declarations at some positions, one after another. -/
def checkEach (s : Session) (positions : List Nat) : Session :=
  positions.foldl (fun s i => (s.checkAt i).left) s

/-- The check of one declaration changes that declaration only. -/
theorem checkAt_left (s : Session) (i : Nat) :
    (s.checkAt i).left.registry = s.registry ∧
      ∀ j, j ≠ i → (s.checkAt i).left.file.decls[j]? = s.file.decls[j]? := by
  unfold checkAt
  split
  · exact ⟨rfl, fun _ _ => rfl⟩
  · exact ⟨rfl, fun j hj => List.getElem?_set_ne (Ne.symm hj)⟩

/-- The same for any number of declarations. -/
theorem checkEach_left (s : Session) (positions : List Nat) :
    (s.checkEach positions).registry = s.registry ∧
      ∀ j, j ∉ positions → (s.checkEach positions).file.decls[j]? = s.file.decls[j]? := by
  induction positions generalizing s with
  | nil => exact ⟨rfl, fun _ _ => rfl⟩
  | cons i positions ih =>
    obtain ⟨hregistry, hdecls⟩ := ih (s.checkAt i).left
    obtain ⟨hregistry', hdecls'⟩ := s.checkAt_left i
    refine ⟨hregistry.trans hregistry', fun j hj => ?_⟩
    obtain ⟨hi, hj⟩ := not_or.1 (List.mem_cons.not.1 hj)
    exact (hdecls j hj).trans (hdecls' j hi)

/-- The check of a declaration depends on the registry and on the declaration. -/
theorem checkAt_congr {s s' : Session} {j : Nat} (hregistry : s'.registry = s.registry)
    (hdecl : s'.file.decls[j]? = s.file.decls[j]?) :
    (s'.checkAt j).run = (s.checkAt j).run ∧
      (s'.checkAt j).left.file.decls[j]? = (s.checkAt j).left.file.decls[j]? := by
  unfold checkAt
  rw [hdecl]
  cases h : s.file.decls[j]? with
  | none => exact ⟨rfl, hdecl⟩
  | some d =>
    -- a declaration is checked against the registry alone
    have hcheck : s'.checkDecl d = s.checkDecl d := by rw [checkDecl, checkDecl, hregistry]
    have hbound : j < s.file.decls.length := (List.getElem?_eq_some_iff.1 h).1
    have hbound' : j < s'.file.decls.length :=
      (List.getElem?_eq_some_iff.1 (hdecl.trans h)).1
    refine ⟨by simp only [Visit.run_within, hcheck], ?_⟩
    simp only [Visit.left_within, withDecls, hcheck, List.getElem?_set_self hbound,
      List.getElem?_set_self hbound']

/-- A declaration that was not among them is checked as if none had been. -/
theorem checkEach_frame (s : Session) {positions : List Nat} {j : Nat} (hj : j ∉ positions) :
    ((s.checkEach positions).checkAt j).run = (s.checkAt j).run ∧
      ((s.checkEach positions).checkAt j).left.file.decls[j]? =
        (s.checkAt j).left.file.decls[j]? := by
  obtain ⟨hregistry, hdecls⟩ := s.checkEach_left positions
  exact checkAt_congr hregistry (hdecls j hj)

/-! ## All ways of checking a file -/

/-- The ways of checking a file agree. One that keeps going reports every declaration that fails on
its own, one that stops the first of them, and so does `File.check`, under the name of the file. No
check of other declarations has an influence on the check of a declaration. -/
theorem drivers_agree {f : File} {reg : Registry} (hbuild : (Registry.build f).result = .ok reg)
    (options : Options) :
    let s : Session := ⟨f, reg, options⟩
    (start f options).value = .ok s ∧
      (options.keepGoing = true → s.checkFile.value.2 = verdict s.failures) ∧
      (options.keepGoing = false → s.checkFile.value.2 = verdict (s.failures.take 1)) ∧
      (f.check.value.2 =
        match (⟨f, reg, {}⟩ : Session).failures with
        | [] => .ok ()
        | d :: _ => .error d) ∧
      ∀ positions j, j ∉ positions →
        ((s.checkEach positions).checkAt j).run = (s.checkAt j).run ∧
          ((s.checkEach positions).checkAt j).left.file.decls[j]? =
            (s.checkAt j).left.file.decls[j]? := by
  intro s
  refine ⟨start_of_build hbuild options, fun hgo => checkFile_keepGoing (s := s) hgo,
    fun hstop => checkFile_stop (s := s) hstop, File.check_of_build hbuild,
    fun positions j hj => ?_⟩
  exact s.checkEach_frame hj

/-- A file of which two declarations fail: an alias for a record with a `void` field, and a method
that has declared a `var` variable before it adds a truth value to a number. -/
def twoFaultsFile : File where
  name := some "faults.while"
  decls := [
    .alias { name := "Gap", ty := .record [⟨"gap", .void⟩] },
    .method
      { name := "fine", params := [], ret := .int
        body := [{ form := .ret (some { form := .constant (.int 1) }) }] },
    .method
      { name := "sum", params := [], ret := .void
        body := [{ form := .infer "x" .inferred { form := .call "fine" [] } },
          { form := .print
              { form := .binary .add { form := .var "x" } { form := .constant (.bool true) } } }] }]

/-- The session that keeps going reports both failures, and the check of the file the first. The
method between them passes after both have been checked. -/
theorem drivers_agree_twoFaults :
    let reg := Registry.ofFile twoFaultsFile
    let s : Session := ⟨twoFaultsFile, reg, { keepGoing := true, file := some "input" }⟩
    let faults : List TypeError :=
      [⟨.voidNotPermitted, none⟩, ⟨.notInstanceOf (.single .int) .bool, none⟩]
    (Registry.build twoFaultsFile).result = .ok reg ∧
      s.checkFile.value.2 = .error (faults.map (·.toDiagnostic (some "input"))) ∧
      twoFaultsFile.check.value.2 =
        .error (TypeError.toDiagnostic ⟨.voidNotPermitted, none⟩ (some "faults.while")) ∧
      ((s.checkEach [2, 0, 2]).checkAt 1).run = (s.checkAt 1).run := by
  intro reg s faults
  have hbuild : (Registry.build twoFaultsFile).result = .ok reg := by decide +kernel
  obtain ⟨-, hgo, -, hcheck, hframe⟩ :=
    drivers_agree hbuild { keepGoing := true, file := some "input" }
  -- the options have no bearing on what fails
  have herrors : ∀ options, twoFaultsFile.decls.filterMap
      (⟨twoFaultsFile, reg, options⟩ : Session).error? = faults := by
    intro options
    show twoFaultsFile.decls.filterMap (⟨twoFaultsFile, reg, {}⟩ : Session).error? = faults
    decide +kernel
  refine ⟨hbuild, ?_, ?_, (hframe [2, 0, 2] 1 (by decide)).1⟩
  · rw [hgo rfl, failures, herrors]
    rfl
  · rw [hcheck, failures, herrors]
    rfl

end Session

end WhileTyping
