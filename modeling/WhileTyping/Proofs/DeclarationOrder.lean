import Mathlib.Tactic.ByContra
import WhileTyping.Proofs.CircularAliases
import WhileTyping.Proofs.CompleteTypes
import WhileTyping.Proofs.LookUps
import WhileTyping.Proofs.SessionRuns

/-!
# The order of declarations

The declarations of a file may stand in any order: a file and one with the same declarations in
another order are refused a registry for the same reason or have registries that answer alike, and
every declaration fares the same in both.

* **`Registry.failureCode`**: the reason for which a file has no registry. It depends on which names
  are declared and which refer to which, not on the order (**`failureCode_perm`**).
* **`agrees_of_perm`**: the registries of the two files answer every look-up alike.
* **`File.accepted_iff`**: a file is accepted if it has a registry and each declaration passes.
-/

namespace WhileTyping

/-! ## The reason for a refusal -/

namespace File

variable {f f' : File} (hperm : f'.decls.Perm f.decls)

include hperm

theorem aliasDecls_perm : f'.aliasDecls.Perm f.aliasDecls := hperm.filterMap _

theorem methodDecls_perm : f'.methodDecls.Perm f.methodDecls := hperm.filterMap _

/-- Whether names are distinct does not depend on their order. -/
theorem nodup_aliasNames_perm :
    (f'.aliasDecls.map AliasDecl.name).Nodup ↔ (f.aliasDecls.map AliasDecl.name).Nodup :=
  ((aliasDecls_perm hperm).map _).nodup_iff

theorem nodup_methodNames_perm :
    (f'.methodDecls.map MethodDecl.name).Nodup ↔ (f.methodDecls.map MethodDecl.name).Nodup :=
  ((methodDecls_perm hperm).map _).nodup_iff

/-- Nor do references. -/
theorem refers_perm : f'.Refers = f.Refers := by
  funext m n
  simp only [Refers, (aliasDecls_perm hperm).mem_iff]

/-- Nor do circles. -/
theorem onCircle_perm (n : String) : f'.OnCircle n ↔ f.OnCircle n := by
  rw [OnCircle, refers_perm hperm, OnCircle]

end File

namespace Registry

/-- The code of the error for which a file has no registry. -/
def failureCode (f : File) : Option String :=
  match (build f).result with
  | .ok _ => none
  | .error e => some e.fault.code

/-- What refuses the file decides the code. -/
theorem failureCode_of_error {f : File} {e : TypeError} (h : (build f).result = .error e) :
    failureCode f = some e.fault.code := by
  rw [failureCode, h]

/-- A registry that is built is refused nothing. -/
theorem failureCode_of_ok {f : File} {reg : Registry} (h : (build f).result = .ok reg) :
    failureCode f = none := by
  rw [failureCode, h]

/-- Repeated names have one code, whichever is found first. -/
theorem failureCode_of_repeated {f : File}
    (h : ¬ ((f.aliasDecls.map AliasDecl.name).Nodup ∧ (f.methodDecls.map MethodDecl.name).Nodup)) :
    failureCode f = some "E0002" := by
  by_cases haliases : (f.aliasDecls.map AliasDecl.name).Nodup
  · have hmethods := fun hmethods => h ⟨haliases, hmethods⟩
    obtain ⟨d, hd, -⟩ := exists_firstRepeat hmethods
    exact failureCode_of_error (build_of_repeated_method haliases hd)
  · obtain ⟨d, hd, -⟩ := exists_firstRepeat haliases
    exact failureCode_of_error (build_of_repeated_alias hd)

/-- A file is refused for the same reason in any order. -/
theorem failureCode_perm {f f' : File} (hperm : f'.decls.Perm f.decls) :
    failureCode f' = failureCode f := by
  have hnames := and_congr (File.nodup_aliasNames_perm hperm) (File.nodup_methodNames_perm hperm)
  by_cases hdistinct : (f.aliasDecls.map AliasDecl.name).Nodup ∧
      (f.methodDecls.map MethodDecl.name).Nodup
  · have hdistinct' := hnames.2 hdistinct
    by_cases hcircle : ∃ n, f.OnCircle n
    -- the circle that is found first may be another one, but the code does not name it
    · obtain ⟨n, hn⟩ := hcircle
      obtain ⟨_, _, _, m, -, -, -, -, h⟩ := build_of_onCircle hdistinct.1 hdistinct.2 hn
      obtain ⟨_, _, _, m', -, -, -, -, h'⟩ :=
        build_of_onCircle hdistinct'.1 hdistinct'.2 ((File.onCircle_perm hperm n).2 hn)
      rw [failureCode_of_error h, failureCode_of_error h']
      rfl
    · -- neither order is refused
      have hnone : ∀ n, ¬ f.OnCircle n := not_exists.1 hcircle
      have hnone' : ∀ n, ¬ f'.OnCircle n := fun n hn => hnone n ((File.onCircle_perm hperm n).1 hn)
      rw [failureCode_of_ok (build_of_no_circle hdistinct.1 hdistinct.2 hnone),
        failureCode_of_ok (build_of_no_circle hdistinct'.1 hdistinct'.2 hnone')]
  · -- another name may be found to be repeated first, but the code is the same
    rw [failureCode_of_repeated hdistinct, failureCode_of_repeated fun h => hdistinct (hnames.1 h)]

/-! ## Look-ups -/

/-- A file whose registry was built has distinct names. -/
theorem nodup_of_build {f : File} {reg : Registry} (h : (build f).result = .ok reg) :
    reg = ofFile f ∧ (f.aliasDecls.map AliasDecl.name).Nodup ∧
      (f.methodDecls.map MethodDecl.name).Nodup := by
  refine ⟨(build_ok h).1, ?_⟩
  by_contra hrepeated
  have hcode := failureCode_of_repeated hrepeated
  rw [failureCode_of_ok h] at hcode
  cases hcode

/-- The registries of two orders answer every look-up alike, since names are distinct. -/
theorem agrees_of_perm {f f' : File} {reg reg' : Registry} (hperm : f'.decls.Perm f.decls)
    (h : (build f).result = .ok reg) (h' : (build f').result = .ok reg') : reg'.Agrees reg := by
  obtain ⟨rfl, haliases, hmethods⟩ := nodup_of_build h
  obtain ⟨rfl, haliases', hmethods'⟩ := nodup_of_build h'
  -- which declaration is found first does not matter where there is only one of the name
  have halias : ∀ n, (ofFile f').alias? n = (ofFile f).alias? n := by
    intro n
    ext t
    rw [alias?_ofFile haliases, alias?_ofFile haliases']
    simp only [(File.aliasDecls_perm hperm).mem_iff]
  have hmethod : ∀ n, (ofFile f').method? n = (ofFile f).method? n := by
    intro n
    ext s
    rw [method?_ofFile hmethods, method?_ofFile hmethods']
    simp only [(File.methodDecls_perm hperm).mem_iff]
  have hcount : (ofFile f').aliases.length = (ofFile f).aliases.length :=
    ((File.aliasDecls_perm hperm).map _).length_eq
  exact ⟨⟨halias, fun n => congrArg _ (hmethod n), hcount⟩, hmethod⟩

/-- If one of the files has a registry, so has the other. -/
theorem build_of_perm {f f' : File} {reg : Registry} (hperm : f'.decls.Perm f.decls)
    (h : (build f).result = .ok reg) : ∃ reg', (build f').result = .ok reg' := by
  have hcode := failureCode_perm hperm
  rw [failureCode_of_ok h] at hcode
  cases h' : (build f').result with
  | ok reg' => exact ⟨reg', rfl⟩
  | error e =>
    rw [failureCode_of_error h'] at hcode
    cases hcode

end Registry

/-! ## Accepted files -/

/-- A file is accepted if its registry is built and each declaration passes its check. -/
theorem File.accepted_iff {f : File} : f.check.value.2 = .ok () ↔
    ∃ reg, (Registry.build f).result = .ok reg ∧
      ∀ d ∈ f.decls, (d.check reg).run.result = .ok () := by
  refine ⟨File.check_eq_ok, ?_⟩
  rintro ⟨reg, hbuild, hpasses⟩
  have hnone : f.decls.filterMap (⟨f, reg, {}⟩ : Session).error? = [] := by
    rw [List.filterMap_eq_nil_iff]
    exact fun d hd => Session.error?_eq_none.2 (hpasses d hd)
  rw [File.check_of_build hbuild, Session.failures, hnone, List.map_nil]

/-- Each declaration is checked by itself against the registry, so their order is of no account. -/
theorem File.accepted_of_perm {f f' : File} (hperm : f'.decls.Perm f.decls)
    (h : f.check.value.2 = .ok ()) : f'.check.value.2 = .ok () := by
  obtain ⟨reg, hbuild, hpasses⟩ := File.accepted_iff.1 h
  obtain ⟨reg', hbuild'⟩ := Registry.build_of_perm hperm hbuild
  have hagrees := Registry.agrees_of_perm hperm hbuild hbuild'
  refine File.accepted_iff.2 ⟨reg', hbuild', fun d hd => ?_⟩
  rw [d.check_agrees hagrees.toInterchangeable]
  exact hpasses d (hperm.mem_iff.1 hd)

/-- The declarations of an accepted file, each with what its check leaves of it. -/
theorem File.zip_check {f : File} {reg : Registry}
    (hbuild : (Registry.build f).result = .ok reg)
    (hpasses : ∀ d ∈ f.decls, (d.check reg).run.result = .ok ()) :
    f.decls.zip f.check.value.1.decls = f.decls.map fun d => (d, (d.check reg).left) := by
  rw [File.decls_check hbuild hpasses]
  simpa only [List.map_id, id_eq] using
    List.zip_map' (f := id) (g := fun d : Decl => (d.check reg).left) (l := f.decls)

/-- The same declarations are left with the same trees. -/
theorem File.zip_check_perm {f f' : File} (hperm : f'.decls.Perm f.decls)
    (h : f.check.value.2 = .ok ()) :
    (f'.decls.zip f'.check.value.1.decls).Perm (f.decls.zip f.check.value.1.decls) := by
  obtain ⟨reg, hbuild, hpasses⟩ := File.accepted_iff.1 h
  obtain ⟨reg', hbuild', hpasses'⟩ := File.accepted_iff.1 (File.accepted_of_perm hperm h)
  have hagrees := Registry.agrees_of_perm hperm hbuild hbuild'
  rw [File.zip_check hbuild hpasses, File.zip_check hbuild' hpasses']
  simp only [Decl.check_agrees hagrees.toInterchangeable]
  exact hperm.map _

/-! ## Diagnostics -/

/-- Runs that keep going meet the failures of the same declarations. -/
theorem Session.failures_perm {f f' : File} {reg reg' : Registry} (options : Options)
    (hname : f'.name = f.name) (hperm : f'.decls.Perm f.decls)
    (hagrees : reg'.Interchangeable reg) :
    (⟨f', reg', options⟩ : Session).failures.Perm (⟨f, reg, options⟩ : Session).failures := by
  have herror : (⟨f', reg', options⟩ : Session).error? = (⟨f, reg, options⟩ : Session).error? := by
    funext d
    simp only [Session.error?, Session.checkDecl, d.check_agrees hagrees]
  have hdiagnostic :
      (⟨f', reg', options⟩ : Session).diagnostic = (⟨f, reg, options⟩ : Session).diagnostic := by
    funext e
    simp only [Session.diagnostic, Session.fileName, hname]
  rw [Session.failures, herror, hdiagnostic, Session.failures]
  exact (hperm.filterMap _).map _

/-- A session that starts has the registry of its file. -/
theorem Session.start_eq_ok {f : File} {options : Options} {s : Session}
    (h : (Session.start f options).value = .ok s) :
    ∃ reg, (Registry.build f).result = .ok reg ∧ s = ⟨f, reg, options⟩ := by
  cases hbuild : (Registry.build f).result with
  | ok reg =>
    rw [Session.start_of_build hbuild] at h
    cases h
    exact ⟨reg, rfl, rfl⟩
  | error e =>
    simp only [Session.start, hbuild] at h
    cases h

/-- Runs that keep going meet with the same diagnostics in files with the same declarations. -/
theorem Session.checkFile_perm {f f' : File} {options : Options} {s s' : Session}
    (hname : f'.name = f.name) (hperm : f'.decls.Perm f.decls) (hgo : options.keepGoing = true)
    (hs : (Session.start f options).value = .ok s)
    (hs' : (Session.start f' options).value = .ok s') :
    ∃ ds ds', s.checkFile.value.2 = Session.verdict ds ∧
      s'.checkFile.value.2 = Session.verdict ds' ∧ ds'.Perm ds := by
  obtain ⟨reg, hbuild, rfl⟩ := Session.start_eq_ok hs
  obtain ⟨reg', hbuild', rfl⟩ := Session.start_eq_ok hs'
  refine ⟨_, _, Session.checkFile_keepGoing hgo, Session.checkFile_keepGoing hgo, ?_⟩
  exact Session.failures_perm options hname hperm
    (Registry.agrees_of_perm hperm hbuild hbuild').toInterchangeable

/-! ## Files with the same declarations -/

/-- The order of the declarations of a file does not matter. Files with the same declarations fail
to have a registry for the same reason, or else their registries answer every look-up alike. One is
accepted if the other is, with the same types left on each declaration. A check that keeps going
reports the same diagnostics, in an order of its own. -/
theorem File.order_irrelevant {f f' : File} (hname : f'.name = f.name)
    (hperm : f'.decls.Perm f.decls) :
    Registry.failureCode f' = Registry.failureCode f ∧
      (∀ reg reg', (Registry.build f).result = .ok reg → (Registry.build f').result = .ok reg' →
        ∀ n, reg'.method? n = reg.method? n ∧ reg'.alias? n = reg.alias? n ∧
          reg'.hasAlias n = reg.hasAlias n ∧ reg'.resolve n = reg.resolve n) ∧
      (f'.check.value.2 = .ok () ↔ f.check.value.2 = .ok ()) ∧
      (f.check.value.2 = .ok () →
        (f'.decls.zip f'.check.value.1.decls).Perm (f.decls.zip f.check.value.1.decls)) ∧
      ∀ options s s', options.keepGoing = true → (Session.start f options).value = .ok s →
        (Session.start f' options).value = .ok s' →
        ∃ ds ds', s.checkFile.value.2 = Session.verdict ds ∧
          s'.checkFile.value.2 = Session.verdict ds' ∧ ds'.Perm ds := by
  refine ⟨Registry.failureCode_perm hperm, ?_,
    ⟨File.accepted_of_perm hperm.symm, File.accepted_of_perm hperm⟩, File.zip_check_perm hperm,
    fun options s s' => Session.checkFile_perm hname hperm⟩
  intro reg reg' hbuild hbuild' n
  have hagrees := Registry.agrees_of_perm hperm hbuild hbuild'
  exact ⟨hagrees.method? n, hagrees.alias? n, congrFun hagrees.hasAlias n,
    congrFun hagrees.resolve n⟩

/-- A method that uses an alias and calls a method, both declared after it. -/
def forwardFile : File where
  name := none
  decls := [
    .method
      { name := "main", params := [{ name := "c", ty := .named "Count" }], ret := .int
        body := [{ form := .infer "x" .inferred { form := .call "next" [{ form := .var "c" }] } },
          { form := .ret (some { form := .var "x" }) }] },
    .method
      { name := "next", params := [{ name := "n", ty := .int }], ret := .int
        body := [{ form := .ret (some
          { form := .binary .add { form := .var "n" } { form := .constant (.int 1) } }) }] },
    .alias { name := "Count", ty := .int }]

/-- The file refers forwards and is accepted in both orders. The other file has two faults, and both
are found in either order. -/
theorem File.order_irrelevant_forward :
    let reverse (f : File) : File := { f with decls := f.decls.reverse }
    let session (f : File) : Session := ⟨f, Registry.ofFile f, { keepGoing := true }⟩
    (reverse forwardFile).decls.map Decl.name = ["Count", "next", "main"] ∧
      forwardFile.check.value.2 = .ok () ∧ (reverse forwardFile).check.value.2 = .ok () ∧
      ((reverse forwardFile).decls.zip (reverse forwardFile).check.value.1.decls).Perm
        (forwardFile.decls.zip forwardFile.check.value.1.decls) ∧
      (Session.twoFaultsFile.decls.filterMap
        (session Session.twoFaultsFile).error?).length = 2 ∧
      ∃ ds ds', (session Session.twoFaultsFile).checkFile.value.2 = Session.verdict ds ∧
        (session (reverse Session.twoFaultsFile)).checkFile.value.2 = Session.verdict ds' ∧
        ds'.Perm ds := by
  intro reverse session
  have haccepted : forwardFile.check.value.2 = .ok () := by decide +kernel
  have hname (f : File) : (reverse f).name = f.name := rfl
  have hperm (f : File) : (reverse f).decls.Perm f.decls := List.reverse_perm _
  -- the first file is accepted, the second is one that keeps a run going
  obtain ⟨-, -, hiff, hzip, -⟩ := File.order_irrelevant (hname forwardFile) (hperm _)
  obtain ⟨-, -, -, -, hreports⟩ := File.order_irrelevant (hname Session.twoFaultsFile) (hperm _)
  refine ⟨rfl, haccepted, hiff.2 haccepted, hzip haccepted, ?_,
    hreports { keepGoing := true } _ _ rfl ?_ ?_⟩
  · decide +kernel
  · exact Session.start_of_build (by decide +kernel) _
  · exact Session.start_of_build (by decide +kernel) _

end WhileTyping
