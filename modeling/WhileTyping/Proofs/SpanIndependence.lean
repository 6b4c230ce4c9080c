import WhileTyping.Proofs.DeclarationOrder
import WhileTyping.Proofs.UnplacedTrees

/-!
# Spans make no difference

Two files that are equal without their spans are accepted or rejected together, for the same reasons
and with the same types left on their trees. Either file is compared with the file without spans, on
which every way of checking takes the same steps.

* **`File.unplaced`**, **`Registry.unplaced`**, **`Session.unplaced`**: without spans.
* **`Registry.unplaced_build`**: the registry of a file without spans, or the reason why there is
  none.
* **`Session.unplaced_checkDecls`**, **`Session.unplaced_checkFile`**, **`File.unplaced_check`**: a
  run over declarations, and the checks of a file.
* **`File.spans_irrelevant`**: two files that differ in their spans only.
-/

namespace WhileTyping

/-- A diagnostic without its span. -/
def Diagnostic.unplaced (d : Diagnostic) : Diagnostic := { d with span := none }

/-- The file without the spans of its declarations and of everything in them. -/
def File.unplaced (f : File) : File := { f with decls := f.decls.map Decl.unplaced }

/-- A signature without its span. -/
def Signature.unplaced (s : Signature) : Signature := { s with span := none }

/-! ## Registries -/

theorem File.aliasDecls_unplaced (f : File) :
    f.unplaced.aliasDecls = f.aliasDecls.map AliasDecl.unplaced := by
  rw [aliasDecls, unplaced, List.filterMap_map, aliasDecls, List.map_filterMap]
  congr 1
  funext d
  cases d <;> rfl

theorem File.methodDecls_unplaced (f : File) :
    f.unplaced.methodDecls = f.methodDecls.map MethodDecl.unplaced := by
  rw [methodDecls, unplaced, List.filterMap_map, methodDecls, List.map_filterMap]
  congr 1
  funext d
  cases d <;> rfl

theorem MethodDecl.signature_unplaced (d : MethodDecl) :
    d.unplaced.signature = d.signature.unplaced := by
  have hparams : d.unplaced.params.map Parameter.ty = d.params.map Parameter.ty := List.map_map
  rw [signature, hparams]
  rfl

namespace Registry

/-- A registry whose signatures have no spans. -/
def unplaced (reg : Registry) : Registry :=
  { reg with methods := reg.methods.map Signature.unplaced }

/-- No check reads the span of a signature. -/
theorem interchangeable_unplaced (reg : Registry) : reg.unplaced.Interchangeable reg where
  alias? _ := rfl
  type? n := by
    have hfind : reg.unplaced.method? n = (reg.method? n).map Signature.unplaced :=
      List.find?_map ..
    rw [hfind, Option.map_map]
    rfl
  count := rfl

/-- The registry of a file without spans is that of the file, without spans. -/
theorem ofFile_unplaced (f : File) : ofFile f.unplaced = (ofFile f).unplaced := by
  rw [ofFile, File.aliasDecls_unplaced, File.methodDecls_unplaced, List.map_map, List.map_map,
    ofFile, unplaced, List.map_map]
  congr 2
  funext d
  exact d.signature_unplaced

/-- The same alias is found to be circular. -/
theorem firstCircular_unplaced (reg : Registry) (ds : List AliasDecl) :
    reg.unplaced.firstCircular (ds.map AliasDecl.unplaced) =
      (reg.firstCircular ds).map (Prod.map AliasDecl.unplaced id) := by
  rw [reg.interchangeable_unplaced.firstCircular]
  induction ds with
  | nil => rfl
  | cons d ds ih =>
    rw [List.map_cons, firstCircular, firstCircular, ih, AliasDecl.unplaced]
    cases reg.findCycle [d.name] d.ty <;> rfl

/-- A file is refused for the same reason without its spans. -/
theorem unplaced_build (f : File) :
    (build f.unplaced).result = WhileTyping.unplaced ((build f).result.map unplaced) := by
  have haliases : firstRepeated AliasDecl.name [] (f.aliasDecls.map AliasDecl.unplaced) =
      (firstRepeated AliasDecl.name [] f.aliasDecls).map AliasDecl.unplaced :=
    firstRepeated_map (fun _ => rfl) [] _
  have hmethods : firstRepeated MethodDecl.name [] (f.methodDecls.map MethodDecl.unplaced) =
      (firstRepeated MethodDecl.name [] f.methodDecls).map MethodDecl.unplaced :=
    firstRepeated_map (fun _ => rfl) [] _
  unfold build
  dsimp only
  -- the three reasons for a failure, in the order in which they are looked for
  rw [ofFile_unplaced, File.aliasDecls_unplaced, File.methodDecls_unplaced, haliases, hmethods,
    firstCircular_unplaced]
  cases firstRepeated AliasDecl.name [] f.aliasDecls with
  | some d => rfl
  | none =>
    cases firstRepeated MethodDecl.name [] f.methodDecls with
    | some d => rfl
    | none => cases (ofFile f).firstCircular f.aliasDecls <;> rfl

end Registry

/-! ## Sessions -/

namespace Session

/-- A session on the file without spans. -/
def unplaced (s : Session) : Session := ⟨s.file.unplaced, s.registry.unplaced, s.options⟩

/-- The check of a declaration in the session without spans. -/
theorem unplaced_check (s : Session) (d : Decl) :
    d.unplaced.check s.unplaced.registry = (d.check s.registry).unplaced Decl.unplaced := by
  rw [Decl.unplaced_check]
  exact Decl.check_agrees s.registry.interchangeable_unplaced d.unplaced

/-- A declaration has the same error, without its span. -/
theorem error?_unplaced (s : Session) (d : Decl) :
    s.unplaced.error? d.unplaced = (s.error? d).map TypeError.unplaced := by
  have hresult : (d.unplaced.check s.unplaced.registry).run.result =
      WhileTyping.unplaced (d.check s.registry).run.result := by
    rw [unplaced_check]
    rfl
  rw [error?, error?, result_checkDecl, result_checkDecl, hresult]
  cases (d.check s.registry).run.result <;> rfl

/-- A run meets the same errors, and leaves the same trees. -/
theorem unplaced_checkDecls (s : Session) (ds : List Decl) :
    (s.unplaced.checkDecls (ds.map Decl.unplaced)).decls =
        (s.checkDecls ds).decls.map Decl.unplaced ∧
      (s.unplaced.checkDecls (ds.map Decl.unplaced)).errors =
        (s.checkDecls ds).errors.map TypeError.unplaced := by
  induction ds with
  | nil => exact ⟨rfl, rfl⟩
  | cons d ds ih =>
    obtain ⟨ihdecls, iherrors⟩ := ih
    have hleft : (d.unplaced.check s.unplaced.registry).left =
        (d.check s.registry).left.unplaced := by
      rw [unplaced_check]
      rfl
    have herror := s.error?_unplaced d
    rw [List.map_cons]
    cases h : s.error? d with
    | none =>
      rw [h] at herror
      obtain ⟨herrors, hdecls⟩ := checkDecls_cons_of_ok ds h
      obtain ⟨herrors', hdecls'⟩ := checkDecls_cons_of_ok (ds.map Decl.unplaced) herror
      rw [hdecls, herrors, hdecls', herrors', hleft, ihdecls, iherrors]
      exact ⟨rfl, rfl⟩
    | some e =>
      rw [h] at herror
      rw [checkDecls_cons_of_error ds h, checkDecls_cons_of_error (ds.map Decl.unplaced) herror]
      -- both runs have the same options, so both go on or both stop
      by_cases hgo : s.options.keepGoing = true
      · have hgo' : s.unplaced.options.keepGoing = true := hgo
        rw [if_pos hgo, if_pos hgo', hleft, ihdecls, iherrors]
        exact ⟨rfl, rfl⟩
      · have hgo' : ¬ s.unplaced.options.keepGoing = true := hgo
        rw [if_neg hgo, if_neg hgo', hleft]
        exact ⟨rfl, rfl⟩

/-- A session starts on both files, or is refused on both for the same reason. -/
theorem unplaced_start (f : File) (options : Options) :
    (start f.unplaced options).value =
      ((start f options).value.map unplaced).mapError Diagnostic.unplaced := by
  unfold start
  dsimp only
  rw [Registry.unplaced_build]
  cases (Registry.build f).result <;> rfl

/-- What is changed about each diagnostic is changed about the verdict. -/
theorem mapError_verdict (f : Diagnostic → Diagnostic) (ds : List Diagnostic) :
    (verdict ds).mapError (List.map f) = verdict (ds.map f) := by
  cases ds <;> rfl

/-- The check of a session without spans is its check, without spans. -/
theorem unplaced_checkFile (s : Session) :
    s.unplaced.checkFile.value =
      (s.checkFile.value.1.unplaced,
        s.checkFile.value.2.mapError (List.map Diagnostic.unplaced)) := by
  obtain ⟨hdecls, herrors⟩ := s.unplaced_checkDecls s.file.decls
  have hdiagnostic :
      s.unplaced.diagnostic ∘ TypeError.unplaced = Diagnostic.unplaced ∘ s.diagnostic := rfl
  show (s.unplaced.withDecls (s.unplaced.checkDecls (s.file.decls.map Decl.unplaced)).decls,
    verdict ((s.unplaced.checkDecls (s.file.decls.map Decl.unplaced)).errors.map
      s.unplaced.diagnostic)) = _
  rw [hdecls, herrors, List.map_map, hdiagnostic, ← List.map_map, ← mapError_verdict]
  rfl

end Session

/-! ## Files -/

namespace File

/-- The same for a file by itself. -/
theorem unplaced_check (f : File) :
    f.unplaced.check.value =
      (f.check.value.1.unplaced, f.check.value.2.mapError Diagnostic.unplaced) := by
  have hbuild' := Registry.unplaced_build f
  cases hbuild : (Registry.build f).result with
  | error e =>
    rw [hbuild] at hbuild'
    rw [check_of_error hbuild, check_of_error hbuild']
    rfl
  -- the check of a file is that of a session which stops at the first error
  | ok reg =>
    rw [hbuild] at hbuild'
    let s : Session := ⟨f, reg, {}⟩
    obtain ⟨hdecls, herrors⟩ := s.unplaced_checkDecls f.decls
    have hvalue : f.check.value = ({ f with decls := (s.checkDecls f.decls).decls },
        verdict f.name (s.checkDecls f.decls).errors) := check_value hbuild
    have hvalue' : f.unplaced.check.value =
        ({ f with decls := (s.unplaced.checkDecls (f.decls.map Decl.unplaced)).decls },
          verdict f.name (s.unplaced.checkDecls (f.decls.map Decl.unplaced)).errors) :=
      check_value hbuild'
    rw [hvalue, hvalue', hdecls, herrors]
    cases (s.checkDecls f.decls).errors <;> rfl

/-- Slots have no spans. -/
theorem slots_unplaced (f : File) :
    f.unplaced.decls.map Decl.slots = f.decls.map Decl.slots := by
  rw [unplaced, List.map_map]
  exact List.map_congr_left fun d _ => d.slots_unplaced

/-- Files that differ in their spans only have the same types on their trees. -/
theorem slots_of_unplaced {f f' : File} (h : f.unplaced = f'.unplaced) :
    f.decls.map Decl.slots = f'.decls.map Decl.slots := by
  rw [← f.slots_unplaced, h, slots_unplaced]

end File

namespace Session

/-- Sessions on two files that differ in their spans only are opened together. -/
theorem start_of_unplaced {f f' : File} (h : f.unplaced = f'.unplaced) (options : Options) :
    (∃ d d', (start f options).value = .error d ∧ (start f' options).value = .error d' ∧
      d.unplaced = d'.unplaced) ∨
    ∃ s s', (start f options).value = .ok s ∧ (start f' options).value = .ok s' ∧
      s.unplaced = s'.unplaced := by
  have hstart : (start f.unplaced options).value = (start f'.unplaced options).value := by rw [h]
  rw [unplaced_start, unplaced_start] at hstart
  -- one session cannot start while the other is refused
  cases hs : (start f options).value with
  | error d =>
    cases hs' : (start f' options).value with
    | error d' =>
      rw [hs, hs'] at hstart
      exact .inl ⟨d, d', rfl, rfl, Except.error.inj hstart⟩
    | ok s' =>
      rw [hs, hs'] at hstart
      cases hstart
  | ok s =>
    cases hs' : (start f' options).value with
    | error d' =>
      rw [hs, hs'] at hstart
      cases hstart
    | ok s' =>
      rw [hs, hs'] at hstart
      exact .inr ⟨s, s', rfl, rfl, Except.ok.inj hstart⟩

/-- Sessions that differ in spans only find the same faults in the same declarations, and leave the
same types on them. -/
theorem checkFile_of_unplaced {s s' : Session} (h : s.unplaced = s'.unplaced) :
    s.file.decls.map (fun d => (s.error? d).map TypeError.unplaced) =
        s'.file.decls.map (fun d => (s'.error? d).map TypeError.unplaced) ∧
      s.checkFile.value.2.mapError (List.map Diagnostic.unplaced) =
        s'.checkFile.value.2.mapError (List.map Diagnostic.unplaced) ∧
      s.checkFile.value.1.file.unplaced = s'.checkFile.value.1.file.unplaced := by
  have herrors : ∀ s : Session, s.unplaced.file.decls.map s.unplaced.error? =
      s.file.decls.map fun d => (s.error? d).map TypeError.unplaced := by
    intro s
    show (s.file.decls.map Decl.unplaced).map _ = _
    rw [List.map_map]
    exact List.map_congr_left fun d _ => s.error?_unplaced d
  -- the two sessions without spans are one and the same
  have hcheck : s.unplaced.checkFile.value = s'.unplaced.checkFile.value := by rw [h]
  rw [unplaced_checkFile, unplaced_checkFile] at hcheck
  obtain ⟨hleft, hdiagnostics⟩ := Prod.mk.inj hcheck
  refine ⟨?_, hdiagnostics, congrArg Session.file hleft⟩
  rw [← herrors, h, herrors]

end Session

/-! ## Files that differ in their spans only -/

/-- The spans of a file make no difference to its check. Two files that are equal without their
spans are accepted together, or else rejected with diagnostics that are equal apart from the place;
in both cases the same types are left on the two trees. The same is true of sessions on the two
files, with any options: they can be opened or cannot for the same reason, find the same faults in
the same declarations, report diagnostics that are equal apart from the place, and leave the same
types on each declaration. -/
theorem File.spans_irrelevant {f f' : File} (h : f.unplaced = f'.unplaced) :
    ((f.check.value.2 = .ok () ↔ f'.check.value.2 = .ok ()) ∧
      (∀ d d', f.check.value.2 = .error d → f'.check.value.2 = .error d' →
        d.unplaced = d'.unplaced) ∧
      f.check.value.1.unplaced = f'.check.value.1.unplaced ∧
      f.check.value.1.decls.map Decl.slots = f'.check.value.1.decls.map Decl.slots) ∧
    ∀ options : Options,
      (∀ d, (Session.start f options).value = .error d →
        ∃ d', (Session.start f' options).value = .error d' ∧ d.unplaced = d'.unplaced) ∧
      ∀ s, (Session.start f options).value = .ok s →
        ∃ s', (Session.start f' options).value = .ok s' ∧
          f.decls.map (fun d => (s.error? d).map TypeError.unplaced) =
            f'.decls.map (fun d => (s'.error? d).map TypeError.unplaced) ∧
          s.checkFile.value.2.mapError (List.map Diagnostic.unplaced) =
            s'.checkFile.value.2.mapError (List.map Diagnostic.unplaced) ∧
          s.checkFile.value.1.file.unplaced = s'.checkFile.value.1.file.unplaced ∧
          s.checkFile.value.1.file.decls.map Decl.slots =
            s'.checkFile.value.1.file.decls.map Decl.slots := by
  have hcheck : f.unplaced.check.value = f'.unplaced.check.value := by rw [h]
  rw [unplaced_check, unplaced_check] at hcheck
  obtain ⟨hleft, hresult⟩ := Prod.mk.inj hcheck
  refine ⟨⟨?_, ?_, hleft, slots_of_unplaced hleft⟩, fun options => ?_⟩
  · rw [← mapError_eq_ok, hresult, mapError_eq_ok]
  · intro d d' hd hd'
    rw [hd, hd'] at hresult
    exact Except.error.inj hresult
  rcases Session.start_of_unplaced h options with
    ⟨d, d', hd, hd', hdiagnostic⟩ | ⟨s, s', hs, hs', hsession⟩
  · -- both are refused
    rw [hd, hd']
    refine ⟨?_, nofun⟩
    rintro d ⟨⟩
    exact ⟨d', rfl, hdiagnostic⟩
  · obtain ⟨reg, -, rfl⟩ := Session.start_eq_ok hs
    obtain ⟨reg', -, rfl⟩ := Session.start_eq_ok hs'
    obtain ⟨herrors, hdiagnostics, htrees⟩ := Session.checkFile_of_unplaced hsession
    rw [hs, hs']
    refine ⟨nofun, ?_⟩
    rintro s ⟨⟩
    exact ⟨_, rfl, herrors, hdiagnostics, htrees, slots_of_unplaced htrees⟩

/-- Two methods in a text that starts at an offset. The first adds a truth value to a number. -/
def movedFile (offset : Nat) : File where
  decls := [
    .method
      { name := "add"
        params := [{ name := "c", ty := .bool, span := some ⟨offset + 9, offset + 15⟩ }]
        ret := .void
        body := [
          { form := .infer "x" .inferred
              { form := .constant (.int 1), span := some ⟨offset + 27, offset + 28⟩ }
            span := some ⟨offset + 19, offset + 29⟩ },
          { form := .print
              { form := .binary .add
                  { form := .var "x", span := some ⟨offset + 36, offset + 37⟩ }
                  { form := .var "c", span := some ⟨offset + 40, offset + 41⟩ }
                span := some ⟨offset + 36, offset + 41⟩ }
            span := some ⟨offset + 30, offset + 42⟩ }]
        span := some ⟨offset, offset + 44⟩ },
    .method
      { name := "show", params := [], ret := .void
        body := [{ form := .print { form := .constant (.bool true) } }]
        span := some ⟨offset + 45, offset + 70⟩ }]

/-- The text is moved by nine places, and so is the error. All else is the same. -/
theorem File.spans_irrelevant_moved :
    let session (f : File) : Session := ⟨f, Registry.ofFile f, { keepGoing := true }⟩
    let f := movedFile 0
    let f' := movedFile 9
    f.unplaced = f'.unplaced ∧
      f.decls.map (session f).error? =
        [some ⟨.notInstanceOf (.single .int) .bool, some ⟨40, 41⟩⟩, none] ∧
      f'.decls.map (session f').error? =
        [some ⟨.notInstanceOf (.single .int) .bool, some ⟨49, 50⟩⟩, none] ∧
      (session f).checkFile.value.2.mapError (List.map Diagnostic.unplaced) =
        (session f').checkFile.value.2.mapError (List.map Diagnostic.unplaced) ∧
      f.check.value.1.decls.map Decl.slots = f'.check.value.1.decls.map Decl.slots := by
  intro session f f'
  have hunplaced : f.unplaced = f'.unplaced := rfl
  have hstart : (Session.start f { keepGoing := true }).value = .ok (session f) :=
    Session.start_of_build (by decide +kernel) _
  have hstart' : (Session.start f' { keepGoing := true }).value = .ok (session f') :=
    Session.start_of_build (by decide +kernel) _
  obtain ⟨⟨-, -, -, hslots⟩, hsessions⟩ := File.spans_irrelevant hunplaced
  -- the session on the moved file is the one started above
  obtain ⟨s', hs', -, hdiagnostics, -, -⟩ := (hsessions { keepGoing := true }).2 _ hstart
  rw [hstart'] at hs'
  cases hs'
  refine ⟨hunplaced, ?_, ?_, hdiagnostics, hslots⟩
  · decide +kernel
  · decide +kernel

end WhileTyping
