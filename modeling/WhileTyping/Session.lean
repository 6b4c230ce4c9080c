import WhileTyping.File.Typing

/-!
# Sessions

A session checks the declarations of one file against the registry built from it. Checks may be
repeated; the tree keeps the types that earlier checks left on it. Checking a declaration stops at
its first error. Checking the file stops there too, or goes on with the next declaration and reports
every one that fails.
-/

namespace WhileTyping

open Log (Event)

structure Options where
  /-- Go on with the next declaration after one that fails. -/
  keepGoing : Bool := false
  /-- The file name to report, in place of the name of the file itself. -/
  file : Option String := none
  deriving DecidableEq, Repr

structure Session where
  file : File
  registry : Registry
  options : Options

/-- A computation that cannot fail but reports events. -/
structure Reported (α : Type) where
  value : α
  log : List Event

namespace Session

/-- The file name that diagnostics carry. -/
def fileName (s : Session) : Option String := s.options.file.or s.file.name

def diagnostic (s : Session) (e : TypeError) : Diagnostic := e.toDiagnostic s.fileName

/-- Opens a session on a file whose registry can be built. -/
def start (f : File) (options : Options) : Reported (Except Diagnostic Session) :=
  let built := Registry.build f
  ⟨match built.result with
    | .ok reg => .ok ⟨f, reg, options⟩
    | .error e => .error (e.toDiagnostic (options.file.or f.name)), built.log⟩

/-- Checks one declaration against the registry of the session. A failure is also reported as an
event, at the place of the error or else of the declaration. -/
def checkDecl (s : Session) (d : Decl) : Visit Decl Unit :=
  let v := d.check s.registry
  match v.run.result with
  | .ok () => v
  | .error e =>
    ⟨v.left, ⟨v.run.log ++ [.declarationFailed d.name e (e.span.or d.span)], .error e⟩⟩

/-- What a run over declarations leaves: the declarations, the errors in order, the events. -/
structure Run where
  decls : List Decl
  errors : List TypeError
  log : List Event

def checkDecls (s : Session) : List Decl → Run
  | [] => ⟨[], [], []⟩
  | d :: ds =>
    let v := s.checkDecl d
    match v.run.result with
    | .ok () =>
      let rest := s.checkDecls ds
      ⟨v.left :: rest.decls, rest.errors, v.run.log ++ rest.log⟩
    | .error e =>
      if s.options.keepGoing then
        let rest := s.checkDecls ds
        ⟨v.left :: rest.decls, e :: rest.errors, v.run.log ++ rest.log⟩
      else ⟨v.left :: ds, [e], v.run.log⟩

/-- The same session on a file with other declarations. -/
def withDecls (s : Session) (decls : List Decl) : Session :=
  { s with file := { s.file with decls := decls } }

/-- Checks the declaration at a position of the file, if there is one. -/
def checkAt (s : Session) (i : Nat) : Visit Session Unit :=
  match s.file.decls[i]? with
  | none => ⟨s, return ()⟩
  | some d => (s.checkDecl d).within fun d => s.withDecls (s.file.decls.set i d)

/-- How a run ends that has met with diagnostics. -/
def verdict : List Diagnostic → Except (List Diagnostic) Unit
  | [] => .ok ()
  | d :: ds => .error (d :: ds)

/-- Checks the declarations of the file in order. It fails with the diagnostics of those that fail,
if there are any. -/
def checkFile (s : Session) : Reported (Session × Except (List Diagnostic) Unit) :=
  let run := s.checkDecls s.file.decls
  let diagnostics := run.errors.map s.diagnostic
  ⟨(s.withDecls run.decls, verdict diagnostics),
    run.log ++ [.fileFinished s.file.decls.length s.fileName diagnostics.length]⟩

end Session

/-- Checks the declarations of a file in order, up to the first that fails. -/
def File.check (f : File) : Reported (File × Except Diagnostic Unit) :=
  let started := Session.start f {}
  match started.value with
  | .error d => ⟨(f, .error d), started.log⟩
  | .ok s =>
    let run := s.checkDecls f.decls
    let result := match run.errors with
      | [] => .ok ()
      | e :: _ => .error (s.diagnostic e)
    ⟨({ f with decls := run.decls }, result), started.log ++ run.log⟩

end WhileTyping
