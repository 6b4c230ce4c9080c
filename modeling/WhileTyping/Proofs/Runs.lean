import WhileTyping.Proofs.Sites

/-!
# Runs

The ways of running a statement, as far as they matter for the types of variables: which values are
stored in which variables, in which order. A loop may be gone through any number of times, and a
`match` by any of its cases or by none. The runs are those without a jump, so they are all there are
of the statements that hold no `break`, `continue` or `return`.

The checker goes through each block once, and drops what it has found in the scope of a `for` loop
or of a `match` case. So a run also records where it departs from the checker: what it stores within
such a scope, and which blocks it passes over.

* **`StmtForm.jumps`**: the statements that leave a loop or the method.
* **`StmtForm.Runs`**: the runs of a statement.
* **`Run.tracked`**: the last action that has to do with a variable, if any, stores a value where
  the checker sees it.
* **`Run.tracked_append`**: how one run after another is tracked.
* **`Stmt.exists_untouched_run`**: a block without jumps that need not overwrite a variable has a
  run that leaves the variable alone.
-/

namespace WhileTyping

/-- Whether the statement leaves a loop or the method. -/
def StmtForm.jumps : StmtForm → Bool
  | .breakLoop | .continueLoop | .ret _ => true
  | .assert _ | .assign _ _ | .forLoop _ _ _ _ | .ifElse _ _ _ | .call _ _ | .print _
  | .switchOn _ _ | .matchType _ _ | .declare _ | .infer _ _ _ | .whileLoop _ _ => false

/-! ## Actions -/

namespace Stmt

mutual
/-- Whether a statement stores a value in the variable whichever arms of an `if` are taken, when
every `while` body and `switch` case is gone through. The scopes of `for` loops and `match` cases do
not count. -/
def overwrites (x : String) : Stmt → Bool
  | ⟨form, _⟩ => overwritesForm x form

/-- A branch does so if both of its arms do, and a loop if its body does. -/
def overwritesForm (x : String) : StmtForm → Bool
  | .assign target _ =>
    match target.form with
    | .var y => y == x
    | _ => false
  | .infer y _ _ => y == x
  | .ifElse _ onTrue onFalse => overwritesAll x onTrue && overwritesAll x onFalse
  | .switchOn _ cases => overwritesSwitch x cases
  | .whileLoop _ body => overwritesAll x body
  | .assert _ | .breakLoop | .continueLoop | .forLoop _ _ _ _ | .call _ _ | .print _ | .ret _
  | .matchType _ _ | .declare _ => false

def overwritesAll (x : String) : List Stmt → Bool
  | [] => false
  | s :: ss => overwrites x s || overwritesAll x ss

def overwritesSwitch (x : String) : List SwitchCase → Bool
  | [] => false
  | ⟨_, body⟩ :: cs => overwritesAll x body || overwritesSwitch x cs
end

end Stmt

/-- What a run does with variables. -/
inductive Action where
  | store (name : String) (value : Expr)
  /-- A value is stored within the scope of a `for` loop or of a `match` case. -/
  | inner (name : String) (value : Expr)
  /-- A `while` loop or a `switch` case is passed over. -/
  | pass (body : List Stmt)

namespace Action

/-- What is stored by it in a variable of the scope. -/
def write? : Action → Option (String × Expr)
  | .store x e | .inner x e => some (x, e)
  | .pass _ => none

/-- Whether the action changes what the variable holds, or passes over what the checker has taken to
change it. -/
def touches (x : String) : Action → Bool
  | .store y _ | .inner y _ => y == x
  | .pass body => Stmt.overwritesAll x body

end Action

/-- The actions of a run, the first first. -/
abbrev Run := List Action

namespace Run

/-- All that is stored on the run in variables of the scope. -/
def writes (run : Run) : List (String × Expr) := run.filterMap Action.write?

/-- The last action that has to do with a variable. -/
def last? (x : String) (run : Run) : Option Action := run.reverse.find? (Action.touches x)

/-- The last action that has to do with a variable, if there is one, is a plain store. -/
def tracked (x : String) (run : Run) : Bool :=
  match last? x run with
  | none | some (.store _ _) => true
  | some (.inner _ _) | some (.pass _) => false

/-- A run within a scope of its own, as it is seen from outside. -/
def dropped (writes : List (String × Expr)) : Run := writes.map fun w => .inner w.1 w.2

end Run

/-! ## Runs -/

mutual
inductive Stmt.Runs : Stmt → Run → Prop where
  | mk {form : StmtForm} {span : Option Span} {run : Run} : StmtForm.Runs form run →
      Stmt.Runs ⟨form, span⟩ run

/-- The runs of a statement that do not come to a jump. A `break`, a `continue` and a `return` have
none. -/
inductive StmtForm.Runs : StmtForm → Run → Prop where
  | assert {e : Expr} : StmtForm.Runs (.assert e) []
  | assignVar {target value : Expr} {x : String} : target.form = .var x →
      StmtForm.Runs (.assign target value) [.store x value]
  | assign {target value : Expr} : (∀ x, target.form ≠ .var x) →
      StmtForm.Runs (.assign target value) []
  /-- Each round is the body and then the step. -/
  | forLoop {d : VarDecl} {condition : Expr} {step : Stmt} {body : List Stmt}
      {rounds : List (Run × Run)} : (∀ r ∈ rounds, Stmt.RunsAll body r.1) →
      (∀ r ∈ rounds, Stmt.Runs step r.2) → StmtForm.Runs (.forLoop d condition step body)
        (Run.dropped (Run.writes (rounds.flatMap fun r => r.1 ++ r.2)))
  | onTrue {condition : Expr} {onTrue onFalse : List Stmt} {run : Run} : Stmt.RunsAll onTrue run →
      StmtForm.Runs (.ifElse condition onTrue onFalse) run
  | onFalse {condition : Expr} {onTrue onFalse : List Stmt} {run : Run} : Stmt.RunsAll onFalse run →
      StmtForm.Runs (.ifElse condition onTrue onFalse) run
  | call {method : String} {args : List Expr} : StmtForm.Runs (.call method args) []
  | print {e : Expr} : StmtForm.Runs (.print e) []
  | switchOn {selector : Expr} {cases : List SwitchCase} {run : Run} :
      SwitchCase.RunsAll cases run → StmtForm.Runs (.switchOn selector cases) run
  | matchNone {selector : Expr} {cases : List MatchCase} :
      StmtForm.Runs (.matchType selector cases) []
  /-- What is stored in the variable of the case is not stored in one around the statement. -/
  | matchOne {selector : Expr} {cases : List MatchCase} {c : MatchCase} {run : Run} : c ∈ cases →
      Stmt.RunsAll c.body run → StmtForm.Runs (.matchType selector cases)
        (Run.dropped ((Run.writes run).filter fun w => w.1 ≠ c.name))
  | declare {d : VarDecl} : StmtForm.Runs (.declare d) []
  | infer {x : String} {cell : Ty} {init : Expr} :
      StmtForm.Runs (.infer x cell init) [.store x init]
  -- the body is kept, as it tells which variables the checker has taken to be overwritten
  | whileNone {condition : Expr} {body : List Stmt} :
      StmtForm.Runs (.whileLoop condition body) [.pass body]
  | whileSome {condition : Expr} {body : List Stmt} {first : Run} {rounds : List Run} :
      Stmt.RunsAll body first → (∀ r ∈ rounds, Stmt.RunsAll body r) →
      StmtForm.Runs (.whileLoop condition body) (first ++ rounds.flatten)

inductive Stmt.RunsAll : List Stmt → Run → Prop where
  | nil : Stmt.RunsAll [] []
  | cons {s : Stmt} {ss : List Stmt} {run run' : Run} : Stmt.Runs s run → Stmt.RunsAll ss run' →
      Stmt.RunsAll (s :: ss) (run ++ run')

/-- Any of the cases may be taken, in their order: one case, none, or several of which each falls
through to the next. -/
inductive SwitchCase.RunsAll : List SwitchCase → Run → Prop where
  | nil : SwitchCase.RunsAll [] []
  | taken {value : Option Expr} {body : List Stmt} {cs : List SwitchCase} {run run' : Run} :
      Stmt.RunsAll body run → SwitchCase.RunsAll cs run' →
      SwitchCase.RunsAll (⟨value, body⟩ :: cs) (run ++ run')
  | passed {value : Option Expr} {body : List Stmt} {cs : List SwitchCase} {run : Run} :
      SwitchCase.RunsAll cs run → SwitchCase.RunsAll (⟨value, body⟩ :: cs) ([.pass body] ++ run)
end

/-! ## Runs and the last value stored -/

namespace Run

variable {x : String} {run run' : Run}

theorem writes_append : writes (run ++ run') = writes run ++ writes run' :=
  List.filterMap_append

/-- The last action on a variable is in the second part of a run, if there is one. -/
theorem last?_append : last? x (run ++ run') = (last? x run').or (last? x run) := by
  rw [last?, List.reverse_append, List.find?_append, last?, last?]

/-- An action that does not touch the variable stores nothing in it. -/
theorem lookup_writes_cons {a : Action} {actions : List Action} (h : a.touches x = false) :
    (writes (a :: actions)).lookup x = (writes actions).lookup x := by
  cases a with
  | store y e | inner y e =>
    have hy : x ≠ y := (ne_of_beq_false h).symm
    show ((y, e) :: writes actions).lookup x = _
    rw [List.lookup_cons, beq_false_of_ne hy]
  | pass body => rfl

/-- The first action that has to do with a variable decides what is first stored in it. It is used
for a run from its end. -/
theorem lookup_writes_of_find? {actions : List Action} :
    (actions.find? (Action.touches x) = none → (writes actions).lookup x = none) ∧
      ∀ y e, actions.find? (Action.touches x) = some (.store y e) →
        (writes actions).lookup x = some e := by
  induction actions with
  | nil => exact ⟨fun _ => rfl, fun y e h => by cases h⟩
  | cons a actions ih =>
    cases ha : a.touches x with
    -- a store that touches the variable is a store to it
    | true =>
      rw [List.find?_cons_of_pos ha]
      refine ⟨fun h => absurd h (Option.some_ne_none a), fun y e h => ?_⟩
      cases h
      cases eq_of_beq ha
      exact List.lookup_cons_self
    | false =>
      rw [List.find?_cons_of_neg (by simp [ha]), lookup_writes_cons ha]
      exact ih

/-- If nothing is done to a variable, nothing is stored in it. -/
theorem lookup_of_last?_none (h : last? x run = none) : (writes run).reverse.lookup x = none := by
  rw [writes, ← List.filterMap_reverse]
  exact lookup_writes_of_find?.1 h

/-- If the last that is done to a variable is to store a value, that is its last value. -/
theorem lookup_of_last?_store {y : String} {e : Expr} (h : last? x run = some (.store y e)) :
    (writes run).reverse.lookup x = some e := by
  rw [writes, ← List.filterMap_reverse]
  exact lookup_writes_of_find?.2 y e h

/-- A variable to which nothing is done is tracked. -/
theorem tracked_of_last?_none (h : last? x run = none) : tracked x run = true := by
  rw [tracked, h]

/-- Of two runs in sequence, the second is tracked, and so is the first unless the second stores a
value. -/
theorem tracked_append (h : tracked x (run ++ run') = true) :
    tracked x run' = true ∧
      (((writes run').reverse.lookup x = none ∧ tracked x run = true) ∨
        ∃ e, (writes run').reverse.lookup x = some e) := by
  rw [tracked, last?_append] at h
  cases hlast : last? x run' with
  | none =>
    rw [hlast, Option.none_or] at h
    exact ⟨tracked_of_last?_none hlast, .inl ⟨lookup_of_last?_none hlast, h⟩⟩
  | some a =>
    rw [hlast, Option.some_or] at h
    rw [tracked, hlast]
    cases a with
    | store y e => exact ⟨rfl, .inr ⟨e, lookup_of_last?_store hlast⟩⟩
    -- the last that is done to the variable is no store, so it would not be tracked
    | inner | pass => cases h

/-- A run within a dropped scope is tracked only for variables that it leaves alone. -/
theorem last?_dropped {writes : List (String × Expr)} (h : tracked x (dropped writes) = true) :
    last? x (dropped writes) = none := by
  rw [tracked] at h
  cases hlast : last? x (dropped writes) with
  | none => rfl
  | some a =>
    -- all that is done in a dropped scope is hidden
    have hmem := List.mem_of_find?_eq_some hlast
    rw [List.mem_reverse, dropped, List.mem_map] at hmem
    obtain ⟨w, -, rfl⟩ := hmem
    rw [hlast] at h
    cases h

end Run

/-! ## Runs that leave a variable alone -/

/-- Passing over all cases is enough, since none of them need overwrite the variable. -/
theorem SwitchCase.exists_untouched (x : String) : ∀ cs : List SwitchCase,
    Stmt.overwritesSwitch x cs = false →
      ∃ run, SwitchCase.RunsAll cs run ∧ ∀ a ∈ run, Action.touches x a = false
  | [], h => ⟨[], .nil, nofun⟩
  | ⟨value, body⟩ :: cs, h => by
    rw [Stmt.overwritesSwitch, Bool.or_eq_false_iff] at h
    obtain ⟨run, hrun, huntouched⟩ := SwitchCase.exists_untouched x cs h.2
    exact ⟨_, .passed hrun, List.forall_mem_append.2
      ⟨List.forall_mem_singleton.2 h.1, huntouched⟩⟩

mutual
/-- A statement that does not overwrite a variable on all of its ways, and holds no jump, has a run
that leaves it alone. -/
theorem Stmt.exists_untouched (x : String) : ∀ s : Stmt, s.overwrites x = false →
    (∀ n ∈ s.nodes, n.form.jumps = false) →
      ∃ run, s.Runs run ∧ ∀ a ∈ run, Action.touches x a = false
  | ⟨form, span⟩, h, hjumps => by
    rw [Stmt.nodes, List.forall_mem_cons] at hjumps
    obtain ⟨run, hrun, huntouched⟩ := StmtForm.exists_untouched x form h hjumps.1 hjumps.2
    exact ⟨run, .mk hrun, huntouched⟩

/-- By cases on the statement. A loop is left at once, and a branch goes to the arm that does not
overwrite it. -/
theorem StmtForm.exists_untouched (x : String) : ∀ form : StmtForm,
    Stmt.overwritesForm x form = false → form.jumps = false →
      (∀ n ∈ Stmt.nodesForm form, n.form.jumps = false) →
        ∃ run, form.Runs run ∧ ∀ a ∈ run, Action.touches x a = false
  | .assert e, h, hself, hjumps => ⟨[], .assert, nofun⟩
  | .assign target value, h, hself, hjumps => by
    rw [Stmt.overwritesForm] at h
    split at h
    · rename_i y hy
      exact ⟨_, .assignVar hy, List.forall_mem_singleton.2 h⟩
    · rename_i hform
      exact ⟨[], .assign hform, nofun⟩
  | .breakLoop, h, hself, hjumps
  | .continueLoop, h, hself, hjumps
  | .ret value, h, hself, hjumps => by cases hself
  | .forLoop d condition step body, h, hself, hjumps =>
    ⟨_, @StmtForm.Runs.forLoop d condition step body [] nofun nofun, nofun⟩
  | .ifElse condition onTrue onFalse, h, hself, hjumps => by
    rw [Stmt.nodesForm, List.forall_mem_append] at hjumps
    rw [Stmt.overwritesForm, Bool.and_eq_false_iff] at h
    rcases h with h | h
    · obtain ⟨run, hrun, huntouched⟩ := Stmt.exists_untouched_run x onTrue h hjumps.1
      exact ⟨run, .onTrue hrun, huntouched⟩
    · obtain ⟨run, hrun, huntouched⟩ := Stmt.exists_untouched_run x onFalse h hjumps.2
      exact ⟨run, .onFalse hrun, huntouched⟩
  | .call method args, h, hself, hjumps => ⟨[], .call, nofun⟩
  | .print e, h, hself, hjumps => ⟨[], .print, nofun⟩
  | .switchOn selector cases, h, hself, hjumps => by
    obtain ⟨run, hrun, huntouched⟩ := SwitchCase.exists_untouched x cases h
    exact ⟨run, .switchOn hrun, huntouched⟩
  | .matchType selector cases, h, hself, hjumps => ⟨[], .matchNone, nofun⟩
  | .declare d, h, hself, hjumps => ⟨[], .declare, nofun⟩
  | .infer y cell init, h, hself, hjumps => ⟨_, .infer, List.forall_mem_singleton.2 h⟩
  -- passing over the loop is enough, since its body need not overwrite the variable
  | .whileLoop condition body, h, hself, hjumps =>
    ⟨_, .whileNone, List.forall_mem_singleton.2 h⟩

/-- A block without jumps that need not overwrite a variable has a run that leaves the variable
alone. -/
theorem Stmt.exists_untouched_run (x : String) : ∀ ss : List Stmt,
    Stmt.overwritesAll x ss = false → (∀ n ∈ Stmt.nodesAll ss, n.form.jumps = false) →
      ∃ run, Stmt.RunsAll ss run ∧ ∀ a ∈ run, Action.touches x a = false
  | [], h, hjumps => ⟨[], .nil, nofun⟩
  | s :: ss, h, hjumps => by
    rw [Stmt.overwritesAll, Bool.or_eq_false_iff] at h
    rw [Stmt.nodesAll, List.forall_mem_append] at hjumps
    obtain ⟨run, hrun, huntouched⟩ := Stmt.exists_untouched x s h.1 hjumps.1
    obtain ⟨run', hrun', huntouched'⟩ := Stmt.exists_untouched_run x ss h.2 hjumps.2
    exact ⟨_, .cons hrun hrun', List.forall_mem_append.2 ⟨huntouched, huntouched'⟩⟩
end

end WhileTyping
