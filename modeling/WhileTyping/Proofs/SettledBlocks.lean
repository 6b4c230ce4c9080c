import WhileTyping.Proofs.StatementEnds
import WhileTyping.Proofs.UnionBound

/-!
# Settled statements

A block whose tree is fresh, checked in settled surroundings, leaves settled surroundings, and every
type it leaves on the tree is settled. The same holds of every block within it.

* **`Stmt.writtenTypes`**: the types written in a statement, which are to have canonical unions.
* **`Stmt.blocks`**: the blocks within a statement, each with the environment it is checked in.
* **`Stmt.Prepared`**: a fresh block and a settled environment, such that the check succeeds.
* **`Stmt.checkAll_settles`**: what such a check leaves. The induction is over the syntax, with a
  theorem for each of the functions that make up the check.
-/

namespace WhileTyping

/-! ## Slots of statements -/

namespace Slot

/-- Nothing has been found yet. -/
def Empty : Slot → Prop
  | .expr t => t = none
  | .cell t => t = .inferred

instance : DecidablePred Empty
  | .expr t => inferInstanceAs (Decidable (t = none))
  | .cell t => inferInstanceAs (Decidable (t = .inferred))

/-- A settled type has been found. -/
def Full (reg : Registry) : Slot → Prop
  | .expr t => ∃ u, t = some u ∧ reg.Settled u
  | .cell t => reg.Settled t

end Slot

namespace Stmt

/-- The slots of an expression in a statement are empty if the expression is blank. -/
theorem empty_exprSlots {e : Expr} : (∀ s ∈ exprSlots e, s.Empty) ↔ Blank e.slots := by
  simp only [exprSlots, List.forall_mem_map]
  rfl

/-- They are full if all of its types are settled. -/
theorem full_exprSlots {reg : Registry} {e : Expr} :
    (∀ s ∈ exprSlots e, s.Full reg) ↔ Filled reg.Settled e.slots := by
  simp only [exprSlots, List.forall_mem_map]
  rfl

theorem flatMap_exprSlots (es : List Expr) :
    es.flatMap exprSlots = (Expr.slotsAll es).map Slot.expr := by
  induction es with
  | nil => rfl
  | cons e es ih => rw [List.flatMap_cons, ih, Expr.slotsAll, List.map_append, exprSlots]

/-! ## Written types and blocks -/

mutual
/-- The types written in a statement. -/
def writtenTypes : Stmt → List Ty
  | ⟨form, _⟩ => writtenForm form

/-- Those of a declaration and of the cases of a `match` are the only ones. -/
def writtenForm : StmtForm → List Ty
  | .forLoop d _ step body => d.ty :: (writtenTypes step ++ writtenAll body)
  | .ifElse _ onTrue onFalse => writtenAll onTrue ++ writtenAll onFalse
  | .switchOn _ cases => writtenSwitch cases
  | .matchType _ cases => writtenMatch cases
  | .declare d => [d.ty]
  | .whileLoop _ body => writtenAll body
  | .assert _ | .assign _ _ | .breakLoop | .continueLoop | .call _ _ | .print _ | .ret _
  | .infer _ _ _ => []

def writtenAll : List Stmt → List Ty
  | [] => []
  | s :: ss => writtenTypes s ++ writtenAll ss

def writtenSwitch : List SwitchCase → List Ty
  | [] => []
  | ⟨_, body⟩ :: cs => writtenAll body ++ writtenSwitch cs

def writtenMatch : List MatchCase → List Ty
  | [] => []
  | ⟨t, _, body, _⟩ :: cs => t :: (writtenAll body ++ writtenMatch cs)
end

mutual
/-- The blocks within a statement that is checked in an environment, each with the environment that
it is checked in itself. -/
def blocks (ctx : Context) (env : Env) : Stmt → List (Env × List Stmt)
  | ⟨form, _⟩ => blocksForm ctx env form

/-- The step of a `for` is checked before its body, and the cases of a `switch` one after
another. -/
def blocksForm (ctx : Context) (env : Env) : StmtForm → List (Env × List Stmt)
  | .forLoop d _ step body =>
    blocks ctx (env.put d.name d.ty) step ++
      ((step.check ctx (env.put d.name d.ty)).left.1, body) ::
        blocksAll ctx (step.check ctx (env.put d.name d.ty)).left.1 body
  | .ifElse _ onTrue onFalse =>
    (env, onTrue) :: blocksAll ctx env onTrue ++ (env, onFalse) :: blocksAll ctx env onFalse
  | .switchOn _ cases => blocksSwitch ctx env cases
  | .matchType _ cases => blocksMatch ctx env cases
  | .whileLoop _ body => (env, body) :: blocksAll ctx env body
  | .assert _ | .assign _ _ | .breakLoop | .continueLoop | .call _ _ | .print _ | .ret _
  | .declare _ | .infer _ _ _ => []

def blocksAll (ctx : Context) (env : Env) : List Stmt → List (Env × List Stmt)
  | [] => []
  | s :: ss => blocks ctx env s ++ blocksAll ctx (s.check ctx env).left.1 ss

def blocksSwitch (ctx : Context) (env : Env) : List SwitchCase → List (Env × List Stmt)
  | [] => []
  | ⟨_, body⟩ :: cs =>
    (env, body) :: blocksAll ctx env body ++
      blocksSwitch ctx (Stmt.checkAll ctx env body).left.1 cs

def blocksMatch (ctx : Context) (env : Env) : List MatchCase → List (Env × List Stmt)
  | [] => []
  | ⟨t, x, body, _⟩ :: cs =>
    (env.put x t, body) :: blocksAll ctx (env.put x t) body ++ blocksMatch ctx env cs
end

/-- A fresh block that passes its check in a settled environment. -/
structure Prepared (ctx : Context) (env : Env) (body : List Stmt) : Prop where
  settled : env.Settled ctx.registry
  empty : ∀ s ∈ slotsAll body, s.Empty
  canonical : ∀ t ∈ writtenAll body, t.Canonical
  passes : (checkAll ctx env body).run.result = .ok ()

end Stmt

/-! ## Environments -/

namespace Env

variable {reg : Registry} {env : Env}

/-- A variable that holds a settled type. -/
theorem Settled.insert (henv : env.Settled reg) (x : String) {b : Binding}
    (hb : reg.Settled b.current) : (env.insert x b).Settled reg := by
  intro y t ht
  by_cases hy : y = x
  · subst hy
    rw [current?, find?_insert_self] at ht
    cases ht
    exact hb
  · rw [current?, find?_insert_of_ne env b hy] at ht
    exact henv y t ht

/-- Merged branches hold settled types, as a union of settled types is settled. -/
theorem Settled.merge (hwf : WellFounded reg.Unfolds) (hreg : reg.Bodies reg.Settled)
    {left right merged : Env} (henv : env.Settled reg) (hleft : left.Settled reg)
    (hright : right.Settled reg) (h : (env.merge reg left right).Ends merged ()) :
    merged.Settled reg := by
  intro x t ht
  rw [current?] at ht
  rcases find?_merge h x with ⟨-, hnone⟩ | ⟨b, b', hb, hb', hmerge⟩
  · rw [hnone] at ht
    cases ht
  · rw [hb'] at ht
    cases ht
    rcases mergeBinding_cases hmerge with ⟨rfl, -⟩ | ⟨-, -, l, r, hl, hr, hjoin⟩
    · exact henv x _ (current?_of_find? hb)
    · exact (joinTypes_upper hwf hreg (hleft x l hl) (hright x r hr) hjoin).1

end Env

/-! ## Parts of statements -/

section Parts

variable {ctx : Context} {env : Env} (hreg : ctx.registry.AllSettled)
  (henv : env.Settled ctx.registry)

include hreg henv

/-- A condition has all of its types after its check. -/
theorem Expr.checkCondition_filled {e e' : Expr} (hblank : Blank e.slots)
    (h : (e.checkCondition ctx env).Ends e' ()) : Filled ctx.registry.Settled e'.slots := by
  obtain ⟨t, u, he, -⟩ := Expr.checkCondition_ends h
  exact (Expr.synth_filled hreg.hereditary henv e hblank he).2

/-- So has an initial value. The declaration keeps its name and its type, which is settled. -/
theorem VarDecl.check_settled {span : Option Span} {d d' : VarDecl}
    (hempty : ∀ s ∈ Stmt.optionSlots d.init, s.Empty) (hcan : d.ty.Canonical)
    (h : (d.check ctx env span).Ends d' ()) :
    d'.name = d.name ∧ d'.ty = d.ty ∧ ctx.registry.Settled d.ty ∧
      ∀ s ∈ Stmt.optionSlots d'.init, s.Full ctx.registry := by
  obtain ⟨-, hty, hinit⟩ := VarDecl.check_ends h
  have hty := Registry.settled_of_expectValueType hty hcan
  rcases hinit with ⟨hinit, rfl⟩ | ⟨e, e', t, hinit, he, -, rfl⟩
  · rw [hinit]
    exact ⟨rfl, rfl, hty, fun s hs => absurd hs List.not_mem_nil⟩
  · rw [hinit, Stmt.optionSlots, Stmt.empty_exprSlots] at hempty
    exact ⟨rfl, rfl, hty,
      Stmt.full_exprSlots.2 (Expr.synth_filled hreg.hereditary henv e hempty he).2⟩

end Parts

/-! ## Statements -/

section Statements

variable {ctx : Context}

mutual
/-- A statement that passes its check from a settled environment ends in one, with all of its types
settled. The blocks in it are prepared. -/
theorem Stmt.check_settles (hwf : WellFounded ctx.registry.Unfolds)
    (hreg : ctx.registry.AllSettled) :
    ∀ (s : Stmt) {env env' : Env} {s' : Stmt}, env.Settled ctx.registry →
    (∀ slot ∈ s.slots, slot.Empty) → (∀ t ∈ s.writtenTypes, t.Canonical) →
      (s.check ctx env).Ends (env', s') () →
        env'.Settled ctx.registry ∧ (∀ slot ∈ s'.slots, slot.Full ctx.registry) ∧
          ∀ p ∈ s.blocks ctx env, Stmt.Prepared ctx p.1 p.2
  | ⟨form, span⟩, env, env', s', henv, hempty, hcan, h => by
    obtain ⟨form', hform, rfl⟩ := Stmt.check_ends h
    exact StmtForm.check_settles hwf hreg form henv hempty hcan hform

/-- By cases on the statement. The environments are handed on as the check does it. -/
theorem StmtForm.check_settles (hwf : WellFounded ctx.registry.Unfolds)
    (hreg : ctx.registry.AllSettled) : ∀ (form : StmtForm) {span : Option Span} {env : Env}
    {left : Env × StmtForm}, env.Settled ctx.registry →
      (∀ slot ∈ Stmt.slotsForm form, slot.Empty) → (∀ t ∈ Stmt.writtenForm form, t.Canonical) →
        (form.check ctx env span).Ends left () →
          left.1.Settled ctx.registry ∧
            (∀ slot ∈ Stmt.slotsForm left.2, slot.Full ctx.registry) ∧
            ∀ p ∈ Stmt.blocksForm ctx env form, Stmt.Prepared ctx p.1 p.2
  | .assert e, span, env, left, henv, hempty, hcan, h => by
    rw [Stmt.slotsForm, Stmt.empty_exprSlots] at hempty
    obtain ⟨e', he, rfl⟩ := StmtForm.assert_ends h
    exact ⟨henv, Stmt.full_exprSlots.2 (Expr.checkCondition_filled hreg henv hempty he), nofun⟩
  | .assign target value, span, env, left, henv, hempty, hcan, h => by
    rw [Stmt.slotsForm, List.forall_mem_append, Stmt.empty_exprSlots,
      Stmt.empty_exprSlots] at hempty
    obtain ⟨target', lt, value', rt, env', htarget, hvalue, hstore, rfl⟩ := StmtForm.assign_ends h
    obtain ⟨hrt, hfilled⟩ := Expr.synth_filled hreg.hereditary henv value hempty.2 hvalue
    refine ⟨?_, ?_, nofun⟩
    · -- a `var` variable may take on the type of the value, which is settled
      rcases Expr.store_ends hstore with ⟨x, b, -, -, -, rfl⟩ | ⟨rfl, -⟩
      · exact henv.insert x (Expr.of_filled hrt hfilled)
      · exact henv
    · rw [Stmt.slotsForm, List.forall_mem_append, Stmt.full_exprSlots, Stmt.full_exprSlots]
      exact ⟨(Expr.synth_filled hreg.hereditary henv target hempty.1 htarget).2, hfilled⟩
  | .breakLoop, span, env, left, henv, hempty, hcan, h
  | .continueLoop, span, env, left, henv, hempty, hcan, h => by
    obtain ⟨rfl, -⟩ := Visit.ends_mk.1 h
    exact ⟨henv, nofun, nofun⟩
  | .forLoop d condition step body, span, env, left, henv, hempty, hcan, h => by
    simp only [Stmt.slotsForm, List.forall_mem_append, Stmt.empty_exprSlots] at hempty
    obtain ⟨⟨⟨hinit, hcondition⟩, hstep⟩, hbody⟩ := hempty
    rw [Stmt.writtenForm, List.forall_mem_cons, List.forall_mem_append] at hcan
    obtain ⟨d', condition', env₁, step', inner, hd, -, hcond, hs, hb, rfl⟩ :=
      StmtForm.forLoop_ends h
    obtain ⟨-, -, hsettled, hdslots⟩ := VarDecl.check_settled hreg henv hinit hcan.1 hd
    have hput : (env.put d.name d.ty).Settled ctx.registry := henv.insert _ hsettled
    -- the step is checked before the body, which starts from what it leaves
    obtain ⟨henv₁, hsslots, hsblocks⟩ := Stmt.check_settles hwf hreg step hput hstep hcan.2.1 hs
    obtain ⟨-, hbslots, hbblocks⟩ := Stmt.checkAll_settles hwf hreg body henv₁ hbody hcan.2.2 hb
    refine ⟨henv, ?_, ?_⟩
    · simp only [Stmt.slotsForm, List.forall_mem_append, Stmt.full_exprSlots]
      exact ⟨⟨⟨hdslots, Expr.checkCondition_filled hreg hput hcondition hcond⟩, hsslots⟩, hbslots⟩
    · rw [Stmt.blocksForm, hs.1]
      exact List.forall_mem_append.2 ⟨hsblocks, hbblocks⟩
  | .ifElse condition onTrue onFalse, span, env, left, henv, hempty, hcan, h => by
    simp only [Stmt.slotsForm, List.forall_mem_append, Stmt.empty_exprSlots] at hempty
    obtain ⟨⟨hcondition, htrue⟩, hfalse⟩ := hempty
    rw [Stmt.writtenForm, List.forall_mem_append] at hcan
    obtain ⟨condition', l, r, merged, hcond, hl, hr, hmerged, rfl⟩ := StmtForm.ifElse_ends h
    obtain ⟨hlenv, hlslots, hlblocks⟩ := Stmt.checkAll_settles hwf hreg onTrue henv htrue hcan.1 hl
    obtain ⟨hrenv, hrslots, hrblocks⟩ :=
      Stmt.checkAll_settles hwf hreg onFalse henv hfalse hcan.2 hr
    -- types of both sides are settled, and joins of settled types are too
    refine ⟨henv.merge hwf hreg.bodies hlenv hrenv hmerged, ?_, ?_⟩
    · simp only [Stmt.slotsForm, List.forall_mem_append, Stmt.full_exprSlots]
      exact ⟨⟨Expr.checkCondition_filled hreg henv hcondition hcond, hlslots⟩, hrslots⟩
    · rw [Stmt.blocksForm]
      exact List.forall_mem_append.2 ⟨hlblocks, hrblocks⟩
  | .call method args, span, env, left, henv, hempty, hcan, h => by
    rw [Stmt.slotsForm, Stmt.flatMap_exprSlots, List.forall_mem_map] at hempty
    obtain ⟨sig, args', -, hlen, hargs, rfl⟩ := StmtForm.call_ends h
    refine ⟨henv, ?_, nofun⟩
    rw [Stmt.slotsForm, Stmt.flatMap_exprSlots, List.forall_mem_map]
    exact Expr.synthArgs_filled hreg.hereditary henv args hlen hempty hargs
  | .print e, span, env, left, henv, hempty, hcan, h => by
    rw [Stmt.slotsForm, Stmt.empty_exprSlots] at hempty
    obtain ⟨e', t, he, rfl⟩ := StmtForm.print_ends h
    exact ⟨henv, Stmt.full_exprSlots.2 (Expr.synth_filled hreg.hereditary henv e hempty he).2,
      nofun⟩
  | .ret none, span, env, left, henv, hempty, hcan, h => by
    obtain ⟨-, rfl⟩ := StmtForm.retVoid_ends h
    exact ⟨henv, nofun, nofun⟩
  | .ret (some e), span, env, left, henv, hempty, hcan, h => by
    rw [Stmt.slotsForm, Stmt.optionSlots, Stmt.empty_exprSlots] at hempty
    obtain ⟨e', t, he, -, rfl⟩ := StmtForm.ret_ends h
    exact ⟨henv, Stmt.full_exprSlots.2 (Expr.synth_filled hreg.hereditary henv e hempty he).2,
      nofun⟩
  | .switchOn selector cases, span, env, left, henv, hempty, hcan, h => by
    rw [Stmt.slotsForm, List.forall_mem_append, Stmt.empty_exprSlots] at hempty
    obtain ⟨selector', t, env₁, cases', hsel, hcs, rfl⟩ := StmtForm.switchOn_ends h
    obtain ⟨henv₁, hslots, hblocks⟩ :=
      SwitchCase.checkAll_settles hwf hreg cases henv hempty.2 hcan hcs
    refine ⟨henv₁, ?_, hblocks⟩
    rw [Stmt.slotsForm, List.forall_mem_append, Stmt.full_exprSlots]
    exact ⟨(Expr.synth_filled hreg.hereditary henv selector hempty.1 hsel).2, hslots⟩
  | .matchType selector cases, span, env, left, henv, hempty, hcan, h => by
    rw [Stmt.slotsForm, List.forall_mem_append, Stmt.empty_exprSlots] at hempty
    obtain ⟨selector', t, cases', hsel, hcs, rfl⟩ := StmtForm.matchType_ends h
    obtain ⟨hslots, hblocks⟩ := MatchCase.checkAll_settles hwf hreg cases henv hempty.2 hcan hcs
    refine ⟨henv, ?_, hblocks⟩
    rw [Stmt.slotsForm, List.forall_mem_append, Stmt.full_exprSlots]
    exact ⟨(Expr.synth_filled hreg.hereditary henv selector hempty.1 hsel).2, hslots⟩
  | .declare d, span, env, left, henv, hempty, hcan, h => by
    obtain ⟨d', hd, rfl⟩ := StmtForm.declare_ends h
    obtain ⟨hname, hty, hsettled, hslots⟩ :=
      VarDecl.check_settled hreg henv hempty (hcan d.ty (List.mem_singleton_self _)) hd
    exact ⟨henv.insert _ (hty ▸ hsettled), hslots, nofun⟩
  | .infer x cell init, span, env, left, henv, hempty, hcan, h => by
    rw [Stmt.slotsForm, List.forall_mem_cons, Stmt.empty_exprSlots] at hempty
    obtain ⟨init', t, -, hinit, rfl⟩ := StmtForm.infer_ends h
    obtain ⟨ht, hfilled⟩ := Expr.synth_filled hreg.hereditary henv init hempty.2 hinit
    have ht := Expr.of_filled ht hfilled
    refine ⟨henv.insert x ht, ?_, nofun⟩
    rw [Stmt.slotsForm, List.forall_mem_cons, Stmt.full_exprSlots]
    exact ⟨ht, hfilled⟩
  | .whileLoop condition body, span, env, left, henv, hempty, hcan, h => by
    rw [Stmt.slotsForm, List.forall_mem_append, Stmt.empty_exprSlots] at hempty
    obtain ⟨condition', env₁, body', hcond, hbody, rfl⟩ := StmtForm.whileLoop_ends h
    obtain ⟨henv₁, hslots, hblocks⟩ := Stmt.checkAll_settles hwf hreg body henv hempty.2 hcan hbody
    refine ⟨henv₁, ?_, hblocks⟩
    rw [Stmt.slotsForm, List.forall_mem_append, Stmt.full_exprSlots]
    exact ⟨Expr.checkCondition_filled hreg henv hempty.1 hcond, hslots⟩

/-- A fresh block that passes its check in a settled environment leaves a settled environment and
settled types, and so does every block within it. -/
theorem Stmt.checkAll_settles (hwf : WellFounded ctx.registry.Unfolds)
    (hreg : ctx.registry.AllSettled) : ∀ (ss : List Stmt) {env : Env} {left : Env × List Stmt},
    env.Settled ctx.registry → (∀ slot ∈ Stmt.slotsAll ss, slot.Empty) →
      (∀ t ∈ Stmt.writtenAll ss, t.Canonical) → (Stmt.checkAll ctx env ss).Ends left () →
        left.1.Settled ctx.registry ∧ (∀ slot ∈ Stmt.slotsAll left.2, slot.Full ctx.registry) ∧
          ∀ p ∈ (env, ss) :: Stmt.blocksAll ctx env ss, Stmt.Prepared ctx p.1 p.2
  | [], env, left, henv, hempty, hcan, h => by
    refine ⟨?_, ?_, List.forall_mem_cons.2 ⟨⟨henv, hempty, hcan, h.2⟩, nofun⟩⟩
    all_goals obtain ⟨rfl, -⟩ := Visit.ends_mk.1 h
    · exact henv
    · exact nofun
  | s :: ss, env, left, henv, hempty, hcan, h => by
    have hself : Stmt.Prepared ctx env (s :: ss) := ⟨henv, hempty, hcan, h.2⟩
    -- the rest is checked in what the first statement leaves
    rw [Stmt.slotsAll, List.forall_mem_append] at hempty
    rw [Stmt.writtenAll, List.forall_mem_append] at hcan
    obtain ⟨env₁, s', env₂, rest, hs, hrest, rfl⟩ := Stmt.cons_ends h
    obtain ⟨henv₁, hslots, hblocks⟩ := Stmt.check_settles hwf hreg s henv hempty.1 hcan.1 hs
    obtain ⟨henv₂, hslots', hblocks'⟩ :=
      Stmt.checkAll_settles hwf hreg ss henv₁ hempty.2 hcan.2 hrest
    refine ⟨henv₂, ?_, List.forall_mem_cons.2 ⟨hself, ?_⟩⟩
    · rw [Stmt.slotsAll, List.forall_mem_append]
      exact ⟨hslots, hslots'⟩
    · rw [Stmt.blocksAll, List.forall_mem_append, hs.1]
      exact ⟨hblocks, (List.forall_mem_cons.1 hblocks').2⟩

/-- The same for the cases of a `switch`. -/
theorem SwitchCase.checkAll_settles (hwf : WellFounded ctx.registry.Unfolds)
    (hreg : ctx.registry.AllSettled) : ∀ (cs : List SwitchCase) {selector : Ty} {env : Env}
    {left : Env × List SwitchCase}, env.Settled ctx.registry →
      (∀ slot ∈ Stmt.slotsSwitch cs, slot.Empty) → (∀ t ∈ Stmt.writtenSwitch cs, t.Canonical) →
        (SwitchCase.checkAll ctx selector env cs).Ends left () →
          left.1.Settled ctx.registry ∧
            (∀ slot ∈ Stmt.slotsSwitch left.2, slot.Full ctx.registry) ∧
            ∀ p ∈ Stmt.blocksSwitch ctx env cs, Stmt.Prepared ctx p.1 p.2
  | [], selector, env, left, henv, hempty, hcan, h => by
    obtain ⟨rfl, -⟩ := Visit.ends_mk.1 h
    exact ⟨henv, nofun, nofun⟩
  | ⟨value, body⟩ :: cs, selector, env, left, henv, hempty, hcan, h => by
    simp only [Stmt.slotsSwitch, List.forall_mem_append] at hempty
    obtain ⟨⟨hvalueSlots, hbodySlots⟩, hcsSlots⟩ := hempty
    rw [Stmt.writtenSwitch, List.forall_mem_append] at hcan
    obtain ⟨value', env₁, body', env₂, rest, hvalue, hbody, hrest, rfl⟩ := SwitchCase.cons_ends h
    obtain ⟨henv₁, hslots, hblocks⟩ :=
      Stmt.checkAll_settles hwf hreg body henv hbodySlots hcan.1 hbody
    obtain ⟨henv₂, hslots', hblocks'⟩ :=
      SwitchCase.checkAll_settles hwf hreg cs henv₁ hcsSlots hcan.2 hrest
    refine ⟨henv₂, ?_, ?_⟩
    · simp only [Stmt.slotsSwitch, List.forall_mem_append]
      refine ⟨⟨?_, hslots⟩, hslots'⟩
      -- the default case has no value
      rcases hvalue with ⟨-, rfl⟩ | ⟨e, e', t, rfl, rfl, he, -⟩
      · exact fun s hs => absurd hs List.not_mem_nil
      · rw [Stmt.optionSlots, Stmt.empty_exprSlots] at hvalueSlots
        exact Stmt.full_exprSlots.2 (Expr.synth_filled hreg.hereditary henv e hvalueSlots he).2
    · rw [Stmt.blocksSwitch, hbody.1]
      exact List.forall_mem_append.2 ⟨hblocks, hblocks'⟩

/-- The same for the cases of a `match`, which end in environments that are dropped. -/
theorem MatchCase.checkAll_settles (hwf : WellFounded ctx.registry.Unfolds)
    (hreg : ctx.registry.AllSettled) : ∀ (cs : List MatchCase) {selector : Ty} {span : Option Span}
    {env : Env} {cs' : List MatchCase}, env.Settled ctx.registry →
      (∀ slot ∈ Stmt.slotsMatch cs, slot.Empty) → (∀ t ∈ Stmt.writtenMatch cs, t.Canonical) →
        (MatchCase.checkAll ctx selector span env cs).Ends cs' () →
          (∀ slot ∈ Stmt.slotsMatch cs', slot.Full ctx.registry) ∧
            ∀ p ∈ Stmt.blocksMatch ctx env cs, Stmt.Prepared ctx p.1 p.2
  | [], selector, span, env, cs', henv, hempty, hcan, h => by
    obtain ⟨rfl, -⟩ := Visit.ends_mk.1 h
    exact ⟨nofun, nofun⟩
  | ⟨t, x, body, caseSpan⟩ :: cs, selector, span, env, cs', henv, hempty, hcan, h => by
    rw [Stmt.slotsMatch, List.forall_mem_append] at hempty
    rw [Stmt.writtenMatch, List.forall_mem_cons, List.forall_mem_append] at hcan
    obtain ⟨env₁, body', rest, ht, -, hbody, hrest, rfl⟩ := MatchCase.cons_ends h
    -- the body has one more variable, of the type that the case is for
    have hput : (env.put x t).Settled ctx.registry :=
      henv.insert _ (Registry.settled_of_expectValueType ht hcan.1)
    obtain ⟨-, hslots, hblocks⟩ := Stmt.checkAll_settles hwf hreg body hput hempty.1 hcan.2.1 hbody
    obtain ⟨hslots', hblocks'⟩ :=
      MatchCase.checkAll_settles hwf hreg cs henv hempty.2 hcan.2.2 hrest
    constructor
    · rw [Stmt.slotsMatch, List.forall_mem_append]
      exact ⟨hslots, hslots'⟩
    · rw [Stmt.blocksMatch]
      exact List.forall_mem_append.2 ⟨hblocks, hblocks'⟩
end

end Statements

end WhileTyping
