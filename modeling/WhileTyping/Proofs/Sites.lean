import WhileTyping.Proofs.SettledBlocks

/-!
# The statements of a block

A block holds statements within statements, and the check comes to each of them with an environment
of its own. This module lists them, so that a fact about one statement can be stated of all.

* **`Stmt.nodes`**: a statement and all statements within it, in pre-order.
* **`Stmt.sites`**: the same, each with the environment that it is checked in.
* **`Stmt.Ready`**: a fresh statement that passes its check in a settled environment.
* **`Stmt.checkAll_sites`**: every statement of a block that passes its check is ready, and what the
  check of the block leaves in its place is what the check of the statement by itself leaves.
-/

namespace WhileTyping

namespace Stmt

mutual
/-- A statement and the statements within it. -/
def nodes : Stmt → List Stmt
  | ⟨form, span⟩ => ⟨form, span⟩ :: nodesForm form

def nodesForm : StmtForm → List Stmt
  | .forLoop _ _ step body => nodes step ++ nodesAll body
  | .ifElse _ onTrue onFalse => nodesAll onTrue ++ nodesAll onFalse
  | .switchOn _ cases => nodesSwitch cases
  | .matchType _ cases => nodesMatch cases
  | .whileLoop _ body => nodesAll body
  | .assert _ | .assign _ _ | .breakLoop | .continueLoop | .call _ _ | .print _ | .ret _
  | .declare _ | .infer _ _ _ => []

def nodesAll : List Stmt → List Stmt
  | [] => []
  | s :: ss => nodes s ++ nodesAll ss

def nodesSwitch : List SwitchCase → List Stmt
  | [] => []
  | ⟨_, body⟩ :: cs => nodesAll body ++ nodesSwitch cs

def nodesMatch : List MatchCase → List Stmt
  | [] => []
  | ⟨_, _, body, _⟩ :: cs => nodesAll body ++ nodesMatch cs
end

mutual
/-- A statement that is checked in an environment and the statements within it, each with the
environment that it is checked in itself. -/
def sites (ctx : Context) (env : Env) : Stmt → List (Env × Stmt)
  | ⟨form, span⟩ => (env, ⟨form, span⟩) :: sitesForm ctx env form

def sitesForm (ctx : Context) (env : Env) : StmtForm → List (Env × Stmt)
  | .forLoop d _ step body =>
    sites ctx (env.put d.name d.ty) step ++
      sitesAll ctx (step.check ctx (env.put d.name d.ty)).left.1 body
  | .ifElse _ onTrue onFalse => sitesAll ctx env onTrue ++ sitesAll ctx env onFalse
  | .switchOn _ cases => sitesSwitch ctx env cases
  | .matchType _ cases => sitesMatch ctx env cases
  | .whileLoop _ body => sitesAll ctx env body
  | .assert _ | .assign _ _ | .breakLoop | .continueLoop | .call _ _ | .print _ | .ret _
  | .declare _ | .infer _ _ _ => []

def sitesAll (ctx : Context) (env : Env) : List Stmt → List (Env × Stmt)
  | [] => []
  | s :: ss => sites ctx env s ++ sitesAll ctx (s.check ctx env).left.1 ss

def sitesSwitch (ctx : Context) (env : Env) : List SwitchCase → List (Env × Stmt)
  | [] => []
  | ⟨_, body⟩ :: cs =>
    sitesAll ctx env body ++ sitesSwitch ctx (Stmt.checkAll ctx env body).left.1 cs

def sitesMatch (ctx : Context) (env : Env) : List MatchCase → List (Env × Stmt)
  | [] => []
  | ⟨t, x, body, _⟩ :: cs => sitesAll ctx (env.put x t) body ++ sitesMatch ctx env cs
end

/-- A fresh statement that passes its check in a settled environment. -/
structure Ready (ctx : Context) (env : Env) (s : Stmt) : Prop where
  settled : env.Settled ctx.registry
  empty : ∀ slot ∈ s.slots, slot.Empty
  canonical : ∀ t ∈ s.writtenTypes, t.Canonical
  passes : (s.check ctx env).run.result = .ok ()

/-- What the check of a statement at a site leaves in its place. -/
def checkedAt (ctx : Context) (p : Env × Stmt) : Stmt := (p.2.check ctx p.1).left.2

/-- The sites are ready, and their checks leave the given statements. -/
def Visited (ctx : Context) (sites : List (Env × Stmt)) (left : List Stmt) : Prop :=
  left = sites.map (checkedAt ctx) ∧ ∀ p ∈ sites, Ready ctx p.1 p.2

section Visited

variable {ctx : Context}

theorem visited_nil : Visited ctx [] [] := ⟨rfl, nofun⟩

/-- What is come to in two parts, one after the other. -/
theorem Visited.append {sites sites' : List (Env × Stmt)} {left left' : List Stmt}
    (h : Visited ctx sites left) (h' : Visited ctx sites' left') :
    Visited ctx (sites ++ sites') (left ++ left') := by
  obtain ⟨rfl, hready⟩ := h
  obtain ⟨rfl, hready'⟩ := h'
  exact ⟨(List.map_append ..).symm, List.forall_mem_append.2 ⟨hready, hready'⟩⟩

/-- A statement is come to before those in it. -/
theorem Visited.cons {env env' : Env} {s s' : Stmt} {sites : List (Env × Stmt)} {left : List Stmt}
    (hs : Ready ctx env s) (hends : (s.check ctx env).Ends (env', s') ())
    (h : Visited ctx sites left) : Visited ctx ((env, s) :: sites) (s' :: left) := by
  obtain ⟨rfl, hready⟩ := h
  refine ⟨?_, List.forall_mem_cons.2 ⟨hs, hready⟩⟩
  rw [List.map_cons, checkedAt, hends.1]

end Visited

end Stmt

/-! ## What a check comes to -/

section Statements

variable {ctx : Context}

mutual
/-- The statements that a check comes to are those of the tree it leaves. It comes to each in an
environment from which it passes. -/
theorem Stmt.check_sites (hwf : WellFounded ctx.registry.Unfolds) (hreg : ctx.registry.AllSettled) :
    ∀ (s : Stmt) {env env' : Env} {s' : Stmt}, env.Settled ctx.registry →
    (∀ slot ∈ s.slots, slot.Empty) → (∀ t ∈ s.writtenTypes, t.Canonical) →
      (s.check ctx env).Ends (env', s') () → Stmt.Visited ctx (s.sites ctx env) s'.nodes
  | ⟨form, span⟩, env, env', s', henv, hempty, hcan, h => by
    have hready : Stmt.Ready ctx env ⟨form, span⟩ := ⟨henv, hempty, hcan, h.2⟩
    obtain ⟨form', hform, rfl⟩ := Stmt.check_ends h
    rw [Stmt.sites, Stmt.nodes]
    exact .cons hready h (StmtForm.check_sites hwf hreg form henv hempty hcan hform)

/-- By cases on the statement. -/
theorem StmtForm.check_sites (hwf : WellFounded ctx.registry.Unfolds)
    (hreg : ctx.registry.AllSettled) : ∀ (form : StmtForm) {span : Option Span} {env : Env}
    {left : Env × StmtForm}, env.Settled ctx.registry →
      (∀ slot ∈ Stmt.slotsForm form, slot.Empty) → (∀ t ∈ Stmt.writtenForm form, t.Canonical) →
        (form.check ctx env span).Ends left () →
          Stmt.Visited ctx (Stmt.sitesForm ctx env form) (Stmt.nodesForm left.2)
  | .forLoop d condition step body, span, env, left, henv, hempty, hcan, h => by
    simp only [Stmt.slotsForm, List.forall_mem_append, Stmt.empty_exprSlots] at hempty
    obtain ⟨⟨⟨hinit, hcondition⟩, hstep⟩, hbody⟩ := hempty
    rw [Stmt.writtenForm, List.forall_mem_cons, List.forall_mem_append] at hcan
    obtain ⟨d', condition', env₁, step', inner, hd, -, -, hs, hb, rfl⟩ := StmtForm.forLoop_ends h
    obtain ⟨-, -, hsettled, -⟩ := VarDecl.check_settled hreg henv hinit hcan.1 hd
    have hput : (env.put d.name d.ty).Settled ctx.registry := henv.insert _ hsettled
    obtain ⟨henv₁, -⟩ := Stmt.check_settles hwf hreg step hput hstep hcan.2.1 hs
    -- the step comes before the body in the tree as in the check
    rw [Stmt.sitesForm, Stmt.nodesForm, hs.1]
    exact (Stmt.check_sites hwf hreg step hput hstep hcan.2.1 hs).append
      (Stmt.checkAll_sites hwf hreg body henv₁ hbody hcan.2.2 hb)
  | .ifElse condition onTrue onFalse, span, env, left, henv, hempty, hcan, h => by
    simp only [Stmt.slotsForm, List.forall_mem_append, Stmt.empty_exprSlots] at hempty
    obtain ⟨⟨hcondition, htrue⟩, hfalse⟩ := hempty
    rw [Stmt.writtenForm, List.forall_mem_append] at hcan
    obtain ⟨condition', l, r, merged, -, hl, hr, -, rfl⟩ := StmtForm.ifElse_ends h
    exact (Stmt.checkAll_sites hwf hreg onTrue henv htrue hcan.1 hl).append
      (Stmt.checkAll_sites hwf hreg onFalse henv hfalse hcan.2 hr)
  | .switchOn selector cases, span, env, left, henv, hempty, hcan, h => by
    rw [Stmt.slotsForm, List.forall_mem_append, Stmt.empty_exprSlots] at hempty
    obtain ⟨selector', t, env₁, cases', -, hcs, rfl⟩ := StmtForm.switchOn_ends h
    exact SwitchCase.checkAll_sites hwf hreg cases henv hempty.2 hcan hcs
  | .matchType selector cases, span, env, left, henv, hempty, hcan, h => by
    rw [Stmt.slotsForm, List.forall_mem_append, Stmt.empty_exprSlots] at hempty
    obtain ⟨selector', t, cases', -, hcs, rfl⟩ := StmtForm.matchType_ends h
    exact MatchCase.checkAll_sites hwf hreg cases henv hempty.2 hcan hcs
  | .whileLoop condition body, span, env, left, henv, hempty, hcan, h => by
    rw [Stmt.slotsForm, List.forall_mem_append, Stmt.empty_exprSlots] at hempty
    obtain ⟨condition', env₁, body', -, hbody, rfl⟩ := StmtForm.whileLoop_ends h
    exact Stmt.checkAll_sites hwf hreg body henv hempty.2 hcan hbody
  -- the others hold no statements
  | .assert e, span, env, left, henv, hempty, hcan, h => by
    obtain ⟨e', -, rfl⟩ := StmtForm.assert_ends h
    exact Stmt.visited_nil
  | .assign target value, span, env, left, henv, hempty, hcan, h => by
    obtain ⟨target', lt, value', rt, env', -, -, -, rfl⟩ := StmtForm.assign_ends h
    exact Stmt.visited_nil
  | .breakLoop, span, env, left, henv, hempty, hcan, h
  | .continueLoop, span, env, left, henv, hempty, hcan, h => by
    obtain ⟨rfl, -⟩ := Visit.ends_mk.1 h
    exact Stmt.visited_nil
  | .call method args, span, env, left, henv, hempty, hcan, h => by
    obtain ⟨sig, args', -, -, -, rfl⟩ := StmtForm.call_ends h
    exact Stmt.visited_nil
  | .print e, span, env, left, henv, hempty, hcan, h => by
    obtain ⟨e', t, -, rfl⟩ := StmtForm.print_ends h
    exact Stmt.visited_nil
  | .ret none, span, env, left, henv, hempty, hcan, h => by
    obtain ⟨-, rfl⟩ := StmtForm.retVoid_ends h
    exact Stmt.visited_nil
  | .ret (some e), span, env, left, henv, hempty, hcan, h => by
    obtain ⟨e', t, -, -, rfl⟩ := StmtForm.ret_ends h
    exact Stmt.visited_nil
  | .declare d, span, env, left, henv, hempty, hcan, h => by
    obtain ⟨d', -, rfl⟩ := StmtForm.declare_ends h
    exact Stmt.visited_nil
  | .infer x cell init, span, env, left, henv, hempty, hcan, h => by
    obtain ⟨init', t, -, -, rfl⟩ := StmtForm.infer_ends h
    exact Stmt.visited_nil

/-- The same for a block, each statement of which hands its environment to the next. -/
theorem Stmt.checkAll_sites (hwf : WellFounded ctx.registry.Unfolds)
    (hreg : ctx.registry.AllSettled) : ∀ (ss : List Stmt) {env : Env} {left : Env × List Stmt},
    env.Settled ctx.registry → (∀ slot ∈ Stmt.slotsAll ss, slot.Empty) →
      (∀ t ∈ Stmt.writtenAll ss, t.Canonical) → (Stmt.checkAll ctx env ss).Ends left () →
        Stmt.Visited ctx (Stmt.sitesAll ctx env ss) (Stmt.nodesAll left.2)
  | [], env, left, henv, hempty, hcan, h => by
    obtain ⟨rfl, -⟩ := Visit.ends_mk.1 h
    exact Stmt.visited_nil
  | s :: ss, env, left, henv, hempty, hcan, h => by
    rw [Stmt.slotsAll, List.forall_mem_append] at hempty
    rw [Stmt.writtenAll, List.forall_mem_append] at hcan
    obtain ⟨env₁, s', env₂, rest, hs, hrest, rfl⟩ := Stmt.cons_ends h
    obtain ⟨henv₁, -⟩ := Stmt.check_settles hwf hreg s henv hempty.1 hcan.1 hs
    rw [Stmt.sitesAll, Stmt.nodesAll, hs.1]
    exact (Stmt.check_sites hwf hreg s henv hempty.1 hcan.1 hs).append
      (Stmt.checkAll_sites hwf hreg ss henv₁ hempty.2 hcan.2 hrest)

/-- The same for the cases of a `switch`. -/
theorem SwitchCase.checkAll_sites (hwf : WellFounded ctx.registry.Unfolds)
    (hreg : ctx.registry.AllSettled) : ∀ (cs : List SwitchCase) {selector : Ty} {env : Env}
    {left : Env × List SwitchCase}, env.Settled ctx.registry →
      (∀ slot ∈ Stmt.slotsSwitch cs, slot.Empty) → (∀ t ∈ Stmt.writtenSwitch cs, t.Canonical) →
        (SwitchCase.checkAll ctx selector env cs).Ends left () →
          Stmt.Visited ctx (Stmt.sitesSwitch ctx env cs) (Stmt.nodesSwitch left.2)
  | [], selector, env, left, henv, hempty, hcan, h => by
    obtain ⟨rfl, -⟩ := Visit.ends_mk.1 h
    exact Stmt.visited_nil
  | ⟨value, body⟩ :: cs, selector, env, left, henv, hempty, hcan, h => by
    simp only [Stmt.slotsSwitch, List.forall_mem_append] at hempty
    obtain ⟨⟨-, hbodySlots⟩, hcsSlots⟩ := hempty
    rw [Stmt.writtenSwitch, List.forall_mem_append] at hcan
    obtain ⟨value', env₁, body', env₂, rest, -, hbody, hrest, rfl⟩ := SwitchCase.cons_ends h
    obtain ⟨henv₁, -⟩ := Stmt.checkAll_settles hwf hreg body henv hbodySlots hcan.1 hbody
    rw [Stmt.sitesSwitch, Stmt.nodesSwitch, hbody.1]
    exact (Stmt.checkAll_sites hwf hreg body henv hbodySlots hcan.1 hbody).append
      (SwitchCase.checkAll_sites hwf hreg cs henv₁ hcsSlots hcan.2 hrest)

/-- The same for the cases of a `match`. -/
theorem MatchCase.checkAll_sites (hwf : WellFounded ctx.registry.Unfolds)
    (hreg : ctx.registry.AllSettled) : ∀ (cs : List MatchCase) {selector : Ty} {span : Option Span}
    {env : Env} {cs' : List MatchCase}, env.Settled ctx.registry →
      (∀ slot ∈ Stmt.slotsMatch cs, slot.Empty) → (∀ t ∈ Stmt.writtenMatch cs, t.Canonical) →
        (MatchCase.checkAll ctx selector span env cs).Ends cs' () →
          Stmt.Visited ctx (Stmt.sitesMatch ctx env cs) (Stmt.nodesMatch cs')
  | [], selector, span, env, cs', henv, hempty, hcan, h => by
    obtain ⟨rfl, -⟩ := Visit.ends_mk.1 h
    exact Stmt.visited_nil
  | ⟨t, x, body, caseSpan⟩ :: cs, selector, span, env, cs', henv, hempty, hcan, h => by
    rw [Stmt.slotsMatch, List.forall_mem_append] at hempty
    rw [Stmt.writtenMatch, List.forall_mem_cons, List.forall_mem_append] at hcan
    obtain ⟨env₁, body', rest, ht, -, hbody, hrest, rfl⟩ := MatchCase.cons_ends h
    -- the body starts with the variable of the case, and the next case without it
    have hput : (env.put x t).Settled ctx.registry :=
      henv.insert _ (Registry.settled_of_expectValueType ht hcan.1)
    exact (Stmt.checkAll_sites hwf hreg body hput hempty.1 hcan.2.1 hbody).append
      (MatchCase.checkAll_sites hwf hreg cs henv hempty.2 hcan.2.2 hrest)
end

end Statements

end WhileTyping
