import WhileTyping.Proofs.Success
import WhileTyping.Stmt.Typing

/-!
# Scope

What a check does to the variables that are in scope before it. It may add names and change the type
that a `var` variable holds, and it does nothing else to them, whether it succeeds or fails.

* **`Env.Keeps`**: every name stays bound, with the same declared type, and with the same type
  altogether unless it was declared by `var`. The relation is a preorder.
* **`Env.find?_merge`**: a variable after a branch, as `Env.mergeBinding` gives it. The order in
  which the variables are visited does not matter.
* **`Env.keeps_merge`**: merging keeps the environment, also if it stops at a variable that fails.
* **`Env.declared?_merge`**, **`Env.current?_merge`**: its declared type, and what it holds if it is
  a `var` variable.
* **`Stmt.check_keeps`**: a statement keeps the environment it is checked in.
-/

namespace WhileTyping

namespace Env

/-- A declared variable holds its written type. -/
theorem find?_put_self (env : Env) (x : String) (t : Ty) : (env.put x t).find? x = some ⟨t, t⟩ :=
  find?_insert_self ..

/-- The others are as they were. -/
theorem find?_put_of_ne (env : Env) {x y : String} (t : Ty) (h : y ≠ x) :
    (env.put x t).find? y = env.find? y :=
  find?_insert_of_ne env _ h

theorem current?_of_find? {env : Env} {x : String} {b : Binding} (h : env.find? x = some b) :
    env.current? x = some b.current := by
  rw [current?, h, Option.map_some]

/-- The second environment has the variables of the first, and at most the types that `var`
variables hold differ. -/
def Keeps (env env' : Env) : Prop :=
  ∀ x b, env.find? x = some b →
    ∃ b', env'.find? x = some b' ∧ b'.declared = b.declared ∧ (b.declared ≠ .inferred → b' = b)

namespace Keeps

variable {env env₁ env₂ : Env}

theorem refl (env : Env) : env.Keeps env := fun _ b hb => ⟨b, hb, rfl, fun _ => rfl⟩

/-- What is kept twice is kept. -/
theorem trans (h : env.Keeps env₁) (h₁ : env₁.Keeps env₂) : env.Keeps env₂ := by
  intro x b hb
  obtain ⟨b₁, hb₁, hdeclared, hfixed⟩ := h x b hb
  obtain ⟨b₂, hb₂, hdeclared₁, hfixed₁⟩ := h₁ x b₁ hb₁
  refine ⟨b₂, hb₂, hdeclared₁.trans hdeclared, fun hne => ?_⟩
  rw [hfixed₁ (hdeclared ▸ hne), hfixed hne]

/-- A new variable is in the way of none. -/
theorem insert_new {x : String} (b : Binding) (hnew : env.contains x = false) :
    env.Keeps (env.insert x b) := by
  intro y c hc
  have hne : y ≠ x := by
    -- `y` is bound and `x` is not
    rintro rfl
    simp [contains, hc] at hnew
  exact ⟨c, (find?_insert_of_ne env b hne).trans hc, rfl, fun _ => rfl⟩

/-- A variable that is bound anew with the type it was declared with, and with the same type
altogether unless it is a `var` variable. -/
theorem rebind {x : String} {b b' : Binding} (hb : env.find? x = some b)
    (hdeclared : b'.declared = b.declared) (hfixed : b.declared ≠ .inferred → b' = b) :
    env.Keeps (env.insert x b') := by
  intro y c hc
  by_cases hy : y = x
  · subst hy
    rw [hb] at hc
    cases hc
    exact ⟨b', find?_insert_self .., hdeclared, hfixed⟩
  · exact ⟨c, (find?_insert_of_ne env _ hy).trans hc, rfl, fun _ => rfl⟩

/-- A `var` variable that comes to hold another type. -/
theorem insert_current {x : String} {b : Binding} (t : Ty) (hb : env.find? x = some b)
    (hinferred : b.declared = .inferred) : env.Keeps (env.insert x { b with current := t }) :=
  .rebind hb rfl fun hne => absurd hinferred hne

end Keeps

/-- If the visit passes, the environment that it ends in is the one that it leaves. -/
theorem Keeps.of_ends {τ α : Type} {env : Env} {v : Visit (Env × τ) α} {left : Env × τ} {a : α}
    (hkeeps : env.Keeps v.left.1) (h : v.Ends left a) : env.Keeps left.1 :=
  h.1 ▸ hkeeps

/-! A visit that is composed of others keeps an environment if it does so in each way of ending. -/

/-- Two visits in sequence keep the environment, wherever the sequence stops. -/
theorem keeps_andThen {σ τ α β : Type} {env : Env} {v : Visit σ α} {stop : σ → Env × τ}
    {next : σ → α → Visit (Env × τ) β} (hstop : env.Keeps (stop v.left).1)
    (hnext : ∀ a, v.run.result = .ok a → env.Keeps (next v.left a).left.1) :
    env.Keeps (v.andThen stop next).left.1 :=
  Visit.left_andThen_of (P := fun l : Env × τ => env.Keeps l.1) hstop hnext

/-- The same for a check that a visit starts with. -/
theorem keeps_after {τ α β : Type} {env : Env} {c : Check α} {untouched : Env × τ}
    {next : α → Visit (Env × τ) β} (hstop : env.Keeps untouched.1)
    (hnext : ∀ a, c.result = .ok a → env.Keeps (next a).left.1) :
    env.Keeps (Visit.after c untouched next).left.1 :=
  Visit.left_after_of (P := fun l : Env × τ => env.Keeps l.1) hstop hnext

theorem isInferred_iff {t : Ty} : t.isInferred = true ↔ t = .inferred := by
  cases t <;> simp [Ty.isInferred]

/-- A variable is refined only if it has no written type. -/
theorem keeps_refine (env : Env) (x : String) (t : Ty) : env.Keeps (env.refine x t).left := by
  unfold refine
  split
  · rename_i b hb
    split
    · rename_i hinferred
      exact .insert_current t hb (isInferred_iff.1 hinferred)
    · exact .refl env
  · exact .refl env

/-! ## After a branch -/

section Merge

variable {reg : Registry} {left right : Env}

/-- A variable after a branch is as before it, or it is a `var` variable that both arms have, and
holds the join of what they leave it with. -/
theorem mergeBinding_cases {x : String} {b b' : Binding}
    (h : (mergeBinding reg left right x b).result = .ok b') :
    (b' = b ∧ (b.declared ≠ .inferred ∨ left.current? x = none ∨ right.current? x = none)) ∨
      (b.declared = .inferred ∧ b'.declared = .inferred ∧ ∃ l r, left.current? x = some l ∧
        right.current? x = some r ∧ joinTypes reg l r = .ok b'.current) := by
  unfold mergeBinding at h
  split at h
  · -- a `var` variable that both arms hold
    rename_i l r hinferred hl hr
    have hinferred := isInferred_iff.1 hinferred
    simp only [Check.result_bind_eq_ok, Check.result_lift, Check.result_pure] at h
    obtain ⟨j, hj, _, -, h⟩ := h
    cases h
    exact .inr ⟨hinferred, hinferred, l, r, hl, hr, hj⟩
  · rename_i hcases
    cases h
    refine .inl ⟨rfl, ?_⟩
    by_cases hinferred : b.declared = .inferred
    · cases hl : left.current? x with
      | none => exact .inr (.inl rfl)
      | some l =>
        cases hr : right.current? x with
        | none => exact .inr (.inr rfl)
        | some r => exact absurd hr (hcases l r (isInferred_iff.2 hinferred) hl)
    · exact .inl hinferred

/-- A variable that is merged twice is left as the first time left it. -/
theorem mergeBinding_again {x : String} {b b' : Binding}
    (h : (mergeBinding reg left right x b).result = .ok b') :
    (mergeBinding reg left right x b').result = .ok b' := by
  unfold mergeBinding at h ⊢
  split at h
  · -- the result depends on what the arms hold, not on what the variable holds itself
    rename_i l r hinferred hl hr
    simp only [Check.result_bind_eq_ok, Check.result_lift, Check.result_pure] at h
    obtain ⟨j, hj, _, -, h⟩ := h
    cases h
    simp only [hinferred, hl, hr, Check.result_bind_eq_ok, Check.result_lift]
    exact ⟨j, hj, (), rfl, rfl⟩
  · rename_i hcases
    cases h
    split
    · rename_i l r hinferred hl hr
      exact absurd hr (hcases l r hinferred hl)
    · rfl

/-- A step of the merge binds one name anew, and only if the name is in scope. -/
theorem mergeName_ends {env env' : Env} {x : String}
    (h : (mergeName reg left right env x).Ends env' ()) :
    (env.find? x = none ∧ env' = env) ∨
      ∃ b b', env.find? x = some b ∧ (mergeBinding reg left right x b).result = .ok b' ∧
        env' = env.insert x b' := by
  unfold mergeName at h
  split at h
  · rename_i hnone
    exact .inl ⟨hnone, h.1.symm⟩
  · rename_i b hb
    obtain ⟨b', hb', h⟩ := Visit.ends_after.1 h
    exact .inr ⟨b, b', hb, hb', h.1.symm⟩

/-- A variable after some names have been merged, in any order: it is merged if its name is among
them, and as before otherwise. -/
theorem find?_mergeNames {names : List String} {env env' : Env}
    (h : (mergeNames reg left right env names).Ends env' ()) (x : String) :
    (env.find? x = none ∧ env'.find? x = none) ∨
      ∃ b b', env.find? x = some b ∧ env'.find? x = some b' ∧
        ((mergeBinding reg left right x b).result = .ok b' ∨ (x ∉ names ∧ b' = b)) := by
  induction names generalizing env with
  | nil =>
    obtain ⟨rfl, -⟩ := Visit.ends_mk.1 h
    cases hx : env.find? x with
    | none => exact .inl ⟨rfl, rfl⟩
    | some b => exact .inr ⟨b, b, rfl, rfl, .inr ⟨List.not_mem_nil, rfl⟩⟩
  | cons name names ih =>
    obtain ⟨env₁, _, hfirst, hrest⟩ := Visit.ends_andThen.1 h
    have hrest := ih hrest
    by_cases hname : x = name
    · subst hname
      rcases mergeName_ends hfirst with ⟨hnone, rfl⟩ | ⟨b, b', hb, hmerge, rfl⟩
      · rcases hrest with hrest | ⟨b, -, hb, -⟩
        · exact .inl hrest
        · cases hnone.symm.trans hb
      · -- the name may be visited again, and then it stays as it is now
        rw [find?_insert_self] at hrest
        rcases hrest with ⟨hnone, -⟩ | ⟨c, c', hc, hc', hagain⟩
        · cases hnone
        · cases hc
          refine .inr ⟨b, c', hb, hc', .inl ?_⟩
          rcases hagain with hagain | ⟨-, rfl⟩
          · cases hagain.symm.trans (mergeBinding_again hmerge)
            exact hmerge
          · exact hmerge
    · -- another name leaves this one alone
      have hfind : env₁.find? x = env.find? x := by
        rcases mergeName_ends hfirst with ⟨-, rfl⟩ | ⟨b, b', -, -, rfl⟩
        · rfl
        · exact find?_insert_of_ne env b' hname
      rw [hfind] at hrest
      rcases hrest with hrest | ⟨b, b', hb, hb', hmerge | ⟨hnot, rfl⟩⟩
      · exact .inl hrest
      · exact .inr ⟨b, b', hb, hb', .inl hmerge⟩
      · exact .inr ⟨b', b', hb, hb', .inr ⟨List.not_mem_cons_of_ne_of_not_mem hname hnot, rfl⟩⟩

/-- A variable in scope is among the names. -/
theorem mem_names_of_find? {env : Env} {x : String} {b : Binding} (h : env.find? x = some b) :
    x ∈ env.names := by
  obtain ⟨before, after, hbindings, -⟩ := List.lookup_eq_some_iff.1 h
  rw [names, hbindings]
  simp

/-- A variable after a branch, whatever the order in which the variables are visited. -/
theorem find?_merge {env merged : Env} (h : (env.merge reg left right).Ends merged ())
    (x : String) :
    (env.find? x = none ∧ merged.find? x = none) ∨
      ∃ b b', env.find? x = some b ∧ merged.find? x = some b' ∧
        (mergeBinding reg left right x b).result = .ok b' := by
  rcases find?_mergeNames h x with hnone | ⟨b, b', hb, hb', hmerge | ⟨hnot, -⟩⟩
  · exact .inl hnone
  · exact .inr ⟨b, b', hb, hb', hmerge⟩
  · have hvisited : x ∈ env.order.visit env.names :=
      (env.order.perm env.names).mem_iff.2 (mem_names_of_find? hb)
    exact absurd hvisited hnot

/-- A step of the merge keeps the environment, also if it fails. -/
theorem keeps_mergeName (reg : Registry) (left right env : Env) (x : String) :
    env.Keeps (mergeName reg left right env x).left := by
  unfold mergeName
  split
  · exact .refl env
  · rename_i b hb
    refine Visit.left_after_of (.refl env) fun b' hb' => ?_
    rcases mergeBinding_cases hb' with ⟨rfl, -⟩ | ⟨hinferred, hinferred', -⟩
    · exact .rebind hb rfl fun _ => rfl
    · exact .rebind hb (hinferred'.trans hinferred.symm) fun hne => absurd hinferred hne

/-- So does the whole merge, with whatever it has merged before a failure. -/
theorem keeps_mergeNames (reg : Registry) (left right env : Env) (names : List String) :
    env.Keeps (mergeNames reg left right env names).left := by
  induction names generalizing env with
  | nil => exact .refl env
  | cons name names ih =>
    have hfirst := keeps_mergeName reg left right env name
    exact Visit.left_andThen_of hfirst fun _ _ => hfirst.trans (ih _)

/-- Merging keeps the environment, also if it fails on the way. -/
theorem keeps_merge (reg : Registry) (env left right : Env) :
    env.Keeps (env.merge reg left right).left :=
  keeps_mergeNames reg left right env _

/-- Merging leaves declared types as they are. -/
theorem declared?_merge {env merged : Env} (h : (env.merge reg left right).Ends merged ())
    (x : String) : merged.declared? x = env.declared? x := by
  cases hx : env.find? x with
  | none =>
    rcases find?_merge h x with ⟨-, hnone⟩ | ⟨b, -, hb, -⟩
    · rw [declared?, declared?, hx, hnone]
    · cases hx.symm.trans hb
  | some b =>
    obtain ⟨b', hb', hdeclared, -⟩ := h.1 ▸ keeps_merge reg env left right x b hx
    rw [declared?, declared?, hx, hb', Option.map_some, Option.map_some, hdeclared]

/-- A `var` variable of both arms comes to hold the join of its types there. -/
theorem current?_merge {env merged : Env} (h : (env.merge reg left right).Ends merged ())
    {x : String} {l r : Ty} (hdeclared : env.declared? x = some .inferred)
    (hl : left.current? x = some l) (hr : right.current? x = some r) :
    ∃ j, merged.current? x = some j ∧ joinTypes reg l r = .ok j := by
  obtain ⟨b, hb, hinferred⟩ := Option.map_eq_some_iff.1 hdeclared
  rcases find?_merge h x with ⟨hnone, -⟩ | ⟨c, b', hc, hb', hmerge⟩
  · cases hnone.symm.trans hb
  · cases hb.symm.trans hc
    -- a binding is kept as it was only if it has a written type or is missing on a side
    rcases mergeBinding_cases hmerge with ⟨-, hne | hnone | hnone⟩ | ⟨-, -, l', r', hl', hr', hj⟩
    · exact absurd hinferred hne
    · cases hnone.symm.trans hl
    · cases hnone.symm.trans hr
    · cases hl'.symm.trans hl
      cases hr'.symm.trans hr
      exact ⟨b'.current, current?_of_find? hb', hj⟩

end Merge

end Env

/-! ## Statements -/

/-- The check of a declaration changes at most the initial value. -/
theorem VarDecl.check_left (ctx : Context) (env : Env) (span : Option Span) (d : VarDecl) :
    (d.check ctx env span).left.name = d.name ∧ (d.check ctx env span).left.ty = d.ty := by
  unfold VarDecl.check
  split
  · exact ⟨rfl, rfl⟩
  · refine Visit.left_after_of (P := fun d' : VarDecl => d'.name = d.name ∧ d'.ty = d.ty)
      ⟨rfl, rfl⟩ fun _ _ => ?_
    split
    · exact ⟨rfl, rfl⟩
    · exact Visit.left_andThen_of (P := fun d' : VarDecl => d'.name = d.name ∧ d'.ty = d.ty)
        ⟨rfl, rfl⟩ fun _ _ => ⟨rfl, rfl⟩

/-- A declaration that passes its check declares a new name. -/
theorem VarDecl.not_contains_of_check {ctx : Context} {env : Env} {span : Option Span}
    {d : VarDecl} (h : (d.check ctx env span).run.result = .ok ()) :
    env.contains d.name = false := by
  unfold VarDecl.check at h
  split at h
  · cases h
  · rename_i hnew
    simpa using hnew

/-- To store a value changes at most what a `var` variable holds. -/
theorem Expr.store_keeps (ctx : Context) (env : Env) (target : Expr) (targetTy valueTy : Ty)
    (span : Option Span) : env.Keeps (target.store ctx env targetTy valueTy span).left := by
  unfold Expr.store
  split
  · refine Visit.left_andThen_of (env.keeps_refine _ _) fun refined _ => ?_
    cases refined <;> exact env.keeps_refine _ _
  · exact .refl env

mutual
/-- The check of a statement keeps the environment, whether it passes or not. -/
theorem Stmt.check_keeps (ctx : Context) (env : Env) : ∀ s : Stmt,
    env.Keeps (s.check ctx env).left.1
  | ⟨form, span⟩ => StmtForm.check_keeps ctx env span form

/-- By cases on the statement. -/
theorem StmtForm.check_keeps (ctx : Context) (env : Env) (span : Option Span) :
    ∀ form : StmtForm, env.Keeps (form.check ctx env span).left.1
  | .assert _ | .breakLoop | .continueLoop | .ret none => .refl env
  | .assign target value => by
    unfold StmtForm.check
    split
    · refine Env.keeps_andThen (.refl env) fun _ _ => ?_
      refine Env.keeps_andThen (.refl env) fun _ _ => ?_
      exact Expr.store_keeps ctx env _ _ _ _
    · exact .refl env
  -- wherever it stops, the environment is the one it started from
  | .forLoop d condition step body => by
    refine Env.keeps_andThen (.refl env) fun _ _ => ?_
    refine Env.keeps_andThen (.refl env) fun _ _ => ?_
    exact Env.keeps_andThen (.refl env) fun _ _ => .refl env
  | .ifElse condition onTrue onFalse => by
    refine Env.keeps_andThen (.refl env) fun _ _ => ?_
    refine Env.keeps_andThen (.refl env) fun _ _ => ?_
    refine Env.keeps_andThen (.refl env) fun _ _ => ?_
    -- if merging fails, what has been merged so far is kept
    exact env.keeps_merge ctx.registry _ _
  | .call method args =>
    Env.keeps_andThen (.refl env) fun _ _ => .refl env
  | .print e | .ret (some e) =>
    Env.keeps_andThen (.refl env) fun _ _ => .refl env
  | .switchOn selector cases =>
    Env.keeps_andThen (.refl env) fun t _ =>
      SwitchCase.checkAll_keeps ctx t env cases
  | .matchType selector cases =>
    Env.keeps_andThen (.refl env) fun _ _ => .refl env
  | .declare d => by
    refine Env.keeps_andThen (.refl env) fun _ hd => ?_
    -- the name that is bound is the one that was looked up
    refine .insert_new _ ?_
    rw [(d.check_left ctx env span).1]
    exact VarDecl.not_contains_of_check hd
  | .infer x cell init => by
    unfold StmtForm.check
    split
    · exact .refl env
    · rename_i hnew
      refine Env.keeps_andThen (.refl env) fun t _ => ?_
      split
      · exact .insert_new _ (by simpa using hnew)
      · exact .refl env
  | .whileLoop condition body =>
    Env.keeps_andThen (.refl env) fun _ _ =>
      Stmt.checkAll_keeps ctx env body

theorem Stmt.checkAll_keeps (ctx : Context) (env : Env) : ∀ ss : List Stmt,
    env.Keeps (Stmt.checkAll ctx env ss).left.1
  | [] => .refl env
  | s :: ss =>
    have hs := Stmt.check_keeps ctx env s
    Env.keeps_andThen hs fun _ _ =>
      hs.trans (Stmt.checkAll_keeps ctx _ ss)

/-- The same for the cases of a `switch`, which hand on their environment. -/
theorem SwitchCase.checkAll_keeps (ctx : Context) (selector : Ty) (env : Env) :
    ∀ cs : List SwitchCase, env.Keeps (SwitchCase.checkAll ctx selector env cs).left.1
  | [] => .refl env
  | ⟨none, body⟩ :: cs =>
    have hbody := Stmt.checkAll_keeps ctx env body
    Env.keeps_andThen hbody fun _ _ =>
      hbody.trans (SwitchCase.checkAll_keeps ctx selector _ cs)
  | ⟨some e, body⟩ :: cs => by
    have hbody := Stmt.checkAll_keeps ctx env body
    refine Env.keeps_andThen (.refl env) fun _ _ => ?_
    refine Env.keeps_after (.refl env) fun _ _ => ?_
    exact Env.keeps_andThen hbody fun _ _ =>
      hbody.trans (SwitchCase.checkAll_keeps ctx selector _ cs)
end

end WhileTyping
