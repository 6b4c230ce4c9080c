import WhileTyping.Proofs.BareTrees
import WhileTyping.Proofs.BranchFlow
import WhileTyping.Proofs.Runs
import WhileTyping.Proofs.Sites

/-!
# Types of variables across loops and matches

The checker goes through each body once: the body of a `for` loop and of a `match` case with an
environment that it drops afterwards, the body of a `while` loop and of a `switch` case with the one
it goes on with. So the environment after a loop does not account for every run. It does for the
runs that are tracked.

* **`Env.Follows`**: the types that `var` variables hold are above what they have last received on a
  run, if the run is tracked. One run after another keeps this (`Env.Follows.trans`), and so does
  the repetition of a run (`Env.Follows.repeated`).
* **`Env.follows_pass`**: so does passing over a block, since the block has a run with the same
  effect on each variable for which this is tracked.
* **`Stmt.check_follows`**: the environment that a check ends in follows every run, by induction on
  the statement.
* **`Stmt.RunsCovered`**: the same in terms of the subtype check, for the statements of accepted
  files.
-/

namespace WhileTyping

/-! ## Environments that follow a run -/

namespace Env

/-- The `var` variables that both environments have hold types in the second that are above what
they have last received on a run from the first, if the run is tracked. -/
def Follows (reg : Registry) (env : Env) (run : Run) (env' : Env) : Prop :=
  ∀ x t, env.contains x = true → env'.find? x = some ⟨.inferred, t⟩ → Run.tracked x run = true →
    ∃ u, env.received (Run.writes run) x = some u ∧ reg.Settled u ∧ reg.Below t u

variable {reg : Registry} {env env₁ env₂ : Env} {run run' : Run}

/-- An environment that accounts for every value stored follows the run. -/
theorem Accounts.follows (h : Accounts reg env (Run.writes run) env₁) : Follows reg env run env₁ :=
  fun x t _ hx _ => h x t hx

/-- Where nothing is done, nothing has to be followed. -/
theorem follows_refl (henv : env.Settled reg) : Follows reg env [] env := by
  have haccounts : Accounts reg env (Run.writes []) env := accounts_refl henv
  exact haccounts.follows

/-- A scope that is dropped leaves the environment as it was. -/
theorem follows_dropped (henv : env.Settled reg) (writes : List (String × Expr)) :
    Follows reg env (Run.dropped writes) env := by
  intro x t _ hx htracked
  have hlookup := Run.lookup_of_last?_none (Run.last?_dropped htracked)
  obtain ⟨u, hu, hsettled, hbelow⟩ := accounts_refl henv x t hx
  refine ⟨u, ?_, hsettled, hbelow⟩
  rw [received, hlookup]
  exact hu

/-- A variable stays in scope. -/
theorem Keeps.contains (hkeeps : env.Keeps env₁) {x : String} (h : env.contains x = true) :
    env₁.contains x = true := by
  obtain ⟨b, hb⟩ := Option.isSome_iff_exists.1 h
  obtain ⟨b', hb', -⟩ := hkeeps x b hb
  rw [Env.contains, hb', Option.isSome_some]

/-- Two runs in sequence are followed if each is. The first matters where the second stores
nothing. -/
theorem Follows.trans (hwf : WellFounded reg.Unfolds) (hreg : reg.Bodies reg.Settled)
    (h₁ : Follows reg env run env₁) (h₂ : Follows reg env₁ run' env₂) (hkeeps : env.Keeps env₁)
    (hkeeps₁ : env₁.Keeps env₂) (henv₂ : env₂.Settled reg) :
    Follows reg env (run ++ run') env₂ := by
  intro x t hbound hx htracked
  have ht := henv₂ x t (current?_of_find? hx)
  obtain ⟨htracked', hsplit⟩ := Run.tracked_append htracked
  obtain ⟨u, hu, hsettled, hbelow⟩ := h₂ x t (hkeeps.contains hbound) hx htracked'
  rw [Run.writes_append]
  rcases hsplit with ⟨hlookup, htracked₁⟩ | ⟨e, hlookup⟩
  · -- left alone by the second run, so its type there is what the first left it with
    rw [received, hlookup] at hu
    obtain ⟨v, hv, hsettled', hbelow'⟩ :=
      h₁ x u hbound (hkeeps₁.find?_inferred hx hu) htracked₁
    exact ⟨v, (received_append_of_none hlookup).trans hv, hsettled',
      Registry.below_trans_of_settled hreg hwf ht hsettled' hbelow hbelow'⟩
  · -- written in the second run, so what it received in the first is gone
    rw [received, hlookup] at hu
    exact ⟨u, (received_append_of_lookup hlookup).trans hu, hsettled, hbelow⟩

/-- Two runs of a loop body in sequence, which the checker has gone through once. -/
theorem Follows.append (h : Follows reg env run env₁) (h' : Follows reg env run' env₁) :
    Follows reg env (run ++ run') env₁ := by
  intro x t hbound hx htracked
  obtain ⟨htracked', hsplit⟩ := Run.tracked_append htracked
  rw [Run.writes_append]
  rcases hsplit with ⟨hlookup, htracked₁⟩ | ⟨e, hlookup⟩
  · obtain ⟨u, hu, hsettled, hbelow⟩ := h x t hbound hx htracked₁
    exact ⟨u, (received_append_of_none hlookup).trans hu, hsettled, hbelow⟩
  · obtain ⟨u, hu, hsettled, hbelow⟩ := h' x t hbound hx htracked'
    rw [received, hlookup] at hu
    exact ⟨u, (received_append_of_lookup hlookup).trans hu, hsettled, hbelow⟩

/-- A loop is followed if each of its rounds is, from the same environment. -/
theorem Follows.repeated {rounds : List Run} (h : Follows reg env run env₁)
    (hrounds : ∀ r ∈ rounds, Follows reg env r env₁) :
    Follows reg env (run ++ rounds.flatten) env₁ := by
  induction rounds generalizing run with
  | nil =>
    rw [List.flatten_nil, List.append_nil]
    exact h
  | cons r rounds ih =>
    obtain ⟨hr, hrounds⟩ := List.forall_mem_cons.1 hrounds
    rw [List.flatten_cons, ← List.append_assoc]
    exact ih (h.append hr) hrounds

/-- A block without jumps that is passed over, and has been gone through by the checker. -/
theorem follows_pass {body : List Stmt} (hjumps : ∀ n ∈ Stmt.nodesAll body, n.form.jumps = false)
    (h : ∀ run, Stmt.RunsAll body run → Follows reg env run env₁) :
    Follows reg env [.pass body] env₁ := by
  intro x t hbound hx htracked
  have hoverwrites : Stmt.overwritesAll x body = false := by
    cases hbody : Stmt.overwritesAll x body with
    | false => rfl
    | true =>
      have hlast : Run.last? x [.pass body] = some (.pass body) := List.find?_cons_of_pos hbody
      rw [Run.tracked, hlast] at htracked
      cases htracked
  -- there is a run through the block that has the same effect on the variable, namely none
  obtain ⟨run, hrun, huntouched⟩ := Stmt.exists_untouched_run x body hoverwrites hjumps
  have hlast : Run.last? x run = none := by
    rw [Run.last?, List.find?_eq_none]
    intro a ha
    rw [huntouched a (List.mem_reverse.1 ha)]
    exact Bool.false_ne_true
  obtain ⟨u, hu, hsettled, hbelow⟩ := h run hrun x t hbound hx (Run.tracked_of_last?_none hlast)
  rw [received, Run.lookup_of_last?_none hlast] at hu
  exact ⟨u, hu, hsettled, hbelow⟩

/-- A run through either arm is followed after the branch. -/
theorem Follows.merge (hwf : WellFounded reg.Unfolds) (hreg : reg.Bodies reg.Settled)
    {left right merged : Env} (hmerged : (env.merge reg left right).Ends merged ())
    (hleft : env.Keeps left) (hright : env.Keeps right) (hsleft : left.Settled reg)
    (hsright : right.Settled reg) (h : Follows reg env run left ∨ Follows reg env run right) :
    Follows reg env run merged := by
  intro x t hbound hx htracked
  obtain ⟨l, r, hl, hr, hjoin⟩ := find?_merge_inferred hmerged hleft hright hx
  obtain ⟨ht, htl, htr⟩ := joinTypes_upper hwf hreg (hsleft x l (current?_of_find? hl))
    (hsright x r (current?_of_find? hr)) hjoin
  rcases h with h | h
  · obtain ⟨u, hu, hsettled, hbelow⟩ := h x l hbound hl htracked
    exact ⟨u, hu, hsettled, Registry.below_trans_of_settled hreg hwf ht hsettled htl hbelow⟩
  · obtain ⟨u, hu, hsettled, hbelow⟩ := h x r hbound hr htracked
    exact ⟨u, hu, hsettled, Registry.below_trans_of_settled hreg hwf ht hsettled htr hbelow⟩

end Env

/-! ## Statements -/

/-- The statements that hold no others and do not jump. -/
def StmtForm.isPlain : StmtForm → Bool
  | .assert _ | .assign _ _ | .call _ _ | .print _ | .declare _ | .infer _ _ _ => true
  | .breakLoop | .continueLoop | .forLoop _ _ _ _ | .ifElse _ _ _ | .ret _ | .switchOn _ _
  | .matchType _ _ | .whileLoop _ _ => false

theorem StmtForm.isPlain_bareForm (form : StmtForm) :
    (Stmt.bareForm form).isPlain = form.isPlain := by
  cases form <;> rfl

theorem StmtForm.jumps_bareForm (form : StmtForm) : (Stmt.bareForm form).jumps = form.jumps := by
  cases form <;> rfl

theorem Stmt.jumps_bare (s : Stmt) : s.bare.form.jumps = s.form.jumps := by
  obtain ⟨form, span⟩ := s
  exact form.jumps_bareForm

/-- A check leaves a jump in the place of a jump only. -/
theorem StmtForm.jumps_check (ctx : Context) (env : Env) (span : Option Span) (form : StmtForm) :
    (form.check ctx env span).left.2.jumps = form.jumps := by
  rw [← StmtForm.jumps_bareForm, StmtForm.bare_check, StmtForm.jumps_bareForm]

/-- A jump has no runs of its own. -/
theorem StmtForm.Runs.jumps_eq_false {form : StmtForm} {run : Run} (h : form.Runs run) :
    form.jumps = false := by
  cases h <;> rfl

mutual
/-- The statements of a bare tree are the bare statements. -/
theorem Stmt.nodes_bare : ∀ s : Stmt, s.bare.nodes = s.nodes.map Stmt.bare
  | ⟨form, _⟩ => congrArg (_ :: ·) (Stmt.nodesForm_bareForm form)

theorem Stmt.nodesForm_bareForm : ∀ form : StmtForm,
    Stmt.nodesForm (Stmt.bareForm form) = (Stmt.nodesForm form).map Stmt.bare
  | .assert _ | .assign _ _ | .breakLoop | .continueLoop | .call _ _ | .print _ | .ret _
  | .declare _ | .infer _ _ _ => rfl
  | .forLoop d condition step body => by
    rw [Stmt.bareForm, Stmt.nodesForm, Stmt.nodesForm, Stmt.nodes_bare, Stmt.nodesAll_bareAll,
      List.map_append]
  | .ifElse condition onTrue onFalse => by
    rw [Stmt.bareForm, Stmt.nodesForm, Stmt.nodesForm, Stmt.nodesAll_bareAll,
      Stmt.nodesAll_bareAll, List.map_append]
  | .switchOn selector cases => Stmt.nodesSwitch_bareSwitch cases
  | .matchType selector cases => Stmt.nodesMatch_bareMatch cases
  | .whileLoop condition body => Stmt.nodesAll_bareAll body

theorem Stmt.nodesAll_bareAll : ∀ ss : List Stmt,
    Stmt.nodesAll (Stmt.bareAll ss) = (Stmt.nodesAll ss).map Stmt.bare
  | [] => rfl
  | s :: ss => by
    rw [Stmt.bareAll, Stmt.nodesAll, Stmt.nodesAll, Stmt.nodes_bare, Stmt.nodesAll_bareAll,
      List.map_append]

theorem Stmt.nodesSwitch_bareSwitch : ∀ cs : List SwitchCase,
    Stmt.nodesSwitch (Stmt.bareSwitch cs) = (Stmt.nodesSwitch cs).map Stmt.bare
  | [] => rfl
  | ⟨value, body⟩ :: cs => by
    rw [Stmt.bareSwitch, Stmt.nodesSwitch, Stmt.nodesSwitch, Stmt.nodesAll_bareAll,
      Stmt.nodesSwitch_bareSwitch, List.map_append]

theorem Stmt.nodesMatch_bareMatch : ∀ cs : List MatchCase,
    Stmt.nodesMatch (Stmt.bareMatch cs) = (Stmt.nodesMatch cs).map Stmt.bare
  | [] => rfl
  | ⟨t, x, body, span⟩ :: cs => by
    rw [Stmt.bareMatch, Stmt.nodesMatch, Stmt.nodesMatch, Stmt.nodesAll_bareAll,
      Stmt.nodesMatch_bareMatch, List.map_append]
end

/-- What a check leaves holds no jumps if the statement holds none. -/
theorem Stmt.nodes_check_jumps {ctx : Context} {env : Env} {s : Stmt}
    (h : ∀ n ∈ s.nodes, n.form.jumps = false) :
    ∀ n ∈ (s.check ctx env).left.2.nodes, n.form.jumps = false := by
  intro n hn
  have hbare : n.bare ∈ (s.check ctx env).left.2.nodes.map Stmt.bare := List.mem_map_of_mem hn
  rw [← Stmt.nodes_bare, Stmt.bare_check, Stmt.nodes_bare] at hbare
  obtain ⟨m, hm, hmn⟩ := List.mem_map.1 hbare
  calc n.form.jumps
    _ = n.bare.form.jumps := n.jumps_bare.symm
    _ = m.bare.form.jumps := by rw [hmn]
    _ = m.form.jumps := m.jumps_bare
    _ = false := h m hm

/-- A plain statement has one run, which is its only path. -/
theorem StmtForm.Runs.mem_paths {form : StmtForm} {run : Run} (h : form.Runs run)
    (hplain : form.isPlain = true) : Run.writes run ∈ Stmt.pathsForm form := by
  cases h with
  | assignVar hx =>
    rw [Stmt.pathsForm, hx]
    exact List.mem_singleton_self _
  | assign hform =>
    rw [Stmt.pathsForm]
    split
    · rename_i x hx
      exact absurd hx (hform x)
    · exact List.mem_singleton_self _
  | assert | call | print | declare | infer => exact List.mem_singleton_self _
  | forLoop | onTrue | onFalse | switchOn | matchNone | matchOne | whileNone | whileSome =>
    cases hplain

section Statements

variable {ctx : Context}

/-- A plain statement is followed on its one run, as it is on its only path. -/
theorem StmtForm.plain_follows (hwf : WellFounded ctx.registry.Unfolds)
    (hreg : ctx.registry.AllSettled) {form : StmtForm} {span : Option Span} {env : Env}
    {left : Env × StmtForm} {run : Run} (hplain : form.isPlain = true)
    (henv : env.Settled ctx.registry) (hempty : ∀ slot ∈ Stmt.slotsForm form, slot.Empty)
    (hcan : ∀ t ∈ Stmt.writtenForm form, t.Canonical) (h : (form.check ctx env span).Ends left ())
    (hrun : left.2.Runs run) : Env.Follows ctx.registry env run left.1 := by
  have hbare := StmtForm.bare_check ctx env span form
  rw [h.1] at hbare
  have hleft : left.2.isPlain = true := by
    rw [← StmtForm.isPlain_bareForm, hbare, StmtForm.isPlain_bareForm, hplain]
  exact (StmtForm.check_accounts hreg hwf form henv hempty hcan h (hrun.mem_paths hleft)).follows

mutual
/-- The environment that the check of a statement ends in follows the runs of what the check
leaves, if that holds no jumps. -/
theorem Stmt.check_follows (hwf : WellFounded ctx.registry.Unfolds)
    (hreg : ctx.registry.AllSettled) : ∀ (s : Stmt) {env env' : Env} {s' : Stmt}
    {run : Run}, env.Settled ctx.registry → (∀ slot ∈ s.slots, slot.Empty) →
      (∀ t ∈ s.writtenTypes, t.Canonical) → (s.check ctx env).Ends (env', s') () →
        (∀ n ∈ s'.nodes, n.form.jumps = false) → s'.Runs run →
          Env.Follows ctx.registry env run env'
  | ⟨form, span⟩, env, env', s', run, henv, hempty, hcan, h, hjumps, hrun => by
    obtain ⟨form', hform, rfl⟩ := Stmt.check_ends h
    rw [Stmt.nodes, List.forall_mem_cons] at hjumps
    cases hrun with
    | mk hrun => exact StmtForm.check_follows hwf hreg form henv hempty hcan hform hjumps.2 hrun

/-- By cases on the statement and on the run. A `for` and a `match` end in the environment that they
started in, and the runs of the others are put together from those of their blocks. -/
theorem StmtForm.check_follows (hwf : WellFounded ctx.registry.Unfolds)
    (hreg : ctx.registry.AllSettled) : ∀ (form : StmtForm) {span : Option Span}
    {env : Env} {left : Env × StmtForm} {run : Run}, env.Settled ctx.registry →
      (∀ slot ∈ Stmt.slotsForm form, slot.Empty) → (∀ t ∈ Stmt.writtenForm form, t.Canonical) →
        (form.check ctx env span).Ends left () →
          (∀ n ∈ Stmt.nodesForm left.2, n.form.jumps = false) → left.2.Runs run →
            Env.Follows ctx.registry env run left.1
  | .assert e, span, env, left, run, henv, hempty, hcan, h, hjumps, hrun
  | .assign target value, span, env, left, run, henv, hempty, hcan, h, hjumps, hrun
  | .call method args, span, env, left, run, henv, hempty, hcan, h, hjumps, hrun
  | .print e, span, env, left, run, henv, hempty, hcan, h, hjumps, hrun
  | .declare d, span, env, left, run, henv, hempty, hcan, h, hjumps, hrun
  | .infer x cell init, span, env, left, run, henv, hempty, hcan, h, hjumps, hrun =>
    StmtForm.plain_follows hwf hreg rfl henv hempty hcan h hrun
  -- what the check of a jump leaves is that jump, which has no runs
  | .breakLoop, span, env, left, run, henv, hempty, hcan, h, hjumps, hrun
  | .continueLoop, span, env, left, run, henv, hempty, hcan, h, hjumps, hrun
  | .ret value, span, env, left, run, henv, hempty, hcan, h, hjumps, hrun => by
    have hleft : left.2.jumps = true := by
      rw [← h.1, StmtForm.jumps_check]
      rfl
    cases hleft.symm.trans hrun.jumps_eq_false
  | .forLoop d condition step body, span, env, left, run, henv, hempty, hcan, h, hjumps, hrun => by
    -- whatever a loop with a step of its own does is dropped after it
    obtain ⟨d', condition', env₁, step', inner, -, -, -, -, -, rfl⟩ := StmtForm.forLoop_ends h
    cases hrun
    exact Env.follows_dropped henv _
  | .ifElse condition onTrue onFalse, span, env, left, run, henv, hempty, hcan, h, hjumps,
    hrun => by
    simp only [Stmt.slotsForm, List.forall_mem_append] at hempty
    obtain ⟨⟨-, htrue⟩, hfalse⟩ := hempty
    rw [Stmt.writtenForm, List.forall_mem_append] at hcan
    obtain ⟨condition', l, r, merged, -, hl, hr, hmerged, rfl⟩ := StmtForm.ifElse_ends h
    have hkeepsl := (Stmt.checkAll_keeps ctx env onTrue).of_ends hl
    have hkeepsr := (Stmt.checkAll_keeps ctx env onFalse).of_ends hr
    obtain ⟨hsl, -⟩ := Stmt.checkAll_settles hwf hreg onTrue henv htrue hcan.1 hl
    obtain ⟨hsr, -⟩ := Stmt.checkAll_settles hwf hreg onFalse henv hfalse hcan.2 hr
    rw [Stmt.nodesForm, List.forall_mem_append] at hjumps
    -- a run goes through one of the two blocks, and merging is above both
    refine Env.Follows.merge hwf hreg.bodies hmerged hkeepsl hkeepsr hsl hsr ?_
    cases hrun with
    | onTrue hrun =>
      exact .inl (Stmt.checkAll_follows hwf hreg onTrue henv htrue hcan.1 hl hjumps.1 hrun)
    | onFalse hrun =>
      exact .inr (Stmt.checkAll_follows hwf hreg onFalse henv hfalse hcan.2 hr hjumps.2 hrun)
  | .switchOn selector cases, span, env, left, run, henv, hempty, hcan, h, hjumps, hrun => by
    rw [Stmt.slotsForm, List.forall_mem_append] at hempty
    obtain ⟨selector', t, env₁, cases', -, hcs, rfl⟩ := StmtForm.switchOn_ends h
    cases hrun with
    | switchOn hrun =>
      exact SwitchCase.checkAll_follows hwf hreg cases henv hempty.2 hcan hcs hjumps hrun
  | .matchType selector cases, span, env, left, run, henv, hempty, hcan, h, hjumps, hrun => by
    obtain ⟨selector', t, cases', -, -, rfl⟩ := StmtForm.matchType_ends h
    cases hrun with
    | matchNone => exact Env.follows_refl henv
    | matchOne => exact Env.follows_dropped henv _
  | .whileLoop condition body, span, env, left, run, henv, hempty, hcan, h, hjumps, hrun => by
    rw [Stmt.slotsForm, List.forall_mem_append] at hempty
    obtain ⟨condition', env₁, body', -, hbody, rfl⟩ := StmtForm.whileLoop_ends h
    -- the body is checked once, and each round is followed from where the loop starts
    have hround : ∀ r, Stmt.RunsAll body' r → Env.Follows ctx.registry env r env₁ :=
      fun r hr => Stmt.checkAll_follows hwf hreg body henv hempty.2 hcan hbody hjumps hr
    cases hrun with
    | whileNone => exact Env.follows_pass hjumps hround
    | whileSome hfirst hrounds =>
      exact (hround _ hfirst).repeated fun r hr => hround r (hrounds r hr)

/-- The same for a block, whose runs are those of its statements in sequence. -/
theorem Stmt.checkAll_follows (hwf : WellFounded ctx.registry.Unfolds)
    (hreg : ctx.registry.AllSettled) : ∀ (ss : List Stmt) {env : Env}
    {left : Env × List Stmt} {run : Run}, env.Settled ctx.registry →
      (∀ slot ∈ Stmt.slotsAll ss, slot.Empty) → (∀ t ∈ Stmt.writtenAll ss, t.Canonical) →
        (Stmt.checkAll ctx env ss).Ends left () →
        (∀ n ∈ Stmt.nodesAll left.2, n.form.jumps = false) → Stmt.RunsAll left.2 run →
          Env.Follows ctx.registry env run left.1
  | [], env, left, run, henv, hempty, hcan, h, hjumps, hrun => by
    obtain ⟨rfl, -⟩ := Visit.ends_mk.1 h
    cases hrun
    exact Env.follows_refl henv
  | s :: ss, env, left, run, henv, hempty, hcan, h, hjumps, hrun => by
    rw [Stmt.slotsAll, List.forall_mem_append] at hempty
    rw [Stmt.writtenAll, List.forall_mem_append] at hcan
    obtain ⟨env₁, s', env₂, rest, hs, hrest, rfl⟩ := Stmt.cons_ends h
    rw [Stmt.nodesAll, List.forall_mem_append] at hjumps
    have hkeeps := (Stmt.check_keeps ctx env s).of_ends hs
    have hkeeps₁ := (Stmt.checkAll_keeps ctx env₁ ss).of_ends hrest
    obtain ⟨henv₁, -⟩ := Stmt.check_settles hwf hreg s henv hempty.1 hcan.1 hs
    obtain ⟨henv₂, -⟩ := Stmt.checkAll_settles hwf hreg ss henv₁ hempty.2 hcan.2 hrest
    cases hrun with
    | cons hrun hrun' =>
      -- the first statement up to the environment it leaves, and the others from there
      have hfirst := Stmt.check_follows hwf hreg s henv hempty.1 hcan.1 hs hjumps.1 hrun
      have hlater := Stmt.checkAll_follows hwf hreg ss henv₁ hempty.2 hcan.2 hrest hjumps.2 hrun'
      exact hfirst.trans hwf hreg.bodies hlater hkeeps hkeeps₁ henv₂

/-- The same for cases, any of which may be run. -/
theorem SwitchCase.checkAll_follows (hwf : WellFounded ctx.registry.Unfolds)
    (hreg : ctx.registry.AllSettled) : ∀ (cs : List SwitchCase) {selector : Ty}
    {env : Env} {left : Env × List SwitchCase} {run : Run}, env.Settled ctx.registry →
      (∀ slot ∈ Stmt.slotsSwitch cs, slot.Empty) → (∀ t ∈ Stmt.writtenSwitch cs, t.Canonical) →
        (SwitchCase.checkAll ctx selector env cs).Ends left () →
          (∀ n ∈ Stmt.nodesSwitch left.2, n.form.jumps = false) →
            SwitchCase.RunsAll left.2 run → Env.Follows ctx.registry env run left.1
  | [], selector, env, left, run, henv, hempty, hcan, h, hjumps, hrun => by
    obtain ⟨rfl, -⟩ := Visit.ends_mk.1 h
    cases hrun
    exact Env.follows_refl henv
  | ⟨value, body⟩ :: cs, selector, env, left, run, henv, hempty, hcan, h, hjumps, hrun => by
    simp only [Stmt.slotsSwitch, List.forall_mem_append] at hempty
    obtain ⟨⟨-, hbodySlots⟩, hcsSlots⟩ := hempty
    rw [Stmt.writtenSwitch, List.forall_mem_append] at hcan
    obtain ⟨value', env₁, body', env₂, rest, -, hbody, hrest, rfl⟩ := SwitchCase.cons_ends h
    rw [Stmt.nodesSwitch, List.forall_mem_append] at hjumps
    have hkeeps := (Stmt.checkAll_keeps ctx env body).of_ends hbody
    have hkeeps₁ := (SwitchCase.checkAll_keeps ctx selector env₁ cs).of_ends hrest
    obtain ⟨henv₁, -⟩ := Stmt.checkAll_settles hwf hreg body henv hbodySlots hcan.1 hbody
    obtain ⟨henv₂, -⟩ := SwitchCase.checkAll_settles hwf hreg cs henv₁ hcsSlots hcan.2 hrest
    have htaken : ∀ r, Stmt.RunsAll body' r → Env.Follows ctx.registry env r env₁ :=
      fun r hr => Stmt.checkAll_follows hwf hreg body henv hbodySlots hcan.1 hbody hjumps.1 hr
    have hlater : ∀ r, SwitchCase.RunsAll rest r → Env.Follows ctx.registry env₁ r env₂ :=
      fun r hr => SwitchCase.checkAll_follows hwf hreg cs henv₁ hcsSlots hcan.2 hrest hjumps.2 hr
    cases hrun with
    | taken hrun hrun' =>
      exact (htaken _ hrun).trans hwf hreg.bodies (hlater _ hrun') hkeeps hkeeps₁ henv₂
    -- a case that is passed over leaves no writes, but is checked all the same
    | passed hrun =>
      have hpassed := Env.follows_pass hjumps.1 htaken
      exact hpassed.trans hwf hreg.bodies (hlater _ hrun) hkeeps hkeeps₁ henv₂
end

end Statements

/-! ## Accepted files -/

/-- The check of the statement ends in an environment that covers its runs, as far as they count for
a variable: the type that a `var` variable of both environments holds at the end accepts what the
variable has last received on the run. -/
def Stmt.RunsCovered (counts : String → Run → Bool) (ctx : Context) (env : Env) (s : Stmt) : Prop :=
  ∀ run, (s.check ctx env).left.2.Runs run → ∀ x t, env.contains x = true →
    (s.check ctx env).left.1.find? x = some ⟨.inferred, t⟩ → counts x run = true →
      ∃ u, env.received (Run.writes run) x = some u ∧ ctx.registry.isSubtype t u = .ok true

/-- Where a block comes to a statement without jumps, all of its runs are covered. -/
theorem Stmt.Ready.runsCovered {ctx : Context} {env : Env} {s : Stmt}
    (hwf : WellFounded ctx.registry.Unfolds) (hreg : ctx.registry.AllSettled)
    (h : Stmt.Ready ctx env s) (hjumps : ∀ n ∈ s.nodes, n.form.jumps = false) :
    Stmt.RunsCovered Run.tracked ctx env s := by
  intro run hrun x t hbound hx htracked
  have hends : (s.check ctx env).Ends (s.check ctx env).left () := ⟨rfl, h.passes⟩
  obtain ⟨hsettled, -⟩ := Stmt.check_settles hwf hreg s h.settled h.empty h.canonical hends
  obtain ⟨u, hu, hu', hbelow⟩ :=
    Stmt.check_follows hwf hreg s h.settled h.empty h.canonical hends
      (Stmt.nodes_check_jumps hjumps) hrun x t hbound hx htracked
  have ht := hsettled x t (Env.current?_of_find? hx)
  exact ⟨u, hu, (Registry.isSubtype_iff_below_of_settled hreg.bodies ht hu').2 hbelow⟩

/-- The statements whose bodies are checked with environments that are dropped. -/
def StmtForm.hasOwnScope : StmtForm → Bool
  | .forLoop _ _ _ _ | .matchType _ _ => true
  | .assert _ | .assign _ _ | .breakLoop | .continueLoop | .ifElse _ _ _ | .call _ _ | .print _
  | .ret _ | .switchOn _ _ | .declare _ | .infer _ _ _ | .whileLoop _ _ => false

/-- A statement with a scope of its own leaves the environment it started from. -/
theorem Stmt.left_of_hasOwnScope {ctx : Context} {env : Env} {s : Stmt}
    (h : s.form.hasOwnScope = true) : (s.check ctx env).left.1 = env := by
  obtain ⟨form, span⟩ := s
  show (form.check ctx env span).left.1 = env
  cases form with
  | forLoop d condition step body =>
    refine Visit.left_andThen_of (P := fun l : Env × StmtForm => l.1 = env) rfl fun _ _ => ?_
    refine Visit.left_andThen_of (P := fun l : Env × StmtForm => l.1 = env) rfl fun _ _ => ?_
    exact Visit.left_andThen_of (P := fun l : Env × StmtForm => l.1 = env) rfl fun _ _ => rfl
  | matchType selector cases =>
    exact Visit.left_andThen_of (P := fun l : Env × StmtForm => l.1 = env) rfl fun _ _ => rfl
  | assert | assign | breakLoop | continueLoop | ifElse | call | print | ret | switchOn | declare
  | infer | whileLoop => cases h

/-- In an accepted file, the check of every statement that holds no `break`, `continue` or `return`
covers the tracked runs of the statement. That of a `for` loop or of a `match` ends in the
environment that it started in. -/
theorem File.accepted_runs_covered {f : File} (hfresh : f.Fresh) (hcan : f.Canonical)
    (haccepted : f.check.value.2 = .ok ()) :
    ∃ reg, (Registry.build f).result = .ok reg ∧
      ∀ d ∈ f.methodDecls, ∃ env, Parameter.bindAll reg d.span {} d.params = .ok env ∧
        ∀ p ∈ Stmt.sitesAll ⟨reg, d.ret⟩ env d.body,
          ((∀ n ∈ p.2.nodes, n.form.jumps = false) →
            Stmt.RunsCovered Run.tracked ⟨reg, d.ret⟩ p.1 p.2) ∧
            (p.2.form.hasOwnScope = true → (p.2.check ⟨reg, d.ret⟩ p.1).left.1 = p.1) := by
  obtain ⟨reg, hbuild, hpasses⟩ := File.check_eq_ok haccepted
  have hwf := Registry.wellFounded_unfolds hbuild
  have hreg := File.allSettled hcan hbuild hpasses
  refine ⟨reg, hbuild, fun d hd => ?_⟩
  obtain ⟨env, henv, hprepared⟩ := File.prepared hcan hbuild hpasses hfresh hd
  -- the body of the method is the first of the blocks that are prepared
  have hself := hprepared _ (List.mem_cons_self ..)
  obtain ⟨-, hready⟩ := Stmt.checkAll_sites hwf hreg d.body hself.settled hself.empty
    hself.canonical ⟨rfl, hself.passes⟩
  exact ⟨env, henv, fun p hp =>
    ⟨fun hjumps => (hready p hp).runsCovered hwf hreg hjumps, Stmt.left_of_hasOwnScope⟩⟩

/-! ## A variable that is turned to another type -/

/-- Stores `true` in the variable `x`. -/
def turn : Stmt := { form := .assign { form := .var "x" } { form := .constant (.bool true) } }

/-- The value is stored in the body of a `while`. -/
def turnInWhile : Stmt := { form := .whileLoop { form := .var "c" } [turn] }

/-- It is stored in the body of a `for`, which is checked in a scope that is dropped. -/
def turnInFor : Stmt where
  form := .forLoop ⟨"i", .int, some { form := .constant (.int 0) }⟩ { form := .var "c" }
    { form := .assign { form := .var "i" } { form := .constant (.int 1) } } [turn]

/-- It is stored in a case of a `match`, which is too. -/
def turnInMatch : Stmt where
  form := .matchType { form := .var "v" } [{ ty := .int, name := "w", body := [turn] }]

/-- A loop that turns the variable in some rounds only. -/
def turnSometimes : Stmt where
  form := .whileLoop { form := .var "c" } [{ form := .ifElse { form := .var "c" } [turn] [] }]

/-- A method in which a statement follows the declaration of `x` with an `int`. -/
def turnMethod (name : String) (s : Stmt) : MethodDecl where
  name := name
  params := [{ name := "c", ty := .bool }, { name := "v", ty := .union [.int, .bool] }]
  ret := .void
  body := [{ form := .infer "x" .inferred { form := .constant (.int 1) } }, s]

/-- One method for each, and one for the statement that stores it sometimes. -/
def turnFile : File where
  decls :=
    [.method (turnMethod "a" turnInWhile), .method (turnMethod "b" turnInFor),
      .method (turnMethod "d" turnInMatch), .method (turnMethod "e" turnSometimes)]

/-- In a body of these methods. -/
def turnContext : Context := ⟨.ofFile turnFile, .void⟩

/-- The variables with which the methods begin. -/
def turnStart : Env where
  bindings :=
    [("c", ⟨.bool, .bool⟩), ("v", ⟨.union [.int, .bool], .union [.int, .bool]⟩)]

/-- The variables before the second statement. -/
def turnEnv : Env := turnStart.putInferred "x" .int

/-- The statement is come to where the variable holds a number. -/
theorem mem_sites_turnMethod (name : String) (form : StmtForm) (span : Option Span) :
    (turnEnv, ⟨form, span⟩) ∈
      Stmt.sitesAll turnContext turnStart (turnMethod name ⟨form, span⟩).body := by
  have hdeclared : (Stmt.check turnContext turnStart
      { form := .infer "x" .inferred { form := .constant (.int 1) } }).left.1 = turnEnv := by rfl
  rw [turnMethod, Stmt.sitesAll, hdeclared, Stmt.sitesAll, Stmt.sites]
  exact List.mem_append_right _ (List.mem_append_left _ (List.mem_cons_self ..))

/-- A run that leaves `x` with another type than the checker finds. -/
theorem not_runsCovered {s : Stmt} {run : Run} {found received : Ty}
    (hrun : (s.check turnContext turnEnv).left.2.Runs run)
    (hx : (s.check turnContext turnEnv).left.1.find? "x" = some ⟨.inferred, found⟩)
    (hreceived : turnEnv.received (Run.writes run) "x" = some received)
    (hnot : turnContext.registry.isSubtype found received = .ok false) :
    ¬Stmt.RunsCovered (fun _ _ => true) turnContext turnEnv s := by
  intro hcovered
  obtain ⟨u, hu, hsub⟩ := hcovered run hrun "x" found rfl hx rfl
  rw [hreceived] at hu
  cases hu
  rw [hnot] at hsub
  cases hsub

/-- What the check of `turn` leaves. -/
def turned : Stmt where
  form := .assign { form := .var "x", ty := some .int }
    { form := .constant (.bool true), ty := some .bool }

/-- Its run stores the value. -/
theorem runs_turned : Stmt.RunsAll [turned]
    [.store "x" { form := .constant (.bool true), ty := some .bool }] :=
  .cons (.mk (.assignVar rfl)) .nil

/-- Without a round of the loop, the variable still has the type it had before. -/
theorem turnInWhile_uncovered :
    ¬Stmt.RunsCovered (fun _ _ => true) turnContext turnEnv turnInWhile := by
  have hleft : (turnInWhile.check turnContext turnEnv).left =
      (turnStart.putInferred "x" .bool,
        { form := .whileLoop { form := .var "c", ty := some .bool } [turned] }) := by rfl
  have hrun : (turnInWhile.check turnContext turnEnv).left.2.Runs [.pass [turned]] := by
    rw [hleft]
    exact .mk .whileNone
  have hx : (turnInWhile.check turnContext turnEnv).left.1.find? "x" =
      some ⟨.inferred, .bool⟩ := by
    rw [hleft]
    rfl
  have hnot : turnContext.registry.isSubtype .bool .int = .ok false := by decide +kernel
  exact not_runsCovered hrun hx rfl hnot

/-- A `for` runs its body and its step, and drops what they store. -/
theorem runs_oneRound {d : VarDecl} {condition : Expr} {step : Stmt} {body : List Stmt}
    {run run' : Run} (hbody : Stmt.RunsAll body run) (hstep : step.Runs run') :
    StmtForm.Runs (.forLoop d condition step body) (Run.dropped (Run.writes (run ++ run'))) := by
  have hrun := @StmtForm.Runs.forLoop d condition step body [(run, run')]
    (List.forall_mem_singleton.2 hbody) (List.forall_mem_singleton.2 hstep)
  rwa [List.flatMap_singleton] at hrun

/-- After a round of the loop, the variable has the type that is stored in it there. -/
theorem turnInFor_uncovered :
    ¬Stmt.RunsCovered (fun _ _ => true) turnContext turnEnv turnInFor := by
  have hleft : (turnInFor.check turnContext turnEnv).left =
      (turnEnv,
        { form := .forLoop ⟨"i", .int, some { form := .constant (.int 0), ty := some .int }⟩
            { form := .var "c", ty := some .bool }
            { form := .assign { form := .var "i", ty := some .int }
                { form := .constant (.int 1), ty := some .int } } [turned] }) := by
    with_unfolding_all rfl
  have hrun : (turnInFor.check turnContext turnEnv).left.2.Runs
      (Run.dropped [("x", { form := .constant (.bool true), ty := some .bool }),
        ("i", { form := .constant (.int 1), ty := some .int })]) := by
    rw [hleft]
    exact .mk (runs_oneRound runs_turned (.mk (.assignVar rfl)))
  have hx : (turnInFor.check turnContext turnEnv).left.1.find? "x" = some ⟨.inferred, .int⟩ := by
    rw [hleft]
    rfl
  have hnot : turnContext.registry.isSubtype .int .bool = .ok false := by decide +kernel
  exact not_runsCovered hrun hx rfl hnot

/-- The same after a case of the `match`. -/
theorem turnInMatch_uncovered :
    ¬Stmt.RunsCovered (fun _ _ => true) turnContext turnEnv turnInMatch := by
  have hleft : (turnInMatch.check turnContext turnEnv).left =
      (turnEnv,
        { form := .matchType { form := .var "v", ty := some (.union [.int, .bool]) }
            [{ ty := .int, name := "w", body := [turned] }] }) := by with_unfolding_all rfl
  have hrun : (turnInMatch.check turnContext turnEnv).left.2.Runs
      (Run.dropped [("x", { form := .constant (.bool true), ty := some .bool })]) := by
    rw [hleft]
    exact .mk (@StmtForm.Runs.matchOne _ _ { ty := .int, name := "w", body := [turned] } _
      (List.mem_singleton_self _) runs_turned)
  have hx : (turnInMatch.check turnContext turnEnv).left.1.find? "x" = some ⟨.inferred, .int⟩ := by
    rw [hleft]
    rfl
  have hnot : turnContext.registry.isSubtype .int .bool = .ok false := by decide +kernel
  exact not_runsCovered hrun hx rfl hnot

/-- In an accepted file there may be runs that are not covered, of all three statements. -/
theorem File.accepted_runs_uncovered :
    (turnFile.Fresh ∧ turnFile.Canonical ∧ turnFile.check.value.2 = .ok ()) ∧
      ∀ p ∈ [("a", turnInWhile), ("b", turnInFor), ("d", turnInMatch)],
        turnMethod p.1 p.2 ∈ turnFile.methodDecls ∧
          Parameter.bindAll (.ofFile turnFile) none {} (turnMethod p.1 p.2).params =
            .ok turnStart ∧
          (turnEnv, p.2) ∈ Stmt.sitesAll turnContext turnStart (turnMethod p.1 p.2).body ∧
          ¬Stmt.RunsCovered (fun _ _ => true) turnContext turnEnv p.2 := by
  have hfresh : turnFile.Fresh := by decide +kernel
  have hcan : turnFile.Canonical := by decide +kernel
  have haccepted : turnFile.check.value.2 = .ok () := by decide +kernel
  have hstart : Parameter.bindAll (.ofFile turnFile) none {}
      (turnMethod "a" turnInWhile).params = .ok turnStart := by rfl
  refine ⟨⟨hfresh, hcan, haccepted⟩, ?_⟩
  rw [List.forall_mem_cons, List.forall_mem_cons, List.forall_mem_singleton]
  refine ⟨⟨?_, hstart, mem_sites_turnMethod .., turnInWhile_uncovered⟩,
    ⟨?_, hstart, mem_sites_turnMethod .., turnInFor_uncovered⟩,
    ⟨?_, hstart, mem_sites_turnMethod .., turnInMatch_uncovered⟩⟩
  · exact File.mem_methodDecls.2 (List.mem_cons_self ..)
  · exact File.mem_methodDecls.2 (List.mem_cons_of_mem _ (List.mem_cons_self ..))
  · exact File.mem_methodDecls.2
      (List.mem_cons_of_mem _ (List.mem_cons_of_mem _ (List.mem_cons_self ..)))

/-- A loop that turns a variable in some rounds only. Both types are found for the variable, so a
run without a round is covered as well. -/
theorem File.accepted_runs_covered_sometimes :
    (turnFile.Fresh ∧ turnFile.Canonical ∧ turnFile.check.value.2 = .ok ()) ∧
      (turnSometimes.check turnContext turnEnv).left.1.current? "x" =
        some (.union [.bool, .int]) ∧
      Run.tracked "x" [.pass
        [{ form := .ifElse { form := .var "c", ty := some .bool } [turned] [] }]] = true ∧
      (∀ n ∈ turnSometimes.nodes, n.form.jumps = false) ∧
      Stmt.RunsCovered Run.tracked turnContext turnEnv turnSometimes := by
  have hfresh : turnFile.Fresh := by decide +kernel
  have hcan : turnFile.Canonical := by decide +kernel
  have haccepted : turnFile.check.value.2 = .ok () := by decide +kernel
  have hjumps : ∀ n ∈ turnSometimes.nodes, n.form.jumps = false := by decide +kernel
  refine ⟨⟨hfresh, hcan, haccepted⟩, by decide +kernel, by decide +kernel, hjumps, ?_⟩
  obtain ⟨reg, hbuild, hcovered⟩ := File.accepted_runs_covered hfresh hcan haccepted
  obtain ⟨rfl, -⟩ := Registry.build_ok hbuild
  obtain ⟨env, henv, hsites⟩ := hcovered (turnMethod "e" turnSometimes)
    (File.mem_methodDecls.2 (List.mem_cons_of_mem _ (List.mem_cons_of_mem _
      (List.mem_cons_of_mem _ (List.mem_cons_self ..)))))
  have hstart : Parameter.bindAll (.ofFile turnFile) none {}
      (turnMethod "e" turnSometimes).params = .ok turnStart := by rfl
  cases hstart.symm.trans henv
  exact (hsites _ (mem_sites_turnMethod "e" _ _)).1 hjumps

end WhileTyping
