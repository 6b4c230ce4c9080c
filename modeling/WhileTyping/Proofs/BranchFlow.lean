import WhileTyping.Proofs.AcceptedFile

/-!
# Types of variables across branches

A `var` variable takes on the type of every value stored in it, so which type it holds depends on
the way taken through a block. The checker keeps one environment for all ways, merging the arms of
an `if`. This module shows that the one environment accounts for every way.

* **`Stmt.pathsAll`**: what is stored in variables on each path through a block, a path being a
  choice of an arm at every `if`.
* **`Env.received`**: the type that a variable has last received on a path.
* **`Env.Accounts`**: the types that `var` variables hold in an environment are above what they have
  last received on a path to it. Following one path after another keeps this (`Env.Accounts.trans`),
  and so does taking either arm of an `if` (`Env.Accounts.merge`).
* **`Stmt.checkAll_accounts`**: the environment that a check ends in accounts for every path, by
  induction on the block.
* **`Stmt.PathsCovered`**: the same in terms of the subtype check, for the blocks of accepted files.
-/

namespace WhileTyping

/-! ## Paths -/

namespace Stmt

mutual
/-- The values stored in variables on each path through a statement, in order. A statement that may
repeat or leave a block, or selects by a value or a type, has no path here. -/
def paths : Stmt → List (List (String × Expr))
  | ⟨form, _⟩ => pathsForm form

def pathsForm : StmtForm → List (List (String × Expr))
  | .assign target value =>
    match target.form with
    | .var x => [[(x, value)]]
    | _ => [[]]
  | .infer x _ init => [[(x, init)]]
  | .ifElse _ onTrue onFalse => pathsAll onTrue ++ pathsAll onFalse
  | .assert _ | .call _ _ | .print _ | .ret _ | .declare _ => [[]]
  | .breakLoop | .continueLoop | .forLoop _ _ _ _ | .whileLoop _ _ | .switchOn _ _
  | .matchType _ _ => []

def pathsAll : List Stmt → List (List (String × Expr))
  | [] => [[]]
  | s :: ss => (paths s).flatMap fun writes => (pathsAll ss).map (writes ++ ·)
end

end Stmt

namespace Env

/-- The type that a variable has last received: the type left on the value last stored in it, or the
type it held at the start. -/
def received (env : Env) (writes : List (String × Expr)) (x : String) : Option Ty :=
  match writes.reverse.lookup x with
  | some e => e.ty
  | none => env.current? x

/-- A variable that is stored to receives the type of the value. -/
theorem received_singleton_self (env : Env) (x : String) (e : Expr) :
    env.received [(x, e)] x = e.ty := by
  simp [received]

/-- Another variable has received nothing, and holds what it held. -/
theorem received_singleton_of_ne (env : Env) {x y : String} (e : Expr) (h : y ≠ x) :
    env.received [(x, e)] y = env.current? y := by
  simp [received, List.lookup_cons, beq_false_of_ne h]

/-- Only what has not been written since is received from before. -/
theorem received_append_of_lookup {env : Env} {writes writes' : List (String × Expr)} {x : String}
    {e : Expr} (h : writes'.reverse.lookup x = some e) :
    env.received (writes ++ writes') x = e.ty := by
  simp [received, List.lookup_append, h]

/-- What is left alone in the second part has received what it has in the first. -/
theorem received_append_of_none {env : Env} {writes writes' : List (String × Expr)} {x : String}
    (h : writes'.reverse.lookup x = none) :
    env.received (writes ++ writes') x = env.received writes x := by
  simp [received, List.lookup_append, h]

/-! ## Environments that account for a path -/

/-- The `var` variables of the second environment hold types above what they have last received on a
path to it from the first. -/
def Accounts (reg : Registry) (env : Env) (writes : List (String × Expr)) (env' : Env) : Prop :=
  ∀ x t, env'.find? x = some ⟨.inferred, t⟩ →
    ∃ u, env.received writes x = some u ∧ reg.Settled u ∧ reg.Below t u

/-- A variable that stays bound is a `var` variable if it has become one. -/
theorem Keeps.find?_inferred {env env' : Env} (hkeeps : env.Keeps env') {x : String} {t u : Ty}
    (h : env'.find? x = some ⟨.inferred, t⟩) (hu : env.current? x = some u) :
    env.find? x = some ⟨.inferred, u⟩ := by
  obtain ⟨⟨declared, current⟩, hb, hcurrent⟩ := Option.map_eq_some_iff.1 hu
  cases hcurrent
  obtain ⟨b', hb', hdeclared, -⟩ := hkeeps x _ hb
  rw [h] at hb'
  cases hb'
  cases hdeclared
  exact hb

section Accounts

variable {reg : Registry} {env env₁ env₂ : Env} {writes writes₁ writes₂ : List (String × Expr)}

/-- Nothing is stored, and nothing changes. -/
theorem accounts_refl (henv : env.Settled reg) : Accounts reg env [] env := by
  intro x t h
  have ht := current?_of_find? h
  have hsettled := henv x t ht
  exact ⟨t, ht, hsettled, Registry.below_refl hsettled.orderly.noInferred⟩

/-- Storing a value in a `var` variable. -/
theorem accounts_insert (henv : env.Settled reg) {x : String} {t : Ty} {e : Expr}
    (he : e.ty = some t) (ht : reg.Settled t) :
    Accounts reg env [(x, e)] (env.insert x ⟨.inferred, t⟩) := by
  intro y u h
  by_cases hy : y = x
  · subst hy
    rw [find?_insert_self] at h
    cases h
    exact ⟨t, (received_singleton_self env y e).trans he, ht,
      Registry.below_refl ht.orderly.noInferred⟩
  · rw [find?_insert_of_ne env _ hy] at h
    obtain ⟨v, hv, hsettled, hbelow⟩ := accounts_refl henv y u h
    exact ⟨v, (received_singleton_of_ne env e hy).trans hv, hsettled, hbelow⟩

/-- A variable that is not a `var` variable may be written without a trace. -/
theorem accounts_of_not_inferred (henv : env.Settled reg) {x : String} {e : Expr}
    (hx : env.declared? x ≠ some .inferred) : Accounts reg env [(x, e)] env := by
  intro y u h
  have hy : y ≠ x := by
    rintro rfl
    exact hx (by rw [declared?, h, Option.map_some])
  obtain ⟨v, hv, hsettled, hbelow⟩ := accounts_refl henv y u h
  exact ⟨v, (received_singleton_of_ne env e hy).trans hv, hsettled, hbelow⟩

variable (hwf : WellFounded reg.Unfolds) (hreg : reg.Bodies reg.Settled)

include hwf hreg

/-- One path after another is accounted for if each is, since later statements keep the types that
earlier ones have found below their own. -/
theorem Accounts.trans (h₁ : Accounts reg env writes₁ env₁) (h₂ : Accounts reg env₁ writes₂ env₂)
    (hkeeps : env₁.Keeps env₂) (henv₂ : env₂.Settled reg) :
    Accounts reg env (writes₁ ++ writes₂) env₂ := by
  intro x t h
  have ht := henv₂ x t (current?_of_find? h)
  obtain ⟨u, hu, hsettled, hbelow⟩ := h₂ x t h
  cases hlookup : writes₂.reverse.lookup x with
  | some e =>
    rw [received, hlookup] at hu
    exact ⟨u, (received_append_of_lookup hlookup).trans hu, hsettled, hbelow⟩
  | none =>
    -- not written on the second path, so its type there is what the first path left it with
    rw [received, hlookup] at hu
    obtain ⟨v, hv, hsettled', hbelow'⟩ := h₁ x u (hkeeps.find?_inferred h hu)
    exact ⟨v, (received_append_of_none hlookup).trans hv, hsettled',
      Registry.below_trans_of_settled hreg hwf ht hsettled' hbelow hbelow'⟩

end Accounts

/-! ## After a branch -/

section Branches

variable {reg : Registry} {env left right merged : Env}

/-- A `var` variable after a branch is one in both arms, and holds the join of what they leave. -/
theorem find?_merge_inferred (hmerged : (env.merge reg left right).Ends merged ())
    (hleft : env.Keeps left) (hright : env.Keeps right) {x : String} {t : Ty}
    (h : merged.find? x = some ⟨.inferred, t⟩) :
    ∃ l r, left.find? x = some ⟨.inferred, l⟩ ∧ right.find? x = some ⟨.inferred, r⟩ ∧
      joinTypes reg l r = .ok t := by
  -- merging changes no declared type, so the variable is `var` before the branch too
  have hdeclared : env.declared? x = some .inferred := by
    rw [← declared?_merge hmerged x, declared?, h, Option.map_some]
  obtain ⟨b, hb, hinferred⟩ := Option.map_eq_some_iff.1 hdeclared
  obtain ⟨⟨_, l⟩, hl, rfl, -⟩ := hleft x b hb
  obtain ⟨⟨_, r⟩, hr, rfl, -⟩ := hright x b hb
  obtain ⟨j, hj, hjoin⟩ :=
    current?_merge hmerged hdeclared (current?_of_find? hl) (current?_of_find? hr)
  cases (current?_of_find? h).symm.trans hj
  rw [hinferred] at hl hr
  exact ⟨l, r, hl, hr, hjoin⟩

variable (hwf : WellFounded reg.Unfolds) (hreg : reg.Bodies reg.Settled)
  (hmerged : (env.merge reg left right).Ends merged ()) (hleft : env.Keeps left)
  (hright : env.Keeps right) (hsleft : left.Settled reg) (hsright : right.Settled reg)
  {writes : List (String × Expr)}

include hwf hreg hmerged hleft hright hsleft hsright

/-- A path through either arm is accounted for after the branch. -/
theorem Accounts.merge (h : Accounts reg env writes left ∨ Accounts reg env writes right) :
    Accounts reg env writes merged := by
  intro x t hx
  obtain ⟨l, r, hl, hr, hjoin⟩ := find?_merge_inferred hmerged hleft hright hx
  obtain ⟨ht, htl, htr⟩ := joinTypes_upper hwf hreg (hsleft x l (current?_of_find? hl))
    (hsright x r (current?_of_find? hr)) hjoin
  rcases h with h | h
  · obtain ⟨u, hu, hsettled, hbelow⟩ := h x l hl
    exact ⟨u, hu, hsettled, Registry.below_trans_of_settled hreg hwf ht hsettled htl hbelow⟩
  · obtain ⟨u, hu, hsettled, hbelow⟩ := h x r hr
    exact ⟨u, hu, hsettled, Registry.below_trans_of_settled hreg hwf ht hsettled htr hbelow⟩

end Branches

end Env

/-! ## Statements -/

section Statements

variable {ctx : Context}

section Assigning

variable (hreg : ctx.registry.AllSettled)

include hreg

/-- An assignment accounts for the value it stores. -/
theorem StmtForm.assign_accounts {target value : Expr} {span : Option Span} {env : Env}
    {left : Env × StmtForm} {writes : List (String × Expr)} (henv : env.Settled ctx.registry)
    (hblank : Blank value.slots)
    (h : ((StmtForm.assign target value).check ctx env span).Ends left ())
    (hwrites : writes ∈ Stmt.pathsForm left.2) :
    Env.Accounts ctx.registry env writes left.1 := by
  unfold StmtForm.check at h
  split at h
  · simp only [Visit.ends_andThen, Visit.ends_within] at h
    obtain ⟨target', lt, -, value', rt, hvalue, env', hstore, rfl⟩ := h
    obtain ⟨hrt, hfilled⟩ := Expr.synth_filled hreg.hereditary henv value hblank hvalue
    have hsettled := Expr.of_filled hrt hfilled
    rw [Stmt.pathsForm] at hwrites
    -- a `var` variable takes on the type of the value, anything else keeps its own
    rcases Expr.store_ends hstore with ⟨x, ⟨declared, t⟩, hform, -, hinferred, rfl⟩ |
      ⟨rfl, hfixed, -⟩
    · rw [hform] at hwrites
      cases List.mem_singleton.1 hwrites
      cases hinferred
      exact Env.accounts_insert henv hrt hsettled
    · split at hwrites
      · rename_i x hform
        cases List.mem_singleton.1 hwrites
        exact Env.accounts_of_not_inferred henv (hfixed x hform)
      · cases List.mem_singleton.1 hwrites
        exact Env.accounts_refl henv
  · cases h.2

/-- A declaration with a written type adds no `var` variable. -/
theorem StmtForm.declare_accounts {d : VarDecl} {span : Option Span} {env : Env}
    {left : Env × StmtForm} {writes : List (String × Expr)} (henv : env.Settled ctx.registry)
    (hempty : ∀ s ∈ Stmt.optionSlots d.init, s.Empty) (hcan : d.ty.Canonical)
    (h : ((StmtForm.declare d).check ctx env span).Ends left ())
    (hwrites : writes ∈ Stmt.pathsForm left.2) :
    Env.Accounts ctx.registry env writes left.1 := by
  simp only [StmtForm.check, Visit.ends_andThen, Visit.ends_mk] at h
  obtain ⟨d', _, hd, rfl, -⟩ := h
  cases List.mem_singleton.1 hwrites
  obtain ⟨-, hty, hsettled, -⟩ := VarDecl.check_settled hreg henv hempty hcan hd
  intro x t hx
  by_cases hname : x = d'.name
  · -- the declared variable has a written type, so it is not one that is followed
    subst hname
    rw [Env.find?_put_self] at hx
    have hinferred : d'.ty = .inferred := congrArg Binding.declared (Option.some.inj hx)
    exact absurd (hty.symm.trans hinferred) hsettled.here.ne_inferred
  · rw [Env.find?_put_of_ne env _ hname] at hx
    exact Env.accounts_refl henv x t hx

/-- A `var` declaration accounts for its initial value. -/
theorem StmtForm.infer_accounts {x : String} {cell : Ty} {init : Expr} {span : Option Span}
    {env : Env} {left : Env × StmtForm} {writes : List (String × Expr)}
    (henv : env.Settled ctx.registry) (hblank : Blank init.slots)
    (h : ((StmtForm.infer x cell init).check ctx env span).Ends left ())
    (hwrites : writes ∈ Stmt.pathsForm left.2) :
    Env.Accounts ctx.registry env writes left.1 := by
  unfold StmtForm.check at h
  split at h
  · cases h.2
  · simp only [Visit.ends_andThen] at h
    obtain ⟨init', t, hinit, h⟩ := h
    split at h
    · -- the initial value is what the path stores first
      obtain ⟨rfl, -⟩ := Visit.ends_mk.1 h
      cases List.mem_singleton.1 hwrites
      obtain ⟨ht, hfilled⟩ := Expr.synth_filled hreg.hereditary henv init hblank hinit
      exact Env.accounts_insert henv ht (Expr.of_filled ht hfilled)
    · cases h.2

end Assigning

mutual
/-- The environment that the check of a statement ends in accounts for each of its paths. -/
theorem Stmt.check_accounts (hreg : ctx.registry.AllSettled)
    (hwf : WellFounded ctx.registry.Unfolds) : ∀ (s : Stmt) {env env' : Env} {s' : Stmt}
    {writes : List (String × Expr)}, env.Settled ctx.registry → (∀ slot ∈ s.slots, slot.Empty) →
      (∀ t ∈ s.writtenTypes, t.Canonical) → (s.check ctx env).Ends (env', s') () →
        writes ∈ s'.paths → Env.Accounts ctx.registry env writes env'
  | ⟨form, span⟩, env, env', s', writes, henv, hempty, hcan, h, hwrites => by
    rw [Stmt.check, Visit.ends_within] at h
    obtain ⟨left, hform, hleft⟩ := h
    cases hleft
    exact StmtForm.check_accounts hreg hwf form henv hempty hcan hform hwrites

/-- By cases on the statement. Statements with loops or jumps have no paths here. -/
theorem StmtForm.check_accounts (hreg : ctx.registry.AllSettled)
    (hwf : WellFounded ctx.registry.Unfolds) : ∀ (form : StmtForm) {span : Option Span} {env : Env}
    {left : Env × StmtForm} {writes : List (String × Expr)}, env.Settled ctx.registry →
      (∀ slot ∈ Stmt.slotsForm form, slot.Empty) → (∀ t ∈ Stmt.writtenForm form, t.Canonical) →
        (form.check ctx env span).Ends left () → writes ∈ Stmt.pathsForm left.2 →
          Env.Accounts ctx.registry env writes left.1
  | .assign target value, span, env, left, writes, henv, hempty, hcan, h, hwrites => by
    rw [Stmt.slotsForm, List.forall_mem_append, Stmt.empty_exprSlots,
      Stmt.empty_exprSlots] at hempty
    exact StmtForm.assign_accounts hreg henv hempty.2 h hwrites
  | .infer x cell init, span, env, left, writes, henv, hempty, hcan, h, hwrites => by
    rw [Stmt.slotsForm, List.forall_mem_cons, Stmt.empty_exprSlots] at hempty
    exact StmtForm.infer_accounts hreg henv hempty.2 h hwrites
  | .declare d, span, env, left, writes, henv, hempty, hcan, h, hwrites =>
    StmtForm.declare_accounts hreg henv hempty (hcan d.ty (List.mem_singleton_self _)) h hwrites
  | .ifElse condition onTrue onFalse, span, env, left, writes, henv, hempty, hcan, h, hwrites => by
    simp only [Stmt.slotsForm, List.forall_mem_append] at hempty
    obtain ⟨⟨-, htrue⟩, hfalse⟩ := hempty
    rw [Stmt.writtenForm, List.forall_mem_append] at hcan
    simp only [StmtForm.check, Visit.ends_andThen, Visit.ends_within, Visit.ends_orAt] at h
    obtain ⟨condition', _, -, l, _, hl, r, _, hr, merged, hmerged, rfl⟩ := h
    -- the paths of a branch are those of its arms, and the merged type is above both
    have hkeepsl := (Stmt.checkAll_keeps ctx env onTrue).of_ends hl
    have hkeepsr := (Stmt.checkAll_keeps ctx env onFalse).of_ends hr
    obtain ⟨hsl, -⟩ := Stmt.checkAll_settles hwf hreg onTrue henv htrue hcan.1 hl
    obtain ⟨hsr, -⟩ := Stmt.checkAll_settles hwf hreg onFalse henv hfalse hcan.2 hr
    refine Env.Accounts.merge hwf hreg.bodies hmerged hkeepsl hkeepsr hsl hsr ?_
    exact (List.mem_append.1 hwrites).imp
      (Stmt.checkAll_accounts hreg hwf onTrue henv htrue hcan.1 hl)
      (Stmt.checkAll_accounts hreg hwf onFalse henv hfalse hcan.2 hr)
  | .assert e, span, env, left, writes, henv, hempty, hcan, h, hwrites => by
    rw [StmtForm.check, Visit.ends_within] at h
    obtain ⟨e', -, rfl⟩ := h
    cases List.mem_singleton.1 hwrites
    exact Env.accounts_refl henv
  | .call method args, span, env, left, writes, henv, hempty, hcan, h, hwrites
  | .print e, span, env, left, writes, henv, hempty, hcan, h, hwrites
  | .ret (some e), span, env, left, writes, henv, hempty, hcan, h, hwrites => by
    simp only [StmtForm.check, Visit.ends_andThen, Visit.ends_mk] at h
    obtain ⟨_, _, -, rfl, -⟩ := h
    cases List.mem_singleton.1 hwrites
    exact Env.accounts_refl henv
  | .ret none, span, env, left, writes, henv, hempty, hcan, h, hwrites => by
    obtain ⟨rfl, -⟩ := Visit.ends_mk.1 h
    cases List.mem_singleton.1 hwrites
    exact Env.accounts_refl henv
  -- the rest are not straight-line statements, and have no paths
  | .breakLoop, span, env, left, writes, henv, hempty, hcan, h, hwrites
  | .continueLoop, span, env, left, writes, henv, hempty, hcan, h, hwrites => by
    obtain ⟨rfl, -⟩ := Visit.ends_mk.1 h
    cases hwrites
  | .forLoop d condition step body, span, env, left, writes, henv, hempty, hcan, h, hwrites => by
    simp only [StmtForm.check, Visit.ends_andThen, Visit.ends_within] at h
    obtain ⟨_, _, -, _, _, -, _, _, -, _, -, rfl⟩ := h
    cases hwrites
  | .switchOn selector cases, span, env, left, writes, henv, hempty, hcan, h, hwrites
  | .matchType selector cases, span, env, left, writes, henv, hempty, hcan, h, hwrites
  | .whileLoop selector cases, span, env, left, writes, henv, hempty, hcan, h, hwrites => by
    simp only [StmtForm.check, Visit.ends_andThen, Visit.ends_within] at h
    obtain ⟨_, _, -, _, -, rfl⟩ := h
    cases hwrites

/-- A path through a block is a path through its first statement and then one through the others. -/
theorem Stmt.checkAll_accounts (hreg : ctx.registry.AllSettled)
    (hwf : WellFounded ctx.registry.Unfolds) :
    ∀ (ss : List Stmt) {env : Env} {left : Env × List Stmt}
    {writes : List (String × Expr)}, env.Settled ctx.registry →
      (∀ slot ∈ Stmt.slotsAll ss, slot.Empty) → (∀ t ∈ Stmt.writtenAll ss, t.Canonical) →
        (Stmt.checkAll ctx env ss).Ends left () → writes ∈ Stmt.pathsAll left.2 →
          Env.Accounts ctx.registry env writes left.1
  | [], env, left, writes, henv, hempty, hcan, h, hwrites => by
    obtain ⟨rfl, -⟩ := Visit.ends_mk.1 h
    cases List.mem_singleton.1 hwrites
    exact Env.accounts_refl henv
  | s :: ss, env, left, writes, henv, hempty, hcan, h, hwrites => by
    rw [Stmt.slotsAll, List.forall_mem_append] at hempty
    rw [Stmt.writtenAll, List.forall_mem_append] at hcan
    simp only [Stmt.checkAll, Visit.ends_andThen, Visit.ends_within] at h
    obtain ⟨⟨env₁, s'⟩, _, hs, ⟨env₂, rest⟩, hrest, rfl⟩ := h
    simp only [Stmt.pathsAll, List.mem_flatMap, List.mem_map] at hwrites
    -- a path through the block is one through the statement and one through the rest
    obtain ⟨writes₁, hwrites₁, writes₂, hwrites₂, rfl⟩ := hwrites
    have hkeeps := (Stmt.checkAll_keeps ctx env₁ ss).of_ends hrest
    obtain ⟨henv₁, -⟩ := Stmt.check_settles hwf hreg s henv hempty.1 hcan.1 hs
    obtain ⟨henv₂, -⟩ := Stmt.checkAll_settles hwf hreg ss henv₁ hempty.2 hcan.2 hrest
    have hfirst := Stmt.check_accounts hreg hwf s henv hempty.1 hcan.1 hs hwrites₁
    have hlater := Stmt.checkAll_accounts hreg hwf ss henv₁ hempty.2 hcan.2 hrest hwrites₂
    exact hfirst.trans hwf hreg.bodies hlater hkeeps henv₂
end

end Statements

/-! ## Accepted files -/

/-- The check of the block ends in an environment that covers each path through the block: the type
that a `var` variable holds there accepts what the variable has last received on the path. -/
def Stmt.PathsCovered (ctx : Context) (env : Env) (body : List Stmt) : Prop :=
  ∃ env' body', (Stmt.checkAll ctx env body).Ends (env', body') () ∧
    ∀ writes ∈ Stmt.pathsAll body', ∀ x t, env'.find? x = some ⟨.inferred, t⟩ →
      ∃ u, env.received writes x = some u ∧ ctx.registry.isSubtype t u = .ok true

/-- What is below is what the subtype check accepts, in settled surroundings. -/
theorem Stmt.Prepared.pathsCovered {ctx : Context} {env : Env} {body : List Stmt}
    (hwf : WellFounded ctx.registry.Unfolds) (hreg : ctx.registry.AllSettled)
    (h : Stmt.Prepared ctx env body) : Stmt.PathsCovered ctx env body := by
  have hends : (Stmt.checkAll ctx env body).Ends (Stmt.checkAll ctx env body).left () :=
    ⟨rfl, h.passes⟩
  refine ⟨_, _, hends, fun writes hwrites x t hx => ?_⟩
  obtain ⟨hsettled, -⟩ :=
    Stmt.checkAll_settles hwf hreg body h.settled h.empty h.canonical hends
  obtain ⟨u, hu, hu', hbelow⟩ :=
    Stmt.checkAll_accounts hreg hwf body h.settled h.empty h.canonical hends hwrites x t hx
  have ht := hsettled x t (Env.current?_of_find? hx)
  exact ⟨u, hu, (Registry.isSubtype_iff_below_of_settled hreg.bodies ht hu').2 hbelow⟩

/-- In an accepted file, the check of every block of a method covers each path through the block. -/
theorem File.accepted_paths_covered {f : File} (hfresh : f.Fresh) (hcan : f.Canonical)
    (haccepted : f.check.value.2 = .ok ()) :
    ∃ reg, (Registry.build f).result = .ok reg ∧
      ∀ d ∈ f.methodDecls, ∃ env, Parameter.bindAll reg d.span {} d.params = .ok env ∧
        ∀ p ∈ (env, d.body) :: Stmt.blocksAll ⟨reg, d.ret⟩ env d.body,
          Stmt.PathsCovered ⟨reg, d.ret⟩ p.1 p.2 := by
  obtain ⟨reg, hbuild, hpasses⟩ := File.check_eq_ok haccepted
  refine ⟨reg, hbuild, fun d hd => ?_⟩
  obtain ⟨env, henv, hblocks⟩ := File.prepared hcan hbuild hpasses hfresh hd
  exact ⟨env, henv, fun p hp => (hblocks p hp).pathsCovered (Registry.wellFounded_unfolds hbuild)
    (File.allSettled hcan hbuild hpasses)⟩

/-- A variable that is left with a different type by each of three paths. -/
def divergentBody : List Stmt :=
  [{ form := .infer "x" .inferred { form := .constant (.int 1) } },
    { form := .ifElse { form := .var "c" }
        [{ form := .assign { form := .var "x" } { form := .constant (.bool true) } }]
        [{ form := .ifElse { form := .var "c" }
            [{ form := .assign { form := .var "x" } { form := .constant (.string "s") } }] [] }] }]

/-- A method with the body above and a truth value to branch on. -/
def divergentMethod : MethodDecl where
  name := "m"
  params := [{ name := "c", ty := .bool }]
  ret := .void
  body := divergentBody

/-- There are three paths, and the type of the variable at the end covers what each of them
stores. -/
theorem File.accepted_paths_covered_divergent :
    let f : File := { decls := [.method divergentMethod] }
    let ctx : Context := ⟨.ofFile f, .void⟩
    let env : Env := { bindings := [("c", ⟨.bool, .bool⟩)] }
    (f.Fresh ∧ f.Canonical ∧ f.check.value.2 = .ok ()) ∧
      (Stmt.pathsAll (Stmt.checkAll ctx env divergentBody).left.2).length = 3 ∧
      (Stmt.checkAll ctx env divergentBody).left.1.current? "x" =
        some (.union [.bool, .string, .int]) ∧
      Stmt.PathsCovered ctx env divergentBody := by
  intro f ctx env
  have hfresh : f.Fresh := by decide +kernel
  have hcan : f.Canonical := by decide +kernel
  have haccepted : f.check.value.2 = .ok () := by decide +kernel
  refine ⟨⟨hfresh, hcan, haccepted⟩, by decide +kernel, by decide +kernel, ?_⟩
  obtain ⟨reg, hbuild, hcovered⟩ := File.accepted_paths_covered hfresh hcan haccepted
  obtain ⟨rfl, -⟩ := Registry.build_ok hbuild
  obtain ⟨env', henv', hblocks⟩ := hcovered divergentMethod (List.mem_singleton_self _)
  have hbound : Parameter.bindAll (.ofFile f) none {} divergentMethod.params = .ok env := by rfl
  -- the block starts from the environment that binding the parameters gives
  cases hbound.symm.trans henv'
  exact hblocks (env, divergentBody) (List.mem_cons_self ..)

end WhileTyping
