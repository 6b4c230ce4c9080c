import Mathlib.Data.List.Nodup
import Mathlib.Tactic.ByContra
import WhileTyping.Proofs.LoopFlow
import WhileTyping.Proofs.TypingRules

/-!
# What a block adds to its environment

A block adds variables to the environment around it, and the check of the block is what adds them. A
declaration adds its name if it stands in the block itself, or in a `while` body or a `switch` case
within it, however deep. What is declared in an arm of an `if`, in a `for` loop or in a `match` case
is gone after it.

* **`Stmt.additionsAll`**: the variables that a block adds, in the order of the text.
* **`Env.Adds`**: an environment has the names of another and those of some additions, which are new
  and distinct, and binds each addition as it was declared.
* **`Env.Adds.append`**: additions come one after another. A later statement may change the type
  that an added `var` variable holds, and leaves the other additions alone.
* **`Stmt.checkAll_adds`**: a block that passes its check adds its additions, by induction on the
  statements.
* **`Stmt.checkAll_scope`**: the whole discipline, for checks that succeed and for checks that fail.
-/

namespace WhileTyping

/-! ## Additions -/

/-- A variable that a block adds to the environment around it. A `var` variable has no written
type. -/
structure Addition where
  name : String
  written : Option Ty
  deriving DecidableEq

/-- How an added variable is bound: with its written type, or as a `var` variable. No written type
is `var`, so the two are told apart by the binding. -/
def Addition.BoundAs (a : Addition) (b : Binding) : Prop :=
  match a.written with
  | some t => t ≠ .inferred ∧ b = ⟨t, t⟩
  | none => b.declared = .inferred

namespace Stmt

mutual
/-- The variables that a statement adds to the environment around it. -/
def additions : Stmt → List Addition
  | ⟨form, _⟩ => additionsForm form

def additionsForm : StmtForm → List Addition
  | .declare d => [⟨d.name, some d.ty⟩]
  | .infer x _ _ => [⟨x, none⟩]
  | .whileLoop _ body => additionsAll body
  | .switchOn _ cases => additionsSwitch cases
  -- what is declared in these has a scope of its own
  | .ifElse _ _ _ | .forLoop _ _ _ _ | .matchType _ _ => []
  | .assert _ | .assign _ _ | .breakLoop | .continueLoop | .call _ _ | .print _ | .ret _ => []

def additionsAll : List Stmt → List Addition
  | [] => []
  | s :: ss => additions s ++ additionsAll ss

def additionsSwitch : List SwitchCase → List Addition
  | [] => []
  | ⟨_, body⟩ :: cs => additionsAll body ++ additionsSwitch cs
end

end Stmt

/-! ## Environments -/

namespace Env

/-- The second environment has the variables of the first and the additions, which are new and of
distinct names. -/
structure Adds (env : Env) (added : List Addition) (env' : Env) : Prop where
  names : ∀ x, env'.contains x = true ↔ env.contains x = true ∨ x ∈ added.map Addition.name
  new : ∀ a ∈ added, env.contains a.name = false
  distinct : (added.map Addition.name).Nodup
  bound : ∀ a ∈ added, ∃ b, env'.find? a.name = some b ∧ a.BoundAs b

variable {env env₁ env₂ : Env}

/-- Binding a name adds that name to the scope and no other. -/
theorem contains_insert (env : Env) (x y : String) (b : Binding) :
    (env.insert x b).contains y = true ↔ env.contains y = true ∨ y = x := by
  unfold contains
  by_cases hy : y = x
  · subst hy
    rw [find?_insert_self]
    simp
  · rw [find?_insert_of_ne env b hy]
    simp [hy]

/-- Nothing is added where the names stay the same. -/
theorem adds_nil (h : ∀ x, env₁.contains x = true ↔ env.contains x = true) : env.Adds [] env₁ where
  names x := by simp [h x]
  new a ha := absurd ha List.not_mem_nil
  distinct := List.nodup_nil
  bound a ha := absurd ha List.not_mem_nil

theorem adds_refl (env : Env) : env.Adds [] env := adds_nil fun _ => .rfl

/-- A new name is an addition of its own. -/
theorem adds_insert {a : Addition} {b : Binding} (hnew : env.contains a.name = false)
    (hb : a.BoundAs b) : env.Adds [a] (env.insert a.name b) where
  names x := by
    rw [contains_insert, List.map_singleton, List.mem_singleton]
  new a' ha' := by
    rw [List.mem_singleton] at ha'
    exact ha' ▸ hnew
  distinct := List.nodup_singleton _
  bound a' ha' := by
    rw [List.mem_singleton] at ha'
    subst ha'
    exact ⟨b, find?_insert_self env a'.name b, hb⟩

/-- A variable stays bound as it was declared. -/
theorem Keeps.boundAs (hkeeps : env.Keeps env₁) {a : Addition} {b : Binding}
    (hfind : env.find? a.name = some b) (hb : a.BoundAs b) :
    ∃ b₁, env₁.find? a.name = some b₁ ∧ a.BoundAs b₁ := by
  obtain ⟨b₁, hfind₁, hdeclared, hfixed⟩ := hkeeps a.name b hfind
  refine ⟨b₁, hfind₁, ?_⟩
  unfold Addition.BoundAs at hb ⊢
  cases hwritten : a.written with
  | none =>
    rw [hwritten] at hb
    exact hdeclared.trans hb
  | some t =>
    rw [hwritten] at hb
    obtain ⟨ht, rfl⟩ := hb
    exact ⟨ht, hfixed ht⟩

/-- One block after another adds the additions of both. -/
theorem Adds.append {added added₁ : List Addition} (h : env.Adds added env₁)
    (h₁ : env₁.Adds added₁ env₂) (hkeeps : env₁.Keeps env₂) :
    env.Adds (added ++ added₁) env₂ := by
  -- the second block adds what neither the environment nor the first block has
  have hnew₁ : ∀ a ∈ added₁, env.contains a.name = false ∧ a.name ∉ added.map Addition.name := by
    intro a ha
    have hfalse := h₁.new a ha
    constructor
    · by_contra hbound
      have htrue := (h.names a.name).2 (.inl (by simpa using hbound))
      rw [hfalse] at htrue
      cases htrue
    · intro hmem
      have htrue := (h.names a.name).2 (.inr hmem)
      rw [hfalse] at htrue
      cases htrue
  constructor
  · intro x
    rw [h₁.names x, h.names x, List.map_append, List.mem_append, or_assoc]
  · rw [List.forall_mem_append]
    exact ⟨h.new, fun a ha => (hnew₁ a ha).1⟩
  · rw [List.map_append, List.nodup_append]
    refine ⟨h.distinct, h₁.distinct, fun x hx y hy hxy => ?_⟩
    obtain ⟨a, ha, rfl⟩ := List.mem_map.1 hy
    exact (hnew₁ a ha).2 (hxy ▸ hx)
  · rw [List.forall_mem_append]
    refine ⟨fun a ha => ?_, h₁.bound⟩
    obtain ⟨b, hfind, hb⟩ := h.bound a ha
    exact hkeeps.boundAs hfind hb

/-- A branch leaves the names as they were before it. -/
theorem contains_merge {reg : Registry} {left right merged : Env}
    (h : (env.merge reg left right).Ends merged ()) (x : String) :
    merged.contains x = true ↔ env.contains x = true := by
  unfold contains
  rcases find?_merge h x with ⟨hnone, hnone'⟩ | ⟨b, b', hb, hb', -⟩
  · rw [hnone, hnone']
  · rw [hb, hb']
    simp

end Env

/-! ## Statements that pass their check -/

section Statements

variable {ctx : Context}

/-- A declaration adds its name with the written type, which the check keeps from being `var`. -/
theorem StmtForm.declare_adds {d : VarDecl} {span : Option Span} {env : Env}
    {left : Env × StmtForm} (h : ((StmtForm.declare d).check ctx env span).Ends left ()) :
    env.Adds [⟨d.name, some d.ty⟩] left.1 := by
  obtain ⟨d', hd, rfl⟩ := StmtForm.declare_ends h
  obtain ⟨hnew, hty, -⟩ := VarDecl.check_ends hd
  have hkept := d.check_left ctx env span
  rw [hd.1] at hkept
  rw [hkept.1, hkept.2]
  have hne : d.ty ≠ .inferred := Registry.ne_inferred_of_expectValueType hty
  exact Env.adds_insert (a := ⟨d.name, some d.ty⟩) hnew ⟨hne, rfl⟩

mutual
/-- A statement that passes its check adds its additions. -/
theorem Stmt.check_adds : ∀ (s : Stmt) {env env' : Env} {s' : Stmt},
    (s.check ctx env).Ends (env', s') () → env.Adds s.additions env'
  | ⟨form, span⟩, env, env', s', h => by
    obtain ⟨form', hform, -⟩ := Stmt.check_ends h
    exact StmtForm.check_adds form hform

/-- By cases on the statement. A `for` loop, a `match` and the arms of an `if` add nothing, since
the environment they have worked on is dropped or merged. -/
theorem StmtForm.check_adds : ∀ (form : StmtForm) {span : Option Span} {env : Env}
    {left : Env × StmtForm}, (form.check ctx env span).Ends left () →
      env.Adds (Stmt.additionsForm form) left.1
  | .assert e, span, env, left, h => by
    obtain ⟨e', -, rfl⟩ := StmtForm.assert_ends h
    exact env.adds_refl
  | .assign target value, span, env, left, h => by
    obtain ⟨target', lt, value', rt, env', -, -, hstore, rfl⟩ := StmtForm.assign_ends h
    rcases Expr.store_ends hstore with ⟨x, b, -, hb, -, rfl⟩ | ⟨rfl, -⟩
    -- the variable that takes on a type is one of those in scope
    · refine Env.adds_nil fun y => ?_
      rw [Env.contains_insert]
      constructor
      · rintro (hy | rfl)
        · exact hy
        · rw [Env.contains, hb, Option.isSome_some]
      · exact .inl
    · exact env'.adds_refl
  | .breakLoop, span, env, left, h | .continueLoop, span, env, left, h => by
    obtain ⟨rfl, -⟩ := Visit.ends_mk.1 h
    exact env.adds_refl
  | .forLoop d condition step body, span, env, left, h => by
    obtain ⟨d', condition', env₁, step', inner, -, -, -, -, -, rfl⟩ := StmtForm.forLoop_ends h
    exact env.adds_refl
  | .ifElse condition onTrue onFalse, span, env, left, h => by
    obtain ⟨condition', l, r, merged, -, -, -, hmerged, rfl⟩ := StmtForm.ifElse_ends h
    exact Env.adds_nil (Env.contains_merge hmerged)
  | .call method args, span, env, left, h => by
    obtain ⟨sig, args', -, -, -, rfl⟩ := StmtForm.call_ends h
    exact env.adds_refl
  | .print e, span, env, left, h => by
    obtain ⟨e', t, -, rfl⟩ := StmtForm.print_ends h
    exact env.adds_refl
  | .ret none, span, env, left, h => by
    obtain ⟨-, rfl⟩ := StmtForm.retVoid_ends h
    exact env.adds_refl
  | .ret (some e), span, env, left, h => by
    obtain ⟨e', t, -, -, rfl⟩ := StmtForm.ret_ends h
    exact env.adds_refl
  | .switchOn selector cases, span, env, left, h => by
    obtain ⟨selector', t, env₁, cases', -, hcs, rfl⟩ := StmtForm.switchOn_ends h
    exact SwitchCase.checkAll_adds cases hcs
  | .matchType selector cases, span, env, left, h => by
    obtain ⟨selector', t, cases', -, -, rfl⟩ := StmtForm.matchType_ends h
    exact env.adds_refl
  | .declare d, span, env, left, h => StmtForm.declare_adds h
  | .infer x cell init, span, env, left, h => by
    obtain ⟨init', t, hnew, -, rfl⟩ := StmtForm.infer_ends h
    exact Env.adds_insert (a := ⟨x, none⟩) hnew rfl
  | .whileLoop condition body, span, env, left, h => by
    obtain ⟨condition', env₁, body', -, hbody, rfl⟩ := StmtForm.whileLoop_ends h
    exact Stmt.checkAll_adds body hbody

/-- A block that passes its check adds the additions of its statements, one after another. -/
theorem Stmt.checkAll_adds : ∀ (ss : List Stmt) {env env' : Env} {ss' : List Stmt},
    (Stmt.checkAll ctx env ss).Ends (env', ss') () → env.Adds (Stmt.additionsAll ss) env'
  | [], env, env', ss', h => by
    cases h.1
    exact env.adds_refl
  | s :: ss, env, env', ss', h => by
    obtain ⟨env₁, s', env₂, rest, hs, hrest, hleft⟩ := Stmt.cons_ends h
    cases hleft
    have hkeeps := (Stmt.checkAll_keeps ctx env₁ ss).of_ends hrest
    exact (Stmt.check_adds s hs).append (Stmt.checkAll_adds ss hrest) hkeeps

/-- The cases of a `switch` share one environment, so each adds to what the earlier ones have
added. -/
theorem SwitchCase.checkAll_adds : ∀ (cs : List SwitchCase) {selector : Ty} {env env' : Env}
    {cs' : List SwitchCase}, (SwitchCase.checkAll ctx selector env cs).Ends (env', cs') () →
      env.Adds (Stmt.additionsSwitch cs) env'
  | [], selector, env, env', cs', h => by
    cases h.1
    exact env.adds_refl
  | ⟨value, body⟩ :: cs, selector, env, env', cs', h => by
    obtain ⟨value', env₁, body', env₂, rest, -, hbody, hrest, hleft⟩ := SwitchCase.cons_ends h
    cases hleft
    have hkeeps := (SwitchCase.checkAll_keeps ctx selector env₁ cs).of_ends hrest
    exact (Stmt.checkAll_adds body hbody).append (SwitchCase.checkAll_adds cs hrest) hkeeps
end

end Statements

/-! ## The discipline of scopes -/

/-- Whether the check of a block succeeds or fails, the variables in scope stay in scope, and at
most the types that `var` variables hold change. A block that passes its check adds its additions
and nothing else. The check of a `for` loop or of a `match` ends in the environment that it started
in, however it ends. -/
theorem Stmt.checkAll_scope (ctx : Context) (env : Env) (ss : List Stmt) :
    env.Keeps (Stmt.checkAll ctx env ss).left.1 ∧
      ((Stmt.checkAll ctx env ss).run.result = .ok () →
        env.Adds (Stmt.additionsAll ss) (Stmt.checkAll ctx env ss).left.1) ∧
      ∀ s : Stmt, s.form.hasOwnScope = true → (s.check ctx env).left.1 = env := by
  refine ⟨Stmt.checkAll_keeps ctx env ss, fun hpasses => ?_, fun s hs => ?_⟩
  · have hends : (Stmt.checkAll ctx env ss).Ends (Stmt.checkAll ctx env ss).left () :=
      ⟨rfl, hpasses⟩
    exact Stmt.checkAll_adds ss hends
  · exact Stmt.left_of_hasOwnScope hs

/-- Declarations in all kinds of blocks. The `match` case has a variable of the name of a parameter,
and the `if` changes the type of a `var` variable in one of its arms. -/
def nestedBlock : List Stmt := [
  { form := .whileLoop { form := .var "c" }
      [{ form := .declare ⟨"n", .int, some { form := .constant (.int 1) }⟩ }] },
  { form := .switchOn { form := .var "n" }
      [⟨none, [{ form := .infer "y" .inferred { form := .var "n" } }]⟩] },
  { form := .ifElse { form := .var "c" }
      [{ form := .declare ⟨"z", .int, none⟩ },
        { form := .assign { form := .var "y" } { form := .var "c" } }] [] },
  { form := .forLoop ⟨"i", .int, some { form := .var "n" }⟩ { form := .var "c" }
      { form := .assign { form := .var "i" } { form := .var "n" } }
      [{ form := .infer "w" .inferred { form := .var "i" } }] },
  { form := .matchType { form := .var "c" }
      [{ ty := .bool, name := "c", body := [{ form := .declare ⟨"v", .int, none⟩ }] }] }]

/-- A `while` body that fails after it has declared a variable. -/
def brokenBlock : List Stmt := [
  { form := .whileLoop { form := .var "c" }
      [{ form := .infer "y" .inferred { form := .var "c" } },
        { form := .print { form := .var "missing" } }] }]

/-- The truth value `c` in scope. -/
def truthEnv : Env := ({} : Env).put "c" .bool

/-- Names in the order opposite to the one in which they were bound. -/
def VisitOrder.reversed : VisitOrder := ⟨List.reverse, List.reverse_perm⟩

/-- Two `var` variables in scope, and a variable of a type that is not declared. -/
def ghostEnv (order : VisitOrder) : Env where
  bindings :=
    [("c", ⟨.bool, .bool⟩), ("x", ⟨.inferred, .int⟩), ("y", ⟨.inferred, .int⟩),
      ("g", ⟨.named "Ghost", .named "Ghost"⟩)]
  order := order

/-- A branch after which `x` can be merged and `y` cannot. -/
def ghostBlock : List Stmt := [
  { form := .ifElse { form := .var "c" }
      [{ form := .assign { form := .var "x" } { form := .constant (.bool true) } },
        { form := .assign { form := .var "y" } { form := .var "g" } }] [] }]

/-- A block that passes adds the two variables that its `while` body and its `switch` case declare.
A block that fails within a `while` body leaves what the body has declared. A block that fails after
a branch leaves `x` merged if it is visited before `y`, and untouched if it is visited after. -/
theorem Stmt.checkAll_scope_nested :
    ((Stmt.checkAll {} truthEnv nestedBlock).run.result = .ok () ∧
      truthEnv.Adds [⟨"n", some .int⟩, ⟨"y", none⟩]
        (Stmt.checkAll {} truthEnv nestedBlock).left.1 ∧
      (∀ x ∈ ["z", "i", "w", "v"],
        (Stmt.checkAll {} truthEnv nestedBlock).left.1.contains x = false) ∧
      (Stmt.checkAll {} truthEnv nestedBlock).left.1.find? "y" =
        some ⟨.inferred, .union [.bool, .int]⟩) ∧
    (Stmt.checkAll {} truthEnv brokenBlock).run.result =
        .error ⟨.undeclaredVariable "missing", none⟩ ∧
      truthEnv.Keeps (Stmt.checkAll {} truthEnv brokenBlock).left.1 ∧
      (Stmt.checkAll {} truthEnv brokenBlock).left.1.contains "y" = true ∧
    ∀ p ∈ [(VisitOrder.asBound, Ty.union [.bool, .int]), (VisitOrder.reversed, Ty.int)],
      (Stmt.checkAll {} (ghostEnv p.1) ghostBlock).run.result =
          .error ⟨.unknownType "Ghost", none⟩ ∧
        (ghostEnv p.1).Keeps (Stmt.checkAll {} (ghostEnv p.1) ghostBlock).left.1 ∧
        (Stmt.checkAll {} (ghostEnv p.1) ghostBlock).left.1.find? "x" =
          some ⟨.inferred, p.2⟩ := by
  have hpasses : (Stmt.checkAll {} truthEnv nestedBlock).run.result = .ok () := by decide +kernel
  obtain ⟨-, hadds, -⟩ := Stmt.checkAll_scope {} truthEnv nestedBlock
  obtain ⟨hkeeps, -, -⟩ := Stmt.checkAll_scope {} truthEnv brokenBlock
  have hadds := hadds hpasses
  -- names bound in nested blocks are neither there before nor among the additions
  have hgone : ∀ x ∈ ["z", "i", "w", "v"],
      (Stmt.checkAll {} truthEnv nestedBlock).left.1.contains x = false := by
    intro x hx
    have hnot : ¬ (truthEnv.contains x = true ∨
        x ∈ (Stmt.additionsAll nestedBlock).map Addition.name) := by
      revert x
      decide
    rw [← hadds.names x] at hnot
    simpa using hnot
  refine ⟨⟨hpasses, hadds, hgone, by decide +kernel⟩, by decide +kernel, hkeeps,
    by decide +kernel, ?_⟩
  rw [List.forall_mem_cons, List.forall_mem_singleton]
  have hbound := Stmt.checkAll_scope {} (ghostEnv .asBound) ghostBlock
  have hreversed := Stmt.checkAll_scope {} (ghostEnv .reversed) ghostBlock
  exact ⟨⟨by decide +kernel, hbound.1, by decide +kernel⟩, by decide +kernel, hreversed.1,
    by decide +kernel⟩

end WhileTyping
