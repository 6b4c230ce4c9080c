import Mathlib.Data.List.Nodup
import Mathlib.Logic.Relation
import WhileTyping.Proofs.BuiltRegistry

/-!
# Which files have a registry

`Registry.build` refuses a file for one of three reasons and otherwise gives a registry. This module
says for every file which it is, in terms of the declarations alone.

* **`FirstRepeat`**: the first element of a list whose name has come before, which is what
  `firstRepeated` looks for.
* **`File.Refers`**: the body of one alias names another outside arrays and records. A circle is a
  chain of such references that comes back to its start (`File.OnCircle`).
* **`findCycle_sound`**: the name at which a walk stops is on a circle, and the walk has come to it
  from where it started. The induction carries that every alias on the path leads to every name
  that is still to be looked at.
* **`not_leadsToCircle_of_acc`**: conversely a walk that finds nothing has seen all that unfolding
  leads to, and on a circle unfolding would go on for ever.
* **`Registry.Reflects`**: the look-ups answer with what the file declares.
-/

namespace WhileTyping

open Relation (TransGen ReflTransGen)

/-! ## Repeated names -/

/-- The first element of a list whose name is the name of an earlier one. -/
def FirstRepeat {α : Type} (name : α → String) (l : List α) (a : α) : Prop :=
  ∃ before after, l = before ++ a :: after ∧ (before.map name).Nodup ∧ name a ∈ before.map name

section Repeats

variable {α : Type} {name : α → String}

/-- The search from some point of a list on, when the names before that point are distinct and are
the names seen. -/
theorem firstRepeated_cases (before rest : List α) {seen : List String}
    (hseen : ∀ n, n ∈ seen ↔ n ∈ before.map name) (hnodup : (before.map name).Nodup) :
    (firstRepeated name seen rest = none ∧ ((before ++ rest).map name).Nodup) ∨
      ∃ a, firstRepeated name seen rest = some a ∧ FirstRepeat name (before ++ rest) a := by
  induction rest generalizing before seen with
  | nil => exact .inl ⟨rfl, by simpa using hnodup⟩
  | cons a rest ih =>
    rw [firstRepeated]
    split
    · -- a name that was seen before is the first to be repeated
      rename_i ha
      exact .inr ⟨a, rfl, before, rest, rfl, hnodup, (hseen _).1 ha⟩
    · rename_i ha
      -- the name joins those that were seen, and the declaration those that went before
      have hnew : name a ∉ before.map name := fun h => ha ((hseen _).2 h)
      have hseen' : ∀ n, n ∈ name a :: seen ↔ n ∈ (before ++ [a]).map name := by
        intro n
        rw [List.map_append, List.mem_append, List.mem_cons, hseen, or_comm]
        simp
      have hnodup' : ((before ++ [a]).map name).Nodup := by
        rw [List.map_append, List.map_singleton]
        exact List.nodup_append.2 ⟨hnodup, List.nodup_singleton _, by grind⟩
      have hsplit : before ++ a :: rest = (before ++ [a]) ++ rest := by simp
      rw [hsplit]
      exact ih (before ++ [a]) hseen' hnodup'

/-- A declaration that repeats an earlier name is there only if names repeat. -/
theorem FirstRepeat.not_nodup {l : List α} {a : α} (h : FirstRepeat name l a) :
    ¬ (l.map name).Nodup := by
  obtain ⟨before, after, rfl, -, hmem⟩ := h
  rw [List.map_append, List.map_cons]
  exact fun hnodup =>
    absurd rfl ((List.nodup_append.1 hnodup).2.2 _ hmem _ (List.mem_cons_self ..))

/-- Distinct names are not refused. -/
theorem firstRepeated_of_nodup {l : List α} (h : (l.map name).Nodup) :
    firstRepeated name [] l = none := by
  rcases firstRepeated_cases [] l (fun _ => .rfl) .nil with ⟨hnone, -⟩ | ⟨a, -, hrepeat⟩
  · exact hnone
  · exact absurd h hrepeat.not_nodup

/-- If a name is repeated, the declaration that is found first to do so is the first there is. -/
theorem exists_firstRepeat {l : List α} (h : ¬ (l.map name).Nodup) :
    ∃ a, firstRepeated name [] l = some a ∧ FirstRepeat name l a := by
  rcases firstRepeated_cases [] l (fun _ => .rfl) .nil with ⟨-, hnodup⟩ | hrepeat
  · exact absurd hnodup h
  · exact hrepeat

end Repeats

/-! ## References -/

namespace Ty

mutual
/-- The names that stand in a type outside arrays and records. -/
def exposed : Ty → List String
  | .named n => [n]
  | .union ts => exposedAll ts
  | .void | .bool | .char | .int | .string | .inferred | .array _ | .record _ => []

def exposedAll : List Ty → List String
  | [] => []
  | t :: ts => exposed t ++ exposedAll ts
end

/-- A union exposes what its members do. -/
theorem mem_exposedAll {n : String} {ts : List Ty} :
    n ∈ exposedAll ts ↔ ∃ t ∈ ts, n ∈ t.exposed := by
  induction ts with
  | nil => simp [exposedAll]
  | cons t ts ih => simp [exposedAll, ih]

end Ty

namespace File

/-- The body of the first alias names the second outside arrays and records. -/
def Refers (f : File) (m n : String) : Prop := ∃ d ∈ f.aliasDecls, d.name = m ∧ n ∈ d.ty.exposed

/-- The alias comes back to itself along references. Each alias that is passed has a reference of
its own and so is declared. -/
def OnCircle (f : File) (n : String) : Prop := TransGen f.Refers n n

/-- Some circle can be reached from the alias. -/
def LeadsToCircle (f : File) (n : String) : Prop := ∃ m, ReflTransGen f.Refers n m ∧ f.OnCircle m

end File

namespace Registry

/-- The look-ups of the registry answer with the declarations of the file. -/
structure Reflects (reg : Registry) (f : File) : Prop where
  alias? : ∀ n t, reg.alias? n = some t ↔ ∃ d ∈ f.aliasDecls, d.name = n ∧ d.ty = t
  hasAlias : ∀ n, reg.hasAlias n = true ↔ ∃ d ∈ f.aliasDecls, d.name = n
  resolve : ∀ n t, reg.resolve n = .ok t ↔ ∃ d ∈ f.aliasDecls, d.name = n ∧ d.ty = t
  unresolved : ∀ n, (∀ d ∈ f.aliasDecls, d.name ≠ n) →
    reg.resolve n = .error ⟨.unknownType n, none⟩
  method? : ∀ n s, reg.method? n = some s ↔ ∃ d ∈ f.methodDecls, d.name = n ∧ d.signature = s

variable {f : File}

/-- Under distinct keys, to be found is to be there. -/
theorem lookup_eq_some_iff_mem {β : Type} {l : List (String × β)} (h : (l.map Prod.fst).Nodup)
    {a : String} {b : β} : l.lookup a = some b ↔ (a, b) ∈ l := by
  induction l with
  | nil => simp
  | cons p l ih =>
    obtain ⟨x, y⟩ := p
    rw [List.map_cons, List.nodup_cons] at h
    rw [List.lookup_cons, List.mem_cons, ← ih h.2]
    by_cases ha : a = x
    · subst ha
      -- the name does not come again
      have hnew : l.lookup a ≠ some b := by
        rw [Ne, ih h.2]
        exact fun hmem => h.1 (List.mem_map.2 ⟨_, hmem, rfl⟩)
      simp [hnew, eq_comm]
    · simp [beq_false_of_ne ha, ha]

/-- The same for a list that is searched by a key of its elements. -/
theorem find?_eq_some_iff_mem {α : Type} {key : α → String} {l : List α} (h : (l.map key).Nodup)
    {n : String} {a : α} : l.find? (fun b => key b == n) = some a ↔ a ∈ l ∧ key a = n := by
  constructor
  · intro hfind
    exact ⟨List.mem_of_find?_eq_some hfind, by simpa using List.find?_some hfind⟩
  · rintro ⟨ha, rfl⟩
    obtain ⟨b, hb⟩ := Option.isSome_iff_exists.1
      (List.find?_isSome (p := fun b => key b == key a).2 ⟨a, ha, by simp⟩)
    have hkey : key b = key a := by simpa using List.find?_some hb
    rw [hb, List.inj_on_of_nodup_map h (List.mem_of_find?_eq_some hb) ha hkey]

/-- An alias is found if it is declared so. -/
theorem alias?_ofFile (h : (f.aliasDecls.map AliasDecl.name).Nodup) {n : String} {t : Ty} :
    (ofFile f).alias? n = some t ↔ ∃ d ∈ f.aliasDecls, d.name = n ∧ d.ty = t := by
  have hnames : ((ofFile f).aliases.map Prod.fst).Nodup := by
    rw [ofFile, List.map_map]
    exact h
  rw [Registry.alias?, lookup_eq_some_iff_mem hnames, ofFile, List.mem_map]
  simp only [Prod.mk.injEq]

/-- A method is found if it is declared so. -/
theorem method?_ofFile (h : (f.methodDecls.map MethodDecl.name).Nodup) {n : String}
    {s : Signature} :
    (ofFile f).method? n = some s ↔ ∃ d ∈ f.methodDecls, d.name = n ∧ d.signature = s := by
  have hnames : ((ofFile f).methods.map Signature.name).Nodup := by
    rw [ofFile, List.map_map]
    exact h
  rw [Registry.method?, find?_eq_some_iff_mem hnames, ofFile, List.mem_map]
  constructor
  · rintro ⟨⟨d, hd, rfl⟩, rfl⟩
    exact ⟨d, hd, rfl, rfl⟩
  · rintro ⟨d, hd, rfl, rfl⟩
    exact ⟨⟨d, hd, rfl⟩, rfl⟩

/-- The registry of a file with distinct names answers as the file declares. -/
theorem reflects_ofFile (haliases : (f.aliasDecls.map AliasDecl.name).Nodup)
    (hmethods : (f.methodDecls.map MethodDecl.name).Nodup) : (ofFile f).Reflects f := by
  have hresolve : ∀ n t, (ofFile f).resolve n = .ok t ↔ (ofFile f).alias? n = some t := by
    intro n t
    unfold Registry.resolve
    cases (ofFile f).alias? n <;> simp
  constructor
  · exact fun n t => alias?_ofFile haliases
  · intro n
    rw [Registry.hasAlias, Option.isSome_iff_exists]
    simp only [alias?_ofFile haliases]
    constructor
    · rintro ⟨t, d, hd, hname, -⟩
      exact ⟨d, hd, hname⟩
    · rintro ⟨d, hd, hname⟩
      exact ⟨d.ty, d, hd, hname, rfl⟩
  · exact fun n t => (hresolve n t).trans (alias?_ofFile haliases)
  · -- a look-up fails only for names without a declaration
    intro n hnone
    have hnone : (ofFile f).alias? n = none := by
      rw [Option.eq_none_iff_forall_ne_some]
      intro t ht
      obtain ⟨d, hd, hname, -⟩ := (alias?_ofFile haliases).1 ht
      exact hnone d hd hname
    rw [Registry.resolve, hnone]
  · exact fun n s => method?_ofFile hmethods

/-! ## Walks -/

section Walks

variable (haliases : (f.aliasDecls.map AliasDecl.name).Nodup)

include haliases

/-- References can be read off the registry. -/
theorem refers_iff {m n : String} :
    f.Refers m n ↔ ∃ body, (ofFile f).alias? m = some body ∧ n ∈ body.exposed := by
  simp only [alias?_ofFile haliases]
  constructor
  · rintro ⟨d, hd, hname, hn⟩
    exact ⟨d.ty, ⟨d, hd, hname, rfl⟩, hn⟩
  · rintro ⟨body, ⟨d, hd, hname, rfl⟩, hn⟩
    exact ⟨d, hd, hname, hn⟩

/-- If all aliases on the path lead to all that is still to be looked at, the name at which the walk
stops is on a circle that they lead to. -/
theorem findCycle_sound {path : List String} {t : Ty} {cycle : AliasCycle}
    (hpath : ∀ m ∈ path, ∀ n ∈ t.exposed, TransGen f.Refers m n)
    (h : (ofFile f).findCycle path t = some cycle) :
    f.OnCircle cycle.name ∧ ∀ m ∈ path, TransGen f.Refers m cycle.name := by
  induction path, t using findCycle.induct (ofFile f) generalizing cycle with
  -- the walk has come back to a name on its path
  | case1 path n hn =>
    have hexposed : n ∈ (Ty.named n).exposed := List.mem_singleton_self n
    rw [findCycle, dif_pos hn] at h
    cases h
    exact ⟨hpath n hn n hexposed, fun m hm => hpath m hm n hexposed⟩
  | case2 path n hn body hbody ih =>
    -- the walk enters the alias, which joins the path
    have hexposed : n ∈ (Ty.named n).exposed := List.mem_singleton_self n
    have hstep : ∀ k ∈ body.exposed, f.Refers n k :=
      fun k hk => (refers_iff haliases).2 ⟨body, hbody, hk⟩
    have hpath' : ∀ m ∈ path ++ [n], ∀ k ∈ body.exposed, TransGen f.Refers m k := by
      intro m hm k hk
      rcases List.mem_append.1 hm with hm | hm
      · exact (hpath m hm n hexposed).tail (hstep k hk)
      · cases List.mem_singleton.1 hm
        exact .single (hstep k hk)
    have hwalk : (ofFile f).findCycle (path ++ [n]) body = some cycle := by
      rw [findCycle, dif_neg hn] at h
      split at h
      · rename_i body' hbody'
        rw [hbody] at hbody'
        cases hbody'
        exact h
      · cases h
    obtain ⟨hcircle, hleads⟩ := ih hpath' hwalk
    exact ⟨hcircle, fun m hm => hleads m (List.mem_append_left _ hm)⟩
  -- a name without a declaration leads nowhere
  | case3 path n hn hbody =>
    rw [findCycle, dif_neg hn] at h
    split at h
    · rename_i body hbody'
      rw [hbody] at hbody'
      cases hbody'
    · cases h
  -- a member of a union exposes no more than the union
  | case4 path ts ih =>
    rw [findCycle_union] at h
    obtain ⟨t, ht, h⟩ := List.exists_of_findSome?_eq_some h
    have hexposed : t.exposed ⊆ (Ty.union ts).exposed :=
      fun n hn => Ty.mem_exposedAll.2 ⟨t, ht, hn⟩
    exact ih t ht (fun m hm n hn => hpath m hm n (hexposed hn)) h
  | case5 path t hnamed hunion =>
    unfold findCycle at h
    split at h
    · exact absurd rfl (hnamed _)
    · exact absurd rfl (hunion _)
    · cases h

/-- A walk from an alias starts with the alias alone on its path. -/
theorem findCycle_start {d : AliasDecl} {cycle : AliasCycle} (hd : d ∈ f.aliasDecls)
    (h : (ofFile f).findCycle [d.name] d.ty = some cycle) :
    f.OnCircle cycle.name ∧ TransGen f.Refers d.name cycle.name := by
  have hpath : ∀ m ∈ [d.name], ∀ n ∈ d.ty.exposed, TransGen f.Refers m n := by
    intro m hm n hn
    cases List.mem_singleton.1 hm
    exact .single ⟨d, hd, rfl, hn⟩
  obtain ⟨hcircle, hleads⟩ := findCycle_sound haliases hpath h
  exact ⟨hcircle, hleads _ (List.mem_singleton_self _)⟩

omit haliases in
/-- Unfolding a type leads to each name that is exposed in it. -/
theorem unfolds_exposed (reg : Registry) {n : String} (t : Ty) (hn : n ∈ t.exposed) :
    ReflTransGen reg.Unfolds (.named n) t := by
  induction t with
  | named m =>
    cases List.mem_singleton.1 hn
    exact .refl
  | union ts ih =>
    obtain ⟨t, ht, hn⟩ := Ty.mem_exposedAll.1 hn
    exact (ih t ht hn).tail (.member ht)
  | void | bool | char | int | string | inferred | array | record => cases hn

/-- A reference is a chain of unfoldings, from the alias through its body to the name. -/
theorem unfolds_of_refers {m n : String} (h : f.Refers m n) :
    TransGen (ofFile f).Unfolds (.named n) (.named m) := by
  obtain ⟨body, hbody, hn⟩ := (refers_iff haliases).1 h
  exact TransGen.tail' (unfolds_exposed _ body hn) (.body hbody)

/-- So is a chain of references. -/
theorem unfolds_of_leads {m n : String} (h : TransGen f.Refers m n) :
    TransGen (ofFile f).Unfolds (.named n) (.named m) := by
  induction h with
  | single h => exact unfolds_of_refers haliases h
  | tail _ h ih => exact (unfolds_of_refers haliases h).trans ih

/-- References are unfoldings, so an alias from which unfolding comes to an end leads to no
circle. -/
theorem not_leadsToCircle_of_acc {n : String} (h : Acc (ofFile f).Unfolds (.named n)) :
    ¬ f.LeadsToCircle n := by
  rintro ⟨m, hnm, hcircle⟩
  have hm : Acc (TransGen (ofFile f).Unfolds) (.named m) := by
    rcases Relation.reflTransGen_iff_eq_or_transGen.1 hnm with rfl | hnm
    · exact h.transGen
    · exact h.transGen.inv (unfolds_of_leads haliases hnm)
  have hloop := unfolds_of_leads haliases hcircle
  -- what is accessible does not come before itself
  generalize Ty.named m = t at hm hloop
  induction hm with
  | intro t _ ih => exact ih t hloop hloop

/-- A walk from an alias finds a circle exactly if the alias leads to one. -/
theorem findCycle_eq_none_iff {d : AliasDecl} (hd : d ∈ f.aliasDecls) :
    (ofFile f).findCycle [d.name] d.ty = none ↔ ¬ f.LeadsToCircle d.name := by
  have hbody := (alias?_ofFile haliases).2 ⟨d, hd, rfl, rfl⟩
  constructor
  · intro h
    refine not_leadsToCircle_of_acc haliases (acc_named fun t ht => ?_)
    cases hbody.symm.trans ht
    exact acc_of_findCycle_eq_none h
  · intro hleads
    rw [Option.eq_none_iff_forall_ne_some]
    intro cycle h
    obtain ⟨hcircle, hpath⟩ := findCycle_start haliases hd h
    exact hleads ⟨_, hpath.to_reflTransGen, hcircle⟩

end Walks

/-- The walks are made in the order of the declarations. -/
theorem firstCircular_eq_some {reg : Registry} {ds : List AliasDecl} {d : AliasDecl}
    {cycle : AliasCycle} (h : reg.firstCircular ds = some (d, cycle)) :
    ∃ before after, ds = before ++ d :: after ∧ reg.findCycle [d.name] d.ty = some cycle ∧
      ∀ b ∈ before, reg.findCycle [b.name] b.ty = none := by
  induction ds with
  | nil => cases h
  | cons e ds ih =>
    rw [firstCircular] at h
    split at h
    · rename_i found hfound
      cases h
      exact ⟨[], ds, rfl, hfound, fun b hb => absurd hb List.not_mem_nil⟩
    · -- no cycle from this declaration, so it is one of those before
      rename_i hnone
      obtain ⟨before, after, rfl, hd, hbefore⟩ := ih h
      exact ⟨e :: before, after, rfl, hd, List.forall_mem_cons.2 ⟨hnone, hbefore⟩⟩

/-- If no walk finds anything, no declaration is circular. -/
theorem firstCircular_eq_none {reg : Registry} {ds : List AliasDecl}
    (h : ∀ d ∈ ds, reg.findCycle [d.name] d.ty = none) : reg.firstCircular ds = none := by
  induction ds with
  | nil => rfl
  | cons d ds ih =>
    obtain ⟨hd, hds⟩ := List.forall_mem_cons.1 h
    rw [firstCircular, hd]
    exact ih hds

/-! ## The verdict -/

/-- The names of aliases are looked at first. -/
theorem build_of_repeated_alias {d : AliasDecl}
    (h : firstRepeated AliasDecl.name [] f.aliasDecls = some d) :
    (build f).result = .error ⟨.duplicateDeclaration d.name, d.span⟩ := by
  rw [build, h]
  rfl

section Distinct

variable (haliases : (f.aliasDecls.map AliasDecl.name).Nodup)

include haliases

/-- The names of methods are looked at if those of the aliases are distinct. -/
theorem build_of_repeated_method {d : MethodDecl}
    (h : firstRepeated MethodDecl.name [] f.methodDecls = some d) :
    (build f).result = .error ⟨.duplicateDeclaration d.name, d.span⟩ := by
  rw [build, firstRepeated_of_nodup haliases, h]
  rfl

variable (hmethods : (f.methodDecls.map MethodDecl.name).Nodup)

include hmethods

/-- Circles are looked for last, and the first alias that leads to one is blamed. -/
theorem build_of_circular {d : AliasDecl} {cycle : AliasCycle}
    (h : (ofFile f).firstCircular f.aliasDecls = some (d, cycle)) :
    (build f).result = .error ⟨.cyclicType cycle.name, d.span⟩ := by
  rw [build, firstRepeated_of_nodup haliases, firstRepeated_of_nodup hmethods]
  dsimp only
  rw [h]

/-- A file that passes all three is built as it stands. -/
theorem build_of_not_circular (h : (ofFile f).firstCircular f.aliasDecls = none) :
    (build f).result = .ok (ofFile f) := by
  rw [build, firstRepeated_of_nodup haliases, firstRepeated_of_nodup hmethods]
  dsimp only
  rw [h]

/-- Among distinct names, an alias on a circle makes the build fail at the first declaration that
leads to a circle. -/
theorem build_of_onCircle {n : String} (hn : f.OnCircle n) :
    ∃ before d after m, f.aliasDecls = before ++ d :: after ∧
      (∀ b ∈ before, ¬ f.LeadsToCircle b.name) ∧ TransGen f.Refers d.name m ∧ f.OnCircle m ∧
      (build f).result = .error ⟨.cyclicType m, d.span⟩ := by
  cases hfirst : (ofFile f).firstCircular f.aliasDecls with
  | none =>
    -- the circle starts with a declaration, whose walk would have found it
    obtain ⟨k, ⟨e, he, rfl, -⟩, -⟩ := TransGen.head'_iff.1 hn
    have hnone := findCycle_eq_none_of_firstCircular hfirst e he
    exact absurd ⟨e.name, .refl, hn⟩ ((findCycle_eq_none_iff haliases he).1 hnone)
  | some found =>
    -- the walk from this declaration comes to a circle, and no earlier one does
    obtain ⟨d, cycle⟩ := found
    obtain ⟨before, after, hsplit, hd, hbefore⟩ := firstCircular_eq_some hfirst
    have hmem : d ∈ f.aliasDecls := hsplit ▸ List.mem_append_right _ (List.mem_cons_self ..)
    obtain ⟨hcircle, hleads⟩ := findCycle_start haliases hmem hd
    refine ⟨before, d, after, cycle.name, hsplit, fun b hb => ?_, hleads, hcircle,
      build_of_circular haliases hmethods hfirst⟩
    have hb' : b ∈ f.aliasDecls := hsplit ▸ List.mem_append_left _ hb
    exact (findCycle_eq_none_iff haliases hb').1 (hbefore b hb)

/-- Without a circle there is none to be found. -/
theorem build_of_no_circle (h : ∀ n, ¬ f.OnCircle n) : (build f).result = .ok (ofFile f) := by
  refine build_of_not_circular haliases hmethods (firstCircular_eq_none fun d hd => ?_)
  rw [findCycle_eq_none_iff haliases hd]
  rintro ⟨m, -, hm⟩
  exact h m hm

end Distinct

/-- What becomes of a file. Repeated aliases are reported before repeated methods and these before
circles, each at the first declaration that shows the fault. A file without any of them has a
registry, which answers with its declarations. -/
theorem build_verdict (f : File) :
    (¬ (f.aliasDecls.map AliasDecl.name).Nodup →
      ∃ d, FirstRepeat AliasDecl.name f.aliasDecls d ∧
        (build f).result = .error ⟨.duplicateDeclaration d.name, d.span⟩) ∧
    ((f.aliasDecls.map AliasDecl.name).Nodup → ¬ (f.methodDecls.map MethodDecl.name).Nodup →
      ∃ d, FirstRepeat MethodDecl.name f.methodDecls d ∧
        (build f).result = .error ⟨.duplicateDeclaration d.name, d.span⟩) ∧
    ((f.aliasDecls.map AliasDecl.name).Nodup → (f.methodDecls.map MethodDecl.name).Nodup →
      ((∃ n, f.OnCircle n) →
        ∃ before d after m, f.aliasDecls = before ++ d :: after ∧
          (∀ b ∈ before, ¬ f.LeadsToCircle b.name) ∧ TransGen f.Refers d.name m ∧ f.OnCircle m ∧
          (build f).result = .error ⟨.cyclicType m, d.span⟩) ∧
      ((¬ ∃ n, f.OnCircle n) → ∃ reg, (build f).result = .ok reg ∧ reg.Reflects f)) := by
  refine ⟨fun hrepeat => ?_, fun haliases hrepeat => ?_, fun haliases hmethods => ⟨?_, ?_⟩⟩
  · -- the three things are looked at in this order
    obtain ⟨d, hd, hfirst⟩ := exists_firstRepeat hrepeat
    exact ⟨d, hfirst, build_of_repeated_alias hd⟩
  · obtain ⟨d, hd, hfirst⟩ := exists_firstRepeat hrepeat
    exact ⟨d, hfirst, build_of_repeated_method haliases hd⟩
  · rintro ⟨n, hn⟩
    exact build_of_onCircle haliases hmethods hn
  · intro hnone
    exact ⟨ofFile f, build_of_no_circle haliases hmethods fun n hn => hnone ⟨n, hn⟩,
      reflects_ofFile haliases hmethods⟩

/-- Two aliases that name each other, one of them within nested unions, an alias before them that
leads to the circle without being on it, and one that names itself within an array only. -/
def lassoFile : File where
  decls := [
    .alias { name := "Tree", ty := .array (.named "Tree") },
    .alias { name := "Start", ty := .named "Left", span := some ⟨0, 9⟩ },
    .alias { name := "Left", ty := .union [.int, .named "Right"], span := some ⟨10, 19⟩ },
    .alias { name := "Right", ty := .union [.union [.named "Tree", .named "Left"]] }]

/-- The walk from the first alias comes to a circle that the alias itself is not on, and the alias
is blamed all the same. -/
theorem build_verdict_lasso :
    ((lassoFile.aliasDecls.map AliasDecl.name).Nodup ∧
      (lassoFile.methodDecls.map MethodDecl.name).Nodup ∧ ∃ n, lassoFile.OnCircle n) ∧
    (∃ before d after m, lassoFile.aliasDecls = before ++ d :: after ∧
      (∀ b ∈ before, ¬ lassoFile.LeadsToCircle b.name) ∧
      TransGen lassoFile.Refers d.name m ∧ lassoFile.OnCircle m ∧
      (build lassoFile).result = .error ⟨.cyclicType m, d.span⟩) ∧
    (build lassoFile).result = .error ⟨.cyclicType "Left", some ⟨0, 9⟩⟩ := by
  have haliases : (lassoFile.aliasDecls.map AliasDecl.name).Nodup := by decide
  have hmethods : (lassoFile.methodDecls.map MethodDecl.name).Nodup := by decide
  have hleft : lassoFile.Refers "Left" "Right" :=
    ⟨_, .tail _ (.tail _ (.head _)), rfl, by decide⟩
  have hright : lassoFile.Refers "Right" "Left" :=
    ⟨_, .tail _ (.tail _ (.tail _ (.head _))), rfl, by decide⟩
  -- the first alias leads into the circle of these two
  have hcircle : lassoFile.OnCircle "Left" := .tail (.single hleft) hright
  have hverdict := (build_verdict lassoFile).2.2 haliases hmethods
  exact ⟨⟨haliases, hmethods, _, hcircle⟩, hverdict.1 ⟨_, hcircle⟩, by decide +kernel⟩

end Registry

end WhileTyping
