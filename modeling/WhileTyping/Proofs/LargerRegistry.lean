import Mathlib.Logic.Relation
import WhileTyping.Env
import WhileTyping.Proofs.BoundedSearch
import WhileTyping.Proofs.Expansion
import WhileTyping.Subtyping.Bound
import WhileTyping.Subtyping.CommonFields

/-!
# An undeclared alias is never masked

A comparison that comes to an alias without a declaration fails. One that succeeds has never come to
such an alias, so it does not matter what the alias would have stood for: with more aliases declared
the answer is the same.

* **`Registry.Extends`**: a registry has the aliases of another, with the same bodies.
* **`StaysOk`**: what succeeds goes on to succeed, with the same result. It is handed on by every
  way of putting computations together that does not look at errors.
* **`Extends.answer`**: the comparison of types stays as it is. The proof follows the calls of the
  search in the smaller registry.
* **`Extends.expand`**, **`Extends.leastUpperBound`**, **`Extends.commonRecord`**,
  **`Extends.merge`**: so does all that is computed with comparisons and look-ups.
* **`Registry.Reaches`**, **`reaches_of_isSubtype_eq_error`**: a comparison that fails names an
  alias without a declaration, which occurs in one of its types or in the body of an alias reachable
  from them.
-/

namespace WhileTyping

open Relation (ReflTransGen)

/-! ## Results that stay -/

/-- If the first succeeds, so does the second, with the same result. -/
def StaysOk {α : Type} (r r' : Except TypeError α) : Prop := ∀ a, r = .ok a → r' = .ok a

namespace StaysOk

variable {α β : Type} {r r' : Except TypeError α}

theorem refl (r : Except TypeError α) : StaysOk r r := fun _ h => h

/-- Two parts in sequence stay as they are if each does. -/
theorem bind {k k' : α → Except TypeError β} (h : StaysOk r r') (hk : ∀ a, StaysOk (k a) (k' a)) :
    StaysOk (r >>= k) (r' >>= k') := by
  intro b hb
  obtain ⟨a, ha, hb⟩ := bind_eq_ok.1 hb
  exact bind_eq_ok.2 ⟨a, h a ha, hk a b hb⟩

theorem located (h : StaysOk r r') (span : Option Span) :
    StaysOk (WhileTyping.located span r) (WhileTyping.located span r') :=
  fun a ha => located_eq_ok.2 (h a (located_eq_ok.1 ha))

theorem checkBind {c c' : Check α} {k k' : α → Check β} (h : StaysOk c.result c'.result)
    (hk : ∀ a, StaysOk (k a).result (k' a).result) :
    StaysOk (c >>= k).result (c' >>= k').result := by
  intro b hb
  obtain ⟨a, ha, hb⟩ := Check.result_bind_eq_ok.1 hb
  exact Check.result_bind_eq_ok.2 ⟨a, h a ha, hk a b hb⟩

/-- A search that stops at the first `false` stays as it is, if each of its steps does. -/
theorem allM {l : List α} {p q : α → Except TypeError Bool} (h : ∀ a ∈ l, StaysOk (p a) (q a)) :
    StaysOk (l.allM p) (l.allM q) := by
  induction l with
  | nil => exact refl _
  | cons a l ih =>
    obtain ⟨ha, hl⟩ := List.forall_mem_cons.1 h
    rw [List.allM_cons, List.allM_cons]
    refine ha.bind fun b => ?_
    cases b with
    | true => exact ih hl
    | false => exact refl _

/-- The same for one that stops at the first `true`. -/
theorem anyM {l : List α} {p q : α → Except TypeError Bool} (h : ∀ a ∈ l, StaysOk (p a) (q a)) :
    StaysOk (l.anyM p) (l.anyM q) := by
  induction l with
  | nil => exact refl _
  | cons a l ih =>
    obtain ⟨ha, hl⟩ := List.forall_mem_cons.1 h
    rw [List.anyM_cons, List.anyM_cons]
    refine ha.bind fun b => ?_
    cases b with
    | true => exact refl _
    | false => exact ih hl

end StaysOk

/-- If the first visit succeeds, so does the second: it leaves and returns the same. -/
def Visit.StaysOk {σ α : Type} (v v' : Visit σ α) : Prop := ∀ left a, v.Ends left a → v'.Ends left a

namespace Visit.StaysOk

variable {σ τ α β : Type} {v v' : Visit σ α}

theorem refl (v : Visit σ α) : v.StaysOk v := fun _ _ h => h

/-- Two visits in sequence stay as they are if each does. -/
theorem andThen {stop : σ → τ} {next next' : σ → α → Visit τ β} (h : v.StaysOk v')
    (hnext : ∀ l a, (next l a).StaysOk (next' l a)) :
    (v.andThen stop next).StaysOk (v'.andThen stop next') := by
  intro left b hb
  obtain ⟨l, a, ha, hb⟩ := ends_andThen.1 hb
  exact ends_andThen.2 ⟨l, a, h l a ha, hnext l a left b hb⟩

/-- The same for a check that a visit starts with. -/
theorem after {c c' : Check α} {untouched : σ} {next next' : α → Visit σ β}
    (h : WhileTyping.StaysOk c.result c'.result) (hnext : ∀ a, (next a).StaysOk (next' a)) :
    (Visit.after c untouched next).StaysOk (Visit.after c' untouched next') := by
  intro left b hb
  obtain ⟨a, ha, hb⟩ := ends_after.1 hb
  exact ends_after.2 ⟨a, h a ha, hnext a left b hb⟩

end Visit.StaysOk

/-! ## Larger registries -/

/-- The second registry has the aliases of the first, with the same bodies. -/
def Registry.Extends (reg reg' : Registry) : Prop :=
  ∀ n t, reg.alias? n = some t → reg'.alias? n = some t

namespace Registry.Extends

variable {reg reg' : Registry} (h : reg.Extends reg')

include h

/-- One comparison stays as it is, if those that it makes do. -/
theorem compareOnce {next next' : Comparison → Except TypeError Bool} {c : Comparison}
    (hnext : ∀ c', reg.Calls c c' → StaysOk (next c') (next' c')) :
    StaysOk (reg.compareOnce next c) (reg'.compareOnce next' c) := by
  unfold Registry.compareOnce
  split
  · exact .refl _
  · exact .refl _
  · exact .refl _
  · exact .refl _
  · exact .refl _
  · exact hnext _ (.element _ _ _)
  · split
    · exact .refl _
    · refine .allM fun p hp => ?_
      split
      · exact hnext _ (.field _ hp)
      · exact .refl _
  · rename_i m sub trail hvoid
    split
    · exact .refl _
    · -- an alias that is declared has the same body in the larger registry
      cases hbody : reg.alias? m with
      | none => exact nofun
      | some body =>
        rw [h m body hbody]
        dsimp only
        split
        · exact .refl _
        · rename_i hnew
          exact hnext _ (.aliasAbove hbody hnew)
  · rename_i sup n trail hnamed
    cases hbody : reg.alias? n with
    | none => exact nofun
    | some body =>
      rw [h n body hbody]
      dsimp only
      split
      · exact .refl _
      · rename_i hnew
        exact hnext _ (.aliasBelow hbody hnew)
  · exact .allM fun t ht => .anyM fun s hs => hnext _ (.members _ hs ht)
  · exact .anyM fun s hs => hnext _ (.memberAbove _ _ hs)
  · exact .allM fun t ht => hnext _ (.memberBelow _ _ ht)
  · exact .refl _

/-- By induction on the comparison, along the comparisons it calls for. -/
theorem answer (c : Comparison) : StaysOk (reg.answer c) (reg'.answer c) := by
  induction c using reg.wellFounded_calls.induction with
  | _ c ih =>
    rw [reg.answer_eq, reg'.answer_eq]
    exact h.compareOnce ih

/-- A comparison that has an answer keeps it when aliases are added. -/
theorem isSubtype (sup sub : Ty) : StaysOk (reg.isSubtype sup sub) (reg'.isSubtype sup sub) :=
  h.answer ⟨sup, sub, []⟩

theorem equivalent (s t : Ty) : StaysOk (reg.equivalent s t) (reg'.equivalent s t) := by
  refine (h.isSubtype s t).bind fun b => ?_
  cases b with
  | true => exact h.isSubtype t s
  | false => exact .refl _

theorem expectSubtype (sup sub : Ty) (span : Option Span) :
    StaysOk (reg.expectSubtype sup sub span) (reg'.expectSubtype sup sub span) :=
  ((h.isSubtype sup sub).located span).bind fun _ => .refl _

/-! ## Bounds and common fields -/

/-- A bound is raised by comparisons only. -/
theorem raiseBound (span : Option Span) (bound : Ty) (ts : List Ty) :
    StaysOk (reg.raiseBound span bound ts).result (reg'.raiseBound span bound ts).result := by
  induction ts generalizing bound with
  | nil => exact .refl _
  | cons t ts ih =>
    unfold Registry.raiseBound
    refine .checkBind ((h.isSubtype t bound).located span) fun b => ?_
    cases b with
    | true => exact .checkBind (.refl _) fun _ => ih t
    | false => exact .checkBind (h.expectSubtype bound t span) fun _ => ih bound

theorem leastUpperBound (ts : List Ty) (span : Option Span) :
    StaysOk (reg.leastUpperBound ts span).result (reg'.leastUpperBound ts span).result :=
  h.raiseBound span .void ts

theorem widenField (span : Option Span) (f g : Field) :
    StaysOk (reg.widenField span f g) (reg'.widenField span f g) :=
  ((h.equivalent f.ty g.ty).located span).bind fun _ => .refl _

theorem meetFields (span : Option Span) (record fs : List Field) :
    StaysOk (reg.meetFields span record fs) (reg'.meetFields span record fs) := by
  induction fs with
  | nil => exact .refl _
  | cons f fs ih =>
    unfold Registry.meetFields
    split
    · exact ih
    · rename_i g hg
      exact (h.widenField span f g).bind fun _ => ih.bind fun _ => .refl _

theorem meetAll (span : Option Span) (fields : List Field) (records : List (List Field)) :
    StaysOk (reg.meetAll span fields records) (reg'.meetAll span fields records) := by
  induction records generalizing fields with
  | nil => exact .refl _
  | cons record records ih => exact (h.meetFields span record fields).bind fun _ => ih _

/-- The fields that records have in common are found by comparisons. -/
theorem commonRecord (records : List (List Field)) (span : Option Span) :
    StaysOk (reg.commonRecord records span).result (reg'.commonRecord records span).result := by
  unfold Registry.commonRecord
  split
  · exact .refl _
  · rename_i first rest
    exact .checkBind (h.meetAll span first rest) fun _ => .refl _

/-! ## Branches -/

/-- The types of two arms are joined by comparing them. -/
theorem joinTypes (left right : Ty) :
    StaysOk (Env.joinTypes reg left right) (Env.joinTypes reg' left right) := by
  refine (h.equivalent left right).bind fun same => ?_
  cases same with
  | true => exact .refl _
  | false =>
    refine (h.isSubtype left right).bind fun above => ?_
    cases above with
    | true => exact .refl _
    | false => exact (h.isSubtype right left).bind fun _ => .refl _

theorem mergeBinding (left right : Env) (name : String) (b : Binding) :
    StaysOk (Env.mergeBinding reg left right name b).result
      (Env.mergeBinding reg' left right name b).result := by
  unfold Env.mergeBinding
  split
  · exact .checkBind (h.joinTypes _ _) fun _ => .refl _
  · exact .refl _

theorem mergeName (left right env : Env) (name : String) :
    (Env.mergeName reg left right env name).StaysOk (Env.mergeName reg' left right env name) := by
  unfold Env.mergeName
  split
  · exact .refl _
  · exact .after (h.mergeBinding left right name _) fun _ => .refl _

theorem mergeNames (left right env : Env) (names : List String) :
    (Env.mergeNames reg left right env names).StaysOk
      (Env.mergeNames reg' left right env names) := by
  induction names generalizing env with
  | nil => exact .refl _
  | cons name names ih => exact .andThen (h.mergeName left right env name) fun env _ => ih env

/-- Branches that can be merged are merged in the same way. -/
theorem merge (env left right : Env) :
    (env.merge reg left right).StaysOk (env.merge reg' left right) :=
  h.mergeNames left right env _

/-! ## Expansion -/

/-- Every step of an expansion is still there. -/
theorem expands {t u : Ty} (ht : reg.Expands t u) : reg'.Expands t u := by
  induction ht with
  | stop hstop => exact .stop hstop
  | step hbody _ ih => exact .step (h _ _ hbody) ih

/-- The registries may bound the look-ups differently, but in both of them the bound is enough. -/
theorem expand (hwf : WellFounded reg.Unfolds) (hwf' : WellFounded reg'.Unfolds) (t : Ty)
    (span : Option Span) : StaysOk (reg.expand t span) (reg'.expand t span) :=
  fun _ hu => (expand_eq_ok_iff hwf').2 (h.expands ((expand_eq_ok_iff hwf).1 hu))

end Registry.Extends

/-! ## Failures -/

namespace Registry

/-- The alias occurs in a type, or in the body of an alias reachable from it. -/
inductive Reaches (reg : Registry) : Ty → String → Prop
  | here {t : Ty} {n : String} (hn : .named n ∈ t.subterms) : Reaches reg t n
  | through {t body : Ty} {m n : String} (hm : .named m ∈ t.subterms)
      (hbody : reg.alias? m = some body) (h : Reaches reg body n) : Reaches reg t n

variable {reg : Registry}

/-- A name that is reached from a part of a type is reached from the type. -/
theorem Reaches.of_part {t t' : Ty} {n : String} (h : reg.Reaches t n)
    (hpart : t.subterms ⊆ t'.subterms) : reg.Reaches t' n := by
  cases h with
  | here hn => exact .here (hpart hn)
  | through hm hbody h => exact .through (hpart hm) hbody h

/-- A name that is reached from its body is reached from an alias. -/
theorem Reaches.of_body {m n : String} {body : Ty} (h : reg.Reaches body n)
    (hbody : reg.alias? m = some body) : reg.Reaches (.named m) n :=
  .through (Ty.self_mem_subterms _) hbody h

/-- What a comparison goes on to reaches no more than the comparison itself. -/
theorem Calls.reaches {c c' : Comparison} (h : reg.Calls c c') (n : String) :
    (reg.Reaches c'.sup n → reg.Reaches c.sup n) ∧
      (reg.Reaches c'.sub n → reg.Reaches c.sub n) := by
  cases h with
  | element s t trail => exact ⟨(·.of_part s.subterms_array), (·.of_part t.subterms_array)⟩
  | field trail hp =>
    obtain ⟨hf, hg⟩ := List.of_mem_zip hp
    exact ⟨(·.of_part (Ty.subterms_field hf)), (·.of_part (Ty.subterms_field hg))⟩
  | aliasAbove hbody hnew => exact ⟨(·.of_body hbody), id⟩
  | aliasBelow hbody hnew => exact ⟨id, (·.of_body hbody)⟩
  | members trail hs ht =>
    exact ⟨(·.of_part (Ty.subterms_member hs)), (·.of_part (Ty.subterms_member ht))⟩
  | memberAbove sub trail hs => exact ⟨(·.of_part (Ty.subterms_member hs)), id⟩
  | memberBelow sup trail ht => exact ⟨id, (·.of_part (Ty.subterms_member ht))⟩

/-- The same along any number of comparisons. -/
theorem reaches_of_calls {c c' : Comparison} (h : ReflTransGen reg.Calls c c') (n : String) :
    (reg.Reaches c'.sup n → reg.Reaches c.sup n) ∧
      (reg.Reaches c'.sub n → reg.Reaches c.sub n) := by
  induction h with
  | refl => exact ⟨id, id⟩
  | tail _ hstep ih =>
    obtain ⟨hsup, hsub⟩ := hstep.reaches n
    exact ⟨fun hn => ih.1 (hsup hn), fun hn => ih.2 (hsub hn)⟩

/-- The error is that an alias without a declaration has been met, at no place. One of the two types
reaches the alias. -/
def BlamesUndeclared (reg : Registry) (s t : Ty) (e : TypeError) : Prop :=
  ∃ n, e = ⟨.unknownType n, none⟩ ∧ reg.alias? n = none ∧ (reg.Reaches s n ∨ reg.Reaches t n)

/-- A comparison fails at a name that one of its types reaches and that is not declared. -/
theorem reaches_of_isSubtype_eq_error {sup sub : Ty} {e : TypeError}
    (h : reg.isSubtype sup sub = .error e) : reg.BlamesUndeclared sup sub e := by
  obtain ⟨c, n, hcalls, hn, hnone, he⟩ := reaches_of_answer_eq_error (c := ⟨sup, sub, []⟩) h
  obtain ⟨hsup, hsub⟩ := reaches_of_calls hcalls n
  refine ⟨n, he, hnone, ?_⟩
  have hself : ∀ {t : Ty}, t = .named n → reg.Reaches t n := by
    rintro t rfl
    exact .here (Ty.self_mem_subterms _)
  rcases hn with hn | hn
  · exact .inl (hsup (hself hn))
  · exact .inr (hsub (hself hn))

/-- The same for the comparisons in both directions. -/
theorem reaches_of_equivalent_eq_error {s t : Ty} {e : TypeError}
    (h : reg.equivalent s t = .error e) : reg.BlamesUndeclared s t e := by
  unfold equivalent at h
  cases hst : reg.isSubtype s t with
  | error e' =>
    rw [hst] at h
    cases h
    exact reaches_of_isSubtype_eq_error hst
  | ok b =>
    rw [hst] at h
    cases b with
    | false => cases h
    | true =>
      obtain ⟨n, he, hnone, hn⟩ := reaches_of_isSubtype_eq_error (h : reg.isSubtype t s = .error e)
      exact ⟨n, he, hnone, hn.symm⟩

/-! ## Undeclared aliases -/

/-- Whatever succeeds in a registry that is built from a file succeeds with the same result in any
built registry with more aliases. A comparison that fails names an alias without a declaration. -/
theorem undeclared_never_masked {f f' : File} {reg reg' : Registry}
    (hbuild : (build f).result = .ok reg) (hbuild' : (build f').result = .ok reg')
    (hextends : reg.Extends reg') :
    ((∀ sup sub b, reg.isSubtype sup sub = .ok b → reg'.isSubtype sup sub = .ok b) ∧
      (∀ s t b, reg.equivalent s t = .ok b → reg'.equivalent s t = .ok b) ∧
      (∀ t span u, reg.expand t span = .ok u → reg'.expand t span = .ok u) ∧
      (∀ ts span u, (reg.leastUpperBound ts span).result = .ok u →
        (reg'.leastUpperBound ts span).result = .ok u) ∧
      (∀ records span r, (reg.commonRecord records span).result = .ok r →
        (reg'.commonRecord records span).result = .ok r) ∧
      ∀ env left right merged : Env, (env.merge reg left right).Ends merged () →
        (env.merge reg' left right).Ends merged ()) ∧
    (∀ sup sub e, reg.isSubtype sup sub = .error e → reg.BlamesUndeclared sup sub e) ∧
    ∀ s t e, reg.equivalent s t = .error e → reg.BlamesUndeclared s t e := by
  have hwf := wellFounded_unfolds hbuild
  have hwf' := wellFounded_unfolds hbuild'
  refine ⟨⟨hextends.isSubtype, hextends.equivalent, hextends.expand hwf hwf',
    hextends.leastUpperBound, hextends.commonRecord,
    fun env left right merged => hextends.merge env left right merged ()⟩, ?_, ?_⟩
  · exact fun _ _ _ => reaches_of_isSubtype_eq_error
  · exact fun _ _ _ => reaches_of_equivalent_eq_error

/-- A record type that mentions an alias without a declaration. -/
def danglingFile : File where
  decls := [
    .alias { name := "Word", ty := .string },
    .alias { name := "Link", ty := .record [⟨"next", .named "Gone"⟩] }]

/-- The same, with the alias declared. -/
def mendedFile : File where
  decls := danglingFile.decls ++ [.alias { name := "Gone", ty := .int }]

/-- The second file adds a declaration, and keeps those of the first. -/
theorem extends_mended : (ofFile danglingFile).Extends (ofFile mendedFile) := by
  intro n t hn
  show ((ofFile danglingFile).aliases ++ [("Gone", Ty.int)]).lookup n = some t
  rw [List.lookup_append, Option.or_eq_some_iff]
  exact .inl hn

/-- The comparison of the records comes to the alias through the body of another, and fails for want
of it. The other comparison is done before it would come to the alias. -/
theorem undeclared_never_masked_dangling :
    let reg := ofFile danglingFile
    let reg' := ofFile mendedFile
    let record : Ty := .record [⟨"next", .int⟩]
    let choice : Ty := .union [.named "Word", .named "Gone"]
    (build danglingFile).result = .ok reg ∧ (build mendedFile).result = .ok reg' ∧
      reg.Extends reg' ∧
      reg.isSubtype choice .string = .ok true ∧ reg'.isSubtype choice .string = .ok true ∧
      reg.expand (.named "Word") none = .ok .string ∧
      reg'.expand (.named "Word") none = .ok .string ∧
      reg.isSubtype (.named "Link") record = .error ⟨.unknownType "Gone", none⟩ ∧
      reg.BlamesUndeclared (.named "Link") record ⟨.unknownType "Gone", none⟩ ∧
      reg'.isSubtype (.named "Link") record = .ok true := by
  intro reg reg' record choice
  have hbuild : (build danglingFile).result = .ok reg := by decide +kernel
  have hbuild' : (build mendedFile).result = .ok reg' := by decide +kernel
  have hchoice : reg.isSubtype choice .string = .ok true := by decide +kernel
  have hword : reg.expand (.named "Word") none = .ok .string := by decide +kernel
  -- the comparison comes to the name that is not declared
  have herror : reg.isSubtype (.named "Link") record = .error ⟨.unknownType "Gone", none⟩ := by
    decide +kernel
  obtain ⟨⟨hsubtype, -, hexpand, -⟩, hblames, -⟩ :=
    undeclared_never_masked hbuild hbuild' extends_mended
  exact ⟨hbuild, hbuild', extends_mended, hchoice, hsubtype _ _ _ hchoice, hword,
    hexpand _ _ _ hword, herror, hblames _ _ _ herror, by decide +kernel⟩

end Registry

end WhileTyping
