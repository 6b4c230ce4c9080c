import Mathlib.Data.Set.Card
import Mathlib.Logic.Relation
import WhileTyping.Subtyping.Rules

/-!
# The search for a subtype is bounded

`Registry.subtype` goes from one comparison to others, and expanding an alias may lead to larger
types. This module follows it from comparison to comparison, for any registry and any types: aliases
may be circular or undeclared, unions empty, nested or with repeated members.

* **`compareOnce`**: one comparison, given the answers of those that it makes in its turn. The
  search is the recursion through it (**`answer_eq`**).
* **`Calls`**: the comparisons that one comparison may make, which are all that its answer rests on
  (**`compareOnce_congr`**).
* **`Calls.cases`**: each of them goes to parts of the two types under the same trail, or expands an
  alias at a pair that is not on the trail and puts it there.
* **`wellFounded_calls`**, **`Calls.within`**: so no chain of comparisons goes on for ever, and
  along each chain the trail holds distinct pairs of types that occur in the arguments or in alias
  bodies.
-/

namespace WhileTyping

open Relation (ReflTransGen)

/-! ## Searches through a list -/

section Lists

variable {α : Type} {l : List α} {p q : α → Except TypeError Bool}

/-- A search asks its question of the elements of the list only. -/
theorem allM_congr (h : ∀ a ∈ l, p a = q a) : l.allM p = l.allM q := by
  induction l with
  | nil => rfl
  | cons a l ih =>
    obtain ⟨ha, hl⟩ := List.forall_mem_cons.1 h
    rw [List.allM_cons, List.allM_cons, ha, ih hl]

theorem anyM_congr (h : ∀ a ∈ l, p a = q a) : l.anyM p = l.anyM q := by
  induction l with
  | nil => rfl
  | cons a l ih =>
    obtain ⟨ha, hl⟩ := List.forall_mem_cons.1 h
    rw [List.anyM_cons, List.anyM_cons, ha, ih hl]

/-- A search that fails has met the failure at an element. -/
theorem exists_of_allM_eq_error {e : TypeError} (h : l.allM p = .error e) :
    ∃ a ∈ l, p a = .error e := by
  induction l with
  | nil => cases h
  | cons a l ih =>
    rw [List.allM_cons] at h
    cases ha : p a with
    | error e' =>
      rw [ha] at h
      cases h
      exact ⟨a, List.mem_cons_self .., ha⟩
    | ok b =>
      rw [ha] at h
      cases b with
      -- the search ends here, and has not failed
      | false => cases h
      | true =>
        obtain ⟨a', hmem, ha'⟩ := ih h
        exact ⟨a', List.mem_cons_of_mem _ hmem, ha'⟩

/-- The same for a search for one element. -/
theorem exists_of_anyM_eq_error {e : TypeError} (h : l.anyM p = .error e) :
    ∃ a ∈ l, p a = .error e := by
  induction l with
  | nil => cases h
  | cons a l ih =>
    rw [List.anyM_cons] at h
    cases ha : p a with
    | error e' =>
      rw [ha] at h
      cases h
      exact ⟨a, List.mem_cons_self .., ha⟩
    | ok b =>
      rw [ha] at h
      cases b with
      -- a search for `true` ends here instead
      | true => cases h
      | false =>
        obtain ⟨a', hmem, ha'⟩ := ih h
        exact ⟨a', List.mem_cons_of_mem _ hmem, ha'⟩

end Lists

/-! ## One comparison -/

/-- A point of the search: the two types compared there, and the trail. -/
structure Comparison where
  sup : Ty
  sub : Ty
  trail : Trail

namespace Registry

/-- What the search answers at a comparison. -/
def answer (reg : Registry) (c : Comparison) : Except TypeError Bool :=
  reg.subtype c.sup c.sub c.trail

/-- What one comparison answers, if `next` answers the comparisons that it makes in its turn. -/
def compareOnce (reg : Registry) (next : Comparison → Except TypeError Bool) :
    Comparison → Except TypeError Bool
  | ⟨_, .void, _⟩ => .ok true
  | ⟨.bool, .bool, _⟩ | ⟨.char, .char, _⟩ | ⟨.int, .int, _⟩ | ⟨.string, .string, _⟩ => .ok true
  | ⟨.array s, .array t, trail⟩ => next ⟨s, t, trail⟩
  | ⟨.record fs, .record gs, trail⟩ =>
    if gs.length < fs.length then .ok false
    else (fs.zip gs).allM fun p =>
      if p.1.name = p.2.name then next ⟨p.1.ty, p.2.ty, trail⟩ else .ok false
  -- an alias, above or below: only in these two cases does the trail grow
  | ⟨.named m, sub, trail⟩ =>
    if sub = .named m then .ok true
    else
      match reg.alias? m with
      | none => .error ⟨.unknownType m, none⟩
      | some body =>
        if trail.any fun p => p.1.same (.named m) && p.2.same sub then .ok true
        else next ⟨body, sub, (.named m, sub) :: trail⟩
  | ⟨sup, .named n, trail⟩ =>
    match reg.alias? n with
    | none => .error ⟨.unknownType n, none⟩
    | some body =>
      if trail.any fun p => p.1.same sup && p.2.same (.named n) then .ok true
      else next ⟨sup, body, (sup, .named n) :: trail⟩
  | ⟨.union ss, .union ts, trail⟩ => ts.allM fun t => ss.anyM fun s => next ⟨s, t, trail⟩
  | ⟨.union ss, sub, trail⟩ => ss.anyM fun s => next ⟨s, sub, trail⟩
  | ⟨sup, .union ts, trail⟩ => ts.allM fun t => next ⟨sup, t, trail⟩
  | ⟨_, _, _⟩ => .ok false

/-- The search is the recursion through one comparison. -/
theorem answer_eq (reg : Registry) (c : Comparison) :
    reg.answer c = reg.compareOnce reg.answer c := by
  unfold compareOnce
  split
  · exact reg.subtype_void _ _
  · exact reg.subtype_primitive rfl _
  · exact reg.subtype_primitive rfl _
  · exact reg.subtype_primitive rfl _
  · exact reg.subtype_primitive rfl _
  · exact reg.subtype_array _ _ _
  · exact reg.subtype_record _ _ _
  · -- an alias above: the pair of it with itself is settled before anything is looked up
    rename_i m sub trail hvoid
    split
    · rename_i hself
      subst hself
      exact reg.subtype_named_self _ _
    · rename_i hself
      exact reg.subtype_named_left trail (fun h => hvoid h) hself
  · rename_i sup n trail hnamed
    exact reg.subtype_named_right n trail fun m h => hnamed m h
  · exact reg.subtype_union_union _ _ _
  · rename_i ss sub trail hvoid hnamed hunion
    exact reg.subtype_union_left ss trail (fun h => hvoid h) (fun n h => hnamed n h)
      fun ts h => hunion ts h
  · rename_i sup ts trail hnamed hunion
    exact reg.subtype_union_right ts trail (fun m h => hnamed m h) fun ss h => hunion ss h
  -- types of different kinds, neither of them an alias or a union
  · unfold answer
    rw [subtype]
    all_goals grind

/-- The first comparison may make the second in its turn. Whether it comes to it depends on the
answers of those before. -/
inductive Calls (reg : Registry) : Comparison → Comparison → Prop
  | element (s t : Ty) (trail : Trail) : Calls reg ⟨.array s, .array t, trail⟩ ⟨s, t, trail⟩
  | field {fs gs : List Field} {p : Field × Field} (trail : Trail) (hp : p ∈ fs.zip gs) :
      Calls reg ⟨.record fs, .record gs, trail⟩ ⟨p.1.ty, p.2.ty, trail⟩
  | aliasAbove {m : String} {body sub : Ty} {trail : Trail} (hbody : reg.alias? m = some body)
      (hnew : ¬ (trail.any fun p => p.1.same (.named m) && p.2.same sub) = true) :
      Calls reg ⟨.named m, sub, trail⟩ ⟨body, sub, (.named m, sub) :: trail⟩
  | aliasBelow {n : String} {sup body : Ty} {trail : Trail} (hbody : reg.alias? n = some body)
      (hnew : ¬ (trail.any fun p => p.1.same sup && p.2.same (.named n)) = true) :
      Calls reg ⟨sup, .named n, trail⟩ ⟨sup, body, (sup, .named n) :: trail⟩
  | members {ss ts : List Ty} {s t : Ty} (trail : Trail) (hs : s ∈ ss) (ht : t ∈ ts) :
      Calls reg ⟨.union ss, .union ts, trail⟩ ⟨s, t, trail⟩
  | memberAbove {ss : List Ty} {s : Ty} (sub : Ty) (trail : Trail) (hs : s ∈ ss) :
      Calls reg ⟨.union ss, sub, trail⟩ ⟨s, sub, trail⟩
  | memberBelow {ts : List Ty} {t : Ty} (sup : Ty) (trail : Trail) (ht : t ∈ ts) :
      Calls reg ⟨sup, .union ts, trail⟩ ⟨sup, t, trail⟩

variable {reg : Registry}

/-- The answer at a comparison rests on the comparisons that it makes in its turn and on nothing
else. -/
theorem compareOnce_congr {next next' : Comparison → Except TypeError Bool} {c : Comparison}
    (h : ∀ c', reg.Calls c c' → next c' = next' c') :
    reg.compareOnce next c = reg.compareOnce next' c := by
  unfold compareOnce
  split
  · rfl
  · rfl
  · rfl
  · rfl
  · rfl
  · -- from here on the step goes on to comparisons that it calls for
    exact h _ (.element _ _ _)
  · split
    · rfl
    · refine allM_congr fun p hp => ?_
      rw [h _ (.field _ hp)]
  · split
    · rfl
    · split
      · rfl
      · split
        · rfl
        · rename_i hbody hnew
          exact h _ (.aliasAbove hbody hnew)
  · split
    · rfl
    · split
      · rfl
      · rename_i hbody hnew
        exact h _ (.aliasBelow hbody hnew)
  · exact allM_congr fun t ht => anyM_congr fun s hs => h _ (.members _ hs ht)
  · exact anyM_congr fun s hs => h _ (.memberAbove _ _ hs)
  · exact allM_congr fun t ht => h _ (.memberBelow _ _ ht)
  · rfl

/-- A comparison fails only where one that it makes fails, or at an alias that is not declared. -/
theorem compareOnce_eq_error {next : Comparison → Except TypeError Bool} {c : Comparison}
    {e : TypeError} (h : reg.compareOnce next c = .error e) :
    (∃ c', reg.Calls c c' ∧ next c' = .error e) ∨
      ∃ n, (c.sup = .named n ∨ c.sub = .named n) ∧ reg.alias? n = none ∧
        e = ⟨.unknownType n, none⟩ := by
  unfold compareOnce at h
  split at h
  · cases h
  · cases h
  · cases h
  · cases h
  · cases h
  · exact .inl ⟨_, .element _ _ _, h⟩
  · split at h
    · cases h
    · obtain ⟨p, hp, hfield⟩ := exists_of_allM_eq_error h
      split at hfield
      · exact .inl ⟨_, .field _ hp, hfield⟩
      · cases hfield
  · -- the look-up of an alias is the only step that fails by itself
    rename_i m sub trail hvoid
    split at h
    · cases h
    · split at h
      · rename_i hnone
        cases h
        exact .inr ⟨m, .inl rfl, hnone, rfl⟩
      · split at h
        · cases h
        · rename_i hbody hnew
          exact .inl ⟨_, .aliasAbove hbody hnew, h⟩
  · rename_i sup n trail hnamed
    split at h
    · rename_i hnone
      cases h
      exact .inr ⟨n, .inr rfl, hnone, rfl⟩
    · split at h
      · cases h
      · rename_i hbody hnew
        exact .inl ⟨_, .aliasBelow hbody hnew, h⟩
  · obtain ⟨t, ht, h⟩ := exists_of_allM_eq_error h
    obtain ⟨s, hs, h⟩ := exists_of_anyM_eq_error h
    exact .inl ⟨_, .members _ hs ht, h⟩
  · obtain ⟨s, hs, h⟩ := exists_of_anyM_eq_error h
    exact .inl ⟨_, .memberAbove _ _ hs, h⟩
  · obtain ⟨t, ht, h⟩ := exists_of_allM_eq_error h
    exact .inl ⟨_, .memberBelow _ _ ht, h⟩
  · cases h

/-! ## Every step -/

/-- What a comparison goes on to: parts of its two types under the same trail, or the body of an
alias in place of the alias, with the pair put on a trail that did not hold it. -/
theorem Calls.cases {c c' : Comparison} (h : reg.Calls c c') :
    (c'.trail = c.trail ∧ c'.sup.subterms ⊆ c.sup.subterms ∧ c'.sub.subterms ⊆ c.sub.subterms ∧
      c'.sup.size + c'.sub.size < c.sup.size + c.sub.size) ∨
    (c'.trail = (c.sup, c.sub) :: c.trail ∧ (c.sup, c.sub) ∉ c.trail ∧
      ((c'.sub = c.sub ∧ ∃ m, reg.alias? m = some c'.sup) ∨
        (c'.sup = c.sup ∧ ∃ n, reg.alias? n = some c'.sub))) := by
  cases h with
  | element s t trail =>
    have := s.size_lt_array
    have := t.size_lt_array
    exact .inl ⟨rfl, s.subterms_array, t.subterms_array, by dsimp only; omega⟩
  | field trail hp =>
    obtain ⟨hf, hg⟩ := List.of_mem_zip hp
    have := Ty.size_lt_record hf
    have := Ty.size_lt_record hg
    exact .inl ⟨rfl, Ty.subterms_field hf, Ty.subterms_field hg, by dsimp only; omega⟩
  -- only the steps into an alias put a pair on the trail
  | aliasAbove hbody hnew => exact .inr ⟨rfl, not_mem_trail hnew, .inl ⟨rfl, _, hbody⟩⟩
  | aliasBelow hbody hnew => exact .inr ⟨rfl, not_mem_trail hnew, .inr ⟨rfl, _, hbody⟩⟩
  | members trail hs ht =>
    have := Ty.size_lt_union hs
    have := Ty.size_lt_union ht
    exact .inl ⟨rfl, Ty.subterms_member hs, Ty.subterms_member ht, by dsimp only; omega⟩
  | memberAbove sub trail hs =>
    have := Ty.size_lt_union hs
    exact .inl ⟨rfl, Ty.subterms_member hs, List.Subset.refl _, by dsimp only; omega⟩
  | memberBelow sup trail ht =>
    have := Ty.size_lt_union ht
    exact .inl ⟨rfl, List.Subset.refl _, Ty.subterms_member ht, by dsimp only; omega⟩

/-- Every call lowers the rank, by smaller types or by one open pair less. -/
theorem Calls.rank_lt {c c' : Comparison} (h : reg.Calls c c') :
    reg.rank c'.sup c'.sub c'.trail < reg.rank c.sup c.sub c.trail := by
  have hsup := reg.sup_subset_reachable c.sup c.sub
  have hsub := reg.sub_subset_reachable c.sup c.sub
  rcases h.cases with ⟨htrail, hsup', hsub', hsize⟩ | ⟨htrail, hnew, hbody⟩
  · rw [htrail]
    exact rank_lt_of_parts (List.Subset.trans hsup' hsup) (List.Subset.trans hsub' hsub) hsize
  · rw [htrail]
    rcases hbody with ⟨hsame, m, hbody⟩ | ⟨hsame, n, hbody⟩
    · exact rank_lt_of_push (body_subset_reachable hbody _ _) (hsame ▸ hsub) hnew
    · exact rank_lt_of_push (hsame ▸ hsup) (body_subset_reachable hbody _ _) hnew

/-- No chain of comparisons goes on for ever. -/
theorem wellFounded_calls (reg : Registry) : WellFounded fun c' c => reg.Calls c c' :=
  Subrelation.wf Calls.rank_lt (measure fun c : Comparison => reg.rank c.sup c.sub c.trail).wf

/-- The types that occur in one of two types or in the body of an alias. -/
def components (reg : Registry) (sup sub : Ty) : Set Ty :=
  {t | t ∈ sup.subterms ∨ t ∈ sub.subterms ∨
    ∃ n body, reg.alias? n = some body ∧ t ∈ body.subterms}

/-- There are finitely many types to meet. -/
theorem finite_components (reg : Registry) (sup sub : Ty) : (reg.components sup sub).Finite := by
  refine (List.finite_toSet (reg.reachable sup sub)).subset fun t ht => ?_
  rcases ht with ht | ht | ⟨n, body, hbody, ht⟩
  · exact reg.sup_subset_reachable _ _ ht
  · exact reg.sub_subset_reachable _ _ ht
  · exact body_subset_reachable hbody _ _ ht

end Registry

/-- Where a search is, seen from a set of types: the types compared and those on the trail belong to
it, together with all that occurs in the former, and the trail repeats no pair. -/
structure Comparison.Within (S : Set Ty) (c : Comparison) : Prop where
  sup : ∀ t ∈ c.sup.subterms, t ∈ S
  sub : ∀ t ∈ c.sub.subterms, t ∈ S
  pairs : ∀ p ∈ c.trail, p.1 ∈ S ∧ p.2 ∈ S
  distinct : c.trail.Nodup

namespace Registry

variable {reg : Registry}

/-- One step stays within a set that has all that occurs in alias bodies. -/
theorem Calls.within {S : Set Ty} {c c' : Comparison} (h : reg.Calls c c')
    (hbodies : ∀ n body, reg.alias? n = some body → ∀ t ∈ body.subterms, t ∈ S)
    (hc : c.Within S) : c'.Within S := by
  rcases h.cases with ⟨htrail, hsup, hsub, -⟩ | ⟨htrail, hnew, hbody⟩
  · exact ⟨fun t ht => hc.sup t (hsup ht), fun t ht => hc.sub t (hsub ht), htrail ▸ hc.pairs,
      htrail ▸ hc.distinct⟩
  -- the pair compared goes on the trail, and one side of it becomes the body of an alias
  · have hpairs : ∀ p ∈ c'.trail, p.1 ∈ S ∧ p.2 ∈ S := by
      rw [htrail, List.forall_mem_cons]
      exact ⟨⟨hc.sup _ c.sup.self_mem_subterms, hc.sub _ c.sub.self_mem_subterms⟩, hc.pairs⟩
    have hdistinct : c'.trail.Nodup := htrail ▸ List.nodup_cons.2 ⟨hnew, hc.distinct⟩
    rcases hbody with ⟨hsame, m, hbody⟩ | ⟨hsame, n, hbody⟩
    · exact ⟨hbodies m _ hbody, hsame ▸ hc.sub, hpairs, hdistinct⟩
    · exact ⟨hsame ▸ hc.sup, hbodies n _ hbody, hpairs, hdistinct⟩

/-- So does a search, however far it has come. -/
theorem within_of_reaches {sup sub : Ty} {c : Comparison}
    (h : ReflTransGen reg.Calls ⟨sup, sub, []⟩ c) : c.Within (reg.components sup sub) := by
  induction h with
  | refl => exact ⟨fun _ => .inl, fun _ h => .inr (.inl h), by simp, .nil⟩
  | tail _ hstep ih =>
    exact hstep.within (fun n body hbody t ht => .inr (.inr ⟨n, body, hbody, ht⟩)) ih

/-- Distinct pairs of types of a finite set are at most the square of its size. -/
theorem length_trail_le {S : Set Ty} {c : Comparison} (hS : S.Finite) (h : c.Within S) :
    c.trail.length ≤ S.ncard * S.ncard := by
  have hsubset : (c.trail.toFinset : Set (Ty × Ty)) ⊆ S ×ˢ S := by
    intro p hp
    exact h.pairs p (by simpa using hp)
  calc c.trail.length
      = c.trail.toFinset.card := (List.toFinset_card_of_nodup h.distinct).symm
    _ = (c.trail.toFinset : Set (Ty × Ty)).ncard := (Set.ncard_coe_finset _).symm
    _ ≤ (S ×ˢ S).ncard := Set.ncard_le_ncard hsubset (hS.prod hS)
    _ = S.ncard * S.ncard := Set.ncard_prod

/-- A search fails only where it has come to an alias that is not declared. -/
theorem reaches_of_answer_eq_error {c : Comparison} {e : TypeError}
    (h : reg.answer c = .error e) :
    ∃ c' n, ReflTransGen reg.Calls c c' ∧ (c'.sup = .named n ∨ c'.sub = .named n) ∧
      reg.alias? n = none ∧ e = ⟨.unknownType n, none⟩ := by
  -- an alias may lead to larger types, so the induction is on the calls
  induction c using reg.wellFounded_calls.induction with
  | _ c ih =>
    rw [answer_eq] at h
    rcases compareOnce_eq_error h with ⟨c', hcalls, h⟩ | ⟨n, hn, hnone, he⟩
    · obtain ⟨c'', n, hreaches, hn⟩ := ih c' hcalls h
      exact ⟨c'', n, hreaches.head hcalls, hn⟩
    · exact ⟨c, n, .refl, hn, hnone, he⟩

/-! ## The whole search -/

/-- The search is a recursion from comparison to comparison without infinite chains, and ends with
an answer or at an alias that is not declared. It meets only types that occur in the arguments or in
alias bodies, and its trail holds no pair twice, so no more pairs than there are of such types. -/
theorem isSubtype_bounded (reg : Registry) (sup sub : Ty) :
    ((∀ c, reg.answer c = reg.compareOnce reg.answer c) ∧
      (∀ next next' c, (∀ c', reg.Calls c c' → next c' = next' c') →
        reg.compareOnce next c = reg.compareOnce next' c) ∧
      WellFounded fun c' c => reg.Calls c c') ∧
    ((∃ b, reg.isSubtype sup sub = .ok b) ∨
      ∃ n, reg.alias? n = none ∧ .named n ∈ reg.components sup sub ∧
        reg.isSubtype sup sub = .error ⟨.unknownType n, none⟩) ∧
    ∀ c, ReflTransGen reg.Calls ⟨sup, sub, []⟩ c →
      c.sup ∈ reg.components sup sub ∧ c.sub ∈ reg.components sup sub ∧
      (∀ p ∈ c.trail, p.1 ∈ reg.components sup sub ∧ p.2 ∈ reg.components sup sub) ∧
      c.trail.Nodup ∧
      c.trail.length ≤ (reg.components sup sub).ncard * (reg.components sup sub).ncard := by
  refine ⟨⟨reg.answer_eq, fun _ _ _ => compareOnce_congr, reg.wellFounded_calls⟩, ?_,
    fun c hc => ?_⟩
  · -- an answer is a truth value, or an alias that is not declared and that a call has come to
    cases h : reg.isSubtype sup sub with
    | ok b => exact .inl ⟨b, rfl⟩
    | error e =>
      obtain ⟨c, n, hc, hn, hnone, rfl⟩ := reaches_of_answer_eq_error (c := ⟨sup, sub, []⟩) h
      have hwithin := within_of_reaches hc
      refine .inr ⟨n, hnone, ?_, rfl⟩
      rcases hn with hn | hn
      · exact hn ▸ hwithin.sup _ c.sup.self_mem_subterms
      · exact hn ▸ hwithin.sub _ c.sub.self_mem_subterms
  · -- the types of a call and of its trail are components of the arguments
    have hwithin := within_of_reaches hc
    exact ⟨hwithin.sup _ c.sup.self_mem_subterms, hwithin.sub _ c.sub.self_mem_subterms,
      hwithin.pairs, hwithin.distinct, length_trail_le (reg.finite_components sup sub) hwithin⟩

/-- Two aliases that stand for each other without end, one of them through a union that repeats a
member. -/
def circularRegistry : Registry where
  aliases := [("Ring", .union [.named "Link", .named "Link"]), ("Link", .named "Ring")]

/-- The search goes round the circle once and stops where it meets the pair it started from. -/
theorem isSubtype_bounded_circular :
    let reg := circularRegistry
    let c : Comparison :=
      ⟨.named "Ring", .int, [(.named "Link", .int), (.named "Ring", .int)]⟩
    ReflTransGen reg.Calls ⟨.named "Ring", .int, []⟩ c ∧ c.trail.Nodup ∧
      c.trail.length ≤
        (reg.components (.named "Ring") .int).ncard * (reg.components (.named "Ring") .int).ncard ∧
      reg.isSubtype (.named "Ring") .int = .ok true := by
  intro reg c
  have hring : reg.alias? "Ring" = some (.union [.named "Link", .named "Link"]) := by decide
  have hlink : reg.alias? "Link" = some (.named "Ring") := by decide
  -- through the first alias, its first member and the alias there, back to the start
  have hreaches : ReflTransGen reg.Calls ⟨.named "Ring", .int, []⟩ c :=
    ((ReflTransGen.refl.tail (.aliasAbove hring (by decide +kernel))).tail
      (.memberAbove _ _ (List.mem_cons_self ..))).tail (.aliasAbove hlink (by decide +kernel))
  obtain ⟨-, -, hbound⟩ := isSubtype_bounded reg (.named "Ring") .int
  obtain ⟨-, -, -, hnodup, hlength⟩ := hbound c hreaches
  exact ⟨hreaches, hnodup, hlength, by decide +kernel⟩

end Registry

end WhileTyping
