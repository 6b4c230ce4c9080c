import WhileTyping.Subtyping.Rank
import WhileTyping.Ty.Union

/-!
# Subtyping

`isSubtype sup sub` says whether a value of type `sub` may be used where `sup` is expected:

* `void` is below every type;
* a primitive type is below itself only;
* arrays compare by their elements;
* a record is below another whose fields are a prefix of its own, with the same names and with
  types below;
* an alias is below itself, and otherwise stands for its body;
* a union is below a type if each member is, and a type is below a union if it is below some
  member; of two unions, each member of the lower is below some member of the upper.

Aliases may be recursive. `subtype` carries the trail of pairs at which it expanded one, and accepts
a pair that it meets again: the two types agree as far as they have been compared. An alias that is
not declared is an error, but only if the comparison comes to it.
-/

namespace WhileTyping

/-- A pair like none on the trail is not on the trail itself. -/
theorem not_mem_trail {trail : Trail} {sup sub : Ty}
    (h : ¬ (trail.any fun p => p.1.same sup && p.2.same sub) = true) : (sup, sub) ∉ trail := by
  intro hmem
  exact h (List.any_eq_true.2 ⟨(sup, sub), hmem, by simp⟩)

namespace Registry

-- The named hypotheses are read by `decreasing_by` only, which the linter does not see.
set_option linter.unusedVariables false in
/-- Whether the second type is below the first, given a trail of pairs taken for granted. -/
def subtype (reg : Registry) (sup sub : Ty) (trail : Trail) : Except TypeError Bool :=
  match sup, sub with
  | _, .void => .ok true
  | .bool, .bool | .char, .char | .int, .int | .string, .string => .ok true
  | .array s, .array t => reg.subtype s t trail
  | .record fs, .record gs =>
    -- the lower record may have more fields, but only after those of the upper one
    if gs.length < fs.length then .ok false
    else (fs.zip gs).attach.allM fun ⟨p, hp⟩ =>
      if p.1.name = p.2.name then reg.subtype p.1.ty p.2.ty trail else .ok false
  -- an alias is unfolded, the upper one first, unless this pair is on the trail
  | .named m, sub =>
    if sub = .named m then .ok true
    else
      match hm : reg.alias? m with
      | none => .error ⟨.unknownType m, none⟩
      | some body =>
        if hnew : trail.any fun p => p.1.same (.named m) && p.2.same sub then .ok true
        else reg.subtype body sub ((.named m, sub) :: trail)
  | sup, .named n =>
    match hn : reg.alias? n with
    | none => .error ⟨.unknownType n, none⟩
    | some body =>
      if hnew : trail.any fun p => p.1.same sup && p.2.same (.named n) then .ok true
      else reg.subtype sup body ((sup, .named n) :: trail)
  -- each member below needs one above it: a member is not compared with the whole union
  | .union ss, .union ts =>
    ts.attach.allM fun ⟨t, ht⟩ => ss.attach.anyM fun ⟨s, hs⟩ => reg.subtype s t trail
  | .union ss, sub => ss.attach.anyM fun ⟨s, hs⟩ => reg.subtype s sub trail
  | sup, .union ts => ts.attach.allM fun ⟨t, ht⟩ => reg.subtype sup t trail
  | _, _ => .ok false
termination_by reg.rank sup sub trail
decreasing_by
  · have := s.size_lt_array
    have := t.size_lt_array
    exact rank_lt_of_parts (fun _ h => sup_subset_reachable _ _ _ (s.subterms_array h))
      (fun _ h => sub_subset_reachable _ _ _ (t.subterms_array h)) (by omega)
  · have hf := (List.of_mem_zip hp).1
    have hg := (List.of_mem_zip hp).2
    have := Ty.size_lt_record hf
    have := Ty.size_lt_record hg
    exact rank_lt_of_parts (fun _ h => sup_subset_reachable _ _ _ (Ty.subterms_field hf h))
      (fun _ h => sub_subset_reachable _ _ _ (Ty.subterms_field hg h)) (by omega)
  · exact rank_lt_of_push (body_subset_reachable hm _ _) (sub_subset_reachable _ _ _)
      (not_mem_trail hnew)
  · exact rank_lt_of_push (sup_subset_reachable _ _ _) (body_subset_reachable hn _ _)
      (not_mem_trail hnew)
  · have := Ty.size_lt_union hs
    have := Ty.size_lt_union ht
    exact rank_lt_of_parts (fun _ h => sup_subset_reachable _ _ _ (Ty.subterms_member hs h))
      (fun _ h => sub_subset_reachable _ _ _ (Ty.subterms_member ht h)) (by omega)
  · have := Ty.size_lt_union hs
    exact rank_lt_of_parts (fun _ h => sup_subset_reachable _ _ _ (Ty.subterms_member hs h))
      (sub_subset_reachable _ _ _) (by omega)
  · have := Ty.size_lt_union ht
    exact rank_lt_of_parts (sup_subset_reachable _ _ _)
      (fun _ h => sub_subset_reachable _ _ _ (Ty.subterms_member ht h)) (by omega)

def isSubtype (reg : Registry) (sup sub : Ty) : Except TypeError Bool := reg.subtype sup sub []

/-- Each type is below the other. The second comparison is made only if the first holds. -/
def equivalent (reg : Registry) (s t : Ty) : Except TypeError Bool := do
  if ← reg.isSubtype s t then reg.isSubtype t s else .ok false

/-- Fails unless the second type is below the first. -/
def expectSubtype (reg : Registry) (sup sub : Ty) (span : Option Span) : Except TypeError Unit := do
  if ← located span (reg.isSubtype sup sub) then .ok ()
  else .error ⟨.typeMismatch sup sub, span⟩

end Registry

end WhileTyping
