import Mathlib.Tactic.ByContra
import WhileTyping.Proofs.SameTypes
import WhileTyping.Proofs.SettledTypes

/-!
# Laws of unions

What the union of a list of types consists of, and how it depends on the list.

* **`Ty.same_union_iff_members`**: two unions that repeat no member are the same if each member of
  either is the same as one of the other. That they have equally many members need not be asked for.
* **`Ty.FirstOccurrences`**: the types of a list that come first among those that are the same.
  **`Ty.firstOccurrences_foldl`**: these are the members that `unionOf` collects. The step adds one
  type at the end of the list.
* **`Ty.foldl_addMember_foldl`**: types that were collected once may be collected again in place of
  the list they come from, so unions can be grouped in any way.
* **`Ty.unionOf_lawful`**: all of this together, with the independence of the order.
-/

namespace WhileTyping.Ty

/-- No union has a union among its members. -/
def Flat (t : Ty) : Prop := t.Everywhere MembersFlat

instance (t : Ty) : Decidable t.Flat := inferInstanceAs (Decidable (t.Everywhere _))

/-! ## Unions as sets of members -/

/-- A union has no more members than one that has a member like each of them. -/
theorem length_le_of_members {ss ts : List Ty} (hs : (union ss).NoRepeats)
    (ht : (union ts).NoRepeats) (h : ∀ s ∈ ss, ∃ t ∈ ts, s.same t = true) :
    ss.length ≤ ts.length := by
  have hcomm : ∀ s ∈ ss, ∀ t ∈ ts, t.same s = true → s.same t = true :=
    fun s hsm t htm => same_symm (ht.member htm) (hs.member hsm)
  have hfit : ∀ s ∈ ss, ∃ t ∈ ts, t ∈ ts ∧ t.same s = true := by
    intro s hsm
    obtain ⟨t, htm, hst⟩ := h s hsm
    exact ⟨t, htm, htm, same_symm (hs.member hsm) (ht.member htm) hst⟩
  exact length_le_of_fit hfit (pairwise_fit hs hcomm)

/-- Unions are the same if they have the same members up to sameness, in any order. -/
theorem same_union_iff_members {ss ts : List Ty} (hs : (union ss).NoRepeats)
    (ht : (union ts).NoRepeats) :
    (union ss).same (union ts) = true ↔
      (∀ s ∈ ss, ∃ t ∈ ts, s.same t = true) ∧ ∀ t ∈ ts, ∃ s ∈ ss, t.same s = true := by
  constructor
  · intro h
    exact ⟨(exists_same_member hs ht h).1, (exists_same_member ht hs (same_symm hs ht h)).1⟩
  · rintro ⟨hst, hts⟩
    have hlen := (length_le_of_members hs ht hst).antisymm (length_le_of_members ht hs hts)
    refine same_union_iff.2 ⟨hlen, fun s hsm => ?_⟩
    obtain ⟨t, htm, hsame⟩ := hst s hsm
    exact ⟨t, htm, same_symm (hs.member hsm) (ht.member htm) hsame⟩

/-! ## First occurrences -/

/-- The place of the first type of a list that is the same as a given one. -/
def placeIn (l : List Ty) (t : Ty) : Nat := l.findIdx fun u => u.same t

/-- The members are those types of the list that come first among the types that are the same, in
the order in which they stand there. -/
structure FirstOccurrences (l members : List Ty) : Prop where
  covers : ∀ t ∈ l, ∃ m ∈ members, m.same t = true
  first : ∀ m ∈ members, l[placeIn l m]? = some m
  ordered : members.Pairwise fun s t => placeIn l s < placeIn l t

/-- What comes after the first occurrence does not move it. -/
theorem placeIn_append_of_lt {l l' : List Ty} {t : Ty} (h : placeIn l t < l.length) :
    placeIn (l ++ l') t = placeIn l t := by
  rw [placeIn, List.findIdx_append]
  exact if_pos h

/-- A type that is the same as none of a list has its place right behind it. -/
theorem placeIn_append_self {l : List Ty} {t : Ty} (h : ∀ u ∈ l, u.same t = false) :
    placeIn (l ++ [t]) t = l.length := by
  have hend : l.findIdx (fun u => u.same t) = l.length :=
    List.findIdx_eq_length.2 h
  rw [placeIn, List.findIdx_append, hend]
  simp

namespace FirstOccurrences

variable {l members : List Ty}

/-- A member occurs. -/
theorem placeIn_lt (h : FirstOccurrences l members) {m : Ty} (hm : m ∈ members) :
    placeIn l m < l.length :=
  (List.getElem?_eq_some_iff.1 (h.first m hm)).1

/-- The members keep their places when the list goes on. -/
theorem placeIn_append (h : FirstOccurrences l members) {m : Ty} (hm : m ∈ members) (l' : List Ty) :
    placeIn (l ++ l') m = placeIn l m :=
  placeIn_append_of_lt (h.placeIn_lt hm)

/-- The members are still first occurrences when more is appended. -/
theorem first_append (h : FirstOccurrences l members) {m : Ty} (hm : m ∈ members) (l' : List Ty) :
    (l ++ l')[placeIn (l ++ l') m]? = some m := by
  rw [h.placeIn_append hm, List.getElem?_append_left (h.placeIn_lt hm)]
  exact h.first m hm

/-- They are still in their order. -/
theorem ordered_append (h : FirstOccurrences l members) (l' : List Ty) :
    members.Pairwise fun s t => placeIn (l ++ l') s < placeIn (l ++ l') t := by
  refine h.ordered.imp_of_mem fun hs ht hlt => ?_
  rw [h.placeIn_append hs, h.placeIn_append ht]
  exact hlt

/-- One more type at the end of the list. -/
theorem addMember (h : FirstOccurrences l members) (t : Ty) :
    FirstOccurrences (l ++ [t]) (Ty.addMember members t) := by
  have hcovers : ∀ u ∈ l ++ [t], ∃ m ∈ Ty.addMember members t, m.same u = true := by
    intro u hu
    rcases List.mem_append.1 hu with hu | hu
    · obtain ⟨m, hm, hsame⟩ := h.covers u hu
      exact ⟨m, subset_addMember members t hm, hsame⟩
    · rw [List.mem_singleton.1 hu]
      exact exists_same_addMember members t
  suffices hplaces : (∀ m ∈ Ty.addMember members t, (l ++ [t])[placeIn (l ++ [t]) m]? = some m) ∧
      (Ty.addMember members t).Pairwise fun s u => placeIn (l ++ [t]) s < placeIn (l ++ [t]) u from
    ⟨hcovers, hplaces.1, hplaces.2⟩
  unfold Ty.addMember
  split
  · -- the type is the same as a member, and the members stay
    exact ⟨fun m hm => h.first_append hm [t], h.ordered_append [t]⟩
  · rename_i hnew
    have hnew : ∀ m ∈ members, m.same t = false := by simpa using hnew
    -- no type of the list is the same as the new one, or its first occurrence would be too
    have hplace : placeIn (l ++ [t]) t = l.length := by
      refine placeIn_append_self fun u hu => ?_
      obtain ⟨m, hm, hmu⟩ := h.covers u hu
      by_contra hut
      have hmt := same_trans hmu (Bool.of_not_eq_false hut)
      rw [hnew m hm] at hmt
      cases hmt
    constructor
    · intro m hm
      rcases List.mem_append.1 hm with hm | hm
      · exact h.first_append hm [t]
      · rw [List.mem_singleton.1 hm, hplace]
        simp
    · -- the new member occurs after all that was there
      refine List.pairwise_append.2 ⟨h.ordered_append [t], List.pairwise_singleton .., ?_⟩
      intro m hm u hu
      rw [List.mem_singleton.1 hu, hplace, h.placeIn_append hm]
      exact h.placeIn_lt hm

end FirstOccurrences

/-- Added one after another, the members are the first occurrences, by induction from the right. -/
theorem firstOccurrences_foldl (l : List Ty) : FirstOccurrences l (l.foldl addMember []) := by
  induction l using List.reverseRecOn with
  | nil =>
    exact ⟨fun t ht => absurd ht List.not_mem_nil, fun m hm => absurd hm List.not_mem_nil, .nil⟩
  | append_singleton l t ih =>
    rw [List.foldl_append]
    exact ih.addMember t

/-! ## Grouping -/

/-- A type may be added to the members before they are collected or after. -/
theorem foldl_addMember_addMember (acc members : List Ty) (t : Ty) :
    (addMember members t).foldl addMember acc = addMember (members.foldl addMember acc) t := by
  by_cases h : (members.any fun m => m.same t) = true
  · obtain ⟨m, hm, hmt⟩ := List.any_eq_true.1 h
    obtain ⟨m', hm', hm'm⟩ := exists_same_foldl_addMember acc hm
    have hkept : ((members.foldl addMember acc).any fun m => m.same t) = true :=
      List.any_eq_true.2 ⟨m', hm', same_trans hm'm hmt⟩
    rw [addMember, if_pos h, addMember, if_pos hkept]
  · rw [addMember, if_neg h, List.foldl_append]
    rfl

/-- Members may be gathered in groups, as those that repeat others are dropped in either case. -/
theorem foldl_addMember_foldl (acc l : List Ty) :
    (l.foldl addMember []).foldl addMember acc = l.foldl addMember acc := by
  induction l using List.reverseRecOn with
  | nil => rfl
  | append_singleton l t ih =>
    rw [List.foldl_append, List.foldl_append]
    calc (addMember (l.foldl addMember []) t).foldl addMember acc
        = addMember ((l.foldl addMember []).foldl addMember acc) t := foldl_addMember_addMember ..
      _ = addMember (l.foldl addMember acc) t := by rw [ih]

/-- The union of two unions is the union of all their types. -/
theorem unionOf_append (xs ys : List Ty) :
    unionOf [unionOf xs, unionOf ys] = unionOf (xs ++ ys) := by
  have halternatives : [unionOf xs, unionOf ys].flatMap alternatives =
      (xs.flatMap alternatives).foldl addMember [] ++
        (ys.flatMap alternatives).foldl addMember [] := by
    simp [unionOf, alternatives]
  rw [unionOf, halternatives, List.foldl_append, foldl_addMember_foldl, foldl_addMember_foldl,
    unionOf, List.flatMap_append, List.foldl_append]

/-! ## The union of some types -/

/-- The union of types without repeated members has none. -/
theorem noRepeats_unionOf {xs : List Ty} (h : ∀ x ∈ xs, x.NoRepeats) : (unionOf xs).NoRepeats :=
  everywhere_unionOf (membersDiffer_unionOf xs) h

/-- The union of flat types is flat. -/
theorem flat_unionOf {xs : List Ty} (h : ∀ x ∈ xs, x.Flat) : (unionOf xs).Flat :=
  everywhere_unionOf (membersFlat_unionOf fun x hx => (h x hx).here) h

/-- A member of a union is an alternative of one of its types, and so the same as a member of the
union of more types. -/
theorem exists_same_member_unionOf {xs ys : List Ty} (hys : ∀ y ∈ ys, y.NoRepeats) (h : xs ⊆ ys) :
    ∀ m ∈ (xs.flatMap alternatives).foldl addMember [],
      ∃ m' ∈ (ys.flatMap alternatives).foldl addMember [], m.same m' = true := by
  intro m hm
  obtain ⟨x, hx, hmx⟩ := exists_alternative hm
  obtain ⟨m', hm', hsame⟩ := exists_same_foldl_addMember [] (List.mem_flatMap.2 ⟨x, h hx, hmx⟩)
  have hm'' := (noRepeats_unionOf hys).member hm'
  exact ⟨m', hm', same_symm hm'' ((hys x (h hx)).alternative hmx) hsame⟩

/-- The union depends only on which types there are. -/
theorem same_unionOf {xs ys : List Ty} (hxs : ∀ x ∈ xs, x.NoRepeats) (h : ∀ t, t ∈ xs ↔ t ∈ ys) :
    (unionOf xs).same (unionOf ys) = true := by
  have hys : ∀ y ∈ ys, y.NoRepeats := fun y hy => hxs y ((h y).2 hy)
  exact (same_union_iff_members (noRepeats_unionOf hxs) (noRepeats_unionOf hys)).2
    ⟨exists_same_member_unionOf hys fun t => (h t).1,
      exists_same_member_unionOf hxs fun t => (h t).2⟩

/-- Where no union repeats a member, sameness is an equivalence and compares unions as sets. The
union of a list of flat types is flat again and consists of the first occurrences of their members;
the order of the list does not matter, nor does grouping. -/
theorem unionOf_lawful :
    (Equivalence fun s t : { t : Ty // t.NoRepeats } => s.1.same t.1 = true) ∧
      (∀ ss ts : List Ty, (union ss).NoRepeats → (union ts).NoRepeats →
        ((union ss).same (union ts) = true ↔
          (∀ s ∈ ss, ∃ t ∈ ts, s.same t = true) ∧ ∀ t ∈ ts, ∃ s ∈ ss, t.same s = true)) ∧
      ∀ xs : List Ty, (∀ x ∈ xs, x.NoRepeats ∧ x.Flat) →
        (unionOf xs).NoRepeats ∧ (unionOf xs).Flat ∧
          (∃ members, unionOf xs = .union members ∧
            FirstOccurrences (xs.flatMap alternatives) members) ∧
          (∀ ys, xs.Perm ys → (unionOf xs).same (unionOf ys) = true) ∧
          ∀ ys, unionOf [unionOf xs, unionOf ys] = unionOf (xs ++ ys) := by
  refine ⟨⟨fun t => t.1.same_refl, fun {s t} => same_symm s.2 t.2, same_trans⟩,
    fun ss ts => same_union_iff_members, fun xs hxs => ?_⟩
  have hnorepeats : ∀ x ∈ xs, x.NoRepeats := fun x hx => (hxs x hx).1
  exact ⟨noRepeats_unionOf hnorepeats, flat_unionOf fun x hx => (hxs x hx).2,
    ⟨_, rfl, firstOccurrences_foldl _⟩,
    fun ys hperm => same_unionOf hnorepeats fun t => hperm.mem_iff, unionOf_append xs⟩

/-- An array type that stands in the list twice, with its members in different orders. The first of
the two is kept, whichever it is. -/
theorem unionOf_lawful_arrays :
    let first : Ty := .array (.union [.int, .bool])
    let second : Ty := .array (.union [.bool, .int])
    first.same second = true ∧
      unionOf [first, .union [.string, second], .int] = .union [first, .string, .int] ∧
      unionOf [.int, .union [.string, second], first] = .union [.int, .string, second] ∧
      (unionOf [first, .union [.string, second], .int]).same
        (unionOf [.int, .union [.string, second], first]) = true ∧
      unionOf [.union [first, .string], .union [second, .int]] =
        unionOf [first, .string, second, .int] := by
  intro first second
  have hxs : ∀ x ∈ [first, .union [.string, second], .int], x.NoRepeats ∧ x.Flat := by
    decide +kernel
  have hpair : ∀ x ∈ [first, .string], x.NoRepeats ∧ x.Flat := by decide +kernel
  obtain ⟨-, -, hunion⟩ := unionOf_lawful
  -- the two arrays are the same, so which of them is kept depends on the order
  obtain ⟨-, -, -, hperm, -⟩ := hunion _ hxs
  obtain ⟨-, -, -, -, hgroup⟩ := hunion _ hpair
  have hfirst : unionOf [first, .string] = .union [first, .string] := by decide +kernel
  have hsecond : unionOf [second, .int] = .union [second, .int] := by decide +kernel
  have hgrouped := hgroup [second, .int]
  rw [hfirst, hsecond] at hgrouped
  exact ⟨by decide +kernel, by decide +kernel, by decide +kernel,
    hperm _ (List.reverse_perm _).symm, hgrouped⟩

end WhileTyping.Ty
