import WhileTyping.Proofs.FoundTypes

/-!
# Settled types

The types that checking finds are not arbitrary: they mention declared aliases only, hold no `var`,
their records have distinct field names, and their unions have members, none of them repeated or
itself a union. Such a type is *settled*. Without the conditions on unions, it is *faultless*;
without the condition on records, it is *orderly*, which is all that subtyping asks for.

* **`settled_of_faultless`**: a written type that passes its check is faultless, and settled if its
  unions are canonical.
* **`settled_unionOf`**, **`orderly_unionOf`**, **`faultless_unionOf`**: so is the union of such
  types.
* **`AllSettled.hereditary`**, **`hereditary_faultless`**: so are the types found from such types,
  in a registry whose own types are of this kind.
-/

namespace WhileTyping

/-- A node that is a record has no two fields of one name. -/
def Ty.FieldsDiffer : Ty → Prop
  | .record fs => (fs.map Field.name).Nodup
  | _ => True

namespace Registry

/-- What a settled type satisfies at each node. -/
structure SettledNode (reg : Registry) (t : Ty) : Prop where
  declares : reg.Declares t
  ne_inferred : t ≠ .inferred
  ne_empty : t ≠ .union []
  membersFlat : t.MembersFlat
  membersDiffer : t.MembersDiffer
  fieldsDiffer : t.FieldsDiffer

/-- A type that is settled in all of its parts. -/
def Settled (reg : Registry) (t : Ty) : Prop := t.Everywhere reg.SettledNode

/-- A written type without a fault. -/
def Faultless (reg : Registry) (t : Ty) : Prop := reg.wellFormed t = .ok ()

/-- What subtyping asks of a type: declared aliases only, no `var`, and canonical unions. -/
structure Orderly (reg : Registry) (t : Ty) : Prop where
  covers : reg.Covers t
  noInferred : t.NoInferred
  canonical : t.Canonical

/-- The types that a registry holds for others to find are settled: the bodies of aliases, and what
methods return. -/
structure AllSettled (reg : Registry) : Prop where
  bodies : reg.Bodies reg.Settled
  returns : ∀ s ∈ reg.methods, reg.Settled s.ret

variable {reg : Registry}

/-- A settled type is orderly. -/
theorem Settled.orderly {t : Ty} (h : reg.Settled t) : reg.Orderly t where
  covers u hu := (h u hu).declares
  noInferred u hu := (h u hu).ne_inferred
  canonical u hu := ⟨(h u hu).ne_empty, (h u hu).membersFlat, (h u hu).membersDiffer⟩

/-- An orderly type is regular. -/
theorem Orderly.regular {t : Ty} (h : reg.Orderly t) : reg.Regular t where
  covers := h.covers
  noEmptyUnion u hu := (h.canonical u hu).1
  noRepeats u hu := (h.canonical u hu).2.2

theorem orderly_iff {t : Ty} : reg.Orderly t ↔ reg.Covers t ∧ t.NoInferred ∧ t.Canonical :=
  ⟨fun h => ⟨h.covers, h.noInferred, h.canonical⟩, fun h => ⟨h.1, h.2.1, h.2.2⟩⟩

instance (t : Ty) : Decidable (reg.Orderly t) := decidable_of_iff' _ orderly_iff

/-! ## Settled by form -/

@[simp] theorem settled_void : reg.Settled .void := by
  intro u hu
  cases List.mem_singleton.1 hu
  exact ⟨trivial, nofun, nofun, trivial, trivial, trivial⟩

theorem settled_of_isPrimitive {t : Ty} (h : t.isPrimitive = true) : reg.Settled t := by
  cases t with
  | bool | char | int | string =>
    intro u hu
    cases List.mem_singleton.1 hu
    exact ⟨trivial, nofun, nofun, trivial, trivial, trivial⟩
  | void | inferred | array | record | named | union => cases h

/-- A name is settled if it is declared. -/
theorem settled_named {n : String} : reg.Settled (.named n) ↔ (reg.alias? n).isSome = true := by
  constructor
  · exact fun h => h.here.declares
  · intro h u hu
    cases List.mem_singleton.1 hu
    exact ⟨h, nofun, nofun, trivial, trivial, trivial⟩

@[simp] theorem settled_array {e : Ty} : reg.Settled (.array e) ↔ reg.Settled e := by
  constructor
  · exact fun h => h.element
  · exact fun h =>
      Ty.everywhere_array_iff.2 ⟨⟨trivial, nofun, nofun, trivial, trivial, trivial⟩, h⟩

/-- A record type is settled if its names differ and its fields are settled. -/
theorem settled_record {fs : List Field} :
    reg.Settled (.record fs) ↔ (fs.map Field.name).Nodup ∧ ∀ f ∈ fs, reg.Settled f.ty := by
  constructor
  · exact fun h => ⟨h.here.fieldsDiffer, fun f hf => h.field hf⟩
  · exact fun h =>
      Ty.everywhere_record_iff.2 ⟨⟨trivial, nofun, nofun, trivial, trivial, h.1⟩, h.2⟩

/-- A union is settled if it has members, none of them a union, that differ and are settled. -/
theorem settled_union {ts : List Ty} :
    reg.Settled (.union ts) ↔ ts ≠ [] ∧ (∀ t ∈ ts, t.isUnion = false) ∧
      (ts.Pairwise fun s t => s.same t = false) ∧ ∀ t ∈ ts, reg.Settled t := by
  constructor
  · intro h
    have hnode := h.here
    exact ⟨fun hnil => hnode.ne_empty (hnil ▸ rfl), hnode.membersFlat, hnode.membersDiffer,
      fun t ht => h.member ht⟩
  · rintro ⟨hne, hflat, hdiffer, hmembers⟩
    exact Ty.everywhere_union_iff.2
      ⟨⟨trivial, nofun, fun h => hne (Ty.union.inj h), hflat, hdiffer, trivial⟩, hmembers⟩

/-! ## Written types -/

/-- Several types pass the check if each does. -/
theorem wellFormedAll_eq_ok {ts : List Ty} :
    reg.wellFormedAll ts = .ok () ↔ ∀ t ∈ ts, reg.wellFormed t = .ok () := by
  induction ts with
  | nil => simp [wellFormedAll]
  | cons t ts ih =>
    rw [wellFormedAll, List.forall_mem_cons, ← ih]
    cases reg.wellFormed t <;> simp [bind, Except.bind]

/-- Fields pass the check if their names are new, and their types pass. -/
theorem wellFormedFields_eq_ok {seen : List String} {fs : List Field} :
    reg.wellFormedFields seen fs = .ok () ↔ (fs.map Field.name).Nodup ∧
      (∀ f ∈ fs, f.name ∉ seen) ∧ ∀ f ∈ fs, reg.wellFormed f.ty = .ok () := by
  induction fs generalizing seen with
  | nil => simp [wellFormedFields]
  | cons f fs ih =>
    obtain ⟨n, t⟩ := f
    rw [wellFormedFields]
    by_cases hn : n ∈ seen
    · simp [hn]
    -- the names of the other fields avoid `n`, which is what makes the list distinct
    · cases ht : reg.wellFormed t with
      | error e => simp [hn, ht, bind, Except.bind]
      | ok =>
        simp only [hn, if_false, bind, Except.bind, ih]
        simp only [List.map_cons, List.nodup_cons, List.mem_map, List.mem_cons, not_or]
        grind

/-- A written type without a fault is settled, if its unions are canonical. -/
theorem settled_of_faultless {t : Ty} (h : reg.Faultless t) (hcan : t.Canonical) :
    reg.Settled t := by
  induction t with
  | void => exact settled_void
  | bool | char | int | string => exact settled_of_isPrimitive rfl
  | inferred => cases h
  | array e ih => exact settled_array.2 (ih h hcan.element)
  | named n =>
    rw [Faultless, wellFormed] at h
    split at h
    · rename_i hn
      exact settled_named.2 hn
    · cases h
  | record fs ih =>
    obtain ⟨hnodup, -, hfields⟩ := wellFormedFields_eq_ok.1 h
    exact settled_record.2 ⟨hnodup, fun f hf => ih f hf (hfields f hf) (hcan.field hf)⟩
  | union ts ih =>
    -- what the check of written types does not look at is what being canonical says
    obtain ⟨hne, hflat, hdiffer⟩ := hcan.here
    have hmembers := wellFormedAll_eq_ok.1 h
    exact settled_union.2 ⟨fun hnil => hne (hnil ▸ rfl), hflat, hdiffer,
      fun t ht => ih t ht (hmembers t ht) (hcan.member ht)⟩

/-- A type that may be written is faultless. -/
theorem faultless_of_expectValueType {t : Ty} {span : Option Span}
    (h : reg.expectValueType t span = .ok ()) : reg.Faultless t := by
  simp only [expectValueType, bind_eq_ok, mapError_eq_ok] at h
  obtain ⟨⟨⟩, hwf, -⟩ := h
  exact hwf

/-- If it is canonical as well, it is settled. -/
theorem settled_of_expectValueType {t : Ty} {span : Option Span}
    (h : reg.expectValueType t span = .ok ()) (hcan : t.Canonical) : reg.Settled t :=
  settled_of_faultless (faultless_of_expectValueType h) hcan

/-- The bodies of aliases are orderly if they pass their check and their unions are canonical. -/
theorem orderly_bodies
    (h : reg.Bodies fun t => reg.expectValueType t none = .ok () ∧ t.Canonical) :
    reg.Bodies reg.Orderly :=
  h.imp fun _ ht => (settled_of_expectValueType ht.1 ht.2).orderly

theorem faultless_of_expectReturnType {t : Ty} {span : Option Span}
    (h : reg.expectReturnType t span = .ok ()) : reg.Faultless t := by
  unfold expectReturnType at h
  split at h
  · rfl
  · exact faultless_of_expectValueType h

end Registry

/-! ## Unions

The members of a union are collected from left to right. The lemmas are stated for the collection
from any members found so far, which is what the induction goes through. -/

namespace Ty

/-- A member that is added is the only new one. -/
theorem mem_addMember {members : List Ty} {t m : Ty} (h : m ∈ addMember members t) :
    m ∈ members ∨ m = t := by
  unfold addMember at h
  split at h
  · exact .inl h
  · simpa using h

theorem subset_addMember (members : List Ty) (t : Ty) : members ⊆ addMember members t := by
  unfold addMember
  split
  · exact List.Subset.refl _
  · exact List.subset_append_left ..

/-- There is a member like the one that is added, be it an earlier one. -/
theorem exists_same_addMember (members : List Ty) (t : Ty) :
    ∃ m ∈ addMember members t, m.same t = true := by
  unfold addMember
  split
  · rename_i h
    exact List.any_eq_true.1 h
  · exact ⟨t, by simp, t.same_refl⟩

/-- Members stay distinct. -/
theorem pairwise_addMember {members : List Ty} (t : Ty)
    (h : members.Pairwise fun s t => s.same t = false) :
    (addMember members t).Pairwise fun s t => s.same t = false := by
  unfold addMember
  split
  · exact h
  · rename_i hnew
    have hnew : ∀ m ∈ members, m.same t = false := by simpa using hnew
    exact List.pairwise_append.2 ⟨h, List.pairwise_singleton .., by simpa using hnew⟩

/-- The same for several members, one after another. -/
theorem mem_foldl_addMember {ts members : List Ty} {m : Ty} (h : m ∈ ts.foldl addMember members) :
    m ∈ members ∨ m ∈ ts := by
  induction ts generalizing members with
  | nil => exact .inl h
  | cons t ts ih =>
    rcases ih h with h | h
    · rcases mem_addMember h with h | rfl
      · exact .inl h
      · exact .inr (List.mem_cons_self ..)
    · exact .inr (List.mem_cons_of_mem _ h)

theorem subset_foldl_addMember (ts members : List Ty) : members ⊆ ts.foldl addMember members := by
  induction ts generalizing members with
  | nil => exact List.Subset.refl _
  | cons t ts ih => exact List.Subset.trans (subset_addMember members t) (ih _)

/-- Each of several members has one like it in the end. -/
theorem exists_same_foldl_addMember {ts : List Ty} (members : List Ty) {t : Ty} (h : t ∈ ts) :
    ∃ m ∈ ts.foldl addMember members, m.same t = true := by
  induction ts generalizing members with
  | nil => cases h
  | cons u ts ih =>
    rcases List.mem_cons.1 h with rfl | h
    · obtain ⟨m, hm, hsame⟩ := exists_same_addMember members t
      exact ⟨m, subset_foldl_addMember ts _ hm, hsame⟩
    · exact ih _ h

/-- The members of a union are alternatives of the types it is made of. -/
theorem exists_alternative {ts : List Ty} {m : Ty}
    (h : m ∈ (ts.flatMap alternatives).foldl addMember []) : ∃ t ∈ ts, m ∈ t.alternatives := by
  rcases mem_foldl_addMember h with h | h
  · cases h
  · exact List.mem_flatMap.1 h

theorem pairwise_foldl_addMember {ts members : List Ty}
    (h : members.Pairwise fun s t => s.same t = false) :
    (ts.foldl addMember members).Pairwise fun s t => s.same t = false := by
  induction ts generalizing members with
  | nil => exact h
  | cons t ts ih => exact ih (pairwise_addMember t h)

/-- A type that is no union is its own alternative. -/
theorem alternatives_eq_self {t : Ty} (h : ∀ ts, t ≠ .union ts) : t.alternatives = [t] := by
  cases t with
  | union ts => exact absurd rfl (h ts)
  | void | bool | char | int | string | inferred | array | record | named => rfl

/-- An alternative of a type is a part of it or the type itself. -/
theorem Everywhere.alternative {P : Ty → Prop} {t a : Ty} (h : t.Everywhere P)
    (ha : a ∈ t.alternatives) : a.Everywhere P := by
  cases t with
  | union ts => exact h.member ha
  | void | bool | char | int | string | inferred | array | record | named =>
    cases List.mem_singleton.1 ha
    exact h

/-- A union adds nothing but its own node to the types it is made of. -/
theorem everywhere_unionOf {P : Ty → Prop} {ts : List Ty} (hnode : P (.unionOf ts))
    (h : ∀ t ∈ ts, t.Everywhere P) : (unionOf ts).Everywhere P := by
  refine everywhere_union_iff.2 ⟨hnode, fun m hm => ?_⟩
  obtain ⟨t, ht, hm⟩ := exists_alternative hm
  exact (h t ht).alternative hm

/-- Only the empty union has no alternatives. -/
theorem alternatives_ne_nil {t : Ty} (h : t ≠ .union []) : t.alternatives ≠ [] := by
  cases t with
  | union ts => exact fun hnil => h (congrArg Ty.union hnil)
  | void | bool | char | int | string | inferred | array | record | named =>
    exact List.cons_ne_nil _ _

/-- The alternatives of a flat union are no unions. -/
theorem isUnion_of_mem_alternatives {t a : Ty} (h : t.MembersFlat) (ha : a ∈ t.alternatives) :
    a.isUnion = false := by
  cases t with
  | union ts => exact h a ha
  | void | bool | char | int | string | inferred | array | record | named =>
    cases List.mem_singleton.1 ha
    rfl

theorem membersFlat_unionOf {ts : List Ty} (h : ∀ t ∈ ts, t.MembersFlat) :
    (unionOf ts).MembersFlat := by
  intro m hm
  obtain ⟨t, ht, hm⟩ := exists_alternative hm
  exact isUnion_of_mem_alternatives (h t ht) hm

theorem membersDiffer_unionOf (ts : List Ty) : (unionOf ts).MembersDiffer :=
  pairwise_foldl_addMember .nil

/-- The union of canonical types has members, none of them repeated or a union. -/
theorem canonical_unionOf_node {ts : List Ty} (hne : ts ≠ []) (h : ∀ t ∈ ts, t.Canonical) :
    unionOf ts ≠ .union [] ∧ (unionOf ts).MembersFlat ∧ (unionOf ts).MembersDiffer := by
  refine ⟨fun hnil => ?_, membersFlat_unionOf fun t ht => (h t ht).here.2.1,
    membersDiffer_unionOf ts⟩
  -- some type has an alternative, and a member that is the same as it
  obtain ⟨t, ht⟩ := List.exists_mem_of_ne_nil ts hne
  obtain ⟨a, ha⟩ := List.exists_mem_of_ne_nil _ (alternatives_ne_nil (h t ht).here.1)
  obtain ⟨m, hm, -⟩ := exists_same_foldl_addMember [] (List.mem_flatMap.2 ⟨t, ht, ha⟩)
  exact List.ne_nil_of_mem hm (Ty.union.inj hnil)

end Ty

namespace Registry

variable {reg : Registry}

theorem Orderly.alternative {t a : Ty} (h : reg.Orderly t) (ha : a ∈ t.alternatives) :
    reg.Orderly a :=
  ⟨h.covers.alternative ha, h.noInferred.alternative ha, h.canonical.alternative ha⟩

/-- The union of orderly types is orderly. -/
theorem orderly_unionOf {ts : List Ty} (hne : ts ≠ []) (h : ∀ t ∈ ts, reg.Orderly t) :
    reg.Orderly (.unionOf ts) where
  covers := Ty.everywhere_unionOf trivial fun t ht => (h t ht).covers
  noInferred := Ty.everywhere_unionOf nofun fun t ht => (h t ht).noInferred
  canonical :=
    have hcanonical : ∀ t ∈ ts, t.Canonical := fun t ht => (h t ht).canonical
    Ty.everywhere_unionOf (Ty.canonical_unionOf_node hne hcanonical) hcanonical

/-- The union of settled types is settled. -/
theorem settled_unionOf {ts : List Ty} (hne : ts ≠ []) (h : ∀ t ∈ ts, reg.Settled t) :
    reg.Settled (.unionOf ts) := by
  obtain ⟨hempty, hflat, hdiffer⟩ :=
    Ty.canonical_unionOf_node hne fun t ht => (h t ht).orderly.canonical
  exact Ty.everywhere_unionOf ⟨trivial, nofun, hempty, hflat, hdiffer, trivial⟩ h

/-- The union of faultless types is faultless. -/
theorem faultless_unionOf {ts : List Ty} (h : ∀ t ∈ ts, reg.Faultless t) :
    reg.Faultless (.unionOf ts) := by
  refine wellFormedAll_eq_ok.2 fun m hm => ?_
  obtain ⟨t, ht, hm⟩ := Ty.exists_alternative hm
  have ht : reg.wellFormed t = .ok () := h t ht
  cases t with
  | union us => exact wellFormedAll_eq_ok.1 ht m hm
  | void | bool | char | int | string | inferred | array | record | named =>
    cases List.mem_singleton.1 hm
    exact ht

/-! ## Found types -/

/-- Settled types stay so through every rule that finds a type. -/
theorem AllSettled.hereditary (h : reg.AllSettled) : reg.Hereditary reg.Settled where
  void := settled_void
  primitive := settled_of_isPrimitive
  array := settled_array
  record := settled_record
  member hts := (settled_union.1 hts).2.2.2
  unionOf := settled_unionOf
  bodies := h.bodies
  returns := h.returns

/-- So do faultless types. -/
theorem hereditary_faultless (hbodies : reg.Bodies reg.Faultless)
    (hreturns : ∀ s ∈ reg.methods, reg.Faultless s.ret) : reg.Hereditary reg.Faultless where
  void := rfl
  primitive {t} ht := by
    cases t with
    | bool | char | int | string => rfl
    | void | inferred | array | record | named | union => cases ht
  array := .rfl
  record {fs} := by
    rw [Faultless, wellFormed, wellFormedFields_eq_ok]
    -- no names come before the fields
    exact and_congr_right fun _ => and_iff_right fun _ _ => List.not_mem_nil
  member := wellFormedAll_eq_ok.1
  unionOf _ := faultless_unionOf
  bodies := hbodies
  returns := hreturns

end Registry

end WhileTyping
