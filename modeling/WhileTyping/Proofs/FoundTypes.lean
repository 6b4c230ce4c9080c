import WhileTyping.Expr.Typing
import WhileTyping.Proofs.Everywhere
import WhileTyping.Proofs.Success
import WhileTyping.Proofs.TypingRules

/-!
# Types found from types

The rules of checking find types from types: they take a type apart, expand an alias, pick one of
several types or build the union of two. A property that survives all of this and holds of what a
registry gives is a property of every type that checking finds.

* **`Registry.Hereditary`**: such a property.
* **`of_expand`**, **`of_elementType`**, **`of_fieldType`**, **`of_leastUpperBound`**: the rules
  hand it on, from the types they are given to the type they find.
* **`Value.of_typeOf`**: every constant has a type with the property.
-/

namespace WhileTyping

/-- A property that the types found under a registry have, if the types they are found from have it.
A record has it if its fields do and no name is repeated. -/
structure Registry.Hereditary (reg : Registry) (P : Ty → Prop) : Prop where
  void : P .void
  primitive : ∀ {t : Ty}, t.isPrimitive = true → P t
  array : ∀ {e : Ty}, P (.array e) ↔ P e
  record : ∀ {fs : List Field}, P (.record fs) ↔ (fs.map Field.name).Nodup ∧ ∀ f ∈ fs, P f.ty
  member : ∀ {ts : List Ty}, P (.union ts) → ∀ t ∈ ts, P t
  unionOf : ∀ {ts : List Ty}, ts ≠ [] → (∀ t ∈ ts, P t) → P (.unionOf ts)
  /-- The registry gives the bodies of aliases, and what methods return. -/
  bodies : reg.Bodies P
  returns : ∀ s ∈ reg.methods, P s.ret

/-- Fields found one after another, each of a name not seen before it. -/
def NewFields (P : Ty → Prop) (seen : List String) (fs : List Field) : Prop :=
  (∀ f ∈ fs, f.name ∉ seen) ∧ P (.record fs)

/-- A property of the bodies of aliases is kept by expansion. -/
theorem Registry.Bodies.of_expand {reg : Registry} {P : Ty → Prop} (hP : reg.Bodies P) {t u : Ty}
    {span : Option Span} (ht : P t) (h : reg.expand t span = .ok u) : P u := by
  rw [expand, mapError_eq_ok] at h
  generalize reg.aliases.length + 1 = k at h
  fun_induction expandUpTo reg k t with
  | case1 t | case4 t =>
    cases h
    exact ht
  | case2 k n body hbody ih => exact ih (hP.of_alias? hbody) h
  | case3 => cases h

/-- Taking in one more type succeeds if it is above the bound so far, or below it. -/
theorem Registry.raiseBound_cons_cases {reg : Registry} {span : Option Span}
    {bound t top : Ty} {ts : List Ty} (h : (reg.raiseBound span bound (t :: ts)).result = .ok top) :
    (reg.isSubtype t bound = .ok true ∧ (reg.raiseBound span t ts).result = .ok top) ∨
      (reg.isSubtype bound t = .ok true ∧ (reg.raiseBound span bound ts).result = .ok top) := by
  simp only [raiseBound, Check.result_bind_eq_ok, Check.result_lift, located_eq_ok] at h
  obtain ⟨above, habove, h⟩ := h
  cases above with
  -- the type is above the bound so far, and replaces it
  | true =>
    simp only [if_true, Check.result_bind_eq_ok] at h
    obtain ⟨_, _, h⟩ := h
    exact .inl ⟨habove, h⟩
  | false =>
    simp only [Bool.false_eq_true, if_false, Check.result_bind_eq_ok, Check.result_lift] at h
    obtain ⟨_, hbelow, h⟩ := h
    exact .inr ⟨expectSubtype_eq_ok hbelow, h⟩

/-- A bound that is raised is one of the types it was raised by. -/
theorem Registry.raiseBound_mem {reg : Registry} {span : Option Span} {bound t : Ty} {ts : List Ty}
    (h : (reg.raiseBound span bound ts).result = .ok t) : t ∈ bound :: ts := by
  induction ts generalizing bound with
  | nil =>
    cases h
    exact List.mem_cons_self ..
  | cons u ts ih =>
    rcases raiseBound_cons_cases h with ⟨-, h⟩ | ⟨-, h⟩
    · exact List.mem_cons_of_mem _ (ih h)
    · rcases List.mem_cons.1 (ih h) with rfl | hmem
      · exact List.mem_cons_self ..
      · exact List.mem_cons_of_mem _ (List.mem_cons_of_mem _ hmem)

namespace Registry.Hereditary

variable {reg : Registry} {P : Ty → Prop} (hP : reg.Hereditary P)

include hP

/-! ## Rules on types -/

/-- Expansion finds bodies of aliases. -/
theorem of_expand {t u : Ty} {span : Option Span} (ht : P t) (h : reg.expand t span = .ok u) :
    P u :=
  hP.bodies.of_expand ht h

/-- The type of the given kind that is asked for is an expansion. -/
theorem of_expectKind {t u : Ty} {kinds : KindSet} {span : Option Span} (ht : P t)
    (h : reg.expectKind t kinds span = .ok u) : P u := by
  simp only [expectKind, bind_eq_ok] at h
  obtain ⟨v, hv, h⟩ := h
  split at h
  · cases h
    exact hP.of_expand ht hv
  · cases h

/-- The element type of an array type is a part of it, and a string has characters. -/
theorem of_elementType {source position t : Ty} {sourceSpan positionSpan span : Option Span}
    (hsource : P source)
    (h : reg.elementType source position sourceSpan positionSpan span = .ok t) : P t := by
  simp only [elementType, bind_eq_ok] at h
  obtain ⟨-, -, u, hu, h⟩ := h
  have hu := hP.of_expectKind hsource hu
  split at h
  · cases h
    exact hP.array.1 hu
  · cases h
    exact hP.primitive rfl
  · cases h

/-! ### Fields of a union of records -/

/-- The records of a union are expansions of its members. -/
theorem of_recordsOf? {span : Option Span} {ts : List Ty} {records : List (List Field)}
    (hts : ∀ t ∈ ts, P t) (h : reg.recordsOf? span ts = .ok (some records)) :
    ∀ fs ∈ records, P (.record fs) := by
  induction ts generalizing records with
  | nil =>
    cases h
    exact nofun
  | cons t ts ih =>
    obtain ⟨ht, hts⟩ := List.forall_mem_cons.1 hts
    simp only [recordsOf?, bind_eq_ok] at h
    obtain ⟨u, hu, h⟩ := h
    have hu := hP.of_expand ht hu
    split at h
    -- a record: the search goes on, and may still end without an answer
    · simp only [bind_eq_ok, pure_eq_ok, Option.map_eq_some_iff] at h
      obtain ⟨-, hrest, rest, rfl, rfl⟩ := h
      exact List.forall_mem_cons.2 ⟨hu, ih hts hrest⟩
    · cases h

/-- A field that is widened keeps its name, and has a type of the two or their union. -/
theorem of_widenField {span : Option Span} {f g w : Field} (hf : P f.ty) (hg : P g.ty)
    (h : reg.widenField span f g = .ok w) : w.name = f.name ∧ P w.ty := by
  simp only [widenField, bind_eq_ok] at h
  obtain ⟨_, -, h⟩ := h
  split at h
  · cases h
    exact ⟨rfl, hf⟩
  · cases h
    exact ⟨rfl, hP.unionOf (List.cons_ne_nil _ _) (by simp [hf, hg])⟩

/-- Meeting with a record drops fields and widens others, so no name comes to stand twice. -/
theorem of_meetFields {span : Option Span} {record fs ws : List Field}
    (hrecord : ∀ g ∈ record, P g.ty) (hfs : ∀ f ∈ fs, P f.ty)
    (h : reg.meetFields span record fs = .ok ws) :
    (ws.map Field.name).Sublist (fs.map Field.name) ∧ ∀ w ∈ ws, P w.ty := by
  induction fs generalizing ws with
  | nil =>
    cases h
    exact ⟨.slnil, nofun⟩
  | cons f fs ih =>
    obtain ⟨hf, hfs⟩ := List.forall_mem_cons.1 hfs
    unfold meetFields at h
    split at h
    -- a field that the record lacks is dropped
    · obtain ⟨hnames, htypes⟩ := ih hfs h
      exact ⟨hnames.cons _, htypes⟩
    · -- a field that both have is widened, and keeps its place and its name
      rename_i g hg
      simp only [bind_eq_ok, pure_eq_ok] at h
      obtain ⟨w, hw, rest, hrest, rfl⟩ := h
      obtain ⟨hname, hw⟩ := hP.of_widenField hf (hrecord g (List.mem_of_find?_eq_some hg)) hw
      obtain ⟨hnames, htypes⟩ := ih hfs hrest
      refine ⟨?_, List.forall_mem_cons.2 ⟨hw, htypes⟩⟩
      rw [List.map_cons, List.map_cons, hname]
      exact hnames.cons_cons _

/-- What is left when the fields of all records have been met is a record type. -/
theorem of_meetAll {span : Option Span} {fields ws : List Field} {records : List (List Field)}
    (hfields : P (.record fields)) (hrecords : ∀ fs ∈ records, P (.record fs))
    (h : reg.meetAll span fields records = .ok ws) : P (.record ws) := by
  induction records generalizing fields with
  | nil =>
    cases h
    exact hfields
  | cons record records ih =>
    obtain ⟨hrecord, hrecords⟩ := List.forall_mem_cons.1 hrecords
    simp only [meetAll, bind_eq_ok] at h
    obtain ⟨met, hmet, h⟩ := h
    obtain ⟨hnodup, htypes⟩ := hP.record.1 hfields
    obtain ⟨hnames, hmet⟩ := hP.of_meetFields (hP.record.1 hrecord).2 htypes hmet
    exact ih (hP.record.2 ⟨hnodup.sublist hnames, hmet⟩) hrecords h

/-- The same for the record that a union of records has in common. -/
theorem of_commonRecord {span : Option Span} {records : List (List Field)} {t : Ty}
    (hrecords : ∀ fs ∈ records, P (.record fs))
    (h : (reg.commonRecord records span).result = .ok (some t)) : P t := by
  cases records with
  | nil => cases h
  | cons first rest =>
    obtain ⟨hfirst, hrest⟩ := List.forall_mem_cons.1 hrecords
    simp only [commonRecord, Check.result_bind_eq_ok, Check.result_lift] at h
    obtain ⟨ws, hws, h⟩ := h
    have hws := hP.of_meetAll hfirst hrest hws
    split at h
    · -- without a field in common there is no record
      simp only [Check.result_bind_eq_ok, Check.result_pure] at h
      obtain ⟨-, -, h⟩ := h
      cases h
    · simp only [Check.result_bind_eq_ok, Check.result_pure] at h
      obtain ⟨-, -, h⟩ := h
      cases h
      exact hws

/-- The record in which a field is looked up is the type itself, or one that its members have in
common. -/
theorem of_accessTarget {source t : Ty} {field : String} {span : Option Span}
    (hsource : P source) (h : (reg.accessTarget source field span).result = .ok t) : P t := by
  simp only [accessTarget, Check.result_bind_eq_ok, Check.result_lift] at h
  obtain ⟨u, hu, h⟩ := h
  have hu := hP.of_expand hsource hu
  split at h
  · simp only [Check.result_bind_eq_ok, Check.result_lift] at h
    obtain ⟨found, hfound, h⟩ := h
    split at h
    · -- all members are records, so the field is one that they have in common
      rename_i ts _ records
      have hrecords := hP.of_recordsOf? (hP.member hu) hfound
      simp only [Check.result_bind_eq_ok] at h
      obtain ⟨-, -, common, hcommon, h⟩ := h
      split at h
      · cases h
        exact hP.of_commonRecord hrecords hcommon
      · cases h
    · cases h
      exact hu
  · cases h
    exact hu

/-- The type of a field is a part of that record. -/
theorem of_fieldType {source t : Ty} {field : String} {sourceSpan span : Option Span}
    (hsource : P source) (h : (reg.fieldType source sourceSpan field span).result = .ok t) :
    P t := by
  simp only [fieldType, Check.result_bind_eq_ok, Check.result_lift] at h
  obtain ⟨target, htarget, u, hu, h⟩ := h
  have hu := hP.of_expectKind (hP.of_accessTarget hsource htarget) hu
  split at h
  · rename_i found hfound
    cases h
    -- only a record has fields
    cases u with
    | record fs =>
      obtain ⟨f, hf, rfl⟩ := Option.map_eq_some_iff.1 hfound
      exact (hP.record.1 hu).2 f (List.mem_of_find?_eq_some hf)
    | void | bool | char | int | string | inferred | array | named | union => cases hfound
  · cases h

/-! ### Bounds and constants -/

/-- A bound of some types is one of them, or `void` if there are none above it. -/
theorem of_leastUpperBound {ts : List Ty} {span : Option Span} {t : Ty} (hts : ∀ u ∈ ts, P u)
    (h : (reg.leastUpperBound ts span).result = .ok t) : P t :=
  List.forall_mem_cons.2 ⟨hP.void, hts⟩ t (raiseBound_mem h)

theorem newFields_nil {seen : List String} : NewFields P seen [] :=
  ⟨nofun, hP.record.2 ⟨.nil, nofun⟩⟩

/-- A field with a new name goes in front. -/
theorem newFields_cons {seen : List String} {n : String} {t : Ty} {fs : List Field}
    (hn : n ∉ seen) (ht : P t) (h : NewFields P (n :: seen) fs) :
    NewFields P seen (⟨n, t⟩ :: fs) := by
  obtain ⟨hseen, hfs⟩ := h
  obtain ⟨hnodup, htypes⟩ := hP.record.1 hfs
  refine ⟨List.forall_mem_cons.2 ⟨hn, fun f hf hmem => ?_⟩,
    hP.record.2 ⟨?_, List.forall_mem_cons.2 ⟨ht, htypes⟩⟩⟩
  · exact hseen f hf (List.mem_cons_of_mem _ hmem)
  · refine List.nodup_cons.2 ⟨fun hmem => ?_, hnodup⟩
    obtain ⟨f, hf, hname⟩ := List.mem_map.1 hmem
    exact hseen f hf (hname ▸ List.mem_cons_self ..)

end Registry.Hereditary

namespace Value

variable {reg : Registry} {P : Ty → Prop} {span : Option Span}

mutual
/-- A constant has a type of that kind. -/
theorem of_typeOf (hP : reg.Hereditary P) :
    ∀ (v : Value) {t : Ty}, (v.typeOf reg span).result = .ok t → P t
  | .bool _, t, h | .char _, t, h | .int _, t, h | .string _, t, h => by
    cases h
    exact hP.primitive rfl
  | .array vs, t, h => by
    simp only [typeOf, Check.result_bind_eq_ok, Check.result_pure] at h
    obtain ⟨ts, hts, bound, hbound, h⟩ := h
    cases h
    exact hP.array.2 (hP.of_leastUpperBound (of_typesOf hP vs hts) hbound)
  | .record es, t, h => by
    simp only [typeOf, Check.result_bind_eq_ok, Check.result_pure] at h
    obtain ⟨fs, hfs, h⟩ := h
    cases h
    exact (of_fieldsOf hP es hfs).2

theorem of_typesOf (hP : reg.Hereditary P) : ∀ (vs : List Value) {ts : List Ty},
    (typesOf reg span vs).result = .ok ts → ∀ t ∈ ts, P t
  | [], ts, h => by
    cases h
    exact nofun
  | v :: vs, ts, h => by
    simp only [typesOf, Check.result_bind_eq_ok, Check.result_pure] at h
    obtain ⟨t, ht, rest, hrest, h⟩ := h
    cases h
    exact List.forall_mem_cons.2 ⟨of_typeOf hP v ht, of_typesOf hP vs hrest⟩

/-- The same for the fields of a record constant, whose names are checked on the way. -/
theorem of_fieldsOf (hP : reg.Hereditary P) :
    ∀ (es : List Entry) {seen : List String} {fs : List Field},
    (fieldsOf reg span seen es).result = .ok fs → NewFields P seen fs
  | [], seen, fs, h => by
    cases h
    exact hP.newFields_nil
  | ⟨n, v⟩ :: es, seen, fs, h => by
    unfold fieldsOf at h
    split at h
    · cases h
    · rename_i hn
      simp only [Check.result_bind_eq_ok, Check.result_pure] at h
      obtain ⟨t, ht, rest, hrest, h⟩ := h
      cases h
      exact hP.newFields_cons hn (of_typeOf hP v ht) (of_fieldsOf hP es hrest)
end

end Value

end WhileTyping
