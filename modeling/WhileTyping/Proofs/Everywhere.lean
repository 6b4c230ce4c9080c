import WhileTyping.Registry.Basic
import WhileTyping.Ty.Subterms
import WhileTyping.Ty.Union

/-!
# Conditions at every depth of a type

A tree may carry any type, and most laws of subtyping need some of its shapes ruled out: a union
that repeats a member or has none, an alias that is not declared, `var`. Each of these is a
condition on one node, asked of every type that occurs in a given one:

* **`Ty.Everywhere`**: the condition holds at every subterm, aliases unexpanded;
* **`everywhere_array_iff`**, **`everywhere_record_iff`**, **`everywhere_union_iff`**: it passes to
  the parts of a type and back;
* **`Registry.Bodies`**: the same asked of every alias body, so that it survives an expansion.
-/

namespace WhileTyping

namespace Ty

/-- Asks a condition on one node of every type that occurs in a type. -/
def Everywhere (P : Ty → Prop) (t : Ty) : Prop := ∀ u ∈ t.subterms, P u

instance (P : Ty → Prop) [DecidablePred P] (t : Ty) : Decidable (t.Everywhere P) :=
  inferInstanceAs (Decidable (∀ u ∈ t.subterms, P u))

/-! ## Parts -/

/-- A part of several types is a part of one of them. -/
theorem mem_subtermsAll {u : Ty} {ts : List Ty} :
    u ∈ subtermsAll ts ↔ ∃ t ∈ ts, u ∈ t.subterms := by
  induction ts with
  | nil => simp [subtermsAll]
  | cons t ts ih => simp [subtermsAll, ih]

/-- The same for the fields of a record type. -/
theorem mem_subtermsFields {u : Ty} {fs : List Field} :
    u ∈ subtermsFields fs ↔ ∃ f ∈ fs, u ∈ f.ty.subterms := by
  induction fs with
  | nil => simp [subtermsFields]
  | cons f fs ih =>
    cases f
    simp [subtermsFields, ih]

/-- What holds everywhere in an array type holds of it and everywhere in its elements. -/
theorem everywhere_array_iff {P : Ty → Prop} {e : Ty} :
    (array e).Everywhere P ↔ P (array e) ∧ e.Everywhere P := by
  simp [Everywhere, subterms]

/-- The same for the fields of a record type. -/
theorem everywhere_record_iff {P : Ty → Prop} {fs : List Field} :
    (record fs).Everywhere P ↔ P (record fs) ∧ ∀ f ∈ fs, f.ty.Everywhere P := by
  simp only [Everywhere, subterms, List.mem_cons, mem_subtermsFields]
  constructor
  · intro h
    exact ⟨h _ (.inl rfl), fun f hf u hu => h u (.inr ⟨f, hf, hu⟩)⟩
  · rintro ⟨hself, hparts⟩ u (rfl | ⟨f, hf, hu⟩)
    · exact hself
    · exact hparts f hf u hu

/-- The same for the members of a union. -/
theorem everywhere_union_iff {P : Ty → Prop} {ts : List Ty} :
    (union ts).Everywhere P ↔ P (union ts) ∧ ∀ t ∈ ts, t.Everywhere P := by
  simp only [Everywhere, subterms, List.mem_cons, mem_subtermsAll]
  constructor
  · intro h
    exact ⟨h _ (.inl rfl), fun t ht u hu => h u (.inr ⟨t, ht, hu⟩)⟩
  · rintro ⟨hself, hparts⟩ u (rfl | ⟨t, ht, hu⟩)
    · exact hself
    · exact hparts t ht u hu

namespace Everywhere

variable {P Q : Ty → Prop} {t : Ty}

theorem here (h : t.Everywhere P) : P t := h t t.self_mem_subterms

theorem and (hP : t.Everywhere P) (hQ : t.Everywhere Q) : t.Everywhere fun u => P u ∧ Q u :=
  fun u hu => ⟨hP u hu, hQ u hu⟩

theorem element {e : Ty} (h : (Ty.array e).Everywhere P) : e.Everywhere P :=
  (everywhere_array_iff.1 h).2

theorem field {fs : List Field} {f : Field} (h : (Ty.record fs).Everywhere P) (hf : f ∈ fs) :
    f.ty.Everywhere P :=
  (everywhere_record_iff.1 h).2 f hf

theorem member {ts : List Ty} (h : (Ty.union ts).Everywhere P) (ht : t ∈ ts) : t.Everywhere P :=
  (everywhere_union_iff.1 h).2 t ht

end Everywhere

/-! ## The conditions -/

/-- A node that is a union has no two members that are the same. -/
def MembersDiffer : Ty → Prop
  | .union ts => ts.Pairwise fun s t => s.same t = false
  | _ => True

instance : DecidablePred MembersDiffer
  | .union ts => inferInstanceAs (Decidable (ts.Pairwise fun s t => s.same t = false))
  | .void | .bool | .char | .int | .string | .inferred | .array _ | .record _ | .named _ =>
    inferInstanceAs (Decidable True)

def isUnion : Ty → Bool
  | .union _ => true
  | _ => false

/-- A node that is a union has no union among its members. -/
def MembersFlat : Ty → Prop
  | .union ts => ∀ t ∈ ts, t.isUnion = false
  | _ => True

instance : DecidablePred MembersFlat
  | .union ts => inferInstanceAs (Decidable (∀ t ∈ ts, t.isUnion = false))
  | .void | .bool | .char | .int | .string | .inferred | .array _ | .record _ | .named _ =>
    inferInstanceAs (Decidable True)

/-- No union repeats a member. -/
def NoRepeats (t : Ty) : Prop := t.Everywhere MembersDiffer

/-- Every union has a member. -/
def NoEmptyUnion (t : Ty) : Prop := t.Everywhere (· ≠ .union [])

/-- `var` does not occur. -/
def NoInferred (t : Ty) : Prop := t.Everywhere (· ≠ .inferred)

instance (t : Ty) : Decidable t.NoRepeats := inferInstanceAs (Decidable (t.Everywhere _))

instance (t : Ty) : Decidable t.NoEmptyUnion := inferInstanceAs (Decidable (t.Everywhere _))

instance (t : Ty) : Decidable t.NoInferred := inferInstanceAs (Decidable (t.Everywhere _))

/-- The unions of a type are in the form that `unionOf` gives them: they have members, none of which
is a union or repeated. -/
def Canonical (t : Ty) : Prop :=
  t.Everywhere fun u => u ≠ .union [] ∧ u.MembersFlat ∧ u.MembersDiffer

instance (t : Ty) : Decidable t.Canonical := inferInstanceAs (Decidable (t.Everywhere _))

end Ty

namespace Registry

/-- A node that is an alias is declared. -/
def Declares (reg : Registry) : Ty → Prop
  | .named n => (reg.alias? n).isSome = true
  | _ => True

instance (reg : Registry) : DecidablePred reg.Declares
  | .named n => inferInstanceAs (Decidable ((reg.alias? n).isSome = true))
  | .void | .bool | .char | .int | .string | .inferred | .array _ | .record _ | .union _ =>
    inferInstanceAs (Decidable True)

/-- Every alias named in a type is declared. -/
def Covers (reg : Registry) (t : Ty) : Prop := t.Everywhere reg.Declares

instance (reg : Registry) (t : Ty) : Decidable (reg.Covers t) :=
  inferInstanceAs (Decidable (t.Everywhere _))

/-- What a type must satisfy for subtyping to behave as an order: declared aliases only, and no
union that is empty or repeats a member. -/
structure Regular (reg : Registry) (t : Ty) : Prop where
  covers : reg.Covers t
  noEmptyUnion : t.NoEmptyUnion
  noRepeats : t.NoRepeats

/-- The three conditions of a regular type, each to be decided by itself. -/
theorem regular_iff {reg : Registry} {t : Ty} :
    reg.Regular t ↔ reg.Covers t ∧ t.NoEmptyUnion ∧ t.NoRepeats :=
  ⟨fun h => ⟨h.covers, h.noEmptyUnion, h.noRepeats⟩, fun h => ⟨h.1, h.2.1, h.2.2⟩⟩

instance (reg : Registry) (t : Ty) : Decidable (reg.Regular t) :=
  decidable_of_iff' _ regular_iff

/-- Every alias body has a property. -/
def Bodies (reg : Registry) (P : Ty → Prop) : Prop := ∀ a ∈ reg.aliases, P a.2

instance (reg : Registry) (P : Ty → Prop) [DecidablePred P] : Decidable (reg.Bodies P) :=
  inferInstanceAs (Decidable (∀ a ∈ reg.aliases, P a.2))

theorem Bodies.imp {reg : Registry} {P Q : Ty → Prop} (h : reg.Bodies P) (hPQ : ∀ t, P t → Q t) :
    reg.Bodies Q :=
  fun a ha => hPQ _ (h a ha)

/-- What holds of all bodies holds of the one that is looked up. -/
theorem Bodies.of_alias? {reg : Registry} {P : Ty → Prop} {n : String} {t : Ty}
    (h : reg.Bodies P) (ht : reg.alias? n = some t) : P t :=
  h _ (mem_aliases_of_alias? ht)

/-- A name that is covered is declared. -/
theorem Covers.alias? {reg : Registry} {n : String} (h : reg.Covers (.named n)) :
    ∃ t, reg.alias? n = some t :=
  Option.isSome_iff_exists.1 h.here

end Registry

end WhileTyping
