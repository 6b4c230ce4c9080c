import WhileTyping.Proofs.LeastUnion

/-!
# Types that subtyping does not tell apart

A comparison searches the members of a union in their order, expands an alias where it meets one,
and remembers pairs by the types that it has at hand. Still its answer depends on less: it is the
same for types that differ in the order of union members, and for an alias and what it expands to.

* **`Registry.isSubtype_congr`**: comparisons that the rules decide alike have the same answer.
* **`Registry.isSubtype_same`**: types that are the same may be put for each other. The two searches
  do not go in step, but both decide the relation of the rules, which does not see the order.
* **`Registry.expand_transparent`**: expansion comes to an end, and what it finds may be put for the
  type that was expanded.
-/

namespace WhileTyping.Registry

variable {reg : Registry}

/-- Comparisons that the rules decide alike have the same answer. -/
theorem isSubtype_congr (hreg : reg.Bodies fun t => reg.Covers t ∧ t.NoRepeats) {s t s' t' : Ty}
    (hs : reg.Covers s ∧ s.NoRepeats) (ht : reg.Covers t ∧ t.NoRepeats)
    (hs' : reg.Covers s' ∧ s'.NoRepeats) (ht' : reg.Covers t' ∧ t'.NoRepeats)
    (h : reg.Below s t ↔ reg.Below s' t') : reg.isSubtype s t = reg.isSubtype s' t' := by
  have hcovers : reg.Bodies reg.Covers := hreg.imp fun _ h => h.1
  obtain ⟨answer, hanswer, -⟩ := subtype_complete hcovers [] hs.1 ht.1
  obtain ⟨answer', hanswer', -⟩ := subtype_complete hcovers [] hs'.1 ht'.1
  have hiff : reg.isSubtype s t = .ok true ↔ reg.isSubtype s' t' = .ok true := by
    rw [isSubtype_iff_below hreg hs ht, isSubtype_iff_below hreg hs' ht', h]
  unfold isSubtype at hiff ⊢
  rw [hanswer, hanswer'] at hiff ⊢
  simp only [Except.ok.injEq] at hiff ⊢
  exact Bool.eq_iff_iff.2 hiff

/-- The same for orderly types. -/
theorem isSubtype_congr_of_orderly (hreg : reg.Bodies reg.Orderly) {s t s' t' : Ty}
    (hs : reg.Orderly s) (ht : reg.Orderly t) (hs' : reg.Orderly s') (ht' : reg.Orderly t')
    (h : reg.Below s t ↔ reg.Below s' t') : reg.isSubtype s t = reg.isSubtype s' t' := by
  have hweaken : ∀ u, reg.Orderly u → reg.Covers u ∧ u.NoRepeats :=
    fun u hu => ⟨hu.covers, hu.regular.noRepeats⟩
  exact isSubtype_congr (hreg.imp hweaken) (hweaken s hs) (hweaken t ht) (hweaken s' hs')
    (hweaken t' ht') h

/-! ## The order of union members -/

/-- Where every alias is declared and no union repeats a member, types that are the same have the
same supertypes and subtypes. -/
theorem isSubtype_same (hreg : reg.Bodies fun t => reg.Covers t ∧ t.NoRepeats) {a a' b b' : Ty}
    (ha : reg.Covers a ∧ a.NoRepeats) (ha' : reg.Covers a' ∧ a'.NoRepeats)
    (hb : reg.Covers b ∧ b.NoRepeats) (hb' : reg.Covers b' ∧ b'.NoRepeats)
    (haa' : a.same a' = true) (hbb' : b.same b' = true) :
    reg.isSubtype a b = reg.isSubtype a' b' := by
  have hbodies : reg.Bodies Ty.NoRepeats := hreg.imp fun _ h => h.2
  refine isSubtype_congr hreg ha hb ha' hb' ⟨?_, ?_⟩
  · exact Below.same hbodies ha.2 hb.2 ha'.2 hb'.2 haa' hbb'
  · exact Below.same hbodies ha'.2 hb'.2 ha.2 hb.2 (Ty.same_symm ha.2 ha'.2 haa')
      (Ty.same_symm hb.2 hb'.2 hbb')

/-- Unions in different orders inside and outside an array, against the body of a recursive alias in
two orders. -/
theorem isSubtype_same_tree :
    let tree : Ty := .union [.array (.named "Tree"), .bool, .int]
    let tree' : Ty := .union [.int, .array (.named "Tree"), .bool]
    let reg : Registry := { aliases := [("Tree", tree)] }
    let a : Ty := .union [.int, .bool, .array (.union [.named "Tree", .string])]
    let a' : Ty := .union [.array (.union [.string, .named "Tree"]), .int, .bool]
    reg.isSubtype a tree = reg.isSubtype a' tree' ∧ reg.isSubtype a' tree' = .ok true ∧
      reg.isSubtype tree a = reg.isSubtype tree' a' ∧ reg.isSubtype tree' a' = .ok false := by
  intro tree tree' reg a a'
  have hreg : reg.Bodies fun t => reg.Covers t ∧ t.NoRepeats := by decide +kernel
  have htree : reg.Covers tree ∧ tree.NoRepeats := by decide +kernel
  have htree' : reg.Covers tree' ∧ tree'.NoRepeats := by decide +kernel
  have ha : reg.Covers a ∧ a.NoRepeats := by decide +kernel
  have ha' : reg.Covers a' ∧ a'.NoRepeats := by decide +kernel
  have hsame : tree.same tree' = true := by decide +kernel
  have hsame' : a.same a' = true := by decide +kernel
  exact ⟨isSubtype_same hreg ha ha' htree htree' hsame' hsame, by decide +kernel,
    isSubtype_same hreg htree htree' ha ha' hsame hsame', by decide +kernel⟩

/-! ## Expansion -/

/-- In a built registry an expansion looks up each alias of a chain once, and then ends: at a type
that is not an alias, or with the failure to look up one that is not declared. More look-ups would
not change the result. Where the types involved pass their checks and have canonical unions, the
type that is found compares with all others like the type that was expanded. -/
theorem expand_transparent {f : File} (hbuild : (build f).result = .ok reg) (t : Ty)
    (span : Option Span) :
    (∃ names, names.length ≤ reg.aliases.length ∧
        ((∃ e, reg.Passes t names e ∧ (∀ n, e ≠ .named n) ∧ reg.expand t span = .ok e) ∨
          ∃ n, reg.Passes t names (.named n) ∧ reg.alias? n = none ∧
            reg.expand t span = .error ⟨.unknownType n, span⟩)) ∧
      (∀ k, reg.aliases.length < k →
        (reg.expandUpTo k t).mapError (fun fault => ⟨fault, span⟩) = reg.expand t span) ∧
      ((reg.Bodies fun t => reg.expectValueType t none = .ok () ∧ t.Canonical) → reg.Orderly t →
        ∃ e, reg.expand t span = .ok e ∧ ∀ x, reg.Orderly x →
          reg.isSubtype t x = reg.isSubtype e x ∧ reg.isSubtype x t = reg.isSubtype x e) := by
  have hwf := wellFounded_unfolds hbuild
  -- expanding stops after as many steps as there are aliases, and one more
  have henough := Nat.lt_succ_self reg.aliases.length
  refine ⟨?_, fun k hk => ?_, fun hbodies ht => ?_⟩
  · rcases expand_cases hwf t with ⟨names, e, hpasses, hplain, hok⟩ |
      ⟨names, n, hpasses, hmissing, herror⟩
    · refine ⟨names, hpasses.length_le hwf, .inl ⟨e, hpasses, hplain, ?_⟩⟩
      rw [expand, hok _ henough]
      rfl
    · refine ⟨names, hpasses.length_le hwf, .inr ⟨n, hpasses, hmissing, ?_⟩⟩
      rw [expand, herror _ henough]
      rfl
  · rw [expand, expandUpTo_stable hwf t hk henough]
  · have hreg := orderly_bodies hbodies
    obtain ⟨e, he⟩ := exists_expands hwf hreg ht
    have horderly := orderly_of_expands hreg he ht
    refine ⟨e, (expand_eq_ok_iff hwf).2 he, fun x hx => ⟨?_, ?_⟩⟩
    · exact isSubtype_congr_of_orderly hreg ht hx horderly hx
        (below_iff_of_expands hwf hreg he ht hx)
    · exact isSubtype_congr_of_orderly hreg hx ht hx horderly
        (below_iff_of_expands_right hwf hreg he hx ht)

/-- A chain of two aliases to a union that mentions the first of them, and a chain to an alias that
is not declared. -/
theorem expand_transparent_code :
    let code : Ty := .union [.int, .array (.named "Id")]
    let reg : Registry := { aliases := [("Id", .named "Code"), ("Code", code)] }
    let dangling : Registry := { aliases := [("Id", .named "Gone")] }
    (∀ x, reg.Orderly x → reg.isSubtype (.named "Id") x = reg.isSubtype code x ∧
        reg.isSubtype x (.named "Id") = reg.isSubtype x code) ∧
      dangling.expand (.named "Id") none = .error ⟨.unknownType "Gone", none⟩ ∧
      ∃ names, names.length ≤ 1 ∧ dangling.Passes (.named "Id") names (.named "Gone") := by
  intro code reg dangling
  let f : File := { decls := [.alias { name := "Id", ty := .named "Code" },
    .alias { name := "Code", ty := code }] }
  have hbuild : (build f).result = .ok reg := by decide +kernel
  have hbodies : reg.Bodies fun t => reg.expectValueType t none = .ok () ∧ t.Canonical := by
    decide +kernel
  have hid : reg.Orderly (.named "Id") := by decide +kernel
  obtain ⟨-, -, htransparent⟩ := expand_transparent hbuild (.named "Id") none
  obtain ⟨e, he, hsubtype⟩ := htransparent hbodies hid
  have hcode : reg.expand (.named "Id") none = .ok code := by decide +kernel
  cases hcode.symm.trans he
  let g : File := { decls := [.alias { name := "Id", ty := .named "Gone" }] }
  have hbuild' : (build g).result = .ok dangling := by decide +kernel
  have hgone : dangling.expand (.named "Id") none = .error ⟨.unknownType "Gone", none⟩ := by
    decide +kernel
  obtain ⟨⟨names, hlen, hends⟩, -⟩ := expand_transparent hbuild' (.named "Id") none
  refine ⟨hsubtype, hgone, names, hlen, ?_⟩
  rcases hends with ⟨_, -, -, hok⟩ | ⟨n, hpasses, -, herror⟩
  · cases hgone.symm.trans hok
  · cases hgone.symm.trans herror
    exact hpasses

end WhileTyping.Registry
