import WhileTyping.Proofs.BuiltRegistry
import WhileTyping.Proofs.TrailAdequacy
import WhileTyping.Value

/-!
# Subtyping is sound for values

Types are read as sets of values, and the subtype check is shown to mean inclusion.

* **`Registry.HasValue`**: the values of a type. Values are finite, so the reading of a recursive
  alias is the least one; `void` and `var` have no value.
* **`hasValue_of_below`**: a value of a type is a value of every type above it. The induction is on
  the reason why the value has the lower type. The upper type may have to be expanded several times
  before it shows a shape that fits, so each step unfolds the upper type first, which comes to an
  end where aliases are not circular.
-/

namespace WhileTyping

namespace Registry

/-- The values of a type. A record value may have more entries than the type has fields. -/
inductive HasValue (reg : Registry) : Ty → Value → Prop
  | bool (b : Bool) : HasValue reg .bool (.bool b)
  | char (c : Char) : HasValue reg .char (.char c)
  | int (n : Int) : HasValue reg .int (.int n)
  | string (s : String) : HasValue reg .string (.string s)
  | array {e : Ty} {vs : List Value} (h : ∀ v ∈ vs, HasValue reg e v) :
      HasValue reg (.array e) (.array vs)
  | record {fs : List Field} {es : List Entry} (hlen : fs.length ≤ es.length)
      (hname : ∀ p ∈ fs.zip es, p.1.name = p.2.name)
      (h : ∀ p ∈ fs.zip es, HasValue reg p.1.ty p.2.value) : HasValue reg (.record fs) (.record es)
  | named {n : String} {t : Ty} {v : Value} (hbody : reg.alias? n = some t)
      (h : HasValue reg t v) : HasValue reg (.named n) v
  | union {t : Ty} {ts : List Ty} {v : Value} (ht : t ∈ ts) (h : HasValue reg t v) :
      HasValue reg (.union ts) v

variable {reg : Registry}

/-! ## Unfolding the upper type -/

/-- If a value of a type that cannot be unfolded is a value of all types above it that cannot be
unfolded either, it is a value of all types above it. -/
theorem hasValue_of_unfolded (hwf : WellFounded reg.Unfolds) {sub : Ty} {v : Value}
    (hvoid : sub ≠ .void) (hnamed : ∀ n, sub ≠ .named n) (hunion : ∀ ts, sub ≠ .union ts)
    (hv : ∀ sup, (∀ m, sup ≠ .named m) → (∀ ss, sup ≠ .union ss) → reg.Below sup sub →
      reg.HasValue sup v) :
    ∀ sup, reg.Below sup sub → reg.HasValue sup v := by
  intro sup
  induction sup using hwf.induction with
  | _ sup ih =>
    intro h
    -- only an alias or a union above can be unfolded; every other rule ends the walk
    cases h.rule with
    | aliasAbove _ _ hbody h => exact .named hbody (ih _ (.body hbody) h)
    | unionAbove _ _ _ hs h => exact .union hs (ih _ (.member hs) h)
    | void => exact absurd rfl hvoid
    | aliasSelf | aliasBelow => exact absurd rfl (hnamed _)
    | unions | unionBelow => exact absurd rfl (hunion _)
    | primitive hprim => exact hv _ hnamed hunion h
    | array | record => exact hv _ nofun nofun h

/-- By induction on the value's membership in the lower type. The upper type is unfolded first. -/
theorem hasValue_of_below (hwf : WellFounded reg.Unfolds) {sub : Ty} {v : Value}
    (hv : reg.HasValue sub v) : ∀ sup, reg.Below sup sub → reg.HasValue sup v := by
  induction hv with
  | bool | char | int | string =>
    refine hasValue_of_unfolded hwf nofun nofun nofun fun sup hnamed hunion h => ?_
    cases h.rule with
    | primitive => constructor
    | aliasAbove => exact absurd rfl (hnamed _)
    | unionAbove => exact absurd rfl (hunion _)
  | array hvs ih =>
    refine hasValue_of_unfolded hwf nofun nofun nofun fun sup hnamed hunion h => ?_
    cases h.rule with
    | primitive hprim => cases hprim
    | array h => exact .array fun v hv => ih v hv _ h
    | aliasAbove => exact absurd rfl (hnamed _)
    | unionAbove => exact absurd rfl (hunion _)
  | record hlen hname hes ih =>
    refine hasValue_of_unfolded hwf nofun nofun nofun fun sup hnamed hunion h => ?_
    cases h.rule with
    | primitive hprim => cases hprim
    | record hlen' h =>
      -- the fields of the upper record are the first ones of the lower
      refine .record (hlen'.trans hlen) ?_ ?_
      · intro p hp
        obtain ⟨f, hf', hf⟩ := exists_zip_between hlen' hp
        exact (h _ hf').1.trans (hname _ hf)
      · intro p hp
        obtain ⟨f, hf', hf⟩ := exists_zip_between hlen' hp
        exact ih _ hf _ (h _ hf').2
    | aliasAbove => exact absurd rfl (hnamed _)
    | unionAbove => exact absurd rfl (hunion _)
  | named hbody hv ih =>
    -- the upper type is unfolded until it is this alias, or the alias is what is expanded next
    intro sup
    induction sup using hwf.induction with
    | _ sup ihsup =>
      intro h
      cases h.rule with
      | primitive hprim => cases hprim
      | aliasSelf => exact .named hbody hv
      | aliasAbove _ _ hbody' h => exact .named hbody' (ihsup _ (.body hbody') h)
      | aliasBelow _ hbody' h =>
        rw [hbody] at hbody'
        cases hbody'
        exact ih sup h
      | unionAbove _ hnamed => exact absurd rfl (hnamed _)
  | union ht hv ih =>
    intro sup
    induction sup using hwf.induction with
    | _ sup ihsup =>
      intro h
      cases h.rule with
      | primitive hprim => cases hprim
      | aliasAbove _ _ hbody h => exact .named hbody (ihsup _ (.body hbody) h)
      | unions h =>
        obtain ⟨s, hs, hst⟩ := h _ ht
        exact .union hs (ih s hst)
      | unionAbove _ _ hunion => exact absurd rfl (hunion _)
      -- the upper type is above every member, so above the one with the value
      | unionBelow _ _ h => exact ih sup (h _ ht)

/-! ## Soundness -/

/-- In a registry that is built, where no union repeats a member, a type that is accepted in the
place of another has no value that the other does not have. -/
theorem isSubtype_sound {f : File} (hbuild : (build f).result = .ok reg)
    (hreg : reg.Bodies Ty.NoRepeats) {sup sub : Ty} (hsup : sup.NoRepeats) (hsub : sub.NoRepeats)
    (h : reg.isSubtype sup sub = .ok true) {v : Value} (hv : reg.HasValue sub v) :
    reg.HasValue sup v :=
  hasValue_of_below (wellFounded_unfolds hbuild) hv sup (below_of_isSubtype hreg hsup hsub h)

/-- Two aliases for lists, and a value of two items, the second with an entry to spare. -/
theorem isSubtype_sound_lists :
    let body (n : String) : Ty := .record [⟨"item", .int⟩, ⟨"rest", .array (.named n)⟩]
    let reg : Registry := { aliases := [("Stack", body "Stack"), ("Queue", body "Queue")] }
    let last : Value := .record [⟨"item", .int 1⟩, ⟨"rest", .array []⟩, ⟨"mark", .bool true⟩]
    reg.HasValue (.named "Stack") (.record [⟨"item", .int 2⟩, ⟨"rest", .array [last]⟩]) := by
  intro body reg last
  let f : File := { decls := [.alias { name := "Stack", ty := body "Stack" },
    .alias { name := "Queue", ty := body "Queue" }] }
  have hbuild : (build f).result = .ok reg := by decide +kernel
  have hreg : reg.Bodies Ty.NoRepeats := by decide +kernel
  have hstack : (Ty.named "Stack").NoRepeats := by decide +kernel
  have hqueue : (Ty.named "Queue").NoRepeats := by decide +kernel
  have hsub : reg.isSubtype (.named "Stack") (.named "Queue") = .ok true := by decide +kernel
  have hbody : reg.alias? "Queue" = some (body "Queue") := rfl
  have hlast : reg.HasValue (.named "Queue") last :=
    .named hbody (.record (by simp) (by simp) (by simpa using ⟨.int 1, .array (by simp)⟩))
  refine isSubtype_sound hbuild hreg hstack hqueue hsub (.named hbody ?_)
  exact .record (by simp) (by simp) (by simpa using ⟨.int 2, .array (by simpa using hlast)⟩)

end Registry

end WhileTyping
