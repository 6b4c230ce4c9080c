import WhileTyping.Proofs.Preorder
import WhileTyping.Proofs.Success
import WhileTyping.Subtyping.Bound

/-!
# When a list of types has a bound

`Registry.leastUpperBound` goes through a list once and keeps one type, the bound so far. A type
that is neither above nor below it ends the search, even if a later type of the list is above both.
So whether there is a bound depends on the order of the list.

* **`Registry.IsTop`**: a type of a list that is above all of them.
* **`Registry.raiseBound_of_above`**, **`Registry.raiseBound_of_below`**,
  **`Registry.raiseBound_of_unrelated`**: the three ways of taking in one more type.
* **`Registry.raiseBound_run`**: the whole run. The invariant is that the bound is a top of the
  types before it; that it stays above the earlier ones takes transitivity.
* **`Registry.leastUpperBound_exact`**: there is a bound if every beginning of the list has a top,
  and then it is the top of the list.
-/

namespace WhileTyping.Registry

/-- The type is one of the list, and above all of them. -/
def IsTop (reg : Registry) (ts : List Ty) (top : Ty) : Prop :=
  top ∈ ts ∧ ∀ t ∈ ts, reg.isSubtype top t = .ok true

/-- Neither type is above the other. -/
def Unrelated (reg : Registry) (s t : Ty) : Prop :=
  reg.isSubtype s t = .ok false ∧ reg.isSubtype t s = .ok false

variable {reg : Registry}

/-! ## One step -/

section Step

variable {span : Option Span} {bound t : Ty} (ts : List Ty)

/-- A type above the bound becomes the bound. -/
theorem raiseBound_of_above (h : reg.isSubtype t bound = .ok true) :
    (reg.raiseBound span bound (t :: ts)).result = (reg.raiseBound span t ts).result := by
  rw [raiseBound, Check.result_bind, Check.result_lift, h]
  show ((Check.report _ >>= fun _ => reg.raiseBound span t ts) : Check Ty).result = _
  rw [Check.result_bind]
  rfl

/-- A type below the bound leaves it. -/
theorem raiseBound_of_below (h : reg.isSubtype t bound = .ok false)
    (hbelow : reg.isSubtype bound t = .ok true) :
    (reg.raiseBound span bound (t :: ts)).result = (reg.raiseBound span bound ts).result := by
  have hexpect : reg.expectSubtype bound t span = .ok () := by
    rw [expectSubtype, hbelow]
    rfl
  rw [raiseBound, Check.result_bind, Check.result_lift, h]
  show ((liftM (reg.expectSubtype bound t span) >>= fun _ => reg.raiseBound span bound ts) :
    Check Ty).result = _
  rw [Check.result_bind, Check.result_lift, hexpect]
  rfl

/-- A type that is neither ends the run with a mismatch. -/
theorem raiseBound_of_unrelated (h : reg.Unrelated bound t) :
    (reg.raiseBound span bound (t :: ts)).result = .error ⟨.typeMismatch bound t, span⟩ := by
  have hexpect : reg.expectSubtype bound t span = .error ⟨.typeMismatch bound t, span⟩ := by
    rw [expectSubtype, h.1]
    rfl
  rw [raiseBound, Check.result_bind, Check.result_lift, h.2]
  show ((liftM (reg.expectSubtype bound t span) >>= fun _ => reg.raiseBound span bound ts) :
    Check Ty).result = _
  rw [Check.result_bind, Check.result_lift, hexpect]
  rfl

end Step

/-! ## Tops -/

section Regular

variable (hwf : WellFounded reg.Unfolds) (hreg : reg.Bodies reg.Regular)

include hreg in
/-- For regular types the search decides the relation. -/
theorem isSubtype_iff_below_of_regular {s t : Ty} (hs : reg.Regular s) (ht : reg.Regular t) :
    reg.isSubtype s t = .ok true ↔ reg.Below s t :=
  isSubtype_iff_below (hreg.imp fun _ h => ⟨h.covers, h.noRepeats⟩) ⟨hs.covers, hs.noRepeats⟩
    ⟨ht.covers, ht.noRepeats⟩

include hwf hreg in
/-- So its answers can be chained. -/
theorem isSubtype_trans_of_regular {a b c : Ty} (ha : reg.Regular a) (hb : reg.Regular b)
    (hc : reg.Regular c) (hab : reg.isSubtype a b = .ok true) (hbc : reg.isSubtype b c = .ok true) :
    reg.isSubtype a c = .ok true := by
  rw [isSubtype_iff_below_of_regular hreg ha hb] at hab
  rw [isSubtype_iff_below_of_regular hreg hb hc] at hbc
  rw [isSubtype_iff_below_of_regular hreg ha hc]
  exact below_trans hwf (hreg.imp fun _ h => ⟨h.covers, h.noEmptyUnion⟩)
    ⟨ha.covers, ha.noEmptyUnion⟩ ⟨hc.covers, hc.noEmptyUnion⟩ hab hbc

include hreg in
/-- A regular type without `var` is found to be a subtype of itself. -/
theorem isSubtype_self_of_regular {t : Ty} (ht : reg.Regular t) (hvar : t.NoInferred) :
    reg.isSubtype t t = .ok true :=
  (isSubtype_iff_below_of_regular hreg ht ht).2 (below_refl hvar)

include hreg in
/-- A type is above the bound so far, below it and not above it, or unrelated to it. -/
theorem above_or_below_or_unrelated {bound t : Ty} (hbound : reg.Regular bound)
    (ht : reg.Regular t) :
    reg.isSubtype t bound = .ok true ∨
      (reg.isSubtype t bound = .ok false ∧ reg.isSubtype bound t = .ok true) ∨
        reg.Unrelated bound t := by
  have hcovers : reg.Bodies reg.Covers := hreg.imp fun _ h => h.covers
  obtain ⟨above, habove, -⟩ := subtype_complete hcovers [] ht.covers hbound.covers
  obtain ⟨below, hbelow, -⟩ := subtype_complete hcovers [] hbound.covers ht.covers
  cases above with
  | true => exact .inl habove
  | false =>
    cases below with
    | true => exact .inr (.inl ⟨habove, hbelow⟩)
    | false => exact .inr (.inr ⟨hbelow, habove⟩)

variable {p : List Ty} {bound t : Ty} (hp : ∀ u ∈ p, reg.Regular u) (ht : reg.Regular t)

/-- A type below the top leaves it the top. -/
theorem isTop_append_of_below (htop : reg.IsTop p bound)
    (hbelow : reg.isSubtype bound t = .ok true) : reg.IsTop (p ++ [t]) bound := by
  refine ⟨List.mem_append_left _ htop.1, fun u hu => ?_⟩
  rcases List.mem_append.1 hu with hu | hu
  · exact htop.2 u hu
  · rw [List.mem_singleton.1 hu]
    exact hbelow

include hwf hreg hp ht in
/-- A type above the bound is above all that the bound is above. -/
theorem isTop_append_of_above (hvar : t.NoInferred) (htop : reg.IsTop p bound)
    (habove : reg.isSubtype t bound = .ok true) : reg.IsTop (p ++ [t]) t := by
  refine ⟨List.mem_append_right _ (List.mem_singleton_self t), fun u hu => ?_⟩
  rcases List.mem_append.1 hu with hu | hu
  · have hbound := hp bound htop.1
    exact isSubtype_trans_of_regular hwf hreg ht hbound (hp u hu) habove (htop.2 u hu)
  · rw [List.mem_singleton.1 hu]
    exact isSubtype_self_of_regular hreg ht hvar

include hwf hreg hp ht in
/-- With a type that is unrelated to the bound, the list has no top any more: another top of the
earlier types would be below the bound, and above the new type. -/
theorem not_isTop_append_of_unrelated (htop : reg.IsTop p bound) (h : reg.Unrelated bound t)
    (top : Ty) : ¬ reg.IsTop (p ++ [t]) top := by
  rintro ⟨hmem, habove⟩
  rcases List.mem_append.1 hmem with hmem | hmem
  · have htopt := habove t (List.mem_append_right _ (List.mem_singleton_self t))
    have hbelow := isSubtype_trans_of_regular hwf hreg (hp bound htop.1) (hp top hmem) ht
      (htop.2 top hmem) htopt
    cases h.1.symm.trans hbelow
  -- the new type itself is not above the bound
  · rw [List.mem_singleton.1 hmem] at habove
    cases h.2.symm.trans (habove bound (List.mem_append_left _ htop.1))

/-! ## The run -/

/-- Every beginning of the second list, put after the first, has a top. -/
def TopsAlong (reg : Registry) (p ts : List Ty) : Prop :=
  ∀ q, q <+: ts → ∃ top, reg.IsTop (p ++ q) top

/-- Nothing more to come, so only the types so far need a top. -/
theorem topsAlong_nil {p : List Ty} {top : Ty} (htop : reg.IsTop p top) : reg.TopsAlong p [] := by
  intro q hq
  rw [List.prefix_nil.1 hq, List.append_nil]
  exact ⟨top, htop⟩

/-- One more type, and those after it. -/
theorem topsAlong_cons {p ts : List Ty} {top t : Ty} (htop : reg.IsTop p top)
    (h : reg.TopsAlong (p ++ [t]) ts) : reg.TopsAlong p (t :: ts) := by
  intro q hq
  rcases List.prefix_cons_iff.1 hq with rfl | ⟨rest, rfl, hrest⟩
  · rw [List.append_nil]
    exact ⟨top, htop⟩
  · obtain ⟨top', htop'⟩ := h rest hrest
    rw [List.append_assoc] at htop'
    exact ⟨top', htop'⟩

include hwf hreg in
/-- A run from a top of the types so far ends with a top of all types, having had one all along, or
stops at the first type that is unrelated to the bound. -/
theorem raiseBound_run (span : Option Span) {p ts : List Ty} {bound : Ty}
    (hregular : ∀ t ∈ p ++ ts, reg.Regular t ∧ t.NoInferred) (htop : reg.IsTop p bound) :
    (∃ top, (reg.raiseBound span bound ts).result = .ok top ∧ reg.IsTop (p ++ ts) top ∧
        reg.TopsAlong p ts) ∨
      ∃ q t expected, q ++ [t] <+: ts ∧ reg.IsTop (p ++ q) expected ∧ reg.Unrelated expected t ∧
        (reg.raiseBound span bound ts).result = .error ⟨.typeMismatch expected t, span⟩ := by
  induction ts generalizing p bound with
  | nil =>
    rw [List.append_nil]
    exact .inl ⟨bound, rfl, htop, topsAlong_nil htop⟩
  | cons t ts ih =>
    have hp : ∀ u ∈ p, reg.Regular u := fun u hu => (hregular u (List.mem_append_left _ hu)).1
    obtain ⟨ht, hvar⟩ := hregular t (List.mem_append_right _ (List.mem_cons_self ..))
    -- the rest of the run starts from the top of one type more
    have hnext : ∀ bound', reg.IsTop (p ++ [t]) bound' →
        (reg.raiseBound span bound (t :: ts)).result = (reg.raiseBound span bound' ts).result →
        (∃ top, (reg.raiseBound span bound (t :: ts)).result = .ok top ∧
            reg.IsTop (p ++ t :: ts) top ∧ reg.TopsAlong p (t :: ts)) ∨
          ∃ q u expected, q ++ [u] <+: t :: ts ∧ reg.IsTop (p ++ q) expected ∧
            reg.Unrelated expected u ∧ (reg.raiseBound span bound (t :: ts)).result =
              .error ⟨.typeMismatch expected u, span⟩ := by
      intro bound' htop' hstep
      have happend : p ++ t :: ts = p ++ [t] ++ ts := by simp
      rw [hstep, happend]
      rcases ih (happend ▸ hregular) htop' with ⟨top, hrun, hall, htops⟩ |
        ⟨q, u, expected, hq, hexpected, hunrelated, hrun⟩
      · exact .inl ⟨top, hrun, hall, topsAlong_cons htop htops⟩
      · refine .inr ⟨t :: q, u, expected, ?_, ?_, hunrelated, hrun⟩
        · exact List.cons_prefix_cons.2 ⟨rfl, hq⟩
        · rw [List.append_assoc] at hexpected
          exact hexpected
    -- three ways for the next type to stand to the bound, and one of them ends the run
    rcases above_or_below_or_unrelated hreg (hp bound htop.1) ht with
      habove | ⟨habove, hbelow⟩ | hunrelated
    · exact hnext t (isTop_append_of_above hwf hreg hp ht hvar htop habove)
        (raiseBound_of_above ts habove)
    · exact hnext bound (isTop_append_of_below htop hbelow)
        (raiseBound_of_below ts habove hbelow)
    · refine .inr ⟨[], t, bound, ?_, ?_, hunrelated, raiseBound_of_unrelated ts hunrelated⟩
      · exact ⟨ts, rfl⟩
      · rw [List.append_nil]
        exact htop

end Regular

/-! ## Bounds -/

/-- The first type of a list is the first bound. -/
theorem leastUpperBound_cons (t : Ty) (ts : List Ty) (span : Option Span) :
    (reg.leastUpperBound (t :: ts) span).result = (reg.raiseBound span t ts).result :=
  raiseBound_of_above ts (subtype_void reg t [])

/-- The run from the first type of a list on. -/
theorem leastUpperBound_run (hwf : WellFounded reg.Unfolds) (hreg : reg.Bodies reg.Regular)
    {ts : List Ty} (hts : ∀ t ∈ ts, reg.Regular t ∧ t.NoInferred) (hne : ts ≠ [])
    (span : Option Span) :
    (∃ top, (reg.leastUpperBound ts span).result = .ok top ∧ reg.IsTop ts top ∧
        ∀ p, p <+: ts → p ≠ [] → ∃ top, reg.IsTop p top) ∨
      ∃ p found expected, p ++ [found] <+: ts ∧ reg.IsTop p expected ∧
        reg.Unrelated expected found ∧
        (reg.leastUpperBound ts span).result = .error ⟨.typeMismatch expected found, span⟩ := by
  obtain ⟨t, ts, rfl⟩ := List.exists_cons_of_ne_nil hne
  obtain ⟨ht, hvar⟩ := hts t (List.mem_cons_self ..)
  -- the run starts from the first type, which is the top of itself
  have hself : reg.IsTop [t] t := by
    refine ⟨List.mem_singleton_self t, fun u hu => ?_⟩
    rw [List.mem_singleton.1 hu]
    exact isSubtype_self_of_regular hreg ht hvar
  rw [leastUpperBound_cons]
  rcases raiseBound_run hwf hreg span (p := [t]) hts hself with ⟨top, hrun, htop, htops⟩ |
    ⟨q, found, expected, hq, hexpected, hunrelated, hrun⟩
  · refine .inl ⟨top, hrun, htop, fun p hp hne => ?_⟩
    rcases List.prefix_cons_iff.1 hp with rfl | ⟨q, rfl, hq⟩
    · exact absurd rfl hne
    · exact htops q hq
  · exact .inr ⟨t :: q, found, expected, List.cons_prefix_cons.2 ⟨rfl, hq⟩, hexpected, hunrelated,
      hrun⟩

/-- In a built registry, a list of types has a bound if every beginning of it has a top. The bound
is then the top of the list, and so below every type that is above them all. Otherwise the search
stops at a type that is unrelated to the top of those before it. -/
theorem leastUpperBound_exact {f : File} (hbuild : (build f).result = .ok reg)
    (hreg : reg.Bodies reg.Regular) {ts : List Ty}
    (hts : ∀ t ∈ ts, reg.Regular t ∧ t.NoInferred) (span : Option Span) :
    ((∃ bound, (reg.leastUpperBound ts span).result = .ok bound) ↔
        ∀ p, p <+: ts → p ≠ [] → ∃ top, reg.IsTop p top) ∧
      (∀ bound, (reg.leastUpperBound ts span).result = .ok bound →
        (ts = [] → bound = .void) ∧
          (ts ≠ [] → reg.IsTop ts bound ∧
            ∀ u, (∀ t ∈ ts, reg.isSubtype u t = .ok true) → reg.isSubtype u bound = .ok true)) ∧
      ∀ e, (reg.leastUpperBound ts span).result = .error e →
        ∃ p found expected, p ++ [found] <+: ts ∧ reg.IsTop p expected ∧
          reg.Unrelated expected found ∧ e = ⟨.typeMismatch expected found, span⟩ := by
  have hwf := wellFounded_unfolds hbuild
  by_cases hne : ts = []
  · subst hne
    -- no types, and so no first one to start from
    have hvoid : (reg.leastUpperBound [] span).result = .ok .void := rfl
    rw [hvoid]
    refine ⟨⟨fun _ p hp hne => absurd (List.prefix_nil.1 hp) hne, fun _ => ⟨.void, rfl⟩⟩,
      fun bound hbound => ⟨fun _ => (Except.ok.inj hbound).symm, fun hne => absurd rfl hne⟩,
      fun e he => ?_⟩
    cases he
  rcases leastUpperBound_run hwf hreg hts hne span with ⟨top, hrun, htop, htops⟩ |
    ⟨p, found, expected, hp, hexpected, hunrelated, hrun⟩
  · rw [hrun]
    refine ⟨⟨fun _ => htops, fun _ => ⟨top, rfl⟩⟩, fun bound hbound => ?_, fun e he => ?_⟩
    · cases hbound
      exact ⟨fun hnil => absurd hnil hne, fun _ => ⟨htop, fun u hu => hu top htop.1⟩⟩
    · cases he
  · rw [hrun]
    have hregular : ∀ u ∈ p ++ [found], reg.Regular u := fun u hu => (hts u (hp.subset hu)).1
    obtain ⟨hpast, hfound⟩ := List.forall_mem_append.1 hregular
    -- the types up to the one that is blamed have no top
    have hnone : ∀ top, ¬ reg.IsTop (p ++ [found]) top :=
      not_isTop_append_of_unrelated hwf hreg hpast (hfound found (List.mem_singleton_self found))
        hexpected hunrelated
    refine ⟨⟨?_, fun h => ?_⟩, fun bound hbound => ?_, fun e he => ?_⟩
    · rintro ⟨bound, hbound⟩
      cases hbound
    · obtain ⟨top, htop⟩ := h _ hp (by simp)
      exact absurd htop (hnone top)
    · cases hbound
    · cases he
      exact ⟨p, found, expected, hp, hexpected, hunrelated, rfl⟩

/-- The alias of a union is above both its members. It is their bound if it stands before the second
of them, but if it comes after both the search has stopped before it. -/
theorem leastUpperBound_exact_flag :
    let reg : Registry := { aliases := [("Flag", .union [.int, .bool])] }
    let late : List Ty := [.int, .bool, .named "Flag"]
    reg.IsTop [.int, .named "Flag", .bool] (.named "Flag") ∧
      reg.IsTop late (.named "Flag") ∧
      ¬ ∀ p, p <+: late → p ≠ [] → ∃ top, reg.IsTop p top := by
  intro reg late
  let f : File := { decls := [.alias { name := "Flag", ty := .union [.int, .bool] }] }
  have hbuild : (build f).result = .ok reg := by decide +kernel
  have hreg : reg.Bodies reg.Regular := by decide +kernel
  have hts : ∀ t ∈ [.int, .named "Flag", .bool], reg.Regular t ∧ t.NoInferred := by decide +kernel
  have hlate : ∀ t ∈ late, reg.Regular t ∧ t.NoInferred := by decide +kernel
  have hbound : (reg.leastUpperBound [.int, .named "Flag", .bool] none).result =
    .ok (.named "Flag") := by decide +kernel
  -- the alias comes too late: the two before it have no bound among themselves
  have hfails : (reg.leastUpperBound late none).result =
      .error ⟨.typeMismatch .int .bool, none⟩ := by decide +kernel
  obtain ⟨-, htop, -⟩ := leastUpperBound_exact hbuild hreg hts none
  obtain ⟨hiff, -⟩ := leastUpperBound_exact hbuild hreg hlate none
  refine ⟨((htop _ hbound).2 (by simp)).1, ⟨by simp [late], by decide +kernel⟩, fun h => ?_⟩
  obtain ⟨bound, hok⟩ := hiff.2 h
  cases hfails.symm.trans hok

end WhileTyping.Registry
