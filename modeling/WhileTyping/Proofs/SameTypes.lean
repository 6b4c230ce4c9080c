import Mathlib.Data.Fintype.EquivFin
import Mathlib.Data.List.Forall2
import WhileTyping.Proofs.Everywhere

/-!
# Sameness of types is an equivalence

`Ty.same` compares unions by counting: equally many members, and every member of the first matched
by one of the second. This module shows what that amounts to.

* **`same_cases`**: the ways in which two types can be the same, for case analysis.
* **`same_trans`**: sameness is transitive, on all types.
* **`same_comm`**: where no union repeats a member, it is symmetric too. Members that are matched
  with one and the same member are the same as each other, so on the smaller list no two share a
  match and every member of the second union is taken (`exists_fit`).
* **`exists_same_member`**: so two such unions have the same members, whichever is looked at first.
-/

namespace WhileTyping

/-- If every one of some elements fits a place, and no two fit the same place, they can take places
of their own. -/
theorem exists_injective_fit {α β : Type} {fits : β → α → Prop} {as : List α} {bs : List β}
    (hfit : ∀ a ∈ as, ∃ b ∈ bs, fits b a)
    (hone : as.Pairwise fun a a' => ∀ b, fits b a → ¬ fits b a') :
    ∃ place : Fin as.length → Fin bs.length,
      Function.Injective place ∧ ∀ i, fits (bs.get (place i)) (as.get i) := by
  have hplace : ∀ i : Fin as.length, ∃ j : Fin bs.length, fits (bs.get j) (as.get i) := by
    intro i
    obtain ⟨b, hb, hfits⟩ := hfit _ (as.get_mem i)
    obtain ⟨j, rfl⟩ := List.get_of_mem hb
    exact ⟨j, hfits⟩
  choose place hplace using hplace
  refine ⟨place, fun i i' heq => ?_, hplace⟩
  -- two elements in one place would both fit what is there
  by_contra hne
  have hi := hplace i
  have hi' := hplace i'
  rw [heq] at hi
  rcases lt_or_gt_of_ne hne with hlt | hgt
  · exact List.pairwise_iff_get.1 hone i i' hlt _ hi hi'
  · exact List.pairwise_iff_get.1 hone i' i hgt _ hi' hi

/-- So there are at most as many. -/
theorem length_le_of_fit {α β : Type} {fits : β → α → Prop} {as : List α} {bs : List β}
    (hfit : ∀ a ∈ as, ∃ b ∈ bs, fits b a)
    (hone : as.Pairwise fun a a' => ∀ b, fits b a → ¬ fits b a') : as.length ≤ bs.length := by
  obtain ⟨place, hinj, -⟩ := exists_injective_fit hfit hone
  simpa using Fintype.card_le_of_injective place hinj

/-- If there are only as many places as elements, every place is taken. -/
theorem exists_fit {α β : Type} {fits : β → α → Prop} {as : List α} {bs : List β}
    (hlen : as.length = bs.length) (hfit : ∀ a ∈ as, ∃ b ∈ bs, fits b a)
    (hone : as.Pairwise fun a a' => ∀ b, fits b a → ¬ fits b a') :
    ∀ b ∈ bs, ∃ a ∈ as, fits b a := by
  obtain ⟨place, hinj, hplace⟩ := exists_injective_fit hfit hone
  have hsurj : Function.Surjective place :=
    ((Fintype.bijective_iff_injective_and_card place).2 ⟨hinj, by simp [hlen]⟩).2
  intro b hb
  obtain ⟨j, rfl⟩ := List.get_of_mem hb
  obtain ⟨i, rfl⟩ := hsurj j
  exact ⟨_, as.get_mem i, hplace i⟩

/-- Lists related element by element compose, where the relations compose at the elements of the
middle list. -/
theorem forall₂_comp {α β γ : Type} {r : α → β → Prop} {q : β → γ → Prop} {p : α → γ → Prop}
    {as : List α} {bs : List β} {cs : List γ}
    (h : ∀ a b c, b ∈ bs → r a b → q b c → p a c)
    (hr : List.Forall₂ r as bs) (hq : List.Forall₂ q bs cs) : List.Forall₂ p as cs := by
  induction hr generalizing cs with
  | nil =>
    cases hq
    exact .nil
  | cons hab _ ih =>
    cases hq with
    | cons hbc hq =>
      refine .cons (h _ _ _ (List.mem_cons_self ..) hab hbc) (ih ?_ hq)
      exact fun a b c hb => h a b c (List.mem_cons_of_mem _ hb)

/-- Lists related element by element are so the other way round, where the relation is at the
elements of the first list. -/
theorem forall₂_flip_of_mem {α β : Type} {r : α → β → Prop} {q : β → α → Prop}
    {as : List α} {bs : List β} (h : ∀ a ∈ as, ∀ b ∈ bs, r a b → q b a)
    (hr : List.Forall₂ r as bs) : List.Forall₂ q bs as := by
  induction hr with
  | nil => exact .nil
  | cons hab _ ih =>
    refine .cons (h _ (List.mem_cons_self ..) _ (List.mem_cons_self ..) hab) (ih ?_)
    exact fun a ha b hb => h a (List.mem_cons_of_mem _ ha) b (List.mem_cons_of_mem _ hb)

/-- Lists that are related place by place have the same places. -/
theorem exists_getElem?_of_forall₂ {α β : Type} {r : α → β → Prop} {as : List α} {bs : List β}
    (hr : List.Forall₂ r as bs) {i : Nat} {b : β} (hb : bs[i]? = some b) :
    ∃ a, as[i]? = some a ∧ r a b := by
  induction hr generalizing i with
  | nil => simp at hb
  | @cons a b' as bs hab _ ih =>
    cases i with
    | zero =>
      simp only [List.getElem?_cons_zero, Option.some.injEq] at hb
      exact ⟨a, rfl, hb ▸ hab⟩
    | succ i => exact ih hb

/-- Two elements are paired if they have the same place. -/
theorem mem_zip_iff {α β : Type} {as : List α} {bs : List β} {p : α × β} :
    p ∈ as.zip bs ↔ ∃ i : Nat, as[i]? = some p.1 ∧ bs[i]? = some p.2 := by
  rw [List.mem_iff_getElem?]
  simp only [List.getElem?_zip_eq_some]

/-- What stands between two lists at a place, in a list that is at least as long as the first. -/
theorem exists_zip_between {α β γ : Type} {as : List α} {bs : List β} {cs : List γ}
    (hlen : as.length ≤ bs.length) {p : α × γ} (hp : p ∈ as.zip cs) :
    ∃ b, (p.1, b) ∈ as.zip bs ∧ (b, p.2) ∈ bs.zip cs := by
  obtain ⟨i, ha, hc⟩ := mem_zip_iff.1 hp
  have hi : i < bs.length := Nat.lt_of_lt_of_le (List.getElem?_eq_some_iff.1 ha).1 hlen
  have hb : bs[i]? = some bs[i] := List.getElem?_eq_getElem hi
  exact ⟨bs[i], mem_zip_iff.2 ⟨i, ha, hb⟩, mem_zip_iff.2 ⟨i, hb, hc⟩⟩

namespace Ty

/-! ## Case analysis -/

/-- Record types are the same if their fields are, in the same order. -/
theorem same_record_iff {fs gs : List Field} :
    same (.record fs) (.record gs) = true ↔
      List.Forall₂ (fun f g => f.name = g.name ∧ same f.ty g.ty = true) fs gs := by
  rw [same_record, List.forall₂_iff_zip]
  simp

/-- Unions are the same if they have as many members, and each of the first has one of the
second. -/
theorem same_union_iff {ss ts : List Ty} :
    same (.union ss) (.union ts) = true ↔
      ss.length = ts.length ∧ ∀ s ∈ ss, ∃ t ∈ ts, same t s = true := by
  rw [same_union]
  simp

/-- The ways in which two types can be the same. -/
inductive SameForm : Ty → Ty → Prop
  | equal (t : Ty) : SameForm t t
  | array {s t : Ty} (h : same s t = true) : SameForm (.array s) (.array t)
  | record {fs gs : List Field}
      (h : List.Forall₂ (fun f g => f.name = g.name ∧ same f.ty g.ty = true) fs gs) :
      SameForm (.record fs) (.record gs)
  | union {ss ts : List Ty} (hlen : ss.length = ts.length)
      (h : ∀ s ∈ ss, ∃ t ∈ ts, same t s = true) : SameForm (.union ss) (.union ts)

/-- Types that are the same have the same form. -/
theorem same_cases {s t : Ty} (h : same s t = true) : SameForm s t := by
  cases s with
  | void | bool | char | int | string | inferred =>
    cases t <;> simp [same] at h
    exact .equal _
  | array a =>
    cases t <;> simp [same] at h
    exact .array h
  | record fs =>
    cases t with
    | record gs => exact .record (same_record_iff.1 h)
    | _ => simp [same] at h
  | named m =>
    cases t <;> simp [same] at h
    exact h ▸ .equal _
  | union ss =>
    cases t with
    | union ts => exact .union (same_union_iff.1 h).1 (same_union_iff.1 h).2
    | _ => simp [same] at h

theorem same_array_left {s t : Ty} (h : same (.array s) t = true) :
    ∃ u, t = .array u ∧ same s u = true := by
  cases same_cases h with
  | equal => exact ⟨s, rfl, s.same_refl⟩
  | array hsu => exact ⟨_, rfl, hsu⟩

theorem same_record_left {fs : List Field} {t : Ty} (h : same (.record fs) t = true) :
    ∃ gs, t = .record gs := by
  cases same_cases h with
  | equal => exact ⟨fs, rfl⟩
  | record => exact ⟨_, rfl⟩

theorem same_union_left {ss : List Ty} {t : Ty} (h : same (.union ss) t = true) :
    ∃ ts, t = .union ts := by
  cases same_cases h with
  | equal => exact ⟨ss, rfl⟩
  | union => exact ⟨_, rfl⟩

/-! ## Transitivity

Induction on the type in the middle. The comparison of members turns the three types round, and the
middle one stays where it is. -/

/-- By induction on the type in the middle. The member found for a member is itself compared. -/
theorem same_trans {s t u : Ty} (hst : same s t = true) (htu : same t u = true) :
    same s u = true := by
  induction t generalizing s u with
  | void | bool | char | int | string | inferred | named =>
    cases same_cases hst
    exact htu
  | array b ih =>
    cases same_cases hst with
    | equal => exact htu
    | array hab =>
      cases same_cases htu with
      | equal => simpa using hab
      | array hbc => simpa using ih hab hbc
  | record gs ih =>
    cases same_cases hst with
    | equal => exact htu
    | record hfg =>
      cases same_cases htu with
      | equal => exact same_record_iff.2 hfg
      | record hgh =>
        refine same_record_iff.2 (forall₂_comp ?_ hfg hgh)
        intro f g h hg hfg hgh
        exact ⟨hfg.1.trans hgh.1, ih g hg hfg.2 hgh.2⟩
  | union ts ih =>
    cases same_cases hst with
    | equal => exact htu
    | union hlen hmem =>
      cases same_cases htu with
      | equal => exact same_union_iff.2 ⟨hlen, hmem⟩
      | union hlen' hmem' =>
        refine same_union_iff.2 ⟨hlen.trans hlen', fun s hs => ?_⟩
        -- members are compared from right to left, so the chain runs from `u` to `s`
        obtain ⟨t, ht, hts⟩ := hmem s hs
        obtain ⟨u, hu, hut⟩ := hmem' t ht
        exact ⟨u, hu, ih t ht hut hts⟩

/-! ## Symmetry -/

/-- No two members of a union are matched by one type, if sameness is symmetric between them: they
would be the same as each other, through that type. -/
theorem pairwise_fit {ss ts : List Ty} (hdistinct : (union ss).NoRepeats)
    (hcomm : ∀ s ∈ ss, ∀ t ∈ ts, same t s = true → same s t = true) :
    ss.Pairwise fun s s' =>
      ∀ t, (t ∈ ts ∧ same t s = true) → ¬ (t ∈ ts ∧ same t s' = true) := by
  refine List.Pairwise.imp_of_mem ?_ hdistinct.here
  rintro s s' hs - hne t ⟨ht, hts⟩ ⟨-, hts'⟩
  have hss' := same_trans (hcomm s hs t ht hts) hts'
  rw [hne] at hss'
  cases hss'

/-- Every member of the second of two unions that are the same is matched by one of the first, if
sameness is symmetric on the members of the first. -/
theorem exists_fit_of_same {ss ts : List Ty} (hdistinct : (union ss).NoRepeats)
    (hcomm : ∀ s ∈ ss, ∀ t ∈ ts, same t s = true → same s t = true)
    (hlen : ss.length = ts.length) (h : ∀ s ∈ ss, ∃ t ∈ ts, same t s = true) :
    ∀ t ∈ ts, ∃ s ∈ ss, same t s = true := by
  have hfit : ∀ s ∈ ss, ∃ t ∈ ts, t ∈ ts ∧ same t s = true := by
    intro s hs
    obtain ⟨t, ht, hts⟩ := h s hs
    exact ⟨t, ht, ht, hts⟩
  intro t ht
  obtain ⟨s, hs, -, hts⟩ := exists_fit hlen hfit (pairwise_fit hdistinct hcomm) t ht
  exact ⟨s, hs, hts⟩

/-- By induction on the first type. For unions it takes distinct members, since only one direction
is looked for. -/
theorem same_comm {s t : Ty} (hs : s.NoRepeats) (ht : t.NoRepeats) :
    same s t = true ↔ same t s = true := by
  -- both directions at once, because each turns into the other at the members of a union
  induction s generalizing t with
  | void | bool | char | int | string | inferred | named =>
    constructor
    · intro h
      cases same_cases h
      simp
    · intro h
      cases same_cases h
      simp
  | array a ih =>
    constructor
    · intro h
      cases same_cases h with
      | equal => simp
      | array hab => simpa using (ih hs.element ht.element).1 hab
    · intro h
      cases same_cases h with
      | equal => simp
      | array hba => simpa using (ih hs.element ht.element).2 hba
  | record fs ih =>
    constructor
    · intro h
      cases same_cases h with
      | equal => simp
      | record hfields =>
        refine same_record_iff.2 (forall₂_flip_of_mem ?_ hfields)
        intro f hf g hg hfg
        exact ⟨hfg.1.symm, (ih f hf (hs.field hf) (ht.field hg)).1 hfg.2⟩
    · intro h
      cases same_cases h with
      | equal => simp
      | record hfields =>
        refine same_record_iff.2 (forall₂_flip_of_mem ?_ hfields)
        intro g hg f hf hgf
        exact ⟨hgf.1.symm, (ih f hf (hs.field hf) (ht.field hg)).2 hgf.2⟩
  | union ss ih =>
    constructor
    · intro h
      cases same_cases h with
      | equal => simp
      | @union _ ts hlen hfit =>
        refine same_union_iff.2 ⟨hlen.symm, fun t htm => ?_⟩
        -- as many members on both sides, so the members that fit are all there are
        have hcomm : ∀ s ∈ ss, ∀ t ∈ ts, same t s = true → same s t = true :=
          fun s hsm t htm => (ih s hsm (hs.member hsm) (ht.member htm)).2
        obtain ⟨s, hsm, hts⟩ := exists_fit_of_same hs hcomm hlen hfit t htm
        exact ⟨s, hsm, hcomm s hsm t htm hts⟩
    · intro h
      cases same_cases h with
      | equal => simp
      | @union ts _ hlen hfit =>
        refine same_union_iff.2 ⟨hlen.symm, fun s hsm => ?_⟩
        have hcomm : ∀ t ∈ ts, ∀ s ∈ ss, same s t = true → same t s = true :=
          fun t htm s hsm => (ih s hsm (hs.member hsm) (ht.member htm)).1
        obtain ⟨t, htm, hst⟩ := exists_fit_of_same ht hcomm hlen hfit s hsm
        exact ⟨t, htm, hcomm t htm s hsm hst⟩

theorem same_symm {s t : Ty} (hs : s.NoRepeats) (ht : t.NoRepeats) (h : same s t = true) :
    same t s = true :=
  (same_comm hs ht).1 h

/-- Two unions that are the same have the same members. -/
theorem exists_same_member {ss ts : List Ty} (hs : (union ss).NoRepeats)
    (ht : (union ts).NoRepeats) (h : same (.union ss) (.union ts) = true) :
    (∀ s ∈ ss, ∃ t ∈ ts, same s t = true) ∧ ∀ t ∈ ts, ∃ s ∈ ss, same s t = true := by
  constructor
  · intro s hsm
    obtain ⟨t, htm, hts⟩ := (same_union_iff.1 h).2 s hsm
    exact ⟨t, htm, same_symm (ht.member htm) (hs.member hsm) hts⟩
  · intro t htm
    exact (same_union_iff.1 (same_symm hs ht h)).2 t htm

end Ty

end WhileTyping
