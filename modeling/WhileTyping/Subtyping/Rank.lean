import WhileTyping.Registry.Basic
import WhileTyping.Ty.Subterms

/-!
# The rank of a comparison

Comparing two types meets only subterms of the two and of alias bodies, of which there are finitely
many. A comparison keeps a trail of the pairs at which it expanded an alias, and expands one only at
a pair that is not on the trail. So a step either goes to smaller types, or uses up one of the pairs
still open. `rank` puts both into one number: `rank_lt_of_parts` and `rank_lt_of_push` say that each
kind of step lowers it, whatever the registry and the trail.
-/

namespace WhileTyping

/-- The pairs at which a comparison has expanded an alias, the latest first. -/
abbrev Trail := List (Ty × Ty)

/-! ## Distinct elements of a list -/

/-- The elements of a list without repetition, each at its last place. -/
def distinct {α : Type} [DecidableEq α] : List α → List α
  | [] => []
  | a :: l => if a ∈ l then distinct l else a :: distinct l

theorem mem_distinct {α : Type} [DecidableEq α] {a : α} {l : List α} :
    a ∈ distinct l ↔ a ∈ l := by
  induction l with
  | nil => simp [distinct]
  | cons b l ih =>
    rw [distinct]
    split
    · rename_i hb
      rw [ih, List.mem_cons]
      exact ⟨Or.inr, fun h => h.elim (fun hab => hab ▸ hb) id⟩
    · rw [List.mem_cons, List.mem_cons, ih]

theorem nodup_distinct {α : Type} [DecidableEq α] (l : List α) : (distinct l).Nodup := by
  induction l with
  | nil => simp [distinct]
  | cons b l ih =>
    rw [distinct]
    split
    · exact ih
    · rename_i hb
      exact List.nodup_cons.2 ⟨fun h => hb (mem_distinct.1 h), ih⟩

namespace Registry

/-! ## What a comparison can meet -/

/-- Every type that a comparison of two types can come to. -/
def reachable (reg : Registry) (sup sub : Ty) : List Ty :=
  sup.subterms ++ (sub.subterms ++ reg.aliases.flatMap fun a => a.2.subterms)

/-- The upper type and its parts can be met. -/
theorem sup_subset_reachable (reg : Registry) (sup sub : Ty) :
    sup.subterms ⊆ reg.reachable sup sub :=
  List.subset_append_left _ _

/-- The lower type and its parts can be met. -/
theorem sub_subset_reachable (reg : Registry) (sup sub : Ty) :
    sub.subterms ⊆ reg.reachable sup sub :=
  fun _ h => List.mem_append_right _ (List.mem_append_left _ h)

/-- The bodies of all aliases can be met. -/
theorem body_subset_reachable {reg : Registry} {n : String} {t : Ty}
    (h : reg.alias? n = some t) (sup sub : Ty) : t.subterms ⊆ reg.reachable sup sub :=
  fun _ hx => List.mem_append_right _ (List.mem_append_right _
    (List.mem_flatMap.2 ⟨(n, t), mem_aliases_of_alias? h, hx⟩))

/-- Going to subterms of what can be met, a comparison meets nothing else. -/
theorem reachable_subset {reg : Registry} {sup sub sup' sub' : Ty}
    (hsup : sup'.subterms ⊆ reg.reachable sup sub)
    (hsub : sub'.subterms ⊆ reg.reachable sup sub) :
    reg.reachable sup' sub' ⊆ reg.reachable sup sub := by
  intro x hx
  rcases List.mem_append.1 hx with hx | hx
  · exact hsup hx
  · rcases List.mem_append.1 hx with hx | hx
    · exact hsub hx
    · exact List.mem_append_right _ (List.mem_append_right _ hx)

/-- The pairs a comparison can come to that are not on the trail. -/
def openPairs (reg : Registry) (sup sub : Ty) (trail : Trail) : List (Ty × Ty) :=
  (distinct ((reg.reachable sup sub).flatMap fun s => (reg.reachable sup sub).map (s, ·))).filter
    fun p => !trail.contains p

/-- The open pairs are those that can still be met for the first time. -/
theorem mem_openPairs {reg : Registry} {sup sub : Ty} {trail : Trail} {p : Ty × Ty} :
    p ∈ reg.openPairs sup sub trail ↔
      p.1 ∈ reg.reachable sup sub ∧ p.2 ∈ reg.reachable sup sub ∧ p ∉ trail := by
  cases p
  simp [openPairs, mem_distinct, and_assoc]

theorem nodup_openPairs (reg : Registry) (sup sub : Ty) (trail : Trail) :
    (reg.openPairs sup sub trail).Nodup :=
  (nodup_distinct _).filter _

/-- Number of nodes of the largest type in a list. -/
def largest : List Ty → Nat
  | [] => 0
  | t :: ts => max t.size (largest ts)

theorem size_le_largest {t : Ty} {ts : List Ty} (h : t ∈ ts) : t.size ≤ largest ts := by
  induction ts with
  | nil => cases h
  | cons s ss ih =>
    rw [largest]
    rcases List.mem_cons.1 h with rfl | h
    · exact Nat.le_max_left _ _
    · exact Nat.le_trans (ih h) (Nat.le_max_right _ _)

/-- Fewer types have no larger one among them. -/
theorem largest_le_of_subset {ss ts : List Ty} (h : ss ⊆ ts) : largest ss ≤ largest ts := by
  induction ss with
  | nil => exact Nat.zero_le _
  | cons s ss ih =>
    rw [largest]
    have hs := List.cons_subset.1 h
    exact Nat.max_le.2 ⟨size_le_largest hs.1, ih hs.2⟩

/-! ## Rank -/

/-- The open pairs count for more than any two types can differ in size. -/
def rank (reg : Registry) (sup sub : Ty) (trail : Trail) : Nat :=
  (reg.openPairs sup sub trail).length * (2 * largest (reg.reachable sup sub) + 1) +
    (sup.size + sub.size)

/-- Going to smaller types lowers the rank, with the same trail. -/
theorem rank_lt_of_parts {reg : Registry} {sup sub sup' sub' : Ty} {trail : Trail}
    (hsup : sup'.subterms ⊆ reg.reachable sup sub)
    (hsub : sub'.subterms ⊆ reg.reachable sup sub)
    (hsize : sup'.size + sub'.size < sup.size + sub.size) :
    reg.rank sup' sub' trail < reg.rank sup sub trail := by
  have hreach := reachable_subset hsup hsub
  -- no pair is opened, since the parts lead to nothing new
  have hopen : (reg.openPairs sup' sub' trail).length ≤ (reg.openPairs sup sub trail).length := by
    refine (nodup_openPairs ..).length_le_of_subset fun p hp => ?_
    obtain ⟨h₁, h₂, h₃⟩ := mem_openPairs.1 hp
    exact mem_openPairs.2 ⟨hreach h₁, hreach h₂, h₃⟩
  have hlargest := largest_le_of_subset hreach
  have hmul := Nat.mul_le_mul hopen
    (show 2 * largest (reg.reachable sup' sub') + 1 ≤ 2 * largest (reg.reachable sup sub) + 1 by
      omega)
  unfold rank
  omega

/-- Putting a pair on the trail lowers the rank, whatever the sizes of what comes next. -/
theorem rank_lt_of_push {reg : Registry} {sup sub sup' sub' : Ty} {trail : Trail}
    (hsup : sup'.subterms ⊆ reg.reachable sup sub)
    (hsub : sub'.subterms ⊆ reg.reachable sup sub)
    (hnew : (sup, sub) ∉ trail) :
    reg.rank sup' sub' ((sup, sub) :: trail) < reg.rank sup sub trail := by
  have hreach := reachable_subset hsup hsub
  -- the pair itself is one of the open pairs, and is not any more afterwards
  have hself : (sup, sub) ∈ reg.openPairs sup sub trail :=
    mem_openPairs.2 ⟨sup_subset_reachable _ _ _ sup.self_mem_subterms,
      sub_subset_reachable _ _ _ sub.self_mem_subterms, hnew⟩
  have hopen : (reg.openPairs sup' sub' ((sup, sub) :: trail)).length + 1 ≤
      (reg.openPairs sup sub trail).length := by
    have hnodup : ((sup, sub) :: reg.openPairs sup' sub' ((sup, sub) :: trail)).Nodup :=
      List.nodup_cons.2 ⟨fun h => (mem_openPairs.1 h).2.2 (List.mem_cons_self ..),
        nodup_openPairs ..⟩
    refine hnodup.length_le_of_subset fun p hp => ?_
    rcases List.mem_cons.1 hp with rfl | hp
    · exact hself
    · obtain ⟨h₁, h₂, h₃⟩ := mem_openPairs.1 hp
      exact mem_openPairs.2 ⟨hreach h₁, hreach h₂, fun h => h₃ (List.mem_cons_of_mem _ h)⟩
  have hlargest := largest_le_of_subset hreach
  -- the sizes of the new types are made up for by the one pair that is used up
  have hs := size_le_largest (hsup sup'.self_mem_subterms)
  have ht := size_le_largest (hsub sub'.self_mem_subterms)
  have hmul : (reg.openPairs sup' sub' ((sup, sub) :: trail)).length *
      (2 * largest (reg.reachable sup' sub') + 1) + (2 * largest (reg.reachable sup sub) + 1) ≤
      (reg.openPairs sup sub trail).length * (2 * largest (reg.reachable sup sub) + 1) := by
    have h₁ := Nat.mul_le_mul_right (2 * largest (reg.reachable sup sub) + 1) hopen
    have h₂ := Nat.mul_le_mul_left (reg.openPairs sup' sub' ((sup, sub) :: trail)).length
      (show 2 * largest (reg.reachable sup' sub') + 1 ≤ 2 * largest (reg.reachable sup sub) + 1 by
        omega)
    rw [Nat.add_one_mul] at h₁
    omega
  unfold rank
  omega

end Registry

end WhileTyping
