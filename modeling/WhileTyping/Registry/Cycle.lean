import WhileTyping.Registry.Basic

/-!
# Circular aliases

An alias may mention itself inside an array or a record, but not outside: then expanding it would
never end. `findCycle` walks along the references that stand outside arrays and records and returns
the first name met twice on one path.

The walk ends because each step either enters a smaller type or adds to the path a declared name
that was not on it.
-/

namespace WhileTyping

/-- A walk along aliases that came back to `name`, one of the names on its path. -/
structure AliasCycle where
  name : String
  path : List String
  deriving DecidableEq, Repr

namespace Registry

/-- Number of nodes of the largest alias body. -/
def largestBody (reg : Registry) : Nat := (reg.aliases.map fun a => a.2.size).foldr max 0

/-- Number of declared aliases that are not on a path. -/
def unvisited (reg : Registry) (path : List String) : Nat :=
  (reg.aliases.filter fun a => !path.contains a.1).length

/-- Entering an alias leads to a type of bounded size. -/
theorem size_le_largestBody {reg : Registry} {n : String} {t : Ty} (h : reg.alias? n = some t) :
    t.size ≤ reg.largestBody := by
  have hmem := mem_aliases_of_alias? h
  unfold largestBody
  revert hmem
  induction reg.aliases with
  | nil => intro hmem; cases hmem
  | cons a as ih =>
    intro hmem
    rw [List.map_cons, List.foldr_cons]
    rcases List.mem_cons.1 hmem with rfl | hmem
    · exact Nat.le_max_left _ _
    · exact Nat.le_trans (ih hmem) (Nat.le_max_right _ _)

/-- Each alias that is entered for the first time is one less to enter. -/
theorem unvisited_lt {reg : Registry} {n : String} {t : Ty} {path : List String}
    (h : reg.alias? n = some t) (hn : n ∉ path) :
    reg.unvisited (path ++ [n]) < reg.unvisited path := by
  have hmem := mem_aliases_of_alias? h
  unfold unvisited
  revert hmem
  induction reg.aliases with
  | nil => intro hmem; cases hmem
  | cons a as ih =>
    intro hmem
    -- the longer path leaves out at least what the shorter one does
    have hle : (as.filter fun a => !(path ++ [n]).contains a.1).length ≤
        (as.filter fun a => !path.contains a.1).length := by
      rw [← List.countP_eq_length_filter, ← List.countP_eq_length_filter]
      exact List.countP_mono_left fun a _ ha => by simp_all
    rcases List.mem_cons.1 hmem with rfl | hmem
    · rw [List.filter_cons_of_neg (by simp), List.filter_cons_of_pos (by simpa using hn)]
      exact Nat.lt_succ_of_le hle
    · have hlt := ih hmem
      by_cases ha : a.1 ∈ path
      · rw [List.filter_cons_of_neg (by simp [ha]), List.filter_cons_of_neg (by simp [ha])]
        exact hlt
      · by_cases han : a.1 = n
        · rw [List.filter_cons_of_neg (by simp [han]), List.filter_cons_of_pos (by simpa using ha)]
          exact Nat.lt_succ_of_le hle
        · rw [List.filter_cons_of_pos (by simp [ha, han]),
            List.filter_cons_of_pos (by simpa using ha)]
          exact Nat.succ_lt_succ hlt

-- `hn` and `h` are read by `decreasing_by` only, which the linter does not see.
set_option linter.unusedVariables false in
/-- The first circle on a walk from a type, where `path` holds the aliases entered so far. -/
def findCycle (reg : Registry) (path : List String) (t : Ty) : Option AliasCycle :=
  match t with
  | .named n =>
    if hn : n ∈ path then some ⟨n, path⟩
    else
      match h : reg.alias? n with
      | some body => reg.findCycle (path ++ [n]) body
      | none => none
  | .union ts => ts.attach.findSome? fun ⟨t, _⟩ => reg.findCycle path t
  | _ => none
termination_by reg.unvisited path * (reg.largestBody + 1) + t.size
decreasing_by
  · have hlt := unvisited_lt h hn
    have hsize := size_le_largestBody h
    have hmul := Nat.mul_le_mul_right (reg.largestBody + 1) hlt
    rw [Nat.succ_mul] at hmul
    omega
  · rename_i hmem
    have := Ty.size_le_sizeAll hmem
    simp only [Ty.size]
    omega

/-- The members of a union are walked along one after another. -/
theorem findCycle_union (reg : Registry) (path : List String) (ts : List Ty) :
    reg.findCycle path (.union ts) = ts.findSome? (reg.findCycle path) := by
  rw [findCycle, List.findSome?_subtype fun _ _ => rfl, List.unattach_attach]

end Registry

end WhileTyping
