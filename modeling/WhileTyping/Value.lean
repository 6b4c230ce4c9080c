import WhileTyping.Text.Quoted

/-!
# Constants

The literal values of the language, and their text.
-/

namespace WhileTyping

mutual
inductive Value where
  | bool (b : Bool)
  | char (c : Char)
  | int (n : Int)
  | string (s : String)
  | array (items : List Value)
  | record (entries : List Entry)

/-- A named value of a record, in written order. -/
structure Entry where
  name : String
  value : Value
end

namespace Value

/-! ## Equality -/

mutual
def identical : Value → Value → Bool
  | .bool a, .bool b => a == b
  | .char a, .char b => a == b
  | .int a, .int b => a == b
  | .string a, .string b => a == b
  | .array vs, .array ws => identicalAll vs ws
  | .record es, .record fs => identicalEntries es fs
  | _, _ => false

def identicalAll : List Value → List Value → Bool
  | [], [] => true
  | v :: vs, w :: ws => identical v w && identicalAll vs ws
  | _, _ => false

def identicalEntries : List Entry → List Entry → Bool
  | [], [] => true
  | ⟨m, v⟩ :: es, ⟨n, w⟩ :: fs => m == n && identical v w && identicalEntries es fs
  | _, _ => false
end

mutual
/-- The comparison decides equality. -/
theorem identical_iff : ∀ v w : Value, identical v w = true ↔ v = w
  | .bool a, w | .char a, w | .int a, w | .string a, w => by cases w <;> simp [identical]
  | .array vs, w => by cases w <;> simp [identical, identicalAll_iff vs]
  | .record es, w => by cases w <;> simp [identical, identicalEntries_iff es]

theorem identicalAll_iff : ∀ vs ws : List Value, identicalAll vs ws = true ↔ vs = ws
  | [], ws => by cases ws <;> simp [identicalAll]
  | v :: vs, ws => by cases ws <;> simp [identicalAll, identical_iff v, identicalAll_iff vs]

theorem identicalEntries_iff : ∀ es fs : List Entry, identicalEntries es fs = true ↔ es = fs
  | [], fs => by cases fs <;> simp [identicalEntries]
  | ⟨m, v⟩ :: es, fs => by
    cases fs with
    | nil => simp [identicalEntries]
    | cons f fs =>
      cases f
      simp [identicalEntries, identical_iff v, identicalEntries_iff es]
end

instance : DecidableEq Value := fun v w => decidable_of_iff _ (identical_iff v w)

/-! ## Text -/

mutual
def render : Value → String
  | .bool true => "true"
  | .bool false => "false"
  | .char c => "'" ++ c.toString ++ "'"
  | .int n => toString n
  | .string s => Text.quote s
  | .array vs => "[" ++ renderAll vs ++ "]"
  | .record es => "\x7b" ++ renderEntries es ++ "\x7d"

def renderAll : List Value → String
  | [] => ""
  | [v] => render v
  | v :: vs => render v ++ ", " ++ renderAll vs

def renderEntries : List Entry → String
  | [] => ""
  | [⟨n, v⟩] => n ++ ": " ++ render v
  | ⟨n, v⟩ :: es => n ++ ": " ++ render v ++ ", " ++ renderEntries es
end

end Value

end WhileTyping
