import WhileTyping.Proofs.SettledTypes

/-!
# Reading a type from its text

Two types have the same text only if they are the same tree, if their names are identifiers and
their unions have at least two members, none of them a union. A text is read from left to right. A
union is read member by member, a member is a core followed by a number of brackets, and a core is a
word, a record or a union in parentheses.

* **`Ty.Readable`**: the condition on names and unions.
* **`Ty.enclosed_eq`**: a type is its core in its brackets, and so is its text.
* **`Ty.CoreUnique`**: a text starts with the core of one type only. What follows the core is
  arbitrary, except that it does not go on with a word.
* **`membersTail_unique`**, **`fields_unique`**: members and fields are separated by what cannot be
  part of their texts, so lists of them are read in one way if their elements are.
* **`Ty.text_append_inj`**: a text starts with one type only, by induction on types.
-/

namespace WhileTyping

namespace Ty

/-! ## Names -/

/-- The characters of names and of keywords. -/
def isNameChar (c : Char) : Bool := c.isAlphanum || c == '_'

/-- Whether a text is non-empty, of ASCII letters, digits and underscores, and does not start with a
digit. -/
def isIdentifier (s : String) : Bool :=
  match s.toList with
  | [] => false
  | c :: cs => !c.isDigit && (c :: cs).all isNameChar

/-- The texts of the types that are written as one word and are not aliases. -/
def keywords : List String := ["void", "bool", "char", "int", "string", "var"]

/-- What a type that can be read from its text satisfies at each node. -/
def ReadableNode : Ty → Prop
  | .named n => isIdentifier n = true ∧ n ∉ keywords
  | .record fs => ∀ f ∈ fs, isIdentifier f.name = true
  | .union ts => 2 ≤ ts.length ∧ ∀ t ∈ ts, t.isUnion = false
  | _ => True

instance : DecidablePred ReadableNode
  | .named n => inferInstanceAs (Decidable (isIdentifier n = true ∧ n ∉ keywords))
  | .record fs => inferInstanceAs (Decidable (∀ f ∈ fs, isIdentifier f.name = true))
  | .union ts => inferInstanceAs (Decidable (2 ≤ ts.length ∧ ∀ t ∈ ts, t.isUnion = false))
  | .void | .bool | .char | .int | .string | .inferred | .array _ =>
    inferInstanceAs (Decidable True)

/-- The names in a type are identifiers, those of aliases are not keywords, and its unions have at
least two members, none of them a union. -/
def Readable (t : Ty) : Prop := t.Everywhere ReadableNode

instance (t : Ty) : Decidable t.Readable := inferInstanceAs (Decidable (t.Everywhere _))

/-- An identifier is not empty. -/
theorem exists_of_isIdentifier {s : String} (h : isIdentifier s = true) :
    ∃ c cs, s.toList = c :: cs ∧ ∀ d ∈ c :: cs, isNameChar d = true := by
  unfold isIdentifier at h
  split at h
  · cases h
  · rename_i c cs hs
    rw [Bool.and_eq_true, List.all_eq_true] at h
    exact ⟨c, cs, hs, h.2⟩

/-! ## What follows a text -/

/-- The text does not start with a character of the given kind. -/
def Avoids (p : Char → Bool) (r : List Char) : Prop := ∀ c ∈ r.head?, p c = false

/-- The characters that go on with a member of a union: those of names, and the bracket of an
array. -/
def continuesMember (c : Char) : Bool := isNameChar c || c == '['

/-- The characters that go on with a type. -/
def continuesType (c : Char) : Bool := continuesMember c || c == '|'

theorem avoids_nil (p : Char → Bool) : Avoids p [] := fun _ h => nomatch h

theorem avoids_cons {p : Char → Bool} {c : Char} {r : List Char} :
    Avoids p (c :: r) ↔ p c = false := by
  simp [Avoids]

/-- Of two kinds of character, neither comes first. -/
theorem Avoids.of_or {p q : Char → Bool} {r : List Char} (h : Avoids (fun c => p c || q c) r) :
    Avoids p r ∧ Avoids q r :=
  ⟨fun c hc => (Bool.or_eq_false_iff.1 (h c hc)).1, fun c hc => (Bool.or_eq_false_iff.1 (h c hc)).2⟩

/-- A word ends where the first other character stands. -/
theorem word_append_inj {w v r s : List Char} (hw : ∀ c ∈ w, isNameChar c = true)
    (hv : ∀ c ∈ v, isNameChar c = true) (hr : Avoids isNameChar r) (hs : Avoids isNameChar s)
    (h : w ++ r = v ++ s) : w = v ∧ r = s := by
  induction w generalizing v with
  | nil =>
    cases v with
    | nil => exact ⟨rfl, h⟩
    | cons c v =>
      rw [List.nil_append] at h
      -- what follows the first word would begin with a character of a name
      rw [h, List.cons_append, avoids_cons] at hr
      cases hr.symm.trans (hv c List.mem_cons_self)
  | cons c w ih =>
    obtain ⟨hc, hw⟩ := List.forall_mem_cons.1 hw
    cases v with
    | nil =>
      rw [List.nil_append] at h
      rw [← h, List.cons_append, avoids_cons] at hs
      cases hs.symm.trans hc
    | cons d v =>
      obtain ⟨rfl, htail⟩ := List.cons.inj h
      obtain ⟨rfl, hrest⟩ := ih hw (List.forall_mem_cons.1 hv).2 htail
      exact ⟨rfl, hrest⟩

/-- A name is read to its end, where no character of a name follows. -/
theorem name_append_inj {m n : String} {r s : List Char} (hm : isIdentifier m = true)
    (hn : isIdentifier n = true) (hr : Avoids isNameChar r) (hs : Avoids isNameChar s)
    (h : m.toList ++ r = n.toList ++ s) : m = n ∧ r = s := by
  obtain ⟨c, cs, hc, hall⟩ := exists_of_isIdentifier hm
  obtain ⟨d, ds, hd, hall'⟩ := exists_of_isIdentifier hn
  obtain ⟨hword, hrest⟩ := word_append_inj (hc ▸ hall) (hd ▸ hall') hr hs h
  exact ⟨String.toList_injective hword, hrest⟩

/-! ## Texts by form -/

/-- The text of a type, character by character. -/
def text (t : Ty) : List Char := t.render.toList

/-- The text of a type as the element of an array. -/
def enclosed (t : Ty) : List Char :=
  if t.isUnion then '(' :: (t.text ++ [')']) else t.text

/-- Only a union is put in parentheses. -/
theorem enclosed_eq_text {t : Ty} (h : t.isUnion = false) : t.enclosed = t.text := by
  simp [enclosed, h]

/-- The text of an array type, whose elements may have to be put in parentheses. -/
theorem text_array (e : Ty) : (array e).text = e.enclosed ++ ['[', ']'] := by
  cases e with
  | union ts => simp [text, render, enclosed, isUnion]
  | void | bool | char | int | string | inferred | array | record | named =>
    simp [text, render, enclosed, isUnion]

theorem text_record (fs : List Field) :
    (record fs).text = '\x7b' :: ((renderFields fs).toList ++ ['\x7d']) := by
  simp [text, render]

/-- Every text is that of the alternatives, be there one or several. -/
theorem text_eq_members (t : Ty) : t.text = (renderMembers t.alternatives).toList := by
  cases t with
  | union ts => rfl
  | void | bool | char | int | string | inferred | array | record | named => rfl

/-- What follows a member of a union that goes on with the given members. -/
def membersTail : List Ty → List Char
  | [] => []
  | t :: ts => '|' :: (renderMembers (t :: ts)).toList

/-- The first of the members has no bar before it. -/
theorem toList_renderMembers (t : Ty) (ts : List Ty) :
    (renderMembers (t :: ts)).toList = t.text ++ membersTail ts := by
  cases ts with
  | nil => simp [renderMembers, text, membersTail]
  | cons u us => simp [renderMembers, text, membersTail]

theorem membersTail_cons (t : Ty) (ts : List Ty) :
    membersTail (t :: ts) = '|' :: (t.text ++ membersTail ts) := by
  rw [membersTail, toList_renderMembers]

/-- What follows a field of a record that goes on with the given fields. -/
def fieldsTail : List Field → List Char
  | [] => []
  | f :: fs => ',' :: ' ' :: (renderFields (f :: fs)).toList

/-- The first of the fields has no comma before it. -/
theorem toList_renderFields (f : Field) (fs : List Field) :
    (renderFields (f :: fs)).toList = f.ty.text ++ ' ' :: (f.name.toList ++ fieldsTail fs) := by
  obtain ⟨n, t⟩ := f
  cases fs with
  | nil => simp [renderFields, text, fieldsTail]
  | cons g gs => simp [renderFields, text, fieldsTail]

theorem fieldsTail_cons (f : Field) (fs : List Field) :
    fieldsTail (f :: fs) =
      ',' :: ' ' :: (f.ty.text ++ ' ' :: (f.name.toList ++ fieldsTail fs)) := by
  rw [fieldsTail, toList_renderFields]

/-! ## Core and brackets -/

/-- A type without the arrays around it. -/
def core : Ty → Ty
  | .array e => core e
  | t => t

/-- The number of arrays around a type. -/
def layers : Ty → Nat
  | .array e => layers e + 1
  | _ => 0

/-- As many pairs of brackets as there are layers. -/
def brackets : Nat → List Char
  | 0 => []
  | k + 1 => '[' :: ']' :: brackets k

/-- One more pair may be put on either end. -/
theorem brackets_append (k : Nat) : brackets k ++ ['[', ']'] = brackets (k + 1) := by
  induction k with
  | zero => rfl
  | succ k ih => rw [brackets, List.cons_append, List.cons_append, ih, ← brackets]

/-- The text of a type is that of its core and a pair of brackets for each layer. -/
theorem enclosed_eq (t : Ty) : t.enclosed = t.core.enclosed ++ brackets t.layers := by
  induction t with
  | array e ih =>
    rw [enclosed_eq_text rfl, text_array, ih, core, layers, List.append_assoc, brackets_append]
  | void | bool | char | int | string | inferred | record | named | union =>
    exact (List.append_nil _).symm

/-- A type is made of its core and its layers. -/
theorem eq_of_core {t u : Ty} (hcore : t.core = u.core) (hlayers : t.layers = u.layers) :
    t = u := by
  induction t generalizing u with
  | array e ih =>
    cases u with
    | array e' => exact congrArg Ty.array (ih hcore (Nat.succ.inj hlayers))
    | void | bool | char | int | string | inferred | record | named | union => cases hlayers
  | void | bool | char | int | string | inferred | record | named | union =>
    cases u with
    | array e' => cases hlayers
    | void | bool | char | int | string | inferred | record | named | union => exact hcore

/-- Brackets can be counted, where none follows. -/
theorem brackets_append_inj {k l : Nat} {r s : List Char} (hr : Avoids (· == '[') r)
    (hs : Avoids (· == '[') s) (h : brackets k ++ r = brackets l ++ s) : k = l ∧ r = s := by
  induction k generalizing l with
  | zero =>
    cases l with
    | zero => exact ⟨rfl, h⟩
    | succ l =>
      -- what follows the first would begin with a bracket
      have h : r = '[' :: (']' :: brackets l ++ s) := h
      rw [h, avoids_cons] at hr
      cases hr
  | succ k ih =>
    cases l with
    | zero =>
      have h : '[' :: (']' :: brackets k ++ r) = s := h
      rw [← h, avoids_cons] at hs
      cases hs
    | succ l =>
      obtain ⟨rfl, hrest⟩ := ih (List.cons.inj (List.cons.inj h).2).2
      exact ⟨rfl, hrest⟩

/-- A bracket is no character of a name. -/
theorem avoids_brackets_append (k : Nat) {r : List Char} (h : Avoids isNameChar r) :
    Avoids isNameChar (brackets k ++ r) := by
  cases k with
  | zero => exact h
  | succ k => exact avoids_cons.2 (by decide)

/-- The core of a readable type is a part of it. -/
theorem Readable.core {t : Ty} (h : t.Readable) : t.core.Readable := by
  induction t with
  | array e ih => exact ih h.element
  | void | bool | char | int | string | inferred | record | named | union => exact h

/-! ## The start of a text -/

/-- The text of a type that is written as one word. -/
def word? : Ty → Option String
  | .void => some "void"
  | .bool => some "bool"
  | .char => some "char"
  | .int => some "int"
  | .string => some "string"
  | .inferred => some "var"
  | .named n => some n
  | .array _ | .record _ | .union _ => none

/-- The character that opens a type, unless it is written as one word. -/
def opening? : Ty → Option Char
  | .record _ => some '\x7b'
  | .union _ => some '('
  | _ => none

/-- A type that is a word is its own core, and has the word as its text. -/
theorem enclosed_of_word? {t : Ty} {w : String} (h : t.word? = some w) :
    t.core = t ∧ t.opening? = none ∧ t.enclosed = w.toList := by
  cases t with
  | void | bool | char | int | string | inferred | named =>
    cases h
    exact ⟨rfl, rfl, rfl⟩
  | array | record | union => cases h

/-- The word is an identifier, for keywords too. -/
theorem isIdentifier_word? {t : Ty} {w : String} (ht : t.Readable) (h : t.word? = some w) :
    isIdentifier w = true := by
  cases t with
  | void | bool | char | int | string | inferred =>
    cases h
    decide
  | named n =>
    cases h
    exact ht.here.1
  | array | record | union => cases h

/-- The type that a word stands for. -/
def ofWord : String → Ty
  | "void" => .void
  | "bool" => .bool
  | "char" => .char
  | "int" => .int
  | "string" => .string
  | "var" => .inferred
  | n => .named n

/-- The name of an alias is not one of the words for other types. -/
theorem eq_ofWord {t : Ty} {w : String} (ht : t.Readable) (h : t.word? = some w) :
    t = ofWord w := by
  cases t with
  | void | bool | char | int | string | inferred =>
    cases h
    rfl
  | named n =>
    cases h
    have hword := ht.here.2
    unfold ofWord
    split
    case h_7 => rfl
    all_goals simp [keywords] at hword
  | array | record | union => cases h

/-- A core whose text does not begin with a parenthesis or a brace is a word. -/
theorem exists_word?_core {t : Ty} (h : t.core.opening? = none) : ∃ w, t.core.word? = some w := by
  induction t with
  | array e ih => exact ih h
  | void | bool | char | int | string | inferred | named => exact ⟨_, rfl⟩
  | record | union => cases h

/-- The first character of a core tells whether it is a word, a record or a union. -/
theorem core_start {t : Ty} (ht : t.Readable) :
    ∃ c cs, t.core.enclosed = c :: cs ∧
      t.core.opening? = if isNameChar c then none else some c := by
  cases hopen : t.core.opening? with
  | none =>
    -- a word, which begins with a character of a name
    obtain ⟨w, hw⟩ := exists_word?_core hopen
    obtain ⟨c, cs, hc, hname⟩ := exists_of_isIdentifier (isIdentifier_word? ht.core hw)
    exact ⟨c, cs, (enclosed_of_word? hw).2.2.trans hc, by rw [if_pos (hname c List.mem_cons_self)]⟩
  | some c =>
    generalize t.core = b at hopen
    cases b with
    | record fs =>
      cases hopen
      exact ⟨_, _, (enclosed_eq_text rfl).trans (text_record fs), by decide⟩
    | union ts =>
      cases hopen
      exact ⟨_, _, rfl, by decide⟩
    | void | bool | char | int | string | inferred | named | array => cases hopen

/-! ## Unique cores -/

/-- Two texts that begin alike are opened alike. -/
theorem opening?_eq {t u : Ty} {r s : List Char} (ht : t.Readable) (hu : u.Readable)
    (h : t.core.enclosed ++ r = u.core.enclosed ++ s) : t.core.opening? = u.core.opening? := by
  obtain ⟨c, cs, hc, hopen⟩ := core_start ht
  obtain ⟨c', cs', hc', hopen'⟩ := core_start hu
  rw [hc, hc'] at h
  rw [hopen, hopen', (List.cons.inj h).1]

/-- No other core than that of the type can stand at the start of a text that starts with it. -/
def CoreUnique (t : Ty) : Prop :=
  ∀ (u : Ty) (r s : List Char), u.Readable → Avoids isNameChar r → Avoids isNameChar s →
    t.core.enclosed ++ r = u.core.enclosed ++ s → t.core = u.core ∧ r = s

/-- The brackets after a core end where no other bracket follows. -/
theorem CoreUnique.enclosed_inj {t u : Ty} {r s : List Char} (h : t.CoreUnique) (hu : u.Readable)
    (hr : Avoids continuesMember r) (hs : Avoids continuesMember s)
    (heq : t.enclosed ++ r = u.enclosed ++ s) : t = u ∧ r = s := by
  obtain ⟨hrName, hrBracket⟩ := Avoids.of_or hr
  obtain ⟨hsName, hsBracket⟩ := Avoids.of_or hs
  -- the core first: brackets may follow it, but no more of a name
  rw [enclosed_eq t, enclosed_eq u, List.append_assoc, List.append_assoc] at heq
  obtain ⟨hcore, hrest⟩ := h u _ _ hu (avoids_brackets_append _ hrName)
    (avoids_brackets_append _ hsName) heq
  obtain ⟨hlayers, hrest⟩ := brackets_append_inj hrBracket hsBracket hrest
  exact ⟨eq_of_core hcore hlayers, hrest⟩

/-! ### Members -/

/-- What follows a member is a bar, or what follows the type. -/
theorem avoids_membersTail (ts : List Ty) {r : List Char} (h : Avoids continuesType r) :
    Avoids continuesMember (membersTail ts ++ r) := by
  cases ts with
  | nil => exact (Avoids.of_or h).1
  | cons t ts => exact avoids_cons.2 (by decide)

/-- Members are separated by a character that goes on with none of them. -/
theorem membersTail_unique {ts us : List Ty} {r s : List Char}
    (hts : ∀ t ∈ ts, t.CoreUnique ∧ t.isUnion = false)
    (hus : ∀ u ∈ us, u.Readable ∧ u.isUnion = false)
    (hr : Avoids continuesType r) (hs : Avoids continuesType s)
    (h : membersTail ts ++ r = membersTail us ++ s) : ts = us ∧ r = s := by
  induction ts generalizing us with
  | nil =>
    cases us with
    | nil => exact ⟨rfl, h⟩
    | cons u us =>
      -- what follows the first type would begin with a bar
      have h : r = '|' :: _ := h
      rw [h, avoids_cons] at hr
      cases hr
  | cons t ts ih =>
    obtain ⟨⟨hunique, htFlat⟩, hts⟩ := List.forall_mem_cons.1 hts
    cases us with
    | nil =>
      have h : '|' :: _ = s := h
      rw [← h, avoids_cons] at hs
      cases hs
    | cons u us =>
      obtain ⟨⟨hu, huFlat⟩, hothers⟩ := List.forall_mem_cons.1 hus
      -- a bar on both sides, then a member, then the others
      simp only [membersTail_cons, List.cons_append, List.append_assoc, List.cons.injEq, true_and,
        ← enclosed_eq_text htFlat, ← enclosed_eq_text huFlat] at h
      obtain ⟨rfl, htail⟩ :=
        hunique.enclosed_inj hu (avoids_membersTail ts hr) (avoids_membersTail us hs) h
      obtain ⟨rfl, hrest⟩ := ih hts hothers htail
      exact ⟨rfl, hrest⟩

/-- The alternatives of a readable type are readable, and there is at least one. -/
theorem Readable.alternatives {t : Ty} (h : t.Readable) :
    ∃ m ms, t.alternatives = m :: ms ∧ ∀ a ∈ m :: ms, a.Readable ∧ a.isUnion = false := by
  cases t with
  | union ts =>
    obtain ⟨htwo, hflat⟩ := h.here
    obtain ⟨m, ms, rfl⟩ := List.exists_cons_of_length_pos (by omega : 0 < ts.length)
    exact ⟨m, ms, rfl, fun a ha => ⟨h.member ha, hflat a ha⟩⟩
  | void | bool | char | int | string | inferred | array | record | named =>
    exact ⟨_, [], rfl, List.forall_mem_singleton.2 ⟨h, rfl⟩⟩

/-- A readable union has at least two members. -/
theorem two_le_length_alternatives {t : Ty} (h : t.Readable) :
    2 ≤ t.alternatives.length ↔ t.isUnion = true := by
  cases t with
  | union ts => exact iff_of_true h.here.1 rfl
  | void | bool | char | int | string | inferred | array | record | named =>
    exact iff_of_false (Nat.lt_irrefl 1) Bool.false_ne_true

/-- A union has more than one member, so it is not mistaken for its only member. -/
theorem alternatives_inj {t u : Ty} (ht : t.Readable) (hu : u.Readable)
    (h : t.alternatives = u.alternatives) : t = u := by
  have hunion : t.isUnion = u.isUnion := by
    rw [Bool.eq_iff_iff, ← two_le_length_alternatives ht, ← two_le_length_alternatives hu, h]
  cases t with
  | union ts =>
    cases u with
    | union us => exact congrArg Ty.union h
    | void | bool | char | int | string | inferred | array | record | named => cases hunion
  | void | bool | char | int | string | inferred | array | record | named =>
    cases u with
    | union us => cases hunion
    | void | bool | char | int | string | inferred | array | record | named =>
      exact (List.cons.inj h).1

/-- A text starts with one type only, if what follows the type does not go on with it. -/
theorem text_append_inj_of {t u : Ty} {r s : List Char} (halts : ∀ m ∈ t.alternatives, m.CoreUnique)
    (ht : t.Readable) (hu : u.Readable) (hr : Avoids continuesType r) (hs : Avoids continuesType s)
    (h : t.text ++ r = u.text ++ s) : t = u ∧ r = s := by
  obtain ⟨m, ms, hms, hmembers⟩ := ht.alternatives
  obtain ⟨m', ms', hms', hmembers'⟩ := hu.alternatives
  rw [text_eq_members, text_eq_members, hms, hms'] at h
  rw [hms] at halts
  obtain ⟨hsame, hrest⟩ :=
    membersTail_unique (fun a ha => ⟨halts a ha, (hmembers a ha).2⟩) hmembers'
      hr hs (congrArg ('|' :: ·) h)
  exact ⟨alternatives_inj ht hu (by rw [hms, hms', hsame]), hrest⟩

/-! ### Fields -/

/-- What follows the name of a field is a comma or a brace. -/
theorem avoids_fieldsTail (fs : List Field) (r : List Char) :
    Avoids isNameChar (fieldsTail fs ++ '\x7d' :: r) := by
  cases fs with
  | nil => exact avoids_cons.2 (by decide)
  | cons f fs => exact avoids_cons.2 (by decide)

/-- No type starts with the brace that ends a record. -/
theorem text_append_ne {t : Ty} (ht : t.Readable) (r s : List Char) :
    t.text ++ r ≠ '\x7d' :: s := by
  obtain ⟨m, ms, hms, hmembers⟩ := ht.alternatives
  obtain ⟨hm, hflat⟩ := hmembers m List.mem_cons_self
  obtain ⟨c, cs, hc, hopen⟩ := core_start hm
  rw [text_eq_members, hms, toList_renderMembers, ← enclosed_eq_text hflat, enclosed_eq, hc]
  intro h
  -- a core that opened with this brace would have it as its `opening?`, and there is none
  cases (List.cons.inj h).1
  generalize m.core = b at hopen
  cases b with
  | void | bool | char | int | string | inferred | named | array | record | union => cases hopen

/-- A field ends with a name, and a name is followed by a comma or the end of the record. -/
theorem fieldsTail_unique {fs gs : List Field} {r s : List Char}
    (hfs : ∀ f ∈ fs, (f.ty.Readable ∧ ∀ m ∈ f.ty.alternatives, m.CoreUnique) ∧
      isIdentifier f.name = true)
    (hgs : ∀ g ∈ gs, g.ty.Readable ∧ isIdentifier g.name = true)
    (h : fieldsTail fs ++ '\x7d' :: r = fieldsTail gs ++ '\x7d' :: s) : fs = gs ∧ r = s := by
  induction fs generalizing gs with
  | nil =>
    cases gs with
    | nil => exact ⟨rfl, (List.cons.inj h).2⟩
    | cons g gs => cases h
  | cons f fs ih =>
    obtain ⟨⟨⟨ht, halts⟩, hname⟩, hfs⟩ := List.forall_mem_cons.1 hfs
    cases gs with
    | nil => cases h
    | cons g gs =>
      obtain ⟨⟨hu, hname'⟩, hothers⟩ := List.forall_mem_cons.1 hgs
      simp only [fieldsTail_cons, List.cons_append, List.append_assoc, List.cons.injEq,
        true_and] at h
      -- the type ends at the blank before the name, and the name where a field or the record ends
      obtain ⟨hty, hafter⟩ := text_append_inj_of halts ht hu (avoids_cons.2 (by decide))
        (avoids_cons.2 (by decide)) h
      obtain ⟨hsame, htail⟩ := name_append_inj hname hname' (avoids_fieldsTail fs r)
        (avoids_fieldsTail gs s) (List.cons.inj hafter).2
      obtain ⟨rfl, hrest⟩ := ih hfs hothers htail
      obtain ⟨n, t⟩ := f
      obtain ⟨n', t'⟩ := g
      cases hty
      cases hsame
      exact ⟨rfl, hrest⟩

/-- A record with fields starts otherwise than the empty one ends. -/
theorem fields_unique {fs gs : List Field} {r s : List Char}
    (hfs : ∀ f ∈ fs, (f.ty.Readable ∧ ∀ m ∈ f.ty.alternatives, m.CoreUnique) ∧
      isIdentifier f.name = true)
    (hgs : ∀ g ∈ gs, g.ty.Readable ∧ isIdentifier g.name = true)
    (h : (renderFields fs).toList ++ '\x7d' :: r = (renderFields gs).toList ++ '\x7d' :: s) :
    fs = gs ∧ r = s := by
  cases fs with
  | nil =>
    cases gs with
    | nil => exact ⟨rfl, (List.cons.inj h).2⟩
    | cons g gs =>
      rw [toList_renderFields, List.append_assoc] at h
      -- a brace on one side and a type on the other
      exact absurd h.symm (text_append_ne (List.forall_mem_cons.1 hgs).1.1 _ _)
  | cons f fs =>
    cases gs with
    | nil =>
      rw [toList_renderFields, List.append_assoc] at h
      exact absurd h (text_append_ne (List.forall_mem_cons.1 hfs).1.1.1 _ _)
    -- put a comma before both, and the first field is like the others
    | cons g gs => exact fieldsTail_unique hfs hgs (congrArg (',' :: ' ' :: ·) h)

/-! ### All types -/

/-- A word is told by its characters. -/
theorem coreUnique_word {t : Ty} {w : String} (ht : t.Readable) (hw : t.word? = some w) :
    t.CoreUnique := by
  intro u r s hu hr hs h
  obtain ⟨hcore, hnone, htext⟩ := enclosed_of_word? hw
  -- the first character is that of a word, so the other core is a word too
  have hopen := opening?_eq ht hu h
  rw [hcore] at hopen h ⊢
  obtain ⟨w', hw'⟩ := exists_word?_core (hopen.symm.trans hnone)
  rw [htext, (enclosed_of_word? hw').2.2] at h
  obtain ⟨rfl, hrest⟩ :=
    name_append_inj (isIdentifier_word? ht hw) (isIdentifier_word? hu.core hw') hr hs h
  exact ⟨(eq_ofWord ht hw).trans (eq_ofWord hu.core hw').symm, hrest⟩

/-- A record type is told by its fields, if their types are. -/
theorem coreUnique_record {fs : List Field} (ht : (record fs).Readable)
    (hfs : ∀ f ∈ fs, ∀ m ∈ f.ty.alternatives, m.CoreUnique) : (record fs).CoreUnique := by
  intro u r s hu hr hs h
  -- both begin with a brace, which only the text of a record does
  have hopen := opening?_eq ht hu h
  have hcore := hu.core
  generalize u.core = b at h hopen hcore
  cases b with
  | record gs =>
    simp only [core, enclosed_eq_text (show (record _).isUnion = false from rfl), text_record,
      List.cons_append, List.append_assoc, List.cons.injEq, true_and, List.nil_append] at h
    obtain ⟨rfl, hrest⟩ := fields_unique
      (fun f hf => ⟨⟨ht.field hf, hfs f hf⟩, ht.here f hf⟩)
      (fun g hg => ⟨hcore.field hg, hcore.here g hg⟩) h
    exact ⟨rfl, hrest⟩
  | void | bool | char | int | string | inferred | named | array | union => cases hopen

/-- A union is told by its members, if they are. -/
theorem coreUnique_union {ts : List Ty} (ht : (union ts).Readable)
    (hts : ∀ t ∈ ts, t.CoreUnique) : (union ts).CoreUnique := by
  intro u r s hu hr hs h
  have hopen := opening?_eq ht hu h
  have hcore := hu.core
  generalize u.core = b at h hopen hcore
  cases b with
  | union us =>
    simp only [core, enclosed, isUnion, if_true, List.cons_append, List.append_assoc,
      List.cons.injEq, true_and, List.nil_append] at h
    obtain ⟨hsame, hrest⟩ := text_append_inj_of (t := union ts) hts ht hcore
      (avoids_cons.2 (by decide)) (avoids_cons.2 (by decide)) h
    exact ⟨hsame, (List.cons.inj hrest).2⟩
  | void | bool | char | int | string | inferred | named | array | record => cases hopen

/-- A readable type is told from its text if its alternatives are. -/
theorem CoreUnique.of_alternatives {t : Ty} (ht : t.Readable)
    (h : ∀ m ∈ t.alternatives, m.CoreUnique) : t.CoreUnique := by
  cases t with
  | union ts => exact coreUnique_union ht h
  | void | bool | char | int | string | inferred | array | record | named =>
    exact h _ (List.mem_singleton_self _)

/-- The induction is on types, and carries the members of a union in place of the union: a field may
have a union as its type, which is not in parentheses there. -/
theorem coreUnique_alternatives {t : Ty} (ht : t.Readable) :
    ∀ m ∈ t.alternatives, m.CoreUnique := by
  induction t with
  | void | bool | char | int | string | inferred | named =>
    exact List.forall_mem_singleton.2 (coreUnique_word ht rfl)
  | array e ih =>
    have helement : e.CoreUnique := .of_alternatives ht.element (ih ht.element)
    exact List.forall_mem_singleton.2 helement
  | record fs ih =>
    exact List.forall_mem_singleton.2 (coreUnique_record ht fun f hf => ih f hf (ht.field hf))
  | union ts ih =>
    intro m hm
    exact .of_alternatives (ht.member hm) (ih m hm (ht.member hm))

/-- A text starts with one type only, if what follows the type does not go on with it. -/
theorem text_append_inj {t u : Ty} {r s : List Char} (ht : t.Readable) (hu : u.Readable)
    (hr : Avoids continuesType r) (hs : Avoids continuesType s) (h : t.text ++ r = u.text ++ s) :
    t = u ∧ r = s :=
  text_append_inj_of (coreUnique_alternatives ht) ht hu hr hs h

/-- Types with the same text are the same, as nothing follows either. -/
theorem render_inj {t u : Ty} (ht : t.Readable) (hu : u.Readable) (h : t.render = u.render) :
    t = u := by
  have htext : t.text ++ [] = u.text ++ [] := by rw [text, text, h]
  exact (text_append_inj ht hu (avoids_nil _) (avoids_nil _) htext).1

end Ty

namespace Fault

/-- The message of a mismatch, with a comma after the first type. -/
theorem toList_typeMismatch (s t : Ty) :
    (typeMismatch s t).message.toList =
      "expected type ".toList ++ (s.text ++ ',' :: (" found ".toList ++ t.text)) := by
  show ("expected type " ++ s.render ++ ", found " ++ t.render).toList = _
  rw [String.toList_append, String.toList_append, String.toList_append, List.append_assoc,
    List.append_assoc]
  rfl

/-- Both types can be read from the message of a mismatch, since no type goes on with a comma. -/
theorem typeMismatch_message_inj {s t s' t' : Ty} (hs : s.Readable) (ht : t.Readable)
    (hs' : s'.Readable) (ht' : t'.Readable)
    (h : (typeMismatch s t).message = (typeMismatch s' t').message) : s = s' ∧ t = t' := by
  have hcomma : ∀ r, Ty.Avoids Ty.continuesType (',' :: r) := fun r => Ty.avoids_cons.2 (by decide)
  have h := congrArg String.toList h
  rw [toList_typeMismatch, toList_typeMismatch, List.append_cancel_left_eq] at h
  obtain ⟨rfl, hrest⟩ := Ty.text_append_inj hs hs' (hcomma _) (hcomma _) h
  have hfound : t.text = t'.text := List.append_cancel_left (List.cons.inj hrest).2
  exact ⟨rfl, Ty.render_inj ht ht' (String.toList_injective hfound)⟩

end Fault

namespace Ty

/-- The text of a type is unambiguous, and so is the message of a mismatch between two types: a
different type, expected or found, gives another message. -/
theorem render_unambiguous {t u : Ty} (ht : t.Readable) (hu : u.Readable) :
    (t.render = u.render ↔ t = u) ∧
      ∀ t' u' : Ty, t'.Readable → u'.Readable →
        ((Fault.typeMismatch t u).message = (Fault.typeMismatch t' u').message ↔
          t = t' ∧ u = u') := by
  refine ⟨⟨render_inj ht hu, congrArg render⟩, fun t' u' ht' hu' => ⟨fun h => ?_, ?_⟩⟩
  · exact Fault.typeMismatch_message_inj ht hu ht' hu' h
  · rintro ⟨rfl, rfl⟩
    rfl

/-- An array of numbers or records, where a record holds a union. -/
def mixedArray : Ty :=
  .array (.union [.int, .record [⟨"a", .union [.bool, .array .char]⟩, ⟨"int", .named "Int"⟩]])

/-- A number, or an array of such records. -/
def numberOrArray : Ty :=
  .union [.int, .array (.record [⟨"a", .union [.bool, .array .char]⟩, ⟨"int", .named "Int"⟩])]

/-- The texts differ in where the parenthesis is, so the messages do too. -/
theorem render_unambiguous_mixed :
    (mixedArray.Readable ∧ numberOrArray.Readable) ∧ mixedArray.render ≠ numberOrArray.render ∧
      (Fault.typeMismatch mixedArray numberOrArray).message ≠
        (Fault.typeMismatch numberOrArray mixedArray).message := by
  have hmixed : mixedArray.Readable := by decide +kernel
  have hnumber : numberOrArray.Readable := by decide +kernel
  obtain ⟨htext, hmessage⟩ := render_unambiguous hmixed hnumber
  refine ⟨⟨hmixed, hnumber⟩, fun h => ?_, fun h => ?_⟩
  · cases htext.1 h
  · cases ((hmessage _ _ hnumber hmixed).1 h).1

end Ty

end WhileTyping
