/-
Outlines: texts of two levels, sections and their members. A member has a scalar on its line, or a list of
scalars on a line each. Names and scalars are labels, words in which no character has a meaning of its own; a
scalar may also stand between quotes, and is then any characters of labels or none.

An outline carries the proofs that its parts are of this form. Beside its characters stand the tokens that they
are to be cut into and the tree that they are to spell.

Main statement: a label that is written as a scalar, and nothing at all, become one of these scalars, whatever
else the label may be taken for.
-/
import ScriptedModel.Yaml.Frame
import ScriptedModel.Yaml.Scalar

namespace ScriptedModel.Yaml

/-! ## Labels -/

/-- Whether a character may stand in a label. -/
def isLabelChar (c : Char) : Bool := isWord c || c = '.'

/-- Letters, digits, points, hyphens and underscores, of which a letter or a digit comes first. -/
structure IsLabel (cs : List Char) : Prop where
  first : cs.head?.any Char.isAlphanum = true
  all : cs.all isLabelChar = true

instance (cs : List Char) : Decidable (IsLabel cs) :=
  decidable_of_iff (cs.head?.any Char.isAlphanum = true ∧ cs.all isLabelChar = true)
    ⟨fun h => ⟨h.1, h.2⟩, fun h => ⟨h.first, h.all⟩⟩

theorem ne_of_isLabelChar {c d : Char} (hc : isLabelChar c = true) (hd : isLabelChar d = false) : c ≠ d := fun h => by
  rw [h, hd] at hc
  cases hc

theorem ne_of_isAlphanum {c d : Char} (hc : c.isAlphanum = true) (hd : d.isAlphanum = false) : c ≠ d := fun h => by
  rw [h, hd] at hc
  cases hc

theorem isLabelChar_of_isAlphanum {c : Char} (h : c.isAlphanum = true) : isLabelChar c = true := by
  rw [isLabelChar, isWord, h, Bool.true_or, Bool.true_or, Bool.true_or]

theorem isLabelChar_bounds {c : Char} (h : isLabelChar c = true) : '-' ≤ c ∧ c ≤ 'z' := by
  have hcases : (decide (c.val ≥ 'A'.val ∧ c.val ≤ 'Z'.val) || decide (c.val ≥ 'a'.val) && decide (c.val ≤ 'z'.val) ||
      decide (c.val ≥ '0'.val) && decide (c.val ≤ '9'.val) || decide (c = '-') || decide (c = '_') ||
      decide (c = '.')) = true := h
  simp only [Bool.or_eq_true, Bool.and_eq_true, decide_eq_true_eq] at hcases
  rcases hcases with ((((⟨hlow, hhigh⟩ | ⟨hlow, hhigh⟩) | ⟨hlow, hhigh⟩) | rfl) | rfl) | rfl
  · exact ⟨Char.le_trans (by decide : '-' ≤ 'A') hlow, Char.le_trans hhigh (by decide : 'Z' ≤ 'z')⟩
  · exact ⟨Char.le_trans (by decide : '-' ≤ 'a') hlow, hhigh⟩
  · exact ⟨Char.le_trans (by decide : '-' ≤ '0') hlow, Char.le_trans hhigh (by decide : '9' ≤ 'z')⟩
  all_goals decide

theorem IsLabel.exists_cons {cs : List Char} (h : IsLabel cs) :
    ∃ c r, cs = c :: r ∧ c.isAlphanum = true ∧ r.all isLabelChar = true := by
  cases cs with
  | nil => cases h.first
  | cons c r =>
    have hall := h.all
    rw [List.all_cons, Bool.and_eq_true] at hall
    exact ⟨c, r, rfl, h.first, hall.2⟩

/-- A label of which a colon may tell that it is a key. -/
structure Name where
  chars : List Char
  label : IsLabel chars
  length_le : chars.length ≤ 1024

/-- A scalar on one line: a label, or characters of labels between quotes. -/
inductive Atom
  | plain (cs : List Char) (h : IsLabel cs)
  | quoted (cs : List Char) (h : cs.all isLabelChar = true)

namespace Atom

/-- The text that a scalar stands for. -/
def text : Atom → String
  | plain cs _ | quoted cs _ => String.ofList cs

/-- How a scalar is written. -/
def chars : Atom → List Char
  | plain cs _ => cs
  | quoted cs _ => '\'' :: (cs ++ ['\''])

/-- The style that a scalar is written in. -/
def style : Atom → Style
  | plain _ _ => .plain
  | quoted _ _ => .quoted

/-- The token that a scalar is read as. -/
def token (a : Atom) : Token := .scalar a.style a.text

/-- The node of a scalar, which has no tag. -/
def node (a : Atom) : Node := .scalar a.style "" a.text

/-- The line of an entry. -/
def entryChars (a : Atom) : List Char := "  - ".toList ++ a.chars ++ ['\n']

/-- The tokens of an entry. -/
def entryTokens (a : Atom) : List Token := [.entry, a.token]

end Atom

namespace Name

/-- The token that a name is read as. -/
def token (n : Name) : Token := .scalar .plain (String.ofList n.chars)

/-- The node of a name. -/
def node (n : Name) : Node := .scalar .plain "" (String.ofList n.chars)

end Name

/-! ## Sections -/

/-- What stands behind a name. -/
inductive Content
  | scalar (a : Atom)
  | list (as : List Atom)

/-- A member of a section: a name, and what it holds. -/
structure Member where
  name : Name
  content : Content

/-- A section. -/
structure Section where
  name : Name
  first : Member
  more : List Member

/-- A text of sections. -/
structure Outline where
  first : Section
  more : List Section

namespace Content

/-- What is written behind the colon of a name. -/
def chars : Content → List Char
  | scalar a => ' ' :: (a.chars ++ ['\n'])
  | list [] => " []\n".toList
  | list (a :: as) => '\n' :: (a :: as).flatMap Atom.entryChars

/-- The tokens behind a name. -/
def tokens : Content → List Token
  | scalar a => [a.token]
  | list [] => [.openBracket, .closeBracket]
  | list (a :: as) => (a :: as).flatMap Atom.entryTokens

/-- The node behind a name. -/
def node : Content → Node
  | scalar a => a.node
  | list as => .list (as.map Atom.node)

end Content

namespace Member

/-- The lines of a member. -/
def chars (m : Member) : List Char := "  ".toList ++ m.name.chars ++ ':' :: m.content.chars

/-- The tokens of a member. -/
def tokens (m : Member) : List Token := .key :: m.name.token :: .value :: m.content.tokens

/-- The nodes of a member. -/
def pair (m : Member) : Node × Node := (m.name.node, m.content.node)

end Member

namespace Section

/-- The members of a section, of which there is at least one. -/
def members (s : Section) : List Member := s.first :: s.more

/-- The lines of a section. -/
def chars (s : Section) : List Char := s.name.chars ++ ":\n".toList ++ s.members.flatMap Member.chars

/-- The tokens of a section, up to where it ends. -/
def tokens (s : Section) : List Token :=
  .key :: s.name.token :: .value :: .openRecord :: s.members.flatMap Member.tokens

/-- The nodes of a section. -/
def pair (s : Section) : Node × Node := (s.name.node, .record (s.members.map Member.pair))

end Section

namespace Outline

/-- The sections of an outline, of which there is at least one. -/
def sections (o : Outline) : List Section := o.first :: o.more

/-- The text of an outline. -/
def chars (o : Outline) : List Char := o.sections.flatMap Section.chars

/-- A section ends where the next one begins, and the last one at the end of the text. -/
def tokens (o : Outline) : List Token :=
  .openRecord :: o.first.tokens ++ o.more.flatMap (fun s => .close :: s.tokens) ++ [.close, .close]

/-- The node of an outline. -/
def node (o : Outline) : Node := .record (o.sections.map Section.pair)

end Outline

/-! ## Writing -/

namespace Scalar

variable {cs : List Char}

theorem isPrintable_of_isLabelChar {c : Char} (h : isLabelChar c = true) : isPrintable c = true := by
  obtain ⟨hlow, hhigh⟩ := isLabelChar_bounds h
  have hspace : ' ' ≤ c := Char.le_trans (by decide) hlow
  have htilde : c ≤ '~' := Char.le_trans hhigh (by decide)
  rw [isPrintable, decide_eq_true hspace, decide_eq_true htilde, Bool.and_self, Bool.or_true, Bool.true_or]

theorem isBreak_of_isLabelChar {c : Char} (h : isLabelChar c = true) : isBreak c = false := by
  simp only [isBreak, ne_of_isLabelChar h (d := '\n') rfl, ne_of_isLabelChar h (d := '\u2028') rfl,
    ne_of_isLabelChar h (d := '\u2029') rfl, decide_false, Bool.or_self]

theorem isBlank_of_isLabelChar {c : Char} (h : isLabelChar c = true) : isBlank c = false := by
  simp only [isBlank, ne_of_isLabelChar h (d := ' ') rfl, ne_of_isLabelChar h (d := '\t') rfl, decide_false,
    Bool.or_self]

theorem hasPair_eq_false {p q : Char → Bool} (h : ∀ c ∈ cs, p c = false) : hasPair p q cs = false := by
  rw [hasPair, List.any_eq_false]
  intro x hx
  rw [h x.1 (List.of_mem_zip hx).1, Bool.false_and]
  exact Bool.false_ne_true

theorem needsDouble_eq_false (h : cs.all isLabelChar = true) : needsDouble cs = false := by
  have hprintable : cs.all isPrintable = true :=
    List.all_eq_true.2 fun c hc => isPrintable_of_isLabelChar (List.all_eq_true.1 h c hc)
  have hpair : hasPair isSpace isBreak cs = false := hasPair_eq_false fun c hc =>
    decide_eq_false (ne_of_isLabelChar (List.all_eq_true.1 h c hc) rfl)
  rw [needsDouble, hprintable, hpair]
  rfl

/-- Between quotes a label stays as it is. -/
theorem single_of_all (h : cs.all isLabelChar = true) (indentation : Nat) :
    single indentation cs = '\'' :: (cs ++ ['\'']) := by
  have hquoted : cs.flatMap singleQuoted = cs := by
    induction cs with
    | nil => rfl
    | cons c cs ih =>
      rw [List.all_cons, Bool.and_eq_true] at h
      rw [List.flatMap_cons, ih h.2, singleQuoted, if_neg (ne_of_isLabelChar h.1 rfl), List.singleton_append]
  have hindented : ∀ ds, ds.all (fun c => ¬ isBreak c) = true → indented indentation false ds = ds := by
    intro ds hds
    induction ds with
    | nil => rfl
    | cons d ds ih =>
      rw [List.all_cons, Bool.and_eq_true, decide_eq_true_eq] at hds
      rw [indented, if_neg hds.1, ih hds.2]
      rfl
  rw [single, hquoted, hindented]
  rw [List.all_append, Bool.and_eq_true]
  exact ⟨List.all_eq_true.2 fun c hc => decide_eq_true (by
    rw [isBreak_of_isLabelChar (List.all_eq_true.1 h c hc)]
    exact Bool.false_ne_true), rfl⟩

/-- A label that is written as a scalar, or nothing, is a scalar of outlines. -/
theorem exists_atom {s : String} (h : s = "" ∨ IsLabel s.toList) (indentation : Nat) :
    ∃ a : Atom, a.chars = write indentation s ∧ a.text = s := by
  have hall : s.toList.all isLabelChar = true := h.elim (fun hs => hs ▸ rfl) IsLabel.all
  have hline : s.toList.contains '\n' = false := Bool.eq_false_iff.2 fun hmem =>
    ne_of_isLabelChar (List.all_eq_true.1 hall _ (List.contains_iff_mem.1 hmem)) rfl rfl
  have hbreak : hasPair isBreak isSpace s.toList = false :=
    hasPair_eq_false fun c hc => isBreak_of_isLabelChar (List.all_eq_true.1 hall c hc)
  unfold write
  simp only [hline, Bool.false_eq_true, if_false, needsDouble_eq_false hall, hbreak, Bool.or_self]
  split
  · rename_i hplain
    have hne : s ≠ "" := by
      rintro rfl
      exact absurd hplain (by decide)
    exact ⟨.plain s.toList (h.resolve_left hne), rfl, String.ofList_toList⟩
  · exact ⟨.quoted s.toList hall, (single_of_all hall indentation).symm, String.ofList_toList⟩

end Scalar

end ScriptedModel.Yaml
