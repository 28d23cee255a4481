/-
The grammar of JSON texts, as a relation between documents and what spells them: blanks wherever
they may stand, any of the spellings of a letter, and numbers as they are written.

Main statement: a text that spells a document is read as that document. What is left to read never
goes on with a number or a name, since only a blank, a comma, a colon or a closing bracket can stand
after a value.
-/
import ScriptedModel.Json.Document

namespace ScriptedModel.Json

/-! ## Strings and numbers -/

/-- The letters that may follow a backslash, with what they stand for. -/
def escapes : List (Char × Char) :=
  [('"', '"'), ('\\', '\\'), ('/', '/'), ('b', '\x08'), ('f', '\x0c'), ('n', '\n'), ('r', '\r'), ('t', '\t')]

/-- The spellings of a letter of a string. -/
inductive SpellsLetter : Letter → List Char → Prop
  | itself {c : Char} (hcontrol : 0x20 ≤ c.toNat) (hquote : c ≠ '"') (hbackslash : c ≠ '\\') :
    SpellsLetter (.plain c) [c]
  | escaped {e c : Char} (h : (e, c) ∈ escapes) : SpellsLetter (.plain c) ['\\', e]
  | unit {a b c d : Char} (h : ∀ x ∈ [a, b, c, d], Numeral.isDigit 16 x = true) :
    SpellsLetter (.unit (Numeral.value 16 [a, b, c, d])) ['\\', 'u', a, b, c, d]

/-- The spellings of the letters of a string, without the quotes. -/
inductive SpellsLetters : List Letter → List Char → Prop
  | nil : SpellsLetters [] []
  | cons {l : Letter} {ls : List Letter} {cs ds : List Char} (h : SpellsLetter l cs) (hs : SpellsLetters ls ds) :
    SpellsLetters (l :: ls) (cs ++ ds)

/-- One or more decimal digits. -/
def AreDigits (ds : List Char) : Prop := ds ≠ [] ∧ ∀ d ∈ ds, d.isDigit = true

/-- The spellings of a fraction, by its digits. -/
inductive SpellsFraction : List Char → List Char → Prop
  | none : SpellsFraction [] []
  | some {ds : List Char} (h : AreDigits ds) : SpellsFraction ds ('.' :: ds)

/-- The spellings of the sign of an exponent; true is a minus. -/
inductive SpellsSign : Bool → List Char → Prop
  | none : SpellsSign false []
  | plus : SpellsSign false ['+']
  | minus : SpellsSign true ['-']

/-- The spellings of an exponent. -/
inductive SpellsExponent : Option (Bool × List Char) → List Char → Prop
  | none : SpellsExponent none []
  | some {e : Char} {negative : Bool} {sign ds : List Char} (he : e = 'e' ∨ e = 'E') (hs : SpellsSign negative sign)
    (h : AreDigits ds) : SpellsExponent (some (negative, ds)) (e :: (sign ++ ds))

/-- The spellings of a number. A whole part of more than one digit does not begin with zero. -/
inductive SpellsNumber : NumberText → List Char → Prop
  | mk (negative : Bool) {whole fraction fs es : List Char} {exponent? : Option (Bool × List Char)}
    (hw : AreDigits whole) (hz : whole.head? = some '0' → whole = ['0']) (hf : SpellsFraction fraction fs)
    (he : SpellsExponent exponent? es) :
    SpellsNumber ⟨negative, whole, fraction, exponent?⟩ ((if negative then ['-'] else []) ++ (whole ++ (fs ++ es)))

/-! ## Documents -/

/-- Whether a text is made of blanks only. -/
def Blanks (cs : List Char) : Prop := ∀ c ∈ cs, c = ' ' ∨ c = '\t' ∨ c = '\n' ∨ c = '\r'

theorem blanks_nil : Blanks [] := fun _ h => nomatch h

/-- What the grammar derives: a value, or the insides of an array or an object that is not empty. -/
inductive Phrase
  | value (d : Document)
  | items (ds : List Document)
  | members (ms : List (List Letter × Document))

/-- The spellings of the name of a member, with the blanks around it. -/
inductive SpellsName : List Letter → List Char → Prop
  | mk {ls : List Letter} {before cs after : List Char} (hb : Blanks before) (h : SpellsLetters ls cs)
    (ha : Blanks after) : SpellsName ls (before ++ '"' :: (cs ++ '"' :: after))

/-- The spellings of a phrase. -/
inductive Derives : Phrase → List Char → Prop
  | null : Derives (.value .null) ['n', 'u', 'l', 'l']
  | true : Derives (.value (.bool true)) ['t', 'r', 'u', 'e']
  | false : Derives (.value (.bool false)) ['f', 'a', 'l', 's', 'e']
  | number {t : NumberText} {cs : List Char} (h : SpellsNumber t cs) : Derives (.value (.number t)) cs
  | string {ls : List Letter} {cs : List Char} (h : SpellsLetters ls cs) :
    Derives (.value (.string ls)) ('"' :: (cs ++ ['"']))
  | emptyArray {cs : List Char} (h : Blanks cs) : Derives (.value (.array [])) ('[' :: (cs ++ [']']))
  | array {ds : List Document} {cs : List Char} (h : Derives (.items ds) cs) :
    Derives (.value (.array ds)) ('[' :: (cs ++ [']']))
  | emptyObject {cs : List Char} (h : Blanks cs) : Derives (.value (.object [])) ('{' :: (cs ++ ['}']))
  | object {ms : List (List Letter × Document)} {cs : List Char} (h : Derives (.members ms) cs) :
    Derives (.value (.object ms)) ('{' :: (cs ++ ['}']))
  | blanks {d : Document} {before cs after : List Char} (hb : Blanks before) (h : Derives (.value d) cs)
    (ha : Blanks after) : Derives (.value d) (before ++ (cs ++ after))
  | item {d : Document} {cs : List Char} (h : Derives (.value d) cs) : Derives (.items [d]) cs
  | moreItems {d : Document} {ds : List Document} {cs es : List Char} (h : Derives (.value d) cs)
    (hs : Derives (.items ds) es) : Derives (.items (d :: ds)) (cs ++ ',' :: es)
  | member {ls : List Letter} {d : Document} {ns cs : List Char} (hn : SpellsName ls ns) (h : Derives (.value d) cs) :
    Derives (.members [(ls, d)]) (ns ++ ':' :: cs)
  | moreMembers {ls : List Letter} {d : Document} {ms : List (List Letter × Document)} {ns cs es : List Char}
    (hn : SpellsName ls ns) (h : Derives (.value d) cs) (hs : Derives (.members ms) es) :
    Derives (.members ((ls, d) :: ms)) (ns ++ ':' :: (cs ++ ',' :: es))

/-- Whether a text spells a document. -/
def Spells (d : Document) (cs : List Char) : Prop := Derives (.value d) cs

namespace Token

/-! ## Reading strings -/

theorem string?_letter {l : Letter} {cs : List Char} (h : SpellsLetter l cs) (r : Source) :
    string? (cs.map some ++ r) = (string? r).map (push l) := by
  cases h with
  | itself hcontrol hquote hbackslash =>
    simp only [List.map_cons, List.map_nil, List.cons_append, List.nil_append]
    rw [string?]
    · rw [if_neg (by omega)]
    all_goals simp_all
  | @escaped e c h =>
    have hescaped : escaped? e = some c ∧ e ≠ 'u' := by
      simp only [escapes, List.mem_cons, Prod.mk.injEq, List.not_mem_nil, or_false] at h
      rcases h with ⟨rfl, rfl⟩ | ⟨rfl, rfl⟩ | ⟨rfl, rfl⟩ | ⟨rfl, rfl⟩ | ⟨rfl, rfl⟩ | ⟨rfl, rfl⟩ | ⟨rfl, rfl⟩ |
        ⟨rfl, rfl⟩ <;> exact ⟨rfl, by decide⟩
    simp only [List.map_cons, List.map_nil, List.cons_append, List.nil_append]
    rw [string?]
    · rw [hescaped.1]
    all_goals simp_all
  | @unit a b c d h =>
    have hunit : unit? (some a) (some b) (some c) (some d) = some (Numeral.value 16 [a, b, c, d]) := by
      show Numeral.value? 16 [a, b, c, d] = _
      rw [Numeral.value?, if_pos ⟨List.cons_ne_nil _ _, List.all_eq_true.2 h⟩]
    simp only [List.map_cons, List.map_nil, List.cons_append, List.nil_append]
    rw [string?, hunit]

theorem string?_letters {ls : List Letter} {cs : List Char} (h : SpellsLetters ls cs) (r : Source) :
    string? (cs.map some ++ some '"' :: r) = some (ls, r) := by
  induction h with
  | nil => rw [List.map_nil, List.nil_append, string?]
  | @cons l ls cs ds h hs ih =>
    rw [List.map_append, List.append_assoc, string?_letter h, ih]
    rfl

/-! ## Reading numbers -/

/-- Whether a source does not go on with a character of a class. -/
def Stops (p : Char → Bool) (r : Source) : Prop := ∀ c rest, r = some c :: rest → p c = false

theorem span_append {p : Char → Bool} {ds : List Char} {r : Source} (hds : ∀ d ∈ ds, p d = true) (hr : Stops p r) :
    span p (ds.map some ++ r) = (ds, r) := by
  induction ds with
  | nil =>
    rcases r with _ | ⟨_ | c, r⟩
    · rfl
    · rfl
    · rw [List.map_nil, List.nil_append, span, if_neg (by rw [hr c r rfl]; exact Bool.false_ne_true)]
  | cons d ds ih =>
    rw [List.map_cons, List.cons_append, span, if_pos (hds d List.mem_cons_self),
      ih fun x hx => hds x (List.mem_cons_of_mem d hx)]

/-- What may follow a value: nothing, a blank, a comma, a colon or a closing bracket. -/
def Ends (r : Source) : Prop :=
  ∀ c rest, r = some c :: rest → c ∈ [' ', '\t', '\n', '\r', ',', ':', ']', '}']

theorem Ends.cons {c : Char} (h : c ∈ [' ', '\t', '\n', '\r', ',', ':', ']', '}']) (r : Source) :
    Ends (some c :: r) := by
  intro c' rest hc
  cases hc
  exact h

theorem Ends.stops {r : Source} (h : Ends r) {p : Char → Bool}
    (hp : [' ', '\t', '\n', '\r', ',', ':', ']', '}'].any p = false) : Stops p r :=
  fun c rest hr => Bool.eq_false_iff.2 (List.any_eq_false.1 hp c (h c rest hr))

theorem stops_some {p : Char → Bool} {c : Char} (h : p c = false) (r : Source) : Stops p (some c :: r) := by
  intro c' rest hc
  cases hc
  exact h

theorem fraction?_append {fraction fs : List Char} (h : SpellsFraction fraction fs) {r : Source}
    (hdigit : Stops Char.isDigit r) (hpoint : Stops (· == '.') r) :
    fraction? (fs.map some ++ r) = some (fraction, r) := by
  cases h with
  | none =>
    show fraction? r = some ([], r)
    unfold fraction?
    split
    -- The source would have to go on with a point.
    · rename_i rest
      have := hpoint '.' rest rfl
      simp at this
    · rfl
  | some h =>
    rw [List.map_cons, List.cons_append, fraction?, span_append h.2 hdigit]
    simp only [if_neg h.1]

theorem exponentSign_append {negative : Bool} {sign ds : List Char} (h : SpellsSign negative sign)
    (hds : AreDigits ds)
    (r : Source) : exponentSign (sign.map some ++ (ds.map some ++ r)) = (negative, ds.map some ++ r) := by
  cases h with
  | plus => rfl
  | minus => rfl
  | none =>
    -- Without a sign the first digit comes at once, and no digit is a sign.
    obtain ⟨d, ds, rfl⟩ := List.exists_cons_of_ne_nil hds.1
    have hd := hds.2 d List.mem_cons_self
    show exponentSign (some d :: (ds.map some ++ r)) = (false, some d :: (ds.map some ++ r))
    unfold exponentSign
    split
    · rename_i heq
      cases heq
      simp at hd
    · rename_i heq
      cases heq
      simp at hd
    · rfl

theorem exponent?_append {exponent : Option (Bool × List Char)} {es : List Char} (h : SpellsExponent exponent es)
    {r : Source} (hr : Ends r) : exponent? (es.map some ++ r) = some (exponent, r) := by
  have hdigit : Stops Char.isDigit r := hr.stops (by decide)
  have hletter : Stops (fun c => c == 'e' || c == 'E') r := hr.stops (by decide)
  cases h with
  | none =>
    show exponent? r = some (none, r)
    unfold exponent?
    split
    · rename_i e rest
      have he := hletter e rest rfl
      simp only [Bool.or_eq_false_iff, beq_eq_false_iff_ne] at he
      rw [if_neg (not_or.2 he)]
    · rfl
  | some he hs h =>
    rw [List.map_cons, List.cons_append, List.map_append, List.append_assoc, exponent?, if_pos he,
      exponentSign_append hs h, span_append h.2 hdigit]
    simp only [if_neg h.1]

theorem stops_exponent {exponent : Option (Bool × List Char)} {es : List Char} (h : SpellsExponent exponent es)
    {r : Source} {p : Char → Bool} (hr : Stops p r) (he : p 'e' = false) (hE : p 'E' = false) :
    Stops p (es.map some ++ r) := by
  cases h with
  | none => exact hr
  | some h =>
    rcases h with rfl | rfl
    · exact stops_some he _
    · exact stops_some hE _

/-- What follows the sign of a number that is spelled out is read as that number. -/
theorem number?_append (negative : Bool) {whole fraction fs es : List Char} {exponent : Option (Bool × List Char)}
    (hw : AreDigits whole) (hz : whole.head? = some '0' → whole = ['0']) (hf : SpellsFraction fraction fs)
    (he : SpellsExponent exponent es) {r : Source} (hr : Ends r) :
    number? negative (whole.map some ++ (fs.map some ++ (es.map some ++ r))) =
      some (⟨negative, whole, fraction, exponent⟩, r) := by
  have hdigit : Stops Char.isDigit (es.map some ++ r) :=
    stops_exponent he (hr.stops (by decide)) (by decide) (by decide)
  have hpoint : Stops (· == '.') (es.map some ++ r) :=
    stops_exponent he (hr.stops (by decide)) (by decide) (by decide)
  have hwhole : Stops Char.isDigit (fs.map some ++ (es.map some ++ r)) := by
    cases hf with
    | none => exact hdigit
    | some => exact stops_some (by decide) _
  have hvalid : ¬ (whole = [] ∨ (whole.head? = some '0' ∧ whole ≠ ['0'])) := by
    rintro (h | ⟨h, h'⟩)
    · exact hw.1 h
    · exact h' (hz h)
  rw [number?, span_append hw.2 hwhole]
  simp only [if_neg hvalid, fraction?_append hf hdigit hpoint, exponent?_append he hr]

/-! ## Reading tokens -/

theorem ofSource?_nil : ofSource? [] = some [] := by rw [ofSource?]

theorem ofSource?_blanks {cs : List Char} (h : Blanks cs) (r : Source) :
    ofSource? (cs.map some ++ r) = ofSource? r := by
  induction cs with
  | nil => rfl
  | cons c cs ih =>
    have hc : isBlank c = true := by
      rcases h c List.mem_cons_self with rfl | rfl | rfl | rfl <;> rfl
    rw [List.map_cons, List.cons_append, ofSource?, if_pos hc]
    exact ih fun x hx => h x (List.mem_cons_of_mem c hx)

theorem ofSource?_token {c : Char} {r rest : Source} {t : Token} (hc : isBlank c = false)
    (h : next? c r = some (t, rest)) : ofSource? (some c :: r) = (ofSource? rest).map (t :: ·) := by
  rw [ofSource?, if_neg (by rw [hc]; exact Bool.false_ne_true)]
  split
  · rename_i heq
    rw [h] at heq
    cases heq
  · rename_i heq
    rw [h] at heq
    cases heq
    rfl

theorem next?_string {ls : List Letter} {cs : List Char} (h : SpellsLetters ls cs) (r : Source) :
    next? '"' (cs.map some ++ some '"' :: r) = some (.string ls, r) := by
  show (string? _).map _ = _
  rw [string?_letters h]
  rfl

theorem next?_name {c : Char} {cs : List Char} {t : Token}
    (hc : mark? c = none ∧ c ≠ '"' ∧ c ≠ '-' ∧ c.isDigit = false)
    (hname : ofName? (c :: cs) = some t) (halpha : (c :: cs).all Char.isAlpha = true) {r : Source} (hr : Ends r) :
    next? c (cs.map some ++ r) = some (t, r) := by
  have hspan : span Char.isAlpha (some c :: (cs.map some ++ r)) = (c :: cs, r) :=
    span_append (List.all_eq_true.1 halpha) (hr.stops (by decide))
  rw [next?, hc.1]
  simp only [if_neg hc.2.1, if_neg hc.2.2.1, hc.2.2.2, Bool.false_eq_true, if_false, hspan, hname, Option.map_some]

theorem not_special_of_isDigit {c : Char} (h : c.isDigit = true) :
    mark? c = none ∧ c ≠ '"' ∧ c ≠ '-' ∧ isBlank c = false := by
  have hne : ∀ d : Char, d.isDigit = false → c ≠ d := by
    rintro d hd rfl
    rw [h] at hd
    cases hd
  refine ⟨?_, hne _ rfl, hne _ rfl, ?_⟩
  · unfold mark?
    split <;> first | rfl | exact absurd rfl (hne _ rfl)
  · simp only [isBlank, hne ' ' rfl, hne '\t' rfl, hne '\n' rfl, hne '\r' rfl, or_self, decide_false]

end Token

/-! ## Reading documents -/

namespace Document

open Token

/-- What a state comes to when the tokens of a source are read. -/
def State.read? (s : State) (r : Source) : Option State := (Token.ofSource? r).bind fun ts => ts.foldlM step s

theorem read?_blanks {cs : List Char} (h : Blanks cs) (s : State) (r : Source) :
    s.read? (cs.map some ++ r) = s.read? r := by
  rw [State.read?, ofSource?_blanks h]
  rfl

theorem read?_token {c : Char} {r rest : Source} {t : Token} {s s' : State} (hc : isBlank c = false)
    (h : next? c r = some (t, rest)) (hs : step s t = some s') : s.read? (some c :: r) = s'.read? rest := by
  rw [State.read?, State.read?, ofSource?_token hc h]
  cases Token.ofSource? rest with
  | none => rfl
  | some ts =>
    show (t :: ts).foldlM step s = ts.foldlM step s'
    rw [List.foldlM_cons, hs]
    rfl

/-- A state in which a value may come, inside containers. -/
def Expects (s : State) (stack : List Frame) : Prop :=
  ∀ t s', beginValue stack t = some s' → step s t = some s'

/-- A state in which the name of a member may come. -/
def ExpectsName (s : State) (done : List (List Letter × Document)) (stack : List Frame) : Prop :=
  ∀ ls, step s (.string ls) = some (.colon done ls stack)

theorem expects_value (stack : List Frame) : Expects (.value stack) stack := fun _ _ h => h

theorem expects_firstItem (stack : List Frame) : Expects (.firstItem stack) (.array [] :: stack) := by
  intro t s' h
  cases t with
  | closeBracket => cases h
  | _ => exact h

theorem read?_number {t : NumberText} {cs : List Char} (h : SpellsNumber t cs) {s : State} {stack : List Frame}
    (hs : Expects s stack) {r : Source} (hr : Ends r) :
    s.read? (cs.map some ++ r) = (State.after (.number t) stack).read? r := by
  cases h with
  | @mk negative whole fraction fs es exponent hw hz hf he =>
    have hnumber := number?_append negative hw hz hf he hr
    rw [List.map_append, List.map_append, List.map_append, List.append_assoc, List.append_assoc, List.append_assoc]
    cases negative with
    -- With a minus the token begins there, without one at the first digit.
    | true =>
      refine read?_token (c := '-') rfl ?_ (hs (.number _) _ rfl)
      show (number? true (whole.map some ++ (fs.map some ++ (es.map some ++ r)))).map _ = _
      rw [hnumber]
      rfl
    | false =>
      obtain ⟨d, ds, rfl⟩ := List.exists_cons_of_ne_nil hw.1
      have hd := hw.2 d List.mem_cons_self
      obtain ⟨hmark, hquote, hminus, hblank⟩ := not_special_of_isDigit hd
      refine read?_token (c := d) hblank ?_ (hs (.number _) _ rfl)
      rw [next?, hmark]
      simp only [if_neg hquote, if_neg hminus, if_pos hd]
      rw [show some d :: _ = (d :: ds).map some ++ _ from rfl, hnumber]
      rfl

theorem read?_name {ls : List Letter} {ns : List Char} (h : SpellsName ls ns) {s : State}
    {done : List (List Letter × Document)} {stack : List Frame} (hs : ExpectsName s done stack) (r : Source) :
    s.read? (ns.map some ++ some ':' :: r) = (State.value (.object done ls :: stack)).read? r := by
  cases h with
  | @mk before cs after hb h ha =>
    rw [List.map_append, List.append_assoc, read?_blanks hb]
    rw [List.map_cons, List.cons_append, List.map_append, List.map_cons, List.append_assoc, List.cons_append]
    rw [read?_token rfl (next?_string h _) (hs ls), read?_blanks ha]
    exact read?_token rfl rfl rfl

/-- What reading a phrase comes to, whatever follows it; the insides of an array or an object are read
together with the bracket that closes them. -/
def Reads (cs : List Char) : Phrase → Prop
  | .value d => ∀ s stack r, Expects s stack → Ends r → s.read? (cs.map some ++ r) = (State.after d stack).read? r
  | .items ds => ∀ s done stack r, Expects s (.array done :: stack) →
    s.read? (cs.map some ++ some ']' :: r) = (State.after (.array (done.reverse ++ ds)) stack).read? r
  | .members ms => ∀ s done stack r, ExpectsName s done stack →
    s.read? (cs.map some ++ some '}' :: r) = (State.after (.object (done.reverse ++ ms)) stack).read? r

theorem map_append_cons (c : Char) (cs ds : List Char) (r : Source) :
    (cs ++ c :: ds).map some ++ r = cs.map some ++ some c :: (ds.map some ++ r) := by
  rw [List.map_append, List.append_assoc]
  rfl

theorem reads_of_derives {p : Phrase} {cs : List Char} (h : Derives p cs) : Reads cs p := by
  -- The induction is on the derivation; what is read before the phrase and after it is arbitrary.
  induction h with
  | null =>
    intro s stack r hs hr
    exact read?_token (t := .null) rfl (next?_name (by decide) rfl (by decide) hr) (hs _ _ rfl)
  | true =>
    intro s stack r hs hr
    exact read?_token (t := .bool true) rfl (next?_name (by decide) rfl (by decide) hr) (hs _ _ rfl)
  | false =>
    intro s stack r hs hr
    exact read?_token (t := .bool false) rfl (next?_name (by decide) rfl (by decide) hr) (hs _ _ rfl)
  | number h => exact fun s stack r hs hr => read?_number h hs hr
  | @string ls cs h =>
    intro s stack r hs hr
    rw [List.map_cons, List.cons_append, map_append_cons]
    exact read?_token (t := .string ls) rfl (next?_string h r) (hs _ _ rfl)
  | emptyArray h =>
    intro s stack r hs hr
    rw [List.map_cons, List.cons_append, map_append_cons, read?_token (t := .openBracket) rfl rfl (hs _ _ rfl),
      read?_blanks h]
    exact read?_token (t := .closeBracket) rfl rfl rfl
  | array h ih =>
    intro s stack r hs hr
    rw [List.map_cons, List.cons_append, map_append_cons, read?_token (t := .openBracket) rfl rfl (hs _ _ rfl)]
    exact ih (.firstItem stack) [] stack r (expects_firstItem stack)
  | emptyObject h =>
    intro s stack r hs hr
    rw [List.map_cons, List.cons_append, map_append_cons, read?_token (t := .openBrace) rfl rfl (hs _ _ rfl),
      read?_blanks h]
    exact read?_token (t := .closeBrace) rfl rfl rfl
  | object h ih =>
    intro s stack r hs hr
    rw [List.map_cons, List.cons_append, map_append_cons, read?_token (t := .openBrace) rfl rfl (hs _ _ rfl)]
    exact ih (.firstName stack) [] stack r (fun _ => rfl)
  | @blanks d before cs after hb h ha ih =>
    intro s stack r hs hr
    rw [List.map_append, List.append_assoc, read?_blanks hb, List.map_append, List.append_assoc,
      ih s stack _ hs ?_, read?_blanks ha]
    -- What stands after the value is a blank, or what follows.
    rcases after with _ | ⟨c, after⟩
    · exact hr
    · refine Ends.cons ?_ _
      rcases ha c List.mem_cons_self with rfl | rfl | rfl | rfl <;> decide
  | item h ih =>
    intro s done stack r hs
    -- The last item is followed by the bracket that closes the array.
    rw [ih s _ _ hs (Ends.cons (by decide) _)]
    refine (read?_token (t := .closeBracket) rfl rfl rfl).trans ?_
    rw [List.reverse_cons]
  | moreItems h hs ih ihs =>
    intro s done stack r hs
    rw [map_append_cons, ih s _ _ hs (Ends.cons (by decide) _), read?_token (t := .comma) rfl rfl rfl,
      ihs _ _ stack r (expects_value _), List.reverse_cons, List.append_assoc]
    rfl
  | member hn h ih =>
    intro s done stack r hs
    rw [map_append_cons, read?_name hn hs, ih _ _ _ (expects_value _) (Ends.cons (by decide) _)]
    refine (read?_token (t := .closeBrace) rfl rfl rfl).trans ?_
    rw [List.reverse_cons]
  | moreMembers hn h hs ih ihs =>
    intro s done stack r hs
    rw [map_append_cons, read?_name hn hs, map_append_cons, ih _ _ _ (expects_value _) (Ends.cons (by decide) _),
      read?_token (t := .comma) rfl rfl rfl, ihs _ _ stack r (fun _ => rfl), List.reverse_cons, List.append_assoc]
    rfl

/-- A text that spells a document is read as it. -/
theorem ofSource?_of_spells {d : Document} {cs : List Char} (h : Spells d cs) : ofSource? (cs.map some) = some d := by
  have hread := reads_of_derives h (.value []) [] [] (expects_value []) (fun _ _ h => by cases h)
  rw [List.append_nil] at hread
  rw [State.read?, State.read?, Token.ofSource?_nil] at hread
  rw [ofSource?]
  cases hts : Token.ofSource? (cs.map some) with
  | none => rw [hts] at hread; cases hread
  | some ts =>
    rw [hts] at hread
    have hfold : ts.foldlM step (.value []) = some (.after d []) := hread
    show ofTokens? ts = some d
    rw [ofTokens?, hfold]
    rfl

end Document

end ScriptedModel.Json
