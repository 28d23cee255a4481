/-
A configuration that is saved is loaded again. Its text is an outline, so it is read as the tree of one, whatever
the names in it may be taken for; and as any scalar is a text where a text is asked for, a name that was written
as it is comes back as it was, and so does one between quotes.

Main statement: a saved configuration is loaded unchanged.
-/
import ScriptedModel.CommandLine.Run
import ScriptedModel.Files.Disk
import ScriptedModel.Proofs.Text.Numeral
import ScriptedModel.Proofs.Yaml.Tree

namespace ScriptedModel.Configuration

open CommandLine (loadConfiguration)
open Files (Disk)
open Yaml (Atom Document IsLabel Member Name Node Outline)

/-! ## Names -/

/-- Letters, digits, points, hyphens and underscores, of which a letter or a digit comes first; or nothing. -/
def IsName (s : String) : Prop := s = "" ∨ IsLabel s.toList

instance (s : String) : Decidable (IsName s) := inferInstanceAs (Decidable (_ ∨ _))

/-- A configuration whose texts are names. Its numbers and switches are any. -/
structure IsNamed (c : Configuration) : Prop where
  host : IsName c.listening.host
  model : IsName c.streaming.model
  keys : ∀ key ∈ c.keys, IsName key

theorem exists_atoms {keys : List String} (h : ∀ key ∈ keys, IsName key) :
    ∃ as : List Atom, as.map Atom.chars = keys.map scalar ∧ as.map Atom.text = keys := by
  induction keys with
  | nil => exact ⟨[], rfl, rfl⟩
  | cons key keys ih =>
    obtain ⟨a, hchars, htext⟩ := Yaml.Scalar.exists_atom (h key List.mem_cons_self) blockIndentation
    obtain ⟨as, hchars', htext'⟩ := ih fun k hk => h k (List.mem_cons_of_mem key hk)
    refine ⟨a :: as, ?_, ?_⟩
    · rw [List.map_cons, List.map_cons, hchars, hchars']
      rfl
    · rw [List.map_cons, htext, htext']

/-! ## Numbers and switches -/

theorem isLabel_digits (n : Nat) : IsLabel (Numeral.digits 10 n) := by
  have hdigits : ∀ d ∈ Numeral.digits 10 n, d.isAlphanum = true := fun d hd => by
    rw [Char.isAlphanum, Numeral.isDigit_of_mem_decimal hd, Bool.or_true]
  refine ⟨?_, List.all_eq_true.2 fun d hd => Yaml.isLabelChar_of_isAlphanum (hdigits d hd)⟩
  obtain ⟨d, ds, hds⟩ := List.exists_cons_of_ne_nil (Numeral.digits_ne_nil 10 n)
  rw [hds, List.head?_cons, Option.any_some]
  exact hdigits d (hds ▸ List.mem_cons_self)

/-- A number as a scalar. -/
def numberAtom (n : Nat) : Atom := .plain (Numeral.digits 10 n) (isLabel_digits n)

/-- A truth value as a scalar. -/
def truthAtom (b : Bool) : Atom := .plain (truth b) (by cases b <;> exact ⟨by decide, by decide⟩)

section Digits

variable {d : Char} {ds : List Char} (hdigit : d.isDigit = true) (hzero : d ≠ '0')

include hzero

theorem digits?_cons : Yaml.Scalar.digits? (d :: ds) = Numeral.value? 10 (d :: ds) := by
  unfold Yaml.Scalar.digits?
  split
  · rename_i hfirst
    exact absurd (List.cons.inj hfirst).1 hzero
  · rfl

include hdigit

theorem isPadded_cons : Yaml.Scalar.isPadded (d :: ds) = false := by
  unfold Yaml.Scalar.isPadded
  split
  · rename_i hsign
    obtain ⟨rfl, -⟩ := List.cons.inj hsign
    cases hdigit
  · rename_i hsign
    obtain ⟨rfl, -⟩ := List.cons.inj hsign
    cases hdigit
  · split
    · rename_i hfirst
      exact absurd (List.cons.inj hfirst).1 hzero
    · rfl

theorem natural?_cons : Yaml.Scalar.natural? (String.ofList (d :: ds)) = Numeral.value? 10 (d :: ds) := by
  have hsign : d ≠ '+' := by
    rintro rfl
    cases hdigit
  rw [Yaml.Scalar.natural?, String.toList_ofList, isPadded_cons hdigit hzero, Yaml.Scalar.unsigned, if_neg hsign,
    digits?_cons hzero]
  rfl

end Digits

theorem natural?_digits (n : Nat) : Yaml.Scalar.natural? (String.ofList (Numeral.digits 10 n)) = some n := by
  by_cases hn : n = 0
  · subst hn
    rw [Numeral.digits_of_lt (by omega)]
    decide
  · obtain ⟨d, ds, hds⟩ := List.exists_cons_of_ne_nil (Numeral.digits_ne_nil 10 n)
    have hdigit : d.isDigit = true := Numeral.isDigit_of_mem_decimal (hds ▸ List.mem_cons_self)
    have hzero : d ≠ '0' := fun h =>
      Numeral.head?_digits_ne_zero (by omega : 2 ≤ 10) (by omega) hn (by rw [hds, h]; rfl)
    rw [hds, natural?_cons hdigit hzero, ← hds, Numeral.value?_digits (by omega) (by omega)]

/-! ## Reading -/

section Reading

variable (ns : List (Nat × Node))

theorem text?_atom (a : Atom) : Format.text? (⟨a.node, ns⟩ : Document) = some a.text := by
  cases a <;> rfl

theorem truth?_truthAtom (b : Bool) : Format.truth? (⟨(truthAtom b).node, ns⟩ : Document) = some b := by
  cases b <;> rfl

theorem natural?_numberAtom {n bound : Nat} (h : n ≤ bound) :
    Format.natural? bound (⟨(numberAtom n).node, ns⟩ : Document) = some n := by
  show (Yaml.Scalar.natural? (String.ofList (Numeral.digits 10 n))).filter (· ≤ bound) = some n
  rw [natural?_digits, Option.filter_some, decide_eq_true h]
  rfl

theorem word16?_numberAtom (n : UInt16) : word16? (⟨(numberAtom n.toNat).node, ns⟩ : Document) = some n := by
  rw [word16?, natural?_numberAtom ns (Nat.le_sub_one_of_lt n.toNat_lt), Option.map_some, Nat.toUInt16_eq,
    UInt16.ofNat_toNat]

theorem word64?_numberAtom (n : UInt64) : word64? (⟨(numberAtom n.toNat).node, ns⟩ : Document) = some n := by
  rw [word64?, natural?_numberAtom ns (Nat.le_sub_one_of_lt n.toNat_lt), Option.map_some, Nat.toUInt64_eq,
    UInt64.ofNat_toNat]

theorem keys?_atoms (as : List Atom) : keys? (⟨.list (as.map Atom.node), ns⟩ : Document) = some (as.map Atom.text) := by
  show ((as.map Atom.node).map fun n => (⟨n, ns⟩ : Document)).mapM Format.text? = _
  induction as with
  | nil => rfl
  | cons a as ih =>
    rw [List.map_cons, List.map_cons, List.mapM_cons, text?_atom, ih]
    rfl

end Reading

/-! ## Sections -/

/-- A name of a section or of a member. -/
def nameOf (s : String) (h : IsLabel s.toList ∧ s.toList.length ≤ 1024) : Name := ⟨s.toList, h.1, h.2⟩

theorem chars_nameOf (s : String) (h : IsLabel s.toList ∧ s.toList.length ≤ 1024) : (nameOf s h).chars = s.toList := rfl

/-- The section of where a server listens. -/
def listeningSection (host : Atom) (l : Listening) : Yaml.Section where
  name := nameOf "server" (by decide)
  first := ⟨nameOf "host" (by decide), .scalar host⟩
  more := [⟨nameOf "port" (by decide), .scalar (numberAtom l.port.toNat)⟩,
    ⟨nameOf "cors_enabled" (by decide), .scalar (truthAtom l.anyOrigin)⟩]

/-- The section of how a server streams. -/
def streamingSection (model : Atom) (s : Streaming) : Yaml.Section where
  name := nameOf "streaming" (by decide)
  first := ⟨nameOf "default_chunk_latency_ms" (by decide), .scalar (numberAtom s.latency.toNat)⟩
  more := [⟨nameOf "default_model" (by decide), .scalar model⟩,
    ⟨nameOf "channel_capacity" (by decide), .scalar (numberAtom s.capacity.toNat)⟩]

/-- The section of the keys of a server. -/
def securitySection (keys : List Atom) : Yaml.Section where
  name := nameOf "security" (by decide)
  first := ⟨nameOf "api_keys" (by decide), .list keys⟩
  more := []

/-- The outline of a configuration whose texts are scalars. -/
def outline (host model : Atom) (keys : List Atom) (c : Configuration) : Outline where
  first := listeningSection host c.listening
  more := [streamingSection model c.streaming, securitySection keys]

theorem ofDocument?_listeningSection (host : Atom) (l : Listening) :
    Listening.ofDocument? (⟨(listeningSection host l).pair.2, []⟩ : Document) = some { l with host := host.text } := by
  have hrecord : Format.record? ["host", "port", "cors_enabled"] (⟨(listeningSection host l).pair.2, []⟩ : Document) =
      some [some ⟨host.node, []⟩, some ⟨(numberAtom l.port.toNat).node, []⟩,
        some ⟨(truthAtom l.anyOrigin).node, []⟩] := rfl
  rw [Listening.ofDocument?, hrecord]
  simp only [Option.bind_eq_bind, Option.bind_some, Field.readOr, text?_atom, word16?_numberAtom, truth?_truthAtom]
  rfl

theorem ofDocument?_streamingSection (model : Atom) (s : Streaming) :
    Streaming.ofDocument? (⟨(streamingSection model s).pair.2, []⟩ : Document) =
      some { s with model := model.text } := by
  have hrecord : Format.record? ["default_chunk_latency_ms", "default_model", "channel_capacity"]
      (⟨(streamingSection model s).pair.2, []⟩ : Document) = some [some ⟨(numberAtom s.latency.toNat).node, []⟩,
        some ⟨model.node, []⟩, some ⟨(numberAtom s.capacity.toNat).node, []⟩] := rfl
  rw [Streaming.ofDocument?, hrecord]
  simp only [Option.bind_eq_bind, Option.bind_some, Field.readOr, text?_atom, word64?_numberAtom]
  rfl

/-- The tree of an outline spells its configuration. -/
theorem ofDocument?_outline (host model : Atom) (keys : List Atom) (c : Configuration) :
    ofDocument? (⟨(outline host model keys c).node, []⟩ : Document) =
      some ⟨{ c.listening with host := host.text }, { c.streaming with model := model.text }, keys.map Atom.text⟩ := by
  have hrecord : Format.record? ["server", "streaming", "security"]
      (⟨(outline host model keys c).node, []⟩ : Document) = some [some ⟨(listeningSection host c.listening).pair.2, []⟩,
        some ⟨(streamingSection model c.streaming).pair.2, []⟩, some ⟨(securitySection keys).pair.2, []⟩] := rfl
  have hkeys : securityKeys? (⟨(securitySection keys).pair.2, []⟩ : Document) = some (keys.map Atom.text) :=
    keys?_atoms [] keys
  rw [ofDocument?, hrecord]
  simp only [Option.bind_eq_bind, Option.bind_some, Field.readOr, ofDocument?_listeningSection,
    ofDocument?_streamingSection, hkeys]
  rfl

/-! ## Saving -/

theorem ended_append (cs : List Char) (a : Atom) : ended (cs ++ a.chars) = cs ++ (a.chars ++ ['\n']) := by
  have hlast : ∃ c, a.chars.getLast? = some c ∧ Yaml.isBreak c = false := by
    cases a with
    | plain cs h =>
      obtain ⟨c, r, hcs, -, -⟩ := h.exists_cons
      have hlast := List.getLast?_eq_some_getLast (l := cs) (by rw [hcs]; exact List.cons_ne_nil c r)
      exact ⟨_, hlast, Yaml.Scalar.isBreak_of_isLabelChar (List.all_eq_true.1 h.all _ (List.getLast_mem _))⟩
    | quoted cs h =>
      have hlast : ('\'' :: cs ++ ['\'']).getLast? = some '\'' := List.getLast?_concat
      exact ⟨'\'', hlast, rfl⟩
  obtain ⟨c, hc, hbreak⟩ := hlast
  rw [ended, List.getLast?_append, hc, Option.some_or, Option.any_some, hbreak, List.append_assoc]
  rfl

theorem line_atom (s : String) (h : IsLabel s.toList ∧ s.toList.length ≤ 1024) (a : Atom) :
    line s a.chars = (Member.mk (nameOf s h) (.scalar a)).chars := by
  rw [line, ended_append, List.append_assoc]
  rfl

theorem entries_atoms {keys : List String} {as : List Atom} (h : as.map Atom.chars = keys.map scalar) :
    keys.flatMap (fun k => ended ("  - ".toList ++ scalar k)) = as.flatMap Atom.entryChars := by
  induction as generalizing keys with
  | nil =>
    rw [List.map_eq_nil_iff.1 h.symm]
    rfl
  | cons a as ih =>
    obtain ⟨key, keys, rfl, hkey, hkeys⟩ := List.map_eq_cons_iff.1 h.symm
    rw [List.flatMap_cons, List.flatMap_cons, hkey, ended_append, ih hkeys.symm, Atom.entryChars]
    simp only [List.append_assoc]

theorem keyLines_atoms {keys : List String} {as : List Atom} (h : as.map Atom.chars = keys.map scalar) :
    keyLines keys = (Member.mk (nameOf "api_keys" (by decide)) (.list as)).chars := by
  cases as with
  | nil =>
    rw [List.map_eq_nil_iff.1 h.symm]
    rfl
  | cons a as =>
    obtain ⟨key, keys, rfl, -, -⟩ := List.map_eq_cons_iff.1 h.symm
    have hname : "  api_keys:\n".toList = "  ".toList ++ "api_keys".toList ++ [':', '\n'] := by decide
    unfold keyLines
    show "  api_keys:\n".toList ++ (key :: keys).flatMap (fun k => ended ("  - ".toList ++ scalar k)) = _
    rw [entries_atoms h, hname, List.append_assoc _ [':', '\n']]
    rfl

/-- The text of a configuration is an outline. -/
theorem toYaml_eq {c : Configuration} {host model : Atom} {keys : List Atom}
    (hhost : host.chars = scalar c.listening.host) (hmodel : model.chars = scalar c.streaming.model)
    (hkeys : keys.map Atom.chars = c.keys.map scalar) :
    c.toYaml = String.ofList (outline host model keys c).chars := by
  have hport : Numeral.digits 10 c.listening.port.toNat = (numberAtom c.listening.port.toNat).chars := rfl
  have hlatency : Numeral.digits 10 c.streaming.latency.toNat = (numberAtom c.streaming.latency.toNat).chars := rfl
  have hcapacity : Numeral.digits 10 c.streaming.capacity.toNat = (numberAtom c.streaming.capacity.toNat).chars := rfl
  have hcors : truth c.listening.anyOrigin = (truthAtom c.listening.anyOrigin).chars := rfl
  unfold toYaml
  simp only [← hhost, ← hmodel, hport, hlatency, hcapacity, hcors, keyLines_atoms hkeys,
    line_atom "host" (by decide), line_atom "port" (by decide), line_atom "cors_enabled" (by decide),
    line_atom "default_chunk_latency_ms" (by decide), line_atom "default_model" (by decide),
    line_atom "channel_capacity" (by decide)]
  have hserver : "server:\n".toList = "server".toList ++ ":\n".toList := by decide
  have hstreaming : "streaming:\n".toList = "streaming".toList ++ ":\n".toList := by decide
  have hsecurity : "security:\n".toList = "security".toList ++ ":\n".toList := by decide
  refine congrArg String.ofList ?_
  simp only [outline, Outline.chars, Outline.sections, List.flatMap_cons, List.flatMap_nil, Yaml.Section.chars,
    Yaml.Section.members, listeningSection, streamingSection, securitySection, chars_nameOf, hserver, hstreaming,
    hsecurity, List.append_nil, List.append_assoc]

theorem ofYaml_toYaml (words : String) {c : Configuration} (h : c.IsNamed) : ofYaml words c.toYaml = .ok c := by
  obtain ⟨host, hhost, hhostText⟩ := Yaml.Scalar.exists_atom h.host blockIndentation
  obtain ⟨model, hmodel, hmodelText⟩ := Yaml.Scalar.exists_atom h.model blockIndentation
  obtain ⟨keys, hkeys, hkeysText⟩ := exists_atoms h.keys
  rw [ofYaml, toYaml_eq hhost hmodel hkeys, Document.ofText?_outline, Option.bind_some, ofDocument?_outline, hhostText,
    hmodelText, hkeysText]
  rfl

/-- A saved configuration is loaded unchanged, so what is checked and where it listens are the same; and so is one
that the program finds in a file. -/
theorem load_saved {c : Configuration} (h : c.IsNamed) (words : String) :
    ofYaml words c.toYaml = .ok c ∧ (ofYaml words c.toYaml).bind check = c.check ∧
      (ofYaml words c.toYaml).bind address = c.address ∧
      ∀ (d : Disk) (path : String), d.read path = .ok c.toYaml →
        (loadConfiguration words (some path) : StateM Disk _) d = (.ok c, d) := by
  have hload := ofYaml_toYaml words h
  refine ⟨hload, by rw [hload]; rfl, by rw [hload]; rfl, fun d path hread => ?_⟩
  have hfile : (Files.read path : StateM Disk _) d = (.ok c.toYaml, d) := by
    show (d.read path, d) = _
    rw [hread]
  simp only [loadConfiguration, bind, StateT.bind, hfile, hload]
  rfl

/-- A configuration whose texts look like anything but texts. -/
def ambiguous : Configuration :=
  ⟨⟨"", 0, false⟩, ⟨0xFFFFFFFFFFFFFFFF, "1e5", 0⟩, ["null", "0x1f", "true", "007", "a-b.c_d", ""]⟩

theorem load_saved_ambiguous : ambiguous.IsNamed ∧ ofYaml "" ambiguous.toYaml = .ok ambiguous ∧
    ((loadConfiguration "" (some "c.yaml") : StateM Disk _) ⟨[(["c.yaml"], .file ambiguous.toYaml)], []⟩).1 =
      .ok ambiguous := by
  have hnamed : ambiguous.IsNamed := ⟨by decide, by decide, by decide⟩
  have h := load_saved hnamed ""
  exact ⟨hnamed, h.1, congrArg Prod.fst (h.2.2.2 _ "c.yaml" rfl)⟩

/-- Quotes stand around what would read as a number, and only there. -/
example : scalar "1e5" = "'1e5'".toList ∧ scalar "a-b.c_d" = "a-b.c_d".toList := by
  decide +kernel

end ScriptedModel.Configuration
