/-
The key that a request presents. Four schemes can carry one: the authorization header, two headers for keys,
and the query. What a header carries is the text between the blanks around it.

Main statement: the key is that of the first scheme that can be used, so a key that is sent by a scheme alone
is the key that is presented, character by character.
-/
import ScriptedModel.Http.Credentials
import ScriptedModel.Proofs.Text.FormEncoding

namespace ScriptedModel.Http

/-! ## Blanks -/

/-- Blanks alone. -/
def AreBlank (cs : List Char) : Prop := ∀ c ∈ cs, isFieldBlank c = true

instance (cs : List Char) : Decidable (AreBlank cs) := List.decidableBAll _ cs

/-- A text with blanks around another one. -/
def Wraps (key cs : List Char) : Prop :=
  ∃ before after, cs = before ++ (key ++ after) ∧ AreBlank before ∧ AreBlank after

/-- A key that a header can carry: visible characters, and blanks between them alone. -/
structure IsHeaderKey (key : List Char) : Prop where
  ne_nil : key ≠ []
  text : ∀ c ∈ key, isFieldText c = true
  first : ∀ c ∈ key.head?, isFieldBlank c = false
  last : ∀ c ∈ key.getLast?, isFieldBlank c = false

theorem isFieldText_of_isFieldBlank {c : Char} (h : isFieldBlank c = true) : isFieldText c = true := by
  have hblank : c = '\t' ∨ c = ' ' := by simpa [isFieldBlank] using h
  rcases hblank with rfl | rfl <;> decide

section Trim

variable {cs key : List Char}

theorem exists_dropWhile (cs : List Char) : ∃ before, AreBlank before ∧ cs = before ++ cs.dropWhile isFieldBlank ∧
    ∀ c ∈ (cs.dropWhile isFieldBlank).head?, isFieldBlank c = false := by
  induction cs with
  | nil => exact ⟨[], by decide, rfl, by simp⟩
  | cons c cs ih =>
    by_cases hc : isFieldBlank c = true
    · obtain ⟨before, hbefore, hcs, hhead⟩ := ih
      rw [List.dropWhile_cons_of_pos hc]
      exact ⟨c :: before, List.forall_mem_cons.2 ⟨hc, hbefore⟩, congrArg (c :: ·) hcs, hhead⟩
    · rw [List.dropWhile_cons_of_neg hc]
      exact ⟨[], by decide, rfl, by simpa using hc⟩

/-- What remains of a text is between blanks, and neither begins nor ends with one. -/
theorem wraps_trimField (cs : List Char) : Wraps (trimField cs) cs ∧
    (∀ c ∈ (trimField cs).head?, isFieldBlank c = false) ∧ ∀ c ∈ (trimField cs).getLast?, isFieldBlank c = false := by
  obtain ⟨before, hbefore, hcs, hfirst⟩ := exists_dropWhile cs
  obtain ⟨after, hafter, hrest, hlast⟩ := exists_dropWhile (cs.dropWhile isFieldBlank).reverse
  have htrim : cs.dropWhile isFieldBlank = trimField cs ++ after.reverse := by
    rw [← List.reverse_inj, List.reverse_append, List.reverse_reverse, trimField, List.reverse_reverse]
    exact hrest
  refine ⟨⟨before, after.reverse, by rw [← htrim]; exact hcs, hbefore, ?_⟩, ?_, ?_⟩
  · exact fun c hc => hafter c (List.mem_reverse.1 hc)
  · intro c hc
    apply hfirst
    rw [htrim, List.head?_append, Option.mem_def.1 hc]
    rfl
  · rwa [trimField, List.getLast?_reverse]

/-- What is between blanks remains, if it neither begins nor ends with one. -/
theorem trimField_of_wraps (h : Wraps key cs) (hne : key ≠ []) (hfirst : ∀ c ∈ key.head?, isFieldBlank c = false)
    (hlast : ∀ c ∈ key.getLast?, isFieldBlank c = false) : trimField cs = key := by
  obtain ⟨before, after, rfl, hbefore, hafter⟩ := h
  have hkeep : ∀ {front back : List Char}, AreBlank front → back ≠ [] → (∀ c ∈ back.head?, isFieldBlank c = false) →
      (front ++ back).dropWhile isFieldBlank = back := by
    intro front back hfront hback hhead
    rw [List.dropWhile_append_of_pos hfront]
    cases back with
    | nil => exact absurd rfl hback
    | cons c back => exact List.dropWhile_cons_of_neg (by simp [hhead c rfl])
  have hkey : ∀ c ∈ (key ++ after).head?, isFieldBlank c = false := by
    cases key with
    | nil => exact absurd rfl hne
    | cons c key => exact hfirst
  rw [trimField, hkeep hbefore (List.append_ne_nil_of_left_ne_nil hne _) hkey, List.reverse_append,
    hkeep (fun c hc => hafter c (List.mem_reverse.1 hc)) (by simpa using hne) (by rwa [List.head?_reverse]),
    List.reverse_reverse]

theorem areBlank_iff : AreBlank cs ↔ trimField cs = [] := by
  obtain ⟨⟨before, after, hcs, hbefore, hafter⟩, hfirst, -⟩ := wraps_trimField cs
  constructor
  · intro h
    cases htrim : trimField cs with
    | nil => rfl
    | cons c rest =>
      have hc : isFieldBlank c = false := hfirst c (by rw [htrim]; rfl)
      have hmem : c ∈ cs := by
        rw [hcs, htrim]
        simp
      rw [h c hmem] at hc
      cases hc
  · intro h c hc
    rw [hcs, h, List.nil_append, List.mem_append] at hc
    exact hc.elim (hbefore c) (hafter c)

theorem Wraps.text_iff (h : Wraps key cs) :
    (∀ c ∈ cs, isFieldText c = true) ↔ ∀ c ∈ key, isFieldText c = true := by
  obtain ⟨before, after, rfl, hbefore, hafter⟩ := h
  constructor
  · intro h c hc
    exact h c (List.mem_append_right _ (List.mem_append_left _ hc))
  · intro h c hc
    rw [List.mem_append, List.mem_append] at hc
    rcases hc with hc | hc | hc
    · exact isFieldText_of_isFieldBlank (hbefore c hc)
    · exact h c hc
    · exact isFieldText_of_isFieldBlank (hafter c hc)

theorem isHeaderKey_trimField (htext : ∀ c ∈ cs, isFieldText c = true) (h : ¬ AreBlank cs) :
    IsHeaderKey (trimField cs) := by
  obtain ⟨hwraps, hfirst, hlast⟩ := wraps_trimField cs
  exact ⟨mt areBlank_iff.2 h, hwraps.text_iff.1 htext, hfirst, hlast⟩

theorem IsHeaderKey.not_areBlank {front back : List Char} (h : IsHeaderKey (front ++ back)) (hne : back ≠ []) :
    ¬ AreBlank back := by
  intro hblank
  have hlast : isFieldBlank (back.getLast hne) = false := by
    apply h.last
    rw [List.getLast?_append, List.getLast?_eq_some_getLast hne]
    rfl
  rw [hblank _ (List.getLast_mem hne)] at hlast
  cases hlast

theorem Wraps.not_areBlank (h : Wraps key cs) (hkey : IsHeaderKey key) : ¬ AreBlank cs := by
  obtain ⟨before, after, rfl, -, -⟩ := h
  intro hblank
  have hself : IsHeaderKey ([] ++ key) := hkey
  exact hself.not_areBlank hkey.ne_nil fun c hc => hblank c (List.mem_append_right _ (List.mem_append_left _ hc))

/-- What is text and not blank alone is a key between blanks. -/
theorem exists_isHeaderKey_iff : (∃ key, Wraps key cs ∧ IsHeaderKey key) ↔
    (∀ c ∈ cs, isFieldText c = true) ∧ ¬ AreBlank cs := by
  constructor
  · rintro ⟨key, hwraps, hkey⟩
    exact ⟨hwraps.text_iff.2 hkey.text, hwraps.not_areBlank hkey⟩
  · rintro ⟨htext, hblank⟩
    exact ⟨trimField cs, (wraps_trimField cs).1, isHeaderKey_trimField htext hblank⟩

end Trim

/-! ## Headers -/

section Headers

variable {hs : Headers} {name : String} {key : List Char}

/-- A header says what is between the blanks of its value. -/
theorem credential?_eq_some_iff : hs.credential? name = some key ↔
    ∃ value, hs.get? name = some value ∧ Wraps key value.toList ∧ IsHeaderKey key := by
  unfold Headers.credential?
  cases hs.get? name with
  | none => simp
  | some value =>
    simp only [Option.bind_eq_bind, Option.bind_some, Option.some.injEq, exists_eq_left']
    constructor
    · intro h
      obtain ⟨⟨htext, hne⟩, rfl⟩ : (value.toList.all isFieldText = true ∧ trimField value.toList ≠ []) ∧
          trimField value.toList = key := by simpa using h
      exact ⟨(wraps_trimField _).1, isHeaderKey_trimField (List.all_eq_true.1 htext) (mt areBlank_iff.1 hne)⟩
    · rintro ⟨hwraps, hkey⟩
      rw [trimField_of_wraps hwraps hkey.ne_nil hkey.first hkey.last,
        if_pos ⟨List.all_eq_true.2 (hwraps.text_iff.2 hkey.text), hkey.ne_nil⟩]

/-- The token of the authorization header is what is after its scheme, less the blanks around it. -/
theorem bearerToken?_eq_some_iff : (hs.credential? "authorization").bind bearerToken? = some key ↔
    ∃ value gap, hs.get? "authorization" = some value ∧ AreBlank gap ∧
      Wraps (bearer ++ (gap ++ key)) value.toList ∧ IsHeaderKey key := by
  constructor
  · intro h
    obtain ⟨token, htoken, h⟩ := Option.bind_eq_some_iff.1 h
    obtain ⟨value, hget, hwraps, htokenKey⟩ := credential?_eq_some_iff.1 htoken
    rw [bearerToken?] at h
    split at h
    next hscheme =>
      obtain ⟨rest, rfl⟩ := List.isPrefixOf_iff_prefix.1 hscheme
      rw [List.drop_left] at h
      obtain rfl := Option.some.inj h
      -- The value ends with the token, for it does not end with a blank, as the scheme does.
      have hrest : ¬ AreBlank rest := by
        intro hblank
        have hend : bearer ++ rest = "Bearer".toList ++ (' ' :: rest) := rfl
        rw [hend] at htokenKey
        exact htokenKey.not_areBlank (List.cons_ne_nil _ _) (List.forall_mem_cons.2 ⟨rfl, hblank⟩)
      obtain ⟨⟨gap, after, hsplit, hgap, hafter⟩, hfirst, hlast⟩ := wraps_trimField rest
      have hnil : after = [] := by
        by_cases hne : after = []
        · exact hne
        · rw [hsplit, ← List.append_assoc, ← List.append_assoc] at htokenKey
          exact absurd hafter (htokenKey.not_areBlank hne)
      rw [hnil, List.append_nil] at hsplit
      refine ⟨value, gap, hget, hgap, by rwa [← hsplit], mt areBlank_iff.2 hrest, fun c hc => ?_, hfirst, hlast⟩
      apply htokenKey.text
      rw [hsplit]
      exact List.mem_append_right _ (List.mem_append_right _ hc)
    next => cases h
  · rintro ⟨value, gap, hget, hgap, hwraps, hkey⟩
    have hvalue : IsHeaderKey (bearer ++ (gap ++ key)) := by
      refine ⟨List.append_ne_nil_of_left_ne_nil (by decide) _, fun c hc => ?_, ?_, ?_⟩
      · rw [List.mem_append, List.mem_append] at hc
        rcases hc with hc | hc | hc
        · exact List.all_eq_true.1 (by decide : bearer.all isFieldText = true) c hc
        · exact isFieldText_of_isFieldBlank (hgap c hc)
        · exact hkey.text c hc
      · rintro c ⟨⟩
        decide
      · intro c hc
        rw [← List.append_assoc, List.getLast?_append, List.getLast?_eq_some_getLast hkey.ne_nil] at hc
        exact hkey.last c (by rw [List.getLast?_eq_some_getLast hkey.ne_nil]; exact hc)
    rw [credential?_eq_some_iff.2 ⟨value, hget, hwraps, hvalue⟩, Option.bind_some, bearerToken?,
      if_pos (List.isPrefixOf_iff_prefix.2 (List.prefix_append _ _)), List.drop_left,
      trimField_of_wraps ⟨gap, [], by rw [List.append_nil], hgap, by decide⟩ hkey.ne_nil hkey.first hkey.last]

end Headers

/-! ## Schemes -/

/-- The ways to present a key. -/
inductive Scheme where
  | bearer
  | apiKey
  | googApiKey
  | query
  deriving DecidableEq, Repr

namespace Scheme

/-- The schemes that count before a scheme. -/
def before : Scheme → List Scheme
  | bearer => []
  | apiKey => [bearer]
  | googApiKey => [bearer, apiKey]
  | query => [bearer, apiKey, googApiKey]

section Carries

variable (hs : Headers) (query? : Option String)

/-- The key that a request carries by a scheme. -/
inductive Carries : Scheme → String → Prop
  | bearer {value key : String} {gap : List Char} (hget : hs.get? "authorization" = some value) (hgap : AreBlank gap)
    (hwraps : Wraps ("Bearer ".toList ++ (gap ++ key.toList)) value.toList) (hkey : IsHeaderKey key.toList) :
    Carries .bearer key
  | apiKey {value key : String} (hget : hs.get? "x-api-key" = some value) (hwraps : Wraps key.toList value.toList)
    (hkey : IsHeaderKey key.toList) : Carries .apiKey key
  | googApiKey {value key : String} (hget : hs.get? "x-goog-api-key" = some value)
    (hwraps : Wraps key.toList value.toList) (hkey : IsHeaderKey key.toList) : Carries .googApiKey key
  | query {query key : String} (hquery : query? = some query) (htells : FormEncoding.Tells "key" key query.toList) :
    Carries .query key

/-- The key of a scheme, as it is computed. -/
def key? : Scheme → Option String
  | bearer => ((hs.credential? "authorization").bind bearerToken?).map String.ofList
  | apiKey => (hs.credential? "x-api-key").map String.ofList
  | googApiKey => (hs.credential? "x-goog-api-key").map String.ofList
  | query => query?.bind (FormEncoding.value? · "key")

/-- Whether a scheme can be used: a header has to be text, and more than blanks after its scheme. -/
inductive IsUsable : Scheme → Prop
  | bearer {value : String} {front rest : List Char} (hget : hs.get? "authorization" = some value)
    (htext : ∀ c ∈ value.toList, isFieldText c = true) (hvalue : value.toList = front ++ ("Bearer ".toList ++ rest))
    (hfront : AreBlank front) (hrest : ¬ AreBlank rest) : IsUsable .bearer
  | apiKey {value : String} (hget : hs.get? "x-api-key" = some value)
    (htext : ∀ c ∈ value.toList, isFieldText c = true) (hvalue : ¬ AreBlank value.toList) : IsUsable .apiKey
  | googApiKey {value : String} (hget : hs.get? "x-goog-api-key" = some value)
    (htext : ∀ c ∈ value.toList, isFieldText c = true) (hvalue : ¬ AreBlank value.toList) : IsUsable .googApiKey
  | query {query key : String} (hquery : query? = some query) (htells : FormEncoding.Tells "key" key query.toList) :
    IsUsable .query

end Carries

variable {hs : Headers} {query? : Option String} {s : Scheme} {key : String}

theorem map_ofList_eq_some_iff {o : Option (List Char)} : o.map String.ofList = some key ↔ o = some key.toList := by
  rw [Option.map_eq_some_iff]
  constructor
  · rintro ⟨cs, rfl, rfl⟩
    rw [String.toList_ofList]
  · intro h
    exact ⟨key.toList, h, String.ofList_toList⟩

theorem key?_eq_some_iff : s.key? hs query? = some key ↔ s.Carries hs query? key := by
  cases s with
  | bearer =>
    rw [key?, map_ofList_eq_some_iff, bearerToken?_eq_some_iff]
    constructor
    · rintro ⟨value, gap, hget, hgap, hwraps, hkey⟩
      exact .bearer hget hgap hwraps hkey
    · intro h
      cases h with
      | bearer hget hgap hwraps hkey => exact ⟨_, _, hget, hgap, hwraps, hkey⟩
  | apiKey =>
    rw [key?, map_ofList_eq_some_iff, credential?_eq_some_iff]
    constructor
    · rintro ⟨value, hget, hwraps, hkey⟩
      exact .apiKey hget hwraps hkey
    · intro h
      cases h with
      | apiKey hget hwraps hkey => exact ⟨_, hget, hwraps, hkey⟩
  | googApiKey =>
    rw [key?, map_ofList_eq_some_iff, credential?_eq_some_iff]
    constructor
    · rintro ⟨value, hget, hwraps, hkey⟩
      exact .googApiKey hget hwraps hkey
    · intro h
      cases h with
      | googApiKey hget hwraps hkey => exact ⟨_, hget, hwraps, hkey⟩
  | query =>
    rw [key?, Option.bind_eq_some_iff]
    constructor
    · rintro ⟨query, hquery, hvalue⟩
      exact .query hquery (FormEncoding.value?_eq_some_iff.1 hvalue)
    · intro h
      cases h with
      | query hquery htells => exact ⟨_, hquery, FormEncoding.value?_eq_some_iff.2 htells⟩

theorem Carries.unique {key' : String} (h : s.Carries hs query? key) (h' : s.Carries hs query? key') : key = key' :=
  Option.some.inj ((key?_eq_some_iff.2 h).symm.trans (key?_eq_some_iff.2 h'))

theorem exists_wraps_ofList {cs : List Char} (htext : ∀ c ∈ cs, isFieldText c = true) (h : ¬ AreBlank cs) :
    ∃ key : String, Wraps key.toList cs ∧ IsHeaderKey key.toList := by
  obtain ⟨key, hwraps, hkey⟩ := exists_isHeaderKey_iff.2 ⟨htext, h⟩
  exact ⟨String.ofList key, by rwa [String.toList_ofList], by rwa [String.toList_ofList]⟩

/-- A scheme can be used if it carries a key. -/
theorem isUsable_iff : s.IsUsable hs query? ↔ ∃ key, s.Carries hs query? key := by
  constructor
  · intro h
    cases h with
    | @bearer value front rest hget htext hvalue hfront hrest =>
      have hrestText : ∀ c ∈ rest, isFieldText c = true := fun c hc =>
        htext c (by rw [hvalue]; exact List.mem_append_right _ (List.mem_append_right _ hc))
      obtain ⟨key, ⟨gap, after, rfl, hgap, hafter⟩, hkey⟩ := exists_wraps_ofList hrestText hrest
      refine ⟨key, .bearer hget hgap ⟨front, after, ?_, hfront, hafter⟩ hkey⟩
      rw [hvalue, List.append_assoc, List.append_assoc]
    | apiKey hget htext hvalue =>
      obtain ⟨key, hwraps, hkey⟩ := exists_wraps_ofList htext hvalue
      exact ⟨key, .apiKey hget hwraps hkey⟩
    | googApiKey hget htext hvalue =>
      obtain ⟨key, hwraps, hkey⟩ := exists_wraps_ofList htext hvalue
      exact ⟨key, .googApiKey hget hwraps hkey⟩
    | query hquery htells => exact ⟨_, .query hquery htells⟩
  · rintro ⟨key, h⟩
    cases h with
    | @bearer value _ gap hget hgap hwraps hkey =>
      obtain ⟨front, after, hvalue, hfront, hafter⟩ := hwraps
      have hrest : Wraps key.toList (gap ++ (key.toList ++ after)) := ⟨gap, after, rfl, hgap, hafter⟩
      have hsplit : value.toList = front ++ ("Bearer ".toList ++ (gap ++ (key.toList ++ after))) := by
        rw [hvalue, List.append_assoc, List.append_assoc]
      refine .bearer hget (fun c hc => ?_) hsplit hfront (hrest.not_areBlank hkey)
      rw [hsplit, List.mem_append, List.mem_append] at hc
      rcases hc with hc | hc | hc
      · exact isFieldText_of_isFieldBlank (hfront c hc)
      · exact List.all_eq_true.1 (by decide : "Bearer ".toList.all isFieldText = true) c hc
      · exact hrest.text_iff.2 hkey.text c hc
    | apiKey hget hwraps hkey => exact .apiKey hget (hwraps.text_iff.2 hkey.text) (hwraps.not_areBlank hkey)
    | googApiKey hget hwraps hkey => exact .googApiKey hget (hwraps.text_iff.2 hkey.text) (hwraps.not_areBlank hkey)
    | query hquery htells => exact .query hquery htells

theorem not_isUsable_iff : ¬ s.IsUsable hs query? ↔ s.key? hs query? = none := by
  rw [isUsable_iff, Option.eq_none_iff_forall_ne_some, not_exists]
  exact forall_congr' fun key => not_congr key?_eq_some_iff.symm

theorem presentedKey?_eq (hs : Headers) (query? : Option String) :
    presentedKey? hs query? = (bearer.key? hs query?).or
      ((apiKey.key? hs query?).or ((googApiKey.key? hs query?).or (query.key? hs query?))) := by
  unfold presentedKey? key?
  cases (hs.credential? "authorization").bind bearerToken? <;> cases hs.credential? "x-api-key" <;>
    cases hs.credential? "x-goog-api-key" <;> rfl

/-- The key is that of the first scheme that can be used. -/
theorem presentedKey?_eq_some_iff : presentedKey? hs query? = some key ↔
    ∃ s : Scheme, s.Carries hs query? key ∧ ∀ s' ∈ s.before, ¬ s'.IsUsable hs query? := by
  simp only [presentedKey?_eq, Option.or_eq_some_iff, not_isUsable_iff, ← key?_eq_some_iff]
  constructor
  · rintro (h | ⟨h₁, h | ⟨h₂, h | ⟨h₃, h⟩⟩⟩)
    · exact ⟨bearer, h, by simp [before]⟩
    · exact ⟨apiKey, h, by simp [before, h₁]⟩
    · exact ⟨googApiKey, h, by simp [before, h₁, h₂]⟩
    · exact ⟨query, h, by simp [before, h₁, h₂, h₃]⟩
  · rintro ⟨s, h, hbefore⟩
    cases s with
    | bearer => exact .inl h
    | apiKey => exact .inr ⟨hbefore bearer (by decide), .inl h⟩
    | googApiKey => exact .inr ⟨hbefore bearer (by decide), .inr ⟨hbefore apiKey (by decide), .inl h⟩⟩
    | query =>
      exact .inr ⟨hbefore bearer (by decide), .inr ⟨hbefore apiKey (by decide),
        .inr ⟨hbefore googApiKey (by decide), h⟩⟩⟩

theorem Carries.ne_empty (h : s.Carries hs query? key) (hs : s ≠ .query) : key ≠ "" := by
  have hne : ∀ {key : String}, IsHeaderKey key.toList → key ≠ "" := by
    rintro key hkey rfl
    exact hkey.ne_nil rfl
  cases h with
  | bearer _ _ _ hkey => exact hne hkey
  | apiKey _ _ hkey => exact hne hkey
  | googApiKey _ _ hkey => exact hne hkey
  | query _ _ => exact absurd rfl hs

end Scheme

/-! ## Presenting a key -/

/-- A query with a parameter at any place, whose name and value are written in any way that a query allows. -/
inductive Places (name value : String) : List Char → Prop
  | intro {n v : List Char} {before : List (List Char)} (hn : FormEncoding.Writes name.toList n) (hname : '=' ∉ n)
    (hv : FormEncoding.Writes value.toList v)
    (hbefore : ∀ piece ∈ before, '&' ∉ piece ∧ (piece ≠ [] → ∀ u, ¬ FormEncoding.Spells piece name u))
    (after : List (List Char)) : Places name value (['&'].intercalate (before ++ (n ++ '=' :: v) :: after))

theorem value?_of_places {name value query : String} (h : Places name value query.toList) :
    FormEncoding.value? query name = some value := by
  rw [FormEncoding.value?_eq_some_iff]
  generalize query.toList = cs at h
  obtain ⟨hn, hname, hv, hbefore, after⟩ := h
  have htells := FormEncoding.tells_of_writes hn hname hv (by rwa [String.ofList_toList]) after
  rwa [String.ofList_toList, String.ofList_toList] at htells

/-- What is recognised of the credentials of a request. -/
structure Recognises (hs : Headers) (query? : Option String) : Prop where
  /-- The first scheme that can be used counts, and there is no key without one. -/
  first : ∀ key, presentedKey? hs query? = some key ↔
    ∃ s : Scheme, s.Carries hs query? key ∧ ∀ s' ∈ s.before, ¬ s'.IsUsable hs query?
  usable : ∀ s : Scheme, s.IsUsable hs query? ↔ ∃ key, s.Carries hs query? key
  unique : ∀ (s : Scheme) key key', s.Carries hs query? key → s.Carries hs query? key' → key = key'
  bearer : ∀ value key, hs.get? "authorization" = some value → IsHeaderKey key.toList →
    Wraps ("Bearer ".toList ++ key.toList) value.toList → presentedKey? hs query? = some key
  apiKey : ∀ value key, hs.get? "x-api-key" = some value → IsHeaderKey key.toList →
    Wraps key.toList value.toList → ¬ Scheme.bearer.IsUsable hs query? → presentedKey? hs query? = some key
  googApiKey : ∀ value key, hs.get? "x-goog-api-key" = some value → IsHeaderKey key.toList →
    Wraps key.toList value.toList → ¬ Scheme.bearer.IsUsable hs query? → ¬ Scheme.apiKey.IsUsable hs query? →
    presentedKey? hs query? = some key
  /-- A header never carries the empty key. -/
  nonempty : ∀ (s : Scheme) key, s.Carries hs query? key → s ≠ .query → key ≠ ""
  query : ∀ query key, query? = some query → Places "key" key query.toList →
    FormEncoding.value? query "key" = some key ∧
      ((∀ s : Scheme, s ≠ .query → ¬ s.IsUsable hs query?) → presentedKey? hs query? = some key)
  /-- A query is read by the rules of its encoding, and clients write by them. -/
  decoding : ∀ query name value,
    FormEncoding.value? query name = some value ↔ FormEncoding.Tells name value query.toList
  encoding : ∀ text, FormEncoding.Writes text (FormEncoding.encode text) ∧ '=' ∉ FormEncoding.encode text

/-- The credentials of every request are recognised. -/
theorem recognises (hs : Headers) (query? : Option String) : Recognises hs query? := by
  have hfirst : ∀ key, presentedKey? hs query? = some key ↔
      ∃ s : Scheme, s.Carries hs query? key ∧ ∀ s' ∈ s.before, ¬ s'.IsUsable hs query? :=
    fun key => Scheme.presentedKey?_eq_some_iff
  exact
    { first := hfirst
      usable := fun s => Scheme.isUsable_iff
      unique := fun s key key' h h' => h.unique h'
      bearer := by
        intro value key hget hkey hwraps
        refine (hfirst key).2 ⟨.bearer, .bearer hget (by decide : AreBlank []) ?_ hkey, by simp [Scheme.before]⟩
        rwa [List.nil_append]
      apiKey := by
        intro value key hget hkey hwraps hbearer
        exact (hfirst key).2 ⟨.apiKey, .apiKey hget hwraps hkey, by simpa [Scheme.before] using hbearer⟩
      googApiKey := by
        intro value key hget hkey hwraps hbearer hapiKey
        exact (hfirst key).2
          ⟨.googApiKey, .googApiKey hget hwraps hkey, by simpa [Scheme.before] using ⟨hbearer, hapiKey⟩⟩
      nonempty := fun s key h hs => h.ne_empty hs
      query := by
        intro query key hquery hplaces
        have hvalue := value?_of_places hplaces
        refine ⟨hvalue, fun hheaders => (hfirst key).2 ⟨.query, ?_, ?_⟩⟩
        · exact .query hquery (FormEncoding.value?_eq_some_iff.1 hvalue)
        · intro s' hs'
          refine hheaders s' ?_
          rintro rfl
          exact absurd hs' (by decide)
      decoding := fun query name value => FormEncoding.value?_eq_some_iff
      encoding := fun text => ⟨FormEncoding.writes_encode text, FormEncoding.notMem_encode text⟩ }

/-- A key with blanks around it in a header after an authorization of another kind, and a key of several bytes for each
character in the second parameter of a query. -/
example :
    presentedKey? [("Authorization", "Basic abc"), ("X-Api-Key", " \tse cret ")] (some "key=other") = some "se cret" ∧
      presentedKey? [] (some "alt=sse&key=%C3%A4+%2b") = some "ä +" := by
  decide +kernel

end ScriptedModel.Http
