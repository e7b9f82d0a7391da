import Mathlib.Logic.Relation
import Fastpx.StreamKit.Pieces
import Fastpx.Server.Challenge

/-!
# Presentations of a header section

The same header fields can be written in many ways: a list in one line or in
several, names and tokens in upper or lower case, lines in another order.  The
readers of `http1.rs` and `server.rs` see a section as the comma-separated items
of the lines with a given name (`items`), and each item only through a function
that ignores blanks and case.  `Represents` lists the changes; a sequence of
them, in either direction, is `Relation.EqvGen Represents`.
-/

namespace Fastpx
namespace Server

open StreamKit Config Http1

/-! ## Changes of the presentation -/

/-- A header line whose value is the encoding of a text. -/
def headerOfText (name value : Text) : Header := ⟨name, utf8 value⟩

/-- One change of the presentation. -/
inductive Represents : List Header → List Header → Prop
  /-- two adjacent lines of the same name become one, with any white space around
  the comma; read backwards, a line is split at a comma -/
  | join {before after : List Header} {name name' value value' left right : Text}
      (hname : eqIgnoreAsciiCase name name' = true) (hleft : ∀ c ∈ left, isWhitespace c = true)
      (hright : ∀ c ∈ right, isWhitespace c = true) :
      Represents (before ++ headerOfText name value :: headerOfText name' value' :: after)
        (before ++ headerOfText name (value ++ left ++ ',' :: (right ++ value')) :: after)
  | nameCase {before after : List Header} {name name' : Text} {value : Bytes}
      (hname : eqIgnoreAsciiCase name name' = true) :
      Represents (before ++ ⟨name, value⟩ :: after) (before ++ ⟨name', value⟩ :: after)
  /-- the letters of a `Connection` or `Transfer-Encoding` value -/
  | tokenCase {before after : List Header} {name value value' : Text}
      (hname : eqIgnoreAsciiCase name connectionField = true ∨
        eqIgnoreAsciiCase name transferEncodingField = true)
      (hvalue : eqIgnoreAsciiCase value value' = true) :
      Represents (before ++ headerOfText name value :: after)
        (before ++ headerOfText name value' :: after)
  /-- a scheme name: the first word of a list item in `Proxy-Authenticate` -/
  | schemeCase {before after : List Header} {name front blanks scheme scheme' rest : Text}
      (hname : eqIgnoreAsciiCase name proxyAuthenticateField = true)
      (hfront : front = [] ∨ ∃ earlier, front = earlier ++ [','])
      (hblanks : ∀ c ∈ blanks, isWhitespace c = true)
      (hscheme : ∀ c ∈ scheme, isWhitespace c = false ∧ c ≠ ',')
      (hrest : ∀ c, rest.head? = some c → isWhitespace c = true ∨ c = ',')
      (hcase : eqIgnoreAsciiCase scheme scheme' = true) :
      Represents (before ++ headerOfText name (front ++ (blanks ++ scheme ++ rest)) :: after)
        (before ++ headerOfText name (front ++ (blanks ++ scheme' ++ rest)) :: after)

/-! ## What the readers see -/

/-- The items of a value; one which is not UTF-8 has none. -/
def valueItems (value : Bytes) : List Text :=
  match fromUtf8 value with
  | none => []
  | some text => text.splitOn ','

/-- The items of a line, if it has the given name. -/
def lineItems (name : Text) (header : Header) : List Text :=
  if eqIgnoreAsciiCase header.name name then valueItems header.value else []

/-- The items of all lines with the given name. -/
def items (headers : List Header) (name : Text) : List Text :=
  headers.flatMap (lineItems name)

theorem items_eq (response : ResponseHead) (name : Text) :
    items response.headers name = (response.headerValues name).flatMap valueItems := by
  unfold items ResponseHead.headerValues
  induction response.headers with
  | nil => rfl
  | cons header rest ih =>
      rw [List.flatMap_cons, ih, List.filter_cons, lineItems]
      split <;> simp

/-- Is the item the given token? -/
def isToken (expected item : Text) : Bool :=
  eqIgnoreAsciiCase (trim item) expected

theorem hasToken_eq (response : ResponseHead) (name expected : Text) :
    response.hasToken name expected = (items response.headers name).any (isToken expected) := by
  rw [items_eq, ResponseHead.hasToken, List.any_flatMap]
  congr 1
  funext value
  unfold ResponseHead.valueHasToken valueItems
  cases fromUtf8 value <;> rfl

theorem findChallenge_eq (response : ResponseHead) (scheme : AuthScheme) :
    findChallenge response scheme =
      (items response.headers proxyAuthenticateField).findSome? (challengeOfItem scheme) := by
  rw [items_eq, findChallenge, findSome?_flatMap]
  congr 1
  funext value
  unfold challengeOfValue valueItems
  cases fromUtf8 value <;> rfl

/-! ## Changes which are not seen -/

/-- A reading of items under which two sections look the same. -/
def SameItems {β : Type} (f : Text → β) (name : Text) (headers headers' : List Header) : Prop :=
  (items headers name).map f = (items headers' name).map f

/-- It is enough to compare the lines which differ. -/
theorem sameItems_of_middle {β : Type} {f : Text → β} {name : Text}
    {before middle middle' after : List Header} (h : SameItems f name middle middle') :
    SameItems f name (before ++ middle ++ after) (before ++ middle' ++ after) := by
  unfold SameItems items at *
  simp only [List.flatMap_append, List.map_append, h]

/-- Both sides are equal if neither line has the name. -/
theorem sameItems_of_other {β : Type} (f : Text → β) {name field : Text} {value value' : Text}
    (hname : eqIgnoreAsciiCase name field = false) :
    SameItems f field [headerOfText name value] [headerOfText name value'] := by
  simp [SameItems, items, lineItems, headerOfText, hname]

theorem lineItems_headerOfText {name field value : Text}
    (h : eqIgnoreAsciiCase name field = true) :
    lineItems field (headerOfText name value) = value.splitOn ',' := by
  simp [lineItems, headerOfText, h, valueItems, fromUtf8_utf8]

theorem sameItems_of_pieces {β : Type} {f : Text → β} {name field value value' : Text}
    (h : (value.splitOn ',').map f = (value'.splitOn ',').map f) :
    SameItems f field [headerOfText name value] [headerOfText name value'] := by
  cases hname : eqIgnoreAsciiCase name field with
  | false => exact sameItems_of_other f hname
  | true => simpa [SameItems, items, lineItems_headerOfText hname] using h

theorem eqIgnoreAsciiCase_left {name name' field : Text}
    (h : eqIgnoreAsciiCase name name' = true) :
    eqIgnoreAsciiCase name field = eqIgnoreAsciiCase name' field := by
  have hlower := eqIgnoreAsciiCase_iff.mp h
  unfold lower at hlower
  unfold eqIgnoreAsciiCase
  rw [hlower]

theorem ignoresBlanks_isToken (expected : Text) : IgnoresBlanks (isToken expected) where
  left blanks item h := by
    unfold isToken
    rw [trim_blank_append h]
  right blanks item h := by
    unfold isToken
    rw [trim_append_blank item h]

theorem ignoresBlanks_challengeOfItem (scheme : AuthScheme) :
    IgnoresBlanks (challengeOfItem scheme) where
  left blanks item h := by
    unfold challengeOfItem
    rw [splitWhitespace_blank_append h]
  right blanks item h := by
    unfold challengeOfItem
    rw [splitWhitespace_append_blank item h]

/-- Joining two lines is not seen by a reading which ignores blanks. -/
theorem sameItems_join {β : Type} {f : Text → β} (hf : IgnoresBlanks f) {field : Text}
    {name name' value value' left right : Text} (hname : eqIgnoreAsciiCase name name' = true)
    (hleft : ∀ c ∈ left, isWhitespace c = true) (hright : ∀ c ∈ right, isWhitespace c = true) :
    SameItems f field [headerOfText name value, headerOfText name' value']
      [headerOfText name (value ++ left ++ ',' :: (right ++ value'))] := by
  cases hfield : eqIgnoreAsciiCase name field with
  | false =>
      have hfield' : eqIgnoreAsciiCase name' field = false := eqIgnoreAsciiCase_left hname ▸ hfield
      simp [SameItems, items, lineItems, headerOfText, hfield, hfield']
  | true =>
      have hfield' : eqIgnoreAsciiCase name' field = true := eqIgnoreAsciiCase_left hname ▸ hfield
      simp only [SameItems, items, List.flatMap_cons, List.flatMap_nil, List.append_nil,
        lineItems_headerOfText hfield, lineItems_headerOfText hfield', List.map_append,
        splitOn_append_cons]
      rw [map_splitOn_append (comma_not_mem_of_blank hleft) fun piece => hf.right left piece hleft,
        map_splitOn_prepend (comma_not_mem_of_blank hright)
          fun piece => hf.left right piece hright]

theorem sameItems_nameCase {β : Type} (f : Text → β) {field name name' : Text} {value : Bytes}
    (hname : eqIgnoreAsciiCase name name' = true) :
    SameItems f field [⟨name, value⟩] [⟨name', value⟩] := by
  simp [SameItems, items, lineItems, eqIgnoreAsciiCase_left hname]

theorem isToken_lower {expected p q : Text} (h : lower p = lower q) :
    isToken expected p = isToken expected q := by
  have htrim : lower (trim p) = lower (trim q) := by
    rw [← trim_lower, ← trim_lower, h]
  exact eqIgnoreAsciiCase_left (eqIgnoreAsciiCase_iff.mpr htrim)

/-- The case of a scheme name is not seen. -/
theorem challengeOfItem_schemeCase (wanted : AuthScheme) {blanks scheme scheme' rest : Text}
    (hblanks : ∀ c ∈ blanks, isWhitespace c = true)
    (hscheme : ∀ c ∈ scheme, isWhitespace c = false)
    (hscheme' : ∀ c ∈ scheme', isWhitespace c = false)
    (hrest : ∀ c, rest.head? = some c → isWhitespace c = true)
    (hcase : eqIgnoreAsciiCase scheme scheme' = true) :
    challengeOfItem wanted (blanks ++ scheme ++ rest) =
      challengeOfItem wanted (blanks ++ scheme' ++ rest) := by
  have hlength : scheme.length = scheme'.length := by
    simpa [lower] using congrArg List.length (eqIgnoreAsciiCase_iff.mp hcase)
  by_cases hempty : scheme = []
  · have hempty' : scheme' = [] := by
      rw [← List.length_eq_zero_iff, ← hlength, hempty, List.length_nil]
    rw [hempty, hempty']
  · have hempty' : scheme' ≠ [] := by
      rwa [← List.length_pos_iff, ← hlength, List.length_pos_iff]
    unfold challengeOfItem
    rw [List.append_assoc, List.append_assoc, splitWhitespace_blank_append hblanks,
      splitWhitespace_blank_append hblanks, splitWhitespace_word_append hempty hscheme hrest,
      splitWhitespace_word_append hempty' hscheme' hrest]
    simp only [eqIgnoreAsciiCase_left hcase]

/-- What a change of case keeps of the characters. -/
theorem forall_mem_of_lower {t u : Text} (h : lower t = lower u)
    (ht : ∀ c ∈ t, isWhitespace c = false ∧ c ≠ ',') :
    ∀ c ∈ u, isWhitespace c = false ∧ c ≠ ',' := by
  intro c hc
  have hmem : c.toLower ∈ lower t := h ▸ List.mem_map_of_mem hc
  obtain ⟨d, hd, hlower⟩ := List.mem_map.mp hmem
  obtain ⟨hword, hcomma⟩ := ht d hd
  constructor
  · rw [← isWhitespace_toLower, ← hlower, isWhitespace_toLower, hword]
  · intro heq
    apply hcomma
    rw [← toLower_eq_iff (by decide), hlower, toLower_eq_iff (by decide), heq]

theorem map_splitOn_schemeCase (wanted : AuthScheme) {front blanks scheme scheme' rest : Text}
    (hfront : front = [] ∨ ∃ earlier, front = earlier ++ [','])
    (hblanks : ∀ c ∈ blanks, isWhitespace c = true)
    (hscheme : ∀ c ∈ scheme, isWhitespace c = false ∧ c ≠ ',')
    (hrest : ∀ c, rest.head? = some c → isWhitespace c = true ∨ c = ',')
    (hcase : eqIgnoreAsciiCase scheme scheme' = true) :
    ((front ++ (blanks ++ scheme ++ rest)).splitOn ',').map (challengeOfItem wanted) =
      ((front ++ (blanks ++ scheme' ++ rest)).splitOn ',').map (challengeOfItem wanted) := by
  have hscheme' := forall_mem_of_lower (eqIgnoreAsciiCase_iff.mp hcase) hscheme
  have hitem : ((blanks ++ scheme ++ rest).splitOn ',').map (challengeOfItem wanted) =
      ((blanks ++ scheme' ++ rest).splitOn ',').map (challengeOfItem wanted) := by
    -- the scheme name stands at the front of the first piece of what follows `front`
    obtain ⟨first, later, hpre, hcomma, hsplit⟩ := splitOn_prepend ',' rest
    have hnot : ∀ word : Text, (∀ c ∈ word, isWhitespace c = false ∧ c ≠ ',') →
        ',' ∉ blanks ++ word := by
      intro word hword hmem
      rcases List.mem_append.mp hmem with h | h
      · exact comma_not_mem_of_blank hblanks h
      · exact (hword ',' h).2 rfl
    have hfirst : ∀ c, first.head? = some c → isWhitespace c = true := by
      intro c hc
      obtain ⟨tail, rfl⟩ := hpre
      rcases hrest c (by rw [List.head?_append, hc]; rfl) with h | rfl
      · exact h
      · exact absurd (List.mem_of_mem_head? hc) hcomma
    rw [hsplit _ (hnot scheme hscheme), hsplit _ (hnot scheme' hscheme'), List.map_cons,
      List.map_cons, challengeOfItem_schemeCase wanted hblanks (fun c hc => (hscheme c hc).1)
        (fun c hc => (hscheme' c hc).1) hfirst hcase]
  rcases hfront with rfl | ⟨earlier, rfl⟩
  · exact hitem
  · simp only [List.append_assoc, List.singleton_append, splitOn_append_cons,
      List.map_append] at hitem ⊢
    rw [hitem]

/-! ## Invisible changes -/

/-- Header sections which look the same to the readers. -/
structure Alike (headers headers' : List Header) : Prop where
  connection : ∀ expected, SameItems (isToken expected) connectionField headers headers'
  transferEncoding : ∀ expected,
    SameItems (isToken expected) transferEncodingField headers headers'
  challenges : ∀ scheme, SameItems (challengeOfItem scheme) proxyAuthenticateField headers headers'

/-- A change which no reading of blank-insensitive items sees. -/
theorem Alike.of_ignoresBlanks {headers headers' : List Header}
    (h : ∀ {β : Type} (f : Text → β), IgnoresBlanks f → ∀ field,
      SameItems f field headers headers') : Alike headers headers' where
  connection expected := h _ (ignoresBlanks_isToken expected) _
  transferEncoding expected := h _ (ignoresBlanks_isToken expected) _
  challenges scheme := h _ (ignoresBlanks_challengeOfItem scheme) _

theorem Represents.alike {headers headers' : List Header} (h : Represents headers headers') :
    Alike headers headers' := by
  cases h with
  | @join before after name name' value value' left right hname hleft hright =>
      apply Alike.of_ignoresBlanks
      intro β f hf field
      simpa using sameItems_of_middle (sameItems_join hf hname hleft hright)
  | @nameCase before after name name' value hname =>
      apply Alike.of_ignoresBlanks
      intro β f hf field
      simpa using sameItems_of_middle (sameItems_nameCase f hname)
  | @tokenCase before after name value value' hname hvalue =>
      have hpieces : ∀ expected, (value.splitOn ',').map (isToken expected) =
          (value'.splitOn ',').map (isToken expected) := fun expected =>
        map_splitOn_lower (by decide) (fun p q => isToken_lower) (eqIgnoreAsciiCase_iff.mp hvalue)
      -- these lines are not searched for challenges
      have hother : eqIgnoreAsciiCase name proxyAuthenticateField = false := by
        rcases hname with h | h <;> rw [eqIgnoreAsciiCase_left h] <;> decide
      constructor
      · intro expected
        simpa using sameItems_of_middle (sameItems_of_pieces (hpieces expected))
      · intro expected
        simpa using sameItems_of_middle (sameItems_of_pieces (hpieces expected))
      · intro scheme
        simpa using sameItems_of_middle (sameItems_of_other _ hother)
  | @schemeCase before after name front blanks scheme scheme' rest hname hfront hblanks hscheme
      hrest hcase =>
      have hother : ∀ field, eqIgnoreAsciiCase proxyAuthenticateField field = false →
          eqIgnoreAsciiCase name field = false := by
        intro field hfield
        rw [eqIgnoreAsciiCase_left hname, hfield]
      constructor
      · intro expected
        simpa using sameItems_of_middle
          (sameItems_of_other _ (hother connectionField (by decide)))
      · intro expected
        simpa using sameItems_of_middle
          (sameItems_of_other _ (hother transferEncodingField (by decide)))
      · intro wanted
        simpa using sameItems_of_middle
          (sameItems_of_pieces (map_splitOn_schemeCase wanted hfront hblanks hscheme hrest hcase))

/-- Any number of changes, forwards and backwards. -/
theorem alike_of_eqvGen {headers headers' : List Header}
    (h : Relation.EqvGen Represents headers headers') : Alike headers headers' := by
  induction h with
  | rel _ _ hstep => exact hstep.alike
  | refl => exact ⟨fun _ => rfl, fun _ => rfl, fun _ => rfl⟩
  | symm _ _ _ ih =>
      exact ⟨fun expected => (ih.connection expected).symm,
        fun expected => (ih.transferEncoding expected).symm,
        fun scheme => (ih.challenges scheme).symm⟩
  | trans _ _ _ _ _ ih ih' =>
      exact ⟨fun expected => (ih.connection expected).trans (ih'.connection expected),
        fun expected => (ih.transferEncoding expected).trans (ih'.transferEncoding expected),
        fun scheme => (ih.challenges scheme).trans (ih'.challenges scheme)⟩

/-! ## The readers -/

theorem hasToken_of_sameItems {response response' : ResponseHead} {field expected : Text}
    (h : SameItems (isToken expected) field response.headers response'.headers) :
    response'.hasToken field expected = response.hasToken field expected := by
  have hany : ∀ headers : List Header, (items headers field).any (isToken expected) =
      ((items headers field).map (isToken expected)).any id := by
    intro headers
    rw [List.any_map]
    rfl
  rw [hasToken_eq, hasToken_eq, hany, hany, ← h]

theorem findChallenge_of_sameItems {response response' : ResponseHead} {scheme : AuthScheme}
    (h : SameItems (challengeOfItem scheme) proxyAuthenticateField response.headers
      response'.headers) :
    findChallenge response' scheme = findChallenge response scheme := by
  rw [findChallenge_eq, findChallenge_eq, findSome?_eq_of_map_eq h]

theorem chooseScheme_congr {response response' : ResponseHead}
    (h : ∀ scheme, findChallenge response' scheme = findChallenge response scheme)
    (mode : AuthMode) : chooseScheme response' mode = chooseScheme response mode := by
  have hoffered : ∀ schemes, firstOffered response' schemes = firstOffered response schemes := by
    intro schemes
    induction schemes with
    | nil => rfl
    | cons scheme rest ih => rw [firstOffered, firstOffered, h scheme, ih]
  rw [chooseScheme, chooseScheme, hoffered]

/-- The scheme depends only on which schemes are offered. -/
theorem chooseScheme_fst_congr {response response' : ResponseHead}
    (h : ∀ scheme, (findChallenge response' scheme).isSome = (findChallenge response scheme).isSome)
    (mode : AuthMode) :
    (chooseScheme response' mode).map Prod.fst = (chooseScheme response mode).map Prod.fst := by
  have hoffered : ∀ schemes, (firstOffered response' schemes).map Prod.fst =
      (firstOffered response schemes).map Prod.fst := by
    intro schemes
    induction schemes with
    | nil => rfl
    | cons scheme rest ih =>
        have hscheme := h scheme
        rw [firstOffered, firstOffered]
        cases hnew : findChallenge response' scheme with
        | none =>
            rw [hnew, Option.isSome_none, eq_comm, Option.isSome_eq_false_iff,
              Option.isNone_iff_eq_none] at hscheme
            rw [hscheme]
            exact ih
        | some challenge =>
            rw [hnew, Option.isSome_some, eq_comm, Option.isSome_iff_exists] at hscheme
            obtain ⟨challenge', hold⟩ := hscheme
            rw [hold]
            rfl
  unfold chooseScheme
  split
  · rfl
  · exact hoffered (permittedSchemes mode)

/-! ## Order -/

theorem hasToken_of_perm {response response' : ResponseHead}
    (h : response.headers.Perm response'.headers) (field expected : Text) :
    response'.hasToken field expected = response.hasToken field expected := by
  rw [hasToken_eq, hasToken_eq]
  exact (h.flatMap_right (lineItems field)).symm.any_eq

theorem isSome_findChallenge_of_perm {response response' : ResponseHead}
    (h : response.headers.Perm response'.headers) (scheme : AuthScheme) :
    (findChallenge response' scheme).isSome = (findChallenge response scheme).isSome := by
  rw [findChallenge_eq, findChallenge_eq, List.isSome_findSome?, List.isSome_findSome?]
  exact (h.flatMap_right (lineItems proxyAuthenticateField)).symm.any_eq

/-- How the header fields are written does not matter: neither changes of the
presentation nor, for the verdicts and the scheme, the order of the lines. -/
theorem presentation_irrelevant {response response' : ResponseHead}
    (hversion : response'.version = response.version) :
    (Relation.EqvGen Represents response.headers response'.headers →
      response'.connectionClose = response.connectionClose ∧
      response'.isChunked = response.isChunked ∧
      (∀ scheme, findChallenge response' scheme = findChallenge response scheme) ∧
      ∀ mode, chooseScheme response' mode = chooseScheme response mode) ∧
    (response.headers.Perm response'.headers →
      response'.connectionClose = response.connectionClose ∧
      response'.isChunked = response.isChunked ∧
      ∀ mode, (chooseScheme response' mode).map Prod.fst =
        (chooseScheme response mode).map Prod.fst) := by
  constructor
  · intro h
    have halike := alike_of_eqvGen h
    have hchallenges : ∀ scheme, findChallenge response' scheme = findChallenge response scheme :=
      fun scheme => findChallenge_of_sameItems (halike.challenges scheme)
    refine ⟨?_, hasToken_of_sameItems (halike.transferEncoding _), hchallenges,
      chooseScheme_congr hchallenges⟩
    rw [ResponseHead.connectionClose, ResponseHead.connectionClose, hversion,
      hasToken_of_sameItems (halike.connection _), hasToken_of_sameItems (halike.connection _)]
  · intro h
    refine ⟨?_, hasToken_of_perm h _ _, chooseScheme_fst_congr (isSome_findChallenge_of_perm h)⟩
    rw [ResponseHead.connectionClose, ResponseHead.connectionClose, hversion,
      hasToken_of_perm h, hasToken_of_perm h]

private def severalLines : ResponseHead :=
  ⟨1, 407, [headerOfText connectionField "close".toList,
    headerOfText proxyAuthenticateField "Basic realm=x".toList,
    headerOfText proxyAuthenticateField "NTLM abc".toList]⟩

private def joinedLine : ResponseHead :=
  ⟨1, 407, [headerOfText connectionField "close".toList,
    headerOfText proxyAuthenticateField "Basic realm=x, NTLM abc".toList]⟩

private def reversedLines : ResponseHead := ⟨1, 407, severalLines.headers.reverse⟩

/-- A challenge is found in a list as in a line of its own, and the lines may
come in another order. -/
theorem presentation_irrelevant_joined :
    findChallenge joinedLine .ntlm = findChallenge severalLines .ntlm ∧
      reversedLines.connectionClose = severalLines.connectionClose := by
  have hjoin : Represents severalLines.headers joinedLine.headers :=
    @Represents.join [headerOfText connectionField "close".toList] [] proxyAuthenticateField
      proxyAuthenticateField "Basic realm=x".toList "NTLM abc".toList [] [' '] (by decide)
      (by decide) (by decide)
  have hperm : severalLines.headers.Perm reversedLines.headers :=
    (List.reverse_perm severalLines.headers).symm
  have hversion : joinedLine.version = severalLines.version := rfl
  have hversion' : reversedLines.version = severalLines.version := rfl
  exact ⟨((presentation_irrelevant hversion).1 (Relation.EqvGen.rel _ _ hjoin)).2.2.1 .ntlm,
    ((presentation_irrelevant hversion').2 hperm).1⟩

end Server
end Fastpx
