import Fastpx.StreamKit.AuthList
import Fastpx.Server.Presentation

/-!
# Challenges as they are offered

`find_challenge` cuts every `Proxy-Authenticate` value at its commas and takes
the first word of each piece for a scheme name.  Commas also separate the
parameters of a challenge and may stand in quoted strings, so some pieces do not
start a challenge.  They do no harm exactly when `Unmistakable` holds.
-/

namespace Fastpx
namespace Server

open StreamKit Config Http1

/-! ## Pieces which name a scheme -/

/-- Is the challenge one of this scheme? -/
def isFor (scheme : AuthScheme) (offer : Offer) : Bool :=
  eqIgnoreAsciiCase offer.scheme.text scheme.headerName

/-- Is the first word of the piece the name of the scheme? -/
def namesScheme (scheme : AuthScheme) (piece : Text) : Bool :=
  (splitWhitespace piece).head?.any fun word => eqIgnoreAsciiCase word scheme.headerName

/-- The challenge which is read from a piece. -/
def challengeOfPiece (piece : Text) : Challenge := ⟨(splitWhitespace piece)[1]?⟩

theorem challengeOfItem_eq (scheme : AuthScheme) (piece : Text) :
    challengeOfItem scheme piece =
      if namesScheme scheme piece then some (challengeOfPiece piece) else none := by
  unfold challengeOfItem namesScheme challengeOfPiece
  cases splitWhitespace piece with
  | nil => rfl
  | cons name fields => simp [List.head?_eq_getElem?]

theorem findSome?_challengeOfItem (scheme : AuthScheme) (pieces : List Text) :
    pieces.findSome? (challengeOfItem scheme) =
      (pieces.find? (namesScheme scheme)).map challengeOfPiece := by
  induction pieces with
  | nil => rfl
  | cons piece rest ih =>
      rw [List.findSome?_cons, challengeOfItem_eq, List.find?_cons, ih]
      cases namesScheme scheme piece <;> rfl

/-- The start of a challenge names the scheme of the challenge. -/
theorem namesScheme_start (scheme : AuthScheme) (offer : Offer) :
    namesScheme scheme offer.start = isFor scheme offer := by
  obtain ⟨words, hwords⟩ := offer.splitWhitespace_start
  rw [namesScheme, hwords]
  rfl

/-! ## Which piece is found -/

/-- The pieces before the first challenge of the scheme which start no
challenge. -/
def earlierStrays (scheme : AuthScheme) (offers : List Offer) : List Text :=
  (offers.takeWhile fun offer => !isFor scheme offer).flatMap Offer.strays

theorem find?_pieces (scheme : AuthScheme) (offers : List Offer) :
    (offers.flatMap Offer.pieces).find? (namesScheme scheme) =
      ((earlierStrays scheme offers).find? (namesScheme scheme)).or
        ((offers.find? (isFor scheme)).map Offer.start) := by
  induction offers with
  | nil => rfl
  | cons offer rest ih =>
      rw [List.flatMap_cons, offer.pieces_eq, List.cons_append, List.find?_cons,
        namesScheme_start, List.find?_cons, earlierStrays, List.takeWhile_cons]
      cases isFor scheme offer with
      | true => rfl
      | false =>
          rw [List.find?_append, ih, ← Option.or_assoc, ← List.find?_append]
          rfl

theorem findChallenge_offers {response : ResponseHead} {lines : List (List ListElement)}
    {offers : List Offer} (h : Serialises lines offers)
    (hvalues : response.headerValues proxyAuthenticateField =
      lines.map fun line => utf8 (lineText line))
    (scheme : AuthScheme) :
    findChallenge response scheme =
      (((earlierStrays scheme offers).find? (namesScheme scheme)).or
        ((offers.find? (isFor scheme)).map Offer.start)).map challengeOfPiece := by
  have hitems : items response.headers proxyAuthenticateField =
      lines.flatMap fun line => (lineText line).splitOn ',' := by
    rw [items_eq, hvalues, List.flatMap_map]
    congr 1
    funext line
    rw [valueItems, fromUtf8_utf8]
  rw [findChallenge_eq, hitems,
    h.findSome?_pieces (ignoresBlanks_challengeOfItem scheme) rfl,
    findSome?_challengeOfItem, find?_pieces]

/-- The token of a challenge is the second word of its start. -/
theorem challengeOfPiece_start {offer : Offer} {token : Text} (h : offer.token68 = some token) :
    challengeOfPiece offer.start = ⟨some token⟩ := by
  rw [challengeOfPiece, Offer.splitWhitespace_start_of_token68 h]
  rfl

/-! ## The grammar is read -/

/-- What a reader of the grammar returns: a challenge exactly if one of the scheme
is offered, and the token of the first one if it has any. -/
structure ReadsOffers (response : ResponseHead) (offers : List Offer) (scheme : AuthScheme) :
    Prop where
  found : (findChallenge response scheme).isSome = true ↔
    ∃ offer ∈ offers, isFor scheme offer = true
  token : ∀ offer token, offers.find? (isFor scheme) = some offer → offer.token68 = some token →
    findChallenge response scheme = some ⟨some token⟩

/-- No piece before the first challenge of the scheme is mistaken for one; or the
first which is makes no difference, because the scheme is offered later, without
a token or with the same. -/
def Unmistakable (scheme : AuthScheme) (offers : List Offer) : Prop :=
  ∀ stray, (earlierStrays scheme offers).find? (namesScheme scheme) = some stray →
    ∃ offer, offers.find? (isFor scheme) = some offer ∧
      ∀ token, offer.token68 = some token → (splitWhitespace stray)[1]? = some token

/-- The grammar is read exactly where no piece is mistaken for a challenge. -/
theorem reads_offers_iff {response : ResponseHead} {lines : List (List ListElement)}
    {offers : List Offer} (h : Serialises lines offers)
    (hvalues : response.headerValues proxyAuthenticateField =
      lines.map fun line => utf8 (lineText line))
    (scheme : AuthScheme) :
    ReadsOffers response offers scheme ↔ Unmistakable scheme offers := by
  have hfound := findChallenge_offers h hvalues scheme
  have hoffered : (∃ offer ∈ offers, isFor scheme offer = true) ↔
      (offers.find? (isFor scheme)).isSome = true := by
    rw [List.isSome_find?, List.any_eq_true]
  unfold Unmistakable
  cases hstray : (earlierStrays scheme offers).find? (namesScheme scheme) with
  | none =>
      rw [hstray, Option.none_or] at hfound
      refine iff_of_true ⟨?_, ?_⟩ (fun stray h => by cases h)
      · rw [hoffered, hfound, Option.isSome_map, Option.isSome_map]
      · intro offer token hoffer htoken
        rw [hfound, hoffer, Option.map_some, Option.map_some, challengeOfPiece_start htoken]
  | some stray =>
      rw [hstray, Option.some_or, Option.map_some] at hfound
      -- the stray is returned, so the scheme has to be offered, with the stray's token
      constructor
      · intro hreads stray' hstray'
        obtain rfl := Option.some.inj hstray'
        have hsome : (offers.find? (isFor scheme)).isSome = true := by
          rw [← hoffered, ← hreads.found, hfound]
          rfl
        obtain ⟨offer, hoffer⟩ := Option.isSome_iff_exists.mp hsome
        refine ⟨offer, hoffer, ?_⟩
        intro token htoken
        have hreturned := hreads.token offer token hoffer htoken
        rw [hfound, Option.some_inj] at hreturned
        exact congrArg Challenge.token hreturned
      · intro hunmistakable
        obtain ⟨offer, hoffer, htoken⟩ := hunmistakable stray rfl
        refine ⟨?_, ?_⟩
        · rw [hoffered, hfound, hoffer]
          exact iff_of_true rfl rfl
        · intro offer' token hoffer' htoken'
          obtain rfl := Option.some.inj (hoffer.symm.trans hoffer')
          rw [hfound, challengeOfPiece, htoken token htoken']

/-! A `Digest` challenge whose realm has a comma, alone and before an `NTLM`
challenge. -/

private theorem noBlanks_isOws : ∀ c ∈ ([] : Text), isOws c = true := by simp

private def noBlanks : Blanks := ⟨[], noBlanks_isOws⟩

private theorem oneSpace_isOws : ∀ c ∈ [' '], isOws c = true := by decide

private def oneSpace : Blanks := ⟨[' '], oneSpace_isOws⟩

private theorem digest_isTchar :
    "Digest".toList ≠ [] ∧ ∀ c ∈ "Digest".toList, isTchar c = true := by
  decide

private theorem realm_isTchar : "realm".toList ≠ [] ∧ ∀ c ∈ "realm".toList, isTchar c = true := by
  decide

private theorem ntlm_isTchar : "ntlm".toList ≠ [] ∧ ∀ c ∈ "ntlm".toList, isTchar c = true := by
  decide

private theorem def_isToken68Char :
    "def".toList ≠ [] ∧ ∀ c ∈ "def".toList, isToken68Char c = true := by
  decide

private def digestOffer (realm : Text) (h : ∀ c ∈ realm, isQdtext c = true) : Offer :=
  ⟨⟨"Digest".toList, digest_isTchar.1, digest_isTchar.2⟩,
    .params 0 [⟨⟨"realm".toList, realm_isTchar.1, realm_isTchar.2⟩, noBlanks, noBlanks,
      .quoted (realm.pmap QuotedUnit.plain h)⟩]⟩

private def ntlmOffer : Offer :=
  ⟨⟨"ntlm".toList, ntlm_isTchar.1, ntlm_isTchar.2⟩,
    .token68 0 ⟨"def".toList, 1, def_isToken68Char.1, def_isToken68Char.2⟩⟩

private def challengeResponse (value : Text) : ResponseHead :=
  ⟨1, 407, [headerOfText "Proxy-Authenticate".toList value]⟩

private theorem harmless_isQdtext : ∀ c ∈ "x, y".toList, isQdtext c = true := by decide

private theorem misleading_isQdtext : ∀ c ∈ "x, NTLM abc".toList, isQdtext c = true := by
  decide

private def harmlessOffers : List Offer :=
  [digestOffer "x, y".toList harmless_isQdtext, ntlmOffer]

private def harmlessLines : List (List ListElement) :=
  [[⟨noBlanks, "Digest realm=\"x, y\"".toList, noBlanks⟩, ⟨oneSpace, "ntlm def=".toList, noBlanks⟩]]

private def misleadingOffers : List Offer :=
  [digestOffer "x, NTLM abc".toList misleading_isQdtext]

private def misleadingLines : List (List ListElement) :=
  [[⟨noBlanks, "Digest realm=\"x, NTLM abc\"".toList, noBlanks⟩]]

/-- The second of two challenges is found, in spite of the comma in the first. -/
theorem reads_offers_iff_harmless :
    ReadsOffers (challengeResponse "Digest realm=\"x, y\", ntlm def=".toList) harmlessOffers
      .ntlm := by
  have hlines : Serialises harmlessLines harmlessOffers := by
    unfold Serialises
    decide
  have hvalues : (challengeResponse "Digest realm=\"x, y\", ntlm def=".toList).headerValues
      proxyAuthenticateField = harmlessLines.map fun line => utf8 (lineText line) := by
    decide
  have hnone : (earlierStrays .ntlm harmlessOffers).find? (namesScheme .ntlm) = none := by
    decide
  refine (reads_offers_iff hlines hvalues .ntlm).mpr ?_
  intro stray hstray
  rw [hnone] at hstray
  cases hstray

/-- A realm is taken for an `NTLM` challenge, and `NTLM` is chosen, although only
`Digest` is offered. -/
theorem quoted_scheme_found :
    Serialises misleadingLines misleadingOffers ∧
      (challengeResponse "Digest realm=\"x, NTLM abc\"".toList).headerValues
        proxyAuthenticateField = misleadingLines.map (fun line => utf8 (lineText line)) ∧
      misleadingOffers.all (fun offer => !isFor .ntlm offer) = true ∧
      findChallenge (challengeResponse "Digest realm=\"x, NTLM abc\"".toList) .ntlm =
        some ⟨some "abc\"".toList⟩ ∧
      ((chooseScheme (challengeResponse "Digest realm=\"x, NTLM abc\"".toList) .auto).map
        Prod.fst).toOption = some .ntlm := by
  refine ⟨?_, ?_, ?_, ?_, ?_⟩
  · unfold Serialises
    decide
  · decide
  · decide
  · decide +kernel
  · decide +kernel

end Server
end Fastpx
