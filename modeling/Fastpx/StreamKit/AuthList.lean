import Fastpx.StreamKit.Pieces

/-!
# Lists of authentication challenges

The grammar of a challenge list in HTTP header fields: a challenge is a scheme
name, alone or followed by a token68 or by parameters, and both challenges and
parameters are separated by commas.  A list is written as any number of lines;
list elements may be empty and may have blanks around them (`Serialises`).

A reader which cuts the lines at commas does not see the challenges but their
`pieces`: commas stand between parameters and in quoted strings as well.
`Serialises.findSome?_pieces` says that such a reader sees nothing else.
-/

namespace StreamKit

/-! ## Characters -/

/-- A character of a token. -/
def isTchar (c : Char) : Bool :=
  c.isAlphanum || "!#$%&'*+-.^_`|~".toList.contains c

/-- A character of a token68, padding apart. -/
def isToken68Char (c : Char) : Bool :=
  c.isAlphanum || "-._~+/".toList.contains c

/-- A character which stands for itself in a quoted string. -/
def isQdtext (c : Char) : Bool :=
  isOws c || (0x21 ≤ c.toNat && c ≠ '"' && c ≠ '\\' && c.toNat ≠ 0x7f)

/-- A character which may be quoted by a backslash. -/
def isQuotable (c : Char) : Bool :=
  isOws c || (0x21 ≤ c.toNat && c.toNat ≠ 0x7f)

/-! ## Syntax -/

/-- Optional white space. -/
structure Blanks where
  text : Text
  isOws : ∀ c ∈ text, isOws c = true

structure Token where
  text : Text
  ne_nil : text ≠ []
  isTchar : ∀ c ∈ text, isTchar c = true

structure Token68 where
  body : Text
  padding : Nat
  ne_nil : body ≠ []
  isToken68Char : ∀ c ∈ body, isToken68Char c = true

def Token68.text (token : Token68) : Text :=
  token.body ++ List.replicate token.padding '='

/-- A unit of a quoted string. -/
inductive QuotedUnit where
  | plain (c : Char) (h : isQdtext c = true)
  | pair (c : Char) (h : isQuotable c = true)

def QuotedUnit.text : QuotedUnit → Text
  | .plain c _ => [c]
  | .pair c _ => ['\\', c]

inductive ParamValue where
  | token (word : Token)
  | quoted (units : List QuotedUnit)

def ParamValue.text : ParamValue → Text
  | .token word => word.text
  | .quoted units => '"' :: units.flatMap QuotedUnit.text ++ ['"']

/-- A parameter: a name and a value, with blanks around the equals sign. -/
structure AuthParam where
  name : Token
  left : Blanks
  right : Blanks
  value : ParamValue

def AuthParam.text (param : AuthParam) : Text :=
  param.name.text ++ param.left.text ++ '=' :: (param.right.text ++ param.value.text)

/-- What follows a scheme name, after `spaces + 1` spaces. -/
inductive OfferContent where
  | bare
  | token68 (spaces : Nat) (token : Token68)
  | params (spaces : Nat) (params : List AuthParam)

/-- A challenge, as the server offers it. -/
structure Offer where
  scheme : Token
  content : OfferContent

namespace Offer

def token68 (offer : Offer) : Option Text :=
  match offer.content with
  | .token68 _ token => some token.text
  | _ => none

/-- What stands in the list element of the scheme name behind it. -/
def afterScheme (offer : Offer) : Text :=
  match offer.content with
  | .bare => []
  | .token68 spaces token => List.replicate (spaces + 1) ' ' ++ token.text
  | .params spaces params =>
      List.replicate (spaces + 1) ' ' ++ (params.head?.map AuthParam.text).getD []

/-- The parameters which are list elements of their own. -/
def laterParams (offer : Offer) : List AuthParam :=
  match offer.content with
  | .params _ params => params.tail
  | _ => []

/-- The list elements of a challenge. -/
def elements (offer : Offer) : List Text :=
  (offer.scheme.text ++ offer.afterScheme) :: offer.laterParams.map AuthParam.text

/-- What is left of a challenge after cutting at every comma. -/
def pieces (offer : Offer) : List Text :=
  offer.elements.flatMap (List.splitOn ',')

end Offer

/-- A list element with the blanks around it; the text may be empty. -/
structure ListElement where
  left : Blanks
  text : Text
  right : Blanks

def ListElement.written (element : ListElement) : Text :=
  element.left.text ++ element.text ++ element.right.text

/-- The text of a line. -/
def lineText (line : List ListElement) : Text :=
  [','].intercalate (line.map ListElement.written)

/-- Empty elements apart, the lines hold the elements of the challenges. -/
def Serialises (lines : List (List ListElement)) (offers : List Offer) : Prop :=
  (lines.flatten.map ListElement.text).filter (fun text => !text.isEmpty) =
    offers.flatMap Offer.elements

/-! ## Tokens have neither blanks nor commas -/

theorem isAlphanum_range {c : Char} (h : c.isAlphanum = true) :
    48 ≤ c.toNat ∧ c.toNat ≤ 122 := by
  have hnat : ∀ low high : UInt32, low ≤ c.val ∧ c.val ≤ high →
      low.toNat ≤ c.toNat ∧ c.toNat ≤ high.toNat := by
    intro low high hrange
    exact hrange.imp UInt32.le_iff_toNat_le.mp UInt32.le_iff_toNat_le.mp
  rcases Bool.or_eq_true_iff.mp h with hletter | hdigit
  · rcases Bool.or_eq_true_iff.mp hletter with hupper | hlower
    · have hrange : 65 ≤ c.toNat ∧ c.toNat ≤ 90 := hnat 65 90 (of_decide_eq_true hupper)
      omega
    · have hrange : 97 ≤ c.toNat ∧ c.toNat ≤ 122 := hnat 97 122
        ((Bool.and_eq_true_iff.mp hlower).imp of_decide_eq_true of_decide_eq_true)
      omega
  · have hrange : 48 ≤ c.toNat ∧ c.toNat ≤ 57 := hnat 48 57
      ((Bool.and_eq_true_iff.mp hdigit).imp of_decide_eq_true of_decide_eq_true)
    omega

/-- A character which is no blank and no comma. -/
def IsInner (c : Char) : Prop := isWhitespace c = false ∧ c ≠ ','

theorem isInner_of_isAlphanum {c : Char} (h : c.isAlphanum = true) : IsInner c := by
  have hrange := isAlphanum_range h
  constructor
  · unfold isWhitespace
    simp only [Bool.or_eq_false_iff, Bool.and_eq_false_iff, decide_eq_false_iff_not,
      beq_eq_false_iff_ne]
    omega
  · rintro rfl
    have hcode : ','.toNat = 44 := rfl
    omega

theorem isInner_of_isTchar {c : Char} (h : isTchar c = true) : IsInner c := by
  rcases Bool.or_eq_true_iff.mp h with hletter | hmark
  · exact isInner_of_isAlphanum hletter
  · have hmarks : ∀ d ∈ "!#$%&'*+-.^_`|~".toList, isWhitespace d = false ∧ d ≠ ',' := by
      decide
    exact hmarks c (List.contains_iff_mem.mp hmark)

theorem isInner_of_isToken68Char {c : Char} (h : isToken68Char c = true) : IsInner c := by
  rcases Bool.or_eq_true_iff.mp h with hletter | hmark
  · exact isInner_of_isAlphanum hletter
  · have hmarks : ∀ d ∈ "-._~+/".toList, isWhitespace d = false ∧ d ≠ ',' := by
      decide
    exact hmarks c (List.contains_iff_mem.mp hmark)

theorem Token.isInner (token : Token) : ∀ c ∈ token.text, IsInner c :=
  fun c hc => isInner_of_isTchar (token.isTchar c hc)

theorem Token68.isInner (token : Token68) : ∀ c ∈ token.text, IsInner c := by
  intro c hc
  rcases List.mem_append.mp hc with hbody | hpadding
  · exact isInner_of_isToken68Char (token.isToken68Char c hbody)
  · rw [List.eq_of_mem_replicate hpadding]
    exact ⟨by decide, by decide⟩

theorem Token68.text_ne_nil (token : Token68) : token.text ≠ [] :=
  List.append_ne_nil_of_left_ne_nil token.ne_nil _

/-! ## Pieces of a challenge -/

namespace Offer

theorem afterScheme_head? {offer : Offer} {c : Char} (h : offer.afterScheme.head? = some c) :
    isWhitespace c = true := by
  have hspace : ∀ (spaces : Nat) (rest : Text),
      (List.replicate (spaces + 1) ' ' ++ rest).head? = some ' ' := fun _ _ => rfl
  have hblank : isWhitespace ' ' = true := by decide
  unfold afterScheme at h
  cases hcontent : offer.content with
  | bare => simp [hcontent] at h
  | token68 spaces token =>
      rw [hcontent, hspace] at h
      exact Option.some.inj h ▸ hblank
  | params spaces params =>
      rw [hcontent, hspace] at h
      exact Option.some.inj h ▸ hblank

/-- The piece which starts the challenge. -/
def start (offer : Offer) : Text := offer.pieces.headD []

/-- The pieces which do not start a challenge: what follows a comma in a quoted
string, and the later parameters. -/
def strays (offer : Offer) : List Text := offer.pieces.tail

theorem exists_pieces_eq (offer : Offer) :
    ∃ first later, first <+: offer.afterScheme ∧
      offer.pieces = (offer.scheme.text ++ first) :: later := by
  obtain ⟨first, later, hpre, -, hsplit⟩ := splitOn_prepend ',' offer.afterScheme
  have hcomma : ',' ∉ offer.scheme.text := fun h => (offer.scheme.isInner ',' h).2 rfl
  refine ⟨first, later ++ (offer.laterParams.map AuthParam.text).flatMap (List.splitOn ','), hpre,
    ?_⟩
  rw [pieces, elements, List.flatMap_cons, hsplit _ hcomma, List.cons_append]

theorem pieces_eq (offer : Offer) : offer.pieces = offer.start :: offer.strays := by
  obtain ⟨first, later, -, hpieces⟩ := offer.exists_pieces_eq
  rw [start, strays, hpieces]
  rfl

/-- The words of the start of a challenge: the scheme name comes first. -/
theorem splitWhitespace_start (offer : Offer) :
    ∃ words, splitWhitespace offer.start = offer.scheme.text :: words := by
  obtain ⟨first, later, ⟨tail, htail⟩, hpieces⟩ := offer.exists_pieces_eq
  have hblank : ∀ c, first.head? = some c → isWhitespace c = true := by
    intro c hc
    apply offer.afterScheme_head?
    rw [← htail, List.head?_append, hc]
    rfl
  refine ⟨splitWhitespace first, ?_⟩
  rw [start, hpieces]
  exact splitWhitespace_word_append offer.scheme.ne_nil
    (fun c hc => (offer.scheme.isInner c hc).1) hblank

/-- A token68 comes second. -/
theorem splitWhitespace_start_of_token68 {offer : Offer} {token : Text}
    (h : offer.token68 = some token) :
    splitWhitespace offer.start = [offer.scheme.text, token] := by
  unfold token68 at h
  split at h
  · next spaces written hcontent =>
      obtain rfl := Option.some.inj h
      have hafter : offer.afterScheme = ' ' :: (List.replicate spaces ' ' ++ written.text) := by
        rw [afterScheme, hcontent]
        rfl
      have hcomma : ',' ∉ offer.scheme.text ++ offer.afterScheme := by
        rw [hafter]
        intro hmem
        rcases List.mem_append.mp hmem with hmem | hmem
        · exact (offer.scheme.isInner ',' hmem).2 rfl
        rcases List.mem_cons.mp hmem with hmem | hmem
        · exact absurd hmem (by decide)
        rcases List.mem_append.mp hmem with hmem | hmem
        · exact absurd (List.eq_of_mem_replicate hmem) (by decide)
        · exact (written.isInner ',' hmem).2 rfl
      have hstart : offer.start = offer.scheme.text ++ offer.afterScheme := by
        rw [start, pieces, elements, List.flatMap_cons, List.splitOn_eq_singleton hcomma]
        rfl
      have hspaces : ∀ c ∈ List.replicate spaces ' ', isWhitespace c = true := by
        intro c hc
        rw [List.eq_of_mem_replicate hc]
        decide
      rw [hstart, hafter, splitWhitespace_append_cons _ _ (by decide),
        splitWhitespace_word offer.scheme.ne_nil (fun c hc => (offer.scheme.isInner c hc).1),
        splitWhitespace_blank_append hspaces,
        splitWhitespace_word written.text_ne_nil (fun c hc => (written.isInner c hc).1)]
      rfl
  · cases h

end Offer

/-! ## Reading piece by piece -/

section
variable {β : Type*} {f : Text → Option β}

theorem findSome?_written (hf : IgnoresBlanks f) (element : ListElement) :
    (element.written.splitOn ',').findSome? f = (element.text.splitOn ',').findSome? f :=
  findSome?_eq_of_map_eq (hf.map_splitOn
    (fun c hc => isWhitespace_of_isOws (element.left.isOws c hc))
    (fun c hc => isWhitespace_of_isOws (element.right.isOws c hc)) element.text)

theorem findSome?_lineText (hf : IgnoresBlanks f) (hempty : f [] = none)
    (line : List ListElement) :
    ((lineText line).splitOn ',').findSome? f =
      line.findSome? fun element => (element.text.splitOn ',').findSome? f := by
  cases line with
  | nil =>
      show [[]].findSome? f = none
      rw [List.findSome?_singleton, hempty]
  | cons element rest =>
      rw [lineText, List.map_cons, splitOn_intercalate_cons, ← List.map_cons, findSome?_flatMap,
        List.findSome?_map]
      congr 1
      funext element
      exact findSome?_written hf element

/-- A reader which cuts at commas sees the pieces of the challenges, whatever the
lines are. -/
theorem Serialises.findSome?_pieces {lines : List (List ListElement)} {offers : List Offer}
    (h : Serialises lines offers) (hf : IgnoresBlanks f) (hempty : f [] = none) :
    (lines.flatMap fun line => (lineText line).splitOn ',').findSome? f =
      (offers.flatMap Offer.pieces).findSome? f := by
  let g : Text → Option β := fun text => (text.splitOn ',').findSome? f
  have hskip : ∀ text : Text, (!text.isEmpty) = false → g text = none := by
    intro text htext
    have hnil : text = [] := by simpa using htext
    rw [hnil]
    show [[]].findSome? f = none
    rw [List.findSome?_singleton, hempty]
  calc (lines.flatMap fun line => (lineText line).splitOn ',').findSome? f
      = lines.findSome? fun line => line.findSome? fun element => g element.text := by
        rw [findSome?_flatMap]
        congr 1
        funext line
        exact findSome?_lineText hf hempty line
    _ = (lines.flatten.map ListElement.text).findSome? g := by
        rw [List.findSome?_map, ← List.flatMap_id, findSome?_flatMap]
        rfl
    _ = (offers.flatMap Offer.elements).findSome? g := by
        rw [← findSome?_filter hskip, h]
    _ = (offers.flatMap Offer.pieces).findSome? f := by
        rw [findSome?_flatMap, findSome?_flatMap]
        congr 1
        funext offer
        exact (findSome?_flatMap f _ offer.elements).symm

end

end StreamKit
