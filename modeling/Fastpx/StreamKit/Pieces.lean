import Fastpx.StreamKit.FieldList

/-!
# Pieces and words

How a comma split and a split into words react to changes of the text which do
not matter: white space at the ends of a piece, and the case of letters.

The comma split is described through an arbitrary function of the pieces.  If
the function does not see a change of single pieces, then it does not see the
corresponding change of the whole text (`map_splitOn_append`,
`map_splitOn_prepend`, `map_splitOn_lower`).
-/

namespace StreamKit

/-! ## Pieces -/

theorem splitOn_append_cons (sep : Char) (t u : Text) :
    (t ++ sep :: u).splitOn sep = t.splitOn sep ++ u.splitOn sep :=
  List.splitOnP_append_cons t u (beq_self_eq_true sep)

/-- Pieces of joined texts are the pieces of the texts. -/
theorem splitOn_intercalate_cons (sep : Char) (t : Text) (rest : List Text) :
    ([sep].intercalate (t :: rest)).splitOn sep = (t :: rest).flatMap (List.splitOn sep) := by
  induction rest generalizing t with
  | nil => simp
  | cons u rest ih =>
      have hjoin : [sep].intercalate (t :: u :: rest) =
          t ++ sep :: [sep].intercalate (u :: rest) := by
        simp [List.intercalate]
      rw [hjoin, splitOn_append_cons, ih, List.flatMap_cons (x := t)]

variable {β : Type*}

/-- What is added at the end is added to the last piece. -/
theorem map_splitOn_append {f : Text → β} {sep : Char} {blanks : Text} (hsep : sep ∉ blanks)
    (hf : ∀ piece, f (piece ++ blanks) = f piece) (t : Text) :
    ((t ++ blanks).splitOn sep).map f = (t.splitOn sep).map f := by
  induction hn : t.length using Nat.strong_induction_on generalizing t with
  | _ n ih =>
      by_cases hmem : sep ∈ t
      · obtain ⟨before, after, rfl, -⟩ := List.eq_append_cons_of_mem hmem
        have hlater := ih after.length (by rw [← hn]; simp; omega) after rfl
        rw [List.append_assoc, List.cons_append, splitOn_append_cons, splitOn_append_cons,
          List.map_append, List.map_append, hlater]
      · have hnone : sep ∉ t ++ blanks := by
          rw [List.mem_append]
          exact not_or_intro hmem hsep
        rw [List.splitOn_eq_singleton hnone, List.splitOn_eq_singleton hmem, List.map_singleton,
          List.map_singleton, hf]

/-- The first piece of a text, and what comes in front of it. -/
theorem splitOn_prepend (sep : Char) (t : Text) :
    ∃ first later, first <+: t ∧ sep ∉ first ∧
      ∀ front, sep ∉ front → (front ++ t).splitOn sep = (front ++ first) :: later := by
  by_cases hmem : sep ∈ t
  · obtain ⟨first, after, rfl, hnot⟩ := List.eq_append_cons_of_mem hmem
    refine ⟨first, after.splitOn sep, List.prefix_append first (sep :: after), hnot, ?_⟩
    intro front hfront
    have hboth : sep ∉ front ++ first := by
      rw [List.mem_append]
      exact not_or_intro hfront hnot
    rw [← List.append_assoc, List.splitOn_append_cons_self_of_not_mem hboth]
  · refine ⟨t, [], List.prefix_rfl, hmem, ?_⟩
    intro front hfront
    apply List.splitOn_eq_singleton
    rw [List.mem_append]
    exact not_or_intro hfront hmem

/-- What is added at the front is added to the first piece. -/
theorem map_splitOn_prepend {f : Text → β} {sep : Char} {blanks : Text} (hsep : sep ∉ blanks)
    (hf : ∀ piece, f (blanks ++ piece) = f piece) (t : Text) :
    ((blanks ++ t).splitOn sep).map f = (t.splitOn sep).map f := by
  obtain ⟨first, later, -, -, hsplit⟩ := splitOn_prepend sep t
  have hplain := hsplit [] List.not_mem_nil
  rw [List.nil_append, List.nil_append] at hplain
  rw [hsplit blanks hsep, hplain, List.map_cons, List.map_cons, hf]

/-- A function of pieces which ignores white space around them. -/
structure IgnoresBlanks (f : Text → β) : Prop where
  left : ∀ blanks piece, (∀ c ∈ blanks, isWhitespace c = true) → f (blanks ++ piece) = f piece
  right : ∀ blanks piece, (∀ c ∈ blanks, isWhitespace c = true) → f (piece ++ blanks) = f piece

theorem comma_not_mem_of_blank {blanks : Text} (h : ∀ c ∈ blanks, isWhitespace c = true) :
    ',' ∉ blanks := by
  intro hmem
  exact absurd (h ',' hmem) (by decide)

/-- White space around a comma-separated text is not seen. -/
theorem IgnoresBlanks.map_splitOn {f : Text → β} (hf : IgnoresBlanks f) {left right : Text}
    (hleft : ∀ c ∈ left, isWhitespace c = true) (hright : ∀ c ∈ right, isWhitespace c = true)
    (t : Text) : ((left ++ t ++ right).splitOn ',').map f = (t.splitOn ',').map f := by
  rw [map_splitOn_append (comma_not_mem_of_blank hright) fun piece => hf.right right piece hright,
    map_splitOn_prepend (comma_not_mem_of_blank hleft) fun piece => hf.left left piece hleft]

/-! ## Searches -/

theorem findSome?_eq_of_map_eq {α : Type*} {f : α → Option β} {l l' : List α}
    (h : l.map f = l'.map f) : l.findSome? f = l'.findSome? f := by
  have hmap : ∀ l : List α, l.findSome? f = (l.map f).findSome? id := by
    intro l
    rw [List.findSome?_map]
    rfl
  rw [hmap, hmap, h]

/-- Where nothing is found need not be searched. -/
theorem findSome?_filter {α : Type*} {f : α → Option β} {p : α → Bool}
    (h : ∀ x, p x = false → f x = none) (l : List α) :
    (l.filter p).findSome? f = l.findSome? f := by
  induction l with
  | nil => rfl
  | cons x rest ih =>
      cases hp : p x with
      | false =>
          rw [List.filter_cons_of_neg (Bool.not_eq_true _ ▸ hp), ih,
            List.findSome?_cons_of_isNone (h x hp ▸ rfl)]
      | true => rw [List.filter_cons_of_pos hp, List.findSome?_cons, List.findSome?_cons, ih]

/-- A search in texts made of pieces, text by text. -/
theorem findSome?_flatMap {α γ : Type*} (f : α → Option β) (g : γ → List α) (ts : List γ) :
    (ts.flatMap g).findSome? f = ts.findSome? fun t => (g t).findSome? f := by
  induction ts with
  | nil => rfl
  | cons t rest ih =>
      rw [List.flatMap_cons, List.findSome?_append, ih, List.findSome?_cons]
      cases (g t).findSome? f <;> rfl

/-! ## Words -/

theorem splitWhitespace_append_cons (t u : Text) {c : Char} (h : isWhitespace c = true) :
    splitWhitespace (t ++ c :: u) = splitWhitespace t ++ splitWhitespace u := by
  rw [splitWhitespace, List.splitOnP_append_cons t u h, List.filter_append]
  rfl

theorem splitWhitespace_blank {t : Text} (h : ∀ c ∈ t, isWhitespace c = true) :
    splitWhitespace t = [] := by
  induction t with
  | nil => rfl
  | cons c rest ih =>
      have hsplit := splitWhitespace_append_cons [] rest (h c List.mem_cons_self)
      rw [List.nil_append] at hsplit
      rw [hsplit, ih fun d hd => h d (List.mem_cons_of_mem c hd)]
      rfl

theorem splitWhitespace_append_blank (t : Text) {blanks : Text}
    (h : ∀ c ∈ blanks, isWhitespace c = true) :
    splitWhitespace (t ++ blanks) = splitWhitespace t := by
  cases blanks with
  | nil => rw [List.append_nil]
  | cons c rest =>
      rw [splitWhitespace_append_cons t rest (h c List.mem_cons_self),
        splitWhitespace_blank fun d hd => h d (List.mem_cons_of_mem c hd), List.append_nil]

theorem splitWhitespace_blank_append {blanks : Text} (h : ∀ c ∈ blanks, isWhitespace c = true)
    (t : Text) : splitWhitespace (blanks ++ t) = splitWhitespace t := by
  induction blanks with
  | nil => rfl
  | cons c rest ih =>
      have hsplit := splitWhitespace_append_cons [] (rest ++ t) (h c List.mem_cons_self)
      rw [List.nil_append] at hsplit
      rw [List.cons_append, hsplit, ih fun d hd => h d (List.mem_cons_of_mem c hd)]
      rfl

/-- A text without white space is one word. -/
theorem splitWhitespace_word {t : Text} (hne : t ≠ []) (h : ∀ c ∈ t, isWhitespace c = false) :
    splitWhitespace t = [t] := by
  rw [splitWhitespace, List.splitOnP_eq_singleton h]
  simp [hne]

/-- A word at the front, and what follows it after white space or not at all. -/
theorem splitWhitespace_word_append {t rest : Text} (hne : t ≠ [])
    (h : ∀ c ∈ t, isWhitespace c = false)
    (hrest : ∀ c, rest.head? = some c → isWhitespace c = true) :
    splitWhitespace (t ++ rest) = t :: splitWhitespace rest := by
  cases rest with
  | nil =>
      rw [List.append_nil, splitWhitespace_word hne h]
      rfl
  | cons c rest =>
      have hblank := hrest c rfl
      have hsplit := splitWhitespace_append_cons [] rest hblank
      rw [List.nil_append] at hsplit
      rw [splitWhitespace_append_cons t rest hblank, splitWhitespace_word hne h, hsplit]
      rfl

/-! ## Trimming -/

theorem trim_append_blank (t : Text) {blanks : Text} (h : ∀ c ∈ blanks, isWhitespace c = true) :
    trim (t ++ blanks) = trim t := by
  by_cases hall : ∀ c ∈ t, isWhitespace c = true
  · have hboth : ∀ c ∈ t ++ blanks, isWhitespace c = true := by
      intro c hc
      exact (List.mem_append.mp hc).elim (hall c) (h c)
    rw [trim, trim, List.dropWhile_eq_nil_iff.mpr hboth, List.dropWhile_eq_nil_iff.mpr hall]
  · have hdrop : (t ++ blanks).dropWhile isWhitespace = t.dropWhile isWhitespace ++ blanks := by
      rw [List.dropWhile_append, if_neg]
      simpa [List.isEmpty_iff, List.dropWhile_eq_nil_iff] using hall
    rw [trim, trim, hdrop, List.rdropWhile, List.reverse_append,
      List.dropWhile_append_of_pos (by simpa using h), ← List.rdropWhile]

theorem trim_blank_append {blanks : Text} (h : ∀ c ∈ blanks, isWhitespace c = true) (t : Text) :
    trim (blanks ++ t) = trim t := by
  rw [trim, trim, List.dropWhile_append_of_pos h]

/-! ## Case -/

/-- Lower case of the ASCII letters. -/
def lower (t : Text) : Text := t.map Char.toLower

theorem eqIgnoreAsciiCase_iff {t u : Text} : eqIgnoreAsciiCase t u = true ↔ lower t = lower u :=
  beq_iff_eq

/-- Only letters have another lower case, and it is a letter. -/
theorem toLower_cases (c : Char) :
    c.toLower = c ∨ (65 ≤ c.toNat ∧ c.toNat ≤ 90) ∧ c.toLower.toNat = c.toNat + 32 := by
  unfold Char.toLower
  split
  · next h =>
      have hrange : 65 ≤ c.toNat ∧ c.toNat ≤ 90 :=
        ⟨UInt32.le_iff_toNat_le.mp h.1, UInt32.le_iff_toNat_le.mp h.2⟩
      refine Or.inr ⟨hrange, ?_⟩
      have hsum : (c.val + ('a'.val - 'A'.val)).toNat = (c.val.toNat + 32) % 2 ^ 32 :=
        UInt32.toNat_add _ _
      have hcode : c.val.toNat = c.toNat := rfl
      show (c.val + ('a'.val - 'A'.val)).toNat = c.toNat + 32
      rw [hsum, hcode, Nat.mod_eq_of_lt (by omega)]
  · exact Or.inl rfl

theorem isWhitespace_toLower (c : Char) : isWhitespace c.toLower = isWhitespace c := by
  rcases toLower_cases c with h | ⟨hrange, hlower⟩
  · rw [h]
  · unfold isWhitespace
    rw [hlower, Bool.eq_iff_iff]
    simp only [Bool.or_eq_true, Bool.and_eq_true, decide_eq_true_eq, beq_iff_eq]
    omega

/-- A character which is no letter is not made by changing the case. -/
theorem toLower_eq_iff {c sep : Char} (hsep : sep.toNat < 65) : c.toLower = sep ↔ c = sep := by
  rcases toLower_cases c with h | ⟨hrange, hlower⟩
  · rw [h]
  · constructor
    · rintro rfl
      omega
    · rintro rfl
      omega

theorem trim_lower (t : Text) : trim (lower t) = lower (trim t) := by
  have hcomp : isWhitespace ∘ Char.toLower = isWhitespace := funext isWhitespace_toLower
  rw [trim, trim, lower, lower, List.dropWhile_map, hcomp, List.rdropWhile, List.rdropWhile,
    ← List.map_reverse, List.dropWhile_map, hcomp, ← List.map_reverse]

theorem splitOn_lower {sep : Char} (hsep : sep.toNat < 65) (t : Text) :
    (lower t).splitOn sep = (t.splitOn sep).map lower := by
  have hmem : ∀ u : Text, sep ∈ lower u ↔ sep ∈ u := by
    intro u
    simp [lower, toLower_eq_iff hsep]
  have hself : sep.toLower = sep := (toLower_eq_iff hsep).mpr rfl
  induction hn : t.length using Nat.strong_induction_on generalizing t with
  | _ n ih =>
      by_cases hin : sep ∈ t
      · obtain ⟨before, after, rfl, hnot⟩ := List.eq_append_cons_of_mem hin
        have hlater := ih after.length (by rw [← hn]; simp; omega) after rfl
        rw [lower, List.map_append, List.map_cons, hself, ← lower, ← lower,
          List.splitOn_append_cons_self_of_not_mem (fun h => hnot ((hmem before).mp h)),
          List.splitOn_append_cons_self_of_not_mem hnot, hlater, List.map_cons]
      · rw [List.splitOn_eq_singleton (fun h => hin ((hmem t).mp h)),
          List.splitOn_eq_singleton hin, List.map_singleton]

/-- A function which does not see the case of a piece does not see that of a
text. -/
theorem map_splitOn_lower {f : Text → β} {sep : Char} (hsep : sep.toNat < 65)
    (hf : ∀ p q, lower p = lower q → f p = f q) {t u : Text} (h : lower t = lower u) :
    (t.splitOn sep).map f = (u.splitOn sep).map f := by
  have hpieces : (t.splitOn sep).map lower = (u.splitOn sep).map lower := by
    rw [← splitOn_lower hsep, ← splitOn_lower hsep, h]
  generalize t.splitOn sep = ps at hpieces ⊢
  generalize u.splitOn sep = qs at hpieces ⊢
  induction ps generalizing qs with
  | nil => cases qs with
    | nil => rfl
    | cons q qs => cases hpieces
  | cons p ps ih => cases qs with
    | nil => cases hpieces
    | cons q qs =>
        obtain ⟨hhead, htail⟩ := List.cons.inj hpieces
        rw [List.map_cons, List.map_cons, hf p q hhead, ih qs htail]

end StreamKit
