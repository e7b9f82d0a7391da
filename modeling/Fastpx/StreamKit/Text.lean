import Mathlib.Data.List.DropRight
import Fastpx.StreamKit.Utf8

/-!
# Text operations

The string operations of the standard library which protocol code applies to
decoded texts: trimming and splitting at Unicode white space, comparison up to
ASCII case, splitting at the first or last separator, and the parser and the
decimal display of unsigned integers.

The integer parser follows `from_str_radix`: an optional `+`, then at least
one digit, with the overflow test made after every digit.  Its meaning is
stated once, in `parseDigits_eq_ok_iff`, through the positional value
`digitsValue`.
-/

namespace StreamKit

/-! ## White space and case -/

/-- The Unicode property `White_Space`. -/
def isWhitespace (c : Char) : Bool :=
  let n := c.toNat
  (0x09 ≤ n && n ≤ 0x0D) || n == 0x20 || n == 0x85 || n == 0xA0 || n == 0x1680 ||
    (0x2000 ≤ n && n ≤ 0x200A) || n == 0x2028 || n == 0x2029 || n == 0x202F ||
    n == 0x205F || n == 0x3000

/-- The text without white space at either end. -/
def trim (t : Text) : Text :=
  (t.dropWhile isWhitespace).rdropWhile isWhitespace

/-- The non-empty words between runs of white space. -/
def splitWhitespace (t : Text) : List Text :=
  (t.splitOnP isWhitespace).filter (· ≠ [])

/-- Equality up to the case of ASCII letters. -/
def eqIgnoreAsciiCase (a b : Text) : Bool :=
  a.map Char.toLower == b.map Char.toLower

/-- Trimming removes white space up to the first and the last other
character. -/
theorem trim_eq_of_ends {core right : Text} (left : Text)
    (hleft : ∀ c ∈ left, isWhitespace c = true) (hright : ∀ c ∈ right, isWhitespace c = true)
    (hne : core ≠ [])
    (hhead : isWhitespace (core.head hne) = false)
    (hlast : isWhitespace (core.getLast hne) = false) :
    trim (left ++ core ++ right) = core := by
  obtain ⟨c, cs, rfl⟩ := List.exists_cons_of_ne_nil hne
  have hdrop : (left ++ c :: cs ++ right).dropWhile isWhitespace = c :: cs ++ right := by
    rw [List.append_assoc, List.dropWhile_append_of_pos hleft, List.cons_append,
      List.dropWhile_cons_of_neg (by simpa using hhead)]
  have hrdrop : (c :: cs ++ right).rdropWhile isWhitespace = c :: cs := by
    rw [List.rdropWhile, List.reverse_append, List.dropWhile_append_of_pos
      (by simpa using hright), ← List.rdropWhile, List.rdropWhile_eq_self_iff]
    intro hne'
    simpa using hlast
  rw [trim, hdrop, hrdrop]

/-! ## Splitting at the first or the last separator -/

/-- The parts before and after the first occurrence of `sep`. -/
def splitOnce (sep : Char) : Text → Option (Text × Text)
  | [] => none
  | c :: rest =>
      if c = sep then some ([], rest)
      else (splitOnce sep rest).map fun parts => (c :: parts.1, parts.2)

/-- The split at the first separator is the one whose first part has none. -/
theorem splitOnce_eq_some_iff {sep : Char} {t before after : Text} :
    splitOnce sep t = some (before, after) ↔ t = before ++ sep :: after ∧ sep ∉ before := by
  induction t generalizing before with
  | nil => simp [splitOnce]
  | cons c rest ih =>
      rw [splitOnce]
      by_cases hc : c = sep
      · subst hc
        rw [if_pos rfl]
        cases before with
        | nil => simp [eq_comm]
        | cons d before =>
            simp only [Option.some.injEq, Prod.mk.injEq, List.nil_eq, reduceCtorEq, false_and,
              List.cons_append, List.cons.injEq, List.mem_cons, false_iff, not_and, not_not]
            exact fun h => Or.inl h.1
      · rw [if_neg hc]
        cases before with
        | nil => simp [hc]
        | cons d before =>
            simp only [Option.map_eq_some_iff, Prod.exists, Prod.mk.injEq, List.cons.injEq,
              List.cons_append, List.mem_cons, not_or]
            constructor
            · rintro ⟨a, b, hsplit, ⟨rfl, rfl⟩, rfl⟩
              obtain ⟨hrest, hnot⟩ := ih.mp hsplit
              exact ⟨⟨rfl, hrest⟩, Ne.symm hc, hnot⟩
            · rintro ⟨⟨rfl, hrest⟩, -, hnot⟩
              exact ⟨before, after, ih.mpr ⟨hrest, hnot⟩, ⟨rfl, rfl⟩, rfl⟩

theorem splitOnce_eq_none_iff {sep : Char} {t : Text} : splitOnce sep t = none ↔ sep ∉ t := by
  induction t with
  | nil => simp [splitOnce]
  | cons c rest ih =>
      rw [splitOnce]
      by_cases hc : c = sep
      · simp [hc]
      · simp [hc, ih, Ne.symm hc]

/-- The parts before and after the last occurrence of `sep`. -/
def rsplitOnce (sep : Char) : Text → Option (Text × Text)
  | [] => none
  | c :: rest =>
      match rsplitOnce sep rest with
      | some (before, after) => some (c :: before, after)
      | none => if c = sep then some ([], rest) else none

theorem rsplitOnce_eq_none_iff {sep : Char} {t : Text} :
    rsplitOnce sep t = none ↔ sep ∉ t := by
  induction t with
  | nil => simp [rsplitOnce]
  | cons c rest ih =>
      rw [rsplitOnce]
      cases h : rsplitOnce sep rest with
      | some parts =>
          have hmem : sep ∈ rest := by
            by_contra hnot
            rw [ih.mpr hnot] at h
            cases h
          simp [hmem]
      | none =>
          have hnot := ih.mp h
          by_cases hc : c = sep
          · simp [hc]
          · simp [hc, hnot, Ne.symm hc]

/-- The split at the last separator is the one whose second part has none. -/
theorem rsplitOnce_eq_some_iff {sep : Char} {t before after : Text} :
    rsplitOnce sep t = some (before, after) ↔ t = before ++ sep :: after ∧ sep ∉ after := by
  constructor
  · intro h
    induction t generalizing before after with
    | nil => simp [rsplitOnce] at h
    | cons c rest ih =>
        rw [rsplitOnce] at h
        cases hrest : rsplitOnce sep rest with
        | some parts =>
            obtain ⟨before', after'⟩ := parts
            rw [hrest] at h
            obtain ⟨rfl, rfl⟩ := Prod.mk.inj (Option.some.inj h)
            obtain ⟨hsplit, hnot⟩ := ih hrest
            exact ⟨by rw [hsplit]; rfl, hnot⟩
        | none =>
            rw [hrest] at h
            by_cases hc : c = sep
            · simp only [hc, if_true, Option.some.injEq, Prod.mk.injEq] at h
              obtain ⟨rfl, rfl⟩ := h
              exact ⟨by rw [hc]; rfl, rsplitOnce_eq_none_iff.mp hrest⟩
            · simp [hc] at h
  · rintro ⟨rfl, hnot⟩
    induction before with
    | nil => simp [rsplitOnce, rsplitOnce_eq_none_iff.mpr hnot]
    | cons c rest ih => simp [rsplitOnce, ih]

/-- The first piece of a split is what stands before the first separator. -/
theorem head?_splitOn (sep : Char) (t : Text) :
    (t.splitOn sep).head? = some (t.takeWhile (· ≠ sep)) := by
  by_cases hmem : sep ∈ t
  · obtain ⟨before, after, rfl, hnot⟩ := List.eq_append_cons_of_mem hmem
    have hbefore : ∀ c ∈ before, decide (c ≠ sep) = true := by
      intro c hc
      exact decide_eq_true fun heq => hnot (heq ▸ hc)
    rw [List.splitOn_append_cons_self_of_not_mem hnot, List.takeWhile_append_of_pos hbefore,
      List.takeWhile_cons_of_neg (by simp), List.append_nil]
    rfl
  · have hall : ∀ c ∈ t, decide (c ≠ sep) = true := by
      intro c hc
      exact decide_eq_true fun heq => hmem (heq ▸ hc)
    rw [List.splitOn_eq_singleton hmem, List.takeWhile_eq_self_iff.mpr hall]
    rfl

/-! ## Unsigned integers -/

/-- Why an integer was refused. -/
inductive IntErrorKind where
  | empty
  | invalidDigit
  | posOverflow
  deriving DecidableEq, Repr

def IntErrorKind.display : IntErrorKind → Text
  | .empty => "cannot parse integer from empty string".toList
  | .invalidDigit => "invalid digit found in string".toList
  | .posOverflow => "number too large to fit in target type".toList

/-- The value of a digit in base `radix`: `0`-`9`, then `a`-`z` or `A`-`Z`. -/
def toDigit (radix : Nat) (c : Char) : Option Nat :=
  let value :=
    if 48 ≤ c.toNat ∧ c.toNat ≤ 57 then c.toNat - 48
    else if 97 ≤ c.toNat ∧ c.toNat ≤ 122 then c.toNat - 87
    else if 65 ≤ c.toNat ∧ c.toNat ≤ 90 then c.toNat - 55
    else radix
  if value < radix then some value else none

/-- Digits are ASCII letters and decimal digits, whatever the base. -/
theorem range_of_toDigit {radix : Nat} {c : Char} (h : (toDigit radix c).isSome) :
    (48 ≤ c.toNat ∧ c.toNat ≤ 57) ∨ (97 ≤ c.toNat ∧ c.toNat ≤ 122) ∨
      (65 ≤ c.toNat ∧ c.toNat ≤ 90) := by
  by_contra hnone
  have hdigit : ¬ (48 ≤ c.toNat ∧ c.toNat ≤ 57) := fun hc => hnone (Or.inl hc)
  have hlower : ¬ (97 ≤ c.toNat ∧ c.toNat ≤ 122) := fun hc => hnone (Or.inr (Or.inl hc))
  have hupper : ¬ (65 ≤ c.toNat ∧ c.toNat ≤ 90) := fun hc => hnone (Or.inr (Or.inr hc))
  simp [toDigit, if_neg hdigit, if_neg hlower, if_neg hupper] at h

/-- The decimal digits. -/
theorem isSome_toDigit_ten_iff {c : Char} :
    (toDigit 10 c).isSome = true ↔ 48 ≤ c.toNat ∧ c.toNat ≤ 57 := by
  constructor
  · intro h
    unfold toDigit at h
    grind
  · intro h
    have hlt : c.toNat - 48 < 10 := by omega
    simp [toDigit, h, hlt]

/-- A digit is not white space. -/
theorem isWhitespace_eq_false_of_toDigit {radix : Nat} {c : Char}
    (h : (toDigit radix c).isSome) : isWhitespace c = false := by
  have hrange := range_of_toDigit h
  simp only [isWhitespace, Bool.or_eq_false_iff, Bool.and_eq_false_iff,
    decide_eq_false_iff_not, beq_eq_false_iff_ne]
  omega

/-- A digit differs from every character outside the alphanumeric ranges. -/
theorem ne_of_toDigit {radix : Nat} {c d : Char} (h : (toDigit radix c).isSome)
    (hd : d.toNat < 48 ∨ 57 < d.toNat ∧ d.toNat < 65) : c ≠ d := by
  rintro rfl
  have hrange := range_of_toDigit h
  omega

/-- Accumulate digits, refusing a value above `maximum` as soon as it occurs. -/
def parseDigits (radix maximum : Nat) : Nat → Text → Except IntErrorKind Nat
  | acc, [] => .ok acc
  | acc, c :: rest =>
      match toDigit radix c with
      | none => .error .invalidDigit
      | some d =>
          if acc * radix + d ≤ maximum then parseDigits radix maximum (acc * radix + d) rest
          else .error .posOverflow

/-- Parse an unsigned integer of at most `maximum`: an optional plus sign,
then digits. -/
def fromStrRadix (maximum radix : Nat) (src : Text) : Except IntErrorKind Nat :=
  match src with
  | [] => .error .empty
  | ['+'] => .error .invalidDigit
  | ['-'] => .error .invalidDigit
  | '+' :: digits => parseDigits radix maximum 0 digits
  | digits => parseDigits radix maximum 0 digits

/-- The positional value of a digit text, continuing from `acc`. -/
def digitsValue (radix : Nat) (acc : Nat) (digits : Text) : Nat :=
  digits.foldl (fun acc c => acc * radix + (toDigit radix c).getD 0) acc

@[simp] theorem digitsValue_nil (radix acc : Nat) : digitsValue radix acc [] = acc := rfl

@[simp] theorem digitsValue_cons (radix acc : Nat) (c : Char) (rest : Text) :
    digitsValue radix acc (c :: rest) =
      digitsValue radix (acc * radix + (toDigit radix c).getD 0) rest := rfl

theorem le_digitsValue {radix : Nat} (hradix : 0 < radix) (acc : Nat) (digits : Text) :
    acc ≤ digitsValue radix acc digits := by
  induction digits generalizing acc with
  | nil => exact Nat.le_refl _
  | cons c rest ih =>
      rw [digitsValue_cons]
      calc
        acc ≤ acc * radix := Nat.le_mul_of_pos_right acc hradix
        _ ≤ acc * radix + (toDigit radix c).getD 0 := Nat.le_add_right _ _
        _ ≤ _ := ih _

/-- Parsing succeeds exactly on digits whose value fits, and returns it. -/
theorem parseDigits_eq_ok_iff {radix maximum acc n : Nat} {digits : Text}
    (hradix : 0 < radix) (hacc : acc ≤ maximum) :
    parseDigits radix maximum acc digits = .ok n ↔
      (∀ c ∈ digits, (toDigit radix c).isSome) ∧
        n = digitsValue radix acc digits ∧ n ≤ maximum := by
  induction digits generalizing acc with
  | nil =>
      simp only [parseDigits, Except.ok.injEq, digitsValue_nil]
      constructor
      · rintro rfl
        exact ⟨by simp, rfl, hacc⟩
      · rintro ⟨-, rfl, -⟩
        rfl
  | cons c rest ih =>
      rw [parseDigits, digitsValue_cons]
      cases hd : toDigit radix c with
      | none => simp [hd]
      | some d =>
          simp only [Option.getD_some, List.forall_mem_cons, hd, Option.isSome_some, true_and]
          by_cases hle : acc * radix + d ≤ maximum
          · rw [if_pos hle]
            exact ih hle
          · rw [if_neg hle]
            constructor
            · intro h
              cases h
            · rintro ⟨-, rfl, hmax⟩
              exact absurd ((le_digitsValue hradix _ rest).trans hmax) hle

/-- A non-empty text of digits has no sign, so it is parsed as it stands. -/
theorem fromStrRadix_of_digits {maximum radix : Nat} {digits : Text} (hne : digits ≠ [])
    (hdigits : ∀ c ∈ digits, (toDigit radix c).isSome) :
    fromStrRadix maximum radix digits = parseDigits radix maximum 0 digits := by
  have hplus : '+' ∉ digits := fun hmem => ne_of_toDigit (hdigits _ hmem) (by decide) rfl
  have hminus : '-' ∉ digits := fun hmem => ne_of_toDigit (hdigits _ hmem) (by decide) rfl
  unfold fromStrRadix
  split <;> simp_all

/-- The texts of unsigned integers: an optional plus sign, then digits whose
value fits. -/
theorem fromStrRadix_eq_ok_iff {maximum radix n : Nat} {src : Text} (hradix : 0 < radix) :
    fromStrRadix maximum radix src = .ok n ↔
      ∃ digits, (src = digits ∨ src = '+' :: digits) ∧ digits ≠ [] ∧
        (∀ c ∈ digits, (toDigit radix c).isSome) ∧
          n = digitsValue radix 0 digits ∧ n ≤ maximum := by
  constructor
  · intro h
    unfold fromStrRadix at h
    split at h
    · cases h
    · cases h
    · cases h
    · next digits hplus =>
        have hne : digits ≠ [] := fun hnil => hplus (by rw [hnil])
        exact ⟨digits, Or.inr rfl, hne,
          (parseDigits_eq_ok_iff hradix (Nat.zero_le _)).mp h⟩
    · next hne _ _ _ =>
        exact ⟨src, Or.inl rfl, hne, (parseDigits_eq_ok_iff hradix (Nat.zero_le _)).mp h⟩
  · rintro ⟨digits, hsrc, hne, hdigits, hvalue⟩
    have hparse : parseDigits radix maximum 0 digits = .ok n :=
      (parseDigits_eq_ok_iff hradix (Nat.zero_le _)).mpr ⟨hdigits, hvalue⟩
    rcases hsrc with rfl | rfl
    · rw [fromStrRadix_of_digits hne hdigits, hparse]
    · obtain ⟨c, rest, rfl⟩ := List.exists_cons_of_ne_nil hne
      exact hparse

/-- A text of digits whose value fits is parsed to that value. -/
theorem fromStrRadix_eq_ok {maximum radix : Nat} {digits : Text} (hradix : 0 < radix)
    (hne : digits ≠ []) (hdigits : ∀ c ∈ digits, (toDigit radix c).isSome)
    (hfits : digitsValue radix 0 digits ≤ maximum) :
    fromStrRadix maximum radix digits = .ok (digitsValue radix 0 digits) := by
  rw [fromStrRadix_of_digits hne hdigits, parseDigits_eq_ok_iff hradix (Nat.zero_le _)]
  exact ⟨hdigits, rfl, hfits⟩

/-- A parsed integer fits. -/
theorem fromStrRadix_le {maximum radix n : Nat} {src : Text} (hradix : 0 < radix)
    (h : fromStrRadix maximum radix src = .ok n) : n ≤ maximum := by
  obtain ⟨digits, -, -, -, -, hle⟩ := (fromStrRadix_eq_ok_iff hradix).mp h
  exact hle

/-- A parsed integer has digits, and nothing but a sign besides. -/
theorem chars_of_fromStrRadix {maximum radix n : Nat} {src : Text} (hradix : 0 < radix)
    (h : fromStrRadix maximum radix src = .ok n) :
    (∀ c ∈ src, c = '+' ∨ (toDigit radix c).isSome) ∧ ∃ c ∈ src, (toDigit radix c).isSome := by
  obtain ⟨digits, hsrc, hne, hdigits, -⟩ := (fromStrRadix_eq_ok_iff hradix).mp h
  have hhead := hdigits _ (List.head_mem hne)
  rcases hsrc with rfl | rfl
  · exact ⟨fun c hc => Or.inr (hdigits c hc), src.head hne, List.head_mem hne, hhead⟩
  · refine ⟨fun c hc => (List.mem_cons.mp hc).imp_right (hdigits c), digits.head hne, ?_, hhead⟩
    exact List.mem_cons_of_mem _ (List.head_mem hne)

/-- Digits survive trimming, also with white space behind them. -/
theorem trim_digits_append {radix : Nat} {digits blanks : Text} (hne : digits ≠ [])
    (hdigits : ∀ c ∈ digits, (toDigit radix c).isSome)
    (hblanks : ∀ c ∈ blanks, isWhitespace c = true) :
    trim (digits ++ blanks) = digits := by
  simpa using trim_eq_of_ends [] (by simp) hblanks hne
    (isWhitespace_eq_false_of_toDigit (hdigits _ (List.head_mem hne)))
    (isWhitespace_eq_false_of_toDigit (hdigits _ (List.getLast_mem hne)))

/-! ## Decimal display -/

/-- The decimal digits of a number, without leading zeros. -/
def decimal (n : Nat) : Text := Nat.toDigits 10 n

theorem decimal_ne_nil (n : Nat) : decimal n ≠ [] := Nat.toDigits_ne_nil

theorem range_of_mem_decimal {n : Nat} {c : Char} (h : c ∈ decimal n) :
    48 ≤ c.toNat ∧ c.toNat ≤ 57 := by
  have hdigit := Nat.isDigit_of_mem_toDigits (by decide) (by decide) h
  simpa [Char.isDigit, UInt32.le_iff_toNat_le] using hdigit

theorem digitsValue_append (radix acc : Nat) (t u : Text) :
    digitsValue radix acc (t ++ u) = digitsValue radix (digitsValue radix acc t) u :=
  List.foldl_append

private theorem toDigit_digitChar {d : Nat} (hd : d < 10) :
    toDigit 10 (Nat.digitChar d) = some d := by
  have hcode := Nat.toNat_digitChar_of_lt_ten hd
  simp only [toDigit, hcode]
  rw [if_pos (show 48 ≤ 48 + d ∧ 48 + d ≤ 57 by omega), if_pos (by omega)]
  simp

/-- The decimal digits denote the number. -/
theorem digitsValue_decimal (n : Nat) : digitsValue 10 0 (decimal n) = n := by
  induction n using Nat.strong_induction_on with
  | _ n ih =>
      by_cases hn : n < 10
      · rw [decimal, Nat.toDigits_of_lt_base hn]
        simp [toDigit_digitChar hn]
      · rw [decimal, Nat.toDigits_of_base_le (by decide) (by omega), digitsValue_append,
          ← decimal, ih (n / 10) (by omega)]
        simp only [digitsValue_cons, digitsValue_nil,
          toDigit_digitChar (Nat.mod_lt n (by decide)), Option.getD_some]
        omega

/-- A displayed number which fits is parsed back. -/
theorem fromStrRadix_decimal {maximum n : Nat} (h : n ≤ maximum) :
    fromStrRadix maximum 10 (decimal n) = .ok n := by
  have hvalue := digitsValue_decimal n
  have hdigits : ∀ c ∈ decimal n, (toDigit 10 c).isSome :=
    fun _ hc => isSome_toDigit_ten_iff.mpr (range_of_mem_decimal hc)
  rw [fromStrRadix_eq_ok (by decide) (decimal_ne_nil n) hdigits (by omega), hvalue]

end StreamKit
