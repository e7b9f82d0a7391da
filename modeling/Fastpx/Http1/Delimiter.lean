import Fastpx.Http1.Stream

/-!
# Where a head ends: the delimiter and the parser

The readers cut a head off at the first `CRLF CRLF` and hand the slice to the
head parser.  The parser itself accepts `LF` as a line end, skips empty lines
in front of the start line, and is done at the first empty line after it.  The
code does not look at the length that the parser reports.

`headLength` is the parser's end as documented.  `read_head_delimiter_iff`
compares it with the readers' cut for every stream and every segmentation: the
bytes left over are those after the parser's end if and only if the head has
no bare empty line (`LF LF`, or `LF CR LF` before the cut).  On other heads the
bytes between the two ends are lost, and `bare_line_feeds_lose_bytes` is a
request on which this happens.
-/

namespace Fastpx
namespace Http1

open StreamKit

/-! ## The parser's end of a head -/

/-- The number of bytes taken by empty lines at the front. -/
def leadingEmptyLines : Bytes → Nat
  | 13 :: 10 :: rest => leadingEmptyLines rest + 2
  | 10 :: rest => leadingEmptyLines rest + 1
  | _ => 0

/-- The position just past the first empty line that follows a line end; lines
end with `LF`, with or without a `CR` before it. -/
def afterEmptyLine : Bytes → Option Nat
  | [] => none
  | x :: rest =>
      if [10, 10].isPrefixOf (x :: rest) then some 2
      else if [10, 13, 10].isPrefixOf (x :: rest) then some 3
      else (afterEmptyLine rest).map (· + 1)

/-- The length of the head as the parser counts it. -/
def headLength (bytes : Bytes) : Option Nat :=
  (afterEmptyLine (bytes.drop (leadingEmptyLines bytes))).map (· + leadingEmptyLines bytes)

/-- The status that belongs to a head length. -/
def statusOf : Option Nat → Status
  | some length => .complete length
  | none => .incomplete

/-- What is relied on of the head parser: a successful call reports the end
just past the first empty line after the start line, and without a start line
no field is set. -/
structure Httparse.Documented (httparse : Httparse) : Prop where
  request_status : ∀ slots bytes status fields,
    httparse.request slots bytes = .ok (status, fields) → status = statusOf (headLength bytes)
  request_blank : ∀ slots bytes status fields,
    httparse.request slots bytes = .ok (status, fields) →
      leadingEmptyLines bytes = bytes.length → fields.method = none
  response_status : ∀ slots bytes status fields,
    httparse.response slots bytes = .ok (status, fields) → status = statusOf (headLength bytes)
  response_blank : ∀ slots bytes status fields,
    httparse.response slots bytes = .ok (status, fields) →
      leadingEmptyLines bytes = bytes.length → fields.version = none

/-- An empty line after a line end, finished at position `stop`. -/
def EmptyLineAt (bytes : Bytes) (stop : Nat) : Prop :=
  ∃ i, ([10, 10] <+: bytes.drop i ∧ stop = i + 2) ∨
    ([10, 13, 10] <+: bytes.drop i ∧ stop = i + 3)

/-- The bytes up to and including the first `CRLF CRLF`. -/
def headSlice (bytes : Bytes) : Bytes :=
  bytes.take ((findHeaderEnd bytes).getD bytes.length)

/-- The head has an empty line, after its start line, that is finished before
the end of the head. -/
def BareEmptyLine (head : Bytes) : Prop :=
  ∃ stop, EmptyLineAt (head.drop (leadingEmptyLines head)) stop ∧
    leadingEmptyLines head + stop < head.length

/-! ## Searching the first empty line -/

theorem emptyLineAt_cons {x : UInt8} {rest : Bytes} {stop : Nat} :
    EmptyLineAt (x :: rest) stop ↔
      ([10, 10] <+: x :: rest ∧ stop = 2) ∨ ([10, 13, 10] <+: x :: rest ∧ stop = 3) ∨
        ∃ stop', EmptyLineAt rest stop' ∧ stop = stop' + 1 := by
  constructor
  · rintro ⟨i, h⟩
    cases i with
    | zero =>
        rcases h with ⟨h, rfl⟩ | ⟨h, rfl⟩
        · exact Or.inl ⟨h, rfl⟩
        · exact Or.inr (Or.inl ⟨h, rfl⟩)
    | succ i =>
        refine Or.inr (Or.inr ?_)
        rcases h with ⟨h, rfl⟩ | ⟨h, rfl⟩
        · exact ⟨i + 2, ⟨i, Or.inl ⟨h, rfl⟩⟩, by omega⟩
        · exact ⟨i + 3, ⟨i, Or.inr ⟨h, rfl⟩⟩, by omega⟩
  · rintro (⟨h, rfl⟩ | ⟨h, rfl⟩ | ⟨stop', ⟨i, h⟩, rfl⟩)
    · exact ⟨0, Or.inl ⟨h, rfl⟩⟩
    · exact ⟨0, Or.inr ⟨h, rfl⟩⟩
    · refine ⟨i + 1, ?_⟩
      rcases h with ⟨h, rfl⟩ | ⟨h, rfl⟩
      · exact Or.inl ⟨h, by omega⟩
      · exact Or.inr ⟨h, by omega⟩

theorem two_le_of_emptyLineAt {bytes : Bytes} {stop : Nat} (h : EmptyLineAt bytes stop) :
    2 ≤ stop := by
  obtain ⟨i, ⟨-, rfl⟩ | ⟨-, rfl⟩⟩ := h <;> omega

/-- `afterEmptyLine` returns the smallest end of an empty line. -/
theorem afterEmptyLine_spec (bytes : Bytes) :
    match afterEmptyLine bytes with
    | some stop => EmptyLineAt bytes stop ∧ ∀ other, EmptyLineAt bytes other → stop ≤ other
    | none => ∀ other, ¬ EmptyLineAt bytes other := by
  induction bytes with
  | nil =>
      rintro other ⟨i, ⟨h, -⟩ | ⟨h, -⟩⟩ <;> simp at h
  | cons x rest ih =>
      -- the search tries the shorter form first, and nothing found in the rest can end earlier
      rw [afterEmptyLine]
      by_cases hlf : [10, 10] <+: x :: rest
      · rw [if_pos (List.isPrefixOf_iff_prefix.mpr hlf)]
        exact ⟨emptyLineAt_cons.mpr (Or.inl ⟨hlf, rfl⟩), fun _ => two_le_of_emptyLineAt⟩
      · rw [if_neg (fun h => hlf (List.isPrefixOf_iff_prefix.mp h))]
        by_cases hcr : [10, 13, 10] <+: x :: rest
        · rw [if_pos (List.isPrefixOf_iff_prefix.mpr hcr)]
          refine ⟨emptyLineAt_cons.mpr (Or.inr (Or.inl ⟨hcr, rfl⟩)), ?_⟩
          intro other hother
          rcases emptyLineAt_cons.mp hother with ⟨h, -⟩ | ⟨-, rfl⟩ | ⟨stop', hstop', rfl⟩
          · exact absurd h hlf
          · exact Nat.le_refl _
          · exact Nat.succ_le_succ (two_le_of_emptyLineAt hstop')
        · rw [if_neg (fun h => hcr (List.isPrefixOf_iff_prefix.mp h))]
          cases hrest : afterEmptyLine rest with
          | none =>
              rw [hrest] at ih
              intro other hother
              rcases emptyLineAt_cons.mp hother with ⟨h, -⟩ | ⟨h, -⟩ | ⟨stop', hstop', -⟩
              · exact hlf h
              · exact hcr h
              · exact ih stop' hstop'
          | some stop =>
              rw [hrest] at ih
              refine ⟨emptyLineAt_cons.mpr (Or.inr (Or.inr ⟨stop, ih.1, rfl⟩)), ?_⟩
              intro other hother
              rcases emptyLineAt_cons.mp hother with ⟨h, -⟩ | ⟨h, -⟩ | ⟨stop', hstop', rfl⟩
              · exact absurd h hlf
              · exact absurd h hcr
              · exact Nat.succ_le_succ (ih.2 stop' hstop')

/-- Behind the leading empty lines there is no further one. -/
theorem leadingEmptyLines_spec (bytes : Bytes) :
    leadingEmptyLines bytes ≤ bytes.length ∧
      ¬ [10] <+: bytes.drop (leadingEmptyLines bytes) ∧
      ¬ [13, 10] <+: bytes.drop (leadingEmptyLines bytes) := by
  fun_induction leadingEmptyLines bytes with
  | case1 rest ih => simpa using ih
  | case2 rest ih => simpa using ih
  | case3 bytes hcrlf hlf =>
      refine ⟨Nat.zero_le _, ?_, ?_⟩
      · rintro ⟨rest, hrest⟩
        exact hlf rest hrest.symm
      · rintro ⟨rest, hrest⟩
        exact hcrlf rest hrest.symm

/-- A head cut off at its first `CRLF CRLF` ends with these bytes. -/
theorem eq_append_crlfcrlf {raw : Bytes} (hends : findHeaderEnd raw = some raw.length) :
    ∃ front, raw = front ++ crlfcrlf := by
  obtain ⟨i, hi, hlen⟩ := Option.map_eq_some_iff.mp hends
  obtain ⟨rest, hrest⟩ := firstIndex_isPrefix_drop hi
  have hnil : rest = [] := by
    have hlength := congrArg List.length hrest
    rw [List.length_append, List.length_drop, ← hlen] at hlength
    have hpattern : crlfcrlf.length = 4 := rfl
    exact List.length_eq_zero_iff.mp (by omega)
  refine ⟨raw.take i, ?_⟩
  rw [hnil, List.append_nil] at hrest
  rw [hrest, List.take_append_drop]

/-- A cut-off head with a start line has an empty line for the parser, at the
latest at its end; the parser gets that far iff there is no bare one. -/
theorem headLength_of_ends {raw : Bytes} (hends : findHeaderEnd raw = some raw.length)
    (hstart : leadingEmptyLines raw ≠ raw.length) :
    ∃ n, headLength raw = some n ∧ n ≤ raw.length ∧
      (n = raw.length ↔ ¬ BareEmptyLine raw) := by
  obtain ⟨front, hraw⟩ := eq_append_crlfcrlf hends
  obtain ⟨hle, hlf, hcrlf⟩ := leadingEmptyLines_spec raw
  have hrawlen : raw.length = front.length + 4 := by simp [hraw, crlfcrlf]
  have hrest : (raw.drop (leadingEmptyLines raw)).length =
      raw.length - leadingEmptyLines raw := List.length_drop
  -- the remainder cannot be `LF` or `CRLF` alone, so it contains `LF CR LF`
  have hthree : 3 ≤ (raw.drop (leadingEmptyLines raw)).length := by
    by_contra hshort
    have hcases : leadingEmptyLines raw = front.length + 3 ∨
        leadingEmptyLines raw = front.length + 2 := by omega
    rcases hcases with h | h
    · exact hlf ⟨[], by rw [h, hraw, ← List.drop_drop, List.drop_left]; rfl⟩
    · exact hcrlf ⟨[], by rw [h, hraw, ← List.drop_drop, List.drop_left]; rfl⟩
  have hlast : EmptyLineAt (raw.drop (leadingEmptyLines raw))
      (raw.drop (leadingEmptyLines raw)).length := by
    refine ⟨(raw.drop (leadingEmptyLines raw)).length - 3, Or.inr ⟨⟨[], ?_⟩, by omega⟩⟩
    rw [List.drop_drop, hrest, show leadingEmptyLines raw +
      (raw.length - leadingEmptyLines raw - 3) = front.length + 1 by omega, hraw,
      ← List.drop_drop, List.drop_left]
    rfl
  have hspec := afterEmptyLine_spec (raw.drop (leadingEmptyLines raw))
  cases hfirst : afterEmptyLine (raw.drop (leadingEmptyLines raw)) with
  | none =>
      rw [hfirst] at hspec
      exact absurd hlast (hspec _)
  | some k =>
      rw [hfirst] at hspec
      obtain ⟨hk, hmin⟩ := hspec
      have hkle := hmin _ hlast
      refine ⟨k + leadingEmptyLines raw, by rw [headLength, hfirst]; rfl, by omega, ?_⟩
      constructor
      · rintro hn ⟨stop, hstop, hlt⟩
        have := hmin stop hstop
        omega
      · intro hbare
        have hnot : ¬ leadingEmptyLines raw + k < raw.length :=
          fun hlt => hbare ⟨k, hk, hlt⟩
        omega

/-! ## The readers against the parser -/

/-- The slice handed to the parser, read off the stream. -/
theorem headSlice_append {raw : Bytes} (hends : findHeaderEnd raw = some raw.length)
    (tail : Bytes) : headSlice (raw ++ tail) = raw := by
  rw [headSlice, findHeaderEnd_append hends, Option.getD_some, List.take_left]

/-- Dropping `n` bytes of a left factor leaves the right factor exactly when
`n` is the whole left factor. -/
theorem eq_drop_append_iff {raw tail : Bytes} {n : Nat} (hn : n ≤ raw.length) :
    tail = (raw ++ tail).drop n ↔ n = raw.length := by
  constructor
  · intro h
    have hlength := congrArg List.length h
    rw [List.length_drop, List.length_append] at hlength
    omega
  · rintro rfl
    exact List.drop_left.symm

/-- The parser's end of a cut-off head with a start line, compared with the cut
in front of any continuation. -/
theorem status_of_ends {raw : Bytes} (hends : findHeaderEnd raw = some raw.length)
    (hstart : leadingEmptyLines raw ≠ raw.length) (tail : Bytes) :
    ∃ n, statusOf (headLength raw) = .complete n ∧
      (tail = (raw ++ tail).drop n ↔ ¬ BareEmptyLine raw) := by
  obtain ⟨n, hn, hle, hiff⟩ := headLength_of_ends hends hstart
  exact ⟨n, by rw [hn]; rfl, (eq_drop_append_iff hle).trans hiff⟩

/-- **The delimiter against the head parser.**  After every successful head
read the parser has reported a head length `n` on the slice it was given; what
the reader passes on is the stream after `n` if and only if the head contains
no bare empty line.  This holds for requests and for responses, for every
stream, every segmentation and every initial buffer. -/
theorem read_head_delimiter_iff (httparse : Httparse) (hdoc : httparse.Documented) :
    (∀ reader maxHeaderBytes head rest reader',
      readRequestHead httparse reader maxHeaderBytes = (.ok (head, rest), reader') →
      ∃ n fields, httparse.request headerSlots (headSlice reader.unread) =
          .ok (.complete n, fields) ∧
        (rest ++ reader'.unread = reader.unread.drop n ↔
          ¬ BareEmptyLine (headSlice reader.unread))) ∧
    (∀ b maxHeaderBytes head b',
      BufferedStream.readResponseHead httparse maxHeaderBytes b = (.ok head, b') →
      ∃ n fields, httparse.response headerSlots (headSlice b.pending) =
          .ok (.complete n, fields) ∧
        (b'.pending = b.pending.drop n ↔ ¬ BareEmptyLine (headSlice b.pending))) := by
  constructor
  · intro reader maxHeaderBytes head rest reader' h
    obtain ⟨raw, hsplit, hends, hparse, -⟩ := readRequestHead_ok h
    obtain ⟨status, fields, hfields, hmethod, -⟩ := parseRequestHead_ok hparse
    have hstart : leadingEmptyLines raw ≠ raw.length := by
      intro hblank
      rw [hdoc.request_blank _ _ _ _ hfields hblank] at hmethod
      cases hmethod
    obtain ⟨n, hn, hiff⟩ := status_of_ends hends hstart _
    rw [hdoc.request_status _ _ _ _ hfields, hn] at hfields
    rw [hsplit, headSlice_append hends]
    exact ⟨n, fields, hfields, hiff⟩
  · intro b maxHeaderBytes head b' h
    obtain ⟨raw, hsplit, hends, hparse, -⟩ := readResponseHead_ok h
    obtain ⟨status, fields, hfields, hversion⟩ := parseResponseHead_ok hparse
    have hstart : leadingEmptyLines raw ≠ raw.length := by
      intro hblank
      rw [hdoc.response_blank _ _ _ _ hfields hblank] at hversion
      cases hversion
    obtain ⟨n, hn, hiff⟩ := status_of_ends hends hstart _
    rw [hdoc.response_status _ _ _ _ hfields, hn] at hfields
    rw [hsplit, headSlice_append hends]
    exact ⟨n, fields, hfields, hiff⟩

/-! ## A request with bare line feeds -/

/-- A table parser is documented when each of its entries is. -/
theorem Httparse.documented_ofTables {requests : List (Bytes × Status × RequestFields)}
    {responses : List (Bytes × Status × ResponseFields)}
    (hrequests : ∀ entry ∈ requests, entry.2.1 = statusOf (headLength entry.1) ∧
      leadingEmptyLines entry.1 ≠ entry.1.length)
    (hresponses : ∀ entry ∈ responses, entry.2.1 = statusOf (headLength entry.1) ∧
      leadingEmptyLines entry.1 ≠ entry.1.length) :
    (Httparse.ofTables requests responses).Documented := by
  have hrequest : ∀ slots bytes status fields,
      (Httparse.ofTables requests responses).request slots bytes = .ok (status, fields) →
        (bytes, status, fields) ∈ requests := by
    intro slots bytes status fields h
    simp only [ofTables] at h
    split at h
    · next entry hentry =>
        obtain rfl := Except.ok.inj h
        obtain ⟨l₁, l₂, rfl, -⟩ := List.lookup_eq_some_iff.mp hentry
        simp
    · cases h
  have hresponse : ∀ slots bytes status fields,
      (Httparse.ofTables requests responses).response slots bytes = .ok (status, fields) →
        (bytes, status, fields) ∈ responses := by
    intro slots bytes status fields h
    simp only [ofTables] at h
    split at h
    · next entry hentry =>
        split at h
        · obtain rfl := Except.ok.inj h
          obtain ⟨l₁, l₂, rfl, -⟩ := List.lookup_eq_some_iff.mp hentry
          simp
        · cases h
    · cases h
  exact ⟨fun _ _ _ _ h => (hrequests _ (hrequest _ _ _ _ h)).1,
    fun _ _ _ _ h hblank => absurd hblank (hrequests _ (hrequest _ _ _ _ h)).2,
    fun _ _ _ _ h => (hresponses _ (hresponse _ _ _ _ h)).1,
    fun _ _ _ _ h hblank => absurd hblank (hresponses _ (hresponse _ _ _ _ h)).2⟩

/-- A request line and an empty line, both ended by a bare `LF`, followed by
seven bytes of tunnel data which happen to end with `CRLF CRLF`. -/
private def bareRequest : Bytes :=
  utf8 "CONNECT a:1 HTTP/1.1\n\nTLS\r\n\r\n".toList

private def bareParser : Httparse :=
  .ofTables [(bareRequest, .complete 22, ⟨some "CONNECT".toList, some "a:1".toList⟩)] []

private def bareReader : Incoming := ⟨[⟨bareRequest, by decide⟩], none⟩

private theorem bareParser_documented : bareParser.Documented :=
  Httparse.documented_ofTables (by decide) (by decide)

/-- **The cut loses bytes.**  On this request the parser is done after 22
bytes, but the reader only cuts at the `CRLF CRLF` behind the tunnel data: it
returns success and passes on nothing, although seven bytes follow the head. -/
theorem bare_line_feeds_lose_bytes :
    bareParser.Documented ∧
      readRequestHead bareParser bareReader 1024 =
        (.ok (⟨"CONNECT".toList, "a:1".toList⟩, []), ⟨[], none⟩) ∧
      bareParser.request headerSlots (headSlice bareReader.unread) =
        .ok (.complete 22, ⟨some "CONNECT".toList, some "a:1".toList⟩) ∧
      [] ++ (⟨[], none⟩ : Incoming).unread ≠ bareReader.unread.drop 22 :=
  ⟨bareParser_documented, by decide +kernel, by decide, by decide⟩

/-- The same comparison through the general theorem: the run succeeds, and the
parser's length does not match the cut because the head has a bare empty
line. -/
theorem read_head_delimiter_iff_bareReader :
    ∃ n fields, bareParser.request headerSlots (headSlice bareReader.unread) =
        .ok (.complete n, fields) ∧
      ([] ++ (⟨[], none⟩ : Incoming).unread = bareReader.unread.drop n ↔
        ¬ BareEmptyLine (headSlice bareReader.unread)) :=
  (read_head_delimiter_iff bareParser bareParser_documented).1 bareReader 1024
    ⟨"CONNECT".toList, "a:1".toList⟩ [] ⟨[], none⟩ (by decide +kernel)

end Http1
end Fastpx
