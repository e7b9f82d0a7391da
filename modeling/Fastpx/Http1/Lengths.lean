import Fastpx.Http1.ChunkGrammar
import Fastpx.Http1.SelfDelimited

/-!
# Lengths which are refused, and lengths which are not

A body that was drained without an error has the form which its head announces,
with every length written in plain digits: `WellFramed`, stated with a grammar
of its own.  The code reads lengths with the integer parsers and the trimming of
the standard library, which also take a plus sign and other white space;
`drained_well_framed_iff` says that nothing else is accepted wrongly.
-/

namespace Fastpx
namespace Http1

open StreamKit

/-! ## Size lines -/

/-- The text of a size line before any extension. -/
def sizeText (text : Text) : Text :=
  text.takeWhile (· ≠ ';')

/-- The size text of the line is made of hexadecimal digits, which denote
`size`. -/
def HexSize (line : Bytes) (size : Nat) : Prop :=
  ∃ text, fromUtf8 line = some text ∧ Denotes 16 (sizeText text) size

/-- The size text of the line has no sign and only blanks around it. -/
def UnadornedSize (line : Bytes) : Prop :=
  ∀ text, fromUtf8 line = some text → Unadorned (sizeText text)

theorem chunkSize_eq_ok_iff {line : Bytes} {size : Nat} :
    BufferedStream.chunkSize line = .ok size ↔
      ∃ text, fromUtf8 line = some text ∧
        fromStrRadix usizeMax 16 (trim (sizeText text)) = .ok size := by
  unfold BufferedStream.chunkSize
  cases hline : fromUtf8 line with
  | none => simp
  | some text =>
      simp only [head?_splitOn, sizeText, Option.some.injEq, exists_eq_left']
      split <;> simp_all

theorem hexSize_iff {line : Bytes} {size : Nat}
    (h : BufferedStream.chunkSize line = .ok size) : HexSize line size ↔ UnadornedSize line := by
  obtain ⟨text, htext, hparsed⟩ := chunkSize_eq_ok_iff.mp h
  have hiff := denotes_iff_unadorned (by decide) hparsed
  simp only [HexSize, UnadornedSize, htext, Option.some.injEq, exists_eq_left', forall_eq', hiff]

/-- A line has one size only, in the grammar and in the code. -/
theorem HexSize.chunkSize_eq {line : Bytes} {size size' : Nat} (h : HexSize line size)
    (hsize : BufferedStream.chunkSize line = .ok size') : size' = size := by
  obtain ⟨text, htext, hdenotes⟩ := h
  obtain ⟨text', htext', hparsed⟩ := chunkSize_eq_ok_iff.mp hsize
  obtain rfl := Option.some.inj (htext.symm.trans htext')
  exact hdenotes.parsed_eq (by decide) hparsed

/-! ## Bodies -/

/-- `HexChunks bytes rest`: chunks of hexadecimal size, a zero-size line,
trailer lines and an empty line are at the front of `bytes`, and `rest`
follows. -/
inductive HexChunks : Bytes → Bytes → Prop
  | last {line later rest : Bytes} {trailers : List Bytes} (hline : IsLine line)
      (hsize : HexSize line 0) (htail : Trailers later trailers rest) :
      HexChunks (line ++ crlf ++ later) rest
  | chunk {line data later rest : Bytes} (hline : IsLine line)
      (hsize : HexSize line data.length) (hne : data ≠ []) (htail : HexChunks later rest) :
      HexChunks (line ++ crlf ++ (data ++ (crlf ++ later))) rest

/-- The bytes begin with a body of the announced form, and `rest` follows it.
A response which announces nothing is not restricted. -/
def WellFramed (response : ResponseHead) (bytes rest : Bytes) : Prop :=
  (response.isChunked = true → HexChunks bytes rest) ∧
  (response.isChunked = false → response.headerValues contentLengthField ≠ [] →
    ∃ length ≤ bytes.length, rest = bytes.drop length ∧
      ∀ value ∈ response.headerValues contentLengthField,
        ∃ text, fromUtf8 value = some text ∧ Denotes 10 text length)

/-- No length that governs the body has a sign, or white space other than blanks
and tabs around it: neither a size line nor, without chunks, a
`Content-Length`. -/
def UnadornedLengths (response : ResponseHead) (bytes : Bytes) : Prop :=
  (response.isChunked = true → ∀ sizes trailers rest, Chunks bytes sizes trailers rest →
    ∀ line ∈ sizes, UnadornedSize line) ∧
  (response.isChunked = false → ∀ value ∈ response.headerValues contentLengthField,
    ∀ text, fromUtf8 value = some text → Unadorned text)

/-! ### Chunked bodies -/

theorem hexChunks_of_unadorned {bytes rest : Bytes} {sizes trailers : List Bytes}
    (h : Chunks bytes sizes trailers rest) (hplain : ∀ line ∈ sizes, UnadornedSize line) :
    HexChunks bytes rest := by
  induction h with
  | last hline hsize htail =>
      exact .last hline ((hexSize_iff hsize).mpr (hplain _ List.mem_cons_self)) htail
  | chunk hline hsize hne htail ih =>
      refine .chunk hline ((hexSize_iff hsize).mpr (hplain _ List.mem_cons_self)) hne ?_
      exact ih fun line hmem => hplain line (List.mem_cons_of_mem _ hmem)

/-- Both grammars cut the bytes at the same places. -/
theorem HexChunks.unadorned {bytes rest rest' : Bytes} {sizes trailers : List Bytes}
    (h : HexChunks bytes rest) (hchunks : Chunks bytes sizes trailers rest') :
    ∀ line ∈ sizes, UnadornedSize line := by
  induction hchunks generalizing rest with
  | @last line later rest' trailers hline hsize htail =>
      generalize hbytes : line ++ crlf ++ later = bytes at h
      intro line' hmem
      obtain rfl := List.mem_singleton.mp hmem
      cases h with
      | last hline₁ hsize₁ htail₁ =>
          obtain ⟨rfl, -⟩ := line_unique hline hline₁ hbytes
          exact (hexSize_iff (hsize₁.chunkSize_eq hsize ▸ hsize)).mp hsize₁
      | chunk hline₁ hsize₁ hne₁ htail₁ =>
          obtain ⟨rfl, -⟩ := line_unique hline hline₁ hbytes
          exact (hexSize_iff (hsize₁.chunkSize_eq hsize ▸ hsize)).mp hsize₁
  | @chunk line data later rest' sizes trailers hline hsize hne htail ih =>
      generalize hbytes : line ++ crlf ++ (data ++ (crlf ++ later)) = bytes at h
      cases h with
      | last hline₁ hsize₁ htail₁ =>
          obtain ⟨rfl, -⟩ := line_unique hline hline₁ hbytes
          exact absurd (List.length_eq_zero_iff.mp (hsize₁.chunkSize_eq hsize)) hne
      | chunk hline₁ hsize₁ hne₁ htail₁ =>
          obtain ⟨rfl, hdata⟩ := line_unique hline hline₁ hbytes
          have hlength := hsize₁.chunkSize_eq hsize
          obtain ⟨rfl, hlater⟩ := List.append_inj hdata hlength
          obtain rfl := List.append_cancel_left hlater
          intro line' hmem
          rcases List.mem_cons.mp hmem with rfl | hmem
          · exact (hexSize_iff hsize).mp hsize₁
          · exact ih htail₁ line' hmem

theorem drainChunked_wellFramed_iff {response : ResponseHead} {b b' : BufferedStream}
    (hchunked : response.isChunked = true) (h : b.drainChunked = (.ok (), b')) :
    WellFramed response b.pending b'.pending ↔ UnadornedLengths response b.pending := by
  obtain ⟨sizes, trailers, hchunks⟩ := chunks_of_drain h
  simp only [WellFramed, UnadornedLengths, hchunked, forall_const, Bool.true_eq_false,
    false_implies, and_true]
  constructor
  · intro hbody sizes trailers rest hchunks
    exact hbody.unadorned hchunks
  · intro hplain
    exact hexChunks_of_unadorned hchunks (hplain sizes trailers _ hchunks)

/-! ### Announced lengths -/

/-- A value which was read as `length` denotes it if it is unadorned. -/
theorem denotes_of_contentLength {response : ResponseHead} {length : Nat}
    (h : response.contentLength = .ok (some length)) {value : Bytes}
    (hvalue : value ∈ response.headerValues contentLengthField) :
    (∃ text, fromUtf8 value = some text ∧ Denotes 10 text length) ↔
      ∀ text, fromUtf8 value = some text → Unadorned text := by
  obtain ⟨text, length', htext, hparsed, hsame⟩ := ResponseHead.contentLengthFrom_ok h hvalue
  obtain rfl := Option.some.inj hsame
  have hiff := denotes_iff_unadorned (by decide) hparsed
  simp only [htext, Option.some.injEq, exists_eq_left', forall_eq', hiff]

theorem discardExact_wellFramed_iff {response : ResponseHead} {b b' : BufferedStream}
    {length : Nat} (hchunked : response.isChunked = false)
    (hlength : response.contentLength = .ok (some length))
    (h : b.discardExact length = (.ok (), b')) :
    WellFramed response b.pending b'.pending ↔ UnadornedLengths response b.pending := by
  obtain ⟨henough, hrest, -⟩ := discardExact_ok h
  simp only [WellFramed, UnadornedLengths, hchunked, forall_const, Bool.false_eq_true,
    false_implies, true_and]
  constructor
  · intro hframed value hvalue
    obtain ⟨length', -, -, hall⟩ := hframed (List.ne_nil_of_mem hvalue)
    obtain ⟨text, htext, hdenotes⟩ := hall value hvalue
    -- the announced number is the one which the code has read
    obtain ⟨text', read, htext', hparsed, hsame⟩ :=
      ResponseHead.contentLengthFrom_ok hlength hvalue
    obtain rfl := Option.some.inj (htext.symm.trans htext')
    obtain rfl := Option.some.inj hsame
    obtain rfl := hdenotes.parsed_eq (by decide) hparsed
    exact (denotes_of_contentLength hlength hvalue).mp ⟨text, htext, hdenotes⟩
  · intro hplain _
    refine ⟨length, henough, hrest, fun value hvalue => ?_⟩
    exact (denotes_of_contentLength hlength hvalue).mpr (hplain value hvalue)

/-- **Malformed lengths are refused up to sign and white space.**  The body of a
response was drained; then it has the announced form, with plain digits in all
of its lengths, exactly if no length has a sign or white space other than blanks
and tabs. -/
theorem drained_well_framed_iff {response : ResponseHead} {b b' : BufferedStream}
    (h : b.drainResponseBody response = (.ok (), b')) :
    WellFramed response b.pending b'.pending ↔ UnadornedLengths response b.pending := by
  unfold BufferedStream.drainResponseBody at h
  split at h
  · next hchunked => exact drainChunked_wellFramed_iff hchunked h
  · next hchunked =>
      rw [Bool.not_eq_true] at hchunked
      split at h
      · cases (Prod.mk.inj h).1
      · next length hlength => exact discardExact_wellFramed_iff hchunked hlength h
      · next hnone =>
          -- without a length there is nothing to say on either side
          have hnil : response.headerValues contentLengthField = [] := by
            refine List.eq_nil_iff_forall_not_mem.mpr fun value hvalue => ?_
            obtain ⟨text, length, -, -, hsome⟩ := ResponseHead.contentLengthFrom_ok hnone hvalue
            cases hsome
          simp [WellFramed, UnadornedLengths, hchunked, hnil]

/-! Responses with and without a sign: five announced bytes, and a last chunk. -/

private def plainLength : ResponseHead :=
  ⟨1, 407, [⟨"Content-Length".toList, utf8 "5".toList⟩]⟩

private def signedLength : ResponseHead :=
  ⟨1, 407, [⟨"Content-Length".toList, utf8 "+5".toList⟩]⟩

private def signedChunks : ResponseHead :=
  ⟨1, 407, [⟨"Transfer-Encoding".toList, utf8 "chunked".toList⟩]⟩

private def hello : BufferedStream := ⟨⟨[], none⟩, utf8 "hello".toList⟩

private theorem drains_hello {response : ResponseHead} (hchunked : response.isChunked = false)
    (hlength : response.contentLength = .ok (some 5)) :
    ∃ b', BufferedStream.drainResponseBody response hello = (.ok (), b') := by
  obtain ⟨b', hdrain, -, -⟩ := discardExact_of_data
    (show hello.pending = utf8 "hello".toList ++ [] by decide)
  refine ⟨b', ?_⟩
  rw [BufferedStream.drainResponseBody, hchunked, hlength]
  exact hdrain

private def signedBody : Bytes := utf8 "+0".toList ++ crlf ++ (crlf ++ [])

private theorem chunks_signedBody : Chunks signedBody [utf8 "+0".toList] [] [] :=
  Chunks.last (show findLineEnd _ = _ by decide) (by decide +kernel) Trailers.done

private theorem drains_signedChunks :
    ∃ b', BufferedStream.drainResponseBody signedChunks ⟨⟨[], none⟩, signedBody⟩ =
      (.ok (), b') := by
  obtain ⟨b', hdrain, -⟩ := drainChunked_of_chunks (b := ⟨⟨[], none⟩, signedBody⟩)
    chunks_signedBody (by decide) (Or.inr rfl)
  refine ⟨b', ?_⟩
  have hchunked : signedChunks.isChunked = true := by decide +kernel
  rw [BufferedStream.drainResponseBody, if_pos hchunked, hdrain]

/-- **A plus sign is accepted.**  Both bodies are drained without an error, and
neither is of the announced form. -/
theorem signed_lengths_accepted :
    (∃ b', BufferedStream.drainResponseBody signedLength hello = (.ok (), b') ∧
        ¬ WellFramed signedLength hello.pending b'.pending) ∧
      ∃ b', BufferedStream.drainResponseBody signedChunks ⟨⟨[], none⟩, signedBody⟩ =
        (.ok (), b') ∧ ¬ WellFramed signedChunks signedBody b'.pending := by
  constructor
  · obtain ⟨b', hdrain⟩ := drains_hello
      (show signedLength.isChunked = false by decide) (by decide)
    refine ⟨b', hdrain, fun hframed => ?_⟩
    obtain ⟨length, -, -, hall⟩ := hframed.2 (by decide) (by decide)
    obtain ⟨text, htext, -, hdigits, -⟩ := hall (utf8 "+5".toList) (by decide +kernel)
    rw [fromUtf8_utf8] at htext
    obtain rfl := Option.some.inj htext
    exact absurd (hdigits '+' (by decide)) (by decide)
  · obtain ⟨b', hdrain⟩ := drains_signedChunks
    refine ⟨b', hdrain, fun hframed => ?_⟩
    have hbody := hframed.1 (by decide +kernel)
    have hsize := hbody.unadorned chunks_signedBody _ List.mem_cons_self
    exact (hsize "+0".toList (fromUtf8_utf8 _)).2 (by decide)

private theorem unadorned_plainLength (bytes : Bytes) : UnadornedLengths plainLength bytes := by
  refine ⟨fun hchunked => absurd hchunked (by decide), fun _ value hvalue text htext => ?_⟩
  have hvalues : plainLength.headerValues contentLengthField = [utf8 "5".toList] := by
    decide
  rw [hvalues] at hvalue
  obtain rfl := List.mem_singleton.mp hvalue
  rw [fromUtf8_utf8] at htext
  obtain rfl := Option.some.inj htext
  exact ⟨by decide, by decide⟩

/-- The plain length is well framed. -/
theorem drained_well_framed_iff_plain :
    ∃ b', BufferedStream.drainResponseBody plainLength hello = (.ok (), b') ∧
      WellFramed plainLength hello.pending b'.pending := by
  obtain ⟨b', hdrain⟩ := drains_hello (show plainLength.isChunked = false by decide)
    (by decide)
  exact ⟨b', hdrain, (drained_well_framed_iff hdrain).mpr (unadorned_plainLength _)⟩

end Http1
end Fastpx
