import Fastpx.Http1.ChunkGrammar

/-!
# Framing of a handshake is exact

An authentication handshake is a sequence of responses on one connection, each
head followed by a body that the client has to skip before it can read the next
head.  This file describes such a byte stream as the sender writes it (heads,
bodies with `Content-Length`, chunked bodies with extensions and trailers) and
shows that the readers of `http1.rs` take it apart at exactly the sender's
boundaries, however the network cuts it into reads:

* `trailers_wire`, `ChunkedBody.chunks_wire`: what the sender writes has the
  form which the drain loops consume;
* `readResponseHead_exact`, `drainResponseBody_exact`: one response;
* `handshake_framing_exact`: a whole handshake, with the bytes after the final
  head left pending.
-/

namespace Fastpx
namespace Http1

open StreamKit

/-! ## What the sender writes -/

/-- A chunk-size line announcing `size`: hexadecimal digits, then nothing or
an extension which starts with a semicolon after optional blanks. -/
structure SizeLine (size : Nat) where
  digits : Text
  extension : Text
  digits_ne_nil : digits ≠ []
  digits_hex : ∀ c ∈ digits, (toDigit 16 c).isSome
  value : digitsValue 16 0 digits = size
  fits : size ≤ usizeMax
  extension_form : extension = [] ∨ ∃ blanks rest, extension = blanks ++ ';' :: rest ∧
    ∀ c ∈ blanks, c = ' ' ∨ c = '\t'
  one_line : findLineEnd (utf8 (digits ++ extension)) = none
  short : (utf8 (digits ++ extension)).length ≤ 8190

/-- The bytes of a size line, without its line end. -/
def SizeLine.bytes {size : Nat} (line : SizeLine size) : Bytes :=
  utf8 (line.digits ++ line.extension)

/-- A chunk with at least one data byte. -/
structure Chunk where
  data : Bytes
  line : SizeLine data.length
  data_ne_nil : data ≠ []

/-- The bytes of a chunk. -/
def Chunk.wire (chunk : Chunk) : Bytes :=
  chunk.line.bytes ++ crlf ++ (chunk.data ++ crlf)

/-- A trailer line: not empty, and at most 8190 bytes before its line end. -/
structure TrailerLine where
  bytes : Bytes
  bytes_ne_nil : bytes ≠ []
  one_line : findLineEnd bytes = none
  short : bytes.length ≤ 8190

/-- The bytes of a trailer line. -/
def TrailerLine.wire (trailer : TrailerLine) : Bytes :=
  trailer.bytes ++ crlf

/-- A chunked body: chunks, the zero-size line, trailer lines. -/
structure ChunkedBody where
  chunks : List Chunk
  last : SizeLine 0
  trailers : List TrailerLine

/-- The bytes after the zero-size line. -/
def trailersWire (trailers : List TrailerLine) : Bytes :=
  trailers.flatMap TrailerLine.wire ++ crlf

/-- The bytes of a chunked body. -/
def ChunkedBody.wire (body : ChunkedBody) : Bytes :=
  body.chunks.flatMap Chunk.wire ++ (body.last.bytes ++ crlf ++ trailersWire body.trailers)

/-- The decimal text `value` of a `Content-Length` header announces `length`. -/
def AnnouncesLength (length : Nat) (value : Bytes) : Prop :=
  ∃ digits : Text, value = utf8 digits ∧ digits ≠ [] ∧
    (∀ c ∈ digits, (toDigit 10 c).isSome) ∧ digitsValue 10 0 digits = length

/-- Framing by one or more equal `Content-Length` values and no
`Transfer-Encoding`. -/
def FramedByLength (head : ResponseHead) (body : Bytes) : Prop :=
  head.headerValues transferEncodingField = [] ∧
    head.headerValues contentLengthField ≠ [] ∧
    (∀ value ∈ head.headerValues contentLengthField,
      AnnouncesLength body.length value) ∧
    body.length ≤ usizeMax

/-- Framing by a `Transfer-Encoding` that names the coding `chunked`. -/
def FramedByChunks (head : ResponseHead) (body : Bytes) : Prop :=
  (∃ text coding : Text, utf8 text ∈ head.headerValues transferEncodingField ∧
    coding ∈ text.splitOn ',' ∧ eqIgnoreAsciiCase (trim coding) chunkedToken = true) ∧
    ∃ chunked : ChunkedBody, body = chunked.wire

/-- A response head as bytes: its first `CRLF CRLF` is at its end, it respects
the size cap and the 64 header slots, and the head parser reads it as `head`
whenever it is given enough slots. -/
structure HeadOnWire (httparse : Httparse) (maxHeaderBytes : Nat) where
  raw : Bytes
  head : ResponseHead
  ends : findHeaderEnd raw = some raw.length
  fits : raw.length ≤ maxHeaderBytes
  few : head.headers.length ≤ headerSlots
  parsed : ∀ slots, head.headers.length ≤ slots → ∃ status,
    httparse.response slots raw =
      .ok (status, ⟨some head.version, some head.status, head.headers⟩)

/-- A response: a head, and a body framed as the head announces. -/
structure FramedResponse (httparse : Httparse) (maxHeaderBytes : Nat) extends
    HeadOnWire httparse maxHeaderBytes where
  body : Bytes
  framed : FramedByLength head body ∨ FramedByChunks head body

/-- The bytes of a response. -/
def FramedResponse.wire {httparse : Httparse} {maxHeaderBytes : Nat}
    (response : FramedResponse httparse maxHeaderBytes) : Bytes :=
  response.raw ++ response.body

/-! ## Lines and chunked bodies -/

/-- Bytes without a line end are a line. -/
theorem isLine_of_findLineEnd {line : Bytes} (h : findLineEnd line = none) : IsLine line :=
  firstIndex_pair_append (by decide) h []

theorem fitsLine_of_length_le {line : Bytes} (h : line.length ≤ 8190) : FitsLine line :=
  Nat.add_le_add_right h 2

/-- Trailer lines as they are written, up to the empty line. -/
theorem trailers_wire (trailers : List TrailerLine) (rest : Bytes) :
    Trailers (trailersWire trailers ++ rest) (trailers.map TrailerLine.bytes) rest := by
  induction trailers with
  | nil => exact Trailers.done
  | cons trailer trailers ih =>
      have hwire : trailersWire (trailer :: trailers) ++ rest =
          trailer.bytes ++ crlf ++ (trailersWire trailers ++ rest) := by
        simp [trailersWire, TrailerLine.wire]
      rw [hwire]
      exact Trailers.line trailer.bytes_ne_nil (isLine_of_findLineEnd trailer.one_line) ih

/-- A size line is read as the size it announces. -/
theorem chunkSize_bytes {size : Nat} (line : SizeLine size) :
    BufferedStream.chunkSize line.bytes = .ok size := by
  have hsemi : ∀ c ∈ line.digits, c ≠ ';' :=
    fun c hc => ne_of_toDigit (line.digits_hex c hc) (by decide)
  -- with or without an extension, the text before the first semicolon is the digits
  -- and some blanks
  have hfirst : ∃ blanks, ((line.digits ++ line.extension).splitOn ';').head? =
      some (line.digits ++ blanks) ∧ ∀ c ∈ blanks, isWhitespace c = true := by
    rcases line.extension_form with hnil | ⟨blanks, rest, hext, hblanks⟩
    · refine ⟨[], ?_, by simp⟩
      rw [hnil, List.splitOn_eq_singleton (fun hmem => hsemi ';' (by simpa using hmem) rfl)]
      rfl
    · have hnot : ';' ∉ line.digits ++ blanks := by
        intro hmem
        rcases List.mem_append.mp hmem with hd | hb
        · exact hsemi _ hd rfl
        · rcases hblanks _ hb with h | h <;> exact absurd h (by decide)
      refine ⟨blanks, ?_, ?_⟩
      · rw [hext, ← List.append_assoc, List.splitOn_append_cons_self_of_not_mem hnot]
        rfl
      · intro c hc
        rcases hblanks c hc with rfl | rfl <;> decide
  obtain ⟨blanks, hhead, hblanks⟩ := hfirst
  simp only [BufferedStream.chunkSize, SizeLine.bytes, fromUtf8_utf8, hhead,
    trim_digits_append line.digits_ne_nil line.digits_hex hblanks]
  rw [fromStrRadix_eq_ok (by decide) line.digits_ne_nil line.digits_hex
    (line.value.trans_le line.fits), line.value]

/-- The size lines of a chunked body. -/
def ChunkedBody.sizeLines (body : ChunkedBody) : List Bytes :=
  body.chunks.map (fun chunk => chunk.line.bytes) ++ [body.last.bytes]

/-- A chunked body as it is written. -/
theorem ChunkedBody.chunks_wire (body : ChunkedBody) (rest : Bytes) :
    Chunks (body.wire ++ rest) body.sizeLines (body.trailers.map TrailerLine.bytes) rest := by
  obtain ⟨chunks, last, trailers⟩ := body
  induction chunks with
  | nil =>
      have hwire : ChunkedBody.wire ⟨[], last, trailers⟩ ++ rest =
          last.bytes ++ crlf ++ (trailersWire trailers ++ rest) := by
        simp [ChunkedBody.wire]
      rw [hwire]
      exact Chunks.last (isLine_of_findLineEnd last.one_line) (chunkSize_bytes last)
        (trailers_wire trailers rest)
  | cons chunk chunks ih =>
      have hwire : ChunkedBody.wire ⟨chunk :: chunks, last, trailers⟩ ++ rest =
          chunk.line.bytes ++ crlf ++
            (chunk.data ++ (crlf ++ (ChunkedBody.wire ⟨chunks, last, trailers⟩ ++ rest))) := by
        simp [ChunkedBody.wire, Chunk.wire]
      rw [hwire]
      -- the announced size is the length of the data
      exact Chunks.chunk (isLine_of_findLineEnd chunk.line.one_line) (chunkSize_bytes chunk.line)
        chunk.data_ne_nil ih

theorem ChunkedBody.fitsLine (body : ChunkedBody) :
    ∀ line ∈ body.sizeLines ++ body.trailers.map TrailerLine.bytes, FitsLine line := by
  intro line hmem
  rcases List.mem_append.mp hmem with hsize | htrailer
  · rcases List.mem_append.mp hsize with hchunk | hlast
    · obtain ⟨chunk, -, rfl⟩ := List.mem_map.mp hchunk
      exact fitsLine_of_length_le chunk.line.short
    · rw [List.mem_singleton.mp hlast]
      exact fitsLine_of_length_le body.last.short
  · obtain ⟨trailer, -, rfl⟩ := List.mem_map.mp htrailer
    exact fitsLine_of_length_le trailer.short

/-! ## One response -/

/-- The fill for a head stops with the bytes of the head in front. -/
theorem fill_head_exact {maxHeaderBytes : Nat} {b : BufferedStream} {raw rest : Bytes}
    (hpending : b.pending = raw ++ rest) (hends : findHeaderEnd raw = some raw.length)
    (hfits : raw.length ≤ maxHeaderBytes) :
    ∃ b₁, Buffered.fill findHeaderEnd maxHeaderBytes (headRoom maxHeaderBytes) b =
        (.ok raw.length, b₁) ∧
      findHeaderEnd b₁.buffer = some raw.length ∧ b₁.buffer.take raw.length = raw ∧
      b₁.buffer.drop raw.length ++ b₁.stream.unread = rest ∧
      b₁.stream.ending = b.stream.ending := by
  obtain ⟨b₁, hfill, hkeep, hfound, hending⟩ := Buffered.fill_finds findHeaderEnd headRoom_pos
    (fun _ later _ h => findHeaderEnd_append h later) hpending hends hfits
  have hlen := (findHeaderEnd_take hfound).1
  have hsplit : b₁.buffer.take raw.length ++ (b₁.buffer.drop raw.length ++ b₁.stream.unread) =
      raw ++ rest := by
    rw [← List.append_assoc, List.take_append_drop, ← hpending]
    exact hkeep
  obtain ⟨htake, htail⟩ := List.append_inj hsplit hlen
  exact ⟨b₁, hfill, hfound, htake, htail, hending⟩

/-- Reading a head returns what the head parser makes of its bytes, and leaves
everything after them pending. -/
theorem readResponseHead_exact (httparse : Httparse) {maxHeaderBytes : Nat}
    {b : BufferedStream} {raw rest : Bytes} (hpending : b.pending = raw ++ rest)
    (hends : findHeaderEnd raw = some raw.length) (hfits : raw.length ≤ maxHeaderBytes) :
    ∃ b', BufferedStream.readResponseHead httparse maxHeaderBytes b =
      (parseResponseHead httparse raw, b') ∧ b'.pending = rest := by
  obtain ⟨b₁, hfill, -, htake, htail, -⟩ := fill_head_exact hpending hends hfits
  refine ⟨⟨b₁.stream, b₁.buffer.drop raw.length⟩, ?_, htail⟩
  simp only [BufferedStream.readResponseHead, hfill, htake]

/-- A request head which fits is read, and the bytes after it are returned or
still unread. -/
theorem readRequestHead_exact {httparse : Httparse} {maxHeaderBytes : Nat} {reader : Incoming}
    {raw later : Bytes} {head : RequestHead} (hunread : reader.unread = raw ++ later)
    (hends : findHeaderEnd raw = some raw.length) (hfits : raw.length ≤ maxHeaderBytes)
    (hparse : parseRequestHead httparse raw = .ok head) :
    ∃ rest reader', readRequestHead httparse reader maxHeaderBytes = (.ok (head, rest), reader') ∧
      rest ++ reader'.unread = later ∧ reader'.ending = reader.ending := by
  obtain ⟨b₁, hfill, hfound, htake, htail, hending⟩ := fill_head_exact
    (show Buffered.pending ⟨reader, []⟩ = raw ++ later from hunread) hends hfits
  refine ⟨b₁.buffer.drop raw.length, b₁.stream, ?_, htail, hending⟩
  simp only [readRequestHead, readHeadBytes, hfill, hfound, htake, hparse]

/-- A head on the wire parses to its head. -/
theorem HeadOnWire.parse {httparse : Httparse} {maxHeaderBytes : Nat}
    (h : HeadOnWire httparse maxHeaderBytes) :
    parseResponseHead httparse h.raw = .ok h.head := by
  obtain ⟨status, hparsed⟩ := h.parsed headerSlots h.few
  simp only [parseResponseHead, hparsed]

/-- Equal all-digit values pass the `Content-Length` loop. -/
theorem contentLengthFrom_of_announces {length : Nat} (hfits : length ≤ usizeMax)
    {values : List Bytes} (h : ∀ value ∈ values, AnnouncesLength length value)
    {parsed : Option Nat} (hparsed : parsed = none ∨ parsed = some length)
    (hne : values ≠ [] ∨ parsed = some length) :
    ResponseHead.contentLengthFrom parsed values = .ok (some length) := by
  induction values generalizing parsed with
  | nil =>
      rcases hne with hne | rfl
      · exact absurd rfl hne
      · rfl
  | cons value values ih =>
      obtain ⟨digits, rfl, hdne, hdigits, hvalue⟩ := h value List.mem_cons_self
      have htrim : trim digits = digits := by
        have := trim_digits_append hdne hdigits (show ∀ c ∈ ([] : Text), _ by simp)
        rwa [List.append_nil] at this
      have hparse : fromStrRadix usizeMax 10 digits = .ok length := by
        rw [fromStrRadix_eq_ok (by decide) hdne hdigits (hvalue.trans_le hfits), hvalue]
      have hsame : parsed.any (· ≠ length) = false := by
        rcases hparsed with rfl | rfl <;> simp
      rw [ResponseHead.contentLengthFrom, fromUtf8_utf8]
      simp only [htrim, hparse, hsame]
      exact ih (fun value hvalue => h value (List.mem_cons_of_mem _ hvalue)) (Or.inr rfl)
        (Or.inr rfl)

/-- A response without `Transfer-Encoding` is not chunked. -/
theorem isChunked_eq_false_of_no_codings {head : ResponseHead}
    (h : head.headerValues transferEncodingField = []) : head.isChunked = false := by
  simp [ResponseHead.isChunked, ResponseHead.hasToken, h]

/-- Draining a framed body consumes exactly the body. -/
theorem drainResponseBody_exact {head : ResponseHead} {b : BufferedStream} {body rest : Bytes}
    (hpending : b.pending = body ++ rest)
    (hframed : FramedByLength head body ∨ FramedByChunks head body) :
    ∃ b', BufferedStream.drainResponseBody head b = (.ok (), b') ∧ b'.pending = rest := by
  rcases hframed with ⟨hcodings, hne, hvalues, hfits⟩ | ⟨⟨text, coding, hmem, hcoding, heq⟩, c, rfl⟩
  · obtain ⟨b₁, hdiscard, hrest, -⟩ := discardExact_of_data hpending
    refine ⟨b₁, ?_, hrest⟩
    have hlength : head.contentLength = .ok (some body.length) :=
      contentLengthFrom_of_announces hfits hvalues (Or.inl rfl) (Or.inl hne)
    simp only [BufferedStream.drainResponseBody, isChunked_eq_false_of_no_codings hcodings,
      hlength, hdiscard, Bool.false_eq_true, if_false]
  · have hchunked : head.isChunked = true := by
      refine List.any_eq_true.mpr ⟨utf8 text, hmem, ?_⟩
      simp only [ResponseHead.valueHasToken, fromUtf8_utf8]
      exact List.any_eq_true.mpr ⟨coding, hcoding, heq⟩
    obtain ⟨b₁, hdrain, hrest⟩ :=
      drainChunked_of_chunks (c.chunks_wire rest) hpending (Or.inl c.fitsLine)
    refine ⟨b₁, ?_, hrest⟩
    simp only [BufferedStream.drainResponseBody, hchunked, if_true, hdrain]

/-! ## A whole handshake -/

/-- The reads of a handshake with `rounds` challenges: read a head and drain
its body `rounds` times, then read the final head. -/
def readHandshake (httparse : Httparse) (maxHeaderBytes : Nat) :
    Nat → BufferedStream → Except HttpError (List ResponseHead) × BufferedStream
  | 0, b =>
      match BufferedStream.readResponseHead httparse maxHeaderBytes b with
      | (.error e, b) => (.error e, b)
      | (.ok head, b) => (.ok [head], b)
  | rounds + 1, b =>
      match BufferedStream.readResponseHead httparse maxHeaderBytes b with
      | (.error e, b) => (.error e, b)
      | (.ok head, b) =>
          match BufferedStream.drainResponseBody head b with
          | (.error e, b) => (.error e, b)
          | (.ok (), b) =>
              match readHandshake httparse maxHeaderBytes rounds b with
              | (.error e, b) => (.error e, b)
              | (.ok heads, b) => (.ok (head :: heads), b)

/-- The handshake lemma over an arbitrary initial buffer, by induction on the
list of responses; the invariant is the list of pending bytes. -/
theorem readHandshake_exact {httparse : Httparse} {maxHeaderBytes : Nat}
    (responses : List (FramedResponse httparse maxHeaderBytes))
    (final : HeadOnWire httparse maxHeaderBytes) (rest : Bytes) {b : BufferedStream}
    (hpending : b.pending = responses.flatMap FramedResponse.wire ++ final.raw ++ rest) :
    ∃ b', readHandshake httparse maxHeaderBytes responses.length b =
        (.ok (responses.map (fun response => response.head) ++ [final.head]), b') ∧
      b'.pending = rest := by
  induction responses generalizing b with
  | nil =>
      obtain ⟨b₁, hread, hrest⟩ := readResponseHead_exact httparse
        (show b.pending = final.raw ++ rest by simpa using hpending) final.ends final.fits
      rw [final.parse] at hread
      exact ⟨b₁, by simp [readHandshake, hread], hrest⟩
  | cons response responses ih =>
      have hcons : b.pending = response.raw ++ (response.body ++
          (responses.flatMap FramedResponse.wire ++ final.raw ++ rest)) := by
        simpa [FramedResponse.wire] using hpending
      obtain ⟨b₁, hread, hrest₁⟩ := readResponseHead_exact httparse hcons
        response.ends response.fits
      rw [response.toHeadOnWire.parse] at hread
      obtain ⟨b₂, hdrain, hrest₂⟩ := drainResponseBody_exact hrest₁ response.framed
      obtain ⟨b₃, hheads, hrest₃⟩ := ih hrest₂
      exact ⟨b₃, by simp [readHandshake, hread, hdrain, hheads], hrest₃⟩

/-- **Handshake framing is exact.**  Any number of framed responses, a final
head and arbitrary bytes behind it, cut into reads in any way: every call
succeeds, the heads come out in order, and what the reader leaves (its buffer,
then the unread stream) is exactly what follows the final head. -/
theorem handshake_framing_exact (httparse : Httparse) (maxHeaderBytes : Nat)
    (responses : List (FramedResponse httparse maxHeaderBytes))
    (final : HeadOnWire httparse maxHeaderBytes) (rest : Bytes) (stream : Incoming)
    (hstream : stream.unread =
      responses.flatMap FramedResponse.wire ++ final.raw ++ rest) :
    ∃ b', readHandshake httparse maxHeaderBytes responses.length (BufferedStream.new stream) =
        (.ok (responses.map (fun response => response.head) ++ [final.head]), b') ∧
      (BufferedStream.intoParts b').2 ++ (BufferedStream.intoParts b').1.unread = rest :=
  readHandshake_exact responses final rest
    (show (BufferedStream.new stream).pending = _ from hstream)

/-! A handshake with one `Content-Length` body, one chunked body with an
extension and a trailer, and three bytes of tunnel data. -/

private def lengthHead : Bytes :=
  utf8 "HTTP/1.1 407 A\r\nContent-Length: 5\r\n\r\n".toList

private def chunkedHead : Bytes :=
  utf8 "HTTP/1.1 407 A\r\nTransfer-Encoding: Chunked\r\n\r\n".toList

private def finalHead : Bytes :=
  utf8 "HTTP/1.1 200 OK\r\n\r\n".toList

private def sampleParser : Httparse :=
  .ofTables [] [
    (lengthHead, .complete 37,
      ⟨some 1, some 407, [⟨"Content-Length".toList, utf8 "5".toList⟩]⟩),
    (chunkedHead, .complete 46,
      ⟨some 1, some 407, [⟨"Transfer-Encoding".toList, utf8 "Chunked".toList⟩]⟩),
    (finalHead, .complete 19, ⟨some 1, some 200, []⟩)]

private def lengthResponse : FramedResponse sampleParser 1024 where
  raw := lengthHead
  head := ⟨1, 407, [⟨"Content-Length".toList, utf8 "5".toList⟩]⟩
  ends := by decide
  fits := by decide
  few := by decide
  parsed := fun _ hslots => ⟨.complete 37, Httparse.response_ofTables (by decide) hslots⟩
  body := utf8 "hello".toList
  framed := Or.inl ⟨by decide, by decide, by
    intro value hvalue
    rw [show ResponseHead.headerValues _ contentLengthField = [utf8 "5".toList] by decide,
      List.mem_singleton] at hvalue
    exact hvalue ▸ ⟨"5".toList, rfl, by decide, by decide, by decide⟩, by decide⟩

private def chunkedResponse : FramedResponse sampleParser 1024 where
  raw := chunkedHead
  head := ⟨1, 407, [⟨"Transfer-Encoding".toList, utf8 "Chunked".toList⟩]⟩
  ends := by decide
  fits := by decide
  few := by decide
  parsed := fun _ hslots => ⟨.complete 46, Httparse.response_ofTables (by decide) hslots⟩
  body := utf8 "2 ;x\r\nhi\r\n0\r\nT: 1\r\n\r\n".toList
  framed := Or.inr ⟨⟨"Chunked".toList, "Chunked".toList, by decide, by decide, by decide⟩, {
      chunks := [{
        data := utf8 "hi".toList
        line := ⟨"2".toList, " ;x".toList, by decide, by decide, by decide, by decide,
          Or.inr ⟨" ".toList, "x".toList, by decide, by decide⟩, by decide, by decide⟩
        data_ne_nil := by decide }]
      last := ⟨"0".toList, [], by decide, by decide, by decide, by decide, Or.inl rfl,
        by decide, by decide⟩
      trailers := [⟨utf8 "T: 1".toList, by decide, by decide, by decide⟩] }, by decide⟩

private def finalOnWire : HeadOnWire sampleParser 1024 where
  raw := finalHead
  head := ⟨1, 200, []⟩
  ends := by decide
  fits := by decide
  few := by decide
  parsed := fun _ hslots => ⟨.complete 19, Httparse.response_ofTables (by decide) hslots⟩

/-- The three heads of the sample, cut inside a head end and inside a chunk. -/
theorem handshake_framing_exact_sample :
    ∃ b', readHandshake sampleParser 1024 2 (BufferedStream.new
        ⟨[⟨lengthHead.take 35, by decide⟩,
          ⟨lengthHead.drop 35 ++ utf8 "hello".toList ++ chunkedHead ++
            utf8 "2 ;x\r\nh".toList, by decide⟩,
          ⟨utf8 "i\r\n0\r\nT: 1\r\n\r".toList, by decide⟩,
          ⟨utf8 "\n".toList ++ finalHead ++ utf8 "TLS".toList, by decide⟩], none⟩) =
        (.ok [lengthResponse.head, chunkedResponse.head, finalOnWire.head], b') ∧
      (BufferedStream.intoParts b').2 ++ (BufferedStream.intoParts b').1.unread =
        utf8 "TLS".toList :=
  handshake_framing_exact sampleParser 1024 [lengthResponse, chunkedResponse] finalOnWire
    (utf8 "TLS".toList) _ (by decide)

end Http1
end Fastpx
