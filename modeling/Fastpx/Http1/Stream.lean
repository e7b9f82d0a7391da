import Fastpx.StreamKit.Pattern
import Fastpx.StreamKit.Source
import Fastpx.Http1.Head

/-!
# Reading heads and draining bodies

The readers of `http1.rs` over a segmented connection.  A `BufferedStream` is
the receiving side of a socket together with the bytes read ahead of need; the
sending side is not touched here and lives with the connection in the server.

Three loops of the source have the same shape (search the buffer, give up at a
limit, read more): the head loop of `read_response_head`, `read_head_bytes`
and `read_line`.  Each is an instance of `Buffered.fill` with its own search,
limit, read size and error.  The loops of `drain_chunked` recurse on the number
of pending bytes, which every line read makes smaller.
-/

namespace Fastpx
namespace Http1

open StreamKit

/-- The receiving side of a TCP connection. -/
abbrev Incoming := Source UInt8 IoError

/-- A connection's receiving side and the bytes read ahead of need. -/
abbrev BufferedStream := Buffered UInt8 IoError

/-- The bytes of a line end. -/
def crlf : Bytes := [13, 10]

/-- The bytes which end a head. -/
def crlfcrlf : Bytes := [13, 10, 13, 10]

/-- The position just after the first empty line made of `CRLF CRLF`. -/
def findHeaderEnd (bytes : Bytes) : Option Nat :=
  (firstIndex crlfcrlf bytes).map (· + 4)

/-- The position of the first line end. -/
def findLineEnd (bytes : Bytes) : Option Nat :=
  firstIndex crlf bytes

/-- A head end found early stays the head end. -/
theorem findHeaderEnd_append {bytes : Bytes} {stop : Nat}
    (h : findHeaderEnd bytes = some stop) (later : Bytes) :
    findHeaderEnd (bytes ++ later) = some stop := by
  obtain ⟨i, hi, rfl⟩ := Option.map_eq_some_iff.mp h
  rw [findHeaderEnd, firstIndex_append_of_some hi later]
  rfl

/-- The head cut off at its end is as long as the reported position and has no
earlier end. -/
theorem findHeaderEnd_take {bytes : Bytes} {stop : Nat}
    (h : findHeaderEnd bytes = some stop) :
    (bytes.take stop).length = stop ∧ findHeaderEnd (bytes.take stop) = some stop := by
  obtain ⟨i, hi, rfl⟩ := Option.map_eq_some_iff.mp h
  have hlen := firstIndex_add_length_le hi
  have hpattern : crlfcrlf.length = 4 := rfl
  have htake : (bytes.take (i + 4)).length = i + 4 := by
    rw [List.length_take]
    omega
  refine ⟨htake, ?_⟩
  have hwhole : firstIndex crlfcrlf (bytes.take (i + 4) ++ bytes.drop (i + 4)) = some i := by
    rw [List.take_append_drop]
    exact hi
  rw [findHeaderEnd, firstIndex_left_of_append hwhole (by omega) (by simp [crlfcrlf])]
  rfl

/-- A stream has one head. -/
theorem head_unique {raw raw' later later' : Bytes} (h : raw ++ later = raw' ++ later')
    (hraw : findHeaderEnd raw = some raw.length) (hraw' : findHeaderEnd raw' = some raw'.length) :
    raw = raw' ∧ later = later' := by
  have hstop := findHeaderEnd_append hraw later
  rw [h, findHeaderEnd_append hraw' later'] at hstop
  exact List.append_inj h (Option.some.inj hstop).symm

/-- A line end found early stays the line end. -/
theorem findLineEnd_append {bytes : Bytes} {index : Nat}
    (h : findLineEnd bytes = some index) (later : Bytes) :
    findLineEnd (bytes ++ later) = some index :=
  firstIndex_append_of_some h later

/-- How a stopped loop is reported: `full` by the caller's own error. -/
def stopError (full : HttpError) : Stop IoError → HttpError
  | .full => full
  | .ended => .unexpectedEof
  | .failed e => .io e

/-- The read size of the head loops: what is left of the budget, at most
8192 bytes. -/
def headRoom (maxHeaderBytes : Nat) (len : Nat) : Nat :=
  min 8192 (maxHeaderBytes - len)

/-- The read size of `read_line`. -/
def lineRoom (_len : Nat) : Nat := 1024

/-- The size of the scratch array of `discard_exact`. -/
def discardRoom : Nat := 8192

/-- Read a head from a fresh reader; the result may reach past the head. -/
def readHeadBytes (reader : Incoming) (maxHeaderBytes : Nat) :
    Except HttpError Bytes × Incoming :=
  match Buffered.fill findHeaderEnd maxHeaderBytes (headRoom maxHeaderBytes) ⟨reader, []⟩ with
  | (.ok _, b) => (.ok b.buffer, b.stream)
  | (.error stop, b) => (.error (stopError .headerTooLarge stop), b.stream)

/-- Read and parse a request head; the second component is what was read
beyond it. -/
def readRequestHead (httparse : Httparse) (reader : Incoming) (maxHeaderBytes : Nat) :
    Except HttpError (RequestHead × Bytes) × Incoming :=
  match readHeadBytes reader maxHeaderBytes with
  | (.error e, reader) => (.error e, reader)
  | (.ok bytes, reader) =>
      match findHeaderEnd bytes with
      | none => (.error .unexpectedEof, reader)
      | some stop =>
          match parseRequestHead httparse (bytes.take stop) with
          | .error e => (.error e, reader)
          | .ok head => (.ok (head, bytes.drop stop), reader)

namespace BufferedStream

/-- A stream with nothing read yet. -/
def new (stream : Incoming) : BufferedStream := ⟨stream, []⟩

/-- The receiving side and the bytes read ahead. -/
def intoParts (b : BufferedStream) : Incoming × Bytes := (b.stream, b.buffer)

/-- Read one response head and leave everything after it pending. -/
def readResponseHead (httparse : Httparse) (maxHeaderBytes : Nat) (b : BufferedStream) :
    Except HttpError ResponseHead × BufferedStream :=
  match Buffered.fill findHeaderEnd maxHeaderBytes (headRoom maxHeaderBytes) b with
  | (.ok stop, b) =>
      (parseResponseHead httparse (b.buffer.take stop), ⟨b.stream, b.buffer.drop stop⟩)
  | (.error stop, b) => (.error (stopError .headerTooLarge stop), b)

/-- Consume exactly `remaining` bytes. -/
def discardExact (b : BufferedStream) (remaining : Nat) :
    Except HttpError Unit × BufferedStream :=
  match Buffered.discard discardRoom b remaining with
  | (.ok (), b) => (.ok (), b)
  | (.error stop, b) => (.error (stopError .unexpectedEof stop), b)

/-- Consume one line and its `CRLF`; the line is returned. -/
def readLine (b : BufferedStream) (maxBytes : Nat) : Except HttpError Bytes × BufferedStream :=
  match Buffered.fill findLineEnd maxBytes lineRoom b with
  | (.ok index, b) => (.ok (b.buffer.take index), ⟨b.stream, b.buffer.drop (index + 2)⟩)
  | (.error stop, b) => (.error (stopError .invalidChunkedBody stop), b)

end BufferedStream

/-! ## What the line and body readers consume -/

theorem headRoom_pos {maxHeaderBytes : Nat} :
    ∀ len, len < maxHeaderBytes → 0 < headRoom maxHeaderBytes len := by
  intro len hlen
  unfold headRoom
  omega

theorem lineRoom_pos {limit : Nat} : ∀ len, len < limit → 0 < lineRoom len := by
  intro len _
  unfold lineRoom
  omega

/-- A hit of the pattern search cuts the text into three parts. -/
theorem eq_take_append_drop_of_firstIndex {pattern text : Bytes} {i : Nat}
    (h : firstIndex pattern text = some i) :
    text = text.take i ++ pattern ++ text.drop (i + pattern.length) := by
  obtain ⟨rest, hrest⟩ := firstIndex_isPrefix_drop h
  have hdrop : text.drop (i + pattern.length) = rest := by
    rw [← List.drop_drop, ← hrest, List.drop_left]
  rw [hdrop, List.append_assoc, hrest, List.take_append_drop]

/-- A head read consumes exactly the bytes up to the first `CRLF CRLF`, and
parses them. -/
theorem readResponseHead_ok {httparse : Httparse} {maxHeaderBytes : Nat}
    {b b' : BufferedStream} {head : ResponseHead}
    (h : BufferedStream.readResponseHead httparse maxHeaderBytes b = (.ok head, b')) :
    ∃ raw, b.pending = raw ++ b'.pending ∧ findHeaderEnd raw = some raw.length ∧
      parseResponseHead httparse raw = .ok head ∧
      b'.stream.ending = b.stream.ending := by
  unfold BufferedStream.readResponseHead at h
  split at h
  · next stop b₁ hfill =>
      obtain ⟨hparse, rfl⟩ := Prod.mk.inj h
      obtain ⟨hfound, hkeep, -, hending⟩ := Buffered.fill_ok headRoom_pos hfill
      obtain ⟨hlen, hend⟩ := findHeaderEnd_take hfound
      refine ⟨b₁.buffer.take stop, ?_, by rw [hlen, hend], hparse, hending⟩
      rw [← hkeep, Buffered.pending, Buffered.pending, ← List.append_assoc,
        List.take_append_drop]
  · cases (Prod.mk.inj h).1

/-- A request head read splits the stream at the first `CRLF CRLF`: the head
is parsed, the bytes after it are returned or still unread. -/
theorem readRequestHead_ok {httparse : Httparse} {maxHeaderBytes : Nat}
    {reader reader' : Incoming} {head : RequestHead} {rest : Bytes}
    (h : readRequestHead httparse reader maxHeaderBytes = (.ok (head, rest), reader')) :
    ∃ raw, reader.unread = raw ++ (rest ++ reader'.unread) ∧
      findHeaderEnd raw = some raw.length ∧ parseRequestHead httparse raw = .ok head ∧
      reader'.ending = reader.ending := by
  unfold readRequestHead readHeadBytes at h
  split at h
  · cases (Prod.mk.inj h).1
  · next bytes reader₁ hbytes =>
      split at hbytes
      · next stop b₁ hfill =>
          obtain ⟨hb, rfl⟩ := Prod.mk.inj hbytes
          obtain rfl := Except.ok.inj hb
          obtain ⟨hfound, hkeep, -, hending⟩ := Buffered.fill_ok headRoom_pos hfill
          obtain ⟨hlen, hend⟩ := findHeaderEnd_take hfound
          simp only [hfound] at h
          split at h
          · cases (Prod.mk.inj h).1
          · next head' hparse =>
              obtain ⟨hresult, rfl⟩ := Prod.mk.inj h
              obtain ⟨rfl, rfl⟩ := Prod.mk.inj (Except.ok.inj hresult)
              refine ⟨b₁.buffer.take stop, ?_, by rw [hlen, hend], hparse, hending⟩
              rw [← List.append_assoc, List.take_append_drop]
              exact hkeep.symm
      · cases (Prod.mk.inj hbytes).1

/-- A line read consumes the line and its two end bytes, and the line has no
earlier end. -/
theorem readLine_ok {b b' : BufferedStream} {maxBytes : Nat} {line : Bytes}
    (h : BufferedStream.readLine b maxBytes = (.ok line, b')) :
    b.pending = line ++ crlf ++ b'.pending ∧ findLineEnd (line ++ crlf) = some line.length ∧
      b'.stream.ending = b.stream.ending := by
  unfold BufferedStream.readLine at h
  split at h
  · next index b₁ hfill =>
      obtain ⟨hline, rfl⟩ := Prod.mk.inj h
      obtain rfl := Except.ok.inj hline
      obtain ⟨hfound, hkeep, -, hending⟩ := Buffered.fill_ok lineRoom_pos hfill
      have hcut := eq_take_append_drop_of_firstIndex hfound
      have hlen := firstIndex_add_length_le hfound
      have hcrlf : crlf.length = 2 := rfl
      have hindex : (b₁.buffer.take index).length = index := by
        rw [List.length_take]
        omega
      refine ⟨?_, ?_, hending⟩
      · rw [← hkeep]
        conv_lhs => rw [Buffered.pending, hcut]
        simp [Buffered.pending, hcrlf]
      · have hwhole : firstIndex crlf (b₁.buffer.take index ++ crlf ++
            b₁.buffer.drop (index + crlf.length)) = some index := hcut ▸ hfound
        rw [hindex]
        exact firstIndex_left_of_append hwhole (by simp [hindex]) (by simp [crlf])
  · cases (Prod.mk.inj h).1

/-- Every line read makes the pending bytes fewer. -/
theorem readLine_pending_lt {b b' : BufferedStream} {maxBytes : Nat} {line : Bytes}
    (h : BufferedStream.readLine b maxBytes = (.ok line, b')) :
    b'.pending.length < b.pending.length := by
  rw [(readLine_ok h).1]
  simp [crlf]
  omega

/-- A successful discard consumes exactly the requested bytes. -/
theorem discardExact_ok {b b' : BufferedStream} {remaining : Nat}
    (h : BufferedStream.discardExact b remaining = (.ok (), b')) :
    remaining ≤ b.pending.length ∧ b'.pending = b.pending.drop remaining ∧
      b'.stream.ending = b.stream.ending := by
  unfold BufferedStream.discardExact at h
  by_cases hlen : remaining ≤ b.pending.length
  · obtain ⟨b₁, hb₁, hpending, hending⟩ :=
      Buffered.discard_ok (show 0 < discardRoom by decide) b hlen
    rw [hb₁] at h
    obtain ⟨-, rfl⟩ := Prod.mk.inj h
    exact ⟨hlen, hpending, hending⟩
  · obtain ⟨b₁, hb₁, -⟩ :=
      Buffered.discard_error (show 0 < discardRoom by decide) b (not_le.mp hlen)
    rw [hb₁] at h
    cases (Prod.mk.inj h).1

theorem discardExact_pending_le {b b' : BufferedStream} {remaining : Nat}
    (h : BufferedStream.discardExact b remaining = (.ok (), b')) :
    b'.pending.length ≤ b.pending.length := by
  rw [(discardExact_ok h).2.1, List.length_drop]
  omega

namespace BufferedStream

/-! ## Chunked bodies -/

/-- The size announced by a chunk-size line: the text before any `;`,
trimmed, as a hexadecimal `usize`. -/
def chunkSize (line : Bytes) : Except HttpError Nat :=
  match fromUtf8 line with
  | none => .error .invalidChunkedBody
  | some text =>
      -- chunk extensions are cut off and never looked at
      match (text.splitOn ';').head? with
      | none => .error .invalidChunkedBody
      | some sizeText =>
          match fromStrRadix usizeMax 16 (trim sizeText) with
          | .error _ => .error .invalidChunkedBody
          | .ok size => .ok size

/-- The line limit of size and trailer lines. -/
def lineLimit : Nat := 8192

/-- The trailer loop: consume lines up to and including the first empty one. -/
def drainTrailers (b : BufferedStream) : Except HttpError Unit × BufferedStream :=
  match _hline : readLine b lineLimit with
  | (.error e, b₁) => (.error e, b₁)
  | (.ok line, b₁) => if line = [] then (.ok (), b₁) else drainTrailers b₁
termination_by b.pending.length
decreasing_by exact readLine_pending_lt _hline

theorem drainTrailers_of_readLine {b b₁ : BufferedStream} {line : Bytes}
    (h : readLine b lineLimit = (.ok line, b₁)) :
    drainTrailers b = if line = [] then (.ok (), b₁) else drainTrailers b₁ := by
  rw [drainTrailers]
  split <;> simp_all

theorem drainTrailers_of_error {b b₁ : BufferedStream} {e : HttpError}
    (h : readLine b lineLimit = (.error e, b₁)) : drainTrailers b = (.error e, b₁) := by
  rw [drainTrailers]
  split <;> simp_all

/-- The chunk loop. -/
def drainChunked (b : BufferedStream) : Except HttpError Unit × BufferedStream :=
  match _hline : readLine b lineLimit with
  | (.error e, b₁) => (.error e, b₁)
  | (.ok line, b₁) =>
      match chunkSize line with
      | .error e => (.error e, b₁)
      | .ok size =>
          if size = 0 then drainTrailers b₁
          else
            match _hdata : discardExact b₁ size with
            | (.error e, b₂) => (.error e, b₂)
            | (.ok (), b₂) =>
                -- the limit of two leaves no room for anything but the `CRLF` itself,
                -- unless more is already in the buffer
                match _hend : readLine b₂ 2 with
                | (.error e, b₃) => (.error e, b₃)
                | (.ok terminator, b₃) =>
                    if terminator = [] then drainChunked b₃
                    else (.error .invalidChunkedBody, b₃)
termination_by b.pending.length
decreasing_by
  have h₁ := readLine_pending_lt _hline
  have h₂ := discardExact_pending_le _hdata
  have h₃ := readLine_pending_lt _hend
  omega

theorem drainChunked_of_error {b b₁ : BufferedStream} {e : HttpError}
    (h : readLine b lineLimit = (.error e, b₁)) : drainChunked b = (.error e, b₁) := by
  rw [drainChunked]
  split <;> simp_all

/-- One turn of the chunk loop after its size line. -/
theorem drainChunked_of_readLine {b b₁ : BufferedStream} {line : Bytes}
    (h : readLine b lineLimit = (.ok line, b₁)) :
    drainChunked b =
      match chunkSize line with
      | .error e => (.error e, b₁)
      | .ok size =>
          if size = 0 then drainTrailers b₁
          else
            match discardExact b₁ size with
            | (.error e, b₂) => (.error e, b₂)
            | (.ok (), b₂) =>
                match readLine b₂ 2 with
                | (.error e, b₃) => (.error e, b₃)
                | (.ok terminator, b₃) =>
                    if terminator = [] then drainChunked b₃
                    else (.error .invalidChunkedBody, b₃) := by
  conv_lhs => rw [drainChunked]
  split
  · next e b₁' h' => cases (Prod.mk.inj (h.symm.trans h')).1
  · next line' b₁' h' =>
      obtain ⟨hline, rfl⟩ := Prod.mk.inj (h.symm.trans h')
      obtain rfl := Except.ok.inj hline
      cases chunkSize line with
      | error e => rfl
      | ok size =>
          by_cases hzero : size = 0
          · simp only [if_pos hzero]
          · simp only [if_neg hzero]
            split
            · next e b₂ hdata => rw [hdata]
            · next b₂ hdata =>
                simp only [hdata]
                split
                · next e b₃ hend => rw [hend]
                · next terminator b₃ hend => rw [hend]

/-- A zero-size line hands over to the trailer loop. -/
theorem drainChunked_of_last {b b₁ : BufferedStream} {line : Bytes}
    (h : readLine b lineLimit = (.ok line, b₁)) (hsize : chunkSize line = .ok 0) :
    drainChunked b = drainTrailers b₁ := by
  rw [drainChunked_of_readLine h, hsize]
  exact if_pos rfl

/-- A complete chunk is one turn of the chunk loop. -/
theorem drainChunked_of_chunk {b b₁ b₂ b₃ : BufferedStream} {line : Bytes} {size : Nat}
    (hline : readLine b lineLimit = (.ok line, b₁)) (hsize : chunkSize line = .ok size)
    (hpos : size ≠ 0) (hdata : discardExact b₁ size = (.ok (), b₂))
    (hend : readLine b₂ 2 = (.ok [], b₃)) :
    drainChunked b = drainChunked b₃ := by
  rw [drainChunked_of_readLine hline, hsize]
  simp only [if_neg hpos, hdata, hend, if_pos]

/-- Consume the body of a response according to its framing headers. -/
def drainResponseBody (response : ResponseHead) (b : BufferedStream) :
    Except HttpError Unit × BufferedStream :=
  if response.isChunked then drainChunked b
  else
    match response.contentLength with
    | .error e => (.error e, b)
    | .ok (some length) => discardExact b length
    -- a close-delimited body is left where it is; the callers look at `Connection`
    | .ok none => (.ok (), b)

end BufferedStream

end Http1
end Fastpx
