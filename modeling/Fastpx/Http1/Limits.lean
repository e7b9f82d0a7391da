import Fastpx.Http1.Stream

/-!
# Limits of the readers

The head loops never ask for more than their budget leaves, so what they return
depends on the bytes of the stream alone (`head_reading_trichotomy`).  The line
reader may exceed its limit by one read; what stays in the buffer behind a line
is nevertheless less than one read, so that a connection keeps within
`max_header_bytes` between its calls (`buffer_bounded`).
-/

namespace Fastpx
namespace Http1

open StreamKit

/-! ## The head loop -/

/-- The first `CRLF CRLF` of the bytes ends at `stop`. -/
def EndsHead (bytes : Bytes) (stop : Nat) : Prop :=
  ∃ i, stop = i + 4 ∧ crlfcrlf <+: bytes.drop i ∧ ∀ j < i, ¬ crlfcrlf <+: bytes.drop j

theorem findHeaderEnd_eq_some_iff {bytes : Bytes} {stop : Nat} :
    findHeaderEnd bytes = some stop ↔ EndsHead bytes stop := by
  constructor
  · intro h
    obtain ⟨i, hi, rfl⟩ := Option.map_eq_some_iff.mp h
    exact ⟨i, rfl, (firstIndex_eq_some_iff (by decide)).mp hi⟩
  · rintro ⟨i, rfl, hfirst⟩
    rw [findHeaderEnd, (firstIndex_eq_some_iff (by decide)).mpr hfirst]
    rfl

/-- The loop which `read_head_bytes` and `read_response_head` share: where the
head ends, and the reader when the loop is left. -/
def headLoop (maxHeaderBytes : Nat) (b : BufferedStream) : Except HttpError Nat × BufferedStream :=
  match Buffered.fill findHeaderEnd maxHeaderBytes (headRoom maxHeaderBytes) b with
  | (.ok stop, b) => (.ok stop, b)
  | (.error stop, b) => (.error (stopError .headerTooLarge stop), b)

theorem readHeadBytes_eq (reader : Incoming) (maxHeaderBytes : Nat) :
    readHeadBytes reader maxHeaderBytes =
      match headLoop maxHeaderBytes ⟨reader, []⟩ with
      | (.ok _, b) => (.ok b.buffer, b.stream)
      | (.error e, b) => (.error e, b.stream) := by
  unfold readHeadBytes headLoop
  split <;> simp_all

theorem readResponseHead_eq (httparse : Httparse) (maxHeaderBytes : Nat) (b : BufferedStream) :
    BufferedStream.readResponseHead httparse maxHeaderBytes b =
      match headLoop maxHeaderBytes b with
      | (.ok stop, b) =>
          (parseResponseHead httparse (b.buffer.take stop), ⟨b.stream, b.buffer.drop stop⟩)
      | (.error e, b) => (.error e, b) := by
  unfold BufferedStream.readResponseHead headLoop
  split <;> simp_all

theorem locates_findHeaderEnd : Buffered.Locates findHeaderEnd where
  take bytes stop h := by
    obtain ⟨hlength, hcut⟩ := findHeaderEnd_take h
    rw [List.length_take] at hlength
    exact ⟨by omega, hcut⟩
  append _ later _ h := findHeaderEnd_append h later

theorem headRoom_le {maxHeaderBytes : Nat} :
    ∀ len, len < maxHeaderBytes → len + headRoom maxHeaderBytes len ≤ maxHeaderBytes := by
  intro len hlen
  unfold headRoom
  omega

/-- What a loop over the bytes `stream`, which end with the end of the
connection, returns and leaves. -/
structure HeadTrichotomy (maxHeaderBytes : Nat) (stream : Bytes)
    (r : Except HttpError Nat × BufferedStream) : Prop where
  succeeds_iff : (∃ stop, r.1 = .ok stop) ↔ ∃ stop ≤ maxHeaderBytes, EndsHead stream stop
  position : ∀ stop, r.1 = .ok stop →
    EndsHead stream stop ∧ findHeaderEnd r.2.buffer = some stop
  bounded : r.2.buffer.length ≤ maxHeaderBytes
  kept : r.2.buffer ++ r.2.stream.unread = stream
  too_large_iff : r.1 = .error .headerTooLarge ↔
    (¬ ∃ stop ≤ maxHeaderBytes, EndsHead stream stop) ∧ maxHeaderBytes ≤ stream.length
  ended_iff : r.1 = .error .unexpectedEof ↔
    (¬ ∃ stop ≤ maxHeaderBytes, EndsHead stream stop) ∧ stream.length < maxHeaderBytes

theorem headLoop_trichotomy {maxHeaderBytes : Nat} {b : BufferedStream}
    (hb : b.buffer.length ≤ maxHeaderBytes) (hending : b.stream.ending = none) :
    HeadTrichotomy maxHeaderBytes b.pending (headLoop maxHeaderBytes b) := by
  have hlocate := Buffered.fill_locate locates_findHeaderEnd headRoom_pos headRoom_le hb
  have hverdict := Buffered.fill_verdict findHeaderEnd (@headRoom_pos maxHeaderBytes) b
  have hlength := Buffered.fill_length_le findHeaderEnd headRoom_pos headRoom_le hb
  have hkeep := (Buffered.fill_keeps findHeaderEnd (@headRoom_pos maxHeaderBytes) b).1
  rw [hending] at hlocate
  unfold headLoop
  generalize Buffered.fill findHeaderEnd maxHeaderBytes (headRoom maxHeaderBytes) b = result
    at hlocate hverdict hlength hkeep
  obtain ⟨outcome, b'⟩ := result
  -- the three outcomes exclude each other, so each of them decides all equivalences
  cases outcome with
  | ok stop =>
      have hends := findHeaderEnd_eq_some_iff.mp hlocate.1
      have hexists : ∃ stop ≤ maxHeaderBytes, EndsHead b.pending stop :=
        ⟨stop, hlocate.2, hends⟩
      refine ⟨by simpa using hexists, ?_, hlength, hkeep, by simp [hexists], by simp [hexists]⟩
      intro stop' hstop'
      obtain rfl := Except.ok.inj hstop'
      exact ⟨hends, hverdict⟩
  | error stop =>
      cases stop with
      | full =>
          have hnot : ¬ ∃ stop ≤ maxHeaderBytes, EndsHead b.pending stop := by
            rintro ⟨stop, hle, hends⟩
            exact absurd (hlocate.1 stop (findHeaderEnd_eq_some_iff.mpr hends))
              (Nat.not_lt.mpr hle)
          have hlarge := hlocate.2
          refine ⟨by simpa using hnot, by simp, hlength, hkeep, ?_, ?_⟩
          · simp [stopError, hnot, hlarge]
          · simp [stopError, Nat.not_lt.mpr hlarge]
      | ended =>
          have hnot : ¬ ∃ stop ≤ maxHeaderBytes, EndsHead b.pending stop := by
            rintro ⟨stop, -, hends⟩
            cases (findHeaderEnd_eq_some_iff.mpr hends).symm.trans hlocate.1
          have hsmall := hlocate.2.1
          refine ⟨by simpa using hnot, by simp, hlength, hkeep, ?_, ?_⟩
          · simp [stopError, Nat.not_le.mpr hsmall]
          · simp [stopError, hnot, hsmall]
      | failed e => exact absurd hlocate.2.2 (by simp)

/-- **Head reading has one meaning for every segmentation.**  For a stream which
ends with the end of the connection, the loop of `read_head_bytes` and, for
every initial buffer within the limit, that of `read_response_head` find the
end of the head exactly if the first `CRLF CRLF` ends within the limit; if not,
they report a head that is too large or the end of the stream, according to the
number of bytes. -/
theorem head_reading_trichotomy (maxHeaderBytes : Nat) :
    (∀ reader : Incoming, reader.ending = none →
      HeadTrichotomy maxHeaderBytes reader.unread (headLoop maxHeaderBytes ⟨reader, []⟩) ∧
        readHeadBytes reader maxHeaderBytes =
          match headLoop maxHeaderBytes ⟨reader, []⟩ with
          | (.ok _, b) => (.ok b.buffer, b.stream)
          | (.error e, b) => (.error e, b.stream)) ∧
    (∀ (httparse : Httparse) (b : BufferedStream), b.buffer.length ≤ maxHeaderBytes →
      b.stream.ending = none →
      HeadTrichotomy maxHeaderBytes b.pending (headLoop maxHeaderBytes b) ∧
        BufferedStream.readResponseHead httparse maxHeaderBytes b =
          match headLoop maxHeaderBytes b with
          | (.ok stop, b) =>
              (parseResponseHead httparse (b.buffer.take stop), ⟨b.stream, b.buffer.drop stop⟩)
          | (.error e, b) => (.error e, b)) := by
  constructor
  · intro reader hending
    refine ⟨?_, readHeadBytes_eq reader maxHeaderBytes⟩
    exact headLoop_trichotomy (b := ⟨reader, []⟩) (Nat.zero_le maxHeaderBytes) hending
  · intro httparse b hb hending
    exact ⟨headLoop_trichotomy hb hending, readResponseHead_eq httparse maxHeaderBytes b⟩

/-! ## Inside the calls -/

/-- The calls on a buffered stream. -/
inductive Call where
  | head (maxHeaderBytes : Nat)
  | line (maxBytes : Nat)
  | discard (remaining : Nat)
  | trailers
  | chunked
  | body (response : ResponseHead)

/-- `Visits call b b'`: a call which starts in `b` has the stream in the state
`b'` at some point. -/
inductive Visits : Call → BufferedStream → BufferedStream → Prop
  | entered (call : Call) (b : BufferedStream) : Visits call b b
  | headRead {maxHeaderBytes : Nat} {b b' : BufferedStream} {bytes : Bytes} {s : Incoming}
      (hnone : findHeaderEnd b.buffer = none) (hroom : b.buffer.length < maxHeaderBytes)
      (hread : b.stream.read (headRoom maxHeaderBytes b.buffer.length) = (.ok bytes, s))
      (hlater : Visits (.head maxHeaderBytes) ⟨s, b.buffer ++ bytes⟩ b') :
      Visits (.head maxHeaderBytes) b b'
  | headCut {maxHeaderBytes stop : Nat} {b : BufferedStream}
      (hfound : findHeaderEnd b.buffer = some stop) :
      Visits (.head maxHeaderBytes) b ⟨b.stream, b.buffer.drop stop⟩
  | lineRead {maxBytes : Nat} {b b' : BufferedStream} {bytes : Bytes} {s : Incoming}
      (hnone : findLineEnd b.buffer = none) (hroom : b.buffer.length < maxBytes)
      (hread : b.stream.read (lineRoom b.buffer.length) = (.ok bytes, s))
      (hlater : Visits (.line maxBytes) ⟨s, b.buffer ++ bytes⟩ b') : Visits (.line maxBytes) b b'
  | lineCut {maxBytes index : Nat} {b : BufferedStream}
      (hfound : findLineEnd b.buffer = some index) :
      Visits (.line maxBytes) b ⟨b.stream, b.buffer.drop (index + 2)⟩
  -- the reads of a discard go to an array of its own
  | discarded {remaining : Nat} {b : BufferedStream} {s : Incoming}
      (hs : s.unread <:+ b.stream.unread) :
      Visits (.discard remaining) b ⟨s, b.buffer.drop (min remaining b.buffer.length)⟩
  | trailersLine {b b' : BufferedStream} (hline : Visits (.line BufferedStream.lineLimit) b b') :
      Visits .trailers b b'
  | trailersNext {b b₁ b' : BufferedStream} {line : Bytes}
      (hread : b.readLine BufferedStream.lineLimit = (.ok line, b₁)) (hne : line ≠ [])
      (hlater : Visits .trailers b₁ b') : Visits .trailers b b'
  | chunkedLine {b b' : BufferedStream} (hline : Visits (.line BufferedStream.lineLimit) b b') :
      Visits .chunked b b'
  | chunkedTrailers {b b₁ b' : BufferedStream} {line : Bytes}
      (hread : b.readLine BufferedStream.lineLimit = (.ok line, b₁))
      (hsize : BufferedStream.chunkSize line = .ok 0) (hlater : Visits .trailers b₁ b') :
      Visits .chunked b b'
  | chunkedData {b b₁ b' : BufferedStream} {line : Bytes} {size : Nat}
      (hread : b.readLine BufferedStream.lineLimit = (.ok line, b₁))
      (hsize : BufferedStream.chunkSize line = .ok size) (hpos : size ≠ 0)
      (hdata : Visits (.discard size) b₁ b') : Visits .chunked b b'
  | chunkedEnd {b b₁ b₂ b' : BufferedStream} {line : Bytes} {size : Nat}
      (hread : b.readLine BufferedStream.lineLimit = (.ok line, b₁))
      (hsize : BufferedStream.chunkSize line = .ok size) (hpos : size ≠ 0)
      (hdata : b₁.discardExact size = (.ok (), b₂)) (hline : Visits (.line 2) b₂ b') :
      Visits .chunked b b'
  | chunkedNext {b b₁ b₂ b₃ b' : BufferedStream} {line : Bytes} {size : Nat}
      (hread : b.readLine BufferedStream.lineLimit = (.ok line, b₁))
      (hsize : BufferedStream.chunkSize line = .ok size) (hpos : size ≠ 0)
      (hdata : b₁.discardExact size = (.ok (), b₂)) (hend : b₂.readLine 2 = (.ok [], b₃))
      (hlater : Visits .chunked b₃ b') : Visits .chunked b b'
  | bodyChunked {response : ResponseHead} {b b' : BufferedStream}
      (hchunked : response.isChunked = true) (hlater : Visits .chunked b b') :
      Visits (.body response) b b'
  | bodyLength {response : ResponseHead} {b b' : BufferedStream} {length : Nat}
      (hchunked : response.isChunked = false) (hlength : response.contentLength = .ok (some length))
      (hlater : Visits (.discard length) b b') : Visits (.body response) b b'

/-! ### The state in which a call returns is one of the states it visits -/

theorem visits_fill {call : Call} {found : Bytes → Option Nat} {limit : Nat} {wanted : Nat → Nat}
    {cut : Nat → Nat} (hw : ∀ len, len < limit → 0 < wanted len)
    (hcut : ∀ (b : BufferedStream) i, found b.buffer = some i →
      Visits call b ⟨b.stream, b.buffer.drop (cut i)⟩)
    (hread : ∀ (b b' : BufferedStream) bytes s, found b.buffer = none → b.buffer.length < limit →
      b.stream.read (wanted b.buffer.length) = (.ok bytes, s) →
      Visits call ⟨s, b.buffer ++ bytes⟩ b' → Visits call b b') (b : BufferedStream) :
    match Buffered.fill found limit wanted b with
    | (.ok i, b') => Visits call b ⟨b'.stream, b'.buffer.drop (cut i)⟩
    | (.error _, b') => Visits call b b' := by
  refine Buffered.fill_induction
    (motive := fun b result => match result with
      | (.ok i, b') => Visits call b ⟨b'.stream, b'.buffer.drop (cut i)⟩
      | (.error _, b') => Visits call b b') hw hcut ?_ ?_ ?_ b
  · exact fun b _ _ => Visits.entered call b
  · exact fun b _ _ _ => Visits.entered call b
  · intro b x xs s result hnone hlt hbytes _ hlater
    obtain ⟨outcome, b'⟩ := result
    cases outcome with
    | ok i => exact hread b _ _ s hnone hlt hbytes hlater
    | error e => exact hread b _ _ s hnone hlt hbytes hlater

theorem visits_readResponseHead (httparse : Httparse) (maxHeaderBytes : Nat)
    (b : BufferedStream) :
    Visits (.head maxHeaderBytes) b (b.readResponseHead httparse maxHeaderBytes).2 := by
  have hloop := visits_fill (@headRoom_pos maxHeaderBytes)
    (fun b _ hfound => Visits.headCut hfound)
    (fun _ _ _ _ hnone hroom hread hlater => Visits.headRead hnone hroom hread hlater) b
  unfold BufferedStream.readResponseHead
  split
  · next stop b' hfill => rwa [hfill] at hloop
  · next e b' hfill => rwa [hfill] at hloop

theorem visits_readLine (maxBytes : Nat) (b : BufferedStream) :
    Visits (.line maxBytes) b (b.readLine maxBytes).2 := by
  have hloop := visits_fill (@lineRoom_pos maxBytes)
    (fun b _ hfound => Visits.lineCut hfound)
    (fun _ _ _ _ hnone hroom hread hlater => Visits.lineRead hnone hroom hread hlater) b
  unfold BufferedStream.readLine
  split
  · next stop b' hfill => rwa [hfill] at hloop
  · next e b' hfill => rwa [hfill] at hloop

theorem discardExact_state (b : BufferedStream) (remaining : Nat) :
    (b.discardExact remaining).2 = (Buffered.discard discardRoom b remaining).2 := by
  unfold BufferedStream.discardExact
  split <;> simp_all

theorem visits_discardExact (remaining : Nat) (b : BufferedStream) :
    Visits (.discard remaining) b (b.discardExact remaining).2 := by
  rw [discardExact_state]
  exact Visits.discarded (Buffered.discard_unread_suffix (show 0 < discardRoom by decide)
    (show Buffered.discard discardRoom b remaining = (_, _) from rfl))

theorem visits_drainTrailers (b : BufferedStream) : Visits .trailers b b.drainTrailers.2 := by
  fun_induction BufferedStream.drainTrailers b with
  | case1 b e b₁ hread =>
      have hline := visits_readLine BufferedStream.lineLimit b
      rw [hread] at hline
      exact Visits.trailersLine hline
  | case2 b b₁ hread =>
      have hline := visits_readLine BufferedStream.lineLimit b
      rw [hread] at hline
      exact Visits.trailersLine hline
  | case3 b line b₁ hread hne ih => exact Visits.trailersNext hread hne ih

theorem visits_drainChunked (b : BufferedStream) : Visits .chunked b b.drainChunked.2 := by
  fun_induction BufferedStream.drainChunked b with
  | case1 b e b₁ hread =>
      have hline := visits_readLine BufferedStream.lineLimit b
      rw [hread] at hline
      exact Visits.chunkedLine hline
  | case2 b line b₁ hread e hsize =>
      have hline := visits_readLine BufferedStream.lineLimit b
      rw [hread] at hline
      exact Visits.chunkedLine hline
  | case3 b line b₁ hread hsize =>
      exact Visits.chunkedTrailers hread hsize (visits_drainTrailers b₁)
  | case4 b line b₁ hread size hsize hpos e b₂ hdata =>
      have hdiscard := visits_discardExact size b₁
      rw [hdata] at hdiscard
      exact Visits.chunkedData hread hsize hpos hdiscard
  | case5 b line b₁ hread size hsize hpos b₂ hdata e b₃ hend =>
      have hline := visits_readLine 2 b₂
      rw [hend] at hline
      exact Visits.chunkedEnd hread hsize hpos hdata hline
  | case6 b line b₁ hread size hsize hpos b₂ hdata b₃ hend ih =>
      exact Visits.chunkedNext hread hsize hpos hdata hend ih
  | case7 b line b₁ hread size hsize hpos b₂ hdata terminator b₃ hend hne =>
      have hline := visits_readLine 2 b₂
      rw [hend] at hline
      exact Visits.chunkedEnd hread hsize hpos hdata hline

theorem visits_drainResponseBody (response : ResponseHead) (b : BufferedStream) :
    Visits (.body response) b (b.drainResponseBody response).2 := by
  unfold BufferedStream.drainResponseBody
  split
  · next hchunked => exact Visits.bodyChunked hchunked (visits_drainChunked b)
  · next hchunked =>
      split
      · exact Visits.entered _ b
      · next length hlength =>
          exact Visits.bodyLength (by simpa using hchunked) hlength (visits_discardExact length b)
      · exact Visits.entered _ b

/-! ## The size of the buffer -/

/-- After a line is cut off, the buffer holds what was behind it before, or less
than one read. -/
theorem readLine_length_le {b b' : BufferedStream} {maxBytes : Nat} {line : Bytes}
    (h : b.readLine maxBytes = (.ok line, b')) : b'.buffer.length ≤ max b.buffer.length 1023 := by
  unfold BufferedStream.readLine at h
  split at h
  · next index b₁ hfill =>
      obtain ⟨-, rfl⟩ := Prod.mk.inj h
      have hroom : ∀ len, lineRoom len ≤ 1024 := fun _ => le_refl 1024
      have hleft : ∀ xs ys i, findLineEnd (xs ++ ys) = some i → i + 2 ≤ xs.length →
          findLineEnd xs = some i := fun _ _ _ hfound hinside =>
        firstIndex_left_of_append hfound hinside (by simp [crlf])
      rcases Buffered.fill_after_hit hleft lineRoom_pos hroom hfill with rfl | hshort
      · rw [List.length_drop]
        omega
      · rw [List.length_drop]
        omega
  · cases (Prod.mk.inj h).1

theorem discardExact_length_le {b b' : BufferedStream} {remaining : Nat}
    {result : Except HttpError Unit} (h : b.discardExact remaining = (result, b')) :
    b'.buffer.length ≤ b.buffer.length := by
  have hstate : b' = (Buffered.discard discardRoom b remaining).2 := by
    rw [← discardExact_state, h]
  rw [hstate, Buffered.discard, List.length_drop]
  omega

theorem drainTrailers_length_le {b b' : BufferedStream} (h : b.drainTrailers = (.ok (), b')) :
    b'.buffer.length ≤ max b.buffer.length 1023 := by
  fun_induction BufferedStream.drainTrailers b with
  | case1 b e b₁ hread => cases (Prod.mk.inj h).1
  | case2 b b₁ hread =>
      obtain ⟨-, rfl⟩ := Prod.mk.inj h
      exact readLine_length_le hread
  | case3 b line b₁ hread hne ih =>
      have hline := readLine_length_le hread
      have hlater := ih h
      omega

theorem drainChunked_length_le {b b' : BufferedStream} (h : b.drainChunked = (.ok (), b')) :
    b'.buffer.length ≤ max b.buffer.length 1023 := by
  fun_induction BufferedStream.drainChunked b with
  | case1 b e b₁ hread => cases (Prod.mk.inj h).1
  | case2 b line b₁ hread e hsize => cases (Prod.mk.inj h).1
  | case3 b line b₁ hread hsize =>
      have hline := readLine_length_le hread
      have htrailers := drainTrailers_length_le h
      omega
  | case4 b line b₁ hread size hsize hpos e b₂ hdata => cases (Prod.mk.inj h).1
  | case5 b line b₁ hread size hsize hpos b₂ hdata e b₃ hend => cases (Prod.mk.inj h).1
  | case6 b line b₁ hread size hsize hpos b₂ hdata b₃ hend ih =>
      have hline := readLine_length_le hread
      have hdiscard := discardExact_length_le hdata
      have hterminator := readLine_length_le hend
      have hlater := ih h
      omega
  | case7 b line b₁ hread size hsize hpos b₂ hdata terminator b₃ hend hne =>
      cases (Prod.mk.inj h).1

theorem drainResponseBody_length_le {response : ResponseHead} {b b' : BufferedStream}
    (h : b.drainResponseBody response = (.ok (), b')) :
    b'.buffer.length ≤ max b.buffer.length 1023 := by
  unfold BufferedStream.drainResponseBody at h
  split at h
  · exact drainChunked_length_le h
  · split at h
    · cases (Prod.mk.inj h).1
    · exact (discardExact_length_le h).trans (le_max_left _ _)
    · obtain ⟨-, rfl⟩ := Prod.mk.inj h
      exact le_max_left _ _

theorem headLoop_length_le {maxHeaderBytes : Nat} {b b' : BufferedStream}
    {result : Except HttpError Nat} (h : headLoop maxHeaderBytes b = (result, b'))
    (hb : b.buffer.length ≤ maxHeaderBytes) : b'.buffer.length ≤ maxHeaderBytes := by
  have hlength := Buffered.fill_length_le findHeaderEnd headRoom_pos headRoom_le hb
  unfold headLoop at h
  split at h
  all_goals
    next hfill =>
      obtain ⟨-, rfl⟩ := Prod.mk.inj h
      rwa [hfill] at hlength

theorem readResponseHead_length_le {httparse : Httparse} {maxHeaderBytes : Nat}
    {b b' : BufferedStream} {result : Except HttpError ResponseHead}
    (h : b.readResponseHead httparse maxHeaderBytes = (result, b'))
    (hb : b.buffer.length ≤ maxHeaderBytes) : b'.buffer.length ≤ maxHeaderBytes := by
  rw [readResponseHead_eq] at h
  split at h
  · next stop b₁ hloop =>
      obtain ⟨-, rfl⟩ := Prod.mk.inj h
      rw [List.length_drop]
      exact (Nat.sub_le _ _).trans (headLoop_length_le hloop hb)
  · next e b₁ hloop =>
      obtain ⟨-, rfl⟩ := Prod.mk.inj h
      exact headLoop_length_le hloop hb

/-- Every single read of the call leaves at most `bound` bytes in the buffer. -/
def Call.Within (bound : Nat) : Call → Prop
  | .head maxHeaderBytes => maxHeaderBytes ≤ bound
  -- the limit of a line is tested before a read of up to 1024 bytes
  | .line maxBytes => maxBytes + 1023 ≤ bound
  | .discard _ => True
  | .trailers | .chunked | .body _ => BufferedStream.lineLimit + 1023 ≤ bound

theorem Visits.length_le {call : Call} {bound : Nat} {b b' : BufferedStream}
    (h : Visits call b b') (hcall : call.Within bound) (hb : b.buffer.length ≤ bound) :
    b'.buffer.length ≤ bound := by
  -- a line which was read leaves no more than `bound`, as `bound` exceeds one read
  have hnext : ∀ {b b₁ : BufferedStream} {maxBytes : Nat} {line : Bytes},
      BufferedStream.lineLimit + 1023 ≤ bound → b.buffer.length ≤ bound →
      b.readLine maxBytes = (.ok line, b₁) → b₁.buffer.length ≤ bound := by
    intro b b₁ maxBytes line hbound hb hread
    have hlength := readLine_length_le hread
    omega
  have hdrop : ∀ (b : BufferedStream) n, b.buffer.length ≤ bound →
      (b.buffer.drop n).length ≤ bound := by
    intro b n hb
    rw [List.length_drop]
    omega
  induction h with
  | entered call b => exact hb
  | headRead hnone hroom hread hlater ih =>
      refine ih hcall ?_
      have hlength := Source.read_length_le hread
      have hfits := headRoom_le _ hroom
      have hbound : _ ≤ bound := hcall
      rw [List.length_append]
      omega
  | headCut hfound => exact hdrop _ _ hb
  | lineRead hnone hroom hread hlater ih =>
      refine ih hcall ?_
      have hlength : _ ≤ 1024 := Source.read_length_le hread
      have hbound : _ + 1023 ≤ bound := hcall
      rw [List.length_append]
      omega
  | lineCut hfound => exact hdrop _ _ hb
  | discarded hs => exact hdrop _ _ hb
  | trailersLine hline ih => exact ih hcall hb
  | trailersNext hread hne hlater ih => exact ih hcall (hnext hcall hb hread)
  | chunkedLine hline ih => exact ih hcall hb
  | chunkedTrailers hread hsize hlater ih => exact ih hcall (hnext hcall hb hread)
  | chunkedData hread hsize hpos hdata ih => exact ih trivial (hnext hcall hb hread)
  | chunkedEnd hread hsize hpos hdata hline ih =>
      have hdiscard := discardExact_length_le hdata
      refine ih ?_ (hdiscard.trans (hnext hcall hb hread))
      exact le_trans (by decide) (show BufferedStream.lineLimit + 1023 ≤ bound from hcall)
  | chunkedNext hread hsize hpos hdata hend hlater ih =>
      have hdiscard := discardExact_length_le hdata
      exact ih hcall (hnext hcall (hdiscard.trans (hnext hcall hb hread)) hend)
  | bodyChunked hchunked hlater ih => exact ih hcall hb
  | bodyLength hchunked hlength hlater ih => exact ih trivial hb

/-- The streams which a run of successful head reads and body drains leaves,
from an empty buffer on. -/
inductive Conversation (httparse : Httparse) (maxHeaderBytes : Nat) : BufferedStream → Prop
  | start (stream : Incoming) : Conversation httparse maxHeaderBytes (BufferedStream.new stream)
  | head {b b' : BufferedStream} {response : ResponseHead}
      (hbefore : Conversation httparse maxHeaderBytes b)
      (hread : b.readResponseHead httparse maxHeaderBytes = (.ok response, b')) :
      Conversation httparse maxHeaderBytes b'
  | drained {b b' : BufferedStream} {response : ResponseHead}
      (hbefore : Conversation httparse maxHeaderBytes b)
      (hdrain : b.drainResponseBody response = (.ok (), b')) :
      Conversation httparse maxHeaderBytes b'

theorem Conversation.length_le {httparse : Httparse} {maxHeaderBytes : Nat} {b : BufferedStream}
    (hmax : 1024 ≤ maxHeaderBytes) (h : Conversation httparse maxHeaderBytes b) :
    b.buffer.length ≤ maxHeaderBytes := by
  induction h with
  | start stream => exact Nat.zero_le maxHeaderBytes
  | head hbefore hread ih => exact readResponseHead_length_le hread ih
  | drained hbefore hdrain ih =>
      have hlength := drainResponseBody_length_le hdrain
      omega

/-- **The buffer stays bounded over a whole connection.**  Between the calls it
holds at most `max_header_bytes`, inside a call at most that or a line limit and
one read; the head handed to the parser is within the limit too. -/
theorem buffer_bounded {httparse : Httparse} {maxHeaderBytes : Nat} {b : BufferedStream}
    (hmax : 1024 ≤ maxHeaderBytes) (h : Conversation httparse maxHeaderBytes b) :
    b.buffer.length ≤ maxHeaderBytes ∧
    (∀ b', Visits (.head maxHeaderBytes) b b' →
      b'.buffer.length ≤ max maxHeaderBytes (8191 + 1024)) ∧
    (∀ response b', Visits (.body response) b b' →
      b'.buffer.length ≤ max maxHeaderBytes (8191 + 1024)) ∧
    ∀ stop b', headLoop maxHeaderBytes b = (.ok stop, b') →
      b.readResponseHead httparse maxHeaderBytes =
          (parseResponseHead httparse (b'.buffer.take stop), ⟨b'.stream, b'.buffer.drop stop⟩) ∧
        (b'.buffer.take stop).length ≤ maxHeaderBytes := by
  have hb := h.length_le hmax
  have hbound : b.buffer.length ≤ max maxHeaderBytes (8191 + 1024) :=
    hb.trans (le_max_left _ _)
  refine ⟨hb, ?_, ?_, ?_⟩
  · intro b' hvisit
    exact hvisit.length_le (le_max_left maxHeaderBytes _) hbound
  · intro response b' hvisit
    exact hvisit.length_le (le_max_right maxHeaderBytes _) hbound
  · intro stop b' hloop
    refine ⟨by rw [readResponseHead_eq, hloop], ?_⟩
    exact (List.length_take_le' stop b'.buffer).trans (headLoop_length_le hloop hb)

/-! A connection with one bare 407 head, two bytes behind it. -/

private def plainHead : Bytes := utf8 "HTTP/1.1 407 A\r\n\r\n".toList

private def plainParser : Httparse :=
  .ofTables [] [(plainHead, .complete 18, ⟨some 1, some 407, []⟩)]

private def plainStream : Incoming := ⟨[⟨plainHead ++ [1, 2], by decide⟩], none⟩

private theorem plain_conversation : Conversation plainParser 1024 ⟨⟨[], none⟩, [1, 2]⟩ := by
  have hread : (BufferedStream.new plainStream).readResponseHead plainParser 1024 =
      (.ok ⟨1, 407, []⟩, ⟨⟨[], none⟩, [1, 2]⟩) := by
    have hfirst : plainStream.read (headRoom 1024 0) = (.ok (plainHead ++ [1, 2]), ⟨[], none⟩) := by
      decide
    have hfill : Buffered.fill findHeaderEnd 1024 (headRoom 1024) (BufferedStream.new plainStream) =
        (.ok 18, ⟨⟨[], none⟩, plainHead ++ [1, 2]⟩) := by
      rw [Buffered.fill_of_read (show findHeaderEnd [] = none by decide) (by decide) hfirst]
      exact Buffered.fill_of_some (by decide)
    rw [BufferedStream.readResponseHead, hfill]
    decide
  have hdrain : BufferedStream.drainResponseBody ⟨1, 407, []⟩ ⟨⟨[], none⟩, [1, 2]⟩ =
      (.ok (), ⟨⟨[], none⟩, [1, 2]⟩) := rfl
  exact .drained (.head (.start plainStream) hread) hdrain

/-- Two bytes stay in the buffer of the sample connection. -/
theorem buffer_bounded_plain :
    1024 ≤ 1024 ∧ Conversation plainParser 1024 ⟨⟨[], none⟩, [1, 2]⟩ ∧
      ∀ response b', Visits (.body response) ⟨⟨[], none⟩, [1, 2]⟩ b' → b'.buffer.length ≤ 9215 :=
  ⟨le_refl 1024, plain_conversation, (buffer_bounded (le_refl 1024) plain_conversation).2.2.1⟩

end Http1
end Fastpx
