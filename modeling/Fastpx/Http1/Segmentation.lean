import Fastpx.Http1.ChunkGrammar

/-!
# Draining and packet boundaries

Two readers with the same pending bytes differ only in how the bytes are cut
into the buffer and the reads to come.  `read_line` compares its limit with the
length of the whole buffer, and it does so only after the search for a line
end, so a line longer than the limit is accepted when its end arrives together
with it, and refused when it arrives in small pieces.

* `drainChunked_trickle`: from single-byte reads a body is drained only if each
  of its lines fits into the limit;
* `drain_segmentation_iff`: draining is the same for all segmentations exactly
  if the bytes do not start with a chunked body that has a longer line;
* `long_line_depends_on_reads`: such a body.
-/

namespace Fastpx
namespace Http1

open StreamKit

/-- The reader with an empty buffer which receives single bytes. -/
def trickle (bytes : Bytes) : BufferedStream :=
  ⟨Source.trickle bytes none, []⟩

/-- The reader with everything in its buffer. -/
def buffered (bytes : Bytes) : BufferedStream :=
  ⟨⟨[], none⟩, bytes⟩

@[simp] theorem pending_trickle (bytes : Bytes) : (trickle bytes).pending = bytes := by
  simp [trickle, Buffered.pending]

@[simp] theorem pending_buffered (bytes : Bytes) : (buffered bytes).pending = bytes := by
  simp [buffered, Buffered.pending, Source.unread]

/-! ## Single bytes -/

/-- A search that succeeds on a list has not succeeded on a shorter part. -/
theorem findLineEnd_take_eq_none {line : Bytes} (hline : IsLine line) {m : Nat}
    (hm : m < (line ++ crlf).length) : findLineEnd ((line ++ crlf).take m) = none := by
  cases hfound : findLineEnd ((line ++ crlf).take m) with
  | none => rfl
  | some i =>
      have hi := findLineEnd_append hfound ((line ++ crlf).drop m)
      rw [List.take_append_drop, hline] at hi
      obtain rfl := Option.some.inj hi
      have hle := firstIndex_add_length_le hfound
      rw [List.length_take, List.length_append] at hle
      rw [List.length_append] at hm
      omega

/-- A line inside the limit is read, and nothing after it. -/
theorem readLine_trickle {line : Bytes} (hline : IsLine line) {maxBytes : Nat}
    (hfits : line.length + 2 ≤ maxBytes) (rest : Bytes) :
    BufferedStream.readLine (trickle (line ++ crlf ++ rest)) maxBytes =
      (.ok line, trickle rest) := by
  have hfill : Buffered.fill findLineEnd maxBytes lineRoom (trickle (line ++ crlf ++ rest)) =
      (.ok line.length, ⟨Source.trickle rest none, [] ++ (line ++ crlf)⟩) := by
    refine Buffered.fill_trickle_ok lineRoom_pos ?_ hline (by simpa [crlf] using hfits)
    exact fun m hm => findLineEnd_take_eq_none hline hm
  have hend : (line ++ crlf).drop (line.length + 2) = [] :=
    List.drop_eq_nil_of_le (by simp [crlf])
  simp only [BufferedStream.readLine, hfill, List.nil_append, List.take_left, hend]
  rfl

/-- A longer line is refused. -/
theorem readLine_trickle_long {line : Bytes} (hline : IsLine line) {maxBytes : Nat}
    (hlong : ¬ line.length + 2 ≤ maxBytes) (rest : Bytes) :
    ∃ b, BufferedStream.readLine (trickle (line ++ crlf ++ rest)) maxBytes =
      (.error .invalidChunkedBody, b) := by
  -- at the limit the line end is still incomplete
  let front := (line ++ crlf).take maxBytes
  have hlength : front.length = maxBytes := by
    refine List.length_take_of_le ?_
    rw [List.length_append]
    exact (Nat.lt_of_not_le hlong).le
  have hnone : ∀ m ≤ front.length, findLineEnd ([] ++ front.take m) = none := by
    intro m hm
    rw [List.nil_append, List.take_take, Nat.min_eq_left (hlength ▸ hm)]
    refine findLineEnd_take_eq_none hline ?_
    rw [List.length_append]
    exact (hlength ▸ hm).trans_lt (Nat.lt_of_not_le hlong)
  have hcut : line ++ crlf ++ rest = front ++ ((line ++ crlf).drop maxBytes ++ rest) := by
    rw [← List.append_assoc, List.take_append_drop]
  obtain ⟨b, hfill⟩ : ∃ b, Buffered.fill findLineEnd maxBytes lineRoom
      (trickle (front ++ ((line ++ crlf).drop maxBytes ++ rest))) = (.error .full, b) :=
    Buffered.fill_trickle_full lineRoom_pos hnone (by rw [hlength]; exact Nat.le_add_left _ _)
  refine ⟨b, ?_⟩
  rw [hcut]
  simp only [BufferedStream.readLine, hfill]
  rfl

theorem discardExact_trickle (data rest : Bytes) :
    BufferedStream.discardExact (trickle (data ++ rest)) data.length = (.ok (), trickle rest) := by
  have hskip := Source.skip_trickle (show 0 < discardRoom by decide) data rest
    (none : Option IoError)
  simp only [BufferedStream.discardExact, Buffered.discard, trickle, List.length_nil,
    Nat.min_zero, Nat.sub_zero, hskip, List.drop_nil]

/-- The trailer loop drains single bytes only if the lines fit. -/
theorem drainTrailers_trickle {bytes rest : Bytes} {lines : List Bytes} {b : BufferedStream}
    (h : Trailers bytes lines rest)
    (hdrain : BufferedStream.drainTrailers (trickle bytes) = (.ok (), b)) :
    ∀ line ∈ lines, FitsLine line := by
  induction h with
  | done => simp
  | line hne hline htail ih =>
      rename_i line later rest lines
      by_cases hfits : FitsLine line
      · rw [BufferedStream.drainTrailers_of_readLine (readLine_trickle hline hfits _),
          if_neg hne] at hdrain
        exact List.forall_mem_cons.mpr ⟨hfits, ih hdrain⟩
      · obtain ⟨b₁, hread⟩ := readLine_trickle_long hline hfits later
        rw [BufferedStream.drainTrailers_of_error hread] at hdrain
        cases (Prod.mk.inj hdrain).1

/-- The chunk loop drains single bytes only if the lines fit. -/
theorem drainChunked_trickle {bytes rest : Bytes} {sizes trailers : List Bytes}
    {b : BufferedStream} (h : Chunks bytes sizes trailers rest)
    (hdrain : BufferedStream.drainChunked (trickle bytes) = (.ok (), b)) :
    ∀ line ∈ sizes ++ trailers, FitsLine line := by
  induction h with
  | last hline hsize htail =>
      rename_i line later rest trailers
      by_cases hfits : FitsLine line
      · rw [BufferedStream.drainChunked_of_last (readLine_trickle hline hfits _) hsize] at hdrain
        exact List.forall_mem_cons.mpr ⟨hfits, drainTrailers_trickle htail hdrain⟩
      · obtain ⟨b₁, hread⟩ := readLine_trickle_long hline hfits later
        rw [BufferedStream.drainChunked_of_error hread] at hdrain
        cases (Prod.mk.inj hdrain).1
  | chunk hline hsize hne htail ih =>
      rename_i line data later rest sizes trailers
      by_cases hfits : FitsLine line
      · have hterm : BufferedStream.readLine (trickle (crlf ++ later)) 2 =
            (.ok [], trickle later) :=
          readLine_trickle isLine_nil (show _ ≤ 2 by decide) later
        rw [BufferedStream.drainChunked_of_chunk (readLine_trickle hline hfits _) hsize
          (fun hzero => hne (List.length_eq_zero_iff.mp hzero))
          (discardExact_trickle data _) hterm] at hdrain
        exact List.forall_mem_cons.mpr ⟨hfits, ih hdrain⟩
      · obtain ⟨b₁, hread⟩ := readLine_trickle_long hline hfits (data ++ (crlf ++ later))
        rw [BufferedStream.drainChunked_of_error hread] at hdrain
        cases (Prod.mk.inj hdrain).1

/-! ## Two segmentations of the same bytes -/

/-- Both calls succeed and leave the same bytes, or both fail. -/
def SameOutcome (r₁ r₂ : Except HttpError Unit × BufferedStream) : Prop :=
  (r₁.1 = .ok () ∧ r₂.1 = .ok () ∧ r₁.2.pending = r₂.2.pending) ∨
    (r₁.1 ≠ .ok () ∧ r₂.1 ≠ .ok ())

/-- Two calls have the same outcome when the success of either carries over to
the other. -/
theorem sameOutcome_of_imp {r₁ r₂ : Except HttpError Unit × BufferedStream}
    (h₁ : r₁.1 = .ok () → r₂.1 = .ok () ∧ r₁.2.pending = r₂.2.pending)
    (h₂ : r₂.1 = .ok () → r₁.1 = .ok ()) : SameOutcome r₁ r₂ := by
  by_cases hok : r₁.1 = .ok ()
  · exact Or.inl ⟨hok, h₁ hok⟩
  · exact Or.inr ⟨hok, fun hok₂ => hok (h₂ hok₂)⟩

/-- Discarding looks at the pending bytes only. -/
theorem discardExact_of_pending_eq {b₁ b₂ b₁' : BufferedStream} {remaining : Nat}
    (hsame : b₁.pending = b₂.pending)
    (h : BufferedStream.discardExact b₁ remaining = (.ok (), b₁')) :
    ∃ b₂', BufferedStream.discardExact b₂ remaining = (.ok (), b₂') ∧
      b₁'.pending = b₂'.pending := by
  obtain ⟨henough, hdrop, -⟩ := discardExact_ok h
  have hsplit : b₂.pending = b₂.pending.take remaining ++ b₂.pending.drop remaining :=
    (List.take_append_drop _ _).symm
  obtain ⟨b₂', hdata, hrest, -⟩ := discardExact_of_data hsplit
  rw [List.length_take_of_le (hsame ▸ henough)] at hdata
  exact ⟨b₂', hdata, by rw [hdrop, hrest, hsame]⟩

/-- A chunked body with short lines is drained from every segmentation. -/
theorem drainChunked_of_pending_eq {b₁ b₂ b₁' : BufferedStream}
    (hsame : b₁.pending = b₂.pending)
    (hfits : ∀ sizes trailers rest, Chunks b₁.pending sizes trailers rest →
      ∀ line ∈ sizes ++ trailers, FitsLine line)
    (h : BufferedStream.drainChunked b₁ = (.ok (), b₁')) :
    ∃ b₂', BufferedStream.drainChunked b₂ = (.ok (), b₂') ∧ b₁'.pending = b₂'.pending := by
  obtain ⟨sizes, trailers, hchunks⟩ := chunks_of_drain h
  obtain ⟨b₂', hdrain, hrest⟩ := drainChunked_of_chunks hchunks hsame.symm
    (Or.inl (hfits _ _ _ hchunks))
  exact ⟨b₂', hdrain, hrest.symm⟩

/-- Success carries over between segmentations of a body with short lines. -/
theorem drainResponseBody_of_pending_eq {response : ResponseHead} {b₁ b₂ : BufferedStream}
    (hsame : b₁.pending = b₂.pending)
    (hfits : response.isChunked = true → ∀ sizes trailers rest,
      Chunks b₁.pending sizes trailers rest → ∀ line ∈ sizes ++ trailers, FitsLine line)
    (h : (b₁.drainResponseBody response).1 = .ok ()) :
    (b₂.drainResponseBody response).1 = .ok () ∧
      (b₁.drainResponseBody response).2.pending = (b₂.drainResponseBody response).2.pending := by
  by_cases hchunked : response.isChunked = true
  · simp only [BufferedStream.drainResponseBody, hchunked, if_true] at h ⊢
    obtain ⟨b₂', hdrain, hrest⟩ := drainChunked_of_pending_eq hsame (hfits hchunked)
      (Prod.ext h rfl)
    rw [hdrain]
    exact ⟨rfl, hrest⟩
  · simp only [BufferedStream.drainResponseBody, hchunked] at h ⊢
    cases hlength : response.contentLength with
    | error e =>
        rw [hlength] at h
        cases h
    | ok length =>
        rw [hlength] at h
        cases length with
        | none => exact ⟨rfl, hsame⟩
        | some length =>
            obtain ⟨b₂', hdata, hrest⟩ := discardExact_of_pending_eq hsame (Prod.ext h rfl)
            simp only [hdata]
            exact ⟨rfl, hrest⟩

/-- **When draining depends on packet boundaries.**  For every response head and
all bytes: any two readers with these pending bytes drain them with the same
outcome, if and only if the response is not chunked or the bytes do not start
with a chunked body in which a size line or a trailer line is longer than 8190
bytes. -/
theorem drain_segmentation_iff (response : ResponseHead) (bytes : Bytes) :
    (∀ b₁ b₂ : BufferedStream, b₁.pending = bytes → b₂.pending = bytes →
        SameOutcome (b₁.drainResponseBody response) (b₂.drainResponseBody response)) ↔
      (response.isChunked = true → ∀ sizes trailers rest, Chunks bytes sizes trailers rest →
        ∀ line ∈ sizes ++ trailers, line.length ≤ 8190) := by
  constructor
  · intro hsame hchunked sizes trailers rest hchunks
    obtain ⟨b, hdrain, -⟩ := drainChunked_of_chunks hchunks (pending_buffered bytes)
      (Or.inr rfl)
    have houtcome := hsame (buffered bytes) (trickle bytes) (pending_buffered bytes)
      (pending_trickle bytes)
    simp only [BufferedStream.drainResponseBody, hchunked, if_true, hdrain] at houtcome
    rcases houtcome with ⟨-, hok, -⟩ | ⟨hfail, -⟩
    · intro line hmem
      have hfits := drainChunked_trickle hchunks (Prod.ext hok rfl) line hmem
      exact Nat.le_of_add_le_add_right hfits
    · exact absurd rfl hfail
  · intro hshort b₁ b₂ h₁ h₂
    have hfits : ∀ b : BufferedStream, b.pending = bytes → response.isChunked = true →
        ∀ sizes trailers rest, Chunks b.pending sizes trailers rest →
          ∀ line ∈ sizes ++ trailers, FitsLine line := by
      intro b hb hchunked sizes trailers rest hchunks line hmem
      exact Nat.add_le_add_right (hshort hchunked _ _ _ (hb ▸ hchunks) line hmem) 2
    refine sameOutcome_of_imp ?_ ?_
    · exact drainResponseBody_of_pending_eq (h₁.trans h₂.symm) (hfits b₁ h₁)
    · exact fun h => (drainResponseBody_of_pending_eq (h₂.trans h₁.symm) (hfits b₂ h₂) h).1

/-! ## A long line -/

/-- A zero-size line with an extension of `n` further letters. -/
def extendedLine (n : Nat) : Bytes := 48 :: 59 :: List.replicate n 120

/-- The body with this line, and without trailers. -/
def extendedBody (n : Nat) : Bytes := extendedLine n ++ crlf ++ (crlf ++ [])

theorem mem_extendedLine {n : Nat} {b : UInt8} (h : b ∈ extendedLine n) :
    b = 48 ∨ b = 59 ∨ b = 120 := by
  rcases List.mem_cons.mp h with rfl | h
  · exact Or.inl rfl
  rcases List.mem_cons.mp h with rfl | h
  · exact Or.inr (Or.inl rfl)
  · exact Or.inr (Or.inr (List.eq_of_mem_replicate h))

theorem isLine_extendedLine (n : Nat) : IsLine (extendedLine n) := by
  have hnot : (13 : UInt8) ∉ extendedLine n := by
    intro hmem
    rcases mem_extendedLine hmem with h | h | h <;> exact absurd h (by decide)
  exact firstIndex_pair_append (by decide) (firstIndex_eq_none_of_not_mem hnot) []

theorem chunkSize_extendedLine (n : Nat) :
    BufferedStream.chunkSize (extendedLine n) = .ok 0 := by
  have hascii : ∀ b ∈ extendedLine n, b.toNat < 0x80 := by
    intro b hmem
    rcases mem_extendedLine hmem with rfl | rfl | rfl <;> decide
  have htext : fromUtf8 (extendedLine n) = some (['0'] ++ ';' :: List.replicate n 'x') := by
    rw [fromUtf8_ascii hascii, extendedLine, List.map_cons, List.map_cons, List.map_replicate]
    rfl
  have hfirst : ((['0'] ++ ';' :: List.replicate n 'x').splitOn ';').head? = some ['0'] := by
    rw [List.splitOn_append_cons_self_of_not_mem (by decide)]
    rfl
  have hsize : fromStrRadix usizeMax 16 (trim ['0']) = .ok 0 := by decide
  simp only [BufferedStream.chunkSize, htext, hfirst, hsize]

/-- A buffered body is drained, however long its line is. -/
theorem drain_buffered_extendedBody (n : Nat) :
    (BufferedStream.drainChunked (buffered (extendedBody n))).1 = .ok () := by
  obtain ⟨b, hdrain, -⟩ := drainChunked_of_chunks
    (Chunks.last (isLine_extendedLine n) (chunkSize_extendedLine n) Trailers.done)
    (pending_buffered (extendedBody n)) (Or.inr rfl)
  rw [hdrain]

/-- Byte by byte it is refused when the line is too long. -/
theorem drain_trickle_extendedBody {n : Nat} (hn : 8189 ≤ n) :
    (BufferedStream.drainChunked (trickle (extendedBody n))).1 = .error .invalidChunkedBody := by
  have hlong : ¬ (extendedLine n).length + 2 ≤ BufferedStream.lineLimit := by
    rw [extendedLine, List.length_cons, List.length_cons, List.length_replicate]
    unfold BufferedStream.lineLimit
    omega
  obtain ⟨b, hread⟩ := readLine_trickle_long (isLine_extendedLine n) hlong (crlf ++ [])
  rw [extendedBody, BufferedStream.drainChunked_of_error hread]

private def chunkedRefusal : ResponseHead :=
  ⟨1, 407, [⟨"Transfer-Encoding".toList, utf8 "chunked".toList⟩]⟩

/-- **The reads decide.**  A zero-size line of 8191 bytes is drained when it is
already buffered, and refused when it arrives byte by byte. -/
theorem long_line_depends_on_reads :
    (buffered (extendedBody 8189)).pending = (trickle (extendedBody 8189)).pending ∧
      ((buffered (extendedBody 8189)).drainResponseBody chunkedRefusal).1 = .ok () ∧
      ((trickle (extendedBody 8189)).drainResponseBody chunkedRefusal).1 =
        .error .invalidChunkedBody ∧
      ¬ SameOutcome ((buffered (extendedBody 8189)).drainResponseBody chunkedRefusal)
        ((trickle (extendedBody 8189)).drainResponseBody chunkedRefusal) := by
  have hchunked : chunkedRefusal.isChunked = true := by decide +kernel
  have hok := drain_buffered_extendedBody 8189
  have hfail := drain_trickle_extendedBody (Nat.le_refl 8189)
  simp only [BufferedStream.drainResponseBody, hchunked, if_true]
  refine ⟨by rw [pending_buffered, pending_trickle], hok, hfail, ?_⟩
  rintro (⟨-, hok', -⟩ | ⟨hnot, -⟩)
  · rw [hfail] at hok'
    cases hok'
  · exact hnot hok

end Http1
end Fastpx
