import Fastpx.Http1.Stream

/-!
# The chunked bodies which the code accepts

`Trailers` and `Chunks` cut a byte string into the lines and data blocks which
the drain loops consume, with the size lines and the trailer lines as explicit
lists.  The relations know nothing of buffers, reads or limits:

* a successful drain consumed a body of this form (`chunks_of_drain`);
* a body of this form is drained if every line fits into the line limit, or if
  nothing of it is still to be read (`drainChunked_of_chunks`).
-/

namespace Fastpx
namespace Http1

open StreamKit

/-- A line: the first line end after it is its own. -/
def IsLine (line : Bytes) : Prop :=
  findLineEnd (line ++ crlf) = some line.length

/-- `Trailers bytes lines rest`: the trailer lines `lines` and an empty line are
at the front of `bytes`, and `rest` follows. -/
inductive Trailers : Bytes → List Bytes → Bytes → Prop
  | done {rest : Bytes} : Trailers (crlf ++ rest) [] rest
  | line {line later rest : Bytes} {lines : List Bytes} (hne : line ≠ []) (hline : IsLine line)
      (htail : Trailers later lines rest) : Trailers (line ++ crlf ++ later) (line :: lines) rest

/-- `Chunks bytes sizes trailers rest`: a chunked body with these size lines
(the zero-size line is the last of them) and trailer lines is at the front of
`bytes`, and `rest` follows. -/
inductive Chunks : Bytes → List Bytes → List Bytes → Bytes → Prop
  | last {line later rest : Bytes} {trailers : List Bytes} (hline : IsLine line)
      (hsize : BufferedStream.chunkSize line = .ok 0) (htail : Trailers later trailers rest) :
      Chunks (line ++ crlf ++ later) [line] trailers rest
  | chunk {line data later rest : Bytes} {sizes trailers : List Bytes} (hline : IsLine line)
      (hsize : BufferedStream.chunkSize line = .ok data.length) (hne : data ≠ [])
      (htail : Chunks later sizes trailers rest) :
      Chunks (line ++ crlf ++ (data ++ (crlf ++ later))) (line :: sizes) trailers rest

/-- The line fits into the line limit together with its end. -/
def FitsLine (line : Bytes) : Prop :=
  line.length + 2 ≤ BufferedStream.lineLimit

theorem isLine_nil : IsLine [] := rfl

/-- Bytes begin with one line only. -/
theorem line_unique {line line' later later' : Bytes} (hline : IsLine line)
    (hline' : IsLine line') (h : line ++ crlf ++ later = line' ++ crlf ++ later') :
    line = line' ∧ later = later' := by
  have hfound := findLineEnd_append hline later
  rw [h, findLineEnd_append hline' later'] at hfound
  rw [List.append_assoc, List.append_assoc] at h
  obtain ⟨rfl, htail⟩ := List.append_inj h (Option.some.inj hfound).symm
  exact ⟨rfl, List.append_cancel_left htail⟩

/-! ## Reading one line -/

/-- A line is read if it fits into the limit, or if everything is buffered. -/
theorem readLine_of_line {b : BufferedStream} {maxBytes : Nat} {line rest : Bytes}
    (hpending : b.pending = line ++ crlf ++ rest) (hline : IsLine line)
    (hfits : line.length + 2 ≤ maxBytes ∨ b.stream.unread = []) :
    ∃ b', BufferedStream.readLine b maxBytes = (.ok line, b') ∧ b'.pending = rest ∧
      (b.stream.unread = [] → b'.stream.unread = []) := by
  have hfill : ∃ b₁, Buffered.fill findLineEnd maxBytes lineRoom b = (.ok line.length, b₁) ∧
      findLineEnd b₁.buffer = some line.length ∧
      (b.stream.unread = [] → b₁.stream.unread = []) := by
    by_cases hread : b.stream.unread = []
    · -- the buffer is everything, so the loop does not read
      have hbuffer : findLineEnd b.buffer = some line.length := by
        have hall : b.buffer = line ++ crlf ++ rest := by
          simpa [Buffered.pending, hread] using hpending
        rw [hall]
        exact findLineEnd_append hline rest
      exact ⟨b, Buffered.fill_of_some hbuffer, hbuffer, id⟩
    · obtain ⟨b₁, hfill, -, hfound, -⟩ := Buffered.fill_finds findLineEnd lineRoom_pos
        (fun _ later _ h => findLineEnd_append h later) hpending hline
        (by simpa [crlf] using hfits.resolve_right hread)
      exact ⟨b₁, hfill, hfound, fun h => absurd h hread⟩
  obtain ⟨b₁, hfill, hfound, hunread⟩ := hfill
  have hread : BufferedStream.readLine b maxBytes =
      (.ok (b₁.buffer.take line.length), ⟨b₁.stream, b₁.buffer.drop (line.length + 2)⟩) := by
    simp only [BufferedStream.readLine, hfill]
  -- both splits of the pending bytes put the line end at the same place
  have hsplit := (readLine_ok hread).1
  have hlen := firstIndex_add_length_le hfound
  rw [hpending, List.append_assoc, List.append_assoc] at hsplit
  obtain ⟨htake, htail⟩ := List.append_inj hsplit (by rw [List.length_take]; omega)
  refine ⟨_, hread.trans ?_, (List.append_cancel_left htail).symm, hunread⟩
  rw [← htake]

/-! ## What a drain consumed -/

/-- The trailer loop consumes trailers. -/
theorem trailers_of_drain {b b' : BufferedStream}
    (h : BufferedStream.drainTrailers b = (.ok (), b')) :
    ∃ lines, Trailers b.pending lines b'.pending := by
  fun_induction BufferedStream.drainTrailers b with
  | case1 b e b₁ hread => cases (Prod.mk.inj h).1
  | case2 b b₁ hread =>
      obtain ⟨-, rfl⟩ := Prod.mk.inj h
      refine ⟨[], ?_⟩
      rw [(readLine_ok hread).1, List.nil_append]
      exact Trailers.done
  | case3 b line b₁ hread hne ih =>
      obtain ⟨lines, htail⟩ := ih h
      obtain ⟨hpending, hline, -⟩ := readLine_ok hread
      refine ⟨line :: lines, ?_⟩
      rw [hpending]
      exact Trailers.line hne hline htail

/-- The chunk loop consumes a chunked body. -/
theorem chunks_of_drain {b b' : BufferedStream}
    (h : BufferedStream.drainChunked b = (.ok (), b')) :
    ∃ sizes trailers, Chunks b.pending sizes trailers b'.pending := by
  fun_induction BufferedStream.drainChunked b with
  | case1 b e b₁ hread => cases (Prod.mk.inj h).1
  | case2 b line b₁ hread e hsize => cases (Prod.mk.inj h).1
  | case3 b line b₁ hread hsize =>
      obtain ⟨hpending, hline, -⟩ := readLine_ok hread
      obtain ⟨trailers, htail⟩ := trailers_of_drain h
      refine ⟨[line], trailers, ?_⟩
      rw [hpending]
      exact Chunks.last hline hsize htail
  | case4 b line b₁ hread size hsize hpos e b₂ hdata => cases (Prod.mk.inj h).1
  | case5 b line b₁ hread size hsize hpos b₂ hdata e b₃ hend => cases (Prod.mk.inj h).1
  | case6 b line b₁ hread size hsize hpos b₂ hdata b₃ hend ih =>
      obtain ⟨sizes, trailers, htail⟩ := ih h
      obtain ⟨hpending, hline, -⟩ := readLine_ok hread
      obtain ⟨henough, hdrop, -⟩ := discardExact_ok hdata
      obtain ⟨hterm, -, -⟩ := readLine_ok hend
      -- the announced bytes, then the line end which was read after them
      have hdata' : b₁.pending = b₁.pending.take size ++ (crlf ++ b₃.pending) := by
        rw [List.nil_append, hdrop] at hterm
        rw [← hterm, List.take_append_drop]
      have hlength : (b₁.pending.take size).length = size := List.length_take_of_le henough
      refine ⟨line :: sizes, trailers, ?_⟩
      rw [hpending, hdata']
      refine Chunks.chunk hline (by rw [hlength]; exact hsize) ?_ htail
      intro hnil
      rw [hnil, List.length_nil] at hlength
      exact hpos hlength.symm
  | case7 b line b₁ hread size hsize hpos b₂ hdata terminator b₃ hend hne =>
      cases (Prod.mk.inj h).1

/-! ## What is drained -/

/-- Discarding data leaves what follows it. -/
theorem discardExact_of_data {b : BufferedStream} {data rest : Bytes}
    (hpending : b.pending = data ++ rest) :
    ∃ b', BufferedStream.discardExact b data.length = (.ok (), b') ∧ b'.pending = rest ∧
      (b.stream.unread = [] → b'.stream.unread = []) := by
  obtain ⟨b', hdiscard, hrest, -⟩ := Buffered.discard_ok (show 0 < discardRoom by decide) b
    (show data.length ≤ b.pending.length by rw [hpending]; simp)
  have hdata : BufferedStream.discardExact b data.length = (.ok (), b') := by
    simp only [BufferedStream.discardExact, hdiscard]
  rw [hpending, List.drop_left] at hrest
  refine ⟨b', hdata, hrest, fun hunread => ?_⟩
  exact List.suffix_nil.mp (hunread ▸ Buffered.discard_unread_suffix (by decide) hdiscard)

/-- Trailers are drained if their lines fit, or if everything is buffered. -/
theorem drainTrailers_of_trailers {b : BufferedStream} {bytes rest : Bytes} {lines : List Bytes}
    (h : Trailers bytes lines rest) (hpending : b.pending = bytes)
    (hfits : (∀ line ∈ lines, FitsLine line) ∨ b.stream.unread = []) :
    ∃ b', BufferedStream.drainTrailers b = (.ok (), b') ∧ b'.pending = rest := by
  induction h generalizing b with
  | done =>
      obtain ⟨b₁, hread, hrest, -⟩ := readLine_of_line
        (show b.pending = [] ++ crlf ++ _ from hpending) isLine_nil
        (Or.inl (show 2 ≤ BufferedStream.lineLimit by decide))
      exact ⟨b₁, by rw [BufferedStream.drainTrailers_of_readLine hread, if_pos rfl], hrest⟩
  | line hne hline htail ih =>
      obtain ⟨b₁, hread, hrest, hunread⟩ := readLine_of_line hpending hline
        (hfits.imp_left fun hall => hall _ List.mem_cons_self)
      obtain ⟨b₂, hdrain, hend⟩ := ih hrest
        (hfits.imp (fun hall line hmem => hall line (List.mem_cons_of_mem _ hmem)) hunread)
      refine ⟨b₂, ?_, hend⟩
      rw [BufferedStream.drainTrailers_of_readLine hread, if_neg hne, hdrain]

/-- A chunked body is drained if its lines fit, or if everything is
buffered. -/
theorem drainChunked_of_chunks {b : BufferedStream} {bytes rest : Bytes}
    {sizes trailers : List Bytes} (h : Chunks bytes sizes trailers rest)
    (hpending : b.pending = bytes)
    (hfits : (∀ line ∈ sizes ++ trailers, FitsLine line) ∨ b.stream.unread = []) :
    ∃ b', BufferedStream.drainChunked b = (.ok (), b') ∧ b'.pending = rest := by
  induction h generalizing b with
  | last hline hsize htail =>
      obtain ⟨b₁, hread, hrest, hunread⟩ := readLine_of_line hpending hline
        (hfits.imp_left fun hall => hall _ List.mem_cons_self)
      obtain ⟨b₂, hdrain, hend⟩ := drainTrailers_of_trailers htail hrest
        (hfits.imp (fun hall line hmem => hall line (List.mem_cons_of_mem _ hmem)) hunread)
      exact ⟨b₂, by rw [BufferedStream.drainChunked_of_last hread hsize, hdrain], hend⟩
  | chunk hline hsize hne htail ih =>
      obtain ⟨b₁, hread, hrest₁, hunread₁⟩ := readLine_of_line hpending hline
        (hfits.imp_left fun hall => hall _ List.mem_cons_self)
      obtain ⟨b₂, hdata, hrest₂, hunread₂⟩ := discardExact_of_data hrest₁
      obtain ⟨b₃, hterm, hrest₃, hunread₃⟩ := readLine_of_line
        (show b₂.pending = [] ++ crlf ++ _ from hrest₂) isLine_nil (Or.inl (show 2 ≤ 2 by decide))
      obtain ⟨b₄, hdrain, hend⟩ := ih hrest₃
        (hfits.imp (fun hall line hmem => hall line (List.mem_cons_of_mem _ hmem))
          fun hnil => hunread₃ (hunread₂ (hunread₁ hnil)))
      refine ⟨b₄, ?_, hend⟩
      rw [BufferedStream.drainChunked_of_chunk hread hsize
        (fun hzero => hne (List.length_eq_zero_iff.mp hzero)) hdata hterm, hdrain]

end Http1
end Fastpx
