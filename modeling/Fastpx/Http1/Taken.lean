import Fastpx.Http1.ChunkGrammar

/-!
# Responses as they were taken from a stream

The readers consume a response in two calls, one for its head and one for its
body.  `TakenResponse` is what a pair of successful calls has consumed, with the
bytes of both.  Where the parts end depends on the bytes alone: a stream can be
taken apart in one way only (`taken_unique`), whatever is still to come.
-/

namespace Fastpx
namespace Http1

open StreamKit

/-! ## Chunked bodies by themselves -/

theorem Trailers.append {bytes rest : Bytes} {lines : List Bytes} (h : Trailers bytes lines rest)
    (later : Bytes) : Trailers (bytes ++ later) lines (rest ++ later) := by
  induction h with
  | done =>
      rw [List.append_assoc]
      exact Trailers.done
  | line hne hline _ ih =>
      rw [List.append_assoc]
      exact Trailers.line hne hline ih

theorem Trailers.exists_body {bytes rest : Bytes} {lines : List Bytes}
    (h : Trailers bytes lines rest) : ∃ body, bytes = body ++ rest ∧ Trailers body lines [] := by
  induction h with
  | done => exact ⟨crlf, rfl, Trailers.done⟩
  | @line line _ _ _ hne hline _ ih =>
      obtain ⟨body, rfl, hbody⟩ := ih
      exact ⟨line ++ crlf ++ body, by rw [List.append_assoc _ body], Trailers.line hne hline hbody⟩

theorem Trailers.rest_unique {bytes rest rest' : Bytes} {lines lines' : List Bytes}
    (h : Trailers bytes lines rest) (h' : Trailers bytes lines' rest') : rest = rest' := by
  induction h generalizing lines' with
  | @done rest =>
      generalize hbytes : crlf ++ rest = bytes at h'
      cases h' with
      | done => exact List.append_cancel_left hbytes
      | line hne hline _ =>
          exact absurd (line_unique isLine_nil hline hbytes).1.symm hne
  | @line line later rest lines hne hline _ ih =>
      generalize hbytes : line ++ crlf ++ later = bytes at h'
      cases h' with
      | done => exact absurd (line_unique hline isLine_nil hbytes).1 hne
      | line _ hline' htail' =>
          obtain ⟨rfl, rfl⟩ := line_unique hline hline' hbytes
          exact ih htail'

theorem Chunks.append {bytes rest : Bytes} {sizes trailers : List Bytes}
    (h : Chunks bytes sizes trailers rest) (later : Bytes) :
    Chunks (bytes ++ later) sizes trailers (rest ++ later) := by
  induction h with
  | last hline hsize htail =>
      rw [List.append_assoc]
      exact Chunks.last hline hsize (htail.append later)
  | chunk hline hsize hne _ ih =>
      simp only [List.append_assoc] at ih ⊢
      simpa using Chunks.chunk hline hsize hne ih

theorem Chunks.exists_body {bytes rest : Bytes} {sizes trailers : List Bytes}
    (h : Chunks bytes sizes trailers rest) :
    ∃ body, bytes = body ++ rest ∧ Chunks body sizes trailers [] := by
  induction h with
  | @last line _ _ _ hline hsize htail =>
      obtain ⟨body, rfl, hbody⟩ := htail.exists_body
      exact ⟨line ++ crlf ++ body, by rw [List.append_assoc _ body], Chunks.last hline hsize hbody⟩
  | @chunk line data _ _ _ _ hline hsize hne _ ih =>
      obtain ⟨body, rfl, hbody⟩ := ih
      exact ⟨line ++ crlf ++ (data ++ (crlf ++ body)), by simp only [List.append_assoc],
        Chunks.chunk hline hsize hne hbody⟩

/-- A chunked body ends at one place. -/
theorem Chunks.rest_unique {bytes rest rest' : Bytes} {sizes sizes' trailers trailers' : List Bytes}
    (h : Chunks bytes sizes trailers rest) (h' : Chunks bytes sizes' trailers' rest') :
    rest = rest' := by
  induction h generalizing sizes' with
  | @last line later rest trailers hline hsize htail =>
      generalize hbytes : line ++ crlf ++ later = bytes at h'
      cases h' with
      | last hline' _ htail' =>
          obtain ⟨rfl, rfl⟩ := line_unique hline hline' hbytes
          exact htail.rest_unique htail'
      | chunk hline' hsize' hne _ =>
          obtain ⟨rfl, -⟩ := line_unique hline hline' hbytes
          rw [hsize] at hsize'
          exact absurd (List.length_eq_zero_iff.mp (Except.ok.inj hsize').symm) hne
  | @chunk line data later rest sizes trailers hline hsize hne _ ih =>
      generalize hbytes : line ++ crlf ++ (data ++ (crlf ++ later)) = bytes at h'
      cases h' with
      | last hline' hsize' _ =>
          obtain ⟨rfl, -⟩ := line_unique hline hline' hbytes
          rw [hsize] at hsize'
          exact absurd (List.length_eq_zero_iff.mp (Except.ok.inj hsize')) hne
      | chunk hline' hsize' _ htail' =>
          obtain ⟨rfl, hdata⟩ := line_unique hline hline' hbytes
          rw [hsize] at hsize'
          obtain ⟨-, hlater⟩ := List.append_inj hdata (Except.ok.inj hsize')
          obtain rfl := List.append_cancel_left hlater
          exact ih htail'

/-! ## The body which was drained -/

/-- The body which is consumed after a head: the whole chunked body, as many
bytes as announced, or none if nothing is announced. -/
def DrainedBody (head : ResponseHead) (body : Bytes) : Prop :=
  if head.isChunked then ∃ sizes trailers, Chunks body sizes trailers []
  else head.contentLength = .ok (some body.length) ∨ head.contentLength = .ok none ∧ body = []

theorem drainTrailers_ending {b b' : BufferedStream} (h : b.drainTrailers = (.ok (), b')) :
    b'.stream.ending = b.stream.ending := by
  fun_induction BufferedStream.drainTrailers b with
  | case1 b e b₁ hread => cases (Prod.mk.inj h).1
  | case2 b b₁ hread =>
      obtain ⟨-, rfl⟩ := Prod.mk.inj h
      exact (readLine_ok hread).2.2
  | case3 b line b₁ hread hne ih => exact (ih h).trans (readLine_ok hread).2.2

theorem drainChunked_ending {b b' : BufferedStream} (h : b.drainChunked = (.ok (), b')) :
    b'.stream.ending = b.stream.ending := by
  fun_induction BufferedStream.drainChunked b with
  | case1 b e b₁ hread => cases (Prod.mk.inj h).1
  | case2 b line b₁ hread e hsize => cases (Prod.mk.inj h).1
  | case3 b line b₁ hread hsize => exact (drainTrailers_ending h).trans (readLine_ok hread).2.2
  | case4 b line b₁ hread size hsize hpos e b₂ hdata => cases (Prod.mk.inj h).1
  | case5 b line b₁ hread size hsize hpos b₂ hdata e b₃ hend => cases (Prod.mk.inj h).1
  | case6 b line b₁ hread size hsize hpos b₂ hdata b₃ hend ih =>
      rw [ih h, (readLine_ok hend).2.2, (discardExact_ok hdata).2.2, (readLine_ok hread).2.2]
  | case7 b line b₁ hread size hsize hpos b₂ hdata terminator b₃ hend hne =>
      cases (Prod.mk.inj h).1

/-- What a successful drain has consumed. -/
theorem drainResponseBody_ok {head : ResponseHead} {b b' : BufferedStream}
    (h : b.drainResponseBody head = (.ok (), b')) :
    ∃ body, b.pending = body ++ b'.pending ∧ DrainedBody head body ∧
      b'.stream.ending = b.stream.ending := by
  unfold BufferedStream.drainResponseBody at h
  split at h
  · next hchunked =>
      obtain ⟨sizes, trailers, hchunks⟩ := chunks_of_drain h
      obtain ⟨body, hpending, hbody⟩ := hchunks.exists_body
      refine ⟨body, hpending, ?_, drainChunked_ending h⟩
      rw [DrainedBody, if_pos hchunked]
      exact ⟨sizes, trailers, hbody⟩
  next hplain =>
  split at h
  · cases (Prod.mk.inj h).1
  · next length hlength =>
      obtain ⟨henough, hdrop, hending⟩ := discardExact_ok h
      refine ⟨b.pending.take length, by rw [hdrop, List.take_append_drop], ?_, hending⟩
      rw [DrainedBody, if_neg hplain, List.length_take_of_le henough]
      exact Or.inl hlength
  · next hnone =>
      obtain ⟨-, rfl⟩ := Prod.mk.inj h
      refine ⟨[], rfl, ?_, rfl⟩
      rw [DrainedBody, if_neg hplain]
      exact Or.inr ⟨hnone, rfl⟩

/-- The bytes decide where a body ends. -/
theorem DrainedBody.unique {head : ResponseHead} {body body' rest rest' : Bytes}
    (h : DrainedBody head body) (h' : DrainedBody head body')
    (hbytes : body ++ rest = body' ++ rest') : body = body' ∧ rest = rest' := by
  unfold DrainedBody at h h'
  split at h
  · next hchunked =>
      obtain ⟨sizes, trailers, hbody⟩ := h
      obtain ⟨sizes', trailers', hbody'⟩ := (if_pos hchunked ▸ h' :)
      have hrest := (hbody.append rest).rest_unique (hbytes ▸ hbody'.append rest')
      obtain rfl : rest = rest' := by simpa using hrest
      exact ⟨List.append_cancel_right hbytes, rfl⟩
  · next hplain =>
      apply List.append_inj hbytes
      rw [if_neg hplain] at h'
      rcases h with hlength | ⟨hnone, rfl⟩ <;> rcases h' with hlength' | ⟨hnone', rfl⟩
      · exact Option.some.inj (Except.ok.inj (hlength.symm.trans hlength'))
      · cases hlength.symm.trans hnone'
      · cases hnone.symm.trans hlength'
      · rfl

/-! ## Whole responses -/

/-- A response which was taken from a stream: the bytes of its head and what
they were parsed as, and the bytes of its body. -/
structure TakenResponse (httparse : Httparse) where
  raw : Bytes
  head : ResponseHead
  body : Bytes
  ends : findHeaderEnd raw = some raw.length
  parsed : parseResponseHead httparse raw = .ok head
  drained : DrainedBody head body

/-- The bytes of a response. -/
def TakenResponse.wire {httparse : Httparse} (response : TakenResponse httparse) : Bytes :=
  response.raw ++ response.body

/-- The bytes behind a stream of responses decide the responses.  The last head
is the first one with the property `good`; its body is not taken. -/
theorem taken_unique {httparse : Httparse} {good : ResponseHead → Bool}
    {taken taken' : List (TakenResponse httparse)} {raw raw' rest rest' : Bytes}
    {final final' : ResponseHead}
    (hbytes : taken.flatMap TakenResponse.wire ++ (raw ++ rest) =
      taken'.flatMap TakenResponse.wire ++ (raw' ++ rest'))
    (hends : findHeaderEnd raw = some raw.length) (hends' : findHeaderEnd raw' = some raw'.length)
    (hparsed : parseResponseHead httparse raw = .ok final)
    (hparsed' : parseResponseHead httparse raw' = .ok final')
    (hgood : good final = true) (hgood' : good final' = true)
    (hothers : ∀ response ∈ taken, good response.head = false)
    (hothers' : ∀ response ∈ taken', good response.head = false) :
    taken.map TakenResponse.head = taken'.map TakenResponse.head ∧ final = final' ∧
      rest = rest' := by
  induction taken generalizing taken' with
  | nil =>
      cases taken' with
      | nil =>
          simp only [List.flatMap_nil, List.nil_append] at hbytes
          obtain ⟨rfl, hrest⟩ := head_unique hbytes hends hends'
          exact ⟨rfl, Except.ok.inj (hparsed.symm.trans hparsed'), hrest⟩
      | cons first taken' =>
          -- the final head of one stream would be a head before the final one of the other
          simp only [List.flatMap_nil, List.nil_append, List.flatMap_cons, TakenResponse.wire,
            List.append_assoc] at hbytes
          obtain ⟨rfl, -⟩ := head_unique hbytes hends first.ends
          rw [Except.ok.inj (hparsed.symm.trans first.parsed)] at hgood
          rw [hothers' first List.mem_cons_self] at hgood
          cases hgood
  | cons first taken ih =>
      cases taken' with
      | nil =>
          simp only [List.flatMap_nil, List.nil_append, List.flatMap_cons, TakenResponse.wire,
            List.append_assoc] at hbytes
          obtain ⟨hraw, -⟩ := head_unique hbytes first.ends hends'
          rw [← hraw, first.parsed] at hparsed'
          rw [← Except.ok.inj hparsed', hothers first List.mem_cons_self] at hgood'
          cases hgood'
      | cons first' taken' =>
          simp only [List.flatMap_cons, TakenResponse.wire, List.append_assoc] at hbytes
          obtain ⟨hraw, htail⟩ := head_unique hbytes first.ends first'.ends
          have hhead : first.head = first'.head := by
            have hparse := first'.parsed
            rw [← hraw, first.parsed] at hparse
            exact Except.ok.inj hparse
          obtain ⟨-, hlater⟩ := first.drained.unique (hhead ▸ first'.drained) htail
          obtain ⟨hheads, hfinal, hrest⟩ := ih hlater
            (fun response hmem => hothers response (List.mem_cons_of_mem _ hmem))
            (fun response hmem => hothers' response (List.mem_cons_of_mem _ hmem))
          exact ⟨by rw [List.map_cons, List.map_cons, hhead, hheads], hfinal, hrest⟩

end Http1
end Fastpx
