import Fastpx.StreamKit.Machine
import Fastpx.Http1.Stream

/-!
# Draining comes to an end

`drain_response_body` has four nested loops: the chunk loop, the trailer loop,
and inside both of them the loops of `read_line` and `discard_exact`.  Here it is
a machine which makes one turn of the innermost loop in each step.  The step
function does not recurse, so it owes nothing to the termination proofs of the
functions in `Stream`:

* `rest_step`: a step does not change what is left to compute, so the machine
  computes `drainResponseBody`;
* `measure_step_lt`: bytes which are not read yet count twice, and every step
  makes the number smaller;
* `pending_step_lt`: when the chunk loop or the trailer loop starts over, there
  are fewer bytes in the buffer and the stream together.
-/

namespace Fastpx
namespace Http1

open StreamKit BufferedStream

/-! ## One turn of the inner loops -/

/-- How a turn of a loop ends: with another turn, or with a return. -/
inductive LoopTurn (σ ρ : Type) where
  | again (s : σ)
  | returned (result : ρ)
  | failed (error : HttpError)

/-- One turn of the loop of `read_line`. -/
def lineTurn (maxBytes : Nat) (b : BufferedStream) : LoopTurn Unit Bytes × BufferedStream :=
  match findLineEnd b.buffer with
  | some index => (.returned (b.buffer.take index), ⟨b.stream, b.buffer.drop (index + 2)⟩)
  | none =>
      if maxBytes ≤ b.buffer.length then (.failed .invalidChunkedBody, b)
      else
        match b.stream.read (lineRoom b.buffer.length) with
        | (.error e, s) => (.failed (.io e), ⟨s, b.buffer⟩)
        | (.ok [], s) => (.failed .unexpectedEof, ⟨s, b.buffer⟩)
        | (.ok (x :: xs), s) => (.again (), ⟨s, b.buffer ++ x :: xs⟩)

/-- One turn of the `while` loop of `discard_exact`. -/
def discardTurn (remaining : Nat) (b : BufferedStream) : LoopTurn Nat Unit × BufferedStream :=
  if remaining = 0 then (.returned (), b)
  else
    match b.stream.read (min remaining discardRoom) with
    | (.error e, s) => (.failed (.io e), ⟨s, b.buffer⟩)
    | (.ok [], s) => (.failed .unexpectedEof, ⟨s, b.buffer⟩)
    | (.ok (x :: xs), s) => (.again (remaining - (x :: xs).length), ⟨s, b.buffer⟩)

/-- The `while` loop of `discard_exact` as a whole. -/
def discardLoop (remaining : Nat) (b : BufferedStream) : Except HttpError Unit × BufferedStream :=
  match b.stream.skip discardRoom remaining with
  | (.ok (), s) => (.ok (), ⟨s, b.buffer⟩)
  | (.error stop, s) => (.error (stopError .unexpectedEof stop), ⟨s, b.buffer⟩)

/-- What a turn has to do with the loop it is a turn of.  `whole` is the outcome
of the loop on `b`; a return gives up at least `consumed` bytes. -/
def IsTurnOf {σ ρ : Type} (loop : σ → BufferedStream → Except HttpError ρ × BufferedStream)
    (consumed : Nat) (b : BufferedStream) (whole : Except HttpError ρ × BufferedStream) :
    LoopTurn σ ρ × BufferedStream → Prop
  | (.again s, b') =>
      whole = loop s b' ∧ b'.pending.length ≤ b.pending.length ∧
        b'.stream.unread.length < b.stream.unread.length
  | (.returned result, b') =>
      whole = (.ok result, b') ∧ b'.pending.length + consumed ≤ b.pending.length ∧
        b'.stream = b.stream
  | (.failed e, b') => whole = (.error e, b') ∧ b' = b

/-- The error of a reading loop at the end of the stream, as the loop reports it
from the result of the read. -/
theorem atEnd_cases (full : HttpError) (s : Incoming) :
    (s.atEnd = .ok [] ∧ stopError full s.stop = .unexpectedEof) ∨
      ∃ e, s.atEnd = .error e ∧ stopError full s.stop = .io e := by
  unfold Source.atEnd Source.stop
  cases s.ending with
  | none => exact Or.inl ⟨rfl, rfl⟩
  | some e => exact Or.inr ⟨e, rfl, rfl⟩

theorem lineTurn_isTurnOf (maxBytes : Nat) (b : BufferedStream) :
    IsTurnOf (fun _ b => readLine b maxBytes) 2 b (readLine b maxBytes) (lineTurn maxBytes b) := by
  unfold lineTurn
  cases hfound : findLineEnd b.buffer with
  | some index =>
      have hread : readLine b maxBytes =
          (.ok (b.buffer.take index), ⟨b.stream, b.buffer.drop (index + 2)⟩) := by
        rw [readLine, Buffered.fill_of_some hfound]
      have hlen : index + 2 ≤ b.buffer.length := firstIndex_add_length_le hfound
      refine ⟨hread, ?_, rfl⟩
      simp only [Buffered.length_pending, List.length_drop]
      omega
  | none =>
      by_cases hlimit : maxBytes ≤ b.buffer.length
      · simp only [if_pos hlimit]
        exact ⟨by rw [readLine, Buffered.fill_of_limit hfound hlimit]; rfl, rfl⟩
      · simp only [if_neg hlimit]
        rcases b.stream.read_cases (lineRoom_pos b.buffer.length (Nat.not_le.mp hlimit)) with
          ⟨x, xs, s, hread, -⟩ | ⟨-, hread⟩
        · -- the bytes move from the stream to the buffer
          have hunread := (Source.read_ok hread).1
          rw [hread]
          refine ⟨by rw [readLine, Buffered.fill_of_read hfound hlimit hread]; rfl, ?_,
            Source.read_cons_unread_lt hread⟩
          simp [Buffered.pending, hunread]
        · have hline : readLine b maxBytes =
              (.error (stopError .invalidChunkedBody b.stream.stop), b) := by
            rw [readLine, Buffered.fill_of_atEnd hfound hlimit hread]
          rw [hread]
          rcases atEnd_cases .invalidChunkedBody b.stream with
            ⟨hend, herror⟩ | ⟨e, hend, herror⟩
          · rw [hend]
            exact ⟨by rw [hline, herror], rfl⟩
          · rw [hend]
            exact ⟨by rw [hline, herror], rfl⟩

theorem discardTurn_isTurnOf (remaining : Nat) (b : BufferedStream) :
    IsTurnOf discardLoop 0 b (discardLoop remaining b) (discardTurn remaining b) := by
  unfold discardTurn
  by_cases hzero : remaining = 0
  · rw [if_pos hzero]
    exact ⟨by rw [discardLoop, hzero, Source.skip_zero], Nat.le_refl _, rfl⟩
  · rw [if_neg hzero]
    have hroom : 0 < min remaining discardRoom := by
      unfold discardRoom
      omega
    rcases b.stream.read_cases hroom with ⟨x, xs, s, hread, -⟩ | ⟨-, hread⟩
    · have hunread := (Source.read_ok hread).1
      rw [hread]
      refine ⟨by rw [discardLoop, Source.skip_of_read hzero hread]; rfl, ?_,
        Source.read_cons_unread_lt hread⟩
      simp only [Buffered.length_pending, hunread, List.length_append]
      omega
    · have hloop : discardLoop remaining b =
          (.error (stopError .unexpectedEof b.stream.stop), b) := by
        rw [discardLoop, Source.skip_of_atEnd hzero hread]
      rw [hread]
      rcases atEnd_cases .unexpectedEof b.stream with ⟨hend, herror⟩ | ⟨e, hend, herror⟩
      · rw [hend]
        exact ⟨by rw [hloop, herror], rfl⟩
      · rw [hend]
        exact ⟨by rw [hloop, herror], rfl⟩

/-! ## The machine -/

/-- Where the nested loops are. -/
inductive DrainPoint where
  /-- at the start of the chunk loop -/
  | chunk
  | sizeLine
  | data (remaining : Nat)
  | terminator
  /-- at the start of the trailer loop -/
  | trailer
  | trailerLine
  /-- in a body with `Content-Length` -/
  | body (remaining : Nat)
  | done (result : Except HttpError Unit)

structure DrainState where
  point : DrainPoint
  stream : BufferedStream

namespace DrainState

/-- A turn of an inner loop inside its caller: `point` is where the loop is,
`next` what the caller does with its result.  Errors leave every loop. -/
def turnStep {σ ρ : Type} (point : σ → DrainPoint) (next : ρ → BufferedStream → DrainState) :
    LoopTurn σ ρ × BufferedStream → DrainState
  | (.again s, b) => ⟨point s, b⟩
  | (.returned result, b) => next result b
  | (.failed e, b) => ⟨.done (.error e), b⟩

/-- The call of `discard_exact`, up to its loop: the buffered bytes go first. -/
def enterDiscard (point : Nat → DrainPoint) (remaining : Nat) (b : BufferedStream) : DrainState :=
  let buffered := min remaining b.buffer.length
  ⟨point (remaining - buffered), ⟨b.stream, b.buffer.drop buffered⟩⟩

def afterSizeLine (line : Bytes) (b : BufferedStream) : DrainState :=
  match chunkSize line with
  | .error e => ⟨.done (.error e), b⟩
  | .ok size => if size = 0 then ⟨.trailer, b⟩ else enterDiscard .data size b

def afterTerminator (line : Bytes) (b : BufferedStream) : DrainState :=
  if line = [] then ⟨.chunk, b⟩ else ⟨.done (.error .invalidChunkedBody), b⟩

def afterTrailerLine (line : Bytes) (b : BufferedStream) : DrainState :=
  if line = [] then ⟨.done (.ok ()), b⟩ else ⟨.trailer, b⟩

/-- One turn of the innermost loop. -/
def step (s : DrainState) : DrainState :=
  match s.point with
  | .chunk => ⟨.sizeLine, s.stream⟩
  | .sizeLine => turnStep (fun _ => .sizeLine) afterSizeLine (lineTurn lineLimit s.stream)
  | .data remaining =>
      turnStep .data (fun _ b => ⟨.terminator, b⟩) (discardTurn remaining s.stream)
  | .terminator => turnStep (fun _ => .terminator) afterTerminator (lineTurn 2 s.stream)
  | .trailer => ⟨.trailerLine, s.stream⟩
  | .trailerLine => turnStep (fun _ => .trailerLine) afterTrailerLine (lineTurn lineLimit s.stream)
  | .body remaining =>
      turnStep .body (fun _ b => ⟨.done (.ok ()), b⟩) (discardTurn remaining s.stream)
  | .done _ => s

/-- The call of `drain_response_body`. -/
def start (response : ResponseHead) (b : BufferedStream) : DrainState :=
  if response.isChunked then ⟨.chunk, b⟩
  else
    match response.contentLength with
    | .error e => ⟨.done (.error e), b⟩
    | .ok (some length) => enterDiscard .body length b
    | .ok none => ⟨.done (.ok ()), b⟩

/-! ## What is left to compute -/

/-- The `?` operator: go on with the result, or return the error. -/
def andThen {ρ : Type} (result : Except HttpError ρ × BufferedStream)
    (next : ρ → BufferedStream → Except HttpError Unit × BufferedStream) :
    Except HttpError Unit × BufferedStream :=
  match result with
  | (.error e, b) => (.error e, b)
  | (.ok a, b) => next a b

/-- The rest of a turn of the chunk loop after the data, and the turns after it. -/
def endChunk (b : BufferedStream) : Except HttpError Unit × BufferedStream :=
  andThen (readLine b 2) fun terminator b =>
    if terminator = [] then drainChunked b else (.error .invalidChunkedBody, b)

/-- What the functions of `Stream` compute from a state of the machine. -/
def rest (s : DrainState) : Except HttpError Unit × BufferedStream :=
  match s.point with
  | .chunk | .sizeLine => drainChunked s.stream
  | .data remaining => andThen (discardLoop remaining s.stream) fun _ b => endChunk b
  | .terminator => endChunk s.stream
  | .trailer | .trailerLine => drainTrailers s.stream
  | .body remaining => discardLoop remaining s.stream
  | .done result => (result, s.stream)

theorem andThen_error {ρ : Type} (e : HttpError) (b : BufferedStream)
    (next : ρ → BufferedStream → Except HttpError Unit × BufferedStream) :
    andThen (.error e, b) next = (.error e, b) := rfl

theorem andThen_ok {ρ : Type} (a : ρ) (b : BufferedStream)
    (next : ρ → BufferedStream → Except HttpError Unit × BufferedStream) :
    andThen (.ok a, b) next = next a b := rfl

theorem andThen_return (result : Except HttpError Unit × BufferedStream) :
    andThen result (fun _ b => (.ok (), b)) = result := by
  obtain ⟨_ | _, b⟩ := result
  · rfl
  · rfl

theorem discardExact_eq (remaining : Nat) (b : BufferedStream) :
    discardExact b remaining = rest (enterDiscard .body remaining b) := by
  simp only [discardExact, Buffered.discard, rest, enterDiscard, discardLoop]
  generalize b.stream.skip discardRoom (remaining - min remaining b.buffer.length) = result
  obtain ⟨_ | _, s⟩ := result
  · rfl
  · rfl

theorem drainTrailers_eq (b : BufferedStream) :
    drainTrailers b =
      andThen (readLine b lineLimit) fun line b => rest (afterTrailerLine line b) := by
  rcases hline : readLine b lineLimit with ⟨e | line, b₁⟩
  · rw [drainTrailers_of_error hline, andThen_error]
  · rw [drainTrailers_of_readLine hline, andThen_ok, afterTrailerLine]
    split
    · rfl
    · rfl

theorem drainChunked_eq (b : BufferedStream) :
    drainChunked b = andThen (readLine b lineLimit) fun line b => rest (afterSizeLine line b) := by
  rcases hline : readLine b lineLimit with ⟨e | line, b₁⟩
  · rw [drainChunked_of_error hline, andThen_error]
  · rw [drainChunked_of_readLine hline, andThen_ok, afterSizeLine]
    cases chunkSize line with
    | error e => rfl
    | ok size =>
        by_cases hzero : size = 0
        · simp only [if_pos hzero]
          rfl
        · simp only [if_neg hzero]
          change _ = andThen (rest (enterDiscard .body size b₁)) fun _ b => endChunk b
          rw [← discardExact_eq]
          rcases discardExact b₁ size with ⟨e | ⟨⟩, b₂⟩
          · rfl
          · simp only [andThen_ok, endChunk]
            rcases readLine b₂ 2 with ⟨e | terminator, b₃⟩
            · rfl
            · rfl

/-- A turn leaves what the caller of the loop has to compute as it was. -/
theorem rest_turnStep {σ ρ : Type} {point : σ → DrainPoint}
    {next : ρ → BufferedStream → DrainState} {consumed : Nat} {b : BufferedStream}
    {loop : σ → BufferedStream → Except HttpError ρ × BufferedStream}
    {whole : Except HttpError ρ × BufferedStream} {turn : LoopTurn σ ρ × BufferedStream}
    (hturn : IsTurnOf loop consumed b whole turn)
    (hpoint : ∀ s b, rest ⟨point s, b⟩ = andThen (loop s b) fun result b => rest (next result b)) :
    rest (turnStep point next turn) = andThen whole fun result b => rest (next result b) := by
  obtain ⟨s | result | e, b'⟩ := turn
  · rw [hturn.1]
    exact hpoint s b'
  · rw [hturn.1]
    rfl
  · rw [hturn.1]
    rfl

theorem endChunk_eq (b : BufferedStream) :
    endChunk b = andThen (readLine b 2) fun line b => rest (afterTerminator line b) := by
  unfold endChunk afterTerminator
  rcases readLine b 2 with ⟨e | line, b₁⟩
  · rfl
  · simp only [andThen_ok]
    split
    · rfl
    · rfl

/-- A step changes nothing of what is left to compute. -/
theorem rest_step (s : DrainState) : rest (step s) = rest s := by
  obtain ⟨point, b⟩ := s
  cases point with
  | chunk => rfl
  | sizeLine =>
      refine Eq.trans ?_ (drainChunked_eq b).symm
      exact rest_turnStep (lineTurn_isTurnOf lineLimit b) fun _ => drainChunked_eq
  | data remaining => exact rest_turnStep (discardTurn_isTurnOf remaining b) fun _ _ => rfl
  | terminator =>
      refine Eq.trans ?_ (endChunk_eq b).symm
      exact rest_turnStep (lineTurn_isTurnOf 2 b) fun _ => endChunk_eq
  | trailer => rfl
  | trailerLine =>
      refine Eq.trans ?_ (drainTrailers_eq b).symm
      exact rest_turnStep (lineTurn_isTurnOf lineLimit b) fun _ => drainTrailers_eq
  | body remaining =>
      refine Eq.trans ?_ (andThen_return (discardLoop remaining b))
      exact rest_turnStep (discardTurn_isTurnOf remaining b) fun _ _ => (andThen_return _).symm
  | done result => rfl

/-- The machine starts with all of `drain_response_body` left to compute. -/
theorem rest_start (response : ResponseHead) (b : BufferedStream) :
    rest (start response b) = drainResponseBody response b := by
  unfold start drainResponseBody
  by_cases hchunked : response.isChunked
  · simp only [if_pos hchunked]
    rfl
  · simp only [if_neg hchunked]
    cases response.contentLength with
    | error e => rfl
    | ok length =>
        cases length with
        | none => rfl
        | some length => exact (discardExact_eq length b).symm

/-! ## Progress -/

/-- How many more steps than its bytes demand a point may take. -/
def weight : DrainPoint → Nat
  | .done _ => 0
  | .sizeLine | .terminator | .trailerLine | .body _ => 1
  | .chunk | .trailer | .data _ => 2

/-- Unread bytes count twice: a read moves them to the buffer, and only then are
they consumed. -/
def measure (s : DrainState) : Nat :=
  2 * (s.stream.pending.length + s.stream.stream.unread.length) + weight s.point

/-- The start of a turn of the chunk loop or of the trailer loop. -/
def IsLoopStart (p : DrainPoint) : Prop := p = .chunk ∨ p = .trailer

section TurnStep

variable {σ ρ : Type} {point : σ → DrainPoint} {next : ρ → BufferedStream → DrainState}
  {consumed : Nat} {b : BufferedStream} {whole : Except HttpError ρ × BufferedStream}
  {loop : σ → BufferedStream → Except HttpError ρ × BufferedStream}
  {turn : LoopTurn σ ρ × BufferedStream}

theorem measure_turnStep_lt {w : Nat} (hturn : IsTurnOf loop consumed b whole turn)
    (hpoint : ∀ s, weight (point s) = w) (hpos : 0 < w)
    (hnext : ∀ result b', measure (next result b') <
      2 * (b'.pending.length + consumed + b'.stream.unread.length) + w) :
    measure (turnStep point next turn) <
      2 * (b.pending.length + b.stream.unread.length) + w := by
  obtain ⟨s | result | e, b'⟩ := turn
  · obtain ⟨-, hpending, hunread⟩ := hturn
    simp only [turnStep, measure, hpoint]
    omega
  · obtain ⟨-, hpending, hstream⟩ := hturn
    have := hnext result b'
    rw [hstream] at this
    simp only [turnStep]
    omega
  · obtain ⟨-, rfl⟩ := hturn
    simp only [turnStep, measure, weight]
    omega

theorem pending_turnStep_le (hturn : IsTurnOf loop consumed b whole turn)
    (hnext : ∀ result b', (next result b').stream.pending.length ≤ b'.pending.length) :
    (turnStep point next turn).stream.pending.length ≤ b.pending.length := by
  obtain ⟨s | result | e, b'⟩ := turn
  · exact hturn.2.1
  · have := hnext result b'
    have := hturn.2.1
    simp only [turnStep]
    omega
  · rw [hturn.2]
    exact Nat.le_refl _

/-- A loop starts over only with the return of an inner loop. -/
theorem pending_turnStep_lt (hturn : IsTurnOf loop consumed b whole turn)
    (hpoint : ∀ s, ¬ IsLoopStart (point s))
    (hnext : ∀ result b', IsLoopStart (next result b').point →
      (next result b').stream.pending.length < b'.pending.length + consumed)
    (hstart : IsLoopStart (turnStep point next turn).point) :
    (turnStep point next turn).stream.pending.length < b.pending.length := by
  obtain ⟨s | result | e, b'⟩ := turn
  · exact absurd hstart (hpoint s)
  · have := hnext result b' hstart
    have := hturn.2.1
    simp only [turnStep]
    omega
  · exact absurd hstart (by simp [turnStep, IsLoopStart])

end TurnStep

theorem pending_enterDiscard_le (point : Nat → DrainPoint) (remaining : Nat) (b : BufferedStream) :
    (enterDiscard point remaining b).stream.pending.length ≤ b.pending.length := by
  simp only [enterDiscard, Buffered.length_pending, List.length_drop]
  omega

theorem measure_enterDiscard_le {point : Nat → DrainPoint} {w : Nat}
    (hpoint : ∀ remaining, weight (point remaining) = w) (remaining : Nat) (b : BufferedStream) :
    measure (enterDiscard point remaining b) ≤
      2 * (b.pending.length + b.stream.unread.length) + w := by
  have hpending := pending_enterDiscard_le point remaining b
  have hunread : (enterDiscard point remaining b).stream.stream = b.stream := rfl
  rw [measure, hunread, show weight (enterDiscard point remaining b).point = w from hpoint _]
  omega

/-- What the callers of `read_line` do with a line. -/
structure FollowsLine (next : Bytes → BufferedStream → DrainState) : Prop where
  pending_le : ∀ line b, (next line b).stream.pending.length ≤ b.pending.length
  measure_le : ∀ line b, measure (next line b) ≤
    2 * (b.pending.length + b.stream.unread.length) + 2

theorem followsLine_afterSizeLine : FollowsLine afterSizeLine where
  pending_le line b := by
    unfold afterSizeLine
    split
    · exact Nat.le_refl _
    · split
      · exact Nat.le_refl _
      · exact pending_enterDiscard_le _ _ b
  measure_le line b := by
    unfold afterSizeLine
    split
    · exact Nat.le_add_right _ 2
    · split
      · exact Nat.le_refl _
      · exact measure_enterDiscard_le (fun _ => rfl) _ b

theorem followsLine_afterTerminator : FollowsLine afterTerminator where
  pending_le line b := by
    unfold afterTerminator
    split <;> exact Nat.le_refl _
  measure_le line b := by
    unfold afterTerminator
    split
    · exact Nat.le_refl _
    · exact Nat.le_add_right _ 2

theorem followsLine_afterTrailerLine : FollowsLine afterTrailerLine where
  pending_le line b := by
    unfold afterTrailerLine
    split <;> exact Nat.le_refl _
  measure_le line b := by
    unfold afterTrailerLine
    split
    · exact Nat.le_add_right _ 2
    · exact Nat.le_refl _

/-- Before its end, the machine makes progress in every step. -/
theorem measure_step_lt (s : DrainState) (h : ∀ result, s.point ≠ .done result) :
    measure (step s) < measure s := by
  obtain ⟨point, b⟩ := s
  -- a line costs at least the two bytes of its `CRLF`, which pays for the next point
  have hline : ∀ (p : DrainPoint) (next : Bytes → BufferedStream → DrainState) (maxBytes : Nat),
      weight p = 1 → FollowsLine next → measure (turnStep (fun _ => p) next (lineTurn maxBytes b)) <
        2 * (b.pending.length + b.stream.unread.length) + 1 := by
    intro p next maxBytes hp hnext
    refine measure_turnStep_lt (lineTurn_isTurnOf maxBytes b) (fun _ => hp) Nat.one_pos ?_
    intro line b'
    have := hnext.measure_le line b'
    omega
  cases point with
  | chunk => exact Nat.lt_succ_self _
  | sizeLine => exact hline _ _ _ rfl followsLine_afterSizeLine
  | data remaining =>
      exact measure_turnStep_lt (discardTurn_isTurnOf remaining b) (fun _ => rfl) Nat.two_pos
        fun _ _ => Nat.lt_succ_self _
  | terminator => exact hline _ _ _ rfl followsLine_afterTerminator
  | trailer => exact Nat.lt_succ_self _
  | trailerLine => exact hline _ _ _ rfl followsLine_afterTrailerLine
  | body remaining =>
      exact measure_turnStep_lt (discardTurn_isTurnOf remaining b) (fun _ => rfl) Nat.one_pos
        fun _ _ => Nat.lt_succ_self _
  | done result => exact absurd rfl (h result)

/-- No step makes bytes. -/
theorem pending_step_le (s : DrainState) :
    (step s).stream.pending.length ≤ s.stream.pending.length := by
  obtain ⟨point, b⟩ := s
  cases point with
  | chunk => exact Nat.le_refl _
  | sizeLine =>
      exact pending_turnStep_le (lineTurn_isTurnOf _ b) followsLine_afterSizeLine.pending_le
  | data remaining =>
      exact pending_turnStep_le (discardTurn_isTurnOf remaining b) fun _ _ => Nat.le_refl _
  | terminator =>
      exact pending_turnStep_le (lineTurn_isTurnOf _ b) followsLine_afterTerminator.pending_le
  | trailer => exact Nat.le_refl _
  | trailerLine =>
      exact pending_turnStep_le (lineTurn_isTurnOf _ b) followsLine_afterTrailerLine.pending_le
  | body remaining =>
      exact pending_turnStep_le (discardTurn_isTurnOf remaining b) fun _ _ => Nat.le_refl _
  | done result => exact Nat.le_refl _

/-- A step to the start of the chunk loop or of the trailer loop has consumed
bytes. -/
theorem pending_step_lt (s : DrainState) (h : IsLoopStart (step s).point) :
    (step s).stream.pending.length < s.stream.pending.length := by
  obtain ⟨point, b⟩ := s
  have hline : ∀ (p : DrainPoint) (next : Bytes → BufferedStream → DrainState) (maxBytes : Nat),
      ¬ IsLoopStart p → FollowsLine next →
      IsLoopStart (turnStep (fun _ => p) next (lineTurn maxBytes b)).point →
      (turnStep (fun _ => p) next (lineTurn maxBytes b)).stream.pending.length <
        b.pending.length := by
    intro p next maxBytes hp hnext hstart
    refine pending_turnStep_lt (lineTurn_isTurnOf maxBytes b) (fun _ => hp) ?_ hstart
    intro line b' _
    have := hnext.pending_le line b'
    omega
  cases point with
  | chunk => simp [step, IsLoopStart] at h
  | sizeLine => exact hline _ _ _ (by simp [IsLoopStart]) followsLine_afterSizeLine h
  | data remaining =>
      exact pending_turnStep_lt (discardTurn_isTurnOf remaining b) (by simp [IsLoopStart])
        (by simp [IsLoopStart]) h
  | terminator => exact hline _ _ _ (by simp [IsLoopStart]) followsLine_afterTerminator h
  | trailer => simp [step, IsLoopStart] at h
  | trailerLine => exact hline _ _ _ (by simp [IsLoopStart]) followsLine_afterTrailerLine h
  | body remaining =>
      exact pending_turnStep_lt (discardTurn_isTurnOf remaining b) (by simp [IsLoopStart])
        (by simp [IsLoopStart]) h
  | done result => simp [step, IsLoopStart] at h

theorem measure_start_le (response : ResponseHead) (b : BufferedStream) :
    measure (start response b) ≤ 4 * b.pending.length + 2 := by
  have hpending := Buffered.length_pending b
  have hbound : measure (start response b) ≤
      2 * (b.pending.length + b.stream.unread.length) + 2 := by
    unfold start
    split
    · exact Nat.le_refl _
    · split
      · exact Nat.le_add_right _ 2
      · exact (measure_enterDiscard_le (fun _ => rfl) _ b).trans (Nat.le_succ _)
      · exact Nat.le_add_right _ 2
  omega

/-- Draining ends on every stream, after a number of turns that is linear in the
number of bytes, with what `drainResponseBody` computes.  Whenever the chunk
loop or the trailer loop starts over, fewer bytes are pending than at any time
before. -/
theorem drain_terminates (response : ResponseHead) (b : BufferedStream) :
    (∃ n ≤ 4 * b.pending.length + 2, step^[n] (start response b) =
        ⟨.done (drainResponseBody response b).1, (drainResponseBody response b).2⟩) ∧
      ∀ (s : DrainState) (n : Nat), IsLoopStart (step^[n + 1] s).point →
        (step^[n + 1] s).stream.pending.length < s.stream.pending.length := by
  constructor
  · obtain ⟨n, hn, result, hdone⟩ :=
      exists_iterate_of_measure (fun s => ∃ result, s.point = .done result) measure
        (fun s h => measure_step_lt s fun result hresult => h ⟨result, hresult⟩)
        (start response b)
    refine ⟨n, hn.trans (measure_start_le response b), ?_⟩
    have hrest := iterate_eq_of_step_eq rest rest_step n (start response b)
    rw [rest_start] at hrest
    rw [← hrest]
    generalize step^[n] (start response b) = final at hdone ⊢
    obtain ⟨point, stream⟩ := final
    subst hdone
    rfl
  · intro s n hstart
    rw [Function.iterate_succ_apply'] at hstart ⊢
    exact Nat.lt_of_lt_of_le (pending_step_lt _ hstart)
      (iterate_le_of_step_le (fun s => s.stream.pending.length) pending_step_le n s)

end DrainState
end Http1
end Fastpx
