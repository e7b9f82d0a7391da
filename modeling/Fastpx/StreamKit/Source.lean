import Mathlib.Data.List.Infix
import Mathlib.Tactic

/-!
# Segmented sources and buffered readers

A `Source` is the receiving side of a byte-stream connection as its reader can
observe it: the non-empty bursts still to come, and how the stream ends after
the last of them.  Quantifying over sources with the same `unread` list
quantifies over every way in which the network can cut one stream into reads.

A `Buffered` reader keeps the elements which were read but not yet consumed.
Its `pending` list, buffer first and unread rest second, is what the peer sent
and nobody consumed; every loop below is specified by what it does to
`pending`, which does not mention segments at all:

* `fill` reads until a search succeeds on the buffer, a limit is reached or
  the stream ends (`fill_keeps`, `fill_verdict`, `fill_finds`);
* `discard` consumes an exact number of elements, buffered ones first
  (`discard_ok`, `discard_error`).

`Source.trickle` is the finest segmentation: on it a loop sees no element
before it needs it, so it shows what a limit really admits.
-/

namespace StreamKit

variable {α β ε : Type*}

/-- One non-empty burst of elements. -/
abbrev Segment (α : Type*) := { xs : List α // xs ≠ [] }

/-- The receiving side of a connection: bursts to come, then the end of the
stream (`none`) or a failure that every later read reports. -/
structure Source (α ε : Type*) where
  segments : List (Segment α)
  ending : Option ε
  deriving DecidableEq

namespace Source

/-- Everything that the source will still deliver. -/
def unread (s : Source α ε) : List α :=
  (s.segments.map Subtype.val).flatten

/-- What a read returns once all segments are gone: no elements at the end of
the stream, or the failure. -/
def atEnd (s : Source α ε) : Except ε (List α) :=
  match s.ending with
  | none => .ok []
  | some e => .error e

/-- One read with room for `wanted` elements: at most the front burst, and at
most `wanted` elements of it. -/
def read (s : Source α ε) (wanted : Nat) : Except ε (List α) × Source α ε :=
  if wanted = 0 then (.ok [], s)
  else
    match s.segments with
    | [] => (s.atEnd, s)
    | burst :: rest =>
        if h : burst.val.length ≤ wanted then
          (.ok burst.val, { s with segments := rest })
        else
          (.ok (burst.val.take wanted),
            { s with segments := ⟨burst.val.drop wanted, by simpa using h⟩ :: rest })

/-- A successful read takes its elements from the front of `unread`. -/
theorem read_ok {s s' : Source α ε} {wanted : Nat} {xs : List α}
    (h : s.read wanted = (.ok xs, s')) :
    s.unread = xs ++ s'.unread ∧ s'.ending = s.ending := by
  unfold read at h
  split at h
  · obtain ⟨hxs, rfl⟩ := Prod.mk.inj h
    obtain rfl := Except.ok.inj hxs
    exact ⟨rfl, rfl⟩
  · split at h
    · next hnil =>
        obtain ⟨hxs, rfl⟩ := Prod.mk.inj h
        unfold atEnd at hxs
        split at hxs
        · obtain rfl := Except.ok.inj hxs
          exact ⟨rfl, rfl⟩
        · cases hxs
    · next burst rest hcons =>
        split at h
        · obtain ⟨hxs, rfl⟩ := Prod.mk.inj h
          obtain rfl := Except.ok.inj hxs
          exact ⟨by simp [unread, hcons], rfl⟩
        · obtain ⟨hxs, rfl⟩ := Prod.mk.inj h
          obtain rfl := Except.ok.inj hxs
          refine ⟨?_, rfl⟩
          simp only [unread, hcons, List.map_cons, List.flatten_cons]
          rw [← List.append_assoc, List.take_append_drop]

/-- A read delivers no more than it has room for. -/
theorem read_length_le {s s' : Source α ε} {wanted : Nat} {xs : List α}
    (h : s.read wanted = (.ok xs, s')) : xs.length ≤ wanted := by
  unfold read at h
  split at h
  · obtain rfl := Except.ok.inj (Prod.mk.inj h).1
    exact Nat.zero_le _
  · split at h
    · have hxs := (Prod.mk.inj h).1
      unfold atEnd at hxs
      split at hxs
      · obtain rfl := Except.ok.inj hxs
        exact Nat.zero_le _
      · cases hxs
    · split at h
      · next hle =>
          obtain rfl := Except.ok.inj (Prod.mk.inj h).1
          exact hle
      · obtain rfl := Except.ok.inj (Prod.mk.inj h).1
        exact List.length_take_le _ _

/-- A read with room either delivers something, or the source is exhausted. -/
theorem read_cases (s : Source α ε) {wanted : Nat} (hw : 0 < wanted) :
    (∃ x xs s', s.read wanted = (.ok (x :: xs), s') ∧ (x :: xs).length ≤ wanted) ∨
      (s.unread = [] ∧ s.read wanted = (s.atEnd, s)) := by
  have hw' : wanted ≠ 0 := by omega
  obtain ⟨segments, ending⟩ := s
  cases segments with
  | nil =>
      right
      exact ⟨rfl, by simp [read, hw']⟩
  | cons burst rest =>
      left
      obtain ⟨xs, hxs⟩ := burst
      obtain ⟨y, ys, rfl⟩ := List.exists_cons_of_ne_nil hxs
      by_cases hlen : (y :: ys).length ≤ wanted
      · exact ⟨y, ys, ⟨rest, ending⟩, by simp only [read, if_neg hw', dif_pos hlen], hlen⟩
      · obtain ⟨n, rfl⟩ := Nat.exists_eq_succ_of_ne_zero hw'
        refine ⟨y, ys.take n, ⟨⟨(y :: ys).drop n.succ, by simpa using hlen⟩ :: rest, ending⟩,
          ?_, ?_⟩
        · simp only [read, if_neg hw', dif_neg hlen, List.take_succ_cons]
        · simp only [List.length_cons, List.length_take]
          omega

/-- A read with room that delivers nothing has met the end of the stream. -/
theorem read_nil {s s' : Source α ε} {wanted : Nat} (hw : 0 < wanted)
    (h : s.read wanted = (.ok [], s')) : s' = s ∧ s.unread = [] ∧ s.ending = none := by
  rcases s.read_cases hw with ⟨x, xs, t, hread, -⟩ | ⟨hunread, hread⟩
  · rw [hread] at h
    cases (Prod.mk.inj h).1
  · rw [hread] at h
    obtain ⟨hend, rfl⟩ := Prod.mk.inj h
    refine ⟨rfl, hunread, ?_⟩
    unfold atEnd at hend
    split at hend
    · assumption
    · cases hend

/-- A read that delivers something makes the source shorter. -/
theorem read_cons_unread_lt {s s' : Source α ε} {wanted : Nat} {x : α} {xs : List α}
    (h : s.read wanted = (.ok (x :: xs), s')) :
    s'.unread.length < s.unread.length := by
  rw [(read_ok h).1, List.length_append, List.length_cons]
  omega

end Source

/-- Why a reading loop gave up: its limit was reached, the stream ended, or a
read failed. -/
inductive Stop (ε : Type*) where
  | full
  | ended
  | failed (error : ε)
  deriving DecidableEq, Repr

/-- How an exhausted source stops a loop that needs more elements. -/
def Source.stop (s : Source α ε) : Stop ε :=
  match s.ending with
  | none => .ended
  | some e => .failed e

/-- A source together with the elements read from it and not yet consumed. -/
structure Buffered (α ε : Type*) where
  stream : Source α ε
  buffer : List α
  deriving DecidableEq

namespace Buffered

/-- What the peer sent and nobody consumed yet. -/
def pending (b : Buffered α ε) : List α :=
  b.buffer ++ b.stream.unread

theorem length_pending (b : Buffered α ε) :
    b.pending.length = b.buffer.length + b.stream.unread.length :=
  List.length_append

/-! ## Reading until a search succeeds -/

/-- Read until `found` accepts the buffer.  The loop gives up when the buffer
has reached `limit` elements without a hit; each read has room for
`wanted (length of the buffer)` elements. -/
def fill (found : List α → Option β) (limit : Nat) (wanted : Nat → Nat)
    (b : Buffered α ε) : Except (Stop ε) β × Buffered α ε :=
  match found b.buffer with
  | some hit => (.ok hit, b)
  | none =>
      if limit ≤ b.buffer.length then (.error .full, b)
      else
        match _hread : b.stream.read (wanted b.buffer.length) with
        | (.error e, s) => (.error (.failed e), ⟨s, b.buffer⟩)
        | (.ok [], s) => (.error .ended, ⟨s, b.buffer⟩)
        | (.ok (x :: xs), s) => fill found limit wanted ⟨s, b.buffer ++ x :: xs⟩
termination_by b.stream.unread.length
decreasing_by exact Source.read_cons_unread_lt _hread

variable {found : List α → Option β} {limit : Nat} {wanted : Nat → Nat}

theorem fill_of_some {b : Buffered α ε} {hit : β} (h : found b.buffer = some hit) :
    fill found limit wanted b = (.ok hit, b) := by
  rw [fill, h]

theorem fill_of_limit {b : Buffered α ε} (h : found b.buffer = none)
    (hlimit : limit ≤ b.buffer.length) :
    fill found limit wanted b = (.error .full, b) := by
  rw [fill, h]
  exact if_pos hlimit

theorem fill_of_read {b : Buffered α ε} {x : α} {xs : List α} {s : Source α ε}
    (h : found b.buffer = none) (hlimit : ¬ limit ≤ b.buffer.length)
    (hread : b.stream.read (wanted b.buffer.length) = (.ok (x :: xs), s)) :
    fill found limit wanted b = fill found limit wanted ⟨s, b.buffer ++ x :: xs⟩ := by
  rw [fill, h]
  simp only [if_neg hlimit]
  split <;> simp_all

theorem fill_of_atEnd {b : Buffered α ε} (h : found b.buffer = none)
    (hlimit : ¬ limit ≤ b.buffer.length)
    (hread : b.stream.read (wanted b.buffer.length) = (b.stream.atEnd, b.stream)) :
    fill found limit wanted b = (.error b.stream.stop, b) := by
  rw [fill, h]
  simp only [if_neg hlimit]
  unfold Source.atEnd at hread
  unfold Source.stop
  cases hend : b.stream.ending with
  | none =>
      rw [hend] at hread
      split <;> simp_all
  | some e =>
      rw [hend] at hread
      split <;> simp_all

/-- The reader's own account of how `fill` ended. -/
def FillVerdict (found : List α → Option β) (limit : Nat) (b : Buffered α ε) :
    Except (Stop ε) β → Prop
  | .ok hit => found b.buffer = some hit
  | .error .full => found b.buffer = none ∧ limit ≤ b.buffer.length
  | .error .ended =>
      found b.buffer = none ∧ b.buffer.length < limit ∧
        b.stream.unread = [] ∧ b.stream.ending = none
  | .error (.failed e) =>
      found b.buffer = none ∧ b.buffer.length < limit ∧
        b.stream.unread = [] ∧ b.stream.ending = some e

/-- Induction principle for `fill`: the loop stops at once, or goes on from a
buffer extended by one non-empty read. -/
theorem fill_induction {motive : Buffered α ε → Except (Stop ε) β × Buffered α ε → Prop}
    (hw : ∀ len, len < limit → 0 < wanted len)
    (hit : ∀ b i, found b.buffer = some i → motive b (.ok i, b))
    (full : ∀ b, found b.buffer = none → limit ≤ b.buffer.length →
      motive b (.error .full, b))
    (ended : ∀ b, found b.buffer = none → b.buffer.length < limit →
      b.stream.unread = [] → motive b (.error b.stream.stop, b))
    (more : ∀ b x xs s result, found b.buffer = none → b.buffer.length < limit →
      b.stream.read (wanted b.buffer.length) = (.ok (x :: xs), s) →
      (x :: xs).length ≤ wanted b.buffer.length →
      motive ⟨s, b.buffer ++ x :: xs⟩ result → motive b result)
    (b : Buffered α ε) : motive b (fill found limit wanted b) := by
  cases hfound : found b.buffer with
  | some i =>
      rw [fill_of_some hfound]
      exact hit b i hfound
  | none =>
      by_cases hlimit : limit ≤ b.buffer.length
      · rw [fill_of_limit hfound hlimit]
        exact full b hfound hlimit
      · rcases b.stream.read_cases (hw b.buffer.length (by omega)) with
          ⟨x, xs, s, hread, hlen⟩ | ⟨hnil, hread⟩
        · have hlt := Source.read_cons_unread_lt hread
          rw [fill_of_read hfound hlimit hread]
          exact more b x xs s _ hfound (by omega) hread hlen
            (fill_induction hw hit full ended more ⟨s, b.buffer ++ x :: xs⟩)
        · rw [fill_of_atEnd hfound hlimit hread]
          exact ended b hfound (by omega) hnil
termination_by b.stream.unread.length

/-- `fill` loses and invents nothing: pending elements and the way the stream
ends stay the same, and the buffer only grows. -/
theorem fill_keeps (found : List α → Option β)
    (hw : ∀ len, len < limit → 0 < wanted len) (b : Buffered α ε) :
    (fill found limit wanted b).2.pending = b.pending ∧
      b.buffer <+: (fill found limit wanted b).2.buffer ∧
      (fill found limit wanted b).2.stream.ending = b.stream.ending := by
  refine fill_induction
    (motive := fun b result => result.2.pending = b.pending ∧
      b.buffer <+: result.2.buffer ∧ result.2.stream.ending = b.stream.ending)
    hw ?_ ?_ ?_ ?_ b
  · exact fun b i _ => ⟨rfl, List.prefix_rfl, rfl⟩
  · exact fun b _ _ => ⟨rfl, List.prefix_rfl, rfl⟩
  · exact fun b _ _ _ => ⟨rfl, List.prefix_rfl, rfl⟩
  -- a read moves elements from the source to the buffer, which is no change of `pending`
  · rintro b x xs s result - - hread - ⟨hpending, hbuffer, hending⟩
    obtain ⟨hunread, hsame⟩ := Source.read_ok hread
    refine ⟨?_, (List.prefix_append _ _).trans hbuffer, hending.trans hsame⟩
    rw [hpending]
    simp only [pending, hunread, List.append_assoc]

/-- Each outcome of `fill` means what it says. -/
theorem fill_verdict (found : List α → Option β)
    (hw : ∀ len, len < limit → 0 < wanted len) (b : Buffered α ε) :
    FillVerdict found limit (fill found limit wanted b).2 (fill found limit wanted b).1 := by
  refine fill_induction
    (motive := fun _ result => FillVerdict found limit result.2 result.1)
    hw ?_ ?_ ?_ ?_ b
  · exact fun b i h => h
  · exact fun b h hlimit => ⟨h, hlimit⟩
  · intro b h hlt hnil
    unfold Source.stop
    cases hend : b.stream.ending with
    | none => exact ⟨h, hlt, hnil, hend⟩
    | some e => exact ⟨h, hlt, hnil, hend⟩
  · exact fun b x xs s result _ _ _ _ hresult => hresult

/-- A successful `fill` reports a hit in the buffer it leaves behind. -/
theorem fill_ok (hw : ∀ len, len < limit → 0 < wanted len) {b b' : Buffered α ε} {hit : β}
    (h : fill found limit wanted b = (.ok hit, b')) :
    found b'.buffer = some hit ∧ b'.pending = b.pending ∧ b.buffer <+: b'.buffer ∧
      b'.stream.ending = b.stream.ending := by
  have hverdict := fill_verdict found hw b
  have hkeeps := fill_keeps found hw b
  rw [h] at hverdict hkeeps
  exact ⟨hverdict, hkeeps⟩

/-- If a left factor of the pending elements already contains a hit and fits
into the limit, `fill` succeeds with that hit, however the stream is cut. -/
theorem fill_finds (found : List α → Option β)
    (hw : ∀ len, len < limit → 0 < wanted len)
    (hstable : ∀ xs ys hit, found xs = some hit → found (xs ++ ys) = some hit)
    {b : Buffered α ε} {front later : List α} {hit : β}
    (hpending : b.pending = front ++ later) (hfront : found front = some hit)
    (hlimit : front.length ≤ limit) :
    ∃ b', fill found limit wanted b = (.ok hit, b') ∧
      b'.pending = b.pending ∧ found b'.buffer = some hit ∧
      b'.stream.ending = b.stream.ending := by
  obtain ⟨hkeep, -, hending⟩ := fill_keeps found hw b
  have hverdict := fill_verdict found hw b
  -- only what `fill` keeps and its verdict are needed, not how it was computed
  generalize fill found limit wanted b = result at hkeep hending hverdict ⊢
  obtain ⟨outcome, b'⟩ := result
  have hwhole : found b.pending = some hit := hpending ▸ hstable _ _ _ hfront
  have hbuffer : b'.buffer <+: b.pending := ⟨b'.stream.unread, hkeep⟩
  -- once the buffer covers `front`, or everything, the search must succeed
  have hcovered : front.length ≤ b'.buffer.length → found b'.buffer ≠ none := by
    intro hlen hnone
    obtain ⟨rest, hrest⟩ := List.prefix_of_prefix_length_le
      (show front <+: b.pending from ⟨later, hpending.symm⟩) hbuffer hlen
    rw [← hrest, hstable _ _ _ hfront] at hnone
    cases hnone
  have hdrained : b'.stream.unread = [] → found b'.buffer ≠ none := by
    intro hnil hnone
    have hall : b'.buffer = b.pending := by
      simpa [pending, hnil] using hkeep
    rw [hall, hwhole] at hnone
    cases hnone
  cases outcome with
  | ok i =>
      obtain ⟨rest, hrest⟩ := hbuffer
      have hi := hstable _ rest _ hverdict
      rw [hrest, hwhole] at hi
      obtain rfl := Option.some.inj hi
      exact ⟨b', rfl, hkeep, hverdict, hending⟩
  | error stop =>
      cases stop with
      | full => exact absurd hverdict.1 (hcovered (hlimit.trans hverdict.2))
      | ended => exact absurd hverdict.1 (hdrained hverdict.2.2.1)
      | failed e => exact absurd hverdict.1 (hdrained hverdict.2.2.1)

/-! ### Limits

A search whose hits are positions inside the list, and reads which never ask
for more than the limit leaves. -/

/-- The buffer never outgrows the limit when no read has more room than is left
of it. -/
theorem fill_length_le (found : List α → Option β)
    (hw : ∀ len, len < limit → 0 < wanted len)
    (hcap : ∀ len, len < limit → len + wanted len ≤ limit) {b : Buffered α ε}
    (hb : b.buffer.length ≤ limit) : (fill found limit wanted b).2.buffer.length ≤ limit := by
  refine fill_induction
    (motive := fun b result => b.buffer.length ≤ limit → result.2.buffer.length ≤ limit)
    hw ?_ ?_ ?_ ?_ b hb
  · exact fun b i _ hb => hb
  · exact fun b _ _ hb => hb
  · exact fun b _ _ _ hb => hb
  · intro b x xs s result _ hlt _ hlen hresult _
    have := hcap _ hlt
    refine hresult ?_
    rw [List.length_append]
    omega

/-- What follows a hit in the buffer was there before the loop, or came with the
last read: a hit which ends inside the buffer before that read would have been
found there. -/
theorem fill_after_hit {found : List α → Option Nat} {width cap : Nat}
    (hleft : ∀ xs ys i, found (xs ++ ys) = some i → i + width ≤ xs.length → found xs = some i)
    (hw : ∀ len, len < limit → 0 < wanted len) (hcap : ∀ len, wanted len ≤ cap)
    {b b' : Buffered α ε} {i : Nat} (h : fill found limit wanted b = (.ok i, b')) :
    b' = b ∨ b'.buffer.length < i + width + cap := by
  suffices hgoal : ∀ i b', fill found limit wanted b = (.ok i, b') →
      found b.buffer = some i ∧ b' = b ∨ b'.buffer.length < i + width + cap from
    (hgoal i b' h).imp_left And.right
  refine fill_induction (motive := fun b result => ∀ i b', result = (.ok i, b') →
    found b.buffer = some i ∧ b' = b ∨ b'.buffer.length < i + width + cap) hw ?_ ?_ ?_ ?_ b
  · rintro b i hfound i' b' heq
    obtain ⟨hi, rfl⟩ := Prod.mk.inj heq
    obtain rfl := Except.ok.inj hi
    exact Or.inl ⟨hfound, rfl⟩
  · rintro b - - i' b' heq
    cases (Prod.mk.inj heq).1
  · rintro b - - - i' b' heq
    cases (Prod.mk.inj heq).1
  · rintro b x xs s result hnone - - hlen ih i b' rfl
    rcases ih i b' rfl with ⟨hfound, rfl⟩ | hbound
    · -- the hit was not there before this read
      have hbeyond : ¬ i + width ≤ b.buffer.length := by
        intro hinside
        rw [hleft _ _ _ hfound hinside] at hnone
        cases hnone
      have := hcap b.buffer.length
      right
      rw [List.length_append]
      omega
    · exact Or.inr hbound

/-- A search for a position: it is inside the list, it is found in the list cut
off there, and it stays when the list grows. -/
structure Locates (found : List α → Option Nat) : Prop where
  take : ∀ xs i, found xs = some i → i ≤ xs.length ∧ found (xs.take i) = some i
  append : ∀ xs ys i, found xs = some i → found (xs ++ ys) = some i

/-- What a capped loop says about the pending elements.  The outcome depends on
them alone. -/
def LocateVerdict (found : List α → Option Nat) (limit : Nat) (pending : List α)
    (ending : Option ε) : Except (Stop ε) Nat → Prop
  | .ok i => found pending = some i ∧ i ≤ limit
  | .error .full => (∀ i, found pending = some i → limit < i) ∧ limit ≤ pending.length
  | .error .ended => found pending = none ∧ pending.length < limit ∧ ending = none
  | .error (.failed e) => found pending = none ∧ pending.length < limit ∧ ending = some e

theorem fill_locate {found : List α → Option Nat} (hfound : Locates found)
    (hw : ∀ len, len < limit → 0 < wanted len)
    (hcap : ∀ len, len < limit → len + wanted len ≤ limit) {b : Buffered α ε}
    (hb : b.buffer.length ≤ limit) :
    LocateVerdict found limit b.pending b.stream.ending (fill found limit wanted b).1 := by
  have hverdict := fill_verdict found hw b
  have hlength := fill_length_le found hw hcap hb
  obtain ⟨hkeep, -, hending⟩ := fill_keeps found hw b
  generalize fill found limit wanted b = result at hverdict hlength hkeep hending ⊢
  obtain ⟨outcome, b'⟩ := result
  dsimp only at hverdict hlength hkeep hending ⊢
  have hbuffer : b.pending = b'.buffer ++ b'.stream.unread := hkeep.symm
  cases outcome with
  | ok i =>
      refine ⟨hbuffer ▸ hfound.append _ _ _ hverdict, ?_⟩
      exact (hfound.take _ _ hverdict).1.trans hlength
  | error stop =>
      cases stop with
      | full =>
          obtain ⟨hnone, hfull⟩ := hverdict
          refine ⟨fun i hi => ?_, ?_⟩
          · -- a hit inside the limit would be a hit in the buffer
            by_contra hle
            have hshort := (hfound.take _ _ hi).2
            rw [hbuffer, List.take_append_of_le_length (by omega)] at hshort
            have := hfound.append _ (b'.buffer.drop i) _ hshort
            rw [List.take_append_drop, hnone] at this
            cases this
          · rw [hbuffer, List.length_append]
            omega
      | ended =>
          obtain ⟨hnone, hlt, hnil, hend⟩ := hverdict
          rw [hbuffer, hnil, List.append_nil]
          exact ⟨hnone, hlt, hending ▸ hend⟩
      | failed e =>
          obtain ⟨hnone, hlt, hnil, hend⟩ := hverdict
          rw [hbuffer, hnil, List.append_nil]
          exact ⟨hnone, hlt, hending ▸ hend⟩

end Buffered

/-! ## Discarding an exact number of elements -/

/-- Read and throw away `remaining` elements, at most `cap` in one read. -/
def Source.skip (cap : Nat) (s : Source α ε) (remaining : Nat) :
    Except (Stop ε) Unit × Source α ε :=
  if remaining = 0 then (.ok (), s)
  else
    match _hread : s.read (min remaining cap) with
    | (.error e, s') => (.error (.failed e), s')
    | (.ok [], s') => (.error .ended, s')
    | (.ok (x :: xs), s') => s'.skip cap (remaining - (x :: xs).length)
termination_by s.unread.length
decreasing_by exact Source.read_cons_unread_lt _hread

theorem Source.skip_zero (cap : Nat) (s : Source α ε) : s.skip cap 0 = (.ok (), s) := by
  rw [skip, if_pos rfl]

theorem Source.skip_of_read {cap : Nat} {s s' : Source α ε} {remaining : Nat} {x : α}
    {xs : List α} (hpos : remaining ≠ 0)
    (hread : s.read (min remaining cap) = (.ok (x :: xs), s')) :
    s.skip cap remaining = s'.skip cap (remaining - (x :: xs).length) := by
  conv_lhs => rw [skip, if_neg hpos]
  split <;> simp_all

theorem Source.skip_of_atEnd {cap : Nat} {s : Source α ε} {remaining : Nat}
    (hpos : remaining ≠ 0) (hread : s.read (min remaining cap) = (s.atEnd, s)) :
    s.skip cap remaining = (.error s.stop, s) := by
  rw [skip, if_neg hpos]
  unfold atEnd at hread
  unfold stop
  cases hend : s.ending with
  | none =>
      rw [hend] at hread
      split <;> simp_all
  | some e =>
      rw [hend] at hread
      split <;> simp_all

/-- `skip` succeeds exactly when enough elements are there, and then removes
exactly that many; otherwise it uses the source up. -/
theorem Source.skip_spec {cap : Nat} (hcap : 0 < cap) (s : Source α ε) (remaining : Nat) :
    (remaining ≤ s.unread.length ∧ ∃ s', s.skip cap remaining = (.ok (), s') ∧
        s'.unread = s.unread.drop remaining ∧ s'.ending = s.ending) ∨
      (s.unread.length < remaining ∧ ∃ s', s.skip cap remaining = (.error s.stop, s') ∧
        s'.unread = [] ∧ s'.ending = s.ending) := by
  by_cases hzero : remaining = 0
  · left
    subst hzero
    exact ⟨Nat.zero_le _, s, skip_zero cap s, rfl, rfl⟩
  · rcases s.read_cases (show 0 < min remaining cap by omega) with
      ⟨x, xs, s₁, hread, hlen⟩ | ⟨hnil, hread⟩
    · have hlt := read_cons_unread_lt hread
      obtain ⟨hunread, hending⟩ := read_ok hread
      have hstop : s₁.stop = s.stop := by
        unfold stop
        rw [hending]
      have hle : (x :: xs).length ≤ remaining := hlen.trans (Nat.min_le_left _ _)
      have hunread' : s.unread.length = (x :: xs).length + s₁.unread.length := by
        rw [hunread, List.length_append]
      rw [skip_of_read hzero hread]
      -- the recursion is on what the source still holds, as in the loop itself
      rcases skip_spec hcap s₁ (remaining - (x :: xs).length) with
        ⟨henough, s', hs', hdrop, hend⟩ | ⟨hshort, s', hs', hdrop, hend⟩
      · left
        refine ⟨by omega, s', hs', ?_, hend.trans hending⟩
        rw [hdrop, hunread, List.drop_append, List.drop_eq_nil_of_le hle, List.nil_append]
      · right
        exact ⟨by omega, s', by rw [hs', hstop], hdrop, hend.trans hending⟩
    · right
      refine ⟨?_, s, skip_of_atEnd hzero hread, hnil, rfl⟩
      rw [hnil, List.length_nil]
      omega
termination_by s.unread.length

namespace Buffered

/-- Consume `remaining` elements, the buffered ones first. -/
def discard (cap : Nat) (b : Buffered α ε) (remaining : Nat) :
    Except (Stop ε) Unit × Buffered α ε :=
  let buffered := min remaining b.buffer.length
  let result := b.stream.skip cap (remaining - buffered)
  (result.1, ⟨result.2, b.buffer.drop buffered⟩)

/-- With enough pending elements, exactly `remaining` of them are consumed. -/
theorem discard_ok {cap : Nat} (hcap : 0 < cap) (b : Buffered α ε) {remaining : Nat}
    (h : remaining ≤ b.pending.length) :
    ∃ b', b.discard cap remaining = (.ok (), b') ∧
      b'.pending = b.pending.drop remaining ∧ b'.stream.ending = b.stream.ending := by
  have hlen := b.length_pending
  rcases Source.skip_spec hcap b.stream (remaining - min remaining b.buffer.length) with
    ⟨-, s', hs', hdrop, hend⟩ | ⟨hshort, -⟩
  · refine ⟨⟨s', b.buffer.drop (min remaining b.buffer.length)⟩, ?_, ?_, hend⟩
    · simp only [discard, hs']
    · simp only [pending, hdrop, List.drop_append]
      by_cases hle : remaining ≤ b.buffer.length
      · rw [Nat.min_eq_left hle, Nat.sub_self, Nat.sub_eq_zero_of_le hle]
      · have hge : b.buffer.length ≤ remaining := by omega
        rw [Nat.min_eq_right hge, List.drop_eq_nil_of_le hge, List.drop_length]
  · omega

/-- With too few pending elements the source is used up and the loop stops. -/
theorem discard_error {cap : Nat} (hcap : 0 < cap) (b : Buffered α ε) {remaining : Nat}
    (h : b.pending.length < remaining) :
    ∃ b', b.discard cap remaining = (.error b.stream.stop, b') ∧ b'.pending = [] := by
  have hlen := b.length_pending
  rcases Source.skip_spec hcap b.stream (remaining - min remaining b.buffer.length) with
    ⟨henough, -⟩ | ⟨-, s', hs', hnil, -⟩
  · omega
  · refine ⟨⟨s', b.buffer.drop (min remaining b.buffer.length)⟩, ?_, ?_⟩
    · simp only [discard, hs']
    · rw [Nat.min_eq_right (by omega)]
      simp [pending, hnil]

/-- Discarding reads nothing that it does not consume. -/
theorem discard_unread_suffix {cap : Nat} (hcap : 0 < cap) {b b' : Buffered α ε}
    {remaining : Nat} {result : Except (Stop ε) Unit}
    (h : b.discard cap remaining = (result, b')) : b'.stream.unread <:+ b.stream.unread := by
  obtain ⟨-, rfl⟩ := Prod.mk.inj h
  rcases Source.skip_spec hcap b.stream (remaining - min remaining b.buffer.length) with
    ⟨-, s', hs', hdrop, -⟩ | ⟨-, s', hs', hnil, -⟩
  · simp only [hs', hdrop]
    exact List.drop_suffix _ _
  · simp only [hs', hnil]
    exact List.nil_suffix

end Buffered

/-! ## One element at a time -/

/-- The source which delivers every element in a read of its own. -/
def Source.trickle (xs : List α) (ending : Option ε) : Source α ε :=
  ⟨xs.map fun x => ⟨[x], List.cons_ne_nil x []⟩, ending⟩

@[simp] theorem Source.unread_trickle (xs : List α) (ending : Option ε) :
    (Source.trickle xs ending).unread = xs := by
  induction xs with
  | nil => rfl
  | cons x rest ih =>
      simp only [Source.trickle, Source.unread, List.map_cons, List.flatten_cons] at ih ⊢
      rw [ih]
      rfl

theorem Source.read_trickle (x : α) (xs : List α) (ending : Option ε) {wanted : Nat}
    (hw : 0 < wanted) :
    (Source.trickle (x :: xs) ending).read wanted = (.ok [x], Source.trickle xs ending) := by
  have hone : ([x] : List α).length ≤ wanted := by
    rw [List.length_singleton]
    omega
  simp only [Source.trickle, Source.read, List.map_cons, if_neg (Nat.pos_iff_ne_zero.mp hw),
    dif_pos hone]

/-- Skipping takes single elements, and none beyond the requested number. -/
theorem Source.skip_trickle {cap : Nat} (hcap : 0 < cap) (xs rest : List α)
    (ending : Option ε) :
    (Source.trickle (xs ++ rest) ending).skip cap xs.length =
      (.ok (), Source.trickle rest ending) := by
  induction xs with
  | nil => exact Source.skip_zero cap _
  | cons x xs ih =>
      have hroom : 0 < min (x :: xs).length cap := by
        rw [List.length_cons]
        omega
      have hread := Source.read_trickle x (xs ++ rest) ending hroom
      rw [List.cons_append, Source.skip_of_read (by simp) hread]
      exact ih

namespace Buffered

variable {found : List α → Option β} {limit : Nat} {wanted : Nat → Nat}

theorem fill_trickle_cons (hw : ∀ len, len < limit → 0 < wanted len) {front : List α}
    (hfront : found front = none) (hroom : front.length < limit) (x : α) (xs : List α)
    (ending : Option ε) :
    fill found limit wanted ⟨Source.trickle (x :: xs) ending, front⟩ =
      fill found limit wanted ⟨Source.trickle xs ending, front ++ [x]⟩ :=
  fill_of_read hfront (Nat.not_le.mpr hroom) (Source.read_trickle x xs ending (hw _ hroom))

/-- On single elements the loop stops at the first hit and reads nothing
beyond it. -/
theorem fill_trickle_ok (hw : ∀ len, len < limit → 0 < wanted len) {hit : β}
    {front rest later : List α} {ending : Option ε}
    (hnone : ∀ m < rest.length, found (front ++ rest.take m) = none)
    (hhit : found (front ++ rest) = some hit) (hlimit : front.length + rest.length ≤ limit) :
    fill found limit wanted ⟨Source.trickle (rest ++ later) ending, front⟩ =
      (.ok hit, ⟨Source.trickle later ending, front ++ rest⟩) := by
  induction rest generalizing front with
  | nil =>
      rw [List.append_nil] at hhit ⊢
      exact fill_of_some hhit
  | cons x rest ih =>
      rw [List.length_cons] at hlimit
      have hfront : found front = none := by
        simpa using hnone 0 (Nat.succ_pos _)
      have hnext : front ++ x :: rest = (front ++ [x]) ++ rest := by simp
      rw [List.cons_append, fill_trickle_cons hw hfront (by omega), hnext]
      refine ih ?_ (hnext ▸ hhit) (by rw [List.length_append, List.length_singleton]; omega)
      intro m hm
      have := hnone (m + 1) (Nat.succ_lt_succ hm)
      simpa using this

/-- On single elements the loop gives up exactly at the limit. -/
theorem fill_trickle_full (hw : ∀ len, len < limit → 0 < wanted len)
    {front rest later : List α} {ending : Option ε}
    (hnone : ∀ m ≤ rest.length, found (front ++ rest.take m) = none)
    (hlimit : limit ≤ front.length + rest.length) :
    ∃ b, fill found limit wanted ⟨Source.trickle (rest ++ later) ending, front⟩ =
      (.error .full, b) := by
  induction rest generalizing front with
  | nil =>
      have hfront : found front = none := by simpa using hnone 0 (Nat.le_refl _)
      exact ⟨_, fill_of_limit hfront (by simpa using hlimit)⟩
  | cons x rest ih =>
      have hfront : found front = none := by simpa using hnone 0 (Nat.zero_le _)
      by_cases hroom : limit ≤ front.length
      · exact ⟨_, fill_of_limit hfront hroom⟩
      · rw [List.cons_append, fill_trickle_cons hw hfront (by omega)]
        refine ih ?_ ?_
        · intro m hm
          have := hnone (m + 1) (Nat.succ_le_succ hm)
          simpa using this
        · rw [List.length_cons] at hlimit
          rw [List.length_append, List.length_singleton]
          omega

end Buffered

end StreamKit
