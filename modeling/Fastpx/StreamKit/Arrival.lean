import Fastpx.StreamKit.Pipe

/-!
# Streams which grow

A `Source` holds a whole stream.  If only a part of it has arrived, the rest is
put behind it by `Source.extend`.  A read of something that has arrived does not
depend on the rest (`Source.read_extend`).
-/

namespace StreamKit

variable {α ε : Type*}

namespace Source

/-- The source with more segments behind its own, and another end. -/
def extend (s : Source α ε) (more : List (Segment α)) (ending : Option ε) : Source α ε :=
  ⟨s.segments ++ more, ending⟩

theorem extend_self (s : Source α ε) : s.extend [] s.ending = s := by
  rw [extend, List.append_nil]

theorem unread_extend (s : Source α ε) (more : List (Segment α)) (ending : Option ε) :
    (s.extend more ending).unread = s.unread ++ (more.map Subtype.val).flatten := by
  simp [extend, unread]

/-- Without anything to deliver there are no segments, because none is empty. -/
theorem segments_eq_nil {s : Source α ε} (h : s.unread = []) : s.segments = [] := by
  cases hsegments : s.segments with
  | nil => rfl
  | cons burst rest =>
      simp only [unread, hsegments, List.map_cons, List.flatten_cons, List.append_eq_nil_iff] at h
      exact absurd h.1 burst.property

/-- A read of a segment does not depend on what comes behind it. -/
theorem read_extend {s : Source α ε} (h : s.segments ≠ []) (more : List (Segment α))
    (ending : Option ε) (wanted : Nat) :
    (s.extend more ending).read wanted =
      ((s.read wanted).1, (s.read wanted).2.extend more ending) := by
  obtain ⟨burst, rest, hsegments⟩ := List.exists_cons_of_ne_nil h
  unfold read
  simp only [extend, hsegments, List.cons_append]
  split
  · simp [hsegments]
  · split <;> rfl

/-- How a stream ends is not changed by a read. -/
theorem read_ending (s : Source α ε) (wanted : Nat) : (s.read wanted).2.ending = s.ending := by
  unfold read
  split
  · rfl
  · split
    · rfl
    · split <;> rfl

end Source

namespace Pipe

/-- The pipe with another source. -/
def mapSource (f : Source α ε → Source α ε) (p : Pipe α ε) : Pipe α ε :=
  { p with source := f p.source }

@[simp] theorem mapSource_source (f : Source α ε → Source α ε) (p : Pipe α ε) :
    (p.mapSource f).source = f p.source := rfl

end Pipe

end StreamKit
