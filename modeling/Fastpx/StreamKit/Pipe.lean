import Fastpx.StreamKit.Source

/-!
# Pipes

A pipe copies a source to a sink through a buffer.  Its state is what the
source still holds, what was read and not yet written, and what the sink
accepted.  Put together in the order `sink`, `pending`, `unread` these are the
elements the pipe carries, and neither a read nor a partial write changes that
list.  So at every moment the sink holds a left factor of what the source held
at the start, and all of it once nothing is pending and nothing unread.
-/

namespace StreamKit

variable {α ε : Type*}

/-- A copy in progress. -/
structure Pipe (α ε : Type*) where
  source : Source α ε
  pending : List α
  sink : List α
  deriving DecidableEq

namespace Pipe

/-- Everything that went or will go through the pipe, in order. -/
def carried (p : Pipe α ε) : List α :=
  p.sink ++ (p.pending ++ p.source.unread)

/-- The sink accepts `n` elements of what is pending. -/
def push (p : Pipe α ε) (n : Nat) : Pipe α ε :=
  { p with pending := p.pending.drop n, sink := p.sink ++ p.pending.take n }

@[simp] theorem push_source (p : Pipe α ε) (n : Nat) : (p.push n).source = p.source := rfl

@[simp] theorem push_pending (p : Pipe α ε) (n : Nat) :
    (p.push n).pending = p.pending.drop n := rfl

/-- A partial write moves elements, it does not change them. -/
@[simp] theorem carried_push (p : Pipe α ε) (n : Nat) : (p.push n).carried = p.carried := by
  simp only [carried, push, List.append_assoc]
  rw [← List.append_assoc (p.pending.take n), List.take_append_drop]

/-- The elements already accepted or still buffered keep their number. -/
theorem push_length (p : Pipe α ε) (n : Nat) :
    (p.push n).sink.length + (p.push n).pending.length = p.sink.length + p.pending.length := by
  simp only [push, List.length_append, List.length_take, List.length_drop]
  omega

/-- Reading into an empty buffer does not change what is carried. -/
theorem carried_read {p : Pipe α ε} {wanted : Nat} {xs : List α} {source : Source α ε}
    (hempty : p.pending = []) (h : p.source.read wanted = (.ok xs, source)) :
    ({ p with source := source, pending := xs } : Pipe α ε).carried = p.carried := by
  simp only [carried, hempty, List.nil_append, (Source.read_ok h).1]

/-- The sink holds a left factor of what is carried. -/
theorem sink_isPrefix (p : Pipe α ε) : p.sink <+: p.carried := ⟨_, rfl⟩

/-- A drained pipe has delivered everything. -/
theorem sink_eq_carried {p : Pipe α ε} (hpending : p.pending = [])
    (hunread : p.source.unread = []) : p.sink = p.carried := by
  simp [carried, hpending, hunread]

end Pipe

end StreamKit
