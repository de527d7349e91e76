import FrontEnd.Position

/-!
# Spans

A span is a range of bytes of the source, anchored at the line and column of its first character.
-/

namespace FrontEnd

/-- A range of a source text: `len` bytes from `offset` on. -/
structure Span where
  offset : Nat
  len : Nat
  line : UInt32
  column : UInt32
  deriving DecidableEq, Repr

namespace Span

/-- The range from `start` up to, but not including, the byte `stop`. It is empty if `stop` lies
before `start`. -/
def new (start : Position) (stop : Nat) : Span :=
  ⟨start.offset, stop - start.offset, start.line, start.column⟩

/-- The empty range at a position. -/
def emptyAt (p : Position) : Span :=
  new p p.offset

/-- The empty range at the start of a source. -/
def dummy : Span := ⟨0, 0, 1, 1⟩

/-- The all-zero range, which lies on no line. -/
def zero : Span := ⟨0, 0, 0, 0⟩

instance : Inhabited Span := ⟨zero⟩

/-- Where a range starts. -/
def start (s : Span) : Position :=
  ⟨s.offset, s.line, s.column⟩

/-- The offset one past the last byte of a range. -/
def stop (s : Span) : Nat :=
  s.offset + s.len

/-- Whether a range covers no byte. -/
def isEmpty (s : Span) : Bool :=
  s.len == 0

/-- The smallest range that covers both. It is anchored at the one that starts first. -/
def merge (s t : Span) : Span :=
  new (if s.offset ≤ t.offset then s.start else t.start) (max s.stop t.stop)

/-- A span as `line:column@offset..stop`. -/
def text (s : Span) : String :=
  s!"{s.line}:{s.column}@{s.offset}..{s.stop}"

/-- The text of a source that a range covers; empty if that is no range of whole characters. -/
def slice (s : Span) (source : List Char) : List Char :=
  Text.slice source s.offset s.stop

@[simp] theorem start_new (p : Position) (stop : Nat) : (new p stop).start = p := rfl

theorem stop_new {p : Position} {stop : Nat} (h : p.offset ≤ stop) : (new p stop).stop = stop := by
  simp only [Span.stop, new]
  omega

@[simp] theorem start_emptyAt (p : Position) : (emptyAt p).start = p := rfl

@[simp] theorem stop_emptyAt (p : Position) : (emptyAt p).stop = p.offset := by
  simp [emptyAt, stop_new]

theorem stop_merge (s t : Span) : (s.merge t).stop = max s.stop t.stop := by
  unfold merge
  split
  · exact stop_new (by simp only [start, stop]; omega)
  · exact stop_new (by simp only [start, stop]; omega)

end Span

end FrontEnd
