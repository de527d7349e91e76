import FrontEnd.Text.Bytes

/-!
# Positions

A position is a place in a source text: a byte offset, and the line and column a reader would
count, both from one. `Position.advance` is the only rule by which positions move, and
`Position.after` repeats it over a text. Lines and columns are words of 32 bits: a count that does
not fit into one starts again from zero.
-/

namespace FrontEnd

/-- A word of 32 bits as the number it stands for. -/
instance coeWordNat : CoeOut UInt32 Nat := ⟨UInt32.toNat⟩

/-- A number as a word of 32 bits, which keeps it up to multiples of `UInt32.size`. -/
instance coeNatWord : CoeTail Nat UInt32 := ⟨UInt32.ofNat⟩

/-- A place in a source text. Columns count characters. -/
structure Position where
  offset : Nat
  line : UInt32
  column : UInt32
  deriving DecidableEq, Repr, Ord

namespace Position

/-- The place of the first character of a source. -/
def start : Position := ⟨0, 1, 1⟩

instance : Inhabited Position := ⟨start⟩

/-- The place right after the character `c`. A newline starts the next line. -/
def advance (p : Position) (c : Char) : Position :=
  if c = '\n' then ⟨p.offset + c.utf8Size, p.line + 1, 1⟩
  else ⟨p.offset + c.utf8Size, p.line, p.column + 1⟩

/-- The place right after the text `cs`. -/
def after (p : Position) (cs : List Char) : Position :=
  cs.foldl advance p

@[simp] theorem advance_offset (p : Position) (c : Char) :
    (p.advance c).offset = p.offset + c.utf8Size := by
  unfold advance
  split <;> rfl

@[simp] theorem after_nil (p : Position) : p.after [] = p := rfl

@[simp] theorem after_cons (p : Position) (c : Char) (cs : List Char) :
    p.after (c :: cs) = (p.advance c).after cs := rfl

theorem after_append (p : Position) (xs ys : List Char) :
    p.after (xs ++ ys) = (p.after xs).after ys := by
  simp [after]

theorem after_concat (p : Position) (cs : List Char) (c : Char) :
    p.after (cs ++ [c]) = (p.after cs).advance c := by
  simp [after]

theorem after_offset (p : Position) (cs : List Char) :
    (p.after cs).offset = p.offset + Text.byteSize cs := by
  induction cs generalizing p with
  | nil => simp
  | cons c cs ih => simp [ih, Nat.add_assoc]

/-- A position as `line:column@offset`. -/
def text (p : Position) : String :=
  s!"{p.line}:{p.column}@{p.offset}"

end Position

end FrontEnd
