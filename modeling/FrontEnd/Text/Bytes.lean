/-!
# Texts measured in bytes

A text is a list of characters, and its width is the number of bytes of its UTF-8 form.
`splitBytes?` cuts a text after a number of bytes and refuses a cut that falls inside a character
or past the end; `slice` reads the piece between two byte offsets with it.
-/

namespace FrontEnd.Text

/-- The number of bytes a text occupies in UTF-8. -/
def byteSize : List Char → Nat
  | [] => 0
  | c :: cs => c.utf8Size + byteSize cs

@[simp] theorem byteSize_nil : byteSize [] = 0 := rfl

@[simp] theorem byteSize_cons (c : Char) (cs : List Char) :
    byteSize (c :: cs) = c.utf8Size + byteSize cs := rfl

@[simp] theorem byteSize_append (xs ys : List Char) :
    byteSize (xs ++ ys) = byteSize xs + byteSize ys := by
  induction xs with
  | nil => simp
  | cons c cs ih => simp [ih, Nat.add_assoc]

/-- The first `n` bytes of a text and what follows them, if the cut falls between characters. -/
def splitBytes? (n : Nat) : List Char → Option (List Char × List Char)
  | [] => if n = 0 then some ([], []) else none
  | c :: cs =>
    if n = 0 then some ([], c :: cs)
    else if c.utf8Size ≤ n then
      (splitBytes? (n - c.utf8Size) cs).map fun (before, after) => (c :: before, after)
    else none

/-- Cutting after the bytes of `xs` gives back `xs` and what was appended to it. -/
@[simp] theorem splitBytes?_append (xs ys : List Char) :
    splitBytes? (byteSize xs) (xs ++ ys) = some (xs, ys) := by
  induction xs with
  | nil => cases ys <;> simp [splitBytes?]
  | cons c cs ih =>
    have hc := c.utf8Size_pos
    have hne : ¬ c.utf8Size + byteSize cs = 0 := by omega
    have hsub : c.utf8Size + byteSize cs - c.utf8Size = byteSize cs := by omega
    simp only [List.cons_append, byteSize_cons, splitBytes?, hne, if_false, Nat.le_add_right,
      if_true, hsub, ih, Option.map_some]

/-- The text between byte `start` and byte `stop`; empty if that is no range of whole characters. -/
def slice (text : List Char) (start stop : Nat) : List Char :=
  match splitBytes? start text with
  | none => []
  | some (_, rest) =>
    match splitBytes? (stop - start) rest with
    | none => []
    | some (piece, _) => piece

end FrontEnd.Text
