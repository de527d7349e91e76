import FrontEnd.Proofs.Similar
import Mathlib.Data.List.Induction

/-!
# Moving a text within a source

A text that stands somewhere inside a source is read at other positions than on its own. Its first
line goes on from the column at which the text begins; on later lines only offset and line number
differ. A `Relocation` is a pair of views under which the two readings look alike.
-/

namespace FrontEnd

/-- The first line of a text, without the newline behind it. -/
def Source.firstLine (text : List Char) : List Char :=
  text.takeWhile (· ≠ '\n')

/-- The place in a source that corresponds to a place in a text which begins at `base`. -/
def Position.shift (base : Position) (text : List Char) (p : Position) : Position where
  offset := base.offset + p.offset
  line := base.line + p.line - 1
  column :=
    if p.offset ≤ Text.byteSize (Source.firstLine text) then base.column + p.column - 1
    else p.column

/-- The range in a source that corresponds to a range of a text which begins at `base`. -/
def Span.translate (base : Position) (text : List Char) (s : Span) : Span :=
  let start := base.shift text s.start
  ⟨start.offset, s.len, start.line, start.column⟩

lemma Source.byteSize_le_firstLine {pre text : List Char} (h : pre <+: text) :
    Text.byteSize pre ≤ Text.byteSize (firstLine text) ↔ '\n' ∉ pre := by
  obtain ⟨z, rfl⟩ := h
  unfold firstLine
  constructor
  · intro hle hmem
    -- The first line ends inside of the beginning, in front of a newline of it.
    obtain ⟨front, back, rfl⟩ := List.append_of_mem hmem
    have hfront : (front ++ '\n' :: (back ++ z)).takeWhile (· ≠ '\n') <+: front := by
      rw [List.takeWhile_append]
      split
      · simp
      · exact List.takeWhile_prefix _
    obtain ⟨more, hmore⟩ := hfront
    have hsize := congrArg Text.byteSize hmore
    have hnewline : '\n'.utf8Size = 1 := rfl
    rw [Text.byteSize_append] at hsize
    rw [List.append_assoc, List.cons_append, Text.byteSize_append, Text.byteSize_cons] at hle
    omega
  · intro hnone
    have hall : ∀ c ∈ pre, decide (c ≠ '\n') = true := by
      intro c hc
      exact decide_eq_true fun heq => hnone (heq ▸ hc)
    rw [List.takeWhile_append_of_pos hall, Text.byteSize_append]
    exact Nat.le_add_right _ _

namespace Position

/-- The corresponding place, if it is known whether the first line is left. -/
def moved (base p : Position) (left : Prop) [Decidable left] : Position where
  offset := base.offset + p.offset
  line := base.line + p.line - 1
  column := if left then p.column else base.column + p.column - 1

lemma moved_advance (base p : Position) (left : Prop) [Decidable left] (c : Char) :
    base.moved (p.advance c) (left ∨ c = '\n') = (base.moved p left).advance c := by
  have hsucc (m n : UInt32) : m + (n + 1) - 1 = m + n - 1 + 1 := by grind
  unfold advance moved
  by_cases hc : c = '\n'
  · simp [hc, hsucc, Nat.add_assoc]
  · by_cases hleft : left
    · simp [hc, hleft, Nat.add_assoc]
    · simp [hc, hleft, hsucc, Nat.add_assoc]

lemma shift_after (base : Position) {pre text : List Char} (h : pre <+: text) :
    base.shift text (start.after pre) = base.after pre := by
  have hshift : base.shift text (start.after pre) = base.moved (start.after pre) ('\n' ∈ pre) := by
    have hoffset : (start.after pre).offset = Text.byteSize pre :=
      (after_offset _ _).trans (Nat.zero_add _)
    rw [shift, moved, hoffset, if_congr (Source.byteSize_le_firstLine h) rfl rfl, ite_not]
  rw [hshift]
  clear hshift h
  induction pre using List.reverseRecOn with
  | nil => simp [moved, start]
  | append_singleton pre c ih =>
    rw [after_concat, after_concat, ← ih, ← moved_advance]
    simp [moved, eq_comm]

end Position

namespace Span

variable {base : Position}

@[simp] lemma start_translate (base : Position) (text : List Char) (s : Span) :
    (translate base text s).start = base.shift text s.start := rfl

@[simp] lemma stop_translate (base : Position) (text : List Char) (s : Span) :
    (translate base text s).stop = base.offset + s.stop :=
  Nat.add_assoc _ _ _

lemma translate_new (base : Position) (text : List Char) (p : Position) (stop : Nat) :
    translate base text (new p stop) = new (base.shift text p) (base.offset + stop) := by
  have hlen : stop - p.offset = base.offset + stop - (base.offset + p.offset) :=
    (Nat.add_sub_add_left _ _ _).symm
  simp only [translate, new, start, Position.shift, hlen]

lemma translate_merge (base : Position) (text : List Char) (s t : Span) :
    translate base text (s.merge t) = (translate base text s).merge (translate base text t) := by
  have hle : (translate base text s).offset ≤ (translate base text t).offset ↔
      s.offset ≤ t.offset := Nat.add_le_add_iff_left
  rw [merge, merge, translate_new, stop_translate, stop_translate, Nat.add_max_add_left]
  by_cases h : s.offset ≤ t.offset
  · rw [if_pos h, if_pos (hle.mpr h), start_translate]
  · rw [if_neg h, if_neg (mt hle.mp h), start_translate]

end Span

/-- Two views on the readings of a text at two places, and when their positions correspond in front
of what is left of the text. -/
structure Relocation extends View where
  place : List Char → Position → Position → Prop
  place_advance : ∀ {c : Char} {z : List Char} {p q : Position}, place (c :: z) p q →
    place z (p.advance c) (q.advance c)
  span_new : ∀ {z : List Char} {p q : Position} (n : Nat), place z p q →
    left (Span.new p (p.offset + n)) = right (Span.new q (q.offset + n))

namespace Relocation

/-- Two positions correspond, in front of whatever of the text. -/
def Faces (ρ : Relocation) (p q : Position) : Prop :=
  ∃ z, ρ.place z p q

/-- The text on the left stands in a source, from `base` on, and the one on the right on its
own. -/
def outward (base : Position) (text : List Char) : Relocation where
  left := id
  right := Span.translate base text
  merge hs ht := by
    rw [id_eq] at hs ht
    rw [id_eq, Span.translate_merge, hs, ht]
  place z p q := ∃ pre, text = pre ++ z ∧ p = base.after pre ∧ q = Position.start.after pre
  place_advance {c z p q} h := by
    obtain ⟨pre, rfl, rfl, rfl⟩ := h
    refine ⟨pre ++ [c], by simp, ?_, ?_⟩
    · exact (Position.after_concat _ _ _).symm
    · exact (Position.after_concat _ _ _).symm
  span_new n h := by
    obtain ⟨pre, rfl, rfl, rfl⟩ := h
    rw [Span.translate_new, Position.shift_after _ (List.prefix_append _ _), id_eq,
      Position.after_offset, Position.after_offset, Position.start, Nat.zero_add, Nat.add_assoc]

/-- The two readings in the other order. -/
def flip (ρ : Relocation) : Relocation where
  left := ρ.right
  right := ρ.left
  merge hs ht := (ρ.merge hs.symm ht.symm).symm
  place z p q := ρ.place z q p
  place_advance h := ρ.place_advance h
  span_new n h := (ρ.span_new n h).symm

variable {ρ : Relocation} {p q : Position} {z : List Char}

lemma place_after {text : List Char} (h : ρ.place (text ++ z) p q) :
    ρ.place z (p.after text) (q.after text) := by
  induction text generalizing p q with
  | nil => exact h
  | cons c cs ih => exact ih (ρ.place_advance h)

lemma Faces.span_new (h : ρ.Faces p q) (n : Nat) :
    ρ.Rel (Span.new p (p.offset + n)) (Span.new q (q.offset + n)) := by
  obtain ⟨z, h⟩ := h
  exact ρ.span_new n h

lemma outward_place (base : Position) (text : List Char) :
    (outward base text).place text base Position.start :=
  ⟨[], rfl, rfl, rfl⟩

end Relocation

end FrontEnd
