import FrontEnd.Proofs.Words

/-!
# Flat programs

A flat program is made up of names, binary operators and semicolons alone. `FlatProgram.tree` is the
tree of such a program by a description of its own: a chain of operators is cut at all operators
but `*`, `/` and `**`, each piece nests to the right, and the pieces are joined to the left.

A flat program may be written with any spaces between its words, as `Spaced` says; the scanner finds
the words one by one.
-/

namespace FrontEnd

/-! ## Words -/

/-- The words of flat programs. -/
inductive FlatWord where
  | name (n : PlainName)
  | op (o : BinaryOp)
  | semicolon

namespace FlatWord

/-- How a word is written. -/
def text : FlatWord → List Char
  | name n => n.text.toList
  | op o => o.symbol.toList
  | semicolon => [';']

/-- The token of a word at a place. -/
def token (span : Span) : FlatWord → Token
  | name n => ⟨.identifier, .text n.text, span, n.text⟩
  | op o => ⟨o.kind, .none, span, o.symbol⟩
  | semicolon => ⟨.semicolon, .none, span, ";"⟩

end FlatWord

/-- Words with spaces between them. There may be none beside a semicolon. -/
inductive Spaced : List FlatWord → List Char → Prop where
  | nil : Spaced [] []
  | cons {w ws text} (n : Nat) (hgap : w = .semicolon ∨ Neutral text) (h : Spaced ws text) :
    Spaced (w :: ws) (List.replicate n ' ' ++ w.text ++ text)

lemma Spaced.space {w : FlatWord} {ws : List FlatWord} {text : List Char}
    (h : Spaced (w :: ws) text) : Spaced (w :: ws) (' ' :: text) := by
  cases h with
  | cons n hgap h => exact .cons (n + 1) hgap h

lemma spaced_intercalate (ws : List FlatWord) :
    Spaced ws ([' '].intercalate (ws.map FlatWord.text)) := by
  induction ws with
  | nil => exact .nil
  | cons w ws ih =>
    cases ws with
    | nil =>
      have hspaced := Spaced.cons (w := w) 0 (.inr fun c hc => by cases hc) .nil
      simpa [List.intercalate] using hspaced
    | cons v ws =>
      -- The space belongs to the word behind it.
      have hneutral : Neutral (' ' :: [' '].intercalate ((v :: ws).map FlatWord.text)) := by
        intro c hc
        obtain rfl := Option.some_inj.mp hc
        decide
      have hspaced := Spaced.cons (w := w) 0 (.inr hneutral) ih.space
      simpa [List.intercalate] using hspaced

/-! ## Chains and programs -/

/-- Whether an operator stays within a piece of a chain. -/
def BinaryOp.isTight : BinaryOp → Bool
  | .mul | .div | .pow => true
  | _ => false

/-- A chain of operators between names. -/
structure Chain where
  first : PlainName
  rest : List (BinaryOp × PlainName)

/-- A tree without places. -/
abbrev bare (form : Form Expr) : Expr := ⟨form, Span.zero⟩

namespace Chain

/-- The words of operators with names behind them. -/
def opWords (pairs : List (BinaryOp × PlainName)) : List FlatWord :=
  pairs.flatMap fun (o, a) => [.op o, .name a]

/-- The words of a chain. -/
def words (c : Chain) : List FlatWord :=
  .name c.first :: opWords c.rest

/-- The tree of a name. -/
def leaf (a : PlainName) : Expr :=
  bare (.identifier ⟨a.text, Span.zero⟩)

/-- The tree of a chain whose operators nest to the right. -/
def nestRight (a : PlainName) : List (BinaryOp × PlainName) → Expr
  | [] => leaf a
  | (o, b) :: rest => bare (.binary o (leaf a) (nestRight b rest))

/-- A chain cut at its loose operators: the first piece, and the others with the operators in front
of them. -/
def cut (a : PlainName) : List (BinaryOp × PlainName) → Chain × List (BinaryOp × Chain)
  | [] => (⟨a, []⟩, [])
  | (o, b) :: rest =>
    let (piece, others) := cut b rest
    if o.isTight then (⟨a, (o, b) :: piece.rest⟩, others) else (⟨a, []⟩, (o, piece) :: others)

/-- The tree of the pieces of a chain behind a tree that is made of those before. -/
def joinLeft (left : Expr) (others : List (BinaryOp × Chain)) : Expr :=
  others.foldl (fun left (o, c) => bare (.binary o left (nestRight c.first c.rest))) left

/-- The tree of a chain. -/
def tree (c : Chain) : Expr :=
  let (piece, others) := cut c.first c.rest
  joinLeft (nestRight piece.first piece.rest) others

end Chain

/-- Chains with semicolons between them, and possibly one at the end. -/
structure FlatProgram where
  first : Chain
  more : List Chain
  closed : Bool

namespace FlatProgram

/-- The words of a flat program. -/
def words (p : FlatProgram) : List FlatWord :=
  p.first.words ++ ((p.more.flatMap fun c => .semicolon :: c.words) ++
    if p.closed then [.semicolon] else [])

/-- A flat program with single spaces between its words. -/
def text (p : FlatProgram) : String :=
  " ".intercalate (p.words.map fun w => String.ofList w.text)

/-- The tree of chains of statements. -/
def treeFrom (closed : Bool) (c : Chain) : List Chain → Expr
  | [] => if closed then bare (.statement c.tree none) else c.tree
  | d :: more => bare (.statement c.tree (some (treeFrom closed d more)))

/-- The tree of a flat program. -/
def tree (p : FlatProgram) : Expr :=
  treeFrom p.closed p.first p.more

end FlatProgram

lemma FlatProgram.spaced_text (p : FlatProgram) : Spaced p.words p.text.toList := by
  have hspaced := spaced_intercalate p.words
  rw [FlatProgram.text, String.toList_intercalate, List.map_map]
  simpa [Function.comp_def] using hspaced

/-! ## Finding the words -/

/-- A word of a flat program as a word of a source. -/
def FlatWord.word : FlatWord → Word
  | name n => .name n.text
  | op o => .op o
  | semicolon => .mark .semicolon

lemma FlatWord.text_word (w : FlatWord) : w.word.text = w.text := by
  cases w <;> rfl

lemma FlatWord.token_word (w : FlatWord) (span : Span) : w.word.token span = w.token span := by
  cases w <;> rfl

lemma FlatWord.fits_word {w : FlatWord} {tail : List Char} (h : w = .semicolon ∨ Neutral tail) :
    w.word.Fits tail := by
  cases w with
  | name n => exact ⟨⟨n, rfl⟩, (h.resolve_left (by simp)).nameEnd⟩
  | op o => exact h.resolve_left (by simp)
  | semicolon => trivial

lemma Spaced.laid {ws : List FlatWord} {text : List Char} (h : Spaced ws text) :
    ∃ n text', text = List.replicate n ' ' ++ text' ∧ Laid (ws.map FlatWord.word) text' := by
  induction h with
  | nil => exact ⟨0, [], rfl, .nil⟩
  | @cons w ws text n hgap h ih =>
    obtain ⟨m, text', rfl, hlaid⟩ := ih
    refine ⟨n, w.text ++ List.replicate m ' ' ++ text', by simp only [List.append_assoc], ?_⟩
    rw [← w.text_word]
    exact .cons m (FlatWord.fits_word hgap) hlaid

namespace Scan

/-- A run whose tokens are those of words. -/
abbrev Reads (ws : List FlatWord) (run : List Lexed) : Prop :=
  List.Forall₂ (fun w x => ∃ span, x.token = FlatWord.token span w) ws run

lemma whole_of_spaced {ws : List FlatWord} {text : List Char} (h : Spaced ws text) (depth : Nat) :
    ∃ run ds, Whole (embeddedReader .standard depth) (.ofText text) run ds ∧ Reads ws run := by
  obtain ⟨n, text', rfl, hlaid⟩ := h.laid
  obtain ⟨run, ds, hwhole, hfitting⟩ := whole_of_laid hlaid n depth
  rw [Fitting, List.forall₂_map_left_iff, List.forall₂_map_right_iff] at hfitting
  simp only [FlatWord.token_word] at hfitting
  exact ⟨run, ds, hwhole, hfitting⟩

end Scan

end FrontEnd
