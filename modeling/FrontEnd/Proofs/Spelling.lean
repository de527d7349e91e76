import FrontEnd.Proofs.Lexemes
import Mathlib.Data.List.Chain

/-!
# How tokens are spelled

An operator is written as the symbol of its kind, and only symbols are operators. The parts of a
template string alternate: none of its texts is empty, and between two texts there is an expression.
-/

namespace FrontEnd

/-! ## Classes of tokens -/

lemma TokenKind.wordClass?_of_isOperator {kind : TokenKind} (h : kind.isOperator = true) :
    kind.wordClass? = some .symbol := by
  cases kind <;> first | rfl | cases h

namespace Scan

variable {α : Type}

/-- A reader of tokens of a class, or of none. -/
class OfClass (cls : Option WordClass) (m : Scan Token) : Prop where
  wordClass?_eq : ∀ {r t r'}, m r = .ok t r' → t.kind.wordClass? = cls

namespace OfClass

variable {cls : Option WordClass}

instance (m : Scan α) (f : α → Scan Token) [∀ a, OfClass cls (f a)] : OfClass cls (m >>= f) where
  wordClass?_eq h := by
    obtain ⟨a, r₁, -, hf⟩ := bind_eq_ok h
    exact wordClass?_eq hf

lemma andThen {m : Scan α} {f : α → Scan Token} (h : ∀ a, OfClass cls (f a)) :
    OfClass cls (m >>= f) :=
  inferInstance

instance (d : Diagnostic) : OfClass cls (throw d) where
  wordClass?_eq h := by cases h

instance (c : Prop) [Decidable c] (m n : Scan Token) [OfClass cls m] [OfClass cls n] :
    OfClass cls (if c then m else n) := by
  split <;> infer_instance

lemma tokenFrom {start : Cursor} {kind : TokenKind} {value : TokenValue}
    (h : kind.wordClass? = cls) : OfClass cls (tokenFrom start kind value) where
  wordClass?_eq hrun := by
    rw [tokenFrom_apply] at hrun
    cases hrun
    exact h

lemma stringLiteral : OfClass none stringLiteral :=
  andThen fun _ => andThen fun _ => andThen fun _ => tokenFrom rfl

lemma templateLiteral (embedded : Option (Scan Expr)) : OfClass none (templateLiteral embedded) :=
  andThen fun _ => andThen fun _ => andThen fun _ => tokenFrom rfl

lemma charLiteral : OfClass none charLiteral := by
  refine andThen fun _ => andThen fun _ => andThen fun _ => andThen fun here => ?_
  split
  · exact andThen fun _ => tokenFrom rfl
  · infer_instance

lemma label : OfClass (some .label) label := by
  refine andThen fun _ => andThen fun _ => andThen fun name => ?_
  split
  · split
    · exact tokenFrom rfl
    · infer_instance
  · infer_instance

lemma classifyWord_wordClass? (text : String) :
    (classifyWord text).1.wordClass? = some .word := by
  unfold classifyWord
  split
  · rfl
  split
  · rfl
  split
  · next kind hkind =>
    unfold TokenKind.keyword? at hkind
    split at hkind <;> cases hkind <;> rfl
  · rfl

lemma word : OfClass (some .word) word := by
  refine andThen fun _ => andThen fun name => andThen fun here => ?_
  split
  · exact andThen fun _ => tokenFrom rfl
  · exact tokenFrom (classifyWord_wordClass? _)

lemma decimalNumber (start : Cursor) : OfClass (some .number) (decimalNumber start) :=
  andThen fun _ => andThen fun _ => tokenFrom rfl

lemma radixNumber (start : Cursor) (radix : Radix) :
    OfClass (some .number) (radixNumber start radix) := by
  have hdigits : OfClass (some .number) (radixDigits start radix) := by
    refine andThen fun whole => andThen fun fraction => ?_
    split
    · infer_instance
    · exact tokenFrom rfl
  refine andThen fun _ => andThen fun here => ?_
  split
  · infer_instance
  · infer_instance

lemma number : OfClass (some .number) number := by
  refine andThen fun start => ?_
  have hdecimal := decimalNumber start
  split
  · split
    · exact radixNumber start _
    · infer_instance
  · exact hdecimal

lemma longestSymbol_wordClass? {kind : TokenKind} {text rest : List Char}
    (h : kind.wordClass? = some .symbol) :
    (longestSymbol kind text rest).1.wordClass? = some .symbol := by
  fun_induction longestSymbol kind text rest with
  | case1 => exact h
  | case2 kind text c rest longer hlonger ih =>
    exact ih (Makes.symbol?_eq_some hlonger).wordClass?_eq
  | case3 => exact h

lemma symbol (first : Char) : OfClass (some .symbol) (symbol first) := by
  refine andThen fun start => ?_
  split
  · infer_instance
  · next kind hkind =>
    exact andThen fun _ =>
      tokenFrom (longestSymbol_wordClass? (Makes.symbol?_eq_some hkind).wordClass?_eq)

lemma rawToken : OfClass none rawToken := by
  refine andThen fun start => ?_
  split
  · exact tokenFrom rfl
  · exact andThen fun _ => tokenFrom rfl

end OfClass

/-! ## Operators -/

lemma longestSymbol_spells {kind : TokenKind} {text : List Char} (rest : List Char)
    (h : TokenKind.symbol? text = some kind) :
    ∃ n ≤ rest.length, (longestSymbol kind text rest).2 = text.length + n ∧
      TokenKind.symbol? (text ++ rest.take n) = some (longestSymbol kind text rest).1 := by
  fun_induction longestSymbol kind text rest with
  | case1 => exact ⟨0, Nat.le_refl _, rfl, by simpa using h⟩
  | case2 kind text c rest longer hlonger ih =>
    obtain ⟨n, hn, hlength, hspells⟩ := ih hlonger
    refine ⟨n + 1, Nat.succ_le_succ hn, ?_, ?_⟩
    · rw [hlength, List.length_append, List.length_singleton]
      omega
    · simpa using hspells
  | case3 => exact ⟨0, Nat.zero_le _, rfl, by simpa using h⟩

/-- Where an action makes an operator, it is written as the symbol of its kind. -/
def Writes (r : Reader) (m : Scan Token) : Prop :=
  ∀ t r', m r = .ok t r' → t.kind.isOperator = true → TokenKind.symbol? t.text.toList = some t.kind

lemma OfClass.writes {cls : Option WordClass} {m : Scan Token} {r : Reader} (h : OfClass cls m)
    (hcls : cls ≠ some .symbol) : Writes r m := by
  intro t r' hrun hoperator
  exact absurd ((h.wordClass?_eq hrun).symm.trans (TokenKind.wordClass?_of_isOperator hoperator))
    hcls

lemma writes_symbol {first : Char} {rest : List Char} {r : Reader}
    (hrest : r.cursor.rest = first :: rest) : Writes r (symbol first) := by
  intro t r' h _
  rw [symbol, cursor_bind] at h
  cases hkind : TokenKind.symbol? [first] with
  | none => rw [hkind] at h; cases h
  | some kind =>
    rw [hkind, hrest] at h
    obtain ⟨n, hn, hlength, hspells⟩ := longestSymbol_spells rest hkind
    obtain ⟨_, r₁, hskip, hmade⟩ := bind_eq_ok h
    rw [skip_apply] at hskip
    cases hskip
    rw [tokenFrom_apply] at hmade
    cases hmade
    change TokenKind.symbol? (String.ofList _).toList = _
    rw [String.toList_ofList, (r.cursor.passes_drop _).textTo, hrest, List.drop_one,
      List.tail_cons, hlength, List.length_singleton, Nat.add_comm, List.take_succ_cons]
    exact hspells

lemma Writes.of_cursor {f : Cursor → Scan Token} {r : Reader} (h : Writes r (f r.cursor)) :
    Writes r (cursor >>= f) := by
  intro t r' hrun
  rw [cursor_bind] at hrun
  exact h t r' hrun

lemma writes_tokenHere (embedded : Option (Scan Expr)) (r : Reader) :
    Writes r (tokenHere embedded) := by
  unfold tokenHere
  refine .of_cursor ?_
  split
  · exact (OfClass.tokenFrom rfl).writes nofun
  · exact OfClass.stringLiteral.writes nofun
  · exact (OfClass.templateLiteral embedded).writes nofun
  · exact OfClass.charLiteral.writes nofun
  · exact OfClass.label.writes nofun
  · split
    · exact OfClass.number.writes nofun
    · exact writes_symbol ‹_›
  · split
    · exact OfClass.number.writes nofun
    split
    · exact OfClass.word.writes nofun
    · exact writes_symbol ‹_›

end Scan

/-! ## Template strings -/

/-- Whether a part of a template is a text. -/
def TemplatePart.isText {ε : Type} : TemplatePart ε → Bool
  | text _ => true
  | embedded _ => false

/-- The parts of a template: its texts are not empty, and no text follows another. -/
structure Alternating {ε : Type} (parts : List (TemplatePart ε)) : Prop where
  filled : TemplatePart.text "" ∉ parts
  apart : parts.IsChain fun p q => ¬ (p.isText = true ∧ q.isText = true)

namespace Scan.Piece

variable {before : List Char} {after : List (TemplatePart Expr)}

variable (before) in
lemma alternating_flush (h : Alternating after) (hhead : ∀ p ∈ after.head?, p.isText = false) :
    Alternating (flush (before, after)) := by
  cases before with
  | nil => exact h
  | cons c before =>
    change Alternating (.text (String.ofList (c :: before)) :: after)
    refine ⟨fun hmem => ?_, ?_⟩
    · rcases List.mem_cons.mp hmem with heq | hmem
      · have htext := congrArg String.toList (TemplatePart.text.inj heq)
        rw [String.toList_ofList, String.toList_ofList] at htext
        cases htext
      · exact h.filled hmem
    · cases after with
      | nil => exact .singleton _
      | cons p after =>
        refine .cons_cons (fun htexts => ?_) h.apart
        rw [hhead p rfl] at htexts
        cases htexts.2

lemma alternating_parts (pieces : List Piece) : Alternating (parts pieces) := by
  have hjoined : Alternating (pieces.foldr join ([], [])).2 ∧
      ∀ p ∈ (pieces.foldr join ([], [])).2.head?, p.isText = false := by
    induction pieces with
    | nil => exact ⟨⟨List.not_mem_nil, .nil⟩, fun p hp => by cases hp⟩
    | cons piece pieces ih =>
      cases piece with
      | text content => exact ih
      | embedded e =>
        obtain ⟨hfilled, hapart⟩ := alternating_flush (pieces.foldr join ([], [])).1 ih.1 ih.2
        refine ⟨⟨fun hmem => ?_, ?_⟩, fun p hp => ?_⟩
        · rcases List.mem_cons.mp hmem with heq | hmem
          · cases heq
          · exact hfilled hmem
        · refine List.isChain_cons.mpr ⟨fun q hq htexts => ?_, hapart⟩
          cases htexts.1
        · cases hp
          rfl
  exact alternating_flush _ hjoined.1 hjoined.2

end Scan.Piece

lemma Scan.tokenHere_alternating {embedded : Option (Scan Expr)} {r r' : Reader} {t : Token}
    {parts : List (TemplatePart Expr)} (h : tokenHere embedded r = .ok t r')
    (hvalue : t.value = .template parts) : Alternating parts := by
  have hsuits := tokenHere_suits h
  rw [hvalue] at hsuits
  obtain ⟨-, hliteral⟩ := tokenHere_template h hsuits
  rw [templateLiteral, cursor_bind, bind_apply, skip_apply] at hliteral
  obtain ⟨pieces, r₁, -, hmade⟩ := bind_eq_ok hliteral
  rw [tokenFrom_apply] at hmade
  cases hmade
  cases hvalue
  exact Piece.alternating_parts pieces

end FrontEnd
