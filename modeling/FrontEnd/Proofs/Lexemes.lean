import FrontEnd.Proofs.Passage
import FrontEnd.Proofs.Steady

/-!
# Tokens cover the text they are read from

A reader of tokens that succeeds has moved over a text that is not empty. The token is written as
that text, and its span is the range of it: `Token.Covers`. At the end of the source, and only
there, the token for the end is given, and nothing is read.
-/

namespace FrontEnd

/-- A token is written as the text between two cursors, at its place. -/
structure Token.Covers (t : Token) (c : Cursor) (text : List Char) (c' : Cursor) : Prop where
  passes : c.Passes text c'
  ne_nil : text ≠ []
  span_eq : t.span = Span.new c.pos c'.pos.offset
  lexeme_eq : t.lexeme = String.ofList text
  inside : t.isEnd = false

/-- A kind of token that neither stands for the end of the source nor is a template string. -/
abbrev TokenKind.Ordinary : TokenKind → Prop
  | .endOfInput | .templateStringLiteral => False
  | _ => True

/-- A kind of token that stands for nothing but itself. -/
abbrev TokenKind.Plain : TokenKind → Prop
  | .numberLiteral | .booleanLiteral | .charLiteral | .stringLiteral | .templateStringLiteral
  | .identifier | .label | .macroTag => False
  | _ => True

/-- A kind of token that stands for a text. -/
abbrev TokenKind.Textual : TokenKind → Prop
  | .stringLiteral | .identifier | .label | .macroTag => True
  | _ => False

/-- Tokens of a kind may have a value. -/
abbrev TokenKind.Suits (kind : TokenKind) : TokenValue → Prop
  | .none => kind.Plain
  | .number _ => kind = .numberLiteral
  | .bool _ => kind = .booleanLiteral
  | .char _ => kind = .charLiteral
  | .text _ => kind.Textual
  | .template _ => kind = .templateStringLiteral

/-- Characters that go on with no token and begin no comment. -/
abbrev separators : List Char := ['}', '\n', ' ', ';']

/-- The classes of tokens whose texts are not in quotes. -/
inductive WordClass where
  | number
  | word
  | label
  | symbol
  deriving DecidableEq, Repr

/-- The class that the tokens of a kind belong to. Literals in quotes are in none, nor are the end
of the source and single characters. -/
def TokenKind.wordClass? : TokenKind → Option WordClass
  | .numberLiteral => some .number
  | .identifier | .booleanLiteral | .macroTag => some .word
  | .label => some .label
  | .stringLiteral | .templateStringLiteral | .charLiteral | .raw | .endOfInput => none
  | kind => if kind.isKeyword then some .word else some .symbol

namespace Scan

variable {α β : Type}

/-- A token that begins at a cursor is not the end of the source, and its value suits its kind.
Template strings begin with a backtick. -/
structure Fits (start : Cursor) (t : Token) : Prop where
  inside : t.isEnd = false
  suits : t.kind.Suits t.value
  backtick : t.kind = .templateStringLiteral → start.peek? = some '\x60'

/-- A rest of a reader of tokens that begin at `start`. -/
class Completes (start : Cursor) (m : Scan Token) : Prop where
  made : ∀ {r t r'}, m r = .ok t r' →
    t.span = r'.cursor.spanFrom start.pos ∧ t.lexeme = String.ofList (start.textTo r'.cursor) ∧
      Fits start t

namespace Completes

variable {start : Cursor}

instance (m : Scan α) (f : α → Scan Token) [∀ a, Completes start (f a)] :
    Completes start (m >>= f) where
  made h := by
    obtain ⟨a, r₁, -, hf⟩ := bind_eq_ok h
    exact made hf

lemma andThen {m : Scan α} {f : α → Scan Token} (h : ∀ a, Completes start (f a)) :
    Completes start (m >>= f) :=
  inferInstance

instance (d : Diagnostic) : Completes start (throw d) where
  made h := by cases h

instance (c : Prop) [Decidable c] (m n : Scan Token) [Completes start m] [Completes start n] :
    Completes start (if c then m else n) := by
  split <;> infer_instance

lemma tokenFrom {kind : TokenKind} {value : TokenValue} (h : kind.Ordinary)
    (hsuits : kind.Suits value) : Completes start (tokenFrom start kind value) where
  made heq := by
    rw [tokenFrom_apply] at heq
    cases heq
    refine ⟨rfl, rfl, ?_, hsuits, fun hkind => ?_⟩
    · cases kind <;> first | rfl | exact h.elim
    · dsimp only at hkind
      subst hkind
      exact h.elim

instance (kind : TokenKind) : Fact (kind = kind) := ⟨rfl⟩

instance (kind : TokenKind) (value : TokenValue) [h : Fact kind.Ordinary]
    [hsuits : Fact (kind.Suits value)] : Completes start (Scan.tokenFrom start kind value) :=
  tokenFrom h.out hsuits.out

end Completes

/-! ## Readers of tokens -/

/-- The action for the expressions in template strings moves forward, if there is one. -/
abbrev ForwardWithin (embedded : Option (Scan Expr)) : Prop :=
  ∀ read, embedded = some read → Forward read

section Parts

instance (start content : Position) : Forward (charEscape start content) := by
  unfold charEscape
  refine Forward.andThen fun escaped => ?_
  have hmeaning : Forward (match unescapeChar? escaped with
      | some meaning => pure meaning
      | none => do throw (invalidEscape ((← cursor).spanFrom content) escaped)) := by
    split <;> infer_instance
  infer_instance

instance (start : Position) : Forward (charContent start) := by
  unfold charContent
  infer_instance

instance : Forward charLiteral := by
  unfold charLiteral
  infer_instance

instance (start : Position) : Forward (escapedDollar start) := by
  unfold escapedDollar
  infer_instance

lemma forward_escaped (start : Position) (escaped : Char) :
    Forward (if escaped = '$' then escapedDollar start
      else
        match unescape? escaped with
        | some meaning => pure meaning
        | none => do throw (invalidEscape ((← cursor).spanFrom start) escaped)) := by
  split
  · infer_instance
  · split <;> infer_instance

instance : Forward templateEscape := by
  unfold templateEscape
  exact .andThen fun _ => .andThen fun _ => .andThen fun _ => forward_escaped _ _

instance : Forward decimalFraction := by
  unfold decimalFraction
  exact Forward.andThen fun here => by split <;> infer_instance

instance (start : Cursor) : Forward (decimalNumber start) := by
  unfold decimalNumber
  infer_instance

instance (radix : Radix) : Forward (radixFraction radix) := by
  unfold radixFraction
  infer_instance

instance (start : Cursor) (radix : Radix) : Forward (radixDigits start radix) := by
  unfold radixDigits
  infer_instance

instance (start : Cursor) (radix : Radix) : Forward (radixNumber start radix) := by
  unfold radixNumber
  exact Forward.andThen fun _ => Forward.andThen fun here => by split <;> infer_instance

instance : Forward number := by
  unfold number
  refine Forward.andThen fun start => ?_
  split
  · split <;> infer_instance
  · infer_instance

instance : Forward label := by
  unfold label
  exact Forward.andThen fun start => Forward.andThen fun _ => Forward.andThen fun name => by
    split <;> infer_instance

instance : Forward word := by
  unfold word
  infer_instance

instance (first : Char) : Forward (symbol first) := by
  unfold symbol
  exact Forward.andThen fun start => by split <;> infer_instance

end Parts

section Templates

variable {embedded : Option (Scan Expr)} (h : ForwardWithin embedded)
include h

lemma forward_embeddedExpression : Forward (embeddedExpression embedded) := by
  unfold embeddedExpression
  refine Forward.andThen fun opened => ?_
  cases embedded with
  | none => infer_instance
  | some read =>
    have hread : Forward read := h read rfl
    infer_instance

lemma forward_templatePiece? (opened : Position) :
    Forward (templatePiece? embedded opened) := by
  have hembedded := forward_embeddedExpression h
  unfold templatePiece?
  exact Forward.andThen fun here => by split <;> infer_instance

lemma forward_templatePieces (opened : Position) (fuel : Nat) (pieces : List Piece) :
    Forward (templatePieces embedded opened fuel pieces) := by
  induction fuel generalizing pieces with
  | zero =>
    unfold templatePieces
    infer_instance
  | succ fuel ih =>
    have hpiece := forward_templatePiece? h opened
    unfold templatePieces
    refine Forward.andThen fun piece => ?_
    cases piece with
    | none => infer_instance
    | some piece => exact ih (piece :: pieces)

lemma forward_templateLiteral : Forward (templateLiteral embedded) := by
  have hpieces := forward_templatePieces h
  unfold templateLiteral
  infer_instance

lemma forward_tokenHere : Forward (tokenHere embedded) := by
  have htemplate := forward_templateLiteral h
  unfold tokenHere
  exact Forward.andThen fun here => by split <;> infer_instance

lemma forward_tokens (fuel : Nat) : Forward (tokens embedded fuel) := by
  have htoken := forward_tokenHere h
  induction fuel with
  | zero =>
    unfold tokens
    infer_instance
  | succ fuel ih =>
    unfold tokens token
    infer_instance

end Templates

/-! ## What tokens cover -/

lemma cursor_bind (f : Cursor → Scan α) (r : Reader) : (cursor >>= f) r = f r.cursor r := by
  rw [bind_apply, cursor_apply]

lemma advance_cons {r : Reader} {c : Char} {rest : List Char} (h : r.cursor.rest = c :: rest) :
    advance r = .ok c { r with cursor := r.cursor.drop 1 } := by
  rw [advance, cursor_bind, h]
  rfl

/-- A reader of a token that begins where a reader stands. -/
class Makes (r : Reader) (m : Scan Token) : Prop where
  made : ∀ {t r'}, m r = .ok t r' →
    t.span = r'.cursor.spanFrom r.cursor.pos ∧
      t.lexeme = String.ofList (r.cursor.textTo r'.cursor) ∧ Fits r.cursor t

/-- The kind of a bracket. -/
def bracket? : Char → Option TokenKind
  | '(' => some .leftParen
  | ')' => some .rightParen
  | '[' => some .leftBracket
  | ']' => some .rightBracket
  | '{' => some .leftBrace
  | '}' => some .rightBrace
  | _ => none

lemma bracket?_brace : bracket? '}' = some .rightBrace := rfl

namespace Makes

variable {r : Reader}

lemma of_cursor {f : Cursor → Scan Token} (h : Makes r (f r.cursor)) :
    Makes r (cursor >>= f) where
  made heq := by
    rw [cursor_bind] at heq
    exact h.made heq

lemma of_completes {f : Cursor → Scan Token} (h : ∀ start, Completes start (f start)) :
    Makes r (cursor >>= f) :=
  of_cursor ⟨(h r.cursor).made⟩

instance : Makes r stringLiteral := by
  unfold stringLiteral
  exact of_completes fun start => inferInstance

instance : Makes r charLiteral := by
  unfold charLiteral
  exact of_completes fun start => inferInstance

lemma templateLiteral (embedded : Option (Scan Expr)) (h : r.cursor.peek? = some '\x60') :
    Makes r (templateLiteral embedded) := by
  have hcompletes (parts : List (TemplatePart Expr)) :
      Completes r.cursor (Scan.tokenFrom r.cursor .templateStringLiteral (.template parts)) :=
    ⟨fun heq => by
      rw [tokenFrom_apply] at heq
      cases heq
      exact ⟨rfl, rfl, rfl, rfl, fun _ => h⟩⟩
  unfold Scan.templateLiteral
  exact of_cursor ⟨(inferInstance : Completes r.cursor _).made⟩

instance : Makes r label := by
  unfold label
  refine of_completes fun start => .andThen fun _ => .andThen fun name => ?_
  split <;> infer_instance

instance (start : Cursor) : Completes start (decimalNumber start) := by
  unfold decimalNumber
  infer_instance

instance (start : Cursor) (radix : Radix) : Completes start (radixDigits start radix) := by
  unfold radixDigits
  infer_instance

instance (start : Cursor) (radix : Radix) : Completes start (radixNumber start radix) := by
  unfold radixNumber
  exact .andThen fun _ => .andThen fun here => by split <;> infer_instance

instance : Makes r number := by
  unfold number
  refine of_completes fun start => ?_
  split
  · split <;> infer_instance
  · infer_instance

lemma keyword?_eq_some {text : String} {kind : TokenKind}
    (h : TokenKind.keyword? text = some kind) : kind.Ordinary ∧ kind.Plain := by
  unfold TokenKind.keyword? at h
  split at h <;> cases h <;> exact ⟨trivial, trivial⟩

lemma classifyWord_fits (text : String) :
    (classifyWord text).1.Ordinary ∧ (classifyWord text).1.Suits (classifyWord text).2 := by
  unfold classifyWord
  split
  · exact ⟨trivial, rfl⟩
  split
  · exact ⟨trivial, rfl⟩
  split
  · next kind hkind => exact keyword?_eq_some hkind
  · exact ⟨trivial, trivial⟩

instance : Makes r word := by
  unfold word
  refine of_completes fun start => .andThen fun name => .andThen fun here => ?_
  have hplain : Completes start (tokenFrom start (classifyWord (String.ofList name)).1
      (classifyWord (String.ofList name)).2) :=
    have hfits := classifyWord_fits (String.ofList name)
    .tokenFrom hfits.1 hfits.2
  split
  · infer_instance
  · exact hplain

/-- What an entry of the table of symbols is like. -/
structure Entry (text : List Char) (kind : TokenKind) : Prop where
  fits : kind.Ordinary ∧ kind.Plain
  wordClass?_eq : kind.wordClass? = some .symbol
  short : text.length ≤ 2
  /-- The first character of a symbol is one. -/
  head : ∀ c ∈ text.head?, (TokenKind.symbol? [c]).isSome = true
  /-- No symbol but the brace itself ends in a separator, and none but a bracket begins with a
  bracket. -/
  ends : text.length = 1 ∨ (∀ c ∈ text.getLast?, c ∉ separators) ∧
    text.head?.bind bracket? = none

lemma symbol?_eq_some {text : List Char} {kind : TokenKind}
    (h : TokenKind.symbol? text = some kind) : Entry text kind := by
  unfold TokenKind.symbol? at h
  split at h <;> cases h <;>
    refine ⟨⟨trivial, trivial⟩, rfl, by decide, by rintro c ⟨⟩; rfl, ?_⟩ <;>
    first | exact .inl rfl | exact .inr ⟨by rintro c ⟨⟩; decide, rfl⟩

lemma longestSymbol_fits {kind : TokenKind} {text rest : List Char}
    (h : kind.Ordinary ∧ kind.Plain) :
    (longestSymbol kind text rest).1.Ordinary ∧ (longestSymbol kind text rest).1.Plain := by
  fun_induction longestSymbol kind text rest with
  | case1 => exact h
  | case2 kind text c rest longer hlonger ih =>
    exact ih (symbol?_eq_some hlonger).fits
  | case3 => exact h

instance (first : Char) : Makes r (symbol first) := by
  unfold symbol
  refine of_completes fun start => ?_
  split
  · infer_instance
  · next kind hkind =>
    have hfits := @longestSymbol_fits kind [first] (start.rest.drop 1) (symbol?_eq_some hkind).fits
    exact .andThen fun _ => .tokenFrom hfits.1 hfits.2

lemma tokenHere (embedded : Option (Scan Expr)) (hrest : r.cursor.rest ≠ []) :
    Makes r (tokenHere embedded) := by
  unfold Scan.tokenHere
  refine of_cursor ?_
  split
  · next hnil => exact absurd hnil hrest
  · infer_instance
  · next heq => exact templateLiteral embedded (by rw [Cursor.peek?, heq]; rfl)
  · infer_instance
  · infer_instance
  · split <;> infer_instance
  · split
    · infer_instance
    split <;> infer_instance

end Makes

/-! ## Readers by the next characters -/

section Ahead

variable {embedded : Option (Scan Expr)} {r : Reader}

/-- The reader of the next piece of a template string, by the next two characters. -/
def pieceAt (embedded : Option (Scan Expr)) (c : Char) (ahead : Option Char) :
    Scan (Option Piece) :=
  if c = '\x60' then do
    skip 1
    return none
  else if c = '\\' then return some (.text (← templateEscape))
  else if c = '$' ∧ ahead = some '{' then do
    skip 2
    return some (.embedded (← embeddedExpression embedded))
  else do
    skip 1
    return some (.text [c])

lemma templatePiece?_of_cons {c : Char} {tail : List Char} (opened : Position)
    (hrest : r.cursor.rest = c :: tail) :
    templatePiece? embedded opened r = pieceAt embedded c tail.head? r := by
  rw [templatePiece?, cursor_bind, hrest]
  refine congrFun ?_ r
  unfold pieceAt
  split
  · next heq => cases heq
  · next heq => cases heq; rfl
  · next heq => cases heq; rfl
  · next heq => cases heq; rfl
  · next c' tail' hquote hslash hdollar heq =>
    cases heq
    rw [if_neg hquote, if_neg hslash, if_neg]
    rintro ⟨rfl, hhead⟩
    obtain ⟨rest, rfl⟩ := List.head?_eq_some_iff.mp hhead
    exact hdollar rest rfl rfl

/-- The reader of a token, by the next two characters. -/
def tokenAt (embedded : Option (Scan Expr)) (c : Char) (ahead : Option Char) : Scan Token :=
  if c = '"' then stringLiteral
  else if c = '\x60' then templateLiteral embedded
  else if c = '\'' then charLiteral
  else if c = '#' then label
  else if c.isDigit ∨ c = '.' ∧ ahead.any Char.isDigit then number
  else if Text.isNameStart c then word
  else symbol c

lemma tokenHere_of_cons {c : Char} {tail : List Char} (hrest : r.cursor.rest = c :: tail) :
    tokenHere embedded r = tokenAt embedded c tail.head? r := by
  rw [tokenHere, cursor_bind, hrest]
  refine congrFun ?_ r
  unfold tokenAt
  split
  · next heq => cases heq
  · next heq => cases heq; rfl
  · next heq => cases heq; rfl
  · next heq => cases heq; rfl
  · next heq => cases heq; rfl
  · next d tail' heq =>
    cases heq
    have hstart : ¬ Text.isNameStart '.' = true := by decide
    cases hd : d.isDigit <;> simp [hd, hstart] <;> rfl
  · next c' tail' hstring htemplate hchar hlabel hpoint heq =>
    cases heq
    rw [if_neg hstring, if_neg htemplate, if_neg hchar, if_neg hlabel]
    have hahead : ¬ (c = '.' ∧ tail.head?.any Char.isDigit = true) := by
      rintro ⟨rfl, hany⟩
      cases tail with
      | nil => cases hany
      | cons d tail => exact hpoint d tail rfl rfl
    simp only [hahead, or_false]
    rfl

end Ahead

/-! ## Tokens are not empty -/

/-- An action that leaves less to read whenever it succeeds. -/
def Shortens (r : Reader) (m : Scan α) : Prop :=
  ∀ a r', m r = .ok a r' → r'.cursor.rest.length < r.cursor.rest.length

namespace Shortens

variable {r : Reader}

lemma of_cursor {f : Cursor → Scan α} (h : Shortens r (f r.cursor)) :
    Shortens r (cursor >>= f) := by
  intro a r' heq
  exact h a r' ((cursor_bind f r).symm.trans heq)

lemma throw (d : Diagnostic) : Shortens r (throw d : Scan α) := by
  intro a r' heq
  cases heq

lemma length_le_of_skip {n : Nat} {f : Unit → Scan α} (hf : Forward (f ())) {a : α} {r' : Reader}
    (h : (skip n >>= f) r = .ok a r') : r'.cursor.rest.length ≤ r.cursor.rest.length - n := by
  rw [bind_apply, skip_apply] at h
  have hle := (hf.leads h).length_le
  rwa [Cursor.drop, List.length_drop] at hle

lemma skip_cases {n : Nat} {f : Unit → Scan α} (hf : Forward (f ())) (hn : 0 < n)
    (hrest : r.cursor.rest ≠ []) : Shortens r (skip n >>= f) := by
  intro a r' heq
  have hle := length_le_of_skip hf heq
  have hpos := List.length_pos_iff.mpr hrest
  omega

lemma skip {n : Nat} {f : Unit → Scan α} [hf : Forward (f ())] (hn : 0 < n)
    (hrest : r.cursor.rest ≠ []) : Shortens r (skip n >>= f) :=
  skip_cases hf hn hrest

lemma takeWhile {p : Char → Bool} {f : List Char → Scan α} {c : Char} {rest : List Char}
    [∀ cs, Forward (f cs)] (hc : p c = true) (hrest : r.cursor.rest = c :: rest) :
    Shortens r (takeWhile p >>= f) := by
  intro a r' heq
  rw [bind_apply, takeWhile_apply] at heq
  have hle := (Forward.leads heq).length_le
  simp only [Cursor.takeWhile, hrest, List.dropWhile_cons_of_pos hc] at hle
  have hdrop := (List.dropWhile_suffix p (l := rest)).length_le
  rw [hrest, List.length_cons]
  omega

/-- A digit, or a point that a digit follows. -/
def StartsNumber : List Char → Prop
  | '.' :: c :: _ => c.isDigit = true
  | c :: _ => c.isDigit = true
  | [] => False

lemma decimalFraction {c : Char} {rest : List Char} (hrest : r.cursor.rest = '.' :: c :: rest)
    (hc : c.isDigit = true) : Shortens r decimalFraction := by
  unfold Scan.decimalFraction
  refine of_cursor ?_
  rw [hrest]
  simp only [hc, if_true]
  exact skip Nat.one_pos (by simp [hrest])

lemma decimalNumber {start : Cursor} (h : StartsNumber r.cursor.rest) :
    Shortens r (decimalNumber start) := by
  unfold StartsNumber at h
  split at h
  · next c rest hrest =>
    -- The whole part is empty, and the fraction is not.
    intro t r' heq
    have hwhole : Scan.takeWhile Char.isDigit r = .ok [] r := by
      rw [takeWhile_apply, Cursor.takeWhile, hrest]
      obtain ⟨⟨_, pos⟩, journal⟩ := r
      cases hrest
      rfl
    rw [Scan.decimalNumber, bind_apply, hwhole] at heq
    obtain ⟨fraction, r₁, hfraction, hmade⟩ := bind_eq_ok heq
    have hle := (Forward.leads hmade).length_le
    have hlt := decimalFraction hrest h _ _ hfraction
    omega
  · next c rest _ hrest => exact takeWhile h hrest
  · exact h.elim

lemma radixNumber {start : Cursor} {radix : Radix} (hrest : r.cursor.rest ≠ []) :
    Shortens r (radixNumber start radix) := by
  unfold Scan.radixNumber
  exact skip_cases (.andThen fun here => by split <;> infer_instance) Nat.two_pos hrest

lemma number (h : StartsNumber r.cursor.rest) : Shortens r number := by
  have hrest : r.cursor.rest ≠ [] := fun hnil => by rw [hnil] at h; exact h
  unfold Scan.number
  refine of_cursor ?_
  split
  · split
    · exact radixNumber hrest
    · split
      · intro t r' heq
        rw [bind_apply] at heq
        exact decimalNumber (r := r.record _) h _ _ heq
      · exact decimalNumber h
  · exact decimalNumber h

lemma isNameChar_of_isNameStart {c : Char} (h : Text.isNameStart c = true) :
    Text.isNameChar c = true := by
  simp only [Text.isNameStart, Text.isNameChar, Char.isAlphanum, Bool.or_eq_true] at h ⊢
  exact h.imp_left Or.inl

lemma word {c : Char} {rest : List Char} (hrest : r.cursor.rest = c :: rest)
    (hc : Text.isNameStart c = true) : Shortens r word := by
  unfold Scan.word
  exact of_cursor (takeWhile (isNameChar_of_isNameStart hc) hrest)

lemma length_le_longestSymbol (kind : TokenKind) (text rest : List Char) :
    text.length ≤ (longestSymbol kind text rest).2 := by
  fun_induction longestSymbol kind text rest with
  | case1 => exact Nat.le_refl _
  | case2 kind text c rest longer hlonger ih =>
    rw [List.length_append] at ih
    exact Nat.le_trans (Nat.le_add_right _ _) ih
  | case3 => exact Nat.le_refl _

lemma symbol {first : Char} (hrest : r.cursor.rest ≠ []) : Shortens r (symbol first) := by
  unfold Scan.symbol
  refine of_cursor ?_
  split
  · exact throw _
  · next kind hkind =>
    have hlength := length_le_longestSymbol kind [first] (r.cursor.rest.drop 1)
    exact skip (Nat.lt_of_lt_of_le Nat.one_pos hlength) hrest

lemma stringLiteral (hrest : r.cursor.rest ≠ []) : Shortens r stringLiteral := by
  have hbody : Forward (walk fun c => stringBody r.cursor.pos c.rest c.pos []) :=
    Forward.walk stringBody_leads
  unfold Scan.stringLiteral
  exact of_cursor (skip Nat.one_pos hrest)

lemma label (hrest : r.cursor.rest ≠ []) : Shortens r label := by
  unfold Scan.label
  exact of_cursor (skip_cases (.andThen fun name => by split <;> infer_instance) Nat.one_pos hrest)

lemma before {m : Scan α} {f : α → Scan β} [∀ a, Forward (f a)] (h : Shortens r m) :
    Shortens r (m >>= f) := by
  intro b r' heq
  obtain ⟨a, r₁, hm, hf⟩ := bind_eq_ok heq
  exact Nat.lt_of_le_of_lt (Forward.leads hf).length_le (h a r₁ hm)

lemma templateEscape (hrest : r.cursor.rest ≠ []) : Shortens r templateEscape := by
  unfold Scan.templateEscape
  exact of_cursor (skip_cases (.andThen fun _ => forward_escaped _ _) Nat.one_pos hrest)

lemma templatePiece? {embedded : Option (Scan Expr)} (hembedded : ForwardWithin embedded)
    {opened : Position} (hrest : r.cursor.rest ≠ []) :
    Shortens r (templatePiece? embedded opened) := by
  have hexpression := forward_embeddedExpression hembedded
  unfold Scan.templatePiece?
  refine of_cursor ?_
  split
  · next hnil => exact absurd hnil hrest
  · exact skip Nat.one_pos hrest
  · exact before (templateEscape hrest)
  · exact skip Nat.two_pos hrest
  · exact skip Nat.one_pos hrest

/-- A token that begins before the end of the source is not empty. -/
lemma tokenHere {embedded : Option (Scan Expr)} (hembedded : ForwardWithin embedded)
    (hrest : r.cursor.rest ≠ []) : Shortens r (tokenHere embedded) := by
  have hpieces := forward_templatePieces hembedded
  unfold Scan.tokenHere
  refine of_cursor ?_
  split
  · next hnil => exact absurd hnil hrest
  · exact stringLiteral hrest
  · unfold templateLiteral
    exact of_cursor (skip Nat.one_pos hrest)
  · unfold charLiteral
    exact of_cursor (skip Nat.one_pos hrest)
  · exact label hrest
  · next c rest heq =>
    split
    · next hc => exact number (by rw [heq]; exact hc)
    · exact symbol hrest
  · next c rest hpoint heq =>
    split
    · next hc =>
      refine number ?_
      rw [heq]
      unfold StartsNumber
      split
      · next d tail hcons =>
        cases hcons
        exact absurd rfl (hpoint d tail rfl)
      · next hcons => cases hcons; exact hc
      · next hcons => cases hcons
    split
    · next hc => exact word heq hc
    · exact symbol hrest

end Shortens

/-! ## The next token -/

lemma tokenHere_covers {embedded : Option (Scan Expr)} (hembedded : ForwardWithin embedded)
    {r r' : Reader} {t : Token} (hrest : r.cursor.rest ≠ []) (h : tokenHere embedded r = .ok t r') :
    ∃ text, t.Covers r.cursor text r'.cursor := by
  have hforward := forward_tokenHere hembedded
  obtain ⟨text, hpasses⟩ := hforward.leads h
  have hlt := Shortens.tokenHere hembedded hrest t r' h
  obtain ⟨hspan, hlexeme, hfits⟩ := (Makes.tokenHere embedded hrest).made h
  refine ⟨text, hpasses, ?_, hspan, ?_, hfits.inside⟩
  · rintro rfl
    rw [hpasses.length_rest] at hlt
    exact absurd hlt (by simp)
  · rw [hlexeme, hpasses.textTo]

lemma tokenHere_template {embedded : Option (Scan Expr)} {r r' : Reader} {t : Token}
    (h : tokenHere embedded r = .ok t r') (hkind : t.kind = .templateStringLiteral) :
    r.cursor.peek? = some '\x60' ∧ templateLiteral embedded r = .ok t r' := by
  by_cases hrest : r.cursor.rest = []
  · rw [tokenHere, cursor_bind, hrest] at h
    cases h
    cases hkind
  · obtain ⟨-, -, hfits⟩ := (Makes.tokenHere embedded hrest).made h
    obtain ⟨rest, heq⟩ := List.head?_eq_some_iff.mp (hfits.backtick hkind)
    rw [tokenHere, cursor_bind, heq] at h
    exact ⟨hfits.backtick hkind, h⟩

lemma tokenHere_suits {embedded : Option (Scan Expr)} {r r' : Reader} {t : Token}
    (h : tokenHere embedded r = .ok t r') : t.kind.Suits t.value := by
  by_cases hrest : r.cursor.rest = []
  · rw [tokenHere, cursor_bind, hrest] at h
    cases h
    trivial
  · exact ((Makes.tokenHere embedded hrest).made h).2.2.suits

/-! ## Brackets -/

lemma longestSymbol_bracket {c : Char} {kind : TokenKind} (hc : bracket? c = some kind)
    (rest : List Char) : longestSymbol kind [c] rest = (kind, 1) := by
  cases rest with
  | nil => rfl
  | cons d rest =>
    have hnone : TokenKind.symbol? ([c] ++ [d]) = none := by
      cases hsymbol : TokenKind.symbol? ([c] ++ [d]) with
      | none => rfl
      | some longer =>
        obtain hlength | ⟨-, hbracket⟩ := (Makes.symbol?_eq_some hsymbol).ends
        · cases hlength
        · rw [show ([c] ++ [d]).head?.bind bracket? = bracket? c from rfl, hc] at hbracket
          cases hbracket
    rw [longestSymbol, hnone]
    rfl

lemma symbol_bracket {c : Char} {kind : TokenKind} {r : Reader} {rest : List Char}
    (hc : bracket? c = some kind) (hsymbol : TokenKind.symbol? [c] = some kind)
    (hrest : r.cursor.rest = c :: rest) :
    symbol c r = .ok
      ⟨kind, .none, (r.cursor.drop 1).spanFrom r.cursor.pos, String.ofList [c]⟩
      { r with cursor := r.cursor.drop 1 } := by
  have hpasses := Cursor.passes_next hrest
  rw [symbol, cursor_bind, hsymbol]
  dsimp only
  rw [hrest, List.drop_one, List.tail_cons, longestSymbol_bracket hc, bind_apply, skip_apply]
  dsimp only
  rw [tokenFrom_apply, hpasses.textTo]

lemma tokenHere_bracket (embedded : Option (Scan Expr)) {c : Char} {kind : TokenKind} {r : Reader}
    {rest : List Char} (hc : bracket? c = some kind) (hrest : r.cursor.rest = c :: rest) :
    tokenHere embedded r = .ok
      ⟨kind, .none, (r.cursor.drop 1).spanFrom r.cursor.pos, String.ofList [c]⟩
      { r with cursor := r.cursor.drop 1 } := by
  have hmakes (h : TokenKind.symbol? [c] = some kind) := symbol_bracket hc h hrest
  rw [tokenHere, cursor_bind, hrest]
  unfold bracket? at hc
  split at hc <;> cases hc <;> exact hmakes rfl

lemma skipGap_bracket {c : Char} {kind : TokenKind} {r : Reader} {rest : List Char}
    (hc : bracket? c = some kind) (hrest : r.cursor.rest = c :: rest) :
    skipGap r = .ok () r := by
  obtain ⟨⟨_, pos⟩, journal⟩ := r
  cases hrest
  unfold bracket? at hc
  split at hc <;> cases hc <;> rfl

lemma tokenHere_at_end (embedded : Option (Scan Expr)) {r : Reader} (hrest : r.cursor.rest = []) :
    tokenHere embedded r = .ok ⟨.endOfInput, .none, Span.emptyAt r.cursor.pos, ""⟩ r := by
  have htext : r.cursor.textTo r.cursor = [] := (Cursor.passes_nil _).textTo
  rw [tokenHere, cursor_bind, hrest]
  dsimp only
  rw [tokenFrom_apply, htext]
  rfl

end Scan

end FrontEnd
