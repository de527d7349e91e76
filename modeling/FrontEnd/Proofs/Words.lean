import FrontEnd.Proofs.Layout

/-!
# Words

Names, operators and punctuation, and the texts in which they stand one behind the other with spaces
between some of them. The scanner finds the words of such a text one by one, as `Scan.run_of_laid`
says; and whatever it finds as an identifier is a name: `Setting.Found.isPlainName`.
-/

namespace FrontEnd

/-! ## Names -/

/-- A name that is neither a keyword nor a truth value. -/
structure PlainName where
  text : String
  named : NameText text.toList
  keyword : TokenKind.keyword? text = none
  boolean : text ≠ "true" ∧ text ≠ "false"

/-- A text is a name that is neither a keyword nor a truth value. -/
def IsPlainName (text : String) : Prop :=
  ∃ n : PlainName, n.text = text

lemma isPlainName_iff {text : String} :
    IsPlainName text ↔ NameText text.toList ∧ TokenKind.keyword? text = none ∧
      text ≠ "true" ∧ text ≠ "false" :=
  ⟨fun ⟨n, hn⟩ => hn ▸ ⟨n.named, n.keyword, n.boolean⟩,
    fun ⟨hnamed, hkeyword, hboolean⟩ => ⟨⟨text, hnamed, hkeyword, hboolean⟩, rfl⟩⟩

instance (text : String) : Decidable (IsPlainName text) :=
  decidable_of_iff _ isPlainName_iff.symm

/-- A text that does not go on with a name. -/
def NameEnd (text : List Char) : Prop :=
  ∀ c ∈ text.head?, Text.isNameChar c = false ∧ c ≠ '!'

lemma Neutral.nameEnd {text : List Char} (h : Neutral text) : NameEnd text := by
  intro c hc
  refine ⟨h.head_eq_false (by decide) c hc, ?_⟩
  rintro rfl
  exact h.head_ne (by decide) hc

lemma nameEnd_cons {c : Char} {text : List Char} (h : Text.isNameChar c = false ∧ c ≠ '!') :
    NameEnd (c :: text) := by
  intro d hd
  obtain rfl := Option.some_inj.mp hd
  exact h

lemma NameEnd.takeWhile_append {name text : List Char} (h : NameEnd text)
    (hname : ∀ c ∈ name, Text.isNameChar c = true) :
    (name ++ text).takeWhile Text.isNameChar = name ∧
      (name ++ text).dropWhile Text.isNameChar = text := by
  cases text with
  | nil =>
    rw [List.append_nil]
    exact ⟨List.takeWhile_eq_self_iff.mpr hname, List.dropWhile_eq_nil_iff.mpr hname⟩
  | cons c text => exact takeWhile_of_stop hname (h c rfl).1 text

/-! ## Words -/

/-- The kind of token that a binary operator is written as. -/
def BinaryOp.kind : BinaryOp → TokenKind
  | .add => .plus
  | .sub => .minus
  | .mul => .star
  | .div => .slash
  | .pow => .doubleStar
  | .bitAnd => .ampersand
  | .bitOr => .pipe
  | .xor => .caret
  | .shl => .leftShift
  | .shr => .rightShift
  | .eq => .doubleEquals
  | .ne => .notEquals
  | .lt => .leftAngle
  | .le => .lessEqual
  | .gt => .rightAngle
  | .ge => .greaterEqual
  | .and => .doubleAmpersand
  | .or => .doublePipe

/-- The symbols that no longer symbol starts with. -/
inductive Punctuation where
  | leftParen
  | rightParen
  | leftBracket
  | rightBracket
  | comma
  | colon
  | semicolon

namespace Punctuation

def char : Punctuation → Char
  | leftParen => '('
  | rightParen => ')'
  | leftBracket => '['
  | rightBracket => ']'
  | comma => ','
  | colon => ':'
  | semicolon => ';'

def kind : Punctuation → TokenKind
  | leftParen => .leftParen
  | rightParen => .rightParen
  | leftBracket => .leftBracket
  | rightBracket => .rightBracket
  | comma => .comma
  | colon => .colon
  | semicolon => .semicolon

lemma isNameChar_char (p : Punctuation) : Text.isNameChar p.char = false ∧ p.char ≠ '!' := by
  cases p <;> decide

lemma symbol?_char (p : Punctuation) : TokenKind.symbol? [p.char] = some p.kind := by
  cases p <;> rfl

lemma longestSymbol_char (p : Punctuation) (text : List Char) :
    Scan.longestSymbol p.kind [p.char] text = (p.kind, 1) := by
  cases text with
  | nil => rfl
  | cons c text => cases p <;> rfl

end Punctuation

/-- A word of a source. -/
inductive Word where
  | name (text : String)
  | op (o : BinaryOp)
  | mark (p : Punctuation)

namespace Word

/-- How a word is written. -/
def text : Word → List Char
  | name text => text.toList
  | op o => o.symbol.toList
  | mark p => [p.char]

/-- The token of a word at a place. -/
def token (span : Span) : Word → Token
  | name text => ⟨.identifier, .text text, span, text⟩
  | op o => ⟨o.kind, .none, span, o.symbol⟩
  | mark p => ⟨p.kind, .none, span, p.char.toString⟩

/-- A word may stand in front of a text, which does not go on with it. -/
def Fits (tail : List Char) : Word → Prop
  | name text => IsPlainName text ∧ NameEnd tail
  | op _ => Neutral tail
  | mark _ => True

lemma isEnd_token (w : Word) (span : Span) : (w.token span).isEnd = false := by
  cases w with
  | name text => rfl
  | op o => cases o <;> rfl
  | mark p => cases p <;> rfl

end Word

/-- Words one behind the other, with or without spaces behind each. -/
inductive Laid : List Word → List Char → Prop where
  | nil : Laid [] []
  | cons {w ws text} (n : Nat) (hfits : w.Fits (List.replicate n ' ' ++ text)) (h : Laid ws text) :
    Laid (w :: ws) (w.text ++ List.replicate n ' ' ++ text)

/-- Tokens that are those of some words, wherever these stand. -/
abbrev Fitting (ws : List Word) (ts : List Token) : Prop :=
  List.Forall₂ (fun w t => ∃ span, t = Word.token span w) ws ts

/-! ## Finding the words -/

lemma Text.toNat_of_isNameStart {c : Char} (h : Text.isNameStart c = true) :
    65 ≤ c.toNat ∧ c.toNat ≤ 122 := by
  unfold Text.isNameStart Char.isAlpha Char.isUpper Char.isLower at h
  simp only [Bool.or_eq_true, Bool.and_eq_true, decide_eq_true_eq, beq_iff_eq] at h
  rcases h with (h | h) | rfl
  · exact ⟨h.1, Nat.le_trans h.2 (by decide)⟩
  · exact ⟨Nat.le_trans (by decide) h.1, h.2⟩
  · decide

lemma Text.not_isBlank {c : Char} (h : 32 < c.toNat ∧ c.toNat < 128) :
    ¬ Text.isBlank c = true := by
  simp only [Text.isBlank, Text.blankRanges, List.any_cons, List.any_nil, Bool.or_eq_true,
    Bool.and_eq_true, decide_eq_true_eq, Bool.false_eq_true, or_false]
  omega

lemma Word.Fits.text_eq_cons {w : Word} {tail : List Char} (h : w.Fits tail) :
    ∃ c more, w.text = c :: more ∧ (32 < c.toNat ∧ c.toNat < 128) ∧
      (c = '/' → more = [] ∧ Neutral tail) := by
  cases w with
  | name text =>
    obtain ⟨⟨n, rfl⟩, -⟩ := h
    obtain ⟨⟨c, hhead, hc⟩, -⟩ := n.named
    obtain ⟨more, htext⟩ := List.head?_eq_some_iff.mp hhead
    obtain ⟨hlow, hhigh⟩ := Text.toNat_of_isNameStart hc
    refine ⟨c, more, htext, ⟨by omega, by omega⟩, ?_⟩
    rintro rfl
    exact absurd hlow (by decide)
  | op o =>
    cases o <;> refine ⟨_, _, rfl, by decide, fun hc => ⟨?_, h⟩⟩ <;>
      first | rfl | exact absurd hc (by decide)
  | mark p => cases p <;> exact ⟨_, [], rfl, by decide, fun hc => absurd hc (by decide)⟩

namespace Scan

variable {embedded : Option (Scan Expr)} {r : Reader} {tail : List Char}

lemma symbol_run {first : Char} {rest : List Char} {kind kind' : TokenKind} {n : Nat}
    (hrest : r.cursor.rest = first :: rest) (hfirst : TokenKind.symbol? [first] = some kind)
    (hlongest : longestSymbol kind [first] rest = (kind', n)) :
    ∃ r', symbol first r = .ok ⟨kind', .none, r'.cursor.spanFrom r.cursor.pos,
      String.ofList (r.cursor.rest.take n)⟩ r' ∧ r'.cursor.rest = r.cursor.rest.drop n := by
  have hpasses := r.cursor.passes_drop n
  rw [symbol, cursor_bind, hfirst]
  dsimp only
  rw [hrest, List.drop_one, List.tail_cons, hlongest, bind_apply, skip_apply]
  dsimp only
  rw [tokenFrom_apply, hpasses.textTo, ← hrest]
  exact ⟨_, rfl, rfl⟩

lemma tokenHere_op (o : BinaryOp) (htail : Neutral tail)
    (hrest : r.cursor.rest = o.symbol.toList ++ tail) :
    ∃ span r', tokenHere embedded r = .ok ((Word.op o).token span) r' ∧ r'.cursor.rest = tail := by
  have hspelled : ∃ first more kind, o.symbol.toList = first :: more ∧
      TokenKind.symbol? [first] = some kind ∧
      longestSymbol kind [first] more = (o.kind, o.symbol.toList.length) ∧
      ∀ ahead, tokenAt embedded first ahead = symbol first := by
    cases o <;> exact ⟨_, _, _, rfl, rfl, rfl, fun _ => rfl⟩
  obtain ⟨first, more, kind, hsymbol, hfirst, hlongest, hat⟩ := hspelled
  have hcons : r.cursor.rest = first :: (more ++ tail) := by
    rw [hrest, hsymbol]
    rfl
  have hlongest' := Scene.Local.longestSymbol_append htail kind [first] more (by simp)
  obtain ⟨r', hrun, hbehind⟩ := symbol_run hcons hfirst (hlongest'.trans hlongest)
  refine ⟨r'.cursor.spanFrom r.cursor.pos, r', ?_, ?_⟩
  · rw [tokenHere_of_cons hcons, hat, hrun, hrest, List.take_left, String.ofList_toList]
    rfl
  · rw [hbehind, hrest, List.drop_left]

lemma tokenHere_mark (p : Punctuation) (hrest : r.cursor.rest = p.char :: tail) :
    ∃ span r', tokenHere embedded r = .ok ((Word.mark p).token span) r' ∧
      r'.cursor.rest = tail := by
  have hat (ahead : Option Char) : tokenAt embedded p.char ahead = symbol p.char := by
    cases p <;> rfl
  obtain ⟨r', hrun, hbehind⟩ := symbol_run hrest p.symbol?_char (p.longestSymbol_char tail)
  refine ⟨r'.cursor.spanFrom r.cursor.pos, r', ?_, ?_⟩
  · rw [tokenHere_of_cons hrest, hat, hrun, hrest]
    rfl
  · rw [hbehind, hrest]
    rfl

/-- A plain name is found in front of a text that does not go on with it. -/
lemma tokenHere_name (n : PlainName) (htail : NameEnd tail)
    (hrest : r.cursor.rest = n.text.toList ++ tail) :
    ∃ span r', tokenHere embedded r = .ok ((Word.name n.text).token span) r' ∧
      r'.cursor.rest = tail := by
  obtain ⟨⟨c, hhead, hc⟩, hchars⟩ := n.named
  obtain ⟨more, htext⟩ := List.head?_eq_some_iff.mp hhead
  have hcons : r.cursor.rest = c :: (more ++ tail) := by
    rw [hrest, htext]
    rfl
  have hne (d : Char) (hd : ¬ Text.isNameStart d = true) : c ≠ d := by
    rintro rfl
    exact hd hc
  have hdigit : ¬ c.isDigit = true := by
    intro hdigit
    have hhigh := (Char.isDigit_iff_toNat.mp hdigit).2
    have hlow := (Text.toNat_of_isNameStart hc).1
    exact absurd (Nat.le_trans hlow hhigh) (by decide)
  have hat (ahead : Option Char) : tokenAt embedded c ahead = word := by
    unfold tokenAt
    rw [if_neg (hne _ (by decide)), if_neg (hne _ (by decide)), if_neg (hne _ (by decide)),
      if_neg (hne _ (by decide)), if_neg, if_pos hc]
    rintro (h | ⟨h, -⟩)
    · exact hdigit h
    · exact hne _ (by decide) h
  obtain ⟨htake, hdrop⟩ := htail.takeWhile_append hchars
  obtain ⟨r', hrun, hpasses, hbehind⟩ := takeWhile_run Text.isNameChar r
  rw [hrest, htake] at hrun hpasses
  rw [hrest, hdrop] at hbehind
  have hbang : ¬ r'.cursor.peek? = some '!' := by
    rw [Cursor.peek?, hbehind]
    exact fun heq => (htail _ heq).2 rfl
  have hclass : classifyWord n.text = (.identifier, .text n.text) := by
    rw [classifyWord, if_neg n.boolean.1, if_neg n.boolean.2, n.keyword]
  refine ⟨r'.cursor.spanFrom r.cursor.pos, r', ?_, hbehind⟩
  rw [tokenHere_of_cons hcons, hat, word, cursor_bind, bind_apply, hrun]
  dsimp only
  rw [cursor_bind, if_neg hbang, String.ofList_toList, hclass]
  dsimp only
  rw [tokenFrom_apply, hpasses.textTo, String.ofList_toList]
  rfl

lemma tokenHere_word (embedded : Option (Scan Expr)) {w : Word} (hfits : w.Fits tail)
    (hrest : r.cursor.rest = w.text ++ tail) :
    ∃ span r', tokenHere embedded r = .ok (w.token span) r' ∧ r'.cursor.rest = tail := by
  cases w with
  | name text =>
    obtain ⟨⟨n, rfl⟩, htail⟩ := hfits
    exact tokenHere_name n htail hrest
  | op o => exact tokenHere_op o hfits hrest
  | mark p => exact tokenHere_mark p hrest

lemma gap_word {w : Word} (hfits : w.Fits tail) (pos : Position) :
    gap .blank (w.text ++ tail) pos = .ok () ⟨w.text ++ tail, pos⟩ := by
  obtain ⟨c, more, htext, hbounds, hslash⟩ := hfits.text_eq_cons
  -- A slash is followed by none of the characters that make it a comment.
  have hcomment (d : Char) (hd : d ∉ separators) (rest : List Char) (hc : c = '/') :
      more ++ tail = d :: rest → False := by
    intro heq
    obtain ⟨hmore, hneutral⟩ := hslash hc
    have hhead := hneutral.head_ne hd
    rw [hmore, List.nil_append] at heq
    rw [heq] at hhead
    exact hhead rfl
  rw [htext, List.cons_append, gap_blank_cons pos (hcomment '/' (by decide))
    (hcomment '*' (by decide)), if_neg (Text.not_isBlank hbounds)]

lemma gap_spaces (n : Nat) (text : List Char) (pos : Position) :
    ∃ pos', gap .blank (List.replicate n ' ' ++ text) pos = gap .blank text pos' := by
  induction n generalizing pos with
  | zero => exact ⟨pos, rfl⟩
  | succ n ih =>
    obtain ⟨pos', hgap⟩ := ih (pos.advance ' ')
    refine ⟨pos', ?_⟩
    rw [List.replicate_succ, List.cons_append,
      gap_blank_cons _ (fun _ h => absurd h (by decide)) fun _ h => absurd h (by decide),
      if_pos (by decide), hgap]

lemma run_of_laid {ws : List Word} {text : List Char} (h : Laid ws text) (n depth : Nat)
    (hrest : r.cursor.rest = List.replicate n ' ' ++ text) :
    ∃ run ds c₁ m, Run (embeddedReader .standard depth) r.cursor run ds c₁ ∧
      c₁.rest = List.replicate m ' ' ∧ Fitting ws (run.map Lexed.token) := by
  induction h generalizing r n with
  | nil =>
    rw [List.append_nil] at hrest
    exact ⟨[], [], r.cursor, n, .nil _, hrest, .nil⟩
  | @cons w ws text m hfits h ih =>
    rw [List.append_assoc] at hrest
    obtain ⟨pos, hspaces⟩ := gap_spaces n (w.text ++ (List.replicate m ' ' ++ text)) r.cursor.pos
    have hskip : skipGap r = .ok ()
        { r with cursor := ⟨w.text ++ (List.replicate m ' ' ++ text), pos⟩ } := by
      rw [skipGap, walk_apply, hrest, hspaces, gap_word hfits]
    obtain ⟨span, r₁, hhere, hbehind⟩ := tokenHere_word (embeddedReader .standard depth) hfits
      (r := { r with cursor := ⟨w.text ++ (List.replicate m ' ' ++ text), pos⟩ }) rfl
    obtain ⟨ds, hfinds, -⟩ := finds_of_ok (forwardWithin_embeddedReader depth) hskip hhere
    obtain ⟨run, ds', c₁, k, hrun, hend, hfitting⟩ := ih m hbehind
    exact ⟨_, ds ++ ds', c₁, k, .cons hfinds hrun, hend, .cons ⟨span, rfl⟩ hfitting⟩

end Scan

lemma Fitting.inner {ws : List Word} {ts : List Token} (h : Fitting ws ts) :
    ∀ t ∈ ts, t.isEnd = false := by
  induction h with
  | nil => simp
  | @cons w t ws ts hw _ ih =>
    obtain ⟨span, rfl⟩ := hw
    exact List.forall_mem_cons.mpr ⟨w.isEnd_token span, ih⟩

lemma Scan.whole_of_laid {ws : List Word} {text : List Char} (h : Laid ws text) (n depth : Nat) :
    ∃ run ds, Whole (embeddedReader .standard depth) (.ofText (List.replicate n ' ' ++ text)) run
      ds ∧ Fitting ws (run.map Lexed.token) := by
  obtain ⟨run, ds, c₁, m, hrun, hend, hfitting⟩ :=
    run_of_laid h n depth (r := Reader.ofText (List.replicate n ' ' ++ text)) rfl
  obtain ⟨pos, hspaces⟩ := gap_spaces m [] c₁.pos
  have hskip : skipGap ⟨c₁, #[]⟩ = .ok () ⟨⟨[], pos⟩, #[]⟩ := by
    rw [skipGap, walk_apply, hend, ← List.append_nil (List.replicate m ' '), hspaces]
    rfl
  have hfinds : Finds (embeddedReader .standard depth) c₁
      ⟨⟨.endOfInput, .none, Span.emptyAt pos, ""⟩, ⟨[], pos⟩⟩ [] ⟨[], pos⟩ :=
    ⟨⟨c₁, #[]⟩, _, _, rfl, hskip, rfl, tokenHere_at_end _ rfl, rfl, rfl⟩
  exact ⟨run, ds, ⟨fun x hx => hfitting.inner _ (List.mem_map_of_mem hx), c₁, _, _, hrun, hfinds,
    rfl⟩, hfitting⟩

lemma tokenize_of_laid {ws : List Word} {source : String} (h : Laid ws source.toList) :
    ∃ ts, (tokenize source).result = .ok ts ∧ Fitting ws ts := by
  obtain ⟨run, ds, hwhole, hfitting⟩ := Scan.whole_of_laid h 0 source.toList.length
  exact ⟨_, (tokenize_of_whole hwhole).1, hfitting⟩

/-! ## Names that are found -/

namespace Scan

variable {embedded : Option (Scan Expr)} {r : Reader}

/-- Where an action makes an identifier, it is a plain name. -/
def Names (r : Reader) (m : Scan Token) : Prop :=
  ∀ t r', m r = .ok t r' → t.kind = .identifier → IsPlainName t.text

lemma OfClass.names {cls : Option WordClass} {m : Scan Token} (h : OfClass cls m)
    (hcls : cls ≠ some .word) : Names r m := by
  intro t r' hrun hkind
  have heq := h.wordClass?_eq hrun
  rw [hkind] at heq
  exact absurd heq.symm hcls

lemma classifyWord_identifier {text : String} {value : TokenValue}
    (h : classifyWord text = (.identifier, value)) :
    value = .text text ∧ TokenKind.keyword? text = none ∧ text ≠ "true" ∧ text ≠ "false" := by
  unfold classifyWord at h
  split at h
  · cases h
  split at h
  · cases h
  split at h
  · next kind hkind =>
    unfold TokenKind.keyword? at hkind
    split at hkind <;> cases hkind <;> cases h
  · next htrue hfalse _ hkeyword =>
    cases h
    exact ⟨rfl, hkeyword, htrue, hfalse⟩

lemma names_word (hstart : ∃ c ∈ r.cursor.rest.head?, Text.isNameStart c = true) :
    Names r word := by
  intro t r' h hkind
  obtain ⟨r₁, hrun, -, -⟩ := takeWhile_run Text.isNameChar r
  rw [word, cursor_bind, bind_apply, hrun] at h
  dsimp only at h
  rw [cursor_bind] at h
  split at h
  · rw [bind_apply, skip_apply] at h
    cases h
    cases hkind
  · generalize hclass : classifyWord _ = classified at h
    obtain ⟨kind, value⟩ := classified
    cases h
    obtain rfl : kind = .identifier := hkind
    obtain ⟨rfl, hplain⟩ := classifyWord_identifier hclass
    refine isPlainName_iff.mpr ⟨?_, hplain⟩
    change NameText (String.ofList _).toList
    rw [String.toList_ofList]
    exact nameText_takeWhile hstart

lemma Names.of_cursor {f : Cursor → Scan Token} (h : Names r (f r.cursor)) :
    Names r (cursor >>= f) := by
  intro t r' hrun
  rw [cursor_bind] at hrun
  exact h t r' hrun

lemma names_tokenHere (embedded : Option (Scan Expr)) (r : Reader) :
    Names r (tokenHere embedded) := by
  unfold tokenHere
  refine .of_cursor ?_
  split
  · exact (OfClass.tokenFrom rfl).names nofun
  · exact OfClass.stringLiteral.names nofun
  · exact (OfClass.templateLiteral embedded).names nofun
  · exact OfClass.charLiteral.names nofun
  · exact OfClass.label.names nofun
  · split
    · exact OfClass.number.names nofun
    · exact (OfClass.symbol _).names nofun
  · next hrest =>
    split
    · exact OfClass.number.names nofun
    split
    · next hstart => exact names_word ⟨_, by rw [hrest]; rfl, hstart⟩
    · exact (OfClass.symbol _).names nofun

end Scan

lemma Setting.Found.isPlainName {K : Setting} {t : Token} (h : K.Found t)
    (hkind : t.kind = .identifier) : IsPlainName t.text := by
  obtain ⟨r, r', htoken⟩ := h
  exact Scan.names_tokenHere _ r t r' htoken hkind

end FrontEnd
