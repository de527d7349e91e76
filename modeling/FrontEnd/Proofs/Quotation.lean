import FrontEnd.Proofs.Eager

/-!
# Every text can be quoted

A backslash takes the meaning off the character behind it. So each text has a string literal and a
template string that stand for it, and each character has a character literal. They are read back as
what they were made of, whatever is in them, and without a warning: `quoted_text_reads_back`.
-/

namespace FrontEnd

/-! ## Quoting -/

/-- A character in a literal, with a backslash before it if it is one of those that need one. -/
def escaping (marks : List Char) (c : Char) : List Char :=
  if c ∈ marks then ['\\', c] else [c]

/-- What stands for a text between double quotes. -/
def stringText (text : List Char) : List Char :=
  text.flatMap (escaping ['\\', '"'])

/-- What stands for a text between backticks. A dollar sign needs a backslash only before a
brace. -/
def templateText : List Char → List Char
  | [] => []
  | '$' :: '{' :: text => '\\' :: '$' :: '{' :: templateText text
  | c :: text => escaping ['\\', '\x60'] c ++ templateText text

/-- What stands for a character between single quotes. -/
def charText (c : Char) : List Char :=
  escaping ['\\', '\''] c

/-- A text between two delimiters. -/
def enclosed (delimiter : Char) (text : List Char) : String :=
  String.ofList (delimiter :: (text ++ [delimiter]))

/-- A source is read as one token of the given kind and value, without a warning. -/
def IsLiteral (source : String) (kind : TokenKind) (value : TokenValue) : Prop :=
  (tokenize source).warnings = [] ∧
    ∃ t, (tokenize source).result = .ok [t] ∧ t.kind = kind ∧ t.value = value

lemma escaping_of_mem {marks : List Char} {c : Char} (h : c ∈ marks) :
    escaping marks c = ['\\', c] :=
  if_pos h

lemma escaping_of_not_mem {marks : List Char} {c : Char} (h : c ∉ marks) :
    escaping marks c = [c] :=
  if_neg h

lemma templateText_cons {c : Char} {text : List Char}
    (h : ∀ more, c = '$' → text = '{' :: more → False) :
    templateText (c :: text) = escaping ['\\', '\x60'] c ++ templateText text := by
  rw [templateText]
  exact h

lemma templateText_head {text rest : List Char}
    (h : (templateText text ++ '\x60' :: rest).head? = some '{') :
    ∃ more, text = '{' :: more := by
  fun_cases templateText text with
  | case1 => cases h
  | case2 more => cases h
  | case3 c more hbrace =>
    rw [templateText_cons hbrace, escaping] at h
    split at h
    · cases h
    · exact ⟨more, by rw [Option.some_inj.mp h]⟩

namespace Scan

/-! ## Strings -/

lemma stringBody_stringText (opened : Position) (text rest read : List Char) (pos : Position) :
    ∃ pos', stringBody opened (stringText text ++ '"' :: rest) pos read =
      .ok (read.reverse ++ text) ⟨rest, pos'⟩ := by
  induction text generalizing pos read with
  | nil =>
    refine ⟨pos.advance '"', ?_⟩
    rw [stringText, List.flatMap_nil, List.nil_append, stringBody, List.append_nil]
  | cons c text ih =>
    have hread : (c :: read).reverse ++ text = read.reverse ++ c :: text := by simp
    rw [stringText, List.flatMap_cons, ← stringText]
    by_cases hc : c ∈ ['\\', '"']
    · have hmeaning : unescape? c = some [c] := by
        rcases List.mem_pair.mp hc with rfl | rfl <;> rfl
      obtain ⟨pos', hbody⟩ := ih (c :: read) (pos.after ['\\', c])
      refine ⟨pos', ?_⟩
      rw [escaping_of_mem hc, ← hread, ← hbody]
      exact stringBody_escape_cons hmeaning
    · have hne : c ≠ '\\' ∧ c ≠ '"' := by simpa using hc
      obtain ⟨pos', hbody⟩ := ih (c :: read) (pos.advance c)
      refine ⟨pos', ?_⟩
      rw [escaping_of_not_mem hc, ← hread, ← hbody]
      exact stringBody_plain_cons hne.2 hne.1

variable {embedded : Option (Scan Expr)} {r : Reader} {rest : List Char}

/-- A token that is read quietly: it has the given kind and value, the given text is left behind it,
and the journal is as before. -/
def Quietly (m : Scan Token) (r : Reader) (kind : TokenKind) (value : TokenValue)
    (rest : List Char) : Prop :=
  ∃ t r', m r = .ok t r' ∧ t.kind = kind ∧ t.value = value ∧ r'.cursor.rest = rest ∧
    r'.journal = r.journal

lemma Quietly.of_tokenFrom {m : Scan Token} {kind : TokenKind} {value : TokenValue}
    (start : Cursor) (r' : Reader) (h : m r = tokenFrom start kind value r')
    (hrest : r'.cursor.rest = rest) (hjournal : r'.journal = r.journal) :
    Quietly m r kind value rest :=
  ⟨_, r', h.trans (tokenFrom_apply ..), rfl, rfl, hrest, hjournal⟩

lemma stringLiteral_stringText (text : List Char)
    (hrest : r.cursor.rest = '"' :: (stringText text ++ '"' :: rest)) :
    Quietly stringLiteral r .stringLiteral (.text (String.ofList text)) rest := by
  have hbehind : (r.cursor.drop 1).rest = stringText text ++ '"' :: rest := by
    rw [Cursor.drop, hrest]
    rfl
  obtain ⟨pos', hbody⟩ :=
    stringBody_stringText r.cursor.pos text rest [] (r.cursor.drop 1).pos
  refine .of_tokenFrom r.cursor { r with cursor := ⟨rest, pos'⟩ } ?_ rfl rfl
  rw [stringLiteral, cursor_bind, bind_apply, skip_apply]
  dsimp only
  rw [bind_apply, walk_apply]
  dsimp only
  rw [hbehind, hbody]
  rfl

/-! ## Templates -/

lemma templateEscape_apply {c : Char} (hc : c ∈ ['\\', '\x60'])
    (hrest : r.cursor.rest = '\\' :: c :: rest) :
    ∃ r', templateEscape r = .ok [c] r' ∧ r'.cursor.rest = rest ∧ r'.journal = r.journal := by
  have hmeaning : c ≠ '$' ∧ unescape? c = some [c] := by
    rcases List.mem_pair.mp hc with rfl | rfl <;> exact ⟨by decide, rfl⟩
  have hbehind : (r.cursor.drop 1).rest = c :: rest := by
    rw [Cursor.drop, hrest]
    rfl
  refine ⟨{ r with cursor := (r.cursor.drop 1).drop 1 }, ?_, ?_, rfl⟩
  · rw [templateEscape, cursor_bind, bind_apply, skip_apply]
    dsimp only
    rw [bind_apply, advance_cons (r := { r with cursor := r.cursor.drop 1 }) hbehind]
    dsimp only
    rw [if_neg hmeaning.1, hmeaning.2]
    rfl
  · rw [Cursor.drop, hbehind]
    rfl

lemma templateEscape_dollar (hrest : r.cursor.rest = '\\' :: '$' :: '{' :: rest) :
    ∃ r', templateEscape r = .ok ['$', '{'] r' ∧ r'.cursor.rest = rest ∧
      r'.journal = r.journal := by
  have hbehind : (r.cursor.drop 1).rest = '$' :: '{' :: rest := by
    rw [Cursor.drop, hrest]
    rfl
  have hbrace : ((r.cursor.drop 1).drop 1).rest = '{' :: rest := by
    rw [Cursor.drop, hbehind]
    rfl
  refine ⟨{ r with cursor := ((r.cursor.drop 1).drop 1).drop 1 }, ?_, ?_, rfl⟩
  · rw [templateEscape, cursor_bind, bind_apply, skip_apply]
    dsimp only
    rw [bind_apply, advance_cons (r := { r with cursor := r.cursor.drop 1 }) hbehind]
    dsimp only
    rw [if_pos rfl, escapedDollar, cursor_bind, Cursor.peek?, hbrace, List.head?_cons, if_pos rfl]
    rfl
  · rw [Cursor.drop, hbrace]
    rfl

lemma templatePiece?_escape {opened : Position} {c : Char} {content : List Char} {r₁ : Reader}
    (hrest : r.cursor.rest = '\\' :: c :: rest) (h : templateEscape r = .ok content r₁) :
    templatePiece? embedded opened r = .ok (some (.text content)) r₁ := by
  rw [templatePiece?_of_cons opened hrest, pieceAt, if_neg (by decide), if_pos rfl, bind_apply, h]
  rfl

lemma templatePiece?_plain {opened : Position} {c : Char} (hc : c ∉ ['\\', '\x60'])
    (hdollar : ¬ (c = '$' ∧ rest.head? = some '{')) (hrest : r.cursor.rest = c :: rest) :
    templatePiece? embedded opened r =
      .ok (some (.text [c])) { r with cursor := r.cursor.drop 1 } := by
  have hne : c ≠ '\\' ∧ c ≠ '\x60' := by simpa using hc
  rw [templatePiece?_of_cons opened hrest, pieceAt, if_neg hne.2, if_neg hne.1, if_neg hdollar]
  rfl

/-- What is left of a template string is read in pieces of text that make up the given one. -/
def Pieces (embedded : Option (Scan Expr)) (opened : Position) (fuel : Nat) (r : Reader)
    (text rest : List Char) : Prop :=
  ∀ pieces, ∃ chunks r', templatePieces embedded opened fuel pieces r =
      .ok (pieces.reverse ++ List.map Piece.text chunks) r' ∧
    List.flatten chunks = text ∧ r'.cursor.rest = rest ∧ r'.journal = r.journal

lemma Pieces.cons {opened : Position} {fuel : Nat} {content text : List Char} {r₁ : Reader}
    (hpiece : templatePiece? embedded opened r = .ok (some (.text content)) r₁)
    (hjournal : r₁.journal = r.journal) (h : Pieces embedded opened fuel r₁ text rest) :
    Pieces embedded opened (fuel + 1) r (content ++ text) rest := by
  intro pieces
  obtain ⟨chunks, r', hpieces, rfl, hbehind, hkept⟩ := h (.text content :: pieces)
  refine ⟨content :: chunks, r', ?_, rfl, hbehind, hkept.trans hjournal⟩
  rw [templatePieces, bind_apply, hpiece]
  dsimp only
  rw [hpieces]
  simp

variable (embedded) in
/-- The text between backticks is read in pieces that make up the text that it stands for. -/
lemma pieces_templateText {text : List Char} (opened : Position) {fuel : Nat}
    (hrest : r.cursor.rest = templateText text ++ '\x60' :: rest)
    (hfuel : (templateText text).length < fuel) :
    Pieces embedded opened fuel r text rest := by
  obtain ⟨fuel, rfl⟩ : ∃ f, fuel = f + 1 := ⟨fuel - 1, by omega⟩
  induction text using templateText.induct generalizing r fuel with
  | case1 =>
    intro pieces
    refine ⟨[], { r with cursor := r.cursor.drop 1 }, ?_, rfl, by rw [Cursor.drop, hrest]; rfl, rfl⟩
    rw [templatePieces, bind_apply, templatePiece?_of_cons opened hrest, pieceAt, if_pos rfl]
    simp only [List.map_nil, List.append_nil]
    rfl
  | case2 more ih =>
    obtain ⟨r₁, hescape, hbehind, hjournal⟩ := templateEscape_dollar hrest
    rw [templateText, List.length_cons] at hfuel
    obtain ⟨fuel, rfl⟩ : ∃ f, fuel = f + 1 := ⟨fuel - 1, by omega⟩
    refine .cons (templatePiece?_escape hrest hescape) hjournal (ih hbehind fuel ?_)
    rw [List.length_cons, List.length_cons] at hfuel
    omega
  | case3 c more hbrace ih =>
    rw [templateText_cons hbrace] at hrest hfuel
    by_cases hc : c ∈ ['\\', '\x60']
    · rw [escaping_of_mem hc] at hrest hfuel
      obtain ⟨r₁, hescape, hbehind, hjournal⟩ := templateEscape_apply hc hrest
      have hlt : (templateText more).length + 2 < fuel + 1 := hfuel
      obtain ⟨fuel, rfl⟩ : ∃ f, fuel = f + 1 := ⟨fuel - 1, by omega⟩
      exact .cons (templatePiece?_escape hrest hescape) hjournal (ih hbehind fuel (by omega))
    · rw [escaping_of_not_mem hc] at hrest hfuel
      have hlt : (templateText more).length + 1 < fuel + 1 := hfuel
      obtain ⟨fuel, rfl⟩ : ∃ f, fuel = f + 1 := ⟨fuel - 1, by omega⟩
      have hdollar : ¬ (c = '$' ∧ (templateText more ++ '\x60' :: rest).head? = some '{') := by
        rintro ⟨rfl, hhead⟩
        obtain ⟨more', rfl⟩ := templateText_head hhead
        exact hbrace more' rfl rfl
      have hbehind : (r.cursor.drop 1).rest = templateText more ++ '\x60' :: rest := by
        rw [Cursor.drop, hrest]
        rfl
      exact .cons (templatePiece?_plain hc hdollar hrest) rfl
        (ih (r := { r with cursor := r.cursor.drop 1 }) hbehind fuel (by omega))

lemma parts_text (chunks : List (List Char)) :
    Piece.parts (chunks.map Piece.text) =
      if chunks.flatten = [] then [] else [.text (String.ofList chunks.flatten)] := by
  have hjoin : (chunks.map Piece.text).foldr Piece.join ([], []) = (chunks.flatten, []) := by
    induction chunks with
    | nil => rfl
    | cons chunk chunks ih => rw [List.map_cons, List.foldr_cons, ih, List.flatten_cons, Piece.join]
  rw [Piece.parts, hjoin]
  cases chunks.flatten <;> rfl

lemma templateLiteral_templateText (text : List Char)
    (hrest : r.cursor.rest = '\x60' :: (templateText text ++ '\x60' :: rest)) :
    Quietly (templateLiteral embedded) r .templateStringLiteral
      (.template (if text = [] then [] else [.text (String.ofList text)])) rest := by
  have hbehind : (r.cursor.drop 1).rest = templateText text ++ '\x60' :: rest := by
    rw [Cursor.drop, hrest]
    rfl
  have hfuel : (templateText text).length < r.cursor.rest.length + 1 := by
    rw [hrest, List.length_cons, List.length_append]
    omega
  obtain ⟨chunks, r', hpieces, rfl, hrest', hjournal⟩ :=
    pieces_templateText embedded (r := { r with cursor := r.cursor.drop 1 }) r.cursor.pos hbehind
      hfuel []
  refine .of_tokenFrom r.cursor r' ?_ hrest' hjournal
  rw [templateLiteral, cursor_bind, bind_apply, skip_apply]
  dsimp only
  rw [bind_apply, hpieces]
  dsimp only
  rw [List.reverse_nil, List.nil_append, parts_text]

/-! ## Characters -/

lemma charContent_charText (start : Position) (c : Char)
    (hrest : r.cursor.rest = charText c ++ rest) :
    ∃ r', charContent start r = .ok c r' ∧ r'.cursor.rest = rest ∧ r'.journal = r.journal := by
  by_cases hc : c ∈ ['\\', '\'']
  · have hmeaning : c ≠ '\n' ∧ unescapeChar? c = some c := by
      rcases List.mem_pair.mp hc with rfl | rfl <;> exact ⟨by decide, rfl⟩
    rw [charText, escaping_of_mem hc] at hrest
    have hbehind : (r.cursor.drop 1).rest = c :: rest := by
      rw [Cursor.drop, hrest]
      rfl
    refine ⟨{ r with cursor := (r.cursor.drop 1).drop 1 }, ?_, by rw [Cursor.drop, hbehind]; rfl, rfl⟩
    rw [charContent, cursor_bind, bind_apply, advance_cons hrest]
    dsimp only
    rw [if_neg (by decide), if_pos rfl, charEscape, bind_apply,
      advance_cons (r := { r with cursor := r.cursor.drop 1 }) hbehind]
    dsimp only
    rw [if_neg hmeaning.1, hmeaning.2]
    rfl
  · have hne : c ≠ '\\' ∧ c ≠ '\'' := by simpa using hc
    rw [charText, escaping_of_not_mem hc] at hrest
    refine ⟨{ r with cursor := r.cursor.drop 1 }, ?_, by rw [Cursor.drop, hrest]; rfl, rfl⟩
    rw [charContent, cursor_bind, bind_apply, advance_cons hrest]
    dsimp only
    rw [if_neg hne.2, if_neg hne.1]
    rfl

lemma charLiteral_charText (c : Char)
    (hrest : r.cursor.rest = '\'' :: (charText c ++ '\'' :: rest)) :
    Quietly charLiteral r .charLiteral (.char c) rest := by
  have hbehind : (r.cursor.drop 1).rest = charText c ++ '\'' :: rest := by
    rw [Cursor.drop, hrest]
    rfl
  obtain ⟨r', hcontent, hquote, hjournal⟩ :=
    charContent_charText (r := { r with cursor := r.cursor.drop 1 }) r.cursor.pos c hbehind
  refine .of_tokenFrom r.cursor { r' with cursor := r'.cursor.drop 1 } ?_
    (by rw [Cursor.drop, hquote]; rfl) hjournal
  rw [charLiteral, cursor_bind, bind_apply, skip_apply]
  dsimp only
  rw [bind_apply, hcontent]
  dsimp only
  rw [cursor_bind, Cursor.peek?, hquote, List.head?_cons, if_pos rfl, bind_apply, skip_apply]

end Scan

/-! ## Literals as sources -/

lemma isLiteral_of_quietly {source : String} {c : Char} {more : List Char} {kind : TokenKind}
    {value : TokenValue} (hsource : source.toList = c :: more) (hblank : Text.isBlank c = false)
    (hslash : c ≠ '/') (hkind : kind ≠ .endOfInput)
    (h : Scan.Quietly (Scan.tokenHere (embeddedReader .standard source.toList.length))
      (.ofText source.toList) kind value []) :
    IsLiteral source kind value := by
  obtain ⟨t, r', htoken, rfl, rfl, hnil, hjournal⟩ := h
  have hgap : Scan.skipGap (.ofText source.toList) = .ok () (.ofText source.toList) := by
    rw [Scan.skipGap, Scan.walk_apply]
    simp only [Reader.ofText, Cursor.ofText, hsource]
    rw [Scan.gap_blank_cons _ (fun _ hc => absurd hc hslash) (fun _ hc => absurd hc hslash),
      if_neg (Bool.eq_false_iff.mp hblank)]
  obtain ⟨ws, hfinds, hws⟩ :=
    Scan.finds_of_ok (forwardWithin_embeddedReader source.toList.length) hgap htoken
  rw [hjournal] at hws
  obtain rfl : ws = [] := List.append_right_eq_self.mp hws.symm
  have hwhole := (Scan.Run.cons hfinds (.nil r'.cursor)).whole
    (by simpa [Token.isEnd] using hkind) hnil
  obtain ⟨hresult, hwarnings⟩ := tokenize_of_whole hwhole
  exact ⟨hwarnings, t, hresult, rfl, rfl⟩

/-- Every text and every character has a literal that is read back as what it was made of, as one
token and without a warning. -/
theorem quoted_text_reads_back :
    (∀ text : List Char, IsLiteral (enclosed '"' (stringText text)) .stringLiteral
      (.text (String.ofList text))) ∧
    (∀ text : List Char, IsLiteral (enclosed '\x60' (templateText text)) .templateStringLiteral
      (.template (if text = [] then [] else [.text (String.ofList text)]))) ∧
    ∀ c : Char, IsLiteral (enclosed '\'' (charText c)) .charLiteral (.char c) := by
  refine ⟨fun text => ?string, fun text => ?template, fun c => ?char⟩
  case string =>
    refine isLiteral_of_quietly String.toList_ofList rfl (by decide) (by decide) ?_
    have hrest : (Reader.ofText (enclosed '"' (stringText text)).toList).cursor.rest =
        '"' :: (stringText text ++ '"' :: []) := String.toList_ofList
    rw [Scan.Quietly, Scan.tokenHere_of_cons hrest]
    exact Scan.stringLiteral_stringText text hrest
  case template =>
    refine isLiteral_of_quietly String.toList_ofList rfl (by decide) (by decide) ?_
    have hrest : (Reader.ofText (enclosed '\x60' (templateText text)).toList).cursor.rest =
        '\x60' :: (templateText text ++ '\x60' :: []) := String.toList_ofList
    rw [Scan.Quietly, Scan.tokenHere_of_cons hrest]
    exact Scan.templateLiteral_templateText text hrest
  case char =>
    refine isLiteral_of_quietly String.toList_ofList rfl (by decide) (by decide) ?_
    have hrest : (Reader.ofText (enclosed '\'' (charText c)).toList).cursor.rest =
        '\'' :: (charText c ++ '\'' :: []) := String.toList_ofList
    rw [Scan.Quietly, Scan.tokenHere_of_cons hrest]
    exact Scan.charLiteral_charText c hrest

end FrontEnd
