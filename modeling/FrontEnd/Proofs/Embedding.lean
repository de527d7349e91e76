import FrontEnd.Proofs.Nesting
import FrontEnd.Proofs.Unmoved

/-!
# Expressions in template strings stand on their own

A template string is made up of plain text and of expressions in braces. What is read of such an
expression in its place is what is read of its text alone, moved to that place: the tree and the
warnings are the same but for their spans.
-/

namespace FrontEnd

open Parse

/-! ## Template strings -/

/-- Plain text in a template string, in front of the character `next`: how it is written and what it
means, and the warnings it gives rise to. -/
inductive PlainText (pos : Position) (next : Option Char) :
    List Char → List Char → List Event → Prop where
  | char {c : Char} (hquote : c ≠ '\x60') (hslash : c ≠ '\\')
    (hopening : c = '$' → next ≠ some '{') : PlainText pos next [c] [c] []
  | escape {c : Char} {meaning : List Char} (h : Scan.unescape? c = some meaning) :
    PlainText pos next ['\\', c] meaning []
  | opening : PlainText pos next ['\\', '$', '{'] ['$', '{'] []
  /-- A dollar sign need not be escaped, unless a brace follows it. -/
  | dollar (h : next ≠ some '{') :
    PlainText pos next ['\\', '$'] ['$'] [.warning (Diagnostic.warning .lexer
      .unnecessaryDollarEscape (Span.new pos (pos.offset + 2)) Code.unnecessaryDollarEscape.title)]

/-- A text that stands at `base` and is read as an expression there, is one on its own: up to its
place, parsing it gives the same tree and the same warnings. -/
structure Standalone (base : Position) (text : List Char) (expr : Expr) (during : List Event) :
    Prop where
  parsed : ∃ tree, (parse (String.ofList text)).result = .ok (some tree) ∧
    expr = respan (Span.translate base text) tree
  warned : during.filterMap Journal.warning? =
    respan (Span.translate base text) (parse (String.ofList text)).warnings

/-- The rest of a template string at a position: how it is written, its pieces, and what happens
while it is read. -/
inductive TemplateBody : Position → List Char → List Scan.Piece → List Event → Prop where
  | close (pos : Position) : TemplateBody pos ['\x60'] [] []
  | plain {pos raw content warnings next pieces events}
    (htext : PlainText pos next.head? raw content warnings)
    (h : TemplateBody (pos.after raw) next pieces events) :
    TemplateBody pos (raw ++ next) (.text content :: pieces) (warnings ++ events)
  /-- The text between `${` and `}`, behind which reading resumes. -/
  | hole {pos text expr during next pieces events}
    (halone : Standalone (pos.after ['$', '{']) text expr during)
    (h : TemplateBody (pos.after ('$' :: '{' :: text ++ ['}'])) next pieces events) :
    TemplateBody pos ('$' :: '{' :: text ++ '}' :: next) (.embedded expr :: pieces)
      (.templateOpened (pos.after ['$', '{']) :: during ++
        .templateResumed (pos.after ('$' :: '{' :: text)) :: events)

lemma TemplateBody.head?_append {pos : Position} {body rest : List Char}
    {pieces : List Scan.Piece} {events : List Event} (h : TemplateBody pos body pieces events) :
    (body ++ rest).head? = body.head? := by
  cases h with
  | close => rfl
  | plain htext h =>
    cases htext <;> rfl
  | hole halone h => rfl

/-! ## Expressions -/

namespace Scan

variable {r r₁ r' : Reader} {e : Expr}

lemma Forward.journal_eq {α : Type} {m : Scan α} [Forward m] {a : α} (h : m r = .ok a r') :
    ∃ events, r'.journal.toList = r.journal.toList ++ events := by
  obtain ⟨events, heq⟩ := Forward.records h
  exact ⟨events, heq.symm⟩

/-- An expression in a template string stands on its own. -/
theorem standalone_of_embedded {depth : Nat}
    (h : embeddedExpression (embeddedReader .standard depth) r = .ok e r₁) :
    ∃ text during, r.cursor.Passes (text ++ ['}']) r₁.cursor ∧
      r₁.journal.toList = r.journal.toList ++ .templateOpened r.cursor.pos :: during ++
        [.templateResumed (r.cursor.pos.after text)] ∧
      Standalone r.cursor.pos text e during := by
  cases depth with
  | zero =>
    rw [embeddedReader, embeddedExpression, cursor_bind] at h
    cases h
  | succ depth =>
    obtain ⟨r₂, rest, hread, hbrace, rfl⟩ := embeddedExpression_eq_ok h
    have hforward := forwardWithin_embeddedReader (depth + 1) _ rfl
    obtain ⟨text, hpasses⟩ := hforward.leads hread
    obtain ⟨during, hduring⟩ := hforward.journal_eq hread
    obtain ⟨s, hexpression, rfl⟩ := readEmbedded_eq_ok hread
    let S : Scene :=
      { Relocation.outward r.cursor.pos text with
        tail := '}' :: rest
        tail' := []
        neutral' := fun c hc => by cases hc
        ends := fun h => by cases h
        raised := r.journal.warnings
        raised' := [] }
    have hrest : r.cursor.rest = text ++ S.tail := by
      change r.cursor.rest = text ++ '}' :: rest
      rw [← hbrace]
      exact hpasses.1
    have hleft : Excerpt _ _ text S.tail e s :=
      ⟨rfl, forwardWithin_embeddedReader depth, hexpression, hrest, hbrace, .inr ⟨_, rfl⟩⟩
    have hright : Ready (Session.ofText .standard text) text S.tail'
        (fun lexed => lexed.token.kind = .endOfInput) (Stream.ofReader (Reader.ofText text)) :=
      ⟨rfl, rfl, (List.append_nil text).symm, closed_end _, by simp [Session.ofText]⟩
    obtain ⟨tree, s', last, htree, he, hechoes, hlast, hend⟩ :=
      S.expression hleft hright (S.embeds depth (Nat.le_refl _)) (Relocation.outward_place _ _)
        ⟨[], [], by rw [List.append_nil]; exact Journal.warnings_push_other _ rfl, rfl, rfl⟩
        (Nat.lt_of_le_of_lt (Nat.le_refl _) hright.limit)
    have hexpression' : Production.expression .lowest (Session.ofText .standard text)
        (Stream.ofReader (Reader.ofText text)) = .ok tree s' := htree
    have hparse : parse (String.ofList text) = ⟨.ok (some tree), s'.reader.journal⟩ := by
      rw [parse, String.toList_ofList, program_of_expression rfl hexpression' hlast hend]
      rfl
    have hjournal : s.reader.journal.toList =
        r.journal.toList ++ .templateOpened r.cursor.pos :: during := by
      rw [hduring, Reader.record, Array.toList_push, List.append_assoc]
      rfl
    obtain ⟨ws, ws', hws, hws', hrel⟩ := hechoes
    have hwarned : during.filterMap Journal.warning? = ws := by
      refine (List.append_right_inj r.journal.warnings).mp ?_
      rw [← hws, Journal.warnings, Journal.warnings, hjournal, List.filterMap_append]
      rfl
    have he' : respan id e = respan (Span.translate r.cursor.pos text) tree := he
    have hrel' : respan id ws = respan (Span.translate r.cursor.pos text) ws' := hrel
    refine ⟨text, during, hpasses.append (behindBrace_passes hbrace), ?_, ⟨tree, ?_, ?_⟩, ?_⟩
    · rw [behindBrace, Reader.record, Array.toList_push, hjournal, hpasses.2]
      rfl
    · rw [hparse]
    · rw [← he', respan_id]
    · rw [hwarned, ← respan_id ws, hrel', hparse]
      exact congrArg _ hws'.symm

/-! ## Pieces -/

lemma escapedDollar_plain {start : Cursor} {content : List Char}
    (hstart : start.Passes ['\\', '$'] r.cursor) (h : escapedDollar start.pos r = .ok content r') :
    ∃ raw events, start.Passes raw r'.cursor ∧ r'.journal.toList = r.journal.toList ++ events ∧
      PlainText start.pos r'.cursor.rest.head? raw content events := by
  rw [escapedDollar, cursor_bind] at h
  by_cases hopening : r.cursor.peek? = some '{'
  · obtain ⟨rest, hrest⟩ := List.head?_eq_some_iff.mp hopening
    rw [if_pos hopening, bind_apply, skip_apply] at h
    cases h
    exact ⟨_, [], hstart.append (Cursor.passes_next hrest), (List.append_nil _).symm, .opening⟩
  · rw [if_neg hopening] at h
    cases h
    refine ⟨_, _, hstart, Array.toList_push .., ?_⟩
    rw [Cursor.spanFrom, hstart.offset]
    exact .dollar hopening

lemma templateEscape_plain {content tail : List Char} (hrest : r.cursor.rest = '\\' :: tail)
    (h : templateEscape r = .ok content r') :
    ∃ raw events, r.cursor.Passes raw r'.cursor ∧ r'.journal.toList = r.journal.toList ++ events ∧
      PlainText r.cursor.pos r'.cursor.rest.head? raw content events := by
  have hslash := Cursor.passes_next hrest
  rw [templateEscape, cursor_bind, bind_apply, skip_apply] at h
  obtain ⟨escaped, r₂, hadvance, h⟩ := bind_eq_ok h
  cases hnext : (r.cursor.drop 1).rest with
  | nil =>
    rw [advance, cursor_bind] at hadvance
    dsimp only at hadvance
    rw [hnext] at hadvance
    cases hadvance
  | cons c rest =>
    rw [advance_cons hnext] at hadvance
    cases hadvance
    have hboth : r.cursor.Passes ['\\', escaped] ((r.cursor.drop 1).drop 1) :=
      hslash.append (Cursor.passes_next hnext)
    by_cases hdollar : escaped = '$'
    · subst hdollar
      rw [if_pos rfl] at h
      exact escapedDollar_plain (r := { r with cursor := (r.cursor.drop 1).drop 1 }) hboth h
    · rw [if_neg hdollar] at h
      cases hmeaning : unescape? escaped with
      | none => rw [hmeaning] at h; cases h
      | some meaning =>
        rw [hmeaning] at h
        cases h
        exact ⟨_, [], hboth, (List.append_nil _).symm, .escape hmeaning⟩

variable {embedded : Option (Scan Expr)} {opened : Position}

/-- What is read next in a template string: its end, some plain text, or an expression. -/
lemma templatePiece?_eq_ok {piece : Option Piece}
    (h : templatePiece? embedded opened r = .ok piece r₁) :
    (piece = none ∧ r.cursor.Passes ['\x60'] r₁.cursor ∧ r₁.journal = r.journal) ∨
      (∃ raw content events, piece = some (.text content) ∧ r.cursor.Passes raw r₁.cursor ∧
        r₁.journal.toList = r.journal.toList ++ events ∧
          PlainText r.cursor.pos r₁.cursor.rest.head? raw content events) ∨
      ∃ r₀ expr, piece = some (.embedded expr) ∧ r.cursor.Passes ['$', '{'] r₀.cursor ∧
        r₀.journal = r.journal ∧ embeddedExpression embedded r₀ = .ok expr r₁ := by
  cases hrest : r.cursor.rest with
  | nil =>
    rw [templatePiece?, cursor_bind, hrest] at h
    cases h
  | cons c rest =>
    rw [templatePiece?_of_cons opened hrest] at h
    unfold pieceAt at h
    have hpasses := Cursor.passes_next hrest
    by_cases hquote : c = '\x60'
    · subst hquote
      rw [if_pos rfl, bind_apply, skip_apply] at h
      cases h
      exact .inl ⟨rfl, hpasses, rfl⟩
    rw [if_neg hquote] at h
    by_cases hslash : c = '\\'
    · subst hslash
      rw [if_pos rfl] at h
      obtain ⟨content, r₂, hescape, h⟩ := bind_eq_ok h
      obtain ⟨rfl, rfl⟩ := pure_eq_ok h
      obtain ⟨raw, events, hpasses, hjournal, hplain⟩ := templateEscape_plain hrest hescape
      exact .inr (.inl ⟨raw, content, events, rfl, hpasses, hjournal, hplain⟩)
    rw [if_neg hslash] at h
    by_cases hopening : c = '$' ∧ rest.head? = some '{'
    · obtain ⟨rfl, hnext⟩ := hopening
      obtain ⟨rest', rfl⟩ := List.head?_eq_some_iff.mp hnext
      have hboth : r.cursor.Passes ['$', '{'] (r.cursor.drop 2) := by
        have hdrop := r.cursor.passes_drop 2
        rwa [hrest] at hdrop
      rw [if_pos ⟨rfl, rfl⟩, bind_apply, skip_apply] at h
      obtain ⟨expr, r₂, hread, h⟩ := bind_eq_ok h
      obtain ⟨rfl, rfl⟩ := pure_eq_ok h
      exact .inr (.inr ⟨{ r with cursor := r.cursor.drop 2 }, expr, rfl, hboth, rfl, hread⟩)
    · rw [if_neg hopening, bind_apply, skip_apply] at h
      cases h
      refine .inr (.inl ⟨[c], [c], [], rfl, hpasses, (List.append_nil _).symm,
        .char hquote hslash fun hc hnext => hopening ⟨hc, ?_⟩⟩)
      rwa [Cursor.drop, hrest] at hnext

/-- The pieces of a template string are what stands in it. -/
lemma templatePieces_body {depth fuel : Nat} {before pieces : List Piece}
    (h : templatePieces (embeddedReader .standard depth) opened fuel before r = .ok pieces r') :
    ∃ body found events, r.cursor.Passes body r'.cursor ∧
      r'.journal.toList = r.journal.toList ++ events ∧ pieces = before.reverse ++ found ∧
      TemplateBody r.cursor.pos body found events := by
  induction fuel generalizing r before with
  | zero => cases h
  | succ fuel ih =>
    unfold templatePieces at h
    obtain ⟨piece, r₁, hpiece, hrest⟩ := bind_eq_ok h
    rcases templatePiece?_eq_ok hpiece with ⟨rfl, hpasses, hjournal⟩ |
      ⟨raw, content, warnings, rfl, hpasses, hjournal, hplain⟩ |
      ⟨r₀, expr, rfl, hpasses, hjournal, hread⟩
    · obtain ⟨rfl, rfl⟩ := pure_eq_ok hrest
      refine ⟨['\x60'], [], [], hpasses, ?_, (List.append_nil _).symm, .close _⟩
      rw [hjournal, List.append_nil]
    · obtain ⟨body, found, events, hpasses', hjournal', hpieces, hbody⟩ := ih hrest
      rw [hpasses.2] at hbody
      rw [hpasses'.1, hbody.head?_append] at hplain
      refine ⟨raw ++ body, .text content :: found, warnings ++ events, hpasses.append hpasses', ?_,
        ?_, .plain hplain hbody⟩
      · rw [hjournal', hjournal, List.append_assoc]
      · rw [hpieces, List.reverse_cons, List.append_assoc]
        rfl
    · obtain ⟨text, during, hpasses₁, hjournal₁, halone⟩ := standalone_of_embedded hread
      obtain ⟨body, found, events, hpasses', hjournal', hpieces, hbody⟩ := ih hrest
      have hthrough := hpasses.append hpasses₁
      rw [hthrough.2] at hbody
      rw [hpasses.2] at halone
      refine ⟨'$' :: '{' :: text ++ '}' :: body, .embedded expr :: found, _, ?_, ?_, ?_,
        .hole halone hbody⟩
      · have hall := hthrough.append hpasses'
        simpa using hall
      · rw [hjournal', hjournal₁, hjournal, hpasses.2, ← Position.after_append]
        simp
      · rw [hpieces, List.reverse_cons, List.append_assoc]
        rfl

/-! ## Template strings of a source -/

lemma templateLiteral_body {depth : Nat} {t : Token}
    (hquote : r.cursor.peek? = some '\x60')
    (h : templateLiteral (embeddedReader .standard depth) r = .ok t r') :
    ∃ body pieces events, r.cursor.Passes ('\x60' :: body) r'.cursor ∧
      t.span.start = r.cursor.pos ∧ t.lexeme = String.ofList ('\x60' :: body) ∧
      t.value = .template (Piece.parts pieces) ∧
      r'.journal.toList = r.journal.toList ++ events ∧
      TemplateBody (r.cursor.pos.advance '\x60') body pieces events := by
  obtain ⟨rest, hrest⟩ := List.head?_eq_some_iff.mp hquote
  have hopening := Cursor.passes_next hrest
  rw [templateLiteral, cursor_bind, bind_apply, skip_apply] at h
  obtain ⟨pieces, r₁, hread, h⟩ := bind_eq_ok h
  obtain ⟨body, found, events, hpasses, hjournal, hpieces, hbody⟩ := templatePieces_body hread
  rw [List.reverse_nil, List.nil_append] at hpieces
  rw [← hpieces] at hbody
  have hall : r.cursor.Passes ('\x60' :: body) r₁.cursor := hopening.append hpasses
  have hlexeme : r.cursor.textTo r₁.cursor = '\x60' :: body := hall.textTo
  rw [tokenFrom_apply, hlexeme] at h
  cases h
  refine ⟨body, pieces, events, hall, Span.start_new _ _, rfl, rfl, hjournal, ?_⟩
  have hpos : (r.cursor.drop 1).pos = r.cursor.pos.advance '\x60' := hopening.2
  rwa [← hpos]

lemma tokens_found {depth fuel : Nat} {ts : List Token} {t : Token}
    (h : tokens (embeddedReader .standard depth) fuel r = .ok ts r') (ht : t ∈ ts) :
    ∃ r₁ r₂, r.cursor.Leads r₁.cursor ∧ tokenHere (embeddedReader .standard depth) r₁ = .ok t r₂ ∧
      r₂.journal.toList <+: r'.journal.toList := by
  have hembedded := forwardWithin_embeddedReader depth
  have hread := forward_tokenHere hembedded
  induction fuel generalizing r ts with
  | zero => cases h
  | succ fuel ih =>
    unfold tokens token at h
    obtain ⟨u, r₂, htoken, hrest⟩ := bind_eq_ok h
    obtain ⟨_, r₁, hgap, hhere⟩ := bind_eq_ok htoken
    have hgap' := Forward.leads hgap
    split at hrest
    · cases hrest
      cases ht
    · obtain ⟨ts', r₃, htokens, hpure⟩ := bind_eq_ok hrest
      obtain ⟨rfl, rfl⟩ := pure_eq_ok hpure
      rcases List.mem_cons.mp ht with rfl | ht
      · exact ⟨r₁, r₂, hgap', hhere, (forward_tokens hembedded fuel).records htokens⟩
      · obtain ⟨r₄, r₅, hleads, hhere', hrecords⟩ := ih htokens ht
        exact ⟨r₄, r₅, (hgap'.trans (hread.leads hhere)).trans hleads, hhere', hrecords⟩

end Scan

variable {source : String} {tokens : List Token} {t : Token}

lemma found_of_tokenize (h : (tokenize source).result = .ok tokens) (ht : t ∈ tokens) :
    ∃ r r' : Reader, r.cursor.Reads source.toList ∧
      Scan.tokenHere (embeddedReader .standard source.toList.length) r = .ok t r' ∧
      r'.journal.toList <+: (tokenize source).journal.toList := by
  unfold tokenize at h ⊢
  cases hrun : Scan.tokens (embeddedReader .standard source.toList.length)
      (source.toList.length + 1) (Reader.ofText source.toList) with
  | error d r => simp [hrun] at h
  | ok ts r =>
    simp only [hrun, Except.ok.injEq] at h ⊢
    subst h
    obtain ⟨r₁, r₂, hleads, hhere, hrecords⟩ := Scan.tokens_found hrun ht
    exact ⟨r₁, r₂, (Cursor.reads_ofText source.toList).leads hleads, hhere, hrecords⟩

/-- Expressions in template strings stand on their own: a template string of a source is a backtick,
plain text and expressions in braces, and a backtick, and of each expression the tree in the token
and the warnings on the way are those of parsing its text alone, moved to where it stands. -/
theorem template_expressions_standalone (h : (tokenize source).result = .ok tokens)
    (ht : t ∈ tokens) (hkind : t.kind = .templateStringLiteral) :
    ∃ before body behind pieces events,
      source.toList = before ++ '\x60' :: (body ++ behind) ∧
      t.span.start = Position.start.after before ∧ t.lexeme = String.ofList ('\x60' :: body) ∧
      t.value = .template (Scan.Piece.parts pieces) ∧
      events <:+: (tokenize source).journal.toList ∧
      TemplateBody (Position.start.after (before ++ ['\x60'])) body pieces events := by
  obtain ⟨r, r', ⟨before, hsource, hpos⟩, hhere, hrecords⟩ := found_of_tokenize h ht
  obtain ⟨hquote, hliteral⟩ := Scan.tokenHere_template hhere hkind
  obtain ⟨body, pieces, events, hpasses, hstart, hlexeme, hvalue, hjournal, hbody⟩ :=
    Scan.templateLiteral_body hquote hliteral
  refine ⟨before, body, r'.cursor.rest, pieces, events, ?_, hstart.trans hpos, hlexeme, hvalue,
    ?_, ?_⟩
  · rw [hsource, hpasses.1]
    rfl
  · obtain ⟨later, hlater⟩ := hrecords
    exact ⟨r.journal.toList, later, by rw [← hlater, hjournal]⟩
  · rw [Position.after_append, ← hpos]
    exact hbody

/-- A template string in another, with a warning inside. -/
theorem template_expressions_standalone_nested :
    ∃ tokens t, (tokenize "f `x$\x7b `$\x7b01\x7d` \x7d`").result = .ok tokens ∧ t ∈ tokens ∧
      t.kind = .templateStringLiteral ∧
      ∃ before body behind pieces events,
        "f `x$\x7b `$\x7b01\x7d` \x7d`".toList = before ++ '\x60' :: (body ++ behind) ∧
        t.span.start = Position.start.after before ∧ t.lexeme = String.ofList ('\x60' :: body) ∧
        t.value = .template (Scan.Piece.parts pieces) ∧
        events <:+: (tokenize "f `x$\x7b `$\x7b01\x7d` \x7d`").journal.toList ∧
        TemplateBody (Position.start.after (before ++ ['\x60'])) body pieces events := by
  have hrun : (tokenize "f `x$\x7b `$\x7b01\x7d` \x7d`").result.toOption.map (·.map Token.kind) =
      some [.identifier, .templateStringLiteral] := by
    decide +kernel
  obtain ⟨tokens, hresult, hkinds⟩ := Outcome.eq_ok_of_map hrun
  have hmem : TokenKind.templateStringLiteral ∈ tokens.map Token.kind := by
    rw [hkinds]
    decide
  obtain ⟨t, ht, hkind⟩ := List.mem_map.mp hmem
  exact ⟨tokens, t, hresult, ht, hkind, template_expressions_standalone hresult ht hkind⟩

end FrontEnd
