import FrontEnd.Proofs.Eager

/-!
# Brackets around a program

A program that is an expression can be put in parentheses, in braces, in square brackets or in a
template string. What is read there is the same expression, moved behind the opening text, with the
same warnings: no production treats the end of the source and what closes a bracket differently.
-/

namespace FrontEnd

open Parse

/-! ## A program as a text -/

lemma excerpt_of_parse {source : String} {e : Expr}
    (h : (parse source).result = .ok (some e)) :
    ∃ s, Excerpt (.ofText .standard source.toList) (.ofText source.toList) source.toList [] e s ∧
      (parse source).warnings = s.reader.journal.warnings := by
  have hforward := forwardWithin_embeddedReader source.toList.length
  rw [parse_eq] at h ⊢
  dsimp only at h ⊢
  cases hrun : Production.program (Setting.ofText source.toList).session
      (Stream.ofReader (Setting.ofText source.toList).start) with
  | error d s =>
    rw [hrun] at h
    cases h
  | ok program s =>
    rw [hrun] at h
    cases h
    obtain ⟨s₁, last, hexpression, hlast, hend, hreader⟩ := program_eq_ok rfl hrun
    have hfrugal : s₁.Frugal (embeddedReader .standard source.toList.length) source.toList.length :=
      Steady.keeps rfl (Stream.Frugal.invariant hforward _) (.ofReader _) hexpression
    have hresume : s₁.resumeCursor.rest = [] := by
      rw [Stream.resumeCursor, hlast]
      exact (hfrugal.found hlast).rest_eq_nil hforward (beq_iff_eq.mpr hend)
    refine ⟨s₁, ⟨rfl, hforward, hexpression, (List.append_nil _).symm, hresume, .inl rfl⟩, ?_⟩
    exact congrArg (Journal.warnings ·.journal) hreader

/-- The text of a program is the same expression behind another text, if a newline and a token that
ends expressions follow it. -/
lemma Excerpt.elsewhere {text tail : List Char} {e : Expr} {s s' : Stream} {σ : Session}
    {follows : Lexed → Prop} {depth fuel : Nat}
    (h : Excerpt (.ofText .standard text) (.ofText text) text [] e s)
    (hready : Ready σ text ('\n' :: tail) follows s')
    (hembedded : σ.embedded = embeddedReader .standard depth) (hdepth : text.length ≤ depth)
    (hwarned : s'.reader.journal.warnings = []) (hfuel : text.length < fuel) :
    let moved := Span.translate s'.reader.cursor.pos text
    ∃ s₁ last, Production.expressionWithin fuel .lowest σ s' = .ok (respan moved e) s₁ ∧
      s₁.reader.journal.warnings = respan moved s.reader.journal.warnings ∧
        s₁.buffer[s₁.index]? = some last ∧ follows last := by
  intro moved
  let S : Scene :=
    { (Relocation.outward s'.reader.cursor.pos text).flip with
      tail := []
      tail' := '\n' :: tail
      neutral' := fun c hc => Option.some_inj.mp hc ▸ by decide
      ends := fun _ c hc => (Option.some_inj.mp hc).symm
      raised := []
      raised' := [] }
  have hembeds : S.Embeds text.length (Session.ofText .standard text).embedded σ.embedded := by
    rw [hembedded]
    exact S.embeds text.length hdepth
  obtain ⟨e', s₁, last, hrun, he, ⟨ws, ws', hws, hws', hrel⟩, hlast, hfollows⟩ :=
    S.expression h hready hembeds (Relocation.outward_place _ _)
      ⟨[], [], rfl, by rw [hwarned]; rfl, rfl⟩ hfuel
  have he' : respan moved e = respan id e' := he
  have hrel' : respan moved ws = respan id ws' := hrel
  rw [respan_id] at he' hrel'
  rw [List.nil_append] at hws hws'
  exact ⟨s₁, last, he' ▸ hrun, by rw [hws, hws', hrel'], hlast, hfollows⟩

/-! ## The end of the source -/

/-- Behind a token that takes up all that is left of a source, only its end is found. -/
lemma Setting.At.peek_end {K : Setting} {before : List Token} {s : Stream} {last : Lexed}
    (h : K.At before s) (hlast : s.buffer[s.index]? = some last)
    (hall : last.token.lexeme = String.ofList last.start.rest) :
    ∃ t s', Parse.peek K.session s.step = .ok t s' ∧ t.isEnd = true ∧
      s'.reader.journal = s.reader.journal := by
  obtain ⟨ws, hrun, -⟩ := h.run
  obtain ⟨xs, ys, hsplit, -, hnext⟩ := h.split
  obtain ⟨ys, rfl⟩ : ∃ ys', ys = last :: ys' := by
    have hhead := hnext 0
    rw [Nat.add_zero, hlast] at hhead
    cases ys with
    | nil => cases hhead
    | cons y ys => exact ⟨ys, by rw [Option.some_inj.mp hhead]⟩
  rw [hsplit] at hrun
  obtain ⟨c₁, us, _, -, _ | @⟨_, _, _, c₂, _, _, _, hfinds, hback⟩, -⟩ := Scan.run_append.mp hrun
  have hnil : c₂.rest = [] := by
    obtain ⟨-, ⟨text, hcovers⟩ | ⟨-, hnil, rfl, -⟩⟩ := hfinds.cases K.forward
    · rw [hcovers.lexeme_eq, String.ofList_inj] at hall
      have hlength := hcovers.passes.length_rest
      rw [hall] at hlength
      exact List.length_eq_zero_iff.mp (by omega)
    · exact hnil
  obtain ⟨hends, hrest, -⟩ := hback.at_end K.forward hnil
  rw [Parse.peek, peekAhead_apply, Nat.add_zero, Stream.step_index, Stream.step_buffer, hnext 1]
  cases ys with
  | cons y ys => exact ⟨y.token, s.step, rfl, hends y List.mem_cons_self, rfl⟩
  | nil =>
    obtain ⟨r₁, t, r₂, hgap, htoken, -, hjournal, hend⟩ :=
      closed_end K.session.embedded s.reader hrest
    have hsize : s.index + 1 - s.buffer.size = 0 := by
      have hlt := (Array.getElem?_eq_some_iff.mp hlast).1
      omega
    refine ⟨t, ⟨r₂, s.buffer.push ⟨t, r₁.cursor⟩, s.index + 1⟩, ?_, beq_iff_eq.mpr hend, hjournal⟩
    change scanPast (s.index + 1 - s.buffer.size) K.session s.step = _
    rw [hsize, scanPast, scanNext_apply, Stream.step_reader, hgap]
    dsimp only
    rw [htoken]
    rfl

section Ends

variable {σ : Session} {s s' : Stream} {t : Token}

lemma opener_of_opening (hσ : σ.grammar = .standard) (hpeek : peek σ s = .ok t s')
    {opening : Opening} (hopening : Grammar.standard.opening? t.kind = some opening)
    (haccepts : opening.accepts t = true) :
    Production.opener σ s = .ok (t, opening) s'.step := by
  have hselect : ((σ.grammar.opening? t.kind).filter (·.accepts t)).map (t, ·) =
      some (t, opening) := by
    rw [hσ, hopening, Option.filter_some, if_pos haccepts]
    rfl
  rw [Production.opener, bind_apply, read_apply]
  dsimp only
  rw [accept_apply, hpeek]
  dsimp only
  rw [hselect]

lemma extend_at_end (hσ : σ.grammar = .standard) (hpeek : peek σ s = .ok t s')
    (hend : t.isEnd = true) {expr : Precedence → Parse Expr} {least : Precedence} {fuel : Nat}
    (left : Expr) : Production.extend expr least (fuel + 1) left σ s = .ok left s' := by
  have hselect : ((σ.grammar.continuation? t.kind).filter (·.level.exceeds least)).map (t, ·) =
      none := by
    rw [hσ, beq_iff_eq.mp hend]
    rfl
  rw [Production.extend, bind_apply, Production.continuer, bind_apply, read_apply]
  dsimp only
  rw [takeIf_apply, hpeek]
  dsimp only
  rw [hselect]
  rfl

end Ends

lemma parse_of_opened {text : List Char} {t : Token} {opening : Opening} {e : Expr}
    {before : List Token} {s s₁ : Stream} {last : Lexed}
    (hpeek : peek (.ofText .standard text) (.ofReader (.ofText text)) = .ok t s)
    (hopening : Grammar.standard.opening? t.kind = some opening)
    (haccepts : opening.accepts t = true)
    (hrun : Production.opened (Production.expressionWithin (text.length + 1)) opening t
      (.ofText .standard text) (s.step.record (.enter opening.name t.lexeme t.span)) =
        .ok e s₁.step)
    (hat : (Setting.ofText text).At before s₁) (hlast : s₁.buffer[s₁.index]? = some last)
    (hall : last.token.lexeme = String.ofList last.start.rest) :
    (parse (String.ofList text)).result = .ok (some e) ∧
      (parse (String.ofList text)).warnings = s₁.reader.journal.warnings := by
  have hleft : (Setting.ofText text).At before (s₁.record (.leave opening.name true)) :=
    hat.record fun _ => rfl
  obtain ⟨u, s₂, hpeek', hend, hjournal⟩ := hleft.peek_end hlast hall
  obtain ⟨-, next, hnext, rfl⟩ := peek_eq_ok hpeek'
  have hexpression : Production.expression .lowest (.ofText .standard text)
      (.ofReader (.ofText text)) = .ok e s₂ := by
    change Production.expressionLayer (Production.expressionWithin (text.length + 1)) .lowest
      (.ofText .standard text) (.ofReader (.ofText text)) = _
    rw [Production.expressionLayer, bind_apply, opener_of_opening rfl hpeek hopening haccepts]
    dsimp only
    rw [Production.expressionFrom, bind_apply, traced_apply, hrun]
    exact extend_at_end rfl hpeek' hend e
  have hprogram := program_of_expression rfl hexpression hnext (beq_iff_eq.mp hend)
  rw [parse, String.toList_ofList, hprogram]
  exact ⟨rfl, (congrArg Journal.warnings hjournal).trans (Journal.warnings_push_other _ rfl)⟩

/-! ## Brackets -/

/-- A production encloses an expression: it ends with the token that closes it, right behind the
expression. -/
def Encloses (opening : Opening) (close : TokenKind) (form : Expr → Span → Form Expr) : Prop :=
  ∀ ⦃σ : Session⦄ ⦃fuel : Nat⦄ ⦃s s₁ : Stream⦄ ⦃e : Expr⦄ ⦃last : Lexed⦄ (token : Token),
    σ.grammar = .standard → 1 < σ.limit →
    Production.expressionWithin fuel .lowest σ s = .ok e s₁ →
    s₁.buffer[s₁.index]? = some last → last.token.kind = close →
    let span := token.span.merge s₁.step.previousSpan
    Production.opened (Production.expressionWithin fuel) opening token σ s =
      .ok ⟨form e span, span⟩ s₁.step

lemma encloses_group : Encloses .group .rightParen fun e _ => .group e := by
  intro σ fuel s s₁ e last token hσ hlimit hrun hlast hclose
  rw [Production.opened, Production.group, bind_apply, hrun]
  dsimp only
  rw [bind_apply, discard_eq, bind_apply, consume_of_buffered hlast, if_pos hclose]
  rfl

lemma kind_ne_of_opening {t : Token} {opening : Opening} {kind : TokenKind}
    (h : Grammar.standard.opening? t.kind = some opening)
    (hkind : Grammar.standard.opening? kind = none) : t.kind ≠ kind := by
  rintro rfl
  rw [hkind] at h
  cases h

lemma encloses_block : Encloses .block .rightBrace fun e span => .block ⟨some e, none, span⟩ := by
  intro σ fuel s s₁ e last token hσ hlimit hrun hlast hclose
  obtain ⟨t, s₂, opening, hpeek, hopening, hagain⟩ := expressionWithin_peek hσ hrun
  have hbody : (t.kind == .rightBrace) = false :=
    beq_eq_false_iff_ne.mpr (kind_ne_of_opening hopening rfl)
  have hcontent : Production.blockContent (Production.expressionWithin fuel) σ s =
      .ok (some e) s₁ := by
    rw [Production.blockContent, bind_apply, nextIs_apply, hpeek]
    dsimp only
    rw [hbody, if_neg Bool.false_ne_true, bind_apply, hagain]
    rfl
  rw [Production.opened, Production.block, Production.blockBody, bind_apply, bind_apply, hcontent]
  dsimp only
  rw [bind_apply, discard_eq, bind_apply, consume_of_buffered hlast, if_pos hclose]
  rfl

lemma eat_of_peek {σ : Session} {s s' : Stream} {t : Token} (hpeek : peek σ s = .ok t s')
    (kind : TokenKind) :
    eat kind σ s = if t.kind = kind then .ok true s'.step else .ok false s' := by
  rw [eat, take?, bind_apply, takeIf_apply, hpeek]
  unfold Token.ofKind?
  by_cases hkind : t.kind = kind <;> simp only [hkind, if_true, if_false] <;> rfl

lemma encloses_list : Encloses .list .rightBracket fun e _ => .list [e] := by
  intro σ fuel s s₁ e last token hσ hlimit hrun hlast hclose
  obtain ⟨t, s₂, opening, hpeek, hopening, hagain⟩ := expressionWithin_peek hσ hrun
  have hcomma : (t.kind == .comma) = false :=
    beq_eq_false_iff_ne.mpr (kind_ne_of_opening hopening rfl)
  have hseparated : Production.separated .rightBracket σ s₁ = .ok true s₁ := by
    rw [Production.separated, bind_apply, eat_of_peek (peek_of_buffered hlast), hclose,
      if_neg (by decide)]
    dsimp only
    rw [if_neg Bool.false_ne_true, nextIs_apply, peek_of_buffered hlast]
    dsimp only
    rw [hclose]
    rfl
  obtain ⟨limit, hlimit⟩ : ∃ n, σ.limit = n + 2 := ⟨σ.limit - 2, by omega⟩
  have helements : Production.elements .rightBracket Production.listRules
      (Production.expressionWithin fuel .lowest) (limit + 2) σ s = .ok [e] s₁.step := by
    rw [Production.elements, bind_apply, eat_of_peek hpeek,
      if_neg (kind_ne_of_opening hopening rfl)]
    dsimp only
    rw [if_neg Bool.false_ne_true, bind_apply, nextIs_apply, peek_again hpeek]
    dsimp only
    rw [hcomma, if_neg Bool.false_ne_true, bind_apply, hagain]
    dsimp only
    rw [bind_apply, hseparated]
    dsimp only
    rw [if_pos rfl, bind_apply, Production.elements, bind_apply,
      eat_of_peek (peek_of_buffered hlast), if_pos hclose]
    rfl
  rw [Production.opened, Production.list, Production.commaSeparated, bind_apply, bind_apply,
    read_apply]
  dsimp only
  rw [hlimit, helements]
  rfl

lemma peek_of_tokenHere {σ : Session} {r r' : Reader} {t : Token}
    (hgap : Scan.skipGap r = .ok () r) (htoken : Scan.tokenHere σ.embedded r = .ok t r') :
    peek σ (.ofReader r) = .ok t ⟨r', #[⟨t, r.cursor⟩], 0⟩ := by
  rw [peek, peekAhead_apply]
  change scanPast 0 σ (.ofReader r) = _
  rw [scanPast, scanNext_apply, Stream.ofReader, hgap]
  dsimp only
  rw [htoken]
  rfl

lemma peek_bracket {σ : Session} {r : Reader} {c : Char} {kind : TokenKind} {rest : List Char}
    (hc : Scan.bracket? c = some kind) (hrest : r.cursor.rest = c :: rest) :
    ∃ t, t.kind = kind ∧ peek σ (.ofReader r) =
      .ok t ⟨{ r with cursor := r.cursor.drop 1 }, #[⟨t, r.cursor⟩], 0⟩ :=
  ⟨_, rfl, peek_of_tokenHere (Scan.skipGap_bracket hc hrest)
    (Scan.tokenHere_bracket σ.embedded hc hrest)⟩

section Bracketed

variable {text : List Char} {e : Expr} {s : Stream} {c c' : Char} {kind kind' : TokenKind}

/-- A program between brackets is enclosed by them. -/
lemma Excerpt.parse_bracketed
    (h : Excerpt (.ofText .standard text) (.ofText text) text [] e s)
    (hc : Scan.bracket? c = some kind) (hc' : Scan.bracket? c' = some kind')
    (hends : Production.endsStatements kind' = true) {opening : Opening}
    (hopening : Grammar.standard.opening? kind = some opening)
    (haccepts : ∀ t, opening.accepts t = true) {form : Expr → Span → Form Expr}
    (hencloses : Encloses opening kind' form) :
    let moved := Span.translate (Position.start.advance c) text
    let outcome := parse (String.ofList (c :: (text ++ ['\n', c'])))
    (∃ span, outcome.result = .ok (some ⟨form (respan moved e) span, span⟩)) ∧
      outcome.warnings = respan moved s.reader.journal.warnings := by
  intro moved outcome
  let K := Setting.ofText (c :: (text ++ ['\n', c']))
  obtain ⟨t, rfl, hpeek⟩ := peek_bracket (σ := K.session) (r := K.start) hc rfl
  let s₀ : Stream := ⟨⟨K.start.cursor.drop 1, #[.enter opening.name t.lexeme t.span]⟩,
    #[⟨t, K.start.cursor⟩], 1⟩
  have hready : Ready K.session text ['\n', c'] (fun last => last.token.kind = kind' ∧
      last.token.lexeme = String.ofList [c'] ∧ last.start.rest = [c']) s₀ :=
    { grammar := rfl
      fresh := rfl
      rest := rfl
      closed := (closed_bracket _ hc' hends []).newline
      limit := by simp [K, Setting.ofText, Session.ofText]; omega }
  have hlength : text.length < (c :: (text ++ ['\n', c'])).length + 1 := by
    rw [List.length_cons, List.length_append]
    omega
  obtain ⟨s₂, last, hrun, hwarned, hlast, hclose, hlexeme, hstart⟩ :=
    h.elsewhere hready rfl (by simp; omega) rfl hlength
  have hsees := K.at_start.peek
  rw [hpeek] at hsees
  have hat : K.At [t] s₀ :=
    (hsees.step (beq_eq_false_iff_ne.mpr (kind_ne_of_opening hopening rfl))).record fun _ => rfl
  have hfuel : K.Affords [t] ((c :: (text ++ ['\n', c'])).length + 1) :=
    fun _ => Nat.lt_add_left _ (Nat.lt_succ_self _)
  obtain ⟨ts, hat', -⟩ :=
    (Setting.Reads.expressionWithin (Language.closed_any K) hfuel).eq_ok hat hrun
  obtain ⟨hresult, hwarnings⟩ := parse_of_opened hpeek hopening (haccepts t)
    (hencloses t rfl (Nat.le_add_left 2 _) hrun hlast hclose) hat' hlast (by rw [hlexeme, hstart])
  exact ⟨⟨_, hresult⟩, hwarnings.trans hwarned⟩

end Bracketed

/-! ## Template strings -/

section Embedded

variable {text : List Char} {e : Expr} {s : Stream} {r : Reader} {depth : Nat} {rest : List Char}

lemma Excerpt.embeddedExpression
    (h : Excerpt (.ofText .standard text) (.ofText text) text [] e s) (hdepth : text.length ≤ depth)
    (hrest : r.cursor.rest = text ++ '\n' :: '}' :: rest) (hwarned : r.journal.warnings = []) :
    let moved := Span.translate r.cursor.pos text
    ∃ r', Scan.embeddedExpression (embeddedReader .standard (depth + 1)) r =
        .ok (respan moved e) r' ∧
      r'.cursor.rest = rest ∧
        r'.journal.warnings = respan moved s.reader.journal.warnings := by
  intro moved
  let r₁ := r.record (.templateOpened r.cursor.pos)
  let σ : Session := ⟨.standard, embeddedReader .standard depth, r₁.cursor.rest.length + 2⟩
  have hlength : text.length < r₁.cursor.rest.length + 2 := by
    change text.length < r.cursor.rest.length + 2
    rw [hrest, List.length_append]
    omega
  have hready : Ready σ text ('\n' :: '}' :: rest) (fun last => last.token.kind = .rightBrace ∧
      last.token.lexeme = String.ofList ['}'] ∧ last.start.rest = '}' :: rest) (.ofReader r₁) :=
    ⟨rfl, rfl, hrest, (closed_bracket _ Scan.bracket?_brace rfl rest).newline, hlength⟩
  obtain ⟨s₁, last, hrun, hwarned', hlast, -, -, hstart⟩ :=
    h.elsewhere hready rfl hdepth ((Journal.warnings_push_other _ rfl).trans hwarned) hlength
  have hresume : s₁.resumeCursor.rest = '}' :: rest := by
    rw [Stream.resumeCursor, hlast, hstart]
  refine ⟨_, Scan.embeddedExpression_of_ok (readEmbedded_of_ok hrun) hresume, ?_, ?_⟩
  · change (s₁.resumeCursor.rest.drop 1) = rest
    rw [hresume]
    rfl
  · exact (Journal.warnings_push_other _ rfl).trans hwarned'

/-- A program in a template string that holds nothing else. -/
lemma Excerpt.tokenHere (h : Excerpt (.ofText .standard text) (.ofText text) text [] e s)
    (hdepth : text.length ≤ depth)
    (hrest : r.cursor.rest = ['\x60', '$', '{'] ++ (text ++ ['\n', '}', '\x60']))
    (hwarned : r.journal.warnings = []) :
    let moved := Span.translate (r.cursor.pos.after ['\x60', '$', '{']) text
    ∃ t r', Scan.tokenHere (embeddedReader .standard (depth + 1)) r = .ok t r' ∧
      t.kind = .templateStringLiteral ∧ t.value = .template [.embedded (respan moved e)] ∧
        t.lexeme = String.ofList r.cursor.rest ∧
          r'.journal.warnings = respan moved s.reader.journal.warnings := by
  intro moved
  let r₁ : Reader := { r with cursor := (r.cursor.drop 1).drop 2 }
  have hrest₁ : r₁.cursor.rest = text ++ ['\n', '}', '\x60'] := by
    change (r.cursor.rest.drop 1).drop 2 = _
    rw [hrest]
    rfl
  have hplace : r₁.cursor.pos = r.cursor.pos.after ['\x60', '$', '{'] := by
    change (r.cursor.pos.after (r.cursor.rest.take 1)).after ((r.cursor.rest.drop 1).take 2) = _
    rw [hrest]
    rfl
  obtain ⟨r₂, hread, hrest₂, hwarned₂⟩ := h.embeddedExpression hdepth hrest₁ hwarned
  rw [hplace] at hread hwarned₂
  have hfirst : Scan.templatePiece? (embeddedReader .standard (depth + 1)) r.cursor.pos
      { r with cursor := r.cursor.drop 1 } = .ok (some (.embedded (respan moved e))) r₂ := by
    have hnext : (r.cursor.drop 1).rest = '$' :: '{' :: (text ++ ['\n', '}', '\x60']) := by
      change r.cursor.rest.drop 1 = _
      rw [hrest]
      rfl
    rw [Scan.templatePiece?_of_cons _ hnext, Scan.pieceAt, if_neg (by decide), if_neg (by decide),
      if_pos ⟨rfl, rfl⟩, Scan.bind_apply, Scan.skip_apply]
    dsimp only
    rw [Scan.bind_apply, hread]
    rfl
  have hlast : Scan.templatePiece? (embeddedReader .standard (depth + 1)) r.cursor.pos r₂ =
      .ok none { r₂ with cursor := r₂.cursor.drop 1 } := by
    rw [Scan.templatePiece?, Scan.cursor_bind, hrest₂]
    rfl
  have hpieces : Scan.templatePieces (embeddedReader .standard (depth + 1)) r.cursor.pos
      (r.cursor.rest.length + 1) [] { r with cursor := r.cursor.drop 1 } =
        .ok [.embedded (respan moved e)] { r₂ with cursor := r₂.cursor.drop 1 } := by
    obtain ⟨fuel, hfuel⟩ : ∃ n, r.cursor.rest.length = n + 1 := by
      rw [hrest]
      exact ⟨_, rfl⟩
    rw [hfuel, Scan.templatePieces, Scan.bind_apply, hfirst]
    dsimp only
    rw [Scan.templatePieces, Scan.bind_apply, hlast]
    rfl
  let t : Token := ⟨.templateStringLiteral, .template [.embedded (respan moved e)],
    (r₂.cursor.drop 1).spanFrom r.cursor.pos, String.ofList (r.cursor.textTo (r₂.cursor.drop 1))⟩
  have htoken : Scan.tokenHere (embeddedReader .standard (depth + 1)) r =
      .ok t { r₂ with cursor := r₂.cursor.drop 1 } := by
    rw [Scan.tokenHere, Scan.cursor_bind, hrest]
    change Scan.templateLiteral _ r = _
    rw [Scan.templateLiteral, Scan.cursor_bind, Scan.bind_apply, Scan.skip_apply]
    dsimp only
    rw [Scan.bind_apply, hpieces]
    rfl
  refine ⟨t, _, htoken, rfl, rfl, ?_, hwarned₂⟩
  obtain ⟨all, hcovers⟩ := Scan.tokenHere_covers (forwardWithin_embeddedReader (depth + 1))
    (by rw [hrest]; exact List.cons_ne_nil _ _) htoken
  have hall := hcovers.passes.1
  rw [show (r₂.cursor.drop 1).rest = [] by rw [Cursor.drop, hrest₂]; rfl, List.append_nil] at hall
  rw [hcovers.lexeme_eq, hall]

/-- A program in a template string is the only part of it. -/
lemma Excerpt.parse_template (h : Excerpt (.ofText .standard text) (.ofText text) text [] e s) :
    let moved := Span.translate (Position.start.after ['\x60', '$', '{']) text
    let outcome := parse (String.ofList (['\x60', '$', '{'] ++ (text ++ ['\n', '}', '\x60'])))
    (∃ span, outcome.result =
        .ok (some ⟨.literal (.template [.embedded (respan moved e)]), span⟩)) ∧
      outcome.warnings = respan moved s.reader.journal.warnings := by
  intro moved outcome
  let K := Setting.ofText (['\x60', '$', '{'] ++ (text ++ ['\n', '}', '\x60']))
  obtain ⟨t, r, htoken, hkind, hvalue, hlexeme, hwarned⟩ :=
    h.tokenHere (r := K.start) (Nat.le_add_right text.length 5) rfl rfl
  have hembedded : K.session.embedded = embeddedReader .standard (text.length + 5 + 1) := by
    change embeddedReader .standard _ = _
    rw [List.length_append, List.length_append]
    congr 1
    simp only [List.length_cons, List.length_nil]
    omega
  rw [← hembedded] at htoken
  have hpeek := peek_of_tokenHere (σ := K.session) (r := K.start) rfl htoken
  have hopening : Grammar.standard.opening? t.kind = some .literal := by
    rw [hkind]
    rfl
  have hsees := K.at_start.peek
  rw [hpeek] at hsees
  let entered : Event := .enter Opening.literal.name t.lexeme t.span
  have hrun : Production.opened (Production.expressionWithin (K.start.cursor.rest.length + 1))
      .literal t K.session ((⟨r, #[⟨t, K.start.cursor⟩], 0⟩ : Stream).step.record entered) =
        .ok ⟨.literal (.template [.embedded (respan moved e)]), t.span⟩
          ((⟨r, #[⟨t, K.start.cursor⟩], 0⟩ : Stream).record entered).step := by
    rw [Production.opened, Production.literal, hvalue]
    rfl
  obtain ⟨hresult, hwarnings⟩ :=
    parse_of_opened hpeek hopening rfl hrun (hsees.1.record fun _ => rfl) rfl hlexeme
  exact ⟨⟨_, hresult⟩, hwarnings.trans ((Journal.warnings_push_other _ rfl).trans hwarned)⟩

end Embedded

/-! ## Programs -/

/-- A source stands between an opening text and, on a new line, a closing one, and what it reads as
there is what it is on its own, in the given form: the expression and the warnings are moved behind
the opening text, and nothing else changes. -/
def Wraps (source : String) (e : Expr) (opening closing : String)
    (form : Expr → Span → Form Expr) : Prop :=
  let moved := Span.translate (Position.start.after opening.toList) source.toList
  let outcome := parse (opening ++ source ++ "\n" ++ closing)
  (∃ span, outcome.result = .ok (some ⟨form (respan moved e) span, span⟩)) ∧
    outcome.warnings = respan moved (parse source).warnings

/-- A program that is an expression is the same expression in parentheses, as the body of a block,
as the element of a list and in a template string. -/
theorem parse_wrapped {source : String} {e : Expr} (h : (parse source).result = .ok (some e)) :
    Wraps source e "(" ")" (fun e _ => .group e) ∧
      Wraps source e "\x7b" "\x7d" (fun e span => .block ⟨some e, none, span⟩) ∧
      Wraps source e "[" "]" (fun e _ => .list [e]) ∧
      Wraps source e "`$\x7b" "\x7d`" (fun e _ => .literal (.template [.embedded e])) := by
  obtain ⟨s, hexcerpt, hwarned⟩ := excerpt_of_parse h
  have htext (opening closing : String) : opening ++ source ++ "\n" ++ closing =
      String.ofList (opening.toList ++ (source.toList ++ '\n' :: closing.toList)) := by
    rw [← String.toList_inj]
    simp
  refine ⟨?_, ?_, ?_, ?_⟩
  · rw [Wraps, htext, hwarned]
    exact hexcerpt.parse_bracketed rfl rfl rfl rfl (fun _ => rfl) encloses_group
  · rw [Wraps, htext, hwarned]
    exact hexcerpt.parse_bracketed rfl rfl rfl rfl (fun _ => rfl) encloses_block
  · rw [Wraps, htext, hwarned]
    exact hexcerpt.parse_bracketed rfl rfl rfl rfl (fun _ => rfl) encloses_list
  · rw [Wraps, htext, hwarned]
    exact hexcerpt.parse_template

/-- A comment at the end does not swallow what closes a bracket. -/
theorem parse_wrapped_comment :
    let source := "let n: M = 01; `${n}`; return // done"
    ∃ e, (parse source).result = .ok (some e) ∧ (parse source).warnings.length = 1 ∧
      Wraps source e "(" ")" (fun e _ => .group e) ∧
      Wraps source e "\x7b" "\x7d" (fun e span => .block ⟨some e, none, span⟩) ∧
      Wraps source e "[" "]" (fun e _ => .list [e]) ∧
      Wraps source e "`$\x7b" "\x7d`" (fun e _ => .literal (.template [.embedded e])) := by
  intro source
  have hparse : (parse source).result.toOption.map Option.isSome = some true := by decide +kernel
  have hwarned : (parse source).warnings.length = 1 := by decide +kernel
  obtain ⟨program, hprogram, hsome⟩ := Outcome.eq_ok_of_map hparse
  obtain ⟨e, rfl⟩ := Option.isSome_iff_exists.mp hsome
  exact ⟨e, hprogram, hwarned, parse_wrapped hprogram⟩

end FrontEnd
