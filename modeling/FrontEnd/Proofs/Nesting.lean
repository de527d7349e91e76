import FrontEnd.Proofs.Halting
import FrontEnd.Proofs.Replay

/-!
# Expressions in template strings nest

A text that makes up an expression where it stands makes up the same expression elsewhere. The
expressions in template strings are read by runs of their own, so this is shown for them first, one
template deeper at a time.
-/

namespace FrontEnd

open Parse

/-! ## What stands behind a text -/

lemma closed_end (embedded : Option (Scan Expr)) :
    Closed embedded [] fun lexed => lexed.token.kind = .endOfInput := by
  intro r hrest
  refine ⟨r, _, r, ?_, Scan.tokenHere_at_end embedded hrest, rfl, rfl, rfl⟩
  obtain ⟨⟨_, pos⟩, journal⟩ := r
  cases hrest
  rfl

lemma closed_bracket (embedded : Option (Scan Expr)) {c : Char} {kind : TokenKind}
    (hc : Scan.bracket? c = some kind) (hkind : Production.endsStatements kind = true)
    (rest : List Char) :
    Closed embedded (c :: rest) fun lexed => lexed.token.kind = kind ∧
      lexed.token.lexeme = String.ofList [c] ∧ lexed.start.rest = c :: rest := by
  intro r hrest
  exact ⟨r, _, _, Scan.skipGap_bracket hc hrest, Scan.tokenHere_bracket embedded hc hrest, hkind,
    rfl, rfl, rfl, hrest⟩

lemma Closed.newline {embedded : Option (Scan Expr)} {tail : List Char} {follows : Lexed → Prop}
    (h : Closed embedded tail follows) : Closed embedded ('\n' :: tail) follows := by
  intro r hrest
  obtain ⟨r₁, t, r₂, hgap, htoken, hcloses, hjournal, hfollows⟩ :=
    h { r with cursor := r.cursor.drop 1 } (by rw [Cursor.drop, hrest]; rfl)
  refine ⟨r₁, t, r₂, ?_, htoken, hcloses, hjournal, hfollows⟩
  rw [← hgap]
  obtain ⟨⟨_, pos⟩, journal⟩ := r
  cases hrest
  rfl

/-! ## Expressions that take up a text -/

/-- An expression that a stream of its own reads from `r` on, and that takes up `text`. -/
structure Excerpt (σ : Session) (r : Reader) (text tail : List Char) (e : Expr) (s : Stream) :
    Prop where
  grammar : σ.grammar = .standard
  forward : Scan.ForwardWithin σ.embedded
  run : Production.expression .lowest σ (Stream.ofReader r) = .ok e s
  rest : r.cursor.rest = text ++ tail
  resume : s.resumeCursor.rest = tail
  clean : tail = [] ∨ ∃ rest, tail = '}' :: rest

namespace Excerpt

variable {σ : Session} {r : Reader} {text tail : List Char} {e : Expr} {s : Stream}

lemma frugal (h : Excerpt σ r text tail e s) : s.Frugal σ.embedded r.cursor.rest.length :=
  Steady.keeps h.grammar (Stream.Frugal.invariant h.forward _) (.ofReader r) h.run

lemma last (h : Excerpt σ r text tail e s) :
    ∃ last, s.buffer[s.index]? = some last ∧ last.start.rest = tail ∧ last.token.closes = true := by
  obtain ⟨last, hlast, -⟩ := expressionWithin_halts h.grammar h.run
  have hstart : last.start.rest = tail := by
    rw [← h.resume, Stream.resumeCursor, hlast]
  obtain ⟨r₁, r₂, hcursor, htoken⟩ := h.frugal.found hlast
  refine ⟨last, hlast, hstart, ?_⟩
  rw [← hcursor] at hstart
  rcases h.clean with rfl | ⟨rest, rfl⟩
  · rw [Scan.tokenHere_at_end _ hstart, EStateM.Result.ok.injEq] at htoken
    rw [← htoken.1]
    rfl
  · rw [Scan.tokenHere_bracket _ Scan.bracket?_brace hstart, EStateM.Result.ok.injEq] at htoken
    rw [← htoken.1]
    rfl

lemma silent (h : Excerpt σ r text tail e s) {r₁ r₂ : Reader} {t : Token}
    (hrest : r₁.cursor.rest = tail) (htoken : Scan.tokenHere σ.embedded r₁ = .ok t r₂) :
    r₂.journal = r₁.journal := by
  rcases h.clean with rfl | ⟨rest, rfl⟩
  · rw [Scan.tokenHere_at_end _ hrest] at htoken
    cases htoken
    rfl
  · rw [Scan.tokenHere_bracket _ Scan.bracket?_brace hrest] at htoken
    cases htoken
    rfl

lemma index_le (h : Excerpt σ r text tail e s) : s.index ≤ text.length := by
  obtain ⟨last, hlast, hstart, -⟩ := h.last
  have hle := h.frugal.index_le hlast
  rw [hstart, h.rest, List.length_append] at hle
  omega

end Excerpt

/-- A stream that has a text to read next, behind which `follows` is known of the next token. -/
structure Ready (σ : Session) (text tail : List Char) (follows : Lexed → Prop) (s : Stream) :
    Prop where
  grammar : σ.grammar = .standard
  fresh : s.index = s.buffer.size
  rest : s.reader.cursor.rest = text ++ tail
  closed : Closed σ.embedded tail follows
  limit : text.length < σ.limit

namespace Scene

/-- A text that makes up an expression makes up the same expression elsewhere. -/
theorem expression (S : Scene) {σ σ' : Session} {r : Reader} {text : List Char} {e : Expr}
    {s s' : Stream} {fuel' : Nat} {follows : Lexed → Prop} (hleft : Excerpt σ r text S.tail e s)
    (hright : Ready σ' text S.tail' follows s')
    (hembeds : S.Embeds text.length σ.embedded σ'.embedded)
    (hplace : S.place text r.cursor.pos s'.reader.cursor.pos)
    (hechoes : S.Echoes r.journal s'.reader.journal) (hfuel : text.length < fuel') :
    ∃ e' s₁' lexed', Production.expressionWithin fuel' .lowest σ' s' = .ok e' s₁' ∧ S.Rel e e' ∧
      S.Echoes s.reader.journal s₁'.reader.journal ∧ s₁'.buffer[s₁'.index]? = some lexed' ∧
      follows lexed' := by
  obtain ⟨last, hlast, hstart, hcloses⟩ := hleft.last
  have hcount := hleft.index_le
  let P : Replay :=
    { toScene := S
      session := σ
      session' := σ'
      grammar := hleft.grammar
      grammar' := hright.grammar
      width := text.length
      embeds := hembeds
      forward := hleft.forward
      final := s
      last := last
      buffered := hlast
      behind := hstart
      closes := hcloses
      silent := hleft.silent
      inside := fun hk hlexed => by
        obtain ⟨lexed, hlexed', hne⟩ := hleft.frugal.consumed hk
        rw [hlexed'] at hlexed
        cases hlexed
        exact hne
      offset := s'.index
      follows := follows
      closed := hright.closed
      limit := Nat.lt_of_le_of_lt hcount hright.limit }
  have hpaired : P.Paired (Stream.ofReader r) s' :=
    { index := (Nat.zero_add _).symm
      size := hright.fresh.symm.trans (Nat.zero_add _).symm
      index_le := Nat.le_refl _
      size_le := Nat.zero_le _
      narrow := by
        change r.cursor.rest.length ≤ S.tail.length + text.length
        rw [hleft.rest, List.length_append]
        omega
      token := fun _ hk => by simp [Stream.ofReader] at hk
      twins := fun _ => ⟨⟨text, hleft.rest, hright.rest, hplace⟩, hechoes⟩
      echoes := hechoes
      ended := fun hlt => absurd hlt (Nat.not_lt_zero _) }
  obtain ⟨e', s₁', hrun', hpaired', hrel⟩ := hpaired.expressionWithin hleft.run (.refl s)
    (show s.index < 0 + fuel' by omega)
  obtain ⟨hsize, -⟩ := Array.getElem?_eq_some_iff.mp hlast
  obtain ⟨lexed', hlexed', -, hfollows⟩ := hpaired'.ended hsize
  refine ⟨e', s₁', lexed', hrun', hrel, hpaired'.echoes, ?_, hfollows⟩
  rw [hpaired'.index]
  exact hlexed'

end Scene

/-! ## One template deeper -/

namespace Scan

variable {read : Scan Expr} {r r₁ r₂ : Reader} {e : Expr} {rest : List Char}

/-- The reader behind the brace that closes an expression in a template string. -/
def behindBrace (r : Reader) : Reader :=
  { r.record (.templateResumed r.cursor.pos) with cursor := r.cursor.drop 1 }

lemma behindBrace_passes (h : r.cursor.rest = '}' :: rest) :
    r.cursor.Passes ['}'] (behindBrace r).cursor :=
  Cursor.passes_next h

lemma embeddedExpression_eq_ok (h : embeddedExpression (some read) r = .ok e r₁) :
    ∃ r₂ rest, read (r.record (.templateOpened r.cursor.pos)) = .ok e r₂ ∧
      r₂.cursor.rest = '}' :: rest ∧ r₁ = behindBrace r₂ := by
  rw [embeddedExpression, cursor_bind] at h
  obtain ⟨_, r', hopened, h⟩ := bind_eq_ok h
  cases hopened
  obtain ⟨e', r₂, hread, h⟩ := bind_eq_ok h
  rw [cursor_bind] at h
  obtain ⟨_, r', hresumed, h⟩ := bind_eq_ok h
  cases hresumed
  by_cases hbrace : r₂.cursor.peek? = some '}'
  · obtain ⟨rest, hrest⟩ := List.head?_eq_some_iff.mp hbrace
    rw [if_pos hbrace, bind_apply, skip_apply] at h
    cases h
    exact ⟨r₂, rest, hread, hrest, rfl⟩
  · rw [if_neg hbrace] at h
    cases h

lemma embeddedExpression_of_ok (hread : read (r.record (.templateOpened r.cursor.pos)) = .ok e r₂)
    (hrest : r₂.cursor.rest = '}' :: rest) :
    embeddedExpression (some read) r = .ok e (behindBrace r₂) := by
  have hbrace : r₂.cursor.peek? = some '}' := congrArg List.head? hrest
  rw [embeddedExpression, cursor_bind]
  dsimp only
  rw [bind_apply, record_apply]
  dsimp only
  rw [bind_apply, hread]
  dsimp only
  rw [cursor_bind, bind_apply, record_apply]
  dsimp only
  rw [if_pos hbrace, bind_apply, skip_apply]
  rfl

end Scan

namespace Cursor

lemma Leads.passes {c c' : Cursor} {text : List Char} (h : c.Leads c')
    (hrest : c.rest = text ++ c'.rest) : c.Passes text c' := by
  obtain ⟨text', hpasses⟩ := h
  obtain rfl : text = text' := List.append_cancel_right (hrest.symm.trans hpasses.1)
  exact hpasses

end Cursor

namespace Scene

/-- The expressions in template strings are found the same in every scene, if the scanner on the
right can go as deep as the text is long. -/
theorem embeds (S : Scene) (depth : Nat) {depth' width : Nat} (hwidth : width ≤ depth') :
    S.Embeds width (embeddedReader .standard depth) (embeddedReader .standard depth') := by
  induction depth generalizing S depth' width with
  | zero =>
    intro r r' _ _
    unfold Scan.embeddedExpression
    exact Local.of_cursor Local.throw
  | succ depth ih =>
    intro r r' htwins hlt e r₁ hrun hlength
    obtain ⟨z, hz, hz', hplace⟩ := htwins.shared
    rw [hz, List.length_append] at hlt
    obtain ⟨depth', rfl⟩ : ∃ d, depth' = d + 1 := ⟨depth' - 1, by omega⟩
    obtain ⟨r₂, rest, hread, hbrace, rfl⟩ := Scan.embeddedExpression_eq_ok hrun
    have hforward := forwardWithin_embeddedReader (depth + 1) _ rfl
    have hforward' := forwardWithin_embeddedReader (depth' + 1) _ rfl
    obtain ⟨text, hpasses⟩ := hforward.leads hread
    -- The text of the expression, the brace behind it, and what is left of the common text.
    have hsplit : z ++ S.tail = text ++ '}' :: rest := by
      rw [← hz, ← hbrace]
      exact hpasses.1
    have hle : S.tail.length ≤ rest.length := by
      change S.tail.length ≤ (r₂.cursor.rest.drop 1).length at hlength
      rwa [hbrace] at hlength
    obtain ⟨z₁, rfl, rfl⟩ := exists_of_length_le (text ++ ['}']) (by simpa using hsplit) hle
    let T : Scene :=
      { S with
        place := fun w => S.place (w ++ '}' :: z₁)
        place_advance := fun h => S.place_advance h
        span_new := fun n h => S.span_new n h
        tail := '}' :: (z₁ ++ S.tail)
        tail' := '}' :: (z₁ ++ S.tail')
        neutral' := fun c hc => Option.some_inj.mp hc ▸ by decide
        ends := fun h => nomatch h }
    obtain ⟨s, hexpression, rfl⟩ := readEmbedded_eq_ok hread
    have hwidth' : text.length ≤ depth' := by
      simp only [List.length_append] at hlt
      omega
    have hrest : r.cursor.rest = text ++ T.tail := by
      rw [hz]
      simp [T]
    have hrest' : r'.cursor.rest = text ++ T.tail' := by
      rw [hz']
      simp [T]
    have hplace' : T.place text r.cursor.pos r'.cursor.pos := by
      rw [List.append_assoc] at hplace
      exact hplace
    have hleft : Excerpt _ _ text T.tail e s :=
      ⟨rfl, forwardWithin_embeddedReader depth, hexpression, hrest, hbrace, .inr ⟨_, rfl⟩⟩
    have hright : Ready ⟨.standard, embeddedReader .standard depth', r'.cursor.rest.length + 2⟩ text
        T.tail' (fun lexed => lexed.token.kind = .rightBrace ∧
          lexed.token.lexeme = String.ofList ['}'] ∧ lexed.start.rest = T.tail')
        (Stream.ofReader (r'.record (.templateOpened r'.cursor.pos))) :=
      ⟨rfl, rfl, hrest', closed_bracket _ Scan.bracket?_brace rfl _, by simp [hrest']; omega⟩
    obtain ⟨e', s', lexed', hexpression', he, hechoes, hlexed', -, -, hstart'⟩ :=
      T.expression hleft hright (ih T hwidth') hplace' (htwins.echoes.other rfl rfl)
        (Nat.lt_of_le_of_lt (Nat.le_refl _) hright.limit)
    have hread' := readEmbedded_of_ok hexpression'
    have hresume' : s'.resumeCursor.rest = T.tail' := by
      rw [Stream.resumeCursor, hlexed', hstart']
    have hpasses' := (hforward'.leads hread').passes (hrest'.trans (by rw [hresume']))
    refine ⟨e', _, Scan.embeddedExpression_of_ok hread' hresume', ?_, hechoes.other rfl rfl, he⟩
    exact ⟨text ++ ['}'], hpasses.append (Scan.behindBrace_passes hbrace),
      hpasses'.append (Scan.behindBrace_passes hresume')⟩

end Scene

/-! ## Whole programs -/

section Programs

variable {σ : Session} {s s' : Stream} {e : Expr} {t : Token}

lemma consume_of_buffered {kind : TokenKind} {context : String} {lexed : Lexed}
    (h : s.buffer[s.index]? = some lexed) :
    consume kind context σ s =
      if lexed.token.kind = kind then .ok lexed.token s.step
      else .error (unexpected kind lexed.token context) s.step := by
  rw [consume, accept_apply, peek_of_buffered h]
  unfold Token.ofKind?
  by_cases hkind : lexed.token.kind = kind <;> simp [hkind]

lemma opener_of_peek (h : peek σ s = .ok t s') :
    Production.opener σ s' = Production.opener σ s := by
  rw [Production.opener, bind_apply, bind_apply, read_apply, read_apply]
  dsimp only
  rw [accept_apply, accept_apply, peek_again h, h]

/-- An expression starts with a token that opens one, and is the same if that is looked at
before. -/
lemma expressionWithin_peek (hσ : σ.grammar = .standard) {fuel : Nat} {least : Precedence}
    (h : Production.expressionWithin fuel least σ s = .ok e s') :
    ∃ t s₁ opening, peek σ s = .ok t s₁ ∧ Grammar.standard.opening? t.kind = some opening ∧
      Production.expressionWithin fuel least σ s₁ = .ok e s' := by
  cases fuel with
  | zero => cases h
  | succ fuel =>
    change Production.expressionLayer (Production.expressionWithin fuel) least σ s = .ok e s' at h
    rw [Production.expressionLayer, bind_apply] at h
    cases hpeek : peek σ s with
    | error d s₁ =>
      rw [Production.opener, bind_apply, read_apply] at h
      dsimp only at h
      rw [accept_apply, hpeek] at h
      cases h
    | ok t s₁ =>
      have hsame := opener_of_peek hpeek
      have hagain : Production.expressionWithin (fuel + 1) least σ s₁ = .ok e s' := by
        change Production.expressionLayer (Production.expressionWithin fuel) least σ s₁ = _
        rw [Production.expressionLayer, bind_apply, hsame]
        exact h
      cases hopening : Grammar.standard.opening? t.kind with
      | some opening => exact ⟨t, s₁, opening, rfl, hopening, hagain⟩
      | none =>
        rw [Production.opener, bind_apply, read_apply] at h
        dsimp only at h
        rw [accept_apply, hpeek] at h
        dsimp only at h
        rw [hσ, hopening] at h
        cases h

lemma expressionWithin_of_peek {fuel : Nat} {least : Precedence} {s₁ : Stream}
    (hpeek : peek σ s = .ok t s₁)
    (h : Production.expressionWithin fuel least σ s₁ = .ok e s') :
    Production.expressionWithin fuel least σ s = .ok e s' := by
  cases fuel with
  | zero => cases h
  | succ fuel =>
    change Production.expressionLayer (Production.expressionWithin fuel) least σ s₁ = .ok e s' at h
    change Production.expressionLayer (Production.expressionWithin fuel) least σ s = .ok e s'
    rw [Production.expressionLayer, bind_apply, opener_of_peek hpeek] at h
    rw [Production.expressionLayer, bind_apply]
    exact h

lemma program_eq_ok (hσ : σ.grammar = .standard)
    (h : Production.program σ s = .ok (some e) s') :
    ∃ s₁ last, Production.expression .lowest σ s = .ok e s₁ ∧ s₁.buffer[s₁.index]? = some last ∧
      last.token.kind = .endOfInput ∧ s'.reader = s₁.reader := by
  rw [Production.program, bind_apply, nextIs_apply] at h
  cases hpeek : peek σ s with
  | error d s₁ => rw [hpeek] at h; cases h
  | ok t s₁ =>
    rw [hpeek] at h
    dsimp only at h
    split at h
    · cases h
    · obtain ⟨e', s₂, hexpression, h⟩ := bind_eq_ok h
      obtain ⟨_, s₃, hconsume, h⟩ := bind_eq_ok h
      obtain ⟨he, rfl⟩ := pure_eq_ok h
      cases he
      have hrun := expressionWithin_of_peek hpeek hexpression
      obtain ⟨last, hlast, -⟩ := expressionWithin_halts hσ hrun
      refine ⟨s₂, last, hrun, hlast, ?_⟩
      rw [discard_eq] at hconsume
      obtain ⟨t', s₄, hconsume, hpure⟩ := bind_eq_ok hconsume
      obtain ⟨-, rfl⟩ := pure_eq_ok hpure
      rw [consume_of_buffered hlast] at hconsume
      split at hconsume
      · cases hconsume
        exact ⟨‹_›, rfl⟩
      · cases hconsume

lemma program_of_expression (hσ : σ.grammar = .standard) {s₁ : Stream} {last : Lexed}
    (h : Production.expression .lowest σ s = .ok e s₁) (hlast : s₁.buffer[s₁.index]? = some last)
    (hend : last.token.kind = .endOfInput) :
    Production.program σ s = .ok (some e) s₁.step := by
  obtain ⟨t, s₂, opening, hpeek, hopening, hagain⟩ := expressionWithin_peek hσ h
  have hne : (t.kind == .endOfInput) = false := by
    refine beq_eq_false_iff_ne.mpr fun hkind => ?_
    rw [hkind] at hopening
    cases hopening
  have hexpression : Production.expression .lowest σ s₂ = .ok e s₁ := hagain
  rw [Production.program, bind_apply, nextIs_apply, hpeek]
  dsimp only
  rw [hne, if_neg Bool.false_ne_true, bind_apply, hexpression]
  dsimp only
  rw [bind_apply, discard_eq, bind_apply, consume_of_buffered hlast, if_pos hend]
  rfl

end Programs

end FrontEnd
