import FrontEnd.Proofs.Layout

/-!
# Tokens are determined by their texts

A token is read off its own text: no reader looks at what stands before the token, and what one of
them sees behind it decides nothing. So the texts of the tokens of a source, joined by single
spaces, have the same tokens, and two tokens with one text and one place are equal, wherever they
come from.
-/

namespace FrontEnd

/-! ## Tokens elsewhere -/

/-- Two readings in which places do not matter. -/
def Relocation.erasing : Relocation where
  toView := View.erasing
  place _ _ _ := True
  place_advance _ := trivial
  span_new _ _ := rfl

namespace Scan

variable {depth : Nat} {c c₁ : Cursor} {lexed : Lexed} {ws : List Diagnostic}

lemma Finds.rest_eq {embedded : Option (Scan Expr)} (hembedded : ForwardWithin embedded)
    (h : Finds embedded c lexed ws c₁) (hinner : lexed.token.isEnd = false) :
    lexed.start.rest = lexed.token.lexeme.toList ++ c₁.rest ∧ lexed.token.lexeme.toList ≠ [] ∧
      lexed.token.span.start = lexed.start.pos := by
  obtain ⟨-, ⟨text, hcovers⟩ | ⟨hend, -⟩⟩ := h.cases hembedded
  · have htext : lexed.token.lexeme.toList = text := by
      rw [hcovers.lexeme_eq, String.toList_ofList]
    rw [htext]
    exact ⟨hcovers.passes.1, hcovers.ne_nil, by rw [hcovers.span_eq]; rfl⟩
  · rw [hinner] at hend
    cases hend

/-- The text of a token has the same token elsewhere, if what follows it there goes on with no
token. -/
lemma Finds.elsewhere (ρ : Relocation) (h : Finds (embeddedReader .standard depth) c lexed ws c₁)
    (hinner : lexed.token.isEnd = false) (r' : Reader) {tail' : List Char} {depth' : Nat}
    (hneutral : Neutral tail') (hends : c₁.rest = [] → tail' = [])
    (hrest : r'.cursor.rest = lexed.token.lexeme.toList ++ tail')
    (hplace : ρ.place lexed.token.lexeme.toList lexed.start.pos r'.cursor.pos)
    (hdepth : lexed.token.lexeme.toList.length ≤ depth') :
    ∃ t' r₁', tokenHere (embeddedReader .standard depth') r' = .ok t' r₁' ∧
      r'.cursor.Passes lexed.token.lexeme.toList r₁'.cursor ∧ ρ.Rel lexed.token t' := by
  have hforward := forwardWithin_embeddedReader depth
  obtain ⟨htext, hne, -⟩ := h.rest_eq hforward hinner
  obtain ⟨r, r₁, r₂, -, -, hstart, hhere, hend, -⟩ := h
  rw [← hstart] at htext hplace
  have htwins := Scene.twins_between ρ hneutral
    (fun hnil c hc => by rw [hends hnil] at hc; cases hc) htext hrest hplace
  have hnil : r₁.cursor.rest ≠ [] := by
    rw [htext]
    exact fun h => hne (List.append_eq_nil_iff.mp h).1
  have hwidth : r₁.cursor.rest.length ≤ c₁.rest.length + depth' := by
    rw [htext, List.length_append]
    omega
  obtain ⟨t', r₁', hhere', htwins', hrel⟩ :=
    htwins.tokenHere hhere hnil (Nat.le_of_eq (congrArg (·.rest.length) hend.symm)) hwidth
  -- All of the text is read.
  obtain ⟨z, hz, hz'⟩ := htwins'.text
  obtain rfl : z = [] := by
    rw [hend] at hz
    exact List.append_left_eq_self.mp hz.symm
  have hnil' : r'.cursor.rest ≠ [] := by
    rw [hrest]
    exact fun h => hne (List.append_eq_nil_iff.mp h).1
  obtain ⟨text, hcovers⟩ := tokenHere_covers (forwardWithin_embeddedReader depth') hnil' hhere'
  have hpasses := hcovers.passes
  obtain rfl : text = lexed.token.lexeme.toList := by
    have hsplit := hpasses.1
    rw [hrest, show r₁'.cursor.rest = tail' from hz'] at hsplit
    exact (List.append_cancel_right hsplit).symm
  exact ⟨t', r₁', hhere', hpasses, hrel⟩

lemma Finds.skipGap_spaced {embedded : Option (Scan Expr)} (hembedded : ForwardWithin embedded)
    (h : Finds embedded c lexed ws c₁) (hinner : lexed.token.isEnd = false)
    {space tail' : List Char}
    (hspace : space = [] ∨ space = [' ']) (hneutral : Neutral tail') {r' : Reader}
    (hrest : r'.cursor.rest = space ++ lexed.token.lexeme.toList ++ tail') :
    ∃ r₁', skipGap r' = .ok () r₁' ∧ r₁'.cursor.rest = lexed.token.lexeme.toList ++ tail' := by
  obtain ⟨htext, hne, -⟩ := h.rest_eq hembedded hinner
  obtain ⟨r, r₁, r₂, -, hgap, hstart, -⟩ := h
  have hsettles := gap_settles (skipGap_eq_ok hgap).1
  have hcursor : r₁.cursor = ⟨lexed.token.lexeme.toList ++ c₁.rest, lexed.start.pos⟩ := by
    rw [hstart, ← htext]
  obtain ⟨ch, z, hlexeme⟩ := List.exists_cons_of_ne_nil hne
  rw [hcursor, hlexeme] at hsettles
  have hstops (pos : Position) := gap_stops pos hneutral hsettles
  rw [hlexeme] at hrest ⊢
  rw [skipGap, walk_apply, hrest]
  rcases hspace with rfl | rfl
  · rw [List.nil_append, hstops]
    exact ⟨_, rfl, rfl⟩
  · have hblank : gap .blank (' ' :: (ch :: z ++ tail')) r'.cursor.pos =
        gap .blank (ch :: z ++ tail') (r'.cursor.pos.advance ' ') := by
      rw [gap_blank_cons _ (fun _ h => absurd h (by decide)) fun _ h => absurd h (by decide)]
      exact if_pos (by decide)
    rw [List.append_assoc, List.singleton_append, hblank, hstops]
    exact ⟨_, rfl, rfl⟩

/-! ## All tokens -/

/-- The texts of tokens, joined by single spaces. -/
def spaced (run : List Lexed) : List Char :=
  [' '].intercalate (run.map (·.token.lexeme.toList))

/-- What stands behind the text of the first token. -/
def spacedTail (run : List Lexed) : List Char :=
  if run = [] then [] else ' ' :: spaced run

lemma spaced_cons (x : Lexed) (run : List Lexed) :
    spaced (x :: run) = x.token.lexeme.toList ++ spacedTail run := by
  cases run with
  | nil => simp [spaced, spacedTail, List.intercalate]
  | cons y run => simp [spaced, spacedTail, List.intercalate]

lemma neutral_spacedTail (run : List Lexed) : Neutral (spacedTail run) := by
  intro c hc
  unfold spacedTail at hc
  split at hc
  · cases hc
  · rw [List.head?_cons, Option.mem_def, Option.some_inj] at hc
    subst hc
    decide

lemma isEnd_eq_of_rel {w : View} {t t' : Token} (h : w.Rel t t') : t'.isEnd = t.isEnd := by
  rw [Token.isEnd, Token.isEnd, h.kind_eq]

lemma readsLike_of_rel {t t' : Token} (h : View.erasing.Rel t t') : t.ReadsLike t' :=
  ⟨h.kind_eq, h.lexeme_eq, h.value_rel⟩

/-- The tokens of a run are found again in their texts, behind a space or not. -/
lemma Run.respaced {run : List Lexed} (h : Run (embeddedReader .standard depth) c run ws c₁)
    (hinner : ∀ x ∈ run, x.token.isEnd = false) (r' : Reader) {depth' : Nat}
    (hrest : r'.cursor.rest = spaced run ∨ r'.cursor.rest = spacedTail run)
    (hdepth : (spaced run).length ≤ depth') :
    ∃ run' ws' c₁', Run (embeddedReader .standard depth') r'.cursor run' ws' c₁' ∧
      c₁'.rest = [] ∧ (∀ x ∈ run', x.token.isEnd = false) ∧
      List.Forall₂ Token.ReadsLike (run.map Lexed.token) (run'.map Lexed.token) := by
  have hforward := forwardWithin_embeddedReader depth
  have hforward' := forwardWithin_embeddedReader depth'
  induction h generalizing r' with
  | nil c =>
    have hnil : r'.cursor.rest = [] := by
      rcases hrest with h | h <;> exact h
    exact ⟨[], [], r'.cursor, .nil _, hnil, by simp, .nil⟩
  | @cons c x ws c₁ run ws' c' hfinds hrun ih =>
    have hx := hinner x List.mem_cons_self
    have hxs : ∀ y ∈ run, y.token.isEnd = false := fun y hy =>
      hinner y (List.mem_cons_of_mem _ hy)
    rw [spaced_cons, List.length_append] at hdepth
    obtain ⟨space, hspace, hrest⟩ : ∃ space, (space = [] ∨ space = [' ']) ∧
        r'.cursor.rest = space ++ x.token.lexeme.toList ++ spacedTail run := by
      rcases hrest with hrest | hrest
      · exact ⟨[], .inl rfl, by rw [hrest, spaced_cons]; rfl⟩
      · refine ⟨[' '], .inr rfl, ?_⟩
        rw [hrest, spacedTail, if_neg (List.cons_ne_nil _ _), spaced_cons]
        rfl
    have hends : c₁.rest = [] → spacedTail run = [] := by
      intro hnil
      cases hrun with
      | nil => rfl
      | cons hnext hback =>
        have hend := ((Run.cons hnext hback).at_end hforward hnil).1 _ List.mem_cons_self
        rw [hxs _ List.mem_cons_self] at hend
        cases hend
    obtain ⟨r₁', hgap', hrest₁⟩ :=
      hfinds.skipGap_spaced hforward hx hspace (neutral_spacedTail run) hrest
    obtain ⟨t', r₂', hhere', hpasses', hrel⟩ :=
      hfinds.elsewhere .erasing hx r₁' (neutral_spacedTail run) hends hrest₁ trivial
        (by omega : x.token.lexeme.toList.length ≤ depth')
    have hbehind : r₂'.cursor.rest = spacedTail run := by
      have hsplit := hpasses'.1
      rw [hrest₁] at hsplit
      exact (List.append_cancel_left hsplit).symm
    have hlength : (spaced run).length ≤ depth' := by
      unfold spacedTail at hdepth
      split at hdepth
      · next hnil =>
        rw [hnil]
        exact Nat.zero_le _
      · rw [List.length_cons] at hdepth
        omega
    obtain ⟨run', us', c₂', hrun', hnil', hinner', halike⟩ := ih hxs r₂' (.inr hbehind) hlength
    obtain ⟨us, hfinds', -⟩ := finds_of_ok hforward' hgap' hhere'
    refine ⟨⟨t', r₁'.cursor⟩ :: run', us ++ us', c₂', .cons hfinds' hrun', hnil', ?_, ?_⟩
    · intro y hy
      rcases List.mem_cons.mp hy with rfl | hy
      · exact (isEnd_eq_of_rel hrel).trans hx
      · exact hinner' y hy
    · exact .cons (readsLike_of_rel hrel) halike

lemma Finds.alone (h : Finds (embeddedReader .standard depth) c lexed ws c₁)
    (hinner : lexed.token.isEnd = false) :
    ∃ r', tokenHere (embeddedReader .standard lexed.token.lexeme.toList.length)
      ⟨⟨lexed.token.lexeme.toList, lexed.token.span.start⟩, #[]⟩ = .ok lexed.token r' := by
  obtain ⟨-, -, hstart⟩ := h.rest_eq (forwardWithin_embeddedReader depth) hinner
  obtain ⟨t', r', hhere, -, hrel⟩ := h.elsewhere .still hinner
    ⟨⟨lexed.token.lexeme.toList, lexed.token.span.start⟩, #[]⟩
    (show Neutral [] from fun c hc => by cases hc) (fun _ => rfl) (List.append_nil _).symm
    hstart.symm (Nat.le_refl _)
  have heq : respan id lexed.token = respan id t' := hrel
  rw [respan_id, respan_id] at heq
  rw [← heq] at hhere
  exact ⟨r', hhere⟩

end Scan

/-! ## Sources -/

lemma tokenize_finds {source : String} {ts : List Token} (h : (tokenize source).result = .ok ts)
    {t : Token} (ht : t ∈ ts) :
    ∃ lexed c ws c₁, lexed.token = t ∧ t.isEnd = false ∧
      Scan.Finds (embeddedReader .standard source.toList.length) c lexed ws c₁ := by
  obtain ⟨run, ws, hwhole, rfl⟩ := whole_of_tokenize h
  obtain ⟨lexed, hmem, rfl⟩ := List.mem_map.mp ht
  obtain ⟨c₁, last, c₂, hrun, -⟩ := hwhole.ends
  obtain ⟨c, us, c', hfinds⟩ := hrun.finds hmem
  exact ⟨lexed, c, us, c', rfl, hwhole.inner lexed hmem, hfinds⟩

lemma token_eq_of_lexeme {source source' : String} {ts ts' : List Token}
    (h : (tokenize source).result = .ok ts) (h' : (tokenize source').result = .ok ts')
    {t t' : Token} (ht : t ∈ ts) (ht' : t' ∈ ts') (hlexeme : t.lexeme = t'.lexeme)
    (hspan : t.span = t'.span) : t = t' := by
  obtain ⟨lexed, c, ws, c₁, rfl, hinner, hfinds⟩ := tokenize_finds h ht
  obtain ⟨lexed', c', ws', c₁', rfl, hinner', hfinds'⟩ := tokenize_finds h' ht'
  obtain ⟨r, halone⟩ := hfinds.alone hinner
  obtain ⟨r', halone'⟩ := hfinds'.alone hinner'
  rw [← hlexeme, ← hspan, halone, EStateM.Result.ok.injEq] at halone'
  exact halone'.1

/-- A token is determined by its text. The texts of the tokens of a source, joined by single spaces,
have tokens that read the same, one for one. Tokens of any two sources with the same text and place
are equal, expressions in template strings included, so the comparison of tokens, which goes by the
places of such expressions alone, never takes two different tokens for the same. -/
theorem tokenize_lexemes {source : String} {tokens : List Token}
    (h : (tokenize source).result = .ok tokens) :
    (∃ tokens', (tokenize (" ".intercalate (tokens.map Token.lexeme))).result = .ok tokens' ∧
      List.Forall₂ Token.ReadsLike tokens tokens') ∧
    ∀ {source' tokens'}, (tokenize source').result = .ok tokens' →
      ∀ t ∈ tokens, ∀ t' ∈ tokens',
        (t.lexeme = t'.lexeme → t.span = t'.span → t = t') ∧ (t.agrees t' = true → t = t') := by
  refine ⟨?_, fun h' t ht t' ht' => ⟨token_eq_of_lexeme h h' ht ht', fun hagrees => ?_⟩⟩
  · obtain ⟨run, ws, hwhole, rfl⟩ := whole_of_tokenize h
    obtain ⟨c₁, last, c₂, hrun, -⟩ := hwhole.ends
    have htext : (" ".intercalate ((run.map Lexed.token).map Token.lexeme)).toList =
        Scan.spaced run := by
      rw [String.toList_intercalate, List.map_map, List.map_map]
      rfl
    generalize " ".intercalate ((run.map Lexed.token).map Token.lexeme) = text at htext ⊢
    obtain ⟨run', ws', c₁', hrun', hnil, hinner, halike⟩ := hrun.respaced hwhole.inner
      (.ofText text.toList) (.inl htext) (Nat.le_of_eq (congrArg List.length htext.symm))
    exact ⟨_, (tokenize_of_whole (hrun'.whole hinner hnil)).1, halike⟩
  · simp only [Token.agrees, Bool.and_eq_true, beq_iff_eq] at hagrees
    exact token_eq_of_lexeme h h' ht ht' hagrees.2 hagrees.1.2

/-- A template string that stands at one place in two sources. -/
theorem tokenize_lexemes_template :
    ∃ tokens tokens' again t, (tokenize "= `${a + 1}`/**/;").result = .ok tokens ∧
      (tokenize "+ `${a + 1}`").result = .ok tokens' ∧ t ∈ tokens ∧ t ∈ tokens' ∧
      t.kind = .templateStringLiteral ∧
      (tokenize (" ".intercalate (tokens.map Token.lexeme))).result = .ok again ∧
      List.Forall₂ Token.ReadsLike tokens again := by
  let look (tokens : List Token) := tokens[1]?.map fun t => (t.kind, t.lexeme, t.span)
  have hfirst : (tokenize "= `${a + 1}`/**/;").result.toOption.map look =
      some (some (.templateStringLiteral, "`${a + 1}`", ⟨2, 10, 1, 3⟩)) := by decide +kernel
  have hsecond : (tokenize "+ `${a + 1}`").result.toOption.map look =
      some (some (.templateStringLiteral, "`${a + 1}`", ⟨2, 10, 1, 3⟩)) := by decide +kernel
  obtain ⟨tokens, htokens, hlook⟩ := Outcome.eq_ok_of_map hfirst
  obtain ⟨tokens', htokens', hlook'⟩ := Outcome.eq_ok_of_map hsecond
  obtain ⟨t, ht, hread⟩ := Option.map_eq_some_iff.mp hlook
  obtain ⟨t', ht', hread'⟩ := Option.map_eq_some_iff.mp hlook'
  obtain ⟨hkind, hlexeme, hspan⟩ : t.kind = .templateStringLiteral ∧ t.lexeme = "`${a + 1}`" ∧
      t.span = ⟨2, 10, 1, 3⟩ := by simpa using hread
  obtain ⟨-, hlexeme', hspan'⟩ : t'.kind = .templateStringLiteral ∧ t'.lexeme = "`${a + 1}`" ∧
      t'.span = ⟨2, 10, 1, 3⟩ := by simpa using hread'
  obtain ⟨⟨again, hagain, halike⟩, hdetermined⟩ := tokenize_lexemes htokens
  have hmem := List.mem_of_getElem? ht
  have hmem' := List.mem_of_getElem? ht'
  have heq : t = t' := (hdetermined htokens' t hmem t' hmem').1 (hlexeme.trans hlexeme'.symm)
    (hspan.trans hspan'.symm)
  exact ⟨tokens, tokens', again, t, htokens, htokens', hmem, heq ▸ hmem', hkind, hagain, halike⟩

end FrontEnd
