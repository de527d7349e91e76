import FrontEnd.Proofs.ReadingExpressions

/-!
# Reading on demand and reading straight through

The parser takes its tokens when it gets to them, looks ahead and goes back; all tokens of a source
can also be read at once. Both follow the same run of the scanner. So a program whose parsing
succeeds has all its tokens, with the same warnings of the scanner, and where there are all tokens,
nothing but the parser refuses a program.
-/

namespace FrontEnd

open Parse

/-! ## Programs -/

/-- A program: an expression, or nothing. -/
inductive ProgramPhrase (Λ : Language) : List Token → Option Expr → Prop where
  | empty : ProgramPhrase Λ [] none
  | expr {ts e} (h : Phrase Λ .lowest ts e) : ProgramPhrase Λ ts (some e)

namespace Setting

/-- The setting in which a source is parsed. -/
def ofText (source : List Char) : Setting where
  session := .ofText .standard source
  start := .ofText source
  grammar := rfl
  forward := forwardWithin_embeddedReader source.length
  strict := True
  limit _ := Nat.lt_add_of_pos_right (Nat.succ_pos 1)

/-- The setting in which an expression in a template string is read, where templates nest at most
`depth` deep. -/
def inTemplate (depth : Nat) (r : Reader) : Setting where
  session := ⟨.standard, embeddedReader .standard depth, r.cursor.rest.length + 2⟩
  start := r
  grammar := rfl
  forward := forwardWithin_embeddedReader depth
  strict := True
  limit _ := Nat.lt_add_of_pos_right (Nat.succ_pos 1)

variable {K : Setting} {Λ : Language} {ts : List Token} {s : Stream}

variable (K) in
/-- A stream has come to the end of the source behind the given tokens. -/
structure Ends (ts : List Token) (s : Stream) : Prop extends K.Holds ts s where
  last : ∃ lexed, s.buffer[ts.length]? = some lexed ∧ lexed.token.isEnd = true

lemma at_start : K.At [] (Stream.ofReader K.start) where
  run := ⟨[], .nil _, fun _ => by rw [List.append_nil]; rfl⟩
  kept := List.nil_prefix
  inner t ht := absurd ht List.not_mem_nil
  index := rfl

/-- A program that is read takes up all the tokens of the source, and one that is not is refused by
the parser, unless the scanner fails. -/
lemma program (hΛ : Λ.Closed K) :
    match Production.program K.session (Stream.ofReader K.start) with
    | .ok program s => ∃ ts, K.Ends ts s ∧ ProgramPhrase Λ ts program
    | .error d s => K.Failed d s ∨ (K.strict → d.stage = .parser) := by
  have hpeek := (K.at_start).peek
  rw [Production.program, bind_apply, nextIs_apply]
  cases hcases : peek K.session (Stream.ofReader K.start) with
  | error d s =>
    rw [hcases] at hpeek
    exact .inl hpeek
  | ok t s =>
    rw [hcases] at hpeek
    obtain ⟨hat, -, lexed, hlexed, rfl⟩ := hpeek
    dsimp only
    by_cases hend : lexed.token.isEnd = true
    · have hkind : (lexed.token.kind == .endOfInput) = true := hend
      rw [hkind, if_pos rfl]
      exact ⟨[], ⟨hat.toHolds, lexed, hat.index ▸ hlexed, hend⟩, .empty⟩
    · have hkind : (lexed.token.kind == .endOfInput) = false := Bool.eq_false_iff.mpr hend
      rw [hkind, if_neg Bool.false_ne_true, bind_apply]
      have hexpression : K.Outcome [] [] (Phrase Λ .lowest)
          (Production.expression .lowest K.session s) := Reads.expression hΛ s hat
      cases hrun : Production.expression .lowest K.session s with
      | error d s₁ =>
        rw [hrun] at hexpression
        exact hexpression.imp_right And.right
      | ok e s₁ =>
        rw [hrun] at hexpression
        obtain ⟨ts, hat₁, he⟩ := hexpression
        have hpeek₁ := hat₁.peek
        dsimp only
        rw [discard_eq, bind_assoc, bind_apply, consume, accept_apply]
        cases hcases₁ : peek K.session s₁ with
        | error d s₂ =>
          rw [hcases₁] at hpeek₁
          exact .inl hpeek₁
        | ok u s₂ =>
          rw [hcases₁] at hpeek₁
          obtain ⟨hat₂, -, lexed', hlexed', rfl⟩ := hpeek₁
          by_cases hkind' : lexed'.token.kind = .endOfInput
          · simp only [Token.ofKind?, hkind', if_true]
            refine ⟨ts, ⟨hat₂.toHolds.moved _, lexed', ?_, beq_iff_eq.mpr hkind'⟩, .expr he⟩
            exact hat₂.index ▸ hlexed'
          · simp only [Token.ofKind?, hkind', if_false]
            exact .inr fun _ => rfl

lemma Ends.whole (h : K.Ends ts s) (hstrict : K.strict) :
    ∃ run ws, Scan.Whole K.session.embedded K.start.cursor run ws ∧ run.map Lexed.token = ts ∧
      lexical s.reader.journal.warnings = lexical (K.start.journal.warnings ++ ws) := by
  obtain ⟨ws, hrun, hwarned⟩ := h.run
  obtain ⟨xs, ys, hsplit, rfl⟩ := h.split
  obtain ⟨last, hlast, hend⟩ := h.last
  rw [List.length_map, ← Array.getElem?_toList, hsplit,
    List.getElem?_append_right (Nat.le_refl _), Nat.sub_self] at hlast
  obtain ⟨ys, rfl⟩ : ∃ ys', ys = last :: ys' := by
    cases ys with
    | nil => cases hlast
    | cons y ys => exact ⟨ys, by rw [Option.some_inj.mp hlast]⟩
  rw [hsplit] at hrun
  obtain ⟨c₁, us, _, hfront, _ | ⟨hfinds, hback⟩, rfl⟩ := Scan.run_append.mp hrun
  obtain ⟨-, ⟨text, hcovers⟩ | ⟨-, hnil, rfl, rfl, -⟩⟩ := hfinds.cases K.forward
  · rw [hcovers.inside] at hend
    cases hend
  · obtain ⟨-, -, rfl⟩ := hback.at_end K.forward hnil
    have hwarned := hwarned hstrict
    rw [List.append_nil, List.append_nil] at hwarned
    refine ⟨xs, us, ⟨fun x hx => h.inner _ (List.mem_map_of_mem hx), ?_⟩, rfl, hwarned⟩
    exact ⟨c₁, last, last.start, hfront, hfinds, hend⟩

lemma not_faulty {depth : Nat} {run : List Lexed} {ws : List Diagnostic}
    (hembedded : K.session.embedded = embeddedReader .standard depth)
    (hdepth : K.start.cursor.rest.length ≤ depth)
    (h : Scan.Whole K.session.embedded K.start.cursor run ws) : ¬ K.Faulty := by
  rintro ⟨before, s, d, s', hholds, hscan⟩
  obtain ⟨ws', hrun, -⟩ := hholds.run
  have hforward := K.forward
  rw [hembedded] at h hrun hforward
  have hdepth' := Nat.le_trans (hrun.leads hforward).length_le hdepth
  obtain ⟨r₁, t, r₂, hgap, htoken⟩ : ∃ r₁ t r₂, Scan.skipGap s.reader = .ok () r₁ ∧
      Scan.tokenHere (embeddedReader .standard depth) r₁ = .ok t r₂ := by
    rcases h.compare hdepth hrun with
      ⟨zs, us, -, ⟨-, c₁, last, c₂, hzs, hlast, -⟩, -⟩ | ⟨-, -, -, -, hnil, -⟩
    · obtain ⟨lexed, us, c, hnext⟩ : ∃ lexed us c,
          Scan.Finds (embeddedReader .standard depth) s.reader.cursor lexed us c := by
        cases hzs with
        | nil => exact ⟨_, _, _, hlast⟩
        | cons hfinds => exact ⟨_, _, _, hfinds⟩
      obtain ⟨r₁, r₂, hgap, -, htoken, -⟩ := hnext.again hdepth' rfl
      exact ⟨r₁, _, r₂, hgap, htoken⟩
    · obtain ⟨r₁, t, r₂, hgap, htoken, -⟩ :=
        closed_end (embeddedReader .standard depth) s.reader hnil
      exact ⟨r₁, t, r₂, hgap, htoken⟩
  rw [scanNext_apply, hgap] at hscan
  dsimp only at hscan
  rw [hembedded, htoken] at hscan
  cases hscan

lemma Holds.cases_of_whole {depth k : Nat} {run : List Lexed} {ws : List Diagnostic}
    {before : List Token} {lexed : Lexed} (h : K.Holds before s)
    (hembedded : K.session.embedded = embeddedReader .standard depth)
    (hdepth : K.start.cursor.rest.length ≤ depth)
    (hwhole : Scan.Whole K.session.embedded K.start.cursor run ws)
    (hk : s.buffer[k]? = some lexed) :
    run[k]? = some lexed ∨ run.length ≤ k ∧ lexed.token.isEnd = true := by
  obtain ⟨ws', hrun, -⟩ := h.run
  rw [← Array.getElem?_toList] at hk
  rw [hembedded] at hwhole hrun
  rcases hwhole.compare hdepth hrun with ⟨zs, us, rfl, -⟩ | ⟨zs, hbuffer, -, hends, -⟩
  · exact .inl (by rw [List.getElem?_append_left (List.getElem?_eq_some_iff.mp hk).1, hk])
  · rw [hbuffer] at hk
    by_cases hlt : k < run.length
    · rw [List.getElem?_append_left hlt] at hk
      exact .inl hk
    · rw [List.getElem?_append_right (Nat.le_of_not_lt hlt)] at hk
      exact .inr ⟨Nat.le_of_not_lt hlt, hends _ (List.mem_of_getElem? hk)⟩

end Setting

/-! ## Sources -/

section Sources

variable {source : String}

lemma tokenize_of_whole {run : List Lexed} {ws : List Diagnostic}
    (h : Scan.Whole (embeddedReader .standard source.toList.length) (.ofText source.toList) run
      ws) :
    (tokenize source).result = .ok (run.map Lexed.token) ∧ (tokenize source).warnings = ws := by
  have hforward := forwardWithin_embeddedReader source.toList.length
  obtain ⟨c, last, c', hrun, -⟩ := h.ends
  have hle := hrun.length_le hforward h.inner
  have hfuel : run.length < source.toList.length + 1 :=
    Nat.lt_succ_of_le (Nat.le_trans (Nat.le_add_right _ _) hle)
  obtain ⟨r, htokens, hwarned⟩ :=
    h.tokens (Nat.le_refl _) (rfl : (Reader.ofText source.toList).cursor = _) hfuel
  rw [tokenize, htokens]
  exact ⟨rfl, hwarned⟩

lemma whole_of_tokenize {ts : List Token} (h : (tokenize source).result = .ok ts) :
    ∃ run ws, Scan.Whole (embeddedReader .standard source.toList.length) (.ofText source.toList)
      run ws ∧ ts = run.map Lexed.token := by
  rw [tokenize] at h
  cases hrun : Scan.tokens (embeddedReader .standard source.toList.length)
      (source.toList.length + 1) (Reader.ofText source.toList) with
  | error d r =>
    rw [hrun] at h
    cases h
  | ok ts' r =>
    rw [hrun] at h
    cases h
    obtain ⟨run, ws, hwhole, rfl, -⟩ :=
      Scan.tokens_whole (forwardWithin_embeddedReader source.toList.length) hrun
    exact ⟨run, ws, hwhole, rfl⟩

lemma parse_eq (source : String) :
    parse source =
      let K := Setting.ofText source.toList
      match Production.program K.session (Stream.ofReader K.start) with
      | .ok program s => ⟨.ok program, s.reader.journal⟩
      | .error d s => ⟨.error d, s.reader.journal⟩ := rfl

lemma parse_eq_ok {Λ : Language} (hΛ : Λ.Closed (.ofText source.toList)) {program : Option Expr}
    (h : (parse source).result = .ok program) :
    ∃ ts, (tokenize source).result = .ok ts ∧
      lexical (parse source).warnings = lexical (tokenize source).warnings ∧
      ProgramPhrase Λ ts program := by
  have hprogram := Setting.program hΛ
  rw [parse_eq] at h ⊢
  dsimp only at h ⊢
  cases hrun : Production.program (Setting.ofText source.toList).session
      (Stream.ofReader (Setting.ofText source.toList).start) with
  | error d s =>
    rw [hrun] at h
    cases h
  | ok program' s =>
    rw [hrun] at h hprogram
    cases h
    obtain ⟨ts, hends, hphrase⟩ := hprogram
    obtain ⟨run, ws, hwhole, rfl, hwarned⟩ := hends.whole trivial
    obtain ⟨htokens, rfl⟩ := tokenize_of_whole hwhole
    exact ⟨_, htokens, hwarned, hphrase⟩

lemma parse_error_stage {ts : List Token} (h : (tokenize source).result = .ok ts)
    {d : Diagnostic} (hd : (parse source).result = .error d) : d.stage = .parser := by
  have hprogram := Setting.program (Language.closed_any (.ofText source.toList))
  rw [parse_eq] at hd
  dsimp only at hd
  cases hrun : Production.program (Setting.ofText source.toList).session
      (Stream.ofReader (Setting.ofText source.toList).start) with
  | ok program s =>
    rw [hrun] at hd
    cases hd
  | error d' s =>
    rw [hrun] at hd hprogram
    cases hd
    obtain ⟨run, ws, hwhole, -⟩ := whole_of_tokenize h
    have hfaultless : ¬ (Setting.ofText source.toList).Faulty :=
      Setting.not_faulty rfl (Nat.le_refl _) hwhole
    exact hprogram.resolve_left (fun hfailed => hfaultless hfailed.faulty) trivial

end Sources

/-- Reading a source on demand goes along with reading it straight through: if it can be parsed, it
has all its tokens, and the scanner has given the same warnings; if it has all its tokens, only the
parser can refuse it. -/
theorem parse_agrees_with_tokenize (source : String) :
    (∀ program, (parse source).result = .ok program →
      (∃ tokens, (tokenize source).result = .ok tokens) ∧
        lexical (parse source).warnings = lexical (tokenize source).warnings) ∧
    (∀ tokens, (tokenize source).result = .ok tokens →
      ∀ d, (parse source).result = .error d → d.stage = .parser) := by
  refine ⟨fun program h => ?_, fun tokens h d => parse_error_stage h⟩
  obtain ⟨ts, htokens, hwarned, -⟩ := parse_eq_ok (Language.closed_any _) h
  exact ⟨⟨ts, htokens⟩, hwarned⟩

/-- A program with warnings of the scanner, one of them inside a template string, and a text that
has tokens but is no program. -/
theorem parse_agrees_with_tokenize_template :
    (∃ program tokens, (parse "a = `${01}`; 02").result = .ok program ∧
      (tokenize "a = `${01}`; 02").result = .ok tokens ∧
      lexical (parse "a = `${01}`; 02").warnings = lexical (tokenize "a = `${01}`; 02").warnings) ∧
    ∃ tokens d, (tokenize "= a `${01}`; 02").result = .ok tokens ∧
      (parse "= a `${01}`; 02").result = .error d ∧ d.stage = .parser := by
  have hparse : (parse "a = `${01}`; 02").result.toOption.map Option.isSome = some true := by
    decide +kernel
  have htokenize : (tokenize "= a `${01}`; 02").result.toOption.map List.length = some 5 := by
    decide +kernel
  have hfails : (parse "= a `${01}`; 02").result.toOption.isNone = true := by decide +kernel
  obtain ⟨program, hprogram, -⟩ := Outcome.eq_ok_of_map hparse
  obtain ⟨⟨tokens, htokens⟩, hwarnings⟩ :=
    (parse_agrees_with_tokenize "a = `${01}`; 02").1 program hprogram
  obtain ⟨tokens', htokens', -⟩ := Outcome.eq_ok_of_map htokenize
  refine ⟨⟨program, tokens, hprogram, htokens, hwarnings⟩, ?_⟩
  cases hresult : (parse "= a `${01}`; 02").result with
  | ok program => rw [hresult] at hfails; cases hfails
  | error d =>
    exact ⟨tokens', d, htokens', rfl,
      (parse_agrees_with_tokenize "= a `${01}`; 02").2 tokens' htokens' d hresult⟩

end FrontEnd
