import FrontEnd.Proofs.Progress

/-!
# Tokens and gaps tile the source

The tokens of a source and the gaps between them are the whole source, in order and without
overlap: `tokenize_tiles`. The gaps are described without the scanner, by `Gap`.
-/

namespace FrontEnd

/-! ## The texts of gaps -/

/-- The text behind a number of open block comments, through the end of the outermost. -/
inductive CommentBody : Nat → List Char → Prop where
  | closed : CommentBody 0 []
  | closing {depth rest} (h : CommentBody depth rest) :
    CommentBody (depth + 1) ('*' :: '/' :: rest)
  | opening {depth rest} (h : CommentBody (depth + 2) rest) :
    CommentBody (depth + 1) ('/' :: '*' :: rest)
  | inside {depth c rest} (hopening : ¬ ['/', '*'] <+: c :: rest)
    (hclosing : ¬ ['*', '/'] <+: c :: rest) (h : CommentBody (depth + 1) rest) :
    CommentBody (depth + 1) (c :: rest)

/-- The text of a gap in front of the given text: blanks, line comments and block comments. A line
comment ends with its line, or where the source ends. -/
inductive Gap (following : List Char) : List Char → Prop where
  | nil : Gap following []
  | blank {c gap} (hc : Text.isBlank c = true) (h : Gap following gap) :
    Gap following (c :: gap)
  | line {comment gap} (hcomment : '\n' ∉ comment) (h : Gap following gap) :
    Gap following ('/' :: '/' :: (comment ++ '\n' :: gap))
  | lastLine {comment} (hcomment : '\n' ∉ comment) (hend : following = []) :
    Gap following ('/' :: '/' :: comment)
  | block {comment gap} (hcomment : CommentBody 1 comment) (h : Gap following gap) :
    Gap following ('/' :: '*' :: (comment ++ gap))

namespace Scan

/-- The text that is left of a gap while it is read as the given mode says. -/
def GapMode.Leaves (following : List Char) : GapMode → List Char → Prop
  | .blank, text => Gap following text
  | .lineComment, text =>
    ∃ comment, '\n' ∉ comment ∧
      ((∃ gap, text = comment ++ '\n' :: gap ∧ Gap following gap) ∨
        text = comment ∧ following = [])
  | .blockComment _ depth, text =>
    ∃ comment gap, text = comment ++ gap ∧ CommentBody depth comment ∧ Gap following gap

lemma not_isPrefix {x y c : Char} {comment gap rest : List Char}
    (h : ∀ rest', c = x → comment ++ gap ++ rest = y :: rest' → False) :
    ¬ [x, y] <+: c :: comment := by
  rintro ⟨tail, htail⟩
  obtain ⟨rfl, rfl⟩ : x = c ∧ y :: tail = comment := by simpa using htail
  exact h (tail ++ gap ++ rest) rfl (by simp)

/-- What is read as a gap is the text of one. -/
lemma gap_reads {mode : GapMode} {text : List Char} {pos : Position} {c : Cursor}
    (hmode : ∀ opened, mode ≠ .blockComment opened 0) (h : gap mode text pos = .ok () c) :
    ∃ read, (⟨text, pos⟩ : Cursor).Passes read c ∧ mode.Leaves c.rest read := by
  fun_induction gap mode text pos with
  | case1 pos =>
    cases h
    exact ⟨[], Cursor.passes_nil _, .nil⟩
  | case2 rest pos ih =>
    obtain ⟨read, hpasses, comment, hcomment, hread⟩ := ih (by simp) h
    refine ⟨['/', '/'] ++ read, Cursor.Passes.append ⟨rfl, rfl⟩ hpasses, ?_⟩
    rcases hread with ⟨gap, rfl, hgap⟩ | ⟨rfl, hend⟩
    · exact .line hcomment hgap
    · exact .lastLine hcomment hend
  | case3 rest pos ih =>
    obtain ⟨read, hpasses, comment, gap, rfl, hcomment, hgap⟩ := ih (by simp) h
    have hblock : Gap c.rest ('/' :: '*' :: (comment ++ gap)) := .block hcomment hgap
    exact ⟨['/', '*'] ++ (comment ++ gap), Cursor.Passes.append ⟨rfl, rfl⟩ hpasses, hblock⟩
  | case4 ch rest pos hline hblock hblank ih =>
    obtain ⟨read, hpasses, hgap⟩ := ih (by simp) h
    exact ⟨[ch] ++ read, Cursor.Passes.append ⟨rfl, rfl⟩ hpasses, .blank hblank hgap⟩
  | case5 ch rest pos hline hblock hblank =>
    cases h
    exact ⟨[], Cursor.passes_nil _, .nil⟩
  | case6 pos =>
    cases h
    exact ⟨[], Cursor.passes_nil _, [], List.not_mem_nil, .inr ⟨rfl, rfl⟩⟩
  | case7 ch rest pos ih =>
    by_cases hch : ch = '\n'
    · simp only [hch, if_true] at ih h
      obtain ⟨read, hpasses, hgap⟩ := ih (by simp) h
      refine ⟨['\n'] ++ read, Cursor.Passes.append ⟨by rw [hch]; rfl, by rw [hch]; rfl⟩ hpasses,
        [], List.not_mem_nil, .inl ⟨read, rfl, hgap⟩⟩
    · simp only [hch, if_false] at ih h
      obtain ⟨read, hpasses, comment, hcomment, hread⟩ := ih (by simp) h
      refine ⟨[ch] ++ read, Cursor.Passes.append ⟨rfl, rfl⟩ hpasses, ch :: comment,
        by simpa [hcomment] using Ne.symm hch, ?_⟩
      rcases hread with ⟨gap, rfl, hgap⟩ | ⟨rfl, hend⟩
      · exact .inl ⟨gap, rfl, hgap⟩
      · exact .inr ⟨rfl, hend⟩
  | case8 => cases h
  | case9 opened depth rest pos ih =>
    obtain ⟨depth, rfl⟩ : ∃ d, depth = d + 1 :=
      Nat.exists_eq_succ_of_ne_zero fun hzero => hmode opened (by rw [hzero])
    obtain ⟨read, hpasses, comment, gap, rfl, hcomment, hgap⟩ := ih (by simp) h
    exact ⟨['/', '*'] ++ (comment ++ gap), Cursor.Passes.append ⟨rfl, rfl⟩ hpasses,
      '/' :: '*' :: comment, gap, rfl, .opening hcomment, hgap⟩
  | case10 opened depth rest pos ih =>
    obtain ⟨depth, rfl⟩ : ∃ d, depth = d + 1 :=
      Nat.exists_eq_succ_of_ne_zero fun hzero => hmode opened (by rw [hzero])
    by_cases hdepth : depth = 0
    · simp only [hdepth, Nat.zero_add, Nat.le_refl, if_true] at ih h
      obtain ⟨read, hpasses, hgap⟩ := ih (by simp) h
      exact ⟨['*', '/'] ++ read, Cursor.Passes.append ⟨rfl, rfl⟩ hpasses,
        ['*', '/'], read, rfl, hdepth ▸ .closing .closed, hgap⟩
    · have hlt : ¬ depth + 1 ≤ 1 := by omega
      simp only [hlt, if_false, Nat.add_sub_cancel] at ih h
      obtain ⟨read, hpasses, comment, gap, rfl, hcomment, hgap⟩ :=
        ih (by simpa using hdepth) h
      exact ⟨['*', '/'] ++ (comment ++ gap), Cursor.Passes.append ⟨rfl, rfl⟩ hpasses,
        '*' :: '/' :: comment, gap, rfl, .closing hcomment, hgap⟩
  | case11 opened depth ch rest pos hopening hclosing ih =>
    obtain ⟨depth, rfl⟩ : ∃ d, depth = d + 1 :=
      Nat.exists_eq_succ_of_ne_zero fun hzero => hmode opened (by rw [hzero])
    obtain ⟨read, hpasses, comment, gap, rfl, hcomment, hgap⟩ := ih (by simp) h
    have hrest : rest = comment ++ gap ++ c.rest := hpasses.1
    subst hrest
    exact ⟨[ch] ++ (comment ++ gap), Cursor.Passes.append ⟨rfl, rfl⟩ hpasses,
      ch :: comment, gap, rfl,
      .inside (not_isPrefix hopening) (not_isPrefix hclosing) hcomment, hgap⟩

lemma skipGap_reads {r r' : Reader} (h : skipGap r = .ok () r') :
    ∃ gap, r.cursor.Passes gap r'.cursor ∧ Gap r'.cursor.rest gap := by
  exact gap_reads (by simp) (skipGap_eq_ok h).1

end Scan

/-! ## Tilings -/

/-- The tokens tile the text that begins at a byte offset: in front of each token stands a gap, and
each token's span is the range of its own text. -/
inductive Tiles : Nat → List Token → List Char → Prop where
  | done {offset gap} (hgap : Gap [] gap) : Tiles offset [] gap
  | token {offset gap lexeme rest tokens} {t : Token} (hgap : Gap (lexeme ++ rest) gap)
    (hne : lexeme ≠ []) (hlexeme : t.lexeme = String.ofList lexeme)
    (hoffset : t.span.offset = offset + Text.byteSize gap)
    (hlen : t.span.len = Text.byteSize lexeme) (h : Tiles t.span.stop tokens rest) :
    Tiles offset (t :: tokens) (gap ++ (lexeme ++ rest))

namespace Tiles

variable {offset : Nat} {tokens : List Token} {text : List Char}

lemma le_offset (h : Tiles offset tokens text) : ∀ t ∈ tokens, offset ≤ t.span.offset := by
  induction h with
  | done => simp
  | token hgap hne hlexeme hoffset hlen h ih =>
    intro u hu
    rcases List.mem_cons.mp hu with rfl | hu
    · omega
    · have hle := ih u hu
      rw [Span.stop] at hle
      omega

lemma pairwise (h : Tiles offset tokens text) :
    tokens.Pairwise fun t u => t.span.stop ≤ u.span.offset := by
  induction h with
  | done => exact .nil
  | token hgap hne hlexeme hoffset hlen h ih => exact .cons h.le_offset ih

lemma len_pos (h : Tiles offset tokens text) : ∀ t ∈ tokens, 0 < t.span.len := by
  induction h with
  | done => simp
  | token hgap hne hlexeme hoffset hlen h ih =>
    intro u hu
    rcases List.mem_cons.mp hu with rfl | hu
    · rw [hlen]
      exact Text.byteSize_pos hne
    · exact ih u hu

end Tiles

namespace Scan

/-- Reading all tokens tiles what is left to read. -/
lemma tokens_tiles {embedded : Option (Scan Expr)} (hembedded : ForwardWithin embedded) {fuel : Nat}
    {r r' : Reader} {ts : List Token} (h : tokens embedded fuel r = .ok ts r') :
    Tiles r.cursor.pos.offset ts r.cursor.rest := by
  induction fuel generalizing r ts with
  | zero => cases h
  | succ fuel ih =>
    unfold tokens token at h
    obtain ⟨t, r₂, htoken, hrest⟩ := bind_eq_ok h
    obtain ⟨_, r₁, hgap, hhere⟩ := bind_eq_ok htoken
    obtain ⟨gap, hpasses, hgap⟩ := skipGap_reads hgap
    by_cases hnil : r₁.cursor.rest = []
    · rw [tokenHere_at_end embedded hnil] at hhere
      cases hhere
      have hts : ts = [] := by
        cases hrest
        rfl
      rw [hts, hpasses.1, hnil, List.append_nil]
      exact .done (hnil ▸ hgap)
    · obtain ⟨lexeme, hcovers⟩ := tokenHere_covers hembedded hnil hhere
      simp only [hcovers.inside, Bool.false_eq_true, if_false] at hrest
      obtain ⟨ts', r₃, htokens, hpure⟩ := bind_eq_ok hrest
      obtain ⟨rfl, rfl⟩ := pure_eq_ok hpure
      have htiles := ih htokens
      have hoffset := hcovers.passes.offset
      have hlen : t.span.len = Text.byteSize lexeme := by
        rw [hcovers.span_eq, Span.new, hoffset]
        exact Nat.add_sub_cancel_left _ _
      have hstart : t.span.offset = r₁.cursor.pos.offset := by
        rw [hcovers.span_eq]
        rfl
      rw [hpasses.1, hcovers.passes.1]
      refine .token (hcovers.passes.1 ▸ hgap) hcovers.ne_nil hcovers.lexeme_eq
        (by rw [hstart, hpasses.offset]) hlen ?_
      rwa [Span.stop, hstart, hlen, ← hoffset]

end Scan

variable {source : String} {tokens : List Token}

/-- The tokens of a source tile it: with the gaps between them they are the whole source, each has
the range of its own text as its span, none is empty, and none overlaps another. -/
theorem tokenize_tiles (h : (tokenize source).result = .ok tokens) :
    Tiles 0 tokens source.toList ∧
      (tokens.Pairwise fun t u => t.span.stop ≤ u.span.offset) ∧
      ∀ t ∈ tokens, 0 < t.span.len := by
  have htiles : Tiles 0 tokens source.toList := by
    unfold tokenize at h
    cases hrun : Scan.tokens (embeddedReader .standard source.toList.length)
        (source.toList.length + 1) (Reader.ofText source.toList) with
    | error d r => simp [hrun] at h
    | ok ts r =>
      simp only [hrun, Except.ok.injEq] at h
      subst h
      exact Scan.tokens_tiles (forwardWithin_embeddedReader _) hrun
  exact ⟨htiles, htiles.pairwise, htiles.len_pos⟩

/-- A name, a comment and a template string with another one inside. -/
theorem tokenize_tiles_nested_template :
    ∃ tokens, (tokenize "a /*b*/ `$\x7b`$\x7bc\x7d` \x7d`").result = .ok tokens ∧
      tokens.length = 2 ∧ Tiles 0 tokens "a /*b*/ `$\x7b`$\x7bc\x7d` \x7d`".toList := by
  have hrun : (tokenize "a /*b*/ `$\x7b`$\x7bc\x7d` \x7d`").result.toOption.map List.length =
      some 2 := by
    decide +kernel
  obtain ⟨tokens, hoption, hlength⟩ := Option.map_eq_some_iff.mp hrun
  have hresult : (tokenize "a /*b*/ `$\x7b`$\x7bc\x7d` \x7d`").result = .ok tokens := by
    cases hcases : (tokenize "a /*b*/ `$\x7b`$\x7bc\x7d` \x7d`").result with
    | error d => rw [hcases] at hoption; cases hoption
    | ok ts => rw [hcases] at hoption; cases hoption; rfl
  exact ⟨tokens, hresult, hlength, (tokenize_tiles hresult).1⟩

end FrontEnd
