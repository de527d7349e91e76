import FrontEnd.Proofs.Extension
import FrontEnd.Proofs.Lookahead
import FrontEnd.Proofs.SpelledPatterns

/-!
# The bindings of loops

Between `for` and `in` stands an expression, of which the loop makes a pattern afterwards. Where a
text is a pattern without objects, this is the very pattern that the text is read as in its place:
`forLoop_binds_pattern`.
-/

namespace FrontEnd

open Parse Production

/-- A loop over `xs` whose binding is written as the given text. -/
def loopOver (binding : String) : String :=
  "for " ++ binding ++ " in xs \x7b\x7d"

/-! ## Its tokens -/

lemma View.Rel.kinds_eq {w : View} {ts ts' : List Token} (h : w.Rel ts ts') :
    ts.map Token.kind = ts'.map Token.kind := by
  induction ts generalizing ts' with
  | nil => rw [View.Rel.eq_nil h]
  | cons t ts ih =>
    obtain ⟨t', ts', rfl, ht, hts⟩ := View.Rel.exists_cons h
    rw [List.map_cons, List.map_cons, ht.kind_eq, ih hts]

namespace Scan

variable {depth : Nat}

/-- The kinds of the first tokens of a text, and what is left behind them. -/
def firstKinds (count : Nat) (text : List Char) : Option (List TokenKind × List Char) :=
  (scanPast count).observe
    (fun _ s => (s.buffer.toList.map (·.token.kind), s.reader.cursor.rest))
    (.ofText .standard text) (.ofReader (.ofText text))

lemma run_of_firstKinds {count : Nat} {text rest : List Char} {kinds : List TokenKind}
    (h : firstKinds count text = some (kinds, rest)) :
    ∃ run ws c, Run (embeddedReader .standard text.length) (.ofText text) run ws c ∧
      c.rest = rest ∧ run.map (·.token.kind) = kinds := by
  have hholds := (Setting.at_start (K := .ofText text)).scanPast (n := count)
  obtain ⟨t, s, hscan, hseen⟩ := eq_ok_of_observe h
  obtain ⟨rfl, rfl⟩ := Prod.mk.inj hseen
  rw [show scanPast count (Setting.ofText text).session (.ofReader (Setting.ofText text).start) =
    .ok t s from hscan] at hholds
  obtain ⟨ws, hrun, -⟩ := hholds.1.run
  exact ⟨_, ws, _, hrun, rfl, rfl⟩

lemma exists_run {count : Nat} {text tail : List Char} {kinds : List TokenKind}
    (h : firstKinds count text = some (kinds, [])) (hkinds : .endOfInput ∉ kinds)
    (hneutral : Neutral tail) (hdepth : text.length ≤ depth) (pos : Position) :
    ∃ run ws pos', Run (embeddedReader .standard depth) ⟨text ++ tail, pos⟩ run ws ⟨tail, pos'⟩ ∧
      (∀ x ∈ run, x.token.isEnd = false) ∧ run.map (·.token.kind) = kinds := by
  obtain ⟨run, ws, c, hrun, hnil, rfl⟩ := run_of_firstKinds h
  have hinner : ∀ x ∈ run, x.token.isEnd = false := by
    intro x hx
    refine Bool.eq_false_iff.mpr fun hend => hkinds ?_
    rw [← beq_iff_eq.mp hend]
    exact List.mem_map_of_mem hx
  have hplace : Relocation.erasing.place text Position.start pos := trivial
  obtain ⟨run', ws', pos', -, hrun', hinner', hrel⟩ :=
    hrun.extended .erasing hinner hneutral hplace hdepth
  rw [hnil] at hrun'
  refine ⟨run', ws', pos', hrun', hinner', ?_⟩
  have hkinds := View.Rel.kinds_eq hrel
  rw [List.map_map, List.map_map] at hkinds
  exact hkinds.symm

end Scan

lemma pattern_eq_ok {text : List Char} {p : Pattern} {s : Stream}
    (h : pattern (.ofText .standard text) (.ofReader (.ofText text)) = .ok p s) :
    ∃ run ws, Scan.Run (embeddedReader .standard text.length) (.ofText text) run ws
        s.resumeCursor ∧
      (∀ x ∈ run, x.token.isEnd = false) ∧
      PatternPhrase .spelling (run.map Lexed.token) p := by
  have hspent : s.Spent := Brings.pattern ⟨Nat.le_refl _, Nat.zero_le _⟩ h
  have hpattern : (Setting.ofText text).Reads [] [] pattern (PatternPhrase .spelling) :=
    Setting.Reads.pattern_phrase (Language.grounded_spelling _)
  have hreads := hpattern _ Setting.at_start
  rw [show pattern (Setting.ofText text).session (.ofReader (Setting.ofText text).start) = .ok p s
    from h] at hreads
  obtain ⟨ts, hat, hphrase⟩ := hreads
  obtain ⟨ws, hrun, -⟩ := hat.run
  obtain ⟨xs, ys, hsplit, hxs, -⟩ := hat.split
  obtain rfl : ys = [] := by
    have hlength := congrArg List.length hsplit
    have hindex := hat.index
    rw [Array.length_toList, hspent, List.length_append] at hlength
    rw [← hxs, List.length_map] at hindex
    exact List.eq_nil_of_length_eq_zero (by omega)
  rw [hsplit, List.append_nil] at hrun
  rw [List.nil_append, List.nil_append] at hxs
  refine ⟨xs, ws, by rwa [hspent.resumeCursor_eq], fun x hx => ?_, hxs ▸ hphrase⟩
  exact hat.inner _ (by rw [List.nil_append, List.nil_append, ← hxs]; exact List.mem_map_of_mem hx)

/-- The tokens of a loop whose binding is a pattern: those of the pattern, which spell the same
pattern in their new places, between those of the other words. -/
lemma tokenize_loopOver {binding : String} {p : Pattern} {s : Stream}
    (h : pattern (.ofText .standard binding.toList) (.ofReader (.ofText binding.toList)) = .ok p s)
    (hspent : Gap " in xs \x7b\x7d".toList s.resumeCursor.rest) (hp : p.Objectless) :
    ∃ opener ts behind p', (tokenize (loopOver binding)).result = .ok (opener :: (ts ++ behind)) ∧
      opener.kind = .kwFor ∧
      behind.map Token.kind = [.kwIn, .identifier, .leftBrace, .rightBrace] ∧
      View.erasing.Rel p p' ∧ ∀ F : Supply, F.Spells ts p' := by
  obtain ⟨run, ws, hrun, hinner, hphrase⟩ := pattern_eq_ok h
  have htext : (loopOver binding).toList =
      "for".toList ++ ([' '] ++ (binding.toList ++ " in xs \x7b\x7d".toList)) := by
    simp [loopOver]
  have hlength := congrArg List.length htext
  simp only [List.length_append] at hlength
  have hneutral (text : List Char) : Neutral ([' '] ++ text) := by
    intro c hc
    obtain rfl := Option.some_inj.mp hc
    decide
  have hfor : Scan.firstKinds 0 "for".toList = some ([.kwFor], []) := by decide +kernel
  have hbehind : Scan.firstKinds 3 " in xs \x7b\x7d".toList =
      some ([.kwIn, .identifier, .leftBrace, .rightBrace], []) := by decide +kernel
  obtain ⟨run₁, ws₁, pos₁, hrun₁, hinner₁, hkinds₁⟩ :=
    Scan.exists_run hfor (by decide) (hneutral (binding.toList ++ " in xs \x7b\x7d".toList))
      (show _ ≤ (loopOver binding).toList.length by omega) .start
  obtain ⟨run₂, ws₂, pos₂, -, hrun₂, hinner₂, hrel⟩ :=
    hrun.extended .erasing hinner (hneutral "in xs \x7b\x7d".toList)
      (show Relocation.erasing.place binding.toList .start (pos₁.after [' ']) from trivial)
      (show binding.toList.length ≤ (loopOver binding).toList.length by omega)
  obtain ⟨run₃, ws₃, pos₃, hrun₃, hinner₃, hkinds₃⟩ :=
    Scan.exists_run hbehind (by decide) (show Neutral [] from fun c hc => by cases hc)
      (show _ ≤ (loopOver binding).toList.length by omega) (pos₂.after s.resumeCursor.rest)
  obtain ⟨p', hp', hspells⟩ := (Language.grounded_spelling (.ofText [])).pattern hphrase hp _ hrel
  have hne₂ : run₂ ≠ [] := by
    rintro rfl
    exact hphrase.ne_nil (List.map_eq_nil_iff.mp hrel)
  have hne₃ : run₃ ≠ [] := by
    rintro rfl
    cases hkinds₃
  have hall := Scan.run_append.mpr ⟨_, _, _, hrun₁, Scan.run_append.mpr ⟨_, _, _,
    hrun₂.behind (.blank rfl .nil) (by simp) hne₂, hrun₃.behind hspent (by simp) hne₃, rfl⟩, rfl⟩
  have hinner₀ : ∀ x ∈ run₁ ++ (run₂ ++ run₃), x.token.isEnd = false :=
    List.forall_mem_append.mpr ⟨hinner₁, List.forall_mem_append.mpr ⟨hinner₂, hinner₃⟩⟩
  have hwhole := hall.whole hinner₀ rfl
  rw [← htext] at hwhole
  obtain ⟨opener, run₁, rfl, hopener, hnil⟩ := List.map_eq_cons_iff.mp hkinds₁
  obtain rfl := List.map_eq_nil_iff.mp hnil
  have htokens := (tokenize_of_whole hwhole).1
  rw [List.map_append, List.map_append] at htokens
  refine ⟨opener.token, run₂.map Lexed.token, run₃.map Lexed.token, p', htokens, hopener, ?_, hp',
    hspells⟩
  rw [List.map_map]
  exact hkinds₃

/-! ## Its tree -/

namespace Supply

variable {F : Supply} {opener : Token} {ts behind : List Token} {p : Pattern} {s : Stream}

lemma Ahead.expectBlock_empty {left right : Token} {rest : List Token}
    (h : F.Ahead (left :: right :: rest) s) (hleft : left.kind = .leftBrace)
    (hright : right.kind = .rightBrace) (expr : Precedence → Parse Expr) (context : String) :
    ∃ body s', expectBlock expr context F.session s = .ok body s' ∧ F.Ahead rest s' := by
  have hinside := h.step.look
  have hcontent : blockContent expr F.session (F.look s).step =
      .ok none (F.look (F.look s).step) := by
    rw [blockContent, bind_apply, h.step.feeds.nextIs, h.step.token_cons, beq_iff_eq.mpr hright]
    rfl
  refine ⟨⟨none, none, left.span.merge (F.look (F.look (F.look s).step)).step.previousSpan⟩, _, ?_,
    hinside.step⟩
  rw [expectBlock, bind_apply, h.consume_eq hleft]
  dsimp only
  rw [blockBody, bind_apply, hcontent]
  dsimp only
  rw [discard_eq, bind_assoc, bind_apply, hinside.consume_eq hright]
  rfl

/-- The tokens of a loop are read as a loop. -/
lemma Spells.forLoop (hopener : opener.kind = .kwFor) (hp : F.Spells ts p)
    (hbehind : behind.map Token.kind = [.kwIn, .identifier, .leftBrace, .rightBrace])
    {depth : Nat} (hdepth : ts.length < depth) (h : F.Ahead (opener :: (ts ++ behind)) s) :
    ∃ iterable body span s', expressionWithin (depth + 1) .lowest F.session s =
        .ok ⟨.forLoop (.iterating p iterable) body none, span⟩ s' ∧ F.Ahead [] s' := by
  obtain ⟨keyword, behind, rfl, hkeyword, hbehind⟩ := List.map_eq_cons_iff.mp hbehind
  obtain ⟨name, behind, rfl, hname, hbehind⟩ := List.map_eq_cons_iff.mp hbehind
  obtain ⟨left, behind, rfl, hleft, hbehind⟩ := List.map_eq_cons_iff.mp hbehind
  obtain ⟨right, behind, rfl, hright, hbehind⟩ := List.map_eq_cons_iff.mp hbehind
  obtain rfl := List.map_eq_nil_iff.mp hbehind
  have hhead := h.step.record (.enter Opening.forLoop.name opener.lexeme opener.span)
  -- The binding, which is read as an expression up to `in`.
  obtain ⟨e, s₁, hinit, hin, he⟩ := hp.reads depth .lowest (Nat.le_of_lt hdepth)
    (fun t ht => by cases ht; rw [hkeyword]; rfl) hhead.look
  have horTrue : orTrue (expressionWithin depth) .comma opener.span F.session
      ((F.look s).step.record (.enter Opening.forLoop.name opener.lexeme opener.span)) =
      .ok e s₁ := by
    obtain ⟨first, more, rfl, -, hcomma⟩ := hp.starts
    have hother : (first.kind == TokenKind.comma) = false := beq_false_of_ne hcomma
    rw [orTrue, bind_apply, hhead.feeds.nextIs, hhead.token_cons, hother]
    dsimp only
    rw [if_neg Bool.false_ne_true]
    exact hinit
  -- What is iterated over, up to the block.
  obtain ⟨iterable, s₂, hiterable, hblock, -⟩ := (Spells.name hname).reads depth .lowest
    (show 1 ≤ depth by omega) (fun t ht => by cases ht; rw [hleft]; rfl) hin.step
  have hread : forHead (expressionWithin depth) opener F.session
      ((F.look s).step.record (.enter Opening.forLoop.name opener.lexeme opener.span)) =
      .ok (.iterating p iterable) s₂ := by
    rw [forHead, bind_apply, horTrue]
    dsimp only
    rw [bind_apply, hin.feeds.eat, hin.token_cons, if_pos hkeyword]
    dsimp only
    rw [if_pos rfl, iteratingHead, he]
    dsimp only
    rw [bind_apply, hiterable]
    rfl
  obtain ⟨body, s₃, hbody, hend⟩ := hblock.expectBlock_empty hleft hright
    (expressionWithin depth) (ForHead.blockContext (.iterating p iterable))
  have hopening : Grammar.standard.opening? opener.kind = some .forLoop := by rw [hopener]; rfl
  have hrun : opened (expressionWithin depth) .forLoop opener F.session
      ((F.look s).step.record (.enter Opening.forLoop.name opener.lexeme opener.span)) =
      .ok ⟨.forLoop (.iterating p iterable) body none, opener.span.merge s₃.previousSpan⟩ s₃ := by
    rw [opened, forLoop, bind_apply, hread]
    dsimp only
    rw [bind_apply, hbody]
    rfl
  obtain ⟨s', hrun, hend'⟩ := h.expressionWithin_of_opened depth .lowest hopening rfl hrun hend
    fun t ht => by cases ht
  exact ⟨iterable, body, _, s', hrun, hend'⟩

lemma Spells.pattern_eq (hp : F.Spells ts p) (hdepth : ts.length < F.session.limit)
    (h : F.Ahead (opener :: (ts ++ behind)) s) :
    ∃ s', (next >>= fun _ => pattern) F.session s = .ok p s' ∧ F.Ahead behind s' := by
  obtain ⟨s', hrun, hbehind⟩ := hp.matched F.session.limit (Nat.le_of_lt hdepth) h.step
  refine ⟨s', ?_, hbehind⟩
  rw [bind_apply, next_apply, h.feeds.peek.1]
  exact hrun

end Supply

lemma parse_eq_of_ahead {source : String} {tokens : List Token} {e : Expr} {s : Stream}
    (h : (tokenize source).result = .ok tokens)
    (hrun : expression .lowest (.ofText .standard source.toList) (.ofReader (.ofText source.toList)) =
      .ok e s)
    (hend : (Supply.ofText h).Ahead [] s) : (parse source).result = .ok (some e) := by
  obtain ⟨last, hlast, -⟩ := expressionWithin_halts rfl hrun
  have hkind : last.token.kind = .endOfInput := by
    rw [Supply.Feeds.token_eq hend.feeds hlast, hend.token]
    rfl
  rw [parse_result, show Production.program (Setting.ofText source.toList).session
    (.ofReader (Setting.ofText source.toList).start) = .ok (some e) s.step from
      program_of_expression rfl hrun hlast hkind]

/-- The binding of a loop is a pattern. Where a text is one, and holds no patterns of objects, the
loop over `xs` with this text as its binding is parsed, and binds the very pattern that is read
where the text stands in the loop: behind `for`. The text is read up to its end or up to a gap; only
a line comment that it does not end itself would swallow what stands behind it. -/
theorem forLoop_binds_pattern {binding : String} {p : Pattern} {s : Stream}
    (h : pattern (.ofText .standard binding.toList) (.ofReader (.ofText binding.toList)) = .ok p s)
    (hspent : Gap " in xs \x7b\x7d".toList s.resumeCursor.rest) (hp : p.Objectless) :
    ∃ p' s' iterable body span,
      (next >>= fun _ => pattern) (.ofText .standard (loopOver binding).toList)
          (.ofReader (.ofText (loopOver binding).toList)) = .ok p' s' ∧
        erase p' = erase p ∧
        (parse (loopOver binding)).result =
          .ok (some ⟨.forLoop (.iterating p' iterable) body none, span⟩) := by
  obtain ⟨opener, ts, behind, p', htokens, hopener, hbehind, hrel, hspells⟩ :=
    tokenize_loopOver h hspent hp
  let F : Supply := .ofText htokens
  have hstart : F.Ahead (opener :: (ts ++ behind)) (.ofReader F.start) := F.ahead_start
  have hlength : (opener :: (ts ++ behind)).length ≤ (loopOver binding).toList.length := F.length_le
  rw [List.length_cons, List.length_append] at hlength
  have hlimit : F.session.limit = (loopOver binding).toList.length + 2 := rfl
  obtain ⟨s', hpattern, -⟩ := (hspells F).pattern_eq (by omega) hstart
  obtain ⟨iterable, body, span, s₁, hrun, hend⟩ := (hspells F).forLoop hopener hbehind
    (show ts.length < (loopOver binding).toList.length + 1 by omega) hstart
  exact ⟨p', s', iterable, body, span, hpattern, hrel.symm, parse_eq_of_ahead htokens hrun hend⟩

/-- A named list inside a list, with a comma behind it and a comment behind the whole. -/
theorem forLoop_binds_pattern_nested :
    let binding := "[a, @b [c],] /* d */"
    ∃ p s, pattern (.ofText .standard binding.toList) (.ofReader (.ofText binding.toList)) = .ok p s ∧
      Gap " in xs \x7b\x7d".toList s.resumeCursor.rest ∧ p.Objectless ∧
      ∃ p' s' iterable body span,
        (next >>= fun _ => pattern) (.ofText .standard (loopOver binding).toList)
            (.ofReader (.ofText (loopOver binding).toList)) = .ok p' s' ∧
          erase p' = erase p ∧
          (parse (loopOver binding)).result =
            .ok (some ⟨.forLoop (.iterating p' iterable) body none, span⟩) := by
  intro binding
  have hrun : pattern.observe (fun p s => (decide p.Objectless, s.resumeCursor.rest))
      (.ofText .standard binding.toList) (.ofReader (.ofText binding.toList)) =
      some (true, " /* d */".toList) := by decide +kernel
  obtain ⟨p, s, h, hseen⟩ := eq_ok_of_observe hrun
  obtain ⟨hp, hrest⟩ : p.Objectless ∧ s.resumeCursor.rest = " /* d */".toList := by
    simpa using hseen
  have hgap : Gap " in xs \x7b\x7d".toList " /* d */".toList := by
    have hcomment : CommentBody 1 " d */".toList :=
      .inside (by decide) (by decide) (.inside (by decide) (by decide)
        (.inside (by decide) (by decide) (.closing .closed)))
    exact .blank rfl (.block hcomment .nil)
  rw [← hrest] at hgap
  exact ⟨p, s, h, hgap, hp, forLoop_binds_pattern h hgap hp⟩

end FrontEnd
