import FrontEnd.Proofs.FlatPrograms

/-!
# Flat programs are parsed

Whatever operators a flat program is made of, the parser accepts it, and its tree is the one that
`FlatProgram.tree` describes. The right operand of each operator is read at the level of sums, so
`*`, `/` and `**` go on with the operand and nest to the right, whichever they are, and all other
operators end it and go on with the expression that has been read so far.
-/

namespace FrontEnd

open Parse Production

/-! ## Words ahead -/

/-- A source whose tokens are those of some words. -/
structure FlatSource where
  source : List Char
  words : List FlatWord
  run : List Lexed
  whole : ∃ ds, Scan.Whole (embeddedReader .standard source.length) (.ofText source) run ds
  reads : Scan.Reads words run

namespace FlatSource

variable (F : FlatSource)

/-- The setting in which the source is parsed. -/
abbrev setting : Setting := .ofText F.source

/-- The stream stands in front of the given words, which are the last of the source. -/
structure Ahead (ws : List FlatWord) (s : Stream) : Prop where
  holds : F.setting.Holds [] s
  words_eq : F.words.drop s.index = ws

/-- What a token is if some words are ahead. -/
def Heads : List FlatWord → Token → Prop
  | [], t => t.isEnd = true
  | w :: _, t => ∃ span, t = w.token span

variable {F} {ws rest rest' : List FlatWord} {s : Stream}

lemma length_lt (F : FlatSource) : F.words.length < F.setting.session.limit := by
  obtain ⟨ds, hinner, c, last, c', hrun, -⟩ := F.whole
  have hle := hrun.length_le F.setting.forward hinner
  have hlength := F.reads.length_eq
  change _ ≤ F.source.length at hle
  change _ < F.source.length + 2
  omega

namespace Ahead

lemma length_le (h : F.Ahead ws s) : ws.length ≤ F.words.length := by
  rw [← h.words_eq]
  rw [List.length_drop]
  exact Nat.sub_le ..

lemma record (h : F.Ahead ws s) {e : Event} (he : Journal.warning? e = none) :
    F.Ahead ws (s.record e) :=
  ⟨h.holds.record fun _ => by rw [he]; rfl, h.words_eq⟩

lemma step {w : FlatWord} (h : F.Ahead (w :: ws) s) : F.Ahead ws s.step := by
  refine ⟨h.holds.moved _, ?_⟩
  rw [Stream.step_index, ← List.drop_drop, h.words_eq]
  rfl

lemma peek (h : F.Ahead ws s) :
    ∃ lexed s', Parse.peek F.setting.session s = .ok lexed.token s' ∧ F.Ahead ws s' ∧
      s'.buffer[s'.index]? = some lexed ∧ Heads ws lexed.token := by
  obtain ⟨ds, hwhole⟩ := F.whole
  have hahead := h.holds.peekAhead (n := 0)
  rw [← Parse.peek] at hahead
  cases hpeek : Parse.peek F.setting.session s with
  | error d s' =>
    rw [hpeek] at hahead
    exact absurd hahead.faulty (Setting.not_faulty rfl (Nat.le_refl _) hwhole)
  | ok t s' =>
    rw [hpeek] at hahead
    obtain ⟨hindex, lexed, hlexed, rfl⟩ := peek_eq_ok hpeek
    have hahead' : F.Ahead ws s' := ⟨hahead.1, by rw [hindex, h.words_eq]⟩
    refine ⟨lexed, s', rfl, hahead', hlexed, ?_⟩
    have hlength := F.reads.length_eq
    rcases hahead.1.cases_of_whole rfl (Nat.le_refl _) hwhole hlexed with hrun | ⟨hle, hend⟩
    · obtain ⟨hlt, hget⟩ := List.getElem?_eq_some_iff.mp hrun
      have htoken := (List.forall₂_iff_get.mp F.reads).2 s'.index (by omega) hlt
      rw [← hahead'.words_eq, List.drop_eq_getElem_cons (by omega : s'.index < F.words.length)]
      simpa [Heads, hget] using htoken
    · rw [← hahead'.words_eq, List.drop_eq_nil_of_le (by omega)]
      exact hend

end Ahead

/-! ## Reading words -/

/-- Behind some words, an expression has been read, and others are ahead. -/
def Ends (F : FlatSource) (rest : List FlatWord) (tree : Expr) :
    EStateM.Result Diagnostic Stream Expr → Prop
  | .ok e s => F.Ahead rest s ∧ erase e = tree
  | .error .. => False

/-- The words up to the given ones are read as an expression, at the given level. -/
structure Comes (F : FlatSource) (least : Precedence) (ws rest : List FlatWord) (tree : Expr) :
    Prop where
  length_lt : rest.length < ws.length
  ends : ∀ depth s, ws.length ≤ depth → F.Ahead ws s →
    F.Ends rest tree (expressionWithin depth least F.setting.session s)

/-- The words up to the given ones extend an expression, at the given level. -/
structure Extends (F : FlatSource) (least : Precedence) (left : Expr) (ws rest : List FlatWord)
    (tree : Expr) : Prop where
  length_le : rest.length ≤ ws.length
  ends : ∀ depth fuel left' s, ws.length ≤ depth → ws.length < fuel → erase left' = left →
    F.Ahead ws s →
      F.Ends rest tree (extend (expressionWithin depth) least fuel left' F.setting.session s)

/-- The level at which a word continues an expression. -/
def level? : FlatWord → Option Precedence
  | .name _ => none
  | .op o => (Grammar.standard.continuation? o.kind).map Continuation.level
  | .semicolon => some .statement

/-- The next word ends an expression that is read at the given level. -/
def Halts (least : Precedence) (ws : List FlatWord) : Prop :=
  ∀ w ∈ ws.head?, ∀ level ∈ level? w, level.exceeds least = false

lemma continuation?_kind (o : BinaryOp) :
    ∃ level, Grammar.standard.continuation? o.kind = some (.binary o level) ∧
      level? (.op o) = some level ∧ level.exceeds .sum = o.isTight ∧
      level.exceeds .lowest = true := by
  cases o <;> exact ⟨_, rfl, rfl, rfl, rfl⟩

variable {least : Precedence} {left right tree : Expr}

/-- Where the next word ends an expression, it is not extended. -/
lemma Extends.stop (hhalts : Halts least ws) : F.Extends least left ws ws left where
  length_le := Nat.le_refl _
  ends depth fuel left' s hdepth hfuel hleft hahead := by
    obtain ⟨fuel, rfl⟩ : ∃ f, fuel = f + 1 := ⟨fuel - 1, by omega⟩
    obtain ⟨lexed, s₁, hpeek, hahead₁, -, hheads⟩ := hahead.peek
    have hnone : ((Grammar.standard.continuation? lexed.token.kind).filter
        (·.level.exceeds least)) = none := by
      cases ws with
      | nil =>
        rw [beq_iff_eq.mp hheads]
        rfl
      | cons w ws =>
        obtain ⟨span, htoken⟩ := hheads
        have hlevel := hhalts w rfl
        rw [htoken]
        cases w with
        | name n => rfl
        | op o =>
          obtain ⟨level, hcontinuation, hlevel?, -⟩ := continuation?_kind o
          rw [Option.filter_eq_none_iff]
          intro continuation hsome
          cases hcontinuation.symm.trans hsome
          exact Bool.eq_false_iff.mp (hlevel level hlevel?)
        | semicolon =>
          rw [Option.filter_eq_none_iff]
          rintro continuation ⟨⟩
          exact Bool.eq_false_iff.mp (hlevel .statement rfl)
    rw [Production.extend, Similar.continuer_bind, bind_apply, read_apply]
    dsimp only
    rw [bind_apply, takeIf_apply, hpeek]
    dsimp only
    rw [F.setting.grammar, hnone]
    exact ⟨hahead₁, hleft⟩

lemma Comes.name {n : PlainName} (h : F.Extends least (Chain.leaf n) ws rest tree) :
    F.Comes least (.name n :: ws) rest tree where
  length_lt := Nat.lt_succ_of_le h.length_le
  ends depth s hdepth hahead := by
    have hlength := hahead.length_le
    have hlimit := F.length_lt
    rw [List.length_cons] at hdepth hlength
    obtain ⟨depth, rfl⟩ : ∃ d, depth = d + 1 := ⟨depth - 1, by omega⟩
    obtain ⟨lexed, s₁, hpeek, hahead₁, -, span, htoken⟩ := hahead.peek
    have hopener : opener F.setting.session s = .ok (lexed.token, .identifier) s₁.step := by
      rw [opener, bind_apply, read_apply]
      dsimp only
      rw [accept_apply, hpeek]
      dsimp only
      rw [F.setting.grammar, htoken]
      rfl
    have hends := h.ends depth F.setting.session.limit
      ⟨.identifier lexed.token.ident, lexed.token.span⟩
      ((s₁.step.record (.enter Opening.identifier.name lexed.token.lexeme lexed.token.span)).record
        (.leave Opening.identifier.name true))
      (by omega) (by omega) (by rw [htoken]; rfl)
      ((hahead₁.step.record rfl).record rfl)
    rw [expressionWithin, expressionLayer, bind_apply, hopener]
    dsimp only
    rw [expressionFrom, bind_apply, traced_apply]
    exact hends

/-- A word that continues an expression tightly enough is consumed, and then what it starts is
read. -/
lemma Extends.continued {w : FlatWord} {continuation : Continuation} {middle : Expr}
    (hcontinuation : ∀ span, Grammar.standard.continuation? (w.token span).kind = some continuation)
    (hlevel : continuation.level.exceeds least = true) (hle : rest.length ≤ ws.length)
    (hread : ∀ depth left' token s, ws.length ≤ depth → erase left' = left → F.Ahead ws s →
      F.Ends rest middle (Production.continued (expressionWithin depth) continuation left' token
        F.setting.session s))
    (h : F.Extends least middle rest rest' tree) : F.Extends least left (w :: ws) rest' tree where
  length_le := by
    have hle' := h.length_le
    rw [List.length_cons]
    omega
  ends depth fuel left' s hdepth hfuel hleft hahead := by
    obtain ⟨fuel, rfl⟩ : ∃ f, fuel = f + 1 := ⟨fuel - 1, by omega⟩
    rw [List.length_cons] at hdepth hfuel
    obtain ⟨lexed, s₁, hpeek, hahead₁, -, span, htoken⟩ := hahead.peek
    have hsome : (Grammar.standard.continuation? lexed.token.kind).filter
        (·.level.exceeds least) = some continuation := by
      rw [htoken, hcontinuation, Option.filter_some, if_pos hlevel]
    have hends := hread depth left' lexed.token _ (by omega) hleft (hahead₁.step.record
      (e := .enter continuation.name lexed.token.lexeme lexed.token.span) rfl)
    rw [Production.extend, Similar.continuer_bind, bind_apply, read_apply]
    dsimp only
    rw [bind_apply, takeIf_apply, hpeek]
    dsimp only
    rw [F.setting.grammar, hsome]
    dsimp only [Option.map_some]
    rw [bind_apply, traced_apply]
    cases hrun : Production.continued (expressionWithin depth) continuation left' lexed.token
        F.setting.session (s₁.step.record
          (.enter continuation.name lexed.token.lexeme lexed.token.span)) with
    | error d s₂ =>
      rw [hrun] at hends
      exact hends.elim
    | ok e s₂ =>
      rw [hrun] at hends
      exact h.ends depth fuel _ _ (by omega) (by omega) hends.2 (hends.1.record rfl)

lemma Ends.bind {m : Parse Expr} {f : Expr → Parse Expr}
    (h : F.Ends rest right (m F.setting.session s))
    (hf : ∀ e s, F.Ahead rest s → erase e = right → F.Ends rest' tree (f e F.setting.session s)) :
    F.Ends rest' tree ((m >>= f) F.setting.session s) := by
  rw [bind_apply]
  cases hrun : m F.setting.session s with
  | error d s₁ =>
    rw [hrun] at h
    exact h.elim
  | ok e s₁ =>
    rw [hrun] at h
    exact hf e s₁ h.1 h.2

lemma Extends.op {o : BinaryOp} (hlevel : ∀ level ∈ level? (.op o), level.exceeds least = true)
    (hright : F.Comes .sum ws rest right)
    (h : F.Extends least (bare (.binary o left right)) rest rest' tree) :
    F.Extends least left (.op o :: ws) rest' tree := by
  obtain ⟨level, hcontinuation, hlevel?, -⟩ := continuation?_kind o
  refine .continued (fun _ => hcontinuation) (hlevel level hlevel?)
    (Nat.le_of_lt hright.length_lt) (fun depth left' token s hdepth hleft hahead => ?_) h
  refine (hright.ends depth s hdepth hahead).bind fun e s₁ hahead₁ he => ⟨hahead₁, ?_⟩
  rw [← hleft, ← he]
  rfl

lemma Extends.semicolon :
    F.Extends .lowest left [.semicolon] [] (bare (.statement left none)) := by
  refine .continued (fun _ => rfl) rfl (Nat.le_refl _)
    (fun depth left' token s hdepth hleft hahead => ?_) (.stop fun w hw => by cases hw)
  obtain ⟨lexed, s₁, hpeek, hahead₁, -, hheads⟩ := hahead.peek
  have hmore : moreStatements (expressionWithin depth) F.setting.session s = .ok none s₁ := by
    have hkind : lexed.token.kind = .endOfInput := beq_iff_eq.mp hheads
    simp only [moreStatements, peekKind, bind_apply, hpeek, hkind]
    rfl
  rw [Production.continued, Production.statement, bind_apply, hmore]
  refine ⟨hahead₁, ?_⟩
  rw [← hleft]
  rfl

lemma Extends.statement {n : PlainName} (hrest : F.Comes .lowest (.name n :: ws) [] right) :
    F.Extends .lowest left (.semicolon :: .name n :: ws) []
      (bare (.statement left (some right))) := by
  refine .continued (fun _ => rfl) rfl (Nat.zero_le _)
    (fun depth left' token s hdepth hleft hahead => ?_) (.stop fun w hw => by cases hw)
  obtain ⟨lexed, s₁, hpeek, hahead₁, -, span, htoken⟩ := hahead.peek
  have hmore : moreStatements (expressionWithin depth) F.setting.session s =
      (some <$> expressionWithin depth .lowest) F.setting.session s₁ := by
    rw [moreStatements, peekKind, bind_assoc, bind_apply, hpeek, htoken]
    rfl
  have hends := hrest.ends depth s₁ hdepth hahead₁
  rw [Production.continued, Production.statement, bind_apply, hmore, map_apply]
  cases hrun : expressionWithin depth .lowest F.setting.session s₁ with
  | error d s₂ =>
    rw [hrun] at hends
    exact hends.elim
  | ok e s₂ =>
    rw [hrun] at hends
    refine ⟨hends.1, ?_⟩
    rw [← hleft, ← hends.2]
    rfl

/-! ## Reading chains -/

/-- Behind a piece of a chain stands what ends it. -/
def Loose (ws : List FlatWord) : Prop :=
  ∀ w ∈ ws.head?, w = .semicolon ∨ ∃ o : BinaryOp, w = .op o ∧ o.isTight = false

lemma Loose.halts (h : Loose ws) : Halts .sum ws := by
  intro w hw level hlevel
  rcases h w hw with rfl | ⟨o, rfl, hloose⟩
  · obtain rfl := Option.some_inj.mp hlevel
    rfl
  · obtain ⟨level', -, hlevel?, htight, -⟩ := continuation?_kind o
    obtain rfl := Option.some_inj.mp (hlevel?.symm.trans hlevel)
    rw [htight, hloose]

lemma tight_exceeds_sum (o : BinaryOp) (ho : o.isTight = true) :
    ∀ level ∈ level? (.op o), level.exceeds .sum = true := by
  intro level hlevel
  obtain ⟨level', -, hlevel?, hlevel', -⟩ := continuation?_kind o
  obtain rfl := Option.some_inj.mp (hlevel?.symm.trans hlevel)
  rw [hlevel', ho]

lemma exceeds_lowest (o : BinaryOp) :
    ∀ level ∈ level? (.op o), level.exceeds .lowest = true := by
  intro level hlevel
  obtain ⟨level', -, hlevel?, -, hlevel'⟩ := continuation?_kind o
  obtain rfl := Option.some_inj.mp (hlevel?.symm.trans hlevel)
  exact hlevel'

lemma Comes.piece {a : PlainName} {pairs : List (BinaryOp × PlainName)}
    (htight : ∀ x ∈ pairs, x.1.isTight = true)
    (hleast : ∀ o : BinaryOp, o.isTight = true → ∀ level ∈ level? (.op o),
      level.exceeds least = true) (hws : Loose ws)
    (h : F.Extends least (Chain.nestRight a pairs) ws rest tree) :
    F.Comes least ((⟨a, pairs⟩ : Chain).words ++ ws) rest tree := by
  induction pairs generalizing a least rest tree with
  | nil => exact .name h
  | cons x pairs ih =>
    obtain ⟨o, b⟩ := x
    rw [List.forall_mem_cons] at htight
    -- The operand of the first operator is the rest of the piece.
    have hright : F.Comes .sum ((⟨b, pairs⟩ : Chain).words ++ ws) ws (Chain.nestRight b pairs) :=
      ih htight.2 tight_exceeds_sum (.stop hws.halts)
    exact .name (.op (hleast o htight.1) hright h)

/-- The words of pieces, with the operators in front of them. -/
def joinWords (others : List (BinaryOp × Chain)) : List FlatWord :=
  others.flatMap fun (o, c) => .op o :: c.words

lemma cut_words (a : PlainName) (pairs : List (BinaryOp × PlainName)) :
    (Chain.cut a pairs).1.first = a ∧
      (⟨a, pairs⟩ : Chain).words =
        (Chain.cut a pairs).1.words ++ joinWords (Chain.cut a pairs).2 := by
  induction pairs generalizing a with
  | nil => exact ⟨rfl, rfl⟩
  | cons x pairs ih =>
    obtain ⟨o, b⟩ := x
    obtain ⟨hfirst, hwords⟩ := ih b
    have hsplit : (⟨a, (o, b) :: pairs⟩ : Chain).words =
        .name a :: .op o :: (⟨b, pairs⟩ : Chain).words := rfl
    rw [hsplit, hwords, Chain.cut]
    cases o.isTight with
    | true =>
      refine ⟨rfl, ?_⟩
      rw [Chain.words, hfirst]
      rfl
    | false => exact ⟨rfl, rfl⟩

lemma cut_tight (a : PlainName) (pairs : List (BinaryOp × PlainName)) :
    (∀ x ∈ (Chain.cut a pairs).1.rest, x.1.isTight = true) ∧
      ∀ x ∈ (Chain.cut a pairs).2, x.1.isTight = false ∧ ∀ y ∈ x.2.rest, y.1.isTight = true := by
  induction pairs generalizing a with
  | nil => exact ⟨fun x hx => (List.not_mem_nil hx).elim, fun x hx => (List.not_mem_nil hx).elim⟩
  | cons x pairs ih =>
    obtain ⟨o, b⟩ := x
    obtain ⟨hpiece, hothers⟩ := ih b
    rw [Chain.cut]
    cases ho : o.isTight with
    | true => exact ⟨List.forall_mem_cons.mpr ⟨ho, hpiece⟩, hothers⟩
    | false =>
      exact ⟨fun x hx => (List.not_mem_nil hx).elim,
        List.forall_mem_cons.mpr ⟨⟨ho, hpiece⟩, hothers⟩⟩

lemma loose_joinWords {others : List (BinaryOp × Chain)}
    (hothers : ∀ x ∈ others, x.1.isTight = false) (hws : Loose ws) :
    Loose (joinWords others ++ ws) := by
  cases others with
  | nil => exact hws
  | cons x others =>
    intro w hw
    obtain rfl := Option.some_inj.mp hw
    exact .inr ⟨x.1, rfl, hothers x List.mem_cons_self⟩

lemma Extends.pieces {others : List (BinaryOp × Chain)}
    (hothers : ∀ x ∈ others, x.1.isTight = false ∧ ∀ y ∈ x.2.rest, y.1.isTight = true)
    (hws : Loose ws) (h : F.Extends .lowest (Chain.joinLeft left others) ws rest tree) :
    F.Extends .lowest left (joinWords others ++ ws) rest tree := by
  induction others generalizing left with
  | nil => exact h
  | cons x others ih =>
    obtain ⟨o, c⟩ := x
    rw [List.forall_mem_cons] at hothers
    have hloose : Loose (joinWords others ++ ws) :=
      loose_joinWords (fun x hx => (hothers.2 x hx).1) hws
    have hright : F.Comes .sum (c.words ++ (joinWords others ++ ws)) (joinWords others ++ ws)
        (Chain.nestRight c.first c.rest) :=
      .piece hothers.1.2 tight_exceeds_sum hloose (.stop hloose.halts)
    have hextends := Extends.op (exceeds_lowest o) hright (ih hothers.2 h)
    rw [← List.append_assoc] at hextends
    exact hextends

lemma Comes.chain {c : Chain} (hws : Loose ws) (h : F.Extends .lowest c.tree ws rest tree) :
    F.Comes .lowest (c.words ++ ws) rest tree := by
  obtain ⟨hfirst, hwords⟩ := cut_words c.first c.rest
  obtain ⟨hpiece, hothers⟩ := cut_tight c.first c.rest
  have hextends : F.Extends .lowest
      (Chain.nestRight (Chain.cut c.first c.rest).1.first (Chain.cut c.first c.rest).1.rest)
      (joinWords (Chain.cut c.first c.rest).2 ++ ws) rest tree :=
    .pieces hothers hws h
  have hcomes := Comes.piece hpiece (fun o _ => exceeds_lowest o)
    (loose_joinWords (fun x hx => (hothers x hx).1) hws) hextends
  rw [← List.append_assoc] at hcomes
  rwa [← hwords] at hcomes

lemma Comes.statements (closed : Bool) (c : Chain) (more : List Chain) :
    F.Comes .lowest (c.words ++ ((more.flatMap fun d => .semicolon :: d.words) ++
      if closed then [.semicolon] else [])) [] (FlatProgram.treeFrom closed c more) := by
  induction more generalizing c with
  | nil =>
    cases closed with
    | true => exact .chain (fun w hw => .inl (Option.some_inj.mp hw).symm) .semicolon
    | false => exact .chain (fun w hw => by cases hw) (.stop fun w hw => by cases hw)
  | cons d more ih =>
    rw [List.flatMap_cons, List.append_assoc]
    exact .chain (fun w hw => .inl (Option.some_inj.mp hw).symm) (.statement (ih d))

end FlatSource

/-! ## Sources -/

/-- A flat program is parsed, however its words are spaced, and its tree is known: a chain of
operators is cut at all operators but `*`, `/` and `**`, each piece nests to the right, whichever of
these three it is made of, and the pieces are joined to the left. Statements nest to the right, and
the last of them has no rest if a semicolon closes it. -/
theorem parse_flat_program (p : FlatProgram) :
    (∃ e, (parse p.text).result = .ok (some e) ∧ erase e = p.tree) ∧
    ∀ source : String, Spaced p.words source.toList →
      ∃ e, (parse source).result = .ok (some e) ∧ erase e = p.tree := by
  have hall (source : String) (h : Spaced p.words source.toList) :
      ∃ e, (parse source).result = .ok (some e) ∧ erase e = p.tree := by
    obtain ⟨run, ds, hwhole, hreads⟩ := Scan.whole_of_spaced h source.toList.length
    let F : FlatSource := ⟨source.toList, p.words, run, ⟨ds, hwhole⟩, hreads⟩
    have hstart : F.Ahead p.words (.ofReader F.setting.start) :=
      ⟨Setting.at_start.toHolds, rfl⟩
    have hcomes : F.Comes .lowest p.words [] p.tree := .statements p.closed p.first p.more
    have hends := hcomes.ends F.setting.session.limit _ (Nat.le_of_lt F.length_lt) hstart
    have hresult := parse_result source
    cases hrun : Production.expressionWithin F.setting.session.limit .lowest F.setting.session
        (.ofReader F.setting.start) with
    | error d s =>
      rw [hrun] at hends
      exact hends.elim
    | ok e s =>
      rw [hrun] at hends
      obtain ⟨last, hlast, -⟩ := expressionWithin_halts F.setting.grammar hrun
      obtain ⟨lexed, s', hpeek, -, -, hend⟩ := hends.1.peek
      rw [peek_of_buffered hlast, EStateM.Result.ok.injEq] at hpeek
      rw [← hpeek.1] at hend
      have hprogram := program_of_expression F.setting.grammar hrun hlast (beq_iff_eq.mp hend)
      refine ⟨e, ?_, hends.2⟩
      rw [hresult, hprogram]
  exact ⟨hall p.text p.spaced_text, hall⟩

/-- Products and powers nest to the right alike, sums and differences to the left. -/
theorem parse_flat_program_mixed :
    let leaf (name : String) : Expr := bare (.identifier ⟨name, Span.zero⟩)
    let op (o : BinaryOp) (left right : Expr) : Expr := bare (.binary o left right)
    ∃ e, (parse " a - b ** c * d + e ; f").result = .ok (some e) ∧
      erase e = bare (.statement
        (op .add (op .sub (leaf "a") (op .pow (leaf "b") (op .mul (leaf "c") (leaf "d"))))
          (leaf "e")) (some (leaf "f"))) := by
  intro leaf op
  let name (text : String) (h : NameText text.toList ∧ TokenKind.keyword? text = none ∧
      text ≠ "true" ∧ text ≠ "false") : PlainName := ⟨text, h.1, h.2.1, h.2.2⟩
  let a := name "a" (by decide +kernel)
  let b := name "b" (by decide +kernel)
  let c := name "c" (by decide +kernel)
  let d := name "d" (by decide +kernel)
  let e := name "e" (by decide +kernel)
  let f := name "f" (by decide +kernel)
  let p : FlatProgram := ⟨⟨a, [(.sub, b), (.pow, c), (.mul, d), (.add, e)]⟩, [⟨f, []⟩], false⟩
  have htext : " a - b ** c * d + e ; f".toList = ' ' :: p.text.toList := by decide +kernel
  exact (parse_flat_program p).2 _ (htext ▸ p.spaced_text.space)

end FrontEnd
