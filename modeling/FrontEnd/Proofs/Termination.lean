import FrontEnd.Proofs.Coverage
import FrontEnd.Proofs.Tiling

/-!
# Everything comes to an end

Every token inside a source takes up some of it, and so does every expression in a template string,
although the reading goes back to where the expression ends. Every production that is repeated
consumes a token, and none consumes the end of the source. So the limits that scanning and parsing
are given are never reached: whatever fails fails for the text that is read.
-/

namespace FrontEnd

open Parse Production

/-! ## Template strings -/

lemma Setting.Reads.tame {K : Setting} {α : Type} {m : Parse α} {P : List Token → α → Prop}
    (h : K.Reads [] [] m P) (hstrict : K.strict)
    (hguarded : Scan.Guarded K.session.embedded K.start.cursor.rest.length) {d : Diagnostic}
    {s : Stream} (hrun : m K.session (.ofReader K.start) = .error d s) :
    Tame K.start.cursor.rest.length d s := by
  have houtcome := h _ Setting.at_start
  rw [hrun] at houtcome
  rcases houtcome with hfailed | ⟨hholds, hstage⟩
  · exact hfailed.tame hguarded
  · exact ⟨by rw [hstage hstrict]; decide, hholds.narrow⟩

lemma readEmbedded_tame {depth : Nat}
    (hguarded : Scan.Guarded (embeddedReader .standard depth) depth) {r : Reader}
    (hr : r.cursor.rest.length ≤ depth) :
    Scan.TameAt r (readEmbedded .standard (embeddedReader .standard depth)) := by
  intro d r' h
  obtain ⟨s, hrun, rfl⟩ := readEmbedded_eq_error h
  have hreads : (Setting.inTemplate depth r).Reads [] [] (expression .lowest)
      (Phrase .any .lowest) := .expression (Language.closed_any _)
  obtain ⟨hstage, hnarrow⟩ := hreads.tame trivial (hguarded.mono hr) hrun
  exact ⟨hstage, hnarrow⟩

lemma guarded_embeddedReader (depth : Nat) :
    Scan.Guarded (embeddedReader .standard depth) depth := by
  induction depth with
  | zero => exact fun r hr => absurd hr (Nat.not_lt_zero _)
  | succ depth ih =>
    intro r hr
    have hforward := forwardWithin_embeddedReader (depth + 1) _ rfl
    refine .of_cursor (.bind .of_lexical fun _ r₁ hrecord => .bind ?_ fun e _ _ => ?_)
    · have hle := (Scan.Forward.leads hrecord).length_le
      exact readEmbedded_tame ih (by omega)
    · refine @Scan.TameAt.of_lexical _ _ _ (.andThen fun here => .andThen fun _ => ?_)
      split
      · infer_instance
      · exact .raise rfl

/-! ## Sources -/

lemma tokenize_error_ne_internal {source : String} {d : Diagnostic}
    (h : (tokenize source).result = .error d) : d.stage ≠ .internal := by
  have htame : Scan.TameAt (.ofText source.toList) (Scan.tokens
      (embeddedReader .standard source.toList.length) (source.toList.length + 1)) :=
    .tokens (guarded_embeddedReader _) (forwardWithin_embeddedReader _) (Nat.le_refl _)
      (Nat.lt_succ_self _)
  rw [tokenize] at h
  cases hrun : Scan.tokens (embeddedReader .standard source.toList.length)
      (source.toList.length + 1) (Reader.ofText source.toList) with
  | ok ts r =>
    rw [hrun] at h
    cases h
  | error d' r =>
    rw [hrun] at h
    cases h
    exact (htame d r hrun).1

/-- Started on a text, an action comes to an end: if it fails, it fails for the text. -/
def Parse.EndsOn {α : Type} (m : Parse α) (text : List Char) : Prop :=
  ∀ d s, m (.ofText .standard text) (.ofReader (.ofText text)) = .error d s → d.stage ≠ .internal

lemma Setting.Reads.endsOn {α : Type} {m : Parse α} {text : List Char}
    {P : List Token → α → Prop} (h : (Setting.ofText text).Reads [] [] m P) : m.EndsOn text :=
  fun _ _ hrun => (h.tame trivial (guarded_embeddedReader text.length) hrun).stage

lemma parse_error_ne_internal {source : String} {d : Diagnostic}
    (h : (parse source).result = .error d) : d.stage ≠ .internal := by
  have hprogram := Setting.program (Language.closed_any (.ofText source.toList))
  rw [parse_eq] at h
  dsimp only at h
  cases hrun : Production.program (Setting.ofText source.toList).session
      (Stream.ofReader (Setting.ofText source.toList).start) with
  | ok program s =>
    rw [hrun] at h
    cases h
  | error d' s =>
    rw [hrun] at h hprogram
    cases h
    rcases hprogram with hfailed | hstage
    · exact (hfailed.tame (guarded_embeddedReader source.toList.length)).stage
    · rw [hstage trivial]
      decide

/-! ## Tokens -/

lemma Tokenizer.next_lt {t t' : Tokenizer} {depth : Nat} {token : Token} (hraw : t.raw = false)
    (hembedded : t.embedded = embeddedReader .standard depth) (h : t.next = (.ok token, t'))
    (hinner : token.isEnd = false) : t.reader.cursor.pos.offset < t'.reader.cursor.pos.offset := by
  have hforward := forwardWithin_embeddedReader depth
  rw [next, run, hraw, if_neg Bool.false_ne_true, hembedded] at h
  cases hrun : Scan.token (embeddedReader .standard depth) t.reader with
  | error d r =>
    rw [hrun] at h
    cases h
  | ok token' r =>
    rw [hrun] at h
    cases h
    have hhere := Scan.forward_tokenHere hforward
    have hmoves : Scan.Forward (Scan.token (embeddedReader .standard depth)) := by
      unfold Scan.token
      infer_instance
    exact (hmoves.leads hrun).offset_lt (Scan.TameAt.length_lt_token hforward hrun hinner)

lemma readEmbedded_lt {depth : Nat} {r r' : Reader} {e : Expr}
    (h : readEmbedded .standard (embeddedReader .standard depth) r = .ok e r') :
    r.cursor.pos.offset < r'.cursor.pos.offset := by
  obtain ⟨s, hrun, rfl⟩ := readEmbedded_eq_ok h
  have hforward := forwardWithin_embeddedReader depth
  have hhalts : Ensures (fun _ s => s.Halts .lowest) (expression .lowest) :=
    .andThen fun _ => expressionWithin_halts
  -- The token behind the expression has been looked at, and the reading goes on where it begins.
  obtain ⟨next, hnext, -⟩ := hhalts rfl hrun
  have hresume : s.resumeCursor = next.start := by rw [Stream.resumeCursor, hnext]
  have hleads := (Steady.precedes _ rfl hforward hrun).leads_resumeCursor
  have hfrugal : s.Frugal (embeddedReader .standard depth) r.cursor.rest.length :=
    Steady.keeps rfl (Stream.Frugal.invariant hforward _) (.ofReader r) hrun
  have hlt : 0 < s.index := Consuming.lt rfl hrun
  have hle := hfrugal.index_le hnext
  rw [hresume] at hleads ⊢
  exact hleads.offset_lt (by omega)

/-! ## Productions -/

/-- Whenever an action succeeds, it has not consumed the end of the source. -/
def Parse.SparesEnd {α : Type} (m : Parse α) : Prop :=
  ∀ σ s a s', σ.grammar = .standard → m σ s = .ok a s' → ∀ t ∈ s.consumed s', t.isEnd = false

/-- Whenever an action succeeds, it has consumed a token, but not the end of the source. -/
def Parse.Advances {α : Type} (m : Parse α) : Prop :=
  ∀ σ s a s', σ.grammar = .standard → m σ s = .ok a s' →
    s.consumed s' ≠ [] ∧ ∀ t ∈ s.consumed s', t.isEnd = false

/-- The tokens between a place in the buffer and the next one lie inside the source. -/
def Stream.InnerSince (start : Nat) (s : Stream) : Prop :=
  ∀ k, start ≤ k → k < s.index → ∃ lexed, s.buffer[k]? = some lexed ∧ lexed.token.isEnd = false

lemma Stream.InnerSince.invariant (σ : Session) (start : Nat) :
    Stream.Invariant σ (InnerSince start) where
  scan {s t s'} h hscan := by
    obtain ⟨r, -, -, hbuffer, hindex⟩ := scanNext_eq_ok hscan
    intro k hle hlt
    obtain ⟨lexed, hlexed, hinner⟩ := h k hle (hindex ▸ hlt)
    obtain ⟨hsize, -⟩ := Array.getElem?_eq_some_iff.mp hlexed
    refine ⟨lexed, ?_, hinner⟩
    rw [hbuffer, Array.getElem?_push_lt hsize, ← hlexed, Array.getElem?_eq_getElem hsize]
  step {s lexed} h hnext hinner := by
    intro k hle hlt
    rcases Nat.lt_succ_iff_lt_or_eq.mp hlt with hlt | rfl
    · exact h k hle hlt
    · exact ⟨lexed, hnext, hinner⟩
  record _ h := h

section Consumed

variable {α : Type} {m : Parse α} {s s' : Stream} {σ : Session} {a : α}

lemma Steady.innerSince [Steady m] (hσ : σ.grammar = .standard) (h : m σ s = .ok a s') :
    s'.InnerSince s.index :=
  keeps hσ (Stream.InnerSince.invariant σ s.index) (fun _ hle hlt => absurd hlt (by omega)) h

variable (s s') in
lemma Stream.getElem?_consumed (k : Nat) :
    (s.consumed s')[k]? =
      if s.index + k < s'.index then s'.buffer[s.index + k]?.map Lexed.token else none := by
  rw [consumed, List.getElem?_drop, List.getElem?_take, tokens, List.getElem?_map,
    Array.getElem?_toList]

variable (m)

lemma Steady.sparesEnd [Steady m] : m.SparesEnd := by
  intro σ s a s' hσ h t ht
  obtain ⟨k, hk⟩ := List.mem_iff_getElem?.mp ht
  rw [Stream.getElem?_consumed] at hk
  split at hk
  · next hlt =>
    obtain ⟨lexed, hlexed, hinner⟩ := innerSince hσ h (s.index + k) (Nat.le_add_right _ _) hlt
    rw [hlexed] at hk
    cases hk
    exact hinner
  · cases hk

lemma Consuming.advances [Steady m] [Consuming m] : m.Advances := by
  intro σ s a s' hσ h
  refine ⟨fun hnil => ?_, Steady.sparesEnd m σ s a s' hσ h⟩
  have hlt : s.index < s'.index := lt hσ h
  obtain ⟨lexed, hlexed, -⟩ := Steady.innerSince hσ h s.index (Nat.le_refl _) hlt
  have hfirst := Stream.getElem?_consumed s s' 0
  rw [hnil, Nat.add_zero, if_pos hlt, hlexed] at hfirst
  cases hfirst

end Consumed

/-! ## Loops -/

section Loops

variable {text : List Char} {fuel : Nat} (hfuel : text.length < fuel)
include hfuel

lemma Setting.affords_ofText (before : List Token) : (Setting.ofText text).Affords before fuel :=
  fun _ => Nat.lt_add_left _ hfuel

lemma Setting.reads_ofText (before : List Token) (least : Precedence) :
    (Setting.ofText text).Reads before [] (expressionWithin fuel least) (Language.any.expr least) :=
  (Reads.expressionWithin (Language.closed_any _) (affords_ofText hfuel _)).mono
    fun _ _ _ => trivial

lemma endsOn_expressionWithin (least : Precedence) : (expressionWithin fuel least).EndsOn text :=
  (Setting.reads_ofText hfuel [] least).endsOn

lemma endsOn_patternWithin : (patternWithin fuel).EndsOn text :=
  (Setting.Reads.patternWithin (Language.closed_any _).toGrounded
    (Setting.affords_ofText hfuel _)).endsOn

lemma endsOn_typeWithin : (typeWithin fuel).EndsOn text :=
  (Setting.Reads.typeWithin (Language.closed_any _).toGrounded
    (Setting.affords_ofText hfuel _)).endsOn

lemma endsOn_importWithin : (importWithin fuel).EndsOn text :=
  (Setting.Reads.importWithin (Language.closed_any _).toGrounded
    (Setting.affords_ofText hfuel _)).endsOn

lemma endsOn_elements {close : TokenKind} (hclose : close.Inner) (rules : CommaRules)
    (least : Precedence) :
    (elements close rules (expressionWithin fuel least) fuel).EndsOn text := by
  have hinner : Fact close.Inner := ⟨hclose⟩
  exact (Setting.Reads.elements_and_ahead (Setting.affords_ofText hfuel _) fun since =>
    Setting.reads_ofText hfuel _ least).1.endsOn

lemma endsOn_enumItems {close : TokenKind} (hclose : close.Inner) (context : String) :
    (enumItems close context variant fuel).EndsOn text := by
  have hinner : Fact close.Inner := ⟨hclose⟩
  exact (Setting.Reads.enumItems (Setting.affords_ofText hfuel _)
    (Setting.Reads.variant (Language.closed_any _).toGrounded)).endsOn

lemma endsOn_membersWithin (body : BodyKind) (blocks : OpenBlocks) (members : MemberList Expr) :
    (membersWithin (expressionWithin fuel) body fuel blocks members).EndsOn text :=
  (Setting.Reads.membersWithin_and_ahead (Language.closed_any _).toGrounded
    (fun least _ => Setting.reads_ofText hfuel _ least)
    (Setting.affords_ofText hfuel _)).1.endsOn

end Loops

/-- Everything comes to an end. The scanner and the parser refuse a source only for what stands in
it: their limits are never reached. No limit above the number of characters is reached where an
expression, a pattern, a type, a path, a list with commas, the variants of an enumeration or the
members of a body are read at the start of a text. A token inside a source leaves the scanner behind
the place where it was asked for, and an expression in a template string ends behind the place where
it was opened, so the reading that goes on there has moved on. What reads an expression, a pattern,
a type, a section of a path or a member consumes a token, and no production consumes the end of the
source, which is left to the program as a whole. -/
theorem parsing_terminates (source : String) :
    (∀ d, (tokenize source).result = .error d → d.stage ≠ .internal) ∧
    (∀ d, (parse source).result = .error d → d.stage ≠ .internal) ∧
    (∀ fuel, source.toList.length < fuel →
      (∀ least, (expressionWithin fuel least).EndsOn source.toList) ∧
      (patternWithin fuel).EndsOn source.toList ∧ (typeWithin fuel).EndsOn source.toList ∧
      (importWithin fuel).EndsOn source.toList ∧
      (∀ close rules least, close.Inner →
        (elements close rules (expressionWithin fuel least) fuel).EndsOn source.toList) ∧
      (∀ close context, close.Inner →
        (enumItems close context variant fuel).EndsOn source.toList) ∧
      ∀ body blocks members,
        (membersWithin (expressionWithin fuel) body fuel blocks members).EndsOn source.toList) ∧
    (∀ depth t t' token, t.raw = false → t.embedded = embeddedReader .standard depth →
      Tokenizer.next t = (.ok token, t') → token.isEnd = false →
        t.reader.cursor.pos.offset < t'.reader.cursor.pos.offset) ∧
    (∀ depth r e r', readEmbedded .standard (embeddedReader .standard depth) r = .ok e r' →
      r.cursor.pos.offset < r'.cursor.pos.offset) ∧
    ∀ fuel,
      (∀ least, (expressionWithin fuel least).Advances) ∧ (patternWithin fuel).Advances ∧
      (typeWithin fuel).Advances ∧ (importWithin fuel).Advances ∧
      (∀ body blocks members, (member (expressionWithin fuel) body blocks members).Advances) ∧
      (∀ opening token, (opened (expressionWithin fuel) opening token).SparesEnd) ∧
      (∀ continuation left token,
        (continued (expressionWithin fuel) continuation left token).SparesEnd) ∧
      ∀ body, (memberList (expressionWithin fuel) body).SparesEnd := by
  refine ⟨fun d => tokenize_error_ne_internal, fun d => parse_error_ne_internal,
    fun fuel hfuel => ?_, fun depth t t' token => Tokenizer.next_lt,
    fun depth r e r' => readEmbedded_lt, fun fuel => ?_⟩
  · exact ⟨endsOn_expressionWithin hfuel, endsOn_patternWithin hfuel, endsOn_typeWithin hfuel,
      endsOn_importWithin hfuel, fun close rules least hclose =>
        endsOn_elements hfuel hclose rules least,
      fun close context hclose => endsOn_enumItems hfuel hclose context,
      endsOn_membersWithin hfuel⟩
  · exact ⟨fun _ => Consuming.advances _, Consuming.advances _, Consuming.advances _,
      Consuming.advances _, fun _ _ _ => Consuming.advances _, fun _ _ => Steady.sparesEnd _,
      fun _ _ _ => Steady.sparesEnd _, fun _ => Steady.sparesEnd _⟩

/-- A call and the body of a class that break off, a list that is none, a template string and its
expression, and a member of a class. -/
theorem parsing_terminates_truncated :
    let broken := "f(a, [`$\x7bb"
    let body := "static \x7b a: T = 1, b"
    let template := "`a$\x7b b \x7d` c"
    let inside := " b \x7d"
    let σ := Session.ofText .standard body.toList
    let start := Stream.ofReader (.ofText body.toList)
    (∃ d, (tokenize broken).result = .error d ∧ d.stage ≠ .internal) ∧
    (∃ d, (parse broken).result = .error d ∧ d.stage ≠ .internal) ∧
    (∃ d s, membersWithin (expressionWithin 30) .ofClass 30 [] .empty σ start = .error d s ∧
      d.stage ≠ .internal) ∧
    (∃ d s, elements .rightParen importRules (expressionWithin 30 .lowest) 30 σ start =
      .error d s ∧ d.stage ≠ .internal) ∧
    (∃ t token, (Tokenizer.ofText template.toList true).next = (.ok token, t) ∧
      token.kind = .templateStringLiteral ∧ 0 < t.reader.cursor.pos.offset) ∧
    (∃ e r, readEmbedded .standard (embeddedReader .standard 0) (.ofText inside.toList) =
      .ok e r ∧ 0 < r.cursor.pos.offset) ∧
    ∃ a s, member (expressionWithin 30) .ofClass [] .empty σ start = .ok a s ∧
      start.consumed s ≠ [] ∧ ∀ t ∈ start.consumed s, t.isEnd = false := by
  intro broken body template inside σ start
  have htokenize : (tokenize broken).result.toOption.isNone = true := by decide +kernel
  have hparse : (parse broken).result.toOption.isNone = true := by decide +kernel
  have hmembers : (membersWithin (expressionWithin 30) .ofClass 30 [] .empty).succeeds σ start =
      false := by decide +kernel
  have helements : (elements .rightParen importRules (expressionWithin 30 .lowest) 30).succeeds σ
      start = false := by decide +kernel
  have hnext : (Tokenizer.ofText template.toList true).next.1.toOption.map Token.kind =
      some .templateStringLiteral := by decide +kernel
  have hembedded : (expression .lowest).succeeds ⟨.standard, none, inside.toList.length + 2⟩
      (.ofReader (.ofText inside.toList)) = true := by decide +kernel
  have hmember : (member (expressionWithin 30) .ofClass [] .empty).succeeds σ start =
      true := by decide +kernel
  obtain ⟨d₁, h₁⟩ := Outcome.eq_error_of_isNone htokenize
  obtain ⟨d₂, h₂⟩ := Outcome.eq_error_of_isNone hparse
  obtain ⟨d₃, s₃, h₃⟩ := eq_error_of_succeeds hmembers
  obtain ⟨d₄, s₄, h₄⟩ := eq_error_of_succeeds helements
  obtain ⟨token, h₅, hkind⟩ := Option.map_eq_some_iff.mp hnext
  obtain ⟨e, s₆, h₆⟩ := eq_ok_of_succeeds hembedded
  obtain ⟨m, s₇, h₇⟩ := eq_ok_of_succeeds hmember
  refine ⟨⟨d₁, h₁, (parsing_terminates broken).1 d₁ h₁⟩,
    ⟨d₂, h₂, (parsing_terminates broken).2.1 d₂ h₂⟩, ⟨d₃, s₃, h₃, ?_⟩, ⟨d₄, s₄, h₄, ?_⟩, ?_, ?_,
    ⟨m, s₇, h₇, ?_⟩⟩
  · obtain ⟨-, -, -, -, -, -, hmembers⟩ := (parsing_terminates body).2.2.1 30 (by decide)
    exact hmembers .ofClass [] .empty d₃ s₃ h₃
  · obtain ⟨-, -, -, -, hlist, -⟩ := (parsing_terminates body).2.2.1 30 (by decide)
    exact hlist .rightParen importRules .lowest trivial d₄ s₄ h₄
  · cases hresult : (Tokenizer.ofText template.toList true).next.1 with
    | error d => rw [hresult] at h₅; cases h₅
    | ok token' =>
      rw [hresult] at h₅
      cases h₅
      have hinner : token.isEnd = false := by rw [Token.isEnd, hkind]; rfl
      have hrun : (Tokenizer.ofText template.toList true).next = (.ok token, _) :=
        Prod.ext hresult rfl
      exact ⟨_, token, hrun, hkind, (parsing_terminates template).2.2.2.1 template.toList.length
        _ _ token rfl rfl hrun hinner⟩
  · have hread : readEmbedded .standard (embeddedReader .standard 0) (.ofText inside.toList) =
        .ok e _ := readEmbedded_of_ok h₆
    exact ⟨e, _, hread, (parsing_terminates template).2.2.2.2.1 0 _ e _ hread⟩
  · obtain ⟨-, -, -, -, hadvances, -⟩ := (parsing_terminates body).2.2.2.2.2 30
    exact hadvances .ofClass [] .empty σ start m s₇ rfl h₇

end FrontEnd
