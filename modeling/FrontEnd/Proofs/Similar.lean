import FrontEnd.Proofs.SpannedTree
import FrontEnd.Proofs.Steady

/-!
# Similar productions

Two runs of a production on different texts do the same things to tokens that differ in their
places alone. `Similar` relates two actions that are built alike: it has a rule for each way of
building a production from steps on the token stream, and what two similar actions do is
read off these rules once, for all productions at a time.

A text ends in one run where another token follows in the other. There a production may look at
the next token only if it treats everything that ends an expression alike, or if it is sure to
consume that token.
-/

namespace FrontEnd

open Parse

/-- A pair of views on spans under which data of two runs are compared. Spans that look alike may
be merged. -/
structure View where
  left : Span → Span
  right : Span → Span
  merge : ∀ {s s' t t' : Span}, left s = right s' → left t = right t' →
    left (s.merge t) = right (s'.merge t')

namespace View

variable {α β : Type} [Spanned α] [Spanned β] (w : View)

/-- Data of two runs that look alike: they are equal up to their spans, which look alike. -/
def Rel (a b : α) : Prop :=
  respan w.left a = respan w.right b

variable {w}

lemma Rel.eq [Spanless α] {a b : α} (h : w.Rel a b) : a = b := by
  simpa [Rel] using h

lemma rel_of_eq [Spanless α] {a b : α} (h : a = b) : w.Rel a b := by
  simpa [Rel] using h

@[simp] lemma rel_none_none : w.Rel (none : Option α) none := rfl

@[simp] lemma rel_some_some {a b : α} : w.Rel (some a) (some b) ↔ w.Rel a b := by
  simp [Rel]

@[simp] lemma not_rel_none_some {a : α} : ¬ w.Rel none (some a) := by
  simp [Rel]

@[simp] lemma not_rel_some_none {a : α} : ¬ w.Rel (some a) none := by
  simp [Rel]

lemma rel_pair {a a' : α} {b b' : β} : w.Rel (a, b) (a', b') ↔ w.Rel a a' ∧ w.Rel b b' := by
  simp [Rel]

@[simp] lemma rel_cons {a b : α} {as bs : List α} :
    w.Rel (a :: as) (b :: bs) ↔ w.Rel a b ∧ w.Rel as bs := by
  simp [Rel]

lemma rel_append {as as' bs bs' : List α} (h : w.Rel as as') (h' : w.Rel bs bs') :
    w.Rel (as ++ bs) (as' ++ bs') := by
  have hfront : respan w.left as = respan w.right as' := h
  have hback : respan w.left bs = respan w.right bs' := h'
  unfold Rel
  rw [respan_append, respan_append, hfront, hback]

lemma rel_reverse {as bs : List α} (h : w.Rel as bs) : w.Rel as.reverse bs.reverse := by
  have hlists : respan w.left as = respan w.right bs := h
  unfold Rel
  rw [respan_reverse, respan_reverse, hlists]

lemma rel_parts {pieces pieces' : List Scan.Piece} (h : w.Rel pieces pieces') :
    w.Rel (Scan.Piece.parts pieces) (Scan.Piece.parts pieces') := by
  have hpieces : respan w.left pieces = respan w.right pieces' := h
  unfold Rel
  rw [← parts_respan, ← parts_respan, hpieces]

lemma rel_template {parts parts' : List (TemplatePart Expr)} (h : w.Rel parts parts') :
    w.Rel (TokenValue.template parts) (TokenValue.template parts') :=
  congrArg TokenValue.template h

lemma rel_embedded {e e' : Expr} (h : w.Rel e e') :
    w.Rel (Scan.Piece.embedded e) (Scan.Piece.embedded e') :=
  congrArg Scan.Piece.embedded h

lemma rel_classifyWord (text : String) :
    w.Rel (Scan.classifyWord text).2 (Scan.classifyWord text).2 := by
  unfold Scan.classifyWord
  split
  · rfl
  split
  · rfl
  split <;> rfl

lemma rel_token {kind : TokenKind} {value value' : TokenValue} {s s' : Span} {lexeme : String}
    (hvalue : w.Rel value value') (hs : w.Rel s s') :
    w.Rel (⟨kind, value, s, lexeme⟩ : Token) ⟨kind, value', s', lexeme⟩ := by
  have hvalue' : respan w.left value = respan w.right value' := hvalue
  have hs' : w.left s = w.right s' := hs
  change (⟨kind, respan w.left value, w.left s, lexeme⟩ : Token) =
    ⟨kind, respan w.right value', w.right s', lexeme⟩
  rw [hvalue', hs']

lemma rel_diagnostic {d d' : Diagnostic} (h : w.Rel d.span d'.span)
    (heq : { d with span := d'.span } = d') : w.Rel d d' := by
  have hspan : w.left d.span = w.right d'.span := h
  unfold Rel
  rw [← heq]
  change ({ d with span := w.left d.span } : Diagnostic) = { d with span := w.right d'.span }
  rw [hspan]

namespace Rel

variable {t t' : Token}

lemma kind_eq (h : w.Rel t t') : t.kind = t'.kind := by
  have hkind : (respan w.left t).kind = (respan w.right t').kind := congrArg Token.kind h
  exact hkind

lemma lexeme_eq (h : w.Rel t t') : t.lexeme = t'.lexeme := by
  have hlexeme : (respan w.left t).lexeme = (respan w.right t').lexeme := congrArg Token.lexeme h
  exact hlexeme

lemma span_rel (h : w.Rel t t') : w.Rel t.span t'.span :=
  congrArg Token.span h

lemma place_rel {d d' : Diagnostic} (h : w.Rel d d') : w.Rel d.span d'.span :=
  congrArg Diagnostic.span h

lemma value_rel (h : w.Rel t t') : w.Rel t.value t'.value :=
  congrArg Token.value h

lemma text_eq (h : w.Rel t t') : t.text = t'.text := by
  have hlexeme := h.lexeme_eq
  have hvalue : respan w.left t.value = respan w.right t'.value := h.value_rel
  unfold Token.text
  cases hv : t.value <;> cases hv' : t'.value <;> rw [hv, hv'] at hvalue <;>
    simp_all [respan]

lemma ident_rel (h : w.Rel t t') : w.Rel t.ident t'.ident := by
  have hspan : w.left t.span = w.right t'.span := h.span_rel
  simp [Rel, Token.ident, h.text_eq, hspan]

lemma ofKind? (kind : TokenKind) (h : w.Rel t t') :
    w.Rel (t.ofKind? kind) (t'.ofKind? kind) := by
  unfold Token.ofKind?
  rw [h.kind_eq]
  split
  · exact rel_some_some.mpr h
  · exact rel_none_none

lemma unexpected (kind : TokenKind) (context : String) (h : w.Rel t t') :
    w.Rel (unexpected kind t context) (unexpected kind t' context) := by
  have hspan : w.left t.span = w.right t'.span := h.span_rel
  simp [Rel, Parse.unexpected, Diagnostic.grammatical, respan, h.lexeme_eq, hspan]

lemma simpleName? {p p' : Pattern} (h : w.Rel p p') : w.Rel p.simpleName? p'.simpleName? := by
  have hpattern : respan w.left p = respan w.right p' := h
  unfold Rel
  rw [← simpleName?_respan, ← simpleName?_respan, hpattern]

lemma merge {s s' u u' : Span} (hs : w.Rel s s') (hu : w.Rel u u') :
    w.Rel (s.merge u) (s'.merge u') :=
  w.merge hs hu

lemma expr_span {a b : Expr} (h : w.Rel a b) : w.Rel a.span b.span := by
  have hspan : (respan w.left a).span = (respan w.right b).span := congrArg Expr.span h
  rwa [span_respan_expr, span_respan_expr] at hspan

end Rel

end View

/-- How much of a text is left for a run, where that is known: a bound on the tokens that the run
on the left has yet to consume. -/
inductive Budget where
  | unlimited
  | tokens (count : Nat)

namespace Budget

/-- The budget after a token is consumed. -/
def spend : Budget → Budget
  | unlimited => unlimited
  | tokens n => tokens (n - 1)

/-- The limits that two runs may work with: the same, or enough of it on the right. -/
def allows : Budget → Nat → Nat → Prop
  | unlimited, limit, limit' => limit = limit'
  | tokens n, _, limit' => n ≤ limit'

/-- Whether a budget is part of another. -/
def within : Budget → Budget → Prop
  | unlimited, unlimited => True
  | tokens m, tokens n => m ≤ n
  | _, _ => False

lemma within_refl (k : Budget) : k.within k := by
  cases k with
  | unlimited => trivial
  | tokens n => exact Nat.le_refl n

lemma within_trans {k₁ k₂ k₃ : Budget} (h : k₁.within k₂) (h' : k₂.within k₃) :
    k₁.within k₃ := by
  cases k₁ <;> cases k₂ <;> cases k₃ <;> simp only [within] at h h' ⊢
  omega

lemma eq_of_unlimited_within {k : Budget} (h : unlimited.within k) : k = unlimited := by
  cases k with
  | unlimited => rfl
  | tokens n => exact h.elim

lemma spend_within (k : Budget) : k.spend.within k := by
  cases k with
  | unlimited => trivial
  | tokens n => exact Nat.sub_le n 1

end Budget

/-- Whether a token ends what an expression stands in. -/
def Token.closes (t : Token) : Bool :=
  Production.endsStatements t.kind

/-- Actions that are built alike. With `sure`, the runs in question go on to consume a token after
the action, so it never looks at the end of the text. -/
inductive Similar (w : View) :
    ∀ {α : Type} [Spanned α], Budget → Bool → Parse α → Parse α → Prop where
  | pure {α} [Spanned α] {k sure} {a a' : α} (h : w.Rel a a') :
    Similar w k sure (pure a) (pure a')
  | fail {α} [Spanned α] {k sure} {d d' : Diagnostic} (h : w.Rel d d') :
    Similar w k sure (throw d : Parse α) (throw d')
  | exhausted {α} [Spanned α] {k sure} :
    Similar w k sure (exhausted : Parse α) exhausted
  | exhausted_left {α} [Spanned α] {n sure} {m' : Parse α} :
    Similar w (.tokens n) sure exhausted m'
  | spent {α} [Spanned α] {sure} {m m' : Parse α} :
    Similar w (.tokens 0) sure m m'
  | weaken {α} [Spanned α] {k k' sure} {m m' : Parse α} (hk : k'.within k)
    (h : Similar w k sure m m') :
    Similar w k' sure m m'
  | assured {α} [Spanned α] {k} {m m' : Parse α} (h : Similar w k false m m') :
    Similar w k true m m'
  | bind {α β} [Spanned α] [Spanned β] {k sure} {m m' : Parse α} {f f' : α → Parse β}
    [∀ a, Steady (f a)] (hm : Similar w k sure m m')
    (hf : ∀ a a', w.Rel a a' → Similar w k sure (f a) (f' a')) :
    Similar w k sure (m >>= f) (m' >>= f')
  /-- After an action that consumes a token, less is left to do. -/
  | bind_spending {α β} [Spanned α] [Spanned β] {k sure} {m m' : Parse α} {f f' : α → Parse β}
    [Consuming m] [∀ a, Steady (f a)] (hm : Similar w k sure m m')
    (hf : ∀ a a', w.Rel a a' → Similar w k.spend sure (f a) (f' a')) :
    Similar w k sure (m >>= f) (m' >>= f')
  /-- Before an action that consumes a token, the end of the text is not reached. -/
  | bind_before {α β} [Spanned α] [Spanned β] {k sure} {m m' : Parse α} {f f' : α → Parse β}
    [∀ a, Steady (f a)] [∀ a, Consuming (f a)] (hm : Similar w k true m m')
    (hf : ∀ a a', w.Rel a a' → Similar w k sure (f a) (f' a')) :
    Similar w k sure (m >>= f) (m' >>= f')
  | look {α} [Spanned α] {k sure} {p p' : Token → α}
    (hp : ∀ t t', w.Rel t t' → w.Rel (p t) (p' t'))
    (hend : sure = true ∨
      ∀ t t' : Token, t.closes = true → t'.closes = true → w.Rel (p t) (p' t')) :
    Similar w k sure (p <$> peek) (p' <$> peek)
  | takeIf {α β} [Spanned α] [Spanned β] {k sure} {select select' : Token → Option α}
    {f f' : Option α → Parse β} [Spares select] [∀ o, Steady (f o)]
    (hselect : ∀ t t', w.Rel t t' → w.Rel (select t) (select' t'))
    (hend : sure = true ∨ (∀ t : Token, t.closes = true → select' t = none) ∨
      Consuming (takeIf select >>= f))
    (hnone : Similar w k sure (f none) (f' none))
    (hsome : ∀ a a', w.Rel a a' → Similar w k.spend sure (f (some a)) (f' (some a'))) :
    Similar w k sure (takeIf select >>= f) (takeIf select' >>= f')
  | accept {α} [Spanned α] {k sure} {select select' : Token → Option α}
    {refusal refusal' : Token → Diagnostic} [Spares select]
    (hselect : ∀ t t', w.Rel t t' → w.Rel (select t) (select' t'))
    (hrefusal : ∀ t t', w.Rel t t' → w.Rel (refusal t) (refusal' t')) :
    Similar w k sure (accept select refusal) (accept select' refusal')
  | refuseNext {α} [Spanned α] {k sure code message} :
    Similar w k sure (refuseNext code message : Parse α) (refuseNext code message)
  | spanFrom {k sure} {start start' : Span} (h : w.Rel start start') :
    Similar w k sure (spanFrom start) (spanFrom start')
  | warn {k sure code message} {span span' : Span} (h : w.Rel span span') :
    Similar w k sure (warn code span message) (warn code span' message)
  | traced {α} [Spanned α] {k sure production} {token token' : Token} {m m' : Parse α}
    (h : w.Rel token token') (hm : Similar w k sure m m') :
    Similar w k sure (traced production token m) (traced production token' m')
  /-- The limit of the session has to allow for what is left to do, and for no more. -/
  | read {α} [Spanned α] {k sure} {f f' : Session → Parse α}
    (hf : ∀ σ σ' k', σ.grammar = .standard → σ'.grammar = .standard → k'.within k →
      k'.allows σ.limit σ'.limit → Similar w k' sure (f σ) (f' σ')) :
    Similar w k sure (read >>= f) (read >>= f')
  | argumentName {k sure} :
    Similar w k sure Production.argumentName Production.argumentName
  | definitionName {k sure body} (h : Similar w k sure Production.pattern Production.pattern) :
    Similar w k sure (Production.definitionName body) (Production.definitionName body)

namespace Similar

variable {w : View} {k : Budget} {sure : Bool} {α β : Type} [Spanned α] [Spanned β]

lemma bind_cases {m m' : Parse α} {f f' : α → Parse β} (hsteady : ∀ a, Steady (f a))
    (hm : Similar w k sure m m') (hf : ∀ a a', w.Rel a a' → Similar w k sure (f a) (f' a')) :
    Similar w k sure (m >>= f) (m' >>= f') :=
  .bind hm hf

lemma bind_spending_cases {m m' : Parse α} {f f' : α → Parse β} [Consuming m]
    (hsteady : ∀ a, Steady (f a)) (hm : Similar w k sure m m')
    (hf : ∀ a a', w.Rel a a' → Similar w k.spend sure (f a) (f' a')) :
    Similar w k sure (m >>= f) (m' >>= f') :=
  .bind_spending hm hf

lemma bind_before_cases {m m' : Parse α} {f f' : α → Parse β} (hsteady : ∀ a, Steady (f a))
    (hconsuming : ∀ a, Consuming (f a)) (hm : Similar w k true m m')
    (hf : ∀ a a', w.Rel a a' → Similar w k sure (f a) (f' a')) :
    Similar w k sure (m >>= f) (m' >>= f') :=
  .bind_before hm hf

lemma peek : Similar w k true peek peek := by
  rw [← id_map Parse.peek]
  exact .look (fun _ _ h => h) (.inl rfl)

lemma ite (c : Prop) [Decidable c] {m m' n n' : Parse α} (hm : c → Similar w k sure m m')
    (hn : ¬ c → Similar w k sure n n') :
    Similar w k sure (if c then m else n) (if c then m' else n') := by
  split
  · exact hm ‹_›
  · exact hn ‹_›

lemma refuse {code : Code} {span span' : Span} {message : String} (h : w.Rel span span') :
    Similar w k sure (refuse code span message : Parse α) (refuse code span' message) :=
  .fail (congrArg (Diagnostic.grammatical code · message) h)

lemma discard {m m' : Parse α} (h : Similar w k sure m m') :
    Similar w k sure (discard m) (discard m') := by
  rw [discard_eq, discard_eq]
  exact .bind h fun _ _ _ => .pure rfl

lemma consume (kind : TokenKind) [Fact kind.Inner] (context : String) :
    Similar w k sure (consume kind context) (consume kind context) :=
  .accept (fun _ _ h => h.ofKind? kind) fun _ _ h => h.unexpected kind context

lemma identifier (context : String) :
    Similar w k sure (identifier context) (identifier context) :=
  .bind (.consume _ _) fun _ _ h => .pure h.ident_rel

lemma nextIs_eq (kind : TokenKind) :
    nextIs kind = (fun t => t.kind == kind) <$> Parse.peek := by
  simp only [Parse.nextIs, peekKind, bind_pure_comp, Functor.map_map]

lemma kind_ne_of_closes {kind : TokenKind} (hkind : Production.endsStatements kind = false)
    {t : Token} (ht : t.closes = true) : t.kind ≠ kind := by
  intro h
  rw [Token.closes, h, hkind] at ht
  cases ht

lemma nextIs (kind : TokenKind)
    (hend : sure = true ∨ Production.endsStatements kind = false) :
    Similar w k sure (nextIs kind) (nextIs kind) := by
  rw [nextIs_eq]
  refine .look (fun t t' h => View.rel_of_eq (by rw [h.kind_eq])) (hend.imp_right fun hkind => ?_)
  intro t t' ht ht'
  have hne := kind_ne_of_closes hkind ht
  have hne' := kind_ne_of_closes hkind ht'
  exact View.rel_of_eq (by rw [beq_eq_false_iff_ne.mpr hne, beq_eq_false_iff_ne.mpr hne'])

lemma takeIf_cases {select select' : Token → Option α} [Spares select]
    {f f' : Option α → Parse β} (hsteady : ∀ o, Steady (f o))
    (hselect : ∀ t t', w.Rel t t' → w.Rel (select t) (select' t'))
    (hend : sure = true ∨ (∀ t : Token, t.closes = true → select' t = none) ∨
      Consuming (Parse.takeIf select >>= f))
    (hnone : Similar w k sure (f none) (f' none))
    (hsome : ∀ a a', w.Rel a a' → Similar w k.spend sure (f (some a)) (f' (some a'))) :
    Similar w k sure (Parse.takeIf select >>= f) (Parse.takeIf select' >>= f') :=
  .takeIf hselect hend hnone hsome

lemma take? {kind : TokenKind} [Fact kind.Inner] {f f' : Option Token → Parse β}
    (hsteady : ∀ o, Steady (f o))
    (hend : sure = true ∨ Production.endsStatements kind = false)
    (hnone : Similar w k sure (f none) (f' none))
    (hsome : ∀ t t', w.Rel t t' → Similar w k.spend sure (f (some t)) (f' (some t'))) :
    Similar w k sure (take? kind >>= f) (take? kind >>= f') := by
  refine .takeIf (fun t t' h => h.ofKind? kind) (hend.imp_right fun hkind => .inl ?_) hnone hsome
  intro t ht
  exact if_neg (kind_ne_of_closes hkind ht)

lemma eat_cases {kind : TokenKind} [Fact kind.Inner] {f f' : Bool → Parse β}
    (hsteady : ∀ b, Steady (f b))
    (hend : sure = true ∨ Production.endsStatements kind = false ∨ Consuming (eat kind >>= f))
    (hno : Similar w k sure (f false) (f' false))
    (hyes : Similar w k.spend sure (f true) (f' true)) :
    Similar w k sure (eat kind >>= f) (eat kind >>= f') := by
  rw [Parse.eat_bind, Parse.eat_bind]
  refine .takeIf (fun t t' h => h.ofKind? kind) (hend.imp_right (Or.imp (fun hkind => ?_) ?_)) hno
    fun _ _ _ => hyes
  · intro t ht
    exact if_neg (kind_ne_of_closes hkind ht)
  · intro hconsuming
    rwa [Parse.eat_bind] at hconsuming

lemma eat {kind : TokenKind} [Fact kind.Inner] {f f' : Bool → Parse β} [∀ b, Steady (f b)]
    (hend : sure = true ∨ Production.endsStatements kind = false ∨
      Consuming (Parse.eat kind >>= f))
    (hno : Similar w k sure (f false) (f' false))
    (hyes : Similar w k.spend sure (f true) (f' true)) :
    Similar w k sure (Parse.eat kind >>= f) (Parse.eat kind >>= f') :=
  .eat_cases (fun _ => inferInstance) hend hno hyes

lemma any {m m' : Parse α} (h : Similar w k false m m') : Similar w k sure m m' := by
  cases sure with
  | false => exact h
  | true => exact .assured h

lemma spend {m m' : Parse α} (h : Similar w k sure m m') : Similar w k.spend sure m m' :=
  .weaken k.spend_within h

/-- Loops that are similar round by round are similar, if each round consumes a token. -/
lemma loop {ι : Type} (loop loop' : Nat → ι → Parse α) (R : ι → ι → Prop)
    (hzero : ∀ i, loop 0 i = Parse.exhausted) (hzero' : ∀ i, loop' 0 i = Parse.exhausted)
    (hsucc : ∀ k' fuel fuel', k'.within k →
      (∀ i i', R i i' → Similar w k'.spend sure (loop fuel i) (loop' fuel' i')) →
      ∀ i i', R i i' → Similar w k' sure (loop (fuel + 1) i) (loop' (fuel' + 1) i'))
    {fuel fuel' : Nat} (hfuel : k.allows fuel fuel') (i i' : ι) (hi : R i i') :
    Similar w k sure (loop fuel i) (loop' fuel' i') := by
  have hall : ∀ fuel (k' : Budget) fuel', k'.within k → k'.allows fuel fuel' →
      ∀ i i', R i i' → Similar w k' sure (loop fuel i) (loop' fuel' i') := by
    intro fuel
    induction fuel with
    | zero =>
      intro k' fuel' hk hfuel i i' hi
      rw [hzero]
      cases k' with
      | unlimited =>
        obtain rfl : 0 = fuel' := hfuel
        rw [hzero']
        exact .exhausted
      | tokens n => exact .exhausted_left
    | succ fuel ih =>
      intro k' fuel' hk hfuel i i' hi
      have hspent : k'.spend.within k := Budget.within_trans k'.spend_within hk
      cases k' with
      | unlimited =>
        obtain rfl : fuel + 1 = fuel' := hfuel
        exact hsucc .unlimited fuel fuel hk (ih .unlimited fuel hspent rfl) i i' hi
      | tokens n =>
        rcases n with _ | n
        · exact .spent
        · have hle : n + 1 ≤ fuel' := hfuel
          obtain ⟨fuel', rfl⟩ : ∃ f, fuel' = f + 1 := ⟨fuel' - 1, by omega⟩
          refine hsucc (.tokens (n + 1)) fuel fuel' hk (ih (.tokens n) fuel' hspent ?_) i i' hi
          exact Nat.le_of_succ_le_succ hle
  exact hall fuel k fuel' k.within_refl hfuel i i' hi

lemma rounds (loop loop' : Nat → Parse α) (hzero : loop 0 = Parse.exhausted)
    (hzero' : loop' 0 = Parse.exhausted)
    (hsucc : ∀ k' fuel fuel', k'.within k → Similar w k'.spend sure (loop fuel) (loop' fuel') →
      Similar w k' sure (loop (fuel + 1)) (loop' (fuel' + 1)))
    {fuel fuel' : Nat} (hfuel : k.allows fuel fuel') :
    Similar w k sure (loop fuel) (loop' fuel') :=
  .loop (fun fuel (_ : Unit) => loop fuel) (fun fuel _ => loop' fuel) (fun _ _ => True)
    (fun _ => hzero) (fun _ => hzero')
    (fun k' fuel fuel' hk ih _ _ _ => hsucc k' fuel fuel' hk (ih () () trivial))
    hfuel () () trivial

end Similar

end FrontEnd
