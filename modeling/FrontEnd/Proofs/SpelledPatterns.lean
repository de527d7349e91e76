import FrontEnd.Proofs.CommaLists
import FrontEnd.Proofs.Layout
import FrontEnd.Proofs.WellFormed

/-!
# Patterns that are spelled by expressions

The tokens of a pattern without objects can be read as an expression too, and the pattern that this
expression spells is the one that the tokens are read as: names stand for names, and bindings and
lists have the same tokens in both. `Supply.Spells` says so of some tokens, as long as nothing
behind them goes on with an expression, and `Language.spelling` is the language of the patterns
whose tokens have this property, wherever they stand.
-/

namespace FrontEnd

open Parse Production

namespace Supply

/-! ## Tokens ahead -/

/-- The given tokens are ahead of a stream, and then the source ends. -/
def Ahead (F : Supply) (ts : List Token) (s : Stream) : Prop :=
  ∃ before, F.tokens = before ++ ts ∧ F.setting.At before s

variable {F : Supply} {t : Token} {ts us rest : List Token} {s s' : Stream}

lemma ordered (F : Supply) : Ordered F.tokens := by
  obtain ⟨run, ws, hwhole, htokens⟩ := F.whole
  obtain ⟨c, last, c', hrun, -⟩ := hwhole.ends
  rw [htokens]
  exact hrun.ordered (forwardWithin_embeddedReader F.depth)

lemma ahead_start (F : Supply) : F.Ahead F.tokens (.ofReader F.start) :=
  ⟨[], rfl, Setting.at_start⟩

namespace Ahead

lemma feeds (h : F.Ahead ts s) : F.Feeds s := by
  obtain ⟨before, -, hat⟩ := h
  exact hat.of_prefix List.nil_prefix

lemma token (h : F.Ahead ts s) : F.token s.index = ts.head?.getD F.last := by
  obtain ⟨before, htokens, hat⟩ := h
  rw [Supply.token, htokens, hat.index, List.getElem?_append_right (Nat.le_refl _), Nat.sub_self]
  cases ts <;> rfl

lemma token_cons (h : F.Ahead (t :: ts) s) : F.token s.index = t :=
  h.token

lemma look (h : F.Ahead ts s) : F.Ahead ts (F.look s) := by
  have hpeek := h.feeds.peek.1
  obtain ⟨before, htokens, hat⟩ := h
  have hsees := hat.peek
  rw [show F.setting.session = F.session from rfl, hpeek] at hsees
  exact ⟨before, htokens, hsees.1⟩

lemma step (h : F.Ahead (t :: ts) s) : F.Ahead ts (F.look s).step := by
  have hpeek := h.feeds.peek.1
  rw [h.token_cons] at hpeek
  obtain ⟨before, htokens, hat⟩ := h
  have hsees := hat.peek
  rw [show F.setting.session = F.session from rfl, hpeek] at hsees
  have hmem : t ∈ F.tokens := by
    rw [htokens]
    exact List.mem_append_right _ List.mem_cons_self
  exact ⟨before ++ [t], by rw [htokens, List.append_assoc]; rfl, hsees.step (F.inner t hmem)⟩

lemma record (h : F.Ahead ts s) (e : Event) : F.Ahead ts (s.record e) := by
  obtain ⟨before, htokens, hat⟩ := h
  exact ⟨before, htokens, hat.record False.elim⟩

lemma consume_eq {kind : TokenKind} (h : F.Ahead (t :: ts) s) (hkind : t.kind = kind)
    (context : String) : consume kind context F.session s = .ok t (F.look s).step := by
  rw [h.feeds.consume, h.token_cons, if_pos hkind]

lemma identifier_eq (h : F.Ahead (t :: ts) s) (hname : t.kind = .identifier) (context : String) :
    identifier context F.session s = .ok t.ident (F.look s).step := by
  rw [identifier, bind_apply, h.consume_eq hname]
  rfl

lemma merge_previousSpan (h : F.Ahead (t :: (ts ++ rest)) s) (h' : F.Ahead rest s') :
    t.span.merge s'.previousSpan = cover (t :: ts) := by
  obtain ⟨before, htokens, -⟩ := h
  obtain ⟨before', htokens', hat'⟩ := h'
  obtain rfl : before' = before ++ t :: ts := by
    rw [htokens, ← List.cons_append, ← List.append_assoc] at htokens'
    exact (List.append_cancel_right htokens').symm
  obtain ⟨last, hlast⟩ : ∃ last, (t :: ts).getLast? = some last :=
    ⟨_, List.getLast?_eq_some_getLast (List.cons_ne_nil t ts)⟩
  have hlast' : (before ++ t :: ts).getLast? = some last := by
    rw [List.getLast?_append, hlast]
    rfl
  have hsublist : (t :: ts).Sublist F.tokens := by
    rw [htokens']
    exact (List.sublist_append_right _ _).trans (List.sublist_append_left _ _)
  rw [hat'.previousSpan hlast', ← cover_singleton t]
  have hordered : Ordered ([t] ++ ts) := F.ordered.sublist hsublist
  exact cover_merge hordered (List.cons_ne_nil t []) hlast

end Ahead

/-! ## Openings and ends of expressions -/

/-- Nothing goes on with an expression. -/
def Stops (ts : List Token) : Prop :=
  ∀ t ∈ ts.head?, Grammar.standard.continuation? t.kind = none

lemma Ahead.extend_eq (h : F.Ahead rest s) (hstops : Stops rest) (expr : Precedence → Parse Expr)
    (least : Precedence) (fuel : Nat) (left : Expr) :
    extend expr least (fuel + 1) left F.session s = .ok left (F.look s) := by
  have hnone : Grammar.standard.continuation? (F.token s.index).kind = none := by
    rw [h.token]
    cases rest with
    | nil => rfl
    | cons t rest => exact hstops t rfl
  rw [Production.extend, Similar.continuer_bind, bind_apply, read_apply]
  dsimp only
  rw [bind_apply, takeIf_apply, h.feeds.peek.1]
  dsimp only
  rw [show F.session.grammar = .standard from rfl, hnone]
  rfl

lemma Ahead.expressionWithin_of_opened (h : F.Ahead (t :: ts) s) (depth : Nat)
    (least : Precedence) {opening : Opening} {e : Expr}
    (hopening : Grammar.standard.opening? t.kind = some opening)
    (haccepts : opening.accepts t = true)
    (hrun : opened (expressionWithin depth) opening t F.session
      ((F.look s).step.record (.enter opening.name t.lexeme t.span)) = .ok e s')
    (hrest : F.Ahead rest s') (hstops : Stops rest) :
    ∃ s₁, expressionWithin (depth + 1) least F.session s = .ok e s₁ ∧ F.Ahead rest s₁ := by
  have hopener : opener F.session s = .ok (t, opening) (F.look s).step := by
    rw [opener, bind_apply, read_apply]
    dsimp only
    rw [accept_apply, h.feeds.peek.1, h.token_cons]
    dsimp only
    rw [show F.session.grammar = .standard from rfl, hopening, Option.filter_some, if_pos haccepts]
    rfl
  have hleft := hrest.record (.leave opening.name true)
  refine ⟨_, ?_, hleft.look⟩
  rw [expressionWithin, expressionLayer, bind_apply, hopener]
  dsimp only
  rw [expressionFrom, bind_apply, traced_apply, hrun]
  dsimp only
  rw [bind_apply, read_apply]
  exact hleft.extend_eq hstops _ least _ e

lemma Ahead.patternWithin_of_opened (h : F.Ahead (t :: ts) s) (depth : Nat)
    {opening : PatternOpening} {p : Pattern} (hopening : Grammar.standard.pattern? t.kind = some opening)
    (hrun : openedPattern (patternWithin depth) opening t F.session
      ((F.look s).step.record (.enter opening.name t.lexeme t.span)) = .ok p s')
    (hrest : F.Ahead rest s') :
    ∃ s₁, patternWithin (depth + 1) F.session s = .ok p s₁ ∧ F.Ahead rest s₁ := by
  have hopener : patternOpener F.session s = .ok (t, opening) (F.look s).step := by
    rw [patternOpener, bind_apply, read_apply]
    dsimp only
    rw [accept_apply, h.feeds.peek.1, h.token_cons]
    dsimp only
    rw [show F.session.grammar = .standard from rfl, hopening]
    rfl
  refine ⟨_, ?_, hrest.record (.leave opening.name true)⟩
  rw [patternWithin, patternLayer, bind_apply, hopener]
  dsimp only
  rw [traced_apply, hrun]

/-! ## Lists -/

section Lists

variable {α β : Type} {close : TokenKind} {R : List Token → α → Prop} {Q : β → α → Prop}
variable {element : Parse β} {as : List α} {bs : List β}

lemma arranged_of_listed {n : Nat} (element : Parse β) (h : Listed close R ts as)
    (hitem : ∀ {us a t vs s}, us.length ≤ n → R us a → t.kind = .comma ∨ t.kind = close →
      F.Ahead (us ++ t :: vs) s →
      ∃ b s₁, F.Item close element s b s₁ ∧ F.Ahead (t :: vs) s₁ ∧ Q b a)
    (hn : ts.length ≤ n) (hahead : F.Ahead (ts ++ rest) s) :
    ∃ bs s', F.Arranged close element s bs s' ∧ F.Ahead rest s' ∧ List.Forall₂ Q bs as := by
  induction h generalizing s with
  | @done right hright =>
    refine ⟨[], _, .closed ?_, hahead.step, .nil⟩
    rwa [hahead.token_cons]
  | @last us a right ha hright =>
    rw [List.append_assoc] at hahead
    rw [List.length_append] at hn
    obtain ⟨b, s₁, hb, hrest, hq⟩ := hitem (by omega) ha (.inr hright) hahead
    refine ⟨[b], _, .last hb ?_, hrest.step, .cons hq .nil⟩
    rwa [hrest.token_cons]
  | @more us a comma vs as ha hcomma _ ih =>
    rw [List.append_assoc] at hahead
    rw [List.length_append, List.length_cons] at hn
    obtain ⟨b, s₁, hb, hrest, hq⟩ := hitem (by omega) ha (.inl hcomma) hahead
    obtain ⟨bs, s', harranged, hrest', hqs⟩ := ih (by omega) hrest.step
    refine ⟨b :: bs, s', .more hb ?_ harranged, hrest', .cons hq hqs⟩
    rwa [hrest.token_cons]

lemma Arranged.commaSeparated_eq [Steady element] [Consuming element] (hclose : close ≠ .comma)
    (rules : CommaRules) (h : F.Arranged close element s bs s') (hs : F.Feeds s) :
    commaSeparated close rules element F.session s = .ok bs s' := by
  have hdisciplined : F.Disciplined close element (leadingError rules) (separatorError rules)
      (commaSeparated close rules element) :=
    (F.rounds_elements hclose rules element).disciplined (F.consumes element) fun _ => rfl
  exact (hdisciplined.accepts hs).mpr h

end Lists

lemma mapM_patternOfExpr {es : List Expr} {ps : List Pattern}
    (h : List.Forall₂ (fun e p => patternOfExpr e = .ok p) es ps) :
    (es.map patternOfExpr).mapM id = .ok ps := by
  induction h with
  | nil => rfl
  | cons he _ ih =>
    rw [List.map_cons, List.mapM_cons, ih, id, he]
    rfl

/-! ## Patterns -/

/-- Some tokens are read as a pattern wherever they stand, and as an expression that spells it if
nothing behind them goes on with an expression. -/
structure Spells (F : Supply) (ts : List Token) (p : Pattern) : Prop where
  /-- The first token is none that ends a list or separates its elements. -/
  starts : ∃ t us, ts = t :: us ∧ t.kind ≠ .rightBracket ∧ t.kind ≠ .comma
  matched : ∀ depth {rest s}, ts.length ≤ depth → F.Ahead (ts ++ rest) s →
    ∃ s', patternWithin depth F.session s = .ok p s' ∧ F.Ahead rest s'
  reads : ∀ depth least {rest s}, ts.length ≤ depth → Stops rest → F.Ahead (ts ++ rest) s →
    ∃ e s', expressionWithin depth least F.session s = .ok e s' ∧ F.Ahead rest s' ∧
      patternOfExpr e = .ok p

lemma Spells.starts_item {p : Pattern} (h : F.Spells ts p) (hahead : F.Ahead (ts ++ rest) s) :
    F.Starts .rightBracket s := by
  obtain ⟨first, more, rfl, hclose, hcomma⟩ := h.starts
  have htoken : F.token s.index = first := hahead.token
  exact ⟨by rwa [htoken], by rwa [htoken]⟩

lemma Spells.name (hname : t.kind = .identifier) :
    F.Spells [t] ⟨.name t.ident, cover [t]⟩ where
  starts := ⟨t, [], rfl, by rw [hname]; decide, by rw [hname]; decide⟩
  matched := by
    intro depth rest s hdepth h
    obtain ⟨depth, rfl⟩ : ∃ d, depth = d + 1 := ⟨depth - 1, by simp at hdepth; omega⟩
    have hopening : Grammar.standard.pattern? t.kind = some .plain := by rw [hname]; rfl
    rw [cover_singleton]
    exact h.patternWithin_of_opened depth hopening rfl (h.step.record _)
  reads := by
    intro depth least rest s hdepth hstops h
    obtain ⟨depth, rfl⟩ : ∃ d, depth = d + 1 := ⟨depth - 1, by simp at hdepth; omega⟩
    have hopening : Grammar.standard.opening? t.kind = some .identifier := by rw [hname]; rfl
    obtain ⟨s', hrun, hrest⟩ := h.expressionWithin_of_opened depth least
      (e := ⟨.identifier t.ident, t.span⟩) hopening rfl rfl (h.step.record _) hstops
    exact ⟨_, s', hrun, hrest, by rw [Similar.patternOfExpr_mk, cover_singleton]; rfl⟩

/-- A binding spells a named pattern. -/
lemma Spells.named {sign name : Token} {p : Pattern} (hsign : sign.kind = .atSign)
    (hname : name.kind = .identifier) (hp : F.Spells ts p) :
    F.Spells (sign :: name :: ts) ⟨.named name.ident p, cover (sign :: name :: ts)⟩ where
  starts := ⟨sign, _, rfl, by rw [hsign]; decide, by rw [hsign]; decide⟩
  matched := by
    intro depth rest s hdepth h
    obtain ⟨depth, rfl⟩ : ∃ d, depth = d + 1 := ⟨depth - 1, by simp at hdepth; omega⟩
    have hname' := h.step.record (.enter PatternOpening.named.name sign.lexeme sign.span)
    obtain ⟨s₁, hwhole, hrest⟩ := hp.matched depth (by simp at hdepth; omega) hname'.step
    have hopening : Grammar.standard.pattern? sign.kind = some .named := by rw [hsign]; rfl
    refine h.patternWithin_of_opened depth hopening ?_ hrest
    rw [openedPattern, bind_apply, hname'.identifier_eq hname]
    dsimp only
    rw [bind_apply, hwhole]
    dsimp only
    rw [bind_apply, spanFrom_apply, h.merge_previousSpan hrest]
    rfl
  reads := by
    intro depth least rest s hdepth hstops h
    obtain ⟨depth, rfl⟩ : ∃ d, depth = d + 1 := ⟨depth - 1, by simp at hdepth; omega⟩
    have hname' := h.step.record (.enter Opening.binding.name sign.lexeme sign.span)
    obtain ⟨e, s₁, hvalue, hrest, he⟩ := hp.reads depth .lowest (by simp at hdepth; omega) hstops
      hname'.step
    have hrun : opened (expressionWithin depth) .binding sign F.session
        ((F.look s).step.record (.enter Opening.binding.name sign.lexeme sign.span)) =
        .ok ⟨.binding name.ident e, cover (sign :: name :: ts)⟩ s₁ := by
      rw [opened, binding, bind_apply, hname'.identifier_eq hname]
      dsimp only
      rw [bind_apply, hvalue]
      dsimp only
      rw [bind_apply, spanFrom_apply, h.merge_previousSpan hrest]
      rfl
    obtain ⟨s', hrun, hrest⟩ := h.expressionWithin_of_opened depth least (by rw [hsign]; rfl) rfl
      hrun hrest hstops
    refine ⟨_, s', hrun, hrest, ?_⟩
    rw [Similar.patternOfExpr_mk]
    simp only [Form.map, patternOfForm, he]
    rfl

/-- A list of expressions spells a list pattern. -/
lemma Spells.list {R : List Token → Pattern → Prop} {left : Token} {ps : List Pattern}
    (hleft : left.kind = .leftBracket) (h : Listed .rightBracket R ts ps)
    (hR : ∀ {us p}, R us p → F.Spells us p) :
    F.Spells (left :: ts) ⟨.list ps, cover (left :: ts)⟩ where
  starts := ⟨left, ts, rfl, by rw [hleft]; decide, by rw [hleft]; decide⟩
  matched := by
    intro depth rest s hdepth hahead
    obtain ⟨depth, rfl⟩ : ∃ d, depth = d + 1 := ⟨depth - 1, by simp at hdepth; omega⟩
    have hinside := hahead.step.record (.enter PatternOpening.list.name left.lexeme left.span)
    have hitem {us : List Token} {p : Pattern} {t : Token} {vs : List Token} {s : Stream}
        (hus : us.length ≤ depth) (hp : R us p) (_ : t.kind = .comma ∨ t.kind = .rightBracket)
        (hahead : F.Ahead (us ++ t :: vs) s) :
        ∃ q s₁, F.Item .rightBracket (patternWithin depth) s q s₁ ∧ F.Ahead (t :: vs) s₁ ∧
          q = p := by
      obtain ⟨s₁, hrun, hrest⟩ := (hR hp).matched depth hus hahead.look
      exact ⟨p, s₁, ⟨(hR hp).starts_item hahead, hrun⟩, hrest, rfl⟩
    obtain ⟨qs, s₁, harranged, hrest, hqs⟩ :=
      arranged_of_listed _ h hitem (Nat.le_of_succ_le_succ hdepth) hinside
    obtain rfl := List.forall₂_eq_eq_eq ▸ hqs
    have hopening : Grammar.standard.pattern? left.kind = some .list := by rw [hleft]; rfl
    refine hahead.patternWithin_of_opened depth hopening ?_ hrest
    rw [openedPattern, bind_apply,
      harranged.commaSeparated_eq (by decide) listPatternRules hinside.feeds]
    dsimp only
    rw [bind_apply, spanFrom_apply, hahead.merge_previousSpan hrest]
    rfl
  reads := by
    intro depth least rest s hdepth hstops hahead
    obtain ⟨depth, rfl⟩ : ∃ d, depth = d + 1 := ⟨depth - 1, by simp at hdepth; omega⟩
    have hinside := hahead.step.record (.enter Opening.list.name left.lexeme left.span)
    have hitem {us : List Token} {p : Pattern} {t : Token} {vs : List Token} {s : Stream}
        (hus : us.length ≤ depth) (hp : R us p) (ht : t.kind = .comma ∨ t.kind = .rightBracket)
        (hahead : F.Ahead (us ++ t :: vs) s) :
        ∃ e s₁, F.Item .rightBracket (expressionWithin depth .lowest) s e s₁ ∧
          F.Ahead (t :: vs) s₁ ∧ patternOfExpr e = .ok p := by
      have hstops : Stops (t :: vs) := by
        intro u hu
        cases hu
        rcases ht with ht | ht <;> rw [ht] <;> rfl
      obtain ⟨e, s₁, hrun, hrest, he⟩ := (hR hp).reads depth .lowest hus hstops hahead.look
      exact ⟨e, s₁, ⟨(hR hp).starts_item hahead, hrun⟩, hrest, he⟩
    obtain ⟨es, s₁, harranged, hrest, hes⟩ :=
      arranged_of_listed _ h hitem (Nat.le_of_succ_le_succ hdepth) hinside
    have hrun : opened (expressionWithin depth) .list left F.session
        ((F.look s).step.record (.enter Opening.list.name left.lexeme left.span)) =
        .ok ⟨.list es, cover (left :: ts)⟩ s₁ := by
      rw [opened, Production.list, bind_apply,
        harranged.commaSeparated_eq (by decide) listRules hinside.feeds]
      dsimp only
      rw [bind_apply, spanFrom_apply, hahead.merge_previousSpan hrest]
      rfl
    obtain ⟨s', hrun, hrest⟩ := hahead.expressionWithin_of_opened depth least (by rw [hleft]; rfl)
      rfl hrun hrest hstops
    refine ⟨_, s', hrun, hrest, ?_⟩
    rw [Similar.patternOfExpr_mk]
    simp only [Form.map, patternOfForm, mapM_patternOfExpr hes]
    rfl

end Supply

/-! ## Patterns elsewhere -/

namespace View

variable {w : View} {α : Type} [Spanned α] {a : α} {as bs cs : List α}

lemma Rel.eq_nil (h : w.Rel [] cs) : cs = [] :=
  List.map_eq_nil_iff.mp h.symm

lemma Rel.exists_cons (h : w.Rel (a :: as) cs) :
    ∃ a' as', cs = a' :: as' ∧ w.Rel a a' ∧ w.Rel as as' := by
  cases cs with
  | nil => exact absurd (List.map_eq_nil_iff.mp h) (List.cons_ne_nil a as)
  | cons c cs => exact ⟨c, cs, rfl, rel_cons.mp h⟩

lemma Rel.exists_append (h : w.Rel (as ++ bs) cs) :
    ∃ as' bs', cs = as' ++ bs' ∧ w.Rel as as' ∧ w.Rel bs bs' := by
  induction as generalizing cs with
  | nil => exact ⟨[], cs, rfl, rfl, h⟩
  | cons a as ih =>
    obtain ⟨c, cs, rfl, hc, hcs⟩ := Rel.exists_cons h
    obtain ⟨as', bs', rfl, has, hbs⟩ := ih hcs
    exact ⟨c :: as', bs', rfl, rel_cons.mpr ⟨hc, has⟩, hbs⟩

end View

lemma Listed.elsewhere {w : View} {α : Type} [Spanned α] {close : TokenKind}
    {R R' : List Token → α → Prop} {ts ts' : List Token} {as : List α} (h : Listed close R ts as)
    (hrel : w.Rel ts ts')
    (hR : ∀ {us us' a}, a ∈ as → R us a → w.Rel us us' → ∃ a', w.Rel a a' ∧ R' us' a') :
    ∃ as', w.Rel as as' ∧ Listed close R' ts' as' := by
  induction h generalizing ts' with
  | done hright =>
    obtain ⟨right', nil', rfl, hright', hnil⟩ := View.Rel.exists_cons hrel
    obtain rfl := View.Rel.eq_nil hnil
    exact ⟨[], rfl, .done (hright'.kind_eq.symm.trans hright)⟩
  | last ha hright =>
    obtain ⟨us', vs', rfl, hus, hvs⟩ := View.Rel.exists_append hrel
    obtain ⟨right', nil', rfl, hright', hnil⟩ := View.Rel.exists_cons hvs
    obtain rfl := View.Rel.eq_nil hnil
    obtain ⟨a', ha', hr⟩ := hR (List.mem_singleton.mpr rfl) ha hus
    exact ⟨[a'], View.rel_cons.mpr ⟨ha', rfl⟩, .last hr (hright'.kind_eq.symm.trans hright)⟩
  | more ha hcomma h ih =>
    obtain ⟨us', vs', rfl, hus, hvs⟩ := View.Rel.exists_append hrel
    obtain ⟨comma', vs', rfl, hcomma', hvs⟩ := View.Rel.exists_cons hvs
    obtain ⟨a', ha', hr⟩ := hR List.mem_cons_self ha hus
    obtain ⟨as', has, hlisted⟩ := ih hvs fun hmem => hR (List.mem_cons_of_mem _ hmem)
    exact ⟨a' :: as', View.rel_cons.mpr ⟨ha', has⟩,
      .more hr (hcomma'.kind_eq.symm.trans hcomma) hlisted⟩

/-- The language of the patterns whose tokens, wherever they stand, make up a pattern and an
expression that spells it, if they hold no patterns of objects. -/
def Language.spelling : Language :=
  { Language.any with
    pattern := fun ts p => p.Objectless → ∀ ts', View.erasing.Rel ts ts' →
      ∃ p', View.erasing.Rel p p' ∧ ∀ F : Supply, F.Spells ts' p' }

namespace Language

lemma grounded_spelling (K : Setting) : spelling.Grounded K where
  token _ := trivial
  type _ := trivial
  path _ := trivial
  pattern := by
    intro ts p h hobjectless ts' hrel
    cases h with
    | name hname =>
      obtain ⟨name', nil', rfl, hname', hnil⟩ := View.Rel.exists_cons hrel
      obtain rfl := View.Rel.eq_nil hnil
      have hident := hname'.ident_rel
      refine ⟨⟨.name name'.ident, cover [name']⟩, by simp_all [View.Rel], fun F => ?_⟩
      exact .name (hname'.kind_eq.symm.trans hname)
    | named hsign hname hp =>
      obtain ⟨sign', us', rfl, hsign', hus⟩ := View.Rel.exists_cons hrel
      obtain ⟨name', us', rfl, hname', hus⟩ := View.Rel.exists_cons hus
      cases hobjectless with
      | named hobjectless =>
        obtain ⟨p', hp', hspells⟩ := hp hobjectless us' hus
        have hident := hname'.ident_rel
        refine ⟨⟨.named name'.ident p', cover (sign' :: name' :: us')⟩, by simp_all [View.Rel],
          fun F => ?_⟩
        exact .named (hsign'.kind_eq.symm.trans hsign) (hname'.kind_eq.symm.trans hname) (hspells F)
    | list hleft hlisted =>
      obtain ⟨left', us', rfl, hleft', hus⟩ := View.Rel.exists_cons hrel
      cases hobjectless with
      | list hobjectless =>
        obtain ⟨ps', hps, hlisted'⟩ : ∃ ps', View.erasing.Rel _ ps' ∧
            Listed .rightBracket (fun us p => ∀ F : Supply, F.Spells us p) us' ps' :=
          hlisted.elsewhere hus fun hmem hp hrel => hp (hobjectless _ hmem) _ hrel
        refine ⟨⟨.list ps', cover (left' :: us')⟩, by simp_all [View.Rel], fun F => ?_⟩
        exact .list (hleft'.kind_eq.symm.trans hleft) hlisted' fun hp => hp F
    | object hleft hlisted => cases hobjectless

end Language

end FrontEnd
