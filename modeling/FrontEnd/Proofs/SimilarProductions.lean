import FrontEnd.Proofs.Similar
import FrontEnd.Proofs.SteadyProductions

/-!
# Every production is similar to itself

Each production, with sub-productions and tokens that look alike, is similar to itself. The lemmas
follow the productions; those about loops take what a round consumes from the budget.
-/

namespace FrontEnd.Similar

set_option linter.unusedSectionVars false

open Production

variable {w : View} {k : Budget} {sure : Bool} {α : Type} [Spanned α]

/-! ## Lists with commas -/

lemma separated {close : TokenKind} :
    Similar w k true (separated close) (separated close) :=
  .eat (.inl rfl) (.nextIs _ (.inl rfl)) (.pure rfl)

lemma elements {close : TokenKind} [Fact close.Inner] {rules : CommaRules}
    {element element' : Parse α} [Steady element] [Consuming element]
    (h : Similar w k false element element') {fuel fuel' : Nat} (hfuel : k.allows fuel fuel') :
    Similar w k sure (elements close rules element fuel)
      (elements close rules element' fuel') := by
  refine .rounds (Production.elements close rules element)
    (Production.elements close rules element') rfl rfl ?_ hfuel
  intro k' fuel fuel' hk ih
  refine .eat (.inr (.inr ?_)) ?_ (.pure rfl)
  · exact inferInstanceAs (Consuming (Production.elements close rules element (fuel + 1)))
  · refine .bind (.nextIs _ (.inr rfl)) fun b b' hb => ?_
    obtain rfl := hb.eq
    refine .ite _ (fun _ => .refuseNext) fun _ => ?_
    refine .bind_spending (h.weaken hk).any fun first first' hfirst => ?_
    refine .bind_before .separated fun more more' hmore => ?_
    obtain rfl := hmore.eq
    refine .ite _ (fun _ => ?_) fun _ => .refuseNext
    exact .bind ih fun rest rest' hrest => .pure (by simp_all [View.Rel])

lemma commaSeparated {close : TokenKind} [Fact close.Inner] {rules : CommaRules}
    {element element' : Parse α} [Steady element] [Consuming element]
    (h : Similar w k false element element') :
    Similar w k sure (commaSeparated close rules element)
      (commaSeparated close rules element') :=
  .read fun _ _ _ _ _ hk hlimit => .elements (h.weaken hk) hlimit

/-! ## Types -/

section Types

variable {param param' : Parse TypeExpr} [Steady param] [Consuming param]

lemma typeArguments (h : Similar w k false param param') :
    Similar w k sure (typeArguments param) (typeArguments param') := by
  refine .eat (.inr (.inl rfl)) (.pure rfl) ?_
  refine .bind_before (.nextIs _ (.inl rfl)) fun b b' hb => ?_
  obtain rfl := hb.eq
  exact .ite _ (fun _ => .refuseNext) fun _ => .commaSeparated h.spend

lemma typeLayer (h : Similar w k.spend false param param') :
    Similar w k sure (typeLayer param) (typeLayer param') := by
  refine .bind_spending (.identifier _) fun name name' hname => ?_
  refine .bind (.typeArguments h) fun params params' hparams => ?_
  have hspan : w.Rel name.span name'.span := congrArg Ident.span hname
  exact .bind (.spanFrom hspan) fun span span' hs => .pure (by simp_all [View.Rel])

lemma typeWithin {fuel fuel' : Nat} (hfuel : k.allows fuel fuel') :
    Similar w k sure (typeWithin fuel) (typeWithin fuel') :=
  any (.rounds Production.typeWithin Production.typeWithin rfl rfl
    (fun _ _ _ _ ih => .typeLayer ih) hfuel)

lemma typeExpr : Similar w k sure typeExpr typeExpr :=
  .read fun _ _ _ _ _ _ hlimit => .typeWithin hlimit

lemma implementedBounds : Similar w k sure implementedBounds implementedBounds := by
  refine .eat (.inr (.inl rfl)) ?_ ?_
  · exact .bind .typeExpr fun type type' htype => .pure (by simp_all [View.Rel])
  · refine .bind_before (.nextIs _ (.inl rfl)) fun b b' hb => ?_
    obtain rfl := hb.eq
    exact .ite _ (fun _ => .refuseNext) fun _ => .commaSeparated .typeExpr

lemma extendingBounds : Similar w k sure extendingBounds extendingBounds := by
  refine .eat (.inr (.inl rfl)) (.pure rfl) ?_
  exact .bind .typeExpr fun type type' htype => .pure (by simp_all [View.Rel])

lemma implementingBounds : Similar w k sure implementingBounds implementingBounds := by
  refine .eat (.inr (.inl rfl)) (.pure rfl) ?_
  refine .bind .implementedBounds fun types types' htypes => .pure ?_
  have hmap : ∀ (φ : Span → Span) (ts : List TypeExpr),
      respan φ (ts.map (BoundKind.implementing, ·)) =
        (respan φ ts).map (BoundKind.implementing, ·) := by
    intro φ ts
    induction ts <;> simp_all
  rw [View.Rel, hmap, hmap, show respan w.left types = respan w.right types' from htypes]

lemma typeParam : Similar w k sure typeParam typeParam := by
  refine .bind (.identifier _) fun name name' hname => ?_
  refine .bind .extendingBounds fun extending extending' hextending => ?_
  refine .bind .implementingBounds fun implementing implementing' himplementing => .pure ?_
  have hspan : w.left name.span = w.right name'.span := congrArg Ident.span hname
  simp_all [View.Rel]

lemma typeParams : Similar w k sure typeParams typeParams :=
  .bind (.discard (.consume _ _)) fun _ _ _ => .commaSeparated .typeParam

lemma optionalTypeParams : Similar w k sure optionalTypeParams optionalTypeParams := by
  refine .bind (.nextIs _ (.inr rfl)) fun b b' hb => ?_
  obtain rfl := hb.eq
  exact .ite _ (fun _ => .typeParams) fun _ => .pure rfl

lemma optionalType : Similar w k sure optionalType optionalType := by
  refine .eat (.inr (.inl rfl)) (.pure rfl) ?_
  exact .bind .typeExpr fun type type' htype => .pure (View.rel_some_some.mpr htype)

end Types

/-! ## Patterns -/

section Patterns

variable {sub sub' : Parse Pattern} [Steady sub] [Consuming sub]

lemma objectField (h : Similar w k.spend false sub sub') :
    Similar w k sure (objectField sub) (objectField sub') := by
  refine .bind_spending (.identifier _) fun name name' hname => ?_
  refine .eat (.inr (.inl rfl)) (.pure (by simp_all [View.Rel])) ?_
  exact .bind h.any.spend fun p p' hp => .pure (by simp_all [View.Rel])

lemma openedPattern (h : Similar w k false sub sub') (opening : PatternOpening)
    {token token' : Token} (ht : w.Rel token token') :
    Similar w k sure (openedPattern sub opening token) (openedPattern sub' opening token') := by
  cases opening with
  | named =>
    refine .bind (.identifier _) fun name name' hname => ?_
    refine .bind h.any fun whole whole' hwhole => ?_
    exact .bind (.spanFrom ht.span_rel) fun _ _ _ => .pure (by simp_all [View.Rel])
  | plain =>
    have hident := ht.ident_rel
    have hspan := ht.span_rel
    exact .pure (by simp_all [View.Rel])
  | list =>
    refine .bind (.commaSeparated h) fun patterns patterns' hpatterns => ?_
    exact .bind (.spanFrom ht.span_rel) fun _ _ _ => .pure (by simp_all [View.Rel])
  | object =>
    refine .bind (.commaSeparated (.objectField h.spend)) fun fields fields' hfields => ?_
    exact .bind (.spanFrom ht.span_rel) fun _ _ _ => .pure (by simp_all [View.Rel])

lemma patternOpener : Similar w k sure patternOpener patternOpener := by
  refine .read fun σ σ' _ hσ hσ' _ _ => ?_
  have hspares := spares_pattern hσ
  rw [hσ] at hspares
  rw [hσ, hσ']
  refine .accept (fun t t' h => ?_) fun t t' h => ?_
  · rw [h.kind_eq]
    cases Grammar.standard.pattern? t'.kind with
    | none => rfl
    | some opening => exact View.rel_some_some.mpr (View.rel_pair.mpr ⟨h, rfl⟩)
  · have hspan : w.left t.span = w.right t'.span := h.span_rel
    simp [View.Rel, noPattern, Diagnostic.grammatical, respan, h.lexeme_eq, hspan]

lemma patternLayer (h : Similar w k.spend false sub sub') :
    Similar w k sure (patternLayer sub) (patternLayer sub') := by
  refine .bind_spending .patternOpener fun o o' ho => ?_
  obtain ⟨token, opening⟩ := o
  obtain ⟨token', opening'⟩ := o'
  obtain ⟨ht, hopening⟩ := View.rel_pair.mp ho
  obtain rfl := hopening.eq
  exact .traced ht (.openedPattern h opening ht)

lemma patternWithin {fuel fuel' : Nat} (hfuel : k.allows fuel fuel') :
    Similar w k sure (patternWithin fuel) (patternWithin fuel') :=
  any (.rounds Production.patternWithin Production.patternWithin rfl rfl
    (fun _ _ _ _ ih => .patternLayer ih) hfuel)

lemma pattern : Similar w k sure pattern pattern :=
  .read fun _ _ _ _ _ _ hlimit => .patternWithin hlimit

end Patterns

/-! ## Imports -/

section Imports

variable {inner inner' : Parse ImportSection} [Steady inner] [Consuming inner]

lemma importList (h : Similar w k false inner inner') :
    Similar w k sure (importList inner) (importList inner') := by
  refine .bind_before (.nextIs _ (.inl rfl)) fun b b' hb => ?_
  obtain rfl := hb.eq
  refine .ite _ (fun _ => .refuseNext) fun _ => ?_
  exact .bind (.commaSeparated h) fun _ _ _ => .pure (by simp_all [View.Rel])

lemma importName (h : Similar w k false inner inner') {name name' : Ident}
    (hname : w.Rel name name') :
    Similar w k sure (importName inner name) (importName inner' name') := by
  refine .eat (.inr (.inl rfl)) ?_ ?_
  · refine .eat (.inr (.inl rfl)) (.pure (by simp_all [View.Rel])) ?_
    exact .bind (.identifier _) fun _ _ _ => .pure (by simp_all [View.Rel])
  · exact .bind h.any.spend fun _ _ _ => .pure (by simp_all [View.Rel])

lemma rel_importOpening? {t t' : Token} (h : w.Rel t t') :
    w.Rel (importOpening? t) (importOpening? t') := by
  have hident : respan w.left t.ident = respan w.right t'.ident := h.ident_rel
  unfold importOpening?
  rw [h.kind_eq]
  split
  · rfl
  · simp [View.Rel, hident]
  · rfl

lemma importLayer (h : Similar w k.spend false inner inner') :
    Similar w k sure (importLayer inner) (importLayer inner') := by
  refine .bind_spending_cases (fun o => by cases o <;> infer_instance)
    (.accept (fun t t' => rel_importOpening?) fun t t' ht => ?_) fun o o' ho => ?_
  · have hspan : w.left t.span = w.right t'.span := ht.span_rel
    simp [View.Rel, Parse.unexpected, Diagnostic.grammatical, respan, ht.lexeme_eq, hspan]
  · cases o <;> cases o' <;> simp only [View.Rel, respan_openingList, respan_openingName] at ho
    · exact .importList h
    · cases ho
    · cases ho
    · injection ho with hident
      exact .importName h hident

lemma importWithin {fuel fuel' : Nat} (hfuel : k.allows fuel fuel') :
    Similar w k sure (importWithin fuel) (importWithin fuel') :=
  any (.rounds Production.importWithin Production.importWithin rfl rfl
    (fun _ _ _ _ ih => .importLayer ih) hfuel)

lemma importing {token token' : Token} (ht : w.Rel token token') :
    Similar w k sure (importing token) (importing token') := by
  refine .read fun σ σ' _ _ _ _ hlimit => ?_
  refine .bind (.importWithin hlimit) fun path path' hpath => ?_
  exact .bind (.spanFrom ht.span_rel) fun _ _ _ => .pure (by simp_all [View.Rel])

end Imports

/-! ## Enumerations -/

section Enums

lemma checkEnumComma : Similar w k sure checkEnumComma checkEnumComma := by
  refine .bind (.nextIs _ (.inr rfl)) fun b b' hb => ?_
  obtain rfl := hb.eq
  exact .ite _ (fun _ => .refuseNext) fun _ => .pure rfl

lemma enumItemEnd {close : TokenKind} {context : String} :
    Similar w k true (enumItemEnd close context) (enumItemEnd close context) := by
  refine .bind (.nextIs _ (.inl rfl)) fun b b' hb => ?_
  obtain rfl := hb.eq
  exact .ite _ (fun _ => .pure rfl) fun _ => .discard (.consume _ _)

lemma enumItems {close : TokenKind} [Fact close.Inner] {context : String}
    {item item' : Parse α} [Steady item] [Consuming item]
    (h : Similar w k false item item') {fuel fuel' : Nat} (hfuel : k.allows fuel fuel') :
    Similar w k sure (enumItems close context item fuel)
      (enumItems close context item' fuel') := by
  refine .rounds (Production.enumItems close context item)
    (Production.enumItems close context item') rfl rfl ?_ hfuel
  intro k' fuel fuel' hk ih
  refine .eat (.inr (.inr ?_)) ?_ (.pure rfl)
  · exact inferInstanceAs (Consuming (Production.enumItems close context item (fuel + 1)))
  · refine .bind .checkEnumComma fun _ _ _ => ?_
    refine .bind_spending (h.weaken hk).any fun first first' hfirst => ?_
    refine .bind_before .enumItemEnd fun _ _ _ => ?_
    exact .bind ih fun rest rest' hrest => .pure (by simp_all [View.Rel])

lemma variantFields : Similar w k sure variantFields variantFields :=
  .read fun _ _ _ _ _ _ hlimit => .enumItems .typeExpr hlimit

lemma optionalFields : Similar w k sure optionalFields optionalFields :=
  .eat (.inr (.inl rfl)) (.pure rfl) .variantFields

lemma variant : Similar w k sure variant variant := by
  refine .bind (.identifier _) fun name name' hname => ?_
  exact .bind .optionalFields fun fields fields' hfields => .pure (by simp_all [View.Rel])

lemma enumVariants : Similar w k sure enumVariants enumVariants :=
  .read fun _ _ _ _ _ _ hlimit => .enumItems .variant hlimit

lemma enumDef {token token' : Token} (ht : w.Rel token token') :
    Similar w k sure (enumDef token) (enumDef token') := by
  refine .bind (.identifier _) fun name name' hname => ?_
  refine .bind .optionalTypeParams fun params params' hparams => ?_
  refine .bind (.discard (.consume _ _)) fun _ _ _ => ?_
  refine .bind .enumVariants fun variants variants' hvariants => ?_
  exact .bind (.spanFrom ht.span_rel) fun _ _ _ => .pure (by simp_all [View.Rel])

end Enums

end FrontEnd.Similar
