import FrontEnd.Proofs.Phrases
import FrontEnd.Proofs.Reading
import FrontEnd.Proofs.SteadyProductions

/-!
# Lists, types, patterns, imports and enumerations read their phrases

Each production reads the phrases of the grammar that it is written for. A loop reads its phrases
because every round consumes a token, so that its limit is not reached before the source is.
-/

namespace FrontEnd.Setting

open Parse Production

variable {K : Setting} {Λ : Language} {before : List Token}

/-! ## Lists with commas -/

section Comma

variable {α β : Type} {close : TokenKind}

namespace Reads

lemma separated_bind {since : List Token} {f : Bool → Parse β} {Q : List Token → β → Prop}
    (hcomma : ∀ t : Token, t.kind = .comma → K.Reads before (since ++ [t]) (f true) Q)
    (hclose : K.ReadsIf (·.kind = close) before since (f true) Q)
    (hneither : K.Reads before since (f false) Q) :
    K.Reads before since (separated close >>= f) Q := by
  rw [separated, bind_assoc]
  refine .eat_bind ?_ fun t ht => ?_
  · exact .nextIs_bind hclose hneither.ahead
  · exact hcomma t ht

end Reads

variable {rules : CommaRules} {element : Parse α} {R : List Token → α → Prop}
variable [Fact close.Inner]

lemma ReadsIf.elements {fuel : Nat}
    (hfuel : K.Affords before fuel) :
    K.ReadsIf (·.kind = close) before [] (elements close rules element fuel)
      (fun ts elements => elements = [] ∧ ∃ t : Token, t.kind = close ∧ ts = [t]) := by
  cases fuel with
  | zero => exact .exhausted (by simpa using hfuel)
  | succ fuel =>
    refine .eat_bind (fun ⟨_, hclose, hne⟩ => absurd hclose hne) fun t _ ht => ?_
    exact .pure ⟨rfl, t, ht, rfl⟩ rfl

variable [Consuming element]

namespace Reads

lemma elements_and_ahead {fuel : Nat}
    (hfuel : K.Affords before fuel)
    (helement : K.ReadsPast before element R) :
    K.Reads before [] (elements close rules element fuel) (Listed close R) ∧
      K.ReadsIf (·.kind ≠ close) before [] (Production.elements close rules element fuel)
        (fun ts elements => Listed close R ts elements ∧ elements ≠ []) := by
  induction fuel generalizing before with
  | zero => exact ⟨.exhausted (by simpa using hfuel), .exhausted (by simpa using hfuel)⟩
  | succ fuel ih =>
    have hnonempty : K.Reads before [] (do
        if ← nextIs .comma then
          Parse.refuseNext rules.leading.1 rules.leading.2
        else
          let first ← element
          if ← separated close then
            return first :: (← Production.elements close rules element fuel)
          else
            Parse.refuseNext rules.separator.1 rules.separator.2)
        (fun ts elements => Listed close R ts elements ∧ elements ≠ []) := by
      refine .nextIs_bind (ahead .refuseNext) (ahead ?_)
      refine .bind_past helement.ne_nil fun ts first ⟨hfirst, hne⟩ => ?_
      refine .separated_bind (fun comma hcomma => ?_) ?_ .refuseNext
      · refine .bind_part (ih ?_ (helement.past _)).1 fun us rest hrest => ?_
        · exact hfuel.append (List.append_ne_nil_of_left_ne_nil hne _)
        · exact .pure ⟨.more hfirst hcomma hrest, by simp⟩ (by simp)
      · refine .bind_part (.elements ?_) fun us rest hrest => ?_
        · exact hfuel.append hne
        · obtain ⟨rfl, right, hright, rfl⟩ := hrest
          exact .pure ⟨.last hfirst hright, by simp⟩ (by simp)
    constructor
    · refine .eat_bind (hnonempty.mono fun _ _ h => h.1) fun right hright => ?_
      exact .pure (.done hright) rfl
    · exact .eat_bind (fun _ => hnonempty) fun t hne ht => absurd ht hne

lemma commaSeparated (helement : K.ReadsPast before element R) :
    K.Reads before [] (commaSeparated close rules element) (Listed close R) :=
  .read_bind (elements_and_ahead (K.affords_limit _) helement).1

end Reads

lemma ReadsIf.commaSeparated (helement : K.ReadsPast before element R) :
    K.ReadsIf (·.kind ≠ close) before [] (commaSeparated close rules element)
      (fun ts elements => Listed close R ts elements ∧ elements ≠ []) :=
  .read_bind (Reads.elements_and_ahead (K.affords_limit _) helement).2

end Comma

namespace Reads

/-! ## Types -/

section Types

lemma typeArguments {param : Parse TypeExpr} [Consuming param]
    (hparam : K.ReadsPast before param Λ.type) :
    K.Reads before [] (typeArguments param) (TypeArguments Λ) := by
  refine .eat_bind (.pure .absent rfl) fun left hleft => ?_
  refine .nextIs_bind (ahead .refuseNext) ?_
  exact .part (.commaSeparated (hparam.past _)) fun ts types ⟨htypes, hne⟩ =>
    .present hleft htypes hne

lemma typeLayer {param : Parse TypeExpr} [Consuming param]
    (hparam : K.ReadsWithin before param Λ.type) :
    K.Reads before [] (typeLayer param) (TypePhrase Λ) := by
  refine .identifier_bind fun name hname => ?_
  refine .bind_part (.typeArguments (hparam.past (by simp))) fun ts params hparams => ?_
  exact .spanned_token (.mk hname hparams) rfl rfl

variable (hΛ : Λ.Grounded K)
include hΛ

lemma typeWithin {fuel : Nat} (hfuel : K.Affords before fuel) :
    K.Reads before [] (typeWithin fuel) (TypePhrase Λ) := by
  induction fuel generalizing before with
  | zero => exact .exhausted (by simpa using hfuel)
  | succ fuel ih =>
    refine .typeLayer fun since hne => (ih (hfuel.append hne)).mono fun _ _ => hΛ.type

lemma typeExpr : K.ReadsPast before typeExpr Λ.type :=
  fun _ => .read_bind ((typeWithin hΛ (K.affords_limit _)).mono fun _ _ => hΛ.type)

lemma extendingBounds :
    K.Reads before [] extendingBounds fun ts bounds => ∃ extending,
      Announced .lessEqual Λ.type ts extending ∧ bounds = extending.toList.map (.extending, ·) := by
  refine .eat_bind (.pure ⟨none, .absent, rfl⟩ rfl) fun t ht => ?_
  refine .bind_past (typeExpr hΛ) fun ts type htype => ?_
  exact .pure ⟨some type, .present ht htype, rfl⟩ rfl

lemma implementedBounds : K.Reads before [] implementedBounds (Traits Λ) := by
  refine .eat_bind ?_ fun left hleft => ?_
  · exact .bind_past (typeExpr hΛ) fun ts type htype => .pure (.single htype) rfl
  · refine .nextIs_bind (ahead .refuseNext) ?_
    exact .part (.commaSeparated (typeExpr hΛ)) fun ts types ⟨htypes, hne⟩ =>
      .several hleft htypes hne

lemma implementingBounds :
    K.Reads before [] implementingBounds fun ts bounds => ∃ implementing,
      Announced .colon (Traits Λ) ts implementing ∧
        bounds = (implementing.getD []).map (.implementing, ·) := by
  refine .eat_bind (.pure ⟨none, .absent, rfl⟩ rfl) fun t ht => ?_
  refine .bind_part (implementedBounds hΛ) fun ts types htypes => ?_
  exact .pure ⟨some types, .present ht htypes, rfl⟩ rfl

lemma typeParam : K.ReadsPast before typeParam (TypeParamPhrase Λ) := by
  refine fun _ => .identifier_bind fun name hname => ?_
  refine .bind_part (extendingBounds hΛ) fun ts _ ⟨extending, hextending, heq⟩ => ?_
  refine .bind_part (implementingBounds hΛ) fun us _ ⟨implementing, himplementing, heq'⟩ => ?_
  subst heq heq'
  exact .pure (.mk hname hextending himplementing) rfl

lemma typeParams : K.Reads before [] typeParams (TypeParams Λ) := by
  refine .expect_bind fun left hleft => ?_
  exact .part (.commaSeparated (typeParam hΛ)) fun ts params hparams =>
    .present hleft hparams

lemma optionalTypeParams : K.Reads before [] optionalTypeParams (TypeParams Λ) :=
  .nextIs_bind (typeParams hΛ).ahead (ahead (.pure .absent rfl))

lemma optionalType : K.Reads before [] optionalType (Announced .colon Λ.type) := by
  refine .eat_bind (.pure .absent rfl) fun t ht => ?_
  exact .bind_past (typeExpr hΛ) fun ts type htype => .pure (.present ht htype) rfl

end Types

/-! ## Patterns -/

section Patterns

variable {sub : Parse Pattern} [Steady sub] [Consuming sub]

lemma pattern?_eq_some {kind : TokenKind} {opening : PatternOpening}
    (h : Grammar.standard.pattern? kind = some opening) :
    kind = match opening with
      | .named => .atSign
      | .plain => .identifier
      | .list => .leftBracket
      | .object => .leftBrace := by
  change Grammar.standardPattern? kind = _ at h
  unfold Grammar.standardPattern? at h
  split at h <;> cases h <;> rfl

omit [Steady sub] [Consuming sub] in
lemma objectField (hsub : K.ReadsWithin before sub Λ.pattern) :
    K.Reads before [] (objectField sub) (FieldPhrase Λ) := by
  refine .identifier_bind fun name hname => ?_
  refine .eat_bind (.pure (.mk hname .absent) rfl) fun colon hcolon => ?_
  refine .bind_within hsub (by simp) fun ts pattern hpattern => ?_
  exact .pure (.mk hname (.present hcolon hpattern)) rfl

lemma openedPattern {opening : PatternOpening} {token : Token}
    (hopening : Grammar.standard.pattern? token.kind = some opening)
    (hsub : K.ReadsWithin before sub Λ.pattern) :
    K.Reads before [token] (openedPattern sub opening token) (PatternPhrase Λ) := by
  have hkind := pattern?_eq_some hopening
  cases opening with
  | named =>
    refine .identifier_bind fun name hname => ?_
    refine .bind_within hsub (by simp) fun ts whole hwhole => ?_
    exact .spanned_token (.named hkind hname hwhole) rfl rfl
  | plain =>
    exact .pure (by simpa using PatternPhrase.name (Λ := Λ) hkind) rfl
  | list =>
    refine .bind_part (.commaSeparated (hsub.past (by simp))) fun ts elements helements => ?_
    exact .spanned_token (.list hkind helements) rfl rfl
  | object =>
    have hfield : K.ReadsPast (before ++ [token]) (Production.objectField sub) (FieldPhrase Λ) :=
      fun since => .objectField (((hsub.past (by simp)).past since).within)
    refine .bind_part (.commaSeparated hfield) fun ts fields hfields => ?_
    exact .spanned_token (.object hkind hfields) rfl rfl

lemma patternLayer (hsub : K.ReadsWithin before sub Λ.pattern) :
    K.Reads before [] (patternLayer sub) (PatternPhrase Λ) := by
  have hspares := spares_pattern K.grammar
  rw [Production.patternLayer, Production.patternOpener, bind_assoc]
  refine .read_bind (.accept_bind (fun _ => rfl) fun t _ _ ht => ?_)
  obtain ⟨opening, hopening, rfl⟩ := Option.map_eq_some_iff.mp ht
  rw [K.grammar] at hopening
  exact .traced (.openedPattern hopening hsub)

variable (hΛ : Λ.Grounded K)
include hΛ

lemma patternWithin {fuel : Nat} (hfuel : K.Affords before fuel) :
    K.Reads before [] (patternWithin fuel) (PatternPhrase Λ) := by
  induction fuel generalizing before with
  | zero => exact .exhausted (by simpa using hfuel)
  | succ fuel ih =>
    refine .patternLayer fun since hne => (ih (hfuel.append hne)).mono fun _ _ => hΛ.pattern

lemma pattern_phrase : K.Reads before [] pattern (PatternPhrase Λ) :=
  .read_bind (patternWithin hΛ (K.affords_limit _))

lemma pattern : K.ReadsPast before pattern Λ.pattern :=
  fun _ => (pattern_phrase hΛ).mono fun _ _ => hΛ.pattern

end Patterns

/-! ## Imports -/

section Imports

variable {inner : Parse ImportSection} [Consuming inner]

lemma importList {left : Token} (hleft : left.kind = .leftBrace)
    (hinner : K.ReadsWithin before inner Λ.path) :
    K.Reads before [left] (importList inner) (PathPhrase Λ) := by
  refine .nextIs_bind (ahead .refuseNext) ?_
  refine .bind_part (.commaSeparated (hinner.past (by simp))) fun ts sections ⟨hsections, hne⟩ => ?_
  exact .pure (.list hleft hsections hne) rfl

omit [Consuming inner] in
lemma importName {name : Token} (hname : name.kind = .identifier)
    (hinner : K.ReadsWithin before inner Λ.path) :
    K.Reads before [name] (importName inner name.ident) (PathPhrase Λ) := by
  refine .eat_bind ?_ fun dot hdot => ?_
  · refine .eat_bind (.pure (.terminal hname) rfl) fun keyword hkeyword => ?_
    exact .identifier_bind fun localName hlocal => .pure (.renamed hname hkeyword hlocal) rfl
  · refine .bind_within hinner (by simp) fun ts rest hrest => ?_
    exact .pure (.element hname hdot hrest) rfl

lemma importLayer (hinner : K.ReadsWithin before inner Λ.path) :
    K.Reads before [] (importLayer inner) (PathPhrase Λ) := by
  refine .accept_bind (fun _ => rfl) fun t o _ ht => ?_
  unfold importOpening? at ht
  split at ht
  · cases ht
    exact .importList ‹_› hinner
  · cases ht
    exact .importName ‹_› hinner
  · cases ht

variable (hΛ : Λ.Grounded K)
include hΛ

lemma importWithin {fuel : Nat} (hfuel : K.Affords before fuel) :
    K.Reads before [] (importWithin fuel) (PathPhrase Λ) := by
  induction fuel generalizing before with
  | zero => exact .exhausted (by simpa using hfuel)
  | succ fuel ih =>
    refine .importLayer fun since hne => (ih (hfuel.append hne)).mono fun _ _ => hΛ.path

lemma importing {token : Token} :
    K.Reads before [token] (importing token) (Spelled (Opened Λ .importing)) := by
  refine .read_bind (.bind_part (importWithin hΛ (K.affords_limit _)) ?_)
  intro ts path hpath
  exact .spanned_token ⟨.importing (hΛ.path hpath), rfl⟩ rfl rfl

end Imports

/-! ## Enumerations -/

section Enums

variable {α : Type} {close : TokenKind} [Fact close.Inner] {context : String} {item : Parse α}
variable {R : List Token → α → Prop}

omit [Fact close.Inner] in
lemma checkEnumComma_bind {since : List Token} {β : Type} {f : Unit → Parse β}
    {Q : List Token → β → Prop} (hf : K.Reads before since (f ()) Q) :
    K.Reads before since (checkEnumComma >>= f) Q := by
  rw [checkEnumComma, bind_assoc]
  exact .nextIs_bind (ahead (.bind (P := fun _ _ => False) .refuseNext nofun)) (ahead hf)

omit [Fact close.Inner] in
lemma enumItemEnd_bind {since : List Token} {β : Type} {f : Unit → Parse β}
    {Q : List Token → β → Prop}
    (hcomma : ∀ t : Token, t.kind = .comma → K.Reads before (since ++ [t]) (f ()) Q)
    (hclose : K.ReadsIf (·.kind = close) before since (f ()) Q) :
    K.Reads before since (enumItemEnd close context >>= f) Q := by
  rw [enumItemEnd, bind_assoc]
  exact .nextIs_bind hclose (ahead (.expect_bind hcomma))

lemma enumItems_ahead {fuel : Nat} (hfuel : K.Affords before fuel) :
    K.ReadsIf (·.kind = close) before [] (enumItems close context item fuel)
      (fun ts items => items = [] ∧ ∃ t : Token, t.kind = close ∧ ts = [t]) := by
  cases fuel with
  | zero => exact .exhausted (by simpa using hfuel)
  | succ fuel =>
    refine .eat_bind (fun ⟨_, hclose, hne⟩ => absurd hclose hne) fun t _ ht => ?_
    exact .pure ⟨rfl, t, ht, rfl⟩ rfl

variable [Consuming item]

lemma enumItems {fuel : Nat} (hfuel : K.Affords before fuel)
    (hitem : K.ReadsPast before item R) :
    K.Reads before [] (enumItems close context item fuel) (Listed close R) := by
  induction fuel generalizing before with
  | zero => exact .exhausted (by simpa using hfuel)
  | succ fuel ih =>
    refine .eat_bind ?_ fun right hright => .pure (.done hright) rfl
    refine .checkEnumComma_bind ?_
    refine .bind_past hitem.ne_nil fun ts first ⟨hfirst, hne⟩ => ?_
    refine .enumItemEnd_bind (fun comma hcomma => ?_) ?_
    · refine .bind_part (ih ?_ (hitem.past _)) fun us rest hrest => ?_
      · exact hfuel.append (List.append_ne_nil_of_left_ne_nil hne _)
      · exact .pure (.more hfirst hcomma hrest) (by simp)
    · refine .bind_part (enumItems_ahead ?_) fun us rest hrest => ?_
      · exact hfuel.append hne
      · obtain ⟨rfl, right, hright, rfl⟩ := hrest
        exact .pure (.last hfirst hright) (by simp)

end Enums

section EnumDef

variable (hΛ : Λ.Grounded K)
include hΛ

lemma variantFields : K.Reads before [] variantFields (Listed .rightParen Λ.type) :=
  .read_bind (enumItems (K.affords_limit _) (typeExpr hΛ))

lemma optionalFields :
    K.Reads before [] optionalFields (Bracketed .leftParen .rightParen Λ.type) := by
  refine .eat_bind (.pure .absent rfl) fun left hleft => ?_
  exact .part (variantFields hΛ) fun ts fields hfields =>
    .present hleft hfields

lemma variant : K.ReadsPast before variant (VariantPhrase Λ) := by
  refine fun _ => .identifier_bind fun name hname => ?_
  refine .bind_part (optionalFields hΛ) fun ts fields hfields => ?_
  exact .pure (.mk hname hfields) rfl

lemma enumDef {token : Token} :
    K.Reads before [token] (enumDef token) (Spelled (Opened Λ .enumDef)) := by
  refine .identifier_bind fun name hname => ?_
  refine .bind_part (optionalTypeParams hΛ) fun ts params hparams => ?_
  refine .expect_bind fun left hleft => ?_
  refine .bind_part (.read_bind (enumItems (K.affords_limit _) (variant hΛ)))
    fun us variants hvariants => ?_
  exact .spanned_token ⟨.enumDef hname hparams hleft hvariants, rfl⟩ rfl (by simp)

end EnumDef

end Reads

end FrontEnd.Setting
