import FrontEnd.Proofs.TypeTexts

/-!
# Type parameters keep their bounds

A list of type parameters that is written out with its bounds is read with the same names and
bounds, all of them and in order. A `WrittenParam` says what is to be written: a name, a supertype
or none, and any number of traits.
-/

namespace FrontEnd

open Parse Production

/-! ## Written parameters -/

/-- A type parameter to write out. A single trait may stand without parentheses. -/
structure WrittenParam where
  name : String
  supertype : Option TypeExpr
  traits : List TypeExpr
  bare : Bool

namespace WrittenParam

/-- The text of a supertype, if there is one. -/
def supertypeText : Option TypeExpr → String
  | none => ""
  | some t => " <= " ++ t.text

/-- The text of traits, if there are any. -/
def traitsText (bare : Bool) : List TypeExpr → String
  | [] => ""
  | t :: ts =>
    if bare ∧ ts = [] then ": " ++ t.text
    else ": (" ++ ", ".intercalate ((t :: ts).map TypeExpr.text) ++ ")"

def text (p : WrittenParam) : String :=
  p.name ++ supertypeText p.supertype ++ traitsText p.bare p.traits

/-- The text of parameters in their brackets. -/
def listText (ps : List WrittenParam) : String :=
  "[" ++ ", ".intercalate (ps.map text) ++ "]"

/-- What a parameter asks for, in order. -/
def bounds (p : WrittenParam) : List (BoundKind × TypeExpr) :=
  p.supertype.toList.map (.extending, ·) ++ p.traits.map (.implementing, ·)

/-- All names in a parameter are names that an identifier may be. -/
structure Named (p : WrittenParam) : Prop where
  name : IsPlainName p.name
  supertype : ∀ t ∈ p.supertype, t.Named
  traits : ∀ t ∈ p.traits, t.Named

/-- A type parameter has the name and the bounds that were written, up to places. -/
structure Keeps (p : WrittenParam) (q : TypeParam) : Prop where
  name : q.type.name.name = p.name
  plain : q.type.isPlain = true
  links : erase q.constraint.links = erase p.bounds
  unconstrained : q.constraint = .unconstrained ↔ p.supertype = none ∧ p.traits = []

end WrittenParam

/-! ## Reading bounds -/

/-- The tokens of a written parameter. -/
inductive ParamTokens : List Token → WrittenParam → Prop where
  | mk {name us vs p traits} (hname : name.kind = .identifier) (htext : name.text = p.name)
    (hsupertype : Announced .lessEqual ReadAsType us p.supertype)
    (htraits : Announced .colon (Traits .ofTypes) vs traits) (heq : traits.getD [] = p.traits) :
    ParamTokens (name :: (us ++ vs)) p

lemma Announced.notNext {α : Type} {lead kind : TokenKind} {R : List Token → α → Prop}
    {ts rest : List Token} {o : Option α} (h : Announced lead R ts o) (hne : lead ≠ kind)
    (hrest : NotNext kind rest) : NotNext kind (ts ++ rest) := by
  cases h with
  | absent => exact hrest
  | present ht => exact notNext_cons (by rwa [ht])

lemma Constraint.chain_eq_unconstrained {bounds : List (BoundKind × TypeExpr)} :
    chain bounds = .unconstrained ↔ bounds = [] := by
  cases bounds with
  | nil => exact iff_of_true rfl rfl
  | cons b bs => exact iff_of_false nofun (List.cons_ne_nil b bs)

section Reading

variable {F : Supply} {ts rest : List Token} {s : Stream} {types : List TypeExpr}

lemma erase_bounds {kind : BoundKind} {ts us : List TypeExpr} (h : erase ts = erase us) :
    erase (ts.map (kind, ·)) = erase (us.map (kind, ·)) := by
  have hmap (ts : List TypeExpr) : erase (ts.map (kind, ·)) = (erase ts).map (kind, ·) := by
    induction ts with
    | nil => rfl
    | cons t ts ih => exact congrArg (_ :: ·) ih
  rw [hmap, hmap, h]

lemma extendingBounds_eq {supertype : Option TypeExpr}
    (h : Announced .lessEqual ReadAsType ts supertype) (hless : NotNext .lessEqual rest)
    (hrest : NotNext .leftBracket rest) (hahead : F.Ahead (ts ++ rest) s) :
    ∃ bounds s', extendingBounds F.session s = .ok bounds s' ∧ F.Ahead rest s' ∧
      erase bounds = erase (supertype.toList.map (BoundKind.extending, ·)) := by
  rw [extendingBounds, bind_apply]
  cases h with
  | absent =>
    rw [List.nil_append] at hahead
    rw [hahead.eat_ne hless (by decide)]
    exact ⟨[], _, rfl, hahead.look, rfl⟩
  | @present less us type hless h =>
    rw [hahead.eat_cons hless]
    dsimp only
    obtain ⟨t, s', hrun, hend, heq⟩ := h.typeExpr_eq hrest hahead.step
    have hone : erase [t] = erase [type] := congrArg (fun t => [t]) heq
    rw [if_pos rfl, bind_apply, hrun]
    exact ⟨[(.extending, t)], s', rfl, hend, erase_bounds hone⟩

lemma implementedBounds_eq (h : Traits .ofTypes ts types) (hrest : NotNext .leftBracket rest)
    (hahead : F.Ahead (ts ++ rest) s) :
    ∃ types' s', implementedBounds F.session s = .ok types' s' ∧ F.Ahead rest s' ∧
      erase types' = erase types := by
  rw [implementedBounds, bind_apply]
  cases h with
  | @single ts type h =>
    obtain ⟨name, us, rfl, hname⟩ := ReadAsType.starts h
    have hparen : NotNext .leftParen (name :: (us ++ rest)) :=
      notNext_cons (by rw [hname]; decide)
    rw [hahead.eat_ne hparen (by decide)]
    dsimp only
    obtain ⟨t, s', hrun, hend, heq⟩ := ReadAsType.typeExpr_eq h hrest hahead.look
    rw [if_neg Bool.false_ne_true, bind_apply, hrun]
    exact ⟨[t], s', rfl, hend, congrArg (fun t => [t]) heq⟩
  | @several left ts _ hleft h hne =>
    obtain ⟨name, us, rfl, hname⟩ := h.startsWithName hne ReadAsType.starts
    have hinside := hahead.step
    rw [hahead.eat_cons hleft]
    dsimp only
    rw [if_pos rfl, bind_apply, hinside.nextIs_ne (by rw [hname]; decide)]
    have hlimit : typeExpr F.session = typeWithin F.session.limit F.session := rfl
    obtain ⟨types', s', hrun, hend, htypes⟩ := hinside.look.commaSeparated_eq typeExpr typeRules h
      (by decide) hinside.length_le
      (fun hus ha hnext hahead => ha.item ⟨by decide, by decide⟩ hlimit hus hnext hahead)
    exact ⟨types', s', hrun, hend, ReadAsType.erase_eq_of_forall₂ htypes⟩

lemma implementingBounds_eq {traits : Option (List TypeExpr)}
    (h : Announced .colon (Traits .ofTypes) ts traits) (hcolon : NotNext .colon rest)
    (hrest : NotNext .leftBracket rest) (hahead : F.Ahead (ts ++ rest) s) :
    ∃ bounds s', implementingBounds F.session s = .ok bounds s' ∧ F.Ahead rest s' ∧
      erase bounds = erase ((traits.getD []).map (BoundKind.implementing, ·)) := by
  rw [implementingBounds, bind_apply]
  cases h with
  | absent =>
    rw [List.nil_append] at hahead
    rw [hahead.eat_ne hcolon (by decide)]
    exact ⟨[], _, rfl, hahead.look, rfl⟩
  | present hcolon h =>
    rw [hahead.eat_cons hcolon]
    dsimp only
    obtain ⟨types, s', hrun, hend, htypes⟩ := implementedBounds_eq h hrest hahead.step
    rw [if_pos rfl, bind_apply, hrun]
    exact ⟨types.map (.implementing, ·), s', rfl, hend, erase_bounds htypes⟩

/-- A written parameter is read with its name and its bounds. -/
lemma typeParam_eq {p : WrittenParam} (h : ParamTokens ts p)
    (hrest : ∀ kind ∈ [TokenKind.leftBracket, .lessEqual, .colon], NotNext kind rest)
    (hahead : F.Ahead (ts ++ rest) s) :
    ∃ q s', typeParam F.session s = .ok q s' ∧ F.Ahead rest s' ∧ p.Keeps q := by
  obtain @⟨name, us, vs, p, traits, hname, htext, hsupertype, htraits, heq⟩ := h
  obtain ⟨hbracket, hless, hcolon⟩ : NotNext .leftBracket rest ∧ NotNext .lessEqual rest ∧
      NotNext .colon rest := by
    simpa using hrest
  rw [List.cons_append, List.append_assoc] at hahead
  obtain ⟨extending, s₁, hrun, hahead₁, hextending⟩ := extendingBounds_eq hsupertype
    (htraits.notNext (by decide) hless) (htraits.notNext (by decide) hbracket) hahead.step
  obtain ⟨implementing, s₂, hrun', hahead₂, himplementing⟩ :=
    implementingBounds_eq htraits hcolon hbracket hahead₁
  rw [heq] at himplementing
  have hwhole : typeParam F.session s = .ok ⟨.mk name.ident [] name.span,
      Constraint.chain (extending ++ implementing)⟩ s₂ := by
    rw [typeParam, bind_apply, hahead.identifier_eq hname]
    dsimp only
    rw [bind_apply, hrun]
    dsimp only
    rw [bind_apply, hrun']
    rfl
  have hlinks : erase (extending ++ implementing) = erase p.bounds := by
    unfold erase at hextending himplementing ⊢
    rw [WrittenParam.bounds, respan_append, respan_append, hextending, himplementing]
  refine ⟨_, s₂, hwhole, hahead₂, htext, rfl, ?_, ?_⟩
  · rw [Constraint.links_chain, hlinks]
  · have hlength := congrArg List.length hlinks
    unfold erase at hlength
    rw [respan_list, respan_list, List.length_map, List.length_map] at hlength
    rw [Constraint.chain_eq_unconstrained, ← List.length_eq_zero_iff, hlength,
      List.length_eq_zero_iff, WrittenParam.bounds, List.append_eq_nil_iff, List.map_eq_nil_iff,
      List.map_eq_nil_iff, Option.toList_eq_nil_iff]

lemma typeParams_eq {ps : List WrittenParam} {left : Token} (hleft : left.kind = .leftBracket)
    (h : Listed .rightBracket ParamTokens ts ps) (hahead : F.Ahead (left :: (ts ++ rest)) s) :
    ∃ qs s', typeParams F.session s = .ok qs s' ∧ F.Ahead rest s' ∧
      List.Forall₂ (fun q p => p.Keeps q) qs ps := by
  obtain ⟨qs, s', hrun, hend, hqs⟩ := hahead.step.commaSeparated_eq (n := ts.length) typeParam
    typeRules h (by decide) (Nat.le_refl _) fun {us p next vs s} _ hp hnext hahead => by
      have hrest (kind : TokenKind) (hkind : kind ∈ [TokenKind.leftBracket, .lessEqual, .colon]) :
          NotNext kind (next :: vs) := by
        refine notNext_cons ?_
        rintro rfl
        rcases hnext with hnext | hnext <;> rw [hnext] at hkind <;> revert hkind <;> decide
      obtain ⟨q, s₁, hrun, hend, hq⟩ := typeParam_eq hp hrest hahead.look
      have hstarts : StartsWithName us := by
        obtain ⟨hname, -⟩ := hp
        exact ⟨_, _, rfl, hname⟩
      exact ⟨q, s₁, ⟨hahead.starts hstarts (by decide), hrun⟩, hend, hq⟩
  refine ⟨qs, s', ?_, hend, hqs⟩
  rw [typeParams, discard_eq, bind_assoc, bind_apply, hahead.consume_eq hleft]
  exact hrun

end Reading

/-! ## The texts of parameters -/

namespace WrittenParam

/-- The text of traits is read as those traits. -/
lemma tells_traits (bare : Bool) {traits : List TypeExpr} (h : ∀ t ∈ traits, t.Named) :
    (Tells (traitsText bare traits).toList fun ts => ∃ o,
      Announced .colon (Traits .ofTypes) ts o ∧ o.getD [] = traits) ∧
      NameEnd (traitsText bare traits).toList := by
  cases traits with
  | nil =>
    refine ⟨Tells.nil.mono ?_, fun c hc => by cases hc⟩
    rintro _ rfl
    exact ⟨none, .absent, rfl⟩
  | cons t ts =>
    rw [traitsText]
    by_cases hbare : bare = true ∧ ts = []
    · rw [if_pos hbare]
      obtain ⟨-, rfl⟩ := hbare
      have hcolon := ((h t (List.mem_singleton_self t)).tells).mark .colon 1
      rw [String.toList_append]
      refine ⟨hcolon.mono ?_, nameEnd_cons (by decide)⟩
      rintro _ ⟨colon, us, rfl, hcolon, hus⟩
      exact ⟨some [t], .present hcolon (.single hus), rfl⟩
    · rw [if_neg hbare]
      have hlist := Tells.list .rightParen fun u hu => (h u hu).tells
      have htext : (": (" ++ ", ".intercalate ((t :: ts).map TypeExpr.text) ++ ")").toList =
          ':' :: (List.replicate 1 ' ' ++ '(' :: (List.replicate 0 ' ' ++
            ([',', ' '].intercalate ((t :: ts).map (·.text.toList)) ++ [')']))) := by
        rw [String.toList_append, String.toList_append, String.toList_intercalate, List.map_map,
          List.append_assoc]
        rfl
      rw [htext]
      refine ⟨((hlist.mark .leftParen 0).mark .colon 1).mono ?_, nameEnd_cons (by decide)⟩
      rintro _ ⟨colon, us, rfl, hcolon, left, vs, rfl, hleft, hvs⟩
      exact ⟨some (t :: ts), .present hcolon (.several hleft hvs (List.cons_ne_nil t ts)), rfl⟩

lemma Named.tells {p : WrittenParam} (h : p.Named) : Tells p.text.toList (ParamTokens · p) := by
  obtain ⟨name, supertype, traits, bare⟩ := p
  obtain ⟨hname, hsupertype, htraits⟩ := h
  obtain ⟨htells, hend⟩ := tells_traits bare htraits
  have hfront : Tells (name ++ supertypeText supertype).toList fun ts => ∃ t us, ts = t :: us ∧
      (t.kind = .identifier ∧ t.text = name) ∧ Announced .lessEqual ReadAsType us supertype := by
    cases supertype with
    | none =>
      rw [supertypeText, String.append_empty]
      refine (Tells.name hname).mono ?_
      rintro _ ⟨t, rfl, ht⟩
      exact ⟨t, [], rfl, ht, .absent⟩
    | some type =>
      have hop := Tells.op hname .le (hsupertype type rfl).tells
      rw [supertypeText, String.toList_append, String.toList_append]
      refine hop.mono ?_
      rintro _ ⟨t, less, us, rfl, ht, hless, hus⟩
      exact ⟨t, less :: us, rfl, ht, .present hless hus⟩
  rw [text, String.toList_append]
  refine (hfront.append htells hend).mono ?_
  rintro _ ⟨_, vs, rfl, ⟨t, us, rfl, ⟨hkind, htext⟩, hus⟩, o, hvs, ho⟩
  exact .mk hkind htext hus hvs ho

end WrittenParam

/-- Type parameters keep all their bounds, in order. Whatever names, supertypes and traits some
parameters are written with, they are read through the end of the text: as many parameters, with the
names that were written, each with the bound of its supertype, if there is one, and those of its
traits behind it, up to places; and a parameter is unconstrained just if no bound was written. -/
theorem type_params_keep_bounds (ps : List WrittenParam) (h : ∀ p ∈ ps, p.Named) :
    ∃ qs, ReadsWhole typeParams (WrittenParam.listText ps) qs ∧
      List.Forall₂ (fun q p => p.Keeps q) qs ps := by
  have hlist := Tells.list .rightBracket fun p hp => (h p hp).tells
  have htext : (WrittenParam.listText ps).toList = '[' :: (List.replicate 0 ' ' ++
      ([',', ' '].intercalate (ps.map (·.text.toList)) ++ [']'])) := by
    rw [WrittenParam.listText, String.toList_append, String.toList_append,
      String.toList_intercalate, List.map_map, List.append_assoc]
    rfl
  have htells := hlist.mark .leftBracket 0
  rw [Punctuation.char, Punctuation.char, ← htext] at htells
  refine htells.readsWhole fun F ts s ⟨left, us, hts, hleft, hus⟩ hahead => ?_
  rw [hts, ← List.append_nil us] at hahead
  exact typeParams_eq hleft hus hahead

/-- Three parameters: with both kinds of bounds, with a single trait, and without bounds. -/
theorem type_params_keep_bounds_mixed :
    let type (name : String) (params : List TypeExpr) : TypeExpr :=
      .mk ⟨name, Span.zero⟩ params Span.zero
    let ps : List WrittenParam :=
      [⟨"T", some (type "Base" [type "U" []]), [type "Eq" [], type "Hash" [type "K" []]], false⟩,
        ⟨"U", none, [type "Ord" []], true⟩, ⟨"V", none, [], false⟩]
    WrittenParam.listText ps = "[T <= Base[U]: (Eq, Hash[K]), U: Ord, V]" ∧ (∀ p ∈ ps, p.Named) ∧
      ∃ qs, ReadsWhole typeParams (WrittenParam.listText ps) qs ∧
        List.Forall₂ (fun q p => p.Keeps q) qs ps := by
  intro type ps
  have hps : ∀ p ∈ ps, p.Named := by
    simp only [ps, List.forall_mem_cons]
    exact ⟨⟨by decide +kernel, by decide +kernel, by decide +kernel⟩,
      ⟨by decide +kernel, by decide +kernel, by decide +kernel⟩,
      ⟨by decide +kernel, by decide +kernel, by decide +kernel⟩, List.forall_mem_nil _⟩
  exact ⟨by decide +kernel, hps, type_params_keep_bounds ps hps⟩

end FrontEnd
