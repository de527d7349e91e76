import FrontEnd.Proofs.SimilarBlocks
import FrontEnd.Proofs.Yields

/-!
# Phrases that yield their trees

`Language.yielding` is the language of the phrases whose tokens yield what they spell. It is closed,
as each production of the grammar puts together what its parts yield, and adds the names, the labels
and the nodes of its own.
-/

namespace FrontEnd

open Production

/-! ## Lists and optional parts -/

section Parts

variable {α : Type} {R : List Token → α → Prop} {f : α → List Nest} {g : α → Nest}
variable {ts : List Token} {kind left : TokenKind}

lemma Listed.yields {as : List α} (h : Listed kind R ts as)
    (hR : ∀ {ts a}, R ts a → Yields ts (f a)) (hkind : kind.isLeaf = false) :
    Yields ts (as.flatMap f) := by
  induction h with
  | done hright => exact .mark hright hkind
  | last ha hright =>
    rw [List.flatMap_singleton, ← List.append_nil (f _)]
    exact .append (hR ha) (.mark hright hkind)
  | more ha hcomma h ih => exact .append (hR ha) (.mark_append hcomma rfl ih)

lemma Listed.yields_map {as : List α} (h : Listed kind R ts as)
    (hR : ∀ {ts a}, R ts a → Yields ts [g a]) (hkind : kind.isLeaf = false) :
    Yields ts (as.map g) := by
  rw [List.map_eq_flatMap]
  exact h.yields hR hkind

lemma Bracketed.yields {as : List α} (h : Bracketed left kind R ts as)
    (hR : ∀ {ts a}, R ts a → Yields ts (f a)) (hleft : left.isLeaf = false)
    (hkind : kind.isLeaf = false) : Yields ts (as.flatMap f) := by
  cases h with
  | absent => exact .nil
  | present hopener h => exact .mark_append hopener hleft (h.yields hR hkind)

lemma Optionally.yields {o : Option α} (h : Optionally R ts o)
    (hR : ∀ {ts a}, R ts a → Yields ts [g a]) : Yields ts (o.toList.map g) := by
  cases h with
  | absent => exact .nil
  | present h => exact hR h

lemma Announced.yields {o : Option α} (h : Announced kind R ts o)
    (hR : ∀ {ts a}, R ts a → Yields ts [g a]) (hkind : kind.isLeaf = false) :
    Yields ts (o.toList.map g) := by
  cases h with
  | absent => exact .nil
  | present ht h => exact .mark_append ht hkind (hR h)

end Parts

/-! ## The language -/

/-- The tokens of an expression yield what it is made of, and have its range. Where it is labelled,
the label comes first. -/
structure Spells (ts : List Token) (e : Expr) : Prop where
  yields : Yields ts e.nests
  ne_nil : ts ≠ []
  span_eq : e.span = cover ts
  labelled : e.label? ≠ none → ∃ t us, ts = t :: us ∧ t.kind = .label

lemma Spells.nest {ts : List Token} {e : Expr} (h : Spells ts e) : Yields ts [e.nest] := by
  rw [Expr.nest_eq, h.span_eq]
  exact .node h.ne_nil h.yields

/-- The language of the phrases that yield what they spell. -/
def Language.yielding : Language where
  token t := Grammar.standard.opening? t.kind = some .literal →
    ∀ value, t.literal? = some value → Yields [t] (value.nests id Expr.nest)
  expr _ := Spells
  type ts type := Yields ts [type.nest]
  pattern ts pattern := Yields ts [pattern.nest]
  path ts path := Yields ts path.nests

section Phrases

variable {ts : List Token}

/-! ## Types, patterns and import paths -/

lemma TypeArguments.yields {types : List TypeExpr} (h : TypeArguments .yielding ts types) :
    Yields ts (types.map TypeExpr.nest) := by
  cases h with
  | absent => exact .nil
  | present hleft h hne => exact .mark_append hleft rfl (h.yields_map id rfl)

lemma TypePhrase.yields {type : TypeExpr} (h : TypePhrase .yielding ts type) :
    Yields ts [type.nest] := by
  obtain ⟨hname, h⟩ := h
  rw [TypeExpr.nest_mk]
  exact .node (List.cons_ne_nil _ _) (.cons (.ident hname) h.yields)

lemma Traits.yields {types : List TypeExpr} (h : Traits .yielding ts types) :
    Yields ts (types.map TypeExpr.nest) := by
  cases h with
  | single h => exact h
  | several hleft h hne => exact .mark_append hleft rfl (h.yields_map id rfl)

lemma TypeParamPhrase.yields {param : TypeParam} (h : TypeParamPhrase .yielding ts param) :
    Yields ts param.nests := by
  obtain @⟨name, ts, us, extending, implementing, hname, hextending, himplementing⟩ := h
  have htype : Yields [name] [(TypeExpr.mk name.ident [] name.span).nest] := by
    rw [TypeExpr.nest_mk, ← cover_singleton name]
    exact .node (List.cons_ne_nil _ _) (.ident hname)
  have himplemented : Yields us ((implementing.getD []).map TypeExpr.nest) := by
    cases himplementing with
    | absent => exact .nil
    | present hcolon h => exact .mark_append hcolon rfl h.yields
  have hnests := Yields.cons htype (.append (hextending.yields id rfl) himplemented)
  simpa [TypeParam.nests, Function.comp_def] using hnests

lemma FieldPhrase.yields {field : Field Pattern} (h : FieldPhrase .yielding ts field) :
    Yields ts (field.nests Pattern.nest) := by
  obtain ⟨hname, h⟩ := h
  exact .cons (.ident hname) (h.yields id rfl)

lemma PatternPhrase.yields {pattern : Pattern} (h : PatternPhrase .yielding ts pattern) :
    Yields ts [pattern.nest] := by
  have hne := h.ne_nil
  cases h with
  | name hname =>
    rw [Pattern.nest_name]
    exact .node hne (.ident hname)
  | named hsign hname h =>
    rw [Pattern.nest_named]
    exact .node hne (.mark_append hsign rfl (.cons (.ident hname) h))
  | list hleft h =>
    rw [Pattern.nest_list]
    exact .node hne (.mark_append hleft rfl (h.yields_map id rfl))
  | object hleft h =>
    rw [Pattern.nest_object]
    exact .node hne (.mark_append hleft rfl (h.yields FieldPhrase.yields rfl))

lemma PathPhrase.yields {path : ImportSection} (h : PathPhrase .yielding ts path) :
    Yields ts path.nests := by
  cases h with
  | terminal hname =>
    rw [ImportSection.nests_terminal]
    exact .ident hname
  | renamed hname hkeyword hlocal =>
    rw [ImportSection.nests_terminal]
    exact .cons (.ident hname) (.mark_append hkeyword rfl (.ident hlocal))
  | element hname hdot h =>
    rw [ImportSection.nests_element]
    exact .cons (.ident hname) (.mark_append hdot rfl h)
  | list hleft h hne =>
    rw [ImportSection.nests_list]
    exact .mark_append hleft rfl (h.yields id rfl)

/-! ## Blocks and declarations -/

lemma BlockPhrase.yields {block : Block Expr} (h : BlockPhrase .yielding ts block) :
    Yields ts (block.nests Expr.nest) := by
  obtain ⟨hleft, h, hright⟩ := h
  refine .node (List.cons_ne_nil _ _) (.mark_append hleft rfl ?_)
  rw [← List.append_nil (List.map _ _)]
  exact .append (h.yields Spells.nest) (.mark hright rfl)

lemma DeclarationPhrase.yields {kind : DeclKind} {declared : Declaration Expr}
    (h : DeclarationPhrase .yielding kind ts declared) : Yields ts (declared.nests Expr.nest) := by
  obtain ⟨hpattern, htype, hvalue, -⟩ := h
  rw [List.append_assoc]
  exact .append hpattern (.append (htype.yields id rfl) (hvalue.yields Spells.nest rfl))

lemma ParamPhrase.yields {param : Param Expr} (h : ParamPhrase .yielding ts param) :
    Yields ts [param.nest Expr.nest] := by
  obtain ⟨hpattern, hcolon, htype, hvalue⟩ := h
  rw [List.append_assoc]
  refine .node (List.append_ne_nil_of_left_ne_nil hpattern.ne_nil _) (.append hpattern ?_)
  exact .append (.mark_append hcolon rfl htype) (hvalue.yields Spells.nest rfl)

lemma LambdaParamPhrase.yields {param : Param Expr} (h : LambdaParamPhrase .yielding ts param) :
    Yields ts [param.nest Expr.nest] := by
  obtain ⟨hpattern, htype, hvalue⟩ := h
  rw [List.append_assoc]
  refine .node (List.append_ne_nil_of_left_ne_nil hpattern.ne_nil _) (.append hpattern ?_)
  exact .append (htype.yields id rfl) (hvalue.yields Spells.nest rfl)

lemma LambdaParams.yields {params : List (Param Expr)} (h : LambdaParams .yielding ts params)
    (hlead : ∀ t, ts.head? = some t → t.kind.isLeaf = false) :
    Yields ts (params.map (·.nest Expr.nest)) := by
  cases h with
  | absent hsign => exact .mark rfl (hlead _ rfl)
  | present hsign h => exact .mark_append hsign rfl (h.yields_map LambdaParamPhrase.yields rfl)

lemma BodyPhrase.yields {allowSignature : Bool} {body : Option (Block Expr)}
    (h : BodyPhrase .yielding allowSignature ts body) :
    Yields ts (body.toList.flatMap (·.nests Expr.nest)) := by
  cases h with
  | signature hallowed hleft hright => exact .mark_append hleft rfl (.mark hright rfl)
  | block h =>
    rw [Option.toList_some, List.flatMap_singleton]
    exact h.yields

lemma FunctionPhrase.yields {name : Ident} {allowSignature : Bool} {function : FunctionDef Expr}
    (h : FunctionPhrase .yielding name allowSignature ts function) :
    Yields ts (function.nestsBehind Expr.nest) := by
  obtain ⟨htypeParams, hleft, hparams, hreturned, hbody⟩ := h
  refine .append (.append (.append (htypeParams.yields TypeParamPhrase.yields rfl rfl) ?_)
    (hreturned.yields id)) hbody.yields
  exact .mark_append hleft rfl (hparams.yields_map ParamPhrase.yields rfl)

lemma FunctionPhrase.name_eq {name : Ident} {allowSignature : Bool} {function : FunctionDef Expr}
    (h : FunctionPhrase .yielding name allowSignature ts function) : function.name = name := by
  cases h; rfl

/-! ## Control flow -/

lemma BlockPhrase.yields_blockExpr {block : Block Expr} (h : BlockPhrase .yielding ts block) :
    Yields ts [(blockExpr block).nest] := by
  rw [Expr.nest_eq, blockExpr, h.span_eq]
  exact .node h.ne_nil h.yields

lemma ConditionalPhrase.spells {e : Expr} (h : ConditionalPhrase .yielding ts e) :
    Spells ts e := by
  induction h with
  | alone hkeyword hcondition hconsequence =>
    refine ⟨.mark_append hkeyword rfl ?_, List.cons_ne_nil _ _, rfl, fun h => absurd rfl h⟩
    refine .append hcondition.nest ?_
    simpa using hconsequence.yields
  | otherwise hkeyword hcondition hconsequence hother halternative =>
    refine ⟨.mark_append hkeyword rfl ?_, List.cons_ne_nil _ _, rfl, fun h => absurd rfl h⟩
    rw [List.append_assoc]
    exact .append hcondition.nest
      (.append hconsequence.yields (.mark_append hother rfl halternative.yields_blockExpr))
  | chained hkeyword hcondition hconsequence hother hnested ih =>
    refine ⟨.mark_append hkeyword rfl ?_, List.cons_ne_nil _ _, rfl, fun h => absurd rfl h⟩
    rw [List.append_assoc]
    exact .append hcondition.nest (.append hconsequence.yields (.mark_append hother rfl ih.nest))

lemma nest_of_mapM {es : List Expr}
    (hes : ∀ e ∈ es, ∀ {pattern}, patternOfExpr e = .ok pattern → pattern.nest = e.nest)
    {patterns : List Pattern} (h : (es.map patternOfExpr).mapM id = .ok patterns) :
    patterns.map Pattern.nest = es.map Expr.nest := by
  induction es generalizing patterns with
  | nil =>
    cases h
    rfl
  | cons e es ih =>
    rw [List.map_cons, List.mapM_cons] at h
    cases hp : patternOfExpr e with
    | error place =>
      rw [hp] at h
      cases h
    | ok p =>
      cases hps : (es.map patternOfExpr).mapM id with
      | error place =>
        rw [hp, hps] at h
        cases h
      | ok ps =>
        rw [hp, hps] at h
        cases h
        rw [List.map_cons, List.map_cons, hes e List.mem_cons_self hp,
          ih (fun e he => hes e (List.mem_cons_of_mem _ he)) hps]

/-- A pattern that an expression spells is made of the same. -/
lemma patternOfExpr_nest (e : Expr) :
    ∀ {pattern}, patternOfExpr e = .ok pattern → pattern.nest = e.nest := by
  induction e using Expr.layered_induction with
  | step form span =>
    intro pattern h
    rw [Similar.patternOfExpr_mk] at h
    rw [Expr.nest_mk]
    cases form with
    | identifier ident =>
      cases h
      rw [Pattern.nest_name]
      rfl
    | binding name value =>
      simp only [Form.map, patternOfForm] at h
      cases hvalue : patternOfExpr value.val with
      | error place =>
        rw [hvalue] at h
        cases h
      | ok p =>
        rw [hvalue] at h
        cases h
        rw [Pattern.nest_named, value.property hvalue]
        rfl
    | list elements =>
      simp only [Form.map, patternOfForm] at h
      cases helements : ((elements.map Subtype.val).map patternOfExpr).mapM id with
      | error place =>
        rw [helements] at h
        cases h
      | ok ps =>
        rw [helements] at h
        cases h
        rw [Pattern.nest_list, nest_of_mapM (fun e he => ?_) helements]
        · rfl
        · obtain ⟨e, -, rfl⟩ := List.mem_map.mp he
          exact e.property
    | _ => cases h

lemma OrTrue.yields {t : Token} {e : Expr} (h : OrTrue .yielding t.span ts e) :
    ∃ ns, Yields ts ns ∧ ∀ us ms ms', t ∈ us → Yields us (ms ++ ns ++ ms') →
      Yields us (ms ++ e.nest :: ms') := by
  cases h with
  | omitted =>
    refine ⟨[], .nil, fun us ms ms' ht h => ?_⟩
    rw [List.append_nil] at h
    rw [Expr.nest_mk]
    exact .standIn ht h
  | written h =>
    refine ⟨[e.nest], h.nest, fun us ms ms' ht h => ?_⟩
    rwa [List.append_assoc] at h

lemma ForHeadPhrase.yields {keyword : Token} {head : ForHead Expr} {us : List Token}
    {ns : List Nest} (h : ForHeadPhrase .yielding keyword.span ts head)
    (hkeyword : keyword.kind.isLeaf = false) (hus : Yields us ns) :
    Yields (keyword :: (ts ++ us)) (head.nests Expr.nest ++ ns) := by
  cases h with
  | @iterating ts init binding keyword' us' iterable hinit hbinding hkeyword' hiterable =>
    obtain ⟨ms, hms, hfill⟩ := hinit.yields
    have h := hfill (keyword :: (ts ++ keyword' :: us' ++ us)) [] (iterable.nest :: ns)
      List.mem_cons_self
    rw [ForHead.nests, patternOfExpr_nest init hbinding]
    refine h (.mark_append rfl hkeyword ?_)
    rw [List.append_assoc]
    exact .append hms (.mark_append hkeyword' rfl (.append hiterable.nest hus))
  | @counting ts init comma us' condition comma' vs step hinit hcomma hcondition hcomma' hstep =>
    obtain ⟨as, has, hfill₁⟩ := hinit.yields
    obtain ⟨bs, hbs, hfill₂⟩ := hcondition.yields
    obtain ⟨cs, hcs, hfill₃⟩ := hstep.yields
    have hbare : Yields (keyword :: (ts ++ comma :: us' ++ comma' :: vs ++ us))
        (as ++ (bs ++ (cs ++ ns))) := by
      rw [List.append_assoc, List.append_assoc]
      refine .mark_append rfl hkeyword ?_
      refine .append has (.mark_append hcomma rfl (.append hbs ?_))
      exact .mark_append hcomma' rfl (.append hcs hus)
    have h₁ := hfill₁ _ [] _ List.mem_cons_self hbare
    have h₂ := hfill₂ _ [init.nest] (cs ++ ns) List.mem_cons_self (by simpa using h₁)
    exact hfill₃ _ [init.nest, condition.nest] ns List.mem_cons_self (by simpa using h₂)

/-! ## Literals and definitions -/

lemma EntryPhrase.yields {entry : Expr × Expr} (h : EntryPhrase .yielding ts entry) :
    Yields ts [entry.1.nest, entry.2.nest] := by
  obtain ⟨hkey, hcolon, hvalue⟩ := h
  exact .append hkey.nest (.mark_append hcolon rfl hvalue.nest)

lemma ArgumentPhrase.yields {arg : Argument Expr} (h : ArgumentPhrase .yielding ts arg) :
    Yields ts (arg.nests Expr.nest) := by
  cases h with
  | plain h => exact h.nest
  | named hname hcolon h => exact .cons (.ident hname) (.mark_append hcolon rfl h.nest)

lemma VariantPhrase.yields {variant : Variant} (h : VariantPhrase .yielding ts variant) :
    Yields ts variant.nests := by
  obtain ⟨hname, h⟩ := h
  refine .cons (.ident hname) ?_
  rw [List.map_eq_flatMap]
  exact h.yields id rfl rfl

lemma LabelPhrase.yields {label : Option String} (h : LabelPhrase ts label) :
    Yields ts (labelNests label) := by
  cases h with
  | absent => exact .nil
  | present hlabel => exact .label hlabel

/-! ## Members of classes and traits

A class or trait sorts its members, and the later of two overloads of an operator takes the place of
the earlier. So all that is in it is yielded, but not in order, and more may be. -/

lemma Keyword.yields {kind : TokenKind} {written : Bool} (h : Keyword kind ts written)
    (hkind : kind.isLeaf = false) : Yields ts [] := by
  cases h with
  | absent => exact .nil
  | present hkeyword => exact .mark hkeyword hkind

lemma isLeaf_of_privacyBlock? {kind : TokenKind} {opened : ModifierBlock × Visibility}
    (h : privacyBlock? kind = some opened) : kind.isLeaf = false := by
  unfold privacyBlock? at h
  split at h
  · rfl
  · rfl
  · cases h

lemma PrivacyPhrase.yields {body : BodyKind} {blocks : OpenBlocks} {said : Modified Visibility}
    (h : PrivacyPhrase body blocks ts said) : Yields ts [] := by
  cases h with
  | absent => exact .nil
  | personal hkeyword => exact .mark hkeyword rfl
  | shared hkeyword => exact .mark rfl (isLeaf_of_privacyBlock? hkeyword)
  | opened hkeyword hleft =>
    exact .mark_append rfl (isLeaf_of_privacyBlock? hkeyword) (.mark hleft rfl)

lemma StaticPhrase.yields {blocks : OpenBlocks} {said : Modified Scope}
    (h : StaticPhrase blocks ts said) : Yields ts [] := by
  cases h with
  | absent => exact .nil
  | written hkeyword => exact .mark hkeyword rfl
  | opened hkeyword hleft => exact .mark_append hkeyword rfl (.mark hleft rfl)

lemma Separator.yields {us : List Token} (h : Separator ts us) : Yields ts [] := by
  cases h with
  | comma hcomma => exact .mark hcomma rfl
  | closing => exact .nil

lemma OverloadPhrase.yields {allowSignature : Bool} {overload : Overload Expr}
    (h : OverloadPhrase .yielding allowSignature ts overload) :
    Yields ts (overload.nests Expr.nest) := by
  obtain @⟨op, lead, isFunction, ts, function, -, hop, hlead, h, -⟩ := h
  have hkind : op.kind.isLeaf = false := by
    cases hcases : op.kind <;> rw [hcases] at hop <;> first | rfl | cases hop
  have hnode : Yields [op] [.node op.span []] := by
    rw [← cover_singleton op]
    exact .node (List.cons_ne_nil _ _) (.mark rfl hkind)
  have hbehind := Yields.append (hlead.yields rfl) h.yields
  rw [Overload.nests, h.name_eq]
  exact .cons hnode hbehind

lemma mem_nests_insertOverload {new : Overload Expr} {overloads : List (Overload Expr)} {n : Nest}
    (hn : n ∈ (MemberList.insertOverload new overloads).flatMap (·.nests Expr.nest)) :
    n ∈ overloads.flatMap (·.nests Expr.nest) ∨ n ∈ new.nests Expr.nest := by
  induction overloads with
  | nil =>
    rw [MemberList.insertOverload, List.flatMap_singleton] at hn
    exact .inr hn
  | cons o os ih =>
    rw [MemberList.insertOverload] at hn
    split at hn
    · rw [List.flatMap_cons] at hn
      exact (List.mem_append.mp hn).symm
    · split at hn
      · rw [List.flatMap_cons] at hn
        refine (List.mem_append.mp hn).symm.imp_left fun h => ?_
        exact List.mem_append_right _ h
      · rw [List.flatMap_cons] at hn ⊢
        rcases List.mem_append.mp hn with hn | hn
        · exact .inl (List.mem_append_left _ hn)
        · exact (ih hn).imp_left (List.mem_append_right _)

lemma ItemPhrase.yields {body : BodyKind} {scope : Scope} {visibility : Visibility}
    {members added : MemberList Expr}
    (h : ItemPhrase .yielding body scope visibility members ts added) :
    ∃ ns, Yields ts ns ∧
      ∀ n ∈ added.nests Expr.nest, n ∈ members.nests Expr.nest ∨ n ∈ ns := by
  cases h with
  | @method keyword name ts function hkeyword hname h =>
    refine ⟨function.nests Expr.nest, ?_, fun n hn => ?_⟩
    · rw [FunctionDef.nests, h.name_eq]
      exact .mark_append hkeyword rfl (.cons (.ident hname) h.yields)
    · simp only [MemberList.nests, MemberList.addMethod, List.flatMap_append,
        List.flatMap_singleton, List.mem_append] at hn ⊢
      grind
  | @overload keyword ts overloaded hkeyword h =>
    refine ⟨overloaded.nests Expr.nest, .mark_append hkeyword rfl h.yields, fun n hn => ?_⟩
    simp only [MemberList.nests, MemberList.addOperator, List.mem_append] at hn ⊢
    have hinsert := hn.imp_right mem_nests_insertOverload
    grind
  | @property ts declared h =>
    obtain ⟨hlead, h, -⟩ := h
    refine ⟨declared.nests Expr.nest, .append (hlead.yields rfl) h.yields, fun n hn => ?_⟩
    simp only [MemberList.nests, MemberList.addProperty, List.flatMap_append,
      List.flatMap_singleton, List.mem_append] at hn ⊢
    grind

lemma MemberPhrase.yields {body : BodyKind} {blocks : OpenBlocks} {members : MemberList Expr}
    {said : Modified (MemberList Expr)} (h : MemberPhrase .yielding body blocks members ts said) :
    ∃ ns, Yields ts ns ∧ ∀ added, said = .member added →
      ∀ n ∈ added.nests Expr.nest, n ∈ members.nests Expr.nest ∨ n ∈ ns := by
  cases h with
  | privacyBlock h => exact ⟨[], h.yields, fun added hadded => by cases hadded⟩
  | staticBlock hprivacy h =>
    exact ⟨[], .append hprivacy.yields h.yields, fun added hadded => by cases hadded⟩
  | item hprivacy hstatic h =>
    obtain ⟨ns, hns, hadded⟩ := h.yields
    refine ⟨ns, .append (.append hprivacy.yields hstatic.yields) hns, fun added heq => ?_⟩
    cases heq
    exact hadded

lemma MembersPhrase.yields {body : BodyKind} {blocks : OpenBlocks}
    {members result : MemberList Expr} (h : MembersPhrase .yielding body blocks members ts result) :
    ∃ ns, Yields ts ns ∧
      ∀ n ∈ result.nests Expr.nest, n ∈ members.nests Expr.nest ∨ n ∈ ns := by
  induction h with
  | done hright => exact ⟨[], .mark hright rfl, fun n => .inl⟩
  | leave hright hsep h ih =>
    obtain ⟨ns, hns, hresult⟩ := ih
    exact ⟨ns, .mark_append hright rfl (.append hsep.yields hns), hresult⟩
  | enter hmember h ih =>
    obtain ⟨ns, hns, hresult⟩ := ih
    obtain ⟨ms, hms, -⟩ := hmember.yields
    refine ⟨ms ++ ns, .append hms hns, fun n hn => ?_⟩
    exact (hresult n hn).imp_right (List.mem_append_right ms)
  | member hmember hsep h ih =>
    obtain ⟨ns, hns, hresult⟩ := ih
    obtain ⟨ms, hms, hadded⟩ := hmember.yields
    refine ⟨ms ++ [] ++ ns, .append (.append hms hsep.yields) hns, fun n hn => ?_⟩
    rw [List.append_nil]
    rcases hresult n hn with hn | hn
    · exact (hadded _ rfl n hn).imp_right (List.mem_append_left ns)
    · exact .inr (List.mem_append_right ms hn)

end Phrases

end FrontEnd
