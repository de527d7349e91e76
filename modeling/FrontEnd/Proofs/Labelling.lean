import FrontEnd.Proofs.Marks
import FrontEnd.Proofs.SimilarBlocks
import FrontEnd.Proofs.YieldingExpressions

/-!
# Phrases keep labels

`Language.labelling` is the language of the phrases whose tokens have the marks of what they spell.
It is closed, as each production of the grammar puts together the marks of its parts: a label adds
one to those of its target, or takes the place of the one that the target has, and in the body of a
class or trait an overload is lost if a later one has its symbol.
-/

namespace FrontEnd

open Production

/-! ## Lists and optional parts -/

section Parts

variable {α : Type} {R : List Token → α → Prop} {f : α → Multiset Mark}
variable {ts : List Token} {kind left : TokenKind}

lemma Listed.plain {as : List α} (h : Listed kind R ts as) (hR : ∀ {ts a}, R ts a → Plain ts)
    (hkind : kind.isPlain = true) : Plain ts := by
  induction h with
  | done hright => exact .cons hright hkind .nil
  | last ha hright => exact .append (hR ha) (.cons hright hkind .nil)
  | more ha hcomma h ih => exact .append (hR ha) (.cons hcomma rfl ih)

lemma Bracketed.plain {as : List α} (h : Bracketed left kind R ts as)
    (hR : ∀ {ts a}, R ts a → Plain ts) (hleft : left.isPlain = true)
    (hkind : kind.isPlain = true) : Plain ts := by
  cases h with
  | absent => exact .nil
  | present hopener h => exact .cons hopener hleft (h.plain hR hkind)

lemma Optionally.plain {o : Option α} (h : Optionally R ts o)
    (hR : ∀ {ts a}, R ts a → Plain ts) : Plain ts := by
  cases h with
  | absent => exact .nil
  | present h => exact hR h

lemma Announced.plain {o : Option α} (h : Announced kind R ts o)
    (hR : ∀ {ts a}, R ts a → Plain ts) (hkind : kind.isPlain = true) : Plain ts := by
  cases h with
  | absent => exact .nil
  | present ht h => exact .cons ht hkind (hR h)

lemma Listed.tags {as : List α} (h : Listed kind R ts as)
    (hR : ∀ {ts a}, R ts a → Tags .start ts (f a)) (hkind : kind.isPlain = true) :
    Tags .start ts (as.map f).sum := by
  induction h with
  | done hright => exact .mark hright hkind
  | last ha hright => exact (hR ha).append_mark hright hkind .nil
  | more ha hcomma h ih => exact (hR ha).append_mark hcomma rfl ih

lemma Listed.after_eq {as : List α} (h : Listed kind R ts as)
    (hR : ∀ {ts a}, R ts a → Tags .start ts (f a)) (hkind : kind.isPlain = true) :
    Spot.start.after ts = .start := by
  induction h with
  | done hright => exact Spot.next_of_isPlain (.inl rfl) (hright ▸ hkind)
  | last ha hright =>
    rw [Spot.after_append]
    exact Spot.next_of_isPlain (hR ha).rests (hright ▸ hkind)
  | more ha hcomma h ih =>
    rw [Spot.after_append, Spot.after_cons, Spot.next_of_isPlain (hR ha).rests (hcomma ▸ rfl), ih]

lemma Optionally.tags {o : Option α} (h : Optionally R ts o)
    (hR : ∀ {ts a}, R ts a → Tags .start ts (f a)) : Tags .start ts (o.toList.map f).sum := by
  cases h with
  | absent => exact .nil
  | present h => simpa using hR h

lemma Announced.tags {o : Option α} (h : Announced kind R ts o)
    (hR : ∀ {ts a}, R ts a → Tags .start ts (f a)) (hkind : kind.isPlain = true) :
    Tags .start ts (o.toList.map f).sum := by
  cases h with
  | absent => exact .nil
  | present ht h => exact .mark_append ht hkind (by simpa using hR h)

end Parts

/-! ## The language -/

/-- The tokens of an expression have its marks. Where it is labelled, its label comes first. What
binds tightest begins with a label only if it is labelled. -/
structure Labelling (least : Precedence) (ts : List Token) (e : Expr) : Prop where
  tags : Tags .start ts e.marks
  ne_nil : ts ≠ []
  labelled : ∀ name, e.label? = some name →
    ∃ t us, ts = t :: us ∧ t.kind = .label ∧ t.text = name ∧ e.span.offset = t.span.offset
  unlabelled : least = .tightest → e.label? = none → Unlabelled ts

/-- The language of the phrases that keep labels. -/
def Language.labelling : Language where
  token t := Language.spoken.token t ∧ t.kind.Suits t.value
  expr least ts e := Language.spoken.expr least ts e ∧ Labelling least ts e
  type ts type := Language.spoken.type ts type ∧ Plain ts
  pattern ts pattern := Language.spoken.pattern ts pattern ∧ Plain ts
  path ts path := Language.spoken.path ts path ∧ Plain ts

lemma Language.labelling_included : Language.labelling.Included .spoken :=
  ⟨And.left, And.left, And.left, And.left, And.left⟩

lemma Labelling.tags_of {least : Precedence} {ts : List Token} {e : Expr}
    (h : Language.labelling.expr least ts e) : Tags .start ts e.marks :=
  h.2.tags

lemma cover_offset (t : Token) (ts : List Token) : (cover (t :: ts)).offset = t.span.offset := by
  rw [cover_eq (List.getLast?_eq_some_getLast (List.cons_ne_nil t ts))]
  rfl

section Phrases

variable {ts : List Token}

/-! ## Types, patterns and import paths -/

lemma TypeArguments.plain {types : List TypeExpr} (h : TypeArguments .labelling ts types) :
    Plain ts := by
  cases h with
  | absent => exact .nil
  | present hleft h hne => exact .cons hleft rfl (h.plain And.right rfl)

lemma TypePhrase.plain {type : TypeExpr} (h : TypePhrase .labelling ts type) : Plain ts := by
  obtain ⟨hname, h⟩ := h
  exact .cons hname rfl h.plain

lemma Traits.plain {types : List TypeExpr} (h : Traits .labelling ts types) : Plain ts := by
  cases h with
  | single h => exact h.2
  | several hleft h hne => exact .cons hleft rfl (h.plain And.right rfl)

lemma TypeParamPhrase.plain {param : TypeParam} (h : TypeParamPhrase .labelling ts param) :
    Plain ts := by
  obtain ⟨hname, hextending, himplementing⟩ := h
  exact .cons hname rfl
    (.append (hextending.plain And.right rfl) (himplementing.plain Traits.plain rfl))

lemma TypeParams.plain {params : List TypeParam} (h : TypeParams .labelling ts params) :
    Plain ts :=
  Bracketed.plain h TypeParamPhrase.plain rfl rfl

lemma FieldPhrase.plain {field : Field Pattern} (h : FieldPhrase .labelling ts field) :
    Plain ts := by
  obtain ⟨hname, h⟩ := h
  exact .cons hname rfl (h.plain And.right rfl)

lemma PatternPhrase.plain {pattern : Pattern} (h : PatternPhrase .labelling ts pattern) :
    Plain ts := by
  cases h with
  | name hname => exact .cons hname rfl .nil
  | named hsign hname h => exact .cons hsign rfl (.cons hname rfl h.2)
  | list hleft h => exact .cons hleft rfl (h.plain And.right rfl)
  | object hleft h => exact .cons hleft rfl (h.plain FieldPhrase.plain rfl)

lemma PathPhrase.plain {path : ImportSection} (h : PathPhrase .labelling ts path) : Plain ts := by
  cases h with
  | terminal hname => exact .cons hname rfl .nil
  | renamed hname hkeyword hlocal =>
    exact .cons hname rfl (.cons hkeyword rfl (.cons hlocal rfl .nil))
  | element hname hdot h => exact .cons hname rfl (.cons hdot rfl h.2)
  | list hleft h hne => exact .cons hleft rfl (h.plain And.right rfl)

lemma VariantPhrase.plain {variant : Variant} (h : VariantPhrase .labelling ts variant) :
    Plain ts := by
  obtain ⟨hname, h⟩ := h
  exact .cons hname rfl (h.plain And.right rfl rfl)

/-! ## Blocks and declarations -/

lemma BlockPhrase.tags {block : Block Expr} (h : BlockPhrase .labelling ts block) :
    Tags .start ts (marksOfAll block.children) := by
  obtain ⟨hleft, h, hright⟩ := h
  refine .mark_append hleft rfl ?_
  rw [← add_zero (marksOfAll _)]
  exact (h.tags Labelling.tags_of).append_mark hright rfl .nil

lemma BlockPhrase.unlabelled {Λ : Language} {block : Block Expr} (h : BlockPhrase Λ ts block) :
    Unlabelled ts := by
  obtain ⟨hleft, h, hright⟩ := h
  exact unlabelled_cons (hleft ▸ rfl)

lemma BlockPhrase.label_eq {Λ : Language} {block : Block Expr} (h : BlockPhrase Λ ts block) :
    block.label = none := by
  cases h
  rfl

lemma BlockPhrase.tags_blockExpr {block : Block Expr} (h : BlockPhrase .labelling ts block) :
    Tags .start ts (blockExpr block).marks := by
  have hlabel : (Form.block block).label? = none := h.label_eq
  rw [blockExpr, Expr.marks_of_plain _ hlabel rfl]
  exact h.tags

lemma DeclarationPhrase.tags {kind : DeclKind} {declared : Declaration Expr}
    (h : DeclarationPhrase .labelling kind ts declared) :
    Tags .start ts (marksOfAll declared.children) := by
  obtain ⟨hpattern, htype, hvalue, -⟩ := h
  exact .plain_append (.append hpattern.2 (htype.plain And.right rfl))
    (hvalue.tags Labelling.tags_of rfl)

lemma ParamPhrase.tags {param : Param Expr} (h : ParamPhrase .labelling ts param) :
    Tags .start ts (marksOfAll param.children) := by
  obtain ⟨hpattern, hcolon, htype, hvalue⟩ := h
  exact .plain_append (.append hpattern.2 (.cons hcolon rfl htype.2))
    (hvalue.tags Labelling.tags_of rfl)

lemma LambdaParamPhrase.tags {param : Param Expr} (h : LambdaParamPhrase .labelling ts param) :
    Tags .start ts (marksOfAll param.children) := by
  obtain ⟨hpattern, htype, hvalue⟩ := h
  exact .plain_append (.append hpattern.2 (htype.plain And.right rfl))
    (hvalue.tags Labelling.tags_of rfl)

lemma LambdaParams.tags_append {params : List (Param Expr)} {us : List Token} {m : Multiset Mark}
    (h : LambdaParams .labelling ts params) (hlead : ∀ t ∈ ts.head?, t.kind.isPlain = true)
    (hus : Tags .start us m) :
    Tags .start (ts ++ us) (marksOfAll (params.flatMap Param.children) + m) := by
  rw [marksOfAll_flatMap]
  cases h with
  | absent hsign =>
    rw [List.map_nil, List.sum_nil, zero_add]
    exact .mark_append rfl (hlead _ rfl) hus
  | @present sign ts params hsign h =>
    have hafter := h.after_eq LambdaParamPhrase.tags rfl
    exact .mark_append hsign rfl
      ((h.tags LambdaParamPhrase.tags rfl).append_from (hafter.symm ▸ hus))

lemma BodyPhrase.tags {allowSignature : Bool} {body : Option (Block Expr)}
    (h : BodyPhrase .labelling allowSignature ts body) :
    Tags .start ts (marksOfAll (body.toList.flatMap Block.children)) := by
  cases h with
  | signature hallowed hleft hright => exact .mark_append hleft rfl (.mark hright rfl)
  | block h =>
    rw [Option.toList_some, List.flatMap_singleton]
    exact h.tags

lemma BodyPhrase.unlabelled {Λ : Language} {allowSignature : Bool} {body : Option (Block Expr)}
    (h : BodyPhrase Λ allowSignature ts body) : Unlabelled ts := by
  cases h with
  | signature hallowed hleft hright => exact unlabelled_cons (hleft ▸ rfl)
  | block h => exact h.unlabelled

lemma FunctionPhrase.tags {name : Ident} {allowSignature : Bool} {function : FunctionDef Expr}
    (h : FunctionPhrase .labelling name allowSignature ts function) :
    Tags .start ts (marksOfAll function.children) := by
  obtain @⟨ts, typeParams, left, us, params, vs, returned, ws, body, htypeParams, hleft, hparams,
    hreturned, hbody⟩ := h
  have hreturned := hreturned.plain And.right
  have hfront : Tags .start (ts ++ left :: us) (params.map (marksOfAll ·.children)).sum :=
    .plain_append htypeParams.plain (.mark_append hleft rfl (hparams.tags ParamPhrase.tags rfl))
  have htyped := hfront.append (.plain hreturned) hreturned.unlabelled
  rw [add_zero] at htyped
  rw [FunctionDef.children, marksOfAll_append, marksOfAll_flatMap]
  exact htyped.append hbody.tags hbody.unlabelled

/-! ## Control flow -/

lemma ConditionalPhrase.tags {e : Expr} (h : ConditionalPhrase .labelling ts e) :
    Tags .start ts e.marks := by
  induction h with
  | alone hkeyword hcondition hconsequence =>
    refine .of_plain hkeyword rfl rfl rfl ?_
    simpa [Form.children] using
      hcondition.2.tags.append hconsequence.tags hconsequence.unlabelled
  | otherwise hkeyword hcondition hconsequence hother halternative =>
    refine .of_plain hkeyword rfl rfl rfl ?_
    have hfront := hcondition.2.tags.append hconsequence.tags hconsequence.unlabelled
    simpa [Form.children, add_assoc] using
      hfront.append_mark hother rfl halternative.tags_blockExpr
  | chained hkeyword hcondition hconsequence hother hnested ih =>
    refine .of_plain hkeyword rfl rfl rfl ?_
    have hfront := hcondition.2.tags.append hconsequence.tags hconsequence.unlabelled
    simpa [Form.children, add_assoc] using hfront.append_mark hother rfl ih

lemma OrTrue.tags {span : Span} {e : Expr} (h : OrTrue .labelling span ts e) :
    Tags .start ts e.marks := by
  cases h with
  | omitted =>
    rw [Expr.marks_of_plain _ rfl rfl]
    exact .nil
  | written h => exact h.2.tags

lemma exists_of_mapM {es : List Expr} {patterns : List Pattern}
    (h : (es.map patternOfExpr).mapM id = .ok patterns) :
    ∀ e ∈ es, ∃ pattern, patternOfExpr e = .ok pattern := by
  induction es generalizing patterns with
  | nil => exact List.forall_mem_nil _
  | cons e es ih =>
    rw [List.map_cons, List.mapM_cons] at h
    cases hp : patternOfExpr e with
    | error place =>
      rw [hp] at h
      cases h
    | ok p =>
      cases hps : (es.map patternOfExpr).mapM id with
      | error place =>
        rw [hp, hps] at h
        cases h
      | ok ps => exact List.forall_mem_cons.mpr ⟨⟨p, hp⟩, ih hps⟩

lemma marks_of_patternOfExpr (e : Expr) {pattern : Pattern} (h : patternOfExpr e = .ok pattern) :
    e.marks = 0 := by
  induction e using Expr.layered_induction generalizing pattern with
  | step form span =>
    rw [Similar.patternOfExpr_mk] at h
    cases form with
    | identifier ident => rfl
    | binding name value =>
      simp only [Form.map, patternOfForm] at h
      rw [Expr.marks_of_plain _ rfl rfl]
      cases hvalue : patternOfExpr value.val with
      | error place =>
        rw [hvalue] at h
        cases h
      | ok p => exact (add_zero _).trans (value.property hvalue)
    | list elements =>
      simp only [Form.map, patternOfForm] at h
      rw [Expr.marks_of_plain _ rfl rfl]
      cases helements : ((elements.map Subtype.val).map patternOfExpr).mapM id with
      | error place =>
        rw [helements] at h
        cases h
      | ok ps =>
        refine marksOfAll_eq_zero fun e he => ?_
        obtain ⟨p, hp⟩ := exists_of_mapM helements e he
        obtain ⟨e, -, rfl⟩ := List.mem_map.mp he
        exact e.property hp
    | _ => cases h

lemma ForHeadPhrase.tags {span : Span} {head : ForHead Expr}
    (h : ForHeadPhrase .labelling span ts head) : Tags .start ts (marksOfAll head.children) := by
  cases h with
  | @iterating ts init binding keyword us iterable hinit hbinding hkeyword hiterable =>
    have hnone := hinit.tags
    rw [marks_of_patternOfExpr init hbinding] at hnone
    simpa [ForHead.children] using hnone.append_mark hkeyword rfl hiterable.2.tags
  | counting hinit hcomma hcondition hcomma' hstep =>
    have hfront := hinit.tags.append_mark hcomma rfl hcondition.tags
    simpa [ForHead.children, add_assoc] using hfront.append_mark hcomma' rfl hstep.tags

lemma EntryPhrase.tags {entry : Expr × Expr} (h : EntryPhrase .labelling ts entry) :
    Tags .start ts (entry.1.marks + entry.2.marks) := by
  obtain ⟨hkey, hcolon, hvalue⟩ := h
  exact hkey.2.tags.append_mark hcolon rfl hvalue.2.tags

lemma ArgumentPhrase.tags {arg : Argument Expr} (h : ArgumentPhrase .labelling ts arg) :
    Tags .start ts arg.value.marks := by
  cases h with
  | plain h => exact h.2.tags
  | named hname hcolon h => exact .mark_append hname rfl (.mark_append hcolon rfl h.2.tags)

/-! ## Members of classes and traits -/

lemma Keyword.plain {kind : TokenKind} {written : Bool} (h : Keyword kind ts written)
    (hkind : kind.isPlain = true) : Plain ts := by
  cases h with
  | absent => exact .nil
  | present hkeyword => exact .cons hkeyword hkind .nil

lemma PrivacyText.plain {privacy : Option Visibility} (h : PrivacyText ts privacy) : Plain ts := by
  cases h with
  | absent => exact .nil
  | @present keyword visibility hkeyword =>
    have hkind : keyword.kind.isPlain = true := by
      unfold privacyKeyword? at hkeyword
      split at hkeyword <;> first | (next hkind => rw [hkind]; rfl) | cases hkeyword
    exact .cons rfl hkind .nil

lemma ModifiersText.plain {modifiers : Modifiers} (h : ModifiersText ts modifiers) : Plain ts := by
  obtain ⟨hprivacy, hstatic⟩ := h
  exact .append hprivacy.plain (hstatic.plain rfl)

lemma Separator.plain {us : List Token} (h : Separator ts us) : Plain ts := by
  cases h with
  | comma hcomma => exact .cons hcomma rfl .nil
  | closing => exact .nil

lemma Separator.unlabelled {us : List Token} (h : Separator ts us) : Unlabelled (ts ++ us) := by
  cases h with
  | comma hcomma => exact unlabelled_cons (hcomma ▸ rfl)
  | closing hright => exact unlabelled_cons (hright ▸ rfl)

lemma OverloadPhrase.tags {allowSignature : Bool} {overload : Overload Expr}
    (h : OverloadPhrase .labelling allowSignature ts overload) :
    Tags .start ts (marksOfAll overload.function.children) := by
  obtain @⟨op, lead, isFunction, ts, function, -, hop, hlead, h, -⟩ := h
  have hkind : op.kind.isPlain = true := by
    cases hcases : op.kind <;> rw [hcases] at hop <;> first | rfl | cases hop
  exact .mark_append rfl hkind (.plain_append (hlead.plain rfl) h.tags)

/-- The marks of a member. -/
def Item.marks : Item → Multiset Mark
  | .method function => marksOfAll function.children
  | .property declared => marksOfAll declared.children
  | .overload overloaded => overloaded.marks

lemma ItemText.tags {body : BodyKind} {item : Item} (h : ItemText .labelling body ts item) :
    Tags .start ts item.marks := by
  cases h with
  | method hkeyword hname h => exact .mark_append hkeyword rfl (.mark_append hname rfl h.tags)
  | property hlead h => exact .plain_append (hlead.plain rfl) h.tags
  | overload hkeyword h => exact .operator_append hkeyword h.tags

/-- The marks of a member that is no overload. -/
def Written.marks (w : Written) : Multiset Mark :=
  match w.item with
  | .overload _ => 0
  | item => item.marks

section Written

variable {body : BodyKind} {around : List Modifiers} {written : List Written}

/-- A body is divided into its overloads, with the tokens of each, and what is written besides. -/
lemma BodyText.tags (h : BodyText .labelling body around ts written) :
    ∃ overloads : List (List Token × Overload Expr),
      overloads.map Prod.snd = written.filterMap Written.overload? ∧
      (∀ p ∈ overloads, p.1 <:+: ts ∧ ItemText .labelling body p.1 (.overload p.2)) ∧
      Tags .start ts ((written.map Written.marks).sum +
        (overloads.map fun p => marksFrom .start p.1).sum) := by
  have hinside {xs ys : List Token} {overloads : List (List Token × Overload Expr)}
      (h : ∀ p ∈ overloads, p.1 <:+: xs ∧ ItemText .labelling body p.1 (.overload p.2))
      (hxs : xs <:+: ys) :
      ∀ p ∈ overloads, p.1 <:+: ys ∧ ItemText .labelling body p.1 (.overload p.2) :=
    fun p hp => ⟨(h p hp).1.trans hxs, (h p hp).2⟩
  induction h with
  | done hright => exact ⟨[], rfl, List.forall_mem_nil _, .mark hright rfl⟩
  | @member around lead own ts item sep us rest hown hitem hsep h ih =>
    obtain ⟨overloads, hmap, hoverloads, htags⟩ := ih
    have hrest := hinside hoverloads (List.suffix_append (lead ++ ts ++ sep) us).isInfix
    have hback := Tags.plain_append hsep.plain htags
    have hitem' : ts <:+: lead ++ ts ++ sep ++ us :=
      ⟨lead, sep ++ us, by simp only [List.append_assoc]⟩
    cases item with
    | overload overloaded =>
      refine ⟨(ts, overloaded) :: overloads, by rw [List.map_cons, hmap]; rfl,
        List.forall_mem_cons.mpr ⟨⟨hitem', hitem⟩, hrest⟩, ?_⟩
      have hfront := Tags.plain_append hown.plain (.own hitem.tags.rests)
      have hall := hfront.append hback hsep.unlabelled
      rw [add_left_comm] at hall
      simpa [Written.marks, ← List.append_assoc] using hall
    | _ =>
      refine ⟨overloads, hmap, hrest, ?_⟩
      have hall := (Tags.plain_append hown.plain hitem.tags).append hback hsep.unlabelled
      simpa [Written.marks, ← List.append_assoc, ← add_assoc] using hall
  | @block around lead modifiers block left ts inner sep us rest hmodifiers hblock hleft hinner hsep
      h ihinner ih =>
    obtain ⟨overloads, hmap, hoverloads, htags⟩ := ihinner
    obtain ⟨overloads', hmap', hoverloads', htags'⟩ := ih
    have hts : ts <:+: lead ++ left :: ts ++ sep ++ us :=
      ⟨lead ++ [left], sep ++ us, by simp only [List.append_assoc, List.cons_append,
        List.nil_append]⟩
    have hus := (List.suffix_append (lead ++ left :: ts ++ sep) us).isInfix
    refine ⟨overloads ++ overloads', by rw [List.map_append, hmap, hmap', List.filterMap_append],
      List.forall_mem_append.mpr ⟨hinside hoverloads hts, hinside hoverloads' hus⟩, ?_⟩
    have hfront := Tags.plain_append hmodifiers.plain (.mark_append hleft rfl htags)
    have hall := hfront.append (.plain_append hsep.plain htags') hsep.unlabelled
    rw [add_add_add_comm] at hall
    simpa [← List.append_assoc] using hall

lemma marks_foldl_addTo : (written.foldl (Written.addTo body) .empty).marks =
    (written.map Written.marks).sum +
      marksOfOverloads (addOverloads [] (written.filterMap Written.overload?)) := by
  have hplain : ∀ written : List Written,
      ((written.filterMap Written.method?).map fun d => marksOfAll d.children).sum +
        ((written.filterMap Written.property?).map fun d => marksOfAll d.children).sum =
      (written.map Written.marks).sum := by
    intro written
    induction written with
    | nil => rfl
    | cons w written ih =>
      rw [List.map_cons, List.sum_cons, ← ih]
      obtain ⟨around, own, item⟩ := w
      cases item with
      | method function => exact add_assoc _ _ _
      | property declared => exact add_left_comm _ _ _
      | overload overloaded => exact (zero_add _).symm
  rw [MemberList.marks, Written.methods_foldl, Written.properties_foldl, Written.operators_foldl,
    ← hplain, addOverloads]
  simp [MemberList.empty, List.map_filterMap, Written.given, Function.comp_def]

/-- A class or trait has the marks of what is written in it, without those of overloads that are
replaced. -/
lemma DefinitionText.tags (h : DefinitionText .labelling body ts written) :
    Tags .start ts (written.foldl (Written.addTo body) .empty).marks := by
  have hspoken := h.mono Language.labelling_included
  obtain @⟨lead, name, ts, params, left, us, written, hlead, hname, hparams, hleft, h⟩ := h
  obtain ⟨overloads, hmap, hoverloads, htags⟩ := h.tags
  obtain ⟨kept, replaced, hperm, hkept, hreplaced⟩ := exists_partition overloads
  have hus : us <:+: lead ++ name :: (ts ++ left :: us) :=
    ⟨lead ++ name :: (ts ++ [left]), [], by simp⟩
  have hlead : Plain lead := by
    cases hlead with
    | classDef hkeyword =>
      rcases hkeyword with hkind | hkind <;> exact .cons hkind rfl .nil
    | traitDef hkind => exact .cons hkind rfl .nil
    | structural hkind hkind' => exact .cons hkind rfl (.cons hkind' rfl .nil)
  have hfront : Plain (lead ++ name :: (ts ++ [left])) :=
    .append hlead (.cons hname rfl (.append hparams.plain (.cons hleft rfl .nil)))
  have hall := Tags.plain_append hfront htags
  rw [List.append_assoc, List.cons_append, List.append_assoc, List.singleton_append] at hall
  refine hall.less ?_
  rw [marks_foldl_addTo, ← hmap]
  refine (Remainder.refl _).add ?_
  -- The overloads that are kept have their marks, and the others are replaced.
  have hmem {p} (hp : p ∈ kept ++ replaced) := hoverloads p (hperm.mem_iff.mp hp)
  have hsum := (hperm.map fun p => marksFrom .start p.1).sum_eq
  have hmarks := (hkept.map Overload.marks).sum_eq
  rw [List.map_append, List.sum_append] at hsum
  rw [marksOfOverloads, ← hmarks, ← hsum, List.map_map]
  have hleave : Remainder (lead ++ name :: (ts ++ left :: us))
      (kept.map fun p => marksFrom .start p.1).sum
      ((kept.map fun p => marksFrom .start p.1).sum +
        (replaced.map fun p => marksFrom .start p.1).sum) := by
    have hreplaced' : ∀ vs ∈ replaced.map Prod.fst,
        Replaced (lead ++ name :: (ts ++ left :: us)) vs := by
      refine List.forall_mem_map.mpr fun p hp => ?_
      obtain ⟨hinside, hitem⟩ := hmem (List.mem_append_right kept hp)
      exact .mk (List.infix_refl _) hspoken (hinside.trans hus)
        (hitem.mono Language.labelling_included) (hmap ▸ hreplaced p hp)
    have hleave := Remainder.leave (m := (kept.map fun p => marksFrom .start p.1).sum) hreplaced'
    rwa [List.map_map] at hleave
  refine Remainder.trans (.sum fun p hp => ?_) hleave
  obtain ⟨hinside, hitem⟩ := hmem (List.mem_append_left replaced hp)
  exact hitem.tags.remainder.mono (hinside.trans hus)

end Written

/-! ## Openings and continuations -/

/-- The productions that are found by a token without a mark. -/
def Opening.isPlain : Opening → Bool
  | .breaking | .continuing | .label | .literal => false
  | _ => true

lemma isPlain_of_opening {kind : TokenKind} {opening : Opening}
    (h : Grammar.standard.opening? kind = some opening) (hopening : opening.isPlain = true) :
    kind.isPlain = true := by
  cases kind <;> cases h <;> first | rfl | cases hopening

lemma isPlain_of_continuation {kind : TokenKind} {continuation : Continuation}
    (h : Grammar.standard.continuation? kind = some continuation) : kind.isPlain = true := by
  cases kind <;> first | rfl | cases h

lemma isJump_of_opening {kind : TokenKind} {opening : Opening}
    (h : Grammar.standard.opening? kind = some opening)
    (hopening : opening = .breaking ∨ opening = .continuing) :
    kind = .kwBreak ∨ kind = .kwContinue := by
  rcases hopening with rfl | rfl <;> cases kind <;>
    first | exact .inl rfl | exact .inr rfl | cases h

lemma marks_of_withLabel? {target labelled : Expr} {name : String}
    (h : target.withLabel? name = some labelled) :
    ∃ m, target.marks = labelMarks target.span.offset target.label? + m ∧
      ∀ span, Expr.marks ⟨labelled.form, span⟩ = labelMarks span.offset (some name) + m := by
  have hnone (offset : Nat) (label : Option String) :
      labelMarks offset label + Multiset.replicate 0 .overload = labelMarks offset label :=
    add_zero _
  obtain ⟨form, span⟩ := target
  refine ⟨marksOfAll form.children, ?_, fun span => ?_⟩ <;>
    cases form <;> cases h <;> exact (Expr.marks_mk _ _).trans (congrArg (· + _) (hnone _ _))

lemma Labelling.target_tags {target : Expr} {m : Multiset Mark}
    (h : Labelling .tightest ts target)
    (hm : target.marks = labelMarks target.span.offset target.label? + m) :
    Tags .target ts m := by
  have htags := h.tags
  rw [hm] at htags
  cases hlabel : target.label? with
  | none =>
    obtain ⟨t, us, rfl⟩ := List.exists_cons_of_ne_nil h.ne_nil
    have hsame := (h.unlabelled rfl hlabel).from_start (s := .target) nofun
    rw [hlabel] at htags
    have hplain : Tags .start (t :: us) m := (zero_add m) ▸ htags
    exact ⟨hsame.1 ▸ hplain.rests, hsame.2 ▸ hplain.remainder⟩
  | some name =>
    obtain ⟨t, us, rfl, ht, rfl, hspan⟩ := h.labelled name hlabel
    rw [hlabel, hspan] at htags
    exact .stacked ht htags

variable {opening : Opening} {form : Form Expr}

lemma definition_tags {span : Span} {body : BodyKind} {members : MemberList Expr} {t : Token}
    (h : Opened .labelling opening (t :: ts) form)
    (hopening : Grammar.standard.opening? t.kind = some opening)
    (hbody : form.body? = some (body, members)) :
    Tags .start (t :: ts) (Expr.marks ⟨form, span⟩) := by
  obtain ⟨written, hwritten, rfl, -⟩ :=
    h.definitionText (fun _ _ hts => by cases hts; exact hopening) hbody
  rw [Expr.marks_of_body? span hbody]
  exact hwritten.tags

lemma Token.embedded_eq {t : Token} {value : Literal Expr} (hsuits : t.kind.Suits t.value)
    (h : t.literal? = some value) : t.embedded = value.children := by
  obtain ⟨kind, value, span, lexeme⟩ := t
  cases value with
  | template parts =>
    cases h
    obtain rfl : kind = .templateStringLiteral := hsuits
    rfl
  | none => cases h
  | _ =>
    cases h
    unfold embedded
    split
    · next hvalue => cases hvalue
    · rfl

/-- What an expression opens with has its marks. -/
lemma Opened.tags {t : Token} (h : Opened .labelling opening ts form) (ht : ts.head? = some t)
    (hopening : Grammar.standard.opening? t.kind = some opening) :
    Tags .start ts (Expr.marks ⟨form, cover ts⟩) := by
  cases h with
  | identifier =>
    cases ht
    exact .mark rfl (isPlain_of_opening hopening rfl)
  | unary h =>
    cases ht
    refine .of_plain rfl (isPlain_of_opening hopening rfl) rfl rfl ?_
    simpa [Form.children] using h.2.tags
  | literal htoken h =>
    cases ht
    rw [Expr.marks_of_plain _ rfl rfl, Form.children, ← t.embedded_eq htoken.2 h]
    exact .literal hopening
  | @block ts b h =>
    have hlabel : (Form.block b).label? = none := h.label_eq
    rw [Expr.marks_of_plain _ hlabel rfl]
    exact h.tags
  | group h hright =>
    cases ht
    refine .of_plain rfl (isPlain_of_opening hopening rfl) rfl rfl ?_
    simpa [Form.children] using h.2.tags.append_mark hright rfl .nil
  | conditional h =>
    rw [← h.span_eq]
    exact h.tags
  | typeCast htype hright hvalue =>
    cases ht
    refine .of_plain rfl (isPlain_of_opening hopening rfl) rfl rfl ?_
    simpa [Form.children] using
      Tags.plain_append htype.2 (.mark_append hright rfl hvalue.2.tags)
  | declaration h =>
    cases ht
    exact .of_plain rfl (isPlain_of_opening hopening rfl) rfl rfl h.tags
  | whileLoop hcondition hbody =>
    cases ht
    refine .of_plain rfl (isPlain_of_opening hopening rfl) rfl rfl ?_
    simpa [Form.children] using
      hcondition.2.tags.append hbody.tags hbody.unlabelled
  | forLoop hhead hbody =>
    cases ht
    refine .of_plain rfl (isPlain_of_opening hopening rfl) rfl rfl ?_
    simpa [Form.children] using hhead.tags.append hbody.tags hbody.unlabelled
  | endlessLoop h =>
    cases ht
    exact .of_plain rfl (isPlain_of_opening hopening rfl) rfl rfl h.tags
  | @lambda ts params us body hparams hbody =>
    rw [Expr.marks_of_plain _ rfl rfl]
    have hlead : ∀ t' ∈ ts.head?, t'.kind.isPlain = true := fun t' ht' => by
      rw [List.head?_append, ht'] at ht
      cases ht
      exact isPlain_of_opening hopening rfl
    simpa [Form.children] using hparams.tags_append hlead hbody.2.tags
  | function hname h =>
    cases ht
    exact .of_plain rfl (isPlain_of_opening hopening rfl) rfl rfl (.mark_append hname rfl h.tags)
  | classDef hname hparams hleft hmembers =>
    cases ht
    exact definition_tags (.classDef hname hparams hleft hmembers) hopening rfl
  | traitDef hlead hname hparams hleft hmembers =>
    cases ht
    exact definition_tags (.traitDef hlead hname hparams hleft hmembers) hopening rfl
  | enumDef hname hparams hleft hvariants =>
    cases ht
    refine .mark_append rfl (isPlain_of_opening hopening rfl) (.mark_append hname rfl ?_)
    refine .plain_append hparams.plain (.mark_append hleft rfl ?_)
    exact .plain (hvariants.plain VariantPhrase.plain rfl)
  | importing h =>
    cases ht
    exact .mark_append rfl (isPlain_of_opening hopening rfl) (.plain h.2)
  | returning h =>
    cases ht
    exact .of_plain rfl (isPlain_of_opening hopening rfl) rfl rfl (h.tags Labelling.tags_of)
  | breaking hlabel hvalue hfresh =>
    cases ht
    rw [Expr.marks_of_plain _ rfl rfl]
    refine .jump_append (isJump_of_opening hopening (.inl rfl)) ?_
    have htags := hvalue.tags Labelling.tags_of
    cases hlabel with
    | absent => exact htags.shift (.inr rfl) (hfresh rfl)
    | present hlabel => exact .jump_label_append hlabel htags
  | continuing h =>
    cases ht
    refine .jump_append (isJump_of_opening hopening (.inr rfl)) ?_
    cases h with
    | absent => exact Tags.nil.shift (.inr rfl) unlabelled_nil
    | present hlabel => exact .jump_label_append hlabel .nil
  | label hcolon h hlabelled =>
    cases ht
    obtain ⟨m, htarget, hlabelled⟩ := marks_of_withLabel? hlabelled
    rw [hlabelled, cover_offset]
    exact .label_append (eq_label_of_opening hopening) hcolon (h.2.target_tags htarget)
  | list h =>
    cases ht
    exact .of_plain rfl (isPlain_of_opening hopening rfl) rfl rfl (h.tags Labelling.tags_of rfl)
  | binding hname h =>
    cases ht
    refine .of_plain rfl (isPlain_of_opening hopening rfl) rfl rfl (.mark_append hname rfl ?_)
    simpa [Form.children] using h.2.tags
  | mapping hleft h =>
    cases ht
    refine .of_plain rfl (isPlain_of_opening hopening rfl) rfl rfl (.mark_append hleft rfl ?_)
    have htags := h.tags EntryPhrase.tags rfl
    rw [List.sum_map_add] at htags
    simpa [Form.children, marksOfAll, Function.comp_def] using htags

lemma Continued.tags {left : Expr} {continuation : Continuation} {t : Token} {us : List Token}
    (h : Continued .labelling left continuation (t :: us) form)
    (hcontinuation : Grammar.standard.continuation? t.kind = some continuation) :
    ∃ m, (∀ span, Expr.marks ⟨form, span⟩ = left.marks + m) ∧ Tags .start (t :: us) m := by
  have hplain := isPlain_of_continuation hcontinuation
  have hmarks (hlabel : form.label? = none) (hbody : form.body? = none) {es : List Expr}
      (hchildren : form.children = left :: es) (span : Span) :
      Expr.marks ⟨form, span⟩ = left.marks + marksOfAll es := by
    rw [Expr.marks_of_plain span hlabel hbody, hchildren, marksOfAll_cons]
  cases h with
  | binary h =>
    refine ⟨_, hmarks rfl rfl rfl, .mark_append rfl hplain ?_⟩
    simpa using h.2.tags
  | post => exact ⟨_, hmarks rfl rfl rfl, .mark rfl hplain⟩
  | property hname =>
    exact ⟨_, hmarks rfl rfl rfl, .mark_append rfl hplain (.mark hname rfl)⟩
  | call h =>
    refine ⟨_, hmarks rfl rfl rfl, .mark_append rfl hplain ?_⟩
    simpa [marksOfAll, Function.comp_def] using h.tags ArgumentPhrase.tags rfl
  | element h =>
    exact ⟨_, hmarks rfl rfl rfl, .mark_append rfl hplain (h.tags Labelling.tags_of rfl)⟩
  | statement h =>
    exact ⟨_, hmarks rfl rfl rfl, .mark_append rfl hplain (h.tags Labelling.tags_of)⟩
  | assignment h hleft =>
    refine ⟨_, hmarks rfl rfl rfl, .mark_append rfl hplain ?_⟩
    simpa using h.2.tags

/-! ## Expressions -/

lemma label?_of_withLabel? {target labelled : Expr} {name : String}
    (h : target.withLabel? name = some labelled) : labelled.form.label? = some name := by
  unfold Expr.withLabel? at h
  split at h <;> cases h <;> rfl

lemma Opened.eq_label {t : Token} {name : String} (h : Opened .labelling opening ts form)
    (ht : ts.head? = some t) (hname : form.label? = some name) :
    opening = .label ∧ t.text = name := by
  cases h with
  | label hcolon h hlabelled =>
    cases ht
    rw [label?_of_withLabel? hlabelled] at hname
    exact ⟨rfl, Option.some.inj hname⟩
  | block h =>
    rw [Form.label?, h.label_eq] at hname
    cases hname
  | conditional h => cases h <;> cases hname
  | _ => cases hname

lemma Phrase.labelling {least : Precedence} {e : Expr} (h : Phrase .labelling least ts e) :
    Labelling least ts e := by
  induction h with
  | @opened opening t ts form hopening haccepts h =>
    refine ⟨h.tags rfl hopening, List.cons_ne_nil _ _, fun name hname => ?_, fun _ hnone => ?_⟩
    · obtain ⟨rfl, htext⟩ := h.eq_label rfl ((Expr.label?_eq _).symm.trans hname)
      exact ⟨t, ts, rfl, eq_label_of_opening hopening, htext, cover_offset t ts⟩
    · rintro _ ⟨⟩ hkind
      rw [hkind] at hopening
      cases hopening
      cases h with
      | label hcolon h hlabelled =>
        rw [Expr.label?_eq, label?_of_withLabel? hlabelled] at hnone
        cases hnone
  | @continued ts left continuation t us form hleft hcontinuation hlevel hgrip h ih =>
    obtain ⟨m, hm, htags⟩ := h.tags hcontinuation
    refine ⟨?_, by simp, fun name hname => ?_, fun hleast _ => ?_⟩
    · rw [hm]
      exact ih.tags.append htags (unlabelled_cons (isPlain_of_continuation hcontinuation))
    · cases h <;> cases hname
    · rw [hleast, not_exceeds_tightest] at hlevel
      cases hlevel

lemma Language.closed_labelling (K : Setting) : Language.labelling.Closed K where
  token h := ⟨(closed_spoken K).token h, h.elim fun _ ⟨_, hread⟩ => Scan.tokenHere_suits hread⟩
  expr h := ⟨(closed_spoken K).expr (h.mono labelling_included), h.labelling⟩
  type h := ⟨(closed_spoken K).type (h.mono labelling_included), h.plain⟩
  pattern h := ⟨(closed_spoken K).pattern (h.mono labelling_included), h.plain⟩
  path h := ⟨(closed_spoken K).path (h.mono labelling_included), h.plain⟩

end Phrases

end FrontEnd
