import FrontEnd.Proofs.Located

/-!
# What is written in a body

The members of a class or trait as they are written: one after another, each with modifiers of its
own, in blocks that lie in one another. The parser goes through them with a stack of open blocks.
What it collects are the members that are written, in their order.
-/

namespace FrontEnd

open Production

/-! ## Modifiers -/

/-- What stands in front of a member, or in front of the brace of a block: a privacy keyword and
`static`, each of which may be left out. -/
structure Modifiers where
  privacy : Option Visibility
  isStatic : Bool
  deriving DecidableEq, Repr

/-- The block that modifiers open in front of a brace, if they open one. A privacy keyword may stand
in front of `static`; the block is a static one then. -/
def Modifiers.block? : Modifiers → Option ModifierBlock
  | ⟨_, true⟩ => some .ofStatic
  | ⟨some .everyone, false⟩ => some .ofPublic
  | ⟨some .family, false⟩ => some .ofProtected
  | ⟨_, false⟩ => none

/-- The stack of blocks for the modifiers of the blocks around a place, the innermost first. -/
def openBlocks (around : List Modifiers) : OpenBlocks :=
  around.filterMap Modifiers.block?

/-- A privacy keyword, or nothing. -/
inductive PrivacyText : List Token → Option Visibility → Prop where
  | absent : PrivacyText [] none
  | present {keyword visibility} (hkeyword : privacyKeyword? keyword = some (keyword, visibility)) :
    PrivacyText [keyword] (some visibility)

/-- Modifiers as they are written. -/
inductive ModifiersText : List Token → Modifiers → Prop where
  | mk {ts privacy us isStatic} (hprivacy : PrivacyText ts privacy)
    (hstatic : Keyword .kwStatic us isStatic) : ModifiersText (ts ++ us) ⟨privacy, isStatic⟩

/-! ## Members -/

/-- What a member is without its modifiers. -/
inductive Item where
  | method (function : FunctionDef Expr)
  | property (declared : Declaration Expr)
  | overload (overloaded : Overload Expr)

/-- A member as it is written, with the modifiers of the blocks around it, the innermost first. -/
structure Written where
  around : List Modifiers
  own : Modifiers
  item : Item

/-- A member without its modifiers, as it is written. -/
inductive ItemText (Λ : Language) (body : BodyKind) : List Token → Item → Prop where
  | method {keyword name ts function} (hkeyword : keyword.kind = .kwFn)
    (hname : name.kind = .identifier)
    (h : FunctionPhrase Λ name.ident body.allowsSignatures ts function) :
    ItemText Λ body (keyword :: name :: ts) (.method function)
  | property {lead isConstant ts declared} (hlead : Keyword .kwConst lead isConstant)
    (h : DeclarationPhrase Λ (if isConstant then .constant else .variable) ts declared) :
    ItemText Λ body (lead ++ ts) (.property declared)
  | overload {keyword ts overloaded} (hkeyword : keyword.kind = .kwOperator)
    (h : OverloadPhrase Λ body.allowsSignatures ts overloaded) :
    ItemText Λ body (keyword :: ts) (.overload overloaded)

/-- What is written in a body or block through the brace that closes it, inside of blocks with the
given modifiers: members and further blocks, with commas between them. -/
inductive BodyText (Λ : Language) (body : BodyKind) :
    List Modifiers → List Token → List Written → Prop where
  | done {around right} (hright : right.kind = .rightBrace) : BodyText Λ body around [right] []
  | member {around lead own ts item sep us rest} (hown : ModifiersText lead own)
    (hitem : ItemText Λ body ts item) (hsep : Separator sep us)
    (h : BodyText Λ body around us rest) :
    BodyText Λ body around (lead ++ ts ++ sep ++ us) (⟨around, own, item⟩ :: rest)
  | block {around lead modifiers block left ts inner sep us rest}
    (hmodifiers : ModifiersText lead modifiers) (hblock : modifiers.block? = some block)
    (hleft : left.kind = .leftBrace) (hinner : BodyText Λ body (modifiers :: around) ts inner)
    (hsep : Separator sep us) (h : BodyText Λ body around us rest) :
    BodyText Λ body around (lead ++ left :: ts ++ sep ++ us) (inner ++ rest)

/-- What introduces a class or struct, or a trait. -/
inductive Introduction : BodyKind → List Token → Prop where
  | classDef {keyword} (hkeyword : keyword.kind = .kwClass ∨ keyword.kind = .kwStruct) :
    Introduction .ofClass [keyword]
  | traitDef {keyword} (hkeyword : keyword.kind = .kwTrait) : Introduction .ofTrait [keyword]
  | structural {lead keyword} (hlead : lead.kind = .kwStructural)
    (hkeyword : keyword.kind = .kwTrait) : Introduction .ofTrait [lead, keyword]

/-- A class or trait with what is written in its body. -/
inductive DefinitionText (Λ : Language) (body : BodyKind) :
    List Token → List Written → Prop where
  | mk {lead name ts params left us written} (hlead : Introduction body lead)
    (hname : name.kind = .identifier) (hparams : TypeParams Λ ts params)
    (hleft : left.kind = .leftBrace) (h : BodyText Λ body [] us written) :
    DefinitionText Λ body (lead ++ name :: (ts ++ left :: us)) written

/-- A class or trait of a source is spelled by tokens that stand one after another there, and in its
body the given members are written. -/
def HasBody (source : String) (node : Expr) (body : BodyKind) (written : List Written) : Prop :=
  ∃ ts, Consecutive source.toList ts ∧ node.span = cover ts ∧ DefinitionText .spoken body ts written

section Languages

variable {Λ Λ' : Language} (hle : Λ.Included Λ') {body : BodyKind} {around : List Modifiers}
variable {ts : List Token} {written : List Written}
include hle

lemma ItemText.mono {item : Item} (h : ItemText Λ body ts item) : ItemText Λ' body ts item := by
  cases h with
  | method hkeyword hname h => exact .method hkeyword hname (h.mono hle)
  | property hlead h => exact .property hlead (h.mono hle)
  | overload hkeyword h => exact .overload hkeyword (h.mono hle)

lemma BodyText.mono (h : BodyText Λ body around ts written) :
    BodyText Λ' body around ts written := by
  induction h with
  | done hright => exact .done hright
  | member hown hitem hsep h ih => exact .member hown (hitem.mono hle) hsep ih
  | block hmodifiers hblock hleft hinner hsep h ihinner ih =>
    exact .block hmodifiers hblock hleft ihinner hsep ih

lemma DefinitionText.mono (h : DefinitionText Λ body ts written) :
    DefinitionText Λ' body ts written := by
  obtain ⟨hlead, hname, hparams, hleft, h⟩ := h
  exact .mk hlead hname (hparams.mono hle) hleft (h.mono hle)

end Languages

namespace Written

/-- The stack of blocks that are open at a member. -/
def blocks (w : Written) : OpenBlocks :=
  openBlocks w.around

/-- The scope that a member gets. -/
def givenScope (w : Written) : Scope :=
  if w.own.isStatic || w.blocks.isStatic then .ofType else .ofInstance

/-- The visibility that a member gets. -/
def givenVisibility (body : BodyKind) (w : Written) : Visibility :=
  w.blocks.visibility?.getD (w.own.privacy.getD body.defaultVisibility)

/-- What is written as a member, with the modifiers that it gets. -/
def given {α : Type} (body : BodyKind) (w : Written) (item : α) : Member α :=
  ⟨item, w.givenScope, w.givenVisibility body⟩

/-- The members with one more. -/
def addTo (body : BodyKind) (members : MemberList Expr) (w : Written) : MemberList Expr :=
  match w.item with
  | .method function => members.addMethod (w.given body function)
  | .property declared => members.addProperty (w.given body declared)
  | .overload overloaded => members.addOperator overloaded

def method? (w : Written) : Option (FunctionDef Expr) :=
  match w.item with
  | .method function => some function
  | _ => none

def property? (w : Written) : Option (Declaration Expr) :=
  match w.item with
  | .property declared => some declared
  | _ => none

def overload? (w : Written) : Option (Overload Expr) :=
  match w.item with
  | .overload overloaded => some overloaded
  | _ => none

section Collected

variable {body : BodyKind} {members : MemberList Expr} {written : List Written}

lemma methods_foldl : (written.foldl (addTo body) members).methods =
    members.methods ++ written.filterMap fun w => w.method?.map (w.given body) := by
  induction written generalizing members with
  | nil => exact (List.append_nil _).symm
  | cons w written ih =>
    rw [List.foldl_cons, ih]
    obtain ⟨around, own, item⟩ := w
    cases item <;> simp [addTo, method?, MemberList.addMethod, MemberList.addProperty,
      MemberList.addOperator]

lemma properties_foldl : (written.foldl (addTo body) members).properties =
    members.properties ++ written.filterMap fun w => w.property?.map (w.given body) := by
  induction written generalizing members with
  | nil => exact (List.append_nil _).symm
  | cons w written ih =>
    rw [List.foldl_cons, ih]
    obtain ⟨around, own, item⟩ := w
    cases item <;> simp [addTo, property?, MemberList.addMethod, MemberList.addProperty,
      MemberList.addOperator]

lemma operators_foldl : (written.foldl (addTo body) members).operators =
    (written.filterMap overload?).foldl (fun os o => MemberList.insertOverload o os)
      members.operators := by
  induction written generalizing members with
  | nil => rfl
  | cons w written ih =>
    rw [List.foldl_cons, ih]
    obtain ⟨around, own, item⟩ := w
    cases item <;> simp [List.filterMap_cons, addTo, overload?, MemberList.addMethod,
      MemberList.addProperty, MemberList.addOperator]

end Collected

end Written

/-! ## Open blocks -/

/-- The modifiers of blocks that may be open in one another, the innermost first. -/
inductive Nestable : List Modifiers → Prop where
  | nil : Nestable []
  | cons {modifiers around block} (hblock : modifiers.block? = some block)
    (hdepth : (openBlocks around).length < 2) (hnew : block ∉ openBlocks around)
    (hplain : modifiers.isStatic = true → modifiers.privacy ≠ none →
      (openBlocks around).isPrivacy = false)
    (h : Nestable around) : Nestable (modifiers :: around)

/-- A member that may stand in the blocks around it, with the modifiers of its own. -/
structure Written.Admitted (w : Written) : Prop where
  nestable : Nestable w.around
  privacy : w.own.privacy ≠ none → w.blocks.isPrivacy = false
  isStatic : w.own.isStatic = true → w.blocks.isStatic = false

section Phrases

variable {Λ : Language} {body : BodyKind} {blocks : OpenBlocks} {members : MemberList Expr}
variable {ts : List Token}

lemma openBlocks_cons {modifiers : Modifiers} {around : List Modifiers} {block : ModifierBlock}
    (h : modifiers.block? = some block) :
    openBlocks (modifiers :: around) = block :: openBlocks around :=
  List.filterMap_cons_some h

lemma PrivacyPhrase.text {visibility : Visibility}
    (h : PrivacyPhrase body blocks ts (.member visibility)) :
    ∃ privacy, PrivacyText ts privacy ∧ visibility = privacy.getD body.defaultVisibility ∧
      (privacy ≠ none → blocks.isPrivacy = false) := by
  cases h with
  | absent => exact ⟨none, .absent, rfl, fun h => absurd rfl h⟩
  | @personal keyword hkeyword hplain =>
    have htext : privacyKeyword? keyword = some (keyword, .personal) := by
      rw [privacyKeyword?, hkeyword]
    exact ⟨some .personal, .present htext, rfl, fun _ => hplain⟩
  | @shared keyword block _ hkeyword hplain =>
    have htext : privacyKeyword? keyword = some (keyword, visibility) := by
      unfold privacyBlock? at hkeyword
      split at hkeyword <;> cases hkeyword
      · next hkind => rw [privacyKeyword?, hkind]
      · next hkind => rw [privacyKeyword?, hkind]
    exact ⟨some visibility, .present htext, rfl, fun _ => hplain⟩

lemma StaticPhrase.text {scope : Scope} (h : StaticPhrase blocks ts (.member scope)) :
    ∃ isStatic, Keyword .kwStatic ts isStatic ∧
      scope = (if isStatic || blocks.isStatic then .ofType else .ofInstance) ∧
      (isStatic = true → blocks.isStatic = false) := by
  cases h with
  | absent => exact ⟨false, .absent, rfl, fun h => by cases h⟩
  | written hkeyword hplain => exact ⟨true, .present hkeyword, rfl, fun _ => hplain⟩

lemma MemberPhrase.text_of_opened {inner : OpenBlocks}
    (h : MemberPhrase Λ body blocks members ts (.opened inner)) :
    ∃ lead left modifiers block, ts = lead ++ [left] ∧ ModifiersText lead modifiers ∧
      left.kind = .leftBrace ∧ modifiers.block? = some block ∧ inner = block :: blocks ∧
      blocks.length < 2 ∧ block ∉ blocks ∧
      (modifiers.isStatic = true → modifiers.privacy ≠ none → blocks.isPrivacy = false) := by
  cases h with
  | privacyBlock h =>
    cases h with
    | @opened keyword left block visibility hkeyword hleft hdepth hnew =>
      unfold privacyBlock? at hkeyword
      split at hkeyword <;> cases hkeyword
      all_goals
        next hkind =>
        exact ⟨[keyword], left, _, _, rfl, .mk (.present (by rw [privacyKeyword?, hkind])) .absent,
          hleft, rfl, rfl, hdepth, hnew, fun hstatic => by cases hstatic⟩
  | @staticBlock us visibility vs _ hprivacy h =>
    obtain ⟨privacy, htext, -, hplain⟩ := hprivacy.text
    cases h with
    | @opened keyword left hkeyword hleft hdepth hnew =>
      refine ⟨us ++ [keyword], left, ⟨privacy, true⟩, _, ?_, .mk htext (.present hkeyword), hleft,
        rfl, rfl, hdepth, hnew, fun _ => hplain⟩
      rw [List.append_assoc]
      rfl

lemma MemberPhrase.text_of_member {added : MemberList Expr} {around : List Modifiers}
    (h : MemberPhrase Λ body (openBlocks around) members ts (.member added))
    (haround : Nestable around) :
    ∃ lead us own item, ts = lead ++ us ∧ ModifiersText lead own ∧ ItemText Λ body us item ∧
      added = Written.addTo body members ⟨around, own, item⟩ ∧
      Written.Admitted ⟨around, own, item⟩ := by
  cases h with
  | @item lead visibility vs scope us _ hprivacy hstatic h =>
    obtain ⟨privacy, hprivacyText, rfl, hplain⟩ := hprivacy.text
    obtain ⟨isStatic, hstaticText, rfl, hstaticPlain⟩ := hstatic.text
    have hown : ModifiersText (lead ++ vs) ⟨privacy, isStatic⟩ := .mk hprivacyText hstaticText
    have hadmitted (item : Item) : Written.Admitted ⟨around, ⟨privacy, isStatic⟩, item⟩ :=
      ⟨haround, hplain, hstaticPlain⟩
    cases h with
    | method hkeyword hname h =>
      exact ⟨_, _, _, _, rfl, hown, .method hkeyword hname h, rfl, hadmitted _⟩
    | overload hkeyword h => exact ⟨_, _, _, _, rfl, hown, .overload hkeyword h, rfl, hadmitted _⟩
    | property h =>
      obtain ⟨hlead, h, -⟩ := h
      exact ⟨_, _, _, _, rfl, hown, .property hlead h, rfl, hadmitted _⟩

end Phrases

/-! ## Unwinding the stack -/

/-- What is written from a place inside of blocks on: the rest of the innermost block, and then the
rest of those around it, through the end of the body. -/
inductive RestText (Λ : Language) (body : BodyKind) :
    List Modifiers → List Token → List Written → Prop where
  | inBody {ts written} (h : BodyText Λ body [] ts written) : RestText Λ body [] ts written
  | inBlock {modifiers around ts inner sep us rest}
    (h : BodyText Λ body (modifiers :: around) ts inner) (hsep : Separator sep us)
    (hrest : RestText Λ body around us rest) :
    RestText Λ body (modifiers :: around) (ts ++ sep ++ us) (inner ++ rest)

section Unwinding

variable {Λ : Language} {body : BodyKind} {around : List Modifiers} {ts us sep : List Token}
variable {written rest : List Written}

lemma Separator.of_append (h : Separator sep (ts ++ us)) (hne : ts ≠ []) : Separator sep ts := by
  obtain ⟨t, ts, rfl⟩ := List.exists_cons_of_ne_nil hne
  rw [List.cons_append] at h
  cases h with
  | comma hcomma => exact .comma hcomma
  | closing hright => exact .closing hright

lemma BodyText.ne_nil (h : BodyText Λ body around ts written) : ts ≠ [] := by
  induction h with
  | done hright => exact List.cons_ne_nil _ _
  | member hown hitem hsep h ih => exact List.append_ne_nil_of_right_ne_nil _ ih
  | block hmodifiers hblock hleft hinner hsep h ihinner ih =>
    exact List.append_ne_nil_of_right_ne_nil _ ih

lemma RestText.prepend (h : RestText Λ body around us rest) (xs : List Token)
    (first : List Written)
    (hfront : ∀ {vs ws}, BodyText Λ body around vs ws → (∃ tail, us = vs ++ tail) →
      BodyText Λ body around (xs ++ vs) (first ++ ws)) :
    RestText Λ body around (xs ++ us) (first ++ rest) := by
  cases h with
  | inBody h => exact .inBody (hfront h ⟨[], (List.append_nil us).symm⟩)
  | inBlock h hsep hrest =>
    simp only [← List.append_assoc]
    exact .inBlock (hfront h ⟨_, List.append_assoc _ _ _⟩) hsep hrest

/-- The rest of a body with a stack of open blocks is what is written in these, and what it collects
are the members that are written. -/
lemma MembersPhrase.bodyText {blocks : OpenBlocks} {members result : MemberList Expr}
    (h : MembersPhrase Λ body blocks members ts result) (haround : Nestable around)
    (hblocks : openBlocks around = blocks) :
    ∃ written, RestText Λ body around ts written ∧
      result = written.foldl (Written.addTo body) members ∧ ∀ w ∈ written, w.Admitted := by
  induction h generalizing around with
  | done hright =>
    cases haround with
    | nil => exact ⟨[], .inBody (.done hright), rfl, List.forall_mem_nil _⟩
    | cons hblock => rw [openBlocks_cons hblock] at hblocks; cases hblocks
  | leave hright hsep h ih =>
    cases haround with
    | nil => cases hblocks
    | cons hblock hdepth hnew hplain haround =>
      rw [openBlocks_cons hblock] at hblocks
      obtain ⟨written, hrest, hresult, hadmitted⟩ := ih haround (List.cons.inj hblocks).2
      exact ⟨written, .inBlock (.done hright) hsep hrest, hresult, hadmitted⟩
  | enter hmember h ih =>
    subst hblocks
    obtain ⟨lead, left, modifiers, block, rfl, hmodifiers, hleft, hblock, rfl, hdepth, hnew,
      hplain⟩ := hmember.text_of_opened
    obtain ⟨written, hrest, hresult, hadmitted⟩ :=
      ih (.cons hblock hdepth hnew hplain haround) (openBlocks_cons hblock)
    refine ⟨written, ?_, hresult, hadmitted⟩
    -- The new block is closed first; what follows it goes on in the blocks that were open before.
    cases hrest with
    | @inBlock _ _ ts inner sep us rest hinner hsep hrest =>
      have hprepend := hrest.prepend (lead ++ left :: ts ++ sep) inner
        fun {vs ws} hbody ⟨tail, hus⟩ =>
          .block hmodifiers hblock hleft hinner ((hus ▸ hsep).of_append hbody.ne_nil) hbody
      simpa only [List.append_assoc, List.cons_append, List.nil_append] using hprepend
  | @member blocks members ts added sep us result hmember hsep h ih =>
    subst hblocks
    obtain ⟨lead, vs, own, item, rfl, hown, hitem, rfl, hadmitted⟩ :=
      hmember.text_of_member haround
    obtain ⟨written, hrest, hresult, hwritten⟩ := ih haround rfl
    refine ⟨⟨around, own, item⟩ :: written, ?_, hresult,
      List.forall_mem_cons.mpr ⟨hadmitted, hwritten⟩⟩
    exact hrest.prepend _ [⟨around, own, item⟩] fun {vs ws} hbody ⟨tail, hus⟩ =>
      .member hown hitem ((hus ▸ hsep).of_append hbody.ne_nil) hbody

end Unwinding

/-! ## Classes and traits of a source -/

section Definitions

variable {Λ : Language} {kind : TokenKind}

lemma kind_of_classDef (h : Grammar.standard.opening? kind = some .classDef) :
    kind = .kwClass ∨ kind = .kwStruct := by
  cases kind <;> cases h <;> simp

lemma kind_of_traitDef (h : Grammar.standard.opening? kind = some .traitDef) :
    kind = .kwTrait ∨ kind = .kwStructural := by
  cases kind <;> cases h <;> simp

lemma body?_of_withLabel? {e labelled : Expr} {label : String}
    (h : e.withLabel? label = some labelled) : labelled.form.body? = none := by
  obtain ⟨form, span⟩ := e
  cases form with
  | block | endlessLoop | forLoop => cases h; rfl
  | _ => cases h

lemma ConditionalPhrase.body?_eq_none {ts : List Token} {e : Expr}
    (h : ConditionalPhrase Λ ts e) : e.form.body? = none := by
  cases h <;> rfl

lemma Opened.definitionText {opening : Opening} {ts : List Token} {form : Form Expr}
    {body : BodyKind} {members : MemberList Expr} (h : Opened Λ opening ts form)
    (hopening : ∀ t us, ts = t :: us → Grammar.standard.opening? t.kind = some opening)
    (hbody : form.body? = some (body, members)) :
    ∃ written, DefinitionText Λ body ts written ∧
      members = written.foldl (Written.addTo body) .empty ∧ ∀ w ∈ written, w.Admitted := by
  cases h with
  | classDef hname hparams hleft hmembers =>
    cases hbody
    obtain ⟨written, ⟨hwritten⟩, hresult, hadmitted⟩ := hmembers.bodyText .nil rfl
    have hkeyword := kind_of_classDef (hopening _ _ rfl)
    exact ⟨written, .mk (.classDef hkeyword) hname hparams hleft hwritten, hresult, hadmitted⟩
  | @traitDef keyword lead name ts params left us members hlead hname hparams hleft hmembers =>
    cases hbody
    obtain ⟨written, ⟨hwritten⟩, hresult, hadmitted⟩ := hmembers.bodyText .nil rfl
    have hlead : Introduction .ofTrait (keyword :: lead) := by
      rcases kind_of_traitDef (hopening _ _ rfl) with hkind | hkind <;>
        rw [hkind] at hlead <;> cases hlead
      · exact .traitDef hkind
      · next hkeyword => exact .structural hkind hkeyword
    exact ⟨written, .mk hlead hname hparams hleft hwritten, hresult, hadmitted⟩
  | label hcolon h hlabelled => rw [body?_of_withLabel? hlabelled] at hbody; cases hbody
  | conditional h => rw [h.body?_eq_none] at hbody; cases hbody
  | _ => cases hbody

lemma Phrase.definitionText {least : Precedence} {ts : List Token} {node : Expr} {body : BodyKind}
    {members : MemberList Expr} (h : Phrase Λ least ts node)
    (hbody : node.form.body? = some (body, members)) :
    ∃ written, DefinitionText Λ body ts written ∧
      members = written.foldl (Written.addTo body) .empty ∧ ∀ w ∈ written, w.Admitted := by
  cases h with
  | opened hopening haccepts h =>
    refine h.definitionText (fun t us hts => ?_) hbody
    cases hts
    exact hopening
  | continued hleft hcontinuation hlevel hgrip h => cases h <;> cases hbody

lemma parse_hasBody {source : String} {e node : Expr} {body : BodyKind} {members : MemberList Expr}
    (h : (parse source).result = .ok (some e)) (hnode : node.Occurs e)
    (hbody : node.form.body? = some (body, members)) :
    ∃ written, HasBody source node body written ∧
      members = written.foldl (Written.addTo body) .empty ∧ ∀ w ∈ written, w.Admitted := by
  obtain ⟨ts, least, hconsecutive, hphrase⟩ := parse_located h hnode (Form.isWritten_of_body? hbody)
  obtain ⟨written, htext, hmembers, hadmitted⟩ := hphrase.definitionText hbody
  exact ⟨written, ⟨ts, hconsecutive, hphrase.span_eq, htext⟩, hmembers, hadmitted⟩

end Definitions

/-- The body of the class or trait that a source is, if it is one. -/
def rootBody? (source : String) : Option (BodyKind × MemberList Expr) :=
  (parse source).result.toOption.join.bind (·.form.body?)

lemma eq_ok_of_rootBody? {α : Type} {source : String} {f : BodyKind × MemberList Expr → α} {a : α}
    (h : (rootBody? source).map f = some a) :
    ∃ e body members, (parse source).result = .ok (some e) ∧
      e.form.body? = some (body, members) ∧ f (body, members) = a := by
  obtain ⟨⟨body, members⟩, hroot, ha⟩ := Option.map_eq_some_iff.mp h
  obtain ⟨e, hjoin, hbody⟩ := Option.bind_eq_some_iff.mp hroot
  cases hresult : (parse source).result with
  | error d => rw [hresult] at hjoin; cases hjoin
  | ok program =>
    rw [hresult] at hjoin
    cases hjoin
    exact ⟨e, body, members, rfl, hbody, ha⟩

end FrontEnd
