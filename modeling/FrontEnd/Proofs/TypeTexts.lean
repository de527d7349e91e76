import FrontEnd.Proofs.Coverage
import FrontEnd.Proofs.Located
import FrontEnd.Proofs.SpelledPatterns
import FrontEnd.Proofs.Words

/-!
# Types survive printing

The text of a type is read back as the same type, up to places, if its names are names: what is read
from a source always has such names, so printing it and reading it again gives it back. `Tells` says
that a text is made up of words whose tokens have a property, wherever the text stands; such texts
are put together from smaller ones, as the text of a type is.
-/

namespace FrontEnd

open Parse Production

/-! ## Texts that are put together -/

lemma NameEnd.append {text tail : List Char} (h : NameEnd text) (htail : NameEnd tail) :
    NameEnd (text ++ tail) := by
  cases text with
  | nil => exact htail
  | cons c text => exact nameEnd_cons (h c rfl)

/-- Some words make up a text in front of everything that does not go on with a name. -/
def Lays (ws : List Word) (text : List Char) : Prop :=
  ∀ us tail, NameEnd tail → Laid us tail → Laid (ws ++ us) (text ++ tail)

namespace Lays

variable {ws us : List Word} {text text' : List Char}

lemma nil : Lays [] [] :=
  fun _ _ _ h => h

lemma name {name : String} (h : IsPlainName name) : Lays [.name name] name.toList := by
  intro us tail htail hlaid
  have hname : Laid (.name name :: us) (name.toList ++ List.replicate 0 ' ' ++ tail) :=
    .cons 0 ⟨h, htail⟩ hlaid
  rwa [List.replicate_zero, List.append_nil] at hname

lemma mark (p : Punctuation) (n : Nat) (h : Lays ws text) :
    Lays (.mark p :: ws) (p.char :: (List.replicate n ' ' ++ text)) := by
  intro us tail htail hlaid
  have hmark : Laid (.mark p :: (ws ++ us)) ([p.char] ++ List.replicate n ' ' ++ (text ++ tail)) :=
    .cons n trivial (h us tail htail hlaid)
  simpa using hmark

lemma op {name : String} (hname : IsPlainName name) (o : BinaryOp) (h : Lays ws text) :
    Lays (.name name :: .op o :: ws) (name.toList ++ ' ' :: (o.symbol.toList ++ ' ' :: text)) := by
  intro us tail htail hlaid
  have hneutral (text : List Char) : Neutral (' ' :: text) := by
    intro c hc
    obtain rfl := Option.some_inj.mp hc
    decide
  have hop : Laid (.op o :: (ws ++ us))
      (o.symbol.toList ++ List.replicate 1 ' ' ++ (text ++ tail)) :=
    .cons 1 (hneutral _) (h us tail htail hlaid)
  have hboth : Laid (.name name :: .op o :: (ws ++ us)) (name.toList ++ List.replicate 1 ' ' ++
      (o.symbol.toList ++ List.replicate 1 ' ' ++ (text ++ tail))) :=
    .cons 1 ⟨hname, (hneutral _).nameEnd⟩ hop
  simpa using hboth

lemma append (h : Lays ws text) (h' : Lays us text') (hend : NameEnd text') :
    Lays (ws ++ us) (text ++ text') := by
  intro vs tail htail hlaid
  rw [List.append_assoc, List.append_assoc]
  exact h _ _ (hend.append htail) (h' _ _ htail hlaid)

end Lays

/-- A text is made up of words whose tokens have a property. -/
def Tells (text : List Char) (P : List Token → Prop) : Prop :=
  ∃ ws, Lays ws text ∧ ∀ ts, Fitting ws ts → P ts

namespace Tells

variable {text text' : List Char} {P Q : List Token → Prop}

lemma mono (h : Tells text P) (hPQ : ∀ ts, P ts → Q ts) : Tells text Q := by
  obtain ⟨ws, hlays, hP⟩ := h
  exact ⟨ws, hlays, fun ts hts => hPQ ts (hP ts hts)⟩

lemma nil : Tells [] (· = []) :=
  ⟨[], .nil, fun _ h => List.forall₂_nil_left_iff.mp h⟩

lemma name {name : String} (h : IsPlainName name) :
    Tells name.toList fun ts => ∃ t, ts = [t] ∧ t.kind = .identifier ∧ t.text = name := by
  refine ⟨[.name name], .name h, fun ts hts => ?_⟩
  obtain ⟨t, nil', ⟨span, rfl⟩, hnil, rfl⟩ := List.forall₂_cons_left_iff.mp hts
  obtain rfl := List.forall₂_nil_left_iff.mp hnil
  exact ⟨_, rfl, rfl, rfl⟩

lemma mark (p : Punctuation) (n : Nat) (h : Tells text P) :
    Tells (p.char :: (List.replicate n ' ' ++ text)) fun ts =>
      ∃ t us, ts = t :: us ∧ t.kind = p.kind ∧ P us := by
  obtain ⟨ws, hlays, hP⟩ := h
  refine ⟨_, hlays.mark p n, fun ts hts => ?_⟩
  obtain ⟨t, us, ⟨span, rfl⟩, hus, rfl⟩ := List.forall₂_cons_left_iff.mp hts
  exact ⟨_, us, rfl, rfl, hP us hus⟩

lemma op {name : String} (hname : IsPlainName name) (o : BinaryOp) (h : Tells text P) :
    Tells (name.toList ++ ' ' :: (o.symbol.toList ++ ' ' :: text)) fun ts =>
      ∃ t u us, ts = t :: u :: us ∧ (t.kind = .identifier ∧ t.text = name) ∧ u.kind = o.kind ∧
        P us := by
  obtain ⟨ws, hlays, hP⟩ := h
  refine ⟨_, hlays.op hname o, fun ts hts => ?_⟩
  obtain ⟨t, us, ⟨span, rfl⟩, hus, rfl⟩ := List.forall₂_cons_left_iff.mp hts
  obtain ⟨u, vs, ⟨span', rfl⟩, hvs, rfl⟩ := List.forall₂_cons_left_iff.mp hus
  exact ⟨_, _, vs, rfl, ⟨rfl, rfl⟩, rfl, hP vs hvs⟩

lemma append (h : Tells text P) (h' : Tells text' Q) (hend : NameEnd text') :
    Tells (text ++ text') fun ts => ∃ us vs, ts = us ++ vs ∧ P us ∧ Q vs := by
  obtain ⟨ws, hlays, hP⟩ := h
  obtain ⟨ws', hlays', hQ⟩ := h'
  refine ⟨_, hlays.append hlays' hend, fun ts hts => ?_⟩
  have hus := List.forall₂_take ws.length hts
  have hvs := List.forall₂_drop ws.length hts
  rw [List.take_left] at hus
  rw [List.drop_left] at hvs
  exact ⟨_, _, (List.take_append_drop ws.length ts).symm, hP _ hus, hQ _ hvs⟩

/-- Elements with commas between them and punctuation behind the last make up a list. -/
lemma list {α : Type} {R : List Token → α → Prop} {text : α → List Char} (close : Punctuation)
    {as : List α} (h : ∀ a ∈ as, Tells (text a) (R · a)) :
    Tells ([',', ' '].intercalate (as.map text) ++ [close.char])
      fun ts => Listed close.kind R ts as := by
  have hclose : Tells [close.char] fun ts => ∃ t, ts = [t] ∧ t.kind = close.kind := by
    refine (mark close 0 nil).mono ?_
    rintro _ ⟨t, us, rfl, ht, rfl⟩
    exact ⟨t, rfl, ht⟩
  induction as with
  | nil =>
    rw [List.map_nil, List.intercalate_nil, List.nil_append]
    refine hclose.mono ?_
    rintro _ ⟨t, rfl, ht⟩
    exact .done ht
  | cons a as ih =>
    obtain ⟨ha, has⟩ := List.forall_mem_cons.mp h
    cases as with
    | nil =>
      rw [List.map_singleton, List.intercalate_singleton]
      refine (ha.append hclose (nameEnd_cons close.isNameChar_char)).mono ?_
      rintro _ ⟨us, _, rfl, hus, t, rfl, ht⟩
      exact .last hus ht
    | cons b as =>
      have hcomma := (ih has).mark .comma 1
      have hall := ha.append hcomma (nameEnd_cons Punctuation.comma.isNameChar_char)
      rw [List.map_cons, List.map_cons, List.intercalate_cons_cons, List.append_assoc,
        List.append_assoc]
      refine hall.mono ?_
      rintro _ ⟨us, _, rfl, hus, t, vs, rfl, ht, hvs⟩
      exact .more hus ht hvs

end Tells

/-! ## Reading a whole text -/

/-- An action reads a text through its end, with the given value. -/
def ReadsWhole {α : Type} (m : Parse α) (text : String) (a : α) : Prop :=
  ∃ s s', m (.ofText .standard text.toList) (.ofReader (.ofText text.toList)) = .ok a s ∧
    peekKind (.ofText .standard text.toList) s = .ok .endOfInput s'

lemma ReadsWhole.eq {α : Type} {m : Parse α} {text : String} {a b : α} (h : ReadsWhole m text a)
    (h' : ReadsWhole m text b) : a = b := by
  obtain ⟨s, -, hrun, -⟩ := h
  obtain ⟨s', -, hrun', -⟩ := h'
  rw [hrun, EStateM.Result.ok.injEq] at hrun'
  exact hrun'.1

lemma Tells.readsWhole {α : Type} {m : Parse α} {text : String} {P : List Token → Prop}
    {Q : α → Prop} (h : Tells text.toList P)
    (hm : ∀ (F : Supply) {ts s}, P ts → F.Ahead ts s →
      ∃ a s', m F.session s = .ok a s' ∧ F.Ahead [] s' ∧ Q a) :
    ∃ a, ReadsWhole m text a ∧ Q a := by
  obtain ⟨ws, hlays, hP⟩ := h
  have hlaid := hlays [] [] (fun c hc => by cases hc) .nil
  rw [List.append_nil, List.append_nil] at hlaid
  obtain ⟨ts, htokens, hfitting⟩ := tokenize_of_laid hlaid
  let F := Supply.ofText htokens
  obtain ⟨a, s', hrun, hend, ha⟩ := hm F (hP ts hfitting) F.ahead_start
  refine ⟨a, ⟨s', F.look s', hrun, ?_⟩, ha⟩
  have hpeek := hend.feeds.peek.1
  rw [hend.token] at hpeek
  rw [peekKind, bind_apply, show Session.ofText .standard text.toList = F.session from rfl, hpeek]
  rfl

/-! ## Reading the tokens of a type -/

/-- Some tokens do not go on with a token of a kind. -/
def NotNext (kind : TokenKind) (ts : List Token) : Prop :=
  ∀ t ∈ ts.head?, t.kind ≠ kind

lemma notNext_nil {kind : TokenKind} : NotNext kind [] := by
  intro t ht
  cases ht

lemma notNext_cons {kind : TokenKind} {t : Token} {ts : List Token} (h : t.kind ≠ kind) :
    NotNext kind (t :: ts) := by
  intro u hu
  obtain rfl := Option.some_inj.mp hu
  exact h

/-- Some tokens start with a name. -/
def StartsWithName (ts : List Token) : Prop :=
  ∃ name us, ts = name :: us ∧ name.kind = .identifier

/-- Some tokens are read as a type, up to places, wherever no brackets follow them. -/
structure ReadAsType (ts : List Token) (t : TypeExpr) : Prop where
  starts : StartsWithName ts
  reads : ∀ (F : Supply) depth {rest s}, ts.length ≤ depth → NotNext .leftBracket rest →
    F.Ahead (ts ++ rest) s →
      ∃ t' s', typeWithin depth F.session s = .ok t' s' ∧ F.Ahead rest s' ∧ erase t' = erase t

namespace Supply

variable {F : Supply} {α β : Type} {close kind : TokenKind} {R : List Token → α → Prop}
variable {Q : β → α → Prop} {as : List α} {t : Token} {ts us rest : List Token} {s : Stream}

lemma Ahead.length_le (h : F.Ahead (ts ++ rest) s) : ts.length ≤ F.session.limit := by
  obtain ⟨before, htokens, -⟩ := h
  have hlength := congrArg List.length htokens
  have hle := F.length_le
  rw [List.length_append, List.length_append] at hlength
  change ts.length ≤ F.start.cursor.rest.length + 2
  omega

lemma Ahead.eat_ne (h : F.Ahead ts s) (hne : NotNext kind ts)
    (hkind : kind ≠ .endOfInput) : eat kind F.session s = .ok false (F.look s) := by
  rw [h.feeds.eat, if_neg]
  rw [h.token]
  cases ts with
  | nil => exact hkind.symm
  | cons t ts => exact hne t rfl

lemma Ahead.eat_cons (h : F.Ahead (t :: ts) s) (hkind : t.kind = kind) :
    eat kind F.session s = .ok true (F.look s).step := by
  rw [h.feeds.eat, h.token_cons, if_pos hkind]

lemma Ahead.nextIs_ne (h : F.Ahead (t :: ts) s) (hkind : t.kind ≠ kind) :
    nextIs kind F.session s = .ok false (F.look s) := by
  rw [h.feeds.nextIs, h.token_cons, beq_false_of_ne hkind]

lemma Ahead.starts (h : F.Ahead (ts ++ rest) s) (hname : StartsWithName ts)
    (hclose : close ≠ .identifier) : F.Starts close s := by
  obtain ⟨name, us, rfl, hkind⟩ := hname
  have htoken : F.token s.index = name := h.token
  exact ⟨by rw [htoken, hkind]; exact hclose.symm, by rw [htoken, hkind]; decide⟩

lemma Ahead.commaSeparated_eq (element : Parse β) [Steady element] [Consuming element]
    (rules : CommaRules) (h : Listed close R ts as) (hclose : close ≠ .comma) {n : Nat}
    (hn : ts.length ≤ n)
    (hitem : ∀ {us a t vs s}, us.length ≤ n → R us a → t.kind = .comma ∨ t.kind = close →
      F.Ahead (us ++ t :: vs) s →
      ∃ b s₁, F.Item close element s b s₁ ∧ F.Ahead (t :: vs) s₁ ∧ Q b a)
    (hahead : F.Ahead (ts ++ rest) s) :
    ∃ bs s', commaSeparated close rules element F.session s = .ok bs s' ∧ F.Ahead rest s' ∧
      List.Forall₂ Q bs as := by
  obtain ⟨bs, s', harranged, hrest, hbs⟩ := arranged_of_listed element h hitem hn hahead
  exact ⟨bs, s', harranged.commaSeparated_eq hclose rules hahead.feeds, hrest, hbs⟩

end Supply

lemma Listed.startsWithName {α : Type} {close : TokenKind} {R : List Token → α → Prop}
    {ts : List Token} {as : List α} (h : Listed close R ts as) (hne : as ≠ [])
    (hR : ∀ {us a}, R us a → StartsWithName us) : StartsWithName ts := by
  cases h with
  | done => exact absurd rfl hne
  | last ha =>
    obtain ⟨name, us, rfl, hname⟩ := hR ha
    exact ⟨name, _, rfl, hname⟩
  | more ha =>
    obtain ⟨name, us, rfl, hname⟩ := hR ha
    exact ⟨name, _, rfl, hname⟩

/-- The language of the types that some tokens are read as wherever they stand. -/
def Language.ofTypes : Language :=
  { Language.any with type := ReadAsType }

namespace ReadAsType

variable {F : Supply} {t : TypeExpr} {params : List TypeExpr} {ts us rest : List Token} {s : Stream}

lemma erase_eq_of_forall₂ {ts ts' : List TypeExpr}
    (h : List.Forall₂ (fun t t' => erase t = erase t') ts ts') : erase ts = erase ts' := by
  induction h with
  | nil => rfl
  | cons ht _ ih => exact congrArg₂ List.cons ht ih

lemma item {close : TokenKind} (hclose : close ≠ .identifier ∧ close ≠ .leftBracket) {depth : Nat}
    {element : Parse TypeExpr} (helement : element F.session = typeWithin depth F.session)
    {next : Token} {vs : List Token} (h : ReadAsType us t) (hdepth : us.length ≤ depth)
    (hnext : next.kind = .comma ∨ next.kind = close) (hahead : F.Ahead (us ++ next :: vs) s) :
    ∃ t' s₁, F.Item close element s t' s₁ ∧ F.Ahead (next :: vs) s₁ ∧ erase t' = erase t := by
  have hnext' : NotNext .leftBracket (next :: vs) := by
    refine notNext_cons ?_
    rcases hnext with hnext | hnext <;> rw [hnext]
    · decide
    · exact hclose.2
  obtain ⟨t', s₁, hrun, hrest, ht⟩ := h.reads F depth hdepth hnext' hahead.look
  rw [← helement] at hrun
  exact ⟨t', s₁, ⟨hahead.starts h.starts hclose.1, hrun⟩, hrest, ht⟩

lemma typeArguments_eq {depth : Nat} (h : TypeArguments .ofTypes ts params)
    (hdepth : ts.length ≤ depth) (hrest : NotNext .leftBracket rest)
    (hahead : F.Ahead (ts ++ rest) s) :
    ∃ params' s', typeArguments (typeWithin depth) F.session s = .ok params' s' ∧
      F.Ahead rest s' ∧ erase params' = erase params := by
  rw [typeArguments, bind_apply]
  cases h with
  | absent =>
    rw [List.nil_append] at hahead
    rw [hahead.eat_ne hrest (by decide)]
    exact ⟨[], _, rfl, hahead.look, rfl⟩
  | @present left ts _ hleft h hne =>
    obtain ⟨name, us, rfl, hname⟩ := h.startsWithName hne ReadAsType.starts
    have hinside := hahead.step
    rw [hahead.eat_cons hleft]
    dsimp only
    rw [if_pos rfl, bind_apply, hinside.nextIs_ne (by rw [hname]; decide)]
    obtain ⟨params', s', hrun, hrest, hparams⟩ := hinside.look.commaSeparated_eq (typeWithin depth)
      typeRules h (by decide) (Nat.le_trans (Nat.le_succ _) hdepth)
      (fun hus ha hnext hahead => ha.item ⟨by decide, by decide⟩ rfl hus hnext hahead)
    exact ⟨params', s', hrun, hrest, erase_eq_of_forall₂ hparams⟩

lemma of_name {name : Token} {ident : Ident} {span : Span} (hname : name.kind = .identifier)
    (htext : name.text = ident.name) (h : TypeArguments .ofTypes ts params) :
    ReadAsType (name :: ts) (.mk ident params span) where
  starts := ⟨name, ts, rfl, hname⟩
  reads := by
    intro F depth rest s hdepth hrest hahead
    obtain ⟨depth, rfl⟩ : ∃ d, depth = d + 1 := ⟨depth - 1, by simp at hdepth; omega⟩
    obtain ⟨params', s', hrun, hend, hparams⟩ :=
      typeArguments_eq h (Nat.le_of_succ_le_succ hdepth) hrest hahead.step
    have hwhole : typeWithin (depth + 1) F.session s =
        .ok (.mk name.ident params' (name.span.merge s'.previousSpan)) s' := by
      rw [typeWithin, typeLayer, bind_apply, hahead.identifier_eq hname]
      dsimp only
      rw [bind_apply, hrun]
      dsimp only
      rw [bind_apply, spanFrom_apply]
      rfl
    refine ⟨_, s', hwhole, hend, ?_⟩
    obtain ⟨text, place⟩ := ident
    rw [Token.ident, htext]
    unfold erase at hparams ⊢
    simp [hparams]

lemma typeExpr_eq (h : ReadAsType ts t) (hrest : NotNext .leftBracket rest)
    (hahead : F.Ahead (ts ++ rest) s) :
    ∃ t' s', typeExpr F.session s = .ok t' s' ∧ F.Ahead rest s' ∧ erase t' = erase t :=
  h.reads F F.session.limit hahead.length_le hrest hahead

end ReadAsType

/-! ## The texts of types -/

namespace TypeExpr

/-- All names in a type are names that an identifier may be. -/
inductive Named : TypeExpr → Prop where
  | mk {name params span} (hname : IsPlainName name.name) (h : ∀ t ∈ params, Named t) :
    Named (.mk name params span)

mutual

/-- Whether all names in a type are names that an identifier may be. -/
def isNamed : TypeExpr → Bool
  | mk name params _ => decide (IsPlainName name.name) && allNamed params

def allNamed : List TypeExpr → Bool
  | [] => true
  | t :: ts => t.isNamed && allNamed ts

end

mutual

lemma isNamed_iff : ∀ t : TypeExpr, t.isNamed = true ↔ t.Named
  | mk name params span => by
    rw [isNamed, Bool.and_eq_true, decide_eq_true_eq, allNamed_iff params]
    exact ⟨fun ⟨hname, hparams⟩ => .mk hname hparams, fun | .mk hname hparams => ⟨hname, hparams⟩⟩

lemma allNamed_iff : ∀ ts : List TypeExpr, allNamed ts = true ↔ ∀ t ∈ ts, t.Named
  | [] => by simp [allNamed]
  | t :: ts => by
    rw [allNamed, Bool.and_eq_true, isNamed_iff t, allNamed_iff ts, List.forall_mem_cons]

end

instance (t : TypeExpr) : Decidable t.Named :=
  decidable_of_iff _ t.isNamed_iff

/-- The text of the parameters of a type. -/
def argumentsText : List TypeExpr → List Char
  | [] => []
  | t :: ts => '[' :: ([',', ' '].intercalate ((t :: ts).map (·.text.toList)) ++ [']'])

lemma toList_textMore (t : TypeExpr) (ts : List TypeExpr) :
    t.text.toList ++ (textMore ts).toList =
      [',', ' '].intercalate ((t :: ts).map (·.text.toList)) := by
  induction ts generalizing t with
  | nil => simp [textMore]
  | cons u ts ih =>
    have hmore := ih u
    rw [List.map_cons] at hmore
    rw [List.map_cons, List.map_cons, List.intercalate_cons_cons, ← hmore]
    simp [textMore]

lemma toList_text (name : Ident) (params : List TypeExpr) (span : Span) :
    (mk name params span).text.toList = name.name.toList ++ argumentsText params := by
  cases params with
  | nil => simp [text, argumentsText]
  | cons t ts =>
    rw [argumentsText, ← toList_textMore t ts]
    simp [text]

lemma Named.tells {t : TypeExpr} (h : t.Named) : Tells t.text.toList (ReadAsType · t) := by
  induction h with
  | @mk name params span hname _ ih =>
    have harguments : Tells (argumentsText params) (TypeArguments .ofTypes · params) ∧
        NameEnd (argumentsText params) := by
      cases params with
      | nil =>
        refine ⟨Tells.nil.mono ?_, fun c hc => by cases hc⟩
        rintro _ rfl
        exact .absent
      | cons t ts =>
        refine ⟨((Tells.list .rightBracket ih).mark .leftBracket 0).mono ?_,
          nameEnd_cons (by decide)⟩
        rintro _ ⟨left, us, rfl, hleft, h⟩
        exact .present hleft h (List.cons_ne_nil t ts)
    rw [toList_text]
    refine ((Tells.name hname).append harguments.1 harguments.2).mono ?_
    rintro _ ⟨_, vs, rfl, ⟨t, rfl, hkind, htext⟩, h⟩
    exact .of_name hkind htext h

lemma Named.reads_text {t : TypeExpr} (h : t.Named) :
    ∃ t', ReadsWhole typeExpr t.text t' ∧ erase t' = erase t := by
  refine h.tells.readsWhole fun F ts s hts hahead => ?_
  rw [← List.append_nil ts] at hahead
  exact hts.typeExpr_eq notNext_nil hahead

end TypeExpr

/-! ## Types that were read -/

/-- The language of types whose names are names, if those of their tokens are. -/
def Language.named : Language :=
  { Language.any with
    type := fun ts t => (∀ x ∈ ts, x.kind = .identifier → IsPlainName x.text) → t.Named }

lemma TypePhrase.named {ts : List Token} {t : TypeExpr} (h : TypePhrase .named ts t)
    (hts : ∀ x ∈ ts, x.kind = .identifier → IsPlainName x.text) : t.Named := by
  obtain @⟨name, ts, params, hname, h⟩ := h
  obtain ⟨hfirst, hmore⟩ := List.forall_mem_cons.mp hts
  refine .mk (hfirst hname) ?_
  cases h with
  | absent => simp
  | @present left ts _ hleft h =>
    have hinside := (List.forall_mem_cons.mp hmore).2
    exact h.forall_part (List.infix_refl ts) fun hvs htype =>
      htype fun x hx => hinside x (hvs.subset hx)

lemma Setting.Holds.found_of_mem {K : Setting} {before : List Token} {s : Stream}
    (h : K.Holds before s) {t : Token} (ht : t ∈ before) : K.Found t := by
  obtain ⟨k, hk⟩ := List.getElem?_of_mem ht
  obtain ⟨lexed, hlexed, rfl⟩ := h.getElem? hk
  exact h.found hlexed

lemma Stream.Reachable.named_type {σ : Session} {s s' : Stream} (h : s.Reachable σ)
    (hσ : σ.grammar = .standard) (hforward : Scan.ForwardWithin σ.embedded) {fuel : Nat}
    {t : TypeExpr} (hrun : typeWithin fuel σ s = .ok t s') : t.Named := by
  obtain ⟨r, before, hat⟩ := h.exists_at hσ hforward
  have hgrounded : Language.named.Grounded (.lenient σ r hσ hforward) :=
    ⟨fun _ => trivial, fun h hts => h.named hts, fun _ => trivial, fun _ => trivial⟩
  obtain ⟨ts, hat', hphrase⟩ :=
    (Setting.Reads.typeWithin hgrounded False.elim).eq_ok hat hrun
  exact hphrase.named fun x hx hkind =>
    (hat'.toHolds.found_of_mem (List.mem_append_right _ hx)).isPlainName hkind

/-- Types survive printing. The text of a type whose names are identifiers is read through its end,
and as the same type up to places; so such types with the same text are the same up to places. And
every type that is read, wherever a parser has come to in whatever source, is such a type: printed
and read again it is the same, however it was laid out. -/
theorem types_survive_printing :
    (∀ t : TypeExpr, t.Named → ∃ t', ReadsWhole typeExpr t.text t' ∧ erase t' = erase t) ∧
    (∀ t u : TypeExpr, t.Named → u.Named → t.text = u.text → erase t = erase u) ∧
    ∀ depth limit s, s.Reachable ⟨.standard, embeddedReader .standard depth, limit⟩ →
      ∀ fuel t s',
        typeWithin fuel ⟨.standard, embeddedReader .standard depth, limit⟩ s = .ok t s' →
        t.Named ∧ ∃ t', ReadsWhole typeExpr t.text t' ∧ erase t' = erase t := by
  refine ⟨fun t ht => ht.reads_text, fun t u ht hu heq => ?_,
    fun depth limit s h fuel t s' hrun => ?_⟩
  · obtain ⟨t', hread, ht'⟩ := ht.reads_text
    obtain ⟨u', hread', hu'⟩ := hu.reads_text
    rw [← heq] at hread'
    rw [← ht', ← hu', hread.eq hread']
  · have hnamed := h.named_type rfl (forwardWithin_embeddedReader depth) hrun
    exact ⟨hnamed, hnamed.reads_text⟩

/-- A type in a layout of its own, with commas behind the last parameters. -/
theorem types_survive_printing_layout :
    let source := "Map [ string,List[ int, ] , ]"
    let σ := Session.ofText .standard source.toList
    let bare (name : String) (params : List TypeExpr) : TypeExpr :=
      .mk ⟨name, Span.zero⟩ params Span.zero
    let u := bare "Map" [bare "string" [], bare "List" [bare "int" []]]
    u.text = "Map[string, List[int]]" ∧ u.Named ∧ ∃ s s' t, s.Reachable σ ∧
      typeExpr σ s = .ok t s' ∧ t.text = u.text ∧ t.Named ∧ erase t = erase u ∧
      ∃ t', ReadsWhole typeExpr t.text t' ∧ erase t' = erase t := by
  intro source σ bare u
  have hrun : typeExpr.observe (fun t _ => t.text) σ (.ofReader (.ofText source.toList)) =
      some u.text := by
    decide +kernel
  have hu : u.Named := by decide +kernel
  obtain ⟨t, s', heq, htext⟩ := eq_ok_of_observe hrun
  obtain ⟨hnamed, hread⟩ := types_survive_printing.2.2 source.toList.length
    (source.toList.length + 2) _ (.start (.ofText source.toList)) _ t s' heq
  exact ⟨by decide +kernel, hu, _, s', t, .start _, heq, htext, hnamed,
    types_survive_printing.2.1 t u hnamed hu htext, hread⟩

end FrontEnd
