import FrontEnd.Proofs.SteadyProductions
import FrontEnd.Proofs.Supply

/-!
# Lists with commas

Which tokens make up a list with commas, whatever its elements are: elements with commas between
them, possibly one behind the last, and the closing token. The loops that read such lists accept
these arrangements and no others, and refuse a misplaced or a missing comma at its place. The lists
of an enumeration, which have a loop of their own, differ in the errors alone:
`commaSeparated_disciplined`.
-/

namespace FrontEnd

open Parse Production

namespace Supply

/-! ## Arrangements -/

section Arrangements

variable (F : Supply) {α : Type}

/-- An element that keeps to the tokens of the supply, and consumes one whenever it succeeds. -/
structure Consumes (element : Parse α) : Prop where
  feeds : ∀ {s a s'}, F.Feeds s → element F.session s = .ok a s' → F.Feeds s'
  lt : ∀ {s a s'}, F.Feeds s → element F.session s = .ok a s' → s.index < s'.index

variable (close : TokenKind) (element : Parse α)

/-- The next token of a stream starts an element: it is neither a comma nor the closing token. -/
structure Starts (s : Stream) : Prop where
  not_close : (F.token s.index).kind ≠ close
  not_comma : (F.token s.index).kind ≠ .comma

/-- An element that starts at the next token of the one stream is read up to the other. -/
structure Item (s : Stream) (a : α) (s' : Stream) : Prop extends F.Starts close s where
  reads : element F.session (F.look s) = .ok a s'

/-- Ahead of a stream are elements with commas between them, possibly a comma, and the closing
token; the other stream stands behind it. -/
inductive Arranged : Stream → List α → Stream → Prop where
  | closed {s} (hclose : (F.token s.index).kind = close) : Arranged s [] (F.look s).step
  | last {s a s₁} (hitem : F.Item close element s a s₁)
    (hclose : (F.token s₁.index).kind = close) : Arranged s [a] (F.look s₁).step
  | more {s a s₁ as s'} (hitem : F.Item close element s a s₁)
    (hcomma : (F.token s₁.index).kind = .comma) (h : Arranged (F.look s₁).step as s') :
    Arranged s (a :: as) s'

/-- Ahead of a stream are elements with commas behind them, and then a comma too many, something
that is no element, or an element that neither a comma nor the closing token follows. -/
inductive Refused (leading separator : Token → Diagnostic) :
    Stream → Diagnostic → Stream → Prop where
  | comma {s} (hcomma : (F.token s.index).kind = .comma) :
    Refused leading separator s (leading (F.token s.index)) (F.look s).step
  | element {s d s'} (hstarts : F.Starts close s)
    (hfails : element F.session (F.look s) = .error d s') : Refused leading separator s d s'
  | separator {s a s₁} (hitem : F.Item close element s a s₁) (hnext : F.Starts close s₁) :
    Refused leading separator s (separator (F.token s₁.index)) (F.look s₁).step
  | more {s a s₁ d s'} (hitem : F.Item close element s a s₁)
    (hcomma : (F.token s₁.index).kind = .comma)
    (h : Refused leading separator (F.look s₁).step d s') : Refused leading separator s d s'

/-- A reader of lists with commas succeeds for the arrangements with its closing token, with their
elements, and right behind that token; and it fails where they are broken off, with an error for a
comma too many and one for a token that stands where a comma is missing. -/
structure Disciplined (leading separator : Token → Diagnostic) (list : Parse (List α)) : Prop where
  accepts : ∀ {s as s'}, F.Feeds s →
    (list F.session s = .ok as s' ↔ F.Arranged close element s as s')
  refuses : ∀ {s d s'}, F.Feeds s →
    (list F.session s = .error d s' ↔ F.Refused close element leading separator s d s')
  behind : ∀ {s as s'}, F.Feeds s → list F.session s = .ok as s' →
    F.Feeds s' ∧ ∃ k, s.index ≤ k ∧ s'.index = k + 1 ∧ (F.token k).kind = close

end Arrangements

/-! ## Actions on a supply -/

section Actions

variable {F : Supply} {α : Type} {s : Stream}

lemma Feeds.look (h : F.Feeds s) : F.Feeds (F.look s) :=
  h.peek.2.1

lemma Feeds.look_index (h : F.Feeds s) : (F.look s).index = s.index :=
  h.peek.2.2

lemma Feeds.look_look (h : F.Feeds s) : F.look (F.look s) = F.look s := by
  rw [Supply.look, peek_again h.peek.1]

lemma Feeds.step (h : F.Feeds s) : F.Feeds s.step :=
  h.moved _

lemma Feeds.nextIs (h : F.Feeds s) (kind : TokenKind) :
    Parse.nextIs kind F.session s = .ok ((F.token s.index).kind == kind) (F.look s) := by
  rw [nextIs_apply, h.peek.1]

lemma Feeds.eat (h : F.Feeds s) (kind : TokenKind) :
    Parse.eat kind F.session s =
      if (F.token s.index).kind = kind then .ok true (F.look s).step else .ok false (F.look s) := by
  rw [Parse.eat, take?, bind_apply, takeIf_apply, h.peek.1]
  dsimp only
  rw [Token.ofKind?]
  by_cases hkind : (F.token s.index).kind = kind
  · simp only [if_pos hkind]
    rfl
  · simp only [if_neg hkind]
    rfl

lemma Feeds.refuseNext (h : F.Feeds s) (code : Code) (message : String) :
    (Parse.refuseNext code message : Parse α) F.session s =
      .error (Diagnostic.grammatical code (F.token s.index).span message) (F.look s).step := by
  rw [refuseNext_apply, h.peek.1]

lemma Feeds.consume (h : F.Feeds s) (kind : TokenKind) (context : String) :
    Parse.consume kind context F.session s =
      if (F.token s.index).kind = kind then .ok (F.token s.index) (F.look s).step
      else .error (unexpected kind (F.token s.index) context) (F.look s).step := by
  rw [Parse.consume, accept_apply, h.peek.1]
  dsimp only
  rw [Token.ofKind?]
  by_cases hkind : (F.token s.index).kind = kind
  · simp only [if_pos hkind]
  · simp only [if_neg hkind]

lemma consumes (F : Supply) (element : Parse α) [Steady element] [Consuming element] :
    F.Consumes element where
  feeds h hrun := by
    have hkept : Stream.Invariant F.session F.Feeds := by
      refine ⟨fun h hscan => ?_, fun h _ _ => h.step, fun e h => Setting.Holds.record h False.elim⟩
      have hholds := h.scanNext
      rw [show F.setting.session = F.session from rfl, hscan] at hholds
      exact hholds.1
    exact Steady.keeps rfl hkept h hrun
  lt _ hrun := Consuming.lt rfl hrun

end Actions

/-! ## Loops -/

section Loops

variable {F : Supply} {α : Type} {close : TokenKind} {element : Parse α}
variable {leading separator : Token → Diagnostic} {loop : Nat → Parse (List α)} {fuel : Nat}
variable {s s' : Stream} {as : List α} {d : Diagnostic}

/-- What a loop over the elements of a list does in one round. -/
structure Rounds (F : Supply) (close : TokenKind) (element : Parse α)
    (leading separator : Token → Diagnostic) (loop : Nat → Parse (List α)) : Prop where
  closed : ∀ fuel {s}, F.Feeds s → (F.token s.index).kind = close →
    loop (fuel + 1) F.session s = .ok [] (F.look s).step
  comma : ∀ fuel {s}, F.Feeds s → (F.token s.index).kind = .comma →
    loop (fuel + 1) F.session s = .error (leading (F.token s.index)) (F.look s).step
  fails : ∀ fuel {s d s'}, F.Feeds s → F.Starts close s →
    element F.session (F.look s) = .error d s' → loop (fuel + 1) F.session s = .error d s'
  separator : ∀ fuel {s a s₁}, F.Feeds s → F.Item close element s a s₁ → F.Feeds s₁ →
    F.Starts close s₁ →
    loop (fuel + 1) F.session s = .error (separator (F.token s₁.index)) (F.look s₁).step
  last : ∀ fuel {s a s₁}, F.Feeds s → F.Item close element s a s₁ → F.Feeds s₁ →
    (F.token s₁.index).kind = close →
    loop (fuel + 1) F.session s = ((a :: ·) <$> loop fuel) F.session (F.look s₁)
  more : ∀ fuel {s a s₁}, F.Feeds s → F.Item close element s a s₁ → F.Feeds s₁ →
    (F.token s₁.index).kind = .comma →
    loop (fuel + 1) F.session s = ((a :: ·) <$> loop fuel) F.session (F.look s₁).step

/-- Some fuel is enough for what is ahead of a stream: each round but the last two consumes a
comma. -/
def Affords (F : Supply) (s : Stream) (fuel : Nat) : Prop :=
  F.tokens.length - s.index + 2 ≤ fuel

lemma affords_limit (F : Supply) (s : Stream) : F.Affords s F.session.limit := by
  have hle := F.length_le
  change F.tokens.length - s.index + 2 ≤ F.start.cursor.rest.length + 2
  omega

variable (helement : F.Consumes element)
include helement

lemma Item.feeds {a : α} (h : F.Item close element s a s') (hs : F.Feeds s) : F.Feeds s' :=
  helement.feeds hs.look h.reads

lemma Item.affords {a : α} (h : F.Item close element s a s') (hs : F.Feeds s)
    (hcomma : (F.token s'.index).kind = .comma) (hfuel : F.Affords s (fuel + 1)) :
    F.Affords (F.look s').step fuel := by
  have hlt := helement.lt hs.look h.reads
  have hinside := F.lt_of_token rfl (by rw [hcomma]; decide : (F.token s'.index).kind ≠ _)
  unfold Affords at hfuel ⊢
  rw [hs.look_index] at hlt
  rw [Stream.step_index, (h.feeds helement hs).look_index]
  omega

variable (hloop : F.Rounds close element leading separator loop)
include hloop

/-- A loop does what is arranged, and is refused where an arrangement breaks off. -/
lemma Rounds.sound (hs : F.Feeds s) (hfuel : F.Affords s fuel) :
    match loop fuel F.session s with
    | .ok as s' => F.Arranged close element s as s'
    | .error d s' => F.Refused close element leading separator s d s' := by
  induction fuel generalizing s with
  | zero => exact absurd hfuel (by unfold Affords; omega)
  | succ fuel ih =>
    by_cases hclose : (F.token s.index).kind = close
    · rw [hloop.closed fuel hs hclose]
      exact .closed hclose
    by_cases hcomma : (F.token s.index).kind = .comma
    · rw [hloop.comma fuel hs hcomma]
      exact .comma hcomma
    have hstarts : F.Starts close s := ⟨hclose, hcomma⟩
    cases hread : element F.session (F.look s) with
    | error d s' =>
      rw [hloop.fails fuel hs hstarts hread]
      exact .element hstarts hread
    | ok a s₁ =>
      have hitem : F.Item close element s a s₁ := ⟨hstarts, hread⟩
      have hs₁ := hitem.feeds helement hs
      by_cases hclose₁ : (F.token s₁.index).kind = close
      · obtain ⟨fuel, rfl⟩ : ∃ f, fuel = f + 1 := ⟨fuel - 1, by unfold Affords at hfuel; omega⟩
        rw [hloop.last _ hs hitem hs₁ hclose₁, map_apply,
          hloop.closed fuel hs₁.look (by rwa [hs₁.look_index]), hs₁.look_look]
        exact .last hitem hclose₁
      by_cases hcomma₁ : (F.token s₁.index).kind = .comma
      · have hrest := ih hs₁.look.step (hitem.affords helement hs hcomma₁ hfuel)
        rw [hloop.more fuel hs hitem hs₁ hcomma₁, map_apply]
        cases hrun : loop fuel F.session (F.look s₁).step with
        | ok as s' =>
          rw [hrun] at hrest
          exact .more hitem hcomma₁ hrest
        | error d s' =>
          rw [hrun] at hrest
          exact .more hitem hcomma₁ hrest
      · rw [hloop.separator fuel hs hitem hs₁ ⟨hclose₁, hcomma₁⟩]
        exact .separator hitem ⟨hclose₁, hcomma₁⟩

lemma Arranged.loop_eq (h : F.Arranged close element s as s') (hs : F.Feeds s)
    (hfuel : F.Affords s fuel) : loop fuel F.session s = .ok as s' := by
  obtain ⟨fuel, rfl⟩ : ∃ f, fuel = f + 1 := ⟨fuel - 1, by unfold Affords at hfuel; omega⟩
  induction h generalizing fuel with
  | closed hclose => exact hloop.closed fuel hs hclose
  | last hitem hclose =>
    have hs₁ := hitem.feeds helement hs
    obtain ⟨fuel, rfl⟩ : ∃ f, fuel = f + 1 := ⟨fuel - 1, by unfold Affords at hfuel; omega⟩
    rw [hloop.last _ hs hitem hs₁ hclose, map_apply,
      hloop.closed fuel hs₁.look (by rwa [hs₁.look_index]), hs₁.look_look]
  | more hitem hcomma _ ih =>
    have hs₁ := hitem.feeds helement hs
    have hfuel₁ := hitem.affords helement hs hcomma hfuel
    obtain ⟨fuel, rfl⟩ : ∃ f, fuel = f + 1 := ⟨fuel - 1, by unfold Affords at hfuel₁; omega⟩
    rw [hloop.more _ hs hitem hs₁ hcomma, map_apply, ih hs₁.look.step fuel hfuel₁]

lemma Refused.loop_eq (h : F.Refused close element leading separator s d s') (hs : F.Feeds s)
    (hfuel : F.Affords s fuel) : loop fuel F.session s = .error d s' := by
  obtain ⟨fuel, rfl⟩ : ∃ f, fuel = f + 1 := ⟨fuel - 1, by unfold Affords at hfuel; omega⟩
  induction h generalizing fuel with
  | comma hcomma => exact hloop.comma fuel hs hcomma
  | element hstarts hfails => exact hloop.fails fuel hs hstarts hfails
  | separator hitem hnext => exact hloop.separator fuel hs hitem (hitem.feeds helement hs) hnext
  | more hitem hcomma _ ih =>
    have hs₁ := hitem.feeds helement hs
    have hfuel₁ := hitem.affords helement hs hcomma hfuel
    obtain ⟨fuel, rfl⟩ : ∃ f, fuel = f + 1 := ⟨fuel - 1, by unfold Affords at hfuel₁; omega⟩
    rw [hloop.more _ hs hitem hs₁ hcomma, map_apply, ih hs₁.look.step fuel hfuel₁]

omit hloop in
lemma Arranged.behind (h : F.Arranged close element s as s') (hs : F.Feeds s) :
    F.Feeds s' ∧ ∃ k, s.index ≤ k ∧ s'.index = k + 1 ∧ (F.token k).kind = close := by
  induction h with
  | @closed s hclose =>
    exact ⟨hs.look.step, s.index, Nat.le_refl _, by rw [Stream.step_index, hs.look_index], hclose⟩
  | @last s a s₁ hitem hclose =>
    have hlt := helement.lt hs.look hitem.reads
    have hs₁ := hitem.feeds helement hs
    rw [hs.look_index] at hlt
    exact ⟨hs₁.look.step, s₁.index, Nat.le_of_lt hlt, by rw [Stream.step_index, hs₁.look_index],
      hclose⟩
  | @more s a s₁ as s' hitem hcomma _ ih =>
    have hlt := helement.lt hs.look hitem.reads
    have hs₁ := hitem.feeds helement hs
    obtain ⟨hs', k, hle, hindex, hclose⟩ := ih hs₁.look.step
    rw [hs.look_index] at hlt
    rw [Stream.step_index, hs₁.look_index] at hle
    exact ⟨hs', k, by omega, hindex, hclose⟩

lemma Rounds.disciplined {list : Parse (List α)}
    (hlist : ∀ s, list F.session s = loop F.session.limit F.session s) :
    F.Disciplined close element leading separator list := by
  have hsound {s : Stream} (hs : F.Feeds s) :=
    Rounds.sound helement hloop hs (F.affords_limit s)
  refine ⟨fun {s as s'} hs => ⟨fun hrun => ?_, fun h => ?_⟩,
    fun {s d s'} hs => ⟨fun hrun => ?_, fun h => ?_⟩, fun {s as s'} hs hrun => ?_⟩
  · have harranged := hsound hs
    rw [← hlist, hrun] at harranged
    exact harranged
  · rw [hlist]
    exact h.loop_eq helement hloop hs (F.affords_limit s)
  · have hrefused := hsound hs
    rw [← hlist, hrun] at hrefused
    exact hrefused
  · rw [hlist]
    exact h.loop_eq helement hloop hs (F.affords_limit s)
  · have harranged := hsound hs
    rw [← hlist, hrun] at harranged
    exact Arranged.behind helement harranged hs

end Loops

/-! ## The two loops -/

section Readers

variable {F : Supply} {α : Type} {close : TokenKind} {s : Stream}

/-- What is said of a comma too many in a list, and of a token where a comma is missing. -/
abbrev leadingError (rules : CommaRules) (t : Token) : Diagnostic :=
  .grammatical rules.leading.1 t.span rules.leading.2

abbrev separatorError (rules : CommaRules) (t : Token) : Diagnostic :=
  .grammatical rules.separator.1 t.span rules.separator.2

/-- What is said of a comma too many in an enumeration. -/
abbrev enumCommaError (t : Token) : Diagnostic :=
  .grammatical .enumComma t.span "Double / leading commas are not allowed in enums"

lemma Feeds.separated (h : F.Feeds s) :
    Production.separated close F.session s =
      if (F.token s.index).kind = .comma then .ok true (F.look s).step
      else .ok ((F.token s.index).kind == close) (F.look s) := by
  rw [Production.separated, bind_apply, h.eat]
  by_cases hcomma : (F.token s.index).kind = .comma
  · rw [if_pos hcomma, if_pos hcomma]
    rfl
  · rw [if_neg hcomma, if_neg hcomma]
    dsimp only
    rw [if_neg Bool.false_ne_true, h.look.nextIs, h.look_look, h.look_index]

lemma Feeds.elements_of_starts (hs : F.Feeds s) (hstarts : F.Starts close s) (rules : CommaRules)
    (element : Parse α) (fuel : Nat) :
    elements close rules element (fuel + 1) F.session s =
      (element >>= fun first => Production.separated close >>= fun goesOn =>
        if goesOn = true then (first :: ·) <$> elements close rules element fuel
        else Parse.refuseNext rules.separator.1 rules.separator.2) F.session (F.look s) := by
  have hcomma : ((F.token s.index).kind == TokenKind.comma) = false := by
    simpa using hstarts.not_comma
  rw [elements, bind_apply, hs.eat, if_neg hstarts.not_close]
  dsimp only
  rw [if_neg Bool.false_ne_true, bind_apply, hs.look.nextIs, hs.look_index, hcomma]
  dsimp only
  rw [if_neg Bool.false_ne_true, hs.look_look]
  simp only [bind_pure_comp]

/-- The loop over the elements of a list in one round. -/
lemma rounds_elements (F : Supply) (hclose : close ≠ .comma) (rules : CommaRules)
    (element : Parse α) :
    F.Rounds close element (leadingError rules) (separatorError rules)
      (elements close rules element) where
  closed fuel s hs hkind := by
    rw [elements, bind_apply, hs.eat, if_pos hkind]
    rfl
  comma fuel s hs hkind := by
    have hne : (F.token s.index).kind ≠ close := by rw [hkind]; exact hclose.symm
    rw [elements, bind_apply, hs.eat, if_neg hne]
    dsimp only
    rw [if_neg Bool.false_ne_true, bind_apply, hs.look.nextIs, hs.look_index, hkind]
    dsimp only
    rw [beq_self_eq_true, if_pos rfl, hs.look_look, hs.look.refuseNext, hs.look_look, hs.look_index]
  fails fuel s d s' hs hstarts hfails := by
    rw [hs.elements_of_starts hstarts, bind_apply, hfails]
  separator fuel s a s₁ hs hitem hs₁ hnext := by
    have hother : ((F.token s₁.index).kind == close) = false := by simpa using hnext.not_close
    rw [hs.elements_of_starts hitem.toStarts, bind_apply, hitem.reads]
    dsimp only
    rw [bind_apply, hs₁.separated, if_neg hnext.not_comma, hother]
    dsimp only
    rw [if_neg Bool.false_ne_true, hs₁.look.refuseNext, hs₁.look_look, hs₁.look_index]
  last fuel s a s₁ hs hitem hs₁ hkind := by
    have hne : (F.token s₁.index).kind ≠ .comma := by rw [hkind]; exact hclose
    rw [hs.elements_of_starts hitem.toStarts, bind_apply, hitem.reads]
    dsimp only
    rw [bind_apply, hs₁.separated, if_neg hne, hkind, beq_self_eq_true]
    dsimp only
    rw [if_pos rfl]
  more fuel s a s₁ hs hitem hs₁ hkind := by
    rw [hs.elements_of_starts hitem.toStarts, bind_apply, hitem.reads]
    dsimp only
    rw [bind_apply, hs₁.separated, if_pos hkind]
    dsimp only
    rw [if_pos rfl]

lemma Feeds.enumItemEnd (h : F.Feeds s) (context : String) :
    Production.enumItemEnd close context F.session s =
      if (F.token s.index).kind = close then .ok () (F.look s)
      else if (F.token s.index).kind = .comma then .ok () (F.look s).step
      else .error (unexpected .comma (F.token s.index) context) (F.look s).step := by
  rw [Production.enumItemEnd, bind_apply, h.nextIs]
  dsimp only
  by_cases hkind : (F.token s.index).kind = close
  · rw [beq_iff_eq.mpr hkind, if_pos rfl, if_pos hkind]
    rfl
  · rw [beq_false_of_ne hkind, if_neg Bool.false_ne_true, if_neg hkind, discard_eq, bind_apply,
      h.look.consume, h.look_look, h.look_index]
    by_cases hcomma : (F.token s.index).kind = .comma
    · rw [if_pos hcomma, if_pos hcomma]
      rfl
    · rw [if_neg hcomma, if_neg hcomma]

lemma Feeds.enumItems_of_starts (hs : F.Feeds s) (hstarts : F.Starts close s) (context : String)
    (item : Parse α) (fuel : Nat) :
    enumItems close context item (fuel + 1) F.session s =
      (item >>= fun first => Production.enumItemEnd close context >>= fun _ =>
        (first :: ·) <$> enumItems close context item fuel) F.session (F.look s) := by
  have hcomma : ((F.token s.index).kind == TokenKind.comma) = false := by
    simpa using hstarts.not_comma
  rw [enumItems, bind_apply, hs.eat, if_neg hstarts.not_close]
  dsimp only
  rw [if_neg Bool.false_ne_true, checkEnumComma, bind_assoc, bind_apply, hs.look.nextIs,
    hs.look_index, hcomma]
  dsimp only
  rw [if_neg Bool.false_ne_true, hs.look_look, pure_bind]
  simp only [bind_pure_comp]

/-- The loop over the items of an enumeration in one round. -/
lemma rounds_enumItems (F : Supply) (hclose : close ≠ .comma) (context : String)
    (item : Parse α) :
    F.Rounds close item enumCommaError (unexpected .comma · context)
      (enumItems close context item) where
  closed fuel s hs hkind := by
    rw [enumItems, bind_apply, hs.eat, if_pos hkind]
    rfl
  comma fuel s hs hkind := by
    have hne : (F.token s.index).kind ≠ close := by rw [hkind]; exact hclose.symm
    rw [enumItems, bind_apply, hs.eat, if_neg hne]
    dsimp only
    rw [if_neg Bool.false_ne_true, checkEnumComma, bind_assoc, bind_apply, hs.look.nextIs,
      hs.look_index, hkind]
    dsimp only
    rw [beq_self_eq_true, if_pos rfl, hs.look_look, bind_apply, hs.look.refuseNext, hs.look_look,
      hs.look_index]
  fails fuel s d s' hs hstarts hfails := by
    rw [hs.enumItems_of_starts hstarts, bind_apply, hfails]
  separator fuel s a s₁ hs hitem hs₁ hnext := by
    rw [hs.enumItems_of_starts hitem.toStarts, bind_apply, hitem.reads]
    dsimp only
    rw [bind_apply, hs₁.enumItemEnd, if_neg hnext.not_close, if_neg hnext.not_comma]
  last fuel s a s₁ hs hitem hs₁ hkind := by
    rw [hs.enumItems_of_starts hitem.toStarts, bind_apply, hitem.reads]
    dsimp only
    rw [bind_apply, hs₁.enumItemEnd, if_pos hkind]
  more fuel s a s₁ hs hitem hs₁ hkind := by
    have hne : (F.token s₁.index).kind ≠ close := by rw [hkind]; exact hclose.symm
    rw [hs.enumItems_of_starts hitem.toStarts, bind_apply, hitem.reads]
    dsimp only
    rw [bind_apply, hs₁.enumItemEnd, if_neg hne, if_pos hkind]

end Readers

end Supply

/-! ## Readers of lists -/

/-- The discipline of commas. Whatever the elements are, a list with commas is read just where
elements with commas between them, possibly one behind the last, and the closing token are ahead,
with the elements as its value and up to behind that token. A comma too many is refused, and so is
a token in place of a comma, each at its own place. The fields of a variant and the variants of an
enumeration are read from the same arrangements; only the errors are others. -/
theorem commaSeparated_disciplined (F : Supply) {α : Type} {close : TokenKind}
    (hclose : close ≠ .comma) (rules : CommaRules) {element : Parse α}
    (helement : F.Consumes element) :
    F.Disciplined close element
        (fun t => .grammatical rules.leading.1 t.span rules.leading.2)
        (fun t => .grammatical rules.separator.1 t.span rules.separator.2)
        (commaSeparated close rules element) ∧
      F.Disciplined .rightParen typeExpr
        (fun t => .grammatical .enumComma t.span "Double / leading commas are not allowed in enums")
        (fun t => unexpected .comma t "a comma is required after enum variant types")
        variantFields ∧
      F.Disciplined .rightBrace variant
        (fun t => .grammatical .enumComma t.span "Double / leading commas are not allowed in enums")
        (fun t => unexpected .comma t "a comma is required after enum variants") enumVariants :=
  ⟨(F.rounds_elements hclose rules element).disciplined helement fun _ => rfl,
    (F.rounds_enumItems (by decide) _ typeExpr).disciplined (F.consumes typeExpr) fun _ => rfl,
    (F.rounds_enumItems (by decide) _ variant).disciplined (F.consumes variant) fun _ => rfl⟩

/-- Two patterns, the second with a list of its own, and a comma behind it. -/
theorem commaSeparated_disciplined_patterns :
    ∃ tokens, ∃ h : (tokenize "a, @b [c],] d").result = .ok tokens,
      let F := Supply.ofText h
      TokenKind.rightBracket ≠ .comma ∧ F.Consumes pattern ∧ ∃ as s',
        F.Arranged .rightBracket pattern (.ofReader F.start) as s' ∧ as.length = 2 ∧
          s'.index = 9 ∧ (F.token 8).kind = .rightBracket := by
  have htokens : (tokenize "a, @b [c],] d").result.toOption.map List.length = some 10 := by
    decide +kernel
  obtain ⟨tokens, h, -⟩ := Outcome.eq_ok_of_map htokens
  let F := Supply.ofText h
  have hrun : (commaSeparated .rightBracket listPatternRules pattern).observe
      (fun as s => (as.length, s.index)) (.ofText .standard "a, @b [c],] d".toList)
      (.ofReader (.ofText "a, @b [c],] d".toList)) = some (2, 9) := by decide +kernel
  have hclose : TokenKind.rightBracket ≠ .comma := by decide
  have hdisciplined :=
    (commaSeparated_disciplined F hclose listPatternRules (F.consumes pattern)).1
  refine ⟨tokens, h, hclose, F.consumes pattern, ?_⟩
  obtain ⟨as, s', heq, hseen⟩ := eq_ok_of_observe hrun
  obtain ⟨hlength, hindex⟩ := Prod.mk.inj hseen
  obtain ⟨-, k, -, hk, hkind⟩ := hdisciplined.behind F.feeds_start heq
  obtain rfl : k = 8 := by omega
  exact ⟨as, s', (hdisciplined.accepts F.feeds_start).mp heq, hlength, hindex, hkind⟩

end FrontEnd
