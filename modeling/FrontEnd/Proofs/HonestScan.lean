import FrontEnd.Proofs.Lexemes
import FrontEnd.Proofs.Truthful

/-!
# The scanner is honest

A scanning action is `Sound` if it keeps the cursor on the source, and what it hands out and writes
to the journal lies in the source, whether it succeeds or fails. The spans of tokens, errors and
warnings are solid: none of them is empty, except at the end of the source.
-/

namespace FrontEnd

/-- The spans that an event shows. -/
def Event.spans : Event → List Span
  | .enter _ _ span => [span]
  | .leave _ _ => []
  | .warning d => [d.span]
  | .templateOpened place => [Span.emptyAt place]
  | .templateResumed place => [Span.emptyAt place]

/-- What an event shows is true of a source, and if it is a warning, it is about something there. -/
structure Event.Honest (source : List Char) (e : Event) : Prop where
  spans : ∀ s ∈ e.spans, s.Truthful source
  warning : ∀ d ∈ Journal.warning? e, d.span.Solid source

lemma Event.honest_warning {source : List Char} {d : Diagnostic} (h : d.span.Solid source) :
    (Event.warning d).Honest source where
  spans _ hs := List.mem_singleton.mp hs ▸ h.truthful
  warning _ hd := Option.some_inj.mp hd ▸ h

lemma Event.honest_of_spans {source : List Char} {e : Event} (he : Journal.warning? e = none)
    (h : ∀ s ∈ e.spans, s.Truthful source) : e.Honest source where
  spans := h
  warning d hd := by rw [he] at hd; cases hd

/-- A reader stands on a source, and what is in its journal is true of that source. -/
structure Reader.Honest (source : List Char) (r : Reader) : Prop where
  reads : r.cursor.Reads source
  events : ∀ e ∈ r.journal, e.Honest source

lemma Reader.honest_ofText (source : List Char) : (Reader.ofText source).Honest source where
  reads := Cursor.reads_ofText source
  events e he := by cases he with | mk h => cases h

variable {source : List Char}

namespace Reader.Honest

variable {r : Reader}

lemma moveTo (h : r.Honest source) {c : Cursor} (hc : c.Reads source) :
    ({ r with cursor := c } : Reader).Honest source :=
  ⟨hc, h.events⟩

lemma record (h : r.Honest source) {e : Event} (he : e.Honest source) :
    (r.record e).Honest source := by
  refine ⟨h.reads, fun e' he' => ?_⟩
  rcases Array.mem_push.mp he' with hmem | rfl
  · exact h.events e' hmem
  · exact he

end Reader.Honest

namespace Scan

variable {α β : Type}

/-- An action keeps the reader honest. If it succeeds, it has moved forward and its result is as
described; if it fails, the error lies in the source. -/
structure Sound (source : List Char) (m : Scan α) (r : Reader) (Q : α → Prop) : Prop where
  ok : ∀ {a r'}, m r = .ok a r' → r'.Honest source ∧ r.cursor.Leads r'.cursor ∧ Q a
  error : ∀ {d r'}, m r = .error d r' → r'.Honest source ∧ d.Placed source

/-- The action for the expressions in template strings is sound, if there is one. -/
abbrev SoundWithin (source : List Char) (embedded : Option (Scan Expr)) : Prop :=
  ∀ read, embedded = some read → ∀ r, r.Honest source → Sound source read r (Honest source)

namespace Sound

variable {r : Reader} {P : α → Prop} {Q : β → Prop}

lemma pure {a : α} (hr : r.Honest source) (ha : P a) : Sound source (pure a) r P where
  ok h := by
    obtain ⟨rfl, rfl⟩ := pure_eq_ok h
    exact ⟨hr, .refl _, ha⟩
  error h := by cases h

lemma fail {d : Diagnostic} (hr : r.Honest source) (hd : d.Placed source) :
    Sound source (throw d) r P where
  ok h := by cases h
  error h := by
    cases h
    exact ⟨hr, hd⟩

lemma throw {d : Diagnostic} (hr : r.Honest source) (hd : d.span.Solid source) :
    Sound source (throw d) r P :=
  fail hr (Diagnostic.placed_of_solid hd)

lemma bind {m : Scan α} {f : α → Scan β} (hm : Sound source m r P)
    (hf : ∀ a r', r'.Honest source → r.cursor.Leads r'.cursor → P a → Sound source (f a) r' Q) :
    Sound source (m >>= f) r Q where
  ok h := by
    obtain ⟨a, r₁, hrun, hrest⟩ := bind_eq_ok h
    obtain ⟨hr₁, hleads, ha⟩ := hm.ok hrun
    obtain ⟨hr₂, hleads', hb⟩ := (hf a r₁ hr₁ hleads ha).ok hrest
    exact ⟨hr₂, hleads.trans hleads', hb⟩
  error h := by
    rw [bind_apply] at h
    cases hrun : m r with
    | ok a r₁ =>
      obtain ⟨hr₁, hleads, ha⟩ := hm.ok hrun
      rw [hrun] at h
      exact (hf a r₁ hr₁ hleads ha).error h
    | error d r₁ =>
      rw [hrun] at h
      cases h
      exact hm.error hrun

lemma of_cursor {f : Cursor → Scan β} (h : Sound source (f r.cursor) r Q) :
    Sound source (cursor >>= f) r Q where
  ok hrun := h.ok ((cursor_bind f r).symm.trans hrun)
  error hrun := h.error ((cursor_bind f r).symm.trans hrun)

lemma skip (n : Nat) (hr : r.Honest source) :
    Sound source (skip n) r fun _ => True where
  ok h := by
    rw [skip_apply] at h
    cases h
    have hleads : r.cursor.Leads (r.cursor.drop n) := ⟨_, r.cursor.passes_drop n⟩
    exact ⟨hr.moveTo (hr.reads.leads hleads), hleads, trivial⟩
  error h := by cases h

lemma takeWhile (p : Char → Bool) (hr : r.Honest source) :
    Sound source (takeWhile p) r fun _ => True where
  ok h := by
    rw [takeWhile_apply] at h
    cases h
    have hleads : r.cursor.Leads (r.cursor.takeWhile p).2 := ⟨_, r.cursor.passes_takeWhile p⟩
    exact ⟨hr.moveTo (hr.reads.leads hleads), hleads, trivial⟩
  error h := by cases h

lemma record {e : Event} (hr : r.Honest source) (he : e.Honest source) :
    Sound source (record e) r fun _ => True where
  ok h := by
    rw [record_apply] at h
    cases h
    exact ⟨hr.record he, .refl _, trivial⟩
  error h := by cases h

lemma warn {code : Code} {span : Span} {message : String} (hr : r.Honest source)
    (hspan : span.Solid source) :
    Sound source (warn code span message) r fun _ => True :=
  record hr (Event.honest_warning hspan)

lemma tokenFrom {start : Cursor} {kind : TokenKind} {value : TokenValue} (hr : r.Honest source)
    (hvalue : Honest source value) :
    Sound source (tokenFrom start kind value) r fun t => Honest source t.value where
  ok h := by
    rw [tokenFrom_apply] at h
    cases h
    exact ⟨hr, .refl _, hvalue⟩
  error h := by cases h

lemma of_ok {m : Scan α} {f : α → Scan β} {a : α} {r' : Reader} (hrun : m r = .ok a r')
    (hleads : r.cursor.Leads r'.cursor) (hf : Sound source (f a) r' Q) :
    Sound source (m >>= f) r Q where
  ok h := by
    rw [bind_apply, hrun] at h
    obtain ⟨hr', hleads', hb⟩ := hf.ok h
    exact ⟨hr', hleads.trans hleads', hb⟩
  error h := by
    rw [bind_apply, hrun] at h
    exact hf.error h

lemma advance_bind {f : Char → Scan β} (hr : r.Honest source)
    (hf : ∀ c r', r'.Honest source → r.cursor.Advances r'.cursor → Sound source (f c) r' Q) :
    Sound source (Scan.advance >>= f) r Q := by
  cases hrest : r.cursor.rest with
  | nil =>
    have hend : Sound source Scan.advance r fun _ => False := by
      unfold Scan.advance
      refine of_cursor ?_
      rw [hrest]
      exact throw hr (hr.reads.emptyAt_solid hrest)
    exact hend.bind fun _ _ _ _ hfalse => hfalse.elim
  | cons c rest =>
    have hadvances : r.cursor.Advances (r.cursor.drop 1) :=
      ⟨[c], List.cons_ne_nil c [], Cursor.passes_next hrest⟩
    exact of_ok (advance_cons hrest) hadvances.leads
      (hf c _ (hr.moveTo (hr.reads.leads hadvances.leads)) hadvances)

lemma walk {step : Cursor → EStateM.Result Diagnostic Cursor α} (hr : r.Honest source)
    (hok : ∀ {a c}, step r.cursor = .ok a c → r.cursor.Leads c ∧ P a)
    (herror : ∀ {d c}, step r.cursor = .error d c → c.Reads source ∧ d.span.Solid source) :
    Sound source (walk step) r P where
  ok h := by
    obtain ⟨hstep, hjournal⟩ := walk_eq_ok h
    obtain ⟨hleads, ha⟩ := hok hstep
    exact ⟨⟨hr.reads.leads hleads, hjournal ▸ hr.events⟩, hleads, ha⟩
  error h := by
    rw [walk_apply] at h
    cases hstep : step r.cursor with
    | ok a c => rw [hstep] at h; cases h
    | error d c =>
      rw [hstep] at h
      cases h
      obtain ⟨hc, hd⟩ := herror hstep
      exact ⟨hr.moveTo hc, Diagnostic.placed_of_solid hd⟩

end Sound

/-! ## Gaps -/

/-- The place at which the outermost open comment was opened is true to the source. -/
def GapMode.Solid (source : List Char) : GapMode → Prop
  | .blockComment opened _ => (Span.new opened (opened.offset + 2)).Solid source
  | _ => True

lemma gap_error {mode : GapMode} {text : List Char} {pos : Position} {d : Diagnostic} {c : Cursor}
    (hreads : (⟨text, pos⟩ : Cursor).Reads source) (hmode : mode.Solid source)
    (h : gap mode text pos = .error d c) : c.Reads source ∧ d.span.Solid source := by
  fun_induction gap mode text pos with
  | case1 => cases h
  | case2 rest pos ih => exact ih (hreads.leads ⟨['/', '/'], rfl, rfl⟩) trivial h
  | case3 rest pos ih =>
    exact ih (hreads.leads ⟨['/', '*'], rfl, rfl⟩)
      (hreads.next_solid (List.cons_ne_nil '/' ['*']) rfl) h
  | case4 ch rest pos hline hblock hblank ih =>
    exact ih (hreads.leads ⟨[ch], rfl, rfl⟩) trivial h
  | case5 => cases h
  | case6 => cases h
  | case7 ch rest pos ih =>
    refine ih (hreads.leads ⟨[ch], rfl, rfl⟩) ?_ h
    split <;> trivial
  | case8 opened depth pos =>
    cases h
    exact ⟨hreads, hmode⟩
  | case9 opened depth rest pos ih => exact ih (hreads.leads ⟨['/', '*'], rfl, rfl⟩) hmode h
  | case10 opened depth rest pos ih =>
    refine ih (hreads.leads ⟨['*', '/'], rfl, rfl⟩) ?_ h
    split
    · trivial
    · exact hmode
  | case11 opened depth ch rest pos hopening hclosing ih =>
    exact ih (hreads.leads ⟨[ch], rfl, rfl⟩) hmode h

lemma stringBody_error {opened : Position} {text : List Char} {pos : Position} {read : List Char}
    {d : Diagnostic} {c : Cursor} (hreads : (⟨text, pos⟩ : Cursor).Reads source)
    (hopened : (Span.new opened (opened.offset + 1)).Solid source)
    (h : stringBody opened text pos read = .error d c) :
    c.Reads source ∧ d.span.Solid source := by
  fun_induction stringBody opened text pos read with
  | case1 =>
    cases h
    exact ⟨hreads, hopened⟩
  | case2 => cases h
  | case3 pos read =>
    cases h
    have hbehind : (⟨[], pos.advance '\\'⟩ : Cursor).Reads source :=
      hreads.leads ⟨['\\'], rfl, rfl⟩
    exact ⟨hbehind, hbehind.emptyAt_solid rfl⟩
  | case4 ch rest pos read behind meaning hmeaning ih =>
    exact ih (hreads.leads ⟨['\\', ch], rfl, rfl⟩) h
  | case5 ch rest pos read hmeaning =>
    cases h
    have hadvances : (⟨'\\' :: ch :: rest, pos⟩ : Cursor).Advances ⟨rest, pos.after ['\\', ch]⟩ :=
      ⟨['\\', ch], List.cons_ne_nil _ _, rfl, rfl⟩
    exact ⟨hreads.leads hadvances.leads, hreads.spanFrom_solid hadvances⟩
  | case6 ch rest pos read hquote hlast hescape ih =>
    exact ih (hreads.leads ⟨[ch], rfl, rfl⟩) h

namespace Sound

variable {r : Reader}

lemma skipGap (hr : r.Honest source) : Sound source skipGap r fun _ => True :=
  walk hr (fun h => ⟨gap_leads h, trivial⟩) (gap_error hr.reads trivial)

/-! ## Tokens -/

lemma stringLiteral {rest : List Char} (hr : r.Honest source)
    (hrest : r.cursor.rest = '"' :: rest) :
    Sound source stringLiteral r fun t => Honest source t.value := by
  have hopened := hr.reads.next_solid (List.cons_ne_nil '"' []) hrest
  unfold Scan.stringLiteral
  refine of_cursor ((skip 1 hr).bind fun _ r₁ hr₁ _ _ => ?_)
  have hbody : Sound source (Scan.walk fun c => stringBody r.cursor.pos c.rest c.pos []) r₁
      fun _ => True :=
    walk hr₁ (fun h => ⟨stringBody_leads h, trivial⟩) (stringBody_error hr₁.reads hopened)
  exact hbody.bind fun text r₂ hr₂ _ _ => tokenFrom hr₂ rfl

lemma charEscape {start content : Cursor} (hr : r.Honest source)
    (hstart : (Span.new start.pos (start.pos.offset + 1)).Solid source)
    (hcontent : content.Reads source) (hleads : content.Leads r.cursor) :
    Sound source (charEscape start.pos content.pos) r fun _ => True := by
  unfold Scan.charEscape
  refine advance_bind hr fun escaped r₁ hr₁ hadvances => ?_
  split
  · exact throw hr₁ hstart
  · split
    · exact pure hr₁ trivial
    · exact of_cursor (throw hr₁ (hcontent.spanFrom_solid (hleads.advances hadvances)))

lemma charContent {start : Cursor} (hr : r.Honest source)
    (hstart : (Span.new start.pos (start.pos.offset + 1)).Solid source) :
    Sound source (charContent start.pos) r fun _ => True := by
  unfold Scan.charContent
  refine of_cursor (advance_bind hr fun c r₁ hr₁ hadvances => ?_)
  split
  · exact of_cursor (throw hr₁ (hr.reads.spanFrom_solid hadvances))
  split
  · exact charEscape hr₁ hstart hr.reads hadvances.leads
  · exact pure hr₁ trivial

lemma charLiteral {rest : List Char} (hr : r.Honest source)
    (hrest : r.cursor.rest = '\'' :: rest) :
    Sound source charLiteral r fun t => Honest source t.value := by
  have hopened := hr.reads.next_solid (List.cons_ne_nil '\'' []) hrest
  unfold Scan.charLiteral
  refine of_cursor ((skip 1 hr).bind fun _ r₁ hr₁ _ _ => ?_)
  refine (charContent hr₁ hopened).bind fun c r₂ hr₂ _ _ => of_cursor ?_
  split
  · exact (skip 1 hr₂).bind fun _ r₃ hr₃ _ _ => tokenFrom hr₃ rfl
  · exact throw hr₂ hr₂.reads.spanOfNext_solid

lemma label {rest : List Char} (hr : r.Honest source) (hrest : r.cursor.rest = '#' :: rest) :
    Sound source label r fun t => Honest source t.value := by
  have hopened := hr.reads.next_solid (List.cons_ne_nil '#' []) hrest
  unfold Scan.label
  refine of_cursor ((skip 1 hr).bind fun _ r₁ hr₁ _ _ => ?_)
  refine (takeWhile _ hr₁).bind fun name r₂ hr₂ _ _ => ?_
  split
  · split
    · exact tokenFrom hr₂ rfl
    · exact throw hr₂ hopened
  · exact throw hr₂ hopened

lemma word (hr : r.Honest source) : Sound source word r fun t => Honest source t.value := by
  unfold Scan.word
  refine of_cursor ((takeWhile _ hr).bind fun name r₁ hr₁ _ _ => of_cursor ?_)
  split
  · exact (skip 1 hr₁).bind fun _ r₂ hr₂ _ _ => tokenFrom hr₂ rfl
  · exact tokenFrom hr₁ (View.rel_classifyWord _)

lemma symbol (first : Char) (hr : r.Honest source) :
    Sound source (symbol first) r fun t => Honest source t.value := by
  unfold Scan.symbol
  refine of_cursor ?_
  split
  · exact throw hr hr.reads.spanOfNext_solid
  · exact (skip _ hr).bind fun _ r₁ hr₁ _ _ => tokenFrom hr₁ rfl

/-! ### Numbers -/

lemma decimalFraction (hr : r.Honest source) : Sound source decimalFraction r fun _ => True := by
  unfold Scan.decimalFraction
  refine of_cursor ?_
  split
  · split
    · exact (skip 1 hr).bind fun _ r₁ hr₁ _ _ => takeWhile _ hr₁
    · exact pure hr trivial
  · exact pure hr trivial

lemma decimalNumber (start : Cursor) (hr : r.Honest source) :
    Sound source (decimalNumber start) r fun t => Honest source t.value := by
  unfold Scan.decimalNumber
  refine (takeWhile _ hr).bind fun whole r₁ hr₁ _ _ => ?_
  exact (decimalFraction hr₁).bind fun fraction r₂ hr₂ _ _ => tokenFrom hr₂ rfl

lemma radixFraction (radix : Radix) (hr : r.Honest source) :
    Sound source (radixFraction radix) r fun _ => True := by
  unfold Scan.radixFraction
  refine of_cursor ?_
  split
  · exact (skip 1 hr).bind fun _ r₁ hr₁ _ _ => takeWhile _ hr₁
  · exact pure hr trivial

lemma radixDigits {start : Cursor} (radix : Radix) (hr : r.Honest source)
    (hstart : start.Reads source) (hadvances : start.Advances r.cursor) :
    Sound source (radixDigits start radix) r fun t => Honest source t.value := by
  unfold Scan.radixDigits
  refine (takeWhile _ hr).bind fun whole r₁ hr₁ hleads₁ _ => ?_
  refine (radixFraction radix hr₁).bind fun fraction r₂ hr₂ hleads₂ _ => ?_
  split
  · exact of_cursor (throw hr₂
      (hstart.spanFrom_solid (hadvances.trans_leads (hleads₁.trans hleads₂))))
  · exact tokenFrom hr₂ rfl

lemma radixNumber (radix : Radix) (hr : r.Honest source) (hne : r.cursor.rest ≠ []) :
    Sound source (radixNumber r.cursor radix) r fun t => Honest source t.value := by
  have hadvances : r.cursor.Advances (r.cursor.drop 2) :=
    ⟨_, by simpa using hne, r.cursor.passes_drop 2⟩
  have hr₁ : ({ r with cursor := r.cursor.drop 2 } : Reader).Honest source :=
    hr.moveTo (hr.reads.leads hadvances.leads)
  unfold Scan.radixNumber
  refine of_ok (skip_apply 2 r) hadvances.leads (of_cursor ?_)
  split
  · next hpeek => exact throw hr₁ (hr₁.reads.emptyAt_solid (List.head?_eq_none_iff.mp hpeek))
  · split
    · exact radixDigits radix hr₁ hr.reads hadvances
    · exact throw hr₁ hr₁.reads.spanOfNext_solid

lemma number (hr : r.Honest source) : Sound source number r fun t => Honest source t.value := by
  have hdecimal := decimalNumber r.cursor hr
  unfold Scan.number
  refine of_cursor ?_
  split
  · next hrest =>
    split
    · exact radixNumber _ hr (hrest ▸ List.cons_ne_nil _ _)
    · split
      · exact (warn hr hr.reads.spanOfNext_solid).bind fun _ r₁ hr₁ _ _ => decimalNumber _ hr₁
      · exact hdecimal
  · exact hdecimal

/-! ### Template strings -/

lemma escapedDollar {start : Cursor} (hr : r.Honest source) (hstart : start.Reads source)
    (hadvances : start.Advances r.cursor) :
    Sound source (escapedDollar start.pos) r fun _ => True := by
  unfold Scan.escapedDollar
  refine of_cursor ?_
  split
  · exact (skip 1 hr).bind fun _ r₁ hr₁ _ _ => pure hr₁ trivial
  · exact (warn hr (hstart.spanFrom_solid hadvances)).bind fun _ r₁ hr₁ _ _ => pure hr₁ trivial

lemma templateEscape (hr : r.Honest source) : Sound source templateEscape r fun _ => True := by
  unfold Scan.templateEscape
  refine of_cursor ((skip 1 hr).bind fun _ r₁ hr₁ hleads₁ _ => ?_)
  refine advance_bind hr₁ fun escaped r₂ hr₂ hadvances => ?_
  have hall : r.cursor.Advances r₂.cursor := hleads₁.advances hadvances
  split
  · exact escapedDollar hr₂ hr.reads hall
  · split
    · exact pure hr₂ trivial
    · exact of_cursor (throw hr₂ (hr.reads.spanFrom_solid hall))

section Templates

variable {embedded : Option (Scan Expr)}

variable (h : SoundWithin source embedded)
include h

lemma embeddedExpression (hr : r.Honest source) :
    Sound source (embeddedExpression embedded) r (Honest source) := by
  have hplace {c : Cursor} (hc : c.Reads source) : ∀ s ∈ [Span.emptyAt c.pos], s.Truthful source :=
    fun _ hs => List.mem_singleton.mp hs ▸ hc.emptyAt_truthful
  have hopened {c : Cursor} (hc : c.Reads source) : (Event.templateOpened c.pos).Honest source :=
    Event.honest_of_spans rfl (hplace hc)
  have hresumed {c : Cursor} (hc : c.Reads source) : (Event.templateResumed c.pos).Honest source :=
    Event.honest_of_spans rfl (hplace hc)
  unfold Scan.embeddedExpression
  refine of_cursor ?_
  cases embedded with
  | none => exact fail hr (Diagnostic.placed_internal hr.reads.emptyAt_truthful)
  | some read =>
    refine (record hr (hopened hr.reads)).bind fun _ r₁ hr₁ _ _ => ?_
    refine (h read rfl r₁ hr₁).bind fun expr r₂ hr₂ _ hexpr => of_cursor ?_
    refine (record hr₂ (hresumed hr₂.reads)).bind fun _ r₃ hr₃ _ _ => ?_
    split
    · exact (skip 1 hr₃).bind fun _ r₄ hr₄ _ _ => pure hr₄ hexpr
    · exact throw hr₃ hr₂.reads.spanOfNext_solid

lemma templatePiece? {opened : Position} (hr : r.Honest source)
    (hopened : (Span.new opened (opened.offset + 1)).Solid source) :
    Sound source (templatePiece? embedded opened) r (Honest source) := by
  unfold Scan.templatePiece?
  refine of_cursor ?_
  split
  · exact throw hr hopened
  · exact (skip 1 hr).bind fun _ r₁ hr₁ _ _ => pure hr₁ rfl
  · exact (templateEscape hr).bind fun text r₁ hr₁ _ _ => pure hr₁ rfl
  · refine (skip 2 hr).bind fun _ r₁ hr₁ _ _ => ?_
    refine (embeddedExpression h hr₁).bind fun expr r₂ hr₂ _ hexpr => pure hr₂ ?_
    exact View.rel_some_some.mpr (View.rel_embedded hexpr)
  · exact (skip 1 hr).bind fun _ r₁ hr₁ _ _ => pure hr₁ rfl

lemma templatePieces {opened : Cursor} {fuel : Nat} {pieces : List Piece} (hr : r.Honest source)
    (hopened : (Span.new opened.pos (opened.pos.offset + 1)).Solid source)
    (hplace : opened.Reads source) (hpieces : Honest source pieces) :
    Sound source (templatePieces embedded opened.pos fuel pieces) r (Honest source) := by
  induction fuel generalizing r pieces with
  | zero => exact fail hr (Diagnostic.placed_internal hplace.emptyAt_truthful)
  | succ fuel ih =>
    unfold Scan.templatePieces
    refine (templatePiece? h hr hopened).bind fun piece r₁ hr₁ _ hpiece => ?_
    cases piece with
    | none => exact pure hr₁ (View.rel_reverse hpieces)
    | some piece =>
      exact ih hr₁ (View.rel_cons.mpr ⟨View.rel_some_some.mp hpiece, hpieces⟩)

lemma templateLiteral {rest : List Char} (hr : r.Honest source)
    (hrest : r.cursor.rest = '\x60' :: rest) :
    Sound source (templateLiteral embedded) r fun t => Honest source t.value := by
  have hopened := hr.reads.next_solid (List.cons_ne_nil '\x60' []) hrest
  unfold Scan.templateLiteral
  refine of_cursor ((skip 1 hr).bind fun _ r₁ hr₁ _ _ => ?_)
  have hnone : Honest source ([] : List Piece) := rfl
  exact (templatePieces h hr₁ hopened hr.reads hnone).bind fun pieces r₂ hr₂ _ hpieces =>
    tokenFrom hr₂ (View.rel_template (View.rel_parts hpieces))

/-! ### The next token -/

lemma tokenHere_value (hr : r.Honest source) :
    Sound source (tokenHere embedded) r fun t => Honest source t.value := by
  unfold Scan.tokenHere
  refine of_cursor ?_
  split
  · exact tokenFrom hr rfl
  · exact stringLiteral hr ‹_›
  · exact templateLiteral h hr ‹_›
  · exact charLiteral hr ‹_›
  · exact label hr ‹_›
  · split
    · exact number hr
    · exact symbol _ hr
  · split
    · exact number hr
    split
    · exact word hr
    · exact symbol _ hr

variable (hforward : ForwardWithin embedded)
include hforward

lemma tokenHere (hr : r.Honest source) : Sound source (tokenHere embedded) r (Honest source) where
  ok {t r'} hrun := by
    obtain ⟨hr', hleads, hvalue⟩ := (tokenHere_value h hr).ok hrun
    refine ⟨hr', hleads, Honest.token hvalue ?_⟩
    by_cases hnil : r.cursor.rest = []
    · rw [tokenHere_at_end embedded hnil, EStateM.Result.ok.injEq] at hrun
      rw [← hrun.1]
      exact hr.reads.emptyAt_solid hnil
    · obtain ⟨text, hcovers⟩ := tokenHere_covers hforward hnil hrun
      rw [hcovers.span_eq]
      exact hr.reads.spanFrom_solid ⟨text, hcovers.ne_nil, hcovers.passes⟩
  error hrun := (tokenHere_value h hr).error hrun

lemma token (hr : r.Honest source) : Sound source (token embedded) r (Honest source) :=
  (skipGap hr).bind fun _ _ hr₁ _ _ => tokenHere h hforward hr₁

lemma tokens (fuel : Nat) (hr : r.Honest source) :
    Sound source (tokens embedded fuel) r (Honest source) := by
  induction fuel generalizing r with
  | zero => exact of_cursor (fail hr (Diagnostic.placed_internal hr.reads.emptyAt_truthful))
  | succ fuel ih =>
    unfold Scan.tokens
    refine (token h hforward hr).bind fun t r₁ hr₁ _ ht => ?_
    split
    · exact pure hr₁ rfl
    · exact (ih hr₁).bind fun ts r₂ hr₂ _ hts => pure hr₂ (View.rel_cons.mpr ⟨ht, hts⟩)

end Templates

end Sound

end Scan

end FrontEnd
