import FrontEnd.Proofs.HonestScan
import FrontEnd.Proofs.Progress
import FrontEnd.Proofs.SimilarExpressions
import Mathlib.Logic.Relation

/-!
# The parser is honest

Productions that are similar under the view of solid spans do the same from every honest stream, and
leave it honest. As reading an expression is similar to itself, whatever comes out of it is true of
the source, and so is the error if it fails.
-/

namespace FrontEnd

open Parse

/-- The reader of a stream is honest, and so are the tokens in its buffer. -/
structure Stream.Honest (source : List Char) (s : Stream) : Prop where
  reader : s.reader.Honest source
  token : ∀ {k : Nat} {lexed}, s.buffer[k]? = some lexed →
    FrontEnd.Honest source lexed.token ∧ lexed.start.Reads source

variable {source : List Char}

namespace Stream.Honest

variable {s : Stream}

lemma ofReader {r : Reader} (h : r.Honest source) : (Stream.ofReader r).Honest source where
  reader := h
  token hk := by simp [Stream.ofReader] at hk

lemma record (h : s.Honest source) {e : Event} (he : e.Honest source) :
    (s.record e).Honest source :=
  ⟨h.reader.record he, h.token⟩

lemma moveTo (h : s.Honest source) (index : Nat) :
    ({ s with index := index } : Stream).Honest source :=
  ⟨h.reader, h.token⟩

lemma step (h : s.Honest source) : s.step.Honest source :=
  h.moveTo _

lemma previousSpan (h : s.Honest source) : s.previousSpan.Truthful source := by
  have hstart : (Span.emptyAt Position.start).Truthful source :=
    (Cursor.reads_ofText source).emptyAt_truthful
  unfold Stream.previousSpan
  split
  · exact hstart
  · next i _ =>
    cases hlast : s.buffer[i]? with
    | none => exact hstart
    | some lexed => exact (Honest.span.mp (View.Rel.span_rel (h.token hlast).1)).truthful

lemma resumeCursor (h : s.Honest source) : s.resumeCursor.Reads source := by
  unfold Stream.resumeCursor
  cases hnext : s.buffer[s.index]? with
  | none => exact h.reader.reads
  | some lexed => exact (h.token hnext).2

end Stream.Honest

/-! ## Runs that agree -/

variable {α β : Type} [Spanned α] [Spanned β]

/-- Two outcomes that are the same but for how their spans were found, and are honest. -/
inductive Alike (source : List Char) :
    EStateM.Result Diagnostic Stream α → EStateM.Result Diagnostic Stream α → Prop where
  | ok {a a' s} (hs : s.Honest source) (ha : (View.solid source).Rel a a') :
    Alike source (.ok a s) (.ok a' s)
  | error {d s} (hs : s.Honest source) (hd : d.Placed source) :
    Alike source (.error d s) (.error d s)

/-- Two actions come to the same from every honest stream. -/
def Agree (source : List Char) (σ : Session) (m m' : Parse α) : Prop :=
  ∀ s, s.Honest source → Alike source (m σ s) (m' σ s)

/-- A session whose scanner is honest. -/
structure Session.Sound (source : List Char) (σ : Session) : Prop where
  grammar : σ.grammar = .standard
  embedded : Scan.SoundWithin source σ.embedded
  forward : Scan.ForwardWithin σ.embedded

namespace Agree

variable {σ : Session}

lemma honest_of_ok {m : Parse α} {s s' : Stream} {a : α} (h : Agree source σ m m)
    (hs : s.Honest source) (hm : m σ s = .ok a s') : s'.Honest source ∧ Honest source a := by
  have hrun := h s hs
  rw [hm] at hrun
  cases hrun with
  | ok hs' ha => exact ⟨hs', ha⟩

lemma honest_of_error {m : Parse α} {s s' : Stream} {d : Diagnostic} (h : Agree source σ m m)
    (hs : s.Honest source) (hm : m σ s = .error d s') : s'.Honest source ∧ d.Placed source := by
  have hrun := h s hs
  rw [hm] at hrun
  cases hrun with
  | error hs' hd => exact ⟨hs', hd⟩

lemma pure {a a' : α} (h : (View.solid source).Rel a a') :
    Agree source σ (pure a) (pure a') :=
  fun _ hs => .ok hs h

lemma throw {d d' : Diagnostic} (h : (View.solid source).Rel d d') :
    Agree source σ (throw d : Parse α) (throw d') := by
  obtain ⟨rfl, hd⟩ := h.placed
  exact fun _ hs => .error hs hd

lemma bind {m m' : Parse α} {f f' : α → Parse β} (hm : Agree source σ m m')
    (hf : ∀ a a', (View.solid source).Rel a a' → Agree source σ (f a) (f' a')) :
    Agree source σ (m >>= f) (m' >>= f') := by
  intro s hs
  rw [bind_apply, bind_apply]
  have hrun := hm s hs
  generalize m σ s = outcome, m' σ s = outcome' at hrun
  cases hrun with
  | ok hs₁ ha => exact hf _ _ ha _ hs₁
  | error hs₁ hd => exact .error hs₁ hd

lemma discard {m m' : Parse α} (hm : Agree source σ m m') :
    Agree source σ (discard m) (discard m') := by
  rw [discard_eq, discard_eq]
  exact hm.bind fun _ _ _ => pure rfl

lemma scanNext (hσ : σ.Sound source) : Agree source σ scanNext scanNext := by
  intro s hs
  rw [scanNext_apply]
  have hgap := Scan.Sound.skipGap hs.reader
  cases hrun : Scan.skipGap s.reader with
  | error d r =>
    obtain ⟨hr, hd⟩ := hgap.error hrun
    exact .error ⟨hr, hs.token⟩ hd
  | ok u r =>
    obtain ⟨hr, -, -⟩ := hgap.ok hrun
    have hhere := Scan.Sound.tokenHere hσ.embedded hσ.forward hr
    dsimp only
    cases hrun' : Scan.tokenHere σ.embedded r with
    | error d r' =>
      obtain ⟨hr', hd⟩ := hhere.error hrun'
      exact .error ⟨hr', hs.token⟩ hd
    | ok t r' =>
      obtain ⟨hr', -, ht⟩ := hhere.ok hrun'
      refine .ok ⟨hr', fun {k lexed} hk => ?_⟩ ht
      rw [Array.getElem?_push] at hk
      split at hk
      · cases hk
        exact ⟨ht, hr.reads⟩
      · exact hs.token hk

lemma scanPast (hσ : σ.Sound source) (n : Nat) : Agree source σ (scanPast n) (scanPast n) := by
  induction n with
  | zero => exact scanNext hσ
  | succ n ih =>
    rw [Parse.scanPast]
    exact (discard (scanNext hσ)).bind fun _ _ _ => ih

lemma peekAhead (hσ : σ.Sound source) (n : Nat) :
    Agree source σ (peekAhead n) (peekAhead n) := by
  intro s hs
  rw [peekAhead_apply]
  cases hbuffer : s.buffer[s.index + n]? with
  | none => exact scanPast hσ _ s hs
  | some lexed => exact .ok hs (hs.token hbuffer).1

lemma peek (hσ : σ.Sound source) : Agree source σ peek peek :=
  peekAhead hσ 0

lemma look (hσ : σ.Sound source) {p p' : Token → α}
    (hp : ∀ t t', (View.solid source).Rel t t' → (View.solid source).Rel (p t) (p' t')) :
    Agree source σ (p <$> Parse.peek) (p' <$> Parse.peek) := by
  intro s hs
  rw [map_apply, map_apply]
  have hpeek := peek hσ s hs
  generalize Parse.peek σ s = outcome at hpeek
  cases hpeek with
  | error hs₁ hd => exact .error hs₁ hd
  | ok hs₁ ht => exact .ok hs₁ (hp _ _ ht)

lemma takeIf (hσ : σ.Sound source) {select select' : Token → Option α}
    (hselect : ∀ t t', (View.solid source).Rel t t' →
      (View.solid source).Rel (select t) (select' t')) :
    Agree source σ (takeIf select) (takeIf select') := by
  intro s hs
  rw [takeIf_apply, takeIf_apply]
  have hpeek := peek hσ s hs
  generalize Parse.peek σ s = outcome at hpeek
  cases hpeek with
  | error hs₁ hd => exact .error hs₁ hd
  | @ok t _ s₁ hs₁ ht =>
    have hrel := hselect t t ht
    dsimp only
    cases hl : select t <;> cases hr : select' t <;> rw [hl, hr] at hrel
    · exact .ok hs₁ hrel
    · exact absurd hrel View.not_rel_none_some
    · exact absurd hrel View.not_rel_some_none
    · exact .ok hs₁.step hrel

lemma accept (hσ : σ.Sound source) {select select' : Token → Option α}
    {refusal refusal' : Token → Diagnostic}
    (hselect : ∀ t t', (View.solid source).Rel t t' →
      (View.solid source).Rel (select t) (select' t'))
    (hrefusal : ∀ t t', (View.solid source).Rel t t' →
      (View.solid source).Rel (refusal t) (refusal' t')) :
    Agree source σ (accept select refusal) (accept select' refusal') := by
  intro s hs
  rw [accept_apply, accept_apply]
  have hpeek := peek hσ s hs
  generalize Parse.peek σ s = outcome at hpeek
  cases hpeek with
  | error hs₁ hd => exact .error hs₁ hd
  | @ok t _ s₁ hs₁ ht =>
    have hrel := hselect t t ht
    dsimp only
    cases hl : select t <;> cases hr : select' t <;> rw [hl, hr] at hrel
    · obtain ⟨heq, hd⟩ := (hrefusal t t ht).placed
      rw [← heq]
      exact .error hs₁.step hd
    · exact absurd hrel View.not_rel_none_some
    · exact absurd hrel View.not_rel_some_none
    · exact .ok hs₁.step (View.rel_some_some.mp hrel)

lemma refuseNext (hσ : σ.Sound source) (code : Code) (message : String) :
    Agree source σ (refuseNext code message : Parse α) (refuseNext code message) := by
  intro s hs
  rw [refuseNext_apply]
  have hpeek := peek hσ s hs
  generalize Parse.peek σ s = outcome at hpeek
  cases hpeek with
  | error hs₁ hd => exact .error hs₁ hd
  | ok hs₁ ht =>
    exact .error hs₁.step (Diagnostic.placed_of_solid (Honest.span.mp ht.span_rel))

lemma exhausted : Agree source σ (exhausted : Parse α) exhausted :=
  fun _ hs => .error hs (Diagnostic.placed_internal hs.previousSpan)

lemma spanFrom {start start' : Span} (h : (View.solid source).Rel start start') :
    Agree source σ (spanFrom start) (spanFrom start') := by
  intro s hs
  rw [spanFrom_apply, spanFrom_apply]
  obtain ⟨rfl, hstart⟩ := View.solid_rel.mp h
  exact .ok hs (Honest.span.mpr (hstart.merge hs.previousSpan))

lemma warn {code : Code} {span span' : Span} {message : String}
    (h : (View.solid source).Rel span span') :
    Agree source σ (warn code span message) (warn code span' message) := by
  obtain ⟨rfl, hspan⟩ := View.solid_rel.mp h
  exact fun s hs => .ok (hs.record (Event.honest_warning hspan)) rfl

lemma traced {production : String} {token token' : Token} {m m' : Parse α}
    (h : (View.solid source).Rel token token') (hm : Agree source σ m m') :
    Agree source σ (traced production token m) (traced production token' m') := by
  obtain ⟨hspan, hsolid⟩ := View.solid_rel.mp h.span_rel
  intro s hs
  have hleave {s : Stream} (success : Bool) (hs : s.Honest source) :
      (s.record (.leave production success)).Honest source :=
    hs.record (Event.honest_of_spans rfl fun _ ht => absurd ht List.not_mem_nil)
  rw [traced_apply, traced_apply, ← h.lexeme_eq, ← hspan]
  have hrun := hm (s.record (.enter production token.lexeme token.span))
    (hs.record (Event.honest_of_spans rfl fun _ ht => List.mem_singleton.mp ht ▸ hsolid.truthful))
  generalize m σ (s.record (.enter production token.lexeme token.span)) = outcome,
    m' σ (s.record (.enter production token.lexeme token.span)) = outcome' at hrun
  cases hrun with
  | ok hs₁ ha => exact .ok (hleave true hs₁) ha
  | error hs₁ hd => exact .error (hleave false hs₁) hd

lemma argumentName (hσ : σ.Sound source) :
    Agree source σ Production.argumentName Production.argumentName := by
  intro s hs
  rw [argumentName_apply]
  have hpeek := peek hσ s hs
  generalize Parse.peek σ s = outcome at hpeek
  cases hpeek with
  | error hs₁ hd => exact .error hs₁ hd
  | @ok t _ s₁ hs₁ ht =>
    dsimp only
    split
    · have hahead := peekAhead hσ 1 s₁ hs₁
      generalize Parse.peekAhead 1 σ s₁ = outcome at hahead
      cases hahead with
      | error hs₂ hd => exact .error hs₂ hd
      | ok hs₂ ht' =>
        dsimp only
        split
        · exact .ok hs₂.step.step (View.rel_some_some.mpr ht.ident_rel)
        · exact .ok hs₂ rfl
    · exact .ok hs₁ rfl

lemma definitionName (hσ : σ.Sound source) {body : Production.BodyKind}
    (hm : Agree source σ Production.pattern Production.pattern) :
    Agree source σ (Production.definitionName body) (Production.definitionName body) := by
  intro s hs
  have hrun := hm s hs
  rw [Production.definitionName_apply]
  generalize Production.pattern σ s = outcome at hrun
  cases hrun with
  | @ok p _ s₁ hs₁ hp =>
    have hname := hp.simpleName?
    dsimp only
    cases hcases : p.simpleName? with
    | none => exact refuseNext hσ _ _ _ (hs₁.moveTo s.index)
    | some name =>
      rw [hcases] at hname
      exact .ok hs₁ (View.rel_some_some.mp hname)
  | error hs₁ hd =>
    dsimp only
    split
    · exact refuseNext hσ _ _ _ (hs₁.moveTo s.index)
    · exact .error hs₁ hd

end Agree

/-- Similar productions agree. -/
theorem Similar.agree {σ : Session} (hσ : σ.Sound source) {k : Budget} {sure : Bool}
    {m m' : Parse α} (h : Similar (View.solid source) k sure m m') (hk : k = .unlimited) :
    Agree source σ m m' := by
  induction h with
  | pure h => exact .pure h
  | fail h => exact .throw h
  | exhausted => exact .exhausted
  | exhausted_left => cases hk
  | spent => cases hk
  | weaken hwithin h ih =>
    subst hk
    exact ih (Budget.eq_of_unlimited_within hwithin)
  | assured h ih => exact ih hk
  | bind hm hf ihm ihf => exact (ihm hk).bind fun a a' ha => ihf a a' ha hk
  | bind_spending hm hf ihm ihf =>
    exact (ihm hk).bind fun a a' ha => ihf a a' ha (by rw [hk]; rfl)
  | bind_before hm hf ihm ihf => exact (ihm hk).bind fun a a' ha => ihf a a' ha hk
  | look hp hend => exact .look hσ hp
  | takeIf hselect hend hnone hsome ihnone ihsome =>
    refine (Agree.takeIf hσ hselect).bind fun o o' ho => ?_
    cases o <;> cases o'
    · exact ihnone hk
    · exact absurd ho View.not_rel_none_some
    · exact absurd ho View.not_rel_some_none
    · exact ihsome _ _ (View.rel_some_some.mp ho) (by rw [hk]; rfl)
  | accept hselect hrefusal => exact .accept hσ hselect hrefusal
  | refuseNext => exact .refuseNext hσ _ _
  | spanFrom h => exact .spanFrom h
  | warn h => exact .warn h
  | traced h hm ih => exact .traced h (ih hk)
  | read hf ih =>
    subst hk
    intro s hs
    rw [bind_apply, bind_apply, read_apply]
    exact ih σ σ .unlimited hσ.grammar hσ.grammar (Budget.within_refl _) rfl rfl s hs
  | argumentName => exact .argumentName hσ
  | definitionName h ih => exact .definitionName hσ (ih hk)

lemma agree_expression {σ : Session} (hσ : σ.Sound source) (least : Precedence) :
    Agree source σ (Production.expression least) (Production.expression least) := by
  have hsimilar : Similar (View.solid source) .unlimited false (Production.expression least)
      (Production.expression least) := .expression least
  exact hsimilar.agree hσ rfl

namespace Scan

lemma soundWithin_embeddedReader (depth : Nat) :
    SoundWithin source (embeddedReader .standard depth) := by
  induction depth with
  | zero => intro read hread; cases hread
  | succ depth ih =>
    rintro _ ⟨⟩ r hr
    have hσ : Session.Sound source
        ⟨.standard, embeddedReader .standard depth, r.cursor.rest.length + 2⟩ :=
      ⟨rfl, ih, forwardWithin_embeddedReader depth⟩
    have hagree := agree_expression hσ .lowest
    have hforward := forwardWithin_embeddedReader (depth + 1) _ rfl
    constructor
    · intro e r' h
      obtain ⟨s, hrun, rfl⟩ := readEmbedded_eq_ok h
      obtain ⟨hs, he⟩ := hagree.honest_of_ok (.ofReader hr) hrun
      exact ⟨hs.reader.moveTo hs.resumeCursor, hforward.leads h, he⟩
    · intro d r' h
      obtain ⟨s, hrun, rfl⟩ := readEmbedded_eq_error h
      obtain ⟨hs, hd⟩ := hagree.honest_of_error (.ofReader hr) hrun
      exact ⟨hs.reader, hd⟩

end Scan

lemma agree_program {σ : Session} (hσ : σ.Sound source) :
    Agree source σ Production.program Production.program := by
  unfold Production.program
  have hnext : Agree source σ (nextIs .endOfInput) (nextIs .endOfInput) := by
    rw [Similar.nextIs_eq]
    exact .look hσ fun t t' ht => View.rel_of_eq (by rw [ht.kind_eq])
  refine hnext.bind fun b b' hb => ?_
  obtain rfl := hb.eq
  have hend : Agree source σ (consume .endOfInput "expected the end of the input")
      (consume .endOfInput "expected the end of the input") :=
    .accept hσ (fun t t' h => h.ofKind? _) fun t t' h => h.unexpected _ _
  split
  · exact .pure rfl
  · refine (agree_expression hσ .lowest).bind fun e e' he => ?_
    exact (Agree.discard hend).bind fun _ _ _ => .pure (View.rel_some_some.mpr he)

/-! ## Reachable states -/

/-- The reader that is left when an action ends, successfully or not. -/
def Scan.after {α : Type} (m : Scan α) (r : Reader) : Reader :=
  match m r with
  | .ok _ r' => r'
  | .error _ r' => r'

/-- The reader that is left when a source is parsed from a reading place on. -/
def Reader.afterProgram (source : List Char) (r : Reader) : Reader :=
  match Production.program (Session.ofText .standard source) (Stream.ofReader r) with
  | .ok _ s => s.reader
  | .error _ s => s.reader

/-- Reading one character leads from the one cursor to the other. -/
def Cursor.Next (c c' : Cursor) : Prop :=
  ∃ ch, c.next? = some (ch, c')

/-- The states of the reader of a source: those in which the tokenizers and parsers that share it
leave it, one after the other, and those on the way, between any two characters that are read. The
cursor may be reset to where it has been. -/
inductive Reader.Reachable (source : List Char) : Reader → Prop where
  | start : Reachable source (.ofText source)
  | next {r c} (h : Reachable source r) (hnext : r.cursor.Next c) :
    Reachable source { r with cursor := c }
  | gap {r} (h : Reachable source r) : Reachable source (Scan.skipGap.after r)
  | token {r} (depth : Nat) (h : Reachable source r) :
    Reachable source ((Scan.token (embeddedReader .standard depth)).after r)
  | rawToken {r} (h : Reachable source r) : Reachable source (Scan.rawToken.after r)
  | embedded {r} (depth : Nat) (h : Reachable source r) :
    Reachable source ((readEmbedded .standard (embeddedReader .standard depth)).after r)
  | program {r} (h : Reachable source r) : Reachable source (r.afterProgram source)
  | takeWarnings {r} (h : Reachable source r) : Reachable source r.takeWarnings.2
  | reset {r earlier} (h : Reachable source r) (h' : Reachable source earlier) :
    Reachable source { r with cursor := earlier.cursor }

/-- The actions by which the scanner moves the cursor. Everything else that it does is put together
from them, from actions that leave the cursor alone and from reading template expressions. -/
inductive Scan.Moves : {α : Type} → Scan α → Prop where
  | skip (n : Nat) : Moves (Scan.skip n)
  | takeWhile (p : Char → Bool) : Moves (Scan.takeWhile p)
  | gap : Moves Scan.skipGap
  | text (opened : Position) :
    Moves (Scan.walk fun c => Scan.stringBody opened c.rest c.pos [])

lemma Cursor.Next.leads {c c' : Cursor} (h : c.Next c') : c.Leads c' := by
  obtain ⟨ch, hnext⟩ := h
  unfold Cursor.next? at hnext
  split at hnext
  · cases hnext
  · next ch' rest hrest =>
    cases hnext
    exact ⟨[ch], hrest, rfl⟩

lemma Cursor.Leads.steps {c c' : Cursor} (h : c.Leads c') : Relation.ReflTransGen Next c c' := by
  obtain ⟨text, hpasses⟩ := h
  induction text generalizing c with
  | nil =>
    obtain ⟨rest, pos⟩ := c
    obtain ⟨rest', pos'⟩ := c'
    obtain ⟨rfl, rfl⟩ : rest = rest' ∧ pos' = pos := hpasses
    exact .refl
  | cons ch text ih =>
    have hnext : c.Next ⟨text ++ c'.rest, c.pos.advance ch⟩ := by
      refine ⟨ch, ?_⟩
      rw [Cursor.next?, hpasses.1]
      rfl
    exact .head hnext (ih ⟨rfl, hpasses.2⟩)

lemma Scan.leads_walk {α : Type} {step : Cursor → EStateM.Result Diagnostic Cursor α} (r : Reader)
    (hok : ∀ {a c}, step r.cursor = .ok a c → r.cursor.Leads c)
    (herror : ∀ {d c}, step r.cursor = .error d c → r.cursor.Leads c) :
    r.cursor.Leads (Scan.after (walk step) r).cursor := by
  rw [Scan.after, walk_apply]
  cases hstep : step r.cursor with
  | ok a c => exact hok hstep
  | error d c => exact herror hstep

theorem Scan.Moves.steps {α : Type} {m : Scan α} (h : Moves m) (r : Reader) :
    Relation.ReflTransGen Cursor.Next r.cursor (m.after r).cursor := by
  refine Cursor.Leads.steps ?_
  cases h with
  | skip n => exact ⟨_, r.cursor.passes_drop n⟩
  | takeWhile p => exact ⟨_, r.cursor.passes_takeWhile p⟩
  | gap => exact leads_walk r gap_leads gap_error_leads
  | text opened => exact leads_walk r stringBody_leads stringBody_error_leads

lemma Scan.Sound.after {α : Type} {m : Scan α} {r : Reader} {P : α → Prop}
    (h : Sound source m r P) : (Scan.after m r).Honest source := by
  unfold Scan.after
  cases hrun : m r with
  | ok a r' => exact (h.ok hrun).1
  | error d r' => exact (h.error hrun).1

lemma Scan.Sound.rawToken {r : Reader} (hr : r.Honest source) :
    Sound source rawToken r fun t => Honest source t.value := by
  unfold Scan.rawToken
  refine of_cursor ?_
  split
  · exact tokenFrom hr rfl
  · exact (skip 1 hr).bind fun _ r₁ hr₁ _ _ => tokenFrom hr₁ rfl

lemma Session.sound_ofText (source : List Char) :
    (Session.ofText .standard source).Sound source :=
  ⟨rfl, Scan.soundWithin_embeddedReader _, forwardWithin_embeddedReader _⟩

/-- The spans that come out of a run: those of its value or of its error, and those of the warnings
and other events on the way. -/
def Outcome.spans {α : Type} [Spanned α] (o : Outcome α) : List Span :=
  (match o.result with
    | .ok a => Spanned.spans a
    | .error d => [d.span]) ++ o.journal.toList.flatMap Event.spans

end FrontEnd
