import FrontEnd.CommandLine.Log
import FrontEnd.Diagnostic.Handler
import FrontEnd.Proofs.Chronicle

/-!
# Warnings come in order

The warnings of a run stand in the order of their places. The scanner warns of what it is reading,
which lies behind all that it has read. The parser warns of a keyword that it has just consumed, and
looks no further while it does so. Where it reads on in a template string, what it has looked at
behind the expression is the closing brace alone, which nothing is warned about.
-/

namespace FrontEnd

open Parse Production

/-- Warnings in the order of their places, no two of them at one place. -/
def Increasing (ws : List Diagnostic) : Prop :=
  ws.Pairwise fun w w' => w.span.offset < w'.span.offset

lemma Increasing.snoc {ws : List Diagnostic} {w : Diagnostic} (h : Increasing ws)
    (hw : ∀ v ∈ ws, v.span.offset < w.span.offset) : Increasing (ws ++ [w]) := by
  refine List.pairwise_append.mpr ⟨h, List.pairwise_singleton _ _, fun v hv u hu => ?_⟩
  rw [List.mem_singleton.mp hu]
  exact hw v hv

/-! ## Readers -/

/-- All warnings so far are in order, and about places that have been passed. -/
structure Reader.Dated (r : Reader) : Prop where
  increasing : Increasing r.journal.warnings
  passed : ∀ w ∈ r.journal.warnings, w.span.offset < r.cursor.pos.offset

namespace Reader.Dated

variable {r r' : Reader}

lemma of_warnings (h : r.Dated) (hle : r.cursor.pos.offset ≤ r'.cursor.pos.offset)
    (hwarnings : r'.journal.warnings = r.journal.warnings) : r'.Dated where
  increasing := by
    rw [hwarnings]
    exact h.increasing
  passed w hw := by
    rw [hwarnings] at hw
    exact Nat.lt_of_lt_of_le (h.passed w hw) hle

lemma warned (h : r.Dated) {w : Diagnostic} (hw : w.span.offset = r.cursor.pos.offset)
    (hlt : r.cursor.pos.offset < r'.cursor.pos.offset)
    (hjournal : r'.journal = r.journal.push (.warning w)) : r'.Dated where
  increasing := by
    rw [hjournal, Journal.warnings_push_warning]
    exact h.increasing.snoc fun v hv => hw ▸ h.passed v hv
  passed v hv := by
    rw [hjournal, Journal.warnings_push_warning, List.mem_append, List.mem_singleton] at hv
    rcases hv with hv | rfl
    · exact Nat.lt_trans (h.passed v hv) hlt
    · exact hw ▸ hlt

end Reader.Dated

/-- Readers stay dated. A reader that the parser has failed on may be read on from; where the
scanner has failed, the warnings are still in order. -/
def datesAccount : Scan.Account where
  ok r r' := r.Dated → r'.Dated
  error r d r' := r.Dated → Increasing r'.journal.warnings ∧ (d.stage = .parser → r'.Dated)

lemma lawful_datesAccount : datesAccount.Lawful where
  trans h h' hr := h' (h hr)
  lose h h' hr := h' (h hr)
  quiet hleads hjournal hr := hr.of_warnings hleads.offset_le (by rw [hjournal])
  fault _ hstage hjournal hr := by
    rw [hjournal]
    exact ⟨hr.increasing, fun h => absurd h hstage⟩
  warned _ hspan hleads hlength hjournal hr :=
    hr.warned hspan (hleads.offset_lt hlength) hjournal

/-! ## Tokens that nothing is warned about -/

namespace Scan

/-- A reader of tokens of one kind. -/
class OfKind (kind : TokenKind) (m : Scan Token) : Prop where
  kind_eq : ∀ {r t r'}, m r = .ok t r' → t.kind = kind

namespace OfKind

variable {α : Type} {kind : TokenKind}

instance (m : Scan α) (f : α → Scan Token) [∀ a, OfKind kind (f a)] : OfKind kind (m >>= f) where
  kind_eq h := by
    obtain ⟨a, r₁, -, hf⟩ := bind_eq_ok h
    exact kind_eq hf

lemma andThen {m : Scan α} {f : α → Scan Token} (h : ∀ a, OfKind kind (f a)) :
    OfKind kind (m >>= f) :=
  inferInstance

instance (d : Diagnostic) : OfKind kind (throw d) where
  kind_eq h := by cases h

instance (c : Prop) [Decidable c] (m n : Scan Token) [OfKind kind m] [OfKind kind n] :
    OfKind kind (if c then m else n) := by
  split <;> infer_instance

instance (start : Cursor) (value : TokenValue) : OfKind kind (tokenFrom start kind value) where
  kind_eq h := by cases h; rfl

instance (start : Cursor) : OfKind .numberLiteral (decimalNumber start) := by
  unfold decimalNumber
  infer_instance

instance (start : Cursor) (radix : Radix) : OfKind .numberLiteral (radixNumber start radix) := by
  unfold radixNumber radixDigits
  exact andThen fun _ => andThen fun here => by split <;> infer_instance

instance : OfKind .numberLiteral number := by
  unfold number
  refine andThen fun start => ?_
  split
  · split <;> infer_instance
  · infer_instance

instance (embedded : Option (Scan Expr)) :
    OfKind .templateStringLiteral (templateLiteral embedded) := by
  unfold templateLiteral
  infer_instance

end OfKind

/-- A reader of tokens that writes to the journal for numbers and template strings only. -/
def Reticent (m : Scan Token) : Prop :=
  ∀ r t r', m r = .ok t r' →
    t.kind = .numberLiteral ∨ t.kind = .templateStringLiteral ∨ r'.journal = r.journal

lemma Reticent.of_quiet (m : Scan Token) [Quiet m] : Reticent m :=
  fun _ _ _ h => .inr (.inr (Quiet.journal h))

lemma reticent_tokenHere (embedded : Option (Scan Expr)) : Reticent (tokenHere embedded) := by
  have hnumber : Reticent number := fun _ _ _ h => .inl (OfKind.kind_eq h)
  have hbind {f : Cursor → Scan Token} (hf : ∀ c, Reticent (f c)) : Reticent (cursor >>= f) := by
    intro r t r' h
    rw [cursor_bind] at h
    exact hf _ r t r' h
  unfold tokenHere
  refine hbind fun here => ?_
  split
  · exact .of_quiet _
  · exact .of_quiet _
  · exact fun _ _ _ h => .inr (.inl (OfKind.kind_eq h))
  · exact .of_quiet _
  · exact .of_quiet _
  · split
    · exact hnumber
    · exact .of_quiet _
  · split
    · exact hnumber
    · split <;> exact .of_quiet _

end Scan

/-! ## Streams -/

/-- A kind of token that is warned of by the parser, or that the reading of a template string goes
on with. -/
def TokenKind.Watched (kind : TokenKind) : Prop :=
  kind = .kwPrivate ∨ kind = .rightBrace

/-- All warnings so far are about places before a token, which has been passed. -/
structure Lexed.Fresh (lexed : Lexed) (r : Reader) : Prop where
  warnings : ∀ w ∈ r.journal.warnings, w.span.offset < lexed.start.pos.offset
  span : lexed.token.span.offset = lexed.start.pos.offset
  passed : lexed.start.pos.offset < r.cursor.pos.offset

/-- A stream with dated warnings. It has looked no further than the next token, or the one behind if
the next is a name, and if the last token it has looked at is watched, that came last of all. -/
structure Stream.Timely (s : Stream) : Prop where
  dated : s.reader.Dated
  index_le : s.index ≤ s.buffer.size
  near : s.buffer.size ≤ s.index + 1 ∨ s.buffer.size ≤ s.index + 2 ∧
    ∃ lexed, s.buffer[s.index]? = some lexed ∧ lexed.token.kind = .identifier
  last : ∀ {k : Nat} {lexed}, s.buffer[k]? = some lexed → k + 1 = s.buffer.size → s.index ≤ k →
    lexed.token.kind.Watched → lexed.Fresh s.reader

namespace Stream.Timely

variable {σ : Session} {s s' : Stream} {lexed : Lexed} {t : Token}

lemma ofReader {r : Reader} (h : r.Dated) : (Stream.ofReader r).Timely where
  dated := h
  index_le := Nat.le_refl _
  near := .inl (Nat.zero_le _)
  last hk := by simp [Stream.ofReader] at hk

/-- A token that is scanned is the last one that has been looked at. -/
lemma scan (htoken : ∀ r, datesAccount.Bears r (Scan.token σ.embedded))
    (hforward : Scan.ForwardWithin σ.embedded) (h : s.Timely)
    (hnear : s.buffer.size ≤ s.index ∨ s.buffer.size ≤ s.index + 1 ∧
      ∃ lexed, s.buffer[s.index]? = some lexed ∧ lexed.token.kind = .identifier)
    (hrun : scanNext σ s = .ok t s') : s'.Timely := by
  obtain ⟨r, hgap, hhere, hbuffer, hindex⟩ := scanNext_eq_ok hrun
  have hread := htoken s.reader
  unfold Scan.Account.Bears at hread
  rw [token_of_scanNext hrun] at hread
  refine ⟨hread h.dated, ?_, ?_, fun {k lexed} hk hsize hle hwatched => ?_⟩
  · have hle := h.index_le
    rw [hindex, hbuffer, Array.size_push]
    omega
  · rw [hindex, hbuffer, Array.size_push]
    rcases hnear with hle | ⟨hle, lexed, hlexed, hname⟩
    · exact .inl (by omega)
    · obtain ⟨hlt, -⟩ := Array.getElem?_eq_some_iff.mp hlexed
      refine .inr ⟨by omega, lexed, ?_, hname⟩
      rw [Array.getElem?_push_lt hlt, ← hlexed, Array.getElem?_eq_getElem hlt]
  · rw [hbuffer, Array.size_push, Nat.add_right_cancel_iff] at hsize
    subst hsize
    rw [hbuffer, Array.getElem?_push_size, Option.some.injEq] at hk
    subst hk
    have hrest : r.cursor.rest ≠ [] := by
      intro hnil
      rw [Scan.tokenHere_at_end _ hnil, EStateM.Result.ok.injEq] at hhere
      rw [← hhere.1] at hwatched
      rcases hwatched with hkind | hkind <;> cases hkind
    obtain ⟨text, hcovers⟩ := Scan.tokenHere_covers hforward hrest hhere
    have hjournal : s'.reader.journal = s.reader.journal := by
      obtain hkind | hkind | hjournal := Scan.reticent_tokenHere _ _ _ _ hhere
      · rcases hwatched with hwatched | hwatched <;> rw [hkind] at hwatched <;> cases hwatched
      · rcases hwatched with hwatched | hwatched <;> rw [hkind] at hwatched <;> cases hwatched
      · exact hjournal.trans (Scan.skipGap_eq_ok hgap).2
    refine ⟨fun w hw => ?_, by rw [hcovers.span_eq]; rfl, ?_⟩
    · rw [hjournal] at hw
      exact Nat.lt_of_lt_of_le (h.dated.passed w hw) (Scan.Forward.leads hgap).offset_le
    · have hpos := Text.byteSize_pos hcovers.ne_nil
      have hoffset := hcovers.passes.offset
      dsimp only
      omega

lemma step (h : s.Timely) (hnext : s.buffer[s.index]? = some lexed) : s.step.Timely where
  dated := h.dated
  index_le := by
    obtain ⟨hlt, -⟩ := Array.getElem?_eq_some_iff.mp hnext
    exact hlt
  near := by
    have hnear := h.near
    rw [step_buffer, step_index]
    omega
  last hk hsize hle := h.last hk hsize (Nat.le_of_succ_le hle)

lemma record_other (h : s.Timely) {e : Event} (he : Journal.warning? e = none) :
    (s.record e).Timely where
  dated := h.dated.of_warnings (Nat.le_refl _) (Journal.warnings_push_other _ he)
  index_le := h.index_le
  near := h.near
  last hk hsize hle hwatched := by
    obtain ⟨hwarnings, hspan, hpassed⟩ := h.last hk hsize hle hwatched
    refine ⟨fun w hw => hwarnings w ?_, hspan, hpassed⟩
    rwa [record_journal, Journal.warnings_push_other _ he] at hw

lemma fresh (h : s.Timely) (hnext : s.buffer[s.index]? = some lexed)
    (hwatched : lexed.token.kind.Watched) :
    s.buffer.size = s.index + 1 ∧ lexed.Fresh s.reader := by
  obtain ⟨hlt, -⟩ := Array.getElem?_eq_some_iff.mp hnext
  have hsize : s.buffer.size = s.index + 1 := by
    rcases h.near with hle | ⟨-, lexed', hlexed', hname⟩
    · omega
    · obtain rfl : lexed = lexed' := Option.some_inj.mp (hnext.symm.trans hlexed')
      rcases hwatched with hwatched | hwatched <;> rw [hname] at hwatched <;> cases hwatched
  exact ⟨hsize, h.last hnext hsize.symm (Nat.le_refl _) hwatched⟩

lemma warned (h : s.Timely) (hnext : s.buffer[s.index]? = some lexed)
    (hwatched : lexed.token.kind.Watched) {w : Diagnostic} (hw : w.span = lexed.token.span) :
    (s.step.record (.warning w)).Timely := by
  obtain ⟨hsize, hwarnings, hspan, hpassed⟩ := h.fresh hnext hwatched
  have hstep := h.step hnext
  refine ⟨⟨?_, fun v hv => ?_⟩, hstep.index_le, hstep.near, fun {k _} hk hlast hle => ?_⟩
  · rw [record_journal, Journal.warnings_push_warning]
    exact h.dated.increasing.snoc fun v hv => by
      rw [hw, hspan]
      exact hwarnings v hv
  · rw [record_journal, Journal.warnings_push_warning, List.mem_append, List.mem_singleton] at hv
    rcases hv with hv | rfl
    · exact h.dated.passed v hv
    · rw [hw, hspan]
      exact hpassed
  · rw [record_buffer, step_buffer] at hlast
    rw [record_index, step_index] at hle
    omega

end Stream.Timely

/-- Streams stay timely. Where a run fails, the warnings are in order, and where the parser has
failed, the reader may be read on from. -/
def timelyAccount : Account where
  ok s s' := s.Timely → s'.Timely
  error s d s' := s.Timely →
    Increasing s'.reader.journal.warnings ∧ (d.stage = .parser → s'.reader.Dated)

lemma bears_timely {σ : Session} {s : Stream} {α : Type} {m : Parse α}
    (h : s.Timely → timelyAccount.Bears σ s m) : timelyAccount.Bears σ s m := by
  unfold Account.Bears at h ⊢
  cases hrun : m σ s with
  | ok a s' =>
    rw [hrun] at h
    exact fun hs => h hs hs
  | error d s' =>
    rw [hrun] at h
    exact fun hs => h hs hs

section Session

variable {σ : Session} (htoken : ∀ r, datesAccount.Bears r (Scan.token σ.embedded))
  (hforward : Scan.ForwardWithin σ.embedded)
include htoken hforward

lemma bears_peekAhead {s : Stream} {n : Nat} (hs : s.Timely)
    (hnear : s.buffer.size ≤ s.index + n → s.index + n = s.buffer.size ∧
      (s.buffer.size ≤ s.index ∨ s.buffer.size ≤ s.index + 1 ∧
        ∃ lexed, s.buffer[s.index]? = some lexed ∧ lexed.token.kind = .identifier)) :
    timelyAccount.Bears σ s (peekAhead n) := by
  unfold Account.Bears
  rw [peekAhead_apply]
  cases hbuffer : s.buffer[s.index + n]? with
  | some lexed => exact fun h => h
  | none =>
    obtain ⟨hsize, hplace⟩ := hnear (Array.getElem?_eq_none_iff.mp hbuffer)
    dsimp only
    rw [hsize, Nat.sub_self, scanPast]
    cases hrun : scanNext σ s with
    | ok t s' => exact fun _ => hs.scan htoken hforward hplace hrun
    | error d s' =>
      have hread := htoken s.reader
      unfold Scan.Account.Bears at hread
      rw [(token_of_scanNext_error hrun).1] at hread
      exact fun _ => hread hs.dated

lemma lawful_timelyAccount : timelyAccount.Lawful σ False where
  refl _ h := h
  trans h h' hs := h' (h hs)
  lose h h' hs := h' (h hs)
  fault _ _ _ hs := ⟨hs.dated.increasing, fun _ => hs.dated⟩
  peek s := bears_timely fun hs => by
    have hle := hs.index_le
    exact bears_peekAhead htoken hforward hs fun hsize => ⟨by omega, .inl (by omega)⟩
  peekPast {s lexed} hnext hname := bears_timely fun hs => by
    obtain ⟨hlt, -⟩ := Array.getElem?_eq_some_iff.mp hnext
    exact bears_peekAhead htoken hforward hs fun hsize =>
      ⟨by omega, .inr ⟨hsize, lexed, hnext, hname⟩⟩
  step hnext hs := hs.step hnext
  traced h hs := (h (hs.record_other rfl)).record_other rfl
  traced_error {s s' _ _ _ d} h hs := by
    obtain ⟨hincreasing, hdated⟩ := h (hs.record_other rfl)
    refine ⟨?_, fun hstage =>
      (hdated hstage).of_warnings (Nat.le_refl _) (Journal.warnings_push_other _ rfl)⟩
    rw [Stream.record_journal, Journal.warnings_push_other _ rfl]
    exact hincreasing
  warned body hnext hkind hs := hs.warned hnext (.inl hkind) rfl
  name := False.elim

lemma timelyAccount_names : timelyAccount.Lawful σ True :=
  lawful_of_refuses (lawful_timelyAccount htoken hforward) fun {s s₁} body h => by
    have hdated (hs : s.Timely) : s₁.reader.Dated := by
      rcases h with h | ⟨d, hstage, h⟩
      · exact (h hs).dated
      · exact (h hs).2 hstage
    have hpeek := lawful_datesAccount.peekAhead htoken 0 { s₁ with index := s.index }
    unfold Account.Bears at hpeek
    rw [refuseNext_apply, peek]
    cases hrun : peekAhead 0 σ { s₁ with index := s.index } with
    | error d s₂ =>
      rw [hrun] at hpeek
      exact fun hs => hpeek (hdated hs)
    | ok t s₂ =>
      rw [hrun] at hpeek
      exact fun hs => ⟨(hpeek (hdated hs)).increasing, fun _ => hpeek (hdated hs)⟩

end Session

/-! ## Template strings -/

/-- Behind the closing brace of an expression in a template string, all warnings so far have been
passed. -/
lemma Stream.Timely.resume {embedded : Option (Scan Expr)} {s : Stream} (h : s.Timely)
    (hfound : ∀ {k : Nat} {lexed}, s.buffer[k]? = some lexed → Stream.Found embedded lexed)
    (hbrace : s.resumeCursor.peek? = some '}') :
    ∀ w ∈ s.reader.journal.warnings, w.span.offset < (s.resumeCursor.drop 1).pos.offset := by
  intro w hw
  have hdrop : s.resumeCursor.pos.offset ≤ (s.resumeCursor.drop 1).pos.offset :=
    Cursor.Leads.offset_le ⟨_, s.resumeCursor.passes_drop 1⟩
  refine Nat.lt_of_lt_of_le ?_ hdrop
  unfold Stream.resumeCursor at hbrace ⊢
  cases hnext : s.buffer[s.index]? with
  | none => exact h.dated.passed w hw
  | some lexed =>
    simp only [hnext] at hbrace
    obtain ⟨rest, hrest⟩ := List.head?_eq_some_iff.mp hbrace
    obtain ⟨r, r', hcursor, htoken⟩ := hfound hnext
    rw [Scan.tokenHere_bracket embedded Scan.bracket?_brace (hcursor ▸ hrest),
      EStateM.Result.ok.injEq] at htoken
    have hkind : lexed.token.kind = .rightBrace := by rw [← htoken.1]
    exact (h.fresh hnext (.inr hkind)).2.warnings w hw

/-- Readers stay dated over the expressions in template strings, however deep they nest. -/
lemma datesAccount_embeddedExpression (depth : Nat) (r : Reader) :
    datesAccount.Bears r (Scan.embeddedExpression (embeddedReader .standard depth)) := by
  have hA := lawful_datesAccount
  induction depth generalizing r with
  | zero => exact .of_cursor (hA.raise (.front _ _) nofun)
  | succ depth ih =>
    have hforward := forwardWithin_embeddedReader depth
    refine .of_cursor (hA.bind (fun hr => hr.of_warnings (Nat.le_refl _)
      (Journal.warnings_push_other _ rfl)) fun _ r₁ _ => ?_)
    have hrun := Told.bears (m := expression .lowest)
      (timelyAccount_names (fun _ => hA.token (hA.behind ih)) hforward
        (σ := ⟨.standard, embeddedReader .standard depth, r₁.cursor.rest.length + 2⟩))
      (Stream.ofReader r₁)
    unfold Account.Bears at hrun
    unfold Scan.Account.Bears
    rw [Scan.bind_apply]
    cases hread : readEmbedded .standard (embeddedReader .standard depth) r₁ with
    | error d r₂ =>
      obtain ⟨s, hexpression, rfl⟩ := readEmbedded_eq_error hread
      rw [hexpression] at hrun
      exact fun hr => hrun (.ofReader hr)
    | ok e r₂ =>
      obtain ⟨s, hexpression, rfl⟩ := readEmbedded_eq_ok hread
      rw [hexpression] at hrun
      have hfrugal := Steady.keeps (m := expression .lowest) rfl
        (Stream.Frugal.invariant hforward r₁.cursor.rest.length) (.ofReader r₁) hexpression
      have hwarnings (place : Position) :
          Journal.warnings (s.reader.journal.push (.templateResumed place)) =
            s.reader.journal.warnings :=
        Journal.warnings_push_other _ rfl
      dsimp only
      rw [Scan.cursor_bind, Scan.bind_apply, Scan.record_apply]
      dsimp only
      by_cases hbrace : s.resumeCursor.peek? = some '}'
      · rw [if_pos hbrace]
        intro hr
        have hs : s.Timely := hrun (.ofReader hr)
        refine ⟨?_, fun w hw => hs.resume (hfrugal.found ·) hbrace w ?_⟩
        · exact (hwarnings _).symm ▸ hs.dated.increasing
        · exact hwarnings _ ▸ hw
      · rw [if_neg hbrace]
        intro hr
        have hs : s.Timely := hrun (.ofReader hr)
        exact ⟨(hwarnings _).symm ▸ hs.dated.increasing, fun hstage => by cases hstage⟩

/-! ## Sources -/

lemma Reader.Dated.ofText (source : List Char) : (Reader.ofText source).Dated where
  increasing := .nil
  passed w hw := by cases hw

lemma increasing_parse (source : String) : Increasing (parse source).warnings := by
  have htoken (r : Reader) := lawful_datesAccount.token (r := r)
    (lawful_datesAccount.behind (datesAccount_embeddedExpression source.toList.length))
  have hrun := Told.bears (m := program)
    (timelyAccount_names (σ := Session.ofText .standard source.toList) htoken
      (forwardWithin_embeddedReader source.toList.length))
    (Stream.ofReader (Reader.ofText source.toList))
  have hstart := Stream.Timely.ofReader (.ofText source.toList)
  unfold Account.Bears at hrun
  unfold Outcome.warnings parse
  dsimp only
  cases hprogram : program (Session.ofText .standard source.toList)
      (Stream.ofReader (Reader.ofText source.toList)) with
  | ok program s =>
    rw [hprogram] at hrun
    exact (hrun hstart).dated.increasing
  | error d s =>
    rw [hprogram] at hrun
    exact (hrun hstart).1

lemma increasing_tokenize (source : String) : Increasing (tokenize source).warnings := by
  have hrun := lawful_datesAccount.tokens (r := Reader.ofText source.toList)
    (lawful_datesAccount.behind (datesAccount_embeddedExpression source.toList.length))
    (source.toList.length + 1)
  unfold Scan.Account.Bears at hrun
  unfold Outcome.warnings tokenize
  dsimp only
  cases htokens : Scan.tokens (embeddedReader .standard source.toList.length)
      (source.toList.length + 1) (Reader.ofText source.toList) with
  | ok ts r =>
    rw [htokens] at hrun
    exact (hrun (.ofText source.toList)).increasing
  | error d r =>
    rw [htokens] at hrun
    exact (hrun (.ofText source.toList)).1

/-! ## Emitters -/

lemma CommandLine.flatMap_eventLines {log : Entry → List String} (hlog : ∀ e, log e = [])
    (traced : Bool) (report : Diagnostic → List String) (es : List Event) :
    es.flatMap (eventLines log traced report) =
      (es.filterMap Journal.warning?).flatMap report := by
  induction es with
  | nil => rfl
  | cons e es ih =>
    rw [List.flatMap_cons, ih, eventLines, hlog, ite_self]
    cases hwarning : Journal.warning? e <;> simp [hwarning]

/-- An emitter is told of the warnings of an outcome, in their order, as they are raised: after each
event of the run, it has been told of what is recorded so far, and what is recorded at the end are
the warnings of the outcome. They are what a command shows that logs nothing. -/
def Outcome.Relayed {α : Type} (o : Outcome α) : Prop :=
  (∀ (τ : Type) (emit : τ → Diagnostic → τ) (start : τ),
    (∀ n, (Handler.after emit start (o.journal.toList.take n)).emitted =
      (Handler.after emit start (o.journal.toList.take n)).recorded.foldl emit start) ∧
    (Handler.after emit start o.journal.toList).recorded = o.warnings) ∧
  ∀ (log : CommandLine.Entry → List String) (traced : Bool) (report : Diagnostic → List String),
    (∀ entry, log entry = []) →
      o.journal.toList.flatMap (CommandLine.eventLines log traced report) =
        o.warnings.flatMap report

lemma Outcome.relayed {α : Type} (o : Outcome α) : o.Relayed := by
  refine ⟨fun τ emit start => ⟨fun n => ?_, ?_⟩, fun log traced report hlog => ?_⟩
  · rw [Handler.after_eq]
  · rw [Handler.after_eq]
    rfl
  · exact CommandLine.flatMap_eventLines hlog traced report _

/-- Whether a source is parsed or tokenized, and whether that succeeds or fails, the warnings raised
on the way are about places in strictly increasing order, those of the scanner, of the expressions
in template strings and of the parser together. An emitter is told of the same warnings, in the same
order, as they are raised. -/
theorem warnings_increase (source : String) :
    (Increasing (parse source).warnings ∧ (parse source).Relayed) ∧
      Increasing (tokenize source).warnings ∧ (tokenize source).Relayed :=
  ⟨⟨increasing_parse source, Outcome.relayed _⟩, increasing_tokenize source, Outcome.relayed _⟩

/-- A keyword, a number in a template string and an escape are warned of, in this order. -/
example : (parse "class C \x7b private a: T = `$\x7b01\x7d\\$` \x7d").warnings.map (·.span.offset) =
    [10, 28, 31] := by
  decide +kernel

end FrontEnd
