import FrontEnd.Proofs.Lexemes
import FrontEnd.Proofs.SteadyProductions

/-!
# Progress of a stream

A production that succeeds leaves the tokens of the stream where they are, adds new ones behind
them, and moves on over the source. So an expression in a template string, which is read with a
stream of its own, is followed by the rest of the template string.
-/

namespace FrontEnd

open Parse

namespace Stream

/-- What becomes of a stream: consumed tokens stay consumed, the buffer and the journal grow at
their ends, and the tokens that are added stand further on in the source. -/
structure Precedes (s s' : Stream) : Prop where
  index_le : s.index ≤ s'.index
  kept : ∀ {k : Nat} {lexed}, s.buffer[k]? = some lexed → s'.buffer[k]? = some lexed
  later : ∀ {k : Nat} {lexed}, s.buffer[k]? = none → s'.buffer[k]? = some lexed →
    s.reader.cursor.Leads lexed.start
  leads : s.reader.cursor.Leads s'.reader.cursor
  records : s.reader.journal.toList <+: s'.reader.journal.toList

namespace Precedes

variable {s s' s'' : Stream}

lemma refl (s : Stream) : s.Precedes s where
  index_le := Nat.le_refl _
  kept h := h
  later hnone hsome := by rw [hnone] at hsome; cases hsome
  leads := Cursor.Leads.refl _
  records := List.prefix_rfl

lemma trans (h : s.Precedes s') (h' : s'.Precedes s'') : s.Precedes s'' where
  index_le := Nat.le_trans h.index_le h'.index_le
  kept hk := h'.kept (h.kept hk)
  later {k lexed} hnone hsome := by
    cases hk : s'.buffer[k]? with
    | none => exact h.leads.trans (h'.later hk hsome)
    | some lexed' =>
      obtain rfl : lexed' = lexed := Option.some_inj.mp ((h'.kept hk).symm.trans hsome)
      exact h.later hnone hk
  leads := h.leads.trans h'.leads
  records := h.records.trans h'.records

lemma step (s : Stream) : s.Precedes s.step where
  index_le := Nat.le_succ _
  kept h := h
  later hnone hsome := by
    rw [Stream.step_buffer, hnone] at hsome
    cases hsome
  leads := Cursor.Leads.refl _
  records := List.prefix_rfl

lemma record (s : Stream) (e : Event) : s.Precedes (s.record e) where
  index_le := Nat.le_refl _
  kept h := h
  later hnone hsome := by
    rw [Stream.record_buffer, hnone] at hsome
    cases hsome
  leads := Cursor.Leads.refl _
  records := ⟨[e], (Array.toList_push ..).symm⟩

lemma scan {σ : Session} (hforward : Scan.ForwardWithin σ.embedded) {t : Token}
    (h : scanNext σ s = .ok t s') : s.Precedes s' := by
  obtain ⟨r, hgap, htoken, hbuffer, hindex⟩ := scanNext_eq_ok h
  have hstart : s.reader.cursor.Leads r.cursor := Scan.Forward.leads hgap
  have hread := Scan.forward_tokenHere hforward
  refine ⟨Nat.le_of_eq hindex.symm, fun {k lexed} hk => ?_, fun {k lexed} hnone hsome => ?_,
    hstart.trans (hread.leads htoken),
    (Scan.Forward.records hgap).trans (hread.records htoken)⟩
  · obtain ⟨hlt, -⟩ := Array.getElem?_eq_some_iff.mp hk
    rw [hbuffer, Array.getElem?_push_lt hlt, ← hk, Array.getElem?_eq_getElem hlt]
  · have hle : s.buffer.size ≤ k := Array.getElem?_eq_none_iff.mp hnone
    rw [hbuffer, Array.getElem?_push] at hsome
    split at hsome
    · cases hsome
      exact hstart
    · rw [hnone] at hsome
      cases hsome

lemma invariant {σ : Session} (hforward : Scan.ForwardWithin σ.embedded) (s : Stream) :
    Stream.Invariant σ (s.Precedes ·) where
  scan h hscan := h.trans (scan hforward hscan)
  step h _ _ := h.trans (step _)
  record _ h := h.trans (record _ _)

end Precedes

end Stream

variable {α : Type} {σ : Session} {s s' : Stream} {a : α}

lemma Steady.precedes (m : Parse α) [Steady m] (hσ : σ.grammar = .standard)
    (hforward : Scan.ForwardWithin σ.embedded) (h : m σ s = .ok a s') : s.Precedes s' :=
  keeps hσ (Stream.Precedes.invariant hforward s) (.refl s) h

/-! ## Counting tokens -/

namespace Stream

/-- A buffered token is what the scanner finds at its start. -/
def Found (embedded : Option (Scan Expr)) (lexed : Lexed) : Prop :=
  ∃ r r', r.cursor = lexed.start ∧ Scan.tokenHere embedded r = .ok lexed.token r'

/-- Each token that begins before the end of a text takes up a character of it, and no other token
is consumed. -/
structure Frugal (embedded : Option (Scan Expr)) (width : Nat) (s : Stream) : Prop where
  ahead : s.reader.cursor.rest ≠ [] → s.buffer.size + s.reader.cursor.rest.length ≤ width
  narrow : ∀ {k : Nat} {lexed}, s.buffer[k]? = some lexed → lexed.start.rest ≠ [] →
    k + lexed.start.rest.length ≤ width
  found : ∀ {k : Nat} {lexed}, s.buffer[k]? = some lexed → Found embedded lexed
  consumed : ∀ {k : Nat}, k < s.index → ∃ lexed, s.buffer[k]? = some lexed ∧ lexed.start.rest ≠ []

lemma Found.isEnd {embedded : Option (Scan Expr)} {lexed : Lexed} (h : Found embedded lexed)
    (hnil : lexed.start.rest = []) : lexed.token.isEnd = true := by
  obtain ⟨r, r', hcursor, htoken⟩ := h
  rw [Scan.tokenHere_at_end _ (hcursor ▸ hnil), EStateM.Result.ok.injEq] at htoken
  rw [← htoken.1]
  rfl

lemma Found.rest_eq_nil {embedded : Option (Scan Expr)} {lexed : Lexed}
    (h : Found embedded lexed) (hembedded : Scan.ForwardWithin embedded)
    (hend : lexed.token.isEnd = true) : lexed.start.rest = [] := by
  obtain ⟨r, r', hcursor, htoken⟩ := h
  rw [← hcursor]
  by_cases hnil : r.cursor.rest = []
  · exact hnil
  · obtain ⟨text, hcovers⟩ := Scan.tokenHere_covers hembedded hnil htoken
    rw [hcovers.inside] at hend
    cases hend

namespace Frugal

variable {embedded : Option (Scan Expr)} {width : Nat} {s s' : Stream}

lemma ofReader (r : Reader) : (Stream.ofReader r).Frugal embedded r.cursor.rest.length where
  ahead _ := by simp [Stream.ofReader]
  narrow hk := by simp [Stream.ofReader] at hk
  found hk := by simp [Stream.ofReader] at hk
  consumed hk := absurd hk (Nat.not_lt_zero _)

lemma scan {σ : Session} (hforward : Scan.ForwardWithin σ.embedded) {t : Token}
    (h : s.Frugal σ.embedded width) (hscan : scanNext σ s = .ok t s') :
    s'.Frugal σ.embedded width := by
  obtain ⟨r, hgap, htoken, hbuffer, hindex⟩ := scanNext_eq_ok hscan
  have hstart := (Scan.Forward.leads hgap).length_le
  have hread := Scan.forward_tokenHere hforward
  have hend := (hread.leads htoken).length_le
  have hahead (hne : r.cursor.rest ≠ []) : s.buffer.size + r.cursor.rest.length ≤ width := by
    have hpos := List.length_pos_iff.mpr hne
    have hle := h.ahead (List.length_pos_iff.mp (by omega))
    omega
  have hcases {k : Nat} {lexed : Lexed} (hk : s'.buffer[k]? = some lexed) :
      s.buffer[k]? = some lexed ∨ k = s.buffer.size ∧ lexed = ⟨t, r.cursor⟩ := by
    rw [hbuffer, Array.getElem?_push] at hk
    split at hk
    · exact .inr ⟨‹_›, (Option.some_inj.mp hk).symm⟩
    · exact .inl hk
  refine ⟨fun hne => ?_, fun hk hne => ?_, fun hk => ?_, fun hk => ?_⟩
  · have hpos := List.length_pos_iff.mpr hne
    have hne' : r.cursor.rest ≠ [] := List.length_pos_iff.mp (by omega)
    have hlt := Scan.Shortens.tokenHere hforward hne' t s'.reader htoken
    have hle := hahead hne'
    rw [hbuffer, Array.size_push]
    omega
  · rcases hcases hk with hk | ⟨rfl, rfl⟩
    · exact h.narrow hk hne
    · exact hahead hne
  · rcases hcases hk with hk | ⟨rfl, rfl⟩
    · exact h.found hk
    · exact ⟨r, s'.reader, rfl, htoken⟩
  · obtain ⟨lexed, hlexed, hne⟩ := h.consumed (hindex ▸ hk)
    obtain ⟨hlt, -⟩ := Array.getElem?_eq_some_iff.mp hlexed
    refine ⟨lexed, ?_, hne⟩
    rw [hbuffer, Array.getElem?_push_lt hlt, ← hlexed, Array.getElem?_eq_getElem hlt]

lemma step (h : s.Frugal embedded width) {lexed : Lexed} (hnext : s.buffer[s.index]? = some lexed)
    (hinner : lexed.token.isEnd = false) : s.step.Frugal embedded width where
  ahead := h.ahead
  narrow := h.narrow
  found := h.found
  consumed {k} hk := by
    rcases Nat.lt_succ_iff_lt_or_eq.mp hk with hlt | rfl
    · exact h.consumed hlt
    · refine ⟨lexed, hnext, fun hnil => ?_⟩
      rw [(h.found hnext).isEnd hnil] at hinner
      cases hinner

lemma invariant {σ : Session} (hforward : Scan.ForwardWithin σ.embedded) (width : Nat) :
    Stream.Invariant σ (Frugal σ.embedded width) where
  scan h hscan := h.scan hforward hscan
  step h hnext hinner := h.step hnext hinner
  record _ h := ⟨h.ahead, h.narrow, h.found, h.consumed⟩

lemma index_le (h : s.Frugal embedded width) {next : Lexed}
    (hnext : s.buffer[s.index]? = some next) :
    s.index + next.start.rest.length ≤ width := by
  by_cases hnil : next.start.rest = []
  · rw [hnil, List.length_nil, Nat.add_zero]
    cases hindex : s.index with
    | zero => exact Nat.zero_le _
    | succ k =>
      obtain ⟨lexed, hlexed, hne⟩ := h.consumed (show k < s.index by omega)
      have hpos := List.length_pos_iff.mpr hne
      have hle := h.narrow hlexed hne
      omega
  · exact h.narrow hnext hnil

end Frugal

end Stream

/-! ## Expressions in template strings -/

namespace Stream

lemma Precedes.leads_resumeCursor {r : Reader} (h : (ofReader r).Precedes s) :
    r.cursor.Leads s.resumeCursor := by
  unfold resumeCursor
  cases hnext : s.buffer[s.index]? with
  | none => exact h.leads
  | some lexed => exact h.later rfl hnext

end Stream

lemma readEmbedded_eq_ok {inner : Option (Scan Expr)} {r r' : Reader} {e : Expr}
    (h : readEmbedded .standard inner r = .ok e r') :
    ∃ s, Production.expression .lowest ⟨.standard, inner, r.cursor.rest.length + 2⟩
        (Stream.ofReader r) = .ok e s ∧
      r' = { s.reader with cursor := s.resumeCursor } := by
  unfold readEmbedded at h
  cases hrun : Production.expression .lowest ⟨.standard, inner, r.cursor.rest.length + 2⟩
      (Stream.ofReader r) with
  | error d s => simp [hrun] at h
  | ok e' s =>
    simp only [hrun, EStateM.Result.ok.injEq] at h
    obtain ⟨rfl, rfl⟩ := h
    exact ⟨s, rfl, rfl⟩

lemma readEmbedded_of_ok {inner : Option (Scan Expr)} {r : Reader} {e : Expr}
    (h : Production.expression .lowest ⟨.standard, inner, r.cursor.rest.length + 2⟩
      (Stream.ofReader r) = .ok e s) :
    readEmbedded .standard inner r = .ok e { s.reader with cursor := s.resumeCursor } := by
  unfold readEmbedded
  dsimp only
  rw [h]

lemma readEmbedded_eq_error {inner : Option (Scan Expr)} {r r' : Reader} {d : Diagnostic}
    (h : readEmbedded .standard inner r = .error d r') :
    ∃ s, Production.expression .lowest ⟨.standard, inner, r.cursor.rest.length + 2⟩
        (Stream.ofReader r) = .error d s ∧ r' = s.reader := by
  unfold readEmbedded at h
  cases hrun : Production.expression .lowest ⟨.standard, inner, r.cursor.rest.length + 2⟩
      (Stream.ofReader r) with
  | ok e s => simp [hrun] at h
  | error d' s =>
    simp only [hrun, EStateM.Result.error.injEq] at h
    obtain ⟨rfl, rfl⟩ := h
    exact ⟨s, rfl, rfl⟩

lemma forwardWithin_embeddedReader (depth : Nat) :
    Scan.ForwardWithin (embeddedReader .standard depth) := by
  induction depth with
  | zero => intro read hread; cases hread
  | succ depth ih =>
    rintro _ ⟨⟩
    refine ⟨fun {r e r'} h => ?_, fun {r e r'} h => ?_⟩
    · obtain ⟨s, hrun, rfl⟩ := readEmbedded_eq_ok h
      exact (Steady.precedes _ rfl ih hrun).leads_resumeCursor
    · obtain ⟨s, hrun, rfl⟩ := readEmbedded_eq_ok h
      exact (Steady.precedes _ rfl ih hrun).records

end FrontEnd
