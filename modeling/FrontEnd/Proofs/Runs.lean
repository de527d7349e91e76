import FrontEnd.Program
import Mathlib.Tactic.Lemma

/-!
# Runs of actions

What the actions of the token stream do, written out: the outcome of a sequence of actions, and of
looking at, consuming and selecting a token.
-/

namespace FrontEnd

lemma Outcome.eq_ok_of_map {α β : Type} {o : Outcome α} {f : α → β} {b : β}
    (h : o.result.toOption.map f = some b) : ∃ a, o.result = .ok a ∧ f a = b := by
  cases hresult : o.result with
  | error d => rw [hresult] at h; cases h
  | ok a => rw [hresult] at h; exact ⟨a, rfl, Option.some_inj.mp h⟩

lemma Outcome.eq_error_of_isNone {α : Type} {o : Outcome α}
    (h : o.result.toOption.isNone = true) : ∃ d, o.result = .error d := by
  cases hresult : o.result with
  | error d => exact ⟨d, rfl⟩
  | ok a => rw [hresult] at h; cases h

/-- The diagnostic of a failure. -/
def failure? {α : Type} : Except Diagnostic α → Option Diagnostic
  | .ok _ => none
  | .error d => some d

lemma eq_error_of_failure? {α β : Type} {e : Except Diagnostic α} {f : Diagnostic → β} {b : β}
    (h : (failure? e).map f = some b) : ∃ d, e = .error d ∧ f d = b := by
  cases e with
  | ok a => cases h
  | error d => exact ⟨d, rfl, Option.some_inj.mp h⟩

namespace Journal

lemma warnings_push_warning (j : Journal) (d : Diagnostic) :
    warnings (j.push (.warning d)) = j.warnings ++ [d] := by
  simp [warnings, warning?]

lemma warnings_push_other (j : Journal) {e : Event} (h : warning? e = none) :
    warnings (j.push e) = j.warnings := by
  simp [warnings, h]

end Journal

namespace Scan

variable {α β : Type}

lemma bind_apply (m : Scan α) (f : α → Scan β) (r : Reader) :
    (m >>= f) r =
      match m r with
      | .ok a r => f a r
      | .error d r => .error d r := by
  change EStateM.bind m f r = _
  unfold EStateM.bind
  cases m r <;> rfl

lemma bind_eq_ok {m : Scan α} {f : α → Scan β} {r r'' : Reader} {b : β}
    (h : (m >>= f) r = .ok b r'') : ∃ a r', m r = .ok a r' ∧ f a r' = .ok b r'' := by
  rw [bind_apply] at h
  cases hm : m r with
  | ok a r' => exact ⟨a, r', rfl, by rwa [hm] at h⟩
  | error d r' => rw [hm] at h; cases h

lemma cursor_apply (r : Reader) : cursor r = .ok r.cursor r := rfl

lemma pure_eq_ok {a b : α} {r r' : Reader} (h : (pure a : Scan α) r = .ok b r') :
    b = a ∧ r' = r := by
  cases h
  exact ⟨rfl, rfl⟩

end Scan

namespace Parse

variable {α β : Type}

lemma bind_apply (m : Parse α) (f : α → Parse β) (σ : Session) (s : Stream) :
    (m >>= f) σ s =
      match m σ s with
      | .ok a s => f a σ s
      | .error d s => .error d s := by
  change EStateM.bind (m σ) (fun a => f a σ) s = _
  unfold EStateM.bind
  cases m σ s <;> rfl

lemma bind_eq_ok {m : Parse α} {f : α → Parse β} {σ : Session} {s s'' : Stream} {b : β}
    (h : (m >>= f) σ s = .ok b s'') : ∃ a s', m σ s = .ok a s' ∧ f a σ s' = .ok b s'' := by
  rw [bind_apply] at h
  cases hm : m σ s with
  | ok a s' => exact ⟨a, s', rfl, by rwa [hm] at h⟩
  | error d s' => rw [hm] at h; cases h

lemma pure_eq_ok {a b : α} {σ : Session} {s s' : Stream}
    (h : (pure a : Parse α) σ s = .ok b s') : b = a ∧ s' = s := by
  cases h
  exact ⟨rfl, rfl⟩

lemma map_apply (f : α → β) (m : Parse α) (σ : Session) (s : Stream) :
    (f <$> m) σ s =
      match m σ s with
      | .ok a s => .ok (f a) s
      | .error d s => .error d s := by
  change EStateM.map f (m σ) s = _
  unfold EStateM.map
  cases m σ s <;> rfl

lemma read_apply (σ : Session) (s : Stream) : (read : Parse Session) σ s = .ok σ s := rfl

lemma modify_apply (f : Stream → Stream) (σ : Session) (s : Stream) :
    (modify f : Parse Unit) σ s = .ok () (f s) := rfl

lemma discard_eq (m : Parse α) : discard m = m >>= fun _ => pure () := rfl

end Parse

namespace Stream

/-- The stream with one more token consumed. -/
def step (s : Stream) : Stream :=
  { s with index := s.index + 1 }

@[simp] lemma step_index (s : Stream) : s.step.index = s.index + 1 := rfl

@[simp] lemma step_buffer (s : Stream) : s.step.buffer = s.buffer := rfl

@[simp] lemma step_reader (s : Stream) : s.step.reader = s.reader := rfl

@[simp] lemma record_index (s : Stream) (e : Event) : (s.record e).index = s.index := rfl

@[simp] lemma record_buffer (s : Stream) (e : Event) : (s.record e).buffer = s.buffer := rfl

@[simp] lemma record_journal (s : Stream) (e : Event) :
    (s.record e).reader.journal = s.reader.journal.push e := rfl

end Stream

namespace Parse

variable {α : Type} {σ : Session} {s s' : Stream} {t : Token}

lemma scanNext_apply (σ : Session) (s : Stream) :
    scanNext σ s =
      match Scan.skipGap s.reader with
      | .error d r => .error d { s with reader := r }
      | .ok _ r =>
        match Scan.tokenHere σ.embedded r with
        | .error d r => .error d { s with reader := r }
        | .ok t r' => .ok t ⟨r', s.buffer.push ⟨t, r.cursor⟩, s.index⟩ := by
  simp only [scanNext, scanning, bind_apply]
  cases Scan.skipGap s.reader with
  | error d r => rfl
  | ok _ r =>
    simp only [Scan.cursor_apply, read_apply]
    cases Scan.tokenHere σ.embedded r with
    | error d r => rfl
    | ok t r' => rfl

lemma scanNext_eq_ok (h : scanNext σ s = .ok t s') :
    ∃ r, Scan.skipGap s.reader = .ok () r ∧ Scan.tokenHere σ.embedded r = .ok t s'.reader ∧
      s'.buffer = s.buffer.push ⟨t, r.cursor⟩ ∧ s'.index = s.index := by
  rw [scanNext_apply] at h
  cases hgap : Scan.skipGap s.reader with
  | error d r => simp [hgap] at h
  | ok u r =>
    cases htoken : Scan.tokenHere σ.embedded r with
    | error d r => simp [hgap, htoken] at h
    | ok t' r' =>
      simp only [hgap, htoken, EStateM.Result.ok.injEq] at h
      obtain ⟨rfl, rfl⟩ := h
      exact ⟨r, rfl, htoken, rfl, rfl⟩

lemma token_of_scanNext (h : scanNext σ s = .ok t s') :
    Scan.token σ.embedded s.reader = .ok t s'.reader := by
  obtain ⟨r, hgap, htoken, -, -⟩ := scanNext_eq_ok h
  rw [Scan.token, Scan.bind_apply, hgap]
  exact htoken

lemma token_of_scanNext_error {d : Diagnostic} (h : scanNext σ s = .error d s') :
    Scan.token σ.embedded s.reader = .error d s'.reader ∧ s'.buffer = s.buffer ∧
      s'.index = s.index := by
  rw [scanNext_apply] at h
  rw [Scan.token, Scan.bind_apply]
  cases hgap : Scan.skipGap s.reader with
  | error d₁ r =>
    rw [hgap] at h
    cases h
    exact ⟨rfl, rfl, rfl⟩
  | ok u r =>
    simp only [hgap] at h
    dsimp only
    cases htoken : Scan.tokenHere σ.embedded r with
    | ok t r' => rw [htoken] at h; cases h
    | error d₁ r' =>
      rw [htoken] at h
      cases h
      exact ⟨rfl, rfl, rfl⟩

lemma scanPast_succ_apply (n : Nat) (σ : Session) (s : Stream) :
    scanPast (n + 1) σ s =
      match scanNext σ s with
      | .ok _ s => scanPast n σ s
      | .error d s => .error d s := by
  rw [scanPast, discard_eq, bind_apply, bind_apply]
  cases scanNext σ s <;> rfl

lemma scanPast_eq_ok {n : Nat} (h : scanPast n σ s = .ok t s') :
    s'.index = s.index ∧ s'.buffer.size = s.buffer.size + n + 1 ∧
      ∃ lexed, s'.buffer[s.buffer.size + n]? = some lexed ∧ lexed.token = t := by
  induction n generalizing s with
  | zero =>
    obtain ⟨r, -, -, hbuffer, hindex⟩ := scanNext_eq_ok h
    refine ⟨hindex, by simp [hbuffer], ⟨t, r.cursor⟩, ?_, rfl⟩
    simp [hbuffer]
  | succ n ih =>
    rw [scanPast, discard_eq] at h
    obtain ⟨_, s₁, hdiscard, hrest⟩ := bind_eq_ok h
    obtain ⟨t₁, s₂, hscan, hpure⟩ := bind_eq_ok hdiscard
    obtain ⟨-, rfl⟩ := pure_eq_ok hpure
    obtain ⟨r, -, -, hbuffer, hindex⟩ := scanNext_eq_ok hscan
    have hsize : s₁.buffer.size = s.buffer.size + 1 := by simp [hbuffer]
    obtain ⟨hindex', hsize', lexed, hlexed, htoken⟩ := ih hrest
    refine ⟨hindex'.trans hindex, by omega, lexed, ?_, htoken⟩
    rw [← hlexed, hsize]
    congr 1
    omega

lemma peekAhead_apply (n : Nat) (σ : Session) (s : Stream) :
    peekAhead n σ s =
      match s.buffer[s.index + n]? with
      | some lexed => .ok lexed.token s
      | none => scanPast (s.index + n - s.buffer.size) σ s := by
  change (match s.buffer[s.index + n]? with
    | some lexed => (pure lexed.token : Parse Token)
    | none => scanPast (s.index + n - s.buffer.size)) σ s = _
  cases s.buffer[s.index + n]? <;> rfl

lemma peekAhead_eq_ok {n : Nat} (h : peekAhead n σ s = .ok t s') :
    s'.index = s.index ∧ ∃ lexed, s'.buffer[s'.index + n]? = some lexed ∧ lexed.token = t := by
  rw [peekAhead_apply] at h
  cases hbuffer : s.buffer[s.index + n]? with
  | some lexed =>
    simp only [hbuffer, EStateM.Result.ok.injEq] at h
    obtain ⟨rfl, rfl⟩ := h
    exact ⟨rfl, lexed, hbuffer, rfl⟩
  | none =>
    simp only [hbuffer] at h
    obtain ⟨hindex, -, lexed, hlexed, htoken⟩ := scanPast_eq_ok h
    refine ⟨hindex, lexed, ?_, htoken⟩
    have hle : s.buffer.size ≤ s.index + n := by simpa using hbuffer
    rw [← hlexed, hindex]
    congr 1
    omega

lemma scanPast_buffer {n i : Nat} {lexed : Lexed} (h : scanPast n σ s = .ok t s')
    (hi : s.buffer[i]? = some lexed) : s'.buffer[i]? = some lexed := by
  have hscan : ∀ {s s' : Stream} {t}, scanNext σ s = .ok t s' → s.buffer[i]? = some lexed →
      s'.buffer[i]? = some lexed := by
    intro s s' t h hi
    obtain ⟨r, -, -, hbuffer, -⟩ := scanNext_eq_ok h
    obtain ⟨hlt, -⟩ := Array.getElem?_eq_some_iff.mp hi
    rw [hbuffer, Array.getElem?_push_lt hlt, ← hi, Array.getElem?_eq_getElem hlt]
  induction n generalizing s with
  | zero => exact hscan h hi
  | succ n ih =>
    rw [scanPast, discard_eq] at h
    obtain ⟨_, s₁, hdiscard, hrest⟩ := bind_eq_ok h
    obtain ⟨t₁, s₂, hnext, hpure⟩ := bind_eq_ok hdiscard
    obtain ⟨-, rfl⟩ := pure_eq_ok hpure
    exact ih hrest (hscan hnext hi)

lemma peekAhead_buffer {n i : Nat} {lexed : Lexed} (h : peekAhead n σ s = .ok t s')
    (hi : s.buffer[i]? = some lexed) : s'.buffer[i]? = some lexed := by
  rw [peekAhead_apply] at h
  cases hbuffer : s.buffer[s.index + n]? with
  | some _ => rw [hbuffer] at h; cases h; exact hi
  | none => rw [hbuffer] at h; exact scanPast_buffer h hi

lemma peek_eq_ok (h : peek σ s = .ok t s') :
    s'.index = s.index ∧ ∃ lexed, s'.buffer[s'.index]? = some lexed ∧ lexed.token = t :=
  peekAhead_eq_ok h

lemma peek_of_buffered {lexed : Lexed} (h : s.buffer[s.index]? = some lexed) :
    peek σ s = .ok lexed.token s := by
  rw [peek, peekAhead_apply, Nat.add_zero, h]

lemma peek_again (h : peek σ s = .ok t s') : peek σ s' = .ok t s' := by
  obtain ⟨-, lexed, hlexed, rfl⟩ := peek_eq_ok h
  exact peek_of_buffered hlexed

lemma next_apply (σ : Session) (s : Stream) :
    next σ s =
      match peek σ s with
      | .ok t s => .ok t s.step
      | .error d s => .error d s := by
  rw [next, bind_apply]
  cases peek σ s <;> rfl

lemma takeIf_apply (select : Token → Option α) (σ : Session) (s : Stream) :
    takeIf select σ s =
      match peek σ s with
      | .ok t s =>
        match select t with
        | some a => .ok (some a) s.step
        | none => .ok none s
      | .error d s => .error d s := by
  rw [takeIf, bind_apply]
  cases hpeek : peek σ s with
  | error d s => rfl
  | ok t s₁ =>
    dsimp only
    cases select t with
    | none => rfl
    | some a =>
      simp only [discard_eq, bind_apply, next_apply, peek_again hpeek]
      rfl

lemma accept_apply (select : Token → Option α) (refusal : Token → Diagnostic) (σ : Session)
    (s : Stream) :
    accept select refusal σ s =
      match peek σ s with
      | .ok t s =>
        match select t with
        | some a => .ok a s.step
        | none => .error (refusal t) s.step
      | .error d s => .error d s := by
  rw [accept, bind_apply, next_apply]
  cases peek σ s with
  | error d s => rfl
  | ok t s => dsimp only; cases select t <;> rfl

lemma refuseNext_apply (code : Code) (message : String) (σ : Session) (s : Stream) :
    (refuseNext code message : Parse α) σ s =
      match peek σ s with
      | .ok t s => .error (Diagnostic.grammatical code t.span message) s.step
      | .error d s => .error d s := by
  rw [refuseNext, bind_apply, next_apply]
  cases peek σ s <;> rfl

/-- Whether an action succeeds. -/
def succeeds (m : Parse α) (σ : Session) (s : Stream) : Bool :=
  match m σ s with
  | .ok .. => true
  | .error .. => false

lemma eq_ok_of_succeeds {m : Parse α} (h : m.succeeds σ s = true) :
    ∃ a s', m σ s = .ok a s' := by
  unfold succeeds at h
  split at h
  · next a s' hrun => exact ⟨a, s', hrun⟩
  · cases h

lemma eq_error_of_succeeds {m : Parse α} (h : m.succeeds σ s = false) :
    ∃ d s', m σ s = .error d s' := by
  unfold succeeds at h
  split at h
  · cases h
  · next d s' hrun => exact ⟨d, s', hrun⟩

/-- What is seen of the value and the stream that an action comes to, if it succeeds. -/
def observe {β : Type} (see : α → Stream → β) (m : Parse α) (σ : Session) (s : Stream) : Option β :=
  match m σ s with
  | .ok a s => some (see a s)
  | .error .. => none

lemma eq_ok_of_observe {β : Type} {see : α → Stream → β} {m : Parse α} {b : β}
    (h : m.observe see σ s = some b) : ∃ a s', m σ s = .ok a s' ∧ see a s' = b := by
  unfold observe at h
  split at h
  · next a s' hrun => exact ⟨a, s', hrun, Option.some_inj.mp h⟩
  · cases h

lemma refuseNext_ne_ok (code : Code) (message : String) {a : α} :
    (refuseNext code message : Parse α) σ s ≠ .ok a s' := by
  rw [refuseNext_apply]
  intro h
  cases hpeek : peek σ s <;> rw [hpeek] at h <;> cases h

lemma spanFrom_apply (start : Span) (σ : Session) (s : Stream) :
    spanFrom start σ s = .ok (start.merge s.previousSpan) s := rfl

lemma eat_bind {β : Type} (kind : TokenKind) (f : Bool → Parse β) :
    eat kind >>= f = takeIf (Token.ofKind? kind) >>= fun o => f o.isSome := by
  simp only [eat, take?, bind_assoc, pure_bind]

lemma traced_apply (production : String) (token : Token) (m : Parse α) (σ : Session) (s : Stream) :
    traced production token m σ s =
      match m σ (s.record (.enter production token.lexeme token.span)) with
      | .ok a s => .ok a (s.record (.leave production true))
      | .error d s => .error d (s.record (.leave production false)) := rfl

lemma nextIs_apply (kind : TokenKind) (σ : Session) (s : Stream) :
    nextIs kind σ s =
      match peek σ s with
      | .ok t s => .ok (t.kind == kind) s
      | .error d s => .error d s := by
  rw [nextIs, peekKind, bind_apply, bind_apply]
  cases peek σ s <;> rfl

/-- The name of an argument is there if an identifier and a colon come next. -/
lemma argumentName_apply (σ : Session) (s : Stream) :
    Production.argumentName σ s =
      match peek σ s with
      | .error d s => .error d s
      | .ok t s =>
        if t.kind = .identifier then
          match peekAhead 1 σ s with
          | .error d s => .error d s
          | .ok t' s => if t'.kind = .colon then .ok (some t.ident) s.step.step else .ok none s
        else .ok none s := by
  rw [Production.argumentName, bind_apply, nextIs_apply]
  cases hpeek : peek σ s with
  | error d s₁ => rfl
  | ok t s₁ =>
    obtain ⟨-, lexed, hlexed, rfl⟩ := peek_eq_ok hpeek
    dsimp only
    by_cases hname : lexed.token.kind = .identifier
    · simp only [hname, beq_self_eq_true, if_true, bind_apply]
      cases hahead : peekAhead 1 σ s₁ with
      | error d s₂ => rfl
      | ok t' s₂ =>
        obtain ⟨hindex, lexed', hlexed', rfl⟩ := peekAhead_eq_ok hahead
        have hfirst : s₂.buffer[s₂.index]? = some lexed := by
          rw [hindex]
          exact peekAhead_buffer hahead hlexed
        have hsecond : s₂.step.buffer[s₂.step.index]? = some lexed' := hlexed'
        dsimp only
        by_cases hcolon : lexed'.token.kind = .colon
        · simp only [hcolon, if_true, bind_apply, next_apply, peek_of_buffered hfirst,
            discard_eq, peek_of_buffered hsecond]
          rfl
        · simp only [hcolon, if_false]
          rfl
    · have hne : (lexed.token.kind == TokenKind.identifier) = false := by simpa using hname
      simp only [hne, hname, if_false]
      rfl

end Parse

end FrontEnd
