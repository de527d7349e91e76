import FrontEnd.Proofs.Setting

/-!
# The answers of a token stream

A token stream scans tokens when they are first looked at, keeps them, and goes back over them.
Whoever asks it sees nothing of this: until the source turns out to be faulty, the answers are
those of a plain reading place on the sequence of all tokens, and each token is scanned once.
-/

namespace FrontEnd

open Parse

namespace Scan

/-- Reads some tokens one after the other. -/
def take (embedded : Option (Scan Expr)) : Nat → Scan (List Token)
  | 0 => pure []
  | n + 1 => do
    let ts ← take embedded n
    let t ← token embedded
    return ts ++ [t]

end Scan

/-- The token at a place of the sequence that is read off a source, or the first failure on the way
there. -/
def Reader.sequence (embedded : Option (Scan Expr)) (start : Reader) (n : Nat) :
    Except Diagnostic Token :=
  match (Scan.take embedded n >>= fun _ => Scan.token embedded) start with
  | .ok t _ => .ok t
  | .error d _ => .error d

/-! ## The sequence of tokens -/

namespace Scan

variable {embedded : Option (Scan Expr)} {start r r' : Reader} {ts : List Token} {t : Token}
variable {d : Diagnostic} {m n : Nat}

lemma take_succ (embedded : Option (Scan Expr)) (n : Nat) (start : Reader) :
    take embedded (n + 1) start =
      match take embedded n start with
      | .error d r => .error d r
      | .ok ts r =>
        match token embedded r with
        | .error d r => .error d r
        | .ok t r => .ok (ts ++ [t]) r := by
  rw [take, bind_apply]
  cases take embedded n start with
  | error d r => rfl
  | ok ts r =>
    dsimp only
    rw [bind_apply]
    cases token embedded r <;> rfl

lemma take_succ_of_ok (h : take embedded n start = .ok ts r) (ht : token embedded r = .ok t r') :
    take embedded (n + 1) start = .ok (ts ++ [t]) r' := by
  rw [take_succ, h]
  dsimp only
  rw [ht]

lemma take_succ_of_error (h : take embedded n start = .ok ts r)
    (ht : token embedded r = .error d r') : take embedded (n + 1) start = .error d r' := by
  rw [take_succ, h]
  dsimp only
  rw [ht]

lemma take_succ_eq_ok (h : take embedded (n + 1) start = .ok ts r') :
    ∃ us r t, take embedded n start = .ok us r ∧ token embedded r = .ok t r' ∧ ts = us ++ [t] := by
  obtain ⟨us, r, hus, hrest⟩ := bind_eq_ok h
  obtain ⟨t, r₁, ht, hpure⟩ := bind_eq_ok hrest
  obtain ⟨rfl, rfl⟩ := pure_eq_ok hpure
  exact ⟨us, r, t, hus, ht, rfl⟩

lemma length_of_take (h : take embedded n start = .ok ts r) : ts.length = n := by
  induction n generalizing ts r with
  | zero =>
    obtain ⟨rfl, -⟩ := pure_eq_ok h
    rfl
  | succ n ih =>
    obtain ⟨us, r₁, t, hus, -, rfl⟩ := take_succ_eq_ok h
    rw [List.length_append, ih hus, List.length_singleton]

lemma take_error_of_le (h : take embedded m start = .error d r) (hle : m ≤ n) :
    take embedded n start = .error d r := by
  induction hle with
  | refl => exact h
  | step _ ih => rw [take_succ, ih]

lemma sequence_eq (h : take embedded n start = .ok ts r) :
    start.sequence embedded n =
      match token embedded r with
      | .ok t _ => .ok t
      | .error d _ => .error d := by
  rw [Reader.sequence, bind_apply, h]

lemma sequence_of_take (h : take embedded m start = .ok ts r) (ht : ts[n]? = some t) :
    start.sequence embedded n = .ok t := by
  induction m generalizing ts r with
  | zero =>
    obtain ⟨rfl, -⟩ := pure_eq_ok h
    cases ht
  | succ m ih =>
    obtain ⟨us, r₁, u, hus, hu, rfl⟩ := take_succ_eq_ok h
    rw [List.getElem?_append] at ht
    split at ht
    · exact ih hus ht
    · next hle =>
      rw [length_of_take hus] at hle ht
      obtain ⟨hlt, rfl⟩ := List.getElem?_eq_some_iff.mp ht
      obtain rfl : n = m := by
        rw [List.length_singleton] at hlt
        omega
      rw [sequence_eq hus, hu]
      simp

lemma sequence_of_take_error (h : take embedded m start = .error d r) (hle : m ≤ n + 1) :
    start.sequence embedded n = .error d := by
  rw [Reader.sequence, bind_apply]
  have hnext := take_error_of_le h hle
  rw [take_succ] at hnext
  cases hn : take embedded n start with
  | error d₁ r₁ =>
    simp only [hn, EStateM.Result.error.injEq] at hnext
    rw [hnext.1]
  | ok ts r₁ =>
    simp only [hn] at hnext
    dsimp only
    cases ht : token embedded r₁ with
    | ok t r₂ => rw [ht] at hnext; cases hnext
    | error d₂ r₂ =>
      rw [ht] at hnext
      cases hnext
      rfl

lemma take_succ_first (h : token embedded start = .ok t r) (n : Nat) :
    take embedded (n + 1) start =
      match take embedded n r with
      | .ok ts r => .ok (t :: ts) r
      | .error d r => .error d r := by
  induction n with
  | zero => exact take_succ_of_ok (rfl : take embedded 0 start = .ok [] start) h
  | succ n ih =>
    rw [take_succ, ih, take_succ embedded n r]
    cases take embedded n r with
    | error d r₁ => rfl
    | ok ts r₁ =>
      dsimp only
      cases token embedded r₁ <;> rfl

lemma token_again (h : token embedded r = .ok t r') (hend : t.isEnd = true) :
    token embedded r' = .ok t r' := by
  obtain ⟨_, r₁, -, hhere⟩ := bind_eq_ok h
  have hnil : r₁.cursor.rest = [] := by
    refine Classical.byContradiction fun hne => ?_
    have hinside := ((Makes.tokenHere embedded hne).made hhere).2.2.inside
    rw [hend] at hinside
    cases hinside
  have hmade := tokenHere_at_end embedded hnil
  rw [hhere, EStateM.Result.ok.injEq] at hmade
  obtain ⟨-, rfl⟩ := hmade
  have hgap : skipGap r' = .ok () r' := by
    obtain ⟨⟨_, pos⟩, journal⟩ := r'
    cases hnil
    rfl
  rw [token, bind_apply, hgap]
  exact hhere

lemma tokens_eq_ok {fuel : Nat} (h : tokens embedded fuel start = .ok ts r) :
    ∃ r₁ last, take embedded ts.length start = .ok ts r₁ ∧ token embedded r₁ = .ok last r ∧
      last.isEnd = true := by
  induction fuel generalizing start ts with
  | zero => cases h
  | succ fuel ih =>
    unfold tokens at h
    obtain ⟨t, r₂, ht, hrest⟩ := bind_eq_ok h
    split at hrest
    · next hend =>
      obtain ⟨rfl, rfl⟩ := pure_eq_ok hrest
      exact ⟨start, t, rfl, ht, hend⟩
    · obtain ⟨us, r₃, hus, hpure⟩ := bind_eq_ok hrest
      obtain ⟨rfl, rfl⟩ := pure_eq_ok hpure
      obtain ⟨r₁, last, htake, hlast, hend⟩ := ih hus
      refine ⟨r₁, last, ?_, hlast, hend⟩
      rw [List.length_cons, take_succ_first ht, htake]

lemma sequence_of_tokens {fuel : Nat} (h : tokens embedded fuel start = .ok ts r) :
    ∃ last : Token, last.isEnd = true ∧
      ∀ n, start.sequence embedded n = .ok (ts[n]?.getD last) := by
  obtain ⟨r₁, last, htake, hlast, hend⟩ := tokens_eq_ok h
  refine ⟨last, hend, fun n => ?_⟩
  cases hn : ts[n]? with
  | some t => exact sequence_of_take htake hn
  | none =>
    have hmore : ∃ us, take embedded (n + 1) start = .ok us r ∧ us[n]? = some last := by
      have hle := List.getElem?_eq_none_iff.mp hn
      clear hn
      induction hle with
      | refl => exact ⟨_, take_succ_of_ok htake hlast, by simp⟩
      | step _ ih =>
        obtain ⟨us, hus, -⟩ := ih
        refine ⟨_, take_succ_of_ok hus (token_again hlast hend), ?_⟩
        have hlength := length_of_take hus
        rw [List.getElem?_append_right (by omega), hlength, Nat.sub_self]
        rfl
    obtain ⟨us, hus, hat⟩ := hmore
    exact sequence_of_take hus hat

end Scan

/-! ## Questions and answers -/

/-- What can be asked of a token stream. Places are counted from the next token on, and the marks
that are set are numbered. -/
inductive Call where
  | peekAhead (place : Nat)
  | peekKind
  | next
  | nextIs (kind : TokenKind)
  | eat (kind : TokenKind)
  | consume (kind : TokenKind) (context : String)
  | checkpoint
  | restore (mark : Nat)

/-- What a token stream says. -/
inductive Reply where
  | token (t : Token)
  | kind (kind : TokenKind)
  | truth (holds : Bool)
  | mark (index : Nat)
  | done
  | failure (d : Diagnostic)

/-- The mark that is set by an answer. -/
def Reply.marks : Reply → List Nat
  | .mark index => [index]
  | _ => []

namespace Call

/-- Puts a call to the stream, with the marks that have been set. Going back to a mark that has not
been set is staying. -/
def perform (marks : List Nat) : Call → Parse Reply
  | .peekAhead place => return .token (← Parse.peekAhead place)
  | .peekKind => return .kind (← Parse.peekKind)
  | .next => return .token (← Parse.next)
  | .nextIs kind => return .truth (← Parse.nextIs kind)
  | .eat kind => return .truth (← Parse.eat kind)
  | .consume kind context => return .token (← Parse.consume kind context)
  | .checkpoint => return .mark (← Parse.checkpoint)
  | .restore mark => do
    Parse.restore (marks[mark]?.getD (← Parse.checkpoint))
    return .done

/-- The answer to a call, and the stream behind it. -/
def ask (σ : Session) (marks : List Nat) (s : Stream) (call : Call) : Reply × Stream :=
  match call.perform marks σ s with
  | .ok reply s => (reply, s)
  | .error d s => (.failure d, s)

/-- The number of tokens that a call looks past. -/
def place : Call → Nat
  | .peekAhead place => place
  | .peekKind | .next | .nextIs _ | .eat _ | .consume .. | .checkpoint | .restore _ => 0

/-- What is said of the token that a call looks at, and how many tokens are consumed. Setting a mark
and going back to one look at no token. -/
def heard (t : Token) : Call → Reply × Nat
  | .peekAhead _ => (.token t, 0)
  | .peekKind => (.kind t.kind, 0)
  | .next => (.token t, 1)
  | .nextIs kind => (.truth (t.kind == kind), 0)
  | .eat kind => if t.kind = kind then (.truth true, 1) else (.truth false, 0)
  | .consume kind context =>
    if t.kind = kind then (.token t, 1) else (.failure (unexpected kind t context), 1)
  | .checkpoint | .restore _ => (.done, 0)

/-- The answer to a call, and the reading place behind it, where there are only a sequence of
tokens and a reading place. Where the sequence fails there is a diagnostic instead. -/
def answer (L : Nat → Except Diagnostic Token) (marks : List Nat) (i : Nat) :
    Call → Except Diagnostic (Reply × Nat)
  | .checkpoint => .ok (.mark i, i)
  | .restore mark => .ok (.done, marks[mark]?.getD i)
  | call => do
    let t ← L (i + call.place)
    return ((call.heard t).1, i + (call.heard t).2)

end Call

/-- The answers to some calls, and the stream behind them. -/
def Stream.replies (σ : Session) (marks : List Nat) (s : Stream) : List Call → List Reply × Stream
  | [] => ([], s)
  | call :: calls =>
    let (reply, s) := call.ask σ marks s
    let (replies, s) := replies σ (marks ++ reply.marks) s calls
    (reply :: replies, s)

/-- The answers to some calls on a sequence of tokens, and the reading place behind them. There is
none, and no answer more, behind a failure of the sequence. -/
def repliesOver (L : Nat → Except Diagnostic Token) (marks : List Nat) (i : Nat) :
    List Call → List Reply × Option Nat
  | [] => ([], some i)
  | call :: calls =>
    match call.answer L marks i with
    | .error d => ([.failure d], none)
    | .ok (reply, i) =>
      let (replies, reached) := repliesOver L (marks ++ reply.marks) i calls
      (reply :: replies, reached)

/-! ## The stream behind a call -/

namespace Stream

/-- A stream stands where another one does, and has all of its tokens. -/
structure Extends (s s' : Stream) : Prop where
  index : s'.index = s.index
  buffer : s.buffer.toList <+: s'.buffer.toList

variable {s s' s'' : Stream}

lemma Extends.refl (s : Stream) : s.Extends s := ⟨rfl, List.prefix_rfl⟩

lemma Extends.trans (h : s.Extends s') (h' : s'.Extends s'') : s.Extends s'' :=
  ⟨h'.index.trans h.index, h.buffer.trans h'.buffer⟩

lemma Extends.size_le (h : s.Extends s') : s.buffer.size ≤ s'.buffer.size := by
  simpa using h.buffer.length_le

/-- A stream that has nothing but the first tokens of the sequence, each of which has been read
once, and one behind the other. -/
def Mirrors (embedded : Option (Scan Expr)) (start : Reader) (s : Stream) : Prop :=
  Scan.take embedded s.buffer.size start = .ok s.tokens s.reader

end Stream

/-- The stream behind a run, however it ends. -/
def Parse.after {α : Type} (m : Parse α) (σ : Session) (s : Stream) : Stream :=
  match m σ s with
  | .ok _ s => s
  | .error _ s => s

namespace Stream.Mirrors

variable {embedded : Option (Scan Expr)} {start : Reader} {s : Stream} {k : Nat}

lemma ofReader (embedded : Option (Scan Expr)) (start : Reader) :
    (Stream.ofReader start).Mirrors embedded start := rfl

lemma sequence {lexed : Lexed} (h : s.Mirrors embedded start) (hk : s.buffer[k]? = some lexed) :
    start.sequence embedded k = .ok lexed.token := by
  refine Scan.sequence_of_take h ?_
  rw [tokens, List.getElem?_map, Array.getElem?_toList, hk]
  rfl

lemma previousSpan (h : s.Mirrors embedded start) (hle : s.index ≤ s.buffer.size)
    (hk : s.index = k + 1) :
    ∃ t, start.sequence embedded k = .ok t ∧ s.previousSpan = t.span := by
  have hlt : k < s.buffer.size := by omega
  have hat : s.buffer[k]? = some s.buffer[k] := Array.getElem?_eq_getElem hlt
  refine ⟨_, h.sequence hat, ?_⟩
  rw [Stream.previousSpan, hk]
  dsimp only
  rw [hat]
  rfl

end Stream.Mirrors

section Scanning

variable {σ : Session} {s s' : Stream} {start : Reader} {t : Token} {d : Diagnostic} {n : Nat}

lemma scanNext_extends (σ : Session) (s : Stream) : s.Extends (scanNext.after σ s) := by
  rw [Parse.after]
  cases hscan : scanNext σ s with
  | ok t s₁ =>
    obtain ⟨r, -, -, hbuffer, hindex⟩ := scanNext_eq_ok hscan
    exact ⟨hindex, by rw [hbuffer, Array.toList_push]; exact List.prefix_append _ _⟩
  | error d s₁ =>
    obtain ⟨-, hbuffer, hindex⟩ := token_of_scanNext_error hscan
    exact ⟨hindex, hbuffer ▸ List.prefix_rfl⟩

lemma scanPast_extends (n : Nat) (σ : Session) (s : Stream) :
    s.Extends ((scanPast n).after σ s) := by
  induction n generalizing s with
  | zero => exact scanNext_extends σ s
  | succ n ih =>
    have hfirst := scanNext_extends σ s
    rw [Parse.after, scanPast_succ_apply]
    rw [Parse.after] at hfirst
    cases hscan : scanNext σ s with
    | error d s₁ => rwa [hscan] at hfirst
    | ok t s₁ =>
      rw [hscan] at hfirst
      exact hfirst.trans (ih s₁)

lemma peekAhead_extends (n : Nat) (σ : Session) (s : Stream) :
    s.Extends ((peekAhead n).after σ s) := by
  rw [Parse.after, peekAhead_apply]
  cases s.buffer[s.index + n]? with
  | some lexed => exact .refl s
  | none => exact scanPast_extends _ σ s

namespace Stream.Mirrors

lemma scanNext (h : s.Mirrors σ.embedded start) (hrun : scanNext σ s = .ok t s') :
    s'.Mirrors σ.embedded start := by
  obtain ⟨r, -, -, hbuffer, -⟩ := scanNext_eq_ok hrun
  have htake := Scan.take_succ_of_ok h (token_of_scanNext hrun)
  rw [Mirrors, tokens, hbuffer, Array.size_push, Array.toList_push, List.map_append]
  exact htake

lemma scanNext_error (h : s.Mirrors σ.embedded start) (hrun : Parse.scanNext σ s = .error d s') :
    Scan.take σ.embedded (s.buffer.size + 1) start = .error d s'.reader :=
  Scan.take_succ_of_error h (token_of_scanNext_error hrun).1

lemma scanPast (h : s.Mirrors σ.embedded start) (hrun : scanPast n σ s = .ok t s') :
    s'.Mirrors σ.embedded start := by
  induction n generalizing s with
  | zero => exact h.scanNext hrun
  | succ n ih =>
    rw [scanPast_succ_apply] at hrun
    cases hscan : Parse.scanNext σ s with
    | error d s₁ => rw [hscan] at hrun; cases hrun
    | ok u s₁ =>
      rw [hscan] at hrun
      exact ih (h.scanNext hscan) hrun

lemma scanPast_error (h : s.Mirrors σ.embedded start) (hrun : Parse.scanPast n σ s = .error d s') :
    ∃ m r, m ≤ s.buffer.size + n + 1 ∧ Scan.take σ.embedded m start = .error d r := by
  induction n generalizing s with
  | zero => exact ⟨_, _, Nat.le_refl _, h.scanNext_error hrun⟩
  | succ n ih =>
    rw [scanPast_succ_apply] at hrun
    cases hscan : Parse.scanNext σ s with
    | error d₁ s₁ =>
      rw [hscan] at hrun
      cases hrun
      exact ⟨_, _, by omega, h.scanNext_error hscan⟩
    | ok u s₁ =>
      rw [hscan] at hrun
      obtain ⟨m, r, hle, htake⟩ := ih (h.scanNext hscan) hrun
      obtain ⟨r₁, -, -, hbuffer, -⟩ := scanNext_eq_ok hscan
      rw [hbuffer, Array.size_push] at hle
      exact ⟨m, r, by omega, htake⟩

lemma peekAhead (h : s.Mirrors σ.embedded start) (n : Nat) :
    match start.sequence σ.embedded (s.index + n) with
    | .ok t => ∃ s', peekAhead n σ s = .ok t s' ∧ s'.index = s.index ∧
        s'.Mirrors σ.embedded start
    | .error d => ∃ s', Parse.peekAhead n σ s = .error d s' := by
  cases hrun : Parse.peekAhead n σ s with
  | ok t s' =>
    obtain ⟨hindex, lexed, hlexed, ht⟩ := peekAhead_eq_ok hrun
    have hmirrors : s'.Mirrors σ.embedded start := by
      rw [peekAhead_apply] at hrun
      cases hbuffer : s.buffer[s.index + n]? with
      | some lexed => rw [hbuffer] at hrun; cases hrun; exact h
      | none => rw [hbuffer] at hrun; exact h.scanPast hrun
    rw [hindex] at hlexed
    rw [hmirrors.sequence hlexed, ht]
    exact ⟨s', rfl, hindex, hmirrors⟩
  | error d s' =>
    rw [peekAhead_apply] at hrun
    cases hbuffer : s.buffer[s.index + n]? with
    | some lexed => rw [hbuffer] at hrun; cases hrun
    | none =>
      rw [hbuffer] at hrun
      have hle := Array.getElem?_eq_none_iff.mp hbuffer
      obtain ⟨m, r, hm, htake⟩ := h.scanPast_error hrun
      rw [Scan.sequence_of_take_error htake (by omega)]
      exact ⟨s', rfl⟩

end Stream.Mirrors

end Scanning

/-! ## One call -/

namespace Call

variable {σ : Session} {s : Stream} {start : Reader} {marks : List Nat} {d : Diagnostic}

/-- A call that looks at a token. -/
def Looks : Call → Prop
  | .checkpoint | .restore _ => False
  | _ => True

/-- A call that looks at a token looks ahead for it, and consumes it or not. -/
lemma ask_of_looks (σ : Session) (marks : List Nat) (s : Stream) {call : Call} (h : call.Looks) :
    call.ask σ marks s =
      match Parse.peekAhead call.place σ s with
      | .ok t s => ((call.heard t).1, { s with index := s.index + (call.heard t).2 })
      | .error d s => (.failure d, s) := by
  unfold ask
  cases call with
  | checkpoint | restore => exact h.elim
  | peekAhead n =>
    rw [perform, bind_apply, place]
    cases Parse.peekAhead n σ s <;> rfl
  | peekKind =>
    rw [perform, bind_apply, Parse.peekKind, bind_apply, peek, place]
    cases Parse.peekAhead 0 σ s <;> rfl
  | next =>
    rw [perform, bind_apply, next_apply, peek, place]
    cases Parse.peekAhead 0 σ s <;> rfl
  | nextIs kind =>
    rw [perform, bind_apply, nextIs_apply, peek, place]
    cases Parse.peekAhead 0 σ s <;> rfl
  | eat kind =>
    rw [perform, bind_apply, Parse.eat, bind_apply, take?, takeIf_apply, peek, place]
    cases Parse.peekAhead 0 σ s with
    | error d s => rfl
    | ok t s =>
      by_cases hkind : t.kind = kind <;> simp only [Token.ofKind?, heard, hkind] <;> rfl
  | consume kind context =>
    rw [perform, bind_apply, Parse.consume, accept_apply, peek, place]
    cases Parse.peekAhead 0 σ s with
    | error d s => rfl
    | ok t s =>
      by_cases hkind : t.kind = kind <;> simp only [Token.ofKind?, heard, hkind] <;> rfl

lemma answer_of_looks (L : Nat → Except Diagnostic Token) (marks : List Nat) (i : Nat) {call : Call}
    (h : call.Looks) :
    call.answer L marks i =
      match L (i + call.place) with
      | .ok t => .ok ((call.heard t).1, i + (call.heard t).2)
      | .error d => .error d := by
  cases call with
  | checkpoint | restore => exact h.elim
  | peekAhead | peekKind | next | nextIs | eat | consume =>
    unfold answer
    dsimp only
    cases L _ <;> rfl

/-- A consumption of a token of the wrong kind, which is refused with the token consumed. -/
def Refuses (call : Call) (d : Diagnostic) (s s' : Stream) : Prop :=
  ∃ kind context lexed, call = .consume kind context ∧ s'.buffer[s.index]? = some lexed ∧
    lexed.token.kind ≠ kind ∧ d = unexpected kind lexed.token context ∧ s'.index = s.index + 1

lemma heard_eq_failure {call : Call} {t : Token} (h : (call.heard t).1 = .failure d) :
    ∃ kind context, call = .consume kind context ∧ t.kind ≠ kind ∧
      d = unexpected kind t context ∧ (call.heard t).2 = 1 := by
  cases call with
  | consume kind context =>
    rw [heard] at h ⊢
    by_cases hkind : t.kind = kind
    · rw [if_pos hkind] at h
      cases h
    · rw [if_neg hkind] at h
      cases h
      exact ⟨kind, context, rfl, hkind, rfl, by rw [if_neg hkind]⟩
  | eat kind =>
    rw [heard] at h
    split at h <;> cases h
  | _ => cases h

lemma heard_le (call : Call) (t : Token) : (call.heard t).2 ≤ call.place + 1 := by
  cases call with
  | eat | consume =>
    rw [heard]
    split <;> simp
  | _ => simp [heard]

lemma marks_heard (call : Call) (t : Token) : (call.heard t).1.marks = [] := by
  cases call with
  | eat | consume =>
    rw [heard]
    split <;> rfl
  | _ => rfl

lemma ask_eq_failure {call : Call} (h : (call.ask σ marks s).1 = .failure d) :
    call.Refuses d s (call.ask σ marks s).2 ∨ s.Extends (call.ask σ marks s).2 := by
  have hlooks : call.Looks := by
    cases call with
    | checkpoint | restore => cases h
    | _ => trivial
  have hextends := peekAhead_extends call.place σ s
  rw [Parse.after] at hextends
  rw [ask_of_looks σ marks s hlooks] at h ⊢
  cases hpeek : Parse.peekAhead call.place σ s with
  | error d₁ s₁ =>
    rw [hpeek] at hextends
    exact .inr hextends
  | ok t s₁ =>
    simp only [hpeek] at h ⊢
    obtain ⟨kind, context, rfl, hkind, rfl, hmoved⟩ := heard_eq_failure h
    obtain ⟨hindex, lexed, hlexed, rfl⟩ := peekAhead_eq_ok hpeek
    rw [hpeek] at hextends
    exact .inl ⟨kind, context, lexed, rfl, hextends.index ▸ hlexed, hkind, rfl,
      by rw [hmoved, hextends.index]⟩

/-- No call gets past the last token. -/
lemma ask_within (call : Call) (hindex : s.index ≤ s.buffer.size)
    (hmarks : ∀ mark ∈ marks, mark ≤ s.buffer.size) :
    (call.ask σ marks s).2.index ≤ (call.ask σ marks s).2.buffer.size ∧
      ∀ mark ∈ marks ++ (call.ask σ marks s).1.marks,
        mark ≤ (call.ask σ marks s).2.buffer.size := by
  by_cases hlooks : call.Looks
  · have hextends := peekAhead_extends call.place σ s
    rw [Parse.after] at hextends
    rw [ask_of_looks σ marks s hlooks]
    cases hpeek : Parse.peekAhead call.place σ s with
    | error d₁ s₁ =>
      rw [hpeek] at hextends
      have hle := hextends.size_le
      refine ⟨Nat.le_trans (Nat.le_of_eq hextends.index) (Nat.le_trans hindex hle), ?_⟩
      exact fun mark hmark => Nat.le_trans (hmarks mark (by simpa [Reply.marks] using hmark)) hle
    | ok t s₁ =>
      rw [hpeek] at hextends
      have hle := hextends.size_le
      obtain ⟨-, lexed, hlexed, -⟩ := peekAhead_eq_ok hpeek
      obtain ⟨hlt, -⟩ := Array.getElem?_eq_some_iff.mp hlexed
      have hmoved := heard_le call t
      dsimp only
      rw [marks_heard, List.append_nil]
      exact ⟨by omega, fun mark hmark => Nat.le_trans (hmarks mark hmark) hle⟩
  · cases call with
    | checkpoint =>
      refine ⟨hindex, fun mark hmark => ?_⟩
      rcases List.mem_append.mp hmark with hmark | hmark
      · exact hmarks mark hmark
      · rw [List.mem_singleton.mp hmark]
        exact hindex
    | restore mark =>
      change marks[mark]?.getD s.index ≤ s.buffer.size ∧
        ∀ mark ∈ marks ++ [], mark ≤ s.buffer.size
      rw [List.append_nil]
      refine ⟨?_, hmarks⟩
      cases hmark : marks[mark]? with
      | none => exact hindex
      | some index => exact hmarks index (List.mem_of_getElem? hmark)
    | _ => exact absurd trivial hlooks

/-- While the sequence does not fail, a call to the stream is a call over the sequence, and is a
call to a stream like that again. -/
lemma ask_mirrors (marks : List Nat) (call : Call) (h : s.Mirrors σ.embedded start) :
    match call.answer (start.sequence σ.embedded) marks s.index with
    | .ok (reply, i) => ∃ s', call.ask σ marks s = (reply, s') ∧ s'.index = i ∧
        s'.Mirrors σ.embedded start
    | .error d => ∃ s', call.ask σ marks s = (.failure d, s') := by
  by_cases hlooks : call.Looks
  · have hpeek := h.peekAhead call.place
    rw [answer_of_looks _ _ _ hlooks, ask_of_looks σ marks s hlooks]
    cases hplace : start.sequence σ.embedded (s.index + call.place) with
    | error d =>
      rw [hplace] at hpeek
      obtain ⟨s', hpeek⟩ := hpeek
      rw [hpeek]
      exact ⟨s', rfl⟩
    | ok t =>
      rw [hplace] at hpeek
      obtain ⟨s', hpeek, hindex, hmirrors⟩ := hpeek
      rw [hpeek]
      exact ⟨_, rfl, by dsimp only; rw [hindex], hmirrors⟩
  · cases call with
    | checkpoint => exact ⟨s, rfl, rfl, h⟩
    | restore mark => exact ⟨_, rfl, rfl, h⟩
    | _ => exact absurd trivial hlooks

end Call

/-! ## Many calls -/

section Dialogue

variable {σ : Session} {start : Reader}

lemma replies_within (calls : List Call) {marks : List Nat} {s : Stream}
    (hindex : s.index ≤ s.buffer.size) (hmarks : ∀ mark ∈ marks, mark ≤ s.buffer.size) :
    (s.replies σ marks calls).2.index ≤ (s.replies σ marks calls).2.buffer.size := by
  induction calls generalizing marks s with
  | nil => exact hindex
  | cons call calls ih =>
    obtain ⟨hindex', hmarks'⟩ := call.ask_within (σ := σ) hindex hmarks
    exact ih hindex' hmarks'

lemma replies_mirror (calls : List Call) (marks : List Nat) {s : Stream}
    (h : s.Mirrors σ.embedded start) :
    (repliesOver (start.sequence σ.embedded) marks s.index calls).1 <+:
        (s.replies σ marks calls).1 ∧
      ∀ i, (repliesOver (start.sequence σ.embedded) marks s.index calls).2 = some i →
        (s.replies σ marks calls).1 =
            (repliesOver (start.sequence σ.embedded) marks s.index calls).1 ∧
          (s.replies σ marks calls).2.index = i ∧
          (s.replies σ marks calls).2.Mirrors σ.embedded start := by
  induction calls generalizing marks s with
  | nil =>
    refine ⟨List.prefix_rfl, fun i hi => ⟨rfl, ?_, h⟩⟩
    exact Option.some_inj.mp hi
  | cons call calls ih =>
    have hask := call.ask_mirrors marks h
    unfold repliesOver Stream.replies
    cases hanswer : call.answer (start.sequence σ.embedded) marks s.index with
    | error d =>
      rw [hanswer] at hask
      obtain ⟨s', hask⟩ := hask
      rw [hask]
      exact ⟨⟨_, rfl⟩, fun i hi => by cases hi⟩
    | ok answer =>
      rw [hanswer] at hask
      obtain ⟨reply, i⟩ := answer
      obtain ⟨s', hask, rfl, hmirrors⟩ := hask
      rw [hask]
      obtain ⟨hstarts, hreached⟩ := ih (marks ++ reply.marks) hmirrors
      refine ⟨List.prefix_cons_inj reply |>.mpr hstarts, fun i hi => ?_⟩
      obtain ⟨hreplies, hindex, hmirrors'⟩ := hreached i hi
      exact ⟨congrArg (reply :: ·) hreplies, hindex, hmirrors'⟩

/-- A token stream answers as a plain reading place on the sequence of the tokens of its source,
which goes on with the end of the source for ever, up to the first call that comes upon a fault of
the source: the answers are the same, that of this call among them. As long as there was none, the
reading place is the same, the last consumed token is the one before it, and the tokens in the
buffer are what comes of reading as many tokens once. The reading place is never behind the last of
them, and a call that fails without refusing a token changes neither. -/
theorem replies_eq_over_sequence (source : String) (σ : Session) :
    let start := Reader.ofText source.toList
    let L := start.sequence σ.embedded
    (∀ fuel ts r, Scan.tokens σ.embedded fuel start = .ok ts r →
      ∃ last : Token, last.isEnd = true ∧ ∀ n, L n = .ok (ts[n]?.getD last)) ∧
    (∀ calls,
      let given := (Stream.ofReader start).replies σ [] calls
      let s := given.2
      let expected := repliesOver L [] 0 calls
      expected.1 <+: given.1 ∧ s.index ≤ s.buffer.size ∧
      ∀ i, expected.2 = some i →
        given.1 = expected.1 ∧ s.index = i ∧
        (i = 0 → s.previousSpan = Span.emptyAt Position.start) ∧
        (∀ k, i = k + 1 → ∃ t, L k = .ok t ∧ s.previousSpan = t.span) ∧
        Scan.take σ.embedded s.buffer.size start = .ok s.tokens s.reader) ∧
    ∀ (s : Stream) (marks : List Nat) (call : Call) (d : Diagnostic),
      (call.ask σ marks s).1 = .failure d →
        call.Refuses d s (call.ask σ marks s).2 ∨ s.Extends (call.ask σ marks s).2 := by
  intro start L
  refine ⟨fun _ _ _ h => Scan.sequence_of_tokens h, ?_, fun _ _ _ _ h => Call.ask_eq_failure h⟩
  intro calls given s expected
  have hwithin : s.index ≤ s.buffer.size := replies_within calls (Nat.zero_le _) (by simp)
  obtain ⟨hstarts, hreached⟩ :=
    replies_mirror calls [] (Stream.Mirrors.ofReader σ.embedded start)
  refine ⟨hstarts, hwithin, fun i hi => ?_⟩
  obtain ⟨hsame, hindex, hmirrors⟩ := hreached i hi
  refine ⟨hsame, hindex, fun hzero => ?_, fun k hk => ?_, hmirrors⟩
  · rw [Stream.previousSpan, hindex, hzero]
  · exact hmirrors.previousSpan hwithin (hindex.trans hk)

/-- A text of two words is asked for them, back and forth, and once for a comma. -/
theorem replies_eq_over_sequence_rollback :
    let start := Reader.ofText "a b".toList
    let σ := Session.ofText .standard "a b".toList
    let calls : List Call := [.checkpoint, .peekAhead 1, .next, .eat .identifier, .restore 0,
      .consume .comma "a list", .next]
    let refused : Call := .consume .comma "a list"
    (∃ ts r last, Scan.tokens σ.embedded 4 start = .ok ts r ∧ ts.length = 2 ∧
      ∀ n, start.sequence σ.embedded n = .ok (ts[n]?.getD last)) ∧
    ((repliesOver (start.sequence σ.embedded) [] 0 calls).2 = some 2 ∧
      ((Stream.ofReader start).replies σ [] calls).2.index = 2 ∧
      ((Stream.ofReader start).replies σ [] calls).2.buffer.size = 2) ∧
    ∃ d, (refused.ask σ [] (Stream.ofReader start)).1 = .failure d ∧
      refused.Refuses d (Stream.ofReader start)
        (refused.ask σ [] (Stream.ofReader start)).2 := by
  intro start σ calls refused
  obtain ⟨hsequence, hcalls, hfailure⟩ := replies_eq_over_sequence "a b" σ
  have htokens : (match Scan.tokens σ.embedded 4 start with
      | .ok ts _ => ts.length == 2
      | .error _ _ => false) = true := by decide +kernel
  have hreached : (repliesOver (start.sequence σ.embedded) [] 0 calls).2 = some 2 := by
    decide +kernel
  have hsize : ((Stream.ofReader start).replies σ [] calls).2.buffer.size = 2 := by
    decide +kernel
  have hrefused : (match (refused.ask σ [] (Stream.ofReader start)).1 with
      | .failure _ => true
      | _ => false) = true := by decide +kernel
  have hmoved : (refused.ask σ [] (Stream.ofReader start)).2.index = 1 := by decide +kernel
  refine ⟨?_, ⟨hreached, ?_, hsize⟩, ?_⟩
  · split at htokens
    · next ts r hread =>
      obtain ⟨last, -, hlast⟩ := hsequence 4 ts r hread
      exact ⟨ts, r, last, hread, by simpa using htokens, hlast⟩
    · cases htokens
  · obtain ⟨-, -, hsame⟩ := hcalls calls
    exact (hsame 2 hreached).2.1
  · split at hrefused
    · next d hd =>
      refine ⟨d, hd, (hfailure _ _ _ d hd).resolve_right fun hextends => ?_⟩
      have hindex := hextends.index
      rw [hmoved] at hindex
      cases hindex
    · cases hrefused

end Dialogue

end FrontEnd
