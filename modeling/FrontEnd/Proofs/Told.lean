import FrontEnd.Proofs.Quiet
import FrontEnd.Proofs.SteadyProductions

/-!
# Accounts of parsing

An account of parsing says what becomes of a stream, both where a production succeeds and where it
fails. Productions touch the stream in few ways only: they look at a token, consume it, fail, write
down where they start and end, warn of a keyword they have just consumed, and read the name of a
definition, right behind its keyword. An account that allows for these steps is true of every
production: `Told` says so, and instances of it are found by composition. Most productions read no
names of definitions, and are told of by accounts that know nothing of them.
-/

namespace FrontEnd

open Parse Production

/-- An error that has nothing to do with the name of a definition. -/
structure Diagnostic.Plain (d : Diagnostic) : Prop extends d.Fault where
  not_nameless : ¬ d.code.Nameless

namespace Diagnostic.Plain

lemma grammatical {code : Code} (h : code.Plain) (span : Span) (message : String) :
    (Diagnostic.grammatical code span message).Plain :=
  ⟨.grammatical h.proper _ _, h.not_nameless⟩

lemma front (span : Span) (problem : String) : (Diagnostic.internal span problem).Plain :=
  ⟨.front _ _, by rintro (h | h) <;> cases h⟩

end Diagnostic.Plain

/-- The token was consumed last. -/
def Stream.Behind (s : Stream) (t : Token) : Prop :=
  ∃ i lexed, s.index = i + 1 ∧ s.buffer[i]? = some lexed ∧ lexed.token = t

/-- The token was consumed last but one. -/
def Stream.Passed (s : Stream) (t : Token) : Prop :=
  ∃ i lexed, s.index = i + 2 ∧ s.buffer[i]? = some lexed ∧ lexed.token = t

/-- The name of a definition is to stand behind the token. -/
def Grammar.Heads (grammar : Grammar) (body : BodyKind) (t : Token) : Prop :=
  match body with
  | .ofClass => grammar.opening? t.kind = some .classDef
  | .ofTrait => t.kind = .kwTrait ∨
      t.kind ≠ .kwStructural ∧ grammar.opening? t.kind = some .traitDef

/-- The definition with the given keyword is the production that was entered last, at the first of
its tokens. Nothing has happened since, but that the keyword was read behind `structural`. -/
inductive Stream.Entered (σ : Session) : Stream → Token → Token → Prop where
  | keyword {s : Stream} {production : String} {keyword : Token} :
    Entered σ (s.record (.enter production keyword.lexeme keyword.span)) keyword keyword
  | structural {s s' : Stream} {production : String} {first keyword : Token}
    (hrun : traitKeyword true σ (s.record (.enter production first.lexeme first.span)) = .ok () s')
    (hfirst : first.kind = .kwStructural) (hkeyword : keyword.kind = .kwTrait)
    (hpassed : s'.Passed first) : Entered σ s' first keyword

namespace Parse

/-- What is said of a production's way from one stream to another, by its outcome. -/
structure Account where
  ok : Stream → Stream → Prop
  error : Stream → Diagnostic → Stream → Prop

namespace Account

variable {α β : Type}

/-- An account is true of an outcome. -/
def Tells (A : Account) (s : Stream) : EStateM.Result Diagnostic Stream α → Prop
  | .ok _ s' => A.ok s s'
  | .error d s' => A.error s d s'

/-- An account is true of what a production makes of a stream. -/
def Bears (A : Account) (σ : Session) (s : Stream) (m : Parse α) : Prop :=
  A.Tells s (m σ s)

/-! ## Looking ahead -/

section Ahead

variable {A : Account} {σ : Session}
variable (htrans : ∀ {s₁ s₂ s₃}, A.ok s₁ s₂ → A.ok s₂ s₃ → A.ok s₁ s₃)
variable (hlose : ∀ {s₁ s₂ d s₃}, A.ok s₁ s₂ → A.error s₂ d s₃ → A.error s₁ d s₃)
variable (hscan : ∀ s, A.Bears σ s scanNext)
include htrans hlose hscan

lemma bears_scanPast (n : Nat) (s : Stream) : A.Bears σ s (scanPast n) := by
  induction n generalizing s with
  | zero => exact hscan s
  | succ n ih =>
    have hfirst := hscan s
    unfold Bears at hfirst ih ⊢
    rw [scanPast_succ_apply]
    cases hrun : scanNext σ s with
    | error d s₁ =>
      rw [hrun] at hfirst
      exact hfirst
    | ok t s₁ =>
      rw [hrun] at hfirst
      have hrest := ih s₁
      dsimp only
      cases hlast : scanPast n σ s₁ with
      | ok t' s₂ =>
        rw [hlast] at hrest
        exact htrans hfirst hrest
      | error d s₂ =>
        rw [hlast] at hrest
        exact hlose hfirst hrest

lemma bears_peekAhead (hrefl : ∀ s, A.ok s s) (n : Nat) (s : Stream) :
    A.Bears σ s (peekAhead n) := by
  unfold Bears
  rw [peekAhead_apply]
  cases s.buffer[s.index + n]? with
  | some lexed => exact hrefl s
  | none => exact bears_scanPast htrans hlose hscan _ s

end Ahead

/-- An account that allows for the steps of productions; also for reading the names of definitions,
if these are spoken of. -/
structure Lawful (A : Account) (σ : Session) (names : Prop) : Prop where
  refl : ∀ s, A.ok s s
  trans : ∀ {s₁ s₂ s₃}, A.ok s₁ s₂ → A.ok s₂ s₃ → A.ok s₁ s₃
  lose : ∀ {s₁ s₂ d s₃}, A.ok s₁ s₂ → A.error s₂ d s₃ → A.error s₁ d s₃
  fault : ∀ (s : Stream) {d : Diagnostic}, d.Plain → A.error s d s
  peek : ∀ s, A.Bears σ s Parse.peek
  /-- No more than one token is looked past, and that is a name. -/
  peekPast : ∀ {s : Stream} {lexed}, s.buffer[s.index]? = some lexed →
    lexed.token.kind = .identifier → A.Bears σ s (peekAhead 1)
  step : ∀ {s : Stream} {lexed}, s.buffer[s.index]? = some lexed → A.ok s s.step
  traced : ∀ {s s' : Stream} {production lexeme span},
    A.ok (s.record (.enter production lexeme span)) s' →
      A.ok s (s'.record (.leave production true))
  traced_error : ∀ {s s' : Stream} {production lexeme span d},
    A.error (s.record (.enter production lexeme span)) d s' →
      A.error s d (s'.record (.leave production false))
  warned : ∀ {s : Stream} {lexed} (body : BodyKind), s.buffer[s.index]? = some lexed →
    lexed.token.kind = .kwPrivate →
      A.ok s (s.step.record (.warning (Diagnostic.warning .parser body.privateWarning.1
        lexed.token.span body.privateWarning.2)))
  name : names → ∀ {s : Stream} {first keyword : Token} (body : BodyKind), s.Behind keyword →
    σ.grammar.Heads body keyword → s.Entered σ first keyword → A.Bears σ s (definitionName body)

namespace Lawful

variable {A : Account} {σ : Session} {names : Prop}

lemma after (hA : A.Lawful σ names) {s s₁ : Stream} {m : Parse α} (h : A.ok s s₁)
    (hm : A.Bears σ s₁ m) : A.Tells s (m σ s₁) := by
  unfold Account.Bears at hm
  cases hrun : m σ s₁ with
  | ok a s₂ =>
    rw [hrun] at hm
    exact hA.trans h hm
  | error d s₂ =>
    rw [hrun] at hm
    exact hA.lose h hm

lemma bind (hA : A.Lawful σ names) {s : Stream} {m : Parse α} {f : α → Parse β} (hm : A.Bears σ s m)
    (hf : ∀ a s₁, m σ s = .ok a s₁ → A.Bears σ s₁ (f a)) : A.Bears σ s (m >>= f) := by
  unfold Account.Bears at hm ⊢
  rw [bind_apply]
  cases hrun : m σ s with
  | error d s₁ =>
    rw [hrun] at hm
    exact hm
  | ok a s₁ =>
    rw [hrun] at hm
    exact hA.after hm (hf a s₁ hrun)

lemma traces (hA : A.Lawful σ names) {s : Stream} {production : String} {token : Token} {m : Parse α}
    (hm : A.Bears σ (s.record (.enter production token.lexeme token.span)) m) :
    A.Bears σ s (Parse.traced production token m) := by
  unfold Account.Bears at hm ⊢
  rw [traced_apply]
  cases hrun : m σ (s.record (.enter production token.lexeme token.span)) with
  | error d s₁ =>
    rw [hrun] at hm
    exact hA.traced_error hm
  | ok a s₁ =>
    rw [hrun] at hm
    exact hA.traced hm

lemma peek_cases (hA : A.Lawful σ names) (s : Stream) :
    (∃ d s₁, Parse.peek σ s = .error d s₁ ∧ A.error s d s₁) ∨
      ∃ s₁ lexed, Parse.peek σ s = .ok lexed.token s₁ ∧ s₁.buffer[s₁.index]? = some lexed ∧
        A.ok s s₁ := by
  have hm := hA.peek s
  unfold Account.Bears at hm
  cases hpeek : Parse.peek σ s with
  | error d s₁ =>
    rw [hpeek] at hm
    exact .inl ⟨d, s₁, rfl, hm⟩
  | ok t s₁ =>
    rw [hpeek] at hm
    obtain ⟨-, lexed, hlexed, rfl⟩ := peek_eq_ok hpeek
    exact .inr ⟨s₁, lexed, rfl, hlexed, hm⟩

end Lawful

end Account

end Parse

/-- A production of which every account is true that allows for its steps. It may read names of
definitions, if these are spoken of. -/
class Told (names : Prop) {α : Type} (m : Parse α) : Prop where
  bears : ∀ {σ : Session} {A : Account}, A.Lawful σ names → ∀ s, A.Bears σ s m

/-- A refusal of tokens that is an error. -/
class Blames (refusal : Token → Diagnostic) : Prop where
  fault : ∀ t, (refusal t).Plain

instance (kind : TokenKind) (context : String) : Blames (unexpected kind · context) where
  fault _ := .grammatical trivial _ _

namespace Told

variable {names : Prop} {α β : Type}

/-! ## Sequences -/

instance (a : α) : Told names (pure a : Parse α) where
  bears hA s := hA.refl s

instance (m : Parse α) (f : α → Parse β) [Told names m] [∀ a, Told names (f a)] :
    Told names (m >>= f) where
  bears hA s := hA.bind (bears hA s) fun _ s₁ _ => bears hA s₁

lemma andThen {m : Parse α} {f : α → Parse β} [Told names m] (h : ∀ a, Told names (f a)) :
    Told names (m >>= f) :=
  inferInstance

instance (m : Parse α) [Told names m] : Told names (discard m) := by
  rw [discard_eq]
  infer_instance

instance (c : Prop) [Decidable c] (m n : Parse α) [Told names m] [Told names n] :
    Told names (if c then m else n) := by
  split <;> infer_instance

lemma raise {d : Diagnostic} (hd : d.Plain) : Told names (throw d : Parse α) where
  bears hA s := hA.fault s hd

instance (span : Span) (problem : String) :
    Told names (throw (Diagnostic.internal span problem) : Parse α) :=
  raise (.front _ _)

instance : Told names (read : Parse Session) where
  bears hA s := hA.refl s

instance (code : Code) (span : Span) (message : String) [h : Fact code.Plain] :
    Told names (refuse code span message : Parse α) :=
  raise (.grammatical h.out _ _)

instance : Told names (exhausted : Parse α) where
  bears hA s := hA.fault s (.front _ _)

instance (start : Span) : Told names (spanFrom start) where
  bears hA s := hA.refl s

instance (production : String) (token : Token) (m : Parse α) [Told names m] :
    Told names (traced production token m) where
  bears hA _ := hA.traces (bears hA _)

/-! ## Tokens -/

lemma behind_of_accept {select : Token → Option α} {refusal : Token → Diagnostic} {σ : Session}
    {s s' : Stream} {a : α} (h : accept select refusal σ s = .ok a s') :
    ∃ t, s'.Behind t ∧ select t = some a ∧ ∀ last, s.Behind last → s'.Passed last := by
  rw [accept_apply] at h
  cases hpeek : peek σ s with
  | error d s₁ => rw [hpeek] at h; cases h
  | ok t s₁ =>
    obtain ⟨hindex, lexed, hlexed, rfl⟩ := peek_eq_ok hpeek
    simp only [hpeek] at h
    cases hselect : select lexed.token with
    | none => rw [hselect] at h; cases h
    | some b =>
      rw [hselect] at h
      cases h
      refine ⟨lexed.token, ⟨s₁.index, lexed, rfl, hlexed, rfl⟩, hselect, ?_⟩
      rintro last ⟨i, earlier, hi, hearlier, rfl⟩
      have hkept : s₁.buffer[i]? = some earlier := peekAhead_buffer hpeek hearlier
      exact ⟨i, earlier, by rw [Stream.step_index, hindex, hi], hkept, rfl⟩

instance : Told names peek where
  bears hA s := hA.peek s

instance : Told names peekKind := by
  unfold peekKind
  infer_instance

instance (kind : TokenKind) : Told names (nextIs kind) := by
  unfold nextIs
  infer_instance

instance : Told names canReadExpression := by
  unfold canReadExpression
  infer_instance

instance : Told names next where
  bears {σ A} hA s := by
    rw [Account.Bears, next_apply]
    obtain ⟨d, s₁, hpeek, hm⟩ | ⟨s₁, lexed, hpeek, hlexed, hm⟩ := hA.peek_cases s
    · rw [hpeek]
      exact hm
    · rw [hpeek]
      exact hA.trans hm (hA.step hlexed)

instance (select : Token → Option α) : Told names (takeIf select) where
  bears {σ A} hA s := by
    rw [Account.Bears, takeIf_apply]
    obtain ⟨d, s₁, hpeek, hm⟩ | ⟨s₁, lexed, hpeek, hlexed, hm⟩ := hA.peek_cases s
    · rw [hpeek]
      exact hm
    · rw [hpeek]
      dsimp only
      cases select lexed.token with
      | none => exact hm
      | some a => exact hA.trans hm (hA.step hlexed)

instance (kind : TokenKind) : Told names (take? kind) := by
  unfold take?
  infer_instance

instance (kind : TokenKind) : Told names (eat kind) := by
  unfold eat
  infer_instance

instance (select : Token → Option α) (refusal : Token → Diagnostic) [Blames refusal] :
    Told names (accept select refusal) := by
  unfold accept
  refine andThen fun t => ?_
  split
  · infer_instance
  · exact raise (Blames.fault t)

instance (kind : TokenKind) (context : String) : Told names (consume kind context) := by
  unfold consume
  infer_instance

instance (context : String) : Told names (identifier context) := by
  unfold identifier
  infer_instance

instance (code : Code) (message : String) [Fact code.Plain] :
    Told names (refuseNext code message : Parse α) := by
  unfold refuseNext
  infer_instance

end Told

end FrontEnd
