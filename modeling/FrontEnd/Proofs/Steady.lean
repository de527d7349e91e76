import FrontEnd.Proofs.Runs
import Mathlib.Logic.Basic

/-!
# What every production keeps

Productions touch the token stream in three ways only: they scan a token, consume one that is not
the end of the source, and write to the journal. What these steps keep is kept by every production
that succeeds; `Steady` says so, and instances of it are found by composition. `Consuming` says
that an action which succeeds has consumed a token.
-/

namespace FrontEnd

open Parse

/-- What is kept by the steps of which productions are made. -/
structure Stream.Invariant (σ : Session) (I : Stream → Prop) : Prop where
  scan : ∀ {s t s'}, I s → scanNext σ s = .ok t s' → I s'
  step : ∀ {s : Stream} {lexed}, I s → s.buffer[s.index]? = some lexed →
    lexed.token.isEnd = false → I s.step
  record : ∀ {s} e, I s → I (s.record e)

/-- A production that keeps every invariant of its steps. -/
class Steady {α : Type} (m : Parse α) : Prop where
  keeps : ∀ {σ : Session} {I : Stream → Prop}, σ.grammar = .standard → Stream.Invariant σ I →
    ∀ {s a s'}, I s → m σ s = .ok a s' → I s'

/-- A production that consumes a token whenever it succeeds. -/
class Consuming {α : Type} (m : Parse α) : Prop where
  lt : ∀ {σ : Session} {s a s'}, σ.grammar = .standard → m σ s = .ok a s' → s.index < s'.index

/-- A selection of tokens that leaves the end of the source alone. -/
class Spares {α : Type} (select : Token → Option α) : Prop where
  end_eq_none : ∀ t : Token, t.isEnd = true → select t = none

/-- Whether tokens of a kind stand inside the source. -/
abbrev TokenKind.Inner : TokenKind → Prop
  | .endOfInput => False
  | _ => True

instance factTrue : Fact True := ⟨trivial⟩

instance (kind : TokenKind) [h : Fact kind.Inner] : Spares (Token.ofKind? kind) where
  end_eq_none t ht := by
    have hkind : t.kind = .endOfInput := by simpa [Token.isEnd] using ht
    rw [Token.ofKind?, if_neg]
    intro hk
    rw [hkind] at hk
    subst hk
    exact h.out

lemma Spares.isEnd_eq_false {α : Type} {select : Token → Option α} [Spares select] {t : Token}
    {a : α} (h : select t = some a) : t.isEnd = false := by
  refine Bool.eq_false_iff.mpr fun hend => ?_
  have hnone : select t = none := end_eq_none t hend
  rw [hnone] at h
  cases h

lemma Token.ofKind?_eq_some {kind : TokenKind} {t u : Token} (h : t.ofKind? kind = some u) :
    t.kind = kind ∧ t = u := by
  unfold Token.ofKind? at h
  split at h
  · exact ⟨‹_›, Option.some_inj.mp h⟩
  · cases h

namespace Steady

variable {α β : Type}

lemma index_le (m : Parse α) [Steady m] {σ : Session} (hσ : σ.grammar = .standard)
    {s a s'} (h : m σ s = .ok a s') : s.index ≤ s'.index := by
  have hinv : Stream.Invariant σ (fun s' => s.index ≤ s'.index) := by
    refine ⟨fun hI hscan => ?_, fun hI _ _ => Nat.le_succ_of_le hI, fun _ hI => hI⟩
    obtain ⟨-, -, -, -, hindex⟩ := scanNext_eq_ok hscan
    omega
  exact keeps hσ hinv (Nat.le_refl _) h

lemma buffer_kept (m : Parse α) [Steady m] {σ : Session} (hσ : σ.grammar = .standard)
    {s a s'} (h : m σ s = .ok a s') {i : Nat} {lexed : Lexed} (hi : s.buffer[i]? = some lexed) :
    s'.buffer[i]? = some lexed := by
  have hinv : Stream.Invariant σ (fun s' => s'.buffer[i]? = some lexed) :=
    ⟨fun hI hscan => scanPast_buffer (n := 0) hscan hI, fun hI _ _ => hI, fun _ hI => hI⟩
  exact keeps hσ hinv hi h

lemma of_fails {m : Parse α} (h : ∀ σ s a s', m σ s ≠ .ok a s') : Steady m :=
  ⟨fun _ _ _ _ _ _ hm => absurd hm (h _ _ _ _)⟩

instance (a : α) : Steady (pure a : Parse α) where
  keeps _ _ _ _ _ hI h := by
    obtain ⟨-, rfl⟩ := pure_eq_ok h
    exact hI

instance (m : Parse α) (f : α → Parse β) [Steady m] [∀ a, Steady (f a)] :
    Steady (m >>= f) where
  keeps hσ hinv _ _ _ hI h := by
    obtain ⟨a, s₁, hm, hf⟩ := bind_eq_ok h
    exact keeps hσ hinv (keeps hσ hinv hI hm) hf

lemma andThen {m : Parse α} {f : α → Parse β} [Steady m] (h : ∀ a, Steady (f a)) :
    Steady (m >>= f) :=
  inferInstance

instance (m : Parse α) [Steady m] : Steady (discard m) := by
  rw [discard_eq]
  infer_instance

instance (c : Prop) [Decidable c] (m n : Parse α) [Steady m] [Steady n] :
    Steady (if c then m else n) := by
  split <;> infer_instance

instance (d : Diagnostic) : Steady (throw d : Parse α) :=
  of_fails fun _ _ _ _ h => by cases h

instance : Steady (read : Parse Session) where
  keeps _ _ _ _ _ hI h := by
    rw [read_apply] at h
    cases h
    exact hI

instance : Steady scanNext where
  keeps _ hinv _ _ _ hI h := hinv.scan hI h

instance (n : Nat) : Steady (scanPast n) := by
  induction n with
  | zero => rw [scanPast]; infer_instance
  | succ n ih => rw [scanPast]; infer_instance

instance (n : Nat) : Steady (peekAhead n) where
  keeps hσ hinv s a s' hI h := by
    rw [peekAhead_apply] at h
    cases hbuffer : s.buffer[s.index + n]? with
    | some lexed =>
      rw [hbuffer] at h
      cases h
      exact hI
    | none =>
      rw [hbuffer] at h
      exact keeps (m := scanPast _) hσ hinv hI h

instance : Steady peek := by
  unfold peek
  infer_instance

instance : Steady peekKind := by
  unfold peekKind
  infer_instance

instance (kind : TokenKind) : Steady (nextIs kind) := by
  unfold nextIs
  infer_instance

instance : Steady canReadExpression := by
  unfold canReadExpression
  infer_instance

instance (select : Token → Option α) [Spares select] : Steady (takeIf select) where
  keeps hσ hinv s o s' hI h := by
    rw [takeIf_apply] at h
    cases hpeek : peek _ s with
    | error d s₁ => rw [hpeek] at h; cases h
    | ok t s₁ =>
      have hI₁ := keeps hσ hinv hI hpeek
      simp only [hpeek] at h
      cases hselect : select t with
      | none => rw [hselect] at h; cases h; exact hI₁
      | some a =>
        rw [hselect] at h
        cases h
        obtain ⟨-, lexed, hlexed, rfl⟩ := peek_eq_ok hpeek
        refine hinv.step hI₁ hlexed (Bool.eq_false_iff.mpr fun hend => ?_)
        have hnone : select lexed.token = none := Spares.end_eq_none _ hend
        rw [hnone] at hselect
        cases hselect

instance (kind : TokenKind) [Fact kind.Inner] : Steady (take? kind) := by
  unfold take?
  infer_instance

instance (kind : TokenKind) [Fact kind.Inner] : Steady (eat kind) := by
  unfold eat
  infer_instance

instance (select : Token → Option α) (refusal : Token → Diagnostic) [Spares select] :
    Steady (accept select refusal) where
  keeps hσ hinv s a s' hI h := by
    rw [accept_apply] at h
    cases hpeek : peek _ s with
    | error d s₁ => rw [hpeek] at h; cases h
    | ok t s₁ =>
      simp only [hpeek] at h
      cases hselect : select t with
      | none => rw [hselect] at h; cases h
      | some b =>
        rw [hselect] at h
        cases h
        have hI₁ := keeps hσ hinv hI hpeek
        obtain ⟨-, lexed, hlexed, rfl⟩ := peek_eq_ok hpeek
        refine hinv.step hI₁ hlexed (Bool.eq_false_iff.mpr fun hend => ?_)
        have hnone : select lexed.token = none := Spares.end_eq_none _ hend
        rw [hnone] at hselect
        cases hselect

instance (kind : TokenKind) (context : String) [Fact kind.Inner] :
    Steady (consume kind context) := by
  unfold consume
  infer_instance

instance (context : String) : Steady (identifier context) := by
  unfold identifier
  infer_instance

instance (start : Span) : Steady (spanFrom start) where
  keeps _ _ _ _ _ hI h := by
    rw [spanFrom_apply] at h
    cases h
    exact hI

instance (code : Code) (span : Span) (message : String) : Steady (warn code span message) where
  keeps _ hinv _ _ _ hI h := by
    rw [warn, modify_apply] at h
    cases h
    exact hinv.record _ hI

instance (code : Code) (span : Span) (message : String) :
    Steady (refuse code span message : Parse α) := by
  unfold refuse
  infer_instance

instance (code : Code) (message : String) : Steady (refuseNext code message : Parse α) :=
  of_fails fun _ _ _ _ => refuseNext_ne_ok code message

instance : Steady (exhausted : Parse α) :=
  of_fails fun _ _ _ _ h => by cases h

instance (production : String) (token : Token) (m : Parse α) [Steady m] :
    Steady (traced production token m) where
  keeps hσ hinv s a s' hI h := by
    rw [traced_apply] at h
    cases hm : m _ (s.record (.enter production token.lexeme token.span)) with
    | error d s₁ => rw [hm] at h; cases h
    | ok b s₁ =>
      rw [hm] at h
      cases h
      exact hinv.record _ (keeps hσ hinv (hinv.record _ hI) hm)

end Steady

lemma lt_of_takeIf {α : Type} {select : Token → Option α} {σ : Session} {s s' : Stream} {a : α}
    (h : takeIf select σ s = .ok (some a) s') : s.index < s'.index := by
  rw [takeIf_apply] at h
  cases hpeek : peek σ s with
  | error d s₁ => rw [hpeek] at h; cases h
  | ok t s₁ =>
    obtain ⟨hindex, -⟩ := peek_eq_ok hpeek
    simp only [hpeek] at h
    cases hselect : select t with
    | none => rw [hselect] at h; cases h
    | some b =>
      rw [hselect] at h
      cases h
      rw [Stream.step_index]
      omega

namespace Consuming

variable {α β : Type}

lemma of_fails {m : Parse α} (h : ∀ σ s a s', m σ s ≠ .ok a s') : Consuming m :=
  ⟨fun _ hm => absurd hm (h _ _ _ _)⟩

instance first (m : Parse α) (f : α → Parse β) [Consuming m] [∀ a, Steady (f a)] :
    Consuming (m >>= f) where
  lt hσ h := by
    obtain ⟨a, s₁, hm, hf⟩ := bind_eq_ok h
    have hlt := lt hσ hm
    have hle := Steady.index_le _ hσ hf
    omega

instance rest (m : Parse α) (f : α → Parse β) [Steady m] [∀ a, Consuming (f a)] :
    Consuming (m >>= f) where
  lt hσ h := by
    obtain ⟨a, s₁, hm, hf⟩ := bind_eq_ok h
    have hle := Steady.index_le _ hσ hm
    have hlt := lt hσ hf
    omega

lemma before {m : Parse α} {f : α → Parse β} [Consuming m] (h : ∀ a, Steady (f a)) :
    Consuming (m >>= f) :=
  first m f

lemma andThen {m : Parse α} {f : α → Parse β} [Steady m] (h : ∀ a, Consuming (f a)) :
    Consuming (m >>= f) :=
  rest m f

instance (m : Parse α) [Consuming m] : Consuming (discard m) := by
  rw [discard_eq]
  infer_instance

instance (c : Prop) [Decidable c] (m n : Parse α) [Consuming m] [Consuming n] :
    Consuming (if c then m else n) := by
  split <;> infer_instance

instance (code : Code) (message : String) : Consuming (refuseNext code message : Parse α) :=
  of_fails fun _ _ _ _ => refuseNext_ne_ok code message

instance : Consuming (exhausted : Parse α) :=
  of_fails fun _ _ _ _ h => by cases h

instance (select : Token → Option α) (refusal : Token → Diagnostic) :
    Consuming (accept select refusal) where
  lt {σ s _ _} _ h := by
    rw [accept_apply] at h
    cases hpeek : peek σ s with
    | error d s₁ => rw [hpeek] at h; cases h
    | ok t s₁ =>
      obtain ⟨hindex, -⟩ := peek_eq_ok hpeek
      simp only [hpeek] at h
      cases hselect : select t with
      | none => rw [hselect] at h; cases h
      | some b =>
        rw [hselect] at h
        cases h
        rw [Stream.step_index]
        omega

instance (kind : TokenKind) (context : String) : Consuming (consume kind context) := by
  unfold consume
  infer_instance

instance (context : String) : Consuming (identifier context) := by
  unfold identifier
  infer_instance

lemma takeIf_else {select : Token → Option α} {f : Option α → Parse β} [Spares select]
    (hsome : ∀ a, Steady (f (some a))) (hnone : Consuming (f none)) :
    Consuming (takeIf select >>= f) where
  lt hσ h := by
    obtain ⟨o, s₁, htake, hf⟩ := bind_eq_ok h
    cases o with
    | none =>
      have hle := Steady.index_le _ hσ htake
      have hlt := lt hσ hf
      omega
    | some a =>
      have hlt := lt_of_takeIf htake
      have hle := Steady.index_le _ hσ hf
      omega

lemma eat_else {kind : TokenKind} {f : Bool → Parse β} [Fact kind.Inner]
    (htrue : Steady (f true)) (hfalse : Consuming (f false)) : Consuming (eat kind >>= f) := by
  rw [eat_bind]
  exact takeIf_else (fun _ => htrue) hfalse

end Consuming

end FrontEnd
