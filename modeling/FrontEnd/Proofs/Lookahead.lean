import FrontEnd.Production.Patterns
import FrontEnd.Proofs.Runs

/-!
# Patterns do not look beyond their ends

How a pattern goes on is decided by its next token, and its last token is its own: a name, or a
bracket that closes it. So when a pattern has been read, nothing behind it has been scanned, and the
reader stands where its last token ends: `Stream.Spent`.
-/

namespace FrontEnd

open Parse Production

namespace Stream

/-- All tokens that have been scanned are consumed. -/
def Spent (s : Stream) : Prop :=
  s.buffer.size = s.index

/-- All tokens that have been scanned are consumed, but perhaps the last. -/
def Near (s : Stream) : Prop :=
  s.index ≤ s.buffer.size ∧ s.buffer.size ≤ s.index + 1

variable {s s' : Stream} {σ : Session} {t : Token}

lemma Spent.near (h : s.Spent) : s.Near :=
  ⟨Nat.le_of_eq h.symm, Nat.le_trans (Nat.le_of_eq h) (Nat.le_succ _)⟩

lemma Spent.resumeCursor_eq (h : s.Spent) : s.resumeCursor = s.reader.cursor := by
  rw [resumeCursor, Array.getElem?_eq_none (Nat.le_of_eq h)]

lemma Near.peek (h : s.Near) (hpeek : Parse.peek σ s = .ok t s') : s'.Near ∧ s'.step.Spent := by
  have hsize : s'.buffer.size = s'.index + 1 := by
    obtain ⟨hle, hle'⟩ := h
    rw [Parse.peek, peekAhead_apply, Nat.add_zero] at hpeek
    cases hnext : s.buffer[s.index]? with
    | some lexed =>
      rw [hnext, EStateM.Result.ok.injEq] at hpeek
      obtain ⟨-, rfl⟩ := hpeek
      have hlt := (Array.getElem?_eq_some_iff.mp hnext).1
      omega
    | none =>
      rw [hnext] at hpeek
      obtain ⟨hindex, hsize, -⟩ := scanPast_eq_ok hpeek
      have hge := Array.getElem?_eq_none_iff.mp hnext
      omega
  exact ⟨⟨by omega, by omega⟩, hsize⟩

end Stream

/-- An action that succeeds brings a stream of one kind to one of another kind. -/
def Brings {α : Type} (P : Stream → Prop) (m : Parse α) (Q : α → Stream → Prop) : Prop :=
  ∀ ⦃σ s a s'⦄, P s → m σ s = .ok a s' → Q a s'

namespace Brings

variable {α β : Type} {P P' : Stream → Prop} {Q : β → Stream → Prop} {R : α → Stream → Prop}
variable {m : Parse α} {f : α → Parse β}

lemma pure {b : β} (h : ∀ s, P s → Q b s) : Brings P (pure b) Q := by
  intro σ s b' s' hs hrun
  obtain ⟨rfl, rfl⟩ := pure_eq_ok hrun
  exact h _ hs

lemma bind (hm : Brings P m R) (hf : ∀ a, Brings (R a) (f a) Q) : Brings P (m >>= f) Q := by
  intro σ s b s' hs hrun
  obtain ⟨a, s₁, hfirst, hrest⟩ := bind_eq_ok hrun
  exact hf a (hm hs hfirst) hrest

lemma read_bind {f : Session → Parse β} (hf : ∀ σ, Brings P (f σ) Q) : Brings P (read >>= f) Q :=
  fun σ _ _ _ hs hrun => hf σ hs hrun

lemma before (h : Brings P m R) (hP : ∀ s, P' s → P s) : Brings P' m R :=
  fun _ _ _ _ hs hrun => h (hP _ hs) hrun

lemma refuseNext {code : Code} {message : String} : Brings P (refuseNext code message) Q :=
  fun _ _ _ _ _ hrun => absurd hrun (refuseNext_ne_ok code message)

lemma spanFrom {start : Span} : Brings P (spanFrom start) fun _ s => P s := by
  intro σ s a s' hs hrun
  cases hrun
  exact hs

lemma accept {select : Token → Option α} {refusal : Token → Diagnostic} :
    Brings Stream.Near (accept select refusal) fun _ s => s.Spent := by
  intro σ s a s' hs hrun
  rw [accept_apply] at hrun
  cases hpeek : peek σ s with
  | error d s₁ => rw [hpeek] at hrun; cases hrun
  | ok t s₁ =>
    rw [hpeek] at hrun
    dsimp only at hrun
    cases hselect : select t with
    | none => rw [hselect] at hrun; cases hrun
    | some a =>
      rw [hselect] at hrun
      cases hrun
      exact (hs.peek hpeek).2

lemma takeIf {select : Token → Option α} :
    Brings Stream.Near (takeIf select) fun a s => s.Near ∧ (a.isSome = true → s.Spent) := by
  intro σ s a s' hs hrun
  rw [takeIf_apply] at hrun
  cases hpeek : peek σ s with
  | error d s₁ => rw [hpeek] at hrun; cases hrun
  | ok t s₁ =>
    rw [hpeek] at hrun
    dsimp only at hrun
    obtain ⟨hnear, hspent⟩ := hs.peek hpeek
    cases hselect : select t with
    | none => rw [hselect] at hrun; cases hrun; exact ⟨hnear, by simp⟩
    | some a => rw [hselect] at hrun; cases hrun; exact ⟨hspent.near, fun _ => hspent⟩

lemma eat {kind : TokenKind} :
    Brings Stream.Near (eat kind) fun eaten s => s.Near ∧ (eaten = true → s.Spent) := by
  rw [Parse.eat, take?]
  exact takeIf.bind fun _ => .pure fun _ hs => hs

lemma nextIs {kind : TokenKind} : Brings Stream.Near (nextIs kind) fun _ s => s.Near := by
  intro σ s a s' hs hrun
  rw [nextIs_apply] at hrun
  cases hpeek : peek σ s with
  | error d s₁ => rw [hpeek] at hrun; cases hrun
  | ok t s₁ => rw [hpeek] at hrun; cases hrun; exact (hs.peek hpeek).1

lemma identifier {context : String} :
    Brings Stream.Near (identifier context) fun _ s => s.Spent :=
  accept.bind fun _ => .pure fun _ hs => hs

lemma traced {production : String} {token : Token} (hm : Brings Stream.Spent m fun _ s => s.Spent) :
    Brings Stream.Spent (traced production token m) fun _ s => s.Spent := by
  intro σ s a s' hs hrun
  rw [traced_apply] at hrun
  split at hrun
  · next a s₁ hfirst =>
    cases hrun
    have hspent : s₁.Spent := hm (show (s.record _).Spent from hs) hfirst
    exact hspent
  · cases hrun

/-! ## Lists and patterns -/

section Lists

variable {close : TokenKind} {rules : CommaRules} {element : Parse α}
variable (helement : Brings Stream.Near element fun _ s => s.Near)
include helement

lemma elements (fuel : Nat) :
    Brings Stream.Near (elements close rules element fuel) fun _ s => s.Spent := by
  induction fuel with
  | zero => exact fun _ _ _ _ _ hrun => by cases hrun
  | succ fuel ih =>
    refine eat.bind fun closed => ?_
    cases closed with
    | true => exact .pure fun _ hs => hs.2 rfl
    | false =>
      refine (nextIs.before fun _ hs => hs.1).bind fun comma => ?_
      cases comma with
      | true => exact .refuseNext
      | false =>
        refine helement.bind fun first => ?_
        have hseparated : Brings Stream.Near (separated close) fun _ s => s.Near := by
          refine eat.bind fun eaten => ?_
          cases eaten with
          | true => exact .pure fun _ hs => hs.1
          | false => exact nextIs.before fun _ hs => hs.1
        refine hseparated.bind fun goesOn => ?_
        cases goesOn with
        | true => exact ih.bind fun _ => .pure fun _ hs => hs
        | false => exact .refuseNext

lemma commaSeparated :
    Brings Stream.Near (commaSeparated close rules element) fun _ s => s.Spent :=
  .read_bind fun _ => elements helement _

end Lists

variable {sub : Parse Pattern} (hsub : Brings Stream.Near sub fun _ s => s.Spent)
include hsub

lemma objectField : Brings Stream.Near (objectField sub) fun _ s => s.Near := by
  refine identifier.bind fun name => (eat.before fun _ => Stream.Spent.near).bind fun colon => ?_
  cases colon with
  | true =>
    exact (hsub.before fun _ hs => hs.1).bind fun p => .pure fun _ hs => hs.near
  | false => exact .pure fun _ hs => hs.1

lemma openedPattern {opening : PatternOpening} {token : Token} :
    Brings Stream.Spent (openedPattern sub opening token) fun _ s => s.Spent := by
  have hnear {m : Parse Pattern} (hm : Brings Stream.Near m fun _ s => s.Spent) :
      Brings Stream.Spent m fun _ s => s.Spent :=
    hm.before fun _ => Stream.Spent.near
  cases opening with
  | named =>
    refine hnear (identifier.bind fun name => ?_)
    exact (hnear hsub).bind fun whole => spanFrom.bind fun span => .pure fun _ hs => hs
  | plain => exact .pure fun _ hs => hs
  | list =>
    have helement : Brings Stream.Near sub fun _ s => s.Near :=
      fun _ _ _ _ hs hrun => (hsub hs hrun).near
    exact hnear ((commaSeparated helement).bind fun patterns =>
      spanFrom.bind fun span => .pure fun _ hs => hs)
  | object =>
    exact hnear ((commaSeparated (objectField hsub)).bind fun fields =>
      spanFrom.bind fun span => .pure fun _ hs => hs)

lemma patternLayer : Brings Stream.Near (patternLayer sub) fun _ s => s.Spent := by
  have hopener : Brings Stream.Near patternOpener fun _ s => s.Spent :=
    .read_bind fun σ => accept
  exact hopener.bind fun _ => traced (openedPattern hsub)

omit hsub in
lemma patternWithin (fuel : Nat) :
    Brings Stream.Near (patternWithin fuel) fun _ s => s.Spent := by
  induction fuel with
  | zero => exact fun _ _ _ _ _ hrun => by cases hrun
  | succ fuel ih => exact patternLayer ih

omit hsub in
lemma pattern : Brings Stream.Near pattern fun _ s => s.Spent :=
  .read_bind fun _ => patternWithin _

end Brings

end FrontEnd
