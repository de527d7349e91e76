import FrontEnd.Proofs.SimilarExpressions

/-!
# Where expressions halt

An expression is extended as long as the next token continues it tighter than the level that it is
read at. So behind an expression stands a token that does not, and it stands as well behind whatever
the expression is the last part of.
-/

namespace FrontEnd

open Parse Production

/-! ## What holds behind an action -/

section Ensures

variable {α β : Type} {m : Parse α} {f : α → Parse β} {P : α → Stream → Prop}
variable {Q : β → Stream → Prop}

/-- Whenever an action succeeds, its result and the stream behind it are as it is said. -/
def Ensures (P : α → Stream → Prop) (m : Parse α) : Prop :=
  ∀ ⦃σ s a s'⦄, σ.grammar = .standard → m σ s = .ok a s' → P a s'

namespace Ensures

lemma pure {a : α} (h : ∀ s, P a s) : Ensures P (pure a) := by
  intro σ s a' s' _ hrun
  obtain ⟨rfl, rfl⟩ := pure_eq_ok hrun
  exact h _

lemma bind (hm : Ensures P m)
    (hf : ∀ ⦃σ a s b s'⦄, P a s → f a σ s = .ok b s' → Q b s') : Ensures Q (m >>= f) := by
  intro σ s b s'' hσ hrun
  obtain ⟨a, s', hrun, hrest⟩ := bind_eq_ok hrun
  exact hf (hm hσ hrun) hrest

lemma andThen (hf : ∀ a, Ensures Q (f a)) : Ensures Q (m >>= f) := by
  intro σ s b s'' hσ hrun
  obtain ⟨a, s', -, hrest⟩ := bind_eq_ok hrun
  exact hf a hσ hrest

lemma map {g : α → β} (hm : Ensures P m) (h : ∀ a s, P a s → Q (g a) s) :
    Ensures Q (m >>= fun a => Pure.pure (g a)) := by
  refine hm.bind ?_
  rintro σ a s b s' ha hrun
  obtain ⟨rfl, rfl⟩ := pure_eq_ok hrun
  exact h _ _ ha

lemma spanned {start : Span} {g : α → Span → β} (hm : Ensures P m)
    (h : ∀ a s span, P a s → Q (g a span) s) :
    Ensures Q (m >>= fun a => do return g a (← spanFrom start)) := by
  refine hm.bind ?_
  rintro σ a s b s' ha hrun
  rw [bind_apply, spanFrom_apply] at hrun
  obtain ⟨rfl, rfl⟩ := pure_eq_ok hrun
  exact h _ _ _ ha

lemma of_fails (h : ∀ σ s a s', m σ s ≠ .ok a s') : Ensures P m :=
  fun σ s a s' _ hrun => absurd hrun (h σ s a s')

lemma traced {production : String} {token : Token} (hm : Ensures P m)
    (hrecord : ∀ a s e, P a s → P a (s.record e)) : Ensures P (traced production token m) := by
  intro σ s a s' hσ hrun
  rw [traced_apply] at hrun
  cases hcases : m σ (s.record (.enter production token.lexeme token.span)) with
  | error d s₁ => rw [hcases] at hrun; cases hrun
  | ok b s₁ =>
    rw [hcases] at hrun
    cases hrun
    exact hrecord _ _ _ (hm hσ hcases)

end Ensures

end Ensures

/-! ## What stands behind an expression -/

/-- The level at which the last sub-expression of a form is read, if the form ends with one. What
continues that sub-expression does not get to continue the form. -/
def Form.grip {ε : Type} : Form ε → Precedence
  | .unary .. | .typeCast .. => .unary
  | .binary .. => .sum
  | .assignment .. | .statement .. | .lambda .. | .binding .. => .lowest
  | .returning value | .breaking value _ => if value.isSome then .lowest else .tightest
  | .declaration d => if d.value.isSome then .lowest else .tightest
  | _ => .tightest

/-- The next token has been looked at, and continues nothing tighter than the given level. -/
def Stream.Halts (s : Stream) (least : Precedence) : Prop :=
  ∃ next, s.buffer[s.index]? = some next ∧ ∀ continuation,
    Grammar.standard.continuation? next.token.kind = some continuation →
      continuation.level.exceeds least = false

/-- The next token does not continue what an expression ends with. -/
def Stream.Follows (s : Stream) (e : Expr) : Prop :=
  e.form.grip ≠ .tightest → s.Halts e.form.grip

lemma not_exceeds_tightest (level : Precedence) : level.exceeds .tightest = false := by
  cases level <;> rfl

lemma Stream.Follows.exceeds {σ : Session} {s s' : Stream} {e : Expr} {t : Token}
    {continuation : Continuation} (h : s.Follows e) (hpeek : peek σ s = .ok t s')
    (hcontinuation : Grammar.standard.continuation? t.kind = some continuation) :
    continuation.level.exceeds e.form.grip = false := by
  by_cases hgrip : e.form.grip = .tightest
  · rw [hgrip]
    exact not_exceeds_tightest _
  · obtain ⟨next, hnext, hhalts⟩ := h hgrip
    rw [peek_of_buffered hnext] at hpeek
    cases hpeek
    exact hhalts _ hcontinuation

section Layers

variable {expr : Precedence → Parse Expr}

/-- An expression that has been extended is not extended further. -/
lemma extend_halts {least : Precedence} {fuel : Nat} {left : Expr} :
    Ensures (fun _ s => s.Halts least) (extend expr least fuel left) := by
  induction fuel generalizing left with
  | zero =>
    intro σ s e s' _ hrun
    cases hrun
  | succ fuel ih =>
    intro σ s e s' hσ hrun
    unfold extend at hrun
    rw [Similar.continuer_bind, bind_apply, read_apply] at hrun
    obtain ⟨o, s₁, htake, hrest⟩ := bind_eq_ok hrun
    cases o with
    | some start =>
      obtain ⟨extended, s₂, -, hextend⟩ := bind_eq_ok hrest
      exact ih hσ hextend
    | none =>
      obtain ⟨-, rfl⟩ := pure_eq_ok hrest
      rw [takeIf_apply] at htake
      cases hpeek : peek σ s with
      | error d s₂ => rw [hpeek] at htake; cases htake
      | ok t s₂ =>
        obtain ⟨-, next, hnext, rfl⟩ := peek_eq_ok hpeek
        rw [hpeek] at htake
        dsimp only at htake
        split at htake
        · cases htake
        · next hselect =>
          cases htake
          refine ⟨next, hnext, fun continuation hcontinuation => ?_⟩
          rw [hσ, hcontinuation] at hselect
          simpa using hselect

lemma expressionLayer_halts {least : Precedence} :
    Ensures (fun _ s => s.Halts least) (expressionLayer expr least) :=
  .andThen fun _ => .andThen fun _ => .andThen fun _ => extend_halts

lemma expressionWithin_halts {least : Precedence} {fuel : Nat} :
    Ensures (fun _ s => s.Halts least) (expressionWithin fuel least) := by
  cases fuel with
  | zero =>
    intro σ s e s' _ hrun
    cases hrun
  | succ fuel => exact expressionLayer_halts

/-! ## What stands behind a production -/

lemma follows_closed {α : Type} {m : Parse α} {start : Span} {g : α → Form Expr}
    (hg : ∀ a, (g a).grip = .tightest) :
    Ensures (fun e s => s.Follows e) (m >>= fun a => do return ⟨g a, ← spanFrom start⟩) :=
  .andThen fun a => .andThen fun _ => .pure fun _ hgrip => absurd (hg a) hgrip

lemma follows_optional {span : Span} {form : Form Expr} {value : Option Expr} {s : Stream}
    (hgrip : form.grip = if value.isSome then .lowest else .tightest)
    (h : value.isSome = true → s.Halts .lowest) : s.Follows ⟨form, span⟩ := by
  intro hne
  split at hgrip
  · next hsome =>
    rw [hgrip]
    exact h hsome
  · exact absurd hgrip hne

lemma grip_of_withLabel? {e labelled : Expr} {label : String}
    (h : e.withLabel? label = some labelled) : labelled.form.grip = .tightest := by
  obtain ⟨form, span⟩ := e
  cases form <;> cases h <;> rfl

variable (hexpr : ∀ least, Ensures (fun _ s => s.Halts least) (expr least))
include hexpr

lemma follows_last {least : Precedence} {start : Span} {g : Expr → Form Expr}
    (hg : ∀ e, (g e).grip = least) :
    Ensures (fun e s => s.Follows e) (expr least >>= fun e => do return ⟨g e, ← spanFrom start⟩) :=
  (hexpr least).spanned fun e s span h _ => by rwa [hg]

lemma optionalValue_halts :
    Ensures (fun value s => value.isSome = true → s.Halts .lowest) (optionalValue expr) := by
  refine .andThen fun able => ?_
  split
  · exact (hexpr .lowest).map fun _ _ h _ => h
  · exact .pure fun _ h => by cases h

lemma moreStatements_halts : Ensures (fun _ s => s.Halts .lowest) (moreStatements expr) := by
  intro σ s rest s' hσ hrun
  rw [moreStatements, peekKind, bind_assoc] at hrun
  obtain ⟨t, s₁, hpeek, hrun⟩ := bind_eq_ok hrun
  obtain ⟨-, next, hnext, rfl⟩ := peek_eq_ok hpeek
  rw [pure_bind] at hrun
  split at hrun
  · next hends =>
    obtain ⟨-, rfl⟩ := pure_eq_ok hrun
    refine ⟨next, hnext, fun continuation hcontinuation => ?_⟩
    revert hends hcontinuation
    cases next.token.kind <;> intro hends hcontinuation <;> cases hends <;> cases hcontinuation
  · exact ((hexpr .lowest).map (Q := fun _ s => s.Halts .lowest) fun _ _ h => h) hσ hrun

lemma optionalInit_halts {least : Precedence} :
    Ensures (fun value s => value.isSome = true → s.Halts least) (optionalInit expr least) := by
  refine .andThen fun announced => ?_
  split
  · exact (hexpr least).map fun _ _ h _ => h
  · exact .pure fun _ h => by cases h

lemma declarationBody_halts {kind : DeclKind} :
    Ensures (fun declared s => declared.value.isSome = true → s.Halts .lowest)
      (declarationBody expr kind) := by
  refine .andThen fun pattern => .andThen fun type => (optionalInit_halts hexpr).bind ?_
  rintro σ value s declared s' hvalue hrun
  cases hmissing : missingValue? kind type value with
  | some message =>
    rw [hmissing] at hrun
    exact absurd hrun (refuseNext_ne_ok _ _)
  | none =>
    rw [hmissing] at hrun
    obtain ⟨rfl, rfl⟩ := pure_eq_ok hrun
    exact hvalue

lemma continued_follows (continuation : Continuation) (left : Expr) (token : Token) :
    Ensures (fun e s => s.Follows e) (continued expr continuation left token) := by
  cases continuation with
  | binary op level => exact follows_last hexpr fun _ => rfl
  | post op => exact .andThen fun _ => .pure fun _ hgrip => absurd rfl hgrip
  | property => exact follows_closed fun _ => rfl
  | call => exact follows_closed fun _ => rfl
  | element => exact follows_closed fun _ => rfl
  | statement => exact (moreStatements_halts hexpr).spanned fun _ _ _ h _ => h
  | assignment =>
    refine (hexpr .lowest).bind ?_
    rintro σ value s e s' hvalue hrun
    split at hrun
    · rw [bind_apply, spanFrom_apply] at hrun
      obtain ⟨rfl, rfl⟩ := pure_eq_ok hrun
      exact fun _ => hvalue
    · cases hrun

/-- What a production that opens an expression ends with is not continued by what follows. -/
lemma opened_follows (opening : Opening) (token : Token) :
    Ensures (fun e s => s.Follows e) (opened expr opening token) := by
  have closed {s : Stream} {e : Expr} (h : e.form.grip = .tightest) : s.Follows e :=
    fun hgrip => absurd h hgrip
  cases opening with
  | identifier => exact .pure fun _ => closed rfl
  | unary op => exact follows_last hexpr fun _ => rfl
  | literal =>
    change Ensures _ (literal token)
    unfold literal
    split
    all_goals first | exact .pure fun _ => closed rfl | exact .of_fails fun _ _ _ _ h => by cases h
  | block => exact .andThen fun _ => .pure fun _ => closed rfl
  | group => exact .andThen fun _ => follows_closed fun _ => rfl
  | conditional =>
    refine .andThen fun σ => ?_
    cases σ.limit with
    | zero => exact .of_fails fun _ _ _ _ h => by cases h
    | succ fuel => exact .andThen fun _ => .andThen fun _ => follows_closed fun _ => rfl
  | typeCast => exact .andThen fun _ => .andThen fun _ => follows_last hexpr fun _ => rfl
  | declaration =>
    exact (declarationBody_halts hexpr).spanned fun declared _ _ h => follows_optional rfl h
  | whileLoop => exact .andThen fun _ => follows_closed fun _ => rfl
  | forLoop => exact .andThen fun _ => follows_closed fun _ => rfl
  | endlessLoop => exact follows_closed fun _ => rfl
  | lambda => exact .andThen fun _ => follows_last hexpr fun _ => rfl
  | function => exact follows_closed fun _ => rfl
  | classDef => exact .andThen fun _ => .andThen fun _ => follows_closed fun _ => rfl
  | traitDef =>
    exact .andThen fun _ => .andThen fun _ => .andThen fun _ => follows_closed fun _ => rfl
  | enumDef =>
    exact .andThen fun _ => .andThen fun _ => .andThen fun _ => follows_closed fun _ => rfl
  | importing => exact follows_closed fun _ => rfl
  | returning => exact (optionalValue_halts hexpr).spanned fun _ _ _ h => follows_optional rfl h
  | breaking =>
    exact .andThen fun _ => (optionalValue_halts hexpr).spanned fun _ _ _ h =>
      follows_optional rfl h
  | continuing => exact follows_closed fun _ => rfl
  | label =>
    refine .andThen fun _ => .andThen fun target => ?_
    split
    · exact .of_fails fun _ _ _ _ h => by cases h
    · next hlabelled =>
      have hgrip := grip_of_withLabel? hlabelled
      exact .andThen fun _ => .pure fun _ => closed hgrip
  | list => exact follows_closed fun _ => rfl
  | binding => exact .andThen fun _ => follows_last hexpr fun _ => rfl
  | mapping => exact .andThen fun _ => follows_closed fun _ => rfl

end Layers

end FrontEnd
