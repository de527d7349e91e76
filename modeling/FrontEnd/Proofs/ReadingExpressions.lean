import FrontEnd.Proofs.ReadingMembers

/-!
# Expressions read their phrases

Continuations, the productions that open an expression, and the circle that they are closed into:
an expression that is read is a phrase of the grammar, put together of the tokens that were consumed
for it.
-/

namespace FrontEnd.Setting.Reads

open Parse Production

variable {K : Setting} {Λ : Language} {before : List Token} {token : Token}
variable {expr : Precedence → Parse Expr}

/-! ## Continuations -/

section Continuations

section Anywhere

variable (hexpr : ∀ least, K.ReadsPast before (expr least) (Λ.expr least))

/-- An identifier and a colon are the name of an argument, or nothing is read. -/
lemma argumentName :
    K.Reads before [] argumentName fun ts name =>
      (ts = [] ∧ name = none) ∨ ∃ t colon : Token, t.kind = .identifier ∧ colon.kind = .colon ∧
        ts = [t, colon] ∧ name = some t.ident := by
  intro s hs
  rw [List.append_nil] at hs
  have hpeek := hs.peek
  rw [argumentName_apply]
  cases hcases : peek K.session s with
  | error d s₁ =>
    rw [hcases] at hpeek
    exact .inl hpeek
  | ok t s₁ =>
    rw [hcases] at hpeek
    dsimp only
    have hnone : ∀ {s' : Stream}, K.At before s' → K.Outcome before [] (fun ts name =>
        (ts = [] ∧ name = none) ∨ ∃ t colon : Token, t.kind = .identifier ∧
          colon.kind = .colon ∧ ts = [t, colon] ∧ name = some t.ident) (.ok none s') :=
      fun hs' => ⟨[], by simpa using hs', .inl ⟨rfl, rfl⟩⟩
    split
    · next hname =>
      obtain ⟨hat, hfound, lexed, hlexed, rfl⟩ := hpeek
      have hahead := hat.toHolds.peekAhead (n := 1)
      cases hsecond : peekAhead 1 K.session s₁ with
      | error d s₂ =>
        rw [hsecond] at hahead
        exact .inl hahead
      | ok t' s₂ =>
        rw [hsecond] at hahead
        have hat₂ : K.At before s₂ := ⟨hahead.1, hahead.2.trans hat.index⟩
        obtain ⟨hindex, lexed', hlexed', rfl⟩ := peekAhead_eq_ok hsecond
        dsimp only
        split
        · next hcolon =>
          have hfirst : s₂.buffer[s₂.index]? = some lexed := by
            rw [hindex]
            exact peekAhead_buffer hsecond hlexed
          have hstep : K.At (before ++ [lexed.token]) s₂.step :=
            Sees.step ⟨hat₂, hfound, lexed, hfirst, rfl⟩ (by simp [Token.isEnd, hname])
          have hstep₂ := Sees.step ⟨hstep, hat₂.toHolds.found hlexed', lexed', hlexed', rfl⟩
            (by simp [Token.isEnd, hcolon])
          refine ⟨[lexed.token, lexed'.token], ?_, .inr ⟨_, _, hname, hcolon, rfl, rfl⟩⟩
          rwa [List.append_assoc] at hstep₂
        · exact hnone hat₂
    · exact hnone hpeek.1

include hexpr

lemma argument : K.Reads before [] (argument expr) (ArgumentPhrase Λ) := by
  refine .bind_part argumentName ?_
  rintro _ _ (⟨rfl, rfl⟩ | ⟨name, colon, hname, hcolon, rfl, rfl⟩)
  · exact .bind_past (hexpr .lowest) fun ts value h => .pure (.plain h) rfl
  · exact .bind_past (hexpr .lowest) fun ts value h => .pure (.named hname hcolon h) rfl

lemma moreStatements : K.Reads before [] (moreStatements expr) (Optionally (Λ.expr .lowest)) := by
  rw [Production.moreStatements, peekKind, bind_assoc]
  refine .peek_bind fun t _ => ahead ?_
  rw [pure_bind]
  split
  · exact .pure .absent rfl
  · exact .bind_past (hexpr .lowest) fun ts rest h => .pure (.present h) rfl

end Anywhere

variable {least : Precedence} {xs : List Token} {left : Expr} {continuation : Continuation}

/-- What a continuation is read as, together with what it continues. -/
lemma continued [∀ least, Steady (expr least)] [∀ least, Consuming (expr least)]
    (hexpr : ∀ least, K.ReadsWithin before (expr least) (Λ.expr least))
    (hleft : Phrase Λ least xs left)
    (hcontinuation : Grammar.standard.continuation? token.kind = some continuation)
    (hlevel : continuation.level.exceeds least = true)
    (hgrip : continuation.level.exceeds left.form.grip = false) :
    K.Reads before (xs ++ [token]) (continued expr continuation left token)
      (Phrase Λ least) := by
  have finish : ∀ {since us form}, Continued Λ left continuation (token :: us) form →
      since = xs ++ token :: us →
      K.Reads before since (do return (⟨form, ← spanFrom left.span⟩ : Expr)) (Phrase Λ least) := by
    intro since us form h hts
    have hphrase := hleft.continued hcontinuation hlevel hgrip h
    exact .spanned hphrase hleft.span_eq hleft.ne_nil (List.prefix_append _ _) hts
  have hpast : ∀ least, K.ReadsPast (before ++ (xs ++ [token])) (expr least) (Λ.expr least) :=
    fun least => (hexpr least).past (by simp)
  cases continuation with
  | binary op level =>
    exact .bind_within (hexpr .sum) (by simp) fun us right h => finish (.binary h) (by simp)
  | post op => exact finish .post rfl
  | property =>
    exact .identifier_bind fun name hname => finish (.property hname) (by simp)
  | call =>
    have hargument : K.ReadsPast (before ++ (xs ++ [token])) (Production.argument expr)
        (ArgumentPhrase Λ) :=
      fun since => .argument fun least => (hpast least).past since
    exact .bind_part (.commaSeparated hargument) fun us args h => finish (.call h) (by simp)
  | element =>
    exact .bind_part (.commaSeparated (hpast .post)) fun us indices h =>
      finish (.element h) (by simp)
  | statement =>
    exact .bind_part (.moreStatements hpast) fun us rest h => finish (.statement h) (by simp)
  | assignment =>
    refine .bind_within (hexpr .lowest) (by simp) fun us value h => ?_
    split
    · next hleft => exact finish (.assignment h hleft) (by simp)
    · exact .refuse

end Continuations

/-! ## Operands -/

section Operands

variable [∀ least, Steady (expr least)] [∀ least, Consuming (expr least)]
variable (hΛ : Λ.Grounded K) (hexpr : ∀ least, K.ReadsWithin before (expr least) (Λ.expr least))

omit [∀ least, Steady (expr least)] [∀ least, Consuming (expr least)] in
lemma opening?_eq_some {kind : TokenKind} {opening : Opening}
    (h : Grammar.standard.opening? kind = some opening) :
    match opening with
    | .identifier => kind = .identifier
    | .block => kind = .leftBrace
    | .conditional => kind = .kwIf
    | _ => True := by
  change Grammar.standardOpening? kind = _ at h
  unfold Grammar.standardOpening? at h
  split at h <;> cases h <;> trivial

include hΛ hexpr

lemma opened {opening : Opening} (hfound : K.Found token)
    (hopening : Grammar.standard.opening? token.kind = some opening) :
    K.Reads before [token] (opened expr opening token) (Spelled (Opened Λ opening)) := by
  have hkind := opening?_eq_some hopening
  cases opening with
  | identifier => exact .pure ⟨.identifier, (cover_singleton token).symm⟩ rfl
  | unary op => exact .unary hexpr
  | literal => exact .literal hΛ hfound hopening
  | block => exact .block hexpr hkind
  | group => exact .group hexpr
  | conditional =>
    refine .read_bind ((conditional hexpr hkind (K.affords_limit _)).mono ?_)
    exact fun ts ⟨form, span⟩ h => ⟨.conditional h, h.span_eq⟩
  | typeCast => exact .typeCast hexpr hΛ
  | declaration => exact .declaration hΛ hexpr
  | whileLoop => exact .whileLoop hexpr
  | forLoop => exact .forLoop hexpr
  | endlessLoop => exact .endlessLoop hexpr
  | lambda => exact .lambda hΛ hexpr
  | function => exact .function hΛ hexpr
  | classDef => exact .classDef hΛ hexpr
  | traitDef => exact .traitDef hΛ hexpr
  | enumDef => exact .enumDef hΛ
  | importing => exact .importing hΛ
  | returning => exact .returning hexpr
  | breaking => exact .breaking hexpr
  | continuing => exact .continuing
  | label => exact .label hexpr
  | list => exact .list hexpr
  | binding => exact .binding hexpr
  | mapping => exact .mapping hexpr

/-! ## Expressions -/

variable (hhalts : ∀ least, Ensures (fun _ s => s.Halts least) (expr least))
include hhalts

omit hΛ in
lemma extend {least : Precedence} {fuel : Nat} {ts : List Token} {left : Expr} {s : Stream}
    (hfuel : K.Affords (before ++ ts) fuel) (hleft : Phrase Λ least ts left)
    (hs : K.At (before ++ ts) s) (hfollows : s.Follows left) :
    K.Outcome before ts (Phrase Λ least) (extend expr least fuel left K.session s) := by
  induction fuel generalizing ts left s with
  | zero => exact Reads.exhausted hfuel s hs
  | succ fuel ih =>
    have hpeek := hs.peek
    have hspares := spares_continuation K.grammar least
    rw [Production.extend, Similar.continuer_bind, bind_apply, read_apply]
    dsimp only
    rw [bind_apply, takeIf_apply]
    cases hcases : peek K.session s with
    | error d s₁ =>
      rw [hcases] at hpeek
      exact .inl hpeek
    | ok t s₁ =>
      rw [hcases] at hpeek
      obtain ⟨hindex, next, hnext, rfl⟩ := peek_eq_ok hcases
      dsimp only
      cases hselect : ((K.session.grammar.continuation? next.token.kind).filter
          (·.level.exceeds least)).map (next.token, ·) with
      | none => exact Reads.pure hleft rfl s₁ hpeek.1
      | some start =>
        have hstep := hpeek.step (@Spares.isEnd_eq_false _ _ hspares _ _ hselect)
        obtain ⟨continuation, hcontinuation, rfl⟩ := Option.map_eq_some_iff.mp hselect
        rw [K.grammar, Option.filter_eq_some_iff] at hcontinuation
        have hgrip := hfollows.exceeds hcases hcontinuation.1
        have hread : K.Reads before (ts ++ [next.token]) (Parse.traced continuation.name next.token
            (Production.continued expr continuation left next.token)) (Phrase Λ least) :=
          .traced (continued hexpr hleft hcontinuation.1 hcontinuation.2 hgrip)
        have hreads := hread s₁.step (by rwa [← List.append_assoc])
        dsimp only
        rw [bind_apply]
        cases hrun : Parse.traced continuation.name next.token
            (Production.continued expr continuation left next.token) K.session s₁.step with
        | error d s₂ =>
          rw [hrun] at hreads
          exact hreads.further
        | ok e s₂ =>
          rw [hrun] at hreads
          obtain ⟨us, hat, he⟩ := hreads
          have hbehind := (continued_follows hhalts continuation left next.token).traced
            (fun _ _ _ h => h) K.grammar hrun
          rw [List.append_assoc] at hat he
          refine (ih (hfuel.later ?_) he hat hbehind).further
          simp

lemma expressionFrom {least : Precedence} {opening : Opening} (hfound : K.Found token)
    (hopening : Grammar.standard.opening? token.kind = some opening)
    (haccepts : opening.accepts token = true) :
    K.Reads before [token] (expressionFrom expr least token opening) (Phrase Λ least) := by
  intro s hs
  have hread : K.Reads before [token] (Parse.traced opening.name token
      (Production.opened expr opening token)) (Spelled (Opened Λ opening)) :=
    .traced (opened hΛ hexpr hfound hopening)
  have hreads := hread s hs
  rw [Production.expressionFrom, bind_apply]
  cases hrun : Parse.traced opening.name token (Production.opened expr opening token)
      K.session s with
  | error d s₁ =>
    rw [hrun] at hreads
    exact hreads
  | ok e s₁ =>
    rw [hrun] at hreads
    obtain ⟨us, hat, hform, hspan⟩ := hreads
    have hbehind := (opened_follows hhalts opening token).traced (fun _ _ _ h => h) K.grammar hrun
    obtain ⟨form, span⟩ := e
    cases hspan
    exact (extend hexpr hhalts (K.affords_limit _) (.opened hopening haccepts hform) hat
      hbehind).further

lemma expressionLayer {least : Precedence} :
    K.Reads before [] (expressionLayer expr least) (Phrase Λ least) := by
  have hspares := spares_opening K.grammar
  rw [Production.expressionLayer, opener, bind_assoc]
  refine .read_bind (.accept_bind (fun _ => rfl) fun t a hfound ha => ?_)
  obtain ⟨opening, hopening, rfl⟩ := Option.map_eq_some_iff.mp ha
  rw [K.grammar, Option.filter_eq_some_iff] at hopening
  exact expressionFrom hΛ hexpr hhalts hfound hopening.1 hopening.2

end Operands

section Circle

variable (hΛ : Λ.Closed K) {least : Precedence}
include hΛ

theorem expressionWithin {fuel : Nat}
    (hfuel : K.Affords before fuel) :
    K.Reads before [] (expressionWithin fuel least) (Phrase Λ least) := by
  induction fuel generalizing before least with
  | zero => exact .exhausted (by simpa using hfuel)
  | succ fuel ih =>
    refine .expressionLayer hΛ.toGrounded (fun least since hne => ?_) fun _ =>
      expressionWithin_halts
    exact (ih (hfuel.append hne)).mono fun _ _ => hΛ.expr

theorem expression : K.Reads before [] (expression least) (Phrase Λ least) :=
  .read_bind (expressionWithin hΛ (K.affords_limit _))

end Circle

end FrontEnd.Setting.Reads
