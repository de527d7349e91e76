import FrontEnd.Proofs.Quiet

/-!
# Accounts of scanning

An account of scanning says what becomes of a reader, both where an action succeeds and where it
fails. The scanner moves on without a word, fails, raises a warning about the place where a number
or an escape starts, and leaves the expressions in template strings to an action that it is given.
An account that allows for these steps is true of every token.
-/

namespace FrontEnd.Scan

variable {α β : Type}

/-- An action that does not fail. -/
def Sure (m : Scan α) : Prop :=
  ∀ r d r', m r ≠ .error d r'

namespace Sure

lemma bind {m : Scan α} {f : α → Scan β} (hm : Sure m) (hf : ∀ a, Sure (f a)) :
    Sure (m >>= f) := by
  intro r d r' h
  rw [bind_apply] at h
  cases hrun : m r with
  | error d₁ r₁ => exact hm r d₁ r₁ hrun
  | ok a r₁ =>
    rw [hrun] at h
    exact hf a r₁ d r' h

lemma decimalFraction : Sure decimalFraction := by
  unfold Scan.decimalFraction
  refine bind (fun _ _ _ h => by cases h) fun here => ?_
  split
  · split <;> exact fun _ _ _ h => by cases h
  · exact fun _ _ _ h => by cases h

lemma decimalNumber (start : Cursor) : Sure (decimalNumber start) := by
  unfold Scan.decimalNumber
  exact bind (fun _ _ _ h => by cases h) fun _ =>
    bind decimalFraction fun _ _ _ _ h => by cases h

end Sure

/-- What is said of an action's way from one reader to another, by its outcome. -/
structure Account where
  ok : Reader → Reader → Prop
  error : Reader → Diagnostic → Reader → Prop

namespace Account

/-- An account is true of an outcome. -/
def Tells (A : Account) (r : Reader) : EStateM.Result Diagnostic Reader α → Prop
  | .ok _ r' => A.ok r r'
  | .error d r' => A.error r d r'

/-- An account is true of what an action makes of a reader. -/
def Bears (A : Account) (r : Reader) (m : Scan α) : Prop :=
  A.Tells r (m r)

/-- An account that allows for the steps of the scanner. -/
structure Lawful (A : Account) : Prop where
  trans : ∀ {r₁ r₂ r₃}, A.ok r₁ r₂ → A.ok r₂ r₃ → A.ok r₁ r₃
  lose : ∀ {r₁ r₂ d r₃}, A.ok r₁ r₂ → A.error r₂ d r₃ → A.error r₁ d r₃
  quiet : ∀ {r r' : Reader}, r.cursor.Leads r'.cursor → r'.journal = r.journal → A.ok r r'
  fault : ∀ {r r' : Reader} {d : Diagnostic}, d.Fault → d.stage ≠ .parser →
    r'.journal = r.journal → A.error r d r'
  /-- A warning about the place where a piece of text starts is raised while it is read. -/
  warned : ∀ {r r' : Reader} {code : Code} {span : Span} {message : String},
    code.isWarning = true → span.offset = r.cursor.pos.offset → r.cursor.Leads r'.cursor →
    r'.cursor.rest.length < r.cursor.rest.length →
    r'.journal = r.journal.push (.warning (Diagnostic.warning .lexer code span message)) →
    A.ok r r'

lemma Bears.of_cursor {A : Account} {r : Reader} {f : Cursor → Scan β}
    (h : A.Bears r (f r.cursor)) : A.Bears r (cursor >>= f) := by
  rwa [Bears, cursor_bind]

namespace Lawful

variable {A : Account} (hA : A.Lawful) {r : Reader}
include hA

lemma after {m : Scan α} {r₁ : Reader} (h : A.ok r r₁) (hm : A.Bears r₁ m) :
    A.Tells r (m r₁) := by
  unfold Bears at hm
  cases hrun : m r₁ with
  | ok a r₂ =>
    rw [hrun] at hm
    exact hA.trans h hm
  | error d r₂ =>
    rw [hrun] at hm
    exact hA.lose h hm

lemma tells_bind {m : Scan α} {f : α → Scan β} {r₁ : Reader} (hm : A.Tells r (m r₁))
    (hf : ∀ a r₂, m r₁ = .ok a r₂ → A.Bears r₂ (f a)) : A.Tells r ((m >>= f) r₁) := by
  rw [bind_apply]
  cases hrun : m r₁ with
  | error d r₂ =>
    rw [hrun] at hm
    exact hm
  | ok a r₂ =>
    rw [hrun] at hm
    exact hA.after hm (hf a r₂ hrun)

lemma bind {m : Scan α} {f : α → Scan β} (hm : A.Bears r m)
    (hf : ∀ a r₁, m r = .ok a r₁ → A.Bears r₁ (f a)) : A.Bears r (m >>= f) :=
  hA.tells_bind hm hf

lemma of_quiet (m : Scan α) [Forward m] [Lexical m] [Quiet m] : A.Bears r m := by
  unfold Bears
  cases hrun : m r with
  | ok a r' => exact hA.quiet (Forward.leads hrun) (Quiet.journal hrun)
  | error d r' =>
    obtain ⟨hjournal, hfault⟩ := Quiet.error hrun
    exact hA.fault hfault (by rw [(Lexical.error hrun).1]; decide) hjournal

lemma of_quiet_bind (m : Scan α) (f : α → Scan β) [Forward m] [Lexical m] [Quiet m]
    (hf : ∀ a r₁, m r = .ok a r₁ → A.Bears r₁ (f a)) : A.Bears r (m >>= f) :=
  hA.bind (hA.of_quiet m) hf

lemma raise {d : Diagnostic} (hd : d.Fault) (hstage : d.stage ≠ .parser) :
    A.Bears r (throw d : Scan α) :=
  hA.fault hd hstage rfl

/-! ## Warnings of the scanner -/

lemma number (hdigit : Shortens.StartsNumber r.cursor.rest) : A.Bears r number := by
  unfold Scan.number
  refine .of_cursor ?_
  split
  · next c rest hrest =>
    split
    · next radix hradix =>
      have hquiet := Quiet.radixNumber hradix r.cursor
      exact hA.of_quiet _
    · split
      · rw [Bears, bind_apply, warn, record_apply]
        dsimp only
        cases hrun : decimalNumber r.cursor (r.record _) with
        | error d r' => exact absurd hrun (Sure.decimalNumber r.cursor _ d r')
        | ok t r' =>
          have hlength := Shortens.decimalNumber (r := r.record _) hdigit t r' hrun
          have hleads := Forward.leads (m := decimalNumber r.cursor) hrun
          exact hA.warned rfl rfl hleads hlength (Quiet.journal (m := decimalNumber r.cursor) hrun)
      · exact hA.of_quiet _
  · exact hA.of_quiet _

lemma escapedDollar {r₁ : Reader} (hleads : r.cursor.Leads r₁.cursor)
    (hlength : r₁.cursor.rest.length < r.cursor.rest.length) (hjournal : r₁.journal = r.journal) :
    A.Tells r (escapedDollar r.cursor.pos r₁) := by
  have hwarned : (r₁.record (.warning (Diagnostic.warning .lexer .unnecessaryDollarEscape
      (r₁.cursor.spanFrom r.cursor.pos) Code.unnecessaryDollarEscape.title))).journal =
      r.journal.push _ :=
    congrArg (Array.push · _) hjournal
  rw [Scan.escapedDollar, cursor_bind]
  by_cases hbrace : r₁.cursor.peek? = some '{'
  · rw [if_pos hbrace, bind_apply, skip_apply]
    exact hA.quiet (hleads.trans ⟨_, r₁.cursor.passes_drop 1⟩) hjournal
  · rw [if_neg hbrace, bind_apply, warn, record_apply]
    exact hA.warned rfl rfl hleads hlength hwarned

lemma templateEscape (hrest : r.cursor.rest ≠ []) : A.Bears r templateEscape := by
  have hlength : (r.cursor.drop 1).rest.length < r.cursor.rest.length := by
    have hpos := List.length_pos_iff.mpr hrest
    simp only [Cursor.drop, List.length_drop]
    omega
  rw [Bears, Scan.templateEscape, cursor_bind, bind_apply, skip_apply]
  dsimp only
  rw [bind_apply]
  cases hrun : advance { r with cursor := r.cursor.drop 1 } with
  | error d r₁ =>
    obtain ⟨hjournal, hfault⟩ := Quiet.error hrun
    exact hA.fault hfault (by rw [(Lexical.error hrun).1]; decide) hjournal
  | ok escaped r₁ =>
    have hskip : (r.cursor.drop 1).Leads r₁.cursor := Forward.leads hrun
    have hleads : r.cursor.Leads r₁.cursor :=
      Cursor.Leads.trans ⟨_, r.cursor.passes_drop 1⟩ hskip
    have hjournal := Quiet.journal hrun
    have hlength' := Nat.lt_of_le_of_lt hskip.length_le hlength
    dsimp only
    by_cases hdollar : escaped = '$'
    · rw [if_pos hdollar]
      exact hA.escapedDollar hleads hlength' hjournal
    · rw [if_neg hdollar]
      cases unescape? escaped with
      | some meaning => exact hA.quiet hleads hjournal
      | none => exact hA.fault (Quiet.fault_invalidEscape _ _) (fun h => by cases h) hjournal

/-! ## Tokens -/

section Tokens

variable {embedded : Option (Scan Expr)}

lemma behind (h : ∀ r, A.Bears r (embeddedExpression embedded)) {r r₁ : Reader} (hway : A.ok r r₁)
    (_ : r₁.cursor.rest.length < r.cursor.rest.length) :
    A.Tells r (embeddedExpression embedded r₁) :=
  hA.after hway (h r₁)

/- The account has to be true of the expressions in template strings, with some text before them. -/
variable (hexpression : ∀ {r r₁}, A.ok r r₁ → r₁.cursor.rest.length < r.cursor.rest.length →
  A.Tells r (embeddedExpression embedded r₁))
include hexpression

lemma templatePiece? (opened : Position) : A.Bears r (templatePiece? embedded opened) := by
  unfold Scan.templatePiece?
  refine .of_cursor ?_
  split
  · exact hA.raise (Quiet.fault_endlessString _) nofun
  · exact hA.of_quiet _
  · next hrest => exact hA.bind (hA.templateEscape (by simp [hrest])) fun _ _ _ => hA.of_quiet _
  · next hrest =>
    have hskip : A.ok r { r with cursor := r.cursor.drop 2 } :=
      hA.quiet ⟨_, r.cursor.passes_drop 2⟩ rfl
    have hlength : (r.cursor.drop 2).rest.length < r.cursor.rest.length := by
      simp only [Cursor.drop, hrest, List.drop_succ_cons, List.drop_zero, List.length_cons]
      omega
    rw [Bears, bind_apply, skip_apply]
    exact hA.tells_bind (hexpression hskip hlength) fun _ _ _ => hA.of_quiet _
  · exact hA.of_quiet _

lemma templatePieces (opened : Position) (fuel : Nat) (pieces : List Piece) :
    A.Bears r (templatePieces embedded opened fuel pieces) := by
  induction fuel generalizing r pieces with
  | zero => exact hA.raise (.front _ _) nofun
  | succ fuel ih =>
    unfold Scan.templatePieces
    refine hA.bind (hA.templatePiece? hexpression opened) fun piece r₁ _ => ?_
    cases piece with
    | none => exact hA.of_quiet _
    | some piece => exact ih _

lemma tokenHere : A.Bears r (tokenHere embedded) := by
  unfold Scan.tokenHere
  refine .of_cursor ?_
  split
  · exact hA.of_quiet _
  · exact hA.of_quiet _
  · unfold templateLiteral
    exact .of_cursor (hA.of_quiet_bind _ _ fun _ _ _ =>
      hA.bind (hA.templatePieces hexpression _ _ _) fun _ _ _ => hA.of_quiet _)
  · exact hA.of_quiet _
  · exact hA.of_quiet _
  · next hrest =>
    split
    · next hdigit => exact hA.number (by rw [hrest]; exact hdigit)
    · exact hA.of_quiet _
  · next c rest hpoint hrest =>
    split
    · next hdigit =>
      refine hA.number ?_
      rw [hrest]
      unfold Shortens.StartsNumber
      split
      · next d tail heq =>
        cases heq
        exact absurd rfl (hpoint d tail rfl)
      · next heq => cases heq; exact hdigit
      · next heq => cases heq
    · split <;> exact hA.of_quiet _

lemma token : A.Bears r (token embedded) :=
  hA.of_quiet_bind _ _ fun _ _ _ => hA.tokenHere hexpression

lemma tokens (fuel : Nat) : A.Bears r (tokens embedded fuel) := by
  induction fuel generalizing r with
  | zero => exact .of_cursor (hA.raise (.front _ _) nofun)
  | succ fuel ih =>
    unfold Scan.tokens
    refine hA.bind (hA.token hexpression) fun t r₁ _ => ?_
    split
    · exact hA.of_quiet _
    · exact hA.bind ih fun _ _ _ => hA.of_quiet _

end Tokens

end Lawful

end Account

end FrontEnd.Scan
