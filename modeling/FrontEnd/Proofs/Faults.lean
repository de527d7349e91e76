import FrontEnd.Proofs.Lexemes

/-!
# How scanning fails

Scanning fails with errors of the scanner, and never behind the place where it started. A template
string fails as well if an expression in it does. So as long as expressions are read in a text that
is short enough for their reader, no failure is one of the front end itself.
-/

namespace FrontEnd.Scan

variable {α β : Type}

/-! ## Errors of the scanner -/

/-- An action that fails only with errors of the scanner, and leaves no more to read. -/
class Lexical (m : Scan α) : Prop where
  error : ∀ {r d r'}, m r = .error d r' →
    d.stage = .lexer ∧ r'.cursor.rest.length ≤ r.cursor.rest.length

namespace Lexical

lemma of_succeeds {m : Scan α} (h : ∀ r d r', m r ≠ .error d r') : Lexical m where
  error hrun := absurd hrun (h _ _ _)

lemma raise {d : Diagnostic} (hd : d.stage = .lexer) : Lexical (throw d : Scan α) where
  error h := by
    cases h
    exact ⟨hd, Nat.le_refl _⟩

instance (a : α) : Lexical (pure a : Scan α) :=
  of_succeeds fun _ _ _ h => by cases h

instance bind (m : Scan α) (f : α → Scan β) [Forward m] [Lexical m] [∀ a, Lexical (f a)] :
    Lexical (m >>= f) where
  error {r d r'} h := by
    rw [bind_apply] at h
    cases hrun : m r with
    | error d₁ r₁ =>
      rw [hrun] at h
      cases h
      exact error hrun
    | ok a r₁ =>
      rw [hrun] at h
      obtain ⟨hstage, hle⟩ := error h
      exact ⟨hstage, Nat.le_trans hle (Forward.leads hrun).length_le⟩

lemma andThen {m : Scan α} {f : α → Scan β} [Forward m] [Lexical m] (h : ∀ a, Lexical (f a)) :
    Lexical (m >>= f) :=
  inferInstance

instance ite (c : Prop) [Decidable c] (m n : Scan α) [Lexical m] [Lexical n] :
    Lexical (if c then m else n) := by
  split <;> infer_instance

instance : Lexical cursor :=
  of_succeeds fun _ _ _ h => by cases h

instance (n : Nat) : Lexical (skip n) :=
  of_succeeds fun _ _ _ h => by cases h

instance (p : Char → Bool) : Lexical (takeWhile p) :=
  of_succeeds fun _ _ _ h => by cases h

instance (e : Event) : Lexical (record e) :=
  of_succeeds fun _ _ _ h => by cases h

instance (code : Code) (span : Span) (message : String) : Lexical (warn code span message) := by
  unfold warn
  infer_instance

instance (start : Cursor) (kind : TokenKind) (value : TokenValue) :
    Lexical (tokenFrom start kind value) :=
  of_succeeds fun _ _ _ h => by cases h

instance : Lexical advance := by
  unfold advance
  refine andThen fun here => ?_
  split
  · infer_instance
  · exact raise rfl

lemma walk {step : Cursor → EStateM.Result Diagnostic Cursor α}
    (h : ∀ {c d c'}, step c = .error d c' →
      d.stage = .lexer ∧ c'.rest.length ≤ c.rest.length) : Lexical (walk step) where
  error {r d r'} hrun := by
    rw [walk_apply] at hrun
    cases hstep : step r.cursor with
    | ok a c => rw [hstep] at hrun; cases hrun
    | error d₁ c =>
      rw [hstep] at hrun
      cases hrun
      exact h hstep

end Lexical

/-! ## Gaps and tokens -/

lemma gap_error_stage {mode : GapMode} {text : List Char} {pos : Position} {d : Diagnostic}
    {c : Cursor} (h : gap mode text pos = .error d c) :
    d.stage = .lexer ∧ c.rest.length ≤ text.length := by
  fun_induction gap mode text pos with
  | case1 | case5 | case6 => cases h
  | case8 => cases h; exact ⟨rfl, Nat.le_refl _⟩
  | case2 rest pos ih | case3 rest pos ih | case4 ch rest pos _ _ _ ih | case7 ch rest pos ih
  | case9 opened depth rest pos ih | case10 opened depth rest pos ih
  | case11 opened depth ch rest pos _ _ ih =>
    obtain ⟨hstage, hle⟩ := ih h
    exact ⟨hstage, by simp only [List.length_cons]; omega⟩

lemma stringBody_error_stage {opened : Position} {text : List Char} {pos : Position}
    {read : List Char} {d : Diagnostic} {c : Cursor}
    (h : stringBody opened text pos read = .error d c) :
    d.stage = .lexer ∧ c.rest.length ≤ text.length := by
  fun_induction stringBody opened text pos read with
  | case1 => cases h; exact ⟨rfl, Nat.le_refl _⟩
  | case2 => cases h
  | case3 => cases h; exact ⟨rfl, Nat.zero_le _⟩
  | case5 => cases h; exact ⟨rfl, by simp only [List.length_cons]; omega⟩
  | case4 ch rest pos read behind meaning _ ih | case6 ch rest pos read _ _ _ ih =>
    obtain ⟨hstage, hle⟩ := ih h
    exact ⟨hstage, by simp only [List.length_cons]; omega⟩

namespace Lexical

instance skipGap : Lexical skipGap :=
  walk gap_error_stage

instance stringLiteral : Lexical stringLiteral := by
  unfold Scan.stringLiteral
  have hforward (start : Cursor) :
      Forward (Scan.walk fun c => stringBody start.pos c.rest c.pos []) :=
    Forward.walk stringBody_leads
  have hbody (start : Cursor) :
      Lexical (Scan.walk fun c => stringBody start.pos c.rest c.pos []) :=
    walk stringBody_error_stage
  infer_instance

lemma escape {opened : Position} {escaped : Char} :
    Lexical (do throw (invalidEscape ((← cursor).spanFrom opened) escaped) : Scan α) :=
  andThen fun _ => raise rfl

instance charEscape (start content : Position) : Lexical (charEscape start content) := by
  unfold Scan.charEscape
  refine andThen fun escaped => ?_
  split
  · exact raise rfl
  · split
    · infer_instance
    · exact escape

instance charContent (start : Position) : Lexical (charContent start) := by
  unfold Scan.charContent
  refine andThen fun content => andThen fun c => ?_
  split
  · exact andThen fun _ => raise rfl
  · infer_instance

instance charLiteral : Lexical charLiteral := by
  unfold Scan.charLiteral
  refine andThen fun _ => andThen fun _ => andThen fun _ => andThen fun here => ?_
  split
  · infer_instance
  · exact raise rfl

instance escapedDollar (start : Position) : Lexical (escapedDollar start) := by
  unfold Scan.escapedDollar
  infer_instance

instance templateEscape : Lexical templateEscape := by
  unfold Scan.templateEscape
  refine andThen fun _ => andThen fun _ => andThen fun escaped => ?_
  split
  · infer_instance
  · split
    · infer_instance
    · exact escape

instance decimalFraction : Lexical decimalFraction := by
  unfold Scan.decimalFraction
  exact andThen fun here => by split <;> infer_instance

instance decimalNumber (start : Cursor) : Lexical (decimalNumber start) := by
  unfold Scan.decimalNumber
  infer_instance

instance radixFraction (radix : Radix) : Lexical (radixFraction radix) := by
  unfold Scan.radixFraction
  infer_instance

instance radixDigits (start : Cursor) (radix : Radix) : Lexical (radixDigits start radix) := by
  unfold Scan.radixDigits
  refine andThen fun whole => andThen fun fraction => ?_
  split
  · exact andThen fun _ => raise rfl
  · infer_instance

instance radixNumber (start : Cursor) (radix : Radix) : Lexical (radixNumber start radix) := by
  unfold Scan.radixNumber
  refine andThen fun _ => andThen fun here => ?_
  split
  · exact raise rfl
  · split
    · infer_instance
    · exact raise rfl

instance number : Lexical number := by
  unfold Scan.number
  refine andThen fun start => ?_
  split
  · split <;> infer_instance
  · infer_instance

instance label : Lexical label := by
  unfold Scan.label
  refine andThen fun start => andThen fun _ => andThen fun name => ?_
  split
  · split
    · infer_instance
    · exact raise rfl
  · exact raise rfl

instance word : Lexical word := by
  unfold Scan.word
  infer_instance

instance symbol (first : Char) : Lexical (symbol first) := by
  unfold Scan.symbol
  refine andThen fun start => ?_
  split
  · exact raise rfl
  · infer_instance

end Lexical

/-! ## Template strings -/

/-- An action at a place fails, if it does, for the text that is read, and leaves no more to
read. -/
def TameAt (r : Reader) (m : Scan α) : Prop :=
  ∀ d r', m r = .error d r' →
    d.stage ≠ .internal ∧ r'.cursor.rest.length ≤ r.cursor.rest.length

/-- Where less than some width is left to read, expressions in template strings fail for the text
that is read. -/
def Guarded (embedded : Option (Scan Expr)) (width : Nat) : Prop :=
  ∀ r, r.cursor.rest.length < width → TameAt r (embeddedExpression embedded)

lemma Guarded.mono {embedded : Option (Scan Expr)} {width width' : Nat}
    (h : Guarded embedded width') (hle : width ≤ width') : Guarded embedded width :=
  fun r hr => h r (Nat.lt_of_lt_of_le hr hle)

namespace TameAt

variable {r : Reader}

lemma of_lexical {m : Scan α} [Lexical m] : TameAt r m := by
  intro d r' h
  obtain ⟨hstage, hle⟩ := Lexical.error h
  exact ⟨by rw [hstage]; decide, hle⟩

lemma bind {m : Scan α} {f : α → Scan β} [Forward m] (hm : TameAt r m)
    (hf : ∀ a r₁, m r = .ok a r₁ → TameAt r₁ (f a)) : TameAt r (m >>= f) := by
  intro d r' h
  rw [bind_apply] at h
  cases hrun : m r with
  | error d₁ r₁ =>
    rw [hrun] at h
    cases h
    exact hm d r' hrun
  | ok a r₁ =>
    rw [hrun] at h
    obtain ⟨hstage, hle⟩ := hf a r₁ hrun d r' h
    exact ⟨hstage, Nat.le_trans hle (Forward.leads hrun).length_le⟩

lemma of_cursor {f : Cursor → Scan β} (h : TameAt r (f r.cursor)) : TameAt r (cursor >>= f) :=
  fun d r' hrun => h d r' ((cursor_bind f r).symm.trans hrun)

variable {embedded : Option (Scan Expr)} {width : Nat}

lemma templatePiece? (hguarded : Guarded embedded width) (hforward : ForwardWithin embedded)
    {opened : Position} (hwidth : r.cursor.rest.length < width) :
    TameAt r (templatePiece? embedded opened) := by
  have hexpression := forward_embeddedExpression hforward
  unfold Scan.templatePiece?
  refine of_cursor ?_
  split
  · exact @of_lexical _ _ _ (.raise rfl)
  · exact of_lexical
  · exact of_lexical
  · refine bind of_lexical fun _ r₁ hskip => bind (hguarded r₁ ?_) fun _ _ _ => of_lexical
    exact Nat.lt_of_le_of_lt (Forward.leads hskip).length_le hwidth
  · exact of_lexical

lemma templatePieces (hguarded : Guarded embedded width) (hforward : ForwardWithin embedded)
    {opened : Position} {fuel : Nat} {pieces : List Piece} (hwidth : r.cursor.rest.length < width)
    (hfuel : r.cursor.rest.length < fuel) :
    TameAt r (templatePieces embedded opened fuel pieces) := by
  induction fuel generalizing r pieces with
  | zero => exact absurd hfuel (Nat.not_lt_zero _)
  | succ fuel ih =>
    have hpiece := forward_templatePiece? hforward opened
    unfold Scan.templatePieces
    refine bind (templatePiece? hguarded hforward hwidth) fun piece r₁ hrun => ?_
    cases piece with
    | none => exact of_lexical
    | some piece =>
      have hlt : r₁.cursor.rest.length < r.cursor.rest.length := by
        by_cases hrest : r.cursor.rest = []
        · rw [Scan.templatePiece?, cursor_bind, hrest] at hrun
          cases hrun
        · exact Shortens.templatePiece? hforward hrest _ _ hrun
      exact ih (by omega) (by omega)

lemma tokenHere (hguarded : Guarded embedded width) (hforward : ForwardWithin embedded)
    (hwidth : r.cursor.rest.length ≤ width) : TameAt r (tokenHere embedded) := by
  unfold Scan.tokenHere
  refine of_cursor ?_
  split
  · exact of_lexical
  · exact of_lexical
  · next rest hrest =>
    unfold templateLiteral
    refine of_cursor (bind of_lexical fun _ r₁ hskip => ?_)
    have hpieces := forward_templatePieces hforward
    have hlength : r₁.cursor.rest.length < r.cursor.rest.length := by
      rw [skip_apply] at hskip
      cases hskip
      simp [Cursor.drop, hrest]
    exact bind (templatePieces hguarded hforward (by omega) (by omega)) fun _ _ _ => of_lexical
  · exact of_lexical
  · exact of_lexical
  · split <;> exact of_lexical
  · split
    · exact of_lexical
    · split <;> exact of_lexical

lemma token (hguarded : Guarded embedded width) (hforward : ForwardWithin embedded)
    (hwidth : r.cursor.rest.length ≤ width) : TameAt r (token embedded) := by
  refine bind of_lexical fun _ r₁ hskip => tokenHere hguarded hforward ?_
  exact Nat.le_trans (Forward.leads hskip).length_le hwidth

lemma length_lt_token (hforward : ForwardWithin embedded) {r' : Reader} {t : Token}
    (h : Scan.token embedded r = .ok t r') (hinner : t.isEnd = false) :
    r'.cursor.rest.length < r.cursor.rest.length := by
  obtain ⟨_, r₁, hgap, hhere⟩ := bind_eq_ok h
  have hle := (Forward.leads hgap).length_le
  by_cases hrest : r₁.cursor.rest = []
  · rw [tokenHere_at_end embedded hrest] at hhere
    cases hhere
    cases hinner
  · exact Nat.lt_of_lt_of_le (Shortens.tokenHere hforward hrest t r' hhere) hle

lemma tokens (hguarded : Guarded embedded width) (hforward : ForwardWithin embedded) {fuel : Nat}
    (hwidth : r.cursor.rest.length ≤ width) (hfuel : r.cursor.rest.length < fuel) :
    TameAt r (tokens embedded fuel) := by
  have hhere := forward_tokenHere hforward
  induction fuel generalizing r with
  | zero => exact absurd hfuel (Nat.not_lt_zero _)
  | succ fuel ih =>
    have hforward' : Forward (Scan.token embedded) := by unfold Scan.token; infer_instance
    have hmore := forward_tokens hforward fuel
    unfold Scan.tokens
    refine bind (token hguarded hforward hwidth) fun t r₁ hrun => ?_
    split
    · exact of_lexical
    · next hinner =>
      have hlt := length_lt_token hforward hrun (Bool.eq_false_iff.mpr hinner)
      exact bind (ih (by omega) (by omega)) fun _ _ _ => of_lexical

end TameAt

end FrontEnd.Scan
