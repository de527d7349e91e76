import FrontEnd.Proofs.Faults

/-!
# Scanning without a word

Most of the scanner writes nothing to the journal: it succeeds quietly, or it fails with an error
that is graded as one and has a code for errors.
-/

namespace FrontEnd

/-! ## Errors -/

/-- A code for errors of the source. -/
abbrev Code.Proper : Code → Prop
  | .internalFailure | .leadingZero | .redundantPrivate | .unnecessaryDollarEscape
  | .privateTraitMember => False
  | _ => True

/-- A code for a definition without a name. -/
def Code.Nameless (code : Code) : Prop :=
  code = .classNameNotIdentifier ∨ code = .traitNameNotIdentifier

/-- A code for errors of the source other than those for definitions without a name. -/
abbrev Code.Plain : Code → Prop
  | .classNameNotIdentifier | .traitNameNotIdentifier => False
  | code => code.Proper

lemma Code.Plain.proper {code : Code} (h : code.Plain) : code.Proper := by
  cases code <;> trivial

lemma Code.Plain.not_nameless {code : Code} (h : code.Plain) : ¬ code.Nameless := by
  rintro (rfl | rfl) <;> exact h

/-- An error with a code for errors. Failures of the front end itself have a code of their own, and
names of definitions are missed by the parser. -/
structure Diagnostic.Fault (d : Diagnostic) : Prop where
  severity : d.severity = .error
  code : d.code.isWarning = false
  internal : d.code = .internalFailure ↔ d.stage = .internal
  nameless : d.code.Nameless → d.stage = .parser

namespace Diagnostic.Fault

variable {code : Code}

lemma isWarning_eq_false (h : code.Proper) : code.isWarning = false := by
  cases code <;> first | rfl | exact h.elim

lemma ne_internalFailure (h : code.Proper) : code ≠ .internalFailure := by
  rintro rfl
  exact h

lemma lexical (h : code.Plain) (span : Span) (message : String) :
    (Diagnostic.lexical code span message).Fault where
  severity := rfl
  code := isWarning_eq_false h.proper
  internal := iff_of_false (ne_internalFailure h.proper) (by simp [Diagnostic.lexical])
  nameless hcode := absurd hcode h.not_nameless

lemma grammatical (h : code.Proper) (span : Span) (message : String) :
    (Diagnostic.grammatical code span message).Fault where
  severity := rfl
  code := isWarning_eq_false h
  internal := iff_of_false (ne_internalFailure h) (by simp [Diagnostic.grammatical])
  nameless _ := rfl

lemma front (span : Span) (problem : String) : (Diagnostic.internal span problem).Fault where
  severity := rfl
  code := rfl
  internal := iff_of_true rfl rfl
  nameless := by rintro (h | h) <;> cases h

lemma withNote {d : Diagnostic} (h : d.Fault) (note : String) : (d.withNote note).Fault :=
  ⟨h.severity, h.code, h.internal, h.nameless⟩

end Diagnostic.Fault

namespace Scan

variable {α β : Type}

/-- An action that writes nothing to the journal. -/
class Quiet (m : Scan α) : Prop where
  journal : ∀ {r a r'}, m r = .ok a r' → r'.journal = r.journal
  error : ∀ {r d r'}, m r = .error d r' → r'.journal = r.journal ∧ d.Fault

namespace Quiet

lemma of_succeeds {m : Scan α} (hjournal : ∀ {r a r'}, m r = .ok a r' → r'.journal = r.journal)
    (h : ∀ r d r', m r ≠ .error d r') : Quiet m where
  journal := hjournal
  error hrun := absurd hrun (h _ _ _)

lemma raise {d : Diagnostic} (hd : d.Fault) : Quiet (throw d : Scan α) where
  journal h := by cases h
  error h := by
    cases h
    exact ⟨rfl, hd⟩

instance (a : α) : Quiet (pure a : Scan α) :=
  of_succeeds (fun h => by cases h; rfl) fun _ _ _ h => by cases h

instance bind (m : Scan α) (f : α → Scan β) [Quiet m] [∀ a, Quiet (f a)] : Quiet (m >>= f) where
  journal h := by
    obtain ⟨a, r₁, hm, hf⟩ := bind_eq_ok h
    exact (journal hf).trans (journal hm)
  error {r d r'} h := by
    rw [bind_apply] at h
    cases hrun : m r with
    | error d₁ r₁ =>
      rw [hrun] at h
      cases h
      exact error hrun
    | ok a r₁ =>
      rw [hrun] at h
      obtain ⟨hjournal, hfault⟩ := error h
      exact ⟨hjournal.trans (journal hrun), hfault⟩

lemma andThen {m : Scan α} {f : α → Scan β} [Quiet m] (h : ∀ a, Quiet (f a)) : Quiet (m >>= f) :=
  inferInstance

instance ite (c : Prop) [Decidable c] (m n : Scan α) [Quiet m] [Quiet n] :
    Quiet (if c then m else n) := by
  split <;> infer_instance

instance : Quiet cursor :=
  of_succeeds (fun h => by cases h; rfl) fun _ _ _ h => by cases h

instance (n : Nat) : Quiet (skip n) :=
  of_succeeds (fun h => by cases h; rfl) fun _ _ _ h => by cases h

instance (p : Char → Bool) : Quiet (takeWhile p) :=
  of_succeeds (fun h => by cases h; rfl) fun _ _ _ h => by cases h

instance (start : Cursor) (kind : TokenKind) (value : TokenValue) :
    Quiet (tokenFrom start kind value) :=
  of_succeeds (fun h => by cases h; rfl) fun _ _ _ h => by cases h

lemma fault_pastEnd (place : Position) : (pastEnd place).Fault :=
  .lexical trivial _ _

instance : Quiet advance := by
  unfold advance
  refine andThen fun here => ?_
  split
  · infer_instance
  · exact raise (fault_pastEnd _)

lemma walk {step : Cursor → EStateM.Result Diagnostic Cursor α}
    (h : ∀ {c d c'}, step c = .error d c' → d.Fault) : Quiet (walk step) where
  journal heq := (walk_eq_ok heq).2
  error {r d r'} hrun := by
    rw [walk_apply] at hrun
    cases hstep : step r.cursor with
    | ok a c => rw [hstep] at hrun; cases hrun
    | error d₁ c =>
      rw [hstep] at hrun
      cases hrun
      exact ⟨rfl, h hstep⟩

/-! ## Gaps, strings and characters -/

lemma gap_fault {mode : GapMode} {text : List Char} {pos : Position} {d : Diagnostic}
    {c : Cursor} (h : gap mode text pos = .error d c) : d.Fault := by
  fun_induction gap mode text pos with
  | case1 | case5 | case6 => cases h
  | case8 => cases h; exact .withNote (.lexical trivial _ _) _
  | case2 _ _ ih | case3 _ _ ih | case4 _ _ _ _ _ _ ih | case7 _ _ _ ih | case9 _ _ _ _ ih
  | case10 _ _ _ _ ih | case11 _ _ _ _ _ _ _ ih => exact ih h

lemma fault_endlessString (opened : Position) : (endlessString opened).Fault :=
  .withNote (.lexical trivial _ _) _

lemma fault_invalidEscape (span : Span) (escaped : Char) : (invalidEscape span escaped).Fault :=
  .lexical trivial _ _

lemma stringBody_fault {opened : Position} {text : List Char} {pos : Position}
    {read : List Char} {d : Diagnostic} {c : Cursor}
    (h : stringBody opened text pos read = .error d c) : d.Fault := by
  fun_induction stringBody opened text pos read with
  | case1 => cases h; exact fault_endlessString _
  | case2 => cases h
  | case3 => cases h; exact fault_pastEnd _
  | case5 => cases h; exact fault_invalidEscape _ _
  | case4 _ _ _ _ _ _ _ ih | case6 _ _ _ _ _ _ _ ih => exact ih h

instance skipGap : Quiet skipGap :=
  walk gap_fault

instance stringLiteral : Quiet stringLiteral := by
  unfold Scan.stringLiteral
  have hbody (start : Cursor) :
      Quiet (Scan.walk fun c => stringBody start.pos c.rest c.pos []) :=
    walk stringBody_fault
  infer_instance

lemma escape {opened : Position} {escaped : Char} :
    Quiet (do throw (invalidEscape ((← cursor).spanFrom opened) escaped) : Scan α) :=
  andThen fun _ => raise (fault_invalidEscape _ _)

instance charEscape (start content : Position) : Quiet (charEscape start content) := by
  unfold Scan.charEscape
  refine andThen fun escaped => ?_
  split
  · exact raise (.lexical trivial _ _)
  · split
    · infer_instance
    · exact escape

instance charContent (start : Position) : Quiet (charContent start) := by
  unfold Scan.charContent
  refine andThen fun content => andThen fun c => ?_
  split
  · exact andThen fun _ => raise (.lexical trivial _ _)
  · infer_instance

instance charLiteral : Quiet charLiteral := by
  unfold Scan.charLiteral
  refine andThen fun _ => andThen fun _ => andThen fun _ => andThen fun here => ?_
  split
  · infer_instance
  · exact raise (.lexical trivial _ _)

/-! ## Numbers, words and symbols -/

instance decimalFraction : Quiet decimalFraction := by
  unfold Scan.decimalFraction
  exact andThen fun here => by split <;> infer_instance

instance decimalNumber (start : Cursor) : Quiet (decimalNumber start) := by
  unfold Scan.decimalNumber
  infer_instance

instance radixFraction (radix : Radix) : Quiet (radixFraction radix) := by
  unfold Scan.radixFraction
  infer_instance

lemma radixNumber {c : Char} {radix : Radix} (hradix : radix? c = some radix) (start : Cursor) :
    Quiet (radixNumber start radix) := by
  have hcode : radix.emptyCode.Plain := by
    unfold radix? at hradix
    split at hradix <;> cases hradix <;> trivial
  have hdigits : Quiet (radixDigits start radix) := by
    unfold radixDigits
    refine andThen fun whole => andThen fun fraction => ?_
    split
    · exact andThen fun _ => raise (.lexical hcode _ _)
    · infer_instance
  unfold Scan.radixNumber
  refine andThen fun _ => andThen fun here => ?_
  split
  · exact raise (fault_pastEnd _)
  · split
    · exact hdigits
    · exact raise (.lexical hcode _ _)

instance label : Quiet label := by
  unfold Scan.label
  refine andThen fun start => andThen fun _ => andThen fun name => ?_
  split
  · split
    · infer_instance
    · exact raise (.lexical trivial _ _)
  · exact raise (.lexical trivial _ _)

instance word : Quiet word := by
  unfold Scan.word
  infer_instance

instance symbol (first : Char) : Quiet (symbol first) := by
  unfold Scan.symbol
  refine andThen fun start => ?_
  split
  · exact raise (.lexical trivial _ _)
  · infer_instance

end Quiet

end Scan

end FrontEnd
