import FrontEnd.Proofs.Accounts
import FrontEnd.Proofs.Progress
import FrontEnd.Proofs.ToldProductions

/-!
# Chronicles

A chronicle is an account of the journal alone: it says what becomes of the journal in a run that
succeeds, and in one that fails. One that allows for the events of the scanner and of the parser is
true of every source, with all the template strings in it, for the scanner and the parser take
turns on one journal.
-/

namespace FrontEnd

open Parse

/-! ## Accounts of scanning are accounts of streams -/

/-- What is said of the readers behind streams. -/
def Scan.Account.onStreams (A : Scan.Account) : Parse.Account :=
  ⟨fun s s' => A.ok s.reader s'.reader, fun s d s' => A.error s.reader d s'.reader⟩

namespace Scan.Account.Lawful

variable {A : Scan.Account} {σ : Session}

lemma peekAhead (hA : A.Lawful) (htoken : ∀ r, A.Bears r (Scan.token σ.embedded)) (n : Nat)
    (s : Stream) : A.onStreams.Bears σ s (peekAhead n) := by
  have hscan (s : Stream) : A.onStreams.Bears σ s scanNext := by
    have hfirst := htoken s.reader
    unfold Scan.Account.Bears at hfirst
    unfold Parse.Account.Bears
    cases hscan : scanNext σ s with
    | ok t s₁ => rwa [token_of_scanNext hscan] at hfirst
    | error d s₁ => rwa [(token_of_scanNext_error hscan).1] at hfirst
  exact Parse.Account.bears_peekAhead hA.trans hA.lose hscan (fun _ => hA.quiet (.refl _) rfl) n s

end Scan.Account.Lawful

/-! ## Accounts of the journal -/

/-- What is said of what a run writes to the journal, by its outcome. -/
structure Chronicle where
  ok : Journal → Journal → Prop
  error : Journal → Diagnostic → Journal → Prop

namespace Chronicle

/-- A chronicle that allows for the events of scanning and parsing. -/
structure Lawful (C : Chronicle) : Prop where
  refl : ∀ j, C.ok j j
  trans : ∀ {j₁ j₂ j₃}, C.ok j₁ j₂ → C.ok j₂ j₃ → C.ok j₁ j₃
  lose : ∀ {j₁ j₂ d j₃}, C.ok j₁ j₂ → C.error j₂ d j₃ → C.error j₁ d j₃
  fault : ∀ (j : Journal) {d : Diagnostic}, d.Fault → C.error j d j
  /-- A run may go on behind an error and then fail. -/
  retry : ∀ {j₁ d j₂ d' j₃}, C.error j₁ d j₂ → C.error j₂ d' j₃ → C.error j₁ d' j₃
  warned : ∀ (j : Journal) {stage : Stage} {code : Code} (span : Span) (message : String),
    stage ≠ .internal → code.isWarning = true →
      C.ok j (j.push (.warning (Diagnostic.warning stage code span message)))
  opened : ∀ (j : Journal) (place : Position), C.ok j (j.push (.templateOpened place))
  resumed : ∀ (j : Journal) (place : Position), C.ok j (j.push (.templateResumed place))
  traced : ∀ {j j' : Journal} {production lexeme span},
    C.ok (j.push (.enter production lexeme span)) j' → C.ok j (j'.push (.leave production true))
  traced_error : ∀ {j j' : Journal} {production lexeme span d},
    C.error (j.push (.enter production lexeme span)) d j' →
      C.error j d (j'.push (.leave production false))

/-- What is said of the journals of readers. -/
def onReaders (C : Chronicle) : Scan.Account :=
  ⟨fun r r' => C.ok r.journal r'.journal, fun r d r' => C.error r.journal d r'.journal⟩

/-- A chronicle is true of an outcome that comes with a journal. -/
def Tells {α : Type} (C : Chronicle) (o : Outcome α) : Prop :=
  match o.result with
  | .ok _ => C.ok #[] o.journal
  | .error d => C.error #[] d o.journal

namespace Lawful

variable {C : Chronicle} (hC : C.Lawful)
include hC

lemma onReaders : C.onReaders.Lawful where
  trans := hC.trans
  lose := hC.lose
  quiet {r r'} _ hjournal := by
    change C.ok r.journal r'.journal
    rw [hjournal]
    exact hC.refl _
  fault {r r' d} hd _ hjournal := by
    change C.error r.journal d r'.journal
    rw [hjournal]
    exact hC.fault _ hd
  warned {r r' code span message} hcode _ _ _ hjournal := by
    change C.ok r.journal r'.journal
    rw [hjournal]
    exact hC.warned _ _ _ (by decide) hcode

lemma onStreams {σ : Session} (htoken : ∀ r, C.onReaders.Bears r (Scan.token σ.embedded)) :
    C.onReaders.onStreams.Lawful σ False where
  refl _ := hC.refl _
  trans := hC.trans
  lose := hC.lose
  fault _ _ hd := hC.fault _ hd.toFault
  peek s := hC.onReaders.peekAhead htoken 0 s
  peekPast {s _} _ _ := hC.onReaders.peekAhead htoken 1 s
  step _ := hC.refl _
  traced h := hC.traced h
  traced_error h := hC.traced_error h
  warned {s _} body _ _ := hC.warned s.reader.journal _ _ (by decide) (by cases body <;> rfl)
  name := False.elim

lemma onStreams_names {σ : Session} (htoken : ∀ r, C.onReaders.Bears r (Scan.token σ.embedded)) :
    C.onReaders.onStreams.Lawful σ True :=
  Production.lawful_of_refuses (hC.onStreams htoken) fun {s s₁} body h => by
    have hpeek := hC.onReaders.peekAhead htoken 0 { s₁ with index := s.index }
    have hproper : body.badName.1.Proper := by cases body <;> trivial
    have hfrom {d : Diagnostic} {j : Journal} (hd : C.error s₁.reader.journal d j) :
        C.error s.reader.journal d j := by
      rcases h with h | ⟨_, -, h⟩
      · exact hC.lose h hd
      · exact hC.retry h hd
    unfold Parse.Account.Bears at hpeek
    rw [refuseNext_apply, peek]
    cases hrun : Parse.peekAhead 0 σ { s₁ with index := s.index } with
    | error d s₂ =>
      rw [hrun] at hpeek
      exact hfrom hpeek
    | ok t s₂ =>
      rw [hrun] at hpeek
      exact hfrom (hC.lose hpeek (hC.fault _ (.grammatical hproper _ _)))

/-! ## Template strings -/

lemma bears {σ : Session} {α : Type} (m : Parse α) [Told True m]
    (hexpression : ∀ r, C.onReaders.Bears r (Scan.embeddedExpression σ.embedded)) (s : Stream) :
    C.onReaders.onStreams.Bears σ s m :=
  Told.bears (hC.onStreams_names fun _ => hC.onReaders.token (hC.onReaders.behind hexpression)) s

lemma embeddedExpression (depth : Nat) (r : Reader) :
    C.onReaders.Bears r (Scan.embeddedExpression (embeddedReader .standard depth)) := by
  have hA := hC.onReaders
  induction depth generalizing r with
  | zero => exact .of_cursor (hA.raise (.front _ _) nofun)
  | succ depth ih =>
    refine .of_cursor (hA.bind (hC.opened _ _) fun _ r₁ _ => hA.bind ?_ fun e r₂ _ =>
      .of_cursor (hA.bind (hC.resumed _ _) fun _ r₃ _ => ?_))
    · have hrun := hC.bears (Production.expression .lowest) ih (Stream.ofReader r₁)
        (σ := ⟨.standard, embeddedReader .standard depth, r₁.cursor.rest.length + 2⟩)
      unfold Parse.Account.Bears at hrun
      unfold Scan.Account.Bears readEmbedded
      dsimp only
      cases hread : Production.expression .lowest
          ⟨.standard, embeddedReader .standard depth, r₁.cursor.rest.length + 2⟩
          (Stream.ofReader r₁) with
      | ok e s =>
        rw [hread] at hrun
        exact hrun
      | error d s =>
        rw [hread] at hrun
        exact hrun
    · split
      · exact hA.of_quiet _
      · exact hA.raise (.lexical trivial _ _) nofun

/-! ## Sources -/

lemma parse (source : String) : C.Tells (parse source) := by
  have hrun := hC.bears Production.program (hC.embeddedExpression source.toList.length)
    (Stream.ofReader (Reader.ofText source.toList)) (σ := Session.ofText .standard source.toList)
  unfold Parse.Account.Bears at hrun
  unfold Tells FrontEnd.parse
  dsimp only
  cases hprogram : Production.program (Session.ofText .standard source.toList)
      (Stream.ofReader (Reader.ofText source.toList)) with
  | ok program s =>
    rw [hprogram] at hrun
    exact hrun
  | error d s =>
    rw [hprogram] at hrun
    exact hrun

lemma tokenize (source : String) : C.Tells (tokenize source) := by
  have hrun := hC.onReaders.tokens
    (hC.onReaders.behind (hC.embeddedExpression source.toList.length))
    (source.toList.length + 1) (r := Reader.ofText source.toList)
  unfold Scan.Account.Bears at hrun
  unfold Tells FrontEnd.tokenize
  dsimp only
  cases htokens : Scan.tokens (embeddedReader .standard source.toList.length)
      (source.toList.length + 1) (Reader.ofText source.toList) with
  | ok ts r =>
    rw [htokens] at hrun
    exact hrun
  | error d r =>
    rw [htokens] at hrun
    exact hrun

end Lawful

end Chronicle

end FrontEnd
