import FrontEnd.Proofs.Chronicle
import FrontEnd.Proofs.Termination

/-!
# Errors and warnings

What a source is refused with is an error with a code for errors, and never a failure of the front
end itself. What is raised on the way is a warning with a code for warnings.
-/

namespace FrontEnd

/-- A warning with a code for warnings, about the source. -/
structure Diagnostic.Caution (d : Diagnostic) : Prop where
  severity : d.severity = .warning
  code : d.code.isWarning = true
  stage : d.stage ≠ .internal

lemma Diagnostic.Caution.ne_internalFailure {d : Diagnostic} (h : d.Caution) :
    d.code ≠ .internalFailure := by
  intro heq
  have hcode := h.code
  rw [heq] at hcode
  cases hcode

/-- Only warnings with codes for warnings are raised. -/
def Journal.Cautious (j : Journal) : Prop :=
  ∀ w ∈ j.warnings, w.Caution

lemma Journal.Cautious.push_other {j : Journal} (h : j.Cautious) {e : Event}
    (he : Journal.warning? e = none) : Journal.Cautious (j.push e) := by
  unfold Journal.Cautious
  rwa [Journal.warnings_push_other j he]

/-- Warnings are warnings, and errors are errors. -/
def gradesChronicle : Chronicle where
  ok j j' := j.Cautious → j'.Cautious
  error j d j' := d.Fault ∧ (j.Cautious → j'.Cautious)

lemma lawful_gradesChronicle : gradesChronicle.Lawful where
  refl _ h := h
  trans h h' hj := h' (h hj)
  lose h h' := ⟨h'.1, fun hj => h'.2 (h hj)⟩
  fault _ _ hd := ⟨hd, id⟩
  retry h h' := ⟨h'.1, fun hj => h'.2 (h.2 hj)⟩
  warned j stage code span message hstage hcode hj w hw := by
    rw [Journal.warnings_push_warning, List.mem_append, List.mem_singleton] at hw
    rcases hw with hw | rfl
    · exact hj w hw
    · exact ⟨rfl, hcode, hstage⟩
  opened _ _ hj := hj.push_other rfl
  resumed _ _ hj := hj.push_other rfl
  traced h hj := (h (hj.push_other rfl)).push_other rfl
  traced_error h := ⟨h.1, fun hj => (h.2 (hj.push_other rfl)).push_other rfl⟩

section Outcomes

variable {α : Type} {o : Outcome α} {d : Diagnostic}

lemma cautious_of_tells (h : gradesChronicle.Tells o) : ∀ w ∈ o.warnings, w.Caution := by
  have hstart : Journal.Cautious #[] := fun w hw => by cases hw
  unfold Chronicle.Tells at h
  split at h
  · exact h hstart
  · exact h.2 hstart

lemma fault_of_tells (h : gradesChronicle.Tells o) (herror : o.result = .error d) : d.Fault := by
  unfold Chronicle.Tells at h
  rw [herror] at h
  exact h.1

end Outcomes

/-- Whatever a source is refused with is an error of the scanner or the parser, with a code that is
none for warnings and not that for failures of the front end. Whatever is raised on the way is a
warning of the scanner or the parser, with a code for warnings. -/
theorem diagnostics_graded (source : String) :
    (∀ d, (parse source).result = .error d ∨ (tokenize source).result = .error d →
      d.severity = .error ∧ d.code.isWarning = false ∧ d.code ≠ .internalFailure ∧
        d.stage ≠ .internal) ∧
    ∀ w, w ∈ (parse source).warnings ∨ w ∈ (tokenize source).warnings →
      w.severity = .warning ∧ w.code.isWarning = true ∧ w.code ≠ .internalFailure ∧
        w.stage ≠ .internal := by
  have hparse := lawful_gradesChronicle.parse source
  have htokenize := lawful_gradesChronicle.tokenize source
  have hgraded {d : Diagnostic} (hfault : d.Fault) (hstage : d.stage ≠ .internal) :
      d.severity = .error ∧ d.code.isWarning = false ∧ d.code ≠ .internalFailure ∧
        d.stage ≠ .internal :=
    ⟨hfault.severity, hfault.code, fun hcode => hstage (hfault.internal.mp hcode), hstage⟩
  refine ⟨fun d hd => ?_, fun w hw => ?_⟩
  · rcases hd with hd | hd
    · exact hgraded (fault_of_tells hparse hd) (parse_error_ne_internal hd)
    · exact hgraded (fault_of_tells htokenize hd) (tokenize_error_ne_internal hd)
  · have hcaution : w.Caution := by
      rcases hw with hw | hw
      · exact cautious_of_tells hparse w hw
      · exact cautious_of_tells htokenize w hw
    exact ⟨hcaution.severity, hcaution.code, hcaution.ne_internalFailure, hcaution.stage⟩

/-- A zero too many, and then a character that stands for nothing. -/
theorem diagnostics_graded_zero :
    ∃ d w, (parse "01 $").result = .error d ∧ w ∈ (parse "01 $").warnings ∧
      (d.severity = .error ∧ d.code ≠ .internalFailure) ∧
      w.severity = .warning ∧ w.code.isWarning = true := by
  have herror : (parse "01 $").result.toOption.isNone = true := by decide +kernel
  have hcount : (parse "01 $").warnings.length = 1 := by decide +kernel
  obtain ⟨d, hd⟩ := Outcome.eq_error_of_isNone herror
  obtain ⟨w, hw⟩ := List.exists_mem_of_length_pos (Nat.lt_of_lt_of_eq Nat.one_pos hcount.symm)
  obtain ⟨herrors, hwarnings⟩ := diagnostics_graded "01 $"
  obtain ⟨hseverity, -, hcode, -⟩ := herrors d (.inl hd)
  obtain ⟨hseverity', hcode', -⟩ := hwarnings w (.inl hw)
  exact ⟨d, w, hd, hw, ⟨hseverity, hcode⟩, hseverity', hcode'⟩

end FrontEnd
