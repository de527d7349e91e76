import FrontEnd.Journal

/-!
# Handlers

Errors travel as results and end a run. Warnings interrupt nothing: each goes through a handler,
which tells an emitter of it at once and records it for the end.
-/

namespace FrontEnd

/-- What takes in the warnings of a run as they are raised: it tells an emitter of each, which makes
something of what it is told, and records it. -/
structure Handler (τ : Type) where
  emitted : τ
  recorded : List Diagnostic

namespace Handler

variable {τ : Type}

/-- Tells the emitter of a warning, and records it. -/
def warn (emit : τ → Diagnostic → τ) (h : Handler τ) (w : Diagnostic) : Handler τ :=
  ⟨emit h.emitted w, h.recorded ++ [w]⟩

/-- Takes in an event of a run. -/
def observe (emit : τ → Diagnostic → τ) (h : Handler τ) (e : Event) : Handler τ :=
  match Journal.warning? e with
  | some w => h.warn emit w
  | none => h

/-- The handler behind some events, of which the emitter has been told from the start. -/
def after (emit : τ → Diagnostic → τ) (start : τ) (es : List Event) : Handler τ :=
  es.foldl (observe emit) ⟨start, []⟩

/-- The emitter is told of what is recorded, in the same order, and of nothing else. -/
theorem after_eq (emit : τ → Diagnostic → τ) (start : τ) (es : List Event) :
    after emit start es =
      ⟨(es.filterMap Journal.warning?).foldl emit start, es.filterMap Journal.warning?⟩ := by
  have hfold (h : Handler τ) : es.foldl (observe emit) h =
      ⟨(es.filterMap Journal.warning?).foldl emit h.emitted,
        h.recorded ++ es.filterMap Journal.warning?⟩ := by
    induction es generalizing h with
    | nil => simp
    | cons e es ih =>
      rw [List.foldl_cons, ih, observe]
      cases hwarning : Journal.warning? e <;> simp [hwarning, warn]
  rw [after, hfold, List.nil_append]

end Handler

end FrontEnd
