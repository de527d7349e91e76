import FrontEnd.Proofs.Comments
import FrontEnd.Proofs.Respacing

/-!
# Tokens of a text that stands in a longer one

The tokens that are found in a text are found in each longer text too, whatever gap stands in front
of it, as long as what stands behind it goes on with no token: `Run.behind` and `Run.extended`. So
the tokens of a source are put together from those of its parts.
-/

namespace FrontEnd

namespace Scan

variable {depth depth' : Nat} {c c' c₁ : Cursor} {lexed : Lexed} {run : List Lexed}
variable {ws : List Diagnostic} {z y y' tail : List Char} {pos' : Position}

/-! ## Other tails -/

/-- A token that is found in a text is found with another tail behind the text, at another place. -/
lemma Finds.moved (ρ : Relocation) (h : Finds (embeddedReader .standard depth) c lexed ws c₁)
    (hinner : lexed.token.isEnd = false) (hrest : c.rest = z ++ y)
    (hlength : y.length ≤ c₁.rest.length) (hneutral : Neutral y')
    (hends : y = [] → ∀ ch ∈ y'.head?, ch = '\n') (hplace : ρ.place z c.pos pos')
    (hdepth : z.length ≤ depth') :
    ∃ lexed' ws' z₁ pos₁', c₁.rest = z₁ ++ y ∧ z₁.length ≤ z.length ∧ ρ.place z₁ c₁.pos pos₁' ∧
      Finds (embeddedReader .standard depth') ⟨z ++ y', pos'⟩ lexed' ws' ⟨z₁ ++ y', pos₁'⟩ ∧
      ρ.Rel lexed.token lexed'.token := by
  have hforward := forwardWithin_embeddedReader depth
  obtain ⟨htext, hne, -⟩ := h.rest_eq hforward hinner
  have hle := (h.leads hforward).length_le
  obtain ⟨r, r₁, r₂, rfl, hgap, hstart, hhere, rfl, -⟩ := h
  rw [← hstart] at htext
  have hbefore := congrArg List.length htext
  have hwidth := congrArg List.length hrest
  have hpos := List.length_pos_iff.mpr hne
  have hgap_le := (Forward.leads hgap).length_le
  rw [List.length_append] at hbefore hwidth
  let r' : Reader := ⟨⟨z ++ y', pos'⟩, #[]⟩
  have htwins : (Scene.between ρ hneutral hends r r').Twins r r' :=
    Scene.twins_between ρ hneutral hends hrest rfl hplace
  obtain ⟨r₁', hgap', htwins₁⟩ := htwins.skipGap_inside hgap (show y.length < _ by omega)
  obtain ⟨t', r₂', hhere', htwins₂, hrel⟩ :=
    htwins₁.tokenHere hhere (List.ne_nil_of_length_pos (by omega)) hlength
      (show _ ≤ y.length + depth' by omega)
  obtain ⟨z₁, hz₁, hz₁', hplace₁⟩ := htwins₂.shared
  obtain ⟨ws', hfinds', -⟩ := finds_of_ok (forwardWithin_embeddedReader depth') hgap' hhere'
  have hbehind : r₂'.cursor = ⟨z₁ ++ y', r₂'.cursor.pos⟩ := congrArg (Cursor.mk · _) hz₁'
  rw [hbehind] at hfinds'
  have hz : r₂.cursor.rest = z₁ ++ y := hz₁
  refine ⟨⟨t', r₁'.cursor⟩, ws', z₁, r₂'.cursor.pos, hz, ?_, hplace₁, hfinds', hrel⟩
  rw [hz, hrest, List.length_append, List.length_append] at hle
  omega

lemma Run.moved (ρ : Relocation) (h : Run (embeddedReader .standard depth) c run ws c₁)
    (hinner : ∀ x ∈ run, x.token.isEnd = false) (hrest : c.rest = z ++ y)
    (hlength : y.length ≤ c₁.rest.length) (hneutral : Neutral y')
    (hends : y = [] → ∀ ch ∈ y'.head?, ch = '\n') (hplace : ρ.place z c.pos pos')
    (hdepth : z.length ≤ depth') :
    ∃ run' ws' z₁ pos₁', c₁.rest = z₁ ++ y ∧ ρ.place z₁ c₁.pos pos₁' ∧
      Run (embeddedReader .standard depth') ⟨z ++ y', pos'⟩ run' ws' ⟨z₁ ++ y', pos₁'⟩ ∧
      (∀ x ∈ run', x.token.isEnd = false) ∧ ρ.Rel (run.map Lexed.token) (run'.map Lexed.token) := by
  induction h generalizing z pos' with
  | nil c => exact ⟨[], [], z, pos', hrest, hplace, .nil _, hinner, rfl⟩
  | cons hfinds hrun ih =>
    obtain ⟨hx, hxs⟩ := List.forall_mem_cons.mp hinner
    have hle := (hrun.leads (forwardWithin_embeddedReader depth)).length_le
    obtain ⟨x', us, z₁, pos₁, hrest₁, hshorter, hplace₁, hfinds', hrel⟩ :=
      hfinds.moved ρ hx hrest (Nat.le_trans hlength hle) hneutral hends hplace hdepth
    obtain ⟨run', us', z₂, pos₂, hrest₂, hplace₂, hrun', hinner', hrels⟩ :=
      ih hxs hrest₁ hlength hplace₁ (Nat.le_trans hshorter hdepth)
    exact ⟨x' :: run', us ++ us', z₂, pos₂, hrest₂, hplace₂, .cons hfinds' hrun',
      List.forall_mem_cons.mpr ⟨(isEnd_eq_of_rel hrel).trans hx, hinner'⟩,
      View.rel_cons.mpr ⟨hrel, hrels⟩⟩

lemma Run.extended (ρ : Relocation) (h : Run (embeddedReader .standard depth) c run ws c₁)
    (hinner : ∀ x ∈ run, x.token.isEnd = false) (hneutral : Neutral tail)
    (hplace : ρ.place c.rest c.pos pos') (hdepth : c.rest.length ≤ depth') :
    ∃ run' ws' pos₁', ρ.place c₁.rest c₁.pos pos₁' ∧
      Run (embeddedReader .standard depth') ⟨c.rest ++ tail, pos'⟩ run' ws'
        ⟨c₁.rest ++ tail, pos₁'⟩ ∧
      (∀ x ∈ run', x.token.isEnd = false) ∧ ρ.Rel (run.map Lexed.token) (run'.map Lexed.token) := by
  -- A line comment at the end of the text would swallow the tail: first the line is ended.
  have hline : Neutral ['\n'] := by
    intro ch hch
    obtain rfl := Option.some_inj.mp hch
    decide
  obtain ⟨run₁, ws₁, z₁, pos₁, hrest₁, hplace₁, hrun₁, hinner₁, hrel₁⟩ :=
    h.moved ρ hinner (List.append_nil _).symm (Nat.zero_le _) hline
      (fun _ _ hch => (Option.some_inj.mp hch).symm) hplace (Nat.le_refl _)
  obtain ⟨run₂, ws₂, z₂, pos₂, hrest₂, hplace₂, hrun₂, hinner₂, hrel₂⟩ :=
    hrun₁.moved .still hinner₁ rfl (by simp) hneutral (fun hnil => absurd hnil (by simp)) rfl hdepth
  have hz : z₁ = z₂ := List.append_cancel_right hrest₂
  rw [List.append_nil] at hrest₁
  have hpos : pos₁ = pos₂ := hplace₂
  rw [← hz, ← hrest₁, ← hpos] at hrun₂
  rw [← hrest₁] at hplace₁
  rw [Relocation.eq_of_still hrel₂] at hrel₁
  exact ⟨run₂, ws₂, pos₁, hplace₁, hrun₂, hinner₂, hrel₁⟩

/-! ## Gaps in front -/

section Gaps

variable {embedded : Option (Scan Expr)} {following text : List Char} {pos : Position}
variable (hgap : Gap following text) (hfollowing : following ≠ [])
include hgap hfollowing

lemma Finds.behind (h : Finds embedded ⟨following, pos.after text⟩ lexed ws c₁) :
    Finds embedded ⟨text ++ following, pos⟩ lexed ws c₁ := by
  obtain ⟨r, r₁, r₂, hr, hskip, hstart, hhere, hend, hwarned⟩ := h
  refine ⟨{ r with cursor := ⟨text ++ following, pos⟩ }, r₁, r₂, rfl, ?_, hstart, hhere, hend,
    hwarned⟩
  rw [skipGap, walk_apply, hr] at hskip
  rw [skipGap, walk_apply]
  dsimp only
  rw [gap_of_gap hgap hfollowing]
  exact hskip

lemma Run.behind (h : Run embedded ⟨following, pos.after text⟩ run ws c₁) (hne : run ≠ []) :
    Run embedded ⟨text ++ following, pos⟩ run ws c₁ := by
  cases h with
  | nil => exact absurd rfl hne
  | cons hfinds hrun => exact .cons (hfinds.behind hgap hfollowing) hrun

end Gaps

end Scan

end FrontEnd
