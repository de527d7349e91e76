import FrontEnd.Proofs.Nesting
import FrontEnd.Proofs.Unmoved

/-!
# The tokens of a text as one sequence

From each place of a source the scanner finds one token, whatever has happened before:
`Scan.Finds` says which, and `Scan.Run` strings such steps together. Reading a source straight
through and reading it token by token on demand are two ways to follow the same run.
-/

namespace FrontEnd

/-- The warnings of the scanner among others. -/
def lexical (ds : List Diagnostic) : List Diagnostic :=
  ds.filter (·.stage == .lexer)

@[simp] lemma lexical_append (ds ds' : List Diagnostic) :
    lexical (ds ++ ds') = lexical ds ++ lexical ds' :=
  List.filter_append ..

lemma TemplatePart.map_relabel_id : TemplatePart.map (Expr.relabel id) = id := by
  funext p
  cases p with
  | text content => rfl
  | embedded e => exact congrArg TemplatePart.embedded e.relabel_id

instance : Unmoved TokenValue where
  respan_id v := by
    cases v with
    | template parts =>
      change TokenValue.template (parts.map (TemplatePart.map (Expr.relabel id))) = .template parts
      rw [TemplatePart.map_relabel_id, List.map_id]
    | _ => rfl

instance : Unmoved Token where
  respan_id t := by
    change ({ t with value := respan id t.value, span := id t.span } : Token) = t
    rw [respan_id, id]

/-- A text that stays where it is. -/
def Relocation.still : Relocation where
  left := id
  right := id
  merge hs ht := by
    rw [id_eq, id_eq] at hs ht
    rw [hs, ht]
  place _ := Eq
  place_advance {c} _ _ _ h := congrArg (Position.advance · c) h
  span_new n h := by rw [h]

lemma Relocation.eq_of_still {α : Type} [Spanned α] [Unmoved α] {a b : α}
    (h : Relocation.still.Rel a b) : a = b := by
  have heq : respan id a = respan id b := h
  rwa [respan_id, respan_id] at heq

namespace Scene

variable {r r' r₁ : Reader} {tail tail' : List Char}

/-- The scene of two readers, in which those warnings are compared that are raised from now on. -/
def between (ρ : Relocation) (hneutral : Neutral tail')
    (hends : tail = [] → ∀ c ∈ tail'.head?, c = '\n') (r r' : Reader) : Scene :=
  { ρ with
    tail := tail
    tail' := tail'
    neutral' := hneutral
    ends := hends
    raised := r.journal.warnings
    raised' := r'.journal.warnings }

lemma twins_between (ρ : Relocation) {z : List Char} (hneutral : Neutral tail')
    (hends : tail = [] → ∀ c ∈ tail'.head?, c = '\n') (hrest : r.cursor.rest = z ++ tail)
    (hrest' : r'.cursor.rest = z ++ tail') (hplace : ρ.place z r.cursor.pos r'.cursor.pos) :
    (between ρ hneutral hends r r').Twins r r' where
  shared := ⟨z, hrest, hrest', hplace⟩
  echoes := ⟨[], [], (List.append_nil _).symm, (List.append_nil _).symm, rfl⟩

lemma Twins.tokenHere {S : Scene} {depth depth' : Nat} {t : Token} (h : S.Twins r r')
    (hrun : Scan.tokenHere (embeddedReader .standard depth) r = .ok t r₁)
    (hne : r.cursor.rest ≠ []) (hlength : S.tail.length ≤ r₁.cursor.rest.length)
    (hdepth : r.cursor.rest.length ≤ S.tail.length + depth') :
    ∃ t' r₁', Scan.tokenHere (embeddedReader .standard depth') r' = .ok t' r₁' ∧
      S.Twins r₁ r₁' ∧ S.Rel t t' := by
  obtain ⟨t', r₁', hrun', habreast, hechoes, hrel⟩ :=
    Local.tokenHere (S.embeds depth (Nat.le_refl depth')) (forwardWithin_embeddedReader depth) h hne
      hdepth t r₁ hrun hlength
  exact ⟨t', r₁', hrun', h.pass habreast hechoes hlength, hrel⟩

end Scene

/-- The tokens of a list follow one another. -/
abbrev Ordered (ts : List Token) : Prop :=
  ts.Pairwise fun t u => t.span.stop ≤ u.span.offset

namespace Scan

/-- At a cursor, a gap and a token are found, and read with the given warnings; behind them is the
other cursor. -/
def Finds (embedded : Option (Scan Expr)) (c : Cursor) (lexed : Lexed) (ws : List Diagnostic)
    (c' : Cursor) : Prop :=
  ∃ r r₁ r₂, r.cursor = c ∧ skipGap r = .ok () r₁ ∧ r₁.cursor = lexed.start ∧
    tokenHere embedded r₁ = .ok lexed.token r₂ ∧ r₂.cursor = c' ∧
    r₂.journal.warnings = r.journal.warnings ++ ws

/-- Tokens that are found one behind the other. -/
inductive Run (embedded : Option (Scan Expr)) :
    Cursor → List Lexed → List Diagnostic → Cursor → Prop where
  | nil (c : Cursor) : Run embedded c [] [] c
  | cons {c lexed ws c₁ run ws' c'} (h : Finds embedded c lexed ws c₁)
    (hrun : Run embedded c₁ run ws' c') : Run embedded c (lexed :: run) (ws ++ ws') c'

/-- All tokens from a cursor to the end of the source, which is found behind them. -/
structure Whole (embedded : Option (Scan Expr)) (c : Cursor) (run : List Lexed)
    (ws : List Diagnostic) : Prop where
  inner : ∀ lexed ∈ run, lexed.token.isEnd = false
  ends : ∃ c₁ last c₂, Run embedded c run ws c₁ ∧ Finds embedded c₁ last [] c₂ ∧
    last.token.isEnd = true

variable {embedded : Option (Scan Expr)} {depth : Nat} {c c₁ c₂ c' : Cursor} {lexed next : Lexed}
variable {ws ws' : List Diagnostic} {run xs ys : List Lexed} {r : Reader}

/-! ## One token -/

/-- What is found does not depend on what has happened before. -/
lemma Finds.again (h : Finds (embeddedReader .standard depth) c lexed ws c')
    (hdepth : c.rest.length ≤ depth) (hr : r.cursor = c) :
    ∃ r₁ r₂, skipGap r = .ok () r₁ ∧ r₁.cursor = lexed.start ∧
      tokenHere (embeddedReader .standard depth) r₁ = .ok lexed.token r₂ ∧ r₂.cursor = c' ∧
      r₂.journal.warnings = r.journal.warnings ++ ws := by
  obtain ⟨r', r₁', r₂', hr', hgap, hstart, htoken, hend, hwarned⟩ := h
  obtain ⟨hstep, hjournal⟩ := skipGap_eq_ok hgap
  have hle := (Forward.leads hgap).length_le
  rw [hr', hstart] at hstep
  refine ⟨{ r with cursor := lexed.start }, ?_⟩
  have hgap' : skipGap r = .ok () { r with cursor := lexed.start } := by
    rw [skipGap, walk_apply, hr, hstep]
  by_cases hnil : lexed.start.rest = []
  · have hnil' : r₁'.cursor.rest = [] := by rw [hstart, hnil]
    rw [tokenHere_at_end _ hnil', EStateM.Result.ok.injEq] at htoken
    obtain ⟨heq, rfl⟩ := htoken
    refine ⟨{ r with cursor := lexed.start }, hgap', rfl, (tokenHere_at_end _ hnil).trans ?_, ?_,
      ?_⟩
    · rw [← heq, hstart]
    · rw [← hend, hstart]
    · rw [hjournal] at hwarned
      rw [List.append_right_eq_self.mp hwarned.symm, List.append_nil]
  · have hneutral : Neutral [] := fun c hc => by cases hc
    have htwins := Scene.twins_between .still hneutral (fun _ c hc => by cases hc)
      (List.append_nil r₁'.cursor.rest).symm
      (show ({ r with cursor := lexed.start } : Reader).cursor.rest = _ by
        rw [hstart, List.append_nil])
      (congrArg Cursor.pos hstart)
    obtain ⟨t', r₂, htoken', ⟨⟨z, hz, hz', hplace⟩, us, us', hus, hus', hrel⟩, ht⟩ :=
      htwins.tokenHere htoken (by rwa [hstart]) (Nat.zero_le _)
        (show _ ≤ 0 + depth by rw [hr'] at hle; omega)
    have hplace' : r₂'.cursor.pos = r₂.cursor.pos := hplace
    refine ⟨r₂, hgap', rfl, ?_, ?_, ?_⟩
    · rw [htoken', ← Relocation.eq_of_still ht]
    · rw [← hend]
      exact congrArg₂ Cursor.mk (hz'.trans hz.symm) hplace'.symm
    · rw [hus', ← Relocation.eq_of_still hrel]
      rw [hwarned, ← hjournal] at hus
      rw [List.append_cancel_left hus]
      rfl

lemma Finds.unique (h : Finds (embeddedReader .standard depth) c lexed ws c')
    (h' : Finds (embeddedReader .standard depth) c next ws' c₁) (hdepth : c.rest.length ≤ depth) :
    lexed = next ∧ ws = ws' ∧ c' = c₁ := by
  obtain ⟨r, r₁, r₂, hr, hgap, hstart, htoken, hend, hwarned⟩ := h'
  obtain ⟨r₁', r₂', hgap', hstart', htoken', hend', hwarned'⟩ := h.again hdepth hr
  rw [hgap, EStateM.Result.ok.injEq] at hgap'
  obtain rfl := hgap'.2
  rw [htoken, EStateM.Result.ok.injEq] at htoken'
  obtain ⟨ht, rfl⟩ := htoken'
  refine ⟨?_, List.append_cancel_left (hwarned'.symm.trans hwarned), hend'.symm.trans hend⟩
  obtain ⟨t, start⟩ := lexed
  obtain ⟨t', start'⟩ := next
  rw [Lexed.mk.injEq]
  exact ⟨ht.symm, hstart'.symm.trans hstart⟩

section Steps

variable (hembedded : ForwardWithin embedded)
include hembedded

lemma Finds.cases (h : Finds embedded c lexed ws c') :
    c.Leads lexed.start ∧ ((∃ text, lexed.token.Covers lexed.start text c') ∨
      lexed.token.isEnd = true ∧ lexed.start.rest = [] ∧ c' = lexed.start ∧ ws = [] ∧
        lexed.token.span = Span.emptyAt lexed.start.pos) := by
  obtain ⟨r, r₁, r₂, rfl, hgap, hstart, htoken, rfl, hwarned⟩ := h
  rw [← hstart]
  refine ⟨Forward.leads hgap, ?_⟩
  by_cases hnil : r₁.cursor.rest = []
  · rw [tokenHere_at_end _ hnil, EStateM.Result.ok.injEq] at htoken
    obtain ⟨heq, rfl⟩ := htoken
    rw [(skipGap_eq_ok hgap).2] at hwarned
    refine .inr ⟨?_, hnil, rfl, List.append_right_eq_self.mp hwarned.symm, ?_⟩ <;> rw [← heq]
    rfl
  · exact .inl (tokenHere_covers hembedded hnil htoken)

lemma Finds.leads (h : Finds embedded c lexed ws c') : c.Leads c' := by
  obtain ⟨hstart, ⟨text, hcovers⟩ | ⟨-, -, rfl, -⟩⟩ := h.cases hembedded
  · exact hstart.trans ⟨text, hcovers.passes⟩
  · exact hstart

lemma Finds.length_lt (h : Finds embedded c lexed ws c') (hinner : lexed.token.isEnd = false) :
    c'.rest.length < c.rest.length := by
  obtain ⟨hstart, ⟨text, hcovers⟩ | ⟨hend, -⟩⟩ := h.cases hembedded
  · have hle := hstart.length_le
    have hlength := hcovers.passes.length_rest
    have hpos := List.length_pos_iff.mpr hcovers.ne_nil
    omega
  · rw [hinner] at hend
    cases hend

lemma Finds.at_end (h : Finds embedded c lexed ws c') (hnil : c.rest = []) :
    lexed.token.isEnd = true ∧ c'.rest = [] ∧ ws = [] := by
  obtain ⟨hstart, ⟨text, hcovers⟩ | ⟨hend, hnil', rfl, hws, -⟩⟩ := h.cases hembedded
  · have hle := hstart.length_le
    have hlength := hcovers.passes.length_rest
    have hpos := List.length_pos_iff.mpr hcovers.ne_nil
    rw [hnil, List.length_nil] at hle
    omega
  · exact ⟨hend, hnil', hws⟩

lemma Finds.place (h : Finds embedded c lexed ws c') :
    c.pos.offset ≤ lexed.token.span.offset ∧ lexed.token.span.stop ≤ c'.pos.offset := by
  obtain ⟨hstart, ⟨text, hcovers⟩ | ⟨-, -, rfl, -, hspan⟩⟩ := h.cases hembedded
  · have hle := hcovers.passes.offset
    rw [hcovers.span_eq, Span.stop_new (by omega)]
    exact ⟨hstart.offset_le, Nat.le_refl _⟩
  · rw [hspan, Span.stop_emptyAt]
    exact ⟨hstart.offset_le, Nat.le_refl _⟩

end Steps

lemma finds_of_ok (hembedded : ForwardWithin embedded) {r₁ r₂ : Reader} {t : Token}
    (hgap : skipGap r = .ok () r₁) (hhere : tokenHere embedded r₁ = .ok t r₂) :
    ∃ ws, Finds embedded r.cursor ⟨t, r₁.cursor⟩ ws r₂.cursor ∧
      r₂.journal.warnings = r.journal.warnings ++ ws := by
  obtain ⟨ws, hws⟩ := ((Forward.records hgap).trans
    ((forward_tokenHere hembedded).records hhere)).filterMap Journal.warning?
  exact ⟨ws, ⟨r, r₁, r₂, rfl, hgap, rfl, hhere, rfl, hws.symm⟩, hws.symm⟩

/-! ## Many tokens -/

lemma run_append : Run embedded c (xs ++ ys) ws c' ↔
    ∃ c₁ us vs, Run embedded c xs us c₁ ∧ Run embedded c₁ ys vs c' ∧ ws = us ++ vs := by
  induction xs generalizing c ws with
  | nil =>
    refine ⟨fun h => ⟨c, [], ws, .nil c, h, rfl⟩, ?_⟩
    rintro ⟨_, _, vs, ⟨⟩, h, rfl⟩
    exact h
  | cons x xs ih =>
    constructor
    · rintro (_ | ⟨h, hrun⟩)
      obtain ⟨c₁, us, vs, hfront, hback, rfl⟩ := ih.mp hrun
      exact ⟨c₁, _, vs, .cons h hfront, hback, (List.append_assoc ..).symm⟩
    · rintro ⟨c₁, _, vs, _ | ⟨h, hrun⟩, hback, rfl⟩
      rw [List.append_assoc]
      exact .cons h (ih.mpr ⟨c₁, _, vs, hrun, hback, rfl⟩)

lemma Run.snoc (h : Run embedded c run ws c₁) (hnext : Finds embedded c₁ lexed ws' c') :
    Run embedded c (run ++ [lexed]) (ws ++ ws') c' :=
  run_append.mpr ⟨c₁, ws, ws', h, by simpa using Run.cons hnext (.nil c'), rfl⟩

lemma Run.finds (h : Run embedded c run ws c') (hmem : lexed ∈ run) :
    ∃ c₁ ws₁ c₂, Finds embedded c₁ lexed ws₁ c₂ := by
  induction h with
  | nil => cases hmem
  | cons hfinds _ ih =>
    rcases List.mem_cons.mp hmem with rfl | hmem
    · exact ⟨_, _, _, hfinds⟩
    · exact ih hmem

section Runs

variable (hembedded : ForwardWithin embedded)
include hembedded

lemma Run.leads (h : Run embedded c run ws c') : c.Leads c' := by
  induction h with
  | nil c => exact .refl c
  | cons hfinds _ ih => exact (hfinds.leads hembedded).trans ih

lemma Run.length_le (h : Run embedded c run ws c') (hinner : ∀ x ∈ run, x.token.isEnd = false) :
    run.length + c'.rest.length ≤ c.rest.length := by
  induction h with
  | nil c => simp
  | cons hfinds _ ih =>
    have hlt := hfinds.length_lt hembedded (hinner _ List.mem_cons_self)
    have hle := ih fun x hx => hinner x (List.mem_cons_of_mem _ hx)
    rw [List.length_cons]
    omega

lemma Run.at_end (h : Run embedded c run ws c') (hnil : c.rest = []) :
    (∀ x ∈ run, x.token.isEnd = true) ∧ c'.rest = [] ∧ ws = [] := by
  induction h with
  | nil c => exact ⟨by simp, hnil, rfl⟩
  | cons hfinds _ ih =>
    obtain ⟨hend, hnil', rfl⟩ := hfinds.at_end hembedded hnil
    obtain ⟨hall, hrest, rfl⟩ := ih hnil'
    exact ⟨List.forall_mem_cons.mpr ⟨hend, hall⟩, hrest, rfl⟩

lemma Run.le_offset (h : Run embedded c run ws c') :
    ∀ x ∈ run, c.pos.offset ≤ x.token.span.offset := by
  induction h with
  | nil c => simp
  | cons hfinds _ ih =>
    refine List.forall_mem_cons.mpr ⟨(hfinds.place hembedded).1, fun x hx => ?_⟩
    exact Nat.le_trans (hfinds.leads hembedded).offset_le (ih x hx)

lemma Run.stop_le (h : Run embedded c run ws c') :
    ∀ x ∈ run, x.token.span.stop ≤ c'.pos.offset := by
  induction h with
  | nil c => simp
  | cons hfinds hrun ih =>
    exact List.forall_mem_cons.mpr
      ⟨Nat.le_trans (hfinds.place hembedded).2 (hrun.leads hembedded).offset_le, ih⟩

lemma Run.ordered (h : Run embedded c run ws c') : Ordered (run.map Lexed.token) := by
  induction h with
  | nil c => exact .nil
  | cons hfinds hrun ih =>
    refine .cons (fun u hu => ?_) ih
    obtain ⟨x, hx, rfl⟩ := List.mem_map.mp hu
    exact Nat.le_trans (hfinds.place hembedded).2 (hrun.le_offset hembedded x hx)

end Runs

/-! ## All tokens -/

lemma Run.whole (h : Run embedded c run ws c₁) (hinner : ∀ x ∈ run, x.token.isEnd = false)
    (hnil : c₁.rest = []) : Whole embedded c run ws := by
  obtain ⟨r₁, t, r₂, hgap, hhere, -, hjournal, hend⟩ := closed_end embedded ⟨c₁, #[]⟩ hnil
  have hfinds : Finds embedded c₁ ⟨t, r₁.cursor⟩ [] r₂.cursor :=
    ⟨_, r₁, r₂, rfl, hgap, rfl, hhere, rfl, by rw [hjournal, List.append_nil]⟩
  exact ⟨hinner, c₁, _, r₂.cursor, h, hfinds, beq_iff_eq.mpr hend⟩

lemma tokens_whole (hembedded : ForwardWithin embedded) {fuel : Nat} {ts : List Token} {r' : Reader}
    (h : tokens embedded fuel r = .ok ts r') :
    ∃ run ws, Whole embedded r.cursor run ws ∧ ts = run.map Lexed.token ∧
      r'.journal.warnings = r.journal.warnings ++ ws := by
  induction fuel generalizing r ts with
  | zero => cases h
  | succ fuel ih =>
    unfold tokens token at h
    obtain ⟨t, r₂, htoken, hrest⟩ := bind_eq_ok h
    obtain ⟨_, r₁, hgap, hhere⟩ := bind_eq_ok htoken
    obtain ⟨ws, hfinds, hws⟩ := finds_of_ok hembedded hgap hhere
    split at hrest
    · obtain ⟨rfl, rfl⟩ := pure_eq_ok hrest
      next hend =>
      obtain ⟨-, ⟨text, hcovers⟩ | ⟨-, -, -, rfl, -⟩⟩ := hfinds.cases hembedded
      · rw [hcovers.inside] at hend
        cases hend
      · exact ⟨[], [], ⟨by simp, _, _, _, .nil _, hfinds, hend⟩, rfl, hws⟩
    · next hinner =>
      obtain ⟨ts', r₃, htokens, hpure⟩ := bind_eq_ok hrest
      obtain ⟨rfl, rfl⟩ := pure_eq_ok hpure
      obtain ⟨run, ws', ⟨hall, c₁, last, c₂, hrun, hlast, hend⟩, rfl, hwarned⟩ := ih htokens
      refine ⟨⟨t, r₁.cursor⟩ :: run, ws ++ ws', ⟨?_, c₁, last, c₂, .cons hfinds hrun, hlast, hend⟩,
        rfl, ?_⟩
      · exact List.forall_mem_cons.mpr ⟨Bool.eq_false_iff.mpr hinner, hall⟩
      · rw [hwarned, ← List.append_assoc]
        exact congrArg (· ++ ws') hws

/-- A run to the end of the source is followed by reading all tokens. -/
lemma Whole.tokens (h : Whole (embeddedReader .standard depth) c run ws)
    (hdepth : c.rest.length ≤ depth) (hr : r.cursor = c) {fuel : Nat} (hfuel : run.length < fuel) :
    ∃ r', Scan.tokens (embeddedReader .standard depth) fuel r = .ok (run.map Lexed.token) r' ∧
      r'.journal.warnings = r.journal.warnings ++ ws := by
  have hforward := forwardWithin_embeddedReader depth
  obtain ⟨hinner, c₁, last, c₂, hrun, hlast, hend⟩ := h
  induction hrun generalizing r fuel with
  | nil c =>
    obtain ⟨r₁, r₂, hgap, -, htoken, -, hwarned⟩ := hlast.again hdepth hr
    obtain ⟨fuel, rfl⟩ : ∃ f, fuel = f + 1 := ⟨fuel - 1, by omega⟩
    refine ⟨r₂, ?_, hwarned⟩
    rw [Scan.tokens, token, bind_apply, bind_apply, hgap]
    dsimp only
    rw [htoken]
    dsimp only
    rw [if_pos hend]
    rfl
  | @cons c lexed ws c₁ run ws' c' hfinds hrun ih =>
    obtain ⟨r₁, r₂, hgap, -, htoken, hcursor, hwarned⟩ := hfinds.again hdepth hr
    obtain ⟨fuel, rfl⟩ : ∃ f, fuel = f + 1 := ⟨fuel - 1, by omega⟩
    have hdepth' := Nat.le_trans (hfinds.leads hforward).length_le hdepth
    obtain ⟨r', htokens, hwarned'⟩ := ih hdepth' hcursor (Nat.lt_of_succ_lt_succ hfuel)
      (fun x hx => hinner x (List.mem_cons_of_mem _ hx)) hlast
    refine ⟨r', ?_, by rw [hwarned', hwarned, List.append_assoc]⟩
    have hne : ¬ lexed.token.isEnd = true := by
      rw [hinner lexed List.mem_cons_self]
      exact Bool.false_ne_true
    rw [Scan.tokens, token, bind_apply, bind_apply, hgap]
    dsimp only
    rw [htoken]
    dsimp only
    rw [if_neg hne, bind_apply, htokens]
    rfl

namespace Whole

variable (hwhole : Whole (embeddedReader .standard depth) c run ws) (hdepth : c.rest.length ≤ depth)
include hwhole hdepth

lemma compare (h : Run (embeddedReader .standard depth) c ys ws' c') :
    (∃ zs us, run = ys ++ zs ∧ Whole (embeddedReader .standard depth) c' zs us ∧ ws = ws' ++ us) ∨
      ∃ zs, ys = run ++ zs ∧ zs ≠ [] ∧ (∀ z ∈ zs, z.token.isEnd = true) ∧ c'.rest = [] ∧
        ws' = ws := by
  have hforward := forwardWithin_embeddedReader depth
  induction h generalizing run ws with
  | nil c => exact .inl ⟨run, ws, rfl, hwhole, rfl⟩
  | @cons c lexed us c₁ ys vs c' hfinds hrun ih =>
    have hdepth' := Nat.le_trans (hfinds.leads hforward).length_le hdepth
    obtain ⟨hinner, c₂, last, c₃, hrun', hlast, hend⟩ := hwhole
    rcases hrun' with _ | @⟨_, first, us', c₄, run, vs', _, hfirst, hrest⟩
    · obtain ⟨rfl, rfl, rfl⟩ := hfinds.unique hlast hdepth
      obtain ⟨-, ⟨text, hcovers⟩ | ⟨-, hnil, rfl, -⟩⟩ := hfinds.cases hforward
      · rw [hcovers.inside] at hend
        cases hend
      · obtain ⟨hall, hnil', rfl⟩ := hrun.at_end hforward hnil
        exact .inr ⟨_, rfl, List.cons_ne_nil _ _, List.forall_mem_cons.mpr ⟨hend, hall⟩, hnil', rfl⟩
    · obtain ⟨rfl, rfl, rfl⟩ := hfinds.unique hfirst hdepth
      have hwhole' : Whole (embeddedReader .standard depth) c₁ run vs' :=
        ⟨fun x hx => hinner x (List.mem_cons_of_mem _ hx), c₂, last, c₃, hrest, hlast, hend⟩
      rcases ih hwhole' hdepth' with ⟨zs, us', rfl, hzs, rfl⟩ | ⟨zs, rfl, hne, hall, hnil, rfl⟩
      · exact .inl ⟨zs, us', rfl, hzs, (List.append_assoc ..).symm⟩
      · exact .inr ⟨zs, rfl, hne, hall, hnil, rfl⟩

end Whole

end Scan

end FrontEnd
