import FrontEnd.Proofs.Eager
import Mathlib.Data.List.Forall2

/-!
# Layout does not matter to the parser

Two sources whose tokens are the same but for their places are parsed alike: the trees are the same
but for the spans in them, and so is the error if there is one. Blanks and comments between tokens
have no meaning of their own.
-/

namespace FrontEnd

open Parse

/-! ## Data without places -/

/-- Data with all its places struck out. -/
def erase {α : Type} [Spanned α] (a : α) : α :=
  respan (fun _ => Span.zero) a

/-- The views under which two runs are compared if places do not matter. -/
def View.erasing : View :=
  ⟨fun _ => Span.zero, fun _ => Span.zero, fun _ _ => rfl⟩

@[simp] lemma View.left_erasing (s : Span) : View.erasing.left s = Span.zero := rfl

@[simp] lemma View.right_erasing (s : Span) : View.erasing.right s = Span.zero := rfl

/-- Two tokens read the same: their kinds, texts and values agree, wherever they stand. -/
def Token.ReadsLike (t t' : Token) : Prop :=
  t.kind = t'.kind ∧ t.lexeme = t'.lexeme ∧ erase t.value = erase t'.value

lemma Token.ReadsLike.rel {t t' : Token} (h : t.ReadsLike t') : View.erasing.Rel t t' := by
  obtain ⟨kind, value, span, lexeme⟩ := t
  obtain ⟨kind', value', span', lexeme'⟩ := t'
  obtain ⟨rfl, rfl, hvalue⟩ := h
  exact View.rel_token hvalue rfl

lemma rel_of_readsLike {ts ts' : List Token} (h : List.Forall₂ Token.ReadsLike ts ts') :
    View.erasing.Rel ts ts' := by
  induction h with
  | nil => rfl
  | cons ht _ ih => exact View.rel_cons.mpr ⟨ht.rel, ih⟩

/-! ## The tokens of a stream -/

/-- The token of a number in a run, without its place. Behind the run the source ends. -/
def erasedToken (run : List Lexed) (k : Nat) : Token :=
  ((erase (run.map Lexed.token))[k]?).getD ⟨.endOfInput, .none, Span.zero, ""⟩

lemma Setting.Found.erase_end {K : Setting} {t : Token} (h : K.Found t) (hend : t.isEnd = true) :
    erase t = ⟨.endOfInput, .none, Span.zero, ""⟩ := by
  obtain ⟨r, r', htoken⟩ := h
  by_cases hnil : r.cursor.rest = []
  · rw [Scan.tokenHere_at_end _ hnil, EStateM.Result.ok.injEq] at htoken
    rw [← htoken.1]
    rfl
  · obtain ⟨text, hcovers⟩ := Scan.tokenHere_covers K.forward hnil htoken
    rw [hcovers.inside] at hend
    cases hend

section Whole

variable {source : List Char} {run : List Lexed} {ws : List Diagnostic} {before : List Token}
  {s : Stream} {k : Nat} {lexed : Lexed}
variable (hwhole : Scan.Whole (embeddedReader .standard source.length) (.ofText source) run ws)
include hwhole

lemma Setting.Holds.erase_token (h : (Setting.ofText source).Holds before s)
    (hk : s.buffer[k]? = some lexed) : erase lexed.token = erasedToken run k := by
  unfold erasedToken erase
  rw [respan_list, List.getElem?_map, List.getElem?_map]
  rcases h.cases_of_whole rfl (Nat.le_refl _) hwhole hk with hrun | ⟨hle, hend⟩
  · rw [hrun]
    rfl
  · rw [List.getElem?_eq_none hle]
    exact (h.found hk).erase_end hend

end Whole

/-- Two layouts of the same tokens. -/
structure Layouts where
  source : List Char
  source' : List Char
  run : List Lexed
  run' : List Lexed
  whole : ∃ ws, Scan.Whole (embeddedReader .standard source.length) (.ofText source) run ws
  whole' : ∃ ws, Scan.Whole (embeddedReader .standard source'.length) (.ofText source') run' ws
  alike : View.erasing.Rel (run.map Lexed.token) (run'.map Lexed.token)

namespace Layouts

variable (P : Layouts)

/-- The settings in which the two are parsed. -/
abbrev left : Setting := .ofText P.source

abbrev right : Setting := .ofText P.source'

/-- Two streams that have come to the same token. -/
structure Paired (s s' : Stream) : Prop where
  left : P.left.Holds [] s
  right : P.right.Holds [] s'
  size : s'.buffer.size = s.buffer.size
  index : s'.index = s.index

variable {P} {s s' : Stream} {t t' : Token}

lemma length_eq (P : Layouts) : P.run'.length = P.run.length := by
  have hlength := congrArg List.length P.alike
  simpa [respan_list] using hlength.symm

lemma length_lt (P : Layouts) : P.run.length < P.right.session.limit := by
  obtain ⟨ws, hinner, c, last, c', hrun, -⟩ := P.whole'
  have hle := hrun.length_le P.right.forward hinner
  have hlength := P.length_eq
  change _ ≤ P.source'.length at hle
  change _ < P.source'.length + 2
  omega

lemma not_faulty_left (P : Layouts) : ¬ P.left.Faulty := by
  obtain ⟨ws, hwhole⟩ := P.whole
  exact Setting.not_faulty rfl (Nat.le_refl _) hwhole

lemma not_faulty_right (P : Layouts) : ¬ P.right.Faulty := by
  obtain ⟨ws, hwhole⟩ := P.whole'
  exact Setting.not_faulty rfl (Nat.le_refl _) hwhole

namespace Paired

lemma rel (h : P.Paired s s') {k : Nat} {lexed lexed' : Lexed}
    (hk : s.buffer[k]? = some lexed) (hk' : s'.buffer[k]? = some lexed') :
    View.erasing.Rel lexed.token lexed'.token := by
  obtain ⟨ws, hwhole⟩ := P.whole
  obtain ⟨ws', hwhole'⟩ := P.whole'
  have halike : erase (P.run.map Lexed.token) = erase (P.run'.map Lexed.token) := P.alike
  have hleft := h.left.erase_token hwhole hk
  have hright := h.right.erase_token hwhole' hk'
  rw [erasedToken, ← halike] at hright
  exact hleft.trans hright.symm

lemma lt (h : P.Paired s s') {k : Nat} {lexed : Lexed} (hk : s.buffer[k]? = some lexed)
    (hinner : lexed.token.isEnd = false) : k < P.run.length := by
  obtain ⟨ws, hwhole⟩ := P.whole
  rcases h.left.cases_of_whole rfl (Nat.le_refl _) hwhole hk with hrun | ⟨-, hend⟩
  · exact (List.getElem?_eq_some_iff.mp hrun).1
  · rw [hinner] at hend
    cases hend

lemma moved (h : P.Paired s s') (index : Nat) :
    P.Paired { s with index := index } { s' with index := index } :=
  ⟨h.left.moved index, h.right.moved index, h.size, rfl⟩

lemma step (h : P.Paired s s') : P.Paired s.step s'.step :=
  ⟨h.left.moved _, h.right.moved _, h.size, congrArg (· + 1) h.index⟩

lemma record (h : P.Paired s s') {e e' : Event}
    (he : lexical (Journal.warning? e).toList = [])
    (he' : lexical (Journal.warning? e').toList = []) :
    P.Paired (s.record e) (s'.record e') :=
  ⟨h.left.record fun _ => he, h.right.record fun _ => he', h.size, h.index⟩

/-- Both scanners find their next token, and the two look alike. -/
lemma scanNext (h : P.Paired s s') :
    ∃ t s₁ t' s₁', scanNext P.left.session s = .ok t s₁ ∧
      Parse.scanNext P.right.session s' = .ok t' s₁' ∧ P.Paired s₁ s₁' ∧ s₁.index = s.index ∧
        View.erasing.Rel t t' := by
  have hleft := h.left.scanNext
  have hright := h.right.scanNext
  cases hscan : Parse.scanNext P.left.session s with
  | error d s₁ =>
    rw [hscan] at hleft
    exact absurd hleft P.not_faulty_left
  | ok t s₁ =>
    cases hscan' : Parse.scanNext P.right.session s' with
    | error d s₁' =>
      rw [hscan'] at hright
      exact absurd hright P.not_faulty_right
    | ok t' s₁' =>
      rw [hscan] at hleft
      rw [hscan'] at hright
      obtain ⟨r, -, -, hbuffer, -⟩ := scanNext_eq_ok hscan
      obtain ⟨r', -, -, hbuffer', -⟩ := scanNext_eq_ok hscan'
      have hpaired : P.Paired s₁ s₁' :=
        { left := hleft.1
          right := hright.1
          size := by rw [hbuffer, hbuffer', Array.size_push, Array.size_push, h.size]
          index := by rw [hleft.2, hright.2, h.index] }
      have hnew : s₁.buffer[s.buffer.size]? = some ⟨t, r.cursor⟩ := by
        rw [hbuffer, Array.getElem?_push_size]
      have hnew' : s₁'.buffer[s.buffer.size]? = some ⟨t', r'.cursor⟩ := by
        rw [hbuffer', ← h.size, Array.getElem?_push_size]
      exact ⟨t, s₁, t', s₁', rfl, rfl, hpaired, hleft.2, hpaired.rel hnew hnew'⟩

lemma scanPast {n : Nat} (h : P.Paired s s') :
    ∃ t s₁ t' s₁', scanPast n P.left.session s = .ok t s₁ ∧
      Parse.scanPast n P.right.session s' = .ok t' s₁' ∧ P.Paired s₁ s₁' ∧ s₁.index = s.index ∧
        View.erasing.Rel t t' := by
  induction n generalizing s s' with
  | zero => exact h.scanNext
  | succ n ih =>
    obtain ⟨t, s₁, t', s₁', hscan, hscan', hpaired, hindex, -⟩ := h.scanNext
    obtain ⟨u, s₂, u', s₂', hrest, hrest', hpaired', hindex', hrel⟩ := ih hpaired
    refine ⟨u, s₂, u', s₂', ?_, ?_, hpaired', hindex'.trans hindex, hrel⟩
    · rw [Parse.scanPast, discard_eq, bind_apply, bind_apply, hscan]
      exact hrest
    · rw [Parse.scanPast, discard_eq, bind_apply, bind_apply, hscan']
      exact hrest'

lemma peekAhead (h : P.Paired s s') (n : Nat) :
    ∃ t s₁ t' s₁', peekAhead n P.left.session s = .ok t s₁ ∧
      Parse.peekAhead n P.right.session s' = .ok t' s₁' ∧ P.Paired s₁ s₁' ∧ s₁.index = s.index ∧
        View.erasing.Rel t t' := by
  rw [peekAhead_apply, peekAhead_apply, h.index]
  cases hnext : s.buffer[s.index + n]? with
  | none =>
    have hnext' : s'.buffer[s.index + n]? = none := by
      rw [Array.getElem?_eq_none_iff, h.size]
      exact Array.getElem?_eq_none_iff.mp hnext
    rw [hnext', h.size]
    exact h.scanPast
  | some lexed =>
    have hlt : s.index + n < s'.buffer.size := by
      rw [h.size]
      exact (Array.getElem?_eq_some_iff.mp hnext).1
    have hnext' := Array.getElem?_eq_getElem hlt
    rw [hnext']
    exact ⟨lexed.token, s, _, s', rfl, rfl, h, rfl, h.rel hnext hnext'⟩

lemma peek (h : P.Paired s s') :
    ∃ t s₁ t' s₁', peek P.left.session s = .ok t s₁ ∧
      Parse.peek P.right.session s' = .ok t' s₁' ∧ P.Paired s₁ s₁' ∧ s₁.index = s.index ∧
        View.erasing.Rel t t' :=
  h.peekAhead 0

lemma step_index_le {α : Type} {select : Token → Option α} [Spares select] {a : α} {s₀ : Stream}
    (h : P.Paired s s') (hpeek : Parse.peek P.left.session s₀ = .ok t s)
    (hselect : select t = some a) : s.step.index ≤ P.run.length := by
  obtain ⟨-, lexed, hlexed, rfl⟩ := peek_eq_ok hpeek
  exact h.lt hlexed (Spares.isEnd_eq_false hselect)

end Paired

/-! ## Actions that do the same -/

variable {α β : Type} [Spanned α] [Spanned β]

variable (P) in
/-- Two outcomes that are the same but for places: both actions have gone on from a number of
tokens, or both have failed. If the parser itself was not up to its task on the left, nothing is
said of the right. -/
inductive Alike (start : Nat) :
    EStateM.Result Diagnostic Stream α → EStateM.Result Diagnostic Stream α → Prop where
  | ok {a a' s s'} (hs : P.Paired s s') (hstart : start ≤ s.index)
    (hend : s.index ≤ P.run.length) (ha : View.erasing.Rel a a') : Alike start (.ok a s) (.ok a' s')
  | error {d d' s s'} (hs : P.Paired s s') (hd : View.erasing.Rel d d') :
    Alike start (.error d s) (.error d' s')
  | lost {d s r} (hd : d.stage = .internal) : Alike start (.error d s) r

lemma Alike.mono {start start' : Nat} {r r' : EStateM.Result Diagnostic Stream α}
    (h : P.Alike start r r') (hle : start' ≤ start) : P.Alike start' r r' := by
  cases h with
  | ok hs hstart hend ha => exact .ok hs (Nat.le_trans hle hstart) hend ha
  | error hs hd => exact .error hs hd
  | lost hd => exact .lost hd

variable (P) in
/-- Where there are less than `count` tokens left, two actions come to the same. -/
def Mirrors (count : Nat) (m m' : Parse α) : Prop :=
  ∀ s s', P.Paired s s' → s.index ≤ P.run.length → P.run.length < s.index + count →
    P.Alike s.index (m P.left.session s) (m' P.right.session s')

namespace Mirrors

variable {count : Nat} {m m' : Parse α}

lemma pure {a a' : α} (h : View.erasing.Rel a a') : P.Mirrors count (pure a) (pure a') :=
  fun _ _ hs hend _ => .ok hs (Nat.le_refl _) hend h

lemma throw {d d' : Diagnostic} (h : View.erasing.Rel d d') :
    P.Mirrors count (throw d : Parse α) (throw d') :=
  fun _ _ hs _ _ => .error hs h

lemma exhausted : P.Mirrors count (exhausted : Parse α) m' :=
  fun _ _ _ _ _ => .lost rfl

lemma bind {count' : Nat} {f f' : α → Parse β} (hm : P.Mirrors count m m')
    (hf : ∀ a a', View.erasing.Rel a a' → P.Mirrors count' (f a) (f' a'))
    (hcount : ∀ {s a s₁}, m P.left.session s = .ok a s₁ → s.index ≤ s₁.index →
      s.index + count ≤ s₁.index + count') :
    P.Mirrors count (m >>= f) (m' >>= f') := by
  intro s s' hs hend hleft
  have hrun := hm s s' hs hend hleft
  rw [bind_apply, bind_apply]
  cases hcases : m P.left.session s with
  | error d s₁ =>
    rw [hcases] at hrun
    generalize m' P.right.session s' = outcome' at hrun
    cases hrun with
    | error hs₁ hd => exact .error hs₁ hd
    | lost hd => exact .lost hd
  | ok a s₁ =>
    rw [hcases] at hrun
    generalize m' P.right.session s' = outcome' at hrun
    cases hrun with
    | @ok _ a' _ s₁' hs₁ hle hend₁ ha =>
      have hbudget := hcount hcases hle
      have hrest := hf a a' ha s₁ s₁' hs₁ hend₁ (by omega)
      dsimp only
      generalize f a P.left.session s₁ = result, f' a' P.right.session s₁' = result' at hrest
      cases hrest with
      | ok hs₂ hle' hend₂ hb => exact .ok hs₂ (Nat.le_trans hle hle') hend₂ hb
      | error hs₂ hd => exact .error hs₂ hd
      | lost hd => exact .lost hd

lemma look {p p' : Token → α}
    (hp : ∀ t t', View.erasing.Rel t t' → View.erasing.Rel (p t) (p' t')) :
    P.Mirrors count (p <$> Parse.peek) (p' <$> Parse.peek) := by
  intro s s' hs hend _
  obtain ⟨t, s₁, t', s₁', hpeek, hpeek', hs₁, hindex, ht⟩ := hs.peek
  rw [map_apply, map_apply, hpeek, hpeek']
  exact .ok hs₁ (Nat.le_of_eq hindex.symm) (hindex ▸ hend) (hp t t' ht)

lemma takeIf_bind {select select' : Token → Option α} [Spares select] {f f' : Option α → Parse β}
    (hselect : ∀ t t', View.erasing.Rel t t' → View.erasing.Rel (select t) (select' t'))
    (hnone : P.Mirrors count (f none) (f' none))
    (hsome : ∀ a a', View.erasing.Rel a a' →
      P.Mirrors (count - 1) (f (some a)) (f' (some a'))) :
    P.Mirrors count (takeIf select >>= f) (takeIf select' >>= f') := by
  intro s s' hs hend hleft
  obtain ⟨t, s₁, t', s₁', hpeek, hpeek', hs₁, hindex, ht⟩ := hs.peek
  have hrel := hselect t t' ht
  rw [bind_apply, bind_apply, takeIf_apply, takeIf_apply, hpeek, hpeek']
  dsimp only
  cases ha : select t with
  | none =>
    cases ha' : select' t' with
    | some a' => rw [ha, ha'] at hrel; exact absurd hrel View.not_rel_none_some
    | none =>
      dsimp only
      rw [← hindex] at hend hleft ⊢
      exact hnone s₁ s₁' hs₁ hend hleft
  | some a =>
    cases ha' : select' t' with
    | none => rw [ha, ha'] at hrel; exact absurd hrel View.not_rel_some_none
    | some a' =>
      rw [ha, ha'] at hrel
      have hle := hs₁.step_index_le hpeek ha
      have hstep : s₁.step.index = s.index + 1 := congrArg (· + 1) hindex
      exact (hsome a a' (View.rel_some_some.mp hrel) s₁.step s₁'.step hs₁.step hle
        (by omega)).mono (by omega)

lemma accept {select select' : Token → Option α} {refusal refusal' : Token → Diagnostic}
    [Spares select]
    (hselect : ∀ t t', View.erasing.Rel t t' → View.erasing.Rel (select t) (select' t'))
    (hrefusal : ∀ t t', View.erasing.Rel t t' → View.erasing.Rel (refusal t) (refusal' t')) :
    P.Mirrors count (accept select refusal) (accept select' refusal') := by
  intro s s' hs hend _
  obtain ⟨t, s₁, t', s₁', hpeek, hpeek', hs₁, hindex, ht⟩ := hs.peek
  have hrel := hselect t t' ht
  rw [accept_apply, accept_apply, hpeek, hpeek']
  dsimp only
  cases ha : select t with
  | none =>
    cases ha' : select' t' with
    | some a' => rw [ha, ha'] at hrel; exact absurd hrel View.not_rel_none_some
    | none => exact .error hs₁.step (hrefusal t t' ht)
  | some a =>
    cases ha' : select' t' with
    | none => rw [ha, ha'] at hrel; exact absurd hrel View.not_rel_some_none
    | some a' =>
      rw [ha, ha'] at hrel
      exact .ok hs₁.step (by rw [Stream.step_index]; omega) (hs₁.step_index_le hpeek ha)
        (View.rel_some_some.mp hrel)

lemma rel_grammatical (code : Code) (span span' : Span) (message : String) :
    View.erasing.Rel (Diagnostic.grammatical code span message)
      (Diagnostic.grammatical code span' message) := rfl

lemma alike_refuseNext (hs : P.Paired s s') (start : Nat) (code : Code) (message : String) :
    P.Alike start ((refuseNext code message : Parse α) P.left.session s)
      ((refuseNext code message : Parse α) P.right.session s') := by
  obtain ⟨t, s₁, t', s₁', hpeek, hpeek', hs₁, -, -⟩ := hs.peek
  rw [refuseNext_apply, refuseNext_apply, hpeek, hpeek']
  exact .error hs₁.step (rel_grammatical ..)

lemma refuseNext (code : Code) (message : String) :
    P.Mirrors count (refuseNext code message : Parse α) (refuseNext code message) :=
  fun _ _ hs _ _ => alike_refuseNext hs _ code message

lemma spanFrom (start start' : Span) :
    P.Mirrors count (spanFrom start) (spanFrom start') := by
  intro s s' hs hend _
  rw [spanFrom_apply, spanFrom_apply]
  exact .ok hs (Nat.le_refl _) hend rfl

lemma warn (code : Code) (span span' : Span) (message : String) :
    P.Mirrors count (warn code span message) (warn code span' message) :=
  fun _ _ hs hend _ => .ok (hs.record rfl rfl) (Nat.le_refl _) hend rfl

lemma traced {production : String} {token token' : Token} (hm : P.Mirrors count m m') :
    P.Mirrors count (traced production token m) (traced production token' m') := by
  intro s s' hs hend hleft
  have hentered : P.Paired (s.record (.enter production token.lexeme token.span))
      (s'.record (.enter production token'.lexeme token'.span)) := hs.record rfl rfl
  have hrun := hm _ _ hentered hend hleft
  rw [traced_apply, traced_apply]
  generalize m P.left.session (s.record (.enter production token.lexeme token.span)) = outcome,
    m' P.right.session (s'.record (.enter production token'.lexeme token'.span)) = outcome'
    at hrun
  cases hrun with
  | ok hs₁ hle hend₁ ha => exact .ok (hs₁.record rfl rfl) hle hend₁ ha
  | error hs₁ hd => exact .error (hs₁.record rfl rfl) hd
  | lost hd => exact .lost hd

lemma argumentName : P.Mirrors count Production.argumentName Production.argumentName := by
  intro s s' hs hend _
  obtain ⟨t, s₁, t', s₁', hpeek, hpeek', hs₁, hindex, ht⟩ := hs.peek
  rw [argumentName_apply, argumentName_apply, hpeek, hpeek']
  dsimp only
  by_cases hname : t.kind = .identifier
  · obtain ⟨u, s₂, u', s₂', hahead, hahead', hs₂, hindex₂, hu⟩ := hs₁.peekAhead 1
    rw [if_pos hname, if_pos (ht.kind_eq ▸ hname), hahead, hahead']
    dsimp only
    by_cases hcolon : u.kind = .colon
    · rw [if_pos hcolon, if_pos (hu.kind_eq ▸ hcolon)]
      obtain ⟨-, lexed, hlexed, rfl⟩ := peekAhead_eq_ok hahead
      have hlt := hs₂.lt hlexed (by rw [Token.isEnd, hcolon]; rfl)
      refine .ok hs₂.step.step ?_ hlt (View.rel_some_some.mpr ht.ident_rel)
      rw [Stream.step_index, Stream.step_index]
      omega
    · rw [if_neg hcolon, if_neg (hu.kind_eq ▸ hcolon)]
      exact .ok hs₂ (by omega) (by omega) rfl
  · rw [if_neg hname, if_neg (ht.kind_eq ▸ hname)]
    exact .ok hs₁ (by omega) (by omega) rfl

lemma definitionName {body : Production.BodyKind}
    (hm : P.Mirrors count Production.pattern Production.pattern) :
    P.Mirrors count (Production.definitionName body) (Production.definitionName body) := by
  intro s s' hs hend hleft
  have hrun := hm s s' hs hend hleft
  rw [Production.definitionName_apply, Production.definitionName_apply, hs.index]
  generalize Production.pattern P.left.session s = outcome,
    Production.pattern P.right.session s' = outcome' at hrun
  cases hrun with
  | @ok p p' s₁ s₁' hs₁ hle hend₁ hp =>
    have hname := hp.simpleName?
    dsimp only
    cases hn : p.simpleName? with
    | none =>
      cases hn' : p'.simpleName? with
      | some name' => rw [hn, hn'] at hname; exact absurd hname View.not_rel_none_some
      | none => exact alike_refuseNext (hs₁.moved s.index) _ _ _
    | some name =>
      cases hn' : p'.simpleName? with
      | none => rw [hn, hn'] at hname; exact absurd hname View.not_rel_some_none
      | some name' =>
        rw [hn, hn'] at hname
        exact .ok hs₁ hle hend₁ (View.rel_some_some.mp hname)
  | @error d d' s₁ s₁' hs₁ hd =>
    have hstage : d.stage = d'.stage := by
      have hstage : (erase d).stage = (erase d').stage := congrArg Diagnostic.stage hd
      exact hstage
    dsimp only
    rw [← hstage]
    split
    · exact alike_refuseNext (hs₁.moved s.index) _ _ _
    · exact .error hs₁ hd
  | @lost d s₁ r hd =>
    dsimp only
    rw [if_neg (by rw [hd]; decide)]
    exact .lost hd

end Mirrors

end Layouts

/-- Similar productions come to the same, however the tokens are laid out. -/
theorem Similar.mirrors {P : Layouts} {α : Type} [Spanned α] {k : Budget} {sure : Bool}
    {m m' : Parse α} (h : Similar View.erasing k sure m m') {count : Nat} (hk : k = .tokens count) :
    P.Mirrors count m m' := by
  induction h generalizing count with
  | pure h => exact .pure h
  | fail h => exact .throw h
  | exhausted => exact .exhausted
  | exhausted_left => exact .exhausted
  | spent =>
    obtain rfl : 0 = count := Budget.tokens.inj hk
    intro s s' _ hend hleft
    exact absurd hleft (Nat.not_lt_of_le hend)
  | @weaken _ _ k₁ k₂ _ _ _ hwithin h ih =>
    subst hk
    cases k₁ with
    | unlimited => exact hwithin.elim
    | tokens count₁ =>
      have hle : count ≤ count₁ := hwithin
      intro s s' hs hend hleft
      exact ih rfl s s' hs hend (by omega)
  | assured h ih => exact ih hk
  | bind hm hf ihm ihf =>
    exact (ihm hk).bind (fun a a' ha => ihf a a' ha hk) fun _ hle => by omega
  | @bind_spending _ _ _ _ _ _ _ _ _ _ hconsuming hsteady hm hf ihm ihf =>
    subst hk
    exact (ihm rfl).bind (fun a a' ha => ihf a a' ha rfl) fun hrun _ => by
      have hlt := hconsuming.lt P.left.grammar hrun
      omega
  | bind_before hm hf ihm ihf =>
    exact (ihm hk).bind (fun a a' ha => ihf a a' ha hk) fun _ hle => by omega
  | look hp hend => exact .look hp
  | takeIf hselect hend hnone hsome ihnone ihsome =>
    subst hk
    exact .takeIf_bind hselect (ihnone rfl) fun a a' ha => ihsome a a' ha rfl
  | accept hselect hrefusal => exact .accept hselect hrefusal
  | refuseNext => exact .refuseNext _ _
  | spanFrom h => exact .spanFrom _ _
  | warn h => exact .warn _ _ _ _
  | traced h hm ih => exact .traced (ih hk)
  | read hf ih =>
    subst hk
    intro s s' hs hend hleft
    rw [bind_apply, bind_apply, read_apply, read_apply]
    -- Of the budget, no more is needed than the limit on the right leaves room for.
    have hlimit := P.length_lt
    exact ih P.left.session P.right.session (.tokens (min count P.right.session.limit)) rfl rfl
      (Nat.min_le_left _ _) (Nat.min_le_right _ _) rfl s s' hs hend (by omega)
  | argumentName => exact .argumentName
  | definitionName h ih => exact .definitionName (ih hk)

namespace Layouts

/-- Two programs have come to the same but for places, wherever that leaves their streams. If the
parser itself was not up to its task on the left, nothing is said of the right. -/
inductive Settled : EStateM.Result Diagnostic Stream (Option Expr) →
    EStateM.Result Diagnostic Stream (Option Expr) → Prop where
  | ok {a a' s s'} (ha : View.erasing.Rel a a') : Settled (.ok a s) (.ok a' s')
  | error {d d' s s'} (hd : View.erasing.Rel d d') : Settled (.error d s) (.error d' s')
  | lost {d s r} (hd : d.stage = .internal) : Settled (.error d s) r

/-- Programs with the same tokens come to the same. -/
lemma program (P : Layouts) :
    Settled (Production.program P.left.session (.ofReader P.left.start))
      (Production.program P.right.session (.ofReader P.right.start)) := by
  have hs : P.Paired (.ofReader P.left.start) (.ofReader P.right.start) :=
    ⟨Setting.at_start.toHolds, Setting.at_start.toHolds, rfl, rfl⟩
  obtain ⟨t, s₁, t', s₁', hpeek, hpeek', hs₁, hindex, ht⟩ := hs.peek
  rw [Production.program, bind_apply, bind_apply, nextIs_apply, nextIs_apply, hpeek, hpeek']
  dsimp only
  rw [ht.kind_eq]
  by_cases hend : (t'.kind == .endOfInput) = true
  · rw [if_pos hend]
    exact .ok rfl
  · rw [if_neg hend, bind_apply, bind_apply]
    have hsimilar : Similar View.erasing (.tokens (P.run.length + 1)) false
        (Production.expression .lowest) (Production.expression .lowest) := .expression .lowest
    have hrun := hsimilar.mirrors rfl s₁ s₁' hs₁ (hindex ▸ Nat.zero_le _)
      (Nat.lt_add_left _ (Nat.lt_succ_self _))
    generalize Production.expression .lowest P.left.session s₁ = outcome,
      Production.expression .lowest P.right.session s₁' = outcome' at hrun
    cases hrun with
    | error hs₂ hd => exact .error hd
    | lost hd => exact .lost hd
    | ok hs₂ _ _ he =>
      obtain ⟨u, s₃, u', s₃', hnext, hnext', -, -, hu⟩ := hs₂.peek
      simp only [discard_eq, bind_apply, consume, accept_apply, hnext, hnext', Token.ofKind?,
        hu.kind_eq]
      by_cases hkind : u'.kind = .endOfInput
      · simp only [if_pos hkind]
        exact .ok (View.rel_some_some.mpr he)
      · simp only [if_neg hkind]
        exact .error (hu.unexpected _ _)

end Layouts

/-! ## Sources -/

lemma parse_result (source : String) :
    (parse source).result =
      match Production.program (Setting.ofText source.toList).session
        (.ofReader (Setting.ofText source.toList).start) with
      | .ok program _ => .ok program
      | .error d _ => .error d := by
  rw [parse_eq]
  dsimp only
  cases Production.program (Setting.ofText source.toList).session
    (.ofReader (Setting.ofText source.toList).start) <;> rfl

/-- The layout of a program does not matter: two sources with the same tokens, wherever these stand,
are both parsed, to the same tree but for the spans in it, or both refused, with the same error but
for its place. -/
theorem parse_ignores_layout {source source' : String} {tokens tokens' : List Token}
    (h : (tokenize source).result = .ok tokens) (h' : (tokenize source').result = .ok tokens')
    (halike : List.Forall₂ Token.ReadsLike tokens tokens') :
    (∃ program program', (parse source).result = .ok program ∧
      (parse source').result = .ok program' ∧ erase program = erase program') ∨
    ∃ d d', (parse source).result = .error d ∧ (parse source').result = .error d' ∧
      erase d = erase d' := by
  obtain ⟨run, ws, hwhole, rfl⟩ := whole_of_tokenize h
  obtain ⟨run', ws', hwhole', rfl⟩ := whole_of_tokenize h'
  have hprogram := Layouts.program ⟨source.toList, source'.toList, run, run', ⟨ws, hwhole⟩,
    ⟨ws', hwhole'⟩, rel_of_readsLike halike⟩
  have hstage (d : Diagnostic) := parse_error_stage h (d := d)
  rw [parse_result] at hstage
  rw [parse_result, parse_result]
  dsimp only [Layouts.left, Layouts.right] at hprogram
  generalize Production.program (Setting.ofText source.toList).session
      (.ofReader (Setting.ofText source.toList).start) = outcome,
    Production.program (Setting.ofText source'.toList).session
      (.ofReader (Setting.ofText source'.toList).start) = outcome' at hprogram hstage ⊢
  cases hprogram with
  | ok hrel => exact .inl ⟨_, _, rfl, rfl, hrel⟩
  | error hrel => exact .inr ⟨_, _, rfl, rfl, hrel⟩
  | lost hinternal =>
    rw [hstage _ rfl] at hinternal
    cases hinternal

/-- The kind and the texts of a token, unless it stands for more than a text. -/
def Token.plain? (t : Token) : Option (TokenKind × String × Option String) :=
  match t.value with
  | .none => some (t.kind, t.lexeme, none)
  | .text value => some (t.kind, t.lexeme, some value)
  | _ => none

lemma Token.readsLike_of_plain? {t t' : Token} (hplain : t.plain?.isSome = true)
    (h : t'.plain? = t.plain?) : t.ReadsLike t' := by
  obtain ⟨kind, value, span, lexeme⟩ := t
  obtain ⟨kind', value', span', lexeme'⟩ := t'
  cases value <;> cases value' <;> simp_all [Token.plain?, Token.ReadsLike]

lemma readsLike_of_plain? {ts ts' : List Token} (hplain : ts.all (·.plain?.isSome) = true)
    (h : ts'.map Token.plain? = ts.map Token.plain?) : List.Forall₂ Token.ReadsLike ts ts' := by
  induction ts generalizing ts' with
  | nil =>
    rw [List.map_eq_nil_iff.mp h]
    exact .nil
  | cons t ts ih =>
    obtain ⟨t', ts', rfl, ht, hts⟩ := List.map_eq_cons_iff.mp h
    rw [List.all_cons, Bool.and_eq_true] at hplain
    exact .cons (Token.readsLike_of_plain? hplain.1 ht) (ih hplain.2 hts)

/-- A loop on one line is the same loop on five lines, with comments in between. -/
theorem parse_ignores_layout_loop :
    let source := "#a: for x in [y] \x7b let n: M[K] = z; break #a f(x, k: \"s\") \x7d"
    let source' := "#a :\nfor x in [ y ] // each\n\x7b\n  let n : M [K]=z /* n */ ;\n" ++
      "break #a f ( x , k : \"s\" ) \x7d"
    ∃ tokens tokens', (tokenize source).result = .ok tokens ∧
      (tokenize source').result = .ok tokens' ∧ List.Forall₂ Token.ReadsLike tokens tokens' ∧
      ∃ program program', (parse source).result = .ok program ∧
        (parse source').result = .ok program' ∧ erase program = erase program' := by
  intro source source'
  have hplain : (tokenize source).result.toOption.map (·.all (·.plain?.isSome)) = some true := by
    decide +kernel
  have hsame : (tokenize source').result.toOption.map (·.map Token.plain?) =
      (tokenize source).result.toOption.map (·.map Token.plain?) := by
    decide +kernel
  have hparse : (parse source).result.toOption.map Option.isSome = some true := by decide +kernel
  obtain ⟨tokens, htokens, hall⟩ := Outcome.eq_ok_of_map hplain
  rw [htokens] at hsame
  obtain ⟨tokens', htokens', hmap⟩ := Outcome.eq_ok_of_map hsame
  obtain ⟨program, hprogram, -⟩ := Outcome.eq_ok_of_map hparse
  have halike := readsLike_of_plain? hall hmap
  rcases parse_ignores_layout htokens htokens' halike with hread | ⟨d, d', hd, -⟩
  · exact ⟨tokens, tokens', htokens, htokens', halike, hread⟩
  · rw [hprogram] at hd
    cases hd

end FrontEnd
