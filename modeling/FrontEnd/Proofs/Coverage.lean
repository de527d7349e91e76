import FrontEnd.Proofs.YieldingTokens

/-!
# Spans cover what was read

An expression, a pattern or a type has the range of the tokens that were consumed to read it,
wherever in a parse it is read. The nodes of a tree lie in one another, those in template strings
too.
-/

namespace FrontEnd

open Parse

/-! ## Reachable streams -/

/-- The streams that a parser can come to: it starts in front of any place of a source, scans a
token, consumes one that is not the end of the source, writes to the journal, or goes back to an
earlier token. -/
inductive Stream.Reachable (σ : Session) : Stream → Prop where
  | start (r : Reader) : Reachable σ (.ofReader r)
  | scan {s t s'} (h : Reachable σ s) (hscan : scanNext σ s = .ok t s') : Reachable σ s'
  | step {s lexed} (h : Reachable σ s) (hnext : s.buffer[s.index]? = some lexed)
    (hinner : lexed.token.isEnd = false) : Reachable σ s.step
  | record {s} (h : Reachable σ s) (e : Event) : Reachable σ (s.record e)
  | back {s i} (h : Reachable σ s) (hi : i ≤ s.index) : Reachable σ { s with index := i }

namespace Stream.Reachable

variable {σ : Session} {s s' : Stream}

lemma keeps {α : Type} {m : Parse α} [Steady m] (h : s.Reachable σ) (hσ : σ.grammar = .standard)
    {a : α} (hrun : m σ s = .ok a s') : s'.Reachable σ :=
  Steady.keeps hσ ⟨.scan, .step, fun e h => .record h e⟩ h hrun

lemma exists_at (h : s.Reachable σ) (hσ : σ.grammar = .standard)
    (hforward : Scan.ForwardWithin σ.embedded) :
    ∃ r before, (Setting.lenient σ r hσ hforward).At before s := by
  induction h with
  | start r => exact ⟨r, [], Setting.at_start⟩
  | scan h hscan ih =>
    obtain ⟨r, before, hat⟩ := ih
    have hnext := hat.toHolds.scanNext
    rw [show (Setting.lenient σ r hσ hforward).session = σ from rfl, hscan] at hnext
    exact ⟨r, before, hnext.1, hnext.2.trans hat.index⟩
  | @step s lexed h hnext hinner ih =>
    obtain ⟨r, before, hat⟩ := ih
    exact ⟨r, _, Setting.Sees.step ⟨hat, hat.toHolds.found hnext, lexed, hnext, rfl⟩ hinner⟩
  | record h e ih =>
    obtain ⟨r, before, hat⟩ := ih
    exact ⟨r, before, hat.record False.elim⟩
  | @back s i h hi ih =>
    obtain ⟨r, before, hat⟩ := ih
    refine ⟨r, before.take i, (hat.toHolds.of_prefix (List.take_prefix i before)).moved i, ?_⟩
    rw [List.length_take, ← hat.index, Nat.min_eq_left hi]

end Stream.Reachable

/-! ## Calls -/

/-- A range goes from the first through the last of the tokens that were consumed between two
streams, of which there is one at least. -/
def Covers (s s' : Stream) (span : Span) : Prop :=
  s.index < s'.index ∧ ∃ first last, s'.buffer[s.index]? = some first ∧
    s'.buffer[s'.index - 1]? = some last ∧
      span = Span.new first.token.span.start last.token.span.stop

lemma Setting.Holds.getElem? {K : Setting} {before : List Token} {s : Stream}
    (h : K.Holds before s) {k : Nat} {t : Token} (hk : before[k]? = some t) :
    ∃ lexed, s.buffer[k]? = some lexed ∧ lexed.token = t := by
  obtain ⟨rest, hrest⟩ := h.kept
  have hnext : s.tokens[k]? = some t := by
    rw [← hrest, List.getElem?_append_left (List.getElem?_eq_some_iff.mp hk).1, hk]
  rw [Stream.tokens, List.getElem?_map, Array.getElem?_toList] at hnext
  exact Option.map_eq_some_iff.mp hnext

lemma Setting.At.covers {K : Setting} {before ts : List Token} {s s' : Stream}
    (h : K.At before s) (h' : K.At (before ++ ts) s') (hne : ts ≠ []) : Covers s s' (cover ts) := by
  obtain ⟨t, ts, rfl⟩ := List.exists_cons_of_ne_nil hne
  have hlast := List.getLast?_eq_some_getLast (List.cons_ne_nil t ts)
  have hindex := h'.index
  rw [List.length_append, ← h.index, List.length_cons] at hindex
  obtain ⟨first, hfirst, ht⟩ := h'.toHolds.getElem? (k := s.index) (t := t) (by
    rw [List.getElem?_append_right (Nat.le_of_eq h.index.symm), h.index, Nat.sub_self]
    rfl)
  obtain ⟨last, hend, hlast'⟩ := h'.toHolds.getElem? (k := s'.index - 1)
    (t := (t :: ts).getLast (List.cons_ne_nil t ts)) (by
      rw [List.getElem?_append_right (by rw [hindex, h.index]; omega), ← hlast,
        List.getLast?_eq_getElem?]
      congr 1
      rw [hindex, h.index, List.length_cons]
      omega)
  refine ⟨by omega, first, last, hfirst, hend, ?_⟩
  rw [ht, hlast', cover_eq hlast]

/-- The tokens that were consumed between two streams. -/
def Stream.consumed (s s' : Stream) : List Token :=
  (s'.tokens.take s'.index).drop s.index

lemma Setting.At.consumed {K : Setting} {before ts : List Token} {s s' : Stream}
    (h : K.At before s) (h' : K.At (before ++ ts) s') : s.consumed s' = ts := by
  obtain ⟨rest, hrest⟩ := h'.kept
  rw [Stream.consumed, ← hrest, h'.index, h.index, List.take_left, List.drop_left]

section Calls

variable {σ : Session} (hσ : σ.grammar = .standard) (hforward : Scan.ForwardWithin σ.embedded)
variable {s s' : Stream} (h : s.Reachable σ)
include hσ hforward h

lemma Stream.Reachable.consumed {α : Type} {m : Parse α} {P : List Token → α → Prop} {a : α}
    (hm : ∀ r before, (Setting.lenient σ r hσ hforward).Reads before [] m P)
    (hrun : m σ s = .ok a s') :
    P (s.consumed s') a ∧ ∀ t ∈ s.consumed s', t.isEnd = false := by
  obtain ⟨r, before, hat⟩ := h.exists_at hσ hforward
  obtain ⟨ts, hat', ha⟩ := (hm r before).eq_ok hat hrun
  rw [hat.consumed hat']
  exact ⟨ha, fun t ht => hat'.inner t (List.mem_append_right _ ht)⟩

lemma Stream.Reachable.covers {α : Type} {m : Parse α} {P : List Token → α → Prop} {a : α}
    {span : α → Span} (hm : ∀ r before, (Setting.lenient σ r hσ hforward).Reads before [] m P)
    (hP : ∀ ts a, P ts a → ts ≠ [] ∧ span a = cover ts) (hrun : m σ s = .ok a s') :
    Covers s s' (span a) := by
  obtain ⟨r, before, hat⟩ := h.exists_at hσ hforward
  obtain ⟨ts, hat', ha⟩ := (hm r before).eq_ok hat hrun
  obtain ⟨hne, hspan⟩ := hP ts a ha
  rw [hspan]
  exact hat.covers hat' hne

lemma Stream.Reachable.covers_expression {fuel : Nat} {least : Precedence} {e : Expr}
    (hrun : Production.expressionWithin fuel least σ s = .ok e s') : Covers s s' e.span :=
  h.covers hσ hforward
    (fun _ _ => Setting.Reads.expressionWithin (Language.closed_any _) False.elim)
    (fun _ _ he => ⟨he.ne_nil, he.span_eq⟩) hrun

lemma Stream.Reachable.covers_pattern {fuel : Nat} {p : Pattern}
    (hrun : Production.patternWithin fuel σ s = .ok p s') : Covers s s' p.span :=
  h.covers hσ hforward
    (fun _ _ => Setting.Reads.patternWithin (Language.closed_any _).toGrounded False.elim)
    (fun _ _ hp => ⟨hp.ne_nil, hp.span_eq⟩) hrun

lemma Stream.Reachable.covers_type {fuel : Nat} {type : TypeExpr}
    (hrun : Production.typeWithin fuel σ s = .ok type s') : Covers s s' type.span :=
  h.covers hσ hforward
    (fun _ _ => Setting.Reads.typeWithin (Language.closed_any _).toGrounded False.elim)
    (fun _ _ ⟨_, _⟩ => ⟨List.cons_ne_nil _ _, rfl⟩) hrun

end Calls

/-- Spans cover what was read. Whatever stream a parser has come to, in a source or in a template
string of it, the expression, the pattern or the type that it reads there goes from the first
through the last of the tokens that are consumed for it. So the tree of a source goes from the first
through the last of all tokens, and each node in it lies in the node next around. -/
theorem spans_cover (source : String) :
    (∀ depth limit s, s.Reachable ⟨.standard, embeddedReader .standard depth, limit⟩ →
      let σ : Session := ⟨.standard, embeddedReader .standard depth, limit⟩
      (∀ fuel least e s', Production.expressionWithin fuel least σ s = .ok e s' →
        Covers s s' e.span) ∧
      (∀ fuel p s', Production.patternWithin fuel σ s = .ok p s' → Covers s s' p.span) ∧
      ∀ fuel type s', Production.typeWithin fuel σ s = .ok type s' → Covers s s' type.span) ∧
    ∀ e, (parse source).result = .ok (some e) →
      (∃ tokens first last, (tokenize source).result = .ok tokens ∧ tokens.head? = some first ∧
        tokens.getLast? = some last ∧ e.span = Span.new first.span.start last.span.stop) ∧
      e.nest.Within e.span := by
  refine ⟨fun depth limit s h => ?_, fun e h => ?_⟩
  · have hforward := forwardWithin_embeddedReader depth
    exact ⟨fun _ _ _ _ => h.covers_expression rfl hforward,
      fun _ _ _ => h.covers_pattern rfl hforward, fun _ _ _ => h.covers_type rfl hforward⟩
  · obtain ⟨ts, htokens, -, hphrase⟩ := parse_eq_ok (Language.closed_yielding_ofText _) h
    cases hphrase with
    | expr hphrase =>
      have hspells := hphrase.spells
      constructor
      · obtain ⟨t, us, rfl⟩ := List.exists_cons_of_ne_nil hspells.ne_nil
        have hlast := List.getLast?_eq_some_getLast (List.cons_ne_nil t us)
        exact ⟨_, _, _, htokens, rfl, hlast, hspells.span_eq.trans (cover_eq hlast)⟩
      · obtain ⟨run, ws, ⟨-, c, last, c', hrun, -⟩, rfl⟩ := whole_of_tokenize htokens
        have hordered := hrun.ordered (forwardWithin_embeddedReader _)
        rw [hspells.span_eq]
        exact hspells.nest.within hordered _ (List.mem_singleton.mpr rfl)

/-- A declaration with a pattern, a type and a template string, read part by part and as a whole. -/
theorem spans_cover_declaration :
    let source := "let [a, @b c]: M[K] = `${f(x)}`"
    let σ := Session.ofText .standard source.toList
    (∃ s s' p, s.Reachable σ ∧ Production.pattern σ s = .ok p s' ∧ Covers s s' p.span) ∧
    (∃ s s' type, s.Reachable σ ∧ Production.typeExpr σ s = .ok type s' ∧ Covers s s' type.span) ∧
    (∃ s s' e, s.Reachable σ ∧ Production.expression .lowest σ s = .ok e s' ∧
      Covers s s' e.span) ∧
    ∃ e, (parse source).result = .ok (some e) ∧ e.nest.Within e.span := by
  intro source σ
  have hparts : (match (do
      discard (consume .kwLet "")
      let p ← Production.pattern
      discard (consume .colon "")
      let type ← Production.typeExpr
      discard (consume .equals "")
      let e ← Production.expression .lowest
      return (p, type, e) : Parse _) σ (.ofReader (.ofText source.toList)) with
        | .ok .. => true
        | .error .. => false) = true := by
    decide +kernel
  have hparse : (parse source).result.toOption.map Option.isSome = some true := by decide +kernel
  have hcalls := (spans_cover source).1 source.toList.length (source.toList.length + 2)
  split at hparts
  · next parts s₆ hrun =>
    obtain ⟨_, s₁, hlet, hrun⟩ := bind_eq_ok hrun
    obtain ⟨p, s₂, hpattern, hrun⟩ := bind_eq_ok hrun
    obtain ⟨_, s₃, hcolon, hrun⟩ := bind_eq_ok hrun
    obtain ⟨type, s₄, htype, hrun⟩ := bind_eq_ok hrun
    obtain ⟨_, s₅, hequals, hrun⟩ := bind_eq_ok hrun
    obtain ⟨e, s₆, hexpression, -⟩ := bind_eq_ok hrun
    have h₁ : s₁.Reachable σ := (Stream.Reachable.start _).keeps rfl hlet
    have h₃ : s₃.Reachable σ := (h₁.keeps rfl hpattern).keeps rfl hcolon
    have h₅ : s₅.Reachable σ := (h₃.keeps rfl htype).keeps rfl hequals
    obtain ⟨program, hprogram, hsome⟩ := Outcome.eq_ok_of_map hparse
    obtain ⟨whole, rfl⟩ := Option.isSome_iff_exists.mp hsome
    exact ⟨⟨s₁, s₂, p, h₁, hpattern, (hcalls s₁ h₁).2.1 _ _ _ hpattern⟩,
      ⟨s₃, s₄, type, h₃, htype, (hcalls s₃ h₃).2.2 _ _ _ htype⟩,
      ⟨s₅, s₆, e, h₅, hexpression, (hcalls s₅ h₅).1 _ _ _ _ hexpression⟩,
      whole, hprogram, ((spans_cover source).2 whole hprogram).2⟩
  · cases hparts

end FrontEnd
