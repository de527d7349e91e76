import FrontEnd.Proofs.Eager
import FrontEnd.Proofs.Embedding
import FrontEnd.Proofs.YieldingExpressions

/-!
# Tokens yield their values

A token with a value yields the leaf that it stands for. If it is a template string, its expressions
lie in it. These are read by parsers of their own, for templates nested less deep, so all tokens
yield their values by induction on the depth, and so do all programs.
-/

namespace FrontEnd

open Parse

/-! ## Expressions in template strings -/

namespace Scan

variable {embedded : Option (Scan Expr)} {opened : Position} {r r' : Reader} {e : Expr}
variable {pieces : List Piece}

lemma mem_of_mem_flush {before : List Char} {after : List (TemplatePart Expr)}
    (h : .embedded e ∈ Piece.flush (before, after)) : .embedded e ∈ after := by
  cases before with
  | nil => exact h
  | cons c before =>
    rcases List.mem_cons.mp h with h | h
    · cases h
    · exact h

lemma mem_of_mem_parts (h : .embedded e ∈ Piece.parts pieces) : .embedded e ∈ pieces := by
  have hjoined : ∀ pieces : List Piece, .embedded e ∈ (pieces.foldr Piece.join ([], [])).2 →
      .embedded e ∈ pieces := by
    intro pieces
    induction pieces with
    | nil => exact fun h => absurd h List.not_mem_nil
    | cons piece pieces ih =>
      intro h
      cases piece with
      | text content => exact List.mem_cons_of_mem _ (ih h)
      | embedded expr =>
        rcases List.mem_cons.mp h with h | h
        · cases h
          exact List.mem_cons_self
        · exact List.mem_cons_of_mem _ (ih (mem_of_mem_flush h))
  exact hjoined pieces (mem_of_mem_flush h)

variable (hembedded : ForwardWithin embedded)
include hembedded

lemma templatePieces_embedded {fuel : Nat} {before : List Piece}
    (h : templatePieces embedded opened fuel before r = .ok pieces r')
    (he : .embedded e ∈ pieces) :
    .embedded e ∈ before ∨ ∃ r₀ r₁, r.cursor.Leads r₀.cursor ∧
      embeddedExpression embedded r₀ = .ok e r₁ ∧ r₁.cursor.Leads r'.cursor := by
  induction fuel generalizing r before with
  | zero => cases h
  | succ fuel ih =>
    unfold templatePieces at h
    obtain ⟨piece, r₁, hpiece, hrest⟩ := bind_eq_ok h
    have hleads := (forward_templatePiece? hembedded opened).leads hpiece
    rcases templatePiece?_eq_ok hpiece with ⟨rfl, -⟩ | ⟨raw, content, warnings, rfl, -⟩ |
      ⟨r₀, expr, rfl, hpasses, -, hread⟩
    · obtain ⟨rfl, rfl⟩ := pure_eq_ok hrest
      exact .inl (List.mem_reverse.mp he)
    · rcases ih hrest with h | ⟨r₂, r₃, h₂, hread, h₃⟩
      · rcases List.mem_cons.mp h with h | h
        · cases h
        · exact .inl h
      · exact .inr ⟨r₂, r₃, hleads.trans h₂, hread, h₃⟩
    · rcases ih hrest with h | ⟨r₂, r₃, h₂, hread, h₃⟩
      · rcases List.mem_cons.mp h with h | h
        · cases h
          exact .inr ⟨r₀, r₁, ⟨_, hpasses⟩, hread,
            (forward_templatePieces hembedded opened fuel _).leads hrest⟩
        · exact .inl h
      · exact .inr ⟨r₂, r₃, hleads.trans h₂, hread, h₃⟩

lemma tokenHere_embedded {t : Token} {parts : List (TemplatePart Expr)}
    (h : tokenHere embedded r = .ok t r') (hvalue : t.value = .template parts)
    (he : .embedded e ∈ parts) :
    ∃ r₀ r₁, r.cursor.Leads r₀.cursor ∧ embeddedExpression embedded r₀ = .ok e r₁ ∧
      r₁.cursor.Leads r'.cursor := by
  have hsuits := tokenHere_suits h
  rw [hvalue] at hsuits
  obtain ⟨hquote, hliteral⟩ := tokenHere_template h hsuits
  rw [templateLiteral, cursor_bind, bind_apply, skip_apply] at hliteral
  obtain ⟨pieces, r₁, hpieces, hmade⟩ := bind_eq_ok hliteral
  rw [tokenFrom_apply] at hmade
  cases hmade
  cases hvalue
  rcases templatePieces_embedded hembedded hpieces (mem_of_mem_parts he) with h | h
  · cases h
  · obtain ⟨r₀, r₂, h₀, hread, h₂⟩ := h
    exact ⟨r₀, r₂, Cursor.Leads.trans ⟨_, r.cursor.passes_drop 1⟩ h₀, hread, h₂⟩

end Scan

/-! ## Tokens -/

lemma Ordered.cover_inside_of {ts : List Token} {outer : Span} (h : Ordered ts) (hne : ts ≠ [])
    (hts : ∀ t ∈ ts, t.span.Inside outer) : (cover ts).Inside outer := by
  obtain ⟨t, ts, rfl⟩ := List.exists_cons_of_ne_nil hne
  have hlast := List.getLast?_eq_some_getLast (List.cons_ne_nil t ts)
  refine ⟨?_, ?_⟩
  · rw [cover_eq hlast]
    exact (hts t List.mem_cons_self).1
  · rw [Ordered.stop_cover h hlast]
    exact (hts _ (List.mem_of_getLast? hlast)).2

lemma embedded_within {depth : Nat}
    (hdepth : ∀ {r t r'}, Scan.tokenHere (embeddedReader .standard depth) r = .ok t r' →
      Language.yielding.token t)
    {r₀ r₁ : Reader} {e : Expr} {outer : Span}
    (h : Scan.embeddedExpression (embeddedReader .standard (depth + 1)) r₀ = .ok e r₁)
    (hlow : outer.offset ≤ r₀.cursor.pos.offset) (hhigh : r₁.cursor.pos.offset ≤ outer.stop) :
    e.nest.Within outer := by
  obtain ⟨r₂, rest, hread, hbrace, rfl⟩ := Scan.embeddedExpression_eq_ok h
  obtain ⟨s, hrun, rfl⟩ := readEmbedded_eq_ok hread
  let K := Setting.inTemplate depth (r₀.record (.templateOpened r₀.cursor.pos))
  have hclosed : Language.yielding.Closed K :=
    Language.closed_yielding fun t ⟨_, _, ht⟩ => hdepth ht
  obtain ⟨ts, hat, he⟩ := (Setting.Reads.expression hclosed).eq_ok K.at_start hrun
  have hspells := he.spells
  have hordered := hat.toHolds.ordered
  have hinside : ∀ t ∈ ts, t.span.Inside outer := by
    intro t ht
    obtain ⟨hstart, hstop⟩ := hat.place ht
    have hresume := Cursor.Leads.offset_le ⟨_, Scan.behindBrace_passes hbrace⟩
    exact ⟨Nat.le_trans hlow hstart, Nat.le_trans hstop (Nat.le_trans hresume hhigh)⟩
  have hwithin := hspells.nest.within hordered _ (List.mem_singleton.mpr rfl)
  exact hwithin.mono (hordered.cover_inside_of hspells.ne_nil hinside)

lemma TemplatePart.map_id {α : Type} (part : TemplatePart α) : part.map id = part := by
  cases part <;> rfl

/-- A token yields its value, if the expressions in it lie in its range. -/
lemma Token.yields_literal {t : Token} (hsuits : t.kind.Suits t.value)
    (hwithin : ∀ parts, t.value = .template parts → ∀ e, .embedded e ∈ parts →
      e.nest.Within t.span) : Language.yielding.token t := by
  obtain ⟨kind, value, span, lexeme⟩ := t
  intro hopening literal hliteral
  have hno : ∀ n ∈ ([] : List Nest), n.Within span := fun n hn => absurd hn List.not_mem_nil
  cases value with
  | none => cases hliteral
  | number value =>
    cases hliteral
    obtain rfl : kind = .numberLiteral := hsuits
    exact .leaf rfl hno
  | bool value =>
    cases hliteral
    obtain rfl : kind = .booleanLiteral := hsuits
    exact .mark rfl rfl
  | char value =>
    cases hliteral
    obtain rfl : kind = .charLiteral := hsuits
    exact .leaf rfl hno
  | text value =>
    cases hliteral
    have hkind : kind = .stringLiteral := by
      cases kind <;> first | rfl | exact hsuits.elim | cases hopening
    subst hkind
    exact .leaf rfl hno
  | template parts =>
    cases hliteral
    obtain rfl : kind = .templateStringLiteral := hsuits
    refine .leaf ?_ fun n hn => ?_
    · rw [List.map_congr_left fun part _ => part.map_id, List.map_id']
      rfl
    · obtain ⟨part, hpart, hn⟩ := List.mem_flatMap.mp hn
      cases part with
      | text content => cases hn
      | embedded e =>
        rw [List.mem_singleton.mp hn]
        exact hwithin parts rfl e hpart

lemma yielding_token (depth : Nat) :
    ∀ {r t r'}, Scan.tokenHere (embeddedReader .standard depth) r = .ok t r' →
      Language.yielding.token t := by
  induction depth with
  | zero =>
    intro r t r' h
    refine t.yields_literal (Scan.tokenHere_suits h) fun parts hvalue e he => ?_
    obtain ⟨r₀, r₁, -, hread, -⟩ :=
      Scan.tokenHere_embedded (forwardWithin_embeddedReader 0) h hvalue he
    rw [embeddedReader, Scan.embeddedExpression, Scan.cursor_bind] at hread
    cases hread
  | succ depth ih =>
    intro r t r' h
    have hforward := forwardWithin_embeddedReader (depth + 1)
    refine t.yields_literal (Scan.tokenHere_suits h) fun parts hvalue e he => ?_
    obtain ⟨r₀, r₁, h₀, hread, h₁⟩ := Scan.tokenHere_embedded hforward h hvalue he
    have hkind := Scan.tokenHere_suits h
    rw [hvalue] at hkind
    obtain ⟨rest, hrest⟩ := List.head?_eq_some_iff.mp (Scan.tokenHere_template h hkind).1
    have hne : r.cursor.rest ≠ [] := by
      rw [hrest]
      exact List.cons_ne_nil _ _
    obtain ⟨text, hcovers⟩ := Scan.tokenHere_covers hforward hne h
    refine embedded_within ih hread ?_ ?_
    · rw [hcovers.span_eq]
      exact h₀.offset_le
    · have hle := Cursor.Leads.offset_le ⟨text, hcovers.passes⟩
      rw [hcovers.span_eq, Span.stop_new hle]
      exact h₁.offset_le

lemma Language.closed_yielding_ofText (source : List Char) :
    Language.yielding.Closed (.ofText source) :=
  Language.closed_yielding fun _ ⟨_, _, h⟩ => yielding_token source.length h

end FrontEnd
