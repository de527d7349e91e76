import FrontEnd.Proofs.Passage
import FrontEnd.Proofs.Similar
import Mathlib.Data.List.Induction

/-!
# Truthful spans

A span is truthful about a source if it covers whole characters of it and its line and column are
those that a reader would count. Positions that move over a text by `Position.after` stay true to
it, the ranges between them are truthful, and so are merged ones. A truthful span that covers
something, or lies at the end of the source, is solid: tokens have such spans, and whatever is
anchored at them.
-/

namespace FrontEnd

/-- The place that a reader would count after a text, in words. -/
def Position.counted (before : List Char) : Position where
  offset := Text.byteSize before
  line := UInt32.ofNat (1 + before.count '\n')
  column := UInt32.ofNat (1 + (before.reverse.takeWhile (· ≠ '\n')).length)

/-- A span covers whole characters of a source, and starts on the line and at the column that a
reader would count. -/
def Span.Truthful (source : List Char) (s : Span) : Prop :=
  ∃ before covered after, source = before ++ covered ++ after ∧
    s.start = Position.counted before ∧ s.len = Text.byteSize covered

/-- A truthful span that is empty at the end of the source only. -/
structure Span.Solid (source : List Char) (s : Span) : Prop where
  truthful : s.Truthful source
  ends : s.len = 0 → s.offset = Text.byteSize source

namespace Position

lemma counted_concat (before : List Char) (c : Char) :
    counted (before ++ [c]) = (counted before).advance c := by
  unfold advance counted
  by_cases hc : c = '\n'
  · simp [hc, UInt32.ofNat_add, ← UInt32.add_assoc]
  · simp [hc, UInt32.ofNat_add, UInt32.add_comm]

lemma toNat_line_counted {before : List Char} (h : 1 + before.count '\n' < UInt32.size) :
    (counted before).line.toNat = 1 + before.count '\n' :=
  UInt32.toNat_ofNat_of_lt' h

lemma toNat_column_counted {before : List Char}
    (h : 1 + (before.reverse.takeWhile (· ≠ '\n')).length < UInt32.size) :
    (counted before).column.toNat = 1 + (before.reverse.takeWhile (· ≠ '\n')).length :=
  UInt32.toNat_ofNat_of_lt' h

theorem after_start (before : List Char) : start.after before = counted before := by
  induction before using List.reverseRecOn with
  | nil => rfl
  | append_singleton before c ih =>
    rw [after_append, ih, counted_concat]
    rfl

end Position

/-! ## Ranges between reading places -/

variable {source : List Char}

namespace Cursor

variable {c c' : Cursor}

lemma Reads.spanFrom_truthful (h : c.Reads source) (h' : c.Leads c') :
    (c'.spanFrom c.pos).Truthful source := by
  obtain ⟨before, hsource, hpos⟩ := h
  obtain ⟨text, hpasses⟩ := h'
  refine ⟨before, text, c'.rest, ?_, ?_, ?_⟩
  · rw [hsource, hpasses.1, List.append_assoc]
  · rw [spanFrom, Span.start_new, hpos, Position.after_start]
  · rw [spanFrom, Span.new, hpasses.offset]
    exact Nat.add_sub_cancel_left _ _

lemma Reads.emptyAt_truthful (h : c.Reads source) : (Span.emptyAt c.pos).Truthful source :=
  h.spanFrom_truthful (.refl c)

/-- A cursor is reached from another by reading something. -/
def Advances (c c' : Cursor) : Prop :=
  ∃ text, text ≠ [] ∧ c.Passes text c'

lemma Advances.leads (h : c.Advances c') : c.Leads c' := by
  obtain ⟨text, -, hpasses⟩ := h
  exact ⟨text, hpasses⟩

lemma Leads.advances {c'' : Cursor} (h : c.Leads c') (h' : c'.Advances c'') : c.Advances c'' := by
  obtain ⟨text, h⟩ := h
  obtain ⟨text', hne, h'⟩ := h'
  exact ⟨text ++ text', by simp [hne], h.append h'⟩

lemma Advances.trans_leads {c'' : Cursor} (h : c.Advances c') (h' : c'.Leads c'') :
    c.Advances c'' := by
  obtain ⟨text, hne, h⟩ := h
  obtain ⟨text', h'⟩ := h'
  exact ⟨text ++ text', by simp [hne], h.append h'⟩

lemma Reads.spanFrom_solid (h : c.Reads source) (h' : c.Advances c') :
    (c'.spanFrom c.pos).Solid source where
  truthful := h.spanFrom_truthful h'.leads
  ends hlen := by
    obtain ⟨text, hne, hpasses⟩ := h'
    have hpos := Text.byteSize_pos hne
    rw [spanFrom, Span.new, hpasses.offset] at hlen
    dsimp only at hlen
    omega

lemma Reads.emptyAt_solid (h : c.Reads source) (hrest : c.rest = []) :
    (Span.emptyAt c.pos).Solid source where
  truthful := h.emptyAt_truthful
  ends _ := by
    obtain ⟨before, hsource, hpos⟩ := h
    rw [hrest, List.append_nil] at hsource
    rw [hsource]
    exact congrArg Position.offset (hpos.trans (Position.after_start before))

lemma Reads.next_solid (h : c.Reads source) {text rest : List Char} (hne : text ≠ [])
    (hrest : c.rest = text ++ rest) :
    (Span.new c.pos (c.pos.offset + Text.byteSize text)).Solid source := by
  have hpasses : c.Passes text ⟨rest, c.pos.after text⟩ := ⟨hrest, rfl⟩
  have hsolid := h.spanFrom_solid ⟨text, hne, hpasses⟩
  rwa [spanFrom, hpasses.offset] at hsolid

lemma Reads.spanOfNext_solid (h : c.Reads source) : c.spanOfNext.Solid source := by
  unfold spanOfNext peek?
  cases hrest : c.rest with
  | nil => exact h.emptyAt_solid hrest
  | cons ch rest =>
    have hsolid := h.next_solid (List.cons_ne_nil ch []) hrest
    simpa using hsolid

end Cursor

/-! ## Merging -/

namespace Span.Truthful

variable {s t : Span}

lemma iff_prefixes :
    s.Truthful source ↔
      ∃ before through, before <+: through ∧ through <+: source ∧
        s.start = Position.counted before ∧ s.stop = Text.byteSize through := by
  constructor
  · rintro ⟨before, covered, after, hsource, hstart, hlen⟩
    refine ⟨before, before ++ covered, List.prefix_append _ _, ⟨after, hsource.symm⟩, hstart, ?_⟩
    have hoffset : s.offset = Text.byteSize before := congrArg Position.offset hstart
    rw [Span.stop, hoffset, hlen, Text.byteSize_append]
  · rintro ⟨before, through, ⟨covered, rfl⟩, ⟨after, rfl⟩, hstart, hstop⟩
    have hoffset : s.offset = Text.byteSize before := congrArg Position.offset hstart
    rw [Span.stop, hoffset, Text.byteSize_append] at hstop
    exact ⟨before, covered, after, rfl, hstart, Nat.add_left_cancel hstop⟩

lemma prefix_of_byteSize_le {p q : List Char} (hp : p <+: source) (hq : q <+: source)
    (h : Text.byteSize p ≤ Text.byteSize q) : p <+: q := by
  rcases List.prefix_or_prefix_of_prefix hp hq with hpq | ⟨rest, rfl⟩
  · exact hpq
  · cases rest with
    | nil => exact ⟨[], by simp⟩
    | cons c cs =>
      have hc := c.utf8Size_pos
      rw [Text.byteSize_append, Text.byteSize_cons] at h
      omega

theorem merge (hs : s.Truthful source) (ht : t.Truthful source) :
    (s.merge t).Truthful source := by
  obtain ⟨p, p', hp, hp', hstart, hstop⟩ := iff_prefixes.mp hs
  obtain ⟨q, q', hq, hq', hstart', hstop'⟩ := iff_prefixes.mp ht
  have hps : s.offset = Text.byteSize p := congrArg Position.offset hstart
  have hqs : t.offset = Text.byteSize q := congrArg Position.offset hstart'
  -- The end that lies further back is reached from either start.
  obtain ⟨far, hpfar, hqfar, hfar, hmax⟩ : ∃ far, p <+: far ∧ q <+: far ∧ far <+: source ∧
      (s.merge t).stop = Text.byteSize far := by
    rw [stop_merge, hstop, hstop']
    rcases Nat.le_total (Text.byteSize p') (Text.byteSize q') with hle | hle
    · exact ⟨q', hp.trans (prefix_of_byteSize_le hp' hq' hle), hq, hq', Nat.max_eq_right hle⟩
    · exact ⟨p', hp, hq.trans (prefix_of_byteSize_le hq' hp' hle), hp', Nat.max_eq_left hle⟩
  rw [iff_prefixes]
  by_cases hle : s.offset ≤ t.offset
  · refine ⟨p, far, hpfar, hfar, ?_, hmax⟩
    rw [Span.merge, if_pos hle, start_new, hstart]
  · refine ⟨q, far, hqfar, hfar, ?_, hmax⟩
    rw [Span.merge, if_neg hle, start_new, hstart']

lemma offset_le (h : s.Truthful source) : s.offset ≤ Text.byteSize source := by
  obtain ⟨before, covered, after, rfl, hstart, -⟩ := h
  have hoffset : s.offset = Text.byteSize before := congrArg Position.offset hstart
  rw [Text.byteSize_append, Text.byteSize_append]
  omega

end Span.Truthful

theorem Span.Solid.merge {s t : Span} (hs : s.Solid source) (ht : t.Truthful source) :
    (s.merge t).Solid source where
  truthful := hs.truthful.merge ht
  ends hlen := by
    have hstop := Span.stop_merge s t
    have hends : s.len = 0 → s.offset = Text.byteSize source := hs.ends
    have hoffset : (s.merge t).offset = min s.offset t.offset := by
      rw [Span.merge]
      split
      · next hle => exact (Nat.min_eq_left hle).symm
      · next hlt => exact (Nat.min_eq_right (Nat.le_of_not_le hlt)).symm
    unfold Span.stop at hstop
    omega

/-! ## Data with solid spans -/

open Classical in
/-- A span, if it is solid, and the given one in its place if it is not. -/
noncomputable def Span.solidOr (source : List Char) (other s : Span) : Span :=
  if s.Solid source then s else other

/-- A span of the given line behind a source. -/
def Span.outside (source : List Char) (line : UInt32) : Span :=
  ⟨Text.byteSize source + 1, 0, line, 0⟩

lemma Span.not_solid_outside (line : UInt32) : ¬ (outside source line).Solid source :=
  fun h => absurd h.truthful.offset_le (Nat.not_succ_le_self _)

lemma Span.solidOr_eq_iff {s t : Span} :
    solidOr source (outside source 0) s = solidOr source (outside source 1) t ↔
      s = t ∧ s.Solid source := by
  unfold solidOr
  constructor
  · intro heq
    split at heq <;> split at heq
    · exact ⟨heq, ‹_›⟩
    · subst heq
      exact absurd ‹_› (not_solid_outside 1)
    · subst heq
      exact absurd ‹_› (not_solid_outside 0)
    · exact absurd (congrArg Span.line heq) (by decide : (0 : UInt32) ≠ 1)
  · rintro ⟨rfl, h⟩
    rw [if_pos h, if_pos h]

/-- A pair of views that agree on solid spans and on no others. -/
noncomputable def View.solid (source : List Char) : View where
  left := Span.solidOr source (.outside source 0)
  right := Span.solidOr source (.outside source 1)
  merge hs ht := by
    obtain ⟨rfl, hs'⟩ := Span.solidOr_eq_iff.mp hs
    obtain ⟨rfl, ht'⟩ := Span.solidOr_eq_iff.mp ht
    exact Span.solidOr_eq_iff.mpr ⟨rfl, hs'.merge ht'.truthful⟩

lemma View.solid_rel {s t : Span} : (solid source).Rel s t ↔ s = t ∧ s.Solid source :=
  Span.solidOr_eq_iff

/-- All spans of some data are solid parts of a source. -/
def Honest {α : Type} [Spanned α] (source : List Char) (a : α) : Prop :=
  (View.solid source).Rel a a

namespace Honest

variable {α : Type} [Spanned α] {a : α}

lemma span {s : Span} : Honest source s ↔ s.Solid source :=
  View.solid_rel.trans (and_iff_right rfl)

lemma token {t : Token} (hvalue : Honest source t.value) (hs : t.span.Solid source) :
    Honest source t :=
  View.rel_token hvalue (View.solid_rel.mpr ⟨rfl, hs⟩)

lemma solid (h : Honest source a) : ∀ s ∈ spans a, s.Solid source := by
  have hspans : spans (respan (View.solid source).left a) =
      spans (respan (View.solid source).right a) := congrArg spans h
  rw [spans_respan, spans_respan] at hspans
  intro s hs
  exact (Span.solidOr_eq_iff.mp (List.map_inj_left.mp hspans s hs)).2

lemma truthful (h : Honest source a) : ∀ s ∈ spans a, s.Truthful source :=
  fun s hs => (h.solid s hs).truthful

end Honest

/-- A diagnostic has its place in a source: its span is truthful, and solid unless it tells of a
failure of the front end itself. -/
structure Diagnostic.Placed (source : List Char) (d : Diagnostic) : Prop where
  truthful : d.span.Truthful source
  solid : d.stage ≠ .internal → d.span.Solid source

lemma Diagnostic.placed_of_solid {d : Diagnostic} (h : d.span.Solid source) : d.Placed source :=
  ⟨h.truthful, fun _ => h⟩

lemma Diagnostic.placed_internal {span : Span} {problem : String} (h : span.Truthful source) :
    (Diagnostic.internal span problem).Placed source :=
  ⟨h, fun hstage => absurd rfl hstage⟩

lemma View.Rel.placed {d d' : Diagnostic} (h : (View.solid source).Rel d d') :
    d = d' ∧ d.Placed source := by
  obtain ⟨hspan, hsolid⟩ := View.solid_rel.mp h.place_rel
  obtain ⟨severity, stage, code, message, span, notes⟩ := d
  obtain ⟨severity', stage', code', message', span', notes'⟩ := d'
  obtain rfl : span = span' := hspan
  have heq : (⟨severity, stage, code, message, (View.solid source).left span, notes⟩ : Diagnostic) =
      ⟨severity', stage', code', message', (View.solid source).right span, notes'⟩ := h
  rw [Diagnostic.mk.injEq] at heq
  obtain ⟨rfl, rfl, rfl, rfl, -, rfl⟩ := heq
  exact ⟨rfl, Diagnostic.placed_of_solid hsolid⟩

end FrontEnd
