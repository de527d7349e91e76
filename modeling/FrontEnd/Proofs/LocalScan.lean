import FrontEnd.Proofs.Lexemes
import FrontEnd.Proofs.Relocation

/-!
# Scanning is local

A token is found the same wherever it stands, and whatever follows it, as long as what follows does
not go on with it. A `Scene` is a pair of readings of one text which stands at two places, with
different tails behind it; an action that is `Local` and keeps within the text in the one reading
does the same in the other.
-/

namespace FrontEnd

/-- A text goes on with no token and no comment: it is empty, or begins with a separator. -/
def Neutral (text : List Char) : Prop :=
  ∀ c ∈ text.head?, c ∈ separators

/-- Two readings of one text: where it stands, what follows it, and the warnings that were raised
before. What follows on the left may go on with the text, but only readings that stay within the
text are compared. A comment at its end is not to swallow what follows on the right. -/
structure Scene extends Relocation where
  tail : List Char
  tail' : List Char
  neutral' : Neutral tail'
  ends : tail = [] → ∀ c ∈ tail'.head?, c = '\n'
  raised : List Diagnostic
  raised' : List Diagnostic

namespace Neutral

variable {y : List Char}

lemma head_ne (h : Neutral y) {d : Char} (hd : d ∉ separators) : y.head? ≠ some d := by
  intro heq
  exact hd (h d heq)

lemma head_eq_false (h : Neutral y) {p : Char → Bool} (hp : separators.any p = false) :
    ∀ c ∈ y.head?, p c = false := by
  intro c hc
  exact Bool.eq_false_iff.mpr (List.any_eq_false.mp hp c (h c hc))

lemma takeWhile_append (h : Neutral y) {p : Char → Bool} (hp : separators.any p = false)
    (z : List Char) :
    (z ++ y).takeWhile p = z.takeWhile p ∧ (z ++ y).dropWhile p = z.dropWhile p ++ y := by
  induction z with
  | nil =>
    cases y with
    | nil => exact ⟨rfl, rfl⟩
    | cons c y =>
      have hc := h.head_eq_false hp c rfl
      simp [hc]
  | cons c z ih =>
    cases hc : p c with
    | true => simp [hc, ih.1, ih.2]
    | false => simp [hc]

end Neutral

lemma takeWhile_within {p : Char → Bool} {z y : List Char}
    (h : y.length ≤ ((z ++ y).dropWhile p).length) :
    (z ++ y).takeWhile p = z.takeWhile p := by
  induction z with
  | nil =>
    have hsplit := congrArg List.length (List.takeWhile_append_dropWhile (p := p) (l := y))
    rw [List.nil_append] at h ⊢
    rw [List.length_append] at hsplit
    exact List.eq_nil_of_length_eq_zero (by omega)
  | cons c z ih =>
    cases hc : p c with
    | true =>
      rw [List.cons_append, List.dropWhile_cons_of_pos hc] at h
      rw [List.cons_append, List.takeWhile_cons_of_pos hc, List.takeWhile_cons_of_pos hc, ih h]
    | false => simp [hc]

namespace Scene

variable (S : Scene)

/-- The warnings that were raised in the two readings look alike. -/
def Echoes (j j' : Journal) : Prop :=
  ∃ ws ws', j.warnings = S.raised ++ ws ∧ j'.warnings = S.raised' ++ ws' ∧ S.Rel ws ws'

namespace Echoes

variable {S} {j j' : Journal}

lemma warning (h : S.Echoes j j') {d d' : Diagnostic} (hd : S.Rel d d') :
    S.Echoes (j.push (.warning d)) (j'.push (.warning d')) := by
  obtain ⟨ws, ws', hws, hws', hrel⟩ := h
  refine ⟨ws ++ [d], ws' ++ [d'], ?_, ?_, View.rel_append hrel (View.rel_cons.mpr ⟨hd, rfl⟩)⟩
  · rw [Journal.warnings_push_warning, hws, List.append_assoc]
  · rw [Journal.warnings_push_warning, hws', List.append_assoc]

lemma other (h : S.Echoes j j') {e e' : Event} (he : Journal.warning? e = none)
    (he' : Journal.warning? e' = none) : S.Echoes (j.push e) (j'.push e') := by
  obtain ⟨ws, ws', hws, hws', hrel⟩ := h
  refine ⟨ws, ws', ?_, ?_, hrel⟩
  · rw [Journal.warnings_push_other _ he, hws]
  · rw [Journal.warnings_push_other _ he', hws']

end Echoes

/-- Two readers have the same part of the text before them. -/
structure Twins (r r' : Reader) : Prop where
  shared : ∃ z, r.cursor.rest = z ++ S.tail ∧ r'.cursor.rest = z ++ S.tail' ∧
    S.place z r.cursor.pos r'.cursor.pos
  echoes : S.Echoes r.journal r'.journal

lemma Twins.text {S : Scene} {r r' : Reader} (h : S.Twins r r') :
    ∃ z, r.cursor.rest = z ++ S.tail ∧ r'.cursor.rest = z ++ S.tail' := by
  obtain ⟨z, hz, hz', -⟩ := h.shared
  exact ⟨z, hz, hz'⟩

lemma Twins.faces {S : Scene} {r r' : Reader} (h : S.Twins r r') :
    S.Faces r.cursor.pos r'.cursor.pos := by
  obtain ⟨z, -, -, hplace⟩ := h.shared
  exact ⟨z, hplace⟩

end Scene

namespace Cursor

/-- Two cursors have moved over the same text. -/
def Abreast (c c' d d' : Cursor) : Prop :=
  ∃ text, c.Passes text d ∧ c'.Passes text d'

lemma Abreast.refl (c c' : Cursor) : Abreast c c' c c' :=
  ⟨[], passes_nil c, passes_nil c'⟩

lemma Abreast.trans {c c' d d' e e' : Cursor} (h : Abreast c c' d d') (h' : Abreast d d' e e') :
    Abreast c c' e e' := by
  obtain ⟨text, hl, hr⟩ := h
  obtain ⟨text', hl', hr'⟩ := h'
  exact ⟨text ++ text', hl.append hl', hr.append hr'⟩

end Cursor

namespace Scene

variable {S : Scene} {r r' r₁ r₁' : Reader} {α β : Type}

lemma Twins.pass (h : S.Twins r r')
    (habreast : Cursor.Abreast r.cursor r'.cursor r₁.cursor r₁'.cursor)
    (hechoes : S.Echoes r₁.journal r₁'.journal)
    (hlength : S.tail.length ≤ r₁.cursor.rest.length) : S.Twins r₁ r₁' := by
  obtain ⟨text, hl, hr⟩ := habreast
  obtain ⟨z, hz, hz', hplace⟩ := h.shared
  have hle : text.length ≤ z.length := by
    have hrest := hl.length_rest
    rw [hz, List.length_append] at hrest
    omega
  have hfront : text <+: z :=
    List.prefix_of_prefix_length_le ⟨r₁.cursor.rest, hl.1.symm⟩ ⟨S.tail, hz.symm⟩ hle
  obtain ⟨z₁, rfl⟩ := hfront
  refine ⟨⟨z₁, ?_, ?_, ?_⟩, hechoes⟩
  · rw [hl.1, List.append_assoc] at hz
    exact List.append_cancel_left hz
  · rw [hr.1, List.append_assoc] at hz'
    exact List.append_cancel_left hz'
  · rw [hl.2, hr.2]
    exact S.toRelocation.place_after hplace

variable (S) in
/-- If the one action keeps within the text, the other succeeds too, moves over the same text and
raises the same warnings. -/
def Local (m m' : Scan α) (r r' : Reader) (R : α → α → Prop) : Prop :=
  ∀ a r₁, m r = .ok a r₁ → S.tail.length ≤ r₁.cursor.rest.length →
    ∃ a' r₁', m' r' = .ok a' r₁' ∧ Cursor.Abreast r.cursor r'.cursor r₁.cursor r₁'.cursor ∧
      S.Echoes r₁.journal r₁'.journal ∧ R a a'

namespace Local

variable {R : α → α → Prop} {Q : β → β → Prop}

lemma pure {a a' : α} (h : S.Twins r r') (ha : R a a') : S.Local (pure a) (pure a') r r' R := by
  intro b r₁ hrun _
  obtain ⟨rfl, rfl⟩ := Scan.pure_eq_ok hrun
  exact ⟨a', r', rfl, .refl _ _, h.echoes, ha⟩

lemma throw {d : Diagnostic} {m' : Scan α} : S.Local (throw d) m' r r' R := by
  intro a r₁ hrun
  cases hrun

lemma bind_run {m m' : Scan α} {f f' : α → Scan β} (hforward : ∀ a, Scan.Forward (f a))
    (h : S.Twins r r') (hm : S.Local m m' r r' R)
    (hf : ∀ a a' r₁ r₁', m r = .ok a r₁ → S.Twins r₁ r₁' →
      Cursor.Abreast r.cursor r'.cursor r₁.cursor r₁'.cursor → R a a' →
      S.Local (f a) (f' a') r₁ r₁' Q) :
    S.Local (m >>= f) (m' >>= f') r r' Q := by
  intro b r₂ hrun hlength
  obtain ⟨a, r₁, hfirst, hrest⟩ := Scan.bind_eq_ok hrun
  have hle := ((hforward a).leads hrest).length_le
  obtain ⟨a', r₁', hfirst', habreast, hechoes, ha⟩ := hm a r₁ hfirst (Nat.le_trans hlength hle)
  have htwins := h.pass habreast hechoes (Nat.le_trans hlength hle)
  obtain ⟨b', r₂', hrest', habreast', hechoes', hb⟩ :=
    hf a a' r₁ r₁' hfirst htwins habreast ha b r₂ hrest hlength
  refine ⟨b', r₂', ?_, habreast.trans habreast', hechoes', hb⟩
  rw [Scan.bind_apply, hfirst']
  exact hrest'

lemma bind_cases {m m' : Scan α} {f f' : α → Scan β} (hforward : ∀ a, Scan.Forward (f a))
    (h : S.Twins r r') (hm : S.Local m m' r r' R)
    (hf : ∀ a a' r₁ r₁', S.Twins r₁ r₁' →
      Cursor.Abreast r.cursor r'.cursor r₁.cursor r₁'.cursor → R a a' →
      S.Local (f a) (f' a') r₁ r₁' Q) :
    S.Local (m >>= f) (m' >>= f') r r' Q :=
  bind_run hforward h hm fun a a' r₁ r₁' _ => hf a a' r₁ r₁'

lemma bind {m m' : Scan α} {f f' : α → Scan β} [∀ a, Scan.Forward (f a)]
    (h : S.Twins r r') (hm : S.Local m m' r r' R)
    (hf : ∀ a a' r₁ r₁', S.Twins r₁ r₁' →
      Cursor.Abreast r.cursor r'.cursor r₁.cursor r₁'.cursor → R a a' →
      S.Local (f a) (f' a') r₁ r₁' Q) :
    S.Local (m >>= f) (m' >>= f') r r' Q :=
  bind_cases (fun _ => inferInstance) h hm hf

lemma of_cursor {f f' : Cursor → Scan β} (h : S.Local (f r.cursor) (f' r'.cursor) r r' Q) :
    S.Local (Scan.cursor >>= f) (Scan.cursor >>= f') r r' Q := by
  intro b r₁ hrun hlength
  rw [Scan.cursor_bind] at hrun ⊢
  exact h b r₁ hrun hlength

lemma ite {c c' : Prop} [Decidable c] [Decidable c'] {m m' n n' : Scan α} (hc : c ↔ c')
    (hm : c → S.Local m m' r r' R) (hn : ¬ c → S.Local n n' r r' R) :
    S.Local (if c then m else n) (if c' then m' else n') r r' R := by
  by_cases h : c
  · rw [if_pos h, if_pos (hc.mp h)]
    exact hm h
  · rw [if_neg h, if_neg (mt hc.mpr h)]
    exact hn h

/-- A choice by what is ahead: the readings may choose differently only where the one on the left
goes beyond the text. -/
lemma ite_ahead {c c' : Prop} [Decidable c] [Decidable c'] {m m' n n' : Scan α} (hc : c' → c)
    (hbeyond : c → ¬ c' → ∀ a r₁, m r = .ok a r₁ → r₁.cursor.rest.length < S.tail.length)
    (hm : c → S.Local m m' r r' R) (hn : ¬ c → S.Local n n' r r' R) :
    S.Local (if c then m else n) (if c' then m' else n') r r' R := by
  intro a r₁ hrun hlength
  by_cases h : c
  · rw [if_pos h] at hrun
    have h' : c' := Decidable.byContradiction fun h' =>
      absurd hlength (Nat.not_le_of_lt (hbeyond h h' a r₁ hrun))
    rw [if_pos h']
    exact hm h a r₁ hrun hlength
  · rw [if_neg h] at hrun
    rw [if_neg (mt hc h)]
    exact hn h a r₁ hrun hlength

/-! ### Steps on the cursor -/

lemma skip {n : Nat} (h : S.Twins r r') (hn : n ≤ r.cursor.rest.length) :
    S.Local (Scan.skip n) (Scan.skip n) r r' fun _ _ => True := by
  intro a r₁ hrun hlength
  rw [Scan.skip_apply] at hrun
  cases hrun
  obtain ⟨z, hz, hz'⟩ := h.text
  have hle : n ≤ z.length := by
    simp only [Cursor.drop, List.length_drop, hz, List.length_append] at hlength hn
    omega
  have htake : r.cursor.rest.take n = r'.cursor.rest.take n := by
    rw [hz, hz', List.take_append_of_le_length hle, List.take_append_of_le_length hle]
  have hpasses := r.cursor.passes_drop n
  rw [htake] at hpasses
  exact ⟨(), _, Scan.skip_apply n r', ⟨_, hpasses, r'.cursor.passes_drop n⟩, h.echoes, trivial⟩

lemma takeWhile {p : Char → Bool} (h : S.Twins r r') (hp : separators.any p = false) :
    S.Local (Scan.takeWhile p) (Scan.takeWhile p) r r' Eq := by
  intro a r₁ hrun hlength
  rw [Scan.takeWhile_apply] at hrun
  cases hrun
  obtain ⟨z, hz, hz'⟩ := h.text
  have htaken : (r.cursor.takeWhile p).1 = (r'.cursor.takeWhile p).1 := by
    simp only [Cursor.takeWhile, hz] at hlength
    simp only [Cursor.takeWhile, hz, hz', takeWhile_within hlength,
      S.neutral'.takeWhile_append hp z]
  have hpasses := r.cursor.passes_takeWhile p
  rw [htaken] at hpasses
  exact ⟨_, _, Scan.takeWhile_apply p r', ⟨_, hpasses, r'.cursor.passes_takeWhile p⟩, h.echoes,
    htaken⟩

lemma advance (h : S.Twins r r') : S.Local Scan.advance Scan.advance r r' Eq := by
  obtain ⟨z, hz, hz'⟩ := h.text
  unfold Scan.advance
  refine of_cursor ?_
  cases z with
  | nil =>
    -- Nothing of the text is left, so the step does not keep within it.
    intro a r₁ hrun hlength
    cases htail : S.tail with
    | nil =>
      rw [hz, htail] at hrun
      cases hrun
    | cons c tail =>
      rw [hz, htail] at hrun
      have hlt := Scan.Shortens.skip Nat.one_pos (by simp [hz, htail]) a r₁ hrun
      rw [hz] at hlt
      exact absurd hlength (Nat.not_le_of_lt hlt)
  | cons c z =>
    rw [hz, hz']
    exact bind h (skip h (by simp [hz])) fun _ _ r₁ r₁' h₁ _ _ => pure h₁ rfl

lemma walk {step step' : Cursor → EStateM.Result Diagnostic Cursor α} (h : S.Twins r r')
    (hstep : ∀ z a c, r.cursor.rest = z ++ S.tail → r'.cursor.rest = z ++ S.tail' →
      step r.cursor = .ok a c → S.tail.length ≤ c.rest.length →
      ∃ c', step' r'.cursor = .ok a c' ∧ Cursor.Abreast r.cursor r'.cursor c c') :
    S.Local (Scan.walk step) (Scan.walk step') r r' Eq := by
  intro a r₁ hrun hlength
  obtain ⟨z, hz, hz'⟩ := h.text
  obtain ⟨hleft, hjournal⟩ := Scan.walk_eq_ok hrun
  obtain ⟨c', hright, habreast⟩ := hstep z a r₁.cursor hz hz' hleft hlength
  refine ⟨a, { r' with cursor := c' }, ?_, habreast, ?_, rfl⟩
  · rw [Scan.walk_apply, hright]
  · rw [hjournal]
    exact h.echoes

/-! ### Journals and tokens -/

lemma warn {code : Code} {span span' : Span} {message : String} (h : S.Twins r r')
    (hspan : S.Rel span span') :
    S.Local (Scan.warn code span message) (Scan.warn code span' message) r r' fun _ _ => True := by
  intro a r₁ hrun _
  cases hrun
  exact ⟨(), _, rfl, .refl _ _, h.echoes.warning (View.rel_diagnostic hspan rfl), trivial⟩

lemma tokenFrom {start start' : Cursor} {kind : TokenKind} {value value' : TokenValue}
    (h : S.Twins r r') (hfaces : S.Faces start.pos start'.pos)
    (habreast : Cursor.Abreast start start' r.cursor r'.cursor) (hvalue : S.Rel value value') :
    S.Local (Scan.tokenFrom start kind value) (Scan.tokenFrom start' kind value') r r' S.Rel := by
  intro t r₁ hrun _
  rw [Scan.tokenFrom_apply] at hrun
  cases hrun
  obtain ⟨text, hl, hr⟩ := habreast
  refine ⟨_, r', Scan.tokenFrom_apply _ _ _ _, .refl _ _, h.echoes, ?_⟩
  rw [hl.textTo, hr.textTo]
  refine View.rel_token hvalue ?_
  rw [Cursor.spanFrom, Cursor.spanFrom, hl.offset, hr.offset]
  exact hfaces.span_new _

end Local

end Scene

/-! ## Gaps and strings -/

lemma exists_of_length_le (front : List Char) {z y rest : List Char} (h : z ++ y = front ++ rest)
    (hlength : y.length ≤ rest.length) : ∃ z', z = front ++ z' ∧ rest = z' ++ y := by
  have hle : front.length ≤ z.length := by
    have hlengths := congrArg List.length h
    simp only [List.length_append] at hlengths
    omega
  obtain ⟨z', rfl⟩ : front <+: z :=
    List.prefix_of_prefix_length_le ⟨rest, h.symm⟩ ⟨y, rfl⟩ hle
  rw [List.append_assoc] at h
  exact ⟨z', rfl, (List.append_cancel_left h).symm⟩

lemma Neutral.no_pair {z y y' : List Char} (hy' : Neutral y') {c d e : Char} (he : e ∉ separators)
    (h : ∀ rest, c = d → z ++ y = e :: rest → False) :
    ∀ rest, c = d → z ++ y' = e :: rest → False := by
  intro rest hc heq
  cases z with
  | nil => exact hy'.head_ne he (by rw [← List.nil_append y', heq]; rfl)
  | cons x z =>
    rw [List.cons_append, List.cons.injEq] at heq
    exact h (z ++ y) hc (by rw [List.cons_append, heq.1])

namespace Scan

/-- Modes that differ only in where a comment was opened. -/
inductive GapMode.Like : GapMode → GapMode → Prop where
  | blank : Like .blank .blank
  | lineComment : Like .lineComment .lineComment
  | blockComment (opened opened' : Position) (depth : Nat) :
    Like (.blockComment opened depth) (.blockComment opened' depth)

lemma gap_blank_cons {c : Char} {rest : List Char} (pos : Position)
    (hline : ∀ rest', c = '/' → rest = '/' :: rest' → False)
    (hblock : ∀ rest', c = '/' → rest = '*' :: rest' → False) :
    gap .blank (c :: rest) pos =
      if Text.isBlank c then gap .blank rest (pos.advance c) else .ok () ⟨c :: rest, pos⟩ := by
  rw [gap]
  · exact hline
  · exact hblock

lemma gap_comment_cons {opened : Position} {depth : Nat} {c : Char} {rest : List Char}
    (pos : Position) (hopening : ∀ rest', c = '/' → rest = '*' :: rest' → False)
    (hclosing : ∀ rest', c = '*' → rest = '/' :: rest' → False) :
    gap (.blockComment opened depth) (c :: rest) pos =
      gap (.blockComment opened depth) rest (pos.advance c) := by
  rw [gap]
  · exact hopening
  · exact hclosing

/-- A gap is found the same with another tail, up to what the tail adds to it. -/
lemma gap_local {mode mode' : GapMode} {z y y' : List Char} {pos : Position} {c : Cursor}
    (pos' : Position) (hy' : Neutral y') (hends : y = [] → ∀ c ∈ y'.head?, c = '\n')
    (hmode : mode.Like mode') (h : gap mode (z ++ y) pos = .ok () c)
    (hlength : y.length ≤ c.rest.length) :
    ∃ text z₁, z = text ++ z₁ ∧ c = ⟨z₁ ++ y, pos.after text⟩ ∧
      gap mode' (z ++ y') pos' = gap .blank (z₁ ++ y') (pos'.after text) := by
  have hrest {mode : GapMode} {text : List Char} {pos : Position}
      (h : gap mode text pos = .ok () c) : y.length ≤ text.length :=
    Nat.le_trans hlength (gap_leads h).length_le
  generalize htext : z ++ y = text at h
  fun_induction gap mode text pos generalizing z mode' pos' with
  | case1 pos =>
    cases h
    cases hmode
    exact ⟨[], z, rfl, by rw [htext]; rfl, rfl⟩
  | case2 rest pos ih =>
    cases hmode
    obtain ⟨z', rfl, rfl⟩ := exists_of_length_le ['/', '/'] htext (hrest h)
    obtain ⟨text, z₁, rfl, rfl, hright⟩ := ih _ .lineComment rfl h
    exact ⟨'/' :: '/' :: text, z₁, rfl, rfl, hright⟩
  | case3 rest pos ih =>
    cases hmode
    obtain ⟨z', rfl, rfl⟩ := exists_of_length_le ['/', '*'] htext (hrest h)
    obtain ⟨text, z₁, rfl, rfl, hright⟩ := ih _ (.blockComment _ pos' _) rfl h
    exact ⟨'/' :: '*' :: text, z₁, rfl, rfl, hright⟩
  | case4 ch rest pos hline hblock hblank ih =>
    cases hmode
    obtain ⟨z', rfl, rfl⟩ := exists_of_length_le [ch] htext (hrest h)
    obtain ⟨text, z₁, rfl, rfl, hright⟩ := ih _ .blank rfl h
    refine ⟨ch :: text, z₁, rfl, rfl, ?_⟩
    have hline' := hy'.no_pair (by decide) hline
    have hblock' := hy'.no_pair (by decide) hblock
    exact (gap_blank_cons pos' hline' hblock').trans ((if_pos hblank).trans hright)
  | case5 ch rest pos hline hblock hblank =>
    cases h
    cases hmode
    exact ⟨[], z, rfl, by rw [htext]; rfl, rfl⟩
  | case6 pos =>
    cases h
    cases hmode
    obtain ⟨rfl, rfl⟩ := List.append_eq_nil_iff.mp htext
    refine ⟨[], [], rfl, rfl, ?_⟩
    cases y' with
    | nil => rfl
    | cons c y' =>
      obtain rfl := hends rfl c rfl
      rfl
  | case7 ch rest pos ih =>
    cases hmode
    obtain ⟨z', rfl, rfl⟩ := exists_of_length_le [ch] htext (hrest h)
    have hnext : (if ch = '\n' then GapMode.blank else .lineComment).Like
        (if ch = '\n' then .blank else .lineComment) := by
      split
      · exact .blank
      · exact .lineComment
    obtain ⟨text, z₁, rfl, rfl, hright⟩ := ih _ hnext rfl h
    exact ⟨ch :: text, z₁, rfl, rfl, hright⟩
  | case8 => cases h
  | case9 opened depth rest pos ih =>
    cases hmode with
    | blockComment _ opened' =>
      obtain ⟨z', rfl, rfl⟩ := exists_of_length_le ['/', '*'] htext (hrest h)
      obtain ⟨text, z₁, rfl, rfl, hright⟩ := ih _ (.blockComment _ opened' _) rfl h
      exact ⟨'/' :: '*' :: text, z₁, rfl, rfl, hright⟩
  | case10 opened depth rest pos ih =>
    cases hmode with
    | blockComment _ opened' =>
      obtain ⟨z', rfl, rfl⟩ := exists_of_length_le ['*', '/'] htext (hrest h)
      have hnext : (if depth ≤ 1 then GapMode.blank else .blockComment opened (depth - 1)).Like
          (if depth ≤ 1 then .blank else .blockComment opened' (depth - 1)) := by
        split
        · exact .blank
        · exact .blockComment _ _ _
      obtain ⟨text, z₁, rfl, rfl, hright⟩ := ih _ hnext rfl h
      exact ⟨'*' :: '/' :: text, z₁, rfl, rfl, hright⟩
  | case11 opened depth ch rest pos hopening hclosing ih =>
    cases hmode with
    | blockComment _ opened' =>
      obtain ⟨z', rfl, rfl⟩ := exists_of_length_le [ch] htext (hrest h)
      obtain ⟨text, z₁, rfl, rfl, hright⟩ := ih _ (.blockComment _ opened' _) rfl h
      refine ⟨ch :: text, z₁, rfl, rfl, ?_⟩
      have hopening' := hy'.no_pair (by decide) hopening
      have hclosing' := hy'.no_pair (by decide) hclosing
      exact (gap_comment_cons pos' hopening' hclosing').trans hright

lemma gap_settles {mode : GapMode} {text : List Char} {pos : Position} {c : Cursor}
    (h : gap mode text pos = .ok () c) : gap .blank c.rest c.pos = .ok () c := by
  fun_induction gap mode text pos with
  | case1 => cases h; rfl
  | case2 rest pos ih => exact ih h
  | case3 rest pos ih => exact ih h
  | case4 ch rest pos hline hblock hblank ih => exact ih h
  | case5 ch rest pos hline hblock hblank =>
    cases h
    rw [gap_blank_cons pos hline hblock, if_neg hblank]
  | case6 => cases h; rfl
  | case7 ch rest pos ih => exact ih h
  | case8 => cases h
  | case9 opened depth rest pos ih => exact ih h
  | case10 opened depth rest pos ih => exact ih h
  | case11 opened depth ch rest pos hopening hclosing ih => exact ih h

lemma gap_stops {c : Char} {z y y' : List Char} {pos : Position} (pos' : Position)
    (hy' : Neutral y')
    (h : gap .blank (c :: z ++ y) pos = .ok () ⟨c :: z ++ y, pos⟩) :
    gap .blank (c :: z ++ y') pos' = .ok () ⟨c :: z ++ y', pos'⟩ := by
  have hmoves (mode : GapMode) {text rest : List Char} {pos pos' : Position}
      (hlt : text.length < rest.length) (h : gap mode text pos = .ok () ⟨rest, pos'⟩) : False :=
    absurd (gap_leads h).length_le (Nat.not_le_of_lt hlt)
  have hline : ∀ rest', c = '/' → z ++ y = '/' :: rest' → False := by
    rintro rest' rfl hrest
    rw [List.cons_append, hrest] at h
    exact hmoves .lineComment (show rest'.length < rest'.length + 2 by omega) h
  have hblock : ∀ rest', c = '/' → z ++ y = '*' :: rest' → False := by
    rintro rest' rfl hrest
    rw [List.cons_append, hrest] at h
    exact hmoves (.blockComment _ 1) (show rest'.length < rest'.length + 2 by omega) h
  have hblank : ¬ Text.isBlank c = true := by
    intro hblank
    rw [List.cons_append, gap_blank_cons pos hline hblock, if_pos hblank] at h
    exact hmoves .blank (Nat.lt_succ_self _) h
  rw [List.cons_append, gap_blank_cons pos' (hy'.no_pair (by decide) hline)
    (hy'.no_pair (by decide) hblock), if_neg hblank]

lemma stringBody_escape_cons {opened : Position} {c : Char} {rest : List Char} {pos : Position}
    {read meaning : List Char} (h : unescape? c = some meaning) :
    stringBody opened ('\\' :: c :: rest) pos read =
      stringBody opened rest (pos.after ['\\', c]) (meaning.reverse ++ read) := by
  rw [stringBody, h]

lemma stringBody_plain_cons {opened : Position} {c : Char} {rest : List Char} {pos : Position}
    {read : List Char} (hquote : c ≠ '"') (hslash : c ≠ '\\') :
    stringBody opened (c :: rest) pos read =
      stringBody opened rest (pos.advance c) (c :: read) := by
  rw [stringBody]
  · exact hquote
  · exact fun h _ => hslash h
  · exact fun _ _ h _ => hslash h

/-- A string is read the same whatever follows it. -/
lemma stringBody_local {opened opened' : Position} {z y y' : List Char} {pos pos' : Position}
    {read value : List Char} {c : Cursor}
    (h : stringBody opened (z ++ y) pos read = .ok value c) (hlength : y.length ≤ c.rest.length) :
    ∃ text z₁, z = text ++ z₁ ∧ c = ⟨z₁ ++ y, pos.after text⟩ ∧
      stringBody opened' (z ++ y') pos' read = .ok value ⟨z₁ ++ y', pos'.after text⟩ := by
  have hrest {text : List Char} {pos : Position} {read : List Char}
      (h : stringBody opened text pos read = .ok value c) : y.length ≤ text.length :=
    Nat.le_trans hlength (stringBody_leads h).length_le
  generalize htext : z ++ y = text at h
  fun_induction stringBody opened text pos read generalizing z pos' with
  | case1 => cases h
  | case2 rest pos read =>
    cases h
    obtain ⟨z', rfl, rfl⟩ := exists_of_length_le ['"'] htext hlength
    exact ⟨['"'], z', rfl, rfl, rfl⟩
  | case3 => cases h
  | case4 ch rest pos read behind meaning hmeaning =>
    rename_i ih
    obtain ⟨z', rfl, rfl⟩ := exists_of_length_le ['\\', ch] htext (hrest h)
    obtain ⟨text, z₁, rfl, rfl, hright⟩ := ih rfl h
    refine ⟨'\\' :: ch :: text, z₁, rfl, rfl, ?_⟩
    exact (stringBody_escape_cons hmeaning).trans hright
  | case5 => cases h
  | case6 ch rest pos read hquote hlast hescape ih =>
    obtain ⟨z', rfl, rfl⟩ := exists_of_length_le [ch] htext (hrest h)
    obtain ⟨text, z₁, rfl, rfl, hright⟩ := ih rfl h
    refine ⟨ch :: text, z₁, rfl, rfl, ?_⟩
    have hslash : ch ≠ '\\' := by
      intro hch
      cases hrest' : text ++ z₁ ++ y with
      | nil => exact hlast hch hrest'
      | cons c rest => exact hescape c rest hch hrest'
    exact (stringBody_plain_cons hquote hslash).trans hright

end Scan

namespace Scene

variable {S : Scene} {r r' r₁ r₁' : Reader}

lemma Twins.skipGap_inside (h : S.Twins r r') (hrun : Scan.skipGap r = .ok () r₁)
    (hlength : S.tail.length < r₁.cursor.rest.length) :
    ∃ r₁', Scan.skipGap r' = .ok () r₁' ∧ S.Twins r₁ r₁' := by
  obtain ⟨z, hz, hz', hplace⟩ := h.shared
  obtain ⟨hgap, hjournal⟩ := Scan.skipGap_eq_ok hrun
  have hsettles := Scan.gap_settles hgap
  rw [hz] at hgap
  obtain ⟨text, z₁, rfl, hcursor, hright⟩ :=
    Scan.gap_local r'.cursor.pos S.neutral' S.ends .blank hgap
    (Nat.le_of_lt hlength)
  cases z₁ with
  | nil => simp [hcursor] at hlength
  | cons c z₁ =>
    rw [hcursor] at hsettles
    have hstops := Scan.gap_stops (r'.cursor.pos.after text) S.neutral' hsettles
    refine ⟨{ r' with cursor := ⟨c :: z₁ ++ S.tail', r'.cursor.pos.after text⟩ }, ?_,
      ⟨c :: z₁, ?_, rfl, ?_⟩, ?_⟩
    · rw [Scan.skipGap, Scan.walk_apply, hz', hright, hstops]
    · rw [hcursor]
    · rw [hcursor]
      exact S.toRelocation.place_after hplace
    · rw [hjournal]
      exact h.echoes

lemma Twins.skipGap_outside (h : S.Twins r r') (hrun : Scan.skipGap r = .ok () r₁)
    (hrest : r₁.cursor.rest = S.tail) :
    ∃ r₁', S.Twins r₁ r₁' ∧ r₁'.cursor.rest = S.tail' ∧ Scan.skipGap r' = Scan.skipGap r₁' := by
  obtain ⟨z, hz, hz', hplace⟩ := h.shared
  obtain ⟨hgap, hjournal⟩ := Scan.skipGap_eq_ok hrun
  rw [hz] at hgap
  obtain ⟨text, z₁, rfl, hcursor, hright⟩ :=
    Scan.gap_local r'.cursor.pos S.neutral' S.ends .blank hgap
    (Nat.le_of_eq (congrArg List.length hrest.symm))
  obtain rfl : z₁ = [] := by
    rw [hcursor] at hrest
    exact List.append_left_eq_self.mp hrest
  refine ⟨{ r' with cursor := ⟨S.tail', r'.cursor.pos.after text⟩ }, ⟨⟨[], ?_, rfl, ?_⟩, ?_⟩,
    rfl, ?_⟩
  · rw [hrest]
    rfl
  · rw [hcursor]
    exact S.toRelocation.place_after hplace
  · rw [hjournal]
    exact h.echoes
  · rw [Scan.skipGap, Scan.walk_apply, Scan.walk_apply, hz', hright]
    rfl

end Scene

end FrontEnd
