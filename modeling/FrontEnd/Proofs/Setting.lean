import FrontEnd.Proofs.Faults
import FrontEnd.Proofs.Sequence

/-!
# Streams on a sequence of tokens

A stream that is set up at a place of a source holds the tokens that the scanner finds from there
on, however it is used. `Setting.At` says behind which of them the parser stands.
-/

namespace FrontEnd

open Parse

/-! ## The range of some tokens -/

/-- The range from the first of some tokens through the last. -/
def cover (ts : List Token) : Span :=
  match ts.head?, ts.getLast? with
  | some first, some last => Span.new first.span.start last.span.stop
  | _, _ => Span.zero

section Cover

variable {t : Token} {ts xs ys : List Token}

@[simp] lemma cover_singleton (t : Token) : cover [t] = t.span := by
  obtain ⟨kind, value, ⟨offset, len, line, column⟩, lexeme⟩ := t
  simp [cover, Span.new, Span.start, Span.stop]

lemma cover_eq {last : Token} (hlast : (t :: ts).getLast? = some last) :
    cover (t :: ts) = Span.new t.span.start last.span.stop := by
  rw [cover, List.head?_cons, hlast]

lemma Ordered.offset_le (h : Ordered (t :: ts)) {u : Token} (hu : u ∈ t :: ts) :
    t.span.offset ≤ u.span.offset := by
  rcases List.mem_cons.mp hu with rfl | hu
  · exact Nat.le_refl _
  · exact Nat.le_trans (Nat.le_add_right _ _) (List.rel_of_pairwise_cons h hu)

lemma Ordered.stop_le (h : Ordered ts) {last u : Token} (hlast : ts.getLast? = some last)
    (hu : u ∈ ts) : u.span.stop ≤ last.span.stop := by
  obtain ⟨front, rfl⟩ := List.getLast?_eq_some_iff.mp hlast
  rcases List.mem_append.mp hu with hu | hu
  · have hle := (List.pairwise_append.mp h).2.2 u hu last (List.mem_singleton.mpr rfl)
    exact Nat.le_trans hle (Nat.le_add_right _ _)
  · exact Nat.le_of_eq (by rw [List.mem_singleton.mp hu])

lemma cover_merge (h : Ordered (xs ++ ys)) (hxs : xs ≠ []) {last : Token}
    (hlast : (xs ++ ys).getLast? = some last) :
    (cover xs).merge last.span = cover (xs ++ ys) := by
  obtain ⟨t, ts, rfl⟩ := List.exists_cons_of_ne_nil hxs
  obtain ⟨u, hu⟩ : ∃ u, (t :: ts).getLast? = some u :=
    ⟨_, List.getLast?_eq_some_getLast (List.cons_ne_nil t ts)⟩
  have hmem := List.mem_append_left ys (List.mem_of_getLast? hu)
  have hstart := Ordered.offset_le h (List.mem_of_getLast? hlast)
  have hstop := Ordered.stop_le h hlast hmem
  have hle : t.span.offset ≤ u.span.stop :=
    Nat.le_trans (Ordered.offset_le h hmem) (Nat.le_add_right _ _)
  rw [List.cons_append] at hlast ⊢
  have hfirst : (Span.new t.span.start u.span.stop).offset ≤ last.span.offset := hstart
  rw [cover_eq hu, cover_eq hlast, Span.merge, Span.stop_new hle, Span.start_new, if_pos hfirst,
    Nat.max_eq_right hstop]

end Cover

/-! ## Failures -/

/-- No more than some number of characters is left to scan. -/
def Stream.Narrow (width : Nat) (s : Stream) : Prop :=
  s.reader.cursor.rest.length ≤ width

/-- A failure that is none of the front end itself. -/
structure Tame (width : Nat) (d : Diagnostic) (s : Stream) : Prop where
  stage : d.stage ≠ .internal
  narrow : s.Narrow width

section Narrow

variable {σ : Session} {width : Nat} {s : Stream}
variable (hforward : Scan.ForwardWithin σ.embedded) (hguarded : Scan.Guarded σ.embedded width)
include hforward hguarded

lemma scanNext_narrow (hs : s.Narrow width) :
    match scanNext σ s with
    | .ok _ s' => s'.Narrow width
    | .error d s' => Tame width d s' := by
  rw [scanNext_apply]
  cases hgap : Scan.skipGap s.reader with
  | error d r =>
    obtain ⟨hstage, hle⟩ := Scan.Lexical.error hgap
    exact ⟨by rw [hstage]; decide, Nat.le_trans hle hs⟩
  | ok _ r =>
    have hr : r.cursor.rest.length ≤ width :=
      Nat.le_trans (Scan.Forward.leads hgap).length_le hs
    dsimp only
    cases htoken : Scan.tokenHere σ.embedded r with
    | error d r' =>
      obtain ⟨hstage, hle⟩ := Scan.TameAt.tokenHere hguarded hforward hr d r' htoken
      exact ⟨hstage, Nat.le_trans hle hr⟩
    | ok t r' =>
      have hread := Scan.forward_tokenHere hforward
      exact Nat.le_trans (hread.leads htoken).length_le hr

lemma scanPast_narrow {n : Nat} (hs : s.Narrow width) :
    match scanPast n σ s with
    | .ok _ s' => s'.Narrow width
    | .error d s' => Tame width d s' := by
  induction n generalizing s with
  | zero => exact scanNext_narrow hforward hguarded hs
  | succ n ih =>
    have hscan := scanNext_narrow hforward hguarded hs
    rw [scanPast, discard_eq, bind_apply, bind_apply]
    cases hcases : scanNext σ s with
    | error d s' => rwa [hcases] at hscan
    | ok t s' =>
      rw [hcases] at hscan
      exact ih hscan

lemma peekAhead_narrow {n : Nat} (hs : s.Narrow width) :
    match peekAhead n σ s with
    | .ok _ s' => s'.Narrow width
    | .error d s' => Tame width d s' := by
  rw [peekAhead_apply]
  cases s.buffer[s.index + n]? with
  | some lexed => exact hs
  | none => exact scanPast_narrow hforward hguarded hs

end Narrow

/-! ## Streams -/

/-- What a run of the parser works with: a session, and the reader that it starts from. -/
structure Setting where
  session : Session
  start : Reader
  grammar : session.grammar = .standard
  forward : Scan.ForwardWithin session.embedded
  /-- Whether fuel and warnings are looked after. -/
  strict : Prop
  limit : strict → start.cursor.rest.length < session.limit

/-- A setting in which neither fuel nor warnings are looked after. -/
def Setting.lenient (σ : Session) (r : Reader) (hσ : σ.grammar = .standard)
    (hforward : Scan.ForwardWithin σ.embedded) : Setting :=
  ⟨σ, r, hσ, hforward, False, False.elim⟩

/-- The tokens that a stream has read. -/
def Stream.tokens (s : Stream) : List Token :=
  s.buffer.toList.map Lexed.token

namespace Setting

variable (K : Setting)

/-- A stream holds what the scanner finds from the start on. The given tokens are the first of it,
and stand inside the source. -/
structure Holds (before : List Token) (s : Stream) : Prop where
  run : ∃ ws, Scan.Run K.session.embedded K.start.cursor s.buffer.toList ws s.reader.cursor ∧
    (K.strict → lexical s.reader.journal.warnings = lexical (K.start.journal.warnings ++ ws))
  kept : before <+: s.tokens
  inner : ∀ t ∈ before, t.isEnd = false

/-- A stream stands behind the given tokens. -/
structure At (before : List Token) (s : Stream) : Prop extends K.Holds before s where
  index : s.index = before.length

/-- The scanner fails somewhere on the way. -/
def Faulty : Prop :=
  ∃ before s d s', K.Holds before s ∧ scanNext K.session s = .error d s'

/-- The scanner has failed on the way, and for the text that is read if this holds of expressions in
template strings. -/
structure Failed (d : Diagnostic) (s : Stream) : Prop where
  faulty : K.Faulty
  tame : Scan.Guarded K.session.embedded K.start.cursor.rest.length →
    Tame K.start.cursor.rest.length d s

/-- The scanner finds a token somewhere. -/
def Found (t : Token) : Prop :=
  ∃ r r', Scan.tokenHere K.session.embedded r = .ok t r'

/-- A stream whose next token has been looked at. -/
def Sees (before : List Token) (t : Token) (s : Stream) : Prop :=
  K.At before s ∧ K.Found t ∧ ∃ lexed, s.buffer[s.index]? = some lexed ∧ lexed.token = t

/-- Behind the given tokens some fuel is enough, if it is looked after. -/
def Affords (before : List Token) (fuel : Nat) : Prop :=
  K.strict → K.start.cursor.rest.length < before.length + fuel

lemma affords_limit (before : List Token) : K.Affords before K.session.limit :=
  fun h => Nat.lt_add_left _ (K.limit h)

variable {K} {before since : List Token} {s s' : Stream} {t : Token}

lemma Affords.later {fuel : Nat} (h : K.Affords before (fuel + 1))
    (hlt : before.length < since.length) : K.Affords since fuel := by
  intro hstrict
  have hle := h hstrict
  omega

lemma Affords.append {fuel : Nat} (h : K.Affords before (fuel + 1)) (hne : since ≠ []) :
    K.Affords (before ++ since) fuel := by
  refine h.later ?_
  have hpos := List.length_pos_iff.mpr hne
  rw [List.length_append]
  omega

lemma Holds.ordered (h : K.Holds before s) : Ordered before := by
  obtain ⟨ws, hrun, -⟩ := h.run
  exact (hrun.ordered K.forward).sublist h.kept.sublist

lemma Holds.split (h : K.Holds before s) :
    ∃ xs ys, s.buffer.toList = xs ++ ys ∧ xs.map Lexed.token = before := by
  obtain ⟨rest, hrest⟩ := h.kept
  obtain ⟨xs, ys, hsplit, hxs, -⟩ := List.map_eq_append_iff.mp hrest.symm
  exact ⟨xs, ys, hsplit, hxs⟩

lemma Holds.length_le (h : K.Holds before s) :
    before.length ≤ K.start.cursor.rest.length := by
  obtain ⟨ws, hrun, -⟩ := h.run
  obtain ⟨xs, ys, hsplit, rfl⟩ := h.split
  rw [hsplit] at hrun
  obtain ⟨c₁, us, vs, hfront, -, -⟩ := Scan.run_append.mp hrun
  have hle := hfront.length_le K.forward fun x hx => h.inner _ (List.mem_map_of_mem hx)
  rw [List.length_map]
  omega

lemma Holds.of_prefix (h : K.Holds before s) (hfront : since <+: before) : K.Holds since s where
  run := h.run
  kept := hfront.trans h.kept
  inner t ht := h.inner t (hfront.subset ht)

lemma Holds.moved (h : K.Holds before s) (index : Nat) :
    K.Holds before { s with index := index } :=
  ⟨h.run, h.kept, h.inner⟩

lemma Holds.record (h : K.Holds before s) {e : Event}
    (he : K.strict → lexical (Journal.warning? e).toList = []) :
    K.Holds before (s.record e) where
  run := by
    obtain ⟨ws, hrun, hwarned⟩ := h.run
    refine ⟨ws, hrun, fun hstrict => ?_⟩
    rw [← hwarned hstrict, Stream.record_journal]
    cases hevent : Journal.warning? e with
    | none => rw [Journal.warnings_push_other _ hevent]
    | some d =>
      cases e <;> cases hevent
      rw [Journal.warnings_push_warning, lexical_append]
      exact List.append_right_eq_self.mpr (he hstrict)
  kept := h.kept
  inner := h.inner

lemma At.record (h : K.At before s) {e : Event}
    (he : K.strict → lexical (Journal.warning? e).toList = []) : K.At before (s.record e) :=
  ⟨h.toHolds.record he, h.index⟩

lemma Failed.record {d : Diagnostic} (h : K.Failed d s) {e : Event} : K.Failed d (s.record e) :=
  ⟨h.faulty, fun hguarded => ⟨(h.tame hguarded).stage, (h.tame hguarded).narrow⟩⟩

lemma Holds.scanNext (h : K.Holds before s) :
    match scanNext K.session s with
    | .ok _ s' => K.Holds before s' ∧ s'.index = s.index
    | .error _ _ => K.Faulty := by
  cases hscan : Parse.scanNext K.session s with
  | error d s' => exact ⟨before, s, d, s', h, hscan⟩
  | ok t s' =>
    obtain ⟨r, hgap, htoken, hbuffer, hindex⟩ := scanNext_eq_ok hscan
    obtain ⟨ws, hrun, hwarned⟩ := h.run
    obtain ⟨us, hfinds, hus⟩ := Scan.finds_of_ok K.forward hgap htoken
    refine ⟨⟨⟨ws ++ us, ?_, fun hstrict => ?_⟩, ?_, h.inner⟩, hindex⟩
    · rw [hbuffer, Array.toList_push]
      exact hrun.snoc hfinds
    · rw [hus, lexical_append, hwarned hstrict, ← lexical_append, List.append_assoc]
    · rw [Stream.tokens, hbuffer, Array.toList_push, List.map_append]
      exact h.kept.trans (List.prefix_append _ _)

lemma Holds.scanPast {n : Nat} (h : K.Holds before s) :
    match scanPast n K.session s with
    | .ok _ s' => K.Holds before s' ∧ s'.index = s.index
    | .error _ _ => K.Faulty := by
  induction n generalizing s with
  | zero => exact h.scanNext
  | succ n ih =>
    rw [Parse.scanPast, discard_eq, bind_apply, bind_apply]
    have hscan := h.scanNext
    cases hcases : Parse.scanNext K.session s with
    | error d s' => rwa [hcases] at hscan
    | ok t s' =>
      rw [hcases] at hscan
      have hrest := ih hscan.1
      dsimp only
      change match Parse.scanPast n K.session s' with
        | .ok _ s'' => _
        | .error _ _ => _
      cases hmore : Parse.scanPast n K.session s' with
      | error d s'' => rwa [hmore] at hrest
      | ok u s'' =>
        rw [hmore] at hrest
        exact ⟨hrest.1, hrest.2.trans hscan.2⟩

lemma Holds.narrow (h : K.Holds before s) : s.Narrow K.start.cursor.rest.length := by
  obtain ⟨ws, hrun, -⟩ := h.run
  exact (hrun.leads K.forward).length_le

lemma Holds.peekAhead {n : Nat} (h : K.Holds before s) :
    match peekAhead n K.session s with
    | .ok _ s' => K.Holds before s' ∧ s'.index = s.index
    | .error d s' => K.Failed d s' := by
  rw [peekAhead_apply]
  cases s.buffer[s.index + n]? with
  | some lexed => exact ⟨h, rfl⟩
  | none =>
    have hscan := h.scanPast (n := s.index + n - s.buffer.size)
    dsimp only
    cases hcases : Parse.scanPast (s.index + n - s.buffer.size) K.session s with
    | ok t s' => rwa [hcases] at hscan
    | error d s' =>
      rw [hcases] at hscan
      refine ⟨hscan, fun hguarded => ?_⟩
      have htame := scanPast_narrow K.forward hguarded h.narrow (n := s.index + n - s.buffer.size)
      rwa [hcases] at htame

lemma Holds.found (h : K.Holds before s) {k : Nat} {lexed : Lexed}
    (hk : s.buffer[k]? = some lexed) : K.Found lexed.token := by
  obtain ⟨ws, hrun, -⟩ := h.run
  obtain ⟨c, ws', c', r, r₁, r₂, -, -, -, htoken, -⟩ :=
    hrun.finds (Array.mem_toList_iff.mpr (Array.mem_of_getElem? hk))
  exact ⟨r₁, r₂, htoken⟩

lemma At.peek (h : K.At before s) :
    match peek K.session s with
    | .ok t s' => K.Sees before t s'
    | .error d s' => K.Failed d s' := by
  have hahead := h.toHolds.peekAhead (n := 0)
  cases hpeek : Parse.peek K.session s with
  | error d s' =>
    rw [Parse.peek] at hpeek
    rwa [hpeek] at hahead
  | ok t s' =>
    obtain ⟨-, lexed, hlexed, rfl⟩ := peek_eq_ok hpeek
    rw [Parse.peek] at hpeek
    rw [hpeek] at hahead
    exact ⟨⟨hahead.1, hahead.2.trans h.index⟩, hahead.1.found hlexed, lexed, hlexed, rfl⟩

lemma Sees.step (h : K.Sees before t s) (hinner : t.isEnd = false) :
    K.At (before ++ [t]) s.step := by
  obtain ⟨hat, -, lexed, hlexed, rfl⟩ := h
  refine ⟨⟨hat.run, ?_, ?_⟩, by simp [hat.index]⟩
  · obtain ⟨rest, hrest⟩ := hat.kept
    have hnext : s.tokens[before.length]? = some lexed.token := by
      rw [Stream.tokens, List.getElem?_map, Array.getElem?_toList, ← hat.index, hlexed]
      rfl
    rw [← hrest, List.getElem?_append_right (Nat.le_refl _), Nat.sub_self] at hnext
    obtain ⟨rest, rfl⟩ : ∃ rest', rest = lexed.token :: rest' := by
      cases rest with
      | nil => cases hnext
      | cons u rest => exact ⟨rest, by simpa using hnext⟩
    refine ⟨rest, ?_⟩
    change _ = s.tokens
    rw [← hrest, List.append_assoc]
    rfl
  · intro u hu
    rcases List.mem_append.mp hu with hu | hu
    · exact hat.inner u hu
    · rw [List.mem_singleton.mp hu]
      exact hinner

lemma At.split (h : K.At before s) :
    ∃ xs ys, s.buffer.toList = xs ++ ys ∧ xs.map Lexed.token = before ∧
      ∀ k, s.buffer[s.index + k]? = ys[k]? := by
  obtain ⟨xs, ys, hsplit, rfl⟩ := h.toHolds.split
  refine ⟨xs, ys, hsplit, rfl, fun k => ?_⟩
  rw [h.index, List.length_map, ← Array.getElem?_toList, hsplit,
    List.getElem?_append_right (Nat.le_add_right _ _), Nat.add_sub_cancel_left]

lemma At.place (h : K.At before s) {t : Token} (ht : t ∈ before) :
    K.start.cursor.pos.offset ≤ t.span.offset ∧ t.span.stop ≤ s.resumeCursor.pos.offset := by
  obtain ⟨ws, hrun, -⟩ := h.run
  obtain ⟨xs, ys, hsplit, rfl, hnext⟩ := h.split
  rw [hsplit] at hrun
  obtain ⟨c₁, us, vs, hfront, hback, -⟩ := Scan.run_append.mp hrun
  obtain ⟨x, hx, rfl⟩ := List.mem_map.mp ht
  refine ⟨hfront.le_offset K.forward x hx, Nat.le_trans (hfront.stop_le K.forward x hx) ?_⟩
  rw [Stream.resumeCursor, ← Nat.add_zero s.index, hnext 0]
  cases hback with
  | nil => exact Nat.le_refl _
  | cons hfinds => exact (hfinds.cases K.forward).1.offset_le

lemma At.previousSpan (h : K.At before s) {last : Token} (hlast : before.getLast? = some last) :
    s.previousSpan = last.span := by
  obtain ⟨front, rfl⟩ := List.getLast?_eq_some_iff.mp hlast
  obtain ⟨rest, hrest⟩ := h.kept
  have hnext : s.tokens[front.length]? = some last := by
    rw [← hrest, List.append_assoc, List.getElem?_append_right (Nat.le_refl _), Nat.sub_self]
    rfl
  rw [Stream.tokens, List.getElem?_map, Array.getElem?_toList] at hnext
  have hindex : s.index = front.length + 1 := by rw [h.index, List.length_append]; rfl
  obtain ⟨lexed, hlexed, rfl⟩ := Option.map_eq_some_iff.mp hnext
  rw [Stream.previousSpan, hindex]
  simp [hlexed]

end Setting

end FrontEnd
