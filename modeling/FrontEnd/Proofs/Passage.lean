import FrontEnd.Proofs.Runs

/-!
# Reading moves forward

`c.Passes text c'` says that reading `text` leads from the cursor `c` to the cursor `c'`. Scanning
actions that succeed only ever move forward in this way, and a token spans the text that is
passed while it is read.
-/

namespace FrontEnd

lemma Text.byteSize_pos {text : List Char} (h : text ≠ []) : 0 < Text.byteSize text := by
  cases text with
  | nil => exact absurd rfl h
  | cons c cs =>
    have hc := c.utf8Size_pos
    rw [Text.byteSize_cons]
    omega

namespace Cursor

/-- Reading `text` leads from one cursor to the other. -/
def Passes (c : Cursor) (text : List Char) (c' : Cursor) : Prop :=
  c.rest = text ++ c'.rest ∧ c'.pos = c.pos.after text

/-- A cursor is reached from another by reading. -/
def Leads (c c' : Cursor) : Prop :=
  ∃ text, c.Passes text c'

variable {c c' c'' : Cursor} {text text' : List Char}

lemma passes_nil (c : Cursor) : c.Passes [] c := ⟨rfl, rfl⟩

lemma Passes.append (h : c.Passes text c') (h' : c'.Passes text' c'') :
    c.Passes (text ++ text') c'' := by
  obtain ⟨hrest, hpos⟩ := h
  obtain ⟨hrest', hpos'⟩ := h'
  exact ⟨by rw [hrest, hrest', List.append_assoc], by rw [hpos', hpos, Position.after_append]⟩

lemma Passes.length_rest (h : c.Passes text c') :
    c.rest.length = text.length + c'.rest.length := by
  rw [h.1, List.length_append]

lemma Passes.offset (h : c.Passes text c') :
    c'.pos.offset = c.pos.offset + Text.byteSize text := by
  rw [h.2, Position.after_offset]

lemma Passes.textTo (h : c.Passes text c') : c.textTo c' = text := by
  have hsize : c'.pos.offset - c.pos.offset = Text.byteSize text := by
    rw [h.offset]
    omega
  rw [Cursor.textTo, hsize, h.1, Text.splitBytes?_append]

@[refl] lemma Leads.refl (c : Cursor) : c.Leads c := ⟨[], passes_nil c⟩

lemma Leads.trans (h : c.Leads c') (h' : c'.Leads c'') : c.Leads c'' := by
  obtain ⟨text, h⟩ := h
  obtain ⟨text', h'⟩ := h'
  exact ⟨text ++ text', h.append h'⟩

lemma Leads.length_le (h : c.Leads c') : c'.rest.length ≤ c.rest.length := by
  obtain ⟨text, h⟩ := h
  rw [h.length_rest]
  omega

lemma Leads.offset_le (h : c.Leads c') : c.pos.offset ≤ c'.pos.offset := by
  obtain ⟨text, h⟩ := h
  rw [h.offset]
  omega

lemma Leads.offset_lt (h : c.Leads c') (hlt : c'.rest.length < c.rest.length) :
    c.pos.offset < c'.pos.offset := by
  obtain ⟨text, hpasses⟩ := h
  have hne : text ≠ [] := by
    rintro rfl
    have hlength := hpasses.length_rest
    rw [List.length_nil] at hlength
    omega
  have hpos := Text.byteSize_pos hne
  rw [hpasses.offset]
  omega

lemma passes_drop (c : Cursor) (n : Nat) : c.Passes (c.rest.take n) (c.drop n) :=
  ⟨(List.take_append_drop n c.rest).symm, rfl⟩

lemma passes_next {ch : Char} {rest : List Char} (h : c.rest = ch :: rest) :
    c.Passes [ch] (c.drop 1) := by
  have hpasses := c.passes_drop 1
  rwa [h] at hpasses

lemma passes_takeWhile (c : Cursor) (p : Char → Bool) :
    c.Passes (c.takeWhile p).1 (c.takeWhile p).2 :=
  ⟨List.takeWhile_append_dropWhile.symm, rfl⟩

lemma Reads.passes {source : List Char} (h : c.Reads source) (h' : c.Passes text c') :
    c'.Reads source := by
  obtain ⟨before, hsource, hpos⟩ := h
  obtain ⟨hrest, hpos'⟩ := h'
  exact ⟨before ++ text, by rw [hsource, hrest, List.append_assoc],
    by rw [hpos', hpos, Position.after_append]⟩

lemma Reads.leads {source : List Char} (h : c.Reads source) (h' : c.Leads c') :
    c'.Reads source := by
  obtain ⟨text, h'⟩ := h'
  exact h.passes h'

end Cursor

/-! ## Actions that move forward -/

namespace Scan

variable {α β : Type}

lemma skip_apply (n : Nat) (r : Reader) :
    skip n r = .ok () { r with cursor := r.cursor.drop n } := rfl

lemma takeWhile_apply (p : Char → Bool) (r : Reader) :
    takeWhile p r =
      .ok (r.cursor.takeWhile p).1 { r with cursor := (r.cursor.takeWhile p).2 } := rfl

lemma record_apply (e : Event) (r : Reader) : record e r = .ok () (r.record e) := rfl

lemma tokenFrom_apply (start : Cursor) (kind : TokenKind) (value : TokenValue) (r : Reader) :
    tokenFrom start kind value r =
      .ok ⟨kind, value, r.cursor.spanFrom start.pos, String.ofList (start.textTo r.cursor)⟩ r :=
  rfl

lemma walk_apply (step : Cursor → EStateM.Result Diagnostic Cursor α) (r : Reader) :
    walk step r =
      match step r.cursor with
      | .ok a c => .ok a { r with cursor := c }
      | .error d c => .error d { r with cursor := c } := rfl

lemma walk_eq_ok {step : Cursor → EStateM.Result Diagnostic Cursor α} {r r' : Reader} {a : α}
    (h : walk step r = .ok a r') : step r.cursor = .ok a r'.cursor ∧ r'.journal = r.journal := by
  rw [walk_apply] at h
  cases hstep : step r.cursor with
  | error d c => rw [hstep] at h; cases h
  | ok b c =>
    rw [hstep] at h
    cases h
    exact ⟨rfl, rfl⟩

lemma skipGap_eq_ok {r r' : Reader} (h : skipGap r = .ok () r') :
    gap .blank r.cursor.rest r.cursor.pos = .ok () r'.cursor ∧ r'.journal = r.journal :=
  walk_eq_ok h

/-- An action that, whenever it succeeds, moves forward and adds to the journal. -/
class Forward (m : Scan α) : Prop where
  leads : ∀ {r a r'}, m r = .ok a r' → r.cursor.Leads r'.cursor
  records : ∀ {r a r'}, m r = .ok a r' → r.journal.toList <+: r'.journal.toList

namespace Forward

lemma of_leads {m : Scan α}
    (h : ∀ {r a r'}, m r = .ok a r' → r.cursor.Leads r'.cursor ∧ r'.journal = r.journal) :
    Forward m where
  leads heq := (h heq).1
  records heq := (h heq).2 ▸ List.prefix_rfl

instance (a : α) : Forward (pure a : Scan α) := of_leads fun h => by
  obtain ⟨-, rfl⟩ := pure_eq_ok h
  exact ⟨.refl _, rfl⟩

instance (d : Diagnostic) : Forward (throw d : Scan α) := of_leads fun h => by cases h

instance (m : Scan α) (f : α → Scan β) [Forward m] [∀ a, Forward (f a)] :
    Forward (m >>= f) where
  leads h := by
    obtain ⟨a, r₁, hm, hf⟩ := bind_eq_ok h
    exact (leads hm).trans (leads hf)
  records h := by
    obtain ⟨a, r₁, hm, hf⟩ := bind_eq_ok h
    exact (records hm).trans (records hf)

lemma andThen {m : Scan α} {f : α → Scan β} [Forward m] (h : ∀ a, Forward (f a)) :
    Forward (m >>= f) :=
  inferInstance

instance (c : Prop) [Decidable c] (m n : Scan α) [Forward m] [Forward n] :
    Forward (if c then m else n) := by
  split <;> infer_instance

instance : Forward cursor := of_leads fun h => by
  rw [cursor_apply] at h
  cases h
  exact ⟨.refl _, rfl⟩

instance (n : Nat) : Forward (skip n) := of_leads fun {r _ _} h => by
  rw [skip_apply] at h
  cases h
  exact ⟨⟨_, r.cursor.passes_drop n⟩, rfl⟩

instance (p : Char → Bool) : Forward (takeWhile p) := of_leads fun {r _ _} h => by
  rw [takeWhile_apply] at h
  cases h
  exact ⟨⟨_, r.cursor.passes_takeWhile p⟩, rfl⟩

instance (e : Event) : Forward (record e) where
  leads h := by
    rw [record_apply] at h
    cases h
    rfl
  records {r _ _} h := by
    rw [record_apply] at h
    cases h
    exact ⟨[e], (Array.toList_push ..).symm⟩

instance (code : Code) (span : Span) (message : String) : Forward (warn code span message) := by
  unfold warn
  infer_instance

instance (start : Cursor) (kind : TokenKind) (value : TokenValue) :
    Forward (tokenFrom start kind value) := by
  unfold tokenFrom
  infer_instance

instance : Forward advance := by
  unfold advance
  exact andThen fun here => by split <;> infer_instance

lemma walk {step : Cursor → EStateM.Result Diagnostic Cursor α}
    (h : ∀ {c a c'}, step c = .ok a c' → c.Leads c') : Forward (walk step) :=
  of_leads fun heq => ⟨h (walk_eq_ok heq).1, (walk_eq_ok heq).2⟩

end Forward

/-! ## Gaps, strings and numbers -/

lemma gap_leads {mode : GapMode} {text : List Char} {pos : Position} {c : Cursor}
    (h : gap mode text pos = .ok () c) : (⟨text, pos⟩ : Cursor).Leads c := by
  fun_induction gap mode text pos with
  | case1 pos => cases h; rfl
  | case2 rest pos ih => exact Cursor.Leads.trans ⟨['/', '/'], rfl, rfl⟩ (ih h)
  | case3 rest pos ih => exact Cursor.Leads.trans ⟨['/', '*'], rfl, rfl⟩ (ih h)
  | case4 ch rest pos hline hblock hblank ih =>
    exact Cursor.Leads.trans ⟨[ch], rfl, rfl⟩ (ih h)
  | case5 => cases h; rfl
  | case6 => cases h; rfl
  | case7 ch rest pos ih => exact Cursor.Leads.trans ⟨[ch], rfl, rfl⟩ (ih h)
  | case8 => cases h
  | case9 opened depth rest pos ih => exact Cursor.Leads.trans ⟨['/', '*'], rfl, rfl⟩ (ih h)
  | case10 opened depth rest pos ih => exact Cursor.Leads.trans ⟨['*', '/'], rfl, rfl⟩ (ih h)
  | case11 opened depth ch rest pos hopening hclosing ih =>
    exact Cursor.Leads.trans ⟨[ch], rfl, rfl⟩ (ih h)

lemma gap_error_leads {mode : GapMode} {text : List Char} {pos : Position} {d : Diagnostic}
    {c : Cursor} (h : gap mode text pos = .error d c) : (⟨text, pos⟩ : Cursor).Leads c := by
  fun_induction gap mode text pos with
  | case1 => cases h
  | case2 rest pos ih => exact Cursor.Leads.trans ⟨['/', '/'], rfl, rfl⟩ (ih h)
  | case3 rest pos ih => exact Cursor.Leads.trans ⟨['/', '*'], rfl, rfl⟩ (ih h)
  | case4 ch rest pos hline hblock hblank ih =>
    exact Cursor.Leads.trans ⟨[ch], rfl, rfl⟩ (ih h)
  | case5 => cases h
  | case6 => cases h
  | case7 ch rest pos ih => exact Cursor.Leads.trans ⟨[ch], rfl, rfl⟩ (ih h)
  | case8 => cases h; rfl
  | case9 opened depth rest pos ih => exact Cursor.Leads.trans ⟨['/', '*'], rfl, rfl⟩ (ih h)
  | case10 opened depth rest pos ih => exact Cursor.Leads.trans ⟨['*', '/'], rfl, rfl⟩ (ih h)
  | case11 opened depth ch rest pos hopening hclosing ih =>
    exact Cursor.Leads.trans ⟨[ch], rfl, rfl⟩ (ih h)

lemma stringBody_leads {opened : Position} {text : List Char} {pos : Position}
    {read value : List Char} {c : Cursor} (h : stringBody opened text pos read = .ok value c) :
    (⟨text, pos⟩ : Cursor).Leads c := by
  fun_induction stringBody opened text pos read with
  | case1 => cases h
  | case2 rest pos read => cases h; exact ⟨['"'], rfl, rfl⟩
  | case3 => cases h
  | case4 ch rest pos read behind meaning hmeaning ih =>
    exact Cursor.Leads.trans ⟨['\\', ch], rfl, rfl⟩ (ih h)
  | case5 => cases h
  | case6 ch rest pos read hquote hlast hescape ih =>
    exact Cursor.Leads.trans ⟨[ch], rfl, rfl⟩ (ih h)

lemma stringBody_error_leads {opened : Position} {text : List Char} {pos : Position}
    {read : List Char} {d : Diagnostic} {c : Cursor}
    (h : stringBody opened text pos read = .error d c) : (⟨text, pos⟩ : Cursor).Leads c := by
  fun_induction stringBody opened text pos read with
  | case1 => cases h; rfl
  | case2 => cases h
  | case3 pos read => cases h; exact ⟨['\\'], rfl, rfl⟩
  | case4 ch rest pos read behind meaning hmeaning ih =>
    exact Cursor.Leads.trans ⟨['\\', ch], rfl, rfl⟩ (ih h)
  | case5 ch rest pos read hmeaning => cases h; exact ⟨['\\', ch], rfl, rfl⟩
  | case6 ch rest pos read hquote hlast hescape ih =>
    exact Cursor.Leads.trans ⟨[ch], rfl, rfl⟩ (ih h)

instance : Forward skipGap :=
  Forward.walk gap_leads

instance : Forward stringLiteral := by
  unfold stringLiteral
  have hbody (start : Cursor) :
      Forward (walk fun c => stringBody start.pos c.rest c.pos []) :=
    Forward.walk stringBody_leads
  infer_instance

end Scan

end FrontEnd
