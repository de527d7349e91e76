import FrontEnd.Program
import FrontEnd.Proofs.Spelling
import Mathlib.Data.List.TakeWhile

/-!
# Tokens go as far as they can

Numbers, words, labels and symbols are described as sets of texts, without the scanner. Where the
scanner finds such a token, the token is the longest text of its class that stands there:
`next_longest`. The proof gives for each class the text that the scanner takes (`decimalText`,
`radixText`, `wordText`), shows that no text of the class goes further, and that the scanner passes
exactly that text.
-/

namespace FrontEnd

/-! ## Classes of texts -/

/-- A decimal number: digits, with a point and digits behind them or not, or a point and digits. -/
inductive DecimalNumber : List Char → Prop where
  | whole {ds} (hds : ∀ d ∈ ds, d.isDigit = true) (hne : ds ≠ []) : DecimalNumber ds
  | fraction {ds fs} (hds : ∀ d ∈ ds, d.isDigit = true) (hfs : ∀ d ∈ fs, d.isDigit = true)
    (hne : fs ≠ []) : DecimalNumber (ds ++ '.' :: fs)

/-- The part of a number in another base that follows its letter: digits of the base with or without
a point among them, and at least one digit. -/
inductive RadixDigits (base : Nat) : List Char → Prop where
  | whole {ds} (hds : ∀ d ∈ ds, Text.isDigitOf base d = true) (hne : ds ≠ []) : RadixDigits base ds
  | fraction {ds fs} (hds : ∀ d ∈ ds, Text.isDigitOf base d = true)
    (hfs : ∀ d ∈ fs, Text.isDigitOf base d = true) (hne : ds ≠ [] ∨ fs ≠ []) :
    RadixDigits base (ds ++ '.' :: fs)

/-- A number in another base, with the letter of the base behind a zero. -/
def RadixNumber (text : List Char) : Prop :=
  ∃ letter radix digits, Scan.radix? letter = some radix ∧ RadixDigits radix.base digits ∧
    text = '0' :: letter :: digits

/-- A name: a letter or an underscore, and letters, digits and underscores. -/
def NameText (text : List Char) : Prop :=
  (∃ c ∈ text.head?, Text.isNameStart c = true) ∧ ∀ c ∈ text, Text.isNameChar c = true

instance (text : List Char) : Decidable (NameText text) :=
  decidable_of_iff (text.head?.any Text.isNameStart = true ∧ text.all Text.isNameChar = true)
    (and_congr (Option.any_eq_true _ _) List.all_eq_true)

/-- The texts of a class. -/
def WordClass.Spells : WordClass → List Char → Prop
  | .number, text => DecimalNumber text ∨ RadixNumber text
  | .word, text => NameText text ∨ ∃ name, NameText name ∧ text = name ++ ['!']
  | .label, text => ∃ name, NameText name ∧ text = '#' :: name
  | .symbol, text => (TokenKind.symbol? text).isSome = true

/-- A text begins with a word of a class, and with no longer one. -/
structure Longest (P : List Char → Prop) (text word : List Char) : Prop where
  starts : word <+: text
  spelled : P word
  le : ∀ other, other <+: text → P other → other.length ≤ word.length

/-! ## Runs of characters -/

section Runs

variable {p : Char → Bool} {run : List Char}

lemma length_le_takeWhile {text : List Char} (hrun : ∀ c ∈ run, p c = true) (h : run <+: text) :
    run.length ≤ (text.takeWhile p).length := by
  obtain ⟨behind, rfl⟩ := h
  rw [List.takeWhile_append_of_pos hrun, List.length_append]
  omega

lemma takeWhile_of_stop {c : Char} (hrun : ∀ d ∈ run, p d = true) (hc : p c = false)
    (behind : List Char) :
    (run ++ c :: behind).takeWhile p = run ∧ (run ++ c :: behind).dropWhile p = c :: behind := by
  have hstop : ¬ p c = true := by simp [hc]
  rw [List.takeWhile_append_of_pos hrun, List.dropWhile_append_of_pos hrun,
    List.takeWhile_cons_of_neg hstop, List.dropWhile_cons_of_neg hstop, List.append_nil]
  exact ⟨rfl, rfl⟩

lemma takeWhile_ne_nil {c : Char} {text : List Char} (h : text.head? = some c) (hc : p c = true) :
    text.takeWhile p ≠ [] := by
  obtain ⟨tail, rfl⟩ := List.head?_eq_some_iff.mp h
  rw [List.takeWhile_cons_of_pos hc]
  exact List.cons_ne_nil _ _

end Runs

namespace Scan

/-! ## Decimal numbers -/

/-- The fraction of a decimal number at the start of a text. -/
def decimalTail : List Char → List Char
  | '.' :: c :: text => if c.isDigit then '.' :: (c :: text).takeWhile Char.isDigit else []
  | _ => []

/-- The decimal number at the start of a text. -/
def decimalText (text : List Char) : List Char :=
  text.takeWhile Char.isDigit ++ decimalTail (text.dropWhile Char.isDigit)

lemma decimalNumber_length_le {text word : List Char} (h : DecimalNumber word)
    (hstarts : word <+: text) : word.length ≤ (decimalText text).length := by
  rw [decimalText, List.length_append]
  cases h with
  | whole hds hne =>
    have hle := length_le_takeWhile hds hstarts
    omega
  | @fraction ds fs hds hfs hne =>
    obtain ⟨behind, rfl⟩ := hstarts
    obtain ⟨f, fs, rfl⟩ := List.exists_cons_of_ne_nil hne
    obtain ⟨htake, hdrop⟩ := takeWhile_of_stop hds (by decide : ('.').isDigit = false)
      (f :: fs ++ behind)
    have hf : f.isDigit = true := hfs f (List.mem_cons_self)
    have htail : decimalTail ('.' :: (f :: fs ++ behind)) =
        '.' :: (f :: fs ++ behind).takeWhile Char.isDigit := if_pos hf
    have hle := length_le_takeWhile hfs (List.prefix_append (f :: fs) behind)
    rw [List.append_assoc, List.cons_append, htake, hdrop, htail, List.length_append]
    exact Nat.add_le_add_left (Nat.succ_le_succ hle) _

lemma decimalNumber_decimalText {text : List Char} (h : Shortens.StartsNumber text) :
    DecimalNumber (decimalText text) := by
  have hwhole : ∀ d ∈ text.takeWhile Char.isDigit, d.isDigit = true := fun d hd =>
    List.mem_takeWhile_imp hd
  unfold decimalText
  by_cases htail : decimalTail (text.dropWhile Char.isDigit) = []
  · rw [htail, List.append_nil]
    refine .whole hwhole ?_
    unfold Shortens.StartsNumber at h
    split at h
    · next c rest =>
      -- Behind a point in front there would be a fraction.
      have hfraction : decimalTail ('.' :: c :: rest) ≠ [] := by
        rw [decimalTail, if_pos h]
        exact List.cons_ne_nil _ _
      exact absurd htail hfraction
    · exact takeWhile_ne_nil rfl h
    · exact h.elim
  · unfold decimalTail at htail ⊢
    split at htail
    · next c rest _ =>
      split at htail
      · next hc =>
        rw [if_pos hc]
        exact .fraction hwhole (fun d hd => List.mem_takeWhile_imp hd) (takeWhile_ne_nil rfl hc)
      · exact absurd rfl htail
    · exact absurd rfl htail

lemma takeWhile_run (p : Char → Bool) (r : Reader) :
    ∃ r', takeWhile p r = .ok (r.cursor.rest.takeWhile p) r' ∧
      r.cursor.Passes (r.cursor.rest.takeWhile p) r'.cursor ∧
      r'.cursor.rest = r.cursor.rest.dropWhile p :=
  ⟨_, rfl, r.cursor.passes_takeWhile p, rfl⟩

lemma point_run (p : Char → Bool) {r : Reader} {rest : List Char}
    (hrest : r.cursor.rest = '.' :: rest) :
    ∃ r', (skip 1 >>= fun _ => takeWhile p) r = .ok (rest.takeWhile p) r' ∧
      r.cursor.Passes ('.' :: rest.takeWhile p) r'.cursor := by
  have hbehind : (r.cursor.drop 1).rest = rest := by
    rw [Cursor.drop, hrest]
    rfl
  obtain ⟨r', hrun, hpasses, -⟩ := takeWhile_run p { r with cursor := r.cursor.drop 1 }
  rw [hbehind] at hrun hpasses
  exact ⟨r', hrun, (Cursor.passes_next hrest).append hpasses⟩

lemma decimalFraction_passes {r r' : Reader} {digits : List Char}
    (h : decimalFraction r = .ok digits r') :
    r.cursor.Passes (decimalTail r.cursor.rest) r'.cursor := by
  rw [decimalFraction, cursor_bind] at h
  have hnil := r.cursor.passes_nil
  generalize htext : r.cursor.rest = text at h
  by_cases hpoint : ∃ c rest, text = '.' :: c :: rest
  · obtain ⟨c, rest, rfl⟩ := hpoint
    have h' : (if c.isDigit = true then skip 1 >>= fun _ => takeWhile Char.isDigit else pure [])
        r = .ok digits r' := h
    rw [decimalTail]
    by_cases hc : c.isDigit = true
    · rw [if_pos hc] at h' ⊢
      obtain ⟨r₁, hrun, hpasses⟩ := point_run Char.isDigit htext
      obtain rfl : r₁ = r' := by
        rw [hrun] at h'
        cases h'
        rfl
      exact hpasses
    · rw [if_neg hc] at h' ⊢
      obtain ⟨-, rfl⟩ := pure_eq_ok h'
      exact hnil
  · have htail : decimalTail text = [] := by
      unfold decimalTail
      split
      · next c rest => exact absurd ⟨c, rest, rfl⟩ hpoint
      · rfl
    rw [htail]
    split at h
    · next c rest => exact absurd ⟨c, rest, rfl⟩ hpoint
    · obtain ⟨-, rfl⟩ := pure_eq_ok h
      exact hnil

lemma decimalNumber_passes {start : Cursor} {r r' : Reader} {t : Token}
    (h : decimalNumber start r = .ok t r') :
    r.cursor.Passes (decimalText r.cursor.rest) r'.cursor := by
  rw [decimalNumber, bind_apply, takeWhile_apply] at h
  obtain ⟨fraction, r₂, hfraction, hmade⟩ := bind_eq_ok h
  rw [tokenFrom_apply] at hmade
  cases hmade
  exact (r.cursor.passes_takeWhile Char.isDigit).append (decimalFraction_passes hfraction)

/-! ## Numbers in other bases -/

/-- The point at the start of a text, and the digits of a base behind it. -/
def radixTail (base : Nat) : List Char → List Char
  | '.' :: text => '.' :: text.takeWhile (Text.isDigitOf base)
  | _ => []

/-- The digits of a base at the start of a text, and the fraction behind them. -/
def radixText (base : Nat) (text : List Char) : List Char :=
  text.takeWhile (Text.isDigitOf base) ++ radixTail base (text.dropWhile (Text.isDigitOf base))

lemma isDigitOf_point (base : Nat) : Text.isDigitOf base '.' = false := rfl

lemma radixDigits_length_le {base : Nat} {text word : List Char} (h : RadixDigits base word)
    (hstarts : word <+: text) : word.length ≤ (radixText base text).length := by
  rw [radixText, List.length_append]
  cases h with
  | whole hds hne =>
    have hle := length_le_takeWhile hds hstarts
    omega
  | @fraction ds fs hds hfs hne =>
    obtain ⟨behind, rfl⟩ := hstarts
    obtain ⟨htake, hdrop⟩ := takeWhile_of_stop hds (isDigitOf_point base) (fs ++ behind)
    rw [List.append_assoc, List.cons_append, htake, hdrop, radixTail, List.length_append,
      List.length_cons, List.length_cons]
    have hle := length_le_takeWhile hfs (List.prefix_append fs behind)
    omega

lemma radixFraction_run (radix : Radix) (r : Reader) :
    ∃ r', radixFraction radix r = .ok (radixTail radix.base r.cursor.rest).tail r' ∧
      r.cursor.Passes (radixTail radix.base r.cursor.rest) r'.cursor := by
  rw [radixFraction, cursor_bind, Cursor.peek?]
  by_cases hpoint : r.cursor.rest.head? = some '.'
  · obtain ⟨rest, hrest⟩ := List.head?_eq_some_iff.mp hpoint
    rw [if_pos hpoint, hrest]
    exact point_run _ hrest
  · have htail : radixTail radix.base r.cursor.rest = [] := by
      unfold radixTail
      split
      · next rest hrest => exact absurd (by rw [hrest]; rfl) hpoint
      · rfl
    rw [if_neg hpoint, htail]
    exact ⟨r, rfl, r.cursor.passes_nil⟩

lemma radixTail_cases (base : Nat) (text : List Char) :
    radixTail base text = [] ∨
      ∃ rest, text = '.' :: rest ∧
        radixTail base text = '.' :: rest.takeWhile (Text.isDigitOf base) := by
  unfold radixTail
  split
  · next rest => exact .inr ⟨rest, rfl, rfl⟩
  · exact .inl rfl

lemma radixDigits_radixText {base : Nat} {text : List Char}
    (h : text.takeWhile (Text.isDigitOf base) ≠ [] ∨
      (radixTail base (text.dropWhile (Text.isDigitOf base))).tail ≠ []) :
    RadixDigits base (radixText base text) := by
  have hwhole : ∀ d ∈ text.takeWhile (Text.isDigitOf base), Text.isDigitOf base d = true :=
    fun d hd => List.mem_takeWhile_imp hd
  unfold radixText
  obtain hnone | ⟨rest, -, htail⟩ :=
    radixTail_cases base (text.dropWhile (Text.isDigitOf base))
  · rw [hnone] at h ⊢
    have hne : text.takeWhile (Text.isDigitOf base) ≠ [] := h.resolve_right fun h => h rfl
    rw [List.append_nil]
    exact .whole hwhole hne
  · rw [htail] at h ⊢
    exact .fraction hwhole (fun d hd => List.mem_takeWhile_imp hd) h

lemma not_radixDigits {base : Nat} {text word : List Char}
    (hwhole : text.takeWhile (Text.isDigitOf base) = [])
    (htail : (radixTail base (text.dropWhile (Text.isDigitOf base))).tail = [])
    (hstarts : word <+: text) : ¬ RadixDigits base word := by
  intro h
  cases h with
  | whole hds hne =>
    have hle := length_le_takeWhile hds hstarts
    rw [hwhole] at hle
    exact hne (List.eq_nil_of_length_eq_zero (Nat.le_zero.mp hle))
  | @fraction ds fs hds hfs hne =>
    obtain ⟨behind, rfl⟩ := hstarts
    obtain ⟨htake, hdrop⟩ := takeWhile_of_stop hds (isDigitOf_point base) (fs ++ behind)
    rw [List.append_assoc, List.cons_append] at hwhole htail
    have hle := length_le_takeWhile hfs (List.prefix_append fs behind)
    have hnil : (fs ++ behind).takeWhile (Text.isDigitOf base) = [] := by
      rw [hdrop] at htail
      exact htail
    rw [hnil] at hle
    have hds : ds = [] := htake.symm.trans hwhole
    have hfs : fs = [] := List.eq_nil_of_length_eq_zero (Nat.le_zero.mp hle)
    exact hne.elim (fun h => h hds) fun h => h hfs

/-- Either there is a number in the base, which the reader passes, or there is none, and the reader
fails with the code of the base. -/
lemma radixDigits_run (start : Cursor) (radix : Radix) (r : Reader) :
    (RadixDigits radix.base (radixText radix.base r.cursor.rest) ∧
      ∃ t r', radixDigits start radix r = .ok t r' ∧
        r.cursor.Passes (radixText radix.base r.cursor.rest) r'.cursor) ∨
    ((∀ word, word <+: r.cursor.rest → ¬ RadixDigits radix.base word) ∧
      ∃ d r', radixDigits start radix r = .error d r' ∧ d.code = radix.emptyCode) := by
  obtain ⟨r₁, hwhole, hfirst, hbehind⟩ := takeWhile_run (Text.isDigitOf radix.base) r
  obtain ⟨r₂, hfraction, hsecond⟩ := radixFraction_run radix r₁
  rw [hbehind] at hfraction hsecond
  have hpasses : r.cursor.Passes (radixText radix.base r.cursor.rest) r₂.cursor :=
    hfirst.append hsecond
  have hrun : radixDigits start radix r =
      (if (r.cursor.rest.takeWhile (Text.isDigitOf radix.base)).isEmpty &&
          (radixTail radix.base
            (r.cursor.rest.dropWhile (Text.isDigitOf radix.base))).tail.isEmpty then do
        throw (noDigits radix ((← cursor).spanFrom start.pos))
      else tokenFrom start .numberLiteral (.number (digitsValue radix.base
        (r.cursor.rest.takeWhile (Text.isDigitOf radix.base))
        (radixTail radix.base
          (r.cursor.rest.dropWhile (Text.isDigitOf radix.base))).tail))) r₂ := by
    rw [radixDigits, bind_apply, hwhole]
    dsimp only
    rw [bind_apply, hfraction]
  rw [hrun]
  split
  · next hempty =>
    rw [Bool.and_eq_true, List.isEmpty_iff, List.isEmpty_iff] at hempty
    exact .inr ⟨fun word hstarts => not_radixDigits hempty.1 hempty.2 hstarts,
      _, r₂, rfl, rfl⟩
  · next hempty =>
    rw [Bool.and_eq_true, List.isEmpty_iff, List.isEmpty_iff, not_and_or] at hempty
    exact .inl ⟨radixDigits_radixText hempty, _, r₂, rfl, hpasses⟩

lemma radixNumber_of_radixDigits {letter : Char} {radix : Radix} {digits : List Char}
    (hletter : radix? letter = some radix) (h : RadixDigits radix.base digits) :
    RadixNumber ('0' :: letter :: digits) :=
  ⟨letter, radix, digits, hletter, h, rfl⟩

lemma head_radixDigits {base : Nat} {text : List Char} (h : RadixDigits base text) :
    ∃ c rest, text = c :: rest ∧ (c = '.' || Text.isDigitOf base c) = true := by
  cases h with
  | whole hds hne =>
    obtain ⟨d, ds, rfl⟩ := List.exists_cons_of_ne_nil hne
    exact ⟨d, ds, rfl, by rw [hds d List.mem_cons_self, Bool.or_true]⟩
  | @fraction ds fs hds hfs hne =>
    cases ds with
    | nil => exact ⟨'.', fs, rfl, rfl⟩
    | cons d ds => exact ⟨d, ds ++ '.' :: fs, rfl, by rw [hds d List.mem_cons_self, Bool.or_true]⟩

/-- After the letter of a base there is a number in the base, or the reader fails: with the code of
the base, or at the end of the source as there. -/
lemma radixNumber_run (start : Cursor) (radix : Radix) {r : Reader} {letter : Char}
    {text : List Char} (hrest : r.cursor.rest = '0' :: letter :: text) :
    (RadixDigits radix.base (radixText radix.base text) ∧
      ∃ t r', radixNumber start radix r = .ok t r' ∧
        r.cursor.Passes ('0' :: letter :: radixText radix.base text) r'.cursor) ∨
    ((∀ word, word <+: text → ¬ RadixDigits radix.base word) ∧
      ∃ d r', radixNumber start radix r = .error d r' ∧
        d.code = if text = [] then .unexpectedEof else radix.emptyCode) := by
  have hskip : r.cursor.Passes ['0', letter] (r.cursor.drop 2) := by
    have hdrop := r.cursor.passes_drop 2
    rwa [hrest] at hdrop
  have hbehind : (r.cursor.drop 2).rest = text := by
    rw [Cursor.drop, hrest]
    rfl
  rw [radixNumber, bind_apply, skip_apply]
  dsimp only
  rw [cursor_bind, Cursor.peek?]
  dsimp only
  rw [hbehind]
  cases text with
  | nil =>
    refine .inr ⟨fun word hstarts h => ?_, _, _, rfl, rfl⟩
    obtain ⟨c, rest, rfl, -⟩ := head_radixDigits h
    exact absurd hstarts.length_le (by simp)
  | cons c text =>
    dsimp only [List.head?_cons]
    rw [if_neg (List.cons_ne_nil c text)]
    by_cases hc : (c = '.' || Text.isDigitOf radix.base c) = true
    · rw [if_pos hc]
      have hrun := radixDigits_run start radix { r with cursor := r.cursor.drop 2 }
      dsimp only at hrun
      rw [hbehind] at hrun
      refine hrun.imp_left ?_
      rintro ⟨hdigits, t, r', hok, hpasses⟩
      exact ⟨hdigits, t, r', hok, hskip.append hpasses⟩
    · rw [if_neg hc]
      refine .inr ⟨fun word hstarts h => ?_, _, _, rfl, rfl⟩
      obtain ⟨d, rest, rfl, hd⟩ := head_radixDigits h
      obtain ⟨behind, hcons⟩ := hstarts
      cases hcons
      exact hc hd

/-! ## Numbers -/

/-- A text begins with the zero and the letter of another base. -/
def StartsRadix (text : List Char) : Prop :=
  ∃ letter radix rest, radix? letter = some radix ∧ text = '0' :: letter :: rest

lemma decimalText_radix {letter : Char} {radix : Radix} (hletter : radix? letter = some radix)
    (text : List Char) : decimalText ('0' :: letter :: text) = ['0'] := by
  unfold radix? at hletter
  split at hletter <;> cases hletter <;> rfl

lemma longest_of_passes {P : List Char → Prop} {c c' : Cursor} {text : List Char}
    (hpasses : c.Passes text c') (hspelled : P text)
    (hle : ∀ other, other <+: c.rest → P other → other.length ≤ text.length) :
    Longest P c.rest text :=
  ⟨hpasses.1 ▸ List.prefix_append text c'.rest, hspelled, hle⟩

lemma decimalNumber_longest {start : Cursor} {r r' : Reader} {t : Token}
    (hdigit : Shortens.StartsNumber r.cursor.rest) (hradix : ¬ StartsRadix r.cursor.rest)
    (h : decimalNumber start r = .ok t r') :
    ∃ text, r.cursor.Passes text r'.cursor ∧
      Longest WordClass.number.Spells r.cursor.rest text := by
  have hpasses := decimalNumber_passes h
  refine ⟨_, hpasses, longest_of_passes hpasses (.inl (decimalNumber_decimalText hdigit)) ?_⟩
  rintro other hstarts (hdecimal | ⟨letter, radix, digits, hletter, -, rfl⟩)
  · exact decimalNumber_length_le hdecimal hstarts
  · obtain ⟨behind, htext⟩ := hstarts
    exact absurd ⟨letter, radix, digits ++ behind, hletter, htext.symm⟩ hradix

lemma radixNumber_longest {start : Cursor} {r r' : Reader} {t : Token} {letter : Char}
    {radix : Radix} {text : List Char} (hrest : r.cursor.rest = '0' :: letter :: text)
    (hletter : radix? letter = some radix) (h : radixNumber start radix r = .ok t r') :
    ∃ text, r.cursor.Passes text r'.cursor ∧
      Longest WordClass.number.Spells r.cursor.rest text := by
  obtain ⟨hdigits, u, r₁, hrun, hpasses⟩ | ⟨-, d, r₁, hrun, -⟩ :=
    radixNumber_run start radix hrest
  · rw [hrun] at h
    cases h
    have hspells := radixNumber_of_radixDigits hletter hdigits
    refine ⟨_, hpasses, longest_of_passes hpasses (.inr hspells) ?_⟩
    rw [hrest]
    rintro other hstarts (hdecimal | ⟨letter', radix', digits, hletter', hdigits', rfl⟩)
    · have hle := decimalNumber_length_le hdecimal hstarts
      rw [decimalText_radix hletter, List.length_singleton] at hle
      rw [List.length_cons]
      omega
    · obtain ⟨behind, htext⟩ := hstarts
      obtain ⟨-, rfl, rfl⟩ : '0' = '0' ∧ letter' = letter ∧ digits ++ behind = text := by
        simpa using htext
      obtain rfl : radix' = radix := Option.some.inj (hletter'.symm.trans hletter)
      have hle := radixDigits_length_le hdigits' (List.prefix_append digits behind)
      simpa using hle
  · rw [hrun] at h
    cases h

lemma number_of_radix {r : Reader} {letter : Char} {radix : Radix} {text : List Char}
    (hrest : r.cursor.rest = '0' :: letter :: text) (hletter : radix? letter = some radix) :
    number r = radixNumber r.cursor radix r := by
  rw [number, cursor_bind, hrest]
  simp only [hletter]

lemma number_of_decimal {r : Reader} (h : ¬ StartsRadix r.cursor.rest) :
    ∃ r₁, r₁.cursor = r.cursor ∧ number r = decimalNumber r.cursor r₁ := by
  rw [number, cursor_bind]
  generalize r.cursor.rest = text at h
  split
  · next c rest =>
    cases hletter : radix? c with
    | some radix => exact absurd ⟨c, radix, rest, hletter, rfl⟩ h
    | none =>
      dsimp only
      split
      · exact ⟨r.record (.warning (Diagnostic.warning .lexer .leadingZero r.cursor.spanOfNext
          "Leading zero in number literal")), rfl, rfl⟩
      · exact ⟨r, rfl, rfl⟩
  · exact ⟨r, rfl, rfl⟩

lemma number_longest {r r' : Reader} {t : Token} (hdigit : Shortens.StartsNumber r.cursor.rest)
    (h : number r = .ok t r') :
    ∃ text, r.cursor.Passes text r'.cursor ∧
      Longest WordClass.number.Spells r.cursor.rest text := by
  by_cases hradix : StartsRadix r.cursor.rest
  · obtain ⟨letter, radix, text, hletter, hrest⟩ := hradix
    rw [number_of_radix hrest hletter] at h
    exact radixNumber_longest hrest hletter h
  · obtain ⟨r₁, hcursor, hnumber⟩ := number_of_decimal hradix
    rw [hnumber] at h
    have hlongest := decimalNumber_longest (hcursor.symm ▸ hdigit) (hcursor.symm ▸ hradix) h
    rwa [hcursor] at hlongest

/-! ## Words and labels -/

/-- The word at the start of a text. -/
def wordText (text : List Char) : List Char :=
  text.takeWhile Text.isNameChar ++
    if (text.dropWhile Text.isNameChar).head? = some '!' then ['!'] else []

lemma nameText_takeWhile {text : List Char} (h : ∃ c ∈ text.head?, Text.isNameStart c = true) :
    NameText (text.takeWhile Text.isNameChar) := by
  obtain ⟨c, hhead, hc⟩ := h
  obtain ⟨rest, rfl⟩ := List.head?_eq_some_iff.mp hhead
  refine ⟨⟨c, ?_, hc⟩, fun d hd => List.mem_takeWhile_imp hd⟩
  rw [List.takeWhile_cons_of_pos (Shortens.isNameChar_of_isNameStart hc)]
  rfl

lemma word_length_le {text other : List Char} (h : WordClass.word.Spells other)
    (hstarts : other <+: text) : other.length ≤ (wordText text).length := by
  rw [wordText, List.length_append]
  obtain hname | ⟨name, hname, rfl⟩ := h
  · have hle := length_le_takeWhile hname.2 hstarts
    omega
  · obtain ⟨behind, rfl⟩ := hstarts
    obtain ⟨htake, hdrop⟩ := takeWhile_of_stop hname.2
      (by decide : Text.isNameChar '!' = false) behind
    rw [List.append_assoc, List.singleton_append, htake, hdrop, List.head?_cons, if_pos rfl,
      List.length_append]

lemma word_longest {r r' : Reader} {t : Token}
    (hstart : ∃ c ∈ r.cursor.rest.head?, Text.isNameStart c = true) (h : word r = .ok t r') :
    ∃ text, r.cursor.Passes text r'.cursor ∧
      Longest WordClass.word.Spells r.cursor.rest text := by
  have hname := nameText_takeWhile hstart
  obtain ⟨r₁, hrun, hfirst, hbehind⟩ := takeWhile_run Text.isNameChar r
  rw [word, cursor_bind, bind_apply, hrun] at h
  dsimp only at h
  rw [cursor_bind, Cursor.peek?, hbehind] at h
  have hpasses : r.cursor.Passes (wordText r.cursor.rest) r'.cursor ∧
      WordClass.word.Spells (wordText r.cursor.rest) := by
    unfold wordText
    by_cases hbang : (r.cursor.rest.dropWhile Text.isNameChar).head? = some '!'
    · rw [if_pos hbang] at h ⊢
      obtain ⟨rest, hrest⟩ := List.head?_eq_some_iff.mp hbang
      rw [bind_apply, skip_apply] at h
      cases h
      exact ⟨hfirst.append (Cursor.passes_next (hbehind.trans hrest)), .inr ⟨_, hname, rfl⟩⟩
    · rw [if_neg hbang] at h ⊢
      cases h
      rw [List.append_nil]
      exact ⟨hfirst, .inl hname⟩
  exact ⟨_, hpasses.1, longest_of_passes hpasses.1 hpasses.2 fun other hstarts hother =>
    word_length_le hother hstarts⟩

lemma label_longest {r r' : Reader} {t : Token} {text : List Char}
    (hrest : r.cursor.rest = '#' :: text) (h : label r = .ok t r') :
    ∃ text, r.cursor.Passes text r'.cursor ∧
      Longest WordClass.label.Spells r.cursor.rest text := by
  have hbehind : (r.cursor.drop 1).rest = text := by
    rw [Cursor.drop, hrest]
    rfl
  obtain ⟨r₁, hrun, hname, -⟩ :=
    takeWhile_run Text.isNameChar { r with cursor := r.cursor.drop 1 }
  rw [label, cursor_bind, bind_apply, skip_apply] at h
  dsimp only at h hname hrun
  rw [bind_apply, hrun] at h
  rw [hbehind] at h hname
  have hpasses : r.cursor.Passes ('#' :: text.takeWhile Text.isNameChar) r₁.cursor :=
    (Cursor.passes_next hrest).append hname
  have hmade : r₁ = r' ∧ ∃ c ∈ text.head?, Text.isNameStart c = true := by
    cases htake : text.takeWhile Text.isNameChar with
    | nil =>
      rw [htake] at h
      cases h
    | cons c name =>
      rw [htake] at h
      dsimp only at h
      have hhead : text.head? = some c := by
        have hprefix := List.takeWhile_prefix Text.isNameChar (l := text)
        obtain ⟨behind, htext⟩ := hprefix
        rw [htake] at htext
        rw [← htext]
        rfl
      by_cases hc : Text.isNameStart c = true
      · rw [if_pos hc] at h
        cases h
        exact ⟨rfl, c, hhead, hc⟩
      · rw [if_neg hc] at h
        cases h
  obtain ⟨rfl, hstart⟩ := hmade
  refine ⟨_, hpasses, longest_of_passes hpasses ⟨_, nameText_takeWhile hstart, rfl⟩ ?_⟩
  rintro other hstarts ⟨name, hother, rfl⟩
  rw [hrest, List.cons_prefix_cons] at hstarts
  exact Nat.succ_le_succ (length_le_takeWhile hother.2 hstarts.2)

/-! ## Symbols -/

lemma symbol?_of_append {text more : List Char} (hne : text ≠ [])
    (h : (TokenKind.symbol? (text ++ more)).isSome = true) :
    (TokenKind.symbol? text).isSome = true := by
  obtain ⟨kind, hkind⟩ := Option.isSome_iff_exists.mp h
  have hentry := Makes.symbol?_eq_some hkind
  have hlength := hentry.short
  obtain ⟨c, tail, rfl⟩ := List.exists_cons_of_ne_nil hne
  cases tail with
  | nil => exact hentry.head c rfl
  | cons d tail =>
    have hmore : more = [] := by
      rw [List.length_append, List.length_cons, List.length_cons] at hlength
      exact List.eq_nil_of_length_eq_zero (by omega)
    rwa [hmore, List.append_nil] at h

lemma length_le_longestSymbol_of_prefix (kind : TokenKind) {text rest more : List Char}
    (hne : text ≠ []) (hstarts : more <+: rest)
    (h : (TokenKind.symbol? (text ++ more)).isSome = true) :
    (text ++ more).length ≤ (longestSymbol kind text rest).2 := by
  fun_induction longestSymbol kind text rest generalizing more with
  | case1 =>
    rw [List.prefix_nil.mp hstarts, List.append_nil]
  | case2 kind text c rest longer hlonger ih =>
    cases more with
    | nil =>
      rw [List.append_nil]
      exact Nat.le_trans (by simp) (Shortens.length_le_longestSymbol longer (text ++ [c]) rest)
    | cons d more =>
      obtain ⟨rfl, hmore⟩ := List.cons_prefix_cons.mp hstarts
      have hle := ih (by simp) hmore (by simpa using h)
      simpa using hle
  | case3 kind text c rest hnone =>
    cases more with
    | nil => rw [List.append_nil]
    | cons d more =>
      obtain ⟨rfl, -⟩ := List.cons_prefix_cons.mp hstarts
      have hsome : (TokenKind.symbol? (text ++ [d])).isSome = true :=
        symbol?_of_append (by simp) (by simpa using h)
      rw [hnone] at hsome
      cases hsome

lemma symbol_longest {r r' : Reader} {t : Token} {first : Char} {text : List Char}
    (hrest : r.cursor.rest = first :: text) (h : symbol first r = .ok t r') :
    ∃ text, r.cursor.Passes text r'.cursor ∧
      Longest WordClass.symbol.Spells r.cursor.rest text := by
  rw [symbol, cursor_bind] at h
  cases hkind : TokenKind.symbol? [first] with
  | none => rw [hkind] at h; cases h
  | some kind =>
    rw [hkind, hrest] at h
    dsimp only [List.drop_one, List.tail_cons] at h
    rw [bind_apply, skip_apply] at h
    cases h
    have hpasses := r.cursor.passes_drop (longestSymbol kind [first] text).2
    obtain ⟨n, hn, hlength, hspells⟩ := longestSymbol_spells text hkind
    have htake : r.cursor.rest.take (longestSymbol kind [first] text).2 =
        [first] ++ text.take n := by
      rw [hlength, hrest, List.length_singleton, Nat.add_comm, List.take_succ_cons]
      rfl
    rw [htake] at hpasses
    have hsymbol : WordClass.symbol.Spells ([first] ++ text.take n) :=
      Option.isSome_iff_exists.mpr ⟨_, hspells⟩
    refine ⟨_, hpasses, longest_of_passes hpasses hsymbol fun other hstarts hother => ?_⟩
    have hspelled : (TokenKind.symbol? other).isSome = true := hother
    rw [hrest] at hstarts
    cases other with
    | nil => simp
    | cons c more =>
      obtain ⟨rfl, hmore⟩ := List.cons_prefix_cons.mp hstarts
      have hle := length_le_longestSymbol_of_prefix kind (List.cons_ne_nil c []) hmore hspelled
      rw [hlength] at hle
      rw [List.length_append, List.length_take_of_le hn]
      exact hle

/-! ## The next token -/

lemma startsNumber {c : Char} {text : List Char}
    (h : c.isDigit = true ∨ c = '.' ∧ text.head?.any Char.isDigit = true) :
    Shortens.StartsNumber (c :: text) := by
  unfold Shortens.StartsNumber
  split
  · next d rest heq =>
    cases heq
    exact h.resolve_left (by decide) |>.2
  · next d rest hpoint heq =>
    cases heq
    refine h.resolve_right ?_
    rintro ⟨rfl, hany⟩
    cases text with
    | nil => cases hany
    | cons d text => exact hpoint d text rfl rfl
  · next heq => cases heq

/-- A token of a class is the longest text of the class at its place. -/
lemma tokenHere_longest {embedded : Option (Scan Expr)} {r r' : Reader} {t : Token}
    {cls : WordClass} (h : tokenHere embedded r = .ok t r') (hcls : t.kind.wordClass? = some cls) :
    Longest cls.Spells r.cursor.rest t.lexeme.toList := by
  have hclass {c : WordClass} {m : Scan Token} (hm : OfClass (some c) m) (hrun : m r = .ok t r') :
      c = cls :=
    Option.some.inj ((hm.wordClass?_eq hrun).symm.trans hcls)
  have hquoted {m : Scan Token} (hm : OfClass none m) (hrun : m r = .ok t r') : False := by
    rw [hm.wordClass?_eq hrun] at hcls
    cases hcls
  cases hrest : r.cursor.rest with
  | nil =>
    rw [tokenHere_at_end embedded hrest] at h
    cases h
    cases hcls
  | cons c text =>
    have hne : r.cursor.rest ≠ [] := by
      rw [hrest]
      exact List.cons_ne_nil c text
    obtain ⟨-, hlexeme, -⟩ := (Makes.tokenHere embedded hne).made h
    have hlongest : ∃ text, r.cursor.Passes text r'.cursor ∧
        Longest cls.Spells r.cursor.rest text := by
      rw [tokenHere_of_cons hrest, tokenAt] at h
      split at h
      · exact (hquoted OfClass.stringLiteral h).elim
      split at h
      · exact (hquoted (OfClass.templateLiteral embedded) h).elim
      split at h
      · exact (hquoted OfClass.charLiteral h).elim
      split at h
      · next hlabel =>
        obtain rfl := hclass OfClass.label h
        exact label_longest (hlabel ▸ hrest) h
      split at h
      · next hnumber =>
        obtain rfl := hclass OfClass.number h
        exact number_longest (hrest ▸ startsNumber hnumber) h
      split at h
      · next hword =>
        obtain rfl := hclass OfClass.word h
        exact word_longest ⟨c, by rw [hrest]; rfl, hword⟩ h
      · obtain rfl := hclass (OfClass.symbol c) h
        exact symbol_longest hrest h
    obtain ⟨word, hpasses, hword⟩ := hlongest
    rw [hlexeme, hpasses.textTo, String.toList_ofList, ← hrest]
    exact hword

lemma tokenHere_no_radix (embedded : Option (Scan Expr)) {r : Reader} {letter : Char}
    {radix : Radix} {text : List Char} (hrest : r.cursor.rest = '0' :: letter :: text)
    (hletter : radix? letter = some radix)
    (hnone : ∀ word, word <+: r.cursor.rest → ¬ RadixNumber word) :
    ∃ d r', tokenHere embedded r = .error d r' ∧
      d.code = if text = [] then .unexpectedEof else radix.emptyCode := by
  have hnumber : tokenHere embedded r = radixNumber r.cursor radix r := by
    rw [tokenHere_of_cons hrest]
    exact number_of_radix hrest hletter
  rw [hnumber]
  obtain ⟨hdigits, t, r', -, hpasses⟩ | ⟨-, herror⟩ := radixNumber_run r.cursor radix hrest
  · have hstarts : '0' :: letter :: radixText radix.base text <+: r.cursor.rest := by
      rw [hpasses.1]
      exact List.prefix_append _ _
    exact absurd (radixNumber_of_radixDigits hletter hdigits) (hnone _ hstarts)
  · exact herror

end Scan

/-- Maximal munch: wherever a number, a word, a label or a symbol is found behind a gap, it is the
longest text of its class there. Where a number in another base is begun and there is none, the
failure has the code of the base, or that of a source which ends behind the letter. -/
theorem next_longest (k : Tokenizer) :
    (∀ t cls, k.next.1 = .ok t → t.kind.wordClass? = some cls →
      ∃ r, Scan.skipGap k.reader = .ok () r ∧
        Longest cls.Spells r.cursor.rest t.lexeme.toList) ∧
    ∀ r letter radix text, k.raw = false → Scan.skipGap k.reader = .ok () r →
      r.cursor.rest = '0' :: letter :: text → Scan.radix? letter = some radix →
      (∀ word, word <+: r.cursor.rest → ¬ RadixNumber word) →
      ∃ d, k.next.1 = .error d ∧
        d.code = if text = [] then .unexpectedEof else radix.emptyCode := by
  refine ⟨fun t cls hnext hcls => ?_, fun r letter radix text hraw hgap hrest hletter hnone => ?_⟩
  · rw [Tokenizer.next, Tokenizer.run] at hnext
    split at hnext
    · next u r' hrun =>
      cases hnext
      by_cases hraw : k.raw = true
      · rw [if_pos hraw] at hrun
        rw [Scan.OfClass.rawToken.wordClass?_eq hrun] at hcls
        cases hcls
      · rw [if_neg hraw, Scan.token] at hrun
        obtain ⟨_, r, hgap, hhere⟩ := Scan.bind_eq_ok hrun
        exact ⟨r, hgap, Scan.tokenHere_longest hhere hcls⟩
    · cases hnext
  · obtain ⟨d, r', hhere, hcode⟩ := Scan.tokenHere_no_radix k.embedded hrest hletter hnone
    refine ⟨d, ?_, hcode⟩
    have hrun : Scan.token k.embedded k.reader = .error d r' := by
      rw [Scan.token, Scan.bind_apply, hgap]
      exact hhere
    rw [Tokenizer.next, Tokenizer.run, hraw, if_neg Bool.false_ne_true, hrun]

/-- A hexadecimal number with a fraction in front of another point, and a binary number without
digits. -/
theorem next_longest_hexadecimal :
    (∃ t r, (Tokenizer.ofText " /**/ 0x1F.8.9".toList true).next.1 = .ok t ∧
      Scan.skipGap (Reader.ofText " /**/ 0x1F.8.9".toList) = .ok () r ∧
      Longest WordClass.number.Spells r.cursor.rest t.lexeme.toList) ∧
    ∃ d, (Tokenizer.ofText "0b2".toList true).next.1 = .error d ∧ d.code = .emptyBinaryLiteral := by
  have hclass : (Tokenizer.ofText " /**/ 0x1F.8.9".toList true).next.1.toOption.map
      (·.kind.wordClass?) = some (some .number) := by decide +kernel
  obtain ⟨t, hoption, hcls⟩ := Option.map_eq_some_iff.mp hclass
  have hnext : (Tokenizer.ofText " /**/ 0x1F.8.9".toList true).next.1 = .ok t := by
    cases hcases : (Tokenizer.ofText " /**/ 0x1F.8.9".toList true).next.1 with
    | error d => rw [hcases] at hoption; cases hoption
    | ok u => rw [hcases] at hoption; cases hoption; rfl
  refine ⟨?_, ?_⟩
  · obtain ⟨r, hgap, hlongest⟩ := (next_longest _).1 t .number hnext hcls
    exact ⟨t, r, hnext, hgap, hlongest⟩
  · refine (next_longest (Tokenizer.ofText "0b2".toList true)).2 _ 'b'
      ⟨2, .emptyBinaryLiteral, "Binary"⟩ ['2'] rfl rfl rfl rfl ?_
    rintro word ⟨behind, hstarts⟩ ⟨letter, radix, digits, hletter, hdigits, rfl⟩
    obtain ⟨c, rest, rfl, hc⟩ := Scan.head_radixDigits hdigits
    have htext : '0' :: letter :: c :: (rest ++ behind) = ['0', 'b', '2'] := hstarts
    obtain ⟨rfl, rfl, -⟩ : letter = 'b' ∧ c = '2' ∧ rest ++ behind = [] := by
      simpa only [List.cons.injEq, true_and] using htext
    obtain rfl : (⟨2, .emptyBinaryLiteral, "Binary"⟩ : Scan.Radix) = radix :=
      Option.some.inj hletter
    exact absurd hc (by decide)

end FrontEnd
