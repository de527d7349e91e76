import FrontEnd.Proofs.LocalScan
import FrontEnd.Proofs.LongestMatch

/-!
# Tokens are local

Each reader of tokens finds the same token in two readings of a text. A template string is found
the same if the expressions in it are.
-/

namespace FrontEnd.Scene

variable {S : Scene} {r r' : Reader} {α : Type}

lemma Twins.cons_of_shortens {m : Scan α} {a : α} {r₁ : Reader} (h : S.Twins r r')
    (hshortens : r.cursor.rest ≠ [] → Scan.Shortens r m) (hne : r.cursor.rest ≠ [])
    (hrun : m r = .ok a r₁) (hlength : S.tail.length ≤ r₁.cursor.rest.length) :
    ∃ c z, r.cursor.rest = c :: z ++ S.tail ∧ r'.cursor.rest = c :: z ++ S.tail' := by
  obtain ⟨z, hz, hz'⟩ := h.text
  have hlt := hshortens hne a r₁ hrun
  cases z with
  | nil =>
    rw [hz] at hlt
    exact absurd hlength (Nat.not_le_of_lt hlt)
  | cons c z => exact ⟨c, z, hz, hz'⟩

namespace Local

/-- A choice by the next character: where that stands in the tail on the left, the reading must not
go on with it. -/
lemma ite_peek {d : Char} {m m' n n' : Scan α} {R : α → α → Prop} (h : S.Twins r r')
    (hd : d ∉ separators) (hshortens : r.cursor.rest ≠ [] → Scan.Shortens r m)
    (hm : r.cursor.rest ≠ [] → S.Local m m' r r' R) (hn : S.Local n n' r r' R) :
    S.Local (if r.cursor.peek? = some d then m else n)
      (if r'.cursor.peek? = some d then m' else n') r r' R := by
  obtain ⟨z, hz, hz'⟩ := h.text
  have hne (hpeek : r.cursor.peek? = some d) : r.cursor.rest ≠ [] := by
    intro hnil
    rw [Cursor.peek?, hnil] at hpeek
    cases hpeek
  refine ite_ahead (fun hpeek' => ?_) (fun hpeek hpeek' a r₁ hrun => ?_)
    (fun hpeek => hm (hne hpeek)) fun _ => hn
  · rw [Cursor.peek?, hz'] at hpeek'
    rw [Cursor.peek?, hz]
    cases z with
    | nil => exact absurd hpeek' (S.neutral'.head_ne hd)
    | cons c z => exact hpeek'
  · have hlt := hshortens (hne hpeek) a r₁ hrun
    rw [Cursor.peek?, hz] at hpeek
    rw [Cursor.peek?, hz'] at hpeek'
    cases z with
    | nil => rwa [hz] at hlt
    | cons c z => exact absurd hpeek hpeek'

/-! ## Quoted texts -/

lemma stringLiteral (h : S.Twins r r') (hne : r.cursor.rest ≠ []) :
    S.Local Scan.stringLiteral Scan.stringLiteral r r' S.Rel := by
  have hbody (start : Cursor) :
      Scan.Forward (Scan.walk fun c => Scan.stringBody start.pos c.rest c.pos []) :=
    .walk Scan.stringBody_leads
  unfold Scan.stringLiteral
  refine of_cursor (bind h (skip h (List.length_pos_iff.mpr hne)) fun _ _ r₁ r₁' h₁ h₀₁ _ => ?_)
  refine bind h₁ (walk h₁ fun z text c hz hz' hstep hlength => ?_)
    fun text text' r₂ r₂' h₂ h₁₂ htext => ?_
  · rw [hz] at hstep
    obtain ⟨text', z', rfl, rfl, hright⟩ := Scan.stringBody_local hstep hlength
    refine ⟨_, by rw [hz']; exact hright, text', ⟨?_, rfl⟩, ⟨?_, rfl⟩⟩
    · rw [hz, List.append_assoc]
    · rw [hz', List.append_assoc]
  · exact tokenFrom h₂ h.faces (h₀₁.trans h₁₂) (by rw [htext]; rfl)

lemma charEscape {start start' content content' : Position} (h : S.Twins r r') :
    S.Local (Scan.charEscape start content) (Scan.charEscape start' content') r r' Eq := by
  unfold Scan.charEscape
  refine bind_cases (fun escaped => ?_) h (advance h)
    fun escaped escaped' r₁ r₁' h₁ _ hescaped => ?_
  · split
    · infer_instance
    · split <;> infer_instance
  · obtain rfl := hescaped
    refine ite Iff.rfl (fun _ => throw) fun _ => ?_
    cases Scan.unescapeChar? escaped with
    | none => exact of_cursor throw
    | some meaning => exact pure h₁ rfl

lemma charContent {start start' : Position} (h : S.Twins r r') :
    S.Local (Scan.charContent start) (Scan.charContent start') r r' Eq := by
  unfold Scan.charContent
  refine of_cursor (bind h (advance h) fun c c' r₁ r₁' h₁ _ hc => ?_)
  obtain rfl := hc
  exact ite Iff.rfl (fun _ => of_cursor throw) fun _ =>
    ite Iff.rfl (fun _ => charEscape h₁) fun _ => pure h₁ rfl

lemma charLiteral (h : S.Twins r r') (hne : r.cursor.rest ≠ []) :
    S.Local Scan.charLiteral Scan.charLiteral r r' S.Rel := by
  unfold Scan.charLiteral
  refine of_cursor (bind h (skip h (List.length_pos_iff.mpr hne)) fun _ _ r₁ r₁' h₁ h₀₁ _ => ?_)
  refine bind h₁ (charContent h₁) fun c c' r₂ r₂' h₂ h₁₂ hc => of_cursor ?_
  obtain rfl := hc
  refine ite_peek h₂ (by decide) (Scan.Shortens.skip Nat.one_pos) (fun hrest => ?_) throw
  refine bind h₂ (skip h₂ (List.length_pos_iff.mpr hrest)) fun _ _ r₃ r₃' h₃ h₂₃ _ => ?_
  exact tokenFrom h₃ h.faces (h₀₁.trans (h₁₂.trans h₂₃)) rfl

/-! ## Words and symbols -/

lemma label (h : S.Twins r r') (hne : r.cursor.rest ≠ []) :
    S.Local Scan.label Scan.label r r' S.Rel := by
  unfold Scan.label
  refine of_cursor (bind_cases
    (fun _ => Scan.Forward.andThen fun name => by split <;> infer_instance) h
    (skip h (List.length_pos_iff.mpr hne)) fun _ _ r₁ r₁' h₁ h₀₁ _ => ?_)
  refine bind_cases (fun name => by split <;> infer_instance) h₁
    (takeWhile h₁ (by decide)) fun name name' r₂ r₂' h₂ h₁₂ hname => ?_
  obtain rfl := hname
  split
  · exact ite Iff.rfl (fun _ => tokenFrom h₂ h.faces (h₀₁.trans h₁₂) rfl) fun _ => throw
  · exact throw

lemma word (h : S.Twins r r') : S.Local Scan.word Scan.word r r' S.Rel := by
  unfold Scan.word
  refine of_cursor (bind h (takeWhile h (by decide))
    fun name name' r₁ r₁' h₁ h₀₁ hname => of_cursor ?_)
  obtain rfl := hname
  refine ite_peek h₁ (by decide) (Scan.Shortens.skip Nat.one_pos) (fun hrest => ?_) ?_
  · refine bind h₁ (skip h₁ (List.length_pos_iff.mpr hrest)) fun _ _ r₂ r₂' h₂ h₁₂ _ => ?_
    exact tokenFrom h₂ h.faces (h₀₁.trans h₁₂) rfl
  · exact tokenFrom h₁ h.faces h₀₁ (View.rel_classifyWord _)

lemma longestSymbol_within {y : List Char} (kind : TokenKind) (text z : List Char)
    (h : (Scan.longestSymbol kind text (z ++ y)).2 ≤ text.length + z.length) :
    Scan.longestSymbol kind text (z ++ y) = Scan.longestSymbol kind text z := by
  induction z generalizing kind text with
  | nil =>
    cases y with
    | nil => rfl
    | cons c y =>
      rw [List.nil_append, Scan.longestSymbol] at h ⊢
      cases hsymbol : TokenKind.symbol? (text ++ [c]) with
      | none => rfl
      | some longer =>
        rw [hsymbol] at h
        have hle := Scan.Shortens.length_le_longestSymbol longer (text ++ [c]) y
        rw [List.length_append, List.length_singleton] at hle
        exact absurd h (by simp only [List.length_nil]; omega)
  | cons c z ih =>
    rw [List.cons_append, Scan.longestSymbol] at h ⊢
    rw [Scan.longestSymbol]
    cases hsymbol : TokenKind.symbol? (text ++ [c]) with
    | none => rfl
    | some longer =>
      rw [hsymbol] at h
      refine ih longer (text ++ [c]) (Nat.le_trans h ?_)
      rw [List.length_append, List.length_singleton, List.length_cons]
      omega

lemma longestSymbol_append {y : List Char} (hy : Neutral y) (kind : TokenKind) (text z : List Char)
    (htext : text ≠ []) :
    Scan.longestSymbol kind text (z ++ y) = Scan.longestSymbol kind text z := by
  induction z generalizing kind text with
  | nil =>
    cases y with
    | nil => rfl
    | cons c y =>
      have hnone : TokenKind.symbol? (text ++ [c]) = none := by
        cases hsymbol : TokenKind.symbol? (text ++ [c]) with
        | none => rfl
        | some longer =>
          obtain hlength | ⟨hlast, -⟩ := (Scan.Makes.symbol?_eq_some hsymbol).ends
          · have hpos := List.length_pos_iff.mpr htext
            rw [List.length_append, List.length_singleton] at hlength
            omega
          · exact absurd (hy c rfl) (hlast c List.getLast?_concat)
      simp [Scan.longestSymbol, hnone]
  | cons c z ih =>
    rw [List.cons_append, Scan.longestSymbol, Scan.longestSymbol]
    cases TokenKind.symbol? (text ++ [c]) with
    | none => rfl
    | some longer => exact ih longer (text ++ [c]) (by simp)

lemma longestSymbol_le (kind : TokenKind) (text rest : List Char) :
    (Scan.longestSymbol kind text rest).2 ≤ text.length + rest.length := by
  fun_induction Scan.longestSymbol kind text rest with
  | case1 => exact Nat.le_add_right _ _
  | case2 kind text c rest longer hlonger ih =>
    rw [List.length_append, List.length_singleton] at ih
    rw [List.length_cons]
    omega
  | case3 => exact Nat.le_add_right _ _

lemma symbol {c : Char} {z : List Char} (h : S.Twins r r')
    (hz : r.cursor.rest = c :: z ++ S.tail) (hz' : r'.cursor.rest = c :: z ++ S.tail') :
    S.Local (Scan.symbol c) (Scan.symbol c) r r' S.Rel := by
  unfold Scan.symbol
  refine of_cursor ?_
  cases TokenKind.symbol? [c] with
  | none => exact throw
  | some kind =>
    have hle := longestSymbol_le kind [c] (r.cursor.rest.drop 1)
    have hskip : (Scan.longestSymbol kind [c] (r.cursor.rest.drop 1)).2 ≤ r.cursor.rest.length := by
      rw [List.length_drop, List.length_singleton, hz] at hle
      rw [hz]
      simp only [List.cons_append, List.length_cons] at hle ⊢
      omega
    intro t r₁ hrun hlength
    have hwithin : (Scan.longestSymbol kind [c] (z ++ S.tail)).2 ≤ [c].length + z.length := by
      have hleft := Scan.Shortens.length_le_of_skip inferInstance hrun
      rw [hz] at hleft hskip
      simp only [List.cons_append, List.drop_one, List.tail_cons, List.length_cons,
        List.length_append, List.length_nil] at hleft hskip ⊢
      omega
    have hsame : Scan.longestSymbol kind [c] (r.cursor.rest.drop 1) =
        Scan.longestSymbol kind [c] (r'.cursor.rest.drop 1) := by
      rw [hz, hz']
      exact (longestSymbol_within kind [c] z hwithin).trans
        (longestSymbol_append S.neutral' kind [c] z (by simp)).symm
    dsimp only at hrun ⊢
    rw [← hsame]
    refine bind h (skip h hskip) (fun _ _ r₁ r₁' h₁ h₀₁ _ => ?_) t r₁ hrun hlength
    exact tokenFrom h₁ h.faces h₀₁ rfl

/-! ## Numbers -/

lemma congr {m m' n n' : Scan α} {R : α → α → Prop} (hl : m r = n r) (hr : m' r' = n' r')
    (h : S.Local n n' r r' R) : S.Local m m' r r' R := by
  intro a r₁ hrun
  rw [hr]
  exact h a r₁ (hl ▸ hrun)

/-- A text begins with a point and a digit. -/
abbrev StartsFraction (text : List Char) : Prop :=
  text.head? = some '.' ∧ text[1]?.any Char.isDigit = true

lemma startsFraction_append {z : List Char} (hz : 2 ≤ z.length) (y y' : List Char) :
    StartsFraction (z ++ y) ↔ StartsFraction (z ++ y') := by
  match z, hz with
  | c :: d :: z, _ => exact Iff.rfl

lemma not_startsFraction {y : List Char} (hy : Neutral y) {z : List Char} (hz : z.length < 2) :
    ¬ StartsFraction (z ++ y) := by
  rintro ⟨hpoint, hdigit⟩
  match z, hz with
  | [], _ => exact hy.head_ne (by decide) hpoint
  | [c], _ =>
    rw [List.singleton_append, List.getElem?_cons_succ, ← List.head?_eq_getElem?] at hdigit
    obtain ⟨d, hd, hdigit⟩ := Option.any_eq_true _ _ |>.mp hdigit
    rw [hy.head_eq_false (p := Char.isDigit) (by decide) d hd] at hdigit
    cases hdigit

lemma decimalFraction_eq (r : Reader) :
    Scan.decimalFraction r =
      (if StartsFraction r.cursor.rest then do
        Scan.skip 1
        Scan.takeWhile Char.isDigit
      else return [] : Scan (List Char)) r := by
  rw [Scan.decimalFraction, Scan.cursor_bind]
  generalize r.cursor.rest = text
  refine congrFun ?_ r
  split
  · next c tail =>
    by_cases hc : c.isDigit = true
    · exact (if_pos hc).trans (if_pos ⟨rfl, hc⟩).symm
    · exact (if_neg hc).trans (if_neg (fun h => hc h.2)).symm
  · next hne =>
    rw [if_neg]
    rintro ⟨hpoint, hdigit⟩
    match text, hpoint with
    | [_], rfl => cases hdigit
    | _ :: d :: tail, rfl => exact hne d tail rfl

lemma decimalFraction (h : S.Twins r r') :
    S.Local Scan.decimalFraction Scan.decimalFraction r r' Eq := by
  obtain ⟨z, hz, hz'⟩ := h.text
  refine congr (decimalFraction_eq r) (decimalFraction_eq r')
    (ite_ahead (fun hright => ?_) (fun hleft hright a r₁ hrun => ?_) (fun hleft => ?_)
      fun _ => pure h rfl)
  · rw [hz'] at hright
    by_cases hlength : z.length < 2
    · exact absurd hright (not_startsFraction S.neutral' hlength)
    · rw [hz]
      exact (startsFraction_append (Nat.le_of_not_lt hlength) _ _).mp hright
  · have hlength : z.length < 2 := by
      refine Nat.lt_of_not_le fun hle => hright ?_
      rw [hz']
      rw [hz] at hleft
      exact (startsFraction_append hle _ _).mp hleft
    obtain ⟨hpoint, hdigit⟩ := hleft
    obtain ⟨rest, hrest⟩ := List.head?_eq_some_iff.mp hpoint
    obtain ⟨r₂, hrun', hpasses⟩ := Scan.point_run Char.isDigit hrest
    obtain rfl : r₂ = r₁ := by
      rw [hrun'] at hrun
      cases hrun
      rfl
    rw [hrest, List.getElem?_cons_succ, ← List.head?_eq_getElem?] at hdigit
    obtain ⟨d, hd, hdigit⟩ := Option.any_eq_true _ _ |>.mp hdigit
    have hpos := List.length_pos_iff.mpr (takeWhile_ne_nil hd hdigit)
    have hpassed := hpasses.length_rest
    rw [hz, List.length_append, List.length_cons] at hpassed
    omega
  · obtain ⟨hpoint, -⟩ := hleft
    obtain ⟨rest, hrest⟩ := List.head?_eq_some_iff.mp hpoint
    refine bind h (skip h (by simp [hrest])) fun _ _ r₁ r₁' h₁ _ _ => ?_
    exact takeWhile h₁ (by decide)

lemma decimalNumber {start start' : Cursor} (h : S.Twins r r')
    (hfaces : S.Faces start.pos start'.pos)
    (habreast : Cursor.Abreast start start' r.cursor r'.cursor) :
    S.Local (Scan.decimalNumber start) (Scan.decimalNumber start') r r' S.Rel := by
  unfold Scan.decimalNumber
  refine bind h (takeWhile h (by decide)) fun whole whole' r₁ r₁' h₁ h₀₁ hwhole => ?_
  refine bind h₁ (decimalFraction h₁) fun fraction fraction' r₂ r₂' h₂ h₁₂ hfraction => ?_
  obtain rfl := hwhole
  obtain rfl := hfraction
  exact tokenFrom h₂ hfaces (habreast.trans (h₀₁.trans h₁₂)) rfl

lemma isDigitOf_separator (base : Nat) : separators.any (Text.isDigitOf base) = false := rfl

lemma radixFraction (radix : Scan.Radix) (h : S.Twins r r') :
    S.Local (Scan.radixFraction radix) (Scan.radixFraction radix) r r' Eq := by
  unfold Scan.radixFraction
  refine of_cursor (ite_peek h (by decide) (Scan.Shortens.skip Nat.one_pos) (fun hrest => ?_)
    (pure h rfl))
  refine bind h (skip h (List.length_pos_iff.mpr hrest)) fun _ _ r₁ r₁' h₁ _ _ => ?_
  exact takeWhile h₁ (isDigitOf_separator _)

lemma radixDigits {start start' : Cursor} (radix : Scan.Radix) (h : S.Twins r r')
    (hfaces : S.Faces start.pos start'.pos)
    (habreast : Cursor.Abreast start start' r.cursor r'.cursor) :
    S.Local (Scan.radixDigits start radix) (Scan.radixDigits start' radix) r r' S.Rel := by
  unfold Scan.radixDigits
  refine bind h (takeWhile h (isDigitOf_separator _))
    fun whole whole' r₁ r₁' h₁ h₀₁ hwhole => ?_
  refine bind h₁ (radixFraction radix h₁) fun fraction fraction' r₂ r₂' h₂ h₁₂ hfraction => ?_
  obtain rfl := hwhole
  obtain rfl := hfraction
  exact ite Iff.rfl (fun _ => of_cursor throw) fun _ =>
    tokenFrom h₂ hfaces (habreast.trans (h₀₁.trans h₁₂)) rfl

lemma shortens_radixDigits (start : Cursor) (radix : Scan.Radix) :
    Scan.Shortens r (Scan.radixDigits start radix) := by
  intro t r₁ hrun
  obtain ⟨hdigits, u, r₂, hrun', hpasses⟩ | ⟨-, d, r₂, hrun', -⟩ :=
    Scan.radixDigits_run start radix r
  · rw [hrun'] at hrun
    cases hrun
    obtain ⟨c, rest, hcons, -⟩ := Scan.head_radixDigits hdigits
    rw [hpasses.length_rest, hcons, List.length_cons]
    omega
  · rw [hrun'] at hrun
    cases hrun

lemma radixNumber {start start' : Cursor} (radix : Scan.Radix) (h : S.Twins r r')
    (hskip : 2 ≤ r.cursor.rest.length) (hfaces : S.Faces start.pos start'.pos)
    (habreast : Cursor.Abreast start start' r.cursor r'.cursor) :
    S.Local (Scan.radixNumber start radix) (Scan.radixNumber start' radix) r r' S.Rel := by
  unfold Scan.radixNumber
  refine bind_cases (fun _ => .andThen fun here => by split <;> infer_instance) h (skip h hskip)
    fun _ _ r₁ r₁' h₁ h₀₁ _ => of_cursor ?_
  cases hpeek : r₁.cursor.peek? with
  | none => exact throw
  | some c =>
    dsimp only
    by_cases hc : (decide (c = '.') || Text.isDigitOf radix.base c) = true
    · rw [if_pos hc]
      intro t r₂ hrun hlength
      have hne : r₁.cursor.rest ≠ [] := by
        intro hnil
        rw [Cursor.peek?, hnil] at hpeek
        cases hpeek
      obtain ⟨d, z, hz, hz'⟩ :=
        h₁.cons_of_shortens (fun _ => shortens_radixDigits start radix) hne hrun hlength
      have hpeek' : r₁'.cursor.peek? = some c := by
        rw [Cursor.peek?, hz] at hpeek
        rw [Cursor.peek?, hz']
        exact hpeek
      rw [hpeek']
      dsimp only
      rw [if_pos hc]
      exact radixDigits radix h₁ hfaces (habreast.trans h₀₁) t r₂ hrun hlength
    · rw [if_neg hc]
      exact throw

lemma number_of_two {c d : Char} {tail : List Char} (hrest : r.cursor.rest = c :: d :: tail) :
    Scan.number r =
      (if c = '0' then
        match Scan.radix? d with
        | some radix => Scan.radixNumber r.cursor radix
        | none =>
          if d.isDigit then do
            Scan.warn .leadingZero r.cursor.spanOfNext "Leading zero in number literal"
            Scan.decimalNumber r.cursor
          else Scan.decimalNumber r.cursor
      else Scan.decimalNumber r.cursor) r := by
  rw [Scan.number, Scan.cursor_bind, hrest]
  refine congrFun ?_ r
  split
  · next heq =>
    cases heq
    rfl
  · next hne =>
    rw [if_neg]
    rintro rfl
    exact hne d tail rfl

lemma number_of_one {c : Char} {y : List Char} (hy : Neutral y) (hrest : r.cursor.rest = c :: y) :
    Scan.number r = Scan.decimalNumber r.cursor r := by
  cases y with
  | nil =>
    rw [Scan.number, Scan.cursor_bind, hrest]
    refine congrFun (g := Scan.decimalNumber r.cursor) ?_ r
    split
    · next heq => cases heq
    · rfl
  | cons d y =>
    rw [number_of_two hrest]
    have hd := hy d rfl
    simp only [List.mem_cons, List.not_mem_nil, or_false] at hd
    rcases hd with rfl | rfl | rfl | rfl <;> split <;> rfl

lemma length_le_of_decimalNumber {start : Cursor} {c d : Char} {tail : List Char} {t : Token}
    {r₁ : Reader} (hrest : r.cursor.rest = c :: d :: tail) (hdecimal : DecimalNumber [c, d])
    (hrun : Scan.decimalNumber start r = .ok t r₁) : r₁.cursor.rest.length ≤ tail.length := by
  have hpasses := Scan.decimalNumber_passes hrun
  have hle := Scan.decimalNumber_length_le hdecimal
    (show [c, d] <+: r.cursor.rest from hrest ▸ ⟨tail, rfl⟩)
  have hpassed := hpasses.length_rest
  rw [hrest] at hle hpassed
  simp only [List.length_cons, List.length_nil] at hle hpassed
  omega

/-- A number that takes one character is a decimal one. -/
lemma decimalNumber_of_number {c : Char} {y : List Char} {t : Token} {r₁ : Reader}
    (hrest : r.cursor.rest = c :: y) (hrun : Scan.number r = .ok t r₁)
    (hlength : y.length ≤ r₁.cursor.rest.length) :
    Scan.decimalNumber r.cursor r = .ok t r₁ := by
  cases y with
  | nil => rwa [number_of_one (fun d hd => by cases hd) hrest] at hrun
  | cons d tail =>
    have hbeyond (hle : r₁.cursor.rest.length ≤ tail.length) : False := by
      rw [List.length_cons] at hlength
      omega
    rw [number_of_two hrest] at hrun
    by_cases hc : c = '0'
    · subst hc
      rw [if_pos rfl] at hrun
      cases hd : Scan.radix? d with
      | some radix =>
        rw [hd] at hrun
        have hradix : Scan.radixNumber r.cursor radix r = .ok t r₁ := hrun
        rw [Scan.radixNumber] at hradix
        have hle := Scan.Shortens.length_le_of_skip
          (.andThen fun here => by split <;> infer_instance) hradix
        rw [hrest] at hle
        exact (hbeyond hle).elim
      | none =>
        rw [hd] at hrun
        dsimp only at hrun
        by_cases hdigit : d.isDigit = true
        · rw [if_pos hdigit] at hrun
          refine (hbeyond ?_).elim
          have hdecimal : DecimalNumber ['0', d] := by
            refine .whole (fun e he => ?_) (List.cons_ne_nil _ _)
            simp only [List.mem_cons, List.not_mem_nil, or_false] at he
            rcases he with rfl | rfl
            · rfl
            · exact hdigit
          exact length_le_of_decimalNumber (r := r.record _) hrest hdecimal hrun
        · rwa [if_neg hdigit] at hrun
    · rwa [if_neg hc] at hrun

lemma number {c : Char} {z : List Char} (h : S.Twins r r')
    (hz : r.cursor.rest = c :: z ++ S.tail) (hz' : r'.cursor.rest = c :: z ++ S.tail') :
    S.Local Scan.number Scan.number r r' S.Rel := by
  have hdecimal : S.Local (Scan.decimalNumber r.cursor) (Scan.decimalNumber r'.cursor) r r' S.Rel :=
    decimalNumber h h.faces (.refl _ _)
  cases z with
  | nil =>
    intro t r₁ hrun hlength
    rw [number_of_one S.neutral' hz']
    exact hdecimal t r₁ (decimalNumber_of_number hz hrun hlength) hlength
  | cons d z =>
    refine congr (number_of_two hz) (number_of_two hz') ?_
    refine ite Iff.rfl (fun _ => ?_) fun _ => hdecimal
    cases Scan.radix? d with
    | some radix => exact radixNumber radix h (by simp [hz]) h.faces (.refl _ _)
    | none =>
      refine ite Iff.rfl (fun _ => ?_) fun _ => hdecimal
      have hspan : S.Rel r.cursor.spanOfNext r'.cursor.spanOfNext := by
        rw [Cursor.spanOfNext, Cursor.spanOfNext, Cursor.peek?, Cursor.peek?, hz, hz']
        exact h.faces.span_new _
      exact bind h (warn h hspan) fun _ _ r₁ r₁' h₁ h₀₁ _ => decimalNumber h₁ h.faces h₀₁

/-! ## Template strings -/

lemma spanFrom_rel {start start' : Cursor} (hfaces : S.Faces start.pos start'.pos)
    (habreast : Cursor.Abreast start start' r.cursor r'.cursor) :
    S.Rel (r.cursor.spanFrom start.pos) (r'.cursor.spanFrom start'.pos) := by
  obtain ⟨text, hl, hr⟩ := habreast
  rw [Cursor.spanFrom, Cursor.spanFrom, hl.offset, hr.offset]
  exact hfaces.span_new _

lemma escapedDollar {start start' : Cursor} (h : S.Twins r r')
    (hfaces : S.Faces start.pos start'.pos)
    (habreast : Cursor.Abreast start start' r.cursor r'.cursor) :
    S.Local (Scan.escapedDollar start.pos) (Scan.escapedDollar start'.pos) r r' Eq := by
  unfold Scan.escapedDollar
  refine of_cursor (ite_peek h (by decide) (Scan.Shortens.skip Nat.one_pos) (fun hrest => ?_) ?_)
  · exact bind h (skip h (List.length_pos_iff.mpr hrest)) fun _ _ r₁ r₁' h₁ _ _ => pure h₁ rfl
  · exact bind h (warn h (spanFrom_rel hfaces habreast)) fun _ _ r₁ r₁' h₁ _ _ => pure h₁ rfl

lemma templateEscape (h : S.Twins r r') (hne : r.cursor.rest ≠ []) :
    S.Local Scan.templateEscape Scan.templateEscape r r' Eq := by
  unfold Scan.templateEscape
  refine of_cursor (bind_cases (fun _ => .andThen fun _ => Scan.forward_escaped _ _) h
    (skip h (List.length_pos_iff.mpr hne)) fun _ _ r₁ r₁' h₁ h₀₁ _ => ?_)
  refine bind_cases (fun _ => Scan.forward_escaped _ _) h₁ (advance h₁)
    fun escaped escaped' r₂ r₂' h₂ h₁₂ hescaped => ?_
  obtain rfl := hescaped
  refine ite Iff.rfl (fun _ => escapedDollar h₂ h.faces (h₀₁.trans h₁₂)) fun _ => ?_
  cases Scan.unescape? escaped with
  | none => exact of_cursor throw
  | some meaning => exact pure h₂ rfl

end Local

/-- The expressions in template strings are found the same in both readings, as long as less than
the given width of the text is before them. -/
def Embeds (S : Scene) (width : Nat) (embedded embedded' : Option (Scan Expr)) : Prop :=
  ∀ r r', S.Twins r r' → r.cursor.rest.length < S.tail.length + width →
    S.Local (Scan.embeddedExpression embedded) (Scan.embeddedExpression embedded') r r' S.Rel

namespace Local

section Templates

variable {width : Nat} {embedded embedded' : Option (Scan Expr)}

variable (hembeds : S.Embeds width embedded embedded') (hforward : Scan.ForwardWithin embedded)
include hembeds hforward

lemma templatePiece? {opened opened' : Position} (h : S.Twins r r')
    (hwidth : r.cursor.rest.length ≤ S.tail.length + width) :
    S.Local (Scan.templatePiece? embedded opened) (Scan.templatePiece? embedded' opened') r r'
      S.Rel := by
  have hembedded := Scan.forward_embeddedExpression hforward
  have hpiece := Scan.forward_templatePiece? hforward opened
  intro piece r₁ hrun hlength
  have hne : r.cursor.rest ≠ [] := by
    intro hnil
    rw [Scan.templatePiece?, Scan.cursor_bind, hnil] at hrun
    cases hrun
  obtain ⟨c, z, hz, hz'⟩ := h.cons_of_shortens (Scan.Shortens.templatePiece? hforward) hne hrun
    hlength
  have hskip (n : Nat) (hn : n ≤ (c :: z).length) : n ≤ r.cursor.rest.length := by
    rw [hz, List.length_append]
    omega
  have hlocal : S.Local (Scan.pieceAt embedded c (z ++ S.tail).head?)
      (Scan.pieceAt embedded' c (z ++ S.tail').head?) r r' S.Rel := by
    unfold Scan.pieceAt
    refine ite Iff.rfl (fun _ => ?_) fun _ => ite Iff.rfl (fun _ => ?_) fun _ =>
      ite_ahead (fun hright => ?_) (fun hleft hright a r₂ hrun => ?_) (fun hopening => ?_)
        fun _ => ?_
    · exact bind h (skip h (hskip 1 (by simp))) fun _ _ r₁ r₁' h₁ _ _ => pure h₁ rfl
    · refine bind h (templateEscape h hne) fun text text' r₁ r₁' h₁ _ htext => pure h₁ ?_
      rw [htext]
      rfl
    · cases z with
      | nil => exact absurd hright.2 (S.neutral'.head_ne (by decide))
      | cons d z => exact hright
    · cases z with
      | nil =>
        obtain ⟨rest, hrest⟩ := List.head?_eq_some_iff.mp hleft.2
        have hle := Scan.Shortens.length_le_of_skip inferInstance hrun
        rw [List.nil_append] at hrest
        rw [hz, hrest] at hle
        rw [hrest]
        simp only [List.cons_append, List.nil_append, List.length_cons] at hle ⊢
        omega
      | cons d z => exact absurd hleft hright
    · obtain ⟨rest, hrest⟩ := List.head?_eq_some_iff.mp hopening.2
      have htwo : 2 ≤ r.cursor.rest.length := by
        rw [hz, List.cons_append, hrest]
        simp
      refine bind_run (fun _ => inferInstance) h (skip h htwo) fun _ _ r₁ r₁' hskip h₁ _ _ => ?_
      have hless : r₁.cursor.rest.length < S.tail.length + width := by
        cases hskip
        simp only [Cursor.drop, List.length_drop]
        omega
      refine bind h₁ (hembeds r₁ r₁' h₁ hless) fun e e' r₂ r₂' h₂ _ he => pure h₂ ?_
      exact View.rel_some_some.mpr (View.rel_embedded he)
    · exact bind h (skip h (hskip 1 (by simp))) fun _ _ r₁ r₁' h₁ _ _ => pure h₁ rfl
  exact congr (Scan.templatePiece?_of_cons opened hz) (Scan.templatePiece?_of_cons opened' hz')
    hlocal
    piece r₁ hrun hlength

/-- The pieces of a template string are found the same, and not more of them than the text has
characters. -/
lemma templatePieces {opened opened' : Position} {fuel fuel' : Nat}
    {pieces pieces' : List Scan.Piece} (h : S.Twins r r')
    (hwidth : r.cursor.rest.length ≤ S.tail.length + width)
    (hfuel : r'.cursor.rest.length < fuel') (hpieces : S.Rel pieces pieces') :
    S.Local (Scan.templatePieces embedded opened fuel pieces)
      (Scan.templatePieces embedded' opened' fuel' pieces') r r' S.Rel := by
  induction fuel generalizing r r' fuel' pieces pieces' with
  | zero => exact throw
  | succ fuel ih =>
    obtain ⟨fuel', rfl⟩ : ∃ f, fuel' = f + 1 := ⟨fuel' - 1, by omega⟩
    have hforwardPieces := Scan.forward_templatePieces hforward opened
    unfold Scan.templatePieces
    refine bind_run (fun piece => by split <;> infer_instance) h
      (templatePiece? hembeds hforward h hwidth)
      fun piece piece' r₁ r₁' hrun h₁ habreast hpiece => ?_
    cases piece with
    | none =>
      cases piece' with
      | none => exact pure h₁ (View.rel_reverse hpieces)
      | some piece' => exact absurd hpiece View.not_rel_none_some
    | some piece =>
      cases piece' with
      | none => exact absurd hpiece View.not_rel_some_none
      | some piece' =>
        have hne : r.cursor.rest ≠ [] := by
          intro hnil
          rw [Scan.templatePiece?, Scan.cursor_bind, hnil] at hrun
          cases hrun
        have hlt := Scan.Shortens.templatePiece? hforward hne _ _ hrun
        have hlt' : r₁'.cursor.rest.length < r'.cursor.rest.length := by
          obtain ⟨text, hl, hr⟩ := habreast
          rw [hl.length_rest] at hlt
          rw [hr.length_rest]
          omega
        exact ih h₁ (by omega) (by omega)
          (View.rel_cons.mpr ⟨View.rel_some_some.mp hpiece, hpieces⟩)

lemma templateLiteral (h : S.Twins r r') (hne : r.cursor.rest ≠ [])
    (hwidth : r.cursor.rest.length ≤ S.tail.length + width) :
    S.Local (Scan.templateLiteral embedded) (Scan.templateLiteral embedded') r r' S.Rel := by
  have hforwardPieces := Scan.forward_templatePieces hforward
  unfold Scan.templateLiteral
  refine of_cursor (bind_run (fun _ => inferInstance) h (skip h (List.length_pos_iff.mpr hne))
    fun _ _ r₁ r₁' hskip h₁ h₀₁ _ => ?_)
  have hle : r₁.cursor.rest.length ≤ S.tail.length + width := by
    cases hskip
    simp only [Cursor.drop, List.length_drop]
    omega
  have hfuel : r₁'.cursor.rest.length < r'.cursor.rest.length + 1 := by
    obtain ⟨text, -, hr⟩ := h₀₁
    rw [hr.length_rest]
    omega
  refine bind h₁ (templatePieces hembeds hforward h₁ hle hfuel rfl)
    fun pieces pieces' r₂ r₂' h₂ h₁₂ hpieces => ?_
  exact tokenFrom h₂ h.faces (h₀₁.trans h₁₂) (View.rel_template (View.rel_parts hpieces))

/-- A token is found the same in both readings. -/
theorem tokenHere (h : S.Twins r r') (hne : r.cursor.rest ≠ [])
    (hwidth : r.cursor.rest.length ≤ S.tail.length + width) :
    S.Local (Scan.tokenHere embedded) (Scan.tokenHere embedded') r r' S.Rel := by
  intro t r₁ hrun hlength
  obtain ⟨c, z, hz, hz'⟩ := h.cons_of_shortens (Scan.Shortens.tokenHere hforward) hne hrun hlength
  have hlocal : S.Local (Scan.tokenAt embedded c (z ++ S.tail).head?)
      (Scan.tokenAt embedded' c (z ++ S.tail').head?) r r' S.Rel := by
    unfold Scan.tokenAt
    refine ite Iff.rfl (fun _ => stringLiteral h hne) fun _ => ?_
    refine ite Iff.rfl (fun _ => templateLiteral hembeds hforward h hne hwidth) fun _ => ?_
    refine ite Iff.rfl (fun _ => charLiteral h hne) fun _ => ?_
    refine ite Iff.rfl (fun _ => label h hne) fun _ => ?_
    refine ite_ahead (Or.imp_right fun hright => ?_) (fun hleft hright u r₂ hrun => ?_)
      (fun _ => number h hz hz') fun _ => ?_
    · cases z with
      | nil =>
        obtain ⟨d, hd, hdigit⟩ := Option.any_eq_true _ _ |>.mp hright.2
        rw [S.neutral'.head_eq_false (p := Char.isDigit) (by decide) d hd] at hdigit
        cases hdigit
      | cons d z => exact hright
    · cases z with
      | nil =>
        obtain ⟨rfl, hany⟩ := hleft.resolve_left fun hdigit => hright (.inl hdigit)
        obtain ⟨d, hd, hdigit⟩ := Option.any_eq_true _ _ |>.mp hany
        obtain ⟨rest, hrest⟩ := List.head?_eq_some_iff.mp hd
        rw [List.nil_append] at hrest
        have hpoint : r.cursor.rest = '.' :: d :: rest := by
          rw [hz, hrest]
          rfl
        rw [number_of_two hpoint, if_neg (by decide)] at hrun
        have hdecimal : DecimalNumber ([] ++ ['.', d]) :=
          .fraction (fun e he => by cases he) (by simpa using hdigit) (List.cons_ne_nil _ _)
        have hle := length_le_of_decimalNumber hpoint hdecimal hrun
        rw [hrest, List.length_cons]
        omega
      | cons d z => exact absurd hleft hright
    exact ite Iff.rfl (fun _ => word h) fun _ => symbol h hz hz'
  exact congr (Scan.tokenHere_of_cons hz) (Scan.tokenHere_of_cons hz') hlocal t r₁ hrun hlength

end Templates

end Local

end FrontEnd.Scene
