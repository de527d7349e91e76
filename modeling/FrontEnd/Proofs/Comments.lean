import FrontEnd.Proofs.LocalScan
import FrontEnd.Proofs.Tiling

/-!
# Block comments nest

A block comment holds plain text and further comments. Written out, it is a list of marks: `/*`,
`*/` and single characters. Since no single character starts a delimiter, the scanner finds the
marks again one by one, and its counter is the number of comments that are open. So a comment is
skipped as a whole, and where closing delimiters are missing at the end, the counter says how many:
`comment_skipped`. That every gap is skipped, blanks and line comments included, is `gap_of_gap`.
-/

namespace FrontEnd

/-! ## Comments -/

/-- A character that belongs to no delimiter of a comment. -/
abbrev CommentChar := { c : Char // c ≠ '/' ∧ c ≠ '*' }

/-- What stands between the delimiters of a block comment: plain segments and comments. -/
inductive CommentContent where
  | empty
  | segment (text : List CommentChar) (more : CommentContent)
  | comment (inner more : CommentContent)

/-- A delimiter of a comment, or a character between delimiters. -/
inductive CommentMark where
  | opener
  | closer
  | plain (c : CommentChar)
  deriving DecidableEq

/-- How a mark is written. -/
def CommentMark.text : CommentMark → List Char
  | .opener => ['/', '*']
  | .closer => ['*', '/']
  | .plain c => [c.val]

namespace CommentContent

/-- The marks of what stands in a comment. -/
def marks : CommentContent → List CommentMark
  | .empty => []
  | .segment text more => text.map .plain ++ more.marks
  | .comment inner more => .opener :: (inner.marks ++ .closer :: more.marks)

/-- The marks of the comment that encloses a content. -/
def enclosed (content : CommentContent) : List CommentMark :=
  .opener :: (content.marks ++ [.closer])

end CommentContent

/-- The text that some marks are written as. -/
def written (ms : List CommentMark) : List Char :=
  ms.flatMap CommentMark.text

/-- Some marks with their first `n` closers; the others are left out. -/
def keepClosers : Nat → List CommentMark → List CommentMark
  | _, [] => []
  | 0, .closer :: ms => keepClosers 0 ms
  | n + 1, .closer :: ms => .closer :: keepClosers n ms
  | n, m :: ms => m :: keepClosers n ms

/-- Some marks without their last `k` closers. -/
def withoutClosers (k : Nat) (ms : List CommentMark) : List CommentMark :=
  keepClosers (ms.count .closer - k) ms

/-- Whether a text begins with a blank or a comment. -/
def startsGap : List Char → Bool
  | '/' :: '/' :: _ => true
  | '/' :: '*' :: _ => true
  | c :: _ => Text.isBlank c
  | [] => false

/-- The note on a number of comments that are open at the end of the source. -/
def nestingNote (k : Nat) : String :=
  if k = 1 then "there was 1 level of comment nesting when EOF was reached"
  else "there were " ++ toString k ++ " levels of comment nesting when EOF was reached"

@[simp] lemma written_cons (m : CommentMark) (ms : List CommentMark) :
    written (m :: ms) = m.text ++ written ms :=
  List.flatMap_cons

lemma keepClosers_cons {m : CommentMark} (hm : m ≠ .closer) (n : Nat) (ms : List CommentMark) :
    keepClosers n (m :: ms) = m :: keepClosers n ms := by
  cases m <;> first | exact absurd rfl hm | (cases n <;> rfl)

lemma withoutClosers_cons {m : CommentMark} (hm : m ≠ .closer) (k : Nat) (ms : List CommentMark) :
    withoutClosers k (m :: ms) = m :: withoutClosers k ms := by
  rw [withoutClosers, List.count_cons_of_ne hm, keepClosers_cons hm, ← withoutClosers]

/-- Marks that close a number of open comments, the outermost by the last mark. -/
inductive Closes : Nat → List CommentMark → Prop where
  | done : Closes 0 []
  | opener {depth ms} (h : Closes (depth + 2) ms) : Closes (depth + 1) (.opener :: ms)
  | closer {depth ms} (h : Closes depth ms) : Closes (depth + 1) (.closer :: ms)
  | plain {depth c ms} (h : Closes (depth + 1) ms) : Closes (depth + 1) (.plain c :: ms)

lemma CommentContent.closes (content : CommentContent) {depth : Nat} {ms : List CommentMark}
    (h : Closes (depth + 1) ms) : Closes (depth + 1) (content.marks ++ ms) := by
  induction content generalizing depth ms with
  | empty => exact h
  | segment text more ih =>
    have hmore := ih h
    rw [marks, List.append_assoc]
    induction text with
    | nil => exact hmore
    | cons c text iht => exact .plain iht
  | comment inner more ihinner ihmore =>
    rw [marks, List.cons_append, List.append_assoc]
    exact .opener (ihinner (.closer (ihmore h)))

lemma Closes.count {depth : Nat} {ms : List CommentMark} (h : Closes depth ms) :
    ms.count .closer = depth + ms.count .opener := by
  induction h with
  | done => rfl
  | opener h ih => simp [ih]; omega
  | closer h ih => simp [ih]; omega
  | plain h ih => simp [ih]

lemma Closes.commentBody {depth : Nat} {ms : List CommentMark} (h : Closes depth ms) :
    CommentBody depth (written ms) := by
  induction h with
  | done => exact .closed
  | opener h ih => exact .opening ih
  | closer h ih => exact .closing ih
  | @plain depth c ms h ih =>
    refine .inside ?_ ?_ ih
    · rintro ⟨rest, hrest⟩
      exact c.property.1 (List.cons.inj hrest).1.symm
    · rintro ⟨rest, hrest⟩
      exact c.property.2 (List.cons.inj hrest).1.symm

lemma CommentBody.ne_nil {depth : Nat} {comment : List Char}
    (h : CommentBody (depth + 1) comment) : comment ≠ [] := by
  cases h <;> exact List.cons_ne_nil _ _

namespace Scan

variable {opened : Position} {depth : Nat} {rest : List Char} {ms : List CommentMark}

/-! ## Texts of gaps -/

lemma not_pair_of_not_isPrefix {x y c : Char} {text rest : List Char} (hne : text ≠ [])
    (h : ¬ [x, y] <+: c :: text) : ∀ rest', c = x → text ++ rest = y :: rest' → False := by
  rintro rest' rfl heq
  obtain ⟨d, text, rfl⟩ := List.exists_cons_of_ne_nil hne
  obtain rfl : d = y := (List.cons.inj heq).1
  exact h ⟨text, rfl⟩

lemma gap_commentBody {comment : List Char} (h : CommentBody depth comment) (hdepth : depth ≠ 0)
    (rest : List Char) (pos : Position) :
    gap (.blockComment opened depth) (comment ++ rest) pos =
      gap .blank rest (pos.after comment) := by
  induction h generalizing pos with
  | closed => exact absurd rfl hdepth
  | @closing depth comment h ih =>
    rw [List.cons_append, List.cons_append, gap]
    by_cases hzero : depth = 0
    · subst hzero
      cases h
      rfl
    · rw [if_neg (by omega), Nat.add_sub_cancel, ih hzero]
      rfl
  | opening h ih =>
    rw [List.cons_append, List.cons_append, gap, ih (by omega)]
    rfl
  | @inside depth c comment hopening hclosing h ih =>
    have hne := h.ne_nil
    rw [List.cons_append, gap_comment_cons pos (not_pair_of_not_isPrefix hne hopening)
      (not_pair_of_not_isPrefix hne hclosing), ih hdepth]
    rfl

lemma gap_lineText {comment : List Char} (h : '\n' ∉ comment) (rest : List Char) (pos : Position) :
    gap .lineComment (comment ++ '\n' :: rest) pos =
      gap .blank rest (pos.after (comment ++ ['\n'])) := by
  induction comment generalizing pos with
  | nil => rfl
  | cons c comment ih =>
    obtain ⟨hc, hcomment⟩ := not_or.mp (mt List.mem_cons.mpr h)
    rw [List.cons_append, gap, if_neg (Ne.symm hc), ih hcomment]
    rfl

lemma gap_of_gap {following text : List Char} (h : Gap following text) (hne : following ≠ [])
    (pos : Position) :
    gap .blank (text ++ following) pos = gap .blank following (pos.after text) := by
  induction h generalizing pos with
  | nil => rfl
  | @blank c text hc h ih =>
    have hslash : c ≠ '/' := by
      rintro rfl
      cases hc
    rw [List.cons_append, gap_blank_cons pos (fun _ h => absurd h hslash)
      (fun _ h => absurd h hslash), if_pos hc, ih]
    rfl
  | line hcomment h ih =>
    rw [List.cons_append, List.cons_append, gap, List.append_assoc, List.cons_append,
      gap_lineText hcomment, ih, ← Position.after_append, ← Position.after_append]
    simp
  | lastLine hcomment hend => exact absurd hend hne
  | block hcomment h ih =>
    rw [List.cons_append, List.cons_append, gap, List.append_assoc,
      gap_commentBody hcomment Nat.one_ne_zero, ih, ← Position.after_append,
      ← Position.after_append]
    rfl

/-! ## Marks one by one -/

lemma gap_opener (pos : Position) :
    gap (.blockComment opened depth) (CommentMark.opener.text ++ rest) pos =
      gap (.blockComment opened (depth + 1)) rest (pos.after CommentMark.opener.text) := by
  rw [CommentMark.text, List.cons_append, List.cons_append, gap]
  rfl

lemma gap_closer (pos : Position) :
    gap (.blockComment opened depth) (CommentMark.closer.text ++ rest) pos =
      gap (if depth ≤ 1 then .blank else .blockComment opened (depth - 1)) rest
        (pos.after CommentMark.closer.text) := by
  rw [CommentMark.text, List.cons_append, List.cons_append, gap]
  rfl

lemma gap_plain (c : CommentChar) (pos : Position) :
    gap (.blockComment opened depth) ((CommentMark.plain c).text ++ rest) pos =
      gap (.blockComment opened depth) rest (pos.after (CommentMark.plain c).text) :=
  gap_comment_cons pos (fun _ h => absurd h c.property.1) fun _ h => absurd h c.property.2

/-! ## Comments as wholes -/

lemma gap_unclosed (opened : Position) (ms : List CommentMark) (depth : Nat) (pos : Position) :
    ∃ c, gap (.blockComment opened depth) (written (keepClosers 0 ms)) pos =
      .error (unterminatedComment opened (depth + ms.count .opener)) c := by
  induction ms generalizing depth pos with
  | nil => exact ⟨⟨[], pos⟩, rfl⟩
  | cons m ms ih =>
    cases m with
    | opener =>
      obtain ⟨c, hgap⟩ := ih (depth + 1) (pos.after CommentMark.opener.text)
      refine ⟨c, ?_⟩
      rw [keepClosers_cons (by decide), written_cons, gap_opener, hgap, List.count_cons_self,
        Nat.add_assoc, Nat.add_comm 1]
    | closer =>
      obtain ⟨c, hgap⟩ := ih depth pos
      refine ⟨c, ?_⟩
      rw [keepClosers, hgap, List.count_cons_of_ne (by decide)]
    | plain d =>
      obtain ⟨c, hgap⟩ := ih depth (pos.after (CommentMark.plain d).text)
      refine ⟨c, ?_⟩
      rw [keepClosers_cons (by simp), written_cons, gap_plain, hgap,
        List.count_cons_of_ne (by simp)]

/-- Without the last closers of some marks, as many comments are open at the end. -/
lemma gap_withoutClosers (h : Closes depth ms) {k : Nat} (hk : 1 ≤ k)
    (hle : k ≤ ms.count .closer) (pos : Position) :
    ∃ c, gap (.blockComment opened depth) (written (withoutClosers k ms)) pos =
      .error (unterminatedComment opened k) c := by
  induction h generalizing pos with
  | done => exact absurd (Nat.le_trans hk hle) (by decide)
  | opener h ih =>
    rw [List.count_cons_of_ne (by decide)] at hle
    rw [withoutClosers_cons (by decide), written_cons, gap_opener]
    exact ih hle _
  | @closer depth ms h ih =>
    have hcount := h.count
    rw [List.count_cons_self] at hle
    rcases Nat.lt_or_eq_of_le hle with hlt | rfl
    · -- The closer stays, and so do the comments that are open behind it.
      have hne : depth ≠ 0 := by
        rintro rfl
        cases h
        exact absurd (Nat.le_trans hk (Nat.le_of_lt_succ hlt)) (by decide)
      have hkeep : withoutClosers k (.closer :: ms) = .closer :: withoutClosers k ms := by
        rw [withoutClosers, List.count_cons_self, Nat.succ_sub (Nat.le_of_lt_succ hlt), keepClosers,
          ← withoutClosers]
      rw [hkeep, written_cons, gap_closer, if_neg (by omega), Nat.add_sub_cancel]
      exact ih (Nat.le_of_lt_succ hlt) _
    · -- All closers are left out.
      obtain ⟨c, hgap⟩ := gap_unclosed opened ms (depth + 1) pos
      refine ⟨c, ?_⟩
      rw [withoutClosers, List.count_cons_self, Nat.sub_self, keepClosers, hgap, hcount]
      congr 2
      omega
  | plain h ih =>
    rw [List.count_cons_of_ne (by simp)] at hle
    rw [withoutClosers_cons (by simp), written_cons, gap_plain]
    exact ih hle _

lemma gap_of_not_startsGap {text : List Char} (h : startsGap text = false) (pos : Position) :
    gap .blank text pos = .ok () ⟨text, pos⟩ := by
  cases text with
  | nil => rfl
  | cons c text =>
    have hline : ∀ rest, c = '/' → text = '/' :: rest → False := by
      rintro rest rfl rfl
      cases h
    have hblock : ∀ rest, c = '/' → text = '*' :: rest → False := by
      rintro rest rfl rfl
      cases h
    rw [startsGap] at h
    · rw [gap_blank_cons pos hline hblock, if_neg (Bool.eq_false_iff.mp h)]
    · exact hline
    · exact hblock

lemma gap_enclosed (content : CommentContent) (rest : List Char) (pos : Position) :
    gap .blank (written content.enclosed ++ rest) pos =
      gap .blank rest (pos.after (written content.enclosed)) := by
  have hcloses : Closes 1 (content.marks ++ [.closer]) := content.closes (.closer .done)
  rw [CommentContent.enclosed, written_cons, CommentMark.text, List.append_assoc, List.cons_append,
    List.cons_append, gap, List.nil_append, gap_commentBody hcloses.commentBody Nat.one_ne_zero,
    ← Position.after_append]

lemma gap_enclosed_cut (content : CommentContent) {k : Nat} (hk : 1 ≤ k)
    (hle : k ≤ content.enclosed.count .closer) (pos : Position) :
    ∃ c, gap .blank (written (withoutClosers k content.enclosed)) pos =
      .error (unterminatedComment pos k) c := by
  have hcloses : Closes 1 (content.marks ++ [.closer]) := content.closes (.closer .done)
  rw [CommentContent.enclosed, List.count_cons_of_ne (by decide)] at hle
  rw [CommentContent.enclosed, withoutClosers_cons (by decide), written_cons, CommentMark.text,
    List.cons_append, List.cons_append, gap, List.nil_append]
  exact gap_withoutClosers hcloses hk hle _

lemma notes_unterminated (opened : Position) (k : Nat) :
    (unterminatedComment opened k).notes = [nestingNote k] := by
  unfold unterminatedComment nestingNote
  by_cases hk : k = 1
  · subst hk
    rfl
  · have hverb : "there " ++ "were" ++ " " = "there were " := rfl
    have hnoun : " level" ++ "s" ++ " of comment nesting when EOF was reached" =
        " levels of comment nesting when EOF was reached" := rfl
    rw [if_neg hk, if_neg hk, ← hverb, ← hnoun, ← String.append_assoc, ← String.append_assoc]
    rfl

end Scan

/-! ## Reading tokens -/

variable (content : CommentContent)

/-- A comment, with all comments in it, is skipped where a token is expected: what follows it is
read as if the comment were not there, and where no further gap follows, the reading place is right
behind it. When the source ends and the last closers of the comment are missing, the first opener is
refused, with a note on how many there are. -/
theorem comment_skipped (embedded : Option (Scan Expr)) (pos : Position) (journal : Journal) :
    (∀ rest,
      let r : Reader := ⟨⟨written content.enclosed ++ rest, pos⟩, journal⟩
      let behind : Reader := ⟨⟨rest, pos.after (written content.enclosed)⟩, journal⟩
      Scan.skipGap r = Scan.skipGap behind ∧ Scan.token embedded r = Scan.token embedded behind ∧
        (startsGap rest = false → Scan.skipGap r = .ok () behind)) ∧
    ∀ k, 1 ≤ k → k ≤ content.enclosed.count .closer →
      ∃ d r', Scan.token embedded
          ⟨⟨written (withoutClosers k content.enclosed), pos⟩, journal⟩ = .error d r' ∧
        d.code.text = "E00001" ∧ d.span = Span.new pos (pos.offset + 2) ∧
        d.notes = [nestingNote k] := by
  refine ⟨fun rest => ?skipped, fun k hk hle => ?refused⟩
  case skipped =>
    have hskip : Scan.skipGap ⟨⟨written content.enclosed ++ rest, pos⟩, journal⟩ =
        Scan.skipGap ⟨⟨rest, pos.after (written content.enclosed)⟩, journal⟩ := by
      rw [Scan.skipGap, Scan.walk_apply, Scan.walk_apply]
      dsimp only
      rw [Scan.gap_enclosed]
    refine ⟨hskip, ?_, fun hrest => hskip.trans ?_⟩
    · rw [Scan.token, Scan.bind_apply, Scan.bind_apply, hskip]
    · rw [Scan.skipGap, Scan.walk_apply]
      dsimp only
      rw [Scan.gap_of_not_startsGap hrest]
  case refused =>
    obtain ⟨c, hgap⟩ := Scan.gap_enclosed_cut content hk hle pos
    refine ⟨Scan.unterminatedComment pos k, ⟨c, journal⟩, ?_, rfl, rfl, Scan.notes_unterminated pos k⟩
    rw [Scan.token, Scan.bind_apply, Scan.skipGap, Scan.walk_apply]
    dsimp only
    rw [hgap]

/-- A comment that holds text and another one is skipped in front of a name. Without its last closer
one level is open at the end, and without both closers two are. -/
theorem comment_skipped_nested :
    let content : CommentContent := .segment [⟨'a', by decide⟩] (.comment .empty .empty)
    Scan.skipGap ⟨⟨"/*a/**/*/b".toList, .start⟩, #[]⟩ = .ok () ⟨⟨['b'], ⟨9, 1, 10⟩⟩, #[]⟩ ∧
      (∃ d r', Scan.token none ⟨⟨"/*a/**/".toList, .start⟩, #[]⟩ = .error d r' ∧
        d.code.text = "E00001" ∧ d.span = ⟨0, 2, 1, 1⟩ ∧ d.notes = [nestingNote 1]) ∧
      (2 ≤ content.enclosed.count .closer ∧ ∃ d r',
        Scan.token none ⟨⟨"/*a/*".toList, .start⟩, #[]⟩ = .error d r' ∧
        d.code.text = "E00001" ∧ d.span = ⟨0, 2, 1, 1⟩ ∧ d.notes = [nestingNote 2]) := by
  intro content
  have htwo : 2 ≤ content.enclosed.count .closer := by decide
  have hskip := ((comment_skipped content none .start #[]).1 ['b']).2.2 rfl
  have hone := (comment_skipped content none .start #[]).2 1 (by decide) (by decide)
  have hboth := (comment_skipped content none .start #[]).2 2 (by decide) htwo
  exact ⟨hskip, hone, htwo, hboth⟩

end FrontEnd
