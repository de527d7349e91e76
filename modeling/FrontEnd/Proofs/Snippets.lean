import FrontEnd.Diagnostic.Snippet
import FrontEnd.Proofs.HonestParse
import FrontEnd.Proofs.Termination
import Mathlib.Data.List.DropRight
import Mathlib.Data.List.Intervals

/-!
# Snippets show the source

A diagnostic is rendered with the lines around its place. `Source.lines` are the lines of a source
by the functions of the library, and `Snippet.Marks` says how the offending line is to be divided:
the marked piece is what the span covers on it, less the carriage returns at its end. For this the
span has to be solid, as are those of all diagnostics that parsing reports (`parse_solid`): where it
is empty there must be nothing to mark behind it. And its line and column have to be what a reader
would count, as they are if they fit into words (`Source.Countable`).

The row of carets has another measure. It counts the carriage returns that the span covers, though
the line is shown without them, and so it can run past the end of the line.
-/

namespace FrontEnd

/-! ## Words -/

lemma toNat_min (m n : UInt32) : (min m n).toNat = min m.toNat n.toNat := by
  have hmin : min m n = if m ≤ n then m else n := rfl
  rw [hmin, apply_ite UInt32.toNat, Nat.min_def, if_congr UInt32.le_iff_toNat_le rfl rfl]

lemma toNat_max (m n : UInt32) : (max m n).toNat = max m.toNat n.toNat := by
  have hmax : max m n = if m ≤ n then n else m := rfl
  rw [hmax, apply_ite UInt32.toNat, Nat.max_def, if_congr UInt32.le_iff_toNat_le rfl rfl]

/-! ## Lines of a source -/

namespace Source

/-- The lines of a source, without the carriage returns at their ends. -/
def lines (source : List Char) : List (List Char) :=
  (source.splitOn '\n').map (·.rdropWhile (· == '\r'))

/-- The line of a number, counted from one. -/
def line (source : List Char) (i : Nat) : List Char :=
  (lines source)[i - 1]?.getD []

lemma pieces_eq_splitOn (source : List Char) : pieces source = source.splitOn '\n' := by
  induction source with
  | nil => rfl
  | cons c cs ih =>
    rw [pieces, List.splitOn, List.splitOnP_cons_eq_if_modifyHead, ih]
    by_cases hc : c = '\n'
    · simp [hc, List.splitOn]
    · obtain ⟨piece, more, hsplit⟩ := List.exists_cons_of_ne_nil (List.splitOn_ne_nil '\n' cs)
      rw [List.splitOn] at hsplit
      simp [hc, hsplit, List.splitOn]

lemma length_lines (source : List Char) : (lines source).length = source.count '\n' + 1 := by
  rw [lines, List.length_map, ← pieces_eq_splitOn, length_pieces]

/-- The lines of a source can be counted in words, also two beyond the last one, and so can the
characters of each line. -/
structure Countable (source : List Char) : Prop where
  lines : (lines source).length + 2 < UInt32.size
  columns : ∀ piece ∈ source.splitOn '\n', piece.length + 1 < UInt32.size

lemma toNat_totalLines (source : List Char) :
    (totalLines source).toNat = (lines source).length % UInt32.size := by
  rw [length_lines, totalLines, ← UInt32.ofNat_one, ← UInt32.ofNat_add, UInt32.toNat_ofNat']

lemma toNat_totalLines_le (source : List Char) :
    (totalLines source).toNat ≤ (lines source).length :=
  toNat_totalLines source ▸ Nat.mod_le _ _

lemma Countable.toNat_totalLines {source : List Char} (h : Countable source) :
    (totalLines source).toNat = (Source.lines source).length := by
  rw [Source.toNat_totalLines, Nat.mod_eq_of_lt (Nat.lt_of_le_of_lt (Nat.le_add_right _ 2) h.lines)]

lemma lineText?_eq {source : List Char} {i : UInt32} (hpos : 1 ≤ i.toNat)
    (hle : i.toNat ≤ (totalLines source).toNat) :
    lineText? source i = some (line source i.toNat) := by
  have hlt : i.toNat - 1 < (lines source).length := by
    have hlines := toNat_totalLines_le source
    omega
  have hlines : (pieces source)[i.toNat - 1]?.map trimReturns = (lines source)[i.toNat - 1]? := by
    rw [lines, List.getElem?_map, ← pieces_eq_splitOn]
    rfl
  have hcounted : ¬ (i = 0 ∨ totalLines source < i) := by
    rintro (rfl | hbeyond)
    · exact absurd hpos (by decide)
    · exact absurd hle (Nat.not_le_of_lt (UInt32.lt_iff_toNat_lt.mp hbeyond))
  rw [lineText?, if_neg hcounted, line, hlines, List.getElem?_eq_getElem hlt]
  rfl

lemma splitOn_head (text : List Char) :
    (text.splitOn '\n')[0]? = some (text.takeWhile (· != '\n')) := by
  induction text with
  | nil => rfl
  | cons c cs ih =>
    rw [List.splitOn] at ih
    rw [List.splitOn, List.splitOnP_cons_eq_if_modifyHead]
    by_cases hc : c = '\n'
    · simp [hc]
    · simp [hc, ih]

lemma splitOn_append (before rest : List Char) :
    ((before ++ rest).splitOn '\n')[before.count '\n']? =
      some (before.rtakeWhile (· != '\n') ++ rest.takeWhile (· != '\n')) := by
  set front := before.rtakeWhile (· != '\n')
  have hparts : before.rdropWhile (· != '\n') ++ front = before :=
    List.rdropWhile_append_rtakeWhile
  have hfree : ∀ c ∈ front, (c != '\n') = true :=
    fun c hc => List.mem_rtakeWhile_imp (p := (· != '\n')) hc
  have hnone : front.count '\n' = 0 := List.count_eq_zero.mpr fun hmem => by
    simpa using hfree _ hmem
  rcases List.eq_nil_or_concat (before.rdropWhile (· != '\n')) with hdone | ⟨lead, c, hdone⟩
  · rw [hdone, List.nil_append] at hparts
    rw [← hparts, hnone, splitOn_head, List.takeWhile_append_of_pos hfree]
  · -- The last newline before the place ends the lines that are done.
    obtain rfl : c = '\n' := by
      have hlast := List.rdropWhile_last_not (· != '\n') before (by simp [hdone])
      simpa [hdone] using hlast
    have hlen : (lead.splitOn '\n').length = lead.count '\n' + 1 := by
      rw [← pieces_eq_splitOn, length_pieces]
    have hsplit : (before ++ rest).splitOn '\n' =
        lead.splitOn '\n' ++ (front ++ rest).splitOn '\n' := by
      rw [← hparts, hdone, List.concat_eq_append, List.append_assoc, List.append_assoc]
      exact List.splitOnP_append_cons lead (front ++ rest) rfl
    have hcount : before.count '\n' = lead.count '\n' + 1 := by
      rw [← hparts, hdone, List.concat_eq_append, List.count_append, List.count_append, hnone]
      rfl
    rw [hsplit, hcount, ← hlen, List.getElem?_append_right le_rfl, Nat.sub_self, splitOn_head,
      List.takeWhile_append_of_pos hfree]

lemma Countable.toNat_line {before rest : List Char} (h : Countable (before ++ rest)) :
    (Position.counted before).line.toNat = 1 + before.count '\n' := by
  have hlines := h.lines
  rw [length_lines, List.count_append] at hlines
  exact Position.toNat_line_counted (by omega)

lemma Countable.toNat_column {before rest : List Char} (h : Countable (before ++ rest)) :
    (Position.counted before).column.toNat = 1 + (before.rtakeWhile (· != '\n')).length := by
  have hlength : (before.reverse.takeWhile (· ≠ '\n')).length =
      (before.rtakeWhile (· != '\n')).length := by
    simp only [List.rtakeWhile, List.length_reverse, ne_eq, decide_not]
    rfl
  have hcolumns := h.columns _ (List.mem_of_getElem? (splitOn_append before rest))
  rw [List.length_append] at hcolumns
  rw [← hlength]
  exact Position.toNat_column_counted (by omega)

lemma takeWhile_append {covered after : List Char} (h : covered = [] → after = []) :
    ∃ rest, (covered ++ after).takeWhile (· != '\n') = covered.takeWhile (· != '\n') ++ rest ∧
      (covered.takeWhile (· != '\n') = [] → rest = []) := by
  rw [List.takeWhile_append]
  split
  · next hall =>
    -- The line does not end in the piece.
    have hcovered : covered.takeWhile (· != '\n') = covered :=
      (List.takeWhile_prefix _).eq_of_length hall
    rw [hcovered]
    refine ⟨after.takeWhile (· != '\n'), rfl, fun hnil => ?_⟩
    rw [h hnil]
    rfl
  · exact ⟨[], (List.append_nil _).symm, fun _ => rfl⟩

lemma line_eq_take {source text : List Char} {i : Nat}
    (h : (source.splitOn '\n')[i - 1]? = some text) :
    ∃ n, line source i = text.take n ∧ ∀ c ∈ text.drop n, c = '\r' := by
  have hline : line source i = text.rdropWhile (· == '\r') := by
    rw [line, lines, List.getElem?_map, h]
    rfl
  have hparts : text.rdropWhile (· == '\r') ++ text.rtakeWhile (· == '\r') = text :=
    List.rdropWhile_append_rtakeWhile
  refine ⟨(text.rdropWhile (· == '\r')).length, ?_, fun c hc => ?_⟩
  · rw [hline]
    nth_rewrite 3 [← hparts]
    rw [List.take_left]
  · nth_rewrite 2 [← hparts] at hc
    rw [List.drop_left] at hc
    simpa using List.mem_rtakeWhile_imp (p := (· == '\r')) hc

end Source

/-! ## What a span covers on its line -/

/-- What a span covers on the line on which it starts. -/
def Span.onLine (s : Span) (source : List Char) : List Char :=
  (s.slice source).takeWhile (· != '\n')

variable {source : List Char}

lemma Span.slice_eq {s : Span} {before covered after : List Char}
    (hsource : source = before ++ covered ++ after) (hoffset : s.offset = Text.byteSize before)
    (hlen : s.len = Text.byteSize covered) : s.slice source = covered := by
  have hstop : s.stop - s.offset = Text.byteSize covered := by rw [Span.stop]; omega
  rw [Span.slice, Text.slice, hstop, hoffset, hsource, List.append_assoc, Text.splitBytes?_append]
  dsimp only
  rw [Text.splitBytes?_append]

lemma Span.Solid.divides {s : Span} (h : s.Solid source) (hcount : Source.Countable source) :
    ∃ front rest, 1 ≤ s.line.toNat ∧
      (source.splitOn '\n')[s.line.toNat - 1]? = some (front ++ s.onLine source ++ rest) ∧
      s.column.toNat - 1 = front.length ∧ (s.onLine source = [] → rest = []) := by
  obtain ⟨⟨before, covered, after, hsource, hstart, hlen⟩, hends⟩ := h
  have hoffset : s.offset = Text.byteSize before := congrArg Position.offset hstart
  rw [hsource, List.append_assoc] at hcount
  have hline : s.line.toNat = 1 + before.count '\n' := by
    rw [show s.line = _ from congrArg Position.line hstart, hcount.toNat_line]
  have hcolumn : s.column.toNat = 1 + (before.rtakeWhile (· != '\n')).length := by
    rw [show s.column = _ from congrArg Position.column hstart, hcount.toNat_column]
  have honLine : s.onLine source = covered.takeWhile (· != '\n') := by
    rw [Span.onLine, Span.slice_eq hsource hoffset hlen]
  have hafter : covered = [] → after = [] := by
    rintro rfl
    have hend := hends hlen
    rw [hoffset, hsource, Text.byteSize_append, Text.byteSize_append] at hend
    by_contra hne
    have hpos := Text.byteSize_pos hne
    omega
  obtain ⟨rest, hrest, hnone⟩ := Source.takeWhile_append hafter
  rw [← honLine] at hrest hnone
  refine ⟨before.rtakeWhile (· != '\n'), rest, by omega, ?_, by omega, hnone⟩
  rw [hline, Nat.add_sub_cancel_left, List.append_assoc, ← hrest, hsource, List.append_assoc,
    Source.splitOn_append]

/-! ## Marking -/

namespace Snippet

/-- The offending line is divided as its span says. The marked piece is what the span covers on the
line; carriage returns at the end of the line, if it covers any, are not in the piece. -/
structure Marks (source : List Char) (span : Span) (m : Marked) (returns : List Char) : Prop where
  line : m.before ++ m.piece ++ m.after = Source.line source span.line.toNat
  before : m.before = (Source.line source span.line.toNat).take (span.column.toNat - 1)
  piece : m.piece ++ returns = span.onLine source
  returned : ∀ c ∈ returns, c = '\r'
  ends : returns ≠ [] → m.after = []

lemma Marks.markWidth_eq {span : Span} {m : Marked} {returns : List Char}
    (h : Marks source span m returns) :
    markWidth source span = max 1 (m.piece.length + returns.length) := by
  have hwidth : markWidth source span = max (span.onLine source).length 1 := rfl
  rw [hwidth, ← h.piece, List.length_append, max_comm]

/-- The offending line as it is divided for rendering. -/
def marked (source : List Char) (span : Span) : Marked :=
  mark (Source.line source span.line.toNat) span.column.toNat (markWidth source span)

lemma mark_eq (line : List Char) (column width : Nat) :
    mark line column width =
      ⟨line.take (column - 1), (line.drop (column - 1)).take width,
        (line.drop (column - 1)).drop width⟩ := by
  rcases Nat.le_total (column - 1) line.length with hle | hle
  · simp only [mark, Nat.min_eq_left hle]
  · simp only [mark, Nat.min_eq_right hle, List.take_length, List.drop_length,
      List.take_of_length_le hle, List.drop_of_length_le hle]

/-- Marking the first `n` characters of a line that is divided into three. If there is nothing to
mark, the line has to end there. -/
lemma mark_take {front part rest : List Char} (n : Nat) {column width : Nat}
    (hcolumn : column - 1 = front.length) (hwidth : width = max part.length 1)
    (hrest : part = [] → rest = []) :
    mark ((front ++ (part ++ rest)).take n) column width =
      ⟨((front ++ (part ++ rest)).take n).take (column - 1), part.take (n - front.length),
        rest.take (n - front.length - part.length)⟩ := by
  rw [mark_eq, hcolumn, List.drop_take, List.drop_left]
  by_cases hpart : part = []
  · simp [hpart, hrest hpart]
  · have hlen : width = part.length := by
      have hpos := List.length_pos_iff.mpr hpart
      omega
    have hnone : min part.length (n - front.length) - part.length = 0 := by omega
    have hpiece : ((part ++ rest).take (n - front.length)).take part.length =
        part.take (n - front.length) := by
      rw [List.take_take, List.take_append, hnone, List.take_zero, List.append_nil, Nat.min_comm,
        ← List.take_take, List.take_length]
    rw [hlen, hpiece, List.drop_take, List.drop_left]

lemma marked_append (source : List Char) (span : Span) :
    (marked source span).before ++ (marked source span).piece ++ (marked source span).after =
      Source.line source span.line.toNat := by
  rw [marked, mark_eq, List.append_assoc, List.take_append_drop, List.take_append_drop]

theorem marked_marks {span : Span} (h : span.Solid source) (hcount : Source.Countable source) :
    ∃ returns, Marks source span (marked source span) returns := by
  obtain ⟨front, rest, -, hsplit, hcolumn, hrest⟩ := h.divides hcount
  set part := span.onLine source
  obtain ⟨n, hline, hreturns⟩ := Source.line_eq_take hsplit
  rw [List.append_assoc] at hline hreturns
  have hmark := mark_take n hcolumn rfl hrest
  rw [← hline] at hmark
  have hmarked : marked source span = _ := hmark
  have hwhole := marked_append source span
  rw [hmarked] at hwhole ⊢
  refine ⟨part.drop (n - front.length), hwhole, rfl, List.take_append_drop _ _, ?_, ?_⟩
  · intro c hc
    refine hreturns c ?_
    rw [List.drop_append, List.drop_append]
    exact List.mem_append_right _ (List.mem_append_left _ hc)
  · intro hne
    have hlt : n - front.length < part.length := by
      by_contra hle
      exact hne (List.drop_of_length_le (Nat.le_of_not_lt hle))
    rw [Nat.sub_eq_zero_of_le hlt.le]
    rfl

/-! ## Rendering -/

/-- A row that shows a text behind the number of its line. -/
def numbered (gutter number : Nat) (text : String) : String :=
  margin gutter (toString number) ++ text

/-- The number of the last line around a line. Behind the last word, numbers start again at zero. -/
def lastAround (source : List Char) (number : UInt32) : UInt32 :=
  min (number + 2) (Source.totalLines source)

/-- The width of the numbers of the lines around a line. -/
def gutterAround (source : List Char) (number : UInt32) : Nat :=
  (toString (lastAround source number)).length

/-- The rows for the lines around a line, which is itself shown by the given rows. -/
def around (source : List Char) (number : UInt32) (offending : List String) : List String :=
  (List.Ico (max 1 (number.toNat - 2)) ((lastAround source number).toNat + 1)).flatMap fun i =>
    if i = number.toNat then offending
    else [numbered (gutterAround source number) i (String.ofList (Source.line source i))]

/-- What a rendered diagnostic says before and after the lines of the source. -/
def framed (d : Diagnostic) (style : Style) (rows : List String) : String :=
  String.intercalate "\n" ([d.headline] ++ d.notes.map ("Note: " ++ ·) ++
    [s!"On line {d.span.line} at character {d.span.column}:"] ++ rows ++
    [footer style d.code, "----------"])

/-- Both renderings show the lines around the offending one. That line has the marked piece in
inverse video, or a blank where there is none; or it stands as it is above a row of carets. -/
structure Shows (source : List Char) (d : Diagnostic) (m : Marked) (caretRow : String) : Prop where
  plain : ∀ style : Style, render d source { style with color := false } =
    framed d style (around source d.span.line
      [numbered (gutterAround source d.span.line) d.span.line.toNat
        (String.ofList (Source.line source d.span.line.toNat)), caretRow])
  color : ∀ style : Style, render d source { style with color := true } =
    framed d style (around source d.span.line
      [numbered (gutterAround source d.span.line) d.span.line.toNat
        (String.ofList m.before ++ "\x1b[7m" ++
          String.ofList (if m.piece.isEmpty then [' '] else m.piece) ++ "\x1b[0m" ++
            String.ofList m.after)])

/-- There is a line of the given number, and the lines around it are those from two before it to two
behind it, as far as there are such lines. -/
structure Counts (source : List Char) (number : UInt32) : Prop where
  first : 1 ≤ number.toNat
  last : number.toNat ≤ (Source.lines source).length
  around : (lastAround source number).toNat = min (number.toNat + 2) (Source.lines source).length

lemma toNat_firstLine (span : Span) : (firstLine span).toNat = max 1 (span.line.toNat - 2) := by
  have hcontext : contextLines.toNat = 2 := rfl
  rw [firstLine, toNat_max, apply_ite UInt32.toNat, max_comm]
  congr 1
  split
  · next hle => rw [UInt32.toNat_sub_of_le _ _ hle, hcontext]
  · next hlt =>
    rw [UInt32.le_iff_toNat_le, hcontext] at hlt
    exact (Nat.sub_eq_zero_of_le (Nat.le_of_not_le hlt)).symm

lemma toNat_lastAround_le (source : List Char) (number : UInt32) :
    (lastAround source number).toNat ≤ (Source.totalLines source).toNat := by
  rw [lastAround, toNat_min]
  exact Nat.min_le_right _ _

lemma flatMap_rows (source : List Char) (span : Span) (color : Bool) {offending : List String}
    (h : Source.lineText? source span.line = some (Source.line source span.line.toNat) →
      rows source span color (gutterAround source span.line) span.line = offending) :
    (lineNumbers source span).flatMap (rows source span color (gutterAround source span.line)) =
      around source span.line offending := by
  have hnumbers : lineNumbers source span =
      (List.Ico (max 1 (span.line.toNat - 2))
        ((lastAround source span.line).toNat + 1)).map UInt32.ofNat := by
    rw [lineNumbers, toNat_firstLine]
    rfl
  rw [around, hnumbers, List.flatMap_map]
  refine List.flatMap_congr fun i hi => ?_
  obtain ⟨hfirst, hlast⟩ := List.Ico.mem.mp hi
  have hle := toNat_lastAround_le source span.line
  have hnumber : (UInt32.ofNat i).toNat = i :=
    UInt32.toNat_ofNat_of_lt' (Nat.lt_of_le_of_lt (Nat.le_of_lt_succ hlast) (UInt32.toNat_lt _))
  have htext : Source.lineText? source (.ofNat i) = some (Source.line source i) := by
    have hpos : 1 ≤ (UInt32.ofNat i).toNat := by omega
    have hbound : (UInt32.ofNat i).toNat ≤ (Source.totalLines source).toNat := by omega
    rw [Source.lineText?_eq hpos hbound, hnumber]
  by_cases hline : i = span.line.toNat
  · have heq : UInt32.ofNat i = span.line := by rw [hline, UInt32.ofNat_toNat]
    rw [heq, hline] at htext
    rw [if_pos hline, heq, h htext]
  · have hne : UInt32.ofNat i ≠ span.line := fun heq => hline (by rw [← heq, hnumber])
    have hshown : toString (UInt32.ofNat i) = toString i := congrArg toString hnumber
    rw [rows, htext, if_neg hline]
    dsimp only
    rw [if_pos hne, hshown, numbered]

lemma render_eq {d : Diagnostic} {source : List Char} {style : Style} {offending : List String}
    (h : Source.lineText? source d.span.line = some (Source.line source d.span.line.toNat) →
      rows source d.span style.color (gutterAround source d.span.line) d.span.line = offending) :
    render d source style = framed d style (around source d.span.line offending) := by
  rw [← flatMap_rows source d.span style.color h]
  rfl

theorem shows_marked (source : List Char) (d : Diagnostic) :
    Shows source d (marked source d.span)
      (margin (gutterAround source d.span.line) "" ++
        carets (marked source d.span) (markWidth source d.span)) := by
  refine ⟨fun style => render_eq fun htext => ?_, fun style => render_eq fun htext => ?_⟩
  · rw [rows, htext]
    simp only [ne_eq, not_true_eq_false, if_false, Bool.false_eq_true]
    rfl
  · rw [rows, htext]
    simp only [ne_eq, not_true_eq_false, if_false, if_true]
    rfl

lemma counts_of_solid {span : Span} (h : span.Solid source) (hcount : Source.Countable source) :
    Counts source span.line := by
  obtain ⟨front, rest, hfirst, hsplit, -⟩ := h.divides hcount
  have hlines := hcount.lines
  have hlast : span.line.toNat ≤ (Source.lines source).length := by
    obtain ⟨hlt, -⟩ := List.getElem?_eq_some_iff.mp hsplit
    rw [Source.lines, List.length_map]
    omega
  have htwo : (2 : UInt32).toNat = 2 := rfl
  refine ⟨hfirst, hlast, ?_⟩
  rw [lastAround, toNat_min, hcount.toNat_totalLines, UInt32.toNat_add, htwo, Nat.mod_eq_of_lt]
  exact Nat.lt_of_le_of_lt (Nat.add_le_add_right hlast 2) hlines

end Snippet

/-! ## Diagnostics of a run -/

lemma parse_honest (source : String) :
    (∀ d, (parse source).result = .error d → d.Placed source.toList) ∧
      ∀ e ∈ (parse source).journal, e.Honest source.toList := by
  have hstart := Stream.Honest.ofReader (Reader.honest_ofText source.toList)
  have hagree := agree_program (Session.sound_ofText source.toList)
  unfold parse
  cases hrun : Production.program (Session.ofText .standard source.toList)
      (Stream.ofReader (Reader.ofText source.toList)) with
  | ok e s =>
    obtain ⟨hs, -⟩ := hagree.honest_of_ok hstart hrun
    simp only [hrun]
    exact ⟨fun d hd => (by cases hd), hs.reader.events⟩
  | error d s =>
    obtain ⟨hs, hd⟩ := hagree.honest_of_error hstart hrun
    simp only [hrun]
    exact ⟨fun d' hd' => Except.error.inj hd' ▸ hd, hs.reader.events⟩

theorem parse_solid {source : String} {d : Diagnostic}
    (h : (parse source).result = .error d ∨ d ∈ (parse source).warnings) :
    d.span.Solid source.toList := by
  obtain ⟨herrors, hjournal⟩ := parse_honest source
  rcases h with herror | hwarning
  · exact (herrors d herror).solid (parse_error_ne_internal herror)
  · obtain ⟨e, he, hd⟩ := List.mem_filterMap.mp hwarning
    exact (hjournal e (Array.mem_toList_iff.mp he)).warning d hd

namespace Snippet

/-- Carets are drawn for the marked piece and for the carriage returns at the end of the line that
the span covers, which are not part of the line shown. If lines and columns fit into words, there
are as many as characters are marked, or one if there are none, just where the span covers no such
carriage return, or only a single one and nothing before it. -/
theorem carets_count_returns {source : String} {d : Diagnostic}
    (h : (parse source).result = .error d ∨ d ∈ (parse source).warnings) :
    let text := source.toList
    let count := max 1 (d.span.onLine text).length
    ∃ m : Marked, m.before ++ m.piece ++ m.after = Source.line text d.span.line.toNat ∧
      Shows text d m (margin (gutterAround text d.span.line) "" ++
        String.ofList (List.replicate m.before.length ' ' ++ List.replicate count '^')) ∧
      (Source.Countable text → Counts text d.span.line ∧
        ∃ returns, Marks text d.span m returns ∧
          count = max 1 (m.piece.length + returns.length) ∧
            (count = max 1 m.piece.length ↔ returns = [] ∨ m.piece = [] ∧ returns.length = 1)) := by
  intro text count
  have hwidth : markWidth text d.span = count := max_comm _ _
  refine ⟨_, marked_append _ _, ?_, fun hcount => ⟨counts_of_solid (parse_solid h) hcount, ?_⟩⟩
  · rw [← hwidth]
    exact shows_marked _ _
  · obtain ⟨returns, hmarks⟩ := marked_marks (parse_solid h) hcount
    have heq : count = max 1 ((marked text d.span).piece.length + returns.length) := by
      rw [← hwidth, hmarks.markWidth_eq]
    refine ⟨returns, hmarks, heq, ?_⟩
    rw [heq, ← List.length_eq_zero_iff, ← List.length_eq_zero_iff]
    omega

/-- A string of two lines where the end of the input is expected. -/
theorem carets_count_returns_string :
    let source := "a \"x\r\ny\""
    let text := source.toList
    ∃ d, (parse source).result = .error d ∧
      let count := max 1 (d.span.onLine text).length
      ∃ m : Marked, m.before ++ m.piece ++ m.after = Source.line text d.span.line.toNat ∧
        Shows text d m (margin (gutterAround text d.span.line) "" ++
          String.ofList (List.replicate m.before.length ' ' ++ List.replicate count '^')) ∧
        Counts text d.span.line ∧
        ∃ returns, Marks text d.span m returns ∧
          count = max 1 (m.piece.length + returns.length) ∧
            (count = max 1 m.piece.length ↔
              returns = [] ∨ m.piece = [] ∧ returns.length = 1) := by
  intro source text
  have herror : (parse source).result.toOption.isNone = true := by decide +kernel
  have hcountable : Source.Countable text := ⟨by decide +kernel, by decide +kernel⟩
  obtain ⟨d, hd⟩ := Outcome.eq_error_of_isNone herror
  obtain ⟨m, hwhole, hshows, hplace⟩ := carets_count_returns (.inl hd)
  exact ⟨d, hd, m, hwhole, hshows, hplace hcountable⟩

/-- Three carets stand below a line on which two characters are marked, the last ones of it. -/
theorem carets_run_past_line :
    let source := "a \"x\r\ny\""
    let text := source.toList
    ∃ d, (parse source).result = .error d ∧
      rows text d.span false 1 d.span.line = ["1 | a \"x", "  |   ^^^"] ∧
      rows text d.span true 1 d.span.line = ["1 | a \x1b[7m\"x\x1b[0m"] := by
  intro source text
  have hplace : (failure? (parse source).result).map Diagnostic.span = some ⟨2, 6, 1, 3⟩ := by
    decide +kernel
  obtain ⟨d, hd, hspan⟩ := eq_error_of_failure? hplace
  refine ⟨d, hd, ?_⟩
  rw [hspan]
  decide +kernel

end Snippet

end FrontEnd
