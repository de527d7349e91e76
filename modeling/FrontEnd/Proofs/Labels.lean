import FrontEnd.Proofs.Embedding
import FrontEnd.Proofs.Labelling

/-!
# No label is lost

A label that names a loop or a block is in the tree, at its place. There are two exceptions: a label
that directly follows another one and its colon is replaced by that one, and an operator overload
that is replaced by a later one of its symbol is lost with all its labels. This holds of the tokens
of a source, and in the same way of each expression in a template string, in template strings that
lie in one another too.
-/

namespace FrontEnd

/-! ## The labels of trees and of tokens -/

/-- The labels among some marks. -/
def labelsAmong (ms : Multiset Mark) : Multiset (Nat × String) :=
  ms.filterMap Mark.label?

/-- The marks of a program. -/
def programMarks (program : Option Expr) : Multiset Mark :=
  marksOfAll program.toList

/-- The labels of the loops and blocks of a program with their places. -/
def programLabels (program : Option Expr) : Multiset (Nat × String) :=
  labelsAmong (programMarks program)

/-- The number of the operator overloads of a program. -/
def programOverloads (program : Option Expr) : Nat :=
  (programMarks program).count .overload

/-- The label prefixes that do not directly follow another one. -/
def freshLabels (ts : List Token) : List (Nat × String) :=
  ((labelPrefixes ts).filter (!·.stacked)).map LabelPrefix.label

/-- The labels that are written in some tokens: the label prefixes that do not directly follow
another one, and the labels of the expressions in template strings. -/
def writtenLabels (ts : List Token) : Multiset (Nat × String) :=
  freshLabels ts + labelsAmong (marksOfAll (ts.flatMap Token.embedded))

/-- The number of the operator overloads that are written in some tokens. -/
def writtenOverloads (ts : List Token) : Nat :=
  ts.countP (·.kind == .kwOperator) + (marksOfAll (ts.flatMap Token.embedded)).count .overload

/-- The labels of a tree are those that are written in its tokens, each at its place, without those
in overloads that are replaced among these. No label is missing if no overload is. -/
structure LabelBalance (ts : List Token) (program : Option Expr) : Prop where
  ordered : ((labelPrefixes ts).map (·.token.span.offset)).Pairwise (· < ·)
  balanced : ∃ replaced : List (List Token), (∀ us ∈ replaced, Replaced ts us) ∧
    programLabels program + (replaced.map writtenLabels).sum = writtenLabels ts ∧
    programOverloads program + (replaced.map writtenOverloads).sum = writtenOverloads ts
  complete : programOverloads program = writtenOverloads ts →
    programLabels program = writtenLabels ts

mutual

/-- The labels of a text are in its tree, and of each expression in a template string those of its
own text are in the tree that stands for it there. -/
inductive Source.KeepsLabels : List Char → Option Expr → Prop where
  | mk {text ts program} (htokens : (tokenize (String.ofList text)).result = .ok ts)
    (hbalance : LabelBalance ts program) (h : ∀ t ∈ ts, Token.KeepsLabels t) :
    Source.KeepsLabels text program

/-- The labels that are written in a token are in its value. -/
inductive Token.KeepsLabels : Token → Prop where
  | plain {t} (hkind : t.kind ≠ .templateStringLiteral) : Token.KeepsLabels t
  | template {t body pieces} (hlexeme : t.lexeme = String.ofList ('\x60' :: body))
    (hvalue : t.value = .template (Scan.Piece.parts pieces))
    (h : Template.KeepsLabels (t.span.start.after ['\x60']) body pieces) : Token.KeepsLabels t

/-- The labels that are written in the rest of a template string, which stands at a position, are in
its pieces. -/
inductive Template.KeepsLabels : Position → List Char → List Scan.Piece → Prop where
  | close {pos} : Template.KeepsLabels pos ['\x60'] []
  | plain {pos raw content warnings next pieces}
    (htext : PlainText pos next.head? raw content warnings)
    (h : Template.KeepsLabels (pos.after raw) next pieces) :
    Template.KeepsLabels pos (raw ++ next) (.text content :: pieces)
  /-- The tree in the token is the one of the text between `${` and `}`, moved to its place. -/
  | hole {pos text tree expr next pieces} (hlabels : Source.KeepsLabels text (some tree))
    (hexpr : expr = respan (Span.translate (pos.after ['$', '{']) text) tree)
    (h : Template.KeepsLabels (pos.after ('$' :: '{' :: text ++ ['}'])) next pieces) :
    Template.KeepsLabels pos ('$' :: '{' :: text ++ '}' :: next) (.embedded expr :: pieces)

end

section Tokens

variable {s : Spot} {ts : List Token}

lemma map_snd_spots : (spots s ts).map Prod.snd = ts := by
  induction ts generalizing s with
  | nil => rfl
  | cons t ts ih => rw [spots, List.map_cons, ih]

lemma label?_mark? (t : Token) (s : Spot) :
    (t.mark? s).bind Mark.label? =
      ((t.labelPrefix? s).filter (!·.stacked)).map LabelPrefix.label := by
  unfold Token.mark? Token.labelPrefix?
  split
  · next hkind => cases s <;> simp [hkind, Mark.label?, LabelPrefix.label]
  · next hkind => simp [hkind, Mark.label?]
  · next hlabel _ =>
    rw [if_neg fun h => hlabel h.1]
    rfl

lemma marksFrom_eq : marksFrom s ts =
    ((spots s ts).filterMap fun p => p.2.mark? p.1) + marksOfAll (ts.flatMap Token.embedded) := by
  induction ts generalizing s with
  | nil => rfl
  | cons t ts ih =>
    have hcons : (((spots s (t :: ts)).filterMap fun p => p.2.mark? p.1 : List Mark) :
        Multiset Mark) =
        (t.mark? s).toList + ((spots (s.next t) ts).filterMap fun p => p.2.mark? p.1) := by
      rw [spots, List.filterMap_cons]
      cases t.mark? s <;> rfl
    rw [marksFrom_cons, ih, hcons, Token.marks, List.flatMap_cons, marksOfAll_append,
      add_add_add_comm]

lemma labels_marksFrom : labelsAmong (marksFrom .start ts) = writtenLabels ts := by
  rw [labelsAmong, marksFrom_eq, Multiset.filterMap_add, Multiset.filterMap_coe,
    List.filterMap_filterMap, writtenLabels, freshLabels, labelPrefixes, List.filter_filterMap,
    List.map_filterMap]
  simp only [label?_mark?]
  rfl

lemma overloads_marksFrom : (marksFrom s ts).count .overload = writtenOverloads ts := by
  have hkeywords : ((spots s ts).filterMap fun p => p.2.mark? p.1).count .overload =
      ts.countP (·.kind == .kwOperator) := by
    induction ts generalizing s with
    | nil => rfl
    | cons t ts ih =>
      have hmark : (t.mark? s).toList.count .overload =
          if t.kind == .kwOperator then 1 else 0 := by
        unfold Token.mark?
        split
        · next hkind => cases s <;> simp [hkind]
        · next hkind => simp [hkind]
        · next hoperator => exact (if_neg fun h => hoperator (beq_iff_eq.mp h)).symm
      rw [spots, List.filterMap_cons, List.countP_cons, ← ih (s := s.next t), ← hmark]
      cases t.mark? s <;> simp [List.count_cons, Nat.add_comm]
  rw [marksFrom_eq, Multiset.count_add, Multiset.coe_count, hkeywords, writtenOverloads]

lemma labels_sum_marksFrom (replaced : List (List Token)) :
    labelsAmong (replaced.map (marksFrom .start)).sum = (replaced.map writtenLabels).sum := by
  induction replaced with
  | nil => rfl
  | cons us replaced ih =>
    rw [List.map_cons, List.map_cons, List.sum_cons, List.sum_cons, ← ih, ← labels_marksFrom]
    exact Multiset.filterMap_add _ _ _

lemma overloads_sum_marksFrom (replaced : List (List Token)) :
    (replaced.map (marksFrom s)).sum.count .overload = (replaced.map writtenOverloads).sum := by
  rw [← Multiset.coe_countAddMonoidHom, map_list_sum, List.map_map]
  exact congrArg List.sum (List.map_congr_left fun us _ => overloads_marksFrom)

end Tokens

/-! ## The order of tokens -/

section Order

variable {source : List Char} {ts : List Token}

lemma Scan.Finds.offset_lt {embedded : Option (Scan Expr)} {c c' : Cursor} {lexed : Lexed}
    {ws : List Diagnostic} (hembedded : ForwardWithin embedded) (h : Finds embedded c lexed ws c')
    (hinner : lexed.token.isEnd = false) : lexed.token.span.offset < lexed.token.span.stop := by
  obtain ⟨-, ⟨text, hcovers⟩ | ⟨hend, -⟩⟩ := h.cases hembedded
  · have hsize := Text.byteSize_pos hcovers.ne_nil
    have hoffset := hcovers.passes.offset
    rw [hcovers.span_eq]
    simp only [Span.new, Span.stop]
    omega
  · rw [hinner] at hend
    cases hend

lemma Consecutive.increasing (h : Consecutive source ts) :
    ts.Pairwise fun t u => t.isEnd = false → t.span.offset < u.span.offset := by
  obtain ⟨depth, c, run, ws, c', hc, hrun, rfl⟩ := h
  have hforward := forwardWithin_embeddedReader depth
  refine (hrun.ordered hforward).imp_of_mem fun ht _ hle hinner => ?_
  obtain ⟨lexed, hlexed, rfl⟩ := List.mem_map.mp ht
  obtain ⟨c₁, ws₁, c₂, hfinds⟩ := hrun.finds hlexed
  exact Nat.lt_of_lt_of_le (hfinds.offset_lt hforward hinner) hle

lemma Consecutive.labelPrefixes_ordered (h : Consecutive source ts) :
    ((labelPrefixes ts).map (·.token.span.offset)).Pairwise (· < ·) := by
  have hspots : ((spots .start ts).map Prod.snd).Pairwise fun t u =>
      t.isEnd = false → t.span.offset < u.span.offset := by
    rw [map_snd_spots]
    exact h.increasing
  have hread {t : Token} {s : Spot} {p : LabelPrefix} (hp : t.labelPrefix? s = some p) :
      p.token = t ∧ t.isEnd = false := by
    unfold Token.labelPrefix? at hp
    split at hp <;> cases hp
    next hlabel => exact ⟨rfl, by rw [Token.isEnd, hlabel.1]; rfl⟩
  rw [List.pairwise_map, labelPrefixes, List.pairwise_filterMap]
  refine (List.pairwise_map.mp hspots).imp fun hlt p hp q hq => ?_
  rw [(hread hp).1, (hread hq).1]
  exact hlt (hread hp).2

end Order

/-! ## Sources -/

section Sources

variable {text : List Char} {ts : List Token}

/-- The tokens that spell an expression keep its labels. -/
lemma Phrase.labelBalance {least : Precedence} {e : Expr} (h : Phrase .spoken least ts e)
    (hts : Consecutive text ts) : LabelBalance ts (some e) := by
  have hphrase := h.mono (Language.spoken_included Language.closed_labelling)
  have hremainder := hphrase.labelling.tags.remainder
  have hmarks : programMarks (some e) = e.marks := add_zero _
  refine ⟨hts.labelPrefixes_ordered, ?_, fun hcount => ?_⟩
  · obtain ⟨replaced, hreplaced, hsum⟩ := hremainder
    refine ⟨replaced, hreplaced, ?_, ?_⟩
    · rw [programLabels, hmarks, ← labels_marksFrom, ← hsum, ← labels_sum_marksFrom]
      exact (Multiset.filterMap_add _ _ _).symm
    · rw [programOverloads, hmarks, ← overloads_marksFrom (s := .start), ← hsum,
        Multiset.count_add, overloads_sum_marksFrom]
  · rw [programOverloads, hmarks, ← overloads_marksFrom (s := .start)] at hcount
    rw [programLabels, hmarks, hremainder.eq_of_count hcount, labels_marksFrom]

lemma labelBalance_of_parse {program : Option Expr}
    (h : (parse (String.ofList text)).result = .ok program) :
    ∃ ts, (tokenize (String.ofList text)).result = .ok ts ∧ LabelBalance ts program := by
  obtain ⟨ts, htokens, -, hphrase⟩ := parse_eq_ok (Language.closed_spoken _) h
  refine ⟨ts, htokens, ?_⟩
  obtain ⟨run, ws, ⟨-, c, last, c', hrun, -⟩, hts⟩ := whole_of_tokenize htokens
  cases hphrase with
  | empty => exact ⟨.nil, ⟨[], List.forall_mem_nil _, rfl, rfl⟩, fun _ => rfl⟩
  | expr hphrase =>
    exact hphrase.labelBalance ⟨_, _, run, _, _, Cursor.reads_ofText _, hrun, hts.symm⟩

lemma TemplateBody.keepsLabels {pos : Position} {body : List Char} {pieces : List Scan.Piece}
    {events : List Event} (h : TemplateBody pos body pieces events)
    (hinner : ∀ {text program}, text.length < body.length →
      (parse (String.ofList text)).result = .ok program → Source.KeepsLabels text program) :
    Template.KeepsLabels pos body pieces := by
  induction h with
  | close => exact .close
  | plain htext h ih =>
    refine .plain htext (ih fun hlength => hinner (Nat.lt_of_lt_of_le hlength ?_))
    rw [List.length_append]
    exact Nat.le_add_left _ _
  | @hole pos text expr during next pieces events halone h ih =>
    obtain ⟨⟨tree, hparse, hexpr⟩, -⟩ := halone
    refine .hole (hinner ?_ hparse) hexpr (ih fun hlength => hinner (Nat.lt_trans hlength ?_)) <;>
      simp only [List.length_append, List.length_cons] <;> omega

lemma keepsLabels_of_parse {program : Option Expr}
    (h : (parse (String.ofList text)).result = .ok program) :
    Source.KeepsLabels text program := by
  induction hlength : text.length using Nat.strong_induction_on generalizing text program with
  | _ n ih =>
    obtain ⟨ts, htokens, hbalance⟩ := labelBalance_of_parse h
    refine .mk htokens hbalance fun t ht => ?_
    by_cases hkind : t.kind = .templateStringLiteral
    · obtain ⟨r, r', ⟨before, hsource, -⟩, hhere, -⟩ := found_of_tokenize htokens ht
      obtain ⟨hquote, hliteral⟩ := Scan.tokenHere_template hhere hkind
      obtain ⟨body, pieces, events, hpasses, hstart, hlexeme, hvalue, -, hbody⟩ :=
        Scan.templateLiteral_body hquote hliteral
      refine .template hlexeme hvalue ?_
      rw [hstart]
      refine hbody.keepsLabels fun hshorter hparse => ih _ ?_ hparse rfl
      -- The template string lies in the text, and the expression in the template string.
      rw [String.toList_ofList] at hsource
      rw [← hlength, hsource, hpasses.1]
      simp only [List.length_append, List.length_cons]
      omega
    · exact .plain hkind

end Sources

/-- No label is lost, none is invented, and each is in its place: the labels of the loops and blocks
of a source that is parsed are its label prefixes, except those that directly follow another one and
those in overloads that are replaced. The same holds of the text of each expression in a template
string of it. -/
theorem labels_kept {source : String} {program : Option Expr}
    (h : (parse source).result = .ok program) : Source.KeepsLabels source.toList program := by
  rw [← String.ofList_toList (s := source)] at h
  exact keepsLabels_of_parse h

/-- A labelled loop in another one, a label in an operator overload and one in a template string of
a template string. -/
theorem labels_kept_nested :
    let source := "#a: for x in y \x7b #b: loop \x7b break #a \x7d \x7d; class A \x7b operator " ++
      "-() A \x7b #c: \x7b\x7d \x7d \x7d; `$\x7b`$\x7b#d: \x7b\x7d\x7d`\x7d`"
    ∃ program, (parse source).result = .ok program ∧ Source.KeepsLabels source.toList program ∧
      programLabels program = {(0, "a"), (17, "b"), (69, "c"), (87, "d")} := by
  intro source
  have hparse : (parse source).result.toOption.map programLabels =
      some {(0, "a"), (17, "b"), (69, "c"), (87, "d")} := by
    decide +kernel
  obtain ⟨program, hprogram, hlabels⟩ := Outcome.eq_ok_of_map hparse
  exact ⟨program, hprogram, labels_kept hprogram, hlabels⟩

/-- A label that directly follows another one is lost, though a `break` refers to it; so are those
in an operator overload that a later one replaces. -/
theorem label_dropped :
    let stacked := "#a: #b: \x7b break #b \x7d"
    let replaced := "class A \x7b operator -() A \x7b #x: \x7b\x7d \x7d, " ++
      "operator -(o: A) A \x7b\x7d \x7d";
    ((tokenize stacked).result.toOption.map fun ts => (labelPrefixes ts).map LabelPrefix.label) =
        some [(0, "a"), (4, "b")] ∧
      (parse stacked).result.toOption.map programLabels = some {(0, "a")} ∧
      ((tokenize replaced).result.toOption.map fun ts =>
        (labelPrefixes ts).map LabelPrefix.label) = some [(27, "x")] ∧
      (parse replaced).result.toOption.map programLabels = some 0 := by
  decide +kernel

end FrontEnd
