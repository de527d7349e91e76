import FrontEnd.Proofs.Answers
import FrontEnd.Proofs.Eager
import FrontEnd.Proofs.Traces

/-!
# Names that are missed

Behind the keyword of a class or trait, its name is read as a pattern. What is no name is refused at
its first token: the parser goes back to the keyword and looks at the token behind it, which is in
the buffer already. Only where an expression in a template string stands in the way has no token
been found behind the keyword; the reader has then been left inside the template string, and what it
finds there is refused. The journal of the run tells at which keyword that happens: the definition
is the last production that has been entered and not ended.
-/

namespace FrontEnd

open Parse Production

/-! ## Places of names -/

/-- A cursor on a source that leaves no more to read than some depth. -/
structure Cursor.Within (source : List Char) (depth : Nat) (c : Cursor) : Prop where
  reads : c.Reads source
  length_le : c.rest.length ≤ depth

namespace Cursor.Within

variable {source : List Char} {depth : Nat} {c c' : Cursor}

lemma leads (h : c.Within source depth) (hleads : c.Leads c') : c'.Within source depth :=
  ⟨h.reads.leads hleads, Nat.le_trans hleads.length_le h.length_le⟩

lemma deeper (h : c.Within source depth) : c.Within source (depth + 1) :=
  ⟨h.reads, Nat.le_succ_of_le h.length_le⟩

lemma ofText (source : List Char) : (Cursor.ofText source).Within source source.length :=
  ⟨reads_ofText source, Nat.le_refl _⟩

end Cursor.Within

/-- The keywords behind which a definition has its name. -/
def Production.BodyKind.Keyword : BodyKind → TokenKind → Prop
  | .ofClass, kind => kind = .kwClass ∨ kind = .kwStruct
  | .ofTrait, kind => kind = .kwTrait

lemma Grammar.Heads.keyword {body : BodyKind} {t : Token} (h : Grammar.standard.Heads body t) :
    body.Keyword t.kind := by
  cases body with
  | ofClass =>
    change standardOpening? t.kind = _ at h
    cases hkind : t.kind <;> rw [hkind] at h <;> first
      | exact .inl rfl
      | exact .inr rfl
      | cases h
  | ofTrait =>
    rcases h with h | ⟨hstructural, h⟩
    · exact h
    · change standardOpening? t.kind = _ at h
      cases hkind : t.kind <;> rw [hkind] at h <;> first
        | rfl
        | exact absurd hkind hstructural
        | cases h

/-- A definition that starts with the first token has its name at the cursor: its keyword, which may
be the second token, is found in front of it. -/
def NamePlace (source : List Char) (depth : Nat) (body : BodyKind) (first : Token) (c : Cursor) :
    Prop :=
  ∃ c₀ keyword ws, c₀.Within source depth ∧
    Scan.Finds (embeddedReader .standard depth) c₀ keyword ws c ∧ body.Keyword keyword.token.kind ∧
      (first = keyword.token ∨ first.kind = .kwStructural ∧ keyword.token.kind = .kwTrait ∧
        ∃ c₁ lexed us, c₁.Within source depth ∧
          Scan.Finds (embeddedReader .standard depth) c₁ lexed us c₀ ∧ lexed.token = first)

/-- At a cursor the scanner is stopped by the parser, which fails on an expression in a template
string; where it is left, the token is found. -/
def StuckBefore (source : List Char) (depth : Nat) (c : Cursor) (token : Token) : Prop :=
  ∃ r d r', r.cursor = c ∧ Scan.token (embeddedReader .standard depth) r = .error d r' ∧
    d.stage = .parser ∧ r'.cursor.Within source depth ∧
      ∃ start ws c', Scan.Finds (embeddedReader .standard depth) r'.cursor ⟨token, start⟩ ws c'

section Tokens

variable {source : List Char} {depth : Nat} {c c' : Cursor} {lexed : Lexed} {ws : List Diagnostic}
variable {r r' : Reader} {t : Token}

lemma Scan.Finds.token (h : Finds (embeddedReader .standard depth) c lexed ws c')
    (hdepth : c.rest.length ≤ depth) (hr : r.cursor = c) :
    ∃ r', Scan.token (embeddedReader .standard depth) r = .ok lexed.token r' ∧ r'.cursor = c' := by
  obtain ⟨r₁, r₂, hgap, -, hhere, hend, -⟩ := h.again hdepth hr
  refine ⟨r₂, ?_, hend⟩
  rw [Scan.token, bind_apply, hgap]
  exact hhere

lemma Scan.finds_of_token (h : token (embeddedReader .standard depth) r = .ok t r') :
    ∃ start ws, Finds (embeddedReader .standard depth) r.cursor ⟨t, start⟩ ws r'.cursor := by
  obtain ⟨_, r₁, hgap, hhere⟩ := bind_eq_ok h
  obtain ⟨ws, hfinds, -⟩ := finds_of_ok (forwardWithin_embeddedReader depth) hgap hhere
  exact ⟨r₁.cursor, ws, hfinds⟩

end Tokens

/-! ## Journals -/

namespace Journal

variable {j j₁ j₂ : Journal} {token : Token}

/-- The productions that are entered on the way from one journal to another end there. -/
def Nests (j j' : Journal) : Prop :=
  ∃ es, j.Adds es j' ∧ Matched (productions es)

lemma Nests.trans (h : j.Nests j₁) (h' : j₁.Nests j₂) : j.Nests j₂ := by
  obtain ⟨es, hadds, hes⟩ := h
  obtain ⟨es', hadds', hes'⟩ := h'
  exact ⟨es ++ es', hadds.append hadds', by rw [productions_append]; exact hes.append hes'⟩

/-- The last production that has been entered and has not ended starts with the token. -/
def Inside (j : Journal) (token : Token) : Prop :=
  ∃ (production : String) (j₀ : Journal),
    Nests (j₀.push (.enter production token.lexeme token.span)) j

lemma Inside.nests (h : j.Inside token) (h' : j.Nests j₁) : j₁.Inside token := by
  obtain ⟨production, j₀, hnests⟩ := h
  exact ⟨production, j₀, hnests.trans h'⟩

/-- A run has failed inside of the production that starts with the token: since then, productions
have ended only, and none with success. -/
def FailsInside (j : Journal) (token : Token) : Prop :=
  ∃ (j₀ : Journal) (es : List Event), j₀.Inside token ∧ j₀.Adds es j ∧
    ∀ e ∈ es, ∃ production, e = .leave production false

lemma Inside.failsInside (h : j.Inside token) : j.FailsInside token :=
  ⟨j, [], h, .nil j, nofun⟩

lemma FailsInside.leave (h : j.FailsInside token) (production : String) :
    FailsInside (j.push (.leave production false)) token := by
  obtain ⟨j₀, es, hinside, hadds, hes⟩ := h
  refine ⟨j₀, es ++ [.leave production false], hinside, hadds.append (.push j _), ?_⟩
  exact List.forall_mem_append.mpr ⟨hes, List.forall_mem_singleton.mpr ⟨production, rfl⟩⟩

end Journal

section Nesting

variable {α : Type} {depth : Nat} {σ : Session} {s s' : Stream} {r r' : Reader}

lemma Scan.nests_of_ok {t : Token} (h : token (embeddedReader .standard depth) r = .ok t r') :
    r.journal.Nests r'.journal := by
  have hC := lawful_tracesChronicle
  have hm := hC.onReaders.token (hC.onReaders.behind (hC.embeddedExpression depth)) (r := r)
  unfold Scan.Account.Bears at hm
  rw [h] at hm
  obtain ⟨es, hadds, hes, -⟩ := hm
  exact ⟨es, hadds, hes⟩

variable {m : Parse α} [Told True m] (hembedded : σ.embedded = embeddedReader .standard depth)
include hembedded

lemma Parse.nests_of_ok {a : α} (h : m σ s = .ok a s') :
    s.reader.journal.Nests s'.reader.journal := by
  have hm := lawful_tracesChronicle.bears m
    (hembedded ▸ lawful_tracesChronicle.embeddedExpression depth) s
  unfold Account.Bears at hm
  rw [h] at hm
  obtain ⟨es, hadds, hes, -⟩ := hm
  exact ⟨es, hadds, hes⟩

lemma Parse.nests_of_error {d : Diagnostic} (h : m σ s = .error d s') :
    s.reader.journal.Nests s'.reader.journal := by
  have hm := lawful_tracesChronicle.bears m
    (hembedded ▸ lawful_tracesChronicle.embeddedExpression depth) s
  unfold Account.Bears at hm
  rw [h] at hm
  exact hm

omit [Told True m] in
lemma Stream.Entered.inside {first keyword : Token} (h : s.Entered σ first keyword) :
    s.reader.journal.Inside first := by
  cases h with
  | keyword => exact ⟨_, _, [], .nil _, .nil⟩
  | structural hrun => exact ⟨_, _, nests_of_ok hembedded hrun⟩

end Nesting

/-! ## Readers -/

/-- A diagnostic is about the token that is found where the name of a definition should stand, or
where the scanner has been left that was stuck there. The run has failed inside of the
definition. -/
def Missed (source : List Char) (j : Journal) (d : Diagnostic) : Prop :=
  ∃ depth body first c, j.FailsInside first ∧ NamePlace source depth body first c ∧
    d.code = body.badName.1 ∧
      ((∃ lexed ws c', Scan.Finds (embeddedReader .standard depth) c lexed ws c' ∧
          lexed.token.kind ≠ .identifier ∧ d.span = lexed.token.span) ∨
        ∃ token, StuckBefore source depth c token ∧ d.span = token.span)

lemma Missed.leave {source : List Char} {j : Journal} {d : Diagnostic} (h : Missed source j d)
    (production : String) : Missed source (j.push (.leave production false)) d := by
  obtain ⟨depth, body, first, c, hfails, hrest⟩ := h
  exact ⟨depth, body, first, c, hfails.leave production, hrest⟩

/-- A reader stays on its source, also where the parser fails, and names are missed where they
should stand. -/
def namesAccount (source : List Char) (depth : Nat) : Scan.Account where
  ok r r' := r.cursor.Within source depth → r'.cursor.Within source depth
  error r d r' := r.cursor.Within source depth →
    (d.stage = .parser → r'.cursor.Within source depth) ∧
      (d.code.Nameless → Missed source r'.journal d)

section Readers

variable {source : List Char} {depth : Nat}

lemma lawful_namesAccount : (namesAccount source depth).Lawful where
  trans h h' hr := h' (h hr)
  lose h h' hr := h' (h hr)
  quiet hleads _ hr := hr.leads hleads
  fault hfault hstage _ _ :=
    ⟨fun h => absurd h hstage, fun h => absurd (hfault.nameless h) hstage⟩
  warned _ _ hleads _ _ hr := hr.leads hleads

lemma tells_within {α : Type} {r : Reader} {o : EStateM.Result Diagnostic Reader α}
    (h : r.cursor.Within source depth → (namesAccount source depth).Tells r o) :
    (namesAccount source depth).Tells r o := by
  cases o with
  | ok a r' => exact fun hr => h hr hr
  | error d r' => exact fun hr => h hr hr

end Readers

/-! ## Streams -/

section Streams

variable {source : List Char} {depth : Nat} {K : Setting} {s s₁ s₂ s' : Stream}

lemma exists_append_of_getElem? {α : Type} {xs : List α} {i : Nat} {x : α}
    (h : xs[i]? = some x) : ∃ front rest, xs = front ++ x :: rest ∧ front.length = i := by
  obtain ⟨hlt, rfl⟩ := List.getElem?_eq_some_iff.mp h
  refine ⟨xs.take i, xs.drop (i + 1), ?_, ?_⟩
  · rw [← List.drop_eq_getElem_cons, List.take_append_drop]
  · rw [List.length_take, Nat.min_eq_left (Nat.le_of_lt hlt)]

lemma getElem?_buffer_of_prefix {i : Nat} {lexed : Lexed}
    (h : s.buffer.toList <+: s'.buffer.toList) (hnext : s.buffer[i]? = some lexed) :
    s'.buffer[i]? = some lexed := by
  obtain ⟨more, hmore⟩ := h
  rw [← Array.getElem?_toList] at hnext ⊢
  rw [← hmore, List.getElem?_append_left (List.getElem?_eq_some_iff.mp hnext).1, hnext]

/-- A stream keeps the tokens that have been found. -/
def keptOnStreams : Account where
  ok s s' := s.buffer.toList <+: s'.buffer.toList
  error s _ s' := s.buffer.toList <+: s'.buffer.toList

/-- A stream holds the tokens of its source, stays there also where the parser fails, and names are
missed where they should stand. -/
def namesOnStreams (K : Setting) (source : List Char) (depth : Nat) : Account where
  ok s s' := K.Holds [] s → K.Holds [] s'
  error s d s' := K.Holds [] s →
    (d.stage = .parser → s'.reader.cursor.Within source depth) ∧
      (d.code.Nameless → Missed source s'.reader.journal d)

lemma kept_peekAhead {σ : Session} (n : Nat) (s : Stream) :
    keptOnStreams.Bears σ s (peekAhead n) := by
  have hkept := (peekAhead_extends n σ s).buffer
  rw [Parse.after] at hkept
  unfold Account.Bears
  cases hrun : peekAhead n σ s <;> rwa [hrun] at hkept

lemma lawful_keptOnStreams {σ : Session} : keptOnStreams.Lawful σ False where
  refl _ := List.prefix_refl _
  trans := List.IsPrefix.trans
  lose := List.IsPrefix.trans
  fault _ _ _ := List.prefix_refl _
  peek := kept_peekAhead 0
  peekPast _ _ := kept_peekAhead 1 _
  step _ := List.prefix_refl _
  traced h := h
  traced_error h := h
  warned _ _ _ := List.prefix_refl _
  name := False.elim

/-- A pattern is not read if its first token is not found. If that is a name, it is the pattern. -/
lemma pattern_cases {σ : Session} (hgrammar : σ.grammar = .standard) (s : Stream) :
    (∃ d s₁, peek σ s = .error d s₁ ∧ pattern σ s = .error d s₁) ∨
      (∃ d s₁, pattern σ s = .error d s₁ ∧ d.stage ≠ .parser) ∨
        ∃ t s₁, peek σ s = .ok t s₁ ∧ pattern σ s = pattern σ s₁ ∧
          (t.kind = .identifier →
            ∃ p s₂, pattern σ s₁ = .ok p s₂ ∧ p.simpleName? = some t.ident) := by
  have happly (s : Stream) : pattern σ s = patternWithin σ.limit σ s := rfl
  cases hlimit : σ.limit with
  | zero =>
    refine .inr (.inl ⟨.internal s.previousSpan "the parser does not get to an end", s, ?_, nofun⟩)
    rw [happly, hlimit]
    rfl
  | succ fuel =>
    have hopener (s : Stream) : patternOpener σ s =
        accept (fun t => (σ.grammar.pattern? t.kind).map (t, ·)) noPattern σ s := rfl
    have hlayer (s : Stream) : pattern σ s = patternLayer (patternWithin fuel) σ s := by
      rw [happly, hlimit]
      rfl
    cases hpeek : peek σ s with
    | error d s₁ =>
      refine .inl ⟨d, s₁, rfl, ?_⟩
      rw [hlayer, patternLayer, bind_apply, hopener, accept_apply, hpeek]
    | ok t s₁ =>
      refine .inr (.inr ⟨t, s₁, rfl, ?_, fun hkind => ?_⟩)
      · rw [hlayer, hlayer, patternLayer, bind_apply, bind_apply, hopener, hopener, accept_apply,
          accept_apply, hpeek, peek_again hpeek]
      · rw [hlayer, patternLayer, bind_apply, hopener, accept_apply, peek_again hpeek]
        dsimp only
        rw [hgrammar, hkind]
        exact ⟨_, _, rfl, rfl⟩

namespace Setting

/-! ### The token behind a keyword -/

section Back

variable (hstart : K.start.cursor.Within source depth)
variable (hembedded : K.session.embedded = embeddedReader .standard depth)
variable {body : BodyKind} {first keyword : Token}
include hembedded hstart

/-- Behind the keyword of a definition, a token has been found, or else the reader stands there. -/
lemma Holds.namePlace (h : K.Holds [] s₁) (hkept : s.buffer.toList <+: s₁.buffer.toList)
    (hs : s.Behind keyword) (hheads : K.session.grammar.Heads body keyword)
    (hentered : s.Entered K.session first keyword) :
    ∃ c, NamePlace source depth body first c ∧
      ((∃ lexed ws c', s₁.buffer[s.index]? = some lexed ∧
          Scan.Finds K.session.embedded c lexed ws c') ∨
        s₁.buffer[s.index]? = none ∧ s₁.reader.cursor = c) := by
  obtain ⟨i, lexed, hindex, hkeyword, rfl⟩ := hs
  obtain ⟨ws, hrun, -⟩ := h.run
  have hfound {k : Nat} {x : Lexed} (hx : s.buffer[k]? = some x) :
      s₁.buffer.toList[k]? = some x := by
    rw [Array.getElem?_toList, getElem?_buffer_of_prefix hkept hx]
  obtain ⟨front, rest, hsplit, rfl⟩ := exists_append_of_getElem? (hfound hkeyword)
  have hnext : s₁.buffer[s.index]? = rest[0]? := by
    rw [← Array.getElem?_toList, hsplit, hindex, List.getElem?_append_right (Nat.le_succ _),
      Nat.succ_sub (Nat.le_refl _), Nat.sub_self, List.getElem?_cons_succ]
  rw [hsplit] at hrun
  obtain ⟨c₀, us, vs, hfront, hback, -⟩ := Scan.run_append.mp hrun
  obtain _ | @⟨_, _, ws₀, c, _, _, _, hfinds, hrest⟩ := hback
  refine ⟨c, ⟨c₀, lexed, ws₀, hstart.leads (hfront.leads K.forward), hembedded ▸ hfinds,
    (K.grammar ▸ hheads : Grammar.standard.Heads body lexed.token).keyword, ?_⟩, ?_⟩
  · cases hentered with
    | keyword => exact .inl rfl
    | structural hrun hfirst hkind hpassed =>
      -- The word before the keyword is the last token in front of it.
      obtain ⟨k, earlier, hk, hearlier, rfl⟩ := hpassed
      have hlast := hfound hearlier
      rw [hsplit, List.getElem?_append_left (by omega)] at hlast
      obtain ⟨front, more, rfl, rfl⟩ := exists_append_of_getElem? hlast
      obtain rfl : more = [] := by
        rw [List.length_append, List.length_cons] at hindex
        exact List.eq_nil_of_length_eq_zero (by omega)
      obtain ⟨c₁, us₁, us₂, hbefore, hone, -⟩ := Scan.run_append.mp hfront
      obtain _ | @⟨_, _, us₃, c₂, _, _, _, hfinds', hnone⟩ := hone
      cases hnone
      exact .inr ⟨hfirst, hkind, c₁, earlier, us₃, hstart.leads (hbefore.leads K.forward),
        hembedded ▸ hfinds', rfl⟩
  · cases hrest with
    | nil => exact .inr ⟨hnext, rfl⟩
    | @cons _ lexed _ _ _ _ _ hfinds' hrest' => exact .inl ⟨lexed, _, _, hnext, hfinds'⟩

/-- A token that is no name is refused. -/
lemma Holds.refuses {s₂ : Stream} {lexed : Lexed} (h : K.Holds [] s₁)
    (hkept : s.buffer.toList <+: s₁.buffer.toList) (hnext : s₁.buffer[s.index]? = some lexed)
    (hkind : lexed.token.kind ≠ .identifier)
    (hkept' : s₁.buffer.toList <+: s₂.buffer.toList)
    (hwithin : s₂.reader.cursor.Within source depth)
    (hnests : s.reader.journal.Nests s₂.reader.journal)
    (hs : s.Behind keyword) (hheads : K.session.grammar.Heads body keyword)
    (hentered : s.Entered K.session first keyword) :
    (namesOnStreams K source depth).Tells s ((refuseNext body.badName.1 body.badName.2 :
      Parse Ident) K.session { s₂ with index := s.index }) := by
  obtain ⟨c, hplace, hcases⟩ := h.namePlace hstart hembedded hkept hs hheads hentered
  have hinside := (hentered.inside hembedded).nests hnests
  have hfound := getElem?_buffer_of_prefix hkept' hnext
  rcases hcases with ⟨lexed', ws, c', hnext', hfinds⟩ | ⟨hnone, -⟩
  · obtain rfl : lexed = lexed' := Option.some_inj.mp (hnext.symm.trans hnext')
    rw [refuseNext_apply, peek_of_buffered (s := { s₂ with index := s.index }) hfound]
    exact fun _ => ⟨fun _ => hwithin, fun _ => ⟨depth, body, first, c, hinside.failsInside,
      hplace, rfl, .inl ⟨lexed, ws, c', hembedded ▸ hfinds, hkind, rfl⟩⟩⟩
  · rw [hnone] at hnext
    cases hnext

/-- Where no token is found, the next one behind the place where the reader has been left is
refused. -/
lemma Holds.refuses_stuck {d : Diagnostic} (h : K.Holds [] s)
    (htoken : ∀ r, (namesAccount source depth).Bears r (Scan.token K.session.embedded))
    (hpeek : peek K.session s = .error d s₁) (hstage : d.stage = .parser)
    (hwithin : s₁.reader.cursor.Within source depth)
    (hnests : s.reader.journal.Nests s₁.reader.journal)
    (hs : s.Behind keyword) (hheads : K.session.grammar.Heads body keyword)
    (hentered : s.Entered K.session first keyword) :
    (namesOnStreams K source depth).Tells s ((refuseNext body.badName.1 body.badName.2 :
      Parse Ident) K.session { s₁ with index := s.index }) := by
  obtain ⟨c, hplace, hcases⟩ :=
    h.namePlace hstart hembedded (List.prefix_refl _) hs hheads hentered
  have hinside := (hentered.inside hembedded).nests hnests
  rcases hcases with ⟨lexed, -, -, hnext, -⟩ | ⟨hnext, rfl⟩
  · rw [peek_of_buffered hnext] at hpeek
    cases hpeek
  -- The keyword is the last token in the buffer.
  have hsize : s.index - s.buffer.size = 0 := by
    obtain ⟨i, lexed, hindex, hkeyword, -⟩ := hs
    obtain ⟨hlt, -⟩ := Array.getElem?_eq_some_iff.mp hkeyword
    omega
  have hlast (s : Stream) : Parse.scanPast 0 K.session s = Parse.scanNext K.session s := rfl
  rw [peek, peekAhead_apply, Nat.add_zero, hnext, hsize] at hpeek
  obtain ⟨hstuck, hbuffer, -⟩ := token_of_scanNext_error hpeek
  rw [refuseNext_apply, peek, peekAhead_apply, Nat.add_zero, hbuffer, hnext, hsize]
  dsimp only
  rw [hlast]
  have hread := htoken s₁.reader
  unfold Scan.Account.Bears at hread
  cases hrun : Parse.scanNext K.session ⟨s₁.reader, s.buffer, s.index⟩ with
  | error d s₂ =>
    obtain ⟨hfails, -, -⟩ := token_of_scanNext_error hrun
    rw [hfails] at hread
    exact fun _ => hread hwithin
  | ok t s₂ =>
    have hfound := token_of_scanNext hrun
    rw [hfound] at hread
    rw [hembedded] at hfound hstuck
    obtain ⟨start, ws, hfinds⟩ := Scan.finds_of_token hfound
    exact fun _ => ⟨fun _ => hread hwithin, fun _ => ⟨depth, body, first, _,
      (hinside.nests (Scan.nests_of_ok hfound)).failsInside, hplace, rfl,
      .inr ⟨t, ⟨_, d, _, rfl, hstuck, hstage, hwithin, start, ws, _, hfinds⟩, rfl⟩⟩⟩

end Back

/-! ### Names -/

section Names

variable (hstart : K.start.cursor.Within source depth)
variable (hembedded : K.session.embedded = embeddedReader .standard depth)
variable (htoken : ∀ r, (namesAccount source depth).Bears r (Scan.token K.session.embedded))

lemma tells_holds {α : Type} {o : EStateM.Result Diagnostic Stream α}
    (h : K.Holds [] s → (namesOnStreams K source depth).Tells s o) :
    (namesOnStreams K source depth).Tells s o := by
  cases o with
  | ok a s' => exact fun hs => h hs hs
  | error d s' => exact fun hs => h hs hs

include hstart

lemma Holds.within (h : K.Holds [] s) : s.reader.cursor.Within source depth := by
  obtain ⟨ws, hrun, -⟩ := h.run
  exact hstart.leads (hrun.leads K.forward)

include htoken

lemma names_peekAhead (n : Nat) (s : Stream) :
    (namesOnStreams K source depth).Bears K.session s (peekAhead n) := by
  have htrans {s₁ s₂ s₃} (h : (namesOnStreams K source depth).ok s₁ s₂)
      (h' : (namesOnStreams K source depth).ok s₂ s₃) :
      (namesOnStreams K source depth).ok s₁ s₃ := fun hs => h' (h hs)
  have hlose {s₁ s₂ d s₃} (h : (namesOnStreams K source depth).ok s₁ s₂)
      (h' : (namesOnStreams K source depth).error s₂ d s₃) :
      (namesOnStreams K source depth).error s₁ d s₃ := fun hs => h' (h hs)
  refine Account.bears_peekAhead htrans hlose (fun s => ?_) (fun _ hs => hs) n s
  unfold Account.Bears
  cases hscan : Parse.scanNext K.session s with
  | ok t s' =>
    intro hs
    have hnext := hs.scanNext
    rw [hscan] at hnext
    exact hnext.1
  | error d s' =>
    intro hs
    have hread := htoken s.reader
    unfold Scan.Account.Bears at hread
    rw [(token_of_scanNext_error hscan).1] at hread
    exact hread (hs.within hstart)

lemma lawful_namesOnStreams : (namesOnStreams K source depth).Lawful K.session False where
  refl _ hs := hs
  trans h h' hs := h' (h hs)
  lose h h' hs := h' (h hs)
  fault _ _ hplain hs := ⟨fun _ => hs.within hstart, fun h => absurd h hplain.not_nameless⟩
  peek := names_peekAhead hstart htoken 0
  peekPast _ _ := names_peekAhead hstart htoken 1 _
  step _ hs := hs.moved _
  traced h hs := (h (hs.record fun _ => rfl)).record fun _ => rfl
  traced_error h hs := by
    obtain ⟨hwithin, hmissed⟩ := h (hs.record fun _ => rfl)
    exact ⟨hwithin, fun hcode => (hmissed hcode).leave _⟩
  warned body _ _ hs := (hs.moved _).record fun _ => by cases body <;> rfl
  name := False.elim

include hembedded

/-- Names are missed where they should stand. -/
lemma namesOnStreams_definitionName {body : BodyKind} {first keyword : Token}
    (hs : s.Behind keyword) (hheads : K.session.grammar.Heads body keyword)
    (hentered : s.Entered K.session first keyword) :
    (namesOnStreams K source depth).Bears K.session s (definitionName body) := by
  refine tells_holds fun hholds => ?_
  have hnames := Told.bears (m := pattern) (lawful_namesOnStreams hstart htoken) s
  unfold Account.Bears at hnames
  rw [definitionName_apply]
  rcases pattern_cases K.grammar s with ⟨d, s₁, hpeek, hpattern⟩ | ⟨d, s₁, hpattern, hstage⟩ |
    ⟨t, s₁, hpeek, hsame, hname⟩
  · have hnests := nests_of_error hembedded hpattern
    rw [hpattern] at hnames ⊢
    dsimp only
    by_cases hstage : d.stage = .parser
    · rw [if_pos hstage]
      exact hholds.refuses_stuck hstart hembedded htoken hpeek hstage ((hnames hholds).1 hstage)
        hnests hs hheads hentered
    · rw [if_neg hstage]
      exact hnames
  · rw [hpattern] at hnames ⊢
    dsimp only
    rw [if_neg hstage]
    exact hnames
  · obtain ⟨hindex, lexed, hnext, rfl⟩ := peek_eq_ok hpeek
    have hholds₁ := names_peekAhead hstart htoken 0 s
    have hkept := kept_peekAhead (σ := K.session) 0 s
    have hkept' := Told.bears (m := pattern) (lawful_keptOnStreams (σ := K.session)) s₁
    unfold Account.Bears at hholds₁ hkept hkept'
    rw [show peekAhead 0 K.session s = .ok lexed.token s₁ from hpeek] at hholds₁ hkept
    rw [hindex] at hnext
    have hrefuses {s₂ : Stream} (hkind : lexed.token.kind ≠ .identifier)
        (hkept' : s₁.buffer.toList <+: s₂.buffer.toList)
        (hwithin : s₂.reader.cursor.Within source depth)
        (hnests : s.reader.journal.Nests s₂.reader.journal) :=
      (hholds₁ hholds).refuses hstart hembedded hkept hnext hkind hkept' hwithin hnests hs hheads
        hentered
    rw [hsame] at hnames ⊢
    cases hpattern : pattern K.session s₁ with
    | ok p s₂ =>
      have hnests := nests_of_ok hembedded (hsame.trans hpattern)
      rw [hpattern] at hnames hkept'
      dsimp only
      cases hsimple : p.simpleName? with
      | some name => exact hnames
      | none =>
        refine hrefuses (fun hkind => ?_) hkept' ((hnames hholds).within hstart) hnests
        obtain ⟨p', s', hp', hnamed⟩ := hname hkind
        rw [hpattern] at hp'
        cases hp'
        rw [hsimple] at hnamed
        cases hnamed
    | error d s₂ =>
      have hnests := nests_of_error hembedded (hsame.trans hpattern)
      rw [hpattern] at hnames hkept'
      dsimp only
      by_cases hstage : d.stage = .parser
      · rw [if_pos hstage]
        refine hrefuses (fun hkind => ?_) hkept' ((hnames hholds).1 hstage) hnests
        obtain ⟨p', s', hp', -⟩ := hname hkind
        rw [hpattern] at hp'
        cases hp'
      · rw [if_neg hstage]
        exact hnames

lemma names_bears {α : Type} (m : Parse α) [Told True m] :
    (namesOnStreams K source depth).Tells (.ofReader K.start)
      (m K.session (.ofReader K.start)) := by
  have hlawful : (namesOnStreams K source depth).Lawful K.session True :=
    { lawful_namesOnStreams hstart htoken with
      name := fun _ _ _ _ _ => namesOnStreams_definitionName hstart hembedded htoken }
  exact Told.bears hlawful _

end Names

end Setting

end Streams

/-! ## Template strings -/

section Templates

variable {source : List Char}

/-- Names are missed where they should stand in template strings, however deep they nest. -/
lemma namesAccount_embeddedExpression (depth : Nat) {r r₁ : Reader}
    (hway : (namesAccount source depth).ok r r₁)
    (hlength : r₁.cursor.rest.length < r.cursor.rest.length) :
    (namesAccount source depth).Tells r
      (Scan.embeddedExpression (embeddedReader .standard depth) r₁) := by
  induction depth generalizing r r₁ with
  | zero =>
    refine tells_within fun hr => absurd hlength ?_
    have hle := hr.length_le
    omega
  | succ depth ih =>
    refine tells_within fun hr => ?_
    have hA : (namesAccount source (depth + 1)).Lawful := lawful_namesAccount
    have hr₁ : r₁.cursor.Within source depth := by
      have hle := hr.length_le
      exact ⟨(hway hr).reads, by omega⟩
    refine hA.after hway (.of_cursor (hA.bind (fun h => h) fun _ r₂ hopened =>
      hA.bind ?_ fun e r₃ _ => .of_cursor (hA.bind (fun h => h) fun _ r₄ _ => ?_)))
    · cases hopened
      unfold Scan.Account.Bears
      cases hread : readEmbedded .standard (embeddedReader .standard depth)
          (r₁.record (.templateOpened r₁.cursor.pos)) with
      | ok e r₂ =>
        have hleads := (forwardWithin_embeddedReader (depth + 1) _ rfl).leads hread
        exact fun h => h.leads hleads
      | error d r₂ =>
        obtain ⟨s, hexpression, rfl⟩ := readEmbedded_eq_error hread
        have hrun := Setting.names_bears
          (K := .inTemplate depth (r₁.record (.templateOpened r₁.cursor.pos))) hr₁ rfl
          (fun _ => lawful_namesAccount.token ih) (expression .lowest)
        dsimp only [Setting.inTemplate] at hrun
        rw [hexpression] at hrun
        obtain ⟨hwithin, hmissed⟩ := hrun Setting.at_start.toHolds
        exact fun _ => ⟨fun hstage => (hwithin hstage).deeper, hmissed⟩
    · split
      · exact hA.of_quiet _
      · exact hA.raise (.lexical trivial _ _) nofun

end Templates

/-! ## Sources -/

lemma missed_of_parse {source : String} {d : Diagnostic} (h : (parse source).result = .error d)
    (hcode : d.code.Nameless) : Missed source.toList (parse source).journal d := by
  have hrun := Setting.names_bears (K := .ofText source.toList) (.ofText source.toList) rfl
    (fun _ => lawful_namesAccount.token (namesAccount_embeddedExpression _)) program
  rw [parse_eq] at h ⊢
  dsimp only at h ⊢
  cases hprogram : program (Setting.ofText source.toList).session
      (.ofReader (Setting.ofText source.toList).start) with
  | ok e s =>
    rw [hprogram] at h
    cases h
  | error d' s =>
    rw [hprogram] at h hrun
    cases h
    exact (hrun Setting.at_start.toHolds).2 hcode

/-! ## Tokenizers -/

/-- A tokenizer on a source that reads the expressions in template strings, and can go as deep as
they may nest in what is left. -/
structure Tokenizer.On (t : Tokenizer) (source : List Char) : Prop where
  raw : t.raw = false
  place : ∃ depth, t.embedded = embeddedReader .standard depth ∧
    t.reader.cursor.Within source depth

/-- The tokenizer has just read the keyword behind which a definition has its name. The definition
starts with this keyword, or with the word `structural` right before it. -/
def Tokenizer.AtName (source : List Char) (body : BodyKind) (first : Token) (t : Tokenizer) :
    Prop :=
  ∃ (before : Tokenizer) (keyword : Token), before.On source ∧ before.next = (.ok keyword, t) ∧
    body.Keyword keyword.kind ∧
      (first = keyword ∨ first.kind = .kwStructural ∧ keyword.kind = .kwTrait ∧
        ∃ earlier : Tokenizer, earlier.On source ∧ earlier.next = (.ok first, before))

/-- Two tokenizers are about to read the same. -/
structure Tokenizer.Beside (t t' : Tokenizer) : Prop where
  cursor : t.reader.cursor = t'.reader.cursor
  embedded : t.embedded = t'.embedded
  raw : t.raw = t'.raw

section Tokenizers

variable {source : List Char} {depth : Nat} {c c' : Cursor} {lexed : Lexed} {ws : List Diagnostic}
variable {body : BodyKind} {first : Token}

lemma Tokenizer.next_of_ok {t : Tokenizer} {r : Reader} {token : Token} (hraw : t.raw = false)
    (hembedded : t.embedded = embeddedReader .standard depth)
    (h : Scan.token (embeddedReader .standard depth) t.reader = .ok token r) :
    t.next = (.ok token, { t with reader := r }) := by
  rw [next, hraw, if_neg Bool.false_ne_true, run, hembedded, h, hraw]

lemma Tokenizer.next_of_error {t : Tokenizer} {r : Reader} {d : Diagnostic} (hraw : t.raw = false)
    (hembedded : t.embedded = embeddedReader .standard depth)
    (h : Scan.token (embeddedReader .standard depth) t.reader = .error d r) :
    t.next = (.error d, { t with reader := r }) := by
  rw [next, hraw, if_neg Bool.false_ne_true, run, hembedded, h, hraw]

/-- The tokenizer on a reader, for expressions of the given depth. -/
def Tokenizer.within (depth : Nat) (r : Reader) : Tokenizer :=
  ⟨r, embeddedReader .standard depth, false, false⟩

lemma NamePlace.atName (h : NamePlace source depth body first c) :
    ∃ r, r.cursor = c ∧ c.Within source depth ∧
      (Tokenizer.within depth r).AtName source body first := by
  obtain ⟨c₀, keyword, ws, hwithin, hkeyword, hkind, hfirst⟩ := h
  have hbehind := hwithin.leads (hkeyword.leads (forwardWithin_embeddedReader depth))
  rcases hfirst with rfl | ⟨hstructural, htrait, c₁, lexed, us, hwithin', hlexed, rfl⟩
  · obtain ⟨r, hread, rfl⟩ := hkeyword.token hwithin.length_le (r := ⟨c₀, #[]⟩) rfl
    exact ⟨r, rfl, hbehind, .within depth ⟨c₀, #[]⟩, keyword.token, ⟨rfl, depth, rfl, hwithin⟩,
      Tokenizer.next_of_ok rfl rfl hread, hkind, .inl rfl⟩
  · obtain ⟨r₀, hread₀, rfl⟩ := hlexed.token hwithin'.length_le (r := ⟨c₁, #[]⟩) rfl
    obtain ⟨r, hread, rfl⟩ := hkeyword.token hwithin.length_le (r := r₀) rfl
    exact ⟨r, rfl, hbehind, .within depth r₀, keyword.token, ⟨rfl, depth, rfl, hwithin⟩,
      Tokenizer.next_of_ok rfl rfl hread, hkind, .inr ⟨hstructural, htrait, .within depth ⟨c₁, #[]⟩,
        ⟨rfl, depth, rfl, hwithin'⟩, Tokenizer.next_of_ok rfl rfl hread₀⟩⟩

end Tokenizers

/-- Where a source is refused because a class or trait has no name, the parser has failed inside of
a definition, which starts with a keyword or with `structural`: it is the last production that had
been entered and had not ended. Take a tokenizer that has just read the keyword of this definition.
If it finds a token next, this is no name, and the source is refused for it, however far the parser
has come in search of one. If it finds none, it fails on a template string, as the parser does on an
expression in it, and the source is refused for the token that the tokenizer finds next, where this
has left it. -/
theorem names_missed_at_first_token (source : String) {d : Diagnostic}
    (h : (parse source).result = .error d)
    (hcode : d.code = .classNameNotIdentifier ∨ d.code = .traitNameNotIdentifier) :
    ∃ (body : BodyKind) (first : Token) (t : Tokenizer),
      (parse source).journal.FailsInside first ∧ t.AtName source.toList body first ∧
        d.code = body.badName.1 ∧
        ((∃ token, (∀ t' : Tokenizer, t'.Beside t → t'.next.1 = .ok token) ∧
            token.kind ≠ .identifier ∧ d.span = token.span) ∨
          (∀ t' : Tokenizer, t'.Beside t → ∃ d', t'.next.1 = .error d') ∧
            ∃ (t' t'' : Tokenizer) (d' : Diagnostic) (token : Token), t'.Beside t ∧
              t'.next = (.error d', t'') ∧ d'.stage = .parser ∧ t''.next.1 = .ok token ∧
                d.span = token.span) := by
  obtain ⟨depth, body, first, c, hfails, hplace, hbody, hcases⟩ := missed_of_parse h hcode
  obtain ⟨r, rfl, hwithin, hname⟩ := hplace.atName
  refine ⟨body, first, .within depth r, hfails, hname, hbody, ?_⟩
  rcases hcases with ⟨lexed, ws, c', hfinds, hkind, hspan⟩ |
    ⟨token, ⟨r₁, d₁, r₂, hcursor, hstuck, hstage, hwithin₂, start, ws, c', hfinds⟩, hspan⟩
  · refine .inl ⟨lexed.token, fun t' ht' => ?_, hkind, hspan⟩
    obtain ⟨r', hread, -⟩ := hfinds.token hwithin.length_le ht'.cursor
    rw [Tokenizer.next_of_ok ht'.raw ht'.embedded hread]
  · refine .inr ⟨fun t' ht' => ?_, .within depth r₁, .within depth r₂, d₁, token,
      ⟨hcursor, rfl, rfl⟩, Tokenizer.next_of_error rfl rfl hstuck, hstage, ?_, hspan⟩
    · cases hrun : Scan.token (embeddedReader .standard depth) t'.reader with
      | error d' r' => exact ⟨d', by rw [Tokenizer.next_of_error ht'.raw ht'.embedded hrun]⟩
      | ok token r' =>
        -- What is found there once is found there always.
        obtain ⟨start, us, hfinds⟩ := Scan.finds_of_token hrun
        rw [ht'.cursor] at hfinds
        obtain ⟨r₃, hread, -⟩ := hfinds.token hwithin.length_le hcursor
        rw [hstuck] at hread
        cases hread
    · obtain ⟨r', hread, -⟩ := hfinds.token hwithin₂.length_le rfl
      rw [Tokenizer.next_of_ok rfl rfl hread]

/-- The scanner fails on the template string in the brackets, and the bracket is refused. -/
theorem names_missed_at_first_token_list :
    let source := "class [a, `$\x7b)\x7d`] \x7b\x7d"
    ∃ d, (parse source).result = .error d ∧ d.code = .classNameNotIdentifier ∧
      d.span.offset = 6 ∧
      ∃ (body : BodyKind) (first : Token) (t : Tokenizer),
        (parse source).journal.FailsInside first ∧ t.AtName source.toList body first ∧
          d.code = body.badName.1 ∧
          ((∃ token, (∀ t' : Tokenizer, t'.Beside t → t'.next.1 = .ok token) ∧
              token.kind ≠ .identifier ∧ d.span = token.span) ∨
            (∀ t' : Tokenizer, t'.Beside t → ∃ d', t'.next.1 = .error d') ∧
              ∃ (t' t'' : Tokenizer) (d' : Diagnostic) (token : Token), t'.Beside t ∧
                t'.next = (.error d', t'') ∧ d'.stage = .parser ∧ t''.next.1 = .ok token ∧
                  d.span = token.span) := by
  intro source
  have hrefused : (failure? (parse source).result).map (fun d => (d.code, d.span.offset)) =
      some (.classNameNotIdentifier, 6) := by
    decide +kernel
  obtain ⟨d, hd, hplace⟩ := eq_error_of_failure? hrefused
  obtain ⟨hcode, hoffset⟩ := Prod.mk.inj hplace
  exact ⟨d, hd, hcode, hoffset, names_missed_at_first_token source hd (.inl hcode)⟩

/-- Right behind its keyword, the class has a template string on which the tokenizer fails, as `)`
opens no expression. The parser forgets this failure, and refuses what the reader has been left in
front of: not the `)`, but the brace behind it. -/
theorem name_missed_inside_template :
    let source := "class `$\x7b)\x7d` \x7b\x7d"
    let start := Tokenizer.ofText source.toList true
    ∃ keyword t, start.On source.toList ∧ start.next = (.ok keyword, t) ∧
      BodyKind.ofClass.Keyword keyword.kind ∧
      (∃ d, t.next.1 = .error d ∧ d.code = .expectedExpression ∧ d.span.offset = 9) ∧
      ∃ d, (parse source).result = .error d ∧ d.code = .classNameNotIdentifier ∧
        d.span.offset = 10 := by
  intro source start
  have hkeyword : start.next.1.toOption.map Token.kind = some .kwClass := by decide +kernel
  have hstuck : (failure? start.next.2.next.1).map (fun d => (d.code, d.span.offset)) =
      some (.expectedExpression, 9) := by
    decide +kernel
  have hrefused : (failure? (parse source).result).map (fun d => (d.code, d.span.offset)) =
      some (.classNameNotIdentifier, 10) := by
    decide +kernel
  obtain ⟨d, hd, hplace⟩ := eq_error_of_failure? hstuck
  obtain ⟨d', hd', hplace'⟩ := eq_error_of_failure? hrefused
  have hon : start.On source.toList :=
    ⟨rfl, source.toList.length, rfl, .ofText source.toList⟩
  cases hnext : start.next with
  | mk result t =>
    rw [hnext] at hkeyword hd
    cases result with
    | error d => cases hkeyword
    | ok keyword =>
      exact ⟨keyword, t, hon, rfl, .inl (Option.some_inj.mp hkeyword),
        ⟨d, hd, Prod.mk.inj hplace⟩, d', hd', Prod.mk.inj hplace'⟩

end FrontEnd
