import FrontEnd.Proofs.LocalTokens
import FrontEnd.Proofs.Progress
import FrontEnd.Proofs.SimilarExpressions

/-!
# Runs are repeated

A run of the parser on a text that stands in one source is repeated on the same text in another: as
long as it keeps within the text, a similar production finds similar tokens and does the same with
them. Where the text ends, both runs find a token that ends expressions.
-/

namespace FrontEnd

open Parse

/-- What stands from a place on is, behind a gap, a token that ends expressions, of which
`follows` is known. -/
def Closed (embedded : Option (Scan Expr)) (tail : List Char) (follows : Lexed → Prop) : Prop :=
  ∀ r : Reader, r.cursor.rest = tail → ∃ r₁ t r₂, Scan.skipGap r = .ok () r₁ ∧
    Scan.tokenHere embedded r₁ = .ok t r₂ ∧ t.closes = true ∧ r₂.journal = r.journal ∧
      follows ⟨t, r₁.cursor⟩

/-- A run on a text that has come to its end, to be repeated on the same text at another place.
The text makes up the first tokens of the final stream; `offset` is the number of tokens before it
in the other run, and `follows` what is known of the token that is found behind it there. -/
structure Replay extends Scene where
  session : Session
  session' : Session
  grammar : session.grammar = .standard
  grammar' : session'.grammar = .standard
  width : Nat
  embeds : toScene.Embeds width session.embedded session'.embedded
  forward : Scan.ForwardWithin session.embedded
  final : Stream
  last : Lexed
  buffered : final.buffer[final.index]? = some last
  behind : last.start.rest = tail
  closes : last.token.closes = true
  silent : ∀ {r t r'}, r.cursor.rest = tail → Scan.tokenHere session.embedded r = .ok t r' →
    r'.journal = r.journal
  inside : ∀ {k : Nat} {lexed}, k < final.index → final.buffer[k]? = some lexed →
    lexed.start.rest ≠ []
  offset : Nat
  follows : Lexed → Prop
  closed : Closed session'.embedded tail' follows
  limit : final.index < session'.limit

namespace Replay

/-- Two streams that have come to the same place of the text. Behind the text the other stream
holds the token that is found there. -/
structure Paired (P : Replay) (s s' : Stream) : Prop where
  index : s'.index = s.index + P.offset
  size : s'.buffer.size = s.buffer.size + P.offset
  index_le : s.index ≤ s.buffer.size
  size_le : s.buffer.size ≤ P.final.index + 1
  narrow : s.reader.cursor.rest.length ≤ P.tail.length + P.width
  token : ∀ {k : Nat} {lexed}, k < P.final.index → s.buffer[k]? = some lexed →
    ∃ lexed', s'.buffer[k + P.offset]? = some lexed' ∧ P.Rel lexed.token lexed'.token
  twins : s.buffer.size ≤ P.final.index → P.Twins s.reader s'.reader
  echoes : P.Echoes s.reader.journal s'.reader.journal
  ended : P.final.index < s.buffer.size → ∃ lexed',
    s'.buffer[P.final.index + P.offset]? = some lexed' ∧ lexed'.token.closes = true ∧
      P.follows lexed'

/-- The tokens at a number in the two streams: they look alike, and behind the text both end
expressions. -/
structure Counterparts (P : Replay) (k : Nat) (t t' : Token) : Prop where
  alike : k < P.final.index → P.Rel t t'
  closed : P.final.index = k → t.closes = true ∧ t'.closes = true

variable {P : Replay} {s s' s₁ : Stream} {t : Token}

namespace Counterparts

variable {k : Nat} {t' : Token} {kind : TokenKind}

lemma lt (h : P.Counterparts k t t') (hk : k ≤ P.final.index)
    (hkind : Production.endsStatements kind = false) (ht : t.kind = kind) : k < P.final.index := by
  refine Nat.lt_of_le_of_ne hk fun heq => ?_
  exact Similar.kind_ne_of_closes hkind (h.closed heq.symm).1 ht

lemma kind_iff (h : P.Counterparts k t t') (hk : k ≤ P.final.index)
    (hkind : Production.endsStatements kind = false) : t.kind = kind ↔ t'.kind = kind := by
  rcases Nat.lt_or_eq_of_le hk with hlt | heq
  · rw [(h.alike hlt).kind_eq]
  · obtain ⟨ht, ht'⟩ := h.closed heq.symm
    exact iff_of_false (Similar.kind_ne_of_closes hkind ht) (Similar.kind_ne_of_closes hkind ht')

end Counterparts

namespace Paired

lemma record (h : P.Paired s s') {e e' : Event}
    (hechoes : P.Echoes (s.record e).reader.journal (s'.record e').reader.journal) :
    P.Paired (s.record e) (s'.record e') where
  index := h.index
  size := h.size
  index_le := h.index_le
  size_le := h.size_le
  narrow := h.narrow
  token := h.token
  twins hsize := ⟨(h.twins hsize).shared, hechoes⟩
  echoes := hechoes
  ended := h.ended

lemma step (h : P.Paired s s') {lexed : Lexed} (hnext : s.buffer[s.index]? = some lexed) :
    P.Paired s.step s'.step where
  index := by
    rw [Stream.step_index, Stream.step_index, h.index]
    omega
  size := h.size
  index_le := by
    obtain ⟨hlt, -⟩ := Array.getElem?_eq_some_iff.mp hnext
    exact hlt
  size_le := h.size_le
  narrow := h.narrow
  token := h.token
  twins := h.twins
  echoes := h.echoes
  ended := h.ended

/-- A token that is added to both streams. -/
lemma push (h : P.Paired s s') {r r' : Reader} {lexed lexed' : Lexed}
    (hsize : s.buffer.size ≤ P.final.index) (hleads : s.reader.cursor.Leads r.cursor)
    (hechoes : P.Echoes r.journal r'.journal)
    (htoken : s.buffer.size < P.final.index → P.Rel lexed.token lexed'.token)
    (htwins : s.buffer.size < P.final.index → P.Twins r r')
    (hended : P.final.index = s.buffer.size → lexed'.token.closes = true ∧ P.follows lexed') :
    P.Paired ⟨r, s.buffer.push lexed, s.index⟩ ⟨r', s'.buffer.push lexed', s'.index⟩ where
  index := h.index
  size := by
    rw [Array.size_push, Array.size_push, h.size]
    omega
  index_le := by
    rw [Array.size_push]
    exact Nat.le_succ_of_le h.index_le
  size_le := by
    rw [Array.size_push]
    omega
  narrow := Nat.le_trans hleads.length_le h.narrow
  token {k lexed₀} hk hlexed₀ := by
    rw [Array.getElem?_push] at hlexed₀
    split at hlexed₀
    · next heq =>
      cases hlexed₀
      refine ⟨lexed', ?_, htoken (heq ▸ hk)⟩
      rw [heq, ← h.size, Array.getElem?_push_size]
    · obtain ⟨lexed₁, hlexed₁, hrel⟩ := h.token hk hlexed₀
      obtain ⟨hlt, -⟩ := Array.getElem?_eq_some_iff.mp hlexed₁
      refine ⟨lexed₁, ?_, hrel⟩
      rw [Array.getElem?_push_lt hlt, ← hlexed₁, Array.getElem?_eq_getElem hlt]
  twins hlt := by
    rw [Array.size_push] at hlt
    exact htwins hlt
  echoes := hechoes
  ended hlt := by
    rw [Array.size_push] at hlt
    have heq : P.final.index = s.buffer.size := by omega
    refine ⟨lexed', ?_, hended heq⟩
    rw [heq, ← h.size, Array.getElem?_push_size]

/-- A token that is scanned in the one run is scanned in the other. -/
lemma scanNext (h : P.Paired s s') (hsize : s.buffer.size ≤ P.final.index)
    (hrun : scanNext P.session s = .ok t s₁) (hlater : s₁.Precedes P.final) :
    ∃ t' s₁', Parse.scanNext P.session' s' = .ok t' s₁' ∧ P.Paired s₁ s₁' ∧
      P.Counterparts s.buffer.size t t' := by
  obtain ⟨r₁, hgap, htoken, hbuffer, hindex⟩ := scanNext_eq_ok hrun
  have hread := Scan.forward_tokenHere P.forward
  have hleads := (Scan.Forward.leads hgap).trans (hread.leads htoken)
  have hnew : P.final.buffer[s.buffer.size]? = some ⟨t, r₁.cursor⟩ :=
    hlater.kept (by rw [hbuffer, Array.getElem?_push_size])
  obtain ⟨r₂, buffer, index⟩ := s₁
  dsimp only at htoken hbuffer hindex hleads
  subst hbuffer hindex
  rcases Nat.lt_or_eq_of_le hsize with hlt | heq
  · -- The token belongs to the text, so it ends before the tail.
    have hne : r₁.cursor.rest ≠ [] := P.inside hlt hnew
    have hlength : P.tail.length ≤ r₂.cursor.rest.length := by
      have hnone : (s.buffer.push ⟨t, r₁.cursor⟩)[P.final.index]? = none :=
        Array.getElem?_eq_none (by rw [Array.size_push]; exact hlt)
      rw [← P.behind]
      exact (hlater.later hnone P.buffered).length_le
    have hshort := Scan.Shortens.tokenHere P.forward hne t r₂ htoken
    obtain ⟨r₁', hgap', htwins⟩ := (h.twins hsize).skipGap_inside hgap
      (Nat.lt_of_le_of_lt hlength hshort)
    have hwidth := Nat.le_trans (Scan.Forward.leads hgap).length_le h.narrow
    obtain ⟨t', r₂', htoken', habreast, hechoes, hrel⟩ :=
      Scene.Local.tokenHere P.embeds P.forward htwins hne hwidth t r₂ htoken hlength
    refine ⟨t', ⟨r₂', s'.buffer.push ⟨t', r₁'.cursor⟩, s'.index⟩, ?_,
      h.push hsize hleads hechoes (fun _ => hrel) (fun _ => htwins.pass habreast hechoes hlength)
        fun heq => absurd heq (Nat.ne_of_gt hlt), fun _ => hrel,
      fun heq => absurd heq (Nat.ne_of_gt hlt)⟩
    rw [scanNext_apply, hgap']
    dsimp only
    rw [htoken']
  · -- The token is the one behind the text.
    have hlast : P.last = ⟨t, r₁.cursor⟩ := by
      have hbuffered := P.buffered
      rw [← heq, hnew] at hbuffered
      exact (Option.some_inj.mp hbuffered).symm
    have hrest : r₁.cursor.rest = P.tail := by
      rw [← P.behind, hlast]
    have hcloses : t.closes = true := by
      have hcloses := P.closes
      rwa [hlast] at hcloses
    obtain ⟨r₁', htwins, hrest', hgap'⟩ := (h.twins hsize).skipGap_outside hgap hrest
    obtain ⟨r₂', t', r₃', hgap'', htoken', hcloses', hjournal', hfollows⟩ := P.closed r₁' hrest'
    have hechoes : P.Echoes r₂.journal r₃'.journal := by
      rw [P.silent hrest htoken, hjournal']
      exact htwins.echoes
    refine ⟨t', ⟨r₃', s'.buffer.push ⟨t', r₂'.cursor⟩, s'.index⟩, ?_,
      h.push hsize hleads hechoes (fun hlt => absurd heq (Nat.ne_of_lt hlt))
        (fun hlt => absurd heq (Nat.ne_of_lt hlt)) fun _ => ⟨hcloses', hfollows⟩,
      fun hlt => absurd heq (Nat.ne_of_lt hlt), fun _ => ⟨hcloses, hcloses'⟩⟩
    rw [scanNext_apply, hgap', hgap'']
    dsimp only
    rw [htoken']

lemma scanPast {n : Nat} (h : P.Paired s s') (hsize : s.buffer.size + n ≤ P.final.index)
    (hrun : scanPast n P.session s = .ok t s₁) (hlater : s₁.Precedes P.final) :
    ∃ t' s₁', Parse.scanPast n P.session' s' = .ok t' s₁' ∧ P.Paired s₁ s₁' ∧
      P.Counterparts (s.buffer.size + n) t t' := by
  induction n generalizing s s' with
  | zero => exact h.scanNext hsize hrun hlater
  | succ n ih =>
    rw [Parse.scanPast, discard_eq] at hrun
    obtain ⟨_, s₂, hdiscard, hrest⟩ := bind_eq_ok hrun
    obtain ⟨t₂, s₃, hscan, hpure⟩ := bind_eq_ok hdiscard
    obtain ⟨-, rfl⟩ := pure_eq_ok hpure
    have hlater₂ := (Steady.precedes (Parse.scanPast n) P.grammar P.forward hrest).trans hlater
    obtain ⟨r, -, -, hbuffer, -⟩ := scanNext_eq_ok hscan
    have hsize₂ : s₂.buffer.size = s.buffer.size + 1 := by rw [hbuffer, Array.size_push]
    obtain ⟨t₂', s₂', hscan', hpaired, -⟩ := h.scanNext (by omega) hscan hlater₂
    obtain ⟨t', s₁', hrest', hpaired', hparts⟩ := ih hpaired (by omega) hrest
    refine ⟨t', s₁', ?_, hpaired', ?_⟩
    · rw [Parse.scanPast, discard_eq, bind_apply, bind_apply, hscan']
      exact hrest'
    · rwa [hsize₂, Nat.add_assoc, Nat.add_comm 1 n] at hparts

/-- What is ahead in the one stream is ahead in the other. -/
lemma peekAhead {n : Nat} (h : P.Paired s s') (hn : s.index + n ≤ P.final.index)
    (hrun : peekAhead n P.session s = .ok t s₁) (hlater : s₁.Precedes P.final) :
    ∃ t' s₁', Parse.peekAhead n P.session' s' = .ok t' s₁' ∧ P.Paired s₁ s₁' ∧
      P.Counterparts (s.index + n) t t' := by
  have hplace : s'.index + n = s.index + n + P.offset := by
    rw [h.index]
    omega
  rw [peekAhead_apply] at hrun ⊢
  cases hnext : s.buffer[s.index + n]? with
  | some lexed =>
    rw [hnext] at hrun
    cases hrun
    obtain ⟨hsize, -⟩ := Array.getElem?_eq_some_iff.mp hnext
    rcases Nat.lt_or_eq_of_le hn with hlt | heq
    · obtain ⟨lexed', hnext', hrel⟩ := h.token hlt hnext
      refine ⟨lexed'.token, s', ?_, h, fun _ => hrel, fun heq => absurd heq (Nat.ne_of_gt hlt)⟩
      rw [hplace, hnext']
    · obtain ⟨lexed', hnext', hcloses', -⟩ := h.ended (heq ▸ hsize)
      have hlast : P.last = lexed := by
        have hkept := hlater.kept hnext
        rw [heq, P.buffered] at hkept
        exact Option.some_inj.mp hkept
      refine ⟨lexed'.token, s', ?_, h, fun hlt => absurd heq (Nat.ne_of_lt hlt),
        fun _ => ⟨hlast ▸ P.closes, hcloses'⟩⟩
      rw [hplace, heq, hnext']
  | none =>
    rw [hnext] at hrun
    have hle : s.buffer.size ≤ s.index + n := Array.getElem?_eq_none_iff.mp hnext
    have hnext' : s'.buffer[s'.index + n]? = none := by
      refine Array.getElem?_eq_none ?_
      rw [hplace, h.size]
      exact Nat.add_le_add_right hle _
    obtain ⟨t', s₁', hrun', hpaired, hparts⟩ := h.scanPast (by omega) hrun hlater
    refine ⟨t', s₁', ?_, hpaired, ?_⟩
    · rw [hnext', hplace, h.size, Nat.add_sub_add_right]
      exact hrun'
    · rwa [Nat.add_sub_cancel' hle] at hparts

lemma peek (h : P.Paired s s') (hindex : s.index ≤ P.final.index)
    (hrun : peek P.session s = .ok t s₁) (hlater : s₁.Precedes P.final) :
    ∃ t' s₁', Parse.peek P.session' s' = .ok t' s₁' ∧ P.Paired s₁ s₁' ∧
      P.Counterparts s.index t t' :=
  h.peekAhead hindex hrun hlater

lemma previousSpan (h : P.Paired s s') (hstarted : 0 < s.index)
    (hindex : s.index ≤ P.final.index) : P.Rel s.previousSpan s'.previousSpan := by
  obtain ⟨i, hi⟩ : ∃ i, s.index = i + 1 := ⟨s.index - 1, by omega⟩
  have hi' : s'.index = i + P.offset + 1 := by
    rw [h.index, hi]
    omega
  have hlt : i < s.buffer.size := by
    have hle := h.index_le
    omega
  obtain ⟨lexed', hlexed', hrel⟩ := h.token (by omega) (Array.getElem?_eq_getElem hlt)
  simp only [Stream.previousSpan, hi, hi', hlexed', Array.getElem?_eq_getElem hlt]
  exact hrel.span_rel

end Paired

/-! ## Actions that are repeated -/

variable {α β : Type} [Spanned α] [Spanned β]

/-- Where the one action succeeds within the text, and has less than `count` tokens of it to
consume, the other succeeds alike. With `sure`, more of the text is consumed afterwards. -/
def Repeats (P : Replay) (count : Nat) (sure : Bool) (m m' : Parse α) : Prop :=
  ∀ s s' a s₁, P.Paired s s' → 0 < s.index → P.final.index - s.index < count →
    m P.session s = .ok a s₁ → s₁.Precedes P.final → (sure = true → s₁.index < P.final.index) →
    s.index ≤ s₁.index ∧
      ∃ a' s₁', m' P.session' s' = .ok a' s₁' ∧ P.Paired s₁ s₁' ∧ P.Rel a a'

namespace Repeats

variable {count : Nat} {sure : Bool} {m m' : Parse α}

lemma pure {a a' : α} (h : P.Rel a a') : P.Repeats count sure (pure a) (pure a') := by
  intro s s' b s₁ hpaired _ _ hrun _ _
  obtain ⟨rfl, rfl⟩ := pure_eq_ok hrun
  exact ⟨Nat.le_refl _, a', s', rfl, hpaired, h⟩

lemma of_fails (h : ∀ σ s a s', m σ s ≠ .ok a s') : P.Repeats count sure m m' := by
  intro s s' a s₁ _ _ _ hrun
  exact absurd hrun (h _ _ _ _)

lemma weaken {count' : Nat} (h : P.Repeats count sure m m') (hcount : count' ≤ count) :
    P.Repeats count' sure m m' := by
  intro s s' a s₁ hpaired hstarted hbudget
  exact h s s' a s₁ hpaired hstarted (Nat.lt_of_lt_of_le hbudget hcount)

lemma bind {sure' : Bool} {count' : Nat} {f f' : α → Parse β} [∀ a, Steady (f a)]
    (hm : P.Repeats count sure' m m')
    (hf : ∀ a a', P.Rel a a' → P.Repeats count' sure (f a) (f' a'))
    (hsure : ∀ {a s₁ b s₂}, f a P.session s₁ = .ok b s₂ → s₂.index ≤ P.final.index →
      (sure = true → s₂.index < P.final.index) → sure' = true → s₁.index < P.final.index)
    (hcount : ∀ {s a s₁}, m P.session s = .ok a s₁ → s.index ≤ s₁.index →
      s₁.index ≤ P.final.index → P.final.index - s.index < count →
      P.final.index - s₁.index < count') :
    P.Repeats count sure (m >>= f) (m' >>= f') := by
  intro s s' b s₂ hpaired hstarted hbudget hrun hlater hinside
  obtain ⟨a, s₁, hfirst, hrest⟩ := bind_eq_ok hrun
  have hlater₁ := (Steady.precedes (f a) P.grammar P.forward hrest).trans hlater
  obtain ⟨hle, a', s₁', hfirst', hpaired₁, ha⟩ :=
    hm s s' a s₁ hpaired hstarted hbudget hfirst hlater₁ (hsure hrest hlater.index_le hinside)
  obtain ⟨hle', b', s₂', hrest', hpaired₂, hb⟩ := hf a a' ha s₁ s₁' b s₂ hpaired₁
    (Nat.lt_of_lt_of_le hstarted hle) (hcount hfirst hle hlater₁.index_le hbudget) hrest hlater
    hinside
  refine ⟨Nat.le_trans hle hle', b', s₂', ?_, hpaired₂, hb⟩
  rw [bind_apply, hfirst']
  exact hrest'

lemma look {p p' : Token → α} (hp : ∀ t t', P.Rel t t' → P.Rel (p t) (p' t'))
    (hend : sure = true ∨
      ∀ t t' : Token, t.closes = true → t'.closes = true → P.Rel (p t) (p' t')) :
    P.Repeats count sure (p <$> peek) (p' <$> peek) := by
  intro s s' a s₁ hpaired _ _ hrun hlater hinside
  rw [map_apply] at hrun
  cases hpeek : Parse.peek P.session s with
  | error d s₂ => rw [hpeek] at hrun; cases hrun
  | ok t s₂ =>
    rw [hpeek] at hrun
    cases hrun
    obtain ⟨hindex, -⟩ := peek_eq_ok hpeek
    have hle := hlater.index_le
    obtain ⟨t', s₁', hpeek', hpaired₁, hparts⟩ := hpaired.peek (by omega) hpeek hlater
    refine ⟨Nat.le_of_eq hindex.symm, p' t', s₁', by rw [map_apply, hpeek'], hpaired₁, ?_⟩
    by_cases hlt : s.index < P.final.index
    · exact hp t t' (hparts.alike hlt)
    · obtain ⟨ht, ht'⟩ := hparts.closed (by omega)
      rcases hend with hsure | hclosed
      · exact absurd (hinside hsure) (by omega)
      · exact hclosed t t' ht ht'

lemma takeIf {select select' : Token → Option α} {f f' : Option α → Parse β} [∀ o, Steady (f o)]
    (hselect : ∀ t t', P.Rel t t' → P.Rel (select t) (select' t'))
    (hend : sure = true ∨ (∀ t : Token, t.closes = true → select' t = none) ∨
      Consuming (takeIf select >>= f))
    (hnone : P.Repeats count sure (f none) (f' none))
    (hsome : ∀ a a', P.Rel a a' → P.Repeats (count - 1) sure (f (some a)) (f' (some a'))) :
    P.Repeats count sure (takeIf select >>= f) (takeIf select' >>= f') := by
  intro s s' b s₂ hpaired hstarted hbudget hrun hlater hinside
  obtain ⟨o, s₁, htake, hrest⟩ := bind_eq_ok hrun
  have hprecedes := Steady.precedes (f o) P.grammar P.forward hrest
  have hlater₁ := hprecedes.trans hlater
  rw [takeIf_apply] at htake
  cases hpeek : Parse.peek P.session s with
  | error d s₃ => rw [hpeek] at htake; cases htake
  | ok t s₃ =>
    obtain ⟨hindex, lexed, hlexed, -⟩ := peek_eq_ok hpeek
    simp only [hpeek] at htake
    cases ho : select t with
    | some a =>
      rw [ho] at htake
      cases htake
      have hle := hlater₁.index_le
      rw [Stream.step_index, hindex] at hle
      obtain ⟨t', s₃', hpeek', hpaired₁, hparts⟩ :=
        hpaired.peek (by omega) hpeek ((Stream.Precedes.step s₃).trans hlater₁)
      have hrel := hselect t t' (hparts.alike hle)
      rw [ho] at hrel
      cases ho' : select' t' with
      | none => rw [ho'] at hrel; exact absurd hrel View.not_rel_some_none
      | some a' =>
        rw [ho'] at hrel
        obtain ⟨hle', b', s₂', hrest', hpaired₂, hb⟩ :=
          hsome a a' (View.rel_some_some.mp hrel) _ _ b s₂ (hpaired₁.step hlexed)
            (Nat.succ_pos _) (by rw [Stream.step_index, hindex]; omega) hrest hlater hinside
        rw [Stream.step_index] at hle'
        refine ⟨by omega, b', s₂', ?_, hpaired₂, hb⟩
        rw [bind_apply, takeIf_apply, hpeek']
        dsimp only
        rw [ho']
        exact hrest'
    | none =>
      rw [ho] at htake
      cases htake
      have hle := hlater₁.index_le
      obtain ⟨t', s₁', hpeek', hpaired₁, hparts⟩ := hpaired.peek (by omega) hpeek hlater₁
      have ho' : select' t' = none := by
        by_cases hlt : s.index < P.final.index
        · have hrel := hselect t t' (hparts.alike hlt)
          rw [ho] at hrel
          cases ho' : select' t' with
          | none => rfl
          | some a' => rw [ho'] at hrel; exact absurd hrel View.not_rel_none_some
        · -- At the end of the text, no token is taken on either side.
          have hreached := hprecedes.index_le
          rcases hend with hsure | hclosed | hconsuming
          · exact absurd (hinside hsure) (by omega)
          · exact hclosed t' (hparts.closed (by omega)).2
          · have hconsumed := hconsuming.lt P.grammar hrun
            have hfinal := hlater.index_le
            omega
      obtain ⟨hle', b', s₂', hrest', hpaired₂, hb⟩ :=
        hnone _ _ b s₂ hpaired₁ (hindex ▸ hstarted) (hindex ▸ hbudget) hrest hlater hinside
      refine ⟨hindex ▸ hle', b', s₂', ?_, hpaired₂, hb⟩
      rw [bind_apply, takeIf_apply, hpeek']
      dsimp only
      rw [ho']
      exact hrest'

end Repeats

/-- A token that is consumed in the one run is consumed in the other. -/
lemma Paired.accept {select select' : Token → Option α} {refusal refusal' : Token → Diagnostic}
    (hselect : ∀ t t', P.Rel t t' → P.Rel (select t) (select' t')) {a : α}
    (h : P.Paired s s') (hrun : accept select refusal P.session s = .ok a s₁)
    (hlater : s₁.Precedes P.final) :
    s₁.index = s.index + 1 ∧ ∃ a' s₁', Parse.accept select' refusal' P.session' s' = .ok a' s₁' ∧
      P.Paired s₁ s₁' ∧ P.Rel a a' := by
  rw [accept_apply] at hrun
  cases hpeek : Parse.peek P.session s with
  | error d s₂ => rw [hpeek] at hrun; cases hrun
  | ok t s₂ =>
    obtain ⟨hindex, lexed, hlexed, -⟩ := peek_eq_ok hpeek
    simp only [hpeek] at hrun
    cases ho : select t with
    | none => rw [ho] at hrun; cases hrun
    | some b =>
      rw [ho] at hrun
      cases hrun
      have hle := hlater.index_le
      rw [Stream.step_index, hindex] at hle
      obtain ⟨t', s₂', hpeek', hpaired, hparts⟩ :=
        h.peek (by omega) hpeek ((Stream.Precedes.step s₂).trans hlater)
      have hrel := hselect t t' (hparts.alike hle)
      rw [ho] at hrel
      cases ho' : select' t' with
      | none => rw [ho'] at hrel; exact absurd hrel View.not_rel_some_none
      | some a' =>
        rw [ho'] at hrel
        refine ⟨by rw [Stream.step_index, hindex], a', s₂'.step, ?_, hpaired.step hlexed,
          View.rel_some_some.mp hrel⟩
        rw [accept_apply, hpeek']
        dsimp only
        rw [ho']

namespace Repeats

variable {count : Nat} {sure : Bool} {m m' : Parse α}

lemma accept {select select' : Token → Option α} {refusal refusal' : Token → Diagnostic}
    (hselect : ∀ t t', P.Rel t t' → P.Rel (select t) (select' t')) :
    P.Repeats count sure (accept select refusal) (accept select' refusal') := by
  intro s s' a s₁ hpaired _ _ hrun hlater _
  obtain ⟨hindex, hright⟩ := hpaired.accept hselect hrun hlater
  exact ⟨by omega, hright⟩

lemma spanFrom {start start' : Span} (h : P.Rel start start') :
    P.Repeats count sure (spanFrom start) (spanFrom start') := by
  intro s s' a s₁ hpaired hstarted _ hrun hlater _
  rw [spanFrom_apply] at hrun
  cases hrun
  exact ⟨Nat.le_refl _, _, s', spanFrom_apply _ _ _, hpaired,
    h.merge (hpaired.previousSpan hstarted hlater.index_le)⟩

lemma warn {code : Code} {span span' : Span} {message : String} (h : P.Rel span span') :
    P.Repeats count sure (warn code span message) (warn code span' message) := by
  intro s s' a s₁ hpaired _ _ hrun _ _
  cases hrun
  refine ⟨Nat.le_refl _, (), _, rfl, hpaired.record ?_, rfl⟩
  exact hpaired.echoes.warning (View.rel_diagnostic h rfl)

lemma traced {production : String} {token token' : Token} (hm : P.Repeats count sure m m') :
    P.Repeats count sure (traced production token m) (traced production token' m') := by
  intro s s' a s₁ hpaired hstarted hbudget hrun hlater hinside
  rw [traced_apply] at hrun
  cases hinner : m P.session (s.record (.enter production token.lexeme token.span)) with
  | error d s₂ => rw [hinner] at hrun; cases hrun
  | ok b s₂ =>
    rw [hinner] at hrun
    cases hrun
    have hentered : P.Paired (s.record (.enter production token.lexeme token.span))
        (s'.record (.enter production token'.lexeme token'.span)) :=
      hpaired.record (hpaired.echoes.other rfl rfl)
    obtain ⟨hle, b', s₂', hinner', hpaired₂, hb⟩ := hm _ _ a s₂ hentered hstarted hbudget hinner
      ((Stream.Precedes.record _ _).trans hlater) hinside
    refine ⟨hle, b', s₂'.record (.leave production true), ?_,
      hpaired₂.record (hpaired₂.echoes.other rfl rfl), hb⟩
    rw [traced_apply, hinner']

lemma argumentName :
    P.Repeats count sure Production.argumentName Production.argumentName := by
  intro s s' a s₁ hpaired _ _ hrun hlater _
  rw [argumentName_apply] at hrun
  cases hpeek : Parse.peek P.session s with
  | error d s₂ => rw [hpeek] at hrun; cases hrun
  | ok t s₂ =>
    obtain ⟨hindex, first, hfirst, -⟩ := peek_eq_ok hpeek
    simp only [hpeek] at hrun
    by_cases hname : t.kind = .identifier
    · rw [if_pos hname] at hrun
      cases hahead : Parse.peekAhead 1 P.session s₂ with
      | error d s₃ => rw [hahead] at hrun; cases hrun
      | ok u s₃ =>
        obtain ⟨hindex', second, hsecond, -⟩ := peekAhead_eq_ok hahead
        simp only [hahead] at hrun
        have hlater₃ : s₃.Precedes P.final := by
          split at hrun
          · cases hrun
            exact (Stream.Precedes.step _).trans ((Stream.Precedes.step _).trans hlater)
          · cases hrun
            exact hlater
        have hlater₂ := (Steady.precedes (Parse.peekAhead 1) P.grammar P.forward hahead).trans
          hlater₃
        have hle := hlater₂.index_le
        obtain ⟨t', s₂', hpeek', hpaired₂, hparts⟩ := hpaired.peek (by omega) hpeek hlater₂
        have hlt := hparts.lt (by omega) rfl hname
        obtain ⟨u', s₃', hahead', hpaired₃, hparts'⟩ :=
          hpaired₂.peekAhead (by omega) hahead hlater₃
        have hcolon : u.kind = .colon ↔ u'.kind = .colon := hparts'.kind_iff (by omega) rfl
        rw [argumentName_apply, hpeek']
        dsimp only
        rw [if_pos ((hparts.kind_iff (by omega) rfl).mp hname), hahead']
        dsimp only
        by_cases hu : u.kind = .colon
        · rw [if_pos hu] at hrun
          cases hrun
          rw [if_pos (hcolon.mp hu)]
          have hfirst' : s₃.buffer[s₃.index]? = some first := by
            rw [hindex']
            exact peekAhead_buffer hahead hfirst
          refine ⟨?_, some t'.ident, s₃'.step.step, rfl, (hpaired₃.step hfirst').step hsecond,
            View.rel_some_some.mpr (hparts.alike hlt).ident_rel⟩
          rw [Stream.step_index, Stream.step_index]
          omega
        · rw [if_neg hu] at hrun
          cases hrun
          rw [if_neg (mt hcolon.mpr hu)]
          exact ⟨by omega, none, s₃', rfl, hpaired₃, rfl⟩
    · rw [if_neg hname] at hrun
      cases hrun
      have hle := hlater.index_le
      obtain ⟨t', s₁', hpeek', hpaired₁, hparts⟩ := hpaired.peek (by omega) hpeek hlater
      refine ⟨Nat.le_of_eq hindex.symm, none, s₁', ?_, hpaired₁, rfl⟩
      rw [argumentName_apply, hpeek']
      exact if_neg (mt (hparts.kind_iff (by omega) rfl).mpr hname)

lemma definitionName {body : Production.BodyKind}
    (h : P.Repeats count sure Production.pattern Production.pattern) :
    P.Repeats count sure (Production.definitionName body) (Production.definitionName body) := by
  intro s s' name s₁ hpaired hstarted hbudget hrun hlater hinside
  obtain ⟨p, hpattern, hname⟩ := Production.definitionName_eq_ok hrun
  obtain ⟨hle, p', s₁', hpattern', hpaired₁, hp⟩ :=
    h s s' p s₁ hpaired hstarted hbudget hpattern hlater hinside
  have hrel := hp.simpleName?
  rw [hname] at hrel
  cases hname' : p'.simpleName? with
  | none => rw [hname'] at hrel; exact absurd hrel View.not_rel_some_none
  | some name' =>
    rw [hname'] at hrel
    exact ⟨hle, name', s₁', Production.definitionName_of_ok hpattern' hname', hpaired₁,
      View.rel_some_some.mp hrel⟩

end Repeats

end Replay

/-- Similar productions are repeated. -/
theorem Similar.repeats {P : Replay} {α : Type} [Spanned α] {k : Budget} {sure : Bool}
    {m m' : Parse α} (h : Similar P.toView k sure m m') {count : Nat} (hk : k = .tokens count) :
    P.Repeats count sure m m' := by
  induction h generalizing count with
  | pure h => exact .pure h
  | fail h => exact .of_fails fun _ _ _ _ h => by cases h
  | exhausted => exact .of_fails fun _ _ _ _ h => by cases h
  | exhausted_left => exact .of_fails fun _ _ _ _ h => by cases h
  | spent =>
    obtain rfl : 0 = count := Budget.tokens.inj hk
    intro s s' a s₁ _ _ hbudget
    exact absurd hbudget (Nat.not_lt_zero _)
  | @weaken _ _ k₁ k₂ _ _ _ hwithin h ih =>
    subst hk
    cases k₁ with
    | unlimited => exact hwithin.elim
    | tokens count₁ => exact (ih rfl).weaken hwithin
  | assured h ih =>
    intro s s' a s₁ hpaired hstarted hbudget hrun hlater _
    exact ih hk s s' a s₁ hpaired hstarted hbudget hrun hlater fun hfalse => nomatch hfalse
  | @bind _ _ _ _ _ _ _ _ f _ hsteady hm hf ihm ihf =>
    refine (ihm hk).bind (fun a a' ha => ihf a a' ha hk) (fun hrest _ hinside hsure => ?_)
      fun _ hle _ hbudget => ?_
    · have hle := Steady.index_le (f _) P.grammar hrest
      have hlt := hinside hsure
      omega
    · omega
  | @bind_spending _ _ _ _ _ _ _ _ f _ hconsuming hsteady hm hf ihm ihf =>
    subst hk
    refine (ihm rfl).bind (fun a a' ha => ihf a a' ha rfl) (fun hrest _ hinside hsure => ?_)
      fun hfirst _ hle hbudget => ?_
    · have hle := Steady.index_le (f _) P.grammar hrest
      have hlt := hinside hsure
      omega
    · have hlt := hconsuming.lt P.grammar hfirst
      omega
  | @bind_before _ _ _ _ _ _ _ _ f _ hsteady hconsuming hm hf ihm ihf =>
    refine (ihm hk).bind (fun a a' ha => ihf a a' ha hk) (fun {a s₁ b s₂} hrest hle _ _ => ?_)
      fun _ hle _ hbudget => ?_
    · have hlt := (hconsuming a).lt P.grammar hrest
      omega
    · omega
  | look hp hend => exact .look hp hend
  | takeIf hselect hend hnone hsome ihnone ihsome =>
    subst hk
    exact .takeIf hselect hend (ihnone rfl) fun a a' ha => ihsome a a' ha rfl
  | accept hselect hrefusal => exact .accept hselect
  | refuseNext =>
    refine .of_fails fun σ s a s' h => ?_
    rw [refuseNext_apply] at h
    cases hpeek : Parse.peek σ s <;> rw [hpeek] at h <;> cases h
  | spanFrom h => exact .spanFrom h
  | warn h => exact .warn h
  | traced h hm ih => exact .traced (ih hk)
  | read hf ih =>
    subst hk
    intro s s' a s₁ hpaired hstarted hbudget hrun hlater hinside
    rw [bind_apply, read_apply] at hrun
    -- Of the budget, no more is needed than the limit on the right leaves room for.
    obtain ⟨hle, a', s₁', hrun', hright⟩ :=
      ih P.session P.session' (.tokens (min count P.session'.limit)) P.grammar P.grammar'
        (Nat.min_le_left _ _) (Nat.min_le_right _ _) rfl s s' a s₁ hpaired hstarted
        (by have hlimit := P.limit; omega) hrun hlater hinside
    refine ⟨hle, a', s₁', ?_, hright⟩
    rw [bind_apply, read_apply]
    exact hrun'
  | argumentName => exact .argumentName
  | definitionName h ih => exact .definitionName (ih hk)

namespace Replay

variable {P : Replay} {s s' s₁ : Stream} {e : Expr}

/-- An expression that makes up the text is found in the other run too. -/
theorem Paired.expressionWithin {fuel fuel' : Nat} {least : Precedence} (h : P.Paired s s')
    (hrun : Production.expressionWithin fuel least P.session s = .ok e s₁)
    (hlater : s₁.Precedes P.final) (hfuel : P.final.index < s.index + fuel') :
    ∃ e' s₁', Production.expressionWithin fuel' least P.session' s' = .ok e' s₁' ∧
      P.Paired s₁ s₁' ∧ P.Rel e e' := by
  cases fuel with
  | zero => cases hrun
  | succ fuel =>
    change Production.expressionLayer (Production.expressionWithin fuel) least P.session s =
      .ok e s₁ at hrun
    obtain ⟨⟨token, opening⟩, s₂, hopener, hrest⟩ := bind_eq_ok hrun
    have hlater₂ := (Steady.precedes (Production.expressionFrom (Production.expressionWithin fuel)
      least token opening) P.grammar P.forward hrest).trans hlater
    rw [Production.opener, bind_apply, read_apply] at hopener
    dsimp only at hopener
    rw [P.grammar] at hopener
    obtain ⟨hindex, ⟨token', opening'⟩, s₂', hopener', hpaired, hrel⟩ :=
      h.accept (fun t t' => Similar.rel_opening?) hopener hlater₂
    obtain ⟨ht, hopening⟩ := View.rel_pair.mp hrel
    obtain rfl := hopening.eq
    have hle := hlater₂.index_le
    obtain ⟨fuel', rfl⟩ : ∃ f, fuel' = f + 1 := ⟨fuel' - 1, by omega⟩
    have hallows : (Budget.tokens fuel').allows fuel fuel' := Nat.le_refl fuel'
    have hsimilar : Similar P.toView (.tokens fuel') false
        (Production.expressionFrom (Production.expressionWithin fuel) least token opening)
        (Production.expressionFrom (Production.expressionWithin fuel') least token' opening) :=
      .expressionFrom (fun p => .expressionWithin hallows p) least opening ht
    obtain ⟨-, e', s₁', hrest', hpaired', he⟩ := hsimilar.repeats rfl s₂ s₂' e s₁ hpaired
      (by omega) (by omega) hrest hlater fun hfalse => nomatch hfalse
    refine ⟨e', s₁', ?_, hpaired', he⟩
    change Production.expressionLayer (Production.expressionWithin fuel') least P.session' s' = _
    rw [Production.expressionLayer, bind_apply, Production.opener, bind_apply, read_apply]
    dsimp only
    rw [P.grammar', hopener']
    exact hrest'

end Replay

end FrontEnd
