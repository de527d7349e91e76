import FrontEnd.Proofs.Eager

/-!
# Streams without faults

Where all tokens of a source can be read, no stream ever fails to look at its next token, wherever
it stands: the token depends on its number alone. A `Supply` is such a source, and a stream that
takes its tokens from it is what `Supply.Feeds` says.
-/

namespace FrontEnd

open Parse

/-- A place of a source from which all tokens can be read, up to the end of the source. -/
structure Supply where
  start : Reader
  /-- How deep templates may nest. -/
  depth : Nat
  deep : start.cursor.rest.length ≤ depth
  tokens : List Token
  found : ∃ fuel r, Scan.tokens (embeddedReader .standard depth) fuel start = .ok tokens r

namespace Supply

/-- The supply of a source that has tokens. -/
def ofText {source : String} {tokens : List Token} (h : (tokenize source).result = .ok tokens) :
    Supply where
  start := .ofText source.toList
  depth := source.toList.length
  deep := Nat.le_refl _
  tokens := tokens
  found := by
    rw [tokenize] at h
    cases hrun : Scan.tokens (embeddedReader .standard source.toList.length)
        (source.toList.length + 1) (Reader.ofText source.toList) with
    | error d r => rw [hrun] at h; cases h
    | ok ts r => rw [hrun] at h; cases h; exact ⟨_, r, hrun⟩

variable (F : Supply)

/-- The session in which the tokens are parsed. -/
def session : Session :=
  ⟨.standard, embeddedReader .standard F.depth, F.start.cursor.rest.length + 2⟩

/-- The setting in which the tokens are parsed. -/
def setting : Setting :=
  .lenient F.session F.start rfl (forwardWithin_embeddedReader F.depth)

/-- The token for the end of the source. -/
def last : Token :=
  ⟨.endOfInput, .none, Span.emptyAt (F.start.cursor.pos.after F.start.cursor.rest), ""⟩

/-- The token of a number. Behind the source its end comes as often as it is asked for. -/
def token (k : Nat) : Token :=
  F.tokens[k]?.getD F.last

/-- A stream takes its tokens from the supply. -/
abbrev Feeds (s : Stream) : Prop :=
  F.setting.Holds [] s

/-- A stream whose next token has been looked at. -/
def look (s : Stream) : Stream :=
  match peek F.session s with
  | .ok _ s => s
  | .error _ s => s

variable {F} {s : Stream} {k : Nat}

lemma feeds_start (F : Supply) : F.Feeds (.ofReader F.start) :=
  Setting.at_start.toHolds

lemma whole (F : Supply) : ∃ run ws,
    Scan.Whole (embeddedReader .standard F.depth) F.start.cursor run ws ∧
      F.tokens = run.map Lexed.token := by
  obtain ⟨fuel, r, hfound⟩ := F.found
  obtain ⟨run, ws, hwhole, htokens, -⟩ :=
    Scan.tokens_whole (forwardWithin_embeddedReader F.depth) hfound
  exact ⟨run, ws, hwhole, htokens⟩

lemma not_faulty (F : Supply) : ¬ F.setting.Faulty := by
  obtain ⟨run, ws, hwhole, -⟩ := F.whole
  exact Setting.not_faulty rfl F.deep hwhole

lemma length_le (F : Supply) : F.tokens.length ≤ F.start.cursor.rest.length := by
  obtain ⟨run, ws, hwhole, htokens⟩ := F.whole
  obtain ⟨c, last, c', hrun, -⟩ := hwhole.ends
  have hle := hrun.length_le (forwardWithin_embeddedReader F.depth) hwhole.inner
  rw [htokens, List.length_map]
  omega

lemma inner (F : Supply) : ∀ t ∈ F.tokens, t.isEnd = false := by
  obtain ⟨run, ws, hwhole, htokens⟩ := F.whole
  rw [htokens]
  intro t ht
  obtain ⟨x, hx, rfl⟩ := List.mem_map.mp ht
  exact hwhole.inner x hx

lemma lt_of_token {t : Token} (h : F.token k = t) (ht : t.kind ≠ .endOfInput) :
    k < F.tokens.length := by
  refine Nat.lt_of_not_le fun hle => ht ?_
  rw [← h, token, List.getElem?_eq_none hle]
  rfl

end Supply

namespace Scan

lemma Run.end_eq {embedded : Option (Scan Expr)} (hembedded : ForwardWithin embedded) {c c' : Cursor}
    {run : List Lexed} {ws : List Diagnostic} {x : Lexed} (h : Run embedded c run ws c')
    (hx : x ∈ run) (hend : x.token.isEnd = true) :
    x.token = ⟨.endOfInput, .none, Span.emptyAt (c.pos.after c.rest), ""⟩ := by
  induction h with
  | nil => cases hx
  | @cons c y us c₁ run vs c' hfinds hrun ih =>
    rcases List.mem_cons.mp hx with rfl | hx
    · obtain ⟨⟨gap, hpasses⟩, ⟨text, hcovers⟩ | ⟨-, hnil, -⟩⟩ := hfinds.cases hembedded
      · rw [hcovers.inside] at hend
        cases hend
      · obtain ⟨r, r₁, r₂, -, -, hstart, htoken, -⟩ := hfinds
        rw [← hstart] at hnil hpasses
        rw [tokenHere_at_end _ hnil, EStateM.Result.ok.injEq] at htoken
        rw [← htoken.1, hpasses.2, hpasses.1, hnil, List.append_nil]
    · obtain ⟨text, hpasses⟩ := hfinds.leads hembedded
      rw [ih hx, hpasses.2, hpasses.1, Position.after_append]

end Scan

namespace Supply

variable {F : Supply} {s : Stream} {k : Nat}

lemma Feeds.token_eq {lexed : Lexed} (h : F.Feeds s) (hk : s.buffer[k]? = some lexed) :
    lexed.token = F.token k := by
  obtain ⟨run, ws, hwhole, htokens⟩ := F.whole
  rw [token, htokens, List.getElem?_map]
  rcases Setting.Holds.cases_of_whole h rfl F.deep hwhole hk with hrun | ⟨hle, hend⟩
  · rw [hrun]
    rfl
  · obtain ⟨us, hrun, -⟩ := h.run
    have hmem := Array.mem_toList_iff.mpr (Array.mem_of_getElem? hk)
    rw [List.getElem?_eq_none hle, hrun.end_eq F.setting.forward hmem hend]
    rfl

lemma Feeds.peek (h : F.Feeds s) :
    Parse.peek F.session s = .ok (F.token s.index) (F.look s) ∧ F.Feeds (F.look s) ∧
      (F.look s).index = s.index := by
  have hahead := h.peekAhead (n := 0)
  rw [← Parse.peek] at hahead
  rw [look]
  cases hpeek : Parse.peek F.session s with
  | error d s' =>
    rw [show F.setting.session = F.session from rfl, hpeek] at hahead
    exact absurd hahead.faulty F.not_faulty
  | ok t s' =>
    rw [show F.setting.session = F.session from rfl, hpeek] at hahead
    obtain ⟨hindex, lexed, hlexed, rfl⟩ := peek_eq_ok hpeek
    have htoken : lexed.token = F.token s'.index := Feeds.token_eq hahead.1 hlexed
    exact ⟨by rw [htoken, hindex], hahead⟩

end Supply

end FrontEnd
