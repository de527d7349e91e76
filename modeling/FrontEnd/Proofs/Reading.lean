import FrontEnd.Proofs.Setting

/-!
# What productions read

A production of the parser consumes the tokens of a phrase and makes a piece of the tree of them.
`Setting.Reads` says of an action which phrases it reads, and that it fails with an error of the
parser where it finds none, unless the scanner fails. There is a rule for each way of building
productions; what a production reads follows from what its parts read.
-/

namespace FrontEnd

open Parse

namespace Setting

variable {K : Setting} {before since : List Token} {s s' : Stream} {t : Token}

variable {α β : Type}

variable (K) in
/-- An action has come to a good end: behind the tokens `since` it has read some more, and they all
suit what it has made of them; or it has failed with an error of the parser, or for want of fuel. -/
def Outcome (before since : List Token) (P : List Token → α → Prop) :
    EStateM.Result Diagnostic Stream α → Prop
  | .ok a s => ∃ ts, K.At (before ++ (since ++ ts)) s ∧ P (since ++ ts) a
  | .error d s => K.Failed d s ∨ K.Holds (before ++ since) s ∧ (K.strict → d.stage = .parser)

variable (K) in
/-- An action goes on to read a phrase of which the tokens `since` are read already. -/
def Reads (before since : List Token) (m : Parse α) (P : List Token → α → Prop) : Prop :=
  ∀ s, K.At (before ++ since) s → K.Outcome before since P (m K.session s)

variable (K) in
/-- An action goes on to read a phrase, if the next token is looked at and is as it is said. -/
def ReadsIf (p : Token → Prop) (before since : List Token) (m : Parse α)
    (P : List Token → α → Prop) : Prop :=
  ∀ t s, K.Sees (before ++ since) t s → p t → K.Outcome before since P (m K.session s)

variable (K) in
/-- Wherever an action is started behind the tokens `before`, it reads a phrase. -/
def ReadsPast (before : List Token) (m : Parse α) (P : List Token → α → Prop) : Prop :=
  ∀ since, K.Reads (before ++ since) [] m P

variable (K) in
/-- Wherever an action is started behind the tokens `before` and at least one more, it reads a
phrase. -/
def ReadsWithin (before : List Token) (m : Parse α) (P : List Token → α → Prop) : Prop :=
  ∀ since, since ≠ [] → K.Reads (before ++ since) [] m P

variable {m : Parse α} {f : α → Parse β} {P P' : List Token → α → Prop}
variable {Q : List Token → β → Prop} {p : Token → Prop}

lemma Outcome.mono {r : EStateM.Result Diagnostic Stream α} (h : K.Outcome before since P r)
    (hP : ∀ ts a, P ts a → P' ts a) : K.Outcome before since P' r := by
  cases r with
  | ok a s =>
    obtain ⟨ts, hat, ha⟩ := h
    exact ⟨ts, hat, hP _ a ha⟩
  | error d s => exact h

lemma Failed.refuseNext {d : Diagnostic} {index : Nat} {code : Code} {message : String}
    (h : K.Failed d s) : K.Outcome before since P
      ((Parse.refuseNext code message : Parse α) K.session { s with index := index }) := by
  have htame := fun hguarded => peekAhead_narrow K.forward hguarded
    (s := { s with index := index }) (h.tame hguarded).narrow (n := 0)
  rw [← Parse.peek] at htame
  rw [refuseNext_apply]
  cases hpeek : peek K.session { s with index := index } with
  | error d' s' =>
    rw [hpeek] at htame
    exact .inl ⟨h.faulty, htame⟩
  | ok t s' =>
    rw [hpeek] at htame
    exact .inl ⟨h.faulty, fun hguarded => ⟨Stage.noConfusion, htame hguarded⟩⟩

lemma Outcome.further {us : List Token} {r : EStateM.Result Diagnostic Stream α}
    (h : K.Outcome before (since ++ us) P r) : K.Outcome before since P r := by
  cases r with
  | ok a s =>
    obtain ⟨ts, hat, ha⟩ := h
    rw [List.append_assoc] at hat ha
    exact ⟨us ++ ts, hat, ha⟩
  | error d s =>
    refine h.imp_right fun ⟨hholds, hstage⟩ => ⟨hholds.of_prefix ?_, hstage⟩
    rw [← List.append_assoc]
    exact List.prefix_append _ _

lemma Outcome.part {us : List Token} {r : EStateM.Result Diagnostic Stream α}
    (h : K.Outcome (before ++ since) us P r) :
    K.Outcome before (since ++ us) (fun ts a => ∃ vs, ts = since ++ vs ∧ P vs a) r := by
  cases r with
  | error d s =>
    refine h.imp_right fun ⟨hholds, hstage⟩ => ⟨?_, hstage⟩
    rwa [List.append_assoc] at hholds
  | ok a s =>
    obtain ⟨ts, hat, ha⟩ := h
    rw [List.append_assoc, ← List.append_assoc since] at hat
    exact ⟨ts, hat, us ++ ts, List.append_assoc .., ha⟩

lemma Outcome.bind {s : Stream} (hm : K.Outcome before since P (m K.session s))
    (hf : ∀ us a, P (since ++ us) a → K.Reads before (since ++ us) (f a) Q) :
    K.Outcome before since Q ((m >>= f) K.session s) := by
  rw [bind_apply]
  cases hrun : m K.session s with
  | error d s' =>
    rw [hrun] at hm
    exact hm
  | ok a s' =>
    rw [hrun] at hm
    obtain ⟨us, hat, ha⟩ := hm
    exact (hf us a ha s' hat).further

lemma ReadsPast.past (h : K.ReadsPast before m P) (since : List Token) :
    K.ReadsPast (before ++ since) m P := by
  intro us
  rw [List.append_assoc]
  exact h (since ++ us)

lemma ReadsPast.within (h : K.ReadsPast before m P) : K.ReadsWithin before m P :=
  fun since _ => h since

lemma ReadsWithin.past (h : K.ReadsWithin before m P) (hne : since ≠ []) :
    K.ReadsPast (before ++ since) m P := by
  intro us
  rw [List.append_assoc]
  exact h (since ++ us) (List.append_ne_nil_of_left_ne_nil hne us)

lemma ReadsPast.ne_nil [Consuming m] (h : K.ReadsPast before m P) :
    K.ReadsPast before m fun ts a => P ts a ∧ ts ≠ [] := by
  intro since s hs
  have hrun := h since s hs
  cases hcases : m K.session s with
  | error d s' => rwa [hcases] at hrun
  | ok a s' =>
    rw [hcases] at hrun
    obtain ⟨ts, hat, ha⟩ := hrun
    refine ⟨ts, hat, ha, ?_⟩
    rintro rfl
    have hlt := Consuming.lt K.grammar hcases
    rw [hat.index, hs.index] at hlt
    exact absurd hlt (Nat.lt_irrefl _)

lemma Reads.ahead (h : K.Reads before since m P) : K.ReadsIf p before since m P :=
  fun _ s hsees _ => h s hsees.1

lemma Reads.begins [Steady m] (h : K.Reads before [] m P) :
    K.ReadsIf p before [] m fun ts a => P ts a ∧ ∀ t ∈ ts.head?, p t := by
  rintro t s ⟨hs, hfound, lexed, hlexed, rfl⟩ ht
  have hrun := h s hs
  cases hcases : m K.session s with
  | error d s' => rwa [hcases] at hrun
  | ok a s' =>
    rw [hcases] at hrun
    obtain ⟨ts, hat, ha⟩ := hrun
    refine ⟨ts, hat, ha, fun u hu => ?_⟩
    have hkept := Steady.buffer_kept m K.grammar hcases hlexed
    obtain ⟨rest, hrest⟩ := hat.kept
    obtain ⟨us, rfl⟩ := List.head?_eq_some_iff.mp hu
    have hnext : s'.tokens[before.length]? = some u := by
      rw [← hrest, List.append_assoc, List.getElem?_append_right (Nat.le_refl _), Nat.sub_self]
      rfl
    have hindex := hs.index
    rw [List.append_nil] at hindex
    rw [Stream.tokens, List.getElem?_map, Array.getElem?_toList, ← hindex, hkept] at hnext
    cases hnext
    exact ht

namespace ReadsIf

lemma mono (h : K.ReadsIf p before since m P) (hP : ∀ ts a, P ts a → P' ts a) :
    K.ReadsIf p before since m P' :=
  fun t s hsees ht => (h t s hsees ht).mono hP

lemma part (h : K.ReadsIf p (before ++ since) [] m P)
    (hP : ∀ us a, P us a → P' (since ++ us) a) : K.ReadsIf p before since m P' := by
  intro t s hsees ht
  have hpart := (h t s (by rwa [List.append_nil]) ht).part
  rw [List.append_nil] at hpart
  refine hpart.mono ?_
  rintro _ a ⟨us, rfl, ha⟩
  exact hP us a ha

lemma bind_part (h : K.ReadsIf p (before ++ since) [] m P)
    (hf : ∀ us a, P us a → K.Reads before (since ++ us) (f a) Q) :
    K.ReadsIf p before since (m >>= f) Q := by
  have hpart : K.ReadsIf p before since m fun ts a => ∃ us, ts = since ++ us ∧ P us a :=
    h.part fun us a ha => ⟨us, rfl, ha⟩
  intro t s hsees ht
  refine (hpart t s hsees ht).bind ?_
  rintro us a ⟨us', heq, ha⟩
  rw [List.append_cancel_left heq]
  exact hf us' a ha

lemma read_bind {f : Session → Parse β} (h : K.ReadsIf p before since (f K.session) Q) :
    K.ReadsIf p before since (read >>= f) Q := by
  intro t s hsees ht
  rw [bind_apply, read_apply]
  exact h t s hsees ht

lemma exhausted (h : K.Affords (before ++ since) 0) :
    K.ReadsIf p before since (Parse.exhausted : Parse α) P :=
  fun _ _ hsees _ => .inr ⟨hsees.1.toHolds, fun hstrict =>
    absurd hsees.1.length_le (Nat.not_le_of_lt (h hstrict))⟩

end ReadsIf

namespace Reads

lemma mono (h : K.Reads before since m P) (hP : ∀ ts a, P ts a → P' ts a) :
    K.Reads before since m P' :=
  fun s hs => (h s hs).mono hP

lemma pure {a : α} {ts : List Token} (h : P ts a) (hts : since = ts) :
    K.Reads before since (pure a) P := by
  intro s hs
  subst hts
  refine ⟨[], ?_, ?_⟩ <;> rwa [List.append_nil]

lemma eq_ok (h : K.Reads before [] m P) (hs : K.At before s) {a : α}
    (hrun : m K.session s = .ok a s') : ∃ ts, K.At (before ++ ts) s' ∧ P ts a := by
  have houtcome := h s (by rwa [List.append_nil])
  rw [hrun] at houtcome
  exact houtcome

lemma bind (hm : K.Reads before since m P)
    (hf : ∀ us a, P (since ++ us) a → K.Reads before (since ++ us) (f a) Q) :
    K.Reads before since (m >>= f) Q :=
  fun s hs => (hm s hs).bind hf

lemma part (h : K.Reads (before ++ since) [] m P) (hP : ∀ us a, P us a → P' (since ++ us) a) :
    K.Reads before since m P' := by
  intro s hs
  have hpart := (h s (by rwa [List.append_nil])).part
  rw [List.append_nil] at hpart
  refine hpart.mono ?_
  rintro _ a ⟨us, rfl, ha⟩
  exact hP us a ha

lemma bind_from {us : List Token} (h : K.Reads (before ++ since) us m P)
    (hf : ∀ vs a, P (us ++ vs) a → K.Reads before (since ++ (us ++ vs)) (f a) Q) :
    K.Reads before (since ++ us) (m >>= f) Q := by
  intro s hs
  refine (h s (by rwa [List.append_assoc])).part.bind ?_
  rintro vs a ⟨vs', heq, ha⟩
  rw [List.append_assoc] at heq ⊢
  rw [← List.append_cancel_left heq] at ha
  exact hf vs a ha

lemma bind_part (h : K.Reads (before ++ since) [] m P)
    (hf : ∀ us a, P us a → K.Reads before (since ++ us) (f a) Q) :
    K.Reads before since (m >>= f) Q := by
  have hbind := bind_from h hf
  rwa [List.append_nil] at hbind

lemma bind_past (h : K.ReadsPast before m P)
    (hf : ∀ us a, P us a → K.Reads before (since ++ us) (f a) Q) :
    K.Reads before since (m >>= f) Q :=
  bind_part (h since) hf

lemma bind_within (h : K.ReadsWithin before m P) (hne : since ≠ [])
    (hf : ∀ us a, P us a → K.Reads before (since ++ us) (f a) Q) :
    K.Reads before since (m >>= f) Q :=
  bind_part (h since hne) hf

lemma exhausted (h : K.Affords (before ++ since) 0) :
    K.Reads before since (Parse.exhausted : Parse α) P :=
  fun _ hs => .inr ⟨hs.toHolds, fun hstrict => absurd hs.length_le (Nat.not_le_of_lt (h hstrict))⟩

lemma throw {d : Diagnostic} (hd : d.stage = .parser) :
    K.Reads before since (throw d : Parse α) P :=
  fun _ hs => .inr ⟨hs.toHolds, fun _ => hd⟩

lemma refuse {code : Code} {span : Span} {message : String} :
    K.Reads before since (refuse code span message : Parse α) P :=
  throw rfl

lemma refuse_bind {code : Code} {span : Span} {message : String} {f : α → Parse β} :
    K.Reads before since (Parse.refuse code span message >>= f) Q :=
  .bind (P := fun _ _ => False) .refuse fun _ _ h => h.elim

lemma read_bind {f : Session → Parse β} (h : K.Reads before since (f K.session) Q) :
    K.Reads before since (read >>= f) Q := by
  intro s hs
  rw [bind_apply, read_apply]
  exact h s hs

/-! ### Looking ahead -/

lemma peek_bind {f : Token → Parse β}
    (hf : ∀ t, K.Found t → K.ReadsIf (· = t) before since (f t) Q) :
    K.Reads before since (peek >>= f) Q := by
  intro s hs
  have hpeek := hs.peek
  rw [bind_apply]
  cases hcases : Parse.peek K.session s with
  | error d s' =>
    rw [hcases] at hpeek
    exact .inl hpeek
  | ok t s' =>
    rw [hcases] at hpeek
    exact hf t hpeek.2.1 t s' hpeek rfl

lemma nextIs_bind {kind : TokenKind} {f : Bool → Parse β}
    (htrue : K.ReadsIf (·.kind = kind) before since (f true) Q)
    (hfalse : K.ReadsIf (·.kind ≠ kind) before since (f false) Q) :
    K.Reads before since (nextIs kind >>= f) Q := by
  rw [nextIs, peekKind, bind_assoc, bind_assoc]
  refine peek_bind fun t _ u s hsees hu => ?_
  simp only [pure_bind]
  by_cases hkind : t.kind = kind
  · rw [beq_iff_eq.mpr hkind]
    exact htrue u s hsees (hu ▸ hkind)
  · rw [beq_eq_false_iff_ne.mpr hkind]
    exact hfalse u s hsees (hu ▸ hkind)

end Reads

/-! ### Consuming tokens -/

variable {select : Token → Option α} {refusal : Token → Diagnostic}

lemma ReadsIf.takeIf_bind {f : Option α → Parse β} [Spares select]
    (hnone : ∀ t, p t → select t = none → K.Reads before since (f none) Q)
    (hsome : ∀ t a, p t → K.Found t → select t = some a →
      K.Reads before (since ++ [t]) (f (some a)) Q) :
    K.ReadsIf p before since (takeIf select >>= f) Q := by
  rintro t s hsees hp
  obtain ⟨hat, hfound, lexed, hlexed, rfl⟩ := hsees
  rw [bind_apply, takeIf_apply, peek_of_buffered hlexed]
  dsimp only
  cases hselect : select lexed.token with
  | none => exact hnone _ hp hselect s hat
  | some a =>
    have hstep := Sees.step (K := K) ⟨hat, hfound, lexed, hlexed, rfl⟩
      (Spares.isEnd_eq_false hselect)
    rw [List.append_assoc] at hstep
    exact (hsome _ a hp hfound hselect s.step hstep).further

lemma ReadsIf.eat_bind {kind : TokenKind} {f : Bool → Parse β} [Fact kind.Inner]
    (hno : (∃ t, p t ∧ t.kind ≠ kind) → K.Reads before since (f false) Q)
    (hyes : ∀ t, p t → t.kind = kind → K.Reads before (since ++ [t]) (f true) Q) :
    K.ReadsIf p before since (eat kind >>= f) Q := by
  rw [Parse.eat_bind]
  refine .takeIf_bind (fun t ht hnone => hno ⟨t, ht, ?_⟩) fun t a ht _ hsome => hyes t ht ?_
  · rintro rfl
    rw [Token.ofKind?, if_pos rfl] at hnone
    cases hnone
  · exact (Token.ofKind?_eq_some hsome).1

namespace Reads

lemma takeIf_bind_ahead {f : Option α → Parse β} [Spares select]
    (hnone : K.ReadsIf (select · = none) before since (f none) Q)
    (hsome : ∀ t a, K.Found t → select t = some a →
      K.Reads before (since ++ [t]) (f (some a)) Q) :
    K.Reads before since (takeIf select >>= f) Q := by
  intro s hs
  have hpeek := hs.peek
  rw [bind_apply, takeIf_apply]
  cases hcases : Parse.peek K.session s with
  | error d s' =>
    rw [hcases] at hpeek
    exact .inl hpeek
  | ok t s' =>
    rw [hcases] at hpeek
    dsimp only
    cases hselect : select t with
    | none => exact hnone t s' hpeek hselect
    | some a =>
      have hstep := hpeek.step (Spares.isEnd_eq_false hselect)
      rw [List.append_assoc] at hstep
      exact (hsome t a hpeek.2.1 hselect s'.step hstep).further

lemma takeIf_bind {f : Option α → Parse β} [Spares select]
    (hnone : K.Reads before since (f none) Q)
    (hsome : ∀ t a, K.Found t → select t = some a →
      K.Reads before (since ++ [t]) (f (some a)) Q) :
    K.Reads before since (takeIf select >>= f) Q :=
  takeIf_bind_ahead hnone.ahead hsome

lemma take_bind_ahead {kind : TokenKind} {f : Option Token → Parse β} [Fact kind.Inner]
    (hnone : K.ReadsIf (·.kind ≠ kind) before since (f none) Q)
    (hsome : ∀ t, t.kind = kind → K.Reads before (since ++ [t]) (f (some t)) Q) :
    K.Reads before since (take? kind >>= f) Q := by
  refine takeIf_bind_ahead (fun t s hsees ht => hnone t s hsees ?_) fun t a _ ha => ?_
  · rintro rfl
    rw [Token.ofKind?, if_pos rfl] at ht
    cases ht
  · obtain ⟨hkind, rfl⟩ := Token.ofKind?_eq_some ha
    exact hsome t hkind

lemma take_bind {kind : TokenKind} {f : Option Token → Parse β} [Fact kind.Inner]
    (hnone : K.Reads before since (f none) Q)
    (hsome : ∀ t, t.kind = kind → K.Reads before (since ++ [t]) (f (some t)) Q) :
    K.Reads before since (take? kind >>= f) Q :=
  take_bind_ahead hnone.ahead hsome

lemma eat_bind {kind : TokenKind} {f : Bool → Parse β} [Fact kind.Inner]
    (hno : K.Reads before since (f false) Q)
    (hyes : ∀ t, t.kind = kind → K.Reads before (since ++ [t]) (f true) Q) :
    K.Reads before since (eat kind >>= f) Q := by
  rw [Parse.eat_bind]
  exact take_bind hno hyes

lemma accept_bind {f : α → Parse β} [Spares select] (hrefusal : ∀ t, (refusal t).stage = .parser)
    (hf : ∀ t a, K.Found t → select t = some a → K.Reads before (since ++ [t]) (f a) Q) :
    K.Reads before since (accept select refusal >>= f) Q := by
  intro s hs
  have hpeek := hs.peek
  rw [bind_apply, accept_apply]
  cases hcases : Parse.peek K.session s with
  | error d s' =>
    rw [hcases] at hpeek
    exact .inl hpeek
  | ok t s' =>
    rw [hcases] at hpeek
    dsimp only
    cases hselect : select t with
    | none => exact .inr ⟨hpeek.1.toHolds.moved _, fun _ => hrefusal t⟩
    | some a =>
      have hstep := hpeek.step (Spares.isEnd_eq_false hselect)
      rw [List.append_assoc] at hstep
      exact (hf t a hpeek.2.1 hselect s'.step hstep).further

lemma refuseNext {code : Code} {message : String} :
    K.Reads before since (refuseNext code message : Parse α) P := by
  intro s hs
  have hpeek := hs.peek
  rw [refuseNext_apply]
  cases hcases : Parse.peek K.session s with
  | error d s' =>
    rw [hcases] at hpeek
    exact .inl hpeek
  | ok t s' =>
    rw [hcases] at hpeek
    exact .inr ⟨hpeek.1.toHolds.moved _, fun _ => rfl⟩

lemma consume_bind {kind : TokenKind} {context : String} {f : Token → Parse β} [Fact kind.Inner]
    (hf : ∀ t, t.kind = kind → K.Reads before (since ++ [t]) (f t) Q) :
    K.Reads before since (consume kind context >>= f) Q := by
  refine accept_bind (fun _ => rfl) fun t a _ ha => ?_
  obtain ⟨hkind, rfl⟩ := Token.ofKind?_eq_some ha
  exact hf t hkind

lemma expect_bind {kind : TokenKind} {context : String} {f : Unit → Parse β} [Fact kind.Inner]
    (hf : ∀ t, t.kind = kind → K.Reads before (since ++ [t]) (f ()) Q) :
    K.Reads before since (discard (consume kind context) >>= f) Q := by
  rw [discard_eq, bind_assoc]
  exact consume_bind fun t ht => by simpa only [pure_bind] using hf t ht

lemma identifier_bind {context : String} {f : Ident → Parse β}
    (hf : ∀ t : Token, t.kind = .identifier → K.Reads before (since ++ [t]) (f t.ident) Q) :
    K.Reads before since (identifier context >>= f) Q := by
  rw [identifier, bind_assoc]
  exact consume_bind fun t ht => by simpa only [pure_bind] using hf t ht

/-! ### Ranges and the journal -/

lemma spanned {start : Span} {f : Span → β} {xs ts : List Token} (h : Q ts (f (cover ts)))
    (hstart : start = cover xs) (hxs : xs ≠ []) (hfront : xs <+: ts) (hts : since = ts) :
    K.Reads before since (do return f (← spanFrom start)) Q := by
  intro s hs
  subst hts
  obtain ⟨ys, rfl⟩ := hfront
  obtain ⟨last, hlast⟩ : ∃ last, (xs ++ ys).getLast? = some last :=
    ⟨_, List.getLast?_eq_some_getLast (List.append_ne_nil_of_left_ne_nil hxs ys)⟩
  have hordered := (List.pairwise_append.mp hs.toHolds.ordered).2.1
  have hspan : start.merge s.previousSpan = cover (xs ++ ys) := by
    have hlast' : (before ++ (xs ++ ys)).getLast? = some last := by
      rw [List.getLast?_append, hlast]
      rfl
    rw [hs.previousSpan hlast', hstart, cover_merge hordered hxs hlast]
  rw [bind_apply, spanFrom_apply, hspan]
  exact pure h rfl s hs

lemma spanFrom_bind {start : Span} {f : Span → Parse β}
    (hf : ∀ span, K.Reads before since (f span) Q) :
    K.Reads before since (spanFrom start >>= f) Q := by
  intro s hs
  rw [bind_apply, spanFrom_apply]
  exact hf _ s hs

lemma spanned_token {start : Span} {f : Span → β} {ts : List Token}
    (h : Q (t :: ts) (f (cover (t :: ts)))) (hstart : start = t.span) (hts : since = t :: ts) :
    K.Reads before since (do return f (← spanFrom start)) Q :=
  spanned h (hstart.trans (cover_singleton t).symm) (List.cons_ne_nil t []) (by simp) hts

lemma warn_bind {code : Code} {span : Span} {message : String} {f : Unit → Parse β}
    (hf : K.Reads before since (f ()) Q) :
    K.Reads before since (warn code span message >>= f) Q := by
  intro s hs
  exact hf _ (hs.record fun _ => rfl)

lemma traced {production : String} {token : Token} (h : K.Reads before since m P) :
    K.Reads before since (traced production token m) P := by
  intro s hs
  have hrun := h (s.record (.enter production token.lexeme token.span)) (hs.record fun _ => rfl)
  rw [traced_apply]
  cases hcases : m K.session (s.record (.enter production token.lexeme token.span)) with
  | error d s' =>
    rw [hcases] at hrun
    exact hrun.imp (·.record) fun h => ⟨h.1.record fun _ => rfl, h.2⟩
  | ok a s' =>
    rw [hcases] at hrun
    obtain ⟨ts, hat, ha⟩ := hrun
    exact ⟨ts, hat.record fun _ => rfl, ha⟩

end Reads

end Setting

end FrontEnd
