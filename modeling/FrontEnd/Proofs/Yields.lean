import FrontEnd.Proofs.Nests
import FrontEnd.Proofs.Phrases
import Mathlib.Data.List.Infix

/-!
# What tokens yield

The tokens of a phrase, one behind the other, yield the nodes and the leaves of what the phrase
spells. `Yields` says so apart from the grammar: a node takes up the range of its tokens, and a leaf
stands for one token. So the leaves are those of the tokens, and the nodes lie in one another.
-/

namespace FrontEnd

/-! ## Leaves of tokens -/

/-- The kinds of tokens that stand for a leaf. -/
def TokenKind.isLeaf : TokenKind → Bool
  | .identifier | .label | .numberLiteral | .stringLiteral | .charLiteral
  | .templateStringLiteral => true
  | _ => false

/-- The leaf that a token stands for. -/
def Token.leaf? (t : Token) : Option Leaf :=
  match t.kind, t.value with
  | .identifier, _ => some (.name t.text)
  | .label, _ => some (.label t.text)
  | .numberLiteral, .number value => some (.number value)
  | .stringLiteral, .text value => some (.string value)
  | .charLiteral, .char value => some (.char value)
  | .templateStringLiteral, .template parts => some (.template parts)
  | _, _ => none

/-- The keywords that open a body with members. -/
def TokenKind.opensMembers : TokenKind → Bool
  | .kwClass | .kwStruct | .kwTrait | .kwStructural => true
  | _ => false

/-- Tokens that are kept in order: none of them opens a body with members, and no label stands
behind another one and its colon. -/
structure Straight (ts : List Token) : Prop where
  members : ∀ t ∈ ts, t.kind.opensMembers = false
  labels : ¬ [TokenKind.label, .colon, .label] <:+: ts.map Token.kind

lemma straight_iff {ts : List Token} : Straight ts ↔
    (∀ t ∈ ts, t.kind.opensMembers = false) ∧
      ¬ [TokenKind.label, .colon, .label] <:+: ts.map Token.kind :=
  ⟨fun h => ⟨h.members, h.labels⟩, fun h => ⟨h.1, h.2⟩⟩

instance (ts : List Token) : Decidable (Straight ts) :=
  decidable_of_iff _ straight_iff.symm

lemma Straight.of_infix {ts us : List Token} (h : Straight ts) (hus : us <:+: ts) :
    Straight us where
  members t ht := h.members t (hus.subset ht)
  labels hlabels := h.labels (hlabels.trans (hus.map Token.kind))

/-! ## Yields -/

lemma Ordered.stop_cover {t last : Token} {ts : List Token} (h : Ordered (t :: ts))
    (hlast : (t :: ts).getLast? = some last) : (cover (t :: ts)).stop = last.span.stop := by
  have hle : t.span.start.offset ≤ last.span.stop :=
    Nat.le_trans (Ordered.offset_le h (List.mem_of_getLast? hlast)) (Nat.le_add_right _ _)
  rw [cover_eq hlast, Span.stop_new hle]

lemma Ordered.cover_inside {ts xs : List Token} (h : Ordered ts) (hsub : xs.Sublist ts)
    (hne : xs ≠ []) : (cover xs).Inside (cover ts) := by
  obtain ⟨x, xs, rfl⟩ := List.exists_cons_of_ne_nil hne
  obtain ⟨t, ts, rfl⟩ :=
    List.exists_cons_of_ne_nil (List.ne_nil_of_mem (hsub.subset List.mem_cons_self))
  have hlast := List.getLast?_eq_some_getLast (List.cons_ne_nil t ts)
  have hlast' := List.getLast?_eq_some_getLast (List.cons_ne_nil x xs)
  constructor
  · rw [cover_eq hlast, cover_eq hlast']
    exact Ordered.offset_le h (hsub.subset List.mem_cons_self)
  · rw [Ordered.stop_cover h hlast, Ordered.stop_cover (h.sublist hsub) hlast']
    exact Ordered.stop_le h hlast (hsub.subset (List.mem_of_getLast? hlast'))

/-- Tokens yield nodes and leaves, in order. -/
inductive Yields : List Token → List Nest → Prop where
  | nil : Yields [] []
  | skip {t} (ht : t.leaf? = none) : Yields [t] []
  | leaf {t value inside} (ht : t.leaf? = some value) (h : ∀ n ∈ inside, n.Within t.span) :
    Yields [t] [.leaf value inside]
  | append {xs ys ms ns} (hx : Yields xs ms) (hy : Yields ys ns) : Yields (xs ++ ys) (ms ++ ns)
  | node {ts ns} (hne : ts ≠ []) (h : Yields ts ns) : Yields ts [.node (cover ts) ns]
  /-- A node without leaves may stand at any of the tokens. -/
  | standIn {t ts ms ns} (ht : t ∈ ts) (h : Yields ts (ms ++ ns)) :
    Yields ts (ms ++ .node t.span [] :: ns)
  /-- Where the order is not kept, some may also be lost. -/
  | loose {ts ms ns} (hts : ¬ Straight ts) (h : Yields ts ms) (hns : ∀ n ∈ ns, n ∈ ms) :
    Yields ts ns

namespace Yields

variable {t : Token} {ts xs ys : List Token} {ms ns : List Nest}

lemma leaves (h : Yields ts ns) (hts : Straight ts) :
    ts.filterMap Token.leaf? = ns.flatMap Nest.leaves := by
  induction h with
  | nil => rfl
  | skip ht => simp [ht]
  | leaf ht h => simp [ht]
  | @append xs ys ms ns hx hy ihx ihy =>
    have hxs := ihx (hts.of_infix (List.prefix_append xs ys).isInfix)
    have hys := ihy (hts.of_infix (List.suffix_append xs ys).isInfix)
    rw [List.filterMap_append, List.flatMap_append, hxs, hys]
  | node hne h ih => simpa using ih hts
  | standIn ht h ih => simpa using ih hts
  | loose hloose => exact absurd hts hloose

lemma eq_nil (h : Yields ts ns) (hts : ts = []) : ns = [] := by
  induction h with
  | nil => rfl
  | skip ht => rfl
  | leaf ht h => cases hts
  | append hx hy ihx ihy =>
    obtain ⟨rfl, rfl⟩ := List.append_eq_nil_iff.mp hts
    rw [ihx rfl, ihy rfl, List.append_nil]
  | node hne h ih => exact absurd hts hne
  | standIn ht h ih =>
    rw [hts] at ht
    cases ht
  | loose hloose h hns ih =>
    refine List.eq_nil_iff_forall_not_mem.mpr fun n hn => ?_
    have hmem := hns n hn
    rw [ih hts] at hmem
    cases hmem

lemma ne_nil {n : Nest} (h : Yields ts (n :: ns)) : ts ≠ [] :=
  fun hts => List.cons_ne_nil n ns (h.eq_nil hts)

/-- What ordered tokens yield lies in their range. -/
lemma within (h : Yields ts ns) (hts : Ordered ts) : ∀ n ∈ ns, n.Within (cover ts) := by
  induction h with
  | nil =>
    intro n hn
    cases hn
  | skip ht =>
    intro n hn
    cases hn
  | @leaf t value inside ht h =>
    intro n hn
    rw [List.mem_singleton.mp hn, cover_singleton]
    exact .leaf h
  | @append xs ys ms ns hx hy ihx ihy =>
    intro n hn
    rcases List.mem_append.mp hn with hn | hn
    · have hne : xs ≠ [] := fun hnil => List.not_mem_nil (hx.eq_nil hnil ▸ hn)
      exact (ihx (hts.sublist (List.sublist_append_left xs ys)) n hn).mono
        (Ordered.cover_inside hts (List.sublist_append_left xs ys) hne)
    · have hne : ys ≠ [] := fun hnil => List.not_mem_nil (hy.eq_nil hnil ▸ hn)
      exact (ihy (hts.sublist (List.sublist_append_right xs ys)) n hn).mono
        (Ordered.cover_inside hts (List.sublist_append_right xs ys) hne)
  | @node ts ns hne h ih =>
    intro n hn
    rw [List.mem_singleton.mp hn]
    exact .node (Span.Inside.refl _) (ih hts)
  | @standIn t ts ms ns ht h ih =>
    intro n hn
    have hcases : n ∈ ms ++ ns ∨ n = .node t.span [] := by
      rcases List.mem_append.mp hn with hn | hn
      · exact .inl (List.mem_append_left ns hn)
      · exact (List.mem_cons.mp hn).symm.imp_left (List.mem_append_right ms)
    rcases hcases with hn | rfl
    · exact ih hts n hn
    · have hinside :=
        Ordered.cover_inside hts (List.singleton_sublist.mpr ht) (List.cons_ne_nil t [])
      rw [cover_singleton] at hinside
      exact .node hinside fun n hn => absurd hn List.not_mem_nil
  | loose hloose h hns ih => exact fun n hn => ih hts n (hns n hn)

/-! ### Marks and names -/

lemma mark {kind : TokenKind} (ht : t.kind = kind) (hkind : kind.isLeaf = false) :
    Yields [t] [] := by
  subst ht
  refine .skip ?_
  rw [Token.leaf?]
  split <;> simp_all [TokenKind.isLeaf]

lemma mark_append {kind : TokenKind} (ht : t.kind = kind) (hkind : kind.isLeaf = false)
    (h : Yields ts ns) : Yields (t :: ts) ns :=
  .append (.mark ht hkind) h

lemma cons {n : Nest} (ht : Yields [t] [n]) (h : Yields ts ns) : Yields (t :: ts) (n :: ns) :=
  .append ht h

lemma ident (ht : t.kind = .identifier) : Yields [t] [t.ident.nest] := by
  have hleaf : t.leaf? = some (.name t.ident.name) := by
    unfold Token.leaf?
    rw [ht]
    rfl
  have hname : Yields [t] [.leaf (.name t.ident.name) []] :=
    leaf hleaf fun n hn => absurd hn List.not_mem_nil
  have hnode := node (List.cons_ne_nil t []) hname
  rwa [cover_singleton] at hnode

lemma label (ht : t.kind = .label) : Yields [t] (labelNests (some t.text)) := by
  refine leaf ?_ fun n hn => absurd hn List.not_mem_nil
  unfold Token.leaf?
  rw [ht]

end Yields

end FrontEnd
