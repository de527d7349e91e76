import FrontEnd.Proofs.YieldingTokens

/-!
# No name or literal is lost

The leaves of a tree, read in order, are the tokens of the source that are names, labels or literals
with a value other than `true` and `false`. There are two exceptions: classes and traits sort their
members, and a label that follows another one at the same place takes its place.
-/

namespace FrontEnd

lemma Token.isSome_leaf? {t : Token} (h : t.kind.Suits t.value) :
    t.leaf?.isSome = t.kind.isLeaf := by
  obtain ⟨kind, value, span, lexeme⟩ := t
  cases kind <;> cases value <;> first | rfl | exact (h : False).elim | cases h

lemma map_leaf?_filter {ts : List Token} (h : ∀ t ∈ ts, t.kind.Suits t.value) :
    (ts.filter (·.kind.isLeaf)).map Token.leaf? = (ts.filterMap Token.leaf?).map some := by
  induction ts with
  | nil => rfl
  | cons t ts ih =>
    have hrest := ih fun u hu => h u (List.mem_cons_of_mem t hu)
    have hleaf := Token.isSome_leaf? (h t List.mem_cons_self)
    cases hcases : t.leaf? with
    | none =>
      rw [hcases] at hleaf
      rw [List.filter_cons_of_neg (by rw [← hleaf]; exact Bool.false_ne_true),
        List.filterMap_cons_none hcases, hrest]
    | some leaf =>
      rw [hcases] at hleaf
      rw [List.filter_cons_of_pos (by rw [← hleaf]; rfl), List.filterMap_cons_some hcases,
        List.map_cons, List.map_cons, hrest, hcases]

lemma suits_of_tokenize {source : String} {ts : List Token}
    (h : (tokenize source).result = .ok ts) : ∀ t ∈ ts, t.kind.Suits t.value := by
  obtain ⟨run, ws, ⟨-, c, last, c', hrun, -⟩, rfl⟩ := whole_of_tokenize h
  intro t ht
  obtain ⟨lexed, hlexed, rfl⟩ := List.mem_map.mp ht
  obtain ⟨_, _, _, r, r₁, r₂, -, -, -, htoken, -⟩ := hrun.finds hlexed
  exact Scan.tokenHere_suits htoken

/-- The leaves of a program, in order. -/
def leaves (program : Option Expr) : List Leaf :=
  program.toList.flatMap (·.nest.leaves)

lemma ProgramPhrase.leaves_eq {ts : List Token} {program : Option Expr}
    (h : ProgramPhrase .yielding ts program) (hts : Straight ts) :
    ts.filterMap Token.leaf? = leaves program := by
  cases h with
  | empty => rfl
  | expr h =>
    rw [h.spells.nest.leaves hts, leaves]
    simp

/-- No name or literal is lost, doubled or moved: a source that can be parsed has all its tokens,
and if these are kept in order, the tokens that stand for leaves are the leaves of the tree, one by
one. -/
theorem parse_keeps_leaves {source : String} {program : Option Expr}
    (h : (parse source).result = .ok program) :
    ∃ tokens, (tokenize source).result = .ok tokens ∧
      (Straight tokens →
        (tokens.filter (·.kind.isLeaf)).map Token.leaf? = (leaves program).map some) := by
  obtain ⟨ts, htokens, -, hphrase⟩ := parse_eq_ok (Language.closed_yielding_ofText _) h
  refine ⟨ts, htokens, fun hts => ?_⟩
  rw [map_leaf?_filter (suits_of_tokenize htokens), hphrase.leaves_eq hts]

/-- A labelled loop with names, types, patterns and literals of all kinds. -/
theorem parse_keeps_leaves_loop :
    let source := "#a: for x in [1, 'c'] \x7b let n: M[K] = `t${x}`; break #a f(x, k: \"s\") \x7d"
    ∃ program tokens, (parse source).result = .ok program ∧
      (tokenize source).result = .ok tokens ∧ Straight tokens ∧
        (tokens.filter (·.kind.isLeaf)).map Token.leaf? = (leaves program).map some := by
  intro source
  have hparse : (parse source).result.toOption.map Option.isSome = some true := by decide +kernel
  have hkept : (tokenize source).result.toOption.map (fun ts => decide (Straight ts)) =
      some true := by
    decide +kernel
  obtain ⟨program, hprogram, -⟩ := Outcome.eq_ok_of_map hparse
  obtain ⟨tokens, htokens, hstraight⟩ := Outcome.eq_ok_of_map hkept
  obtain ⟨tokens', htokens', hleaves⟩ := parse_keeps_leaves hprogram
  rw [htokens] at htokens'
  cases htokens'
  have hstraight' := of_decide_eq_true hstraight
  exact ⟨program, tokens, hprogram, htokens, hstraight', hleaves hstraight'⟩

end FrontEnd
