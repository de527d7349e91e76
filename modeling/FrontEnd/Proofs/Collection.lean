import FrontEnd.Proofs.Bodies
import Mathlib.Data.List.Dedup

/-!
# Which members are kept

A class or trait keeps all methods and properties that are written in its body, in their order. The
overloads of operators go into a table that has one place for each symbol: of several overloads of
a symbol it keeps the last.
-/

namespace FrontEnd

open Production

/-! ## The table of overloads -/

section Overloads

variable {new o : Overload Expr} {os xs : List (Overload Expr)}

/-- The symbols of a table go up. -/
def OperatorTable (os : List (Overload Expr)) : Prop :=
  os.Pairwise (·.symbol < ·.symbol)

lemma OperatorTable.nodup (h : OperatorTable os) : (os.map (·.symbol)).Nodup := by
  rw [List.Nodup, List.pairwise_map]
  refine h.imp fun {o p} hlt heq => ?_
  rw [heq] at hlt
  exact String.lt_irrefl _ hlt

lemma OperatorTable.mem_insertOverload (h : OperatorTable os) :
    o ∈ MemberList.insertOverload new os ↔ o = new ∨ (o ∈ os ∧ o.symbol ≠ new.symbol) := by
  induction os with
  | nil => simp [MemberList.insertOverload]
  | cons first os ih =>
    obtain ⟨hfirst, hos⟩ := List.pairwise_cons.mp h
    unfold MemberList.insertOverload
    split
    · next hlt =>
      have hne : ∀ p ∈ first :: os, p.symbol ≠ new.symbol := by
        rintro p hp heq
        rcases List.mem_cons.mp hp with rfl | hp
        · exact String.lt_irrefl _ (heq ▸ hlt)
        · exact String.lt_asymm hlt (heq ▸ hfirst p hp)
      rw [List.mem_cons]
      exact or_congr_right ⟨fun ho => ⟨ho, hne o ho⟩, And.left⟩
    · split
      · next heq =>
        have hne : ∀ p ∈ os, p.symbol ≠ new.symbol := fun p hp hsymbol =>
          String.lt_irrefl _ (heq ▸ hsymbol ▸ hfirst p hp)
        grind
      · next hne =>
        have hrest := ih hos
        grind

lemma OperatorTable.insertOverload (h : OperatorTable os) :
    OperatorTable (MemberList.insertOverload new os) := by
  induction os with
  | nil => exact List.pairwise_singleton _ _
  | cons first os ih =>
    obtain ⟨hfirst, hos⟩ := List.pairwise_cons.mp h
    unfold MemberList.insertOverload
    split
    · next hlt =>
      refine List.pairwise_cons.mpr ⟨fun p hp => ?_, h⟩
      rcases List.mem_cons.mp hp with rfl | hp
      · exact hlt
      · exact String.lt_trans hlt (hfirst p hp)
    · split
      · next heq => exact List.pairwise_cons.mpr ⟨fun p hp => heq ▸ hfirst p hp, hos⟩
      · next hge hne =>
        have hlt : first.symbol < new.symbol :=
          Std.lt_of_le_of_ne (String.not_lt.mp hge) (Ne.symm hne)
        refine List.pairwise_cons.mpr ⟨fun p hp => ?_, ih hos⟩
        rcases (OperatorTable.mem_insertOverload hos).mp hp with rfl | ⟨hp, -⟩
        · exact hlt
        · exact hfirst p hp

/-- An overload is the last of its symbol in a list. -/
def LastOverload (o : Overload Expr) (xs : List (Overload Expr)) : Prop :=
  ∃ before after, xs = before ++ o :: after ∧ ∀ p ∈ after, p.symbol ≠ o.symbol

lemma lastOverload_cons {x : Overload Expr} :
    LastOverload o (x :: xs) ↔
      LastOverload o xs ∨ (o = x ∧ ∀ p ∈ xs, p.symbol ≠ o.symbol) := by
  constructor
  · rintro ⟨_ | ⟨y, before⟩, after, hxs, hlast⟩
    · cases hxs
      exact .inr ⟨rfl, hlast⟩
    · cases hxs
      exact .inl ⟨before, after, rfl, hlast⟩
  · rintro (⟨before, after, rfl, hlast⟩ | ⟨rfl, hlast⟩)
    · exact ⟨x :: before, after, rfl, hlast⟩
    · exact ⟨[], xs, rfl, hlast⟩

/-- In a list an overload is followed by one of its symbol. -/
def ReplacedOverload (o : Overload Expr) (xs : List (Overload Expr)) : Prop :=
  ∃ before after, xs = before ++ o :: after ∧ ∃ p ∈ after, p.symbol = o.symbol

/-- A table to which overloads are added one after another. -/
def addOverloads (os xs : List (Overload Expr)) : List (Overload Expr) :=
  xs.foldl (fun os x => MemberList.insertOverload x os) os

lemma OperatorTable.addOverloads (h : OperatorTable os) :
    OperatorTable (addOverloads os xs) := by
  induction xs generalizing os with
  | nil => exact h
  | cons x xs ih => exact ih h.insertOverload

lemma OperatorTable.mem_addOverloads (h : OperatorTable os) :
    o ∈ FrontEnd.addOverloads os xs ↔
      LastOverload o xs ∨ (o ∈ os ∧ ∀ p ∈ xs, p.symbol ≠ o.symbol) := by
  induction xs generalizing os with
  | nil => simp [FrontEnd.addOverloads, LastOverload]
  | cons x xs ih =>
    have hcons : FrontEnd.addOverloads os (x :: xs) =
        FrontEnd.addOverloads (MemberList.insertOverload x os) xs := rfl
    rw [hcons, ih h.insertOverload, h.mem_insertOverload, lastOverload_cons]
    grind

lemma exists_lastOverload (h : o ∈ xs) : ∃ p, LastOverload p xs ∧ p.symbol = o.symbol := by
  induction xs generalizing o with
  | nil => cases h
  | cons x xs ih =>
    by_cases hlater : ∃ p ∈ xs, p.symbol = o.symbol
    · obtain ⟨p, hp, hsymbol⟩ := hlater
      obtain ⟨q, hq, hq'⟩ := ih hp
      exact ⟨q, lastOverload_cons.mpr (.inl hq), hq'.trans hsymbol⟩
    · have hlast : ∀ p ∈ xs, p.symbol ≠ o.symbol := fun p hp heq => hlater ⟨p, hp, heq⟩
      have heq : o = x := (List.mem_cons.mp h).resolve_right fun ho => hlast o ho rfl
      exact ⟨o, lastOverload_cons.mpr (.inr ⟨heq, hlast⟩), rfl⟩

lemma length_addOverloads :
    (addOverloads [] xs).length = xs.length ↔ (xs.map (·.symbol)).Nodup := by
  have hempty : OperatorTable [] := List.Pairwise.nil
  have hperm : ((addOverloads [] xs).map (·.symbol)).Perm (xs.map (·.symbol)).dedup := by
    refine (List.perm_ext_iff_of_nodup hempty.addOverloads.nodup (List.nodup_dedup _)).mpr ?_
    intro symbol
    simp only [List.mem_dedup, List.mem_map, hempty.mem_addOverloads, List.not_mem_nil, false_and,
      or_false]
    constructor
    · rintro ⟨o, ⟨before, after, rfl, -⟩, rfl⟩
      exact ⟨o, by simp, rfl⟩
    · rintro ⟨o, ho, rfl⟩
      exact exists_lastOverload ho
  have hlength := hperm.length_eq
  rw [List.length_map] at hlength
  have hsub := (List.dedup_sublist (xs.map (·.symbol))).length_eq
  rw [List.length_map] at hsub
  rw [hlength, hsub, List.dedup_eq_self]

/-- Things that stand for overloads are divided into those whose overloads are in the table in the
end, and those whose overloads are replaced. -/
lemma exists_partition {α : Type} (pairs : List (α × Overload Expr)) :
    ∃ kept replaced : List (α × Overload Expr), (kept ++ replaced).Perm pairs ∧
      (kept.map Prod.snd).Perm (addOverloads [] (pairs.map Prod.snd)) ∧
      ∀ p ∈ replaced, ReplacedOverload p.2 (pairs.map Prod.snd) := by
  have hdivide : ∃ kept replaced : List (α × Overload Expr), (kept ++ replaced).Perm pairs ∧
      (∀ o, o ∈ kept.map Prod.snd ↔ LastOverload o (pairs.map Prod.snd)) ∧
      ((kept.map Prod.snd).map (·.symbol)).Nodup ∧
      ∀ p ∈ replaced, ReplacedOverload p.2 (pairs.map Prod.snd) := by
    induction pairs with
    | nil => exact ⟨[], [], .nil, by simp [LastOverload], List.nodup_nil, List.forall_mem_nil _⟩
    | cons x pairs ih =>
      obtain ⟨kept, replaced, hperm, hmem, hnodup, hreplaced⟩ := ih
      have hbehind : ∀ p ∈ replaced, ReplacedOverload p.2 ((x :: pairs).map Prod.snd) := by
        intro p hp
        obtain ⟨before, after, hsplit, hlater⟩ := hreplaced p hp
        exact ⟨x.2 :: before, after, by rw [List.map_cons, hsplit]; rfl, hlater⟩
      by_cases hlater : ∃ p ∈ pairs.map Prod.snd, p.symbol = x.2.symbol
      · refine ⟨kept, x :: replaced, List.perm_middle.trans (hperm.cons x), fun o => ?_, hnodup,
          List.forall_mem_cons.mpr ⟨⟨[], _, rfl, hlater⟩, hbehind⟩⟩
        rw [hmem, List.map_cons, lastOverload_cons]
        grind
      · refine ⟨x :: kept, replaced, hperm.cons x, fun o => ?_, ?_, hbehind⟩
        · rw [List.map_cons, List.map_cons, List.mem_cons, hmem, lastOverload_cons]
          grind
        · refine List.nodup_cons.mpr ⟨fun hsymbol => hlater ?_, hnodup⟩
          obtain ⟨o, ho, hsame⟩ := List.mem_map.mp hsymbol
          obtain ⟨before, after, hsplit, -⟩ := (hmem o).mp ho
          exact ⟨o, by rw [hsplit]; simp, hsame⟩
  obtain ⟨kept, replaced, hperm, hmem, hnodup, hreplaced⟩ := hdivide
  have hempty : OperatorTable [] := List.Pairwise.nil
  refine ⟨kept, replaced, hperm, ?_, hreplaced⟩
  refine (List.perm_ext_iff_of_nodup hnodup.of_map hempty.addOverloads.nodup.of_map).mpr ?_
  intro o
  rw [hmem, hempty.mem_addOverloads]
  simp

end Overloads

/-- No method and no property of an accepted body is lost, and they stay in their order. Of the
operator overloads that are written the last of each symbol is kept, so all of them are kept if they
have different symbols, and only then. -/
theorem members_kept {source : String} {e : Expr} (h : (parse source).result = .ok (some e))
    {node : Expr} (hnode : node.Occurs e) {body : BodyKind} {members : MemberList Expr}
    (hbody : node.form.body? = some (body, members)) :
    ∃ written, HasBody source node body written ∧
      members.methods.map (·.item) = written.filterMap Written.method? ∧
      members.properties.map (·.item) = written.filterMap Written.property? ∧
      (∀ o, o ∈ members.operators ↔ LastOverload o (written.filterMap Written.overload?)) ∧
      (members.operators.length = (written.filterMap Written.overload?).length ↔
        ((written.filterMap Written.overload?).map (·.symbol)).Nodup) := by
  obtain ⟨written, hwritten, rfl, -⟩ := parse_hasBody h hnode hbody
  have hempty : OperatorTable [] := List.Pairwise.nil
  refine ⟨written, hwritten, ?_, ?_, fun o => ?_, ?_⟩
  · simp [Written.methods_foldl, MemberList.empty, List.map_filterMap, Function.comp_def,
      Written.given]
  · simp [Written.properties_foldl, MemberList.empty, List.map_filterMap, Function.comp_def,
      Written.given]
  · rw [Written.operators_foldl]
    exact hempty.mem_addOverloads.trans (by simp)
  · rw [Written.operators_foldl]
    exact length_addOverloads

/-- Members in blocks of all sorts, with overloads of different operators. -/
theorem members_kept_blocks :
    let source := "class A \x7b static \x7b public \x7b a: T = 1, fn f() \x7b\x7d \x7d, operator " ++
      "-() A \x7b\x7d \x7d, private b: T, operator +(o: A) A \x7b\x7d, fn g() \x7b\x7d \x7d"
    ∃ e body members, (parse source).result = .ok (some e) ∧
      e.form.body? = some (body, members) ∧ members.operators.map (·.symbol) = ["+", "-"] ∧
      ∃ written, HasBody source e body written ∧
        (written.filterMap Written.method?).map (·.name.name) = ["f", "g"] ∧
        (written.filterMap Written.property?).map (·.simpleName?) = [some "a", some "b"] ∧
        ∀ o ∈ members.operators, LastOverload o (written.filterMap Written.overload?) := by
  intro source
  have hnames : (rootBody? source).map (fun b =>
      (b.2.operators.map (·.symbol), b.2.methods.map (·.item.name.name),
        b.2.properties.map (·.item.simpleName?))) =
      some (["+", "-"], ["f", "g"], [some "a", some "b"]) := by
    decide +kernel
  obtain ⟨e, body, members, hparse, hbody, hnames⟩ := eq_ok_of_rootBody? hnames
  obtain ⟨hoperators, hnames⟩ := Prod.mk.inj hnames
  obtain ⟨hmethods, hproperties⟩ := Prod.mk.inj hnames
  obtain ⟨written, hwritten, hmethods', hproperties', hkept, -⟩ := members_kept hparse .root hbody
  refine ⟨e, body, members, hparse, hbody, hoperators, written, hwritten, ?_, ?_,
    fun o => (hkept o).mp⟩
  · rw [← hmethods', List.map_map]
    exact hmethods
  · rw [← hproperties', List.map_map]
    exact hproperties

/-- Of two overloads of one symbol, which have different arities, the first is lost. -/
theorem overload_replaced :
    let source := "class A \x7b operator -() A \x7b\x7d, operator -(o: A) A \x7b\x7d \x7d"
    ((tokenize source).result.toOption.map fun ts =>
      (ts.filter (·.kind == .kwOperator)).length) = some 2 ∧
    ((rootBody? source).map fun b =>
      b.2.operators.map fun o => (o.symbol, o.function.params.length)) = some [("-", 1)] := by
  decide +kernel

end FrontEnd
