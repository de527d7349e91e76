import FrontEnd.Proofs.Bodies

/-!
# Modifiers of members

The blocks that are open at a member are at most two, of different sorts, and a member repeats none
of their modifiers. It is static if `static` is written on it or on a block around it. Its
visibility is that of the innermost privacy keyword around it, but for two places at which that
keyword goes unheard.
-/

namespace FrontEnd

open Parse Production

/-! ## The member loop -/

/-- What a round of the member loop leaves: the members of the body at its end, or what the next
round starts with. -/
inductive Round where
  | finished (members : MemberList Expr)
  | next (blocks : OpenBlocks) (members : MemberList Expr)

section Rounds

variable (expr : Precedence → Parse Expr) (body : BodyKind)

/-- One round of the member loop: the brace that closes a block or the body, the opening of a block,
or a member. -/
def memberRound (blocks : OpenBlocks) (members : MemberList Expr) : Parse Round := do
  if ← eat .rightBrace then
    match blocks with
    | [] => return .finished members
    | _ :: outer =>
      memberEnd
      return .next outer members
  else
    match ← member expr body blocks members with
    | .opened blocks => return .next blocks members
    | .member members =>
      memberEnd
      return .next blocks members

/-- The rounds of the member loop, from the opening brace of a body on. -/
inductive MemberRounds (σ : Session) (s : Stream) :
    OpenBlocks → MemberList Expr → Stream → Prop where
  | start : MemberRounds σ s [] .empty s
  | round {blocks members s₁ blocks' members' s₂} (h : MemberRounds σ s blocks members s₁)
    (hround : memberRound expr body blocks members σ s₁ = .ok (.next blocks' members') s₂) :
    MemberRounds σ s blocks' members' s₂

variable {expr body}
variable {blocks blocks' inner : OpenBlocks} {members members' result : MemberList Expr}
variable {σ : Session} {s s₁ s' : Stream}

lemma membersWithin_succ (fuel : Nat) :
    membersWithin expr body (fuel + 1) blocks members = (do
      match ← memberRound expr body blocks members with
      | .finished result => return result
      | .next blocks members => membersWithin expr body fuel blocks members) := by
  conv_lhs => unfold membersWithin
  unfold memberRound
  rw [bind_assoc]
  congr 1
  funext closed
  cases closed with
  | true => cases blocks <;> simp
  | false =>
    simp only [Bool.false_eq_true, if_false, bind_assoc]
    congr 1
    funext modified
    cases modified <;> simp

lemma MemberRounds.finishes {fuel : Nat} (h : MemberRounds expr body σ s blocks members s₁)
    (hrun : membersWithin expr body fuel blocks members σ s₁ = .ok result s') :
    ∃ blocks members s₂, MemberRounds expr body σ s blocks members s₂ ∧
      memberRound expr body blocks members σ s₂ = .ok (.finished result) s' := by
  induction fuel generalizing blocks members s₁ with
  | zero => cases hrun
  | succ fuel ih =>
    rw [membersWithin_succ] at hrun
    obtain ⟨round, s₂, hround, hrun⟩ := bind_eq_ok hrun
    cases round with
    | finished result =>
      cases hrun
      exact ⟨blocks, members, s₁, h, hround⟩
    | next blocks' members' => exact ih (h.round hround) hrun

/-! ## The stack of open blocks -/

/-- No more than two blocks are open, and they are of different sorts. -/
structure Disciplined (blocks : OpenBlocks) : Prop where
  depth : blocks.length ≤ 2
  nodup : blocks.Nodup

lemma Disciplined.outer {block : ModifierBlock} (h : Disciplined (block :: blocks)) :
    Disciplined blocks :=
  ⟨Nat.le_of_succ_le h.depth, h.nodup.of_cons⟩

lemma Nestable.disciplined {around : List Modifiers} (h : Nestable around) :
    Disciplined (openBlocks around) := by
  induction h with
  | nil => exact ⟨Nat.zero_le 2, List.nodup_nil⟩
  | cons hblock hdepth hnew _ _ ih =>
    rw [openBlocks_cons hblock]
    exact ⟨hdepth, List.nodup_cons.mpr ⟨hnew, ih.nodup⟩⟩

lemma openBlock_disciplined {block : ModifierBlock} {brace : Token}
    (hrun : openBlock blocks block brace σ s = .ok inner s') (h : Disciplined blocks) :
    Disciplined inner := by
  unfold openBlock at hrun
  split at hrun
  · cases hrun
  · next hfree =>
    cases hrun
    obtain ⟨hdepth, hnew⟩ := not_or.mp hfree
    exact ⟨Nat.lt_of_not_le hdepth, List.nodup_cons.mpr ⟨hnew, h.nodup⟩⟩

lemma afterPrivacy_disciplined {keyword : Token} {block : ModifierBlock} {visibility : Visibility}
    (hrun : afterPrivacy blocks keyword block visibility σ s = .ok (.opened inner) s')
    (h : Disciplined blocks) : Disciplined inner := by
  obtain ⟨brace, s₁, -, hrun⟩ := bind_eq_ok hrun
  cases brace with
  | some brace =>
    obtain ⟨opened, s₂, hopen, hrun⟩ := bind_eq_ok hrun
    cases hrun
    exact openBlock_disciplined hopen h
  | none =>
    obtain ⟨_, s₂, -, hrun⟩ := bind_eq_ok hrun
    cases hrun

lemma privacy_disciplined (hrun : privacy body blocks σ s = .ok (.opened inner) s')
    (h : Disciplined blocks) : Disciplined inner := by
  obtain ⟨keyword, s₁, -, hrun⟩ := bind_eq_ok hrun
  split at hrun
  · obtain ⟨_, s₂, -, hrun⟩ := bind_eq_ok hrun
    obtain ⟨_, s₃, -, hrun⟩ := bind_eq_ok hrun
    cases hrun
  · exact afterPrivacy_disciplined hrun h
  · exact afterPrivacy_disciplined hrun h
  · cases hrun

lemma staticness_disciplined (hrun : staticness blocks σ s = .ok (.opened inner) s')
    (h : Disciplined blocks) : Disciplined inner := by
  obtain ⟨keyword, s₁, -, hrun⟩ := bind_eq_ok hrun
  cases keyword with
  | none => cases hrun
  | some keyword =>
    obtain ⟨brace, s₂, -, hrun⟩ := bind_eq_ok hrun
    cases brace with
    | some brace =>
      obtain ⟨opened, s₃, hopen, hrun⟩ := bind_eq_ok hrun
      cases hrun
      exact openBlock_disciplined hopen h
    | none =>
      dsimp only at hrun
      split at hrun <;> cases hrun

lemma member_disciplined (hrun : member expr body blocks members σ s = .ok (.opened inner) s')
    (h : Disciplined blocks) : Disciplined inner := by
  obtain ⟨first, s₁, -, hrun⟩ := bind_eq_ok hrun
  obtain ⟨_, s₂, -, hrun⟩ := bind_eq_ok hrun
  obtain ⟨visibility, s₃, hprivacy, hrun⟩ := bind_eq_ok hrun
  cases visibility with
  | opened opened =>
    cases hrun
    exact privacy_disciplined hprivacy h
  | member visibility =>
    obtain ⟨scope, s₄, hstatic, hrun⟩ := bind_eq_ok hrun
    cases scope with
    | opened opened =>
      cases hrun
      exact staticness_disciplined hstatic h
    | member scope =>
      obtain ⟨_, s₅, -, hrun⟩ := bind_eq_ok hrun
      cases hrun

lemma memberRound_disciplined
    (hrun : memberRound expr body blocks members σ s = .ok (.next blocks' members') s')
    (h : Disciplined blocks) : Disciplined blocks' := by
  obtain ⟨closed, s₁, -, hrun⟩ := bind_eq_ok hrun
  cases closed with
  | true =>
    cases blocks with
    | nil => cases hrun
    | cons block outer =>
      obtain ⟨_, s₂, -, hrun⟩ := bind_eq_ok hrun
      cases hrun
      exact h.outer
  | false =>
    obtain ⟨modified, s₂, hmember, hrun⟩ := bind_eq_ok hrun
    cases modified with
    | opened inner =>
      cases hrun
      exact member_disciplined hmember h
    | member added =>
      obtain ⟨_, s₃, -, hrun⟩ := bind_eq_ok hrun
      cases hrun
      exact h

lemma MemberRounds.disciplined (h : MemberRounds expr body σ s blocks members s₁) :
    Disciplined blocks := by
  induction h with
  | start => exact ⟨Nat.zero_le 2, List.nodup_nil⟩
  | round h hround ih => exact memberRound_disciplined hround ih

end Rounds

/-! ## What a body gives its members -/

/-- The methods and the properties of a class or trait are those that are written in its body, in
their order, and something holds of the scope and the visibility that each of them gets. -/
structure Corresponds (members : MemberList Expr) (written : List Written)
    (Q : Scope → Visibility → Written → Prop) : Prop where
  methods : List.Forall₂ (fun m w => w.item = .method m.item ∧ Q m.scope m.visibility w)
    members.methods (written.filter (·.method?.isSome))
  properties : List.Forall₂ (fun m w => w.item = .property m.item ∧ Q m.scope m.visibility w)
    members.properties (written.filter (·.property?.isSome))

section Given

variable {α : Type} {body : BodyKind} {written : List Written} {f : Written → Option α}

lemma forall₂_given {R : Member α → Written → Prop}
    (h : ∀ w ∈ written, ∀ item, f w = some item → R (w.given body item) w) :
    List.Forall₂ R (written.filterMap fun w => (f w).map (w.given body))
      (written.filter fun w => (f w).isSome) := by
  induction written with
  | nil => exact .nil
  | cons w written ih =>
    have hrest := ih fun v hv => h v (List.mem_cons_of_mem w hv)
    cases hw : f w with
    | none => simpa [hw] using hrest
    | some item =>
      have hfirst := h w List.mem_cons_self item hw
      simpa [hw] using ⟨hfirst, hrest⟩

lemma Written.method?_eq_some {w : Written} {function : FunctionDef Expr}
    (h : w.method? = some function) : w.item = .method function := by
  unfold method? at h
  split at h <;> cases h
  assumption

lemma Written.property?_eq_some {w : Written} {declared : Declaration Expr}
    (h : w.property? = some declared) : w.item = .property declared := by
  unfold property? at h
  split at h <;> cases h
  assumption

lemma Corresponds.of_foldl {Q : Scope → Visibility → Written → Prop}
    (h : ∀ w ∈ written, Q w.givenScope (w.givenVisibility body) w) :
    Corresponds (written.foldl (Written.addTo body) .empty) written Q := by
  constructor
  · rw [Written.methods_foldl]
    exact forall₂_given fun w hw function hf => ⟨Written.method?_eq_some hf, h w hw⟩
  · rw [Written.properties_foldl]
    exact forall₂_given fun w hw declared hd => ⟨Written.property?_eq_some hd, h w hw⟩

end Given

/-! ## Scope -/

section Scope

variable {around : List Modifiers} {w : Written}

lemma isStatic_openBlocks :
    (openBlocks around).isStatic = true ↔ ∃ b ∈ around, b.block? = some .ofStatic := by
  simp only [OpenBlocks.isStatic, List.contains_iff_mem, openBlocks, List.mem_filterMap]

lemma Written.givenScope_eq_ofType : w.givenScope = .ofType ↔
    w.own.isStatic = true ∨ ∃ b ∈ w.around, b.block? = some .ofStatic := by
  rw [givenScope, ← isStatic_openBlocks, blocks]
  split <;> simp_all

end Scope

/-! ## Privacy -/

/-- The visibility of a member by the innermost privacy keyword whose extent it is in: the keyword
in front of the member itself, or one in front of a block around it. -/
def Written.visibility (body : BodyKind) (w : Written) : Visibility :=
  ((w.own :: w.around).findSome? Modifiers.privacy).getD body.defaultVisibility

/-- The innermost privacy keyword of some blocks is not heard by the members in them: it stands in
front of `static` and does not say what would hold without it, or it opens a `public` block inside
of a `protected` one. -/
inductive Unheard (body : BodyKind) : List Modifiers → Prop where
  | overStatic {visibility around} (hne : visibility ≠ body.defaultVisibility) :
    Unheard body (⟨some visibility, true⟩ :: around)
  | inProtected {around} (h : ⟨some .family, false⟩ ∈ around) :
    Unheard body (⟨some .everyone, false⟩ :: around)
  | further {around} (h : Unheard body around) : Unheard body (⟨none, true⟩ :: around)

section Privacy

variable {body : BodyKind} {around : List Modifiers} {blocks : OpenBlocks} {w : Written}

lemma isPrivacy_eq_false :
    blocks.isPrivacy = false ↔ .ofPublic ∉ blocks ∧ .ofProtected ∉ blocks := by
  simp [OpenBlocks.isPrivacy]

lemma visibility?_eq_none (h : blocks.isPrivacy = false) : blocks.visibility? = none := by
  obtain ⟨hpublic, hprotected⟩ := isPrivacy_eq_false.mp h
  simp [OpenBlocks.visibility?, hpublic, hprotected]

lemma Nestable.all_static (h : Nestable around) (hplain : (openBlocks around).isPrivacy = false) :
    ∀ b ∈ around, b.block? = some .ofStatic := by
  obtain ⟨hpublic, hprotected⟩ := isPrivacy_eq_false.mp hplain
  induction h with
  | nil => exact List.forall_mem_nil _
  | @cons modifiers around block hblock hdepth hnew hmodifiers h ih =>
    rw [openBlocks_cons hblock, List.mem_cons, not_or] at hpublic hprotected
    refine List.forall_mem_cons.mpr ⟨?_, ih ?_ hpublic.2 hprotected.2⟩
    · rw [hblock]
      cases block with
      | ofStatic => rfl
      | ofPublic => exact absurd rfl hpublic.1
      | ofProtected => exact absurd rfl hprotected.1
    · exact isPrivacy_eq_false.mpr ⟨hpublic.2, hprotected.2⟩

lemma Modifiers.block?_eq_ofProtected {modifiers : Modifiers} :
    modifiers.block? = some .ofProtected ↔ modifiers = ⟨some .family, false⟩ := by
  obtain ⟨privacy, isStatic⟩ := modifiers
  cases isStatic with
  | true => simp [block?]
  | false =>
    cases privacy with
    | none => simp [block?]
    | some visibility => cases visibility <;> simp [block?]

lemma mem_openBlocks_ofProtected :
    .ofProtected ∈ openBlocks around ↔ (⟨some .family, false⟩ : Modifiers) ∈ around := by
  simp only [openBlocks, List.mem_filterMap, Modifiers.block?_eq_ofProtected, exists_eq_right]

/-- The open blocks give a member what the innermost keyword in front of them says, unless that is
not heard. -/
lemma Nestable.visibility_iff (h : Nestable around) (body : BodyKind) :
    (openBlocks around).visibility?.getD body.defaultVisibility =
        (around.findSome? Modifiers.privacy).getD body.defaultVisibility ↔
      ¬ Unheard body around := by
  induction h with
  | nil => exact iff_of_true rfl (by rintro ⟨⟩)
  | @cons modifiers around block hblock hdepth hnew hplain h ih =>
    rw [openBlocks_cons hblock]
    obtain ⟨privacy, isStatic⟩ := modifiers
    cases isStatic with
    | true =>
      cases hblock
      have hblocks : OpenBlocks.visibility? (.ofStatic :: openBlocks around) =
          (openBlocks around).visibility? := by
        simp [OpenBlocks.visibility?]
      rw [hblocks]
      cases privacy with
      | none =>
        rw [List.findSome?_cons_of_isNone rfl, ih]
        exact not_congr ⟨.further, fun h => by cases h; assumption⟩
      | some visibility =>
        rw [visibility?_eq_none (hplain rfl (Option.some_ne_none _))]
        constructor
        · rintro heq (hne | _ | _)
          exact hne heq.symm
        · intro hheard
          by_contra hne
          exact hheard (.overStatic (Ne.symm hne))
    | false =>
      cases privacy with
      | none => cases hblock
      | some visibility =>
        cases visibility with
        | personal => cases hblock
        | family =>
          cases hblock
          exact iff_of_true (by simp [OpenBlocks.visibility?]) (by rintro ⟨⟩)
        | everyone =>
          cases hblock
          have hunheard : Unheard body (⟨some .everyone, false⟩ :: around) ↔
              .ofProtected ∈ openBlocks around :=
            ⟨fun h => by cases h; exact mem_openBlocks_ofProtected.mpr ‹_›,
              fun h => .inProtected (mem_openBlocks_ofProtected.mp h)⟩
          rw [hunheard]
          by_cases hprotected : .ofProtected ∈ openBlocks around <;>
            simp [OpenBlocks.visibility?, hprotected]

/-- A member gets what the innermost keyword says, unless it has none of its own and that of the
blocks around it is not heard. -/
lemma Written.Admitted.visibility_iff (h : w.Admitted) :
    w.givenVisibility body = w.visibility body ↔
      ¬ (w.own.privacy = none ∧ Unheard body w.around) := by
  obtain ⟨around, ⟨privacy, isStatic⟩, item⟩ := w
  cases privacy with
  | none =>
    have hiff := h.nestable.visibility_iff body
    simpa [Written.givenVisibility, Written.visibility, Written.blocks] using hiff
  | some visibility =>
    have hnone := visibility?_eq_none (h.privacy (Option.some_ne_none _))
    simp [Written.givenVisibility, Written.visibility, hnone]

end Privacy

/-- The visibility of the methods and properties of an accepted body is that of the innermost
privacy keyword whose extent they are in, or the default of the body if there is none, but for those
members that have no such keyword of their own and do not hear that of the blocks around them. -/
theorem visibility_by_innermost_keyword {source : String} {e : Expr}
    (h : (parse source).result = .ok (some e)) {node : Expr} (hnode : node.Occurs e)
    {body : BodyKind} {members : MemberList Expr}
    (hbody : node.form.body? = some (body, members)) :
    ∃ written, HasBody source node body written ∧
      Corresponds members written fun _ visibility w =>
        (visibility = w.visibility body ↔ ¬ (w.own.privacy = none ∧ Unheard body w.around)) := by
  obtain ⟨written, hwritten, rfl, hadmitted⟩ := parse_hasBody h hnode hbody
  exact ⟨written, hwritten, .of_foldl fun w hw => (hadmitted w hw).visibility_iff⟩

/-- Members with keywords of their own, in blocks, and behind blocks. -/
theorem visibility_by_innermost_keyword_blocks :
    let source := "trait A \x7b static \x7b protected \x7b a: T \x7d, private b: T \x7d, " ++
      "public fn f() \x7b\x7d, c: T \x7d"
    ∃ e body members, (parse source).result = .ok (some e) ∧
      e.form.body? = some (body, members) ∧
      members.properties.map (·.visibility) = [.family, .personal, .everyone] ∧
      ∃ written, HasBody source e body written ∧
        Corresponds members written fun _ visibility w =>
          (visibility = w.visibility body ↔ ¬ (w.own.privacy = none ∧ Unheard body w.around)) := by
  intro source
  have hvisible : (rootBody? source).map (fun b => b.2.properties.map (·.visibility)) =
      some [.family, .personal, .everyone] := by
    decide +kernel
  obtain ⟨e, body, members, hparse, hbody, hvisible⟩ := eq_ok_of_rootBody? hvisible
  exact ⟨e, body, members, hparse, hbody, hvisible,
    visibility_by_innermost_keyword hparse .root hbody⟩

/-- A keyword in front of `static` is not heard, and neither is one in a `protected` block. -/
theorem privacy_keyword_unheard :
    ((rootBody? "class A \x7b public static \x7b a: T \x7d \x7d").map fun b =>
      b.2.properties.map (·.visibility)) = some [.personal] ∧
    ((rootBody? "class A \x7b protected \x7b public \x7b a: T \x7d \x7d \x7d").map fun b =>
      b.2.properties.map (·.visibility)) = some [.family] := by
  decide +kernel

/-- Modifier blocks keep their discipline. However a body is read, no more than two blocks are open
in a round of the member loop, and they are of different sorts; and what is read of a body is read
in such rounds. In an accepted body there are no more than two blocks around a member, of different
sorts; a member with a privacy keyword of its own has only static blocks around it, and one with
`static` of its own has none of these around it; and a method or property is static if and only if
`static` is written on it or it lies inside of a static block. -/
theorem modifier_blocks_disciplined :
    (∀ (expr : Precedence → Parse Expr) (body : BodyKind) (σ : Session) (s : Stream),
      (∀ blocks members s₁, MemberRounds expr body σ s blocks members s₁ →
        blocks.length ≤ 2 ∧ blocks.Nodup) ∧
      ∀ members s', memberList expr body σ s = .ok members s' →
        ∃ blocks before s₁, MemberRounds expr body σ s blocks before s₁ ∧
          memberRound expr body blocks before σ s₁ = .ok (.finished members) s') ∧
    ∀ (source : String) (e : Expr), (parse source).result = .ok (some e) →
      ∀ node : Expr, node.Occurs e → ∀ body members, node.form.body? = some (body, members) →
        ∃ written, HasBody source node body written ∧
          (∀ w ∈ written, w.blocks.length ≤ 2 ∧ w.blocks.Nodup ∧
            (w.own.privacy ≠ none → ∀ b ∈ w.around, b.block? = some .ofStatic) ∧
            (w.own.isStatic = true → ∀ b ∈ w.around, b.block? ≠ some .ofStatic)) ∧
          Corresponds members written fun scope _ w =>
            (scope = .ofType ↔
              w.own.isStatic = true ∨ ∃ b ∈ w.around, b.block? = some .ofStatic) := by
  refine ⟨fun expr body σ s => ⟨fun blocks members s₁ h => ?_, fun members s' hrun => ?_⟩,
    fun source e h node hnode body members hbody => ?_⟩
  · exact ⟨h.disciplined.depth, h.disciplined.nodup⟩
  · exact MemberRounds.start.finishes hrun
  · obtain ⟨written, hwritten, rfl, hadmitted⟩ := parse_hasBody h hnode hbody
    refine ⟨written, hwritten, fun w hw => ?_, .of_foldl fun w _ => w.givenScope_eq_ofType⟩
    have hblocks := (hadmitted w hw).nestable.disciplined
    refine ⟨hblocks.depth, hblocks.nodup, fun hprivacy => ?_, fun hstatic b hb hblock => ?_⟩
    · exact (hadmitted w hw).nestable.all_static ((hadmitted w hw).privacy hprivacy)
    · have hopen := isStatic_openBlocks.mpr ⟨b, hb, hblock⟩
      exact Bool.false_ne_true (((hadmitted w hw).isStatic hstatic).symm.trans hopen)

/-- Two rounds of the member loop, each of which opens a block, and then the rest of the body; and a
class with blocks in one another and behind one another, with members in and behind them. -/
theorem modifier_blocks_disciplined_nested :
    (let text := "static \x7b public \x7b a: T \x7d \x7d \x7d".toList
      let σ := Session.ofText .standard text
      let s := Stream.ofReader (.ofText text)
      (∃ members s₁,
        MemberRounds expression .ofClass σ s [.ofPublic, .ofStatic] members s₁ ∧
          [ModifierBlock.ofPublic, .ofStatic].Nodup) ∧
      ∃ members s', memberList expression .ofClass σ s = .ok members s' ∧
        ∃ blocks before s₁, MemberRounds expression .ofClass σ s blocks before s₁ ∧
          memberRound expression .ofClass blocks before σ s₁ = .ok (.finished members) s') ∧
    let source := "class A \x7b static \x7b public \x7b a: T \x7d, fn f() \x7b\x7d \x7d, b: T, " ++
      "protected \x7b static \x7b c: T \x7d, static fn g() \x7b\x7d, d: T \x7d \x7d"
    ∃ e body members, (parse source).result = .ok (some e) ∧
      e.form.body? = some (body, members) ∧
      members.properties.map (·.scope) = [.ofType, .ofInstance, .ofType, .ofInstance] ∧
      ∃ written, HasBody source e body written ∧
        Corresponds members written fun scope _ w =>
          (scope = .ofType ↔
            w.own.isStatic = true ∨ ∃ b ∈ w.around, b.block? = some .ofStatic) := by
  constructor
  · intro text σ s
    have hrounds : (match (do
        match ← memberRound expression .ofClass [] .empty with
        | .next blocks members => memberRound expression .ofClass blocks members
        | .finished members => return .finished members : Parse Round) σ s with
          | .ok (.next blocks _) _ => some blocks
          | _ => none) = some [.ofPublic, .ofStatic] := by
      decide +kernel
    have hlist : (memberList expression .ofClass).succeeds σ s = true := by decide +kernel
    obtain ⟨hdisciplined, hfinishes⟩ := modifier_blocks_disciplined.1 expression .ofClass σ s
    constructor
    · split at hrounds
      · next blocks members s₂ hrun =>
        obtain rfl := Option.some_inj.mp hrounds
        obtain ⟨round, s₁, hfirst, hsecond⟩ := bind_eq_ok hrun
        cases round with
        | finished members => cases hsecond
        | next blocks members =>
          have hreached := (MemberRounds.start.round hfirst).round hsecond
          exact ⟨_, s₂, hreached, (hdisciplined _ _ _ hreached).2⟩
      · cases hrounds
    · obtain ⟨members, s', hrun⟩ := eq_ok_of_succeeds hlist
      exact ⟨members, s', hrun, hfinishes members s' hrun⟩
  · intro source
    have hscope : (rootBody? source).map (fun b => b.2.properties.map (·.scope)) =
        some [.ofType, .ofInstance, .ofType, .ofInstance] := by
      decide +kernel
    obtain ⟨e, body, members, hparse, hbody, hscope⟩ := eq_ok_of_rootBody? hscope
    obtain ⟨written, hwritten, -, hcorresponds⟩ :=
      modifier_blocks_disciplined.2 source e hparse e .root body members hbody
    exact ⟨e, body, members, hparse, hbody, hscope, written, hwritten, hcorresponds⟩

end FrontEnd
