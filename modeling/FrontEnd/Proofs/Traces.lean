import FrontEnd.CommandLine.Log
import FrontEnd.Proofs.Chronicle

/-!
# Traces

The journal of a run tells where productions start and where they end. Whatever comes of a source,
each production that starts also ends, and those that start meanwhile end before it. In a run that
succeeds, all of them succeed.
-/

namespace FrontEnd

open CommandLine

/-- Starts and ends of productions that are nested in one another: each start is closed by an end
with the name of the same production. -/
inductive Matched : List Event → Prop
  | nil : Matched []
  | block {production lexeme span success inner rest} (hinner : Matched inner)
      (hrest : Matched rest) :
      Matched (.enter production lexeme span :: inner ++ .leave production success :: rest)

lemma Matched.append {es es' : List Event} (h : Matched es) (h' : Matched es') :
    Matched (es ++ es') := by
  induction h with
  | nil => exact h'
  | block hinner _ _ ih =>
    rw [List.append_assoc, List.cons_append]
    exact .block hinner ih

/-- The starts and ends of productions among some events. -/
def productions (es : List Event) : List Event :=
  es.filter isProduction

@[simp] lemma productions_append (es es' : List Event) :
    productions (es ++ es') = productions es ++ productions es' :=
  List.filter_append ..

/-- All productions that end among some events succeed. -/
def Prosperous (es : List Event) : Prop :=
  ∀ production success, .leave production success ∈ es → success = true

lemma Prosperous.append {es es' : List Event} (h : Prosperous es) (h' : Prosperous es') :
    Prosperous (es ++ es') := by
  intro production success hmem
  rcases List.mem_append.mp hmem with hmem | hmem
  · exact h production success hmem
  · exact h' production success hmem

lemma prosperous_singleton {e : Event} (h : ∀ production, e ≠ .leave production false) :
    Prosperous [e] := by
  rintro production success hmem
  obtain rfl := List.mem_singleton.mp hmem
  cases success with
  | true => rfl
  | false => exact absurd rfl (h production)

/-- The events that follow in a journal. -/
def Journal.Adds (j : Journal) (es : List Event) (j' : Journal) : Prop :=
  j'.toList = j.toList ++ es

namespace Journal.Adds

variable {j j₁ j₂ : Journal} {es es' : List Event}

lemma nil (j : Journal) : j.Adds [] j := (List.append_nil _).symm

lemma push (j : Journal) (e : Event) : j.Adds [e] (j.push e) := Array.toList_push ..

lemma append (h : j.Adds es j₁) (h' : j₁.Adds es' j₂) : j.Adds (es ++ es') j₂ := by
  unfold Adds at h h' ⊢
  rw [h', h, List.append_assoc]

end Journal.Adds

/-- Productions are nested, and all succeed in a run that does. -/
def tracesChronicle : Chronicle where
  ok j j' := ∃ es, j.Adds es j' ∧ Matched (productions es) ∧ Prosperous es
  error j _ j' := ∃ es, j.Adds es j' ∧ Matched (productions es)

lemma matched_traced (success : Bool) {production lexeme : String} {span : Span}
    {j j' : Journal} {es : List Event}
    (h : Journal.Adds (j.push (.enter production lexeme span)) es j')
    (hes : Matched (productions es)) :
    j.Adds ([.enter production lexeme span] ++ es ++ [.leave production success])
        (j'.push (.leave production success)) ∧
      Matched (productions ([.enter production lexeme span] ++ es ++
        [.leave production success])) := by
  refine ⟨((Journal.Adds.push _ _).append h).append (Journal.Adds.push _ _), ?_⟩
  rw [productions_append, productions_append]
  exact .block hes .nil

lemma lawful_tracesChronicle : tracesChronicle.Lawful where
  refl j := ⟨[], .nil j, .nil, fun _ _ hmem => by cases hmem⟩
  trans := by
    rintro _ _ _ ⟨es, hadds, hnested, hwell⟩ ⟨es', hadds', hnested', hwell'⟩
    exact ⟨es ++ es', hadds.append hadds', by
      rw [productions_append]; exact hnested.append hnested', hwell.append hwell'⟩
  lose := by
    rintro _ _ _ _ ⟨es, hadds, hnested, -⟩ ⟨es', hadds', hnested'⟩
    exact ⟨es ++ es', hadds.append hadds', by
      rw [productions_append]; exact hnested.append hnested'⟩
  fault j _ _ := ⟨[], .nil j, .nil⟩
  retry := by
    rintro _ _ _ _ _ ⟨es, hadds, hnested⟩ ⟨es', hadds', hnested'⟩
    exact ⟨es ++ es', hadds.append hadds', by
      rw [productions_append]; exact hnested.append hnested'⟩
  warned j _ _ _ _ _ _ := ⟨_, .push j _, .nil, prosperous_singleton (by simp)⟩
  opened j _ := ⟨_, .push j _, .nil, prosperous_singleton (by simp)⟩
  resumed j _ := ⟨_, .push j _, .nil, prosperous_singleton (by simp)⟩
  traced := by
    rintro j j' production lexeme span ⟨es, hadds, hnested, hwell⟩
    obtain ⟨hadds', hnested'⟩ := matched_traced true hadds hnested
    exact ⟨_, hadds', hnested', ((prosperous_singleton (by simp)).append hwell).append
      (prosperous_singleton (by simp))⟩
  traced_error := by
    rintro j j' production lexeme span d ⟨es, hadds, hnested⟩
    exact ⟨_, matched_traced false hadds hnested⟩

/-- Whether a source is parsed or refused, and whatever expressions its template strings hold, the
starts and ends of productions are nested in one another. If the source is parsed, every production
ends with success. -/
theorem traces_bracketed (source : String) :
    Matched (productions (parse source).journal.toList) ∧
      ∀ program, (parse source).result = .ok program →
        ∀ production success, .leave production success ∈ (parse source).journal.toList →
          success = true := by
  have htells := lawful_tracesChronicle.parse source
  unfold Chronicle.Tells at htells
  cases hresult : (parse source).result with
  | error d =>
    rw [hresult] at htells
    obtain ⟨es, hadds, hnested⟩ := htells
    rw [Journal.Adds, List.nil_append] at hadds
    rw [hadds]
    exact ⟨hnested, fun program h => by cases h⟩
  | ok program =>
    rw [hresult] at htells
    obtain ⟨es, hadds, hnested, hwell⟩ := htells
    rw [Journal.Adds, List.nil_append] at hadds
    rw [hadds]
    exact ⟨hnested, fun _ _ => hwell⟩

/-- A declaration whose value is a template string with an expression: eight events. -/
theorem traces_bracketed_template :
    let source := "let a = `$\x7bb\x7d`"
    ∃ program, (parse source).result = .ok program ∧
      (productions (parse source).journal.toList).length = 8 ∧
      Matched (productions (parse source).journal.toList) ∧
      ∀ production success, .leave production success ∈ (parse source).journal.toList →
        success = true := by
  intro source
  have hok : (parse source).result.toOption.map Option.isSome = some true := by decide +kernel
  have hlength : (productions (parse source).journal.toList).length = 8 := by decide +kernel
  obtain ⟨program, hprogram, -⟩ := Outcome.eq_ok_of_map hok
  obtain ⟨hnested, hsuccess⟩ := traces_bracketed source
  exact ⟨program, hprogram, hlength, hnested, hsuccess program hprogram⟩

end FrontEnd
