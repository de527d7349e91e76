import FrontEnd.Tree.Expr
import Mathlib.Tactic.Lemma

/-!
# Induction on trees

A property holds of every tree if it holds of a form whenever it holds of the sub-expressions. The
form in the induction step carries the hypotheses with it: its sub-expressions are trees that are
known to have the property.
-/

namespace FrontEnd.Expr

set_option linter.unusedSectionVars false

section Induction

variable {P : Expr → Prop}
  (step : ∀ (form : Form {e : Expr // P e}) (span : Span), P ⟨form.map Subtype.val, span⟩)

include step

mutual

theorem layered_induction : ∀ e : Expr, P e
  | ⟨form, span⟩ => by
    obtain ⟨lifted, h⟩ := lift_form form
    exact h ▸ step lifted span

lemma lift_form : ∀ form : Form Expr, ∃ lifted : Form {e // P e}, lifted.map Subtype.val = form
  | .identifier ident => ⟨.identifier ident, rfl⟩
  | .literal value => by
    obtain ⟨value', h⟩ := lift_literal value
    exact ⟨.literal value', by rw [Form.map, h]⟩
  | .group inside => ⟨.group ⟨inside, layered_induction inside⟩, rfl⟩
  | .unary op operand => ⟨.unary op ⟨operand, layered_induction operand⟩, rfl⟩
  | .binary op left right =>
    ⟨.binary op ⟨left, layered_induction left⟩ ⟨right, layered_induction right⟩, rfl⟩
  | .post op operand => ⟨.post op ⟨operand, layered_induction operand⟩, rfl⟩
  | .assignment target value =>
    ⟨.assignment ⟨target, layered_induction target⟩ ⟨value, layered_induction value⟩, rfl⟩
  | .property object name => ⟨.property ⟨object, layered_induction object⟩ name, rfl⟩
  | .element object indices => by
    obtain ⟨indices', h⟩ := lift_list indices
    exact ⟨.element ⟨object, layered_induction object⟩ indices', by rw [Form.map, h]⟩
  | .call callee args => by
    obtain ⟨args', h⟩ := lift_arguments args
    exact ⟨.call ⟨callee, layered_induction callee⟩ args', by rw [Form.map, h]⟩
  | .list elements => by
    obtain ⟨elements', h⟩ := lift_list elements
    exact ⟨.list elements', by rw [Form.map, h]⟩
  | .mapping keys values => by
    obtain ⟨keys', hk⟩ := lift_list keys
    obtain ⟨values', hv⟩ := lift_list values
    exact ⟨.mapping keys' values', by rw [Form.map, hk, hv]⟩
  | .block b => by
    obtain ⟨b', h⟩ := lift_block b
    exact ⟨.block b', by rw [Form.map, h]⟩
  | .statement first rest => by
    obtain ⟨rest', h⟩ := lift_option rest
    exact ⟨.statement ⟨first, layered_induction first⟩ rest', by rw [Form.map, h]⟩
  | .conditional condition consequence alternative => by
    obtain ⟨consequence', hc⟩ := lift_block consequence
    obtain ⟨alternative', ha⟩ := lift_option alternative
    exact ⟨.conditional ⟨condition, layered_induction condition⟩ consequence' alternative',
      by rw [Form.map, hc, ha]⟩
  | .whileLoop condition body => by
    obtain ⟨body', h⟩ := lift_block body
    exact ⟨.whileLoop ⟨condition, layered_induction condition⟩ body', by rw [Form.map, h]⟩
  | .endlessLoop body label => by
    obtain ⟨body', h⟩ := lift_block body
    exact ⟨.endlessLoop body' label, by rw [Form.map, h]⟩
  | .forLoop head body label => by
    obtain ⟨head', hh⟩ := lift_forHead head
    obtain ⟨body', hb⟩ := lift_block body
    exact ⟨.forLoop head' body' label, by rw [Form.map, hh, hb]⟩
  | .typeCast type value => ⟨.typeCast type ⟨value, layered_induction value⟩, rfl⟩
  | .lambda params body => by
    obtain ⟨params', h⟩ := lift_params params
    exact ⟨.lambda params' ⟨body, layered_induction body⟩, by rw [Form.map, h]⟩
  | .function definition => by
    obtain ⟨definition', h⟩ := lift_functionDef definition
    exact ⟨.function definition', by rw [Form.map, h]⟩
  | .classDef ⟨name, isStruct, typeParams, members⟩ => by
    obtain ⟨members', h⟩ := lift_memberList members
    exact ⟨.classDef ⟨name, isStruct, typeParams, members'⟩, by rw [Form.map, ClassDef.map, h]⟩
  | .traitDef ⟨name, isStructural, typeParams, members⟩ => by
    obtain ⟨members', h⟩ := lift_memberList members
    exact ⟨.traitDef ⟨name, isStructural, typeParams, members'⟩,
      by rw [Form.map, TraitDef.map, h]⟩
  | .enumDef definition => ⟨.enumDef definition, rfl⟩
  | .returning value => by
    obtain ⟨value', h⟩ := lift_option value
    exact ⟨.returning value', by rw [Form.map, h]⟩
  | .breaking value label => by
    obtain ⟨value', h⟩ := lift_option value
    exact ⟨.breaking value' label, by rw [Form.map, h]⟩
  | .continuing label => ⟨.continuing label, rfl⟩
  | .declaration d => by
    obtain ⟨d', h⟩ := lift_declaration d
    exact ⟨.declaration d', by rw [Form.map, h]⟩
  | .binding name value => ⟨.binding name ⟨value, layered_induction value⟩, rfl⟩
  | .importing path => ⟨.importing path, rfl⟩

lemma lift_option :
    ∀ o : Option Expr, ∃ lifted : Option {e // P e}, lifted.map Subtype.val = o
  | none => ⟨none, rfl⟩
  | some e => ⟨some ⟨e, layered_induction e⟩, rfl⟩

lemma lift_list : ∀ es : List Expr, ∃ lifted : List {e // P e}, lifted.map Subtype.val = es
  | [] => ⟨[], rfl⟩
  | e :: es => by
    obtain ⟨es', h⟩ := lift_list es
    exact ⟨⟨e, layered_induction e⟩ :: es', by rw [List.map_cons, h]⟩

lemma lift_parts :
    ∀ ps : List (TemplatePart Expr),
      ∃ lifted : List (TemplatePart {e // P e}), lifted.map (·.map Subtype.val) = ps
  | [] => ⟨[], rfl⟩
  | .text content :: ps => by
    obtain ⟨ps', h⟩ := lift_parts ps
    exact ⟨.text content :: ps', by rw [List.map_cons, h]; rfl⟩
  | .embedded e :: ps => by
    obtain ⟨ps', h⟩ := lift_parts ps
    exact ⟨.embedded ⟨e, layered_induction e⟩ :: ps', by rw [List.map_cons, h]; rfl⟩

lemma lift_literal :
    ∀ l : Literal Expr, ∃ lifted : Literal {e // P e}, lifted.map Subtype.val = l
  | .number value => ⟨.number value, rfl⟩
  | .string value => ⟨.string value, rfl⟩
  | .char value => ⟨.char value, rfl⟩
  | .bool value => ⟨.bool value, rfl⟩
  | .template parts => by
    obtain ⟨parts', h⟩ := lift_parts parts
    exact ⟨.template parts', by rw [Literal.map, h]⟩

lemma lift_block : ∀ b : Block Expr, ∃ lifted : Block {e // P e}, lifted.map Subtype.val = b
  | ⟨body, label, span⟩ => by
    obtain ⟨body', h⟩ := lift_option body
    exact ⟨⟨body', label, span⟩, by rw [Block.map, h]⟩

lemma lift_optionBlock :
    ∀ o : Option (Block Expr),
      ∃ lifted : Option (Block {e // P e}), lifted.map (·.map Subtype.val) = o
  | none => ⟨none, rfl⟩
  | some b => by
    obtain ⟨b', h⟩ := lift_block b
    exact ⟨some b', by rw [Option.map_some, h]⟩

lemma lift_arguments :
    ∀ as : List (Argument Expr),
      ∃ lifted : List (Argument {e // P e}), lifted.map (·.map Subtype.val) = as
  | [] => ⟨[], rfl⟩
  | ⟨name, value⟩ :: as => by
    obtain ⟨as', h⟩ := lift_arguments as
    exact ⟨⟨name, ⟨value, layered_induction value⟩⟩ :: as', by rw [List.map_cons, h]; rfl⟩

lemma lift_forHead :
    ∀ head : ForHead Expr, ∃ lifted : ForHead {e // P e}, lifted.map Subtype.val = head
  | .counting init condition step =>
    ⟨.counting ⟨init, layered_induction init⟩ ⟨condition, layered_induction condition⟩
      ⟨step, layered_induction step⟩, rfl⟩
  | .iterating binding iterable => ⟨.iterating binding ⟨iterable, layered_induction iterable⟩, rfl⟩

lemma lift_declaration :
    ∀ d : Declaration Expr, ∃ lifted : Declaration {e // P e}, lifted.map Subtype.val = d
  | ⟨kind, pattern, type, value⟩ => by
    obtain ⟨value', h⟩ := lift_option value
    exact ⟨⟨kind, pattern, type, value'⟩, by rw [Declaration.map, h]⟩

lemma lift_params :
    ∀ ps : List (Param Expr),
      ∃ lifted : List (Param {e // P e}), lifted.map (·.map Subtype.val) = ps
  | [] => ⟨[], rfl⟩
  | ⟨pattern, type, value, span⟩ :: ps => by
    obtain ⟨value', hv⟩ := lift_option value
    obtain ⟨ps', hp⟩ := lift_params ps
    exact ⟨⟨pattern, type, value', span⟩ :: ps', by rw [List.map_cons, hp, Param.map, hv]⟩

lemma lift_functionDef :
    ∀ d : FunctionDef Expr, ∃ lifted : FunctionDef {e // P e}, lifted.map Subtype.val = d
  | ⟨name, typeParams, params, returnType, body⟩ => by
    obtain ⟨params', hp⟩ := lift_params params
    obtain ⟨body', hb⟩ := lift_optionBlock body
    exact ⟨⟨name, typeParams, params', returnType, body'⟩, by rw [FunctionDef.map, hp, hb]⟩

lemma lift_methods :
    ∀ ms : List (Member (FunctionDef Expr)),
      ∃ lifted : List (Member (FunctionDef {e // P e})),
        lifted.map (Member.map (FunctionDef.map Subtype.val)) = ms
  | [] => ⟨[], rfl⟩
  | ⟨item, scope, visibility⟩ :: ms => by
    obtain ⟨item', hi⟩ := lift_functionDef item
    obtain ⟨ms', hm⟩ := lift_methods ms
    exact ⟨⟨item', scope, visibility⟩ :: ms', by rw [List.map_cons, hm, Member.map, hi]⟩

lemma lift_properties :
    ∀ ms : List (Member (Declaration Expr)),
      ∃ lifted : List (Member (Declaration {e // P e})),
        lifted.map (Member.map (Declaration.map Subtype.val)) = ms
  | [] => ⟨[], rfl⟩
  | ⟨item, scope, visibility⟩ :: ms => by
    obtain ⟨item', hi⟩ := lift_declaration item
    obtain ⟨ms', hm⟩ := lift_properties ms
    exact ⟨⟨item', scope, visibility⟩ :: ms', by rw [List.map_cons, hm, Member.map, hi]⟩

lemma lift_overloads :
    ∀ os : List (Overload Expr),
      ∃ lifted : List (Overload {e // P e}), lifted.map (·.map Subtype.val) = os
  | [] => ⟨[], rfl⟩
  | ⟨symbol, function⟩ :: os => by
    obtain ⟨function', hf⟩ := lift_functionDef function
    obtain ⟨os', ho⟩ := lift_overloads os
    exact ⟨⟨symbol, function'⟩ :: os', by rw [List.map_cons, ho, Overload.map, hf]⟩

lemma lift_memberList :
    ∀ m : MemberList Expr, ∃ lifted : MemberList {e // P e}, lifted.map Subtype.val = m
  | ⟨methods, properties, operators⟩ => by
    obtain ⟨methods', hm⟩ := lift_methods methods
    obtain ⟨properties', hp⟩ := lift_properties properties
    obtain ⟨operators', ho⟩ := lift_overloads operators
    exact ⟨⟨methods', properties', operators'⟩, by rw [MemberList.map, hm, hp, ho]⟩

end

end Induction

end FrontEnd.Expr
