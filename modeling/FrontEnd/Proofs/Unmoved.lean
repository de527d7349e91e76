import FrontEnd.Proofs.SpannedTree

/-!
# Data that stays in place

Replacing every span by itself changes nothing, in the leaves of a tree and layer by layer.
-/

namespace FrontEnd

/-- Data that is left as it is if each of its spans is. -/
class Unmoved (α : Type) [Spanned α] : Prop where
  respan_id : ∀ a : α, respan id a = a

export Unmoved (respan_id)

attribute [simp] Unmoved.respan_id

section Leaves

variable {α β : Type} [Spanned α] [Spanned β] [Unmoved α] [Unmoved β]

instance : Unmoved (List α) :=
  ⟨fun _ => (List.map_congr_left fun a _ => respan_id a).trans (List.map_id _)⟩

instance : Unmoved (Option α) :=
  ⟨fun a => by cases a <;> simp⟩

instance : Unmoved Ident := ⟨fun _ => rfl⟩

instance : Unmoved Diagnostic := ⟨fun _ => rfl⟩

mutual

lemma TypeExpr.relabel_id : ∀ t : TypeExpr, t.relabel id = t
  | .mk name params span => by
    rw [TypeExpr.relabel, TypeExpr.relabelAll_id params, respan_id, id]

lemma TypeExpr.relabelAll_id : ∀ ts : List TypeExpr, TypeExpr.relabelAll id ts = ts
  | [] => rfl
  | t :: ts => by rw [TypeExpr.relabelAll, TypeExpr.relabel_id t, TypeExpr.relabelAll_id ts]

end

instance : Unmoved TypeExpr := ⟨TypeExpr.relabel_id⟩

lemma Constraint.relabel_id (c : Constraint) : c.relabel id = c := by
  induction c with
  | unconstrained => rfl
  | bound kind type more ih => rw [Constraint.relabel, respan_id, ih]

instance : Unmoved Constraint := ⟨Constraint.relabel_id⟩

instance : Unmoved TypeParam := ⟨fun p => by cases p; simp⟩

mutual

lemma Pattern.relabel_id : ∀ p : Pattern, p.relabel id = p
  | ⟨.name ident, span⟩ => by rw [Pattern.relabel, respan_id, id]
  | ⟨.named name pattern, span⟩ => by
    rw [Pattern.relabel, respan_id, Pattern.relabel_id pattern, id]
  | ⟨.list elements, span⟩ => by rw [Pattern.relabel, Pattern.relabelAll_id elements, id]
  | ⟨.object fields, span⟩ => by rw [Pattern.relabel, Pattern.relabelFields_id fields, id]

lemma Pattern.relabelAll_id : ∀ ps : List Pattern, Pattern.relabelAll id ps = ps
  | [] => rfl
  | p :: ps => by rw [Pattern.relabelAll, Pattern.relabel_id p, Pattern.relabelAll_id ps]

lemma Pattern.relabelFields_id :
    ∀ fs : List (Field Pattern), Pattern.relabelFields id fs = fs
  | [] => rfl
  | ⟨name, none⟩ :: fs => by
    rw [Pattern.relabelFields, respan_id, Pattern.relabelFields_id fs]
  | ⟨name, some p⟩ :: fs => by
    rw [Pattern.relabelFields, respan_id, Pattern.relabel_id p, Pattern.relabelFields_id fs]

end

instance : Unmoved Pattern := ⟨Pattern.relabel_id⟩

mutual

lemma ImportSection.relabel_id : ∀ s : ImportSection, s.relabel id = s
  | .terminal name localName => by rw [ImportSection.relabel, respan_id, respan_id]
  | .element name rest => by
    rw [ImportSection.relabel, respan_id, ImportSection.relabel_id rest]
  | .list sections => by rw [ImportSection.relabel, ImportSection.relabelAll_id sections]

lemma ImportSection.relabelAll_id :
    ∀ ss : List ImportSection, ImportSection.relabelAll id ss = ss
  | [] => rfl
  | s :: ss => by
    rw [ImportSection.relabelAll, ImportSection.relabel_id s, ImportSection.relabelAll_id ss]

end

instance : Unmoved ImportSection := ⟨ImportSection.relabel_id⟩

instance : Unmoved Variant := ⟨fun v => by cases v; simp⟩

end Leaves

/-! ## One layer of a tree -/

section Layer

variable {α β : Type} (f : α → β)

@[simp] lemma Block.relabel_id (b : Block α) : b.relabel id f = b.map f := rfl

@[simp] lemma Argument.relabel_id (a : Argument α) : a.relabel id f = a.map f := by
  simp [Argument.relabel, Argument.map]

@[simp] lemma ForHead.relabel_id (head : ForHead α) : head.relabel id f = head.map f := by
  cases head <;> simp [ForHead.relabel, ForHead.map]

@[simp] lemma Declaration.relabel_id (d : Declaration α) : d.relabel id f = d.map f := by
  simp [Declaration.relabel, Declaration.map]

@[simp] lemma Param.relabel_id (p : Param α) : p.relabel id f = p.map f := by
  simp [Param.relabel, Param.map]

@[simp] lemma FunctionDef.relabel_id (d : FunctionDef α) : d.relabel id f = d.map f := by
  simp [FunctionDef.relabel, FunctionDef.map]

@[simp] lemma Overload.relabel_id (o : Overload α) : o.relabel id f = o.map f := by
  simp [Overload.relabel, Overload.map]

@[simp] lemma MemberList.relabel_id (m : MemberList α) : m.relabel id f = m.map f := by
  have hmethod : FunctionDef.relabel id f = FunctionDef.map f :=
    funext (FunctionDef.relabel_id f)
  have hproperty : Declaration.relabel id f = Declaration.map f :=
    funext (Declaration.relabel_id f)
  simp [MemberList.relabel, MemberList.map, hmethod, hproperty]

@[simp] lemma ClassDef.relabel_id (d : ClassDef α) : d.relabel id f = d.map f := by
  simp [ClassDef.relabel, ClassDef.map]

@[simp] lemma TraitDef.relabel_id (d : TraitDef α) : d.relabel id f = d.map f := by
  simp [TraitDef.relabel, TraitDef.map]

@[simp] lemma EnumDef.relabel_id (d : EnumDef) : d.relabel id = d := by
  simp [EnumDef.relabel]

lemma Form.relabel_id (form : Form α) : form.relabel id f = form.map f := by
  cases form <;> simp [Form.relabel, Form.map]

end Layer

lemma Expr.relabel_id (e : Expr) : e.relabel id = e := by
  induction e using layered_induction with
  | step form span =>
    have hsub : (fun e : {e : Expr // e.relabel id = e} => e.val.relabel id) = Subtype.val :=
      funext fun e => e.property
    rw [relabel_mk, Form.relabel_map, Form.relabel_id, hsub, id]

instance : Unmoved Expr := ⟨Expr.relabel_id⟩

end FrontEnd
