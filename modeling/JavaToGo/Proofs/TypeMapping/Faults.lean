import JavaToGo.Proofs.TypeMapping.Parts

/-!
# Faults of the mapping of types

The text of a primitive type is looked up without a way out, so a damaged tree can
make the mapping fail with a fault.
-/

namespace JavaToGo

open JavaToGo.Tree (Node)
open List

section

variable {α β : Type} {p : Fault → Prop}

/-- The faults of an outcome satisfy `p`. -/
def Faults (p : Fault → Prop) (x : Outcome α) : Prop :=
  ∀ f, x = .error (.fault f) → p f

namespace Faults

lemma ok (a : α) : Faults p (.ok a : Outcome α) := by
  intro f h
  cases h

lemma refusal (r : Refusal) : Faults p (.error (.refusal r) : Outcome α) := by
  intro f h
  cases h

lemma fault (hf : p f) : Faults p (.error (.fault f) : Outcome α) := by
  intro f' h
  cases h
  exact hf

lemma bind {g : α → Outcome β} (hx : Faults p x) (hg : ∀ a, x = .ok a → Faults p (g a)) :
    Faults p (x >>= g) := by
  cases x with
  | ok a => exact hg a rfl
  | error =>
    intro f h
    cases h
    exact hx f rfl

lemma mapM {g : α → Outcome β} : ∀ {as : List α}, (∀ a ∈ as, Faults p (g a)) → Faults p (as.mapM g)
  | [], _ => by
    exact ok []
  | a :: as, h => by
    rw [mapM_cons]
    refine (h a mem_cons_self).bind fun b _ => ?_
    exact (Faults.mapM fun a ha => h a (mem_cons_of_mem _ ha)).bind fun bs _ => ok _

lemma foldlM {g : β → α → Outcome β} :
    ∀ {as : List α}, (∀ b, ∀ a ∈ as, Faults p (g b a)) → ∀ b, Faults p (as.foldlM g b)
  | [], _, b => by
    exact ok b
  | a :: as, h, b => by
    refine (h b a mem_cons_self).bind fun b' _ => ?_
    exact Faults.foldlM (fun b a ha => h b a (mem_cons_of_mem _ ha)) b'

lemma require (node : Node) (field : String) : Faults p (node.require field) := by
  unfold Node.require
  split
  · exact ok _
  · exact refusal _

lemma requireText (node : Node) (field : String) : Faults p (node.requireText field) :=
  (require node field).bind fun _ _ => ok _

end Faults

end

namespace Tree.Node

def IsPrimitive (n : Node) : Prop :=
  n.kind = .integralType ∨ n.kind = .floatingPointType ∨ n.kind = .booleanType

/-- The node stands for a primitive type, but its text is none of their names. -/
def IsMisspelt (n : Node) : Prop :=
  n.IsPrimitive ∧ n.text ∉ primitiveTypes.map Prod.fst

end Tree.Node

section

variable {p : Fault → Prop} (c : TypeContext)

/-- The misspelt primitive types in the node cause faults that satisfy `p`. -/
abbrev Tree.Node.Blamed (p : Fault → Prop) (node : Node) : Prop :=
  node.Everywhere fun n => n.IsMisspelt → p (.missingKey n.text)

def AllBlamed (p : Fault → Prop) (nodes : List Node) : Prop :=
  ∀ n ∈ nodes, n.Blamed p

lemma Tree.Node.Everywhere.allBlamed {node : Node} (h : node.Blamed p) :
    AllBlamed p node.children :=
  fun _ hn => h.child hn

lemma AllBlamed.tail (h : AllBlamed p (n :: ns)) : AllBlamed p ns :=
  fun m hm => h m (mem_cons_of_mem n hm)

lemma AllBlamed.head (h : AllBlamed p (n :: ns)) : n.Blamed p :=
  h n mem_cons_self

lemma faults_mapGeneric (node : Node) (base : String) (args : List String) :
    Faults p (c.mapGeneric node base args) := by
  unfold TypeContext.mapGeneric
  split
  · exact .ok _
  split
  · split <;> first | exact .ok _ | exact .refusal _
  split
  · split <;> first | exact .ok _ | exact .refusal _
  · exact .ok _

lemma faults_primitive {node : Node} (h : node.Blamed p) (hkind : node.IsPrimitive) :
    Faults p (match primitiveTypes.lookup node.text with
      | some type => .ok type
      | none => .error (.fault (.missingKey node.text)) : Outcome String) := by
  split
  · exact .ok _
  · rename_i hnone
    refine .fault (h.here ⟨hkind, ?_⟩)
    intro hmem
    obtain ⟨entry, hentry, hname⟩ := mem_map.1 hmem
    have hfound := lookup_eq_none_iff.1 hnone entry hentry
    rw [hname] at hfound
    simp at hfound

lemma faults_composed {node : Node} (h : node.Blamed p) (types : List String) :
    Faults p (node.composed c types) := by
  unfold Node.composed
  split
  · exact .ok _
  · split
    · exact .ok _
    · exact .refusal _
  · next hkind => exact faults_primitive h (.inl hkind)
  · next hkind => exact faults_primitive h (.inr (.inl hkind))
  · next hkind => exact faults_primitive h (.inr (.inr hkind))
  · split
    · exact .ok _
    · exact .refusal _
  · split
    · exact faults_mapGeneric c _ _ _
    · exact .refusal _
  · exact .ok _
  · split
    · exact .ok _
    · exact .refusal _
  · exact .refusal _

lemma faults_typeOf {node : Node} (h : node.Blamed p) : Faults p (typeOf c node) := by
  induction node using Node.induction_on_parts with
  | step _ ih =>
    rw [typeOf_eq]
    refine (Faults.mapM fun parts hparts => Faults.mapM fun part hpart => ?_).bind fun _ _ =>
      faults_composed c h _
    exact ih parts hparts part hpart (h.typePart hparts hpart)

lemma faults_tryType {node : Node} (h : node.Blamed p) : Faults p (tryType c node) := by
  rw [tryType_eq]
  split
  · exact (faults_typeOf c h).bind fun _ _ => .ok _
  · exact .ok _

lemma faults_firstType : ∀ {nodes : List Node}, AllBlamed p nodes → Faults p (firstType c nodes)
  | [], _ => by
    exact .ok _
  | n :: ns, h => by
    rw [firstType]
    split
    · refine (faults_tryType c h.head).bind fun found _ => ?_
      split
      · exact .ok _
      · exact faults_firstType h.tail
    · exact faults_firstType h.tail

end

variable {p : Fault → Prop} (c : TypeContext) {node : Node} (h : node.Blamed p)

lemma faults_spreadParts (type name : Option String) :
    ∀ {parts : List Node}, AllBlamed p parts → Faults p (spreadParts c type name parts)
  | [], _ => .ok _
  | part :: parts, h => by
    rw [spreadParts]
    split
    · exact (Faults.requireText part _).bind fun text _ => faults_spreadParts _ _ h.tail
    split
    · exact (faults_tryType c h.head).bind fun found _ => faults_spreadParts _ _ h.tail
    · exact faults_spreadParts _ _ h.tail

include h

lemma Tree.Node.Everywhere.namedBlamed : AllBlamed p node.namedChildren :=
  fun _ hn => h.child (mem_filter.1 hn).1

lemma faults_parameter? : Faults p (parameter? c node) := by
  unfold parameter?
  split
  · refine (Faults.requireText node _).bind fun name _ => ?_
    refine (Faults.require node _).bind fun type htype => ?_
    exact (faults_typeOf c (h.part htype)).bind fun goType _ => .ok _
  · refine (faults_spreadParts c none none h.namedBlamed).bind fun parts _ => ?_
    split
    · exact .ok _
    · exact .refusal _
  · exact .ok _
  · exact .ok _
  · exact .ok _
  · exact .refusal _

lemma faults_parameters : Faults p (parameters c node) :=
  (Faults.mapM fun _ hn => faults_parameter? c (h.namedBlamed _ hn)).bind fun _ _ => .ok _

lemma faults_superclassOf : Faults p (superclassOf c node) := by
  unfold superclassOf
  split
  · exact .ok _
  · rename_i superclass hsuperclass
    refine (faults_firstType c (h.part? hsuperclass).allBlamed).bind fun found _ => ?_
    split
    · exact .ok _
    · exact .refusal _

lemma faults_typeIsPublic : Faults p (typeIsPublic c node) := by
  unfold typeIsPublic
  split
  · exact .ok _
  · refine (faults_superclassOf c h).bind fun superclass _ => ?_
    split
    · exact .ok _
    · exact .ok _
  · exact .ok _

lemma faults_declaredGoName : Faults p (declaredGoName c node) := by
  refine (Faults.requireText node _).bind fun name _ => ?_
  split
  · exact .ok _
  split
  · exact .ok _
  · exact (faults_typeIsPublic c h).bind fun isPublic _ => .ok _

end JavaToGo
