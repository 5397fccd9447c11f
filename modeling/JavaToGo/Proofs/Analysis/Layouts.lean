import JavaToGo.Proofs.Analysis.Records

/-!
# The shapes of abstract classes

The first pass writes the shape of each abstract class under its Go name, the
second adds the superclass.
-/

namespace JavaToGo

open List Symbols Tree.Node Table

namespace Tree.Node

def javaName? (node : Node) : Option String :=
  (node.fieldChild? "name").map text

lemma requireText_name_iff {node : Node} :
    node.requireText "name" = .ok name ↔ node.javaName? = some name := by
  unfold requireText require javaName?
  cases node.fieldChild? "name" with
  | none => constructor <;> intro h <;> cases h
  | some =>
    constructor
    · intro h
      cases h
      rfl
    · intro h
      cases h
      rfl

/-- The Go name under which the shape of an abstract class is written. -/
def abstractGoName? (settings : Settings) (node : Node) : Option String :=
  if node.isAbstractClass then
    node.javaName?.map fun name => (stripped? settings.strippedPrefixes name).getD name
  else none

lemma declaredGoName_iff_abstractGoName? {node : Node} (h : node.isAbstractClass = true)
    (c : TypeContext) (goName : String) :
    declaredGoName c node = .ok goName ↔ node.abstractGoName? c.settings = some goName := by
  have hkind : node.kind = .classDeclaration := by
    simp only [isAbstractClass, Bool.and_eq_true, decide_eq_true_eq] at h
    exact h.1
  unfold abstractGoName? declaredGoName
  rw [if_pos h]
  cases hname : node.requireText "name" with
  | error =>
    cases hjava : node.javaName? with
    | none => constructor <;> intro hcase <;> cases hcase
    | some name =>
      rw [requireText_name_iff.2 hjava] at hname
      cases hname
  | ok =>
    have hinterface : node.kind ≠ .interfaceDeclaration := by simp [hkind]
    have habstract :
        (decide (node.kind = .classDeclaration) && node.modifiers.isAbstract) = true := h
    rw [requireText_name_iff.1 hname]
    change (if node.kind = .interfaceDeclaration then _ else _) = _ ↔ _
    rw [if_neg hinterface, if_pos habstract]
    constructor
    · intro hcase
      cases hcase
      rfl
    · intro hcase
      cases hcase
      rfl

end Tree.Node

namespace Symbols

@[simp] lemma layouts_addAbstractType (s : Symbols) (goName : String) :
    (s.addAbstractType goName).layouts = s.layouts := by
  unfold addAbstractType
  split <;> rfl

@[simp] lemma declaredTypes_addAbstractType (s : Symbols) (goName : String) :
    (s.addAbstractType goName).declaredTypes = s.declaredTypes := by
  unfold addAbstractType
  split <;> rfl

end Symbols

namespace Analysis

variable {goName : String}

section

variable {c : AnalysisContext} {node : Node} {s s' : Findings}

lemma Symbols.mem_addAbstractType (s : Symbols) (goName other : String) :
    other ∈ (s.addAbstractType goName).abstractTypes
      ↔ other ∈ s.abstractTypes ∨ other = goName := by
  unfold addAbstractType
  split
  · rename_i hknown
    constructor
    · exact .inl
    · rintro (h | rfl)
      · exact h
      · simpa using hknown
  · simp

/-- What a step about an abstract class does, and about any other declaration. -/
structure AbstractStep (c : AnalysisContext) (node : Node) (s s' : Symbols) : Prop where
  declared : s'.declaredTypes = s.declaredTypes
  abstracts : ∀ name, name ∈ s'.abstractTypes
    ↔ name ∈ s.abstractTypes ∨ node.abstractGoName? c.unit.settings = some name
  layouts : (node.abstractGoName? c.unit.settings = none ∧ s'.layouts = s.layouts)
    ∨ ∃ goName layout, node.abstractGoName? c.unit.settings = some goName
      ∧ layoutOf goName node = .ok layout ∧ s'.layouts = s.layouts.insert goName layout

lemma abstractStep_of_recordAbstract (h : (recordAbstract node).runFrom c s = (.ok (), s')) :
    AbstractStep c node s.symbols s'.symbols := by
  refine (ends_recordAbstract (P := fun outcome s' => outcome = .ok () →
    AbstractStep c node s.symbols s') (fun _ _ => nofun) (fun hother _ => ?_) (fun _ _ _ => nofun)
    fun goName layout habstract hname hlayout _ => ?_).of_run h rfl
  · have hnone : node.abstractGoName? c.unit.settings = none := by
      rw [abstractGoName?, hother, if_neg Bool.false_ne_true]
    exact ⟨rfl, fun name => by simp [hnone], .inl ⟨hnone, rfl⟩⟩
  · have hgo : node.abstractGoName? c.unit.settings = some goName :=
      (declaredGoName_iff_abstractGoName? habstract _ goName).1 hname
    refine ⟨?_, fun name => ?_, .inr ⟨goName, layout, hgo, hlayout, ?_⟩⟩
    · simp
    · rw [Symbols.mem_addAbstractType, hgo, Option.some.injEq, eq_comm]
    · rw [Symbols.layouts_addAbstractType]

variable {types : List Node}

section

variable (h : (forEach .strict recordAbstract types).runFrom c s = (.ok (), s'))
include h

lemma mem_abstractTypes_of_recordAbstracts (name : String) :
    name ∈ s'.symbols.abstractTypes ↔ name ∈ s.symbols.abstractTypes
      ∨ ∃ t ∈ types, t.abstractGoName? c.unit.settings = some name := by
  induction types generalizing s with
  | nil =>
    cases h
    simp
  | cons t types ih =>
    obtain ⟨s₁, hstep, hrest⟩ := forEach_strict_cons_iff.1 h
    rw [ih hrest, (abstractStep_of_recordAbstract hstep).abstracts]
    simp [or_assoc]

lemma mem_layouts_of_recordAbstracts (name : String) :
    name ∈ s'.symbols.layouts.keys ↔ name ∈ s.symbols.layouts.keys
      ∨ ∃ t ∈ types, t.abstractGoName? c.unit.settings = some name := by
  induction types generalizing s with
  | nil =>
    cases h
    simp
  | cons t types ih =>
    obtain ⟨s₁, hstep, hrest⟩ := forEach_strict_cons_iff.1 h
    rw [ih hrest]
    rcases (abstractStep_of_recordAbstract hstep).layouts with
      ⟨hnone, hsame⟩ | ⟨goName, layout, hgo, -, hinsert⟩
    · simp [hnone, hsame]
    · rw [hinsert, mem_keys_insert]
      simp [hgo, or_assoc, eq_comm]

lemma find?_layouts_of_recordAbstracts
    (hother : ∀ t ∈ types, t.abstractGoName? c.unit.settings ≠ some goName) :
    s'.symbols.layouts.find? goName = s.symbols.layouts.find? goName := by
  induction types generalizing s with
  | nil =>
    cases h
    rfl
  | cons t types ih =>
    obtain ⟨s₁, hstep, hrest⟩ := forEach_strict_cons_iff.1 h
    rw [ih hrest fun t' ht' => hother t' (mem_cons_of_mem _ ht')]
    rcases (abstractStep_of_recordAbstract hstep).layouts with
      ⟨-, hsame⟩ | ⟨goName', layout, hgo, -, hinsert⟩
    · rw [hsame]
    · rw [hinsert, find?_insert_of_ne]
      rintro rfl
      exact hother t mem_cons_self hgo

end

lemma exists_layout_of_recordAbstracts {before after : List Node} {t : Node}
    (h : (forEach .strict recordAbstract (before ++ t :: after)).runFrom c s = (.ok (), s'))
    (ht : t.abstractGoName? c.unit.settings = some goName)
    (hlast : ∀ t' ∈ after, t'.abstractGoName? c.unit.settings ≠ some goName) :
    ∃ layout, layoutOf goName t = .ok layout ∧ s'.symbols.layouts.find? goName = some layout := by
  obtain ⟨s₁, -, hrest⟩ := forEach_append_iff.1 h
  obtain ⟨s₂, hstep, hafter⟩ := forEach_strict_cons_iff.1 hrest
  rw [find?_layouts_of_recordAbstracts hafter hlast]
  rcases (abstractStep_of_recordAbstract hstep).layouts with
    ⟨hnone, -⟩ | ⟨goName', layout, hgo, hlayout, hinsert⟩
  · rw [ht] at hnone
    cases hnone
  · rw [ht] at hgo
    cases hgo
    exact ⟨layout, hlayout, by rw [hinsert, find?_insert_self]⟩

end

section

/-- The numbers in a shape are those of methods of the tree. -/
def Layout.NumbersMethods (root : Node) (layout : Layout) : Prop :=
  ∀ number ∈ layout.abstractMethods ++ layout.defaultMethods,
    ∃ m ∈ root.walk, m.kind = .methodDeclaration ∧ m.id = number

variable {root : Node}
variable {layout : Layout}

lemma numbersMethods_layoutMember (hmember : member ∈ root.walk)
    (h : layoutMember layout member = .ok layout') (hlayout : Layout.NumbersMethods root layout) :
    Layout.NumbersMethods root layout' := by
  unfold layoutMember at h
  split at h
  · split at h
    · cases h
      exact hlayout
    · obtain ⟨names, -, ⟨⟩⟩ := Outcome.exists_of_bind h
      exact hlayout
  · rename_i hkind
    have hown : ∃ m ∈ root.walk, m.kind = .methodDeclaration ∧ m.id = member.id :=
      ⟨member, hmember, hkind, rfl⟩
    split at h
    · cases h
      intro number hnumber
      simp only [mem_append, mem_singleton] at hnumber
      rcases hnumber with (hnumber | rfl) | hnumber
      · exact hlayout number (mem_append_left _ hnumber)
      · exact hown
      · exact hlayout number (mem_append_right _ hnumber)
    · split at h
      · cases h
        exact hlayout
      · cases h
        intro number hnumber
        simp only [mem_append, mem_singleton] at hnumber
        rcases hnumber with hnumber | hnumber | rfl
        · exact hlayout number (mem_append_left _ hnumber)
        · exact hlayout number (mem_append_right _ hnumber)
        · exact hown
  · cases h
    exact hlayout

lemma layout_of_foldlM {P : Layout → Prop} {members : List Node}
    (hmembers : ∀ m ∈ members, ∀ l l', layoutMember l m = .ok l' → P l → P l')
    (h : members.foldlM layoutMember layout = .ok layout') (hlayout : P layout) : P layout' := by
  induction members generalizing layout with
  | nil =>
    cases h
    exact hlayout
  | cons m members ih =>
    obtain ⟨hstep, hsteps⟩ := forall_mem_cons.1 hmembers
    obtain ⟨layout₁, hfirst, hrest⟩ := Outcome.exists_of_bind h
    exact ih hsteps hrest (hstep _ _ hfirst hlayout)

lemma numbersMethods_layoutOf (hnode : node ∈ root.walk) (h : layoutOf goName node = .ok layout) :
    Layout.NumbersMethods root layout := by
  refine layout_of_foldlM (P := Layout.NumbersMethods root)
    (fun m hm _ _ hstep hold => numbersMethods_layoutMember ?_ hstep hold) h
    (fun number hnumber => ?_)
  · cases hbody : node.fieldChild? "body" with
    | none =>
      rw [hbody] at hm
      cases hm
    | some body =>
      rw [hbody] at hm
      have hinner : m ∈ body.walk := mem_walk_of_mem_children (mem_filter.1 hm).1 (mem_walk_self m)
      have hbelow : m ∈ node.walk :=
        mem_walk_of_mem_children (mem_children_of_fieldChild? hbody) hinner
      exact mem_walk_trans hbelow hnode
  · cases hnumber

lemma name_layoutMember (h : layoutMember layout member = .ok layout') :
    layout'.name = layout.name := by
  unfold layoutMember at h
  split at h
  · split at h
    · cases h
      rfl
    · obtain ⟨names, -, ⟨⟩⟩ := Outcome.exists_of_bind h
      rfl
  · repeat' split at h
    all_goals
      cases h
      rfl
  · cases h
    rfl

lemma name_layoutOf (h : layoutOf goName node = .ok layout) : layout.name = goName :=
  layout_of_foldlM (P := fun l => l.name = goName)
    (fun _ _ _ _ hstep hold => (name_layoutMember hstep).trans hold) h rfl

def NumbersMethods (root : Node) (layouts : Table String Layout) : Prop :=
  ∀ goName layout, layouts.find? goName = some layout → Layout.NumbersMethods root layout

/-- Each shape stands under its own name. -/
def NamesLayouts (layouts : Table String Layout) : Prop :=
  ∀ goName layout, layouts.find? goName = some layout → layout.name = goName

lemma forall_layouts_insert {P : String → Layout → Prop} {layouts : Table String Layout}
    (h : ∀ goName layout, layouts.find? goName = some layout → P goName layout)
    (hlayout : P goName layout) :
    ∀ other found, (layouts.insert goName layout).find? other = some found → P other found := by
  intro other found hother
  by_cases heq : other = goName
  · subst heq
    rw [find?_insert_self] at hother
    cases hother
    exact hlayout
  · rw [find?_insert_of_ne layouts layout heq] at hother
    exact h other found hother

end

variable {P : String → Layout → Prop} {c : AnalysisContext} {s : Findings}

/-- Every recorded shape has the property. -/
def EachLayout (P : String → Layout → Prop) (s : Symbols) : Prop :=
  ∀ goName layout, s.layouts.find? goName = some layout → P goName layout

lemma eachLayout_recordAbstract (hs : EachLayout P s.symbols)
    (hnew : ∀ goName layout, layoutOf goName node = .ok layout → P goName layout) :
    LeadsTo c s (EachLayout P) (recordAbstract node) := by
  have hnoted : ∀ goName, (s.symbols.addAbstractType goName).layouts = s.symbols.layouts :=
    layouts_addAbstractType s.symbols
  refine Ends.leadsTo (ends_recordAbstract (fun _ _ => hs) (fun _ => hs)
    (fun _ goName _ => ?_) fun goName layout _ _ hlayout => ?_)
  · rwa [EachLayout, hnoted]
  · refine forall_layouts_insert ?_ (hnew goName layout hlayout)
    rwa [hnoted]

lemma eachLayout_recordType (hs : EachLayout P s.symbols)
    (hsuper : ∀ goName layout superclass, P goName layout →
      P goName { layout with superclass := superclass }) :
    LeadsTo c s (EachLayout P) (recordType node) := by
  refine Ends.leadsTo (ends_recordType (fun _ _ => hs) fun d constants _ _ _ _ =>
    ⟨fun _ _ => hs, fun _ => hs, fun layout superclass hfind _ => ?_⟩)
  exact forall_layouts_insert hs (hsuper _ layout superclass (hs _ layout hfind))

lemma forall_layouts_of_passes
    (hnew : ∀ n ∈ c.unit.root.walk, ∀ goName layout, layoutOf goName n = .ok layout →
      P goName layout)
    (hsuper : ∀ goName layout superclass, P goName layout →
      P goName { layout with superclass := superclass })
    (h : Passes mode c {} s₁ s₂ s₃ s₄ s₅) :
    ∀ goName layout, s₅.symbols.layouts.find? goName = some layout → P goName layout := by
  have hfirst : EachLayout P s₁.symbols := by
    refine LeadsTo.of_run (.forEach (fun _ _ hs => hs) (fun n hn s hs => ?_) ?_) h.abstracts
    · exact eachLayout_recordAbstract hs (hnew n (mem_filter.1 hn).1)
    · intro goName layout hnone
      cases hnone
  have hsecond : EachLayout P s₂.symbols := LeadsTo.of_run
    (.forEach (fun _ _ hs => hs) (fun _ _ _ hs => eachLayout_recordType hs hsuper) hfirst) h.types
  rw [h.part_eq layouts (fun _ _ _ => rfl) (fun _ _ _ => rfl) fun _ _ => rfl]
  exact hsecond

lemma numbersMethods_of_passes (h : Passes mode c {} s₁ s₂ s₃ s₄ s₅) :
    NumbersMethods c.unit.root s₅.symbols.layouts :=
  forall_layouts_of_passes (fun _ hn _ _ hlayout => numbersMethods_layoutOf hn hlayout)
    (fun _ _ _ hlayout => hlayout) h

lemma namesLayouts_of_passes (h : Passes mode c {} s₁ s₂ s₃ s₄ s₅) :
    NamesLayouts s₅.symbols.layouts :=
  forall_layouts_of_passes (fun _ _ _ _ hlayout => name_layoutOf hlayout)
    (fun _ _ _ hlayout => hlayout) h

end Analysis
end JavaToGo
