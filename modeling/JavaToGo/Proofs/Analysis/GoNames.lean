import JavaToGo.Conversion
import JavaToGo.Proofs.Analysis.Types

/-!
# When two types share a Go name

Nothing looks whether a type with that Go name is there already: `AbstractShape`
and `Shape` become one name, and so do `Foo` and `foo`.  Shapes are kept by Go
name, so one can be replaced by that of another class.
-/

namespace JavaToGo

open JavaToGo.Tree (Node)
open List Outcome Tree.Node

namespace Table

variable {κ ν : Type} [DecidableEq κ]

lemma map_find?_keys {t : Table κ ν} (h : t.keys.Nodup) :
    t.keys.map t.find? = t.values.map some := by
  obtain ⟨entries⟩ := t
  simp only [keys, values] at *
  induction entries with
  | nil => rfl
  | cons e entries ih =>
    rw [map_cons, nodup_cons] at h
    have hrest : (entries.map Prod.fst).map (find? ⟨e :: entries⟩)
        = (entries.map Prod.fst).map (find? ⟨entries⟩) := by
      refine map_congr_left fun k hk => ?_
      have hne : e.1 ≠ k := by
        rintro rfl
        exact h.1 hk
      change findIn k (e :: entries) = findIn k entries
      rw [findIn, if_neg hne]
    rw [map_cons, map_cons, hrest, ih h.2]
    simp [find?, findIn]

end Table

variable {goName : String}

section

variable (settings : Settings) (symbols : Symbols) (node : Node)

/-- The Java name, without a beginning that the settings take away. -/
def baseName? : Option String :=
  node.javaName?.map fun name =>
    if node.isAbstractClass then (stripped? settings.strippedPrefixes name).getD name else name

/-- The Go name of a type of this visibility. -/
def goSpelling? (isPublic : Bool) : Option String :=
  (baseName? settings node).map fun base =>
    if node.kind = .interfaceDeclaration then Code.exported base
    else if node.isAbstractClass then base
    else Code.withVisibility base isPublic

/-- What the symbols say about a type. -/
def recordOf? : Option DeclaredType :=
  node.javaName?.bind symbols.declaredTypes.find?

def spelt? : Option String :=
  goSpelling? settings node ((recordOf? symbols node).any DeclaredType.isPublic)

/-- The two names can become the same by a change of the first letter. -/
def AlikeButForCase (name name' : String) : Prop :=
  ∃ form ∈ [name, Code.exported name, Code.unexported name],
    form ∈ [name', Code.exported name', Code.unexported name']

instance (name name' : String) : Decidable (AlikeButForCase name name') :=
  inferInstanceAs (Decidable (∃ form ∈ _, form ∈ _))

variable {settings node}

lemma exists_base_of_goSpelling? (h : goSpelling? settings node isPublic = some goName) :
    ∃ base, baseName? settings node = some base
      ∧ goName ∈ [base, Code.exported base, Code.unexported base] := by
  obtain ⟨base, hbase, rfl⟩ := Option.map_eq_some_iff.1 h
  refine ⟨base, hbase, ?_⟩
  split
  · simp
  split
  · simp
  · unfold Code.withVisibility
    split <;> simp

lemma goSpelling?_of_declaredGoName {c : TypeContext} (hname : declaredGoName c node = .ok goName)
    (hpublic : typeIsPublic c node = .ok isPublic) :
    goSpelling? c.settings node isPublic = some goName := by
  obtain ⟨name, hjava, hrest⟩ := exists_of_bind hname
  rw [requireText_name_iff] at hjava
  have hclass : node.kind = .interfaceDeclaration → node.isAbstractClass = false := by
    intro hkind
    simp [isAbstractClass, hkind]
  unfold goSpelling? baseName?
  rw [hjava]
  by_cases hinterface : node.kind = .interfaceDeclaration
  · rw [if_pos hinterface] at hrest
    cases hrest
    simp [hinterface, hclass hinterface]
  · rw [if_neg hinterface] at hrest
    change (if node.isAbstractClass = true then _ else _) = _ at hrest
    by_cases habstract : node.isAbstractClass = true
    · rw [if_pos habstract] at hrest
      cases hrest
      simp [hinterface, habstract]
    · rw [if_neg habstract, hpublic] at hrest
      cases hrest
      simp [hinterface, habstract]

lemma spelt?_of_abstractGoName? (hgo : node.abstractGoName? settings = some goName) :
    spelt? settings symbols node = some goName := by
  unfold abstractGoName? at hgo
  split at hgo
  · rename_i habstract
    have hkind : node.kind ≠ .interfaceDeclaration := by
      intro hkind
      simp [isAbstractClass, hkind] at habstract
    obtain ⟨name, hname, rfl⟩ := Option.map_eq_some_iff.1 hgo
    simp [spelt?, goSpelling?, baseName?, hname, hkind, habstract]
  · cases hgo

end

variable {t : Node} {d : DeclaredType}

lemma Analysis.Visit.recordOf?_eq (h : Analysis.Visit c symbols before t d) :
    recordOf? symbols t = some d := by
  unfold recordOf?
  rw [h.name, Option.bind_some, h.find]

section

variable {unit : CompilationUnit} {symbols : Symbols} (h : AnalysedAs unit symbols)
variable (hnames : (unit.root.typeDeclarations.map Node.javaName?).Nodup)
include h hnames

lemma AnalysedAs.recordOf (ht : t ∈ unit.root.typeDeclarations) :
    ∃ d, recordOf? symbols t = some d ∧ spelt? unit.settings symbols t = some d.goName := by
  obtain ⟨before, after, hsplit⟩ := append_of_mem ht
  obtain ⟨d, hd⟩ := h.visit hnames hsplit
  refine ⟨d, hd.recordOf?_eq, ?_⟩
  unfold spelt?
  rw [hd.recordOf?_eq]
  exact goSpelling?_of_declaredGoName hd.goName hd.isPublic

lemma map_goName_values :
    (symbols.declaredTypes.values.map DeclaredType.goName).map some
      = unit.root.typeDeclarations.map (spelt? unit.settings symbols) := by
  have hkeys := h.keys hnames
  have hnodup : symbols.declaredTypes.keys.Nodup := by
    rw [← hkeys] at hnames
    exact hnames.of_map some
  calc (symbols.declaredTypes.values.map DeclaredType.goName).map some
      = (symbols.declaredTypes.values.map some).map (Option.map DeclaredType.goName) := by simp
    _ = (symbols.declaredTypes.keys.map symbols.declaredTypes.find?).map
          (Option.map DeclaredType.goName) := by rw [Table.map_find?_keys hnodup]
    _ = (symbols.declaredTypes.keys.map some).map
          (fun name => (name.bind symbols.declaredTypes.find?).map DeclaredType.goName) := by simp
    _ = unit.root.typeDeclarations.map
          (fun t => (recordOf? symbols t).map DeclaredType.goName) := by
        rw [hkeys, map_map]
        rfl
    _ = unit.root.typeDeclarations.map (spelt? unit.settings symbols) := by
        refine map_congr_left fun t ht => ?_
        obtain ⟨d, hrecord, hspelt⟩ := h.recordOf hnames ht
        rw [hrecord, hspelt]
        rfl

lemma nodup_goNames_iff :
    (symbols.declaredTypes.values.map DeclaredType.goName).Nodup
      ↔ (unit.root.typeDeclarations.map (spelt? unit.settings symbols)).Nodup := by
  rw [← map_goName_values h hnames, nodup_map_iff fun _ _ => Option.some.inj]

lemma recordedAs_iff (ht : t ∈ unit.root.typeDeclarations) (goName : String) :
    Analysis.RecordedAs symbols t goName ↔ spelt? unit.settings symbols t = some goName := by
  obtain ⟨d, hrecord, hspelt⟩ := h.recordOf hnames ht
  obtain ⟨name, hname, hfind⟩ := Option.bind_eq_some_iff.1 hrecord
  rw [hspelt, Option.some.injEq]
  constructor
  · rintro ⟨d', hname', hfind', rfl⟩
    rw [hname, Option.some.injEq] at hname'
    rw [← hname', hfind, Option.some.injEq] at hfind'
    rw [hfind']
  · intro hgo
    obtain ⟨before, after, hsplit⟩ := append_of_mem ht
    obtain ⟨d', hd'⟩ := h.visit hnames hsplit
    have hsame : d' = d := by
      have hname' := hd'.name
      rw [hname, Option.some.injEq] at hname'
      have hfind' := hd'.find
      rw [← hname', hfind, Option.some.injEq] at hfind'
      exact hfind'.symm
    exact ⟨d', hd'.name, hd'.find, hsame ▸ hgo⟩

lemma nodup_spelt?_of_unlike
    (hunlike : unit.root.typeDeclarations.Pairwise fun t t' =>
      ∀ base ∈ baseName? unit.settings t, ∀ base' ∈ baseName? unit.settings t',
        ¬ AlikeButForCase base base') :
    (unit.root.typeDeclarations.map (spelt? unit.settings symbols)).Nodup := by
  rw [List.Nodup, pairwise_map]
  refine hunlike.imp_of_mem fun {t t'} ht ht' hunlike hsame => ?_
  obtain ⟨d, -, hspelt⟩ := h.recordOf hnames ht
  obtain ⟨base, hbase, hform⟩ := exists_base_of_goSpelling? hspelt
  obtain ⟨base', hbase', hform'⟩ := exists_base_of_goSpelling? (hsame ▸ hspelt)
  exact hunlike base hbase base' hbase' ⟨d.goName, hform, hform'⟩

end

section

/-- The shape under the Go name of an abstract class is that of its own body, with the superclass
that it names itself. -/
def KeepsShape (unit : CompilationUnit) (symbols : Symbols) (t : Node) : Prop :=
  ∃ goName layout superclass before after,
    t.abstractGoName? unit.settings = some goName
      ∧ unit.root.typeDeclarations = before ++ t :: after
      ∧ Analysis.layoutOf goName t = .ok layout
      ∧ superclassOf (AnalysisContext.around ⟨unit, []⟩ (symbols.seeing (before ++ [t])) t) t
          = .ok superclass
      ∧ symbols.layouts.find? goName = some { layout with superclass := superclass }

/-- The Go name under which the conversion puts a declaration down. -/
inductive PutDownAs (c : Context) (node : Node) : String → Prop
  | concrete {shape : ClassShape} (hshape : ClassShape.ofNode c.toTypeContext node = .ok shape) :
      PutDownAs c node shape.name
  | abstract {shape : AbstractShape} (hshape : AbstractShape.ofNode c.symbols node = .ok shape) :
      PutDownAs c node shape.name
  | interface {shape : InterfaceShape}
      (hshape : InterfaceShape.ofNode c.symbols node = .ok shape) : PutDownAs c node shape.name
  | enumeration {shape : EnumShape} (hshape : EnumShape.ofNode c.symbols node = .ok shape) :
      PutDownAs c node shape.name
  | record {shape : RecordShape} (hshape : RecordShape.ofNode c.toTypeContext node = .ok shape) :
      PutDownAs c node shape.name

lemma Symbols.find?_of_requireType {s : Symbols} (h : s.requireType name = .ok d) :
    s.declaredTypes.find? name = some d := by
  unfold Symbols.requireType at h
  cases hfind : s.declaredTypes.find? name with
  | none =>
    rw [hfind] at h
    cases h
  | some =>
    rw [hfind] at h
    cases h
    rfl

lemma recordOf?_of_requireType {s : Symbols} {node : Node}
    (hname : node.requireText "name" = .ok name) (hd : s.requireType name = .ok d) :
    recordOf? s node = some d := by
  unfold recordOf?
  rw [requireText_name_iff.1 hname, Option.bind_some, Symbols.find?_of_requireType hd]

lemma PutDownAs.exists_record (h : PutDownAs c node goName) :
    ∃ d, recordOf? c.symbols node = some d ∧ d.goName = goName := by
  cases h with
  | concrete hshape =>
    simp only [ClassShape.ofNode, bind_eq_ok] at hshape
    obtain ⟨name, hname, d, hd, superclass, -, ⟨⟩⟩ := hshape
    exact ⟨d, recordOf?_of_requireType hname hd, rfl⟩
  | abstract hshape =>
    simp only [AbstractShape.ofNode, bind_eq_ok] at hshape
    obtain ⟨name, hname, d, hd, layout, -, ⟨⟩⟩ := hshape
    exact ⟨d, recordOf?_of_requireType hname hd, rfl⟩
  | interface hshape =>
    simp only [InterfaceShape.ofNode, bind_eq_ok] at hshape
    obtain ⟨name, hname, d, hd, ⟨⟩⟩ := hshape
    exact ⟨d, recordOf?_of_requireType hname hd, rfl⟩
  | enumeration hshape =>
    simp only [EnumShape.ofNode, bind_eq_ok] at hshape
    obtain ⟨name, hname, d, hd, isSimple, -, ⟨⟩⟩ := hshape
    exact ⟨d, recordOf?_of_requireType hname hd, rfl⟩
  | record hshape =>
    simp only [RecordShape.ofNode, bind_eq_ok] at hshape
    obtain ⟨name, hname, d, hd, list, -, components, -, names, -, ⟨⟩⟩ := hshape
    exact ⟨d, recordOf?_of_requireType hname hd, rfl⟩

variable {unit : CompilationUnit} {symbols : Symbols} (h : AnalysedAs unit symbols)
variable (hnames : (unit.root.typeDeclarations.map Node.javaName?).Nodup)
variable (hspelt : (unit.root.typeDeclarations.map (spelt? unit.settings symbols)).Nodup)
include h hnames hspelt

lemma not_recordedAs_of_nodup {before after : List Node}
    (hsplit : unit.root.typeDeclarations = before ++ t :: after)
    (ht : spelt? unit.settings symbols t = some goName) :
    ∀ t' ∈ after, ¬ Analysis.RecordedAs symbols t' goName := by
  intro t' ht' hrecorded
  have hmem : t' ∈ unit.root.typeDeclarations := by
    rw [hsplit]
    exact mem_append_right _ (mem_cons_of_mem _ ht')
  rw [hsplit, map_append] at hspelt
  have hfresh := (nodup_cons.1 (nodup_append.1 hspelt).2.1).1
  rw [ht, ← (recordedAs_iff h hnames hmem goName).1 hrecorded] at hfresh
  exact hfresh (mem_map_of_mem ht')

lemma keepsShape_of_nodup (ht : t ∈ unit.root.typeDeclarations)
    (habstract : t.isAbstractClass = true) : KeepsShape unit symbols t := by
  obtain ⟨before, after, hsplit⟩ := append_of_mem ht
  obtain ⟨goName, hgo⟩ : ∃ goName, t.abstractGoName? unit.settings = some goName := by
    obtain ⟨d, hd⟩ := h.visit hnames hsplit
    unfold abstractGoName?
    rw [if_pos habstract, hd.name]
    exact ⟨_, rfl⟩
  have hspeltAs := spelt?_of_abstractGoName? symbols hgo
  have hother := not_recordedAs_of_nodup h hnames hspelt hsplit hspeltAs
  obtain ⟨superclass, layout, hsuper, hfind, hlayout⟩ := h.superclass hnames hsplit
    ((recordedAs_iff h hnames ht goName).2 hspeltAs) hother
    ((h.mem_layouts goName).2 ⟨t, ht, hgo⟩)
  refine ⟨goName, layout, superclass, before, after, hgo, hsplit, ?_, hsuper, hfind⟩
  refine hlayout before t after hsplit hgo fun t' ht' hgo' => ?_
  have hmem : t' ∈ unit.root.typeDeclarations := by
    rw [hsplit]
    exact mem_append_right _ (mem_cons_of_mem _ ht')
  exact hother t' ht' ((recordedAs_iff h hnames hmem goName).2
    (spelt?_of_abstractGoName? symbols hgo'))

lemma not_putDownAs_of_nodup (ht : t ∈ unit.root.typeDeclarations)
    (ht' : t' ∈ unit.root.typeDeclarations) (hne : t ≠ t')
    (hput : PutDownAs (Context.ofUnit unit symbols) t goName) :
    ¬ PutDownAs (Context.ofUnit unit symbols) t' goName := by
  intro hput'
  have hown : ∀ {n : Node}, n ∈ unit.root.typeDeclarations →
      PutDownAs (Context.ofUnit unit symbols) n goName →
        spelt? unit.settings symbols n = some goName := by
    intro n hn hput
    obtain ⟨d, hrecord, rfl⟩ := hput.exists_record
    obtain ⟨d', hrecord', hspelt'⟩ := h.recordOf hnames hn
    rw [show recordOf? symbols n = some d from hrecord, Option.some.injEq] at hrecord'
    rw [hspelt', hrecord']
  refine hne (inj_on_of_nodup_map hspelt ht ht' ?_)
  rw [hown ht hput, hown ht' hput']

end

/-- The Go names of types are different exactly when the declarations are spelt differently in Go,
which they are when no forms of their names agree.  Then every abstract class keeps its shape, and
no two declarations are put down under one name. -/
theorem goNames_distinct_iff {unit : CompilationUnit} {symbols : Symbols}
    (h : AnalysedAs unit symbols)
    (hnames : (unit.root.typeDeclarations.map Node.javaName?).Nodup) :
    ((symbols.declaredTypes.values.map DeclaredType.goName).Nodup
        ↔ (unit.root.typeDeclarations.map (spelt? unit.settings symbols)).Nodup)
      ∧ ((unit.root.typeDeclarations.Pairwise fun t t' =>
            ∀ base ∈ baseName? unit.settings t, ∀ base' ∈ baseName? unit.settings t',
              ¬ AlikeButForCase base base') →
          (symbols.declaredTypes.values.map DeclaredType.goName).Nodup)
      ∧ ((symbols.declaredTypes.values.map DeclaredType.goName).Nodup →
          (∀ t ∈ unit.root.typeDeclarations, t.isAbstractClass = true → KeepsShape unit symbols t)
            ∧ ∀ t ∈ unit.root.typeDeclarations, ∀ t' ∈ unit.root.typeDeclarations, t ≠ t' →
                ∀ goName, PutDownAs (Context.ofUnit unit symbols) t goName →
                  ¬ PutDownAs (Context.ofUnit unit symbols) t' goName) := by
  have hiff := nodup_goNames_iff h hnames
  refine ⟨hiff, fun hunlike => hiff.2 (nodup_spelt?_of_unlike h hnames hunlike), fun hnodup => ?_⟩
  constructor
  · intro t ht habstract
    exact keepsShape_of_nodup h hnames (hiff.1 hnodup) ht habstract
  · intro t ht t' ht' hne goName hput
    exact not_putDownAs_of_nodup h hnames (hiff.1 hnodup) ht ht' hne hput

def extending (number : Nat) (name : String) : List Node :=
  [.plain number (.other "superclass") (some "superclass") ""
    [.leaf (number + 1) .typeIdentifier name]]

lemma analysedAs_of_outcome (hok : (analyze .tolerant unit [] {}).1 = .ok ())
    (hclean : (analyze .tolerant unit [] {}).2.symbols.failures.entries = []) :
    AnalysedAs unit (analyze .tolerant unit [] {}).2.symbols :=
  ⟨hclean, _, Prod.ext hok rfl⟩

/-- An abstract class, a class below it and an interface. -/
def figuresUnit : CompilationUnit :=
  .ofTypes
    [.plainClass 1 (abstractModifiers 4) "AbstractShape" [] [.plainMethod 6 "area" [] []],
     .plainClass 10 [] "Square" (extending 13 "AbstractShape") [],
     .tree 15 .interfaceDeclaration
      [.called 16 "Figure",
       .plain 17 (.other "interface_body") (some "body") "" []]]

/-- The abstract class `AbstractShape` becomes `Shape` and keeps its shape. -/
theorem figures_keep_names :
    AnalysedAs figuresUnit (analyze .tolerant figuresUnit [] {}).2.symbols
      ∧ (figuresUnit.root.typeDeclarations.map Node.javaName?).Nodup
      ∧ (analyze .tolerant figuresUnit [] {}).2.symbols.declaredTypes.values.map DeclaredType.goName
          = ["Shape", "Square", "Figure"]
      ∧ ∀ t ∈ figuresUnit.root.typeDeclarations, t.isAbstractClass = true →
          KeepsShape figuresUnit (analyze .tolerant figuresUnit [] {}).2.symbols t := by
  have hanalysed : AnalysedAs figuresUnit (analyze .tolerant figuresUnit [] {}).2.symbols :=
    analysedAs_of_outcome (by with_unfolding_all rfl) (by with_unfolding_all rfl)
  have hnames : (figuresUnit.root.typeDeclarations.map Node.javaName?).Nodup := by decide +kernel
  have hgoNames : (analyze .tolerant figuresUnit [] {}).2.symbols.declaredTypes.values.map
      DeclaredType.goName = ["Shape", "Square", "Figure"] := by
    with_unfolding_all rfl
  obtain ⟨-, -, hconsequences⟩ := goNames_distinct_iff hanalysed hnames
  exact ⟨hanalysed, hnames, hgoNames, (hconsequences (by rw [hgoNames]; decide)).1⟩

/-- An abstract class with a method. -/
def shapeWithArea : Node :=
  .plainClass 1 (abstractModifiers 4) "AbstractShape" [] [.plainMethod 6 "area" [] []]

/-- Two abstract classes whose names differ in the beginning that is taken away. -/
def shapesUnit : CompilationUnit :=
  .ofTypes
    [shapeWithArea, .plainClass 10 (abstractModifiers 13) "Shape" [] []]

/-- Both classes are recorded as `Shape`, and the first one loses its shape. -/
theorem shapes_merge :
    AnalysedAs shapesUnit (analyze .tolerant shapesUnit [] {}).2.symbols
      ∧ (shapesUnit.root.typeDeclarations.map Node.javaName?).Nodup
      ∧ ¬ ((analyze .tolerant shapesUnit [] {}).2.symbols.declaredTypes.values.map
            DeclaredType.goName).Nodup
      ∧ shapeWithArea ∈ shapesUnit.root.typeDeclarations ∧ shapeWithArea.isAbstractClass = true
      ∧ ¬ KeepsShape shapesUnit (analyze .tolerant shapesUnit [] {}).2.symbols shapeWithArea := by
  have hgoNames : (analyze .tolerant shapesUnit [] {}).2.symbols.declaredTypes.values.map
      DeclaredType.goName = ["Shape", "Shape"] := by
    with_unfolding_all rfl
  have hlost : ((analyze .tolerant shapesUnit [] {}).2.symbols.layouts.find? "Shape").map
      Layout.defaultMethods = some [] := by
    with_unfolding_all rfl
  have hown : Analysis.layoutOf "Shape" shapeWithArea
      = .ok { name := "Shape", defaultMethods := [6] } := by
    with_unfolding_all rfl
  have hname : shapeWithArea.abstractGoName? shapesUnit.settings = some "Shape" := by
    decide +kernel
  refine ⟨analysedAs_of_outcome (by with_unfolding_all rfl) (by with_unfolding_all rfl),
    by decide +kernel, by rw [hgoNames]; decide, ?_, by decide +kernel, ?_⟩
  · exact List.mem_filter.2
      ⟨Node.mem_walk_of_mem_children List.mem_cons_self (Node.mem_walk_self _), rfl⟩
  · rintro ⟨goName, layout, superclass, before, after, hgo, -, hlayout, -, hfind⟩
    rw [hname, Option.some.injEq] at hgo
    subst hgo
    rw [hown] at hlayout
    cases hlayout
    rw [hfind] at hlost
    cases hlost

end JavaToGo
