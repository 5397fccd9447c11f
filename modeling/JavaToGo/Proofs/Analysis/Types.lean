import JavaToGo.Proofs.Analysis.Layouts
import JavaToGo.Proofs.TypeMapping.Likeness

/-!
# The pass over types

Different types have different Java names, so a record is never replaced, and
what a step had in view is the restriction of the final records to the types
before it.
-/

namespace JavaToGo

open JavaToGo.Tree (Node)
open List Analysis Symbols Table Tree.Node

namespace Table

variable {κ ν : Type} [DecidableEq κ]

/-- The entries whose keys are chosen. -/
def restrict (t : Table κ ν) (chosen : κ → Bool) : Table κ ν :=
  ⟨t.entries.filter fun e => chosen e.1⟩

lemma find?_restrict (t : Table κ ν) (chosen : κ → Bool) (k : κ) :
    (t.restrict chosen).find? k = if chosen k then t.find? k else none := by
  obtain ⟨entries⟩ := t
  simp only [restrict, find?]
  induction entries with
  | nil => simp [findIn]
  | cons e entries ih =>
    by_cases hk : e.1 = k
    · subst hk
      by_cases hchosen : chosen e.1
      · simp [findIn, hchosen]
      · simp [hchosen, ih]
    · by_cases hchosen : chosen e.1
      · simp [findIn, hchosen, hk, ih]
      · simp [findIn, hchosen, hk, ih]

end Table

/-- The symbols with the records of these types only. -/
def Symbols.seeing (s : Symbols) (types : List Node) : Symbols :=
  { s with
    declaredTypes := s.declaredTypes.restrict fun name => some name ∈ types.map Node.javaName? }

lemma Symbols.find?_seeing (s : Symbols) (types : List Node) (name : String) :
    (s.seeing types).declaredTypes.find? name
      = if some name ∈ types.map javaName? then s.declaredTypes.find? name else none := by
  unfold seeing
  rw [find?_restrict]
  simp

lemma Symbols.isAbstractType_congr {s s' : Symbols}
    (h : ∀ name, name ∈ s.abstractTypes ↔ name ∈ s'.abstractTypes) (type : Option String) :
    s.isAbstractType type = s'.isAbstractType type := by
  cases type with
  | none => rfl
  | some name =>
    have hname := h name
    simpa [isAbstractType] using hname

lemma Alongside.of_find? {P : Prop} {c c' : TypeContext} (hsettings : c'.settings = c.settings)
    (hparams : c'.typeParams = c.typeParams)
    (hfind : ∀ name, c'.symbols.declaredTypes.find? name = c.symbols.declaredTypes.find? name) :
    Alongside P c c' := by
  refine ⟨hsettings, fun _ name => ?_⟩
  obtain ⟨settings', symbols', typeParams'⟩ := c'
  cases hsettings
  cases hparams
  have h := hfind name
  unfold TypeContext.mapName
  rw [h]
  rfl

section

variable {c c' : TypeContext} {node node' : Node}

lemma alongside_self (c : TypeContext) : Alongside True c c :=
  ⟨rfl, fun _ _ => rfl⟩

lemma superclassOf_of_alongside (h : Alongside True c c') (hbare : node.bare = node'.bare)
    (hsuper : superclassOf c node = .ok superclass) : superclassOf c' node' = .ok superclass := by
  obtain ⟨b, d, -, hd, hab, hdb⟩ := (inStep_superclassOf h node).exists_ok_of_both
    (hbare ▸ inStep_superclassOf (alongside_self c') node') hsuper
  rw [hd, eq_of_rel trivial hdb, eq_of_rel trivial hab]

variable (habstract : ∀ type, c'.symbols.isAbstractType type = c.symbols.isAbstractType type)
include habstract

lemma typeIsPublic_of_alongside (h : Alongside True c c') (hbare : node.bare = node'.bare)
    (hpublic : typeIsPublic c node = .ok isPublic) : typeIsPublic c' node' = .ok isPublic := by
  obtain ⟨b, d, -, hd, hab, hdb⟩ :=
    (inStep_typeIsPublic h node fun _ type => (habstract type).symm).exists_ok_of_both
      (hbare ▸ inStep_typeIsPublic (alongside_self c') node' fun _ _ => rfl) hpublic
  rw [hd, hdb trivial, hab trivial]

lemma declaredGoName_of_alongside (h : Alongside True c c')
    (hname : declaredGoName c node = .ok goName) : declaredGoName c' node = .ok goName := by
  obtain ⟨b, d, -, hd, hab, hdb⟩ :=
    (inStep_declaredGoName h node fun _ type => (habstract type).symm).exists_ok_of_both
      (inStep_declaredGoName (alongside_self c') node fun _ _ => rfl) hname
  rw [hd, hdb trivial, hab trivial]

end

namespace Analysis

section

variable {c : AnalysisContext} {node : Node}

/-- All that the step about one type does. -/
structure TypeStep (c : AnalysisContext) (node : Node) (s s' : Symbols) (d : DeclaredType) :
    Prop where
  name : node.javaName? = some d.javaName
  goName : declaredGoName (c.outer s) node = .ok d.goName
  isPublic : typeIsPublic (c.outer s) node = .ok d.isPublic
  kind : d.kind = node.kind
  declared : s'.declaredTypes = s.declaredTypes.insert d.javaName d
  abstracts : s'.abstractTypes = s.abstractTypes
  layouts : (s.layouts.find? d.goName = none ∧ s'.layouts = s.layouts)
    ∨ ∃ layout superclass, s.layouts.find? d.goName = some layout
      ∧ superclassOf (c.around s' node) node = .ok superclass
      ∧ s'.layouts = s.layouts.insert d.goName { layout with superclass := superclass }

lemma typeStep_of_recordType (h : (recordType node).runFrom c s = (.ok (), s')) :
    ∃ d, TypeStep c node s.symbols s'.symbols d := by
  refine (ends_recordType (P := fun outcome s' => outcome = .ok () →
    ∃ d, TypeStep c node s.symbols s' d) (fun _ _ => nofun) ?_).of_run h rfl
  refine fun d _ hname hgo hpublic hkind =>
    ⟨fun _ _ => nofun, fun hnone _ => ⟨d, ?_⟩, fun layout superclass hfind hsuper _ => ⟨d, ?_⟩⟩
  · exact ⟨requireText_name_iff.1 hname, hgo, hpublic, hkind, rfl, rfl, .inl ⟨hnone, rfl⟩⟩
  · refine ⟨requireText_name_iff.1 hname, hgo, hpublic, hkind, rfl, rfl,
      .inr ⟨layout, superclass, hfind, ?_, rfl⟩⟩
    refine superclassOf_of_alongside (Alongside.of_find? ?_ ?_ fun _ => ?_) rfl hsuper
    · rfl
    · rfl
    · rfl

end

section

variable {c : AnalysisContext} {s s' : Findings} {types : List Node}
  (h : (forEach .strict recordType types).runFrom c s = (.ok (), s'))
include h

lemma find?_of_recordTypes (hname : some name ∉ types.map javaName?) :
    s'.symbols.declaredTypes.find? name = s.symbols.declaredTypes.find? name := by
  induction types generalizing s with
  | nil =>
    cases h
    rfl
  | cons t types ih =>
    obtain ⟨s₁, hstep, hrest⟩ := forEach_strict_cons_iff.1 h
    obtain ⟨d, hd⟩ := typeStep_of_recordType hstep
    rw [map_cons, mem_cons, not_or] at hname
    rw [ih hrest hname.2, hd.declared, find?_insert_of_ne]
    rintro rfl
    exact hname.1 hd.name.symm

lemma abstractTypes_of_recordTypes : s'.symbols.abstractTypes = s.symbols.abstractTypes :=
  part_of_forEach abstractTypes h (preserves_recordType fun _ _ _ _ => rfl) fun _ _ => rfl

lemma layouts_of_recordTypes (goName : String) :
    (s.symbols.layouts.find? goName = none → s'.symbols.layouts.find? goName = none)
      ∧ ∀ layout, s.symbols.layouts.find? goName = some layout →
        ∃ superclass, s'.symbols.layouts.find? goName
          = some { layout with superclass := superclass } := by
  induction types generalizing s with
  | nil =>
    cases h
    exact ⟨fun hnone => hnone, fun layout hlayout => ⟨layout.superclass, hlayout⟩⟩
  | cons t types ih =>
    obtain ⟨s₁, hstep, hrest⟩ := forEach_strict_cons_iff.1 h
    obtain ⟨d, hd⟩ := typeStep_of_recordType hstep
    obtain ⟨hnone, hsome⟩ := ih hrest
    rcases hd.layouts with ⟨-, hsame⟩ | ⟨layout, superclass, hfind, -, hinsert⟩
    · rw [hsame] at hnone hsome
      exact ⟨hnone, hsome⟩
    · by_cases heq : goName = d.goName
      · subst heq
        constructor
        · intro habsent
          rw [hfind] at habsent
          cases habsent
        · intro layout' hlayout'
          rw [hfind] at hlayout'
          cases hlayout'
          obtain ⟨last, hlast⟩ := hsome { layout with superclass := superclass }
            (by rw [hinsert, find?_insert_self])
          exact ⟨last, hlast⟩
      · rw [hinsert, find?_insert_of_ne _ _ heq] at hnone hsome
        exact ⟨hnone, hsome⟩

lemma mem_layouts_of_recordTypes (goName : String) :
    goName ∈ s'.symbols.layouts.keys ↔ goName ∈ s.symbols.layouts.keys := by
  obtain ⟨hnone, hsome⟩ := layouts_of_recordTypes h goName
  rw [← isSome_find?_iff, ← isSome_find?_iff]
  cases hfind : s.symbols.layouts.find? goName with
  | none => rw [hnone hfind]
  | some layout =>
    obtain ⟨superclass, hlast⟩ := hsome layout hfind
    rw [hlast]
    rfl

end

variable {c : AnalysisContext} {types before after : List Node} {t : Node} {s₁ s₂ : Findings}

/-- The record of a type, in view of the types before it. -/
structure Visit (c : AnalysisContext) (s : Symbols) (before : List Node) (t : Node)
    (d : DeclaredType) : Prop where
  name : t.javaName? = some d.javaName
  find : s.declaredTypes.find? d.javaName = some d
  kind : d.kind = t.kind
  goName : declaredGoName (c.outer (s.seeing before)) t = .ok d.goName
  isPublic : typeIsPublic (c.outer (s.seeing before)) t = .ok d.isPublic

lemma Visit.congr {s' : Symbols} {d : DeclaredType} (h : Visit c s before t d)
    (hdeclared : s'.declaredTypes = s.declaredTypes)
    (habstracts : s'.abstractTypes = s.abstractTypes) : Visit c s' before t d := by
  have halong : Alongside True (c.outer (s.seeing before)) (c.outer (s'.seeing before)) := by
    refine .of_find? rfl rfl fun name => ?_
    change (s'.seeing before).declaredTypes.find? name = (s.seeing before).declaredTypes.find? name
    rw [find?_seeing, find?_seeing, hdeclared]
  have habstract : ∀ type, (s'.seeing before).isAbstractType type
      = (s.seeing before).isAbstractType type := by
    refine isAbstractType_congr fun name => ?_
    change name ∈ s'.abstractTypes ↔ name ∈ s.abstractTypes
    rw [habstracts]
  refine ⟨h.name, hdeclared ▸ h.find, h.kind, ?_, ?_⟩
  · exact declaredGoName_of_alongside habstract halong h.goName
  · exact typeIsPublic_of_alongside habstract halong rfl h.isPublic

def RecordedAs (s : Symbols) (t : Node) (goName : String) : Prop :=
  ∃ d, t.javaName? = some d.javaName ∧ s.declaredTypes.find? d.javaName = some d
    ∧ d.goName = goName

/-- A pass over types with different Java names that starts without records. -/
structure TypePass (c : AnalysisContext) (types : List Node) (s₁ s₂ : Findings) : Prop where
  run : (forEach .strict recordType types).runFrom c s₁ = (.ok (), s₂)
  fresh : s₁.symbols.declaredTypes = ⟨[]⟩
  names : (types.map Node.javaName?).Nodup

lemma TypePass.find?_eq (h : TypePass c (before ++ after) s₁ s₂)
    (hbefore : (forEach .strict recordType before).runFrom c s₁ = (.ok (), s))
    (hafter : (forEach .strict recordType after).runFrom c s = (.ok (), s₂)) (name : String) :
    s.symbols.declaredTypes.find? name = (s₂.symbols.seeing before).declaredTypes.find? name := by
  rw [find?_seeing]
  split
  · rename_i hseen
    refine (find?_of_recordTypes hafter ?_).symm
    have hnames := h.names
    rw [map_append] at hnames
    intro hlater
    exact (nodup_append.1 hnames).2.2 _ hseen _ hlater rfl
  · rename_i hunseen
    rw [find?_of_recordTypes hbefore hunseen, h.fresh]
    rfl

lemma TypePass.exists_step (h : TypePass c (before ++ t :: after) s₁ s₂) :
    ∃ (s s' : Findings) (d : DeclaredType),
      (forEach .strict recordType before).runFrom c s₁ = (.ok (), s)
        ∧ TypeStep c t s.symbols s'.symbols d
        ∧ (forEach .strict recordType after).runFrom c s' = (.ok (), s₂)
        ∧ Visit c s₂.symbols before t d
        ∧ ∀ name, s'.symbols.declaredTypes.find? name
            = (s₂.symbols.seeing (before ++ [t])).declaredTypes.find? name := by
  obtain ⟨s, hbefore, hrest⟩ := forEach_append_iff.1 h.run
  obtain ⟨s', hstep, hafter⟩ := forEach_strict_cons_iff.1 hrest
  obtain ⟨d, hd⟩ := typeStep_of_recordType hstep
  have hview := h.find?_eq hbefore hrest
  have hview' : ∀ name, s'.symbols.declaredTypes.find? name
      = (s₂.symbols.seeing (before ++ [t])).declaredTypes.find? name := by
    refine TypePass.find?_eq ⟨?_, h.fresh, ?_⟩ ?_ hafter
    · rw [append_assoc]
      exact h.run
    · rw [append_assoc]
      exact h.names
    · exact forEach_append_iff.2 ⟨s, hbefore, forEach_strict_cons_iff.2 ⟨s', hstep, rfl⟩⟩
  have habstract : ∀ type, (s₂.symbols.seeing before).isAbstractType type
      = s.symbols.isAbstractType type := by
    refine isAbstractType_congr fun name => ?_
    rw [← abstractTypes_of_recordTypes hrest]
    rfl
  have halong : Alongside True (c.outer s.symbols) (c.outer (s₂.symbols.seeing before)) :=
    .of_find? rfl rfl fun name => (hview name).symm
  refine ⟨s, s', d, hbefore, hd, hafter, ⟨hd.name, ?_, hd.kind, ?_, ?_⟩, hview'⟩
  · have hown := hview' d.javaName
    rw [hd.declared, find?_insert_self, find?_seeing, if_pos] at hown
    · exact hown.symm
    · rw [← hd.name]
      exact mem_map_of_mem (mem_append_right _ mem_cons_self)
  · exact declaredGoName_of_alongside habstract halong hd.goName
  · exact typeIsPublic_of_alongside habstract halong rfl hd.isPublic

lemma keys_of_recordTypes (h : (forEach .strict recordType types).runFrom c s = (.ok (), s'))
    (hnames : (types.map javaName?).Nodup)
    (hfresh : ∀ name ∈ s.symbols.declaredTypes.keys, some name ∉ types.map javaName?) :
    s'.symbols.declaredTypes.keys.map some
      = s.symbols.declaredTypes.keys.map some ++ types.map javaName? := by
  induction types generalizing s with
  | nil =>
    cases h
    simp
  | cons t types ih =>
    obtain ⟨s₁, hstep, hrest⟩ := forEach_strict_cons_iff.1 h
    obtain ⟨d, hd⟩ := typeStep_of_recordType hstep
    rw [map_cons, nodup_cons] at hnames
    have hnew : d.javaName ∉ s.symbols.declaredTypes.keys := by
      intro hold
      refine hfresh _ hold ?_
      rw [← hd.name]
      exact mem_cons_self
    have hkeys : s₁.symbols.declaredTypes.keys = s.symbols.declaredTypes.keys ++ [d.javaName] := by
      rw [hd.declared, keys_insert_of_not_mem _ _ hnew]
    rw [ih hrest hnames.2, hkeys]
    · simp [hd.name]
    · intro name hname
      rw [hkeys, mem_append, mem_singleton] at hname
      rcases hname with hold | rfl
      · exact fun hlater => hfresh name hold (mem_cons_of_mem _ hlater)
      · rw [← hd.name]
        exact hnames.1

lemma TypePass.exists_visit (h : TypePass c (before ++ t :: after) s₁ s₂) :
    ∃ d, Visit c s₂.symbols before t d := by
  obtain ⟨_, _, d, -, -, -, hvisit, -⟩ := h.exists_step
  exact ⟨d, hvisit⟩

lemma find?_layouts_of_recordTypes
    (h : (forEach .strict recordType types).runFrom c s = (.ok (), s'))
    (hnames : (types.map javaName?).Nodup)
    (hother : ∀ t ∈ types, ¬ RecordedAs s'.symbols t goName) :
    s'.symbols.layouts.find? goName = s.symbols.layouts.find? goName := by
  induction types generalizing s with
  | nil =>
    cases h
    rfl
  | cons t types ih =>
    obtain ⟨s₁, hstep, hrest⟩ := forEach_strict_cons_iff.1 h
    obtain ⟨d, hd⟩ := typeStep_of_recordType hstep
    rw [map_cons, nodup_cons] at hnames
    have hfind : s'.symbols.declaredTypes.find? d.javaName = some d := by
      rw [find?_of_recordTypes hrest, hd.declared, find?_insert_self]
      rw [← hd.name]
      exact hnames.1
    have hne : goName ≠ d.goName := by
      rintro rfl
      exact hother t mem_cons_self ⟨d, hd.name, hfind, rfl⟩
    rw [ih hrest hnames.2 fun t' ht' => hother t' (mem_cons_of_mem _ ht')]
    rcases hd.layouts with ⟨-, hsame⟩ | ⟨layout, superclass, -, -, hinsert⟩
    · rw [hsame]
    · rw [hinsert, find?_insert_of_ne _ _ hne]

lemma TypePass.superclass (h : TypePass c (before ++ t :: after) s₁ s₂)
    (hgoName : RecordedAs s₂.symbols t goName)
    (hlast : ∀ t' ∈ after, ¬ RecordedAs s₂.symbols t' goName)
    (hlayout : s₁.symbols.layouts.find? goName = some layout) :
    ∃ superclass,
      superclassOf (c.around (s₂.symbols.seeing (before ++ [t])) t) t = .ok superclass
        ∧ s₂.symbols.layouts.find? goName = some { layout with superclass := superclass } := by
  obtain ⟨s, s', d, hbefore, hd, hafter, hvisit, hview⟩ := h.exists_step
  obtain ⟨d', hname, hfind, rfl⟩ := hgoName
  obtain rfl : d' = d := by
    rw [hvisit.name] at hname
    rw [← Option.some.inj hname, hvisit.find] at hfind
    exact (Option.some.inj hfind).symm
  have hnames : (after.map javaName?).Nodup := by
    have hall := h.names
    rw [map_append] at hall
    exact (nodup_cons.1 (nodup_append.1 hall).2.1).2
  obtain ⟨earlier, hearlier⟩ := (layouts_of_recordTypes hbefore d'.goName).2 layout hlayout
  rcases hd.layouts with ⟨hnone, -⟩ | ⟨layout', superclass, hlayout', hsuper, hinsert⟩
  · rw [hearlier] at hnone
    cases hnone
  · rw [hearlier] at hlayout'
    cases hlayout'
    refine ⟨superclass, ?_, ?_⟩
    · have halong : Alongside True (c.around s'.symbols t)
          (c.around (s₂.symbols.seeing (before ++ [t])) t) :=
        .of_find? rfl rfl fun name => (hview name).symm
      exact superclassOf_of_alongside halong rfl hsuper
    · rw [find?_layouts_of_recordTypes hafter hnames hlast, hinsert, find?_insert_self]

end Analysis

/-- A tolerant analysis ends with these symbols and no refusal. -/
def AnalysedAs (unit : CompilationUnit) (symbols : Symbols) : Prop :=
  symbols.failures.entries = [] ∧ ∃ log, analyze .tolerant unit [] {} = (.ok (), ⟨symbols, log⟩)

variable {unit : CompilationUnit} {symbols : Symbols}

lemma analysedAs_iff : AnalysedAs unit symbols
    ↔ ∃ log, analyze .strict unit [] {} = (.ok (), ⟨symbols, log⟩) := by
  have hagree : Agree (analyze .strict unit [] {}) (analyze .tolerant unit [] {}) :=
    wholeUnit_matches.agree _ {} rfl
  constructor
  · rintro ⟨hclean, log, htolerant⟩
    rw [htolerant] at hagree
    revert hagree
    generalize analyze .strict unit [] {} = result
    intro hagree
    cases hagree with
    | same => exact ⟨log, rfl⟩
    | filed node first _ hfiled =>
      have hempty : ([] : List (Nat × Refusal)) = symbols.failures.entries := hclean.symm
      have hsome : [(node.id, first)] <+: symbols.failures.entries := hfiled
      rw [← hempty] at hsome
      cases prefix_nil.1 hsome
  · rintro ⟨log, hstrict⟩
    rw [hstrict] at hagree
    revert hagree
    generalize htolerant : analyze .tolerant unit [] {} = result
    intro hagree
    cases hagree with
    | same hfiled => exact ⟨hfiled, log, htolerant⟩

variable (h : AnalysedAs unit symbols)
variable (hnames : (unit.root.typeDeclarations.map Node.javaName?).Nodup)
include h

lemma AnalysedAs.exists_passes :
    ∃ s₁ s₂ : Findings,
      (forEach .strict recordAbstract unit.root.typeDeclarations).runFrom
          ⟨unit, []⟩ {} = (.ok (), s₁)
        ∧ (forEach .strict recordType unit.root.typeDeclarations).runFrom
          ⟨unit, []⟩ s₁ = (.ok (), s₂)
        ∧ s₁.symbols.declaredTypes = ⟨[]⟩
        ∧ symbols.declaredTypes = s₂.symbols.declaredTypes
        ∧ symbols.abstractTypes = s₂.symbols.abstractTypes
        ∧ symbols.layouts = s₂.symbols.layouts := by
  obtain ⟨log, hstrict⟩ := analysedAs_iff.1 h
  obtain ⟨s₁, s₂, s₃, s₄, s₅, hpasses, hsymbols⟩ := exists_passes_of_wholeUnit hstrict
  change symbols = s₅.symbols at hsymbols
  rw [hsymbols]
  refine ⟨s₁, s₂, hpasses.abstracts, hpasses.types, ?_, ?_, ?_, ?_⟩
  · exact part_of_forEach declaredTypes hpasses.abstracts
      (preserves_recordAbstract fun _ _ _ => rfl) fun _ _ => rfl
  · exact hpasses.part_eq declaredTypes (fun _ _ _ => rfl) (fun _ _ _ => rfl) fun _ _ => rfl
  · exact hpasses.part_eq abstractTypes (fun _ _ _ => rfl) (fun _ _ _ => rfl) fun _ _ => rfl
  · exact hpasses.part_eq layouts (fun _ _ _ => rfl) (fun _ _ _ => rfl) fun _ _ => rfl

lemma AnalysedAs.mem_abstractTypes (name : String) :
    name ∈ symbols.abstractTypes
      ↔ ∃ t ∈ unit.root.typeDeclarations, t.abstractGoName? unit.settings = some name := by
  obtain ⟨s₁, s₂, habstracts, htypes, -, -, hsame, -⟩ := h.exists_passes
  rw [hsame, abstractTypes_of_recordTypes htypes, mem_abstractTypes_of_recordAbstracts habstracts]
  simp

lemma AnalysedAs.mem_layouts (name : String) :
    name ∈ symbols.layouts.keys
      ↔ ∃ t ∈ unit.root.typeDeclarations, t.abstractGoName? unit.settings = some name := by
  obtain ⟨s₁, s₂, habstracts, htypes, -, -, -, hsame⟩ := h.exists_passes
  rw [hsame, mem_layouts_of_recordTypes htypes, mem_layouts_of_recordAbstracts habstracts]
  simp [Table.keys]

include hnames

lemma AnalysedAs.keys :
    symbols.declaredTypes.keys.map some = unit.root.typeDeclarations.map javaName? := by
  obtain ⟨s₁, s₂, -, htypes, hfresh, hsame, -, -⟩ := h.exists_passes
  rw [hsame, keys_of_recordTypes htypes hnames]
  · rw [hfresh]
    rfl
  · rw [hfresh]
    intro name hname
    cases hname

lemma AnalysedAs.visit {before after : List Node} {t : Node}
    (hsplit : unit.root.typeDeclarations = before ++ t :: after) :
    ∃ d, Visit ⟨unit, []⟩ symbols before t d := by
  obtain ⟨s₁, s₂, -, htypes, hfresh, hdeclared, habstract, -⟩ := h.exists_passes
  have hpass : TypePass ⟨unit, []⟩ (before ++ t :: after) s₁ s₂ := by
    rw [← hsplit]
    exact ⟨htypes, hfresh, hnames⟩
  obtain ⟨d, hvisit⟩ := hpass.exists_visit
  exact ⟨d, hvisit.congr hdeclared habstract⟩

lemma AnalysedAs.superclass {before after : List Node} {t : Node} {goName : String}
    (hsplit : unit.root.typeDeclarations = before ++ t :: after)
    (hgoName : RecordedAs symbols t goName)
    (hlast : ∀ t' ∈ after, ¬ RecordedAs symbols t' goName)
    (hkey : goName ∈ symbols.layouts.keys) :
    ∃ superclass layout,
      superclassOf (AnalysisContext.around ⟨unit, []⟩ (symbols.seeing (before ++ [t])) t) t
          = .ok superclass
        ∧ symbols.layouts.find? goName = some { layout with superclass := superclass }
        ∧ ∀ before' t' after', unit.root.typeDeclarations = before' ++ t' :: after' →
          t'.abstractGoName? unit.settings = some goName →
          (∀ t'' ∈ after', t''.abstractGoName? unit.settings ≠ some goName) →
            layoutOf goName t' = .ok layout := by
  obtain ⟨s₁, s₂, habstracts, htypes, hfresh, hdeclared, -, hlayouts⟩ := h.exists_passes
  have hpass : TypePass ⟨unit, []⟩ (before ++ t :: after) s₁ s₂ := by
    rw [← hsplit]
    exact ⟨htypes, hfresh, hnames⟩
  have hrecorded : ∀ t', RecordedAs s₂.symbols t' goName ↔ RecordedAs symbols t' goName := by
    intro t'
    unfold RecordedAs
    rw [hdeclared]
  have hfirst : ∃ layout, s₁.symbols.layouts.find? goName = some layout := by
    cases hfind : s₁.symbols.layouts.find? goName with
    | some layout => exact ⟨layout, rfl⟩
    | none =>
      have hnone := (layouts_of_recordTypes htypes goName).1 hfind
      rw [hlayouts, ← isSome_find?_iff, hnone] at hkey
      cases hkey
  obtain ⟨layout, hlayout⟩ := hfirst
  obtain ⟨superclass, hsuper, hfinal⟩ := hpass.superclass ((hrecorded t).2 hgoName)
    (fun t' ht' hrec => hlast t' ht' ((hrecorded t').1 hrec)) hlayout
  have halong : Alongside True
      (AnalysisContext.around ⟨unit, []⟩ (s₂.symbols.seeing (before ++ [t])) t)
      (AnalysisContext.around ⟨unit, []⟩ (symbols.seeing (before ++ [t])) t) := by
    refine .of_find? rfl rfl fun name => ?_
    change (symbols.seeing _).declaredTypes.find? name
      = (s₂.symbols.seeing _).declaredTypes.find? name
    rw [find?_seeing, find?_seeing, hdeclared]
  refine ⟨superclass, layout, superclassOf_of_alongside halong rfl hsuper, hlayouts ▸ hfinal, ?_⟩
  intro before' t' after' hsplit' ht' hlast'
  rw [hsplit'] at habstracts
  obtain ⟨layout', hlayoutOf, hfind⟩ := exists_layout_of_recordAbstracts habstracts ht' hlast'
  rw [hlayout] at hfind
  cases hfind
  exact hlayoutOf

end JavaToGo
