import Mathlib.Data.List.Induction
import JavaToGo.Proofs.Analysis.Reordering

/-!
# Whether the order of the declarations matters

A type is recorded in view of the types before it: a superclass that comes later
is mapped as a foreign name, and an abstract one is not recognised.  The order
does not matter exactly when each type is recorded alike in every order; that is
so when every declared name would become the same as a foreign name, and no two
types share a Go name.
-/

namespace JavaToGo

open JavaToGo.Tree (Kind Node)
open List Analysis Tree.Node Table Symbols

/-- Symbols with the same records of types and the same superclasses of shapes. -/
structure SameTypes (s s' : Symbols) : Prop where
  records : ∀ name, s'.declaredTypes.find? name = s.declaredTypes.find? name
  superclasses : ∀ goName, (s'.layouts.find? goName).map Layout.superclass
    = (s.layouts.find? goName).map Layout.superclass

/-- In some order of the declarations these types come before and after `t`. -/
def Stands (root : Node) (before : List Node) (t : Node) (after : List Node) : Prop :=
  ∃ order : List Node, order.Perm root.children
    ∧ order.flatMap Node.typeDeclarations = before ++ t :: after

/-- In view of the types before it in any order, each type has the visibility that is recorded for
it, and the last type with the Go name of a shape has the superclass of the shape. -/
structure Settled (unit : CompilationUnit) (symbols : Symbols) : Prop where
  isPublic : ∀ before t after d, Stands unit.root before t after →
    recordOf? symbols t = some d →
      typeIsPublic (AnalysisContext.outer ⟨unit, []⟩ (symbols.seeing before)) t = .ok d.isPublic
  superclass : ∀ before t after goName layout, Stands unit.root before t after →
    Analysis.RecordedAs symbols t goName →
    (∀ t' ∈ after, ¬ Analysis.RecordedAs symbols t' goName) →
    symbols.layouts.find? goName = some layout →
      superclassOf (AnalysisContext.around ⟨unit, []⟩ (symbols.seeing (before ++ [t])) t) t
        = .ok layout.superclass

/-- Every declared name would become the same as a foreign name. -/
def NamesStay (unit : CompilationUnit) (symbols : Symbols) : Prop :=
  ∀ e ∈ symbols.declaredTypes.entries, unit.settings.typeMappings.find? e.1 = none →
    (AnalysisContext.outer ⟨unit, []⟩ symbols).mapForeignName e.1 = e.2.goName

instance (unit : CompilationUnit) (symbols : Symbols) : Decidable (NamesStay unit symbols) :=
  inferInstanceAs (Decidable (∀ e ∈ _, _ → _))

variable {before : List Node} {t : Node}

section

variable {root : Node}

lemma typeDeclarations_of_not_recorded (hroot : root.isRecorded = false) :
    root.typeDeclarations = root.children.flatMap typeDeclarations := by
  unfold typeDeclarations
  rw [filter_walk_of_not_recorded hroot fun n hn => by simp [isRecorded, hn], filter_flatMap]

lemma mem_typeDeclarations_of_stands (hroot : root.isRecorded = false) {after : List Node}
    (h : Stands root before t after) : t ∈ root.typeDeclarations := by
  obtain ⟨order, hperm, hsplit⟩ := h
  rw [typeDeclarations_of_not_recorded hroot, ← (hperm.flatMap_right _).mem_iff, hsplit]
  exact mem_append_right _ mem_cons_self

lemma reordered_of_perm (hdistinct : root.DistinctNumbers) {order : List Node}
    (hperm : order.Perm root.children) : root.Reordered (.mk root.head order) where
  kind := rfl
  order := ⟨order, hperm, rfl⟩
  numbers := by
    unfold Node.DistinctNumbers at hdistinct ⊢
    rw [Node.walk_eq_flatMap] at hdistinct ⊢
    refine (List.Perm.nodup_iff ?_).1 hdistinct
    exact ((hperm.symm.flatMap_right Node.walk).map Node.id).cons root.id

end

section

variable {unit unit' : CompilationUnit} {symbols symbols' : Symbols}
variable {before' : List Node} {t' : Node}

/-- Two units that differ in the order of their declarations, with what is recorded for them. -/
structure Rearranged (unit unit' : CompilationUnit) (symbols symbols' : Symbols) : Prop where
  first : AnalysedAs unit symbols
  second : AnalysedAs unit' symbols'
  names : (unit.root.typeDeclarations.map Node.javaName?).Nodup
  distinct : unit.root.DistinctNumbers
  unrecorded : unit.root.isRecorded = false
  settings : unit'.settings = unit.settings
  reordered : unit.root.Reordered unit'.root

lemma map_javaName?_situation (root : Node) (ts : List Node) :
    (ts.map root.situation).map (fun v => v.2.javaName?) = ts.map javaName? := by
  rw [map_map]
  exact map_congr_left fun t _ => javaName?_bare t

lemma javaNames_of_situations {root root' : Node} {ts ts' : List Node}
    (h : ts.map root.situation = ts'.map root'.situation) :
    ts.map javaName? = ts'.map javaName? := by
  rw [← map_javaName?_situation root, h, map_javaName?_situation]

lemma find?_seeing_congr (hbefore : before.map javaName? = before'.map javaName?)
    (hrecords : ∀ name, some name ∈ before'.map javaName? →
      symbols'.declaredTypes.find? name = symbols.declaredTypes.find? name) (name : String) :
    (symbols'.seeing before').declaredTypes.find? name
      = (symbols.seeing before).declaredTypes.find? name := by
  rw [find?_seeing, find?_seeing, hbefore]
  split
  · rename_i hseen
    exact hrecords name hseen
  · rfl

section

variable (hsettings : unit'.settings = unit.settings)
include hsettings

lemma typeIsPublic_of_records (hbare : t.bare = t'.bare)
    (habstract : ∀ type, symbols'.isAbstractType type = symbols.isAbstractType type)
    (hbefore : before.map javaName? = before'.map javaName?)
    (hrecords : ∀ name, some name ∈ before'.map javaName? →
      symbols'.declaredTypes.find? name = symbols.declaredTypes.find? name)
    (h : typeIsPublic (AnalysisContext.outer ⟨unit, []⟩ (symbols.seeing before)) t = .ok isPublic) :
    typeIsPublic (AnalysisContext.outer ⟨unit', []⟩ (symbols'.seeing before')) t'
      = .ok isPublic := by
  have halong : Alongside True (AnalysisContext.outer ⟨unit, []⟩ (symbols.seeing before))
      (AnalysisContext.outer ⟨unit', []⟩ (symbols'.seeing before')) :=
    .of_find? hsettings rfl (find?_seeing_congr hbefore hrecords)
  exact typeIsPublic_of_alongside habstract halong hbare h

lemma superclassOf_of_records (hsituation : unit.root.situation t = unit'.root.situation t')
    (hbefore : before.map javaName? = before'.map javaName?)
    (hrecords : ∀ name, symbols'.declaredTypes.find? name = symbols.declaredTypes.find? name)
    (h : superclassOf (AnalysisContext.around ⟨unit, []⟩ (symbols.seeing (before ++ [t])) t) t
      = .ok superclass) :
    superclassOf (AnalysisContext.around ⟨unit', []⟩ (symbols'.seeing (before' ++ [t'])) t') t'
      = .ok superclass := by
  have hbare := bare_of_situation hsituation
  have halong : Alongside True
      (AnalysisContext.around ⟨unit, []⟩ (symbols.seeing (before ++ [t])) t)
      (AnalysisContext.around ⟨unit', []⟩ (symbols'.seeing (before' ++ [t'])) t') := by
    refine .of_find? hsettings ?_ (find?_seeing_congr ?_ fun name _ => hrecords name)
    · exact congrArg (· :: []) (enclosingTypeParameters_of_situation hsituation).symm
    · rw [map_append, map_append, hbefore, map_singleton, map_singleton, javaName?_of_bare hbare]
  exact superclassOf_of_alongside halong hbare h

lemma eq_of_visits {d d' : DeclaredType} (hd : Visit ⟨unit, []⟩ symbols before t d)
    (hd' : Visit ⟨unit', []⟩ symbols' before' t' d') (hbare : t.bare = t'.bare)
    (hpublic : d'.isPublic = d.isPublic) : d' = d := by
  have hspelt := goSpelling?_of_declaredGoName hd.goName hd.isPublic
  have hspelt' := goSpelling?_of_declaredGoName hd'.goName hd'.isPublic
  have hname : d'.javaName = d.javaName := by
    have hboth := javaName?_of_bare hbare
    rw [hd.name, hd'.name, Option.some.injEq] at hboth
    exact hboth.symm
  have hgoName : d'.goName = d.goName := by
    rw [← goSpelling?_of_bare hbare, hpublic] at hspelt'
    change goSpelling? unit'.settings t d.isPublic = _ at hspelt'
    change goSpelling? unit.settings t d.isPublic = _ at hspelt
    rw [hsettings, hspelt, Option.some.injEq] at hspelt'
    exact hspelt'.symm
  have hkind : d'.kind = d.kind := by
    rw [hd'.kind, hd.kind, kind_of_bare hbare]
  cases d'
  simp only at hname hgoName hpublic hkind
  rw [hname, hgoName, hpublic, hkind]

end

lemma exists_last_of_mem {α : Type} {p : α → Prop} {as : List α} {a : α} (ha : a ∈ as)
    (hp : p a) : ∃ before b after, as = before ++ b :: after ∧ p b ∧ ∀ x ∈ after, ¬ p x := by
  induction as generalizing a with
  | nil => cases ha
  | cons x as ih =>
    by_cases hlater : ∃ b ∈ as, p b
    · obtain ⟨b, hb, hpb⟩ := hlater
      obtain ⟨before, last, after, rfl, hlast, hafter⟩ := ih hb hpb
      exact ⟨x :: before, last, after, rfl, hlast, hafter⟩
    · have hnone : ∀ b ∈ as, ¬ p b := fun b hb hpb => hlater ⟨b, hb, hpb⟩
      rcases mem_cons.1 ha with rfl | ha
      · exact ⟨[], a, as, rfl, hp, hnone⟩
      · exact absurd hp (hnone a ha)

lemma recordedAs_congr (hbare : t.bare = t'.bare)
    (hrecords : ∀ name, symbols'.declaredTypes.find? name = symbols.declaredTypes.find? name)
    (goName : String) :
    RecordedAs symbols' t' goName ↔ RecordedAs symbols t goName := by
  unfold RecordedAs
  simp only [hrecords, javaName?_of_bare hbare]

namespace Rearranged

variable (hr : Rearranged unit unit' symbols symbols')
include hr

lemma exists_stands (hsplit : unit'.root.typeDeclarations = before' ++ t' :: after') :
    ∃ before t after, Stands unit.root before t after
      ∧ before.map unit.root.situation = before'.map unit'.root.situation
      ∧ unit.root.situation t = unit'.root.situation t'
      ∧ after.map unit.root.situation = after'.map unit'.root.situation := by
  obtain ⟨order, hperm, hbare⟩ := hr.reordered.order
  have hroot' := hr.reordered.isRecorded_eq.trans hr.unrecorded
  have hsame : (order.flatMap typeDeclarations).map unit.root.situation
      = unit'.root.typeDeclarations.map unit'.root.situation := by
    rw [typeDeclarations_of_not_recorded hroot']
    unfold typeDeclarations
    rw [← filter_flatMap, ← filter_flatMap]
    exact map_situation_of_reordered hr.distinct hr.unrecorded hr.reordered hperm hbare
      Kind.isTypeDeclaration
  rw [hsplit, map_append, map_eq_append_iff] at hsame
  obtain ⟨before, rest, hparts, hbefore, hrest⟩ := hsame
  obtain ⟨t, after, rfl, ht, hafter⟩ := map_eq_cons_iff.1 hrest
  exact ⟨before, t, after, ⟨order, hperm, hparts⟩, hbefore, ht, hafter⟩

lemma perm_javaNames :
    (unit'.root.typeDeclarations.map javaName?).Perm
      (unit.root.typeDeclarations.map javaName?) := by
  rw [← map_javaName?_situation unit'.root, ← map_javaName?_situation unit.root]
  exact (perm_typeDeclarations_of_reordered hr.distinct hr.unrecorded hr.reordered).map _

lemma names_second : (unit'.root.typeDeclarations.map javaName?).Nodup :=
  hr.perm_javaNames.nodup_iff.2 hr.names

lemma isAbstractType_eq (type : Option String) :
    symbols'.isAbstractType type = symbols.isAbstractType type := by
  refine isAbstractType_congr (fun name => ?_) type
  rw [hr.second.mem_abstractTypes, hr.first.mem_abstractTypes, hr.settings]
  exact exists_abstractGoName?_iff_of_reordered hr.distinct hr.unrecorded hr.reordered _ name

lemma mem_layouts_iff (goName : String) :
    goName ∈ symbols'.layouts.keys ↔ goName ∈ symbols.layouts.keys := by
  rw [hr.second.mem_layouts, hr.first.mem_layouts, hr.settings]
  exact exists_abstractGoName?_iff_of_reordered hr.distinct hr.unrecorded hr.reordered _ goName

section

variable (hsettled : Settled unit symbols)
include hsettled

lemma find?_of_settled
    (hsplit : unit'.root.typeDeclarations = before' ++ after') (name : String)
    (hname : some name ∈ before'.map javaName?) :
    symbols'.declaredTypes.find? name = symbols.declaredTypes.find? name := by
  induction before' using List.reverseRecOn generalizing after' name with
  | nil => cases hname
  | append_singleton before' _ ih =>
    rw [append_assoc] at hsplit
    have hearlier := ih hsplit
    rw [map_append, mem_append] at hname
    rcases hname with hname | hname
    · exact hearlier name hname
    obtain ⟨before, t, after, hstands, hbefore, ht, -⟩ := hr.exists_stands hsplit
    have hbare := bare_of_situation ht
    obtain ⟨d', hd'⟩ := hr.second.visit hr.names_second hsplit
    obtain ⟨first, last, hown⟩ :=
      append_of_mem (mem_typeDeclarations_of_stands hr.unrecorded hstands)
    obtain ⟨d, hd⟩ := hr.first.visit hr.names hown
    have hpublic := typeIsPublic_of_records hr.settings hbare hr.isAbstractType_eq
      (javaNames_of_situations hbefore) hearlier
      (hsettled.isPublic before t after d hstands hd.recordOf?_eq)
    rw [hd'.isPublic, Except.ok.injEq] at hpublic
    obtain rfl := eq_of_visits hr.settings hd hd' hbare hpublic
    rw [map_cons, map_nil, mem_singleton, hd'.name, Option.some.injEq] at hname
    rw [hname, hd'.find, hd.find]

lemma records_of_settled (name : String) :
    symbols'.declaredTypes.find? name = symbols.declaredTypes.find? name := by
  by_cases hname : some name ∈ unit'.root.typeDeclarations.map javaName?
  · exact hr.find?_of_settled hsettled (append_nil _).symm name hname
  · have hnone : ∀ {unit : CompilationUnit} {symbols : Symbols}, AnalysedAs unit symbols →
        (unit.root.typeDeclarations.map javaName?).Nodup →
        some name ∉ unit.root.typeDeclarations.map javaName? →
          symbols.declaredTypes.find? name = none := by
      intro unit symbols h hnames hname
      rw [← h.keys hnames, mem_map_of_injective fun _ _ => Option.some.inj] at hname
      rwa [← isSome_find?_iff, Option.not_isSome_iff_eq_none] at hname
    rw [hnone hr.second hr.names_second hname, hnone hr.first hr.names]
    exact fun hin => hname (hr.perm_javaNames.mem_iff.2 hin)

lemma superclasses_of_settled
    (hrecords : ∀ name, symbols'.declaredTypes.find? name = symbols.declaredTypes.find? name)
    (goName : String) :
    (symbols'.layouts.find? goName).map Layout.superclass
      = (symbols.layouts.find? goName).map Layout.superclass := by
  have hnames' := hr.names_second
  have hkeys := hr.mem_layouts_iff goName
  cases hfind : symbols.layouts.find? goName with
  | none =>
    have hnone : symbols'.layouts.find? goName = none := by
      rw [← Option.not_isSome_iff_eq_none, isSome_find?_iff, hkeys, ← isSome_find?_iff, hfind]
      exact Bool.false_ne_true
    rw [hnone]
  | some layout =>
    have hkey' := hkeys.2 (mem_keys_of_find? hfind)
    -- An abstract class with the Go name is recorded under it, so there is a last such type.
    obtain ⟨abstract, habstract, hgo⟩ := (hr.second.mem_layouts goName).1 hkey'
    have hrecorded := (recordedAs_iff hr.second hnames' habstract goName).2
      (spelt?_of_abstractGoName? symbols' hgo)
    obtain ⟨before', t', after', hsplit, ht', hlast'⟩ :=
      exists_last_of_mem (p := (RecordedAs symbols' · goName)) habstract hrecorded
    obtain ⟨superclass, layout', hsuper, hfind', -⟩ :=
      hr.second.superclass hnames' hsplit ht' hlast' hkey'
    obtain ⟨before, t, after, hstands, hbefore, ht, hafter⟩ := hr.exists_stands hsplit
    have hlast : ∀ x ∈ after, ¬ RecordedAs symbols x goName := by
      intro x hx hrecordedAs
      have hmem := mem_map_of_mem (f := unit.root.situation) hx
      rw [hafter] at hmem
      obtain ⟨x', hx', hsituation⟩ := mem_map.1 hmem
      have hbare' := bare_of_situation hsituation
      exact hlast' x' hx' ((recordedAs_congr hbare'.symm hrecords goName).2 hrecordedAs)
    have hown := hsettled.superclass before t after goName layout hstands
      ((recordedAs_congr (bare_of_situation ht) hrecords goName).1 ht') hlast hfind
    have hsame := superclassOf_of_records hr.settings ht (javaNames_of_situations hbefore)
      hrecords hown
    rw [hsame, Except.ok.injEq] at hsuper
    rw [hfind', ← hsuper]
    rfl

end

end Rearranged

variable (h : AnalysedAs unit symbols)
variable (hnames : (unit.root.typeDeclarations.map Node.javaName?).Nodup)
variable (hdistinct : unit.root.DistinctNumbers) (hroot : unit.root.isRecorded = false)
include h hnames hroot

section

include hdistinct

lemma exists_rearranged_of_stands {after : List Node} (hstands : Stands unit.root before t after) :
    ∃ unit' symbols', Rearranged unit unit' symbols symbols'
      ∧ unit'.root.typeDeclarations = before ++ t :: after
      ∧ unit.root.situation t = unit'.root.situation t := by
  obtain ⟨order, hperm, hsplit⟩ := hstands
  obtain ⟨unit', hroot', hsettings⟩ : ∃ unit' : CompilationUnit,
      unit'.root = .mk unit.root.head order ∧ unit'.settings = unit.settings :=
    ⟨{ unit with root := .mk unit.root.head order }, rfl, rfl⟩
  have hreordered : unit.root.Reordered unit'.root := by
    rw [hroot']
    exact reordered_of_perm hdistinct hperm
  obtain ⟨symbols', h'⟩ := exists_analysedAs_of_reordered hdistinct hroot hsettings hreordered h
  refine ⟨unit', symbols', ⟨h, h', hnames, hdistinct, hroot, hsettings, hreordered⟩, ?_, ?_⟩
  · rw [typeDeclarations_of_not_recorded (hreordered.isRecorded_eq.trans hroot), hroot', ← hsplit]
    rfl
  · have hsame := map_situation_of_reordered hdistinct hroot
      (reordered_of_perm hdistinct hperm) hperm rfl Kind.isTypeDeclaration
    rw [hroot']
    refine map_inj_left.1 hsame t ?_
    rw [filter_flatMap]
    change t ∈ order.flatMap typeDeclarations
    rw [hsplit]
    exact mem_append_right _ mem_cons_self

lemma settled_of_sameTypes
    (hsame : ∀ unit' symbols', Rearranged unit unit' symbols symbols' →
      SameTypes symbols symbols') :
    Settled unit symbols := by
  constructor
  · intro before t after d hstands hd
    obtain ⟨unit', symbols', hr, hsplit, -⟩ :=
      exists_rearranged_of_stands h hnames hdistinct hroot hstands
    have hrecords := (hsame unit' symbols' hr).records
    obtain ⟨d', hd'⟩ := hr.second.visit hr.names_second hsplit
    have hfind := hd'.find
    rw [hrecords] at hfind
    rw [recordOf?, hd'.name, Option.bind_some, hfind, Option.some.injEq] at hd
    subst hd
    exact typeIsPublic_of_records hr.settings.symm rfl (fun type =>
      (hr.isAbstractType_eq type).symm)
      rfl (fun name _ => (hrecords name).symm) hd'.isPublic
  · intro before t after goName layout hstands ht hlast hfind
    obtain ⟨unit', symbols', hr, hsplit, hsituation⟩ :=
      exists_rearranged_of_stands h hnames hdistinct hroot hstands
    obtain ⟨hrecords, hsuperclasses⟩ := hsame unit' symbols' hr
    have hkey := (hr.mem_layouts_iff goName).2 (mem_keys_of_find? hfind)
    obtain ⟨superclass, layout', hsuper, hfind', -⟩ := hr.second.superclass hr.names_second hsplit
      ((recordedAs_congr rfl hrecords goName).2 ht)
      (fun x hx hx' => hlast x hx ((recordedAs_congr rfl hrecords goName).1 hx')) hkey
    have heq := hsuperclasses goName
    rw [hfind, hfind'] at heq
    obtain rfl : superclass = layout.superclass := Option.some.inj heq
    exact superclassOf_of_records hr.settings.symm hsituation.symm rfl
      (fun name => (hrecords name).symm) hsuper

end

omit h hnames hroot in
lemma alongside_of_namesStay (hstay : NamesStay unit symbols) (ts ts' : List Node)
    (typeParams : List Scope) :
    Alongside True ⟨unit.settings, symbols.seeing ts, typeParams⟩
      ⟨unit.settings, symbols.seeing ts', typeParams⟩ := by
  -- Seen or not, a name is written as a foreign one.
  have hforeign : ∀ (ts : List Node) (name : String),
      TypeContext.mapName ⟨unit.settings, symbols.seeing ts, typeParams⟩ name
        = TypeContext.mapName ⟨unit.settings, {}, typeParams⟩ name := by
    intro ts name
    simp only [TypeContext.mapName, TypeContext.override?, find?_seeing]
    cases hoverride : unit.settings.typeMappings.find? name with
    | some => rfl
    | none =>
      by_cases hseen : some name ∈ ts.map javaName?
      · cases hfind : symbols.declaredTypes.find? name with
        | none =>
          simp only [hseen]
          rfl
        | some d =>
          have hgoName : _ = d.goName := hstay (name, d) (mem_entries_of_find? hfind) hoverride
          simp only [hseen, if_true]
          rw [← hgoName]
          rfl
      · simp only [hseen]
        rfl
  exact ⟨rfl, fun _ name => (hforeign ts name).trans (hforeign ts' name).symm⟩

lemma settled_of_namesStay (hgoNames : (symbols.declaredTypes.values.map DeclaredType.goName).Nodup)
    (hstay : NamesStay unit symbols) : Settled unit symbols := by
  constructor
  · intro before t after d hstands hd
    obtain ⟨first, last, hown⟩ := append_of_mem (mem_typeDeclarations_of_stands hroot hstands)
    obtain ⟨d', hd'⟩ := h.visit hnames hown
    rw [hd'.recordOf?_eq, Option.some.injEq] at hd
    subst hd
    have halong : Alongside True (AnalysisContext.outer ⟨unit, []⟩ (symbols.seeing first))
        (AnalysisContext.outer ⟨unit, []⟩ (symbols.seeing before)) :=
      alongside_of_namesStay hstay first before []
    have habstract : ∀ type, (symbols.seeing before).isAbstractType type
        = (symbols.seeing first).isAbstractType type := fun _ => rfl
    exact typeIsPublic_of_alongside habstract halong rfl hd'.isPublic
  · intro before t after goName layout hstands ht hlast hfind
    have hmem := mem_typeDeclarations_of_stands hroot hstands
    obtain ⟨first, last, hown⟩ := append_of_mem hmem
    have hkey := mem_keys_of_find? hfind
    obtain ⟨superclass, layout', hsuper, hfind', -⟩ := h.superclass hnames hown ht
      (not_recordedAs_of_nodup h hnames ((nodup_goNames_iff h hnames).1 hgoNames) hown
        ((recordedAs_iff h hnames hmem goName).1 ht)) hkey
    rw [hfind, Option.some.injEq] at hfind'
    subst hfind'
    have halong : Alongside True
        (AnalysisContext.around ⟨unit, []⟩ (symbols.seeing (first ++ [t])) t)
        (AnalysisContext.around ⟨unit, []⟩ (symbols.seeing (before ++ [t])) t) :=
      alongside_of_namesStay hstay _ _ _
    exact superclassOf_of_alongside halong rfl hsuper

end

/-- No order of the declarations leads to a failure.  The order does not matter exactly when the
unit is settled, which it is when declared names become the same as foreign names and no two types
share a Go name. -/
theorem order_immaterial_iff {unit : CompilationUnit} {symbols : Symbols}
    (h : AnalysedAs unit symbols)
    (hnames : (unit.root.typeDeclarations.map Node.javaName?).Nodup)
    (hdistinct : unit.root.DistinctNumbers) (hroot : unit.root.isRecorded = false) :
    (∀ unit' : CompilationUnit, unit'.settings = unit.settings →
        unit.root.Reordered unit'.root → ∃ symbols', AnalysedAs unit' symbols')
      ∧ ((∀ unit' symbols', unit'.settings = unit.settings → unit.root.Reordered unit'.root →
            AnalysedAs unit' symbols' → SameTypes symbols symbols')
          ↔ Settled unit symbols)
      ∧ ((symbols.declaredTypes.values.map DeclaredType.goName).Nodup → NamesStay unit symbols →
          Settled unit symbols) := by
  refine ⟨fun unit' hsettings hreordered => ?_, ⟨?_, ?_⟩, ?_⟩
  · exact exists_analysedAs_of_reordered hdistinct hroot hsettings hreordered h
  · intro hsame
    exact settled_of_sameTypes h hnames hdistinct hroot fun unit' symbols' hr =>
      hsame unit' symbols' hr.settings hr.reordered hr.second
  · intro hsettled unit' symbols' hsettings hreordered h'
    have hr : Rearranged unit unit' symbols symbols' :=
      ⟨h, h', hnames, hdistinct, hroot, hsettings, hreordered⟩
    have hrecords := hr.records_of_settled hsettled
    exact ⟨hrecords, hr.superclasses_of_settled hsettled hrecords⟩
  · exact settled_of_namesStay h hnames hroot

/-- The abstract class may as well come after the class below it. -/
theorem figures_in_any_order :
    AnalysedAs figuresUnit (analyze .tolerant figuresUnit [] {}).2.symbols
      ∧ (figuresUnit.root.typeDeclarations.map Node.javaName?).Nodup
      ∧ figuresUnit.root.DistinctNumbers ∧ figuresUnit.root.isRecorded = false
      ∧ ∀ unit' symbols', unit'.settings = figuresUnit.settings →
          figuresUnit.root.Reordered unit'.root → AnalysedAs unit' symbols' →
            SameTypes (analyze .tolerant figuresUnit [] {}).2.symbols symbols' := by
  have hanalysed : AnalysedAs figuresUnit (analyze .tolerant figuresUnit [] {}).2.symbols :=
    analysedAs_of_outcome (by with_unfolding_all rfl) (by with_unfolding_all rfl)
  have hnames : (figuresUnit.root.typeDeclarations.map Node.javaName?).Nodup := by decide +kernel
  have hdistinct : figuresUnit.root.DistinctNumbers := by decide +kernel
  have hgoNames : (analyze .tolerant figuresUnit [] {}).2.symbols.declaredTypes.values.map
      DeclaredType.goName = ["Shape", "Square", "Figure"] := by
    with_unfolding_all rfl
  have hstay : NamesStay figuresUnit (analyze .tolerant figuresUnit [] {}).2.symbols := by
    decide +kernel
  obtain ⟨-, hiff, hsettled⟩ := order_immaterial_iff hanalysed hnames hdistinct rfl
  exact ⟨hanalysed, hnames, hdistinct, rfl, hiff.2 (hsettled (by rw [hgoNames]; decide) hstay)⟩

/-- A class below an abstract class below a class, in this order. -/
def leafUnit : CompilationUnit :=
  .ofTypes
    [.plainClass 1 [] "Leaf" (extending 4 "STNode") [],
     .plainClass 6 (abstractModifiers 9) "STNode" (extending 11 "Base") [],
     .plainClass 13 [] "Base" [] []]

def leafLastUnit : CompilationUnit where
  root := .mk leafUnit.root.head leafUnit.root.children.reverse

/-- Before its superclass, `Leaf` is not public and has another Go name; and the superclass of
`STNode` is not the Go name of `Base`. -/
theorem leafUnit_depends_on_order :
    AnalysedAs leafUnit (analyze .tolerant leafUnit [] {}).2.symbols
      ∧ (leafUnit.root.typeDeclarations.map Node.javaName?).Nodup
      ∧ leafUnit.root.Reordered leafLastUnit.root
      ∧ AnalysedAs leafLastUnit (analyze .tolerant leafLastUnit [] {}).2.symbols
      ∧ (analyze .tolerant leafUnit [] {}).2.symbols.declaredTypes.find? "Leaf"
          = some ⟨"Leaf", "leaf", false, .classDeclaration⟩
      ∧ (analyze .tolerant leafLastUnit [] {}).2.symbols.declaredTypes.find? "Leaf"
          = some ⟨"Leaf", "Leaf", true, .classDeclaration⟩
      ∧ ((analyze .tolerant leafUnit [] {}).2.symbols.layouts.find? "STNode").map
          Layout.superclass = some (some "Base")
      ∧ ((analyze .tolerant leafLastUnit [] {}).2.symbols.layouts.find? "STNode").map
          Layout.superclass = some (some "base") := by
  have hdistinct : leafUnit.root.DistinctNumbers := by decide +kernel
  refine ⟨analysedAs_of_outcome ?_ ?_, ?_, reordered_of_perm hdistinct (List.reverse_perm _),
    analysedAs_of_outcome ?_ ?_, ?_, ?_, ?_, ?_⟩
  · with_unfolding_all rfl
  · with_unfolding_all rfl
  · decide +kernel
  · with_unfolding_all rfl
  · with_unfolding_all rfl
  · with_unfolding_all rfl
  · with_unfolding_all rfl
  · with_unfolding_all rfl
  · with_unfolding_all rfl

end JavaToGo
