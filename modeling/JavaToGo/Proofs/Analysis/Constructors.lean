import JavaToGo.Proofs.Analysis.Types

/-!
# What the analysis files for a class
-/

namespace JavaToGo

open JavaToGo.Tree (Node)
open List Analysis Symbols Table

/-- A type with the Java name has constructors: one that it declares, or that of a record. -/
inductive Tree.Node.HasConstructor (root : Node) (javaName : String) : Prop
  | declared {n owner : Node} (hn : n ∈ root.declarationsOf .constructorDeclaration)
      (howner : root.enclosingType? n = some owner) (hname : owner.javaName? = some javaName)
  | record {n : Node} (hn : n ∈ root.declarationsOf .recordDeclaration)
      (hname : n.javaName? = some javaName)

namespace Analysis

variable {s : Findings}

section

variable {mode : Mode} {c : AnalysisContext} {node : Node}

lemma leadsTo_recordType (node : Node) :
    LeadsTo c s (fun s' => s'.declaredTypes = s.symbols.declaredTypes
      ∨ ∃ d, node.javaName? = some d.javaName
        ∧ typeIsPublic (c.outer s.symbols) node = .ok d.isPublic
        ∧ s'.declaredTypes = s.symbols.declaredTypes.insert d.javaName d) (recordType node) := by
  refine Ends.leadsTo (ends_recordType (fun _ _ => .inl rfl) fun d _ hname _ hpublic _ => ?_)
  have hjava := Node.requireText_name_iff.1 hname
  exact ⟨fun _ _ => .inr ⟨d, hjava, hpublic, rfl⟩, fun _ => .inr ⟨d, hjava, hpublic, rfl⟩,
    fun _ _ _ _ => .inr ⟨d, hjava, hpublic, rfl⟩⟩

lemma find?_of_recordOthers {types : List Node} {s' : Findings}
    (hrun : (forEach mode recordType types).runFrom c s = (.ok (), s'))
    (hothers : ∀ t ∈ types, t.javaName? ≠ some javaName) :
    s'.symbols.declaredTypes.find? javaName = s.symbols.declaredTypes.find? javaName := by
  refine LeadsTo.of_run (P := fun s' => s'.declaredTypes.find? javaName
    = s.symbols.declaredTypes.find? javaName) (.forEach (fun _ _ hs => hs) ?_ rfl) hrun
  intro t ht s₁ hs₁
  have hstep := leadsTo_recordType (c := c) t (s := s₁)
  unfold LeadsTo at hstep ⊢
  dsimp only
  rcases hstep with hsame | ⟨d, hname, -, hinsert⟩
  · rw [hsame, hs₁]
  · rw [hinsert, find?_insert_of_ne, hs₁]
    rintro rfl
    exact hothers t ht hname

/-- The symbols when a type is recorded: with all abstract classes, and the types before it. -/
def SeenAt (mode : Mode) (c : AnalysisContext) (node : Node) (seen : Symbols) : Prop :=
  ∃ before after s₁ s₂, c.unit.root.typeDeclarations = before ++ node :: after
    ∧ (forEach mode recordAbstract c.unit.root.typeDeclarations).runFrom c {} = (.ok (), s₁)
    ∧ (forEach mode recordType before).runFrom c s₁ = (.ok (), s₂)
    ∧ seen = s₂.symbols

lemma exists_seenAt_of_passes (h : Passes mode c {} s₁ s₂ s₃ s₄ s₅)
    (honce : (c.unit.root.typeDeclarations.filter fun t => t.javaName? == some javaName) = [node])
    {d : DeclaredType} (hfind : s₅.symbols.declaredTypes.find? javaName = some d) :
    ∃ seen, SeenAt mode c node seen ∧ seen.abstractTypes = s₅.symbols.abstractTypes
      ∧ typeIsPublic (c.outer seen) node = .ok d.isPublic := by
  obtain ⟨before, after, hsplit, hbefore, hname, hafter⟩ := filter_eq_cons_iff.1 honce
  rw [filter_eq_nil_iff] at hafter
  have htypes := h.types
  rw [hsplit] at htypes
  obtain ⟨seen, hseen, hrest⟩ := forEach_append_iff.1 htypes
  obtain ⟨_, s', hnode, hothers⟩ := runFrom_bind_eq_ok_iff.1 hrest
  -- The name is free until the node is recorded, and its record stays as it is.
  have hempty : s₁.symbols.declaredTypes = ⟨[]⟩ :=
    part_of_forEach declaredTypes h.abstracts
      (preserves_recordAbstract fun _ _ _ => rfl) fun _ _ => rfl
  have hfree : seen.symbols.declaredTypes.find? javaName = none := by
    rw [find?_of_recordOthers hseen fun t ht => by simpa using hbefore t ht, hempty]
    rfl
  have hfind' : s'.symbols.declaredTypes.find? javaName = some d := by
    rw [← find?_of_recordOthers hothers fun t ht => by simpa using hafter t ht, ← hfind]
    exact congrArg (find? · javaName) (h.part_eq declaredTypes (fun _ _ _ => rfl)
      (fun _ _ _ => rfl) fun _ _ => rfl).symm
  have habstracts : seen.symbols.abstractTypes = s₅.symbols.abstractTypes :=
    calc seen.symbols.abstractTypes
        = s₁.symbols.abstractTypes := part_of_forEach abstractTypes hseen
            (preserves_recordType fun _ _ _ _ => rfl) fun _ _ => rfl
      _ = s₂.symbols.abstractTypes := (part_of_forEach abstractTypes h.types
            (preserves_recordType fun _ _ _ _ => rfl) fun _ _ => rfl).symm
      _ = s₅.symbols.abstractTypes := (h.part_eq abstractTypes (fun _ _ _ => rfl)
            (fun _ _ _ => rfl) fun _ _ => rfl).symm
  refine ⟨seen.symbols, ⟨before, after, s₁, seen, hsplit, h.abstracts, hseen, rfl⟩, habstracts, ?_⟩
  rcases ((leadsTo_recordType node).guarded mode fun _ _ hs => hs).of_run hnode with
    hsame | ⟨d', hname', hpublic, hinsert⟩
  · rw [hsame, hfree] at hfind'
    cases hfind'
  · have hjava : d'.javaName = javaName := by
      rw [hname'] at hname
      simpa using hname
    rw [hinsert, hjava, find?_insert_self] at hfind'
    cases hfind'
    exact hpublic

lemma exists_superclass_of_typeIsPublic {c : TypeContext} (hkind : node.kind = .classDeclaration)
    (h : typeIsPublic c node = .ok isPublic) :
    ∃ superclass, superclassOf c node = .ok superclass
      ∧ isPublic = (node.modifiers.isPublic || c.symbols.isAbstractType superclass) := by
  unfold typeIsPublic at h
  rw [hkind] at h
  obtain ⟨superclass, hsuper, hlast⟩ := Outcome.exists_of_bind h
  refine ⟨superclass, hsuper, ?_⟩
  cases hbelow : c.symbols.isAbstractType superclass with
  | true =>
    rw [hbelow] at hlast
    rw [← Except.ok.inj hlast, Bool.or_true]
  | false =>
    rw [hbelow] at hlast
    rw [← Except.ok.inj hlast, Bool.or_false]

end

variable {c : AnalysisContext}

/-- Constructors are filed only under the Go types that have a constructor or are records. -/
def FiledForTypes (c : AnalysisContext) (s : Symbols) : Prop :=
  ∀ goType ∈ s.constructors.keys,
    ∃ javaName, c.unit.root.HasConstructor javaName ∧ (c.outer s).mapName javaName = goType

lemma mapName_outer_congr {s s' : Symbols} (h : s'.declaredTypes = s.declaredTypes)
    (name : String) : (c.outer s').mapName name = (c.outer s).mapName name := by
  have halong : Alongside True (c.outer s) (c.outer s') :=
    .of_find? rfl rfl fun name => congrArg (find? · name) h
  exact (halong.names trivial name).symm

lemma FiledForTypes.insert {s s' : Symbols} (h : FiledForTypes c s) {javaName : String}
    (howner : c.unit.root.HasConstructor javaName) {overloads : List Overload}
    (hinsert : s'.constructors = s.constructors.insert ((c.outer s).mapName javaName) overloads)
    (hsame : s'.declaredTypes = s.declaredTypes) : FiledForTypes c s' := by
  intro goType hgo
  rw [hinsert, mem_keys_insert] at hgo
  rcases hgo with hgo | rfl
  · obtain ⟨name, hname, hmap⟩ := h goType hgo
    exact ⟨name, hname, (mapName_outer_congr hsame name).trans hmap⟩
  · exact ⟨javaName, howner, mapName_outer_congr hsame javaName⟩

lemma filedForTypes_recordConstructor
    (hn : n ∈ c.unit.root.declarationsOf .constructorDeclaration) (hs : FiledForTypes c s.symbols) :
    LeadsTo c s (FiledForTypes c) (recordConstructor n) :=
  Ends.leadsTo (ends_recordConstructor (fun _ _ => hs) fun _ _ _ _ _ _ _ _ howner hname _ _ =>
    hs.insert (.declared hn howner (Node.requireText_name_iff.1 hname)) rfl rfl)

lemma filedForTypes_recordCanonicalConstructor
    (hn : n ∈ c.unit.root.declarationsOf .recordDeclaration) (hs : FiledForTypes c s.symbols) :
    LeadsTo c s (FiledForTypes c) (recordCanonicalConstructor n) :=
  Ends.leadsTo (ends_recordCanonicalConstructor (fun _ _ => hs) fun _ _ _ _ _ _ _ hname _ _ =>
    hs.insert (.record hn (Node.requireText_name_iff.1 hname)) rfl rfl)

end Analysis

variable {mode : Mode} {unit : CompilationUnit} {findings : Findings}
variable (h : analyze mode unit [] {} = (.ok (), findings))
include h

lemma constructorOverloads_eq_nil (hnone : ∀ javaName, unit.root.HasConstructor javaName →
      TypeContext.mapName ⟨unit.settings, findings.symbols, []⟩ javaName ≠ goType) :
    findings.symbols.constructorOverloads goType = [] := by
  obtain ⟨s₁, s₂, s₃, s₄, s₅, hpasses, hsymbols⟩ := exists_passes_of_wholeUnit h
  have hfirst : FiledForTypes ⟨unit, []⟩ s₃.symbols := by
    intro goType hgo
    rw [hpasses.constructors_eq.1] at hgo
    cases hgo
  have hdeclared : FiledForTypes ⟨unit, []⟩ s₄.symbols :=
    LeadsTo.of_run (.forEach (fun _ _ hs => hs) (fun n hn s hs =>
      filedForTypes_recordConstructor hn hs) hfirst) hpasses.constructors
  have hrecords : FiledForTypes ⟨unit, []⟩ s₅.symbols := by
    refine LeadsTo.of_run (.forEach (fun _ _ hs => hs) (fun n hn s hs => ?_) hdeclared)
      hpasses.canonicals
    refine filedForTypes_recordCanonicalConstructor ?_ hs
    obtain ⟨htype, hkind⟩ := mem_filter.1 hn
    exact mem_filter.2 ⟨(mem_filter.1 htype).1, hkind⟩
  unfold constructorOverloads
  cases hfind : findings.symbols.constructors.find? goType with
  | none => rfl
  | some =>
    rw [hsymbols] at hfind hnone
    obtain ⟨javaName, howner, hmap⟩ := hrecords goType (mem_keys_of_find? hfind)
    exact absurd hmap (hnone javaName howner)

lemma exists_visibility_of_analyze
    (honce : (unit.root.typeDeclarations.filter fun t => t.javaName? == some javaName) = [node])
    (hkind : node.kind = .classDeclaration) {d : DeclaredType}
    (hfind : findings.symbols.declaredTypes.find? javaName = some d) :
    ∃ (seen : Symbols) (superclass : Option String),
      SeenAt mode ⟨unit, []⟩ node seen
        ∧ superclassOf ⟨unit.settings, seen, []⟩ node = .ok superclass
        ∧ d.isPublic = (node.modifiers.isPublic || findings.symbols.isAbstractType superclass) := by
  obtain ⟨s₁, s₂, s₃, s₄, s₅, hpasses, hsymbols⟩ := exists_passes_of_wholeUnit h
  rw [hsymbols] at hfind ⊢
  obtain ⟨seen, hseen, habstracts, hpublic⟩ := exists_seenAt_of_passes hpasses honce hfind
  obtain ⟨superclass, hsuper, hvisible⟩ := exists_superclass_of_typeIsPublic hkind hpublic
  refine ⟨seen, superclass, hseen, hsuper, hvisible.trans ?_⟩
  unfold isAbstractType
  rw [← habstracts]
  rfl

end JavaToGo
