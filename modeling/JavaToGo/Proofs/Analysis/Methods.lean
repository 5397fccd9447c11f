import JavaToGo.Proofs.Analysis.Modes
import JavaToGo.Proofs.Overloads.Names

/-!
# What the analysis knows about methods

Later methods may make an overload public and none takes that back, so
`MethodsFiled` holds whatever the order of the declarations is.
-/

namespace JavaToGo

open Table

namespace Symbols

section

variable (s : Symbols) (javaName : String) (types : List String) (isPublic isStatic : Bool)

lemma methodOverloads_addMethod_self :
    (s.addMethod javaName types isPublic isStatic).2.methodOverloads javaName
      = fileMethod javaName types isPublic isStatic (s.methodOverloads javaName) := by
  unfold addMethod methodOverloads
  rw [find?_insert_self]
  rfl

lemma methodOverloads_addMethod_of_ne (hne : other ≠ javaName) :
    (s.addMethod javaName types isPublic isStatic).2.methodOverloads other
      = s.methodOverloads other := by
  unfold addMethod methodOverloads
  rw [find?_insert_of_ne _ _ hne]

lemma exists_overload?_addMethod (h : overload? (s.methodOverloads other) sought = some o) :
    ∃ o', overload? ((s.addMethod javaName types isPublic isStatic).2.methodOverloads other) sought
        = some o'
      ∧ (o.isPublic = true → o'.isPublic = true)
      ∧ entryOf ((s.addMethod javaName types isPublic isStatic).2.methodOverloads other) sought
        = entryOf (s.methodOverloads other) sought := by
  by_cases hname : other = javaName
  · subst hname
    rw [methodOverloads_addMethod_self]
    obtain ⟨o', ho', hpublic⟩ :=
      Bucket.exists_overload?_fileMethod_of_some h other types isPublic isStatic
    exact ⟨o', ho', hpublic, Bucket.entryOf_fileMethod _ _ _ _ (.inr (Option.isSome_of_eq_some h))⟩
  · rw [methodOverloads_addMethod_of_ne _ _ _ _ _ hname]
    exact ⟨o, h, id, rfl⟩

end

/-- What holds of the methods and their records in every state of the analysis of a tree. -/
structure MethodsFiled (root : Node) (s : Symbols) : Prop where
  sound : ∀ javaName, Bucket.Sound javaName (s.methodOverloads javaName)
  filed : ∀ {number record}, s.methodRecords.find? number = some record →
    ∃ o, overload? (s.methodOverloads record.javaName) (paramTypes record.params) = some o
      ∧ (record.isPublic = true → o.isPublic = true)
      ∧ record.entry = entryOf (s.methodOverloads record.javaName) (paramTypes record.params)
  listed : ∀ {node : Node} {record owner}, s.methodRecords.find? node.id = some record →
    root.enclosingType? node = some owner → owner.listsMethods = true → record.isPublic = true

namespace MethodsFiled

variable {root : Node} {s s' : Symbols}

lemma empty (root : Node) : MethodsFiled root {} where
  sound := fun javaName => Bucket.sound_nil javaName
  filed := fun h => nomatch h
  listed := fun h => nomatch h

lemma congr (h : MethodsFiled root s) (hmethods : s'.methods = s.methods)
    (hrecords : s'.methodRecords = s.methodRecords) : MethodsFiled root s' := by
  have hoverloads : ∀ javaName, s'.methodOverloads javaName = s.methodOverloads javaName := by
    intro javaName
    rw [methodOverloads, methodOverloads, hmethods]
  refine ⟨?_, ?_, ?_⟩
  · intro javaName
    rw [hoverloads]
    exact h.sound javaName
  · intro number record hfind
    rw [hrecords] at hfind
    rw [hoverloads]
    exact h.filed hfind
  · intro node record owner hfind
    rw [hrecords] at hfind
    exact h.listed hfind

lemma addMethod (h : MethodsFiled root s) (javaName : String) (types : List String)
    (isPublic isStatic : Bool) :
    MethodsFiled root (s.addMethod javaName types isPublic isStatic).2 := by
  refine ⟨?_, ?_, fun hfind => h.listed hfind⟩
  · intro other
    by_cases hname : other = javaName
    · subst hname
      rw [methodOverloads_addMethod_self]
      exact (h.sound other).fileMethod types isPublic isStatic
    · rw [methodOverloads_addMethod_of_ne _ _ _ _ _ hname]
      exact h.sound other
  · intro number record hfind
    obtain ⟨o, ho, hpublic, hentry⟩ := h.filed hfind
    obtain ⟨o', ho', hpublic', hentry'⟩ :=
      s.exists_overload?_addMethod javaName types isPublic isStatic ho
    exact ⟨o', ho', fun hrecord => hpublic' (hpublic hrecord), hentry.trans hentry'.symm⟩

lemma withMethod (h : MethodsFiled root s) {record : MethodRecord}
    (hpublic : ∀ owner, root.enclosingType? node = some owner → owner.listsMethods = true →
      record.isPublic = true) : MethodsFiled root (s.withMethod node record) := by
  have hadded := h.addMethod record.javaName (paramTypes record.params) record.isPublic
    record.isStatic
  refine ⟨hadded.sound, ?_, ?_⟩
  · intro number found hfind
    by_cases hnumber : number = node.id
    · subst hnumber
      obtain rfl : _ = found := by simpa [Symbols.withMethod] using hfind
      have hbucket : (s.withMethod node record).methodOverloads record.javaName = _ :=
        methodOverloads_addMethod_self s record.javaName (paramTypes record.params)
          record.isPublic record.isStatic
      dsimp only
      rw [hbucket]
      obtain ⟨o, ho, hvisible⟩ := Bucket.exists_overload?_fileMethod_self record.isPublic
        record.javaName (paramTypes record.params) record.isStatic
        (s.methodOverloads record.javaName)
      exact ⟨o, ho, hvisible, (Bucket.entryOf_fileMethod _ _ _ _ (.inl rfl)).symm⟩
    · have hother : (s.methodRecords.insert node.id _).find? number = some found := hfind
      rw [find?_insert_of_ne _ _ hnumber] at hother
      exact hadded.filed hother
  · intro other found owner hfind howner hlists
    have hinserted : (s.methodRecords.insert node.id _).find? other.id = some found := hfind
    by_cases hnumber : other.id = node.id
    · rw [hnumber] at hinserted
      obtain rfl : _ = found := by simpa using hinserted
      -- The owner of a node depends on the number of the node alone.
      rw [Tree.Node.enclosingType?, hnumber] at howner
      exact hpublic owner howner hlists
    · rw [find?_insert_of_ne _ _ hnumber] at hinserted
      exact h.listed hinserted howner hlists

lemma update (hupdate : Analysis.Update root f f') (h : MethodsFiled root f.symbols) :
    MethodsFiled root f'.symbols := by
  cases hupdate with
  | other hmethods hrecords => exact h.congr hmethods hrecords
  | filed javaName types isPublic isStatic => exact h.addMethod javaName types isPublic isStatic
  | recorded _ _ _ _ _ _ hpublic => exact h.withMethod hpublic
  | refused => exact h.congr rfl rfl
  | counted => exact h

section

variable (h : MethodsFiled root s) {number : Nat} {record : MethodRecord}
variable (hrecord : s.methodRecords.find? number = some record)
include h hrecord

lemma overload?_eq_methodOverload :
    overload? (s.methodOverloads record.javaName) (paramTypes record.params)
        = some (s.methodOverload record)
      ∧ (record.isPublic = true → (s.methodOverload record).isPublic = true) := by
  obtain ⟨o, ho, hpublic, hentry⟩ := h.filed hrecord
  have heq : s.methodOverload record = o := by
    rw [methodOverload, hentry, Bucket.getElem?_entryOf, ho]
    rfl
  rw [heq]
  exact ⟨ho, hpublic⟩

lemma getElem?_entry :
    (s.methodOverloads record.javaName)[record.entry]? = some (s.methodOverload record) := by
  obtain ⟨o, -, -, hentry⟩ := h.filed hrecord
  rw [hentry, Bucket.getElem?_entryOf, (h.overload?_eq_methodOverload hrecord).1]

/-- No overload but the one that the record refers to has its argument types. -/
lemma eq_entry (ho : (s.methodOverloads record.javaName)[i]? = some o)
    (htypes : o.argumentTypes = paramTypes record.params) : i = record.entry := by
  obtain ⟨-, -, -, hentry⟩ := h.filed hrecord
  rw [hentry, ← htypes]
  exact Bucket.eq_entryOf_of_nodup (h.sound record.javaName).types ho

lemma methodOverload_mem : s.methodOverload record ∈ s.methodOverloads record.javaName :=
  Bucket.mem_of_overload? (h.overload?_eq_methodOverload hrecord).1

lemma argumentTypes_methodOverload :
    (s.methodOverload record).argumentTypes = paramTypes record.params :=
  overload?_argumentTypes (h.overload?_eq_methodOverload hrecord).1

end

/-- Methods with the same Java name and parameter types refer to one overload. -/
lemma shares (h : MethodsFiled root s) (hr : s.methodRecords.find? number = some r)
    (hr' : s.methodRecords.find? number' = some r') (hname : r.javaName = r'.javaName)
    (htypes : paramTypes r.params = paramTypes r'.params) :
    r'.entry = r.entry ∧ s.methodOverload r' = s.methodOverload r := by
  have hsecond := h.getElem?_entry hr'
  rw [← hname] at hsecond
  have hentry : r'.entry = r.entry :=
    h.eq_entry hr hsecond ((h.argumentTypes_methodOverload hr').trans htypes.symm)
  rw [hentry, h.getElem?_entry hr] at hsecond
  exact ⟨hentry, (Option.some.inj hsecond).symm⟩

lemma visible_ne (h : MethodsFiled root s) (hr : s.methodRecords.find? number = some r)
    (hr' : s.methodRecords.find? number' = some r') (hname : r.javaName = r'.javaName)
    (htypes : paramTypes r.params ≠ paramTypes r'.params) (p q : Bool) :
    Code.withVisibility (s.methodName r) p ≠ Code.withVisibility (s.methodName r') q := by
  have hmem := h.methodOverload_mem hr
  have hmem' := h.methodOverload_mem hr'
  rw [← hname] at hmem'
  refine (h.sound r.javaName).visible_ne hmem hmem' ?_ p q
  rw [h.argumentTypes_methodOverload hr, h.argumentTypes_methodOverload hr']
  exact htypes

end MethodsFiled

end Symbols

lemma methodsFiled_analyze (mode : Mode) (unit : CompilationUnit) (typeParams : List Scope) :
    (analyze mode unit typeParams {}).2.symbols.MethodsFiled unit.root :=
  (reaches_analyze mode unit typeParams {}).induct (I := fun f => f.symbols.MethodsFiled unit.root)
    (fun _ _ hupdate h => h.update hupdate) (Symbols.MethodsFiled.empty unit.root)

end JavaToGo
