import JavaToGo.Proofs.Declaration.ClassMembers

/-!
# The methods that a class writes
-/

namespace JavaToGo

open Code (Param)
open List Draft Lower

/-- The name under which a class writes a method; `exports` makes it public. -/
def Symbols.emittedName (s : Symbols) (exports : Bool) (record : MethodRecord) : String :=
  Code.withVisibility (s.methodName record) ((s.methodOverload record).isPublic || exports)

namespace Build

variable {declared : List MethodKey} {records : List MethodRecord} {record : MethodRecord}

/-- The records whose keys have not come before. -/
def takenOver (declared : List MethodKey) : List MethodRecord → List MethodRecord
  | [] => []
  | record :: records =>
    if declared.contains (methodKey record) then takenOver declared records
    else record :: takenOver (declared ++ [methodKey record]) records

lemma takenOver_append (declared : List MethodKey) (records more : List MethodRecord) :
    takenOver declared (records ++ more)
      = takenOver declared records
        ++ takenOver (declared ++ (takenOver declared records).map methodKey) more := by
  induction records generalizing declared with
  | nil => simp [takenOver]
  | cons record records ih =>
    rw [cons_append, takenOver, takenOver]
    split
    · exact ih declared
    · simp [ih]

lemma takenOver_sublist (declared : List MethodKey) (records : List MethodRecord) :
    (takenOver declared records).Sublist records := by
  induction records generalizing declared with
  | nil => exact .slnil
  | cons record records ih =>
    rw [takenOver]
    split
    · exact (ih declared).cons record
    · exact (ih _).cons_cons record

lemma nodup_takenOver (hdeclared : declared.Nodup) (records : List MethodRecord) :
    (declared ++ (takenOver declared records).map methodKey).Nodup := by
  induction records generalizing declared with
  | nil => simpa [takenOver] using hdeclared
  | cons record records ih =>
    rw [takenOver]
    split
    · exact ih hdeclared
    · next hnew =>
        have hmore : (declared ++ [methodKey record]).Nodup := by
          refine nodup_append.2 ⟨hdeclared, by simp, ?_⟩
          rintro key hkey other hother rfl
          exact hnew (contains_iff_mem.2 (mem_singleton.1 hother ▸ hkey))
        have hall := ih hmore
        rwa [append_assoc] at hall

lemma mem_keys_takenOver (hrecord : record ∈ records) :
    methodKey record ∈ declared ++ (takenOver declared records).map methodKey := by
  induction records generalizing declared with
  | nil => cases hrecord
  | cons first records ih =>
    rw [takenOver]
    split
    · next hold =>
        rcases mem_cons.1 hrecord with rfl | hrecord
        · exact mem_append_left _ (contains_iff_mem.1 hold)
        · exact ih hrecord
    · rcases mem_cons.1 hrecord with rfl | hrecord
      · exact mem_append_right _ mem_cons_self
      · have hlater : methodKey record ∈ declared ++ [methodKey first] ++ _ := ih hrecord
        rwa [append_assoc] at hlater

variable {exports : Bool}

section

variable {c : Context} {receiverType : String}

/-- These functions are the methods of these records, in order. -/
structure Written (s : Symbols) (exports : Bool) (receiverType : String)
    (records : List MethodRecord) (own : List Code.Function) : Prop where
  names : own.map Code.Function.name = records.map (s.emittedName exports)
  receivers : ∀ f ∈ own, f.receiver.map Param.type = some receiverType

structure WrittenAs (s : Symbols) (exports : Bool) (receiverType : String) (record : MethodRecord)
    (f : Code.Function) : Prop where
  name : f.name = s.emittedName exports record
  receiver : f.receiver.map Param.type = some receiverType
  params : f.params = record.params

variable {s : Symbols} {own : List Code.Function}

section

variable (h : List.Forall₂ (WrittenAs s exports receiverType) records own)
include h

lemma written_of_forall₂ : Written s exports receiverType records own := by
  induction h with
  | nil => exact ⟨rfl, by simp⟩
  | cons hfirst _ ih =>
    refine ⟨?_, forall_mem_cons.2 ⟨hfirst.receiver, ih.receivers⟩⟩
    rw [map_cons, map_cons, hfirst.name, ih.names]

lemma exists_writtenAs
    (hrecord : record ∈ records) : ∃ f ∈ own, WrittenAs s exports receiverType record f := by
  induction h with
  | nil => cases hrecord
  | cons hfirst _ ih =>
    rcases mem_cons.1 hrecord with rfl | hrecord
    · exact ⟨_, mem_cons_self, hfirst⟩
    · obtain ⟨f, hf, hwritten⟩ := ih hrecord
      exact ⟨f, mem_cons_of_mem _ hf, hwritten⟩

end

lemma eq_of_methodNumbered (h : (methodNumbered number).runAt .tolerant c d = (.ok found, d')) :
    d' = d ∧ c.symbols.methodRecords.find? number = some found.1
      ∧ found.2 = c.symbols.methodName found.1 := by
  obtain ⟨c', d₁, ⟨⟩, hfound⟩ := exists_of_bind h
  cases hnode : c.unit.root.find? number with
  | none =>
    rw [hnode] at hfound
    cases hfound
  | some =>
    rw [hnode] at hfound
    obtain ⟨record, d₂, hrecord, ⟨⟩⟩ := exists_of_bind hfound
    obtain ⟨hrequire, rfl⟩ := runAt_lift_eq_ok.1 hrecord
    have hfind := Symbols.find?_of_recorded hrequire
    rw [Tree.Node.id_of_find? hnode] at hfind
    exact ⟨rfl, hfind, rfl⟩

/-- What is made of an inherited method has its name and its parameters, and the receiver. -/
structure Wraps (receiverType : String) (make : String → MethodRecord → Code.Function) : Prop where
  receiver : ∀ name record, (make name record).receiver.map Param.type = some receiverType
  name : ∀ name record, (make name record).name = name
  params : ∀ name record, (make name record).params = record.params

lemma wraps_delegation (shape : ClassShape) (self holder : String) :
    Wraps ("*" ++ shape.structType) (delegation shape self holder) :=
  ⟨fun _ _ => rfl, fun _ _ => rfl, fun _ _ => rfl⟩

lemma wraps_missingMethod (shape : ClassShape) (self : String) :
    Wraps ("*" ++ shape.structType) (missingMethod shape self) :=
  ⟨fun _ _ => rfl, fun _ _ => rfl, fun _ _ => rfl⟩

lemma addFunction_of_receiver {f : Code.Function}
    (h : f.receiver.map Param.type = some receiverType) :
    addFunction f = putAll .methods [.function f] := by
  unfold addFunction
  cases hreceiver : f.receiver with
  | none =>
    rw [hreceiver] at h
    cases h
  | some => rfl

/-- What a class takes over for the methods with the given numbers, each of which has a record. -/
structure TakesOver (c : Context) (receiverType : String) (declared : List MethodKey)
    (numbers : List Nat) (own : List Code.Function) : Prop where
  recorded : ∀ number ∈ numbers, ∃ record, c.symbols.methodRecords.find? number = some record
  written : List.Forall₂ (WrittenAs c.symbols true receiverType)
    (takenOver declared (numbers.filterMap c.symbols.methodRecords.find?)) own

lemma TakesOver.append (h : TakesOver c receiverType declared numbers own)
    (h' : TakesOver c receiverType (declared ++ (takenOver declared
      (numbers.filterMap c.symbols.methodRecords.find?)).map methodKey) more own') :
    TakesOver c receiverType declared (numbers ++ more) (own ++ own') where
  recorded := forall_mem_append.2 ⟨h.recorded, h'.recorded⟩
  written := by
    rw [filterMap_append, takenOver_append]
    exact rel_append h.written h'.written

lemma exists_of_addInherited {make : String → MethodRecord → Code.Function}
    (hmake : Wraps receiverType make)
    (h : (addInherited make declared numbers).runAt .tolerant c d = (.ok declared', d')) :
    declared' = declared
        ++ (takenOver declared (numbers.filterMap c.symbols.methodRecords.find?)).map methodKey
      ∧ ∃ own, TakesOver c receiverType declared numbers own
        ∧ d'.standing .methods = d.standing .methods ++ own.map .function := by
  induction numbers generalizing declared d with
  | nil =>
    cases h
    exact ⟨by simp [takenOver], [], ⟨by simp, .nil⟩, by simp⟩
  | cons number numbers ih =>
    obtain ⟨⟨record, name⟩, d₁, hfound, hnext⟩ := exists_of_bind h
    obtain ⟨rfl, hfind, hname⟩ := eq_of_methodNumbered hfound
    dsimp only at hfind hname hnext
    subst hname
    rw [filterMap_cons_some hfind, takenOver]
    by_cases hdeclared : methodKey record ∈ declared
    · rw [if_pos hdeclared] at hnext
      rw [if_pos (contains_iff_mem.2 hdeclared)]
      obtain ⟨hkeys, own, htakes, hstanding⟩ := ih hnext
      refine ⟨hkeys, own, ⟨forall_mem_cons.2 ⟨⟨record, hfind⟩, htakes.recorded⟩, ?_⟩, hstanding⟩
      rw [filterMap_cons_some hfind, takenOver, if_pos (contains_iff_mem.2 hdeclared)]
      exact htakes.written
    · rw [if_neg hdeclared] at hnext
      rw [if_neg (mt contains_iff_mem.1 hdeclared)]
      obtain ⟨u, d₂, hadded, hrest⟩ := exists_of_bind hnext
      rw [addFunction_of_receiver (hmake.receiver _ _)] at hadded
      cases hadded
      obtain ⟨hkeys, own, htakes, hstanding⟩ := ih hrest
      refine ⟨by rw [hkeys]; simp, make (Code.exported (c.symbols.methodName record)) record :: own,
        ⟨forall_mem_cons.2 ⟨⟨record, hfind⟩, htakes.recorded⟩, ?_⟩, ?_⟩
      · rw [filterMap_cons_some hfind, takenOver, if_neg (mt contains_iff_mem.1 hdeclared)]
        refine .cons ⟨?_, hmake.receiver _ _, hmake.params _ _⟩ htakes.written
        rw [hmake.name, Symbols.emittedName, Bool.or_true]
        rfl
      · rw [hstanding, standing_add_eq_append]
        simp

/-- The numbers of the methods that shapes hold. -/
def passedNumbers (layouts : List Layout) : List Nat :=
  layouts.flatMap fun layout => layout.defaultMethods ++ layout.abstractMethods

lemma exists_of_addAncestry
    (h : (addAncestry shape self declared layouts).runAt .tolerant c d = (.ok u, d')) :
    ∃ own, TakesOver c ("*" ++ shape.structType) declared (passedNumbers layouts) own
      ∧ d'.standing .methods = d.standing .methods ++ own.map .function := by
  induction layouts generalizing declared d with
  | nil =>
    cases h
    exact ⟨[], ⟨by simp [passedNumbers], .nil⟩, by simp⟩
  | cons layout layouts ih =>
    simp only [addAncestry, runAt_bind_eq_ok] at h
    obtain ⟨declared₁, d₁, hdefault, declared₂, d₂, habstract, hrest⟩ := h
    obtain ⟨rfl, own₁, htakes₁, hstanding₁⟩ :=
      exists_of_addInherited (wraps_delegation shape self _) hdefault
    obtain ⟨rfl, own₂, htakes₂, hstanding₂⟩ :=
      exists_of_addInherited (wraps_missingMethod shape self) habstract
    obtain ⟨own₃, htakes₃, hstanding₃⟩ := ih hrest
    refine ⟨own₁ ++ (own₂ ++ own₃), ?_, ?_⟩
    · rw [passedNumbers, flatMap_cons, append_assoc]
      exact htakes₁.append (htakes₂.append htakes₃)
    · rw [hstanding₃, hstanding₂, hstanding₁]
      simp

def methodRecordsOf (s : Symbols) (node : Node) : List MethodRecord :=
  node.bodyMembers.filterMap fun m =>
    if m.kind = .methodDeclaration then s.methodRecords.find? m.id else none

lemma filterMap_of_mapM_requireMethod {members : List Node}
    (h : (members.filter fun m => m.kind == .methodDeclaration).mapM s.requireMethod
      = .ok records) :
    (members.filterMap fun m =>
      if m.kind = .methodDeclaration then s.methodRecords.find? m.id else none) = records := by
  induction members generalizing records with
  | nil =>
    cases h
    rfl
  | cons m members ih =>
    by_cases hkind : m.kind = .methodDeclaration
    · rw [filter_cons_of_pos (by simp [hkind])] at h
      simp only [mapM_cons, Outcome.bind_eq_ok] at h
      obtain ⟨record, hrecord, rest, hrest, ⟨⟩⟩ := h
      rw [filterMap_cons, if_pos hkind, Symbols.find?_of_recorded hrecord, ih hrest]
    · rw [filter_cons_of_neg (by simp [hkind])] at h
      rw [filterMap_cons, if_neg hkind, ih h]

lemma exists_of_completeAbstract (h : (completeAbstract shape).runAt .tolerant c d = (.ok u, d')) :
    ∃ own, TakesOver c ("*" ++ shape.structType)
        ((methodRecordsOf c.symbols shape.node).map methodKey) (passedNumbers shape.ancestry) own
      ∧ d'.standing .methods = d.standing .methods ++ own.map .function := by
  simp only [completeAbstract, declaredMethods, runAt_bind_eq_ok, runAt_lift_eq_ok] at h
  obtain ⟨self, d₁, ⟨-, rfl⟩, _, d₂, ⟨c', d₃, ⟨⟩, records, d₄, ⟨hall, rfl⟩, ⟨⟩⟩, v, d₅, hancestry,
    hcheck⟩ := h
  obtain ⟨own, htakes, hstanding⟩ := exists_of_addAncestry hancestry
  rw [methodRecordsOf, filterMap_of_mapM_requireMethod hall]
  refine ⟨own, htakes, ?_⟩
  rw [← hstanding]
  split at hcheck
  · cases hcheck
    rw [standing_add, if_neg (by decide)]
  · cases hcheck
    rfl

end

variable {node : Node}

section

variable {c : Context}

lemma exists_of_addMethod {x : Lower Code.Function} {inner : Context}
    (hx : ∀ t, x.runAt c t = (method node r (some param) exports).runAt inner t)
    (hsymbols : inner.symbols = c.symbols)
    (hrecord : c.symbols.methodRecords.find? node.id = some record)
    (hinstance : record.isStatic = false)
    (h : (lower x >>= addFunction).runAt .tolerant c d = (.ok u, d')) :
    ∃ f, WrittenAs c.symbols exports param.type record f
      ∧ d'.standing .methods = d.standing .methods ++ [.function f] := by
  obtain ⟨f, t, hrun, rfl⟩ := exists_of_addLowered h
  rw [hx] at hrun
  rw [← hsymbols] at hrecord ⊢
  obtain ⟨hparams, hreceiver⟩ := instance_of_method hrecord hinstance hrun
  refine ⟨f, ⟨name_of_method hrecord hrun, by simp [hreceiver], hparams⟩, ?_⟩
  rw [hreceiver, standing_add_eq_append, standing_withTrail]
  rfl

lemma exists_perm_of_members {receiverType : String} {pick : Node → Option MethodRecord}
    {calls : List Call} (h : ∀ call ∈ calls, ∀ record, pick call.node = some record →
      ∃ f, WrittenAs c.symbols exports receiverType record f
        ∧ call.added c .methods = [.function f]) :
    ∃ own rest, List.Forall₂ (WrittenAs c.symbols exports receiverType)
        ((calls.map Call.node).filterMap pick) own
      ∧ (calls.flatMap (Call.added c · .methods)).Perm (own.map .function ++ rest) := by
  induction calls with
  | nil => exact ⟨[], [], .nil, .refl _⟩
  | cons call calls ih =>
    obtain ⟨hfirst, hcalls⟩ := forall_mem_cons.1 h
    obtain ⟨own, rest, hwritten, hperm⟩ := ih hcalls
    rw [map_cons, flatMap_cons]
    cases hpick : pick call.node with
    | none =>
      refine ⟨own, call.added c .methods ++ rest, ?_, ?_⟩
      · rwa [filterMap_cons_none hpick]
      · exact (hperm.append_left _).trans (perm_append_comm_assoc _ _ _)
    | some record =>
      obtain ⟨f, hf, hadded⟩ := hfirst record hpick
      refine ⟨f :: own, rest, ?_, ?_⟩
      · rw [filterMap_cons_some hpick]
        exact .cons hf hwritten
      · rw [hadded]
        exact hperm.cons _

end

variable {call : Call}

section

variable {go : Node → Build Unit} {shape : ClassShape}

lemma filterMap_instanceRecord (s : Symbols) (node : Node) :
    (node.bodyMembers.filter fun m => !isFieldMember m).filterMap (instanceRecord s)
      = (methodRecordsOf s node).filter fun record => !record.isStatic := by
  rw [methodRecordsOf, filterMap_filter, filter_filterMap]
  congr 1
  funext m
  unfold instanceRecord
  by_cases hkind : m.kind = .methodDeclaration
  · have hother : (!isFieldMember m) = true := by simp [isFieldMember, hkind]
    rw [if_pos hother, if_pos hkind, if_pos hkind]
  · simp [hkind]

lemma exists_added_of_classMember
    (hbody : call.body = ⟨Unit, classMember go shape fields call.node⟩)
    (hreturned : call.Returned c) (hrecord : instanceRecord c.symbols call.node = some record) :
    ∃ f, WrittenAs c.symbols shape.extendsAbstract ("*" ++ shape.structType) record f
      ∧ call.added c .methods = [.function f] := by
  obtain ⟨hkind, hfind, hinstance⟩ := instanceRecord_eq_some_iff.1 hrecord
  obtain ⟨u, d', hrun, hafter⟩ := hreturned.exists_run hbody
  simp only [classMember, hkind] at hrun
  obtain ⟨self, d₁, hself, hfrom₁⟩ := exists_of_bind hrun
  obtain ⟨-, rfl⟩ := runAt_lift_eq_ok.1 hself
  -- The symbols are the same with the type parameters of the class in view.
  let inner : Context := { c with typeParams := shape.typeParams :: c.typeParams }
  have hinner : ∀ t, (withTypeParams shape.typeParams (method call.node
      (shape.receiver self fields) (some (shape.receiverParam self))
        shape.extendsAbstract)).runAt c t = (method call.node _ _ _).runAt inner t :=
    fun _ => rfl
  obtain ⟨f, hwritten, hstanding⟩ := exists_of_addMethod hinner rfl hfind hinstance hfrom₁
  refine ⟨f, hwritten, Call.added_eq ?_⟩
  rw [hafter, hstanding, standing_openMember]

lemma exists_added_of_base {d d' : Draft} {calls : List Call}
    (h : Completes c node (baseBodies shape) d calls d')
    (hreturned : ∀ call ∈ calls, call.Returned c) :
    ∃ own, (∀ number ∈ passedNumbers shape.ancestry,
        ∃ record, c.symbols.methodRecords.find? number = some record)
      ∧ List.Forall₂ (WrittenAs c.symbols shape.extendsAbstract ("*" ++ shape.structType))
        (takenOver ((methodRecordsOf c.symbols shape.node).map methodKey)
          (passedRecords c.symbols shape.ancestry)) own
      ∧ calls.flatMap (Call.added c · .methods) = own.map .function := by
  have hbodies := h.bodies
  unfold baseBodies at hbodies
  cases hextends : shape.extendsAbstract with
  | false =>
    rw [hextends, if_neg Bool.false_ne_true, map_eq_nil_iff] at hbodies
    have hnone : shape.ancestry = [] := by simpa [ClassShape.extendsAbstract] using hextends
    rw [hbodies, hnone]
    exact ⟨[], by simp [passedNumbers], .nil, rfl⟩
  | true =>
    rw [hextends] at hbodies
    obtain ⟨call, rfl, hbody⟩ := map_eq_singleton_iff.1 hbodies
    obtain ⟨u, d₁, hrun, hafter⟩ := (hreturned call mem_cons_self).exists_run hbody
    obtain ⟨own, htakes, hstanding⟩ := exists_of_completeAbstract hrun
    refine ⟨own, htakes.recorded, htakes.written, ?_⟩
    rw [flatMap_singleton]
    refine Call.added_eq ?_
    rw [hafter, hstanding, standing_openMember]

lemma perm_of_parts {α : Type} {before members after own rest base : List α}
    (h : members.Perm (own ++ rest)) :
    (before ++ members ++ (after ++ base)).Perm (own ++ base ++ (before ++ rest ++ after)) := by
  have hfirst : (before ++ members).Perm (own ++ (before ++ rest)) :=
    (h.append_left before).trans (perm_append_comm_assoc _ _ _)
  refine (hfirst.append perm_append_comm).trans ?_
  rw [append_assoc, append_assoc own]
  exact (perm_append_comm_assoc _ _ _).append_left own

/-- The methods of a class that are not static, and those that it takes over. -/
def writtenRecords (s : Symbols) (shape : ClassShape) : List MethodRecord :=
  ((methodRecordsOf s shape.node).filter fun record => !record.isStatic)
    ++ takenOver ((methodRecordsOf s shape.node).map methodKey) (passedRecords s shape.ancestry)

lemma exists_find?_of_mem_writtenRecords (h : record ∈ writtenRecords s shape) :
    ∃ number, s.methodRecords.find? number = some record := by
  rcases mem_append.1 h with hown | htaken
  · obtain ⟨m, -, hm⟩ := mem_filterMap.1 (mem_filter.1 hown).1
    split at hm
    · exact ⟨m.id, hm⟩
    · cases hm
  · obtain ⟨number, -, hnumber⟩ := mem_filterMap.1 ((takenOver_sublist _ _).subset htaken)
    exact ⟨number, hnumber⟩

lemma exists_perm_of_concreteClass (hgo : ConvertsTypes (.free c) go)
    (hbody : call.body = ⟨Unit, concreteClass go call.node⟩)
    (hshape : ClassShape.ofNode c.toTypeContext call.node = .ok shape) (hreturned : call.Returned c)
    (hown : ∀ k ∈ call.own c, k.Returned c) :
    ∃ own rest, (∀ number ∈ passedNumbers shape.ancestry,
        ∃ record, c.symbols.methodRecords.find? number = some record)
      ∧ List.Forall₂ (WrittenAs c.symbols shape.extendsAbstract ("*" ++ shape.structType))
        (writtenRecords c.symbols shape) own
      ∧ (call.added c .methods).Perm (own.map .function ++ rest) := by
  obtain ⟨u, d', hrun, hafter⟩ := hreturned.exists_run hbody
  obtain ⟨fields, d₁, d₂, d₃, d₄, fieldCalls, memberCalls, constructorCalls, baseCalls, parts⟩ :=
    exists_classParts hrun hshape
  rw [Call.own_of_body hbody, parts.own] at hown
  have hadded : call.added c .methods
      = (fieldCalls ++ memberCalls ++ (constructorCalls ++ baseCalls)).flatMap
        (Call.added c · .methods) := by
    refine Call.added_eq ?_
    rw [hafter, parts.standing_all hgo (by decide) (by decide), standing_openMember]
  obtain ⟨own, rest, hwritten, hperm⟩ := exists_perm_of_members fun k hk record hrecord =>
    exists_added_of_classMember (Converts.body_of_mem parts.memberConverts hk)
      (hown k (by simp [hk])) hrecord
  obtain ⟨inherited, hrecorded, hinherited, hbase⟩ := exists_added_of_base parts.base fun k hk =>
    hown k (by simp [hk])
  rw [Converts.map_node parts.memberConverts, filterMap_instanceRecord,
    ← (eq_of_ofNode hshape).1] at hwritten
  refine ⟨own ++ inherited, fieldCalls.flatMap (Call.added c · .methods) ++ rest
    ++ constructorCalls.flatMap (Call.added c · .methods), hrecorded,
    rel_append hwritten hinherited, ?_⟩
  rw [hadded, flatMap_append, flatMap_append, flatMap_append, hbase, map_append]
  exact perm_of_parts hperm

end

def Held.typePlaces : Held :=
  fun g _ => g = .interfaces ∨ g = .types

lemma not_typePlaces_methods (p : Place) : ¬ Held.typePlaces .methods p := by
  rintro (h | h) <;> cases h

variable {c : Context} {go : Node → Build Unit} {shape : AbstractShape} {d d' : Draft}
variable {places : AbstractPlaces} {interfaces : List String}

section

variable (hbody : call.body = ⟨Unit, abstractMember go shape places call.node⟩)
include hbody

lemma exists_of_listed
    (hreturned : call.Returned c) (hrecord : instanceRecord c.symbols call.node = some record) :
    ∃ d', (addDefaultBody shape call.node).runAt .tolerant c
        (call.before.openMember.grow .interfaces places.interface
          (withSpec (listedSpec c record))) = (.ok (), d')
      ∧ ∀ g, (call.after c).standing g = d'.standing g := by
  obtain ⟨hkind, hfind, hinstance⟩ := instanceRecord_eq_some_iff.1 hrecord
  obtain ⟨u, d', hrun, hafter⟩ := hreturned.exists_run hbody
  refine ⟨d', ?_, hafter⟩
  exact (abstractMember_iff
    (R := fun x => x.runAt .tolerant c call.before.openMember = (.ok (), d')) (fun _ => Iff.rfl)
    hkind (Symbols.requireMethod_of_find? hfind) hinstance).1 hrun

lemma exists_added_of_abstractMember
    (hreturned : call.Returned c) (hrecord : defaultRecord c.symbols call.node = some record) :
    ∃ f, WrittenAs c.symbols true ("*" ++ shape.part "Methods") record f
      ∧ call.added c .methods = [.function f] := by
  unfold defaultRecord at hrecord
  split at hrecord
  · cases hrecord
  · next hdefault =>
      obtain ⟨-, hfind, hinstance⟩ := instanceRecord_eq_some_iff.1 hrecord
      obtain ⟨d', hrun, hafter⟩ := exists_of_listed hbody hreturned hrecord
      rw [addDefaultBody, if_neg hdefault] at hrun
      obtain ⟨f, hwritten, hstanding⟩ := exists_of_addMethod (fun _ => rfl) rfl hfind hinstance hrun
      refine ⟨f, hwritten, Call.added_eq ?_⟩
      rw [hafter, hstanding, standing_grow, if_neg (by decide), standing_openMember]

end

lemma still_addAbstractTypes : (addAbstractTypes shape interfaces).Still c fun _ => True :=
  .bind (.context (.bind (.put fun _ => .bind (.put fun _ => .bind (.put fun _ =>
    .bind (.put fun _ => trivial))))))

lemma methods_addAbstractTypes
    (h : (addAbstractTypes shape interfaces).runAt .tolerant c d = (.ok places, d')) :
    d'.standing .methods = d.standing .methods := by
  cases h
  simp [standing_add_eq_append]

/-- The calls of a run that converts an abstract class, and the drafts between them. -/
structure AbstractParts (c : Context) (go : Node → Build Unit) (node : Node)
    (shape : AbstractShape) (places : AbstractPlaces) (d d₁ d₂ d' : Draft)
    (fieldCalls memberCalls : List Call) : Prop where
  own : (abstractClass go node).ownCalls c d = fieldCalls ++ memberCalls
  types : ∃ interfaces, (addAbstractTypes shape interfaces).runAt .tolerant c d = (.ok places, d₁)
  fieldLinks : Call.Linked c d₁ fieldCalls d₂
  fieldConverts : List.Forall₂ (Converts (abstractField shape places))
    (node.bodyMembers.filter isFieldMember) fieldCalls
  memberLinks : Call.Linked c d₂ memberCalls d'
  memberConverts : List.Forall₂ (Converts (abstractMember go shape places))
    (node.bodyMembers.filter fun m => !isFieldMember m) memberCalls

lemma exists_abstractParts (h : (abstractClass go node).runAt .tolerant c d = (.ok (), d'))
    (hshape : AbstractShape.ofNode c.symbols node = .ok shape) :
    ∃ places d₁ d₂ fieldCalls memberCalls,
      AbstractParts c go node shape places d d₁ d₂ d' fieldCalls memberCalls := by
  unfold abstractClass at h
  rw [runAt_shaped hshape] at h
  obtain ⟨interfaces, d₂, hinterfaces, hfrom₂⟩ := exists_of_bind h
  have hlift := hinterfaces
  rw [runAt_lift] at hlift
  cases (Prod.mk.inj hlift).2
  obtain ⟨places, d₃, htypes, hfrom₃⟩ := exists_of_bind hfrom₂
  obtain ⟨fieldResults, d₄, hfields, hfrom₄⟩ := exists_of_bind hfrom₃
  obtain ⟨memberResults, d₅, hmembers, ⟨⟩⟩ := exists_of_bind hfrom₄
  obtain ⟨hfieldLinks, hfieldConverts⟩ := linked_eachMember hfields
  obtain ⟨hmemberLinks, hmemberConverts⟩ := linked_eachMember hmembers
  refine ⟨places, d₃, d₄, _, _, ?_, ⟨interfaces, htypes⟩, hfieldLinks, hfieldConverts,
    hmemberLinks, hmemberConverts⟩
  rw [abstractClass, ownCalls_shaped hshape, ownCalls_bind hinterfaces, ownCalls_bind htypes]
  rw [ownCalls_bind hfields, ownCalls_bind hmembers, still_addAbstractTypes.ownCalls_eq]
  simp

lemma AbstractParts.methods (hgo : ConvertsTypes (.free c) go)
    (parts : AbstractParts c go node shape places d d₁ d₂ d' fieldCalls memberCalls) :
    d'.standing .methods
      = d.standing .methods ++ (fieldCalls ++ memberCalls).flatMap (Call.added c · .methods) := by
  obtain ⟨interfaces, htypes⟩ := parts.types
  rw [(parts.fieldLinks.append parts.memberLinks).standing, methods_addAbstractTypes htypes]
  intro call hcall
  have hheld : call.body.2.GrowsHeld c Held.typePlaces := by
    rcases mem_append.1 hcall with hcall | hcall
    · rw [Converts.body_of_mem parts.fieldConverts hcall]
      exact (conforms_abstractField (T := .free c) (.inl rfl) (.inr rfl) call.node
        False.elim).growsHeld
    · rw [Converts.body_of_mem parts.memberConverts hcall]
      exact (conforms_abstractMember (.inl rfl) (.free c _) hgo fun _ => False.elim).growsHeld
  exact Call.standing_after hheld not_typePlaces_methods

lemma exists_perm_of_abstractClass (hgo : ConvertsTypes (.free c) go)
    (hbody : call.body = ⟨Unit, abstractClass go call.node⟩)
    (hshape : AbstractShape.ofNode c.symbols call.node = .ok shape) (hreturned : call.Returned c)
    (hown : ∀ k ∈ call.own c, k.Returned c) :
    ∃ own rest, List.Forall₂ (WrittenAs c.symbols true ("*" ++ shape.part "Methods"))
        ((call.node.bodyMembers.filter fun m => !isFieldMember m).filterMap
          (defaultRecord c.symbols)) own
      ∧ (call.added c .methods).Perm (own.map .function ++ rest) := by
  obtain ⟨u, d', hrun, hafter⟩ := hreturned.exists_run hbody
  obtain ⟨places, d₁, d₂, fieldCalls, memberCalls, parts⟩ := exists_abstractParts hrun hshape
  rw [Call.own_of_body hbody, parts.own] at hown
  obtain ⟨own, rest, hwritten, hperm⟩ := exists_perm_of_members fun k hk record hrecord =>
    exists_added_of_abstractMember (Converts.body_of_mem parts.memberConverts hk)
      (hown k (by simp [hk])) hrecord
  rw [Converts.map_node parts.memberConverts] at hwritten
  have hadded : call.added c .methods
      = (fieldCalls ++ memberCalls).flatMap (Call.added c · .methods) := by
    refine Call.added_eq ?_
    rw [hafter, parts.methods hgo, standing_openMember]
  refine ⟨own, fieldCalls.flatMap (Call.added c · .methods) ++ rest, hwritten, ?_⟩
  rw [hadded, flatMap_append]
  exact (hperm.append_left _).trans (perm_append_comm_assoc _ _ _)

end Build

end JavaToGo
