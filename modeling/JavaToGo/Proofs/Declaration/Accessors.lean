import JavaToGo.Proofs.Analysis.GoNames
import JavaToGo.Proofs.Declaration.Listings
import JavaToGo.Proofs.Declaration.Selection

/-!
# When the accessors of an abstract class are fresh

Default methods read and write fields through accessors, on the whole instance.
Accessors are named after fields and methods after methods; nothing compares the
two.
-/

namespace JavaToGo

open Code (MethodSpec Param)
open JavaToGo.Tree (Node)
open List Build Draft

def accessorNames (field : String) : List String :=
  ["Get" ++ Code.exported field, "Set" ++ Code.exported field]

/-- A getter and a setter for each field, with this receiver. -/
structure Accessors (receiverType : String) (fields : List String) (own : List Code.Function) :
    Prop where
  names : own.map Code.Function.name = fields.flatMap accessorNames
  receivers : ∀ f ∈ own, f.receiver.map Param.type = some receiverType
  getters : ∀ field ∈ fields, ∃ f ∈ own, f.name = "Get" ++ Code.exported field
    ∧ f.body = [.ret [.field (.var "b") (Code.exported field)]]

lemma Accessors.append (h : Accessors receiverType fields own)
    (h' : Accessors receiverType more own') :
    Accessors receiverType (fields ++ more) (own ++ own') := by
  refine ⟨by simp [h.names, h'.names], ?_, ?_⟩
  · intro f hf
    exact (mem_append.1 hf).elim (h.receivers f) (h'.receivers f)
  · intro field hfield
    rcases mem_append.1 hfield with hfield | hfield
    · obtain ⟨f, hf, hgetter⟩ := h.getters field hfield
      exact ⟨f, mem_append_left _ hf, hgetter⟩
    · obtain ⟨f, hf, hgetter⟩ := h'.getters field hfield
      exact ⟨f, mem_append_right _ hf, hgetter⟩

def AbstractShape.methodsStruct (s : Symbols) (shape : AbstractShape) : Code.Struct :=
  { name := shape.name ++ "Methods", fields := [⟨"Self", shape.part "", true⟩],
    embeds := shape.methodsEmbeds s, isPublic := true, typeParams := shape.typeParams }

/-- What is written for an abstract class, next to the struct of the default methods. -/
structure AbstractCode where
  data : Code.Interface
  own : Code.Interface
  base : Code.Struct
  accessors : List Code.Function
  defaults : List Code.Function

/-- What an abstract class leaves: the interface of its accessors, its own interface, which embeds
the former, the struct of its fields, its accessors and its default methods. -/
structure EmittedAbstract (s : Symbols) (node : Node) (shape : AbstractShape)
    (code : AbstractCode) : Prop where
  dataName : code.data.name = shape.name ++ "Data"
  ownName : code.own.name = shape.name
  baseName : code.base.name = shape.name ++ "Base"
  extendsData : shape.part "Data" ∈ code.own.embeds
  embeds : code.base.embeds ++ (shape.methodsStruct s).embeds = shape.layout.embeds s
  dataMethods : code.data.methods.map MethodSpec.name = node.ownFieldNames.flatMap accessorNames
  ownMethods : code.own.methods.map MethodSpec.name
    = ((Build.methodRecordsOf s node).filter fun record => !record.isStatic).map
      (s.emittedName true)
  fields : code.base.fields.map Code.Field.name = node.ownFieldNames.map Code.exported
  reads : Accessors ("*" ++ shape.part "Base") node.ownFieldNames code.accessors
  writes : Build.Written s true ("*" ++ shape.part "Methods")
    ((node.bodyMembers.filter fun m => !isFieldMember m).filterMap (Build.defaultRecord s))
    code.defaults

lemma EmittedAbstract.fresh_iff (h : EmittedAbstract s node shape code) :
    (∀ f ∈ code.accessors, f.name ∉ code.own.methods.map MethodSpec.name) ↔
      ∀ record ∈ methodRecordsOf s node, record.isStatic = false →
        ∀ field ∈ node.ownFieldNames, s.emittedName true record ∉ accessorNames field := by
  have hnames : (∀ f ∈ code.accessors, f.name ∉ code.own.methods.map MethodSpec.name) ↔
      ∀ name ∈ code.accessors.map Code.Function.name,
        name ∉ code.own.methods.map MethodSpec.name := by
    simp only [forall_mem_map]
  rw [hnames, h.reads.names, h.ownMethods]
  constructor
  · intro hfresh record hrecord hinstance field hfield hname
    refine hfresh _ (mem_flatMap.2 ⟨field, hfield, hname⟩) (mem_map_of_mem ?_)
    exact mem_filter.2 ⟨hrecord, by simp [hinstance]⟩
  · intro hapart name hname hlisted
    obtain ⟨field, hfield, hmem⟩ := mem_flatMap.1 hname
    obtain ⟨record, hrecord, rfl⟩ := mem_map.1 hlisted
    obtain ⟨hdeclared, hinstance⟩ := mem_filter.1 hrecord
    exact hapart record hdeclared (by simpa using hinstance) field hfield hmem

/-- What an abstract class leaves stands in the file. -/
structure AbstractIn (file : Code.SourceFile) (s : Symbols) (node : Node) (shape : AbstractShape)
    (code : AbstractCode) : Prop extends EmittedAbstract s node shape code where
  data_mem : .interface code.data ∈ file.interfaces
  own_mem : .interface code.own ∈ file.interfaces
  base_mem : .struct code.base ∈ file.types
  methods_mem : .struct (shape.methodsStruct s) ∈ file.types
  accessors_mem : ∀ f ∈ code.accessors, f ∈ methodsOf ("*" ++ shape.part "Base") file.methods
  defaults_mem : ∀ f ∈ code.defaults, f ∈ methodsOf ("*" ++ shape.part "Methods") file.methods

namespace Build

variable {c : Context} {d d' : Draft} {shape : AbstractShape} {places : AbstractPlaces}

def getterSpec (f : DeclaredField) : MethodSpec :=
  { name := "Get" ++ Code.exported f.javaName, result := some f.goType }

def setterSpec (f : DeclaredField) : MethodSpec :=
  { name := "Set" ++ Code.exported f.javaName, params := [⟨f.name, f.goType⟩] }

/-- The getter and the setter of a field. -/
def accessorsOf (shape : AbstractShape) (f : DeclaredField) : List Code.Function :=
  let receiver : Param := ⟨"b", "*" ++ shape.part "Base"⟩
  let field : Code.Expr := .field (.var "b") (Code.exported f.javaName)
  [{ name := "Get" ++ Code.exported f.javaName, result := some f.goType, body := [.ret [field]],
     isPublic := true, receiver := some receiver },
   { name := "Set" ++ Code.exported f.javaName, params := [⟨f.name, f.goType⟩],
     body := [.assign field (.var f.name)], isPublic := true, receiver := some receiver }]

def accessedField (f : DeclaredField) : Code.Field :=
  ⟨Code.exported f.javaName, f.goType, true⟩

lemma accessors_accessorsOf (shape : AbstractShape) (fields : List DeclaredField) :
    Accessors ("*" ++ shape.part "Base") (fields.map DeclaredField.javaName)
      (fields.flatMap (accessorsOf shape)) where
  names := by simp [map_flatMap, flatMap_map, accessorsOf, accessorNames]
  receivers := by
    intro f hf
    obtain ⟨x, -, hx⟩ := mem_flatMap.1 hf
    simp only [accessorsOf, mem_cons, not_mem_nil, or_false] at hx
    rcases hx with rfl | rfl <;> rfl
  getters := by
    intro field hfield
    obtain ⟨f, hf, rfl⟩ := mem_map.1 hfield
    exact ⟨_, mem_flatMap.2 ⟨f, hf, mem_cons_self⟩, rfl, rfl⟩

lemma of_addAccessors (h : (addAccessors shape places f).runAt .tolerant c d = (.ok u, d')) :
    Draft.Lists places.data [getterSpec f, setterSpec f] d d'
      ∧ Fills places.base [accessedField f] d d'
      ∧ d'.standing .methods = d.standing .methods ++ (accessorsOf shape f).map .function := by
  simp only [addAccessors, runAt_bind_eq_ok] at h
  obtain ⟨v, d₁, hnote, _, _, ⟨⟩, _, _, ⟨⟩, _, _, ⟨⟩, _, _, ⟨⟩, ⟨⟩⟩ := h
  have hsame : ∀ g, d₁.standing g = d.standing g := by
    unfold noteInitializer at hnote
    split at hnote <;> cases hnote <;> exact fun _ => rfl
  refine ⟨?_, ?_, ?_⟩
  · have hnoted : Draft.Lists places.data [] d d₁ := lists_of_standing_eq (hsame _)
    have hspecs := (lists_grow d₁ places.data (getterSpec f)).trans
      (lists_grow _ places.data (setterSpec f))
    refine (hnoted.trans hspecs).trans (lists_of_standing_eq ?_)
    simp [standing_add_eq_append, standing_grow, getterSpec, setterSpec]
  · simp [Fills, standing_add_eq_append, standing_grow, hsame, accessedField]
  · simp [standing_add_eq_append, standing_grow, hsame, accessorsOf]

lemma of_addAbstractFields
    (h : (addAbstractFields shape places fields).runAt .tolerant c d = (.ok u, d')) :
    Draft.Lists places.data
        ((instanceFields fields).flatMap fun f => [getterSpec f, setterSpec f]) d d'
      ∧ Fills places.base ((instanceFields fields).map accessedField) d d'
      ∧ d'.standing .methods
        = d.standing .methods
          ++ ((instanceFields fields).flatMap (accessorsOf shape)).map .function := by
  induction fields generalizing d with
  | nil =>
    cases h
    exact ⟨lists_of_standing_eq rfl, fills_of_standing_eq rfl, by simp [instanceFields]⟩
  | cons f fields ih =>
    rw [addAbstractFields] at h
    split at h
    · next hstatic =>
        simp only [runAt_bind_eq_ok] at h
        obtain ⟨v, d₁, hlower, w, d₂, ⟨⟩, hrest⟩ := h
        obtain ⟨t, -, rfl⟩ := exists_of_lowered hlower
        obtain ⟨hlists, hfills, hmethods⟩ := ih hrest
        have hskip : instanceFields (f :: fields) = instanceFields fields := by
          simp [instanceFields, hstatic]
        rw [hskip]
        refine ⟨(lists_of_standing_eq ?_).trans hlists, (fills_of_standing_eq ?_).trans hfills, ?_⟩
        · simp [standing_add_eq_append]
        · simp [standing_add_eq_append]
        · simp [hmethods, standing_add_eq_append]
    · next hinstance =>
        obtain ⟨w, d₁, hfirst, hrest⟩ := exists_of_bind h
        obtain ⟨hspecs, hfield, haccessors⟩ := of_addAccessors hfirst
        obtain ⟨hlists, hfills, hmethods⟩ := ih hrest
        have hkeep : instanceFields (f :: fields) = f :: instanceFields fields := by
          simp [instanceFields, hinstance]
        rw [hkeep]
        exact ⟨hspecs.trans hlists, hfield.trans hfills, by simp [hmethods, haccessors]⟩

lemma names_of_declarators
    (h : List.Forall₂ (fun n f => Lower.declaredField isStatic type n = .ok f) declarators fields) :
    (instanceFields fields).map DeclaredField.javaName
      = if isStatic then []
        else declarators.filterMap fun n => (n.requireText "name").toOption := by
  induction h with
  | nil => simp [instanceFields]
  | @cons n f declarators fields hfirst _ ih =>
    obtain ⟨name, hname, ⟨⟩⟩ := Outcome.exists_of_bind hfirst
    cases isStatic with
    | true => simpa [instanceFields] using ih
    | false => simpa [instanceFields, hname, Except.toOption] using ih

lemma names_of_declaredIn (h : Lower.DeclaredIn c node fields) :
    (instanceFields fields).map DeclaredField.javaName = node.instanceFieldNames := by
  obtain ⟨-, type, -, -, hfields⟩ := h
  exact names_of_declarators hfields

lemma exists_of_abstractField {call : Call}
    (hbody : call.body = ⟨Unit, abstractField shape places call.node⟩)
    (hreturned : call.Returned c) :
    (∃ specs, Draft.Lists places.data specs call.before (call.after c)
        ∧ specs.map MethodSpec.name = call.node.instanceFieldNames.flatMap accessorNames)
      ∧ (∃ share, Fills places.base share call.before (call.after c)
        ∧ share.map Code.Field.name = call.node.instanceFieldNames.map Code.exported)
      ∧ ∃ own, Accessors ("*" ++ shape.part "Base") call.node.instanceFieldNames own
        ∧ call.added c .methods = own.map .function := by
  obtain ⟨u, d', hrun, hafter⟩ := hreturned.exists_run hbody
  obtain ⟨fields, d₁, hlower, hadd⟩ := exists_of_bind hrun
  obtain ⟨t, hfields, rfl⟩ := exists_of_lowered hlower
  obtain ⟨hlists, hfills, hmethods⟩ := of_addAbstractFields hadd
  rw [← names_of_declaredIn (Lower.declaredIn_of_declaredFields hfields)]
  have htrail : Draft.Lists places.data [] call.before.openMember
      (call.before.openMember.withTrail t) :=
    lists_of_standing_eq (standing_withTrail _ _ _)
  have hshare : Fills places.base ((instanceFields fields).map accessedField) call.before
      (call.after c) := by
    rw [Fills, hafter, hfills, standing_withTrail, standing_openMember]
  refine ⟨⟨_, Call.lists_of_run (htrail.trans hlists) hafter, ?_⟩,
    ⟨_, hshare, by simp [accessedField]⟩, _, accessors_accessorsOf shape (instanceFields fields),
    Call.added_eq ?_⟩
  · simp [map_flatMap, flatMap_map, getterSpec, setterSpec, accessorNames]
  · rw [hafter, hmethods, standing_withTrail, standing_openMember]

lemma exists_accessors {receiverType : String} {calls : List Call}
    (h : ∀ call ∈ calls, ∃ own, Accessors receiverType call.node.instanceFieldNames own
      ∧ call.added c .methods = own.map .function) :
    ∃ own, Accessors receiverType ((calls.map Call.node).flatMap Node.instanceFieldNames) own
      ∧ calls.flatMap (Call.added c · .methods) = own.map .function := by
  induction calls with
  | nil => exact ⟨[], ⟨rfl, by simp, by simp⟩, rfl⟩
  | cons call calls ih =>
    obtain ⟨⟨own, hown, hadded⟩, hrest⟩ := forall_mem_cons.1 h
    obtain ⟨more, hmore, haddedMore⟩ := ih hrest
    exact ⟨own ++ more, hown.append hmore, by simp [hadded, haddedMore]⟩

def emptyData (shape : AbstractShape) : Code.Interface :=
  { name := shape.name ++ "Data", isPublic := true, typeParams := shape.typeParams }

def emptyOwn (s : Symbols) (shape : AbstractShape) (interfaces : List String) : Code.Interface :=
  { name := shape.name,
    embeds := shape.part "Data" :: (shape.abstractSuperclass s).toList ++ interfaces,
    isPublic := true, typeParams := shape.typeParams }

def emptyBase (s : Symbols) (shape : AbstractShape) : Code.Struct :=
  { name := shape.name ++ "Base", embeds := shape.baseEmbeds s, isPublic := true,
    typeParams := shape.typeParams }

/-- The types of an abstract class as they are put down. -/
structure AbstractTypes (s : Symbols) (shape : AbstractShape) (interfaces : List String)
    (places : AbstractPlaces) (d d' : Draft) : Prop where
  data : places.data = d.count .interfaces
  interface : places.interface = d.count .interfaces + 1
  base : places.base = d.count .types
  interfaces : d'.standing .interfaces
    = d.standing .interfaces
      ++ [.interface (emptyData shape), .interface (emptyOwn s shape interfaces)]
  types : d'.standing .types
    = d.standing .types ++ [.struct (emptyBase s shape), .struct (shape.methodsStruct s)]

lemma abstractTypes_of_addAbstractTypes
    (h : (addAbstractTypes shape interfaces).runAt .tolerant c d = (.ok places, d')) :
    AbstractTypes c.symbols shape interfaces places d d' := by
  cases h
  refine ⟨rfl, ?_, ?_, ?_, ?_⟩
  · change (d.add .interfaces [_]).count .interfaces = _
    simp [← length_standing, standing_add_eq_append]
  · change ((d.add .interfaces [_]).add .interfaces [_]).count .types = _
    simp [← length_standing, standing_add_eq_append]
  · simp [standing_add_eq_append, emptyData, emptyOwn]
  · simp [standing_add_eq_append, emptyBase, AbstractShape.methodsStruct]

namespace AbstractParts

variable {go : Node → Build Unit} {d₁ d₂ : Draft} {fieldCalls memberCalls : List Call} {node : Node}
variable (hgo : ConvertsTypes (.free c) go)
variable (parts : AbstractParts c go node shape places d d₁ d₂ d' fieldCalls memberCalls)
variable (hreturned : ∀ k ∈ fieldCalls ++ memberCalls, k.Returned c)
include parts

lemma growsHeld_fields :
    ∀ k ∈ fieldCalls, k.body.2.GrowsHeld c
      fun g p => (g = .interfaces ∧ p = places.data) ∨ (g = .types ∧ p = places.base) := by
  intro k hk
  rw [Converts.body_of_mem parts.fieldConverts hk]
  exact (conforms_abstractField (T := .free c) (.inl ⟨rfl, rfl⟩) (.inr ⟨rfl, rfl⟩) k.node
    False.elim).growsHeld

include hgo in
lemma growsHeld_members :
    ∀ k ∈ memberCalls, k.body.2.GrowsHeld c fun g p => g = .interfaces ∧ p = places.interface := by
  intro k hk
  rw [Converts.body_of_mem parts.memberConverts hk]
  exact (conforms_abstractMember ⟨rfl, rfl⟩ (.free c _) hgo fun _ => False.elim).growsHeld

lemma flatMap_fieldCalls {α : Type} (f : String → List α) :
    fieldCalls.flatMap (fun k => k.node.instanceFieldNames.flatMap f)
      = node.ownFieldNames.flatMap f := by
  rw [Node.ownFieldNames, ← Converts.map_node parts.fieldConverts]
  simp [flatMap_map, flatMap_assoc]

include hgo hreturned in
lemma exists_lists_data (hplaces : places.data ≠ places.interface) :
    ∃ specs, Draft.Lists places.data specs d₁ d'
      ∧ specs.map MethodSpec.name = node.ownFieldNames.flatMap accessorNames := by
  obtain ⟨specs, hspecs, hnames⟩ := parts.fieldLinks.exists_lists fun k hk =>
    (exists_of_abstractField (Converts.body_of_mem parts.fieldConverts hk)
      (hreturned k (mem_append_left _ hk))).1
  have hrest : Draft.Lists places.data [] d₂ d' :=
    parts.memberLinks.lists_of_free (parts.growsHeld_members hgo) fun h => hplaces h.2
  refine ⟨specs, ?_, hnames.trans (parts.flatMap_fieldCalls accessorNames)⟩
  simpa using hspecs.trans hrest

include hgo hreturned in
lemma exists_lists_own (hplaces : places.data ≠ places.interface) :
    ∃ specs, Draft.Lists places.interface specs d₁ d'
      ∧ specs.map MethodSpec.name
        = ((methodRecordsOf c.symbols node).filter fun record => !record.isStatic).map
          (c.symbols.emittedName true) := by
  have hfirst : Draft.Lists places.interface [] d₁ d₂ := by
    refine parts.fieldLinks.lists_of_free parts.growsHeld_fields ?_
    rintro (⟨-, h⟩ | ⟨h, -⟩)
    · exact hplaces h.symm
    · cases h
  obtain ⟨specs, hspecs, hnames⟩ := parts.memberLinks.exists_lists fun k hk =>
    exists_lists_of_abstractMember hgo (Converts.body_of_mem parts.memberConverts hk)
      (hreturned k (mem_append_right _ hk))
  refine ⟨specs, hfirst.trans hspecs, ?_⟩
  rw [← filterMap_instanceRecord, ← Converts.map_node parts.memberConverts, filterMap_map,
    map_filterMap]
  exact hnames.trans (filterMap_eq_flatMap_toList _ _).symm

include hgo hreturned in
lemma exists_structs {base methods : Code.Struct}
    (hbase : (d₁.standing .types)[places.base]? = some (.struct base))
    (hmethods : (d₁.standing .types)[places.base + 1]? = some (.struct methods)) :
    ∃ share, share.map Code.Field.name = node.ownFieldNames.map Code.exported
      ∧ (d'.standing .types)[places.base]?
        = some (.struct { base with fields := base.fields ++ share })
      ∧ (d'.standing .types)[places.base + 1]? = some (.struct methods) := by
  obtain ⟨share, hshare, hnames⟩ := parts.fieldLinks.exists_steps
    (fun _ => Build.fills_of_standing_eq rfl) Build.Fills.trans fun k hk =>
    (exists_of_abstractField (Converts.body_of_mem parts.fieldConverts hk)
      (hreturned k (mem_append_left _ hk))).2.1
  have hkept : ∀ {p : Place} {decl : Decl}, (d₂.standing .types)[p]? = some decl →
      (d'.standing .types)[p]? = some decl :=
    parts.memberLinks.getElem?_of_free (parts.growsHeld_members hgo) (by simp)
  refine ⟨share, ?_, hkept ?_, hkept ?_⟩
  · have hfields := parts.flatMap_fieldCalls fun field => [Code.exported field]
    simp only [← map_eq_flatMap] at hfields
    exact hnames.trans hfields
  · rw [hshare, getElem?_modify_eq, hbase]
    rfl
  · rw [hshare, getElem?_modify_ne _ _ (Nat.ne_of_lt (Nat.lt_succ_self _)), hmethods]

end AbstractParts

lemma exists_emitted_of_abstractClass {go : Node → Build Unit} (hgo : ConvertsTypes (.free c) go)
    {call : Call} (hbody : call.body = ⟨Unit, abstractClass go call.node⟩)
    (hshape : AbstractShape.ofNode c.symbols call.node = .ok shape)
    (hreturned : call.Returned c) (hown : ∀ k ∈ call.own c, k.Returned c) :
    ∃ code rest, EmittedAbstract c.symbols call.node shape code
      ∧ ((call.after c).standing .interfaces)[call.before.count .interfaces]?
        = some (.interface code.data)
      ∧ ((call.after c).standing .interfaces)[call.before.count .interfaces + 1]?
        = some (.interface code.own)
      ∧ ((call.after c).standing .types)[call.before.count .types]? = some (.struct code.base)
      ∧ ((call.after c).standing .types)[call.before.count .types + 1]?
        = some (.struct (shape.methodsStruct c.symbols))
      ∧ (call.added c .methods).Perm ((code.accessors ++ code.defaults).map .function ++ rest) := by
  obtain ⟨u, d', hrun, hafter⟩ := hreturned.exists_run hbody
  obtain ⟨places, d₁, d₂, fieldCalls, memberCalls, parts⟩ := exists_abstractParts hrun hshape
  rw [Call.own_of_body hbody, parts.own] at hown
  obtain ⟨interfaces, hadd⟩ := parts.types
  have htypes := abstractTypes_of_addAbstractTypes hadd
  have hplaces : places.data ≠ places.interface := by
    rw [htypes.data, htypes.interface]
    exact (Nat.succ_ne_self _).symm
  obtain ⟨dataSpecs, hdataLists, hdataNames⟩ := parts.exists_lists_data hgo hown hplaces
  obtain ⟨ownSpecs, hownLists, hownNames⟩ := parts.exists_lists_own hgo hown hplaces
  have hinterfaces := length_standing call.before.openMember .interfaces
  have hcount := length_standing call.before.openMember .types
  have hempty :
      (d₁.standing .types)[places.base]? = some (.struct (emptyBase c.symbols shape)) := by
    simp [htypes.types, htypes.base, ← hcount]
  have hself : (d₁.standing .types)[places.base + 1]?
      = some (.struct (shape.methodsStruct c.symbols)) := by
    simp [htypes.types, htypes.base, ← hcount]
  obtain ⟨share, hshare, hbase, hmethods⟩ := parts.exists_structs hgo hown hempty hself
  obtain ⟨accessors, haccessors, hfieldMethods⟩ := exists_accessors fun k hk =>
    (exists_of_abstractField (Converts.body_of_mem parts.fieldConverts hk)
      (hown k (mem_append_left _ hk))).2.2
  obtain ⟨defaults, rest, hdefaults, hperm⟩ := exists_perm_of_members fun k hk record hrecord =>
    exists_added_of_abstractMember (Converts.body_of_mem parts.memberConverts hk)
      (hown k (mem_append_right _ hk)) hrecord
  rw [Converts.map_node parts.memberConverts] at hdefaults
  rw [Converts.map_node parts.fieldConverts] at haccessors
  refine ⟨{ data := { emptyData shape with methods := dataSpecs }
            own := { emptyOwn c.symbols shape interfaces with methods := ownSpecs }
            base := { emptyBase c.symbols shape with fields := share }
            accessors := accessors
            defaults := defaults }, rest, ?_, ?_, ?_, ?_, ?_, ?_⟩
  · exact
      { dataName := rfl
        ownName := rfl
        baseName := rfl
        extendsData := mem_cons_self
        embeds := (shape.embeds_layout c.symbols).symm
        dataMethods := hdataNames
        ownMethods := hownNames
        fields := hshare
        reads := haccessors
        writes := written_of_forall₂ hdefaults }
  · rw [hafter, ← count_openMember, ← htypes.data]
    exact hdataLists (emptyData shape) (by rw [htypes.interfaces, htypes.data, ← hinterfaces]; simp)
  · rw [hafter, ← count_openMember, ← htypes.interface]
    exact hownLists (emptyOwn c.symbols shape interfaces)
      (by rw [htypes.interfaces, htypes.interface, ← hinterfaces]; simp)
  · rw [hafter, ← count_openMember, ← htypes.base]
    exact hbase
  · rw [hafter, ← count_openMember, ← htypes.base]
    exact hmethods
  · have hadded : call.added c .methods
        = (fieldCalls ++ memberCalls).flatMap (Call.added c · .methods) := by
      refine Call.added_eq ?_
      rw [hafter, parts.methods hgo, standing_openMember]
    rw [hadded, flatMap_append, hfieldMethods, map_append, append_assoc]
    exact hperm.append_left _

end Build

section

/-- The node reads a field of the instance, by its name alone or with `this`. -/
inductive Tree.Node.ReadsField (t : Trail) (field : String) (node : Node) : Prop
  | bare (hkind : node.kind = .identifier) (htext : node.text = field)
      (hfree : inScopes t.scopes field = false)
  | qualified {target : Node} (hkind : node.kind = .fieldAccess)
      (hobject : node.require "object" = .ok target) (hself : target.kind = .self)
      (hname : node.requireText "field" = .ok field)

variable {c : Context} {shape : AbstractShape} {field : String}

lemma contains_foldl_insert {f : String → String} {names : List String}
    {table : Table String String} :
    (names.foldl (fun t name => t.insert name (f name)) table).contains field = true
      ↔ field ∈ names ∨ table.contains field = true := by
  induction names generalizing table with
  | nil => simp
  | cons name names ih =>
    have hinsert : (table.insert name (f name)).contains field = true
        ↔ field = name ∨ table.contains field = true := by
      by_cases hname : field = name
      · simp [hname, Table.contains]
      · simp [hname, Table.contains, Table.find?_insert_of_ne]
    rw [foldl_cons, ih, mem_cons]
    tauto

lemma AbstractShape.contains_receiver_iff :
    shape.receiver.fields.contains field = true ↔ field ∈ shape.layout.fields :=
  contains_foldl_insert.trans (or_iff_left Bool.false_ne_true)

/-- What a field is read through in a default method. -/
def getterCall (field : String) : Code.Expr :=
  .call (.field (.var "m.Self") ("Get" ++ Code.exported field)) [] false

namespace Lower

lemma returns_selfField (hreceiver : c.receiver = shape.receiver)
    (hfield : field ∈ shape.layout.fields) : (selfField field).Returns c t (getterCall field) := by
  have hself : (selfExpr none).Returns c t (.var "m.Self") := by
    refine returns_receiver.bind ?_
    rw [hreceiver]
    rfl
  refine returns_receiver.bind ?_
  rw [hreceiver, shape.contains_receiver_iff.2 hfield]
  exact hself.bind (.pure _)

lemma returns_of_readsField {node : Node} (hreceiver : c.receiver = shape.receiver)
    (hfield : field ∈ shape.layout.fields) (hreads : node.ReadsField t field) :
    (expression node).Returns c t { value := getterCall field } := by
  obtain ⟨go, hgo⟩ := exists_expression_eq node
  have hread : (selfField field).Returns c t (getterCall field) :=
    returns_selfField hreceiver hfield
  rw [hgo]
  cases hreads with
  | bare hkind htext hfree =>
    simp only [expressionStep, hkind]
    refine .bind ?_ (.pure _)
    rw [htext]
    refine (returns_isLocal field).bind ?_
    rw [hfree]
    refine returns_receiver.bind ?_
    rw [hreceiver, shape.contains_receiver_iff.2 hfield]
    exact hread
  | qualified hkind hobject hself hname =>
    simp only [expressionStep, hkind]
    refine (Returns.lift hobject).bind ((Returns.lift hname).bind ?_)
    simp only [hself]
    exact hread.bind (.pure _)

end Lower

end

section

variable {mode : Mode} {unit : CompilationUnit} {call : Call} {shape : AbstractShape}

lemma Call.DeclaresAbstract.exists_emitted (h : call.DeclaresAbstract unit.context shape)
    (hclean : (convert .tolerant unit).draft.diagnostics = []) (hcall : call ∈ unit.calls) :
    ∃ code, AbstractIn (convert .tolerant unit).draft.file unit.context.symbols call.node
      shape code := by
  have hreturned := returned_of_diagnostics_eq_nil hclean
  obtain ⟨height, hbody⟩ := h.exists_abstractClass (hreturned call hcall)
  obtain ⟨code, rest, hemitted, hdata, hown, hbase, hstruct, hperm⟩ :=
    exists_emitted_of_abstractClass (convertsTypes_free _ height) hbody
      h.shape (hreturned call hcall) fun k hk =>
        hreturned k (mem_calls_of_mem_own hcall hk)
  have hmethods : ∀ f ∈ code.accessors ++ code.defaults,
      .function f ∈ (convert .tolerant unit).draft.file.methods := by
    intro f hf
    refine mem_file_of_added hclean hcall (hperm.mem_iff.2 ?_)
    exact mem_append_left _ (mem_map_of_mem hf)
  refine ⟨code, ⟨hemitted, ?_, ?_, ?_, ?_, ?_, ?_⟩⟩
  · exact mem_of_getElem? (getElem?_file_of_call hclean hcall (Nat.le_refl _) hdata)
  · exact mem_of_getElem? (getElem?_file_of_call hclean hcall (Nat.le_succ _) hown)
  · exact mem_of_getElem? (getElem?_file_of_call hclean hcall (Nat.le_refl _) hbase)
  · exact mem_of_getElem? (getElem?_file_of_call hclean hcall (Nat.le_succ _) hstruct)
  · intro f hf
    exact mem_methodsOf (hmethods f (mem_append_left _ hf)) (hemitted.reads.receivers f hf)
  · intro f hf
    exact mem_methodsOf (hmethods f (mem_append_right _ hf)) (hemitted.writes.receivers f hf)

lemma Call.DeclaresClass.exists_struct (h : call.DeclaresClass unit.context leaf)
    (hclean : (convert .tolerant unit).draft.diagnostics = []) (hcall : call ∈ unit.calls) :
    ∃ fields, classStruct leaf fields ∈ (convert .tolerant unit).draft.file.types := by
  have hreturned := returned_of_diagnostics_eq_nil hclean call hcall
  obtain ⟨height, hbody⟩ := h.exists_concreteClass hreturned
  obtain ⟨fieldCalls, memberCalls, restCalls, shares, haccounted⟩ :=
    accounted_of_concreteClass (convertsTypes_free _ height) hbody h.shape hreturned
  have hadded : classStruct leaf shares.flatten ∈ call.added unit.context .types := by
    rw [haccounted.types]
    exact mem_cons_self
  exact ⟨shares.flatten, mem_file_of_added hclean hcall hadded⟩

/-- Let a unit be converted without diagnostics.  Then each of its abstract classes leaves its
interfaces, structs, accessors and default methods.  Its methods are apart from the accessors
exactly when none is given the name of an accessor of a field that the class declares.  A default
method reads a field by calling its getter on the whole instance; on an instance of a class below,
this is the getter of the base exactly when no type above the base has a method of that name, and
the default methods have none. -/
theorem accessors_fresh_iff (hok : (convert mode unit).outcome = .ok ())
    (hclean : (convert mode unit).draft.diagnostics = []) (hcall : call ∈ unit.calls)
    (hclass : call.DeclaresAbstract unit.context shape) :
    ∃ code,
      AbstractIn (convert mode unit).draft.file unit.context.symbols call.node shape code
        ∧ ((∀ f ∈ code.accessors, f.name ∉ code.own.methods.map MethodSpec.name) ↔
            ∀ record ∈ Build.methodRecordsOf unit.context.symbols call.node,
              record.isStatic = false → ∀ field ∈ call.node.ownFieldNames,
                unit.context.symbols.emittedName true record ∉ accessorNames field)
        ∧ (∀ (k : Context) (t : Trail) (node : Node) (field : String),
            k.receiver = shape.receiver → field ∈ shape.layout.fields → node.ReadsField t field →
            (Lower.expression node).runAt k t = (.ok { value := getterCall field }, t))
        ∧ ∀ below ∈ unit.calls, ∀ (leaf : ClassShape) (depth : Nat) (layout : Layout),
            below.DeclaresClass unit.context leaf →
            leaf.ancestry[depth]? = some layout → layout.name = shape.name →
            shape.typeParams = [] →
            (∃ fields, Build.classStruct leaf fields ∈ (convert mode unit).draft.file.types)
              ∧ ∀ field ∈ call.node.ownFieldNames,
                let has := hasMethod (convert mode unit).draft.file.methods
                  ("Get" ++ Code.exported field)
                let levels := leaf.levels unit.context.symbols
                selected has levels = some (depth + 1, ["*" ++ shape.part "Base"]) ↔
                  (∀ level ∈ levels.take (depth + 1), level.any has = false)
                    ∧ has ("*" ++ shape.part "Methods") = false := by
  rw [convert_eq_tolerant_of_ok hok] at hclean ⊢
  obtain ⟨code, hin⟩ := hclass.exists_emitted hclean hcall
  refine ⟨code, hin, hin.fresh_iff, ?_, ?_⟩
  · intro k t node field hreceiver hfield hreads
    exact Lower.returns_of_readsField hreceiver hfield hreads
  · intro below hbelow leaf depth layout hleaf hlayout hname hplain
    refine ⟨hleaf.exists_struct hclean hbelow, fun field hfield => ?_⟩
    have hpart : ∀ ending, shape.part ending = layout.name ++ ending := by
      intro ending
      rw [AbstractShape.part, hplain, hname]
      rfl
    obtain ⟨f, hf, hgetter, -⟩ := hin.reads.getters field hfield
    have hbase := hasMethod_of_mem (hin.accessors_mem f hf)
    rw [hgetter, hpart] at hbase
    rw [hpart, hpart]
    exact selected_base_iff (namesLayouts_context hcall) hleaf.ancestry_eq hlayout hbase

end

/-- The abstract class `Person` with the field `int age` and a method that returns it. -/
def personClass (method : String) : Node :=
  .plainClass 1 (abstractModifiers 4) "Person" []
    [plainField 10 [.intType 11] ["age"],
     .tree 20 .methodDeclaration
       [.intType 21,
        .called 22 method,
        .parameterList 23 [],
        .body 24
          [.tree 25 .returnStatement
            [.leaf 26 .identifier "age"]]]]

/-- The class `Person` and a class `Child` below it. -/
def personUnit (method : String) : CompilationUnit :=
  .ofTypes
    [personClass method, .plainClass 40 [] "Child" (extending 50 "Person") []]

def personCall (method : String) : Call :=
  firstCall (personUnit method) (personClass method)

def personLayout : Layout where
  name := "Person"
  fields := ["age"]
  defaultMethods := [20]

def personShape (method : String) : AbstractShape where
  node := personClass method
  name := "Person"
  layout := personLayout
  typeParams := []

def childShape : ClassShape where
  node := .plainClass 40 [] "Child" (extending 50 "Person") []
  javaName := "Child"
  name := "Child"
  isPublic := true
  typeParams := []
  superclass := some "Person"
  ancestry := [personLayout]

lemma personCall_declaresAbstract :
    (personCall "years").DeclaresAbstract (personUnit "years").context (personShape "years") where
  body := ⟨(personClass "years").height, rfl⟩
  kind := rfl
  abstract := by decide +kernel
  shape := by with_unfolding_all rfl

lemma exists_child_call : ∃ below ∈ (personUnit "years").calls,
    below.DeclaresClass (personUnit "years").context childShape := by
  have hdeclared : childShape.node ∈
      (personUnit "years").root.children.filter fun n => !isIgnored n :=
    mem_cons_of_mem _ mem_cons_self
  obtain ⟨below, hbelow, hnode, hbody⟩ := exists_call_of_declaration (by decide +kernel) hdeclared
  refine ⟨below, hbelow, ⟨⟨childShape.node.height, ?_⟩, ?_⟩, ?_, ?_⟩
  all_goals rw [hnode]
  · exact hbody
  · rfl
  · decide +kernel
  · with_unfolding_all rfl

/-- No accessor of `age` is called like the method `years`, and an instance of `Child` has the
getter of the base. -/
theorem person_accessors_fresh :
    (convert .tolerant (personUnit "years")).outcome = .ok ()
      ∧ (convert .tolerant (personUnit "years")).draft.diagnostics = []
      ∧ personCall "years" ∈ (personUnit "years").calls
      ∧ (personCall "years").DeclaresAbstract (personUnit "years").context (personShape "years")
      ∧ (∃ below ∈ (personUnit "years").calls,
          below.DeclaresClass (personUnit "years").context childShape)
      ∧ selected (hasMethod (convert .tolerant (personUnit "years")).draft.file.methods "GetAge")
          (childShape.levels (personUnit "years").context.symbols)
          = some (1, ["*PersonBase"])
      ∧ ∃ code,
          AbstractIn (convert .tolerant (personUnit "years")).draft.file
              (personUnit "years").context.symbols (personClass "years")
              (personShape "years") code
            ∧ ∀ f ∈ code.accessors, f.name ∉ code.own.methods.map MethodSpec.name := by
  have hok : (convert .tolerant (personUnit "years")).outcome = .ok () :=
    ok_of_isOk (by decide +kernel)
  have hclean : (convert .tolerant (personUnit "years")).draft.diagnostics = [] := by
    decide +kernel
  have hmem : personCall "years" ∈ (personUnit "years").calls :=
    firstCall_mem (by decide +kernel) rfl
  obtain ⟨code, hin, hfresh, -, hclasses⟩ :=
    accessors_fresh_iff hok hclean hmem personCall_declaresAbstract
  obtain ⟨below, hbelow, hchild⟩ := exists_child_call
  obtain ⟨-, hselected⟩ := hclasses below hbelow childShape 0 personLayout hchild rfl rfl rfl
  have hage := hselected "age" (by decide +kernel)
  refine ⟨hok, hclean, hmem, personCall_declaresAbstract, exists_child_call,
    hage.2 ⟨by decide +kernel, by decide +kernel⟩, code, hin, hfresh.2 ?_⟩
  change ∀ record ∈ Build.methodRecordsOf (personUnit "years").context.symbols
    (personClass "years"), _
  decide +kernel

/-- The method `getAge` is called like the getter of `age`.  On an instance of `Child` the call in
its body denotes the method of the class, which passes it on to the default method again. -/
theorem person_accessor_captured :
    (convert .tolerant (personUnit "getAge")).outcome = .ok ()
      ∧ (convert .tolerant (personUnit "getAge")).draft.diagnostics = []
      ∧ personCall "getAge" ∈ (personUnit "getAge").calls
      ∧ (personCall "getAge").DeclaresAbstract (personUnit "getAge").context (personShape "getAge")
      ∧ (personClass "getAge").ownFieldNames = ["age"]
      ∧ (Build.methodRecordsOf (personUnit "getAge").context.symbols
          (personClass "getAge")).map ((personUnit "getAge").context.symbols.emittedName
            true) = ["GetAge"]
      ∧ ((methodsOf "*PersonBase" (convert .tolerant (personUnit "getAge")).draft.file.methods).map
          Code.Function.name) = ["GetAge", "SetAge"]
      ∧ ((methodsOf "*PersonMethods"
          (convert .tolerant (personUnit "getAge")).draft.file.methods).map
            fun f => (f.name, Code.Stmt.blockLines f.body))
        = [("GetAge", ["\treturn m.Self.GetAge()"])]
      ∧ ((methodsOf "*Child" (convert .tolerant (personUnit "getAge")).draft.file.methods).map
            fun f => (f.name, Code.Stmt.blockLines f.body))
        = [("GetAge", ["\tc.PersonMethods.Self = c", "\treturn c.PersonMethods.GetAge()"])]
      ∧ selected (hasMethod (convert .tolerant (personUnit "getAge")).draft.file.methods "GetAge")
          (childShape.levels (personUnit "getAge").context.symbols)
          = some (0, ["*Child"]) := by
  have hok : (convert .tolerant (personUnit "getAge")).outcome = .ok () :=
    ok_of_isOk (by decide +kernel)
  have hmem : personCall "getAge" ∈ (personUnit "getAge").calls :=
    firstCall_mem (by decide +kernel) rfl
  exact ⟨hok, by decide +kernel, hmem,
    ⟨⟨⟨(personClass "getAge").height, rfl⟩, rfl⟩, by decide +kernel, by with_unfolding_all rfl⟩,
    by decide +kernel, by decide +kernel, by decide +kernel, by decide +kernel, by decide +kernel,
    by decide +kernel⟩

end JavaToGo
