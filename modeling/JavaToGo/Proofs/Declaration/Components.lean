import JavaToGo.Proofs.Conversion.Lookups
import JavaToGo.Proofs.Declaration.Listings

/-!
# The components of a record

A record takes the types of its components from its parameters and their names
from its formal parameters.  A component of variable arity has a type and no name
there, so its pair is lost.
-/

namespace JavaToGo

open Code (Param Stmt)
open JavaToGo.Tree (Node)
open List Outcome Draft

section

variable {c : TypeContext}

/-- How many of the parameters of a declaration are of variable arity. -/
def Tree.Node.spreads (node : Node) : Nat :=
  (node.fieldChild? "parameters").elim 0 fun list =>
    list.namedChildren.countP fun p => p.kind == .spreadParameter

/-- The parameters are those with the given names and those of variable arity; when there is none of
the latter, they have the names in order. -/
structure Aligned (params : List Param) (names : List String) (spreads : Nat) : Prop where
  length : params.length = names.length + spreads
  names : spreads = 0 → params.map Param.name = names.map Code.avoidReserved

lemma aligned_of_mapM {nodes : List Node} (hfound : nodes.mapM (parameter? c) = .ok found)
    (hnames : (nodes.filter fun p => p.kind == .formalParameter).mapM
      (fun p => p.requireText "name") = .ok names) :
    Aligned (found.filterMap fun p => p) names
      (nodes.countP fun p => p.kind == .spreadParameter) := by
  induction nodes generalizing found names with
  | nil =>
    cases hfound
    cases hnames
    exact ⟨rfl, fun _ => rfl⟩
  | cons node nodes ih =>
    simp only [mapM_cons, bind_eq_ok] at hfound
    obtain ⟨first, hfirst, rest, hrest, ⟨⟩⟩ := hfound
    unfold parameter? at hfirst
    split at hfirst
    · rename_i hkind
      rw [filter_cons_of_pos (by simp [hkind])] at hnames
      simp only [mapM_cons, bind_eq_ok] at hnames hfirst
      obtain ⟨name, hname, more, hmore, ⟨⟩⟩ := hnames
      obtain ⟨name', hname', typeNode, -, type, -, ⟨⟩⟩ := hfirst
      cases hname.symm.trans hname'
      obtain ⟨hlength, hsame⟩ := ih hrest hmore
      rw [countP_cons_of_neg (by simp [hkind])]
      refine ⟨?_, fun hnone => ?_⟩
      · simp [hlength, Nat.add_right_comm]
      · simp [hsame hnone]
    · rename_i hkind
      rw [filter_cons_of_neg (by simp [hkind])] at hnames
      obtain ⟨parts, -, hfirst⟩ := exists_of_bind hfirst
      split at hfirst
      · cases hfirst
        rw [countP_cons_of_pos (by simp [hkind])]
        refine ⟨?_, fun hnone => nomatch hnone⟩
        simp [(ih hrest hnames).length, Nat.add_assoc]
      · cases hfirst
    all_goals
      rename_i hkind
      first
      | cases hfirst
        rw [filter_cons_of_neg (by simp [hkind])] at hnames
        rw [countP_cons_of_neg (by simp [hkind]), filterMap_cons_none rfl]
        exact ih hrest hnames
      | cases hfirst

end

namespace RecordShape

variable {shape : RecordShape} {params : List Param}

/-- Each parameter is stored in the field of its place. -/
def StoresAll (s : RecordShape) (params : List Param) : Prop :=
  s.fields.length = params.length
    ∧ s.storeComponents = List.zipWith
      (fun field p => .assign (.field (.var "this") field.name) (.var p.name)) s.fields params

lemma aligned_of_ofNode {c : TypeContext} {node : Node} (h : ofNode c node = .ok shape) :
    Aligned shape.components shape.componentNames node.spreads
      ∧ ∀ {types list params}, node.require "parameters" = .ok list →
        parameters types list = .ok params → Aligned params shape.componentNames node.spreads := by
  simp only [ofNode, bind_eq_ok] at h
  obtain ⟨javaName, -, declared, -, list, hlist, components, hcomponents, names, hnames, ⟨⟩⟩ := h
  have haligned : ∀ {types params}, parameters types list = .ok params →
      Aligned params names node.spreads := by
    intro types params hparams
    obtain ⟨found, hfound, ⟨⟩⟩ := exists_of_bind hparams
    rw [Tree.Node.spreads, Node.fieldChild?_of_require hlist]
    exact aligned_of_mapM hfound hnames
  refine ⟨haligned hcomponents, fun hlist' hparams => ?_⟩
  cases hlist.symm.trans hlist'
  exact haligned hparams

variable {spreads : Nat} (h : Aligned shape.components shape.componentNames spreads)
include h

lemma length_fields : shape.fields.length = shape.componentNames.length := by
  simp [fields, parts, h.length]

lemma types_fields_iff :
    shape.fields.map Code.Field.type = shape.components.map Param.type ↔ spreads = 0 := by
  constructor
  · intro htypes
    have hlength := congrArg List.length htypes
    rw [length_map, length_map, length_fields h, h.length] at hlength
    omega
  · intro hnone
    have hlength : shape.components.length = shape.componentNames.length := by
      rw [h.length, hnone, Nat.add_zero]
    have hparts : shape.parts.map Prod.snd = shape.components := map_snd_zip (Nat.le_of_eq hlength)
    rw [← hparts, fields, map_map, map_map]
    rfl

lemma storesAll_iff (hparams : Aligned params shape.componentNames spreads) :
    shape.StoresAll params ↔ spreads = 0 := by
  constructor
  · rintro ⟨hlength, -⟩
    rw [length_fields h, hparams.length] at hlength
    omega
  · intro hnone
    refine ⟨by rw [length_fields h, hparams.length, hnone, Nat.add_zero], ?_⟩
    have hsame : shape.components.map Param.name = params.map Param.name :=
      (h.names hnone).trans (hparams.names hnone).symm
    have hstores : ∀ (names : List String) (components params : List Param),
        components.map Param.name = params.map Param.name →
        ((names.zip components).map fun p =>
            Stmt.assign (.field (.var "this") (Code.exported p.1)) (.var p.2.name))
          = List.zipWith (fun (field : Code.Field) (p : Param) =>
              .assign (.field (.var "this") field.name) (.var p.name))
            ((names.zip components).map fun p => ⟨Code.exported p.1, p.2.type, true⟩) params := by
      intro names
      induction names with
      | nil => exact fun _ _ _ => rfl
      | cons name names ih =>
        intro components params hnames
        cases components with
        | nil => rfl
        | cons component components =>
          cases params with
          | nil => cases hnames
          | cons param params =>
            obtain ⟨hname, hrest⟩ := List.cons.inj hnames
            simp [ih components params hrest, hname]
    exact hstores _ _ _ hsame

end RecordShape

/-- The constructor or record recorded under the number takes these parameters. -/
def Tree.Node.Takes (root : Node) (number : Nat) (params : List Param) : Prop :=
  ∃ node ∈ root.walk,
    (node.kind = .constructorDeclaration ∧ node.id = number
      ∨ node.kind = .recordDeclaration ∧ (Analysis.canonicalNode node).id = number)
    ∧ ∃ types list, node.require "parameters" = .ok list ∧ parameters types list = .ok params

def Symbols.TakesParameters (s : Symbols) (root : Node) : Prop :=
  ∀ number record, s.constructorRecords.find? number = some record → root.Takes number record.params

lemma Symbols.TakesParameters.insert {s s' : Symbols} (hs : s.TakesParameters root)
    (hinsert : s'.constructorRecords = s.constructorRecords.insert number record)
    (hrecord : root.Takes number record.params) : s'.TakesParameters root := by
  intro number' found hfound
  rw [hinsert] at hfound
  by_cases hnumber : number' = number
  · rw [hnumber] at hfound ⊢
    cases (Table.find?_insert_self _ _ _).symm.trans hfound
    exact hrecord
  · exact hs number' found ((Table.find?_insert_of_ne _ _ hnumber).symm.trans hfound)

namespace Analysis

variable {c : AnalysisContext} {s : Findings}

lemma takesParameters_recordConstructor
    (hn : n ∈ c.unit.root.declarationsOf .constructorDeclaration)
    (hs : s.symbols.TakesParameters c.unit.root) :
    LeadsTo c s (·.TakesParameters c.unit.root) (recordConstructor n) := by
  obtain ⟨hwalk, hkind⟩ := mem_declarationsOf.1 hn
  refine Ends.leadsTo (ends_recordConstructor (fun _ _ => hs) ?_)
  exact fun _ _ _ list _ _ _ _ _ _ hlist hparams =>
    hs.insert rfl ⟨n, hwalk, .inl ⟨hkind, rfl⟩, _, list, hlist, hparams⟩

lemma takesParameters_recordCanonicalConstructor (hwalk : n ∈ c.unit.root.walk)
    (hkind : n.kind = .recordDeclaration) (hs : s.symbols.TakesParameters c.unit.root) :
    LeadsTo c s (·.TakesParameters c.unit.root) (recordCanonicalConstructor n) :=
  Ends.leadsTo (ends_recordCanonicalConstructor (fun _ _ => hs)
    fun _ _ list _ _ _ _ _ hlist hparams =>
      hs.insert rfl ⟨n, hwalk, .inr ⟨hkind, rfl⟩, _, list, hlist, hparams⟩)

lemma takesParameters_of_analyze (h : analyze mode unit [] {} = (.ok (), findings)) :
    findings.symbols.TakesParameters unit.root := by
  obtain ⟨s₁, s₂, s₃, s₄, s₅, hpasses, hsymbols⟩ := exists_passes_of_wholeUnit h
  have hfirst : s₃.symbols.TakesParameters unit.root := by
    intro number record hfound
    rw [hpasses.constructors_eq.2] at hfound
    cases hfound
  have hdeclared : s₄.symbols.TakesParameters unit.root :=
    LeadsTo.of_run (.forEach (fun _ _ hs => hs) (fun n hn s hs =>
      takesParameters_recordConstructor hn hs) hfirst) hpasses.constructors
  rw [hsymbols]
  refine LeadsTo.of_run (P := (·.TakesParameters unit.root))
    (.forEach (fun _ _ hs => hs) (fun n hn s hs => ?_) hdeclared) hpasses.canonicals
  obtain ⟨htype, hkind⟩ := mem_filter.1 hn
  exact takesParameters_recordCanonicalConstructor (mem_filter.1 htype).1 (beq_iff_eq.1 hkind) hs

end Analysis

lemma Tree.Node.canonicalNode_eq_or (n : Node) :
    Analysis.canonicalNode n = n
      ∨ (Analysis.canonicalNode n).kind = .compactConstructorDeclaration
        ∧ ∃ body, n.fieldChild? "body" = some body ∧ Analysis.canonicalNode n ∈ body.children := by
  unfold Analysis.canonicalNode
  cases hcompact : (n.fieldChild? "body").bind (·.childOfKind? .compactConstructorDeclaration) with
  | none => exact .inl rfl
  | some =>
    obtain ⟨body, hbody, hfind⟩ := Option.bind_eq_some_iff.1 hcompact
    exact .inr ⟨by simpa using find?_some hfind, body, hbody,
      Node.mem_children_of_childOfKind? hfind⟩

section

variable {root node : Node} (hnumbers : root.DistinctNumbers) (hnode : node ∈ root.walk)
include hnumbers hnode

lemma owner_of_compact (howner : owner ∈ root.walk) (hrecord : owner.kind = .recordDeclaration)
    (hownerBody : owner.fieldChild? "body" = some ownerBody) (hchild : compact ∈ ownerBody.children)
    (hbody : ∀ body, node.fieldChild? "body" = some body → body.kind = .classBody)
    (hcompact : compact ∈ node.bodyMembers.filter Build.isCompact) : owner = node := by
  have hbelow : ∀ {m inner : Node}, m ∈ root.walk → inner ∈ m.children → inner ∈ root.walk :=
    fun hm hinner => Node.mem_walk_trans
      (Node.mem_walk_of_mem_children hinner (Node.mem_walk_self _)) hm
  have hinside := Node.mem_children_of_fieldChild? hownerBody
  unfold Node.bodyMembers at hcompact
  cases hfield : node.fieldChild? "body" with
  | none =>
    rw [hfield] at hcompact
    cases hcompact
  | some body =>
    rw [hfield] at hcompact
    have hown := Node.mem_children_of_fieldChild? hfield
    have hmember := (mem_filter.1 (mem_compactConstructors_of_member hcompact)).1
    rcases mem_append.1 hmember with hdirect | hdeep
    · obtain rfl :=
        hnumbers.parent_unique (hbelow howner hinside) (hbelow hnode hown) hchild hdirect
      exact hnumbers.parent_unique howner hnode hinside hown
    · obtain ⟨part, hpart, hdeep⟩ := mem_flatMap.1 hdeep
      have hpartChild := Node.mem_children_of_childrenOfKind hpart
      have hbodyWalk := hbelow hnode hown
      obtain rfl := hnumbers.parent_unique (hbelow howner hinside) (hbelow hbodyWalk hpartChild)
        hchild hdeep
      -- Then the body would be a record.
      obtain rfl := hnumbers.parent_unique howner hbodyWalk hinside hpartChild
      rw [hbody owner hfield] at hrecord
      cases hrecord

lemma parameters_of_takes (hkind : node.kind = .recordDeclaration)
    (hbody : ∀ body, node.fieldChild? "body" = some body → body.kind = .classBody)
    (h : root.Takes (Build.soughtNode node).id params) :
    ∃ types list, node.require "parameters" = .ok list ∧ parameters types list = .ok params := by
  obtain ⟨owner, howner, hid, hparams⟩ := h
  suffices hsame : owner = node by rwa [hsame] at hparams
  have hcanonical := Analysis.canonicalNode_mem_walk howner
  unfold Build.soughtNode at hid
  cases hcompact : (node.bodyMembers.filter Build.isCompact).getLast? with
  | none =>
    rw [hcompact] at hid
    rcases hid with ⟨-, hid⟩ | ⟨-, hid⟩
    · exact hnumbers.eq_of_id howner hnode hid
    · have heq := hnumbers.eq_of_id hcanonical hnode hid
      rcases Node.canonicalNode_eq_or owner with hself | ⟨hother, -⟩
      · exact hself.symm.trans heq
      · rw [heq, hkind] at hother
        cases hother
  | some compact =>
    rw [hcompact] at hid
    have hmember := mem_of_getLast? hcompact
    obtain ⟨hinside, hcompactKind⟩ := mem_filter.1 hmember
    have hother : compact.kind = .compactConstructorDeclaration := beq_iff_eq.1 hcompactKind
    have hbelow : node.Everywhere (· ∈ root.walk) := fun n hn => Node.mem_walk_trans hn hnode
    have hwalk : compact ∈ root.walk := (hbelow.member hinside).here
    rcases hid with ⟨hconstructor, hid⟩ | ⟨hrecord, hid⟩
    · rw [hnumbers.eq_of_id howner hwalk hid, hother] at hconstructor
      cases hconstructor
    · have heq := hnumbers.eq_of_id hcanonical hwalk hid
      rcases Node.canonicalNode_eq_or owner with hself | ⟨-, body, hfield, hchild⟩
      · rw [← hself, heq, hother] at hrecord
        cases hrecord
      · rw [heq] at hchild
        exact owner_of_compact hnumbers hnode howner hrecord hfield hchild hbody hmember

end

namespace Build

variable {c : Context} {shape : RecordShape}

lemma standing_of_compactBody
    (h : (compactBody shape compact).runAt .tolerant c d = (.ok result, d')) :
    ∀ g, d'.standing g = d.standing g := by
  cases compact with
  | none =>
    cases h
    exact fun _ => rfl
  | some =>
    simp only [compactBody, runAt_bind_eq_ok] at h
    obtain ⟨comments, d₁, hcomments, body, d₂, hbody, ⟨⟩⟩ := h
    obtain ⟨t, -, rfl⟩ := exists_of_lowered hcomments
    obtain ⟨t', -, rfl⟩ := exists_of_lowered hbody
    exact fun _ => by simp

/-- The function stores its parameters behind whatever a compact constructor does. -/
structure Canonical (shape : RecordShape) (f : Code.Function) : Prop where
  result : f.result = some shape.structType
  body : ∃ body, f.body
    = Lower.newValue shape.structType :: body ++ shape.storeComponents ++ [Lower.returnSelf]

lemma exists_of_canonicalConstructor
    (h : (canonicalConstructor shape compact).runAt .tolerant c d = (.ok (), d')) :
    ∃ record f, c.symbols.requireConstructor (compact.getD shape.node) = .ok record
      ∧ f.params = record.params ∧ Canonical shape f
      ∧ ∀ g, d'.standing g = d.standing g ++ if g = .functions then [.function f] else [] := by
  simp only [canonicalConstructor, runAt_bind_eq_ok, runAt_lift_eq_ok] at h
  obtain ⟨c', d₀, ⟨⟩, record, d₁, ⟨hrecord, rfl⟩, ⟨body, comments⟩, d₂, hbody, ⟨⟩⟩ := h
  have hsame := standing_of_compactBody hbody
  refine ⟨record, _, hrecord, ?_, ?_, fun g =>
    hsame g ▸ standing_add_eq_append _ _ _ _⟩
  · rfl
  · exact ⟨rfl, body, rfl⟩

lemma completes_ensureCanonical {members : List Node}
    (hnone : members.any (shape.isCanonical c.symbols) = false)
    (h : (ensureCanonical shape members).runAt .tolerant c d = (.ok (), d')) :
    Completes c ((members.filter isCompact).getLast?.getD shape.node)
      [⟨Unit, canonicalConstructor shape (members.filter isCompact).getLast?⟩] d
      ((ensureCanonical shape members).ownCalls c d) d' := by
  have hscript : ∀ x y : Build Unit,
      (if members.any (shape.isCanonical c.symbols) then x else y) = y := fun x y => by
    rw [if_neg (Bool.eq_false_iff.1 hnone)]
  obtain ⟨c', d₀, hcontext, hrest⟩ := exists_of_bind h
  have hsame := hcontext
  cases hsame
  rw [ensureCanonical, ownCalls_bind hcontext, hscript]
  rw [hscript] at hrest
  exact completes_member hrest

def recordStruct (shape : RecordShape) : Decl :=
  .struct { name := shape.name, fields := shape.fields, isPublic := shape.isPublic,
            typeParams := shape.typeParams }

variable {go : Node → Build Unit} {call : Call}

lemma exists_of_record (hgo : ConvertsTypes (.free c) go)
    (hkind : call.node.kind = .recordDeclaration)
    (hbody : call.body = ⟨Unit, record go call.node⟩)
    (hshape : RecordShape.ofNode c.toTypeContext call.node = .ok shape)
    (hreturned : call.Returned c) :
    recordStruct shape ∈ call.added c .types
      ∧ (call.node.bodyMembers.any (shape.isCanonical c.symbols) = false →
        ∃ k ∈ call.own c, k.node = soughtNode call.node ∧ k.body = ⟨Unit, canonicalConstructor shape
          (call.node.bodyMembers.filter isCompact).getLast?⟩) := by
  obtain ⟨u, d', hrun, hafter⟩ := hreturned.exists_run hbody
  unfold record at hrun
  rw [runAt_shaped hshape] at hrun
  obtain ⟨place, d₂, hput, hfrom₂⟩ := exists_of_bind hrun
  have hplace := hput
  cases hplace
  obtain ⟨v, d₃, hensure, -⟩ := exists_of_bind hfrom₂
  refine ⟨?_, fun hnone => ?_⟩
  · have hrest : GrowsHeld c _ .none := (conforms_recordMembers hgo (.free c call.node) hkind
      hshape fun _ _ => False.elim).growsHeld
    refine Call.mem_added_of_getElem? hafter (Nat.le_of_eq ?_) (hrest.getElem?_added hfrom₂)
    rw [count_openMember]
  · have hcompletes := completes_ensureCanonical hnone hensure
    rw [node_of_recordShape hshape] at hcompletes
    obtain ⟨k, hk, hbodyOf⟩ : ∃ k ∈ (ensureCanonical shape call.node.bodyMembers).ownCalls c _,
        k.body = _ := mem_map.1 (hcompletes.bodies ▸ mem_singleton_self _)
    refine ⟨k, ?_, hcompletes.node k hk, hbodyOf⟩
    rw [Call.own_of_body hbody, record, ownCalls_shaped hshape, ownCalls_bind hput]
    rw [ownCalls_bind hensure]
    simp [hk]

end Build

/-- The call converts a record of this shape. -/
structure Call.DeclaresRecord (c : Context) (call : Call) (shape : RecordShape) : Prop
    extends call.Declares .recordDeclaration where
  shape : RecordShape.ofNode c.toTypeContext call.node = .ok shape

lemma Call.DeclaresRecord.exists_record {c : Context} {call : Call} {shape : RecordShape}
    (h : call.DeclaresRecord c shape) (hreturned : call.Returned c) :
    ∃ height, call.body = ⟨Unit, Build.record (Build.typeDeclarationWithin height) call.node⟩ := by
  simpa [Build.typeDeclarationStep, h.kind] using hreturned.exists_step h.body

section

variable {unit : CompilationUnit} {call : Call} {shape : RecordShape}

/-- Let a call of a tolerant conversion convert a record, and let neither it nor a member fail.  The
struct has one field for each component, in order and with its type, exactly when no component is of
variable arity.  When no member is a constructor with the types of the components, one is generated,
and each of its parameters is stored exactly when no component is of variable arity. -/
theorem record_keeps_components_iff (hnumbers : unit.root.DistinctNumbers)
    (hcall : call ∈ unit.calls)
    (hrecord : call.DeclaresRecord unit.context shape)
    (hnode : call.node ∈ unit.root.walk)
    (hbody : ∀ body, call.node.fieldChild? "body" = some body → body.kind = .classBody)
    (hreturned : ¬ call.Failed unit.context)
    (hown : ∀ k ∈ call.own unit.context, ¬ k.Failed unit.context) :
    (Build.recordStruct shape ∈ call.added unit.context .types
        ∧ (call ∈ unit.keptCalls →
          Build.recordStruct shape ∈ (convert .tolerant unit).draft.file.group .types))
      ∧ (shape.fields.map Code.Field.type = shape.components.map Param.type
          ↔ call.node.spreads = 0)
      ∧ (call.node.bodyMembers.any (shape.isCanonical unit.context.symbols) = false →
          ∃ k ∈ call.own unit.context,
            ∃ f, k.added unit.context .functions = [.function f]
              ∧ (k ∈ unit.keptCalls →
                .function f ∈ (convert .tolerant unit).draft.file.group .functions)
              ∧ Build.Canonical shape f
              ∧ (shape.StoresAll f.params ↔ call.node.spreads = 0)) := by
  have hreturns := Call.returned_of_not_failed hreturned
  obtain ⟨findings, hanalyze, hcontext, -⟩ := exists_analyze_of_mem_calls hcall
  have htakes := Analysis.takesParameters_of_analyze hanalyze
  obtain ⟨height, hscript⟩ := hrecord.exists_record hreturns
  obtain ⟨hstruct, hcanonical⟩ := Build.exists_of_record (Build.convertsTypes_free _ height)
    hrecord.kind hscript hrecord.shape hreturns
  obtain ⟨haligned, hparams⟩ := RecordShape.aligned_of_ofNode hrecord.shape
  refine ⟨⟨hstruct, (mem_group_of_kept · hstruct)⟩, RecordShape.types_fields_iff haligned,
    fun hnone => ?_⟩
  obtain ⟨k, hk, hsought, hkbody⟩ := hcanonical hnone
  obtain ⟨u, d', hrun, hafter⟩ := (Call.returned_of_not_failed (hown k hk)).exists_run hkbody
  obtain ⟨record, f, hfound, hf, hcanonical, hstanding⟩ := Build.exists_of_canonicalConstructor hrun
  have hadded : k.added unit.context .functions = [.function f] :=
    Call.added_eq (by rw [hafter, hstanding, if_pos rfl, Draft.standing_openMember])
  rw [Build.node_of_recordShape hrecord.shape, hcontext] at hfound
  obtain ⟨types, list, hlist, htaken⟩ := parameters_of_takes hnumbers hnode hrecord.kind hbody
    (htakes _ _ (Symbols.find?_of_recorded hfound))
  refine ⟨k, hk, f, hadded,
    (mem_group_of_kept · (hadded ▸ List.mem_singleton_self _)), hcanonical, ?_⟩
  rw [hf]
  exact RecordShape.storesAll_iff haligned (hparams hlist htaken)

end

/-- The record `Note(int count, …)`, with the last component given. -/
def noteRecord (last : Node) : Node :=
  .tree 1 .recordDeclaration
    [.called 2 "Note",
     .parameterList 3
      [.tree 4 .formalParameter [.intType 5,
        .called 6 "count"], last],
     .plain 7 .classBody (some "body") "" []]

def noteUnit (last : Node) : CompilationUnit :=
  .ofTypes [noteRecord last]

/-- `int size` -/
def sizeComponent : Node :=
  .tree 8 .formalParameter [.intType 9,
    .called 10 "size"]

/-- `int... rest` -/
def restComponent : Node :=
  .tree 8 .spreadParameter [.leaf 9 .integralType "int",
    .tree 10 .variableDeclarator [.called 11 "rest"]]

def noteCall : Call :=
  firstCall (noteUnit sizeComponent) (noteRecord sizeComponent)

def noteShape : RecordShape where
  node := noteRecord sizeComponent
  name := "note"
  isPublic := false
  typeParams := []
  components := [⟨"count", "int"⟩, ⟨"size", "int"⟩]
  componentNames := ["count", "size"]

theorem note_keeps_components :
    noteShape.fields.map Code.Field.type = ["int", "int"]
      ∧ ∃ k ∈ noteCall.own (noteUnit sizeComponent).context,
          ∃ f, k.added (noteUnit sizeComponent).context .functions = [.function f]
            ∧ noteShape.StoresAll f.params := by
  have hmem : noteCall ∈ (noteUnit sizeComponent).calls :=
    firstCall_mem (by decide +kernel) rfl
  have hclean : ∀ k ∈ (noteUnit sizeComponent).calls,
      ¬ k.Failed (noteUnit sizeComponent).context :=
    not_failed_of_diagnostics_eq_nil (by with_unfolding_all rfl)
  have hrecord : noteCall.DeclaresRecord (noteUnit sizeComponent).context noteShape :=
    ⟨⟨⟨_, rfl⟩, rfl⟩, by with_unfolding_all rfl⟩
  have hnode : noteRecord sizeComponent ∈ (noteUnit sizeComponent).root.walk :=
    List.mem_of_getElem? (i := 1) rfl
  have hbody : ∀ body, (noteRecord sizeComponent).fieldChild? "body" = some body →
      body.kind = .classBody := by
    rintro _ ⟨⟩
    rfl
  obtain ⟨-, htypes, hcanonical⟩ := record_keeps_components_iff (by decide +kernel) hmem hrecord
    hnode hbody (hclean noteCall hmem)
    fun k hk => hclean k (mem_calls_of_mem_own hmem hk)
  obtain ⟨k, hk, f, hf, -, -, hstores⟩ := hcanonical rfl
  exact ⟨htypes.2 rfl, k, hk, f, hf, hstores.2 rfl⟩

/-- The component `rest` has neither a field nor a store. -/
theorem rest_not_kept :
    (convert .tolerant (noteUnit restComponent)).draft.diagnostics = []
      ∧ (convert .tolerant (noteUnit restComponent)).draft.file.group .types
        = [.struct { name := "note", fields := [⟨"Count", "int", true⟩], isPublic := false }]
      ∧ ∃ f, (convert .tolerant (noteUnit restComponent)).draft.file.group .functions
          = [.function f]
        ∧ f.params = [⟨"count", "int"⟩, ⟨"rest", "...int"⟩]
        ∧ f.body = [Lower.newValue "note",
            .assign (.field (.var "this") "Count") (.var "count"), Lower.returnSelf] := by
  refine ⟨by with_unfolding_all rfl, by with_unfolding_all rfl, _, by with_unfolding_all rfl,
    ?_, ?_⟩
  · with_unfolding_all rfl
  · with_unfolding_all rfl

end JavaToGo
