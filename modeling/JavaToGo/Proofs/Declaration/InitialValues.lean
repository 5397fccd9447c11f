import JavaToGo.Proofs.Declaration.ClassMembers

/-!
# Initial values and the parameters of constructors

Initial values are lowered once for each constructor, with its parameters in
view.  Two constructors set the fields alike when each identifier in the values is
a parameter of both or of neither.
-/

namespace JavaToGo

open JavaToGo.Tree (Node)
open List

def Scale.asking (asked : String → Prop) : Scale :=
  { Scale.nothing with asked := asked, lossy := False }

lemma inScopes_declareAll (names : List String) (scopes : List Scope) (name : String) :
    inScopes (declareAll names scopes) name = (decide (name ∈ names) || inScopes scopes name) := by
  induction names generalizing scopes with
  | nil => simp [declareAll]
  | cons first names ih =>
    rw [declareAll, foldl_cons, ← declareAll, ih, inScopes_declareIn]
    by_cases hfirst : name = first <;> simp [hfirst]

lemma inScopes_ofNames (names : List String) (name : String) :
    inScopes [Scope.ofNames names] name = decide (name ∈ names) := by
  have hall := inScopes_declareAll names [[]] name
  rw [declareAll_cons] at hall
  rw [Scope.ofNames, hall]
  simp [inScopes]

variable {f : DeclaredField} {fields : List DeclaredField} {node : Node}

namespace Lower

open Emits (AgreesAt)

variable {asked : String → Prop} {p : Setting}

lemma agrees_expressionWithin (height : Nat) : ∀ node : Node,
    (node.Everywhere fun n => n.kind = .identifier → asked n.text) →
    ∀ p, AgreesAt (.asking asked) p (expressionWithin height node) := by
  induction height with
  | zero => exact fun _ _ _ _ _ _ _ halike => ⟨rfl, halike⟩
  | succ height ih =>
    intro node hnode p
    have hrule : EmitsValue (.asking asked) (expressionWithin height)
        (fun _ => throw (.fault .tooDeep)) p (Part.ofValue p.types node) 0
        (expressionWithin (height + 1) node) := by
      refine emits_expressionStep ⟨fun _ _ _ => trivial, fun n hn => ?_,
        fun _ _ => .of_placed fun _ => trivial, fun _ => trivial⟩
      rcases mem_cons.1 hn with rfl | hchild
      · exact hnode.here
      · exact (hnode.child hchild).here
    refine hrule.agrees id (composed_expressionWithin height)
      (fun _ => .fault (by simp [Fault.IsOther, Fault.kind])) fun q hq => ?_
    have hbelow := Part.hold_ofValue hnode p.types q hq
    cases q with
    | value inner => exact fun b => ih inner hbelow _
    | maybe inner => exact fun b => ih inner hbelow _
    | code b inner => exact fun _ _ _ _ halike => ⟨rfl, halike⟩
    | step => trivial

lemma agrees_fieldInitializer (h : ∀ value, f.value = some value →
      value.Everywhere fun n => n.kind = .identifier → asked n.text) :
    AgreesAt (.asking asked) p (fieldInitializer f) := by
  unfold fieldInitializer
  cases hvalue : f.value with
  | none => exact fun _ _ _ _ halike => ⟨rfl, halike⟩
  | some node =>
    have hnode : AgreesAt (.asking asked) p (expecting (some f.goType) (expression node)) :=
      fun c t t' hc => agrees_expressionWithin node.height node (h node hvalue) p
        { c with expected := some f.goType } t t' hc
    exact hnode.bind (fun _ _ _ _ _ _ => trivial) fun a (_ : True) _ _ _ _ halike =>
      ⟨rfl, halike⟩

lemma agrees_fieldInitializers : ∀ {fields : List DeclaredField},
    (∀ f ∈ fields, ∀ value, f.value = some value →
      value.Everywhere fun n => n.kind = .identifier → asked n.text) →
    AgreesAt (.asking asked) p (fieldInitializers fields)
  | [], _ => fun _ _ _ _ halike => ⟨rfl, halike⟩
  | f :: fields, h => by
    refine (agrees_fieldInitializer (h f mem_cons_self)).bind
      (fun _ _ _ _ _ _ => trivial) fun first (_ : True) => ?_
    have hrest := agrees_fieldInitializers fun g hg => h g (mem_cons_of_mem _ hg)
    exact hrest.bind (fun _ _ _ _ _ _ => trivial) fun rest (_ : True) _ _ _ _ halike =>
      ⟨rfl, halike⟩

end Lower

/-- The identifiers in the initial values. -/
def initialNames (fields : List DeclaredField) : List String :=
  (instanceFields fields).flatMap fun f => f.value.toList.flatMap fun value =>
    (value.walk.filter fun n => n.kind == .identifier).map Node.text

lemma mem_byName : f ∈ DeclaredField.byName fields ↔ f ∈ fields :=
  mem_mergeSort

lemma mem_initialNames (hf : f ∈ instanceFields fields) (hvalue : f.value = some value) :
    value.Everywhere fun n => n.kind = .identifier → n.text ∈ initialNames fields := by
  intro n hn hkind
  refine mem_flatMap.2 ⟨f, hf, mem_flatMap.2 ⟨value, Option.mem_toList.2 hvalue, ?_⟩⟩
  exact mem_map.2 ⟨n, mem_filter.2 ⟨hn, by simp [hkind]⟩, rfl⟩

namespace ClassShape

variable {shape : ClassShape} {fields : List DeclaredField} {c : Context} {node : Node}
  {params : List String}

/-- What a constructor with these parameters puts before its body. -/
def preamble (shape : ClassShape) (fields : List DeclaredField) (params : List String) :
    Lower (List Stmt) :=
  Lower.withReceiver (shape.receiver "this" fields) <| Lower.withTypeParams shape.typeParams <|
    Lower.withFunctionScope params (some { type := some shape.structType }) <|
      Lower.constructorPreamble shape.structType fields

def constructorContext (shape : ClassShape) (fields : List DeclaredField) (c : Context) :
    Context :=
  Lower.constructorContext c shape.structType (shape.receiver "this" fields) shape.typeParams

lemma fst_runAt_preamble (shape : ClassShape) (fields : List DeclaredField)
    (params : List String) (c : Context) (t : Trail) :
    ((shape.preamble fields params).runAt c t).1
      = ((Lower.constructorPreamble shape.structType fields).runAt
          (shape.constructorContext fields c) { t with scopes := [Scope.ofNames params] }).1 :=
  rfl

lemma preamble_congr (h : ∀ name ∈ initialNames fields, name ∈ params ↔ name ∈ params')
    (t t' : Trail) :
    ((shape.preamble fields params').runAt c t').1
      = ((shape.preamble fields params).runAt c t).1 := by
  have hvalues : ∀ f ∈ DeclaredField.byName (instanceFields fields), ∀ value,
      f.value = some value → value.Everywhere fun n => n.kind = .identifier →
        n.text ∈ initialNames fields :=
    fun f hf value hvalue => mem_initialNames (mem_byName.1 hf) hvalue
  have hagrees : Lower.Emits.AgreesAt (.asking (· ∈ initialNames fields))
      (shape.constructorContext fields c).setting
      (Lower.constructorPreamble shape.structType fields) := by
    refine (Lower.agrees_fieldInitializers hvalues).bind (fun _ _ _ _ _ _ => trivial)
      fun initial (_ : True) => ?_
    split <;> exact fun _ _ _ _ halike => ⟨rfl, halike⟩
  refine (hagrees _ _ _ rfl fun name hname => ?_).1
  have hsame := h name hname
  rw [inScopes_ofNames, inScopes_ofNames]
  exact decide_eq_decide.2 hsame.symm

/-- The constructor is converted to the function. -/
def Constructs (shape : ClassShape) (fields : List DeclaredField) (c : Context) (node : Node)
    (f : Code.Function) : Prop :=
  ∃ t t', (Lower.constructor node shape.structType (shape.receiver "this" fields) fields
    shape.typeParams).runAt c t = (.ok f, t')

/-- The function begins with what the initial values become among the parameters. -/
structure Begins (shape : ClassShape) (fields : List DeclaredField) (c : Context) (node : Node)
    (f : Code.Function) (params : List String) (ss : List Stmt) : Prop where
  formals : node.formalNames = .ok params
  preamble : ((shape.preamble fields params).runAt c {}).1 = .ok ss
  body : ∃ rest, f.body = ss ++ rest ++ [Lower.returnSelf]

lemma Constructs.exists_begins {f : Code.Function} (h : shape.Constructs fields c node f) :
    ∃ params ss, shape.Begins fields c node f params ss := by
  obtain ⟨t, t', hrun⟩ := h
  obtain ⟨params, body, ss, rest, t₁, t₂, t₃, hparams, -, hpreamble, -, hbody, -⟩ :=
    Lower.exists_of_runAt_constructor hrun
  refine ⟨params, ss, hparams, ?_, rest, hbody⟩
  rw [preamble_congr (fun _ _ => Iff.rfl) t₁ {}]
  exact congrArg Prod.fst hpreamble

end ClassShape

section

variable {goName : String} {c : Context}

namespace Lower

/-- What a plain name of a field becomes. -/
def bareName (c : Context) (scopes : List Scope) (name goName : String) : Expr :=
  if inScopes scopes name then .var (Code.avoidReserved name)
  else .field (.var c.receiver.selfText) goName

lemma returns_bareName (hkind : node.kind = .identifier) (hself : c.receiver.kind = .method)
    (hfield : c.receiver.fields.find? node.text = some goName) :
    (expression node).Returns c t { value := bareName c t.scopes node.text goName } := by
  obtain ⟨go, hgo⟩ := exists_expression_eq node
  rw [hgo, expressionStep, hkind]
  refine .bind (a := bareName c t.scopes node.text goName) ?_ (.pure _)
  refine .bind (returns_isLocal node.text) ?_
  unfold bareName
  split
  · exact .pure _
  · have hhas : c.receiver.hasSelf = true := by simp [Receiver.hasSelf, hself]
    have hknown : c.receiver.fields.contains node.text = true := by
      simp [Table.contains, hfield]
    refine .bind returns_receiver ?_
    rw [if_pos (by simp [hhas, hknown])]
    refine .bind returns_receiver ?_
    rw [if_neg (by simp [hself]), hfield]
    refine .bind (.bind returns_receiver ?_) (.pure _)
    rw [if_pos hhas]
    exact .pure _

lemma grows_fieldInitializer {allowed : String → Prop}
    (hf : ∀ value, f.value = some value → value.PatternsIn allowed)
    (h : (fieldInitializer f).runAt c t = (.ok ss, t')) : Grows allowed t.scopes t'.scopes := by
  unfold fieldInitializer at h
  cases hvalue : f.value with
  | none =>
    rw [hvalue] at h
    cases h
    exact .refl _
  | some node =>
    rw [hvalue] at h
    obtain ⟨a, t₁, hrun, ⟨⟩⟩ := exists_of_bind h
    have hgrows := (((binds_expression (hf node hvalue)).expecting (some f.goType)) c t).1
    rwa [hrun] at hgrows

/-- A field whose initial value is the name of another field is set to what that name refers to
before any initial value is lowered, when no type pattern binds the name. -/
lemma bareName_mem_fieldInitializers (hvalue : f.value = some node)
    (hkind : node.kind = .identifier) (hself : c.receiver.kind = .method)
    (hfield : c.receiver.fields.find? node.text = some goName) :
    ∀ {fields : List DeclaredField} {t t' : Trail} {ss : List Stmt}, f ∈ fields →
      (∀ g ∈ fields, ∀ value, g.value = some value → value.PatternsIn (· ≠ node.text)) →
      (fieldInitializers fields).runAt c t = (.ok ss, t') →
      .assign (.field (.var "this") ((c.receiver.fields.find? f.javaName).getD f.name))
        (bareName c t.scopes node.text goName) ∈ ss
  | [], _, _, _, hf, _, _ => absurd hf not_mem_nil
  | g :: fields, t, t', ss, hf, hpatterns, hrun => by
    simp only [fieldInitializers, runAt_bind_eq_ok] at hrun
    obtain ⟨first, t₁, hfirst, rest, t₂, hrest, ⟨⟩⟩ := hrun
    rcases mem_cons.1 hf with rfl | hlater
    · refine mem_append_left _ ?_
      unfold fieldInitializer at hfirst
      rw [hvalue] at hfirst
      have hbare : (expecting (some f.goType) (expression node)).Returns c t
          { value := bareName c t.scopes node.text goName } :=
        returns_bareName (c := { c with expected := some f.goType }) hkind hself hfield
      rw [hbare.runAt_bind] at hfirst
      cases hfirst
      exact mem_singleton.2 rfl
    · refine mem_append_right _ ?_
      have hgrows := grows_fieldInitializer (hpatterns g mem_cons_self) hfirst
      have hsame : inScopes t₁.scopes node.text = inScopes t.scopes node.text :=
        hgrows.inScopes_eq fun h => h rfl
      have hmem := bareName_mem_fieldInitializers hvalue hkind hself hfield hlater
        (fun g hg => hpatterns g (mem_cons_of_mem _ hg)) hrest
      rwa [bareName, hsame] at hmem

end Lower

lemma ClassShape.bareName_mem_preamble {shape : ClassShape}
    (h : ((shape.preamble fields params).runAt c {}).1 = .ok ss) (hf : f ∈ instanceFields fields)
    (hvalue : f.value = some value) (hkind : value.kind = .identifier)
    (hfield : (shape.fieldNames fields).find? value.text = some goName)
    (hpatterns : ∀ g ∈ instanceFields fields, ∀ v,
      g.value = some v → v.PatternsIn (· ≠ value.text)) :
    .assign (.field (.var "this") (((shape.fieldNames fields).find? f.javaName).getD f.name))
      (if value.text ∈ params then .var (Code.avoidReserved value.text)
        else .field (.var "this") goName) ∈ ss := by
  rw [fst_runAt_preamble] at h
  rcases hrun : (Lower.constructorPreamble shape.structType fields).runAt
    (shape.constructorContext fields c) { scopes := [Scope.ofNames params] } with ⟨outcome, t'⟩
  rw [hrun] at h
  cases h
  obtain ⟨initial, t₁, hinitial, hlast⟩ := Lower.exists_of_bind hrun
  have hmem := Lower.bareName_mem_fieldInitializers hvalue hkind rfl hfield (mem_byName.2 hf)
    (fun g hg => hpatterns g (mem_byName.1 hg)) hinitial
  rw [Lower.bareName, inScopes_ofNames] at hmem
  simp only [decide_eq_true_eq] at hmem
  split at hlast
  · rename_i hempty
    rw [List.isEmpty_iff.1 hempty] at hmem
    exact absurd hmem not_mem_nil
  · cases hlast
    exact mem_cons_of_mem _ (mem_cons_of_mem _ hmem)

end

/-- For every class and any two of its constructors that are lowered: the functions begin with what
the initial values of the fields become; they begin alike when each identifier in these values is a
parameter of both or of neither; and the name of a field that is an initial value by itself, and
that no type pattern binds, denotes the field exactly when it is no parameter. -/
theorem constructors_begin_alike {shape : ClassShape} {fields : List DeclaredField} {c : Context}
    {node node' : Node} {f f' : Code.Function} (h : shape.Constructs fields c node f)
    (h' : shape.Constructs fields c node' f') :
    ∃ params params' ss ss', shape.Begins fields c node f params ss
      ∧ shape.Begins fields c node' f' params' ss'
      ∧ ((∀ name ∈ initialNames fields, name ∈ params ↔ name ∈ params') → ss' = ss)
      ∧ ∀ g ∈ instanceFields fields, ∀ value goName, g.value = some value →
          value.kind = .identifier → (shape.fieldNames fields).find? value.text = some goName →
          (∀ other ∈ instanceFields fields, ∀ v, other.value = some v →
            v.PatternsIn (· ≠ value.text)) →
          .assign (.field (.var "this") (((shape.fieldNames fields).find? g.javaName).getD g.name))
            (if value.text ∈ params then .var (Code.avoidReserved value.text)
              else .field (.var "this") goName) ∈ ss := by
  obtain ⟨params, ss, hbegins⟩ := h.exists_begins
  obtain ⟨params', ss', hbegins'⟩ := h'.exists_begins
  refine ⟨params, params', ss, ss', hbegins, hbegins', fun hnames => ?_, ?_⟩
  · have hsame : ((shape.preamble fields params').runAt c {}).1
        = ((shape.preamble fields params).runAt c {}).1 :=
      ClassShape.preamble_congr hnames {} {}
    rw [hbegins.preamble, hbegins'.preamble] at hsame
    exact Except.ok.inj hsame
  · intro g hg value goName hvalue hkind hfield hpatterns
    exact ClassShape.bareName_mem_preamble hbegins.preamble hg hvalue hkind hfield hpatterns

/-- The constructor of `A` with `int` parameters of the given names. -/
def emptyConstructor (number : Nat) (params : List String) : Node :=
  .tree number .constructorDeclaration
    [.called (number + 1) "A",
     .parameterList (number + 2)
       (params.map fun name => .tree (number + 4) .formalParameter
         [.intType (number + 5),
          .called (number + 6) name]),
     .plain (number + 3) (.other "constructor_body") (some "body") "" []]

/-- The class `A` with the fields `int x, y = x`, the constructor `A()` and one with parameters. -/
def initializedClass (params : List String) : Node :=
  .plainClass 1 [] "A" []
    [.tree 10 .fieldDeclaration
      [.intType 11,
       .plain 12 .variableDeclarator (some "declarator") ""
         [.called 13 "x"],
       .plain 14 .variableDeclarator (some "declarator") ""
         [.called 15 "y",
          .plain 16 .identifier (some "value") "x" []]],
     emptyConstructor 20 [], emptyConstructor 30 params]

def initializedUnit (params : List String) : CompilationUnit :=
  .ofTypes [initializedClass params]

def initializedShape (params : List String) : ClassShape where
  node := initializedClass params
  javaName := "A"
  name := "a"
  isPublic := false
  typeParams := []
  superclass := none
  ancestry := []

def initializedFields : List DeclaredField :=
  [{ javaName := "x", goType := "int" },
   { javaName := "y", goType := "int",
     value := some (.plain 16 .identifier (some "value") "x" []) }]

lemma byName_initializedFields :
    DeclaredField.byName (instanceFields initializedFields) = initializedFields :=
  mergeSort_of_pairwise (by decide)

/-- A constructor of the class is lowered, and begins with the statements. -/
def InitializesWith (name : String) (node : Node) (params : List String) (ss : List Stmt) : Prop :=
  ∃ f, (initializedShape [name]).Constructs initializedFields
      (initializedUnit [name]).context node f
    ∧ (initializedShape [name]).Begins initializedFields (initializedUnit [name]).context
      node f params ss

/-- Both constructors of the class can be lowered, whatever the parameter is called. -/
lemma exists_constructs_initialized (hname : name = "x" ∨ name = "z")
    (hnode : node = emptyConstructor 20 [] ∨ node = emptyConstructor 30 [name]) :
    ∃ f, (initializedShape [name]).Constructs initializedFields
      (initializedUnit [name]).context node f := by
  have hok : ((Lower.constructor node "a" ((initializedShape [name]).receiver "this"
      initializedFields) initializedFields []).runAt
      (initializedUnit [name]).context {}).1.isOk = true := by
    unfold Lower.constructor Lower.constructorPreamble
    simp only [byName_initializedFields]
    rcases hname with rfl | rfl <;> rcases hnode with rfl | rfl <;> decide +kernel
  rcases hrun : (Lower.constructor node "a" ((initializedShape [name]).receiver "this"
    initializedFields) initializedFields []).runAt (initializedUnit [name]).context {}
    with ⟨outcome, t'⟩
  rw [hrun] at hok
  cases outcome with
  | ok f => exact ⟨f, {}, t', hrun⟩
  | error => cases hok

/-- `A()` and `A(int z)` set `y` to the field `x`. -/
theorem constructors_begin_alike_of_unrelated :
    ∃ ss, InitializesWith "z" (emptyConstructor 20 []) [] ss
      ∧ InitializesWith "z" (emptyConstructor 30 ["z"]) ["z"] ss
      ∧ .assign (.field (.var "this") "y") (.field (.var "this") "x") ∈ ss := by
  obtain ⟨f, hf⟩ := exists_constructs_initialized (.inr rfl) (.inl rfl)
  obtain ⟨f', hf'⟩ := exists_constructs_initialized (.inr rfl) (.inr rfl)
  obtain ⟨params, params', ss, ss', hbegins, hbegins', halike, hbare⟩ :=
    constructors_begin_alike hf hf'
  obtain rfl : [] = params := Except.ok.inj hbegins.formals
  obtain rfl : ["z"] = params' := Except.ok.inj hbegins'.formals
  have hnames : initialNames initializedFields = ["x"] := by decide +kernel
  obtain rfl : ss' = ss := halike (by simp [hnames])
  refine ⟨ss', ⟨f, hf, hbegins⟩, ⟨f', hf', hbegins'⟩, ?_⟩
  refine hbare _ (List.mem_cons_of_mem _ (List.mem_singleton.2 rfl)) _ "x" rfl rfl
    (by decide +kernel) ?_
  intro other hother v hv n hn hkind
  rcases List.mem_cons.1 hother with rfl | hother
  · cases hv
  · obtain rfl := List.mem_singleton.1 hother
    cases hv
    obtain rfl := List.mem_singleton.1 hn
    cases hkind

/-- `A()` sets `y` to the field `x`, and `A(int x)` sets it to the parameter. -/
theorem shadowed_field_differs :
    ∃ ss ss', InitializesWith "x" (emptyConstructor 20 []) [] ss
      ∧ InitializesWith "x" (emptyConstructor 30 ["x"]) ["x"] ss'
      ∧ ss.map Code.Stmt.text
        = ["this := a\x7b\x7d", "// Default field initializations", "this.y = this.x"]
      ∧ ss'.map Code.Stmt.text
        = ["this := a\x7b\x7d", "// Default field initializations", "this.y = x"] := by
  obtain ⟨f, hf⟩ := exists_constructs_initialized (.inl rfl) (.inl rfl)
  obtain ⟨f', hf'⟩ := exists_constructs_initialized (.inl rfl) (.inr rfl)
  obtain ⟨params, ss, hbegins⟩ := hf.exists_begins
  obtain ⟨params', ss', hbegins'⟩ := hf'.exists_begins
  obtain rfl : [] = params := Except.ok.inj hbegins.formals
  obtain rfl : ["x"] = params' := Except.ok.inj hbegins'.formals
  have hss := hbegins.preamble
  have hss' := hbegins'.preamble
  rw [ClassShape.fst_runAt_preamble, Lower.constructorPreamble, byName_initializedFields]
    at hss hss'
  obtain rfl := Except.ok.inj hss
  obtain rfl := Except.ok.inj hss'
  exact ⟨_, _, ⟨f, hf, hbegins⟩, ⟨f', hf', hbegins'⟩, by decide +kernel, by decide +kernel⟩

end JavaToGo
