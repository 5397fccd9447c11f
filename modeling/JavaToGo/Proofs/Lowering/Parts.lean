import JavaToGo.Lowering.Statement
import JavaToGo.Proofs.Lowering.Subtree

/-!
# The parts that rules lower

The left side of a compound assignment is read and then written, and of the
arguments of a new list only the first is looked at.
-/

namespace JavaToGo

open JavaToGo.Tree (Node)
open List

/-- What a rule lowers; a statement stands with the mode that it is lowered in. -/
inductive Part where
  | value (node : Node)
  /-- It lowers an operand for its value, or does not. -/
  | maybe (node : Node)
  /-- It lowers a statement; the flag says whether switches in it are returned. -/
  | code (inReturn : Bool) (node : Node)
  /-- It writes an increment or a decrement. -/
  | step

namespace Part

def optional (node : Node) (field : String) (parts : Node → List Part) : List Part :=
  (node.fieldChild? field).elim [] parts

def field (node : Node) (name : String) : List Part :=
  optional node name fun child => [.value child]

def fields (node : Node) : List String → List Part
  | [] => []
  | name :: names => field node name ++ fields node names

def block (inReturn : Bool) (node : Node) : List Part :=
  node.operands.map (.code inReturn)

/-- What is read, unless a name turns out to be that of a type. -/
def object (target : Node) : List Part :=
  if target.kind = .identifier then [.maybe target] else [.value target]

/-- What a field or a method is taken from. -/
def holder : Option Node → List Part
  | none => []
  | some target =>
    if target.kind = .self ∨ target.kind = .super then [] else object target

def valueIdiom (s : Symbols) (target : Node) (name : String) (args : List Node) :
    Option (List Node) :=
  match name, args with
  | "equals", [arg] => some [target, arg]
  | "size", [] =>
    if (s.methodOverloads name).any fun o => o.argumentTypes.isEmpty then none else some [target]
  | "length", [] => if s.methods.contains name then none else some [target]
  | "isEmpty", [] => if s.methods.contains name then none else some [target]
  | "toArray", _ => if s.methods.contains name then none else some [target]
  | "add", [arg] => if s.methods.contains name then none else some [target, arg]
  | "name", [] => if s.methods.contains name then none else some [target]
  | _, _ => none

def libraryIdiom (s : Symbols) (target : Node) (name : String) (args : List Node) :
    Option (List Node) :=
  if target.text = "Arrays" && name = "asList" then some args
  else if (target.text = "System.out" || target.text = "System.err")
      && (Lower.printFunctions.lookup name).isSome then some args
  else valueIdiom s target name args

/-- The operands of a call that Go writes differently. -/
def idiom (s : Symbols) (target : Option Node) (name : String) (args : List Node) :
    Option (List Node) :=
  match target with
  | none => none
  | some t => if t.kind = .self || t.kind = .super then none else libraryIdiom s t name args

/-- A call; unless it is an idiom the arguments are lowered first. -/
def methodInvocation (s : Symbols) (node : Node) : List Part :=
  optional node "name" fun name => optional node "arguments" fun arguments =>
    (idiom s (node.fieldChild? "object") name.text arguments.operands).elim
      (arguments.operands.map .value ++ holder (node.fieldChild? "object")) (List.map .value)

/-- The arguments of a creation that are looked at. -/
def creationArguments (goType : String) (args : List Node) : List Node :=
  if Code.isSliceType (some goType) then args.take 1
  else if Code.isMapType (some goType) then [] else args

def objectCreation (c : TypeContext) (node : Node) : List Part :=
  optional node "type" fun type => optional node "arguments" fun arguments =>
    match typeOf c type with
    | .ok goType => (creationArguments goType arguments.operands).map .value
    | .error _ => []

def arrayCreation (node : Node) : List Part :=
  match node.fieldChild? "value" with
  | some initializer => initializer.operands.map .value
  | none => ((Lower.arrayDimensions node).1.take 1).map .value

/-- An assignment; the place is read before it is written unless the operator is plain. -/
def assignment (node : Node) : List Part :=
  optional node "operator" fun operator =>
    field node "right"
      ++ (if operator.text = "=" then [] else field node "left") ++ field node "left"

def update (node : Node) : List Part :=
  match node.updateParts with
  | .ok parts => [.value parts.1, .step]
  | .error _ => []

def updateValue (node : Node) : List Part :=
  match node.updateParts with
  | .ok parts => [.value parts.1, .step, .value parts.1]
  | .error _ => []

def parenthesized (node : Node) : List Part :=
  match node.operands with
  | [inner] => [.value inner]
  | _ => []

/-- The parts of an expression in the order in which they are lowered, as often as they are. -/
def ofValue (c : TypeContext) (node : Node) : List Part :=
  match node.kind with
  | .fieldAccess => holder (node.fieldChild? "object")
  | .arrayAccess => fields node ["array", "index"]
  | .methodInvocation => methodInvocation c.symbols node
  | .objectCreation => objectCreation c node
  | .arrayCreation => arrayCreation node
  | .arrayInitializer => node.operands.map .value
  | .assignment => assignment node ++ field node "left"
  | .binary => fields node ["left", "right"]
  | .unary => fields node ["operand"]
  | .update => updateValue node
  | .parenthesized => parenthesized node
  | .cast => fields node ["value"]
  | .instanceOf => fields node ["left"]
  | .ternary => fields node ["condition", "consequence", "alternative"]
  | _ => []

section

variable (inReturn : Bool)

def body (node : Node) : List Part :=
  if node.kind = .block then block inReturn node else [.code inReturn node]

/-- Whether an expression is a call that adds to a list. -/
def isAdd (s : Symbols) (node target : Node) : Bool :=
  node.kind = .methodInvocation && target.kind != .self && target.kind != .super
    && !s.methods.contains "add"
    && (node.fieldChild? "name").any (fun name => name.text = "add")
    && (node.fieldChild? "arguments").any fun arguments => arguments.operands.length = 1

/-- Whether an expression is a call on a value.  A list that is made an array may be one that was
added to. -/
def isCall (node target : Node) : Bool :=
  node.kind = .methodInvocation && target.kind != .self && target.kind != .super
    && target.kind != .identifier
    && (node.fieldChild? "name").any (fun name => name.text != "toArray")
    && (node.fieldChild? "arguments").isSome

def effect (s : Symbols) (node : Node) : List Part :=
  .value node :: optional node "object" fun target =>
    if isAdd s node target then [.value target]
    else if isCall node target then [] else [.maybe target]

def stored (s : Symbols) (node : Node) : List Node :=
  (node.fieldChild? "object").toList.filter fun target => isAdd s node target || !isCall node target

/-- What a statement assigns to or steps. -/
def places (s : Symbols) (node : Node) : List Node :=
  match node.kind with
  | .assignment => (node.fieldChild? "left").toList
  | .update => node.updateParts.toOption.toList.map Prod.fst
  | .expressionStatement => node.operands.flatMap (stored s)
  | _ => []

def headerStep (node : Node) : List Part :=
  match node.kind with
  | .assignment => assignment node
  | .update => update node
  | _ => [.value node]

def localVariables (node : Node) : List Part :=
  (node.fieldChildren "declarator").flatMap fun declarator => field declarator "value"

def headerInit (node : Node) : List Part :=
  if node.kind = .localVariableDeclaration then localVariables node else headerStep node

def forLoop (node : Node) : List Part :=
  (node.fieldChildren "init").flatMap headerInit
    ++ (field node "condition"
      ++ ((node.fieldChildren "update").flatMap headerStep
        ++ optional node "body" (body inReturn)))

def labels (group : Node) : List Part :=
  (group.childrenOfKind .switchLabel).flatMap fun label => label.operands.map .value

def ruleBody (node : Node) : List Part :=
  if node.kind = .block then block inReturn node
  else if node.kind = .expressionStatement && inReturn then (node.operands.take 1).map .value
  else [.code inReturn node]

def clause (group : Node) : List Part :=
  match group.kind with
  | .switchRule => (Lower.clauseNodes group).flatMap (ruleBody inReturn)
  | _ => (Lower.clauseNodes group).map (.code inReturn)

def switch (node : Node) : List Part :=
  field node "condition"
    ++ optional node "body" fun body =>
      body.operands.flatMap fun group => labels group ++ clause inReturn group

def expressionStatement (s : Symbols) (node : Node) : List Part :=
  match node.operands with
  | [inner] =>
    match inner.kind with
    | .assignment => assignment inner
    | .update => update inner
    | .switchExpression => switch inReturn inner
    | _ => effect s inner
  | _ => []

def returned (node : Node) : List Part :=
  match node.operands with
  | [] => []
  | first :: _ => if first.kind = .switchExpression then switch true first else [.value first]

def thrown (node : Node) : List Part :=
  match node.operands with
  | [only] =>
    if only.kind = .objectCreation then
      optional only "type" fun type =>
        if type.text ∈ Lower.libraryExceptions then
          optional only "arguments" fun arguments => arguments.operands.map .value
        else []
    else [.value only]
  | _ => []

def resource (node : Node) : List Part :=
  match node.fieldChild? "name" with
  | none => (node.operands.take 1).map .value
  | some _ => field node "value"

/-- The handlers of a clause, each with a body of its own. -/
def catches (node : Node) : List Part :=
  optional node "body" fun body =>
    (((node.childOfKind? .catchFormalParameter).bind fun parameter =>
        parameter.childOfKind? .catchType).elim [] Node.operands).flatMap
      fun _ => block inReturn body

def handler (node : Node) (later : List Node) : List Part :=
  match node.kind with
  | .catchClause => catches inReturn node
  | .finallyClause =>
    if later.any fun n => n.kind = .finallyClause then []
    else (node.childOfKind? .block).elim [] (block inReturn)
  | _ => []

def handlers : List Node → List Part
  | [] => []
  | node :: nodes => handler inReturn node nodes ++ handlers nodes

def tryStatement (node : Node) : List Part :=
  (optional node "resources" fun list => (list.childrenOfKind .resource).flatMap resource)
    ++ optional node "body" (block inReturn) ++ handlers inReturn node.children

def labeled (node : Node) : List Part :=
  match node.childOfKind? .identifier with
  | none => []
  | some label => (node.operands.filter fun n => n.id != label.id).map (.code inReturn)

/-- The parts of a statement in the order in which they are lowered, as often as they are. -/
def ofCode (c : TypeContext) (node : Node) : List Part :=
  match node.kind with
  | .block => block inReturn node
  | .expressionStatement => expressionStatement inReturn c.symbols node
  | .localVariableDeclaration => localVariables node
  | .ifStatement =>
    field node "condition" ++ optional node "consequence" (body inReturn)
      ++ optional node "alternative" (body inReturn)
  | .whileStatement => field node "condition" ++ optional node "body" (body inReturn)
  | .doStatement => optional node "body" (body inReturn) ++ field node "condition"
  | .forStatement => forLoop inReturn node
  | .enhancedForStatement => field node "value" ++ optional node "body" (body inReturn)
  | .returnStatement => returned node
  | .yieldStatement => node.operands.map .value
  | .throwStatement => thrown node
  | .switchExpression => switch inReturn node
  | .tryStatement | .tryWithResourcesStatement => tryStatement inReturn node
  | .assertStatement => (node.operands.take 2).map .value
  | .labeledStatement => labeled inReturn node
  | .explicitConstructorInvocation =>
    optional node "arguments" fun arguments => arguments.operands.map .value
  | _ => []

end

def sum (met : Part → Nat) : List Part → Nat
  | [] => 0
  | q :: qs => met q + sum met qs

section

variable {met : Part → Nat}

@[simp] lemma sum_append (qs rs : List Part) : sum met (qs ++ rs) = sum met qs + sum met rs := by
  induction qs with
  | nil => simp [sum]
  | cons q qs ih => simp [sum, ih, Nat.add_assoc]

lemma sum_replicate (q : Part) (n : Nat) : sum met (List.replicate n q) = n * met q := by
  induction n with
  | zero => simp [sum]
  | succ _ ih => rw [replicate_succ, sum, ih, Nat.succ_mul, Nat.add_comm]

lemma sum_eq_zero (h : ∀ q ∈ qs, met q = 0) : sum met qs = 0 := by
  induction qs with
  | nil => rfl
  | cons q qs ih =>
    rw [sum, h q mem_cons_self, ih fun r hr => h r (mem_cons_of_mem _ hr)]

end

/-- The property holds all over the part. -/
def Everywhere (P : Node → Prop) : Part → Prop
  | .value node | .maybe node | .code _ node => node.Everywhere P
  | .step => ∃ node : Node, node.kind = .update ∧ P node

def Hold (P : Node → Prop) (parts : List Part) : Prop :=
  ∀ q ∈ parts, q.Everywhere P

variable {P : Node → Prop} {node : Node}

lemma Hold.nil : Hold P [] :=
  forall_mem_nil _

lemma Hold.append (h : Hold P parts) (hmore : Hold P more) : Hold P (parts ++ more) :=
  forall_mem_append.2 ⟨h, hmore⟩

variable {nodes : List Node}

lemma Hold.flatMap {f : Node → List Part} (h : ∀ n ∈ nodes, Hold P (f n)) :
    Hold P (nodes.flatMap f) := by
  intro q hq
  obtain ⟨n, hn, hmem⟩ := mem_flatMap.1 hq
  exact h n hn q hmem

lemma Hold.values (h : ∀ n ∈ nodes, n.Everywhere P) : Hold P (nodes.map .value) :=
  forall_mem_map.2 h

lemma Hold.codes (h : ∀ n ∈ nodes, n.Everywhere P) (b : Bool) : Hold P (nodes.map (.code b)) :=
  forall_mem_map.2 h

lemma Hold.cons {q : Part} (hq : q.Everywhere P) (h : Hold P parts) : Hold P (q :: parts) :=
  forall_mem_cons.2 ⟨hq, h⟩

lemma Hold.single {q : Part} (h : q.Everywhere P) : Hold P [q] :=
  .cons h .nil

section

variable (h : node.Everywhere P)
include h

lemma hold_optional {field : String} {parts : Node → List Part}
    (hparts : ∀ child, child.Everywhere P → Hold P (parts child)) :
    Hold P (optional node field parts) := by
  unfold optional
  cases hchild : node.fieldChild? field with
  | none => exact .nil
  | some child => exact hparts child (h.part? hchild)

lemma hold_operands : Hold P (node.operands.map .value) :=
  .values fun _ hn => h.operand hn

lemma hold_block (b : Bool) : Hold P (block b node) :=
  .codes (fun _ hn => h.operand hn) b

lemma hold_field (name : String) : Hold P (field node name) :=
  hold_optional h fun _ hchild => .single hchild

lemma hold_fields : ∀ names, Hold P (fields node names)
  | [] => .nil
  | name :: names => (hold_field h name).append (hold_fields names)

end

section

lemma hold_holder (h : ∀ t, target = some t → t.Everywhere P) : Hold P (holder target) := by
  unfold holder object
  split
  · exact .nil
  · rename_i target
    split
    · exact .nil
    · split
      · exact .single (h target rfl)
      · exact .single (h target rfl)

lemma mem_of_valueIdiom (h : valueIdiom s target name args = some operands) :
    ∀ n ∈ operands, n ∈ target :: args := by
  unfold valueIdiom at h
  split at h
  case h_1 => cases h; simp
  case h_8 => cases h
  all_goals
    split at h
    · cases h
    · cases h
      simp

lemma mem_of_idiom (h : idiom s target name args = some operands) :
    ∀ n ∈ operands, target = some n ∨ n ∈ args := by
  unfold idiom libraryIdiom at h
  split at h
  · cases h
  · rename_i target
    split at h
    · cases h
    · split at h
      · cases h
        exact fun n hn => .inr hn
      · split at h
        · cases h
          exact fun n hn => .inr hn
        · intro n hn
          rcases mem_cons.1 (mem_of_valueIdiom h n hn) with rfl | harg
          · exact .inl rfl
          · exact .inr harg

variable (h : node.Everywhere P)
include h

lemma hold_methodInvocation (s : Symbols) : Hold P (methodInvocation s node) := by
  refine hold_optional h fun name _ => hold_optional h fun arguments harguments => ?_
  cases hidiom : idiom s (node.fieldChild? "object") name.text arguments.operands with
  | none => exact (hold_operands harguments).append (hold_holder fun t ht => h.part? ht)
  | some =>
    refine .values fun n hn => ?_
    rcases mem_of_idiom hidiom n hn with htarget | harg
    · exact h.part? htarget
    · exact harguments.operand harg

lemma hold_objectCreation (c : TypeContext) : Hold P (objectCreation c node) := by
  refine hold_optional h fun type _ => hold_optional h fun arguments harguments => ?_
  split
  · refine .values fun n hn => harguments.operand ?_
    unfold creationArguments at hn
    split at hn
    · exact mem_of_mem_take hn
    · split at hn
      · cases hn
      · exact hn
  · exact .nil

lemma hold_arrayCreation : Hold P (arrayCreation node) := by
  unfold arrayCreation
  split
  · rename_i initializer hinitializer
    exact hold_operands (h.part? hinitializer)
  · refine .values fun n hn => ?_
    obtain ⟨inner, hinner, hsize⟩ := Lower.exists_of_mem_arrayDimensions (mem_of_mem_take hn)
    exact (h.child hinner).operand hsize

lemma hold_assignment : Hold P (assignment node) := by
  refine hold_optional h fun operator _ => ((hold_field h _).append ?_).append (hold_field h _)
  split
  · exact .nil
  · exact hold_field h _

lemma hold_update (hkind : node.kind = .update) : Hold P (update node) := by
  unfold update
  split
  · rename_i found hfound
    exact .cons (h.child (Node.mem_children_of_updateParts hfound)) (.single ⟨node, hkind, h.here⟩)
  · exact .nil

lemma hold_updateValue (hkind : node.kind = .update) : Hold P (updateValue node) := by
  unfold updateValue
  split
  · rename_i found hfound
    have hplace := h.child (Node.mem_children_of_updateParts hfound)
    exact .cons hplace (.cons ⟨node, hkind, h.here⟩ (.single hplace))
  · exact .nil

lemma hold_parenthesized : Hold P (parenthesized node) := by
  unfold parenthesized
  split
  · rename_i inner hinner
    exact .single (h.operand (hinner ▸ mem_singleton_self inner))
  · exact .nil

lemma hold_ofValue (c : TypeContext) : Hold P (ofValue c node) := by
  unfold ofValue
  split
  · exact hold_holder fun t ht => h.part? ht
  · exact hold_fields h _
  · exact hold_methodInvocation h _
  · exact hold_objectCreation h c
  · exact hold_arrayCreation h
  · exact hold_operands h
  · exact (hold_assignment h).append (hold_field h _)
  · exact hold_fields h _
  · exact hold_fields h _
  · exact hold_updateValue h ‹_›
  · exact hold_parenthesized h
  · exact hold_fields h _
  · exact hold_fields h _
  · exact hold_fields h _
  · exact .nil

end

variable (h : node.Everywhere P) (b : Bool)
include h

lemma hold_body : Hold P (body b node) := by
  unfold body
  split
  · exact hold_block h b
  · exact .single h

lemma hold_effect (s : Symbols) : Hold P (effect s node) := by
  refine .cons h (hold_optional h fun target htarget => ?_)
  split
  · exact .single htarget
  · split
    · exact .nil
    · exact .single htarget

lemma hold_headerStep : Hold P (headerStep node) := by
  unfold headerStep
  split
  · exact hold_assignment h
  · exact hold_update h ‹_›
  · exact .single h

lemma hold_localVariables : Hold P (localVariables node) :=
  .flatMap fun _ hn => hold_field (h.child (Node.mem_children_of_fieldChildren hn)) _

lemma hold_headerInit : Hold P (headerInit node) := by
  unfold headerInit
  split
  · exact hold_localVariables h
  · exact hold_headerStep h

lemma hold_forLoop : Hold P (forLoop b node) := by
  have hbelow : ∀ {field : String}, ∀ n ∈ node.fieldChildren field, n.Everywhere P :=
    fun n hn => h.child (Node.mem_children_of_fieldChildren hn)
  refine .append (.flatMap fun n hn => hold_headerInit (hbelow n hn)) (.append (hold_field h _) ?_)
  refine .append (.flatMap fun n hn => hold_headerStep (hbelow n hn)) ?_
  exact hold_optional h fun _ hbody => hold_body hbody b

lemma hold_labels : Hold P (labels node) :=
  .flatMap fun _ hn => hold_operands (h.child (Node.mem_children_of_childrenOfKind hn))

lemma hold_ruleBody : Hold P (ruleBody b node) := by
  unfold ruleBody
  split
  · exact hold_block h b
  · split
    · exact .values fun n hn => h.operand (mem_of_mem_take hn)
    · exact .single h

lemma hold_clause : Hold P (clause b node) := by
  have hbelow : ∀ n ∈ Lower.clauseNodes node, n.Everywhere P :=
    fun n hn => h.operand (mem_filter.1 hn).1
  unfold clause
  split
  · exact .flatMap fun n hn => hold_ruleBody (hbelow n hn) b
  · exact .codes hbelow b

lemma hold_switch : Hold P (switch b node) :=
  .append (hold_field h _) (hold_optional h fun _ hbody => .flatMap fun _ hgroup =>
    (hold_labels (hbody.operand hgroup)).append (hold_clause (hbody.operand hgroup) b))

lemma hold_expressionStatement (s : Symbols) : Hold P (expressionStatement b s node) := by
  unfold expressionStatement
  split
  · rename_i inner hinner
    have hbelow : inner.Everywhere P := h.operand (hinner ▸ mem_singleton_self inner)
    split
    · exact hold_assignment hbelow
    · exact hold_update hbelow ‹_›
    · exact hold_switch hbelow b
    · exact hold_effect hbelow s
  · exact .nil

lemma hold_returned : Hold P (returned node) := by
  unfold returned
  split
  · exact .nil
  · rename_i first rest hoperands
    have hbelow : first.Everywhere P := h.operand (hoperands ▸ mem_cons_self)
    split
    · exact hold_switch hbelow true
    · exact .single hbelow

lemma hold_thrown : Hold P (thrown node) := by
  unfold thrown
  split
  · rename_i only honly
    have hbelow : only.Everywhere P := h.operand (honly ▸ mem_singleton_self only)
    split
    · refine hold_optional hbelow fun type _ => ?_
      split
      · exact hold_optional hbelow fun arguments harguments => hold_operands harguments
      · exact .nil
    · exact .single hbelow
  · exact .nil

lemma hold_resource : Hold P (resource node) := by
  unfold resource
  split
  · exact .values fun n hn => h.operand (mem_of_mem_take hn)
  · exact hold_field h _

lemma hold_handler (later : List Node) : Hold P (handler b node later) := by
  unfold handler
  split
  · exact hold_optional h fun body hbody => .flatMap fun _ _ => hold_block hbody b
  · split
    · exact .nil
    · cases hblock : node.childOfKind? .block with
      | none => exact .nil
      | some => exact hold_block (h.child (Node.mem_children_of_childOfKind? hblock)) b
  · exact .nil

omit h in
lemma hold_handlers : ∀ {nodes : List Node}, (∀ n ∈ nodes, n.Everywhere P) →
    Hold P (handlers b nodes)
  | [], _ => .nil
  | _ :: _, h => (hold_handler (h _ mem_cons_self) b _).append
      (hold_handlers fun n hn => h n (mem_cons_of_mem _ hn))

lemma hold_tryStatement : Hold P (tryStatement b node) := by
  refine .append (.append (hold_optional h fun list hlist => .flatMap fun n hn => ?_) ?_) ?_
  · exact hold_resource (hlist.child (Node.mem_children_of_childrenOfKind hn))
  · exact hold_optional h fun body hbody => hold_block hbody b
  · exact hold_handlers b fun n hn => h.child hn

lemma hold_labeled : Hold P (labeled b node) := by
  unfold labeled
  split
  · exact .nil
  · exact .codes (fun n hn => h.operand (mem_filter.1 hn).1) b

lemma hold_ofCode (c : TypeContext) : Hold P (ofCode b c node) := by
  have hbody : ∀ field, Hold P (optional node field (body b)) :=
    fun field => hold_optional h fun _ hchild => hold_body hchild b
  unfold ofCode
  split
  · exact hold_block h b
  · exact hold_expressionStatement h b _
  · exact hold_localVariables h
  · exact ((hold_field h _).append (hbody _)).append (hbody _)
  · exact (hold_field h _).append (hbody _)
  · exact (hbody _).append (hold_field h _)
  · exact hold_forLoop h b
  · exact (hold_field h _).append (hbody _)
  · exact hold_returned h
  · exact hold_operands h
  · exact hold_thrown h
  · exact hold_switch h b
  · exact hold_tryStatement h b
  · exact hold_tryStatement h b
  · exact .values fun n hn => h.operand (mem_of_mem_take hn)
  · exact hold_labeled h b
  · exact hold_optional h fun arguments harguments => hold_operands harguments
  · exact .nil

end Part

end JavaToGo
