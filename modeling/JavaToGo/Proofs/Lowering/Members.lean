import JavaToGo.Declaration.Enum
import JavaToGo.Proofs.Ambiguity.Statements

/-!
# What lowering a member keeps

A function keeps the marks of its body.  A variable keeps them as comments; the
constants of an enumeration have no place for them and are refused.
-/

namespace JavaToGo

open Code (Stmt markCount)
open JavaToGo.Tree (Node)

def Scale.nothing : Scale where
  weight _ := 0
  lossy := True

lemma Scale.all_nothing (ss : List Stmt) : nothing.all ss = 0 := by
  induction ss with
  | nil => rfl
  | cons s ss ih => rw [all_cons, ih]; rfl

lemma Scale.deep_nothing : nothing.Deep where
  block _ := (all_nothing _).symm
  labeled _ _ := rfl
  cond _ _ _ := by simp only [all_nothing]; rfl
  loop _ _ _ _ := by simp only [all_nothing]; rfl
  range _ _ _ _ := (all_nothing _).symm
  switch _ _ := (all_nothing _).symm

lemma Scale.opens_nothing : nothing.Opens := fun _ _ _ _ _ => by
  simp only [all_nothing]; rfl

namespace Lower

lemma emits_nothing_expression (height : Nat) (node : Node) (p : Setting) :
    EmitsValue .nothing (expressionWithin height) (fun _ => pure []) p (Part.ofValue p.types node) 0
      (expressionWithin (height + 1) node) :=
  emits_expressionStep
    ⟨fun _ _ _ => trivial, fun _ _ _ => trivial, fun _ _ => .of_placed fun _ => trivial,
     fun _ => trivial⟩

lemma emits_nothing_statement (height : Nat) (node : Node) (p : Setting) :
    EmitsCode .nothing expression (statementWithin height) p
      (Part.ofCode p.inReturn p.types node) 0 (statementWithin (height + 1) node) := by
  have hrule : Emits .nothing expression (statementWithin height) p
      (Part.ofCode p.inReturn p.types node) (0 + Scale.nothing.own p node)
      (statementWithin (height + 1) node) fun ss => 0 + Scale.nothing.all ss :=
    emits_statementStep Scale.deep_nothing (gives_statementWithin_break height) <|
      .of_light (fun _ => trivial) (fun _ => rfl) fun _ => ⟨Scale.opens_nothing, .inl trivial⟩
  rwa [own_eq_zero (S := .nothing) fun _ => rfl] at hrule

lemma composed_expressionWithin (height : Nat) :
    ∀ node, (expressionWithin height node).Composed := by
  induction height with
  | zero =>
    intro node
    exact .fault (by simp [Fault.IsOther, Fault.kind])
  | succ height ih =>
    intro node
    exact Emits.composed ih (fun _ => .pure []) (emits_nothing_expression height node)

lemma composed_expression (node : Node) : (expression node).Composed :=
  composed_expressionWithin node.height node

lemma composed_statementWithin (height : Nat) : ∀ node, (statementWithin height node).Composed := by
  induction height with
  | zero =>
    intro node
    exact .fault (by simp [Fault.IsOther, Fault.kind])
  | succ height ih =>
    intro node
    exact Emits.composed composed_expression ih (emits_nothing_statement height node)

lemma composed_statement (node : Node) : (statement node).Composed :=
  composed_statementWithin node.height node

lemma composed_block (node : Node) : (block node).Composed :=
  Emits.composed (S := .nothing) composed_expression composed_statement fun _ =>
    emits_blockWith node

end Lower

def Code.Function.marks (f : Code.Function) : Nat :=
  Stmt.marksAll f.body

def Code.ModuleVar.marks (v : Code.ModuleVar) : Nat :=
  markCount v.comments

namespace Lower

variable {α β : Type} {lost single : Prop} {c : Context} {held : Nat}

lemma asks_declaredFields (node : Node) : (declaredFields node).Asks fun _ => True := by
  refine .read (fun c => .types (fun types => ?_) fun types b => ?_) fun _ _ => rfl
  · refine .bind (.require node _) fun type => ?_
    refine .bind (.typeOf _ type) fun goType => .mapM (fun declarator => .lift ?_) _
    exact .bind (.requireText declarator _) fun name _ => .ok _
  · exact bind_congr fun type =>
      congrArg (fun x => liftM x >>= _) (typeOf_withBuckets (types.withTypeParams _) b type)

lemma asks_provenanceComments (node : Node) : (provenanceComments node).Asks fun _ => True :=
  .read (fun _ => .pure _) fun _ _ => rfl

lemma asks_formalNames (node : Node) :
    (liftM node.formalNames : Lower (List String)).Asks fun _ => True := by
  refine .lift ?_
  unfold Node.formalNames
  split
  · exact .ok _
  · refine .bind (.mapM fun p _ => ?_) fun names _ => .ok _
    unfold Node.formalName?
    split
    · exact .bind (.requireText p _) fun name _ => .ok _
    · split
      · exact .ok _
      · exact .bind (.requireText _ _) fun name _ => .ok _
    · exact .ok _

variable {node : Node}

section

variable (single held) in
/-- The computation is composed of steps that a declaration may rely on, and keeps its books. -/
structure Kept (x : Lower α) (marks : α → Nat) : Prop where
  composed : x.Composed
  tallies : single → Tallies held x marks

variable {x : Lower α} {f : α → Lower β} {m : α → Nat} {total : β → Nat}

namespace Kept

lemma pure (h : m a = held) : Kept single held (Pure.pure a : Lower α) m :=
  ⟨.pure a, fun _ => .pure h⟩

lemma refuse (r : Refusal) : Kept single held (throw (.refusal r) : Lower α) m :=
  ⟨.refuse r, fun _ => .throw _⟩

lemma asks (hx : x.Asks fun _ => True) : Kept single 0 x fun _ => 0 :=
  ⟨.asks hx, fun _ => hx.quiet⟩

lemma step (hx : Kept single 0 x m) (hf : ∀ a, Kept single (held + m a) (f a) total) :
    Kept single held (x >>= f) total :=
  ⟨hx.composed.bind fun a => (hf a).composed,
    fun h => (hx.tallies h).step fun a => (hf a).tallies h⟩

lemma lift {x : Outcome α} (hx : Faults Fault.IsOther x)
    (hf : ∀ a, x = .ok a → Kept single held (f a) total) :
    Kept single held ((liftM x : Lower α) >>= f) total := by
  cases x with
  | ok a => exact hf a rfl
  | error failure =>
    have hfails : Faults Fault.IsOther (.error failure : Outcome β) := fun fault h => by
      cases h
      exact hx fault rfl
    exact ⟨.lift hfails, fun _ => .throw failure⟩

lemma withReader (hx : Kept single held x m) (change : Context → Context) :
    Kept single held (MonadWithReader.withReader change x) m :=
  ⟨hx.composed.withReader change, fun h => (hx.tallies h).withReader change⟩

end Kept

lemma kept_expression (node : Node) : Kept single 0 (expression node) Lowered.marks :=
  ⟨composed_expression node, fun _ => tallies_expression node⟩

lemma kept_block (h : single → node.SingleFinally) : Kept single 0 (block node) Stmt.marksAll :=
  ⟨composed_block node, fun hsingle => tallies_block (h hsingle)⟩

lemma markCount_commentsOf {statements : List Stmt} (h : statements.all Stmt.isComment = true) :
    markCount (commentsOf statements) = Stmt.marksAll statements := by
  induction statements with
  | nil => rfl
  | cons s rest ih =>
    simp only [List.all_cons, Bool.and_eq_true] at h
    cases s with
    | comment comments => simp [commentsOf, ih h.2]
    | _ => cases h.1

lemma kept_fieldVariable (f : DeclaredField) :
    Kept single 0 (fieldVariable f) Code.ModuleVar.marks := by
  unfold fieldVariable
  split
  · exact .pure rfl
  · refine (((kept_expression _).withReader _).withReader _).step fun value => ?_
    split
    · rename_i hcomments
      refine .pure ?_
      simp [Code.ModuleVar.marks, markCount_commentsOf hcomments, Lowered.marks]
    · exact .refuse _

lemma kept_constantValues (arguments : List (DeclaredField × Node)) :
    Kept single 0 (Build.constantValues arguments) fun _ => 0 := by
  refine Kept.withReader ?_ _
  induction arguments with
  | nil =>
    exact .pure rfl
  | cons argument arguments ih =>
    rw [List.mapM_cons]
    refine .step (m := fun _ => 0) ?_ fun value => ih.step fun values => .pure rfl
    refine ((kept_expression argument.2).withReader _).step fun value => ?_
    split
    · rename_i hempty
      exact .pure (by simp [Lowered.marks, List.isEmpty_iff.1 hempty])
    · exact .refuse _

lemma kept_fieldInitializers (fields : List DeclaredField) :
    Kept single 0 (fieldInitializers fields) Stmt.marksAll := by
  induction fields with
  | nil => exact .pure rfl
  | cons f fields ih =>
    refine .step (m := Stmt.marksAll) ?_ fun first => ih.step fun rest => .pure (by simp)
    unfold fieldInitializer
    split
    · exact .pure rfl
    · refine ((kept_expression _).withReader _).step fun value => ?_
      exact .step (.asks .receiver) fun r => .pure (by simp [Lowered.marks])

lemma kept_constructorPreamble (structType : String) (fields : List DeclaredField) :
    Kept single 0 (constructorPreamble structType fields) Stmt.marksAll := by
  refine (kept_fieldInitializers _).step fun initial => ?_
  have hcomment : (Stmt.comment ["Default field initializations"]).marks = 0 := by decide
  split
  · rename_i hempty
    refine .pure ?_
    rw [List.isEmpty_iff.1 hempty]
    rfl
  · refine .pure ?_
    simpa [newValue] using hcomment

end

variable (lost single c held) in
/-- The computation does not fail for want of a record, unless records are lost; it leaves the
names in view as they were, and keeps its books. -/
structure Written (x : Lower α) (marks : α → Nat) : Prop where
  informedAt : lost ∨ x.InformedAt c
  steady : x.Steady
  tallies : single → Tallies held x marks

variable {x : Lower α} {f : α → Lower β} {m : α → Nat} {total : β → Nat}

namespace Written

lemma pure (h : m a = held) : Written lost single c held (Pure.pure a : Lower α) m :=
  ⟨.inr (fun _ => .ok a), .pure a, fun _ => .pure h⟩

lemma refuse (r : Refusal) : Written lost single c held (throw (.refusal r) : Lower α) m :=
  ⟨.inr (fun _ => .refusal r), .throw _, fun _ => .throw _⟩

lemma asks (hx : x.Asks fun _ => True) : Written lost single c 0 x fun _ => 0 :=
  ⟨.inr (hx.informedAt c), hx.steady, fun _ => hx.quiet⟩

lemma step (hx : Written lost single c 0 x m)
    (hf : ∀ a, Written lost single c (held + m a) (f a) total) :
    Written lost single c held (x >>= f) total where
  informedAt := by
    by_cases hlost : lost
    · exact .inl hlost
    · exact .inr ((hx.informedAt.resolve_left hlost).bind fun a =>
        (hf a).informedAt.resolve_left hlost)
  steady := hx.steady.bind fun a => (hf a).steady
  tallies h := (hx.tallies h).step fun a => (hf a).tallies h

lemma lift {x : Outcome α} (hx : Faults Fault.IsOther x)
    (hf : ∀ a, x = .ok a → Written lost single c held (f a) total) :
    Written lost single c held ((liftM x : Lower α) >>= f) total := by
  cases x with
  | ok a => exact hf a rfl
  | error =>
    refine ⟨.inr fun _ fault h => ?_, fun _ _ => rfl, fun _ _ _ _ _ h => ?_⟩
    · cases h
      exact hx fault rfl
    · cases h

lemma read {f : Context → Lower β} (hf : ∀ c', Written lost single c held (f c') total) :
    Written lost single c held (MonadReader.read >>= f) total :=
  ⟨(hf c).informedAt, fun c' => (hf c').steady c', fun h c' => (hf c').tallies h c'⟩

lemma symbols {f : Symbols → Lower β} (hf : ∀ s, Written lost single c held (f s) total) :
    Written lost single c held (Lower.symbols >>= f) total :=
  read fun c' => hf c'.symbols

lemma recorded {ρ : Type} {look : Symbols → Outcome ρ} {f : Symbols → ρ → Lower β}
    (hlook : lost ∨ Faults Fault.IsOther (look c.symbols))
    (hf : ∀ s record, Written lost single c held (f s record) total) :
    Written lost single c held
      (Lower.symbols >>= fun s => (liftM (look s) : Lower ρ) >>= f s) total where
  informedAt := by
    by_cases hlost : lost
    · exact .inl hlost
    · exact .inr (.symbols (.bind (.lift (hlook.resolve_left hlost)) fun record =>
        (hf _ record).informedAt.resolve_left hlost))
  steady c t := ((Steady.lift _).bind fun r => (hf c.symbols r).steady) c t
  tallies h c := by
    have hlooked : Tallies held ((liftM (look c.symbols) : Lower ρ) >>= f c.symbols) total := by
      cases look c.symbols with
      | ok record => exact (hf c.symbols record).tallies h
      | error failure => exact .throw failure
    exact hlooked c

lemma withReader {change : Context → Context} (hx : Written lost single (change c) held x m) :
    Written lost single c held (MonadWithReader.withReader change x) m :=
  ⟨hx.informedAt, hx.steady.withReader change, fun h => (hx.tallies h).withReader change⟩

end Written

lemma Kept.scoped (hx : Kept single 0 x m) (params : List String) (shape : Option ReturnShape) :
    Written lost single c 0 (withFunctionScope params shape x) m where
  informedAt := .inr ((hx.composed.withFunctionScope params shape).informedAt c)
  steady := fun _ _ => rfl
  tallies h := ((hx.tallies h).withScopes _ _).withReader _

lemma marksAll_closedBody (record : MethodRecord) (body : List Stmt) :
    Stmt.marksAll (closedBody record body) = Stmt.marksAll body := by
  unfold closedBody
  split
  · simp
  · rfl

lemma written_constructor
    (hrecord : lost ∨ Faults Fault.IsOther (c.symbols.requireConstructor node))
    (hnode : single → node.SingleFinally) (structType : String) (r : Receiver)
    (fields : List DeclaredField) (typeParams : List String) :
    Written lost single c 0 (constructor node structType r fields typeParams)
      Code.Function.marks := by
  refine .recorded hrecord fun s record => .lift (.require node _) fun bodyNode hbody => ?_
  refine .step (m := Stmt.marksAll) (.withReader (.withReader ?_)) fun body => ?_
  · refine .step (.asks (asks_formalNames node)) fun params => Kept.scoped ?_ _ _
    refine (kept_constructorPreamble structType fields).step fun preamble => ?_
    exact (kept_block fun h => (hnode h).part hbody).step fun statements => .pure (by simp)
  · refine .step (.asks (asks_provenanceComments node)) fun comments => .pure ?_
    simp [Code.Function.marks, returnSelf]

lemma written_defaultConstructor (javaName structType : String) (r : Receiver)
    (fields : List DeclaredField) (isPublic : Bool) (typeParams : List String) :
    Written lost single c 0 (defaultConstructor javaName structType r fields isPublic typeParams)
      Code.Function.marks := by
  refine .symbols fun s => ?_
  refine .step (.withReader (.withReader ((kept_constructorPreamble structType fields).scoped
    [] none))) fun body => .pure ?_
  simp [Code.Function.marks, returnSelf]

lemma written_staticInitializer (hnode : single → node.SingleFinally) :
    Written lost single c 0 (staticInitializer node) Code.Function.marks := by
  unfold staticInitializer
  split
  · exact .refuse _
  · rename_i body hbody
    have hbelow : single → body.SingleFinally := fun h =>
      (hnode h).child (Node.mem_children_of_childOfKind? hbody)
    refine .step (.withReader ((kept_block hbelow).scoped [] none)) fun statements => ?_
    exact .step (.asks (asks_provenanceComments node)) fun comments =>
      .pure (by simp [Code.Function.marks])

lemma written_methodBody (hnode : single → node.SingleFinally) (record : MethodRecord)
    (r : Receiver) : Written lost single c 0 (methodBody node record r) Stmt.marksAll := by
  unfold methodBody
  split
  · exact .pure rfl
  · rename_i body hbody
    refine .read fun c' => .step (m := Stmt.marksAll)
      (.withReader (.withReader ?_)) fun statements => .pure ?_
    · refine .step (.asks (asks_formalNames node)) fun params => ?_
      exact (kept_block fun h => (hnode h).part? hbody).scoped params _
    · simp [marksAll_closedBody]

lemma written_method (hrecord : lost ∨ Faults Fault.IsOther (c.symbols.requireMethod node))
    (hnode : single → node.SingleFinally) (r : Receiver) (param : Option Code.Param)
    (exports : Bool) :
    Written lost single c 0 (method node r param exports) Code.Function.marks := by
  refine .recorded hrecord fun s record => ?_
  split
  · refine .step (written_methodBody hnode record {}) fun body => ?_
    exact .step (.asks (asks_provenanceComments node)) fun comments =>
      .pure (by simp [Code.Function.marks])
  · unfold instanceMethod
    split
    · exact .refuse _
    · refine .step (written_methodBody hnode record r) fun body => ?_
      exact .step (.asks (asks_provenanceComments node)) fun comments =>
        .pure (by simp [Code.Function.marks])

end Lower

end JavaToGo
