import JavaToGo.Proofs.TypeMapping.Faults

/-!
# Asking

Much of what lowering does leaves nothing behind: it asks and answers or fails.
None of it looks at the overloads, or fails because a declaration has no record.
-/

namespace JavaToGo

open Lower

/-- The overloads of methods and of constructors. -/
structure Buckets where
  methods : Table String (List Overload) := ⟨[]⟩
  constructors : Table String (List Overload) := ⟨[]⟩

/-- The symbols with other overloads. -/
def Symbols.withBuckets (s : Symbols) (b : Buckets) : Symbols :=
  { s with methods := b.methods, constructors := b.constructors }

def TypeContext.withBuckets (c : TypeContext) (b : Buckets) : TypeContext :=
  { c with symbols := c.symbols.withBuckets b }

lemma typeOf_withBuckets (c : TypeContext) (b : Buckets) (node : Node) :
    typeOf (c.withBuckets b) node = typeOf c node := by
  induction node using Tree.Node.induction_on_parts with
  | step n ih =>
    have hparts : n.partLists.mapM (fun parts => parts.mapM (typeOf (c.withBuckets b)))
        = n.partLists.mapM fun parts => parts.mapM (typeOf c) :=
      Outcome.mapM_congr fun parts hparts => Outcome.mapM_congr (ih parts hparts)
    rw [typeOf_eq, typeOf_eq, hparts]
    rfl

variable (node : Node)

/-- The fault is not a missing record. -/
def Fault.IsOther (f : Fault) : Prop :=
  f.kind ≠ .unrecorded

lemma Tree.Node.blamed_isOther : node.Blamed Fault.IsOther := by
  intro n _ _ h
  cases h

def Context.withBuckets (c : Context) (b : Buckets) : Context :=
  { c with symbols := c.symbols.withBuckets b }

namespace Lower

/-- The computation asks for what is known, apart from overloads, and answers or fails.  It asks of
the names in `asked` only whether they are local. -/
inductive Asks (asked : String → Prop) : {α : Type} → Lower α → Prop
  | lift {α : Type} {x : Outcome α} (hx : Faults Fault.IsOther x) : Asks asked (liftM x : Lower α)
  | read {α : Type} {f : Context → Lower α} (hf : ∀ c, Asks asked (f c))
      (hblind : ∀ c b, f (c.withBuckets b) = f c) : Asks asked (MonadReader.read >>= f)
  | isLocal {name : String} (h : asked name) : Asks asked (Lower.isLocal name)
  | bind {α β : Type} {x : Lower α} {f : α → Lower β} (hx : Asks asked x)
      (hf : ∀ a, Asks asked (f a)) : Asks asked (x >>= f)

variable {α β : Type} {asked : String → Prop} {f : Symbols → Lower α} (resolution : Resolution)

/-- The computation leaves the trail as it is. -/
def Still (x : Lower α) : Prop :=
  ∀ c t, (x.runAt c t).2 = t

lemma Still.lift (x : Outcome α) : (liftM x : Lower α).Still := by
  intro c t
  rw [runAt_lift]

lemma Still.bind {x : Lower α} {f : α → Lower β} (hx : x.Still) (hf : ∀ a, (f a).Still) :
    (x >>= f).Still := by
  intro c t
  exact trail_bind (Q := fun t' => t' = t) (hx c t) fun a t' h => (hf a c t').trans h

lemma Asks.still {x : Lower α} (h : x.Asks asked) : x.Still := by
  induction h with
  | lift => exact .lift _
  | read _ _ ih => exact fun c t => ih c c t
  | isLocal => exact fun _ _ => rfl
  | bind _ _ ihx ihf => exact ihx.bind ihf

/-- At this place the computation never fails for want of a record. -/
def InformedAt (c : Context) (x : Lower α) : Prop :=
  ∀ t, Faults Fault.IsOther (x.runAt c t).1

namespace InformedAt

variable {c : Context} {x : Lower α}

lemma lift {x : Outcome α} (h : Faults Fault.IsOther x) : (liftM x : Lower α).InformedAt c := by
  intro t
  exact h

lemma bind {f : α → Lower β} (hx : x.InformedAt c) (hf : ∀ a, (f a).InformedAt c) :
    (x >>= f).InformedAt c := by
  intro t
  have hfirst := hx t
  rw [runAt_bind]
  revert hfirst
  rcases x.runAt c t with ⟨outcome, t'⟩
  intro hfirst
  cases outcome with
  | ok a => exact hf a t'
  | error =>
    intro f h
    cases h
    exact hfirst f rfl

lemma symbols (h : (f c.symbols).InformedAt c) : (symbols >>= f).InformedAt c :=
  h

end InformedAt

lemma Asks.informedAt {x : Lower α} (h : x.Asks asked) (c : Context) : x.InformedAt c := by
  induction h with
  | lift hx => exact .lift hx
  | read _ _ ih => exact ih c
  | isLocal => exact fun _ => .ok _
  | bind _ _ ihx ihf => exact ihx.bind ihf

namespace Asks

lemma weaken {x : Lower α} (h : x.Asks asked) : x.Asks fun _ => True := by
  induction h with
  | lift hx => exact .lift hx
  | read _ hblind ih => exact .read ih hblind
  | isLocal => exact .isLocal trivial
  | bind _ _ ihx ihf => exact .bind ihx ihf

lemma pure (a : α) : (Pure.pure a : Lower α).Asks asked := by
  have h : (liftM (Except.ok a : Outcome α) : Lower α).Asks asked := .lift (.ok a)
  exact h

lemma refuse (r : Refusal) : (throw (.refusal r) : Lower α).Asks asked := by
  have h : (liftM (Except.error (.refusal r) : Outcome α) : Lower α).Asks asked :=
      .lift (.refusal r)
  exact h

lemma fault {f : Fault} (hf : f.IsOther) : (throw (.fault f) : Lower α).Asks asked := by
  have h : (liftM (Except.error (.fault f) : Outcome α) : Lower α).Asks asked := .lift (.fault hf)
  exact h

lemma types {f : TypeContext → Lower α} (hf : ∀ c, (f c).Asks asked)
    (hblind : ∀ c b, f (c.withBuckets b) = f c) : (types >>= f).Asks asked :=
  .read (fun c => hf c.toTypeContext) fun c b => hblind c.toTypeContext b

lemma symbols (hf : ∀ s, (f s).Asks asked) (hblind : ∀ s b, f (s.withBuckets b) = f s) :
    (symbols >>= f).Asks asked :=
  .read (fun c => hf c.symbols) fun c b => hblind c.symbols b

lemma receiver : receiver.Asks asked :=
  .read (fun c => .pure c.receiver) fun _ _ => rfl

lemma requireText (field : String) : (liftM (node.requireText field) : Lower String).Asks asked :=
  .lift (.requireText node field)

lemma require (node : Node) (field : String) :
    (liftM (node.require field) : Lower Node).Asks asked :=
  .lift (.require node field)

lemma typeOf (c : TypeContext) (node : Node) :
    (liftM (JavaToGo.typeOf c node) : Lower String).Asks asked :=
  .lift (faults_typeOf c node.blamed_isOther)

lemma mapM {f : α → Lower β} (h : ∀ a, (f a).Asks asked) (as : List α) :
    (as.mapM f).Asks asked := by
  induction as with
  | nil =>
    exact .pure []
  | cons a as ih =>
    rw [List.mapM_cons]
    exact (h a).bind fun b => ih.bind fun bs => .pure _

end Asks

lemma asks_selfExpr (node : Option Node) : (selfExpr node).Asks asked := by
  refine .bind .receiver fun r => ?_
  split
  · exact .pure _
  · exact .refuse _

lemma asks_selfField (field : String) : (selfField field).Asks asked := by
  refine .bind .receiver fun r => ?_
  split
  · exact .bind (asks_selfExpr none) fun self => .pure _
  · exact .bind (asks_selfExpr none) fun self => .pure _

lemma asks_resolveName (h : asked name) : (resolveName name).Asks asked := by
  refine .bind (.isLocal h) fun isHere => ?_
  split
  · exact .pure _
  refine .bind .receiver fun r => ?_
  split
  · exact asks_selfField name
  refine .symbols (fun s => ?_) fun _ _ => rfl
  split
  · exact .pure _
  · exact .pure _

lemma asks_assignedField {node : Node} (h : node.kind = .identifier → asked node.text) :
    (assignedField node).Asks asked := by
  unfold assignedField
  split
  · refine .bind (.isLocal (h ‹_›)) fun isHere => ?_
    split
    · exact .pure _
    · exact .pure _
  · split
    · exact .pure _
    · split
      · exact .bind (.requireText node _) fun name => .pure _
      · exact .pure _
  · exact .pure _

lemma asks_fieldSetter? {node : Node} (h : node.kind = .identifier → asked node.text) :
    (fieldSetter? node).Asks asked := by
  refine .bind .receiver fun r => ?_
  split
  · refine .bind (asks_assignedField h) fun field => ?_
    split
    · exact .pure _
    · split
      · exact .bind (asks_selfExpr none) fun self => .pure _
      · exact .pure _
  · exact .pure _

lemma asks_declaredKind? (h : asked name) : (declaredKind? name).Asks asked := by
  refine .bind (.isLocal h) fun isHere => ?_
  split
  · exact .pure _
  · exact .symbols (fun s => .pure _) fun _ _ => rfl

lemma asks_calledName (onSelf : Bool) : (calledName resolution onSelf).Asks asked := by
  refine .bind .receiver fun r => ?_
  split
  · exact .pure _
  split
  · exact .pure _
  · split
    · exact .pure _
    · exact .pure _

lemma asks_selfCall (name : String) (args : List Expr) :
    (selfCall node resolution name args).Asks asked := by
  refine .bind .receiver fun r => ?_
  dsimp only
  split
  · refine .bind (asks_selfExpr _) fun self => ?_
    split
    · exact .pure _
    · exact .fault (by simp [Fault.IsOther, Fault.kind])
  split
  · exact .bind (asks_calledName resolution false) fun called => .pure _
  split
  · exact .bind (asks_selfExpr _) fun self => .pure _
  · refine .bind (asks_selfExpr _) fun self => ?_
    exact .bind (asks_calledName resolution true) fun called => .pure _

lemma asks_superCall (args : List Expr) : (superCall node resolution args).Asks asked := by
  refine .symbols (fun s => .bind .receiver fun r => ?_) fun _ _ => rfl
  refine .bind (asks_selfExpr _) fun self => ?_
  exact .bind (asks_calledName resolution true) fun called => .pure _

lemma asks_namesType {target : Node} (h : target.kind = .identifier → asked target.text) :
    (namesType target).Asks asked := by
  unfold namesType
  split
  · exact .bind (asks_declaredKind? (h ‹_›)) fun kind => .pure _
  · exact .pure _

lemma asks_containerType (type : String) : (containerType type).Asks asked := by
  refine .read (fun c => ?_) fun _ _ => rfl
  split
  · exact .pure _
  · split
    · exact .pure _
    · exact .pure _

lemma asks_localType (node : Node) : (localType node).Asks asked := by
  refine .bind (.require node _) fun type => ?_
  split
  · exact .pure _
  · refine .types (fun types => .bind (.typeOf types type) fun goType => .pure _) fun types b => ?_
    rw [typeOf_withBuckets]

lemma asks_chainedType (target : Node) : (chainedType node target).Asks asked := by
  refine .bind .receiver fun r => ?_
  split
  · exact .pure _
  · split
    · exact .refuse _
    · exact .pure _
  · exact .refuse _

mutual
theorem faults_simpleTypeName : ∀ node : Node, Faults Fault.IsOther (simpleTypeName node)
  | .mk head children => by
    rw [simpleTypeName]
    split
    · exact faults_firstTypeName children
    · exact .ok _
    · exact .ok _

theorem faults_firstTypeName : ∀ nodes : List Node, Faults Fault.IsOther (firstTypeName nodes)
  | [] => .fault (by simp [Fault.IsOther, Fault.kind])
  | n :: ns => by
    rw [firstTypeName]
    split
    · exact faults_simpleTypeName n
    · exact faults_firstTypeName ns
end

end Lower
end JavaToGo
