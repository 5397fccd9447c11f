import JavaToGo.Proofs.Lowering.Demands

/-!
# Assignments to places

The left side of an assignment is lowered as if it were read.  A length is read by
a call, and so is a field behind accessors.  A call that adds to a list is stored
where the list came from, which need not be a place.
-/

namespace JavaToGo

open Code (Stmt)
open JavaToGo.Tree (Node)
open Lower

/-- Whether a field is behind accessors. -/
def Receiver.hides (r : Receiver) (field : String) : Bool :=
  r.kind = .abstractDefault && r.fields.contains field

/-- The value of a node is a place.  A node that is written itself may name a hidden field, since
a setter is called then. -/
inductive Tree.Node.IsPlace (r : Receiver) : Bool → Node → Prop
  | name {written : Bool} {node : Node} (hkind : node.kind = .identifier)
      (h : written = false → r.hides node.text = false) : IsPlace r written node
  | instance {written : Bool} {node : Node} (hkind : node.kind = .self ∨ node.kind = .super) :
      IsPlace r written node
  | own {written : Bool} {node object field : Node} (hkind : node.kind = .fieldAccess)
      (hobject : node.fieldChild? "object" = some object) (hself : object.kind = .self)
      (hfield : node.fieldChild? "field" = some field)
      (h : written = false → r.hides field.text = false) : IsPlace r written node
  | field {written : Bool} {node object field : Node} (hkind : node.kind = .fieldAccess)
      (hobject : node.fieldChild? "object" = some object) (hself : object.kind ≠ .self)
      (hfield : node.fieldChild? "field" = some field)
      (h : field.text = "length" → object.kind = .super
        ∨ object.kind = .identifier ∧ Text.beginsUpper object.text = true) : IsPlace r written node
  | element {written : Bool} {node : Node} (hkind : node.kind = .arrayAccess) :
      IsPlace r written node
  | parenthesized {written : Bool} {node inner : Node} (hkind : node.kind = .parenthesized)
      (hinner : node.operands = [inner]) (h : IsPlace r false inner) : IsPlace r written node
  | assignment {written : Bool} {node left : Node} (hkind : node.kind = .assignment)
      (hleft : node.fieldChild? "left" = some left) (h : IsPlace r false left) :
      IsPlace r written node

namespace Lower

variable {c : Context} {t : Trail} {node : Node}
lemma isPlace_selfExpr (hrun : (selfExpr at?).runAt c t = (.ok e, t')) : e.isPlace = true := by
  obtain ⟨r, t₁, ⟨⟩, hrun⟩ := exists_of_bind hrun
  split at hrun
  · cases hrun
    rfl
  · cases hrun

lemma isPlace_selfField (h : c.receiver.hides field = false)
    (hrun : (selfField field).runAt c t = (.ok e, t')) : e.isPlace = true := by
  obtain ⟨r, t₁, ⟨⟩, hrun⟩ := exists_of_bind hrun
  rw [if_neg (by simpa [Receiver.hides] using h)] at hrun
  obtain ⟨self, t₂, -, ⟨⟩⟩ := exists_of_bind hrun
  rfl

lemma isPlace_resolveName (h : inScopes t.scopes name = false → c.receiver.hides name = false)
    (hrun : (resolveName name).runAt c t = (.ok e, t')) : e.isPlace = true := by
  obtain ⟨isLocal, t₁, ⟨⟩, hrun⟩ := exists_of_bind hrun
  cases hscopes : inScopes t.scopes name with
  | true =>
    rw [hscopes] at hrun
    cases hrun
    rfl
  | false =>
    rw [hscopes] at hrun
    obtain ⟨r, t₂, ⟨⟩, hrun⟩ := exists_of_bind hrun
    split at hrun
    · exact isPlace_selfField (h hscopes) hrun
    · obtain ⟨s, t₃, ⟨⟩, hrun⟩ := exists_of_bind hrun
      split at hrun
      · cases hrun
        rfl
      · cases hrun
        rfl

lemma hides_of_fieldSetter? (h : ((fieldSetter? node).runAt c t).1 = .ok none)
    (hname : (assignedField node).runAt c t = (.ok (some name), t)) :
    c.receiver.hides name = false := by
  cases hhides : c.receiver.hides name with
  | false => rfl
  | true =>
    obtain ⟨hkind, hfields⟩ :
        c.receiver.kind = .abstractDefault ∧ c.receiver.fields.contains name = true := by
      simpa [Receiver.hides] using hhides
    have hrun : (fieldSetter? node).runAt c t = (.ok none, _) := Prod.ext h rfl
    obtain ⟨r, t₁, ⟨⟩, hrun⟩ := exists_of_bind hrun
    rw [if_pos hkind] at hrun
    obtain ⟨found, t₂, hfound, hrun⟩ := exists_of_bind hrun
    rw [hname] at hfound
    cases hfound
    simp only [hfields] at hrun
    obtain ⟨self, t₃, -, ⟨⟩⟩ := exists_of_bind hrun

variable {go : Node → Lower Lowered}

lemma isPlace_fieldOf {target : Node}
    (h : field = "length" → target.kind = .identifier ∧ Text.beginsUpper target.text = true)
    (hrun : (fieldOf go target field).runAt c t = (.ok a, t')) : a.value.isPlace = true := by
  obtain ⟨value, t₁, -, hrun⟩ := exists_of_bind hrun
  split at hrun
  · rename_i hlength
    simp_all
  · cases hrun
    rfl

lemma isPlace_fieldAccess (hobject : node.fieldChild? "object" = some object)
    (hself : object.kind ≠ .self) (hfield : node.fieldChild? "field" = some field)
    (h : field.text = "length" → object.kind = .super
      ∨ object.kind = .identifier ∧ Text.beginsUpper object.text = true)
    (hrun : (fieldAccess go node).runAt c t = (.ok a, t')) : a.value.isPlace = true := by
  rw [fieldAccess, (Returns.lift (Node.require_of_fieldChild? hobject)).runAt_bind,
    (Returns.lift (Node.requireText_of_fieldChild? hfield)).runAt_bind] at hrun
  split at hrun
  · contradiction
  · obtain ⟨self, t₃, -, ⟨⟩⟩ := exists_of_bind hrun
    rfl
  · rename_i hidentifier
    have hlength : field.text = "length" →
        object.kind = .identifier ∧ Text.beginsUpper object.text = true :=
      fun hfield => (h hfield).resolve_left (by rw [hidentifier]; decide)
    obtain ⟨kind, t₃, -, hrun⟩ := exists_of_bind hrun
    split at hrun
    · obtain ⟨types, t₄, -, ⟨⟩⟩ := exists_of_bind hrun
      rfl
    · cases hrun
      rfl
    · exact isPlace_fieldOf hlength hrun
  · rename_i hsuper hidentifier
    exact isPlace_fieldOf (fun hfield => (h hfield).resolve_left hsuper) hrun

lemma isPlace_expressionStep
    (hgo : ∀ {inner : Node} {t t' : Trail} {a : Lowered}, inner.IsPlace c.receiver false →
      (go inner).runAt c t = (.ok a, t') → a.value.isPlace = true)
    (h : node.IsPlace c.receiver written)
    (hsetter : written = true → ((fieldSetter? node).runAt c t).1 = .ok none)
    (hrun : (expressionStep go node).runAt c t = (.ok a, t')) : a.value.isPlace = true := by
  unfold expressionStep at hrun
  cases h with
  | name hkind hhides =>
    rw [hkind] at hrun
    obtain ⟨e, t₁, hname, ⟨⟩⟩ := exists_of_bind hrun
    refine isPlace_resolveName (fun hscopes => ?_) hname
    cases written with
    | false => exact hhides rfl
    | true =>
      have hassigned : (assignedField node).Returns c t (some node.text) := by
        rw [assignedField, hkind]
        refine .bind (returns_isLocal node.text) ?_
        rw [hscopes]
        exact .pure _
      exact hides_of_fieldSetter? (hsetter rfl) hassigned
  | «instance» hkind =>
    rcases hkind with hkind | hkind
    · rw [hkind] at hrun
      obtain ⟨e, t₁, hself, ⟨⟩⟩ := exists_of_bind hrun
      exact isPlace_selfExpr hself
    · rw [hkind] at hrun
      cases hrun
  | own hkind hobject hself hfield hhides =>
    rename_i object field
    rw [hkind] at hrun
    dsimp only [fieldAccess] at hrun
    rw [(Returns.lift (Node.require_of_fieldChild? hobject)).runAt_bind,
      (Returns.lift (Node.requireText_of_fieldChild? hfield)).runAt_bind, hself] at hrun
    obtain ⟨e, t₃, hown, ⟨⟩⟩ := exists_of_bind hrun
    refine isPlace_selfField ?_ hown
    cases written with
    | false => exact hhides rfl
    | true =>
      have hassigned : (assignedField node).Returns c t (some field.text) := by
        rw [assignedField, hkind, hobject]
        simp only [hself]
        exact .bind (.lift (Node.requireText_of_fieldChild? hfield)) (.pure _)
      exact hides_of_fieldSetter? (hsetter rfl) hassigned
  | field hkind hobject hself hfield hlength =>
    rw [hkind] at hrun
    exact isPlace_fieldAccess hobject hself hfield hlength hrun
  | element hkind =>
    rw [hkind] at hrun
    obtain ⟨_, _, -, hrun⟩ := exists_of_bind hrun
    obtain ⟨array, _, -, hrun⟩ := exists_of_bind hrun
    obtain ⟨_, _, -, hrun⟩ := exists_of_bind hrun
    obtain ⟨index, _, -, ⟨⟩⟩ := exists_of_bind hrun
    rfl
  | parenthesized hkind hinner hplace =>
    rw [hkind] at hrun
    simp only [parenthesizedExpression, hinner] at hrun
    exact hgo hplace hrun
  | assignment hkind hleft hplace =>
    rw [hkind] at hrun
    dsimp only [assignmentValue] at hrun
    rw [(Returns.lift (Node.require_of_fieldChild? hleft)).runAt_bind] at hrun
    obtain ⟨ss, _, -, hrun⟩ := exists_of_bind hrun
    obtain ⟨value, _, hvalue, ⟨⟩⟩ := exists_of_bind hrun
    exact hgo (a := value) hplace hvalue

lemma isPlace_expressionWithin (height : Nat) : ∀ {node : Node} {written : Bool} {t t' : Trail}
    {a : Lowered}, node.IsPlace c.receiver written →
      (written = true → ((fieldSetter? node).runAt c t).1 = .ok none) →
        (expressionWithin height node).runAt c t = (.ok a, t') → a.value.isPlace = true := by
  induction height with
  | zero =>
    intro node written t t' a _ _ hrun
    cases hrun
  | succ _ ih =>
    intro node written t t' a h hsetter hrun
    exact isPlace_expressionStep (fun hinner hrun => ih hinner nofun hrun) h hsetter hrun

lemma settable_of_isPlace {p : Setting} (h : node.IsPlace p.receiver true) (height : Nat) :
    Settable Demand.places.scale p (expressionWithin height) node := by
  rintro b c t a t' hsetting hsetter hrun -
  have hreceiver : c.receiver = p.receiver := congrArg Setting.receiver hsetting
  rw [← hreceiver] at h
  exact isPlace_expressionWithin height h (fun _ => hsetter) hrun

end Lower

/-- Whatever the node assigns to is a place. -/
def Tree.Node.StoresToPlaces (types : TypeContext) (r : Receiver) (node : Node) : Prop :=
  ∀ target ∈ Part.places types.symbols node, target.IsPlace r true

lemma accounts_places (p : Setting) :
    Accounts Demand.places.scale p (fun _ _ => 0) (fun _ _ _ => 0)
      fun q => q.Everywhere (Node.StoresToPlaces p.types p.receiver) where
  deep := Demand.deep_scale _
  lossless _ _ := rfl
  behind _ := ⟨rfl, fun _ _ => rfl, fun _ _ _ => rfl⟩
  value h := ⟨fun _ => (Part.sum_silent (S := Demand.places.scale) rfl _).symm,
    fun q hq => .inr (Part.hold_ofValue h p.types q hq)⟩
  maybe h := ⟨fun _ => rfl, h⟩
  admits h height := ⟨fun _ _ _ => trivial, fun _ _ _ => trivial,
    fun target htarget => settable_of_isPlace (h.here target htarget) height,
    fun _ => trivial⟩
  code h := by
    refine .inr ⟨⟨fun n hn target htarget => ?_, fun _ _ => rfl,
      fun _ => ⟨Demand.opens_places, .inl trivial⟩⟩, fun _ => ?_, Part.hold_ofCode h _ p.types⟩
    · exact settable_of_isPlace (h n hn target htarget) target.height
    · rw [own_eq_zero fun _ => rfl, Part.sum_silent (S := Demand.places.scale) rfl]

lemma places_met {c : Context} {node : Node}
    (h : node.Everywhere (Node.StoresToPlaces c.toTypeContext c.receiver))
    (hrun : (statement node).runAt c t = (.ok ss, t')) : Demand.places.Met ss := by
  have hnode : Part.Everywhere (Node.StoresToPlaces c.toTypeContext c.receiver)
    (.code c.inReturn node) := h
  have hcounts := (accounts_places c.setting).counts_statement hnode c t ss t' rfl hrun
  rw [Demand.met_iff, ← Demand.all_scale]
  exact hcounts

/-- Whatever is assigned to or stepped in a statement, at any depth, is a variable, a field or an
element, when all that is stored to has the form of a place. -/
theorem assigned_are_places {c : Context} {t t' : Trail} {node : Node} {ss : List Stmt}
    (hplaces : node.Everywhere (Node.StoresToPlaces c.toTypeContext c.receiver))
    (hrun : (Lower.statement node).runAt c t = (.ok ss, t')) :
    ∀ s ∈ Stmt.walkAll true ss, ∀ target,
      (∃ value, s = .assign target value) ∨ (∃ operator, s = .step target operator) →
        target.isPlace = true := by
  rintro s hs target (⟨value, rfl⟩ | ⟨operator, rfl⟩)
  · simpa [Demand.breaks] using places_met hplaces hrun _ hs
  · simpa [Demand.breaks] using places_met hplaces hrun _ hs

open Tree.Node (plain tree leaf)

/-- `object.add(n);` -/
def addition (object : Node) : Node :=
  tree 1 .expressionStatement [tree 2 .methodInvocation [object,
    plain 3 .identifier (some "name") "add" [],
    plain 4 (.other "argument_list") (some "arguments") "" [leaf 5 .identifier "n"]]]

/-- `{ items.add(n); n++; }` -/
def growing : Node :=
  tree 10 .block [addition (plain 11 .identifier (some "object") "items" []),
    tree 12 .expressionStatement [tree 13 .update
      [leaf 14 .identifier "n", leaf 15 .increment "++"]]]

/-- `items()` -/
def itemsCall : Node :=
  plain 20 .methodInvocation (some "object") "" [plain 21 .identifier (some "name") "items" [],
    plain 22 (.other "argument_list") (some "arguments") "" []]

def behindAccessors : Context where
  receiver := { kind := .abstractDefault, selfText := "m", fields := ⟨[("items", "items")]⟩ }

theorem growing_assigns_places :
    growing.Everywhere (Node.StoresToPlaces behindAccessors.toTypeContext behindAccessors.receiver)
      ∧ ∃ ss t', (Lower.statement growing).runAt behindAccessors {} = (.ok ss, t')
        ∧ .step (.var "n") "++" ∈ Stmt.walkAll true ss
        ∧ ∀ s ∈ Stmt.walkAll true ss, ∀ target,
          (∃ value, s = .assign target value) ∨ (∃ operator, s = .step target operator) →
            target.isPlace = true := by
  have hplaces : growing.Everywhere
      (Node.StoresToPlaces behindAccessors.toTypeContext behindAccessors.receiver) := by
    intro n hn target htarget
    have hmem : target ∈ growing.walk.flatMap (Part.places {}) :=
      List.mem_flatMap.2 ⟨n, hn, htarget⟩
    have hnames : ∀ target ∈ growing.walk.flatMap (Part.places {}), target.kind = .identifier := by
      decide
    exact .name (hnames target hmem) nofun
  refine ⟨hplaces, _, _, rfl, ?_, assigned_are_places (t := {}) hplaces rfl⟩
  exact List.mem_of_getElem? (show _[2]? = _ from rfl)

theorem call_is_assigned :
    ∃ ss t', ((Lower.statement (addition itemsCall)).runAt {} {}) = (.ok ss, t')
      ∧ ∃ target value, .assign target value ∈ Stmt.walkAll true ss ∧ target.isPlace = false :=
  ⟨_, _, rfl, _, _, List.mem_cons_self, rfl⟩

end JavaToGo
