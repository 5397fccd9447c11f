import JavaToGo.Proofs.Declaration.Growth
import JavaToGo.Proofs.Draft.Contributions

/-!
# What one member of a class contributes

A routine adds one function; a field declaration has a share for each declarator,
in the order of the source.
-/

namespace JavaToGo

open List Draft Lower

variable {fields : List DeclaredField} {call : Call}

namespace Lower

variable {c : Context} {node : Node}

section

lemma comments_of_staticMethod
    (h : (staticMethod node record name isPublic).runAt c t = (.ok f, t')) :
    f.comments = [provenance c.unit.path node] := by
  simp only [staticMethod, runAt_bind_eq_ok] at h
  obtain ⟨body, t₁, -, comments, t₂, ⟨⟩, ⟨⟩⟩ := h
  rfl

variable {r : Receiver} {typeParams : List String}

lemma comments_of_instanceMethod
    (h : (instanceMethod node record name isPublic r param).runAt c t = (.ok f, t')) :
    f.comments = [provenance c.unit.path node] := by
  unfold instanceMethod at h
  split at h
  · cases h
  · simp only [runAt_bind_eq_ok] at h
    obtain ⟨body, t₁, -, comments, t₂, ⟨⟩, ⟨⟩⟩ := h
    rfl

lemma comments_of_method (h : (method node r param exports).runAt c t = (.ok f, t')) :
    f.comments = [provenance c.unit.path node] := by
  simp only [method, runAt_bind_eq_ok] at h
  obtain ⟨s, t₁, -, record, t₂, -, hbody⟩ := h
  split at hbody
  · exact comments_of_staticMethod hbody
  · exact comments_of_instanceMethod hbody

lemma comments_of_constructor
    (h : (constructor node structType r fields typeParams).runAt c t = (.ok f, t')) :
    f.comments = [provenance c.unit.path node] := by
  simp only [constructor, runAt_bind_eq_ok] at h
  obtain ⟨s, t₁, -, record, t₂, -, bodyNode, t₃, -, body, t₄, -, comments, t₅, ⟨⟩, ⟨⟩⟩ := h
  rfl

def constructorContext (c : Context) (structType : String) (r : Receiver)
    (typeParams : List String) : Context :=
  { c with receiver := r, typeParams := typeParams :: c.typeParams,
           returnShape := some { type := some structType }, inReturn := false }

lemma exists_of_runAt_constructor
    (h : (constructor node structType r fields typeParams).runAt c t = (.ok f, t')) :
    ∃ params body ss rest, ∃ t₁ t₂ t₃ : Trail,
      node.formalNames = .ok params ∧ node.require "body" = .ok body
      ∧ (constructorPreamble structType fields).runAt (constructorContext c structType r typeParams)
          { t₁ with scopes := [Scope.ofNames params] } = (.ok ss, t₂)
      ∧ (block body).runAt (constructorContext c structType r typeParams) t₂ = (.ok rest, t₃)
      ∧ f.body = ss ++ rest ++ [returnSelf] ∧ f.result = some structType := by
  simp only [constructor, runAt_bind_eq_ok, runAt_lift_eq_ok] at h
  obtain ⟨s, t₁, -, record, t₂, -, bodyNode, t₃, ⟨hbody, rfl⟩, body, t₄, hlowered, _, _, -, ⟨⟩⟩ := h
  obtain ⟨params, t₅, hparams, hinner⟩ := exists_of_bind
    (x := (liftM node.formalNames : Lower (List String)))
    (c := { c with receiver := r, typeParams := typeParams :: c.typeParams }) hlowered
  obtain ⟨t₆, hinner⟩ := exists_of_runAt_withFunctionScope hinner
  simp only [runAt_bind_eq_ok] at hinner
  obtain ⟨ss, t₇, hpreamble, rest, t₈, hrest, ⟨⟩⟩ := hinner
  exact ⟨params, bodyNode, ss, rest, t₅, t₇, t₆, (runAt_lift_eq_ok.1 hparams).1, hbody, hpreamble,
    hrest, rfl, rfl⟩

lemma comments_of_staticInitializer (h : (staticInitializer node).runAt c t = (.ok f, t')) :
    f.comments = [provenance c.unit.path node] := by
  unfold staticInitializer at h
  split at h
  · cases h
  · simp only [runAt_bind_eq_ok] at h
    obtain ⟨statements, t₁, -, comments, t₂, ⟨⟩, ⟨⟩⟩ := h
    rfl

end

lemma forall₂_of_mapM {α β : Type} {convert : α → Outcome β} {as : List α} {bs : List β}
    (h : (as.mapM fun a => (liftM (convert a) : Lower β)).runAt c t = (.ok bs, t')) :
    List.Forall₂ (fun a b => convert a = .ok b) as bs := by
  induction as generalizing bs t with
  | nil =>
    cases h
    exact .nil
  | cons a as ih =>
    simp only [mapM_cons, runAt_bind_eq_ok, runAt_lift_eq_ok] at h
    obtain ⟨b, t₁, ⟨hfirst, -⟩, rest, t₂, hrest, ⟨⟩⟩ := h
    exact .cons hfirst (ih hrest)

/-- The fields that a declaration declares, with their Go type. -/
def DeclaredIn (c : Context) (node : Node) (fields : List DeclaredField) : Prop :=
  ∃ typeNode type, node.require "type" = .ok typeNode
    ∧ typeOf (c.toTypeContext.withTypeParams (c.unit.root.enclosingTypeParameters node)) typeNode
        = .ok type
    ∧ List.Forall₂ (fun declarator field =>
        declaredField node.modifiers.isStatic type declarator = .ok field)
      (node.fieldChildren "declarator") fields

lemma declaredIn_of_declaredFields
    (h : (declaredFields node).runAt c t = (.ok fields, t')) : DeclaredIn c node fields := by
  simp only [declaredFields, runAt_bind_eq_ok, runAt_lift_eq_ok] at h
  obtain ⟨c', t₁, ⟨⟩, types, t₂, ⟨⟩, typeNode, t₃, ⟨htypeNode, -⟩, type, t₄,
    ⟨htype, -⟩, hfields⟩ := h
  exact ⟨typeNode, type, htypeNode, htype, forall₂_of_mapM hfields⟩

lemma of_fieldVariable (h : (fieldVariable field).runAt c t = (.ok v, t')) :
    v.name = field.name ∧ v.type = some field.goType := by
  unfold fieldVariable at h
  split at h
  · cases h
    exact ⟨rfl, rfl⟩
  · obtain ⟨value, t₁, -, hlast⟩ := exists_of_bind h
    split at hlast
    · cases hlast
      exact ⟨rfl, rfl⟩
    · cases hlast

end Lower

namespace Call

variable (c : Context) (call : Call)

/-- The call leaves every group as it stood. -/
def AddsNothing : Prop :=
  ∀ g, (call.after c).standing g = call.before.standing g

/-- The call adds one function or method, with the comment that says where it comes from, and
nothing else. -/
def AddsRoutine : Prop :=
  ∃ f : Code.Function, f.comments = [Lower.provenance c.unit.path call.node]
    ∧ call.added c .functions ++ call.added c .methods = [.function f]
    ∧ ∀ g, g ≠ .functions → g ≠ .methods → call.added c g = []

/-- What the struct at a place and the variables get from a field declaration. -/
structure FieldShare (place : Place) (share : List Code.Field) : Prop where
  types : (call.after c).standing .types
    = (call.before.standing .types).modify place (Build.withFields share)
  failed : call.Failed c → share = [] ∧ call.AddsNothing c
  returned : call.Returned c → ∃ fields, Lower.DeclaredIn c call.node fields
    ∧ (call.node.modifiers.isStatic = false →
        share = fields.map DeclaredField.structField
          ∧ ∀ g, g ≠ .types → (call.after c).standing g = call.before.standing g)
    ∧ (call.node.modifiers.isStatic = true →
        share = []
          ∧ (∃ vars : List Code.ModuleVar,
              List.Forall₂ (fun f v => v.name = f.name ∧ v.type = some f.goType) fields vars
                ∧ (call.after c).standing .vars = call.before.standing .vars ++ vars.map .var)
          ∧ ∀ g, g ≠ .vars → (call.after c).standing g = call.before.standing g)

variable {c call}

lemma added_eq (h : (call.after c).standing g = call.before.standing g ++ decls) :
    call.added c g = decls := by
  rw [added, h, ← length_standing, drop_left]

lemma addsRoutine_of_add {f : Code.Function}
    (hcomments : f.comments = [provenance c.unit.path call.node])
    (hafter : ∀ g, (call.after c).standing g = call.before.standing g
      ++ if g = (if f.receiver.isSome then .methods else .functions) then [.function f] else []) :
    call.AddsRoutine c := by
  refine ⟨f, hcomments, ?_, ?_⟩
  · rw [added_eq (hafter _), added_eq (hafter _)]
    cases f.receiver <;> simp
  · intro g hfunctions hmethods
    rw [added_eq (hafter g)]
    cases f.receiver <;> simp [hfunctions, hmethods]

lemma addsNothing_of_growsLast (h : call.body.2.GrowsLast c) (hfailed : call.Failed c) :
    call.AddsNothing c := by
  obtain ⟨failure, hfailure⟩ := hfailed
  let Same : Code.SourceFile → List Code.SourceFile → Prop :=
    fun file staged => ∀ g, (stacked file staged).group g = call.before.standing g
  have hsame : Indifferent Same :=
    ⟨fun imports h g => by simpa [group_stacked] using h g,
      fun m h g => by simpa [group_stacked] using h g⟩
  have hover : call.before.openMember.Over Same 1 :=
    Over.openMember ⟨[], call.before.staged, rfl, rfl, fun _ => rfl⟩
  obtain ⟨upper, base, hlength, hstaged, hbase⟩ :=
    (h.runAt_over hsame hover hfailure).recordFailure hsame call.location call.node failure
  obtain rfl : upper = [] := length_eq_zero_iff.1 hlength
  intro g
  rw [call.after_of_error hfailure]
  have hbelow := hbase g
  rw [nil_append] at hstaged
  rw [← hstaged] at hbelow
  exact hbelow

end Call

namespace Build

section

/-- A member that becomes a function. -/
def IsRoutine (node : Node) : Prop :=
  node.kind = .methodDeclaration ∨ node.kind = .constructorDeclaration
    ∨ node.kind = .staticInitializer

variable {go : Node → Build Unit}

lemma exists_of_addLowered (h : (lower x >>= addFunction).runAt .tolerant c d = (.ok (), d')) :
    ∃ f t, x.runAt c d.trail = (.ok f, t)
      ∧ d' = (d.withTrail t).add (if f.receiver.isSome then .methods else .functions)
          [.function f] := by
  obtain ⟨f, d₁, hlower, hadd⟩ := exists_of_bind h
  obtain ⟨t, hrun, rfl⟩ := exists_of_lowered hlower
  cases hadd
  exact ⟨f, t, hrun, rfl⟩

lemma exists_of_classMember (hkind : IsRoutine node)
    (h : (classMember go shape fields node).runAt .tolerant c d = (.ok (), d')) :
    ∃ (f : Code.Function) (t : Trail), f.comments = [provenance c.unit.path node]
      ∧ d' = (d.withTrail t).add (if f.receiver.isSome then .methods else .functions)
          [.function f] := by
  unfold classMember at h
  rcases hkind with hkind | hkind | hkind
  · simp only [hkind] at h
    obtain ⟨self, d₁, hself, hrest⟩ := exists_of_bind h
    obtain ⟨-, rfl⟩ := runAt_lift_eq_ok.1 hself
    obtain ⟨f, t, hrun, rfl⟩ := exists_of_addLowered hrest
    -- The type parameters of the class do not change the unit.
    let inner : Context := { c with typeParams := shape.typeParams :: c.typeParams }
    have hcomments : f.comments = [provenance inner.unit.path node] := comments_of_method hrun
    exact ⟨f, t, hcomments, rfl⟩
  · simp only [hkind] at h
    obtain ⟨self, d₁, hself, hrest⟩ := exists_of_bind h
    obtain ⟨-, rfl⟩ := runAt_lift_eq_ok.1 hself
    obtain ⟨f, t, hrun, rfl⟩ := exists_of_addLowered hrest
    exact ⟨f, t, comments_of_constructor hrun, rfl⟩
  · simp only [hkind] at h
    obtain ⟨f, t, hrun, rfl⟩ := exists_of_addLowered h
    exact ⟨f, t, comments_of_staticInitializer hrun, rfl⟩

lemma addsRoutine_of_classMember (hbody : call.body = ⟨Unit, classMember go shape fields call.node⟩)
    (hkind : IsRoutine call.node) (hreturned : call.Returned c) : call.AddsRoutine c := by
  obtain ⟨u, d', hrun, hafter⟩ := hreturned.exists_run hbody
  obtain ⟨f, t, hcomments, rfl⟩ := exists_of_classMember hkind hrun
  refine Call.addsRoutine_of_add hcomments fun g => ?_
  rw [hafter, standing_add_eq_append, standing_withTrail, standing_openMember]

end

lemma withFields_nil (decl : Decl) : withFields [] decl = decl := by
  cases decl <;> simp [withFields]

lemma modify_withFields_nil (decls : List Decl) (place : Place) :
    decls.modify place (withFields []) = decls := by
  have hid : withFields [] = id := funext withFields_nil
  rw [hid, modify_id]

variable {c : Context} {place : Place}

lemma exists_of_addStaticFields (h : (addStaticFields fields).runAt .tolerant c d = (.ok (), d')) :
    ∃ vars : List Code.ModuleVar,
      List.Forall₂ (fun f v => v.name = f.name ∧ v.type = some f.goType)
          (fields.filter DeclaredField.isStatic) vars
        ∧ ∀ g, d'.standing g = d.standing g ++ if g = .vars then vars.map .var else [] := by
  induction fields generalizing d with
  | nil =>
    cases h
    exact ⟨[], .nil, fun g => by simp⟩
  | cons f fs ih =>
    rw [addStaticFields] at h
    by_cases hstatic : f.isStatic = true
    · rw [if_pos hstatic] at h
      simp only [runAt_bind_eq_ok] at h
      obtain ⟨v, d₁, hlower, u, d₂, ⟨⟩, hrest⟩ := h
      obtain ⟨t, hrun, rfl⟩ := exists_of_lowered hlower
      obtain ⟨vars, hvars, hstanding⟩ := ih hrest
      refine ⟨v :: vars, ?_, fun g => ?_⟩
      · rw [filter_cons_of_pos hstatic]
        exact .cons (of_fieldVariable hrun) hvars
      · rw [hstanding, standing_add_eq_append]
        split <;> simp
    · rw [if_neg hstatic] at h
      obtain ⟨vars, hvars, hstanding⟩ := ih h
      rw [filter_cons_of_neg hstatic]
      exact ⟨vars, hvars, hstanding⟩

lemma exists_of_structFields
    (h : (structFields (some place) node).runAt .tolerant c d = (.ok fields, d')) :
    Lower.DeclaredIn c node fields ∧ (∀ f ∈ fields, f.isStatic = node.modifiers.isStatic)
      ∧ ∃ vars : List Code.ModuleVar,
        List.Forall₂ (fun f v => v.name = f.name ∧ v.type = some f.goType)
            (fields.filter DeclaredField.isStatic) vars
          ∧ ∀ g, d'.standing g
            = if g = .types then (d.standing .types).modify place
                (withFields ((instanceFields fields).map DeclaredField.structField))
              else d.standing g ++ if g = .vars then vars.map .var else [] := by
  simp only [structFields, runAt_bind_eq_ok] at h
  obtain ⟨found, d₁, hlower, u, d₂, hstatics, v, d₃, ⟨⟩, ⟨⟩⟩ := h
  obtain ⟨t, hrun, rfl⟩ := exists_of_lowered hlower
  obtain ⟨vars, hvars, hstanding⟩ := exists_of_addStaticFields hstatics
  refine ⟨declaredIn_of_declaredFields hrun,
    fun f hf => (gives_declaredFields node c _ fields t hrun f hf).1, vars, hvars,
    fun g => ?_⟩
  rw [standing_grow, hstanding, hstanding, standing_withTrail, standing_withTrail]
  split
  · next hg => simp
  · rfl

lemma fieldShare_of_failed
    (hbody : call.body = ⟨List DeclaredField, structFields (some place) call.node⟩)
    (hfailed : call.Failed c) : call.FieldShare c place [] := by
  have hlast : call.body.2.GrowsLast c := by
    rw [hbody]
    exact growsLast_structFields place call.node
  have hnothing := Call.addsNothing_of_growsLast hlast hfailed
  refine ⟨?_, fun _ => ⟨rfl, hnothing⟩, ?_⟩
  · rw [hnothing, modify_withFields_nil]
  · rintro ⟨value, hvalue⟩
    obtain ⟨failure, hfailure⟩ := hfailed
    rw [hvalue] at hfailure
    cases hfailure

section

variable {place : Place} {call : Call} {fields : List DeclaredField} {vars : List Code.ModuleVar}
variable (hreturned : ¬ call.Failed c) (hdeclared : Lower.DeclaredIn c call.node fields)
variable (hfields : ∀ f ∈ fields, f.isStatic = call.node.modifiers.isStatic)
variable (hvars : List.Forall₂ (fun f v => v.name = f.name ∧ v.type = some f.goType)
  (fields.filter DeclaredField.isStatic) vars)
variable (hafter : ∀ g, (call.after c).standing g
  = if g = .types then (call.before.standing .types).modify place
      (withFields ((instanceFields fields).map DeclaredField.structField))
    else call.before.standing g ++ if g = .vars then vars.map .var else [])
include hreturned hdeclared hfields hvars hafter

lemma fieldShare_of_instance (hinstance : call.node.modifiers.isStatic = false) :
    call.FieldShare c place (fields.map DeclaredField.structField) := by
  have hnone : fields.filter DeclaredField.isStatic = [] :=
    filter_eq_nil_iff.2 fun f hf => by simp [hfields f hf, hinstance]
  have hall : instanceFields fields = fields :=
    filter_eq_self.2 fun f hf => by simp [hfields f hf, hinstance]
  rw [hnone] at hvars
  cases hvars
  rw [hall] at hafter
  refine ⟨by rw [hafter, if_pos rfl], fun h => absurd h hreturned, fun _ =>
    ⟨fields, hdeclared, fun _ => ⟨rfl, ?_⟩, fun h => ?_⟩⟩
  · intro g hg
    rw [hafter, if_neg hg]
    simp
  · rw [hinstance] at h
    cases h

lemma fieldShare_of_static (hstatic : call.node.modifiers.isStatic = true) :
    call.FieldShare c place [] := by
  have hall : fields.filter DeclaredField.isStatic = fields :=
    filter_eq_self.2 fun f hf => by simp [hfields f hf, hstatic]
  have hnone : instanceFields fields = [] :=
    filter_eq_nil_iff.2 fun f hf => by simp [hfields f hf, hstatic]
  rw [hall] at hvars
  rw [hnone, map_nil, modify_withFields_nil] at hafter
  refine ⟨?_, fun h => absurd h hreturned, fun _ =>
    ⟨fields, hdeclared, fun h => ?_, fun _ => ⟨rfl, ⟨vars, hvars, ?_⟩, ?_⟩⟩⟩
  · rw [hafter, if_pos rfl, modify_withFields_nil]
  · rw [hstatic] at h
    cases h
  · rw [hafter, if_neg (by decide), if_pos rfl]
  · intro g hg
    rw [hafter, if_neg hg, append_nil]
    split
    · next htypes => rw [htypes]
    · rfl

end

lemma fieldShare_of_structFields
    (hbody : call.body = ⟨List DeclaredField, structFields (some place) call.node⟩) :
    ∃ share, call.FieldShare c place share := by
  by_cases hfailed : call.Failed c
  · exact ⟨[], fieldShare_of_failed hbody hfailed⟩
  · obtain ⟨fields, d', hrun, hafter⟩ := (Call.returned_of_not_failed hfailed).exists_run hbody
    obtain ⟨hdeclared, hmodifier, vars, hvars, hstanding⟩ := exists_of_structFields hrun
    simp only [hstanding, standing_openMember] at hafter
    cases hstatic : call.node.modifiers.isStatic with
    | false =>
      exact ⟨_, fieldShare_of_instance hfailed hdeclared hmodifier hvars hafter hstatic⟩
    | true => exact ⟨[], fieldShare_of_static hfailed hdeclared hmodifier hvars hafter hstatic⟩

end Build

end JavaToGo
