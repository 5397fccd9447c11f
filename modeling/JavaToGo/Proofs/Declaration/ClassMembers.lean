import JavaToGo.Proofs.Conversion.Failures
import JavaToGo.Proofs.Declaration.MemberShares

/-!
# Every member of a class is accounted for

A class hands its fields to boundaries first and then its other members, each
once, and at the end what completes the class.
-/

namespace JavaToGo

open List Draft Build

variable {call : Call} {shape : ClassShape} {node : Node} {c : Context}

namespace Build

variable {calls : List Call}

section

variable {α : Type} {convert : Node → Build α}

/-- The call is made for the node. -/
def Converts (convert : Node → Build α) (node : Node) (call : Call) : Prop :=
  call.node = node ∧ call.body = ⟨α, convert node⟩

lemma linked_eachMember
    (h : (eachMember owner convert nodes).runAt .tolerant c d = (.ok results, d')) :
    Call.Linked c d ((eachMember owner convert nodes).ownCalls c d) d'
      ∧ List.Forall₂ (Converts convert) nodes ((eachMember owner convert nodes).ownCalls c d) := by
  induction nodes generalizing d results with
  | nil =>
    cases h
    exact ⟨rfl, .nil⟩
  | cons node nodes ih =>
    simp only [eachMember, runAt_bind_eq_ok] at h
    obtain ⟨location, d₁, hlocation, converted, d₂, hmember, rest, d₃, hrest, ⟨⟩⟩ := h
    obtain ⟨-, rfl⟩ := runAt_lift_eq_ok.1 hlocation
    obtain ⟨hlinked, hconverts⟩ := ih hrest
    have hcalls : (eachMember owner convert (node :: nodes)).ownCalls c d
        = ⟨location, node, ⟨α, convert node⟩, d⟩
          :: (eachMember owner convert nodes).ownCalls c d₂ := by
      rw [eachMember, ownCalls_bind hlocation, ownCalls_bind hmember, ownCalls_bind hrest]
      simp
    have hafter : d₂ = Call.after c ⟨location, node, ⟨α, convert node⟩, d⟩ :=
      ((Prod.mk.inj hmember).2).symm
    rw [hcalls]
    exact ⟨⟨rfl, hafter ▸ hlinked⟩, .cons ⟨rfl, rfl⟩ hconverts⟩

lemma Converts.map_node (h : List.Forall₂ (Converts convert) nodes calls) :
    calls.map Call.node = nodes := by
  induction h with
  | nil => rfl
  | cons hfirst _ ih => rw [map_cons, hfirst.1, ih]

lemma Converts.body_of_mem (h : List.Forall₂ (Converts convert) nodes calls)
    (hcall : call ∈ calls) : call.body = ⟨α, convert call.node⟩ := by
  induction h with
  | nil => cases hcall
  | cons hfirst _ ih =>
    rcases mem_cons.1 hcall with rfl | hcall
    · rw [hfirst.1]
      exact hfirst.2
    · exact ih hcall

end

section

variable {place : Place}

lemma withFields_withFields (fields more : List Code.Field) (decl : Decl) :
    withFields more (withFields fields decl) = withFields (fields ++ more) decl := by
  cases decl <;> simp [withFields]

/-- The struct at the place has gained these fields. -/
def Fills (place : Place) (share : List Code.Field) (d d' : Draft) : Prop :=
  d'.standing .types = (d.standing .types).modify place (withFields share)

lemma fills_of_standing_eq {d d' : Draft} (h : d'.standing .types = d.standing .types) :
    Fills place [] d d' := by
  rw [Fills, h, modify_withFields_nil]

lemma Fills.trans (h : Fills place share d d₁) (h' : Fills place more d₁ d') :
    Fills place (share ++ more) d d' := by
  rw [Fills, h', h, modify_modify_eq]
  congr 1
  funext decl
  exact withFields_withFields _ _ decl

lemma standing_of_fieldShare (h : call.FieldShare c place share) (hg : g ≠ .types) :
    (call.after c).standing g = call.before.standing g ++ call.added c g := by
  have hprefix : call.before.standing g <+: (call.after c).standing g := by
    by_cases hfailed : call.Failed c
    · exact (h.failed hfailed).2 g ▸ prefix_rfl
    · obtain ⟨fields, -, hinstance, hstatic⟩ := h.returned (Call.returned_of_not_failed hfailed)
      cases hmodifier : call.node.modifiers.isStatic with
      | false => exact (hinstance hmodifier).2 g hg ▸ prefix_rfl
      | true =>
        obtain ⟨-, ⟨vars, -, hvars⟩, hothers⟩ := hstatic hmodifier
        by_cases hgvars : g = .vars
        · rw [hgvars, hvars]
          exact prefix_append _ _
        · exact hothers g hgvars ▸ prefix_rfl
  obtain ⟨rest, hrest⟩ := hprefix
  rw [Call.added_eq hrest.symm, hrest]

lemma types_of_fieldShares
    (hshares : List.Forall₂ (fun call share => call.FieldShare c place share) calls shares)
    (hlinked : Call.Linked c d calls d') :
    d'.standing .types = (d.standing .types).modify place (withFields shares.flatten) := by
  induction hshares generalizing d with
  | nil =>
    obtain rfl : d' = d := hlinked
    exact fills_of_standing_eq rfl
  | cons hfirst _ ih =>
    obtain ⟨rfl, hrest⟩ := hlinked
    exact Fills.trans hfirst.types (ih hrest)

lemma exists_fieldShares (h : List.Forall₂ (Converts (structFields (some place))) nodes calls) :
    ∃ shares, List.Forall₂ (fun call share => call.FieldShare c place share) calls shares := by
  induction h with
  | nil => exact ⟨[], .nil⟩
  | @cons node call nodes calls hfirst _ ih =>
    obtain ⟨shares, hshares⟩ := ih
    obtain ⟨share, hshare⟩ := fieldShare_of_structFields (c := c) (hfirst.1 ▸ hfirst.2)
    exact ⟨share :: shares, .cons hshare hshares⟩

end

section

variable {α : Type}

/-- Calls for the class itself, with the given scripts, one after the other. -/
structure Completes (c : Context) (node : Node) (bodies : List ((β : Type) × Build β)) (d : Draft)
    (calls : List Call) (d' : Draft) : Prop where
  linked : Call.Linked c d calls d'
  node : ∀ call ∈ calls, call.node = node
  bodies : calls.map Call.body = bodies

lemma completes_nil (node : Node) (d : Draft) : Completes c node [] d [] d :=
  ⟨rfl, by simp, rfl⟩

lemma completes_member
    (h : (do let _ ← member location node x).runAt .tolerant c d = (.ok (), d')) :
    Completes c node [⟨α, x⟩] d ((do let _ ← member location node x).ownCalls c d) d' := by
  obtain ⟨result, d₁, hmember, ⟨⟩⟩ := exists_of_bind h
  have hcalls : ((do let _ ← member location node x) : Build Unit).ownCalls c d
      = [⟨location, node, ⟨α, x⟩, d⟩] := by
    rw [ownCalls_bind hmember]
    simp
  have hafter : d' = Call.after c ⟨location, node, ⟨α, x⟩, d⟩ := ((Prod.mk.inj hmember).2).symm
  rw [hcalls]
  exact ⟨⟨rfl, hafter⟩, by simp, rfl⟩

/-- The default constructor of a class that declares none. -/
def constructorBodies (shape : ClassShape) (fields : List DeclaredField) (members : List Node) :
    List ((β : Type) × Build β) :=
  if members.any fun m => m.kind == .constructorDeclaration then []
  else [⟨Unit, classDefaultConstructor shape fields⟩]

/-- What completes a class below an abstract one. -/
def baseBodies (shape : ClassShape) : List ((β : Type) × Build β) :=
  if shape.extendsAbstract then [⟨Unit, completeAbstract shape⟩] else []

lemma completes_ensureConstructor
    (h : (ensureConstructor shape fields members).runAt .tolerant c d = (.ok (), d')) :
    Completes c shape.node (constructorBodies shape fields members) d
      ((ensureConstructor shape fields members).ownCalls c d) d' := by
  unfold ensureConstructor at h ⊢
  unfold constructorBodies
  split at h
  · next hany =>
      cases h
      rw [if_pos hany, if_pos hany]
      exact completes_nil shape.node d
  · next hnone =>
      rw [if_neg hnone, if_neg hnone]
      exact completes_member h

lemma completes_ensureAbstractBase
    (h : (ensureAbstractBase shape).runAt .tolerant c d = (.ok (), d')) :
    Completes c shape.node (baseBodies shape) d ((ensureAbstractBase shape).ownCalls c d) d' := by
  unfold ensureAbstractBase at h ⊢
  unfold baseBodies
  split at h
  · next hextends =>
      rw [if_pos hextends, if_pos hextends]
      exact completes_member h
  · next hplain =>
      cases h
      rw [if_neg hplain, if_neg hplain]
      exact completes_nil shape.node d

lemma growsHeld_of_completing {body : (β : Type) × Build β}
    (h : body ∈ constructorBodies shape fields members ++ baseBodies shape) :
    body.2.GrowsHeld c Held.none := by
  rcases mem_append.1 h with h | h
  · unfold constructorBodies at h
    split at h
    · cases h
    · obtain rfl := mem_singleton.1 h
      exact still_classDefaultConstructor.growsHeld _
  · unfold baseBodies at h
    split at h
    · obtain rfl := mem_singleton.1 h
      exact (still_completeAbstract shape).growsHeld _
    · cases h

lemma exists_of_checkStruct
    (h : (checkStruct node structName typeParams).runAt .tolerant c d = (.ok (), d')) :
    ∃ checks : List Code.ModuleVar, (∀ v ∈ checks, v.name = "_")
      ∧ ∀ g, d'.standing g = d.standing g ++ if g = .vars then checks.map .var else [] := by
  unfold checkStruct at h
  split at h
  · obtain ⟨interfaces, d₁, hinterfaces, hadd⟩ := exists_of_bind h
    obtain ⟨c', d₂, ⟨⟩, hlift⟩ := exists_of_bind hinterfaces
    obtain ⟨-, rfl⟩ := runAt_lift_eq_ok.1 hlift
    cases hadd
    refine ⟨interfaces.map fun i => interfaceCheck i (emptyValue structName), ?_, fun g => ?_⟩
    · simp [interfaceCheck]
    · exact standing_add_eq_append _ _ _ _
  · cases h
    exact ⟨[], by simp, fun g => by simp⟩

end

def classStruct (shape : ClassShape) (fields : List Code.Field) : Decl :=
  .struct { name := shape.name, fields := fields, embeds := shape.embeds,
            isPublic := shape.isPublic, typeParams := shape.typeParams }

/-- The calls of a run that converts a class, and the drafts between them. -/
structure ClassParts (c : Context) (go : Node → Build Unit) (node : Node) (shape : ClassShape)
    (fields : List DeclaredField) (d d₁ d₂ d₃ d₄ d' : Draft)
    (fieldCalls memberCalls constructorCalls baseCalls : List Call) : Prop where
  own : (concreteClass go node).ownCalls c d
    = fieldCalls ++ memberCalls ++ (constructorCalls ++ baseCalls)
  fieldLinks : Call.Linked c (d.add .types [classStruct shape []]) fieldCalls d₁
  fieldConverts : List.Forall₂ (Converts (structFields (some (d.count .types))))
    (node.bodyMembers.filter isFieldMember) fieldCalls
  memberLinks : Call.Linked c d₁ memberCalls d₂
  memberConverts : List.Forall₂ (Converts (classMember go shape fields))
    (node.bodyMembers.filter fun m => !isFieldMember m) memberCalls
  constructor : Completes c node (constructorBodies shape fields
    (node.bodyMembers.filter fun m => !isFieldMember m)) d₂ constructorCalls d₃
  base : Completes c node (baseBodies shape) d₃ baseCalls d₄
  checks : ∃ checks : List Code.ModuleVar, (∀ v ∈ checks, v.name = "_")
    ∧ ∀ g, d'.standing g = d₄.standing g ++ if g = .vars then checks.map .var else []

variable {c : Context} {go : Node → Build Unit} {node : Node} {shape : ClassShape} {d d' : Draft}

lemma exists_classParts (h : (concreteClass go node).runAt .tolerant c d = (.ok (), d'))
    (hshape : ClassShape.ofNode c.toTypeContext node = .ok shape) :
    ∃ fields d₁ d₂ d₃ d₄ fieldCalls memberCalls constructorCalls baseCalls,
      ClassParts c go node shape fields d d₁ d₂ d₃ d₄ d' fieldCalls memberCalls constructorCalls
        baseCalls := by
  unfold concreteClass at h
  rw [runAt_shaped hshape] at h
  obtain ⟨hnode, -⟩ := eq_of_ofNode hshape
  simp only [runAt_bind_eq_ok] at h
  obtain ⟨place, d₂, hput, fields, d₃, hfields, results, d₄, hmembers, u, d₅, hconstructor, v, d₆,
    hbase, hchecks⟩ := h
  have hplace := hput
  cases hplace
  obtain ⟨hfieldLinks, hfieldConverts⟩ := linked_eachMember hfields
  obtain ⟨hmemberLinks, hmemberConverts⟩ := linked_eachMember hmembers
  have hconstructors := completes_ensureConstructor hconstructor
  have hbases := completes_ensureAbstractBase hbase
  rw [hnode] at hconstructors hbases
  refine ⟨fields.flatten, d₃, d₄, d₅, d₆, _, _, _, _, ?_, hfieldLinks, hfieldConverts,
    hmemberLinks, hmemberConverts, hconstructors, hbases, exists_of_checkStruct hchecks⟩
  have hquiet : (checkStruct node shape.name shape.typeParams).ownCalls c d₆ = [] :=
    still_checkStruct.ownCalls_eq d₆
  rw [concreteClass, ownCalls_shaped hshape, ownCalls_bind hput]
  rw [ownCalls_bind hfields, ownCalls_bind hmembers, ownCalls_bind hconstructor,
    ownCalls_bind hbase, hquiet]
  simp [addType, put, ownCalls]

variable {fields : List DeclaredField} {d₁ d₂ d₃ d₄ : Draft}
variable {fieldCalls memberCalls constructorCalls baseCalls : List Call}

namespace ClassParts

variable (parts : ClassParts c go node shape fields d d₁ d₂ d₃ d₄ d' fieldCalls memberCalls
  constructorCalls baseCalls)
include parts

lemma types_fields
    (hshares : List.Forall₂ (fun call share => call.FieldShare c (d.count .types) share)
      fieldCalls shares) :
    d₁.standing .types = d.standing .types ++ [classStruct shape shares.flatten] := by
  rw [types_of_fieldShares hshares parts.fieldLinks, standing_add, ← length_standing]
  exact modify_append_right _ _ (d.standing .types) 0

lemma standing_fields (hg : g ≠ .types) :
    d₁.standing g = d.standing g ++ fieldCalls.flatMap (Call.added c · g) := by
  rw [parts.fieldLinks.standing, standing_add, if_neg hg]
  intro call hcall
  obtain ⟨share, hshare⟩ :=
    fieldShare_of_structFields (c := c) (Converts.body_of_mem parts.fieldConverts hcall)
  exact standing_of_fieldShare hshare hg

lemma confined_members (hgo : ConvertsTypes (.free c) go)
    (hcall : call ∈ memberCalls) : call.body.2.GrowsHeld c Held.none := by
  rw [Converts.body_of_mem parts.memberConverts hcall]
  exact (conforms_classMember hgo (.free c _) _ _ fun _ _ => False.elim).growsHeld

lemma confined_rest (hcall : call ∈ constructorCalls ++ baseCalls) :
    call.body.2.GrowsHeld c Held.none := by
  have hbody := mem_map_of_mem (f := Call.body) hcall
  rw [map_append, parts.constructor.bodies, parts.base.bodies] at hbody
  exact growsHeld_of_completing hbody

lemma standing_others (hgo : ConvertsTypes (.free c) go) (g : Group) :
    d₄.standing g
      = d₁.standing g
        ++ (memberCalls ++ (constructorCalls ++ baseCalls)).flatMap (Call.added c · g) := by
  have hlinked := parts.memberLinks.append (parts.constructor.linked.append parts.base.linked)
  refine hlinked.standing fun call hcall => ?_
  have hconfined : call.body.2.GrowsHeld c Held.none := by
    rcases mem_append.1 hcall with hcall | hcall
    · exact parts.confined_members hgo hcall
    · exact parts.confined_rest hcall
  exact Call.standing_after hconfined fun _ => id

lemma standing_all (hgo : ConvertsTypes (.free c) go) (htypes : g ≠ .types) (hvars : g ≠ .vars) :
    d'.standing g
      = d.standing g
        ++ (fieldCalls ++ memberCalls ++ (constructorCalls ++ baseCalls)).flatMap
          (Call.added c · g) := by
  obtain ⟨checks, -, hlast⟩ := parts.checks
  rw [hlast, if_neg hvars, parts.standing_others hgo g, parts.standing_fields htypes]
  simp

end ClassParts

end Build

/-- The call converts a type of this kind. -/
structure Call.Declares (call : Call) (k : Kind) : Prop where
  body : ∃ height, call.body = ⟨Unit, Build.typeDeclarationWithin height call.node⟩
  kind : call.node.kind = k

/-- The call converts a class of this shape that is not abstract. -/
structure Call.DeclaresClass (c : Context) (call : Call) (shape : ClassShape) : Prop
    extends call.Declares .classDeclaration where
  concrete : call.node.modifiers.isAbstract = false
  shape : ClassShape.ofNode c.toTypeContext call.node = .ok shape

lemma Call.Returned.exists_step (h : call.Returned c)
    (hbody : ∃ height, call.body = ⟨Unit, typeDeclarationWithin height call.node⟩) :
    ∃ height, call.body = ⟨Unit, typeDeclarationStep (typeDeclarationWithin height) call.node⟩ := by
  obtain ⟨height, hbody⟩ := hbody
  cases height with
  | zero =>
    obtain ⟨u, d', ⟨⟩, -⟩ := h.exists_run hbody
  | succ height => exact ⟨height, hbody⟩

lemma Call.DeclaresClass.exists_concreteClass (h : call.DeclaresClass c shape)
    (hreturned : call.Returned c) :
    ∃ height, call.body = ⟨Unit, concreteClass (typeDeclarationWithin height) call.node⟩ := by
  simpa [typeDeclarationStep, h.kind, h.concrete] using hreturned.exists_step h.body

/-- The own calls of a class, and what they leave in the draft. -/
structure Call.Accounted (c : Context) (call : Call) (shape : ClassShape)
    (fieldCalls memberCalls restCalls : List Call) (shares : List (List Code.Field)) : Prop where
  own : call.own c = fieldCalls ++ memberCalls ++ restCalls
  fields : fieldCalls.map Call.node = call.node.bodyMembers.filter isFieldMember
  members : memberCalls.map Call.node = call.node.bodyMembers.filter fun m => !isFieldMember m
  rest : ∀ k ∈ restCalls, k.node = call.node
  fieldShares : List.Forall₂ (fun k share => k.FieldShare c (call.before.count .types) share)
    fieldCalls shares
  routines : ∀ k ∈ memberCalls, Build.IsRoutine k.node → k.Returned c → k.AddsRoutine c
  failures : ∀ k ∈ memberCalls, k.Failed c → k.AddsNothing c
  standing : ∀ g, (call.after c).standing g = call.before.standing g ++ call.added c g
  types : call.added c .types
    = Build.classStruct shape shares.flatten
      :: (memberCalls ++ restCalls).flatMap (Call.added c · .types)
  vars : ∃ checks : List Code.ModuleVar, (∀ v ∈ checks, v.name = "_")
    ∧ call.added c .vars = (call.own c).flatMap (Call.added c · .vars) ++ checks.map .var
  others : ∀ g, g ≠ .types → g ≠ .vars → call.added c g = (call.own c).flatMap (Call.added c · g)

namespace Build

variable {c : Context} {go : Node → Build Unit} (hgo : ConvertsTypes (.free c) go)
include hgo

lemma accounted_of_concreteClass (hbody : call.body = ⟨Unit, concreteClass go call.node⟩)
    (hshape : ClassShape.ofNode c.toTypeContext call.node = .ok shape)
    (hreturned : call.Returned c) :
    ∃ fieldCalls memberCalls restCalls shares,
      call.Accounted c shape fieldCalls memberCalls restCalls shares := by
  obtain ⟨u, d', hrun, hafter⟩ := hreturned.exists_run hbody
  obtain ⟨fields, d₁, d₂, d₃, d₄, fieldCalls, memberCalls, constructorCalls, baseCalls, parts⟩ :=
    exists_classParts hrun hshape
  obtain ⟨shares, hshares⟩ := exists_fieldShares (c := c) parts.fieldConverts
  obtain ⟨checks, hchecks, hlast⟩ := parts.checks
  have hstanding : ∀ g, (call.after c).standing g
      = d₁.standing g ++ (memberCalls ++ (constructorCalls ++ baseCalls)).flatMap (Call.added c · g)
        ++ if g = .vars then checks.map .var else [] := by
    intro g
    rw [hafter g, hlast g, parts.standing_others hgo g]
  have htypes := parts.types_fields hshares
  have hvars : d₁.standing .vars = _ := parts.standing_fields (by decide)
  have hown : call.own c = fieldCalls ++ memberCalls ++ (constructorCalls ++ baseCalls) :=
    (Call.own_of_body hbody).trans parts.own
  have hconfined : call.body.2.GrowsHeld c Held.none := by
    rw [hbody]
    exact (conforms_concreteClass (numbersRecorded_free c) hgo (.free c _) False.elim).growsHeld
  refine ⟨fieldCalls, memberCalls, constructorCalls ++ baseCalls, shares, ?_⟩
  exact
    { own := hown
      fields := Converts.map_node parts.fieldConverts
      members := Converts.map_node parts.memberConverts
      rest := fun k hk => (mem_append.1 hk).elim (parts.constructor.node k) (parts.base.node k)
      fieldShares := hshares
      routines := fun k hk hkind => addsRoutine_of_classMember
        (Converts.body_of_mem parts.memberConverts hk) hkind
      failures := fun k hk hfailed => Call.standing_after_of_failed
        (parts.confined_members hgo hk) hfailed
      standing := fun g => Call.standing_after hconfined fun _ => id
      types := Call.added_eq (by rw [hstanding, htypes]; simp)
      vars := ⟨checks, hchecks, Call.added_eq (by rw [hstanding, hvars, hown]; simp)⟩
      others := fun g htypes hvars => Call.added_eq (by
        rw [hafter, parts.standing_all hgo htypes hvars, hown, standing_openMember]) }

end Build

section

variable {unit : CompilationUnit}

lemma added_isPrefix_convert (hcall : call ∈ unit.keptCalls) (g : Group) :
    call.added unit.context g
      <+: ((convert .tolerant unit).draft.file.group g).drop (call.before.count g) := by
  unfold CompilationUnit.keptCalls at hcall
  unfold CompilationUnit.context
  rcases hanalyze : analyze .tolerant unit [] {} with ⟨outcome, findings⟩
  rw [hanalyze] at hcall
  cases outcome with
  | error => cases hcall
  | ok =>
    obtain ⟨draft, hrun, hstaged, hconvert⟩ := exists_runAt_tolerant hanalyze
    have hheld : wholeUnit.GrowsHeld (Context.ofUnit unit findings.symbols) .none :=
      (conforms_wholeUnit_free _).growsHeld
    have hadded := hheld.added_isPrefix hcall g
    rw [hrun, Draft.standing, hstaged] at hadded
    rw [hconvert]
    exact hadded

lemma mem_calls_of_mem_own {inner : Call} (hcall : call ∈ unit.calls)
    (hinner : inner ∈ call.own unit.context) : inner ∈ unit.calls := by
  obtain ⟨findings, -, -, hcalls⟩ := exists_analyze_of_mem_calls hcall
  rw [hcalls] at hcall ⊢
  exact Call.own_subset_calls.2 call hcall hinner

lemma convert_eq_tolerant_of_ok (hok : (convert mode unit).outcome = .ok ()) :
    convert mode unit = convert .tolerant unit := by
  cases mode with
  | tolerant => rfl
  | strict =>
    cases comparison unit with
    | clean hsame _ => exact hsame
    | failed failure hstrict _ _ =>
      rw [hstrict] at hok
      cases hok

section

variable (hclean : (convert .tolerant unit).draft.diagnostics = [])
include hclean

lemma not_failed_of_diagnostics_eq_nil :
    ∀ k ∈ unit.calls, ¬ k.Failed unit.context := by
  intro k hk
  rw [diagnostics_convert_tolerant, filterMap_eq_nil_iff] at hclean
  rw [Call.failed_iff_isSome_diagnostic?, hclean k hk]
  exact Bool.false_ne_true

lemma returned_of_diagnostics_eq_nil :
    ∀ k ∈ unit.calls, k.Returned unit.context :=
  fun k hk => Call.returned_of_not_failed (not_failed_of_diagnostics_eq_nil hclean k hk)

lemma keptCalls_eq : unit.keptCalls = unit.calls := by
  have hnone := not_failed_of_diagnostics_eq_nil hclean
  revert hnone
  unfold CompilationUnit.keptCalls CompilationUnit.calls CompilationUnit.context
  rcases analyze .tolerant unit [] {} with ⟨outcome, findings⟩
  intro hnone
  cases outcome with
  | error => rfl
  | ok => exact keptCalls_eq_calls hnone

end

/-- The call for a type with nothing before it. -/
def firstCall (unit : CompilationUnit) (node : Node) : Call where
  location := node.declarationLocation
  node := node
  body := ⟨Unit, Build.typeDeclaration node⟩
  before := Draft.ofUnit unit (analyze .tolerant unit [] {}).2.log

lemma firstCall_mem (hok : (analyze .tolerant unit [] {}).1.isOk = true)
    (hnodes : (unit.root.children.filter fun n => !isIgnored n) = node :: rest) :
    firstCall unit node ∈ unit.calls := by
  unfold CompilationUnit.calls firstCall
  rcases hanalyze : analyze .tolerant unit [] {} with ⟨outcome, findings⟩
  rw [hanalyze] at hok
  cases outcome with
  | error => cases hok
  | ok =>
    have hunit : wholeUnit.calls (Context.ofUnit unit findings.symbols) (ofUnit unit findings.log)
        = (declarations (node :: rest)).calls (Context.ofUnit unit findings.symbols)
          (ofUnit unit findings.log) := by
      rw [← hnodes]
      rfl
    dsimp only
    rw [hunit]
    exact mem_append_right _ mem_cons_self

lemma Build.exists_call_of_mem (hnode : node ∈ nodes) (d : Draft) :
    ∃ call ∈ (declarations nodes).calls c d, call.node = node
      ∧ call.body = ⟨Unit, typeDeclaration node⟩ := by
  induction nodes generalizing d with
  | nil => cases hnode
  | cons first nodes ih =>
    rcases mem_cons.1 hnode with rfl | hlater
    · exact ⟨_, mem_append_right _ mem_cons_self, rfl, rfl⟩
    · obtain ⟨call, hcall, hrest⟩ := ih hlater _
      exact ⟨call, mem_append_right _ (mem_cons_of_mem _ hcall), hrest⟩

lemma exists_call_of_declaration (hok : (analyze .tolerant unit [] {}).1.isOk = true)
    (hnode : node ∈ unit.root.children.filter fun n => !isIgnored n) :
    ∃ call ∈ unit.calls, call.node = node ∧ call.body = ⟨Unit, typeDeclaration node⟩ := by
  unfold CompilationUnit.calls
  rcases hanalyze : analyze .tolerant unit [] {} with ⟨outcome, findings⟩
  rw [hanalyze] at hok
  cases outcome with
  | error => cases hok
  | ok => exact exists_call_of_mem hnode _

/-- Let a call of a tolerant conversion convert a class that is not abstract and return, whatever
fails in it.  Then each member enters one boundary.  A routine that returns adds one function with
the comment on where it comes from; a field declaration that returns has a field of the struct or a
variable for each declarator, in the order of the source; what fails adds nothing.  The class leaves
nothing else but its struct and variables that check its interfaces, and all this is in the file if
no call around the class fails. -/
theorem class_members_accounted (hcall : call ∈ unit.calls) {shape : ClassShape}
    (hclass : call.DeclaresClass unit.context shape)
    (hreturned : ¬ call.Failed unit.context) :
    ∃ fieldCalls memberCalls restCalls shares,
      call.Accounted unit.context shape fieldCalls memberCalls restCalls shares
        ∧ (∀ k ∈ call.own unit.context, k ∈ unit.calls)
        ∧ (call ∈ unit.keptCalls → ∀ g,
            call.added unit.context g
              <+: ((convert .tolerant unit).draft.file.group g).drop (call.before.count g)) := by
  obtain ⟨height, hbody⟩ := hclass.exists_concreteClass (Call.returned_of_not_failed hreturned)
  obtain ⟨fieldCalls, memberCalls, restCalls, shares, haccounted⟩ :=
    Build.accounted_of_concreteClass (Build.convertsTypes_free _ height) hbody
      hclass.shape (Call.returned_of_not_failed hreturned)
  exact ⟨fieldCalls, memberCalls, restCalls, shares, haccounted,
    fun k hk => mem_calls_of_mem_own hcall hk, added_isPrefix_convert⟩

end

def plainField (number : Nat) (parts : List Node) (names : List String) : Node :=
  .tree number .fieldDeclaration
    (parts ++ names.mapIdx fun i name =>
      .plain (number + 2 * i + 4) .variableDeclarator (some "declarator") ""
        [.called (number + 2 * i + 5) name])

/-- The class `Tray` with the fields `int a, b`, `static int total` and one without a type, the
method `clear`, and a method that cannot be converted. -/
def trayClass : Node :=
  .plainClass 1 [] "Tray" []
    [plainField 30 [.intType 31] ["a", "b"],
     .plainMethod 60 "clear" [] [],
     plainField 40 [.tree 41 .modifiers [.leaf 42 .staticWord "static"],
       .intType 43] ["total"],
     nextMethod, plainField 50 [] ["size"]]

def trayUnit : CompilationUnit :=
  .ofTypes [trayClass]

def trayCall : Call :=
  firstCall trayUnit trayClass

def trayShape : ClassShape where
  node := trayClass
  javaName := "Tray"
  name := "tray"
  isPublic := false
  typeParams := []
  superclass := none
  ancestry := []

lemma trayCall_declaresClass : trayCall.DeclaresClass trayUnit.context trayShape where
  body := ⟨trayClass.height, rfl⟩
  kind := rfl
  concrete := by decide +kernel
  shape := by with_unfolding_all rfl

/-- Of the members of the class two fail, one of each kind. -/
theorem tray_members_accounted :
    trayCall ∈ trayUnit.calls
      ∧ trayCall.DeclaresClass trayUnit.context trayShape
      ∧ ¬ trayCall.Failed trayUnit.context
      ∧ (trayCall.own trayUnit.context).map Call.location
        = ["class tray.a, b", "class tray.total", "class tray.size", "class tray.clear",
           "class tray.next", "class tray.<default constructor>"]
      ∧ ((trayCall.own trayUnit.context).take 5).map
          (fun k => (k.diagnostic? trayUnit.context).isSome)
        = [false, false, true, false, true]
      ∧ ∃ fieldCalls memberCalls restCalls shares,
          trayCall.Accounted trayUnit.context trayShape fieldCalls memberCalls restCalls
            shares := by
  have hmem : trayCall ∈ trayUnit.calls := firstCall_mem (by decide +kernel) rfl
  have hreturned : ¬ trayCall.Failed trayUnit.context := by
    rw [trayCall.failed_iff_isSome_diagnostic?]
    decide +kernel
  obtain ⟨fieldCalls, memberCalls, restCalls, shares, haccounted, -⟩ :=
    class_members_accounted hmem trayCall_declaresClass hreturned
  exact ⟨hmem, trayCall_declaresClass, hreturned, by decide +kernel, by decide +kernel, fieldCalls,
    memberCalls, restCalls, shares, haccounted⟩

end JavaToGo
