import JavaToGo.Proofs.Ambiguity.Marks
import JavaToGo.Proofs.Lowering.Asks

/-!
# Settled contexts

Cutting an ambiguous bucket of overloads down to the one that is picked settles
a context.
-/

namespace JavaToGo

open List Symbols

/-- A call or a creation, as it is resolved. -/
inductive Site where
  /-- A call of a method with a number of arguments. -/
  | call (name : String) (count : Nat)
  /-- A creation of a value of a type with a number of arguments. -/
  | creation (typeName javaName : String) (count : Nat)
deriving DecidableEq, Repr

/-- The same answer, found without ambiguity. -/
def Resolution.settled (r : Resolution) : Resolution :=
  { r with isAmbiguous := false }

/-- The buckets give the overload that is picked anyway, and no other fits. -/
def Site.Settled (s : Symbols) (b : Buckets) : Site → Prop
  | .call name count =>
    (s.withBuckets b).resolveMethod name count = (s.resolveMethod name count).settled
      ∧ b.methods.contains name = s.methods.contains name
  | .creation typeName javaName count =>
    (s.withBuckets b).resolveConstructor typeName javaName count
      = (s.resolveConstructor typeName javaName count).settled

/-- What a call or a creation asks of the symbols. -/
def TypeContext.callSite? (c : TypeContext) (node : Node) : Option Site :=
  match node.kind with
  | .methodInvocation => do
    let name ← (node.requireText "name").toOption
    let arguments ← (node.require "arguments").toOption
    return .call name arguments.operands.length
  | .objectCreation => do
    let type ← (node.require "type").toOption
    let javaName ← (Lower.simpleTypeName type).toOption
    let arguments ← (node.require "arguments").toOption
    return .creation (c.mapName javaName) javaName arguments.operands.length
  | _ => none

/-- The buckets settle every call and creation in the node. -/
def TypeContext.Settles (c : TypeContext) (b : Buckets) (node : Node) : Prop :=
  node.Everywhere fun n => ∀ site ∈ c.callSite? n, site.Settled c.symbols b

lemma not_isEmpty_of_isVariadic {o : Overload} (h : o.isVariadic = true) :
    o.argumentTypes.isEmpty = false := by
  cases htypes : o.argumentTypes with
  | nil => simp [Overload.isVariadic, htypes] at h
  | cons type types => rfl

lemma any_isEmpty_pickByArity (overloads : List Overload) :
    ((pickByArity overloads 0).1.any fun o => o.argumentTypes.isEmpty)
      = overloads.any fun o => o.argumentTypes.isEmpty := by
  unfold pickByArity
  split
  · rfl
  · simp
  split
  · rename_i hnone
    have hno : (overloads.any fun o => o.argumentTypes.isEmpty) = false := by
      refine any_eq_false.2 fun o ho hempty => ?_
      refine filter_eq_nil_iff.1 hnone o ho ?_
      rw [List.isEmpty_iff.1 hempty]
      rfl
    rw [hno]
    cases hfind : overloads.find? Overload.isVariadic with
    | none => rfl
    | some => exact not_isEmpty_of_isVariadic (find?_some hfind)
  · rename_i first more hsome
    obtain ⟨hmem, hlength⟩ := mem_filter.1 (hsome ▸ mem_cons_self (a := first) (l := more))
    have hempty : first.argumentTypes.isEmpty = true := by
      rw [List.isEmpty_iff, ← length_eq_zero_iff]
      exact of_decide_eq_true hlength
    rw [Option.any_some, hempty]
    exact (any_eq_true.2 ⟨first, hmem, hempty⟩).symm

lemma overload_resolveMethod (s : Symbols) (name : String) (count : Nat) :
    (s.resolveMethod name count).overload = (pickByArity (s.methodOverloads name) count).1 := by
  unfold resolveMethod
  split
  · rename_i hpick
    rw [hpick]
  · rename_i hpick
    rw [hpick]

lemma Site.Settled.any_isEmpty (h : Site.Settled s b (.call name 0)) :
    (((s.withBuckets b).methodOverloads name).any fun o => o.argumentTypes.isEmpty)
      = (s.methodOverloads name).any fun o => o.argumentTypes.isEmpty := by
  have hoverload := congrArg Resolution.overload h.1
  rw [Resolution.settled, overload_resolveMethod, overload_resolveMethod] at hoverload
  rw [← any_isEmpty_pickByArity, hoverload, any_isEmpty_pickByArity]

section

variable {c : TypeContext}

lemma TypeContext.Settles.call (h : c.Settles b node) (hkind : node.kind = .methodInvocation)
    (hname : node.requireText "name" = .ok name)
    (harguments : node.require "arguments" = .ok arguments) :
    Site.Settled c.symbols b (.call name arguments.operands.length) := by
  refine h.here _ ?_
  simp [callSite?, hkind, hname, harguments, Except.toOption]

lemma TypeContext.Settles.creation (h : c.Settles b node) (hkind : node.kind = .objectCreation)
    (htype : node.require "type" = .ok type) (hjava : Lower.simpleTypeName type = .ok javaName)
    (harguments : node.require "arguments" = .ok arguments) :
    Site.Settled c.symbols b
      (.creation (c.mapName javaName) javaName arguments.operands.length) := by
  refine h.here _ ?_
  simp [callSite?, hkind, htype, hjava, harguments, Except.toOption]

end

/-- What may become of a bucket for the sake of a call: it stays as it is where the call is not
ambiguous, or the overload that is picked stays alone. -/
def CutDown (count : Nat) (bucket cut : Option (List Overload)) : Prop :=
  cut = bucket ∧ (pickByArity (bucket.getD []) count).2 = false
    ∨ (pickByArity (bucket.getD []) count).1.isSome
      ∧ cut = (pickByArity (bucket.getD []) count).1.map fun o => [o]

variable {count : Nat} {bucket cut : Option (List Overload)}

instance : Decidable (CutDown count bucket cut) :=
  inferInstanceAs (Decidable (_ ∧ _ ∨ _ ∧ _))

lemma CutDown.pickByArity (h : CutDown count bucket cut) :
    pickByArity (cut.getD []) count = ((JavaToGo.pickByArity (bucket.getD []) count).1, false) := by
  rcases h with ⟨rfl, hclear⟩ | ⟨hsome, rfl⟩
  · rw [← hclear]
  · obtain ⟨o, ho⟩ := Option.isSome_iff_exists.1 hsome
    rw [ho]
    rfl

lemma CutDown.isSome (h : CutDown count bucket cut) : cut.isSome = bucket.isSome := by
  rcases h with ⟨rfl, -⟩ | ⟨hsome, rfl⟩
  · rfl
  · cases bucket with
    | none => cases hsome
    | some => simpa using hsome

def Site.CutDown (s : Symbols) (b : Buckets) : Site → Prop
  | .call name count => JavaToGo.CutDown count (s.methods.find? name) (b.methods.find? name)
  | .creation typeName _ count =>
    JavaToGo.CutDown count (s.constructors.find? typeName) (b.constructors.find? typeName)

instance (s : Symbols) (b : Buckets) : DecidablePred (Site.CutDown s b)
  | .call .. => inferInstanceAs (Decidable (JavaToGo.CutDown ..))
  | .creation .. => inferInstanceAs (Decidable (JavaToGo.CutDown ..))

lemma Site.settled_of_cutDown {site : Site} (h : site.CutDown s b) : site.Settled s b := by
  cases site with
  | call name count =>
    refine ⟨?_, h.isSome⟩
    have hpick : JavaToGo.pickByArity ((s.withBuckets b).methodOverloads name) count
        = ((JavaToGo.pickByArity (s.methodOverloads name) count).1, false) := h.pickByArity
    rw [resolveMethod, resolveMethod, hpick]
    rcases JavaToGo.pickByArity (s.methodOverloads name) count with ⟨picked, ambiguous⟩
    cases picked with
    | none => rfl
    | some o => rfl
  | creation typeName _ count =>
    have hpick : JavaToGo.pickByArity ((s.withBuckets b).constructorOverloads typeName) count
        = ((JavaToGo.pickByArity (s.constructorOverloads typeName) count).1, false) :=
      h.pickByArity
    rw [Site.Settled, resolveConstructor, resolveConstructor, hpick]
    rcases JavaToGo.pickByArity (s.constructorOverloads typeName) count with ⟨picked, ambiguous⟩
    cases picked with
    | none => rfl
    | some o => rfl

lemma TypeContext.settles_of_cutDown {c : TypeContext} {node : Node}
    (h : node.Everywhere fun n => ∀ site ∈ c.callSite? n, site.CutDown c.symbols b) :
    c.Settles b node :=
  fun n hn site hsite => Site.settled_of_cutDown (h n hn site hsite)

end JavaToGo
