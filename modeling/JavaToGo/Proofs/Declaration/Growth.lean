import JavaToGo.Conversion
import JavaToGo.Proofs.Draft.Still
import JavaToGo.Proofs.Lowering.Result

/-!
# When declarations grow

Fields and methods are added when nothing can fail any more, with one exception:
an abstract class lists a method before its body is lowered.
-/

namespace JavaToGo

open Build

namespace Build

section

variable {α : Type} {post : α → Prop}

namespace Still

lemma context {post : Context → Prop} (h : post c) : context.Still c post :=
  h

lemma lift {x : Outcome α} (h : ∀ a, x = .ok a → post a) : (liftM x : Build α).Still c post := by
  cases x with
  | ok a => exact h a rfl
  | error => trivial

lemma lower {x : Lower α} (h : ∀ a t t', x.runAt c t = (.ok a, t') → post a) :
    (lower x).Still c post :=
  h

lemma put {post : Place → Prop} (h : ∀ place, post place) : (put group decl).Still c post:= h

lemma putAll {post : Unit → Prop} (h : post ()) : (putAll group decls).Still c post:= fun _ => h

end Still

end

section

variable {c : Context}

lemma still_addLowered (x : Lower Code.Function) :
    (lower x >>= addFunction).Still c fun _ => True :=
  .bind (.lower fun _ _ _ _ => .putAll trivial)

lemma still_addStaticFields {post : Unit → Prop} (h : post ()) :
    ∀ fields : List DeclaredField, (addStaticFields fields).Still c post
  | [] => h
  | f :: fs => by
    have hfs := still_addStaticFields h fs
    rw [addStaticFields]
    split
    · exact .bind (.lower fun _ _ _ _ => .bind (.putAll hfs))
    · exact hfs

lemma keepsInterfaces_withFields (fields : List Code.Field) : KeepsInterfaces (withFields fields) :=
  fun i => ⟨i, rfl⟩

lemma keepsInterfaces_withSpec (spec : Code.MethodSpec) : KeepsInterfaces (withSpec spec) :=
  fun i => ⟨{ i with methods := i.methods ++ [spec] }, rfl⟩

lemma growsLast_structFields (place : Place) (node : Node) :
    (structFields (some place) node).GrowsLast c :=
  .after (.lower fun fields _ _ _ => .after (still_addStaticFields trivial fields))

end

variable {node : Node}

lemma still_addInterfaceChecks : (addInterfaceChecks node value).Still c fun _ => True :=
  .bind (.bind (.context (.lift fun _ _ => .putAll trivial)))

lemma still_checkStruct : (checkStruct node structName typeParams).Still c fun _ => True := by
  unfold checkStruct
  split
  · exact still_addInterfaceChecks
  · trivial

lemma still_methodNumbered {post : MethodRecord × String → Prop} (h : ∀ found, post found) :
    (methodNumbered number).Still c post := by
  refine .bind (.context ?_)
  split
  · trivial
  · exact .bind (.lift fun _ _ => h _)

lemma still_addInherited {make : String → MethodRecord → Code.Function}
    {post : List MethodKey → Prop} (h : ∀ keys, post keys) :
    ∀ (numbers : List Nat) (declared : List MethodKey),
      (addInherited make declared numbers).Still c post
  | [], declared => h declared
  | _ :: numbers, declared => by
    refine .bind (still_methodNumbered fun found => ?_)
    dsimp only
    split
    · exact still_addInherited h numbers declared
    · exact .bind (.putAll (still_addInherited h numbers _))

lemma still_addAncestry {post : Unit → Prop} (h : post ()) :
    ∀ (layouts : List Layout) (declared : List MethodKey),
      (addAncestry shape self declared layouts).Still c post
  | [], _ => h
  | _ :: layouts, _ =>
    .bind (still_addInherited (fun _ => .bind (still_addInherited
      (fun _ => still_addAncestry h layouts _) _ _)) _ _)

lemma still_completeAbstract (shape : ClassShape) :
    (completeAbstract shape).Still c fun _ => True := by
  refine .bind (.lift fun self _ => .bind (.bind (.context (.bind (.lift fun _ _ => ?_)))))
  refine .bind (still_addAncestry ?_ _ _)
  split
  · exact .putAll trivial
  · trivial

lemma still_classDefaultConstructor :
    (classDefaultConstructor shape fields).Still c fun _ => True :=
  .bind (.lift fun _ _ => .bind (.lower fun _ _ _ _ => .putAll trivial))

lemma still_addDefaultMethod {name : String} {record : MethodRecord} :
    (addDefaultMethod shape name record node).Still c fun _ => True :=
  .bind (.lower fun _ _ _ _ => .bind (.lower fun _ _ _ _ => .putAll trivial))

lemma growsLast_interfaceMethod (node : Node) : (interfaceMethod shape place node).GrowsLast c := by
  refine .after (.context (.after (.lift fun record _ => ?_)))
  split
  · exact Still.growsLast (.bind (.lower fun _ _ _ _ => .putAll trivial))
  · split
    · trivial
    · exact still_addDefaultMethod.growsLast

/-- The conversion of a method of an abstract class that is not static: it lists the method in the
interface of the class before it lowers the body. -/
def Lists (c : Context) (known : Places) (node : Node) (body : (β : Type) × Build β) : Prop :=
  ∃ go shape places record, body = ⟨Unit, abstractMember go shape places node⟩
    ∧ node.kind = .methodDeclaration ∧ c.symbols.requireMethod node = .ok record
    ∧ record.isStatic = false ∧ known places.interface

variable {c : Context} {shape : AbstractShape} {places : AbstractPlaces}

lemma sure_noteInitializer (f : DeclaredField) : (noteInitializer shape f).Sure c := by
  unfold noteInitializer
  split <;> trivial

lemma sure_addAccessors (f : DeclaredField) : (addAccessors shape places f).Sure c :=
  .bind (sure_noteInitializer f) fun _ => .bind trivial fun _ => .bind trivial fun _ =>
    .bind trivial fun _ => .bind (fun _ => trivial) fun _ => fun _ => trivial

lemma still_addAbstractFields :
    ∀ {fields : List DeclaredField}, (∀ f ∈ fields, f.isStatic = true) →
      (addAbstractFields shape places fields).Still c fun _ => True
  | [], _ => trivial
  | f :: fs, h => by
    have hfs := still_addAbstractFields fun f hf => h f (List.mem_cons_of_mem _ hf)
    rw [addAbstractFields, if_pos (h f (by simp))]
    exact .bind (.lower fun _ _ _ _ => .bind (.putAll hfs))

lemma sure_addAbstractFields :
    ∀ {fields : List DeclaredField}, (∀ f ∈ fields, f.isStatic = false) →
      (addAbstractFields shape places fields).Sure c
  | [], _ => trivial
  | f :: fs, h => by
    have hfs := sure_addAbstractFields fun f hf => h f (List.mem_cons_of_mem _ hf)
    have hf : ¬ f.isStatic = true := by simp [h f (by simp)]
    rw [addAbstractFields, if_neg hf]
    exact .bind (sure_addAccessors f) fun _ => hfs

lemma growsLast_abstractField (node : Node) : (abstractField shape places node).GrowsLast c := by
  refine .after (.lower fun fields t t' hrun => ?_)
  have hstatic := fun f hf => (Lower.gives_declaredFields node c t fields t' hrun f hf).1
  cases hnode : node.modifiers.isStatic with
  | true => exact (still_addAbstractFields (hnode ▸ hstatic)).growsLast
  | false => exact (sure_addAbstractFields (hnode ▸ hstatic)).growsLast

lemma still_addDefaultBody : (addDefaultBody shape node).Still c fun _ => True := by
  unfold addDefaultBody
  split
  · trivial
  · exact .bind (.lower fun _ _ _ _ => .putAll trivial)

lemma abstractMember_of_method {go : Node → Build Unit} (h : node.kind = .methodDeclaration) :
    abstractMember go shape places node = abstractMethod shape places node := by
  simp only [abstractMember, h]

lemma growsLast_abstractMethod
    (h : ∀ record, c.symbols.requireMethod node = .ok record → record.isStatic = true) :
    (abstractMethod shape places node).GrowsLast c := by
  refine .after (.context (.after (.lift fun record hrecord => ?_)))
  rw [if_pos (h record hrecord)]
  exact Still.growsLast (.bind (.lower fun _ _ _ _ => .putAll trivial))

end Build

end JavaToGo
