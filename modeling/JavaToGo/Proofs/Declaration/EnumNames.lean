import JavaToGo.Proofs.Conversion.Lookups
import JavaToGo.Proofs.Declaration.Listings

/-!
# The names of the constants of an enumeration

Constants are numbered in one place and their names given back in another.  Go is
read here as far as the two need it.
-/

namespace JavaToGo

open JavaToGo.Tree (Node)
open List Build

namespace Code

def Expr.countedAt (place : Nat) : Expr → Option Nat
  | .raw "iota" => some place
  | _ => none

/-- The names and numbers of entries that stand from a place on, behind an entry with a value. -/
def numbersFrom (place : Nat) (value : Option Expr) : List ConstEntry → List (String × Option Nat)
  | [] => []
  | e :: es =>
    (e.name, (e.value.or value).bind (·.countedAt place))
      :: numbersFrom (place + 1) (e.value.or value) es

/-- An entry without a value repeats the one before; `iota` is the place in the block. -/
def ConstBlock.numbers (b : ConstBlock) : List (String × Option Nat) :=
  numbersFrom 0 none b.entries

def isPlainInLiteral (c : Char) : Bool :=
  c != '"' && c != '\\' && c != '\n'

/-- What a literal without escapes stands for. -/
def literalText? (source : String) : Option String :=
  let inner := source.toList.tail.dropLast
  if source.toList = '"' :: inner ++ ['"'] ∧ inner.all isPlainInLiteral then
    some (String.ofList inner)
  else none

variable (numbers : List (String × Option Nat)) (this : Nat)

/-- The number that an expression stands for in a method of a value with a number. -/
def Expr.number? : Expr → Option Nat
  | .unary "*" (.var "this") => some this
  | .var name => (numbers.find? (·.1 == name)).bind Prod.snd
  | _ => none

def SwitchClause.takes (number : Nat) (clause : SwitchClause) : Bool :=
  clause.values.any fun v => v.number? numbers this == some number

/-- The text that statements return. -/
def returned? : List Stmt → Option String
  | .ret [.raw source] :: _ => literalText? source
  | .switch (some value) clauses :: rest => do
    let number ← value.number? numbers this
    match clauses.find? (·.takes numbers this number) with
    | none => returned? rest
    | some (.mk _ (.ret [.raw source] :: _) _ _) => literalText? source
    | some _ => none
  | _ => none

lemma literalText?_quoted {text : String} (h : text.toList.all isPlainInLiteral = true) :
    literalText? ("\"" ++ text ++ "\"") = some text := by
  have hinner : ("\"" ++ text ++ "\"").toList = '"' :: text.toList ++ ['"'] := by simp
  rw [literalText?, hinner]
  simp only [cons_append, tail_cons, dropLast_concat]
  rw [if_pos ⟨trivial, h⟩, String.ofList_toList]

end Code

namespace Build

open Code

/-- The names, numbered from a place on. -/
def counted (place : Nat) (names : List String) : List (String × Option Nat) :=
  names.mapIdx fun i name => (name, some (place + i))

lemma numbersFrom_repeated (place : Nat) (names : List String) :
    numbersFrom place (some (.raw "iota")) (names.map fun name => { name := name })
      = counted place names := by
  induction names generalizing place with
  | nil => rfl
  | cons name names ih =>
    rw [map_cons, numbersFrom]
    simp [ih, counted, Expr.countedAt, Nat.add_comm, Nat.add_left_comm]

lemma numbers_countingBlock (typeName : String) (names : List String) :
    (countingBlock typeName names).numbers = counted 0 names := by
  cases names with
  | nil => rfl
  | cons name names =>
    rw [countingBlock, ConstBlock.numbers, numbersFrom]
    simp [numbersFrom_repeated, counted, Expr.countedAt, Nat.add_comm]

/-- The clause that answers with the name of one constant. -/
abbrev nameClause (c : String × String) : SwitchClause :=
  .mk [.var c.1] [.ret [.raw ("\"" ++ c.2 ++ "\"")]] false false

lemma find?_map_of_place {f : α → β} {p : β → Bool} {as : List α} {n : Nat}
    (h : ∀ {i a}, as[i]? = some a → p (f a) = (i == n)) :
    (as.map f).find? p = as[n]?.map f := by
  cases hn : as[n]? with
  | none =>
    refine find?_eq_none.2 fun b hb => ?_
    obtain ⟨a, ha, rfl⟩ := mem_map.1 hb
    obtain ⟨i, hi⟩ := getElem?_of_mem ha
    rw [h hi]
    rintro hin
    rw [beq_iff_eq.1 hin, hn] at hi
    cases hi
  | some =>
    obtain ⟨hlt, rfl⟩ := List.getElem?_eq_some_iff.1 hn
    refine find?_eq_some_iff_getElem.2
      ⟨by rw [h hn, beq_self_eq_true], n, by simpa using hlt, by simp, fun j hj => ?_⟩
    rw [getElem_map, h (getElem?_eq_getElem (Nat.lt_trans hj hlt))]
    simpa using Nat.ne_of_lt hj

section

variable {goNames : List String} (hnodup : goNames.Nodup)
include hnodup

lemma number?_counted {i : Nat} (hname : goNames[i]? = some name) (this : Nat) :
    (Expr.var name).number? (counted 0 goNames) this = some i := by
  obtain ⟨hlt, rfl⟩ := List.getElem?_eq_some_iff.1 hname
  have hfind : (counted 0 goNames).find? (·.1 == goNames[i]) = some (goNames[i], some i) := by
    refine find?_eq_some_iff_getElem.2 ⟨by simp, i, by simpa [counted], by simp [counted], ?_⟩
    intro j hj
    have hne : goNames[j] ≠ goNames[i] := fun heq =>
      Nat.ne_of_lt hj ((hnodup.getElem_inj_iff).1 heq)
    simpa [counted] using hne
  rw [Expr.number?, hfind]
  rfl

lemma returned?_nameMethod (hlength : goNames.length = javaNames.length)
    (hplain : ∀ name ∈ javaNames, name.toList.all isPlainInLiteral = true) (shape : EnumShape)
    (this : Nat) :
    returned? (counted 0 goNames) this (nameMethod shape (goNames.zip javaNames)).body
      = some (javaNames[this]?.getD "") := by
  have hfind : ((goNames.zip javaNames).map nameClause).find?
      (·.takes (counted 0 goNames) this this) = (goNames.zip javaNames)[this]?.map nameClause := by
    refine find?_map_of_place fun {i pair} hpair => ?_
    have hname : goNames[i]? = some pair.1 := (getElem?_zip_eq_some.1 hpair).1
    simp [SwitchClause.takes, SwitchClause.values, number?_counted hnodup hname this]
  rw [nameMethod, returned?, Expr.number?, Option.bind_eq_bind, Option.bind_some, hfind]
  cases hjava : javaNames[this]? with
  | none =>
    have hzip : (goNames.zip javaNames)[this]? = none := by
      simpa [hlength] using hjava
    rw [hzip]
    rfl
  | some =>
    obtain ⟨hlt, rfl⟩ := List.getElem?_eq_some_iff.1 hjava
    rw [getElem?_eq_getElem (by simpa [hlength] using hlt), getElem_zip]
    exact literalText?_quoted (hplain _ (getElem_mem _))

end

lemma mapM_constantName (shape : EnumShape) (constants : List Node) :
    constants.mapM shape.constantName
      = map (shape.name ++ "_" ++ ·) <$> constants.mapM (Node.requireText · "name") := by
  induction constants with
  | nil => rfl
  | cons constant constants ih =>
    rw [mapM_cons, mapM_cons, ih, EnumShape.constantName]
    cases constant.requireText "name" with
    | error failure => rfl
    | ok name => cases constants.mapM (Node.requireText · "name") <;> rfl

variable {c : Context} {go : Node → Build Unit} {call : Call} {shape : EnumShape}
  {constants : List Node}

lemma exists_of_simpleConstants {d d' : Draft} (hne : constants ≠ [])
    (hnames : constants.mapM (Node.requireText · "name") = .ok names)
    (h : (simpleConstants shape constants).runAt .tolerant c d = (.ok (), d')) :
    ∃ d₁, (reportConstants shape constants).runAt .tolerant c (d.add .constBlocks
        [.constBlock (countingBlock shape.name (names.map (shape.name ++ "_" ++ ·)))])
          = (.ok (), d₁)
      ∧ d' = d₁.add .methods
        [.function (nameMethod shape ((names.map (shape.name ++ "_" ++ ·)).zip names))] := by
  unfold simpleConstants at h
  rw [if_neg (by simpa using hne)] at h
  simp only [runAt_bind_eq_ok, runAt_lift_eq_ok] at h
  obtain ⟨goNames, _, ⟨hgo, rfl⟩, javaNames, _, ⟨hjava, rfl⟩, _, _, ⟨⟩, ⟨⟩, d₁, hreport, ⟨⟩⟩ := h
  cases hnames.symm.trans hjava
  rw [mapM_constantName, hnames] at hgo
  cases hgo
  exact ⟨d₁, hreport, rfl⟩

lemma mem_added_of_enumeration (hgo : ConvertsTypes (.free c) go)
    (hbody : call.body = ⟨Unit, enumeration go call.node⟩)
    (hshape : EnumShape.ofNode c.symbols call.node = .ok shape) (hsimple : shape.isSimple = true)
    (hconstants : call.node.enumConstants = .ok constants) (hne : constants ≠ [])
    (hnames : constants.mapM (Node.requireText · "name") = .ok names)
    (hreturned : call.Returned c) :
    .constBlock (countingBlock shape.name (names.map (shape.name ++ "_" ++ ·)))
        ∈ call.added c .constBlocks
      ∧ .function (nameMethod shape ((names.map (shape.name ++ "_" ++ ·)).zip names))
        ∈ call.added c .methods := by
  obtain ⟨u, d', hrun, hafter⟩ := hreturned.exists_run hbody
  unfold enumeration at hrun
  rw [runAt_shaped hshape] at hrun
  obtain ⟨place, d₁, hput, hrun⟩ := exists_of_bind hrun
  obtain ⟨fields, d₂, hfields, hrun⟩ := exists_of_bind hrun
  obtain ⟨found, d₃, hlift, hrun⟩ := exists_of_bind hrun
  obtain ⟨hfound, rfl⟩ := runAt_lift_eq_ok.1 hlift
  cases hconstants.symm.trans hfound
  obtain ⟨v, d₄, hadd, hrest⟩ := exists_of_bind hrun
  rw [addConstants, if_pos hsimple] at hadd
  obtain ⟨d₅, hreport, rfl⟩ := exists_of_simpleConstants hne hnames hadd
  have hcount : ∀ {β : Type} {x : Build β} {outcome : Except Failure β} {d d' : Draft},
      x.runAt .tolerant c d = (outcome, d') → ∀ g, d.count g ≤ d'.count g :=
    fun h g => (congrArg (fun r => r.2.count g) h) ▸ count_le_runAt g _ _
  have hbefore : ∀ g, call.before.count g ≤ d₂.count g := fun g => by
    rw [← Draft.count_openMember]
    exact Nat.le_trans (hcount hput g) (hcount hfields g)
  obtain ⟨rest, hrest, hgrows⟩ : ∃ rest : Build Unit,
      rest.runAt .tolerant c _ = (.ok u, d') ∧ rest.GrowsHeld c Held.none :=
    ⟨_, hrest, (conforms_enumMembers hgo (.free c call.node) (fun _ _ => False.elim) shape
      fields.flatten fun m hm => (mem_filter.1 (mem_filter.1 hm).1).1).growsHeld⟩
  constructor
  · refine Call.mem_added_of_getElem? hafter (hbefore _) ?_
    obtain rfl := congrArg Prod.snd hrest
    refine hgrows.getElem?_standing id ?_
    rw [Draft.standing_add_eq_append, if_neg (by decide), append_nil]
    exact (conforms_reportConstants (T := .free c) shape constants).growsHeld.getElem?_added hreport
  · refine Call.mem_added_of_getElem? hafter ?_ (hgrows.getElem?_added hrest)
    exact Nat.le_trans (hbefore _) (Nat.le_trans (d₂.count_le_add _ _ _) (hcount hreport _))

end Build

/-- The call converts an enumeration with these constants. -/
structure Call.DeclaresEnum (c : Context) (call : Call) (shape : EnumShape)
    (constants : List Node) (names : List String) : Prop
    extends call.Declares .enumDeclaration where
  shape : EnumShape.ofNode c.symbols call.node = .ok shape
  listed : call.node.enumConstants = .ok constants
  named : constants.mapM (Node.requireText · "name") = .ok names

variable {unit : CompilationUnit} {call : Call} {shape : EnumShape} {constants : List Node}
  {names : List String}

/-- Let a call of a tolerant conversion convert an enumeration without state, with constants of
different names, and not fail; constants that are refused may be among them.  The call leaves a
block that counts them in order, and a method that gives the name of a constant for its number and
an empty text for every larger one. -/
theorem enumeration_names_constants
    (henum : call.DeclaresEnum unit.context shape constants names)
    (hsimple : shape.isSimple = true) (hsome : names ≠ []) (hnodup : names.Nodup)
    (hplain : ∀ name ∈ names, name.toList.all Code.isPlainInLiteral = true)
    (hreturned : ¬ call.Failed unit.context) :
    ∃ block method,
      (.constBlock block ∈ call.added unit.context .constBlocks
        ∧ .function method ∈ call.added unit.context .methods)
      ∧ (call ∈ unit.keptCalls →
        .constBlock block ∈ (convert .tolerant unit).draft.file.group .constBlocks
          ∧ .function method ∈ (convert .tolerant unit).draft.file.group .methods)
      ∧ block.numbers = names.mapIdx (fun i name => (shape.name ++ "_" ++ name, some i))
      ∧ (method.name = "Name" ∧ method.receiver = some ⟨"this", "*" ++ shape.name⟩)
      ∧ (∀ i name, names[i]? = some name → Code.returned? block.numbers i method.body = some name)
      ∧ ∀ i, names.length ≤ i → Code.returned? block.numbers i method.body = some "" := by
  have hreturns := Call.returned_of_not_failed hreturned
  have hconstants : constants ≠ [] := by
    rintro rfl
    cases henum.named
    exact hsome rfl
  obtain ⟨height, hscript⟩ : ∃ height, call.body
      = ⟨Unit, enumeration (typeDeclarationWithin height) call.node⟩ := by
    simpa [typeDeclarationStep, henum.kind] using hreturns.exists_step henum.body
  obtain ⟨hblock, hmethod⟩ := mem_added_of_enumeration (convertsTypes_free _ height)
    hscript henum.shape hsimple henum.listed hconstants henum.named hreturns
  have hdistinct : (names.map (shape.name ++ "_" ++ ·)).Nodup :=
    hnodup.map fun _ _ => (String.append_right_inj _).1
  have hreads := returned?_nameMethod hdistinct (length_map _) hplain shape
  refine ⟨_, _, ⟨hblock, hmethod⟩, fun hkept =>
    ⟨mem_group_of_kept hkept hblock, mem_group_of_kept hkept hmethod⟩, ?_, ⟨rfl, rfl⟩, ?_, ?_⟩
  · rw [numbers_countingBlock]
    exact ext_getElem (by simp [counted]) fun i _ _ => by simp [counted]
  · intro i name hname
    rw [numbers_countingBlock, hreads, hname, Option.getD_some]
  · intro i hi
    rw [numbers_countingBlock, hreads, getElem?_eq_none hi, Option.getD_none]

/-- `enum Level { LOW, HIGH { } }` -/
def levelEnum : Node :=
  .tree 1 .enumDeclaration
    [.called 2 "Level",
     .plain 3 (.other "enum_body") (some "body") ""
      [.tree 4 .enumConstant [.called 5 "LOW"],
       .tree 6 .enumConstant [.called 7 "HIGH",
         .plain 8 .classBody (some "body") "" []]]]

def levelUnit : CompilationUnit :=
  .ofTypes [levelEnum]

def levelCall : Call :=
  firstCall levelUnit levelEnum

theorem level_names_constants :
    ∃ block method,
      .constBlock block ∈ levelCall.added levelUnit.context .constBlocks
      ∧ .function method ∈ levelCall.added levelUnit.context .methods
      ∧ Code.returned? block.numbers 1 method.body = some "HIGH"
      ∧ Code.returned? block.numbers 2 method.body = some "" := by
  have hreturned : ¬ levelCall.Failed levelUnit.context := by
    rintro ⟨failure, hfailure⟩
    have hrun : (levelCall.run levelUnit.context).1 = .ok () := by
      with_unfolding_all rfl
    rw [hrun] at hfailure
    cases hfailure
  obtain ⟨block, method, ⟨hblock, hmethod⟩, -, -, -, hname, hlarge⟩ :=
    @enumeration_names_constants levelUnit _ ⟨"Level", true, true⟩ _ ["LOW", "HIGH"]
      ⟨⟨⟨_, rfl⟩, rfl⟩, by with_unfolding_all rfl, rfl, rfl⟩ rfl (by decide) (by decide)
      (by decide) hreturned
  exact ⟨block, method, hblock, hmethod, hname 1 "HIGH" rfl, hlarge 2 (by decide)⟩

end JavaToGo
