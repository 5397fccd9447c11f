import JavaToGo.Proofs.Analysis.Methods

/-!
# Registering overloads

Methods and constructors are registered in any order, each in the bucket of its
Java name or of the Go type that it makes.
-/

namespace JavaToGo

open List Symbols

/-- Where overloads are kept: methods under their Java name, constructors under their Go type. -/
inductive Slot where
  | method (javaName : String)
  | constructor (typeName : String)
deriving DecidableEq

/-- The overloads that are kept there. -/
def Symbols.bucket (s : Symbols) : Slot → List Overload
  | .method javaName => s.methodOverloads javaName
  | .constructor typeName => s.constructorOverloads typeName

/-- A method or a constructor to register. -/
inductive Registration where
  | method (javaName : String) (argumentTypes : List String) (isPublic isStatic : Bool)
  | constructor (typeName javaName : String) (argumentTypes : List String) (isPublic : Bool)
      (parts : Option (List String))

namespace Registration

/-- Where the registration goes. -/
def slot : Registration → Slot
  | method javaName .. => .method javaName
  | constructor typeName .. => .constructor typeName

/-- The types that tell it apart from the others there. -/
def argumentTypes : Registration → List String
  | method _ types _ _ => types
  | constructor _ _ types _ _ => types

/-- Whether it makes the entry public that it goes to. -/
def publishes : Registration → Bool
  | method _ _ isPublic _ => isPublic
  | constructor .. => false

/-- Whether it goes to the entry with these types. -/
def isFor (r : Registration) (slot : Slot) (types : List String) : Bool :=
  r.slot == slot && types == r.argumentTypes

/-- Carries the registration out: the place of its entry, and the symbols with it. -/
def carryOut (s : Symbols) : Registration → Nat × Symbols
  | method javaName types isPublic isStatic => s.addMethod javaName types isPublic isStatic
  | constructor typeName javaName types isPublic parts =>
    s.addConstructor typeName javaName types isPublic parts

/-- The symbols after the registration. -/
def file (s : Symbols) (r : Registration) : Symbols :=
  (r.carryOut s).2

/-- The entry at the place that the registration returns. -/
def answer (s : Symbols) (r : Registration) : Option Overload :=
  ((r.file s).bucket r.slot)[(r.carryOut s).1]?

end Registration

/-- Carries registrations out one after the other. -/
def Symbols.register (s : Symbols) (calls : List Registration) : Symbols :=
  calls.foldl Registration.file s

namespace Bucket

/-- What a registration does to its bucket. -/
inductive Filed (slot : Slot) (types : List String) (isPublic : Bool) (before : List Overload) :
    List Overload → Prop where
  | again (hfind : (overload? before types).isSome) :
      Filed slot types isPublic before (publish types isPublic before)
  | new (o : Overload) (hnone : overload? before types = none) (htypes : o.argumentTypes = types)
      (hname : o.name ∉ before.map Overload.name)
      (hmethod : ∀ javaName, slot = .method javaName →
        o.isPublic = isPublic ∧ (before = [] → o.name = javaName)) :
      Filed slot types isPublic before (before ++ [o])

lemma publish_false (types : List String) (overloads : List Overload) :
    publish types false overloads = overloads := by
  simp [publish]

/-- What never changes of an entry. -/
def identity (o : Overload) : String × List String × Bool :=
  (o.name, o.argumentTypes, o.isStatic)

lemma map_identity_publish (types : List String) (isPublic : Bool) (overloads : List Overload) :
    (publish types isPublic overloads).map identity = overloads.map identity :=
  map_publish _ _ _ fun _ _ => rfl

namespace Filed

variable {slot : Slot} {types : List String} {isPublic : Bool} {before after : List Overload}

section

variable (h : Filed slot types isPublic before after)
include h

lemma distinct (hbefore : Distinct before) : Distinct after := by
  cases h with
  | again =>
    exact ⟨by rw [map_argumentTypes_publish]; exact hbefore.types,
      by rw [map_name_publish]; exact hbefore.names⟩
  | new _ hnone htypes hname => exact hbefore.append (htypes ▸ hnone) hname

lemma identity_isPrefix : before.map identity <+: after.map identity := by
  cases h with
  | again => exact map_identity_publish types isPublic before ▸ prefix_rfl
  | new =>
    rw [map_append]
    exact prefix_append _ _

lemma isSome_overload? : (overload? after types).isSome := by
  cases h with
  | again => rwa [overload?_publish, Option.isSome_map]
  | new _ hnone htypes =>
    unfold overload? at hnone ⊢
    simp [htypes]

/-- The place of the entry is the same before and after. -/
lemma entryOf_eq : entryOf after types = entryOf before types := by
  cases h with
  | again => exact entryOf_publish isPublic types before types
  | new _ hnone htypes =>
    subst htypes
    exact entryOf_append_of_none hnone

lemma of_some
    (hfind : overload? before types = some o) :
    overload? after types = some { o with isPublic := o.isPublic || isPublic }
      ∧ after.map identity = before.map identity := by
  cases h with
  | again =>
    exact ⟨by rw [overload?_publish, hfind]; simp, map_identity_publish types isPublic before⟩
  | new _ hnone => exact absurd hfind (by simp [hnone])

end

lemma any_isPublic (h : Filed (.method javaName) types isPublic before after)
    (sought : List String) :
    (overload? after sought).any Overload.isPublic
      = ((overload? before sought).any Overload.isPublic || (sought == types && isPublic)) := by
  cases h with
  | again hfind =>
    rw [overload?_publish]
    by_cases heq : sought = types
    · subst heq
      obtain ⟨o, ho⟩ := Option.isSome_iff_exists.1 hfind
      simp [ho]
    · have hbeq : (sought == types) = false := by simpa using heq
      cases overload? before sought <;> simp [hbeq]
  | new o hnone htypes _ hmethod =>
    have hpublic := (hmethod javaName rfl).1
    unfold overload? at hnone ⊢
    rw [find?_append]
    by_cases heq : sought = types
    · rw [heq, hnone]
      simp [htypes, hpublic]
    · have hbeq : (sought == types) = false := by simpa using heq
      have hother : (o.argumentTypes == sought) = false := by
        simpa [htypes] using fun h => heq h.symm
      simp [hbeq, hother]

end Filed

end Bucket

open Bucket

namespace Registration

lemma bucket_file_of_ne {r : Registration} {slot : Slot} (hne : slot ≠ r.slot) (s : Symbols) :
    (r.file s).bucket slot = s.bucket slot := by
  cases r with
  | method =>
    cases slot with
    | method other =>
      exact methodOverloads_addMethod_of_ne s _ _ _ _ fun heq => hne (heq ▸ rfl)
    | constructor typeName => rfl
  | constructor typeName =>
    cases slot with
    | method other => rfl
    | constructor other =>
      simp only [file, carryOut, bucket, addConstructor, constructorOverloads]
      have hother : other ≠ typeName := fun heq => hne (heq ▸ rfl)
      rw [Table.find?_insert_of_ne _ _ hother]

lemma filed (r : Registration) (s : Symbols) :
    Filed r.slot r.argumentTypes r.publishes (s.bucket r.slot) ((r.file s).bucket r.slot) := by
  cases r with
  | method javaName types isPublic isStatic =>
    simp only [slot, file, carryOut, bucket, methodOverloads_addMethod_self, fileMethod]
    split
    · exact .again ‹_›
    · refine .new _ (Option.not_isSome_iff_eq_none.1 ‹_›) rfl (methodOverloadName_not_mem _ _ _) ?_
      rintro _ ⟨⟩
      exact ⟨rfl, fun hnil => by simp [methodOverloadName, hnil]⟩
  | constructor typeName javaName types isPublic parts =>
    have hself : (s.addConstructor typeName javaName types isPublic parts).2.constructorOverloads
        typeName = fileConstructor javaName types isPublic parts
          (s.constructorOverloads typeName) := by
      simp [addConstructor, constructorOverloads]
    simp only [slot, file, carryOut, bucket, hself, fileConstructor]
    split
    · have hagain : Filed (.constructor typeName) types false (s.constructorOverloads typeName)
          _ := .again ‹_›
      rwa [publish_false] at hagain
    · exact .new _ (Option.not_isSome_iff_eq_none.1 ‹_›) rfl (uniqueName_not_mem _ _)
        (by rintro _ ⟨⟩)

/-- The entry that is returned is the one with the argument types. -/
lemma answer_eq (r : Registration) (s : Symbols) :
    r.answer s = overload? ((r.file s).bucket r.slot) r.argumentTypes := by
  have hplace : (r.carryOut s).1 = entryOf (s.bucket r.slot) r.argumentTypes := by
    cases r <;> rfl
  rw [answer, hplace, ← (r.filed s).entryOf_eq, getElem?_entryOf]

end Registration

/-- What holds of the buckets after the registrations. -/
structure Registered (calls : List Registration) (s : Symbols) : Prop where
  distinct : ∀ slot, Distinct (s.bucket slot)
  first : ∀ javaName o, (s.bucket (.method javaName)).head? = some o → o.name = javaName
  isPublic : ∀ javaName types,
    (overload? (s.bucket (.method javaName)) types).any Overload.isPublic
      = calls.any fun call => call.isFor (.method javaName) types && call.publishes

namespace Registered

lemma file (h : Registered calls s) (call : Registration) :
    Registered (calls ++ [call]) (call.file s) := by
  have hfiled := call.filed s
  constructor
  · intro slot
    by_cases hslot : slot = call.slot
    · exact hslot ▸ hfiled.distinct (h.distinct _)
    · exact Registration.bucket_file_of_ne hslot s ▸ h.distinct slot
  · intro javaName o ho
    by_cases hslot : .method javaName = call.slot
    · rw [← hslot] at hfiled
      cases hbefore : s.bucket (.method javaName) with
      | nil =>
        rw [hbefore] at hfiled
        generalize (call.file s).bucket (.method javaName) = after at hfiled ho
        cases hfiled with
        | again hfind => simp [overload?] at hfind
        | new o' _ _ _ hmethod =>
          obtain rfl : o' = o := by simpa using ho
          exact (hmethod javaName rfl).2 rfl
      | cons first rest =>
        have hprefix := hfiled.identity_isPrefix
        obtain ⟨tail, htail⟩ := head?_eq_some_iff.1 ho
        rw [hbefore, htail, map_cons, map_cons, cons_prefix_cons] at hprefix
        have hname := h.first javaName first (by rw [hbefore]; rfl)
        exact (congrArg Prod.fst hprefix.1).symm.trans hname
    · rw [Registration.bucket_file_of_ne hslot] at ho
      exact h.first javaName o ho
  · intro javaName types
    rw [any_append, ← h.isPublic, any_cons, any_nil, Bool.or_false]
    by_cases hslot : .method javaName = call.slot
    · rw [← hslot] at hfiled
      rw [hfiled.any_isPublic, Registration.isFor, ← hslot, beq_self_eq_true, Bool.true_and]
    · have hother : (call.slot == .method javaName) = false := by simpa using fun h => hslot h.symm
      rw [Registration.bucket_file_of_ne hslot, Registration.isFor, hother]
      simp

lemma register (h : Registered calls s) (later : List Registration) :
    Registered (calls ++ later) (s.register later) := by
  induction later generalizing calls s with
  | nil => rwa [append_nil]
  | cons call later ih =>
    have hrest := ih (h.file call)
    rwa [append_assoc] at hrest

end Registered

lemma registered_empty : Registered [] {} where
  distinct := fun slot => by cases slot <;> exact ⟨nodup_nil, nodup_nil⟩
  first := fun javaName o h => by simp [bucket, methodOverloads] at h
  isPublic := fun _ _ => rfl

lemma Symbols.identity_prefix_register (s : Symbols) (calls : List Registration) (slot : Slot) :
    (s.bucket slot).map identity <+: ((s.register calls).bucket slot).map identity := by
  induction calls generalizing s with
  | nil => exact prefix_rfl
  | cons call calls ih =>
    refine List.IsPrefix.trans ?_ (ih (call.file s))
    by_cases hslot : slot = call.slot
    · exact hslot ▸ (call.filed s).identity_isPrefix
    · exact Registration.bucket_file_of_ne hslot s ▸ prefix_rfl

/-- After any registrations no two entries of a bucket share their argument types or their name,
the first method of a Java name has that name, and a method is public if one of the registrations
that are mapped to it is.  A further registration gives back the entry of its argument types, and
adds none where there is one; entries keep their places and names ever after.  The search for a
free name ends within as many steps as there are names taken. -/
theorem register_buckets (calls : List Registration) :
    let s := Symbols.register {} calls
    (∀ slot, Distinct (s.bucket slot))
    ∧ (∀ javaName o, (s.bucket (.method javaName)).head? = some o → o.name = javaName)
    ∧ (∀ javaName, ∀ o ∈ s.bucket (.method javaName), o.isPublic
        = calls.any fun call => call.isFor (.method javaName) o.argumentTypes && call.publishes)
    ∧ (∀ call : Registration, (call.answer s).isSome
        ∧ ∀ o, overload? (s.bucket call.slot) call.argumentTypes = some o →
          call.answer s = some { o with isPublic := o.isPublic || call.publishes }
          ∧ ∀ slot, ((call.file s).bucket slot).map identity = (s.bucket slot).map identity)
    ∧ (∀ later slot, (s.bucket slot).map identity
        <+: ((Symbols.register {} (calls ++ later)).bucket slot).map identity)
    ∧ ∀ name taken, ∃ n ≤ taken.length, uniqueName name taken = nameCandidate name n
        ∧ nameCandidate name n ∉ taken ∧ ∀ m < n, nameCandidate name m ∈ taken := by
  intro s
  have hs : Registered calls s := registered_empty.register calls
  refine ⟨hs.distinct, hs.first, ?_, ?_, ?_, ?_⟩
  · intro javaName o ho
    rw [← hs.isPublic, (hs.distinct _).overload?_eq ho, Option.any_some]
  · intro call
    rw [call.answer_eq s]
    refine ⟨(call.filed s).isSome_overload?, fun o hfind => ?_⟩
    obtain ⟨hanswer, hsame⟩ := (call.filed s).of_some hfind
    refine ⟨hanswer, fun slot => ?_⟩
    by_cases hslot : slot = call.slot
    · exact hslot ▸ hsame
    · rw [Registration.bucket_file_of_ne hslot]
  · intro later slot
    rw [Symbols.register, List.foldl_append]
    exact Symbols.identity_prefix_register s later slot
  · intro name taken
    obtain ⟨n, heq, hfree, hle, htaken⟩ := exists_uniqueName name taken
    exact ⟨n, hle, heq, hfree, htaken⟩

end JavaToGo
