import JavaToGo.Proofs.Overloads.Registration

/-!
# Resolving a call by its number of arguments

A bucket lists the registered argument types without repetition, in the order in
which each came first.  So the overload that is picked for a number of arguments
is the entry of the first registration with that number.
-/

namespace JavaToGo

open List Symbols

section

variable {overloads : List Overload} {count : Nat}

/-- Whether the overload has this number of arguments. -/
def Overload.takes (count : Nat) (o : Overload) : Bool :=
  o.argumentTypes.length == count

lemma pickByArity_of_find? (h : overloads.find? (Overload.takes count) = some o) :
    pickByArity overloads count
      = (some o, decide (1 < (overloads.filter (Overload.takes count)).length)) := by
  have hfirst : (overloads.filter (Overload.takes count)).head? = some o := by
    rw [head?_filter, h]
  unfold pickByArity
  split
  · cases h
  · next only =>
      obtain rfl := mem_singleton.1 (mem_of_find?_eq_some h)
      simp [find?_some h]
  · rw [show (fun o => o.argumentTypes.length == count) = Overload.takes count from rfl]
    cases hfilter : overloads.filter (Overload.takes count) with
    | nil => simp [hfilter] at hfirst
    | cons first more =>
      obtain rfl : first = o := by simpa [hfilter] using hfirst
      cases more <;> simp

lemma pickByArity_of_find?_none (h : overloads.find? (Overload.takes count) = none) :
    pickByArity overloads count
      = (if overloads.length = 1 then overloads.head? else overloads.find? Overload.isVariadic,
          false) := by
  have hnone : overloads.filter (fun o => o.argumentTypes.length == count) = [] :=
    filter_eq_nil_iff.2 (find?_eq_none.1 h)
  unfold pickByArity
  split
  · rfl
  · rfl
  · next hnil hone =>
      have hlength : overloads.length ≠ 1 := fun hlength => by
        obtain ⟨only, honly⟩ := length_eq_one_iff.1 hlength
        exact hone only honly
      rw [hnone, if_neg hlength]

lemma Symbols.resolveMethod_eq (s : Symbols) (name : String) (count : Nat) :
    s.resolveMethod name count
      = ((pickByArity (s.methodOverloads name) count).1.map fun o =>
          ⟨o.name, some o, (pickByArity (s.methodOverloads name) count).2⟩).getD
        { name := name } := by
  unfold resolveMethod
  rcases pickByArity (s.methodOverloads name) count with ⟨_ | o, ambiguous⟩ <;> rfl

end

open Bucket

/-- The argument types registered in a slot, in order and with repetitions. -/
def registeredLists (calls : List Registration) (slot : Slot) : List (List String) :=
  (calls.filter fun call => call.slot == slot).map Registration.argumentTypes

lemma Bucket.Filed.map_argumentTypes {slot : Slot} {types : List String} {isPublic : Bool}
    {before after : List Overload} (h : Filed slot types isPublic before after) :
    after.map Overload.argumentTypes
      = if types ∈ before.map Overload.argumentTypes then before.map Overload.argumentTypes
        else before.map Overload.argumentTypes ++ [types] := by
  cases h with
  | again hfind =>
    obtain ⟨o, ho⟩ := Option.isSome_iff_exists.1 hfind
    have hmem : types ∈ before.map Overload.argumentTypes :=
      mem_map.2 ⟨o, mem_of_overload? ho, overload?_argumentTypes ho⟩
    rw [if_pos hmem, map_argumentTypes_publish]
  | new _ hnone htypes =>
    rw [if_neg (argumentTypes_not_mem_of_overload?_none hnone), map_append, ← htypes]
    rfl

/-- A bucket has a registered list that meets a test exactly where the history has one, and the
first of them in the same place. -/
lemma find?_argumentTypes_register (p : List String → Bool) (slot : Slot)
    (calls : List Registration) {s : Symbols} {earlier : List (List String)}
    (h : ∀ q, ((s.bucket slot).map Overload.argumentTypes).find? q = earlier.find? q) :
    (((s.register calls).bucket slot).map Overload.argumentTypes).find? p
      = (earlier ++ registeredLists calls slot).find? p := by
  induction calls generalizing s earlier with
  | nil =>
    rw [registeredLists, List.filter_nil, map_nil, append_nil]
    exact h p
  | cons call calls ih =>
    by_cases hslot : call.slot = slot
    · subst hslot
      have hstep : ∀ q, (((call.file s).bucket call.slot).map Overload.argumentTypes).find? q
          = (earlier ++ [call.argumentTypes]).find? q := by
        intro q
        rw [(call.filed s).map_argumentTypes]
        split
        · next hmem =>
            rw [find?_append, ← h q]
            cases hfind : ((s.bucket call.slot).map Overload.argumentTypes).find? q with
            | some types => rfl
            | none => simpa using find?_eq_none.1 hfind _ hmem
        · rw [find?_append, find?_append, h q]
      have hlists : registeredLists (call :: calls) call.slot
          = call.argumentTypes :: registeredLists calls call.slot := by
        simp [registeredLists]
      rw [hlists, append_cons]
      exact ih hstep
    · have hlists : registeredLists (call :: calls) slot = registeredLists calls slot := by
        simp [registeredLists, hslot]
      rw [hlists]
      exact ih fun q => by rw [Registration.bucket_file_of_ne (Ne.symm hslot), h q]

lemma mem_argumentTypes_register (calls : List Registration) (slot : Slot) (types : List String) :
    types ∈ ((register {} calls).bucket slot).map Overload.argumentTypes
      ↔ types ∈ registeredLists calls slot := by
  have hfind := @find?_argumentTypes_register (· == types) slot calls {} []
    fun q => by cases slot <;> rfl
  have hsome := congrArg Option.isSome hfind
  simpa [List.find?_isSome] using Bool.eq_iff_iff.1 hsome

lemma one_lt_length_iff_of_nodup {α : Type} {l : List α} (h : l.Nodup) :
    1 < l.length ↔ ∃ a ∈ l, ∃ b ∈ l, a ≠ b := by
  rcases l with _ | ⟨a, _ | ⟨b, l⟩⟩
  · simp
  · simp
  · have hne : a ≠ b := (nodup_cons.1 h).1 ∘ fun hab => hab ▸ mem_cons_self
    exact iff_of_true (by simp) ⟨a, by simp, b, by simp, hne⟩

lemma one_lt_length_takes_iff (calls : List Registration) (slot : Slot) (count : Nat) :
    1 < (((register {} calls).bucket slot).filter (Overload.takes count)).length
      ↔ ∃ a ∈ registeredLists calls slot, ∃ b ∈ registeredLists calls slot,
          a ≠ b ∧ a.length = count ∧ b.length = count := by
  have hdistinct := (registered_empty.register calls).distinct slot
  have hmap : (((register {} calls).bucket slot).filter (Overload.takes count)).map
        Overload.argumentTypes
      = (((register {} calls).bucket slot).map Overload.argumentTypes).filter
        (·.length == count) := by
    rw [filter_map]
    rfl
  rw [← length_map Overload.argumentTypes, hmap,
    one_lt_length_iff_of_nodup (hdistinct.types.filter _)]
  simp only [mem_filter, mem_argumentTypes_register]
  grind

/-- Entries keep their name and their place, so what a registration gave back is still found. -/
lemma identity_answer_eq {before after : List Registration} {call : Registration} {o : Overload}
    (h : overload? ((register {} (before ++ call :: after)).bucket call.slot)
      call.argumentTypes = some o) :
    (call.answer (register {} before)).map identity = some (identity o) := by
  have hrun : register {} (before ++ call :: after)
      = (call.file (register {} before)).register after := by
    rw [register, foldl_append]
    rfl
  have hdistinct := (registered_empty.register (before ++ call :: after)).distinct call.slot
  obtain ⟨first, hfirst⟩ := Option.isSome_iff_exists.1
    (call.filed (register {} before)).isSome_overload?
  have hkept := (identity_prefix_register (call.file (register {} before)) after
    call.slot).subset (mem_map_of_mem (mem_of_overload? hfirst))
  rw [← hrun] at hkept
  obtain ⟨o', ho', hsame⟩ := mem_map.1 hkept
  have htypes : o'.argumentTypes = call.argumentTypes :=
    (congrArg (·.2.1) hsame).trans (overload?_argumentTypes hfirst)
  have ho : overload? _ call.argumentTypes = some o' := htypes ▸ hdistinct.overload?_eq ho'
  obtain rfl : o' = o := Option.some.inj (ho.symm.trans h)
  rw [Registration.answer_eq, hfirst, Option.map_some, hsame]

/-- A call is resolved to the entry of the first registration with its number of arguments, whatever
stands before or behind that registration, and is ambiguous when another list of the length is
registered.  Without such a list it goes to the only entry, or else to the first variadic one. -/
theorem resolveMethod_register (calls : List Registration) (name : String) (count : Nat) :
    let s := Symbols.register {} calls
    let bucket := s.bucket (.method name)
    let lists := registeredLists calls (.method name)
    let resolution := s.resolveMethod name count
    (∀ before call after, calls = before ++ call :: after → call.slot = .method name →
        call.argumentTypes.length = count →
        (∀ types ∈ registeredLists before (.method name), types.length ≠ count) →
      ∃ o, resolution = ⟨o.name, some o, resolution.isAmbiguous⟩
        ∧ overload? bucket call.argumentTypes = some o
        ∧ (call.answer (Symbols.register {} before)).map identity = some (identity o)
        ∧ (resolution.isAmbiguous = true
          ↔ ∃ a ∈ lists, ∃ b ∈ lists, a ≠ b ∧ a.length = count ∧ b.length = count))
    ∧ ((∀ types ∈ lists, types.length ≠ count) →
        (∀ o, bucket = [o] → resolution = ⟨o.name, some o, false⟩)
        ∧ (bucket.length ≠ 1 →
          (∀ o, bucket.find? Overload.isVariadic = some o → resolution = ⟨o.name, some o, false⟩)
          ∧ (bucket.find? Overload.isVariadic = none → resolution = { name := name }))) := by
  intro s bucket lists resolution
  have hfind : ∀ p, (bucket.map Overload.argumentTypes).find? p = lists.find? p := fun p =>
    @find?_argumentTypes_register p (.method name) calls {} [] fun _ => rfl
  have hresolution : resolution = _ := s.resolveMethod_eq name count
  constructor
  · rintro before call after hcalls hslot hlength hbefore
    have hlist : lists.find? (·.length == count) = some call.argumentTypes := by
      have hearlier : (registeredLists before (.method name)).find? (·.length == count) = none :=
        find?_eq_none.2 fun types htypes => by simpa using hbefore types htypes
      simp only [lists, hcalls, registeredLists, filter_append, map_append,
        find?_append] at hearlier ⊢
      simp [hearlier, hslot, hlength]
    obtain ⟨o, ho, htypes⟩ : ∃ o, bucket.find? (Overload.takes count) = some o
        ∧ o.argumentTypes = call.argumentTypes := by
      rw [← hfind, find?_map] at hlist
      exact Option.map_eq_some_iff.1 hlist
    rw [show s.methodOverloads name = bucket from rfl, pickByArity_of_find? ho] at hresolution
    have hentry : overload? bucket call.argumentTypes = some o :=
      htypes ▸ ((registered_empty.register calls).distinct _).overload?_eq
        (mem_of_find?_eq_some ho)
    refine ⟨o, ?_, hentry, ?_, ?_⟩
    · rw [hresolution]
      rfl
    · refine @identity_answer_eq _ after _ _ ?_
      rw [hslot, ← hcalls]
      exact hentry
    · rw [hresolution]
      simpa using one_lt_length_takes_iff calls (.method name) count
  · intro hnone
    have hno : bucket.find? (Overload.takes count) = none := by
      have hlist : lists.find? (·.length == count) = none :=
        find?_eq_none.2 fun types htypes => by simpa using hnone types htypes
      rw [← hfind, find?_map] at hlist
      exact Option.map_eq_none_iff.1 hlist
    rw [show s.methodOverloads name = bucket from rfl, pickByArity_of_find?_none hno] at hresolution
    refine ⟨fun o hone => ?_, fun hmany => ⟨fun o ho => ?_, fun hvariadic => ?_⟩⟩
    · rw [hresolution, hone]
      rfl
    · rw [hresolution, if_neg hmany, ho]
      rfl
    · rw [hresolution, if_neg hmany, hvariadic]
      rfl

end JavaToGo
