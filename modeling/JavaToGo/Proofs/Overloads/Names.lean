import JavaToGo.Overloads
import Mathlib.Tactic.Lemma

/-!
# The names of the overloads of a method

All overloads of a Java name begin with that name, so their visibility, which only
changes the first letter, cannot make two names meet.
-/

namespace JavaToGo

open List Code Text

variable (name : String) (isPublic : Bool)

namespace Text

variable {expansions : List (Nat × List Nat)}

/-- Neither text is a beginning of the other. -/
def Apart (a b : List Char) : Prop :=
  ¬ a <+: b ∧ ¬ b <+: a

instance (a b : List Char) : Decidable (Apart a b) :=
  inferInstanceAs (Decidable (¬ a <+: b ∧ ¬ b <+: a))

lemma Apart.append_ne (h : Apart a b) (r s : List Char) : a ++ r ≠ b ++ s := by
  intro heq
  have ha : a <+: b ++ s := ⟨r, heq⟩
  have hb : b <+: b ++ s := prefix_append b s
  rcases prefix_or_prefix_of_prefix ha hb with hab | hba
  · exact h.1 hab
  · exact h.2 hba

lemma apart_singleton (h : a ≠ b) : Apart [a] [b] := by
  constructor
  · intro hab
    exact h (by simpa using hab)
  · intro hba
    have heq : b = a := by simpa using hba
    exact h heq.symm

lemma apart_of_mem_upperExpansions :
    ∀ e ∈ upperExpansions, Apart (e.2.map Char.ofNat) (lower (Char.ofNat e.1)) := by
  decide +kernel

lemma apart_of_mem_lowerExpansions :
    ∀ e ∈ lowerExpansions, Apart (upper (Char.ofNat e.1)) (e.2.map Char.ofNat) := by
  decide +kernel

lemma mem_of_lookup {table : List (Nat × List Nat)} (h : table.lookup n = some ns) :
    (n, ns) ∈ table := by
  obtain ⟨before, after, rfl, -⟩ := lookup_eq_some_iff.1 h
  simp

lemma caseForm_of_lookup {c : Char} (h : expansions.lookup c.toNat = some ns) :
    caseForm expansions runs c = ns.map Char.ofNat := by
  simp [caseForm, h]

lemma exists_caseForm_eq_singleton (runs : List CaseRun) {c : Char}
    (h : expansions.lookup c.toNat = none) : ∃ a, caseForm expansions runs c = [a] := by
  simp only [caseForm, h]
  split
  · exact ⟨_, rfl⟩
  · exact ⟨_, rfl⟩

lemma upper_eq_or_apart (c : Char) : upper c = lower c ∨ Apart (upper c) (lower c) := by
  cases hu : upperExpansions.lookup c.toNat with
  | some =>
    right
    have hapart := apart_of_mem_upperExpansions _ (mem_of_lookup hu)
    rw [Char.ofNat_toNat] at hapart
    rw [upper, caseForm_of_lookup hu]
    exact hapart
  | none =>
    cases hl : lowerExpansions.lookup c.toNat with
    | some ns =>
      right
      have hapart := apart_of_mem_lowerExpansions _ (mem_of_lookup hl)
      rw [Char.ofNat_toNat] at hapart
      rw [lower, caseForm_of_lookup hl]
      exact hapart
    | none =>
      obtain ⟨a, ha⟩ := exists_caseForm_eq_singleton upperRuns hu
      obtain ⟨b, hb⟩ := exists_caseForm_eq_singleton lowerRuns hl
      rw [upper, lower, ha, hb]
      by_cases hab : a = b
      · exact .inl (by rw [hab])
      · exact .inr (apart_singleton hab)

end Text

namespace Code

def visibleChars (isPublic : Bool) (cs : List Char) : List Char :=
  if isPublic then exportedChars cs else unexportedChars cs

lemma withVisibility_eq :
    withVisibility name isPublic = String.ofList (visibleChars isPublic name.toList) := by
  cases isPublic <;> rfl

lemma visibleChars_cons_ne (h : as ≠ bs) (p q : Bool) :
    visibleChars p (c :: as) ≠ visibleChars q (c :: bs) := by
  have happend : ∀ form : List Char, form ++ as ≠ form ++ bs := by
    intro form heq
    exact h (append_cancel_left heq)
  cases p with
  | true =>
    cases q with
    | true => exact happend (upper c)
    | false =>
      rcases upper_eq_or_apart c with heq | hapart
      · change upper c ++ as ≠ lower c ++ bs
        rw [heq]
        exact happend (lower c)
      · exact hapart.append_ne as bs
  | false =>
    cases q with
    | true =>
      rcases upper_eq_or_apart c with heq | hapart
      · change lower c ++ as ≠ upper c ++ bs
        rw [heq]
        exact happend (lower c)
      · exact (hapart.append_ne bs as).symm
    | false => exact happend (lower c)

lemma visibleChars_W_ne_nil (cs : List Char) : visibleChars isPublic ('W' :: cs) ≠ [] := by
  cases isPublic with
  | true =>
    change upper 'W' ++ cs ≠ []
    rw [show upper 'W' = ['W'] by decide +kernel]
    simp
  | false =>
    change lower 'W' ++ cs ≠ []
    rw [show lower 'W' = ['w'] by decide +kernel]
    simp

@[simp] lemma visibleChars_nil : visibleChars isPublic [] = [] := by
  cases isPublic <;> rfl

end Code

lemma toString_injective {m n : Nat} (h : (toString m).toList = (toString n).toList) : m = n := by
  have hdigits : Nat.toDigits 10 m = Nat.toDigits 10 n := by
    simpa only [Nat.toString_eq_repr, Nat.toList_repr] using h
  have hread := congrArg (fun digits => Nat.ofDigitChars 10 digits 0) hdigits
  simpa using hread

lemma toString_ne_nil (n : Nat) : (toString n).toList ≠ [] := by
  intro h
  have hdigits : Nat.toDigits 10 n = [] := by
    simpa only [Nat.toString_eq_repr, Nat.toList_repr] using h
  exact Nat.toDigits_ne_nil hdigits

lemma nameCandidate_injective (h : nameCandidate name m = nameCandidate name n) : m = n := by
  have hlist := congrArg String.toList h
  cases m with
  | zero =>
    cases n with
    | zero => rfl
    | succ n =>
      simp only [nameCandidate, String.toList_append] at hlist
      exact absurd (self_eq_append_right.1 hlist) (toString_ne_nil _)
  | succ m =>
    cases n with
    | zero =>
      simp only [nameCandidate, String.toList_append] at hlist
      exact absurd (self_eq_append_right.1 hlist.symm) (toString_ne_nil _)
    | succ n =>
      simp only [nameCandidate, String.toList_append] at hlist
      have hnumber := toString_injective (append_cancel_left hlist)
      omega

lemma nodup_candidates (bound : Nat) : ((List.range bound).map (nameCandidate name)).Nodup := by
  refine pairwise_map.2 (nodup_range.imp ?_)
  intro m n hne heq
  exact hne (nameCandidate_injective name heq)

lemma exists_uniqueName (taken : List String) :
    ∃ n, uniqueName name taken = nameCandidate name n ∧ nameCandidate name n ∉ taken
      ∧ n ≤ taken.length ∧ ∀ m < n, nameCandidate name m ∈ taken := by
  unfold uniqueName
  rw [find?_map]
  cases hfind : (List.range (taken.length + 1)).find?
      ((fun candidate => !taken.contains candidate) ∘ nameCandidate name) with
  | some n =>
    obtain ⟨hfree, hrange, htaken⟩ := find?_range_eq_some.1 hfind
    refine ⟨n, rfl, by simpa using hfree, ?_, fun m hm => by simpa using htaken m hm⟩
    have hlt := mem_range.1 hrange
    omega
  | none =>
    have hsubset : (List.range (taken.length + 1)).map (nameCandidate name) ⊆ taken := by
      intro candidate hmem
      obtain ⟨n, hn, rfl⟩ := mem_map.1 hmem
      simpa using find?_eq_none.1 hfind n hn
    have hle := (nodup_candidates name (taken.length + 1)).length_le_of_subset hsubset
    rw [length_map, length_range] at hle
    omega

lemma uniqueName_not_mem (taken : List String) : uniqueName name taken ∉ taken := by
  obtain ⟨n, heq, hfree, -⟩ := exists_uniqueName name taken
  rw [heq]
  exact hfree

lemma isPrefix_uniqueName (name : String) (taken : List String) :
    name.toList <+: (uniqueName name taken).toList := by
  obtain ⟨n, heq, -⟩ := exists_uniqueName name taken
  rw [heq]
  cases n with
  | zero => exact prefix_rfl
  | succ =>
    rw [nameCandidate, String.toList_append]
    exact prefix_append _ _

namespace Bucket

/-- The Go name is the Java name with nothing or a word behind it. -/
def Extends (javaName name : String) : Prop :=
  ∃ rest, name.toList = javaName.toList ++ rest ∧ (rest = [] ∨ ['W'] <+: rest)

/-- No two overloads have the same argument types, and no two have the same name. -/
structure Distinct (overloads : List Overload) : Prop where
  types : (overloads.map Overload.argumentTypes).Nodup
  names : (overloads.map Overload.name).Nodup

/-- What filing keeps true of the overloads of a Java name. -/
structure Sound (javaName : String) (overloads : List Overload) : Prop where
  types : (overloads.map Overload.argumentTypes).Nodup
  names : (overloads.map Overload.name).Nodup
  extend : ∀ o ∈ overloads, Extends javaName o.name

lemma isPrefix_overloadedName (javaName : String) (types : List String) :
    javaName.toList ++ ['W'] <+: (overloadedName javaName types).toList := by
  unfold overloadedName
  split
  · exact ⟨"ithoutArgs".toList, by simp⟩
  · exact ⟨"ith".toList ++ (String.join (types.map fragment)).toList, by simp⟩

lemma extends_methodOverloadName (javaName : String) (types : List String)
    (overloads : List Overload) :
    Extends javaName (methodOverloadName javaName types overloads) := by
  unfold methodOverloadName
  split
  · exact ⟨[], by simp, .inl rfl⟩
  · have hprefix := (isPrefix_overloadedName javaName types).trans
      (isPrefix_uniqueName (overloadedName javaName types) (overloads.map Overload.name))
    obtain ⟨rest, hrest⟩ := hprefix
    refine ⟨['W'] ++ rest, ?_, .inr (prefix_append _ _)⟩
    rw [← hrest, append_assoc]

lemma methodOverloadName_not_mem (javaName : String) (types : List String)
    (overloads : List Overload) :
    methodOverloadName javaName types overloads ∉ overloads.map Overload.name := by
  unfold methodOverloadName
  split
  · rename_i hempty
    rw [List.isEmpty_iff.1 hempty]
    simp
  · exact uniqueName_not_mem _ _

section

variable (types : List String) (isPublic : Bool) (overloads : List Overload)

lemma map_publish {γ : Type} {part : Overload → γ}
    (hpart : ∀ o visible, part { o with isPublic := visible } = part o) :
    (publish types isPublic overloads).map part = overloads.map part := by
  unfold publish
  rw [map_map]
  exact map_congr_left fun o _ => by grind

lemma map_argumentTypes_publish :
    (publish types isPublic overloads).map Overload.argumentTypes
      = overloads.map Overload.argumentTypes :=
  map_publish _ _ _ fun _ _ => rfl

lemma map_name_publish :
    (publish types isPublic overloads).map Overload.name = overloads.map Overload.name :=
  map_publish _ _ _ fun _ _ => rfl

end

lemma sound_nil (javaName : String) : Sound javaName [] :=
  ⟨nodup_nil, nodup_nil, fun _ h => absurd h not_mem_nil⟩

variable {overloads : List Overload}

lemma Sound.publish (h : Sound javaName overloads) (types : List String) (isPublic : Bool) :
    Sound javaName (publish types isPublic overloads) := by
  refine ⟨?_, ?_, ?_⟩
  · rw [map_argumentTypes_publish]
    exact h.types
  · rw [map_name_publish]
    exact h.names
  · intro o ho
    have hname : o.name ∈ overloads.map Overload.name := by
      rw [← map_name_publish types isPublic overloads]
      exact mem_map_of_mem ho
    obtain ⟨o', ho', heq⟩ := mem_map.1 hname
    rw [← heq]
    exact h.extend o' ho'

lemma argumentTypes_not_mem_of_overload?_none (h : overload? overloads types = none) :
    types ∉ overloads.map Overload.argumentTypes := by
  intro hmem
  obtain ⟨o, ho, rfl⟩ := mem_map.1 hmem
  have hne := find?_eq_none.1 h o ho
  simp at hne

lemma Distinct.append (h : Distinct overloads) {o : Overload}
    (hnew : overload? overloads o.argumentTypes = none)
    (hname : o.name ∉ overloads.map Overload.name) : Distinct (overloads ++ [o]) := by
  have htypes := argumentTypes_not_mem_of_overload?_none hnew
  constructor
  · rw [map_append]
    exact nodup_append.2 ⟨h.types, by simp, by grind⟩
  · rw [map_append]
    exact nodup_append.2 ⟨h.names, by simp, by grind⟩

lemma Sound.fileMethod (h : Sound javaName overloads) (types : List String)
    (isPublic isStatic : Bool) :
    Sound javaName (fileMethod javaName types isPublic isStatic overloads) := by
  unfold JavaToGo.fileMethod
  split
  · exact h.publish types isPublic
  · rename_i hfind
    have hdistinct := Distinct.append (o := ⟨_, types, isPublic, isStatic⟩) ⟨h.types, h.names⟩
      (by simpa using hfind) (methodOverloadName_not_mem javaName types overloads)
    refine ⟨hdistinct.types, hdistinct.names, ?_⟩
    intro o ho
    rcases mem_append.1 ho with ho | ho
    · exact h.extend o ho
    · rw [mem_singleton.1 ho]
      exact extends_methodOverloadName javaName types overloads

lemma mem_of_overload? (h : overload? overloads types = some o) : o ∈ overloads :=
  mem_of_find?_eq_some h

lemma overload?_publish (published : List String) (overloads : List Overload)
    (types : List String) :
    overload? (publish published isPublic overloads) types
      = (overload? overloads types).map fun o =>
          { o with isPublic := o.isPublic || (types == published && isPublic) } := by
  unfold overload? publish
  rw [find?_map]
  have hcongr : ((fun o : Overload => o.argumentTypes == types) ∘ fun o =>
      if o.argumentTypes = published then { o with isPublic := o.isPublic || isPublic } else o)
      = fun o => o.argumentTypes == types := by
    funext o
    simp only [Function.comp_apply]
    split <;> rfl
  rw [hcongr]
  cases hfind : overloads.find? fun o => o.argumentTypes == types with
  | none => rfl
  | some o =>
    obtain rfl : o.argumentTypes = types := overload?_argumentTypes hfind
    by_cases heq : o.argumentTypes = published
    · simp [heq]
    · have hbeq : (o.argumentTypes == published) = false := by simpa using heq
      simp [heq, hbeq]

/-- The overload that is looked for stands at its place. -/
lemma getElem?_entryOf (overloads : List Overload) (types : List String) :
    overloads[entryOf overloads types]? = overload? overloads types :=
  find?_eq_getElem?_findIdx.symm

lemma entryOf_publish (published : List String) (overloads : List Overload)
    (types : List String) :
    entryOf (publish published isPublic overloads) types = entryOf overloads types := by
  have hmap : ∀ overloads, entryOf overloads types
      = findIdx (· == types) (overloads.map Overload.argumentTypes) := by
    intro overloads
    rw [findIdx_map]
    rfl
  rw [hmap, hmap, map_argumentTypes_publish]

lemma entryOf_append_of_isSome (h : (overload? overloads types).isSome) (more : List Overload) :
    entryOf (overloads ++ more) types = entryOf overloads types := by
  have hlt : entryOf overloads types < overloads.length := findIdx_lt_length.2 (find?_isSome.1 h)
  unfold entryOf at hlt ⊢
  rw [findIdx_append, if_pos hlt]

lemma entryOf_append_of_none (h : overload? overloads o.argumentTypes = none) :
    entryOf (overloads ++ [o]) o.argumentTypes = entryOf overloads o.argumentTypes := by
  have hlength : entryOf overloads o.argumentTypes = overloads.length :=
    findIdx_eq_length.2 fun o' ho' => Bool.eq_false_iff.2 (find?_eq_none.1 h o' ho')
  unfold entryOf at hlength ⊢
  rw [findIdx_append, if_neg (by omega), hlength]
  simp

lemma exists_overload?_fileMethod_of_some (h : overload? overloads types = some o)
    (javaName : String) (filed : List String) (isPublic isStatic : Bool) :
    ∃ o', overload? (fileMethod javaName filed isPublic isStatic overloads) types = some o'
      ∧ (o.isPublic = true → o'.isPublic = true) := by
  unfold fileMethod
  split
  · rw [overload?_publish, h]
    exact ⟨_, rfl, fun hpublic => by simp [hpublic]⟩
  · refine ⟨o, ?_, id⟩
    unfold overload? at *
    rw [find?_append, h]
    rfl

lemma exists_overload?_fileMethod_self (javaName : String) (types : List String) (isStatic : Bool)
    (overloads : List Overload) :
    ∃ o, overload? (fileMethod javaName types isPublic isStatic overloads) types = some o
      ∧ (isPublic = true → o.isPublic = true) := by
  unfold fileMethod
  cases hfind : overload? overloads types with
  | some =>
    rw [Option.isSome_some, if_pos rfl, overload?_publish, hfind]
    exact ⟨_, rfl, fun hpublic => by simp [hpublic]⟩
  | none =>
    unfold overload? at *
    simp only [Option.isSome_none, Bool.false_eq_true, if_false]
    rw [find?_append, hfind]
    simp

lemma entryOf_fileMethod (javaName : String) (filed : List String) (isPublic isStatic : Bool)
    (h : types = filed ∨ (overload? overloads types).isSome) :
    entryOf (fileMethod javaName filed isPublic isStatic overloads) types
      = entryOf overloads types := by
  unfold fileMethod
  split
  · exact entryOf_publish isPublic filed overloads types
  · next hnone =>
    rcases h with rfl | hsome
    · exact entryOf_append_of_none (o := ⟨_, types, isPublic, isStatic⟩)
        (Option.not_isSome_iff_eq_none.1 hnone)
    · exact entryOf_append_of_isSome hsome _

/-- Overloads with the same argument types stand at the same place. -/
lemma eq_entryOf_of_nodup (h : (overloads.map Overload.argumentTypes).Nodup)
    (ho : overloads[i]? = some o) : i = entryOf overloads o.argumentTypes := by
  obtain ⟨hi, rfl⟩ := List.getElem?_eq_some_iff.1 ho
  unfold entryOf
  symm
  rw [findIdx_eq hi]
  refine ⟨beq_self_eq_true _, fun j hj => ?_⟩
  have hne := pairwise_iff_getElem.1 (pairwise_map.1 h) j i (Nat.lt_trans hj hi) hi hj
  exact beq_eq_false_iff_ne.2 hne

lemma Distinct.overload?_eq (h : Distinct overloads) (ho : o ∈ overloads) :
    overload? overloads o.argumentTypes = some o := by
  obtain ⟨i, hi⟩ := mem_iff_getElem?.1 ho
  rw [← getElem?_entryOf, ← eq_entryOf_of_nodup h.types hi, hi]

lemma Extends.visible_ne (ha : Extends javaName a) (hb : Extends javaName b) (hne : a ≠ b)
    (p q : Bool) : withVisibility a p ≠ withVisibility b q := by
  obtain ⟨r, har, hr⟩ := ha
  obtain ⟨s, hbs, hs⟩ := hb
  have hrs : r ≠ s := by
    rintro rfl
    exact hne (String.toList_inj.1 (har.trans hbs.symm))
  rw [withVisibility_eq, withVisibility_eq, har, hbs]
  intro heq
  have hchars := String.ofList_inj.1 heq
  cases hname : javaName.toList with
  | cons c cs =>
    rw [hname] at hchars
    have htails : cs ++ r ≠ cs ++ s := fun h => hrs (append_cancel_left h)
    exact visibleChars_cons_ne htails p q hchars
  | nil =>
    rw [hname, nil_append, nil_append] at hchars
    -- Without a Java name one of them may be empty; all others begin with the same letter.
    rcases hr with rfl | ⟨r', rfl⟩
    · rcases hs with rfl | ⟨s', rfl⟩
      · exact hrs rfl
      · rw [visibleChars_nil] at hchars
        exact visibleChars_W_ne_nil q s' hchars.symm
    · rcases hs with rfl | ⟨s', rfl⟩
      · rw [visibleChars_nil] at hchars
        exact visibleChars_W_ne_nil p r' hchars
      · have htails : r' ≠ s' := fun h => hrs (by rw [h])
        exact visibleChars_cons_ne htails p q hchars

lemma Sound.name_ne (h : Sound javaName overloads) (ho : o ∈ overloads) (ho' : o' ∈ overloads)
    (hne : o.argumentTypes ≠ o'.argumentTypes) : o.name ≠ o'.name := by
  have hdistinct := h.names
  clear h
  induction overloads with
  | nil => exact absurd ho not_mem_nil
  | cons first rest ih =>
    rw [map_cons, nodup_cons] at hdistinct
    rcases mem_cons.1 ho with rfl | hmem
    · rcases mem_cons.1 ho' with rfl | hmem'
      · exact absurd rfl hne
      · intro heq
        exact hdistinct.1 (heq ▸ mem_map_of_mem hmem')
    · rcases mem_cons.1 ho' with rfl | hmem'
      · intro heq
        exact hdistinct.1 (heq ▸ mem_map_of_mem hmem)
      · exact ih hmem hmem' hdistinct.2

lemma Sound.visible_ne (h : Sound javaName overloads) (ho : o ∈ overloads) (ho' : o' ∈ overloads)
    (hne : o.argumentTypes ≠ o'.argumentTypes) (p q : Bool) :
    withVisibility o.name p ≠ withVisibility o'.name q :=
  (h.extend o ho).visible_ne (h.extend o' ho') (h.name_ne ho ho' hne) p q

end Bucket

end JavaToGo
