/-!
# Tables in order of arrival
-/

namespace JavaToGo

/-- Entries in the order in which their keys arrived. -/
structure Table (κ ν : Type) where
  entries : List (κ × ν) := []
deriving Repr, Inhabited

namespace Table

variable {κ ν : Type} [DecidableEq κ]

def findIn (k : κ) : List (κ × ν) → Option ν
  | [] => none
  | e :: es => if e.1 = k then some e.2 else findIn k es

/-- Writing a key again replaces its value and leaves it where it stands. -/
def insertIn (k : κ) (v : ν) : List (κ × ν) → List (κ × ν)
  | [] => [(k, v)]
  | e :: es => if e.1 = k then (k, v) :: es else e :: insertIn k v es

section

variable (t : Table κ ν)

/-- The value of a key. -/
def find? (k : κ) : Option ν :=
  findIn k t.entries

def contains (k : κ) : Bool :=
  (t.find? k).isSome

/-- Writes a key: in its place when it is there, at the end when it is new. -/
def insert (k : κ) (v : ν) : Table κ ν :=
  ⟨insertIn k v t.entries⟩

/-- Writes a key unless it has a value already. -/
def insertNew (k : κ) (v : ν) : Table κ ν :=
  if t.contains k then t else t.insert k v

def keys : List κ :=
  t.entries.map Prod.fst

def values : List ν :=
  t.entries.map Prod.snd

def size : Nat :=
  t.entries.length

end

def ofList (es : List (κ × ν)) : Table κ ν :=
  es.foldl (fun t e => t.insert e.1 e.2) ⟨[]⟩

@[simp] theorem find?_empty (k : κ) : (⟨[]⟩ : Table κ ν).find? k = none := rfl

@[simp] theorem find?_insert_self (t : Table κ ν) (k : κ) (v : ν) :
    (t.insert k v).find? k = some v := by
  obtain ⟨es⟩ := t
  simp only [find?, insert]
  induction es with
  | nil => simp [insertIn, findIn]
  | cons e es ih =>
    by_cases h : e.1 = k
    · simp [insertIn, findIn, h]
    · simp [insertIn, findIn, h, ih]

theorem find?_insert_of_ne (t : Table κ ν) {k l : κ} (v : ν) (hne : l ≠ k) :
    (t.insert k v).find? l = t.find? l := by
  obtain ⟨es⟩ := t
  simp only [find?, insert]
  induction es with
  | nil => simp [insertIn, findIn, Ne.symm hne]
  | cons e es ih =>
    by_cases h : e.1 = k
    · simp [insertIn, findIn, h, Ne.symm hne]
    · simp [insertIn, findIn, h, ih]

theorem map_fst_insertIn_of_mem {k : κ} (v : ν) {es : List (κ × ν)}
    (h : k ∈ es.map Prod.fst) : (insertIn k v es).map Prod.fst = es.map Prod.fst := by
  induction es with
  | nil => simp at h
  | cons e es ih =>
    by_cases hk : e.1 = k
    · simp [insertIn, hk]
    · have hmem : k ∈ es.map Prod.fst := by
        rcases List.mem_cons.1 h with rfl | h
        · exact absurd rfl hk
        · exact h
      simp [insertIn, hk, ih hmem]

theorem map_fst_insertIn_of_not_mem {k : κ} (v : ν) {es : List (κ × ν)}
    (h : k ∉ es.map Prod.fst) : (insertIn k v es).map Prod.fst = es.map Prod.fst ++ [k] := by
  induction es with
  | nil => rfl
  | cons e es ih =>
    simp only [List.map_cons, List.mem_cons, not_or] at h
    simp [insertIn, Ne.symm h.1, ih h.2]

theorem keys_insert_of_mem (t : Table κ ν) {k : κ} (v : ν) (h : k ∈ t.keys) :
    (t.insert k v).keys = t.keys :=
  map_fst_insertIn_of_mem v h

theorem keys_insert_of_not_mem (t : Table κ ν) {k : κ} (v : ν) (h : k ∉ t.keys) :
    (t.insert k v).keys = t.keys ++ [k] :=
  map_fst_insertIn_of_not_mem v h

end Table

end JavaToGo
