import JavaToGo.Proofs.Lowering.Accounts

/-!
# Demands on code

A demand is made of every statement in a block, at any depth.  A try becomes a
closure and what is returned in it leaves the closure only, so returns are looked
at outside of every try.
-/

namespace JavaToGo

open Code (Expr Stmt)
open List

namespace Code

/-- Whether Go can assign to the expression. -/
def Expr.isPlace : Expr → Bool
  | .var _ | .field .. | .index .. => true
  | _ => false

end Code

/-- What may be asked of all the statements of a function. -/
inductive Demand where
  | places
  | results (count : Nat)

namespace Demand

def entersTry : Demand → Bool
  | places => true
  | results _ => false

def breaks : Demand → Stmt → Bool
  | places, .assign target _ | places, .step target _ => !target.isPlace
  | results count, .ret values => values.length != count
  | _, _ => false

/-- How often a demand is broken. -/
def faults (d : Demand) (ss : List Stmt) : Nat :=
  Stmt.totalAll d.entersTry (fun s => (d.breaks s).toNat) ss

/-- No statement breaks the demand. -/
def Met (d : Demand) (ss : List Stmt) : Prop :=
  ∀ s ∈ Stmt.walkAll d.entersTry ss, d.breaks s = false

lemma met_iff {d : Demand} : d.Met ss ↔ d.faults ss = 0 := by
  simp [Met, faults, Stmt.totalAll, List.sum_eq_zero_iff_forall_eq_nat]

lemma faults_append (d : Demand) (ss ts : List Stmt) :
    d.faults (ss ++ ts) = d.faults ss + d.faults ts :=
  Stmt.totalAll_append ss ts

lemma results_met_iff {count : Nat} {ss : List Stmt} :
    (results count).Met ss
      ↔ ∀ values, .ret values ∈ Stmt.walkAll false ss → values.length = count := by
  refine ⟨fun h values hmem => by simpa [breaks] using h _ hmem, fun h s hs => ?_⟩
  cases s with
  | ret values => simpa [breaks] using h values hs
  | _ => rfl

variable (d : Demand)

/-- The scale that counts how often the demand is broken. -/
def scale : Scale where
  weight := Stmt.total d.entersTry fun s => (d.breaks s).toNat
  placed e := d = places → e.isPlace = true
  lossy := True
  placed_var _ _ := rfl
  placed_field _ _ _ := rfl
  assign place _ h := by cases d <;> simp_all [breaks]
  call _ := by cases d <;> rfl
  step place _ h := by cases d <;> simp_all [breaks]
  binding _ _ := by cases d <;> rfl
  methodMark _ _ _ := by cases d <;> rfl
  constructorMark _ _ := by cases d <;> rfl

lemma all_scale (ss : List Stmt) : d.scale.all ss = d.faults ss :=
  Scale.all_of_total (fun _ => rfl) ss

lemma breaks_of_compound (s : Stmt) (h : s.isSimple = false) : (d.breaks s).toNat = 0 := by
  cases s <;> first | cases d <;> rfl | cases h

lemma deep_scale : d.scale.Deep :=
  { Scale.nests_of_total (fun _ => rfl) d.breaks_of_compound with
    raw := fun _ => by cases d <;> rfl
    var := fun _ _ _ _ => by cases d <;> rfl
    superComment := fun _ => by cases d <;> rfl
    returnComment := by cases d <;> rfl }

lemma opens_places : places.scale.Opens :=
  Scale.opens_of_total (fun _ => rfl) places.breaks_of_compound

lemma shuts_results (count : Nat) : (results count).scale.Shuts :=
  fun _ _ _ _ _ => rfl

end Demand

end JavaToGo
