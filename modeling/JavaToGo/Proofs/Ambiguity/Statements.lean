import JavaToGo.Proofs.Ambiguity.Marks
import JavaToGo.Proofs.Lowering.Accounts

/-!
# Marks of expressions and statements

Every rule hands the marks of its parts on, and a call that it finds ambiguous
adds one.  Operands that a rule does not look at are not lowered either.
-/

namespace JavaToGo

open Code (Stmt)

namespace Lower

variable {α β : Type} {held : Nat}

/-- The marks of the result, but for the `held` ones that earlier steps have logged, are the
ambiguities that the computation logs. -/
def Tallies (held : Nat) (x : Lower α) (marks : α → Nat) : Prop :=
  ∀ c t a t', x.runAt c t = (.ok a, t') → ambiguities t'.log + held = ambiguities t.log + marks a

variable {x : Lower α} {f : α → Lower β} {marks : α → Nat} {total : β → Nat}

lemma Tallies.pure (h : marks a = held) : Tallies held (Pure.pure a : Lower α) marks := by
  intro c t b t' hrun
  cases hrun
  rw [h]

lemma Tallies.throw (failure : Failure) : Tallies held (throw failure : Lower α) marks := by
  intro c t b t' hrun
  cases hrun

lemma Tallies.step (hx : Tallies 0 x marks) (hf : ∀ a, Tallies (held + marks a) (f a) total) :
    Tallies held (x >>= f) total := by
  intro c t b t' hrun
  obtain ⟨a, t₁, hfirst, hsecond⟩ := exists_of_bind hrun
  have h₁ := hx c t a t₁ hfirst
  have h₂ := hf a c t₁ b t' hsecond
  omega

lemma Asks.quiet {asked : String → Prop} (hx : x.Asks asked) : Tallies 0 x fun _ => 0 := by
  intro c t a t' hrun
  have hstill := hx.still c t
  rw [hrun] at hstill
  rw [← hstill]

lemma Tallies.withReader (hx : Tallies held x marks) (change : Context → Context) :
    Tallies held (MonadWithReader.withReader change x) marks :=
  fun c t a t' hrun => hx (change c) t a t' hrun

lemma Tallies.withScopes (hx : Tallies held x marks) (enter : List Scope → List Scope)
    (leave : List Scope → List Scope → List Scope) :
    Tallies held (Lower.withScopes enter leave x) marks := by
  intro c t a t' hrun
  obtain ⟨t₁, hinner, rfl⟩ := exists_of_runAt_withScopes hrun
  exact hx c { t with scopes := enter t.scopes } a t₁ hinner

end Lower

/-- No try has several final blocks, of which only the last would be kept. -/
def Tree.Node.SingleFinally (node : Node) : Prop :=
  node.Everywhere fun n => n.kind = .tryStatement ∨ n.kind = .tryWithResourcesStatement →
    (n.childrenOfKind .finallyClause).length ≤ 1

instance (node : Node) : Decidable node.SingleFinally :=
  inferInstanceAs (Decidable (node.Everywhere _))

def Lowered.marks (a : Lowered) : Nat :=
  Stmt.marksAll a.before

def Scale.marks : Scale where
  weight := Stmt.marks
  logged := ambiguities
  lossy := False
  logged_nil := rfl
  logged_append := ambiguities_append
  methodMark name count _ := marks_methodAmbiguity name count
  constructorMark javaName _ := marks_constructorAmbiguity javaName

namespace Scale

@[simp] lemma all_marks (ss : List Stmt) : Scale.marks.all ss = Stmt.marksAll ss :=
  all_of_total (fun _ => rfl) ss

lemma ownMarks_of_compound (s : Stmt) (h : s.isSimple = false) : s.ownMarks = 0 := by
  cases s <;> first | rfl | cases h

lemma deep_marks : Scale.marks.Deep :=
  { nests_of_total (fun _ => rfl) ownMarks_of_compound with
    superComment := marks_superComment
    returnComment := by decide }

lemma opens_marks : Scale.marks.Opens :=
  opens_of_total (fun _ => rfl) ownMarks_of_compound

end Scale

def Part.SingleFinally : Part → Prop
  | .code _ node => node.SingleFinally
  | _ => True

lemma Part.singleFinally_of_everywhere {q : Part} {P : Node → Prop}
    (hP : ∀ node : Node, node.Everywhere P → node.SingleFinally) (h : q.Everywhere P) :
    q.SingleFinally := by
  cases q with
  | code _ node => exact hP node h
  | _ => trivial

lemma accounts_marks (p : Setting) :
    Accounts Scale.marks p (fun _ _ => 0) (fun _ _ _ => 0) Part.SingleFinally where
  deep := Scale.deep_marks
  lossless h := h.elim
  behind _ := ⟨rfl, fun _ _ => rfl, fun _ _ _ => rfl⟩
  value _ := ⟨fun _ => (Part.sum_silent (S := .marks) rfl _).symm, fun q _ => by
    cases q with
    | code => exact .inl trivial
    | _ => exact .inr trivial⟩
  maybe _ := ⟨fun _ => rfl, trivial⟩
  admits _ _ :=
    ⟨fun _ _ _ => trivial, fun _ _ _ => trivial, fun _ _ => .of_placed fun _ => trivial,
     fun _ => trivial⟩
  code hnode := .inr ⟨.of_light (fun _ => trivial) (fun _ => rfl) fun hkind =>
      ⟨Scale.opens_marks, .inr (Tree.Node.Everywhere.here hnode hkind)⟩,
    fun _ => by rw [Part.sum_silent (S := .marks) rfl, Lower.own_eq_zero fun _ => rfl], fun q hq =>
      Part.singleFinally_of_everywhere (fun _ h => h) (Part.hold_ofCode hnode _ _ q hq)⟩

namespace Lower

lemma Emits.tallies {α : Type} {x : Lower α} {parts : Setting → List Part} {total marks : α → Nat}
    (h : ∀ p, Emits Scale.marks expression statement p (parts p) 0 x total)
    (hparts : ∀ p, ∀ q ∈ parts p, q.SingleFinally) (htotal : ∀ a, total a = marks a) :
    Tallies 0 x marks := by
  intro c t a t' hrun
  have haccounts := accounts_marks c.setting
  have hcounts := haccounts.counts_of_good (b := c.setting.inReturn) (h c.setting)
    (fun _ _ _ => rfl) (fun hq => haccounts.counts_statement (hparts c.setting _ hq))
    (fun q hq => .inr (hparts c.setting q hq)) c t a t' rfl hrun
  rw [Part.sum_silent (S := .marks) rfl, htotal] at hcounts
  change marks a + ambiguities t.log = 0 + ambiguities t'.log at hcounts
  omega

lemma tallies_expression (node : Node) : Tallies 0 (expression node) Lowered.marks :=
  Emits.tallies (fun _ => .value node) (fun _ => List.forall_mem_singleton.2 trivial) fun a => by
    simp [Lowered.marks]

lemma tallies_block {node : Node} (hnode : node.SingleFinally) :
    Tallies 0 (block node) Stmt.marksAll :=
  Emits.tallies (fun _ => emits_blockWith node)
    (fun _ q hq => Part.singleFinally_of_everywhere (fun _ h => h) (Part.hold_block hnode _ q hq))
    fun ss => by simp

end Lower

end JavaToGo
