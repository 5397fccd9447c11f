import JavaToGo.Proofs.Draft.Additions
import JavaToGo.Proofs.Draft.Run

/-!
# What each call contributes
-/

namespace JavaToGo

open List Draft

namespace Draft

variable (d : Draft) (g : Group)

@[simp] lemma count_withTrail (t : Trail) : (d.withTrail t).count g = d.count g := by
  rw [← length_standing, standing_withTrail, length_standing]

@[simp] lemma count_openMember : d.openMember.count g = d.count g := by
  rw [← length_standing, standing_openMember, length_standing]

lemma count_le_add (group : Group) (decls : List Decl) :
    d.count g ≤ (d.add group decls).count g := by
  rw [← length_standing, ← length_standing, standing_add]
  split
  · next hg =>
      subst hg
      simp
  · exact Nat.le_refl _

@[simp] lemma count_grow (group : Group) (place : Place) (f : Decl → Decl) :
    (d.grow group place f).count g = d.count g :=
  countIn_growIn g group place f d.file d.staged

end Draft

namespace Build

variable {α : Type} (g : Group)

lemma count_le_runAt (x : Build α) (d : Draft) : d.count g ≤ (x.runAt .tolerant c d).2.count g := by
  induction x generalizing d with
  | done | stop => exact Nat.le_refl _
  | asking _ ih => exact ih c d
  | lowering x _ ih =>
    rw [runAt]
    rcases x.runAt c d.trail with ⟨_ | value, t⟩
    · simp
    · simpa using ih value (d.withTrail t)
  | noting event _ ih => exact ih (d.note event)
  | adding group decls _ ih =>
    exact Nat.le_trans (d.count_le_add g group decls) (ih _ (d.add group decls))
  | growing group place grow _ ih =>
    have hnext := ih (d.grow group place grow)
    rwa [count_grow] at hnext
  | guarding location node body _ ihBody ihNext =>
    have hbody := ihBody d.openMember
    rw [count_openMember] at hbody
    have hclosed : d.count g ≤ (((body.runAt .tolerant c d.openMember).2.closeMember location
        node (body.runAt .tolerant c d.openMember).1).2.standing g).length := by
      cases hrun : (body.runAt .tolerant c d.openMember).1 with
      | ok =>
        rw [← hrun, standing_close_of_ok hrun, length_standing]
        exact hbody
      | error =>
        rw [← hrun, standing_close_of_error hrun, length_take, length_standing]
        exact Nat.le_min.2 ⟨Nat.le_refl _, hbody⟩
    rw [length_standing] at hclosed
    exact Nat.le_trans hclosed (ihNext _ _)

end Build

namespace Call

variable (c : Context) (call : Call)

lemma count_le_after (g : Group) : call.before.count g ≤ (call.after c).count g :=
  Build.count_le_runAt (c := c) g (Build.member call.location call.node call.body.2) call.before

/-- The declarations of a group that a call adds. -/
def added (g : Group) : List Decl :=
  ((call.after c).standing g).drop (call.before.count g)

def Returned : Prop :=
  ∃ value, (call.run c).1 = .ok value

variable {c call}

lemma returned_of_not_failed (h : ¬ call.Failed c) : call.Returned c := by
  cases hrun : (call.run c).1 with
  | ok value => exact ⟨value, hrun⟩
  | error failure => exact absurd ⟨failure, hrun⟩ h

lemma returned_of_silent (h : (call.after c).diagnostics = call.before.diagnostics) :
    call.Returned c ∧ ∀ k ∈ call.body.2.calls c call.before.openMember, k.Returned c := by
  have hall := Build.diagnostics_runAt_eq (c := c)
    (Build.member call.location call.node call.body.2) call.before
  have hnone := self_eq_append_right.1 (h.symm.trans hall)
  have hreturned : ∀ k ∈ call.body.2.calls c call.before.openMember ++ [call], k.Returned c := by
    intro k hk
    have hk' := filterMap_eq_nil_iff.1 hnone k hk
    refine returned_of_not_failed ?_
    rw [failed_iff_isSome_diagnostic?, hk']
    exact Bool.false_ne_true
  exact ⟨hreturned call (by simp), fun k hk => hreturned k (by simp [hk])⟩

lemma standing_after_of_returned (h : call.Returned c) (g : Group) :
    (call.after c).standing g = (call.run c).2.standing g := by
  obtain ⟨value, hvalue⟩ := h
  exact Build.standing_close_of_ok hvalue g

lemma Returned.exists_run (h : call.Returned c) {β : Type} {x : Build β}
    (hbody : call.body = ⟨β, x⟩) :
    ∃ b d', x.runAt .tolerant c call.before.openMember = (.ok b, d')
      ∧ ∀ g, (call.after c).standing g = d'.standing g := by
  have hafter := standing_after_of_returned h
  obtain ⟨location, node, body, before⟩ := call
  subst hbody
  obtain ⟨value, hvalue⟩ := h
  exact ⟨value, _, Prod.ext hvalue rfl, hafter⟩

lemma mem_added_of_getElem? {d' : Draft} (hafter : ∀ g, (call.after c).standing g = d'.standing g)
    (hle : call.before.count g ≤ p) (hdecl : (d'.standing g)[p]? = some decl) :
    decl ∈ call.added c g := by
  refine mem_of_getElem? (i := p - call.before.count g) ?_
  rw [added, hafter, getElem?_drop, Nat.add_sub_cancel' hle]
  exact hdecl

lemma added_of_failed (h : call.Failed c) (g : Group) : call.added c g = [] := by
  obtain ⟨failure, hfailure⟩ := h
  have hafter : (call.after c).standing g
      = ((call.run c).2.standing g).take (call.before.count g) :=
    Build.standing_close_of_error hfailure g
  rw [added, hafter]
  simp

lemma standing_after (h : call.body.2.GrowsHeld c held) (hfree : ∀ p, ¬ held g p) :
    (call.after c).standing g = call.before.standing g ++ call.added c g := by
  have hmember : (Build.member call.location call.node call.body.2).GrowsHeld c held := .member h
  obtain ⟨rest, hrest⟩ := hmember.standing_isPrefix hfree call.before
  have hafter : (call.after c).standing g = call.before.standing g ++ rest := hrest.symm
  rw [added, hafter, ← length_standing, drop_left]

lemma standing_after_of_failed (h : call.body.2.GrowsHeld c Build.Held.none)
    (hfailed : call.Failed c) (g : Group) :
    (call.after c).standing g = call.before.standing g := by
  rw [standing_after h fun _ => id, added_of_failed hfailed, append_nil]

end Call

namespace Build

variable (c : Context)

/-- The members that a script hands to boundaries itself, not those inside them. -/
def ownCalls {α : Type} : Build α → Draft → List Call
  | .done _, _ => []
  | .stop _, _ => []
  | .asking next, d => (next c).ownCalls d
  | .lowering x next, d =>
    match x.runAt c d.trail with
    | (.ok value, t) => (next value).ownCalls (d.withTrail t)
    | (.error _, _) => []
  | .noting event next, d => next.ownCalls (d.note event)
  | .adding group decls next, d => (next (d.count group)).ownCalls (d.add group decls)
  | .growing group place grow next, d => next.ownCalls (d.grow group place grow)
  | .guarding location node body next, d =>
    let outcome := body.runAt .tolerant c d.openMember
    let closed := outcome.2.closeMember location node outcome.1
    ⟨location, node, ⟨_, body⟩, d⟩ :: (next closed.1).ownCalls closed.2

variable {c} {α β : Type}

lemma ownCalls_bind {x : Build α} {f : α → Build β} (h : x.runAt .tolerant c d = (.ok a, d')) :
    (x >>= f).ownCalls c d = x.ownCalls c d ++ (f a).ownCalls c d' := by
  change (x.bind f).ownCalls c d = _
  induction x generalizing d with
  | done =>
    cases h
    rfl
  | stop => cases h
  | asking _ ih => exact ih c h
  | lowering x _ ih =>
    rw [runAt] at h
    rw [Build.bind, ownCalls, ownCalls]
    rcases hrun : x.runAt c d.trail with ⟨outcome, t⟩
    rw [hrun] at h
    cases outcome with
    | ok value => exact ih value h
    | error => cases h
  | noting _ _ ih | growing _ _ _ _ ih => exact ih h
  | adding _ _ _ ih => exact ih _ h
  | guarding _ _ _ _ _ ih =>
    have hnext := ih _ (f := f) h
    exact congrArg _ hnext

section

variable {σ : Type} {read : Context → Outcome σ} {shape : σ} {f : Context → σ → Build α}
  (hshape : read c = .ok shape) (d : Draft)
include hshape

lemma runAt_shaped : (context >>= fun c => liftM (read c) >>= f c).runAt .tolerant c d
    = (f c shape).runAt .tolerant c d := by
  change (liftM (read c) >>= f c).runAt .tolerant c d = _
  rw [hshape]
  rfl

lemma ownCalls_shaped : (context >>= fun c => liftM (read c) >>= f c).ownCalls c d
    = (f c shape).ownCalls c d := by
  change (liftM (read c) >>= f c).ownCalls c d = _
  rw [hshape]
  rfl

end

@[simp] lemma ownCalls_pure (a : α) (d : Draft) : (Pure.pure a : Build α).ownCalls c d = [] :=
  rfl

@[simp] lemma ownCalls_lift (x : Outcome α) (d : Draft) :
    (liftM x : Build α).ownCalls c d = [] := by
  cases x <;> rfl

@[simp] lemma ownCalls_member (location : String) (node : Node) (x : Build α) (d : Draft) :
    (member location node x).ownCalls c d = [⟨location, node, ⟨α, x⟩, d⟩] :=
  rfl

lemma Still.ownCalls_eq {x : Build α} {post : α → Prop} (h : x.Still c post) (d : Draft) :
    x.ownCalls c d = [] := by
  induction x generalizing d with
  | done | stop => rfl
  | asking _ ih => exact ih c h d
  | lowering x _ ih =>
    rw [ownCalls]
    rcases hrun : x.runAt c d.trail with ⟨_ | value, t⟩
    · rfl
    · exact ih value (h value _ _ hrun) (d.withTrail t)
  | noting event _ ih => exact ih h (d.note event)
  | adding group decls _ ih => exact ih _ (h _) (d.add group decls)
  | growing | guarding => exact h.elim

end Build

namespace Call

variable (c : Context)

def own (call : Call) : List Call :=
  call.body.2.ownCalls c call.before.openMember

variable {c} {α : Type}

lemma own_of_body {call : Call} (hbody : call.body = ⟨α, x⟩) :
    call.own c = x.ownCalls c call.before.openMember := by
  rw [own, hbody]

lemma own_subset_calls {x : Build α} :
    x.ownCalls c d ⊆ x.calls c d ∧ ∀ call ∈ x.calls c d, call.own c ⊆ x.calls c d := by
  induction x generalizing d with
  | done | stop => exact ⟨List.Subset.refl _, forall_mem_nil _⟩
  | asking _ ih => exact ih c
  | lowering x _ ih =>
    rw [Build.ownCalls, Build.calls]
    rcases x.runAt c d.trail with ⟨_ | value, t⟩
    · exact ⟨List.Subset.refl _, forall_mem_nil _⟩
    · exact ih value
  | noting _ _ ih | growing _ _ _ _ ih => exact ih
  | adding _ _ _ ih => exact ih _
  | guarding _ _ _ _ ihBody ihNext =>
    rw [Build.calls]
    refine ⟨?_, fun call hcall inner hinner => ?_⟩
    · exact subset_append_of_subset_right _ (cons_subset_cons _ (ihNext _).1)
    · rw [mem_append, mem_cons] at hcall ⊢
      rcases hcall with hdeeper | rfl | hlater
      · exact .inl (ihBody.2 call hdeeper hinner)
      · exact .inl (ihBody.1 hinner)
      · exact .inr (.inr ((ihNext _).2 call hlater hinner))

variable (c) in
/-- Nothing is written between the calls: each begins with the draft that the one before leaves. -/
def Linked : Draft → List Call → Draft → Prop
  | d, [], d' => d' = d
  | d, call :: calls, d' => call.before = d ∧ Linked (call.after c) calls d'

lemma Linked.append (h : Linked c d calls d₁) (h' : Linked c d₁ calls' d₂) :
    Linked c d (calls ++ calls') d₂ := by
  induction calls generalizing d with
  | nil =>
    obtain rfl : d₁ = d := h
    exact h'
  | cons call calls ih => exact ⟨h.1, ih h.2⟩

lemma Linked.standing (h : Linked c d calls d') (hextends : ∀ call ∈ calls,
      (call.after c).standing g = call.before.standing g ++ call.added c g) :
    d'.standing g = d.standing g ++ calls.flatMap (Call.added c · g) := by
  induction calls generalizing d with
  | nil =>
    obtain rfl : d' = d := h
    simp
  | cons call calls ih =>
    obtain ⟨hfirst, hrest⟩ := forall_mem_cons.1 hextends
    obtain ⟨rfl, hlinked⟩ := h
    rw [ih hlinked hrest, hfirst, flatMap_cons, append_assoc]

end Call

namespace Build

variable {α : Type} {x : Build α}

lemma GrowsHeld.standing_of_mem_keptCalls (hx : x.GrowsHeld c held) {d : Draft}
    (hheld : ∀ p, held g p → p < d.count g) (hcall : call ∈ x.keptCalls c d) :
    d.count g ≤ call.before.count g
      ∧ ∀ {p : Place} {decl : Decl}, call.before.count g ≤ p →
        ((call.after c).standing g)[p]? = some decl →
          ((x.runAt .tolerant c d).2.standing g)[p]? = some decl := by
  induction x generalizing d held with
  | done | stop => cases hcall
  | asking _ ih => exact ih c hx hheld hcall
  | lowering x _ ih =>
    rw [keptCalls] at hcall
    rw [runAt]
    rcases hrun : x.runAt c d.trail with ⟨outcome, t⟩
    rw [hrun] at hcall
    cases outcome with
    | ok value => simpa using ih value (hx value _ _ hrun) (by simpa using hheld) hcall
    | error => cases hcall
  | noting event _ ih => exact ih (d := d.note event) hx hheld hcall
  | adding group decls _ ih =>
    have hle := d.count_le_add g group decls
    refine (ih _ (hx _) ?_ hcall).imp_left (Nat.le_trans hle)
    rintro q (hq | ⟨rfl, rfl, hne⟩)
    · exact Nat.lt_of_lt_of_le (hheld q hq) hle
    · rw [← length_standing (d.add g decls), standing_add, if_pos rfl,
        length_append, length_standing]
      exact Nat.lt_add_of_pos_right (length_pos_iff.2 hne)
  | growing _ _ _ _ ih =>
    rw [runAt]
    simpa using ih hx.2 (by simpa using hheld) hcall
  | guarding location node body _ ihBody ihNext =>
    have hfree : ∀ {p}, d.count g ≤ p → ¬ held g p := fun hle hp =>
      Nat.lt_irrefl _ (Nat.lt_of_lt_of_le (hheld _ hp) hle)
    have hclosed := Call.count_le_after c ⟨location, node, ⟨_, body⟩, d⟩ g
    rw [keptCalls, mem_append] at hcall
    rw [runAt]
    rcases hcall with hinner | hlater
    · cases hrun : (body.runAt .tolerant c d.openMember).1 with
      | error =>
        rw [hrun] at hinner
        cases hinner
      | ok =>
        rw [hrun] at hinner
        rcases mem_append.1 hinner with hdeeper | hself
        · obtain ⟨hle, hstands⟩ := ihBody hx.1 (by simpa using hheld) hdeeper
          rw [count_openMember] at hle
          refine ⟨hle, fun hp hdecl =>
            (hx.2 _).getElem?_standing (hfree (Nat.le_trans hle hp)) ?_⟩
          rw [← hrun, standing_close_of_ok hrun]
          exact hstands hp hdecl
        · obtain rfl := mem_singleton.1 hself
          refine ⟨Nat.le_refl _, fun hp hdecl => (hx.2 _).getElem?_standing (hfree hp) ?_⟩
          rw [← hrun]
          exact hdecl
    · refine (ihNext _ (hx.2 _) ?_ hlater).imp_left (Nat.le_trans hclosed)
      exact fun q hq => Nat.lt_of_lt_of_le (hheld q hq) hclosed

lemma GrowsHeld.added_isPrefix (hx : x.GrowsHeld c Held.none) (hcall : call ∈ x.keptCalls c d)
    (g : Group) :
    call.added c g <+: ((x.runAt .tolerant c d).2.standing g).drop (call.before.count g) := by
  refine prefix_iff_getElem?.2 fun i hi => ?_
  rw [getElem?_drop]
  refine (hx.standing_of_mem_keptCalls (fun _ hp => hp.elim) hcall).2 (Nat.le_add_right _ i) ?_
  rw [← getElem?_drop]
  exact getElem?_eq_getElem hi

lemma keptCalls_eq_calls (h : ∀ call ∈ x.calls c d, ¬ call.Failed c) :
    x.keptCalls c d = x.calls c d := by
  induction x generalizing d with
  | done | stop => rfl
  | asking _ ih => exact ih c h
  | lowering x _ ih =>
    rw [calls] at h ⊢
    rw [keptCalls]
    rcases hrun : x.runAt c d.trail with ⟨outcome, t⟩
    rw [hrun] at h
    cases outcome with
    | ok value => exact ih value h
    | error => rfl
  | noting _ _ ih | growing _ _ _ _ ih => exact ih h
  | adding _ _ _ ih => exact ih _ h
  | guarding _ _ body _ ihBody ihNext =>
    have hbody := ihBody fun call hcall => h call (mem_append_left _ hcall)
    have hself := h _ (mem_append_right _ mem_cons_self)
    have hnext := ihNext _ fun call hcall =>
      h call (mem_append_right _ (mem_cons_of_mem _ hcall))
    rw [keptCalls, calls, hbody, hnext]
    obtain ⟨value, hvalue⟩ := Call.returned_of_not_failed hself
    have hrun : (body.runAt .tolerant c d.openMember).1 = .ok value := hvalue
    rw [hrun, append_assoc]
    rfl

end Build

end JavaToGo
