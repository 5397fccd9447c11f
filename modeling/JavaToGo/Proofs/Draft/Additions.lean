import JavaToGo.Proofs.Draft.Still

/-!
# What scripts add

A script adds declarations behind those that stand already, and makes some of
those grow: the ones that it was given or has added itself.
-/

namespace JavaToGo

open List Draft

lemma countIn_growIn (h g : Group) (place : Place) (f : Decl → Decl) (file : SourceFile)
    (staged : List SourceFile) :
    countIn h (growIn g place f file staged).1 (growIn g place f file staged).2
      = countIn h file staged := by
  rw [← length_group_stacked, ← length_group_stacked, stacked_growIn]
  by_cases hg : h = g
  · subst hg
    simp
  · rw [Code.SourceFile.group_modifyGroup_of_ne _ _ hg]

namespace Draft

section

variable (d : Draft) (g : Group)

@[simp] lemma standing_withTrail (t : Trail) : (d.withTrail t).standing g = d.standing g := by
  simp [standing, withTrail, group_stacked]

@[simp] lemma standing_recordFailure (location : String) (node : Node) (failure : Failure) :
    (d.recordFailure location node failure).standing g = d.standing g := by
  simp [standing, recordFailure, group_stacked]

lemma standing_add_eq_append (decls : List Decl) (h : Group) :
    (d.add g decls).standing h = d.standing h ++ if h = g then decls else [] := by
  rw [standing_add]
  by_cases hg : h = g
  · subst hg
    simp
  · simp [hg]

lemma standing_grow (place : Place) (f : Decl → Decl) (h : Group) :
    (d.grow g place f).standing h
      = if h = g then (d.standing g).modify place f else d.standing h := by
  unfold standing grow
  rw [stacked_growIn]
  by_cases hg : h = g
  · subst hg
    simp
  · rw [Code.SourceFile.group_modifyGroup_of_ne _ _ hg, if_neg hg]

end

def Counts (n : Group → Place) (file : SourceFile) (staged : List SourceFile) : Prop :=
  ∀ g, countIn g file staged = n g

lemma counts_indifferent (n : Group → Place) : Indifferent (Counts n) where
  imports imports h g := by
    rw [← h g, ← length_group_stacked, ← length_group_stacked]
    simp [group_stacked]
  failed m h g := by
    rw [← h g, ← length_group_stacked, ← length_group_stacked]
    simp [group_stacked]

lemma standing_discard {d : Draft} {n : Group → Place} (h : d.Over (Counts n) 1) (g : Group) :
    d.discard.standing g = (d.standing g).take (n g) := by
  obtain ⟨upper, base, hlength, hstaged, hbase⟩ := h
  obtain ⟨top, rfl⟩ := length_eq_one_iff.1 hlength
  have hcount : ((stacked d.file base).group g).length = n g :=
    (length_group_stacked d.file g base).trans (hbase g)
  simp [standing, discard, hstaged, stacked, ← hcount]

end Draft

namespace Build

section

variable {α : Type}

lemma runAt_over {P : SourceFile → List SourceFile → Prop} (hP : Indifferent P)
    (hgrow : ∀ {file base} g place f, P file base →
      P (growIn g place f file base).1 (growIn g place f file base).2) (x : Build α) {d : Draft}
    (hd : d.Over P (depth + 1)) : (x.runAt .tolerant c d).2.Over P (depth + 1) := by
  induction x generalizing d depth with
  | done | stop => exact hd
  | asking _ ih => exact ih c hd
  | lowering x _ ih =>
    rw [runAt]
    rcases x.runAt c d.trail with ⟨_ | value, t⟩
    · exact hd.withTrail hP t
    · exact ih value (hd.withTrail hP t)
  | noting _ _ ih => exact ih hd
  | adding group decls _ ih => exact ih _ (hd.add group decls)
  | growing group place grow _ ih =>
    exact ih (hd.grow fun _ hbase => hgrow group place grow hbase)
  | guarding location node body _ ihBody ihNext =>
    have hbody := ihBody hd.openMember
    refine ihNext _ ?_
    cases (body.runAt .tolerant c d.openMember).1 with
    | ok => exact hbody.merge
    | error failure => exact hbody.recordFailure hP location node failure

variable {x : Build α} {d : Draft}

lemma standing_close_of_ok (h : (x.runAt .tolerant c d.openMember).1 = .ok a) (g : Group) :
    ((x.runAt .tolerant c d.openMember).2.closeMember location node
        (x.runAt .tolerant c d.openMember).1).2.standing g
      = (x.runAt .tolerant c d.openMember).2.standing g := by
  rw [h]
  exact standing_merge _ g

lemma standing_close_of_error {failure : Failure}
    (h : (x.runAt .tolerant c d.openMember).1 = .error failure) (g : Group) :
    ((x.runAt .tolerant c d.openMember).2.closeMember location node
        (x.runAt .tolerant c d.openMember).1).2.standing g
      = ((x.runAt .tolerant c d.openMember).2.standing g).take (d.count g) := by
  have hover : d.openMember.Over (Counts d.count) 1 :=
    Over.openMember ⟨[], d.staged, rfl, rfl, fun _ => rfl⟩
  have hrun := runAt_over (c := c) (counts_indifferent d.count)
    (fun _ _ _ hbase k => (countIn_growIn k _ _ _ _ _).trans (hbase k)) x hover
  rw [h, closeMember, standing_recordFailure]
  exact standing_discard hrun g

end

section

/-- The places of declarations that a script may make grow. -/
abbrev Held := Group → Place → Prop

def Held.adding (held : Held) (group : Group) (decls : List Decl) (place : Place) : Held :=
  fun g p => held g p ∨ (g = group ∧ p = place ∧ decls ≠ [])

def Held.none : Held :=
  fun _ _ => False

variable (c : Context)

/-- The script makes only held places grow. -/
def GrowsHeld {α : Type} : Build α → Held → Prop
  | .done _, _ => True
  | .stop _, _ => True
  | .asking next, held => (next c).GrowsHeld held
  | .lowering x next, held =>
    ∀ value t t', x.runAt c t = (.ok value, t') → (next value).GrowsHeld held
  | .noting _ next, held => next.GrowsHeld held
  | .adding group decls next, held =>
    ∀ place, (next place).GrowsHeld (held.adding group decls place)
  | .growing group place _ next, held => held group place ∧ next.GrowsHeld held
  | .guarding _ _ body next, held =>
    body.GrowsHeld held ∧ ∀ result, (next result).GrowsHeld held

variable {c} {α β : Type} {held held' : Held}

lemma Held.adding_mono (h : ∀ g p, held g p → held' g p) (group : Group) (decls : List Decl)
    (place : Place) (g : Group) (p : Place) (hp : held.adding group decls place g p) :
    held'.adding group decls place g p :=
  hp.imp_left (h g p)

lemma hereditary_growsHeld : Hereditary c fun x : Build β => ∀ held, x.GrowsHeld c held where
  stop _ _ := trivial
  asking h held := h held
  lowering h held value t t' hrun := h value t t' hrun held
  noting h held := h held
  adding h _ place := h place _

lemma Still.growsHeld {x : Build α} (h : x.Still c fun _ => True) (held : Held) :
    x.GrowsHeld c held :=
  h.hereditary (R := fun x : Build α => ∀ held, x.GrowsHeld c held) hereditary_growsHeld
    (fun _ _ _ => trivial) held

lemma GrowsHeld.member {body : Build α} (h : body.GrowsHeld c held) :
    (Build.member location node body).GrowsHeld c held :=
  ⟨h, fun _ => trivial⟩

lemma Held.mem_adding (held : Held) (group : Group) (decl : Decl) (place : Place) :
    held.adding group [decl] place group place :=
  .inr ⟨rfl, rfl, cons_ne_nil _ _⟩

end

variable {α : Type}

lemma GrowsHeld.getElem?_standing {x : Build α} (hx : x.GrowsHeld c held) {d : Draft}
    (hfree : ¬ held g p) (hdecl : (d.standing g)[p]? = some decl) :
    ((x.runAt .tolerant c d).2.standing g)[p]? = some decl := by
  induction x generalizing d held with
  | done | stop => exact hdecl
  | asking _ ih => exact ih c hx hfree hdecl
  | lowering x _ ih =>
    rw [runAt]
    rcases hrun : x.runAt c d.trail with ⟨outcome, t⟩
    have htrail : ((d.withTrail t).standing g)[p]? = some decl := by
      rwa [standing_withTrail]
    cases outcome with
    | ok value => exact ih value (hx value _ _ hrun) hfree htrail
    | error => exact htrail
  | noting _ _ ih => exact ih hx hfree hdecl
  | adding _ _ next ih =>
    have hlt : p < (d.standing g).length := (List.getElem?_eq_some_iff.1 hdecl).1
    refine ih _ (hx _) ?_ ?_
    · rintro (hp | ⟨rfl, rfl, -⟩)
      · exact hfree hp
      · rw [length_standing] at hlt
        exact Nat.lt_irrefl _ hlt
    · rw [standing_add]
      split
      · next hg =>
          subst hg
          rwa [getElem?_append_left hlt]
      · exact hdecl
  | growing _ place _ next ih =>
    refine ih hx.2 hfree ?_
    rw [standing_grow]
    split
    · next hg =>
        subst hg
        have hne : place ≠ p := by
          rintro rfl
          exact hfree hx.1
        simp [hne, hdecl]
    · exact hdecl
  | guarding _ _ body _ ihBody ihNext =>
    have hlt : p < d.count g := by
      rw [← length_standing]
      exact (List.getElem?_eq_some_iff.1 hdecl).1
    have hopen : (d.openMember.standing g)[p]? = some decl := by
      rwa [standing_openMember]
    have hbody := ihBody hx.1 hfree hopen
    refine ihNext _ (hx.2 _) hfree ?_
    cases hrun : (body.runAt .tolerant c d.openMember).1 with
    | ok =>
      rw [← hrun, standing_close_of_ok hrun]
      exact hbody
    | error =>
      rw [← hrun, standing_close_of_error hrun, getElem?_take_of_lt hlt]
      exact hbody

lemma GrowsHeld.getElem?_added {x : Build α} (hx : x.GrowsHeld c Held.none) {d : Draft}
    (hrun : x.runAt .tolerant c (d.add g [decl]) = (outcome, d')) :
    (d'.standing g)[d.count g]? = some decl := by
  obtain rfl := congrArg Prod.snd hrun
  refine hx.getElem?_standing id ?_
  rw [standing_add_eq_append, if_pos rfl, ← length_standing, getElem?_concat_length]

lemma GrowsHeld.standing_isPrefix {x : Build α} (hx : x.GrowsHeld c held)
    (hfree : ∀ p, ¬ held g p) (d : Draft) :
    d.standing g <+: (x.runAt .tolerant c d).2.standing g := by
  refine prefix_iff_getElem?.2 fun i hi => ?_
  exact hx.getElem?_standing (hfree i) (getElem?_eq_getElem hi)

end Build

end JavaToGo
