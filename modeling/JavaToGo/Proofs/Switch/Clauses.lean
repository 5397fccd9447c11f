import JavaToGo.Proofs.Lowering.Result
import JavaToGo.Proofs.Switch.Control

/-!
# The clauses of a lowered switch
-/

namespace JavaToGo.Switching

open List Lower

/-- A label of the generated switch with the node that it comes from. -/
structure Label where
  node : Node
  value : Expr

/-- Statements of the generated switch with the node that they come from. -/
structure Piece where
  node : Node
  code : List Stmt

def Form.kind : Form → Kind
  | .groups => .switchBlockStatementGroup
  | .rules => .switchRule

/-- The labels of a group or of a rule. -/
def labelNodes (node : Node) : List Node :=
  node.childrenOfKind .switchLabel

/-- A group or a rule of the Java switch. -/
def armOf (node : Node) : Arm Node Node where
  values := (labelNodes node).flatMap Tree.Node.operands
  isDefault := (labelNodes node).any fun label => label.operands.isEmpty
  body := Lower.clauseNodes node

def Arm.map {V W α β : Type} (f : V → W) (g : α → β) (arm : Arm V α) : Arm W β where
  values := arm.values.map f
  isDefault := arm.isDefault
  body := arm.body.map g

def Clause.code (clause : Clause Label Piece) : SwitchClause :=
  .mk (clause.values.map Label.value) (clause.body.flatMap Piece.code) clause.fallsThrough
    clause.isDefault

/-- Whether a statement leaves the arm. -/
def Piece.jumps (piece : Piece) : Bool :=
  Lower.isJump piece.node.kind

/-- Whether a statement is a `break` without a label. -/
def Piece.isBreak (piece : Piece) : Bool :=
  Lower.isPlainBreak piece.node

variable {waiting next : Lower.Labels}

section

variable {c : Context} {go : Node → Lower (List Stmt)}

def lowerPiece (go : Node → Lower (List Stmt)) : Form → Node → Lower (List Stmt)
  | .groups => go
  | .rules => Lower.ruleBody go

/-- Every label and every piece is what its node is lowered to. -/
structure Made (go : Node → Lower (List Stmt)) (form : Form) (c : Context)
    (arm : Arm Label Piece) : Prop where
  values : ∀ label ∈ arm.values, (Lower.labelValue label.node).Makes c label.value
  body : ∀ piece ∈ arm.body, (lowerPiece go form piece.node).Makes c piece.code

variable {nodes : List Node}

lemma exists_labels_of_mapM (h : (nodes.mapM labelValue).runAt c t = (.ok values, t')) :
    ∃ labels : List Label, labels.map Label.node = nodes ∧ labels.map Label.value = values ∧
      ∀ label ∈ labels, (labelValue label.node).Makes c label.value := by
  induction nodes generalizing values t with
  | nil =>
    cases h
    exact ⟨[], rfl, rfl, fun _ hlabel => absurd hlabel not_mem_nil⟩
  | cons node nodes ih =>
    simp only [mapM_cons, runAt_bind_eq_ok] at h
    obtain ⟨value, t₁, hvalue, rest, t₂, hrest, ⟨⟩⟩ := h
    obtain ⟨labels, rfl, rfl, hlabels⟩ := ih hrest
    refine ⟨⟨node, value⟩ :: labels, rfl, rfl, ?_⟩
    intro label hlabel
    rcases mem_cons.1 hlabel with rfl | hlabel
    · exact ⟨t, t₁, hvalue⟩
    · exact hlabels label hlabel

lemma exists_labels_of_addLabel (h : (addLabel waiting label).runAt c t = (.ok next, t')) :
    ∃ labels : List Label, labels.map Label.node = label.operands ∧
      next.values = waiting.values ++ labels.map Label.value ∧
      next.isDefault = (waiting.isDefault || label.operands.isEmpty) ∧
      ∀ label ∈ labels, (labelValue label.node).Makes c label.value := by
  unfold addLabel at h
  split at h
  next hnil =>
    cases h
    exact ⟨[], by simp [hnil], by simp, by simp [hnil], fun _ hl => absurd hl not_mem_nil⟩
  next hne =>
    obtain ⟨values, t₁, hvalues, ⟨⟩⟩ := exists_of_bind h
    obtain ⟨labels, hnodes, rfl, hlabels⟩ := exists_labels_of_mapM hvalues
    refine ⟨labels, hnodes, rfl, ?_, hlabels⟩
    have hoperands : label.operands.isEmpty = false := isEmpty_eq_false_iff.2 hne
    rw [hoperands, Bool.or_false]

lemma exists_labels_of_foldlM (h : (nodes.foldlM addLabel waiting).runAt c t = (.ok next, t')) :
    ∃ labels : List Label, labels.map Label.node = nodes.flatMap Tree.Node.operands ∧
      next.values = waiting.values ++ labels.map Label.value ∧
      next.isDefault = (waiting.isDefault || nodes.any fun label => label.operands.isEmpty) ∧
      ∀ label ∈ labels, (labelValue label.node).Makes c label.value := by
  induction nodes generalizing waiting t with
  | nil =>
    cases h
    exact ⟨[], rfl, by simp, by simp, fun _ hl => absurd hl not_mem_nil⟩
  | cons node nodes ih =>
    obtain ⟨mid, t₁, hmid, h⟩ := exists_of_bind h
    obtain ⟨first, hfirst, hvalues, hdefault, hmade⟩ := exists_labels_of_addLabel hmid
    obtain ⟨rest, hrest, hvalues', hdefault', hmade'⟩ := ih h
    refine ⟨first ++ rest, by simp [hfirst, hrest], ?_, ?_, ?_⟩
    · rw [hvalues', hvalues, map_append, append_assoc]
    · rw [hdefault', hdefault, any_cons, Bool.or_assoc]
    · intro label hlabel
      rcases mem_append.1 hlabel with hlabel | hlabel
      · exact hmade label hlabel
      · exact hmade' label hlabel

lemma exists_pieces_of_lowerEach {body : List Stmt}
    (h : (lowerEach go nodes).runAt c t = (.ok body, t')) :
    ∃ pieces : List Piece, pieces.map Piece.node = nodes ∧ pieces.flatMap Piece.code = body ∧
      ∀ piece ∈ pieces, (go piece.node).Makes c piece.code := by
  induction nodes generalizing body t with
  | nil =>
    cases h
    exact ⟨[], rfl, rfl, fun _ hpiece => absurd hpiece not_mem_nil⟩
  | cons node nodes ih =>
    simp only [lowerEach, runAt_bind_eq_ok] at h
    obtain ⟨code, t₁, hcode, rest, t₂, hrest, ⟨⟩⟩ := h
    obtain ⟨pieces, rfl, rfl, hpieces⟩ := ih hrest
    refine ⟨⟨node, code⟩ :: pieces, rfl, rfl, ?_⟩
    intro piece hpiece
    rcases mem_cons.1 hpiece with rfl | hpiece
    · exact ⟨t, t₁, hcode⟩
    · exact hpieces piece hpiece

lemma kind_of_isPlainBreak (h : isPlainBreak node) : node.kind = .breakStatement := by
  simp only [isPlainBreak, Bool.and_eq_true, decide_eq_true_eq] at h
  exact h.1

/-- A `break` without a label becomes one statement. -/
def BreaksAlone (go : Node → Lower (List Stmt)) (c : Context) : Prop :=
  ∀ node code, Lower.isPlainBreak node → (go node).Makes c code → ∃ stmt, code = [stmt]

lemma exists_runAt_of_withScope {α : Type} {names : List String} {x : Lower α} {a : α}
    (h : (withScope names x).runAt c t = (.ok a, t')) :
    ∃ t₁ t₂, x.runAt c t₁ = (.ok a, t₂) := by
  have hfst := congrArg Prod.fst h
  let inner : Trail := { t with scopes := Scope.ofNames names :: t.scopes }
  exact ⟨inner, (x.runAt c inner).2, Prod.ext hfst rfl⟩

lemma flatMap_withoutBreak (hgo : BreaksAlone go c) {pieces : List Piece}
    (hmade : ∀ piece ∈ pieces, (go piece.node).Makes c piece.code) :
    (withoutBreak Piece.isBreak pieces).flatMap Piece.code
      = if (pieces.map Piece.node).getLast?.any isPlainBreak
        then (pieces.flatMap Piece.code).dropLast else pieces.flatMap Piece.code := by
  rcases eq_nil_or_concat pieces with rfl | ⟨init, last, rfl⟩
  · rfl
  · rw [concat_eq_append] at hmade ⊢
    by_cases hbreak : isPlainBreak last.node
    · obtain ⟨stmt, hcode⟩ := hgo last.node last.code hbreak (hmade last (by simp))
      simp [withoutBreak, Piece.isBreak, hbreak, hcode]
    · simp [withoutBreak, Piece.isBreak, hbreak]

lemma exists_pieces_of_groupClause (hgo : BreaksAlone go c) {labels : Lower.Labels}
    {isLast : Bool} {statements : List Node} {clause : SwitchClause}
    (h : (groupClause go labels isLast statements).runAt c t = (.ok clause, t')) :
    ∃ pieces : List Piece, pieces.map Piece.node = statements ∧
      (∀ piece ∈ pieces, (go piece.node).Makes c piece.code) ∧
      clause = labels.clause ((withoutBreak Piece.isBreak pieces).flatMap Piece.code)
        (!pieces.getLast?.any Piece.jumps && !isLast) := by
  obtain ⟨body, t₁, hbody, h⟩ := exists_of_bind h
  obtain ⟨t₂, t₃, hbody⟩ := exists_runAt_of_withScope hbody
  obtain ⟨pieces, rfl, rfl, hmade⟩ := exists_pieces_of_lowerEach hbody
  refine ⟨pieces, rfl, hmade, ?_⟩
  have hlast : (pieces.map Piece.node).getLast?.any (fun n => isJump n.kind)
      = pieces.getLast?.any Piece.jumps := by
    rw [getLast?_map, Option.any_map]
    rfl
  cases h
  rw [flatMap_withoutBreak hgo hmade, ← hlast]

lemma exists_piece_of_ruleClause (h : (ruleClause go labels node).runAt c t = (.ok clause, t')) :
    ∃ piece : Piece, [piece.node] = clauseNodes node ∧ (ruleBody go piece.node).Makes c piece.code ∧
      clause = labels.clause piece.code false := by
  unfold ruleClause at h
  split at h
  next body hbody =>
    obtain ⟨code, t₁, hcode, ⟨⟩⟩ := exists_of_bind h
    exact ⟨⟨body, code⟩, hbody.symm, ⟨_, _, hcode⟩, rfl⟩
  next => cases h

end

section

variable {go : Node → Lower (List Stmt)} {form : Form}

lemma isEmpty_of_map_eq {α β γ : Type} {f : α → γ} {g : β → γ} {as : List α} {bs : List β}
    (h : as.map f = bs.map g) : as.isEmpty = bs.isEmpty := by
  rw [← isEmpty_map, h, isEmpty_map]

lemma map_code_clausesOf_cons (hlabels : (labels ++ own).map Label.value = next.values)
    (hdefault : next.isDefault = (waitingDefault || isDefault))
    (hon : ¬ handsOn form ⟨own, isDefault, body⟩ arms) :
    (clausesOf form Piece.jumps Piece.isBreak labels waitingDefault
        (⟨own, isDefault, body⟩ :: arms)).map Clause.code
      = next.clause
          ((if form = .groups then withoutBreak Piece.isBreak body else body).flatMap Piece.code)
          (form = .groups && !body.getLast?.any Piece.jumps && !arms.isEmpty)
        :: (clausesOf form Piece.jumps Piece.isBreak [] false arms).map Clause.code := by
  rw [clausesOf, if_neg hon]
  simp only [clauseOf, Lower.Labels.clause, ← hlabels, hdefault]
  split <;> rfl

lemma exists_arms_of_switchClauses (hgo : BreaksAlone go c)
    (hform : ∀ group ∈ groups, group.kind = form.kind) {labels : List Label}
    (hlabels : labels.map Label.value = waiting.values)
    (h : (switchClauses go waiting groups).runAt c t = (.ok emitted, t')) :
    ∃ arms : List (Arm Label Piece), arms.map (Arm.map Label.node Piece.node) = groups.map armOf ∧
      (∀ arm ∈ arms, Made go form c arm) ∧
      emitted = (clausesOf form Piece.jumps Piece.isBreak labels waiting.isDefault arms).map
        Clause.code := by
  induction groups generalizing waiting labels emitted t with
  | nil =>
    cases h
    exact ⟨[], rfl, fun _ harm => absurd harm not_mem_nil, rfl⟩
  | cons group groups ih =>
    have hkind := hform group mem_cons_self
    have hrest := fun g hg => hform g (mem_cons_of_mem _ hg)
    obtain ⟨next, t₁, hnext, h⟩ := exists_of_bind h
    obtain ⟨own, hown, hvalues, hdefault, hmade⟩ := exists_labels_of_foldlM hnext
    change next.isDefault = (waiting.isDefault || (armOf group).isDefault) at hdefault
    have hnextLabels : (labels ++ own).map Label.value = next.values := by
      rw [map_append, hlabels, hvalues]
    have hstart : ([] : List Label).map Label.value = ({} : Lower.Labels).values := rfl
    -- The arm of the group, once its statements have their code.
    have harm : ∀ body : List Piece, body.map Piece.node = clauseNodes group →
        Arm.map Label.node Piece.node ⟨own, (armOf group).isDefault, body⟩ = armOf group := by
      intro body hbody
      rw [Arm.map, hown, hbody]
      rfl
    cases form with
    | rules =>
      rw [hkind] at h
      obtain ⟨clause, t₂, hclause, h⟩ := exists_of_bind h
      obtain ⟨rest, t₃, hrestRun, ⟨⟩⟩ := exists_of_bind h
      obtain ⟨piece, hpiece, hcode, rfl⟩ := exists_piece_of_ruleClause hclause
      obtain ⟨arms, harms, hall, rfl⟩ := ih hrest hstart hrestRun
      refine ⟨⟨own, (armOf group).isDefault, [piece]⟩ :: arms, ?_, ?_, ?_⟩
      · rw [map_cons, harm [piece] hpiece, harms, map_cons]
      · refine forall_mem_cons.2 ⟨⟨hmade, ?_⟩, hall⟩
        exact forall_mem_singleton.2 hcode
      · rw [map_code_clausesOf_cons hnextLabels hdefault (by simp [handsOn])]
        simp
    | groups =>
      rw [hkind] at h
      by_cases hon : (clauseNodes group).isEmpty && !groups.isEmpty
      · simp only [hon] at h
        obtain ⟨arms, harms, hall, rfl⟩ := ih hrest hnextLabels h
        rw [Bool.and_eq_true, List.isEmpty_iff, ← isEmpty_of_map_eq harms] at hon
        refine ⟨⟨own, (armOf group).isDefault, []⟩ :: arms, ?_, ?_, ?_⟩
        · rw [map_cons, harm [] hon.1.symm, harms, map_cons]
        · refine forall_mem_cons.2 ⟨⟨hmade, ?_⟩, hall⟩
          exact fun _ hpiece => absurd hpiece not_mem_nil
        · rw [clausesOf, if_pos (by simpa [handsOn] using hon.2), hdefault]
      · simp only [hon] at h
        obtain ⟨clause, t₂, hclause, h⟩ := exists_of_bind h
        obtain ⟨rest, t₃, hrestRun, ⟨⟩⟩ := exists_of_bind h
        obtain ⟨pieces, hpieces, hcode, rfl⟩ := exists_pieces_of_groupClause hgo hclause
        obtain ⟨arms, harms, hall, rfl⟩ := ih hrest hstart hrestRun
        rw [← hpieces, ← isEmpty_of_map_eq harms] at hon
        refine ⟨⟨own, (armOf group).isDefault, pieces⟩ :: arms, ?_, ?_, ?_⟩
        · rw [map_cons, harm pieces hpieces, harms, map_cons]
        · exact forall_mem_cons.2 ⟨⟨hmade, hcode⟩, hall⟩
        · rw [map_code_clausesOf_cons hnextLabels hdefault (by simpa [handsOn] using hon),
            isEmpty_of_map_eq harms]
          simp

end

lemma breaksAlone_statementWithin (height : Nat) : BreaksAlone (statementWithin height) c := by
  intro node code hbreak hmade
  obtain ⟨t, t', hrun⟩ := hmade
  cases height with
  | zero => cases hrun
  | succ =>
    rw [statementWithin, statementStep, kind_of_isPlainBreak hbreak] at hrun
    cases hrun
    exact ⟨_, rfl⟩

end JavaToGo.Switching
