import JavaToGo.Proofs.Declaration.Growth
import JavaToGo.Proofs.Draft.Additions
import JavaToGo.Proofs.Draft.Run
import JavaToGo.Proofs.Lowering.Bindings
import JavaToGo.Proofs.Lowering.Members

/-!
# Orderly scripts

What the conversion of declarations does is said once, step by step, and what a
run keeps follows from it.  An orderly script adds every mark that it has lowered,
makes only held declarations grow, and never fails for want of a record.
-/

namespace JavaToGo

open Code (Decl Stmt marksIn)
open List Draft Build

namespace Lower

variable {allowed : String → Prop}

lemma binds_fieldVariable {f : DeclaredField}
    (hvalue : ∀ value, f.value = some value → value.PatternsIn allowed) :
    Binds allowed False (fieldVariable f) fun _ => False := by
  unfold fieldVariable
  cases hnode : f.value with
  | none => exact .pure id
  | some node =>
    have hlowered := (binds_expression (hvalue node hnode)).expecting (some f.goType)
    refine (hlowered.withReader _).step fun value => ?_
    split
    · rename_i hcomments
      exact .pure fun h => Code.not_hasEffect_of_all hcomments (h.resolve_left id)
    · exact .throw _

lemma binds_constantValue (f : DeclaredField) {argument : Node}
    (hargument : argument.PatternsIn allowed) :
    Binds allowed False (Build.constantValue f argument) fun _ => False := by
  refine ((binds_expression hargument).expecting _).step fun value => ?_
  split
  · rename_i hempty
    have hnone : value.before.all Stmt.isComment = true := by rw [List.isEmpty_iff.1 hempty]; rfl
    exact .pure fun h => Code.not_hasEffect_of_all hnone (h.resolve_left id)
  · exact .throw _

lemma binds_constantValues (harguments : ∀ a ∈ arguments, a.2.PatternsIn allowed) :
    Binds allowed False (Build.constantValues arguments) fun _ => False := by
  refine Binds.withReader ?_ _
  induction arguments with
  | nil =>
    exact .pure id
  | cons a arguments ih =>
    rw [mapM_cons]
    refine (binds_constantValue a.1 (harguments a mem_cons_self)).quietly fun value => ?_
    refine (ih fun b hb => harguments b (mem_cons_of_mem _ hb)).quietly fun values => ?_
    exact .pure id

end Lower

/-- What is lowered outside functions. -/
inductive OuterValue where
  | field (f : DeclaredField)
  | constant (arguments : List (DeclaredField × Node))

namespace OuterValue

def piece : OuterValue → (β : Type) × Lower β
  | field f => ⟨Code.ModuleVar, Lower.fieldVariable f⟩
  | constant arguments => ⟨List Expr, Build.constantValues arguments⟩

def nodes : OuterValue → List Node
  | field f => f.value.toList
  | constant arguments => arguments.map Prod.snd

def marks : (value : OuterValue) → value.piece.1 → Nat
  | field _ => Code.ModuleVar.marks
  | constant _ => fun _ => 0

lemma kept (single : Prop) (value : OuterValue) :
    Lower.Kept single 0 value.piece.2 value.marks := by
  cases value with
  | field f => exact Lower.kept_fieldVariable f
  | constant arguments => exact Lower.kept_constantValues arguments

/-- A type pattern in the value binds the name. -/
def BindsName (value : OuterValue) (name : String) : Prop :=
  ∃ n ∈ value.nodes, ∃ pattern ∈ n.walk, pattern.kind = .instanceOf
    ∧ ∃ bound, pattern.fieldChild? "name" = some bound ∧ bound.text = name

lemma binds (value : OuterValue) :
    Lower.Binds value.BindsName False value.piece.2 fun _ => False := by
  have hnodes : ∀ n ∈ value.nodes, n.PatternsIn value.BindsName :=
    fun n hn pattern hpattern hkind bound hbound =>
      ⟨n, hn, pattern, hpattern, hkind, bound, hbound, rfl⟩
  cases value with
  | field => exact Lower.binds_fieldVariable fun n hn => hnodes n (Option.mem_toList.2 hn)
  | constant =>
    exact Lower.binds_constantValues fun a ha => hnodes a.2 (mem_map_of_mem ha)

end OuterValue

/-- On what terms declarations are converted: whether records may be lost, whether every try has
one final block at most, whether parameters are named apart from receivers, and what is known. -/
structure Terms where
  lost : Prop
  single : Prop
  apart : Prop
  context : Context

def Terms.free (c : Context) : Terms :=
  ⟨True, False, False, c⟩

/-- No parameter has the name of the receiver. -/
def Code.Function.Apart (f : Code.Function) : Prop :=
  ∀ r, f.receiver = some r → ∀ q ∈ f.params, q.name ≠ r.name

variable {f : Code.Function}

lemma Code.Function.Apart.of_none (h : f.receiver = none) : f.Apart :=
  fun r hr => by rw [h] at hr; cases hr

namespace Build

variable {α β : Type} {T : Terms} {held : Held} {owed : Nat}
variable {node : Node}

variable (T) in
/-- What the conversion of declarations lowers: questions, outer values and functions, each with
the marks of its result. -/
inductive Piece : {β : Type} → Lower β → (β → Nat) → Prop
  | asks {β : Type} {x : Lower β} (hx : x.Asks fun _ => True) : Piece x fun _ => 0
  | value (v : OuterValue) : Piece v.piece.2 v.marks
  | function {β : Type} {x : Lower β} {marks : β → Nat}
      (hx : Lower.Written T.lost T.single T.context 0 x marks) : Piece x marks

lemma Piece.written {marks : β → Nat} (h : Piece T x marks) :
    (T.lost ∨ x.InformedAt T.context) ∧ (T.single → Lower.Tallies 0 x marks) := by
  cases h with
  | asks hx => exact ⟨.inr (hx.informedAt _), fun _ => hx.quiet⟩
  | value v => exact ⟨.inr ((v.kept T.single).composed.informedAt _), (v.kept T.single).tallies⟩
  | function hx => exact ⟨hx.informedAt, hx.tallies⟩

variable (T) in
/-- What a script does, step by step.  `held` are the places that it may make grow, `owed` are the
marks that it has lowered and has not added yet, and `total` tells those that it leaves to what
follows. -/
def Orderly {α : Type} : Build α → Held → Nat → (α → Nat) → Prop
  | .done value, _, owed, total => total value = owed
  | .stop failure, _, _, _ => ∀ f, failure = .fault f → T.lost ∨ f.IsOther
  | .asking next, held, owed, total => (next T.context).Orderly held owed total
  | .lowering x next, held, owed, total =>
    ∃ marks, Piece T x marks ∧ ∀ value t t', x.runAt T.context t = (.ok value, t') →
      (next value).Orderly held (owed + marks value) total
  | .noting event next, held, owed, total =>
    event.isAmbiguity = false ∧ next.Orderly held owed total
  | .adding group decls next, held, owed, total =>
    ∃ rest, owed = rest + Draft.owing group decls
      ∧ ((group = .interfaces → ∃ i, decls.head? = some (.interface i))
        ∧ (T.apart → ∀ f, .function f ∈ decls → f.Apart))
      ∧ ∀ place, (next place).Orderly (held.adding group decls place) rest total
  | .growing group place grow next, held, owed, total =>
    held group place ∧ (group = .types ∨ group = .interfaces) ∧ KeepsInterfaces grow
      ∧ next.Orderly held owed total
  | .guarding _ node body next, held, owed, total =>
    (body.GrowsLast T.context ∨ body.Orderly Held.none 0 (fun _ => 0)
        ∨ Lists T.context (held .interfaces) node ⟨_, body⟩)
      ∧ body.Orderly held 0 (fun _ => 0)
      ∧ ∀ result, (next result).Orderly held owed total

variable (T held) in
/-- The script is orderly and leaves no mark to what follows. -/
abbrev Conforms (x : Build α) : Prop :=
  x.Orderly T held 0 fun _ => 0

variable (T held) in
/-- What is handed to a boundary grows last, or only what it adds, or is a listed method. -/
def Handed (node : Node) (body : Build α) : Prop :=
  (body.GrowsLast T.context ∨ body.Conforms T Held.none
      ∨ Lists T.context (held .interfaces) node ⟨_, body⟩)
    ∧ body.Conforms T held

lemma Lists.mono {body : (β : Type) × Build β} (h : Lists c known node body)
    (hknown : ∀ p, known p → known' p) : Lists c known' node body := by
  obtain ⟨go, shape, places, record, hbody, hkind, hrecord, hstatic, hplace⟩ := h
  exact ⟨go, shape, places, record, hbody, hkind, hrecord, hstatic, hknown _ hplace⟩

namespace Orderly

variable {total : β → Nat} {mid : α → Nat} {x : Build α}

lemma mono (hx : x.Orderly T held owed mid) (h : ∀ g p, held g p → held' g p) :
    x.Orderly T held' owed mid := by
  induction x generalizing held held' owed with
  | done | stop => exact hx
  | asking _ ih => exact ih _ hx h
  | lowering _ _ ih =>
    obtain ⟨marks, hpiece, hnext⟩ := hx
    exact ⟨marks, hpiece, fun value t t' hrun => ih value (hnext value t t' hrun) h⟩
  | noting _ _ ih => exact ⟨hx.1, ih hx.2 h⟩
  | adding group decls _ ih =>
    obtain ⟨rest, howed, hdecls, hnext⟩ := hx
    exact ⟨rest, howed, hdecls, fun place =>
      ih place (hnext place) (Held.adding_mono h group decls place)⟩
  | growing group place _ _ ih =>
    exact ⟨h group place hx.1, hx.2.1, hx.2.2.1, ih hx.2.2.2 h⟩
  | guarding _ _ _ _ ihBody ihNext =>
    refine ⟨hx.1.imp_right (Or.imp_right fun hlists => hlists.mono (h .interfaces)), ?_, ?_⟩
    · exact ihBody hx.2.1 h
    · exact fun result => ihNext result (hx.2.2 result) h

lemma bind {f : α → Build β} (hx : x.Orderly T held owed mid)
    (hf : ∀ a, (f a).Orderly T held (mid a) total) : (x >>= f).Orderly T held owed total := by
  induction x generalizing held owed with
  | done value =>
    obtain rfl := hx
    exact hf value
  | stop => exact hx
  | asking _ ih => exact ih _ hx hf
  | lowering _ _ ih =>
    obtain ⟨marks, hpiece, hnext⟩ := hx
    exact ⟨marks, hpiece, fun value t t' hrun => ih value (hnext value t t' hrun) hf⟩
  | noting _ _ ih => exact ⟨hx.1, ih hx.2 hf⟩
  | adding _ _ _ ih =>
    obtain ⟨rest, howed, hdecls, hnext⟩ := hx
    exact ⟨rest, howed, hdecls, fun place =>
      ih place (hnext place) fun a => (hf a).mono fun _ _ hp => .inl hp⟩
  | growing _ _ _ _ ih => exact ⟨hx.1, hx.2.1, hx.2.2.1, ih hx.2.2.2 hf⟩
  | guarding _ _ _ _ _ ih =>
    exact ⟨hx.1, hx.2.1, fun result => ih result (hx.2.2 result) hf⟩

lemma after {f : α → Build β} (hx : x.Orderly T held owed fun _ => owed)
    (hf : ∀ a, (f a).Orderly T held owed total) : (x >>= f).Orderly T held owed total :=
  hx.bind hf

lemma refuse (r : Refusal) : (stop (.refusal r) : Build α).Orderly T held owed mid := by
  intro f h
  cases h

lemma context {f : Context → Build β} (h : (f T.context).Orderly T held owed total) :
    (context >>= f).Orderly T held owed total :=
  h

lemma lookup {x : Outcome α} {f : α → Build β} (hx : T.lost ∨ Faults Fault.IsOther x)
    (hf : ∀ a, x = .ok a → (f a).Orderly T held owed total) :
    ((liftM x : Build α) >>= f).Orderly T held owed total := by
  cases x with
  | ok a => exact hf a rfl
  | error => exact fun f h => hx.imp_right fun hx => hx f (congrArg Except.error h)

lemma contextThen {g : Context → Build α} {f : α → Build β}
    (h : (g T.context >>= f).Orderly T held owed total) :
    ((Build.context >>= g) >>= f).Orderly T held owed total :=
  h

lemma lookupThen {γ : Type} {x : Outcome γ} {g : γ → Build α} {f : α → Build β}
    (hx : T.lost ∨ Faults Fault.IsOther x)
    (hf : ∀ a, x = .ok a → (g a >>= f).Orderly T held owed total) :
    (((liftM x : Build γ) >>= g) >>= f).Orderly T held owed total := by
  cases x with
  | ok a => exact hf a rfl
  | error => exact fun f h => hx.imp_right fun hx => hx f (congrArg Except.error h)

lemma lift {x : Outcome α} {f : α → Build β} (hx : Faults Fault.IsOther x)
    (hf : ∀ a, x = .ok a → (f a).Orderly T held owed total) :
    ((liftM x : Build α) >>= f).Orderly T held owed total :=
  lookup (.inr hx) hf

lemma lower {x : Lower α} {f : α → Build β} (hx : Piece T x mid)
    (hf : ∀ a, (f a).Orderly T held (owed + mid a) total) :
    (lower x >>= f).Orderly T held owed total :=
  ⟨mid, hx, fun value _ _ _ => hf value⟩

lemma note {event : Event} (h : event.isAmbiguity = false) :
    (note event).Orderly T held owed fun _ => owed :=
  ⟨h, rfl⟩

lemma addType {f : Place → Build β} (htype : ∀ g, type ≠ .function g)
    (h : ∀ place, (f place).Orderly T (held.adding .types [type] place) owed total) :
    (addType type >>= f).Orderly T held owed total :=
  ⟨owed, rfl, ⟨nofun, fun _ g hg => absurd (mem_singleton.1 hg).symm (htype g)⟩, h⟩

lemma addInterface {interface : Code.Interface} {f : Place → Build β}
    (h : ∀ place, (f place).Orderly T (held.adding .interfaces [.interface interface] place) owed
      total) :
    (addInterface interface >>= f).Orderly T held owed total :=
  ⟨owed, rfl, ⟨fun _ => ⟨interface, rfl⟩, by simp⟩, h⟩

lemma addFields (hplace : held .types place) (fields : List Code.Field) :
    (addFields place fields).Orderly T held owed fun _ => owed :=
  ⟨hplace, .inl rfl, keepsInterfaces_withFields fields, rfl⟩

lemma addSpec (hplace : held .interfaces place) (spec : Code.MethodSpec) :
    (addSpec place spec).Orderly T held owed fun _ => owed :=
  ⟨hplace, .inr rfl, keepsInterfaces_withSpec spec, rfl⟩

lemma addFunction (hapart : T.apart → f.Apart) :
    (addFunction f).Orderly T held (owed + f.marks) fun _ => owed := by
  have howing : owing (if f.receiver.isSome then .methods else .functions) [.function f]
      = f.marks := by
    split <;> simp [owing, marksIn, Decl.marks, Code.Function.marks]
  refine ⟨owed, by rw [howing], ⟨fun h => ?_, fun h g hg => ?_⟩, fun _ => rfl⟩
  · split at h <;> cases h
  · obtain rfl := Decl.function.inj (mem_singleton.1 hg)
    exact hapart h

lemma addPlainFunction (h : f.marks = 0) (hapart : T.apart → f.Apart) :
    (Build.addFunction f).Orderly T held owed fun _ => owed := by
  have hadd : (Build.addFunction f).Orderly T held (owed + f.marks) fun _ => owed :=
    addFunction hapart
  rwa [h] at hadd

lemma addVar (v : Code.ModuleVar) :
    (addVars [v]).Orderly T held (owed + v.marks) fun _ => owed := by
  refine ⟨owed, ?_, ⟨nofun, by simp⟩, fun _ => rfl⟩
  simp [owing, marksIn, Decl.marks, Code.ModuleVar.marks]

lemma addPlainVars (h : ∀ v ∈ vars, v.comments = []) :
    (addVars vars).Orderly T held owed fun _ => owed := by
  have hmarks : marksIn (vars.map Decl.var) = 0 := by
    induction vars with
    | nil => rfl
    | cons v vars ih =>
      obtain ⟨hv, hrest⟩ := forall_mem_cons.1 h
      simpa [marksIn, Decl.marks, hv] using ih hrest
  exact ⟨owed, by simp [owing, hmarks], ⟨by rintro ⟨⟩, by simp⟩, fun _ => rfl⟩

lemma lowerFunction {x : Lower Code.Function} (hx : Piece T x Code.Function.marks)
    (hapart : ∀ t f t', x.runAt T.context t = (.ok f, t') → T.apart → f.Apart) :
    (Build.lower x >>= Build.addFunction).Orderly T held owed fun _ => owed :=
  ⟨_, hx, fun f t t' hrun => addFunction (hapart t f t' hrun)⟩

lemma member {f : Except Diagnostic α → Build β} (hbody : Handed T held node body)
    (h : ∀ result, (f result).Orderly T held owed total) :
    (member location node body >>= f).Orderly T held owed total :=
  ⟨hbody.1, hbody.2, h⟩

end Orderly

lemma Handed.confined {body : Build α} (h : body.Conforms T Held.none) : Handed T held node body :=
  ⟨.inr (.inl h), h.mono fun _ _ => False.elim⟩

variable {total : α → Nat} {x : Build α}

lemma Orderly.growsHeld (h : x.Orderly T held owed total) : x.GrowsHeld T.context held := by
  induction x generalizing held owed with
  | done | stop => trivial
  | asking _ ih => exact ih _ h
  | lowering _ _ ih =>
    obtain ⟨marks, -, hnext⟩ := h
    exact fun value t t' hrun => ih value (hnext value t t' hrun)
  | noting _ _ ih => exact ih h.2
  | adding _ _ _ ih =>
    obtain ⟨rest, -, -, hnext⟩ := h
    exact fun place => ih place (hnext place)
  | growing _ _ _ _ ih => exact ⟨h.1, ih h.2.2.2⟩
  | guarding _ _ _ _ ihBody ihNext =>
    exact ⟨ihBody h.2.1, fun result => ihNext result (h.2.2 result)⟩

variable {d : Draft}

section

variable {P : Code.SourceFile → List Code.SourceFile → Prop} (hP : Indifferent P)
  {first : Group → Place}
include hP

lemma Orderly.runAt_over (hcount : ∀ {file base} g, P file base → first g ≤ countIn g file base)
    (hgrow : ∀ {file base g place f}, first g ≤ place → place < countIn g file base →
      KeepsInterfaces f → P file base →
      P (growIn g place f file base).1 (growIn g place f file base).2)
    (h : x.Orderly T held owed total) (hheld : ∀ g p, held g p → first g ≤ p)
    (hd : d.Over P (depth + 1)) : (x.runAt .tolerant T.context d).2.Over P (depth + 1) := by
  induction x generalizing d held owed depth with
  | done | stop => exact hd
  | asking _ ih => exact ih _ h hheld hd
  | lowering x _ ih =>
    obtain ⟨marks, -, hnext⟩ := h
    rw [runAt]
    rcases hrun : x.runAt T.context d.trail with ⟨_ | value, t⟩
    · exact hd.withTrail hP t
    · exact ih value (hnext value _ _ hrun) hheld (hd.withTrail hP t)
  | noting _ _ ih => exact ih h.2 hheld hd
  | adding group decls _ ih =>
    obtain ⟨rest, -, -, hnext⟩ := h
    refine ih (d.count group) (hnext _) ?_ (hd.add group decls)
    rintro g p (hp | ⟨rfl, rfl, -⟩)
    · exact hheld g p hp
    · obtain ⟨upper, base, -, hstaged, hbase⟩ := hd
      have hle := countIn_append_le g d.file base upper
      rw [← hstaged] at hle
      exact Nat.le_trans (hcount g hbase) hle
  | growing _ _ _ _ ih =>
    refine ih h.2.2.2 hheld (hd.grow fun hlt hbase => ?_)
    exact hgrow (hheld _ _ h.1) hlt h.2.2.1 hbase
  | guarding location node body _ ihBody ihNext =>
    have hbody := ihBody h.2.1 hheld hd.openMember
    refine ihNext _ (h.2.2 _) hheld ?_
    cases (body.runAt .tolerant T.context d.openMember).1 with
    | ok => exact hbody.merge
    | error failure => exact hbody.recordFailure hP location node failure

omit hP in
lemma Stand.add (h : Stand (held .interfaces) d) {decls : List Decl}
    (hinterface : g = .interfaces → ∃ i, decls.head? = some (.interface i)) :
    Stand (held.adding g decls (d.count g) .interfaces) (d.add g decls) := by
  intro p hp
  change ∃ i, ((d.add g decls).standing .interfaces)[p]? = some (.interface i)
  rw [standing_add_eq_append]
  rcases hp with hp | ⟨rfl, rfl, -⟩
  · obtain ⟨i, hi⟩ := h p hp
    have hlt : p < (d.standing .interfaces).length := (List.getElem?_eq_some_iff.1 hi).1
    exact ⟨i, by rw [getElem?_append_left hlt]; exact hi⟩
  · obtain ⟨i, hi⟩ := hinterface rfl
    refine ⟨i, ?_⟩
    rw [if_pos rfl, ← length_standing, getElem?_append_right (Nat.le_refl _),
      Nat.sub_self, ← head?_eq_getElem?, hi]

omit hP in
/-- An orderly script leaves the interfaces where they stand, also when a boundary throws its file
away. -/
lemma Orderly.stand_closeMember {body : Build β} (hbody : body.Conforms T held)
    (hd : Stand known d) (location : String) (node : Node) :
    Stand known (((body.runAt .tolerant T.context d.openMember).2.closeMember location node
      (body.runAt .tolerant T.context d.openMember).1).2) := by
  have hover : d.openMember.Over (StandIn known) 1 := Over.openMember ⟨[], d.staged, rfl, rfl, hd⟩
  have hrun := hbody.runAt_over (standIn_indifferent known) (fun _ _ => Nat.zero_le _)
    (fun _ _ hf hbase => hbase.growIn hf) (fun _ _ _ => Nat.zero_le _) hover
  cases (body.runAt .tolerant T.context d.openMember).1 with
  | ok => exact stand_merge_of_over hrun
  | error failure =>
    obtain ⟨upper, base, hlength, hstaged, hbase⟩ :=
      hrun.recordFailure (standIn_indifferent known) location node failure
    obtain rfl : upper = [] := length_eq_zero_iff.1 hlength
    rw [nil_append] at hstaged
    rw [← hstaged] at hbase
    exact hbase

omit hP in
lemma Orderly.handed_of_mem_calls (h : x.Orderly T held owed total)
    (hd : Stand (held .interfaces) d) (hcall : call ∈ x.calls T.context d) :
    ∃ held', Stand (held' .interfaces) call.before ∧ Handed T held' call.node call.body.2 := by
  induction x generalizing held owed d with
  | done | stop => cases hcall
  | asking _ ih => exact ih _ h hd hcall
  | lowering x _ ih =>
    obtain ⟨marks, -, hnext⟩ := h
    rw [calls] at hcall
    rcases hrun : x.runAt T.context d.trail with ⟨outcome, t⟩
    rw [hrun] at hcall
    cases outcome with
    | ok value =>
      refine ih value (hnext value _ _ hrun) ?_ hcall
      exact (standIn_indifferent _).imports t.imports hd
    | error => cases hcall
  | noting event _ ih =>
    have hnoted : Stand (held .interfaces) (d.note event) := hd
    exact ih h.2 hnoted hcall
  | adding _ _ _ ih =>
    obtain ⟨rest, -, hdecls, hnext⟩ := h
    exact ih _ (hnext _) (hd.add hdecls.1) hcall
  | growing group place grow _ ih =>
    have hgrown : Stand (held .interfaces) (d.grow group place grow) := StandIn.growIn hd h.2.2.1
    exact ih h.2.2.2 hgrown hcall
  | guarding location node _ _ ihBody ihNext =>
    rw [calls, mem_append, mem_cons] at hcall
    rcases hcall with hcall | rfl | hcall
    · exact ihBody h.2.1 hd.openMember hcall
    · exact ⟨held, hd, h.1, h.2.1⟩
    · exact ihNext _ (h.2.2 _) (Orderly.stand_closeMember h.2.1 hd location node) hcall

end

section

variable (h : x.Orderly T held owed total)
include h

lemma Orderly.faults_runAt (hlost : ¬ T.lost) (mode : Mode)
    (d : Draft) : Faults Fault.IsOther (x.runAt mode T.context d).1 := by
  induction x generalizing held owed d with
  | done value => exact .ok value
  | stop =>
    intro f hf
    exact (h f (Except.error.inj hf)).resolve_left hlost
  | asking _ ih => exact ih _ h d
  | lowering x _ ih =>
    obtain ⟨marks, hpiece, hnext⟩ := h
    have hx := hpiece.written.1.resolve_left hlost d.trail
    rw [runAt]
    rcases hrun : x.runAt T.context d.trail with ⟨outcome, t⟩
    rw [hrun] at hx
    cases outcome with
    | ok value => exact ih value (hnext value _ _ hrun) (d.withTrail t)
    | error failure =>
      intro f hf
      cases hf
      exact hx f rfl
  | noting event _ ih => exact ih h.2 (d.note event)
  | adding group decls _ ih =>
    obtain ⟨rest, -, -, hnext⟩ := h
    exact ih _ (hnext _) (d.add group decls)
  | growing group place grow _ ih => exact ih h.2.2.2 (d.grow group place grow)
  | guarding _ _ body _ ihBody ihNext =>
    cases mode with
    | strict =>
      have hbody := ihBody h.2.1 d
      rw [runAt]
      revert hbody
      rcases body.runAt .strict T.context d with ⟨outcome, d'⟩
      intro hbody
      cases outcome with
      | ok value => exact ihNext _ (h.2.2 _) d'
      | error failure =>
        intro f hf
        cases hf
        exact hbody f rfl
    | tolerant => exact ihNext _ (h.2.2 _) _

lemma Orderly.piece_of_mem_steps
    (hstep : step ∈ x.steps T.context d) : ∃ marks, Piece T step.piece.2 marks := by
  induction x generalizing held owed d with
  | done | stop => cases hstep
  | asking _ ih => exact ih _ h hstep
  | lowering x _ ih =>
    obtain ⟨marks, hpiece, hnext⟩ := h
    rw [steps] at hstep
    rcases mem_cons.1 hstep with rfl | hlater
    · exact ⟨marks, hpiece⟩
    rcases hrun : x.runAt T.context d.trail with ⟨outcome, t⟩
    rw [hrun] at hlater
    cases outcome with
    | ok value => exact ih value (hnext value _ _ hrun) hlater
    | error => cases hlater
  | noting _ _ ih => exact ih h.2 hstep
  | adding _ _ _ ih =>
    obtain ⟨rest, -, -, hnext⟩ := h
    exact ih _ (hnext _) hstep
  | growing _ _ _ _ ih => exact ih h.2.2.2 hstep
  | guarding _ _ _ _ ihBody ihNext =>
    rcases mem_append.1 hstep with hinner | hlater
    · exact ihBody h.2.1 hinner
    · exact ihNext _ (h.2.2 _) hlater

lemma Orderly.balance (hsingle : T.single)
    (hclean : Clean T.context x d a d') :
    ambiguities d'.log + d.marks + owed = ambiguities d.log + d'.marks + total a := by
  induction x generalizing held owed d d' with
  | done =>
    obtain ⟨rfl, rfl⟩ := hclean.eq_of_pure
    rw [h]
  | stop => cases hclean.returned
  | asking _ ih => exact ih _ h ⟨hclean.returned, hclean.silent⟩
  | lowering _ _ ih =>
    obtain ⟨marks, hpiece, hnext⟩ := h
    obtain ⟨value, t, hrun, hsecond⟩ := hclean.exists_of_lowering
    have h₁ := hpiece.written.2 hsingle _ _ _ _ hrun
    have h₂ := ih value (hnext value _ _ hrun) hsecond
    rw [marks_withTrail] at h₂
    change ambiguities t.log + 0 = ambiguities d.log + marks value at h₁
    change _ = ambiguities t.log + _ + _ at h₂
    omega
  | noting event _ ih =>
    have hrest := ih h.2 (d := d.note event) ⟨hclean.returned, hclean.silent⟩
    rwa [Draft.note, ambiguities_concat h.1] at hrest
  | adding group decls _ ih =>
    obtain ⟨rest, rfl, -, hnext⟩ := h
    have hrest := ih _ (hnext _) (d := d.add group decls) ⟨hclean.returned, ?_⟩
    · rw [marks_add, Draft.add, log_modifySink] at hrest
      omega
    · rw [hclean.silent, Draft.add, diagnostics_modifySink]
  | growing group place grow _ ih =>
    have hrest := ih h.2.2.2 (d := d.grow group place grow) ⟨hclean.returned, hclean.silent⟩
    rwa [marks_grow d h.2.1] at hrest
  | guarding _ _ _ _ ihBody ihNext =>
    obtain ⟨b, d₁, hinner, hsecond⟩ := hclean.exists_of_guarding
    have h₁ := ihBody h.2.1 hinner
    have h₂ := ihNext _ (h.2.2 _) hsecond
    rw [marks_openMember] at h₁
    rw [marks_merge, log_merge] at h₂
    change _ = ambiguities d.log + _ + _ at h₁
    omega

lemma Orderly.apart (hapart : T.apart)
    (hclean : Clean T.context x d a d') (hd : ∀ f, .function f ∈ d.standing .methods → f.Apart) :
    ∀ f, .function f ∈ d'.standing .methods → f.Apart := by
  induction x generalizing held owed d d' with
  | done =>
    obtain ⟨rfl, rfl⟩ := hclean.eq_of_pure
    exact hd
  | stop => cases hclean.returned
  | asking _ ih => exact ih _ h ⟨hclean.returned, hclean.silent⟩ hd
  | lowering _ _ ih =>
    obtain ⟨marks, -, hnext⟩ := h
    obtain ⟨value, t, hrun, hsecond⟩ := hclean.exists_of_lowering
    exact ih value (hnext value _ _ hrun) hsecond (by simpa using hd)
  | noting event _ ih =>
    exact ih h.2 (d := d.note event) ⟨hclean.returned, hclean.silent⟩ hd
  | adding group decls _ ih =>
    obtain ⟨rest, -, hdecls, hnext⟩ := h
    refine ih _ (hnext _) (d := d.add group decls) ⟨hclean.returned, ?_⟩ fun f hf => ?_
    · rw [hclean.silent, add, diagnostics_modifySink]
    · rw [standing_add_eq_append, mem_append] at hf
      rcases hf with hf | hf
      · exact hd f hf
      · split at hf
        · exact hdecls.2 hapart f hf
        · cases hf
  | growing group place grow _ ih =>
    refine ih h.2.2.2 (d := d.grow group place grow) ⟨hclean.returned, hclean.silent⟩ ?_
    rw [standing_grow, if_neg]
    · exact hd
    · rintro rfl
      cases h.2.1 <;> contradiction
  | guarding _ _ _ _ ihBody ihNext =>
    obtain ⟨b, d₁, hinner, hsecond⟩ := hclean.exists_of_guarding
    refine ihNext _ (h.2.2 _) hsecond ?_
    rw [standing_merge]
    exact ihBody h.2.1 hinner (by simpa using hd)

end

end Build

end JavaToGo
