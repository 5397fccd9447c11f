import JavaToGo.Proofs.Lowering.Composed
import JavaToGo.Proofs.Lowering.Parts

/-!
# Keeping accounts of lowering

Every rule puts in front of its result what its parts leave in front of theirs,
and a few statements of its own.  Whatever is counted among statements, the
accounts of a rule therefore follow from those of its parts.
-/

namespace JavaToGo

open Code (Import)
open JavaToGo.Tree (Node)
open List Lower

/-- What is known beforehand about the context in which something is lowered. -/
structure Setting where
  types : TypeContext
  receiver : Receiver
  returns : Option ReturnShape
  inReturn : Bool

/-- What a context is made of but for the local names. -/
def Context.setting (c : Context) : Setting :=
  ⟨c.toTypeContext, c.receiver, c.returnShape, c.inReturn⟩

def Setting.kind (p : Setting) : ReceiverKind :=
  p.receiver.kind

/-- What is returned behind the value, or without one. -/
def Setting.nils (p : Setting) : List Expr :=
  if p.returns.any ReturnShape.throws then [.nil] else []

def Setting.within (p : Setting) (inReturn : Bool) : Setting :=
  { p with inReturn := inReturn }

lemma unlogged_nil : (fun _ : List Event => 0) [] = 0 := rfl

lemma unlogged_append (log more : List Event) :
    (fun _ => 0) (log ++ more) = (fun _ => 0) log + (fun _ : List Event => 0) more := rfl

/-- How statements and events are weighed. -/
structure Scale where
  weight : Stmt → Nat
  logged : List Event → Nat := fun _ => 0
  /-- The weight of statements that rules write. -/
  plain : Nat := 0
  /-- What an increment weighs more than that. -/
  tick : Nat := 0
  named : String → Prop := fun _ => True
  asked : String → Prop := fun _ => True
  placed : Expr → Prop := fun _ => True
  /-- Whether results may be thrown away. -/
  lossy : Prop
  /-- Whether rules may write statements. -/
  writes : Prop := True
  logged_nil : logged [] = 0 := by exact unlogged_nil
  logged_append : ∀ log more, logged (log ++ more) = logged log + logged more := by
    exact unlogged_append
  placed_var : ∀ name, placed (.var name) := by exact fun _ => trivial
  placed_field : ∀ target name, placed (.field target name) := by exact fun _ _ => trivial
  assign : ∀ place value, placed place → weight (.assign place value) = plain := by
    exact fun _ _ _ => rfl
  call : ∀ value, weight (.call value) = plain := by exact fun _ => rfl
  step : ∀ place operator, placed place → weight (.step place operator) = plain + tick := by
    exact fun _ _ _ => rfl
  binding : ∀ name value, weight (.raw (name ++ ", _ := " ++ value)) = plain := by
    exact fun _ _ => rfl
  methodMark : ∀ name count chosen,
    weight (methodAmbiguity name count) = logged [.ambiguousMethod name count chosen] := by
    exact fun _ _ _ => rfl
  constructorMark : ∀ javaName chosen,
    weight (constructorAmbiguity javaName) = logged [.ambiguousConstructor javaName chosen] := by
    exact fun _ _ => rfl

namespace Scale

variable (S : Scale)

/-- The weight of several statements. -/
def all : List Stmt → Nat
  | [] => 0
  | s :: ss => S.weight s + all ss

@[simp] lemma all_nil : S.all [] = 0 :=
  rfl

@[simp] lemma all_cons (s : Stmt) (ss : List Stmt) : S.all (s :: ss) = S.weight s + S.all ss :=
  rfl

@[simp] lemma all_append (ss ts : List Stmt) : S.all (ss ++ ts) = S.all ss + S.all ts := by
  induction ss with
  | nil => simp
  | cons s ss ih => simp [ih, Nat.add_assoc]

lemma all_eq_dropLast_add (ss : List Stmt) :
    S.all ss = S.all ss.dropLast + S.all ss.getLast?.toList := by
  induction ss with
  | nil => rfl
  | cons s ss ih =>
    cases ss with
    | nil => simp
    | cons next rest =>
      rw [dropLast_cons_cons, getLast?_cons_cons, all_cons, ih, all_cons, Nat.add_assoc]

attribute [simp] assign call step binding logged_nil placed_var placed_field

end Scale

namespace Lower

variable {α β : Type}

/-- What the computation returns in the setting satisfies `post`. -/
def GivesAt (p : Setting) (x : Lower α) (post : α → Prop) : Prop :=
  ∀ c t a t', c.setting = p → x.runAt c t = (.ok a, t') → post a

def Settable (S : Scale) (p : Setting) (value : Node → Lower Lowered) (target : Node) : Prop :=
  ∀ b c t a t', c.setting = p.within b → ((fieldSetter? target).runAt c t).1 = .ok none →
    (value target).runAt c t = (.ok a, t') → S.placed a.value

variable {target : Node}

lemma Settable.of_placed {S : Scale} {value : Node → Lower Lowered} (h : ∀ e, S.placed e) :
    Settable S p value target :=
  fun _ _ _ _ _ _ _ _ => h _

/-- The computation lowers the parts in turn, and its result weighs what is held already, what the
parts leave and what it adds itself. -/
inductive Emits (S : Scale) (value : Node → Lower Lowered) (code : Node → Lower (List Stmt)) :
    {α : Type} → Setting → List Part → Nat → Lower α → (α → Nat) → Prop
  | pure {a : γ} {total : γ → Nat} (steps own : Nat)
      (h : total a = held + steps * S.tick + own * S.plain) (hown : own = 0 ∨ S.writes) :
      Emits S value code p (List.replicate steps .step) held (Pure.pure a) total
  | fail {failure : Failure} {total : γ → Nat}
      (h : Faults Fault.IsOther (Except.error failure : Outcome γ)) :
      Emits S value code p parts held (throw failure) total
  | asks {x : Lower γ} (hx : x.Asks S.asked) :
      Emits S value code p [] held x fun _ => held
  | read {f : Context → Lower γ}
      (hf : ∀ c : Context, c.setting = p → Emits S value code p parts held (f c) total) :
      Emits S value code p parts held (MonadReader.read >>= f) total
  | value (node : Node) :
      Emits S value code p [.value node] held (value node) fun a => held + S.all a.before
  | maybe (node : Node) :
      Emits S value code p [.maybe node] held (value node) fun a => held + S.all a.before
  | unused (node : Node) (hx : Emits S value code p parts held x total) :
      Emits S value code p (.maybe node :: parts) held x total
  | code (node : Node) :
      Emits S value code p [.code p.inReturn node] held (code node) fun ss => held + S.all ss
  | declareLocal (h : S.named name) :
      Emits S value code p [] held (Lower.declareLocal name) fun _ => held + S.plain
  | requireImport (h : Import.IsSupport { path := path }) :
      Emits S value code p [] held (Lower.requireImport path) fun _ => held
  | noteAll (events : List Event) :
      Emits S value code p [] held (Lower.noteAll events) fun _ => held + S.logged events
  | expecting (hx : Emits S value code p parts held x total) (type : Option String) :
      Emits S value code p parts held (Lower.expecting type x) total
  | returning {p : Setting} (hx : Emits S value code (p.within true) parts held x total) :
      Emits S value code p parts held (Lower.returning x) total
  | withScope (hx : Emits S value code p parts held x total) (names : List String) :
      Emits S value code p parts held (Lower.withScope names x) total
  /-- Behind accessors a place is neither lowered nor stepped. -/
  | behind {p : Setting} (hkind : p.kind = .abstractDefault) (hsub : parts ⊆ more)
      (hx : Emits S value code p parts held x total) : Emits S value code p more held x total
  | drop (h : S.lossy) (hx : Emits S value code p parts held x total) :
      Emits S value code p [] held x fun _ => held
  | bind {x : Lower γ} {f : γ → Lower δ} {mid : γ → Nat} {post : γ → Prop}
      (hx : Emits S value code p parts held x mid) (hpost : GivesAt p x post)
      (hf : ∀ a, post a → Emits S value code p more (mid a) (f a) total) :
      Emits S value code p (parts ++ more) held (x >>= f) total

/-- The account of an expression is what stands in front of it. -/
abbrev EmitsValue (S value code p parts held) (x : Lower Lowered) :=
  Emits S value code p parts held x fun a => held + S.all a.before

abbrev EmitsCode (S value code p parts held) (x : Lower (List Stmt)) :=
  Emits S value code p parts held x fun ss => held + S.all ss

namespace Emits

variable {S : Scale} {value : Node → Lower Lowered} {code : Node → Lower (List Stmt)} {p : Setting}
  {held : Nat} {x : Lower α} {f : α → Lower β} {mid : α → Nat} {total : β → Nat}

section

section

variable (hx : Emits S value code p parts held x mid)
include hx

lemma step
    (hf : ∀ a, Emits S value code p more (mid a) (f a) total) :
    Emits S value code p (parts ++ more) held (x >>= f) total :=
  hx.bind (fun _ _ _ _ _ _ => trivial) fun a (_ : True) => hf a

lemma lastWith {post : α → Prop}
    (hpost : GivesAt p x post)
    (hf : ∀ a, post a → Emits S value code p [] (mid a) (f a) total) :
    Emits S value code p parts held (x >>= f) total := by
  have h := hx.bind hpost hf
  rwa [append_nil] at h

lemma last
    (hf : ∀ a, Emits S value code p [] (mid a) (f a) total) :
    Emits S value code p parts held (x >>= f) total :=
  hx.lastWith (fun _ _ _ _ _ _ => trivial) fun a (_ : True) => hf a

end

lemma quietly (hx : Emits S value code p [] held x mid)
    (hf : ∀ a, Emits S value code p parts (mid a) (f a) total) :
    Emits S value code p parts held (x >>= f) total :=
  hx.step hf

lemma ask (hx : x.Asks S.asked) (hf : ∀ a, Emits S value code p parts held (f a) total) :
    Emits S value code p parts held (x >>= f) total :=
  (Emits.asks hx).quietly hf

lemma askFor {post : α → Prop} (hx : x.Asks S.asked) (hpost : GivesAt p x post)
    (hf : ∀ a, post a → Emits S value code p parts held (f a) total) :
    Emits S value code p parts held (x >>= f) total :=
  (Emits.asks hx).bind hpost hf

lemma done (h : total a = held) : Emits S value code p [] held (Pure.pure a) total :=
  .pure 0 0 (by simpa using h) (.inl rfl)

lemma refuse (r : Refusal) : Emits S value code p parts held (throw (.refusal r)) total :=
  .fail (.refusal r)

lemma lift {x : Outcome α} (hx : Faults Fault.IsOther x)
    (hf : ∀ a, x = .ok a → Emits S value code p parts held (f a) total) :
    Emits S value code p parts held ((liftM x : Lower α) >>= f) total := by
  refine askFor (.lift hx) (fun c t a t' _ hrun => ?_) hf
  exact (Prod.mk.inj hrun).1

variable {node : Node}

lemma require {f : Node → Lower β} (hf : ∀ child, node.fieldChild? field = some child →
      Emits S value code p parts held (f child) total) :
    Emits S value code p parts held ((liftM (node.require field) : Lower Node) >>= f) total := by
  refine lift (.require node field) fun child hchild => hf child ?_
  rw [Node.require] at hchild
  split at hchild <;> simp_all

lemma requireText {f : String → Lower β} (hf : ∀ child, node.fieldChild? field = some child →
      Emits S value code p parts held (f child.text) total) :
    Emits S value code p parts held ((liftM (node.requireText field) : Lower String) >>= f)
      total := by
  refine lift (.requireText node field) fun text htext => ?_
  rw [Node.requireText, Node.require] at htext
  split at htext
  · cases htext
    exact hf _ ‹_›
  · cases htext

lemma optional {inner : Node → List Part} {f : Node → Lower β}
    (hf : ∀ child, node.fieldChild? field = some child →
      Emits S value code p (inner child ++ more) held (f child) total) :
    Emits S value code p (Part.optional node field inner ++ more) held
      ((liftM (node.require field) : Lower Node) >>= f) total :=
  require fun child hchild => by
    rw [Part.optional, hchild]
    exact hf child hchild

lemma field {f : Lowered → Lower β}
    (hf : ∀ a : Lowered, Emits S value code p more (held + S.all a.before) (f a) total) :
    Emits S value code p (Part.field node name ++ more) held
      ((liftM (node.require name) : Lower Node) >>= fun child => value child >>= f) total :=
  optional fun child _ => (Emits.value child).step hf

lemma first {nodes : List Node} {f : Node → Lower β}
    (hf : ∀ node, Emits S value code p [.value node] held (f node) total) :
    Emits S value code p ((nodes.take 1).map .value) held
      ((liftM (firstItem nodes) : Lower Node) >>= f) total := by
  cases nodes with
  | nil => exact .fail (.fault (by simp [Fault.IsOther, Fault.kind]))
  | cons node rest => exact hf node

lemma types {f : TypeContext → Lower β} (hf : Emits S value code p parts held (f p.types) total) :
    Emits S value code p parts held (types >>= f) total :=
  .read fun c hc => by cases hc; exact hf

lemma symbols {f : Symbols → Lower β}
    (hf : Emits S value code p parts held (f p.types.symbols) total) :
    Emits S value code p parts held (symbols >>= f) total :=
  .read fun c hc => by cases hc; exact hf

omit x f in
lemma kind_of_fieldSetter? (h : (fieldSetter? target).runAt c t = (.ok (some setter), t')) :
    c.receiver.kind = .abstractDefault := by
  obtain ⟨r, t₁, ⟨⟩, hrest⟩ := exists_of_bind h
  by_cases hkind : c.receiver.kind = .abstractDefault
  · exact hkind
  · rw [if_neg hkind] at hrest
    cases hrest

lemma fieldSetter? {f : Option Expr → Lower β}
    (hasked : target.kind = .identifier → S.asked target.text)
    (hnone : Emits S value code p parts held (f none) total)
    (hsome : p.kind = .abstractDefault → ∀ setter,
      Emits S value code p parts held (f (some setter)) total) :
    Emits S value code p parts held (Lower.fieldSetter? target >>= f) total := by
  have hpost : GivesAt p (Lower.fieldSetter? target)
      fun o => ∀ setter, o = some setter → p.kind = .abstractDefault := by
    rintro c t o t' rfl hrun setter rfl
    exact kind_of_fieldSetter? hrun
  refine askFor (asks_fieldSetter? hasked) hpost fun setter hsetter => ?_
  cases setter with
  | none => exact hnone
  | some setter => exact hsome (hsetter setter rfl) setter

lemma place {f : Option Expr → Lower β} {g : Lowered → Lower β}
    (hnever : f none = value target >>= g) (hplaced : Settable S p value target)
    (hasked : target.kind = .identifier → S.asked target.text)
    (hvalue : EmitsValue S value code p parts held (value target))
    (hsome : p.kind = .abstractDefault → ∀ setter,
      Emits S value code p (parts ++ more) held (f (some setter)) total)
    (hnone : ∀ a, S.placed a.value →
      Emits S value code p more (held + S.all a.before) (g a) total) :
    Emits S value code p (parts ++ more) held (Lower.fieldSetter? target >>= f) total := by
  let found : Lower (Expr ⊕ Lowered) := Lower.fieldSetter? target >>= fun o =>
    o.elim (value target >>= fun a => Pure.pure (.inr a)) fun setter => Pure.pure (.inl setter)
  let next : Expr ⊕ Lowered → Lower β := Sum.elim (fun setter => f (some setter)) g
  have hfound : Lower.fieldSetter? target >>= f = found >>= next := by
    rw [bind_assoc]
    refine bind_congr fun o => ?_
    cases o <;> simp [next, hnever]
  have hpost : GivesAt p found
      fun r => (∀ a, r = .inr a → S.placed a.value)
        ∧ ∀ setter, r = .inl setter → p.kind = .abstractDefault := by
    rintro c t r t' rfl hrun
    obtain ⟨o, t₁, hsetter, hrest⟩ := exists_of_bind hrun
    have hstill := (asks_fieldSetter? hasked).still c t
    rw [hsetter] at hstill
    cases hstill
    cases o with
    | some =>
      cases hrest
      exact ⟨nofun, fun _ _ => kind_of_fieldSetter? hsetter⟩
    | none =>
      obtain ⟨a, t₂, hvalue, ⟨⟩⟩ := exists_of_bind hrest
      refine ⟨fun a' ha => ?_, nofun⟩
      cases ha
      exact hplaced c.inReturn c _ a _ rfl (by rw [hsetter]) hvalue
  have hemits : Emits S value code p parts held found
      fun r => r.elim (fun _ => held) fun a => held + S.all a.before := by
    refine fieldSetter? hasked ?_ fun hkind setter => ?_
    · exact hvalue.last fun a => .done rfl
    · exact .behind hkind (nil_subset _) (.done rfl)
  rw [hfound]
  by_cases hkind : p.kind = .abstractDefault
  · have hboth : Emits S value code p (parts ++ (parts ++ more)) held (found >>= next) total := by
      refine hemits.bind hpost fun r hr => ?_
      cases r with
      | inl setter => exact hsome hkind setter
      | inr a => exact .behind hkind (subset_append_right _ _) (hnone a (hr.1 a rfl))
    exact .behind hkind (by simp) hboth
  · refine hemits.bind hpost fun r hr => ?_
    cases r with
    | inl setter => exact absurd (hr.2 setter rfl) hkind
    | inr a => exact hnone a (hr.1 a rfl)

end

lemma mapM {f : α → Lower β} {parts : α → List Part} {front : β → List Stmt} :
    ∀ {as : List α} {held : Nat},
      (∀ a ∈ as, ∀ held,
        Emits S value code p (parts a) held (f a) fun b => held + S.all (front b)) →
      Emits S value code p (as.flatMap parts) held (as.mapM f)
        fun bs => held + S.all (bs.flatMap front)
  | [], held, _ => by
    exact .done rfl
  | a :: as, held, h => by
    rw [mapM_cons, flatMap_cons]
    refine (h a mem_cons_self held).step fun b => ?_
    exact (Emits.mapM fun a ha => h a (mem_cons_of_mem _ ha)).last fun bs =>
      .done (by simp [Nat.add_assoc])

lemma foldlM {f : β → α → Lower β} {parts : α → List Part} {g : β → List Stmt} :
    ∀ {as : List α} {held : Nat} {b : β},
      (∀ b, ∀ a ∈ as, ∀ held, Emits S value code p (parts a) (held + S.all (g b)) (f b a)
        fun b => held + S.all (g b)) →
      Emits S value code p (as.flatMap parts) (held + S.all (g b)) (as.foldlM f b)
        fun b => held + S.all (g b)
  | [], held, b, _ => by
    exact .done rfl
  | a :: as, held, b, h => by
    exact (h b a mem_cons_self held).step fun b' =>
      Emits.foldlM fun b a ha => h b a (mem_cons_of_mem _ ha)

variable {total : α → Nat}

lemma keeps (hvalue : ∀ node, (value node).Composed) (hcode : ∀ node, (code node).Composed)
    (h : Emits S value code p parts held x total) :
    ∀ c : Context, c.setting = p → (∀ t : Trail, t.Extends (x.runAt c t).2) ∧ x.InformedAt c := by
  have hall : ∀ {α : Type} {y : Lower α} {p : Setting}, y.Composed →
      ∀ c : Context, c.setting = p → (∀ t : Trail, t.Extends (y.runAt c t).2) ∧ y.InformedAt c :=
    fun hy c _ => ⟨hy.framed c, hy.informedAt c⟩
  induction h with
  | pure => exact hall (.pure _)
  | fail h => exact fun c _ => ⟨fun t => .refl t, fun _ => h⟩
  | asks hx => exact hall (.asks hx.weaken)
  | read _ ih => exact fun c hc => ih c hc c hc
  | value node | maybe node => exact hall (hvalue node)
  | unused _ _ ih | behind _ _ _ ih | drop _ _ ih => exact ih
  | code node => exact hall (hcode node)
  | declareLocal => exact hall (.declareLocal _)
  | requireImport h => exact hall (.requireImport h)
  | noteAll events => exact hall (.noteAll events)
  | expecting _ type ih => exact fun c hc => ih { c with expected := type } hc
  | returning _ ih => exact fun c hc => ih { c with inReturn := true } (by cases hc; rfl)
  | withScope _ names ih =>
    intro c hc
    obtain ⟨hextends, hinformed⟩ := ih c hc
    refine ⟨fun t => ?_, fun t => hinformed _⟩
    have hinner := hextends { t with scopes := Scope.ofNames names :: t.scopes }
    exact hinner.restored hinner.scopes.tail_eq
  | @bind _ _ _ _ _ _ _ x f _ _ _ hpost _ ihx ihf =>
    intro c hc
    obtain ⟨hextends, hinformed⟩ := ihx c hc
    have hrun : ∀ t, t.Extends ((x >>= f).runAt c t).2
        ∧ Faults Fault.IsOther ((x >>= f).runAt c t).1 := by
      intro t
      have hfirst := hextends t
      have hfault := hinformed t
      rw [runAt_bind]
      rcases hx : x.runAt c t with ⟨outcome, t₁⟩
      rw [hx] at hfirst hfault
      cases outcome with
      | ok a =>
        obtain ⟨hsecond, hrest⟩ := ihf a (hpost c t a t₁ hc hx) c hc
        exact ⟨hfirst.trans (hsecond t₁), hrest t₁⟩
      | error => exact ⟨hfirst, fun f hf => hfault f (by cases hf; rfl)⟩
    exact ⟨fun t => (hrun t).1, fun t => (hrun t).2⟩

lemma composed (hvalue : ∀ node, (value node).Composed) (hcode : ∀ node, (code node).Composed)
    {parts : Setting → List Part}
    (h : ∀ p, Emits S value code p (parts p) 0 x total) : x.Composed where
  framed := fun c => ((h c.setting).keeps hvalue hcode c rfl).1
  informedAt := fun c => ((h c.setting).keeps hvalue hcode c rfl).2

/-- When the computation returns, its result weighs what it is to weigh and what was logged. -/
def CountsAt (S : Scale) (p : Setting) (n : Nat) (x : Lower α) (total : α → Nat) : Prop :=
  ∀ c t a t', c.setting = p → x.runAt c t = (.ok a, t') →
    total a + S.logged t.log = n + S.logged t'.log

variable (S value code p) in
def Counted (met : Part → Nat) : Part → Prop
  | .value node => ∀ b, CountsAt S (p.within b) (met (.value node)) (value node)
      fun a => S.all a.before
  | .maybe node => ∀ b, CountsAt S (p.within b) 0 (value node) fun a => S.all a.before
  | .code b node => CountsAt S (p.within b) (met (.code b node)) (code node) S.all
  | .step => True

lemma CountsAt.frame (h : CountsAt S p n x total) (held : Nat) :
    CountsAt S p (held + n) x fun a => held + total a := by
  intro c t a t' hc hrun
  have hx := h c t a t' hc hrun
  dsimp only
  omega

lemma counts {met : Part → Nat} (hplain : S.plain = 0 ∨ ¬ S.writes ∧ ∀ name, ¬ S.named name)
    (hlossy : S.lossy → ∀ log, S.logged log = 0) (hstep : met .step = S.tick)
    (hmaybe : ∀ node, met (.maybe node) = 0) (hbehind : p.kind = .abstractDefault → ∀ q, met q = 0)
    (h : Emits S value code p parts held x total)
    (hparts : ∀ q ∈ parts, Counted S value code p met q) :
    CountsAt S p (held + Part.sum met parts) x total := by
  have hquiet : ∀ {α : Type} {y : Lower α} {p : Setting} {held : Nat} {total : α → Nat} {n : Nat},
      (∀ c t a t', y.runAt c t = (.ok a, t') →
        total a + S.logged t.log = held + n + S.logged t'.log) → CountsAt S p (held + n) y total :=
    fun hy c t a t' _ hrun => hy c t a t' hrun
  induction h with
  | pure _ own h hown =>
    have hnone : own * S.plain = 0 :=
      Nat.mul_eq_zero.2 (hplain.symm.imp (fun hplain => hown.resolve_right hplain.1) id)
    refine hquiet fun c t a t' hrun => ?_
    cases hrun
    rw [h, hnone, Part.sum_replicate, hstep, Nat.add_zero]
  | fail =>
    refine hquiet fun c t a t' hrun => ?_
    cases hrun
  | asks hx =>
    refine hquiet fun c t a t' hrun => ?_
    have hstill := hx.still c t
    rw [hrun] at hstill
    cases hstill
    rfl
  | read _ ih => exact fun c t a t' hc hrun => ih c hc hbehind hparts c t a t' hc hrun
  | value => exact (hparts _ mem_cons_self _).frame _
  | @maybe p held node =>
    have hnode := (hparts _ mem_cons_self p.inReturn).frame held
    rwa [Part.sum, hmaybe]
  | unused _ _ ih =>
    rw [Part.sum, hmaybe, Nat.zero_add]
    exact ih hbehind fun q hq => hparts q (mem_cons_of_mem _ hq)
  | code => exact CountsAt.frame (hparts _ mem_cons_self) _
  | declareLocal h =>
    refine hquiet fun c t a t' hrun => ?_
    cases hrun
    rw [hplain.resolve_right fun hplain => hplain.2 _ h]
    rfl
  | requireImport =>
    refine hquiet fun c t a t' hrun => ?_
    cases hrun
    rfl
  | noteAll events =>
    refine hquiet fun c t a t' hrun => ?_
    cases hrun
    rw [S.logged_append, Part.sum]
    omega
  | expecting _ type ih =>
    exact fun c t a t' hc hrun => ih hbehind hparts { c with expected := type } t a t' hc hrun
  | returning _ ih =>
    exact fun c t a t' hc hrun =>
      ih hbehind hparts { c with inReturn := true } t a t' (by cases hc; rfl) hrun
  | withScope _ names ih =>
    intro c t a t' hc hrun
    obtain ⟨t₁, hinner, rfl⟩ := exists_of_runAt_withScopes hrun
    exact ih hbehind hparts c { t with scopes := Scope.ofNames names :: t.scopes } a t₁ hc hinner
  | behind hkind hsub _ ih =>
    have hrun := ih hbehind fun q hq => hparts q (hsub hq)
    rw [Part.sum_eq_zero fun q _ => hbehind hkind q] at hrun ⊢
    exact hrun
  | drop h =>
    refine hquiet fun c t a t' _ => ?_
    rw [hlossy h, hlossy h]
    rfl
  | bind _ hpost _ ihx ihf =>
    intro c t b t' hc hrun
    obtain ⟨a, t₁, hfirst, hsecond⟩ := exists_of_bind hrun
    have h₁ := ihx hbehind (fun q hq => hparts q (mem_append_left _ hq)) c t a t₁ hc hfirst
    have h₂ := ihf a (hpost c t a t₁ hc hfirst) hbehind
      (fun q hq => hparts q (mem_append_right _ hq)) c t₁ b t' hc hsecond
    rw [Part.sum_append]
    omega

/-- The scopes grow, and when they have the result weighs more than what is held. -/
def BindsAt (S : Scale) (p : Setting) (held : Nat) (x : Lower α) (total : α → Nat) : Prop :=
  ∀ c t, c.setting = p → Grows S.named t.scopes (x.runAt c t).2.scopes
    ∧ ∀ a, (x.runAt c t).1 = .ok a →
      held ≤ total a ∧ ((x.runAt c t).2.scopes ≠ t.scopes → held < total a)

variable (S value code p) in
def Shown : Part → Prop
  | .value node | .maybe node => ∀ b, BindsAt S (p.within b) 0 (value node) fun a => S.all a.before
  | .code b node => BindsAt S (p.within b) 0 (code node) S.all
  | .step => True

lemma BindsAt.frame (h : BindsAt S p 0 x total) (held : Nat) :
    BindsAt S p held x fun a => held + total a := by
  intro c t hc
  obtain ⟨hgrows, hshows⟩ := h c t hc
  refine ⟨hgrows, fun a ha => ⟨Nat.le_add_right _ _, fun hchanged => ?_⟩⟩
  exact Nat.lt_add_of_pos_right ((hshows a ha).2 hchanged)

lemma BindsAt.of_steady (hx : x.Steady)
    (h : ∀ c t a, (x.runAt c t).1 = .ok a → held ≤ total a) : BindsAt S p held x total := by
  intro c t _
  rw [hx c t]
  exact ⟨.refl _, fun a ha => ⟨h c t a ha, fun hchanged => absurd rfl hchanged⟩⟩

lemma binds (hplain : 0 < S.plain) (hlossy : ¬ S.lossy)
    (h : Emits S value code p parts held x total) (hparts : ∀ q ∈ parts, Shown S value code p q) :
    BindsAt S p held x total := by
  induction h with
  | pure steps own h =>
    refine .of_steady (.pure _) fun c t a ha => ?_
    cases ha
    omega
  | fail =>
    refine .of_steady (.throw _) fun c t a ha => ?_
    cases ha
  | asks hx => exact .of_steady hx.steady fun _ _ _ _ => Nat.le_refl _
  | read _ ih => exact fun c t hc => ih c hc hparts c t hc
  | value | maybe => exact (hparts _ mem_cons_self _).frame _
  | unused _ _ ih => exact ih fun q hq => hparts q (mem_cons_of_mem _ hq)
  | code => exact BindsAt.frame (hparts _ mem_cons_self) _
  | declareLocal h =>
    exact fun c t _ => ⟨.declare h t.scopes,
      fun _ _ => ⟨Nat.le_add_right _ _, fun _ => Nat.lt_add_of_pos_right hplain⟩⟩
  | requireImport => exact .of_steady (steady_requireImport _) fun _ _ _ _ => Nat.le_refl _
  | noteAll events =>
    exact .of_steady (steady_noteAll events) fun _ _ _ _ => Nat.le_add_right _ _
  | expecting _ type ih => exact fun c t hc => ih hparts { c with expected := type } t hc
  | returning _ ih =>
    exact fun c t hc => ih hparts { c with inReturn := true } t (by cases hc; rfl)
  | withScope _ names ih =>
    intro c t hc
    obtain ⟨hgrows, hshows⟩ := ih hparts c { t with scopes := Scope.ofNames names :: t.scopes } hc
    have hpopped := hgrows.tail_eq
    refine ⟨?_, fun a ha => ⟨(hshows a ha).1, fun hchanged => absurd hpopped hchanged⟩⟩
    exact hpopped.symm ▸ .refl _
  | behind _ hsub _ ih => exact ih fun q hq => hparts q (hsub hq)
  | drop h => exact absurd h hlossy
  | @bind _ _ _ _ _ _ _ x f _ _ _ hpost _ ihx ihf =>
    intro c t hc
    obtain ⟨hgrows, hshows⟩ := ihx (fun q hq => hparts q (mem_append_left _ hq)) c t hc
    rw [runAt_bind]
    rcases hx : x.runAt c t with ⟨outcome, t₁⟩
    rw [hx] at hgrows hshows
    cases outcome with
    | error => exact ⟨hgrows, fun b hb => by cases hb⟩
    | ok a =>
      obtain ⟨hmore, hlast⟩ := ihf a (hpost c t a t₁ hc hx)
        (fun q hq => hparts q (mem_append_right _ hq)) c t₁ hc
      obtain ⟨hle, hlt⟩ := hshows a rfl
      refine ⟨hgrows.trans hmore, fun b hb => ⟨Nat.le_trans hle (hlast b hb).1, ?_⟩⟩
      intro hchanged
      -- the scopes have changed in the second step, or else in the first
      by_cases hlate : ((f a).runAt c t₁).2.scopes = t₁.scopes
      · have hfirst := hlt fun heq => hchanged (hlate.trans heq)
        exact Nat.lt_of_lt_of_le hfirst (hlast b hb).1
      · exact Nat.lt_of_le_of_lt hle ((hlast b hb).2 hlate)

/-- The scopes tell the same about the names in question. -/
def Alike (asked : String → Prop) (t t' : Trail) : Prop :=
  ∀ name, asked name → inScopes t'.scopes name = inScopes t.scopes name

/-- The outcome depends on what the scopes tell about the names that may be asked for. -/
def AgreesAt (S : Scale) (p : Setting) (x : Lower α) : Prop :=
  ∀ c t t', c.setting = p → Alike S.asked t t' →
    (x.runAt c t').1 = (x.runAt c t).1 ∧ Alike S.asked (x.runAt c t).2 (x.runAt c t').2

variable (S value code p) in
def Agreed : Part → Prop
  | .value node | .maybe node => ∀ b, AgreesAt S (p.within b) (value node)
  | .code b node => AgreesAt S (p.within b) (code node)
  | .step => True

lemma AgreesAt.bind {post : α → Prop} (hx : AgreesAt S p x) (hpost : GivesAt p x post)
    (hf : ∀ a, post a → AgreesAt S p (f a)) : AgreesAt S p (x >>= f) := by
  intro c t t' hc halike
  obtain ⟨hsame, hafter⟩ := hx c t t' hc halike
  rw [runAt_bind, runAt_bind]
  rcases hrun : x.runAt c t with ⟨outcome, t₁⟩
  rcases hrun' : x.runAt c t' with ⟨outcome', t₁'⟩
  rw [hrun, hrun'] at hsame hafter
  cases hsame
  cases outcome with
  | ok a => exact hf a (hpost c t a t₁ hc hrun) c t₁ t₁' hc hafter
  | error => exact ⟨rfl, hafter⟩

lemma AgreesAt.asks (hx : x.Asks S.asked) : AgreesAt S p x := by
  induction hx with
  | @lift α x _ => exact fun c t t' _ halike => by rw [runAt_lift]; exact ⟨rfl, halike⟩
  | read _ _ ih => exact fun c => ih c c
  | isLocal h =>
    exact fun c t t' _ halike => ⟨congrArg Except.ok (halike _ h), halike⟩
  | bind _ _ ihx ihf => exact ihx.bind (fun _ _ _ _ _ _ => trivial) fun a (_ : True) => ihf a

lemma agrees (hlossy : ¬ S.lossy) (hvalue : ∀ node, (value node).Composed)
    (hcode : ∀ node, (code node).Composed) (h : Emits S value code p parts held x total)
    (hparts : ∀ q ∈ parts, Agreed S value code p q) : AgreesAt S p x := by
  induction h with
  | pure | fail | requireImport | noteAll => exact fun _ _ _ _ halike => ⟨rfl, halike⟩
  | asks hx => exact .asks hx
  | read _ ih => exact fun c t t' hc => ih c hc hparts c t t' hc
  | value | maybe => exact hparts _ mem_cons_self _
  | unused _ _ ih => exact ih fun q hq => hparts q (mem_cons_of_mem _ hq)
  | code => exact hparts _ mem_cons_self
  | @declareLocal name =>
    refine fun c t t' _ halike => ⟨rfl, fun other hother => ?_⟩
    have hscopes := halike other hother
    change inScopes (declareIn name t'.scopes) other = inScopes (declareIn name t.scopes) other
    rw [inScopes_declareIn, inScopes_declareIn, hscopes]
  | expecting _ type ih => exact fun c t t' hc => ih hparts { c with expected := type } t t' hc
  | returning _ ih =>
    exact fun c t t' hc => ih hparts { c with inReturn := true } t t' (by cases hc; rfl)
  | withScope hx names ih =>
    intro c t t' hc halike
    have hpopped := fun t : Trail =>
      ((hx.keeps hvalue hcode c hc).1
        { t with scopes := Scope.ofNames names :: t.scopes }).scopes.tail_eq
    refine ⟨(ih hparts c { t with scopes := Scope.ofNames names :: t.scopes }
      { t' with scopes := Scope.ofNames names :: t'.scopes } hc fun name hname => ?_).1, ?_⟩
    · have hscopes := halike name hname
      simp only [inScopes, any_cons] at hscopes ⊢
      rw [hscopes]
    · intro name hname
      exact (congrArg (inScopes · name) (hpopped t')).trans
        ((halike name hname).trans (congrArg (inScopes · name) (hpopped t)).symm)
  | behind _ hsub _ ih => exact ih fun q hq => hparts q (hsub hq)
  | drop h => exact absurd h hlossy
  | bind _ hpost _ ihx ihf =>
    exact (ihx fun q hq => hparts q (mem_append_left _ hq)).bind hpost fun a ha =>
      ihf a ha fun q hq => hparts q (mem_append_right _ hq)

end Emits

end Lower

end JavaToGo
