import JavaToGo.Proofs.Ambiguity.Settled

/-!
# Two runs side by side

Lowering at a place, and at the same place with other buckets of overloads.
Which failures the first run may have to itself is a parameter.
-/

namespace JavaToGo

open List Lower

def Context.facing (c : Context) (expected : Option String) (inReturn : Bool) : Context :=
  { c with expected := expected, inReturn := inReturn }

namespace Lower

variable {α β γ δ : Type}

/-- What a run and the one beside it end with: related results in the same scopes, the same
failure, or a refusal of the first. -/
inductive Agree (refused : Failure → Prop) (R : α → β → Prop) :
    Except Failure α × Trail → Except Failure β × Trail → Prop
  | returned {a : α} {a' : β} {t t' : Trail} (hresult : R a a') (hscopes : t.scopes = t'.scopes) :
      Agree refused R (.ok a, t) (.ok a', t')
  | failed (failure : Failure) (t t' : Trail) :
      Agree refused R (.error failure, t) (.error failure, t')
  | refused {failure : Failure} (h : refused failure) (t : Trail) (r : Except Failure β × Trail) :
      Agree refused R (.error failure, t) r

/-- From the same scopes, the runs of two computations at a place agree, the second with other
buckets. -/
def Parallel (refused : Failure → Prop) (c : Context) (b : Buckets) (x : Lower α) (x' : Lower β)
    (R : α → β → Prop) : Prop :=
  ∀ expected inReturn t t', t.scopes = t'.scopes →
    Agree refused R (x.runAt (c.facing expected inReturn) t)
      (x'.runAt ((c.withBuckets b).facing expected inReturn) t')

variable (refused : Failure → Prop) (c : Context) (b : Buckets)

/-- The two runs return the same. -/
abbrev Same (x : Lower α) : Prop :=
  Parallel refused c b x x fun a a' => a' = a

/-- Both runs of a computation return. -/
abbrev Together (x : Lower α) : Prop :=
  Parallel refused c b x x fun _ _ => True

variable {refused c b}

section

variable {x : Lower α} {f : α → Lower γ} {f' : β → Lower δ} {R : α → β → Prop} {S : γ → δ → Prop}

lemma Parallel.pure (h : R a a') :
    Parallel refused c b (Pure.pure a : Lower α) (Pure.pure a' : Lower β) R :=
  fun _ _ _ _ hscopes => .returned h hscopes

lemma Parallel.throw (failure : Failure) :
    Parallel refused c b (throw failure : Lower α) (throw failure : Lower β) R :=
  fun _ _ _ _ _ => .failed failure _ _

lemma Parallel.refuse {failure : Failure} (h : refused failure) (x' : Lower β) :
    Parallel refused c b (MonadExcept.throw failure : Lower α) x' R :=
  fun _ _ _ _ _ => .refused h _ _

lemma Parallel.made (hx : Parallel refused c b x x' R)
    (hf : ∀ a a' expected inReturn, x.Makes (c.facing expected inReturn) a → R a a' →
      Parallel refused c b (f a) (f' a') S) :
    Parallel refused c b (x >>= f) (x' >>= f') S := by
  intro expected inReturn t t' hscopes
  have hfirst := hx expected inReturn t t' hscopes
  rw [runAt_bind, runAt_bind]
  rcases hrun : x.runAt (c.facing expected inReturn) t with ⟨outcome, t₁⟩
  rcases hrun' : x'.runAt ((c.withBuckets b).facing expected inReturn) t' with ⟨outcome', t₁'⟩
  rw [hrun, hrun'] at hfirst
  cases hfirst with
  | returned hR hafter => exact hf _ _ _ _ ⟨t, t₁, hrun⟩ hR expected inReturn t₁ t₁' hafter
  | failed => exact .failed _ _ _
  | refused h => exact .refused h _ _

lemma Parallel.bind (hx : Parallel refused c b x x' R)
    (hf : ∀ a a', R a a' → Parallel refused c b (f a) (f' a') S) :
    Parallel refused c b (x >>= f) (x' >>= f') S :=
  hx.made fun a a' _ _ _ hR => hf a a' hR

lemma Parallel.step {g : α → β} (hx : Parallel refused c b x x' fun a a' => a' = g a)
    (hf : ∀ a, Parallel refused c b (f a) (f' (g a)) S) :
    Parallel refused c b (x >>= f) (x' >>= f') S := by
  refine hx.bind fun a a' ha => ?_
  rw [ha]
  exact hf a

/-- What is made of the last results does not matter to runs that only go together. -/
lemma Parallel.ends {g : α → γ} {g' : β → δ} (hx : Parallel refused c b x x' R) :
    Parallel refused c b (x >>= fun a => Pure.pure (g a)) (x' >>= fun a => Pure.pure (g' a))
      fun _ _ => True :=
  hx.bind fun _ _ _ => .pure trivial

lemma Parallel.lift {x : Outcome α} {f : α → Lower γ} {f' : α → Lower δ}
    (hf : ∀ a, x = .ok a → Parallel refused c b (f a) (f' a) S) :
    Parallel refused c b ((liftM x : Lower α) >>= f) ((liftM x : Lower α) >>= f') S := by
  intro expected inReturn t t' hscopes
  cases x with
  | error => exact .failed _ _ _
  | ok a => exact hf a rfl expected inReturn t t' hscopes

lemma Parallel.map {g : α → γ} {g' : β → δ} (hx : Parallel refused c b x x' R)
    (h : ∀ a a', R a a' → S (g a) (g' a')) : Parallel refused c b (g <$> x) (g' <$> x') S := by
  exact hx.bind fun a a' hR => .pure (h a a' hR)

lemma Parallel.mono {S : α → β → Prop} (hx : Parallel refused c b x x' R)
    (h : ∀ a a', R a a' → S a a') : Parallel refused c b x x' S := by
  have hid : Parallel refused c b (id <$> x) (id <$> x') S := hx.map h
  rwa [id_map, id_map] at hid

end

section

variable {R : γ → δ → Prop}

lemma Parallel.read {f : Context → Lower γ} {f' : Context → Lower δ}
    (h : ∀ expected inReturn, Parallel refused c b (f (c.facing expected inReturn))
      (f' ((c.withBuckets b).facing expected inReturn)) R) :
    Parallel refused c b (MonadReader.read >>= f) (MonadReader.read >>= f') R :=
  fun expected inReturn t t' hscopes => h expected inReturn expected inReturn t t' hscopes

lemma Parallel.types {f : TypeContext → Lower γ} {f' : TypeContext → Lower δ}
    (h : Parallel refused c b (f c.toTypeContext) (f' (c.withBuckets b).toTypeContext) R) :
    Parallel refused c b (types >>= f) (types >>= f') R :=
  fun expected inReturn t t' hscopes => h expected inReturn t t' hscopes

lemma Parallel.symbols {f : Symbols → Lower γ} {f' : Symbols → Lower δ}
    (h : Parallel refused c b (f c.symbols) (f' (c.symbols.withBuckets b)) R) :
    Parallel refused c b (symbols >>= f) (symbols >>= f') R :=
  fun expected inReturn t t' hscopes => h expected inReturn t t' hscopes

lemma Parallel.receiver {f : Receiver → Lower γ} {f' : Receiver → Lower δ}
    (h : Parallel refused c b (f c.receiver) (f' c.receiver) R) :
    Parallel refused c b (receiver >>= f) (receiver >>= f') R :=
  fun expected inReturn t t' hscopes => h expected inReturn t t' hscopes

lemma Parallel.typeOf {f : String → Lower γ} {f' : String → Lower δ}
    (h : ∀ type, Parallel refused c b (f type) (f' type) R) :
    Parallel refused c b ((liftM (JavaToGo.typeOf c.toTypeContext node) : Lower String) >>= f)
      ((liftM (JavaToGo.typeOf (c.withBuckets b).toTypeContext node) : Lower String) >>= f') R := by
  have hsame : JavaToGo.typeOf (c.withBuckets b).toTypeContext node
      = JavaToGo.typeOf c.toTypeContext node :=
    typeOf_withBuckets c.toTypeContext b node
  rw [hsame]
  exact .lift fun type _ => h type

end

section

variable {R : α → β → Prop}

lemma Parallel.expecting (hx : Parallel refused c b x x' R) (type : Option String) :
    Parallel refused c b (expecting type x) (expecting type x') R :=
  fun _ inReturn t t' hscopes => hx type inReturn t t' hscopes

lemma Parallel.returning (hx : Parallel refused c b x x' R) :
    Parallel refused c b (returning x) (returning x') R :=
  fun expected _ t t' hscopes => hx expected true t t' hscopes

lemma Parallel.withReceiver (hx : Parallel refused { c with receiver := r } b x x' R) :
    Parallel refused c b (withReceiver r x) (withReceiver r x') R :=
  fun expected inReturn t t' hscopes => hx expected inReturn t t' hscopes

lemma Parallel.withScope (hx : Parallel refused c b x x' R) (names : List String) :
    Parallel refused c b (Lower.withScope names x) (Lower.withScope names x') R := by
  intro expected inReturn t t' hscopes
  have hinner := hx expected inReturn { t with scopes := Scope.ofNames names :: t.scopes }
    { t' with scopes := Scope.ofNames names :: t'.scopes } (by rw [hscopes])
  rw [Lower.withScope, Lower.withScope, runAt_withScopes, runAt_withScopes]
  rcases hrun : x.runAt (c.facing expected inReturn)
    { t with scopes := Scope.ofNames names :: t.scopes } with ⟨outcome, t₁⟩
  rcases hrun' : x'.runAt ((c.withBuckets b).facing expected inReturn)
    { t' with scopes := Scope.ofNames names :: t'.scopes } with ⟨outcome', t₁'⟩
  rw [hrun, hrun'] at hinner
  cases hinner with
  | returned hR hafter => exact .returned hR (congrArg List.tail hafter)
  | failed => exact .failed _ _ _
  | refused h => exact .refused h _ _

end

lemma same_isLocal (name : String) : Same refused c b (isLocal name) := by
  intro expected inReturn t t' hscopes
  exact .returned (by rw [hscopes]) hscopes

lemma same_declareLocal (name : String) : Same refused c b (declareLocal name) := by
  intro expected inReturn t t' hscopes
  exact .returned rfl (congrArg (declareIn name) hscopes)

lemma same_requireImport (path : String) : Same refused c b (requireImport path) :=
  fun _ _ _ _ hscopes => .returned rfl hscopes

lemma parallel_noteAll (events events' : List Event) :
    Parallel refused c b (noteAll events) (noteAll events') fun a a' => a' = a :=
  fun _ _ _ _ hscopes => .returned rfl hscopes

lemma Asks.same {x : Lower α} (h : x.Asks fun _ => True) : Same refused c b x := by
  induction h with
  | @lift α x _ =>
    intro expected inReturn t t' hscopes
    cases x with
    | error => exact .failed _ _ _
    | ok => exact .returned rfl hscopes
  | @read α f _ hblind ih =>
    refine .read fun expected inReturn => ?_
    have hsame : f ((c.withBuckets b).facing expected inReturn) = f (c.facing expected inReturn) :=
      hblind (c.facing expected inReturn) b
    rw [hsame]
    exact ih _
  | isLocal => exact same_isLocal _
  | bind _ _ ihx ihf => exact ihx.step ihf

lemma Parallel.mapM {f : γ → Lower α} {f' : γ → Lower β} {R : α → β → Prop}
    {S : List α → List β → Prop} (hnil : S [] [])
    (hcons : ∀ {a a' as as'}, R a a' → S as as' → S (a :: as) (a' :: as')) :
    ∀ {items : List γ}, (∀ n ∈ items, Parallel refused c b (f n) (f' n) R) →
      Parallel refused c b (items.mapM f) (items.mapM f') S
  | [], _ => by
    exact .pure hnil
  | n :: ns, h => by
    rw [mapM_cons, mapM_cons]
    refine (h n mem_cons_self).bind fun a a' ha => ?_
    have hrest := Parallel.mapM hnil hcons fun m hm => h m (mem_cons_of_mem _ hm)
    exact hrest.bind fun as as' has => .pure (hcons ha has)

lemma Parallel.foldlM {f : α → γ → Lower α} {f' : β → γ → Lower β} {R : α → β → Prop} :
    ∀ {items : List γ}, (∀ a a', ∀ n ∈ items, R a a' → Parallel refused c b (f a n) (f' a' n) R) →
      ∀ {a a'}, R a a' → Parallel refused c b (items.foldlM f a) (items.foldlM f' a') R
  | [], _, a, a', ha => by
    exact .pure ha
  | n :: ns, h, a, a', ha => by
    refine (h a a' n mem_cons_self ha).bind fun d d' hd => ?_
    exact Parallel.foldlM (fun e e' m hm he => h e e' m (mem_cons_of_mem _ hm) he) hd

end Lower

end JavaToGo
