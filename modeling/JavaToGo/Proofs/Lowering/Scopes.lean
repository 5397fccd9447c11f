import JavaToGo.Proofs.Lowering.Asks

/-!
# How scopes grow

Lowering only ever adds names to the scopes in view, whether it returns or fails.
-/

namespace JavaToGo

open List

def declareAll (names : List String) (scopes : List Scope) : List Scope :=
  names.foldl (fun scopes name => declareIn name scopes) scopes

/-- Allowed names were declared in the scopes one after the other. -/
def Grows (allowed : String → Prop) (scopes scopes' : List Scope) : Prop :=
  ∃ names, (∀ name ∈ names, allowed name) ∧ scopes' = declareAll names scopes

namespace Grows

variable {allowed : String → Prop}

lemma refl (scopes : List Scope) : Grows allowed scopes scopes :=
  ⟨[], fun _ h => absurd h not_mem_nil, rfl⟩

lemma trans (h : Grows allowed scopes scopes') (h' : Grows allowed scopes' scopes'') :
    Grows allowed scopes scopes'' := by
  obtain ⟨names, hnames, rfl⟩ := h
  obtain ⟨more, hmore, rfl⟩ := h'
  refine ⟨names ++ more, fun name hname => ?_, (foldl_append ..).symm⟩
  exact (mem_append.1 hname).elim (hnames name) (hmore name)

lemma declare (h : allowed name) (scopes : List Scope) :
    Grows allowed scopes (declareIn name scopes) :=
  ⟨[name], fun _ hname => mem_singleton.1 hname ▸ h, rfl⟩

lemma mono {allowed' : String → Prop} (h : Grows allowed scopes scopes')
    (hallowed : ∀ name, allowed name → allowed' name) : Grows allowed' scopes scopes' := by
  obtain ⟨names, hnames, rfl⟩ := h
  exact ⟨names, fun name hname => hallowed name (hnames name hname), rfl⟩

lemma eq_of_forall_not (h : Grows allowed scopes scopes') (hnone : ∀ name, ¬ allowed name) :
    scopes' = scopes := by
  obtain ⟨names, hnames, rfl⟩ := h
  cases names with
  | nil => rfl
  | cons name names => exact absurd (hnames name mem_cons_self) (hnone name)

end Grows

lemma Scope.exists_foldl_declare (names : List String) (scope : Scope) :
    ∃ added, names.foldl Scope.declare scope = scope ++ added := by
  induction names generalizing scope with
  | nil => exact ⟨[], (append_nil scope).symm⟩
  | cons name names ih =>
    rw [foldl_cons, declare]
    split
    · exact ih scope
    · obtain ⟨added, hadded⟩ := ih (scope ++ [name])
      exact ⟨name :: added, by rw [hadded, append_assoc, singleton_append]⟩

lemma declareAll_cons (names : List String) (scope : Scope) (scopes : List Scope) :
    declareAll names (scope :: scopes) = names.foldl Scope.declare scope :: scopes := by
  induction names generalizing scope with
  | nil => rfl
  | cons name names ih => exact ih (scope.declare name)

variable {allowed : String → Prop}

lemma Grows.exists_append (h : Grows allowed (scope :: outer) scopes) :
    ∃ added, scopes = (scope ++ added) :: outer := by
  obtain ⟨names, -, rfl⟩ := h
  obtain ⟨added, hadded⟩ := Scope.exists_foldl_declare names scope
  exact ⟨added, by rw [declareAll_cons, hadded]⟩

/-- What is behind the innermost scope stays as it is. -/
lemma Grows.tail_eq (h : Grows allowed (scope :: outer) scopes) : scopes.tail = outer := by
  obtain ⟨added, hadded⟩ := h.exists_append
  rw [hadded]
  rfl

lemma declareIn_eq_or_length (name : String) (scopes : List Scope) :
    declareIn name scopes = scopes
      ∨ (declareIn name scopes).flatten.length = scopes.flatten.length + 1 := by
  cases scopes with
  | nil => exact .inr rfl
  | cons scope outer =>
    rw [declareIn, Scope.declare]
    split
    · exact .inl rfl
    · refine .inr ?_
      simp
      omega

section

variable (h : Grows allowed scopes scopes')
include h

lemma Grows.eq_or_length_lt :
    scopes' = scopes ∨ scopes.flatten.length < scopes'.flatten.length := by
  obtain ⟨names, -, rfl⟩ := h
  induction names generalizing scopes with
  | nil => exact .inl rfl
  | cons name names ih =>
    have hrest := @ih (declareIn name scopes)
    rcases declareIn_eq_or_length name scopes with hsame | hmore
    · rw [hsame] at hrest
      rwa [declareAll, foldl_cons, hsame]
    · refine .inr ?_
      rw [declareAll, foldl_cons]
      rcases hrest with hrest | hrest
      · rw [← declareAll, hrest]
        omega
      · rw [declareAll] at hrest
        omega

lemma Grows.length_le : scopes.flatten.length ≤ scopes'.flatten.length := by
  rcases h.eq_or_length_lt with rfl | hmore
  · exact Nat.le_refl _
  · exact Nat.le_of_lt hmore

lemma Grows.eq_of_length (hle : scopes'.flatten.length ≤ scopes.flatten.length) :
    scopes' = scopes :=
  h.eq_or_length_lt.resolve_right (by omega)

lemma Grows.eq_iff_of_grows
    (h' : Grows allowed scopes' scopes'') :
    scopes'' = scopes ↔ scopes' = scopes ∧ scopes'' = scopes' := by
  constructor
  · intro heq
    have hle := h'.length_le
    rw [heq] at hle
    have hfirst := h.eq_of_length hle
    exact ⟨hfirst, heq.trans hfirst.symm⟩
  · rintro ⟨hfirst, hsecond⟩
    exact hsecond.trans hfirst

end

lemma inScopes_declareIn (name other : String) (scopes : List Scope) :
    inScopes (declareIn name scopes) other = (decide (other = name) || inScopes scopes other) := by
  cases scopes with
  | nil => simp [declareIn, inScopes]
  | cons scope outer =>
    rw [declareIn, Scope.declare]
    split
    · rename_i hknown
      by_cases hname : other = name
      · subst hname
        simp [inScopes, contains_iff_mem.1 hknown]
      · simp [hname]
    · simp [inScopes, Bool.or_comm, Bool.or_assoc]

lemma Grows.inScopes_eq (h : Grows allowed scopes scopes') (hname : ¬ allowed name) :
    inScopes scopes' name = inScopes scopes name := by
  obtain ⟨names, hnames, rfl⟩ := h
  induction names generalizing scopes with
  | nil => rfl
  | cons first names ih =>
    have hfirst : name ≠ first := fun heq => hname (heq ▸ hnames first mem_cons_self)
    have hdeclare : inScopes (declareIn first scopes) name = inScopes scopes name := by
      simp [inScopes_declareIn, hfirst]
    exact (ih fun n hn => hnames n (mem_cons_of_mem _ hn)).trans hdeclare

namespace Lower

variable {α β : Type}

section

/-- The names in view are the same afterwards, however the computation ends. -/
def Steady (x : Lower α) : Prop :=
  ∀ (c : Context) (t : Trail), (x.runAt c t).2.scopes = t.scopes

variable {x : Lower α} {f : α → Lower β}

lemma Asks.steady {asked : String → Prop} (hx : x.Asks asked) : x.Steady := by
  intro c t
  rw [hx.still c t]

lemma Steady.lift (x : Outcome α) : (liftM x : Lower α).Steady := by
  intro c t
  rw [Still.lift x c t]

lemma Steady.pure (a : α) : (Pure.pure a : Lower α).Steady :=
  fun _ _ => rfl

lemma Steady.throw (failure : Failure) : (MonadExcept.throw failure : Lower α).Steady :=
  fun _ _ => rfl

lemma Steady.bind (hx : x.Steady) (hf : ∀ a, (f a).Steady) : (x >>= f).Steady := by
  intro c t
  exact trail_bind (Q := fun t' => t'.scopes = t.scopes) (hx c t) fun a t' h => (hf a c t').trans h

lemma Steady.withReader (hx : x.Steady) (change : Context → Context) :
    (MonadWithReader.withReader change x : Lower α).Steady :=
  fun c t => hx (change c) t

lemma steady_requireImport (path : String) : (requireImport path).Steady :=
  fun _ _ => rfl

lemma steady_noteAll (events : List Event) : (noteAll events).Steady :=
  fun _ _ => rfl

end

variable (allowed : String → Prop)

/-- The scopes grow, and the result shows a statement when they have changed or it was held so. -/
def Binds (held : Prop) (x : Lower α) (shows : α → Prop) : Prop :=
  ∀ c t, Grows allowed t.scopes (x.runAt c t).2.scopes
    ∧ ∀ a, (x.runAt c t).1 = .ok a → held ∨ (x.runAt c t).2.scopes ≠ t.scopes → shows a

variable {allowed} {held : Prop} {f : α → Lower β} {shows : α → Prop} {total : β → Prop}

lemma Binds.pure (h : held → shows a) : Binds allowed held (Pure.pure a : Lower α) shows := by
  intro c t
  refine ⟨.refl t.scopes, fun b hb hheld => ?_⟩
  cases hb
  rcases hheld with hheld | hchanged
  · exact h hheld
  · exact absurd rfl hchanged

lemma Binds.throw (failure : Failure) :
    Binds allowed held (MonadExcept.throw failure : Lower α) shows := by
  intro c t
  refine ⟨.refl t.scopes, fun a ha => ?_⟩
  cases ha

lemma Binds.step (hx : Binds allowed False x shows)
    (hf : ∀ a, Binds allowed (held ∨ shows a) (f a) total) :
    Binds allowed held (x >>= f) total := by
  intro c t
  obtain ⟨hfirst, hshows⟩ := hx c t
  rw [runAt_bind]
  rcases hrun : x.runAt c t with ⟨outcome, t₁⟩
  rw [hrun] at hfirst hshows
  cases outcome with
  | error =>
    refine ⟨hfirst, fun b hb => ?_⟩
    cases hb
  | ok a =>
    obtain ⟨hsecond, htotal⟩ := hf a c t₁
    refine ⟨hfirst.trans hsecond, fun b hb hheld => htotal b hb ?_⟩
    -- the scopes have changed in the second step, or else in the first
    by_cases hlate : ((f a).runAt c t₁).2.scopes = t₁.scopes
    · refine .inl ?_
      rcases hheld with hheld | hchanged
      · exact .inl hheld
      · exact .inr (hshows a rfl (.inr fun heq => hchanged (hlate.trans heq)))
    · exact .inr hlate

lemma Binds.quietly (hx : Binds allowed False x fun _ => False)
    (hf : ∀ a, Binds allowed held (f a) total) : Binds allowed held (x >>= f) total := by
  refine hx.step fun a => ?_
  simpa using hf a

lemma Binds.withReader (hx : Binds allowed held x shows) (change : Context → Context) :
    Binds allowed held (MonadWithReader.withReader change x) shows :=
  fun c t => hx (change c) t

lemma Binds.expecting (hx : Binds allowed held x shows) (type : Option String) :
    Binds allowed held (Lower.expecting type x) shows :=
  hx.withReader _

end Lower

end JavaToGo
