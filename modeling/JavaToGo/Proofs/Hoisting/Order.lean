import JavaToGo.Proofs.Hoisting.Fragment

/-!
# When effects may come first
-/

variable {x : String}

namespace JavaToGo.Hoisting

open List
section

variable {inView : String → Bool} {p q : String → String} {σ τ : Store}

lemma within_eq_iff : σ.within inView = τ.within inView ↔ ∀ x, inView x → σ x = τ x := by
  constructor
  · intro h x hx
    have hat := congrFun h x
    simpa [Store.within, hx] using hat
  · intro h
    funext x
    by_cases hx : inView x
    · simp [Store.within, h x hx]
    · simp [Store.within, hx]

/-- The same variables in view share a place. -/
def SamePlaces (inView : String → Bool) (p q : String → String) : Prop :=
  ∀ x y, inView x → inView y → (p x = p y ↔ q x = q y)

lemma within_setAt (hpq : SamePlaces inView p q) (h : σ.within inView = τ.within inView)
    (hx : inView x) (v : Value) :
    (σ.setAt p x v).within inView = (τ.setAt q x v).within inView := by
  rw [within_eq_iff] at h ⊢
  intro y hy
  simp only [Store.setAt, hpq y x hy hx, h y hy]

lemma cases_of_map_eq {α β : Type} {f : α → β} {a b : Option α} (h : a.map f = b.map f) :
    (a = none ∧ b = none) ∨ ∃ x y, a = some x ∧ b = some y ∧ f x = f y := by
  cases a with
  | none => exact .inl ⟨rfl, Option.map_eq_none_iff.1 h.symm⟩
  | some x =>
    obtain ⟨y, hy, hxy⟩ := Option.map_eq_some_iff.1 h.symm
    exact .inr ⟨x, y, rfl, hy, hxy.symm⟩

end

namespace LocalExpr

variable {wrap : Int → Int}
variable {e : LocalExpr}

lemma effects_of_not_mem_writes (h : e.effects wrap id σ = some σ') (hx : x ∉ e.writes) :
    σ' x = σ x := by
  induction e generalizing σ σ' with
  | var y => cases h; rfl
  | int literal => cases h; rfl
  | bool b => cases h; rfl
  | unary op e ih => exact ih h hx
  | strict op l r ihl ihr | and l r ihl ihr | or l r ihl ihr =>
    obtain ⟨hxl, hxr⟩ := not_or.1 (mt mem_append.2 hx)
    obtain ⟨σ₁, hl, hr⟩ := Option.bind_eq_some_iff.1 h
    exact (ihr hr hxr).trans (ihl hl hxl)
  | assign y e ih =>
    obtain ⟨hxy, hxe⟩ := not_or.1 (mt mem_cons.2 hx)
    obtain ⟨σ₁, he, hset⟩ := Option.bind_eq_some_iff.1 h
    obtain ⟨v, -, ⟨⟩⟩ := Option.bind_eq_some_iff.1 hset
    exact (Store.set_of_ne σ₁ v hxy).trans (ih he hxe)
  | step op y =>
    obtain ⟨v, -, ⟨⟩⟩ := Option.bind_eq_some_iff.1 h
    exact Store.set_of_ne σ v (ne_of_not_mem_cons hx)

lemma effects_of_writes_nil (h : e.writes = []) (σ : Store) : e.effects wrap id σ = some σ := by
  induction e generalizing σ with
  | var y => rfl
  | int literal => rfl
  | bool b => rfl
  | unary op e ih => exact ih h σ
  | strict op l r ihl ihr | and l r ihl ihr | or l r ihl ihr =>
    obtain ⟨hl, hr⟩ := append_eq_nil_iff.1 h
    exact Option.bind_eq_some_iff.2 ⟨σ, ihl hl σ, ihr hr σ⟩
  | assign y e ih => cases h
  | step op y => cases h

lemma reread_congr (h : ∀ x ∈ e.rereads, σ x = τ x) : e.reread wrap σ = e.reread wrap τ := by
  induction e with
  | var y => exact congrArg some (h y (mem_singleton_self y))
  | int literal => rfl
  | bool b => rfl
  | unary op e ih => simp only [reread, ih h]
  | strict op l r ihl ihr | and l r ihl ihr | or l r ihl ihr =>
    have hl := ihl fun x hx => h x (mem_append_left _ hx)
    have hr := ihr fun x hx => h x (mem_append_right _ hx)
    simp only [reread, hl, hr]
  | assign y e ih => exact congrArg some (h y (mem_singleton_self y))
  | step op y => exact congrArg some (h y (mem_singleton_self y))

lemma reread_effects {l r : LocalExpr} (h : r.effects wrap id σ = some σ')
    (hlr : ∀ x ∈ r.writes, x ∉ l.rereads) : l.reread wrap σ' = l.reread wrap σ :=
  reread_congr fun x hx => effects_of_not_mem_writes h fun hw => hlr x hw hx

lemma effectsFirst_eq_eval (h : e.Separated) (σ : Store) :
    e.effectsFirst wrap id σ = e.eval wrap σ := by
  induction e generalizing σ with
  | var y => rfl
  | int literal => rfl
  | bool b => rfl
  | unary _ e ih | assign _ e ih =>
    rw [eval, ← ih h σ]
    simp only [effectsFirst, effects, reread]
    cases e.effects wrap id σ with
    | none => rfl
    | some σ' => cases hv : e.reread wrap σ' <;> simp [hv]
  | strict op l r ihl ihr =>
    obtain ⟨hl, hr, hlr⟩ := h
    simp only [eval, ← ihl hl, ← ihr hr]
    simp only [effectsFirst, effects, reread]
    cases l.effects wrap id σ with
    | none => rfl
    | some σ₁ =>
      cases hr : r.effects wrap id σ₁ with
      | none => cases hv : l.reread wrap σ₁ <;> simp [hr, hv]
      | some σ₂ =>
        -- What the right operand sets does not show in the left one.
        have hread := reread_effects hr hlr
        cases hv : l.reread wrap σ₁ <;> simp [hr, hread, Option.bind_assoc]
  | and l r ihl ihr | or l r ihl ihr =>
    obtain ⟨hl, hr, hnil⟩ := h
    simp only [eval, ← ihl hl, ← ihr hr]
    simp only [effectsFirst, effects, reread, effects_of_writes_nil hnil]
    cases l.effects wrap id σ with
    | none => rfl
    | some σ₁ =>
      cases hv : l.reread wrap σ₁ with
      | none => simp [hv]
      | some v =>
        obtain n | _ | _ := v
        all_goals simp [hv, Value.truth?, Option.bind_assoc]
  | step op y =>
    simp only [effectsFirst, effects, reread, eval]
    cases op.apply wrap (σ y) <;> simp

variable {inView : String → Bool} {p q : String → String} {σ τ : Store}

lemma vars_of_mem_rereads (h : x ∈ e.rereads) : x ∈ e.vars := by
  induction e with
  | var y => exact h
  | int literal => cases h
  | bool b => cases h
  | unary op e ih => exact ih h
  | strict op l r ihl ihr | and l r ihl ihr | or l r ihl ihr =>
    rcases mem_append.1 h with h | h
    · exact mem_append_left _ (ihl h)
    · exact mem_append_right _ (ihr h)
  | assign y e ih => exact mem_cons.2 (.inl (mem_singleton.1 h))
  | step op y => exact h

lemma reread_of_within (hvars : ∀ x ∈ e.vars, inView x) (h : σ.within inView = τ.within inView) :
    e.reread wrap σ = e.reread wrap τ :=
  reread_congr fun x hx => within_eq_iff.1 h x (hvars x (vars_of_mem_rereads hx))

lemma effects_of_within (hpq : SamePlaces inView p q) (hvars : ∀ x ∈ e.vars, inView x)
    (h : σ.within inView = τ.within inView) :
    (e.effects wrap p σ).map (Store.within inView)
      = (e.effects wrap q τ).map (Store.within inView) := by
  induction e generalizing σ τ with
  | var y => exact congrArg some h
  | int literal => exact congrArg some h
  | bool b => exact congrArg some h
  | unary op e ih => exact ih hvars h
  | strict op l r ihl ihr | and l r ihl ihr | or l r ihl ihr =>
    have hl := ihl (fun x hx => hvars x (mem_append_left _ hx)) h
    obtain ⟨hσ, hτ⟩ | ⟨σ₁, τ₁, hσ, hτ, hwithin⟩ := cases_of_map_eq hl
    · simp only [effects, hσ, hτ]
      rfl
    · simp only [effects, hσ, hτ]
      exact ihr (fun x hx => hvars x (mem_append_right _ hx)) hwithin
  | assign y e ih =>
    have hvars' : ∀ x ∈ e.vars, inView x := fun x hx => hvars x (mem_cons_of_mem _ hx)
    obtain ⟨hσ, hτ⟩ | ⟨σ₁, τ₁, hσ, hτ, hwithin⟩ := cases_of_map_eq (ih hvars' h)
    · simp only [effects, hσ, hτ]
      rfl
    · have hread : e.reread wrap σ₁ = e.reread wrap τ₁ := reread_of_within hvars' hwithin
      simp only [effects, hσ, hτ, Option.bind_eq_bind, Option.bind_some, hread]
      cases e.reread wrap τ₁ with
      | none => rfl
      | some v =>
        exact congrArg some (within_setAt hpq hwithin (hvars y mem_cons_self) v)
  | step op y =>
    have hy := hvars y mem_cons_self
    simp only [effects, within_eq_iff.1 h y hy]
    cases op.apply wrap (τ y) with
    | none => rfl
    | some v => exact congrArg some (within_setAt hpq h hy v)

lemma observe_effectsFirst (hpq : SamePlaces inView p q) (hvars : ∀ x ∈ e.vars, inView x)
    (h : σ.within inView = τ.within inView) :
    observe inView (e.effectsFirst wrap p σ) = observe inView (e.effectsFirst wrap q τ) := by
  have heffects : (e.effects wrap p σ).map (Store.within inView)
      = (e.effects wrap q τ).map (Store.within inView) := effects_of_within hpq hvars h
  obtain ⟨hσ, hτ⟩ | ⟨σ', τ', hσ, hτ, hwithin⟩ := cases_of_map_eq heffects
  · simp only [effectsFirst, hσ, hτ]
  · have hread : e.reread wrap σ' = e.reread wrap τ' := reread_of_within hvars hwithin
    simp only [effectsFirst, hσ, hτ, Option.bind_eq_bind, Option.bind_some, hread]
    cases e.reread wrap τ' with
    | none => rfl
    | some v => exact congrArg (fun seen => some (v, seen)) hwithin

end LocalExpr
end JavaToGo.Hoisting
