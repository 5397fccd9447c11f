import JavaToGo.Proofs.Lowering.Scopes

/-!
# What lowering is composed of

Lowering asks, fails, declares local names, asks for imports, notes events, and
lowers parts under other conditions.  What each of these keeps, lowering keeps.
-/

namespace JavaToGo

open Code (Import)
open List Lower

/-- The import is that of `fmt` or of `os`. -/
def Code.Import.IsSupport (i : Import) : Prop :=
  i = { path := "fmt" } ∨ i = { path := "os" }

section

/-- Names, imports and events were added to the trail. -/
structure Trail.Extends (t t' : Trail) : Prop where
  scopes : Grows (fun _ => True) t.scopes t'.scopes
  imports : ∃ added, (∀ i ∈ added, i.IsSupport) ∧ t'.imports = t.imports ++ added
  log : t.log <+: t'.log

variable {t : Trail}

namespace Trail.Extends

lemma refl (t : Trail) : t.Extends t :=
  ⟨.refl _, ⟨[], by simp, (append_nil _).symm⟩, prefix_rfl⟩

lemma trans (h : t.Extends t') (h' : t'.Extends t'') : t.Extends t'' := by
  refine ⟨h.scopes.trans h'.scopes, ?_, h.log.trans h'.log⟩
  obtain ⟨added, hadded, heq⟩ := h.imports
  obtain ⟨more, hmore, heq'⟩ := h'.imports
  refine ⟨added ++ more, fun i hi => ?_, by rw [heq', heq, append_assoc]⟩
  exact (mem_append.1 hi).elim (hadded i) (hmore i)

lemma addImport (h : Import.IsSupport { path := path }) (t : Trail) :
    t.Extends { t with imports := Code.addImport t.imports { path := path } } := by
  refine ⟨.refl _, ?_, prefix_rfl⟩
  unfold Code.addImport
  split
  · exact ⟨[], by simp, (append_nil _).symm⟩
  · exact ⟨[{ path := path }], by simpa using h, rfl⟩

lemma restored {scopes after : List Scope} (h : { t with scopes := scopes }.Extends t')
    (hafter : after = t.scopes) : t.Extends { t' with scopes := after } := by
  subst hafter
  exact ⟨.refl _, h.imports, h.log⟩

end Trail.Extends

end

namespace Lower

variable {α β : Type}

/-- The computation extends the trail, whether it returns or fails. -/
def Framed (x : Lower α) : Prop :=
  ∀ (c : Context) (t : Trail), t.Extends (x.runAt c t).2

lemma Framed.bind {x : Lower α} {f : α → Lower β} (hx : x.Framed) (hf : ∀ a, (f a).Framed) :
    (x >>= f).Framed := by
  intro c t
  exact trail_bind (Q := t.Extends) (hx c t) fun a t' h => h.trans (hf a c t')

/-- The computation extends the trail, and never fails for want of a record. -/
structure Composed (x : Lower α) : Prop where
  framed : x.Framed
  informedAt : ∀ c, x.InformedAt c

namespace Composed

variable {x : Lower α}

lemma asks (hx : x.Asks fun _ => True) : x.Composed where
  framed := fun c t => by rw [hx.still c t]; exact .refl t
  informedAt := hx.informedAt

lemma declareLocal (name : String) : (declareLocal name).Composed where
  framed := fun _ t => ⟨.declare trivial t.scopes, (Trail.Extends.refl t).imports, prefix_rfl⟩
  informedAt := fun _ _ => .ok ()

lemma requireImport (h : Import.IsSupport { path := path }) : (requireImport path).Composed where
  framed := fun _ t => .addImport h t
  informedAt := fun _ _ => .ok ()

lemma noteAll (events : List Event) : (noteAll events).Composed where
  framed := fun _ t =>
    ⟨.refl _, (Trail.Extends.refl t).imports, prefix_append t.log events⟩
  informedAt := fun _ _ => .ok ()

lemma withReader (hx : x.Composed) (change : Context → Context) :
    (MonadWithReader.withReader change x : Lower α).Composed where
  framed := fun c t => hx.framed (change c) t
  informedAt := fun c t => hx.informedAt (change c) t

lemma bind {f : α → Lower β} (hx : x.Composed) (hf : ∀ a, (f a).Composed) : (x >>= f).Composed where
  framed := hx.framed.bind fun a => (hf a).framed
  informedAt := fun c => (hx.informedAt c).bind fun a => (hf a).informedAt c

lemma pure (a : α) : (Pure.pure a : Lower α).Composed :=
  .asks (.pure a)

lemma refuse (r : Refusal) : (throw (.refusal r) : Lower α).Composed :=
  .asks (.refuse r)

lemma fault {f : Fault} (hf : f.IsOther) : (throw (.fault f) : Lower α).Composed :=
  .asks (.fault hf)

lemma lift {x : Outcome α} (h : Faults Fault.IsOther x) : (liftM x : Lower α).Composed :=
  .asks (.lift h)

lemma withFunctionScope (hx : x.Composed) (params : List String) (shape : Option ReturnShape) :
    (withFunctionScope params shape x).Composed where
  framed := fun _ t => (hx.framed _ { t with scopes := [Scope.ofNames params] }).restored rfl
  informedAt := fun _ t => hx.informedAt _ { t with scopes := [Scope.ofNames params] }

end Composed

end Lower

end JavaToGo
