import JavaToGo.Proofs.Declaration.MethodClashes

/-!
# What interfaces list

An interface is put down without methods, and the members of the type list theirs
in it one after the other.
-/

namespace JavaToGo

open Code (MethodSpec)
open List Draft

namespace Draft

/-- The interface at the place has these further methods in the later draft. -/
def Lists (place : Place) (specs : List MethodSpec) (d d' : Draft) : Prop :=
  ∀ i : Code.Interface, (d.standing .interfaces)[place]? = some (.interface i) →
    (d'.standing .interfaces)[place]? = some (.interface { i with methods := i.methods ++ specs })

variable {d d' : Draft}

lemma lists_of_standing_eq (h : d'.standing .interfaces = d.standing .interfaces) :
    Lists place [] d d' := by
  intro i hi
  rw [h, hi, append_nil]

lemma Lists.trans (h : Lists place specs d d₁) (h' : Lists place more d₁ d') :
    Lists place (specs ++ more) d d' := by
  intro i hi
  rw [h' _ (h i hi), append_assoc]

lemma lists_grow (d : Draft) (place : Place) (spec : MethodSpec) :
    Lists place [spec] d (d.grow .interfaces place (Build.withSpec spec)) := by
  intro i hi
  rw [standing_grow, if_pos rfl, getElem?_modify_eq, hi]
  rfl

lemma lists_of_growsHeld {α : Type} {x : Build α} {c : Context} (hx : x.GrowsHeld c held)
    (hfree : ¬ held .interfaces place) {outcome : Except Failure α}
    (hrun : x.runAt .tolerant c d = (outcome, d')) : Lists place [] d d' := by
  intro i hi
  have hkept := hx.getElem?_standing hfree hi
  rw [hrun] at hkept
  rw [hkept, append_nil]

end Draft

namespace Call

lemma getElem?_of_free {call : Call} (h : call.body.2.GrowsHeld c held) (hfree : ¬ held g place)
    (hdecl : (call.before.standing g)[place]? = some decl) :
    ((call.after c).standing g)[place]? = some decl := by
  have hmember : (Build.member call.location call.node call.body.2).GrowsHeld c held := .member h
  exact hmember.getElem?_standing hfree hdecl

lemma lists_of_free {call : Call} (h : call.body.2.GrowsHeld c held)
    (hfree : ¬ held .interfaces place) : Lists place [] call.before (call.after c) := by
  intro i hi
  rw [append_nil]
  exact getElem?_of_free h hfree hi

lemma lists_of_run {call : Call} (h : Lists place specs call.before.openMember d')
    (hafter : ∀ g, (call.after c).standing g = d'.standing g) :
    Lists place specs call.before (call.after c) := by
  intro i hi
  rw [hafter]
  exact h i (by rwa [standing_openMember])

variable {names : Call → List String}

lemma Linked.exists_steps {α : Type} {steps : List α → Draft → Draft → Prop}
    (hnil : ∀ d, steps [] d d)
    (htrans : ∀ {l m d d₁ d'}, steps l d d₁ → steps m d₁ d' → steps (l ++ m) d d')
    {name : α → String}
    (hcalls : ∀ call ∈ calls, ∃ l, steps l call.before (call.after c) ∧ l.map name = names call)
    (h : Linked c d calls d') : ∃ l, steps l d d' ∧ l.map name = calls.flatMap names := by
  induction calls generalizing d with
  | nil =>
    obtain rfl : d' = d := h
    exact ⟨[], hnil d', rfl⟩
  | cons call calls ih =>
    obtain ⟨⟨l, hl, hnames⟩, hrest⟩ := forall_mem_cons.1 hcalls
    obtain ⟨rfl, hlinked⟩ := h
    obtain ⟨m, hm, hmoreNames⟩ := ih hrest hlinked
    exact ⟨l ++ m, htrans hl hm, by simp [hnames, hmoreNames]⟩

lemma Linked.exists_lists
    (hcalls : ∀ call ∈ calls, ∃ specs, Lists place specs call.before (call.after c)
      ∧ specs.map MethodSpec.name = names call) (h : Linked c d calls d') :
    ∃ specs, Lists place specs d d' ∧ specs.map MethodSpec.name = calls.flatMap names :=
  h.exists_steps (fun _ => lists_of_standing_eq rfl) Lists.trans hcalls

lemma Linked.getElem?_of_free (hcalls : ∀ call ∈ calls, call.body.2.GrowsHeld c held)
    (hfree : ¬ held g place) (h : Linked c d calls d')
    (hdecl : (d.standing g)[place]? = some decl) : (d'.standing g)[place]? = some decl := by
  induction calls generalizing d with
  | nil =>
    obtain rfl : d' = d := h
    exact hdecl
  | cons call calls ih =>
    obtain ⟨hfirst, hrest⟩ := forall_mem_cons.1 hcalls
    obtain ⟨rfl, hlinked⟩ := h
    exact ih hrest hlinked (Call.getElem?_of_free hfirst hfree hdecl)

lemma Linked.lists_of_free (hcalls : ∀ call ∈ calls, call.body.2.GrowsHeld c held)
    (hfree : ¬ held .interfaces place) (h : Linked c d calls d') : Lists place [] d d' := by
  intro i hi
  rw [append_nil]
  exact h.getElem?_of_free hcalls hfree hi

end Call

namespace Build

variable {c : Context} {go : Node → Build Unit}
variable {node : Node}

lemma growsHeld_recorded {f : MethodRecord → Build Unit}
    (h : ∀ record, c.symbols.methodRecords.find? node.id = some record →
      (f record).GrowsHeld c held) :
    ((liftM (c.symbols.requireMethod node) : Build MethodRecord) >>= f).GrowsHeld c held := by
  cases hrequire : c.symbols.requireMethod node with
  | error => trivial
  | ok record => exact h record (Symbols.find?_of_recorded hrequire)

lemma isStatic_of_instanceRecord_eq_none {s : Symbols} {record : MethodRecord}
    (hkind : node.kind = .methodDeclaration) (hfind : s.methodRecords.find? node.id = some record)
    (hnone : instanceRecord s node = none) : record.isStatic = true := by
  rw [instanceRecord, if_pos hkind, hfind] at hnone
  simpa using hnone

section

variable {call : Call}

/-- A member lists the method that it has a record for, and nothing without one. -/
lemma exists_lists_of_record {record : Option MethodRecord}
    (hnone : record = none → call.body.2.GrowsHeld c Held.none)
    (hsome : ∀ r, record = some r → Draft.Lists place [listedSpec c r] call.before (call.after c)) :
    ∃ specs, Draft.Lists place specs call.before (call.after c)
      ∧ specs.map MethodSpec.name = (record.map (c.symbols.emittedName true)).toList := by
  cases record with
  | none => exact ⟨[], Call.lists_of_free (hnone rfl) id, rfl⟩
  | some r =>
    exact ⟨[listedSpec c r], hsome r rfl,
      by simp [listedSpec, Symbols.emittedName, Code.withVisibility]⟩

lemma growsHeld_abstractMember_of_none (hgo : ConvertsTypes (.free c) go)
    (hnone : instanceRecord c.symbols node = none) :
    (abstractMember go shape places node).GrowsHeld c Held.none := by
  by_cases hkind : node.kind = .methodDeclaration
  · rw [abstractMember_of_method hkind]
    refine growsHeld_recorded fun record hfind => ?_
    rw [if_pos (isStatic_of_instanceRecord_eq_none hkind hfind hnone)]
    exact (still_addLowered _).growsHeld _
  · unfold abstractMember
    split
    · exact absurd ‹_› hkind
    · trivial
    · exact (still_addLowered _).growsHeld _
    · trivial
    · split
      · exact (hgo node (.free c node) _).growsHeld
      · trivial

lemma exists_lists_of_abstractMember (hgo : ConvertsTypes (.free c) go)
    (hbody : call.body = ⟨Unit, abstractMember go shape places call.node⟩)
    (hreturned : call.Returned c) :
    ∃ specs, Draft.Lists places.interface specs call.before (call.after c)
      ∧ specs.map MethodSpec.name
        = ((instanceRecord c.symbols call.node).map (c.symbols.emittedName true)).toList := by
  refine exists_lists_of_record (fun hnone => ?_) fun record hrecord => ?_
  · rw [hbody]
    exact growsHeld_abstractMember_of_none hgo hnone
  · obtain ⟨d', hrun, hafter⟩ := exists_of_listed hbody hreturned hrecord
    have hlisted := lists_grow call.before.openMember places.interface (listedSpec c record)
    have hdefault : Draft.Lists places.interface [] _ d' :=
      lists_of_growsHeld (still_addDefaultBody.growsHeld Held.none) id hrun
    exact Call.lists_of_run (hlisted.trans hdefault) hafter

end

variable {shape : InterfaceShape} {call : Call}

/-- The method of a Go interface that a member of an interface becomes. -/
def signatureRecord (s : Symbols) (m : Node) : Option MethodRecord :=
  if (m.fieldChild? "body").isNone then instanceRecord s m else none

lemma growsHeld_interfaceMember_of_none (hgo : ConvertsTypes (.free c) go)
    (hnone : signatureRecord c.symbols node = none) :
    (interfaceMember go shape place node).GrowsHeld c Held.none := by
  unfold interfaceMember
  split
  · next hkind =>
      refine growsHeld_recorded fun record hfind => ?_
      split
      · exact (still_addLowered _).growsHeld _
      · next hinstance =>
          split
          · next hbody =>
              rw [signatureRecord, if_pos hbody] at hnone
              exact absurd (isStatic_of_instanceRecord_eq_none hkind hfind hnone) hinstance
          · exact still_addDefaultMethod.growsHeld _
  · exact (conforms_constantFields (T := .free c) node).growsHeld
  · exact (conforms_constantFields (T := .free c) node).growsHeld
  · trivial
  · split
    · exact (hgo node (.free c node) _).growsHeld
    · trivial

lemma exists_lists_of_interfaceMember (hgo : ConvertsTypes (.free c) go)
    (hbody : call.body = ⟨Unit, interfaceMember go shape place call.node⟩)
    (hreturned : call.Returned c) :
    ∃ specs, Draft.Lists place specs call.before (call.after c)
      ∧ specs.map MethodSpec.name
        = ((signatureRecord c.symbols call.node).map (c.symbols.emittedName true)).toList := by
  refine exists_lists_of_record (fun hnone => ?_) fun record hrecord => ?_
  · rw [hbody]
    exact growsHeld_interfaceMember_of_none hgo hnone
  · obtain ⟨u, d', hrun, hafter⟩ := hreturned.exists_run hbody
    unfold signatureRecord at hrecord
    split at hrecord
    · next hbodiless =>
        obtain ⟨hkind, hfind, hinstance⟩ := instanceRecord_eq_some_iff.1 hrecord
        simp only [interfaceMember, hkind] at hrun
        rw [(listedAs_of_record hfind hinstance).interface rfl
          (Option.isNone_iff_eq_none.1 hbodiless)] at hrun
        cases hrun
        exact Call.lists_of_run (lists_grow _ place _) hafter
    · cases hrecord

def emptyInterface (shape : InterfaceShape) (embeds : List String) : Code.Interface :=
  { name := shape.name, embeds := embeds, isPublic := true, typeParams := shape.typeParams }

lemma exists_of_interface (h : (interface go node).runAt .tolerant c d = (.ok (), d'))
    (hshape : InterfaceShape.ofNode c.symbols node = .ok shape) :
    ∃ embeds,
      Call.Linked c (d.add .interfaces [.interface (emptyInterface shape embeds)])
          ((interface go node).ownCalls c d) d'
        ∧ List.Forall₂ (Converts (interfaceMember go shape (d.count .interfaces)))
          node.bodyMembers ((interface go node).ownCalls c d) := by
  unfold interface at h ⊢
  rw [runAt_shaped hshape] at h
  obtain ⟨embeds, d₂, hembeds, hfrom₂⟩ := exists_of_bind h
  have hlift := hembeds
  rw [runAt_lift] at hlift
  cases (Prod.mk.inj hlift).2
  obtain ⟨place, d₃, hput, hfrom₃⟩ := exists_of_bind hfrom₂
  have hplace := hput
  cases hplace
  obtain ⟨results, d₄, hmembers, ⟨⟩⟩ := exists_of_bind hfrom₃
  rw [ownCalls_shaped hshape, ownCalls_bind hembeds, ownCalls_bind hput, ownCalls_bind hmembers]
  simp only [ownCalls_lift, ownCalls_pure, append_nil]
  exact ⟨embeds, linked_eachMember hmembers⟩

lemma exists_listed_of_interface (hgo : ConvertsTypes (.free c) go)
    (hbody : call.body = ⟨Unit, interface go call.node⟩)
    (hshape : InterfaceShape.ofNode c.symbols call.node = .ok shape)
    (hreturned : call.Returned c) (hown : ∀ k ∈ call.own c, k.Returned c) :
    ∃ i : Code.Interface, i.name = shape.name
      ∧ ((call.after c).standing .interfaces)[call.before.count .interfaces]? = some (.interface i)
      ∧ i.methods.map MethodSpec.name
          = (call.node.bodyMembers.filterMap (signatureRecord c.symbols)).map
            (c.symbols.emittedName true) := by
  obtain ⟨u, d', hrun, hafter⟩ := hreturned.exists_run hbody
  obtain ⟨embeds, hlinked, hconverts⟩ := exists_of_interface hrun hshape
  rw [Call.own_of_body hbody] at hown
  obtain ⟨specs, hspecs, hnames⟩ := hlinked.exists_lists fun k hk =>
    exists_lists_of_interfaceMember hgo (Converts.body_of_mem hconverts hk) (hown k hk)
  have hfirst : ((call.before.openMember.add .interfaces
      [.interface (emptyInterface shape embeds)]).standing .interfaces)[
        call.before.count .interfaces]? = some (.interface (emptyInterface shape embeds)) := by
    rw [standing_add_eq_append, if_pos rfl, standing_openMember,
      ← length_standing, getElem?_concat_length]
  refine ⟨_, ?_, (hafter .interfaces ▸ hspecs _ hfirst), ?_⟩
  · rfl
  · rw [← Converts.map_node hconverts, filterMap_map, map_filterMap]
    exact hnames.trans (filterMap_eq_flatMap_toList _ _).symm

end Build

/-- The call converts an interface of this shape. -/
structure Call.DeclaresInterface (c : Context) (call : Call) (shape : InterfaceShape) : Prop
    extends call.Declares .interfaceDeclaration where
  shape : InterfaceShape.ofNode c.symbols call.node = .ok shape

lemma Call.DeclaresInterface.exists_interface {c : Context} {call : Call}
    {shape : InterfaceShape} (h : call.DeclaresInterface c shape) (hreturned : call.Returned c) :
    ∃ height, call.body
      = ⟨Unit, Build.interface (Build.typeDeclarationWithin height) call.node⟩ := by
  simpa [Build.typeDeclarationStep, h.kind] using hreturned.exists_step h.body

lemma mem_group_of_kept (hkept : call ∈ unit.keptCalls)
    (hdecl : decl ∈ call.added unit.context g) :
    decl ∈ (convert .tolerant unit).draft.file.group g :=
  mem_of_mem_drop ((added_isPrefix_convert hkept g).subset hdecl)

lemma mem_file_of_added (hclean : (convert .tolerant unit).draft.diagnostics = [])
    (hcall : call ∈ unit.calls) (hdecl : decl ∈ call.added unit.context g) :
    decl ∈ (convert .tolerant unit).draft.file.group g :=
  mem_group_of_kept (keptCalls_eq hclean ▸ hcall) hdecl

lemma getElem?_file_of_call (hclean : (convert .tolerant unit).draft.diagnostics = [])
    (hcall : call ∈ unit.calls) (hp : call.before.count g ≤ p)
    (hdecl : ((call.after unit.context).standing g)[p]? = some decl) :
    ((convert .tolerant unit).draft.file.group g)[p]? = some decl := by
  rw [← keptCalls_eq hclean] at hcall
  obtain ⟨after, hafter⟩ := added_isPrefix_convert hcall g
  have hadded : (call.added unit.context g)[p - call.before.count g]? = some decl := by
    rw [Call.added, getElem?_drop, Nat.add_sub_cancel' hp, hdecl]
  have hbound := (List.getElem?_eq_some_iff.1 hadded).1
  have hdrop : (call.added unit.context g ++ after)[p - call.before.count g]? = some decl := by
    rw [getElem?_append_left hbound, hadded]
  rwa [hafter, getElem?_drop, Nat.add_sub_cancel' hp] at hdrop

end JavaToGo
