import JavaToGo.Declaration.Class
import JavaToGo.Proofs.Lowering.Result

/-!
# The abstract classes above a class

The table may close a chain of superclasses into a cycle; a shape is then above
itself.  A walk that passes no name twice is bounded by the size of the table,
and where it ends at a name that it has passed, it has found all that is above.
-/

namespace JavaToGo

open List Table

section

variable (layouts : Table String Layout)

/-- A shape that is reached from a superclass, itself or along superclasses. -/
inductive Above : Option String → Layout → Prop
  | here {name : String} {layout : Layout} (hfind : layouts.find? name = some layout) :
      Above (some name) layout
  | up {name : String} {layout above : Layout} (hfind : layouts.find? name = some layout)
      (habove : Above layout.superclass above) : Above (some name) above

variable {layouts}
variable {layout : Layout}

lemma Above.exists_find? (h : Above layouts superclass layout) :
    ∃ name, layouts.find? name = some layout := by
  induction h with
  | here hfind => exact ⟨_, hfind⟩
  | up _ _ ih => exact ih

variable (layouts) in
/-- A walk up from a superclass, with the names that it passes, the shapes that it finds there and
the superclass that it ends at. -/
inductive Walk : Option String → List String → List Layout → Option String → Prop
  | stop (start : Option String) : Walk start [] [] start
  | up {name : String} {layout : Layout} {names : List String} {found : List Layout}
      {last : Option String} (hfind : layouts.find? name = some layout)
      (hrest : Walk layout.superclass names found last) :
      Walk (some name) (name :: names) (layout :: found) last

variable {start last : Option String} {names : List String} {found : List Layout}

section

variable (h : Walk layouts start names found last)
include h

lemma Walk.above (hmem : layout ∈ found) : Above layouts start layout := by
  induction h with
  | stop => cases hmem
  | up hfind _ ih =>
    rcases mem_cons.1 hmem with rfl | hrest
    · exact .here hfind
    · exact .up hfind (ih hrest)

/-- Where a walk begins, it ends or passes on. -/
lemma Walk.start_mem : start = last ∨ ∃ name ∈ names, start = some name := by
  cases h with
  | stop => exact .inl rfl
  | up => exact .inr ⟨_, mem_cons_self, rfl⟩

lemma Walk.exists_of_mem (hname : name ∈ names) :
    ∃ layout ∈ found, layouts.find? name = some layout
      ∧ (layout.superclass = last ∨ ∃ name ∈ names, layout.superclass = some name) := by
  induction h with
  | stop => cases hname
  | @up first layout _ _ _ hfind hrest ih =>
    rcases mem_cons.1 hname with rfl | hname
    · refine ⟨layout, mem_cons_self, hfind, hrest.start_mem.imp_right ?_⟩
      exact fun ⟨next, hnext, hsuper⟩ => ⟨next, mem_cons_of_mem _ hnext, hsuper⟩
    · obtain ⟨layout, hlayout, hfind, hsuper⟩ := ih hname
      refine ⟨layout, mem_cons_of_mem _ hlayout, hfind, hsuper.imp_right ?_⟩
      exact fun ⟨next, hnext, hsuper⟩ => ⟨next, mem_cons_of_mem _ hnext, hsuper⟩

lemma Walk.mem_of_above
    (hends : ∀ name, last = some name → layouts.find? name ≠ none → name ∈ names)
    (habove : Above layouts x layout) (hx : x = last ∨ ∃ name ∈ names, x = some name) :
    layout ∈ found := by
  -- A walk that ends at a name it has passed leads from what it has found to that only.
  have hstep : ∀ {name layout}, some name = last ∨ (∃ n ∈ names, some name = some n) →
      layouts.find? name = some layout →
      layout ∈ found ∧ (layout.superclass = last ∨ ∃ n ∈ names, layout.superclass = some n) := by
    intro name layout hname hfind
    have hmem : name ∈ names := by
      rcases hname with hlast | ⟨n, hn, ⟨⟩⟩
      · exact hends name hlast.symm (by rw [hfind]; rintro ⟨⟩)
      · exact hn
    obtain ⟨layout', hlayout', hfind', hsuper⟩ := h.exists_of_mem hmem
    cases hfind.symm.trans hfind'
    exact ⟨hlayout', hsuper⟩
  induction habove with
  | here hfind => exact (hstep hx hfind).1
  | up hfind _ ih => exact ih (hstep hx hfind).2

lemma Walk.find?_next
    (hlayout : found[depth]? = some layout) (hnext : found[depth + 1]? = some upper) :
    ∃ name, layout.superclass = some name ∧ layouts.find? name = some upper := by
  induction h generalizing depth with
  | stop => cases hlayout
  | up _ hrest ih =>
    cases depth with
    | succ depth => exact ih hlayout hnext
    | zero =>
      cases hlayout
      generalize layout.superclass = start at hrest
      cases hrest with
      | stop => cases hnext
      | up hfind' _ =>
        cases hnext
        exact ⟨_, rfl, hfind'⟩

end

variable {seen : List String}

section

variable {κ ν : Type} [DecidableEq κ] {t : Table κ ν} {k : κ} {v : ν} (h : t.find? k = some v)
include h

lemma mem_entries_of_find? : (k, v) ∈ t.entries := by
  obtain ⟨entries⟩ := t
  simp only [Table.find?] at h ⊢
  induction entries with
  | nil => cases h
  | cons e entries ih =>
    rw [Table.findIn] at h
    split at h
    · rename_i hkey
      cases h
      rw [← hkey]
      exact mem_cons_self
    · exact mem_cons_of_mem _ (ih h)

lemma mem_keys_of_find? : k ∈ t.keys :=
  mem_map_of_mem (mem_entries_of_find? h)

end

/-- The bound of a walk does not cut it: each step passes a new name of the table. -/
lemma mem_seen_of_full (hnodup : seen.Nodup) (hkeys : ∀ name ∈ seen, name ∈ layouts.keys)
    (hfull : layouts.size ≤ seen.length) (hfind : layouts.find? name = some layout) :
    name ∈ seen := by
  apply Classical.byContradiction
  intro hnew
  have hmore : (name :: seen).Nodup := nodup_cons.2 ⟨hnew, hnodup⟩
  have hsub : name :: seen ⊆ layouts.keys := by
    intro other hother
    rcases mem_cons.1 hother with rfl | hother
    · exact mem_keys_of_find? hfind
    · exact hkeys other hother
  have hle := hmore.length_le_of_subset hsub
  have hsize : layouts.keys.length = layouts.size := by simp [Table.keys, size]
  rw [length_cons] at hle
  omega

/-- A walk within its bound stops for want of a further shape, or at a name that it has seen. -/
lemma exists_walk (hnodup : seen.Nodup) (hkeys : ∀ name ∈ seen, name ∈ layouts.keys)
    (hbound : layouts.size ≤ bound + seen.length) (start : Option String) :
    ∃ names last, Walk layouts start names (ancestryWithin layouts bound seen start) last
      ∧ names.Nodup ∧ (∀ name ∈ names, name ∉ seen)
      ∧ ∀ name, last = some name → layouts.find? name ≠ none → name ∈ names ∨ name ∈ seen := by
  have hnone : ∀ name ∈ ([] : List String), name ∉ seen := by rintro _ ⟨⟩
  induction bound generalizing seen start with
  | zero =>
    refine ⟨[], start, .stop start, nodup_nil, hnone, fun name _ hfind => .inr ?_⟩
    obtain ⟨layout, hfind⟩ := Option.ne_none_iff_exists'.1 hfind
    exact mem_seen_of_full hnodup hkeys (by rwa [Nat.zero_add] at hbound) hfind
  | succ bound ih =>
    cases start with
    | none => exact ⟨[], none, .stop none, nodup_nil, hnone, by rintro name ⟨⟩⟩
    | some name =>
      rw [ancestryWithin]
      by_cases hseen : name ∈ seen
      · rw [if_pos hseen]
        refine ⟨[], some name, .stop _, nodup_nil, hnone, ?_⟩
        rintro _ ⟨⟩ -
        exact .inr hseen
      rw [if_neg hseen]
      cases hfind : layouts.find? name with
      | none =>
        refine ⟨[], some name, .stop _, nodup_nil, hnone, ?_⟩
        rintro _ ⟨⟩ hne
        exact absurd hfind hne
      | some layout =>
        obtain ⟨names, last, hwalk, hdistinct, hfresh, hends⟩ :=
          ih (nodup_cons.2 ⟨hseen, hnodup⟩) (forall_mem_cons.2 ⟨mem_keys_of_find? hfind, hkeys⟩)
            (by rw [length_cons]; omega) layout.superclass (by rintro _ ⟨⟩)
        have hnew : name ∉ names := fun hmem => hfresh name hmem mem_cons_self
        refine ⟨name :: names, last, .up hfind hwalk, nodup_cons.2 ⟨hnew, hdistinct⟩,
          forall_mem_cons.2 ⟨hseen, fun n hn hs => hfresh n hn (mem_cons_of_mem _ hs)⟩, ?_⟩
        simpa [or_assoc, or_left_comm] using hends

lemma exists_walk_ancestry (s : Symbols) (superclass : Option String) :
    ∃ names last, Walk s.layouts superclass names (s.ancestry superclass) last ∧ names.Nodup
      ∧ ∀ name, last = some name → s.layouts.find? name ≠ none → name ∈ names := by
  obtain ⟨names, last, hwalk, hnodup, -, hends⟩ :=
    exists_walk nodup_nil (by rintro _ ⟨⟩) (Nat.le_refl s.layouts.size) superclass
  exact ⟨names, last, hwalk, hnodup, by simpa using hends⟩

/-- A walk that ends for want of a new shape goes as far as any walk with distinct names. -/
lemma Walk.isPrefix (h : Walk layouts start names found last) (passed : List String)
    (hends : ∀ name, last = some name → layouts.find? name ≠ none → name ∈ passed ++ names)
    (h' : Walk layouts start names' found' last') (hnodup : (passed ++ names').Nodup) :
    found' <+: found := by
  induction h generalizing passed names' found' with
  | stop =>
    cases h' with
    | stop => exact prefix_rfl
    | up hfind =>
      have hmem := hends _ rfl (by rw [hfind]; rintro ⟨⟩)
      rw [append_nil] at hmem
      exact absurd rfl ((nodup_append.1 hnodup).2.2 _ hmem _ mem_cons_self)
  | @up name layout names _ _ hfind _ ih =>
    cases h' with
    | stop => exact nil_prefix
    | @up _ _ names' found' _ hfind' hrest =>
      cases hfind.symm.trans hfind'
      refine (prefix_cons_inj layout).2 (ih (passed ++ [name]) ?_ hrest ?_)
      · simpa using hends
      · simpa using hnodup

lemma mem_ancestry_iff {s : Symbols} :
    layout ∈ s.ancestry superclass ↔ Above s.layouts superclass layout := by
  obtain ⟨names, last, hwalk, -, hends⟩ := exists_walk_ancestry s superclass
  exact ⟨hwalk.above, fun habove => hwalk.mem_of_above hends habove hwalk.start_mem⟩

/-- The shapes above a class are found on a walk up from its superclass.  It passes no name twice
and ends where there is no further superclass, one that the table lacks or one that it has passed;
so no walk with distinct names goes further. -/
theorem ancestry_maximal (s : Symbols) (superclass : Option String) :
    ∃ names last, Walk s.layouts superclass names (s.ancestry superclass) last ∧ names.Nodup
      ∧ (∀ name, last = some name → s.layouts.find? name = none ∨ name ∈ names)
      ∧ ∀ names' found last', Walk s.layouts superclass names' found last' → names'.Nodup →
          found <+: s.ancestry superclass := by
  obtain ⟨names, last, hwalk, hnodup, hends⟩ := exists_walk_ancestry s superclass
  refine ⟨names, last, hwalk, hnodup, fun name hlast => ?_, fun names' found last' hwalk' hnodup' =>
    hwalk.isPrefix [] hends hwalk' hnodup'⟩
  exact Classical.or_iff_not_imp_left.2 (hends name hlast)

end

namespace Build

lemma eq_of_ofNode {c : TypeContext} (h : ClassShape.ofNode c node = .ok shape) :
    shape.node = node ∧ shape.ancestry = c.symbols.ancestry shape.superclass := by
  simp only [ClassShape.ofNode, Outcome.bind_eq_ok] at h
  obtain ⟨javaName, -, declared, -, superclass, -, ⟨⟩⟩ := h
  exact ⟨rfl, rfl⟩

end Build

end JavaToGo
