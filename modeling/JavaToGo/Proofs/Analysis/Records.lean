import JavaToGo.Proofs.Analysis.Frames
import JavaToGo.Proofs.Declaration.Ancestry

/-!
# Records and refusals

A tolerant pass records a declaration or files its refusal, never both and never
neither.
-/

namespace JavaToGo

open JavaToGo.Tree (Node)
open List Symbols Table

namespace Table

variable {κ ν : Type} [DecidableEq κ] (t : Table κ ν)

lemma mem_keys_insert (v : ν) : l ∈ (t.insert k v).keys ↔ l ∈ t.keys ∨ l = k := by
  by_cases h : k ∈ t.keys
  · rw [keys_insert_of_mem t v h]
    constructor
    · exact .inl
    · rintro (hl | rfl)
      · exact hl
      · exact h
  · rw [keys_insert_of_not_mem t v h, mem_append, mem_singleton]

lemma isSome_find?_iff : (t.find? k).isSome ↔ k ∈ t.keys := by
  constructor
  · intro h
    obtain ⟨v, hv⟩ := Option.isSome_iff_exists.1 h
    exact mem_keys_of_find? hv
  · intro h
    obtain ⟨entries⟩ := t
    induction entries with
    | nil => cases h
    | cons e entries ih =>
      change (findIn k (e :: entries)).isSome
      rw [findIn]
      split
      · rfl
      · rename_i hne
        rcases mem_cons.1 h with heq | hmem
        · exact absurd heq.symm hne
        · exact ih hmem

lemma mem_keys_insertNew (v : ν) : l ∈ (t.insertNew k v).keys ↔ l ∈ t.keys ∨ l = k := by
  unfold insertNew contains
  split
  · rename_i h
    constructor
    · exact .inl
    · rintro (hl | rfl)
      · exact hl
      · exact (isSome_find?_iff t).1 h
  · exact mem_keys_insert t v

end Table

namespace Analysis

variable {ν : Type} {table : Symbols → Table Nat ν}

/-- How a step ends: it writes an entry for a key when it returns, and none when it fails. -/
inductive Files (table : Symbols → Table Nat ν) (key : Nat) (s : Symbols) :
    Except Failure Unit → Symbols → Prop
  | entry (v : ν) {s' : Symbols} (h : table s' = (table s).insert key v) :
      Files table key s (.ok ()) s'
  | none (failure : Failure) {s' : Symbols} (h : table s' = table s) :
      Files table key s (.error failure) s'

section

variable (c : AnalysisContext) (s : Findings) (node : Node)

lemma files_recordMethod : Ends c s (Files methodRecords node.id s.symbols) (recordMethod node) :=
  ends_recordMethod (fun failure _ => .none failure rfl)
    (fun failure _ _ _ _ _ => .none failure rfl) fun _ _ _ _ _ => .entry _ rfl

lemma files_recordConstructor :
    Ends c s (Files constructorRecords node.id s.symbols) (recordConstructor node) :=
  ends_recordConstructor (fun failure _ => .none failure rfl)
    fun _ _ _ _ _ _ _ _ _ _ _ _ => .entry _ rfl

lemma files_recordCanonicalConstructor :
    Ends c s (Files constructorRecords (canonicalNode node).id s.symbols)
      (recordCanonicalConstructor node) :=
  ends_recordCanonicalConstructor (fun failure _ => .none failure rfl)
    fun _ _ _ _ _ _ _ _ _ _ => .entry _ rfl

end

section

variable {c : AnalysisContext} {step : Node → Analysis Unit}

/-- The step can fail for the node with a refusal. -/
def Refuses (c : AnalysisContext) (step : Node → Analysis Unit) (node : Node) : Prop :=
  ∃ s r s', (step node).runFrom c s = (.error (.refusal r), s')

/-- How a pass that returned has treated the declarations. -/
structure Split (c : AnalysisContext) (step : Node → Analysis Unit)
    (table : Symbols → Table Nat ν) (key : Node → Nat) (nodes kept refused : List Node)
    (s s' : Findings) : Prop where
  perm : (kept ++ refused).Perm nodes
  records : ∀ k, k ∈ (table s'.symbols).keys ↔ k ∈ (table s.symbols).keys ∨ k ∈ kept.map key
  failures : ∀ k, k ∈ s'.symbols.failures.keys
    ↔ k ∈ s.symbols.failures.keys ∨ k ∈ refused.map Node.id
  refuses : ∀ n ∈ refused, Refuses c step n

variable {key : Node → Nat}

lemma exists_split_of_forEach (hfiles : ∀ c s n, Ends c s (Files table (key n) s.symbols) (step n))
    (hkeeps : ∀ n, Preserves failures (step n))
    (hrefusal : ∀ s failures, table { s with failures := failures } = table s) :
    ∀ {nodes : List Node} {s s' : Findings},
      (forEach .tolerant step nodes).runFrom c s = (.ok (), s') →
        ∃ kept refused, Split c step table key nodes kept refused s s'
  | [], s, s', hrun => by
    cases hrun
    exact ⟨[], [], List.Perm.refl _, by simp, by simp, by simp⟩
  | n :: nodes, s, s', hrun => by
    have hkeep := (hkeeps n c s).2
    rw [forEach, runFrom_bind, runFrom_guarded] at hrun
    rcases hstep : (step n).runFrom c s with ⟨outcome, s₁⟩
    rw [hstep] at hrun hkeep
    rcases outcome with (r | f) | a
    · -- A refusal is filed, and the entries stay.
      obtain _ | ⟨_, htable⟩ := (hfiles c s n).of_run hstep
      obtain ⟨kept, refused, h⟩ := exists_split_of_forEach hfiles hkeeps hrefusal hrun
      refine ⟨kept, n :: refused, ?_, fun k => ?_, fun k => ?_, ?_⟩
      · exact perm_middle.trans (h.perm.cons n)
      · rw [h.records k]
        rw [hrefusal, htable]
      · rw [h.failures k]
        rw [mem_keys_insertNew, hkeep, map_cons, mem_cons, or_assoc]
      · intro m hm
        rcases mem_cons.1 hm with rfl | hm
        · exact ⟨s, r, s₁, hstep⟩
        · exact h.refuses m hm
    · cases hrun
    · obtain ⟨v, hv⟩ := (hfiles c s n).of_run hstep
      obtain ⟨kept, refused, h⟩ := exists_split_of_forEach hfiles hkeeps hrefusal hrun
      refine ⟨n :: kept, refused, h.perm.cons n, fun k => ?_, fun k => ?_, h.refuses⟩
      · rw [h.records k, hv, mem_keys_insert, map_cons, mem_cons, or_assoc]
      · rw [h.failures k, hkeep]

lemma mem_failures_of_forEach (hkeeps : ∀ n, Preserves failures (step n)) :
    ∀ {nodes : List Node} {s s' : Findings},
      (forEach .tolerant step nodes).runFrom c s = (.ok (), s') →
        ∀ k ∈ s'.symbols.failures.keys, k ∈ s.symbols.failures.keys ∨ k ∈ nodes.map Node.id
  | [], s, s', hrun, k, hk => by
    cases hrun
    exact .inl hk
  | n :: nodes, s, s', hrun, k, hk => by
    have hkeep := (hkeeps n c s).2
    rw [forEach, runFrom_bind, runFrom_guarded] at hrun
    rcases hstep : (step n).runFrom c s with ⟨outcome, s₁⟩
    rw [hstep] at hrun hkeep
    rcases outcome with (r | f) | a
    · rcases mem_failures_of_forEach hkeeps hrun k hk with hk | hk
      · change k ∈ (s₁.symbols.failures.insertNew n.id _).keys at hk
        rw [mem_keys_insertNew, hkeep] at hk
        rcases hk with hk | rfl
        · exact .inl hk
        · exact .inr mem_cons_self
      · exact .inr (mem_cons_of_mem _ hk)
    · cases hrun
    · rcases mem_failures_of_forEach hkeeps hrun k hk with hk | hk
      · rw [hkeep] at hk
        exact .inl hk
      · exact .inr (mem_cons_of_mem _ hk)

end

/-- What the last three passes of a tolerant analysis have kept and refused. -/
structure Accounts (root : Node) (symbols : Symbols)
    (methods refusedMethods constructors refusedConstructors records refusedRecords : List Node) :
    Prop where
  methods_perm : (methods ++ refusedMethods).Perm (root.declarationsOf .methodDeclaration)
  constructors_perm :
    (constructors ++ refusedConstructors).Perm (root.declarationsOf .constructorDeclaration)
  records_perm : (records ++ refusedRecords).Perm
    (root.typeDeclarations.filter fun n => n.kind == .recordDeclaration)
  methodRecords : ∀ k, k ∈ symbols.methodRecords.keys ↔ k ∈ methods.map Node.id
  constructorRecords : ∀ k, k ∈ symbols.constructorRecords.keys
    ↔ k ∈ constructors.map Node.id ∨ k ∈ records.map fun n => (canonicalNode n).id
  filed : ∀ k, k ∈ refusedMethods.map Node.id ∨ k ∈ refusedConstructors.map Node.id →
    k ∈ symbols.failures.keys
  failures : ∀ k ∈ symbols.failures.keys, k ∈ root.typeDeclarations.map Node.id
    ∨ k ∈ refusedMethods.map Node.id ∨ k ∈ refusedConstructors.map Node.id

lemma exists_accounts_of_passes (h : Passes .tolerant c {} s₁ s₂ s₃ s₄ s₅) :
    ∃ methods refusedMethods constructors refusedConstructors records refusedRecords,
      Accounts c.unit.root s₅.symbols methods refusedMethods constructors refusedConstructors
        records refusedRecords
      ∧ ∀ n ∈ refusedRecords, Refuses c recordCanonicalConstructor n := by
  obtain ⟨methods, refusedMethods, h₃⟩ := exists_split_of_forEach files_recordMethod
    (preserves_recordMethod fun _ _ _ => rfl) (fun _ _ => rfl) h.methods
  obtain ⟨constructors, refusedConstructors, h₄⟩ := exists_split_of_forEach
    files_recordConstructor (preserves_recordConstructor fun _ _ _ => rfl) (fun _ _ => rfl)
    h.constructors
  obtain ⟨records, refusedRecords, h₅⟩ := exists_split_of_forEach
    files_recordCanonicalConstructor (preserves_recordCanonicalConstructor fun _ _ _ => rfl)
    (fun _ _ => rfl) h.canonicals
  have hnoMethods : s₂.symbols.methodRecords = ⟨[]⟩ := by
    rw [part_of_forEach methodRecords h.types (preserves_recordType fun _ _ _ _ => rfl)
        fun _ _ => rfl,
      part_of_forEach methodRecords h.abstracts (preserves_recordAbstract fun _ _ _ => rfl)
        fun _ _ => rfl]
  have hnoConstructors : s₃.symbols.constructorRecords = ⟨[]⟩ := h.constructors_eq.2
  have hmethods : s₅.symbols.methodRecords = s₃.symbols.methodRecords := by
    rw [part_of_forEach methodRecords h.canonicals
        (preserves_recordCanonicalConstructor fun _ _ _ => rfl) fun _ _ => rfl,
      part_of_forEach methodRecords h.constructors
        (preserves_recordConstructor fun _ _ _ => rfl) fun _ _ => rfl]
  have htypes : ∀ k ∈ s₂.symbols.failures.keys, k ∈ c.unit.root.typeDeclarations.map Node.id := by
    intro k hk
    rcases mem_failures_of_forEach (preserves_recordType fun _ _ _ _ => rfl) h.types k hk
      with hk | hk
    · rcases mem_failures_of_forEach (preserves_recordAbstract fun _ _ _ => rfl) h.abstracts k hk
        with hk | hk
      · cases hk
      · exact hk
    · exact hk
  refine ⟨methods, refusedMethods, constructors, refusedConstructors, records, refusedRecords,
    ⟨h₃.perm, h₄.perm, h₅.perm, fun k => ?_, fun k => ?_, fun k hk => ?_, fun k hk => ?_⟩,
    h₅.refuses⟩
  · rw [hmethods, h₃.records, hnoMethods]
    simp [Table.keys]
  · rw [h₅.records, h₄.records, hnoConstructors]
    simp [Table.keys]
  · rw [h₅.failures, h₄.failures, h₃.failures]
    tauto
  · rw [h₅.failures, h₄.failures, h₃.failures] at hk
    rcases hk with ((hk | hk) | hk) | hk
    · exact .inl (htypes k hk)
    · exact .inr (.inl hk)
    · exact .inr (.inr hk)
    · -- A record is a declaration of a type.
      obtain ⟨n, hn, rfl⟩ := mem_map.1 hk
      have hrecord := h₅.perm.subset (mem_append_right _ hn)
      exact .inl (mem_map_of_mem (mem_filter.1 hrecord).1)

lemma id_not_mem_of_kind {root n : Node} {nodes : List Node} (hnumbers : root.DistinctNumbers)
    (hn : n ∈ root.walk) (hnodes : ∀ m ∈ nodes, m ∈ root.walk ∧ m.kind ≠ n.kind) :
    n.id ∉ nodes.map Node.id := by
  intro hmem
  obtain ⟨m, hm, hid⟩ := mem_map.1 hmem
  obtain ⟨hwalk, hkind⟩ := hnodes m hm
  exact hkind (congrArg Node.kind (hnumbers.eq_of_id hwalk hn hid))

lemma mem_declarationsOf {root : Node} :
    n ∈ root.declarationsOf kind ↔ n ∈ root.walk ∧ n.kind = kind := by
  simp [Node.declarationsOf]

lemma nodup_declarationsOf {root : Node} (hnumbers : root.DistinctNumbers) (kind : Kind) :
    ((root.declarationsOf kind).map Node.id).Nodup :=
  hnumbers.sublist (filter_sublist.map Node.id)

lemma kind_canonicalNode {n : Node} (h : n.kind = .recordDeclaration) :
    (canonicalNode n).kind ≠ .constructorDeclaration := by
  unfold canonicalNode
  cases hcompact : (n.fieldChild? "body").bind (·.childOfKind? .compactConstructorDeclaration) with
  | none =>
    rw [Option.getD_none, h]
    decide
  | some compact =>
    obtain ⟨body, -, hfind⟩ := Option.bind_eq_some_iff.1 hcompact
    have hkind : compact.kind = .compactConstructorDeclaration := by
      simpa using find?_some hfind
    rw [Option.getD_some, hkind]
    decide

lemma canonicalNode_mem_walk {root : Node} (h : n ∈ root.walk) : canonicalNode n ∈ root.walk := by
  unfold canonicalNode
  cases hcompact : (n.fieldChild? "body").bind (·.childOfKind? .compactConstructorDeclaration) with
  | none => exact h
  | some compact =>
    obtain ⟨body, hbody, hfind⟩ := Option.bind_eq_some_iff.1 hcompact
    have hinner : compact ∈ body.walk :=
      Node.mem_walk_of_mem_children (Node.mem_children_of_childOfKind? hfind)
        (Node.mem_walk_self compact)
    have hbelow : compact ∈ n.walk :=
      Node.mem_walk_of_mem_children (Node.mem_children_of_fieldChild? hbody) hinner
    exact Node.mem_walk_trans hbelow h

variable {root : Node} {symbols : Symbols}
variable
  {methods refusedMethods constructors refusedConstructors records refusedRecords : List Node}

lemma kept_iff_not_refused {nodes kept refused : List Node} (hnodup : (nodes.map Node.id).Nodup)
    (hperm : (kept ++ refused).Perm nodes) {n : Node} (hn : n ∈ nodes) :
    n.id ∈ kept.map Node.id ↔ n.id ∉ refused.map Node.id := by
  have hboth : (kept.map Node.id ++ refused.map Node.id).Nodup := by
    rw [← map_append]
    exact (hperm.map Node.id).nodup_iff.2 hnodup
  constructor
  · intro hkept hrefused
    exact (nodup_append.1 hboth).2.2 _ hkept _ hrefused rfl
  · intro hrefused
    rcases mem_append.1 (hperm.symm.subset hn) with hmem | hmem
    · exact mem_map_of_mem hmem
    · exact absurd (mem_map_of_mem hmem) hrefused

variable (h : Accounts root symbols methods refusedMethods constructors refusedConstructors
  records refusedRecords) (hnumbers : root.DistinctNumbers) {n : Node} (hn : n ∈ root.walk)
include h hnumbers hn

lemma Accounts.mem_failures_iff (hkind : n.kind.isTypeDeclaration = false) :
    n.id ∈ symbols.failures.keys
      ↔ n.id ∈ refusedMethods.map Node.id ∨ n.id ∈ refusedConstructors.map Node.id := by
  constructor
  · intro hfailed
    rcases h.failures _ hfailed with htype | hmember
    · refine absurd htype (id_not_mem_of_kind hnumbers hn fun m hm => ?_)
      obtain ⟨hwalk, hdeclares⟩ := mem_filter.1 hm
      refine ⟨hwalk, ?_⟩
      intro heq
      rw [heq, hkind] at hdeclares
      cases hdeclares
    · exact hmember
  · exact h.filed _

lemma Accounts.method (hkind : n.kind = .methodDeclaration) :
    n.id ∈ symbols.methodRecords.keys ↔ n.id ∉ symbols.failures.keys := by
  have hother : n.id ∉ refusedConstructors.map Node.id := by
    refine id_not_mem_of_kind hnumbers hn fun m hm => ?_
    obtain ⟨hwalk, hm⟩ := mem_declarationsOf.1 (h.constructors_perm.subset (mem_append_right _ hm))
    rw [hm, hkind]
    exact ⟨hwalk, by decide⟩
  have hsplit := kept_iff_not_refused (nodup_declarationsOf hnumbers _) h.methods_perm
    (mem_declarationsOf.2 ⟨hn, hkind⟩)
  rw [h.methodRecords, hsplit, h.mem_failures_iff hnumbers hn (by rw [hkind]; rfl)]
  simp [hother]

lemma Accounts.constructor (hkind : n.kind = .constructorDeclaration) :
    n.id ∈ symbols.constructorRecords.keys ↔ n.id ∉ symbols.failures.keys := by
  have hother : n.id ∉ refusedMethods.map Node.id := by
    refine id_not_mem_of_kind hnumbers hn fun m hm => ?_
    obtain ⟨hwalk, hm⟩ := mem_declarationsOf.1 (h.methods_perm.subset (mem_append_right _ hm))
    rw [hm, hkind]
    exact ⟨hwalk, by decide⟩
  have hcanonical : n.id ∉ records.map fun m => (canonicalNode m).id := by
    rw [show (fun m => (canonicalNode m).id) = Node.id ∘ canonicalNode from rfl, ← map_map]
    refine id_not_mem_of_kind hnumbers hn fun m hm => ?_
    obtain ⟨record, hrecord, rfl⟩ := mem_map.1 hm
    obtain ⟨htype, hrecordKind⟩ := mem_filter.1 (h.records_perm.subset (mem_append_left _ hrecord))
    rw [hkind]
    exact ⟨canonicalNode_mem_walk (mem_filter.1 htype).1,
      kind_canonicalNode (by simpa using hrecordKind)⟩
  have hsplit := kept_iff_not_refused (nodup_declarationsOf hnumbers _) h.constructors_perm
    (mem_declarationsOf.2 ⟨hn, hkind⟩)
  rw [h.constructorRecords, or_iff_left hcanonical, hsplit,
    h.mem_failures_iff hnumbers hn (by rw [hkind]; rfl)]
  simp [hother]

end Analysis
end JavaToGo
