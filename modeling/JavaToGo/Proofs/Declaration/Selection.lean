import JavaToGo.Proofs.Analysis.Layouts
import JavaToGo.Proofs.Declaration.MethodClashes

/-!
# Which method a selector denotes

Go looks for a method level by level.  The first level that has one of the name is
taken, and only one type on it may have it.
-/

namespace JavaToGo

open List

/-- The first level with the method, and the types on it that have it. -/
def selected (has : String → Bool) : List (List String) → Option (Nat × List String)
  | [] => none
  | level :: deeper =>
    if level.any has then some (0, level.filter has)
    else (selected has deeper).map fun found => (found.1 + 1, found.2)

lemma selected_eq_some_iff {has : String → Bool} :
    selected has levels = some (depth, types) ↔
      ∃ level, levels[depth]? = some level ∧ level.any has = true ∧ level.filter has = types
        ∧ ∀ l ∈ levels.take depth, l.any has = false := by
  induction levels generalizing depth with
  | nil => simp [selected]
  | cons level deeper ih =>
    rw [selected]
    cases hlevel : level.any has with
    | true =>
      cases depth with
      | zero => simp [hlevel, -any_eq_true]
      | succ depth => simp [hlevel, -any_eq_false]
    | false =>
      cases depth with
      | zero => simp [hlevel, -any_eq_true]
      | succ depth => simp [hlevel, ih, -any_eq_false]

def hasMethod (methods : List Decl) (name receiverType : String) : Bool :=
  (methodsOf receiverType methods).any fun f => f.name == name

lemma mem_methodsOf (hmem : .function f ∈ decls)
    (hreceiver : f.receiver.map Code.Param.type = some receiverType) :
    f ∈ methodsOf receiverType decls :=
  mem_filterMap.2 ⟨_, hmem, if_pos hreceiver⟩

lemma hasMethod_of_mem (h : f ∈ methodsOf receiverType decls) :
    hasMethod decls f.name receiverType = true :=
  any_eq_true.2 ⟨f, h, by simp⟩

section

/-- What the struct of an abstract class embeds. -/
def Layout.embeds (s : Symbols) (layout : Layout) : List String :=
  match layout.superclass.filter s.layouts.contains with
  | some superclass => [superclass ++ "Base", superclass ++ "Methods"]
  | none => layout.superclass.toList

lemma AbstractShape.embeds_layout (s : Symbols) (shape : AbstractShape) :
    shape.layout.embeds s = shape.baseEmbeds s ++ shape.methodsEmbeds s := by
  unfold Layout.embeds baseEmbeds methodsEmbeds abstractSuperclass
  cases shape.layout.superclass.filter s.layouts.contains with
  | none => simp
  | some => rfl

/-- The types that a selector on an instance of a class can reach, level by level: the struct, what
it embeds, and what the structs of the abstract classes above it embed. -/
def ClassShape.levels (s : Symbols) (shape : ClassShape) : List (List String) :=
  ["*" ++ shape.structType] ::
    (shape.embeds :: shape.ancestry.map (Layout.embeds s)).map (List.map ("*" ++ ·))

variable {s : Symbols} {shape : ClassShape}

lemma ClassShape.getElem?_levels (hnames : Analysis.NamesLayouts s.layouts)
    (hancestry : shape.ancestry = s.ancestry shape.superclass)
    (hlayout : shape.ancestry[depth]? = some layout) :
    (shape.levels s)[depth + 1]?
      = some ["*" ++ (layout.name ++ "Base"), "*" ++ (layout.name ++ "Methods")] := by
  cases depth with
  | zero =>
    cases hlist : shape.ancestry with
    | nil => simp [hlist] at hlayout
    | cons first rest =>
      rw [hlist] at hlayout
      cases hlayout
      simp [levels, embeds, hlist]
  | succ depth =>
    obtain ⟨below, hbelow⟩ : ∃ below, shape.ancestry[depth]? = some below := by
      have hbound := (List.getElem?_eq_some_iff.1 hlayout).1
      exact ⟨_, getElem?_eq_getElem (Nat.lt_of_succ_lt hbound)⟩
    have hembeds : below.embeds s = [layout.name ++ "Base", layout.name ++ "Methods"] := by
      obtain ⟨names, last, hwalk, -⟩ := exists_walk_ancestry s shape.superclass
      rw [← hancestry] at hwalk
      obtain ⟨name, hsuper, hfind⟩ := hwalk.find?_next hbelow hlayout
      have hname := hnames name layout hfind
      simp [Layout.embeds, hsuper, Option.filter, Table.contains, hfind, hname]
    simp [levels, hbelow, hembeds]

lemma selected_base_iff {has : String → Bool} (hnames : Analysis.NamesLayouts s.layouts)
    (hancestry : shape.ancestry = s.ancestry shape.superclass)
    (hlayout : shape.ancestry[depth]? = some layout)
    (hbase : has ("*" ++ (layout.name ++ "Base")) = true) :
    selected has (shape.levels s) = some (depth + 1, ["*" ++ (layout.name ++ "Base")]) ↔
      (∀ level ∈ (shape.levels s).take (depth + 1), level.any has = false)
        ∧ has ("*" ++ (layout.name ++ "Methods")) = false := by
  rw [selected_eq_some_iff, shape.getElem?_levels hnames hancestry hlayout]
  cases hmethods : has ("*" ++ (layout.name ++ "Methods")) with
  | true | false => simp [hbase, hmethods]

end

variable {unit : CompilationUnit} {call : Call}

lemma namesLayouts_context (hcall : call ∈ unit.calls) :
    Analysis.NamesLayouts unit.context.symbols.layouts := by
  obtain ⟨findings, hanalyze, hcontext, -⟩ := exists_analyze_of_mem_calls hcall
  obtain ⟨s₁, s₂, s₃, s₄, s₅, hpasses, hsymbols⟩ := Analysis.exists_passes_of_wholeUnit hanalyze
  have hnames := Analysis.namesLayouts_of_passes hpasses
  rw [← hsymbols] at hnames
  rw [hcontext]
  exact hnames

lemma Call.DeclaresClass.ancestry_eq {c : Context} {shape : ClassShape}
    (h : call.DeclaresClass c shape) : shape.ancestry = c.symbols.ancestry shape.superclass :=
  (Build.eq_of_ofNode h.shape).2

end JavaToGo
