import JavaToGo.Proofs.Code.Balance

/-!
# Generated files are balanced
-/

namespace JavaToGo.Code

open Text List

def Param.leaves (p : Param) : List (Option String) :=
  [some p.name, some p.type]

def Field.leaves (f : Field) : List (Option String) :=
  [some f.name, some f.type]

def Struct.leaves (s : Struct) : List (Option String) :=
  some s.name :: s.fields.flatMap Field.leaves ++ s.embeds.map some ++ s.typeParams.map some
    ++ s.comments.map some

def NamedType.leaves (t : NamedType) : List (Option String) :=
  [some t.name, some t.type]

def MethodSpec.leaves (m : MethodSpec) : List (Option String) :=
  some m.name :: m.params.flatMap Param.leaves ++ optionLeaves m.result

def Interface.leaves (i : Interface) : List (Option String) :=
  some i.name :: i.methods.flatMap MethodSpec.leaves ++ i.embeds.map some ++ i.typeParams.map some

def Function.leaves (f : Function) : List (Option String) :=
  some f.name :: f.params.flatMap Param.leaves ++ optionLeaves f.result ++ Stmt.leavesAll f.body
    ++ f.comments.map some ++ f.typeParams.map some ++ f.receiver.toList.flatMap Param.leaves

def ModuleVar.leaves (v : ModuleVar) : List (Option String) :=
  some v.name :: optionLeaves v.type ++ Stmt.valueLeaves v.value ++ v.comments.map some

def ModuleConst.leaves (c : ModuleConst) : List (Option String) :=
  some c.name :: c.value.leaves ++ optionLeaves c.type

def ConstEntry.leaves (c : ConstEntry) : List (Option String) :=
  some c.name :: optionLeaves c.type ++ Stmt.valueLeaves c.value

def ConstBlock.leaves (b : ConstBlock) : List (Option String) :=
  b.entries.flatMap ConstEntry.leaves

def Import.leaves (i : Import) : List (Option String) :=
  some i.path :: optionLeaves i.localName

def FailedMember.leaves (f : FailedMember) : List (Option String) :=
  [some f.location, some f.error, some f.source, some f.sexpr]

def Decl.leaves : Decl → List (Option String)
  | .interface i => i.leaves
  | .struct s => s.leaves
  | .named t => t.leaves
  | .constBlock b => b.leaves
  | .const c => c.leaves
  | .var v => v.leaves
  | .function f => f.leaves
  | .failed f => f.leaves

def SourceFile.leaves (file : SourceFile) : List (Option String) :=
  some file.packageName :: file.imports.flatMap Import.leaves ++ file.decls.flatMap Decl.leaves

lemma Param.balanced_text {p : Param} (h : Filled p.leaves) : Balanced p.text := by
  simp only [Param.leaves, filled_cons] at h
  exact (h.1.append (by decide)).append h.2.1

lemma Field.balanced_text {f : Field} (h : Filled f.leaves) : Balanced f.text := by
  simp only [Field.leaves, filled_cons] at h
  exact (h.1.append (by decide)).append h.2.1

lemma NamedType.balanced_text {t : NamedType} (h : Filled t.leaves) : Balanced t.text := by
  simp only [NamedType.leaves, filled_cons] at h
  exact ((Balanced.append (by decide) h.1).append (by decide)).append h.2.1

lemma balanced_typeParamsText (h : ∀ n ∈ names, Balanced n) : Balanced (typeParamsText names) := by
  unfold typeParamsText
  split
  · exact (by decide)
  · have hnames : ∀ n ∈ names.map (· ++ " any"), Balanced n := by
      intro n hn
      obtain ⟨m, hm, rfl⟩ := mem_map.1 hn
      exact (h m hm).append (by decide)
    refine balanced_iff.2 ?_
    simp only [brackets_append, remaining_append, (Expr.balanced_listed hnames).remaining_eq]
    decide +kernel

lemma balanced_paramsText (h : ∀ p ∈ params, Filled p.leaves) : Balanced (paramsText params) := by
  refine Expr.balanced_listed fun t ht => ?_
  obtain ⟨p, hp, rfl⟩ := mem_map.1 ht
  exact Param.balanced_text (h p hp)

lemma balanced_resultText (h : ∀ t ∈ result, Balanced t) : Balanced (resultText result) := by
  unfold resultText
  split
  · exact (by decide)
  · next t ht =>
    exact Balanced.append (by decide) (h t (eq_some_of_presentText ht))

lemma balanced_bracedText (hheader : Balanced header) (hbody : ∀ l ∈ body, Balanced l) :
    Balanced (bracedText header body) := by
  refine balanced_iff.2 ?_
  unfold bracedText
  split
  · simp only [brackets_append, remaining_append, hheader.remaining_eq]
    decide +kernel
  · have hlines : Nested ((body.map ("\t" ++ ·)).flatMap brackets) := by
      rw [flatMap_map]
      exact Nested.flatMap fun l hl => Balanced.append (s := "\t") (by decide) (hbody l hl)
    simp only [brackets_unlines, flatMap_append, flatMap_cons,
      brackets_append, remaining_append, hheader.remaining_eq, hlines.remaining_eq]
    decide +kernel

lemma nested_comments {comments : List String} (h : ∀ c ∈ comments, Balanced c) :
    Nested ((comments.flatMap commentLines).flatMap brackets) := by
  rw [flatMap_assoc]
  simp only [flatMap_brackets_commentLines]
  exact Nested.flatMap h

lemma Struct.balanced_text {s : Struct} (h : Filled s.leaves) : Balanced s.text := by
  simp only [Struct.leaves, filled_append, filled_cons, filled_flatMap, filled_map_some] at h
  obtain ⟨⟨⟨⟨hname, hfields⟩, hembeds⟩, hparams⟩, hcomments⟩ := h
  rw [Struct.text, Balanced, brackets_unlines, flatMap_append, flatMap_singleton]
  refine (nested_comments hcomments).append (balanced_bracedText ?_ ?_)
  · exact ((Balanced.append (by decide) hname).append (balanced_typeParamsText hparams)).append
      (by decide)
  · intro l hl
    rcases mem_append.1 hl with hl | hl
    · exact hembeds l hl
    · obtain ⟨f, hf, rfl⟩ := mem_map.1 hl
      exact Field.balanced_text (hfields f hf)

lemma MethodSpec.balanced_text {m : MethodSpec} (h : Filled m.leaves) : Balanced m.text := by
  simp only [MethodSpec.leaves, filled_append, filled_cons, filled_flatMap,
    filled_optionLeaves] at h
  obtain ⟨⟨hname, hparams⟩, hresult⟩ := h
  refine balanced_iff.2 ?_
  simp only [MethodSpec.text, brackets_append, remaining_append, hname.remaining_eq,
    (balanced_paramsText hparams).remaining_eq, (balanced_resultText hresult).remaining_eq]
  decide +kernel

lemma Interface.balanced_text {i : Interface} (h : Filled i.leaves) : Balanced i.text := by
  simp only [Interface.leaves, filled_append, filled_cons, filled_flatMap, filled_map_some] at h
  obtain ⟨⟨⟨hname, hmethods⟩, hembeds⟩, hparams⟩ := h
  refine balanced_bracedText ?_ ?_
  · exact ((Balanced.append (by decide) hname).append (balanced_typeParamsText hparams)).append
      (by decide)
  · intro l hl
    rcases mem_append.1 hl with hl | hl
    · exact hembeds l hl
    · obtain ⟨m, hm, rfl⟩ := mem_map.1 hl
      exact MethodSpec.balanced_text (hmethods m hm)

lemma balanced_receiverText (h : ∀ r ∈ receiver, Filled r.leaves) :
    Balanced (receiverText receiver) := by
  cases receiver with
  | none => exact (by decide)
  | some r =>
    refine balanced_iff.2 ?_
    simp only [receiverText, brackets_append, remaining_append,
      (Param.balanced_text (h r rfl)).remaining_eq]
    decide +kernel

lemma Function.rendered_text {f : Function} (h : Filled f.leaves) :
    f.complete = true ∧ Balanced f.text := by
  simp only [Function.leaves, filled_append, filled_cons, filled_flatMap, filled_map_some,
    filled_optionLeaves, Option.mem_toList] at h
  obtain ⟨⟨⟨⟨⟨⟨hname, hparams⟩, hresult⟩, hbody⟩, hcomments⟩, htypes⟩, hreceiver⟩ := h
  obtain ⟨hcomplete, hbody⟩ := Stmt.rendered_blockLines f.body hbody
  have hsignature : Balanced f.signatureText := by
    refine balanced_iff.2 ?_
    simp only [Function.signatureText, brackets_append, remaining_append, hname.remaining_eq,
      (balanced_typeParamsText htypes).remaining_eq, (balanced_paramsText hparams).remaining_eq,
      (balanced_resultText hresult).remaining_eq]
    decide +kernel
  have htab : brackets "\t" = [] := by decide
  have hlines : Nested (f.bodyLines.flatMap brackets) := by
    rw [Function.bodyLines, flatMap_append]
    exact Nested.append (by simpa [flatMap_map, htab] using nested_comments hcomments) hbody
  refine ⟨hcomplete, balanced_iff.2 ?_⟩
  simp only [Function.text, brackets_unlines, flatMap_append, flatMap_cons, brackets_append,
    remaining_append, hsignature.remaining_eq, hlines.remaining_eq,
    (balanced_receiverText hreceiver).remaining_eq]
  decide +kernel

lemma ModuleVar.rendered_text {v : ModuleVar} (h : Filled v.leaves) :
    v.complete = true ∧ Balanced v.text := by
  simp only [ModuleVar.leaves, filled_append, filled_cons, filled_map_some,
    filled_optionLeaves] at h
  obtain ⟨⟨⟨hname, htype⟩, hvalue⟩, hcomments⟩ := h
  obtain ⟨hcomplete, hvalue⟩ := Stmt.rendered_value hvalue
  refine ⟨hcomplete, ?_⟩
  rw [ModuleVar.text, Balanced, brackets_unlines, flatMap_append, flatMap_singleton]
  refine (nested_comments hcomments).append ?_
  refine Balanced.append ((Balanced.append (by decide) hname).append (balanced_resultText htype)) ?_
  split
  · exact (by decide)
  · next e he => exact Balanced.append (by decide) (hvalue e he)

lemma ModuleConst.rendered_text {c : ModuleConst} (h : Filled c.leaves) :
    c.complete = true ∧ Balanced c.text := by
  simp only [ModuleConst.leaves, filled_append, filled_cons, filled_optionLeaves] at h
  obtain ⟨hcomplete, hvalue⟩ := Expr.rendered_bare c.value h.1.2
  refine ⟨hcomplete, ?_⟩
  exact (((Balanced.append (by decide) h.1.1).append (balanced_resultText h.2)).append
    (by decide)).append hvalue

lemma ConstEntry.rendered_text {c : ConstEntry} (h : Filled c.leaves) :
    c.complete = true ∧ Balanced c.text := by
  simp only [ConstEntry.leaves, filled_append, filled_cons, filled_optionLeaves] at h
  obtain ⟨⟨hname, htype⟩, hvalue⟩ := h
  refine ⟨(Stmt.rendered_value hvalue).1, ?_⟩
  refine (hname.append (balanced_resultText htype)).append ?_
  split
  · exact (by decide)
  · next e he =>
    have hleaves : Filled e.leaves := by simpa [Stmt.valueLeaves, he] using hvalue
    exact Balanced.append (by decide) (Expr.rendered_text hleaves).2

lemma ConstBlock.rendered_text {b : ConstBlock} (h : Filled b.leaves) :
    b.complete = true ∧ Balanced b.text := by
  simp only [ConstBlock.leaves, filled_flatMap] at h
  have hentries : Nested ((b.entries.map fun e => "\t" ++ e.text).flatMap brackets) := by
    rw [flatMap_map]
    exact Nested.flatMap fun e he =>
      Balanced.append (s := "\t") (by decide) (ConstEntry.rendered_text (h e he)).2
  refine ⟨all_eq_true.2 fun e he => (ConstEntry.rendered_text (h e he)).1, ?_⟩
  refine balanced_iff.2 ?_
  simp only [ConstBlock.text, brackets_unlines, flatMap_append, flatMap_cons, remaining_append,
    hentries.remaining_eq]
  decide +kernel

lemma Import.balanced_text {i : Import} (h : Filled i.leaves) : Balanced i.text := by
  simp only [Import.leaves, filled_cons, filled_optionLeaves] at h
  refine ((Balanced.append ?_ (by decide)).append h.1).append (by decide)
  split
  · decide
  · next a ha => exact (h.2 a (eq_some_of_presentText ha)).append (by decide)

lemma flatMap_brackets_errorLines (error : String) :
    (errorLines error).flatMap brackets = brackets error := by
  rw [← flatMap_brackets_lines error]
  have herror : brackets "// Error: " = [] := by decide
  unfold errorLines
  split
  next h => simp [h, herror]
  next line h => simp [h, herror]
  next line more _ h => simp [h, herror]

lemma FailedMember.balanced_text {f : FailedMember} (h : Filled f.leaves) : Balanced f.text := by
  simp only [FailedMember.leaves, filled_cons] at h
  obtain ⟨hlocation, herror, hsource, hsexpr, -⟩ := h
  refine balanced_iff.2 ?_
  simp only [FailedMember.text, brackets_unlines, flatMap_append, flatMap_cons, brackets_append,
    flatMap_brackets_errorLines, flatMap_brackets_commentLines, remaining_append,
    hlocation.remaining_eq, herror.remaining_eq, hsource.remaining_eq, hsexpr.remaining_eq]
  decide +kernel

lemma Decl.rendered_text {d : Decl} (h : Filled d.leaves) :
    d.complete = true ∧ Balanced d.text := by
  cases d with
  | interface => exact ⟨rfl, Interface.balanced_text h⟩
  | struct => exact ⟨rfl, Struct.balanced_text h⟩
  | named => exact ⟨rfl, NamedType.balanced_text h⟩
  | constBlock => exact ConstBlock.rendered_text h
  | const => exact ModuleConst.rendered_text h
  | var => exact ModuleVar.rendered_text h
  | function => exact Function.rendered_text h
  | failed => exact ⟨rfl, FailedMember.balanced_text h⟩

lemma balanced_headerText (h : Balanced header) : Balanced (SourceFile.headerText header) := by
  rw [Balanced, SourceFile.headerText, brackets_ofList, filter_trimNewlines, filter_unixBreaks]
  exact h

lemma balanced_importsText (h : ∀ i ∈ imports, Filled i.leaves) :
    Balanced (SourceFile.importsText imports) := by
  have hlines : Nested ((imports.map fun i => "\t" ++ i.text).flatMap brackets) := by
    rw [flatMap_map]
    exact Nested.flatMap fun i hi =>
      Balanced.append (s := "\t") (by decide) (Import.balanced_text (h i hi))
  refine balanced_iff.2 ?_
  simp only [SourceFile.importsText, brackets_unlines, flatMap_append, flatMap_cons,
    remaining_append, hlines.remaining_eq]
  decide +kernel

lemma SourceFile.rendered_text {file : SourceFile} (h : Filled file.leaves)
    (hheader : Balanced header) (hpackage : ∀ p ∈ package, Balanced p) :
    file.complete = true ∧ Balanced (file.text header package) := by
  simp only [SourceFile.leaves, filled_append, filled_cons, filled_flatMap] at h
  obtain ⟨⟨hname, himports⟩, hdecls⟩ := h
  refine ⟨all_eq_true.2 fun d hd => (Decl.rendered_text (hdecls d hd)).1, ?_⟩
  refine Balanced.append ?_ (by decide)
  rw [Balanced, brackets_intercalate (by decide)]
  refine Nested.flatMap fun part hpart => ?_
  simp only [SourceFile.sections, mem_append, mem_singleton, mem_map, mem_ite_nil_left] at hpart
  rcases hpart with ((⟨-, rfl⟩ | rfl) | ⟨-, rfl⟩) | ⟨d, hd, rfl⟩
  · exact balanced_headerText hheader
  · exact Balanced.append (by decide) (balanced_presentText hpackage hname)
  · exact balanced_importsText himports
  · exact (Decl.rendered_text (hdecls d hd)).2

def SwitchClause.leaves (clause : SwitchClause) : List (Option String) :=
  Stmt.leavesClauses [clause]

/-- What is rendered: the leaves of a value, whether rendering it meets no hole, and its text. -/
inductive Renders : List (Option String) → Bool → String → Prop
  | operand (e : Expr) : Renders e.leaves e.complete e.text
  | bare (e : Expr) : Renders e.leaves e.complete e.bare
  | statement (s : Stmt) : Renders s.leaves s.complete s.text
  | block (body : List Stmt) :
      Renders (Stmt.leavesAll body) (Stmt.completeAll body) (unlines (Stmt.blockLines body))
  | clauseHeader (clause : SwitchClause) :
      Renders clause.leaves clause.headerComplete clause.headerText
  | param (p : Param) : Renders p.leaves true p.text
  | field (f : Field) : Renders f.leaves true f.text
  | method (m : MethodSpec) : Renders m.leaves true m.text
  | constant (c : ConstEntry) : Renders c.leaves c.complete c.text
  | importLine (i : Import) : Renders i.leaves true i.text
  | decl (d : Decl) : Renders d.leaves d.complete d.text
  | file (file : SourceFile) (header : String) (package : Option String) :
      Renders (some header :: optionLeaves package ++ file.leaves) file.complete
        (file.text header package)

/-- Whatever is rendered from balanced leaves is balanced, and rendering it meets no hole. -/
theorem balanced_of_renders {leaves : List (Option String)} {complete : Bool} {text : String}
    (h : Renders leaves complete text) (hleaves : Filled leaves) :
    complete = true ∧ Balanced text := by
  cases h with
  | operand => exact Expr.rendered_text hleaves
  | bare e => exact Expr.rendered_bare e hleaves
  | statement s => exact Stmt.rendered_text s hleaves
  | block body =>
    rw [Balanced, brackets_unlines]
    exact Stmt.rendered_blockLines body hleaves
  | clauseHeader clause =>
    obtain ⟨values, body, fallsThrough, isDefault⟩ := clause
    simp only [SwitchClause.leaves, Stmt.leavesClauses, filled_append, filled_flatMap] at hleaves
    exact Stmt.rendered_header isDefault hleaves.1.1
  | param => exact ⟨rfl, Param.balanced_text hleaves⟩
  | field => exact ⟨rfl, Field.balanced_text hleaves⟩
  | method => exact ⟨rfl, MethodSpec.balanced_text hleaves⟩
  | constant => exact ConstEntry.rendered_text hleaves
  | importLine => exact ⟨rfl, Import.balanced_text hleaves⟩
  | decl => exact Decl.rendered_text hleaves
  | file =>
    simp only [filled_append, filled_cons, filled_optionLeaves] at hleaves
    exact SourceFile.rendered_text hleaves.2 hleaves.1.1 hleaves.1.2

/-- A statement with chained conditions in front of a chain of handlers. -/
def sampleTry : Stmt :=
  .tryCatch
    [.cond (.binary (.var "n") "<" (.index (.var "sizes") (.raw "0"))) [.call (.var "grow")]
        (some [.cond (.var "done") [.ret []]
          (some [.labeled "again" (.block [.raw "continue again"])])]),
      .switch (some (.var "n"))
        [.mk [.raw "1", .raw "2"] [.step (.var "n") "++"] true false,
          .mk [] [.assign (.var "ok") (.typeTest (.var "n") "map[string]int")] false true]]
    [.mk "IOError" [.ret [.choice (.var "ok") (.raw "f(1)") (.raw "[]int\x7b\x7d") "any"]]
        (some "e"),
      .mk "error" [] none]
    (some [.loop none none none [.comment ["one\u2028(two)"]]])
    [.var "in" none (some (.callNamed "open" [.var "path"] true)) true] [.var "in"]

/-- A file with the statement in a function, besides types and a failed member. -/
def sampleFile : SourceFile where
  imports := [⟨"fmt", none⟩, ⟨"os", some "system"⟩]
  interfaces :=
    [.interface
      { name := "Reader", methods := [⟨"Read", [⟨"p", "[]byte"⟩], some "(int, error)"⟩] }]
  types :=
    [.struct
      { name := "Box", fields := [⟨"items", "[]T", false⟩], typeParams := ["T"]
        comments := ["a (box)\r\nof items"] }]
  functions := [.function { name := "run", body := [sampleTry], typeParams := ["T"] }]
  failed := [.failed ⟨"Box", "no (such)\nmember", "int f() \x7b\x7d", "(block)"⟩]

/-- The file is rendered as a balanced text under a header of two lines. -/
theorem balanced_of_renders_sampleFile :
    Filled (some "\r\n(c) [all]\r\n" :: optionLeaves (some "boxes") ++ sampleFile.leaves)
      ∧ sampleFile.complete = true
      ∧ Balanced (sampleFile.text "\r\n(c) [all]\r\n" (some "boxes")) :=
  ⟨by decide +kernel,
    balanced_of_renders (.file sampleFile "\r\n(c) [all]\r\n" (some "boxes")) (by decide +kernel)⟩

end JavaToGo.Code
