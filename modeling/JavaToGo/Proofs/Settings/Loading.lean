import JavaToGo.Proofs.Text.Brackets
import JavaToGo.Settings.Load

/-!
# What loading settings ends in

A problem with a configuration is answered with the defaults, so what a run is
given is fit for use whenever it is given something.  The one document that no
run gets past is a mapping with a key that is not a text.
-/

namespace JavaToGo

open List

/-- Whether the document is a mapping with a key that is not a text. -/
def Document.hasOddKey : Document → Bool
  | .mapping entries => entries.any fun e => e.1.asText?.isNone
  | _ => false

/-- The path leads to a file whose text is read as the document. -/
def FileTree.Holds (files : FileTree) (path : Path) (document : Document)
    (l : Settings.Loader := {}) : Prop :=
  files.isPresent path = .ok true ∧ ∃ bytes text, files.read path = .ok bytes
    ∧ String.fromUTF8? bytes = some text ∧ l.read (Text.unixBreaks text.toList) = .ok document

lemma return_notMem_unixBreaks (cs : List Char) : '\r' ∉ Text.unixBreaks cs := by
  fun_induction Text.unixBreaks cs with
  | case1 => exact not_mem_nil
  | case2 cs ih => simpa using ih
  | case3 c cs _ ih =>
    rw [mem_cons, not_or]
    refine ⟨?_, ih⟩
    split
    · decide
    · next h => exact fun hc => h (beq_iff_eq.2 hc.symm)

namespace Settings

/-- The package has a name, and the header has the line breaks of Go. -/
structure Usable (s : Settings) : Prop where
  named : (Text.trimmed s.packageName).isEmpty = false
  unbroken : '\r' ∉ s.licenseHeader.toList

lemma usable_default : Usable {} :=
  ⟨by decide +kernel, by decide⟩

lemma usable_normalized (s : Settings) : s.normalized.Usable where
  named := by
    unfold normalized
    split
    · exact usable_default.named
    · next h => simpa using h
  unbroken := by
    rw [normalized, String.toList_ofList]
    exact return_notMem_unixBreaks _

variable {l : Loader} {document : Document}

lemma ofEntries_eq_or {entries : List (Document × Document)}
    (h : (entries.any fun e => e.1.asText?.isNone) = false) :
    (∃ s, ofEntries entries l = .ok s)
      ∨ ∃ cause, ofEntries entries l = .error (.configuration cause) := by
  rw [ofEntries, h, if_neg (by decide)]
  cases l.validate entries with
  | ok s => exact .inl ⟨s, rfl⟩
  | error problems => exact .inr ⟨.invalid problems, rfl⟩

lemma ofDocument_of_hasOddKey (h : document.hasOddKey = true) :
    ofDocument document l = .error .keyNotText := by
  cases document with
  | mapping =>
    rw [Document.hasOddKey] at h
    rw [ofDocument, ofEntries, if_pos h]
    rfl
  | _ => cases h

lemma ofDocument_cases (h : document.hasOddKey = false) :
    (∃ s, ofDocument document l = .ok s ∧ s.Usable)
      ∨ ∃ cause, ofDocument document l = .error (.configuration cause) := by
  cases document with
  | null => exact .inr ⟨_, rfl⟩
  | mapping =>
    rcases ofEntries_eq_or h with ⟨s, hs⟩ | ⟨cause, hcause⟩
    · exact .inl ⟨s.normalized, by rw [ofDocument, hs]; rfl, usable_normalized s⟩
    · exact .inr ⟨cause, by rw [ofDocument, hcause]; rfl⟩
  | _ => exact .inr ⟨_, rfl⟩

lemma ofFile_of_holds {files : FileTree} (h : files.Holds path document l) :
    ofFile files path l = ofDocument document l := by
  obtain ⟨hpresent, bytes, text, hread, htext, hdocument⟩ := h
  rw [ofFile, hpresent]
  rw [hread]
  dsimp only
  rw [ofBytes, htext]
  dsimp only
  rw [hdocument]

/-- Whatever reads the text and checks the fields, as long as it answers with settings or with
problems: a document without an odd key gives settings or is refused as a configuration, and then a
run gets settings in either case; what they say is fit for use.  With an odd key neither happens. -/
theorem ofDocument_outcome (l : Loader) (document : Document) :
    (document.hasOddKey = false →
      ((∃ s, ofDocument document l = .ok s ∧ s.Usable)
        ∨ ∃ cause, ofDocument document l = .error (.configuration cause))
      ∧ ∀ files path, FileTree.Holds files path document l →
        ∃ s, (ofFileOrDefault files path l).1 = .ok s ∧ s.Usable)
    ∧ (document.hasOddKey = true →
      ofDocument document l = .error .keyNotText
      ∧ ∀ files path, FileTree.Holds files path document l →
        (ofFileOrDefault files path l).1 = .error .keyNotText) := by
  refine ⟨fun hkeys => ⟨ofDocument_cases hkeys, fun files path hholds => ?_⟩,
    fun hodd => ⟨ofDocument_of_hasOddKey hodd, fun files path hholds => ?_⟩⟩
  · rw [ofFileOrDefault, ofFile_of_holds hholds]
    rcases ofDocument_cases hkeys with ⟨s, hs, husable⟩ | ⟨cause, hcause⟩
    · rw [hs]
      exact ⟨s, rfl, husable⟩
    · rw [hcause]
      exact ⟨{}, rfl, usable_default⟩
  · rw [ofFileOrDefault, ofFile_of_holds hholds, ofDocument_of_hasOddKey hodd]

/-- A number as the key of a mapping is neither settings nor a refused configuration. -/
theorem ofDocument_numberedKey :
    ¬ ((∃ s, ofDocument (.mapping [(.integer 1, .text "x")]) = .ok s)
      ∨ ∃ cause, ofDocument (.mapping [(.integer 1, .text "x")])
        = .error (.configuration cause)) := by
  have herror : ofDocument (.mapping [(.integer 1, .text "x")]) = .error .keyNotText :=
    ofDocument_of_hasOddKey (by decide)
  rw [herror]
  rintro (⟨s, ⟨⟩⟩ | ⟨cause, ⟨⟩⟩)

end Settings
end JavaToGo
