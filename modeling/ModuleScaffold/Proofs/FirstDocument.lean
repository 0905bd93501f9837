import ModuleScaffold.Proofs.Json.Document
import ModuleScaffold.Proofs.Refinement.Course
import ModuleScaffold.Schema.Document

/-! # The first document of a text

Schemas and validations are read from the front of a text, and what stands behind is not looked at. Main statement: a
text can be read just when it begins with a document, and what a validator prints behind its document is ignored. -/

namespace ModuleScaffold

namespace Json

variable {ρ α : Type} {v : Vocabulary ρ} {name : ρ} {j : Json} {ofJson : Json → α} {a : α}

/-- The document of a value, from its first character to its last. -/
def IsDocument (v : Vocabulary ρ) (shape : Shape ρ) (ofJson : Json → α) (document : String) (a : α) : Prop :=
  ∃ j, readFront v shape document.toList = .ok (j, []) ∧ ofJson j = a

/-- A document with nothing but blanks behind it. -/
def IsWhole (v : Vocabulary ρ) (shape : Shape ρ) (ofJson : Json → α) (input : String) (a : α) : Prop :=
  ∃ document blanks, document ++ blanks = input ∧ (∀ c ∈ blanks.toList, isSpace c = true) ∧
    IsDocument v shape ofJson document a

/-- What is read from the front of a text is a document, and the same whatever follows it. -/
theorem readFront_eq_ok_iff (hv : v.IsFlat) {input : String} {rest : List Char} :
    readFront v (.record name) input.toList = .ok (j, rest) ↔
      ∃ document, document ++ String.ofList rest = input ∧
        readFront v (.record name) document.toList = .ok (j, []) := by
  constructor
  · intro h
    obtain ⟨taken, -, hs, hagain⟩ := isClosed_readFront_record hv name j h
    refine ⟨String.ofList taken, ?_, ?_⟩
    · rw [← String.ofList_append, ← hs, String.ofList_toList]
    · have hdocument := hagain []
      rwa [List.append_nil, ← String.toList_ofList (l := taken)] at hdocument
  · rintro ⟨document, rfl, h⟩
    obtain ⟨taken, -, hs, hagain⟩ := isClosed_readFront_record hv name j h
    rw [String.toList_append, String.toList_ofList, hs, List.append_nil]
    exact hagain rest

theorem readFront_append (hv : v.IsFlat) {document : String}
    (h : readFront v (.record name) document.toList = .ok (j, [])) (trailing : String) :
    readFront v (.record name) (document ++ trailing).toList = .ok (j, trailing.toList) :=
  (readFront_eq_ok_iff hv).mpr ⟨document, by rw [String.ofList_toList], h⟩

theorem map_read_eq_ok_iff (hv : v.IsFlat) {input : String} : (read v (.record name) input).map ofJson = .ok a ↔
    ∃ document trailing, document ++ trailing = input ∧ IsDocument v (.record name) ofJson document a := by
  constructor
  · intro h
    obtain ⟨j, hread, hj⟩ := map_eq_ok_iff.mp h
    unfold read at hread
    split at hread
    · next value rest hfront =>
      obtain rfl := Except.ok.inj hread
      obtain ⟨document, hinput, hdocument⟩ := (readFront_eq_ok_iff hv).mp hfront
      exact ⟨document, String.ofList rest, hinput, _, hdocument, hj⟩
    · cases hread
  · rintro ⟨document, trailing, rfl, j, hdocument, hj⟩
    rw [map_eq_ok_iff]
    exact ⟨j, by rw [read, readFront_append hv hdocument], hj⟩

/-- Texts have one document at their front, so that what follows it decides whether a text is a whole one. -/
theorem isWhole_of_read_iff (hv : v.IsFlat) {input : String} :
    (∀ a, (read v (.record name) input).map ofJson = .ok a → IsWhole v (.record name) ofJson input a) ↔
      ∀ document trailing a, document ++ trailing = input → IsDocument v (.record name) ofJson document a →
        ∀ c ∈ trailing.toList, isSpace c = true := by
  constructor
  · rintro hwhole document trailing a rfl hdocument
    obtain ⟨whole, blanks, hinput, hblanks, j, hj, -⟩ :=
      hwhole a ((map_read_eq_ok_iff hv).mpr ⟨document, trailing, rfl, hdocument⟩)
    obtain ⟨j', hj', -⟩ := hdocument
    -- The same text has been read twice, so that both documents end at one place.
    have hfront := readFront_append hv hj blanks
    rw [hinput, readFront_append hv hj' trailing] at hfront
    obtain ⟨-, htrailing⟩ := Prod.mk.inj (Except.ok.inj hfront)
    rwa [htrailing]
  · intro hblank a hread
    obtain ⟨document, trailing, hinput, hdocument⟩ := (map_read_eq_ok_iff hv).mp hread
    exact ⟨document, trailing, hinput, hblank document trailing a hinput hdocument, hdocument⟩

theorem exists_isDocument {shape : Shape ρ} {document : String}
    (h : (readFront v shape document.toList).toOption.map (·.2) = some []) : ∃ a, IsDocument v shape ofJson document a := by
  rcases hfront : readFront v shape document.toList with f | ⟨j, rest⟩
  · rw [hfront] at h
    cases h
  · rw [hfront] at h
    obtain rfl : rest = [] := Option.some.inj h
    exact ⟨ofJson j, j, hfront, rfl⟩

end Json

/-! ## Validations and schemas -/

theorem Diagnostics.isFlat_vocabulary : Diagnostics.vocabulary.IsFlat := by
  intro name
  cases name <;> decide

theorem Schema.isFlat_vocabulary : Schema.vocabulary.IsFlat := by
  intro name
  cases name <;> decide

/-- The document of a validation. -/
def Validation.IsDocument : String → Validation → Prop :=
  Json.IsDocument Diagnostics.vocabulary (.record .validation) Validation.ofJson

/-- The document of the schemas of providers. -/
def SchemaSet.IsDocument : String → SchemaSet → Prop :=
  Json.IsDocument Schema.vocabulary (.record .schemas) SchemaSet.ofJson

/-- A text that is the document of a validation and blanks. -/
def Validation.IsWhole : String → Validation → Prop :=
  Json.IsWhole Diagnostics.vocabulary (.record .validation) Validation.ofJson

/-- A text that is the document of schemas and blanks. -/
def SchemaSet.IsWhole : String → SchemaSet → Prop :=
  Json.IsWhole Schema.vocabulary (.record .schemas) SchemaSet.ofJson

/-- A validator that prints a document which refuses nothing has validated the module, whatever else it prints. -/
theorem Refinement.run_of_document (directory : String) (p : Plan) (s : SchemaSet) (w : World)
    {document : String} {validation : Validation} (trailing : String) (hp : p.requests ≠ [])
    (hw : ∀ name ∈ [mainFile, variablesFile], ∃ text w', w.writeText (Path.join directory name) text = .ok w')
    (hdocument : Validation.IsDocument document validation) (hclean : Refusals.ofDiagnostics validation.diagnostics = []) :
    ∃ w', (run (.answering directory fun _ _ => .ok (document ++ trailing)) p s).run w = ((s, .ok ⟨[], []⟩), w') ∧
      (p.generate s).StandIn (Path.locate w.here directory) w'.files := by
  have hread : Validation.read (document ++ trailing) = .ok validation :=
    (Json.map_read_eq_ok_iff Diagnostics.isFlat_vocabulary).mpr ⟨document, trailing, rfl, hdocument⟩
  have hverdict : verdict (.ok (document ++ trailing)) = .ok [] := by
    rw [verdict, hread]
    exact congrArg Except.ok hclean
  obtain ⟨files, log, hattempt, hstand, -⟩ := run_attempt directory (fun _ _ => .ok (document ++ trailing)) p s w hp rfl
    (Publish.isReady_of_writeText rfl hw)
  rw [hverdict] at hattempt
  obtain ⟨log', hrun⟩ := run_of_complete hattempt
  exact ⟨_, hrun, hstand⟩

/-- A text can be read just when it begins with a document, and then as that document. Readers keep to whole documents on
just the texts that have nothing but blanks behind it; on any other a refinement believes the document. -/
theorem texts_are_read_as_first_document (input : String) :
    (∀ validation, Validation.read input = .ok validation ↔
      ∃ document trailing, document ++ trailing = input ∧ Validation.IsDocument document validation) ∧
    (∀ schemas, SchemaSet.read input = .ok schemas ↔
      ∃ document trailing, document ++ trailing = input ∧ SchemaSet.IsDocument document schemas) ∧
    ((∀ validation, Validation.read input = .ok validation → Validation.IsWhole input validation) ↔
      ∀ document trailing validation, document ++ trailing = input → Validation.IsDocument document validation →
        ∀ c ∈ trailing.toList, Json.isSpace c = true) ∧
    ((∀ schemas, SchemaSet.read input = .ok schemas → SchemaSet.IsWhole input schemas) ↔
      ∀ document trailing schemas, document ++ trailing = input → SchemaSet.IsDocument document schemas →
        ∀ c ∈ trailing.toList, Json.isSpace c = true) ∧
    ∀ (directory : String) (p : Plan) (s : SchemaSet) (w : World) (document trailing : String) (validation : Validation),
      p.requests ≠ [] →
      (∀ name ∈ [mainFile, variablesFile], ∃ text w', w.writeText (Path.join directory name) text = .ok w') →
      document ++ trailing = input → Validation.IsDocument document validation →
      Refusals.ofDiagnostics validation.diagnostics = [] →
      ∃ w', (Refinement.run (.answering directory fun _ _ => .ok input) p s).run w = ((s, .ok ⟨[], []⟩), w') ∧
        (p.generate s).StandIn (Path.locate w.here directory) w'.files := by
  refine ⟨fun _ => Json.map_read_eq_ok_iff Diagnostics.isFlat_vocabulary,
    fun _ => Json.map_read_eq_ok_iff Schema.isFlat_vocabulary,
    Json.isWhole_of_read_iff Diagnostics.isFlat_vocabulary, Json.isWhole_of_read_iff Schema.isFlat_vocabulary, ?_⟩
  rintro directory p s w document trailing validation hp hw rfl hdocument hclean
  exact Refinement.run_of_document directory p s w trailing hp hw hdocument hclean

def validText : String := "\x7b\"valid\":true\x7d"

theorem isDocument_validText : Validation.IsDocument validText ⟨true, 0, 0, []⟩ := by
  have hfront : (Json.readFront Diagnostics.vocabulary (.record .validation) validText.toList).toOption.map
      (fun p => (Validation.ofJson p.1, p.2)) = some (⟨true, 0, 0, []⟩, []) := by decide +kernel
  rcases h : Json.readFront Diagnostics.vocabulary (.record .validation) validText.toList with f | ⟨j, rest⟩
  · rw [h] at hfront
    cases hfront
  · rw [h] at hfront
    obtain ⟨hj, rfl⟩ := Prod.mk.inj (Option.some.inj hfront)
    exact ⟨j, h, hj⟩

theorem texts_are_read_as_first_document_validText :
    (Validation.read (validText ++ " garbage") = .ok ⟨true, 0, 0, []⟩ ↔
      ∃ document trailing, document ++ trailing = validText ++ " garbage" ∧
        Validation.IsDocument document ⟨true, 0, 0, []⟩) ∧
    ∃ w', (Refinement.run (.answering "out" fun _ _ => .ok (validText ++ " garbage")) Refinement.oneRequest
        ⟨"1.0", []⟩).run Refinement.emptyOut = ((⟨"1.0", []⟩, .ok ⟨[], []⟩), w') ∧
      (Refinement.oneRequest.generate ⟨"1.0", []⟩).StandIn ["out"] w'.files :=
  ⟨(texts_are_read_as_first_document (validText ++ " garbage")).1 _,
    (texts_are_read_as_first_document (validText ++ " garbage")).2.2.2.2 "out" Refinement.oneRequest ⟨"1.0", []⟩
      Refinement.emptyOut validText " garbage" ⟨true, 0, 0, []⟩ (by simp [Refinement.oneRequest])
      Refinement.emptyOut_writes rfl isDocument_validText rfl⟩

/-- Neither reader keeps to whole documents, and a refinement ends well on what is no whole document. -/
theorem more_than_a_document_is_read :
    (¬∀ input validation, Validation.read input = .ok validation → Validation.IsWhole input validation) ∧
    (¬∀ input schemas, SchemaSet.read input = .ok schemas → SchemaSet.IsWhole input schemas) ∧
    ∃ w', (Refinement.run (.answering "out" fun _ _ => .ok (validText ++ " garbage")) Refinement.oneRequest
        ⟨"1.0", []⟩).run Refinement.emptyOut = ((⟨"1.0", []⟩, .ok ⟨[], []⟩), w') := by
  have hmore : ¬∀ c ∈ " garbage".toList, Json.isSpace c = true := fun h => absurd (h 'g' (by decide)) (by decide)
  refine ⟨fun hall => hmore ?_, fun hall => hmore ?_, ?_⟩
  · exact (Json.isWhole_of_read_iff Diagnostics.isFlat_vocabulary).mp (hall (validText ++ " garbage")) _ _ _ rfl
      isDocument_validText
  · obtain ⟨schemas, hdocument⟩ : ∃ schemas, SchemaSet.IsDocument "\x7b\x7d" schemas :=
      Json.exists_isDocument (by decide +kernel)
    exact (Json.isWhole_of_read_iff Schema.isFlat_vocabulary).mp (hall ("\x7b\x7d" ++ " garbage")) _ _ _ rfl hdocument
  · obtain ⟨w', hrun, -⟩ := Refinement.run_of_document "out" Refinement.oneRequest ⟨"1.0", []⟩ Refinement.emptyOut
      " garbage" (by simp [Refinement.oneRequest]) Refinement.emptyOut_writes isDocument_validText rfl
    exact ⟨w', hrun⟩

end ModuleScaffold
