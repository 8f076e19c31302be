import KaitoAutoIndexer.TextDecoding

/-!
Which content handler takes a file: the PDF handler looks at the extension before it looks at the
content, and the text handler looks at the first bytes only.
-/

namespace KaitoAutoIndexer.HandlerChoice

open KaitoAutoIndexer.Text KaitoAutoIndexer.ContentHandlers

variable {P : Packages} {raw : ByteArray} {contentType ext : String} {n : ℕ}

lemma handlers_eq : handlers = [.pdf, .text] := by decide

/-- The PDF handler is asked first. -/
lemma getHandler_eq : getHandler P raw contentType ext =
    if pdfCanHandle P raw contentType ext = true then .ok .pdf
    else if textCanHandle P raw contentType = true then .ok .text
    else .error "No suitable content handler found" := by
  rw [getHandler, handlers_eq, List.find?_cons, List.find?_cons, List.find?_nil]
  simp only [Handler.canHandle]
  cases pdfCanHandle P raw contentType ext with
  | true => rfl
  | false =>
    cases textCanHandle P raw contentType with
    | true => rfl
    | false => rfl

/-! ### PDFs -/

lemma getHandler_pdf_iff :
    getHandler P raw contentType ext = .ok .pdf ↔ pdfCanHandle P raw contentType ext = true := by
  rw [getHandler_eq]
  by_cases hpdf : pdfCanHandle P raw contentType ext = true
  · rw [if_pos hpdf]
    exact iff_of_true rfl hpdf
  · rw [if_neg hpdf]
    refine iff_of_false (fun heq => ?_) hpdf
    split at heq
    · cases heq
    · cases heq

/-- The content is that of a PDF, by its first bytes or by its type. -/
def IsPdf (raw : ByteArray) (contentType : String) : Prop :=
  startsWith raw pdfMark = true ∨ isPdfContentType contentType = true

/-- The extension is looked at first, the content only under the right one. -/
lemma pdfCanHandle_of_isPdf (h : IsPdf raw contentType) :
    pdfCanHandle P raw contentType ext = true ↔ ext = "" ∨ lower ext = ".pdf" := by
  unfold pdfCanHandle
  by_cases hext : ext ≠ "" ∧ lower ext ≠ ".pdf"
  · rw [if_pos hext]
    refine iff_of_false Bool.false_ne_true ?_
    rintro (hempty | hpdf)
    · exact hext.1 hempty
    · exact hext.2 hpdf
  · rw [if_neg hext]
    refine iff_of_true ?_ ?_
    · by_cases htype : isPdfContentType contentType = true
      · rw [if_pos htype]
      · rw [if_neg htype, if_pos (h.resolve_right htype)]
    · by_contra hnot
      exact hext (not_or.mp hnot)

lemma lower_lower (s : String) : lower (lower s) = lower s := by
  rw [lower, lower, String.toList_ofList, List.map_map]
  congr 2
  funext c
  exact Char.toLower_toLower_eq_toLower c

/-- **Where PDF content is taken by the PDF handler**: under no extension, or its own. -/
theorem pdf_taken_iff (P : Packages) (raw : ByteArray) (contentType path : String)
    (h : IsPdf raw contentType) :
    getHandler P raw contentType (fileExtension path) = .ok .pdf ↔
      fileExtension path = "" ∨ fileExtension path = ".pdf" := by
  have hlower : lower (fileExtension path) = fileExtension path := lower_lower (extension path)
  have hcan : pdfCanHandle P raw contentType (fileExtension path) = true ↔
      fileExtension path = "" ∨ lower (fileExtension path) = ".pdf" := pdfCanHandle_of_isPdf h
  rw [hlower] at hcan
  rw [getHandler_pdf_iff, hcan]

lemma isPdf_pdfMark : IsPdf pdfMark "" := .inl (by decide)

theorem pdf_taken_docs :
    getHandler demoPackages pdfMark "" (fileExtension "docs/guide.PDF") = .ok .pdf ↔
      fileExtension "docs/guide.PDF" = "" ∨ fileExtension "docs/guide.PDF" = ".pdf" :=
  pdf_taken_iff demoPackages pdfMark "" "docs/guide.PDF" isPdf_pdfMark

/-- The number of a document stands where an extension would. -/
theorem not_pdf_taken :
    ¬ ∀ (P : Packages) (raw : ByteArray) (contentType path : String), IsPdf raw contentType →
      getHandler P raw contentType (fileExtension path) = .ok .pdf := by
  intro hall
  have htaken := hall demoPackages pdfMark "" "/pdf/1706.03762" isPdf_pdfMark
  have hpdf := (pdfCanHandle_of_isPdf isPdf_pdfMark).mp (getHandler_pdf_iff.mp htaken)
  have hext : fileExtension "/pdf/1706.03762" = ".03762" := by decide
  rw [hext] at hpdf
  revert hpdf
  decide

/-! ### Texts -/

/-- The sample ends inside of a character. -/
def CutsCharacter (raw : ByteArray) : Prop :=
  ∃ h : sampleSize < raw.size, ¬ raw[sampleSize].IsUTF8FirstByte

/-- The detector takes the sample for a text. -/
def Sure (P : Packages) (raw : ByteArray) : Prop :=
  ∃ d, P.detect (raw.extract 0 sampleSize) = some d ∧ 7 / 10 < d.confidence

/-- A beginning of a text is a text where it ends with a character. -/
lemma sample_valid_iff (h : raw.IsValidUTF8) :
    (raw.extract 0 sampleSize).IsValidUTF8 ↔ ¬ CutsCharacter raw := by
  let text : String := ⟨raw, h⟩
  have hsize : text.rawEndPos.byteIdx = raw.size := rfl
  by_cases hlong : sampleSize < raw.size
  · have hat : (⟨sampleSize⟩ : String.Pos.Raw) < text.rawEndPos := by
      rw [String.Pos.Raw.lt_iff, hsize]
      exact hlong
    have hne : (⟨sampleSize⟩ : String.Pos.Raw) ≠ text.rawEndPos := fun heq => by
      have hidx := congrArg String.Pos.Raw.byteIdx heq
      rw [hsize] at hidx
      exact hlong.ne hidx
    have hvalid : (raw.extract 0 sampleSize).IsValidUTF8 ↔ (⟨sampleSize⟩ : String.Pos.Raw).IsValid text := by
      rw [String.Pos.Raw.isValid_iff_isValidUTF8_extract_zero]
      exact (and_iff_right (String.Pos.Raw.le_of_lt hat)).symm
    rw [hvalid, String.Pos.Raw.isValid_iff_isUTF8FirstByte, CutsCharacter, not_exists]
    constructor
    · rintro (heq | ⟨_, hfirst⟩)
      · exact absurd heq hne
      · exact fun _ hnot => hnot hfirst
    · exact fun hall => .inr ⟨hat, not_not.mp (hall hlong)⟩
  · rw [← max_eq_left (not_lt.mp hlong), ByteArray.extract_zero_max_size]
    exact iff_of_true h fun hcuts => hlong hcuts.1

lemma sample_without_nul (h : (0 : UInt8) ∉ raw.data) : (raw.extract 0 n).data.contains 0 = false := by
  rw [ByteArray.data_extract, Array.contains_eq_mem]
  refine decide_eq_false fun hin => h ?_
  obtain ⟨i, hi, heq⟩ := Array.mem_extract_iff_getElem.mp hin
  exact Array.mem_of_getElem heq

lemma textCanHandle_iff (hutf8 : raw.IsValidUTF8) (hnul : (0 : UInt8) ∉ raw.data) :
    textCanHandle P raw contentType = true ↔
      isTextContentType contentType = true ∨ ¬ CutsCharacter raw ∨ Sure P raw := by
  unfold textCanHandle
  by_cases htype : isTextContentType contentType = true
  · rw [if_pos htype]
    exact iff_of_true rfl (.inl htype)
  · rw [if_neg htype, or_iff_right htype]
    dsimp only
    rw [if_neg (by rw [sample_without_nul hnul]; exact Bool.false_ne_true), ← sample_valid_iff hutf8]
    by_cases hvalid : (raw.extract 0 sampleSize).IsValidUTF8
    · rw [if_pos hvalid]
      exact iff_of_true rfl (.inl hvalid)
    · rw [if_neg hvalid, or_iff_right hvalid, Sure]
      cases hdetect : P.detect (raw.extract 0 sampleSize) with
      | none => simp
      | some d => simp

lemma pdfCanHandle_of_other (hne : ext ≠ "") (hext : lower ext ≠ ".pdf") :
    pdfCanHandle P raw contentType ext = false := by
  rw [pdfCanHandle, if_pos ⟨hne, hext⟩]

/-- Under another extension than that of a PDF, a text comes out where the text handler takes the
content. -/
lemma extractText_ok_iff (hne : ext ≠ "") (hext : lower ext ≠ ".pdf") :
    (∃ text, extractText P raw contentType ext = .ok text) ↔ textCanHandle P raw contentType = true := by
  rw [extractText, getHandler_eq, pdfCanHandle_of_other hne hext, if_neg Bool.false_ne_true]
  by_cases htext : textCanHandle P raw contentType = true
  · rw [if_pos htext]
    exact iff_of_true (TextDecoding.exists_textExtract P raw contentType) htext
  · rw [if_neg htext]
    refine iff_of_false ?_ htext
    rintro ⟨text, heq⟩
    cases heq

/-- **Which texts find a handler**: those of a text content type, those with no character across the
end of the sample, and those that the detector is sure of. -/
theorem text_extracted_iff (P : Packages) (raw : ByteArray) (contentType ext : String)
    (hutf8 : raw.IsValidUTF8) (hnul : (0 : UInt8) ∉ raw.data) (hne : ext ≠ "")
    (hext : lower ext ≠ ".pdf") :
    (∃ text, extractText P raw contentType ext = .ok text) ↔
      isTextContentType contentType = true ∨ ¬ CutsCharacter raw ∨ Sure P raw := by
  rw [extractText_ok_iff hne hext, textCanHandle_iff hutf8 hnul]

/-- A text that ends with a letter of two bytes. -/
def accented (n : ℕ) : ByteArray := (List.replicate n (97 : UInt8)).toByteArray ++ "é".toByteArray

lemma accented_valid (n : ℕ) : (accented n).IsValidUTF8 := by
  have hletter : String.utf8EncodeChar 'a' = [97] := by decide
  refine ByteArray.IsValidUTF8.append ⟨List.replicate n 'a', ?_⟩ "é".isValidUTF8
  rw [List.utf8Encode, List.flatMap_replicate, hletter, List.flatten_replicate_singleton]

lemma accented_without_nul (n : ℕ) : (0 : UInt8) ∉ (accented n).data := by
  rw [accented, ByteArray.data_append, List.data_toByteArray, Array.mem_append, List.mem_toArray]
  rintro (hletters | hlast)
  · exact absurd (List.eq_of_mem_replicate hletters) (by decide)
  · have hbytes : "é".toByteArray.data.toList = [195, 169] := rfl
    rw [Array.mem_def, hbytes] at hlast
    exact absurd hlast (by decide)

/-- The sample ends between the two bytes. -/
lemma cutsCharacter_accented : CutsCharacter (accented (sampleSize - 1)) := by
  have hletters : (List.replicate (sampleSize - 1) (97 : UInt8)).toByteArray.size = sampleSize - 1 := by
    rw [List.size_toByteArray, List.length_replicate]
  have hsize : (accented (sampleSize - 1)).size = sampleSize + 1 := by
    rw [accented, ByteArray.size_append, hletters]
    rfl
  have hbyte : ∀ (i : ℕ) (h : i < "é".toByteArray.size), i = 1 → "é".toByteArray[i] = 169 := by decide
  refine ⟨by rw [hsize]; exact Nat.lt_succ_self _, ?_⟩
  unfold accented
  rw [ByteArray.getElem_append_right, hbyte]
  · decide
  · rw [hletters]
    rfl
  · rw [hletters]
    exact Nat.sub_le _ _

lemma not_pdf_accented : startsWith (accented (n + 1)) pdfMark = false := by
  refine decide_eq_false fun heq => ?_
  have hmark : pdfMark.data.toList = [37, 80, 68, 70] := rfl
  have hhead := congrArg (fun b => b.data.toList.head?) heq
  rw [hmark] at hhead
  have hsize : pdfMark.size = 4 := rfl
  simp [accented, List.data_toByteArray, List.replicate_succ, hsize] at hhead

/-- The sample ends before the letter. -/
lemma not_cutsCharacter_accented : ¬ CutsCharacter (accented sampleSize) := by
  have hletters : (List.replicate sampleSize (97 : UInt8)).toByteArray.size = sampleSize := by
    rw [List.size_toByteArray, List.length_replicate]
  have hbyte : ∀ (i : ℕ) (h : i < "é".toByteArray.size), i = 0 → "é".toByteArray[i] = 195 := by decide
  unfold CutsCharacter accented
  rintro ⟨hsize, hcut⟩
  rw [ByteArray.getElem_append_right (by rw [hletters]), hbyte _ _ (by rw [hletters, Nat.sub_self])] at hcut
  exact absurd hcut (by decide)

theorem text_extracted_docs : isTextContentType "application/sql" = false ∧
    ∃ text, extractText demoPackages (accented sampleSize) "application/sql" ".sql" = .ok text := by
  refine ⟨by decide, ?_⟩
  exact (text_extracted_iff demoPackages (accented sampleSize) "application/sql" ".sql"
    (accented_valid sampleSize) (accented_without_nul sampleSize) (by decide) (by decide)).mpr
      (.inr (.inl not_cutsCharacter_accented))

/-- A query file is refused when its sample ends inside of a letter. -/
theorem not_text_extracted :
    ¬ ∀ (P : Packages) (raw : ByteArray) (contentType ext : String), raw.IsValidUTF8 →
      (0 : UInt8) ∉ raw.data → startsWith raw pdfMark = false → isPdfContentType contentType = false →
      ext ≠ "" → lower ext ≠ ".pdf" → ∃ text, extractText P raw contentType ext = .ok text := by
  intro hall
  have hext : fileExtension "q.sql" ≠ "" := by decide
  have hvalid := accented_valid (sampleSize - 1)
  have hnul := accented_without_nul (sampleSize - 1)
  obtain htaken := hall demoPackages _ (getContentType "q.sql") (fileExtension "q.sql") hvalid hnul
    not_pdf_accented (by decide) hext (by decide)
  rw [extractText_ok_iff hext (by decide), textCanHandle_iff hvalid hnul] at htaken
  rcases htaken with htype | hcuts | ⟨d, hdetect, _⟩
  · exact absurd htype (by decide)
  · exact hcuts cutsCharacter_accented
  · cases hdetect

end KaitoAutoIndexer.HandlerChoice
