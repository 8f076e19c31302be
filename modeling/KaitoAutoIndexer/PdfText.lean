import KaitoAutoIndexer.ContentHandlers
import KaitoAutoIndexer.Lib.Separated

/-!
The text of a PDF: what the handler makes of the pages and of the tables that pdfplumber finds on
them, and what can be read back from it.
-/

namespace KaitoAutoIndexer.PdfText

open KaitoAutoIndexer.Lib.Separated
open KaitoAutoIndexer.Text (isSpace strip)
open KaitoAutoIndexer.ContentHandlers

/-! ### Tables -/

/-- The cells of a row; one that pdfplumber finds empty may be `None`. -/
abbrev Row := List (Option (List Char))

/-- `any(cell for cell in row if cell)`. -/
def hasText (row : Row) : Bool := row.any fun cell => cell.any (· ≠ [])

def cellText : Option (List Char) → List Char
  | some cell => strip cell
  | none => []

def cellSep : List Char := " | ".toList

def lineSep : List Char := ['\n']

/-- The rows that are not empty, cell by cell. -/
def textRows (table : List Row) : List (List (List Char)) := (table.filter hasText).map (·.map cellText)

/-- `_table_to_text`. -/
def tableToText (table : List Row) : List Char :=
  if table.filter hasText = [] then []
  else lineSep.intercalate ((textRows table).map cellSep.intercalate)

/-! ### Pages -/

/-- A page as pdfplumber reads it; either reading may raise. -/
structure Page where
  text : Except String (Option (List Char))
  tables : Except String (List (List Row))

/-- A part of the text: what is on a page, or one of its tables. -/
structure Section where
  page : ℕ
  table : Option ℕ
  body : List Char
  deriving DecidableEq

/-- A number in a title. -/
def numeral (n : ℕ) : List Char := Nat.toDigits 10 n

def Section.title (x : Section) : List Char :=
  match x.table with
  | none => "--- Page ".toList ++ numeral x.page ++ " ---".toList
  | some m => "--- Page ".toList ++ numeral x.page ++ " Table ".toList ++ numeral m ++ " ---".toList

def Section.part (x : Section) : List Char := x.title ++ '\n' :: x.body

/-- The section of a text, unless it is blank. -/
def sectionOf (page : ℕ) (table : Option ℕ) (text : List Char) : List Section :=
  if strip text = [] then [] else [⟨page, table, strip text⟩]

/-- The tables of a page, numbered from `m`. -/
def tableSections (page : ℕ) : (m : ℕ) → List (List Row) → List Section
  | _, [] => []
  | m, table :: tables =>
    sectionOf page (some m) (tableToText table) ++ tableSections page (m + 1) tables

/-- A page that cannot be read gives nothing; if its tables cannot be read, its text stays. -/
def pageSections (page : ℕ) (p : Page) : List Section :=
  match p.text with
  | .error _ => []
  | .ok text =>
    (match text with
      | some text => sectionOf page none text
      | none => []) ++
    match p.tables with
    | .error _ => []
    | .ok tables => tableSections page 1 tables

def sectionsFrom : (page : ℕ) → List Page → List Section
  | _, [] => []
  | page, p :: pages => pageSections page p ++ sectionsFrom (page + 1) pages

/-- The parts of a PDF; one that does not open has none. -/
def sections : Except String (List Page) → List Section
  | .ok pages => sectionsFrom 1 pages
  | .error _ => []

def blankLine : List Char := ['\n', '\n']

/-- The text that `extract_text` joins. -/
def extractedText (opened : Except String (List Page)) : List Char :=
  blankLine.intercalate ((sections opened).map Section.part)

/-- The PDF reader of the content handlers, as it stands on pdfplumber. -/
def pdfReader (openPdf : ByteArray → Except String (List Page)) : PdfReader where
  pages raw :=
    match openPdf raw with
    | .ok pages => some pages.length
    | .error _ => none
  text raw := String.ofList (extractedText (openPdf raw))

/-! ### Stripped texts -/

variable {s : List Char} {x : Section} {l : List Section} {table : List Row}
  {rows : List (List (List Char))}

/-- No space at either end. -/
structure Clean (s : List Char) : Prop where
  first : ∀ c, s.head? = some c → isSpace c = false
  last : ∀ c, s.getLast? = some c → isSpace c = false

lemma clean_strip (s : List Char) : Clean (strip s) := by
  constructor
  · intro c hc
    have hbegins : strip s <+: s.dropWhile isSpace := List.rdropWhile_prefix ..
    have hhead : (s.dropWhile isSpace).head? = some c := by
      obtain ⟨rest, hrest⟩ := hbegins
      rw [← hrest, List.head?_append, hc]
      rfl
    have hnot := List.head?_dropWhile_not isSpace s
    rwa [hhead] at hnot
  · intro c hc
    have hne : strip s ≠ [] := by
      rintro h
      rw [h] at hc
      cases hc
    have hnot := List.rdropWhile_last_not isSpace (s.dropWhile isSpace) hne
    rw [List.getLast?_eq_getLast_of_ne_nil hne] at hc
    obtain rfl := Option.some.inj hc
    exact Bool.eq_false_iff.mpr hnot

lemma strip_eq_self_iff : strip s = s ↔ Clean s := by
  refine ⟨fun h => h ▸ clean_strip s, fun h => ?_⟩
  have hfirst : s.dropWhile isSpace = s := by
    cases s with
    | nil => rfl
    | cons c s => rw [List.dropWhile_cons_of_neg (by rw [h.first c rfl]; exact Bool.false_ne_true)]
  rw [strip, hfirst, List.rdropWhile_eq_self_iff]
  intro hne
  rw [h.last _ (List.getLast?_eq_getLast_of_ne_nil hne)]
  exact Bool.false_ne_true

lemma strip_ne_nil {c : Char} (hmem : c ∈ s) (hc : isSpace c = false) : strip s ≠ [] := by
  intro h
  have hall := List.rdropWhile_eq_nil_iff.mp h
  have hdrop : s.dropWhile isSpace = [] := by
    by_contra hne
    obtain ⟨d, rest, hd⟩ := List.exists_cons_of_ne_nil hne
    have hnot := List.head?_dropWhile_not isSpace s
    rw [hd] at hnot
    have hspace := hall d (hd ▸ List.mem_cons_self)
    simp only [List.head?_cons] at hnot
    rw [hnot] at hspace
    cases hspace
  have hspace := List.dropWhile_eq_nil_iff.mp hdrop c hmem
  rw [hc] at hspace
  cases hspace

/-! ### The sections, read back -/

def readTitle (title : List Char) : Option (ℕ × Option ℕ) :=
  match cut [' '] title with
  | [_, _, page, _] => some (Nat.ofDigitChars 10 page 0, none)
  | [_, _, page, _, table, _] => some (Nat.ofDigitChars 10 page 0, some (Nat.ofDigitChars 10 table 0))
  | _ => none

/-- The section with this part, if there is one. -/
def readPart (part : List Char) : Option Section :=
  match readTitle (part.takeWhile (· ≠ '\n')) with
  | some (page, table) =>
    let x : Section := ⟨page, table, (part.dropWhile (· ≠ '\n')).drop 1⟩
    if x.part = part then some x else none
  | none => none

/-- The parts between blank lines. -/
def readText (text : List Char) : List (Option Section) := (cut blankLine text).map readPart

lemma not_mem_numeral {c : Char} (hc : c.isDigit = false) (n : ℕ) : c ∉ numeral n := by
  intro hmem
  have hdigit := Nat.isDigit_of_mem_toDigits (by omega) (by omega) hmem
  rw [hc] at hdigit
  cases hdigit

lemma not_mem_title (x : Section) : '\n' ∉ x.title := by
  have hnot : ∀ n, '\n' ∉ numeral n := not_mem_numeral (by decide)
  unfold Section.title
  split <;> simp [hnot]

/-- The words of a title. -/
def Section.words (x : Section) : List (List Char) :=
  match x.table with
  | none => ["---".toList, "Page".toList, numeral x.page, "---".toList]
  | some m => ["---".toList, "Page".toList, numeral x.page, "Table".toList, numeral m, "---".toList]

lemma intercalate_words (x : Section) : [' '].intercalate x.words = x.title := by
  unfold Section.words Section.title
  split <;> simp [List.intercalate_cons_cons]

lemma cut_title (x : Section) : cut [' '] x.title = x.words := by
  have hnot : ∀ n, ' ' ∉ numeral n := not_mem_numeral (by decide)
  rw [← intercalate_words, cut_intercalate_iff (by simp), apart_singleton]
  unfold Section.words
  split <;> simp [hnot]

lemma readTitle_title (x : Section) : readTitle x.title = some (x.page, x.table) := by
  have hvalue : ∀ n, Nat.ofDigitChars 10 (numeral n) 0 = n := fun _ => Nat.ofDigitChars_ten_toDigits
  rw [readTitle, cut_title]
  unfold Section.words
  cases x.table <;> simp [hvalue]

lemma readPart_part (x : Section) : readPart x.part = some x := by
  have hnot : ∀ c ∈ x.title, c ≠ '\n' := fun c hc h => not_mem_title x (h ▸ hc)
  have htitle : x.part.takeWhile (· ≠ '\n') = x.title := by
    rw [Section.part, List.takeWhile_append_of_pos (by simpa using hnot)]
    simp
  have hbody : (x.part.dropWhile (· ≠ '\n')).drop 1 = x.body := by
    rw [Section.part, List.dropWhile_append_of_pos (by simpa using hnot)]
    simp
  rw [readPart, htitle, readTitle_title, hbody]
  exact if_pos rfl

lemma part_of_readPart {part : List Char} (h : readPart part = some x) : x.part = part := by
  unfold readPart at h
  split at h
  · dsimp only at h
    split_ifs at h with hpart
    obtain rfl := Option.some.inj h
    exact hpart
  · cases h

/-- The text of a section: not empty, without spaces around it. -/
structure Section.Tidy (x : Section) : Prop where
  nonempty : x.body ≠ []
  clean : Clean x.body

lemma tidy_sectionOf {page : ℕ} {table : Option ℕ} (hx : x ∈ sectionOf page table s) : x.Tidy := by
  unfold sectionOf at hx
  split_ifs at hx with hs
  · cases hx
  · obtain rfl := List.mem_singleton.mp hx
    exact ⟨hs, clean_strip s⟩

lemma tidy_tableSections {page m : ℕ} {tables : List (List Row)}
    (hx : x ∈ tableSections page m tables) : x.Tidy := by
  induction tables generalizing m with
  | nil => cases hx
  | cons table tables ih =>
    rcases List.mem_append.mp hx with hx | hx
    · exact tidy_sectionOf hx
    · exact ih hx

lemma tidy_pageSections {page : ℕ} {p : Page} (hx : x ∈ pageSections page p) : x.Tidy := by
  unfold pageSections at hx
  split at hx
  · cases hx
  · rcases List.mem_append.mp hx with hx | hx
    · split at hx
      · exact tidy_sectionOf hx
      · cases hx
    · split at hx
      · cases hx
      · exact tidy_tableSections hx

lemma tidy_sections {opened : Except String (List Page)} (hx : x ∈ sections opened) : x.Tidy := by
  have hfrom : ∀ page pages, x ∈ sectionsFrom page pages → x.Tidy := by
    intro page pages
    induction pages generalizing page with
    | nil => exact fun h => absurd h List.not_mem_nil
    | cons p pages ih =>
      intro h
      rcases List.mem_append.mp h with h | h
      · exact tidy_pageSections h
      · exact ih _ h
  cases opened with
  | ok pages => exact hfrom 1 pages hx
  | error e => cases hx

/-- A title brings no blank line with it, and a body that is tidy none with what surrounds it. -/
lemma Section.Tidy.blankLine_iff (h : x.Tidy) (after : List Char) (hafter : after = [] ∨ after = ['\n']) :
    blankLine <:+: x.part ++ after ↔ blankLine <:+: x.body := by
  have hbody : blankLine <:+: x.body ++ after ↔ blankLine <:+: x.body := by
    rcases hafter with rfl | rfl
    · rw [List.append_nil]
    · rw [List.infix_concat_iff]
      refine or_iff_right fun hsuffix => ?_
      obtain ⟨before, hbefore⟩ := hsuffix
      have hlast : x.body.getLast? = some '\n' := by
        have hinit : before ++ ['\n'] ++ ['\n'] = x.body ++ ['\n'] := by
          rw [← hbefore, List.append_assoc]
          rfl
        rw [← List.append_cancel_right hinit, List.getLast?_concat]
      exact absurd (h.clean.last _ hlast) (by decide)
  have htitle : ∀ title : List Char, '\n' ∉ title →
      (blankLine <:+: title ++ '\n' :: (x.body ++ after) ↔ blankLine <:+: x.body ++ after) := by
    intro title hnot
    induction title with
    | nil =>
      rw [List.nil_append, List.infix_cons_iff]
      refine or_iff_right fun hbegins => ?_
      have hfirst : x.body.head? = some '\n' := by
        obtain ⟨c, body, hcons⟩ := List.exists_cons_of_ne_nil h.nonempty
        obtain ⟨rest, hrest⟩ := hbegins
        rw [hcons] at hrest ⊢
        have hc : '\n' = c := by simpa [blankLine] using (List.cons.inj (List.cons.inj hrest).2).1
        rw [← hc]
        rfl
      exact absurd (h.clean.first _ hfirst) (by decide)
    | cons c title ih =>
      rw [List.mem_cons, not_or] at hnot
      rw [List.cons_append, List.infix_cons_iff, ih hnot.2]
      refine or_iff_right fun hbegins => ?_
      obtain ⟨rest, hrest⟩ := hbegins
      exact hnot.1 (List.cons.inj hrest).1
  rw [Section.part, List.append_assoc, List.cons_append, htitle x.title (not_mem_title x), hbody]

lemma apart_parts (hne : l ≠ []) (htidy : ∀ x ∈ l, x.Tidy) :
    Apart blankLine (l.map Section.part) ↔ ∀ x ∈ l, ¬ blankLine <:+: x.body := by
  induction l with
  | nil => exact absurd rfl hne
  | cons x l ih =>
    have hx := htidy x List.mem_cons_self
    have hl := fun y hy => htidy y (List.mem_cons_of_mem x hy)
    cases l with
    | nil =>
      have hpart := hx.blankLine_iff [] (.inl rfl)
      rw [List.append_nil] at hpart
      simpa [Apart] using not_congr hpart
    | cons y l =>
      have hpart := hx.blankLine_iff ['\n'] (.inr rfl)
      have happart : Apart blankLine ((x :: y :: l).map Section.part) ↔
          ¬ blankLine <:+: x.body ∧ Apart blankLine ((y :: l).map Section.part) :=
        and_congr_left' (not_congr hpart)
      rw [happart, ih (by simp) hl]
      exact (List.forall_mem_cons (p := fun z : Section => ¬ blankLine <:+: z.body)).symm

/-- Reading is exact: it gives the sections if and only if it cuts the text into their parts. -/
lemma readText_eq_iff : readText s = l.map some ↔ cut blankLine s = l.map Section.part := by
  unfold readText
  constructor
  · intro h
    have hparts : ∀ part ∈ cut blankLine s, (Option.map Section.part ∘ readPart) part = some part := by
      intro part hpart
      have hread : readPart part ∈ l.map some := h ▸ List.mem_map_of_mem hpart
      obtain ⟨x, -, hx⟩ := List.mem_map.mp hread
      rw [Function.comp_apply, ← hx, Option.map_some, part_of_readPart hx.symm]
    have hsome := congrArg (List.map (Option.map Section.part)) h
    rw [List.map_map, List.map_congr_left hparts, List.map_map] at hsome
    have hinj : Function.Injective (List.map (some : List Char → Option (List Char))) :=
      List.map_injective_iff.mpr (Option.some_injective _)
    refine hinj (hsome.trans ?_)
    rw [List.map_map]
    rfl
  · intro h
    rw [h, List.map_map]
    exact List.map_congr_left fun x _ => readPart_part x

/-- **What can be read back.** A PDF is extracted with a text whose parts are its sections, with the
numbers of their pages and tables, if and only if it has a section, and none of them has a blank line
in it. -/
theorem sections_read_back_iff (P : Packages) (openPdf : ByteArray → Except String (List Page))
    (raw : ByteArray) :
    (∃ text, pdfExtract { P with pdf := pdfReader openPdf } raw = .ok text ∧
      readText text.toList = (sections (openPdf raw)).map some) ↔
    sections (openPdf raw) ≠ [] ∧ ∀ x ∈ sections (openPdf raw), ¬ blankLine <:+: x.body := by
  have htidy : ∀ x ∈ sections (openPdf raw), x.Tidy := fun x hx => tidy_sections hx
  by_cases hne : sections (openPdf raw) = []
  · refine iff_of_false ?_ fun h => h.1 hne
    rintro ⟨text, htext, -⟩
    have hempty : strip ((pdfReader openPdf).text raw).toList = [] := by
      simp [pdfReader, extractedText, hne, strip]
    rw [pdfExtract, if_pos hempty] at htext
    cases htext
  · have hdash : '-' ∈ extractedText (openPdf raw) := by
      obtain ⟨x, l, hl⟩ := List.exists_cons_of_ne_nil hne
      have hx : '-' ∈ x.part := by
        unfold Section.part Section.title
        cases x.table <;> simp
      unfold extractedText
      rw [hl, List.map_cons]
      cases l with
      | nil => simpa using hx
      | cons y l =>
        rw [List.map_cons, List.intercalate_cons_cons, List.append_assoc]
        exact List.mem_append_left _ hx
    have hext : pdfExtract { P with pdf := pdfReader openPdf } raw =
        .ok (String.ofList (extractedText (openPdf raw))) := by
      refine if_neg ?_
      rw [pdfReader, String.toList_ofList]
      exact strip_ne_nil hdash (by decide)
    rw [hext, ← apart_parts hne htidy]
    simp only [Except.ok.injEq, exists_eq_left', String.toList_ofList, readText_eq_iff, ne_eq, hne,
      not_false_eq_true, true_and]
    exact cut_intercalate_iff (by decide)

/-! ### The tables, read back -/

/-- The rows of a table, in the body of its section. -/
def readTable (body : List Char) : List (List (List Char)) := (cut lineSep body).map (cut cellSep)

lemma readTable_eq (body : List Char) :
    lineSep.intercalate ((readTable body).map cellSep.intercalate) = body := by
  have hjoin : cellSep.intercalate ∘ cut cellSep = id := funext (intercalate_cut (by decide))
  rw [readTable, List.map_map, hjoin, List.map_id, intercalate_cut (by decide)]

lemma tableToText_eq (table : List Row) :
    tableToText table = lineSep.intercalate ((textRows table).map cellSep.intercalate) := by
  unfold tableToText
  split_ifs with h
  · simp [textRows, h]
  · rfl

/-- The cells are stripped. -/
lemma clean_of_mem_textRows {row : List (List Char)} {cell : List Char} (hrow : row ∈ textRows table)
    (hcell : cell ∈ row) : Clean cell := by
  obtain ⟨r, -, rfl⟩ := List.mem_map.mp hrow
  obtain ⟨c, -, rfl⟩ := List.mem_map.mp hcell
  cases c with
  | none => exact ⟨nofun, nofun⟩
  | some c => exact clean_strip c

/-- Rows of cells that are told apart, with text in the first cell and in the last one. -/
structure Legible (rows : List (List (List Char))) : Prop where
  first : ∃ cell row rest, rows = (cell :: row) :: rest ∧ cell ≠ []
  last : ∃ rest row cell, rows = rest ++ [row ++ [cell]] ∧ cell ≠ []
  cells : ∀ row ∈ rows, Apart cellSep row
  lines : ∀ row ∈ rows, ∀ cell ∈ row, '\n' ∉ cell

/-- The text of the rows, as it is joined. -/
def joined (rows : List (List (List Char))) : List Char :=
  lineSep.intercalate (rows.map cellSep.intercalate)

lemma Clean.of_prefix {c : Char} {t : List Char} (h : Clean s) (hbegins : c :: t <+: s) :
    isSpace c = false := by
  obtain ⟨rest, rfl⟩ := hbegins
  exact h.first c rfl

lemma Clean.of_suffix {c : Char} {t : List Char} (h : Clean s) (hsuffix : t ++ [c] <:+ s) :
    isSpace c = false := by
  obtain ⟨rest, rfl⟩ := hsuffix
  refine h.last c ?_
  rw [← List.append_assoc, List.getLast?_concat]

/-- A text without spaces at its ends has something in the first cell. -/
lemma Clean.first_cell {cell : List Char} {row : List (List Char)} {rest : List (List (List Char))}
    (h : Clean (joined ((cell :: row) :: rest))) (hne : joined ((cell :: row) :: rest) ≠ []) : cell ≠ [] := by
  rintro rfl
  by_cases hrow : row = []
  · subst hrow
    by_cases hrest : rest = []
    · subst hrest
      exact hne rfl
    · have hbegins : '\n' :: [] <+: joined ([[]] :: rest) :=
        append_prefix_intercalate lineSep [] (by simpa using hrest)
      exact absurd (h.of_prefix hbegins) (by decide)
  · have hbegins : ' ' :: ['|', ' '] <+: joined (([] :: row) :: rest) :=
      (append_prefix_intercalate cellSep [] hrow).trans (prefix_intercalate lineSep _ _)
    exact absurd (h.of_prefix hbegins) (by decide)

/-- And in the last one. -/
lemma Clean.last_cell {cell : List Char} {row : List (List Char)} {rest : List (List (List Char))}
    (h : Clean (joined (rest ++ [row ++ [cell]]))) (hne : joined (rest ++ [row ++ [cell]]) ≠ []) :
    cell ≠ [] := by
  rintro rfl
  have hmap : ∀ line, (rest ++ [line]).map cellSep.intercalate =
      rest.map cellSep.intercalate ++ [cellSep.intercalate line] := fun line => by simp
  unfold joined at h hne
  rw [hmap] at h hne
  by_cases hrow : row = []
  · subst hrow
    by_cases hrest : rest = []
    · subst hrest
      exact hne rfl
    · have hsuffix : [] ++ ['\n'] <:+ lineSep.intercalate (rest.map cellSep.intercalate ++ [[]]) :=
        append_suffix_intercalate lineSep [] (by simpa using hrest)
      exact absurd (h.of_suffix hsuffix) (by decide)
  · have hsuffix : [' ', '|'] ++ [' '] <:+
        lineSep.intercalate (rest.map cellSep.intercalate ++ [cellSep.intercalate (row ++ [[]])]) :=
      (append_suffix_intercalate cellSep [] hrow).trans (suffix_intercalate lineSep _ _)
    exact absurd (h.of_suffix hsuffix) (by decide)

lemma Legible.clean (h : Legible rows) (hcells : ∀ row ∈ rows, ∀ cell ∈ row, Clean cell) :
    Clean (joined rows) := by
  constructor
  · obtain ⟨cell, row, rest, rfl, hne⟩ := h.first
    have hbegins : cell <+: joined ((cell :: row) :: rest) :=
      (prefix_intercalate cellSep cell row).trans (prefix_intercalate lineSep _ _)
    obtain ⟨d, cell, rfl⟩ := List.exists_cons_of_ne_nil hne
    obtain ⟨after, hafter⟩ := hbegins
    intro c hc
    rw [← hafter] at hc
    exact (hcells _ List.mem_cons_self _ List.mem_cons_self).first c hc
  · obtain ⟨rest, row, cell, rfl, hne⟩ := h.last
    have hsuffix : cell <:+ joined (rest ++ [row ++ [cell]]) := by
      unfold joined
      rw [List.map_append, List.map_singleton]
      exact (suffix_intercalate cellSep cell row).trans (suffix_intercalate lineSep _ _)
    obtain ⟨before, hbefore⟩ := hsuffix
    intro c hc
    rw [← hbefore, List.getLast?_append_of_ne_nil _ hne] at hc
    exact (hcells (row ++ [cell]) (by simp) cell (by simp)).last c hc

/-- **A table can be read back** from the body of its section, row by row and cell by cell, if and
only if its cells are told apart and those in two of its corners have text. -/
theorem table_read_back_iff (table : List Row) :
    (strip (tableToText table) ≠ [] ∧ readTable (strip (tableToText table)) = textRows table) ↔
      Legible (textRows table) := by
  have hjoined : tableToText table = joined (textRows table) := tableToText_eq table
  have hcells : ∀ row ∈ textRows table, ∀ cell ∈ row, Clean cell :=
    fun row hrow cell hcell => clean_of_mem_textRows hrow hcell
  have hcut : readTable (joined (textRows table)) = textRows table ↔
      Apart lineSep ((textRows table).map cellSep.intercalate) ∧
        ∀ row ∈ textRows table, Apart cellSep row := cut_cut_iff (by decide) (by decide)
  rw [hjoined]
  constructor
  · rintro ⟨hne, hread⟩
    have hself : strip (joined (textRows table)) = joined (textRows table) := by
      have hbody := readTable_eq (strip (joined (textRows table)))
      rw [hread] at hbody
      exact hbody.symm
    have hclean := strip_eq_self_iff.mp hself
    rw [hself] at hne hread
    obtain ⟨hlines, hrows⟩ := hcut.mp hread
    obtain ⟨hsome, hlines⟩ := apart_singleton.mp hlines
    refine ⟨?_, ?_, hrows, fun row hrow cell hcell hmem => ?_⟩
    · match hr : textRows table with
      | [] => simp [hr] at hsome
      | [] :: rest => exact (hrows [] (by simp [hr])).elim
      | (cell :: row) :: rest =>
        rw [hr] at hclean hne
        exact ⟨cell, row, rest, rfl, hclean.first_cell hne⟩
    · rcases List.eq_nil_or_concat (textRows table) with hr | ⟨rest, row, hr⟩
      · simp [hr] at hsome
      · rcases List.eq_nil_or_concat row with rfl | ⟨row, cell, rfl⟩
        · exact (hrows [] (by simp [hr])).elim
        · rw [List.concat_eq_append, List.concat_eq_append] at hr
          rw [hr] at hclean hne
          exact ⟨rest, row, cell, hr, hclean.last_cell hne⟩
    · exact hlines _ (List.mem_map_of_mem hrow) (subset_intercalate hcell hmem)
  · intro h
    have hself := strip_eq_self_iff.mpr (h.clean hcells)
    rw [hself]
    refine ⟨?_, hcut.mpr ⟨apart_singleton.mpr ⟨?_, fun line hline hmem => ?_⟩, h.cells⟩⟩
    · obtain ⟨cell, row, rest, hr, hne⟩ := h.first
      intro hempty
      have hbegins : cell <+: joined (textRows table) := by
        rw [hr]
        exact (prefix_intercalate cellSep cell row).trans (prefix_intercalate lineSep _ _)
      rw [hempty] at hbegins
      exact hne (List.prefix_nil.mp hbegins)
    · obtain ⟨cell, row, rest, hr, -⟩ := h.first
      simp [hr]
    · obtain ⟨row, hrow, rfl⟩ := List.mem_map.mp hline
      rcases mem_of_mem_intercalate hmem with hsep | ⟨cell, hcell, hnewline⟩
      · exact absurd hsep (by decide)
      · exact h.lines row hrow cell hcell hnewline

/-- A table with an empty corner loses a column there. -/
example : readTable (strip (tableToText [[none, some ['a']], [some ['b'], some ['c']]])) =
    [[['|', ' ', 'a']], [['b'], ['c']]] := by decide

end KaitoAutoIndexer.PdfText
