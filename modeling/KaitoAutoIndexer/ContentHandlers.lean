import KaitoAutoIndexer.Text

/-!
The content handlers: which of them takes the bytes of a file, and the text that it makes of them.
The codecs, the charset detector and the PDF reader are those of the Python library and of packages.
-/

namespace KaitoAutoIndexer.ContentHandlers

open KaitoAutoIndexer.Text

/-! ### Codecs -/

/-- An encoding of texts. -/
structure Codec where
  encode : String → Option ByteArray
  decode : ByteArray → Option String
  decode_empty : decode ByteArray.empty = some ""

lemma fromUTF8_toByteArray (s : String) : String.fromUTF8? s.toByteArray = some s := by
  rw [String.fromUTF8?, dif_pos s.isValidUTF8]
  rfl

def utf8 : Codec where
  encode s := some s.toByteArray
  decode := String.fromUTF8?
  decode_empty := fromUTF8_toByteArray ""

/-- The byte order mark. -/
def bom : ByteArray := "\uFEFF".toByteArray

/-- `bytes.startswith` -/
def startsWith (raw mark : ByteArray) : Bool := raw.extract 0 mark.size = mark

def utf8Sig : Codec where
  encode s := some (bom ++ s.toByteArray)
  decode raw := String.fromUTF8? (if startsWith raw bom then raw.extract bom.size raw.size else raw)
  decode_empty := by
    have hmark : startsWith ByteArray.empty bom = false := by
      refine decide_eq_false fun heq => ?_
      have hsize := congrArg ByteArray.size heq
      revert hsize
      decide
    rw [if_neg (by rw [hmark]; exact Bool.false_ne_true)]
    exact fromUTF8_toByteArray ""

def encodeLatin1 (s : String) : Option ByteArray :=
  if s.toList.all (·.toNat < 256) then some ⟨(s.toList.map fun c => UInt8.ofNat c.toNat).toArray⟩ else none

def decodeLatin1 (raw : ByteArray) : String :=
  String.ofList (raw.data.toList.map fun b => Char.ofNat b.toNat)

/-- Every byte is a character. -/
def latin1 : Codec where
  encode := encodeLatin1
  decode raw := some (decodeLatin1 raw)
  decode_empty := rfl

/-- The codecs by their names, as `bytes.decode` looks them up: of the punctuation around a name
nothing is left. `replaced` is what `errors='replace'` makes of bytes, or the error. -/
structure Registry where
  lookup : String → Option Codec
  utf8 : lookup "utf-8" = some ContentHandlers.utf8
  utf8Sig : lookup "utf-8-sig" = some ContentHandlers.utf8Sig
  latin1 : lookup "latin1" = some ContentHandlers.latin1
  quoted : ∀ name, lookup ("\"" ++ name ++ "\"") = lookup name
  replaced : ByteArray → Except String String

/-- `raw.decode(name)`; an unknown name raises too. -/
def Registry.decode (R : Registry) (name : String) (raw : ByteArray) : Option String :=
  (R.lookup name).bind fun c => c.decode raw

/-! ### The packages -/

/-- An answer of `chardet.detect`. -/
structure Detection where
  encoding : Option String
  confidence : ℚ

/-- The pages of a PDF that opens, and the text in them; none where there is no way to read it. -/
structure PdfReader where
  pages : ByteArray → Option ℕ
  text : ByteArray → String

structure Packages where
  registry : Registry
  detect : ByteArray → Option Detection
  pdf : PdfReader

variable (P : Packages)

/-! ### The text handler -/

def textContentTypes : List String :=
  ["text/", "application/json", "application/xml", "application/yaml", "application/javascript",
   "application/x-yaml", "application/toml", "text/csv"]

def isTextContentType (contentType : String) : Bool :=
  textContentTypes.any fun t => contains (lower contentType) t

def sampleSize : ℕ := 1024

/-- `TextContentHandler.can_handle`. -/
def textCanHandle (raw : ByteArray) (contentType : String) : Bool :=
  if isTextContentType contentType then true
  else
    let sample := raw.extract 0 sampleSize
    if sample.data.contains 0 then false
    else if sample.IsValidUTF8 then true
    else
      match P.detect sample with
      | some d => decide (7 / 10 < d.confidence)
      | none => false

/-- The encoding in the content type; an empty one is none. -/
def declaredCharset (contentType : String) : Option String :=
  if contains contentType "charset=" then
    let piece := (splitAround "charset=".toList contentType.toList).getD 1 ""
    let value := strip (piece.toList.takeWhile (· ≠ ';'))
    if value = [] then none else some (String.ofList value)
  else none

def commonEncodings : List String := ["utf-8", "utf-8-sig", "latin1", "cp1252", "iso-8859-1"]

/-- The encoding that the detector is sure of. -/
def detectedEncoding (raw : ByteArray) : Option String :=
  match P.detect raw with
  | some d => if 7 / 10 < d.confidence then d.encoding.filter (· ≠ "") else none
  | none => none

def encodingsToTry (raw : ByteArray) (contentType : String) : List String :=
  let encodings := (declaredCharset contentType).toList ++ commonEncodings
  match detectedEncoding P raw with
  | some e => if e ∈ encodings then encodings else encodings.insertIdx 1 e
  | none => encodings

/-- `TextContentHandler.extract_text`. -/
def textExtract (raw : ByteArray) (contentType : String) : Except String String :=
  if raw.size = 0 then .ok ""
  else
    match (encodingsToTry P raw contentType).findSome? (P.registry.decode · raw) with
    | some text => .ok text
    | none => (P.registry.replaced raw).mapError ("Unable to decode content: " ++ ·)

/-! ### The PDF handler -/

def isPdfContentType (contentType : String) : Bool := contains (lower contentType) "application/pdf"

def pdfMark : ByteArray := "%PDF".toByteArray

/-- `PDFContentHandler.can_handle`. -/
def pdfCanHandle (raw : ByteArray) (contentType fileExtension : String) : Bool :=
  if fileExtension ≠ "" ∧ lower fileExtension ≠ ".pdf" then false
  else if isPdfContentType contentType then true
  else if startsWith raw pdfMark then true
  else
    match P.pdf.pages raw with
    | some n => n ≠ 0
    | none => false

/-- `PDFContentHandler.extract_text`. -/
def pdfExtract (raw : ByteArray) : Except String String :=
  if strip (P.pdf.text raw).toList = [] then .error "Unable to extract text from PDF"
  else .ok (P.pdf.text raw)

/-! ### The factory -/

inductive Handler
  | pdf | text
  deriving DecidableEq

def Handler.priority : Handler → ℕ
  | .pdf => 10
  | .text => 1

def Handler.canHandle (raw : ByteArray) (contentType fileExtension : String) : Handler → Bool
  | .pdf => pdfCanHandle P raw contentType fileExtension
  | .text => textCanHandle P raw contentType

/-- The registered handlers, those of a higher priority first. -/
def handlers : List Handler := [Handler.pdf, .text].insertionSort fun a b => b.priority ≤ a.priority

def getHandler (raw : ByteArray) (contentType fileExtension : String) : Except String Handler :=
  match handlers.find? (Handler.canHandle P raw contentType fileExtension) with
  | some h => .ok h
  | none => .error "No suitable content handler found"

/-- `ContentHandlerFactory.extract_text`. -/
def extractText (raw : ByteArray) (contentType fileExtension : String) : Except String String := do
  match ← getHandler P raw contentType fileExtension with
  | .pdf => pdfExtract P raw
  | .text => textExtract P raw contentType

/-! ### The callers -/

/-- `os.path.splitext(path)[1].lower()` -/
def fileExtension (path : String) : String := lower (extension path)

def contentTypeMap : List (String × String) :=
  [(".py", "text/x-python"), (".go", "text/x-go"), (".js", "application/javascript"),
   (".ts", "application/typescript"), (".java", "text/x-java"), (".cpp", "text/x-c++"), (".c", "text/x-c"),
   (".h", "text/x-c"), (".hpp", "text/x-c++"), (".md", "text/markdown"), (".txt", "text/plain"),
   (".rst", "text/x-rst"), (".yaml", "application/x-yaml"), (".yml", "application/x-yaml"),
   (".json", "application/json"), (".toml", "application/toml"), (".xml", "application/xml"),
   (".html", "text/html"), (".css", "text/css"), (".sql", "application/sql"), (".sh", "application/x-sh"),
   (".bash", "application/x-sh")]

/-- `_get_content_type` of the Git handler. -/
def getContentType (path : String) : String := (contentTypeMap.lookup (fileExtension path)).getD "text/plain"

/-- What the Git handler reads of the bytes of a file. -/
def readBytes (path : String) (raw : ByteArray) : Except String String :=
  extractText P raw (getContentType path) (fileExtension path)

/-! ### An installation -/

def demoLookup (name : String) : Option Codec :=
  [("utf-8", utf8), ("utf-8-sig", utf8Sig), ("latin1", latin1)].lookup
    (String.ofList (name.toList.filter (· ≠ '"')))

lemma demoLookup_quoted (name : String) : demoLookup ("\"" ++ name ++ "\"") = demoLookup name := by
  have hfilter : ("\"" ++ name ++ "\"").toList.filter (· ≠ '"') = name.toList.filter (· ≠ '"') := by
    simp
  rw [demoLookup, hfilter, demoLookup]

/-- Without a detector, and without a PDF. -/
def demoPackages : Packages where
  registry :=
    { lookup := demoLookup, utf8 := rfl, utf8Sig := rfl, latin1 := rfl, quoted := demoLookup_quoted,
      replaced := fun raw => .ok (decodeLatin1 raw) }
  detect _ := none
  pdf := { pages := fun _ => none, text := fun _ => "" }

end KaitoAutoIndexer.ContentHandlers
