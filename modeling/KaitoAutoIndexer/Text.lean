import KaitoAutoIndexer.Types
import KaitoAutoIndexer.Lib.Separated

/-!
The string operations of the indexing job: path parts, extensions, substitution and
timestamps.
-/

namespace KaitoAutoIndexer.Text

open KaitoAutoIndexer.Lib KaitoAutoIndexer.Types

/-- `sub in s`. -/
def contains (s sub : String) : Bool := decide (sub.toList <:+: s.toList)

/-- `s.split('/')`. -/
def pathParts (s : String) : List (List Char) := s.toList.splitOn '/'

/-- The extension of `os.path.splitext`: from the last dot of the last part, unless only
dots stand before it. -/
def extension (path : String) : String :=
  let base := (pathParts path).getLast?.getD []
  let tail := base.reverse.takeWhile (· ≠ '.')
  let stem := (base.reverse.dropWhile (· ≠ '.')).drop 1
  if '.' ∈ base ∧ stem.any (· ≠ '.') then String.ofList ('.' :: tail.reverse) else ""

/-- `s.lower()`, on ASCII. -/
def lower (s : String) : String := String.ofList (s.toList.map Char.toLower)

/-- The pieces of `text` between the occurrences of `pat` that `str.replace` finds. -/
def splitAround (pat text : List Char) : List String :=
  (Separated.cut pat text).map String.ofList

/-- `str.isspace` -/
def isSpace (c : Char) : Bool :=
  let n := c.toNat
  (9 ≤ n && n ≤ 13) || (28 ≤ n && n ≤ 32) || n == 0x85 || n == 0xA0 || n == 0x1680 ||
    (0x2000 ≤ n && n ≤ 0x200A) || n == 0x2028 || n == 0x2029 || n == 0x202F || n == 0x205F || n == 0x3000

def strip (s : List Char) : List Char := (s.dropWhile isSpace).rdropWhile isSpace

/-! ### Timestamps -/

/-- A number in decimal, with zeros on the left up to `width` digits. -/
def padded (width n : ℕ) : String :=
  let digits := Nat.toDigits 10 n
  String.ofList (List.replicate (width - digits.length) '0' ++ digits)

/-- Year, month and day of the day number `days` since 1970-01-01, counted in eras of 400
years that begin on 1 March. -/
def civil (days : ℕ) : ℕ × ℕ × ℕ :=
  let z := days + 719468
  let doe := z % 146097
  let yoe := (doe - doe / 1460 + doe / 36524 - doe / 146096) / 365
  let doy := doe - (365 * yoe + yoe / 4 - yoe / 100)
  let mp := (5 * doy + 2) / 153
  let month := if mp < 10 then mp + 3 else mp - 9
  let year := yoe + z / 146097 * 400
  (if month ≤ 2 then year + 1 else year, month, doy - (153 * mp + 2) / 5 + 1)

/-- `datetime.now(UTC).isoformat().replace("+00:00", "Z")`: microseconds are left out when
there are none. -/
def isoformat (t : Time) : String :=
  let seconds := t / 1000000
  let (year, month, day) := civil (seconds / 86400)
  let micro := t % 1000000
  padded 4 year ++ "-" ++ padded 2 month ++ "-" ++ padded 2 day ++ "T" ++
    padded 2 (seconds / 3600 % 24) ++ ":" ++ padded 2 (seconds / 60 % 60) ++ ":" ++
    padded 2 (seconds % 60) ++ (if micro = 0 then "" else "." ++ padded 6 micro) ++ "Z"

example : isoformat 1709209845000007 = "2024-02-29T12:30:45.000007Z" := by decide

/-! ### Languages -/

/-- `file_extension_to_language_map`. -/
def languages : List (String × String) :=
  [(".sh", "bash"), (".bash", "bash"), (".c", "c"), (".cs", "c_sharp"), (".lisp", "commonlisp"),
   (".lsp", "commonlisp"), (".cpp", "cpp"), (".cc", "cpp"), (".cxx", "cpp"), (".hpp", "cpp"),
   (".h", "c"), (".css", "css"), (".dockerfile", "dockerfile"), ("Dockerfile", "dockerfile"),
   (".dot", "dot"), (".el", "elisp"), (".ex", "elixir"), (".exs", "elixir"), (".elm", "elm"),
   (".ejs", "embedded_template"), (".erl", "erlang"), (".hrl", "erlang"),
   (".f", "fixed_form_fortran"), (".for", "fixed_form_fortran"), (".f90", "fortran"),
   (".f95", "fortran"), (".go", "go"), (".mod", "gomod"), ("go.mod", "gomod"), (".hack", "hack"),
   (".hs", "haskell"), (".hcl", "hcl"), (".tf", "hcl"), (".html", "html"), (".htm", "html"),
   (".java", "java"), (".js", "javascript"), (".jsx", "javascript"), (".jsdoc", "jsdoc"),
   (".json", "json"), (".jl", "julia"), (".kt", "kotlin"), (".kts", "kotlin"), (".lua", "lua"),
   (".mk", "make"), ("Makefile", "make"), (".md", "markdown"), (".m", "objc"), (".mm", "objc"),
   (".ml", "ocaml"), (".mli", "ocaml"), (".pl", "perl"), (".pm", "perl"), (".php", "php"),
   (".py", "python"), (".ql", "ql"), (".r", "r"), (".regex", "regex"), (".rst", "rst"),
   (".rb", "ruby"), (".rs", "rust"), (".scala", "scala"), (".sc", "scala"), (".sql", "sql"),
   (".sqlite", "sqlite"), (".db", "sqlite"), (".toml", "toml"), (".tsq", "tsq"),
   (".ts", "typescript"), (".tsx", "typescript"), (".yaml", "yaml"), (".yml", "yaml")]

/-- `get_file_extension_language`; the empty string for an unknown extension. -/
def getFileExtensionLanguage (ext : String) : String :=
  let ext := if ext.toList.head? = some '.' then ext else "." ++ ext
  (languages.lookup ext).getD ""

end KaitoAutoIndexer.Text
