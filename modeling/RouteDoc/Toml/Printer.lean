import RouteDoc.Number.Digits
import RouteDoc.Settings.Basic

/-!
# Settings in TOML

The layout of settings as a TOML document: an empty list of roots first, then the tables, then the
roots as elements of an array of tables. A string is written in the first of these styles that can
hold it as it stands: double quotes, single quotes, three double quotes, three single quotes; else
its characters are escaped.
-/

set_option autoImplicit false

namespace RouteDoc.Toml

/-- What decides the style of a string. -/
structure Traits where
  /-- Whether it has controls other than tabs and line feeds. -/
  controls : Bool
  /-- Whether it has a backslash. -/
  backslash : Bool
  /-- Whether it has a line feed. -/
  lineFeed : Bool
  /-- The length of its longest run of double quotes. -/
  doubles : Nat
  /-- The length of its longest run of single quotes. -/
  singles : Nat
deriving DecidableEq, Repr

/-- The length of the longest run of a character, where `run` of them went before. -/
def longestRun (q : Char) : Nat → List Char → Nat
  | run, [] => run
  | run, c :: cs => if c == q then longestRun q (run + 1) cs else max run (longestRun q 0 cs)

/-- Whether a character is a control other than a tab or a line feed. -/
def isControl (c : Char) : Bool :=
  (c.toNat < 0x20 && c != '\t' && c != '\n') || c.toNat == 0x7F

/-- The traits of a string. -/
def traits (s : List Char) : Traits where
  controls := s.any isControl
  backslash := s.contains '\\'
  lineFeed := s.contains '\n'
  doubles := longestRun '"' 0 s
  singles := longestRun '\'' 0 s

/-- A hexadecimal digit. -/
def hexDigit (n : Nat) : Char :=
  if n < 10 then Number.digitChar n else Char.ofNat ('A'.toNat + (n - 10))

/-- The escape of a control, or a character that stands for itself. -/
def escapeControl (c : Char) : List Char :=
  if c == '\x08' then ['\\', 'b']
  else if c == '\t' then ['\\', 't']
  else if c == '\n' then ['\\', 'n']
  else if c == '\x0c' then ['\\', 'f']
  else if c == '\r' then ['\\', 'r']
  else if c == '\\' then ['\\', '\\']
  else if c.toNat < 0x20 || c.toNat == 0x7F then
    ['\\', 'u', '0', '0', hexDigit (c.toNat / 16), hexDigit (c.toNat % 16)]
  else [c]

/-- The characters of a string between double quotes, one or three. Between three of them line feeds
stand for themselves, and so do two double quotes in a row, of which `run` went before. -/
def escape (multi : Bool) : Nat → List Char → List Char
  | _, [] => []
  | run, c :: cs =>
    if c == '"' then
      if multi && run < 2 then c :: escape multi (run + 1) cs else '\\' :: c :: escape multi 0 cs
    else if multi && c == '\n' then c :: escape multi 0 cs
    else escapeControl c ++ escape multi 0 cs

/-- A text between quotes. -/
def enclose (quotes : String) (s : List Char) : List Char :=
  quotes.toList ++ s ++ quotes.toList

/-- A text between three quotes; when it has line feeds it begins on a line of its own. -/
def encloseLines (quotes : String) (t : Traits) (s : List Char) : List Char :=
  quotes.toList ++ (if t.lineFeed then ['\n'] else []) ++ s ++ quotes.toList

/-- A string. -/
def stringText (s : String) : String :=
  let cs := s.toList
  let t := traits cs
  String.ofList <|
    if !t.controls && !t.backslash && t.doubles == 0 && !t.lineFeed then
      enclose "\"" (escape false 0 cs)
    else if !t.controls && t.singles == 0 && !t.lineFeed then enclose "'" cs
    else if !t.controls && !t.backslash && t.doubles ≤ 2 then
      encloseLines "\"\"\"" t (escape true 0 cs)
    else if !t.controls && t.singles ≤ 2 then encloseLines "'''" t cs
    else if t.lineFeed then encloseLines "\"\"\"" t (escape true 0 cs)
    else enclose "\"" (escape false 0 cs)

/-- A key with its value, on a line. -/
def entryText (key value : String) : String :=
  key ++ " = " ++ value ++ "\n"

/-- A truth value. -/
def boolText (b : Bool) : String :=
  if b then "true" else "false"

/-- A root. -/
def rootText (r : ClassRoot) : String :=
  "\n[[autoload]]\n" ++ entryText "prefix" (stringText r.stem) ++
    entryText "path" (stringText r.path)

/-- The settings as a document; a seed has to be a signed whole number of 64 bits. -/
def write? (s : Settings) : Option String :=
  if s.synthesis.seed.any (Number.half64 ≤ ·) then none
  else some <|
    (if s.autoload.isEmpty then "autoload = []\n\n" else "") ++
    "[parameters]\n" ++
    entryText "include" (stringText s.keys.relation) ++
    entryText "filter" (stringText s.keys.filter) ++
    entryText "sort" (stringText s.keys.sort) ++
    entryText "fields" (stringText s.keys.field) ++
    "\n[annotations]\n" ++
    entryText "tag" (stringText s.tag) ++
    "\n[synthesis]\n" ++
    entryText "emit_unsupported" (boolText s.synthesis.emitUnsupported) ++
    entryText "shuffle_includes" (boolText s.synthesis.shuffleIncludes) ++
    (match s.synthesis.seed with
      | some n => entryText "seed" (String.ofList (Number.decimalText n))
      | none => "") ++
    String.join (s.autoload.map rootText)

end RouteDoc.Toml
