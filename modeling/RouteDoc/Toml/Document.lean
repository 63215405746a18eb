import RouteDoc.Toml.Scalar

/-!
# TOML documents

A document is a run of sections, each behind a header that names a table or a new element of an
array of tables, with keys and values below it. Each key is defined once. A table that a longer
header or a dotted key has brought about may still be extended: by its own header in the first case,
by more dotted keys of the same section in the second.
-/

set_option autoImplicit false

namespace RouteDoc.Toml

/-! ## Tables under construction -/

/-- A value under construction. -/
inductive Item where
  /-- A value that is complete. -/
  | value (v : Setting)
  /-- A table: whether it has no header of its own so far, and whether dotted keys made it. -/
  | table (implicit dotted : Bool) (entries : List (String × Item))
  /-- An array of tables, each by its entries. -/
  | tables (items : List (List (String × Item)))
deriving Inhabited

/-- The entries of a table. -/
abbrev Entries := List (String × Item)

namespace Item

mutual
/-- The value that was constructed. -/
def toSetting : Item → Setting
  | value v => v
  | table _ _ es => .table (toEntries es)
  | tables items => .list (toTables items)
/-- The entries that were constructed. -/
def toEntries : List (String × Item) → List (String × Setting)
  | [] => []
  | (k, i) :: es => (k, toSetting i) :: toEntries es
/-- The tables that were constructed. -/
def toTables : List (List (String × Item)) → List Setting
  | [] => []
  | es :: more => .table (toEntries es) :: toTables more
end

end Item

/-- The entries with one of them set. -/
def setEntry (es : Entries) (key : String) (i : Item) : Entries :=
  if es.any (·.1 == key) then es.map fun e => if e.1 == key then (key, i) else e
  else es ++ [(key, i)]

/-- Changes the table at a path, which is made where it lacks. The change learns whether dotted keys
made the table. A dotted key enters no table that has a header. -/
def within (byDots : Bool) (change : Bool → Entries → Option Entries) :
    List String → Bool → Entries → Option Entries
  | [], dotted, es => change dotted es
  | k :: ks, _, es =>
    match es.lookup k with
    | none => do
      let sub ← within byDots change ks byDots []
      some (setEntry es k (.table true byDots sub))
    | some (.value _) => none
    | some (.table implicit dotted sub) =>
      if byDots && !implicit then none
      else do
        let sub ← within byDots change ks dotted sub
        some (setEntry es k (.table implicit dotted sub))
    | some (.tables items) => do
      let last ← items.getLast?
      let last ← within byDots change ks false last
      some (setEntry es k (.tables (items.dropLast ++ [last])))

/-- Adds a key and its value to a table. -/
def addValue (es : Entries) (path : List String) (v : Setting) : Option Entries := do
  let key ← path.getLast?
  let before := path.dropLast
  within true (fun dotted es =>
    if dotted == before.isEmpty || es.any (·.1 == key) then none
    else some (es ++ [(key, .value v)])) before false es

/-- Adds keys and their values to a table. -/
def addValues (es : Entries) (kvs : List (List String × Setting)) : Option Entries :=
  kvs.foldlM (fun es kv => addValue es kv.1 kv.2) es

/-- The header of a section. -/
inductive Header where
  /-- A table. -/
  | table (path : List String)
  /-- A new element of an array of tables. -/
  | element (path : List String)
deriving DecidableEq, Repr

/-- Adds a section to a document. -/
def addSection (root : Entries) (h : Header) (kvs : List (List String × Setting)) : Option Entries :=
  match h with
  | .table path => do
    let key ← path.getLast?
    within false (fun _ es => do
      let old ← match es.lookup key with
        | none => some []
        | some (.table true false sub) => some sub
        | _ => none
      some (setEntry es key (.table false false (← addValues old kvs)))) path.dropLast false root
  | .element path => do
    let key ← path.getLast?
    within false (fun _ es => do
      let old ← match es.lookup key with
        | none => some []
        | some (.tables items) => some items
        | _ => none
      some (setEntry es key (.tables (old ++ [← addValues [] kvs])))) path.dropLast false root

/-! ## Reading -/

/-- Passes over blanks. -/
def blanks : Reader Unit := do
  let _ ← takeWhile isBlank

/-- Whether a character may stand in a key without quotes. -/
def isKeyChar (c : Char) : Bool :=
  c.isAlphanum || c == '_' || c == '-'

/-- A key without dots. -/
def simpleKey : Reader String := do
  match ← rest with
  | '"' :: _ | '\'' :: _ => lineString
  | _ => do
    let cs ← takeWhile isKeyChar
    if cs.isEmpty then failure else return String.ofList cs

/-- Repeats a step until it gives nothing; the text bounds the number of steps. -/
def iterate {α : Type} (step : α → Reader (Option α)) (a : α) : Reader α := fun s =>
  go (s.length + 1) a s
where
  go : Nat → α → Reader α
    | 0, _ => failure
    | n + 1, a => do
      match ← step a with
      | some b => go n b
      | none => return a

/-- A key, perhaps with dots and blanks around them. -/
def key : Reader (List String) := do
  blanks
  let first ← simpleKey
  blanks
  iterate (fun path => do
    if ← comes "." then
      literal ['.']
      blanks
      let next ← simpleKey
      blanks
      return some (path ++ [next])
    else return none) [first]

/-- Passes over a comment, if one comes. -/
def comment : Reader Unit := do
  if ← comes "#" then
    let _ ← takeWhile isPlain

/-- Takes a line break, if one comes. -/
def lineBreak : Reader Bool := fun s =>
  match s with
  | '\n' :: r => some (true, r)
  | '\r' :: '\n' :: r => some (true, r)
  | s => some (false, s)

/-- Takes the end of a line or of the text. -/
def lineEnd : Reader Unit := do
  blanks
  comment
  if !(← lineBreak) && !(← rest).isEmpty then failure

/-- Passes over blanks, comments and line breaks. -/
def gaps : Reader Unit :=
  iterate (fun _ => do
    blanks
    comment
    if ← lineBreak then return some () else return none) ()

/-- The mark that opens a table within a line. -/
def openBrace : String := "\x7b"

/-- The mark that closes a table within a line. -/
def closeBrace : String := "\x7d"

/-- A key with its value. -/
def keyValue (value : Reader Setting) : Reader (List String × Setting) := do
  let path ← key
  literal ['=']
  blanks
  return (path, ← value)

/-- The elements of an array behind its bracket, in reverse. -/
def elements (value : Reader Setting) : Reader (List Setting) := do
  let (_, vs) ← iterate (fun (more, vs) => do
    gaps
    if !more || (← comes "]") then return none
    else
      let v ← value
      gaps
      if ← comes "," then
        literal [',']
        return some (true, v :: vs)
      else return some (false, v :: vs)) (true, [])
  literal [']']
  return vs

/-- The keys and values of a table within a line, behind its brace, in reverse. -/
def pairs (value : Reader Setting) : Reader (List (List String × Setting)) := do
  blanks
  if ← comes closeBrace then
    literal closeBrace.toList
    return []
  else
    let (_, kvs) ← iterate (fun (more, kvs) => do
      if !more then return none
      else
        let kv ← keyValue value
        blanks
        if ← comes "," then
          literal [',']
          return some (true, kv :: kvs)
        else return some (false, kv :: kvs)) (true, [])
    literal closeBrace.toList
    return kvs

/-- A value, nested at most `fuel` deep. -/
def value : Nat → Reader Setting
  | 0 => failure
  | fuel + 1 => do
    match ← rest with
    | '[' :: _ => do
      literal ['[']
      return .list (← elements (value fuel)).reverse
    | c :: _ =>
      if c == '{' then do
        literal [c]
        let kvs ← pairs (value fuel)
        match addValues [] kvs.reverse with
        | some es => return .table (Item.toEntries es)
        | none => failure
      else scalar
    | [] => failure

/-- How deep values may be nested. -/
def depth : Nat := 128

/-- The header of a section. -/
def header : Reader Header := do
  literal ['[']
  if ← comes "[" then
    literal ['[']
    let path ← key
    literal [']', ']']
    return .element path
  else
    let path ← key
    literal [']']
    return .table path

/-- A document as it is read: the finished sections, the header of the last one, and its keys and
values in reverse. -/
structure Progress where
  /-- The finished sections. -/
  root : Entries := []
  /-- The header of the section that is read; none before the first header. -/
  header : Option Header := none
  /-- Its keys and values, the last one first. -/
  pairs : List (List String × Setting) := []

/-- The document with the section that is read. -/
def Progress.close (p : Progress) : Option Entries :=
  match p.header with
  | none => addValues p.root p.pairs.reverse
  | some h => addSection p.root h p.pairs.reverse

/-- Reads one line, or one key with its value. -/
def line (p : Progress) : Reader (Option Progress) := do
  blanks
  match ← rest with
  | [] => return none
  | c :: _ =>
    if c == '[' then
      let h ← header
      lineEnd
      match p.close with
      | some root => return some { root, header := some h }
      | none => failure
    else if c == '#' || c == '\n' || c == '\r' then
      lineEnd
      return some p
    else
      let kv ← keyValue (value depth)
      lineEnd
      return some { p with pairs := kv :: p.pairs }

/-- The table that a document stands for. -/
def read? (source : String) : Option Setting := do
  let s := match source.toList with
    | '\uFEFF' :: r => r
    | r => r
  let (p, _) ← (iterate line {}) s
  let es ← p.close
  some (.table (Item.toEntries es))

end RouteDoc.Toml
