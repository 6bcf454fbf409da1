import SqlClient.Dialect
/-!
# Identifiers — quoting and reading

A name is split at its dots and each segment is quoted on its own: an opening mark, the characters
with every closing mark written twice, and a closing mark. The reader takes such a text apart again
and stops where the quoted name ends.
-/

namespace SqlClient

namespace QuoteStyle

/-- The mark before a quoted segment. -/
def opening : QuoteStyle → Char
  | .doubleQuote => '"'
  | .backtick => '\x60'
  | .bracket => '['

/-- The mark after a quoted segment. -/
def closing : QuoteStyle → Char
  | .doubleQuote => '"'
  | .backtick => '\x60'
  | .bracket => ']'

/-! ## Quoting -/

/-- The characters of a segment, closing marks doubled. -/
def doubled (q : QuoteStyle) (segment : List Char) : List Char :=
  segment.flatMap fun c => if c = q.closing then [c, c] else [c]

/-- A quoted segment. -/
def quoteSegment (q : QuoteStyle) (segment : List Char) : List Char :=
  q.opening :: (q.doubled segment ++ [q.closing])

/-- The segments of a name: the parts between its dots, the first and the last included. -/
def segments : List Char → List (List Char)
  | [] => [[]]
  | c :: rest =>
    if c = '.' then [] :: segments rest
    else
      match segments rest with
      | [] => [[c]]
      | first :: others => (c :: first) :: others

/-- A quoted name: its segments, each quoted, with dots between them. -/
def quoteName (q : QuoteStyle) (name : List Char) : List Char :=
  ['.'].intercalate ((segments name).map q.quoteSegment)

/-! ## Reading -/

/-- Reads the rest of a segment after its opening mark: its characters and what follows it. -/
def readBody (q : QuoteStyle) : List Char → Option (List Char × List Char)
  | [] => none
  | [c] => if c = q.closing then some ([], []) else none
  | c :: d :: rest =>
    if c = q.closing then
      if d = q.closing then (readBody q rest).map fun (s, after) => (c :: s, after)
      else some ([], d :: rest)
    else (readBody q (d :: rest)).map fun (s, after) => (c :: s, after)

/-- Reads one quoted segment. -/
def readSegment (q : QuoteStyle) : List Char → Option (List Char × List Char)
  | c :: rest => if c = q.opening then q.readBody rest else none
  | [] => none

/-- Reads a quoted name: segments for as long as dots follow them. Every segment takes at least
two characters, so the length of the text is fuel enough. -/
def readSegments (q : QuoteStyle) : Nat → List Char → Option (List (List Char) × List Char)
  | 0, _ => none
  | fuel + 1, cs =>
    match q.readSegment cs with
    | none => none
    | some (segment, '.' :: rest) =>
      (readSegments q fuel rest).map fun (others, after) => (segment :: others, after)
    | some (segment, rest) => some ([segment], rest)

/-- Reads a quoted name from the front of a text: its segments and what follows it. -/
def readName (q : QuoteStyle) (cs : List Char) : Option (List (List Char) × List Char) :=
  q.readSegments (cs.length + 1) cs

end QuoteStyle

end SqlClient
