import MethodTracing.Settings.Basic
import MethodTracing.Text.Numeral

/-!
# Settings documents

Settings written as a TOML document: the switch `enabled` and the marker annotations, under either
of two keys.  The reader knows the part of TOML that can spell settings: comments, bare and quoted
keys, truth values, and arrays of texts in all four kinds of quotes.  Anything else would be refused
for its key or its type.
-/

namespace MethodTracing
namespace SettingsDocument

/-- A value that a setting can have. -/
inductive Entry
  /-- A truth value. -/
  | switch (value : Bool)
  /-- A list of texts. -/
  | names (value : List String)
  deriving DecidableEq

/-- White space within a line. -/
def isGap (char : Char) : Bool :=
  char == ' ' || char == '\t'

/-- A character that may stand in comments and texts: a tab or no control character. -/
def isVisible (char : Char) : Bool :=
  char == '\t' || (0x20 ≤ char.toNat && char.toNat != 0x7F)

/-- Skip white space within a line. -/
def skipGap (chars : List Char) : List Char :=
  chars.dropWhile isGap

/-- Take the end of a line, or the end of the document. -/
def takeLineEnd : List Char → Option (List Char)
  | [] => some []
  | '\n' :: rest => some rest
  | '\r' :: '\n' :: rest => some rest
  | _ => none

/-- Take what may follow on a line: white space, a comment, and the end of the line. -/
def takeTrailing (chars : List Char) : Option (List Char) :=
  match skipGap chars with
  | '#' :: rest => takeLineEnd (rest.dropWhile isVisible)
  | chars => takeLineEnd chars

/-- Skip white space, ends of lines and comments between the items of an array. -/
def skipBetween (inComment : Bool) : List Char → List Char
  | [] => []
  | '\r' :: '\n' :: rest => skipBetween false rest
  | '\n' :: rest => skipBetween false rest
  | char :: rest =>
      if inComment then if isVisible char then skipBetween true rest else char :: rest
      else if isGap char then skipBetween false rest
      else if char = '#' then skipBetween true rest
      else char :: rest

/-- The character that a short escape stands for. -/
def shortEscape? : Char → Option Char
  | 'b' => some '\x08'
  | 't' => some '\t'
  | 'n' => some '\n'
  | 'f' => some '\x0c'
  | 'r' => some '\r'
  | '"' => some '"'
  | '\\' => some '\\'
  | _ => none

/-- The character whose code point is spelled by hexadecimal digits. -/
def codePoint? (digits : List Char) : Option Char := do
  let code ← Text.readHexadecimal? 0 digits
  if code < 0xD800 || (0xDFFF < code && code < 0x110000) then some (Char.ofNat code) else none

/-- The text whose characters are given from the last to the first, and what follows it. -/
def closed (seen rest : List Char) : Option (String × List Char) :=
  some (String.ofList seen.reverse, rest)

/-- Take the rest of a text in double quotes on one line; `seen` holds the characters before, the
last one first. -/
def takeBasic (seen : List Char) : List Char → Option (String × List Char)
  | [] => none
  | '"' :: rest => closed seen rest
  | '\\' :: 'u' :: a :: b :: c :: d :: rest =>
      match codePoint? [a, b, c, d] with
      | none => none
      | some char => takeBasic (char :: seen) rest
  | '\\' :: 'U' :: a :: b :: c :: d :: e :: f :: g :: h :: rest =>
      match codePoint? [a, b, c, d, e, f, g, h] with
      | none => none
      | some char => takeBasic (char :: seen) rest
  | '\\' :: escape :: rest =>
      match shortEscape? escape with
      | none => none
      | some char => takeBasic (char :: seen) rest
  | char :: rest =>
      if isVisible char && char != '\\' then takeBasic (char :: seen) rest else none

/-- Whether nothing but white space comes before the end of the line. -/
def endsLine (chars : List Char) : Bool :=
  match skipGap chars with
  | '\n' :: _ => true
  | '\r' :: '\n' :: _ => true
  | _ => false

/-- Take the rest of a text in three double quotes.  A backslash at the end of a line skips all white
space after it; up to two quotes may stand just before the closing ones. -/
def takeBasicBlock (skipping : Bool) (seen : List Char) : List Char → Option (String × List Char)
  | [] => none
  | '"' :: '"' :: '"' :: '"' :: '"' :: rest => closed ('"' :: '"' :: seen) rest
  | '"' :: '"' :: '"' :: '"' :: rest => closed ('"' :: seen) rest
  | '"' :: '"' :: '"' :: rest => closed seen rest
  | '\r' :: '\n' :: rest =>
      if skipping then takeBasicBlock true seen rest else takeBasicBlock false ('\n' :: seen) rest
  | '\n' :: rest =>
      if skipping then takeBasicBlock true seen rest else takeBasicBlock false ('\n' :: seen) rest
  | '\\' :: 'u' :: a :: b :: c :: d :: rest =>
      match codePoint? [a, b, c, d] with
      | none => none
      | some char => takeBasicBlock false (char :: seen) rest
  | '\\' :: 'U' :: a :: b :: c :: d :: e :: f :: g :: h :: rest =>
      match codePoint? [a, b, c, d, e, f, g, h] with
      | none => none
      | some char => takeBasicBlock false (char :: seen) rest
  | '\\' :: escape :: rest =>
      match shortEscape? escape with
      | some char => takeBasicBlock false (char :: seen) rest
      | none => if endsLine (escape :: rest) then takeBasicBlock true seen rest else none
  | char :: rest =>
      if skipping && isGap char then takeBasicBlock true seen rest
      else if isVisible char && char != '\\' then takeBasicBlock false (char :: seen) rest
      else none

/-- Take the rest of a text in single quotes on one line. -/
def takeLiteral (seen : List Char) : List Char → Option (String × List Char)
  | [] => none
  | '\x27' :: rest => closed seen rest
  | char :: rest => if isVisible char then takeLiteral (char :: seen) rest else none

/-- Take the rest of a text in three single quotes. -/
def takeLiteralBlock (seen : List Char) : List Char → Option (String × List Char)
  | [] => none
  | '\x27' :: '\x27' :: '\x27' :: '\x27' :: '\x27' :: rest => closed ('\x27' :: '\x27' :: seen) rest
  | '\x27' :: '\x27' :: '\x27' :: '\x27' :: rest => closed ('\x27' :: seen) rest
  | '\x27' :: '\x27' :: '\x27' :: rest => closed seen rest
  | '\r' :: '\n' :: rest => takeLiteralBlock ('\n' :: seen) rest
  | '\n' :: rest => takeLiteralBlock ('\n' :: seen) rest
  | char :: rest => if isVisible char then takeLiteralBlock (char :: seen) rest else none

/-- Skip the end of the line at the start of a text in three quotes. -/
def skipFirstLine : List Char → List Char
  | '\n' :: rest => rest
  | '\r' :: '\n' :: rest => rest
  | chars => chars

/-- Take a text in any kind of quotes. -/
def takeText : List Char → Option (String × List Char)
  | '"' :: '"' :: '"' :: rest => takeBasicBlock false [] (skipFirstLine rest)
  | '"' :: rest => takeBasic [] rest
  | '\x27' :: '\x27' :: '\x27' :: rest => takeLiteralBlock [] (skipFirstLine rest)
  | '\x27' :: rest => takeLiteral [] rest
  | _ => none

/-- Take texts up to the closing bracket of their array; `fuel` bounds their number. -/
def takeTexts : Nat → List Char → Option (List String × List Char)
  | 0, _ => none
  | fuel + 1, chars =>
      match skipBetween false chars with
      | ']' :: rest => some ([], rest)
      | chars =>
          match takeText chars with
          | none => none
          | some (text, rest) =>
              match skipBetween false rest with
              | ']' :: rest => some ([text], rest)
              | ',' :: rest => (takeTexts fuel rest).map fun (texts, rest) => (text :: texts, rest)
              | _ => none

/-- Take the value of a setting. -/
def takeEntry : List Char → Option (Entry × List Char)
  | 't' :: 'r' :: 'u' :: 'e' :: rest => some (.switch true, rest)
  | 'f' :: 'a' :: 'l' :: 's' :: 'e' :: rest => some (.switch false, rest)
  | '[' :: rest => (takeTexts (rest.length + 1) rest).map fun (texts, rest) => (.names texts, rest)
  | _ => none

/-- A character of a key without quotes. -/
def isBareKeyChar (char : Char) : Bool :=
  ('a' ≤ char && char ≤ 'z') || ('A' ≤ char && char ≤ 'Z') || ('0' ≤ char && char ≤ '9') ||
    char == '_' || char == '-'

/-- Take a key, bare or in quotes. -/
def takeKey : List Char → Option (String × List Char)
  | '"' :: rest => takeBasic [] rest
  | '\x27' :: rest => takeLiteral [] rest
  | chars =>
      match chars.takeWhile isBareKeyChar with
      | [] => none
      | key => some (String.ofList key, chars.dropWhile isBareKeyChar)

/-- Take a key, an equals sign, a value, and the rest of the line. -/
def takeAssignment (chars : List Char) : Option ((String × Entry) × List Char) := do
  let (key, chars) ← takeKey chars
  match skipGap chars with
  | '=' :: rest =>
      let (entry, rest) ← takeEntry (skipGap rest)
      return ((key, entry), ← takeTrailing rest)
  | _ => none

/-- Take the assignments of a document; `fuel` bounds the number of its lines. -/
def takeAssignments : Nat → List Char → Option (List (String × Entry))
  | 0, _ => none
  | fuel + 1, chars =>
      match skipGap chars with
      | [] => some []
      | '\n' :: rest => takeAssignments fuel rest
      | '\r' :: '\n' :: rest => takeAssignments fuel rest
      | '#' :: rest =>
          match takeLineEnd (rest.dropWhile isVisible) with
          | none => none
          | some rest => takeAssignments fuel rest
      | chars =>
          match takeAssignment chars with
          | none => none
          | some (assignment, rest) => (takeAssignments fuel rest).map (assignment :: ·)

/-- The assignments of a document; a byte order mark may come first. -/
def assignments? (text : String) : Option (List (String × Entry)) :=
  let chars :=
    match text.toList with
    | '\ufeff' :: rest => rest
    | chars => chars
  takeAssignments (chars.length + 1) chars

/-- Whether a key names the marker annotations. -/
def isMarkersKey (key : String) : Bool :=
  key == "markers" || key == annotationsKey

/-- The settings of assignments: every key is known, has a value of its type, and comes at most
once; the two keys of the markers count as one. -/
def settings? (assignments : List (String × Entry)) : Option Settings := do
  let known := assignments.all fun assignment =>
    assignment.1 == enabledKey || isMarkersKey assignment.1
  let markers := assignments.filter fun assignment => isMarkersKey assignment.1
  let switches := assignments.filter fun assignment => assignment.1 == enabledKey
  if !known then none
  else
    let enabled ←
      match switches with
      | [] => some false
      | [(_, .switch value)] => some value
      | _ => none
    let markers ←
      match markers with
      | [] => some []
      | [(_, .names value)] => some value
      | _ => none
    return ⟨enabled, markers⟩

end SettingsDocument

/-- Read the text of a settings document. -/
def Settings.parse (text : String) : Option Settings := do
  SettingsDocument.settings? (← SettingsDocument.assignments? text)

end MethodTracing
