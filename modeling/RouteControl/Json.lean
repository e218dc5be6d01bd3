import RouteControl.Bytes.Hex

/-!
# JSON

Values, and their text in two layouts: in one line without blanks, and with one entry to a line,
indented by two blanks for each level.  Entries of an object keep their order.  In strings, quotes,
backslashes and the characters below the blank are escaped, the common ones of the latter by a
letter; nothing else is.
-/

namespace RouteControl

inductive Json where
  | null
  | number (n : Nat)
  | text (s : String)
  | list (items : List Json)
  | object (entries : List (String × Json))
  deriving Repr

namespace Json

def ofOption {α : Type} (value : α → Json) : Option α → Json
  | some a => value a
  | none => null

def escapeLetters : List (Char × Char) :=
  [('"', '"'), ('\\', '\\'), ('\x08', 'b'), ('\x0c', 'f'), ('\n', 'n'), ('\r', 'r'), ('\t', 't')]

def escape (c : Char) : List Char :=
  match escapeLetters.lookup c with
  | some letter => ['\\', letter]
  | none =>
    if c.toNat < 32 then
      ['\\', 'u', '0', '0', Bytes.hexDigit (c.toNat / 16), Bytes.hexDigit (c.toNat % 16)]
    else [c]

def quoted (s : String) : String := "\"" ++ String.ofList (s.toList.flatMap escape) ++ "\""

structure Layout where
  isPretty : Bool

/-- What stands in front of an entry, or of the closing bracket, at a level. -/
def Layout.lineBreak (layout : Layout) (level : Nat) : String :=
  if layout.isPretty then "\n" ++ String.ofList (List.replicate (2 * level) ' ') else ""

def Layout.colon (layout : Layout) : String := if layout.isPretty then ": " else ":"

def Layout.enclose (layout : Layout) (level : Nat) (opening closing : String)
    (entries : List String) : String :=
  if entries.isEmpty then opening ++ closing
  else
    let separator := "," ++ layout.lineBreak (level + 1)
    opening ++ layout.lineBreak (level + 1) ++ separator.intercalate entries ++
      layout.lineBreak level ++ closing

mutual

def textAt (layout : Layout) (level : Nat) : Json → String
  | null => "null"
  | number n => toString n
  | text s => quoted s
  | list items => layout.enclose level "[" "]" (itemTexts layout (level + 1) items)
  | object entries => layout.enclose level "\x7b" "\x7d" (entryTexts layout (level + 1) entries)

def itemTexts (layout : Layout) (level : Nat) : List Json → List String
  | [] => []
  | item :: rest => textAt layout level item :: itemTexts layout level rest

def entryTexts (layout : Layout) (level : Nat) : List (String × Json) → List String
  | [] => []
  | (key, value) :: rest =>
    (quoted key ++ layout.colon ++ textAt layout level value) :: entryTexts layout level rest

end

def render (layout : Layout) (value : Json) : String := textAt layout 0 value

end Json

end RouteControl
