import Mathlib.Data.List.Sort
import Mathlib.Data.Rat.Defs
import Mathlib.Tactic.Common

/-!
JSON values and their canonical text: the keys of every object in the order of their
characters and no space between the tokens.
-/

namespace MapBackend.Library

inductive Json where
  | null
  | bool (b : Bool)
  | int (n : ℤ)
  | float (value : ℚ) (shown : List Char)
  | nonFinite
  | text (s : List Char)
  | list (items : List Json)
  | object (entries : List (List Char × Json))

namespace Json

def get (key : List Char) : Json → Option Json
  | .object entries => (entries.find? fun entry => decide (entry.1 = key)).map Prod.snd
  | _ => none

def isObject : Json → Bool
  | .object _ => true
  | _ => false

def upTo : List Char → List Char → Bool
  | [], _ => true
  | _ :: _, [] => false
  | c :: rest, d :: others => decide (c.toNat < d.toNat) || (c == d && upTo rest others)

mutual

def sorted : Json → Json
  | .list items => .list (sortedItems items)
  | .object entries => .object ((sortedEntries entries).insertionSort fun a b => upTo a.1 b.1 = true)
  | .null => .null
  | .bool b => .bool b
  | .int n => .int n
  | .float value shown => .float value shown
  | .nonFinite => .nonFinite
  | .text s => .text s

def sortedItems : List Json → List Json
  | [] => []
  | item :: rest => item.sorted :: sortedItems rest

def sortedEntries : List (List Char × Json) → List (List Char × Json)
  | [] => []
  | (key, value) :: rest => (key, value.sorted) :: sortedEntries rest

end

def hexDigits (n : ℕ) : List Char := [Nat.digitChar (n / 16), Nat.digitChar (n % 16)]

/-- A character of a text. Only the quote, the backslash and the control characters are escaped. -/
def escapeChar (c : Char) : List Char :=
  if c = '"' then ['\\', '"']
  else if c = '\\' then ['\\', '\\']
  else if c = '\n' then ['\\', 'n']
  else if c = '\r' then ['\\', 'r']
  else if c = '\t' then ['\\', 't']
  else if c.toNat = 12 then ['\\', 'f']
  else if c.toNat = 8 then ['\\', 'b']
  else if c.toNat < 32 then '\\' :: 'u' :: '0' :: '0' :: hexDigits c.toNat
  else [c]

def quoted (s : List Char) : List Char := '"' :: (s.flatMap escapeChar ++ ['"'])

def joined (texts : List (List Char)) : List Char := (texts.intersperse [',']).flatten

mutual

def dumps : Json → Option (List Char)
  | .null => some ['n', 'u', 'l', 'l']
  | .bool true => some ['t', 'r', 'u', 'e']
  | .bool false => some ['f', 'a', 'l', 's', 'e']
  | .int n => some (toString n).toList
  | .float _ shown => some shown
  | .nonFinite => none
  | .text s => some (quoted s)
  | .list items => (dumpsItems items).map fun texts => '[' :: (joined texts ++ [']'])
  | .object entries => (dumpsEntries entries).map fun texts => '\x7b' :: (joined texts ++ ['\x7d'])

def dumpsItems : List Json → Option (List (List Char))
  | [] => some []
  | item :: rest => do
    let text ← item.dumps
    let texts ← dumpsItems rest
    some (text :: texts)

def dumpsEntries : List (List Char × Json) → Option (List (List Char))
  | [] => some []
  | (key, value) :: rest => do
    let text ← value.dumps
    let texts ← dumpsEntries rest
    some ((quoted key ++ ':' :: text) :: texts)

end

end Json

def utf8Length (text : List Char) : ℕ := text.foldr (fun c length => c.utf8Size + length) 0

example : (Json.object [(['b'], .text ['"']), (['a'], .list [.int (-3), .null])]).sorted.dumps =
    some ['\x7b', '"', 'a', '"', ':', '[', '-', '3', ',', 'n', 'u', 'l', 'l', ']', ',', '"', 'b', '"', ':', '"',
      '\\', '"', '"', '\x7d'] := by decide +kernel

end MapBackend.Library
