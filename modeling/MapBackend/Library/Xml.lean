import Mathlib.Data.List.Basic
import Mathlib.Tactic.Common

/-!
A reader of XML 1.0 documents in UTF-8, one character at a time.
-/

namespace MapBackend.Library.Xml

def within (ranges : List (ℕ × ℕ)) (c : Char) : Bool := ranges.any fun range => range.1 ≤ c.toNat && c.toNat ≤ range.2

def isChar : Char → Bool := within [(0x9, 0xA), (0xD, 0xD), (0x20, 0xD7FF), (0xE000, 0xFFFD), (0x10000, 0x10FFFF)]

def isSpace : Char → Bool := within [(0x20, 0x20), (0x9, 0xA), (0xD, 0xD)]

def isNameStartChar : Char → Bool := within
  [(0x3A, 0x3A), (0x41, 0x5A), (0x5F, 0x5F), (0x61, 0x7A), (0xC0, 0xD6), (0xD8, 0xF6), (0xF8, 0x2FF), (0x370, 0x37D),
    (0x37F, 0x1FFF), (0x200C, 0x200D), (0x2070, 0x218F), (0x2C00, 0x2FEF), (0x3001, 0xD7FF), (0xF900, 0xFDCF),
    (0xFDF0, 0xFFFD), (0x10000, 0xEFFFF)]

def isNameChar (c : Char) : Bool :=
  isNameStartChar c || within [(0x2D, 0x2E), (0x30, 0x39), (0xB7, 0xB7), (0x300, 0x36F), (0x203F, 0x2040)] c

def isName : List Char → Bool
  | [] => false
  | c :: rest => isNameStartChar c && rest.all isNameChar

abbrev Attributes := List (List Char × List Char)

inductive Node where
  | char (c : Char)
  | element (tag : List Char) (attributes : Attributes) (content : List Node)

structure Frame where
  tag : List Char
  attributes : Attributes
  content : List Node

def Frame.add (frame : Frame) (nodes : List Node) : Frame := { frame with content := frame.content ++ nodes }

def Frame.node (frame : Frame) : Node := .element frame.tag frame.attributes frame.content

/-- A start tag, an empty-element tag or the XML declaration, as far as it is read. -/
structure Tag where
  declaration : Bool
  name : List Char
  attributes : Attributes

inductive Mode where
  | begin
  | outside
  | opened (first : Bool)
  | name (tag : Tag)
  | space (tag : Tag)
  | attribute (tag : Tag) (key : List Char)
  | equals (tag : Tag) (key : List Char)
  | quote (tag : Tag) (key : List Char)
  | value (tag : Tag) (key : List Char) (mark : Char) (read : List Char)
  | valueReference (tag : Tag) (key : List Char) (mark : Char) (read reference : List Char)
  | valued (tag : Tag)
  | closing (tag : Tag)
  | content (brackets : ℕ)
  | reference (reference : List Char)
  | endName (name : List Char)
  | endSpace (name : List Char)

structure Reader where
  mode : Mode
  frames : List Frame
  root : Option Node

def digitValue (c : Char) : Option ℕ :=
  if c.isDigit then some (c.toNat - 0x30)
  else if within [(0x61, 0x66)] c then some (c.toNat - 0x61 + 10)
  else if within [(0x41, 0x46)] c then some (c.toNat - 0x41 + 10)
  else none

def charReference (base : ℕ) (digits : List Char) : Option Char := do
  let values ← digits.mapM digitValue
  let number := values.foldl (fun number value => base * number + value) 0
  if digits ≠ [] ∧ values.all (· < base) = true ∧ number.isValidChar ∧ isChar (Char.ofNat number) = true then
    some (Char.ofNat number)
  else none

def resolve : List Char → Option Char
  | ['l', 't'] => some '<'
  | ['g', 't'] => some '>'
  | ['a', 'm', 'p'] => some '&'
  | ['q', 'u', 'o', 't'] => some '"'
  | ['a', 'p', 'o', 's'] => some '\''
  | '#' :: 'x' :: digits => charReference 16 digits
  | '#' :: digits => charReference 10 digits
  | _ => none

def isVersion : List Char → Bool
  | '1' :: '.' :: digits => !digits.isEmpty && digits.all Char.isDigit
  | _ => false

def standalone : Attributes → Bool
  | [] => true
  | [(key, value)] => key == "standalone".toList && (value == "yes".toList || value == "no".toList)
  | _ => false

def encodes : Attributes → Bool
  | [] => true
  | (key, value) :: rest =>
    if key = "encoding".toList then value.map Char.toLower == "utf-8".toList && standalone rest
    else standalone ((key, value) :: rest)

def declares (tag : Tag) : Bool :=
  match tag.attributes with
  | (key, value) :: rest => tag.name == "xml".toList && key == "version".toList && isVersion value && encodes rest
  | [] => false

namespace Reader

variable (r : Reader)

def addNode (node : Node) : Option Reader :=
  match r.frames with
  | frame :: rest => some { r with mode := .content 0, frames := frame.add [node] :: rest }
  | [] => if r.root.isNone then some { r with mode := .outside, root := some node } else none

def addChar (brackets : ℕ) (c : Char) : Option Reader :=
  match r.frames with
  | frame :: rest => some { r with mode := .content brackets, frames := frame.add [.char c] :: rest }
  | [] => none

def tagEnd (tag : Tag) (c : Char) : Option Reader :=
  if c = '>' ∧ tag.declaration = false then
    some { r with mode := .content 0, frames := ⟨tag.name, tag.attributes, []⟩ :: r.frames }
  else if (c = '/' ∧ tag.declaration = false) ∨ (c = '?' ∧ tag.declaration = true) then some { r with mode := .closing tag }
  else none

def closeTag (tag : Tag) : Option Reader :=
  if tag.declaration then if declares tag then some { r with mode := .outside } else none
  else r.addNode (.element tag.name tag.attributes [])

def closeElement (name : List Char) : Option Reader :=
  match r.frames with
  | frame :: rest => if frame.tag = name then addNode { r with frames := rest } frame.node else none
  | [] => none

def step (c : Char) : Option Reader :=
  match r.mode with
  | .begin =>
    if c = '<' then some { r with mode := .opened true }
    else if isSpace c then some { r with mode := .outside }
    else none
  | .outside =>
    if c = '<' then some { r with mode := .opened false }
    else if isSpace c then some r
    else none
  | .opened first =>
    if c = '/' then some { r with mode := .endName [] }
    else if c = '?' ∧ first = true then some { r with mode := .name ⟨true, [], []⟩ }
    else if isNameStartChar c then some { r with mode := .name ⟨false, [c], []⟩ }
    else none
  | .name tag =>
    if isNameChar c then some { r with mode := .name { tag with name := tag.name ++ [c] } }
    else if isSpace c then some { r with mode := .space tag }
    else r.tagEnd tag c
  | .space tag =>
    if isSpace c then some r
    else if isNameStartChar c then some { r with mode := .attribute tag [c] }
    else r.tagEnd tag c
  | .attribute tag key =>
    if isNameChar c then some { r with mode := .attribute tag (key ++ [c]) }
    else if isSpace c then some { r with mode := .equals tag key }
    else if c = '=' then some { r with mode := .quote tag key }
    else none
  | .equals tag key =>
    if isSpace c then some r
    else if c = '=' then some { r with mode := .quote tag key }
    else none
  | .quote tag key =>
    if isSpace c then some r
    else if (c = '"' ∨ c = '\'') ∧ tag.attributes.all (·.1 != key) = true then some { r with mode := .value tag key c [] }
    else none
  | .value tag key mark read =>
    if c = mark then some { r with mode := .valued { tag with attributes := tag.attributes ++ [(key, read)] } }
    else if c = '<' then none
    else if c = '&' then if tag.declaration then none else some { r with mode := .valueReference tag key mark read [] }
    else some { r with mode := .value tag key mark (read ++ [if isSpace c then ' ' else c]) }
  | .valueReference tag key mark read reference =>
    if c = ';' then (resolve reference).map fun char => { r with mode := .value tag key mark (read ++ [char]) }
    else some { r with mode := .valueReference tag key mark read (reference ++ [c]) }
  | .valued tag => if isSpace c then some { r with mode := .space tag } else r.tagEnd tag c
  | .closing tag => if c = '>' then r.closeTag tag else none
  | .content brackets =>
    if c = '<' then some { r with mode := .opened false }
    else if c = '&' then some { r with mode := .reference [] }
    else if c = '>' ∧ 2 ≤ brackets then none
    else r.addChar (if c = ']' then brackets + 1 else 0) c
  | .reference reference =>
    if c = ';' then (resolve reference).bind (r.addChar 0)
    else some { r with mode := .reference (reference ++ [c]) }
  | .endName name =>
    if isNameChar c then some { r with mode := .endName (name ++ [c]) }
    else if isSpace c then some { r with mode := .endSpace name }
    else if c = '>' then r.closeElement name
    else none
  | .endSpace name =>
    if isSpace c then some r
    else if c = '>' then r.closeElement name
    else none

def feed (text : List Char) : Option Reader := text.foldlM step r

variable {r}

@[simp] theorem feed_nil : r.feed [] = some r := rfl

@[simp] theorem feed_cons (c : Char) (text : List Char) : r.feed (c :: text) = (r.step c).bind (·.feed text) := rfl

theorem feed_append (first second : List Char) : r.feed (first ++ second) = (r.feed first).bind (·.feed second) :=
  List.foldlM_append

def document : Reader → Option Node
  | ⟨.outside, [], root⟩ => root
  | _ => none

end Reader

def normalizeLineEnds : List Char → List Char
  | '\r' :: '\n' :: rest => '\n' :: normalizeLineEnds rest
  | c :: rest => (if c = '\r' then '\n' else c) :: normalizeLineEnds rest
  | [] => []

def readDocument (text : List Char) : Option Node :=
  if text.all isChar then (Reader.feed ⟨.begin, [], none⟩ (normalizeLineEnds text)).bind Reader.document else none

def readBytes (bytes : ByteArray) : Option Node := bytes.utf8Decode?.bind fun text => readDocument text.toList

end MapBackend.Library.Xml
