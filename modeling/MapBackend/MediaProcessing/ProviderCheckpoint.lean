import MapBackend.Core.DecimalText
import MapBackend.Library.Base64
import MapBackend.MediaProcessing.MediaJob

/-!
The durable checkpoint of an answer of a media provider.
-/

namespace MapBackend.MediaProcessing.Checkpoint
open MapBackend.Library MapBackend.Core

/-! ## Values of Python -/

/-- The key of a dictionary; a number is kept with the text that JSON writes for it. -/
inductive Key where
  | text (s : Text)
  | number (value : ℚ) (shown : Text)
  | null
  | unhashed

/-- A value of a provider. The entries of a dictionary stand in any order: nothing depends on it. -/
inductive Value where
  | null
  | bool (b : Bool)
  | int (n : ℤ)
  | float (value : ℚ) (shown : Text)
  | nonFinite
  | text (s : Text)
  | list (items : List Value)
  | tuple (items : List Value)
  | dict (entries : List (Key × Value))
  /-- A value that JSON has no form for. -/
  | foreign (truthy : Bool)

def Key.name : Key → Option Text
  | .text s => some s
  | .number _ shown => some shown
  | .null => some "null".toList
  | .unhashed => none

def Key.isText : Key → Bool
  | .text _ => true
  | _ => false

def Key.isNumber : Key → Bool
  | .number _ _ => true
  | _ => false

/-- Keys can be sorted when they are of one kind, or when there is nothing to sort. -/
def comparable (keys : List Key) : Bool := decide (keys.length ≤ 1) || keys.all Key.isText || keys.all Key.isNumber

namespace Value

def isDict : Value → Bool
  | .dict _ => true
  | _ => false

def truthy : Value → Bool
  | .null => false
  | .bool b => b
  | .int n => decide (n ≠ 0)
  | .float value _ => decide (value ≠ 0)
  | .nonFinite => true
  | .text s => !s.isEmpty
  | .list items => !items.isEmpty
  | .tuple items => !items.isEmpty
  | .dict entries => !entries.isEmpty
  | .foreign truthy => truthy

mutual

def toJson : Value → Option Json
  | .null => some .null
  | .bool b => some (.bool b)
  | .int n => some (.int n)
  | .float value shown => some (.float value shown)
  | .nonFinite => none
  | .text s => some (.text s)
  | .list items => (itemsToJson items).map .list
  | .tuple items => (itemsToJson items).map .list
  | .dict entries => if comparable (entries.map Prod.fst) then (entriesToJson entries).map .object else none
  | .foreign _ => none

def itemsToJson : List Value → Option (List Json)
  | [] => some []
  | item :: rest => do
    let item ← item.toJson
    let rest ← itemsToJson rest
    some (item :: rest)

def entriesToJson : List (Key × Value) → Option (List (Text × Json))
  | [] => some []
  | (key, value) :: rest => do
    let name ← key.name
    let value ← value.toJson
    let rest ← entriesToJson rest
    some ((name, value) :: rest)

end

mutual

def ofJson : Json → Value
  | .null => .null
  | .bool b => .bool b
  | .int n => .int n
  | .float value shown => .float value shown
  | .nonFinite => .nonFinite
  | .text s => .text s
  | .list items => .list (ofItems items)
  | .object entries => .dict (ofEntries entries)

def ofItems : List Json → List Value
  | [] => []
  | item :: rest => ofJson item :: ofItems rest

def ofEntries : List (Text × Json) → List (Key × Value)
  | [] => []
  | (name, value) :: rest => (.text name, ofJson value) :: ofEntries rest

end

end Value

/-! ## The answer -/

inductive MediaProviderResultStatus where
  | succeeded
  | pending
  | failed
  deriving DecidableEq

def MediaProviderResultStatus.text : MediaProviderResultStatus → Text
  | .succeeded => "succeeded".toList
  | .pending => "pending".toList
  | .failed => "failed".toList

def statusOf (text : Text) : Option MediaProviderResultStatus :=
  if text = "succeeded".toList then some .succeeded
  else if text = "pending".toList then some .pending
  else if text = "failed".toList then some .failed
  else none

def statusText : Option MediaProviderResultStatus → Text
  | some status => status.text
  | none => "invalid".toList

/-- `MediaProviderResult`. A status outside the choices is absent. -/
structure MediaProviderResult where
  status : Option MediaProviderResultStatus
  providerJobId : Text
  outputUrl : Text
  outputBytes : Option (List UInt8)
  outputContentType : Text
  metadata : Value
  actualCost : Option PyDecimal
  errorCode : Text

def checkpointVersion : ℤ := 1
def binaryMaxBytes : ℕ := 2 * 1024 * 1024
def metadataMaxBytes : ℕ := 64 * 1024
def urlMaxChars : ℕ := 8192
def idMaxChars : ℕ := 4096
def checkpointMaxBytes : ℕ := 3 * 1024 * 1024

/-- What the functions use beside their arguments: the limit of the settings, a digest and a cipher that
restores what it encrypted to a token. -/
structure Environment (Token : Type) where
  outputMaxBytes : ℕ
  sha256 : List UInt8 → Text
  encrypt : Json → Token
  decrypt : Token → Option Json
  restores : ∀ payload, payload.isObject = true → decrypt (encrypt payload) = some payload

/-! ## Writing -/

/-- A character of an ASCII text of JSON: the others are escaped by their UTF-16 units. -/
def asciiChar (c : Char) : Text :=
  let unit (n : ℕ) : Text := '\\' :: 'u' :: (Json.hexDigits (n / 256) ++ Json.hexDigits (n % 256))
  if c.toNat < 0x7f then [c]
  else if c.toNat < 0x10000 then unit c.toNat
  else unit (0xD800 + (c.toNat - 0x10000) / 1024) ++ unit (0xDC00 + (c.toNat - 0x10000) % 1024)

/-- `_canonical_provider_checkpoint` of a value that has a JSON form. -/
def canonicalProviderCheckpoint (payload : Json) : Option Text := payload.sorted.dumps.map (List.flatMap asciiChar)

def bytesOf (text : Text) : List UInt8 := text.map fun c => UInt8.ofNat c.toNat

def boundedCheckpointMetadata (metadata : Value) : Json × Bool :=
  if metadata.isDict = false then (.object [], metadata.truthy)
  else
    match metadata.toJson with
    | none => (.object [], true)
    | some normalized =>
      match canonicalProviderCheckpoint normalized with
      | none => (.object [], true)
      | some raw => if metadataMaxBytes < raw.length then (.object [], true) else (normalized, false)

def boundedCheckpointText (value : Text) (maxChars : ℕ) : Text × Bool :=
  if maxChars < value.length then ([], true) else (value, false)

section
variable {Token : Type}

def outputLimit (env : Environment Token) : ℕ := min env.outputMaxBytes binaryMaxBytes

def costText (cost : Option PyDecimal) : Text :=
  match cost with
  | none => []
  | some d => if d.val.isFinite && decide (0 ≤ d.val.value) then d.val.shown else []

structure BinaryFields where
  omitted : Bool
  b64 : Text
  size : ℕ
  sha256 : Text

def binaryFields (env : Environment Token) : Option (List UInt8) → BinaryFields
  | none => ⟨false, [], 0, []⟩
  | some bytes =>
    if outputLimit env < bytes.length then ⟨true, [], bytes.length, env.sha256 bytes⟩
    else ⟨false, Base64.encode bytes, bytes.length, env.sha256 bytes⟩

def entry (name : String) (value : Json) : Text × Json := (name.toList, value)

def payloadOf (env : Environment Token) (result : MediaProviderResult) : Json :=
  let providerJobId := boundedCheckpointText result.providerJobId idMaxChars
  let outputUrl := boundedCheckpointText result.outputUrl urlMaxChars
  let outputContentType := boundedCheckpointText result.outputContentType 255
  let metadata := boundedCheckpointMetadata result.metadata
  let binary := binaryFields env result.outputBytes
  .object [
    entry "version" (.int checkpointVersion),
    entry "status" (.text (statusText result.status)),
    entry "provider_job_id" (.text providerJobId.1),
    entry "provider_job_id_omitted" (.bool providerJobId.2),
    entry "output_url" (.text outputUrl.1),
    entry "output_url_omitted" (.bool outputUrl.2),
    entry "output_bytes_b64" (.text binary.b64),
    entry "output_bytes_present" (.bool result.outputBytes.isSome),
    entry "output_bytes_omitted" (.bool binary.omitted),
    entry "output_bytes_size" (.int binary.size),
    entry "output_bytes_sha256" (.text binary.sha256),
    entry "output_content_type" (.text outputContentType.1),
    entry "content_type_omitted" (.bool outputContentType.2),
    entry "metadata" metadata.1,
    entry "metadata_omitted" (.bool metadata.2),
    entry "actual_cost" (.text (costText result.actualCost)),
    entry "error_code" (.text (result.errorCode.take 100))]

/-- `MediaProviderCheckpointNotApplicable`, by its message. -/
abbrev CheckpointNotApplicable := String

def notSerializable : CheckpointNotApplicable := "Ответ провайдера нельзя безопасно сериализовать."
def tooLarge : CheckpointNotApplicable := "Ответ провайдера превышает лимит durable checkpoint."
def absent : CheckpointNotApplicable := "Durable checkpoint ответа провайдера отсутствует."
def damaged : CheckpointNotApplicable := "Durable checkpoint ответа провайдера повреждён."
def integrityFailed : CheckpointNotApplicable := "Durable checkpoint ответа провайдера не прошёл проверку целостности."
def unknownStatus : CheckpointNotApplicable := "Checkpoint содержит неизвестный статус провайдера."
def binaryTooLarge : CheckpointNotApplicable := "Бинарный ответ провайдера превышает лимит checkpoint."
def binaryDamaged : CheckpointNotApplicable := "Бинарный ответ в checkpoint повреждён."
def binaryIntegrityFailed : CheckpointNotApplicable := "Бинарный ответ в checkpoint не прошёл проверку целостности."
def urlOmitted : CheckpointNotApplicable := "URL результата не поместился в checkpoint."
def idOmitted : CheckpointNotApplicable := "Идентификатор асинхронной задачи не поместился в checkpoint."

structure SerializedCheckpoint where
  payload : Json
  canonical : Text
  digest : Text

def serializeProviderResultCheckpoint (env : Environment Token) (result : MediaProviderResult) :
    Except CheckpointNotApplicable SerializedCheckpoint := do
  let payload := payloadOf env result
  let canonical ← orRaise notSerializable (canonicalProviderCheckpoint payload)
  raiseIf (checkpointMaxBytes < canonical.length) tooLarge
  .ok ⟨payload, canonical, env.sha256 (bytesOf canonical)⟩

/-! ## Reading -/

def lookup (payload : Json) (name : String) : Option Json := payload.get name.toList

/-- `str(payload.get(name) or '')` of a field that holds a text or a flag. -/
def textField (payload : Json) (name : String) : Text :=
  match lookup payload name with
  | some (.text s) => s
  | some (.bool true) => "True".toList
  | some (.int n) => if n = 0 then [] else (toString n).toList
  | some (.float value shown) => if value = 0 then [] else shown
  | _ => []

def flag (payload : Json) (name : String) : Bool :=
  match lookup payload name with
  | none => false
  | some value => (Value.ofJson value).truthy

/-- `int(payload.get(name) or 0)` of a field that holds a number. -/
def sizeField (payload : Json) (name : String) : ℤ :=
  match lookup payload name with
  | some (.int n) => n
  | _ => 0

def isCurrent (payload : Json) : Bool :=
  match lookup payload "version" with
  | some (.int n) => decide (n = checkpointVersion)
  | some (.float value _) => decide (value = checkpointVersion)
  | some (.bool b) => b
  | _ => false

def readBytes (env : Environment Token) (payload : Json) : Except CheckpointNotApplicable (Option (List UInt8)) :=
  if flag payload "output_bytes_present" = false then .ok none
  else do
    raiseIf (flag payload "output_bytes_omitted" = true) binaryTooLarge
    let bytes ← orRaise binaryDamaged (Base64.decode (textField payload "output_bytes_b64"))
    raiseIf ((bytes.length : ℤ) ≠ sizeField payload "output_bytes_size" ∨
      env.sha256 bytes ≠ textField payload "output_bytes_sha256" ∨ outputLimit env < bytes.length) binaryIntegrityFailed
    .ok (some bytes)

def readMetadata (payload : Json) : Value :=
  match lookup payload "metadata" with
  | some (.object entries) => Value.ofJson (.object entries)
  | _ => .dict []

def readCost (payload : Json) : Option PyDecimal :=
  if flag payload "actual_cost" then decimalOf (textField payload "actual_cost") else none

def providerResultFromCheckpoint (env : Environment Token) (encrypted : Option Token) (digest : Text) :
    Except CheckpointNotApplicable MediaProviderResult := do
  let encrypted ← orRaise absent encrypted
  let payload ← orRaise damaged ((env.decrypt encrypted).filter Json.isObject)
  let canonical ← orRaise damaged (canonicalProviderCheckpoint payload)
  raiseIf (isCurrent payload = false ∨ env.sha256 (bytesOf canonical) ≠ digest) integrityFailed
  let status ← orRaise unknownStatus (statusOf (textField payload "status"))
  let outputBytes ← readBytes env payload
  raiseIf (flag payload "output_url_omitted" = true ∧ outputBytes.isNone) urlOmitted
  raiseIf (flag payload "provider_job_id_omitted" = true ∧ status = .pending) idOmitted
  .ok {
    status := some status
    providerJobId := textField payload "provider_job_id"
    outputUrl := textField payload "output_url"
    outputBytes
    outputContentType := textField payload "output_content_type"
    metadata := readMetadata payload
    actualCost := readCost payload
    errorCode := (textField payload "error_code").take 100 }

end

end MapBackend.MediaProcessing.Checkpoint
