import MapBackend.AIAgent.ProviderOperations
import MapBackend.Library.Caches
import MapBackend.Library.Distinct
import MapBackend.Library.Workers
import Mathlib.Data.Int.Bitwise

/-!
The photos of one product.
-/

namespace MapBackend.Products.Photos
open MapBackend.Library MapBackend.Core

def maxPhotos : ℕ := 10

def perceptualDupDistance : ℕ := 6

def imported : Text := "imported".toList
def rejected : Text := "rejected".toList

/-! ## Perceptual hashes -/

/-- `perceptual_hash` of the grey values of the small picture; nothing when Pillow did not make one. -/
def perceptualHash : Option (List ℕ) → Text
  | none => []
  | some [] => []
  | some pixels =>
    let bits := pixels.foldl (fun bits pixel => 2 * bits + if pixels.sum ≤ pixel * pixels.length then 1 else 0) 0
    List.leftpad 16 '0' (Nat.toDigits 16 bits)

def hexDigit (c : Char) : Option ℕ :=
  if 'a' ≤ c ∧ c ≤ 'f' then some (c.toNat - 87)
  else if 'A' ≤ c ∧ c ≤ 'F' then some (c.toNat - 55)
  else AIAgent.digitValue c

def moreHexDigits (value : ℕ) : Text → Option ℕ
  | [] => some value
  | '_' :: c :: rest => (hexDigit c).bind fun digit => moreHexDigits (16 * value + digit) rest
  | c :: rest => (hexDigit c).bind fun digit => moreHexDigits (16 * value + digit) rest

def hexDigits : Text → Option ℕ
  | [] => none
  | c :: rest => (hexDigit c).bind fun digit => moreHexDigits digit rest

def withoutBase : Text → Text
  | '0' :: 'x' :: '_' :: rest => rest
  | '0' :: 'X' :: '_' :: rest => rest
  | '0' :: 'x' :: rest => rest
  | '0' :: 'X' :: rest => rest
  | text => text

def hexOf (text : Text) : Option ℤ :=
  match (Url.strip text).map fun c => ((AIAgent.digitValue c).map Nat.digitChar).getD c with
  | '-' :: rest => (hexDigits (withoutBase rest)).map fun n => -(n : ℤ)
  | '+' :: rest => (hexDigits (withoutBase rest)).map fun n => (n : ℤ)
  | rest => (hexDigits (withoutBase rest)).map fun n => (n : ℤ)

def ones (n : ℤ) : ℕ := (List.range (n.natAbs.log2 + 1)).countP n.natAbs.testBit

def phashDistance (left right : Text) : ℕ :=
  if left = [] ∨ right = [] ∨ left.length ≠ right.length then 64
  else
    match hexOf left, hexOf right with
    | some l, some r => ones (Int.xor l r)
    | _, _ => 64

/-! ## Rows and objects -/

structure ProductImage where
  pk : ℕ
  sha256 : Text
  phash : Text
  status : Text
  s3Key : Text
  s3KeyThumb : Text
  s3KeyPreview : Text
  urlSource : Text
  sourceId : Text
  position : ℕ
  isPrimary : Bool
  resolutionW : Option ℕ
  resolutionH : Option ℕ
  fileSizeKb : Option ℕ
  deriving DecidableEq

namespace ProductImage

def keys (image : ProductImage) : List Text := [image.s3Key, image.s3KeyThumb, image.s3KeyPreview].filter fun key => key != []

def live (image : ProductImage) : Bool := image.status != rejected

def resembles (phash : Text) (image : ProductImage) : Bool :=
  image.live && image.phash != [] && decide (phashDistance image.phash phash ≤ perceptualDupDistance)

end ProductImage

structure ImageGeneration where
  imageId : ℕ
  status : Text
  isPrimary : Bool
  position : ℕ
  s3Key : Text
  urlSource : Text
  deriving DecidableEq

/-- The rows in the order of their keys, and what the storage was asked for. A name belongs to an upload attempt or to others. -/
structure PhotoStore where
  images : List ProductImage
  nextPk : ℕ
  attempts : ℕ
  names : Dict Text (Option ℕ)
  deleted : List Text

namespace PhotoStore

variable (s : PhotoStore)

def liveCount : ℕ := s.images.countP ProductImage.live

def generations : List ImageGeneration :=
  s.images.map fun image => ⟨image.pk, image.status, image.isPrimary, image.position, image.s3Key, image.urlSource⟩

/-- `find_perceptual_duplicate` of a hash. The photos come by position, those of one position in any order. -/
def findPerceptualDuplicate (pick : ℕ) (phash : Text) : Option ProductImage :=
  let similar := s.images.filter (ProductImage.resembles phash)
  let first := similar.filter fun image => similar.all fun other => decide (image.position ≤ other.position)
  first[pick]?.or first.head?

def deleteStorageKeys (keys : List Text) : PhotoStore :=
  { s with deleted := s.deleted ++ distinct id [] ((keys.filter fun key => key != []).map Url.strip) }

end PhotoStore

/-! ## Calls -/

structure Picture where
  width : ℕ
  height : ℕ
  decodes : Bool
  frames : ℕ
  grey : Option (List ℕ)

structure Imaging where
  sha256 : List UInt8 → Text
  open_ : List UInt8 → Option Picture
  maxDecodedPixels : ℤ
  minResolution : ℤ

def Imaging.load (imaging : Imaging) (raw : List UInt8) : Option Picture :=
  (imaging.open_ raw).filter fun picture => decide (0 < picture.width) && decide (0 < picture.height) &&
    decide ((picture.width * picture.height : ℤ) ≤ imaging.maxDecodedPixels) && picture.decodes

structure PhotoCall where
  sourceUrl : Text
  sourceId : Text
  status : Option Text
  checkLimit : Bool
  validateQuality : Bool
  allowLowResolution : Bool

def PhotoCall.targetStatus (call : PhotoCall) : Text :=
  match call.status with
  | none => imported
  | some [] => imported
  | some status => status

structure Photo where
  sha : Text
  phash : Text
  width : ℕ
  height : ℕ
  rawSize : ℕ

/-- Where a call stands between two accesses to the database or the storage. -/
inductive Stage where
  | entered
  | admitted
  | downloaded (raw : List UInt8)
  | compared (raw : List UInt8) (existing : Option ℕ)
  | unsaved (photo : Photo)
  | half (photo : Photo) (original : Text)
  | trying (photo : Photo) (original thumb : Text) (attempt : ℕ)
  | captured (photo : Photo) (original thumb : Text) (attempt : ℕ) (expected : List ImageGeneration)
  | finding (image : ℕ)
  | updating (image : ℕ) (photo : Photo) (attempt : ℕ)
  | capturedUpdate (image : ℕ) (photo : Photo) (attempt : ℕ) (expected : List ImageGeneration)
  | returned (image : Option ℕ)
  | raised

/-- A running call, with the token of its upload attempt and the objects that it stored. -/
structure PhotoWorker where
  call : PhotoCall
  stage : Stage
  token : Option ℕ
  stored : List Text

def enter (call : PhotoCall) : PhotoWorker := ⟨call, .entered, none, []⟩

def PhotoWorker.goto (w : PhotoWorker) (stage : Stage) : PhotoWorker := { w with stage }

/-- The answer to the request: `RequestException` or `ValueError`, another exception, or a body with its content type. -/
inductive Download where
  | refused
  | broke
  | answered (raw : List UInt8) (contentType : Text)

/-- How an access to the database ends: as it should, with a stale snapshot of the product or its accounts,
with an `IntegrityError`, or with another exception. -/
inductive Fate where
  | clean
  | stale
  | integrity
  | broken
  deriving DecidableEq

structure PhotoInput where
  download : Download
  encodes : Bool
  pick : ℕ
  saves : Option Text
  productThere : Bool
  fate : Fate

section Moves

variable (imaging : Imaging) (w : PhotoWorker) (i : PhotoInput) (s : PhotoStore)

/-- A read outside the locked sections, where every exception of the database leaves the call. -/
def reading (next : PhotoWorker) : PhotoStore × PhotoWorker := (s, if i.fate = .clean then next else w.goto .raised)

def checkEntry : PhotoStore × PhotoWorker :=
  if w.call.checkLimit = true then
    reading w i s (if maxPhotos ≤ s.liveCount then w.goto (.returned none) else w.goto .admitted)
  else (s, w.goto .admitted)

/-- `content_type.split(';', 1)[0]` is empty or of an image. -/
def imageType (contentType : Text) : Bool :=
  let kind := contentType.takeWhile (· != ';')
  kind == [] || "image/".toList.isPrefixOf kind

def receive : PhotoWorker :=
  match i.download with
  | .refused => w.goto (.returned none)
  | .broke => w.goto .raised
  | .answered raw contentType =>
    if w.call.validateQuality = true ∧ imageType contentType = false then w.goto (.returned none)
    else w.goto (.downloaded raw)

def lookUp (raw : List UInt8) : PhotoStore × PhotoWorker :=
  reading w i s (w.goto (.compared raw ((s.images.find? fun image => image.sha256 == imaging.sha256 raw).map ProductImage.pk)))

def poor (picture : Picture) : Bool :=
  (decide ((min picture.width picture.height : ℤ) < imaging.minResolution) && !w.call.allowLowResolution) ||
    decide (1 < picture.frames) || decide (5 * min picture.width picture.height < max picture.width picture.height)

def photoOf (raw : List UInt8) (picture : Picture) : Photo :=
  ⟨imaging.sha256 raw, perceptualHash picture.grey, picture.width, picture.height, raw.length⟩

def encode (next : Stage) : PhotoWorker := w.goto (if i.encodes = true then next else .raised)

def compareHash (photo : Photo) : PhotoStore × PhotoWorker :=
  reading w i s (match s.findPerceptualDuplicate i.pick photo.phash with
    | some duplicate => w.goto (.returned (some duplicate.pk))
    | none => encode w i (.unsaved photo))

def compare (raw : List UInt8) (existing : Option ℕ) : PhotoStore × PhotoWorker :=
  match imaging.load raw with
  | none => (s, w.goto (.returned none))
  | some picture =>
    if w.call.validateQuality = true ∧ poor imaging w picture = true then (s, w.goto (.returned none))
    else
      let photo := photoOf imaging raw picture
      match existing with
      | some image => (s, encode w i (.updating image photo 0))
      | none => if photo.phash = [] then (s, encode w i (.unsaved photo)) else compareHash w i s photo

/-- The first save of `_save_product_image_pair`, under a token that no other attempt has. -/
def saveOriginal (photo : Photo) : PhotoStore × PhotoWorker :=
  match i.saves with
  | none => ({ s with attempts := s.attempts + 1 }, { w with stage := .returned none, token := some s.attempts })
  | some name =>
    ({ s with attempts := s.attempts + 1, names := s.names.set name (some s.attempts) },
      ⟨w.call, .half photo name, some s.attempts, [name]⟩)

def saveThumb (photo : Photo) (original : Text) : PhotoStore × PhotoWorker :=
  match i.saves with
  | none => (s.deleteStorageKeys [original], w.goto (.returned none))
  | some name => ({ s with names := s.names.set name w.token }, ⟨w.call, .trying photo original name 0, w.token, [original, name]⟩)

def giveUp (original thumb : Text) (stage : Stage) : PhotoStore × PhotoWorker :=
  (s.deleteStorageKeys [original, thumb], w.goto stage)

def retry (photo : Photo) (original thumb : Text) (attempt : ℕ) : PhotoStore × PhotoWorker :=
  if attempt + 1 < 3 then (s, w.goto (.trying photo original thumb (attempt + 1))) else giveUp w s original thumb .raised

def capture (photo : Photo) (original thumb : Text) (attempt : ℕ) : PhotoStore × PhotoWorker :=
  if i.fate = .broken then giveUp w s original thumb .raised
  else if i.fate = .clean ∧ i.productThere = true then (s, w.goto (.captured photo original thumb attempt s.generations))
  else retry w s photo original thumb attempt

def newImage (photo : Photo) (original thumb : Text) : ProductImage where
  pk := s.nextPk
  sha256 := photo.sha
  phash := photo.phash
  status := w.call.targetStatus
  s3Key := original
  s3KeyThumb := thumb
  s3KeyPreview := []
  urlSource := w.call.sourceUrl
  sourceId := w.call.sourceId
  position := s.images.length
  isPrimary := false
  resolutionW := some photo.width
  resolutionH := some photo.height
  fileSizeKb := some (max 1 (photo.rawSize / 1024))

def create (photo : Photo) (original thumb : Text) : PhotoStore × PhotoWorker :=
  ({ s with images := s.images ++ [newImage w s photo original thumb], nextPk := s.nextPk + 1 },
    w.goto (.returned (some s.nextPk)))

def locked (photo : Photo) (original thumb : Text) (attempt : ℕ) (expected : List ImageGeneration) : PhotoStore × PhotoWorker :=
  if i.fate = .broken then giveUp w s original thumb .raised
  else if i.fate = .stale ∨ s.generations ≠ expected then retry w s photo original thumb attempt
  else
    match s.images.find? fun image => image.sha256 == photo.sha with
    | some same => giveUp w s original thumb (.updating same.pk photo 0)
    | none =>
      match s.images.find? (ProductImage.resembles photo.phash) with
      | some duplicate => giveUp w s original thumb (.finding duplicate.pk)
      | none =>
        if w.call.checkLimit = true ∧ maxPhotos ≤ s.liveCount then giveUp w s original thumb (.returned none)
        else if i.fate = .integrity then retry w s photo original thumb attempt
        else create w s photo original thumb

def find (image : ℕ) : PhotoStore × PhotoWorker :=
  reading w i s (w.goto (.returned ((s.images.find? fun row => row.pk == image).map ProductImage.pk)))

def retryUpdate (image : ℕ) (photo : Photo) (attempt : ℕ) : PhotoWorker :=
  w.goto (if attempt + 1 < 3 then .updating image photo (attempt + 1) else .raised)

def captureUpdate (image : ℕ) (photo : Photo) (attempt : ℕ) : PhotoStore × PhotoWorker :=
  match s.images.find? fun row => row.pk == image with
  | none => reading w i s (w.goto (.returned none))
  | some _ =>
    reading w i s (if i.productThere = true then w.goto (.capturedUpdate image photo attempt s.generations)
      else retryUpdate w image photo attempt)

def updateMetadata (photo : Photo) (existing : ProductImage) : ProductImage :=
  { existing with
    urlSource := if w.call.sourceUrl = [] then existing.urlSource else w.call.sourceUrl
    sourceId := if w.call.sourceId = [] then existing.sourceId else w.call.sourceId
    phash := if existing.phash = [] then photo.phash else existing.phash
    resolutionW := some photo.width
    resolutionH := some photo.height
    fileSizeKb := some (max 1 (photo.rawSize / 1024)) }

def lockedUpdate (image : ℕ) (photo : Photo) (attempt : ℕ) (expected : List ImageGeneration) : PhotoStore × PhotoWorker :=
  if i.fate = .broken ∨ i.fate = .integrity then (s, w.goto .raised)
  else if i.fate = .stale ∨ s.generations ≠ expected then (s, retryUpdate w image photo attempt)
  else
    match s.images.find? fun row => row.pk == image && row.sha256 == photo.sha with
    | none => (s, retryUpdate w image photo attempt)
    | some row =>
      ({ s with images := s.images.map fun old => if old.pk = row.pk then updateMetadata w photo old else old },
        w.goto (.returned (some row.pk)))

def advance (w : PhotoWorker) (i : PhotoInput) (s : PhotoStore) : PhotoStore × PhotoWorker :=
  match w.stage with
  | .entered => checkEntry w i s
  | .admitted => (s, receive w i)
  | .downloaded raw => lookUp imaging w i s raw
  | .compared raw existing => compare imaging w i s raw existing
  | .unsaved photo => saveOriginal w i s photo
  | .half photo original => saveThumb w i s photo original
  | .trying photo original thumb attempt => capture w i s photo original thumb attempt
  | .captured photo original thumb attempt expected => locked w i s photo original thumb attempt expected
  | .finding image => find w i s image
  | .updating image photo attempt => captureUpdate w i s image photo attempt
  | .capturedUpdate image photo attempt expected => lockedUpdate w i s image photo attempt expected
  | .returned _ => (s, w)
  | .raised => (s, w)

end Moves

def takeName (s : PhotoStore) (name : Text) : PhotoStore :=
  if s.names name = none then { s with names := s.names.set name none } else s

/-! ## Crews -/

abbrev PhotoCrew := Crew PhotoStore PhotoWorker
abbrev PhotoAction := CrewAction PhotoCall PhotoInput Text

def PhotoCrew.next (imaging : Imaging) (c : PhotoCrew) (a : PhotoAction) : PhotoCrew :=
  Crew.act takeName (advance imaging) enter c a

def Stage.saving : Stage → Bool
  | .unsaved _ => true
  | .half _ _ => true
  | _ => false

/-- What `Storage.save` returns for a name with a random token: a name that nothing has, without blanks around it. -/
def StoresFresh (s : PhotoStore) (w : PhotoWorker) (i : PhotoInput) : Prop :=
  w.stage.saving = true → ∀ name ∈ i.saves, s.names name = none ∧ name ≠ [] ∧ Url.strip name = name

instance (s : PhotoStore) (w : PhotoWorker) (i : PhotoInput) : Decidable (StoresFresh s w i) :=
  inferInstanceAs (Decidable (_ → ∀ name ∈ i.saves, _))

/-- A product with these photos before the first call. The rows of other tables refer to other names. -/
def productWith (images : List ProductImage) (nextPk : ℕ) (others : List Text) : PhotoCrew where
  store := {
    images
    nextPk
    attempts := 0
    names := fun name => if others.contains name || images.any fun image => image.keys.contains name then some none else none
    deleted := [] }
  workers := []

end MapBackend.Products.Photos
