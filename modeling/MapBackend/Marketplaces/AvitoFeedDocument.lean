import MapBackend.Library.XmlOutline
import MapBackend.Marketplaces.AvitoFeedContext

/-!
What a reader of XML makes of a feed.
-/

namespace MapBackend.Marketplaces.Avito
open MapBackend.Core MapBackend.Core.Url MapBackend.Library

/-! ## The chunks -/

section Chunks

variable {accepts : Accepts} {maxBytes : Option ℤ} {settings : FeedSettings} {db : FeedDatabase}

def writeAll (accepts : Accepts) (maxBytes : Option ℤ) (chunks : List Text) (writer : HashingBoundedWriter) :
    Except FeedError HashingBoundedWriter :=
  chunks.foldlM (fun writer text => writer.write accepts maxBytes text) writer

theorem writeAll_append (first second : List Text) (writer : HashingBoundedWriter) :
    writeAll accepts maxBytes (first ++ second) writer =
      writeAll accepts maxBytes first writer >>= writeAll accepts maxBytes second :=
  List.foldlM_append

theorem writeAll_cons (text : Text) (rest : List Text) (writer : HashingBoundedWriter) :
    writeAll accepts maxBytes (text :: rest) writer =
      writer.write accepts maxBytes text >>= writeAll accepts maxBytes rest :=
  List.foldlM_cons

def resolvedAd (settings : FeedSettings) (db : FeedDatabase) (listing : Listing) : AvitoAd :=
  feedAd settings listing (db.relations settings listing)

def adChunks (ad : AvitoAd) : List Text := [[' ', ' '], ad.text, ['\n']]

def feedChunks (ads : List AvitoAd) : List Text := xmlHeader :: adsStart :: (ads.flatMap adChunks ++ [adsEnd])

variable {progress : FeedProgress}

theorem writeListing_eq {listing : Listing} (sound : progress.context.Sound settings db)
    (covers : progress.context.Covers db listing) :
    writeListing accepts maxBytes settings db progress listing =
      (writeAll accepts maxBytes (adChunks (resolvedAd settings db listing)) progress.writer).map fun writer =>
        ⟨writer, (progress.context.relations settings db listing).2, progress.listingCount + 1⟩ := by
  obtain ⟨answer, -, -⟩ := FeedBuildContext.relations_eq sound covers
  rw [writeListing, resolvedAd, ← answer]
  generalize progress.context.relations settings db listing = relations
  obtain ⟨relations, _⟩ := relations
  simp only [writeAll, adChunks, List.foldlM_cons, List.foldlM_nil]
  cases progress.writer.write accepts maxBytes [' ', ' '] with
  | error => rfl
  | ok first =>
    cases writes : first.write accepts maxBytes (feedAd settings listing relations).text with
    | error => simp [writes, bind, Except.bind, Except.map]
    | ok second =>
      cases ends : second.write accepts maxBytes ['\n'] with
      | error => simp [writes, ends, bind, Except.bind, Except.map]
      | ok => simp [writes, ends, bind, Except.bind, Except.map, pure, Except.pure]

theorem writeListings_eq {batch : List Listing} (sound : progress.context.Sound settings db)
    (covers : ∀ listing ∈ batch, progress.context.Covers db listing) :
    ∃ context : FeedBuildContext, context.Sound settings db ∧
      batch.foldlM (writeListing accepts maxBytes settings db) progress =
        (writeAll accepts maxBytes ((batch.map (resolvedAd settings db)).flatMap adChunks) progress.writer).map fun writer =>
          ⟨writer, context, progress.listingCount + batch.length⟩ := by
  induction batch generalizing progress with
  | nil => exact ⟨progress.context, sound, rfl⟩
  | cons listing _ ih =>
    obtain ⟨-, later, kept⟩ := FeedBuildContext.relations_eq sound (covers listing List.mem_cons_self)
    rw [List.foldlM_cons, writeListing_eq sound (covers listing List.mem_cons_self), List.map_cons, List.flatMap_cons,
      writeAll_append]
    cases writeAll accepts maxBytes (adChunks (resolvedAd settings db listing)) progress.writer with
    | error => exact ⟨progress.context, sound, rfl⟩
    | ok writer =>
      obtain ⟨context, context_sound, written⟩ := @ih
        ⟨writer, (progress.context.relations settings db listing).2, progress.listingCount + 1⟩ later
        fun other mem => kept.covers (covers other (List.mem_cons_of_mem _ mem))
      refine ⟨context, context_sound, written.trans ?_⟩
      rw [List.length_cons, Nat.add_right_comm, ← Nat.add_assoc]
      rfl

theorem writeBatches_eq (sound : progress.context.Sound settings db) (batches : List (List Listing)) :
    ∃ context : FeedBuildContext, batches.foldlM (writeBatch accepts maxBytes settings db) progress =
      (writeAll accepts maxBytes ((batches.flatten.map (resolvedAd settings db)).flatMap adChunks) progress.writer).map
        fun writer => ⟨writer, context, progress.listingCount + batches.flatten.length⟩ := by
  induction batches generalizing progress with
  | nil => exact ⟨progress.context, rfl⟩
  | cons batch _ ih =>
    obtain ⟨prepared, covers⟩ := @FeedBuildContext.prepareBatch_ready settings db progress.context batch sound
    obtain ⟨middle, middle_sound, first⟩ := @writeListings_eq accepts maxBytes settings db
      { progress with context := progress.context.prepareBatch db batch } batch prepared covers
    rw [List.foldlM_cons, writeBatch, first, List.flatten_cons, List.map_append, List.flatMap_append, writeAll_append]
    cases writeAll accepts maxBytes ((batch.map (resolvedAd settings db)).flatMap adChunks) progress.writer with
    | error => exact ⟨progress.context, rfl⟩
    | ok writer =>
      obtain ⟨context, written⟩ := @ih ⟨writer, middle, progress.listingCount + batch.length⟩ middle_sound
      refine ⟨context, written.trans ?_⟩
      rw [List.length_append, ← Nat.add_assoc]
      rfl

theorem batched_flatten {A : Type} (size : ℕ) (batch items : List A) : (batched size batch items).flatten = batch ++ items := by
  induction items generalizing batch with
  | nil =>
    rw [batched]
    split
    next empty => simpa using (List.isEmpty_iff.mp empty).symm
    next => simp
  | cons _ _ ih =>
    rw [batched]
    split
    · rw [List.flatten_cons, ih]
      simp
    · rw [ih]
      simp

theorem writeFeed_eq (sha256 : ByteArray → ByteArray) (batchSize : ℕ) (listings : List Listing) (sink : ByteArray) :
    writeFeed accepts maxBytes settings db sha256 batchSize listings sink = (do
      raiseIf (∃ limit ∈ maxBytes, limit < 1) .invalidCeiling
      let writer ← writeAll accepts maxBytes (feedChunks (listings.map (resolvedAd settings db))) ⟨sink, 0, ByteArray.empty⟩
      pure (⟨listings.length, writer.sizeBytes, sha256 writer.hashed⟩, writer.sink)) := by
  have split : feedChunks (listings.map (resolvedAd settings db)) = [xmlHeader] ++ ([adsStart] ++
      ((listings.map (resolvedAd settings db)).flatMap adChunks ++ [adsEnd])) := rfl
  have one (text : Text) (writer : HashingBoundedWriter) :
      writeAll accepts maxBytes [text] writer = writer.write accepts maxBytes text := by
    simp [writeAll]
  simp only [writeFeed, split, writeAll_append, one, bind_assoc]
  refine bind_congr fun _ => bind_congr fun first => bind_congr fun second => ?_
  obtain ⟨_, batches⟩ := @writeBatches_eq accepts maxBytes settings db
    ⟨second, FeedBuildContext.empty, 0⟩ FeedBuildContext.Sound.empty (batched batchSize [] listings)
  rw [batches, batched_flatten, List.nil_append]
  cases writeAll accepts maxBytes ((listings.map (resolvedAd settings db)).flatMap adChunks) second with
  | error => rfl
  | ok =>
    rw [Except.map, Nat.zero_add]
    rfl

/-! ## The bytes -/

theorem utf8_eq (text : Text) : utf8 text = text.utf8Encode := by simp [utf8]

theorem utf8_append (first second : Text) : utf8 (first ++ second) = utf8 first ++ utf8 second := by
  rw [utf8_eq, utf8_eq, utf8_eq, List.utf8Encode_append]

def HashingBoundedWriter.extend (writer : HashingBoundedWriter) (text : Text) : HashingBoundedWriter :=
  ⟨writer.sink ++ utf8 text, writer.sizeBytes + (utf8 text).size, writer.hashed ++ utf8 text⟩

theorem extend_extend (writer : HashingBoundedWriter) (first second : Text) :
    (writer.extend first).extend second = writer.extend (first ++ second) := by
  simp only [HashingBoundedWriter.extend, utf8_append, ByteArray.append_assoc, ByteArray.size_append, Nat.add_assoc]

theorem write_ok {writer after : HashingBoundedWriter} {text : Text} (written : writer.write accepts maxBytes text = .ok after) :
    after = writer.extend text := by
  obtain ⟨_, -, rest⟩ := bind_ok.mp written
  obtain ⟨_, taken, made⟩ := bind_ok.mp rest
  have whole : accepts writer.sink (utf8 text) = (utf8 text).size := not_not.mp (raiseIf_ok.mp taken)
  rw [← pure_ok.mp made, whole, ByteArray.extract_zero_size]
  rfl

theorem writeAll_ok {chunks : List Text} {writer after : HashingBoundedWriter}
    (written : writeAll accepts maxBytes chunks writer = .ok after) : after = writer.extend chunks.flatten := by
  induction chunks generalizing writer with
  | nil =>
    have same : writer = after := pure_ok.mp written
    simp [← same, HashingBoundedWriter.extend, utf8_eq]
  | cons _ _ ih =>
    rw [writeAll_cons] at written
    obtain ⟨_, first, later⟩ := bind_ok.mp written
    rw [ih later, write_ok first, extend_extend, List.flatten_cons]

theorem writeAll_total (takes : ∀ sink chunk, accepts sink chunk = chunk.size) {chunks : List Text} {writer : HashingBoundedWriter}
    (fits : ∀ limit ∈ maxBytes, ((writer.extend chunks.flatten).sizeBytes : ℤ) ≤ limit) :
    writeAll accepts maxBytes chunks writer = .ok (writer.extend chunks.flatten) := by
  have runs : ∃ after, writeAll accepts maxBytes chunks writer = .ok after := by
    induction chunks generalizing writer with
    | nil => exact ⟨writer, rfl⟩
    | cons text _ ih =>
      have small : ¬ ∃ limit ∈ maxBytes, limit < ((writer.sizeBytes + (utf8 text).size : ℕ) : ℤ) := by
        rintro ⟨limit, set, _⟩
        have whole := fits limit set
        rw [List.flatten_cons, ← extend_extend] at whole
        simp only [HashingBoundedWriter.extend] at whole
        omega
      have first : writer.write accepts maxBytes text = .ok (writer.extend text) := by
        have takes_all : accepts writer.sink (utf8 text) = (utf8 text).size := takes _ _
        refine bind_ok.mpr ⟨(), raiseIf_ok.mpr (by exact_mod_cast small), bind_ok.mpr ⟨(), raiseIf_ok.mpr ?_, ?_⟩⟩
        · exact not_not.mpr takes_all
        · rw [takes_all, ByteArray.extract_zero_size]
          rfl
      obtain ⟨after, later⟩ := @ih (writer.extend text) fun limit set => by
        rw [extend_extend, ← List.flatten_cons]
        exact fits limit set
      refine ⟨after, ?_⟩
      rw [writeAll_cons, first]
      exact later
  obtain ⟨after, written⟩ := runs
  rw [written, writeAll_ok written]

end Chunks

/-! ## The document -/

structure AvitoAd.Clean (ad : AvitoAd) : Prop where
  fields : ∀ field ∈ ad.fields, ∀ c ∈ field.2, Xml.isChar c = true ∧ c ≠ '\r'
  images : ∀ url ∈ ad.images, ∀ c ∈ url, Xml.isChar c = true

def imagesOutline (urls : List Text) : List Xml.Outline :=
  if urls.isEmpty then []
  else [.mk "Images".toList [] [] (urls.map fun url => .mk "Image".toList [("url".toList, url)] [] [])]

/-- An advertisement in a document: a tag and a text for each field, and the addresses of the photos. -/
def AvitoAd.outline (ad : AvitoAd) : Xml.Outline :=
  .mk "Ad".toList [] [] (ad.fields.map (fun field => .mk field.1.name [] field.2 []) ++ imagesOutline ad.images)

def adsAttributes : Xml.Attributes := [("formatVersion".toList, "3".toList), ("target".toList, "Avito.ru".toList)]

/-- A document with these advertisements in this order and nothing else; an empty one has a line end for its text. -/
def feedOutline (ads : List AvitoAd) : Xml.Outline :=
  .mk "Ads".toList adsAttributes (if ads.isEmpty then ['\n'] else []) (ads.map AvitoAd.outline)

/-- The bytes are one well-formed document, and a reader finds the advertisements in it. -/
def Faithful (payload : ByteArray) (ads : List AvitoAd) : Prop :=
  ∃ root, Xml.readBytes payload = some root ∧ root.outline = [feedOutline ads]

section Element

open Xml

def imageElement (url : Text) : Element := .mk "Image".toList [("url".toList, url)] [] [] []

theorem imagesElement_eq (urls : List Text) :
    imagesElement urls = if urls.isEmpty then [] else [.mk "Images".toList [] [] (urls.map imageElement) []] := rfl

theorem mem_imagesElement {urls : List Text} {e : Element} (mem : e ∈ imagesElement urls) :
    e = .mk "Images".toList [] [] (urls.map imageElement) [] := by
  rw [imagesElement_eq] at mem
  split at mem
  · exact absurd mem List.not_mem_nil
  · exact List.mem_singleton.mp mem

theorem imageElement_named (url : Text) : (imageElement url).Named := by
  refine ⟨by decide, fun pair mem => ?_, List.nodup_singleton _, trivial⟩
  have key : isName "url".toList = true := by decide
  rw [List.mem_singleton.mp mem]
  exact key

variable (ad : AvitoAd)

theorem AvitoAd.element_named : ad.element.Named := by
  refine ⟨by decide, fun pair mem => absurd mem List.not_mem_nil, List.nodup_nil, (allNamed_iff _).mpr fun e mem => ?_⟩
  rcases List.mem_append.mp mem with leaf | images
  · obtain ⟨field, -, rfl⟩ := List.mem_map.mp leaf
    exact ⟨field.1.named, fun pair mem => absurd mem List.not_mem_nil, List.nodup_nil, trivial⟩
  · rw [mem_imagesElement images]
    refine ⟨by decide, fun pair mem => absurd mem List.not_mem_nil, List.nodup_nil, (allNamed_iff _).mpr fun image mem => ?_⟩
    obtain ⟨url, -, rfl⟩ := List.mem_map.mp mem
    exact imageElement_named url

theorem AvitoAd.element_fresh : ad.element.Fresh := by
  refine ⟨fun _ => rfl, (allFresh_iff _).mpr fun e mem => ?_⟩
  rcases List.mem_append.mp mem with leaf | images
  · obtain ⟨_, -, rfl⟩ := List.mem_map.mp leaf
    exact ⟨rfl, fun none => absurd rfl none, trivial⟩
  · rw [mem_imagesElement images]
    refine ⟨rfl, fun _ => rfl, (allFresh_iff _).mpr fun image mem => ?_⟩
    obtain ⟨_, -, rfl⟩ := List.mem_map.mp mem
    exact ⟨rfl, fun none => absurd rfl none, trivial⟩

theorem AvitoAd.element_plain : ad.element.Plain ↔ ∀ field ∈ ad.fields, '\r' ∉ field.2 := by
  have images : ∀ e ∈ imagesElement ad.images, e.Plain := by
    intro e mem
    rw [mem_imagesElement mem]
    refine ⟨List.not_mem_nil, (allPlain_iff _).mpr fun image mem => ?_⟩
    obtain ⟨_, -, rfl⟩ := List.mem_map.mp mem
    exact ⟨List.not_mem_nil, trivial⟩
  have leaf (field : FieldTag × Text) : (Element.leaf field.1.name field.2).Plain ↔ '\r' ∉ field.2 := and_iff_left trivial
  rw [element, Element.Plain, and_iff_right List.not_mem_nil, allPlain_iff]
  constructor
  · intro all field mem
    exact (leaf field).mp (all _ (List.mem_append_left _ (List.mem_map_of_mem mem)))
  · intro all e mem
    rcases List.mem_append.mp mem with text | image
    · obtain ⟨field, field_mem, rfl⟩ := List.mem_map.mp text
      exact (leaf field).mpr (all field field_mem)
    · exact images e image

theorem imagesElement_legal (urls : List Text) : legalAll (imagesElement urls) = urls.all fun url => url.all Xml.isChar := by
  have one : (fun url => (imageElement url).legal && (imageElement url).tail.all Xml.isChar) = fun url => url.all Xml.isChar := by
    funext url
    simp [imageElement, Element.legal, Element.tail, legalAll, -List.all_eq_true]
  rw [imagesElement_eq]
  split
  next none =>
    rw [List.isEmpty_iff.mp none]
    rfl
  next =>
    rw [legalAll, Element.legal, legalAll_eq, List.all_map, Function.comp_def, one]
    simp [legalAll, Element.tail, -List.all_eq_true]

theorem AvitoAd.element_legal :
    ad.element.legal = (ad.fields.all (fun field => field.2.all Xml.isChar) && ad.images.all fun url => url.all Xml.isChar) := by
  have leaf : (fun field : FieldTag × Text => (Element.leaf field.1.name field.2).legal &&
      (Element.leaf field.1.name field.2).tail.all Xml.isChar) = fun field => field.2.all Xml.isChar := by
    funext field
    simp [Element.leaf, Element.legal, Element.tail, legalAll, -List.all_eq_true]
  rw [element, Element.legal, legalAll_eq, List.all_append, ← legalAll_eq (imagesElement ad.images), imagesElement_legal,
    List.all_map, Function.comp_def, leaf]
  rfl

theorem AvitoAd.clean_iff : ad.Clean ↔ ad.element.legal = true ∧ ad.element.Plain := by
  rw [element_legal, element_plain, Bool.and_eq_true, List.all_eq_true, List.all_eq_true]
  constructor
  · intro clean
    refine ⟨⟨fun field mem => List.all_eq_true.mpr fun c inside => (clean.fields field mem c inside).1,
      fun url mem => List.all_eq_true.mpr (clean.images url mem)⟩, fun field mem cr => (clean.fields field mem _ cr).2 rfl⟩
  · rintro ⟨⟨fields, images⟩, plain⟩
    refine ⟨fun field mem c inside => ⟨List.all_eq_true.mp (fields field mem) c inside, ?_⟩,
      fun url mem => List.all_eq_true.mp (images url mem)⟩
    exact fun cr => plain field mem (cr ▸ inside)

theorem AvitoAd.element_outline : ad.element.outline = ad.outline := by
  have image : (fun url => (imageElement url).outline) = fun url => .mk "Image".toList [("url".toList, url)] [] [] := by
    funext url
    rfl
  have images : outlineAll (imagesElement ad.images) = imagesOutline ad.images := by
    rw [imagesElement_eq, imagesOutline]
    split
    · rfl
    · have fresh : AllFresh (ad.images.map imageElement) := by
        refine (allFresh_iff _).mpr fun e mem => ?_
        obtain ⟨url, -, rfl⟩ := List.mem_map.mp mem
        exact ⟨rfl, fun none => absurd rfl none, trivial⟩
      rw [outlineAll, Element.outline, tails_fresh _ fresh, outlineAll_eq, List.map_map, Function.comp_def, image]
      cases ad.images <;> rfl
  have leaf : (fun field : FieldTag × Text => (Element.leaf field.1.name field.2).outline) =
      fun field => .mk field.1.name [] field.2 [] := by
    funext field
    simp [Element.leaf, Element.outline, ownText, tails, outlineAll]
  have inner := ad.element_fresh.2
  rw [outline, element, Element.outline, tails_fresh _ inner, outlineAll_eq, List.map_append, ← outlineAll_eq (imagesElement _),
    images, List.map_map, Function.comp_def, leaf]
  congr 1
  cases (ad.fields.map (fun field => Element.leaf field.1.name field.2) ++ imagesElement ad.images).isEmpty <;> rfl

end Element

section Reading

open Xml Xml.Reader

def AvitoAd.indented (ad : AvitoAd) : Element := ad.element.indent Url.isSpace [' ', ' '] 1

theorem AvitoAd.text_eq (ad : AvitoAd) : ad.text = ad.indented.markup := by
  have tail : ad.indented.tail = [] := indent_tail 1 ad.element
  rw [text, Element.tostring, ← indented, tail]
  exact List.append_nil _

def bodyText (es : List Element) : Text := es.flatMap fun e => ' ' :: ' ' :: (e.markup ++ ['\n'])

def bodyNodes (es : List Element) : List Node := es.flatMap fun e => [.char ' ', .char ' ', e.node, .char '\n']

theorem feedChunks_flatten (ads : List AvitoAd) :
    (feedChunks ads).flatten = xmlHeader ++ (adsStart ++ (bodyText (ads.map AvitoAd.indented) ++ adsEnd)) := by
  have body : (ads.flatMap adChunks).flatten = bodyText (ads.map AvitoAd.indented) := by
    induction ads with
    | nil => rfl
    | cons ad _ ih =>
      rw [List.flatMap_cons, List.flatten_append, ih, adChunks, ad.text_eq, List.map_cons, bodyText, bodyText, List.flatMap_cons]
      simp
  rw [feedChunks, List.flatten_cons, List.flatten_cons, List.flatten_append, body, List.flatten_singleton]

theorem bodyText_legal (es : List Element) (named : ∀ e ∈ es, e.Named) : (bodyText es).all isChar = es.all Element.legal := by
  have space : isChar ' ' = true ∧ isChar '\n' = true := by decide
  induction es with
  | nil => rfl
  | cons e _ ih =>
    have later := ih fun other mem => named other (List.mem_cons_of_mem _ mem)
    rw [bodyText] at later
    rw [bodyText, List.flatMap_cons, List.all_append, later, List.all_cons, List.all_cons, List.all_append,
      markup_legal e (named e List.mem_cons_self)]
    simp [space]

theorem normalize_bodyText (es : List Element) (named : ∀ e ∈ es, e.Named) (rest : Text) :
    normalizeLineEnds (bodyText es ++ rest) = bodyText (es.map Element.normalized) ++ normalizeLineEnds rest := by
  induction es with
  | nil => rfl
  | cons e others ih =>
    have later := ih fun other mem => named other (List.mem_cons_of_mem _ mem)
    rw [bodyText] at later
    have shape : bodyText (e :: others) ++ rest = ' ' :: ' ' :: (e.markup ++ '\n' :: (bodyText others ++ rest)) := by
      simp [bodyText, List.append_assoc]
    rw [shape, normalize_cons (by decide), normalize_cons (by decide), normalize_markup e (named e List.mem_cons_self),
      normalize_cons (by decide), bodyText, later, List.map_cons]
    simp [bodyText, List.append_assoc]

theorem feed_bodyText (es : List Element) (named : ∀ e ∈ es, e.Named) (frame : Frame) (brackets : ℕ) :
    ∃ after, feed ⟨.content brackets, [frame], none⟩ (bodyText es) =
      some ⟨.content after, [frame.add (bodyNodes es)], none⟩ := by
  induction es generalizing frame brackets with
  | nil => exact ⟨brackets, by simp [bodyText, bodyNodes]⟩
  | cons e rest ih =>
    obtain ⟨first, element⟩ := @feed_markup none e (named e List.mem_cons_self)
      (frame.add [.char ' ', .char ' ']) [] 0
    obtain ⟨after, later⟩ := ih (fun other mem => named other (List.mem_cons_of_mem _ mem))
      (((frame.add [.char ' ', .char ' ']).add [e.node]).add [.char '\n']) 0
    have spaces : feed ⟨.content brackets, [frame], none⟩ [' ', ' '] =
        some ⟨.content 0, [frame.add [.char ' ', .char ' ']], none⟩ := by
      simp [step, addChar]
    have line : feed ⟨.content first, [(frame.add [.char ' ', .char ' ']).add [e.node]], none⟩ ['\n'] =
        some ⟨.content 0, [((frame.add [.char ' ', .char ' ']).add [e.node]).add [.char '\n']], none⟩ := by
      simp [step, addChar]
    have shape : bodyText (e :: rest) = [' ', ' '] ++ (e.markup ++ (['\n'] ++ bodyText rest)) := by
      simp [bodyText]
    refine ⟨after, ?_⟩
    rw [shape, feed_append, spaces, Option.bind_some, feed_append, element, Option.bind_some, feed_append, line,
      Option.bind_some, later]
    simp [bodyNodes]

theorem outlines_bodyNodes (es : List Element) : outlines (bodyNodes es) = es.map Element.outline := by
  induction es with
  | nil => rfl
  | cons _ _ ih =>
    rw [bodyNodes, List.flatMap_cons, outlines_append, ← bodyNodes, ih, List.map_cons]
    simp [outlines, Node.outline, node_outline]

theorem chars_bodyNodes (es : List Element) : (chars (bodyNodes es)).all Xml.isSpace = true := by
  have space : Xml.isSpace ' ' = true ∧ Xml.isSpace '\n' = true := by decide
  induction es with
  | nil => rfl
  | cons e _ ih =>
    have element : chars [.char ' ', .char ' ', e.node, .char '\n'] = [' ', ' ', '\n'] := by
      cases e
      rfl
    rw [bodyNodes, List.flatMap_cons, chars_append, ← bodyNodes, element, List.all_append, ih]
    simp [space]

def adsFrame : Frame := ⟨"Ads".toList, adsAttributes, [.char '\n']⟩

set_option maxRecDepth 4000 in
theorem feed_head : feed ⟨.begin, [], none⟩ (xmlHeader ++ adsStart) = some ⟨.content 0, [adsFrame], none⟩ := by
  rfl

theorem feed_tail (nodes : List Node) (brackets : ℕ) :
    feed ⟨.content brackets, [adsFrame.add nodes], none⟩ adsEnd = some ⟨.outside, [], some (adsFrame.add nodes).node⟩ := by
  rfl

theorem AvitoAd.indented_named (ad : AvitoAd) : ad.indented.Named := (named_indent 1 ad.element).mpr ad.element_named

theorem readBytes_feed (ads : List AvitoAd) :
    readBytes (utf8 (feedChunks ads).flatten) =
      if ads.all (fun ad => ad.element.legal) then
        some (adsFrame.add (bodyNodes (ads.map fun ad => ad.indented.normalized))).node
      else none := by
  have indented : ∀ e ∈ ads.map AvitoAd.indented, e.Named := by
    intro e mem
    obtain ⟨ad, -, rfl⟩ := List.mem_map.mp mem
    exact ad.indented_named
  have normalized : ∀ e ∈ ads.map (fun ad => ad.indented.normalized), e.Named := by
    intro e mem
    obtain ⟨ad, -, rfl⟩ := List.mem_map.mp mem
    exact (named_normalized _).mpr ad.indented_named
  have legal : (feedChunks ads).flatten.all isChar = ads.all fun ad => ad.element.legal := by
    have same : (Element.legal ∘ AvitoAd.indented) = fun ad => ad.element.legal := by
      funext ad
      exact legal_indent (by decide) 1 ad.element ad.element_fresh
    have header : xmlHeader.all isChar = true := by decide +kernel
    have start : adsStart.all isChar = true := by decide +kernel
    have ending : adsEnd.all isChar = true := by decide +kernel
    rw [feedChunks_flatten, List.all_append, List.all_append, List.all_append, header, start, ending,
      bodyText_legal _ indented, List.all_map, same, Bool.and_true]
    rfl
  have lines : normalizeLineEnds (feedChunks ads).flatten =
      xmlHeader ++ adsStart ++ (bodyText (ads.map fun ad => ad.indented.normalized) ++ adsEnd) := by
    have header : '\r' ∉ xmlHeader ++ adsStart := by decide +kernel
    have ending : normalizeLineEnds adsEnd = adsEnd := normalize_of_plain (by decide +kernel)
    rw [feedChunks_flatten, ← List.append_assoc, normalize_append header, normalize_bodyText _ indented, ending, List.map_map]
    rfl
  obtain ⟨_, body⟩ := feed_bodyText _ normalized adsFrame 0
  have reads : feed ⟨.begin, [], none⟩ (normalizeLineEnds (feedChunks ads).flatten) =
      some ⟨.outside, [], some (adsFrame.add (bodyNodes (ads.map fun ad => ad.indented.normalized))).node⟩ := by
    rw [lines, feed_append, feed_head, Option.bind_some, feed_append, body, Option.bind_some, feed_tail]
  rw [readBytes, utf8_eq, List.utf8Decode?_utf8Encode, Option.bind_some, readDocument, legal, reads]
  rfl

theorem root_outline (ads : List AvitoAd) :
    (adsFrame.add (bodyNodes (ads.map fun ad => ad.indented.normalized))).node.outline =
      [.mk "Ads".toList adsAttributes (if ads.isEmpty then ['\n'] else [])
        (ads.map fun ad => ad.element.normalized.outline)] := by
  have each : (Element.outline ∘ fun ad : AvitoAd => ad.indented.normalized) = fun ad => ad.element.normalized.outline := by
    funext ad
    have kept : ad.indented.normalized = ad.element.normalized.indent Url.isSpace [' ', ' '] 1 :=
      normalized_indent (by decide) 1 ad.element ad.element_fresh
    rw [Function.comp_apply, kept, outline_indent (by decide) 1 _ (fresh_normalized _ ad.element_fresh)]
  have inner : outlines (adsFrame.add (bodyNodes (ads.map fun ad => ad.indented.normalized))).content =
      ads.map fun ad => ad.element.normalized.outline := by
    rw [Frame.add, outlines_append, outlines_bodyNodes, List.map_map, each]
    rfl
  have white : (chars (adsFrame.add (bodyNodes (ads.map fun ad => ad.indented.normalized))).content).all Xml.isSpace = true := by
    rw [Frame.add, chars_append, List.all_append, chars_bodyNodes]
    rfl
  rw [Frame.node, Node.outline, inner]
  cases ads with
  | nil => rfl
  | cons =>
    have text := ownText_blank white
    simp only [List.map_cons, List.isEmpty_cons] at text ⊢
    rw [text]
    rfl

theorem faithful_iff (ads : List AvitoAd) : Faithful (utf8 (feedChunks ads).flatten) ads ↔ ∀ ad ∈ ads, ad.Clean := by
  have outlined : (ads.map (fun ad => ad.element.normalized.outline) = ads.map AvitoAd.outline) ↔
      ∀ ad ∈ ads, ad.element.Plain := by
    rw [List.map_inj_left]
    refine forall₂_congr fun ad _ => ?_
    rw [← ad.element_outline]
    exact outline_normalized ad.element ad.element_fresh
  rw [Faithful, readBytes_feed]
  constructor
  · rintro ⟨_, read, outline⟩
    split at read
    next legal =>
      rw [← Option.some.inj read, root_outline, feedOutline, List.singleton_inj, Outline.mk.injEq] at outline
      have plain := outlined.mp outline.2.2.2
      intro ad mem
      exact ad.clean_iff.mpr ⟨List.all_eq_true.mp legal ad mem, plain ad mem⟩
    next => cases read
  · intro clean
    have legal : ads.all (fun ad => ad.element.legal) = true :=
      List.all_eq_true.mpr fun ad mem => (ad.clean_iff.mp (clean ad mem)).1
    have plain : ∀ ad ∈ ads, ad.element.Plain := fun ad mem => (ad.clean_iff.mp (clean ad mem)).2
    refine ⟨_, if_pos legal, ?_⟩
    rw [root_outline, outlined.mpr plain]
    rfl

end Reading

/-! ## Feeds -/

def feedPayload (settings : FeedSettings) (db : FeedDatabase) (listings : List Listing) : ByteArray :=
  utf8 (feedChunks (listings.map (resolvedAd settings db))).flatten

/-- What `write_feed` does with these listings, whatever the sink, the ceiling and the size of a batch. -/
structure FeedDocument (settings : FeedSettings) (db : FeedDatabase) (listings : List Listing) (payload : ByteArray) : Prop where
  exactResult : ∀ accepts maxBytes sha256 batchSize sink result after,
    writeFeed accepts maxBytes settings db sha256 batchSize listings sink = .ok (result, after) →
      after = sink ++ payload ∧ result = ⟨listings.length, payload.size, sha256 payload⟩
  complete : ∀ accepts maxBytes sha256 batchSize sink, (∀ held chunk, accepts held chunk = chunk.size) →
    (∀ limit ∈ maxBytes, 1 ≤ limit ∧ (payload.size : ℤ) ≤ limit) →
      writeFeed accepts maxBytes settings db sha256 batchSize listings sink =
        .ok (⟨listings.length, payload.size, sha256 payload⟩, sink ++ payload)
  keyed : ∀ listing ∈ listings, (resolvedAd settings db listing).fields.head?.map (fun field => (field.1.name, field.2)) =
    some ("Id".toList, listing.publishIdempotencyKey.str)
  faithful : Faithful payload (listings.map (resolvedAd settings db)) ↔
    ∀ listing ∈ listings, (resolvedAd settings db listing).Clean

section Feeds

variable {accepts : Accepts} {maxBytes : Option ℤ} {settings : FeedSettings} {db : FeedDatabase} {listings : List Listing}
  {sink : ByteArray}

theorem writeFeed_ok {sha256 : ByteArray → ByteArray} {batchSize : ℕ} {result : FeedWriteResult} {after : ByteArray}
    (written : writeFeed accepts maxBytes settings db sha256 batchSize listings sink = .ok (result, after)) :
    after = sink ++ feedPayload settings db listings ∧
      result = ⟨listings.length, (feedPayload settings db listings).size, sha256 (feedPayload settings db listings)⟩ := by
  rw [writeFeed_eq] at written
  obtain ⟨_, -, rest⟩ := bind_ok.mp written
  obtain ⟨_, wrote, made⟩ := bind_ok.mp rest
  obtain ⟨rfl, rfl⟩ := Prod.mk.inj (pure_ok.mp made)
  rw [writeAll_ok wrote]
  simp [HashingBoundedWriter.extend, feedPayload]

theorem writeFeed_total (sha256 : ByteArray → ByteArray) (batchSize : ℕ) (takes : ∀ held chunk, accepts held chunk = chunk.size)
    (fits : ∀ limit ∈ maxBytes, 1 ≤ limit ∧ ((feedPayload settings db listings).size : ℤ) ≤ limit) :
    writeFeed accepts maxBytes settings db sha256 batchSize listings sink =
      .ok (⟨listings.length, (feedPayload settings db listings).size, sha256 (feedPayload settings db listings)⟩,
        sink ++ feedPayload settings db listings) := by
  have positive : ¬ ∃ limit ∈ maxBytes, limit < 1 := by
    rintro ⟨limit, set, small⟩
    exact absurd small (not_lt.mpr (fits limit set).1)
  have writes : writeAll accepts maxBytes (feedChunks (listings.map (resolvedAd settings db))) ⟨sink, 0, ByteArray.empty⟩ =
      .ok (HashingBoundedWriter.extend ⟨sink, 0, ByteArray.empty⟩ (feedChunks (listings.map (resolvedAd settings db))).flatten) := by
    refine writeAll_total takes fun limit set => ?_
    simpa [HashingBoundedWriter.extend, feedPayload] using (fits limit set).2
  rw [writeFeed_eq]
  refine bind_ok.mpr ⟨(), raiseIf_ok.mpr positive, bind_ok.mpr ⟨_, writes, pure_ok.mpr ?_⟩⟩
  simp [HashingBoundedWriter.extend, feedPayload]

end Feeds

theorem feed_documents (settings : FeedSettings) (db : FeedDatabase) (listings : List Listing) :
    FeedDocument settings db listings (feedPayload settings db listings) where
  exactResult _ _ _ _ _ _ _ written := writeFeed_ok written
  complete _ _ sha256 batchSize _ takes fits := writeFeed_total sha256 batchSize takes fits
  keyed _ _ := rfl
  faithful := by
    rw [feedPayload, faithful_iff]
    exact List.forall_mem_map

def bareSettings : FeedSettings where
  ycCdnDomain := []
  isS3 := false
  storageUrl := id
  taxonomy := ⟨[], [], []⟩
  brands := []
  normalizeBrandName := id

def bareDatabase : FeedDatabase where
  categoryMappings := []
  categories := []
  addresses := []
  images := []
  mappingKeys := List.nodup_nil
  categoryKeys := List.nodup_nil
  addressKeys := List.nodup_nil
  rooted := fun _ mem => absurd mem List.not_mem_nil

def titledListing (title : Text) : Listing where
  tenant := 1
  product := ⟨1, [], [], [], [], [], [], none⟩
  account := ⟨1, [], [], [], [], []⟩
  title
  descriptionAi := []
  priceOnListing := 0
  publishIdempotencyKey := 0
  adType := []
  placementAddress := none
  bulkPlacementAddress := none
  addressOverride := []
  sellerAddressIdOverride := []
  managerNameOverride := []
  contactPhoneOverride := []
  bulkAddress := []
  bulkSellerAddressId := []
  bulkManagerName := []
  bulkContactPhone := []

/-- A start-of-heading character in one title makes the document of the whole account unreadable. -/
theorem control_character_breaks_feed :
    ∃ result payload, writeFeed (fun _ chunk => chunk.size) none bareSettings bareDatabase id feedBuildBatchSize
        [titledListing ['A', Char.ofNat 1, 'B'], titledListing ['A', 'B']] ByteArray.empty = .ok (result, payload) ∧
      Xml.readBytes payload = none := by
  refine ⟨_, _, writeFeed_total id feedBuildBatchSize (fun _ _ => rfl) (fun _ none => by cases none), ?_⟩
  have illegal : ([titledListing ['A', Char.ofNat 1, 'B'], titledListing ['A', 'B']].map
      (resolvedAd bareSettings bareDatabase)).all (fun ad => ad.element.legal) = false := by decide +kernel
  rw [ByteArray.empty_append, feedPayload, readBytes_feed, illegal]
  rfl

end MapBackend.Marketplaces.Avito
