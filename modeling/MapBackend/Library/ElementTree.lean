import MapBackend.Library.Xml

/-!
Elements as `xml.etree.ElementTree` keeps, indents and writes them.
-/

namespace MapBackend.Library.Xml

inductive Element where
  | mk (tag : List Char) (attrib : Attributes) (text : List Char) (children : List Element) (tail : List Char)

namespace Element

def tag : Element → List Char
  | mk tag _ _ _ _ => tag

def tail : Element → List Char
  | mk _ _ _ _ tail => tail

def setTail : Element → List Char → Element
  | mk tag attrib text children _, tail => mk tag attrib text children tail

def leaf (tag text : List Char) : Element := mk tag [] text [] []

end Element

def escapeCdataChar (c : Char) : List Char :=
  if c = '&' then ['&', 'a', 'm', 'p', ';']
  else if c = '<' then ['&', 'l', 't', ';']
  else if c = '>' then ['&', 'g', 't', ';']
  else [c]

def escapeCdata (text : List Char) : List Char := text.flatMap escapeCdataChar

def escapeAttribChar (c : Char) : List Char :=
  if c = '"' then ['&', 'q', 'u', 'o', 't', ';']
  else if c = '\r' then ['&', '#', '1', '3', ';']
  else if c = '\n' then ['&', '#', '1', '0', ';']
  else if c = '\t' then ['&', '#', '0', '9', ';']
  else escapeCdataChar c

/-- `_escape_attrib`: line breaks and tabs are written as character references too. -/
def escapeAttrib (text : List Char) : List Char := text.flatMap escapeAttribChar

def writeAttribute (pair : List Char × List Char) : List Char :=
  ' ' :: (pair.1 ++ '=' :: '"' :: (escapeAttrib pair.2 ++ ['"']))

mutual

/-- `_serialize_xml`, up to the tail of the element. -/
def Element.markup : Element → List Char
  | .mk tag attrib text children _ =>
    '<' :: (tag ++ (attrib.flatMap writeAttribute ++
      if text.isEmpty && children.isEmpty then [' ', '/', '>']
      else '>' :: (escapeCdata text ++ (markupAll children ++ '<' :: '/' :: (tag ++ ['>'])))))

def markupAll : List Element → List Char
  | [] => []
  | child :: rest => child.markup ++ (escapeCdata child.tail ++ markupAll rest)

end

/-- `tostring` with the encoding of the reader: no declaration is written. -/
def Element.tostring (e : Element) : List Char := e.markup ++ escapeCdata e.tail

section Indent

variable (white : Char → Bool) (space : List Char)

def newline (level : ℕ) : List Char := '\n' :: (List.replicate level space).flatten

def fill (text indentation : List Char) : List Char := if text.all white then indentation else text

mutual

/-- `_indent_children`, on an element that has children. -/
def Element.indent : ℕ → Element → Element
  | _, .mk tag attrib text [] tail => .mk tag attrib text [] tail
  | level, .mk tag attrib text (child :: rest) tail =>
    .mk tag attrib (fill white text (newline space (level + 1))) (indentAll level (child :: rest)) tail

def indentAll : ℕ → List Element → List Element
  | _, [] => []
  | level, child :: rest =>
    (child.indent (level + 1)).setTail
      (fill white child.tail (newline space (if rest.isEmpty then level else level + 1))) :: indentAll level rest

end

end Indent

/-! ## What a reader finds -/

mutual

def Element.node : Element → Node
  | .mk tag attrib text children _ => .element tag attrib (text.map .char ++ contents children)

def contents : List Element → List Node
  | [] => []
  | child :: rest => child.node :: (child.tail.map .char ++ contents rest)

end

mutual

def Element.Named : Element → Prop
  | .mk tag attrib _ children _ =>
    isName tag = true ∧ (∀ pair ∈ attrib, isName pair.1 = true) ∧ (attrib.map Prod.fst).Nodup ∧ AllNamed children

def AllNamed : List Element → Prop
  | [] => True
  | child :: rest => child.Named ∧ AllNamed rest

end

mutual

def Element.legal : Element → Bool
  | .mk _ attrib text children _ => attrib.all (fun pair => pair.2.all isChar) && text.all isChar && legalAll children

def legalAll : List Element → Bool
  | [] => true
  | child :: rest => child.legal && child.tail.all isChar && legalAll rest

end

mutual

def Element.normalized : Element → Element
  | .mk tag attrib text children tail =>
    .mk tag attrib (normalizeLineEnds text) (normalizedAll children) (normalizeLineEnds tail)

def normalizedAll : List Element → List Element
  | [] => []
  | child :: rest => child.normalized :: normalizedAll rest

end

/-! ## Reading what is written -/

section Reading

open Reader

variable {frames : List Frame} {root : Option Node} {frame : Frame}

@[simp] theorem Frame.add_nil : frame.add [] = frame := by
  cases frame
  simp [Frame.add]

@[simp] theorem Frame.add_add (first second : List Node) : (frame.add first).add second = frame.add (first ++ second) := by
  simp [Frame.add, List.append_assoc]

theorem feed_cdataChar (brackets : ℕ) (c : Char) :
    ∃ after, feed ⟨.content brackets, frame :: frames, root⟩ (escapeCdataChar c) =
      some ⟨.content after, frame.add [.char c] :: frames, root⟩ := by
  by_cases amp : c = '&'
  · subst amp
    exact ⟨0, rfl⟩
  by_cases lt : c = '<'
  · subst lt
    exact ⟨0, rfl⟩
  by_cases gt : c = '>'
  · subst gt
    exact ⟨0, rfl⟩
  refine ⟨if c = ']' then brackets + 1 else 0, ?_⟩
  simp [escapeCdataChar, amp, lt, gt, step, addChar]

theorem feed_cdata (text : List Char) (brackets : ℕ) :
    ∃ after, feed ⟨.content brackets, frame :: frames, root⟩ (escapeCdata text) =
      some ⟨.content after, frame.add (text.map .char) :: frames, root⟩ := by
  induction text generalizing brackets frame with
  | nil => exact ⟨brackets, by simp [escapeCdata]⟩
  | cons c _ ih =>
    obtain ⟨between, first⟩ := @feed_cdataChar frames root frame brackets c
    obtain ⟨after, later⟩ := @ih (frame.add [.char c]) between
    refine ⟨after, ?_⟩
    rw [escapeCdata, List.flatMap_cons, feed_append, first]
    simpa [escapeCdata] using later

theorem isSpace_cases {c : Char} (space : isSpace c = true) : c = ' ' ∨ c = '\t' ∨ c = '\n' ∨ c = '\r' := by
  simp only [isSpace, within, List.any_cons, List.any_nil, Bool.or_false, Bool.or_eq_true, Bool.and_eq_true,
    decide_eq_true_eq] at space
  have number : c.toNat = 32 ∨ c.toNat = 9 ∨ c.toNat = 10 ∨ c.toNat = 13 := by omega
  rcases number with sp | tab | lf | cr
  · exact .inl (Char.toNat_inj.mp sp)
  · exact .inr (.inl (Char.toNat_inj.mp tab))
  · exact .inr (.inr (.inl (Char.toNat_inj.mp lf)))
  · exact .inr (.inr (.inr (Char.toNat_inj.mp cr)))

theorem not_isSpace {c : Char} (start : isNameStartChar c = true) : isSpace c = false := by
  by_contra space
  rcases isSpace_cases (by simpa using space) with rfl | rfl | rfl | rfl
  all_goals exact absurd start (by decide)

theorem feed_collect {mode : List Char → Mode} {legal : Char → Prop}
    (collects : ∀ read c, legal c → step ⟨mode read, frames, root⟩ c = some ⟨mode (read ++ [c]), frames, root⟩)
    (text : List Char) (all : ∀ c ∈ text, legal c) (read : List Char) :
    feed ⟨mode read, frames, root⟩ text = some ⟨mode (read ++ text), frames, root⟩ := by
  induction text generalizing read with
  | nil => simp
  | cons c _ ih =>
    rw [feed_cons, collects read c (all c List.mem_cons_self)]
    simpa using ih (fun c mem => all c (List.mem_cons_of_mem _ mem)) (read ++ [c])

theorem feed_reference {tag : Tag} (plain : tag.declaration = false) {key read : List Char} (reference : List Char) {c : Char}
    (ends : ';' ∉ reference) (resolves : resolve reference = some c) :
    feed ⟨.value tag key '"' read, frames, root⟩ ('&' :: (reference ++ [';'])) =
      some ⟨.value tag key '"' (read ++ [c]), frames, root⟩ := by
  have collected := @feed_collect frames root (.valueReference tag key '"' read) _
    (fun before c (other : c ≠ ';') => by simp [step, other]) reference (fun c mem same => ends (same ▸ mem)) []
  simp only [List.nil_append] at collected
  simp [step, plain, feed_append, collected, resolves]

theorem feed_attribChar {tag : Tag} (plain : tag.declaration = false) {key read : List Char} (c : Char) :
    feed ⟨.value tag key '"' read, frames, root⟩ (escapeAttribChar c) =
      some ⟨.value tag key '"' (read ++ [c]), frames, root⟩ := by
  by_cases quot : c = '"'
  · subst quot
    exact feed_reference plain ['q', 'u', 'o', 't'] (by decide) rfl
  by_cases cr : c = '\r'
  · subst cr
    exact feed_reference plain ['#', '1', '3'] (by decide) (by decide)
  by_cases lf : c = '\n'
  · subst lf
    exact feed_reference plain ['#', '1', '0'] (by decide) (by decide)
  by_cases tab : c = '\t'
  · subst tab
    exact feed_reference plain ['#', '0', '9'] (by decide) (by decide)
  by_cases amp : c = '&'
  · subst amp
    exact feed_reference plain ['a', 'm', 'p'] (by decide) rfl
  by_cases lt : c = '<'
  · subst lt
    exact feed_reference plain ['l', 't'] (by decide) rfl
  by_cases gt : c = '>'
  · subst gt
    exact feed_reference plain ['g', 't'] (by decide) rfl
  have kept : (if isSpace c then ' ' else c) = c := by
    by_cases space : isSpace c = true
    · have blank : c = ' ' := by simpa [cr, lf, tab] using isSpace_cases space
      rw [if_pos space, blank]
    · rw [if_neg space]
  simp [escapeAttribChar, escapeCdataChar, step, quot, cr, lf, tab, amp, lt, gt, kept]

theorem feed_attrib {tag : Tag} (plain : tag.declaration = false) {key : List Char} (text read : List Char) :
    feed ⟨.value tag key '"' read, frames, root⟩ (escapeAttrib text) =
      some ⟨.value tag key '"' (read ++ text), frames, root⟩ := by
  induction text generalizing read with
  | nil => simp [escapeAttrib]
  | cons c _ ih =>
    rw [escapeAttrib, List.flatMap_cons, feed_append, feed_attribChar plain]
    simpa [escapeAttrib] using ih (read ++ [c])

theorem feed_name {tag : Tag} (text : List Char) (legal : text.all isNameChar = true) :
    feed ⟨.name tag, frames, root⟩ text = some ⟨.name { tag with name := tag.name ++ text }, frames, root⟩ :=
  @feed_collect _ _ (fun read => .name { tag with name := read }) _
    (fun read c (good : isNameChar c = true) => by simp [step, good]) text (List.all_eq_true.mp legal) tag.name

theorem feed_key {tag : Tag} {key : List Char} (text : List Char) (legal : text.all isNameChar = true) :
    feed ⟨.attribute tag key, frames, root⟩ text = some ⟨.attribute tag (key ++ text), frames, root⟩ :=
  feed_collect (fun read c (good : isNameChar c = true) => by simp [step, good]) text (List.all_eq_true.mp legal) key

theorem feed_endName {name : List Char} (text : List Char) (legal : text.all isNameChar = true) :
    feed ⟨.endName name, frames, root⟩ text = some ⟨.endName (name ++ text), frames, root⟩ :=
  feed_collect (fun read c (good : isNameChar c = true) => by simp [step, good]) text (List.all_eq_true.mp legal) name

theorem isName_all {name : List Char} (named : isName name = true) : name.all isNameChar = true := by
  cases name with
  | nil => rfl
  | cons =>
    obtain ⟨first, later⟩ := Bool.and_eq_true_iff.mp named
    rw [List.all_cons, later, isNameChar, first]
    rfl

def InTag (tag : Tag) (mode : Mode) : Prop := mode = .name tag ∨ mode = .valued tag

theorem InTag.space {tag : Tag} {mode : Mode} (inTag : InTag tag mode) :
    step ⟨mode, frames, root⟩ ' ' = some ⟨.space tag, frames, root⟩ := by
  rcases inTag with rfl | rfl <;> rfl

theorem InTag.start {tag : Tag} {mode : Mode} (inTag : InTag tag mode) (plain : tag.declaration = false) :
    step ⟨mode, frames, root⟩ '>' = some ⟨.content 0, ⟨tag.name, tag.attributes, []⟩ :: frames, root⟩ := by
  have ends : tagEnd ⟨mode, frames, root⟩ tag '>' = some ⟨.content 0, ⟨tag.name, tag.attributes, []⟩ :: frames, root⟩ :=
    if_pos ⟨rfl, plain⟩
  rcases inTag with rfl | rfl <;> exact ends

theorem InTag.empty {tag : Tag} {mode : Mode} (inTag : InTag tag mode) (plain : tag.declaration = false) :
    feed ⟨mode, frame :: frames, root⟩ [' ', '/', '>'] =
      some ⟨.content 0, frame.add [.element tag.name tag.attributes []] :: frames, root⟩ := by
  have slash : step ⟨.space tag, frame :: frames, root⟩ '/' = some ⟨.closing tag, frame :: frames, root⟩ := by
    have ends : tagEnd ⟨.space tag, frame :: frames, root⟩ tag '/' = some ⟨.closing tag, frame :: frames, root⟩ := by
      simp [tagEnd, plain]
    exact ends
  have closes : step ⟨.closing tag, frame :: frames, root⟩ '>' =
      some ⟨.content 0, frame.add [.element tag.name tag.attributes []] :: frames, root⟩ := by
    simp [step, closeTag, plain, addNode]
  rw [feed_cons, inTag.space, Option.bind_some, feed_cons, slash, Option.bind_some, feed_cons, closes]
  rfl

theorem feed_attribute {tag : Tag} {mode : Mode} (inTag : InTag tag mode) (plain : tag.declaration = false)
    {key : List Char} (named : isName key = true) (fresh : tag.attributes.all (·.1 != key) = true) (value : List Char) :
    feed ⟨mode, frames, root⟩ (writeAttribute (key, value)) =
      some ⟨.valued { tag with attributes := tag.attributes ++ [(key, value)] }, frames, root⟩ := by
  cases key with
  | nil => exact absurd named (by decide)
  | cons c rest =>
    obtain ⟨first, later⟩ := Bool.and_eq_true_iff.mp named
    have opens : step ⟨.space tag, frames, root⟩ c = some ⟨.attribute tag [c], frames, root⟩ := by
      simp [step, not_isSpace first, first]
    have equals : step ⟨.attribute tag (c :: rest), frames, root⟩ '=' = some ⟨.quote tag (c :: rest), frames, root⟩ := rfl
    have quotes : step ⟨.quote tag (c :: rest), frames, root⟩ '"' = some ⟨.value tag (c :: rest) '"' [], frames, root⟩ := by
      have space : isSpace '"' = false := by decide
      simp only [step, space, fresh]
      rfl
    have ends : step ⟨.value tag (c :: rest) '"' value, frames, root⟩ '"' =
        some ⟨.valued { tag with attributes := tag.attributes ++ [(c :: rest, value)] }, frames, root⟩ := rfl
    rw [writeAttribute, feed_cons, inTag.space, Option.bind_some, List.cons_append, feed_cons, opens, Option.bind_some,
      feed_append, feed_key rest later, Option.bind_some, List.singleton_append, feed_cons, equals, Option.bind_some,
      feed_cons, quotes, Option.bind_some, feed_append, feed_attrib plain, Option.bind_some, List.nil_append, feed_cons,
      ends]
    rfl

theorem feed_attributes {tag : Tag} {mode : Mode} (inTag : InTag tag mode) (plain : tag.declaration = false)
    (attrib : Attributes) (named : ∀ pair ∈ attrib, isName pair.1 = true)
    (distinct : ((tag.attributes ++ attrib).map Prod.fst).Nodup) :
    ∃ after, InTag { tag with attributes := tag.attributes ++ attrib } after ∧
      feed ⟨mode, frames, root⟩ (attrib.flatMap writeAttribute) = some ⟨after, frames, root⟩ := by
  induction attrib generalizing tag mode with
  | nil => exact ⟨mode, by simpa using inTag, rfl⟩
  | cons pair _ ih =>
    have fresh : tag.attributes.all (·.1 != pair.1) = true := by
      rw [List.map_append, List.nodup_append] at distinct
      refine List.all_eq_true.mpr fun other mem => bne_iff_ne.mpr ?_
      exact distinct.2.2 _ (List.mem_map_of_mem mem) _ List.mem_cons_self
    have first := @feed_attribute frames root tag mode inTag plain pair.1 (named pair List.mem_cons_self) fresh pair.2
    obtain ⟨after, inside, later⟩ := @ih { tag with attributes := tag.attributes ++ [pair] } _ (.inr rfl) plain
      (fun other mem => named other (List.mem_cons_of_mem _ mem)) (by simpa using distinct)
    refine ⟨after, by simpa using inside, ?_⟩
    rw [List.flatMap_cons, feed_append, first]
    exact later

theorem feed_startTag {tag : List Char} (named : isName tag = true) (attrib : Attributes)
    (names : ∀ pair ∈ attrib, isName pair.1 = true) (distinct : (attrib.map Prod.fst).Nodup) (brackets : ℕ) :
    ∃ mode, InTag ⟨false, tag, attrib⟩ mode ∧
      feed ⟨.content brackets, frames, root⟩ ('<' :: (tag ++ attrib.flatMap writeAttribute)) = some ⟨mode, frames, root⟩ := by
  cases tag with
  | nil => exact absurd named (by decide)
  | cons c rest =>
    obtain ⟨first, later⟩ := Bool.and_eq_true_iff.mp named
    have slash : c ≠ '/' := fun same => absurd (same ▸ first) (by decide)
    have opens : step ⟨.opened false, frames, root⟩ c = some ⟨.name ⟨false, [c], []⟩, frames, root⟩ := by
      simp [step, slash, first]
    have angle : step ⟨.content brackets, frames, root⟩ '<' = some ⟨.opened false, frames, root⟩ := rfl
    have collected := @feed_name frames root ⟨false, [c], []⟩ rest later
    obtain ⟨mode, inTag, attributes⟩ := @feed_attributes frames root ⟨false, c :: rest, []⟩ _
      (.inl rfl) rfl attrib names distinct
    refine ⟨mode, inTag, ?_⟩
    rw [feed_cons, angle, Option.bind_some, List.cons_append, feed_cons, opens, Option.bind_some, feed_append, collected]
    exact attributes

theorem feed_endTag {tag : List Char} (named : isName tag = true) (attributes : Attributes) (content : List Node)
    (brackets : ℕ) :
    feed ⟨.content brackets, ⟨tag, attributes, content⟩ :: frame :: frames, root⟩ ('<' :: '/' :: (tag ++ ['>'])) =
      some ⟨.content 0, frame.add [.element tag attributes content] :: frames, root⟩ := by
  have angle : step ⟨.content brackets, ⟨tag, attributes, content⟩ :: frame :: frames, root⟩ '<' =
      some ⟨.opened false, ⟨tag, attributes, content⟩ :: frame :: frames, root⟩ := rfl
  have slash : step ⟨.opened false, ⟨tag, attributes, content⟩ :: frame :: frames, root⟩ '/' =
      some ⟨.endName [], ⟨tag, attributes, content⟩ :: frame :: frames, root⟩ := rfl
  have closes : step ⟨.endName tag, ⟨tag, attributes, content⟩ :: frame :: frames, root⟩ '>' =
      some ⟨.content 0, frame.add [.element tag attributes content] :: frames, root⟩ := by
    have ends : closeElement ⟨.endName tag, ⟨tag, attributes, content⟩ :: frame :: frames, root⟩ tag =
        some ⟨.content 0, frame.add [.element tag attributes content] :: frames, root⟩ := if_pos rfl
    exact ends
  rw [feed_cons, angle, Option.bind_some, feed_cons, slash, Option.bind_some, feed_append,
    feed_endName tag (isName_all named), Option.bind_some, List.nil_append, feed_cons, closes]
  rfl

mutual

theorem feed_markup (e : Element) (named : e.Named) (frame : Frame) (frames : List Frame) (brackets : ℕ) :
    ∃ after, feed ⟨.content brackets, frame :: frames, root⟩ e.markup =
      some ⟨.content after, frame.add [e.node] :: frames, root⟩ := by
  match e, named with
  | .mk tag attrib text children tail, named =>
    obtain ⟨tagged, names, distinct, inner⟩ := named
    obtain ⟨_, inTag, started⟩ := @feed_startTag (frame :: frames) root tag tagged attrib names distinct brackets
    have split (rest : List Char) :
        '<' :: (tag ++ (attrib.flatMap writeAttribute ++ rest)) = '<' :: (tag ++ attrib.flatMap writeAttribute) ++ rest := by
      simp [List.append_assoc]
    rw [Element.markup, split, feed_append, started, Option.bind_some]
    split
    next bare =>
      obtain ⟨rfl, rfl⟩ : text = [] ∧ children = [] := by simpa using bare
      refine ⟨0, ?_⟩
      rw [inTag.empty rfl]
      rfl
    next full =>
      obtain ⟨between, texts⟩ := @feed_cdata (frame :: frames) root ⟨tag, attrib, []⟩ text 0
      obtain ⟨last, rest⟩ := feed_markupAll children inner ((⟨tag, attrib, []⟩ : Frame).add (text.map .char))
        (frame :: frames) between
      refine ⟨0, ?_⟩
      rw [feed_cons, inTag.start rfl, Option.bind_some, feed_append, texts, Option.bind_some, feed_append, rest,
        Option.bind_some]
      exact feed_endTag tagged attrib _ last

theorem feed_markupAll (es : List Element) (named : AllNamed es) (frame : Frame) (frames : List Frame) (brackets : ℕ) :
    ∃ after, feed ⟨.content brackets, frame :: frames, root⟩ (markupAll es) =
      some ⟨.content after, frame.add (contents es) :: frames, root⟩ := by
  match es, named with
  | [], _ => exact ⟨brackets, by simp [markupAll, contents]⟩
  | child :: rest, named =>
    obtain ⟨between, first⟩ := feed_markup child named.1 frame frames brackets
    obtain ⟨last, tailed⟩ := @feed_cdata frames root (frame.add [child.node]) child.tail between
    obtain ⟨after, later⟩ := feed_markupAll rest named.2 ((frame.add [child.node]).add (child.tail.map .char)) frames last
    refine ⟨after, ?_⟩
    rw [markupAll, feed_append, first, Option.bind_some, feed_append, tailed, Option.bind_some, later]
    simp [contents]

end

end Reading

/-! ## The characters and the line ends of what is written -/

section Characters

theorem isChar_of_isNameChar {c : Char} (named : isNameChar c = true) : isChar c = true := by
  simp only [isNameChar, isNameStartChar, isChar, within, List.any_cons, List.any_nil, Bool.or_false, Bool.or_eq_true,
    Bool.and_eq_true, decide_eq_true_eq] at named ⊢
  omega

theorem isName_legal {name : List Char} (named : isName name = true) : name.all isChar = true :=
  List.all_eq_true.mpr fun c mem => isChar_of_isNameChar (List.all_eq_true.mp (isName_all named) c mem)

theorem isName_not_cr {name : List Char} (named : isName name = true) : '\r' ∉ name := by
  intro mem
  exact absurd (List.all_eq_true.mp (isName_all named) _ mem) (by decide)

theorem escapeCdataChar_legal (c : Char) : (escapeCdataChar c).all isChar = isChar c := by
  by_cases amp : c = '&'
  · subst amp
    decide
  by_cases lt : c = '<'
  · subst lt
    decide
  by_cases gt : c = '>'
  · subst gt
    decide
  simp [escapeCdataChar, amp, lt, gt]

theorem escapeAttribChar_legal (c : Char) : (escapeAttribChar c).all isChar = isChar c := by
  by_cases quot : c = '"'
  · subst quot
    decide
  by_cases cr : c = '\r'
  · subst cr
    decide
  by_cases lf : c = '\n'
  · subst lf
    decide
  by_cases tab : c = '\t'
  · subst tab
    decide
  simp [escapeAttribChar, quot, cr, lf, tab, escapeCdataChar_legal]

theorem all_flatMap {A B : Type*} {f : A → List B} {p : B → Bool} {q : A → Bool} (each : ∀ a, (f a).all p = q a) (as : List A) :
    (as.flatMap f).all p = as.all q := by
  induction as with
  | nil => rfl
  | cons _ _ ih => rw [List.flatMap_cons, List.all_append, each, ih, List.all_cons]

@[simp] theorem escapeCdata_legal (text : List Char) : (escapeCdata text).all isChar = text.all isChar :=
  all_flatMap escapeCdataChar_legal text

@[simp] theorem escapeAttrib_legal (text : List Char) : (escapeAttrib text).all isChar = text.all isChar :=
  all_flatMap escapeAttribChar_legal text

theorem attributes_legal (attrib : Attributes) (named : ∀ pair ∈ attrib, isName pair.1 = true) :
    (attrib.flatMap writeAttribute).all isChar = attrib.all fun pair => pair.2.all isChar := by
  induction attrib with
  | nil => rfl
  | cons pair _ ih =>
    have key := isName_legal (named pair List.mem_cons_self)
    have sign : isChar ' ' = true ∧ isChar '=' = true ∧ isChar '"' = true := by decide
    rw [List.flatMap_cons, List.all_append, ih fun other mem => named other (List.mem_cons_of_mem _ mem), List.all_cons]
    simp [writeAttribute, List.all_append, key, sign, -List.all_eq_true]

mutual

theorem markup_legal : ∀ (e : Element), e.Named → e.markup.all isChar = e.legal
  | .mk tag attrib text children tail, ⟨tagged, names, _, inner⟩ => by
    have sign : isChar ' ' = true ∧ isChar '<' = true ∧ isChar '>' = true ∧ isChar '/' = true := by decide
    have attributes := attributes_legal attrib names
    have rest := markupAll_legal children inner
    rw [Element.markup, Element.legal]
    split
    next bare =>
      obtain ⟨rfl, rfl⟩ : text = [] ∧ children = [] := by simpa using bare
      simp [List.all_append, isName_legal tagged, attributes, sign, legalAll, -List.all_eq_true]
    next full =>
      simp [List.all_append, isName_legal tagged, attributes, sign, rest, Bool.and_assoc, -List.all_eq_true]

theorem markupAll_legal : ∀ (es : List Element), AllNamed es → (markupAll es).all isChar = legalAll es
  | [], _ => rfl
  | child :: rest, ⟨first, later⟩ => by
    rw [markupAll, legalAll, List.all_append, List.all_append, markup_legal child first, markupAll_legal rest later,
      escapeCdata_legal, Bool.and_assoc]

end

theorem normalize_cons {c : Char} (other : c ≠ '\r') (rest : List Char) :
    normalizeLineEnds (c :: rest) = c :: normalizeLineEnds rest := by
  rw [normalizeLineEnds]
  · rw [if_neg other]
  · intro _ cr
    exact absurd cr other

theorem normalize_cr {rest : List Char} (ends : rest.head? ≠ some '\n') :
    normalizeLineEnds ('\r' :: rest) = '\n' :: normalizeLineEnds rest := by
  rw [normalizeLineEnds]
  · rw [if_pos rfl]
  · intro after _ same
    exact ends (by rw [same]; rfl)

theorem normalize_append {text : List Char} (plain : '\r' ∉ text) (rest : List Char) :
    normalizeLineEnds (text ++ rest) = text ++ normalizeLineEnds rest := by
  induction text with
  | nil => rfl
  | cons c _ ih =>
    have other : c ≠ '\r' := fun same => plain (same ▸ List.mem_cons_self)
    rw [List.cons_append, normalize_cons other, ih fun mem => plain (List.mem_cons_of_mem _ mem), List.cons_append]

theorem normalize_of_plain {text : List Char} (plain : '\r' ∉ text) : normalizeLineEnds text = text := by
  have kept := normalize_append plain []
  rwa [List.append_nil, normalizeLineEnds, List.append_nil] at kept

theorem cr_not_mem_normalize (text : List Char) : '\r' ∉ normalizeLineEnds text := by
  fun_induction normalizeLineEnds text with
  | case1 rest ih => simpa using ih
  | case2 c rest _ ih =>
    refine List.not_mem_cons_of_ne_of_not_mem ?_ ih
    by_cases cr : c = '\r'
    · simp [cr]
    · simpa [cr] using Ne.symm cr
  | case3 => exact List.not_mem_nil

theorem normalize_eq_iff (text : List Char) : normalizeLineEnds text = text ↔ '\r' ∉ text := by
  refine ⟨fun same => ?_, normalize_of_plain⟩
  rw [← same]
  exact cr_not_mem_normalize text

theorem escapeCdataChar_plain {c : Char} (other : c ≠ '\r') : '\r' ∉ escapeCdataChar c := by
  rw [escapeCdataChar]
  split_ifs
  · decide
  · decide
  · decide
  · simpa using Ne.symm other

theorem escapeCdataChar_head {c : Char} (other : c ≠ '\n') (rest : List Char) :
    (escapeCdataChar c ++ rest).head? ≠ some '\n' := by
  rw [escapeCdataChar]
  split_ifs
  · simp
  · simp
  · simp
  · simpa using other

theorem normalize_cdata (text : List Char) {rest : List Char} (ends : rest.head? ≠ some '\n') :
    normalizeLineEnds (escapeCdata text ++ rest) = escapeCdata (normalizeLineEnds text) ++ normalizeLineEnds rest := by
  fun_induction normalizeLineEnds text with
  | case1 later ih =>
    have crlf : escapeCdata ('\r' :: '\n' :: later) ++ rest = '\r' :: '\n' :: (escapeCdata later ++ rest) := rfl
    rw [crlf, normalizeLineEnds, ih]
    rfl
  | case2 c later single ih =>
    have split : escapeCdata (c :: later) ++ rest = escapeCdataChar c ++ (escapeCdata later ++ rest) := by
      simp [escapeCdata, List.append_assoc]
    by_cases cr : c = '\r'
    · have next : (escapeCdata later ++ rest).head? ≠ some '\n' := by
        cases later with
        | nil => exact ends
        | cons d others =>
          have other : d ≠ '\n' := fun same => single others cr (by rw [same])
          simpa [escapeCdata, List.append_assoc] using escapeCdataChar_head other (escapeCdata others ++ rest)
      rw [if_pos cr, split, cr]
      change normalizeLineEnds ('\r' :: (escapeCdata later ++ rest)) = '\n' :: (escapeCdata _ ++ _)
      rw [normalize_cr next, ih]
    · rw [if_neg cr, split, normalize_append (escapeCdataChar_plain cr), ih]
      simp [escapeCdata, List.append_assoc]
  | case3 => rfl

theorem escapeAttribChar_plain (c : Char) : '\r' ∉ escapeAttribChar c := by
  by_cases cr : c = '\r'
  · subst cr
    decide
  rw [escapeAttribChar, if_neg cr]
  split_ifs
  · decide
  · decide
  · decide
  · exact escapeCdataChar_plain cr

theorem attributes_plain (attrib : Attributes) (named : ∀ pair ∈ attrib, isName pair.1 = true) :
    '\r' ∉ attrib.flatMap writeAttribute := by
  intro mem
  obtain ⟨pair, pair_mem, inside⟩ := List.mem_flatMap.mp mem
  have key := isName_not_cr (named pair pair_mem)
  have value : '\r' ∉ escapeAttrib pair.2 := by
    intro mem
    obtain ⟨c, -, inside⟩ := List.mem_flatMap.mp mem
    exact escapeAttribChar_plain c inside
  simp [writeAttribute, key, value] at inside

theorem markupAll_head (es : List Element) (rest : List Char) : (markupAll es ++ '<' :: rest).head? = some '<' := by
  cases es with
  | nil => rfl
  | cons child =>
    cases child
    rfl

@[simp] theorem normalizeLineEnds_isEmpty (text : List Char) : (normalizeLineEnds text).isEmpty = text.isEmpty := by
  fun_induction normalizeLineEnds text <;> rfl

@[simp] theorem normalizedAll_isEmpty (es : List Element) : (normalizedAll es).isEmpty = es.isEmpty := by
  cases es <;> rfl

theorem normalized_tail (e : Element) : e.normalized.tail = normalizeLineEnds e.tail := by
  cases e
  rfl

mutual

theorem normalize_markup : ∀ (e : Element), e.Named → ∀ rest : List Char,
    normalizeLineEnds (e.markup ++ rest) = e.normalized.markup ++ normalizeLineEnds rest
  | .mk tag attrib text children tail, ⟨tagged, names, _, inner⟩, rest => by
    have starts : '\r' ∉ '<' :: (tag ++ attrib.flatMap writeAttribute) := by
      simp [isName_not_cr tagged, attributes_plain attrib names]
    have split (body : List Char) : '<' :: (tag ++ (attrib.flatMap writeAttribute ++ body)) ++ rest =
        '<' :: (tag ++ attrib.flatMap writeAttribute) ++ (body ++ rest) := by simp [List.append_assoc]
    have join (body : List Char) : '<' :: (tag ++ attrib.flatMap writeAttribute) ++ (body ++ normalizeLineEnds rest) =
        '<' :: (tag ++ (attrib.flatMap writeAttribute ++ body)) ++ normalizeLineEnds rest := by simp [List.append_assoc]
    rw [Element.markup, Element.normalized, Element.markup, split, normalize_append starts, ← join]
    congr 1
    simp only [normalizeLineEnds_isEmpty, normalizedAll_isEmpty]
    split
    next => exact normalize_append (by decide) rest
    next =>
      have ends : '\r' ∉ '<' :: '/' :: (tag ++ ['>']) := by simp [isName_not_cr tagged]
      have closing : normalizeLineEnds ('<' :: '/' :: (tag ++ ['>'] ++ rest)) =
          '<' :: '/' :: (tag ++ ['>']) ++ normalizeLineEnds rest := normalize_append ends rest
      have inside : (markupAll children ++ ('<' :: '/' :: (tag ++ ['>']) ++ rest)).head? ≠ some '\n' := by
        rw [List.cons_append, markupAll_head]
        decide
      have shape : '>' :: (escapeCdata text ++ (markupAll children ++ '<' :: '/' :: (tag ++ ['>']))) ++ rest =
          '>' :: (escapeCdata text ++ (markupAll children ++ ('<' :: '/' :: (tag ++ ['>']) ++ rest))) := by
        simp [List.append_assoc]
      rw [shape, normalize_cons (by decide), normalize_cdata text inside, List.cons_append, List.cons_append,
        normalize_markupAll children inner, closing]
      simp [List.append_assoc]

theorem normalize_markupAll : ∀ (es : List Element), AllNamed es → ∀ rest : List Char,
    normalizeLineEnds (markupAll es ++ '<' :: rest) = markupAll (normalizedAll es) ++ normalizeLineEnds ('<' :: rest)
  | [], _, _ => rfl
  | child :: others, ⟨first, later⟩, rest => by
    have inside : (markupAll others ++ '<' :: rest).head? ≠ some '\n' := by
      rw [markupAll_head]
      decide
    rw [markupAll, normalizedAll, markupAll, List.append_assoc, List.append_assoc, normalize_markup child first,
      normalize_cdata child.tail inside, normalize_markupAll others later, normalized_tail]
    simp [List.append_assoc]

end

end Characters

end MapBackend.Library.Xml
