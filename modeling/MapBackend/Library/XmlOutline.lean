import MapBackend.Library.ElementTree

/-!
The outline of a document forgets the white space between the children of an element.
-/

namespace MapBackend.Library.Xml

inductive Outline where
  | mk (tag : List Char) (attributes : Attributes) (text : List Char) (children : List Outline)

def chars : List Node → List Char := List.filterMap fun
  | .char c => some c
  | .element _ _ _ => none

def ownText (childless : Bool) (text : List Char) : List Char := if childless then text else text.filter fun c => !isSpace c

mutual

def Node.outline : Node → List Outline
  | .char _ => []
  | .element tag attributes content =>
    [.mk tag attributes (ownText (outlines content).isEmpty (chars content)) (outlines content)]

def outlines : List Node → List Outline
  | [] => []
  | node :: rest => node.outline ++ outlines rest

end

def tails (es : List Element) : List Char := es.flatMap Element.tail

mutual

def Element.outline : Element → Outline
  | .mk tag attrib text children _ => .mk tag attrib (ownText children.isEmpty (text ++ tails children)) (outlineAll children)

def outlineAll : List Element → List Outline
  | [] => []
  | child :: rest => child.outline :: outlineAll rest

end

mutual

/-- An element as `SubElement` and the texts set on it leave it: no white space has been put in yet. -/
def Element.Fresh : Element → Prop
  | .mk _ _ text children _ => (children ≠ [] → text = []) ∧ AllFresh children

def AllFresh : List Element → Prop
  | [] => True
  | child :: rest => child.tail = [] ∧ child.Fresh ∧ AllFresh rest

end

mutual

def Element.Plain : Element → Prop
  | .mk _ _ text children _ => '\r' ∉ text ∧ AllPlain children

def AllPlain : List Element → Prop
  | [] => True
  | child :: rest => child.Plain ∧ AllPlain rest

end

/-! ## Children, one by one -/

theorem allNamed_iff (es : List Element) : AllNamed es ↔ ∀ e ∈ es, e.Named := by
  induction es with
  | nil => simp [AllNamed]
  | cons _ _ ih => simp [AllNamed, ih]

theorem allFresh_iff (es : List Element) : AllFresh es ↔ ∀ e ∈ es, e.tail = [] ∧ e.Fresh := by
  induction es with
  | nil => simp [AllFresh]
  | cons _ _ ih => simp [AllFresh, ih, and_assoc]

theorem allPlain_iff (es : List Element) : AllPlain es ↔ ∀ e ∈ es, e.Plain := by
  induction es with
  | nil => simp [AllPlain]
  | cons _ _ ih => simp [AllPlain, ih]

theorem legalAll_eq (es : List Element) : legalAll es = es.all fun e => e.legal && e.tail.all isChar := by
  induction es with
  | nil => rfl
  | cons _ _ ih => rw [legalAll, ih, List.all_cons]

theorem outlineAll_eq (es : List Element) : outlineAll es = es.map Element.outline := by
  induction es with
  | nil => rfl
  | cons _ _ ih => rw [outlineAll, ih, List.map_cons]

/-! ## The outline of what a reader finds -/

@[simp] theorem outlines_append (first second : List Node) : outlines (first ++ second) = outlines first ++ outlines second := by
  induction first with
  | nil => rfl
  | cons _ _ ih => rw [List.cons_append, outlines, outlines, ih, List.append_assoc]

@[simp] theorem outlines_text (text : List Char) : outlines (text.map .char) = [] := by
  induction text with
  | nil => rfl
  | cons _ _ ih => rw [List.map_cons, outlines, ih, Node.outline, List.append_nil]

@[simp] theorem chars_append (first second : List Node) : chars (first ++ second) = chars first ++ chars second :=
  List.filterMap_append

@[simp] theorem chars_text (text : List Char) : chars (text.map .char) = text := by
  induction text with
  | nil => rfl
  | cons c rest ih =>
    change c :: chars (rest.map .char) = c :: rest
    rw [ih]

theorem chars_contents (es : List Element) : chars (contents es) = tails es := by
  induction es with
  | nil => rfl
  | cons child _ ih =>
    have element : chars [child.node] = [] := by
      cases child
      rfl
    rw [contents, ← List.singleton_append, chars_append, element, chars_append, chars_text, ih]
    rfl

@[simp] theorem outlineAll_isEmpty (es : List Element) : (outlineAll es).isEmpty = es.isEmpty := by
  cases es <;> rfl

mutual

theorem node_outline : ∀ e : Element, e.node.outline = [e.outline]
  | .mk tag attrib text children tail => by
    rw [Element.node, Node.outline, outlines_append, outlines_text, List.nil_append, contents_outlines children,
      outlineAll_isEmpty, chars_append, chars_text, chars_contents, Element.outline]

theorem contents_outlines : ∀ es : List Element, outlines (contents es) = outlineAll es
  | [] => rfl
  | child :: rest => by
    rw [contents, outlines, node_outline child, outlines_append, outlines_text, List.nil_append, contents_outlines rest,
      List.singleton_append, outlineAll]

end

/-! ## Indentation -/

@[simp] theorem tail_setTail (e : Element) (tail : List Char) : (e.setTail tail).tail = tail := by
  cases e
  rfl

@[simp] theorem outline_setTail (e : Element) (tail : List Char) : (e.setTail tail).outline = e.outline := by
  cases e
  rfl

theorem ownText_blank {text : List Char} (white : text.all isSpace = true) : ownText false text = [] := by
  simpa [ownText] using white

theorem tails_fresh : ∀ es : List Element, AllFresh es → tails es = []
  | [], _ => rfl
  | child :: rest, ⟨tail, _, later⟩ => by
    rw [tails, List.flatMap_cons, tail, List.nil_append, ← tails, tails_fresh rest later]

section Indent

variable {white : Char → Bool} {space : List Char}

theorem indent_tail (level : ℕ) (e : Element) : (e.indent white space level).tail = e.tail := by
  obtain ⟨_, _, _, children, _⟩ := e
  cases children <;> rfl

mutual

theorem named_indent : ∀ (level : ℕ) (e : Element), (e.indent white space level).Named ↔ e.Named
  | _, .mk tag attrib text [] tail => Iff.rfl
  | level, .mk tag attrib text (child :: rest) tail => by
    rw [Element.indent, Element.Named, Element.Named, allNamed_indentAll level (child :: rest)]

theorem allNamed_indentAll : ∀ (level : ℕ) (es : List Element), AllNamed (indentAll white space level es) ↔ AllNamed es
  | _, [] => Iff.rfl
  | level, child :: rest => by
    have kept (e : Element) (tail : List Char) : (e.setTail tail).Named ↔ e.Named := by
      cases e
      rfl
    rw [indentAll, AllNamed, AllNamed, kept, named_indent (level + 1) child, allNamed_indentAll level rest]

end

variable (blank : space.all isSpace = true)
include blank

theorem newline_blank (level : ℕ) : (newline space level).all isSpace = true := by
  have repeated : (List.replicate level space).flatten.all isSpace = true := by
    induction level with
    | zero => rfl
    | succ _ ih => rw [List.replicate_succ, List.flatten_cons, List.all_append, blank, ih, Bool.and_self]
  have line : isSpace '\n' = true := by decide
  rw [newline, List.all_cons, line, repeated, Bool.and_self]

theorem tails_indentAll (level : ℕ) : ∀ es : List Element, AllFresh es → (tails (indentAll white space level es)).all isSpace = true
  | [], _ => rfl
  | child :: rest, ⟨tail, _, later⟩ => by
    rw [indentAll, tails, List.flatMap_cons, List.all_append, tail_setTail, tail]
    exact Bool.and_eq_true_iff.mpr ⟨newline_blank blank _, tails_indentAll level rest later⟩

mutual

theorem outline_indent : ∀ (level : ℕ) (e : Element), e.Fresh → (e.indent white space level).outline = e.outline
  | _, .mk tag attrib text [] tail, _ => rfl
  | level, .mk tag attrib text (child :: rest) tail, ⟨container, inner⟩ => by
    have bare : text = [] := container (List.cons_ne_nil _ _)
    have before : (newline space (level + 1) ++ tails (indentAll white space level (child :: rest))).all isSpace = true := by
      rw [List.all_append, newline_blank blank, tails_indentAll blank level _ inner, Bool.and_self]
    have same := outlineAll_indentAll level (child :: rest) inner
    have some_child : (indentAll white space level (child :: rest)).isEmpty = false := by
      rw [indentAll]
      rfl
    rw [Element.indent, Element.outline, Element.outline, same, bare, tails_fresh _ inner, some_child]
    congr 1
    exact ownText_blank before

theorem outlineAll_indentAll : ∀ (level : ℕ) (es : List Element), AllFresh es →
    outlineAll (indentAll white space level es) = outlineAll es
  | _, [], _ => rfl
  | level, child :: rest, ⟨_, first, later⟩ => by
    rw [indentAll, outlineAll, outline_setTail, outline_indent (level + 1) child first, outlineAll_indentAll level rest later,
      outlineAll]

end

theorem newline_legal (level : ℕ) : (newline space level).all isChar = true := by
  refine List.all_eq_true.mpr fun c mem => ?_
  rcases isSpace_cases (List.all_eq_true.mp (newline_blank blank level) c mem) with rfl | rfl | rfl | rfl
  all_goals decide

mutual

theorem legal_indent : ∀ (level : ℕ) (e : Element), e.Fresh → (e.indent white space level).legal = e.legal
  | _, .mk tag attrib text [] tail, _ => rfl
  | level, .mk tag attrib text (child :: rest) tail, ⟨container, inner⟩ => by
    have bare : text = [] := container (List.cons_ne_nil _ _)
    have same := legalAll_indentAll level (child :: rest) inner
    have filled : (fill white [] (newline space (level + 1))).all isChar = true := newline_legal blank _
    rw [Element.indent, Element.legal, Element.legal, same, bare, filled]
    rfl

theorem legalAll_indentAll : ∀ (level : ℕ) (es : List Element), AllFresh es →
    legalAll (indentAll white space level es) = legalAll es
  | _, [], _ => rfl
  | level, child :: rest, ⟨tail, first, later⟩ => by
    have kept (e : Element) (tail : List Char) : (e.setTail tail).legal = e.legal := by
      cases e
      rfl
    have filled (level : ℕ) : (fill white [] (newline space level)).all isChar = true := newline_legal blank level
    rw [indentAll, legalAll, legalAll, kept, tail_setTail, tail, filled, legal_indent (level + 1) child first,
      legalAll_indentAll level rest later]
    rfl

end

variable (unbroken : '\r' ∉ space)
include unbroken
omit blank

theorem newline_plain (level : ℕ) : normalizeLineEnds (newline space level) = newline space level := by
  apply normalize_of_plain
  intro mem
  rcases List.mem_cons.mp mem with head | inside
  · exact absurd head (by decide)
  · obtain ⟨_, copies, mem⟩ := List.mem_flatten.mp inside
    exact unbroken (List.eq_of_mem_replicate copies ▸ mem)

mutual

theorem normalized_indent : ∀ (level : ℕ) (e : Element), e.Fresh →
    (e.indent white space level).normalized = e.normalized.indent white space level
  | _, .mk tag attrib text [] tail, _ => rfl
  | level, .mk tag attrib text (child :: rest) tail, ⟨container, inner⟩ => by
    have bare : text = [] := container (List.cons_ne_nil _ _)
    have filled : normalizeLineEnds (fill white [] (newline space (level + 1))) = newline space (level + 1) :=
      newline_plain unbroken _
    rw [Element.indent, Element.normalized, Element.normalized, normalizedAll_indentAll level (child :: rest) inner, bare,
      filled, normalizedAll, Element.indent]
    rfl

theorem normalizedAll_indentAll : ∀ (level : ℕ) (es : List Element), AllFresh es →
    normalizedAll (indentAll white space level es) = indentAll white space level (normalizedAll es)
  | _, [], _ => rfl
  | level, child :: rest, ⟨tail, first, later⟩ => by
    have kept (e : Element) (tail : List Char) : (e.setTail tail).normalized = e.normalized.setTail (normalizeLineEnds tail) := by
      cases e
      rfl
    have filled (level : ℕ) : normalizeLineEnds (fill white [] (newline space level)) = fill white [] (newline space level) :=
      newline_plain unbroken level
    have bare : child.normalized.tail = [] := by
      rw [normalized_tail, tail]
      rfl
    rw [indentAll, normalizedAll, normalizedAll, indentAll, kept, tail, filled, normalized_indent (level + 1) child first,
      normalizedAll_indentAll level rest later, bare, normalizedAll_isEmpty]

end

end Indent

/-! ## The outline after reading -/

mutual

theorem fresh_normalized : ∀ e : Element, e.Fresh → e.normalized.Fresh
  | .mk tag attrib text children tail, ⟨container, inner⟩ => by
    refine ⟨fun some_child => ?_, allFresh_normalized children inner⟩
    have before : children ≠ [] := by
      intro none
      exact some_child (by rw [none]; rfl)
    rw [container before]
    rfl

theorem allFresh_normalized : ∀ es : List Element, AllFresh es → AllFresh (normalizedAll es)
  | [], _ => trivial
  | child :: rest, ⟨tail, first, later⟩ => by
    refine ⟨?_, fresh_normalized child first, allFresh_normalized rest later⟩
    rw [normalized_tail, tail]
    rfl

end

mutual

theorem named_normalized : ∀ e : Element, e.normalized.Named ↔ e.Named
  | .mk tag attrib text children tail => by
    rw [Element.normalized, Element.Named, Element.Named, allNamed_normalized children]

theorem allNamed_normalized : ∀ es : List Element, AllNamed (normalizedAll es) ↔ AllNamed es
  | [] => Iff.rfl
  | child :: rest => by rw [normalizedAll, AllNamed, AllNamed, named_normalized child, allNamed_normalized rest]

end

mutual

theorem outline_normalized : ∀ e : Element, e.Fresh → (e.normalized.outline = e.outline ↔ e.Plain)
  | .mk tag attrib text children tail, ⟨container, inner⟩ => by
    have texts : ownText children.isEmpty (normalizeLineEnds text ++ tails (normalizedAll children)) =
        ownText children.isEmpty (text ++ tails children) ↔ '\r' ∉ text := by
      rw [tails_fresh _ inner, tails_fresh _ (allFresh_normalized children inner), List.append_nil, List.append_nil]
      cases children with
      | nil => exact normalize_eq_iff text
      | cons child rest =>
        rw [container (List.cons_ne_nil child rest)]
        exact ⟨fun _ => List.not_mem_nil, fun _ => rfl⟩
    rw [Element.normalized, Element.outline, Element.outline, Element.Plain, normalizedAll_isEmpty, Outline.mk.injEq, texts,
      outlineAll_normalized children inner]
    simp

theorem outlineAll_normalized : ∀ es : List Element, AllFresh es → (outlineAll (normalizedAll es) = outlineAll es ↔ AllPlain es)
  | [], _ => ⟨fun _ => trivial, fun _ => rfl⟩
  | child :: rest, ⟨_, first, later⟩ => by
    rw [normalizedAll, outlineAll, outlineAll, AllPlain, List.cons.injEq, outline_normalized child first,
      outlineAll_normalized rest later]

end

end MapBackend.Library.Xml
