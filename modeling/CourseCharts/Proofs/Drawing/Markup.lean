/-
  CourseCharts — reading markup.

  `Markup.read?` is a reader that knows tags, attributes in double quotes,
  character data and five entities, and nothing else.  It takes one character
  after the other and keeps the elements that are still open.

  * `Markup.text?_escape`: an escaped text stands for the text, and by
    `Markup.ne_of_mem_escape` nothing in it ends it;
  * `Markup.readInto_write`: what is written of a tree goes into the element
    that is open;
  * `Markup.Stands.read?_render`: a tree is read back as the element it stands
    for.
-/
import CourseCharts.Drawing.Xml
import Mathlib.Data.List.Forall2

namespace CourseCharts

/-! ## Elements -/

/-- An element with its text and the elements in it. -/
structure Element where
  name : String
  attributes : List (String × String)
  text : String
  children : List Element
  deriving Repr

namespace Element

/-- The value of an attribute. -/
def attribute? (e : Element) (key : String) : Option String := e.attributes.lookup key

/-- More text at the end. -/
def addText (e : Element) (text : String) : Element := { e with text := e.text ++ text }

/-- One more element at the end. -/
def addChild (e child : Element) : Element := { e with children := e.children ++ [child] }

/-- More elements at the end. -/
def addChildren (e : Element) (children : List Element) : Element :=
  { e with children := e.children ++ children }

/-- One more attribute at the end. -/
def addAttribute (e : Element) (a : String × String) : Element :=
  { e with attributes := e.attributes ++ [a] }

/-- The only element in an element, if there is nothing else. -/
def only? : Element → Option Element
  | ⟨_, _, "", [child]⟩ => some child
  | _ => none

@[simp] theorem addText_empty (e : Element) : e.addText "" = e := by
  cases e
  simp [addText]

@[simp] theorem addChildren_nil (e : Element) : e.addChildren [] = e := by
  cases e
  simp [addChildren]

theorem addChild_addChildren (e child : Element) (children : List Element) :
    (e.addChild child).addChildren children = e.addChildren (child :: children) := by
  simp [addChild, addChildren]

theorem addText_addText (e : Element) (s t : String) :
    (e.addText s).addText t = e.addText (s ++ t) := by
  simp [addText, String.append_assoc]

mutual

/-- The element with a tree at its end. -/
def add : Xml → Element → Element
  | .text s, e => e.addText s
  | .leaf name attributes, e => e.addChild ⟨name, attributes, "", []⟩
  | .element name attributes content, e =>
    e.addChild (addAll content ⟨name, attributes, "", []⟩)

/-- The element with some trees at its end. -/
def addAll : List Xml → Element → Element
  | [], e => e
  | x :: xs, e => addAll xs (add x e)

end

end Element

namespace Markup

/-! ## The reader -/

/-- The characters that a text stands for, if all its ampersands start entities. -/
def unescape? : List Char → Option (List Char)
  | [] => some []
  | '&' :: 'l' :: 't' :: ';' :: cs => (unescape? cs).map ('<' :: ·)
  | '&' :: 'g' :: 't' :: ';' :: cs => (unescape? cs).map ('>' :: ·)
  | '&' :: 'a' :: 'm' :: 'p' :: ';' :: cs => (unescape? cs).map ('&' :: ·)
  | '&' :: 'a' :: 'p' :: 'o' :: 's' :: ';' :: cs => (unescape? cs).map ('\'' :: ·)
  | '&' :: 'q' :: 'u' :: 'o' :: 't' :: ';' :: cs => (unescape? cs).map ('"' :: ·)
  | '&' :: _ => none
  | c :: cs => (unescape? cs).map (c :: ·)

/-- The text that some characters stand for. -/
def text? (raw : List Char) : Option String := (unescape? raw).map String.ofList

/-- The characters of names. -/
def isNameChar (c : Char) : Bool := c.isAlphanum || c == '-' || c == ':'

/-- Where the reader is; a tag that has been begun is an element without content. -/
inductive Mode where
  /-- In character data. -/
  | content (raw : List Char)
  /-- After `<`. -/
  | tag
  /-- In the name of a tag. -/
  | opening (name : List Char)
  /-- In the name after `</`. -/
  | closing (name : List Char)
  /-- After a space in a tag. -/
  | space (e : Element)
  /-- In the name of an attribute. -/
  | key (e : Element) (key : List Char)
  /-- After the `=` of an attribute. -/
  | equals (e : Element) (key : List Char)
  /-- In the quotes of an attribute. -/
  | value (e : Element) (key raw : List Char)
  /-- After the closing quote of an attribute. -/
  | quote (e : Element)
  /-- After the `/` at the end of a tag. -/
  | slash (e : Element)

/-- The reader with the innermost open element, and those around it. -/
structure State where
  mode : Mode
  top : Element
  stack : List Element

/-- A character in a tag, after its name or an attribute. -/
def between (e : Element) (top : Element) (stack : List Element) : Char → Option State
  | ' ' => some ⟨.space e, top, stack⟩
  | '>' => some ⟨.content [], e, top :: stack⟩
  | '/' => some ⟨.slash e, top, stack⟩
  | _ => none

/-- The next character; `none` if it is out of place. -/
def step (s : State) (c : Char) : Option State :=
  match s.mode with
  | .content raw =>
    if c = '<' then (text? raw).map fun text => ⟨.tag, s.top.addText text, s.stack⟩
    else some { s with mode := .content (raw ++ [c]) }
  | .tag =>
    if c = '/' then some { s with mode := .closing [] }
    else if isNameChar c then some { s with mode := .opening [c] } else none
  | .opening name =>
    if isNameChar c then some { s with mode := .opening (name ++ [c]) }
    else between ⟨String.ofList name, [], "", []⟩ s.top s.stack c
  | .closing name =>
    if isNameChar c then some { s with mode := .closing (name ++ [c]) }
    else if c = '>' ∧ s.top.name = String.ofList name then
      match s.stack with
      | [] => none
      | parent :: stack => some ⟨.content [], parent.addChild s.top, stack⟩
    else none
  | .space e => if isNameChar c then some { s with mode := .key e [c] } else none
  | .key e key =>
    if isNameChar c then some { s with mode := .key e (key ++ [c]) }
    else if c = '=' then some { s with mode := .equals e key } else none
  | .equals e key => if c = '"' then some { s with mode := .value e key [] } else none
  | .value e key raw =>
    if c = '"' then
      (text? raw).map fun text =>
        { s with mode := .quote (e.addAttribute (String.ofList key, text)) }
    else if c = '<' then none
    else some { s with mode := .value e key (raw ++ [c]) }
  | .quote e => between e s.top s.stack c
  | .slash e => if c = '>' then some ⟨.content [], s.top.addChild e, s.stack⟩ else none

/-- The reader before the first character; the innermost element is the document. -/
def State.initial : State := ⟨.content [], ⟨"", [], "", []⟩, []⟩

/-- The element of the document, when all others are closed. -/
def State.root? (s : State) : Option Element :=
  match s.mode, s.stack with
  | .content raw, [] => (text? raw).bind fun text => (s.top.addText text).only?
  | _, _ => none

/-- The element that a text consists of. -/
def read? (s : String) : Option Element := (s.toList.foldlM step State.initial).bind State.root?

/-! ## Entities -/

theorem unescape?_cons {c : Char} (h : c ≠ '&') (cs : List Char) :
    unescape? (c :: cs) = (unescape? cs).map (c :: ·) := by
  simp [unescape?, h]

theorem unescape?_escapeChar (c : Char) (cs : List Char) :
    unescape? (Xml.escapeChar c ++ cs) = (unescape? cs).map (c :: ·) := by
  unfold Xml.escapeChar
  split
  case h_6 hlt hgt hamp hapos hquot => exact unescape?_cons hamp cs
  all_goals rfl

theorem unescape?_append {as bs as' : List Char} (h : unescape? as = some as') :
    unescape? (as ++ bs) = (unescape? bs).map (as' ++ ·) := by
  fun_induction unescape? as generalizing as' with
  | case1 =>
    cases h
    simp
  | case7 => cases h
  | case8 c cs hlt hgt hamp hapos hquot hne ih =>
    obtain ⟨cs', hcs, rfl⟩ := Option.map_eq_some_iff.1 h
    rw [List.cons_append, unescape?_cons hne, ih hcs, Option.map_map]
    rfl
  | _ cs ih =>
    obtain ⟨cs', hcs, rfl⟩ := Option.map_eq_some_iff.1 h
    simp only [List.cons_append, unescape?, ih hcs, Option.map_map]
    rfl

/-- An escaped text stands for the text. -/
theorem text?_escape (s : String) : text? (Xml.escape s) = some s := by
  have h : ∀ cs : List Char, unescape? (cs.flatMap Xml.escapeChar) = some cs := by
    intro cs
    induction cs with
    | nil => rfl
    | cons c cs ih => rw [List.flatMap_cons, unescape?_escapeChar, ih, Option.map_some]
  rw [text?, Xml.escape, h, Option.map_some, String.ofList_toList]

theorem text?_append_escape {raw : List Char} {text : String} (h : text? raw = some text)
    (s : String) : text? (raw ++ Xml.escape s) = some (text ++ s) := by
  obtain ⟨cs, hcs, rfl⟩ := Option.map_eq_some_iff.1 h
  obtain ⟨cs', hcs', he⟩ := Option.map_eq_some_iff.1 (text?_escape s)
  rw [text?, unescape?_append hcs, hcs', ← he, ← String.ofList_append]
  rfl

theorem all_escapeChar (c : Char) :
    (Xml.escapeChar c).all (fun c => c != '<' && c != '"') = true := by
  unfold Xml.escapeChar
  split
  case h_6 hlt _ _ _ hquot =>
    have hlt' : c ≠ '<' := hlt
    have hquot' : c ≠ '"' := hquot
    simp [hlt', hquot']
  all_goals rfl

/-- Nothing in an escaped text ends it. -/
theorem ne_of_mem_escape {s : String} {c : Char} (h : c ∈ Xml.escape s) : c ≠ '<' ∧ c ≠ '"' := by
  obtain ⟨c', -, hc⟩ := List.mem_flatMap.1 h
  simpa using List.all_eq_true.1 (all_escapeChar c') c hc

/-! ## Runs of the reader -/

/-- The reader takes some characters. -/
def Reads (s : State) (cs : List Char) (s' : State) : Prop := cs.foldlM step s = some s'

section
variable {s s' s'' : State} {cs cs' : List Char} {c : Char} {top e : Element}
  {stack : List Element}

theorem Reads.one (h : step s c = some s') : Reads s [c] s' := by
  simp [Reads, h]

theorem Reads.append (h : Reads s cs s') (h' : Reads s' cs' s'') : Reads s (cs ++ cs') s'' := by
  rw [Reads] at h h' ⊢
  rw [List.foldlM_append, h]
  exact h'

theorem Reads.cons (h : step s c = some s') (h' : Reads s' cs s'') : Reads s (c :: cs) s'' :=
  (Reads.one h).append h'

/-- Characters that stay in one mode are collected there. -/
theorem reads_collected (mode : List Char → Mode) {P : Char → Prop}
    (hstep : ∀ acc c, P c → step ⟨mode acc, top, stack⟩ c = some ⟨mode (acc ++ [c]), top, stack⟩)
    (h : ∀ c ∈ cs, P c) (acc : List Char) :
    Reads ⟨mode acc, top, stack⟩ cs ⟨mode (acc ++ cs), top, stack⟩ := by
  induction cs generalizing acc with
  | nil => simp [Reads]
  | cons c cs ih =>
    rw [List.forall_mem_cons] at h
    have hrest := ih h.2 (acc ++ [c])
    rw [List.append_assoc] at hrest
    exact .cons (hstep acc c h.1) hrest

/-! ## Tags -/

/-- A name that the reader takes. -/
structure IsName (name : String) : Prop where
  nonempty : name.toList ≠ []
  chars : ∀ c ∈ name.toList, isNameChar c = true

theorem isName_iff {name : String} :
    IsName name ↔ (!name.toList.isEmpty && name.toList.all isNameChar) = true := by
  rw [Bool.and_eq_true, List.all_eq_true, Bool.not_eq_true', List.isEmpty_eq_false_iff]
  exact ⟨fun h => ⟨h.nonempty, h.chars⟩, fun h => ⟨h.1, h.2⟩⟩

instance (name : String) : Decidable (IsName name) := decidable_of_iff _ isName_iff.symm

/-- Names are known from the keys alone, whatever the values of the attributes. -/
theorem isName_of_keys {attributes : List (String × String)} (keys : List String)
    (hkeys : attributes.map (·.1) = keys) (h : keys.all (fun key => decide (IsName key)) = true) :
    ∀ a ∈ attributes, IsName a.1 := by
  rw [← hkeys, List.all_map, List.all_eq_true] at h
  exact fun a ha => of_decide_eq_true (h a ha)

/-- The reader is in a tag, after its name or an attribute. -/
structure Within (s : State) (e top : Element) (stack : List Element) : Prop where
  next : ∀ c, isNameChar c = false → step s c = between e top stack c

/-- The characters of a name are collected. -/
theorem reads_name {mode : List Char → Mode}
    (hmode : mode = .opening ∨ mode = .closing ∨ ∃ e, mode = .key e)
    (h : ∀ c ∈ cs, isNameChar c = true) (acc : List Char) :
    Reads ⟨mode acc, top, stack⟩ cs ⟨mode (acc ++ cs), top, stack⟩ := by
  refine reads_collected mode (fun acc c hc => ?_) h acc
  obtain rfl | rfl | ⟨e, rfl⟩ := hmode <;> simp [step, hc]

theorem reads_value (e : Element) (key : List Char) (value : String) :
    Reads ⟨.value e key [], top, stack⟩ (Xml.escape value)
      ⟨.value e key (Xml.escape value), top, stack⟩ :=
  reads_collected (.value e key) (fun acc c hc => by simp [step, hc.1, hc.2])
    (fun _ => ne_of_mem_escape) []

/-- An attribute is added to the tag. -/
theorem Within.attribute (h : Within s e top stack) {a : String × String} (ha : IsName a.1) :
    ∃ s', Reads s (Xml.writeAttribute a) s' ∧ Within s' (e.addAttribute a) top stack := by
  obtain ⟨key, value⟩ := a
  obtain ⟨hne, hkey⟩ := ha
  dsimp only at hne hkey
  obtain ⟨c, cs, hcs⟩ := List.exists_cons_of_ne_nil hne
  rw [hcs, List.forall_mem_cons] at hkey
  have hspace : Reads s [' '] ⟨.space e, top, stack⟩ := .one (h.next ' ' (by decide))
  have hname : Reads ⟨.space e, top, stack⟩ key.toList ⟨.key e key.toList, top, stack⟩ := by
    rw [hcs]
    exact .cons (by simp [step, hkey.1]) (reads_name (.inr (.inr ⟨e, rfl⟩)) hkey.2 [c])
  have hequals : Reads ⟨.key e key.toList, top, stack⟩ ['=', '"']
      ⟨.value e key.toList [], top, stack⟩ := rfl
  have hquote : Reads ⟨.value e key.toList (Xml.escape value), top, stack⟩ ['"']
      ⟨.quote (e.addAttribute (key, value)), top, stack⟩ := by
    refine .one ?_
    simp [step, text?_escape, String.ofList_toList]
  exact ⟨_, (((hspace.append hname).append hequals).append (reads_value e _ value)).append hquote,
    ⟨fun c _ => rfl⟩⟩

theorem Within.attributes {name : String} {as₀ as : List (String × String)}
    (h : Within s ⟨name, as₀, "", []⟩ top stack) (has : ∀ a ∈ as, IsName a.1) :
    ∃ s', Reads s (as.flatMap Xml.writeAttribute) s' ∧
      Within s' ⟨name, as₀ ++ as, "", []⟩ top stack := by
  induction as generalizing s as₀ with
  | nil =>
    rw [List.append_nil]
    exact ⟨s, rfl, h⟩
  | cons a as ih =>
    rw [List.forall_mem_cons] at has
    obtain ⟨s', hread, hwithin⟩ := h.attribute has.1
    obtain ⟨s'', hreads, hwithin'⟩ := ih hwithin has.2
    rw [List.append_assoc] at hwithin'
    exact ⟨s'', hread.append hreads, hwithin'⟩

/-! ## Content -/

/-- The reader is in the content of an element; the characters since the last tag already
    count as its text. -/
inductive Inside : State → Element → List Element → Prop where
  | mk {raw : List Char} {top : Element} {stack : List Element} {text : String}
    (h : text? raw = some text) : Inside ⟨.content raw, top, stack⟩ (top.addText text) stack

theorem Inside.start (e : Element) (stack : List Element) :
    Inside ⟨.content [], e, stack⟩ e stack := by
  have h : Inside ⟨.content [], e, stack⟩ (e.addText "") stack := .mk rfl
  rwa [Element.addText_empty] at h

/-- A text is added to the element. -/
theorem Inside.text (h : Inside s e stack) (text : String) :
    ∃ s', Reads s (Xml.escape text) s' ∧ Inside s' (e.addText text) stack := by
  obtain @⟨raw, top, _, text₀, hraw⟩ := h
  have hread : Reads ⟨.content raw, top, stack⟩ (Xml.escape text)
      ⟨.content (raw ++ Xml.escape text), top, stack⟩ :=
    reads_collected .content (P := (· ≠ '<')) (fun acc c hc => by simp [step, hc])
      (fun _ hc => (ne_of_mem_escape hc).1) raw
  rw [Element.addText_addText]
  exact ⟨_, hread, .mk (text?_append_escape hraw text)⟩

/-- A tag begins in the element. -/
theorem Inside.bracket (h : Inside s e stack) : Reads s ['<'] ⟨.tag, e, stack⟩ := by
  obtain ⟨hraw⟩ := h
  refine .one ?_
  simp [step, hraw]

/-- A tag is read with its attributes. -/
theorem Inside.tag (h : Inside s e stack) {name : String} (hname : IsName name)
    {as : List (String × String)} (has : ∀ a ∈ as, IsName a.1) :
    ∃ s', Reads s (Xml.writeTag name as) s' ∧ Within s' ⟨name, as, "", []⟩ e stack := by
  obtain ⟨hne, hchars⟩ := hname
  obtain ⟨c, cs, hcs⟩ := List.exists_cons_of_ne_nil hne
  rw [hcs, List.forall_mem_cons] at hchars
  have hslash : c ≠ '/' := by
    rintro rfl
    exact absurd hchars.1 (by decide)
  have hread : Reads ⟨.tag, e, stack⟩ name.toList ⟨.opening name.toList, e, stack⟩ := by
    rw [hcs]
    exact .cons (by simp [step, hslash, hchars.1]) (reads_name (.inl rfl) hchars.2 [c])
  have hwithin : Within ⟨.opening name.toList, e, stack⟩ ⟨name, [], "", []⟩ e stack := by
    refine ⟨fun c hc => ?_⟩
    simp [step, hc, String.ofList_toList]
  obtain ⟨s', hreads, hwithin'⟩ := hwithin.attributes has
  exact ⟨s', (h.bracket.append hread).append hreads, hwithin'⟩

/-- The end tag of the element takes it to the one around it. -/
theorem Inside.close (h : Inside s e (top :: stack)) (hname : IsName e.name) :
    Reads s ('<' :: '/' :: e.name.toList ++ ['>']) ⟨.content [], top.addChild e, stack⟩ := by
  have hslash : Reads ⟨.tag, e, top :: stack⟩ ['/'] ⟨.closing [], e, top :: stack⟩ := rfl
  have hread : Reads ⟨.closing [], e, top :: stack⟩ e.name.toList
      ⟨.closing e.name.toList, e, top :: stack⟩ := reads_name (.inr (.inl rfl)) hname.chars []
  have hend : Reads ⟨.closing e.name.toList, e, top :: stack⟩ ['>']
      ⟨.content [], top.addChild e, stack⟩ := by
    refine .one ?_
    simp [step, show isNameChar '>' = false by decide, String.ofList_toList]
  exact ((h.bracket.append hslash).append hread).append hend

end

/-! ## Trees -/

/-- The tags and attributes of the tree have names. -/
inductive Named : Xml → Prop where
  | text (s : String) : Named (.text s)
  | leaf {name : String} {attributes : List (String × String)} (hname : IsName name)
    (hattributes : ∀ a ∈ attributes, IsName a.1) : Named (.leaf name attributes)
  | element {name : String} {attributes : List (String × String)} {content : List Xml}
    (hname : IsName name) (hattributes : ∀ a ∈ attributes, IsName a.1)
    (hcontent : ∀ x ∈ content, Named x) : Named (.element name attributes content)

/-- What is read of the characters goes into the element that is open. -/
def ReadInto (cs : List Char) (f : Element → Element) : Prop :=
  ∀ {s : State} {e : Element} {stack : List Element}, Inside s e stack →
    ∃ s', Reads s cs s' ∧ Inside s' (f e) stack

theorem readInto_writeAll {xs : List Xml} (h : ∀ x ∈ xs, ReadInto x.write (Element.add x)) :
    ReadInto (Xml.writeAll xs) (Element.addAll xs) := by
  intro s e stack hs
  induction xs generalizing s e with
  | nil => exact ⟨s, rfl, hs⟩
  | cons x xs ih =>
    rw [List.forall_mem_cons] at h
    obtain ⟨s', hread, hs'⟩ := h.1 hs
    obtain ⟨s'', hreads, hs''⟩ := ih h.2 hs'
    exact ⟨s'', hread.append hreads, hs''⟩

@[simp] theorem name_addAll (xs : List Xml) (e : Element) :
    (Element.addAll xs e).name = e.name := by
  induction xs generalizing e with
  | nil => rfl
  | cons x xs ih =>
    rw [Element.addAll, ih]
    cases x <;> rfl

/-- What is written of a tree is read into the element that is open. -/
theorem readInto_write {x : Xml} (h : Named x) : ReadInto x.write (Element.add x) := by
  induction h with
  | text s => exact fun hs => hs.text s
  | leaf hname hattributes =>
    intro s e stack hs
    obtain ⟨s', hread, hwithin⟩ := hs.tag hname hattributes
    have hslash : Reads s' ['/'] ⟨.slash _, e, stack⟩ := .one (hwithin.next '/' (by decide))
    exact ⟨_, hread.append (hslash.append (.one rfl)), .start _ _⟩
  | @element name attributes content hname hattributes _ ih =>
    intro s e stack hs
    let e' : Element := ⟨name, attributes, "", []⟩
    obtain ⟨s', hread, hwithin⟩ := hs.tag hname hattributes
    have hopen : Reads s' ['>'] ⟨.content [], e', e :: stack⟩ :=
      .one (hwithin.next '>' (by decide))
    obtain ⟨s'', hreads, hs''⟩ := readInto_writeAll ih (.start e' (e :: stack))
    have hname' : (Element.addAll content e').name = name := name_addAll content e'
    have hclose := hs''.close (hname'.symm ▸ hname)
    rw [hname'] at hclose
    refine ⟨_, ?_, .start _ _⟩
    rw [Xml.write, List.append_assoc, List.append_assoc]
    exact ((hread.append hopen).append hreads).append hclose

theorem Inside.root?_eq {s : State} {e : Element} (h : Inside s e []) : s.root? = e.only? := by
  obtain ⟨hraw⟩ := h
  simp [State.root?, hraw]

/-- The tree is written so that it can be read as the element. -/
structure Stands (x : Xml) (e : Element) : Prop where
  named : Named x
  add : ∀ parent : Element, parent.add x = parent.addChild e

theorem forall_named {xs : List Xml} {es : List Element} (h : List.Forall₂ Stands xs es) :
    ∀ x ∈ xs, Named x := by
  induction h with
  | nil => simp
  | cons hx _ ih => exact List.forall_mem_cons.2 ⟨hx.named, ih⟩

theorem addAll_eq {xs : List Xml} {es : List Element} (h : List.Forall₂ Stands xs es)
    (e : Element) : e.addAll xs = e.addChildren es := by
  induction h generalizing e with
  | nil => rw [Element.addAll, Element.addChildren_nil]
  | cons hx _ ih => rw [Element.addAll, ih, hx.add, Element.addChild_addChildren]

section
variable {name : String} {attributes : List (String × String)} (hname : IsName name)
  (hattributes : ∀ a ∈ attributes, IsName a.1)
include hname hattributes

theorem Stands.leaf : Stands (.leaf name attributes) ⟨name, attributes, "", []⟩ :=
  ⟨.leaf hname hattributes, fun _ => rfl⟩

theorem Stands.text (s : String) :
    Stands (.element name attributes [.text s]) ⟨name, attributes, s, []⟩ := by
  refine ⟨.element hname hattributes (by simpa using .text s), fun parent => ?_⟩
  rw [Element.add, Element.addAll, Element.addAll, Element.add, Element.addText,
    String.empty_append]

theorem Stands.element {content : List Xml} {es : List Element}
    (h : List.Forall₂ Stands content es) :
    Stands (.element name attributes content) ⟨name, attributes, "", es⟩ := by
  refine ⟨.element hname hattributes (forall_named h), fun parent => ?_⟩
  rw [Element.add, addAll_eq h]
  rfl

end

/-- A document is read back. -/
theorem Stands.read?_render {x : Xml} {e : Element} (h : Stands x e) :
    read? x.render = some e := by
  obtain ⟨s, hread, hs⟩ := readInto_write h.named (.start ⟨"", [], "", []⟩ [])
  have hread' : x.write.foldlM step State.initial = some s := hread
  rw [read?, Xml.render, String.toList_ofList, hread', Option.bind_some, hs.root?_eq, h.add]
  rfl

example : read? "<a b=\"1 &lt; 2\">x<c/>y &amp; z</a>" =
    some ⟨"a", [("b", "1 < 2")], "xy & z", [⟨"c", [], "", []⟩]⟩ := by rfl

example : read? "<a><b></a></b>" = none := by rfl

end Markup

end CourseCharts
