/-
  CourseCharts — frames read from their documents.

  * `Svg.IsRect`, `Svg.IsCircle`, `Svg.IsLine` and `Svg.IsLabel` say which
    elements show a shape; `Svg.Linked` adds its link and its tooltip;
  * `Svg.IsBody` says which elements show the body of a frame;
  * `Svg.escape_number` and `Svg.escape_hex`: numbers and colors are written as
    they are;
  * `Svg.IsDocument`: which element shows a frame; `Svg.stands_document`: the
    document of a frame stands for such an element;
  * `Svg.markup_shows_frame`: that element is read from what is on the surface.
-/
import CourseCharts.Proofs.Drawing.Markup
import CourseCharts.Proofs.Drawing.Surface

namespace CourseCharts.Svg

open Markup

/-! ## Which elements show what -/

section
variable {α : Type} [Scalar α]

/-- The element is painted with the color; its opacity is told if it is not opaque. -/
structure HasColor (e : Element) (key opacity : String) (c : Color α) : Prop where
  color : e.attribute? key = some c.hex
  opacity : e.attribute? opacity = if 1.0 ≤ c.alpha then none else some (number c.alpha)

/-- The element has no content. -/
structure IsEmpty (e : Element) : Prop where
  text : e.text = ""
  children : e.children = []

/-- The element shows a rectangle. -/
structure IsRect (r : Rect α) (e : Element) : Prop extends IsEmpty e where
  name : e.name = "rect"
  x : e.attribute? "x" = some (number r.x)
  y : e.attribute? "y" = some (number r.y)
  width : e.attribute? "width" = some (number r.width)
  height : e.attribute? "height" = some (number r.height)
  fill : HasColor e "fill" "fill-opacity" r.color

/-- The element shows a circle. -/
structure IsCircle (c : Circle α) (e : Element) : Prop extends IsEmpty e where
  name : e.name = "circle"
  x : e.attribute? "cx" = some (number c.x)
  y : e.attribute? "cy" = some (number c.y)
  radius : e.attribute? "r" = some (number c.radius)
  fill : HasColor e "fill" "fill-opacity" c.color

/-- The element shows a line. -/
structure IsLine (l : Line α) (e : Element) : Prop extends IsEmpty e where
  name : e.name = "line"
  x1 : e.attribute? "x1" = some (number l.x1)
  y1 : e.attribute? "y1" = some (number l.y1)
  x2 : e.attribute? "x2" = some (number l.x2)
  y2 : e.attribute? "y2" = some (number l.y2)
  width : e.attribute? "stroke-width" = some (number l.width)
  stroke : HasColor e "stroke" "stroke-opacity" l.color

/-- The element shows a label, with exactly its text. -/
structure IsLabel (l : Label α) (e : Element) : Prop where
  name : e.name = "text"
  text : e.text = l.text
  children : e.children = []
  x : e.attribute? "x" = some (number l.x)
  y : e.attribute? "y" = some (number l.y)
  fontSize : e.attribute? "font-size" = some (number l.fontSize ++ "px")
  anchor : e.attribute? "text-anchor" = some (anchor l.align)
  fill : HasColor e "fill" "fill-opacity" l.color
  rotation : e.attribute? "transform" = if l.rotation == 0.0 then none else
    some ("rotate(" ++ number l.rotation ++ " " ++ number l.x ++ " " ++ number l.y ++ ")")

/-- The element shows what a body is cut to. -/
structure IsClip (c : Clip α) (e : Element) : Prop extends IsEmpty e where
  name : e.name = "rect"
  x : e.attribute? "x" = some (number c.x)
  y : e.attribute? "y" = some (number c.y)
  width : e.attribute? "width" = some (number c.width)
  height : e.attribute? "height" = some (number c.height)

/-- The element that has a tooltip as its text. -/
def titleElement (tooltip : String) : Element := ⟨"title", [], tooltip, []⟩

/-- The element shows a shape with its link: in an anchor if it leads somewhere, in a group
    if it only has a tooltip, and bare otherwise. -/
inductive Linked (Shape : Element → Prop) : Link → Element → Prop where
  | bare {e : Element} (h : Shape e) : Linked Shape ⟨none, none⟩ e
  | group {tooltip : String} {e : Element} (h : Shape e) :
    Linked Shape ⟨none, some tooltip⟩ ⟨"g", [], "", [titleElement tooltip, e]⟩
  | anchor {href : String} {e : Element} (h : Shape e) :
    Linked Shape ⟨some href, none⟩ ⟨"a", [("xlink:href", href)], "", [e]⟩
  | titled {href tooltip : String} {e : Element} (h : Shape e) :
    Linked Shape ⟨some href, some tooltip⟩
      ⟨"a", [("xlink:href", href)], "", [titleElement tooltip, e]⟩

/-- The elements show the shapes of a body, in their order. -/
def AreShapes (b : Body α) (es : List Element) : Prop :=
  ∃ rects circles labels, es = rects ++ circles ++ labels ∧
    List.Forall₂ (fun (r : Rect α) => Linked (IsRect r) r.link) b.rects rects ∧
    List.Forall₂ (fun (c : Circle α) => Linked (IsCircle c) c.link) b.circles circles ∧
    List.Forall₂ IsLabel b.labels labels

/-- The elements show a body: one group if it has shapes, after the definition of what it is
    cut to if there is something. -/
inductive IsBody (id : String) (b : Body α) : List Element → Prop where
  | empty (hsize : b.size = 0) : IsBody id b []
  | whole {shapes : List Element} (hsize : b.size ≠ 0) (hclip : b.clip = none)
    (hshapes : AreShapes b shapes) : IsBody id b [⟨"g", [], "", shapes⟩]
  | clipped {c : Clip α} {area : Element} {shapes : List Element} (hsize : b.size ≠ 0)
    (hclip : b.clip = some c) (harea : IsClip c area) (hshapes : AreShapes b shapes) :
    IsBody id b
      [⟨"defs", [], "", [⟨"clipPath", [("id", id ++ "-clip")], "", [area]⟩]⟩,
        ⟨"g", [("clip-path", "url(#" ++ (id ++ "-clip") ++ ")")], "", shapes⟩]

/-- The element shows a frame: rectangles, lines and labels around the data, and then the
    body. -/
structure IsDocument (id : String) (f : Frame α) (e : Element) : Prop where
  name : e.name = "svg"
  text : e.text = ""
  surface : e.attribute? "id" = some id
  width : e.attribute? "width" = some (toString f.viewport.width)
  height : e.attribute? "height" = some (toString f.viewport.height)
  shapes : ∃ rects lines labels body, e.children = rects ++ lines ++ labels ++ body ∧
    List.Forall₂ IsRect f.chrome.rects rects ∧ List.Forall₂ IsLine f.chrome.lines lines ∧
    List.Forall₂ IsLabel f.chrome.labels labels ∧ IsBody id f.body body

/-! ## Numbers and colors -/

/-- Escaping changes no character of the text. -/
def Plain (s : String) : Prop := ∀ c ∈ s.toList, Xml.escapeChar c = [c]

instance (s : String) : Decidable (Plain s) :=
  decidable_of_iff (s.toList.all (fun c => Xml.escapeChar c == [c]) = true) <| by
    simp only [List.all_eq_true, beq_iff_eq, Plain]

theorem Plain.escape_eq {s : String} (h : Plain s) : Xml.escape s = s.toList :=
  (List.flatMap_congr h).trans (List.flatMap_singleton' s.toList)

theorem Plain.append {s t : String} (hs : Plain s) (ht : Plain t) : Plain (s ++ t) := by
  rw [Plain, String.toList_append]
  exact List.forall_mem_append.2 ⟨hs, ht⟩

theorem escapeChar_of_isDigit {c : Char} (h : c.isDigit = true) : Xml.escapeChar c = [c] := by
  unfold Xml.escapeChar
  split
  case h_6 => rfl
  all_goals exact absurd h (by decide)

theorem plain_toString (n : Nat) : Plain (toString n) := by
  intro c hc
  have hdigits : c ∈ Nat.toDigits 10 n := by simpa using hc
  exact escapeChar_of_isDigit (Nat.isDigit_of_mem_toDigits (by decide) (by decide) hdigits)

theorem plain_fixed (n places : Nat) : Plain (Digits.fixed n places) := by
  unfold Digits.fixed
  split
  next => exact plain_toString n
  next =>
    have hzeros (m : Nat) : Plain (String.ofList (List.replicate m '0')) := by
      intro c hc
      rw [String.toList_ofList] at hc
      rw [List.eq_of_mem_replicate hc]
      rfl
    exact (((plain_toString _).append (by decide)).append (hzeros _)).append (plain_toString _)

theorem plain_positional (d : Digits) : Plain d.positional := by
  unfold Digits.positional
  split <;> exact plain_fixed _ _

/-- The text of a double is written as it is. -/
theorem escape_number (x : Float) : Xml.escape (number x) = (number x).toList := by
  apply Plain.escape_eq
  have htext (y : Float) : Plain (Double.text y) := by
    unfold Double.text
    split
    case h_6 => exact plain_positional _
    case h_7 => exact Plain.append (by decide) (plain_positional _)
    all_goals decide
  unfold number
  dsimp only
  split
  next => decide
  next => exact htext _

/-- So is the text of a color. -/
theorem escape_hex (c : Color α) : Xml.escape c.hex = c.hex.toList := by
  apply Plain.escape_eq
  have hbyte (n : Nat) : Plain (hexByte n) := by
    have hdigit (d : Nat) : Xml.escapeChar d.digitChar = [d.digitChar] := by
      rcases Nat.lt_or_ge d 16 with h | h
      · revert d
        decide
      · obtain ⟨k, rfl⟩ := Nat.exists_eq_add_of_le' h
        rfl
    intro c hc
    simp only [hexByte, String.toList_ofList, List.mem_cons, List.not_mem_nil, or_false] at hc
    obtain rfl | rfl := hc
    · exact hdigit _
    · exact hdigit _
  exact ((Plain.append (by decide) (hbyte _)).append (hbyte _)).append (hbyte _)

/-! ## What is written -/

theorem isName_opacity {name : String} (h : IsName name) (c : Color α) :
    ∀ a ∈ opacity name c, IsName a.1 := by
  unfold opacity
  split
  next => simp
  next => simpa using h

theorem isName_fill (c : Color α) : ∀ a ∈ fill c, IsName a.1 := by
  have hfill : IsName "fill" := by decide
  exact List.forall_mem_cons.2 ⟨hfill, isName_opacity (by decide) c⟩

theorem stands_rect (r : Rect α) : ∃ e, Stands (rect r) e ∧ IsRect r e := by
  refine ⟨_, .leaf (by decide) ?_, ?_⟩
  · exact List.forall_mem_append.2
      ⟨isName_of_keys ["x", "y", "width", "height"] rfl (by decide), isName_fill r.color⟩
  -- attributes are found by computation; only the opacity is not always there
  · refine ⟨⟨rfl, rfl⟩, rfl, rfl, rfl, rfl, rfl, ⟨rfl, ?_⟩⟩
    unfold fill opacity
    split <;> rfl

theorem stands_circle (c : Circle α) : ∃ e, Stands (circle c) e ∧ IsCircle c e := by
  refine ⟨_, .leaf (by decide) ?_, ?_⟩
  · exact List.forall_mem_append.2
      ⟨isName_of_keys ["cx", "cy", "r"] rfl (by decide), isName_fill c.color⟩
  · refine ⟨⟨rfl, rfl⟩, rfl, rfl, rfl, rfl, ⟨rfl, ?_⟩⟩
    unfold fill opacity
    split <;> rfl

theorem stands_line (l : Line α) : ∃ e, Stands (line l) e ∧ IsLine l e := by
  refine ⟨_, .leaf (by decide) ?_, ?_⟩
  · exact List.forall_mem_append.2
      ⟨isName_of_keys ["x1", "y1", "x2", "y2", "stroke", "stroke-width"] rfl (by decide),
        isName_opacity (by decide) l.color⟩
  · refine ⟨⟨rfl, rfl⟩, rfl, rfl, rfl, rfl, rfl, rfl, ⟨rfl, ?_⟩⟩
    unfold opacity
    split <;> rfl

theorem stands_label (l : Label α) : ∃ e, Stands (label l) e ∧ IsLabel l e := by
  have hrotation : ∀ a ∈ rotation l, IsName a.1 := by
    unfold rotation
    split
    next => simp
    next => exact isName_of_keys ["transform"] rfl (by decide)
  refine ⟨_, .text (by decide) ?_ l.text, ?_⟩
  · exact List.forall_mem_append.2
      ⟨List.forall_mem_append.2
        ⟨isName_of_keys ["x", "y", "font-size", "text-anchor"] rfl (by decide),
          isName_fill l.color⟩, hrotation⟩
  · refine ⟨rfl, rfl, rfl, rfl, rfl, rfl, rfl, ⟨rfl, ?_⟩, ?_⟩
    · unfold fill opacity rotation
      split <;> split <;> rfl
    · unfold fill opacity rotation
      split <;> split <;> rfl

theorem stands_title (tooltip : String) : Stands (title tooltip) (titleElement tooltip) :=
  .text (by decide) (by simp) tooltip

/-- A shape is wrapped as its link asks. -/
theorem stands_linked {shape : Xml} {e : Element} {P : Element → Prop} (h : Stands shape e)
    (hP : P e) (link : Link) : ∃ e', Stands (linked link shape) e' ∧ Linked P link e' := by
  have hone : List.Forall₂ Stands [shape] [e] := .cons h .nil
  have htwo (tooltip : String) :
      List.Forall₂ Stands [title tooltip, shape] [titleElement tooltip, e] :=
    .cons (stands_title tooltip) hone
  have hhref (href : String) : ∀ a ∈ [("xlink:href", href)], IsName a.1 :=
    isName_of_keys ["xlink:href"] rfl (by decide)
  obtain ⟨_ | href, _ | tooltip⟩ := link
  · exact ⟨_, h, .bare hP⟩
  · exact ⟨_, .element (by decide) (by simp) (htwo tooltip), .group hP⟩
  · exact ⟨_, .element (by decide) (hhref href) hone, .anchor hP⟩
  · exact ⟨_, .element (by decide) (hhref href) (htwo tooltip), .titled hP⟩

/-- Shapes one by one. -/
theorem stands_map {β : Type} {f : β → Xml} {P : β → Element → Prop}
    (h : ∀ b, ∃ e, Stands (f b) e ∧ P b e) (bs : List β) :
    ∃ es, List.Forall₂ Stands (bs.map f) es ∧ List.Forall₂ P bs es := by
  induction bs with
  | nil => exact ⟨[], .nil, .nil⟩
  | cons b bs ih =>
    obtain ⟨e, he, hP⟩ := h b
    obtain ⟨es, hes, hPs⟩ := ih
    exact ⟨e :: es, .cons he hes, .cons hP hPs⟩

theorem stands_bodyShapes (b : Body α) :
    ∃ es, List.Forall₂ Stands (bodyShapes b) es ∧ AreShapes b es := by
  have hrect (r : Rect α) :
      ∃ e, Stands (linked r.link (rect r)) e ∧ Linked (IsRect r) r.link e := by
    obtain ⟨e, he, hr⟩ := stands_rect r
    exact stands_linked he hr r.link
  have hcircle (c : Circle α) :
      ∃ e, Stands (linked c.link (circle c)) e ∧ Linked (IsCircle c) c.link e := by
    obtain ⟨e, he, hc⟩ := stands_circle c
    exact stands_linked he hc c.link
  obtain ⟨rects, hrects, hrects'⟩ := stands_map hrect b.rects
  obtain ⟨circles, hcircles, hcircles'⟩ := stands_map hcircle b.circles
  obtain ⟨labels, hlabels, hlabels'⟩ := stands_map stands_label b.labels
  exact ⟨_, List.rel_append (List.rel_append hrects hcircles) hlabels,
    rects, circles, labels, rfl, hrects', hcircles', hlabels'⟩

theorem stands_definition (clipId : String) (c : Clip α) : ∃ e, IsClip c e ∧
    Stands (.element "defs" [] [.element "clipPath" [("id", clipId)] [.leaf "rect"
      [("x", number c.x), ("y", number c.y), ("width", number c.width),
        ("height", number c.height)]]])
      ⟨"defs", [], "", [⟨"clipPath", [("id", clipId)], "", [e]⟩]⟩ := by
  have harea : Stands (.leaf "rect" [("x", number c.x), ("y", number c.y),
      ("width", number c.width), ("height", number c.height)]) ⟨"rect", _, "", []⟩ :=
    .leaf (by decide) (isName_of_keys ["x", "y", "width", "height"] rfl (by decide))
  have hid : ∀ a ∈ [("id", clipId)], IsName a.1 := isName_of_keys ["id"] rfl (by decide)
  have hpath := Stands.element (by decide : IsName "clipPath") hid (.cons harea .nil)
  exact ⟨_, ⟨⟨rfl, rfl⟩, rfl, rfl, rfl, rfl, rfl⟩,
    .element (by decide) (by simp) (.cons hpath .nil)⟩

theorem stands_bodyGroup (id : String) (b : Body α) :
    ∃ es, List.Forall₂ Stands (bodyGroup id b) es ∧ IsBody id b es := by
  obtain ⟨shapes, hshapes, hare⟩ := stands_bodyShapes b
  unfold bodyGroup
  split
  next hsize => exact ⟨[], .nil, .empty hsize⟩
  next hsize =>
    split
    next hclip =>
      have hgroup : Stands (.element "g" [] (bodyShapes b)) ⟨"g", [], "", shapes⟩ :=
        .element (by decide) (by simp) hshapes
      exact ⟨_, .cons hgroup .nil, .whole hsize hclip hare⟩
    next c hclip =>
      obtain ⟨area, harea, hdefs⟩ := stands_definition (id ++ "-clip") c
      have hgroup : Stands
          (.element "g" [("clip-path", "url(#" ++ (id ++ "-clip") ++ ")")] (bodyShapes b))
          ⟨"g", [("clip-path", "url(#" ++ (id ++ "-clip") ++ ")")], "", shapes⟩ :=
        .element (by decide) (isName_of_keys ["clip-path"] rfl (by decide)) hshapes
      exact ⟨_, .cons hdefs (.cons hgroup .nil), .clipped hsize hclip harea hare⟩

/-- The document of a frame stands for an element that shows it. -/
theorem stands_document (id : String) (f : Frame α) :
    ∃ e, Stands (document id f) e ∧ IsDocument id f e := by
  obtain ⟨rects, hrects, hrects'⟩ := stands_map stands_rect f.chrome.rects
  obtain ⟨lines, hlines, hlines'⟩ := stands_map stands_line f.chrome.lines
  obtain ⟨labels, hlabels, hlabels'⟩ := stands_map stands_label f.chrome.labels
  obtain ⟨body, hbody, hbody'⟩ := stands_bodyGroup id f.body
  have hcontent := List.rel_append (List.rel_append (List.rel_append hrects hlines) hlabels) hbody
  refine ⟨_, .element (by decide) ?_ hcontent, ⟨rfl, rfl, rfl, rfl, rfl, ?_⟩⟩
  · exact isName_of_keys ["xmlns", "xmlns:xlink", "id", "width", "height"] rfl (by decide)
  · exact ⟨rects, lines, labels, body, rfl, hrects', hlines', hlabels', hbody'⟩

/-- **What is read from a surface.** Whatever a surface is called and has shown, it shows a
    valid frame by markup from which one element is read, and this element shows the frame:
    its shapes in their order, the body in a group of its own, cut to its rectangle if there
    is one, and every shape of the body with its link.  The name of the surface, the texts,
    the links and the tooltips are read as they are, whatever characters they have. -/
theorem markup_shows_frame (id old : String) {f : Frame α} (hf : f.validate = .ok ()) :
    ∃ markup e, Surface.draw f (⟨id, old⟩ : SvgSurface) = (.ok (), ⟨id, markup⟩) ∧
      read? markup = some e ∧ IsDocument id f e := by
  obtain ⟨e, hstands, he⟩ := stands_document id f
  exact ⟨(document id f).render, e, SvgSurface.draw_valid hf _, hstands.read?_render, he⟩

end

/-- One bar, with a link and a tooltip that try to leave their places. -/
def linkedBar : Frame Float where
  viewport := ⟨20, 10⟩
  chrome := .empty
  body := {
    clip := none
    rects := [⟨1.0, 2.0, 3.0, 4.0, .black, ⟨some "p?k=\"><script>", some "</title>&lt;"⟩⟩]
    circles := []
    labels := [] }

/-- They do not, nor does the name of the surface. -/
theorem markup_shows_frame_linked_bar : linkedBar.validate = .ok () ∧
    ∃ markup e rect, Surface.draw linkedBar (⟨"a'b\"", ""⟩ : SvgSurface) =
        (.ok (), ⟨"a'b\"", markup⟩) ∧
      read? markup = some e ∧ e.attribute? "id" = some "a'b\"" ∧
      e.children = [⟨"g", [], "", [⟨"a", [("xlink:href", "p?k=\"><script>")], "",
        [⟨"title", [], "</title>&lt;", []⟩, rect]⟩]⟩] := by
  have hvalid : linkedBar.validate = .ok () := by rfl
  obtain ⟨markup, e, hdraw, hread, he⟩ := markup_shows_frame "a'b\"" "" hvalid
  obtain ⟨rects, lines, labels, body, hchildren, ⟨⟩, ⟨⟩, ⟨⟩, hbody⟩ := he.shapes
  cases hbody with
  | empty hsize => cases hsize
  | clipped hsize hclip => cases hclip
  | whole hsize hclip hshapes =>
    obtain ⟨_, _, _, rfl, hrects, ⟨⟩, ⟨⟩⟩ := hshapes
    obtain _ | ⟨hlinked, ⟨⟩⟩ := hrects
    cases hlinked with
    | titled hrect => exact ⟨hvalid, markup, e, _, hdraw, hread, he.surface, hchildren⟩

end CourseCharts.Svg
