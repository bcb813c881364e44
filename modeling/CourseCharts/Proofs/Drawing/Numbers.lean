/-
  CourseCharts — the numbers in a document.

  * `Svg.isNumeral_number_iff`: a number is written as a decimal number unless its
    hundredfold is too large for a double;
  * `Element.numbers` are the numbers in an element, `Xml.numbers` those in a tree;
    `Markup.Stands.numbers_eq`: they are read as they are written;
  * `Frame.written` are the numbers of a frame that are written, and
    `Svg.numbers_document`: its document has these;
  * `Frame.finite_written`: those of a valid frame are finite, except for what its
    body is cut to;
  * `Svg.numerals_unless_too_large`: which of them are shown as decimal numbers.
-/
import CourseCharts.Proofs.Drawing.Frame
import CourseCharts.Proofs.Drawing.Svg
import CourseCharts.Proofs.Number.ShortestText
import CourseCharts.Proofs.Number.Spacing
import CourseCharts.Proofs.Number.WholePart

namespace CourseCharts

open Scalar (ratOfFloat)

namespace Svg

/-! ## Numbers -/

/-- A number is rounded to hundredths before it is written. -/
theorem number_eq (x : Float) : number x =
    if Double.round (x * 100.0) / 100.0 == 0.0 then "0"
    else Double.text (Double.round (x * 100.0) / 100.0) := rfl

theorem isNumeral_number {x : Float} (h : (x * 100.0).isFinite = true) : IsNumeral (number x) := by
  have hfinite := Double.isFinite_hundredth (Double.isFinite_round h)
  rw [number_eq]
  split
  next => exact isNumeral_toString 0
  next hne => exact Double.isDecimal_text hfinite (Bool.not_eq_true _ ▸ hne)

theorem number_of_not_isFinite {x : Float} (h : (x * 100.0).isFinite = false) :
    number x ∈ ["NaN", "inf", "-inf"] := by
  have hfinite : (Double.round (x * 100.0) / 100.0).isFinite = false :=
    (congrArg Float.Model.UnpackedFloat.isFinite (Double.unpack_of_not_isFinite h)).trans h
  obtain ⟨hzero, htext⟩ := Double.text_of_not_isFinite hfinite
  rw [number_eq, hzero]
  exact htext

theorem isNumeral_number_iff (x : Float) :
    IsNumeral (number x) ↔ (x * 100.0).isFinite = true := by
  constructor
  · rintro ⟨places, q, n, hn, -⟩
    rw [← Bool.not_eq_false]
    intro h
    have hnone : ∀ s ∈ ["NaN", "inf", "-inf"], Json.Numeral.ofText? s = none := by decide
    rw [hnone _ (number_of_not_isFinite h)] at hn
    cases hn
  · exact isNumeral_number

/-! ## Numbers in elements -/

/-- The keys of the attributes that are numbers. -/
def numericKeys : List String :=
  ["x", "y", "width", "height", "cx", "cy", "r", "x1", "y1", "x2", "y2", "stroke-width",
    "fill-opacity", "stroke-opacity"]

/-- The texts of the numbers in an attribute.  A font size has its unit after the number, and a
    rotation has its numbers between parentheses. -/
def attributeNumbers (a : String × String) : List String :=
  if a.1 ∈ numericKeys then [a.2]
  else if a.1 = "font-size" then [String.ofList (a.2.toList.dropLast.dropLast)]
  else if a.1 = "transform" then
    ((a.2.toList.drop "rotate(".toList.length).dropLast.splitOn ' ').map String.ofList
  else []

/-- An attribute with another key has no numbers. -/
theorem attributeNumbers_eq_nil {key : String} (h : key ∉ numericKeys)
    (hkeys : key ≠ "font-size" ∧ key ≠ "transform") (value : String) :
    attributeNumbers (key, value) = [] := by
  rw [attributeNumbers, if_neg h, if_neg hkeys.1, if_neg hkeys.2]

end Svg

mutual

/-- The texts of the numbers in an element, in their order. -/
def Element.numbers : Element → List String
  | ⟨_, attributes, _, children⟩ =>
    attributes.flatMap Svg.attributeNumbers ++ Element.allNumbers children

/-- The texts of the numbers in some elements. -/
def Element.allNumbers : List Element → List String
  | [] => []
  | e :: es => Element.numbers e ++ Element.allNumbers es

end

mutual

/-- The texts of the numbers in a tree, in their order. -/
def Xml.numbers : Xml → List String
  | .text _ => []
  | .leaf _ attributes => attributes.flatMap Svg.attributeNumbers
  | .element _ attributes content =>
    attributes.flatMap Svg.attributeNumbers ++ Xml.allNumbers content

/-- The texts of the numbers in some trees. -/
def Xml.allNumbers : List Xml → List String
  | [] => []
  | x :: xs => Xml.numbers x ++ Xml.allNumbers xs

end

namespace Element

theorem allNumbers_append (as bs : List Element) :
    allNumbers (as ++ bs) = allNumbers as ++ allNumbers bs := by
  induction as with
  | nil => rfl
  | cons a as ih => rw [List.cons_append, allNumbers, allNumbers, ih, List.append_assoc]

theorem numbers_addChild (e child : Element) :
    (e.addChild child).numbers = e.numbers ++ child.numbers := by
  obtain ⟨name, attributes, text, children⟩ := e
  simp [addChild, numbers, allNumbers_append, allNumbers]

theorem numbers_addText (e : Element) (s : String) : (e.addText s).numbers = e.numbers := by
  obtain ⟨name, attributes, text, children⟩ := e
  simp [addText, numbers]

mutual

/-- The numbers of a tree are added to those of the element it goes into. -/
theorem numbers_add (x : Xml) (e : Element) : (e.add x).numbers = e.numbers ++ x.numbers := by
  cases x with
  | text s => rw [add, numbers_addText, Xml.numbers, List.append_nil]
  | leaf name attributes =>
    rw [add, numbers_addChild]
    simp [numbers, allNumbers, Xml.numbers]
  | element name attributes content =>
    rw [add, numbers_addChild, numbers_addAll]
    simp [numbers, allNumbers, Xml.numbers]

theorem numbers_addAll (xs : List Xml) (e : Element) :
    (e.addAll xs).numbers = e.numbers ++ Xml.allNumbers xs := by
  cases xs with
  | nil => rw [addAll, Xml.allNumbers, List.append_nil]
  | cons x xs => rw [addAll, numbers_addAll, numbers_add, Xml.allNumbers, List.append_assoc]

end

end Element

/-- What is read of a tree has its numbers. -/
theorem Markup.Stands.numbers_eq {x : Xml} {e : Element} (h : Stands x e) :
    e.numbers = x.numbers := by
  have hnone : (⟨"", [], "", []⟩ : Element).numbers = [] := rfl
  have hadd := congrArg Element.numbers (h.add ⟨"", [], "", []⟩)
  rwa [Element.numbers_add, Element.numbers_addChild, hnone, List.nil_append, List.nil_append,
    eq_comm] at hadd

theorem Xml.allNumbers_append (xs ys : List Xml) :
    allNumbers (xs ++ ys) = allNumbers xs ++ allNumbers ys := by
  induction xs with
  | nil => rfl
  | cons x xs ih => rw [List.cons_append, allNumbers, allNumbers, ih, List.append_assoc]

theorem Xml.allNumbers_map {β : Type} (f : β → Xml) (bs : List β) :
    allNumbers (bs.map f) = bs.flatMap fun b => (f b).numbers := by
  induction bs with
  | nil => rfl
  | cons b bs ih => rw [List.map_cons, allNumbers, ih, List.flatMap_cons]

/-! ## Numbers of a frame -/

section
variable {α : Type} [Scalar α]

/-- The number that tells the opacity of a color, if it is not opaque. -/
def Color.written (c : Color α) : List α := if 1.0 ≤ c.alpha then [] else [c.alpha]

/-- The numbers of a rectangle. -/
def Rect.written (r : Rect α) : List α := [r.x, r.y, r.width, r.height] ++ r.color.written

/-- The numbers of a circle. -/
def Circle.written (c : Circle α) : List α := [c.x, c.y, c.radius] ++ c.color.written

/-- The numbers of a line. -/
def Line.written (l : Line α) : List α := [l.x1, l.y1, l.x2, l.y2, l.width] ++ l.color.written

/-- The numbers of a label; one that is turned is turned about its place. -/
def Label.written (l : Label α) : List α :=
  [l.x, l.y, l.fontSize] ++ l.color.written ++
    if l.rotation == 0.0 then [] else [l.rotation, l.x, l.y]

/-- The numbers of a rectangle to cut to. -/
def Clip.written (c : Clip α) : List α := [c.x, c.y, c.width, c.height]

/-- The numbers of what a body is cut to. -/
def Body.cut (b : Body α) : List α := b.clip.elim [] Clip.written

/-- The numbers of a body.  One without shapes is not written, and neither is what it is cut to. -/
def Body.written (b : Body α) : List α :=
  if b.size = 0 then []
  else b.cut ++ b.rects.flatMap Rect.written ++
    b.circles.flatMap Circle.written ++ b.labels.flatMap Label.written

/-- The numbers in the document of a frame. -/
def Frame.written (f : Frame α) : List α :=
  f.chrome.rects.flatMap Rect.written ++ f.chrome.lines.flatMap Line.written ++
    f.chrome.labels.flatMap Label.written ++ f.body.written

/-! ### Valid shapes

What is written of a valid shape is finite, since each of its numbers is checked. -/

theorem Color.finite_written {c : Color α} (h : c.validate = .ok ()) :
    ∀ x ∈ c.written, Scalar.isFinite x = true := by
  have halpha := Color.validate_eq_ok.1 h c.alpha (by simp)
  unfold Color.written
  split
  next => simp
  next => simpa using Requirement.finite_of_holds halpha

theorem Rect.finite_written {r : Rect α} (h : r.validate = .ok ()) :
    ∀ x ∈ r.written, Scalar.isFinite x = true := by
  obtain ⟨horigin, hsize, hcolor⟩ := Rect.validate_eq_ok.1 h
  have hsize' : ∀ x ∈ [r.width, r.height], Scalar.isFinite x = true :=
    fun x hx => Requirement.finite_of_holds (hsize x hx)
  exact List.forall_mem_append.2
    ⟨List.forall_mem_append.2 ⟨horigin, hsize'⟩, Color.finite_written hcolor⟩

theorem Circle.finite_written {c : Circle α} (h : c.validate = .ok ()) :
    ∀ x ∈ c.written, Scalar.isFinite x = true := by
  obtain ⟨hcenter, hradius, hcolor⟩ := Circle.validate_eq_ok.1 h
  have hradius' : ∀ x ∈ [c.radius], Scalar.isFinite x = true := by
    simpa using Requirement.finite_of_holds hradius
  exact List.forall_mem_append.2
    ⟨List.forall_mem_append.2 ⟨hcenter, hradius'⟩, Color.finite_written hcolor⟩

theorem Line.finite_written {l : Line α} (h : l.validate = .ok ()) :
    ∀ x ∈ l.written, Scalar.isFinite x = true := by
  obtain ⟨hends, hwidth, hcolor⟩ := Line.validate_eq_ok.1 h
  have hwidth' : ∀ x ∈ [l.width], Scalar.isFinite x = true := by
    simpa using Requirement.finite_of_holds hwidth
  exact List.forall_mem_append.2
    ⟨List.forall_mem_append.2 ⟨hends, hwidth'⟩, Color.finite_written hcolor⟩

theorem Label.finite_written {l : Label α} (h : l.validate = .ok ()) :
    ∀ x ∈ l.written, Scalar.isFinite x = true := by
  obtain ⟨-, hplace, hsize, hcolor⟩ := Label.validate_eq_ok.1 h
  have hsize' := Requirement.finite_of_holds hsize
  simp only [List.forall_mem_cons] at hplace
  obtain ⟨hx, hy, hrotation, -⟩ := hplace
  refine List.forall_mem_append.2 ⟨List.forall_mem_append.2 ⟨?_, Color.finite_written hcolor⟩, ?_⟩
  · simp [hx, hy, hsize']
  · split <;> simp [hx, hy, hrotation]

/-- What is written of a valid frame is finite, except for what its body is cut to. -/
theorem Frame.finite_written {f : Frame α} (h : f.validate = .ok ()) :
    ∀ x ∈ f.written, Scalar.isFinite x = true ∨ x ∈ f.body.cut := by
  obtain ⟨-, hchrome, hbody⟩ := Frame.validate_eq_ok.1 h
  have hshapes {β : Type} {g : β → List α} {bs : List β}
      (hbs : ∀ b ∈ bs, ∀ x ∈ g b, Scalar.isFinite x = true) :
      ∀ x ∈ bs.flatMap g, Scalar.isFinite x = true ∨ x ∈ f.body.cut := by
    intro x hx
    obtain ⟨b, hb, hx⟩ := List.mem_flatMap.1 hx
    exact .inl (hbs b hb x hx)
  have hrects {rs : List (Rect α)} (hrs : ∀ r ∈ rs, r.validate = .ok ()) :=
    hshapes fun r hr => Rect.finite_written (hrs r hr)
  have hlabels {ls : List (Label α)} (hls : ∀ l ∈ ls, l.validate = .ok ()) :=
    hshapes fun l hl => Label.finite_written (hls l hl)
  have hlines := hshapes fun l hl => Line.finite_written (hchrome.lines l hl)
  have hcircles := hshapes fun c hc => Circle.finite_written (hbody.circles c hc)
  have hwritten : ∀ x ∈ f.body.written, Scalar.isFinite x = true ∨ x ∈ f.body.cut := by
    unfold Body.written
    split
    next => simp
    next =>
      simp only [List.forall_mem_append]
      exact ⟨⟨⟨fun x hx => .inr hx, hrects hbody.rects⟩, hcircles⟩, hlabels hbody.labels⟩
  simp only [Frame.written, List.forall_mem_append]
  exact ⟨⟨⟨hrects hchrome.rects, hlines⟩, hlabels hchrome.labels⟩, hwritten⟩

namespace Svg

theorem attributeNumbers_opacity {name : String} (h : name ∈ numericKeys) (c : Color α) :
    (opacity name c).flatMap attributeNumbers = c.written.map number := by
  unfold opacity Color.written
  split
  next => rfl
  next => simp [attributeNumbers, h]

theorem attributeNumbers_fill (c : Color α) :
    (fill c).flatMap attributeNumbers = c.written.map number :=
  attributeNumbers_opacity (by decide) c

theorem attributeNumbers_clip (c : Clip α) :
    [("x", number c.x), ("y", number c.y), ("width", number c.width),
      ("height", number c.height)].flatMap attributeNumbers = c.written.map number := rfl

theorem numbers_rect (r : Rect α) : (rect r).numbers = r.written.map number := by
  rw [rect, Xml.numbers, List.flatMap_append, attributeNumbers_fill, Rect.written, List.map_append]
  rfl

theorem numbers_circle (c : Circle α) : (circle c).numbers = c.written.map number := by
  rw [circle, Xml.numbers, List.flatMap_append, attributeNumbers_fill, Circle.written,
    List.map_append]
  rfl

theorem numbers_line (l : Line α) : (line l).numbers = l.written.map number := by
  rw [line, Xml.numbers, List.flatMap_append, attributeNumbers_opacity (by decide), Line.written,
    List.map_append]
  rfl

/-- Links and tooltips have no numbers. -/
theorem numbers_linked (link : Link) (shape : Xml) :
    (linked link shape).numbers = shape.numbers := by
  have htitle (tooltip : String) : (title tooltip).numbers = [] := by
    simp [title, Xml.numbers, Xml.allNumbers]
  have hhref := attributeNumbers_eq_nil (by decide : "xlink:href" ∉ numericKeys) (by decide)
  obtain ⟨_ | href, _ | tooltip⟩ := link <;>
    simp [linked, Xml.numbers, Xml.allNumbers, htitle, hhref]

end Svg

end

namespace Svg

theorem space_not_mem_number (x : Float) : ' ' ∉ (number x).toList := by
  by_cases h : (x * 100.0).isFinite = true
  · obtain ⟨places, q, hdecimal⟩ := isNumeral_number h
    obtain ⟨whole, fraction, hlist, -, -, -, hdigits, -⟩ := hdecimal.toList_eq
    rw [List.forall_mem_append] at hdigits
    have hspace {ds : List Char} (hds : ∀ c ∈ ds, c.isDigit = true) : ' ' ∉ ds :=
      fun hmem => absurd (hds _ hmem) (by decide)
    have hwhole := hspace hdigits.1
    have hfraction := hspace hdigits.2
    rw [hlist]
    split_ifs <;> simp [hwhole, hfraction]
  · have hspaces : ∀ s ∈ ["NaN", "inf", "-inf"], ' ' ∉ s.toList := by decide
    exact hspaces _ (number_of_not_isFinite (Bool.not_eq_true _ ▸ h))

/-- The numbers of a rotation. -/
theorem attributeNumbers_rotation (x y z : Float) :
    attributeNumbers ("transform",
      "rotate(" ++ number x ++ " " ++ number y ++ " " ++ number z ++ ")") =
      [number x, number y, number z] := by
  have hwords : ("rotate(" ++ number x ++ " " ++ number y ++ " " ++ number z ++ ")").toList =
      "rotate(".toList ++ ([' '].intercalate [(number x).toList, (number y).toList,
        (number z).toList] ++ [')']) := by
    simp [List.intercalate]
  have hspaces : ∀ s ∈ [(number x).toList, (number y).toList, (number z).toList], ' ' ∉ s := by
    simp [space_not_mem_number]
  have hkey : "transform" ∉ numericKeys ∧ "transform" ≠ "font-size" := by decide
  rw [attributeNumbers, if_neg hkey.1, if_neg hkey.2, if_pos rfl, hwords, List.drop_left,
    List.dropLast_concat, List.splitOn_intercalate _ hspaces (by simp)]
  simp

/-- The number of a font size. -/
theorem attributeNumbers_fontSize (x : Float) :
    attributeNumbers ("font-size", number x ++ "px") = [number x] := by
  have hkey : "font-size" ∉ numericKeys := by decide
  have hunit : (number x ++ "px").toList = (number x).toList ++ ['p'] ++ ['x'] := by simp
  rw [attributeNumbers, if_neg hkey, if_pos rfl, hunit, List.dropLast_concat,
    List.dropLast_concat, String.ofList_toList]

theorem numbers_label (l : Label Float) : (label l).numbers = l.written.map number := by
  have hrotation : (rotation l).flatMap attributeNumbers =
      (if l.rotation == 0.0 then [] else [l.rotation, l.x, l.y]).map number := by
    unfold rotation
    split
    next => rfl
    next => rw [List.flatMap_singleton, attributeNumbers_rotation]; rfl
  have hattributes : [("x", number l.x), ("y", number l.y),
      ("font-size", number l.fontSize ++ "px"),
      ("text-anchor", anchor l.align)].flatMap attributeNumbers =
      [l.x, l.y, l.fontSize].map number := by
    have hanchor := attributeNumbers_eq_nil (by decide : "text-anchor" ∉ numericKeys) (by decide)
    simp only [List.flatMap_cons, attributeNumbers_fontSize, hanchor]
    rfl
  rw [label, Xml.numbers, List.flatMap_append, List.flatMap_append, hattributes, hrotation,
    attributeNumbers_fill, Label.written, List.map_append, List.map_append]
  simp [Xml.allNumbers, Xml.numbers]

theorem numbers_bodyShapes (b : Body Float) :
    Xml.allNumbers (bodyShapes b) = (b.rects.flatMap Rect.written ++
      b.circles.flatMap Circle.written ++ b.labels.flatMap Label.written).map number := by
  simp only [bodyShapes, Xml.allNumbers_append, Xml.allNumbers_map, numbers_linked, numbers_rect,
    numbers_circle, numbers_label, List.map_append, List.map_flatMap]

theorem numbers_bodyGroup (id : String) (b : Body Float) :
    Xml.allNumbers (bodyGroup id b) = b.written.map number := by
  have hid := attributeNumbers_eq_nil (by decide : "id" ∉ numericKeys) (by decide)
  have hpath := attributeNumbers_eq_nil (by decide : "clip-path" ∉ numericKeys) (by decide)
  unfold bodyGroup Body.written
  split
  next => rfl
  next =>
    split
    next hclip =>
      simp only [Xml.allNumbers, Xml.numbers, numbers_bodyShapes, Body.cut, hclip, List.flatMap_nil,
        List.nil_append, List.append_nil, Option.elim_none]
    next c hclip =>
      simp only [Xml.allNumbers, Xml.numbers, numbers_bodyShapes, Body.cut, hclip, List.flatMap_nil,
        List.flatMap_singleton, hid, hpath, List.nil_append, List.append_nil, Option.elim_some,
        attributeNumbers_clip, List.map_append, List.append_assoc]

/-- The numbers of a document are the sizes of the viewport and what is written of the frame. -/
theorem numbers_document (id : String) (f : Frame Float) :
    (document id f).numbers =
      [toString f.viewport.width, toString f.viewport.height] ++ f.written.map number := by
  have hkeys : [("xmlns", "http://www.w3.org/2000/svg"),
      ("xmlns:xlink", "http://www.w3.org/1999/xlink"), ("id", id),
      ("width", toString f.viewport.width), ("height", toString f.viewport.height)].flatMap
      attributeNumbers = [toString f.viewport.width, toString f.viewport.height] := rfl
  rw [document, Xml.numbers, hkeys]
  simp only [Xml.allNumbers_append, Xml.allNumbers_map, numbers_rect, numbers_line, numbers_label,
    numbers_bodyGroup, Frame.written, List.map_append, List.map_flatMap]

/-! ## Numerals -/

/-- There is room for the hundredfold of a number that is not too large. -/
theorem isFinite_hundredfold {x : Float} (hx : x.isFinite = true)
    (hbound : |ratOfFloat x| ≤ 2 ^ 1016) : (x * 100.0).isFinite = true := by
  have hrounds := Double.mul_rounds hx (y := 100.0) rfl
  rw [Double.ratOfFloat_hundred] at hrounds
  refine hrounds.isFinite Double.representable_zero ?_
  rw [zero_sub, abs_neg, abs_mul, abs_of_pos (by norm_num : (0 : Rat) < 100)]
  calc |ratOfFloat x| * 100 + |ratOfFloat x| * 100 = |ratOfFloat x| * 200 := by ring
    _ ≤ 2 ^ 1016 * 200 := by gcongr
    _ < 2 ^ 1016 * 2 ^ 8 := by gcongr; norm_num
    _ = 2 ^ 1024 := (pow_add ..).symm

/-- **The numbers of a document are decimal numbers, unless they are too large.** A surface shows a
    valid frame by markup whose numbers are the sizes of the viewport and what is written of the
    frame: positions, sizes, radii, widths, font sizes, rotations and opacities, and the rectangle
    that the body is cut to.
    These numbers are finite, except for the rectangle, which is not checked.  Each is written as a
    decimal number, with a minus sign exactly if this is negative, as long as its hundredfold is
    finite, which it is up to `2^1016`; otherwise it is written as `NaN`, `inf` or `-inf`.  So all
    numbers of the markup are decimal numbers exactly if no hundredfold is too large. -/
theorem numerals_unless_too_large (id old : String) {f : Frame Float} (hf : f.validate = .ok ()) :
    ∃ markup e, Surface.draw f (⟨id, old⟩ : SvgSurface) = (.ok (), ⟨id, markup⟩) ∧
      Markup.read? markup = some e ∧
      e.numbers = [toString f.viewport.width, toString f.viewport.height] ++
        f.written.map number ∧
      (∀ x ∈ f.written, x.isFinite = true ∨ x ∈ f.body.cut) ∧
      (∀ x ∈ f.written, IsNumeral (number x) ↔ (x * 100.0).isFinite = true) ∧
      (∀ x ∈ f.written, x.isFinite = true → |ratOfFloat x| ≤ 2 ^ 1016 → IsNumeral (number x)) ∧
      (∀ s ∈ e.numbers, IsNumeral s ∨ s ∈ ["NaN", "inf", "-inf"]) ∧
      ((∀ s ∈ e.numbers, IsNumeral s) ↔ ∀ x ∈ f.written, (x * 100.0).isFinite = true) := by
  obtain ⟨e, hstands, -⟩ := stands_document id f
  have hnumbers := hstands.numbers_eq.trans (numbers_document id f)
  have hsizes : ∀ s ∈ [toString f.viewport.width, toString f.viewport.height], IsNumeral s :=
    List.forall_mem_cons.2 ⟨isNumeral_toString _, by simpa using isNumeral_toString _⟩
  refine ⟨(document id f).render, e, SvgSurface.draw_valid hf _, hstands.read?_render, hnumbers,
    Frame.finite_written hf, fun x _ => isNumeral_number_iff x,
    fun x _ hx hbound => isNumeral_number (isFinite_hundredfold hx hbound), ?_, ?_⟩
  · rw [hnumbers]
    refine List.forall_mem_append.2 ⟨fun s hs => .inl (hsizes s hs), List.forall_mem_map.2 ?_⟩
    intro x hx
    by_cases h : (x * 100.0).isFinite = true
    · exact .inl (isNumeral_number h)
    · exact .inr (number_of_not_isFinite (Bool.not_eq_true _ ▸ h))
  · rw [hnumbers, List.forall_mem_append, List.forall_mem_map]
    simp only [isNumeral_number_iff]
    exact and_iff_right hsizes

/-- The double `2^1020`, whose hundredfold is too large. -/
def farAway : Float := Float.ofBits 0x7FB0000000000000

/-- A line from far away. -/
def farLine : Frame Float where
  viewport := ⟨20, 10⟩
  chrome := { lines := [⟨farAway, 2.0, 3.0, 4.0, 1.0, .black⟩], rects := [], labels := [] }
  body := .empty

/-- It is valid, and that point is not shown as a number. -/
theorem numerals_unless_too_large_far_line : farLine.validate = .ok () ∧
    ∃ markup e, Surface.draw farLine (⟨"chart", ""⟩ : SvgSurface) = (.ok (), ⟨"chart", markup⟩) ∧
      Markup.read? markup = some e ∧ e.numbers = ["20", "10", "inf", "2", "3", "4", "1"] ∧
      ¬ ∀ s ∈ e.numbers, IsNumeral s := by
  have hvalid : farLine.validate = .ok () := by rfl
  have hwritten : farLine.written.map number = ["inf", "2", "3", "4", "1"] := by decide +kernel
  have hfar : farAway ∈ farLine.written := by
    have hcons : farLine.written = farAway :: [2.0, 3.0, 4.0, 1.0] := rfl
    rw [hcons]
    exact List.mem_cons_self
  obtain ⟨markup, e, hdraw, hread, hnumbers, -, -, -, -, hall⟩ :=
    numerals_unless_too_large "chart" "" hvalid
  refine ⟨hvalid, markup, e, hdraw, hread, ?_, fun h => ?_⟩
  · rw [hnumbers, hwritten]
    rfl
  · have hfinite := hall.1 h _ hfar
    exact absurd hfinite (by decide)

end Svg

end CourseCharts
