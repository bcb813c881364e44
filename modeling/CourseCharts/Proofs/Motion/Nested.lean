/-
  CourseCharts — lists of lists on their way.

  A `Nested α depth` is a number, a list of numbers, a list of such lists, and
  so on; its parts are found at paths of indices.

  * `Nested.sameShape_blend`: on the way to a target there is the shape of the
    target, at every level;
  * `Nested.Aligned` says that along a path the lists have the lengths of their
    counterparts; there the parts are on their way too
    (`Nested.part?_blend_of_aligned`), and elsewhere they are those of the target
    (`Nested.part?_blend_of_not_aligned`);
  * `ExactBlend`: in exact arithmetic the way to a target ends there, and the way
    from a shape to itself goes nowhere.
-/
import CourseCharts.Proofs.Motion

namespace CourseCharts

/-! ## Nested lists -/

/-- Numbers in `depth` levels of lists. -/
def Nested (α : Type) : Nat → Type
  | 0 => α
  | depth + 1 => List (Nested α depth)

namespace Nested

variable {α : Type}

/-- The numbers are blended as numbers, and every level as a list. -/
instance instBlend [Scalar α] : (depth : Nat) → Blend (Nested α depth) α
  | 0 => inferInstanceAs (Blend α α)
  | depth + 1 =>
    let _ := instBlend depth
    inferInstanceAs (Blend (List (Nested α depth)) α)

/-- The same lengths at every level. -/
def SameShape : (depth : Nat) → Nested α depth → Nested α depth → Prop
  | 0, _, _ => True
  | depth + 1, as, bs => List.Forall₂ (SameShape depth) as bs

theorem SameShape.refl : ∀ (depth : Nat) (a : Nested α depth), SameShape depth a a
  | 0, _ => trivial
  | depth + 1, _ => List.forall₂_same.2 fun a _ => refl depth a

section
variable {m : Nat}

/-- The part at a path of indices, the outermost first. -/
def part? : (path : List Nat) → Nested α (m + path.length) → Option (Nested α m)
  | [], a => some a
  | i :: path, (as : List (Nested α (m + path.length))) => as[i]?.bind (part? path)

/-- The lists along a path have the lengths of their counterparts. -/
def Aligned : (path : List Nat) → Nested α (m + path.length) → Nested α (m + path.length) → Prop
  | [], _, _ => True
  | i :: path, (as : List (Nested α (m + path.length))),
      (bs : List (Nested α (m + path.length))) =>
    as.length = bs.length ∧ ∀ a ∈ as[i]?, ∀ b ∈ bs[i]?, Aligned path a b

/-- A part whose enclosing lists match has a counterpart. -/
theorem Aligned.exists_part? {x : Nested α m} :
    ∀ {path : List Nat} {a b : Nested α (m + path.length)}, Aligned path a b →
      part? path a = some x → ∃ y : Nested α m, part? path b = some y
  | [], _, b, _, _ => ⟨b, rfl⟩
  | i :: path, (as : List (Nested α (m + path.length))),
      (bs : List (Nested α (m + path.length))), ⟨hlength, haligned⟩, hx => by
    obtain ⟨a, ha, hx⟩ := Option.bind_eq_some_iff.1 hx
    obtain ⟨hi, -⟩ := List.getElem?_eq_some_iff.1 ha
    have hb : bs[i]? = some bs[i] := List.getElem?_eq_getElem (hlength ▸ hi)
    obtain ⟨y, hy⟩ := (haligned a ha _ hb).exists_part? hx
    exact ⟨y, Option.bind_eq_some_iff.2 ⟨_, hb, hy⟩⟩

end

end Nested

/-! ## The shape of the target -/

/-- What every shape on its way has in common with its target. -/
theorem forall₂_blend_target {τ α : Type} [Blend τ α] {R : τ → τ → Prop} {t : α}
    (hblend : ∀ a b, R (blend a b t) b) (hrefl : ∀ b, R b b) (as bs : List τ) :
    List.Forall₂ R (blend as bs t) bs := by
  by_cases h : as.length = bs.length
  · rw [blend_of_length_eq h]
    induction as generalizing bs with
    | nil =>
      obtain rfl := List.length_eq_zero_iff.1 h.symm
      exact .nil
    | cons a as ih =>
      cases bs with
      | nil => cases h
      | cons b bs => exact .cons (hblend a b) (ih bs (Nat.succ.inj h))
  · rw [blend_of_length_ne h]
    exact List.forall₂_same.2 fun b _ => hrefl b

namespace Nested

variable {α : Type} [Scalar α] {m : Nat}

theorem sameShape_blend (t : α) :
    ∀ (depth : Nat) (a b : Nested α depth), SameShape depth (blend a b t) b
  | 0, _, _ => trivial
  | depth + 1, as, bs =>
    forall₂_blend_target (τ := Nested α depth) (sameShape_blend t depth) (.refl depth) as bs

/-! ## The parts on their way -/

/-- A part whose enclosing lists match is on the way to its counterpart. -/
theorem part?_blend_of_aligned (t : α) {x y : Nested α m} :
    ∀ {path : List Nat} {a b : Nested α (m + path.length)}, Aligned path a b →
      part? path a = some x → part? path b = some y → part? path (blend a b t) = some (blend x y t)
  | [], _, _, _, rfl, rfl => rfl
  | i :: path, as, bs, ⟨hlength, haligned⟩, hx, hy => by
    obtain ⟨a, ha, hx⟩ := Option.bind_eq_some_iff.1 hx
    obtain ⟨b, hb, hy⟩ := Option.bind_eq_some_iff.1 hy
    refine Option.bind_eq_some_iff.2 ⟨_, getElem?_blend_of_some hlength t ha hb, ?_⟩
    exact part?_blend_of_aligned t (haligned a ha b hb) hx hy

/-- A part in a list that does not match its counterpart is that of the target. -/
theorem part?_blend_of_not_aligned (t : α) :
    ∀ {path : List Nat} {a b : Nested α (m + path.length)}, ¬ Aligned path a b →
      part? path (blend a b t) = part? path b
  | [], _, _, h => absurd trivial h
  | i :: path, (as : List (Nested α (m + path.length))),
      (bs : List (Nested α (m + path.length))), h => by
    by_cases hlength : as.length = bs.length
    · have hsome : ¬ ∀ a ∈ as[i]?, ∀ b ∈ bs[i]?, Aligned path a b := fun hall => h ⟨hlength, hall⟩
      push Not at hsome
      obtain ⟨a, ha, b, hb, hnot⟩ := hsome
      calc (blend as bs t)[i]?.bind (part? path)
          = part? path (blend a b t) := by
            rw [getElem?_blend_of_some hlength t ha hb, Option.bind_some]
        _ = part? path b := part?_blend_of_not_aligned t hnot
        _ = bs[i]?.bind (part? path) := by rw [Option.mem_def.1 hb, Option.bind_some]
    · exact congrArg (part? (i :: path)) (blend_of_length_ne hlength t)

end Nested

/-! ## Exact arithmetic -/

/-- In exact arithmetic, a way ends at its target, and a way from a shape to itself goes
    nowhere. -/
class ExactBlend (τ : Type) [Blend τ Rat] : Prop where
  blend_one : ∀ a b : τ, blend a b (1 : Rat) = b
  blend_self : ∀ (a : τ) (t : Rat), blend a a t = a

export ExactBlend (blend_one blend_self)

instance : ExactBlend Rat where
  blend_one a b := by
    change a + (b - a) * 1 = b
    ring
  blend_self a t := by
    change a + (a - a) * t = a
    ring

instance {τ : Type} [Blend τ Rat] [ExactBlend τ] : ExactBlend (List τ) where
  blend_one as bs := List.forall₂_eq_eq_eq ▸ forall₂_blend_target blend_one (fun _ => rfl) as bs
  blend_self as t := by
    rw [blend_of_length_eq rfl, List.zipWith_self]
    exact (List.map_congr_left fun a _ => blend_self a t).trans (List.map_id as)

namespace Nested

instance instExactBlend : (depth : Nat) → ExactBlend (Nested Rat depth)
  | 0 => inferInstanceAs (ExactBlend Rat)
  | depth + 1 =>
    let _ := instExactBlend depth
    inferInstanceAs (ExactBlend (List (Nested Rat depth)))

/-- At first, a number whose enclosing lists match is where it comes from. -/
theorem part?_blend_zero {path : List Nat} {a b : Nested Rat (0 + path.length)}
    (h : Aligned path a b) {x : Rat} (hx : part? path a = some x) :
    part? path (blend a b (0 : Rat)) = some x := by
  obtain ⟨y, hy⟩ := h.exists_part? hx
  rw [part?_blend_of_aligned 0 h hx hy]
  exact congrArg some (blend_zero x y)

end Nested

end CourseCharts
