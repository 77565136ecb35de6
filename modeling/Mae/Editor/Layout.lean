import Mae.Editor.Windows

/-! Layout trees with their split ratios, and the rectangles they divide the screen into. -/

namespace Mae.Editor

open List

structure Rect where
  x : UInt16
  y : UInt16
  width : UInt16
  height : UInt16
  deriving DecidableEq

def Rect.contains (r : Rect) (col row : UInt16) : Bool :=
  col ≥ r.x && col < r.x + r.width && row ≥ r.y && row < r.y + r.height

class SplitRatio (R : Type) where
  half : R
  add : R → R → R
  neg : R → R
  clamp : R → R
  lesser : R → R
  scale : UInt16 → R → UInt16
  Fraction : R → Prop
  scale_le : ∀ n r, Fraction r → scale n r ≤ n

open SplitRatio

inductive SizedNode (R : Type) where
  | leaf (id : WindowId)
  | split (direction : SplitDirection) (ratio : R) (first second : SizedNode R)
  | group (label : String) (inner : SizedNode R)

namespace SizedNode

variable {R : Type}

def shape : SizedNode R → LayoutNode
  | leaf id => .leaf id
  | split direction _ first second => .split direction first.shape second.shape
  | group label inner => .group label inner.shape

def parts [SplitRatio R] (area : Rect) (ratio : R) : SplitDirection → Rect × Rect
  | .vertical =>
    let firstWidth := scale area.width ratio
    ({ area with width := firstWidth }, { area with x := area.x + firstWidth, width := area.width - firstWidth })
  | .horizontal =>
    let firstHeight := scale area.height ratio
    ({ area with height := firstHeight }, { area with y := area.y + firstHeight, height := area.height - firstHeight })

def computeRects [SplitRatio R] : SizedNode R → Rect → List (WindowId × Rect)
  | leaf id, area => [(id, area)]
  | split direction ratio first second, area =>
    first.computeRects (parts area ratio direction).1 ++ second.computeRects (parts area ratio direction).2
  | group _ inner, area => inner.computeRects area

def windowAtCell [SplitRatio R] (n : SizedNode R) (col row : UInt16) (total : Rect) : Option WindowId :=
  ((n.computeRects total).find? fun e => e.2.contains col row).map (·.1)

def Fractions [SplitRatio R] : SizedNode R → Prop
  | leaf _ => True
  | split _ ratio first second => Fraction ratio ∧ first.Fractions ∧ second.Fractions
  | group _ inner => inner.Fractions

end SizedNode

namespace Rect

def Holds (r : Rect) (col row : ℕ) : Prop :=
  r.x.toNat ≤ col ∧ col < r.x.toNat + r.width.toNat ∧ r.y.toNat ≤ row ∧ row < r.y.toNat + r.height.toNat
  deriving Decidable

def Fits (r : Rect) : Prop := r.x.toNat + r.width.toNat < 2 ^ 16 ∧ r.y.toNat + r.height.toNat < 2 ^ 16

def Inside (r s : Rect) : Prop :=
  s.x.toNat ≤ r.x.toNat ∧ r.x.toNat + r.width.toNat ≤ s.x.toNat + s.width.toNat ∧
    s.y.toNat ≤ r.y.toNat ∧ r.y.toNat + r.height.toNat ≤ s.y.toNat + s.height.toNat

variable {r s t : Rect}

lemma Inside.trans (h : r.Inside s) (h' : s.Inside t) : r.Inside t := by
  unfold Inside at *
  omega

lemma Inside.fits (h : r.Inside s) (hs : s.Fits) : r.Fits := by
  unfold Inside Fits at *
  omega

lemma contains_iff (hr : r.Fits) (col row : UInt16) : r.contains col row = true ↔ r.Holds col.toNat row.toNat := by
  have hx : (r.x + r.width).toNat = r.x.toNat + r.width.toNat := by
    rw [UInt16.toNat_add, Nat.mod_eq_of_lt hr.1]
  have hy : (r.y + r.height).toNat = r.y.toNat + r.height.toNat := by
    rw [UInt16.toNat_add, Nat.mod_eq_of_lt hr.2]
  simp [contains, Holds, UInt16.le_iff_toNat_le, UInt16.lt_iff_toNat_lt, hx, hy, and_assoc]

end Rect

structure Tiles (rects : List (WindowId × Rect)) (area : Rect) : Prop where
  inside : ∀ e ∈ rects, e.2.Inside area
  count : ∀ col row, rects.countP (fun e => e.2.Holds col row) = if area.Holds col row then 1 else 0

namespace SizedNode

variable {R : Type} [SplitRatio R] {n : SizedNode R} {area : Rect} {ratio : R}

lemma toNat_part {edge length cut : UInt16} (hcut : cut ≤ length) (hfits : edge.toNat + length.toNat < 2 ^ 16) :
    cut.toNat ≤ length.toNat ∧ (edge + cut).toNat = edge.toNat + cut.toNat ∧
      (length - cut).toNat = length.toNat - cut.toNat := by
  have hle := UInt16.le_iff_toNat_le.mp hcut
  refine ⟨hle, ?_, UInt16.toNat_sub_of_le _ _ hcut⟩
  rw [UInt16.toNat_add, Nat.mod_eq_of_lt (by omega)]

lemma parts_inside (h : Fraction ratio) (harea : area.Fits) (direction : SplitDirection) :
    (parts area ratio direction).1.Inside area ∧ (parts area ratio direction).2.Inside area := by
  cases direction with
  | vertical =>
    have := toNat_part (scale_le area.width ratio h) harea.1
    simp only [parts, Rect.Inside]
    omega
  | horizontal =>
    have := toNat_part (scale_le area.height ratio h) harea.2
    simp only [parts, Rect.Inside]
    omega

lemma ite_add_ite {P Q S : Prop} [Decidable P] [Decidable Q] [Decidable S] (hor : P ∨ Q ↔ S) (hand : ¬(P ∧ Q)) :
    ((if P then 1 else 0) + if Q then 1 else 0) = if S then 1 else 0 := by
  by_cases hP : P <;> by_cases hQ : Q <;> simp_all

lemma parts_holds (h : Fraction ratio) (harea : area.Fits) (direction : SplitDirection) (col row : ℕ) :
    ((if (parts area ratio direction).1.Holds col row then 1 else 0) +
      if (parts area ratio direction).2.Holds col row then 1 else 0) = if area.Holds col row then 1 else 0 := by
  cases direction with
  | vertical =>
    have := toNat_part (scale_le area.width ratio h) harea.1
    apply ite_add_ite <;> simp only [parts, Rect.Holds] <;> omega
  | horizontal =>
    have := toNat_part (scale_le area.height ratio h) harea.2
    apply ite_add_ite <;> simp only [parts, Rect.Holds] <;> omega

lemma tiles_computeRects (hn : n.Fractions) (harea : area.Fits) : Tiles (n.computeRects area) area := by
  induction n generalizing area with
  | leaf id =>
    refine ⟨fun e he => ?_, fun col row => ?_⟩
    · rw [mem_singleton.mp he]
      exact ⟨le_rfl, le_rfl, le_rfl, le_rfl⟩
    · simp [computeRects, countP_cons]
  | group label inner ih => exact ih hn harea
  | split direction ratio first second ih ih' =>
    obtain ⟨hratio, hfirst, hsecond⟩ := hn
    obtain ⟨hin, hin'⟩ := parts_inside hratio harea direction
    have htiles := ih hfirst (hin.fits harea)
    have htiles' := ih' hsecond (hin'.fits harea)
    refine ⟨fun e he => ?_, fun col row => ?_⟩
    · obtain he | he := mem_append.mp he
      · exact (htiles.inside e he).trans hin
      · exact (htiles'.inside e he).trans hin'
    · rw [computeRects, countP_append, htiles.count, htiles'.count, parts_holds hratio harea]

end SizedNode

lemma pairwise_of_countP_le_one {α : Type} {p : α → Bool} {xs : List α} (h : xs.countP p ≤ 1) :
    xs.Pairwise fun x y => ¬(p x = true ∧ p y = true) := by
  induction xs with
  | nil => exact Pairwise.nil
  | cons x xs ih =>
    rw [countP_cons] at h
    refine pairwise_cons.mpr ⟨?_, ih (by omega)⟩
    rintro y hy ⟨hx, hpy⟩
    have hpos : 0 < xs.countP p := countP_pos_iff.mpr ⟨y, hy, hpy⟩
    rw [if_pos hx] at h
    omega

variable {R : Type} [SplitRatio R]

/-- Ratios in per cent. -/
structure Percent where
  value : ℤ

instance : SplitRatio Percent where
  half := ⟨50⟩
  add r r' := ⟨r.value + r'.value⟩
  neg r := ⟨-r.value⟩
  clamp r := ⟨max 10 (min 90 r.value)⟩
  lesser r := ⟨min r.value (100 - r.value)⟩
  scale n r := UInt16.ofNat (n.toNat * r.value.toNat / 100)
  Fraction r := 0 ≤ r.value ∧ r.value ≤ 100
  scale_le n r h := by
    have hle : n.toNat * r.value.toNat / 100 ≤ n.toNat := by
      have := Nat.mul_le_mul_left n.toNat (show r.value.toNat ≤ 100 by omega)
      omega
    have hn := n.toNat_lt
    rw [UInt16.le_iff_toNat_le, UInt16.toNat_ofNat_of_lt' (hle.trans_lt hn)]
    exact hle

def halves : SizedNode Percent := .split .vertical ⟨50⟩ (.leaf 0) (.leaf 1)

end Mae.Editor
