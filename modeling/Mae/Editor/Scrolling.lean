import Mathlib.Data.Nat.Cast.Basic
import Mathlib.Algebra.Order.BigOperators.Group.Finset
import Mathlib.Algebra.BigOperators.Intervals
import Mathlib.Order.Interval.Finset.Nat

/-! How a window with wrapped lines scrolls to its cursor. -/

namespace Mae.Editor

open Finset

structure View (P : Type) where
  cursorRow : ℕ
  scrollOffset : ℕ
  scrollPixelOffset : P

structure Viewport where
  viewportHeight : ℕ
  scrolloff : ℕ
  lineCount : ℕ
  lineVisualRows : ℕ → ℕ
  one_le : ∀ line, 1 ≤ lineVisualRows line

namespace Viewport

variable (w : Viewport)

def margin : ℕ := min w.scrolloff (w.viewportHeight / 2)

def topMargin (cursor : ℕ) : ℕ := min w.margin cursor

def bottomMargin (cursor : ℕ) : ℕ := min w.margin (w.lineCount - (cursor + 1))

-- The lines above `line` that are walked until `rows` has grown to `top`.
def marginAboveLines (top : ℕ) : ℕ → ℕ → ℕ
  | 0, _ => 0
  | line + 1, rows => if rows < top then marginAboveLines top line (rows + w.lineVisualRows line) + 1 else 0

def topTarget (cursor : ℕ) : ℕ := cursor - w.marginAboveLines (w.topMargin cursor) cursor 0

-- The first argument counts the lines from `line` to the cursor's.
def fits (bottom : ℕ) : ℕ → ℕ → ℕ → Bool
  | 0, line, visual => visual + w.lineVisualRows line + bottom ≤ w.viewportHeight
  | k + 1, line, visual =>
    if visual + w.lineVisualRows line ≥ w.viewportHeight then false
    else fits bottom k (line + 1) (visual + w.lineVisualRows line)

def cursorVisible (cursor offset : ℕ) : Bool :=
  offset ≤ cursor && w.fits (w.bottomMargin cursor) (cursor - offset) offset 0

def walkBack : ℕ → ℕ → ℕ
  | 0, _ => 0
  | line + 1, budget =>
    if w.lineVisualRows line > budget then line + 1 else walkBack line (budget - w.lineVisualRows line)

def budget (cursor : ℕ) : ℕ :=
  w.viewportHeight - min (w.lineVisualRows cursor) w.viewportHeight - w.bottomMargin cursor

def bottomTarget (cursor : ℕ) : ℕ := w.walkBack cursor (w.budget cursor)

def distance (cursor offset : ℕ) : ℕ := if cursor > offset then cursor - offset else offset - cursor

def ensureScrollWrappedWithMargin {P : Type} [Zero P] (v : View P) : View P :=
  if w.viewportHeight = 0 then v
  else if distance v.cursorRow v.scrollOffset > w.viewportHeight * 10 then
    { v with scrollOffset := v.cursorRow - w.margin, scrollPixelOffset := 0 }
  else if w.topTarget v.cursorRow < v.scrollOffset then
    { v with scrollOffset := w.topTarget v.cursorRow, scrollPixelOffset := 0 }
  else if w.cursorVisible v.cursorRow v.scrollOffset then v
  else if w.bottomTarget v.cursorRow ≠ v.scrollOffset then
    { v with scrollOffset := w.bottomTarget v.cursorRow, scrollPixelOffset := 0 }
  else v

def rowsBetween (a b : ℕ) : ℕ := ∑ line ∈ Ico a b, w.lineVisualRows line

def Settles {P : Type} [Zero P] (v : View P) : Prop :=
  let settled := w.ensureScrollWrappedWithMargin (w.ensureScrollWrappedWithMargin v)
  settled.scrollOffset ≤ v.cursorRow ∧ w.rowsBetween settled.scrollOffset v.cursorRow < w.viewportHeight ∧
    w.ensureScrollWrappedWithMargin settled = settled

def MarginsFit (cursor : ℕ) : Prop :=
  w.topMargin cursor = 0 ∨ ∃ k ≤ cursor, w.topMargin cursor ≤ w.rowsBetween (cursor - k) cursor ∧
    w.rowsBetween (cursor - k) cursor + min (w.lineVisualRows cursor) w.viewportHeight + w.bottomMargin cursor ≤
      w.viewportHeight

variable {w} {a b c cursor : ℕ}

lemma rowsBetween_self : w.rowsBetween a a = 0 := by simp [rowsBetween]

lemma rowsBetween_succ (h : a ≤ b) : w.rowsBetween a (b + 1) = w.rowsBetween a b + w.lineVisualRows b :=
  sum_Ico_succ_top h _

lemma rowsBetween_of_lt (h : a < b) : w.rowsBetween a b = w.lineVisualRows a + w.rowsBetween (a + 1) b :=
  sum_eq_sum_Ico_succ_bot h _

lemma rowsBetween_anti (h : a ≤ b) : w.rowsBetween b c ≤ w.rowsBetween a c :=
  sum_le_sum_of_subset (Ico_subset_Ico_left h)

lemma le_rowsBetween : b - a ≤ w.rowsBetween a b := by
  have h := card_nsmul_le_sum (Ico a b) w.lineVisualRows 1 fun line _ => w.one_le line
  rwa [Nat.card_Ico, nsmul_one] at h

lemma walkBack_le {line budget : ℕ} : w.walkBack line budget ≤ line := by
  induction line generalizing budget with
  | zero => exact le_rfl
  | succ line ih =>
    rw [walkBack]
    split
    · exact le_rfl
    · exact ih.trans (Nat.le_succ line)

lemma walkBack_le_iff {line budget : ℕ} (h : a ≤ line) :
    w.walkBack line budget ≤ a ↔ w.rowsBetween a line ≤ budget := by
  induction line generalizing budget with
  | zero =>
    obtain rfl := Nat.le_zero.mp h
    simp [walkBack, rowsBetween_self]
  | succ line ih =>
    obtain rfl | hlt := Nat.eq_or_lt_of_le h
    · simp [walkBack_le, rowsBetween_self]
    · have hrows := w.rowsBetween_succ (Nat.lt_succ_iff.mp hlt)
      rw [walkBack]
      split
      · omega
      · rw [ih (Nat.lt_succ_iff.mp hlt)]
        omega

lemma fits_iff {bottom k line visual : ℕ} : w.fits bottom k line visual = true ↔
      visual + w.rowsBetween line (line + k) + w.lineVisualRows (line + k) + bottom ≤ w.viewportHeight := by
  induction k generalizing line visual with
  | zero => simp [fits, rowsBetween_self]
  | succ k ih =>
    have hsum := w.rowsBetween_of_lt (show line < line + (k + 1) by omega)
    have hcursor := w.one_le (line + (k + 1))
    have hassoc : line + 1 + k = line + (k + 1) := by omega
    rw [fits]
    split
    · simp only [Bool.false_eq_true, false_iff]
      omega
    · rw [ih, hassoc]
      omega

lemma cursorVisible_iff (h : a ≤ cursor) : w.cursorVisible cursor a = true ↔
      w.rowsBetween a cursor + w.lineVisualRows cursor + w.bottomMargin cursor ≤ w.viewportHeight := by
  have hsplit : a + (cursor - a) = cursor := Nat.add_sub_of_le h
  simp only [cursorVisible, h, decide_true, Bool.true_and, fits_iff, hsplit, zero_add]

lemma marginAboveLines_spec (top line rows : ℕ) : w.marginAboveLines top line rows ≤ min line (top - rows) ∧
      (top ≤ rows + w.rowsBetween (line - w.marginAboveLines top line rows) line ∨
        w.marginAboveLines top line rows = line) ∧
      ∀ k ≤ line, top ≤ rows + w.rowsBetween (line - k) line → w.marginAboveLines top line rows ≤ k := by
  induction line generalizing rows with
  | zero => simp [marginAboveLines]
  | succ line ih =>
    rw [marginAboveLines]
    split
    · obtain ⟨hle, hreach, hleast⟩ := ih (rows + w.lineVisualRows line)
      have hone := w.one_le line
      have hsucc : ∀ k ≤ line, w.rowsBetween (line + 1 - (k + 1)) (line + 1) =
          w.rowsBetween (line - k) line + w.lineVisualRows line := fun k _ => by
        rw [Nat.add_sub_add_right, rowsBetween_succ (Nat.sub_le line k)]
      refine ⟨by omega, ?_, fun k hk hrows => ?_⟩
      · have hlines := hsucc _ (hle.trans (min_le_left _ _))
        omega
      · cases k with
        | zero =>
          rw [Nat.sub_zero, rowsBetween_self] at hrows
          omega
        | succ k =>
          rw [hsucc k (by omega)] at hrows
          have := hleast k (by omega) (by omega)
          omega
    · exact ⟨Nat.zero_le _, .inl (by omega), fun _ _ _ => Nat.zero_le _⟩

lemma topTarget_le : w.topTarget cursor ≤ cursor := Nat.sub_le _ _

lemma sub_margin_le_topTarget (cursor : ℕ) : cursor - w.margin ≤ w.topTarget cursor := by
  have hle := (w.marginAboveLines_spec (w.topMargin cursor) cursor 0).1
  rw [topTarget, topMargin] at *
  omega

lemma bottomTarget_le_iff (h : a ≤ cursor) :
    w.bottomTarget cursor ≤ a ↔ w.rowsBetween a cursor ≤ w.budget cursor := walkBack_le_iff h

lemma rowsBetween_bottomTarget (cursor : ℕ) : w.rowsBetween (w.bottomTarget cursor) cursor ≤ w.budget cursor :=
  (bottomTarget_le_iff walkBack_le).mp le_rfl

lemma bottomTarget_le_topTarget_iff : w.bottomTarget cursor ≤ w.topTarget cursor ↔ w.MarginsFit cursor := by
  obtain ⟨hle, hreach, hleast⟩ := w.marginAboveLines_spec (w.topMargin cursor) cursor 0
  rw [bottomTarget_le_iff topTarget_le, MarginsFit, topTarget]
  generalize w.marginAboveLines (w.topMargin cursor) cursor 0 = lines at *
  have hmargin : w.topMargin cursor ≤ cursor := min_le_right _ _
  have hrows : w.topMargin cursor ≤ w.rowsBetween (cursor - lines) cursor := by
    obtain h | rfl := hreach
    · omega
    · have := w.le_rowsBetween (a := lines - lines) (b := lines)
      omega
  constructor
  · intro hfit
    refine or_iff_not_imp_left.mpr fun htop => ⟨lines, by omega, hrows, ?_⟩
    rw [budget] at hfit
    omega
  · rintro (htop | ⟨k, hk, hrows, hfit⟩)
    · have hzero : lines = 0 := by omega
      rw [hzero, Nat.sub_zero, rowsBetween_self]
      exact Nat.zero_le _
    · have hlines := hleast k hk (by omega)
      have := w.rowsBetween_anti (c := cursor) (Nat.sub_le_sub_left hlines cursor)
      rw [budget]
      omega

/-! One call. -/

def Near (cursor offset : ℕ) : Prop := distance cursor offset ≤ w.viewportHeight * 10

lemma near_of_le (h : a ≤ cursor) (hnear : cursor - a ≤ w.viewportHeight) : w.Near cursor a := by
  rw [Near, distance]
  split <;> omega

lemma near_of_rowsBetween_le (h : a ≤ cursor) (hrows : w.rowsBetween a cursor ≤ w.viewportHeight) : w.Near cursor a :=
  near_of_le h (le_rowsBetween.trans hrows)

variable {P : Type} [Zero P] {v : View P}

inductive Scrolls (w : Viewport) (cursor : ℕ) : ℕ → ℕ → Prop
  | teleport {a : ℕ} (h : ¬w.Near cursor a) : Scrolls w cursor a (cursor - w.margin)
  | top {a : ℕ} (h : w.Near cursor a) (ha : w.topTarget cursor < a) : Scrolls w cursor a (w.topTarget cursor)
  | stay {a : ℕ} (h : w.Near cursor a) (ha : a ≤ w.topTarget cursor)
      (hvisible : w.rowsBetween a cursor + w.lineVisualRows cursor + w.bottomMargin cursor ≤ w.viewportHeight) :
      Scrolls w cursor a a
  | bottom {a : ℕ} (h : w.Near cursor a) (ha : a ≤ w.topTarget cursor)
      (hhidden : w.viewportHeight < w.rowsBetween a cursor + w.lineVisualRows cursor + w.bottomMargin cursor) :
      Scrolls w cursor a (w.bottomTarget cursor)

lemma cursorRow_ensure : (w.ensureScrollWrappedWithMargin v).cursorRow = v.cursorRow := by
  simp only [ensureScrollWrappedWithMargin]
  split_ifs <;> rfl

lemma scrolls_ensure (hpos : 0 < w.viewportHeight) :
    w.Scrolls v.cursorRow v.scrollOffset (w.ensureScrollWrappedWithMargin v).scrollOffset := by
  rw [ensureScrollWrappedWithMargin, if_neg hpos.ne']
  split
  · rename_i hfar
    exact .teleport hfar.not_ge
  rename_i hnear
  split
  · rename_i htop
    exact .top (not_lt.mp hnear) htop
  rename_i htop
  have hle := (not_lt.mp htop).trans w.topTarget_le
  split
  · rename_i hvisible
    exact .stay (not_lt.mp hnear) (not_lt.mp htop) ((cursorVisible_iff hle).mp hvisible)
  rename_i hvisible
  have hmoved := Scrolls.bottom (not_lt.mp hnear) (not_lt.mp htop)
    (not_le.mp fun h => hvisible ((cursorVisible_iff hle).mpr h))
  split
  · exact hmoved
  · rename_i hsame
    exact not_not.mp hsame ▸ hmoved

lemma ensure_eq_self (hpos : 0 < w.viewportHeight) (hnear : w.Near v.cursorRow v.scrollOffset)
    (h : (w.ensureScrollWrappedWithMargin v).scrollOffset = v.scrollOffset) :
    w.ensureScrollWrappedWithMargin v = v := by
  rw [ensureScrollWrappedWithMargin, if_neg hpos.ne', if_neg hnear.not_gt] at h ⊢
  split_ifs at h ⊢ with htop hvisible hsame
  · exact absurd h htop.ne
  · rfl
  · exact absurd h hsame
  · rfl

lemma Scrolls.near (h : w.Scrolls cursor a b) : w.Near cursor b := by
  have hmargin : w.margin ≤ w.viewportHeight := (min_le_right _ _).trans (Nat.div_le_self _ _)
  cases h with
  | teleport => exact near_of_le (Nat.sub_le _ _) (by omega)
  | top =>
    have := w.sub_margin_le_topTarget cursor
    exact near_of_le topTarget_le (by omega)
  | stay hnear => exact hnear
  | bottom =>
    refine near_of_rowsBetween_le walkBack_le ((rowsBetween_bottomTarget cursor).trans ?_)
    rw [budget]
    omega

lemma bottomTarget_le_of_visible (h : a ≤ cursor)
    (hvisible : w.rowsBetween a cursor + w.lineVisualRows cursor + w.bottomMargin cursor ≤ w.viewportHeight) :
    w.bottomTarget cursor ≤ a := by
  rw [bottomTarget_le_iff h, budget]
  omega

lemma Scrolls.le_topTarget (h : w.Scrolls cursor a b) (hagree : w.bottomTarget cursor ≤ w.topTarget cursor) :
    b ≤ w.topTarget cursor := by
  cases h with
  | teleport => exact sub_margin_le_topTarget cursor
  | top => exact le_rfl
  | stay _ ha => exact ha
  | bottom => exact hagree

lemma Scrolls.rests (h : w.Scrolls cursor a b) (hpos : 0 < w.viewportHeight) (hnear : w.Near cursor a)
    (ha : a ≤ w.topTarget cursor) (hagree : w.bottomTarget cursor ≤ w.topTarget cursor) :
    w.rowsBetween b cursor < w.viewportHeight ∧ ∀ c, w.Scrolls cursor b c → c = b := by
  have hone := w.one_le cursor
  cases h with
  | teleport hfar => exact absurd hnear hfar
  | top _ hlt => exact absurd ha hlt.not_ge
  | stay _ _ hvisible =>
    refine ⟨by omega, fun c hnext => ?_⟩
    cases hnext with
    | teleport hfar => exact absurd hnear hfar
    | top _ hlt => exact absurd ha hlt.not_ge
    | stay => rfl
    | bottom _ _ hhidden => exact absurd hvisible hhidden.not_ge
  | bottom _ _ hhidden =>
    have hrows := w.rowsBetween_bottomTarget cursor
    rw [budget] at hrows
    have hback : w.Near cursor (w.bottomTarget cursor) := (Scrolls.bottom hnear ha hhidden).near
    refine ⟨by omega, fun c hnext => ?_⟩
    cases hnext with
    | teleport hfar => exact absurd hback hfar
    | top _ hlt => exact absurd hagree hlt.not_ge
    | stay => rfl
    | bottom => rfl

lemma Scrolls.moves (h : w.Scrolls cursor a b) (hnear : w.Near cursor a)
    (hagree : w.topTarget cursor < w.bottomTarget cursor) : b ≠ a := by
  cases h with
  | teleport hfar => exact absurd hnear hfar
  | top _ ha => exact ha.ne
  | stay _ ha hvisible =>
    have := bottomTarget_le_of_visible (ha.trans topTarget_le) hvisible
    omega
  | bottom _ ha => omega

theorem settles_iff_marginsFit (hpos : 0 < w.viewportHeight) : w.Settles v ↔ w.MarginsFit v.cursorRow := by
  have hfirst := w.scrolls_ensure (v := v) hpos
  have hsecond := w.scrolls_ensure (v := w.ensureScrollWrappedWithMargin v) hpos
  have hthird := w.scrolls_ensure
    (v := w.ensureScrollWrappedWithMargin (w.ensureScrollWrappedWithMargin v)) hpos
  simp only [cursorRow_ensure] at hsecond hthird
  rw [← bottomTarget_le_topTarget_iff]
  constructor
  · rintro ⟨-, -, hrest⟩
    by_contra hdisagree
    exact hthird.moves hsecond.near (not_le.mp hdisagree) (congrArg View.scrollOffset hrest)
  · intro hagree
    obtain ⟨hshown, hstay⟩ := hsecond.rests hpos hfirst.near (hfirst.le_topTarget hagree) hagree
    refine ⟨(hsecond.le_topTarget hagree).trans topTarget_le, hshown, ?_⟩
    refine ensure_eq_self hpos ?_ (hstay _ hthird)
    simpa only [cursorRow_ensure] using hsecond.near

def tallFirstLine (height : ℕ) : Viewport where
  viewportHeight := height
  scrolloff := 1
  lineCount := 3
  lineVisualRows line := if line = 0 then 100 else 1
  one_le line := by split <;> omega

def belowTallLine : View ℕ := { cursorRow := 1, scrollOffset := 2, scrollPixelOffset := 0 }

theorem settles_in_tall_window : (tallFirstLine 200).Settles belowTallLine :=
  (settles_iff_marginsFit (by decide)).mpr (.inr ⟨1, by decide⟩)

theorem flips_below_tall_line : ¬(tallFirstLine 10).Settles belowTallLine := by
  rintro ⟨-, -, hrest⟩
  exact absurd (congrArg View.scrollOffset hrest) (by decide)

end Viewport

end Mae.Editor
