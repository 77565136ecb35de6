import Mae.Editor.Session

/-! Clamping a cursor: its row to the lines and the narrowed range, its column to the clusters of the line. -/

namespace Mae.Editor

open List

open Rope (lenBytes charToByte)

def isCharBoundary (s : Rope) (i : ℕ) : Bool := (List.range (s.length + 1)).any fun k => charToByte s k == i

def floorCharBoundary (s : Rope) : ℕ → ℕ
  | 0 => 0
  | i + 1 => if isCharBoundary s (i + 1) then i + 1 else floorCharBoundary s i

/-- The segmentation library: the byte offsets at which the clusters of a text begin. -/
structure Segmentation where
  indices : Rope → List ℕ
  sorted : ∀ s, (indices s).Pairwise (· < ·)
  starts : ∀ s, s ≠ [] → (indices s).head? = some 0
  boundary : ∀ s, ∀ i ∈ indices s, isCharBoundary s i = true
  lt : ∀ s, ∀ i ∈ indices s, i < lenBytes s

def lastUpTo (target last : ℕ) : List ℕ → ℕ
  | [] => last
  | i :: is => if i > target then last else lastUpTo target i is

def Segmentation.snapToGraphemeBoundary (seg : Segmentation) (s : Rope) (i : ℕ) : ℕ :=
  if i ≥ lenBytes s then lenBytes s else lastUpTo (floorCharBoundary s (min i (lenBytes s))) 0 (seg.indices s)

/-- The column's part of clamping, on a line of `len` bytes whose clusters are those of `s`. -/
def Segmentation.clampCol (seg : Segmentation) (s : Rope) (len col : ℕ) : ℕ :=
  if len < col then len else if 0 < col then seg.snapToGraphemeBoundary s col else col

section

variable {seg : Segmentation} {s : Rope} {i target last : ℕ} {is : List ℕ}

lemma floorCharBoundary_of_boundary (h : isCharBoundary s i = true) : floorCharBoundary s i = i := by
  cases i with
  | zero => rfl
  | succ i => rw [floorCharBoundary, if_pos h]

lemma lastUpTo_mem : lastUpTo target last is ∈ last :: is := by
  induction is generalizing last with
  | nil => exact mem_cons_self
  | cons i is ih =>
    rw [lastUpTo]
    split
    · exact mem_cons_self
    · exact mem_cons_of_mem _ ih

lemma lastUpTo_le (h : last ≤ target) : lastUpTo target last is ≤ target := by
  induction is generalizing last with
  | nil => exact h
  | cons i is ih =>
    rw [lastUpTo]
    split
    · exact h
    · rename_i hi
      exact ih (not_lt.mp hi)

lemma le_lastUpTo (hsorted : (last :: is).Pairwise (· < ·)) (h : i ∈ last :: is) (hi : i ≤ target) :
    i ≤ lastUpTo target last is := by
  induction is generalizing last with
  | nil => exact (mem_singleton.mp h).le
  | cons j is ih =>
    obtain ⟨hlast, hrest⟩ := pairwise_cons.mp hsorted
    have hhead : ∀ k ∈ j :: is, j ≤ k := fun k hk =>
      (mem_cons.mp hk).elim (fun h => h.ge) fun hk => ((pairwise_cons.mp hrest).1 k hk).le
    rw [lastUpTo]
    split
    · obtain rfl | h := mem_cons.mp h
      · exact le_rfl
      · exact absurd (hhead i h) (by omega)
    · obtain rfl | h := mem_cons.mp h
      · exact (hlast _ lastUpTo_mem).le
      · exact ih hrest h

lemma lastUpTo_lastUpTo (hsorted : (last :: is).Pairwise (· < ·)) :
    lastUpTo (lastUpTo target last is) last is = lastUpTo target last is := by
  have hle : last ≤ lastUpTo target last is :=
    (mem_cons.mp lastUpTo_mem).elim (fun h => h.ge) fun h => ((pairwise_cons.mp hsorted).1 _ h).le
  exact le_antisymm (lastUpTo_le hle) (le_lastUpTo hsorted lastUpTo_mem le_rfl)

lemma snap_of_le (h : lenBytes s ≤ i) : seg.snapToGraphemeBoundary s i = lenBytes s := if_pos h

lemma snap_of_lt (seg : Segmentation) (h : i < lenBytes s) :
    ∃ is, seg.indices s = 0 :: is ∧ seg.snapToGraphemeBoundary s i = lastUpTo (floorCharBoundary s i) 0 is := by
  have hne : s ≠ [] := fun he => by simp [he, lenBytes] at h
  have hstart := seg.starts s hne
  obtain ⟨is, his⟩ : ∃ is, seg.indices s = 0 :: is := head?_eq_some_iff.mp hstart
  refine ⟨is, his, ?_⟩
  rw [Segmentation.snapToGraphemeBoundary, if_neg (not_le.mpr h), min_eq_left h.le, his, lastUpTo,
    if_neg (Nat.not_lt_zero _)]

lemma snap_mem (seg : Segmentation) (h : i < lenBytes s) : seg.snapToGraphemeBoundary s i ∈ seg.indices s := by
  obtain ⟨is, his, hsnap⟩ := snap_of_lt seg h
  rw [hsnap, his]
  exact lastUpTo_mem

lemma snap_snap : seg.snapToGraphemeBoundary s (seg.snapToGraphemeBoundary s i) = seg.snapToGraphemeBoundary s i := by
  obtain h | h := le_or_gt (lenBytes s) i
  · rw [snap_of_le h, snap_of_le le_rfl]
  · have hmem := snap_mem seg h
    obtain ⟨is, his, hsnap⟩ := snap_of_lt seg h
    obtain ⟨is', his', hsnap'⟩ := snap_of_lt seg (seg.lt s _ hmem)
    obtain rfl : is = is' := (cons_inj_right _).mp (his.symm.trans his')
    have hsorted := seg.sorted s
    rw [his] at hsorted
    rw [hsnap', floorCharBoundary_of_boundary (seg.boundary s _ hmem), hsnap, lastUpTo_lastUpTo hsorted]

lemma snap_mem_or (s : Rope) (i : ℕ) :
    seg.snapToGraphemeBoundary s i ∈ seg.indices s ∨ seg.snapToGraphemeBoundary s i = lenBytes s :=
  (lt_or_ge i (lenBytes s)).imp (snap_mem seg) snap_of_le

lemma zero_mem_or (seg : Segmentation) (s : Rope) : 0 ∈ seg.indices s ∨ 0 = lenBytes s := by
  by_cases hs : s = []
  · exact .inr (hs ▸ rfl)
  · exact .inl (mem_of_mem_head? (seg.starts s hs))

variable {len col : ℕ}

lemma clampCol_mem_or (h : col ≤ len ∨ len = lenBytes s) :
    seg.clampCol s len col ∈ seg.indices s ∨ seg.clampCol s len col = lenBytes s := by
  rw [Segmentation.clampCol]
  split_ifs with hlen hcol
  · exact .inr (h.resolve_left hlen.not_ge)
  · exact snap_mem_or s col
  · exact Nat.eq_zero_of_not_pos hcol ▸ zero_mem_or seg s

lemma clampCol_clampCol (hs : lenBytes s ≤ len) (h : col ≤ len ∨ len = lenBytes s) :
    seg.clampCol s len (seg.clampCol s len col) = seg.clampCol s len col := by
  have hle : seg.clampCol s len col ≤ len :=
    (clampCol_mem_or h).elim (fun hmem => (seg.lt s _ hmem).le.trans hs) fun heq => heq.trans_le hs
  have hsnap : seg.clampCol s len (seg.clampCol s len col) =
      if 0 < seg.clampCol s len col then seg.snapToGraphemeBoundary s (seg.clampCol s len col)
      else seg.clampCol s len col := if_neg hle.not_gt
  rw [hsnap]
  split
  · rename_i hpos
    rw [Segmentation.clampCol] at hpos ⊢
    split_ifs at hpos ⊢ with hlen hcol
    · rw [h.resolve_left hlen.not_ge, snap_of_le le_rfl]
    · exact snap_snap
    · exact absurd hpos hcol
  · rfl

end

variable {D U H : Type}

def Platform.segmented (P : Platform D U H) (seg : Segmentation) : Platform D U H :=
  { P with snapToGraphemeBoundary := seg.snapToGraphemeBoundary }

namespace Buffer

def narrowTo (b : Buffer D U H) (start stop : ℕ) : Buffer D U H :=
  if start < min stop b.lineCount then { b with narrowedRange := some (start, min stop b.lineCount) } else b

def widen (b : Buffer D U H) : Buffer D U H := { b with narrowedRange := none }

inductive Narrowed : Buffer D U H → Prop
  | whole {b} (h : b.narrowedRange = none) : Narrowed b
  | narrowTo {b} (start stop : ℕ) (h : Narrowed b) : Narrowed (b.narrowTo start stop)
  | widen {b} (h : Narrowed b) : Narrowed b.widen
  | edit {b} (h : Narrowed b) (b' : Buffer D U H) (hb' : b'.narrowedRange = b.narrowedRange) : Narrowed b'

def nearestRow (b : Buffer D U H) (row : ℕ) : ℕ :=
  min (match b.narrowedRange with
    | some (first, last) => min (max row first) (last - 1)
    | none => row) (b.lineCount - 1)

structure Holds (seg : Segmentation) (b : Buffer D U H) (win : Window) : Prop where
  row : win.cursorRow < b.lineCount
  narrowed : ∀ first last, b.narrowedRange = some (first, last) → first < b.lineCount →
    first ≤ win.cursorRow ∧ win.cursorRow < last
  col : win.cursorCol ∈ seg.indices (b.lineTextNoNewline win.cursorRow) ∨
    win.cursorCol = lenBytes (b.lineTextNoNewline win.cursorRow)

def ClampHolds (P : Platform D U H) (seg : Segmentation) (b : Buffer D U H) (win : Window) : Prop :=
  b.Holds seg (b.clampCursor (P.segmented seg) win) ∧
    b.clampCursor (P.segmented seg) (b.clampCursor (P.segmented seg) win) = b.clampCursor (P.segmented seg) win

variable {P : Platform D U H} {seg : Segmentation} {b : Buffer D U H} {win : Window} {row : ℕ}

lemma Narrowed.lt (h : b.Narrowed) {first last : ℕ} (hb : b.narrowedRange = some (first, last)) : first < last := by
  induction h with
  | whole h => rw [h] at hb; cases hb
  | @narrowTo b start stop h ih =>
    rw [Buffer.narrowTo] at hb
    split at hb
    · rename_i hlt
      cases hb
      exact hlt
    · exact ih hb
  | widen => cases hb
  | edit h b' hb' ih => exact ih (hb' ▸ hb)

lemma lineCount_pos (b : Buffer D U H) : 0 < b.lineCount := by
  rw [lineCount, Rope.lenLines]
  fun_cases Rope.lines b.rope <;> simp

lemma nearestRow_lt : b.nearestRow row < b.lineCount :=
  (min_le_right _ _).trans_lt (Nat.sub_lt b.lineCount_pos Nat.one_pos)

lemma Narrowed.nearestRow_nearestRow (h : b.Narrowed) : b.nearestRow (b.nearestRow row) = b.nearestRow row := by
  cases hb : b.narrowedRange with
  | none =>
    simp only [nearestRow, hb]
    omega
  | some range =>
    simp only [nearestRow, hb]
    omega

lemma Narrowed.nearestRow_mem (h : b.Narrowed) {first last : ℕ} (hb : b.narrowedRange = some (first, last))
    (hfirst : first < b.lineCount) : first ≤ b.nearestRow row ∧ b.nearestRow row < last := by
  have := h.lt hb
  rw [nearestRow, hb]
  dsimp only
  omega

lemma lenBytes_le_of_sublist {s t : Rope} (h : s.Sublist t) : lenBytes s ≤ lenBytes t :=
  (h.map Char.utf8Size).sum_le_sum fun _ _ => Nat.zero_le _

lemma lenBytes_reverse (s : Rope) : lenBytes s.reverse = lenBytes s := by
  rw [lenBytes, lenBytes, map_reverse, sum_reverse]

-- The one strips a newline, the other that and all that is behind it.
lemma lenBytes_lineTextNoNewline_le : lenBytes (b.lineTextNoNewline row) ≤ b.lineByteLen row := by
  rw [lineTextNoNewline, lineByteLen]
  cases b.rope.line row with
  | none => exact le_rfl
  | some l =>
    obtain ⟨t, rfl⟩ : ∃ t, l = t.reverse := ⟨l.reverse, l.reverse_reverse.symm⟩
    simp only [Option.getD_some, reverse_reverse, getLast?_reverse, lenBytes_reverse]
    have hcr := lenBytes_le_of_sublist (dropWhile_sublist (l := t.dropWhile (· == '\n')) (· == '\r'))
    cases t with
    | nil => exact hcr
    | cons c t =>
      refine hcr.trans ?_
      by_cases hc : c = '\n'
      · have hsub := lenBytes_le_of_sublist (dropWhile_sublist (l := t) (· == '\n'))
        simpa [hc, lenBytes, Char.utf8Size] using hsub
      · rw [dropWhile_cons_of_neg (by simpa using hc), if_neg (by simpa using hc)]

lemma clampCursor_eq : b.clampCursor (P.segmented seg) win =
    ⟨b.nearestRow win.cursorRow, seg.clampCol (b.lineTextNoNewline (b.nearestRow win.cursorRow))
      (b.lineByteLen (b.nearestRow win.cursorRow)) win.cursorCol⟩ := by
  have hrow : b.clampCursor (P.segmented seg) win =
      if b.lineByteLen (b.nearestRow win.cursorRow) < win.cursorCol then
        ⟨b.nearestRow win.cursorRow, b.lineByteLen (b.nearestRow win.cursorRow)⟩
      else if 0 < win.cursorCol then
        ⟨b.nearestRow win.cursorRow,
          seg.snapToGraphemeBoundary (b.lineTextNoNewline (b.nearestRow win.cursorRow)) win.cursorCol⟩
      else ⟨b.nearestRow win.cursorRow, win.cursorCol⟩ := if_neg b.lineCount_pos.ne'
  rw [hrow, Segmentation.clampCol]
  split_ifs <;> rfl

theorem Narrowed.clampHolds_iff (h : b.Narrowed) (P : Platform D U H) (seg : Segmentation) (win : Window) :
    b.ClampHolds P seg win ↔
      (win.cursorCol ≤ b.lineByteLen (b.nearestRow win.cursorRow) ∨
        b.lineByteLen (b.nearestRow win.cursorRow) = lenBytes (b.lineTextNoNewline (b.nearestRow win.cursorRow))) := by
  rw [ClampHolds, clampCursor_eq, clampCursor_eq]
  constructor
  · rintro ⟨hholds, -⟩
    refine or_iff_not_imp_left.mpr fun hcol => ?_
    have hmem := hholds.col
    rw [Segmentation.clampCol, if_pos (not_le.mp hcol)] at hmem
    refine hmem.resolve_left fun hmem => ?_
    exact absurd (seg.lt _ _ hmem) lenBytes_lineTextNoNewline_le.not_gt
  · intro hcol
    refine ⟨⟨nearestRow_lt, fun first last hb hfirst => h.nearestRow_mem hb hfirst, clampCol_mem_or hcol⟩, ?_⟩
    rw [h.nearestRow_nearestRow, clampCol_clampCol lenBytes_lineTextNoNewline_le hcol]

def oneCluster : Segmentation where
  indices s := if s = [] then [] else [0]
  sorted s := by split <;> simp
  starts s hs := by rw [if_neg hs]; rfl
  boundary s i hi := by
    split at hi
    · cases hi
    · obtain rfl := mem_singleton.mp hi
      exact any_eq_true.mpr ⟨0, by simp, rfl⟩
  lt s i hi := by
    cases s with
    | nil => simp at hi
    | cons c s =>
      obtain rfl : i = 0 := by simpa using hi
      simpa [lenBytes] using .inl c.utf8Size_pos

theorem clampHolds_of_short_line : (new : Buffer Rope Rope Rope).ClampHolds mirror oneCluster ⟨4, 9⟩ :=
  ((Narrowed.whole rfl).clampHolds_iff mirror oneCluster ⟨4, 9⟩).mpr (.inr (by decide))

def dosLine : Buffer Rope Rope Rope := { new with rope := ['a', 'b', '\r', '\n'] }

theorem clamp_stops_behind_return :
    dosLine.clampCursor (mirror.segmented oneCluster) ⟨0, 9⟩ = ⟨0, 3⟩ ∧ lenBytes (dosLine.lineTextNoNewline 0) = 2 ∧
      dosLine.clampCursor (mirror.segmented oneCluster) ⟨0, 3⟩ = ⟨0, 2⟩ ∧
      ¬dosLine.ClampHolds mirror oneCluster ⟨0, 9⟩ := by
  refine ⟨by decide, by decide, by decide, ?_⟩
  rintro ⟨-, hagain⟩
  exact absurd hagain (by decide)

end Buffer

end Mae.Editor
