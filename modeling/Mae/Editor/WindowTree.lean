import Mae.Editor.Layout
import Mae.Library.Checks

/-! The window manager with its ratios and rectangles, and every operation on it. -/

namespace Mae.Editor

open SplitRatio List Option LayoutNode

inductive Direction where
  | left | right | up | down
  deriving DecidableEq

namespace SizedNode

variable {R : Type}

abbrev leaves (n : SizedNode R) : List WindowId := n.shape.allLeaves

def splitForLeaf (target new : WindowId) (direction : SplitDirection) (ratio : R) : SizedNode R → SizedNode R
  | leaf id => if id = target then split direction ratio (leaf id) (leaf new) else leaf id
  | group label inner =>
    if inner.shape.containsLeaf target then split direction ratio (group label inner) (leaf new) else group label inner
  | split d r first second =>
    if first.shape.containsLeaf target then split d r (first.splitForLeaf target new direction ratio) second
    else split d r first (second.splitForLeaf target new direction ratio)

def removeLeaf (target : WindowId) : SizedNode R → SizedNode R
  | leaf id => leaf id
  | split d r first second =>
    if first.shape.soleLeafId = some target then second
    else if second.shape.soleLeafId = some target then first
    else split d r (first.removeLeaf target) (second.removeLeaf target)
  | group label inner => group label (inner.removeLeaf target)

def counted (ids : List WindowId) (n : SizedNode R) : ℕ := (ids.filter n.shape.containsLeaf).length

def wrapGroup (ids : List WindowId) (label : String) : SizedNode R → SizedNode R
  | leaf id => if (leaf id : SizedNode R).counted ids = 0 then leaf id else group label (leaf id)
  | split d r first second =>
    if (split d r first second).counted ids = 0 then split d r first second
    else if 0 < first.counted ids ∧ 0 < second.counted ids then group label (split d r first second)
    else if 0 < first.counted ids then split d r (first.wrapGroup ids label) second
    else split d r first (second.wrapGroup ids label)
  | group l inner =>
    if (group l inner).counted ids = 0 then group l inner else group l (inner.wrapGroup ids label)

-- The split and the direction lie on one axis.
def parallel : SplitDirection → Direction → Bool
  | .vertical, .left | .vertical, .right | .horizontal, .up | .horizontal, .down => true
  | _, _ => false

def adjustRatio [SplitRatio R] (target : WindowId) (direction : Direction) (delta : R) : SizedNode R → SizedNode R
  | leaf id => leaf id
  | split d r first second =>
    if !first.shape.containsLeaf target && !second.shape.containsLeaf target then split d r first second
    else if parallel d direction then
      let grow := direction = .right ∨ direction = .down
      if first.shape.containsLeaf target then
        split d (clamp (add r (if grow then delta else neg delta))) first second
      else split d (clamp (add r (if grow then neg delta else delta))) first second
    else if first.shape.containsLeaf target then split d r (first.adjustRatio target direction delta) second
    else split d r first (second.adjustRatio target direction delta)
  | group label inner => group label (inner.adjustRatio target direction delta)

def balance [SplitRatio R] : SizedNode R → SizedNode R
  | leaf id => leaf id
  | split d _ first second => split d half first.balance second.balance
  | group label inner => group label inner.balance

def flip : SplitDirection → SplitDirection
  | .horizontal => .vertical
  | .vertical => .horizontal

def moveStructural (focused : WindowId) (dir : Direction) : SizedNode R → Option (SizedNode R)
  | leaf _ => none
  | group label inner => (inner.moveStructural focused dir).map (group label)
  | split d r first second =>
    if !first.shape.containsLeaf focused && !second.shape.containsLeaf focused then none
    else
      let firstIsFocused := first.shape.soleLeafId == some focused
      let secondIsFocused := second.shape.soleLeafId == some focused
      let siblingIsLeaf :=
        bif firstIsFocused then second.shape.soleLeafId.isSome
        else bif secondIsFocused then first.shape.soleLeafId.isSome else false
      if (firstIsFocused || secondIsFocused) && siblingIsLeaf then
        if parallel d dir then
          let towardFirst := dir == .up || dir == .left
          if (towardFirst && secondIsFocused) || (!towardFirst && firstIsFocused) then some (split d r second first)
          else none
        else if (dir == .left || dir == .up) != firstIsFocused then some (split (flip d) r second first)
        else some (split (flip d) r first second)
      else if first.shape.containsLeaf focused then (first.moveStructural focused dir).map (split d r · second)
      else (second.moveStructural focused dir).map (split d r first ·)

def swapLeaves (a b : WindowId) : SizedNode R → SizedNode R
  | leaf id => leaf (if id = a then b else if id = b then a else id)
  | split d r first second => split d r (first.swapLeaves a b) (second.swapLeaves a b)
  | group label inner => group label (inner.swapLeaves a b)

variable {n n' : SizedNode R} {target new : WindowId} {direction : SplitDirection} {ratio : R}

lemma shape_splitForLeaf :
    (n.splitForLeaf target new direction ratio).shape = n.shape.splitForLeaf target new direction := by
  induction n with
  | leaf id =>
    rw [splitForLeaf, shape, LayoutNode.splitForLeaf]
    split <;> rfl
  | group label inner _ =>
    rw [splitForLeaf, shape, LayoutNode.splitForLeaf]
    split <;> rfl
  | split d r first second ih ih' =>
    rw [splitForLeaf, shape, LayoutNode.splitForLeaf]
    split
    · rw [shape, ih]
    · rw [shape, ih']

lemma shape_removeLeaf : (n.removeLeaf target).shape = n.shape.removeLeaf target := by
  induction n with
  | leaf id => rfl
  | group label inner ih => rw [removeLeaf, shape, ih, shape, LayoutNode.removeLeaf]
  | split d r first second ih ih' =>
    rw [removeLeaf, shape, LayoutNode.removeLeaf]
    split_ifs
    · rfl
    · rfl
    · rw [shape, ih, ih']

lemma soleLeafId_ne (h : target ∉ n.leaves) : n.shape.soleLeafId ≠ some target := fun hsole =>
  h (by rw [leaves, allLeaves_of_soleLeafId hsole]; exact mem_singleton_self target)

lemma removeLeaf_of_notMem (h : target ∉ n.leaves) : n.removeLeaf target = n := by
  induction n with
  | leaf id => rfl
  | group label inner ih => rw [removeLeaf, ih h]
  | split d r first second ih ih' =>
    obtain ⟨hfirst, hsecond⟩ := not_or.mp (mem_append.not.mp h)
    rw [removeLeaf, if_neg (soleLeafId_ne hfirst), if_neg (soleLeafId_ne hsecond), ih hfirst, ih' hsecond]

lemma removeLeaf_splitForLeaf (h : target ∈ n.leaves) (hnew : new ∉ n.leaves) :
    (n.splitForLeaf target new direction ratio).removeLeaf new = n := by
  induction n with
  | leaf id =>
    obtain rfl : target = id := mem_singleton.mp h
    rw [splitForLeaf, if_pos rfl, removeLeaf, if_neg (soleLeafId_ne hnew)]
    exact if_pos rfl
  | group label inner _ =>
    have hinner : inner.shape.containsLeaf target = true := containsLeaf_iff.mpr h
    rw [splitForLeaf, if_pos hinner, removeLeaf, if_neg (soleLeafId_ne hnew)]
    exact if_pos rfl
  | split d r first second ih ih' =>
    obtain ⟨hfirst, hsecond⟩ := not_or.mp (mem_append.not.mp hnew)
    -- the part that was split has two leaves at least, so neither part is the new leaf alone
    have hsplit : ∀ n : SizedNode R, target ∈ n.leaves → (n.splitForLeaf target new direction ratio).shape.soleLeafId ≠
        some new := by
      intro n hn hsole
      have hperm : (n.shape.splitForLeaf target new direction).allLeaves.Perm (new :: n.shape.allLeaves) :=
        splitForLeaf_perm hn
      have hlen := hperm.length_eq
      rw [shape_splitForLeaf] at hsole
      rw [allLeaves_of_soleLeafId hsole, length_singleton, length_cons] at hlen
      have := length_pos_of_ne_nil n.shape.allLeaves_ne_nil
      omega
    rw [splitForLeaf]
    split
    · rename_i hmem
      have hmem := containsLeaf_iff.mp hmem
      rw [removeLeaf, if_neg (hsplit first hmem), if_neg (soleLeafId_ne hsecond), ih hmem hfirst,
        removeLeaf_of_notMem hsecond]
    · rename_i hmem
      have hmem : target ∈ second.leaves :=
        (mem_append.mp h).resolve_left fun hmem' => hmem (containsLeaf_iff.mpr hmem')
      rw [removeLeaf, if_neg (soleLeafId_ne hfirst), if_neg (hsplit second hmem), removeLeaf_of_notMem hfirst,
        ih' hmem hsecond]

lemma leaves_wrapGroup (ids : List WindowId) (label : String) : (n.wrapGroup ids label).leaves = n.leaves := by
  induction n with
  | leaf id =>
    rw [wrapGroup]
    split <;> rfl
  | group l inner ih =>
    rw [wrapGroup]
    split
    · rfl
    · exact ih
  | split d r first second ih ih' =>
    rw [wrapGroup]
    split_ifs
    · rfl
    · rfl
    · exact congrArg (· ++ second.leaves) ih
    · exact congrArg (first.leaves ++ ·) ih'

lemma shape_adjustRatio [SplitRatio R] (dir : Direction) (delta : R) :
    (n.adjustRatio target dir delta).shape = n.shape := by
  induction n with
  | leaf id => rfl
  | group label inner ih => rw [adjustRatio, shape, ih, shape]
  | split d r first second ih ih' =>
    simp only [adjustRatio]
    split_ifs <;> simp only [shape, ih, ih']

lemma shape_balance [SplitRatio R] : (n.balance).shape = n.shape := by
  induction n with
  | leaf id => rfl
  | group label inner ih => rw [balance, shape, ih, shape]
  | split d r first second ih ih' => rw [balance, shape, ih, ih', shape]

lemma leaves_moveStructural {focused : WindowId} {dir : Direction} (h : n.moveStructural focused dir = some n') :
    n'.leaves.Perm n.leaves := by
  induction n generalizing n' with
  | leaf id => cases h
  | group label inner ih =>
    obtain ⟨inner', hinner, rfl⟩ := map_eq_some_iff.mp h
    have hperm := ih hinner
    exact hperm
  | split d r first second ih ih' =>
    simp only [moveStructural] at h
    split_ifs at h
    · cases h
      exact perm_append_comm
    · cases h
      exact perm_append_comm
    · cases h
      exact List.Perm.refl _
    · obtain ⟨first', hfirst, rfl⟩ := map_eq_some_iff.mp h
      exact (ih hfirst).append_right second.leaves
    · obtain ⟨second', hsecond, rfl⟩ := map_eq_some_iff.mp h
      exact (ih' hsecond).append_left first.leaves

lemma leaves_swapLeaves (a b : WindowId) : (n.swapLeaves a b).leaves = n.leaves.map (Equiv.swap a b) := by
  induction n with
  | leaf id => rfl
  | group label inner ih => exact ih
  | split d r first second ih ih' =>
    rw [leaves, swapLeaves, shape, allLeaves, leaves, shape, allLeaves, map_append]
    exact congrArg₂ _ ih ih'

lemma perm_swapLeaves {a b : WindowId} (hn : n.leaves.Nodup) (ha : a ∈ n.leaves) (hb : b ∈ n.leaves) :
    (n.swapLeaves a b).leaves.Perm n.leaves := by
  rw [leaves_swapLeaves]
  refine (subperm_of_subset (hn.map (Equiv.swap a b).injective) ?_).perm_of_length_le (by simp)
  intro id hid
  obtain ⟨id', hid', rfl⟩ := List.mem_map.mp hid
  rw [Equiv.swap_apply_def]
  split_ifs
  · exact hb
  · exact ha
  · exact hid'

lemma computeRects_ids [SplitRatio R] (area : Rect) : (n.computeRects area).map (·.1) = n.leaves := by
  induction n generalizing area with
  | leaf id => rfl
  | group label inner ih => exact ih area
  | split d r first second ih ih' =>
    rw [computeRects, map_append, ih, ih']
    rfl

end SizedNode

structure SizedManager (R : Type) where
  windows : List ManagedWindow
  layout : SizedNode R
  focused : WindowId
  nextId : WindowId

namespace SizedManager

variable {R : Type}

def new (bufferIdx : ℕ) : SizedManager R where
  windows := [⟨⟨0, 0⟩, 0, bufferIdx⟩]
  layout := .leaf 0
  focused := 0
  nextId := 1

variable (m : SizedManager R)

@[simps]
def forget : WindowManager := ⟨m.windows, m.layout.shape, m.focused, m.nextId⟩

def resetToSingle (bufferIdx : ℕ) : SizedManager R where
  windows := [⟨⟨0, 0⟩, m.nextId, bufferIdx⟩]
  layout := .leaf m.nextId
  focused := m.nextId
  nextId := m.nextId + 1

def setFocused (id : WindowId) : SizedManager R :=
  if m.windows.any fun w => w.id == id then { m with focused := id } else m

def focusNext : SizedManager R :=
  if m.windows.length ≤ 1 then m
  else
    let ids := (m.windows.map ManagedWindow.id).mergeSort
    let pos := (ids.findIdx? (· == m.focused)).getD 0
    { m with focused := ids[(pos + 1) % ids.length]?.getD m.focused }

def withLeaf (bufferIdx : ℕ) (layout : SizedNode R) : SizedManager R :=
  { m with
    windows := m.windows.filter (fun w => w.id != m.nextId) ++ [⟨⟨0, 0⟩, m.nextId, bufferIdx⟩]
    layout := layout
    nextId := m.nextId + 1 }

def minimum : SplitDirection → ℕ
  | .vertical => minWindowWidth
  | .horizontal => minWindowHeight

def side : SplitDirection → String
  | .vertical => "width"
  | .horizontal => "height"

def extent (r : Rect) : SplitDirection → UInt16
  | .vertical => r.width
  | .horizontal => r.height

def opened (direction : SplitDirection) (bufferIdx : ℕ) (pane : UInt16) (refusal : String) (layout : SizedNode R) :
    Except String (WindowId × SizedManager R) :=
  if pane.toNat < minimum direction then .error refusal else .ok (m.nextId, m.withLeaf bufferIdx layout)

section Geometry

variable [SplitRatio R] (direction : SplitDirection) (dir : Direction) (total : Rect) (bufferIdx : ℕ) (available : Rect)
  (ratio : R)

def layoutRects : List (WindowId × Rect) := m.layout.computeRects total

def focusedRect : Rect :=
  (((m.layoutRects available).find? fun e => e.1 == m.focused).map (·.2)).getD available

def split : Except String (WindowId × SizedManager R) :=
  let pane := extent (m.focusedRect available) direction / 2
  m.opened direction bufferIdx pane
    ("Cannot split: " ++ side direction ++ " " ++ toString pane ++ " < minimum " ++ toString (minimum direction) ++
      " per pane")
    (m.layout.splitForLeaf m.focused m.nextId direction half)

def splitWithRatio : Except String (WindowId × SizedManager R) :=
  let pane := scale (extent (m.focusedRect available) direction) (lesser ratio)
  m.opened direction bufferIdx pane
    ("Cannot split: pane " ++ side direction ++ " " ++ toString pane ++ " < minimum " ++ toString (minimum direction))
    (m.layout.splitForLeaf m.focused m.nextId direction (clamp ratio))

def tooSmall : SplitDirection → String
  | .vertical => "Cannot split: too narrow"
  | .horizontal => "Cannot split: too short"

def splitRoot : Except String (WindowId × SizedManager R) :=
  m.opened direction bufferIdx (scale (extent available direction) (lesser ratio)) (tooSmall direction)
    (.split direction ratio m.layout (.leaf m.nextId))

def splitRootPrepend : Except String (WindowId × SizedManager R) :=
  m.opened direction bufferIdx (scale (extent available direction) (lesser ratio)) (tooSmall direction)
    (.split direction ratio (.leaf m.nextId) m.layout)

def center (r : Rect) : ℤ × ℤ := (r.x.toNat + r.width.toNat / 2, r.y.toNat + r.height.toNat / 2)

def ahead (f c : ℤ × ℤ) : Bool :=
  match dir with
  | .left => c.1 < f.1
  | .right => c.1 > f.1
  | .up => c.2 < f.2
  | .down => c.2 > f.2

def closer (f : ℤ × ℤ) (best : Option (WindowId × ℕ)) (e : WindowId × Rect) : Option (WindowId × ℕ) :=
  let c := center e.2
  let dist := (c.1 - f.1).natAbs + (c.2 - f.2).natAbs
  if e.1 ≠ m.focused ∧ ahead dir f c ∧ (∀ b ∈ best, dist < b.2) then some (e.1, dist) else best

def nearest : Option WindowId :=
  let rects := m.layoutRects total
  (rects.find? fun e => e.1 == m.focused).bind fun here =>
    (rects.foldl (m.closer dir (center here.2)) none).map (·.1)

def focusDirection : SizedManager R :=
  match m.nearest dir total with
  | some id => { m with focused := id }
  | none => m

def moveWindow : SizedManager R :=
  match m.layout.moveStructural m.focused dir with
  | some layout => { m with layout := layout }
  | none =>
    match m.nearest dir total with
    | some id => { m with layout := m.layout.swapLeaves m.focused id }
    | none => m

end Geometry

def drop (id : WindowId) : SizedManager R :=
  { m with layout := m.layout.removeLeaf id, windows := m.windows.filter fun w => w.id != id }

variable {layout : SizedNode R} (ids : List WindowId)

def closeAll : SizedManager R :=
  let closed := ids.foldl drop m
  if ids.contains m.focused then { closed with focused := closed.layout.shape.firstLeafId } else closed

def closeGroup (id : WindowId) : List ℕ × SizedManager R :=
  let members := m.forget.groupMemberIds id
  if members = [] ∨ m.windows.length ≤ members.length then ([], m)
  else (members.filterMap fun id => (m.forget.window id).map ManagedWindow.bufferIdx, m.closeAll members)

def close (id : WindowId) : Option (ℕ × SizedManager R) :=
  if m.windows.length ≤ 1 then none else (m.forget.window id).map fun w => (w.bufferIdx, m.closeAll [id])

def maximize : SizedManager R :=
  { m with layout := .leaf m.focused, windows := m.windows.filter fun w => w.id == m.focused }

variable {m} {id : WindowId}

lemma mem_foldl_closer {dir : Direction} {f : ℤ × ℤ} {rects : List (WindowId × Rect)} {best : Option (WindowId × ℕ)}
    {b : WindowId × ℕ} (h : b ∈ rects.foldl (m.closer dir f) best) : b ∈ best ∨ b.1 ∈ rects.map (·.1) := by
  induction rects generalizing best with
  | nil => exact .inl h
  | cons e rects ih =>
    obtain h | h := ih h
    · rw [closer] at h
      split at h
      · exact .inr (mem_some_iff.mp h ▸ mem_cons_self)
      · exact .inl h
    · exact .inr (mem_cons_of_mem _ h)

lemma nearest_mem [SplitRatio R] {dir : Direction} {total : Rect} (h : m.nearest dir total = some id) :
    id ∈ m.layout.leaves := by
  obtain ⟨here, -, h⟩ := bind_eq_some_iff.mp h
  obtain ⟨b, hb, rfl⟩ := map_eq_some_iff.mp h
  have hmem := (mem_foldl_closer (mem_def.mpr hb)).resolve_left (fun h => nomatch h)
  rwa [layoutRects, SizedNode.computeRects_ids] at hmem

lemma forget_drop : (m.drop id).forget = m.forget.drop id := by
  rw [forget, drop, SizedNode.shape_removeLeaf]
  rfl

lemma forget_foldl_drop : (ids.foldl drop m).forget = ids.foldl WindowManager.drop m.forget := by
  induction ids generalizing m with
  | nil => rfl
  | cons id ids ih => rw [foldl_cons, ih, forget_drop, foldl_cons]

lemma forget_closeAll : (m.closeAll ids).forget = m.forget.closeAll ids := by
  simp only [closeAll, WindowManager.closeAll, ← forget_foldl_drop, forget_focused]
  split <;> rfl

lemma forget_closeGroup : (m.closeGroup id).2.forget = (m.forget.closeGroup id).2 := by
  simp only [closeGroup, WindowManager.closeGroup, forget_windows]
  split
  · rfl
  · exact forget_closeAll _

def WellFormed (m : SizedManager R) : Prop := m.forget.WellFormed

structure Extends (m : SizedManager R) (layout : SizedNode R) : Prop where
  perm : layout.leaves.Perm (m.nextId :: m.layout.leaves)
  back : layout.removeLeaf m.nextId = m.layout

lemma eq_of_opened {m' : SizedManager R} {direction : SplitDirection} {bufferIdx : ℕ} {pane : UInt16} {refusal : String}
    (h : m.opened direction bufferIdx pane refusal layout = .ok (id, m')) :
    id = m.nextId ∧ m' = m.withLeaf bufferIdx layout := by
  rw [opened] at h
  split at h
  · cases h
  · cases h
    exact ⟨rfl, rfl⟩

lemma extends_root_prepend (direction : SplitDirection) (ratio : R) :
    m.Extends (.split direction ratio (.leaf m.nextId) m.layout) where
  perm := .refl _
  back := if_pos rfl

section

variable (hm : m.WellFormed)
include hm

lemma WellFormed.nextId_notMem : m.nextId ∉ m.layout.leaves := WindowManager.Tiled.nextId_notMem hm.toTiled

lemma WellFormed.filter_nextId : (m.windows.filter fun w => w.id != m.nextId) = m.windows :=
  WindowManager.Tiled.filter_nextId hm.toTiled

lemma WellFormed.relayout (hperm : layout.leaves.Perm m.layout.leaves) : ({ m with layout := layout }).WellFormed :=
  WindowManager.WellFormed.relayout hm hperm

lemma WellFormed.refocus (h : id ∈ m.layout.leaves) : ({ m with focused := id }).WellFormed :=
  ⟨⟨hm.perm, hm.nodup, hm.fresh⟩, h⟩

lemma WellFormed.close {bufferIdx : ℕ} {m' : SizedManager R} (h : m.close id = some (bufferIdx, m')) :
    m'.WellFormed := by
  have hforget : m.forget.close id = some (bufferIdx, m'.forget) := by
    rw [SizedManager.close] at h
    rw [WindowManager.close, forget_windows]
    split at h
    · cases h
    · rename_i hlen
      obtain ⟨w, hw, h⟩ := map_eq_some_iff.mp h
      cases h
      rw [if_neg hlen, hw, forget_closeAll]
      rfl
  exact (WindowManager.WellFormed.close hm hforget).wellFormed

lemma WellFormed.closeGroup : (m.closeGroup id).2.WellFormed := by
  rw [WellFormed, forget_closeGroup]
  exact (WindowManager.WellFormed.closeGroup hm id).wellFormed

lemma WellFormed.maximize : m.maximize.WellFormed := WindowManager.WellFormed.maximize hm

lemma WellFormed.focusNext : m.focusNext.WellFormed := by
  rw [SizedManager.focusNext]
  split
  · exact hm
  · dsimp only
    generalize (((m.windows.map ManagedWindow.id).mergeSort.findIdx? _).getD 0 + 1) % _ = next
    cases hnext : (m.windows.map ManagedWindow.id).mergeSort[next]? with
    | none => exact hm
    | some id =>
      have hid : id ∈ m.windows.map ManagedWindow.id := mem_mergeSort.mp (mem_of_getElem? hnext)
      exact hm.refocus (hm.perm.subset hid)

lemma WellFormed.withLeaf (h : m.Extends layout) (bufferIdx : ℕ) :
    (m.withLeaf bufferIdx layout).WellFormed :=
  WindowManager.WellFormed.withLeaf hm h.perm bufferIdx

lemma WellFormed.windows_withLeaf (bufferIdx : ℕ) (layout : SizedNode R) :
    (m.withLeaf bufferIdx layout).windows = m.windows ++ [⟨⟨0, 0⟩, m.nextId, bufferIdx⟩] :=
  congrArg (· ++ _) hm.filter_nextId

lemma WellFormed.window_withLeaf (bufferIdx : ℕ) (layout : SizedNode R) :
    (m.withLeaf bufferIdx layout).forget.window m.nextId = some ⟨⟨0, 0⟩, m.nextId, bufferIdx⟩ := by
  have hnone : m.windows.find? (fun w => w.id == m.nextId) = none := by
    have hfilter := filter_eq_self.mp hm.filter_nextId
    rw [find?_eq_none]
    intro w hw
    simpa using hfilter w hw
  rw [WindowManager.window, forget_windows, hm.windows_withLeaf, find?_append, hnone]
  simp

lemma WellFormed.close_withLeaf (h : m.Extends layout) (bufferIdx : ℕ) :
    (m.withLeaf bufferIdx layout).close m.nextId = some (bufferIdx, { m with nextId := m.nextId + 1 }) := by
  have hlen : ¬(m.withLeaf bufferIdx layout).windows.length ≤ 1 := by
    have hpos := length_pos_of_ne_nil m.layout.shape.allLeaves_ne_nil
    have hlength : m.windows.length = m.layout.shape.allLeaves.length := hm.length
    rw [hm.windows_withLeaf, length_append, length_singleton]
    omega
  have hfocused : ([m.nextId].contains (m.withLeaf bufferIdx layout).focused) = false := by
    have hne : m.focused ≠ m.nextId := fun heq => hm.nextId_notMem (heq ▸ hm.focused_mem)
    simpa [SizedManager.withLeaf] using hne
  have hdrop : (m.withLeaf bufferIdx layout).drop m.nextId = { m with nextId := m.nextId + 1 } := by
    rw [drop, hm.windows_withLeaf, filter_append, hm.filter_nextId]
    simp [SizedManager.withLeaf, h.back]
  rw [SizedManager.close, if_neg hlen, hm.window_withLeaf, closeAll, hfocused, foldl_cons, hdrop]
  rfl

lemma WellFormed.extends_splitForLeaf (direction : SplitDirection) (ratio : R) :
    m.Extends (m.layout.splitForLeaf m.focused m.nextId direction ratio) where
  perm := by
    rw [SizedNode.leaves, SizedNode.shape_splitForLeaf]
    exact splitForLeaf_perm hm.focused_mem
  back := SizedNode.removeLeaf_splitForLeaf hm.focused_mem hm.nextId_notMem

lemma WellFormed.extends_root (direction : SplitDirection) (ratio : R) :
    m.Extends (.split direction ratio m.layout (.leaf m.nextId)) where
  perm := perm_append_comm
  back := by
    rw [SizedNode.removeLeaf, if_neg (SizedNode.soleLeafId_ne hm.nextId_notMem)]
    exact if_pos rfl

end

inductive Opening (R : Type) where
  | split
  | splitWithRatio (ratio : R)
  | splitRoot (ratio : R)
  | splitRootPrepend (ratio : R)

inductive Operation (R : Type) where
  | opens (opening : Opening R) (direction : SplitDirection) (bufferIdx : ℕ) (available : Rect)
  | close (id : WindowId)
  | closeGroup (id : WindowId)
  | wrapSubtreeAsGroup (ids : List WindowId) (label : String)
  | setFocused (id : WindowId)
  | focusNext
  | focusDirection (dir : Direction) (total : Rect)
  | moveWindow (dir : Direction) (total : Rect)
  | adjustRatio (dir : Direction) (delta : R)
  | balance
  | resetToSingle (bufferIdx : ℕ)
  | maximizeToggle

section Runs

variable [SplitRatio R]

def opens (m : SizedManager R) (opening : Opening R) (direction : SplitDirection) (bufferIdx : ℕ) (available : Rect) :
    Except String (WindowId × SizedManager R) :=
  match opening with
  | .split => m.split direction bufferIdx available
  | .splitWithRatio ratio => m.splitWithRatio direction bufferIdx available ratio
  | .splitRoot ratio => m.splitRoot direction bufferIdx available ratio
  | .splitRootPrepend ratio => m.splitRootPrepend direction bufferIdx available ratio

def step (s : SizedManager R × Option (SizedManager R)) : Operation R → SizedManager R × Option (SizedManager R)
  | .opens opening direction bufferIdx available =>
    match s.1.opens opening direction bufferIdx available with
    | .ok (_, m) => (m, s.2)
    | .error _ => s
  | .close id => (((s.1.close id).map (·.2)).getD s.1, s.2)
  | .closeGroup id => ((s.1.closeGroup id).2, s.2)
  | .wrapSubtreeAsGroup ids label => ({ s.1 with layout := s.1.layout.wrapGroup ids label }, s.2)
  | .setFocused id => (s.1.setFocused id, s.2)
  | .focusNext => (s.1.focusNext, s.2)
  | .focusDirection dir total => (s.1.focusDirection dir total, s.2)
  | .moveWindow dir total => (s.1.moveWindow dir total, s.2)
  | .adjustRatio dir delta => ({ s.1 with layout := s.1.layout.adjustRatio s.1.focused dir delta }, s.2)
  | .balance => ({ s.1 with layout := s.1.layout.balance }, s.2)
  | .resetToSingle bufferIdx => (s.1.resetToSingle bufferIdx, s.2)
  | .maximizeToggle =>
    match s.2 with
    | some saved => (saved, none)
    | none => (s.1.maximize, some s.1)

def run (bufferIdx : ℕ) (operations : List (Operation R)) : SizedManager R × Option (SizedManager R) :=
  operations.foldl step (new bufferIdx, none)

lemma WellFormed.extends_of_opens {m' : SizedManager R} {opening : Opening R} {direction : SplitDirection}
    {bufferIdx : ℕ} {available : Rect} (hm : m.WellFormed)
    (h : m.opens opening direction bufferIdx available = .ok (id, m')) :
    id = m.nextId ∧ ∃ layout, m' = m.withLeaf bufferIdx layout ∧ m.Extends layout := by
  cases opening with
  | split => exact (eq_of_opened h).imp_right fun h => ⟨_, h, hm.extends_splitForLeaf _ _⟩
  | splitWithRatio ratio => exact (eq_of_opened h).imp_right fun h => ⟨_, h, hm.extends_splitForLeaf _ _⟩
  | splitRoot ratio => exact (eq_of_opened h).imp_right fun h => ⟨_, h, hm.extends_root _ _⟩
  | splitRootPrepend ratio => exact (eq_of_opened h).imp_right fun h => ⟨_, h, extends_root_prepend _ _⟩

lemma WellFormed.moveWindow (hm : m.WellFormed) (dir : Direction) (total : Rect) :
    (m.moveWindow dir total).WellFormed := by
  rw [SizedManager.moveWindow]
  split
  · rename_i hmove
    exact hm.relayout (SizedNode.leaves_moveStructural hmove)
  · split
    · rename_i hnear
      exact hm.relayout (SizedNode.perm_swapLeaves hm.nodup hm.focused_mem (nearest_mem hnear))
    · exact hm

def Kept (s : SizedManager R × Option (SizedManager R)) : Prop := s.1.WellFormed ∧ ∀ saved ∈ s.2, saved.WellFormed

lemma Kept.step {s : SizedManager R × Option (SizedManager R)} (h : Kept s) (operation : Operation R) :
    Kept (SizedManager.step s operation) := by
  obtain ⟨hm, hsaved⟩ := h
  cases operation with
  | opens opening direction bufferIdx available =>
    rw [SizedManager.step]
    split
    · rename_i hopen
      obtain ⟨-, layout, rfl, hext⟩ := hm.extends_of_opens hopen
      exact ⟨hm.withLeaf hext bufferIdx, hsaved⟩
    · exact ⟨hm, hsaved⟩
  | close id =>
    refine ⟨?_, hsaved⟩
    rw [SizedManager.step]
    cases hclose : s.1.close id with
    | none => exact hm
    | some closed => exact hm.close hclose
  | closeGroup id => exact ⟨hm.closeGroup, hsaved⟩
  | wrapSubtreeAsGroup ids label => exact ⟨hm.relayout (.of_eq (SizedNode.leaves_wrapGroup ids label)), hsaved⟩
  | setFocused id =>
    refine ⟨?_, hsaved⟩
    rw [SizedManager.step, setFocused]
    split
    · rename_i hany
      obtain ⟨w, hw, hid⟩ := List.any_eq_true.mp hany
      exact hm.refocus (beq_iff_eq.mp hid ▸ hm.perm.subset (List.mem_map_of_mem hw))
    · exact hm
  | focusNext => exact ⟨hm.focusNext, hsaved⟩
  | focusDirection dir total =>
    refine ⟨?_, hsaved⟩
    rw [SizedManager.step, focusDirection]
    split
    · rename_i hnear
      exact hm.refocus (nearest_mem hnear)
    · exact hm
  | moveWindow dir total => exact ⟨hm.moveWindow dir total, hsaved⟩
  | adjustRatio dir delta =>
    exact ⟨hm.relayout (.of_eq (congrArg allLeaves (SizedNode.shape_adjustRatio dir delta))), hsaved⟩
  | balance => exact ⟨hm.relayout (.of_eq (congrArg allLeaves SizedNode.shape_balance)), hsaved⟩
  | resetToSingle bufferIdx => exact ⟨WindowManager.resetToSingle_wellFormed s.1.forget bufferIdx, hsaved⟩
  | maximizeToggle =>
    rw [SizedManager.step]
    split
    · rename_i saved hslot
      exact ⟨hsaved saved hslot, fun _ h => nomatch h⟩
    · exact ⟨hm.maximize, fun saved h => some.inj h ▸ hm⟩

lemma kept_run (bufferIdx : ℕ) (operations : List (Operation R)) : Kept (run bufferIdx operations) := by
  have hnew : Kept (new bufferIdx, (none : Option (SizedManager R))) := by
    refine ⟨⟨⟨.refl _, nodup_singleton _, ?_⟩, mem_singleton_self _⟩, fun _ h => nomatch h⟩
    intro id hid
    rw [mem_singleton.mp hid]
    exact Nat.zero_lt_one
  rw [run]
  generalize (new bufferIdx, none) = s at hnew
  induction operations generalizing s with
  | nil => exact hnew
  | cons operation operations ih => exact ih _ (hnew.step operation)

theorem window_tree_kept (bufferIdx : ℕ) (operations : List (Operation R)) :
    let m := (run bufferIdx operations).1
    m.layout.leaves.Nodup ∧ (m.windows.map ManagedWindow.id).Perm m.layout.leaves ∧ m.layout.leaves ≠ [] ∧
      m.focused ∈ m.layout.leaves ∧ (∀ id ∈ m.layout.leaves, id < m.nextId) ∧
      ∀ opening direction bufferIdx' available id m', m.opens opening direction bufferIdx' available = .ok (id, m') →
        ∃ m'', m'.close id = some (bufferIdx', m'') ∧ m''.layout = m.layout ∧ m''.windows = m.windows ∧
          m''.focused = m.focused := by
  intro m
  have hm : m.WellFormed := (kept_run bufferIdx operations).1
  refine ⟨hm.nodup, hm.perm, m.layout.shape.allLeaves_ne_nil, hm.focused_mem, hm.fresh, ?_⟩
  intro opening direction bufferIdx' available id m' hopen
  obtain ⟨rfl, layout, rfl, hext⟩ := hm.extends_of_opens hopen
  exact ⟨_, hm.close_withLeaf hext bufferIdx', rfl, rfl, rfl⟩

end Runs

end SizedManager

end Mae.Editor
