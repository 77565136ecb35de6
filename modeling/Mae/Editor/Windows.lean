import Mae.Editor.Buffer

/-! The window manager: a tree of splits whose leaves are windows. -/

namespace Mae.Editor

open List

abbrev WindowId := ℕ

/-- A window of the window manager; its cursor is all that buffers see of it. -/
structure ManagedWindow extends Window where
  id : WindowId
  bufferIdx : ℕ
  deriving DecidableEq, Repr

inductive SplitDirection where
  | vertical | horizontal
  deriving DecidableEq, Repr

inductive LayoutNode where
  | leaf (id : WindowId)
  | split (direction : SplitDirection) (first second : LayoutNode)
  | group (label : String) (inner : LayoutNode)
  deriving DecidableEq, Repr

namespace LayoutNode

def allLeaves : LayoutNode → List WindowId
  | leaf id => [id]
  | split _ first second => first.allLeaves ++ second.allLeaves
  | group _ inner => inner.allLeaves

def containsLeaf (target : WindowId) : LayoutNode → Bool
  | leaf id => id == target
  | split _ first second => first.containsLeaf target || second.containsLeaf target
  | group _ inner => inner.containsLeaf target

def groupLabel (target : WindowId) : LayoutNode → Option String
  | leaf _ => none
  | split _ first second => (first.groupLabel target).or (second.groupLabel target)
  | group label inner => if inner.containsLeaf target then some label else none

def collectGroupLeaves (target : String) : LayoutNode → List WindowId
  | leaf _ => []
  | split _ first second => first.collectGroupLeaves target ++ second.collectGroupLeaves target
  | group label inner => if label = target then inner.allLeaves else inner.collectGroupLeaves target

def splitForLeaf (target new : WindowId) (direction : SplitDirection) : LayoutNode → LayoutNode
  | leaf id => if id = target then split direction (leaf id) (leaf new) else leaf id
  | group label inner =>
    if inner.containsLeaf target then split direction (group label inner) (leaf new) else group label inner
  | split d first second =>
    if first.containsLeaf target then split d (first.splitForLeaf target new direction) second
    else split d first (second.splitForLeaf target new direction)

def soleLeafId : LayoutNode → Option WindowId
  | leaf id => some id
  | group _ inner => inner.soleLeafId
  | split _ _ _ => none

def removeLeaf (target : WindowId) : LayoutNode → LayoutNode
  | leaf id => leaf id
  | split d first second =>
    if first.soleLeafId = some target then second
    else if second.soleLeafId = some target then first
    else split d (first.removeLeaf target) (second.removeLeaf target)
  | group label inner => group label (inner.removeLeaf target)

def firstLeafId : LayoutNode → WindowId
  | leaf id => id
  | split _ first _ => first.firstLeafId
  | group _ inner => inner.firstLeafId

variable {n : LayoutNode} {target new : WindowId} {direction : SplitDirection}

lemma firstLeafId_mem (n : LayoutNode) : n.firstLeafId ∈ n.allLeaves := by
  induction n with
  | leaf id => exact mem_singleton_self id
  | split d first second ih _ => exact mem_append_left _ ih
  | group label inner ih => exact ih

lemma containsLeaf_iff : n.containsLeaf target = true ↔ target ∈ n.allLeaves := by
  induction n with
  | leaf id =>
    rw [containsLeaf, allLeaves, mem_singleton, beq_iff_eq]
    exact eq_comm
  | split d first second ih ih' => simp [containsLeaf, allLeaves, ih, ih']
  | group label inner ih => exact ih

lemma allLeaves_of_soleLeafId (h : n.soleLeafId = some target) : n.allLeaves = [target] := by
  induction n with
  | leaf id =>
    cases h
    rfl
  | split d first second _ _ => cases h
  | group label inner ih => exact ih h

lemma allLeaves_ne_nil (n : LayoutNode) : n.allLeaves ≠ [] := ne_nil_of_mem n.firstLeafId_mem

lemma soleLeafId_of_allLeaves (h : n.allLeaves = [target]) : n.soleLeafId = some target := by
  induction n with
  | leaf id =>
    obtain rfl : id = target := singleton_inj.mp h
    rfl
  | split d first second _ _ =>
    have hlen := congrArg List.length h
    have hfirst := length_pos_of_ne_nil first.allLeaves_ne_nil
    have hsecond := length_pos_of_ne_nil second.allLeaves_ne_nil
    rw [allLeaves, length_append, length_singleton] at hlen
    omega
  | group label inner ih => exact ih h

lemma splitForLeaf_perm (h : target ∈ n.allLeaves) :
    (n.splitForLeaf target new direction).allLeaves.Perm (new :: n.allLeaves) := by
  induction n with
  | leaf id =>
    obtain rfl : target = id := mem_singleton.mp h
    rw [splitForLeaf, if_pos rfl]
    exact Perm.swap _ _ _
  | group label inner _ =>
    have hinner : inner.containsLeaf target = true := containsLeaf_iff.mpr h
    rw [splitForLeaf, if_pos hinner]
    exact perm_append_comm
  | split d first second ih ih' =>
    rw [splitForLeaf]
    split
    · rename_i hfirst
      exact (ih (containsLeaf_iff.mp hfirst)).append_right second.allLeaves
    · rename_i hfirst
      have hsecond : target ∈ second.allLeaves :=
        (mem_append.mp h).resolve_left fun hmem => hfirst (containsLeaf_iff.mpr hmem)
      exact ((ih' hsecond).append_left first.allLeaves).trans perm_middle

lemma removeLeaf_of_notMem (h : target ∉ n.allLeaves) : n.removeLeaf target = n := by
  induction n with
  | leaf id => rfl
  | group label inner ih => rw [removeLeaf, ih h]
  | split d first second ih ih' =>
    rw [allLeaves, mem_append, not_or] at h
    rw [removeLeaf, if_neg, if_neg, ih h.1, ih' h.2]
    · intro hsole
      exact h.2 (allLeaves_of_soleLeafId hsole ▸ mem_singleton_self target)
    · intro hsole
      exact h.1 (allLeaves_of_soleLeafId hsole ▸ mem_singleton_self target)

lemma removeLeaf_leaves (hnodup : n.allLeaves.Nodup) (h : n.allLeaves ≠ [target]) :
    (n.removeLeaf target).allLeaves = n.allLeaves.erase target := by
  induction n with
  | leaf id =>
    have hne : id ≠ target := fun heq => h (by rw [allLeaves, heq])
    rw [removeLeaf, allLeaves, erase_cons_tail (by simpa using hne), erase_nil]
  | group label inner ih => exact ih hnodup h
  | split d first second ih ih' =>
    rw [allLeaves, nodup_append] at hnodup
    obtain ⟨hfirst, hsecond, hdisjoint⟩ := hnodup
    rw [removeLeaf]
    split
    · rename_i hsole
      rw [allLeaves, allLeaves_of_soleLeafId hsole, singleton_append, erase_cons_head]
    split
    · rename_i hnot hsole
      have hmem : target ∉ first.allLeaves := by
        intro hmem
        exact hdisjoint target hmem target (allLeaves_of_soleLeafId hsole ▸ mem_singleton_self target) rfl
      rw [allLeaves, erase_append_right _ hmem, allLeaves_of_soleLeafId hsole, erase_cons_head, append_nil]
    · rename_i hnot hnot'
      have hfirst' := ih hfirst fun hsole => hnot (soleLeafId_of_allLeaves hsole)
      have hsecond' := ih' hsecond fun hsole => hnot' (soleLeafId_of_allLeaves hsole)
      rw [allLeaves, allLeaves]
      by_cases hmem : target ∈ first.allLeaves
      · have hnotMem : target ∉ second.allLeaves := fun hmem' => hdisjoint target hmem target hmem' rfl
        rw [hfirst', removeLeaf_of_notMem hnotMem, erase_append_left _ hmem]
      · rw [removeLeaf_of_notMem hmem, hsecond', erase_append_right _ hmem]

end LayoutNode

structure WindowManager where
  windows : List ManagedWindow
  layout : LayoutNode
  focused : WindowId
  nextId : WindowId
  deriving DecidableEq, Repr

def minWindowHeight : ℕ := 3

def minWindowWidth : ℕ := 20

namespace WindowManager

variable (m : WindowManager)

def window (id : WindowId) : Option ManagedWindow := m.windows.find? fun w => w.id == id

def focusedWindow : Option ManagedWindow := m.window m.focused

def resetToSingle (bufferIdx : ℕ) : WindowManager where
  windows := [⟨⟨0, 0⟩, m.nextId, bufferIdx⟩]
  layout := .leaf m.nextId
  focused := m.nextId
  nextId := m.nextId + 1

def splitOff (direction : SplitDirection) (bufferIdx : ℕ) : WindowManager :=
  { m with
    windows := m.windows.filter (fun w => w.id != m.nextId) ++ [⟨⟨0, 0⟩, m.nextId, bufferIdx⟩]
    layout := m.layout.splitForLeaf m.focused m.nextId direction
    nextId := m.nextId + 1 }

/-- `half` is half the width or height of the focused window. -/
def split (direction : SplitDirection) (bufferIdx half : ℕ) : Except String (WindowId × WindowManager) :=
  match direction with
  | .vertical =>
    if half < minWindowWidth then
      .error ("Cannot split: width " ++ toString half ++ " < minimum " ++ toString minWindowWidth ++ " per pane")
    else .ok (m.nextId, m.splitOff direction bufferIdx)
  | .horizontal =>
    if half < minWindowHeight then
      .error ("Cannot split: height " ++ toString half ++ " < minimum " ++ toString minWindowHeight ++ " per pane")
    else .ok (m.nextId, m.splitOff direction bufferIdx)

def isInGroup (id : WindowId) : Bool := (m.layout.groupLabel id).isSome

def groupMemberIds (id : WindowId) : List WindowId :=
  match m.layout.groupLabel id with
  | some label => m.layout.collectGroupLeaves label
  | none => []

def drop (id : WindowId) : WindowManager :=
  { m with layout := m.layout.removeLeaf id, windows := m.windows.filter fun w => w.id != id }

def closeAll (ids : List WindowId) : WindowManager :=
  let closed := ids.foldl drop m
  if ids.contains m.focused then { closed with focused := closed.layout.firstLeafId } else closed

def closeGroup (id : WindowId) : List ℕ × WindowManager :=
  let members := m.groupMemberIds id
  if members = [] ∨ m.windows.length ≤ members.length then ([], m)
  else (members.filterMap fun id => (m.window id).map ManagedWindow.bufferIdx, m.closeAll members)

def close (id : WindowId) : Option (ℕ × WindowManager) :=
  if m.windows.length ≤ 1 then none else (m.window id).map fun w => (w.bufferIdx, m.closeAll [id])

/-- `nearest` is the window that the geometry finds in the direction asked for, if any. -/
def focusDirection (nearest : Option WindowId) : WindowManager :=
  match nearest with
  | some id => if m.layout.containsLeaf m.focused && m.layout.containsLeaf id then { m with focused := id } else m
  | none => m

def maximizeToggle (saved : Option WindowManager) : WindowManager × Option WindowManager :=
  match saved with
  | some old => (old, none)
  | none =>
    ({ m with layout := .leaf m.focused, windows := m.windows.filter fun w => w.id == m.focused }, some m)

variable {m} {id : WindowId}

lemma split_cases (m : WindowManager) (direction : SplitDirection) (bufferIdx half : ℕ) :
    m.split direction bufferIdx half = .ok (m.nextId, m.splitOff direction bufferIdx) ∨
      ∃ message, m.split direction bufferIdx half = .error message := by
  cases direction with
  | vertical =>
    rw [split]
    split
    · exact .inr ⟨_, rfl⟩
    · exact .inl rfl
  | horizontal =>
    rw [split]
    split
    · exact .inr ⟨_, rfl⟩
    · exact .inl rfl

structure Tiled (m : WindowManager) : Prop where
  perm : (m.windows.map ManagedWindow.id).Perm m.layout.allLeaves
  nodup : m.layout.allLeaves.Nodup
  fresh : ∀ id ∈ m.layout.allLeaves, id < m.nextId

structure WellFormed (m : WindowManager) : Prop extends Tiled m where
  focused_mem : m.focused ∈ m.layout.allLeaves

lemma map_id_filter (ws : List ManagedWindow) (id : WindowId) :
    (ws.filter fun w => w.id != id).map ManagedWindow.id = (ws.map ManagedWindow.id).filter (· != id) := by
  rw [filter_map]
  rfl

lemma WellFormed.map {f : ManagedWindow → ManagedWindow} (hm : m.WellFormed) (hf : ∀ w, (f w).id = w.id) :
    { m with windows := m.windows.map f }.WellFormed := by
  refine ⟨⟨?_, hm.nodup, hm.fresh⟩, hm.focused_mem⟩
  rw [List.map_map, map_congr_left fun w _ => show (ManagedWindow.id ∘ f) w = w.id from hf w]
  exact hm.perm

lemma Tiled.length (hm : m.Tiled) : m.windows.length = m.layout.allLeaves.length := by
  rw [← hm.perm.length_eq, length_map]

lemma resetToSingle_wellFormed (m : WindowManager) (bufferIdx : ℕ) : (m.resetToSingle bufferIdx).WellFormed where
  perm := List.Perm.refl _
  nodup := nodup_singleton _
  fresh id hid := by
    rw [mem_singleton.mp hid]
    exact Nat.lt_succ_self m.nextId
  focused_mem := mem_singleton_self _

lemma Tiled.nextId_notMem (hm : m.Tiled) : m.nextId ∉ m.layout.allLeaves := fun hmem => Nat.lt_irrefl _ (hm.fresh _ hmem)

lemma Tiled.filter_nextId (hm : m.Tiled) : (m.windows.filter fun w => w.id != m.nextId) = m.windows := by
  rw [filter_eq_self]
  intro w hw
  have hid : w.id ∈ m.layout.allLeaves := hm.perm.subset (mem_map_of_mem hw)
  rw [bne_iff_ne]
  intro heq
  exact hm.nextId_notMem (heq ▸ hid)

lemma WellFormed.relayout {layout : LayoutNode} (hm : m.WellFormed) (hperm : layout.allLeaves.Perm m.layout.allLeaves) :
    ({ m with layout := layout }).WellFormed where
  perm := hm.perm.trans hperm.symm
  nodup := hperm.nodup_iff.mpr hm.nodup
  fresh id hid := hm.fresh id (hperm.subset hid)
  focused_mem := hperm.symm.subset hm.focused_mem

lemma WellFormed.withLeaf {layout : LayoutNode} (hm : m.WellFormed)
    (hperm : layout.allLeaves.Perm (m.nextId :: m.layout.allLeaves)) (bufferIdx : ℕ) :
    ({ m with
        windows := m.windows.filter (fun w => w.id != m.nextId) ++ [⟨⟨0, 0⟩, m.nextId, bufferIdx⟩]
        layout := layout
        nextId := m.nextId + 1 } : WindowManager).WellFormed := by
  refine ⟨⟨?_, ?_, ?_⟩, ?_⟩
  · refine Perm.trans ?_ hperm.symm
    rw [hm.filter_nextId, map_append]
    exact perm_append_comm.trans (hm.perm.cons _)
  · exact hperm.nodup_iff.mpr (nodup_cons.mpr ⟨hm.nextId_notMem, hm.nodup⟩)
  · intro id hid
    rcases mem_cons.mp (hperm.subset hid) with rfl | hid
    · exact Nat.lt_succ_self _
    · exact Nat.lt_succ_of_lt (hm.fresh id hid)
  · exact hperm.symm.subset (mem_cons_of_mem _ hm.focused_mem)

lemma WellFormed.splitOff (hm : m.WellFormed) (direction : SplitDirection) (bufferIdx : ℕ) :
    (m.splitOff direction bufferIdx).WellFormed :=
  hm.withLeaf (LayoutNode.splitForLeaf_perm hm.focused_mem) bufferIdx

lemma Tiled.drop (hm : m.Tiled) (h : m.layout.allLeaves ≠ [id]) :
    (m.drop id).Tiled ∧ (m.drop id).layout.allLeaves = m.layout.allLeaves.filter (· != id) := by
  have hleaves : (m.drop id).layout.allLeaves = m.layout.allLeaves.filter (· != id) := by
    rw [WindowManager.drop, LayoutNode.removeLeaf_leaves hm.nodup h, hm.nodup.erase_eq_filter]
  refine ⟨⟨?_, ?_, ?_⟩, hleaves⟩
  · rw [hleaves, WindowManager.drop, map_id_filter]
    exact hm.perm.filter _
  · rw [hleaves]
    exact hm.nodup.filter _
  · intro i hi
    rw [hleaves] at hi
    exact hm.fresh i (mem_of_mem_filter hi)

lemma collectGroupLeaves_sublist (label : String) (n : LayoutNode) :
    (n.collectGroupLeaves label).Sublist n.allLeaves := by
  induction n with
  | leaf id => exact nil_sublist _
  | split d first second ih ih' => exact ih.append ih'
  | group l inner ih =>
    rw [LayoutNode.collectGroupLeaves]
    split
    · exact Sublist.refl _
    · exact ih

lemma Tiled.foldl_drop {ids : List WindowId} (hm : m.Tiled) (hids : ids.Nodup) (hsub : ids ⊆ m.layout.allLeaves)
    (hlen : ids.length < m.layout.allLeaves.length) :
    (ids.foldl WindowManager.drop m).Tiled ∧ (ids.foldl WindowManager.drop m).windows ⊆ m.windows ∧
      (ids.foldl WindowManager.drop m).nextId = m.nextId ∧ (ids.foldl WindowManager.drop m).focused = m.focused ∧
      ∀ i ∈ m.layout.allLeaves, i ∉ ids → i ∈ (ids.foldl WindowManager.drop m).layout.allLeaves := by
  induction ids generalizing m with
  | nil => exact ⟨hm, Subset.refl _, rfl, rfl, fun i hi _ => hi⟩
  | cons id ids ih =>
    rw [nodup_cons] at hids
    rw [cons_subset] at hsub
    rw [length_cons] at hlen
    have hne : m.layout.allLeaves ≠ [id] := by
      intro heq
      rw [heq, length_singleton] at hlen
      omega
    obtain ⟨htiled, hleaves⟩ := hm.drop hne
    have hlen' : (m.drop id).layout.allLeaves.length = m.layout.allLeaves.length - 1 := by
      rw [hleaves, ← hm.nodup.erase_eq_filter, length_erase_of_mem hsub.1]
    have hsub' : ids ⊆ (m.drop id).layout.allLeaves := by
      intro i hi
      rw [hleaves, mem_filter, bne_iff_ne]
      exact ⟨hsub.2 hi, fun heq => hids.1 (heq ▸ hi)⟩
    obtain ⟨h, hwindows, hnext, hfocused, hmem⟩ := ih htiled hids.2 hsub' (by omega)
    refine ⟨h, fun w hw => mem_of_mem_filter (hwindows hw), hnext, hfocused, ?_⟩
    intro i hi hnot
    rw [mem_cons, not_or] at hnot
    apply hmem i _ hnot.2
    rw [hleaves, mem_filter, bne_iff_ne]
    exact ⟨hi, hnot.1⟩

structure Closes (m m' : WindowManager) : Prop where
  wellFormed : m'.WellFormed
  windows : m'.windows ⊆ m.windows
  nextId : m'.nextId = m.nextId

lemma WellFormed.closeAll {ids : List WindowId} (hm : m.WellFormed) (hids : ids.Nodup) (hsub : ids ⊆ m.layout.allLeaves)
    (hlen : ids.length < m.layout.allLeaves.length) : m.Closes (m.closeAll ids) := by
  obtain ⟨htiled, hwindows, hnext, hfocused, hmem⟩ := hm.foldl_drop hids hsub hlen
  rw [WindowManager.closeAll]
  split
  · exact ⟨⟨⟨htiled.perm, htiled.nodup, htiled.fresh⟩, LayoutNode.firstLeafId_mem _⟩, hwindows, hnext⟩
  · rename_i hnot
    refine ⟨⟨htiled, ?_⟩, hwindows, hnext⟩
    rw [hfocused]
    exact hmem _ hm.focused_mem (by simpa using hnot)

lemma WellFormed.close {bufferIdx : ℕ} {m' : WindowManager} (hm : m.WellFormed) (h : m.close id = some (bufferIdx, m')) :
    m.Closes m' := by
  rw [WindowManager.close] at h
  split at h
  · cases h
  · rename_i hlen
    rw [hm.length] at hlen
    obtain ⟨w, hw, h⟩ := Option.map_eq_some_iff.mp h
    cases h
    have hid : w.id = id := by simpa using find?_some hw
    have hmem : id ∈ m.layout.allLeaves := hid ▸ hm.perm.subset (mem_map_of_mem (mem_of_find?_eq_some hw))
    exact hm.closeAll (nodup_singleton id) (cons_subset.mpr ⟨hmem, nil_subset _⟩) (Nat.lt_of_not_le hlen)

lemma groupMemberIds_sublist (m : WindowManager) (id : WindowId) : (m.groupMemberIds id).Sublist m.layout.allLeaves := by
  rw [groupMemberIds]
  split
  · exact collectGroupLeaves_sublist _ _
  · exact nil_sublist _

lemma WellFormed.closeGroup (hm : m.WellFormed) (id : WindowId) : m.Closes (m.closeGroup id).2 := by
  have hsub := m.groupMemberIds_sublist id
  rw [WindowManager.closeGroup]
  split
  · exact ⟨hm, Subset.refl _, rfl⟩
  · rename_i h
    rw [not_or, not_le, hm.length] at h
    exact hm.closeAll (hm.nodup.sublist hsub) hsub.subset h.2

lemma Tiled.exists_window (hm : m.Tiled) (h : id ∈ m.layout.allLeaves) : ∃ w ∈ m.windows, m.window id = some w := by
  obtain ⟨w, hw, hid⟩ := mem_map.mp (hm.perm.mem_iff.mpr h)
  have hsome : (m.windows.find? fun w => w.id == id).isSome := by
    rw [find?_isSome]
    exact ⟨w, hw, by simpa using hid⟩
  obtain ⟨v, hv⟩ := Option.isSome_iff_exists.mp hsome
  exact ⟨v, mem_of_find?_eq_some hv, hv⟩

lemma WellFormed.closeGroup_refused (hm : m.WellFormed) (h : (m.closeGroup id).1 = []) : (m.closeGroup id).2 = m := by
  rw [WindowManager.closeGroup] at h ⊢
  split
  · rfl
  · rename_i hmembers
    rw [if_neg hmembers] at h
    rw [not_or] at hmembers
    obtain ⟨i, hi⟩ := exists_mem_of_ne_nil _ hmembers.1
    obtain ⟨w, -, hw⟩ := hm.exists_window ((groupMemberIds_sublist m id).subset hi)
    have hmem := filterMap_eq_nil_iff.mp h i hi
    rw [hw] at hmem
    cases hmem

lemma WellFormed.focusDirection (hm : m.WellFormed) (nearest : Option WindowId) : (m.focusDirection nearest).WellFormed := by
  cases nearest with
  | none => exact hm
  | some id =>
    rw [WindowManager.focusDirection]
    split
    · rename_i h
      rw [Bool.and_eq_true] at h
      exact ⟨⟨hm.perm, hm.nodup, hm.fresh⟩, LayoutNode.containsLeaf_iff.mp h.2⟩
    · exact hm

lemma WellFormed.maximize (hm : m.WellFormed) : (m.maximizeToggle none).1.WellFormed where
  perm := by
    have hmap : ((m.windows.filter fun w => w.id == m.focused).map ManagedWindow.id) =
        (m.windows.map ManagedWindow.id).filter (· == m.focused) := by
      rw [filter_map]
      rfl
    have hcount : (m.windows.map ManagedWindow.id).count m.focused = 1 :=
      (hm.perm.count_eq m.focused).trans (count_eq_one_of_mem hm.nodup hm.focused_mem)
    rw [maximizeToggle, hmap, filter_beq, hcount]
    exact List.Perm.refl _
  nodup := nodup_singleton _
  fresh id hid := by
    rw [mem_singleton.mp hid]
    exact hm.fresh _ hm.focused_mem
  focused_mem := mem_singleton_self _

end WindowManager

end Mae.Editor
