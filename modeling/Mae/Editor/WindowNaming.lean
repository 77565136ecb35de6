import Mae.Editor.KillBuffer

/-! Windows name buffers by position. -/

namespace Mae.Editor

open List Option

variable {e e' e'' : EditorState} {w w' : ManagedWindow} {m : WindowManager} {idx : ℕ}

namespace EditorState


def hidden (e : EditorState) : List ManagedWindow := (e.savedMaximizeLayout.map WindowManager.windows).getD []

def allWindows (e : EditorState) : List ManagedWindow := e.windowMgr.windows ++ e.hidden

def bufferIds (e : EditorState) : List ℕ := e.buffers.map BufferEntry.id

def shows (e : EditorState) (w : ManagedWindow) : Option ℕ := e.bufferIds[w.bufferIdx]?

def Keeps (e e' : EditorState) : Prop :=
  ∀ w ∈ e.allWindows, ∀ w' ∈ e'.allWindows, w.id = w'.id → ∀ i ∈ e.shows w, i ∈ e'.bufferIds → e'.shows w' = some i

structure Good (e : EditorState) : Prop where
  wellFormed : e.windowMgr.WellFormed
  saved : ∀ m ∈ e.savedMaximizeLayout, m.WellFormed ∧ m.nextId ≤ e.windowMgr.nextId
  inRange : ∀ w ∈ e.allWindows, w.bufferIdx < e.buffers.length
  agree : ∀ w ∈ e.windowMgr.windows, ∀ v ∈ e.hidden, w.id = v.id → w.bufferIdx = v.bufferIdx
  nodup : e.bufferIds.Nodup
  fresh : ∀ i ∈ e.bufferIds, i < e.nextBufferId

structure Advances (e e' : EditorState) : Prop where
  good : e'.Good
  keeps : e.Keeps e'

structure Shrinks (e e' : EditorState) : Prop extends Advances e e' where
  windows : ∀ w' ∈ e'.allWindows, ∃ w ∈ e.allWindows, w.id = w'.id
  buffers : e'.bufferIds ⊆ e.bufferIds

lemma mem_hidden (hw : w ∈ e.hidden) : ∃ m ∈ e.savedMaximizeLayout, w ∈ m.windows := by
  cases hsaved : e.savedMaximizeLayout with
  | none =>
    rw [hidden, hsaved] at hw
    cases hw
  | some m =>
    rw [hidden, hsaved] at hw
    exact ⟨m, rfl, hw⟩

lemma windows_unique (hm : m.Tiled) (hw : w ∈ m.windows) (hw' : w' ∈ m.windows) (hid : w.id = w'.id) : w = w' :=
  inj_on_of_nodup_map (hm.perm.nodup_iff.mpr hm.nodup) hw hw' hid

lemma Good.same_buffer (he : e.Good) (hw : w ∈ e.allWindows) (hw' : w' ∈ e.allWindows) (hid : w.id = w'.id) :
    w.bufferIdx = w'.bufferIdx := by
  rcases mem_append.mp hw with hw | hw <;> rcases mem_append.mp hw' with hw' | hw'
  · rw [windows_unique he.wellFormed.toTiled hw hw' hid]
  · exact he.agree w hw w' hw' hid
  · exact (he.agree w' hw' w hw hid.symm).symm
  · obtain ⟨m, hm, hw⟩ := mem_hidden hw
    obtain ⟨m', hm', hw'⟩ := mem_hidden hw'
    obtain rfl : m = m' := mem_unique hm hm'
    rw [windows_unique (he.saved m hm).1.toTiled hw hw' hid]

lemma Advances.trans (h : e.Advances e') (h' : e'.Shrinks e'') : e.Advances e'' := by
  refine ⟨h'.good, ?_⟩
  intro w hw w'' hw'' hid i hi hmem
  obtain ⟨w', hw', hid'⟩ := h'.windows w'' hw''
  have hshows : e'.shows w' = some i := h.keeps w hw w' hw' (hid.trans hid'.symm) i hi (h'.buffers hmem)
  exact h'.keeps w' hw' w'' hw'' hid' i hshows hmem

lemma Shrinks.trans (h : e.Shrinks e') (h' : e'.Shrinks e'') : e.Shrinks e'' := by
  refine ⟨h.toAdvances.trans h', ?_, fun i hi => h.buffers (h'.buffers hi)⟩
  intro w'' hw''
  obtain ⟨w', hw', hid'⟩ := h'.windows w'' hw''
  obtain ⟨w, hw, hid⟩ := h.windows w' hw'
  exact ⟨w, hw, hid.trans hid'⟩

lemma keeps_of_buffers (hbuffers : e'.buffers = e.buffers)
    (h : ∀ w ∈ e.allWindows, ∀ w' ∈ e'.allWindows, w.id = w'.id → w.bufferIdx = w'.bufferIdx) : e.Keeps e' := by
  intro w hw w' hw' hid i hi _
  rw [shows, bufferIds, hbuffers, ← h w hw w' hw' hid]
  exact hi

lemma Advances.congr (h : e.Advances e') (hbuffers : e''.buffers = e'.buffers) (hwindows : e''.windowMgr = e'.windowMgr)
    (hsaved : e''.savedMaximizeLayout = e'.savedMaximizeLayout) (hnext : e''.nextBufferId = e'.nextBufferId) :
    e.Advances e'' := by
  obtain ⟨⟨hwf, hs, hr, ha, hn, hf⟩, hk⟩ := h
  -- only these four fields are read
  cases e''
  subst hbuffers hwindows hsaved hnext
  exact ⟨⟨hwf, hs, hr, ha, hn, hf⟩, hk⟩

lemma Good.shrinks (he : e.Good) : e.Shrinks e :=
  ⟨⟨he, keeps_of_buffers rfl fun _ hw _ hw' hid => he.same_buffer hw hw' hid⟩, fun w hw => ⟨w, hw, rfl⟩, Subset.refl _⟩

lemma Shrinks.congr (h : e.Shrinks e') (hbuffers : e''.buffers = e'.buffers) (hwindows : e''.windowMgr = e'.windowMgr)
    (hsaved : e''.savedMaximizeLayout = e'.savedMaximizeLayout) (hnext : e''.nextBufferId = e'.nextBufferId) :
    e.Shrinks e'' := by
  cases e''
  subst hbuffers hwindows hsaved hnext
  exact ⟨h.toAdvances.congr rfl rfl rfl rfl, h.windows, h.buffers⟩

section

variable (he : e.Good)
include he

lemma Good.message (message : String) : e.Shrinks { e with status := message } :=
  he.shrinks.congr rfl rfl rfl rfl

/-- A window shows the position that `f` makes of the one it showed. -/
lemma Good.turned (f : ℕ → ℕ) (hm : e'.windowMgr.WellFormed)
    (hsaved : ∀ m ∈ e'.savedMaximizeLayout, m.WellFormed ∧ m.nextId ≤ e'.windowMgr.nextId)
    (hfrom : ∀ w' ∈ e'.allWindows, ∃ w ∈ e.allWindows, w.id = w'.id ∧ f w.bufferIdx = w'.bufferIdx)
    (hrange : ∀ i < e.buffers.length, f i < e'.buffers.length) (hbuffers : e'.bufferIds.Sublist e.bufferIds)
    (hnext : e'.nextBufferId = e.nextBufferId)
    (hshows : ∀ i b, e.bufferIds[i]? = some b → b ∈ e'.bufferIds → e'.bufferIds[f i]? = some b) : e.Shrinks e' := by
  have hsame : ∀ w ∈ e.allWindows, ∀ w' ∈ e'.allWindows, w.id = w'.id → f w.bufferIdx = w'.bufferIdx := by
    intro w hw w' hw' hid
    obtain ⟨u, hu, hid', hidx⟩ := hfrom w' hw'
    rw [he.same_buffer hw hu (hid.trans hid'.symm), hidx]
  refine ⟨⟨⟨hm, hsaved, ?_, ?_, he.nodup.sublist hbuffers, ?_⟩, ?_⟩, ?_, hbuffers.subset⟩
  · intro w' hw'
    obtain ⟨w, hw, -, hidx⟩ := hfrom w' hw'
    exact hidx ▸ hrange _ (he.inRange w hw)
  · intro w' hw' v hv hid
    obtain ⟨w, hw, hid', hidx⟩ := hfrom w' (mem_append_left _ hw')
    rw [← hidx]
    exact hsame w hw v (mem_append_right _ hv) (hid'.trans hid)
  · exact fun i hi => hnext ▸ he.fresh i (hbuffers.subset hi)
  · intro w hw w' hw' hid i hi hmem
    rw [shows, ← hsame w hw w' hw' hid]
    exact hshows _ i hi hmem
  · intro w' hw'
    obtain ⟨w, hw, hid, -⟩ := hfrom w' hw'
    exact ⟨w, hw, hid⟩

/-- The windows change and the buffers do not. -/
lemma Good.rearranged (hm : e'.windowMgr.WellFormed)
    (hsaved : ∀ m ∈ e'.savedMaximizeLayout, m.WellFormed ∧ m.nextId ≤ e'.windowMgr.nextId)
    (hfrom : ∀ w' ∈ e'.allWindows, ∃ w ∈ e.allWindows, w.id = w'.id ∧ w.bufferIdx = w'.bufferIdx)
    (hbuffers : e'.buffers = e.buffers) (hnext : e'.nextBufferId = e.nextBufferId) : e.Shrinks e' := by
  have hids : e'.bufferIds = e.bufferIds := by rw [bufferIds, bufferIds, hbuffers]
  exact he.turned id hm hsaved hfrom (fun i hi => hbuffers ▸ hi) (hids ▸ Sublist.refl _) hnext
    fun i b hb _ => hids ▸ hb

lemma Good.shrinks_of_windows (hm : m.WellFormed) (hnext : m.nextId = e.windowMgr.nextId)
    (hwindows : ∀ w' ∈ m.windows, ∃ w ∈ e.windowMgr.windows, w.id = w'.id ∧ w.bufferIdx = w'.bufferIdx) :
    e.Shrinks { e with windowMgr := m } := by
  refine he.rearranged hm (hnext ▸ he.saved) (fun w' hw' => ?_) rfl rfl
  rcases mem_append.mp hw' with hw' | hw'
  · obtain ⟨w, hw, h⟩ := hwindows w' hw'
    exact ⟨w, mem_append_left _ hw, h⟩
  · exact ⟨w', mem_append_right _ hw', rfl, rfl⟩

lemma Good.closes (h : e.windowMgr.Closes m) : e.Shrinks { e with windowMgr := m } :=
  he.shrinks_of_windows h.wellFormed h.nextId fun w hw => ⟨w, h.windows hw, rfl, rfl⟩

lemma Good.closeWindowId (id : WindowId) : e.Shrinks (e.closeWindowId id) := by
  rw [EditorState.closeWindowId]
  split
  · rename_i h
    exact he.closes (he.wellFormed.close h)
  · exact he.shrinks

lemma Good.mapWindows {f : ManagedWindow → ManagedWindow}
    (hf : ∀ w, (f w).id = w.id ∧ (f w).bufferIdx = w.bufferIdx) : e.Shrinks (e.mapWindows f) := by
  refine he.shrinks_of_windows (he.wellFormed.map fun w => (hf w).1) rfl fun w' hw' => ?_
  obtain ⟨w, hw, rfl⟩ := List.mem_map.mp hw'
  exact ⟨w, hw, (hf w).1.symm, (hf w).2.symm⟩

end

variable {i j : ℕ}

lemma usableAt_lt {buffers : List BufferEntry} (h : usableAt buffers j = true) : j < buffers.length := by
  obtain ⟨b, hb, -⟩ := (Option.any_eq_true _ _).mp h
  exact (List.getElem?_eq_some_iff.mp hb).1

lemma findReplacementBuffer_lt {buffers : List BufferEntry} (h : buffers ≠ []) (near : ℕ) :
    findReplacementBuffer buffers near < buffers.length := by
  have hpos := length_pos_of_ne_nil h
  rw [findReplacementBuffer]
  cases hfind : (List.range buffers.length).findSome? (replacementAt buffers (min near (buffers.length - 1))) with
  | none =>
    rw [getD_none]
    omega
  | some j =>
    obtain ⟨offset, -, hj⟩ := exists_of_findSome?_eq_some hfind
    rw [replacementAt] at hj
    split at hj
    · rename_i hok
      cases hj
      exact usableAt_lt hok.2
    split at hj
    · rename_i hok
      cases hj
      exact usableAt_lt hok
    · cases hj

lemma getElem?_eraseIdx_shift {l : List ℕ} (h : shiftIdx idx i = some j) : (l.eraseIdx idx)[j]? = l[i]? := by
  rw [shiftIdx] at h
  split at h
  · cases h
  split at h
  · cases h
    rw [getElem?_eraseIdx_of_ge (by omega)]
    congr 1
    omega
  · cases h
    rw [getElem?_eraseIdx_of_lt (by omega)]

lemma notMem_eraseIdx {l : List ℕ} (hl : l.Nodup) (h : l[idx]? = some i) : i ∉ l.eraseIdx idx := by
  obtain ⟨hlt, rfl⟩ := List.getElem?_eq_some_iff.mp h
  rw [← hl.erase_getElem idx hlt]
  exact hl.not_mem_erase

lemma retarget_id (buffers : List BufferEntry) (w : ManagedWindow) : (retarget buffers idx w).id = w.id := by
  rw [retarget]
  split
  · rfl
  · split <;> rfl

lemma retarget_bufferIdx (buffers : List BufferEntry) (idx : ℕ) (w : ManagedWindow) :
    (retarget buffers idx w).bufferIdx = (shiftIdx idx w.bufferIdx).getD (findReplacementBuffer buffers idx) := by
  rw [retarget, shiftIdx]
  split
  · rfl
  · split <;> rfl

lemma shiftIdx_lt {n : ℕ} (hidx : idx < n) (hi : i < n) (h : shiftIdx idx i = some j) : j < n - 1 := by
  rw [shiftIdx] at h
  split at h
  · cases h
  split at h <;> cases h <;> omega

lemma shiftIdx_of_lt (h : i < idx) : shiftIdx idx i = some i := by
  rw [shiftIdx, if_neg (by omega), if_neg (by omega)]

lemma eq_of_shiftIdx (h : shiftIdx idx i = none) : i = idx := by
  by_contra hne
  rw [shiftIdx, if_neg hne] at h
  split at h <;> cases h

lemma Good.dropBuffer (he : e.Good) (hidx : idx < e.buffers.length) (hlen : 1 < e.buffers.length)
    (hhidden : ∀ w ∈ e.hidden, w.bufferIdx < idx) : e.Shrinks (e.dropBuffer idx) := by
  have hids : (e.dropBuffer idx).bufferIds = e.bufferIds.eraseIdx idx := (eraseIdx_map _ _ _).symm
  have hlength : (e.dropBuffer idx).buffers.length = e.buffers.length - 1 := length_eraseIdx_of_lt hidx
  have hne : e.buffers.eraseIdx idx ≠ [] := by
    rw [← length_pos_iff, length_eraseIdx_of_lt hidx]
    omega
  refine he.turned (fun i => (shiftIdx idx i).getD (findReplacementBuffer (e.buffers.eraseIdx idx) idx))
    (he.wellFormed.map (retarget_id _)) he.saved ?_ ?_ ?_ rfl ?_
  · intro w' hw'
    rcases mem_append.mp hw' with hw' | hw'
    · obtain ⟨w, hw, rfl⟩ := List.mem_map.mp hw'
      exact ⟨w, mem_append_left _ hw, (retarget_id _ w).symm, (retarget_bufferIdx _ idx w).symm⟩
    · refine ⟨w', mem_append_right _ hw', rfl, ?_⟩
      rw [shiftIdx_of_lt (hhidden w' hw'), getD_some]
  · intro i hi
    cases hshift : shiftIdx idx i with
    | none => exact findReplacementBuffer_lt hne idx
    | some j => exact hlength ▸ shiftIdx_lt hidx hi hshift
  · exact hids ▸ eraseIdx_sublist _ _
  · intro i b hb hmem
    rw [hids] at hmem ⊢
    cases hshift : shiftIdx idx i with
    | none =>
      -- the identity of the removed buffer is not among those that are left
      exact absurd hmem (notMem_eraseIdx he.nodup (eq_of_shiftIdx hshift ▸ hb))
    | some j => exact (getElem?_eraseIdx_shift hshift).trans hb

lemma removeBufferRaw_of_lt (h : idx < e.buffers.length) : e.removeBufferRaw idx = e.dropBuffer idx := if_neg (by omega)

lemma removeBufferRaw_of_ge (h : e.buffers.length ≤ idx) : e.removeBufferRaw idx = e := if_pos h

lemma length_dropBuffer (h : idx < e.buffers.length) : (e.dropBuffer idx).buffers.length = e.buffers.length - 1 :=
  length_eraseIdx_of_lt h

lemma Good.removeBufferRaw (he : e.Good) (idx : ℕ) (hlen : 1 < e.buffers.length)
    (hhidden : ∀ w ∈ e.hidden, w.bufferIdx < idx) : e.Shrinks (e.removeBufferRaw idx) := by
  rcases Nat.lt_or_ge idx e.buffers.length with hidx | hidx
  · rw [removeBufferRaw_of_lt hidx]
    exact he.dropBuffer hidx hlen hhidden
  · rw [removeBufferRaw_of_ge hidx]
    exact he.shrinks

lemma closeWindowId_fields (e : EditorState) (id : WindowId) :
    (e.closeWindowId id).buffers = e.buffers ∧ (e.closeWindowId id).savedMaximizeLayout = e.savedMaximizeLayout := by
  rw [closeWindowId]
  split <;> exact ⟨rfl, rfl⟩

lemma Good.exists_active (he : e.Good) :
    ∃ idx b, e.activeBufferIdx = some idx ∧ e.buffers[idx]? = some b ∧ idx < e.buffers.length := by
  obtain ⟨w, hw, hfocused⟩ := he.wellFormed.exists_window he.wellFormed.focused_mem
  have hlt := he.inRange w (mem_append_left _ hw)
  exact ⟨w.bufferIdx, _, by rw [activeBufferIdx, WindowManager.focusedWindow, hfocused, map_some], getElem?_eq_getElem hlt, hlt⟩

lemma Shrinks.announce (h : e.Shrinks e') (message : String) : ∃ e'', e'.announce message = some e'' ∧ e.Shrinks e'' := by
  obtain ⟨idx, b, hidx, hb, -⟩ := h.good.exists_active
  have hnamed : e.Shrinks { e' with status := message ++ b.name } := h.congr rfl rfl rfl rfl
  refine ⟨_, ?_, hnamed⟩
  rw [EditorState.announce, hidx]
  simp [hb]

lemma Good.killConversation (he : e.Good) {sibling : ℕ} (hidx : idx < e.buffers.length)
    (hlen : (if sibling < e.buffers.length then 2 else 1) < e.buffers.length)
    (hhidden : ∀ w ∈ e.hidden, w.bufferIdx < min idx sibling) (window : WindowId) :
    ∃ e', e.killConversation idx sibling window = some e' ∧ e.Shrinks e' := by
  have hopen : e.Shrinks { e with conversationPair := none } := he.shrinks.congr rfl rfl rfl rfl
  have hclosed := hopen.trans (hopen.good.closeWindowId window)
  obtain ⟨hbuffers, hsaved⟩ := closeWindowId_fields { e with conversationPair := none } window
  rw [EditorState.killConversation]
  generalize ({ e with conversationPair := none }).closeWindowId window = c at hclosed hbuffers hsaved
  have hc : ∀ w ∈ c.hidden, w.bufferIdx < min idx sibling := by
    intro w hw
    apply hhidden
    rw [hidden, hsaved] at hw
    exact hw
  have hlength : c.buffers.length = e.buffers.length := congrArg List.length hbuffers
  rcases Nat.lt_or_ge sibling e.buffers.length with hsib | hsib
  · rw [if_pos hsib] at hlen
    have hmax : max idx sibling < c.buffers.length := by omega
    have hfirst := hclosed.good.removeBufferRaw (max idx sibling) (by omega) fun w hw => by
      have hlt := hc w hw
      omega
    rw [removeBufferRaw_of_lt hmax] at hfirst ⊢
    have hrest := length_dropBuffer hmax
    have hsecond := hfirst.good.removeBufferRaw (min idx sibling) (by omega) hc
    exact (hclosed.trans (hfirst.trans hsecond)).announce _
  · rw [if_neg (by omega)] at hlen
    rw [removeBufferRaw_of_ge (by omega : c.buffers.length ≤ max idx sibling)]
    exact (hclosed.trans (hclosed.good.removeBufferRaw _ (by omega) hc)).announce _

lemma foldl_closeIfDedicated (h : e.Shrinks e') (ids : List WindowId) : e.Shrinks (ids.foldl closeIfDedicated e') := by
  induction ids generalizing e' with
  | nil => exact h
  | cons id ids ih =>
    apply ih
    rw [closeIfDedicated]
    split
    · exact h.trans (h.good.closeWindowId id)
    · exact h

section

variable (he : e.Good)
include he

lemma Good.closeFileTree (killed : BufferEntry) :
    e.Shrinks (e.closeFileTree killed) ∧ (e.closeFileTree killed).buffers = e.buffers ∧
      (e.closeFileTree killed).savedMaximizeLayout = e.savedMaximizeLayout := by
  have hopen : e.Shrinks { e with fileTreeWindowId := none } := he.shrinks.congr rfl rfl rfl rfl
  rw [EditorState.closeFileTree]
  split
  · split
    · exact ⟨hopen.trans (hopen.good.closeWindowId _), closeWindowId_fields { e with fileTreeWindowId := none } _⟩
    · exact ⟨he.shrinks, rfl, rfl⟩
  · exact ⟨he.shrinks, rfl, rfl⟩

lemma Good.killOneOfMany (hidx : idx < e.buffers.length) (hlen : 1 < e.buffers.length)
    (hhidden : ∀ w ∈ e.hidden, w.bufferIdx < idx) :
    ∃ e', e.killOneOfMany idx = some e' ∧ e.Shrinks e' := by
  have hb : e.buffers[idx]? = some e.buffers[idx] := getElem?_eq_getElem hidx
  obtain ⟨htree, hbuffers, hsaved⟩ := he.closeFileTree e.buffers[idx]
  have hlength := congrArg List.length hbuffers
  have hdrop := htree.good.dropBuffer (hlength.symm ▸ hidx) (hlength.symm ▸ hlen) (by
    rw [hidden, hsaved]
    exact hhidden)
  rw [EditorState.killOneOfMany, hb]
  exact (foldl_closeIfDedicated (htree.trans hdrop) _).announce _

lemma Good.killOnlyBuffer (hlen : e.buffers.length ≤ 1) : ∃ e', e.killOnlyBuffer = some e' ∧ e.Advances e' := by
  obtain ⟨idx, b, -, hb, hidx⟩ := he.exists_active
  obtain ⟨w, -, hw⟩ := he.wellFormed.exists_window he.wellFormed.focused_mem
  have hlength : e.buffers.length = 1 := by omega
  obtain rfl : idx = 0 := by omega
  have hmap : e.Shrinks (e.mapWindows (resetCursor e.windowMgr.focused)) := by
    refine he.mapWindows fun w => ?_
    rw [resetCursor]
    split <;> exact ⟨rfl, rfl⟩
  refine ⟨(e.mapWindows (resetCursor e.windowMgr.focused)).renewBuffer, ?_,
    ⟨⟨hmap.good.wellFormed, hmap.good.saved, ?_, hmap.good.agree, nodup_singleton _, ?_⟩, ?_⟩⟩
  · rw [EditorState.killOnlyBuffer, hb, WindowManager.focusedWindow, hw]
    rfl
  · intro w hw
    have hlt : w.bufferIdx < e.buffers.length := hmap.good.inRange w hw
    rw [hlength] at hlt
    exact hlt
  · intro i hi
    rw [mem_singleton.mp hi]
    exact Nat.lt_succ_self _
  · intro w hw w' hw' hid i hi hmem
    have hlt : i < e.nextBufferId := he.fresh i (mem_of_getElem? hi)
    rw [mem_singleton.mp hmem] at hlt
    exact absurd hlt (Nat.lt_irrefl _)

lemma Good.id_lt (hw : w ∈ e.allWindows) : w.id < e.windowMgr.nextId := by
  rcases mem_append.mp hw with hw | hw
  · exact he.wellFormed.fresh _ (he.wellFormed.perm.subset (List.mem_map_of_mem hw))
  · obtain ⟨m, hm, hw⟩ := mem_hidden hw
    obtain ⟨hwf, hle⟩ := he.saved m hm
    exact (hwf.fresh _ (hwf.perm.subset (List.mem_map_of_mem hw))).trans_le hle

lemma Good.opens (hm : m.WellFormed) (hnext : e.windowMgr.nextId ≤ m.nextId)
    (hwindows : ∀ w ∈ m.windows, w ∈ e.windowMgr.windows ∨ w.id = e.windowMgr.nextId ∧ w.bufferIdx < e.buffers.length) :
    e.Advances { e with windowMgr := m } := by
  refine ⟨⟨hm, ?_, ?_, ?_, he.nodup, he.fresh⟩, keeps_of_buffers rfl ?_⟩
  · intro s hs
    exact ⟨(he.saved s hs).1, (he.saved s hs).2.trans hnext⟩
  · intro w hw
    rcases mem_append.mp hw with hw | hw
    · rcases hwindows w hw with hw | ⟨-, hlt⟩
      · exact he.inRange w (mem_append_left _ hw)
      · exact hlt
    · exact he.inRange w (mem_append_right _ hw)
  · intro w hw v hv hid
    rcases hwindows w hw with hw | ⟨hnew, -⟩
    · exact he.agree w hw v hv hid
    · have hlt := he.id_lt (mem_append_right _ hv)
      rw [← hid, hnew] at hlt
      exact absurd hlt (Nat.lt_irrefl _)
  · intro w hw w' hw' hid
    rcases mem_append.mp hw' with hw' | hw'
    · rcases hwindows w' hw' with hw' | ⟨hnew, -⟩
      · exact he.same_buffer hw (mem_append_left _ hw') hid
      · have hlt := he.id_lt hw
        rw [hid, hnew] at hlt
        exact absurd hlt (Nat.lt_irrefl _)
    · exact he.same_buffer hw (mem_append_right _ hw') hid

lemma Good.splitWindow (direction : SplitDirection) (half : ℕ) :
    ∃ e', e.splitWindow direction half = some e' ∧ e.Advances e' := by
  obtain ⟨idx, b, hidx, -, hlt⟩ := he.exists_active
  have hopen := he.opens (he.wellFormed.splitOff direction idx) (Nat.le_succ _) (by
    intro w hw
    rcases mem_append.mp hw with hw | hw
    · exact .inl (mem_of_mem_filter hw)
    · obtain rfl := mem_singleton.mp hw
      exact .inr ⟨rfl, hlt⟩)
  rw [EditorState.splitWindow, hidx]
  rcases e.windowMgr.split_cases direction idx half with hsplit | ⟨message, hsplit⟩
  · refine ⟨_, rfl, ?_⟩
    rw [hsplit]
    exact hopen
  · refine ⟨_, rfl, ?_⟩
    rw [hsplit]
    exact (he.message message).toAdvances

lemma Good.focusDirection (nearest : Option WindowId) (lastLine : ℕ) :
    ∃ e', e.focusDirection nearest lastLine = some e' ∧ e.Shrinks e' := by
  obtain ⟨idx, b, hidx, hb, -⟩ := he.exists_active
  have hwindows : (e.windowMgr.focusDirection nearest).windows = e.windowMgr.windows ∧
      (e.windowMgr.focusDirection nearest).nextId = e.windowMgr.nextId := by
    cases nearest with
    | none => exact ⟨rfl, rfl⟩
    | some id =>
      rw [WindowManager.focusDirection]
      split <;> exact ⟨rfl, rfl⟩
  have hfocus := he.shrinks_of_windows (he.wellFormed.focusDirection nearest) hwindows.2 fun w hw =>
    ⟨w, hwindows.1 ▸ hw, rfl, rfl⟩
  obtain ⟨idx', b', hidx', hb', -⟩ := hfocus.good.exists_active
  rw [EditorState.focusDirection]
  simp only [hidx, hb, hidx', hb', bind_eq_bind, bind_some]
  refine ⟨_, rfl, ?_⟩
  split
  · refine hfocus.trans (hfocus.good.mapWindows fun w => ?_)
    rw [toLastLine]
    split <;> exact ⟨rfl, rfl⟩
  · exact hfocus

lemma Good.windowMaximize : e.Shrinks e.windowMaximize := by
  rw [EditorState.windowMaximize]
  cases hsaved : e.savedMaximizeLayout with
  | none =>
    refine he.rearranged he.wellFormed.maximize (fun m hm => ?_) (fun w hw => ?_) rfl rfl
    · cases hm
      exact ⟨he.wellFormed, le_rfl⟩
    · -- the one window that stays is among those that are hidden
      have hmem := (mem_append.mp hw).elim mem_of_mem_filter id
      exact ⟨w, mem_append_left _ hmem, rfl, rfl⟩
  | some m =>
    refine he.rearranged (he.saved m hsaved).1 nofun (fun w hw => ?_) rfl rfl
    refine ⟨w, mem_append_right _ ?_, rfl, rfl⟩
    rw [hidden, hsaved]
    exact (mem_append.mp hw).elim id nofun

end

lemma mapWindows_congr {f g : ManagedWindow → ManagedWindow} (h : ∀ w ∈ e.windowMgr.windows, f w = g w) :
    e.mapWindows f = e.mapWindows g := by
  rw [mapWindows, mapWindows, map_congr_left h]

lemma forgetBuffer_eq (h : ∀ w ∈ e.windowMgr.windows, w.bufferIdx ≠ idx) : e.forgetBuffer idx = e.removeBufferRaw idx := by
  rcases Nat.lt_or_ge idx e.buffers.length with hidx | hidx
  · rw [removeBufferRaw_of_lt hidx, forgetBuffer, if_pos hidx, dropBuffer]
    apply mapWindows_congr
    intro w hw
    rw [retarget, if_neg (h w hw)]
  · rw [removeBufferRaw_of_ge hidx, forgetBuffer, if_neg (by omega)]

lemma Good.forgetBuffer (he : e.Good) (h : ∀ w ∈ e.windowMgr.windows, w.bufferIdx ≠ idx)
    (hhidden : ∀ w ∈ e.hidden, w.bufferIdx < idx) :
    e.Shrinks (e.forgetBuffer idx) ∧ (e.forgetBuffer idx).hidden = e.hidden ∧
      ∀ w' ∈ (e.forgetBuffer idx).windowMgr.windows, ∃ w ∈ e.windowMgr.windows,
        shiftIdx idx w.bufferIdx = some w'.bufferIdx := by
  rw [forgetBuffer_eq h]
  rcases Nat.lt_or_ge idx e.buffers.length with hidx | hidx
  · obtain ⟨w, hw, -⟩ := he.wellFormed.exists_window he.wellFormed.focused_mem
    have hlt := he.inRange w (mem_append_left _ hw)
    have hne := h w hw
    rw [removeBufferRaw_of_lt hidx]
    refine ⟨he.dropBuffer hidx (by omega) hhidden, rfl, ?_⟩
    intro w' hw'
    obtain ⟨w, hw, rfl⟩ := List.mem_map.mp hw'
    rw [retarget_bufferIdx]
    cases hshift : shiftIdx idx w.bufferIdx with
    | none => exact absurd (eq_of_shiftIdx hshift) (h w hw)
    | some j => exact ⟨w, hw, hshift⟩
  · rw [removeBufferRaw_of_ge hidx]
    refine ⟨he.shrinks, rfl, ?_⟩
    intro w hw
    exact ⟨w, hw, shiftIdx_of_lt ((he.inRange w (mem_append_left _ hw)).trans_le hidx)⟩

lemma Good.forget_two {hi lo : ℕ} (he : e.Good) (hlt : lo < hi)
    (h : ∀ w ∈ e.windowMgr.windows, w.bufferIdx ≠ hi ∧ w.bufferIdx ≠ lo) (hhidden : ∀ w ∈ e.hidden, w.bufferIdx < lo) :
    e.Shrinks ((e.forgetBuffer hi).forgetBuffer lo) := by
  obtain ⟨hfirst, hsame, hshift⟩ := he.forgetBuffer (fun w hw => (h w hw).1) fun w hw => (hhidden w hw).trans hlt
  refine hfirst.trans (hfirst.good.forgetBuffer ?_ (hsame ▸ hhidden)).1
  intro w' hw'
  obtain ⟨w, hw, hs⟩ := hshift w' hw'
  have hne := h w hw
  rw [shiftIdx, if_neg hne.1] at hs
  split at hs
  all_goals
    have heq := some.inj hs
    omega

lemma destination_spec {toRemove : List ℕ} (h : ∃ i < e.buffers.length, i ∉ toRemove) :
    e.destination toRemove < e.buffers.length ∧ e.destination toRemove ∉ toRemove := by
  have hok : ∀ i, (decide (i < e.buffers.length) && !toRemove.contains i) = true → i < e.buffers.length ∧ i ∉ toRemove := by
    intro i hi
    simpa using hi
  rw [destination]
  cases halt : e.alternateBufferIdx.filter fun i => i < e.buffers.length && !toRemove.contains i with
  | some i => exact hok i (filter_eq_some_iff.mp halt).2
  | none =>
    cases hfind : (List.range e.buffers.length).find? fun i => !toRemove.contains i with
    | some i =>
      have hmem : i < e.buffers.length := mem_range.mp (mem_of_find?_eq_some hfind)
      have hnot : i ∉ toRemove := by simpa using find?_some hfind
      exact ⟨hmem, hnot⟩
    | none =>
      obtain ⟨i, hi, hnot⟩ := h
      have hall := find?_eq_none.mp hfind i (mem_range.mpr hi)
      exact absurd (by simpa using hnot) hall

lemma mem_removalOrder {pair : ConversationPair} :
    i ∈ removalOrder pair ↔ i = pair.outputBufferIdx ∨ i = pair.inputBufferIdx := by
  rw [removalOrder]
  split
  · simp [or_comm]
  split
  · rename_i heq
    simp [heq]
  · simp

variable (he : e.Good)
include he

lemma Good.forget_pair (pair : ConversationPair)
    (h : ∀ w ∈ e.windowMgr.windows, w.bufferIdx ≠ pair.outputBufferIdx ∧ w.bufferIdx ≠ pair.inputBufferIdx)
    (hhidden : ∀ w ∈ e.hidden, w.bufferIdx < min pair.outputBufferIdx pair.inputBufferIdx) :
    e.Shrinks ((removalOrder pair).foldl EditorState.forgetBuffer e) := by
  rw [removalOrder]
  split
  · rename_i hlt
    exact he.forget_two hlt (fun w hw => (h w hw).symm) fun w hw => (hhidden w hw).trans_le (Nat.min_le_left _ _)
  split
  · exact (he.forgetBuffer (fun w hw => (h w hw).1) fun w hw => (hhidden w hw).trans_le (Nat.min_le_left _ _)).1
  · exact he.forget_two (by omega) h fun w hw => (hhidden w hw).trans_le (Nat.min_le_right _ _)

lemma Good.closeConversation {pair : ConversationPair}
    (hother : ∃ i < e.buffers.length, i ≠ pair.outputBufferIdx ∧ i ≠ pair.inputBufferIdx)
    (hhidden : ∀ w ∈ e.hidden, w.bufferIdx < min pair.outputBufferIdx pair.inputBufferIdx) :
    e.Advances (e.closeConversation pair) := by
  have hstays : ∃ i < e.buffers.length, i ∉ removalOrder pair := by
    obtain ⟨i, hi, hne⟩ := hother
    exact ⟨i, hi, fun hmem => (mem_removalOrder.mp hmem).elim hne.1 hne.2⟩
  obtain ⟨hlt, hnot⟩ := e.destination_spec hstays
  rw [mem_removalOrder, not_or] at hnot
  have hopen : e.Shrinks { e with conversationPair := none } := he.shrinks.congr rfl rfl rfl rfl
  have hsingle := hopen.good.opens (WindowManager.resetToSingle_wellFormed e.windowMgr (e.destination (removalOrder pair)))
    (Nat.le_succ _) (by
      intro w hw
      obtain rfl := mem_singleton.mp hw
      exact .inr ⟨rfl, hlt⟩)
  have hforget := hsingle.good.forget_pair pair (by
    intro w hw
    obtain rfl := mem_singleton.mp hw
    exact hnot) hhidden
  exact Advances.trans ⟨hsingle.good, hsingle.keeps⟩ hforget

def CanClose (e : EditorState) (pair : ConversationPair) : Prop :=
  (∃ i < e.buffers.length, i ≠ pair.outputBufferIdx ∧ i ≠ pair.inputBufferIdx) ∧
    ∀ w ∈ e.hidden, w.bufferIdx < min pair.outputBufferIdx pair.inputBufferIdx

def ClosesConversation (e : EditorState) (pair : ConversationPair) : Prop :=
  e.conversationPair = some pair ∧ e.windowMgr.isInGroup e.windowMgr.focused = true ∧
    (e.windowMgr.closeGroup e.windowMgr.focused).1 = []

lemma Good.closeWholeScreen (hsafe : ∀ pair, e.conversationPair = some pair → e.CanClose pair) :
    e.Advances e.closeWholeScreen := by
  rw [EditorState.closeWholeScreen]
  split
  · rename_i pair hpair
    obtain ⟨hother, hhidden⟩ := hsafe pair hpair
    exact he.closeConversation hother hhidden
  · exact (he.message _).toAdvances

lemma Good.closeFocusedGroup
    (hsafe : ∀ pair, e.conversationPair = some pair → (e.windowMgr.closeGroup e.windowMgr.focused).1 = [] →
      e.CanClose pair) :
    e.Advances e.closeFocusedGroup := by
  have hdone : e.Advances (if (e.windowMgr.closeGroup e.windowMgr.focused).1 = [] then
      ({ e with windowMgr := (e.windowMgr.closeGroup e.windowMgr.focused).2 }).closeWholeScreen
      else { e with windowMgr := (e.windowMgr.closeGroup e.windowMgr.focused).2 }) := by
    split
    · rename_i hrefused
      rw [he.wellFormed.closeGroup_refused hrefused]
      exact he.closeWholeScreen fun pair hpair => hsafe pair hpair hrefused
    · exact (he.closes (he.wellFormed.closeGroup e.windowMgr.focused)).toAdvances
  exact hdone.congr rfl rfl rfl rfl

lemma Good.closeWindow (hsafe : ∀ pair, e.ClosesConversation pair → e.CanClose pair) : e.Advances e.closeWindow := by
  rw [EditorState.closeWindow]
  split
  · rename_i hgroup
    exact he.closeFocusedGroup fun pair hpair hrefused => hsafe pair ⟨hpair, hgroup, hrefused⟩
  · split
    · rename_i h
      exact (he.closes (he.wellFormed.close h)).toAdvances
    · exact (he.message _).toAdvances

def SafeToKill (e : EditorState) (idx : ℕ) : Prop :=
  match e.conversationSibling idx with
  | some (sibling, _) =>
    (if sibling < e.buffers.length then 2 else 1) < e.buffers.length ∧ ∀ w ∈ e.hidden, w.bufferIdx < min idx sibling
  | none => 1 < e.buffers.length → ∀ w ∈ e.hidden, w.bufferIdx < idx

lemma Good.killBufferAt (hidx : idx < e.buffers.length) (hsafe : e.SafeToKill idx) :
    ∃ e', e.killBufferAt idx = some e' ∧ e.Advances e' := by
  rw [EditorState.killBufferAt]
  rw [SafeToKill] at hsafe
  cases hsibling : e.conversationSibling idx with
  | some pair =>
    rw [hsibling] at hsafe
    obtain ⟨e', hkill, h⟩ := he.killConversation hidx hsafe.1 hsafe.2 pair.2
    exact ⟨e', hkill, h.toAdvances⟩
  | none =>
    rw [hsibling] at hsafe
    dsimp only
    split
    · rename_i hlen
      exact he.killOnlyBuffer hlen
    · rename_i hlen
      obtain ⟨e', hkill, h⟩ := he.killOneOfMany hidx (Nat.lt_of_not_le hlen) (hsafe (Nat.lt_of_not_le hlen))
      exact ⟨e', hkill, h.toAdvances⟩

end EditorState

open EditorState

def WindowCommand.Safe (e : EditorState) : WindowCommand → Prop
  | killBuffer => ∀ idx ∈ e.activeBufferIdx, e.SafeToKill idx
  | forceKillBuffer => ∀ idx ∈ e.activeBufferIdx, e.SafeToKill idx
  | closeWindow => ∀ pair, e.ClosesConversation pair →
      (∃ i < e.buffers.length, i ≠ pair.outputBufferIdx ∧ i ≠ pair.inputBufferIdx) ∧
      ∀ w ∈ e.hidden, w.bufferIdx < min pair.outputBufferIdx pair.inputBufferIdx
  | _ => True

namespace EditorState

lemma Good.dispatch {c : WindowCommand} (he : e.Good) (hsafe : c.Safe e) :
    ∃ e', e.dispatch c = some e' ∧ e.Advances e' := by
  obtain ⟨idx, b, hidx, hb, hlt⟩ := he.exists_active
  cases c with
  | split direction half => exact he.splitWindow direction half
  | closeWindow => exact ⟨_, rfl, he.closeWindow hsafe⟩
  | focus nearest lastLine =>
    obtain ⟨e', hfocus, h⟩ := he.focusDirection nearest lastLine
    exact ⟨e', hfocus, h.toAdvances⟩
  | windowMaximize => exact ⟨_, rfl, he.windowMaximize.toAdvances⟩
  | killBuffer =>
    rw [EditorState.dispatch, hidx]
    simp only [hb, bind_eq_bind, bind_some]
    split
    · exact ⟨_, rfl, (he.message _).toAdvances⟩
    · exact he.killBufferAt hlt (hsafe idx hidx)
  | forceKillBuffer =>
    rw [EditorState.dispatch, hidx]
    exact he.killBufferAt hlt (hsafe idx hidx)

def AllSafe (e : EditorState) : List WindowCommand → Prop
  | [] => True
  | c :: cs => c.Safe e ∧ ∀ e' ∈ e.dispatch c, e'.AllSafe cs

def Steady (e : EditorState) : List WindowCommand → Prop
  | [] => True
  | c :: cs => ∃ e', e.dispatch c = some e' ∧ (∀ w ∈ e'.allWindows, w.bufferIdx < e'.buffers.length) ∧ e.Keeps e' ∧
      e'.Steady cs

end EditorState

theorem windows_keep_their_buffers {e : EditorState} (he : e.Good) (cs : List WindowCommand) (hsafe : e.AllSafe cs) :
    e.Steady cs := by
  induction cs generalizing e with
  | nil => trivial
  | cons c cs ih =>
    obtain ⟨e', hdispatch, h⟩ := he.dispatch hsafe.1
    exact ⟨e', hdispatch, h.good.inRange, h.keeps, ih h.good (hsafe.2 e' hdispatch)⟩

def sideBySide (left right : ℕ) : EditorState where
  buffers := [⟨0, "a", .text, false⟩, ⟨1, "b", .text, false⟩, ⟨2, "c", .text, false⟩]
  windowMgr := ⟨[⟨⟨0, 0⟩, 0, left⟩, ⟨⟨0, 0⟩, 1, right⟩], .split .vertical (.leaf 0) (.leaf 1), 1, 2⟩
  savedMaximizeLayout := none
  conversationPair := none
  alternateBufferIdx := none
  targetBufferIdx := none
  fileTreeWindowId := none
  mcpTargetWindows := []
  replaceableKinds := []
  pendingBufferRemovals := []
  nextBufferId := 3
  status := ""

theorem kill_beside_other_window : (sideBySide 2 0).Steady [.killBuffer, .windowMaximize, .windowMaximize] := by
  refine windows_keep_their_buffers ?_ _ ⟨?_, fun _ _ => ⟨trivial, fun _ _ => ⟨trivial, fun _ _ => trivial⟩⟩⟩
  · exact ⟨⟨⟨List.Perm.refl _, by decide, by decide⟩, by decide⟩, by simp [sideBySide], by decide, by decide, by decide,
      by decide⟩
  · intro idx _ _ w hw
    cases hw

def onlyConversation : EditorState :=
  { sideBySide 0 1 with
    buffers := [⟨0, "*AI*", .conversation, false⟩, ⟨1, "*ai-input*", .text, false⟩]
    conversationPair := some ⟨0, 1, 0, 1⟩ }

theorem kill_leaves_stale_windows :
    (∃ e, [.windowMaximize, .killBuffer, .windowMaximize].foldlM dispatch (sideBySide 2 0) = some e ∧
      ∃ w ∈ e.windowMgr.windows, e.buffers.length ≤ w.bufferIdx) ∧
    (∃ e, [.windowMaximize, .killBuffer, .windowMaximize].foldlM dispatch (sideBySide 1 0) = some e ∧
      (sideBySide 1 0).shows ⟨⟨0, 0⟩, 0, 1⟩ = some 1 ∧ 1 ∈ e.bufferIds ∧
      ∃ w ∈ e.windowMgr.windows, w.id = 0 ∧ e.shows w = some 2) ∧
    onlyConversation.dispatch .killBuffer = none := by
  decide +kernel

end Mae.Editor
