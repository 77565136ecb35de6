import Mae.Editor.UndoHistory

/-! A buffer that is not marked as modified holds the text on disk, as long as the undo depth of the last save keeps naming
the saved text. -/

namespace Mae.Editor

open Library Buffer Option Session Command

variable {D U H : Type} {P : Platform D U H} {b b' : Buffer D U H} {c : Command D U} {disk : Rope} {a : EditAction}

namespace Buffer

def MarkBehind (b : Buffer D U H) : Prop := ∀ k, b.savedUndoDepth = some k → k ≤ b.undoStack.length

structure Marked (disk : Rope) (b : Buffer D U H) : Prop where
  syncDoc : b.syncDoc = none
  traced : b.Traced fun k x => b.savedUndoDepth = some k → x = disk
  pending : b.pending ≠ [] → b.MarkBehind
  clean : b.modified = false → b.rope = disk

lemma undoStack_length_le (b : Buffer D U H) : b.undoStack.length ≤ b.entries.length := by
  rw [entries, List.length_append]
  exact Nat.le_add_left _ _

lemma Edited.fields (h : b.Edited b') :
    ∃ a, b'.undoStack = (b.pushUndo a).undoStack ∧ b'.savedUndoDepth = b.savedUndoDepth ∧ b'.modified = true := by
  obtain ⟨a, r, c, -, ⟨doc, updates, -, rfl⟩, rfl⟩ := h
  refine ⟨a, ?_, ?_, rfl⟩
  all_goals
    rw [record]
    cases hacc : b.undoGroupAcc <;> simp [pushUndo, hacc]

lemma Undone.fields (h : Undone a b b') : b'.undoGroupAcc = b.undoGroupAcc ∧ b'.savedUndoDepth = b.savedUndoDepth ∧
      b'.modified = decide (b'.savedUndoDepth ≠ some b'.undoStack.length) := by
  obtain ⟨us, r, c, -, -, ⟨doc, updates, -, rfl⟩, rfl⟩ := h
  exact ⟨rfl, rfl, rfl⟩

lemma Redone.fields (h : Redone a b b') (hacc : b.undoGroupAcc = none) :
    b'.undoGroupAcc = none ∧ b'.savedUndoDepth = b.savedUndoDepth ∧
      b'.modified = decide (b'.savedUndoDepth ≠ some b'.undoStack.length) := by
  obtain ⟨rs, r, c, -, -, ⟨doc, updates, -, rfl⟩, rfl⟩ := h
  simp [pushUndo, hacc]

lemma length_le_pushUndo (hroom : b.undoGroupAcc = none → b.undoStack.length < maxUndoEntries) :
    b.undoStack.length ≤ (b.pushUndo a).undoStack.length := by
  rw [pushUndo]
  split
  · exact le_rfl
  · rename_i hnone
    have hlt := hroom hnone
    simp only [List.length_take, List.length_cons]
    omega

lemma Marked.edited (hb : b.Marked disk) (h : b.Edited b') (hmark : b.MarkBehind)
    (hroom : b.undoGroupAcc = none → b.undoStack.length < maxUndoEntries) : b'.Marked disk := by
  obtain ⟨a, hundo, hsaved, hmodified⟩ := h.fields
  -- the new text is deeper than any text that was saved
  have htraced := h.traced hb.traced (.inl hroom) (by
    intro hsaved
    have hle := hmark _ hsaved
    have hlen := b.undoStack_length_le
    omega)
  refine ⟨h.syncDoc hb.syncDoc, hsaved ▸ htraced, ?_, by simp [hmodified]⟩
  intro _ k hk
  rw [hundo]
  exact (hmark k (hsaved.symm.trans hk)).trans (length_le_pushUndo hroom)

lemma Marked.endUndoGroup (hb : b.Marked disk) : (b.endUndoGroup P).Marked disk := by
  have htraced : (b.endUndoGroup P).Traced _ := hb.traced.endUndoGroup (by
    intro hpending hsaved
    have hle := hb.pending hpending _ hsaved
    omega)
  have hfields : (b.endUndoGroup P).syncDoc = none ∧ (b.endUndoGroup P).savedUndoDepth = b.savedUndoDepth ∧
      (b.endUndoGroup P).undoGroupAcc = none ∧ (b.endUndoGroup P).modified = b.modified ∧
      (b.endUndoGroup P).rope = b.rope := by
    rw [Buffer.endUndoGroup, syncUndoBoundary]
    split
    · rename_i hnone
      simp [hb.syncDoc, hnone]
    · simp [hb.syncDoc]
  obtain ⟨hsync, hsaved, hacc, hmodified, hrope⟩ := hfields
  have hpending : (b.endUndoGroup P).pending = [] := by rw [Buffer.pending, hacc, getD_none]
  refine ⟨hsync, hsaved ▸ htraced, fun hne => absurd hpending hne, ?_⟩
  rw [hmodified, hrope]
  exact hb.clean

lemma Traced.clean (hb : b.Traced fun k x => b.savedUndoDepth = some k → x = disk) (hp : b.pending = [])
    (hmodified : b.modified = decide (b.savedUndoDepth ≠ some b.undoStack.length)) (hclean : b.modified = false) :
    b.rope = disk := by
  have hsaved : b.savedUndoDepth = some b.undoStack.length := not_not.mp (of_decide_eq_false (hmodified ▸ hclean))
  have hhere := hb.past.here
  rw [entries_of_pending hp] at hhere
  exact hhere hsaved

lemma Marked.undone (hb : b.Marked disk) (h : Undone a b b') (hp : b.pending = []) : b'.Marked disk := by
  obtain ⟨hacc, hsaved, hmodified⟩ := h.fields
  have hpending := pending_congr hacc hp
  have htraced := (h.traced hb.traced hp).1
  rw [← hsaved] at htraced
  exact ⟨h.syncDoc hb.syncDoc, htraced, fun hne => absurd hpending hne, htraced.clean hpending hmodified⟩

lemma Marked.redone (hb : b.Marked disk) (h : Redone a b b') (hacc : b.undoGroupAcc = none)
    (hroom : b.undoStack.length < maxUndoEntries) : b'.Marked disk := by
  obtain ⟨hacc', hsaved, hmodified⟩ := h.fields hacc
  have hpending : b'.pending = [] := by rw [Buffer.pending, hacc', getD_none]
  have htraced := (h.traced hb.traced (.inl fun _ => hroom)).1
  rw [← hsaved] at htraced
  exact ⟨h.syncDoc hb.syncDoc, htraced, fun hne => absurd hpending hne, htraced.clean hpending hmodified⟩

lemma Marked.save {written : Bool} (hb : b.Marked disk) (h : b.save P written = .ok b') (hp : b.pending = []) :
    b'.Marked b'.rope := by
  obtain ⟨hash, saved, rfl⟩ := save_ok h
  have hentries : b.entries = b.undoStack := entries_of_pending hp
  refine ⟨hb.syncDoc, ⟨?_, ?_⟩, fun hne => absurd hp hne, fun _ => rfl⟩
  · refine hb.traced.past.relabel ?_ fun _ => rfl
    intro k x hk _ hsaved
    rw [hentries, some.inj hsaved] at hk
    exact absurd hk (Nat.lt_irrefl k)
  · refine hb.traced.future.relabel ?_
    intro k x hk _ hsaved
    rw [hentries, some.inj hsaved] at hk
    exact absurd hk (Nat.lt_irrefl k)

lemma marked_of_reload {content : Option Rope} (hsync : b.syncDoc = none) (h : b.reloadFromDisk P content = .ok b')
    (hp : b.pending = []) : b'.Marked b'.rope := by
  obtain ⟨-, hundo, hredo, hacc, -, -, hdoc⟩ := reloadFromDisk_ok h
  have hpending := pending_congr hacc hp
  exact ⟨hdoc hsync, traced_of_empty hpending hundo hredo fun _ => rfl, fun hne => absurd hpending hne, fun _ => rfl⟩

end Buffer

open Buffer

def Command.KeepsMark (b : Buffer D U H) : Command D U → Prop
  | edit _ _ => b.MarkBehind ∧ (b.undoGroupAcc = none → b.undoStack.length < maxUndoEntries)
  | beginUndoGroup => b.pending = []
  | undo _ => b.pending = []
  | redo _ => b.undoGroupAcc = none ∧ b.undoStack.length < maxUndoEntries
  | save _ => b.pending = []
  | reloadFromDisk _ => b.pending = []
  | _ => True

instance (b : Buffer D U H) : DecidablePred (KeepsMark b) := fun c => by
  induction c using Command.casesOn <;> dsimp only [KeepsMark, MarkBehind] <;> infer_instance

variable [DecidableEq H] {s s' : Session D U H}

lemma Session.step_marked (hlocal : c.isLocal = true) (hc : c.KeepsMark s.buffer) (h : s.step P c = some s')
    (hs : s.buffer.Marked s.disk) : s'.buffer.Marked s'.disk := by
  obtain ⟨b, hb, rfl⟩ := map_eq_some_iff.mp h
  have hdoc : s.buffer.undoDoc P = none := undoDoc_of_syncDoc hs.syncDoc
  cases c with
  | edit e win =>
    rcases e.run_touched hb with rfl | hedited
    · exact hs
    · exact hs.edited hedited hc.1 hc.2
  | beginUndoGroup =>
    cases hb
    exact ⟨hs.syncDoc, hs.traced.beginUndoGroup hc, fun hne => absurd rfl hne, hs.clean⟩
  | endUndoGroup =>
    cases hb
    exact hs.endUndoGroup
  | undo win =>
    rcases undo_cases hdoc hb with rfl | ⟨a, hundone⟩
    · exact hs
    · exact hs.undone hundone hc
  | redo win =>
    rcases redo_cases hdoc hb with rfl | ⟨a, hredone⟩
    · exact hs
    · exact hs.redone hredone hc.1 hc.2
  | save written =>
    cases hb
    cases hsave : s.buffer.save P written with
    | error e => simpa [accessesDisk, hsave, Except.toBool, Except.toOption] using hs
    | ok b' =>
      simpa [accessesDisk, hsave, Except.toBool, Except.toOption] using hs.save hsave hc
  | reloadFromDisk content =>
    cases hb
    cases hload : s.buffer.reloadFromDisk P content with
    | error e => simpa [accessesDisk, hload, Except.toBool, Except.toOption] using hs
    | ok b' =>
      simpa [accessesDisk, hload, Except.toBool, Except.toOption] using
        marked_of_reload hs.syncDoc hload hc
  | _ => simp [isLocal] at hlocal

theorem clean_buffer_is_on_disk {path : String} {content : Rope} {cs : List (Command D U)}
    (hrun : (start (fromFile P path content)).run P cs = some s)
    (hallows : (start (fromFile P path content)).Allows P (fun s c => c.isLocal = true ∧ c.KeepsMark s.buffer) cs)
    (hclean : s.buffer.modified = false) : s.buffer.rope = s.disk := by
  have hstart : (fromFile P path content).Marked content :=
    ⟨rfl, traced_of_empty rfl rfl rfl fun _ => rfl, fun hne => absurd rfl hne, fun _ => rfl⟩
  have hs : s.buffer.Marked s.disk := by
    refine run_preserves (I := fun s => s.buffer.Marked s.disk) ?_ hrun hallows hstart
    intro s c s' hG h hs
    exact step_marked hG.1 hG.2 h hs
  exact hs.clean hclean

theorem undone_edit_is_on_disk : ∃ s, (start (fromFile mirror "a.txt" ['a'])).run mirror
        [.edit (.insertChar 'x') ⟨0, 0⟩, .undo ⟨0, 1⟩] = some s ∧ s.buffer.rope = s.disk := by
  obtain ⟨s, hrun, hs⟩ : ∃ s, (start (fromFile mirror "a.txt" ['a'])).run mirror
      [.edit (.insertChar 'x') ⟨0, 0⟩, .undo ⟨0, 1⟩] = some s ∧ s.buffer.modified = false := by
    decide +kernel
  exact ⟨s, hrun, clean_buffer_is_on_disk hrun (by decide +kernel) hs⟩

def editAgainAfterUndo : List (Command Rope Rope) :=
  [.edit (.insertChar 'x') ⟨0, 0⟩, .save true, .undo ⟨0, 1⟩, .edit (.insertChar 'y') ⟨0, 0⟩, .edit (.insertChar 'z') ⟨0, 1⟩,
    .undo ⟨0, 2⟩]

theorem clean_buffer_is_not_on_disk :
    ∃ s, (start (fromFile mirror "a.txt" ['a'])).run mirror editAgainAfterUndo = some s ∧
      s.buffer.modified = false ∧ s.buffer.rope ≠ s.disk := by
  decide +kernel

end Mae.Editor
