import Mae.Library.Timeline
import Mae.Editor.Buffer

/-! What an edit records. -/

namespace Mae.Editor

open Library Option

def journal : Journal EditAction Rope where
  redo a r := (applyRedoAction (r, ⟨0, 0⟩) a).map Prod.fst
  undo a r := (applyUndoAction (r, ⟨0, 0⟩) a).map Prod.fst

lemma bind_text {x x' : Option (Rope × Window)} {f : Rope × Window → Option (Rope × Window)}
    (hx : x.map Prod.fst = x'.map Prod.fst) (hf : ∀ r w w', (f (r, w)).map Prod.fst = (f (r, w')).map Prod.fst) :
    (x.bind f).map Prod.fst = (x'.bind f).map Prod.fst := by
  cases x with
  | none =>
    obtain rfl : x' = none := by simpa using hx.symm
    rfl
  | some s =>
    obtain ⟨s', rfl, h⟩ := map_eq_some_iff.mp hx.symm
    obtain ⟨r, w⟩ := s
    obtain ⟨r', w'⟩ := s'
    obtain rfl : r' = r := h
    exact hf r' w w'

mutual

lemma applyUndoAction_text (a : EditAction) (r : Rope) (w w' : Window) :
    (applyUndoAction (r, w) a).map Prod.fst = (applyUndoAction (r, w') a).map Prod.fst := by
  cases a with
  | group as =>
    exact applyUndoActions_text as r w w'
  | _ => simp only [applyUndoAction]

lemma applyUndoActions_text (as : List EditAction) (r : Rope) (w w' : Window) :
    (applyUndoActions (r, w) as).map Prod.fst = (applyUndoActions (r, w') as).map Prod.fst := by
  cases as with
  | nil => rfl
  | cons a as =>
    rw [applyUndoActions]
    exact bind_text (applyUndoActions_text as r w w') (applyUndoAction_text a)

end

mutual

lemma applyRedoAction_text (a : EditAction) (r : Rope) (w w' : Window) :
    (applyRedoAction (r, w) a).map Prod.fst = (applyRedoAction (r, w') a).map Prod.fst := by
  cases a with
  | group as =>
    exact applyRedoActions_text as r w w'
  | _ => simp only [applyRedoAction]

lemma applyRedoActions_text (as : List EditAction) (r : Rope) (w w' : Window) :
    (applyRedoActions (r, w) as).map Prod.fst = (applyRedoActions (r, w') as).map Prod.fst := by
  cases as with
  | nil => rfl
  | cons a as =>
    rw [applyRedoActions]
    exact bind_text (applyRedoAction_text a r w w') (applyRedoActions_text as)

end

variable {r t text : Rope} {a : EditAction} {pos start stop : ℕ} {ch : Char}

lemma exists_of_undo (h : journal.undo a r = some t) (win : Window) : ∃ win', applyUndoAction (r, win) a = some (t, win') := by
  obtain ⟨⟨_, win'⟩, hs, rfl⟩ := map_eq_some_iff.mp ((applyUndoAction_text a r win ⟨0, 0⟩).trans h)
  exact ⟨win', hs⟩

lemma exists_of_redo (h : journal.redo a r = some t) (win : Window) : ∃ win', applyRedoAction (r, win) a = some (t, win') := by
  obtain ⟨⟨_, win'⟩, hs, rfl⟩ := map_eq_some_iff.mp ((applyRedoAction_text a r win ⟨0, 0⟩).trans h)
  exact ⟨win', hs⟩

lemma recorded_insertChar (h : r.insert pos [ch] = some t) : journal.Recorded (.insertChar pos ch) r t := by
  constructor
  · simp [journal, applyRedoAction, h]
  · simpa [journal, applyUndoAction] using Rope.remove_of_insert h

lemma recorded_insertRange (h : r.insert pos text = some t) : journal.Recorded (.insertRange pos text) r t := by
  constructor
  · simp [journal, applyRedoAction, h]
  · simpa [journal, applyUndoAction] using Rope.remove_of_insert h

lemma recorded_deleteRange (h : r.remove start stop = some t) (htext : r.slice start stop = some text) :
    journal.Recorded (.deleteRange start text) r t := by
  have hlen : start + text.length = stop := Rope.length_of_slice htext
  constructor
  · simp [journal, applyRedoAction, hlen, h]
  · simpa [journal, applyUndoAction] using Rope.insert_of_remove h htext

lemma recorded_deleteChar (h : r.remove pos (pos + 1) = some t) (hch : r[pos]? = some ch) :
    journal.Recorded (.deleteChar pos ch) r t := by
  constructor
  · simp [journal, applyRedoAction, h]
  · simpa [journal, applyUndoAction] using Rope.insert_of_remove h (Rope.slice_of_getElem? hch)

lemma recorded_group {as : List EditAction} (h : journal.Leads as r t) : journal.Recorded (.group as) r t := by
  have key : (∀ w, ∃ w', applyRedoActions (r, w) as = some (t, w')) ∧
      ∀ w, ∃ w', applyUndoActions (t, w) as = some (r, w') := by
    induction h with
    | nil t => exact ⟨fun w => ⟨w, rfl⟩, fun w => ⟨w, rfl⟩⟩
    | @cons a as r s t hr _ ih =>
      constructor
      · intro w
        obtain ⟨v, hv⟩ := exists_of_redo hr.1 w
        obtain ⟨w', hw'⟩ := ih.1 v
        exact ⟨w', by rw [applyRedoActions, hv, bind_some, hw']⟩
      · intro w
        obtain ⟨v, hv⟩ := ih.2 w
        obtain ⟨w', hw'⟩ := exists_of_undo hr.2 v
        exact ⟨w', by rw [applyUndoActions, hv, bind_some, hw']⟩
  obtain ⟨w, hw⟩ := key.1 ⟨0, 0⟩
  obtain ⟨w', hw'⟩ := key.2 ⟨0, 0⟩
  exact ⟨by simp [journal, applyRedoAction, hw], by simp [journal, applyUndoAction, hw']⟩

namespace Buffer

variable {D U H : Type} {P : Platform D U H} {b b' : Buffer D U H} {win win' : Window}

def Synced (b b' : Buffer D U H) : Prop :=
  ∃ doc updates, (b.syncDoc = none → doc = none) ∧ b' = { b with syncDoc := doc, pendingSyncUpdates := updates }

lemma synced_of_doc {f : D → Buffer D U H}
    (h : ∀ d, ∃ d' updates, f d = { b with syncDoc := some d', pendingSyncUpdates := updates }) :
    b.Synced (match b.syncDoc with | none => b | some d => f d) := by
  split
  · exact ⟨b.syncDoc, b.pendingSyncUpdates, id, rfl⟩
  · next d hd =>
    obtain ⟨d', updates, h⟩ := h d
    exact ⟨some d', updates, by simp [hd], h⟩

lemma syncInsert_synced (pos : ℕ) (text : Rope) (b : Buffer D U H) : b.Synced (b.syncInsert P pos text) :=
  synced_of_doc fun _ => ⟨_, _, rfl⟩

lemma syncDelete_synced (pos len : ℕ) (b : Buffer D U H) : b.Synced (b.syncDelete P pos len) :=
  synced_of_doc fun _ => ⟨_, _, rfl⟩

lemma syncRebuildFromRope_synced (b : Buffer D U H) : b.Synced (b.syncRebuildFromRope P) :=
  synced_of_doc fun _ => ⟨_, _, rfl⟩

def Edited (b b' : Buffer D U H) : Prop :=
  ∃ a r c, journal.Recorded a b.rope r ∧ Synced { b with rope := r } c ∧ b' = c.record a

lemma insertAt_edited (h : b.insertAt P pos text a = some b')
    (ha : ∀ t, b.rope.insert pos text = some t → journal.Recorded a b.rope t) : b.Edited b' := by
  obtain ⟨r, hr, rfl⟩ := map_eq_some_iff.mp h
  exact ⟨a, r, _, ha r hr, syncInsert_synced pos text _, rfl⟩

lemma removeAt_edited (h : b.removeAt P start stop a = some b')
    (ha : ∀ t, b.rope.remove start stop = some t → journal.Recorded a b.rope t) : b.Edited b' := by
  obtain ⟨r, hr, rfl⟩ := map_eq_some_iff.mp h
  exact ⟨a, r, _, ha r hr, syncDelete_synced start _ _, rfl⟩

lemma cut_edited (h : b.cut P start stop = some b') : b.Edited b' := by
  obtain ⟨text, htext, h⟩ := bind_eq_some_iff.mp h
  exact removeAt_edited h fun t ht => recorded_deleteRange ht htext

def Touched (b b' : Buffer D U H) : Prop := b' = b ∨ b.Edited b'

section

variable {α β : Type} {w : α}

/-- Every outcome of `x` is the buffer as it was or records one edit. -/
def Touches (b : Buffer D U H) (x : Option (Buffer D U H × α)) : Prop := ∀ b' w, x = some (b', w) → b.Touched b'

lemma touches_same : b.Touches (some (b, w)) := by
  intro b' w' h
  cases h
  exact .inl rfl

lemma Touches.ite {c : Prop} [Decidable c] {x : Option (Buffer D U H × α)} (hx : b.Touches x) :
    b.Touches (if c then some (b, w) else x) := by
  split
  · exact touches_same
  · exact hx

lemma Touches.bind {x : Option β} {f : β → Option (Buffer D U H × α)} (hf : ∀ y, x = some y → b.Touches (f y)) :
    b.Touches (x.bind f) := by
  intro b' w h
  obtain ⟨y, hy, h⟩ := bind_eq_some_iff.mp h
  exact hf y hy b' w h

lemma touches_edited {x : Option (Buffer D U H)} {f : Buffer D U H → α} (hx : ∀ c, x = some c → b.Edited c) :
    b.Touches (x.bind fun c => some (c, f c)) := by
  refine .bind fun c hc b' w h => ?_
  cases h
  exact .inr (hx _ hc)

end

lemma insertChar_touches : b.Touches (b.insertChar P win ch) :=
  .ite (touches_edited fun _ hc => insertAt_edited hc fun _ ht => recorded_insertChar ht)

lemma deleteCharBackward_touches : b.Touches (b.deleteCharBackward P win) := by
  refine .ite (.ite ?_)
  split
  · exact touches_same
  · refine .bind fun ch hch => ?_
    split
    · exact fun _ _ h => nomatch h
    · exact touches_edited fun _ hc => removeAt_edited hc fun _ ht => recorded_deleteChar ht hch

lemma deleteCharForward_touches : b.Touches (b.deleteCharForward P win) := by
  refine .ite (.ite (.bind fun ch hch => ?_))
  exact touches_edited fun _ hc => removeAt_edited hc fun _ ht => recorded_deleteChar ht hch

lemma deleteLine_touches : b.Touches (b.deleteLine P win) := by
  refine .ite (.ite (.bind fun lineStart _ => .bind fun line _ => .ite (.bind fun text _ => ?_)))
  exact touches_edited fun _ hc => cut_edited hc

lemma deleteWordBackward_touches : b.Touches (b.deleteWordBackward P win) := by
  refine .ite (.bind fun lineStart _ => .ite (.ite ?_))
  exact touches_edited fun _ hc => cut_edited hc

lemma deleteToLineStart_touches : b.Touches (b.deleteToLineStart P win) :=
  .ite (.bind fun _ _ => .ite (touches_edited fun _ hc => cut_edited hc))

lemma deleteToLineEnd_touches : b.Touches (b.deleteToLineEnd P win) := by
  refine .ite (.bind fun lineStart _ => .bind fun line _ => .ite ?_)
  exact touches_edited fun _ hc => cut_edited hc

lemma insertTextAt_touched (h : b.insertTextAt P pos text = some b') : b.Touched b' := by
  rw [insertTextAt] at h
  split at h
  · exact .inl (some.inj h).symm
  · exact .inr (insertAt_edited h fun t ht => recorded_insertRange ht)

lemma deleteRange_touched (h : b.deleteRange P start stop = some b') : b.Touched b' := by
  simp only [deleteRange] at h
  split at h
  · exact .inl (some.inj h).symm
  split at h
  · exact .inl (some.inj h).symm
  · exact .inr (cut_edited h)

lemma openLineBelow_touches : b.Touches (b.openLineBelow P win) := by
  refine .ite (.bind fun lineStart _ => .bind fun line _ => ?_)
  exact touches_edited fun _ hc => insertAt_edited hc fun _ ht => recorded_insertChar ht

lemma openLineAbove_touches : b.Touches (b.openLineAbove P win) :=
  .ite (.bind fun _ _ => touches_edited fun _ hc => insertAt_edited hc fun _ ht => recorded_insertChar ht)

end Buffer

end Mae.Editor
