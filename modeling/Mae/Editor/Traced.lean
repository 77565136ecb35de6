import Mae.Editor.Session

/-! The stacks of a buffer lead to its text: the edits of an open group and of the undo stack, taken back one by one, pass
through the texts the buffer had, and the redo stack leads on from there. -/

namespace Mae.Editor.Buffer

open Library

variable {D U H : Type} {P : Platform D U H} {Q Q' : ℕ → Rope → Prop} {b b' c : Buffer D U H} {a : EditAction}
  {us : List EditAction} {r : Rope} {win : Window}

structure Traced (Q : ℕ → Rope → Prop) (b : Buffer D U H) : Prop where
  past : journal.Past Q b.entries b.rope
  future : journal.Future Q b.entries.length b.redoStack b.rope

def Roomy (Q : ℕ → Rope → Prop) (b : Buffer D U H) : Prop :=
  (b.undoGroupAcc = none → b.undoStack.length < maxUndoEntries) ∨ ∀ k l x, Q k x → Q l x

lemma entries_of_pending (h : b.pending = []) : b.entries = b.undoStack := by rw [entries, h, List.reverse_nil, List.nil_append]

lemma Traced.mono (hb : b.Traced Q) (h : ∀ k x, Q k x → Q' k x) : b.Traced Q' := ⟨hb.past.mono h, hb.future.mono h⟩

lemma Traced.congr (hb : b.Traced Q) (hrope : c.rope = b.rope) (hundo : c.undoStack = b.undoStack)
    (hredo : c.redoStack = b.redoStack) (hpending : c.pending = b.pending) : c.Traced Q := by
  have hentries : c.entries = b.entries := by rw [entries, entries, hundo, hpending]
  constructor
  · rw [hentries, hrope]
    exact hb.past
  · rw [hentries, hrope, hredo]
    exact hb.future

lemma pushUndo_rope (a : EditAction) (b : Buffer D U H) : (b.pushUndo a).rope = b.rope := by
  rw [pushUndo]
  split <;> rfl

lemma pushUndo_redoStack (a : EditAction) (b : Buffer D U H) : (b.pushUndo a).redoStack = b.redoStack := by
  rw [pushUndo]
  split <;> rfl

lemma record_rope (a : EditAction) (b : Buffer D U H) : (b.record a).rope = b.rope := pushUndo_rope a b

lemma entries_pushUndo (h : b.undoGroupAcc = none → b.undoStack.length < maxUndoEntries) :
    (b.pushUndo a).entries = a :: b.entries := by
  rw [pushUndo, entries, entries, pending, pending]
  split
  · rename_i group hgroup
    simp [hgroup]
  · rename_i hnone
    have htake : (a :: b.undoStack).take maxUndoEntries = a :: b.undoStack := List.take_of_length_le (h hnone)
    simp [hnone, htake]

lemma pushUndo_past (hroom : b.Roomy Q) (h : journal.Past Q (a :: b.entries) r) :
    journal.Past Q (b.pushUndo a).entries r := by
  rcases hroom with hroom | hQ
  · rw [entries_pushUndo hroom]
    exact h
  · cases hacc : b.undoGroupAcc with
    | some group =>
      rw [entries_pushUndo (by simp [hacc])]
      exact h
    | none =>
      have hpending : b.pending = [] := by rw [pending, hacc, Option.getD_none]
      have hentries : (b.pushUndo a).entries = (a :: b.entries).take maxUndoEntries := by
        rw [entries_of_pending hpending, pushUndo, hacc]
        rfl
      rw [hentries]
      exact h.take hQ _

lemma pushUndo_future {rs : List EditAction} (hroom : b.Roomy Q) (h : journal.Future Q (b.entries.length + 1) rs r) :
    journal.Future Q (b.pushUndo a).entries.length rs r := by
  rcases hroom with hroom | hQ
  · rw [entries_pushUndo hroom]
    exact h
  · exact h.shift hQ _

lemma Edited.traced (h : b.Edited b') (hb : b.Traced Q) (hroom : b.Roomy Q) (hQ : Q (b.entries.length + 1) b'.rope) :
    b'.Traced Q := by
  obtain ⟨a, r, c, hr, ⟨doc, updates, -, rfl⟩, rfl⟩ := h
  constructor
  · rw [record_rope] at hQ ⊢
    exact pushUndo_past hroom (.step hr hQ hb.past)
  · exact .last

lemma Traced.endUndoGroup (hb : b.Traced Q) (hQ : b.pending ≠ [] → Q (b.undoStack.length + 1) b.rope) :
    (b.endUndoGroup P).Traced Q := by
  rw [Buffer.endUndoGroup]
  cases hacc : b.undoGroupAcc with
  | none => exact hb.congr rfl rfl rfl rfl
  | some as =>
    have hpending : b.pending = as := by rw [pending, hacc, Option.getD_some]
    have hpast : journal.Past Q (as.reverse ++ b.undoStack) b.rope := hpending ▸ hb.past
    rw [hpending] at hQ
    match as with
    | [] => exact ⟨hpast, .last⟩
    | [a] => exact ⟨hpast, .last⟩
    | a :: a' :: as =>
      obtain ⟨s, hs, hleads⟩ := hpast.split
      rw [List.reverse_reverse] at hleads
      exact ⟨.step (recorded_group hleads) (hQ (by simp)) hs, .last⟩

lemma Traced.beginUndoGroup (hb : b.Traced Q) (hp : b.pending = []) : b.beginUndoGroup.Traced Q := hb.congr rfl rfl rfl hp.symm

lemma Traced.recorded (hb : b.Traced Q) (hp : b.pending = []) (hus : b.undoStack = a :: us) :
    ∃ r, journal.Recorded a r b.rope ∧ journal.Past Q us r ∧ journal.Future Q us.length (a :: b.redoStack) r := by
  have hentries : b.entries = a :: us := (entries_of_pending hp).trans hus
  have hpast := hb.past
  have hfuture := hb.future
  rw [hentries] at hpast hfuture
  exact hpast.undo hfuture

lemma Traced.recorded_redo {rs : List EditAction} (hb : b.Traced Q) (hrs : b.redoStack = a :: rs) :
    ∃ r, journal.Recorded a b.rope r ∧ journal.Past Q (a :: b.entries) r ∧ journal.Future Q (b.entries.length + 1) rs r := by
  have hfuture := hb.future
  rw [hrs] at hfuture
  exact hfuture.redo hb.past

lemma Undone.traced (h : Undone a b b') (hb : b.Traced Q) (hp : b.pending = []) :
    b'.Traced Q ∧ journal.Recorded a b'.rope b.rope := by
  obtain ⟨us, r, c, hus, hr, ⟨doc, updates, -, rfl⟩, rfl⟩ := h
  obtain ⟨r', hrec, hpast, hfuture⟩ := hb.recorded hp hus
  obtain rfl : r' = r := Option.mem_unique hrec.2 hr
  have hentries : ({ b with rope := r', undoStack := us }).entries = us := entries_of_pending hp
  refine ⟨⟨?_, ?_⟩, hrec⟩
  · exact hentries.symm ▸ hpast
  · exact hentries.symm ▸ hfuture

lemma Redone.traced (h : Redone a b b') (hb : b.Traced Q) (hroom : b.Roomy Q) :
    b'.Traced Q ∧ journal.Recorded a b.rope b'.rope := by
  obtain ⟨rs, r, c, hrs, hr, ⟨doc, updates, -, rfl⟩, rfl⟩ := h
  obtain ⟨r', hrec, hpast, hfuture⟩ := hb.recorded_redo hrs
  obtain rfl : r' = r := Option.mem_unique hrec.1 hr
  refine ⟨⟨?_, ?_⟩, ?_⟩
  · rw [pushUndo_rope]
    exact pushUndo_past hroom hpast
  · rw [pushUndo_rope, pushUndo_redoStack]
    exact pushUndo_future hroom hfuture
  · rw [pushUndo_rope]
    exact hrec

end Mae.Editor.Buffer
