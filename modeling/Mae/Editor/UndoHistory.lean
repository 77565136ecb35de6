import Mae.Editor.Traced

/-! Undo retraces the history of a buffer, as long as no group is opened, and nothing undone, over edits that an open group
has not delivered. -/

namespace Mae.Editor

open Library Option Buffer

variable {D U H : Type} {P : Platform D U H} {Q : ℕ → Rope → Prop} {b b' : Buffer D U H} {c : Command D U}
  {s s' : Session D U H} {win win' : Window}

namespace Command

def Timely (P : Platform D U H) (b : Buffer D U H) : Command D U → Prop
  | beginUndoGroup => b.pending = []
  | undo _ => b.undoDoc P = none → b.pending = []
  | redo _ => b.undoDoc P = none → b.pending = []
  | reloadFromDisk _ => b.pending = []
  | loadSyncState _ => b.pending = []
  | _ => True

instance (P : Platform D U H) (b : Buffer D U H) : DecidablePred (Timely P b) := fun c => by
  cases c <;> dsimp only [Timely] <;> infer_instance

end Command

namespace Buffer

lemma undoDoc_of_syncDoc (h : b.syncDoc = none) : b.undoDoc P = none := by rw [undoDoc, h, filter_none]

lemma Edited.syncDoc (h : b.Edited b') (hb : b.syncDoc = none) : b'.syncDoc = none := by
  obtain ⟨a, r, c, -, ⟨doc, updates, hdoc, rfl⟩, rfl⟩ := h
  rw [record, pushUndo]
  split <;> exact hdoc hb

lemma Undone.syncDoc {a : EditAction} (h : Undone a b b') (hb : b.syncDoc = none) : b'.syncDoc = none := by
  obtain ⟨us, r, c, -, -, ⟨doc, updates, hdoc, rfl⟩, rfl⟩ := h
  exact hdoc hb

lemma Redone.syncDoc {a : EditAction} (h : Redone a b b') (hb : b.syncDoc = none) : b'.syncDoc = none := by
  obtain ⟨rs, r, c, -, -, ⟨doc, updates, hdoc, rfl⟩, rfl⟩ := h
  rw [pushUndo]
  split <;> exact hdoc hb

lemma pending_congr (hacc : b'.undoGroupAcc = b.undoGroupAcc) (hp : b.pending = []) : b'.pending = [] := by
  rw [pending, hacc]
  exact hp

lemma traced_of_empty (hp : b.pending = []) (hundo : b.undoStack = []) (hredo : b.redoStack = []) (hQ : Q 0 b.rope) :
    b.Traced Q := by
  have hentries : b.entries = [] := (entries_of_pending hp).trans hundo
  constructor
  · rw [hentries]
    exact .start hQ
  · rw [hredo]
    exact .last

lemma reloadFromDisk_ok {content : Option Rope} (h : b.reloadFromDisk P content = .ok b') :
    content = some b'.rope ∧ b'.undoStack = [] ∧ b'.redoStack = [] ∧ b'.undoGroupAcc = b.undoGroupAcc ∧
      b'.modified = false ∧ b'.savedUndoDepth = some 0 ∧ (b.syncDoc = none → b'.syncDoc = none) := by
  rw [reloadFromDisk.eq_def] at h
  split at h
  · cases h
  · cases h
  · rename_i path text _
    obtain ⟨doc, updates, hdoc, hc⟩ :=
      syncRebuildFromRope_synced (P := P) { b with contentHash := some (P.contentHash text), rope := text }
    simp only [hc, Except.ok.injEq] at h
    obtain rfl := h
    exact ⟨rfl, rfl, rfl, rfl, rfl, rfl, hdoc⟩

lemma loadSyncState_ok {doc : Except String D} (h : b.loadSyncState P doc = .ok b') :
    b'.undoStack = [] ∧ b'.redoStack = [] ∧ b'.undoGroupAcc = b.undoGroupAcc := by
  cases doc with
  | error e => cases h
  | ok d =>
    cases h
    exact ⟨rfl, rfl, rfl⟩

lemma save_ok {written : Bool} (h : b.save P written = .ok b') : ∃ hash saved, b' = { b with
      modified := false, savedUndoDepth := some b.undoStack.length, contentHash := hash, savedContentHash := saved } := by
  rw [save] at h
  split at h
  · cases h
  split at h
  · cases h
  · cases h
    exact ⟨_, _, rfl⟩

variable [DecidableEq H]

lemma Traced.adopt {result : UndoResult U × D} (hb : b.Traced Q) (h : (b.adopt P result win).1 = b')
    (hrope : b'.rope = b.rope) : b'.Traced Q := by
  subst h
  refine hb.congr hrope ?_ ?_ ?_
  all_goals
    rw [adopt]
    split <;> rfl

lemma adopt_of_undoDoc {d : D} (hdoc : b.undoDoc P = some d) (win : Window) :
    b.undo P win = some (b.adopt P (P.undo d) win) ∧ b.redo P win = some (b.adopt P (P.redo d) win) := by
  rw [undo, redo, hdoc]
  exact ⟨rfl, rfl⟩

end Buffer

open Buffer

lemma Command.rewrites_of_unshared (hc : c.isLocal = true) (hb : b.syncDoc = none) : c.rewrites P b = false := by
  cases c with
  | undo win => rw [rewrites, undoDoc_of_syncDoc hb, isSome_none]
  | redo win => rw [rewrites, undoDoc_of_syncDoc hb, isSome_none]
  | applySyncUpdate update => simp [isLocal] at hc
  | _ => rfl

namespace Session

def Retraced (s : Session D U H) : Prop := s.rewritten = false → s.buffer.Traced fun _ x => x ∈ s.held

lemma retraced_start (b : Buffer D U H) (hp : b.pending = []) (hundo : b.undoStack = []) (hredo : b.redoStack = []) :
    (start b).Retraced :=
  fun _ => traced_of_empty hp hundo hredo List.mem_cons_self

end Session

variable [DecidableEq H]

lemma Command.run_traced (hQ : ∀ k l x, Q k x → Q l x) (hc : c.Timely P b) (h : c.run P b = some b') (hb : b.Traced Q)
    (hnew : Q 0 b'.rope) (hsame : c.rewrites P b = true → b'.rope = b.rope) (hrestart : c.restarts P b = false) :
    b'.Traced Q := by
  cases c with
  | edit e win =>
    rcases e.run_touched h with rfl | hedited
    · exact hb
    · exact hedited.traced hb (.inr hQ) (hQ _ _ _ hnew)
  | beginUndoGroup =>
    cases h
    exact hb.beginUndoGroup hc
  | endUndoGroup =>
    cases h
    exact hb.endUndoGroup fun _ => hQ _ _ _ hb.past.here
  | undo win =>
    cases hdoc : b.undoDoc P with
    | some d =>
      rw [run, (adopt_of_undoDoc hdoc win).1] at h
      exact hb.adopt (some.inj h) (hsame (by rw [rewrites, hdoc]; rfl))
    | none =>
      rcases undo_cases hdoc h with rfl | ⟨a, hundone⟩
      · exact hb
      · exact (hundone.traced hb (hc hdoc)).1
  | redo win =>
    cases hdoc : b.undoDoc P with
    | some d =>
      rw [run, (adopt_of_undoDoc hdoc win).2] at h
      exact hb.adopt (some.inj h) (hsame (by rw [rewrites, hdoc]; rfl))
    | none =>
      rcases redo_cases hdoc h with rfl | ⟨a, hredone⟩
      · exact hb
      · exact (hredone.traced hb (.inr hQ)).1
  | save written =>
    cases h
    cases hsave : b.save P written with
    | error e => exact hb
    | ok b' =>
      obtain ⟨hash, saved, rfl⟩ := save_ok hsave
      exact hb.congr rfl rfl rfl rfl
  | reloadFromDisk content =>
    cases h
    cases hload : b.reloadFromDisk P content with
    | error e => exact hb
    | ok b' => simp [restarts, hload, Except.isOk, Except.toBool] at hrestart
  | loadSyncState doc =>
    cases h
    cases hload : b.loadSyncState P doc with
    | error e => exact hb
    | ok b' => simp [restarts, hload, Except.isOk, Except.toBool] at hrestart
  | enableSync _ | disableSync =>
    cases h
    exact hb.congr rfl rfl rfl rfl
  | applySyncUpdate update =>
    cases h
    have hrope := hsame rfl
    refine hb.congr hrope ?_ ?_ ?_
    all_goals
      rw [Buffer.applySyncUpdate]
      split
      · rfl
      · split <;> rfl

lemma Command.restart_traced (hc : c.Timely P b) (h : c.run P b = some b') (hrestart : c.restarts P b = true)
    (hnew : Q 0 b'.rope) : b'.Traced Q := by
  cases c with
  | reloadFromDisk content =>
    cases h
    cases hload : b.reloadFromDisk P content with
    | error e => simp [restarts, hload, Except.isOk, Except.toBool] at hrestart
    | ok b' =>
      rw [hload] at hnew
      obtain ⟨-, hundo, hredo, hacc, -⟩ := reloadFromDisk_ok hload
      exact traced_of_empty (pending_congr hacc hc) hundo hredo hnew
  | loadSyncState doc =>
    cases h
    cases hload : b.loadSyncState P doc with
    | error e => simp [restarts, hload, Except.isOk, Except.toBool] at hrestart
    | ok b' =>
      rw [hload] at hnew
      obtain ⟨hundo, hredo, hacc⟩ := loadSyncState_ok hload
      exact traced_of_empty (pending_congr hacc hc) hundo hredo hnew
  | _ => simp [restarts] at hrestart

lemma Command.run_unshared (hc : c.isLocal = true) (h : c.run P b = some b') (hb : b.syncDoc = none) : b'.syncDoc = none := by
  have hdoc : b.undoDoc P = none := undoDoc_of_syncDoc hb
  cases c with
  | edit e win =>
    rcases e.run_touched h with rfl | hedited
    · exact hb
    · exact hedited.syncDoc hb
  | beginUndoGroup =>
    cases h
    exact hb
  | endUndoGroup =>
    cases h
    rw [Buffer.endUndoGroup, syncUndoBoundary]
    split <;> simp [hb]
  | undo win =>
    rcases undo_cases hdoc h with rfl | ⟨a, hundone⟩
    · exact hb
    · exact hundone.syncDoc hb
  | redo win =>
    rcases redo_cases hdoc h with rfl | ⟨a, hredone⟩
    · exact hb
    · exact hredone.syncDoc hb
  | save written =>
    cases h
    cases hsave : b.save P written with
    | error e => exact hb
    | ok b' =>
      obtain ⟨hash, saved, rfl⟩ := save_ok hsave
      exact hb
  | reloadFromDisk content =>
    cases h
    cases hload : b.reloadFromDisk P content with
    | error e => exact hb
    | ok b' =>
      obtain ⟨-, -, -, -, -, -, hdoc⟩ := reloadFromDisk_ok hload
      exact hdoc hb
  | _ => simp [isLocal] at hc

namespace Session

lemma step_retraced (hc : c.Timely P s.buffer) (h : s.step P c = some s') (hs : s.Retraced) : s'.Retraced := by
  obtain ⟨b, hb, rfl⟩ := map_eq_some_iff.mp h
  intro hrewritten
  cases hrestart : c.restarts P s.buffer with
  | true => exact Command.restart_traced hc hb hrestart List.mem_cons_self
  | false =>
    simp only [hrestart, Bool.not_false, Bool.and_true, Bool.or_eq_false_iff] at hrewritten
    have hsame : c.rewrites P s.buffer = true → b.rope = s.buffer.rope := by
      intro hc
      simpa [hc] using hrewritten.2
    have htraced := (hs hrewritten.1).mono fun k x hx => List.mem_cons_of_mem b.rope hx
    exact Command.run_traced (fun k l x hx => hx) hc hb htraced List.mem_cons_self hsame hrestart

variable (hs : s.Retraced) (hrewritten : s.rewritten = false) (hdoc : s.buffer.undoDoc P = none)
include hs hrewritten hdoc

lemma Retraced.undo (hp : s.buffer.pending = []) (win : Window) :
    ∃ b' win', s.buffer.undo P win = some (b', win') ∧ b'.rope ∈ s.held ∧ (s.buffer.undoStack = [] → b' = s.buffer) ∧
      ∀ a us, s.buffer.undoStack = a :: us → Undone a s.buffer b' ∧ journal.Recorded a b'.rope s.buffer.rope := by
  have htraced := hs hrewritten
  cases hus : s.buffer.undoStack with
  | nil =>
    refine ⟨s.buffer, win, ?_, htraced.past.here, fun _ => rfl, by simp⟩
    rw [Buffer.undo, hdoc, hus]
  | cons a us =>
    obtain ⟨r, hr, -, -⟩ := htraced.recorded hp hus
    obtain ⟨b', win', hundo, hundone⟩ := exists_undone hdoc hus hr.2 win
    obtain ⟨htraced', hrec⟩ := hundone.traced htraced hp
    refine ⟨b', win', hundo, htraced'.past.here, by simp, fun a' us' heq => ?_⟩
    cases heq
    exact ⟨hundone, hrec⟩

lemma Retraced.redo (win : Window) : ∃ b' win', s.buffer.redo P win = some (b', win') ∧ b'.rope ∈ s.held := by
  have htraced := hs hrewritten
  cases hrs : s.buffer.redoStack with
  | nil =>
    refine ⟨s.buffer, win, ?_, htraced.past.here⟩
    rw [Buffer.redo, hdoc, hrs]
  | cons a rs =>
    obtain ⟨r, hr, -, -⟩ := htraced.recorded_redo hrs
    obtain ⟨b', win', hredo, hredone⟩ := exists_redone hdoc hrs hr.1 win
    exact ⟨b', win', hredo, (hredone.traced htraced (.inr fun k l x hx => hx)).1.past.here⟩

end Session

lemma Buffer.Undone.redo {a : EditAction} (h : Undone a b b') (hrec : journal.Recorded a b'.rope b.rope)
    (hdoc : b'.undoDoc P = none) (win : Window) :
    ∃ b'' win', b'.redo P win = some (b'', win') ∧ b''.rope = b.rope := by
  obtain ⟨us, r, c, hus, hr, hc, hb'⟩ := h
  have hrs : b'.redoStack = a :: c.redoStack := by rw [hb']
  obtain ⟨b'', win', hredo, rs, r', c', -, hr', ⟨doc, updates, -, hc'⟩, hb''⟩ := exists_redone hdoc hrs hrec.1 win
  obtain rfl : b.rope = r' := mem_unique hrec.1 hr'
  refine ⟨b'', win', hredo, ?_⟩
  rw [hb'', hc']
  exact pushUndo_rope _ _

structure Session.Alone (s : Session D U H) : Prop where
  syncDoc : s.buffer.syncDoc = none
  rewritten : s.rewritten = false
  retraced : s.Retraced

lemma Session.step_alone (hc : c.isLocal = true) (htimely : c.Timely P s.buffer) (h : s.step P c = some s') (hs : s.Alone) :
    s'.Alone := by
  have hretraced := step_retraced htimely h hs.retraced
  obtain ⟨b, hb, rfl⟩ := map_eq_some_iff.mp h
  refine ⟨Command.run_unshared hc hb hs.syncDoc, ?_, hretraced⟩
  simp [hs.rewritten, Command.rewrites_of_unshared hc hs.syncDoc]

open Session

theorem undo_retraces_history {b₀ : Buffer D U H} (hsync : b₀.syncDoc = none) (hundo : b₀.undoStack = [])
    (hredo : b₀.redoStack = []) (hpending : b₀.pending = []) {cs : List (Command D U)}
    (hrun : (start b₀).run P cs = some s)
    (hallows : (start b₀).Allows P (fun s c => c.isLocal = true ∧ c.Timely P s.buffer) cs)
    (hp : s.buffer.pending = []) (win : Window) :
    (∃ b' win', s.buffer.undo P win = some (b', win') ∧ b'.rope ∈ s.held ∧ (s.buffer.undoStack = [] → b' = s.buffer) ∧
      ∀ a us, s.buffer.undoStack = a :: us →
        journal.Recorded a b'.rope s.buffer.rope ∧
        ∀ win, ∃ b'' win', b'.redo P win = some (b'', win') ∧ b''.rope = s.buffer.rope) ∧
    ∃ b' win', s.buffer.redo P win = some (b', win') ∧ b'.rope ∈ s.held := by
  have hs : s.Alone := by
    refine run_preserves ?_ hrun hallows ⟨hsync, rfl, retraced_start b₀ hpending hundo hredo⟩
    intro s c s' hG h hs
    exact step_alone hG.1 hG.2 h hs
  have hdoc : s.buffer.undoDoc P = none := undoDoc_of_syncDoc hs.syncDoc
  obtain ⟨b', win', h, hb', hempty, hundone⟩ := hs.retraced.undo hs.rewritten hdoc hp win
  refine ⟨⟨b', win', h, hb', hempty, fun a us hus => ?_⟩, hs.retraced.redo hs.rewritten hdoc win⟩
  obtain ⟨hundone, hrec⟩ := hundone a us hus
  exact ⟨hrec, hundone.redo hrec (undoDoc_of_syncDoc (hundone.syncDoc hs.syncDoc))⟩

theorem typed_character_is_undone : ∃ s b' win', (start new).run mirror [.edit (.insertChar 'x') ⟨0, 0⟩] = some s ∧
      s.buffer.undo mirror ⟨0, 1⟩ = some (b', win') ∧ b'.rope ∈ s.held := by
  obtain ⟨s, hrun, hs⟩ : ∃ s, (start new).run mirror [.edit (.insertChar 'x') ⟨0, 0⟩] = some s ∧
      s.buffer.pending = [] := by decide +kernel
  obtain ⟨b', win', hundo, hheld, -⟩ :=
    (undo_retraces_history rfl rfl rfl rfl hrun (by decide +kernel) hs ⟨0, 1⟩).1
  exact ⟨s, b', win', hrun, hundo, hheld⟩

def joinWhileTyping : List (Command Rope Rope) :=
  [.edit (.insertTextAt 0 ['a', '\n', 'b']) ⟨0, 0⟩, .beginUndoGroup, .edit (.insertChar 'x') ⟨0, 0⟩,
    .beginUndoGroup, .edit (.deleteRange 2 3) ⟨0, 1⟩, .edit (.insertTextAt 2 [' ']) ⟨0, 1⟩, .endUndoGroup,
    .undo ⟨0, 1⟩]

def emptyGroupOverDeletion : List (Command Rope Rope) :=
  [.edit (.insertTextAt 0 ['a', 'b', 'c']) ⟨0, 0⟩, .beginUndoGroup, .edit (.deleteRange 0 3) ⟨0, 0⟩, .beginUndoGroup,
    .endUndoGroup]

theorem undo_over_dropped_edits : (∃ s, (start new).run mirror joinWhileTyping = some s ∧
      ∃ b', (s.buffer.undo mirror ⟨0, 1⟩).map Prod.fst = some b' ∧ b'.rope ∉ s.held) ∧
    ∃ s, (start new).run mirror emptyGroupOverDeletion = some s ∧ s.buffer.undo mirror ⟨0, 0⟩ = none := by
  decide +kernel

end Mae.Editor
