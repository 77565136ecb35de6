import Mae.Editor.Recording

/-! A buffer in use. -/

namespace Mae.Editor

open Buffer Option

inductive Edit where
  | insertChar (ch : Char)
  | deleteCharBackward
  | deleteCharForward
  | deleteLine
  | deleteWordBackward
  | deleteToLineStart
  | deleteToLineEnd
  | insertTextAt (charOffset : ℕ) (text : Rope)
  | deleteRange (start stop : ℕ)
  | openLineBelow
  | openLineAbove
  deriving DecidableEq, Repr

inductive Command (D U : Type) where
  | edit (e : Edit) (win : Window)
  | beginUndoGroup
  | endUndoGroup
  | undo (win : Window)
  | redo (win : Window)
  | save (written : Bool)
  | reloadFromDisk (content : Option Rope)
  | enableSync (clientId : ℕ)
  | disableSync
  | applySyncUpdate (update : U)
  | loadSyncState (doc : Except String D)

structure Session (D U H : Type) where
  buffer : Buffer D U H
  disk : Rope
  held : List Rope
  rewritten : Bool

variable {D U H : Type}

def Edit.run (P : Platform D U H) (win : Window) (b : Buffer D U H) : Edit → Option (Buffer D U H)
  | insertChar ch => (b.insertChar P win ch).map Prod.fst
  | deleteCharBackward => (b.deleteCharBackward P win).map Prod.fst
  | deleteCharForward => (b.deleteCharForward P win).map Prod.fst
  | deleteLine => (b.deleteLine P win).map Prod.fst
  | deleteWordBackward => (b.deleteWordBackward P win).map Prod.fst
  | deleteToLineStart => (b.deleteToLineStart P win).map Prod.fst
  | deleteToLineEnd => (b.deleteToLineEnd P win).map Prod.fst
  | insertTextAt charOffset text => b.insertTextAt P charOffset text
  | deleteRange start stop => b.deleteRange P start stop
  | openLineBelow => (b.openLineBelow P win).map Prod.fst
  | openLineAbove => (b.openLineAbove P win).map Prod.fst

lemma Buffer.Touches.of_map {α : Type} {b b' : Buffer D U H} {x : Option (Buffer D U H × α)} (hx : b.Touches x)
    (h : x.map Prod.fst = some b') : b.Touched b' := by
  obtain ⟨⟨_, w⟩, hs, rfl⟩ := map_eq_some_iff.mp h
  exact hx _ w hs

lemma Edit.run_touched {P : Platform D U H} {win : Window} {b b' : Buffer D U H} {e : Edit} (h : e.run P win b = some b') :
    b.Touched b' := by
  cases e with
  | insertChar ch => exact insertChar_touches.of_map h
  | deleteCharBackward => exact deleteCharBackward_touches.of_map h
  | deleteCharForward => exact deleteCharForward_touches.of_map h
  | deleteLine => exact deleteLine_touches.of_map h
  | deleteWordBackward => exact deleteWordBackward_touches.of_map h
  | deleteToLineStart => exact deleteToLineStart_touches.of_map h
  | deleteToLineEnd => exact deleteToLineEnd_touches.of_map h
  | openLineBelow => exact openLineBelow_touches.of_map h
  | openLineAbove => exact openLineAbove_touches.of_map h
  | insertTextAt charOffset text => exact insertTextAt_touched h
  | deleteRange start stop => exact deleteRange_touched h

variable [DecidableEq H] (P : Platform D U H)

namespace Command

def run (b : Buffer D U H) : Command D U → Option (Buffer D U H)
  | edit e win => e.run P win b
  | beginUndoGroup => some b.beginUndoGroup
  | endUndoGroup => some (b.endUndoGroup P)
  | undo win => (b.undo P win).map Prod.fst
  | redo win => (b.redo P win).map Prod.fst
  | save written => some ((b.save P written).toOption.getD b)
  | reloadFromDisk content => some ((b.reloadFromDisk P content).toOption.getD b)
  | enableSync clientId => some (b.enableSync P clientId)
  | disableSync => some b.disableSync
  | applySyncUpdate update => some (b.applySyncUpdate P update).2
  | loadSyncState doc => some ((b.loadSyncState P doc).toOption.getD b)

def accessesDisk (b : Buffer D U H) : Command D U → Bool
  | save written => (b.save P written).isOk
  | reloadFromDisk content => (b.reloadFromDisk P content).isOk
  | _ => false

def rewrites (b : Buffer D U H) : Command D U → Bool
  | undo _ => (b.undoDoc P).isSome
  | redo _ => (b.undoDoc P).isSome
  | applySyncUpdate _ => true
  | _ => false

def restarts (b : Buffer D U H) : Command D U → Bool
  | reloadFromDisk content => (b.reloadFromDisk P content).isOk
  | loadSyncState doc => (b.loadSyncState P doc).isOk
  | _ => false

def isLocal : Command D U → Bool
  | enableSync _ => false
  | disableSync => false
  | applySyncUpdate _ => false
  | loadSyncState _ => false
  | _ => true

end Command

namespace Session

def start (b : Buffer D U H) : Session D U H := ⟨b, b.rope, [b.rope], false⟩

def step (s : Session D U H) (c : Command D U) : Option (Session D U H) :=
  (c.run P s.buffer).map fun b =>
    { buffer := b
      disk := if c.accessesDisk P s.buffer then b.rope else s.disk
      held := b.rope :: s.held
      rewritten := (s.rewritten || (c.rewrites P s.buffer && b.rope != s.buffer.rope)) && !c.restarts P s.buffer }

def run (s : Session D U H) : List (Command D U) → Option (Session D U H)
  | [] => some s
  | c :: cs => (s.step P c).bind fun s => s.run cs

/-- Every command is given in a session in which `G` allows it. -/
def Allows (G : Session D U H → Command D U → Prop) (s : Session D U H) : List (Command D U) → Prop
  | [] => True
  | c :: cs => G s c ∧ ∀ s' ∈ s.step P c, s'.Allows G cs

instance decidableAllows (G : Session D U H → Command D U → Prop) [∀ s c, Decidable (G s c)] :
    (s : Session D U H) → (cs : List (Command D U)) → Decidable (s.Allows P G cs)
  | _, [] => .isTrue trivial
  | s, c :: cs =>
    have : DecidablePred fun s : Session D U H => s.Allows P G cs := fun s => decidableAllows G s cs
    inferInstanceAs (Decidable (G s c ∧ ∀ s' ∈ s.step P c, s'.Allows P G cs))

variable {P} {G : Session D U H → Command D U → Prop} {I : Session D U H → Prop} {s s' : Session D U H}

lemma run_preserves (hstep : ∀ s c s', G s c → s.step P c = some s' → I s → I s') {cs : List (Command D U)}
    (hrun : s.run P cs = some s') (hallows : s.Allows P G cs) (hs : I s) : I s' := by
  induction cs generalizing s with
  | nil =>
    cases hrun
    exact hs
  | cons c cs ih =>
    obtain ⟨t, ht, hrun⟩ := bind_eq_some_iff.mp hrun
    exact ih hrun (hallows.2 t ht) (hstep s c t hallows.1 ht hs)

end Session

def mirror : Platform Rope Rope Rope where
  withClientId r _ := r
  enableUndo := id
  rope := id
  insert pos text d := let d := (d.insert pos text).getD d; (d, d)
  delete pos len d := let d := (d.remove pos (pos + len)).getD d; (d, d)
  applyUpdate update _ := (.ok (), update)
  reconcileTo r _ := (some r, r)
  undoMgrActive _ := true
  undo d := (⟨false, [], none⟩, d)
  redo d := (⟨false, [], none⟩, d)
  undoReset := id
  contentHash := id
  snapToGraphemeBoundary _ col := col

namespace Buffer

variable {P} {b b' c : Buffer D U H} {a : EditAction} {us : List EditAction} {r : Rope} {win win' : Window}

def pending (b : Buffer D U H) : List EditAction := b.undoGroupAcc.getD []

def entries (b : Buffer D U H) : List EditAction := b.pending.reverse ++ b.undoStack

/-- `b'` is `b` after its stack undid `a`. -/
def Undone (a : EditAction) (b b' : Buffer D U H) : Prop :=
  ∃ us r c, b.undoStack = a :: us ∧ journal.undo a b.rope = some r ∧
    Synced { b with rope := r, undoStack := us } c ∧
    b' = { c with redoStack := a :: c.redoStack, modified := decide (c.savedUndoDepth ≠ some c.undoStack.length) }

def Redone (a : EditAction) (b b' : Buffer D U H) : Prop :=
  ∃ rs r c, b.redoStack = a :: rs ∧ journal.redo a b.rope = some r ∧
    Synced { b with rope := r, redoStack := rs } c ∧
    b' = { c.pushUndo a with
      modified := decide ((c.pushUndo a).savedUndoDepth ≠ some (c.pushUndo a).undoStack.length) }

variable (hdoc : b.undoDoc P = none)
include hdoc

lemma exists_undone (hus : b.undoStack = a :: us) (ha : journal.undo a b.rope = some r) (win : Window) :
    ∃ b' win', b.undo P win = some (b', win') ∧ Undone a b b' := by
  obtain ⟨win', hw⟩ := exists_of_undo ha win
  have hc := syncRebuildFromRope_synced (P := P) { b with rope := r, undoStack := us }
  rw [undo, hdoc, hus]
  simp only [hw, bind_eq_bind, bind_some]
  exact ⟨_, _, rfl, us, r, _, hus, ha, hc, rfl⟩

lemma exists_redone {rs : List EditAction} (hrs : b.redoStack = a :: rs) (ha : journal.redo a b.rope = some r)
    (win : Window) :
    ∃ b' win', b.redo P win = some (b', win') ∧ Redone a b b' := by
  obtain ⟨win', hw⟩ := exists_of_redo ha win
  have hc := syncRebuildFromRope_synced (P := P) { b with rope := r, redoStack := rs }
  rw [redo, hdoc, hrs]
  simp only [hw, bind_eq_bind, bind_some]
  exact ⟨_, _, rfl, rs, r, _, hrs, ha, hc, rfl⟩

lemma undo_cases (h : (b.undo P win).map Prod.fst = some b') : b' = b ∨ ∃ a, Undone a b b' := by
  obtain ⟨⟨_, win'⟩, hs, rfl⟩ := map_eq_some_iff.mp h
  rw [undo, hdoc] at hs
  cases hus : b.undoStack with
  | nil =>
    rw [hus] at hs
    cases hs
    exact .inl rfl
  | cons a us =>
    rw [hus] at hs
    obtain ⟨⟨r, w⟩, hr, hs⟩ := bind_eq_some_iff.mp hs
    have ha := (applyUndoAction_text a b.rope ⟨0, 0⟩ win).trans (by rw [hr])
    cases hs
    exact .inr ⟨a, us, r, _, hus, ha, syncRebuildFromRope_synced _, rfl⟩

lemma redo_cases (h : (b.redo P win).map Prod.fst = some b') : b' = b ∨ ∃ a, Redone a b b' := by
  obtain ⟨⟨_, win'⟩, hs, rfl⟩ := map_eq_some_iff.mp h
  rw [redo, hdoc] at hs
  cases hrs : b.redoStack with
  | nil =>
    rw [hrs] at hs
    cases hs
    exact .inl rfl
  | cons a rs =>
    rw [hrs] at hs
    obtain ⟨⟨r, w⟩, hr, hs⟩ := bind_eq_some_iff.mp hs
    have ha := (applyRedoAction_text a b.rope ⟨0, 0⟩ win).trans (by rw [hr])
    cases hs
    exact .inr ⟨a, rs, r, _, hrs, ha, syncRebuildFromRope_synced _, rfl⟩

end Buffer

end Mae.Editor
