import Mae.Editor.Rope
import Mae.Library.Checks

/-! Text buffers with their undo history. -/

namespace Mae.Editor

inductive EditAction where
  | insertChar (pos : ℕ) (ch : Char)
  | deleteChar (pos : ℕ) (ch : Char)
  | insertRange (pos : ℕ) (text : Rope)
  | deleteRange (pos : ℕ) (text : Rope)
  | group (actions : List EditAction)

/-- The cursor of a window; the column counts bytes. -/
structure Window where
  cursorRow : ℕ
  cursorCol : ℕ
  deriving DecidableEq, Repr, Inhabited

structure UndoResult (U : Type) where
  success : Bool
  updates : List U
  cursorOffset : Option ℕ

structure Platform (D U H : Type) where
  withClientId : Rope → ℕ → D
  enableUndo : D → D
  rope : D → Rope
  insert : ℕ → Rope → D → U × D
  delete : ℕ → ℕ → D → U × D
  applyUpdate : U → D → Except String Unit × D
  reconcileTo : Rope → D → Option U × D
  undoMgrActive : D → Bool
  undo : D → UndoResult U × D
  redo : D → UndoResult U × D
  undoReset : D → D
  contentHash : Rope → H
  snapToGraphemeBoundary : Rope → ℕ → ℕ

/-- The undo and the redo stack grow at their head, an open group at its end. -/
structure Buffer (D U H : Type) where
  rope : Rope
  filePath : Option String
  modified : Bool
  readOnly : Bool
  undoStack : List EditAction
  redoStack : List EditAction
  undoGroupAcc : Option (List EditAction)
  savedUndoDepth : Option ℕ
  savedContentHash : Option H
  contentHash : Option H
  narrowedRange : Option (ℕ × ℕ)
  syncDoc : Option D
  pendingSyncUpdates : List U

def setCursorFromCharPos (r : Rope) (pos : ℕ) : Window :=
  let pos := min pos r.length
  let row := r.charToLine pos
  ⟨row, r.charToByte pos - (r.lineToByte row).getD 0⟩

mutual

def applyUndoAction (s : Rope × Window) : EditAction → Option (Rope × Window)
  | .insertChar pos _ => (s.1.remove pos (pos + 1)).map fun r => (r, setCursorFromCharPos r pos)
  | .deleteChar pos ch => (s.1.insert pos [ch]).map fun r => (r, setCursorFromCharPos r (pos + 1))
  | .insertRange pos text => (s.1.remove pos (pos + text.length)).map fun r => (r, setCursorFromCharPos r pos)
  | .deleteRange pos text => (s.1.insert pos text).map fun r => (r, setCursorFromCharPos r pos)
  | .group actions => applyUndoActions s actions

def applyUndoActions (s : Rope × Window) : List EditAction → Option (Rope × Window)
  | [] => some s
  | a :: as => (applyUndoActions s as).bind fun s => applyUndoAction s a

end

mutual

def applyRedoAction (s : Rope × Window) : EditAction → Option (Rope × Window)
  | .insertChar pos ch => (s.1.insert pos [ch]).map fun r => (r, setCursorFromCharPos r (pos + 1))
  | .deleteChar pos _ => (s.1.remove pos (pos + 1)).map fun r => (r, setCursorFromCharPos r pos)
  | .insertRange pos text => (s.1.insert pos text).map fun r => (r, setCursorFromCharPos r (pos + text.length))
  | .deleteRange pos text => (s.1.remove pos (pos + text.length)).map fun r => (r, setCursorFromCharPos r pos)
  | .group actions => applyRedoActions s actions

def applyRedoActions (s : Rope × Window) : List EditAction → Option (Rope × Window)
  | [] => some s
  | a :: as => (applyRedoAction s a).bind fun s => applyRedoActions s as

end

namespace Buffer

variable {D U H : Type} (P : Platform D U H)

def new : Buffer D U H where
  rope := []
  filePath := none
  modified := false
  readOnly := false
  undoStack := []
  redoStack := []
  undoGroupAcc := none
  savedUndoDepth := none
  savedContentHash := none
  contentHash := none
  narrowedRange := none
  syncDoc := none
  pendingSyncUpdates := []

def fromFile (path : String) (content : Rope) : Buffer D U H :=
  { new with
    rope := content
    filePath := some path
    contentHash := some (P.contentHash content)
    savedUndoDepth := some 0 }

section Columns

variable (b : Buffer D U H)

def lineCount : ℕ := b.rope.lenLines

def byteOffsetAt (row byteCol : ℕ) : ℕ :=
  if b.rope.lenBytes = 0 then 0
  else
    let row := min row (b.lineCount - 1)
    let lineStart := (b.rope.lineToByte row).getD 0
    let lineEnd := lineStart + Rope.lenBytes ((b.rope.line row).getD [])
    min (min (lineStart + byteCol) lineEnd) b.rope.lenBytes

def floorRopeByte (byte : ℕ) : ℕ := b.rope.charToByte (b.rope.byteToChar (min byte b.rope.lenBytes))

def charOffsetAt (row byteCol : ℕ) : ℕ :=
  if b.rope.length = 0 then 0 else b.rope.byteToChar (b.floorRopeByte (b.byteOffsetAt row byteCol))

def byteColOfCharOffset (row charOffset : ℕ) : ℕ :=
  b.rope.charToByte (min charOffset b.rope.length) - (b.rope.lineToByte (min row (b.rope.lenLines - 1))).getD 0

def lineByteLen (row : ℕ) : ℕ :=
  match b.rope.line row with
  | none => 0
  | some l => if l.getLast? = some '\n' then Rope.lenBytes l - 1 else Rope.lenBytes l

def lineTextNoNewline (row : ℕ) : Rope :=
  let l := (b.rope.line row).getD []
  ((l.reverse.dropWhile (· == '\n')).dropWhile (· == '\r')).reverse

def clampCursor (win : Window) : Window :=
  if b.lineCount = 0 then ⟨0, 0⟩
  else
    let row := match b.narrowedRange with
      | some (first, last) => min (max win.cursorRow first) (last - 1)
      | none => win.cursorRow
    let row := min row (b.lineCount - 1)
    if b.lineByteLen row < win.cursorCol then ⟨row, b.lineByteLen row⟩
    else if 0 < win.cursorCol then ⟨row, P.snapToGraphemeBoundary (b.lineTextNoNewline row) win.cursorCol⟩
    else ⟨row, win.cursorCol⟩

end Columns

def maxUndoEntries : ℕ := 1000

def pushUndo (a : EditAction) (b : Buffer D U H) : Buffer D U H :=
  match b.undoGroupAcc with
  | some group => { b with undoGroupAcc := some (group ++ [a]) }
  | none => { b with undoStack := (a :: b.undoStack).take maxUndoEntries }

def beginUndoGroup (b : Buffer D U H) : Buffer D U H := { b with undoGroupAcc := some [] }

def syncUndoBoundary (b : Buffer D U H) : Buffer D U H := { b with syncDoc := b.syncDoc.map P.undoReset }

def endUndoGroup (b : Buffer D U H) : Buffer D U H :=
  let flushed : Buffer D U H := match b.undoGroupAcc with
    | none => b
    | some actions =>
      { b with
        undoGroupAcc := none
        undoStack := match actions with
          | [] => b.undoStack
          | [a] => a :: b.undoStack
          | actions => .group actions :: b.undoStack
        redoStack := [] }
  flushed.syncUndoBoundary P

variable (charOffset start stop : ℕ) (win : Window)

def syncInsert (text : Rope) (b : Buffer D U H) : Buffer D U H :=
  match b.syncDoc with
  | none => b
  | some d =>
    let (update, d) := P.insert charOffset text d
    { b with syncDoc := some d, pendingSyncUpdates := b.pendingSyncUpdates ++ [update] }

def syncDelete (len : ℕ) (b : Buffer D U H) : Buffer D U H :=
  match b.syncDoc with
  | none => b
  | some d =>
    let (update, d) := P.delete charOffset len d
    { b with syncDoc := some d, pendingSyncUpdates := b.pendingSyncUpdates ++ [update] }

def syncRebuildFromRope (b : Buffer D U H) : Buffer D U H :=
  match b.syncDoc with
  | none => b
  | some d =>
    let (update, d) := P.reconcileTo b.rope d
    { b with syncDoc := some d, pendingSyncUpdates := b.pendingSyncUpdates ++ update.toList }

def record (a : EditAction) (b : Buffer D U H) : Buffer D U H := { b.pushUndo a with redoStack := [], modified := true }

def insertAt (pos : ℕ) (text : Rope) (a : EditAction) (b : Buffer D U H) : Option (Buffer D U H) :=
  (b.rope.insert pos text).map fun r => (({ b with rope := r } : Buffer D U H).syncInsert P pos text).record a

def removeAt (a : EditAction) (b : Buffer D U H) : Option (Buffer D U H) :=
  (b.rope.remove start stop).map fun r => (({ b with rope := r } : Buffer D U H).syncDelete P start (stop - start)).record a

def insertChar (ch : Char) (b : Buffer D U H) : Option (Buffer D U H × Window) :=
  if b.readOnly then some (b, win)
  else do
    let pos := b.charOffsetAt win.cursorRow win.cursorCol
    let b ← b.insertAt P pos [ch] (.insertChar pos ch)
    return (b, if ch = '\n' then ⟨win.cursorRow + 1, 0⟩ else ⟨win.cursorRow, win.cursorCol + ch.utf8Size⟩)

def deleteCharBackward (b : Buffer D U H) : Option (Buffer D U H × Window) :=
  if b.readOnly then some (b, win)
  else if win.cursorCol = 0 ∧ win.cursorRow = 0 then some (b, win)
  else
    match b.charOffsetAt win.cursorRow win.cursorCol with
    | 0 => some (b, win)
    | pos + 1 => do
      let ch ← b.rope[pos]?
      if ch = '\n' ∧ win.cursorRow = 0 then none
      else
        let b' ← b.removeAt P pos (pos + 1) (.deleteChar pos ch)
        return (b', if ch = '\n' then ⟨win.cursorRow - 1, b.lineByteLen (win.cursorRow - 1)⟩
          else ⟨win.cursorRow, win.cursorCol - ch.utf8Size⟩)

def deleteCharForward (b : Buffer D U H) : Option (Buffer D U H × Window) :=
  if b.readOnly then some (b, win)
  else
    let pos := b.charOffsetAt win.cursorRow win.cursorCol
    if b.rope.length ≤ pos then some (b, win)
    else do
      let ch ← b.rope[pos]?
      let b ← b.removeAt P pos (pos + 1) (.deleteChar pos ch)
      return (b, b.clampCursor P win)

def cut (b : Buffer D U H) : Option (Buffer D U H) := do
  let text ← b.rope.slice start stop
  b.removeAt P start stop (.deleteRange start text)

def deleteLine (b : Buffer D U H) : Option (Buffer D U H × Window × Rope) :=
  if b.readOnly then some (b, win, [])
  else if b.lineCount = 0 ∨ b.rope.length = 0 then some (b, win, [])
  else do
    let lineStart ← b.rope.lineToChar win.cursorRow
    let line ← b.rope.line win.cursorRow
    if line.length = 0 then return (b, win, [])
    else
      let text ← b.rope.slice lineStart (lineStart + line.length)
      let b ← b.cut P lineStart (lineStart + line.length)
      return (b, b.clampCursor P win, text)

/-- Walk back from `pos` over characters that satisfy `p`, not beyond `lineStart`. -/
def walkBack (r : Rope) (lineStart : ℕ) (p : Char → Bool) : ℕ → ℕ
  | 0 => 0
  | pos + 1 => if lineStart < pos + 1 ∧ (r[pos]?).any p then walkBack r lineStart p pos else pos + 1

def deleteWordBackward (b : Buffer D U H) : Option (Buffer D U H × Window) :=
  if b.readOnly then some (b, win)
  else do
    let cursor := b.charOffsetAt win.cursorRow win.cursorCol
    let lineStart ← b.rope.lineToChar win.cursorRow
    if cursor ≤ lineStart then return (b, win)
    else
      let pos := walkBack b.rope lineStart (fun c => !Rope.isWhitespace c)
        (walkBack b.rope lineStart Rope.isWhitespace cursor)
      if pos = cursor then return (b, win)
      else
        let b ← b.cut P pos cursor
        return (b, ⟨win.cursorRow, b.byteColOfCharOffset win.cursorRow pos⟩)

def deleteToLineStart (b : Buffer D U H) : Option (Buffer D U H × Window) :=
  if b.readOnly then some (b, win)
  else do
    let cursor := b.charOffsetAt win.cursorRow win.cursorCol
    let lineStart ← b.rope.lineToChar win.cursorRow
    if cursor ≤ lineStart then return (b, win)
    else
      let b ← b.cut P lineStart cursor
      return (b, ⟨win.cursorRow, 0⟩)

def deleteToLineEnd (b : Buffer D U H) : Option (Buffer D U H × Window) :=
  if b.readOnly then some (b, win)
  else do
    let cursor := b.charOffsetAt win.cursorRow win.cursorCol
    let lineStart ← b.rope.lineToChar win.cursorRow
    let line ← b.rope.line win.cursorRow
    let rawEnd := lineStart + line.length
    let lineEnd :=
      if lineStart < rawEnd ∧ rawEnd ≤ b.rope.length ∧ b.rope[rawEnd - 1]? = some '\n' then
        if cursor = rawEnd - 1 then rawEnd else rawEnd - 1
      else rawEnd
    if lineEnd ≤ cursor then return (b, win)
    else
      let b ← b.cut P cursor lineEnd
      return (b, b.clampCursor P win)

def insertTextAt (text : Rope) (b : Buffer D U H) : Option (Buffer D U H) :=
  if b.readOnly then some b
  else
    let offset := min charOffset b.rope.length
    b.insertAt P offset text (.insertRange offset text)

def deleteRange (b : Buffer D U H) : Option (Buffer D U H) :=
  if b.readOnly then some b
  else
    let start := min start b.rope.length
    let stop := min stop b.rope.length
    if stop ≤ start then some b else b.cut P start stop

def openLineBelow (b : Buffer D U H) : Option (Buffer D U H × Window) :=
  if b.readOnly then some (b, win)
  else do
    let lineStart ← b.rope.lineToChar win.cursorRow
    let line ← b.rope.line win.cursorRow
    let b ← b.insertAt P (lineStart + line.length) ['\n'] (.insertChar (lineStart + line.length) '\n')
    return (b, ⟨win.cursorRow + 1, 0⟩)

def openLineAbove (b : Buffer D U H) : Option (Buffer D U H × Window) :=
  if b.readOnly then some (b, win)
  else do
    let lineStart ← b.rope.lineToChar win.cursorRow
    let b ← b.insertAt P lineStart ['\n'] (.insertChar lineStart '\n')
    return (b, ⟨win.cursorRow, 0⟩)

def joinLine (row : ℕ) (b : Buffer D U H) : Option (Buffer D U H) :=
  if b.lineCount ≤ row + 1 then some b
  else do
    let lineStart ← b.rope.lineToChar row
    let line ← b.rope.line row
    let newlinePos := lineStart + line.length - 1
    let nextLine := (b.rope.line (row + 1)).getD []
    let leading := nextLine.takeWhile fun c => Rope.isWhitespace c && c != '\n'
    let remaining := nextLine.drop leading.length
    let b ← b.beginUndoGroup.deleteRange P newlinePos (newlinePos + 1 + leading.length)
    let b ← if remaining ≠ [] ∧ remaining ≠ ['\n'] then b.insertTextAt P newlinePos [' '] else some b
    return b.endUndoGroup P

def undoDoc (b : Buffer D U H) : Option D := b.syncDoc.filter P.undoMgrActive

section Undo

variable [DecidableEq H]

def adopt (result : UndoResult U × D) (win : Window) (b : Buffer D U H) : Buffer D U H × Window :=
  let (result, d) := result
  let b := { b with syncDoc := some d }
  if !result.success then (b, win)
  else
    let rope := P.rope d
    let b : Buffer D U H :=
      { b with
        rope := rope
        pendingSyncUpdates := b.pendingSyncUpdates ++ result.updates
        modified := match b.savedContentHash with
          | some saved => P.contentHash rope != saved
          | none => true }
    (b, b.clampCursor P ((result.cursorOffset.map (setCursorFromCharPos rope)).getD win))

def undo (win : Window) (b : Buffer D U H) : Option (Buffer D U H × Window) :=
  match b.undoDoc P with
  | some d => some (b.adopt P (P.undo d) win)
  | none =>
    match b.undoStack with
    | [] => some (b, win)
    | a :: rest => do
      let (r, win) ← applyUndoAction (b.rope, win) a
      let b := ({ b with rope := r, undoStack := rest } : Buffer D U H).syncRebuildFromRope P
      let b := { b with redoStack := a :: b.redoStack }
      let b := { b with modified := decide (b.savedUndoDepth ≠ some b.undoStack.length) }
      return (b, b.clampCursor P win)

def redo (win : Window) (b : Buffer D U H) : Option (Buffer D U H × Window) :=
  match b.undoDoc P with
  | some d => some (b.adopt P (P.redo d) win)
  | none =>
    match b.redoStack with
    | [] => some (b, win)
    | a :: rest => do
      let (r, win) ← applyRedoAction (b.rope, win) a
      let b := ({ b with rope := r, redoStack := rest } : Buffer D U H).syncRebuildFromRope P
      let b := b.pushUndo a
      let b := { b with modified := decide (b.savedUndoDepth ≠ some b.undoStack.length) }
      return (b, b.clampCursor P win)

end Undo

/-- `written` tells whether the file could be written. -/
def save (written : Bool) (b : Buffer D U H) : Except String (Buffer D U H) :=
  match b.filePath with
  | none => .error "No file path set"
  | some path =>
    if !written then .error ("Cannot save: " ++ path)
    else
      let hash := some (P.contentHash b.rope)
      .ok { b with
        modified := false
        savedUndoDepth := some b.undoStack.length
        contentHash := hash
        savedContentHash := if b.syncDoc.isSome then hash else b.savedContentHash }

/-- `content` is what the file holds, if it can be read. -/
def reloadFromDisk (content : Option Rope) (b : Buffer D U H) : Except String (Buffer D U H) :=
  match b.filePath, content with
  | none, _ => .error "No file path set"
  | some path, none => .error path
  | some _, some content =>
    let b := ({ b with contentHash := some (P.contentHash content), rope := content } : Buffer D U H).syncRebuildFromRope P
    .ok { b with modified := false, undoStack := [], savedUndoDepth := some 0, redoStack := [] }

def enableSync (clientId : ℕ) (b : Buffer D U H) : Buffer D U H :=
  { b with
    syncDoc := some (P.enableUndo (P.withClientId b.rope clientId))
    savedContentHash := none }

def disableSync (b : Buffer D U H) : Buffer D U H := { b with syncDoc := none }

/-- `doc` is the document that the state from the server decodes to. -/
def loadSyncState (doc : Except String D) (b : Buffer D U H) : Except String (Buffer D U H) := do
  let d := P.enableUndo (← doc)
  return { b with
    rope := P.rope d
    syncDoc := some d
    pendingSyncUpdates := []
    undoStack := []
    redoStack := []
    modified := false
    savedContentHash := none }

def applySyncUpdate (update : U) (b : Buffer D U H) : Except String Unit × Buffer D U H :=
  match b.syncDoc with
  | none => (.error "sync not enabled on this buffer", b)
  | some d =>
    match P.applyUpdate update d with
    | (.error e, d) => (.error e, { b with syncDoc := some d })
    | (.ok _, d) => (.ok (), { b with syncDoc := some d, rope := P.rope d })

end Buffer

end Mae.Editor
