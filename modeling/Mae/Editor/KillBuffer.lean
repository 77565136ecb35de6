import Mae.Editor.Windows

/-! The editor's list of buffers, the windows that show them by position, and the commands that change either. -/

namespace Mae.Editor

inductive BufferKind where
  | text | conversation | preview | messages | kb | shell | debug | dashboard | gitStatus | visual | fileTree | diff | agenda
  | demo | shellSelect | modules | notifications | kbSharing | graph
  deriving DecidableEq, Repr

def BufferKind.isSidebar : BufferKind → Bool
  | fileTree | conversation | debug | messages | dashboard | shellSelect | kb | shell | graph => true
  | _ => false

/-- A buffer in the editor's list; `id` is the identity of the object. -/
structure BufferEntry where
  id : ℕ
  name : String
  kind : BufferKind
  modified : Bool
  deriving DecidableEq, Repr

structure ConversationPair where
  outputBufferIdx : ℕ
  inputBufferIdx : ℕ
  outputWindowId : WindowId
  inputWindowId : WindowId
  deriving DecidableEq, Repr

structure EditorState where
  buffers : List BufferEntry
  windowMgr : WindowManager
  savedMaximizeLayout : Option WindowManager
  conversationPair : Option ConversationPair
  alternateBufferIdx : Option ℕ
  targetBufferIdx : Option ℕ
  fileTreeWindowId : Option WindowId
  mcpTargetWindows : List WindowId
  replaceableKinds : List BufferKind
  pendingBufferRemovals : List ℕ
  nextBufferId : ℕ
  status : String
  deriving DecidableEq, Repr

inductive WindowCommand where
  | split (direction : SplitDirection) (half : ℕ)
  | closeWindow
  | focus (nearest : Option WindowId) (lastLine : ℕ)
  | windowMaximize
  | killBuffer
  | forceKillBuffer
  deriving DecidableEq, Repr

variable (buffers : List BufferEntry)

def usableAt (j : ℕ) : Bool := (buffers[j]?).any fun b => !b.kind.isSidebar

def replacementAt (start offset : ℕ) : Option ℕ :=
  if offset ≤ start ∧ usableAt buffers (start - offset) then some (start - offset)
  else if usableAt buffers (start + offset + 1) then some (start + offset + 1)
  else none

def findReplacementBuffer (near : ℕ) : ℕ :=
  let start := min near (buffers.length - 1)
  ((List.range buffers.length).findSome? (replacementAt buffers start)).getD start

/-- Where the buffer at position `i` is once the one at `removed` is gone. -/
def shiftIdx (removed i : ℕ) : Option ℕ := if i = removed then none else if removed < i then some (i - 1) else some i

namespace EditorState

variable (e : EditorState)

def activeBufferIdx : Option ℕ := e.windowMgr.focusedWindow.map ManagedWindow.bufferIdx

def notifyBufferRemoved (removed : ℕ) : EditorState :=
  { e with
    targetBufferIdx := e.targetBufferIdx.bind (shiftIdx removed)
    alternateBufferIdx := e.alternateBufferIdx.bind (shiftIdx removed)
    conversationPair := do
      let pair ← e.conversationPair
      let output ← shiftIdx removed pair.outputBufferIdx
      let input ← shiftIdx removed pair.inputBufferIdx
      return { pair with outputBufferIdx := output, inputBufferIdx := input }
    pendingBufferRemovals := e.pendingBufferRemovals ++ [removed] }

def retarget (buffers : List BufferEntry) (removed : ℕ) (w : ManagedWindow) : ManagedWindow :=
  if w.bufferIdx = removed then { w with bufferIdx := findReplacementBuffer buffers removed, cursorRow := 0, cursorCol := 0 }
  else if removed < w.bufferIdx then { w with bufferIdx := w.bufferIdx - 1 }
  else w

def mapWindows (f : ManagedWindow → ManagedWindow) : EditorState :=
  { e with windowMgr := { e.windowMgr with windows := e.windowMgr.windows.map f } }

variable (idx : ℕ) (id : WindowId)

def dropBuffer : EditorState :=
  let buffers := e.buffers.eraseIdx idx
  (({ e with buffers := buffers } : EditorState).notifyBufferRemoved idx).mapWindows (retarget buffers idx)

def removeBufferRaw : EditorState := if e.buffers.length ≤ idx then e else e.dropBuffer idx

def isDedicatedWindow : Bool :=
  e.fileTreeWindowId == some id ||
    e.conversationPair.any (fun pair => id == pair.outputWindowId || id == pair.inputWindowId) ||
    e.mcpTargetWindows.contains id ||
    ((e.windowMgr.window id).bind fun w => e.buffers[w.bufferIdx]?).any fun b =>
      b.kind.isSidebar && !e.replaceableKinds.contains b.kind

def closeWindowId : EditorState :=
  match e.windowMgr.close id with
  | some (_, m) => { e with windowMgr := m }
  | none => e

def conversationSibling : Option (ℕ × WindowId) := do
  let pair ← e.conversationPair
  let sibling ← if idx = pair.outputBufferIdx then some pair.inputBufferIdx
    else if idx = pair.inputBufferIdx then some pair.outputBufferIdx else none
  return (sibling, if sibling = pair.inputBufferIdx then pair.inputWindowId else pair.outputWindowId)

def announce (message : String) : Option EditorState := do
  let idx ← e.activeBufferIdx
  let b ← e.buffers[idx]?
  return { e with status := message ++ b.name }

def scratch (id : ℕ) : BufferEntry := ⟨id, "[scratch]", .text, false⟩

def killConversation (sibling : ℕ) (window : WindowId) : Option EditorState :=
  let closed := ({ e with conversationPair := none } : EditorState).closeWindowId window
  ((closed.removeBufferRaw (max idx sibling)).removeBufferRaw (min idx sibling)).announce "Conversation closed — now: "

def resetCursor (w : ManagedWindow) : ManagedWindow :=
  if w.id = id then { w with cursorRow := 0, cursorCol := 0 } else w

def renewBuffer : EditorState :=
  { e with
    buffers := [scratch e.nextBufferId]
    nextBufferId := e.nextBufferId + 1
    status := "Buffer killed — [scratch]" }

def killOnlyBuffer : Option EditorState := do
  let _ ← e.buffers[0]?
  let _ ← e.windowMgr.focusedWindow
  return (e.mapWindows (resetCursor e.windowMgr.focused)).renewBuffer

def closeFileTree (killed : BufferEntry) : EditorState :=
  match e.fileTreeWindowId with
  | some id => if killed.kind = .fileTree then ({ e with fileTreeWindowId := none } : EditorState).closeWindowId id else e
  | none => e

def closeIfDedicated : EditorState := if e.isDedicatedWindow id then e.closeWindowId id else e

def killOneOfMany : Option EditorState := do
  let e := e.closeFileTree (← e.buffers[idx]?)
  let dedicated := (e.windowMgr.windows.filter fun w => w.bufferIdx = idx).map ManagedWindow.id
  (dedicated.foldl closeIfDedicated (e.dropBuffer idx)).announce "Buffer killed — now: "

def killBufferAt : Option EditorState :=
  match e.conversationSibling idx with
  | some (sibling, window) => e.killConversation idx sibling window
  | none => if e.buffers.length ≤ 1 then e.killOnlyBuffer else e.killOneOfMany idx

def removalOrder (pair : ConversationPair) : List ℕ :=
  if pair.outputBufferIdx < pair.inputBufferIdx then [pair.inputBufferIdx, pair.outputBufferIdx]
  else if pair.outputBufferIdx = pair.inputBufferIdx then [pair.outputBufferIdx]
  else [pair.outputBufferIdx, pair.inputBufferIdx]

def destination (toRemove : List ℕ) : ℕ :=
  ((e.alternateBufferIdx.filter fun i => i < e.buffers.length && !toRemove.contains i).or
    ((List.range e.buffers.length).find? fun i => !toRemove.contains i)).getD 0

def forgetBuffer : EditorState :=
  if idx < e.buffers.length then
    (({ e with buffers := e.buffers.eraseIdx idx } : EditorState).notifyBufferRemoved idx).mapWindows fun w =>
      if idx < w.bufferIdx then { w with bufferIdx := w.bufferIdx - 1 } else w
  else e

def closeConversation (pair : ConversationPair) : EditorState :=
  let toRemove := removalOrder pair
  let single : EditorState :=
    { e with conversationPair := none, windowMgr := e.windowMgr.resetToSingle (e.destination toRemove) }
  toRemove.foldl forgetBuffer single

def closeWholeScreen : EditorState :=
  match e.conversationPair with
  | some pair => e.closeConversation pair
  | none => { e with status := "Cannot close last window" }

def closeFocusedGroup : EditorState :=
  let (bufIndices, m) := e.windowMgr.closeGroup e.windowMgr.focused
  let closed := { e with windowMgr := m }
  let done := if bufIndices = [] then closed.closeWholeScreen else closed
  { done with conversationPair := done.conversationPair.filter fun pair =>
      !(bufIndices.contains pair.outputBufferIdx || bufIndices.contains pair.inputBufferIdx) }

def closeWindow : EditorState :=
  if e.windowMgr.isInGroup e.windowMgr.focused then e.closeFocusedGroup
  else
    match e.windowMgr.close e.windowMgr.focused with
    | some (_, m) => { e with windowMgr := m }
    | none => { e with status := "Cannot close last window" }

def splitWindow (direction : SplitDirection) (half : ℕ) : Option EditorState := do
  let idx ← e.activeBufferIdx
  return match e.windowMgr.split direction idx half with
  | .ok (_, m) => { e with windowMgr := m }
  | .error message => { e with status := message }

def toLastLine (lastLine : ℕ) (w : ManagedWindow) : ManagedWindow :=
  if w.id = id ∧ w.cursorRow = 0 ∧ 0 < lastLine then { w with cursorRow := lastLine, cursorCol := 0 } else w

def focusDirection (nearest : Option WindowId) (lastLine : ℕ) : Option EditorState := do
  let _ ← e.buffers[← e.activeBufferIdx]?
  let e := { e with windowMgr := e.windowMgr.focusDirection nearest }
  let entered ← e.buffers[← e.activeBufferIdx]?
  return if entered.kind = .conversation then e.mapWindows (toLastLine e.windowMgr.focused lastLine) else e

def windowMaximize : EditorState :=
  let (m, saved) := e.windowMgr.maximizeToggle e.savedMaximizeLayout
  { e with windowMgr := m, savedMaximizeLayout := saved }

def dispatch : WindowCommand → Option EditorState
  | .split direction half => e.splitWindow direction half
  | .closeWindow => some e.closeWindow
  | .focus nearest lastLine => e.focusDirection nearest lastLine
  | .windowMaximize => some e.windowMaximize
  | .killBuffer => do
    let idx ← e.activeBufferIdx
    let b ← e.buffers[idx]?
    if b.modified then return { e with status := "Buffer has unsaved changes (save first or use :q!)" }
    else e.killBufferAt idx
  | .forceKillBuffer => do e.killBufferAt (← e.activeBufferIdx)

end EditorState

end Mae.Editor
