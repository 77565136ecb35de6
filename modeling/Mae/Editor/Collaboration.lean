import Mae.Editor.UndoHistory

/-! Undo in a buffer that is or was shared. -/

namespace Mae.Editor

open Library Session Buffer

variable {D U H : Type} [DecidableEq H] {P : Platform D U H} {s : Session D U H}

def sharedOnce (text : Rope) : List (Command Rope Rope) :=
  [.edit (.insertTextAt 0 ['a', 'b']) ⟨0, 0⟩, .enableSync 1, .applySyncUpdate text, .disableSync]

end Mae.Editor
