import Mae.Editor.Keymap
import Mathlib.Data.Nat.Digits.Defs

/-! The text form of recorded macros. -/

namespace Mae.Editor

open List

structure CaseTable where
  single : Char → Char
  ascii : ∀ c : Char, c.toNat < 128 → single c = c.toLower

namespace CaseTable

def lowerChar (table : CaseTable) (c : Char) : List Char :=
  if c = 'İ' then ['i', '̇'] else [table.single c]

def toLowercase (table : CaseTable) (s : List Char) : List Char := s.flatMap table.lowerChar

def asciiOnly : CaseTable := ⟨Char.toLower, fun _ _ => rfl⟩

end CaseTable

namespace KeyPress

def special (key : Key) : KeyPress := { key := key }

def plain (c : Char) : KeyPress := { key := .char c }

end KeyPress

open KeyPress (special plain)

def bracketed (name : List Char) : List Char := '<' :: (name ++ ['>'])

def serializeKeypress (kp : KeyPress) : List Char :=
  match kp.key, kp.ctrl, kp.alt with
  | .char c, false, false =>
    if c = ' ' then bracketed "Space".toList else if c = '<' then bracketed "lt".toList else [c]
  | .char c, true, false => bracketed ("C-".toList ++ [c])
  | .char c, false, true => bracketed ("M-".toList ++ [c])
  | .char c, true, true => bracketed ("C-M-".toList ++ [c])
  | .escape, false, false => bracketed "Esc".toList
  | .enter, false, false => bracketed "CR".toList
  | .backspace, false, false => bracketed "BS".toList
  | .tab, false, false => bracketed "Tab".toList
  | .backTab, false, false => bracketed "S-Tab".toList
  | .up, false, false => bracketed "Up".toList
  | .down, false, false => bracketed "Down".toList
  | .left, false, false => bracketed "Left".toList
  | .right, false, false => bracketed "Right".toList
  | .home, false, false => bracketed "Home".toList
  | .end, false, false => bracketed "End".toList
  | .pageUp, false, false => bracketed "PageUp".toList
  | .pageDown, false, false => bracketed "PageDown".toList
  | .delete, false, false => bracketed "Del".toList
  | .f n, false, false => bracketed ('F' :: Nat.toDigits 10 n.toNat)
  | .left, false, true => bracketed "M-Left".toList
  | .right, false, true => bracketed "M-Right".toList
  | .up, false, true => bracketed "M-Up".toList
  | .down, false, true => bracketed "M-Down".toList
  | .escape, true, _ => bracketed "C-Esc".toList
  | _, _, _ => []

def serializeMacro (keys : List KeyPress) : List Char := keys.flatMap serializeKeypress

def strip (start : String) (s : List Char) : Option (List Char) :=
  if start.toList.isPrefixOf s then some (s.drop start.toList.length) else none

def parseU8 (s : List Char) : Option UInt8 :=
  let digits := if s.head? = some '+' then s.tail else s
  if digits ≠ [] ∧ digits.all Char.isDigit then
    let n := digits.foldl (fun n c => 10 * n + (c.toNat - 48)) 0
    if n < 256 then some (UInt8.ofNat n) else none
  else none

def keyNames : List (String × Key) :=
  [("escape", .escape), ("enter", .enter), ("backspace", .backspace), ("tab", .tab), ("backtab", .backTab),
    ("up", .up), ("down", .down), ("left", .left), ("right", .right), ("home", .home), ("end", .end),
    ("pageup", .pageUp), ("pagedown", .pageDown), ("delete", .delete)]

def startsWord (s : List Char) (name : String) : Bool :=
  (strip name s).any fun rest => rest.head?.all fun c => !c.isAlpha

-- The digits behind an `f` end at the first other character or with the text.
def matchNamedKey (s : List Char) : Option (Key × ℕ) :=
  if startsWord s "spc" then some (.char ' ', 3)
  else match keyNames.find? fun e => startsWord s e.1 with
    | some (name, key) => some (key, name.length)
    | none => (strip "f" s).bind fun rest =>
        (parseU8 (rest.takeWhile Char.isDigit)).map fun n => (.f n, 1 + (rest.takeWhile Char.isDigit).length)

def specialNames : List (String × KeyPress) :=
  [("esc", special .escape), ("escape", special .escape), ("cr", special .enter), ("enter", special .enter),
    ("return", special .enter), ("bs", special .backspace), ("backspace", special .backspace), ("tab", special .tab),
    ("s-tab", special .backTab), ("backtab", special .backTab), ("up", special .up), ("down", special .down),
    ("left", special .left), ("right", special .right), ("home", special .home), ("end", special .end),
    ("pageup", special .pageUp), ("pagedown", special .pageDown), ("del", special .delete),
    ("delete", special .delete), ("space", plain ' '), ("lt", plain '<')]

def parseLowerToken (lower : List Char) : Option KeyPress :=
  match (strip "c-m-" lower).or (strip "m-c-" lower) with
  | some rest => rest.head?.map fun c => { key := .char c, ctrl := true, alt := true }
  | none =>
    match strip "c-" lower with
    | some rest => rest.head?.map fun c => { key := .char c, ctrl := true }
    | none =>
      match strip "m-" lower with
      | some rest =>
        match matchNamedKey rest with
        | some (key, _) => some { key := key, alt := true }
        | none => rest.head?.map fun c => { key := .char c, alt := true }
      | none =>
        match specialNames.find? fun e => e.1.toList == lower with
        | some (_, kp) => some kp
        | none => (strip "f" lower).bind fun rest => (parseU8 rest).map fun n => special (.f n)

def parseMacroToken (table : CaseTable) (token : List Char) : Option KeyPress :=
  parseLowerToken (table.toLowercase token)

def deserializeMacro (table : CaseTable) : List Char → List KeyPress
  | [] => []
  | c :: s =>
    if c = '<' then
      (parseMacroToken table (s.takeWhile (· ≠ '>'))).toList ++ deserializeMacro table (s.dropWhile (· ≠ '>')).tail
    else plain c :: deserializeMacro table s
termination_by s => s.length
decreasing_by
  · have := (dropWhile_suffix (l := s) (· ≠ '>')).length_le
    simp only [length_tail, length_cons]
    omega
  · simp

/-- Characters with any of `Ctrl` and `Alt`, and the other keys without modifiers. -/
def KeyPress.Recordable (kp : KeyPress) : Prop :=
  kp.shift = false ∧ ((∃ c, kp.key = .char c) ∨ kp.ctrl = false ∧ kp.alt = false)

def KeyPress.restored (table : CaseTable) (kp : KeyPress) : KeyPress :=
  match kp.key with
  | .char c =>
    if kp.ctrl || kp.alt then
      if c = '>' then plain '>' else { kp with key := .char ((table.lowerChar c).headD c) }
    else kp
  | _ => kp

variable {table : CaseTable} {s name : List Char}

lemma deserializeMacro_plain {c : Char} (hc : c ≠ '<') :
    deserializeMacro table (c :: s) = plain c :: deserializeMacro table s := by
  rw [deserializeMacro, if_neg hc]

lemma deserializeMacro_bracketed (h : '>' ∉ name) : deserializeMacro table (bracketed name ++ s) =
      (parseMacroToken table name).toList ++ deserializeMacro table s := by
  have hall : ∀ c ∈ name, decide (c ≠ '>') = true := fun c hc => decide_eq_true fun he => h (he ▸ hc)
  rw [bracketed, cons_append, deserializeMacro, append_assoc,
    takeWhile_append_of_pos hall, dropWhile_append_of_pos hall]
  simp

def IsAscii (name : List Char) : Prop := ∀ c ∈ name, c.toNat < 128

instance (name : List Char) : Decidable (IsAscii name) := List.decidableBAll (fun c : Char => c.toNat < 128) name

lemma toLowercase_of_ascii (h : IsAscii name) : table.toLowercase name = name.map Char.toLower := by
  rw [CaseTable.toLowercase, ← flatMap_singleton' (name.map Char.toLower), flatMap_map]
  refine flatMap_congr fun c hc => ?_
  have hne : c ≠ 'İ' := fun he => absurd (h c hc) (he ▸ by decide)
  rw [CaseTable.lowerChar, if_neg hne, table.ascii c (h c hc)]

structure Names (name : List Char) (kp : KeyPress) : Prop where
  ascii : IsAscii name
  closed : '>' ∉ name
  read : parseLowerToken (name.map Char.toLower) = some kp

instance (name : List Char) (kp : KeyPress) : Decidable (Names name kp) :=
  decidable_of_iff (IsAscii name ∧ '>' ∉ name ∧ parseLowerToken (name.map Char.toLower) = some kp)
    ⟨fun h => ⟨h.1, h.2.1, h.2.2⟩, fun h => ⟨h.1, h.2, h.3⟩⟩

lemma Names.deserializeMacro {kp : KeyPress} (h : Names name kp) :
    deserializeMacro table (bracketed name ++ s) = kp :: Editor.deserializeMacro table s := by
  rw [deserializeMacro_bracketed h.closed, parseMacroToken, toLowercase_of_ascii h.ascii, h.read]
  rfl

lemma names_f (n : UInt8) : Names ('F' :: Nat.toDigits 10 n.toNat) (special (.f n)) := by
  have hall : ∀ i : Fin 256, Names ('F' :: Nat.toDigits 10 i.val) (special (.f (UInt8.ofNat i.val))) := by
    decide +kernel
  simpa using hall ⟨n.toNat, n.toNat_lt⟩

lemma matchNamedKey_lowerChar (table : CaseTable) (c : Char) : matchNamedKey (table.lowerChar c) = none := by
  rw [CaseTable.lowerChar]
  split
  · decide
  · simp [matchNamedKey, startsWord, strip, keyNames, parseU8, List.isPrefixOf]

lemma lowerChar_cases (table : CaseTable) (c : Char) :
    c = 'İ' ∧ table.lowerChar c = ['i', '̇'] ∨ table.lowerChar c = [table.single c] := by
  rw [CaseTable.lowerChar]
  split
  · exact .inl ⟨‹_›, rfl⟩
  · exact .inr rfl

structure Modifies (table : CaseTable) (start : List Char) (kp : KeyPress) : Prop where
  ascii : IsAscii start := by decide
  closed : '>' ∉ start := by decide
  bare : parseLowerToken (start.map Char.toLower) = none := by decide
  read : ∀ c, parseLowerToken (start.map Char.toLower ++ table.lowerChar c) =
    some { kp with key := .char ((table.lowerChar c).headD c) }

-- The closing bracket of a modified `>` is taken for its key, and the key's character for a plain one.
lemma Modifies.deserializeMacro {start : List Char} {kp : KeyPress} (h : Modifies table start kp) (c : Char) :
    deserializeMacro table (bracketed (start ++ [c]) ++ s) =
      (if c = '>' then plain '>' else { kp with key := .char ((table.lowerChar c).headD c) }) ::
        Editor.deserializeMacro table s := by
  split
  · rename_i hc
    have hsplit : bracketed (start ++ [c]) ++ s = bracketed start ++ '>' :: s := by simp [bracketed, hc]
    rw [hsplit, deserializeMacro_bracketed h.closed, parseMacroToken, toLowercase_of_ascii h.ascii, h.bare,
      deserializeMacro_plain (by decide)]
    rfl
  · rename_i hc
    have hclosed : '>' ∉ start ++ [c] := by simp [h.closed, Ne.symm hc]
    have hlower : table.toLowercase (start ++ [c]) = start.map Char.toLower ++ table.lowerChar c := by
      rw [CaseTable.toLowercase, flatMap_append, flatMap_singleton, ← toLowercase_of_ascii h.ascii]
      rfl
    rw [deserializeMacro_bracketed hclosed, parseMacroToken, hlower, h.read]
    rfl

lemma modifies_ctrl : Modifies table "C-".toList { key := .escape, ctrl := true } where
  read c := by
    obtain ⟨rfl, h⟩ | h := lowerChar_cases table c
    · rw [h]
      decide
    · simp [h, parseLowerToken, strip, List.isPrefixOf]

lemma modifies_alt : Modifies table "M-".toList { key := .escape, alt := true } where
  read c := by
    have hnamed := matchNamedKey_lowerChar table c
    obtain ⟨rfl, h⟩ | h := lowerChar_cases table c
    · rw [h]
      decide
    · rw [h] at hnamed
      simp [h, hnamed, parseLowerToken, strip, List.isPrefixOf]

lemma modifies_both : Modifies table "C-M-".toList { key := .escape, ctrl := true, alt := true } where
  read c := by
    obtain ⟨rfl, h⟩ | h := lowerChar_cases table c
    · rw [h]
      decide
    · simp [h, parseLowerToken, strip, List.isPrefixOf]

lemma deserializeMacro_unmodified (c : Char) :
    deserializeMacro table (serializeKeypress (plain c) ++ s) = plain c :: deserializeMacro table s := by
  simp only [serializeKeypress, plain]
  split_ifs with hspace hlt
  · exact hspace ▸ Names.deserializeMacro (by decide)
  · exact hlt ▸ Names.deserializeMacro (by decide)
  · exact deserializeMacro_plain hlt

lemma deserializeMacro_special (key : Key) (hkey : ∀ c, key ≠ .char c) :
    deserializeMacro table (serializeKeypress (special key) ++ s) = special key :: deserializeMacro table s := by
  cases key with
  | char c => exact absurd rfl (hkey c)
  | f n => exact (names_f n).deserializeMacro
  | _ => exact Names.deserializeMacro (by decide)

open KeyPress

lemma deserializeMacro_serializeKeypress {kp : KeyPress} (h : kp.Recordable) :
    deserializeMacro table (serializeKeypress kp ++ s) = kp.restored table :: deserializeMacro table s := by
  obtain ⟨key, ctrl, alt, shift⟩ := kp
  obtain ⟨rfl, hkey⟩ := h
  by_cases hchar : ∃ c, key = .char c
  · obtain ⟨c, rfl⟩ := hchar
    cases ctrl <;> cases alt
    · exact deserializeMacro_unmodified c
    · exact modifies_alt.deserializeMacro c
    · exact modifies_ctrl.deserializeMacro c
    · exact modifies_both.deserializeMacro c
  · obtain ⟨rfl, rfl⟩ := hkey.resolve_left hchar
    have hne : ∀ c, key ≠ .char c := fun c he => hchar ⟨c, he⟩
    have hrestored : restored table (special key) = special key := by
      cases key with
      | char c => exact absurd rfl (hne c)
      | _ => rfl
    exact (deserializeMacro_special key hne).trans (by rw [← hrestored]; rfl)

lemma deserializeMacro_serializeMacro {keys : List KeyPress} (h : ∀ kp ∈ keys, kp.Recordable) :
    deserializeMacro table (serializeMacro keys) = keys.map (restored table) := by
  induction keys with
  | nil => rw [serializeMacro, flatMap_nil, deserializeMacro, map_nil]
  | cons kp keys ih =>
    rw [forall_mem_cons] at h
    rw [serializeMacro, flatMap_cons, deserializeMacro_serializeKeypress h.1, ← serializeMacro, ih h.2, map_cons]

def KeyPress.Restorable (table : CaseTable) (kp : KeyPress) : Prop :=
  ∀ c, kp.key = .char c → (kp.ctrl || kp.alt) = true → c ≠ '>' ∧ table.lowerChar c = [c]

lemma head_lowerChar_eq_iff {c : Char} : (table.lowerChar c).head?.getD c = c ↔ table.lowerChar c = [c] := by
  obtain ⟨rfl, h⟩ | h := lowerChar_cases table c
  · rw [h]
    decide
  · simp [h]

lemma KeyPress.restored_eq_iff {kp : KeyPress} : kp.restored table = kp ↔ kp.Restorable table := by
  obtain ⟨key, ctrl, alt, shift⟩ := kp
  cases key with
  | char c =>
    by_cases hmod : (ctrl || alt) = true
    · by_cases hc : c = '>'
      · simp only [restored, Restorable, hmod, hc, plain, if_true]
        grind
      · simp [restored, Restorable, hmod, hc, head_lowerChar_eq_iff]
    · simp [restored, Restorable, hmod]
  | _ => simp [restored, Restorable]

theorem deserializeMacro_serializeMacro_iff {keys : List KeyPress} (h : ∀ kp ∈ keys, kp.Recordable) :
    deserializeMacro table (serializeMacro keys) = keys ↔ ∀ kp ∈ keys, kp.Restorable table := by
  have hmap : keys.map (restored table) = keys.map id ↔ ∀ kp ∈ keys, kp.restored table = kp :=
    map_inj_left
  rw [deserializeMacro_serializeMacro h]
  rw [map_id] at hmap
  exact hmap.trans (forall₂_congr fun _ _ => restored_eq_iff)

theorem deserializeMacro_serializeMacro_of_plain :
    deserializeMacro .asciiOnly (serializeMacro [plain '>', { key := .char 'x', ctrl := true }, special .pageDown]) =
      [plain '>', { key := .char 'x', ctrl := true }, special .pageDown] :=
  (deserializeMacro_serializeMacro_iff (by simp [Recordable, plain, special])).mpr
    (by simp [Restorable, plain, special]; decide)

theorem deserializeMacro_serializeMacro_of_modified : deserializeMacro .asciiOnly
        (serializeMacro [{ key := .char 'A', ctrl := true }, { key := .char '>', alt := true }]) =
      [{ key := .char 'a', ctrl := true }, plain '>'] := by
  rw [deserializeMacro_serializeMacro (by simp [Recordable])]
  decide

end Mae.Editor
