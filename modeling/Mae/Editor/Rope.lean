import Mathlib

/-! Ropes, as far as buffers use them. -/

namespace Mae.Editor

open List

abbrev Rope := List Char

namespace Rope

def lenBytes (r : Rope) : ℕ := (r.map Char.utf8Size).sum

def insert (r : Rope) (pos : ℕ) (text : Rope) : Option Rope :=
  if pos ≤ r.length then some (r.take pos ++ text ++ r.drop pos) else none

def remove (r : Rope) (start stop : ℕ) : Option Rope :=
  if start ≤ stop ∧ stop ≤ r.length then some (r.take start ++ r.drop stop) else none

def slice (r : Rope) (start stop : ℕ) : Option Rope :=
  if start ≤ stop ∧ stop ≤ r.length then some ((r.drop start).take (stop - start)) else none

def isLineBreak (c : Char) : Bool := ['\n', '\x0b', '\x0c', '\r', '\u0085', '\u2028', '\u2029'].contains c

def lines : Rope → List Rope
  | [] => [[]]
  | '\r' :: '\n' :: r => ['\r', '\n'] :: lines r
  | c :: r => if isLineBreak c then [c] :: lines r else ((lines r).headD []).cons c :: (lines r).tail

def lenLines (r : Rope) : ℕ := r.lines.length

def line (r : Rope) (row : ℕ) : Option Rope := r.lines[row]?

def lineToChar (r : Rope) (row : ℕ) : Option ℕ :=
  if row ≤ r.lenLines then some (r.lines.take row).flatten.length else none

def charToByte (r : Rope) (pos : ℕ) : ℕ := lenBytes (r.take pos)

def lineToByte (r : Rope) (row : ℕ) : Option ℕ := (r.lineToChar row).map r.charToByte

/-- The character that contains the byte `b`. -/
def byteToChar : Rope → ℕ → ℕ
  | [], _ => 0
  | c :: r, b => if b < c.utf8Size then 0 else byteToChar r (b - c.utf8Size) + 1

/-- The line that contains the character `pos`, among the given ones. -/
def lineOf : List Rope → ℕ → ℕ
  | [], _ => 0
  | [_], _ => 0
  | l :: ls, pos => if pos < l.length then 0 else lineOf ls (pos - l.length) + 1

def charToLine (r : Rope) (pos : ℕ) : ℕ := lineOf r.lines pos

/-- Rust's `char::is_whitespace`. -/
def isWhitespace (c : Char) : Bool :=
  let n := c.toNat
  (0x9 ≤ n && n ≤ 0xd) || n == 0x20 || n == 0x85 || n == 0xa0 || n == 0x1680 || (0x2000 ≤ n && n ≤ 0x200a) ||
    n == 0x2028 || n == 0x2029 || n == 0x202f || n == 0x205f || n == 0x3000

variable {r t text : Rope} {pos start stop : ℕ}

lemma insert_of_le (h : pos ≤ r.length) (text : Rope) :
    r.insert pos text = some (r.take pos ++ text ++ r.drop pos) := if_pos h

lemma remove_of_le (h : start ≤ stop) (h' : stop ≤ r.length) :
    r.remove start stop = some (r.take start ++ r.drop stop) := if_pos ⟨h, h'⟩

lemma slice_of_le (h : start ≤ stop) (h' : stop ≤ r.length) :
    r.slice start stop = some ((r.drop start).take (stop - start)) := if_pos ⟨h, h'⟩

lemma length_of_slice (h : r.slice start stop = some text) : start + text.length = stop := by
  rw [slice] at h
  split at h
  · cases h
    simp
    omega
  · simp at h

lemma slice_of_getElem? {c : Char} (h : r[pos]? = some c) : r.slice pos (pos + 1) = some [c] := by
  obtain ⟨hpos, hc⟩ := List.getElem?_eq_some_iff.mp h
  have hone : pos + 1 - pos = 1 := Nat.add_sub_cancel_left pos 1
  rw [slice_of_le (Nat.le_add_right pos 1) hpos, hone, drop_eq_getElem_cons hpos, hc]
  rfl

lemma remove_of_insert (h : r.insert pos text = some t) : t.remove pos (pos + text.length) = some r := by
  rw [insert] at h
  split at h
  · rename_i hpos
    cases h
    have hlen : (r.take pos).length = pos := length_take_of_le hpos
    have htake : (r.take pos ++ text ++ r.drop pos).take pos = r.take pos := by
      rw [append_assoc]
      exact take_left' hlen
    have hdrop : (r.take pos ++ text ++ r.drop pos).drop (pos + text.length) = r.drop pos :=
      drop_left' (by rw [length_append, hlen])
    rw [remove_of_le (Nat.le_add_right _ _) (by simp; omega), htake, hdrop, take_append_drop]
  · simp at h

lemma insert_of_remove (h : r.remove start stop = some t) (htext : r.slice start stop = some text) :
    t.insert start text = some r := by
  rw [remove] at h
  rw [slice] at htext
  split at h
  · rename_i hle
    rw [if_pos hle] at htext
    cases h
    cases htext
    have hlen : (r.take start).length = start := length_take_of_le (hle.1.trans hle.2)
    have hstop : start + (stop - start) = stop := Nat.add_sub_of_le hle.1
    rw [insert_of_le (by simp; omega), take_left' hlen, drop_left' hlen]
    congr 1
    calc r.take start ++ (r.drop start).take (stop - start) ++ r.drop stop
        = r.take stop ++ r.drop stop := by rw [← take_add, hstop]
      _ = r := take_append_drop stop r
  · simp at h

end Rope

end Mae.Editor
