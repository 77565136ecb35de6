import Mathlib.Algebra.Order.BigOperators.Group.List
import Mathlib.Algebra.Order.Group.Nat
import Mae.Editor.Rope

/-! Where local cursors go when an update from afar is applied. -/

namespace Mae.Editor

open List Option

inductive Change where
  | retain (n : ℕ)
  | insert (text : Rope)
  | delete (n : ℕ)

inductive Delta where
  | retain (len : ℕ)
  | inserted
  | deleted (len : ℕ)

structure AppliedEdit where
  editStart : ℕ
  charDelta : ℤ

def utf16Size (c : Char) : ℕ := if c.toNat < 0x10000 then 1 else 2

def lenUtf16Cu (r : Rope) : ℕ := (r.map utf16Size).sum

def utf16CuToChar : Rope → ℕ → ℕ
  | [], _ => 0
  | c :: r, unit => if unit < utf16Size c then 0 else utf16CuToChar r (unit - utf16Size c) + 1

namespace Change

def apply : List Change → Rope → Rope
  | [], r => r
  | retain n :: cs, r => r.take n ++ apply cs (r.drop n)
  | insert text :: cs, r => text ++ apply cs r
  | delete n :: cs, r => apply cs (r.drop n)

def report : List Change → Rope → List Delta
  | [], _ => []
  | retain n :: cs, r => .retain (lenUtf16Cu (r.take n)) :: report cs (r.drop n)
  | insert _ :: cs, r => .inserted :: report cs r
  | delete n :: cs, r => .deleted (lenUtf16Cu (r.take n)) :: report cs (r.drop n)

def Fits : List Change → ℕ → Prop
  | [], _ => True
  | retain n :: cs, len => n ≤ len ∧ Fits cs (len - n)
  | insert _ :: cs, len => Fits cs len
  | delete n :: cs, len => n ≤ len ∧ Fits cs (len - n)

end Change

-- Once an edit has been seen, the rest of the report does not matter.
def observe : List Delta → ℕ → Option ℕ
  | [], _ => none
  | .retain len :: ds, pos => observe ds (pos + len)
  | .inserted :: _, pos => some pos
  | .deleted _ :: _, pos => some pos

def applyUpdateWithEdit (old : Rope) (change : List Change) : Rope × Option AppliedEdit :=
  let rope := Change.apply change old
  (rope, (observe (Change.report change old) 0).map fun start =>
    { editStart := utf16CuToChar old (min start (lenUtf16Cu old)), charDelta := rope.length - old.length })

def adjustCursor (edit : Option AppliedEdit) (newLen cursor : ℕ) : ℕ :=
  match edit with
  | none => min cursor newLen
  | some e =>
    let shifted := if cursor ≤ e.editStart then cursor else max (cursor + e.charDelta).toNat e.editStart
    min shifted (newLen - 1)

/-- `doc` is the shared text, where sharing is on; the update may not decode. -/
def applySyncUpdateWithCursors (doc : Option Rope) (update : Except String (List Change)) (cursors : List ℕ) :
    Except String (Rope × List ℕ) :=
  match doc with
  | none => .error "sync not enabled on this buffer"
  | some old => update.map fun change =>
    let applied := applyUpdateWithEdit old change
    (applied.1, cursors.map (adjustCursor applied.2 applied.1.length))

namespace Change

def track : List Change → ℕ → ℕ
  | [], c => c
  | retain n :: cs, c => if c < n then c else n + track cs (c - n)
  | insert text :: cs, c => text.length + track cs c
  | delete n :: cs, c => if c < n then 0 else track cs (c - n)

def survives : List Change → ℕ → Bool
  | [], _ => true
  | retain n :: cs, c => if c < n then true else survives cs (c - n)
  | insert _ :: cs, c => survives cs c
  | delete n :: cs, c => if c < n then false else survives cs (c - n)

def firstEdit : List Change → Option ℕ
  | [] => none
  | retain n :: cs => (firstEdit cs).map (n + ·)
  | insert _ :: _ => some 0
  | delete _ :: _ => some 0

def growth : List Change → ℤ
  | [] => 0
  | retain _ :: cs => growth cs
  | insert text :: cs => text.length + growth cs
  | delete n :: cs => growth cs - n

def growthBehind : List Change → ℕ → ℤ
  | [], _ => 0
  | retain n :: cs, c => if c < n then growth cs else growthBehind cs (c - n)
  | insert _ :: cs, c => growthBehind cs c
  | delete n :: cs, c => if c < n then growth cs - (n - c) else growthBehind cs (c - n)

variable {cs : List Change} {r : Rope} {c e len : ℕ}

lemma length_apply (h : Fits cs r.length) : ((apply cs r).length) = r.length + growth cs := by
  induction cs generalizing r with
  | nil => simp [apply, growth]
  | cons step cs ih =>
    cases step with
    | retain n =>
      have hrest := ih (r := r.drop n) (by simpa using h.2)
      simp only [apply, growth, length_append, length_take, length_drop] at *
      omega
    | insert text =>
      have hrest := ih h
      simp only [apply, growth, length_append] at *
      omega
    | delete n =>
      have hrest := ih (r := r.drop n) (by simpa using h.2)
      have := h.1
      simp only [apply, growth, length_drop] at *
      omega

lemma track_add_growthBehind (cs : List Change) (c : ℕ) : (track cs c) + growthBehind cs c = c + growth cs := by
  induction cs generalizing c with
  | nil => simp [track, growthBehind, growth]
  | cons step cs ih =>
    cases step with
    | retain n =>
      have := ih (c - n)
      rw [track, growthBehind, growth]
      split_ifs <;> omega
    | insert text =>
      have := ih c
      rw [track, growthBehind, growth]
      omega
    | delete n =>
      have := ih (c - n)
      rw [track, growthBehind, growth]
      split_ifs <;> omega

lemma growthBehind_end (h : Fits cs len) : growthBehind cs len = 0 := by
  induction cs generalizing len with
  | nil => rfl
  | cons step cs ih =>
    cases step with
    | retain n => rw [growthBehind, if_neg h.1.not_gt, ih h.2]
    | insert text => exact ih h
    | delete n => rw [growthBehind, if_neg h.1.not_gt, ih h.2]

lemma track_of_firstEdit_none (h : firstEdit cs = none) : track cs c = c ∧ growth cs = 0 := by
  induction cs generalizing c with
  | nil => exact ⟨rfl, rfl⟩
  | cons step cs ih =>
    cases step with
    | retain n =>
      obtain ⟨htrack, hgrowth⟩ := ih (c := c - n) (map_eq_none_iff.mp h)
      rw [track]
      refine ⟨?_, hgrowth⟩
      split <;> omega
    | insert text => cases h
    | delete n => cases h

lemma track_of_firstEdit (h : firstEdit cs = some e) : (c < e → track cs c = c) ∧ (e ≤ c → e ≤ track cs c) := by
  induction cs generalizing c e with
  | nil => cases h
  | cons step cs ih =>
    cases step with
    | retain n =>
      obtain ⟨e', he', rfl⟩ := map_eq_some_iff.mp h
      have := ih (c := c - n) he'
      rw [track]
      split <;> omega
    | insert text =>
      cases h
      omega
    | delete n =>
      cases h
      omega

lemma track_end (h : Fits cs r.length) : track cs r.length = (apply cs r).length := by
  have hlen := length_apply h
  have htrack := track_add_growthBehind cs r.length
  rw [growthBehind_end h] at htrack
  omega

lemma getElem?_track (h : Fits cs r.length) (hc : survives cs c = true) : (apply cs r)[track cs c]? = r[c]? := by
  induction cs generalizing r c with
  | nil => rfl
  | cons step cs ih =>
    cases step with
    | retain n =>
      have hlen : (r.take n).length = n := length_take_of_le h.1
      rw [survives] at hc
      rw [apply, track]
      split at hc
      · rename_i hlt
        rw [if_pos hlt, getElem?_append_left (hlen.symm ▸ hlt), getElem?_take_of_lt hlt]
      · rename_i hge
        rw [if_neg hge, getElem?_append_right (by omega), hlen, Nat.add_sub_cancel_left,
          ih (by simpa using h.2) hc, getElem?_drop, Nat.add_sub_of_le (not_lt.mp hge)]
    | insert text =>
      rw [apply, track, getElem?_append_right (Nat.le_add_right _ _), Nat.add_sub_cancel_left]
      exact ih h hc
    | delete n =>
      rw [survives] at hc
      split at hc
      · cases hc
      · rename_i hge
        rw [apply, track, if_neg hge, ih (by simpa using h.2) hc, getElem?_drop, Nat.add_sub_of_le (not_lt.mp hge)]

lemma firstEdit_le (h : Fits cs len) (he : firstEdit cs = some e) : e ≤ len := by
  induction cs generalizing len e with
  | nil => cases he
  | cons step cs ih =>
    cases step with
    | retain n =>
      obtain ⟨e', he', rfl⟩ := map_eq_some_iff.mp he
      have := ih h.2 he'
      have := h.1
      omega
    | insert text => exact some.inj he ▸ Nat.zero_le len
    | delete n => exact some.inj he ▸ Nat.zero_le len

lemma observe_report (pos : ℕ) :
    observe (report cs r) pos = (firstEdit cs).map fun e => pos + lenUtf16Cu (r.take e) := by
  induction cs generalizing r pos with
  | nil => rfl
  | cons step cs ih =>
    cases step with
    | retain n =>
      rw [report, observe, ih, firstEdit, Option.map_map]
      congr 1
      funext e
      simp only [Function.comp_apply, lenUtf16Cu, take_add, map_append, sum_append]
      omega
    | insert text => simp [report, observe, firstEdit, lenUtf16Cu]
    | delete n => simp [report, observe, firstEdit, lenUtf16Cu]

end Change

lemma utf16CuToChar_take {r : Rope} {e : ℕ} (h : e ≤ r.length) : utf16CuToChar r (lenUtf16Cu (r.take e)) = e := by
  induction r generalizing e with
  | nil => exact (Nat.le_zero.mp h).symm
  | cons c r ih =>
    cases e with
    | zero =>
      have hpos : 0 < utf16Size c := by
        rw [utf16Size]
        split <;> omega
      simp [utf16CuToChar, lenUtf16Cu, hpos]
    | succ e =>
      have hsum : lenUtf16Cu ((c :: r).take (e + 1)) = utf16Size c + lenUtf16Cu (r.take e) := by simp [lenUtf16Cu]
      rw [hsum, utf16CuToChar, if_neg (by omega), Nat.add_sub_cancel_left, ih (Nat.le_of_succ_le_succ h)]

open Change

lemma applyUpdateWithEdit_eq {r : Rope} {cs : List Change} (h : Fits cs r.length) :
    applyUpdateWithEdit r cs = (apply cs r, (firstEdit cs).map fun e => ⟨e, growth cs⟩) := by
  have hlen := length_apply h
  rw [applyUpdateWithEdit, observe_report]
  cases he : firstEdit cs with
  | none => rfl
  | some e =>
    have hle : lenUtf16Cu (r.take e) ≤ lenUtf16Cu r :=
      ((take_sublist e r).map utf16Size).sum_le_sum fun _ _ => Nat.zero_le _
    simp only [map_some, Function.comp_apply, zero_add, min_eq_left hle, utf16CuToChar_take (firstEdit_le h he)]
    rw [hlen, add_sub_cancel_left]

def Kept (cs : List Change) (newLen c : ℕ) : Prop :=
  ∀ e, firstEdit cs = some e → c < e ∨ (track cs c < newLen ∨ newLen = 0) ∧
    (c = e ∧ track cs c = e ∨ e < c ∧ (growthBehind cs c = 0 ∨ growthBehind cs c < 0 ∧ track cs c = e))

lemma adjustCursor_eq_iff {r : Rope} {cs : List Change} {c : ℕ} (h : Fits cs r.length) (hc : c ≤ r.length) :
    adjustCursor (applyUpdateWithEdit r cs).2 (apply cs r).length c = track cs c ↔ Kept cs (apply cs r).length c := by
  have hlen := length_apply h
  rw [applyUpdateWithEdit_eq h]
  cases he : firstEdit cs with
  | none =>
    obtain ⟨htrack, hgrowth⟩ := track_of_firstEdit_none (c := c) he
    have hkept : Kept cs (apply cs r).length c := fun e he' => absurd (he.symm.trans he') (by simp)
    refine iff_of_true ?_ hkept
    simp only [map_none, adjustCursor]
    omega
  | some e =>
    have htrack := track_add_growthBehind cs c
    obtain ⟨hbefore, hbehind⟩ := track_of_firstEdit (c := c) he
    have hedit : e ≤ (apply cs r).length := track_end h ▸ (track_of_firstEdit he).2 (firstEdit_le h he)
    have hend : c = r.length → growthBehind cs c = 0 := fun hc => hc ▸ growthBehind_end h
    simp only [map_some, adjustCursor, Kept, he, Option.some.injEq, forall_eq']
    split <;> omega

theorem applySyncUpdateWithCursors_iff (old : Rope) (cs : List Change) (cursors : List ℕ) (h : Fits cs old.length)
    (hcursors : ∀ c ∈ cursors, c ≤ old.length) :
    (∀ c, survives cs c = true → (apply cs old)[track cs c]? = old[c]?) ∧
      track cs old.length = (apply cs old).length ∧
      (applySyncUpdateWithCursors (some old) (.ok cs) cursors = .ok (apply cs old, cursors.map (track cs)) ↔
        ∀ c ∈ cursors, Kept cs (apply cs old).length c) := by
  refine ⟨fun c hc => getElem?_track h hc, track_end h, ?_⟩
  have hok : applySyncUpdateWithCursors (some old) (.ok cs) cursors =
      .ok (apply cs old, cursors.map (adjustCursor (applyUpdateWithEdit old cs).2 (apply cs old).length)) := rfl
  rw [hok, Except.ok.injEq, Prod.mk.injEq, and_iff_right rfl, map_inj_left]
  exact forall₂_congr fun c hc => adjustCursor_eq_iff h (hcursors c hc)

theorem applySyncUpdateWithCursors_of_one_hunk :
    applySyncUpdateWithCursors (some ['a', 'b', 'c']) (.ok [.retain 1, .insert ['x']]) [0, 2] =
      .ok (['a', 'x', 'b', 'c'], [0, 3]) :=
  (applySyncUpdateWithCursors_iff ['a', 'b', 'c'] [.retain 1, .insert ['x']] [0, 2] ⟨by decide, trivial⟩
    (by decide)).2.2.mpr (by simp [Kept, firstEdit, track, growthBehind, apply])

theorem cursors_lose_their_text :
    applySyncUpdateWithCursors (some ['a', 'b', 'c', 'd']) (.ok [.insert ['x'], .retain 3, .delete 1]) [2] =
        .ok (['x', 'a', 'b', 'c'], [2]) ∧ track [.insert ['x'], .retain 3, .delete 1] 2 = 3 ∧
      applySyncUpdateWithCursors (some ['a', 'b']) (.ok [.retain 1, .insert ['x']]) [1] = .ok (['a', 'x', 'b'], [1]) ∧
      track [.retain 1, .insert ['x']] 1 = 2 ∧
      applySyncUpdateWithCursors (some ['a', 'b']) (.ok [.insert ['x']]) [2] = .ok (['x', 'a', 'b'], [2]) ∧
      track [.insert ['x']] 2 = 3 := by
  decide

end Mae.Editor
