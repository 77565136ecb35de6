import Mathlib.Data.List.Basic

/-! Code with relative jumps whose positions carry labels: what holds of the machine when it is about to execute the
instruction there. -/

namespace Mae.Library

open List

structure Flow (Op A : Type) where
  next : Op → A → A → Prop
  offset : Op → Option Int
  jump : Op → A → A → Prop

namespace Flow

variable {Op A : Type} (F : Flow Op A)

def Labels : List Op → List A → List A → Prop
  | [], [], _ => True
  | op :: ops, a :: ls, k =>
    (∃ b, (ls ++ k).head? = some b ∧ F.next op a b) ∧
      (∀ off, F.offset op = some off → ∃ n : ℕ, off = n ∧ ∃ b, (ls ++ k)[n]? = some b ∧ F.jump op a b) ∧
      Labels ops ls k
  | _, _, _ => False

variable {F} {op op' : Op} {ops xs ys : List Op} {ls ls' k : List A} {a b c d e : A}

lemma Labels.length_eq (h : F.Labels ops ls k) : ls.length = ops.length := by
  fun_induction F.Labels ops ls k with
  | case1 => rfl
  | case2 op ops a ls _ ih => simpa using ih h.2.2
  | case3 => exact h.elim

lemma Labels.append (hx : F.Labels xs ls (ls' ++ k)) (hy : F.Labels ys ls' k) : F.Labels (xs ++ ys) (ls ++ ls') k := by
  induction xs generalizing ls with
  | nil => cases ls <;> simp_all [Labels]
  | cons op xs ih =>
    cases ls with
    | nil => simp [Labels] at hx
    | cons a ls =>
      obtain ⟨hn, hj, hx⟩ := hx
      simp only [cons_append, Labels, append_assoc]
      exact ⟨hn, hj, ih hx⟩

lemma Labels.extend (h : F.Labels ops ls k) (k' : List A) : F.Labels ops ls (k ++ k') := by
  fun_induction F.Labels ops ls k with
  | case1 => trivial
  | case2 op ops a ls k ih =>
    obtain ⟨⟨b, hb, hn⟩, hj, h⟩ := h
    rw [Labels, ← append_assoc]
    refine ⟨⟨b, ?_, hn⟩, fun off hoff => ?_, ih h⟩
    · rw [head?_append, hb, Option.some_or]
    · obtain ⟨n, hn, c, hc, hjc⟩ := hj off hoff
      exact ⟨n, hn, c, by rw [getElem?_append_left (List.getElem?_eq_some_iff.1 hc).1, hc], hjc⟩
  | case3 => exact h.elim

lemma Labels.map {g : Op → Op} (hn : ∀ op a b, F.next op a b → F.next (g op) a b)
    (ho : ∀ op, F.offset (g op) = F.offset op) (hj : ∀ op a b, F.jump op a b → F.jump (g op) a b)
    (h : F.Labels ops ls k) : F.Labels (ops.map g) ls k := by
  fun_induction F.Labels ops ls k with
  | case1 => trivial
  | case2 op ops a ls _ ih =>
    obtain ⟨⟨b, hb, hnext⟩, hjump, h⟩ := h
    refine ⟨⟨b, hb, hn op a b hnext⟩, fun off hoff => ?_, ih h⟩
    obtain ⟨n, hn, c, hc, hjc⟩ := hjump off (ho op ▸ hoff)
    exact ⟨n, hn, c, hc, hj op a c hjc⟩
  | case3 => exact h.elim

lemma Labels.at_index (h : F.Labels ops ls k) {i : ℕ} (hi : ops[i]? = some op) :
    ∃ a b, (ls ++ k)[i]? = some a ∧ (ls ++ k)[i + 1]? = some b ∧ F.next op a b ∧
      ∀ off, F.offset op = some off → ∃ n : ℕ, off = n ∧ ∃ c, (ls ++ k)[i + 1 + n]? = some c ∧ F.jump op a c := by
  fun_induction F.Labels ops ls k generalizing i with
  | case1 => simp at hi
  | case2 op' ops a ls k ih =>
    obtain ⟨⟨b, hb, hn⟩, hj, h⟩ := h
    cases i with
    | zero =>
      obtain rfl : op' = op := by simpa using hi
      refine ⟨a, b, rfl, ?_, hn, fun off hoff => ?_⟩
      · rw [cons_append, getElem?_cons_succ, ← head?_eq_getElem?, hb]
      · obtain ⟨n, hn, c, hc, hjc⟩ := hj off hoff
        exact ⟨n, hn, c, by rw [Nat.add_comm, cons_append, getElem?_cons_succ, hc], hjc⟩
    | succ i =>
      obtain ⟨a', b', ha', hb', hn', hj'⟩ := ih h (by simpa using hi)
      refine ⟨a', b', ha', hb', hn', fun off hoff => ?_⟩
      obtain ⟨n, hn, c, hc, hjc⟩ := hj' off hoff
      exact ⟨n, hn, c, by rw [Nat.add_right_comm, cons_append, getElem?_cons_succ, hc], hjc⟩
  | case3 => exact h.elim

variable (F) in
def Segment (a : A) (ops : List Op) (b : A) : Prop := ∃ ls, (ls ++ [b]).head? = some a ∧ F.Labels ops ls [b]

lemma Segment.nil (a : A) : F.Segment a [] a := ⟨[], rfl, trivial⟩

lemma Segment.map {g : Op → Op} (hn : ∀ op a b, F.next op a b → F.next (g op) a b)
    (ho : ∀ op, F.offset (g op) = F.offset op) (hj : ∀ op a b, F.jump op a b → F.jump (g op) a b)
    (h : F.Segment a ops b) : F.Segment a (ops.map g) b := by
  obtain ⟨ls, ha, h⟩ := h
  exact ⟨ls, ha, h.map hn ho hj⟩

lemma Segment.append (hx : F.Segment a xs b) (hy : F.Segment b ys c) : F.Segment a (xs ++ ys) c := by
  obtain ⟨ls, ha, hx⟩ := hx
  obtain ⟨ls', hb, hy⟩ := hy
  obtain ⟨k, hk⟩ : ∃ k, ls' ++ [c] = b :: k := head?_eq_some_iff.1 hb
  refine ⟨ls ++ ls', ?_, Labels.append ?_ hy⟩
  · rw [append_assoc, hk, ← singleton_append, ← append_assoc, head?_append, ha, Option.some_or]
  · rw [hk]
    exact hx.extend k

lemma Segment.cons (hn : F.next op a b) (ho : F.offset op = none) (hx : F.Segment b xs c) :
    F.Segment a (op :: xs) c := by
  obtain ⟨ls, hb, hx⟩ := hx
  exact ⟨a :: ls, rfl, ⟨b, hb, hn⟩, by simp [ho], hx⟩

lemma Segment.over (hn : F.next op a b) (ho : F.offset op = some (xs.length : Int)) (hj : F.jump op a c)
    (hx : F.Segment b xs c) : F.Segment a (op :: xs) c := by
  obtain ⟨ls, hb, hx⟩ := hx
  refine ⟨a :: ls, rfl, ⟨b, hb, hn⟩, fun off hoff => ?_, hx⟩
  obtain rfl : xs.length = off := by simpa [ho] using hoff
  exact ⟨xs.length, rfl, c, by simp [← hx.length_eq], hj⟩

lemma Segment.branch (hn : F.next op a b) (ho : F.offset op = some ((xs.length : Int) + 1)) (hj : F.jump op a d)
    (hx : F.Segment b xs c) (hn' : F.next op' c d) (ho' : F.offset op' = some (ys.length : Int)) (hj' : F.jump op' c e)
    (hy : F.Segment d ys e) : F.Segment a (op :: xs ++ op' :: ys) e := by
  obtain ⟨ls, hb, hx⟩ := hx
  obtain ⟨ls', hd, hy⟩ := hy
  have hlen := hx.length_eq
  have hlen' := hy.length_eq
  have hxs : F.Labels xs ls (c :: (ls' ++ [e])) := hx.extend _
  have hys : F.Labels (op' :: ys) (c :: ls') [e] := by
    refine ⟨⟨d, hd, hn'⟩, fun off hoff => ?_, hy⟩
    obtain rfl : ys.length = off := by simpa [ho'] using hoff
    exact ⟨ys.length, rfl, e, by simp [← hlen'], hj'⟩
  refine ⟨a :: (ls ++ c :: ls'), rfl, ⟨b, ?_, hn⟩, fun off hoff => ?_, hxs.append hys⟩
  · simpa [head?_append] using hb
  · obtain rfl : xs.length + 1 = off := by simpa [ho] using hoff
    refine ⟨xs.length + 1, by push_cast; rfl, d, ?_, hj⟩
    rw [append_assoc, getElem?_append_right (by omega), hlen, Nat.add_sub_cancel_left, cons_append,
      getElem?_cons_succ, ← head?_eq_getElem?, hd]

end Flow

end Mae.Library
