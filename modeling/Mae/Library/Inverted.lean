import Mathlib.Data.List.Basic
import Mathlib.Logic.Function.Basic
import Std.Data.ExtTreeMap

/-! Inverted indexes: under each key, the items that have it, each once. -/

namespace Mae.Library

open Std.ExtTreeMap

open Std (ExtTreeMap TransCmp LawfulEqCmp)

abbrev Inverted (κ ι : Type*) [Ord κ] : Type _ := ExtTreeMap κ (List ι)

namespace Inverted

variable {κ ι : Type*} [Ord κ] [Std.TransOrd κ] [Std.LawfulEqOrd κ] [DecidableEq κ] [DecidableEq ι]

def entries (m : Inverted κ ι) (k : κ) : List ι := m[k]?.getD []

def push (i : ι) (m : Inverted κ ι) (k : κ) : Inverted κ ι :=
  let e := m.entries k
  m.insert k (if i ∈ e then e else e ++ [i])

def discard (i : ι) (m : Inverted κ ι) (k : κ) : Inverted κ ι :=
  match m[k]? with
  | some e => m.insert k (e.filter fun j => j ≠ i)
  | none => m

def prune (i : ι) (m : Inverted κ ι) (k : κ) : Inverted κ ι :=
  match m[k]? with
  | some e =>
    let rest := e.filter fun j => j ≠ i
    if rest = [] then m.erase k else m.insert k rest
  | none => m

def purge (i : ι) (m : Inverted κ ι) : Inverted κ ι :=
  (m.map fun _ e => e.filter fun j => j ≠ i).filter fun _ e => e ≠ []

omit [DecidableEq ι] in
lemma entries_insert (m : Inverted κ ι) (k k' : κ) (e : List ι) :
    entries (m.insert k e) k' = if k' = k then e else m.entries k' := by
  simp only [entries, getElem?_insert, Std.LawfulEqOrd.compare_eq_iff_eq, eq_comm (a := k)]
  split <;> rfl

variable {m : Inverted κ ι}

lemma mem_push {i j : ι} {k k' : κ} : j ∈ (m.push i k).entries k' ↔ (j = i ∧ k' = k) ∨ j ∈ m.entries k' := by
  rw [push, entries_insert]
  by_cases hk : k' = k
  · subst hk
    by_cases hi : i ∈ m.entries k'
    · simp only [if_pos hi, and_true]
      exact ⟨Or.inr, fun h => h.elim (fun hj => hj ▸ hi) id⟩
    · simp [hi, or_comm]
  · simp [hk]

lemma nodup_push {i : ι} {k k' : κ} (h : ∀ k, (m.entries k).Nodup) : ((m.push i k).entries k').Nodup := by
  rw [push, entries_insert]
  split
  · split
    · exact h k
    · refine List.nodup_append.mpr ⟨h k, by simp, ?_⟩
      rintro a ha b hb rfl
      exact absurd (List.mem_singleton.mp hb ▸ ha) ‹_›
  · exact h k'

def Removes (i : ι) (f : Inverted κ ι → κ → Inverted κ ι) : Prop :=
  ∀ m k k', (f m k).entries k' = if k' = k then (m.entries k).filter (fun j => j ≠ i) else m.entries k'

omit [Std.LawfulEqOrd κ] in
lemma entries_of_none {m : Inverted κ ι} (i : ι) {k : κ} (hk : m[k]? = none) (k' : κ) :
    m.entries k' = if k' = k then (m.entries k).filter (fun j => j ≠ i) else m.entries k' := by
  by_cases h : k' = k
  · subst h
    simp [entries, hk]
  · rw [if_neg h]

lemma removes_discard (i : ι) : Removes (κ := κ) i (discard i) := by
  intro m k k'
  cases hk : m[k]? with
  | none =>
    simp only [discard, hk]
    exact entries_of_none i hk k'
  | some e =>
    simp only [discard, hk]
    rw [entries_insert, show m.entries k = e by simp [entries, hk]]

lemma removes_prune (i : ι) : Removes (κ := κ) i (prune i) := by
  intro m k k'
  cases hk : m[k]? with
  | none =>
    simp only [prune, hk]
    exact entries_of_none i hk k'
  | some e =>
    simp only [prune, hk]
    rw [show m.entries k = e by simp [entries, hk]]
    by_cases hrest : (e.filter fun j => j ≠ i) = []
    · simp only [hrest, if_pos, entries, getElem?_erase, Std.LawfulEqOrd.compare_eq_iff_eq, eq_comm (a := k)]
      split <;> rfl
    · simp only [if_neg hrest]
      exact entries_insert m k k' _

omit [Std.LawfulEqOrd κ] in
lemma Removes.foldl {i : ι} {f : Inverted κ ι → κ → Inverted κ ι} (hf : Removes i f) (ks : List κ)
    (m : Inverted κ ι) (k : κ) :
    (ks.foldl f m).entries k = if k ∈ ks then (m.entries k).filter (fun j => j ≠ i) else m.entries k := by
  induction ks generalizing m with
  | nil => rfl
  | cons k' ks ih =>
    rw [List.foldl_cons, ih, hf]
    by_cases hk : k = k'
    · subst hk
      by_cases hks : k ∈ ks <;> simp [hks]
    · simp [hk]

lemma mem_foldl_push {i j : ι} (ks : List κ) (m : Inverted κ ι) (k : κ) :
    j ∈ (ks.foldl (push i) m).entries k ↔ (j = i ∧ k ∈ ks) ∨ j ∈ m.entries k := by
  induction ks generalizing m with
  | nil => simp
  | cons k' ks ih =>
    rw [List.foldl_cons, ih, mem_push, List.mem_cons, and_or_left, ← or_assoc, or_comm (a := j = i ∧ k ∈ ks)]

lemma nodup_foldl_push {i : ι} (ks : List κ) (h : ∀ k, (m.entries k).Nodup) (k : κ) :
    ((ks.foldl (push i) m).entries k).Nodup := by
  induction ks generalizing m with
  | nil => exact h k
  | cons k' ks ih => exact ih fun _ => nodup_push h

omit [DecidableEq κ] in
lemma entries_purge (m : Inverted κ ι) (i : ι) (k : κ) :
    (m.purge i).entries k = (m.entries k).filter fun j => j ≠ i := by
  simp only [purge, entries, getElem?_filter, getElem?_map]
  cases m[k]? with
  | none => rfl
  | some e =>
    simp only [Option.map_some, Option.getD_some, Option.pfilter_some]
    split
    · rfl
    · rename_i he
      have hnil : (e.filter fun j => j ≠ i) = [] := by simpa using he
      exact hnil.symm

structure Describes (m : Inverted κ ι) (keys : ι → List κ) : Prop where
  mem : ∀ i k, i ∈ m.entries k ↔ k ∈ keys i
  nodup : ∀ k, (m.entries k).Nodup

namespace Describes

variable {m : Inverted κ ι} {keys : ι → List κ}

omit [Std.LawfulEqOrd κ] [DecidableEq κ] [DecidableEq ι] in
lemma empty : Describes (∅ : Inverted κ ι) fun _ => [] where
  mem i k := by simp [entries]
  nodup k := by simp [entries]

omit [Std.LawfulEqOrd κ] [DecidableEq κ] [DecidableEq ι] in
lemma congr {keys' : ι → List κ} (h : Describes m keys) (heq : ∀ i k, k ∈ keys i ↔ k ∈ keys' i) :
    Describes m keys' where
  mem i k := (h.mem i k).trans (heq i k)
  nodup := h.nodup

omit [Std.LawfulEqOrd κ] in
lemma remove {i : ι} {f : Inverted κ ι → κ → Inverted κ ι} (hf : Removes i f) (h : Describes m keys) :
    Describes ((keys i).foldl f m) (Function.update keys i []) where
  mem j k := by
    rw [hf.foldl]
    by_cases hj : j = i
    · subst hj
      by_cases hk : k ∈ keys j <;> simp [hk, h.mem]
    · by_cases hk : k ∈ keys i <;> simp [hk, hj, h.mem]
  nodup k := by
    rw [hf.foldl]
    split
    · exact (h.nodup k).filter _
    · exact h.nodup k

omit [DecidableEq κ] in
lemma purge (i : ι) (h : Describes m keys) : Describes (m.purge i) (Function.update keys i []) where
  mem j k := by
    rw [entries_purge]
    by_cases hj : j = i
    · subst hj
      simp
    · simp [hj, h.mem]
  nodup k := by
    rw [entries_purge]
    exact (h.nodup k).filter _

lemma push (i : ι) (ks : List κ) (h : Describes m (Function.update keys i [])) :
    Describes (ks.foldl (Inverted.push i) m) (Function.update keys i ks) where
  mem j k := by
    rw [mem_foldl_push, h.mem]
    by_cases hj : j = i
    · subst hj
      simp
    · simp [hj]
  nodup := nodup_foldl_push ks h.nodup

end Describes

end Inverted

end Mae.Library
