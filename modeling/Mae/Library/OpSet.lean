import Mathlib

/-! Replicated documents as sets of operations: the items that each client inserts under consecutive clocks, and
deletions of items. -/

namespace Mae.Library.OpSet

open Finset

inductive Op (α : Type*) where
  | insert (client clock : ℕ) (item : α)
  | delete (client clock : ℕ)
deriving DecidableEq

structure StateVector where
  clients : Finset ℕ
  clock : ℕ → ℕ

namespace StateVector

def get (v : StateVector) (c : ℕ) : ℕ := if c ∈ v.clients then v.clock c else 0

def hasOpsBeyond (v base : StateVector) : Bool := decide (∃ c ∈ v.clients, base.get c < v.get c)

def sameAs (v w : StateVector) : Bool := decide (v.clients = w.clients ∧ ∀ c ∈ v.clients, v.clock c = w.clock c)

def clientsDisjoint (v w : StateVector) : Bool := decide (∀ c ∈ v.clients, c ∉ w.clients)

end StateVector

variable {α : Type*}

def Op.authors : Op α → Finset ℕ
  | .insert c _ _ => {c}
  | .delete _ _ => ∅

def Op.countFor (c : ℕ) : Op α → ℕ
  | .insert c' k _ => if c' = c then k + 1 else 0
  | .delete _ _ => 0

def Op.after (v : StateVector) : Op α → Bool
  | .insert c k _ => decide (v.get c ≤ k)
  | .delete _ _ => true

open Op

def stateVector (d : Finset (Op α)) : StateVector where
  clients := d.biUnion authors
  clock c := d.sup (countFor c)

def diff (d : Finset (Op α)) (v : StateVector) : Finset (Op α) := d.filter fun op => op.after v = true

lemma diff_subset (d : Finset (Op α)) (v : StateVector) : diff d v ⊆ d := filter_subset _ _

variable {d e : Finset (Op α)} {c k : ℕ} {a : α}

lemma delete_mem_diff {v : StateVector} : delete c k ∈ diff d v ↔ delete c k ∈ d :=
  mem_filter.trans (and_iff_left rfl)

lemma insert_mem_diff {v : StateVector} : insert c k a ∈ diff d v ↔ insert c k a ∈ d ∧ v.get c ≤ k :=
  mem_filter.trans (and_congr_right fun _ => decide_eq_true_iff)

lemma mem_clients (h : insert c k a ∈ d) : c ∈ (stateVector d).clients :=
  mem_biUnion.mpr ⟨_, h, mem_singleton_self c⟩

lemma lt_get_of_mem (h : insert c k a ∈ d) : k < (stateVector d).get c := by
  have hle : countFor c (insert c k a) ≤ d.sup (countFor c) := le_sup h
  have hcount : countFor c (insert c k a) = k + 1 := if_pos rfl
  have hget : (stateVector d).get c = d.sup (countFor c) := if_pos (mem_clients h)
  omega

lemma exists_of_lt_get (h : k < (stateVector d).get c) : ∃ j a, k ≤ j ∧ Op.insert c j a ∈ d := by
  have hlt : k < d.sup (countFor c) := by
    unfold StateVector.get at h
    split at h
    · exact h
    · exact absurd h (Nat.not_lt_zero k)
  obtain ⟨op, hop, hk⟩ := Finset.lt_sup_iff.mp hlt
  cases op with
  | delete c' k' => simp [countFor] at hk
  | insert c' j a =>
    simp only [countFor] at hk
    split at hk
    · subst c'
      exact ⟨j, a, Nat.lt_succ_iff.mp hk, hop⟩
    · exact absurd hk (Nat.not_lt_zero k)

def Contiguous (d : Finset (Op α)) : Prop := ∀ c k a, insert c k a ∈ d → ∀ j < k, ∃ b, insert c j b ∈ d

def Agree (d e : Finset (Op α)) : Prop := ∀ c k a b, insert c k a ∈ d → insert c k b ∈ e → a = b

lemma Agree.symm (h : Agree d e) : Agree e d := fun c k a b ha hb => (h c k b a hb ha).symm

variable [DecidableEq α]

lemma union_diff (hd : Contiguous d) (h : Agree d e) : d ∪ diff e (stateVector d) = d ∪ e := by
  apply Subset.antisymm
  · exact union_subset_union (Subset.refl d) (diff_subset e _)
  · intro op hop
    rcases mem_union.mp hop with hop | hop
    · exact mem_union_left _ hop
    · cases op with
      | delete c k => exact mem_union_right _ (delete_mem_diff.mpr hop)
      | insert c k a =>
        by_cases hk : (stateVector d).get c ≤ k
        · exact mem_union_right _ (insert_mem_diff.mpr ⟨hop, hk⟩)
        · obtain ⟨j, x, hj, hx⟩ := exists_of_lt_get (Nat.not_le.mp hk)
          obtain ⟨b, hb⟩ : ∃ b, Op.insert c k b ∈ d := by
            rcases hj.eq_or_lt with rfl | hlt
            · exact ⟨x, hx⟩
            · exact hd c j x hx k hlt
          rw [← h c k b a hb hop]
          exact mem_union_left _ hb

omit [DecidableEq α] in
lemma insert_mem_of_not_beyond {d e : Finset (Op α)} (he : Contiguous e) (h : Agree d e)
    (hnot : (stateVector d).hasOpsBeyond (stateVector e) = false) {c k : ℕ} {a : α} (hop : insert c k a ∈ d) :
    insert c k a ∈ e := by
  have hle : (stateVector d).get c ≤ (stateVector e).get c := by
    have hall := of_decide_eq_false hnot
    push Not at hall
    exact hall c (mem_clients hop)
  obtain ⟨j, x, hj, hx⟩ := exists_of_lt_get ((lt_get_of_mem hop).trans_le hle)
  obtain ⟨b, hb⟩ : ∃ b, insert c k b ∈ e := by
    rcases hj.eq_or_lt with rfl | hlt
    · exact ⟨x, hx⟩
    · exact he c j x hx k hlt
  rw [h c k a b hop hb]
  exact hb

lemma Agree.union_left {f : Finset (Op α)} (h : Agree d f) (h' : Agree e f) : Agree (d ∪ e) f := by
  intro c k a b ha hb
  rcases mem_union.mp ha with ha | ha
  · exact h c k a b ha hb
  · exact h' c k a b ha hb

inductive Grows (mine : Set ℕ) (base : Finset (Op α)) : Finset (Op α) → Prop where
  | refl : Grows mine base base
  | insert {d : Finset (Op α)} (c : ℕ) (a : α) (hc : c ∈ mine) (h : Grows mine base d) :
      Grows mine base (d ∪ {.insert c ((stateVector d).get c) a})
  | delete {d : Finset (Op α)} (c k : ℕ) (a : α) (hop : Op.insert c k a ∈ d) (h : Grows mine base d) :
      Grows mine base (d ∪ {.delete c k})

namespace Grows

variable {mine theirs : Set ℕ} {base d e : Finset (Op α)}

lemma base_subset (h : Grows mine base d) : base ⊆ d := by
  induction h with
  | refl => exact Subset.refl _
  | insert _ _ _ _ ih => exact ih.trans subset_union_left
  | delete _ _ _ _ _ ih => exact ih.trans subset_union_left

lemma contiguous (hb : Contiguous base) (h : Grows mine base d) : Contiguous d := by
  induction h with
  | refl => exact hb
  | @insert d c a _ _ ih =>
    intro c' k b hop j hj
    rcases mem_union.mp hop with hop | hop
    · obtain ⟨x, hx⟩ := ih c' k b hop j hj
      exact ⟨x, mem_union_left _ hx⟩
    · obtain ⟨rfl, rfl, rfl⟩ := Op.insert.inj (mem_singleton.mp hop)
      obtain ⟨i, x, hi, hx⟩ := exists_of_lt_get hj
      rcases hi.eq_or_lt with rfl | hlt
      · exact ⟨x, mem_union_left _ hx⟩
      · obtain ⟨y, hy⟩ := ih c' i x hx j hlt
        exact ⟨y, mem_union_left _ hy⟩
  | @delete d c k a _ _ ih =>
    intro c' k' b hop j hj
    rcases mem_union.mp hop with hop | hop
    · obtain ⟨x, hx⟩ := ih c' k' b hop j hj
      exact ⟨x, mem_union_left _ hx⟩
    · cases mem_singleton.mp hop

lemma new_item (h : Grows mine base d) {c k : ℕ} {a : α} (hop : Op.insert c k a ∈ d) (hnew : Op.insert c k a ∉ base) :
    c ∈ mine ∧ ∀ b, Op.insert c k b ∉ base := by
  induction h with
  | refl => exact absurd hop hnew
  | @insert d c' a' hc hd ih =>
    rcases mem_union.mp hop with hop | hop
    · exact ih hop
    · obtain ⟨rfl, rfl, rfl⟩ := Op.insert.inj (mem_singleton.mp hop)
      exact ⟨hc, fun b hb => (lt_get_of_mem (hd.base_subset hb)).false⟩
  | @delete d c' k' a' _ _ ih =>
    rcases mem_union.mp hop with hop | hop
    · exact ih hop
    · cases mem_singleton.mp hop

lemma agree (hb : Agree base base) (hd : Grows mine base d) (he : Grows theirs base e)
    (hdisj : Disjoint mine theirs) : Agree d e := by
  intro c k a b ha hb'
  by_cases hab : Op.insert c k a ∈ base
  · by_cases hbb : Op.insert c k b ∈ base
    · exact hb c k a b hab hbb
    · exact absurd hab ((he.new_item hb' hbb).2 a)
  · obtain ⟨hmine, hnone⟩ := hd.new_item ha hab
    by_cases hbb : Op.insert c k b ∈ base
    · exact absurd hbb (hnone b)
    · exact absurd (he.new_item hb' hbb).1 (Set.disjoint_left.mp hdisj hmine)

lemma agree_self (hb : Agree base base) (h : Grows mine base d) : Agree d d := by
  induction h with
  | refl => exact hb
  | @insert d c a _ _ ih =>
    have hfresh : ∀ b, Op.insert c ((stateVector d).get c) b ∉ d := fun b hb => (lt_get_of_mem hb).false
    intro c' k x y hx hy
    rcases mem_union.mp hx with hxd | hx <;> rcases mem_union.mp hy with hyd | hy
    · exact ih c' k x y hxd hyd
    · obtain ⟨rfl, rfl, rfl⟩ := Op.insert.inj (mem_singleton.mp hy)
      exact absurd hxd (hfresh x)
    · obtain ⟨rfl, rfl, rfl⟩ := Op.insert.inj (mem_singleton.mp hx)
      exact absurd hyd (hfresh y)
    · obtain ⟨rfl, rfl, rfl⟩ := Op.insert.inj (mem_singleton.mp hx)
      exact (Op.insert.inj (mem_singleton.mp hy)).2.2.symm
  | @delete d c k a _ _ ih =>
    intro c' k' x y hx hy
    rcases mem_union.mp hx with hx | hx
    · rcases mem_union.mp hy with hy | hy
      · exact ih c' k' x y hx hy
      · cases mem_singleton.mp hy
    · cases mem_singleton.mp hx

end Grows

end Mae.Library.OpSet
