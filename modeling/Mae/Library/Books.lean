import Mathlib

/-! Holders with the things that each one holds, and how many of them hold a thing. -/

namespace Mae.Library

open List

abbrev Books (ι κ : Type) := List (ι × List κ)

namespace Books

variable {ι κ : Type} [DecidableEq ι] [DecidableEq κ]

def holders (bs : Books ι κ) (k : κ) : ℕ := bs.countP fun b => k ∈ b.2

def Holds (bs : Books ι κ) (i : ι) (k : κ) : Prop := ∃ ks, (i, ks) ∈ bs ∧ k ∈ ks

def revise (i : ι) (f : List κ → List κ) (bs : Books ι κ) : Books ι κ :=
  bs.map fun b => if b.1 = i then (b.1, f b.2) else b

def close (i : ι) (bs : Books ι κ) : Books ι κ := bs.filter fun b => b.1 ≠ i

structure Kept (bs : Books ι κ) : Prop where
  ids : (bs.map Prod.fst).Nodup
  entries : ∀ b ∈ bs, b.2.Nodup

variable {bs : Books ι κ} {i : ι} {k : κ} {ks : List κ} {f : List κ → List κ}

omit [DecidableEq ι] in
lemma holders_pos : 0 < bs.holders k ↔ ∃ i, bs.Holds i k := by
  rw [holders, countP_pos_iff]
  constructor
  · rintro ⟨⟨i, ks⟩, hmem, hk⟩
    exact ⟨i, ks, hmem, of_decide_eq_true hk⟩
  · rintro ⟨i, ks, hmem, hk⟩
    exact ⟨(i, ks), hmem, decide_eq_true hk⟩

omit [DecidableEq κ] in
lemma revise_eq_self (h : ∀ ks, (i, ks) ∈ bs → f ks = ks) : bs.revise i f = bs := by
  refine (map_congr_left fun b hb => ?_).trans (map_id bs)
  obtain ⟨j, ks⟩ := b
  split
  · next heq =>
    obtain rfl : j = i := heq
    rw [h ks hb]
    rfl
  · rfl

namespace Kept

omit [DecidableEq ι] [DecidableEq κ] in
lemma eq_of_mem (h : bs.Kept) {ks' : List κ} (hks : (i, ks) ∈ bs) (hks' : (i, ks') ∈ bs) : ks = ks' := by
  have hsame : ((i, ks)) = (i, ks') := inj_on_of_nodup_map h.ids hks hks' rfl
  exact (Prod.mk.inj hsame).2

omit [DecidableEq ι] [DecidableEq κ] in
lemma holds_iff (h : bs.Kept) (hks : (i, ks) ∈ bs) : bs.Holds i k ↔ k ∈ ks := by
  constructor
  · rintro ⟨ks', hmem, hk⟩
    rwa [h.eq_of_mem hks hmem]
  · exact fun hk => ⟨ks, hks, hk⟩

lemma split (h : bs.Kept) (hks : (i, ks) ∈ bs) : ∃ rest, bs.Perm ((i, ks) :: rest) ∧ ∀ b ∈ rest, b.1 ≠ i := by
  refine ⟨bs.erase (i, ks), perm_cons_erase hks, fun b hb heq => ?_⟩
  have hids : (((i, ks) :: bs.erase (i, ks)).map Prod.fst).Nodup :=
    ((perm_cons_erase hks).map Prod.fst).nodup_iff.mp h.ids
  rw [map_cons, nodup_cons] at hids
  exact hids.1 (mem_map.mpr ⟨b, hb, heq⟩)

omit [DecidableEq κ] in
lemma revise (h : bs.Kept) (i : ι) (hf : ∀ ks : List κ, ks.Nodup → (f ks).Nodup) : (Books.revise i f bs).Kept where
  ids := by
    have hsame : (Books.revise i f bs).map Prod.fst = bs.map Prod.fst := by
      rw [Books.revise, map_map]
      refine map_congr_left fun b _ => ?_
      simp only [Function.comp_apply]
      split <;> rfl
    exact hsame ▸ h.ids
  entries b hb := by
    obtain ⟨b', hmem, rfl⟩ := mem_map.mp hb
    split
    · exact hf _ (h.entries b' hmem)
    · exact h.entries b' hmem

omit [DecidableEq κ] in
lemma close (h : bs.Kept) (i : ι) : (Books.close i bs).Kept where
  ids := h.ids.sublist (filter_sublist.map Prod.fst)
  entries b hb := h.entries b (mem_filter.mp hb).1

omit [DecidableEq ι] [DecidableEq κ] in
lemma opened (h : bs.Kept) (hi : i ∉ bs.map Prod.fst) : (bs ++ [(i, ([]))]).Kept where
  ids := by
    rw [map_append]
    exact h.ids.append (nodup_singleton i) (by simpa using hi)
  entries b hb := by
    rcases mem_append.mp hb with hb | hb
    · exact h.entries b hb
    · rw [mem_singleton.mp hb]
      exact nodup_nil

variable (h : bs.Kept) (hks : (i, ks) ∈ bs)
include h hks

lemma holders_revise (f : List κ → List κ) (k : κ) :
    (Books.revise i f bs).holders k + (if k ∈ ks then 1 else 0) = bs.holders k + if k ∈ f ks then 1 else 0 := by
  obtain ⟨rest, hperm, hrest⟩ := h.split hks
  have hsame : Books.revise i f rest = rest := revise_eq_self fun _ hb => absurd rfl (hrest _ hb)
  have hrevised : (Books.revise i f bs).Perm ((i, f ks) :: rest) := by
    have hcons : Books.revise i f ((i, ks) :: rest) = (i, f ks) :: Books.revise i f rest := by simp [Books.revise]
    rw [← hsame, ← hcons]
    exact hperm.map _
  rw [holders, hrevised.countP_eq, holders, hperm.countP_eq, countP_cons, countP_cons]
  simp only [decide_eq_true_eq]
  omega

lemma holders_close (k : κ) : (Books.close i bs).holders k + (if k ∈ ks then 1 else 0) = bs.holders k := by
  obtain ⟨rest, hperm, hrest⟩ := h.split hks
  have hclosed : (Books.close i bs).Perm rest := by
    have hcons : Books.close i ((i, ks) :: rest) = rest := by
      rw [Books.close, filter_cons_of_neg (by simp)]
      exact filter_eq_self.mpr fun b hb => decide_eq_true (hrest b hb)
    exact hcons ▸ hperm.filter _
  rw [holders, hclosed.countP_eq, holders, hperm.countP_eq, countP_cons]
  simp only [decide_eq_true_eq]

lemma holders_insert (hfree : ¬ bs.Holds i k) (k' : κ) :
    (Books.revise i (List.insert k) bs).holders k' = if k' = k then bs.holders k + 1 else bs.holders k' := by
  have hcount := h.holders_revise hks (List.insert k) k'
  rw [h.holds_iff hks] at hfree
  by_cases hk : k' = k
  · subst hk
    simp only [hfree, mem_insert_iff, or_false, if_true, if_false] at hcount ⊢
    omega
  · simp only [hk, mem_insert_iff, false_or, if_false] at hcount ⊢
    omega

lemma holders_insert_of_alone (halone : ∀ j, bs.Holds j k → j = i) :
    (Books.revise i (List.insert k) bs).holders k = 1 := by
  obtain ⟨rest, hperm, hrest⟩ := h.split hks
  have hcount := h.holders_revise hks (List.insert k) k
  have hnone : rest.countP (fun b => k ∈ b.2) = 0 := by
    rw [countP_eq_zero]
    intro b hb hk
    exact hrest b hb (halone b.1 ⟨b.2, hperm.mem_iff.mpr (mem_cons_of_mem _ hb), of_decide_eq_true hk⟩)
  have hbefore : bs.holders k = if k ∈ ks then 1 else 0 := by
    rw [holders, hperm.countP_eq, countP_cons, hnone]
    simp only [decide_eq_true_eq, Nat.zero_add]
  simp only [mem_insert_iff, true_or, if_true] at hcount
  omega

end Kept

lemma revise_insert_of_holds (h : bs.Kept) (hk : bs.Holds i k) : bs.revise i (List.insert k) = bs := by
  obtain ⟨ks, hks, hmem⟩ := hk
  refine revise_eq_self fun ks' hks' => ?_
  rw [h.eq_of_mem hks' hks, insert_of_mem hmem]

lemma revise_remove_of_not_holds (hk : ¬ bs.Holds i k) : bs.revise i (fun ks => ks.filter (· ≠ k)) = bs := by
  refine revise_eq_self fun ks hks => filter_eq_self.mpr fun k' hk' => decide_eq_true ?_
  rintro rfl
  exact hk ⟨ks, hks, hk'⟩

lemma holds_of_revise_insert {k' : κ} {j : ι} (h : (bs.revise i (List.insert k)).Holds j k') (hk : k' ≠ k) :
    bs.Holds j k' := by
  obtain ⟨ks, hks, hmem⟩ := h
  obtain ⟨⟨j', ks'⟩, hb, heq⟩ := mem_map.mp hks
  split at heq
  · cases heq
    exact ⟨ks', hb, (mem_insert_iff.mp hmem).resolve_left hk⟩
  · cases heq
    exact ⟨_, hb, hmem⟩

end Books

end Mae.Library
