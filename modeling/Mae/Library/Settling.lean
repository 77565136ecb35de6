import Mathlib

/-! Repeated passes over the subsets of a finite set. -/

namespace Mae.Library.Settling

open Relation Finset Function

variable {α : Type*} [DecidableEq α]

def DependsOn (F : Finset α → Finset α) (s : Finset α) (h k : α) : Prop :=
  k ∈ s ∧ ∃ V ⊆ s, ¬ (h ∈ F (insert k V) ↔ h ∈ F (V.erase k))

def Acyclic (F : Finset α → Finset α) (s : Finset α) : Prop := ∀ h, ¬ TransGen (DependsOn F s) h h

lemma acyclic_of_rank {F : Finset α → Finset α} {s : Finset α} (rank : α → ℕ)
    (hr : ∀ h k, DependsOn F s h k → rank k < rank h) : Acyclic F s := by
  have hlt : ∀ h k, TransGen (DependsOn F s) h k → rank k < rank h := by
    intro h k hk
    induction hk with
    | single hd => exact hr _ _ hd
    | tail _ hd ih => exact (hr _ _ hd).trans ih
  intro h hh
  exact lt_irrefl _ (hlt h h hh)

section

variable {F : Finset α → Finset α} {s : Finset α} {h k : α} {V W : Finset α} {n : ℕ}

lemma mem_iff_of_erase (hV : V ⊆ s) (hk : k ∈ V) (hd : ¬ DependsOn F s h k) : h ∈ F V ↔ h ∈ F (V.erase k) := by
  by_contra hne
  refine hd ⟨hV hk, V, hV, ?_⟩
  rwa [insert_eq_of_mem hk]

lemma mem_iff_of_agree (hV : V ⊆ s) (hW : W ⊆ s) (ha : ∀ k, DependsOn F s h k → (k ∈ V ↔ k ∈ W)) :
    h ∈ F V ↔ h ∈ F W := by
  have hshrink : ∀ (D : Finset α) (X : Finset α), X ⊆ s → (∀ k ∈ D, ¬ DependsOn F s h k) →
      (h ∈ F X ↔ h ∈ F (X \ D)) := by
    intro D
    induction D using Finset.induction with
    | empty => simp
    | insert k D hk ih =>
      intro X hX hD
      have hrest := ih X hX fun j hj => hD j (mem_insert_of_mem hj)
      have hsub : X \ D ⊆ s := sdiff_subset.trans hX
      rw [hrest, sdiff_insert]
      by_cases hkX : k ∈ X \ D
      · exact mem_iff_of_erase hsub hkX (hD k (mem_insert_self k D))
      · rw [erase_eq_of_notMem hkX]
  have hVW := hshrink (V \ W) V hV fun k hk hd => by
    have := ha k hd
    simp_all
  have hWV := hshrink (W \ V) W hW fun k hk hd => by
    have := ha k hd
    simp_all
  rw [hVW, hWV, sdiff_sdiff_right_self, sdiff_sdiff_right_self, inf_comm]

open Classical in
noncomputable def below (F : Finset α → Finset α) (s : Finset α) (h : α) : Finset α :=
  s.filter fun k => TransGen (DependsOn F s) h k

lemma mem_of_transGen (hk : TransGen (DependsOn F s) h k) : k ∈ s := by
  cases hk with
  | single hd => exact hd.1
  | tail _ hd => exact hd.1

lemma mem_below : k ∈ below F s h ↔ TransGen (DependsOn F s) h k := by
  simp only [below, mem_filter, and_iff_right_iff_imp]
  exact mem_of_transGen

lemma below_subset (h : α) : below F s h ⊆ s := fun _ hk => mem_of_transGen (mem_below.mp hk)

lemma below_ssubset (hac : Acyclic F s) (hd : DependsOn F s h k) : below F s k ⊂ below F s h := by
  refine Finset.ssubset_iff_subset_ne.mpr ⟨fun j hj => ?_, fun heq => ?_⟩
  · exact mem_below.mpr (TransGen.head hd (mem_below.mp hj))
  · have hk : k ∈ below F s h := mem_below.mpr (TransGen.single hd)
    rw [← heq] at hk
    exact hac k (mem_below.mp hk)

lemma card_below_lt (hac : Acyclic F s) (hh : h ∈ s) : (below F s h).card < s.card := by
  apply card_lt_card
  refine Finset.ssubset_iff_subset_ne.mpr ⟨below_subset h, fun heq => ?_⟩
  have hself : h ∈ below F s h := by rw [heq]; exact hh
  exact hac h (mem_below.mp hself)

variable (hF : ∀ V, F V ⊆ s)
include hF

omit [DecidableEq α] in
lemma iterate_subset {V : Finset α} (hV : V ⊆ s) (n : ℕ) : F^[n] V ⊆ s := by
  cases n with
  | zero => exact hV
  | succ n =>
    rw [iterate_succ_apply']
    exact hF _

variable (hac : Acyclic F s) (hV : V ⊆ s)
include hac hV

lemma mem_iterate_iff (hW : W ⊆ s) (h : α) {m : ℕ} (hm : (below F s h).card < m) (hn : (below F s h).card < n) :
    h ∈ F^[m] V ↔ h ∈ F^[n] W := by
  induction hc : (below F s h).card using Nat.strong_induction_on generalizing h m n with
  | _ c ih =>
    obtain ⟨m, rfl⟩ : ∃ i, m = i + 1 := ⟨m - 1, by omega⟩
    obtain ⟨n, rfl⟩ : ∃ i, n = i + 1 := ⟨n - 1, by omega⟩
    rw [iterate_succ_apply', iterate_succ_apply']
    refine mem_iff_of_agree (iterate_subset hF hV m) (iterate_subset hF hW n) fun k hd => ?_
    have hlt := card_lt_card (below_ssubset hac hd)
    exact ih _ (by omega) k (by omega) (by omega) rfl

theorem iterate_eq (hW : W ⊆ s) {m : ℕ} (hm : s.card ≤ m) (hn : s.card ≤ n) : F^[m] V = F^[n] W := by
  ext h
  by_cases hh : h ∈ s
  · have hlt := card_below_lt hac hh
    exact mem_iterate_iff hF hac hV hW h (by omega) (by omega)
  · have hm' := iterate_subset hF hV m
    have hn' := iterate_subset hF hW n
    exact iff_of_false (fun hc => hh (hm' hc)) (fun hc => hh (hn' hc))

theorem iterate_fixed (hn : s.card ≤ n) : F (F^[n] V) = F^[n] V := by
  rw [← iterate_succ_apply' F n V]
  exact iterate_eq hF hac hV hV (by omega) hn

theorem iterate_eq_fixed (hW : W ⊆ s) (hfix : F W = W) (hn : s.card ≤ n) : F^[n] V = W := by
  have hk := iterate_eq hF hac hV hW hn hn
  rwa [Function.iterate_fixed hfix n] at hk

end

section

variable {F F' : Finset α → Finset α} {s s' : Finset α}

lemma Acyclic.restrict (hac : Acyclic F' s') (hs : s ⊆ s') (hF : ∀ V, F V ⊆ s)
    (ha : ∀ V ⊆ s, ∀ h ∈ s, h ∈ F' V ↔ h ∈ F V) : Acyclic F s := by
  have hmono : ∀ h k, DependsOn F s h k → DependsOn F' s' h k := by
    rintro h k ⟨hk, V, hV, hne⟩
    refine ⟨hs hk, V, hV.trans hs, fun hiff => hne ?_⟩
    by_cases hh : h ∈ s
    · rwa [ha _ (insert_subset hk hV) h hh, ha _ ((erase_subset k V).trans hV) h hh] at hiff
    · exact iff_of_false (fun hc => hh (hF _ hc)) (fun hc => hh (hF _ hc))
  intro h hh
  exact hac h (TransGen.mono hmono _ _ hh)

omit [DecidableEq α] in
lemma iterate_restrict (hF' : ∀ V, F' V ⊆ s) (ha : ∀ V ⊆ s, F' V = F V) (V : Finset α) (n : ℕ) :
    F'^[n + 1] V = F^[n] (F' V) := by
  rw [iterate_succ_apply]
  induction n with
  | zero => rfl
  | succ n ih =>
    have hsub : F'^[n] (F' V) ⊆ s := iterate_subset hF' (hF' V) n
    rw [iterate_succ_apply', iterate_succ_apply', ← ih, ha _ hsub]

end

def settle (F : Finset α → Finset α) : ℕ → Finset α → Finset α × Bool
  | 0, V => (V, false)
  | n + 1, V => if F V = V then (F V, true) else settle F n (F V)

variable (F : Finset α → Finset α) (n : ℕ) (V : Finset α)
include F n V

lemma settle_fst : (settle F n V).1 = F^[n] V := by
  induction n generalizing V with
  | zero => rfl
  | succ n ih =>
    rw [settle]
    split_ifs with hV
    · rw [hV, Function.iterate_fixed hV]
    · exact ih (F V)

lemma settle_snd : (settle F (n + 1) V).2 = true ↔ F^[n + 1] V = F^[n] V := by
  induction n generalizing V with
  | zero => by_cases hV : F V = V <;> simp [settle, hV]
  | succ n ih =>
    rw [settle]
    split_ifs with hV
    · simp [Function.iterate_fixed hV]
    · rw [ih, ← iterate_succ_apply, ← iterate_succ_apply]

end Mae.Library.Settling
