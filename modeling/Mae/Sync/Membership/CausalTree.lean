import Mae.Sync.Membership.Derive

/-! The causal order lists the ops reachable from the root by generation and, in a generation, by hash. -/

namespace Mae.Sync.Membership

open Std ExtTreeMap Finset List Option

variable {byHash : OpIndex} {g : String}

def AtDepth (byHash : OpIndex) (g : String) : ℕ → String → Prop
  | 0, h => h = g ∧ g ∈ byHash
  | k + 1, h => ∃ o, byHash[h]? = some o ∧ AtDepth byHash g k o.op.prevHash

structure Rooted (byHash : OpIndex) (g : String) : Prop where
  root : ∃ o, byHash[g]? = some o ∧ o.op.prevHash = ""
  noEmpty : "" ∉ byHash

lemma Rooted.mem (hr : Rooted byHash g) : g ∈ byHash := by
  obtain ⟨o, ho, _⟩ := hr.root
  exact mem_iff_isSome_getElem?.mpr (by simp [ho])

variable {k : ℕ} {h : String}

lemma AtDepth.mem (hd : AtDepth byHash g k h) : h ∈ byHash := by
  cases k with
  | zero => exact hd.1 ▸ hd.2
  | succ k =>
    obtain ⟨o, ho, _⟩ := hd
    exact mem_iff_isSome_getElem?.mpr (by simp [ho])

lemma Rooted.not_atDepth_succ (hr : Rooted byHash g) (k : ℕ) : ¬ AtDepth byHash g (k + 1) g := by
  rintro ⟨o, ho, hd⟩
  obtain ⟨o', ho', he⟩ := hr.root
  obtain rfl : o = o' := mem_unique ho ho'
  rw [he] at hd
  exact hr.noEmpty hd.mem

lemma Rooted.atDepth_unique (hr : Rooted byHash g) {i j : ℕ} (hi : AtDepth byHash g i h) (hj : AtDepth byHash g j h) :
    i = j := by
  induction i generalizing h j with
  | zero =>
    obtain ⟨rfl, _⟩ := hi
    cases j with
    | zero => rfl
    | succ j => exact (hr.not_atDepth_succ j hj).elim
  | succ i ih =>
    cases j with
    | zero =>
      obtain ⟨rfl, _⟩ := hj
      exact (hr.not_atDepth_succ i hi).elim
    | succ j =>
      obtain ⟨o, ho, hi⟩ := hi
      obtain ⟨o', ho', hj⟩ := hj
      obtain rfl : o = o' := mem_unique ho ho'
      rw [ih hi hj]

lemma parentHash_eq {o : SignedMembershipOp} (ho : byHash[h]? = some o) : parentHash byHash h = o.op.prevHash := by
  simp [parentHash, ho]

lemma AtDepth.parent (hd : AtDepth byHash g (k + 1) h) : AtDepth byHash g k (parentHash byHash h) := by
  obtain ⟨o, ho, hd⟩ := hd
  rwa [parentHash_eq ho]

def lineage (byHash : OpIndex) : ℕ → String → Finset String
  | 0, _ => ∅
  | k + 1, h => insert (parentHash byHash h) (lineage byHash k (parentHash byHash h))

lemma mem_lineage {a : String} (hd : AtDepth byHash g k h) (ha : a ∈ lineage byHash k h) :
    ∃ j < k, AtDepth byHash g j a := by
  induction k generalizing h with
  | zero => simp [lineage] at ha
  | succ k ih =>
    rw [lineage, Finset.mem_insert] at ha
    rcases ha with rfl | ha
    · exact ⟨k, by omega, hd.parent⟩
    · obtain ⟨j, hj, hda⟩ := ih hd.parent ha
      exact ⟨j, by omega, hda⟩

section

variable (hr : Rooted byHash g) (hd : AtDepth byHash g k h)
include hr hd

lemma Rooted.not_mem_lineage : h ∉ lineage byHash k h := by
  intro hh
  obtain ⟨j, hj, hdj⟩ := mem_lineage hd hh
  exact absurd (hr.atDepth_unique hd hdj) (by omega)

lemma Rooted.card_lineage : (lineage byHash k h).card = k := by
  induction k generalizing h with
  | zero => rfl
  | succ k ih =>
    rw [lineage, card_insert_of_notMem (hr.not_mem_lineage hd.parent), ih hd.parent]

lemma Rooted.depth_le_size : k ≤ byHash.size := by
  have hsub : lineage byHash k h ⊆ byHash.keys.toFinset := by
    intro a ha
    obtain ⟨j, _, hda⟩ := mem_lineage hd ha
    simpa using hda.mem
  have hle := card_le_card hsub
  rw [hr.card_lineage hd] at hle
  exact hle.trans ((toFinset_card_le _).trans (by simp))

lemma Rooted.ancestorsLoop_eq {fuel : ℕ} (hf : k < fuel) {set : Finset String}
    (hset : ∀ a ∈ lineage byHash k h, a ∉ set) :
    ancestorsLoop byHash fuel (parentHash byHash h) set = set ∪ lineage byHash k h := by
  induction k generalizing h fuel set with
  | zero =>
    obtain ⟨rfl, _⟩ := hd
    obtain ⟨o, ho, he⟩ := hr.root
    obtain ⟨fuel, rfl⟩ : ∃ n, fuel = n + 1 := ⟨fuel - 1, by omega⟩
    simp [ancestorsLoop, parentHash_eq ho, he, lineage]
  | succ k ih =>
    obtain ⟨fuel, rfl⟩ : ∃ n, fuel = n + 1 := ⟨fuel - 1, by omega⟩
    have hp := hd.parent
    have hne : parentHash byHash h ≠ "" := fun he => hr.noEmpty (he ▸ hp.mem)
    have hfresh : parentHash byHash h ∉ set := hset _ (by simp [lineage])
    obtain ⟨o, ho⟩ := isSome_iff_exists.mp (mem_iff_isSome_getElem?.mp hp.mem)
    have hrest : ∀ a ∈ lineage byHash k (parentHash byHash h), a ∉ insert (parentHash byHash h) set := by
      intro a ha
      rw [Finset.mem_insert, not_or]
      refine ⟨?_, hset a (by simp [lineage, ha])⟩
      rintro rfl
      exact hr.not_mem_lineage hp ha
    have hstep := ih hp (show k < fuel by omega) hrest
    rw [parentHash_eq ho] at hstep
    simp only [ancestorsLoop, hne, hfresh, if_false, ho, hstep, lineage]
    rw [insert_union, union_insert]

lemma Rooted.ancestors_eq : ancestors byHash h = lineage byHash k h := by
  have hle := hr.depth_le_size hd
  rw [ancestors, hr.ancestorsLoop_eq hd (by omega) (by simp), empty_union]

end

lemma mem_childIndex_foldl (l : List (String × SignedMembershipOp)) (m : ChildIndex) (p c : String) :
    c ∈ ((l.foldl (fun m e => m.insert e.2.op.prevHash ((m[e.2.op.prevHash]?.getD ∅).insert e.1)) m)[p]?.getD ∅) ↔
      c ∈ (m[p]?.getD ∅) ∨ ∃ o, (c, o) ∈ l ∧ o.op.prevHash = p := by
  induction l generalizing m with
  | nil => simp
  | cons e l ih =>
    have hcell : c ∈ ((m.insert e.2.op.prevHash ((m[e.2.op.prevHash]?.getD ∅).insert e.1))[p]?.getD ∅) ↔
        c ∈ (m[p]?.getD ∅) ∨ (e.1 = c ∧ e.2.op.prevHash = p) := by
      rw [ExtTreeMap.getElem?_insert]
      by_cases hp : e.2.op.prevHash = p
      · simp [hp, or_comm]
      · simp [hp]
    have hhead : (∃ o, (c, o) = e ∧ o.op.prevHash = p) ↔ e.1 = c ∧ e.2.op.prevHash = p := by
      constructor
      · rintro ⟨o, rfl, hp⟩
        exact ⟨rfl, hp⟩
      · rintro ⟨rfl, hp⟩
        exact ⟨e.2, rfl, hp⟩
    rw [foldl_cons, ih, hcell]
    simp only [List.mem_cons, or_and_right, exists_or, hhead]
    tauto

lemma mem_childIndex (p c : String) :
    c ∈ ((childIndex byHash)[p]?.getD ∅) ↔ ∃ o, byHash[c]? = some o ∧ o.op.prevHash = p := by
  rw [childIndex, foldl_eq_foldl_toList]
  simp only [mem_childIndex_foldl, getElem?_empty, getD_none, ExtTreeSet.not_mem_empty,
    false_or, mem_toList_iff_getElem?_eq_some]

def Before (byHash : OpIndex) (g a b : String) : Prop :=
  ∃ i j, AtDepth byHash g i a ∧ AtDepth byHash g j b ∧ (i < j ∨ i = j ∧ a < b)

def FirstAt (byHash : OpIndex) (g : String) (k : ℕ) (h : String) : Prop :=
  AtDepth byHash g k h ∧ ∀ j < k, ¬ AtDepth byHash g j h

lemma AtDepth.exists_firstAt (hd : AtDepth byHash g k h) : ∃ j ≤ k, FirstAt byHash g j h := by
  classical
  have hfound : ∃ j, AtDepth byHash g j h := ⟨k, hd⟩
  exact ⟨Nat.find hfound, Nat.find_min' hfound hd, Nat.find_spec hfound, fun _ => Nat.find_min hfound⟩

lemma FirstAt.parent (hd : FirstAt byHash g (k + 1) h) : FirstAt byHash g k (parentHash byHash h) := by
  obtain ⟨⟨o, ho, hp⟩, hfirst⟩ := hd
  rw [parentHash_eq ho]
  exact ⟨hp, fun j hj hd => hfirst (j + 1) (by omega) ⟨o, ho, hd⟩⟩

lemma FirstAt.unique {i j : ℕ} (hi : FirstAt byHash g i h) (hj : FirstAt byHash g j h) : i = j := by
  rcases Nat.lt_trichotomy i j with hlt | heq | hlt
  · exact absurd hi.1 (hj.2 i hlt)
  · exact heq
  · exact absurd hj.1 (hi.2 j hlt)

def Precedes (byHash : OpIndex) (g a b : String) : Prop :=
  ∃ i j, FirstAt byHash g i a ∧ FirstAt byHash g j b ∧ (i < j ∨ i = j ∧ a < b)

lemma Precedes.asymm {a b : String} (hab : Precedes byHash g a b) : ¬ Precedes byHash g b a := by
  rintro ⟨i, j, hi, hj, hlt⟩
  obtain ⟨i', j', hi', hj', hlt'⟩ := hab
  obtain rfl := hi.unique hj'
  obtain rfl := hj.unique hi'
  rcases hlt with hlt | ⟨rfl, hlt⟩
  · rcases hlt' with hlt' | ⟨rfl, _⟩ <;> omega
  · rcases hlt' with hlt' | ⟨_, hlt'⟩
    · omega
    · exact lt_asymm hlt hlt'

lemma Rooted.precedes_iff (hr : Rooted byHash g) {a b : String} : Precedes byHash g a b ↔ Before byHash g a b := by
  have hfirst : ∀ k h, FirstAt byHash g k h ↔ AtDepth byHash g k h := by
    refine fun k h => and_iff_left_of_imp fun hd j hj hd' => ?_
    exact hj.ne (hr.atDepth_unique hd' hd)
  simp only [Precedes, Before, hfirst]

lemma foldl_emit (l : List String) (emitted : Finset String) (order : List String) (hn : l.Nodup)
    (hd : ∀ h ∈ l, h ∉ emitted) : l.foldl emit (emitted, order) = (emitted ∪ l.toFinset, order ++ l) := by
  induction l generalizing emitted order with
  | nil => simp
  | cons h l ih =>
    obtain ⟨hh, hn⟩ := nodup_cons.mp hn
    have hfresh : h ∉ emitted := hd h List.mem_cons_self
    rw [foldl_cons, emit, if_neg hfresh, ih _ _ hn]
    · simp [insert_union, union_insert]
    · intro k hk
      rw [Finset.mem_insert, not_or]
      exact ⟨fun he => hh (he ▸ hk), hd k (List.mem_cons_of_mem h hk)⟩

structure Generation (byHash : OpIndex) (g : String) (k : ℕ) (emitted : Finset String) (order frontier : List String) :
    Prop where
  frontier_iff : ∀ h, h ∈ frontier ↔ FirstAt byHash g k h
  nodup : frontier.Nodup
  emitted_iff : ∀ h, h ∈ emitted ↔ ∃ j < k, AtDepth byHash g j h
  order_iff : ∀ h, h ∈ order ↔ h ∈ emitted
  sorted : order.Pairwise (Precedes byHash g)
  progress : k ≤ emitted.card

lemma mem_nextFrontier (emitted : Finset String) (l : List String) (c : String) :
    c ∈ nextFrontier (childIndex byHash) emitted l ↔
      (∃ o, byHash[c]? = some o ∧ o.op.prevHash ∈ l) ∧ c ∉ emitted := by
  simp only [nextFrontier, mem_flatMap, List.mem_filter, ExtTreeSet.mem_toList, mem_childIndex, decide_eq_true_eq]
  constructor
  · rintro ⟨h, hh, ⟨o, ho, rfl⟩, he⟩
    exact ⟨⟨o, ho, hh⟩, he⟩
  · rintro ⟨⟨o, ho, hh⟩, he⟩
    exact ⟨_, hh, ⟨o, ho, rfl⟩, he⟩

variable {l : List String}

lemma nodup_nextFrontier (emitted : Finset String) (hn : l.Nodup) :
    (nextFrontier (childIndex byHash) emitted l).Nodup := by
  rw [nextFrontier, nodup_flatMap]
  refine ⟨fun h _ => ?_, hn.imp ?_⟩
  · apply Nodup.filter
    simpa [Nodup] using ((childIndex byHash)[h]?.getD ∅).distinct_toList
  · intro a b hab c ha hb
    simp only [List.mem_filter, ExtTreeSet.mem_toList, mem_childIndex] at ha hb
    obtain ⟨⟨o, ho, rfl⟩, _⟩ := ha
    obtain ⟨⟨o', ho', rfl⟩, _⟩ := hb
    obtain rfl : o = o' := mem_unique ho ho'
    exact hab rfl

section Loop

variable {emitted : Finset String} {order frontier : List String} (hg : Generation byHash g k emitted order frontier)
include hg

lemma Generation.foldl_emit : (frontier.insertionSort (· ≤ ·)).foldl emit (emitted, order) =
      (emitted ∪ (frontier.insertionSort (· ≤ ·)).toFinset, order ++ frontier.insertionSort (· ≤ ·)) := by
  have hperm : (frontier.insertionSort (· ≤ ·)).Perm frontier := perm_insertionSort _ _
  apply Membership.foldl_emit _ _ _ (hperm.nodup_iff.mpr hg.nodup)
  intro h hh he
  obtain ⟨j, hj, hd⟩ := (hg.emitted_iff h).mp he
  exact ((hg.frontier_iff h).mp (hperm.mem_iff.mp hh)).2 j hj hd

lemma Generation.next (hne : frontier ≠ []) :
    let sorted := frontier.insertionSort (· ≤ ·)
    Generation byHash g (k + 1) (emitted ∪ sorted.toFinset) (order ++ sorted)
      (nextFrontier (childIndex byHash) (emitted ∪ sorted.toFinset) sorted) := by
  intro sorted
  have hperm : sorted.Perm frontier := perm_insertionSort _ _
  have hsn : sorted.Nodup := hperm.nodup_iff.mpr hg.nodup
  have hmem : ∀ h, h ∈ sorted ↔ FirstAt byHash g k h := fun h => hperm.mem_iff.trans (hg.frontier_iff h)
  have hemit : ∀ h, h ∈ emitted ∪ sorted.toFinset ↔ ∃ j < k + 1, AtDepth byHash g j h := by
    intro h
    rw [mem_union, hg.emitted_iff, List.mem_toFinset, hmem]
    constructor
    · rintro (⟨j, hj, hd⟩ | hd)
      · exact ⟨j, by omega, hd⟩
      · exact ⟨k, by omega, hd.1⟩
    · rintro ⟨j, hj, hd⟩
      obtain ⟨i, hi, hfirst⟩ := hd.exists_firstAt
      rcases (hi.trans (Nat.le_of_lt_succ hj)).lt_or_eq with hlt | rfl
      · exact .inl ⟨i, hlt, hfirst.1⟩
      · exact .inr hfirst
  refine ⟨fun h => ?_, nodup_nextFrontier _ hsn, hemit, fun h => ?_, ?_, ?_⟩
  · rw [mem_nextFrontier, hemit]
    constructor
    · rintro ⟨⟨o, ho, hp⟩, hnew⟩
      exact ⟨⟨o, ho, ((hmem _).mp hp).1⟩, fun j hj hd => hnew ⟨j, hj, hd⟩⟩
    · intro hd
      obtain ⟨o, ho, _⟩ := hd.1
      exact ⟨⟨o, ho, (hmem _).mpr (parentHash_eq ho ▸ hd.parent)⟩, fun ⟨j, hj, hd'⟩ => hd.2 j hj hd'⟩
  · rw [mem_append, hg.order_iff, mem_union, List.mem_toFinset]
  · rw [pairwise_append]
    refine ⟨hg.sorted, ?_, ?_⟩
    · have hle : sorted.Pairwise (· ≤ ·) := pairwise_insertionSort _ _
      refine (hle.and hsn).imp_of_mem fun {a b} ha hb hab => ?_
      exact ⟨k, k, (hmem a).mp ha, (hmem b).mp hb, Or.inr ⟨rfl, hab.1.lt_of_ne hab.2⟩⟩
    · intro a ha b hb
      obtain ⟨j, hj, hd⟩ := (hg.emitted_iff a).mp ((hg.order_iff a).mp ha)
      obtain ⟨i, hi, hfirst⟩ := hd.exists_firstAt
      exact ⟨i, k, hfirst, (hmem b).mp hb, .inl (hi.trans_lt hj)⟩
  · have hdisj : Disjoint emitted sorted.toFinset := by
      rw [Finset.disjoint_right]
      intro h hh he
      obtain ⟨j, hj, hd⟩ := (hg.emitted_iff h).mp he
      exact ((hmem h).mp (List.mem_toFinset.mp hh)).2 j hj hd
    have hpos : 0 < sorted.toFinset.card := by
      rw [toFinset_card_of_nodup hsn, hperm.length_eq]
      exact length_pos_of_ne_nil hne
    rw [card_union_of_disjoint hdisj]
    have := hg.progress
    omega

lemma Generation.finish (hdone : frontier = []) (h : String) : h ∈ order ↔ ∃ j, AtDepth byHash g j h := by
  have hnone : ∀ j, k ≤ j → ∀ h, ¬ FirstAt byHash g j h := by
    intro j hj
    induction j, hj using Nat.le_induction with
    | base => exact fun h hd => by simpa [hdone] using (hg.frontier_iff h).mpr hd
    | succ j _ ih => exact fun h hd => ih _ hd.parent
  rw [hg.order_iff, hg.emitted_iff]
  refine ⟨fun ⟨j, _, hd⟩ => ⟨j, hd⟩, fun ⟨j, hd⟩ => ?_⟩
  obtain ⟨i, _, hfirst⟩ := hd.exists_firstAt
  exact ⟨i, Nat.lt_of_not_le fun hle => hnone i hle h hfirst, hfirst.1⟩

lemma Generation.card_le : k ≤ byHash.size := by
  have hsub : emitted ⊆ byHash.keys.toFinset := by
    intro h hh
    obtain ⟨j, _, hd⟩ := (hg.emitted_iff h).mp hh
    simpa using hd.mem
  have hle := (card_le_card hsub).trans (toFinset_card_le _)
  rw [length_keys] at hle
  exact hg.progress.trans hle

lemma Generation.causalLoop_spec {fuel : ℕ} (hf : byHash.size < k + fuel) :
    (∀ h, h ∈ causalLoop (childIndex byHash) fuel emitted order frontier ↔ ∃ j, AtDepth byHash g j h) ∧
      (causalLoop (childIndex byHash) fuel emitted order frontier).Pairwise (Precedes byHash g) := by
  induction fuel generalizing k emitted order frontier with
  | zero =>
    have := hg.card_le
    omega
  | succ fuel ih =>
    rw [causalLoop]
    dsimp only
    rw [hg.foldl_emit]
    cases frontier with
    | nil => exact ⟨hg.finish rfl, hg.sorted⟩
    | cons h rest => exact ih (hg.next (by simp)) (by omega)

end Loop

lemma generation_zero (hg : g ∈ byHash) : Generation byHash g 0 ∅ [] [g] := by
  refine ⟨fun h => ?_, nodup_singleton g, ?_, ?_, Pairwise.nil, by simp⟩
  · simp [FirstAt, AtDepth, hg]
  · simp
  · simp

lemma mem_of_reachable (hd : AtDepth byHash g k h) : g ∈ byHash := by
  induction k generalizing h with
  | zero => exact hd.2
  | succ k ih => exact ih hd.parent

lemma mem_causalOrder (byHash : OpIndex) (g h : String) : h ∈ causalOrder byHash g ↔ ∃ j, AtDepth byHash g j h := by
  rw [causalOrder]
  split_ifs with hg
  · exact ((generation_zero hg).causalLoop_spec (by omega)).1 h
  · exact iff_of_false (not_mem_nil) fun ⟨j, hd⟩ => hg (mem_of_reachable hd)

lemma pairwise_causalOrder (byHash : OpIndex) (g : String) : (causalOrder byHash g).Pairwise (Precedes byHash g) := by
  rw [causalOrder]
  split_ifs with hg
  · exact ((generation_zero hg).causalLoop_spec (by omega)).2
  · exact Pairwise.nil

lemma nodup_of_precedes (hs : l.Pairwise (Precedes byHash g)) : l.Nodup := by
  refine hs.imp fun {a b} hab he => ?_
  subst he
  exact hab.asymm hab

lemma nodup_causalOrder (byHash : OpIndex) (g : String) : (causalOrder byHash g).Nodup :=
  nodup_of_precedes (pairwise_causalOrder byHash g)

lemma causalOrder_unique (hs : l.Pairwise (Precedes byHash g))
    (hm : ∀ h, h ∈ l ↔ ∃ j, AtDepth byHash g j h) : causalOrder byHash g = l := by
  have hperm : (causalOrder byHash g).Perm l := by
    rw [perm_ext_iff_of_nodup (nodup_causalOrder byHash g) (nodup_of_precedes hs)]
    exact fun h => (mem_causalOrder byHash g h).trans (hm h).symm
  refine hperm.eq_of_pairwise ?_ (pairwise_causalOrder byHash g) hs
  exact fun a b _ _ hab hba => (hab.asymm hba).elim

section Reference

def ready (byHash : OpIndex) (g : String) (emitted : Finset String) : List String :=
  byHash.keys.filter fun h => h ∉ emitted ∧ (h = g ∨ byHash[h]!.op.prevHash ∈ emitted)

def referenceLoop (byHash : OpIndex) (g : String) : ℕ → Finset String → List String → List String
  | 0, _, order => order
  | fuel + 1, emitted, order =>
    let sorted := (ready byHash g emitted).insertionSort (· ≤ ·)
    if sorted.isEmpty then order else referenceLoop byHash g fuel (emitted ∪ sorted.toFinset) (order ++ sorted)

/-- The generation scan that `causal_order` replaced. -/
def referenceOrder (byHash : OpIndex) (g : String) : List String := referenceLoop byHash g (byHash.size + 1) ∅ []

variable {emitted : Finset String} {order frontier : List String}

lemma Generation.mem_ready (hg : Generation byHash g k emitted order frontier) :
    h ∈ ready byHash g emitted ↔ FirstAt byHash g k h := by
  simp only [ready, List.mem_filter, ExtTreeMap.mem_keys, decide_eq_true_eq, hg.emitted_iff]
  constructor
  · rintro ⟨hmem, hnew, hparent⟩
    obtain ⟨o, ho⟩ := isSome_iff_exists.mp (mem_iff_isSome_getElem?.mp hmem)
    rw [getElem!_eq_get!_getElem?, ho] at hparent
    have hdepth : ∃ j ≤ k, AtDepth byHash g j h := by
      rcases hparent with rfl | ⟨j, hj, hd⟩
      · exact ⟨0, Nat.zero_le k, rfl, hmem⟩
      · exact ⟨j + 1, hj, o, ho, hd⟩
    obtain ⟨j, hj, hd⟩ := hdepth
    rcases hj.lt_or_eq with hlt | rfl
    · exact absurd ⟨j, hlt, hd⟩ hnew
    · exact ⟨hd, fun i hi hd' => hnew ⟨i, hi, hd'⟩⟩
  · intro hd
    refine ⟨hd.1.mem, fun ⟨j, hj, hd'⟩ => hd.2 j hj hd', ?_⟩
    cases k with
    | zero => exact .inl hd.1.1
    | succ k =>
      obtain ⟨o, ho, hp⟩ := hd.1
      rw [getElem!_eq_get!_getElem?, ho]
      exact .inr ⟨k, k.lt_succ_self, hp⟩

lemma Generation.referenceLoop_eq (hg : Generation byHash g k emitted order frontier) (fuel : ℕ) :
    referenceLoop byHash g fuel emitted order = causalLoop (childIndex byHash) fuel emitted order frontier := by
  induction fuel generalizing k emitted order frontier with
  | zero => rfl
  | succ fuel ih =>
    have hkeys : (ready byHash g emitted).Nodup := byHash.nodup_keys.filter _
    have hperm : (ready byHash g emitted).Perm frontier := by
      rw [perm_ext_iff_of_nodup hkeys hg.nodup]
      exact fun h => hg.mem_ready.trans (hg.frontier_iff h).symm
    have hsort : (ready byHash g emitted).insertionSort (· ≤ ·) = frontier.insertionSort (· ≤ ·) :=
      ((perm_insertionSort _ _).trans (hperm.trans (perm_insertionSort _ _).symm)).eq_of_pairwise
        (fun _ _ _ _ => antisymm) (pairwise_insertionSort _ _) (pairwise_insertionSort _ _)
    rw [referenceLoop, causalLoop, hsort]
    dsimp only
    rw [hg.foldl_emit, (perm_insertionSort _ frontier).isEmpty_eq]
    cases frontier with
    | nil => rfl
    | cons h rest => exact ih (hg.next (by simp))

lemma referenceLoop_of_not_mem (hg : g ∉ byHash) (fuel : ℕ) : referenceLoop byHash g fuel ∅ [] = [] := by
  have hready : ready byHash g ∅ = [] := by
    rw [ready, filter_eq_nil_iff]
    intro h hh
    have hne : h ≠ g := fun heq => hg (heq ▸ ExtTreeMap.mem_keys.mp hh)
    simp [hne]
  cases fuel with
  | zero => rfl
  | succ fuel => simp [referenceLoop, hready]

theorem causal_order_matches_generation_scan (byHash : OpIndex) (g : String) :
    causalOrder byHash g = referenceOrder byHash g ∧
      (∀ fuel, byHash.size < fuel → referenceLoop byHash g fuel ∅ [] = causalOrder byHash g ∧
        (g ∈ byHash → causalLoop (childIndex byHash) fuel ∅ [] [g] = causalOrder byHash g)) ∧
      (causalOrder byHash g).Nodup ∧ (∀ h, h ∈ causalOrder byHash g ↔ ∃ k, AtDepth byHash g k h) ∧
      (causalOrder byHash g).Pairwise (Precedes byHash g) ∧
      ∀ h ∈ causalOrder byHash g, h ≠ g → Precedes byHash g (parentHash byHash h) h := by
  have hloops : ∀ fuel, byHash.size < fuel → referenceLoop byHash g fuel ∅ [] = causalOrder byHash g ∧
      (g ∈ byHash → causalLoop (childIndex byHash) fuel ∅ [] [g] = causalOrder byHash g) := by
    intro fuel hfuel
    by_cases hg : g ∈ byHash
    · have hspec := (generation_zero hg).causalLoop_spec (by omega : byHash.size < 0 + fuel)
      have hloop := causalOrder_unique hspec.2 hspec.1
      exact ⟨((generation_zero hg).referenceLoop_eq fuel).trans hloop.symm, fun _ => hloop.symm⟩
    · rw [causalOrder, if_neg hg]
      exact ⟨referenceLoop_of_not_mem hg fuel, fun h => absurd h hg⟩
  refine ⟨(hloops _ (Nat.lt_succ_self _)).1.symm, hloops, nodup_causalOrder byHash g, mem_causalOrder byHash g,
    pairwise_causalOrder byHash g, fun h hh hne => ?_⟩
  obtain ⟨j, hd⟩ := (mem_causalOrder byHash g h).mp hh
  obtain ⟨k, _, hfirst⟩ := hd.exists_firstAt
  cases k with
  | zero => exact absurd hfirst.1.1 hne
  | succ k => exact ⟨k, k + 1, hfirst.parent, hfirst, .inl k.lt_succ_self⟩

end Reference

variable (hr : Rooted byHash g)
include hr

lemma Rooted.causalOrder_spec :
    (∀ h, h ∈ causalOrder byHash g ↔ ∃ j, AtDepth byHash g j h) ∧ (causalOrder byHash g).Pairwise
      (Before byHash g) :=
  ⟨mem_causalOrder byHash g, (pairwise_causalOrder byHash g).imp hr.precedes_iff.mp⟩

lemma Rooted.mem_causalOrder : h ∈ causalOrder byHash g ↔ ∃ j, AtDepth byHash g j h := hr.causalOrder_spec.1 h

lemma Rooted.causalOrder_eq (hs : l.Pairwise (Before byHash g)) (hm : ∀ h, h ∈ l ↔ ∃ j, AtDepth byHash g j h) :
    causalOrder byHash g = l :=
  causalOrder_unique (hs.imp hr.precedes_iff.mpr) hm

end Mae.Sync.Membership
