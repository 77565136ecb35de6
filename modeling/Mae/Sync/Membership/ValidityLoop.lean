import Mae.Sync.Membership.Derive

/-! What a validity pass reads, and when the validity loop ends in a set that its own pass keeps. -/

namespace Mae.Sync.Membership

open Library.Settling List

variable {C : Crypto} {t : OpTree} {governance : Governance} {now : UInt64} {h : String} {V W : Finset String}

lemma mem_live {valid : Finset String} : h ∈ t.live valid ↔ h ∈ t.order ∧ h ∈ valid := by
  simp [OpTree.live]

lemma removalScan_mem {needed : ℕ} {target : String} {l : List String} {authors : Finset String}
    (hs : removalScan t needed target l authors = some h) :
    h ∈ l ∧ t.Removes target h := by
  induction l generalizing authors with
  | nil => simp [removalScan] at hs
  | cons k rest ih =>
    rw [removalScan] at hs
    split_ifs at hs with hk hn
    · cases hs
      exact ⟨mem_cons_self, hk⟩
    · exact ⟨mem_cons_of_mem k (ih hs).1, (ih hs).2⟩
    · exact ⟨mem_cons_of_mem k (ih hs).1, (ih hs).2⟩

lemma removalScan_filter (needed : ℕ) (target : String) (l : List String) (authors : Finset String) :
    removalScan t needed target (l.filter fun h => t.Removes target h) authors =
      removalScan t needed target l authors := by
  induction l generalizing authors with
  | nil => rfl
  | cons k rest ih =>
    by_cases hk : t.Removes target k
    · simp only [filter_cons, hk, decide_true, if_true, removalScan, ih]
    · simp only [filter_cons, hk, decide_false, Bool.false_eq_true, if_false, removalScan, ih]

lemma effectiveRemoval_congr {target : String} (hVW : ∀ h ∈ t.order, t.Removes target h → (h ∈ V ↔ h ∈ W)) :
    effectiveRemoval t target governance (t.live V) = effectiveRemoval t target governance (t.live W) := by
  have hl : (t.live V).filter (fun h => t.Removes target h) = (t.live W).filter fun h => t.Removes target h := by
    simp only [OpTree.live, filter_filter]
    apply filter_congr
    intro h hh
    by_cases hr : t.Removes target h <;> simp [hr, hVW h hh]
  rw [effectiveRemoval, ← removalScan_filter, hl, removalScan_filter, effectiveRemoval]

lemma membershipAt_congr (hVW : ∀ k ∈ t.past h, k ∈ V ↔ k ∈ W) :
    membershipAt t governance now V h = membershipAt t governance now W h := by
  have hi : V ∩ t.past h = W ∩ t.past h := by
    ext k
    simp only [Finset.mem_inter]
    exact ⟨fun hk => ⟨(hVW k hk.2).mp hk.1, hk.2⟩, fun hk => ⟨(hVW k hk.2).mpr hk.1, hk.2⟩⟩
  rw [membershipAt, hi, membershipAt]

def Exposed (t : OpTree) (h : String) : Prop :=
  isRemoval (t.op h).action = false ∧ ∃ r ∈ t.order, t.Removes (t.op h).author r ∧ t.Concurrent h r
  deriving Decidable

lemma killed_of_not_exposed (he : ¬ Exposed t h) : killed t governance V h = false := by
  by_contra hk
  simp only [Bool.not_eq_false, killed, Bool.and_eq_true, Bool.not_eq_true', Option.any_eq_true,
    decide_eq_true_eq] at hk
  obtain ⟨hr, rh, hrh, hc⟩ := hk
  obtain ⟨hm, hrem⟩ := removalScan_mem hrh
  exact he ⟨hr, rh, (mem_live.mp hm).1, hrem, hc⟩

lemma mem_validityPass :
    h ∈ validityPass C t governance now V ↔ h ∈ t.order ∧ survives C t governance now V h = true := by
  simp [validityPass]

lemma validityPass_subset (V : Finset String) : validityPass C t governance now V ⊆ t.order.toFinset :=
  fun _ hh => mem_toFinset.mpr (mem_validityPass.mp hh).1

lemma survives_congr (hp : ∀ k ∈ t.past h, k ∈ V ↔ k ∈ W)
    (hr : Exposed t h → ∀ k ∈ t.order, t.Removes (t.op h).author k → (k ∈ V ↔ k ∈ W)) :
    survives C t governance now V h = survives C t governance now W h := by
  have hk : killed t governance V h = killed t governance W h := by
    by_cases he : Exposed t h
    · rw [killed, effectiveRemoval_congr (hr he), killed]
    · rw [killed_of_not_exposed he, killed_of_not_exposed he]
  rw [survives, membershipAt_congr hp, hk, survives]

lemma consults_of_dependsOn {k : String} (hd : DependsOn (validityPass C t governance now) t.order.toFinset h k) :
    h ∈ t.order ∧ k ∈ t.order ∧ (k ∈ t.past h ∨ Exposed t h ∧ t.Removes (t.op h).author k) := by
  obtain ⟨hk, V, _, hne⟩ := hd
  have hh : h ∈ t.order := by
    by_contra hh
    exact hne (iff_of_false (fun hm => hh (mem_validityPass.mp hm).1) fun hm => hh (mem_validityPass.mp hm).1)
  refine ⟨hh, mem_toFinset.mp hk, ?_⟩
  by_contra hc
  push Not at hc
  apply hne
  have hs : survives C t governance now (insert k V) h = survives C t governance now (V.erase k) h := by
    have hkeep : ∀ j, j ≠ k → (j ∈ insert k V ↔ j ∈ V.erase k) := by
      intro j hj
      simp [hj]
    apply survives_congr
    · intro j hj
      exact hkeep j fun hjk => hc.1 (hjk ▸ hj)
    · intro he j _ hj
      exact hkeep j fun hjk => hc.2 he (hjk ▸ hj)
  rw [mem_validityPass, mem_validityPass, hs]

def Ranked (t : OpTree) (hs : List String) : Prop :=
  (∀ h ∈ t.order, ∀ k ∈ t.past h, hs.idxOf k < hs.idxOf h) ∧
    ∀ h ∈ t.order, Exposed t h → ∀ k ∈ t.order, t.Removes (t.op h).author k → hs.idxOf k < hs.idxOf h
  deriving Decidable

lemma Ranked.acyclic {hs : List String} (hr : Ranked t hs) :
    Acyclic (validityPass C t governance now) t.order.toFinset := by
  apply acyclic_of_rank fun h => hs.idxOf h
  intro h k hd
  obtain ⟨hh, hk, hpast | ⟨he, hrem⟩⟩ := consults_of_dependsOn hd
  · exact hr.1 h hh k hpast
  · exact hr.2 h hh he k hk hrem

lemma validSet_eq_iterate :
    validSet C t governance now = (validityPass C t governance now)^[t.order.length + 2] t.order.toFinset :=
  settle_fst _ _ _

lemma validSet_subset : validSet C t governance now ⊆ t.order.toFinset := by
  rw [validSet_eq_iterate]
  exact iterate_subset validityPass_subset subset_rfl _

section

variable (hac : Acyclic (validityPass C t governance now) t.order.toFinset)
include hac

lemma validSet_fixed : validityPass C t governance now (validSet C t governance now) = validSet C t governance now := by
  rw [validSet_eq_iterate]
  exact iterate_fixed validityPass_subset hac subset_rfl ((toFinset_card_le _).trans (by omega))

lemma validSet_eq_of_fixed (hW : W ⊆ t.order.toFinset) (hfix : validityPass C t governance now W = W) :
    validSet C t governance now = W := by
  rw [validSet_eq_iterate]
  exact iterate_eq_fixed validityPass_subset hac subset_rfl hW hfix ((toFinset_card_le _).trans (by omega))

lemma validityLoop_stable : (validityLoop C t governance now).2 = true := by
  rw [validityLoop, settle_snd]
  have hcard := toFinset_card_le t.order
  exact iterate_eq validityPass_subset hac subset_rfl subset_rfl (by omega) (by omega)

end

section

variable {ops : OpLog} {anchor : Key32}

lemma deriveValidMembersGoverned_eq {view : MembershipView} (ht : anchoredTree C (visible C view ops) anchor = some t) :
    deriveValidMembersGoverned C ops anchor now governance view = deriveFrom C t now governance view := by
  rw [deriveValidMembersGoverned, ht]

lemma deriveValidMembers_eq (ht : anchoredTree C (visible C {} ops) anchor = some t) :
    deriveValidMembers C ops anchor now =
      buildMembers t .singleOwner now (t.live (validSet C t .singleOwner now)) := by
  rw [deriveValidMembers, deriveValidMembersWith, deriveValidMembersGoverned_eq ht]
  simp [deriveFrom, applyView]

end

def fencedLog : List SignedMembershipOp :=
  [sampleSigned 1 'o' (sampleOp "" 'o' .admits (sampleFp 'o') (some .owner)),
    sampleSigned 2 'o' { sampleOp (sampleHash 1) 'o' .admits (sampleFp 'b') (some .editor) with canInvite := true },
    sampleSigned 3 'b' (sampleOp (sampleHash 2) 'b' .admits (sampleFp 'c') (some .viewer)),
    sampleSigned 4 'o' (sampleOp (sampleHash 2) 'o' .remove (sampleFp 'b') none)]

def crossedLog : List SignedMembershipOp :=
  [sampleSigned 1 'o' (sampleOp "" 'o' .admits (sampleFp 'o') (some .owner)),
    sampleSigned 2 'o' (sampleOp (sampleHash 1) 'o' .admits (sampleFp 's') (some .owner)),
    sampleSigned 3 'o' (sampleOp (sampleHash 2) 'o' .admits (sampleFp 't') (some .owner)),
    sampleSigned 4 's' (sampleOp (sampleHash 3) 's' .admits (sampleFp 'x') (some .owner)),
    sampleSigned 5 'x' (sampleOp (sampleHash 4) 'x' .remove (sampleFp 't') none),
    sampleSigned 6 't' (sampleOp (sampleHash 3) 't' .admits (sampleFp 'y') (some .owner)),
    sampleSigned 7 'y' (sampleOp (sampleHash 6) 'y' .remove (sampleFp 's') none)]

end Mae.Sync.Membership
