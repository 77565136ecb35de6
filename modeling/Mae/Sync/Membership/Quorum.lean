import Mae.Sync.Membership.Stranger

/-! Membership under a quorum that the votes on record do not reach. -/

namespace Mae.Sync.Membership

open Std (ExtTreeMap)
open Library.Settling Finset List

variable {C : Crypto} {t t' : OpTree} {governance : Governance} {now : UInt64}

def removers (ops : List SignedMembershipOp) (target : String) : Finset String :=
  ((ops.filter fun o => isRemoval o.op.action && o.op.subject == target).map (·.op.author)).toFinset

lemma mem_removers {ops : OpLog} {target a : String} :
    a ∈ removers ops target ↔ ∃ o ∈ ops, (isRemoval o.op.action = true ∧ o.op.subject = target) ∧ o.op.author = a := by
  simp [removers, and_assoc]

lemma Governance.needed_pos (governance : Governance) : 0 < governance.needed := by
  cases governance with
  | singleOwner => exact Nat.one_pos
  | quorum threshold => exact lt_of_lt_of_le Nat.one_pos (le_max_right _ _)

lemma removalScan_eq_none {needed : ℕ} {target : String} {voters : Finset String} (hv : voters.card < needed)
    {l : List String} (hl : ∀ h ∈ l, t.Removes target h → (t.op h).author ∈ voters) {authors : Finset String}
    (ha : authors ⊆ voters) : removalScan t needed target l authors = none := by
  induction l generalizing authors with
  | nil => rfl
  | cons h rest ih =>
    obtain ⟨hh, hrest⟩ := List.forall_mem_cons.mp hl
    rw [removalScan]
    split_ifs with hr hn
    · have hsub := card_le_card (insert_subset (hh hr) ha)
      exact absurd (hn.trans hsub) (not_le.mpr hv)
    · exact ih hrest (insert_subset (hh hr) ha)
    · exact ih hrest ha

def Undecided (t : OpTree) (governance : Governance) : Prop :=
  ∀ target live, live ⊆ t.order → effectiveRemoval t target governance live = none

lemma undecided_of_votes {crypto : OpLog} {anchor : Key32} (hc : CollisionFree C crypto)
    (ht : anchoredTree C crypto anchor = some t)
    (hvotes : ∀ o ∈ crypto, isRemoval o.op.action = true → (removers crypto o.op.subject).card < governance.needed) :
    Undecided t governance := by
  intro target live hlive
  have hvoters : (removers crypto target).card < governance.needed := by
    rcases (removers crypto target).eq_empty_or_nonempty with hempty | ⟨a, ha⟩
    · rw [hempty]
      exact governance.needed_pos
    · obtain ⟨o, ho, ⟨hrem, rfl⟩, -⟩ := mem_removers.mp ha
      exact hvotes o ho hrem
  refine removalScan_eq_none hvoters (fun h hh hr => ?_) (empty_subset _)
  obtain ⟨o, ho, -, hop⟩ := exists_op_of_mem_order hc ht (hlive hh)
  rw [OpTree.Removes, hop] at hr
  exact mem_removers.mpr ⟨o, ho, hr, by rw [hop]⟩

namespace Undecided

variable (hu : Undecided t governance)
include hu

lemma killed_eq (V : Finset String) (h : String) : killed t governance V h = false := by
  rw [killed, hu _ _ fun k hk => (mem_live.mp hk).1]
  simp

lemma dominated_eq (V : Finset String) (h : String) : dominated t governance (t.live V) h = false := by
  rw [dominated, hu _ _ fun k hk => (mem_live.mp hk).1]
  rfl

lemma survives_congr_past {V W : Finset String} {h : String} (hVW : ∀ k ∈ t.past h, k ∈ V ↔ k ∈ W) :
    survives C t governance now V h = survives C t governance now W h := by
  rw [survives, membershipAt_congr hVW, hu.killed_eq, survives, hu.killed_eq]

lemma acyclic {crypto : OpLog} {anchor : Key32} (hc : CollisionFree C crypto)
    (ht : anchoredTree C crypto anchor = some t) : Acyclic (validityPass C t governance now) t.order.toFinset := by
  obtain ⟨g, hg, hgen, rfl⟩ := anchoredTree_root ht
  have hroot := rooted_indexByHash hc hg hgen
  apply acyclic_of_rank fun h => ((OpTree.grow (indexByHash C crypto) (g.chainHash C)).past h).card
  intro h k hd
  obtain ⟨hk, V, _, hne⟩ := hd
  have hpast : k ∈ (OpTree.grow (indexByHash C crypto) (g.chainHash C)).past h := by
    by_contra hc
    refine hne ?_
    rw [mem_validityPass, mem_validityPass, hu.survives_congr_past fun j hj => ?_]
    have hjk : j ≠ k := fun heq => hc (heq ▸ hj)
    simp [hjk]
  have hh : h ∈ causalOrder (indexByHash C crypto) (g.chainHash C) := by
    by_contra hh
    rw [OpTree.past, OpTree.grow, getElem?_ancestorIndex, if_neg hh] at hpast
    simp at hpast
  obtain ⟨i, hi⟩ := hroot.mem_causalOrder.mp hh
  rw [grow_past hroot hi] at hpast ⊢
  obtain ⟨j, hj, hdj⟩ := mem_lineage hi hpast
  rwa [grow_past hroot hdj, hroot.card_lineage hi, hroot.card_lineage hdj]

end Undecided

lemma mem_admitPass {live : List String} {p : String} :
    p ∈ admitPass t governance now live ↔ ∃ h ∈ live, (t.op h).subject = p ∧ Seats t governance now live h := by
  rw [ExtTreeMap.mem_iff_isSome_getElem?, admitPass_getElem?, Option.isSome_map, getLast?_isSome, ne_eq, seatOps]
  push Not
  simp

namespace Extends

variable (he : Extends t t') (hu : Undecided t governance) (hu' : Undecided t' governance)
  (hac : Acyclic (validityPass C t governance now) t.order.toFinset)
  (hac' : Acyclic (validityPass C t' governance now) t'.order.toFinset)
include he hu hu'

lemma survives_eq {V : Finset String} {h : String} (hh : h ∈ t.order) :
    survives C t' governance now V h = survives C t governance now V h := by
  have ha := he.alike.op h hh
  rw [survives, ha.expired_eq, he.alike.genesisHash, he.membershipAt_eq hh, ha.authorized_eq, he.alike.owner,
    hu'.killed_eq, survives, hu.killed_eq]

include hac hac' in
lemma validSet_inter : validSet C t governance now = validSet C t' governance now ∩ t.order.toFinset := by
  apply validSet_eq_of_fixed hac Finset.inter_subset_right
  ext h
  rw [mem_inter, mem_toFinset, mem_validityPass, and_comm]
  refine and_congr_left fun hh => ?_
  have hpast : ∀ k ∈ t.past h, k ∈ validSet C t' governance now ∩ t.order.toFinset ↔ k ∈ validSet C t' governance now := by
    intro k hk
    simp [he.closed h hh k hk]
  rw [hu.survives_congr_past hpast, ← he.survives_eq hu hu' hh]
  nth_rewrite 2 [← validSet_fixed hac']
  rw [mem_validityPass, and_iff_right (he.mem_order hh)]

variable (C now) in
include hac hac' in
lemma filter_live_validSet :
    ((t'.live (validSet C t' governance now)).filter fun h => h ∈ t.order) = t.live (validSet C t governance now) := by
  rw [he.filter_live, he.validSet_inter hu hu' hac hac']
  apply List.filter_congr
  intro h hh
  simp [hh]

end Extends

lemma carried_extend {old l : List String} (ha : TreesAlike t t' old) {p : String}
    (hnew : ∀ h ∈ l, h ∉ old → (t'.op h).action = .rebind →
      ∀ pre, pre <+: (l.filter fun k => k ∈ old) → carried t pre p ≠ (t'.op h).author) :
    carried t' l p = carried t (l.filter fun k => k ∈ old) p := by
  induction l using List.reverseRecOn with
  | nil => rfl
  | append_singleton l h ih =>
    have hprefix : (l.filter fun k => k ∈ old) <+: (l ++ [h]).filter fun k => k ∈ old := by
      rw [filter_append]
      exact prefix_append _ _
    have ih := ih fun k hk hko hact pre hpre => hnew k (mem_append_left _ hk) hko hact pre (hpre.trans hprefix)
    by_cases hold : h ∈ old
    · have hfilter : ((l ++ [h]).filter fun k => k ∈ old) = (l.filter fun k => k ∈ old) ++ [h] := by
        simp [hold]
      rw [hfilter, carried_concat, carried_concat, ih, carryStep, carryStep, move, move, (ha.op h hold).action,
        (ha.op h hold).author, (ha.op h hold).subject]
    · have hfilter : ((l ++ [h]).filter fun k => k ∈ old) = l.filter fun k => k ∈ old := by
        simp [hold]
      rw [hfilter, carried_concat, ih, carryStep]
      split_ifs with hact
      · rw [move, if_neg (hnew h (by simp) hold hact _ hprefix)]
      · rfl

lemma carried_of_no_author {hs : List String} {a : String} (hno : ∀ h ∈ hs, (t.op h).action = .rebind → (t.op h).author ≠ a) :
    carried t hs a = a := by
  induction hs using List.reverseRecOn with
  | nil => rfl
  | append_singleton hs h ih =>
    rw [carried_concat, ih fun k hk => hno k (mem_append_left _ hk), carryStep]
    split_ifs with hact
    · rw [move, if_neg fun heq => hno h (by simp) hact heq.symm]
    · rfl

section

variable {L E : OpLog}

def ByOneParty (L E : List SignedMembershipOp) (a : String) : Prop :=
  ∀ e ∈ E, e.op.author = a ∨
    (∃ e' ∈ E, (e'.op.action = .admits ∨ e'.op.action = .rebind) ∧ e'.op.subject = e.op.author) ∧
      ∀ o ∈ L, o.op.action = .admits ∨ o.op.action = .rebind → o.op.subject ≠ e.op.author
  deriving Decidable

end

lemma mem_applyView {view : MembershipView} (hview : view.cascade ≠ .cascadeAll) {owner p : String} {members : Members} :
    p ∈ applyView view owner members ↔ p ∈ members ∧ p ∉ view.blocklist := by
  rw [applyView]
  split_ifs with hb
  · simp [hb]
  · simp [ExtTreeMap.mem_filter]

lemma eq_of_mem_order {ops : OpLog} {anchor : Key32} {view : MembershipView} {h : String}
    (hc : CollisionFree C ops) (ht : anchoredTree C (visible C view ops) anchor = some t) (hh : h ∈ t.order) :
    ∃ o ∈ ops, t.op h = o.op := by
  obtain ⟨o, ho, -, hop⟩ := exists_op_of_mem_order (hc.filter _) ht hh
  exact ⟨o, List.mem_of_mem_filter ho, hop⟩

def twoOwnersLog : List SignedMembershipOp :=
  [sampleGenesis, sampleLinked 2 1 'o' .admits (sampleFp 's') (some .owner)]

def oneVote : List SignedMembershipOp :=
  [sampleLinked 3 2 'o' .admits (sampleFp 'b') (some .owner), sampleLinked 4 3 'o' .remove (sampleFp 's') none]

end Mae.Sync.Membership
