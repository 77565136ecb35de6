import Mae.Sync.Membership.Extension

/-! What a record that no other links to changes of the tree and of the validity loop. -/

namespace Mae.Sync.Membership

open Std Library.Settling ExtTreeMap List

section Index

variable {byHash : OpIndex} {g leaf : String} {r : SignedMembershipOp}

lemma getElem?_insert_leaf {h : String} (hh : h ≠ leaf) : (byHash.insert leaf r)[h]? = byHash[h]? := by
  simp [ExtTreeMap.getElem?_insert, hh.symm]

lemma causalOrder_insert_leaf
    (hleaf : ∀ (h : String) (o : SignedMembershipOp), byHash[h]? = some o → o.op.prevHash ≠ leaf) (hr : Rooted byHash g)
    (hfresh : leaf ∉ byHash) (hne : leaf ≠ "") :
    ((causalOrder (byHash.insert leaf r) g).filter fun h => h ≠ leaf) = causalOrder byHash g := by
  have hget : ∀ (h : String) (o : SignedMembershipOp), byHash[h]? = some o → (byHash.insert leaf r)[h]? = some o := by
    intro h o ho
    refine (getElem?_insert_leaf ?_).trans ho
    rintro rfl
    exact hfresh (mem_iff_isSome_getElem?.mpr (by simp [ho]))
  have hempty : "" ∉ byHash.insert leaf r := by simp [mem_insert, hne, hr.noEmpty]
  refine (filter_congr fun h hh => ?_).trans (causalOrder_extend hget hr hempty)
  obtain ⟨k, hd⟩ := (hr.extend hget hempty).mem_causalOrder.mp hh
  rw [decide_eq_decide, hr.mem_causalOrder]
  constructor
  · intro hh
    have hold : h ∈ byHash := by simpa [mem_insert, hh.symm] using hd.mem
    refine ⟨k, hd.restrict hget hr (fun h o ho hp => ?_) hold⟩
    simpa [mem_insert, (hleaf h o ho).symm] using hp
  · rintro ⟨j, hj⟩ rfl
    exact hfresh hj.mem

end Index

structure Grafts (t t' : OpTree) (leaf : String) : Prop where
  alike : TreesAlike t t' t.order
  order : (t'.order.filter fun h => h ≠ leaf) = t.order
  genesis : t.genesisHash ∈ t.order
  last : ∀ h ∈ t.order, leaf ∉ t.past h
  strict : leaf ∉ t'.past leaf

namespace Grafts

variable {C : Crypto} {t t' : OpTree} {leaf : String} {governance : Governance} {now : UInt64}
variable (hg : Grafts t t' leaf)
include hg

variable {h : String} {V : Finset String}

lemma mem_order : h ∈ t.order ↔ h ∈ t'.order ∧ h ≠ leaf := by
  rw [← hg.order, List.mem_filter, decide_eq_true_eq]

lemma leaf_ne_genesisHash : leaf ≠ t'.genesisHash := by
  rw [hg.alike.genesisHash]
  exact fun heq => (hg.mem_order.mp hg.genesis).2 heq.symm

lemma leaf_notMem_of_refused
    (ha : authorized C (membershipAt t' governance now V leaf) (t'.op leaf) t'.owner governance = false) :
    leaf ∉ validityPass C t' governance now V := by
  rw [mem_validityPass, survives, ha, beq_false_of_ne hg.leaf_ne_genesisHash]
  simp

lemma live_eq (hV : leaf ∉ V) : t'.live V = t.live V := by
  rw [OpTree.live, OpTree.live, ← hg.order, filter_filter]
  apply filter_congr
  intro h _
  by_cases hh : h ∈ V
  · have hne : h ≠ leaf := fun heq => hV (heq ▸ hh)
    simp [hne]
  · simp [hh]

lemma live_past_eq (hh : h ∈ t.order) (V : Finset String) : t'.live (V ∩ t.past h) = t.live (V ∩ t.past h) :=
  hg.live_eq fun hc => hg.last h hh (Finset.mem_inter.mp hc).2

lemma survives_eq (hh : h ∈ t.order) (hV : leaf ∉ V) :
    survives C t' governance now V h = survives C t governance now V h :=
  hg.alike.survives_eq hh (hg.live_past_eq hh V) (hg.live_eq hV)

lemma mem_validityPass_iff (hV : leaf ∉ V) (hh : h ∈ t.order) :
    h ∈ validityPass C t' governance now V ↔ h ∈ validityPass C t governance now V := by
  rw [mem_validityPass, mem_validityPass, hg.survives_eq hh hV, and_iff_right (hg.mem_order.mp hh).1, and_iff_right hh]

lemma leaf_notMem_of_subset (hV : V ⊆ t.order.toFinset) : leaf ∉ V :=
  fun hl => (hg.mem_order.mp (mem_toFinset.mp (hV hl))).2 rfl

lemma mem_pass_leaf_or (hh : h ∈ validityPass C t' governance now V) :
    h ∈ t.order ∨ leaf ∈ validityPass C t' governance now V := by
  by_cases heq : h = leaf
  · exact Or.inr (heq ▸ hh)
  · exact Or.inl (hg.mem_order.mpr ⟨(mem_validityPass.mp hh).1, heq⟩)

lemma validityPass_eq (hV : V ⊆ t.order.toFinset) (hs : leaf ∉ validityPass C t' governance now V) :
    validityPass C t' governance now V = validityPass C t governance now V := by
  have hnot := hg.leaf_notMem_of_subset hV
  ext h
  constructor
  · intro hh
    rcases hg.mem_pass_leaf_or hh with hm | hc
    · exact (hg.mem_validityPass_iff hnot hm).mp hh
    · exact (hs hc).elim
  · intro hh
    exact (hg.mem_validityPass_iff hnot (mem_validityPass.mp hh).1).mpr hh

lemma validSet_eq_of_never (hnever : ∀ V, leaf ∉ validityPass C t' governance now V)
    (hac : Acyclic (validityPass C t governance now) t.order.toFinset) :
    validSet C t' governance now = validSet C t governance now := by
  have hsub : ∀ V, validityPass C t' governance now V ⊆ t.order.toFinset := by
    intro V h hh
    rcases hg.mem_pass_leaf_or hh with hm | hc
    · exact mem_toFinset.mpr hm
    · exact (hnever V hc).elim
  have hlen : t.order.length ≤ t'.order.length := by
    rw [← hg.order]
    exact length_filter_le _ _
  have hcard := toFinset_card_le t.order
  rw [validSet_eq_iterate, validSet_eq_iterate, iterate_restrict hsub fun V hV => hg.validityPass_eq hV (hnever V)]
  exact iterate_eq validityPass_subset hac (hsub _) subset_rfl (by omega) (by omega)

lemma order_subset : t.order.toFinset ⊆ t'.order.toFinset := by
  intro h hh
  exact mem_toFinset.mpr (hg.mem_order.mp (mem_toFinset.mp hh)).1

section

variable (hac : Acyclic (validityPass C t' governance now) t'.order.toFinset)
include hac

lemma acyclic_of_graft : Acyclic (validityPass C t governance now) t.order.toFinset :=
  hac.restrict hg.order_subset validityPass_subset fun _ hV _ hh =>
    hg.mem_validityPass_iff (hg.leaf_notMem_of_subset hV) (mem_toFinset.mp hh)

lemma validSet_eq_of_refused (href : leaf ∉ validityPass C t' governance now (validSet C t governance now)) :
    validSet C t' governance now = validSet C t governance now := by
  apply validSet_eq_of_fixed hac (validSet_subset.trans hg.order_subset)
  rw [hg.validityPass_eq validSet_subset href, validSet_fixed (hg.acyclic_of_graft hac)]

end

lemma deriveFrom_eq (hvalid : validSet C t' governance now = validSet C t governance now) (view : MembershipView) :
    deriveFrom C t' now governance view = deriveFrom C t now governance view := by
  have hnot : leaf ∉ validSet C t governance now := hg.leaf_notMem_of_subset validSet_subset
  rw [deriveFrom, hvalid, hg.alike.owner, hg.live_eq hnot, (hg.alike.live _).buildMembers_eq, deriveFrom]

end Grafts

section Log

variable {C : Crypto} {L : OpLog} {r : SignedMembershipOp} {anchor : Key32} {view : MembershipView}

lemma Extends.grafts {t t' : OpTree} {leaf : String} (he : Extends t t')
    (hnew : ∀ h ∈ t'.order, h ∉ t.order → h = leaf) (hleaf : leaf ∉ t.order) (hgen : t.genesisHash ∈ t.order)
    (hstrict : leaf ∉ t'.past leaf) : Grafts t t' leaf where
  alike := he.alike
  order := by
    refine (filter_congr fun h hh => ?_).trans he.order
    rw [decide_eq_decide]
    exact ⟨fun hne => by_contra fun hold => hne (hnew h hh hold), fun hh heq => hleaf (heq ▸ hh)⟩
  genesis := hgen
  last h hh hl := hleaf (he.closed h hh leaf hl)
  strict := hstrict

lemma anchoredTree_concat (view : MembershipView) (hc : CollisionFree C (L ++ [r])) (hgen : isGenesis anchor r = false)
    (hleaf : ∀ o ∈ L, o.op.prevHash ≠ r.chainHash C)
    (hhon : ∀ o ∈ L, honored C (buildRecoveryRegistry C (L ++ [r])) o = honored C (buildRecoveryRegistry C L) o) :
    anchoredTree C (visible C view (L ++ [r])) anchor = anchoredTree C (visible C view L) anchor ∨
      ∃ t t', anchoredTree C (visible C view L) anchor = some t ∧
        anchoredTree C (visible C view (L ++ [r])) anchor = some t' ∧ Grafts t t' (r.chainHash C) ∧
          t'.op (r.chainHash C) = r.op := by
  have hd : Detached C L [r] := ⟨hhon, by simpa using hleaf⟩
  obtain ⟨E', hE', hvis⟩ := visible_append view hhon
  have hcv : CollisionFree C (visible C view (L ++ [r])) := hc.filter _
  have hcf : CollisionFree C (visible C view L) := by
    rw [hvis] at hcv
    exact fun o ho o' ho' => hcv o (mem_append_left _ ho) o' (mem_append_left _ ho')
  have hfind : (visible C view (L ++ [r])).find? (isGenesis anchor) = (visible C view L).find? (isGenesis anchor) := by
    have hnone : E'.find? (isGenesis anchor) = none :=
      find?_eq_none.mpr fun o ho => by simp [mem_singleton.mp (hE'.subset ho), hgen]
    rw [hvis, find?_append, hnone, Option.or_none]
  by_cases hr : r ∈ visible C view (L ++ [r]) ∧ r ∉ visible C view L
  · cases ht : anchoredTree C (visible C view L) anchor with
    | none =>
      rw [anchoredTree, Option.map_eq_none_iff] at ht
      exact Or.inl (by rw [anchoredTree, hfind, ht]; rfl)
    | some t =>
      obtain ⟨t', ht', hext, hnew⟩ := anchoredTree_append hc hd ht
      have hfresh : r.chainHash C ∉ t.order := by
        intro hin
        obtain ⟨o, ho, heq, -⟩ := exists_op_of_mem_order hcf ht hin
        exact hr.2 (hc o (mem_append_left _ (mem_of_mem_filter ho)) r (by simp) heq ▸ ho)
      obtain ⟨g, hg, hgen, rfl⟩ := anchoredTree_root ht
      obtain ⟨g', hg', hgen', rfl⟩ := anchoredTree_root ht'
      have hroot := rooted_indexByHash hcf hg hgen
      refine Or.inr ⟨_, _, rfl, ht', hext.grafts (fun h hh hold => ?_) hfresh (hroot.mem_causalOrder.mpr ⟨0, rfl, hroot.mem⟩)
        ((rooted_indexByHash hcv hg' hgen').not_mem_past _), grow_op ((indexByHash_getElem? hcv).mpr ⟨hr.1, rfl⟩)⟩
      obtain ⟨e, he, rfl, -⟩ := hnew h hh hold
      rw [mem_singleton.mp he]
  · have hsame : SameRecords (visible C view L) (visible C view (L ++ [r])) := by
      intro o
      rw [hvis, mem_append, or_iff_left_iff_imp]
      intro ho
      obtain rfl := mem_singleton.mp (hE'.subset ho)
      exact by_contra fun hno => hr ⟨hvis ▸ mem_append_right _ ho, hno⟩
    exact Or.inl (by rw [anchoredTree, hfind, indexByHash_congr hcf hsame, anchoredTree])

end Log

end Mae.Sync.Membership
