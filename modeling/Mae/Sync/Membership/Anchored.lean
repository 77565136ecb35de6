import Mae.Sync.Membership.CausalTree
import Mae.Sync.Membership.Registry

/-! The index of a log and the tree that an anchored genesis roots in it. -/

namespace Mae.Sync.Membership

open Std ExtTreeMap List OpTree

variable {C : Crypto} {crypto : OpLog}

lemma chainHash_ne_empty (o : SignedMembershipOp) : o.chainHash C ≠ "" := by
  obtain ⟨b, bs, hb⟩ := exists_cons_of_ne_nil (C.sha256_ne_nil (o.op.canonicalBytes ++ o.sig))
  intro he
  have hnil : (o.chainHash C).toList = [] := by rw [he]; rfl
  simp [SignedMembershipOp.chainHash, MembershipOp.chainHash, hexEncode, hb] at hnil

lemma indexByHash_concat (l : OpLog) (o : SignedMembershipOp) :
    indexByHash C (l ++ [o]) = (indexByHash C l).insert (o.chainHash C) o := by
  simp [indexByHash]

variable {o : SignedMembershipOp}

lemma indexByHash_sound {h : String} (ho : (indexByHash C crypto)[h]? = some o) : o ∈ crypto ∧ o.chainHash C = h := by
  induction crypto using List.reverseRecOn with
  | nil => simp [indexByHash] at ho
  | append_singleton l o' ih =>
    rw [indexByHash_concat, ExtTreeMap.getElem?_insert] at ho
    split_ifs at ho with heq
    · cases ho
      exact ⟨by simp, Std.compare_eq_iff_eq.mp heq⟩
    · exact ⟨mem_append_left _ (ih ho).1, (ih ho).2⟩

lemma mem_indexByHash {h : String} : h ∈ indexByHash C crypto ↔ ∃ o ∈ crypto, o.chainHash C = h := by
  induction crypto using List.reverseRecOn with
  | nil => simp [indexByHash]
  | append_singleton l o ih =>
    rw [indexByHash_concat, mem_insert, Std.compare_eq_iff_eq, ih]
    constructor
    · rintro (heq | ⟨o', ho', heq⟩)
      · exact ⟨o, by simp, heq⟩
      · exact ⟨o', mem_append_left _ ho', heq⟩
    · rintro ⟨o', ho', heq⟩
      rcases mem_append.mp ho' with ho' | ho'
      · exact Or.inr ⟨o', ho', heq⟩
      · exact Or.inl (mem_singleton.mp ho' ▸ heq)

lemma indexByHash_getElem? (hc : CollisionFree C crypto) {h : String} :
    (indexByHash C crypto)[h]? = some o ↔ o ∈ crypto ∧ o.chainHash C = h := by
  refine ⟨indexByHash_sound, ?_⟩
  rintro ⟨ho, rfl⟩
  have hmem : o.chainHash C ∈ indexByHash C crypto := mem_indexByHash.mpr ⟨o, ho, rfl⟩
  obtain ⟨o', ho'⟩ := Option.isSome_iff_exists.mp (mem_iff_isSome_getElem?.mp hmem)
  obtain ⟨hm, heq⟩ := indexByHash_sound ho'
  rw [ho', hc o' hm o ho heq]

lemma indexByHash_congr {crypto' : OpLog} (hc : CollisionFree C crypto)
    (hs : SameRecords crypto crypto') : indexByHash C crypto' = indexByHash C crypto := by
  apply ExtTreeMap.ext_getElem?
  intro h
  ext o
  rw [indexByHash_getElem? (hc.congr hs), indexByHash_getElem? hc, hs o]

lemma rooted_indexByHash {anchor : Key32} {g : SignedMembershipOp} (hc : CollisionFree C crypto)
    (hg : g ∈ crypto) (hgen : isGenesis anchor g = true) : Rooted (indexByHash C crypto) (g.chainHash C) where
  root := ⟨g, (indexByHash_getElem? hc).mpr ⟨hg, rfl⟩, (isGenesis_iff.mp hgen).1⟩
  noEmpty := by
    rw [mem_indexByHash]
    rintro ⟨o, _, ho⟩
    exact chainHash_ne_empty o ho

lemma mem_visible {ops : OpLog} {view : MembershipView} : o ∈ visible C view ops ↔
      o ∈ ops ∧ honored C (buildRecoveryRegistry C ops) o = true ∧ o.op.author ∉ view.blocklist := by
  simp [visible]

lemma visible_default (ops : OpLog) : visible C {} ops = cryptoValid C ops := by
  simp [visible, cryptoValid]

section Tree

variable {byHash : OpIndex} {g : String}

lemma getElem?_ancestorIndex (order : List String) (h : String) :
    (ancestorIndex byHash order)[h]? = if h ∈ order then some (ancestors byHash h) else none := by
  induction order using List.reverseRecOn with
  | nil => simp [ancestorIndex]
  | append_singleton order k ih =>
    have hstep : ancestorIndex byHash (order ++ [k]) =
        (ancestorIndex byHash order).insert k (ancestors byHash k) := by simp [ancestorIndex]
    rw [hstep, ExtTreeMap.getElem?_insert, ih]
    by_cases hk : k = h
    · simp [hk]
    · simp [hk, Ne.symm hk]

lemma grow_past (hr : Rooted byHash g) {k : ℕ} {h : String} (hd : AtDepth byHash g k h) :
    (grow byHash g).past h = lineage byHash k h := by
  have hm : h ∈ causalOrder byHash g := hr.mem_causalOrder.mpr ⟨k, hd⟩
  rw [past, grow, getElem?_ancestorIndex, if_pos hm, Option.getD_some, hr.ancestors_eq hd]

lemma Rooted.not_mem_past (hr : Rooted byHash g) (h : String) : h ∉ (grow byHash g).past h := by
  by_cases hm : h ∈ causalOrder byHash g
  · obtain ⟨k, hd⟩ := hr.mem_causalOrder.mp hm
    rw [grow_past hr hd]
    exact hr.not_mem_lineage hd
  · rw [past, grow, getElem?_ancestorIndex, if_neg hm]
    simp

lemma grow_op {h : String} {o : SignedMembershipOp} (ho : byHash[h]? = some o) : (grow byHash g).op h = o.op := by
  simp [op, grow, getElem!_eq_get!_getElem?, ho]

end Tree

section AnchoredTree

variable {anchor : Key32} {t : OpTree}

lemma anchoredTree_root (ht : anchoredTree C crypto anchor = some t) :
    ∃ g ∈ crypto, isGenesis anchor g = true ∧ t = grow (indexByHash C crypto) (g.chainHash C) := by
  rw [anchoredTree, Option.map_eq_some_iff] at ht
  obtain ⟨g, hg, rfl⟩ := ht
  exact ⟨g, mem_of_find?_eq_some hg, find?_some hg, rfl⟩

variable (hc : CollisionFree C crypto) (ht : anchoredTree C crypto anchor = some t)
include hc ht

lemma op_genesisHash :
    ∃ g ∈ crypto, isGenesis anchor g = true ∧ g.chainHash C = t.genesisHash ∧ t.op t.genesisHash = g.op := by
  obtain ⟨g, hg, hgen, rfl⟩ := anchoredTree_root ht
  exact ⟨g, hg, hgen, rfl, grow_op ((indexByHash_getElem? hc).mpr ⟨hg, rfl⟩)⟩

lemma exists_op_of_mem_order {h : String} (hh : h ∈ t.order) : ∃ o ∈ crypto, o.chainHash C = h ∧ t.op h = o.op := by
  obtain ⟨g, hg, hgen, rfl⟩ := anchoredTree_root ht
  obtain ⟨k, hd⟩ := (rooted_indexByHash hc hg hgen).mem_causalOrder.mp hh
  obtain ⟨o, ho, rfl⟩ := mem_indexByHash.mp hd.mem
  exact ⟨o, ho, rfl, grow_op ((indexByHash_getElem? hc).mpr ⟨ho, rfl⟩)⟩

end AnchoredTree

lemma owner_eq_fingerprint {ops : OpLog} {view : MembershipView} {anchor : Key32} {t : OpTree}
    (hc : CollisionFree C ops) (ht : anchoredTree C (visible C view ops) anchor = some t) :
    t.owner = fingerprintOf C anchor := by
  obtain ⟨g, hg, hgen, _, hop⟩ := op_genesisHash (hc.filter _) ht
  rw [owner, hop, genesis_subject hgen (mem_visible.mp hg).2.1]

end Mae.Sync.Membership
