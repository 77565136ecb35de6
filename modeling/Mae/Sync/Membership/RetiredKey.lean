import Mae.Sync.RebirthHash
import Mae.Sync.Membership.EncryptionLatch
import Mae.Sync.Membership.OwnerRemoval
import Mae.Sync.Membership.Stranger

/-! What a key can still change after its principal has rotated away from it. -/

namespace Mae.Sync.Membership

open Std (ExtTreeMap)
open Relation Library.Champion Library.Settling List

variable {C : Crypto} {L crypto : OpLog} {r : SignedMembershipOp} {anchor : Key32}

section Readers

def Unread (C : Crypto) (L : List SignedMembershipOp) (anchor : Key32) (r : SignedMembershipOp) : Prop :=
  r.op.author ∈ ownerChain C L anchor →
    r.op.action ≠ .setGovernance ∧ r.op.action ≠ .rebirth ∧ isBoundRebind C r = false ∧ r.op.wrappedKey = none
  deriving Decidable

lemma ownerPrincipalChain_concat {g : String}
    (hr : r.op.author ∈ ownerPrincipalChain C crypto g → isBoundRebind C r = false) :
    ownerPrincipalChain C (crypto ++ [r]) g = ownerPrincipalChain C crypto g := by
  ext p
  rw [mem_ownerPrincipalChain, mem_ownerPrincipalChain]
  constructor
  · intro hp
    induction hp with
    | refl => exact .refl
    | tail _ hs ih =>
      obtain ⟨o, ho, hb, rfl, rfl⟩ := hs
      rcases mem_append.mp ho with ho | ho
      · exact ih.tail ⟨o, ho, hb, rfl, rfl⟩
      · rw [mem_singleton.mp ho] at hb ih
        exact absurd hb (by simp [hr (mem_ownerPrincipalChain.mpr ih)])
  · exact ReflTransGen.mono (fun _ _ => Succeeds.mono fun o ho => mem_append_left _ ho) _ _

lemma foldl_causalOrder_concat {β : Type*} {g : SignedMembershipOp} (hc : CollisionFree C (crypto ++ [r]))
    (hg : g ∈ crypto) (hgen : isGenesis anchor g = true) (hleaf : ∀ o ∈ crypto, o.op.prevHash ≠ r.chainHash C)
    (f : β → MembershipOp → β) (hf : ∀ b, f b r.op = b) (b : β) :
    (causalOrder (indexByHash C (crypto ++ [r])) (g.chainHash C)).foldl
        (fun b h => f b (indexByHash C (crypto ++ [r]))[h]!.op) b =
      (causalOrder (indexByHash C crypto) (g.chainHash C)).foldl (fun b h => f b (indexByHash C crypto)[h]!.op) b := by
  have hcf : CollisionFree C crypto := fun o ho o' ho' =>
    hc o (mem_append_left _ ho) o' (mem_append_left _ ho')
  by_cases hmem : r ∈ crypto
  · have hsame : SameRecords crypto (crypto ++ [r]) := by
      intro o
      rw [mem_append, mem_singleton, or_iff_left_iff_imp]
      rintro rfl
      exact hmem
    rw [indexByHash_congr hcf hsame]
  · have hfresh : r.chainHash C ∉ indexByHash C crypto := by
      rw [mem_indexByHash]
      rintro ⟨o, ho, heq⟩
      exact hmem (hc o (mem_append_left _ ho) r (by simp) heq ▸ ho)
    have hroot := rooted_indexByHash hcf hg hgen
    rw [indexByHash_concat, ← causalOrder_insert_leaf (fun h o ho => hleaf o (indexByHash_sound ho).1) hroot
      hfresh (chainHash_ne_empty r), ← foldl_filter_of_fixed]
    · apply foldl_ext
      intro b h hh
      have hne : h ≠ r.chainHash C := of_decide_eq_true (mem_filter.mp hh).2
      simp only [ExtTreeMap.getElem!_eq_get!_getElem?, getElem?_insert_leaf hne]
    · intro b
      simp [hf]

variable (hc : CollisionFree C (L ++ [r])) (hgen : isGenesis anchor r = false)
  (hleaf : ∀ o ∈ L, o.op.prevHash ≠ r.chainHash C)
  (hreg : buildRecoveryRegistry C (L ++ [r]) = buildRecoveryRegistry C L) (hun : Unread C L anchor r)
include hreg in
lemma cryptoValid_concat : cryptoValid C (L ++ [r]) = cryptoValid C L ∨ cryptoValid C (L ++ [r]) = cryptoValid C L ++ [r] := by
  obtain ⟨E', hE', hvis⟩ := visible_append {} fun o (_ : o ∈ L) => by rw [hreg]
  simp only [visible_default] at hvis
  rcases sublist_singleton.mp hE' with rfl | rfl
  · exact Or.inl (hvis.trans (append_nil _))
  · exact Or.inr hvis

include hc hgen hleaf hreg hun

lemma ownerReaders_concat : deriveGovernance C (L ++ [r]) anchor = deriveGovernance C L anchor ∧
      deriveRebirths C (L ++ [r]) anchor = deriveRebirths C L anchor ∧
        ∀ fp, findWrappedContentKey C (L ++ [r]) anchor fp = findWrappedContentKey C L anchor fp := by
  rcases cryptoValid_concat hreg with hcv | hcv
  · simp only [deriveGovernance, deriveRebirths, findWrappedContentKey, hcv, implies_true, and_self]
  have hsub : ∀ o ∈ cryptoValid C L, o ∈ L := fun o ho => mem_of_mem_filter ho
  have hcf : CollisionFree C (cryptoValid C L ++ [r]) := by
    rw [← hcv]
    exact hc.filter _
  have hfind : genesisRecord (cryptoValid C L ++ [r]) anchor = genesisRecord (cryptoValid C L) anchor := by
    rw [genesisRecord, find?_append, find?_singleton, hgen]
    simp [genesisRecord]
  cases hg : genesisRecord (cryptoValid C L) anchor with
  | none => simp only [deriveGovernance, deriveRebirths, findWrappedContentKey, hcv, hfind, hg, implies_true, and_self]
  | some g =>
    have hgmem := mem_of_find?_eq_some hg
    have hggen := find?_some hg
    have hchain : r.op.author ∈ ownerPrincipalChain C (cryptoValid C L) g.op.subject →
        r.op.action ≠ .setGovernance ∧ r.op.action ≠ .rebirth ∧ isBoundRebind C r = false ∧ r.op.wrappedKey = none := by
      rw [genesisRecord_subject hg]
      exact hun
    have howners := ownerPrincipalChain_concat fun hr => (hchain hr).2.2.1
    simp only [deriveGovernance, deriveRebirths, findWrappedContentKey, hcv, hfind, hg, howners]
    refine ⟨?_, ?_, fun fp => ?_⟩
    · refine foldl_causalOrder_concat hcf hgmem hggen (fun o ho => hleaf o (hsub o ho))
        (fun gov o => if o.action = .setGovernance ∧ o.author ∈ ownerPrincipalChain C (cryptoValid C L) g.op.subject
          then (Governance.parseSpec o.subject).getD gov else gov) (fun gov => if_neg ?_) .singleOwner
      exact fun hr => (hchain hr.2).1 hr.1
    · have hskip : (r.op.action == .rebirth &&
          decide (r.op.author ∈ ownerPrincipalChain C (cryptoValid C L) g.op.subject)) = false := by
        rw [← Bool.not_eq_true, Bool.and_eq_true, beq_iff_eq, decide_eq_true_eq]
        exact fun hr => (hchain hr.2).2.1 hr.1
      simp [hskip]
    · refine foldl_causalOrder_concat hcf hgmem hggen (fun o ho => hleaf o (hsub o ho))
        (fun latest o => if o.author ∈ ownerPrincipalChain C (cryptoValid C L) g.op.subject ∧ o.subject = fp
          then o.wrappedKey.or latest else latest) (fun latest => ?_) none
      split_ifs with hr
      · rw [(hchain hr.1).2.2.2, Option.none_or]
      · rfl

end Readers

section Members

variable {t t' : OpTree} {governance : Governance} {now : UInt64} {R : SignedMembershipOp} {p : String}

def Links (C : Crypto) (L : List SignedMembershipOp) (o o' : SignedMembershipOp) : Prop :=
  o' ∈ L ∧ o.op.prevHash = o'.chainHash C

lemma carried_ne {hs : List String} (hno : ∀ h ∈ hs, (t.op h).action = .rebind → (t.op h).subject ≠ p) {q : String}
    (hq : q ≠ p) : carried t hs q ≠ p := by
  rcases carried_eq_or hs q with heq | ⟨h, hh, hact, heq⟩
  · rwa [heq]
  · rw [heq]
    exact hno h hh hact

lemma not_mem_buildMembers_of_rebind {live : List String} {h : String} (hh : h ∈ live)
    (hact : (t.op h).action = .rebind) (hauthor : (t.op h).author = p)
    (hno : ∀ k ∈ live, (t.op k).action = .rebind → (t.op k).subject ≠ p) :
    p ∉ buildMembers t governance now live := by
  intro hp
  obtain ⟨q, -, hq⟩ := (mem_foldl_rebindStep _ _ _).mp hp
  obtain ⟨pre, post, rfl⟩ := append_of_mem hh
  have hstep : carried t (pre ++ [h]) q ≠ p := by
    rw [carried_concat, carryStep, move]
    split_ifs with heq
    · exact hno h hh hact
    · exact fun hc => heq (hc.trans hauthor.symm)
  rw [append_cons, carried_append] at hq
  exact carried_ne (fun k hk => hno k (by simp [hk])) hstep hq

lemma mem_lineage_of_links {byHash : OpIndex} {g : String} (hr : Rooted byHash g)
    (hget : ∀ o ∈ L, o.chainHash C ∈ byHash → byHash[o.chainHash C]? = some o) {o : SignedMembershipOp} {k : ℕ}
    (ho : byHash[o.chainHash C]? = some o) (hd : AtDepth byHash g k (o.chainHash C))
    (hpath : TransGen (Links C L) o R) : R.chainHash C ∈ lineage byHash k (o.chainHash C) := by
  have hnext : ∀ {o o' : SignedMembershipOp} {k : ℕ}, byHash[o.chainHash C]? = some o →
      AtDepth byHash g k (o.chainHash C) → Links C L o o' → ∃ j, k = j + 1 ∧
        AtDepth byHash g j (o'.chainHash C) ∧ byHash[o'.chainHash C]? = some o' ∧
          lineage byHash k (o.chainHash C) = insert (o'.chainHash C) (lineage byHash j (o'.chainHash C)) := by
    intro o o' k ho hd hl
    have hparent : parentHash byHash (o.chainHash C) = o'.chainHash C := (parentHash_eq ho).trans hl.2
    cases k with
    | zero =>
      obtain ⟨root, hroot, hempty⟩ := hr.root
      rw [← hd.1, ho] at hroot
      cases hroot
      exact absurd (hl.2.symm.trans hempty) (chainHash_ne_empty o')
    | succ k =>
      have hd' := hd.parent
      rw [hparent] at hd'
      exact ⟨k, rfl, hd', hget o' hl.1 hd'.mem, by rw [lineage, hparent]⟩
  induction hpath using TransGen.head_induction_on generalizing k with
  | single hl =>
    obtain ⟨j, rfl, -, -, hline⟩ := hnext ho hd hl
    rw [hline]
    exact Finset.mem_insert_self _ _
  | head hl _ ih =>
    obtain ⟨j, rfl, hd', ho', hline⟩ := hnext ho hd hl
    rw [hline]
    exact Finset.mem_insert_of_mem (ih ho' hd')

lemma mem_past_of_links (hc : CollisionFree C (L ++ [r])) (hsub : ∀ o ∈ crypto, o ∈ L ++ [r]) (hr : r ∈ crypto)
    (ht : anchoredTree C crypto anchor = some t) (hmem : r.chainHash C ∈ t.order) (hpath : TransGen (Links C L) r R) :
    R.chainHash C ∈ t.past (r.chainHash C) := by
  have hcf : CollisionFree C crypto := fun o ho o' ho' => hc o (hsub o ho) o' (hsub o' ho')
  obtain ⟨g, hg, hgen, rfl⟩ := anchoredTree_root ht
  have hroot := rooted_indexByHash hcf hg hgen
  obtain ⟨k, hd⟩ := hroot.mem_causalOrder.mp hmem
  rw [grow_past hroot hd]
  refine mem_lineage_of_links hroot (fun o ho hin => ?_) ((indexByHash_getElem? hcf).mpr ⟨hr, rfl⟩) hd hpath
  obtain ⟨o', ho', heq⟩ := mem_indexByHash.mp hin
  have hoo := hc o' (hsub o' ho') o (mem_append_left _ ho) heq
  exact (indexByHash_getElem? hcf).mpr ⟨hoo ▸ ho', rfl⟩

end Members

def rotatedEditorLog : List SignedMembershipOp :=
  [sampleGenesis,
    sampleSigned 2 'o' { sampleOp (sampleHash 1) 'o' .admits (sampleFp 'm') (some .editor) with canInvite := true },
    sampleSigned 3 'm' (sampleRebind (sampleHash 2) 'm' 'n')]

end Mae.Sync.Membership
