import Mae.Sync.Membership.Anchored
import Mae.Sync.Membership.Readers
import Mae.Sync.Membership.SignedBytes

/-! Records with the same signature over the same bytes, and the readers of the logs that hold them. -/

namespace Mae.Sync.Membership

open Std ExtTreeMap List Option MembershipOp

structure StandsFor (o o' : SignedMembershipOp) : Prop where
  sig : o'.sig = o.sig
  authorPubkey : o'.authorPubkey = o.authorPubkey
  bytes : o'.op.canonicalBytes = o.op.canonicalBytes
  prevHash : o'.op.prevHash = o.op.prevHash
  issuedAt : o'.op.issuedAt = o.op.issuedAt
  alike : Alike o.op o'.op

lemma standsFor_of_bytes {a b : SignedMembershipOp} (hsig : a.sig = b.sig) (hkey : a.authorPubkey = b.authorPubkey)
    (hbytes : a.op.canonicalBytes = b.op.canonicalBytes) (ha : a.op.NulFree) (hb : b.op.NulFree) : StandsFor a b := by
  have hfields := fields_of_bytes ha.canonicalFields hb.canonicalFields hbytes
  obtain ⟨⟨_, _, _, _, _, hissued, _, _, hprev⟩, _⟩ := common_of_canonicalFields hfields
  exact ⟨hsig.symm, hkey.symm, hbytes.symm, hprev, hissued, alike_of_canonicalFields hfields⟩

namespace StandsFor

variable {C : Crypto} {o o' : SignedMembershipOp}

lemma refl (o : SignedMembershipOp) : StandsFor o o := ⟨rfl, rfl, rfl, rfl, rfl, Alike.refl o.op⟩

variable (hs : StandsFor o o')
include hs

lemma chainHash_eq : o'.chainHash C = o.chainHash C := by
  rw [SignedMembershipOp.chainHash, chainHash, hs.bytes, hs.sig]
  rfl

lemma verify_eq : o'.op.verify C o'.sig o'.authorPubkey = o.op.verify C o.sig o.authorPubkey := by
  rw [verify, hs.bytes, hs.sig, hs.authorPubkey, verify]

lemma verifySigned_eq : o'.verifySigned C = o.verifySigned C := by
  rw [SignedMembershipOp.verifySigned, hs.verify_eq, fingerprintMatches, hs.authorPubkey, hs.alike.author]
  rfl

lemma honored_eq (registry : RecoveryRegistry) : honored C registry o' = honored C registry o := by
  rw [honored, hs.verifySigned_eq, isRecoverySignedRebind, hs.verify_eq, hs.authorPubkey, hs.alike.action,
    hs.alike.author]
  rfl

lemma isGenesis_eq (anchor : Key32) : isGenesis anchor o' = isGenesis anchor o := by
  rw [isGenesis, hs.prevHash, hs.alike.action, hs.alike.subject, hs.alike.author, hs.authorPubkey, isGenesis]

lemma registryStep_eq (s : RegistryScan) : registryStep C s o' = registryStep C s o := by
  have hreg : isRegistration C o' = isRegistration C o := by
    rw [isRegistration, hs.alike.action, hs.alike.author, hs.alike.subject, hs.verifySigned_eq, isRegistration]
  have hrank : rankOf C o' = rankOf C o := by rw [rankOf, hs.issuedAt, hs.chainHash_eq, rankOf]
  rw [registryStep, registryStep, hreg, hrank, hs.alike.subject]
  by_cases hc : isRegistration C o = true
  · have hact : o.op.action = .registerRecoveryKey := by
      simp only [isRegistration, Bool.and_eq_true, beq_iff_eq] at hc
      exact hc.1.1
    rw [hs.alike.recoveryPubkey hact]
  · rw [if_neg hc, if_neg hc]

lemma chainStep_eq (s : Finset String × Bool) : chainStep C s o' = chainStep C s o := by
  have hbound : isBoundRebind C o' = isBoundRebind C o := by
    rw [isBoundRebind, isBoundRebind, hs.alike.action, hs.alike.subject, hs.alike.author]
    by_cases hact : o.op.action = .rebind
    · rw [hs.alike.newPubkey hact]
    · rw [beq_false_of_ne hact]
      rfl
  rw [chainStep, hbound, hs.alike.subject, hs.alike.author, chainStep]

lemma rebirthStep_eq (hact : o.op.action = .rebirth) (out : Rebirths) : rebirthStep out o' = rebirthStep out o := by
  rw [rebirthStep, hs.alike.contentHash hact, hs.alike.subject, hs.alike.epoch, rebirthStep]

end StandsFor

section Index

variable {byHash : OpIndex} {f : SignedMembershipOp → SignedMembershipOp}

lemma getElem!_map_of_rel (byHash : OpIndex) {R : SignedMembershipOp → SignedMembershipOp → Prop} {h : String}
    (hdefault : R default default) (hR : ∀ o, byHash[h]? = some o → R o (f o)) :
    R byHash[h]! (byHash.map fun _ o => f o)[h]! := by
  rw [getElem!_eq_get!_getElem?, getElem!_eq_get!_getElem?, ExtTreeMap.getElem?_map]
  cases ho : byHash[h]? with
  | none => exact hdefault
  | some o => exact hR o ho

variable (hf : ∀ o, StandsFor o (f o))
include hf

lemma alike_getElem! (byHash : OpIndex) (h : String) : Alike byHash[h]!.op (byHash.map fun _ o => f o)[h]!.op :=
  getElem!_map_of_rel byHash (R := fun o o' => Alike o.op o'.op) (Alike.refl _) fun o _ => (hf o).alike

lemma parentHash_map (h : String) : parentHash (byHash.map fun _ o => f o) h = parentHash byHash h := by
  rw [parentHash, ExtTreeMap.getElem?_map, Option.map_map]
  congr 2
  funext o
  exact (hf o).prevHash

lemma ancestorsLoop_map (fuel : ℕ) (cur : String) (set : Finset String) :
    ancestorsLoop (byHash.map fun _ o => f o) fuel cur set = ancestorsLoop byHash fuel cur set := by
  induction fuel generalizing cur set with
  | zero => rfl
  | succ fuel ih =>
    rw [ancestorsLoop, ancestorsLoop, ExtTreeMap.getElem?_map]
    cases byHash[cur]? with
    | none => rfl
    | some r => simp only [map_some, (hf r).prevHash, ih]

lemma ancestors_map (h : String) : ancestors (byHash.map fun _ o => f o) h = ancestors byHash h := by
  rw [ancestors, parentHash_map hf, ancestorsLoop_map hf, size_map, ancestors]

lemma childIndex_map : childIndex (byHash.map fun _ o => f o) = childIndex byHash := by
  rw [childIndex, childIndex, foldl_eq_foldl_toList, foldl_eq_foldl_toList, ExtTreeMap.toList_map, foldl_map]
  apply foldl_ext
  intro m p _
  simp only [(hf p.2).prevHash]

lemma causalOrder_map (g : String) : causalOrder (byHash.map fun _ o => f o) g = causalOrder byHash g := by
  simp only [causalOrder, childIndex_map hf, size_map, ExtTreeMap.mem_map]

lemma treesAlike_map (g : String) (hroot : ∀ o, byHash[g]? = some o → (f o).op.replication = o.op.replication) :
    TreesAlike (OpTree.grow byHash g) (OpTree.grow (byHash.map fun _ o => f o) g) (causalOrder byHash g) where
  genesisHash := rfl
  owner := (alike_getElem! hf byHash g).subject
  rootReplication := getElem!_map_of_rel byHash (R := fun o o' => o'.op.replication = o.op.replication) rfl hroot
  op h _ := alike_getElem! hf byHash h
  past h _ := by
    simp only [OpTree.past, OpTree.grow, getElem?_ancestorIndex, causalOrder_map hf, ancestors_map hf]

end Index

section Log

variable {C : Crypto} {f : SignedMembershipOp → SignedMembershipOp} (hf : ∀ o, StandsFor o (f o))
include hf

lemma registry_map (L : OpLog) : buildRecoveryRegistry C (L.map f) = buildRecoveryRegistry C L := by
  rw [buildRecoveryRegistry, foldl_map]
  congr 1
  exact foldl_ext _ _ _ fun s o _ => (hf o).registryStep_eq s

lemma cryptoValid_map (L : OpLog) : cryptoValid C (L.map f) = (cryptoValid C L).map f := by
  rw [cryptoValid, List.filter_map, registry_map hf]
  congr 1
  exact filter_congr fun o _ => (hf o).honored_eq _

lemma visible_map (view : MembershipView) (L : OpLog) :
    visible C view (L.map f) = (visible C view L).map f := by
  rw [visible, List.filter_map, registry_map hf]
  congr 1
  apply filter_congr
  intro o _
  rw [Function.comp_apply, (hf o).honored_eq, (hf o).alike.author]

lemma find?_isGenesis_map (anchor : Key32) (l : OpLog) :
    (l.map f).find? (isGenesis anchor) = (l.find? (isGenesis anchor)).map f := by
  rw [find?_map]
  congr 2
  funext o
  exact (hf o).isGenesis_eq anchor

lemma indexByHash_map (l : OpLog) :
    indexByHash C (l.map f) = (indexByHash C l).map fun _ o => f o := by
  induction l using List.reverseRecOn with
  | nil => exact ExtTreeMap.ext_getElem? fun h => by simp [indexByHash]
  | append_singleton l o ih =>
    rw [map_append, map_singleton, indexByHash_concat, ih, indexByHash_concat, (hf o).chainHash_eq]
    apply ExtTreeMap.ext_getElem?
    intro h
    rw [ExtTreeMap.getElem?_insert, ExtTreeMap.getElem?_map, ExtTreeMap.getElem?_map, ExtTreeMap.getElem?_insert]
    split_ifs <;> rfl

lemma ownerPrincipalChain_map (l : OpLog) (owner : String) :
    ownerPrincipalChain C (l.map f) owner = ownerPrincipalChain C l owner := by
  have hloop : ∀ n chain, chainLoop C (l.map f) n chain = chainLoop C l n chain := by
    intro n
    induction n with
    | zero => exact fun _ => rfl
    | succ n ih =>
      intro chain
      have hscan : (l.map f).foldl (chainStep C) (chain, false) = l.foldl (chainStep C) (chain, false) := by
        rw [foldl_map]
        exact foldl_ext _ _ _ fun s o _ => (hf o).chainStep_eq s
      simp only [chainLoop, hscan, ih]
  rw [ownerPrincipalChain, length_map, hloop, ownerPrincipalChain]

end Log

section Readers

variable {C : Crypto} {anchor : Key32} {f : SignedMembershipOp → SignedMembershipOp} {L : OpLog}
variable (hf : ∀ o, StandsFor o (f o))
include hf

lemma genesisRecord_map :
    genesisRecord (cryptoValid C (L.map f)) anchor = (genesisRecord (cryptoValid C L) anchor).map f := by
  rw [genesisRecord, cryptoValid_map hf, find?_isGenesis_map hf, genesisRecord]

lemma deriveValidMembersGoverned_map (hroot : ∀ g ∈ L, isGenesis anchor g = true → ∀ o,
    o.chainHash C = g.chainHash C → (f o).op.replication = o.op.replication) (now : UInt64) (governance : Governance)
    (view : MembershipView) : deriveValidMembersGoverned C (L.map f) anchor now governance view =
      deriveValidMembersGoverned C L anchor now governance view := by
  rw [deriveValidMembersGoverned, anchoredTree, visible_map hf, find?_isGenesis_map hf, indexByHash_map hf,
    deriveValidMembersGoverned, anchoredTree]
  cases hg : (visible C view L).find? (isGenesis anchor) with
  | none => rfl
  | some g =>
    have hgmem : g ∈ L := List.mem_of_mem_filter (mem_of_find?_eq_some hg)
    simp only [map_some, (hf g).chainHash_eq]
    refine (treesAlike_map hf _ fun o ho => ?_).deriveFrom_eq (causalOrder_map hf _) view
    exact hroot g hgmem (find?_some hg) o (indexByHash_sound ho).2

lemma deriveGovernance_map : deriveGovernance C (L.map f) anchor = deriveGovernance C L anchor := by
  rw [deriveGovernance, genesisRecord_map hf, deriveGovernance]
  cases genesisRecord (cryptoValid C L) anchor with
  | none => rfl
  | some g =>
    simp only [map_some, cryptoValid_map hf, indexByHash_map hf, causalOrder_map hf, ownerPrincipalChain_map hf,
      (hf g).chainHash_eq, (hf g).alike.subject]
    apply foldl_ext
    intro gov h _
    have ha := alike_getElem! hf (indexByHash C (cryptoValid C L)) h
    simp only [ha.action, ha.author, ha.subject]

lemma deriveEncryption_map : deriveEncryption C (L.map f) anchor = deriveEncryption C L anchor := by
  rw [deriveEncryption, genesisRecord_map hf, deriveEncryption]
  cases genesisRecord (cryptoValid C L) anchor with
  | none => rfl
  | some g =>
    simp only [map_some, cryptoValid_map hf, ownerPrincipalChain_map hf, (hf g).alike.subject, List.any_map,
      Function.comp_def, (hf _).alike.action, (hf _).alike.author, (hf _).alike.subject]

lemma deriveRebirths_map : deriveRebirths C (L.map f) anchor = deriveRebirths C L anchor := by
  rw [deriveRebirths, genesisRecord_map hf, deriveRebirths]
  cases genesisRecord (cryptoValid C L) anchor with
  | none => rfl
  | some g =>
    simp only [map_some, cryptoValid_map hf, ownerPrincipalChain_map hf, (hf g).alike.subject, List.filter_map,
      Function.comp_def, (hf _).alike.action, (hf _).alike.author, foldl_map]
    apply foldl_ext
    intro out o ho
    rw [List.mem_filter, Bool.and_eq_true, beq_iff_eq] at ho
    exact (hf o).rebirthStep_eq ho.2.1 out

lemma findWrappedContentKey_map (hwrap : ∀ o, (f o).op.wrappedKey = o.op.wrappedKey) (fp : String) :
    findWrappedContentKey C (L.map f) anchor fp = findWrappedContentKey C L anchor fp := by
  rw [findWrappedContentKey, genesisRecord_map hf, findWrappedContentKey]
  cases genesisRecord (cryptoValid C L) anchor with
  | none => rfl
  | some g =>
    simp only [map_some, cryptoValid_map hf, indexByHash_map hf, causalOrder_map hf, ownerPrincipalChain_map hf,
      (hf g).chainHash_eq, (hf g).alike.subject]
    apply foldl_ext
    intro latest h _
    have ha := alike_getElem! hf (indexByHash C (cryptoValid C L)) h
    have hw := getElem!_map_of_rel (indexByHash C (cryptoValid C L)) (h := h)
      (R := fun o o' => o'.op.wrappedKey = o.op.wrappedKey) rfl fun o _ => hwrap o
    simp only [ha.author, ha.subject, hw]

lemma hadFullReplicationWindow_map (hroot : ∀ g ∈ L, isGenesis anchor g = true → ∀ o,
    o.chainHash C = g.chainHash C → (f o).op.replication = o.op.replication) (principal : String) :
    hadFullReplicationWindow C (L.map f) anchor principal = hadFullReplicationWindow C L anchor principal := by
  have hhist : replicationHistory C (L.map f) anchor principal = replicationHistory C L anchor principal := by
    rw [replicationHistory, genesisRecord_map hf, replicationHistory]
    cases hg : genesisRecord (cryptoValid C L) anchor with
    | none => rfl
    | some g =>
      have hgmem : g ∈ L := List.mem_of_mem_filter (mem_of_find?_eq_some hg)
      simp only [map_some, cryptoValid_map hf, indexByHash_map hf, causalOrder_map hf, (hf g).chainHash_eq]
      apply filterMap_congr
      intro h _
      have ha := alike_getElem! hf (indexByHash C (cryptoValid C L)) h
      simp only [ha.action, ha.subject]
      split_ifs with hc
      · rcases hc.2 with rfl | hact
        · congr 1
          apply getElem!_map_of_rel _ (R := fun o o' => o'.op.replication = o.op.replication) rfl
          exact fun o ho => hroot g hgmem (find?_some hg) o (indexByHash_sound ho).2
        · rw [ha.replication hact]
      · rfl
  rw [hadFullReplicationWindow, hhist, hadFullReplicationWindow]

end Readers

def Replaces (a b : SignedMembershipOp) (L L' : List SignedMembershipOp) : Prop :=
  Forall₂ (fun o o' => o' = o ∨ o = a ∧ o' = b) L L'

def WrapCovered (a b : MembershipOp) : Prop :=
  a.wrappedKey = b.wrappedKey ∨ a.action ≠ .rebind ∧ a.action ≠ .registerRecoveryKey ∧
    (a.replication = .queryOnly → a.wrappedKey ≠ some [] ∧ b.wrappedKey ≠ some [])

section Swap

variable {a b : SignedMembershipOp} {L L' : OpLog}

def swap (a b o : SignedMembershipOp) : SignedMembershipOp := if o = a then b else o

lemma standsFor_swap (hab : StandsFor a b) (o : SignedMembershipOp) : StandsFor o (swap a b o) := by
  rw [swap]
  split_ifs with ho
  · exact ho ▸ hab
  · exact StandsFor.refl o

lemma Replaces.map_swap (hr : Replaces a b L L') : L'.map (swap a b) = L.map (swap a b) := by
  induction hr with
  | nil => rfl
  | cons ho _ ih =>
    rw [map_cons, ih]
    rcases ho with rfl | ⟨rfl, rfl⟩
    · rfl
    · simp [swap]

lemma Replaces.mem_or_eq (hr : Replaces a b L L') {o : SignedMembershipOp} (ho : o ∈ L') : o ∈ L ∨ o = b := by
  induction hr with
  | nil => simp at ho
  | cons hrel _ ih =>
    rcases mem_cons.mp ho with rfl | ho
    · rcases hrel with rfl | ⟨_, rfl⟩
      · exact Or.inl mem_cons_self
      · exact Or.inr rfl
    · exact (ih ho).imp_left (mem_cons_of_mem _)

lemma replication_swap {C : Crypto} {anchor : Key32} (hab : StandsFor a b)
    (hgen : ∀ g ∈ L, isGenesis anchor g = true → g.chainHash C = a.chainHash C → a.op.action = .admits) :
    ∀ g ∈ L, isGenesis anchor g = true → ∀ o, o.chainHash C = g.chainHash C →
      (swap a b o).op.replication = o.op.replication := by
  intro g hg hgg o ho
  rw [swap]
  split_ifs with hoa
  · subst hoa
    exact hab.alike.replication (Or.inl (hgen g hg hgg ho.symm))
  · rfl

lemma wrappedKey_of_covered {a b : MembershipOp} (ha : a.NulFree) (hb : b.NulFree)
    (hbytes : a.canonicalBytes = b.canonicalBytes) (hc : WrapCovered a b) : b.wrappedKey = a.wrappedKey := by
  rcases hc with heq | ⟨hrebind, hregister, hempty⟩
  · exact heq.symm
  · obtain ⟨⟨hact, _⟩, hversion⟩ :=
      common_of_canonicalFields (fields_of_bytes ha.canonicalFields hb.canonicalFields hbytes)
    exact wrappedKey_of_wrapFields
      (wrapFields_of_versionFields hact hrebind hregister hversion).2 hempty

end Swap

theorem readers_agree_on_equal_signed_bytes (C : Crypto) (anchor : Key32) (a b : SignedMembershipOp)
    (L L' : List SignedMembershipOp) (hsig : a.sig = b.sig) (hkey : a.authorPubkey = b.authorPubkey)
    (hbytes : a.op.canonicalBytes = b.op.canonicalBytes) (ha : a.op.NulFree) (hb : b.op.NulFree)
    (hr : Replaces a b L L')
    (hgen : ∀ g ∈ L, isGenesis anchor g = true → g.chainHash C = a.chainHash C → a.op.action = .admits) :
    (∀ now governance view, deriveValidMembersGoverned C L' anchor now governance view =
        deriveValidMembersGoverned C L anchor now governance view) ∧
      deriveGovernance C L' anchor = deriveGovernance C L anchor ∧
      deriveEncryption C L' anchor = deriveEncryption C L anchor ∧
      deriveRebirths C L' anchor = deriveRebirths C L anchor ∧
      recoveryRegistry C L' = recoveryRegistry C L ∧
      (∀ principal, hadFullReplicationWindow C L' anchor principal = hadFullReplicationWindow C L anchor principal) ∧
      (WrapCovered a.op b.op → ∀ fp, findWrappedContentKey C L' anchor fp = findWrappedContentKey C L anchor fp) := by
  have hab := standsFor_of_bytes hsig hkey hbytes ha hb
  have hf := standsFor_swap hab
  have hmap := hr.map_swap
  have hgen' : ∀ g ∈ L', isGenesis anchor g = true → g.chainHash C = a.chainHash C → a.op.action = .admits := by
    intro g hg hgg heq
    rcases hr.mem_or_eq hg with hg | rfl
    · exact hgen g hg hgg heq
    · exact hab.alike.action.symm.trans (isGenesis_iff.mp hgg).2.1
  refine ⟨fun now governance view => ?_, ?_, ?_, ?_, ?_, fun principal => ?_, fun hc fp => ?_⟩
  · rw [← deriveValidMembersGoverned_map hf (replication_swap hab hgen), ← hmap,
      deriveValidMembersGoverned_map hf (replication_swap hab hgen')]
  · rw [← deriveGovernance_map hf, hmap, deriveGovernance_map hf]
  · rw [← deriveEncryption_map hf, hmap, deriveEncryption_map hf]
  · rw [← deriveRebirths_map hf, hmap, deriveRebirths_map hf]
  · rw [recoveryRegistry, ← registry_map hf, hmap, registry_map hf, recoveryRegistry]
  · rw [← hadFullReplicationWindow_map hf (replication_swap hab hgen), ← hmap,
      hadFullReplicationWindow_map hf (replication_swap hab hgen')]
  · have hwrap : ∀ o, (swap a b o).op.wrappedKey = o.op.wrappedKey := by
      intro o
      rw [swap]
      split_ifs with ho
      · exact ho ▸ wrappedKey_of_covered ha hb hbytes hc
      · rfl
    rw [← findWrappedContentKey_map hf hwrap, hmap, findWrappedContentKey_map hf hwrap]

def sampleWrap (newPubkey : Option Key32) : SignedMembershipOp :=
  sampleSigned 2 'o' { sampleOp (sampleHash 1) 'o' .admits (sampleFp 'b') (some .editor) with
    wrappedKey := some [7], newPubkey := newPubkey }

def sampleWrapRebind (wrappedKey : Option Bytes) : SignedMembershipOp :=
  sampleSigned 2 'o' { sampleRebind (sampleHash 1) 'o' 'p' with wrappedKey := wrappedKey }

theorem unread_pubkey_changes_no_wrapped_key :
    findWrappedContentKey .sample [sampleGenesis, sampleWrap none] (sampleKey 'o') (sampleFp 'b') =
      findWrappedContentKey .sample [sampleGenesis, sampleWrap (some (sampleKey 'x'))] (sampleKey 'o') (sampleFp 'b') := by
  have hagree := readers_agree_on_equal_signed_bytes .sample (sampleKey 'o') (sampleWrap (some (sampleKey 'x')))
    (sampleWrap none) [sampleGenesis, sampleWrap (some (sampleKey 'x'))] [sampleGenesis, sampleWrap none] rfl rfl
    (by decide +kernel) (by decide +kernel) (by decide +kernel) (.cons (Or.inl rfl) (.cons (Or.inr ⟨rfl, rfl⟩) .nil))
    (by decide +kernel)
  exact hagree.2.2.2.2.2.2 (Or.inr (by decide +kernel)) (sampleFp 'b')

theorem unsigned_wrapped_key_is_read :
    let a := sampleWrapRebind none
    let b := sampleWrapRebind (some [1])
    a.sig = b.sig ∧ a.authorPubkey = b.authorPubkey ∧ a.op.canonicalBytes = b.op.canonicalBytes ∧
      a.op.NulFree ∧ b.op.NulFree ∧ a.verifySigned .sample = true ∧ b.verifySigned .sample = true ∧
      findWrappedContentKey .sample [sampleGenesis, a] (sampleKey 'o') (sampleFp 'p') = none ∧
      findWrappedContentKey .sample [sampleGenesis, b] (sampleKey 'o') (sampleFp 'p') = some [1] := by
  decide +kernel

end Mae.Sync.Membership
