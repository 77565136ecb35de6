import Mae.Sync.Membership.Anchored
import Mae.Sync.Membership.OwnerChain

/-! The readers of two logs with the same records agree when one anchored genesis roots them. -/

namespace Mae.Sync.Membership

open Std (ExtTreeMap)
open Library.Champion List Option

variable {C : Crypto} {ops ops' crypto crypto' : OpLog} {anchor : Key32}

def rebirthHash (o : SignedMembershipOp) : String := o.op.contentHash.getD ""

def rebirths (n : String) (o : SignedMembershipOp) : Bool :=
  (o.op.contentHash.any fun h => h != "") && o.op.subject == n

def rebirthOf (o : SignedMembershipOp) : UInt64 × String := (o.op.epoch, rebirthHash o)

def outdates (e e' : UInt64 × String) : Bool := decide (e'.1 < e.1 ∨ e'.1 = e.1 ∧ e.2 < e'.2)

def supersedes (o c : SignedMembershipOp) : Bool := outdates (rebirthOf o) (rebirthOf c)

lemma supersedes_iff (o c : SignedMembershipOp) :
    supersedes o c = true ↔ toLex (c.op.epoch.toNat, OrderDual.toDual (rebirthHash c)) <
      toLex (o.op.epoch.toNat, OrderDual.toDual (rebirthHash o)) := by
  simp [supersedes, outdates, rebirthOf, UInt64.lt_iff_toNat_lt, UInt64.toNat_inj, Prod.Lex.toLex_lt_toLex]

lemma eq_of_not_supersedes {a b : SignedMembershipOp} (hab : supersedes a b = false)
    (hba : supersedes b a = false) : rebirthOf a = rebirthOf b := by
  obtain ⟨hepoch, hhash⟩ := Prod.ext_iff.mp (key_eq_of_unbeaten _ supersedes_iff hab hba)
  exact Prod.ext (UInt64.toNat_inj.mp hepoch) hhash

def lastRebirth (n : String) (l : List SignedMembershipOp) : Option SignedMembershipOp :=
  best supersedes (l.filter (rebirths n))

lemma lastRebirth_concat (n : String) (l : OpLog) (o : SignedMembershipOp) :
    lastRebirth n (l ++ [o]) =
      if rebirths n o then challenge supersedes (lastRebirth n l) o else lastRebirth n l :=
  best_filter_concat ..

lemma rebirthStep_of_none {out : Rebirths} {o : SignedMembershipOp}
    (ho : o.op.contentHash.any (fun h => h != "") = false) : rebirthStep out o = out := by
  have hf : o.op.contentHash.filter (fun h => h != "") = none := by
    cases hh : o.op.contentHash <;> simp_all
  simp [rebirthStep, hf]

lemma rebirthStep_eq {out : Rebirths} {o : SignedMembershipOp} (ho : o.op.contentHash.any (fun h => h != "") = true) :
    rebirthStep out o =
      if (out[o.op.subject]?).all (outdates (rebirthOf o)) then out.insert o.op.subject (rebirthOf o) else out := by
  obtain ⟨hash, hh, hne⟩ := (Option.any_eq_true ..).mp ho
  have hf : o.op.contentHash.filter (fun h => h != "") = some hash := by simp [hh, hne]
  have hof : rebirthOf o = (o.op.epoch, hash) := by simp [rebirthOf, rebirthHash, hh]
  rw [rebirthStep, hf, hof]
  cases hout : out[o.op.subject]? with
  | none => simp
  | some e =>
    obtain ⟨epoch, current⟩ := e
    simp only [all_some, outdates, decide_eq_true_eq]
    rcases Nat.lt_trichotomy o.op.epoch.toNat epoch.toNat with hlt | heq | hgt
    · have hne : epoch ≠ o.op.epoch := fun h => by simp [h] at hlt
      rw [if_pos (UInt64.lt_iff_toNat_lt.mpr hlt), if_neg]
      rintro (h | h)
      · have := UInt64.lt_iff_toNat_lt.mp h
        omega
      · exact hne h.1
    · obtain rfl := UInt64.toNat_inj.mp heq
      simp only [UInt64.lt_irrefl, if_false, if_true, false_or, true_and]
    · have hne : epoch ≠ o.op.epoch := fun h => by simp [h] at hgt
      have hlt := UInt64.lt_iff_toNat_lt.mpr hgt
      have hnot : ¬ o.op.epoch < epoch := fun h => by
        have := UInt64.lt_iff_toNat_lt.mp h
        omega
      rw [if_neg hnot, if_neg hne, if_pos (Or.inl hlt)]

lemma foldl_rebirthStep (l : OpLog) (n : String) :
    (l.foldl rebirthStep ∅)[n]? = (lastRebirth n l).map rebirthOf := by
  induction l using List.reverseRecOn generalizing n with
  | nil => simp [lastRebirth]
  | append_singleton l o ih =>
    rw [foldl_append, foldl_cons, lastRebirth_concat]
    cases ho : o.op.contentHash.any fun h => h != "" with
    | false => simpa [rebirthStep_of_none ho, rebirths, ho] using ih n
    | true =>
      have hsub := ih o.op.subject
      rw [rebirthStep_eq ho, hsub]
      by_cases hn : o.op.subject = n
      · subst hn
        have hr : rebirths o.op.subject o = true := by simp [rebirths, ho]
        rw [if_pos hr]
        cases hl : lastRebirth o.op.subject l with
        | none => simp
        | some c =>
          rw [hl] at hsub
          by_cases hs : outdates (rebirthOf o) (rebirthOf c) = true
          · simp [supersedes, hs]
          · simpa [supersedes, hs] using hsub
      · have hr : ¬ rebirths n o = true := by simp [rebirths, hn]
        split_ifs
        · simpa [ExtTreeMap.getElem?_insert, hn] using ih n
        · exact ih n

lemma foldl_rebirthStep_congr (hs : SameRecords crypto crypto') :
    crypto'.foldl rebirthStep ∅ = crypto.foldl rebirthStep ∅ := by
  apply ExtTreeMap.ext_getElem?
  intro n
  rw [foldl_rebirthStep, foldl_rebirthStep]
  exact best_map_congr (isContest_of_key _ supersedes_iff) _ (fun a _ b _ hab hba => eq_of_not_supersedes hab hba)
    (hs.filter (rebirths n))

lemma find?_isSome_congr (hs : SameRecords crypto crypto') (p : SignedMembershipOp → Bool) :
    (crypto'.find? p).isSome = (crypto.find? p).isSome := by
  rw [Bool.eq_iff_iff, find?_isSome, find?_isSome]
  simp only [hs _]

lemma find?_congr (hs : SameRecords crypto crypto') {p : SignedMembershipOp → Bool}
    (hu : ∀ o ∈ crypto, ∀ o' ∈ crypto, p o = true → p o' = true → o = o') : crypto'.find? p = crypto.find? p := by
  have hsome := find?_isSome_congr hs p
  cases ho : crypto.find? p with
  | none => simpa [ho] using hsome
  | some o =>
    rw [ho, isSome_some, isSome_iff_exists] at hsome
    obtain ⟨o', ho'⟩ := hsome
    have hmem' := (hs o').mp (mem_of_find?_eq_some ho')
    rw [ho', hu o' hmem' o (mem_of_find?_eq_some ho) (find?_some ho') (find?_some ho)]

def SingleGenesis (C : Crypto) (ops : List SignedMembershipOp) (anchor : Key32) : Prop :=
  ∀ g ∈ ops, ∀ g' ∈ ops, isGenesis anchor g = true → isGenesis anchor g' = true →
    g.verifySigned C = true → g'.verifySigned C = true → g = g'
  deriving Decidable

lemma SingleGenesis.find?_eq (hsg : SingleGenesis C ops anchor) {registry : RecoveryRegistry}
    (hsub : ∀ o ∈ crypto, o ∈ ops ∧ honored C registry o = true) (hs : SameRecords crypto crypto') :
    crypto'.find? (isGenesis anchor) = crypto.find? (isGenesis anchor) := by
  have hver : ∀ o ∈ crypto, isGenesis anchor o = true → o.verifySigned C = true := by
    intro o ho hgen
    have hh := (hsub o ho).2
    rwa [honored_of_ne_rebind (by simp [(isGenesis_iff.mp hgen).2.1])] at hh
  apply find?_congr hs
  intro o ho o' ho' hgen hgen'
  exact hsg o (hsub o ho).1 o' (hsub o' ho').1 hgen hgen' (hver o ho hgen) (hver o' ho' hgen')

lemma deriveRebirths_eq : deriveRebirths C ops anchor =
      if (genesisRecord (cryptoValid C ops) anchor).isSome = true then
        ((cryptoValid C ops).filter fun o => o.op.action == .rebirth &&
          decide (o.op.author ∈ ownerChain C ops anchor)).foldl rebirthStep ∅
      else ∅ := by
  rw [deriveRebirths]
  cases hg : genesisRecord (cryptoValid C ops) anchor with
  | none => rfl
  | some g =>
    simp only [isSome_some, if_true]
    rw [genesisRecord_subject hg]
    rfl

lemma deriveEncryption_congr (hs : SameRecords (cryptoValid C ops) (cryptoValid C ops')) :
    deriveEncryption C ops' anchor = deriveEncryption C ops anchor := by
  have hiff : deriveEncryption C ops' anchor = .e2e ↔ deriveEncryption C ops anchor = .e2e := by
    rw [deriveEncryption_iff, deriveEncryption_iff, ownerChain, ownerPrincipalChain_congr hs, genesisRecord,
      find?_isSome_congr hs]
    simp only [hs _, genesisRecord, ownerChain]
  cases he : deriveEncryption C ops anchor with
  | e2e => exact hiff.mpr he
  | none =>
    cases he' : deriveEncryption C ops' anchor with
    | e2e => simp [he, he'] at hiff
    | none => rfl

lemma deriveRebirths_congr (hs : SameRecords (cryptoValid C ops) (cryptoValid C ops')) :
    deriveRebirths C ops' anchor = deriveRebirths C ops anchor := by
  rw [deriveRebirths_eq, deriveRebirths_eq, ownerChain, ownerPrincipalChain_congr hs, genesisRecord,
    find?_isSome_congr hs, foldl_rebirthStep_congr (hs.filter _)]
  rfl

section

def Reborn (C : Crypto) (ops : List SignedMembershipOp) (anchor : Key32) (nodeId : String) (epoch : UInt64)
    (hash : String) : Prop :=
  ∃ o ∈ cryptoValid C ops, o.op.action = .rebirth ∧ isOwnerPrincipal C ops anchor o.op.author = true ∧
    o.op.subject = nodeId ∧ o.op.epoch = epoch ∧ o.op.contentHash = some hash ∧ hash ≠ ""

variable {n hash : String} {epoch : UInt64} {o : SignedMembershipOp}

lemma rebirths_iff : rebirths n o = true ∧ rebirthOf o = (epoch, hash) ↔
      o.op.subject = n ∧ o.op.epoch = epoch ∧ o.op.contentHash = some hash ∧ hash ≠ "" := by
  cases hh : o.op.contentHash with
  | none => simp [rebirths, hh]
  | some h =>
    simp only [rebirths, rebirthOf, rebirthHash, hh, any_some, Option.getD_some, Bool.and_eq_true, bne_iff_ne, beq_iff_eq,
      Prod.mk.injEq, Option.some.injEq]
    constructor
    · rintro ⟨⟨hne, hn⟩, he, rfl⟩
      exact ⟨hn, he, rfl, hne⟩
    · rintro ⟨hn, he, rfl, hne⟩
      exact ⟨⟨hne, hn⟩, he, rfl⟩

lemma not_outdates_iff {x y : UInt64 × String} : outdates x y = false ↔ x.1 ≤ y.1 ∧ (x.1 = y.1 → y.2 ≤ x.2) := by
  simp only [outdates, decide_eq_false_iff_not, not_or, not_and, not_lt, UInt64.not_lt]
  rw [@eq_comm _ x.1]

lemma deriveRebirths_eq_some_iff :
    (deriveRebirths C ops anchor)[n]? = some (epoch, hash) ↔ Reborn C ops anchor n epoch hash ∧
      ∀ epoch' hash', Reborn C ops anchor n epoch' hash' → epoch' ≤ epoch ∧ (epoch' = epoch → hash ≤ hash') := by
  rw [deriveRebirths_eq]
  split_ifs with hg
  · have hreborn : ∀ x : UInt64 × String, Reborn C ops anchor n x.1 x.2 ↔
        ∃ o ∈ ((cryptoValid C ops).filter fun o => o.op.action == .rebirth &&
          decide (o.op.author ∈ ownerChain C ops anchor)).filter (rebirths n), rebirthOf o = x := by
      intro x
      simp only [Reborn, isOwnerPrincipal_iff, hg, true_and, ← rebirths_iff, mem_filter, Bool.and_eq_true, beq_iff_eq,
        decide_eq_true_eq, and_assoc]
    rw [foldl_rebirthStep, lastRebirth, best_map_eq_some_iff (isContest_of_key _ supersedes_iff)
      fun a _ b _ hab hba => eq_of_not_supersedes hab hba]
    constructor
    · rintro ⟨c, hc, hx, hbest⟩
      refine ⟨(hreborn (epoch, hash)).mpr ⟨c, hc, hx⟩, fun epoch' hash' h => ?_⟩
      obtain ⟨o, ho, hy⟩ := (hreborn (epoch', hash')).mp h
      have hout := hbest o ho
      rwa [supersedes, hx, hy, not_outdates_iff] at hout
    · rintro ⟨h, hbest⟩
      obtain ⟨c, hc, hx⟩ := (hreborn (epoch, hash)).mp h
      refine ⟨c, hc, hx, fun o ho => ?_⟩
      rw [supersedes, hx, not_outdates_iff]
      exact hbest _ _ ((hreborn (rebirthOf o)).mpr ⟨o, ho, rfl⟩)
  · refine iff_of_false (by simp) fun ⟨⟨o, _, _, howner, _⟩, _⟩ => hg (isOwnerPrincipal_iff.mp howner).1

lemma mem_deriveRebirths_iff : n ∈ deriveRebirths C ops anchor ↔ ∃ epoch hash, Reborn C ops anchor n epoch hash := by
  constructor
  · intro h
    obtain ⟨x, hx⟩ := isSome_iff_exists.mp (ExtTreeMap.mem_iff_isSome_getElem?.mp h)
    exact ⟨x.1, x.2, (deriveRebirths_eq_some_iff.mp hx).1⟩
  · rintro ⟨epoch, hash, o, ho, haction, howner, hx⟩
    obtain ⟨hg, hchain⟩ := isOwnerPrincipal_iff.mp howner
    rw [ExtTreeMap.mem_iff_isSome_getElem?, deriveRebirths_eq, if_pos hg, foldl_rebirthStep, isSome_map, isSome_iff_ne_none,
      lastRebirth, Ne, best_eq_none_iff]
    apply ne_nil_of_mem (a := o)
    simp [ho, haction, hchain, (rebirths_iff.mpr hx).1]

variable {A B : OpLog} (ho : o.op.action = .rebirth)
include ho

lemma mem_cryptoValid_rebirth {o' : SignedMembershipOp} :
    o' ∈ cryptoValid C (A ++ o :: B) ↔ o' ∈ cryptoValid C (A ++ B) ∨ o' = o ∧ o.verifySigned C = true := by
  have hregistry : buildRecoveryRegistry C (A ++ o :: B) = buildRecoveryRegistry C (A ++ B) := by
    simp [buildRecoveryRegistry, registryStep, isRegistration, ho]
  have hhonored : honored C (buildRecoveryRegistry C (A ++ B)) o = o.verifySigned C := honored_of_ne_rebind (by simp [ho])
  rw [mem_cryptoValid, mem_cryptoValid, hregistry, ← hhonored, mem_append, List.mem_cons, mem_append]
  by_cases heq : o' = o
  · subst heq
    tauto
  · simp [heq]

lemma isOwnerPrincipal_rebirth (p : String) :
    isOwnerPrincipal C (A ++ o :: B) anchor p = isOwnerPrincipal C (A ++ B) anchor p := by
  have hkeep : ∀ P : SignedMembershipOp → Prop, ¬ P o →
      ((∃ o' ∈ cryptoValid C (A ++ o :: B), P o') ↔ ∃ o' ∈ cryptoValid C (A ++ B), P o') := by
    intro P hP
    simp only [mem_cryptoValid_rebirth ho, or_and_right, exists_or]
    exact or_iff_left fun ⟨_, ⟨rfl, _⟩, h⟩ => hP h
  have hsucc : Succeeds C (cryptoValid C (A ++ o :: B)) = Succeeds C (cryptoValid C (A ++ B)) := by
    funext a b
    exact propext (hkeep _ fun h => by simp [isBoundRebind, ho] at h)
  rw [Bool.eq_iff_iff, isOwnerPrincipal_iff, isOwnerPrincipal_iff, genesisRecord, genesisRecord, find?_isSome,
    find?_isSome, hkeep _ (by simp [isGenesis, ho]), ownerChain, ownerChain, mem_ownerPrincipalChain,
    mem_ownerPrincipalChain, hsucc]

lemma reborn_rebirth : Reborn C (A ++ o :: B) anchor n epoch hash → Reborn C (A ++ B) anchor n epoch hash ∨
      o.op.subject = n ∧ o.op.epoch = epoch := by
  rintro ⟨o', ho', haction, howner, hx⟩
  rw [isOwnerPrincipal_rebirth ho] at howner
  rcases (mem_cryptoValid_rebirth ho).mp ho' with ho' | ⟨rfl, _⟩
  · exact .inl ⟨o', ho', haction, howner, hx⟩
  · exact .inr ⟨hx.1, hx.2.1⟩

lemma deriveRebirths_older (hmem : (deriveRebirths C (A ++ B) anchor)[o.op.subject]? = some (epoch, hash))
    (hlt : o.op.epoch < epoch) : deriveRebirths C (A ++ o :: B) anchor = deriveRebirths C (A ++ B) anchor := by
  have hkept : ∀ {n epoch hash}, Reborn C (A ++ B) anchor n epoch hash → Reborn C (A ++ o :: B) anchor n epoch hash := by
    rintro n epoch hash ⟨o', ho', haction, howner, hx⟩
    exact ⟨o', (mem_cryptoValid_rebirth ho).mpr (.inl ho'), haction, (isOwnerPrincipal_rebirth ho _).trans howner, hx⟩
  have hhave := (deriveRebirths_eq_some_iff.mp hmem).1
  apply ExtTreeMap.ext_getElem?
  intro n
  ext ⟨epoch', hash'⟩
  rw [deriveRebirths_eq_some_iff, deriveRebirths_eq_some_iff]
  constructor
  · rintro ⟨h, hbest⟩
    refine ⟨(reborn_rebirth ho h).resolve_right ?_, fun _ _ hy => hbest _ _ (hkept hy)⟩
    rintro ⟨rfl, rfl⟩
    exact absurd (hbest _ _ (hkept hhave)).1 (UInt64.not_le.mpr hlt)
  · rintro ⟨h, hbest⟩
    refine ⟨hkept h, fun epoch'' hash'' hy => (reborn_rebirth ho hy).elim (hbest _ _) ?_⟩
    rintro ⟨rfl, rfl⟩
    have hnewer := UInt64.lt_of_lt_of_le hlt (hbest _ _ hhave).1
    exact ⟨UInt64.le_of_lt hnewer, fun heq => absurd hnewer (heq ▸ UInt64.lt_irrefl _)⟩

end

theorem rebirth_of_latest_epoch_wins (C : Crypto) (ops : List SignedMembershipOp) (anchor : Key32) :
    (∀ n epoch hash, (deriveRebirths C ops anchor)[n]? = some (epoch, hash) ↔ Reborn C ops anchor n epoch hash ∧
      ∀ epoch' hash', Reborn C ops anchor n epoch' hash' → epoch' ≤ epoch ∧ (epoch' = epoch → hash ≤ hash')) ∧
    (∀ n, n ∈ deriveRebirths C ops anchor ↔ ∃ epoch hash, Reborn C ops anchor n epoch hash) ∧
    (∀ ops', SameRecords (cryptoValid C ops) (cryptoValid C ops') ∨ CollisionFree C ops ∧ SameRecords ops ops' →
      deriveRebirths C ops' anchor = deriveRebirths C ops anchor) ∧
    ∀ A B o epoch hash, ops = A ++ B → o.op.action = .rebirth →
      (deriveRebirths C ops anchor)[o.op.subject]? = some (epoch, hash) → o.op.epoch < epoch →
      deriveRebirths C (A ++ o :: B) anchor = deriveRebirths C ops anchor := by
  refine ⟨fun n epoch hash => deriveRebirths_eq_some_iff, fun n => mem_deriveRebirths_iff, fun ops' h => ?_, ?_⟩
  · exact deriveRebirths_congr (h.elim id fun h => cryptoValid_congr h.1 h.2)
  · rintro A B o epoch hash rfl ho hmem hlt
    exact deriveRebirths_older ho hmem hlt

def sampleReborn (serial : UInt8) (epoch : UInt64) (hash : String) : SignedMembershipOp :=
  sampleSigned serial 'o'
    { sampleOp (sampleHash 1) 'o' .rebirth "n" none with epoch := epoch, contentHash := some hash }

theorem rebirth_of_sample_keeps_latest :
    (deriveRebirths .sample [sampleGenesis, sampleReborn 2 7 "b", sampleReborn 3 7 "a"] (sampleKey 'o'))["n"]? =
        some (7, "a") ∧
      deriveRebirths .sample [sampleGenesis, sampleReborn 4 5 "0", sampleReborn 2 7 "b", sampleReborn 3 7 "a"]
        (sampleKey 'o') =
      deriveRebirths .sample [sampleGenesis, sampleReborn 2 7 "b", sampleReborn 3 7 "a"] (sampleKey 'o') := by
  have hlatest : (deriveRebirths .sample [sampleGenesis, sampleReborn 2 7 "b", sampleReborn 3 7 "a"]
      (sampleKey 'o'))["n"]? = some (7, "a") := by decide +kernel
  exact ⟨hlatest, (rebirth_of_latest_epoch_wins .sample _ (sampleKey 'o')).2.2.2 [sampleGenesis] _ _ 7 "a" rfl rfl hlatest
    (by decide)⟩

lemma anchoredTree_congr (hc : CollisionFree C crypto) (hs : SameRecords crypto crypto')
    (hf : crypto'.find? (isGenesis anchor) = crypto.find? (isGenesis anchor)) :
    anchoredTree C crypto' anchor = anchoredTree C crypto anchor := by
  rw [anchoredTree, hf, indexByHash_congr hc hs, anchoredTree]

lemma visible_congr (hc : CollisionFree C ops) (hs : SameRecords ops ops') (view : MembershipView) :
    SameRecords (visible C view ops) (visible C view ops') := by
  rw [visible, visible, registry_congr hc hs]
  exact hs.filter _

theorem readers_agree_on_same_records (C : Crypto) (ops ops' : List SignedMembershipOp) (anchor : Key32)
    (hc : CollisionFree C ops) (hs : SameRecords ops ops') :
    deriveEncryption C ops' anchor = deriveEncryption C ops anchor ∧
      deriveRebirths C ops' anchor = deriveRebirths C ops anchor ∧
        (SingleGenesis C ops anchor →
          (∀ now governance view, deriveValidMembersGoverned C ops' anchor now governance view =
            deriveValidMembersGoverned C ops anchor now governance view) ∧
            deriveGovernance C ops' anchor = deriveGovernance C ops anchor ∧
              ∀ fp, findWrappedContentKey C ops' anchor fp = findWrappedContentKey C ops anchor fp) := by
  have hcv := cryptoValid_congr hc hs
  refine ⟨deriveEncryption_congr hcv, deriveRebirths_congr hcv, fun hsg => ⟨fun now governance view => ?_, ?_⟩⟩
  · have hvis := visible_congr hc hs view
    have hcf : CollisionFree C (visible C view ops) := hc.filter _
    have hf := hsg.find?_eq (fun o ho => ⟨(mem_visible.mp ho).1, (mem_visible.mp ho).2.1⟩) hvis
    rw [deriveValidMembersGoverned, anchoredTree_congr hcf hvis hf, deriveValidMembersGoverned]
  · have hf : genesisRecord (cryptoValid C ops') anchor = genesisRecord (cryptoValid C ops) anchor :=
      hsg.find?_eq (fun o ho => mem_cryptoValid.mp ho) hcv
    have hindex : indexByHash C (cryptoValid C ops') = indexByHash C (cryptoValid C ops) :=
      indexByHash_congr (hc.filter _) hcv
    refine ⟨?_, fun fp => ?_⟩
    · simp only [deriveGovernance, hf, hindex, ownerPrincipalChain_congr hcv]
    · simp only [findWrappedContentKey, hf, hindex, ownerPrincipalChain_congr hcv]

def twoGenesesLog : List SignedMembershipOp :=
  [sampleSigned 1 'o' (sampleOp "" 'o' .admits (sampleFp 'o') (some .owner)),
    sampleSigned 2 'o' (sampleOp "" 'o' .admits (sampleFp 'o') (some .owner)),
    sampleSigned 3 'o' (sampleOp (sampleHash 2) 'o' .setGovernance "quorum:2" none),
    sampleSigned 4 'o'
      { sampleOp (sampleHash 3) 'o' .admits (sampleFp 'b') (some .editor) with wrappedKey := some [7] }]

def twoGenesesSwapped : List SignedMembershipOp :=
  [twoGenesesLog[1]!, twoGenesesLog[0]!, twoGenesesLog[2]!, twoGenesesLog[3]!]

theorem readers_agree_on_a_repeated_log :
    deriveValidMembersGoverned .sample (twoGenesesLog.drop 1 ++ twoGenesesLog.drop 1).reverse (sampleKey 'o') 0
      .singleOwner {} = deriveValidMembersGoverned .sample (twoGenesesLog.drop 1) (sampleKey 'o') 0 .singleOwner {} := by
  have hag := readers_agree_on_same_records .sample (twoGenesesLog.drop 1)
    (twoGenesesLog.drop 1 ++ twoGenesesLog.drop 1).reverse (sampleKey 'o') (by decide +kernel)
    (fun o => by simp)
  exact (hag.2.2 (by decide +kernel)).1 0 .singleOwner {}

theorem two_geneses_do_not_converge :
    (twoGenesesLog.map (·.chainHash .sample)).Nodup ∧ twoGenesesLog.Perm twoGenesesSwapped ∧
      deriveValidMembersGoverned .sample twoGenesesLog (sampleKey 'o') 0 .singleOwner {} ≠
        deriveValidMembersGoverned .sample twoGenesesSwapped (sampleKey 'o') 0 .singleOwner {} ∧
      deriveGovernance .sample twoGenesesLog (sampleKey 'o') ≠
        deriveGovernance .sample twoGenesesSwapped (sampleKey 'o') ∧
      findWrappedContentKey .sample twoGenesesLog (sampleKey 'o') (sampleFp 'b') ≠
        findWrappedContentKey .sample twoGenesesSwapped (sampleKey 'o') (sampleFp 'b') := by
  refine ⟨by decide +kernel, Perm.swap _ _ _, fun he => ?_, by decide +kernel, by decide +kernel⟩
  have hb := congrArg (·.contains (sampleFp 'b')) he
  revert hb
  decide +kernel

end Mae.Sync.Membership
