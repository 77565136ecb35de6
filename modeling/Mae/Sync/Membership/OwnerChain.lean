import Mae.Sync.Membership.Readers
import Mae.Sync.Membership.Registry

/-! The owner's principal chain is what bound rebinds reach from the genesis owner. -/

namespace Mae.Sync.Membership

open Relation Finset List

variable {C : Crypto} {crypto : OpLog}

def Succeeds (C : Crypto) (crypto : List SignedMembershipOp) (a b : String) : Prop :=
  ∃ o ∈ crypto, isBoundRebind C o = true ∧ o.op.author = a ∧ o.op.subject = b

variable {a g p : String}

lemma Succeeds.mono {crypto' : OpLog} (hsub : ∀ o ∈ crypto, o ∈ crypto') {b : String}
    (hab : Succeeds C crypto a b) : Succeeds C crypto' a b := by
  obtain ⟨o, ho, hb⟩ := hab
  exact ⟨o, hsub o ho, hb⟩

def Closed (C : Crypto) (crypto : List SignedMembershipOp) (chain : Finset String) : Prop :=
  ∀ o ∈ crypto, isBoundRebind C o = true → o.op.author ∈ chain → o.op.subject ∈ chain

variable {chain : Finset String}

lemma Closed.mem (hc : Closed C crypto chain) (ha : a ∈ chain)
    (hr : ReflTransGen (Succeeds C crypto) a p) : p ∈ chain := by
  induction hr with
  | refl => exact ha
  | tail _ hs ih =>
    obtain ⟨o, ho, hb, rfl, rfl⟩ := hs
    exact hc o ho hb ih

structure ChainPass (C : Crypto) (l : List SignedMembershipOp) (chain : Finset String)
    (s : Finset String × Bool) : Prop where
  subset : chain ⊆ s.1
  sound : ∀ p ∈ s.1, ∃ a ∈ chain, ReflTransGen (Succeeds C l) a p
  unchanged : s.2 = false → s.1 = chain ∧ Closed C l chain
  changed : s.2 = true → chain.card < s.1.card

lemma ChainPass.step {l : OpLog} {s : Finset String × Bool}
    (hp : ChainPass C l chain s) (o : SignedMembershipOp) : ChainPass C (l ++ [o]) chain (chainStep C s o) := by
  have hlift : ∀ p ∈ s.1, ∃ a ∈ chain, ReflTransGen (Succeeds C (l ++ [o])) a p := by
    intro p hps
    obtain ⟨a, ha, hr⟩ := hp.sound p hps
    exact ⟨a, ha, ReflTransGen.mono (fun _ _ => Succeeds.mono fun o ho => mem_append_left _ ho) _ _ hr⟩
  rw [chainStep]
  split_ifs with ho
  · obtain ⟨hb, hauthor, hsubject⟩ := ho
    refine ⟨hp.subset.trans (Finset.subset_insert _ _), ?_, by simp, fun _ => ?_⟩
    · intro p hps
      rcases mem_insert.mp hps with rfl | hps
      · obtain ⟨a, ha, hr⟩ := hlift _ hauthor
        exact ⟨a, ha, hr.tail ⟨o, by simp, hb, rfl, rfl⟩⟩
      · exact hlift p hps
    · rw [card_insert_of_notMem hsubject]
      exact Nat.lt_succ_of_le (card_le_card hp.subset)
  · refine ⟨hp.subset, hlift, fun hf => ?_, hp.changed⟩
    obtain ⟨he, hc⟩ := hp.unchanged hf
    refine ⟨he, fun o' ho' hb ha => ?_⟩
    rw [mem_append, List.mem_singleton] at ho'
    rcases ho' with ho' | rfl
    · exact hc o' ho' hb ha
    · by_contra hs
      exact ho ⟨hb, he ▸ ha, he ▸ hs⟩

lemma chainPass (l : OpLog) (chain : Finset String) :
    ChainPass C l chain (l.foldl (chainStep C) (chain, false)) := by
  induction l using List.reverseRecOn with
  | nil =>
    refine ⟨subset_rfl, fun p hp => ⟨p, hp, .refl⟩, fun _ => ⟨rfl, ?_⟩, by simp⟩
    simp [Closed]
  | append_singleton l o ih =>
    rw [foldl_append]
    exact ih.step o

lemma reach_mem_subjects (hr : ReflTransGen (Succeeds C crypto) g p) :
    p ∈ (g :: crypto.map (·.op.subject)).toFinset := by
  cases hr with
  | refl => simp
  | tail _ hs =>
    obtain ⟨o, ho, _, _, rfl⟩ := hs
    simp only [toFinset_cons, mem_insert, mem_toFinset]
    exact Or.inr (List.mem_map_of_mem ho)

lemma chainLoop_iff (fuel : ℕ) (hg : g ∈ chain)
    (hs : ∀ p ∈ chain, ReflTransGen (Succeeds C crypto) g p) (hf : crypto.length + 2 ≤ chain.card + fuel)
    (p : String) : p ∈ chainLoop C crypto fuel chain ↔ ReflTransGen (Succeeds C crypto) g p := by
  induction fuel generalizing chain with
  | zero =>
    -- Each pass that changes the chain adds a subject of some record, so the bound is never what ends the loop.
    have hsub : chain ⊆ (g :: crypto.map (·.op.subject)).toFinset := fun q hq => reach_mem_subjects (hs q hq)
    have hle := (card_le_card hsub).trans (toFinset_card_le _)
    simp only [length_cons, length_map] at hle
    omega
  | succ fuel ih =>
    have hp := chainPass (C := C) crypto chain
    have hsound : ∀ q ∈ (crypto.foldl (chainStep C) (chain, false)).1,
        ReflTransGen (Succeeds C crypto) g q := by
      intro q hq
      obtain ⟨a, ha, hr⟩ := hp.sound q hq
      exact (hs a ha).trans hr
    rw [chainLoop]
    split_ifs with hch
    · have hlt := hp.changed hch
      exact ih (hp.subset hg) hsound (by omega)
    · obtain ⟨he, hclosed⟩ := hp.unchanged (by simpa using hch)
      exact ⟨hsound p, fun hr => hp.subset (hclosed.mem hg hr)⟩

lemma mem_ownerPrincipalChain : p ∈ ownerPrincipalChain C crypto g ↔ ReflTransGen (Succeeds C crypto) g p := by
  apply chainLoop_iff
  · simp
  · simp [ReflTransGen.refl]
  · simp
    omega

lemma ownerPrincipalChain_congr {crypto' : OpLog} (hs : SameRecords crypto crypto')
    (g : String) : ownerPrincipalChain C crypto' g = ownerPrincipalChain C crypto g := by
  ext p
  have hsucc : Succeeds C crypto' = Succeeds C crypto := by
    funext a b
    simp only [Succeeds, hs _]
  rw [mem_ownerPrincipalChain, mem_ownerPrincipalChain, hsucc]

section

variable {ops : OpLog} {anchor : Key32}

lemma genesisRecord_subject {g : SignedMembershipOp} (hg : genesisRecord (cryptoValid C ops) anchor = some g) :
    g.op.subject = fingerprintOf C anchor :=
  genesis_subject (find?_some hg) (mem_cryptoValid.mp (mem_of_find?_eq_some hg)).2

def ownerChain (C : Crypto) (ops : List SignedMembershipOp) (anchor : Key32) : Finset String :=
  ownerPrincipalChain C (cryptoValid C ops) (fingerprintOf C anchor)

lemma isOwnerPrincipal_iff : isOwnerPrincipal C ops anchor p = true ↔
      (genesisRecord (cryptoValid C ops) anchor).isSome = true ∧ p ∈ ownerChain C ops anchor := by
  rw [isOwnerPrincipal]
  cases hg : genesisRecord (cryptoValid C ops) anchor with
  | none => simp
  | some g => simp [genesisRecord_subject hg, ownerChain]

lemma deriveEncryption_iff :
    deriveEncryption C ops anchor = .e2e ↔ (genesisRecord (cryptoValid C ops) anchor).isSome = true ∧
      ∃ o ∈ cryptoValid C ops, o.op.action = .setEncryption ∧ o.op.author ∈ ownerChain C ops anchor ∧
        o.op.subject = "e2e" := by
  rw [deriveEncryption]
  cases hg : genesisRecord (cryptoValid C ops) anchor with
  | none => simp
  | some g => simp [genesisRecord_subject hg, ownerChain, and_assoc]

end

end Mae.Sync.Membership
