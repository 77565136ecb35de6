import Mae.Sync.Membership.OwnerChain
import Mae.Sync.Membership.Seats

/-! When appended records leave the end-to-end mode of a log in force. -/

namespace Mae.Sync.Membership

open Relation

variable {C : Crypto} {ops A B : OpLog} {anchor : Key32}

def Endorsed (C : Crypto) (ops : List SignedMembershipOp) (o : SignedMembershipOp) : Prop :=
  o.verifySigned C = true ∨ o.op.verify C o.sig o.authorPubkey = true ∧
    ∃ r, lastRegistration C o.op.author ops = some r ∧ r.op.recoveryPubkey = some o.authorPubkey

def HandsOver (C : Crypto) (ops : List SignedMembershipOp) (a b : String) : Prop :=
  ∃ o ∈ ops, isBoundRebind C o = true ∧ Endorsed C ops o ∧ o.op.author = a ∧ o.op.subject = b

def KeepsRebinds (C : Crypto) (A B : List SignedMembershipOp) : Prop :=
  ∀ o ∈ A, o.op.action = .rebind → o.verifySigned C = true ∨
    lastRegistration C o.op.author (A ++ B) = lastRegistration C o.op.author A
  deriving Decidable

lemma honored_rebind_iff {o : SignedMembershipOp} (ho : o.op.action = .rebind) :
    honored C (buildRecoveryRegistry C ops) o = true ↔ Endorsed C ops o := by
  simp only [honored, isRecoverySignedRebind, Bool.or_eq_true, Bool.and_eq_true, beq_iff_eq, ho, true_and,
    registry_getElem?, Option.bind_eq_some_iff, Endorsed]
  rw [and_comm]

lemma isBoundRebind_action {o : SignedMembershipOp} (ho : isBoundRebind C o = true) : o.op.action = .rebind := by
  simp only [isBoundRebind, Bool.and_eq_true, beq_iff_eq] at ho
  exact ho.1.1

lemma succeeds_cryptoValid : Succeeds C (cryptoValid C ops) = HandsOver C ops := by
  funext a b
  apply propext
  constructor
  · rintro ⟨o, ho, hb, hab⟩
    obtain ⟨hm, hh⟩ := mem_cryptoValid.mp ho
    exact ⟨o, hm, hb, (honored_rebind_iff (isBoundRebind_action hb)).mp hh, hab⟩
  · rintro ⟨o, ho, hb, he, hab⟩
    exact ⟨o, mem_cryptoValid.mpr ⟨ho, (honored_rebind_iff (isBoundRebind_action hb)).mpr he⟩, hb, hab⟩

lemma mem_ownerChain {p : String} :
    p ∈ ownerChain C ops anchor ↔ ReflTransGen (HandsOver C ops) (fingerprintOf C anchor) p := by
  rw [ownerChain, mem_ownerPrincipalChain, succeeds_cryptoValid]

def SetsE2e (C : Crypto) (ops : List SignedMembershipOp) (anchor : Key32) (o : SignedMembershipOp) : Prop :=
  o.op.action = .setEncryption ∧ o.op.subject = "e2e" ∧ o.verifySigned C = true ∧
    ReflTransGen (HandsOver C ops) (fingerprintOf C anchor) o.op.author

lemma deriveEncryption_iff_setsE2e : deriveEncryption C ops anchor = .e2e ↔
      (genesisRecord (cryptoValid C ops) anchor).isSome = true ∧ ∃ o ∈ ops, SetsE2e C ops anchor o := by
  rw [deriveEncryption_iff]
  refine and_congr_right fun _ => ?_
  constructor
  · rintro ⟨o, ho, hact, howner, hsub⟩
    obtain ⟨hm, hh⟩ := mem_cryptoValid.mp ho
    rw [honored_of_ne_rebind (by simp [hact])] at hh
    exact ⟨o, hm, hact, hsub, hh, mem_ownerChain.mp howner⟩
  · rintro ⟨o, ho, hact, hsub, hv, hreach⟩
    refine ⟨o, mem_cryptoValid.mpr ⟨ho, ?_⟩, hact, mem_ownerChain.mpr hreach, hsub⟩
    rwa [honored_of_ne_rebind (by simp [hact])]

lemma genesisRecord_append (hA : (genesisRecord (cryptoValid C A) anchor).isSome = true) :
    (genesisRecord (cryptoValid C (A ++ B)) anchor).isSome = true := by
  rw [genesisRecord, List.find?_isSome] at hA ⊢
  obtain ⟨g, hg, hgen⟩ := hA
  obtain ⟨hm, hh⟩ := mem_cryptoValid.mp hg
  have hne : g.op.action ≠ .rebind := by simp [(isGenesis_iff.mp hgen).2.1]
  rw [honored_of_ne_rebind hne] at hh
  exact ⟨g, mem_cryptoValid.mpr ⟨List.mem_append_left _ hm, by rwa [honored_of_ne_rebind hne]⟩, hgen⟩

lemma KeepsRebinds.handsOver (hk : KeepsRebinds C A B) {a b : String} (hab : HandsOver C A a b) :
    HandsOver C (A ++ B) a b := by
  obtain ⟨o, ho, hb, he, hao⟩ := hab
  refine ⟨o, List.mem_append_left _ ho, hb, ?_, hao⟩
  rcases hk o ho (isBoundRebind_action hb) with hv | hlast
  · exact Or.inl hv
  · rwa [Endorsed, hlast]

theorem encryption_latch (C : Crypto) (A B : List SignedMembershipOp) (anchor : Key32)
    (hA : deriveEncryption C A anchor = .e2e) :
    (KeepsRebinds C A B → deriveEncryption C (A ++ B) anchor = .e2e) ∧
      (deriveEncryption C (A ++ B) anchor = .e2e ↔ ∃ o ∈ A ++ B, SetsE2e C (A ++ B) anchor o) := by
  obtain ⟨hroot, o, ho, hact, hsub, hv, hreach⟩ := deriveEncryption_iff_setsE2e.mp hA
  have hroot' := genesisRecord_append (B := B) hroot
  have hiff : deriveEncryption C (A ++ B) anchor = .e2e ↔ ∃ o ∈ A ++ B, SetsE2e C (A ++ B) anchor o :=
    deriveEncryption_iff_setsE2e.trans (and_iff_right hroot')
  refine ⟨fun hk => hiff.mpr ⟨o, List.mem_append_left _ ho, hact, hsub, hv, ?_⟩, hiff⟩
  exact ReflTransGen.mono (fun _ _ => hk.handsOver) _ _ hreach

def recoveredLog : List SignedMembershipOp :=
  [sampleGenesis, sampleRegistration 2 1 'o' 'k' 1, sampleSigned 3 'k' (sampleRebind (sampleHash 2) 'o' 'p'),
    sampleLinked 4 3 'p' .setEncryption "e2e" none]

theorem encryption_latch_recoveredLog : deriveEncryption .sample (recoveredLog ++ [sampleRegistration 5 1 'm' 'j' 2,
      sampleLinked 6 4 'p' .setEncryption "none" none]) (sampleKey 'o') = .e2e :=
  (encryption_latch .sample recoveredLog
    [sampleRegistration 5 1 'm' 'j' 2, sampleLinked 6 4 'p' .setEncryption "none" none] (sampleKey 'o')
    (by decide +kernel)).1 (by decide +kernel)

theorem encryption_unlatched_by_registration : deriveEncryption .sample recoveredLog (sampleKey 'o') = .e2e ∧
      deriveEncryption .sample (recoveredLog ++ [sampleRegistration 5 1 'o' 'j' 2]) (sampleKey 'o') = .none := by
  decide +kernel

end Mae.Sync.Membership
