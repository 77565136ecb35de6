import Mae.Library.Champion
import Mae.Sync.Membership.CryptoValid

/-! The recovery registry holds, for each principal, the key registered last. -/

namespace Mae.Sync.Membership

open Std (ExtTreeMap)
open Library.Champion List

variable {C : Crypto}

lemma rankGt_iff (a b : UInt64 × String) :
    rankGt a b = true ↔ b.1.toNat < a.1.toNat ∨ b.1.toNat = a.1.toNat ∧ b.2 < a.2 := by
  simp [rankGt, UInt64.lt_iff_toNat_lt, UInt64.toNat_inj]

def outranks (C : Crypto) (o c : SignedMembershipOp) : Bool := rankGt (rankOf C o) (rankOf C c)

lemma outranks_iff (o c : SignedMembershipOp) :
    outranks C o c = true ↔ toLex (c.op.issuedAt.toNat, c.chainHash C) < toLex (o.op.issuedAt.toNat, o.chainHash C) := by
  rw [outranks, rankGt_iff, Prod.Lex.toLex_lt_toLex]
  rfl

lemma outranks_isContest : IsContest (outranks C) := isContest_of_key _ outranks_iff

def registers (C : Crypto) (p : String) (o : SignedMembershipOp) : Bool :=
  isRegistration C o && o.op.recoveryPubkey.isSome && o.op.subject == p

def lastRegistration (C : Crypto) (p : String) (ops : List SignedMembershipOp) : Option SignedMembershipOp :=
  best (outranks C) (ops.filter (registers C p))

lemma lastRegistration_concat (p : String) (l : OpLog) (o : SignedMembershipOp) :
    lastRegistration C p (l ++ [o]) =
      if registers C p o then challenge (outranks C) (lastRegistration C p l) o else lastRegistration C p l :=
  best_filter_concat ..

def RegistryScan.Reflects (C : Crypto) (s : RegistryScan) (l : List SignedMembershipOp) : Prop :=
  ∀ p, s.bestRank[p]? = (lastRegistration C p l).map (rankOf C) ∧
    s.keys[p]? = (lastRegistration C p l).bind (·.op.recoveryPubkey)

lemma RegistryScan.Reflects.step {s : RegistryScan} {l : OpLog} (hs : s.Reflects C l)
    (o : SignedMembershipOp) : (registryStep C s o).Reflects C (l ++ [o]) := by
  intro p
  rw [lastRegistration_concat]
  by_cases ho : isRegistration C o
  · cases hk : o.op.recoveryPubkey with
    | none => simpa [registryStep, registers, hk] using hs p
    | some rpk =>
      have hsub := (hs o.op.subject).1
      by_cases hp : o.op.subject = p
      · subst hp
        have hr : registers C o.op.subject o = true := by simp [registers, ho, hk]
        rw [if_pos hr]
        cases hl : lastRegistration C o.op.subject l with
        | none =>
          rw [hl] at hsub
          simp [registryStep, ho, hk, hsub]
        | some c =>
          rw [hl] at hsub
          by_cases hgt : rankGt (rankOf C o) (rankOf C c) = true
          · simp [registryStep, ho, hk, hsub, hgt, outranks]
          · simpa [registryStep, hk, hsub, hgt, outranks, hl] using (hs o.op.subject)
      · have hr : registers C p o = false := by simp [registers, hp]
        rw [if_neg (by simp [hr]), registryStep, hk]
        split_ifs
        · simpa [ExtTreeMap.getElem?_insert, hp] using hs p
        · exact hs p
  · simpa [registryStep, registers, ho] using hs p

lemma registryScan_reflects (l : OpLog) : (l.foldl (registryStep C) ⟨∅, ∅⟩).Reflects C l := by
  induction l using List.reverseRecOn with
  | nil => exact fun p => by simp [lastRegistration]
  | append_singleton l o ih =>
    rw [foldl_append]
    exact ih.step o

lemma registry_getElem? (ops : OpLog) (p : String) :
    (buildRecoveryRegistry C ops)[p]? = (lastRegistration C p ops).bind (·.op.recoveryPubkey) :=
  (registryScan_reflects ops p).2

section

variable {L : OpLog} {r : SignedMembershipOp}

def Outranked (C : Crypto) (L : List SignedMembershipOp) (r : SignedMembershipOp) : Prop :=
  isRegistration C r = true → ∃ o ∈ L, registers C r.op.subject o = true ∧ outranks C r o = false
  deriving Decidable

lemma outranks_of_not {a b c : SignedMembershipOp} (hac : outranks C a c = true) (hbc : outranks C b c = false) :
    outranks C a b = true := by
  rw [outranks_iff] at hac ⊢
  rw [← Bool.not_eq_true, outranks_iff, not_lt] at hbc
  exact hbc.trans_lt hac

lemma Outranked.registry_eq (ho : Outranked C L r) : buildRecoveryRegistry C (L ++ [r]) = buildRecoveryRegistry C L := by
  apply ExtTreeMap.ext_getElem?
  intro p
  rw [registry_getElem?, registry_getElem?, lastRegistration_concat]
  by_cases hr : registers C p r = true
  · have hreg : isRegistration C r = true ∧ r.op.subject = p := by
      simp only [registers, Bool.and_eq_true, beq_iff_eq] at hr
      exact ⟨hr.1.1, hr.2⟩
    obtain ⟨o, hoL, hop, hro⟩ := ho hreg.1
    rw [hreg.2] at hop
    cases hl : lastRegistration C p L with
    | none =>
      have hnil := (best_eq_none_iff _ _).mp hl
      exact absurd (mem_filter.mpr ⟨hoL, hop⟩) (by simp [hnil])
    | some c =>
      -- the registration in force is not outranked by the one that outranks the new one
      have hoc := best_unbeaten outranks_isContest hl o (mem_filter.mpr ⟨hoL, hop⟩)
      have hrc : outranks C r c = false := by
        by_contra hrc
        rw [outranks_of_not (by simpa using hrc) hoc] at hro
        exact Bool.noConfusion hro
      simp [hr, hrc]
  · rw [if_neg hr]

end

def CollisionFree (C : Crypto) (ops : List SignedMembershipOp) : Prop :=
  ∀ o ∈ ops, ∀ o' ∈ ops, o.chainHash C = o'.chainHash C → o = o'
  deriving Decidable

def SameRecords (ops ops' : List SignedMembershipOp) : Prop := ∀ o, o ∈ ops' ↔ o ∈ ops

variable {ops ops' : OpLog}

lemma SameRecords.filter (hs : SameRecords ops ops') (p : SignedMembershipOp → Bool) :
    SameRecords (ops.filter p) (ops'.filter p) := by
  intro o
  rw [mem_filter, mem_filter, hs o]

section

variable (hc : CollisionFree C ops)
include hc

lemma CollisionFree.filter (p : SignedMembershipOp → Bool) : CollisionFree C (ops.filter p) :=
  fun o ho o' ho' => hc o (mem_of_mem_filter ho) o' (mem_of_mem_filter ho')

variable (hs : SameRecords ops ops')
include hs

lemma CollisionFree.congr : CollisionFree C ops' :=
  fun o ho o' ho' => hc o ((hs o).mp ho) o' ((hs o').mp ho')

lemma lastRegistration_congr (p : String) : lastRegistration C p ops' = lastRegistration C p ops := by
  have hb := best_map_congr (outranks_isContest (C := C)) id ?_
    (hs.filter (registers C p))
  · simpa only [Option.map_id_fun, id, lastRegistration] using hb
  · intro a ha b hb hab hba
    have hrank := key_eq_of_unbeaten _ outranks_iff hab hba
    exact hc a (mem_of_mem_filter ha) b (mem_of_mem_filter hb) (congrArg (fun r => (ofLex r).2) hrank)

lemma registry_congr : buildRecoveryRegistry C ops' = buildRecoveryRegistry C ops := by
  apply ExtTreeMap.ext_getElem?
  intro p
  rw [registry_getElem?, registry_getElem?, lastRegistration_congr hc hs]

lemma cryptoValid_congr : SameRecords (cryptoValid C ops) (cryptoValid C ops') := by
  rw [cryptoValid, cryptoValid, registry_congr hc hs]
  exact hs.filter _

end

variable {o : SignedMembershipOp}

lemma mem_cryptoValid : o ∈ cryptoValid C ops ↔ o ∈ ops ∧ honored C (buildRecoveryRegistry C ops) o = true := mem_filter

lemma isGenesis_iff {anchor : Key32} : isGenesis anchor o = true ↔
      o.op.prevHash = "" ∧ o.op.action = .admits ∧ o.op.subject = o.op.author ∧ o.authorPubkey = anchor := by
  simp [isGenesis, and_assoc]

lemma honored_of_ne_rebind {registry : RecoveryRegistry} (ho : o.op.action ≠ .rebind) :
    honored C registry o = o.verifySigned C := by
  simp [honored, isRecoverySignedRebind, ho]

lemma genesis_subject {registry : RecoveryRegistry} {anchor : Key32} {g : SignedMembershipOp}
    (hgen : isGenesis anchor g = true) (hh : honored C registry g = true) :
    g.op.subject = fingerprintOf C anchor := by
  obtain ⟨_, hact, hsub, hkey⟩ := isGenesis_iff.mp hgen
  rw [honored_of_ne_rebind (by simp [hact]), SignedMembershipOp.verifySigned, Bool.and_eq_true] at hh
  have hfp : fingerprintOf C g.authorPubkey = g.op.author := by
    simpa [MembershipOp.fingerprintMatches] using hh.1
  rw [hsub, ← hfp, hkey]

end Mae.Sync.Membership
