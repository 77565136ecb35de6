import Mae.Sync.Membership.Op

/-! The recovery-key registry and the records every reader honors. -/

namespace Mae.Sync.Membership

open Std

abbrev RecoveryRegistry := ExtTreeMap String Key32

/-- The locals `best_rank` and `keys` of `build_recovery_registry`. -/
structure RegistryScan where
  bestRank : ExtTreeMap String (UInt64 × String)
  keys : RecoveryRegistry

def rankGt (rank c : UInt64 × String) : Bool :=
  decide (c.1 < rank.1) || (c.1 == rank.1 && decide (c.2 < rank.2))

variable (C : Crypto) (ops : List SignedMembershipOp)

def isRegistration (o : SignedMembershipOp) : Bool :=
  o.op.action == .registerRecoveryKey && o.op.author == o.op.subject && o.verifySigned C

def rankOf (o : SignedMembershipOp) : UInt64 × String := (o.op.issuedAt, o.chainHash C)

def registryStep (s : RegistryScan) (o : SignedMembershipOp) : RegistryScan :=
  if isRegistration C o then
    match o.op.recoveryPubkey with
    | none => s
    | some rpk =>
      if ((s.bestRank[o.op.subject]?).map (rankGt (rankOf C o))).getD true then
        ⟨s.bestRank.insert o.op.subject (rankOf C o), s.keys.insert o.op.subject rpk⟩
      else s
  else s

def buildRecoveryRegistry : RecoveryRegistry :=
  (ops.foldl (registryStep C) ⟨∅, ∅⟩).keys

def isRecoverySignedRebind (o : SignedMembershipOp) (registry : RecoveryRegistry) : Bool :=
  o.op.action == .rebind && registry[o.op.author]? == some o.authorPubkey && o.op.verify C o.sig o.authorPubkey

def honored (registry : RecoveryRegistry) (o : SignedMembershipOp) : Bool :=
  o.verifySigned C || isRecoverySignedRebind C o registry

def cryptoValid : List SignedMembershipOp :=
  ops.filter (honored C (buildRecoveryRegistry C ops))

def recoveryRegistry : RecoveryRegistry :=
  buildRecoveryRegistry C ops

def isGenesis (anchor : Key32) (o : SignedMembershipOp) : Bool :=
  o.op.prevHash == "" && o.op.action == .admits && o.op.subject == o.op.author && o.authorPubkey == anchor

abbrev OpIndex := ExtTreeMap String SignedMembershipOp

def indexByHash (crypto : List SignedMembershipOp) : OpIndex :=
  crypto.foldl (fun m o => m.insert (o.chainHash C) o) ∅

end Mae.Sync.Membership
