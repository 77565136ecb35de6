import Mae.Library.Checks

/-! Membership ops, the bytes they sign and the hash they are chained by. -/

namespace Mae.Sync.Membership

abbrev Bytes := List UInt8
abbrev Key32 := Vector UInt8 32

inductive Role where
  | owner | editor | viewer
  deriving DecidableEq, Repr, Inhabited

def Role.asStr : Role → String
  | .owner => "owner"
  | .editor => "editor"
  | .viewer => "viewer"

def Role.rank : Role → ℕ
  | .viewer => 0
  | .editor => 1
  | .owner => 2

def Role.includes (r other : Role) : Bool := decide (other.rank ≤ r.rank)

inductive Encryption where
  | none | e2e
  deriving DecidableEq, Repr, Inhabited

inductive MembershipAction where
  | admits | remove | setRole | revoke | setGovernance | setEncryption
  | rebind | registerRecoveryKey | rebirth
  deriving DecidableEq, Repr, Inhabited

def MembershipAction.asStr : MembershipAction → String
  | .admits => "admit"
  | .remove => "remove"
  | .setRole => "set_role"
  | .revoke => "revoke"
  | .setGovernance => "set_governance"
  | .setEncryption => "set_encryption"
  | .rebind => "rebind"
  | .registerRecoveryKey => "register_recovery_key"
  | .rebirth => "rebirth"

inductive ReplicationPolicy where
  | full | queryOnly
  deriving DecidableEq, Repr, Inhabited

def ReplicationPolicy.asStr : ReplicationPolicy → String
  | .full => "full"
  | .queryOnly => "query_only"

structure MembershipOp where
  kbId : String
  action : MembershipAction
  subject : String
  role : Option Role
  canInvite : Bool
  author : String
  issuedAt : UInt64
  expiresAt : Option UInt64
  epoch : UInt64
  prevHash : String
  wrappedKey : Option Bytes
  newPubkey : Option Key32
  newWrapPubkey : Option Key32
  recoveryPubkey : Option Key32
  replication : ReplicationPolicy
  contentHash : Option String
  deriving DecidableEq, Inhabited

/-- The primitives of the `sha2`, `base64` and `ed25519_dalek` crates. -/
structure Crypto where
  sha256 : Bytes → Bytes
  sha256_ne_nil : ∀ b, sha256 b ≠ []
  base64 : Bytes → String
  decodesKey : Key32 → Bool
  verifies : Key32 → Bytes → Bytes → Bool

def asBytes (s : String) : Bytes := s.toByteArray.data.toList

def hexDigit (n : ℕ) : Char := if n < 10 then Char.ofNat (48 + n) else Char.ofNat (87 + n)

def hexEncode (b : Bytes) : String :=
  String.ofList (b.flatMap fun x => [hexDigit (x.toNat / 16), hexDigit (x.toNat % 16)])

def field (s : String) : Bytes := asBytes s ++ [0]

namespace MembershipOp

def version (op : MembershipOp) : String :=
  if op.action = .rebirth then "maememb/v6"
  else if op.action = .rebind then "maememb/v3"
  else if op.action = .registerRecoveryKey then "maememb/v4"
  else if op.replication = .queryOnly then "maememb/v5"
  else if op.wrappedKey.isSome then "maememb/v2"
  else "maememb/v1"

def hexKey (k : Option Key32) : String := (k.map fun pk => hexEncode pk.toList).getD ""

/-- The fields that `canonical_bytes` appends after `prev_hash`. -/
def versionFields (op : MembershipOp) : List String :=
  (if op.action = .rebirth then [op.contentHash.getD ""] else []) ++
  (if op.action = .rebind then [hexKey op.newPubkey, hexKey op.newWrapPubkey]
  else if op.action = .registerRecoveryKey then [hexKey op.recoveryPubkey]
  else if op.replication = .queryOnly then
    [(op.wrappedKey.map hexEncode).getD "", op.replication.asStr]
  else match op.wrappedKey with
    | some wk => [hexEncode wk]
    | none => [])

def canonicalFields (op : MembershipOp) : List String :=
  [op.version, op.kbId, op.action.asStr, op.subject, (op.role.map Role.asStr).getD "",
    if op.canInvite then "1" else "0", op.author, toString op.issuedAt.toNat,
    (op.expiresAt.map fun e => toString e.toNat).getD "", toString op.epoch.toNat, op.prevHash] ++
    op.versionFields

def canonicalBytes (op : MembershipOp) : Bytes := op.canonicalFields.flatMap field

def verify (C : Crypto) (op : MembershipOp) (sig : Bytes) (authorPubkey : Key32) : Bool :=
  C.decodesKey authorPubkey && sig.length == 64 && C.verifies authorPubkey op.canonicalBytes sig

def chainHash (C : Crypto) (op : MembershipOp) (sig : Bytes) : String :=
  hexEncode (C.sha256 (op.canonicalBytes ++ sig))

end MembershipOp

def fingerprintOf (C : Crypto) (pubkey : Key32) : String :=
  "SHA256:" ++ C.base64 (C.sha256 pubkey.toList)

def MembershipOp.fingerprintMatches (C : Crypto) (op : MembershipOp) (pubkey : Key32) : Bool :=
  fingerprintOf C pubkey == op.author

structure SignedMembershipOp where
  op : MembershipOp
  sig : Bytes
  authorPubkey : Key32
  deriving DecidableEq, Inhabited

abbrev OpLog := List SignedMembershipOp

namespace SignedMembershipOp

def chainHash (C : Crypto) (o : SignedMembershipOp) : String := o.op.chainHash C o.sig

def verifySigned (C : Crypto) (o : SignedMembershipOp) : Bool :=
  o.op.fingerprintMatches C o.authorPubkey && o.op.verify C o.sig o.authorPubkey

end SignedMembershipOp

structure ValidMember where
  principal : String
  role : Role
  canInvite : Bool
  invitedBy : String
  epoch : UInt64
  replication : ReplicationPolicy
  deriving DecidableEq, Inhabited

inductive InviterRemovalPolicy where
  | pendingOnly | cascadeAll | retain
  deriving DecidableEq, Repr, Inhabited

structure MembershipView where
  cascade : InviterRemovalPolicy := .pendingOnly
  blocklist : Finset String := ∅

inductive Governance where
  | singleOwner
  | quorum (threshold : ℕ)
  deriving DecidableEq, Repr, Inhabited

def Crypto.sample : Crypto where
  sha256 b := [b.getLast?.getD 0]
  sha256_ne_nil := by simp
  base64 b := String.ofList (b.map fun x => Char.ofNat x.toNat)
  decodesKey _ := true
  verifies pk _ sig := sig.head? == pk.toList.head?

def sampleKey (id : Char) : Key32 := Vector.replicate 32 (UInt8.ofNat id.toNat)

def sampleFp (id : Char) : String := "SHA256:" ++ String.ofList [id]

def sampleHash (serial : UInt8) : String := hexEncode [serial]

def sampleSigned (serial : UInt8) (signer : Char) (op : MembershipOp) : SignedMembershipOp where
  op := op
  sig := List.replicate 63 (UInt8.ofNat signer.toNat) ++ [serial]
  authorPubkey := sampleKey signer

def sampleOp (prev : String) (author : Char) (action : MembershipAction) (subject : String) (role : Option Role) :
    MembershipOp :=
  { (default : MembershipOp) with
    kbId := "KB", action := action, subject := subject, role := role, author := sampleFp author, issuedAt := 1,
    prevHash := prev }

def sampleRebind (prev : String) (author successor : Char) : MembershipOp :=
  { sampleOp prev author .rebind (sampleFp successor) none with
    newPubkey := some (sampleKey successor), newWrapPubkey := some (sampleKey successor) }

def sampleGenesis : SignedMembershipOp :=
  sampleSigned 1 'o' (sampleOp "" 'o' .admits (sampleFp 'o') (some .owner))

def sampleLinked (serial parent : UInt8) (author : Char) (action : MembershipAction) (subject : String)
    (role : Option Role) : SignedMembershipOp :=
  sampleSigned serial author (sampleOp (sampleHash parent) author action subject role)

def sampleRegistration (serial parent : UInt8) (author key : Char) (issuedAt : UInt64) : SignedMembershipOp :=
  sampleSigned serial author
    { sampleOp (sampleHash parent) author .registerRecoveryKey (sampleFp author) none with
      recoveryPubkey := some (sampleKey key), issuedAt := issuedAt }

end Mae.Sync.Membership
