import Mae.Library.Champion
import Mae.Sync.Membership.Readers

/-! The collection document as the owner's side writes it: the signed op-log and the epochs of the role mirror. -/

namespace Mae.Sync

open Std (ExtTreeMap)
open Library.Champion Sync.Membership

/-- An Ed25519 key pair: what the secret key signs verifies under the public key. -/
structure SigningKey (C : Crypto) where
  pubkey : Key32
  sign : Bytes → Bytes
  decodes : C.decodesKey pubkey = true
  length_sign : ∀ msg, (sign msg).length = 64
  verifies : ∀ msg, C.verifies pubkey msg (sign msg) = true

structure CollectionDoc where
  oplog : List SignedMembershipOp
  memberEpochs : ExtTreeMap String UInt64

namespace CollectionDoc

def oplogHead (C : Crypto) (ops : List SignedMembershipOp) : Option String :=
  let referenced := (ops.map (·.op.prevHash)).filter fun p => p != ""
  best (fun a b => decide (b < a)) ((ops.map (·.chainHash C)).filter fun h => h ∉ referenced)

def buildMembershipOp (C : Crypto) (doc : CollectionDoc) (kbId : String) (action : MembershipAction) (subject : String)
    (role : Option Role) (canInvite : Bool) (author : String) (issuedAt : UInt64) (expiresAt : Option UInt64)
    (epoch : UInt64) : MembershipOp where
  kbId := kbId
  action := action
  subject := subject
  role := role
  canInvite := canInvite
  author := author
  issuedAt := issuedAt
  expiresAt := expiresAt
  epoch := epoch
  prevHash := (oplogHead C doc.oplog).getD ""
  wrappedKey := none
  newPubkey := none
  newWrapPubkey := none
  recoveryPubkey := none
  replication := .full
  contentHash := none

def appendSignedOp (C : Crypto) (doc : CollectionDoc) (op : MembershipOp) (sig : Bytes) (authorPubkey : Key32) :
    CollectionDoc :=
  { doc with
    oplog := (doc.oplog.filter fun o => o.chainHash C != op.chainHash C sig) ++ [⟨op, sig, authorPubkey⟩] }

def epochOf (doc : CollectionDoc) (principal : String) : UInt64 := (doc.memberEpochs[principal]?).getD 0

def removePrincipal (doc : CollectionDoc) (principal : String) : CollectionDoc :=
  { doc with memberEpochs := doc.memberEpochs.erase principal }

def sign {C : Crypto} (key : SigningKey C) (op : MembershipOp) : Bytes := key.sign op.canonicalBytes

def removeOp (C : Crypto) (doc : CollectionDoc) (kbId removedFp ownerFp : String) (now : UInt64) : MembershipOp :=
  doc.buildMembershipOp C kbId .remove removedFp none false ownerFp now none 0

def authorRemove {C : Crypto} (doc : CollectionDoc) (kbId removedFp ownerFp : String) (owner : SigningKey C)
    (now : UInt64) : CollectionDoc :=
  let op := doc.removeOp C kbId removedFp ownerFp now
  (doc.appendSignedOp C op (sign owner op) owner.pubkey).removePrincipal removedFp

def rekeyOp (C : Crypto) (members : Members) (kbId ownerFp : String) (now : UInt64) (doc : CollectionDoc)
    (rewrap : String × Bytes) : MembershipOp :=
  let (role, canInvite, epoch) := match members[rewrap.1]? with
    | some m => (m.role, m.canInvite, m.epoch)
    | none => (.editor, false, doc.epochOf rewrap.1)
  { doc.buildMembershipOp C kbId .admits rewrap.1 (some role) canInvite ownerFp now none epoch with
    wrappedKey := some rewrap.2 }

/-- One turn of the loop of `author_rotate_on_remove` over `rewraps`. -/
def authorRekey {C : Crypto} (members : Members) (kbId removedFp ownerFp : String) (owner : SigningKey C) (now : UInt64)
    (doc : CollectionDoc) (rewrap : String × Bytes) : CollectionDoc :=
  if rewrap.1 = removedFp then doc
  else
    let op := rekeyOp C members kbId ownerFp now doc rewrap
    doc.appendSignedOp C op (sign owner op) owner.pubkey

def authorRotateOnRemove {C : Crypto} (doc : CollectionDoc) (kbId removedFp : String) (rewraps : List (String × Bytes))
    (ownerFp : String) (owner : SigningKey C) (now : UInt64) : CollectionDoc :=
  let governance := deriveGovernance C doc.oplog owner.pubkey
  let members := deriveValidMembersGoverned C doc.oplog owner.pubkey now governance {}
  rewraps.foldl (authorRekey members kbId removedFp ownerFp owner now)
    (doc.authorRemove kbId removedFp ownerFp owner now)

end CollectionDoc

def SigningKey.sample (id : Char) (serial : Bytes → UInt8) : SigningKey .sample where
  pubkey := sampleKey id
  sign msg := List.replicate 63 (UInt8.ofNat id.toNat) ++ [serial msg]
  decodes := rfl
  length_sign msg := by simp
  verifies msg := by simp [Crypto.sample, sampleKey, List.replicate_succ]

end Mae.Sync
