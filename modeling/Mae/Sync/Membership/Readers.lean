import Mae.Sync.Membership.Derive

/-! The readers of the op-log that are rooted at the anchored owner. -/

namespace Mae.Sync.Membership

open Std

def isWhitespace (c : Char) : Bool :=
  let n := c.toNat
  decide (9 ≤ n ∧ n ≤ 13) || n == 0x20 || n == 0x85 || n == 0xA0 || n == 0x1680 ||
    decide (0x2000 ≤ n ∧ n ≤ 0x200A) || n == 0x2028 || n == 0x2029 || n == 0x202F || n == 0x205F || n == 0x3000

def trim (cs : List Char) : List Char :=
  ((cs.dropWhile isWhitespace).reverse.dropWhile isWhitespace).reverse

def parseUsize (cs : List Char) : Option ℕ :=
  let digits := if cs.head? = some '+' then cs.tail else cs
  if digits ≠ [] ∧ digits.all Char.isDigit then
    let n := digits.foldl (fun n c => 10 * n + (c.toNat - 48)) 0
    if n < 2 ^ 64 then some n else none
  else none

def Governance.parseSpec (s : String) : Option Governance :=
  let cs := trim s.toList
  if cs = "single-owner".toList then some .singleOwner
  else if "quorum:".toList.isPrefixOf cs then
    (parseUsize (cs.drop "quorum:".toList.length)).bind fun threshold =>
      if threshold = 0 then none else some (.quorum threshold)
  else none

variable (C : Crypto) (ops : List SignedMembershipOp)

def isBoundRebind (o : SignedMembershipOp) : Bool :=
  o.op.action == .rebind && (o.op.newPubkey.any fun pk => fingerprintOf C pk == o.op.subject) &&
    o.op.subject != o.op.author

def chainStep (s : Finset String × Bool) (o : SignedMembershipOp) : Finset String × Bool :=
  if isBoundRebind C o ∧ o.op.author ∈ s.1 ∧ o.op.subject ∉ s.1 then (insert o.op.subject s.1, true) else s

def chainLoop (C : Crypto) (crypto : List SignedMembershipOp) : ℕ → Finset String → Finset String
  | 0, chain => chain
  | n + 1, chain =>
    let s := crypto.foldl (chainStep C) (chain, false)
    if s.2 then chainLoop C crypto n s.1 else s.1

def ownerPrincipalChain (crypto : List SignedMembershipOp) (genesisOwner : String) : Finset String :=
  chainLoop C crypto (crypto.length + 1) {genesisOwner}

def genesisRecord (crypto : List SignedMembershipOp) (anchor : Key32) : Option SignedMembershipOp :=
  crypto.find? (isGenesis anchor)

def isOwnerPrincipal (anchor : Key32) (fp : String) : Bool :=
  match genesisRecord (cryptoValid C ops) anchor with
  | some g => decide (fp ∈ ownerPrincipalChain C (cryptoValid C ops) g.op.subject)
  | none => false

def latestGovernance (byHash : OpIndex) (owners : Finset String) (order : List String) : Governance :=
  order.foldl
    (fun gov h =>
      let o := byHash[h]!.op
      if o.action = .setGovernance ∧ o.author ∈ owners then (Governance.parseSpec o.subject).getD gov else gov)
    .singleOwner

def deriveGovernance (anchor : Key32) : Governance :=
  let crypto := cryptoValid C ops
  let byHash := indexByHash C crypto
  match genesisRecord crypto anchor with
  | none => .singleOwner
  | some g =>
    latestGovernance byHash (ownerPrincipalChain C crypto g.op.subject) (causalOrder byHash (g.chainHash C))

def deriveEncryption (anchor : Key32) : Encryption :=
  let crypto := cryptoValid C ops
  match genesisRecord crypto anchor with
  | none => .none
  | some g =>
    let owners := ownerPrincipalChain C crypto g.op.subject
    if crypto.any fun o => o.op.action == .setEncryption && decide (o.op.author ∈ owners) && o.op.subject == "e2e"
    then .e2e else .none

abbrev Rebirths := ExtTreeMap String (UInt64 × String)

def rebirthStep (out : Rebirths) (o : SignedMembershipOp) : Rebirths :=
  match o.op.contentHash.filter fun h => h != "" with
  | none => out
  | some hash =>
    match out[o.op.subject]? with
    | some (haveEpoch, haveHash) =>
      if o.op.epoch < haveEpoch then out
      else if haveEpoch = o.op.epoch then
        if hash < haveHash then out.insert o.op.subject (o.op.epoch, hash) else out
      else out.insert o.op.subject (o.op.epoch, hash)
    | none => out.insert o.op.subject (o.op.epoch, hash)

def deriveRebirths (anchor : Key32) : Rebirths :=
  let crypto := cryptoValid C ops
  match genesisRecord crypto anchor with
  | none => ∅
  | some g =>
    let owners := ownerPrincipalChain C crypto g.op.subject
    (crypto.filter fun o => o.op.action == .rebirth && decide (o.op.author ∈ owners)).foldl rebirthStep ∅

def latestWrappedKey (byHash : OpIndex) (owners : Finset String) (order : List String) (fp : String) : Option Bytes :=
  order.foldl
    (fun latest h =>
      let o := byHash[h]!.op
      if o.author ∈ owners ∧ o.subject = fp then o.wrappedKey.or latest else latest)
    none

def findWrappedContentKey (anchor : Key32) (fp : String) : Option Bytes :=
  let crypto := cryptoValid C ops
  let byHash := indexByHash C crypto
  match genesisRecord crypto anchor with
  | none => none
  | some g =>
    latestWrappedKey byHash (ownerPrincipalChain C crypto g.op.subject) (causalOrder byHash (g.chainHash C)) fp

def replicationHistory (anchor : Key32) (principal : String) : List ReplicationPolicy :=
  let crypto := cryptoValid C ops
  let byHash := indexByHash C crypto
  match genesisRecord crypto anchor with
  | none => []
  | some g =>
    (causalOrder byHash (g.chainHash C)).filterMap fun h =>
      let op := byHash[h]!.op
      if op.subject = principal ∧ (h = g.chainHash C ∨ op.action = .admits ∨ op.action = .setRole) then
        some op.replication
      else none

def hadFullReplicationWindow (anchor : Key32) (principal : String) : Option Bool :=
  let history := replicationHistory C ops anchor principal
  match history.getLast? with
  | none => none
  | some last => if last ≠ .queryOnly then none else some (history.dropLast.contains .full)

end Mae.Sync.Membership
