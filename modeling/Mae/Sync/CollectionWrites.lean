import Mae.Sync.CollectionRoot
import Mae.Sync.Lease

/-! What the setters of a collection write: its members, pending requests, nodes and leases. -/

namespace Mae.Sync.Root

open Std (ExtTreeMap)
open Sync.Membership Lease

section

variable (root : Root) (principal label : String) (role : Role) (token : UInt64)

def seatMember : List Write :=
  root.ensureMap "member_roles" ++
    [Write.putRecord "member_roles" principal
      (memberFields role label (nextEpoch (root.roleEpoch principal) role (root.isRetired principal) token))] ++
    (if root.isRetired principal then [Write.removeIn "retired" principal] else [])

def upsertMember : List Write :=
  root.seatMember principal label role token

def removePrincipal : List Write :=
  [Write.removeIn "member_roles" principal] ++
    match root.roleEpoch principal with
    | some (_, epoch) => root.ensureMap "retired" ++ [Write.putIn "retired" principal (toString epoch.toNat)]
    | none => []

def setJoinPolicy (policy : JoinPolicy) : List Write := [.put "join_policy" policy.asStr]

def pendingFields (requestedAt : String) (pubkey wrapPubkey : Option Key32) : List (String × String) :=
  [("label", label), ("requested_at", requestedAt)] ++ (pubkey.map fun pk => ("pubkey", hexEncode pk.toList)).toList ++
    (wrapPubkey.map fun pk => ("wrap_pubkey", hexEncode pk.toList)).toList

def addPending (requestedAt : String) (pubkey wrapPubkey : Option Key32) : List Write :=
  root.ensureMap "pending" ++ [Write.putRecord "pending" principal (pendingFields label requestedAt pubkey wrapPubkey)]

def pendingLabel : String :=
  ((root.record "pending" principal).bind fun req => req["label"]?).getD ""

def approve : List Write :=
  [Write.removeIn "pending" principal] ++ root.seatMember principal (root.pendingLabel principal) role token

def addNode (nodeId title : String) : List Write := [.putIn "nodes" nodeId title]

def removeNode (nodeId : String) : List Write := [.removeIn "nodes" nodeId]

def keyedPending : List String :=
  (root.entries "pending").toList.filterMap fun e =>
    e.2.fields?.bind fun req => ((req["wrap_pubkey"]?).bind hexKey32).map fun _ => e.1

def leaseNumber (entry : ExtTreeMap String String) (key : String) : ℕ :=
  ((entry[key]?.bind parseU64).map UInt64.toNat).getD 0

def leaseClaim (entry : ExtTreeMap String String) : LeaseClaim where
  opKind := entry["op_kind"]?.getD ""
  holderFp := entry["holder_fp"]?.getD ""
  claimedAt := leaseNumber entry "claimed_at"
  leaseTtlSecs := leaseNumber entry "ttl_secs"
  generation := leaseNumber entry "generation"

def leases : Leases :=
  ExtTreeMap.ofList ((root.entries "leases").toList.filterMap fun e => e.2.fields?.map fun entry => (e.1, leaseClaim entry))

def leaseFields (claim : LeaseClaim) : List (String × String) :=
  [("op_kind", claim.opKind), ("holder_fp", claim.holderFp), ("claimed_at", toString claim.claimedAt),
    ("ttl_secs", toString claim.leaseTtlSecs), ("generation", toString claim.generation)]

def claimLease (opKind holderFp : String) (ttlSecs now : ℕ) : List Write :=
  match (Lease.claimLease root.leases opKind holderFp ttlSecs now).2 with
  | some claim =>
    root.ensureMap "leases" ++ [Write.putRecord "leases" (claimKey opKind holderFp now) (leaseFields claim)]
  | none => []

end

end Mae.Sync.Root
