import Mae.Daemon.Documents
import Mae.Sync.Collection

/-! Who may do what to a KB, and the errors and payloads of the requests that ask. -/

namespace Mae.Daemon

open Sync Sync.Membership

inductive ErrorKind where
  | parseError | invalidRequest | methodNotFound | internalError | kbIdOwnedByAnother
  deriving DecidableEq, Repr

structure McpError where
  kind : ErrorKind
  message : String
  deriving DecidableEq, Repr

/-- A string of base64 in a request: it may fail to be base64, and its bytes may fail to be an update. -/
inductive Payload (Y : Yrs) where
  | badBase64 (error : String)
  | undecodable (error : String)
  | update (u : Y.Update)

def refuseUnaddressableKbId (kbId : Option String) : Except McpError Unit :=
  match kbId with
  | some kbId =>
    if kbIdIsAddressable kbId then .ok ()
    else .error ⟨.invalidRequest, s!"KB id {kbId.quote} is not addressable: it must be non-empty and must not " ++
      "contain ':' (it forms part of each node's document address, which splits on the first colon)"⟩
  | none => .ok ()

inductive KbOp where
  | join | read | edit | manage
  deriving DecidableEq, Repr

def KbOp.debug : KbOp → String
  | join => "Join"
  | read => "Read"
  | edit => "Edit"
  | manage => "Manage"

inductive AccessDecision where
  | allow
  | allowAutoJoin
  | pending
  | deny (message : String)
  deriving DecidableEq, Repr

variable {Y : Yrs} (env : Env Y) (kbId : String) (root : Root)

def derivedMembership (anchor : Key32) : Members :=
  let ops := root.oplogOps
  deriveValidMembersGoverned env.C ops anchor env.now (deriveGovernance env.C ops anchor) (env.view kbId)

def anchorInForce : Option Key32 :=
  if (CollectionDoc.oplogHead env.C root.oplogOps).isSome then env.anchor kbId else none

def memberRole (principal : String) : Option Role × ReplicationPolicy :=
  match anchorInForce env kbId root with
  | some anchor =>
    match (derivedMembership env kbId root anchor)[principal]? with
    | some m => (some m.role, m.replication)
    | none => (none, .full)
  | none => (root.roleOf principal, .full)

def kbMemberEpoch (principal : String) : UInt64 :=
  match anchorInForce env kbId root with
  | some anchor => (((derivedMembership env kbId root anchor)[principal]?).map (·.epoch)).getD 0
  | none => root.epochOf principal

def KbOp.needs : KbOp → Role
  | join | read => .viewer
  | edit => .editor
  | manage => .owner

/-- `kb_access_with_coll` on a collection that has been loaded. -/
def accessOn (env : Env Y) (kbId : String) (root : Root) (principal : String) (op : KbOp) (transport : Transport) :
    AccessDecision :=
  let (role, replication) := memberRole env kbId root principal
  if role ≠ some .owner ∧ root.transportPolicy.allows transport = false then
    let t := match transport with
      | .hub => "the hub"
      | .p2p => "the P2P mesh"
    .deny s!"KB '{kbId}' is not shared over {t}"
  else
    match role with
    | some role =>
      if op = .join ∧ replication = .queryOnly then
        .deny (s!"member is restricted to live-query-only access for KB '{kbId}' " ++
          "and may not replicate it locally (ADR-067)")
      else if role.includes op.needs then .allow
      else .deny s!"role '{role.asStr}' may not {op.debug} KB '{kbId}'"
    | none =>
      match op, root.joinPolicy with
      | .join, .permissive => .allowAutoJoin
      | .join, .invite => .pending
      | _, _ => .deny s!"not a member of KB '{kbId}'"

def kbAccess (principal : Option String) (op : KbOp) (transport : Transport) (s : Documents Y) :
    Documents Y × Except String AccessDecision :=
  match principal with
  | none => (s, .ok .allow)
  | some principal =>
    match s.loadCollection env kbId with
    | (s, .ok coll) => (s, .ok (accessOn env kbId (Y.root coll) principal op transport))
    | (s, .error e) => (s, .error e)

end Mae.Daemon
