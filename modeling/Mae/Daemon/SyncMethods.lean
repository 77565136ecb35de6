import Mae.Daemon.EpochFence
import Mae.Daemon.Server

/-! The handlers of `sync/*`, which work on a document that the request names. -/

namespace Mae.Sync

def AdmissionError.debug : AdmissionError → String
  | .badSignature => "BadSignature"
  | .notAMember => "NotAMember"
  | .insufficientRole => "InsufficientRole"
  | .staleEpoch opEpoch currentEpoch =>
    s!"StaleEpoch \x7b op_epoch: {opEpoch.toNat}, current_epoch: {currentEpoch.toNat} \x7d"

end Mae.Sync

namespace Mae.Daemon

open Library Sync Membership

variable {Y : Yrs}

/-- A field of a reply. -/
inductive Value (Y : Yrs) where
  | text (s : String)
  | flag (b : Bool)
  | number (n : ℕ)
  | state (u : Y.Update)
  /-- The state vector of a state. -/
  | sv (u : Y.Update)
  /-- What a state has beyond a state vector. -/
  | diff (u : Y.Update) (since : Bytes)
  | nodes (states : List (String × Value Y))

abbrev Reply (Y : Yrs) := List (String × Value Y)

variable (h : Host Y) (who : Peer) (kbId : String) (params : Json) (name : String)

def docParam : String := (params.field "doc").asStr.getD "default"

def contentParams (j : Json) : ContentParams where
  kbId := (j.field "kb_id").asStr
  nodeId := (j.field "node_id").asStr
  author := (j.field "author").asStr
  epoch := (j.field "epoch").asU64.map UInt64.ofNat
  issuedAt := (j.field "issued_at").asU64.map UInt64.ofNat
  baseSv := (j.field "base_sv").asStr.bind fun text => (h.base64 text).toOption
  sig := (j.field "sig").asStr.bind fun text => (h.base64 text).toOption
  authorPubkey := (j.field "author_pubkey").asStr.bind fun text => (h.base64 text).toOption

def ownAnchor (signer : Key32) (root : Root) : Option Key32 :=
  if root.owner ≠ "" ∧ root.owner = fingerprintOf h.C signer then some signer else none

def resolveContentAnchor (loaded : Option Y.Doc) : Handler (Server Y) String (Option Key32) :=
  match h.anchor kbId, h.signer with
  | some anchor, _ => .answer (some anchor)
  | none, none => .answer none
  | none, some signer => do
    match ← (collectionOr h kbId loaded).attempt with
    | .ok coll => .answer (ownAnchor h signer (Y.root coll))
    | .error _ => .answer none

def verifyContentOp (anchor : Key32) (signed : SignedContentOp) (loaded : Option Y.Doc) :
    Handler (Server Y) String Unit := do
  let coll ← collectionOr h kbId loaded
  .ofExcept ((signed.admitOp h.C (derivedMembership h.toEnv kbId (Y.root coll) anchor)).mapError fun e =>
    s!"signed content op rejected: {e.debug}")

def requireSigned (transport : Transport) : Bool := transport = .p2p || h.requireSignedFlag

def verifyHeader (nodeId : String) (anchor : Key32) (bytes : Bytes) (header : Option Json) (required : Bool) :
    Handler (Server Y) String (Option ContentParams) :=
  match header.filter fun j => (j.get? "sig").isSome with
  | none =>
    if required then
      .fail (s!"unsigned content op for KB '{kbId}' node '{nodeId}' rejected on the mesh (ADR-036 require-signed)")
    else .answer none
  | some header => do
    let signed ← .ofOption (SignedContentOp.fromParams ((contentParams h header).addressed kbId nodeId) bytes)
      "malformed signed content op header"
    verifyContentOp h kbId anchor signed none
    return some signed.headerParams

def verifyRelayedContentOp (bytes : Bytes) (header : Option Json) (required : Bool) :
    Handler (Server Y) String (Option ContentParams) :=
  match DocAddress.parse name with
  | some (.kbNode _ nodeId) => do
    match ← resolveContentAnchor h kbId none with
    | some anchor => verifyHeader h kbId nodeId anchor bytes header required
    | none => .answer none
  | _ => .answer none

/-- The fence on the state of the node document; `update_new_op_authors` comes with the documents. -/
def enforceEpochFenceOn (h : Host Y) (kbId nodeId name : String) (bytes : Bytes) (principal : String)
    (loaded : Option Y.Doc) : Handler (Server Y) String Unit := do
  let coll ← (collectionOr h kbId loaded).mapError fun e => s!"epoch lookup failed for KB '{kbId}': {e}"
  let epochNow := kbMemberEpoch h.toEnv kbId (Y.root coll) principal
  let cNow := deriveKbClientId principal epochNow
  match ← (stateOf h name).attempt with
  | .error _ => .answer ()
  | .ok state => do
    let u ← .ofExcept ((h.decodeUpdate bytes).mapError fun e => s!"could not decode update: {e}")
    match (Y.newOpAuthors (Y.apply Y.blank state) u).find? fun a => a ≠ cNow with
    | some stale =>
      .fail (s!"rebase required: node '{nodeId}' carries an op from stale-epoch client {stale} " ++
        s!"(current-epoch author is {cNow}, epoch {epochNow}); adopt authoritative state and re-author the edit")
    | none => .answer ()

def relayedHeader (bytes : Bytes) : ServerHandler Y (Option ContentParams) :=
  match (params.field "kb_id").asStr with
  | some kbId =>
    (verifyRelayedContentOp h kbId name bytes (params.get? "content_header") (requireSigned h who.transport)).mapError
      internalError
  | none => .answer none

def gateNodeWrite (bytes : Bytes) (header : Option ContentParams) : ServerHandler Y Unit :=
  match DocAddress.parse name with
  | some (.kbNode _ nodeId) =>
    match (params.field "kb_id").asStr with
    | none => .fail (internalError "kb node writes via sync/update must carry kb_id")
    | some kbId => do
      requireAccess h who kbId .edit s!"cannot write to KB '{kbId}'"
      match header.bind (·.author) with
      | some author => (enforceEpochFenceOn h kbId nodeId name bytes author none).mapError internalError
      | none => .answer ()
  | _ => .answer ()

def handleSyncUpdate : ServerHandler Y (Reply Y) := do
  let name ← stringParam params "doc"
  denyCollectionSmuggling h who name
  firstInteraction h who name
  let bytes ← bytesParam h params "update" "invalid base64"
  .check (bytes.length ≤ h.maxUpdateSize)
    (parseError s!"update too large: {bytes.length} bytes (max {h.maxUpdateSize})")
  let header ← relayedHeader h who params name bytes
  gateNodeWrite h who params name bytes header
  let u ← (applyBytes h name bytes).mapError internalError
  broadcastExcept who (.syncUpdate name u header)
  return [("doc", .text name)]

def handleSyncShare : ServerHandler Y (Reply Y) := do
  let name := docParam params
  insertSessionDoc who name
  subscribeDoc who name
  let bytes ← bytesParam h params "update" "invalid base64"
  let u ← (shareBytes h name bytes).mapError internalError
  broadcastExcept who (.syncUpdate name u none)
  return [("doc", .text name)]

def handleSyncAwareness : ServerHandler Y (Reply Y) := do
  let name := docParam params
  insertSessionDoc who name
  subscribeDoc who name
  broadcastExcept who (.awarenessUpdate name who.id)
  return [("doc", .text name)]

def handleSyncStateVector : ServerHandler Y (Reply Y) := do
  let name := docParam params
  denyKbDocRead h who name
  let state ← (stateOf h name).mapError internalError
  return [("doc", .text name), ("sv", .sv state)]

def handleSyncFullState : ServerHandler Y (Reply Y) := do
  let name := docParam params
  denyKbDocRead h who name
  firstInteraction h who name
  let state ← (stateOf h name).mapError internalError
  return [("doc", .text name), ("state", .state state)]

def handleSyncDiff : ServerHandler Y (Reply Y) := do
  let name := docParam params
  denyKbDocRead h who name
  let since ← bytesParam h params "sv" "invalid base64"
  let state ← (stateOf h name).mapError internalError
  return [("doc", .text name), ("update", .diff state since), ("server_sv", .sv state)]

def resolveName (s : Server Y) : String :=
  if s.documents.hasDoc name then name else (h.findDocBySuffix s.documents.docs name).getD name

def handleSyncResync : ServerHandler Y (Reply Y) := do
  let rawName := docParam params
  denyKbDocRead h who rawName
  let name ← .look (resolveName h rawName)
  .when (name ≠ rawName) (denyKbDocRead h who name)
  firstInteraction h who name
  let state ← (stateOf h name).mapError internalError
  return [("doc", .text name), ("state", .state state), ("sv", .sv state)]

end Mae.Daemon
