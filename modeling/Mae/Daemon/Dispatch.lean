import Mae.Daemon.KbMethods

/-! The methods of the daemon, what each may touch, and the dispatcher of document requests. -/

namespace Mae.Daemon

open Library Sync

variable {Y : Yrs}

inductive Method where
  | syncStateVector | syncUpdate | syncAwareness | syncFullState | syncDiff | syncResync | syncShare
  | docsList | docsContent | docsStats | docsMetadata | docsSaveIntent | docsSaveCommitted | docsDelete | debugStats
  | kbRegister | kbList | kbUnregister | kbShare | kbJoin | kbNodeFetch | kbNodeUpdate | kbCollectionOp | kbClaimLease
  | kbFetchArtifact | kbAddMember | kbRemoveMember | kbCollectionNodeAdd | kbCollectionNodeRemove | kbSetPolicy
  | kbBlockPrincipal | kbUnblockPrincipal | kbBlocklist | kbSetGovernance | kbRevoke | kbListPending | kbApproveMember
  | kbLeave | kbQueryCapabilities | kbQueryGet | kbQuerySearch | kbQueryGraph | kbQueryMyWrappedKey | kbQuerySelfToken
  deriving DecidableEq, Repr

namespace Method

def table : List (String × Method) :=
  [("sync/state_vector", syncStateVector), ("sync/update", syncUpdate), ("sync/awareness", syncAwareness),
    ("sync/full_state", syncFullState), ("sync/diff", syncDiff), ("sync/resync", syncResync), ("sync/share", syncShare),
    ("docs/list", docsList), ("docs/content", docsContent), ("docs/stats", docsStats), ("docs/metadata", docsMetadata),
    ("docs/save_intent", docsSaveIntent), ("docs/save_committed", docsSaveCommitted), ("docs/delete", docsDelete),
    ("$/debug", debugStats), ("kb/register", kbRegister), ("kb/list", kbList), ("kb/unregister", kbUnregister),
    ("kb/share", kbShare), ("kb/join", kbJoin), ("kb/node_fetch", kbNodeFetch), ("kb/node_update", kbNodeUpdate),
    ("kb/collection_op", kbCollectionOp), ("kb/claim_lease", kbClaimLease), ("kb/fetch_artifact", kbFetchArtifact),
    ("kb/add_member", kbAddMember), ("kb/remove_member", kbRemoveMember),
    ("kb/collection_node_add", kbCollectionNodeAdd), ("kb/collection_node_remove", kbCollectionNodeRemove),
    ("kb/set_policy", kbSetPolicy), ("kb/block_principal", kbBlockPrincipal),
    ("kb/unblock_principal", kbUnblockPrincipal), ("kb/blocklist", kbBlocklist),
    ("kb/set_governance", kbSetGovernance), ("kb/revoke", kbRevoke), ("kb/list_pending", kbListPending),
    ("kb/approve_member", kbApproveMember), ("kb/leave", kbLeave), ("kb/query.capabilities", kbQueryCapabilities),
    ("kb/query.get", kbQueryGet), ("kb/query.search", kbQuerySearch), ("kb/query.graph", kbQueryGraph),
    ("kb/query.my_wrapped_key", kbQueryMyWrappedKey), ("kb/query.self_token", kbQuerySelfToken)]

def parse (s : String) : Option Method := (table.find? fun entry => entry.1 == s).map (·.2)

end Method

inductive DocScope where
  | kbGated | selfGatedNamedDoc | nonKbDocOnly | enumerates
  deriving DecidableEq, Repr

def DocScope.of : Method → DocScope
  | .syncStateVector | .syncUpdate | .syncAwareness | .syncFullState | .syncDiff | .syncResync | .syncShare =>
    .selfGatedNamedDoc
  | .docsContent | .docsStats | .docsMetadata | .docsSaveIntent | .docsSaveCommitted | .docsDelete => .nonKbDocOnly
  | .docsList | .debugStats => .enumerates
  | .kbRegister | .kbList | .kbUnregister | .kbShare | .kbJoin | .kbNodeFetch | .kbNodeUpdate | .kbCollectionOp
  | .kbClaimLease | .kbFetchArtifact | .kbAddMember | .kbRemoveMember | .kbCollectionNodeAdd | .kbCollectionNodeRemove
  | .kbSetPolicy | .kbBlockPrincipal | .kbUnblockPrincipal | .kbBlocklist | .kbSetGovernance | .kbRevoke
  | .kbListPending | .kbApproveMember | .kbLeave | .kbQueryCapabilities | .kbQueryGet | .kbQuerySearch | .kbQueryGraph
  | .kbQueryMyWrappedKey | .kbQuerySelfToken => .kbGated

def kbOf (name : String) : Option String := (DocAddress.parse name).bind DocAddress.kbId?

def authorizeNamedDoc (method : Method) (params : Json) : Except McpError Unit :=
  match (params.field "doc").asStr with
  | some name =>
    if DocScope.of method = .nonKbDocOnly ∧ (kbOf name).isSome then
      .error (internalError s!"document '{name}' is not available")
    else .ok ()
  | none => .ok ()

def isEnumerable (name : String) : Bool := (kbOf name).isNone

def handleDocsList (h : Host Y) : ServerHandler Y (Reply Y) := do
  let names ← .look fun s => h.documentNames s.documents.docs
  return (names.filter isEnumerable).map fun name => ("document", .text name)

def handleDebugStats (h : Host Y) : ServerHandler Y (Reply Y) := do
  let names ← .look fun s => h.documentNames s.documents.docs
  return names.map fun name => ("document", .text name)

/-- `docs/content`, `docs/stats` and `docs/metadata`: they answer from the document that is named. -/
def handleDocsRead (h : Host Y) (params : Json) : ServerHandler Y (Reply Y) := do
  let name := docParam params
  let state ← (stateOf h name).mapError internalError
  return [("doc", .text name), ("content", .state state)]

def handleDocsSaveIntent (h : Host Y) (params : Json) : ServerHandler Y (Reply Y) := do
  let name := docParam params
  let _ ← stringParam params "expected_hash"
  let state ← (stateOf h name).mapError internalError
  return [("doc", .text name), ("result", .state state)]

def handleDocsSaveCommitted (h : Host Y) (who : Peer) (params : Json) : ServerHandler Y (Reply Y) := do
  let name := docParam params
  let savedBy := who.label.getD ((params.field "saved_by").asStr.getD "unknown")
  let _ ← (stateOf h name).attempt
  broadcastExcept who (.saveCommitted name savedBy)
  return [("doc", .text name), ("committed", .flag true)]

def Documents.deleteDoc (name : String) (docs : Documents Y) : Documents Y :=
  { docs.forget name with storage := Function.update docs.storage name none }

def handleDocsDelete (params : Json) : ServerHandler Y (Reply Y) := do
  let name := docParam params
  changeDocuments (Documents.deleteDoc name)
  return [("doc", .text name), ("deleted", .flag true)]

structure JsonRpcRequest where
  id : Json
  method : String
  params : Json

namespace JsonRpcRequest

def only (members : List (String × Json)) (key : String) : Option (Option Json) :=
  match members.filter fun m => m.1 == key with
  | [] => some none
  | [m] => some (some m.2)
  | _ => none

def ofMembers (members : List (String × Json)) : Option JsonRpcRequest := do
  let version ← only members "jsonrpc"
  let id ← only members "id"
  let method ← only members "method"
  let params ← only members "params"
  let _ ← version.bind Json.asStr
  return ⟨← id, ← method.bind Json.asStr, params.getD .null⟩

/-- `serde_json::from_str`; the struct may also be written as the array of its fields. -/
def ofText (text : String) : Option JsonRpcRequest :=
  match Json.parse text with
  | some (.obj members) => ofMembers members
  | some (.arr [.str _, id, .str method, params]) => some ⟨id, method, params⟩
  | _ => none

end JsonRpcRequest

def handleMethod (h : Host Y) (who : Peer) (request : JsonRpcRequest) : Method → ServerHandler Y (Reply Y)
  | .syncStateVector => handleSyncStateVector h who request.params
  | .syncUpdate => handleSyncUpdate h who request.params
  | .syncAwareness => handleSyncAwareness who request.params
  | .syncFullState => handleSyncFullState h who request.params
  | .syncDiff => handleSyncDiff h who request.params
  | .syncResync => handleSyncResync h who request.params
  | .syncShare => handleSyncShare h who request.params
  | .docsList => handleDocsList h
  | .docsContent | .docsStats | .docsMetadata => handleDocsRead h request.params
  | .docsSaveIntent => handleDocsSaveIntent h request.params
  | .docsSaveCommitted => handleDocsSaveCommitted h who request.params
  | .docsDelete => handleDocsDelete request.params
  | .debugStats => handleDebugStats h
  | .kbRegister => handleKbRegister who request.params
  | .kbList => handleKbList h who
  | .kbUnregister => handleKbUnregister who request.params
  | .kbShare => serveKbShare h who request.params
  | .kbJoin => handleKbJoin h who request.params
  | .kbNodeFetch => handleKbNodeFetch h who request.params
  | .kbNodeUpdate => serveKbNodeUpdate h who request.params
  | .kbCollectionOp => handleKbCollectionOp h who request.params
  | .kbClaimLease => handleKbClaimLease h who request.params
  | .kbFetchArtifact => handleKbFetchArtifact h who request.params
  | .kbAddMember => handleKbAddMember h who request.params
  | .kbRemoveMember => handleKbRemoveMember h who request.params
  | .kbCollectionNodeAdd => handleKbCollectionNodeAdd h who request.params
  | .kbCollectionNodeRemove => handleKbCollectionNodeRemove h who request.params
  | .kbSetPolicy => handleKbSetPolicy h who request.params
  | .kbBlockPrincipal => handleKbBlockUnblockPrincipal true request.params
  | .kbUnblockPrincipal => handleKbBlockUnblockPrincipal false request.params
  | .kbBlocklist => .answer []
  | .kbSetGovernance => handleKbSetGovernance h who request.params
  | .kbRevoke => handleKbRevoke h who request.params
  | .kbListPending => handleKbListPending h who request.params
  | .kbApproveMember => handleKbApproveMember h who request.params
  | .kbLeave => handleKbLeave h who request.params
  | .kbQueryCapabilities | .kbQueryGet | .kbQuerySearch | .kbQueryGraph | .kbQueryMyWrappedKey =>
    handleKbQuery h who request.method request.params
  | .kbQuerySelfToken => handleKbQuerySelfToken h who

def handleDocRequestInner (h : Host Y) (who : Peer) (msg : String) : ServerHandler Y (Reply Y) := do
  let request ← .ofOption (JsonRpcRequest.ofText msg) (parseError "Invalid JSON")
  .ofExcept ((h.charge who.principal request.method).mapError internalError)
  .ofExcept (refuseUnaddressableKbId (request.params.field "kb_id").asStr)
  let method ← .ofOption (Method.parse request.method) ⟨.methodNotFound, s!"Unknown method: {request.method}"⟩
  .ofExcept (authorizeNamedDoc method request.params)
  handleMethod h who request method

end Mae.Daemon
