import Mae.Daemon.KbShare
import Mae.Daemon.SelfService
import Mae.Daemon.SyncMethods
import Mae.Sync.CollectionWrites

/-! The handlers of `kb/*`: sharing, joining and leaving a KB, its nodes, its members and its policies. -/

namespace Mae.Daemon

open Library Sync Sync.Membership

variable {Y : Yrs}

def cannotManage (kbId : String) : String := s!"not authorized to manage KB '{kbId}'"

def cannotEdit (kbId : String) : String := s!"not authorized to edit KB '{kbId}'"

def nowStamp (h : Host Y) : String := toString h.now.toNat

def roleParam (params : Json) : Role := ((params.field "role").asStr.bind Role.parse).getD .editor

def keyParam (j : Json) (key : String) : Option Key32 := (j.field key).asStr.bind hexKey32

def handleKbRegister (who : Peer) (params : Json) : ServerHandler Y (Reply Y) := do
  let kbId ← stringParam params "kb_id"
  insertSessionDoc who (collectionDocName kbId)
  subscribeDoc who (collectionDocName kbId)
  .change fun s => { s with kbMetas := s.kbMetas.insert kbId }
  return [("kb_id", .text kbId), ("registered", .flag true)]

def handleKbUnregister (who : Peer) (params : Json) : ServerHandler Y (Reply Y) := do
  let kbId ← stringParam params "kb_id"
  .change fun s => { s with kbMetas := s.kbMetas.filter (· ≠ kbId) }
  removeSessionDoc who (collectionDocName kbId)
  return [("kb_id", .text kbId), ("unregistered", .flag true)]

def visibleKbs (h : Host Y) (who : Peer) : List String → ServerHandler Y (List String)
  | [] => .answer []
  | kbId :: kbIds => do
    let decision ← (access h who kbId .read).attempt
    let rest ← visibleKbs h who kbIds
    return if decision.toOption = some .allow then kbId :: rest else rest

def handleKbList (h : Host Y) (who : Peer) : ServerHandler Y (Reply Y) := do
  let metas ← .look (·.kbMetas)
  let visible ← visibleKbs h who metas
  return visible.map fun kbId => ("kb", .text kbId)

section Collection

variable (h : Host Y) (who : Peer) (kbId : String)

def writeCollection (coll : Y.Doc) (ws : List Write) : ServerHandler Y Y.Doc := do
  persistAndBroadcastCollection h who kbId (Y.record coll ws)
  return Y.transact coll ws

def mutateCollection (op : KbOp) (other : String) (writes : Root → Except McpError (List Write)) :
    ServerHandler Y Y.Doc := do
  requireAccess h who kbId op other
  let coll ← (loadedCollection h kbId).mapError internalError
  let ws ← .ofExcept (writes (Y.root coll))
  writeCollection h who kbId coll ws

def buildMembershipOp (h : Host Y) (root : Root) (kbId : String) (action : MembershipAction) (subject : String)
    (role : Option Role) (canInvite : Bool) (author : String) (epoch : UInt64) : MembershipOp :=
  CollectionDoc.buildMembershipOp h.C ⟨root.oplogOps, ∅⟩ kbId action subject role canInvite author h.now none epoch

def appendOwnOp (signer : Key32) (coll : Y.Doc) (op : MembershipOp) : ServerHandler Y Y.Doc :=
  writeCollection h who kbId coll ((Y.root coll).appendSignedOp h.C ⟨op, h.sign op, signer⟩)

def seedGenesis (signer : Key32) (coll : Y.Doc) : ServerHandler Y Y.Doc :=
  let root := Y.root coll
  if (CollectionDoc.oplogHead h.C root.oplogOps).isNone then
    appendOwnOp h who kbId signer coll
      (buildMembershipOp h root kbId .admits root.owner (some .owner) true root.owner 0)
  else .answer coll

def appendSignedMembership (coll : Y.Doc) (action : MembershipAction) (subject : String) (role : Option Role) :
    ServerHandler Y Unit :=
  let owner := (Y.root coll).owner
  match h.signer.filter fun signer => owner ≠ "" ∧ fingerprintOf h.C signer = owner with
  | none => .answer ()
  | some signer => do
    let seeded ← seedGenesis h who kbId signer coll
    let root := Y.root seeded
    let _ ← appendOwnOp h who kbId signer seeded
      (buildMembershipOp h root kbId action subject role false owner (root.epochOf subject))

def handleKbSetPolicy (params : Json) : ServerHandler Y (Reply Y) := do
  let kbId ← stringParam params "kb_id"
  let policy ← .ofOption ((params.field "policy").asStr.bind JoinPolicy.parse)
    (parseError "policy must be restrictive|invite|permissive")
  let _ ← mutateCollection h who kbId .manage (cannotManage kbId) fun _ => .ok (Root.setJoinPolicy policy)
  return [("kb_id", .text kbId), ("policy", .text policy.asStr)]

def handleKbCollectionNodeAdd (params : Json) : ServerHandler Y (Reply Y) := do
  let kbId ← stringParam params "kb_id"
  let nodeId ← stringParam params "node_id"
  let title := (params.field "title").asStr.getD ""
  let _ ← mutateCollection h who kbId .edit (cannotEdit kbId) fun _ => .ok (Root.addNode nodeId title)
  return [("kb_id", .text kbId), ("node_id", .text nodeId), ("added", .flag true)]

def handleKbCollectionNodeRemove (params : Json) : ServerHandler Y (Reply Y) := do
  let kbId ← stringParam params "kb_id"
  let nodeId ← stringParam params "node_id"
  let _ ← mutateCollection h who kbId .edit (cannotEdit kbId) fun _ => .ok (Root.removeNode nodeId)
  return [("kb_id", .text kbId), ("node_id", .text nodeId), ("added", .flag false)]

def handleKbAddMember (params : Json) : ServerHandler Y (Reply Y) := do
  let kbId ← stringParam params "kb_id"
  let member ← stringParam params "member"
  let role := roleParam params
  let coll ← mutateCollection h who kbId .manage (cannotManage kbId) fun root =>
    .ok (root.upsertMember member ((params.field "label").asStr.getD "") role h.freshEpochToken)
  appendSignedMembership h who kbId coll .admits member (some role)
  return [("kb_id", .text kbId), ("member", .text member), ("added", .flag true)]

def handleKbRemoveMember (params : Json) : ServerHandler Y (Reply Y) := do
  let kbId ← stringParam params "kb_id"
  let member ← stringParam params "member"
  let coll ← mutateCollection h who kbId .manage (cannotManage kbId) fun root =>
    if root.owner = member then .error (internalError s!"cannot remove the owner of KB '{kbId}'")
    else .ok (root.removePrincipal member)
  appendSignedMembership h who kbId coll .remove member none
  return [("kb_id", .text kbId), ("member", .text member), ("added", .flag false)]

def handleKbApproveMember (params : Json) : ServerHandler Y (Reply Y) := do
  let kbId ← stringParam params "kb_id"
  let principal ← stringParam params "principal"
  let role := roleParam params
  let coll ← mutateCollection h who kbId .manage (cannotManage kbId) fun root =>
    .ok (root.approve principal role h.freshEpochToken)
  appendSignedMembership h who kbId coll .admits principal (some role)
  return [("kb_id", .text kbId), ("principal", .text principal), ("role", .text role.asStr)]

def handleKbListPending (params : Json) : ServerHandler Y (Reply Y) := do
  let kbId ← stringParam params "kb_id"
  requireAccess h who kbId .manage (cannotManage kbId)
  let coll ← (loadedCollection h kbId).mapError internalError
  return [("kb_id", .text kbId)] ++ ((Y.root coll).entries "pending").keys.map fun fp => ("pending", .text fp)

def Governance.toSpec : Governance → String
  | .singleOwner => "single-owner"
  | .quorum threshold => s!"quorum:{threshold}"

def handleKbSetGovernance (params : Json) : ServerHandler Y (Reply Y) := do
  let kbId ← stringParam params "kb_id"
  let governance ← .ofOption ((params.field "governance").asStr.bind Governance.parseSpec)
    (parseError "governance must be single-owner|quorum:N (N>=1)")
  requireAccess h who kbId .manage (cannotManage kbId)
  let coll ← (loadedCollection h kbId).mapError internalError
  .check (h.signer.any fun signer => fingerprintOf h.C signer = (Y.root coll).owner ∧ (Y.root coll).owner ≠ "")
    (internalError s!"only the owner of KB '{kbId}' may set its governance")
  appendSignedMembership h who kbId coll .setGovernance (Governance.toSpec governance) none
  return [("kb_id", .text kbId), ("governance", .text (Governance.toSpec governance))]

def appendSignedRevoke (coll : Y.Doc) (subject : String) : ServerHandler Y Unit := do
  let root := Y.root coll
  let signer ← .ofOption h.signer (internalError "no signing identity (psk/none mode cannot revoke)")
  .check (CollectionDoc.oplogHead h.C root.oplogOps).isSome (internalError s!"KB '{kbId}' has no signed membership log")
  let members := derivedMembership h.toEnv kbId root ((h.anchor kbId).getD signer)
  .check (((members[fingerprintOf h.C signer]?).map (·.role)) = some .owner)
    (internalError s!"signer is not a current owner of KB '{kbId}'; cannot revoke")
  .check (members.contains subject) (internalError s!"'{subject}' is not a current member of KB '{kbId}'")
  let _ ← appendOwnOp h who kbId signer coll
    (buildMembershipOp h root kbId .revoke subject none false (fingerprintOf h.C signer) (root.epochOf subject))

def handleKbBlockUnblockPrincipal (block : Bool) (params : Json) : ServerHandler Y (Reply Y) := do
  let kbId ← .ofOption ((params.field "kb_id").asStr.filter (· ≠ "")) (parseError "missing 'kb_id' field")
  let principal ← .ofOption (((params.field "fingerprint").asStr.or (params.field "principal").asStr).filter (· ≠ ""))
    (parseError "missing 'fingerprint' field (the principal to block)")
  return [("kb_id", .text kbId), ("fingerprint", .text principal), ("blocked", .flag block)]

def handleKbRevoke (params : Json) : ServerHandler Y (Reply Y) := do
  let kbId ← stringParam params "kb_id"
  let member ← stringParam params "member"
  requireAccess h who kbId .manage (cannotManage kbId)
  let coll ← (loadedCollection h kbId).mapError internalError
  appendSignedRevoke h who kbId coll member
  return [("kb_id", .text kbId), ("member", .text member), ("revoked", .flag true)]

def defaultLeaseTtlSecs : ℕ := 120

def handleKbClaimLease (params : Json) : ServerHandler Y (Reply Y) := do
  let kbId ← stringParam params "kb_id"
  let opKind ← stringParam params "op_kind"
  let ttlSecs := (params.field "ttl_secs").asU64.getD defaultLeaseTtlSecs
  requireAccess h who kbId .edit (cannotEdit kbId)
  let holder := who.principal.getD ""
  let coll ← (loadedCollection h kbId).mapError internalError
  let ws := (Y.root coll).claimLease opKind holder ttlSecs h.now.toNat
  let coll ← if ws = [] then .answer coll else writeCollection h who kbId coll ws
  let lease ← .ofOption (Lease.currentLease (Y.root coll).leases opKind h.now.toNat)
    (internalError "lease claim produced no current holder")
  return [("kb_id", .text kbId), ("op_kind", .text opKind), ("held", .flag (lease.holderFp = holder)),
    ("holder_fp", .text lease.holderFp), ("claimed_at", .number lease.claimedAt),
    ("ttl_secs", .number lease.leaseTtlSecs), ("generation", .number lease.generation)]

def ownerSelfRebindPairs (principal : String) (coll : Y.Doc) (u : Y.Update) : List (String × String) :=
  if principal = "" then []
  else
    ((newOps h.C (Y.root coll) (Y.root (Y.apply coll u))).filter fun o =>
      o.op.action = .rebind && o.op.author = principal && o.op.subject ≠ o.op.author &&
        (o.op.newPubkey.any fun npk => fingerprintOf h.C npk = o.op.subject) && o.verifySigned h.C).map fun o =>
          (o.op.subject, o.op.author)

def gateCollectionOp (bytes : Bytes) : ServerHandler Y (List (String × String)) := do
  let manage ← (access h who kbId .manage).attempt
  match manage with
  | .ok .allow =>
    let state ← (stateOf h (collectionDocName kbId)).attempt
    match state, h.decodeUpdate bytes with
    | .ok state, .ok u => .answer (ownerSelfRebindPairs h (who.principal.getD "") (Y.apply Y.blank state) u)
    | _, _ => .answer []
  | other =>
    let coll ← (stateOf h (collectionDocName kbId)).attempt
    let checked := verifyMemberSelfServiceUpdate h.toEnv kbId who.principal
      (coll.map fun state => Y.apply Y.blank state) (h.decodeUpdate bytes)
    let base := match other with
      | .ok (.deny message) | .error message => message
      | .ok _ => cannotManage kbId
    .ofExcept (checked.mapError fun reason =>
      internalError s!"{base} (and not a member self-service identity op: {reason})")

def mirrorRebinds (h : Host Y) (who : Peer) (kbId : String) (coll : Y.Doc) :
    List (String × String) → ServerHandler Y Unit
  | [] => .answer ()
  | (successor, predecessor) :: pairs => do
    let role := ((Y.root coll).roleOf predecessor).getD .editor
    let coll ← writeCollection h who kbId coll ((Y.root coll).upsertMember successor successor role h.freshEpochToken)
    mirrorRebinds h who kbId coll pairs

def handleKbCollectionOp (params : Json) : ServerHandler Y (Reply Y) := do
  let kbId ← stringParam params "kb_id"
  let bytes ← bytesParam h params "update" "invalid 'update' base64"
  .check (bytes.length ≤ h.maxUpdateSize) (internalError s!"collection update exceeds {h.maxUpdateSize} bytes")
  let pairs ← gateCollectionOp h who kbId bytes
  let u ← .ofExcept ((h.decodeUpdate bytes).mapError fun e =>
    internalError s!"failed to persist collection: sqlite: invalid update: {e}")
  persistAndBroadcastCollection h who kbId u
  .when (!pairs.isEmpty) do
    match ← (loadedCollection h kbId).attempt with
    | .ok coll => mirrorRebinds h who kbId coll pairs
    | .error _ => .answer ()
  return [("applied", .flag true), ("scrubbed", .flag ((params.field "scrub").asBool.getD false))]

end Collection

section Nodes

/-- `kb_access_with_coll`. -/
def accessWithColl (h : Host Y) (who : Peer) (kbId : String) (op : KbOp) (loaded : Option Y.Doc) :
    Handler (Server Y) String AccessDecision :=
  match who.principal, loaded with
  | some principal, some coll => .answer (accessOn h.toEnv kbId (Y.root coll) principal op who.transport)
  | _, _ => access h who kbId op

def onDecision (decision : AccessDecision) (other : String) : ServerHandler Y Unit :=
  match decision with
  | .allow => .answer ()
  | .deny message => .fail (internalError message)
  | .allowAutoJoin | .pending => .fail (internalError other)

variable (h : Host Y) (who : Peer) (params : Json)

def requireRead (kbId : String) : ServerHandler Y Unit := do
  match ← (access h who kbId .read).mapError internalError with
  | .allow | .allowAutoJoin => .answer ()
  | .deny message => .fail (internalError message)
  | .pending => .fail (internalError s!"cannot read KB '{kbId}'")

def nodeScopeDenial (kbId nodeId : String) : String := s!"node '{nodeId}' is not in KB '{kbId}'"

def requireNodeInKb (kbId nodeId : String) (loaded : Option Y.Doc) : ServerHandler Y Unit := do
  let coll ← (collectionOr h kbId loaded).mapError fun _ => internalError (nodeScopeDenial kbId nodeId)
  .check ((Y.root coll).hasNode nodeId) (internalError (nodeScopeDenial kbId nodeId))

/-- `encode_state_and_sv_authorized`: the document may be created. -/
def stateOfAuthorized (h : Host Y) (name : String) : Handler (Server Y) String Y.Update :=
  onDocuments fun docs =>
    let r := docs.getOrCreate h.toEnv true name
    (r.1, r.2.elim (.error s!"no such document: {name}") fun e => .ok (Y.encode e.sync))

def handleKbNodeFetch : ServerHandler Y (Reply Y) := do
  let kbId ← stringParam params "kb_id"
  let nodeId ← stringParam params "node_id"
  requireRead h who kbId
  requireNodeInKb h kbId nodeId none
  let name := kbNodeDocName kbId nodeId
  let state ← (stateOfAuthorized h name).mapError fun e => internalError s!"node fetch failed for '{nodeId}': {e}"
  firstInteraction h who name
  return [("kb_id", .text kbId), ("node_id", .text nodeId), ("state", .state state), ("sv", .sv state)]

def nodeUpdateHeader (kbId : String) (bytes : Bytes) (loaded : Option Y.Doc) :
    ServerHandler Y (Option ContentParams) := do
  match ← (resolveContentAnchor h kbId loaded).mapError internalError,
    SignedContentOp.fromParams (contentParams h params) bytes with
  | some anchor, some signed =>
    match ← (verifyContentOp h kbId anchor signed loaded).attempt with
    | .ok () => .answer (some signed.headerParams)
    | .error e => if (h.anchor kbId).isSome then .fail (internalError e) else .answer none
  | _, _ => .answer none

def gateRebirthOn (kbId nodeId : String) (bytes : Bytes) (loaded : Option Y.Doc) : ServerHandler Y Unit := do
  let coll ← (collectionOr h kbId loaded).attempt
  let ctx : KbContext := {
    kbAnchor := h.anchor kbId
    signer := h.signer
    collection := coll.map fun coll => ((Y.root coll).owner, (Y.root coll).oplogOps) }
  .ofExcept ((verifyRebirthBinding h.C h.decodeNode ctx kbId nodeId bytes).mapError internalError)

/-- The server's part of `kb/node_update`, with the gates that `NodeUpdate` has as values. -/
def serveKbNodeUpdate (h : Host Y) (who : Peer) (params : Json) : ServerHandler Y (Reply Y) := do
  let kbId ← stringParam params "kb_id"
  let nodeId ← stringParam params "node_id"
  let bytes ← bytesParam h params "update" "invalid 'update' base64"
  .check (bytes.length ≤ h.maxUpdateSize) (internalError s!"node update exceeds {h.maxUpdateSize} bytes")
  let reseal := (params.field "reseal").asBool.getD false
  let rebirth := (params.field "rebirth").asBool.getD false
  let loaded ← (loadedCollection h kbId).attempt
  let loaded := loaded.toOption
  let decision ← (accessWithColl h who kbId (if reseal || rebirth then .manage else .edit) loaded).mapError internalError
  onDecision decision s!"cannot edit KB '{kbId}'"
  let name := kbNodeDocName kbId nodeId
  let header ← nodeUpdateHeader h params kbId bytes loaded
  match who.principal with
  | some principal =>
    .when (!reseal) ((enforceEpochFenceOn h kbId nodeId name bytes principal loaded).mapError internalError)
  | none => .answer ()
  firstInteraction h who name
  .when rebirth (gateRebirthOn h kbId nodeId bytes loaded)
  -- a reseal and a rebirth replace the document, an edit is merged into it
  let u ← (if reseal || rebirth then shareBytes h name bytes else applyBytes h name bytes).mapError fun e =>
    internalError s!"failed to apply node update: {e}"
  broadcastExcept who (.syncUpdate name u header)
  return [("applied", .flag true)]

def handleKbFetchArtifact : ServerHandler Y (Reply Y) := do
  let kbId ← stringParam params "kb_id"
  let contentHash ← stringParam params "content_hash"
  let model ← stringParam params "model"
  requireAccess h who kbId .read s!"not authorized to read KB '{kbId}'"
  let coll ← (loadedCollection h kbId).mapError internalError
  if (Y.root coll).shareDerivedArtifacts then
    match ← .ofExcept ((h.cachedEmbedding kbId contentHash model (params.field "chunk_version")).mapError internalError) with
    | some vector => return [("kb_id", .text kbId), ("has_artifact", .flag true), ("model", .text model),
        ("vector", .text vector)]
    | none => return [("kb_id", .text kbId), ("has_artifact", .flag false),
        ("reason", .text "no cached artifact for this content_hash/model/chunk_version")]
  else
    return [("kb_id", .text kbId), ("has_artifact", .flag false),
      ("reason", .text "share_derived_artifacts is disabled for this KB")]

def readNodes (kbId : String) : List String → ServerHandler Y Unit :=
  .each fun nodeId => do
    let _ ← (stateOf h (kbNodeDocName kbId nodeId)).attempt

/-- `kb/query.*`, up to what it makes of the nodes it reads. It is gated as a hub session, whatever the transport. -/
def handleKbQuery (h : Host Y) (who : Peer) (method : String) (params : Json) : ServerHandler Y (Reply Y) := do
  let kbId ← .ofOption (params.field "kb_id").asStr ⟨.invalidRequest, "missing 'kb_id'"⟩
  requireRead h { who with transport := .hub } kbId
  let coll ← (loadedCollection h kbId).mapError internalError
  let _ ← (resolveContentAnchor h kbId none).mapError internalError
  readNodes h kbId (h.queryReads method params (Y.root coll))
  return [("kb_id", .text kbId)]

def handleKbQuerySelfToken : ServerHandler Y (Reply Y) := do
  let principal ← .ofOption who.principal (internalError "kb/query.self_token requires an authenticated connection")
  let mint ← .ofOption h.mintSelfToken (internalError ("self-issued tokens are not enabled on this daemon " ++
    "(oauth.self_issued_tokens_enabled is false, or no key-mode identity is configured)"))
  let token ← .ofExcept ((mint principal).mapError fun e => internalError s!"failed to mint self-issued token: {e}")
  return [("token", .text token)]

end Nodes

section Sharing

variable (h : Host Y) (who : Peer)

def Payload.ofText (text : String) : Payload Y :=
  match h.base64 text with
  | .error e => .badBase64 e
  | .ok bytes =>
    match h.decodeUpdate bytes with
    | .error e => .undecodable e
    | .ok u => .update u

def SharedNode.ofJson (j : Json) : SharedNode Y where
  id := (j.field "id").asStr
  state := (j.field "state").asStr.map (Payload.ofText h)

def ShareRequest.ofParams (params : Json) : ShareRequest Y where
  principal := who.principal
  label := who.label
  kbId := (params.field "kb_id").asStr
  creator := (params.field "creator").asStr
  collectionState := (params.field "collection_state").asStr.map (Payload.ofText h)
  transport := (params.field "transport").asStr
  nodes := ((params.field "nodes").asArray.getD []).map (SharedNode.ofJson h)

def joinDoc (name : String) : ServerHandler Y Unit := do
  insertSessionDoc who name
  changeDocuments (Documents.trackClientConnect h.toEnv name)
  subscribeDoc who name

def collectionPayload (req : ShareRequest Y) : ServerHandler Y (Payload Y) :=
  match req.collectionState with
  | none => .fail (parseError "missing 'collection_state' field")
  | some (.badBase64 e) => .fail (parseError s!"invalid collection_state base64: {e}")
  | some payload => .answer payload

def announceTransport (kbId : String) (transport : Option String) : ServerHandler Y Unit := do
  let requested := (transport.bind TransportPolicy.parse).getD .hub
  match ← (loadedCollection h kbId).attempt with
  | .error _ => .answer ()
  | .ok coll =>
    let raw := (Y.root coll).transportPolicyRaw
    let new := raw.elim requested fun policy => policy.union requested
    .when (some new ≠ raw)
      (persistAndBroadcastCollection h who kbId (Y.record coll (Root.setTransportPolicy new)))

def putNode (kbId : String) (node : SharedNode Y) : ServerHandler Y ℕ :=
  match node.id, node.state with
  | some nodeId, some (.update u) => do
    let name := kbNodeDocName kbId nodeId
    changeDocuments fun docs => if docs.hasDoc name then docs.applyUpdate h.toEnv name u else docs.shareDoc h.toEnv name u
    joinDoc h who name
    return 1
  | _, _ => .answer 0

def putNodes (h : Host Y) (who : Peer) (kbId : String) : List (SharedNode Y) → ServerHandler Y ℕ
  | [] => .answer 0
  | node :: nodes => do
    let count ← putNode h who kbId node
    let rest ← putNodes h who kbId nodes
    return count + rest

/-- The server's part of `kb/share`: what `handleKbShare` does to the documents, and who hears of it. -/
def serveKbShare (h : Host Y) (who : Peer) (params : Json) : ServerHandler Y (Reply Y) := do
  let req := ShareRequest.ofParams h who params
  let kbId ← stringParam params "kb_id"
  let payload ← collectionPayload req
  onDocuments (shareCollection h.toEnv kbId req.principal (req.label.getD (req.creator.getD "")) payload)
  joinDoc h who (collectionDocName kbId)
  announceTransport h who kbId req.transport
  let count ← putNodes h who kbId req.nodes
  .change fun s => { s with kbMetas := s.kbMetas.insert kbId }
  let state ← (stateOf h (collectionDocName kbId)).attempt
  return [("kb_id", .text kbId), ("shared", .flag true), ("node_count", .number count)] ++
    (state.toOption.map fun u => ("collection_state", .state u)).toList

end Sharing

section Joining

def forwardedRequest (members keyed : List String) (j : Json) : Option (String × Json) :=
  ((j.field "fp").asStr.filter fun fp => fp ∉ members ∧ fp ∉ keyed).map fun fp => (fp, j)

def addForwarded (h : Host Y) (who : Peer) (kbId : String) (coll : Y.Doc) : List (String × Json) → ServerHandler Y Unit
  | [] => .answer ()
  | (fp, j) :: requests => do
    let coll ← writeCollection h who kbId coll
      ((Y.root coll).addPending fp ((j.field "label").asStr.getD fp) (nowStamp h) (keyParam j "pubkey")
        (keyParam j "wrap_pubkey"))
    addForwarded h who kbId coll requests

variable (h : Host Y) (who : Peer) (kbId : String) (params : Json)

def forwardPending : ServerHandler Y Unit :=
  let requests := (params.field "pending_members").asArray.getD []
  .when (!requests.isEmpty) do
    match ← (loadedCollection h kbId).attempt with
    | .error _ => .answer ()
    | .ok coll =>
      let members := (Y.root coll).memberRoles.map (·.fingerprint)
      let keyed := (Y.root coll).keyedPending
      addForwarded h who kbId coll (requests.filterMap (forwardedRequest members keyed))

def writeForCaller (writes : String → String → Root → List Write) : ServerHandler Y Unit :=
  match who.principal with
  | none => .answer ()
  | some principal => do
    match ← (loadedCollection h kbId).attempt with
    | .error _ => .answer ()
    | .ok coll =>
      let _ ← writeCollection h who kbId coll (writes principal (who.label.getD principal) (Y.root coll))

inductive JoinStatus where
  | joined | pending

def settleJoin : ServerHandler Y JoinStatus := do
  match ← (access h who kbId .join).mapError internalError with
  | .allow => return .joined
  | .allowAutoJoin =>
    writeForCaller h who kbId fun principal label root => root.upsertMember principal label .viewer h.freshEpochToken
    return .joined
  | .pending =>
    writeForCaller h who kbId fun principal label root =>
      root.addPending principal label (nowStamp h) who.pubkey (keyParam params "wrap_pubkey")
    return .pending
  | .deny message => .fail (internalError message)

def nodeSvs : List (String × Bytes) :=
  ((params.field "node_svs").asArray.getD []).filterMap fun j => do
    let id ← (j.field "id").asStr
    let sv ← (j.field "sv").asStr
    let bytes ← (h.base64 sv).toOption
    return (id, bytes)

def joinNodes (h : Host Y) (who : Peer) (kbId : String) (svs : List (String × Bytes)) :
    List String → ServerHandler Y (List (String × Value Y))
  | [] => .answer []
  | nodeId :: nodeIds => do
    let name := kbNodeDocName kbId nodeId
    match ← (stateOf h name).attempt with
    | .error _ => joinNodes h who kbId svs nodeIds
    | .ok state =>
      joinDoc h who name
      let rest ← joinNodes h who kbId svs nodeIds
      -- of several state vectors for one node the last one counts
      match svs.reverse.find? fun sv => sv.1 = nodeId with
      | some sv => return (nodeId, .diff state sv.2) :: rest
      | none => return (nodeId, .state state) :: rest

def handleKbJoin : ServerHandler Y (Reply Y) := do
  let kbId ← stringParam params "kb_id"
  forwardPending h who kbId params
  match ← settleJoin h who kbId params with
  | .pending => return [("kb_id", .text kbId), ("status", .text "pending")]
  | .joined =>
    let state ← (stateOf h (collectionDocName kbId)).mapError fun e =>
      internalError s!"kb not found or failed to read collection: {e}"
    joinDoc h who (collectionDocName kbId)
    addEventSub who "sync_update"
    let nodeIds := (Y.root (Y.apply Y.blank state)).listNodes.map (·.1)
    let nodes ← joinNodes h who kbId (nodeSvs h params) nodeIds
    return [("kb_id", .text kbId), ("collection_state", .state state), ("nodes", .nodes nodes)]

def leaveNode (nodeId : String) : ServerHandler Y Unit := do
  let name := kbNodeDocName kbId nodeId
  let known ← .look (Server.hasSessionDoc who.id name)
  .when known do
    removeSessionDoc who name
    unsubscribeDoc who name

def handleKbLeave : ServerHandler Y (Reply Y) := do
  let kbId ← stringParam params "kb_id"
  let state ← (stateOf h (collectionDocName kbId)).attempt
  let nodeIds := (state.toOption.map fun u => (Y.root (Y.apply Y.blank u)).listNodes.map (·.1)).getD []
  removeSessionDoc who (collectionDocName kbId)
  unsubscribeDoc who (collectionDocName kbId)
  .each (leaveNode who kbId) nodeIds
  return [("kb_id", .text kbId), ("left", .flag true)]

end Joining

end Mae.Daemon
