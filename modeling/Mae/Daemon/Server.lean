import Mae.Daemon.Access
import Mae.Library.Handler
import Mae.Library.Json
import Mae.Sync.RebirthHash

/-! The daemon with the sessions that are connected to it: what they have subscribed to and what is queued for them. -/

namespace Mae.Daemon

open Library Sync Sync.Membership

variable {Y : Yrs}

structure Host (Y : Yrs) extends Env Y where
  base64 : String → Except String Bytes
  decodeUpdate : Bytes → Except String Y.Update
  maxUpdateSize : ℕ
  /-- The operator's flag to refuse unsigned content ops on the hub too. -/
  requireSignedFlag : Bool
  charge : Option String → String → Except String Unit
  /-- The signature of the daemon's own key. -/
  sign : MembershipOp → Bytes
  /-- `KbNodeDoc::from_bytes`. -/
  decodeNode : Bytes → Except String KbNodeDoc
  findDocBySuffix : (String → Option (DocEntry Y)) → String → Option String
  documentNames : (String → Option (DocEntry Y)) → List String
  /-- The nodes that a query of the given method reads. -/
  queryReads : String → Json → Root → List String
  cachedEmbedding : String → String → String → Json → Except String (Option String)
  mintSelfToken : Option (String → Except String String)

/-- The identity that a session has authenticated as. -/
structure Peer where
  id : ℕ
  principal : Option String
  label : Option String
  pubkey : Option Key32
  transport : Transport
  deriving DecidableEq

structure Client extends Peer where
  sessionDocs : List String
  /-- The event types asked for by `notifications/subscribe`. -/
  subscriptions : List String
  eventSubs : List String
  docSubs : List String
  deriving DecidableEq

/-- The events that the daemon sends to its clients about a document. -/
inductive EditorEvent (Y : Yrs) where
  | syncUpdate (bufferName : String) (update : Y.Update) (contentHeader : Option ContentParams)
  | awarenessUpdate (docId : String) (clientId : ℕ)
  | saveCommitted (doc savedBy : String)
  | sharerLeft (sessionId : ℕ) (doc : String)

namespace EditorEvent

def eventType : EditorEvent Y → String
  | syncUpdate _ _ _ => "sync_update"
  | awarenessUpdate _ _ => "awareness_update"
  | saveCommitted _ _ => "save_committed"
  | sharerLeft _ _ => "sharer_left"

def docId : EditorEvent Y → String
  | syncUpdate name _ _ | awarenessUpdate name _ | saveCommitted name _ | sharerLeft _ name => name

end EditorEvent

def shouldDeliver (c : Client) (event : EditorEvent Y) : Bool :=
  (c.eventSubs.any fun s => s = event.eventType || s = "*") && (c.docSubs.isEmpty || c.docSubs.contains event.docId)

/-- An event in a client's queue, with the documents as they were when it was put there. -/
structure Delivery (Y : Yrs) where
  client : Client
  event : EditorEvent Y
  documents : Documents Y

structure Server (Y : Yrs) where
  documents : Documents Y
  clients : List Client
  /-- The ids of the KBs that have been registered or shared. -/
  kbMetas : List String
  queued : List (Delivery Y)

abbrev ServerHandler (Y : Yrs) (α : Type) : Type := Handler (Server Y) McpError α

namespace Server

def onClient (id : ℕ) (f : Client → Client) (s : Server Y) : Server Y :=
  { s with clients := s.clients.map fun c => if c.id = id then f c else c }

def hasSessionDoc (id : ℕ) (name : String) (s : Server Y) : Bool :=
  s.clients.any fun c => c.id = id && c.sessionDocs.contains name

def enqueue (event : EditorEvent Y) (recipient : Client → Bool) (s : Server Y) : Server Y :=
  { s with
    queued := s.queued ++ ((s.clients.filter fun c => recipient c && shouldDeliver c event).map fun c =>
      ⟨c, event, s.documents⟩) }

end Server

def parseError (message : String) : McpError := ⟨.parseError, message⟩

def internalError (message : String) : McpError := ⟨.internalError, message⟩

section

variable {α ε : Type}

def onDocuments (f : Documents Y → Documents Y × Except ε α) : Handler (Server Y) ε α := fun s =>
  ({ s with documents := (f s.documents).1 }, (f s.documents).2)

def changeDocuments (f : Documents Y → Documents Y) : ServerHandler Y Unit :=
  .change fun s => { s with documents := f s.documents }

variable (h : Host Y) (who : Peer) (name kbId : String)

def subscribeDoc : ServerHandler Y Unit :=
  .change (Server.onClient who.id fun c => { c with docSubs := c.docSubs.insert name })

def unsubscribeDoc : ServerHandler Y Unit :=
  .change (Server.onClient who.id fun c => { c with docSubs := c.docSubs.filter (· ≠ name) })

def addEventSub (eventType : String) : ServerHandler Y Unit :=
  .change (Server.onClient who.id fun c => { c with eventSubs := c.eventSubs.insert eventType })

def insertSessionDoc : ServerHandler Y Unit :=
  .change (Server.onClient who.id fun c => { c with sessionDocs := c.sessionDocs.insert name })

def removeSessionDoc : ServerHandler Y Unit :=
  .change (Server.onClient who.id fun c => { c with sessionDocs := c.sessionDocs.filter (· ≠ name) })

def broadcastExcept (event : EditorEvent Y) : ServerHandler Y Unit :=
  .change (Server.enqueue event fun c => c.id ≠ who.id)

def broadcast (event : EditorEvent Y) : ServerHandler Y Unit := .change (Server.enqueue event fun _ => true)

def firstInteraction : ServerHandler Y Unit := do
  let known ← .look (Server.hasSessionDoc who.id name)
  .when (!known) do
    insertSessionDoc who name
    changeDocuments (Documents.trackClientConnect h.toEnv name)
    subscribeDoc who name

def stateOf : Handler (Server Y) String Y.Update :=
  onDocuments fun docs =>
    let r := docs.encodeState h.toEnv name
    (r.1, r.2.elim (.error s!"no such document: {name}") .ok)

def loadedCollection : Handler (Server Y) String Y.Doc :=
  onDocuments (Documents.loadCollection h.toEnv kbId)

def collectionOr (loaded : Option Y.Doc) : Handler (Server Y) String Y.Doc :=
  match loaded with
  | some coll => .answer coll
  | none => loadedCollection h kbId

def access (op : KbOp) : Handler (Server Y) String AccessDecision :=
  onDocuments (kbAccess h.toEnv kbId who.principal op who.transport)

/-- The gate of the `kb/*` handlers; `other` is what they say to a decision that is neither yes nor no. -/
def requireAccess (h : Host Y) (who : Peer) (kbId : String) (op : KbOp) (other : String) : ServerHandler Y Unit := do
  match ← (access h who kbId op).mapError internalError with
  | .allow => .answer ()
  | .deny message => .fail (internalError message)
  | .allowAutoJoin | .pending => .fail (internalError other)

def denyCollectionSmuggling : ServerHandler Y Unit :=
  match DocAddress.parse name with
  | some (.kbCollection kbId) => do
    let decision ← (access h who kbId .manage).mapError internalError
    .check (decision = .allow) (internalError s!"only the owner may write the collection doc for KB '{kbId}'")
  | _ => .answer ()

def denyKbDocRead : ServerHandler Y Unit :=
  match DocAddress.parse name with
  | some (.kbCollection kbId) => do
    let decision ← (access h who kbId .read).mapError internalError
    .check (decision = .allow)
      (internalError s!"not authorized to read the collection doc for KB '{kbId}' (members only)")
  | some (.kbNode _ _) =>
    .fail (internalError ("KB node content must be fetched via the access-gated `kb/node_fetch`, " ++
      "not the raw `sync/full_state` / `sync/state_vector` path"))
  | _ => .answer ()

def stringParam (params : Json) (key : String) : ServerHandler Y String :=
  .ofOption (params.field key).asStr (parseError s!"missing '{key}' field")

/-- `base64_to_update` on a required parameter; `what` begins the error. -/
def bytesParam (h : Host Y) (params : Json) (key what : String) : ServerHandler Y Bytes := do
  let text ← stringParam params key
  .ofExcept ((h.base64 text).mapError fun e => parseError s!"{what}: {e}")

/-- `DocStore::apply_update`: bytes that are not an update are refused before anything is touched. -/
def applyBytes (h : Host Y) (name : String) (bytes : Bytes) : Handler (Server Y) String Y.Update :=
  match h.decodeUpdate bytes with
  | .error e => .fail s!"sqlite: invalid update: {e}"
  | .ok u => onDocuments fun docs => (docs.applyUpdate h.toEnv name u, .ok u)

def shareBytes (bytes : Bytes) : Handler (Server Y) String Y.Update :=
  match h.decodeUpdate bytes with
  | .error e => .fail s!"sqlite: invalid update: {e}"
  | .ok u => onDocuments fun docs => (docs.shareDoc h.toEnv name u, .ok u)

def persistAndBroadcastCollection (u : Y.Update) : ServerHandler Y Unit := do
  changeDocuments (Documents.applyUpdate h.toEnv (collectionDocName kbId) u)
  broadcastExcept who (.syncUpdate (collectionDocName kbId) u none)

end

end Mae.Daemon
