import Mae.Daemon.FeedSharing

/-! The live feed over whole runs of the daemon with its sessions. -/

namespace Mae.Daemon

open Library Handler Sync Sync.Membership List

variable {Y : Yrs}

inductive SessionEvent where
  | connect (caller : Peer)
  | message (id : ℕ) (text : String)
  | disconnect (id : ℕ)
  | evictIdle (name : String)
  | restart

namespace Server

def start (storage : String → Option Y.Doc) : Server Y := ⟨⟨storage, fun _ => none⟩, [], [], []⟩

def find (id : ℕ) (s : Server Y) : Option Client := s.clients.find? fun c => c.id = id

def disconnect (h : Host Y) (c : Client) (s : Server Y) : Server Y :=
  { s with
    documents := c.sessionDocs.foldl (fun docs name => docs.trackClientDisconnect h.toEnv name) s.documents
    clients := s.clients.filter fun c' => c'.id ≠ c.id }

def step (h : Host Y) (s : Server Y) : SessionEvent → Server Y
  | .connect caller =>
    if (s.find caller.id).isSome then s else { s with clients := s.clients ++ [⟨caller, [], [], [], []⟩] }
  | .message id text =>
    match s.find id with
    | some c => (handleMessage h c.toPeer text s).1
    | none => s
  | .disconnect id => (s.find id).elim s fun c => s.disconnect h c
  | .evictIdle name => { s with documents := s.documents.evictIdle name }
  | .restart => { s with documents := s.documents.restart, clients := [], kbMetas := [] }

end Server

def Respects : Server Y → List (Host Y × SessionEvent) → Prop
  | _, [] => True
  | s, (h, ev) :: evs => (∀ d ∈ (s.step h ev).queued.drop s.queued.length, d.Allowed h) ∧ Respects (s.step h ev) evs

def CarefulMethod (h : Host Y) (s : Server Y) (who : Peer) (params : Json) : Method → Prop
  | .syncAwareness => MayRead s.documents.storage who (docParam params)
  | .syncShare => MayRead s.documents.storage who (docParam params) ∧ ¬ IsCollection (docParam params)
  | .syncUpdate => ∀ name, (params.field "doc").asStr = some name →
      MayRead s.documents.storage who name ∧ ¬ IsCollection name
  | .kbRegister => ∀ kbId, (params.field "kb_id").asStr = some kbId → Reads s.documents.storage kbId who
  | .kbShare => ∀ kbId, (params.field "kb_id").asStr = some kbId → CarefulShare s.documents.storage
      (s.documents.hasDoc (collectionDocName kbId)) who kbId (ShareRequest.ofParams h who params).collectionState
  | .kbLeave => ∀ kbId, (params.field "kb_id").asStr = some kbId → StaysElsewhere who kbId s
  | .kbAddMember => ∀ kbId member, (params.field "kb_id").asStr = some kbId →
      (params.field "member").asStr = some member →
        KeepsOwner (s.clients.map Client.toPeer) s.documents.storage kbId member (roleParam params)
  | .kbApproveMember => ∀ kbId seat, (params.field "kb_id").asStr = some kbId →
      (params.field "principal").asStr = some seat →
        KeepsOwner (s.clients.map Client.toPeer) s.documents.storage kbId seat (roleParam params)
  | .kbRemoveMember => ∀ member, (params.field "member").asStr = some member →
      ¬ Connected (s.clients.map Client.toPeer) member
  | .kbCollectionOp => False
  | _ => True

structure CarefulRequest (s : Server Y) (who : Peer) (request : JsonRpcRequest) : Prop where
  tool : ∀ arguments, toolCall request = some ("__mcp_sync_update", arguments) → ¬ IsCollection (docParam arguments)
  subscribe : request.method = "notifications/subscribe" → ∀ c ∈ s.clients, c.id = who.id → c.docSubs ≠ []

structure CarefulMessage (h : Host Y) (s : Server Y) (who : Peer) (msg : String) : Prop where
  notification : ∀ val, isNotification msg = true → Json.parse msg = some val →
    (val.field "method").asStr = some "sync/awareness" →
      MayRead s.documents.storage who (docParam (val.field "params"))
  method : ∀ request method, JsonRpcRequest.ofText msg = some request → Method.parse request.method = some method →
    CarefulMethod h s who request.params method
  request : ∀ request, JsonRpcRequest.ofText msg = some request → CarefulRequest s who request

def Careful (h : Host Y) (s : Server Y) : SessionEvent → Prop
  | .connect caller => caller.principal.isSome
  | .message id text => ∀ c, s.find id = some c → CarefulMessage h s c.toPeer text
  | _ => True

def CarefulRun : Server Y → List (Host Y × SessionEvent) → Prop
  | _, [] => True
  | s, (h, ev) :: evs => Careful h s ev ∧ CarefulRun (s.step h ev) evs

section Messages

variable {h : Host Y} {callers : List Peer} {old : List (Delivery Y)} {s : Server Y} {who : Peer}
  {principal : String}

lemma kbOf_docParam {params : Json} {method : Method} (hmethod : DocScope.of method = .nonKbDocOnly)
    (hdoc : authorizeNamedDoc method params = .ok ()) : kbOf (docParam params) = none := by
  rw [authorizeNamedDoc] at hdoc
  cases hname : (params.field "doc").asStr with
  | none =>
    rw [docParam, hname]
    exact kbOf_default
  | some name =>
    rw [docParam, hname, Option.getD_some]
    rw [hname] at hdoc
    by_contra hkb
    simp [hmethod, hkb] at hdoc

variable (hanchor : ∀ kbId, h.anchor kbId = none)
include hanchor

lemma ends_serveRequest (hs : Feeding h callers old s) {request : JsonRpcRequest}
    (hcareful : CarefulRequest s who request) :
    (serveRequest h who request).Keeps s (Feeding h callers old) :=
  keeps_serveRequest hs
    (fun tool arguments hcall => ends_syncTool hanchor hs tool fun heq => hcareful.tool arguments (heq ▸ hcall))
    fun hmethod => keeps_subscribeTypes hs fun _ hf => hs.listen hf (hcareful.subscribe hmethod)

variable (hwho : ∀ c ∈ callers, c.id = who.id → c = who) (hp : who.principal = some principal)
include hwho hp

lemma ends_handleMethod (hs : Feeding h callers old s) {request : JsonRpcRequest} (hparams : NamesKb request.params)
    (method : Method) (hdoc : authorizeNamedDoc method request.params = .ok ())
    (hcareful : CarefulMethod h s who request.params method) :
    (handleMethod h who request method).Keeps s (Feeding h callers old) := by
  have hI : Steady h (Feeding h callers old) := Feeding.steady hanchor
  have hnamed : Named (· ≠ "") request.params := fun _ => hparams.ne_empty
  have hsessions := hs.sessions
  cases method with
  | syncStateVector => exact hI.reading.moves_handleSyncStateVector.keeps hs
  | syncUpdate => exact ends_rawUpdate hanchor hwho hs hp hparams hcareful
  | syncAwareness => exact ends_handleSyncAwareness hanchor hwho hs hcareful
  | syncFullState => exact ends_handleSyncFullState hanchor hwho hs hp _
  | syncDiff => exact hI.reading.moves_handleSyncDiff.keeps hs
  | syncResync => exact ends_handleSyncResync hanchor hwho hs hp _
  | syncShare => exact ends_rawShare hanchor hwho hs hcareful.1 hcareful.2
  | docsList | debugStats => exact ends_look_bind (ends_pure hs)
  | docsContent | docsStats | docsMetadata => exact hI.reading.moves_handleDocsRead.keeps hs
  | docsSaveIntent => exact hI.reading.moves_handleDocsSaveIntent.keeps hs
  | docsSaveCommitted => exact hI.reading.moves_handleDocsSaveCommitted.keeps hs
  | docsDelete => exact ends_handleDocsDelete hs (kbOf_docParam rfl hdoc)
  | kbRegister => exact ends_handleKbRegister hanchor hwho hs hparams hcareful
  | kbList =>
    exact ends_look_bind (((hI.reading.moves_visibleKbs hs.metas).keeps hs).reply)
  | kbUnregister => exact hI.ends_handleKbUnregister hs _
  | kbShare => exact ends_serveKbShare hanchor hwho hs hp hparams hcareful
  | kbJoin => exact ends_handleKbJoin hanchor hwho hs hp hparams
  | kbNodeFetch => exact ends_handleKbNodeFetch hanchor hwho hp hparams hs
  | kbNodeUpdate => exact ends_serveKbNodeUpdate hanchor hwho hp hparams hs
  | kbCollectionOp => exact hcareful.elim
  | kbClaimLease => exact ends_handleKbClaimLease hanchor hp hparams hs
  | kbFetchArtifact => exact (hI.reading.moves_handleKbFetchArtifact hnamed).keeps hs
  | kbAddMember => exact ends_handleKbAddMember hanchor hp hparams hs (hsessions ▸ hcareful)
  | kbRemoveMember => exact ends_handleKbRemoveMember hanchor hp hparams hs (hsessions ▸ hcareful)
  | kbCollectionNodeAdd => exact ends_handleKbCollectionNodeAdd hanchor hp hparams hs
  | kbCollectionNodeRemove => exact ends_handleKbCollectionNodeRemove hanchor hp hparams hs
  | kbSetPolicy => exact ends_handleKbSetPolicy hanchor hp hparams hs
  | kbBlockPrincipal | kbUnblockPrincipal => exact (Reading.moves_handleKbBlockUnblockPrincipal _).keeps hs
  | kbBlocklist => exact ends_answer hs
  | kbSetGovernance => exact ends_handleKbSetGovernance hanchor hp hparams hs
  | kbRevoke => exact ends_handleKbRevoke hanchor hp hparams hs
  | kbListPending => exact (hI.reading.moves_handleKbListPending hnamed).keeps hs
  | kbApproveMember => exact ends_handleKbApproveMember hanchor hp hparams hs (hsessions ▸ hcareful)
  | kbLeave => exact ends_handleKbLeave hanchor hs hcareful
  | kbQueryCapabilities | kbQueryGet | kbQuerySearch | kbQueryGraph | kbQueryMyWrappedKey =>
    exact (hI.reading.moves_handleKbQuery hnamed _).keeps hs
  | kbQuerySelfToken => exact Reading.moves_handleKbQuerySelfToken.keeps hs

lemma ends_handleMessage (hs : Feeding h callers old s) {msg : String} (hcareful : CarefulMessage h s who msg) :
    (handleMessage h who msg).Keeps s (Feeding h callers old) := by
  rw [handleMessage]
  split_ifs with hnotification
  · refine Keeps.reply ?_
    rw [handleDocNotificationInner]
    split
    · exact ends_answer hs
    · next val hval =>
      split_ifs with hmethod
      · have hread := hcareful.notification val (Bool.and_eq_true_iff.mp hnotification).2 hval hmethod
        exact (ends_handleSyncAwareness hanchor hwho hs hread).reply
      · exact ends_answer hs
  · refine Keeps.reply (ends_handleDocRequestInner hs ?_)
    intro request method hrequest hparams hmethod hdoc
    exact ends_handleMethod hanchor hwho hp hs hparams method hdoc (hcareful.method request method hrequest hmethod)
  · refine Keeps.reply ?_
    refine ends_ofOption_bind hs fun request hrequest => ?_
    exact ends_serveRequest hanchor hs (hcareful.request request hrequest)

end Messages

section Runs

variable {h : Host Y} {callers : List Peer} {old : List (Delivery Y)} {s : Server Y}

structure Distinct (callers : List Peer) : Prop where
  authenticated : ∀ c ∈ callers, c.principal.isSome
  ids : ∀ c ∈ callers, ∀ c' ∈ callers, c.id = c'.id → c = c'

lemma Distinct.mono (hd : Distinct callers) {callers' : List Peer} (hsub : callers' ⊆ callers) : Distinct callers' :=
  ⟨fun c hc => hd.authenticated c (hsub hc), fun c hc c' hc' => hd.ids c (hsub hc) c' (hsub hc')⟩

lemma mem_of_find {id : ℕ} {c : Client} (hfind : s.find id = some c) : c ∈ s.clients ∧ c.id = id :=
  ⟨mem_of_find?_eq_some hfind, by simpa using find?_some hfind⟩

lemma Feeding.connect (hs : Feeding h callers old s) (caller : Peer) :
    Feeding h (callers ++ [caller]) old { s with clients := s.clients ++ [⟨caller, [], [], [], []⟩] } where
  sound := hs.sound
  current := hs.current
  metas := hs.metas
  sessions := by rw [map_append, hs.sessions, map_singleton]
  readable c hc name hname := by
    rcases mem_append.mp hc with hc | hc
    · exact hs.readable c hc name hname
    · rw [mem_singleton.mp hc] at hname
      cases hname
  bounded c hc hlistens := by
    rcases mem_append.mp hc with hc | hc
    · exact hs.bounded c hc hlistens
    · rw [mem_singleton.mp hc] at hlistens
      rcases hlistens with hlistens | hlistens <;> cases hlistens
  queue := hs.queue

lemma Feeding.dropClients (hs : Feeding h callers old s) (keep : Client → Bool) :
    Feeding h ((s.clients.filter keep).map Client.toPeer) old { s with clients := s.clients.filter keep } where
  sound := hs.sound
  current := hs.current
  metas := hs.metas
  sessions := rfl
  readable c hc := hs.readable c (mem_filter.mp hc).1
  bounded c hc := hs.bounded c (mem_filter.mp hc).1
  queue := hs.queue

lemma Documents.Sound.disconnects {docs : Documents Y} (hdocs : docs.Sound) (env : Env Y) (names : List String) :
    (names.foldl (fun docs name => docs.trackClientDisconnect env name) docs).Sound ∧
      (names.foldl (fun docs name => docs.trackClientDisconnect env name) docs).storage = docs.storage := by
  induction names generalizing docs with
  | nil => exact ⟨hdocs, rfl⟩
  | cons name names ih =>
    obtain ⟨hsound, hstorage⟩ := ih (hdocs.countClients env name (· - 1))
    exact ⟨hsound, hstorage.trans (Documents.storage_countClients env name _ docs)⟩

lemma Feeding.evictIdle (hs : Feeding h callers old s) (name : String) :
    Feeding h callers old { s with documents := s.documents.evictIdle name } := by
  have hcoherent := Coherent.evictIdle hs.sound.coherent name
  have hdocs : ∀ other, (s.documents.evictIdle name).docs other = s.documents.docs other ∨
      (s.documents.evictIdle name).docs other = none := by
    intro other
    rw [Documents.evictIdle]
    by_cases heq : other = name
    · split
      · split_ifs
        · exact .inr (by simp [heq])
        · exact .inr (by simp [heq])
        · exact .inl rfl
      · exact .inl rfl
    · split
      · split_ifs
        · exact .inl (by simp [heq])
        · exact .inl (by simp [heq])
        · exact .inl rfl
      · exact .inl rfl
  -- collections are durable
  have hstorage : ∀ kbId, kbId ≠ "" → (s.documents.evictIdle name).storage (collectionDocName kbId) =
      s.documents.storage (collectionDocName kbId) := by
    intro kbId hkb
    rw [Documents.evictIdle]
    split
    · split_ifs with _ hdurable
      · rfl
      · refine Function.update_of_ne ?_ _ _
        rintro rfl
        exact hdurable (Documents.isDurableDoc_collectionDocName hkb)
      · rfl
    · rfl
  refine hs.of_collections ⟨hcoherent, fun kbId hkb hdoc => ?_⟩ hstorage
  rw [hstorage kbId hkb]
  exact hs.sound.stored_of hkb (hdocs _) hdoc

lemma feeding_step (hanchor : ∀ kbId, h.anchor kbId = none) (hd : Distinct callers) (hs : Feeding h callers old s)
    {ev : SessionEvent} (hcareful : Careful h s ev) :
    ∃ callers', Distinct callers' ∧ Feeding h callers' old (s.step h ev) := by
  cases ev with
  | connect caller =>
    rw [Server.step]
    split_ifs with hknown
    · exact ⟨callers, hd, hs⟩
    · refine ⟨callers ++ [caller], ⟨?_, ?_⟩, hs.connect caller⟩
      · intro c hc
        rcases mem_append.mp hc with hc | hc
        · exact hd.authenticated c hc
        · rw [mem_singleton.mp hc]
          exact hcareful
      · have hfresh : ∀ c ∈ callers, c.id ≠ caller.id := by
          intro c hc heq
          rw [← hs.sessions] at hc
          obtain ⟨client, hclient, rfl⟩ := mem_map.mp hc
          apply hknown
          rw [Server.find, find?_isSome]
          exact ⟨client, hclient, by simpa using heq⟩
        intro c hc c' hc' heq
        rcases mem_append.mp hc with hc | hc <;> rcases mem_append.mp hc' with hc' | hc'
        · exact hd.ids c hc c' hc' heq
        · rw [mem_singleton.mp hc'] at heq
          exact absurd heq (hfresh c hc)
        · rw [mem_singleton.mp hc] at heq
          exact absurd heq.symm (hfresh c' hc')
        · rw [mem_singleton.mp hc, mem_singleton.mp hc']
  | message id text =>
    rw [Server.step]
    split
    · next c hfind =>
      obtain ⟨hmem, -⟩ := mem_of_find hfind
      have hcaller := hs.mem_callers hmem
      obtain ⟨principal, hp⟩ := Option.isSome_iff_exists.mp (hd.authenticated c.toPeer hcaller)
      refine ⟨callers, hd, Keeps.state ?_⟩
      exact ends_handleMessage hanchor (fun c' hc' hid => hd.ids c' hc' c.toPeer hcaller hid) hp hs
        (hcareful c hfind)
    · exact ⟨callers, hd, hs⟩
  | disconnect id =>
    cases hfind : s.find id with
    | none =>
      rw [Server.step, hfind]
      exact ⟨callers, hd, hs⟩
    | some c =>
      rw [Server.step, hfind]
      obtain ⟨hsound, hstorage⟩ := hs.sound.disconnects h.toEnv c.sessionDocs
      have hleft := hs.of_collections hsound fun kbId _ => congrFun hstorage _
      refine ⟨_, hd.mono ?_, hleft.dropClients fun c' => c'.id ≠ c.id⟩
      intro c' hc'
      obtain ⟨client, hclient, rfl⟩ := mem_map.mp hc'
      exact hs.mem_callers (mem_filter.mp hclient).1
  | evictIdle name => exact ⟨callers, hd, hs.evictIdle name⟩
  | restart =>
    have hrestarted : Feeding h callers old { s with documents := s.documents.restart } :=
      hs.of_collections ⟨fun _ _ he => (nomatch he), fun _ _ hdoc => (nomatch hdoc)⟩ fun _ _ => rfl
    refine ⟨[], ⟨fun _ hc => (nomatch hc), fun _ hc => (nomatch hc)⟩, ?_⟩
    exact {
      sound := hrestarted.sound
      current := hrestarted.current
      metas := fun _ hkb => nomatch hkb
      sessions := rfl
      readable := fun _ hc => nomatch hc
      bounded := fun _ hc => nomatch hc
      queue := hrestarted.queue }

lemma respects_of_feeding (evs : List (Host Y × SessionEvent)) (hd : Distinct callers)
    (hs : ∀ h : Host Y, Feeding h callers s.queued s) (hanchor : ∀ e ∈ evs, ∀ kbId, e.1.anchor kbId = none)
    (hcareful : CarefulRun s evs) : Respects s evs := by
  induction evs generalizing s callers with
  | nil => trivial
  | cons e evs ih =>
    obtain ⟨h, ev⟩ := e
    obtain ⟨hev, hrest⟩ := hcareful
    obtain ⟨hanchor, hanchors⟩ := forall_mem_cons.mp hanchor
    obtain ⟨callers', hd', hs'⟩ := feeding_step hanchor hd (hs h) hev
    obtain ⟨new, hqueued, hnew⟩ := hs'.queue
    refine ⟨?_, ih hd' (fun h' => ?_) hanchors hrest⟩
    · rw [hqueued, drop_left]
      exact hnew
    · exact { hs' with queue := ⟨[], by simp, fun d hd => nomatch hd⟩ }

end Runs

theorem feed_respects_access (storage : String → Option Y.Doc)
    (hcurrent : ∀ kbId d, kbId ≠ "" → storage (collectionDocName kbId) = some d → 2 ≤ (Y.root d).schemaVersion)
    (evs : List (Host Y × SessionEvent)) (hanchor : ∀ e ∈ evs, ∀ kbId, e.1.anchor kbId = none)
    (hcareful : CarefulRun (Server.start storage) evs) : Respects (Server.start storage) evs := by
  have hnobody : Distinct [] := ⟨fun _ hc => (nomatch hc), fun _ hc => (nomatch hc)⟩
  refine respects_of_feeding evs hnobody (fun h => ?_) hanchor hcareful
  exact {
    sound := ⟨fun _ _ he => (nomatch he), fun _ _ hdoc => (nomatch hdoc)⟩
    current := hcurrent
    metas := fun _ hkb => nomatch hkb
    sessions := rfl
    readable := fun _ hc => nomatch hc
    bounded := fun _ hc => nomatch hc
    queue := ⟨[], rfl, fun _ hd => nomatch hd⟩ }

def Delivery.refused (h : Host Y) (d : Delivery Y) : Bool :=
  match d.event with
  | .syncUpdate name _ _ =>
    (kbOf name).any fun kbId =>
      (kbAccess h.toEnv kbId d.client.principal .read d.client.transport d.documents).2 ≠ .ok .allow
  | _ => false

def leaks : Server Y → List (Host Y × SessionEvent) → Bool
  | _, [] => false
  | s, (h, ev) :: evs =>
    ((s.step h ev).queued.drop s.queued.length).any (Delivery.refused h) || leaks (s.step h ev) evs

lemma Delivery.not_allowed {h : Host Y} {d : Delivery Y} (hd : d.refused h = true) : ¬ d.Allowed h := by
  intro hallowed
  rw [Delivery.refused] at hd
  split at hd
  · next name u header hevent =>
    cases hkb : kbOf name with
    | none => simp [hkb] at hd
    | some kbId =>
      have haccess := hallowed name u header hevent kbId hkb
      simp [hkb, haccess] at hd
  · cases hd

lemma not_respects_of_leaks {s : Server Y} {evs : List (Host Y × SessionEvent)} (h : leaks s evs = true) :
    ¬ Respects s evs := by
  induction evs generalizing s with
  | nil => cases h
  | cons e evs ih =>
    rintro ⟨hallowed, hrest⟩
    rcases Bool.or_eq_true_iff.mp h with hnow | hlater
    · obtain ⟨d, hd, hrefused⟩ := any_eq_true.mp hnow
      exact d.not_allowed hrefused (hallowed d hd)
    · exact ih hlater hrest

def sampleSessions (evs : List SessionEvent) : List (Host .sample × SessionEvent) := evs.map fun ev => (sampleHost, ev)

def sampleNotes (method rest : String) : String := sampleText method "kbc:notes" (", \"kb_id\": \"notes\"" ++ rest)

def sampleChange : String := sampleNotes "kb/collection_node_add" ", \"node_id\": \"other\""

lemma carefulMessage_of_method {h : Host Y} {s : Server Y} {who : Peer} {msg : String} {m : Method}
    (name : String) (hname : (JsonRpcRequest.ofText msg).map (·.method) = some name) (hm : Method.parse name = some m)
    (hcareful : ∀ params, CarefulMethod h s who params m) (hnotification : isNotification msg = false)
    (hother : name ∉ "tools/call" :: "notifications/subscribe" :: syncToolMethods) : CarefulMessage h s who msg := by
  have hmethod : ∀ request, JsonRpcRequest.ofText msg = some request → request.method = name := by
    intro request hrequest
    simpa [hrequest] using hname
  simp only [mem_cons, not_or] at hother
  constructor
  · intro val hyes
    rw [hnotification] at hyes
    cases hyes
  · intro request method hrequest hparse
    rw [hmethod request hrequest, hm] at hparse
    exact Option.some.inj hparse ▸ hcareful _
  · intro request hrequest
    constructor
    · intro arguments hcall
      rw [toolCall, hmethod request hrequest, if_neg (by simp [hother.2.2]), if_neg hother.1] at hcall
      cases hcall
    · intro hsubscribe
      exact absurd ((hmethod request hrequest).symm.trans hsubscribe) hother.2.1

def sampleOrderly : List SessionEvent :=
  [.connect (sampleCaller 1 "alice"), .connect (sampleCaller 2 "alice"), .message 2 (sampleNotes "kb/join" ""),
    .message 1 sampleChange]

lemma carefulRun_sampleOrderly (s : Server .sample) : CarefulRun s (sampleSessions sampleOrderly) := by
  refine ⟨rfl, rfl, fun c _ => ?_, fun c _ => ?_, trivial⟩
  · exact carefulMessage_of_method (m := .kbJoin) "kb/join" (by decide +kernel) (by decide +kernel) (fun _ => trivial)
      (by decide +kernel) (by decide)
  · exact carefulMessage_of_method (m := .kbCollectionNodeAdd) "kb/collection_node_add" (by decide +kernel)
      (by decide +kernel) (fun _ => trivial) (by decide +kernel) (by decide)

lemma schema_sampleKbs (kbId : String) (d : Yrs.SampleDoc) (hd : sampleKbs.storage (collectionDocName kbId) = some d) :
    2 ≤ (Yrs.sample.root d).schemaVersion := by
  have hnode : collectionDocName kbId ≠ "kbn:notes:idea" := fun heq =>
    (kbNodeDocName_ne_collectionDocName "notes" "idea" kbId).symm (heq.trans (by decide +kernel))
  by_cases hisMine : collectionDocName kbId = "kbc:mine"
  · rw [hisMine] at hd
    cases hd
    decide +kernel
  · by_cases hisNotes : collectionDocName kbId = "kbc:notes"
    · rw [hisNotes] at hd
      cases hd
      decide +kernel
    · simp [sampleKbs, hnode, hisMine, hisNotes] at hd

theorem feed_of_orderly_run :
    (((sampleSessions sampleOrderly).foldl (fun s e => s.step e.1 e.2) (Server.start sampleKbs.storage)).queued.map fun d =>
      (d.client.id, d.event.docId)) = [(2, "kbc:notes")] ∧
      Respects (Server.start sampleKbs.storage) (sampleSessions sampleOrderly) := by
  refine ⟨by decide +kernel, feed_respects_access sampleKbs.storage (fun kbId d _ => schema_sampleKbs kbId d)
    (sampleSessions sampleOrderly) ?_ (carefulRun_sampleOrderly _)⟩
  intro e he kbId
  obtain ⟨ev, -, rfl⟩ := mem_map.mp he
  rfl

def sampleSubscribe : String :=
  "\x7b\"jsonrpc\": \"2.0\", \"id\": 1, \"method\": \"notifications/subscribe\", \"params\": " ++
    "\x7b\"types\": [\"sync_update\"]\x7d\x7d"

theorem feed_reaches_those_without_access :
    ¬ Respects (Server.start sampleKbs.storage) (sampleSessions [.connect (sampleCaller 1 "mallory"),
        .connect (sampleCaller 2 "alice"), .message 1 (sampleText "sync/awareness" "kbc:notes" ""),
        .message 1 sampleSubscribe, .message 2 sampleChange]) ∧
      ¬ Respects (Server.start sampleKbs.storage) (sampleSessions [.connect (sampleCaller 1 "mallory"),
        .connect (sampleCaller 2 "alice"), .message 1 sampleSubscribe, .message 2 sampleChange]) ∧
      ¬ Respects (Server.start sampleKbs.storage) (sampleSessions [.connect (sampleCaller 1 "bob"),
        .connect (sampleCaller 2 "alice"), .message 2 (sampleNotes "kb/add_member" ", \"member\": \"bob\""),
        .message 1 (sampleNotes "kb/join" ""), .message 2 (sampleNotes "kb/remove_member" ", \"member\": \"bob\""),
        .message 2 sampleChange]) := by
  refine ⟨not_respects_of_leaks ?_, not_respects_of_leaks ?_, not_respects_of_leaks ?_⟩
  · decide +kernel
  · decide +kernel
  · decide +kernel

end Mae.Daemon
