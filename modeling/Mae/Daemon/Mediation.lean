import Mae.Daemon.Settled

/-! The gates in front of `sync/update` and `sync/share`, and which writes to the documents of a KB they let through. -/

namespace Mae.Daemon

open Library Handler Sync Sync.Membership Option DocAddress JsonRpcRequest Documents

variable {Y : Yrs}

def NamesKb (params : Json) : Prop := ∀ kbId, (params.field "kb_id").asStr = some kbId → kbIdIsAddressable kbId = true

lemma NamesKb.ne_empty {params : Json} (h : NamesKb params) {kbId : String}
    (hkb : (params.field "kb_id").asStr = some kbId) : kbId ≠ "" :=
  (of_kbIdIsAddressable (h kbId hkb)).1

lemma namesKb_of_guard {params : Json} (h : refuseUnaddressableKbId (params.field "kb_id").asStr = .ok ()) :
    NamesKb params := by
  intro kbId hkb
  rw [hkb, refuseUnaddressableKbId] at h
  by_contra hne
  simp [hne] at h

lemma ends_handleDocRequestInner {h : Host Y} {who : Peer} {msg : String} {s : Server Y}
    {Q : Reply Y → Server Y → Prop} {E : Server Y → Prop} (hE : E s)
    (hhandler : ∀ request method, ofText msg = some request → NamesKb request.params →
      Method.parse request.method = some method → authorizeNamedDoc method request.params = .ok () →
      (handleMethod h who request method).Ends s Q E) : (handleDocRequestInner h who msg).Ends s Q E := by
  refine ends_ofOption_bind hE fun request hrequest => ends_ofExcept_bind hE fun _ _ => ?_
  refine ends_ofExcept_bind hE fun _ hguard => ends_ofOption_bind hE fun method hmethod => ?_
  refine ends_ofExcept_bind hE fun _ hdoc => ?_
  exact hhandler request method hrequest (namesKb_of_guard hguard) hmethod hdoc

namespace Steady

variable {h : Host Y} {I : Server Y → Prop} {s : Server Y} {who : Peer} {kbId principal : String}

lemma ends_gateNodeWrite (hI : Steady h I) (hs : I s) (hp : who.principal = some principal) {params : Json}
    (hparams : NamesKb params) (name : String) (bytes : Bytes) (header : Option ContentParams) :
    (gateNodeWrite h who params name bytes header).Ends s (fun _ s' => I s' ∧
      ∀ kbId nodeId, parse name = some (.kbNode kbId nodeId) → ∃ named,
        (params.field "kb_id").asStr = some named ∧
          decision h.toEnv s.documents.storage named principal .edit who.transport = .ok .allow) I := by
  rw [gateNodeWrite]
  split
  · next nodeId hname =>
    split
    · exact ends_fail hs
    · next named hnamed =>
      have hkb := hparams.ne_empty hnamed
      apply (hI.ends_requireAccess hs hkb hp .edit _).bind
      intro _ s1 hs1
      have hpassed : ∀ s', I s' → I s' ∧ ∀ kbId nodeId, parse name = some (.kbNode kbId nodeId) →
          ∃ named, (params.field "kb_id").asStr = some named ∧
            decision h.toEnv s.documents.storage named principal .edit who.transport = .ok .allow :=
        fun s' hs' => ⟨hs', fun _ _ _ => ⟨named, hnamed, hs1.2⟩⟩
      cases header.bind (·.author) with
      | none => exact ends_answer (hpassed s1 hs1.1)
      | some author =>
        have hfence := hI.reading.moves_enforceEpochFenceOn hkb nodeId name bytes author none
        exact (hfence.keeps hs1.1).mapError.mono (fun _ => hpassed) fun _ h => h
  · next hne => exact ends_answer ⟨hs, fun kbId nodeId hname => absurd hname (hne kbId nodeId)⟩

structure RawWrite (h : Host Y) (who : Peer) (principal : String) (params : Json) (storage : String → Option Y.Doc)
    (name : String) : Prop where
  collection : ∀ kbId, parse name = some (.kbCollection kbId) →
    decision h.toEnv storage kbId principal .manage who.transport = .ok .allow
  node : ∀ kbId nodeId, parse name = some (.kbNode kbId nodeId) → ∃ named,
    (params.field "kb_id").asStr = some named ∧
      decision h.toEnv storage named principal .edit who.transport = .ok .allow

lemma ends_handleSyncUpdate (hI : Steady h I) (hs : I s) (hp : who.principal = some principal) {params : Json}
    (hparams : NamesKb params)
    (hsubscribe : ∀ name, (params.field "doc").asStr = some name → ∀ s', I s' →
      s'.documents.storage = s.documents.storage → I (s'.onClient who.id fun c => { c with docSubs := c.docSubs.insert name })) :
    (handleSyncUpdate h who params).Ends s (fun _ s' => ∃ name u header s₁, (params.field "doc").asStr = some name ∧
      RawWrite h who principal params s.documents.storage name ∧ I s₁ ∧ s₁.documents.storage = s.documents.storage ∧
      s' = { s₁ with documents := s₁.documents.applyUpdate h.toEnv name u }.enqueue (.syncUpdate name u header)
        fun c => c.id ≠ who.id) I := by
  -- the storage is that of the start up to the update
  have hJ := hI.still s.documents.storage
  have hI_of : ∀ s', I s' ∧ s'.documents.storage = s.documents.storage → I s' := fun _ h => h.1
  apply Ends.mono _ (fun _ _ h => h) hI_of
  refine ends_ofOption_bind ⟨hs, rfl⟩ fun name hname => ?_
  apply (hJ.ends_denyCollectionSmuggling ⟨hs, rfl⟩ hp name).bind
  rintro _ s₁ ⟨hs1, hcollection⟩
  refine (hJ.ends_firstInteraction hs1 name fun s' hs' => ?_).bind fun _ s2 hs2 => ?_
  · exact ends_change ⟨hsubscribe name hname s' hs'.1 hs'.2, hs'.2⟩
  refine ends_bytesParam_bind hs2 fun bytes => ends_check_bind hs2 fun _ => ?_
  apply ((hJ.reading.moves_relayedHeader (fun _ => hparams.ne_empty) name bytes).keeps hs2).bind
  intro header s3 hs3
  apply (hJ.ends_gateNodeWrite hs3 hp hparams name bytes header).bind
  rintro _ s4 ⟨hs4, hnode⟩
  rw [hs3.2] at hnode
  refine Ends.bind (Q := fun u s' => s' = { s4 with documents := s4.documents.applyUpdate h.toEnv name u })
    (Ends.mapError ?_) fun u s5 hs5 => ?_
  · rw [applyBytes]
    split
    · exact ends_fail hs4
    · exact rfl
  · subst hs5
    exact ⟨name, u, header, s4, hname, ⟨hcollection, hnode⟩, hs4.1, hs4.2, rfl⟩

lemma ends_handleSyncShare (hI : Steady h I) (hs : I s) (params : Json)
    (hsubscribe : ∀ s', I s' → s'.documents.storage = s.documents.storage →
      I (s'.onClient who.id fun c => { c with docSubs := c.docSubs.insert (docParam params) })) :
    (handleSyncShare h who params).Ends s (fun _ s' => ∃ u s₁, I s₁ ∧ s₁.documents.storage = s.documents.storage ∧
      s' = { s₁ with documents := s₁.documents.shareDoc h.toEnv (docParam params) u }.enqueue
        (.syncUpdate (docParam params) u none) fun c => c.id ≠ who.id) I := by
  have hJ := hI.still s.documents.storage
  have hI_of : ∀ s', I s' ∧ s'.documents.storage = s.documents.storage → I s' := fun _ h => h.1
  apply Ends.mono _ (fun _ _ h => h) hI_of
  apply (hJ.ends_insertSessionDoc ⟨hs, rfl⟩ (docParam params)).bind
  intro _ s₁ hs1
  refine Keeps.bind (ends_change ⟨hsubscribe s₁ hs1.1 hs1.2, hs1.2⟩) fun _ s2 hs2 => ?_
  refine ends_bytesParam_bind hs2 fun bytes => ?_
  refine Ends.bind (Q := fun u s' => s' = { s2 with documents := s2.documents.shareDoc h.toEnv (docParam params) u })
    (Ends.mapError ?_) fun u s3 hs3 => ?_
  · rw [shareBytes]
    split
    · exact ends_fail hs2
    · exact rfl
  · subst hs3
    exact ⟨u, s2, hs2.1, hs2.2, rfl⟩

end Steady

lemma steady_settled (h : Host Y) : Steady h fun s => s.documents.Settled h.toEnv where
  settled _ hs := hs
  quiet _ _ hs hsound hstorage := hs.of_storage hsound hstorage
  books _ _ _ _ hs := hs
  metas _ _ _ hs := hs
  tells _ _ _ hs := hs

namespace Documents

def stateAt (s : Documents Y) (name : String) : Y.Doc × Option Y.Doc :=
  (((s.docs name).map (·.sync)).getD ((s.storage name).getD Y.blank), s.storage name)

lemma Coherent.stateAt {s : Documents Y} (h : s.Coherent) (name : String) :
    s.stateAt name = ((s.storage name).getD Y.blank, s.storage name) := by
  rw [Documents.stateAt]
  cases he : s.docs name with
  | none => rfl
  | some e =>
    rw [map_some, getD_some, h name e he]

end Documents

structure OwnAddress (request : JsonRpcRequest) : Prop where
  update : request.method = "sync/update" → ∀ name kbId nodeId, (request.params.field "doc").asStr = some name →
    parse name = some (.kbNode kbId nodeId) → ∀ named, (request.params.field "kb_id").asStr = some named →
      named = kbId
  share : request.method = "sync/share" → kbOf (docParam request.params) = none

structure Mediated (h : Host Y) (who : Peer) (s : Documents Y) (name : String) : Prop where
  node : ∀ kbId nodeId, parse name = some (.kbNode kbId nodeId) →
    (kbAccess h.toEnv kbId who.principal .edit who.transport s).2 = .ok .allow
  collection : ∀ kbId, parse name = some (.kbCollection kbId) →
    (kbAccess h.toEnv kbId who.principal .manage who.transport s).2 = .ok .allow

section

variable {h : Host Y} {who : Peer} {principal : String} {s : Server Y}

lemma kbAccess_of_decision (hp : who.principal = some principal) (hs : s.documents.Settled h.toEnv) {kbId : String}
    (hkb : kbId ≠ "") {op : KbOp}
    (hallow : decision h.toEnv s.documents.storage kbId principal op who.transport = .ok .allow) :
    (kbAccess h.toEnv kbId who.principal op who.transport s.documents).2 = .ok .allow := by
  rw [hp, (hs.kbAccess hkb principal op who.transport).2.2]
  exact hallow

def AllMediated (h : Host Y) (who : Peer) (s s' : Documents Y) : Prop :=
  s'.Coherent ∧ ∀ name, s'.storage name = s.storage name ∨ Mediated h who s name

lemma AllMediated.of_storage {docs docs' : Documents Y} (hcoherent : docs'.Coherent) (hstorage : docs'.storage = docs.storage) :
    AllMediated h who docs docs' :=
  ⟨hcoherent, fun name => .inl (congrFun hstorage name)⟩

lemma allMediated_handleSyncUpdate (hp : who.principal = some principal) (hs : s.documents.Settled h.toEnv)
    {request : JsonRpcRequest} (hparams : NamesKb request.params) (hmethod : request.method = "sync/update")
    (hown : OwnAddress request) :
    (handleSyncUpdate h who request.params).Keeps s fun s' => AllMediated h who s.documents s'.documents := by
  have hI := (steady_settled h).still s.documents.storage
  have hends := hI.ends_handleSyncUpdate ⟨hs, rfl⟩ hp hparams fun _ _ _ hs' _ => hs'
  apply hends.mono
  · rintro _ _ ⟨name, u, header, s1, hname, hwrite, hs1, hstorage, rfl⟩
    refine ⟨hs1.1.coherent.applyUpdate h.toEnv name u, fun other => ?_⟩
    by_cases hother : other = name
    · subst hother
      right
      constructor
      · intro kbId nodeId haddress
        obtain ⟨named, hnamed, hallow⟩ := hwrite.node kbId nodeId haddress
        obtain rfl := hown.update hmethod other kbId nodeId hname haddress named hnamed
        exact kbAccess_of_decision hp hs (kbOf_ne_empty (kbOf_of_node haddress)) hallow
      · intro kbId haddress
        exact kbAccess_of_decision hp hs (kbOf_ne_empty (kbOf_of_collection haddress)) (hwrite.collection kbId haddress)
    · left
      rw [Server.enqueue, storage_applyUpdate, Function.update_of_ne hother, hstorage]
  · exact fun s' hs' => .of_storage hs'.1.coherent hs'.2

lemma allMediated_handleSyncShare (hs : s.documents.Settled h.toEnv) {request : JsonRpcRequest}
    (hmethod : request.method = "sync/share") (hown : OwnAddress request) :
    (handleSyncShare h who request.params).Keeps s fun s' => AllMediated h who s.documents s'.documents := by
  have hI := (steady_settled h).still s.documents.storage
  have hends := @Steady.ends_handleSyncShare Y h _ s who hI ⟨hs, rfl⟩ request.params fun _ hs' _ => hs'
  apply hends.mono
  · rintro _ _ ⟨u, s1, hs1, hstorage, rfl⟩
    refine ⟨hs1.1.coherent.shareDoc h.toEnv _ u, fun other => ?_⟩
    by_cases hother : other = docParam request.params
    · subst hother
      right
      -- a document of no KB is nobody's to mediate
      have hnone := hown.share hmethod
      constructor
      · intro kbId nodeId haddress
        simp [kbOf_of_node haddress] at hnone
      · intro kbId haddress
        simp [kbOf_of_collection haddress] at hnone
    · left
      rw [Server.enqueue, storage_shareDoc, Function.update_of_ne hother, hstorage]
  · exact fun s' hs' => .of_storage hs'.1.coherent hs'.2

end

def sampleHost : Host .sample where
  toEnv := sampleEnv
  base64 text := .ok (asBytes text)
  decodeUpdate bytes := .ok [((3, bytes.length), [.put "title" "changed"])]
  maxUpdateSize := 1000
  requireSignedFlag := false
  charge _ _ := .ok ()
  sign _ := []
  decodeNode _ := .error "no node"
  findDocBySuffix _ _ := none
  documentNames _ := []
  queryReads _ _ _ := []
  cachedEmbedding _ _ _ _ := .ok none
  mintSelfToken := none

def sampleCaller (id : ℕ) (principal : String) : Peer := ⟨id, some principal, none, none, .hub⟩

def sampleOwned (owner : String) : Yrs.SampleDoc :=
  Yrs.sample.apply Yrs.sample.blank [((1, 0), [.put "owner" owner, .put "schema" "2", .newMap "member_roles",
    .putRecord "member_roles" owner (Root.memberFields .owner owner 0), .newMap "nodes", .putIn "nodes" "idea" "Idea"])]

def sampleKbs : Documents .sample where
  storage := Function.update (Function.update (Function.update (fun _ => none) "kbc:notes" (some (sampleOwned "alice")))
    "kbc:mine" (some (sampleOwned "mallory"))) "kbn:notes:idea"
    (some (Yrs.sample.apply Yrs.sample.blank [((2, 0), [.put "title" "idea"])]))
  docs _ := none

def sampleServer : Server .sample := ⟨sampleKbs, [], [], []⟩

lemma settled_sampleKbs : sampleKbs.Settled sampleEnv where
  coherent _ _ he := by cases he
  stored _ _ hdoc := by cases hdoc
  current _ _ _ _ := .inl rfl

def sampleText (method doc rest : String) : String :=
  "\x7b\"jsonrpc\": \"2.0\", \"id\": 1, \"method\": \"" ++ method ++ "\", \"params\": \x7b\"doc\": \"" ++ doc ++
    "\", \"update\": \"x\"" ++ rest ++ "\x7d\x7d"

def sampleRequest (text : String) : JsonRpcRequest := (ofText text).getD ⟨.null, "", .null⟩

def sampleAfter (principal text : String) : Documents .sample :=
  (handleDocRequestInner sampleHost (sampleCaller 1 principal) text sampleServer).1.documents

lemma stateAt_ne {a b : Documents .sample} {name : String}
    (h : (a.storage name).map (·.txns) ≠ (b.storage name).map (·.txns)) : a.stateAt name ≠ b.stateAt name :=
  fun heq => h (congrArg (fun state => state.2.map (·.txns)) heq)

def sampleEdit : String := sampleText "sync/update" "kbn:notes:idea" ", \"kb_id\": \"notes\""

lemma ownAddress_sampleEdit : OwnAddress (sampleRequest sampleEdit) where
  update _ name kbId nodeId hname haddress named hnamed := by
    have hdoc : ((sampleRequest sampleEdit).params.field "doc").asStr = some "kbn:notes:idea" := by decide +kernel
    have hkb : ((sampleRequest sampleEdit).params.field "kb_id").asStr = some "notes" := by decide +kernel
    obtain rfl := mem_unique hdoc hname
    obtain rfl := mem_unique hkb hnamed
    have hparse : parse "kbn:notes:idea" = some (.kbNode "notes" "idea") := by decide +kernel
    cases hparse.symm.trans haddress
    rfl
  share hmethod := by
    have hupdate : (sampleRequest sampleEdit).method = "sync/update" := by decide +kernel
    rw [hupdate] at hmethod
    exact absurd hmethod (by decide)

def sampleLegacy : Documents .sample where
  storage := Function.update (fun _ => none) "kbc:old" <| some <|
    Yrs.sample.apply Yrs.sample.blank [((1, 0), [.put "creator" "Alice"])]
  docs _ := none

def sampleKeyed : Host .sample := { sampleHost with authorizedKeys := some fun label => [("Alice", "alice")].lookup label }

end Mae.Daemon
