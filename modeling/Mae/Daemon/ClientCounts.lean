import Mae.Daemon.Feed
import Mae.Daemon.Tally

/-! The clients of each document over whole runs of the daemon: whether the count is the number of sessions that have come
to the document. -/

namespace Mae.Daemon

open Library Handler Sync Sync.Membership List Option Documents Books

variable {Y : Yrs}

def Documents.SameAt (docs : Documents Y) (name : String) (docs' : Documents Y) : Prop :=
  docs'.docs name = docs.docs name ∧ docs'.storage name = docs.storage name

namespace Server

structure ClientsExact (s : Server Y) : Prop where
  counts : ∀ name, s.documents.count name = s.attached name
  inMemory : ∀ name, 0 < s.attached name → s.documents.hasDoc name = true
  evictIdle : ∀ name, 0 < s.attached name → ∀ victim, s.documents.SameAt name (s.documents.evictIdle victim)
  makeRoom : ∀ name, 0 < s.attached name → ∀ env, s.documents.SameAt name (s.documents.makeRoom env)

structure Counted (s : Server Y) : Prop where
  kept : s.books.Kept
  exact : s.documents.count = s.attached

def Countable (s : Server Y) (name : String) : Prop := 0 < s.attached name ∨ s.documents.Available name

def Alone (s : Server Y) (who : Peer) (name : String) : Prop := ∀ id, s.books.Holds id name → id = who.id

def Outside (s : Server Y) (who : Peer) (kbId : String) : Prop :=
  ¬ s.books.Holds who.id (collectionDocName kbId) ∧ ∀ nodeId, ¬ s.books.Holds who.id (kbNodeDocName kbId nodeId)

end Server

def updateParam (h : Host Y) (params : Json) : Option Y.Update :=
  (params.field "update").asStr.bind fun text => (h.base64 text).toOption.bind fun bytes => (h.decodeUpdate bytes).toOption

def sharedNames (kbId : String) (nodes : List (SharedNode Y)) : List String :=
  nodes.filterMap fun node =>
    match node.id, node.state with
    | some nodeId, some (.update _) => some (kbNodeDocName kbId nodeId)
    | _, _ => none

def TalliedMethod (h : Host Y) (s : Server Y) (who : Peer) (params : Json) : Method → Prop
  | .syncUpdate => ∀ name, (params.field "doc").asStr = some name → s.Countable name
  | .syncFullState => s.Countable (docParam params)
  | .syncResync => s.Countable (docParam params) ∧ s.Countable (resolveName h (docParam params) s)
  -- these two put the document in the books and do not count
  | .syncAwareness => s.books.Holds who.id (docParam params)
  | .kbRegister => ∀ kbId, (params.field "kb_id").asStr = some kbId → s.books.Holds who.id (collectionDocName kbId)
  -- a share sets the count to one
  | .syncShare =>
    if (updateParam h params).isSome then s.Alone who (docParam params) else s.books.Holds who.id (docParam params)
  -- these two take documents out of the books and do not count
  | .kbUnregister => ∀ kbId, (params.field "kb_id").asStr = some kbId → ¬ s.books.Holds who.id (collectionDocName kbId)
  | .kbLeave => ∀ kbId, (params.field "kb_id").asStr = some kbId → s.Outside who kbId
  -- these two count a session once more that is counted already
  | .kbJoin => ∀ kbId, (params.field "kb_id").asStr = some kbId → s.Outside who kbId
  | .kbShare => ∀ kbId, (params.field "kb_id").asStr = some kbId →
      s.Outside who kbId ∧ 0 < s.attached (collectionDocName kbId) ∧
        (sharedNames kbId (ShareRequest.ofParams h who params).nodes).Nodup ∧
        ∀ name ∈ sharedNames kbId (ShareRequest.ofParams h who params).nodes, 0 < s.attached name
  | .kbNodeUpdate => ∀ kbId nodeId, (params.field "kb_id").asStr = some kbId →
      (params.field "node_id").asStr = some nodeId → s.Countable (kbNodeDocName kbId nodeId) ∧
        (((params.field "reseal").asBool.getD false || (params.field "rebirth").asBool.getD false) = true →
          s.Alone who (kbNodeDocName kbId nodeId))
  | .docsDelete => s.attached (docParam params) = 0
  | _ => True

structure TalliedMessage (h : Host Y) (s : Server Y) (who : Peer) (msg : String) : Prop where
  notification : ∀ val, isNotification msg = true → Json.parse msg = some val →
    (val.field "method").asStr = some "sync/awareness" → s.books.Holds who.id (docParam (val.field "params"))
  method : ∀ request method, JsonRpcRequest.ofText msg = some request → Method.parse request.method = some method →
    TalliedMethod h s who request.params method

def Tallied (h : Host Y) (s : Server Y) : SessionEvent → Prop
  | .message id text => ∀ c, s.find id = some c → TalliedMessage h s c.toPeer text
  | _ => True

def TalliedRun : Server Y → List (Host Y × SessionEvent) → Prop
  | _, [] => True
  | s, (h, ev) :: evs => Tallied h s ev ∧ TalliedRun (s.step h ev) evs

structure Present (who : Peer) (s : Server Y) : Prop extends s.Counted where
  book : ∃ ks, (who.id, ks) ∈ s.books

section Steps

variable {h : Host Y} {who : Peer} {s s' : Server Y} {name kbId : String} {params : Json} {ε α β : Type}

lemma Server.Counted.calm (hs : s.Counted) (hcalm : Calmly s s') : s'.Counted where
  kept := hcalm.books ▸ hs.kept
  exact := by
    rw [hcalm.counts, hs.exact]
    funext name
    rw [Server.attached, Server.attached, hcalm.books]

lemma Present.calm (hs : Present who s) (hcalm : Calmly s s') : Present who s' :=
  { hs.toCounted.calm hcalm with book := hcalm.books ▸ hs.book }

lemma Calmly.attached (hcalm : Calmly s s') (name : String) : s'.attached name = s.attached name := by
  rw [Server.attached, Server.attached, hcalm.books]

lemma Server.Countable.calm (hname : s.Countable name) (hcalm : Calmly s s') : s'.Countable name :=
  hname.imp (fun hpos => hcalm.attached name ▸ hpos) fun havailable => havailable.imp_left (hcalm.stored name)

lemma Server.Alone.calm (halone : s.Alone who name) (hcalm : Calmly s s') : s'.Alone who name :=
  fun id hid => halone id (hcalm.books ▸ hid)

lemma Server.Outside.calm (houtside : s.Outside who kbId) (hcalm : Calmly s s') : s'.Outside who kbId := by
  rw [Server.Outside, hcalm.books]
  exact houtside

lemma Server.Counted.hasDoc (hs : s.Counted) (hpos : 0 < s.attached name) : s.documents.hasDoc name = true :=
  hasDoc_of_count (hs.exact ▸ hpos)

lemma Server.Counted.loadable (hs : s.Counted) (hname : s.Countable name) :
    s.documents.hasDoc name = true ∨ s.documents.Available name :=
  hname.imp_left hs.hasDoc

lemma Present.after {m : Handler (Server Y) ε α} {f : α → Handler (Server Y) ε β} {R : β → Server Y → Prop}
    (hs : Present who s) (hm : Calm m) (hcalm : Calmly s s')
    (hf : ∀ a t, Calmly s t → (f a).Ends t R (Present who)) : (m >>= f).Ends s' R (Present who) := by
  refine Ends.bind ((hm.ends s').mono (fun _ t ht => ?_) fun t ht => ?_) hf
  · exact IsTrans.trans s s' t hcalm ht
  · exact hs.calm (IsTrans.trans s s' t hcalm ht)

lemma Present.keeps {m : Handler (Server Y) ε α} (hs : Present who s) (hm : Calm m) : m.Keeps s (Present who) :=
  (hm.ends s).mono (fun _ _ => hs.calm) fun _ => hs.calm

lemma Present.fails {m : Handler (Server Y) ε α} {Q : α → Server Y → Prop} (hs : Present who s)
    (hm : m.Ends s Q (Calmly s)) : m.Ends s Q (Present who) :=
  hm.mono (fun _ _ h => h) fun _ => hs.calm

lemma books_onClient {f : Client → Client} {g : List String → List String} {id : ℕ}
    (hf : ∀ c, (f c).book = (c.id, g c.sessionDocs)) : (s.onClient id f).books = s.books.revise id g := by
  simp only [Server.books, Server.onClient, revise, List.map_map]
  refine map_congr_left fun c _ => ?_
  simp only [Function.comp_apply]
  split
  · next hid => rw [if_pos (show c.book.1 = id from hid), hf]; rfl
  · next hid => rw [if_neg (show c.book.1 ≠ id from hid)]

lemma hasSessionDoc_iff {id : ℕ} : s.hasSessionDoc id name = true ↔ s.books.Holds id name := by
  simp only [Server.hasSessionDoc, List.any_eq_true, Bool.and_eq_true, decide_eq_true_eq, contains_iff_mem]
  constructor
  · rintro ⟨c, hc, rfl, hname⟩
    exact ⟨c.sessionDocs, List.mem_map_of_mem hc, hname⟩
  · rintro ⟨ks, hks, hname⟩
    obtain ⟨c, hc, heq⟩ := List.mem_map.mp hks
    cases heq
    exact ⟨c, hc, rfl, hname⟩

lemma calmly_insertSessionDoc (hs : s.Counted) (hname : s.books.Holds who.id name) :
    Calmly s (insertSessionDoc who name s).1 where
  counts := rfl
  books := (books_onClient fun _ => rfl).trans (revise_insert_of_holds hs.kept hname)
  stored _ hs := hs

lemma calmly_removeSessionDoc (hname : ¬ s.books.Holds who.id name) : Calmly s (removeSessionDoc who name s).1 where
  counts := rfl
  books := (books_onClient fun _ => rfl).trans
    (revise_remove_of_not_holds hname)
  stored _ hs := hs

lemma Present.revised (hs : Present who s) (hbooks : s'.books = s.books.revise who.id (List.insert name))
    (hcounts : ∀ other, s'.documents.count other = (s.books.revise who.id (List.insert name)).holders other) :
    Present who s' where
  kept := hbooks ▸ hs.kept.revise who.id fun _ hks => hks.insert
  exact := by
    funext other
    rw [hcounts, Server.attached, hbooks]
  book := by
    obtain ⟨ks, hks⟩ := hs.book
    rw [hbooks]
    exact ⟨ks.insert name, List.mem_map.mpr ⟨(who.id, ks), hks, if_pos rfl⟩⟩

lemma Present.ends_joinDoc (hs : Present who s) (hfree : ¬ s.books.Holds who.id name)
    (hname : s.documents.hasDoc name = true ∨ s.documents.Available name) {E : Server Y → Prop} :
    (joinDoc h who name).Ends s
      (fun _ s' => Present who s' ∧ s'.books = s.books.revise who.id (List.insert name)) E := by
  obtain ⟨ks, hks⟩ := hs.book
  have hbooks : (joinDoc h who name s).1.books = s.books.revise who.id (List.insert name) :=
    calc (joinDoc h who name s).1.books
        = (s.onClient who.id fun c => { c with sessionDocs := c.sessionDocs.insert name }).books :=
          (calm_subscribeDoc name _).books
      _ = _ := books_onClient fun _ => rfl
  refine show Present who (joinDoc h who name s).1 ∧ _ from ⟨hs.revised hbooks fun other => ?_, hbooks⟩
  rw [hs.kept.holders_insert hks hfree]
  have hcount := count_countClients h.toEnv hname (· + 1) other
  rw [hs.exact] at hcount
  exact hcount

lemma Present.ends_firstInteraction (hs : Present who s)
    (hname : s.documents.hasDoc name = true ∨ s.documents.Available name) {E : Server Y → Prop} :
    (firstInteraction h who name).Ends s
      (fun _ s' => Present who s' ∧ s'.books = s.books.revise who.id (List.insert name)) E := by
  refine ends_look_bind (ends_when (fun hknown => ?_) fun hknown => ?_)
  · exact hs.ends_joinDoc (fun hholds => by simp [hasSessionDoc_iff.mpr hholds] at hknown) hname
  · have hholds := hasSessionDoc_iff.mp (by simpa using hknown)
    exact ⟨hs, (revise_insert_of_holds hs.kept hholds).symm⟩

lemma ends_shareBytes (hcount : s.documents.count name = 1) (bytes : Bytes) :
    (shareBytes h name bytes).Keeps s (Calmly s) := by
  rw [shareBytes]
  cases h.decodeUpdate bytes with
  | error e => exact ends_fail (refl s)
  | ok u =>
    refine ⟨?_, rfl, retains_shareDoc h.toEnv name u⟩
    funext other
    refine (count_shareDoc h.toEnv name u other).trans ?_
    split
    · next heq => rw [heq, hcount]
    · rfl

end Steps

namespace Present

open Reading

variable {h : Host Y} {who : Peer} {s s' : Server Y} {name kbId : String} {params : Json}

lemma ends_stateOf (name : String) :
    (stateOf h name).Ends s (fun _ s' => Calmly s s' ∧ s'.documents.hasDoc name = true) (Calmly s) := by
  have hcalm := calms.moves_stateOf (h := h) name s
  refine (Daemon.ends_onDocuments (P := fun s' => Calmly s s' ∧ s'.documents = (s.documents.encodeState h.toEnv name).1)
    ⟨hcalm, rfl⟩).mono ?_ fun _ hs' => hs'.1
  rintro u s' ⟨⟨hs', hdocs⟩, hstate⟩
  refine ⟨hs', hdocs ▸ ?_⟩
  cases hu : (s.documents.encodeState h.toEnv name).2 with
  | none => simp [hu] at hstate
  | some u => exact hasDoc_encodeState hu

lemma ends_stateOfAuthorized (name : String) :
    (stateOfAuthorized h name).Ends s (fun _ s' => Calmly s s' ∧ s'.documents.hasDoc name = true) (Calmly s) := by
  have hcalm := calm_stateOfAuthorized (h := h) name s
  obtain ⟨e, he⟩ := getOrCreate_allowed h.toEnv name s.documents
  exact (Daemon.ends_onDocuments ⟨hcalm, hasDoc_getOrCreate he⟩).mono
      (fun _ _ hs' => hs'.1) fun _ hs' => hs'.1

lemma ends_access (kbId : String) (op : KbOp) : (access h who kbId op).Ends s
      (fun _ s' => Calmly s s' ∧ (s' = s ∨ s'.documents.hasDoc (collectionDocName kbId) = true)) (Calmly s) := by
  have hcalm : Calmly s (access h who kbId op s).1 := calms.moves_access trivial op s
  refine (Daemon.ends_onDocuments (P := fun s' => Calmly s s' ∧
    s' = { s with documents := (kbAccess h.toEnv kbId who.principal op who.transport s.documents).1 })
      ⟨hcalm, rfl⟩).mono ?_ fun _ hs' => hs'.1
  rintro decision s' ⟨⟨hs', rfl⟩, hdecision⟩
  refine ⟨hs', ?_⟩
  cases hp : who.principal with
  | none => exact .inl rfl
  | some principal =>
    rw [hp, kbAccess] at hdecision
    rw [kbAccess]
    split at hdecision
    · next docs coll heq =>
      have hcoll : (s.documents.loadCollection h.toEnv kbId).2 = .ok coll := congrArg Prod.snd heq
      have hdoc := hasDoc_loadCollection hcoll
      rw [heq] at hdoc
      exact .inr hdoc
    · cases hdecision

lemma ends_denyKbDocRead (name : String) : (denyKbDocRead h who name).Ends s
      (fun _ s' => Calmly s s' ∧ (s' = s ∨ s'.documents.hasDoc name = true)) (Calmly s) := by
  unfold denyKbDocRead
  split
  · next kbId hkb =>
    rw [eq_collectionDocName_of_parse hkb]
    refine (ends_access kbId .read).mapError.bind fun _ s' hs' => ?_
    exact ends_check (fun _ => hs') hs'.1
  · exact ends_fail (refl s)
  · exact ends_answer ⟨refl s, .inl rfl⟩

lemma ends_sharedUpdate {f : Y.Update → ServerHandler Y (Reply Y)} {Q : Reply Y → Server Y → Prop} {E : Server Y → Prop}
    (hsome : ∀ u, updateParam h params = some u →
      (f u).Ends { s with documents := s.documents.shareDoc h.toEnv name u } Q E)
    (hnone : updateParam h params = none → E s) :
    (bytesParam h params "update" "invalid base64" >>= fun bytes =>
      (shareBytes h name bytes).mapError internalError >>= f).Ends s Q E := by
  rw [updateParam] at hsome hnone
  cases htext : (params.field "update").asStr with
  | none =>
    rw [bytesParam, stringParam, htext]
    exact hnone (by simp [htext])
  | some text =>
    have hparam : bytesParam h params "update" "invalid base64" =
        Handler.ofExcept ((h.base64 text).mapError fun e => parseError s!"invalid base64: {e}") := by
      rw [bytesParam, stringParam, htext]
      rfl
    rw [hparam]
    rw [htext] at hsome hnone
    cases hbase : h.base64 text with
    | error e => exact hnone (by simp [hbase, Except.toOption])
    | ok bytes =>
      change ((shareBytes h name bytes).mapError internalError >>= f).Ends s Q E
      rw [shareBytes]
      simp only [hbase, Except.toOption, bind_some] at hsome hnone
      cases hdecode : h.decodeUpdate bytes with
      | error e => exact hnone (by simp [hdecode])
      | ok u => exact hsome u (by simp [hdecode])

lemma calm_collectionPayload (req : ShareRequest Y) : Calm (collectionPayload req) := by
  unfold collectionPayload
  split
  · exact moves_fail _
  · exact moves_fail _
  · exact moves_answer _

lemma calmly_shareCollection (hdoc : s.documents.hasDoc (collectionDocName kbId) = true) (label : String)
    (payload : Payload Y) :
    Calmly s (onDocuments (shareCollection h.toEnv kbId who.principal label payload) s).1 := by
  have hcount := count_loadCollection h.toEnv kbId s.documents
  have hretains := retains_loadCollection h.toEnv kbId s.documents
  rw [onDocuments, shareCollection.eq_def, if_pos hdoc]
  cases who.principal with
  | none => exact refl s
  | some principal =>
    rw [refuseIfOwnedByAnother]
    split
    · next docs coll heq =>
      rw [heq] at hcount hretains
      simp only
      split_ifs
      · exact ⟨hcount, rfl, hretains⟩
      · exact ⟨hcount, rfl, hretains⟩
    · next docs e heq =>
      rw [heq] at hcount hretains
      exact ⟨hcount, rfl, hretains⟩

lemma exists_of_mem_sharedNames {nodes : List (SharedNode Y)} (hname : name ∈ sharedNames kbId nodes) :
    ∃ nodeId, name = kbNodeDocName kbId nodeId := by
  obtain ⟨node, -, hnode⟩ := mem_filterMap.mp hname
  split at hnode
  · next nodeId _ _ _ => exact ⟨nodeId, (some.inj hnode).symm⟩
  · cases hnode

variable (hs : Present who s)
include hs

lemma ends_handleSyncUpdate (hname : TalliedMethod h s who params .syncUpdate) :
    (handleSyncUpdate h who params).Keeps s (Present who) := by
  refine ends_ofOption_bind hs fun name hdoc => ?_
  refine hs.after (calm_denyCollectionSmuggling name) (refl s) fun _ s' hcalm => ?_
  have hs' := hs.calm hcalm
  refine (hs'.ends_firstInteraction (hs'.loadable ((hname name hdoc).calm hcalm))).bind fun _ s'' hs'' => ?_
  refine hs''.1.keeps ?_
  exact (moves_bytesParam _ _).bind fun _ => (moves_check _ _).bind fun _ => (calms.moves_relayedHeader (fun _ _ => trivial) _ _).bind fun _ =>
    (calm_gateNodeWrite _ _ _).bind fun _ => ((calm_applyBytes _ _).mapError _).bind fun _ =>
      (calm_enqueue _ _).reply

lemma ends_handleSyncFullState (hname : s.Countable (docParam params)) :
    (handleSyncFullState h who params).Keeps s (Present who) := by
  refine hs.after (calms.moves_denyKbDocRead _) (refl s) fun _ s' hcalm => ?_
  have hs' := hs.calm hcalm
  refine (hs'.ends_firstInteraction (hs'.loadable (hname.calm hcalm))).bind fun _ s'' hs'' => ?_
  exact hs''.1.keeps (((calms.moves_stateOf _).mapError _).reply)

lemma ends_handleSyncResync (hname : TalliedMethod h s who params .syncResync) :
    (handleSyncResync h who params).Keeps s (Present who) := by
  refine (hs.fails (ends_denyKbDocRead _)).bind ?_
  rintro _ s' ⟨hcalm, hsame⟩
  have hresolved : s'.Countable (resolveName h (docParam params) s') := by
    rcases hsame with rfl | hdoc
    · exact hname.2
    · rw [resolveName, if_pos hdoc]
      exact hname.1.calm hcalm
  have hs' := hs.calm hcalm
  refine ends_look_bind ?_
  refine hs'.after ((calms.moves_denyKbDocRead _).when _) (refl _) fun _ t hcalm => ?_
  have ht := hs'.calm hcalm
  refine (ht.ends_firstInteraction (ht.loadable (hresolved.calm hcalm))).bind fun _ _ ht' => ?_
  exact ht'.1.keeps (((calms.moves_stateOf _).mapError _).reply)

lemma ends_handleSyncAwareness (hname : s.books.Holds who.id (docParam params)) :
    (handleSyncAwareness who params).Keeps s (Present who) := by
  refine Keeps.bind (keeps_of_state (hs.calm (calmly_insertSessionDoc hs.toCounted hname))) fun _ s' hs' => ?_
  exact hs'.keeps ((calm_subscribeDoc _).bind fun _ => (calm_enqueue _ _).reply)

lemma ends_handleSyncShare (hname : TalliedMethod h s who params .syncShare) :
    (handleSyncShare h who params).Keeps s (Present who) := by
  rw [TalliedMethod] at hname
  obtain ⟨ks, hks⟩ := hs.book
  -- between the entry in the book and the share the count may lag behind
  apply Ends.bind (Q := fun _ s' => s'.documents = s.documents ∧
    s'.books = s.books.revise who.id (List.insert (docParam params)))
  · exact ⟨rfl, books_onClient fun _ => rfl⟩
  rintro _ s1 ⟨hdocs1, hbooks1⟩
  apply Ends.bind (Q := fun _ s' => s'.documents = s.documents ∧
    s'.books = s.books.revise who.id (List.insert (docParam params)))
  · exact ⟨hdocs1, (calm_subscribeDoc (docParam params) s1).books.trans hbooks1⟩
  rintro _ s2 ⟨hdocs2, hbooks2⟩
  refine ends_sharedUpdate (fun u hu => ?_) fun hu => ?_
  · rw [hu] at hname
    refine Present.keeps (hs.revised hbooks2 fun other => ?_) ((calm_enqueue _ _).reply)
    refine (count_shareDoc h.toEnv (docParam params) u other).trans ?_
    split
    · next heq => rw [heq, hs.kept.holders_insert_of_alone hks hname]
    · next hother =>
      have hholders := hs.kept.holders_revise hks (List.insert (docParam params)) other
      simp only [mem_insert_iff, hother, false_or] at hholders
      rw [hdocs2, hs.exact, Server.attached]
      omega
  · rw [hu] at hname
    refine hs.revised hbooks2 fun other => ?_
    rw [hdocs2, hs.exact, revise_insert_of_holds hs.kept hname, Server.attached]

lemma ends_handleKbRegister
    (hname : ∀ kbId, (params.field "kb_id").asStr = some kbId → s.books.Holds who.id (collectionDocName kbId)) :
    (handleKbRegister who params).Keeps s (Present who) := by
  refine ends_ofOption_bind hs fun kbId hkb => ?_
  refine Keeps.bind (keeps_of_state (hs.calm (calmly_insertSessionDoc hs.toCounted (hname kbId hkb)))) fun _ s' hs' => ?_
  exact hs'.keeps ((calm_subscribeDoc _).bind fun _ => (calm_metas _).reply)

lemma ends_handleKbUnregister
    (hname : ∀ kbId, (params.field "kb_id").asStr = some kbId → ¬ s.books.Holds who.id (collectionDocName kbId)) :
    (handleKbUnregister who params).Keeps s (Present who) := by
  refine ends_ofOption_bind hs fun kbId hkb => ?_
  refine hs.after (calm_metas _) (refl s) fun _ s' hcalm => ?_
  have hremoved := (hs.calm hcalm).calm (calmly_removeSessionDoc (hcalm.books ▸ hname kbId hkb))
  exact Keeps.bind (keeps_of_state hremoved) fun _ s'' hs'' => ends_pure hs''

lemma ends_handleDocsDelete (hname : s.attached (docParam params) = 0) :
    (handleDocsDelete params).Keeps s (Present who) := by
  refine Keeps.bind (ends_change ⟨⟨hs.kept, funext fun other => ?_⟩, hs.book⟩) fun _ _ hs' => ends_pure hs'
  refine (count_forget s.documents (docParam params) other).trans ?_
  rw [hs.exact]
  split
  · next heq => rw [heq, ← hname]; rfl
  · rfl

lemma ends_handleKbNodeFetch : (handleKbNodeFetch h who params).Keeps s (Present who) := by
  refine ends_ofOption_bind hs fun kbId _ => ends_ofOption_bind hs fun nodeId _ => ?_
  refine hs.after (calms.moves_requireRead trivial) (refl s) fun _ s1 hcalm => ?_
  refine hs.after (calms.moves_requireNodeInKb trivial _ _) hcalm fun _ s2 hcalm => ?_
  have hs2 := hs.calm hcalm
  refine (hs2.fails (ends_stateOfAuthorized _)).mapError.bind ?_
  rintro state s3 ⟨hcalm, hdoc⟩
  refine ((hs2.calm hcalm).ends_firstInteraction (.inl hdoc)).bind fun _ _ hs' => ?_
  exact ends_pure hs'.1

lemma ends_write {α : Type} {bytes : Bytes} {replaces : Bool} {gate : ServerHandler Y Unit}
    {toError : String → McpError} {f : Y.Update → ServerHandler Y α} (hname : s.Countable name)
    (halone : replaces = true → s.Alone who name) (hcalm : Calmly s s') (hgate : Calm gate) (hf : ∀ u, Calm (f u)) :
    (firstInteraction h who name >>= fun _ => gate >>= fun _ => (if replaces then shareBytes h name bytes else
        applyBytes h name bytes).mapError toError >>= f).Keeps
      s' (Present who) := by
  have hs' := hs.calm hcalm
  obtain ⟨ks, hks⟩ := hs'.book
  refine (hs'.ends_firstInteraction (hs'.loadable (hname.calm hcalm))).bind fun _ s1 hs1 => ?_
  obtain ⟨hs1, hbooks⟩ := hs1
  refine hs1.after hgate (refl s1) fun _ s2 hcalm2 => ?_
  have hs2 := hs1.calm hcalm2
  refine Keeps.bind (Ends.mapError ?_) fun u s3 hs3 => hs3.keeps (hf u)
  split_ifs with hreplaces
  · have hone : s2.documents.count name = 1 := by
      rw [hs2.exact, hcalm2.attached, Server.attached, hbooks]
      exact hs'.kept.holders_insert_of_alone hks ((halone hreplaces).calm hcalm)
    exact (ends_shareBytes hone bytes).mono (fun _ _ => hs2.calm) fun _ => hs2.calm
  · exact hs2.keeps (calm_applyBytes _ _)

lemma ends_serveKbNodeUpdate (hnode : TalliedMethod h s who params .kbNodeUpdate) :
    (serveKbNodeUpdate h who params).Keeps s (Present who) := by
  refine ends_ofOption_bind hs fun kbId hkb => ends_ofOption_bind hs fun nodeId hid => ?_
  obtain ⟨hname, halone⟩ := hnode kbId nodeId hkb hid
  refine hs.after (moves_bytesParam _ _) (refl s) fun bytes _ hcalm => ?_
  refine hs.after (moves_check _ _) hcalm fun _ _ hcalm => ?_
  refine hs.after (calms.moves_loadedCollection trivial).attempt hcalm fun loaded _ hcalm => ?_
  refine hs.after ((calm_accessWithColl _ _ _).mapError _) hcalm fun decision _ hcalm => ?_
  refine hs.after (calm_onDecision _ _) hcalm fun _ _ hcalm => ?_
  refine hs.after (calms.moves_nodeUpdateHeader trivial _ _) hcalm fun header _ hcalm => ?_
  cases who.principal with
  | none =>
    refine hs.after (moves_answer ()) hcalm fun _ _ hcalm => ?_
    exact hs.ends_write hname halone hcalm (Moves.when (calms.moves_gateRebirthOn trivial _ _ _) _) fun _ =>
      (calm_enqueue _ _).reply
  | some principal =>
    refine hs.after (Moves.when ((calms.moves_enforceEpochFenceOn trivial _ _ _ _ _).mapError _) _) hcalm fun _ _ hcalm => ?_
    exact hs.ends_write hname halone hcalm (Moves.when (calms.moves_gateRebirthOn trivial _ _ _) _) fun _ =>
      (calm_enqueue _ _).reply

lemma ends_joinNodes (svs : List (String × Bytes)) {nodeIds : List String} (hnodup : nodeIds.Nodup)
    (hfree : ∀ nodeId ∈ nodeIds, ¬ s.books.Holds who.id (kbNodeDocName kbId nodeId)) :
    (joinNodes h who kbId svs nodeIds).Keeps s (Present who) := by
  induction nodeIds generalizing s with
  | nil => exact ends_answer hs
  | cons nodeId nodeIds ih =>
    obtain ⟨hnew, hnodup⟩ := nodup_cons.mp hnodup
    obtain ⟨hfree, hrest⟩ := forall_mem_cons.mp hfree
    apply Ends.bind (Q := fun state s' => Calmly s s' ∧
      (state.isOk = true → s'.documents.hasDoc (kbNodeDocName kbId nodeId) = true))
    · exact Ends.attempt ((ends_stateOf _).mono (fun _ _ hs' => ⟨hs'.1, fun _ => hs'.2⟩) fun _ hcalm e =>
        ⟨hcalm, fun hok => (nomatch hok)⟩)
    rintro state s1 ⟨hcalm, hdoc⟩
    have hs1 := hs.calm hcalm
    rw [← hcalm.books] at hfree hrest
    cases state with
    | error e => exact ih hs1 hnodup hrest
    | ok state =>
      refine (hs1.ends_joinDoc hfree (.inl (hdoc rfl))).bind fun _ s2 hs2 => ?_
      refine (ih hs2.1 hnodup fun other hother hholds => ?_).bind fun rest s3 hs3 => ?_
      · rw [hs2.2] at hholds
        refine hrest other hother (holds_of_revise_insert hholds fun heq => ?_)
        exact hnew (kbNodeDocName_injective kbId heq ▸ hother)
      · split
        · exact ends_pure hs3
        · exact ends_pure hs3

lemma ends_handleKbJoin (houtside : TalliedMethod h s who params .kbJoin) :
    (handleKbJoin h who params).Keeps s (Present who) := by
  refine ends_ofOption_bind hs fun kbId hkb => ?_
  refine hs.after (calm_forwardPending _) (refl s) fun _ _ hcalm => ?_
  refine hs.after (calm_settleJoin _) hcalm fun status s1 hcalm => ?_
  have hs1 := hs.calm hcalm
  obtain ⟨hfree, hnodes⟩ := (houtside kbId hkb).calm hcalm
  cases status with
  | pending => exact ends_pure hs1
  | joined =>
    refine (hs1.fails (ends_stateOf _)).mapError.bind ?_
    rintro state s2 ⟨hcalm, hdoc⟩
    rw [← hcalm.books] at hfree hnodes
    refine ((hs1.calm hcalm).ends_joinDoc hfree (.inl hdoc)).bind fun _ s3 hs3 => ?_
    refine hs3.1.after (calm_addEventSub _) (refl s3) fun _ s4 hcalm => ?_
    refine ((hs3.1.calm hcalm).ends_joinNodes _ (Root.nodup_listNodes _) fun nodeId _ hholds => ?_).bind fun _ _ hs' => ?_
    · rw [hcalm.books, hs3.2] at hholds
      exact hnodes nodeId (holds_of_revise_insert hholds (kbNodeDocName_ne_collectionDocName kbId nodeId kbId))
    · exact ends_pure hs'

lemma ends_handleKbLeave (houtside : TalliedMethod h s who params .kbLeave) :
    (handleKbLeave h who params).Keeps s (Present who) := by
  refine ends_ofOption_bind hs fun kbId hkb => ?_
  refine hs.after (calms.moves_stateOf _).attempt (refl s) fun state s1 hcalm => ?_
  have hs1 := hs.calm hcalm
  obtain ⟨hfree, hnodes⟩ := (houtside kbId hkb).calm hcalm
  apply Ends.bind (Q := fun _ => Calmly s1)
  · exact calmly_removeSessionDoc hfree
  intro _ s2 hcalm
  refine hs1.after (calm_unsubscribeDoc _) hcalm fun _ s3 hcalm => ?_
  apply Ends.bind
  · refine ends_each hcalm fun nodeId _ t ht => ends_look_bind (ends_when (fun hknown => ?_) fun _ => ht)
    exact absurd (hasSessionDoc_iff.mp hknown) fun hholds => hnodes nodeId (ht.books ▸ hholds)
  · intro _ s4 hcalm
    exact ends_pure (hs1.calm hcalm)

lemma ends_putNodes {nodes : List (SharedNode Y)} (hnodup : (sharedNames kbId nodes).Nodup)
    (hused : ∀ name ∈ sharedNames kbId nodes, 0 < s.attached name ∧ ¬ s.books.Holds who.id name) :
    (putNodes h who kbId nodes).Keeps s (Present who) := by
  induction nodes generalizing s with
  | nil => exact ends_answer hs
  | cons node nodes ih =>
    have hput : (putNode h who kbId node).Ends s (fun _ s' => Present who s' ∧ (sharedNames kbId nodes).Nodup ∧
        ∀ name ∈ sharedNames kbId nodes, 0 < s'.attached name ∧ ¬ s'.books.Holds who.id name) (Present who) := by
      rw [sharedNames, filterMap_cons] at hnodup hused
      rw [putNode]
      split
      · next nodeId u hid hstate =>
        simp only [hid, hstate] at hnodup hused
        obtain ⟨hnew, hnodup⟩ := nodup_cons.mp hnodup
        obtain ⟨⟨hpos, hfree⟩, hused⟩ := forall_mem_cons.mp hused
        apply Ends.bind (Q := fun _ s' => Calmly s s' ∧ s'.documents.hasDoc (kbNodeDocName kbId nodeId) = true)
        · refine ends_change ?_
          simp only [hs.hasDoc hpos, if_true]
          exact ⟨⟨count_applyUpdate h.toEnv _ u, rfl, retains_applyUpdate h.toEnv _ u⟩,
            hasDoc_applyUpdate h.toEnv _ u s.documents⟩
        rintro _ s1 ⟨hcalm, hdoc⟩
        obtain ⟨ks, hks⟩ := hs.book
        refine ((hs.calm hcalm).ends_joinDoc (hcalm.books ▸ hfree) (.inl hdoc)).bind fun _ s2 hs2 => ?_
        obtain ⟨hs2, hbooks⟩ := hs2
        rw [hcalm.books] at hbooks
        refine ends_pure ⟨hs2, hnodup, fun name hname => ?_⟩
        have hother : name ≠ kbNodeDocName kbId nodeId := fun heq => hnew (heq ▸ hname)
        rw [Server.attached, hbooks, hs.kept.holders_insert hks hfree, if_neg hother]
        exact ⟨(hused name hname).1, fun hholds => (hused name hname).2 (holds_of_revise_insert hholds hother)⟩
      · next hnone =>
        have hskip : (match node.id, node.state with
            | some nodeId, some (.update _) => some (kbNodeDocName kbId nodeId)
            | _, _ => none) = none := by
          split
          · next nodeId u hid hstate => exact (hnone nodeId u hid hstate).elim
          · rfl
        rw [hskip] at hnodup hused
        exact ends_answer ⟨hs, hnodup, hused⟩
    refine hput.bind fun count s1 hs1 => ?_
    refine (ih hs1.1 hs1.2.1 hs1.2.2).bind fun _ _ hs' => ?_
    exact ends_pure hs'

lemma ends_serveKbShare (hshare : TalliedMethod h s who params .kbShare) :
    (serveKbShare h who params).Keeps s (Present who) := by
  refine ends_ofOption_bind hs fun kbId hkb => ?_
  obtain ⟨houtside, hcoll, hnodup, hused⟩ := hshare kbId hkb
  refine hs.after (calm_collectionPayload _) (refl s) fun payload s1 hcalm => ?_
  have hs1 := hs.calm hcalm
  obtain ⟨hfree, hnodes⟩ := houtside.calm hcalm
  replace hcoll : 0 < s1.attached (collectionDocName kbId) := hcalm.attached _ ▸ hcoll
  replace hused : ∀ name ∈ sharedNames kbId (ShareRequest.ofParams h who params).nodes, 0 < s1.attached name :=
    fun name hname => hcalm.attached name ▸ hused name hname
  apply Ends.bind
  · exact hs1.fails (keeps_of_state (calmly_shareCollection (hs1.hasDoc hcoll) _ _))
  intro _ s2 hcalm
  have hs2 := hs1.calm hcalm
  have hdoc := hs2.hasDoc (hcalm.attached (collectionDocName kbId) ▸ hcoll)
  rw [← hcalm.books] at hfree
  refine (hs2.ends_joinDoc hfree (.inl hdoc)).bind fun _ s3 hs3 => ?_
  obtain ⟨hs3, hbooks⟩ := hs3
  refine hs3.after (calm_announceTransport _ _) (refl s3) fun _ s4 hcalm4 => ?_
  refine (ends_putNodes (hs3.calm hcalm4) hnodup fun name hname => ?_).bind fun _ s5 hs5 => ?_
  · obtain ⟨nodeId, rfl⟩ := exists_of_mem_sharedNames hname
    have hother := kbNodeDocName_ne_collectionDocName kbId nodeId kbId
    obtain ⟨ks, hks⟩ := hs2.book
    rw [hcalm4.attached, hcalm4.books, Server.attached, hbooks, hs2.kept.holders_insert hks hfree]
    refine ⟨hcalm.books ▸ hused _ hname, fun hholds => hnodes nodeId ?_⟩
    exact hcalm.books ▸ holds_of_revise_insert hholds hother
  · exact hs5.keeps ((calm_metas _).bind fun _ => (calms.moves_stateOf _).attempt.reply)

lemma ends_handleMethod {request : JsonRpcRequest} {method : Method}
    (htallied : TalliedMethod h s who request.params method) :
    (handleMethod h who request method).Keeps s (Present who) := by
  cases method with
  | syncUpdate => exact hs.ends_handleSyncUpdate htallied
  | syncFullState => exact hs.ends_handleSyncFullState htallied
  | syncResync => exact hs.ends_handleSyncResync htallied
  | syncAwareness => exact hs.ends_handleSyncAwareness htallied
  | syncShare => exact hs.ends_handleSyncShare htallied
  | docsDelete => exact hs.ends_handleDocsDelete htallied
  | kbRegister => exact hs.ends_handleKbRegister htallied
  | kbUnregister => exact hs.ends_handleKbUnregister htallied
  | kbShare => exact hs.ends_serveKbShare htallied
  | kbJoin => exact hs.ends_handleKbJoin htallied
  | kbLeave => exact hs.ends_handleKbLeave htallied
  | kbNodeFetch => exact hs.ends_handleKbNodeFetch
  | kbNodeUpdate => exact hs.ends_serveKbNodeUpdate htallied
  | syncStateVector => exact hs.keeps calms.moves_handleSyncStateVector
  | syncDiff => exact hs.keeps calms.moves_handleSyncDiff
  | docsList | debugStats => exact hs.keeps ((moves_look _).reply)
  | docsContent | docsStats | docsMetadata => exact hs.keeps calms.moves_handleDocsRead
  | docsSaveIntent => exact hs.keeps calms.moves_handleDocsSaveIntent
  | docsSaveCommitted => exact hs.keeps calms.moves_handleDocsSaveCommitted
  | kbList => exact hs.keeps calm_handleKbList
  | kbCollectionOp => exact hs.keeps calm_handleKbCollectionOp
  | kbClaimLease => exact hs.keeps calm_handleKbClaimLease
  | kbFetchArtifact => exact hs.keeps (calms.moves_handleKbFetchArtifact fun _ _ => trivial)
  | kbAddMember => exact hs.keeps calm_handleKbAddMember
  | kbRemoveMember => exact hs.keeps calm_handleKbRemoveMember
  | kbCollectionNodeAdd => exact hs.keeps calm_handleKbCollectionNodeAdd
  | kbCollectionNodeRemove => exact hs.keeps calm_handleKbCollectionNodeRemove
  | kbSetPolicy => exact hs.keeps calm_handleKbSetPolicy
  | kbBlockPrincipal | kbUnblockPrincipal => exact hs.keeps (moves_handleKbBlockUnblockPrincipal _)
  | kbBlocklist => exact ends_answer hs
  | kbSetGovernance => exact hs.keeps calm_handleKbSetGovernance
  | kbRevoke => exact hs.keeps calm_handleKbRevoke
  | kbListPending => exact hs.keeps (calms.moves_handleKbListPending fun _ _ => trivial)
  | kbApproveMember => exact hs.keeps calm_handleKbApproveMember
  | kbQueryCapabilities | kbQueryGet | kbQuerySearch | kbQueryGraph | kbQueryMyWrappedKey =>
    exact hs.keeps (calms.moves_handleKbQuery (fun _ _ => trivial) _)
  | kbQuerySelfToken => exact hs.keeps moves_handleKbQuerySelfToken

lemma ends_handleMessage {msg : String} (htallied : TalliedMessage h s who msg) :
    (handleMessage h who msg).Keeps s (Present who) := by
  rw [handleMessage]
  split_ifs with hnotification
  · refine Keeps.reply ?_
    rw [handleDocNotificationInner]
    split
    · exact ends_answer hs
    · next val hval =>
      split_ifs with hmethod
      · have hholds := htallied.notification val (Bool.and_eq_true_iff.mp hnotification).2 hval hmethod
        exact (hs.ends_handleSyncAwareness hholds).reply
      · exact ends_answer hs
  · refine Keeps.reply (ends_handleDocRequestInner hs ?_)
    intro request method hrequest _ hmethod _
    exact hs.ends_handleMethod (htallied.method request method hrequest hmethod)
  · exact hs.keeps ((calm_handleRequest msg).reply)

end Present

namespace Server

section Runs

variable {h : Host Y} {s : Server Y} {name : String}

lemma Counted.connect (hs : s.Counted) {caller : Peer} (hnew : s.find caller.id = none) :
    Counted { s with clients := s.clients ++ [⟨caller, [], [], [], []⟩] } where
  kept := by
    rw [books, map_append]
    refine hs.kept.opened fun hmem => ?_
    obtain ⟨b, hb, hid⟩ := List.mem_map.mp hmem
    obtain ⟨c, hc, rfl⟩ := List.mem_map.mp hb
    exact find?_eq_none.mp hnew c hc (decide_eq_true hid)
  exact := by
    funext other
    rw [hs.exact, attached, attached, books, books, holders, holders]
    simp [Client.book]

lemma count_disconnects (env : Env Y) {names : List String} {docs : Documents Y} (hnodup : names.Nodup)
    (hpos : ∀ name ∈ names, 0 < docs.count name) (other : String) :
    (names.foldl (fun docs name => docs.trackClientDisconnect env name) docs).count other =
      docs.count other - if other ∈ names then 1 else 0 := by
  induction names generalizing docs with
  | nil => simp
  | cons name names ih =>
    obtain ⟨hnew, hnodup⟩ := nodup_cons.mp hnodup
    obtain ⟨hname, hpos⟩ := forall_mem_cons.mp hpos
    have hcount := count_countClients env (.inl (hasDoc_of_count hname)) (· - 1)
    have hrest : ∀ n ∈ names, 0 < (docs.trackClientDisconnect env name).count n := by
      intro n hn
      have hother : n ≠ name := fun heq => hnew (heq ▸ hn)
      rw [trackClientDisconnect, hcount, if_neg hother]
      exact hpos n hn
    rw [foldl_cons, ih hnodup hrest, trackClientDisconnect, hcount]
    by_cases hother : other = name
    · simp [hother, hnew]
    · simp [hother]

lemma Counted.disconnect (hs : s.Counted) {c : Client} (hc : c ∈ s.clients) : (s.disconnect h c).Counted := by
  have hbook : (c.id, c.sessionDocs) ∈ s.books := List.mem_map_of_mem hc
  have hbooks : (s.disconnect h c).books = s.books.close c.id := by
    rw [close, books, books, List.filter_map]
    rfl
  refine ⟨hbooks ▸ hs.kept.close c.id, funext fun other => ?_⟩
  have hpos : ∀ name ∈ c.sessionDocs, 0 < s.documents.count name := by
    intro name hname
    rw [hs.exact]
    exact holders_pos.mpr ⟨c.id, c.sessionDocs, hbook, hname⟩
  have hnodup : c.sessionDocs.Nodup := hs.kept.entries _ hbook
  have hcount := count_disconnects h.toEnv hnodup hpos other
  have hholders := hs.kept.holders_close hbook other
  rw [attached, hbooks]
  change (c.sessionDocs.foldl (fun docs name => docs.trackClientDisconnect h.toEnv name) s.documents).count other = _
  rw [hcount, hs.exact, attached]
  omega

lemma count_evictIdle (docs : Documents Y) (victim other : String) :
    (docs.evictIdle victim).count other = docs.count other := by
  have hforget : ∀ e, docs.docs victim = some e → e.connectedClients = 0 → (docs.forget victim).count other = docs.count other := by
    intro e he hzero
    rw [count_forget]
    split
    · next heq => rw [heq, Documents.count, he, elim_some, hzero]
    · rfl
  rw [Documents.evictIdle]
  split
  · next e he =>
    split_ifs with hzero
    · exact hforget e he hzero
    · exact hforget e he hzero
    · rfl
  · rfl

lemma Counted.step (hs : s.Counted) {ev : SessionEvent} (htallied : Tallied h s ev) : (s.step h ev).Counted := by
  cases ev with
  | connect caller =>
    rw [Server.step]
    split_ifs with hknown
    · exact hs
    · exact hs.connect (not_isSome_iff_eq_none.mp hknown)
  | message id text =>
    rw [Server.step]
    split
    · next c hfind =>
      have hbook : (c.id, c.sessionDocs) ∈ s.books := List.mem_map_of_mem (mem_of_find hfind).1
      have hpresent : Present c.toPeer s := { hs with book := ⟨c.sessionDocs, hbook⟩ }
      exact (hpresent.ends_handleMessage (htallied c hfind)).state.toCounted
    · exact hs
  | disconnect id =>
    rw [Server.step]
    cases hfind : s.find id with
    | none => exact hs
    | some c => exact hs.disconnect (mem_of_find hfind).1
  | evictIdle name =>
    refine ⟨hs.kept, funext fun other => ?_⟩
    exact (count_evictIdle s.documents name other).trans (congrFun hs.exact other)
  | restart =>
    exact ⟨⟨nodup_nil, fun _ hb => by cases hb⟩, rfl⟩

def run (s : Server Y) (evs : List (Host Y × SessionEvent)) : Server Y := evs.foldl (fun s e => s.step e.1 e.2) s

lemma Counted.run (hs : s.Counted) {evs : List (Host Y × SessionEvent)} (htallied : TalliedRun s evs) :
    (s.run evs).Counted := by
  induction evs generalizing s with
  | nil => exact hs
  | cons e evs ih => exact ih (hs.step htallied.1) htallied.2

section Evictions

variable {docs : Documents Y} (hpos : 0 < docs.count name)
include hpos

lemma ne_of_count {victim : String} {e : DocEntry Y} (he : docs.docs victim = some e) (hzero : e.connectedClients = 0) :
    name ≠ victim := by
  rintro rfl
  rw [Documents.count, he, elim_some, hzero] at hpos
  exact absurd hpos (Nat.lt_irrefl 0)

lemma sameAt_evictIdle (victim : String) : docs.SameAt name (docs.evictIdle victim) := by
  rw [Documents.evictIdle]
  split
  · next e he =>
    split_ifs with hzero hdurable
    · have hother := ne_of_count hpos he hzero
      simp [SameAt, hother]
    · have hother := ne_of_count hpos he hzero
      simp [SameAt, hother]
    · exact ⟨rfl, rfl⟩
  · exact ⟨rfl, rfl⟩

lemma sameAt_makeRoom (env : Env Y) : docs.SameAt name (docs.makeRoom env) := by
  refine ⟨?_, congrFun (storage_makeRoom env docs) name⟩
  obtain h | ⟨victim, e, he, hzero, h⟩ := makeRoom_cases env docs
  · rw [h]
  · simp [h, ne_of_count hpos he hzero]

end Evictions

end Runs

theorem client_counts_exact (storage : String → Option Y.Doc) (evs : List (Host Y × SessionEvent))
    (htallied : TalliedRun (start storage) evs) : ((start storage).run evs).ClientsExact := by
  have hstart : (start storage).Counted := ⟨⟨nodup_nil, fun _ hb => (nomatch hb)⟩, rfl⟩
  have hs := hstart.run htallied
  have hcount : ∀ name, 0 < ((start storage).run evs).attached name → 0 < ((start storage).run evs).documents.count name :=
    fun name hpos => hs.exact ▸ hpos
  exact {
    counts := congrFun hs.exact
    inMemory := fun name hpos => hs.hasDoc hpos
    evictIdle := fun name hpos victim => sameAt_evictIdle (hcount name hpos) victim
    makeRoom := fun name hpos env => sameAt_makeRoom (hcount name hpos) env }

end Server

def sampleTally (evs : List SessionEvent) (name : String) : ℕ × ℕ :=
  let s := (Server.start (fun _ => none) : Server .sample).run (sampleSessions evs)
  (s.attached name, s.documents.count name)

lemma talliedMessage_of_fullState {h : Host Y} {s : Server Y} {who : Peer} {msg : String} (name : String)
    (hrequest : (JsonRpcRequest.ofText msg).map (fun r => (r.method, docParam r.params)) = some ("sync/full_state", name))
    (hname : isDurableDoc name = false) (hnotification : isNotification msg = false) : TalliedMessage h s who msg := by
  constructor
  · intro val hyes
    rw [hnotification] at hyes
    cases hyes
  · intro request method hparsed hmethod
    rw [hparsed] at hrequest
    obtain ⟨htext, hdoc⟩ := Prod.mk.inj (some.inj hrequest)
    rw [htext] at hmethod
    rw [← some.inj hmethod]
    exact .inr (.inr (hdoc ▸ hname))

def sampleFullState : String := "[\"2.0\", 1, \"sync/full_state\", \x7b\x7d]"

def sampleVisits : List SessionEvent :=
  [.connect (sampleCaller 1 "alice"), .connect (sampleCaller 2 "bob"), .message 1 sampleFullState,
    .message 2 sampleFullState, .disconnect 1]

theorem client_counts_of_visits : sampleTally sampleVisits "default" = (1, 1) ∧
      ((Server.start (fun _ => none) : Server .sample).run (sampleSessions sampleVisits)).ClientsExact := by
  refine ⟨by decide +kernel, Server.client_counts_exact _ (sampleSessions sampleVisits) ?_⟩
  have hmessage : ∀ (s : Server .sample) (who : Peer), TalliedMessage sampleHost s who sampleFullState := fun _ _ =>
    talliedMessage_of_fullState "default" (by decide +kernel) (by decide +kernel) (by decide +kernel)
  exact ⟨trivial, trivial, fun c _ => hmessage _ c.toPeer, fun c _ => hmessage _ c.toPeer, trivial, trivial⟩

def sampleCursor : String := "\x7b\"method\": \"sync/awareness\"\x7d"

def sampleWrite : String := "[\"2.0\", 1, \"sync/update\", \x7b\"doc\": \"default\", \"update\": \"\"\x7d]"

def sampleShareKb : String := "[\"2.0\", 1, \"kb/share\", \x7b\"kb_id\": \"k\", \"collection_state\": \"\"\x7d]"

def sampleShareDoc : String := "[\"2.0\", 1, \"sync/share\", \x7b\"update\": \"\"\x7d]"

def sampleLoses (evs : List SessionEvent) (name : String) : Bool :=
  let s := (Server.start (fun _ => none) : Server .sample).run (sampleSessions evs)
  (s.documents.storage name).isSome && ((s.documents.evictIdle name).storage name).isNone

theorem client_counts_go_wrong :
    (sampleTally [.connect (sampleCaller 1 "alice"), .message 1 sampleCursor, .message 1 sampleWrite] "default" = (1, 0) ∧
        sampleLoses [.connect (sampleCaller 1 "alice"), .message 1 sampleCursor, .message 1 sampleWrite] "default" = true) ∧
      sampleTally [.connect (sampleCaller 1 "alice"), .message 1 sampleShareKb] "kbc:k" = (1, 2) ∧
      sampleTally [.connect (sampleCaller 1 "alice"), .message 1 sampleShareKb, .disconnect 1] "kbc:k" = (0, 1) ∧
      sampleTally [.connect (sampleCaller 1 "alice"), .connect (sampleCaller 2 "bob"), .message 1 sampleShareDoc,
        .message 2 sampleShareDoc] "default" = (2, 1) := by
  refine ⟨⟨?_, ?_⟩, ?_, ?_, ?_⟩
  · decide +kernel
  · decide +kernel
  · decide +kernel
  · decide +kernel
  · decide +kernel

end Mae.Daemon
