import Mae.Daemon.FeedHandlers

/-! What reading and writing nodes, sharing, joining and leaving a KB do to the live feed. -/

namespace Mae.Daemon

open Library Handler Sync Sync.Membership Function Option Feeding Root

variable {Y : Yrs}

namespace Steady

variable {h : Host Y} {I : Server Y → Prop} {s : Server Y} {who : Peer} {name kbId principal : String} (hI : Steady h I)
  (hs : I s)
include hI hs

lemma ends_loadStored (hkb : kbId ≠ "") {coll : Y.Doc} {E : Server Y → Prop} {ε : Type}
    (hcoll : s.documents.storage (collectionDocName kbId) = some coll) :
    (attempt (loadedCollection h kbId) : Handler _ ε _).Ends s (fun r s' => r = .ok coll ∧ I s') E := by
  obtain ⟨hsound, hstorage, hload⟩ := (hI.settled s hs).loadCollection hkb
  rw [hcoll] at hload
  apply Ends.attempt
  rw [Ends, loadedCollection, onDocuments, hload]
  exact ⟨rfl, hI.quiet s _ hs hsound hstorage⟩

lemma ends_stateOfAuthorized (hname : ∀ kbId, name ≠ collectionDocName kbId) :
    (stateOfAuthorized h name).Keeps s I := by
  refine Ends.mono (hI.ends_onDocuments hs ?_ ?_) (fun _ _ h => h.1) fun _ h => h
  · exact (hI.settled s hs).toSound.getOrCreate h.toEnv true name (.inr hname)
  · exact Documents.storage_getOrCreate h.toEnv true name s.documents

lemma ends_accessWithColl (hkb : kbId ≠ "") (hp : who.principal = some principal) (op : KbOp) {loaded : Option Y.Doc}
    (hloaded : ∀ coll, loaded = some coll → s.documents.storage (collectionDocName kbId) = some coll) :
    (accessWithColl h who kbId op loaded).Ends s
      (fun d s' => I s' ∧ Documents.decision h.toEnv s.documents.storage kbId principal op who.transport = .ok d)
      I := by
  rw [accessWithColl.eq_def, hp]
  cases loaded with
  | some coll =>
    refine ends_answer ⟨hs, ?_⟩
    rw [Documents.decision, hloaded coll rfl]
  | none => exact hI.ends_access hs hkb hp op

end Steady

variable {h : Host Y} {callers : List Peer} {old : List (Delivery Y)} {s : Server Y} {who : Peer}
  {kbId principal name : String} {params : Json}

section Nodes

abbrev ReadingOn (h : Host Y) (callers : List Peer) (old : List (Delivery Y)) (kbId : String) (who : Peer) :
    Server Y → Prop :=
  FeedingOn h callers old fun storage => Reads storage kbId who

lemma Feeding.writeAway {docs : Documents Y} {d : Option Y.Doc} (hs : Feeding h callers old s) (hsound : docs.Sound)
    (hstorage : docs.storage = Function.update s.documents.storage name d)
    (hname : ∀ kbId, kbId ≠ "" → name ≠ collectionDocName kbId) :
    Feeding h callers old { s with documents := docs } := by
  apply hs.of_collections hsound
  intro kbId hkb
  rw [hstorage, update_of_ne (hname kbId hkb).symm]

section

variable (hs : ReadingOn h callers old kbId who s)
include hs

lemma FeedingOn.writeAway {docs : Documents Y} {d : Y.Doc} (hsound : docs.Sound)
    (hstorage : docs.storage = Function.update s.documents.storage name (some d))
    (hname : ∀ kbId, name ≠ collectionDocName kbId) :
    ReadingOn h callers old kbId who { s with documents := docs } := by
  obtain ⟨hs, coll, principal, hcoll, hreads⟩ := hs
  refine ⟨hs.writeAway hsound hstorage fun kbId _ => hname kbId, coll, principal, ?_, hreads⟩
  rw [hstorage, update_of_ne (hname kbId).symm, hcoll]

lemma ends_applyAway (hname : ∀ kbId, name ≠ collectionDocName kbId) (bytes : Bytes) :
    (applyBytes h name bytes).Keeps s (ReadingOn h callers old kbId who) := by
  rw [applyBytes]
  split
  · exact ends_fail hs
  · next u _ => exact hs.writeAway (hs.1.sound.applyUpdate h.toEnv name u) (Documents.storage_applyUpdate ..) hname

lemma ends_shareAway (hname : ∀ kbId, name ≠ collectionDocName kbId) (bytes : Bytes) :
    (shareBytes h name bytes).Keeps s (ReadingOn h callers old kbId who) := by
  rw [shareBytes]
  split
  · exact ends_fail hs
  · next u _ => exact hs.writeAway (hs.1.sound.shareDoc h.toEnv name u) (Documents.storage_shareDoc ..) hname

end

variable (hanchor : ∀ kbId, h.anchor kbId = none) (hwho : ∀ c ∈ callers, c.id = who.id → c = who)
  (hp : who.principal = some principal) (hparams : NamesKb params)
include hanchor hwho hp hparams

lemma ends_handleKbNodeFetch (hs : Feeding h callers old s) :
    (handleKbNodeFetch h who params).Keeps s (Feeding h callers old) := by
  refine ends_ofOption_bind hs fun kbId hkb => ends_ofOption_bind hs fun nodeId _ => ?_
  have hI := hs.steadyOn hanchor
  apply ends_forget
  apply (hI.ends_requireRead ⟨hs, rfl⟩ (hparams.ne_empty hkb) hp).bind
  rintro _ s1 ⟨hs1, d, hd, hdecision⟩
  -- reading does not make anyone a member
  have hreads : Reads s.documents.storage kbId who := by
    rcases hd with rfl | rfl
    · exact reads_of_decision hanchor hp hdecision
    · rw [Documents.decision] at hdecision
      split at hdecision
      · exact absurd (Except.ok.inj hdecision) (accessOn_read_ne_autoJoin (hanchor kbId))
      · cases hdecision
  apply ((hI.reading.moves_requireNodeInKb (hparams.ne_empty hkb) nodeId none).keeps hs1).bind
  intro _ s2 hs2
  apply (hI.ends_stateOfAuthorized hs2 (kbNodeDocName_ne_collectionDocName kbId nodeId)).mapError.bind
  intro state s3 hs3
  apply (ends_interaction hanchor hwho hs3 fun _ heq => heq ▸ mayRead_node (hparams kbId hkb) hreads nodeId).bind
  exact fun _ _ hs4 => ends_pure hs4.1

lemma ends_serveKbNodeUpdate (hs : Feeding h callers old s) :
    (serveKbNodeUpdate h who params).Keeps s (Feeding h callers old) := by
  refine ends_ofOption_bind hs fun kbId hkb => ends_ofOption_bind hs fun nodeId _ => ?_
  refine Steady.ends_bytesParam_bind hs fun bytes => ends_check_bind hs fun _ => ?_
  have hne := hparams.ne_empty hkb
  have hI := hs.steadyOn hanchor
  apply Ends.bind (Q := fun r s' => FeedingOn h callers old (· = s.documents.storage) s' ∧
    ∀ coll, r.toOption = some coll → s.documents.storage (collectionDocName kbId) = some coll)
  · apply Ends.attempt
    apply (hI.ends_loadedCollection ⟨hs, rfl⟩ hne).mono
    · rintro coll s' ⟨hs', hcoll⟩
      refine ⟨hs', fun coll' hcoll' => ?_⟩
      cases hcoll'
      exact hcoll
    · intro s' hs' e
      exact ⟨hs', fun _ hcoll => nomatch hcoll⟩
  rintro loaded s1 ⟨hs1, hloaded⟩
  apply Ends.bind (Q := fun d s' => FeedingOn h callers old (· = s.documents.storage) s' ∧ ∃ op,
    Documents.decision h.toEnv s.documents.storage kbId principal op who.transport = .ok d)
  · apply Ends.mapError
    refine (hI.ends_accessWithColl hs1 hne hp _ fun coll hcoll => ?_).mono ?_ fun _ h => h.1
    · rw [hs1.2]
      exact hloaded coll hcoll
    · rintro d s' ⟨hs', hd⟩
      exact ⟨hs', _, hs1.2 ▸ hd⟩
  rintro decision s2 ⟨hs2, op, hdecision⟩
  apply Ends.bind (Q := fun _ => ReadingOn h callers old kbId who)
  · cases decision with
    | allow => exact ⟨hs2.1, hs2.2 ▸ reads_of_decision hanchor hp hdecision⟩
    | deny message => exact hs2.1
    | allowAutoJoin => exact hs2.1
    | pending => exact hs2.1
  intro _ s3 hs3
  have hJ : Steady h (ReadingOn h callers old kbId who) := steady_feedingOn hanchor
  have hname : ∀ kb, kbNodeDocName kbId nodeId ≠ collectionDocName kb := kbNodeDocName_ne_collectionDocName kbId nodeId
  apply ends_forget
  apply ((hJ.reading.moves_nodeUpdateHeader hne bytes _).keeps hs3).bind
  intro header s4 hs4
  rw [hp]
  refine Keeps.bind (((Moves.mapError ?_ _).when _).keeps hs4) fun _ s5 hs5 => ?_
  · exact hJ.reading.moves_enforceEpochFenceOn hne nodeId _ bytes principal _
  apply (ends_interaction hanchor hwho hs5 fun _ hreads => mayRead_node (hparams kbId hkb) hreads nodeId).bind
  intro _ s6 hs6
  apply (((hJ.reading.moves_gateRebirthOn hne nodeId bytes _).when _).keeps hs6).bind
  intro _ s7 hs7
  refine Keeps.bind (Ends.mapError ?_) fun u s8 hs8 => ?_
  · split_ifs
    · exact ends_shareAway hs7 hname bytes
    · exact ends_applyAway hs7 hname bytes
  exact (hJ.ends_broadcastExcept hs8 _).bind fun _ _ hs9 => ends_pure hs9.1

end Nodes

section Joining

section Requests

variable (hanchor : ∀ kbId, h.anchor kbId = none)
include hanchor

lemma ends_addForwarded (hkb : kbId ≠ "") (requests : List (String × Json)) {coll : Y.Doc}
    (hs : Holds h callers old kbId coll s) :
    (addForwarded h who kbId coll requests).Keeps s (Feeding h callers old) := by
  induction requests generalizing s coll with
  | nil => exact ends_answer hs.1
  | cons request requests ih =>
    apply (ends_writeCollection hanchor hs hkb (retains_addPending _ _ _ _ _ _)).bind
    exact fun coll' s1 hs1 => ih hs1.1

variable (hs : Feeding h callers old s) (hkb : kbId ≠ "")
include hs hkb

lemma ends_forwardPending (params : Json) : (forwardPending h who kbId params).Keeps s (Feeding h callers old) := by
  refine ends_when (fun _ => ?_) fun _ => hs
  refine Ends.bind (Q := fun r s' => Feeding h callers old s' ∧ ∀ coll, r = .ok coll → Holds h callers old kbId coll s')
    (Ends.attempt ?_) fun r s1 ⟨hs1, hcoll⟩ => ?_
  · apply (ends_holdCollection hanchor hs hkb).mono
    · rintro coll s' hs'
      refine ⟨hs'.1, fun coll' hcoll' => ?_⟩
      cases hcoll'
      exact hs'
    · exact fun s' hs' e => ⟨hs', fun _ hcoll => nomatch hcoll⟩
  · cases r with
    | error e => exact ends_answer hs1
    | ok coll => exact ends_addForwarded hanchor hkb _ (hcoll coll rfl)

lemma ends_writeForCaller (hp : who.principal = some principal) {coll : Y.Doc}
    (hcoll : s.documents.storage (collectionDocName kbId) = some coll) {writes : String → String → Root → List Write}
    (hretains : Retains (Connected callers) (Y.root coll) ((Y.root coll).writes (writes principal (who.label.getD
      principal) (Y.root coll)))) :
    (writeForCaller h who kbId writes).Ends s
      (fun _ s' => Feeding h callers old s' ∧ ∃ coll', s'.documents.storage (collectionDocName kbId) = some coll' ∧
        Y.root coll' = (Y.root coll).writes (writes principal (who.label.getD principal) (Y.root coll)))
      (Feeding h callers old) := by
  have hI := hs.steadyOn hanchor
  rw [writeForCaller, hp]
  apply (hI.ends_loadStored ⟨hs, rfl⟩ hkb hcoll).bind
  rintro r s1 ⟨rfl, hs1, hstorage⟩
  apply (ends_writeCollection hanchor ⟨hs1, hstorage ▸ hcoll⟩ hkb hretains).bind
  rintro coll' s2 ⟨hs2, hroot⟩
  exact ends_pure ⟨hs2.1, coll', hs2.2, hroot⟩

lemma ends_settleJoin (hp : who.principal = some principal) (params : Json) : (settleJoin h who kbId params).Ends s
      (fun status s' => Feeding h callers old s' ∧ (status = .joined → Reads s'.documents.storage kbId who))
      (Feeding h callers old) := by
  have hI := hs.steadyOn hanchor
  apply Ends.bind
  · exact (Ends.mapError (hI.ends_access ⟨hs, rfl⟩ hkb hp .join)).mono (fun _ _ h => h) fun _ h => h.1
  rintro d s1 ⟨hs1, hd⟩
  have hstored : ∃ coll, s1.documents.storage (collectionDocName kbId) = some coll ∧
      accessOn h.toEnv kbId (Y.root coll) principal .join who.transport = d := by
    rw [Documents.decision] at hd
    rw [hs1.2]
    split at hd
    · next coll hcoll => exact ⟨coll, hcoll, Except.ok.inj hd⟩
    · cases hd
  obtain ⟨coll, hcoll, hd⟩ := hstored
  cases d with
  | allow => exact ends_pure ⟨hs1.1, fun _ => ⟨coll, principal, hcoll, hp, reads_of_allow (hanchor kbId) hd⟩⟩
  | allowAutoJoin =>
    obtain ⟨hrole, htransport⟩ := of_autoJoin (hanchor kbId) hd
    refine (ends_writeForCaller hanchor hs1.1 hkb hp hcoll ?_).bind ?_
    · exact retains_upsertMember _ _ _ _ _ fun _ => .inr (by simp [hrole])
    · rintro _ s2 ⟨hs2, coll', hcoll', hroot⟩
      refine ends_pure ⟨hs2, fun _ => ⟨coll', principal, hcoll', hp, ?_⟩⟩
      rw [hroot]
      exact reads_upsertMember _ _ _ _ _ htransport
  | pending =>
    refine (ends_writeForCaller hanchor hs1.1 hkb hp hcoll (retains_addPending _ _ _ _ _ _)).bind ?_
    exact fun _ s2 hs2 => ends_pure ⟨hs2.1, fun hjoined => by cases hjoined⟩
  | deny message => exact ends_fail hs1.1

end Requests

variable (hanchor : ∀ kbId, h.anchor kbId = none) (hwho : ∀ c ∈ callers, c.id = who.id → c = who)
include hanchor hwho

lemma ends_joinNodes (hkb : kbIdIsAddressable kbId = true) (svs : List (String × Bytes)) (nodeIds : List String)
    (hs : ReadingOn h callers old kbId who s) :
    (joinNodes h who kbId svs nodeIds).Keeps s (ReadingOn h callers old kbId who) := by
  have hI : Steady h (ReadingOn h callers old kbId who) := steady_feedingOn hanchor
  induction nodeIds generalizing s with
  | nil => exact ends_answer hs
  | cons nodeId nodeIds ih =>
    apply (hI.ends_stateOf hs _).attempt.bind
    intro state s1 hs1
    cases state with
    | error e => exact ih hs1
    | ok state =>
      apply (ends_joinDoc hanchor hwho hs1 fun _ hreads => mayRead_node hkb hreads nodeId).bind
      intro _ s2 hs2
      apply (ih hs2).bind
      intro rest s3 hs3
      split
      · exact ends_pure hs3
      · exact ends_pure hs3

lemma ends_joinCollection (hkb : kbId ≠ "") (hs : ReadingOn h callers old kbId who s) :
    (joinDoc h who (collectionDocName kbId)).Ends s (fun _ s' => ReadingOn h callers old kbId who s' ∧
      ∀ c ∈ s'.clients, c.id = who.id → c.docSubs ≠ []) (ReadingOn h callers old kbId who) := by
  refine (steady_feedingOn hanchor).ends_joinDoc hs _ fun s1 hs1 => ?_
  refine ends_change ⟨⟨hs1.1.subscribe hwho (mayRead_collection hkb hs1.2), hs1.2⟩, fun c' hc' hid => ?_⟩
  obtain ⟨c, hc, rfl⟩ := Server.mem_onClient hc'
  split_ifs at hid ⊢ with heq
  · exact List.ne_nil_of_mem List.mem_insert_self
  · exact absurd hid heq

lemma ends_handleKbJoin (hs : Feeding h callers old s) (hp : who.principal = some principal) (hparams : NamesKb params) :
    (handleKbJoin h who params).Keeps s (Feeding h callers old) := by
  refine ends_ofOption_bind hs fun kbId hkb => ?_
  have hne := hparams.ne_empty hkb
  apply (ends_forwardPending hanchor hs hne params).bind
  intro _ s1 hs1
  apply (ends_settleJoin hanchor hs1 hne hp params).bind
  rintro status s2 ⟨hs2, hjoined⟩
  cases status with
  | pending => exact ends_pure hs2
  | joined =>
    have hI : Steady h (ReadingOn h callers old kbId who) := steady_feedingOn hanchor
    apply ends_forget
    refine (hI.ends_stateOf ⟨hs2, hjoined rfl⟩ _).mapError.bind ?_
    intro state s3 hs3
    apply (ends_joinCollection hanchor hwho hne hs3).bind
    rintro _ s4 ⟨hs4, hsubscribed⟩
    refine Keeps.bind (ends_change ⟨hs4.1.listen (fun _ => ⟨rfl, rfl⟩) hsubscribed, hs4.2⟩) fun _ s5 hs5 => ?_
    exact (ends_joinNodes hanchor hwho (hparams kbId hkb) _ _ hs5).bind fun _ _ hs6 => ends_pure hs6.1

end Joining

def LeftWith (kbId name : String) : Prop := name = collectionDocName kbId ∨ ∃ nodeId, name = kbNodeDocName kbId nodeId

def StaysElsewhere (who : Peer) (kbId : String) (s : Server Y) : Prop :=
  ∀ c ∈ s.clients, c.id = who.id → c.Listens → ∃ name ∈ c.docSubs, ¬ LeftWith kbId name

lemma StaysElsewhere.onClient (hs : StaysElsewhere who kbId s) (id : ℕ) {f : Client → Client}
    (hcaller : ∀ c, (f c).toPeer = c.toPeer) (hevents : ∀ c, (f c).eventSubs = c.eventSubs)
    (hdocs : ∀ c, ∀ name ∈ c.docSubs, ¬ LeftWith kbId name → name ∈ (f c).docSubs) :
    StaysElsewhere who kbId (s.onClient id f) := by
  intro c' hc' hid hlistens
  obtain ⟨c, hc, rfl⟩ := Server.mem_onClient hc'
  split_ifs at hid hlistens ⊢ with heq
  · have hlistens' : c.Listens := by
      rw [Client.Listens, hevents] at hlistens
      exact hlistens
    obtain ⟨name, hname, hleft⟩ := hs c hc ((congrArg Peer.id (hcaller c)).symm.trans hid) hlistens'
    exact ⟨name, hdocs c name hname hleft, hleft⟩
  · exact hs c hc hid hlistens

def Leaving (h : Host Y) (callers : List Peer) (old : List (Delivery Y)) (who : Peer) (kbId : String) (s : Server Y) :
    Prop :=
  Feeding h callers old s ∧ StaysElsewhere who kbId s

lemma steady_leaving (hanchor : ∀ kbId, h.anchor kbId = none) : Steady h (Leaving h callers old who kbId) where
  settled s hs := hs.1.settled h.toEnv
  quiet s docs hs hsound hstorage := ⟨(steady hanchor).quiet s docs hs.1 hsound hstorage, hs.2⟩
  books s id f hf hs := by
    refine ⟨(steady hanchor).books s id f hf hs.1, ?_⟩
    apply hs.2.onClient id (fun c => (hf c).1) (fun c => (hf c).2.1)
    intro c name hname _
    rw [(hf c).2.2]
    exact hname
  metas s kbMetas hm hs := ⟨(steady hanchor).metas s kbMetas hm hs.1, hs.2⟩
  tells s event recipient hs := ⟨(steady hanchor).tells s event recipient hs.1, hs.2⟩

lemma ends_unsubscribeDoc (hs : Leaving h callers old who kbId s) (hname : LeftWith kbId name) :
    (unsubscribeDoc who name).Keeps s (Leaving h callers old who kbId) := by
  have hother : ∀ other, ¬ LeftWith kbId other → other ≠ name := fun other hleft heq => hleft (heq ▸ hname)
  refine ends_change ⟨hs.1.unsubscribe fun c hc hid hlistens => ?_, ?_⟩
  · obtain ⟨other, hmem, hleft⟩ := hs.2 c hc hid hlistens
    exact ⟨other, hmem, hother other hleft⟩
  · refine hs.2.onClient who.id (fun _ => rfl) (fun _ => rfl) fun c other hmem hleft => ?_
    exact List.mem_filter.mpr ⟨hmem, by simpa using hother other hleft⟩

lemma ends_handleKbLeave (hanchor : ∀ kbId, h.anchor kbId = none) (hs : Feeding h callers old s)
    (hstays : ∀ kbId, (params.field "kb_id").asStr = some kbId → StaysElsewhere who kbId s) :
    (handleKbLeave h who params).Keeps s (Feeding h callers old) := by
  refine ends_ofOption_bind hs fun kbId hkb => ?_
  have hI : Steady h (Leaving h callers old who kbId) := steady_leaving hanchor
  apply Ends.mono (E := Leaving h callers old who kbId) _ (fun _ _ h => h) fun _ h => h.1
  refine (hI.ends_stateOf ⟨hs, hstays kbId hkb⟩ _).attempt.bind ?_
  intro state s1 hs1
  apply (hI.ends_removeSessionDoc hs1 _).bind
  intro _ s2 hs2
  apply (ends_unsubscribeDoc hs2 (.inl rfl)).bind
  intro _ s3 hs3
  refine Keeps.bind (ends_each hs3 fun nodeId _ s4 hs4 => ?_) fun _ _ hs5 => ends_pure hs5.1
  refine ends_look_bind (ends_when (fun _ => ?_) fun _ => hs4)
  apply (hI.ends_removeSessionDoc hs4 _).bind
  exact fun _ s5 hs5 => ends_unsubscribeDoc hs5 (.inr ⟨nodeId, rfl⟩)

structure CarefulShare (storage : String → Option Y.Doc) (inMemory : Bool) (who : Peer) (kbId : String)
    (payload : Option (Payload Y)) : Prop where
  known : ∀ coll, storage (collectionDocName kbId) = some coll →
    inMemory = true ∧ Reads storage kbId who ∧ (Y.root coll).transportPolicyRaw.isSome
  fresh : ∀ u, storage (collectionDocName kbId) = none → payload = some (.update u) →
    (Y.root (Y.apply Y.blank u))["schema"]? = none ∨ 2 ≤ (Y.root (Y.apply Y.blank u)).schemaVersion

def Known (h : Host Y) (callers : List Peer) (old : List (Delivery Y)) (who : Peer) (kbId : String) : Server Y → Prop :=
  FeedingOn h callers old fun storage => Reads storage kbId who ∧
    ∃ coll, storage (collectionDocName kbId) = some coll ∧ (Y.root coll).transportPolicyRaw.isSome

def Alone (who : Peer) (kbId : String) (s : Server Y) : Prop :=
  ∀ c ∈ s.clients, ∀ name ∈ c.docSubs, kbOf name = some kbId → c.toPeer = who

structure Fresh (h : Host Y) (callers : List Peer) (old : List (Delivery Y)) (who : Peer) (principal kbId : String)
    (s : Server Y) : Prop where
  feeding : Feeding h callers old s
  owned : ∃ coll, s.documents.storage (collectionDocName kbId) = some coll ∧
    (Y.root coll).roleOf principal = some .owner
  alone : Alone who kbId s

lemma Alone.onClient (hs : Alone who kbId s) (id : ℕ) {f : Client → Client} (hcaller : ∀ c, (f c).toPeer = c.toPeer)
    (hdocs : ∀ c ∈ s.clients, c.id = id → ∀ name ∈ (f c).docSubs, name ∈ c.docSubs ∨ c.toPeer = who) :
    Alone who kbId (s.onClient id f) := by
  intro c' hc' name hname hkb
  obtain ⟨c, hc, rfl⟩ := Server.mem_onClient hc'
  split_ifs at hname ⊢ with hid
  · rw [hcaller]
    exact (hdocs c hc hid name hname).elim (fun hold => hs c hc name hold hkb) fun h => h
  · exact hs c hc name hname hkb

lemma steady_fresh (hanchor : ∀ kbId, h.anchor kbId = none) : Steady h (Fresh h callers old who principal kbId) where
  settled s hs := hs.feeding.settled h.toEnv
  quiet s docs hs hsound hstorage :=
    ⟨(steady hanchor).quiet s docs hs.feeding hsound hstorage, hstorage ▸ hs.owned, hs.alone⟩
  books s id f hf hs := by
    refine ⟨(steady hanchor).books s id f hf hs.feeding, hs.owned, ?_⟩
    apply hs.alone.onClient id fun c => (hf c).1
    intro c _ _ name hname
    rw [(hf c).2.2] at hname
    exact .inl hname
  metas s kbMetas hm hs := ⟨(steady hanchor).metas s kbMetas hm hs.feeding, hs.owned, hs.alone⟩
  tells s event recipient hs := ⟨(steady hanchor).tells s event recipient hs.feeding, hs.owned, hs.alone⟩

lemma Fresh.reads (hs : Fresh h callers old who principal kbId s) (hp : who.principal = some principal) :
    Reads s.documents.storage kbId who := by
  obtain ⟨coll, hcoll, howner⟩ := hs.owned
  exact ⟨coll, principal, hcoll, hp, .owner, howner, .inl rfl⟩

lemma Fresh.of_share (hs : Feeding h callers old s) (hnone : s.documents.storage (collectionDocName kbId) = none)
    (label : String) {u : Y.Update}
    (hschema : (Y.root (Y.apply Y.blank u))["schema"]? = none ∨ 2 ≤ (Y.root (Y.apply Y.blank u)).schemaVersion) :
    Fresh h callers old who principal kbId
      { s with
        documents := s.documents.shareDoc h.toEnv (collectionDocName kbId)
          (bindOwner h.toEnv (some principal) label u) } := by
  have hnobody : ∀ c ∈ s.clients, ∀ name ∈ c.docSubs, kbOf name ≠ some kbId := by
    intro c hc name hname hkbOf
    obtain ⟨d, _, hd, -⟩ := hs.readable c hc name hname kbId hkbOf
    cases hnone.symm.trans hd
  have hstorage := Documents.storage_shareDoc h.toEnv (collectionDocName kbId)
    (bindOwner h.toEnv (some principal) label u) s.documents
  rw [bindOwner, Y.apply_encode] at hstorage
  have hroot := Y.root_record (Y.apply Y.blank u)
    ((Y.root (Y.apply Y.blank u)).setOwner principal label h.toEnv.freshEpochToken)
  refine ⟨hs.of_rewrite (hs.sound.shareDoc h.toEnv _ _) hstorage ?_ ?_, ?_, ?_⟩
  · rw [Yrs.transact, hroot]
    exact schemaVersion_setOwner _ principal label _ hschema
  · exact fun c hc name hname hkbOf => absurd hkbOf (hnobody c hc name hname)
  · refine ⟨_, (congrFun hstorage _).trans (update_self ..), ?_⟩
    rw [Yrs.transact, hroot]
    exact roleOf_setOwner _ principal label _
  · exact fun c hc name hname hkbOf => absurd hkbOf (hnobody c hc name hname)

lemma ends_shareCollection (hs : Feeding h callers old s) (hkb : kbId ≠ "") (label : String) {payload : Payload Y}
    (hcareful : CarefulShare s.documents.storage (s.documents.hasDoc (collectionDocName kbId)) who kbId (some payload)) :
    (onDocuments (shareCollection h.toEnv kbId (some principal) label payload)).Ends s
      (fun _ s' => Known h callers old who kbId s' ∨ Fresh h callers old who principal kbId s')
      (Feeding h callers old) := by
  cases hdoc : s.documents.hasDoc (collectionDocName kbId) with
  | true =>
    obtain ⟨coll, hcoll⟩ := isSome_iff_exists.mp (hs.sound.stored kbId hkb hdoc)
    obtain ⟨-, hreads, hraw⟩ := hcareful.known coll hcoll
    have hsettled := (hs.settled h.toEnv).loadCollection hkb
    have hfeeding : Feeding h callers old { s with documents := (s.documents.loadCollection h.toEnv kbId).1 } :=
      hs.of_collections hsettled.1 fun _ _ => congrFun hsettled.2.1 _
    have hload : s.documents.loadCollection h.toEnv kbId = ((s.documents.loadCollection h.toEnv kbId).1, .ok coll) := by
      rw [Prod.ext_iff]
      exact ⟨rfl, by rw [hsettled.2.2, hcoll]; rfl⟩
    rw [Ends, onDocuments, shareCollection.eq_def, refuseIfOwnedByAnother, hload]
    dsimp only
    split_ifs
    · exact hfeeding
    · refine .inl ⟨hfeeding, ?_⟩
      rw [hsettled.2.1]
      exact ⟨hreads, coll, hcoll, hraw⟩
  | false =>
    have hnone : s.documents.storage (collectionDocName kbId) = none := by
      by_contra hstored
      obtain ⟨coll, hcoll⟩ := ne_none_iff_exists'.mp hstored
      have hmemory := (hcareful.known coll hcoll).1
      rw [hdoc] at hmemory
      cases hmemory
    rw [Ends, onDocuments, shareCollection.eq_def, if_neg (by simp [hdoc])]
    cases payload with
    | update u => exact .inr (Fresh.of_share hs hnone label (hcareful.fresh u hnone rfl))
    | undecodable e => exact hs
    | badBase64 e => exact hs

lemma ends_setTransport (hanchor : ∀ kbId, h.anchor kbId = none) (hs : Feeding h callers old s) (hkb : kbId ≠ "")
    (hp : who.principal = some principal) {coll : Y.Doc}
    (hcoll : s.documents.storage (collectionDocName kbId) = some coll) {policy : TransportPolicy}
    (hreads : ((Y.root coll).writes (setTransportPolicy policy)).Reads principal who.transport)
    (hothers : ∀ c ∈ s.clients, ∀ name ∈ c.docSubs, kbOf name = some kbId → ∀ principal, c.principal = some principal →
      (Y.root coll).Reads principal c.transport →
        ((Y.root coll).writes (setTransportPolicy policy)).Reads principal c.transport) :
    (persistAndBroadcastCollection h who kbId (Y.record coll (setTransportPolicy policy))).Ends s
      (fun _ => ReadingOn h callers old kbId who) (Feeding h callers old) := by
  have hwritten := hs.record h.toEnv hkb hcoll (fun hschema => (schemaVersion_setTransportPolicy _ _).symm ▸ hschema)
    hothers
  refine ⟨hwritten.enqueue hanchor _ _, Y.transact coll (setTransportPolicy policy), principal, ?_, hp, ?_⟩
  · exact (congrFun (storage_record hcoll h.toEnv _) _).trans (update_self ..)
  · rw [Yrs.transact, Y.root_record]
    exact hreads

lemma ends_announceTransport (hanchor : ∀ kbId, h.anchor kbId = none) (hkb : kbId ≠ "")
    (hp : who.principal = some principal)
    (hs : Known h callers old who kbId s ∨ Fresh h callers old who principal kbId s) (transport : Option String) :
    (announceTransport h who kbId transport).Ends s (fun _ => ReadingOn h callers old kbId who)
      (Feeding h callers old) := by
  rcases hs with hs | hs
  · obtain ⟨hfeeding, ⟨coll, principal', hcoll, hp', hreads⟩, coll', hcoll', hraw⟩ := hs
    obtain rfl := mem_unique hp hp'
    obtain rfl := mem_unique hcoll hcoll'
    obtain ⟨policy, hpolicy⟩ := isSome_iff_exists.mp hraw
    have hI := hfeeding.steadyOn hanchor
    apply (hI.ends_loadStored ⟨hfeeding, rfl⟩ hkb hcoll).bind
    rintro r s1 ⟨rfl, hs1⟩
    rw [← hs1.2] at hcoll
    dsimp only
    rw [hpolicy]
    have hretains := @Root.retains_widened (fun _ => True) (Y.root coll) policy hpolicy
      ((transport.bind TransportPolicy.parse).getD .hub)
    refine ends_when (fun _ => ?_) fun _ => ⟨hs1.1, coll, principal, hcoll, hp, hreads⟩
    apply ends_setTransport hanchor hs1.1 hkb hp hcoll (hretains.reads _ _ trivial hreads)
    exact fun c _ _ _ _ principal _ => hretains.reads principal c.transport trivial
  · obtain ⟨coll, hcoll, howner⟩ := hs.owned
    have hI : Steady h (fun s' => Fresh h callers old who principal kbId s' ∧ s'.documents.storage = s.documents.storage) :=
      (steady_fresh hanchor).still _
    apply (hI.ends_loadStored ⟨hs, rfl⟩ hkb hcoll).bind
    rintro r s1 ⟨rfl, hs1, hstorage⟩
    rw [← hstorage] at hcoll
    refine ends_when (fun _ => ?_) fun _ => ⟨hs1.feeding, hs1.reads hp⟩
    have hreads : ∀ policy transport,
        ((Y.root coll).writes (setTransportPolicy policy)).Reads principal transport := fun policy transport =>
      ⟨.owner, (roleOf_setTransportPolicy _ policy principal).trans howner, .inl rfl⟩
    apply ends_setTransport hanchor hs1.feeding hkb hp hcoll (hreads _ _)
    intro c hc name hname hkbOf principal' hp' _
    rw [hs1.alone c hc name hname hkbOf, hp] at hp'
    cases hp'
    exact hreads _ _

section Putting

variable (hanchor : ∀ kbId, h.anchor kbId = none) (hwho : ∀ c ∈ callers, c.id = who.id → c = who)
include hanchor hwho

lemma ends_joinShared (hkb : kbId ≠ "") (hp : who.principal = some principal)
    (hs : Known h callers old who kbId s ∨ Fresh h callers old who principal kbId s) :
    (joinDoc h who (collectionDocName kbId)).Ends s
      (fun _ s' => Known h callers old who kbId s' ∨ Fresh h callers old who principal kbId s')
      (Feeding h callers old) := by
  rcases hs with hs | hs
  · have hjoin := ends_joinDoc hanchor hwho hs fun _ hread => mayRead_collection hkb hread.1
    exact hjoin.mono (fun _ _ h => .inl h) fun _ h => h.1
  · have hI : Steady h (Fresh h callers old who principal kbId) := steady_fresh hanchor
    apply Ends.mono (E := Fresh h callers old who principal kbId) _ (fun _ _ h => .inr h) fun _ h => h.feeding
    refine hI.ends_joinDoc hs _ fun s1 hs1 => ?_
    refine ends_change ⟨hs1.feeding.subscribe hwho (mayRead_collection hkb (hs1.reads hp)), hs1.owned, ?_⟩
    refine hs1.alone.onClient who.id (fun _ => rfl) fun c hc hid name hname => ?_
    exact .inr (hwho c.toPeer (hs1.feeding.mem_callers hc) hid)

lemma ends_putNodes (hkb : kbIdIsAddressable kbId = true) (nodes : List (SharedNode Y))
    (hs : ReadingOn h callers old kbId who s) :
    (putNodes h who kbId nodes).Keeps s (ReadingOn h callers old kbId who) := by
  induction nodes generalizing s with
  | nil => exact ends_answer hs
  | cons node nodes ih =>
    refine Keeps.bind ?_ fun count s1 hs1 => ?_
    · rw [putNode]
      split
      · next nodeId u _ _ =>
        have hname := kbNodeDocName_ne_collectionDocName kbId nodeId
        refine Keeps.bind (ends_change ?_) fun _ s2 hs2 => ?_
        · dsimp only
          split_ifs
          · exact hs.writeAway (hs.1.sound.applyUpdate h.toEnv _ u) (Documents.storage_applyUpdate ..) hname
          · exact hs.writeAway (hs.1.sound.shareDoc h.toEnv _ u) (Documents.storage_shareDoc ..) hname
        · apply (ends_joinDoc hanchor hwho hs2 fun _ hreads => mayRead_node hkb hreads nodeId).bind
          exact fun _ _ hs3 => ends_pure hs3
      · exact ends_answer hs
    · exact (ih hs1).reply

lemma ends_serveKbShare (hs : Feeding h callers old s) (hp : who.principal = some principal) (hparams : NamesKb params)
    (hcareful : ∀ kbId, (params.field "kb_id").asStr = some kbId → CarefulShare s.documents.storage
      (s.documents.hasDoc (collectionDocName kbId)) who kbId (ShareRequest.ofParams h who params).collectionState) :
    (serveKbShare h who params).Keeps s (Feeding h callers old) := by
  refine ends_ofOption_bind hs fun kbId hkb => ?_
  have hne := hparams.ne_empty hkb
  have hshare := hcareful kbId hkb
  refine Ends.bind (Q := fun payload s' => s' = s ∧
    (ShareRequest.ofParams h who params).collectionState = some payload) ?_ ?_
  · rw [collectionPayload]
    split
    · exact ends_fail hs
    · exact ends_fail hs
    · next hpayload => exact ends_answer ⟨rfl, hpayload⟩
  rintro payload _ ⟨rfl, hpayload⟩
  rw [hpayload] at hshare
  refine Ends.bind (Q := fun _ s' => Known h callers old who kbId s' ∨ Fresh h callers old who principal kbId s') ?_ ?_
  · have hprincipal : (ShareRequest.ofParams h who params).principal = some principal := hp
    rw [hprincipal]
    exact ends_shareCollection hs hne _ hshare
  intro _ s1 hs1
  apply (ends_joinShared hanchor hwho hne hp hs1).bind
  intro _ s2 hs2
  apply (ends_announceTransport hanchor hne hp hs2 _).bind
  intro _ s3 hs3
  have hI : Steady h (ReadingOn h callers old kbId who) := steady_feedingOn hanchor
  apply ends_forget
  apply (ends_putNodes hanchor hwho (hparams kbId hkb) _ hs3).bind
  intro count s4 hs4
  refine Keeps.bind (ends_change ?_) fun _ s5 hs5 => ?_
  · refine hI.metas s4 _ (fun kb hkb' => ?_) hs4
    exact (List.mem_insert_iff.mp hkb').elim (fun heq => .inr (heq ▸ hne)) .inl
  exact (hI.ends_stateOf hs5 _).attempt.bind fun _ _ hs6 => ends_pure hs6.1

end Putting

section Raw

def IsCollection (name : String) : Prop := ∃ kbId, DocAddress.parse name = some (.kbCollection kbId)

lemma ne_of_not_isCollection (h : ¬ IsCollection name) (hkb : kbId ≠ "") : name ≠ collectionDocName kbId := by
  rintro rfl
  exact h ⟨kbId, DocAddress.parse_collectionDocName kbId hkb⟩

lemma Documents.Sound.deleteDoc {docs : Documents Y} (hdocs : docs.Sound) (name : String) : (docs.deleteDoc name).Sound := by
  refine ⟨fun other e he => ?_, fun kbId hkb hdoc => ?_⟩
  · by_cases heq : other = name
    · simp [Documents.deleteDoc, heq] at he
    · simp only [Documents.deleteDoc, update_of_ne heq] at he ⊢
      exact hdocs.coherent other e (by simpa [heq] using he)
  · by_cases heq : collectionDocName kbId = name
    · simp [Documents.deleteDoc, Documents.hasDoc, heq] at hdoc
    · simp only [Documents.deleteDoc, update_of_ne heq]
      apply hdocs.stored kbId hkb
      simpa [Documents.deleteDoc, Documents.hasDoc, heq] using hdoc

lemma ends_handleDocsDelete (hs : Feeding h callers old s) (hname : kbOf (docParam params) = none) :
    (handleDocsDelete params).Keeps s (Feeding h callers old) := by
  refine Keeps.bind (ends_change ?_) fun _ _ hs1 => ends_pure hs1
  refine hs.writeAway (hs.sound.deleteDoc _) rfl fun kbId hkb heq => ?_
  rw [heq, kbOf_collectionDocName hkb] at hname
  cases hname

variable (hanchor : ∀ kbId, h.anchor kbId = none)
include hanchor

section

variable (hwho : ∀ c ∈ callers, c.id = who.id → c = who) (hs : Feeding h callers old s)
include hwho hs

lemma ends_rawUpdate (hp : who.principal = some principal) (hparams : NamesKb params)
    (hcareful : ∀ name, (params.field "doc").asStr = some name → MayRead s.documents.storage who name ∧ ¬ IsCollection
      name) :
    (handleSyncUpdate h who params).Keeps s (Feeding h callers old) := by
  have hI : Steady h (Feeding h callers old) := steady hanchor
  apply (hI.ends_handleSyncUpdate hs hp hparams fun name hname s' hs' hstorage =>
    hs'.subscribe hwho (hstorage ▸ (hcareful name hname).1)).mono _ fun _ h => h
  rintro _ _ ⟨name, u, header, s1, hname, -, hs1, -, rfl⟩
  have hwritten := hs1.writeAway (hs1.sound.applyUpdate h.toEnv name u) (Documents.storage_applyUpdate ..)
    fun kbId hkb => ne_of_not_isCollection (hcareful name hname).2 hkb
  exact hwritten.enqueue hanchor _ _

lemma ends_rawShare (hread : MayRead s.documents.storage who (docParam params))
    (hname : ¬ IsCollection (docParam params)) :
    (handleSyncShare h who params).Keeps s (Feeding h callers old) := by
  have hI : Steady h (Feeding h callers old) := steady hanchor
  apply (hI.ends_handleSyncShare hs params fun s' hs' hstorage => hs'.subscribe hwho (hstorage ▸ hread)).mono _
    fun _ h => h
  rintro _ _ ⟨u, s1, hs1, -, rfl⟩
  have hwritten := hs1.writeAway (hs1.sound.shareDoc h.toEnv _ u) (Documents.storage_shareDoc ..)
    fun kbId hkb => ne_of_not_isCollection hname hkb
  exact hwritten.enqueue hanchor _ _

end

lemma ends_syncTool (hs : Feeding h callers old s) (tool : String) {arguments : Json}
    (hname : tool = "__mcp_sync_update" → ¬ IsCollection (docParam arguments)) :
    (handleSyncTool h tool arguments).Keeps s (Feeding h callers old) := by
  have hI : Steady h (Feeding h callers old) := steady hanchor
  rw [handleSyncTool]
  split_ifs with _ _ hupdate
  · exact ends_answer hs
  · exact (hI.ends_stateOf hs _).reply
  · refine ends_ofExcept_bind hs fun bytes _ => Keeps.bind ?_ fun u s1 hs1 => ?_
    · rw [applyBytes]
      split
      · exact ends_fail hs
      · next u _ =>
        exact hs.writeAway (hs.sound.applyUpdate h.toEnv _ u) (Documents.storage_applyUpdate ..)
          fun kbId hkb => ne_of_not_isCollection (hname hupdate) hkb
    · exact Keeps.bind (ends_change (hs1.enqueue hanchor _ _)) fun _ _ hs2 => ends_pure hs2
  · exact (hI.ends_stateOf hs _).reply
  · exact ends_fail hs

end Raw

end Mae.Daemon
