import Mae.Daemon.FeedInvariant

/-! What the handlers do to the live feed: those that only read, those that subscribe, and those that write. -/

namespace Mae.Daemon

open Library Handler Sync Sync.Membership Root Documents

variable {Y : Yrs}

lemma kbOf_collectionDocName {kbId : String} (h : kbId ≠ "") : kbOf (collectionDocName kbId) = some kbId :=
  kbOf_of_collection (DocAddress.parse_collectionDocName kbId h)

lemma eq_of_kbOf_kbNodeDocName {kbId nodeId other : String} (h : kbIdIsAddressable kbId = true)
    (hkb : kbOf (kbNodeDocName kbId nodeId) = some other) : other = kbId := by
  rw [kbOf, DocAddress.parse_kbNodeDocName kbId nodeId (of_kbIdIsAddressable h).2] at hkb
  split_ifs at hkb
  · cases hkb
  · exact (Option.some.inj hkb).symm

lemma kbOf_default : kbOf "default" = none := by decide +kernel

namespace Steady

variable {h : Host Y} {I : Server Y → Prop} {s : Server Y} {who : Peer} {name kbId principal : String} (hI : Steady h I)
  (hs : I s)
include hI hs

lemma ends_denyKbDocRead (hp : who.principal = some principal) (name : String) : (denyKbDocRead h who name).Ends s
      (fun _ s' => I s' ∧ ∀ kbId, kbOf name = some kbId → decision h.toEnv s.documents.storage kbId principal
        .read who.transport = .ok .allow)
      I := by
  rw [denyKbDocRead]
  split
  · next kbId hname =>
    refine (hI.ends_access hs (kbOf_ne_empty (kbOf_of_collection hname)) hp .read).mapError.bind fun d s' hd => ?_
    refine ends_check (fun hallow => ⟨hd.1, fun kbId' hkb => ?_⟩) hd.1
    obtain rfl := Option.some.inj ((kbOf_of_collection hname).symm.trans hkb)
    rw [hd.2, of_decide_eq_true hallow]
  · exact ends_fail hs
  · next hcollection hnode =>
    refine ends_answer ⟨hs, fun kbId hkb => ?_⟩
    obtain ⟨address, haddress, hid⟩ := Option.bind_eq_some_iff.mp hkb
    cases address with
    | file projectHash relPath => cases hid
    | shared id => cases hid
    | kbNode kb nodeId => exact absurd haddress (hnode kb nodeId)
    | kbCollection kb => exact absurd haddress (hcollection kb)

lemma ends_handleKbUnregister (params : Json) : (handleKbUnregister who params).Keeps s I := by
  refine ends_ofOption_bind hs fun kbId _ => ?_
  refine Keeps.bind (ends_change ?_) fun _ s1 hs1 => ?_
  · exact hI.metas s _ (fun _ hkb => .inl (List.mem_filter.mp hkb).1) hs
  · exact (hI.ends_removeSessionDoc hs1 _).reply

lemma ends_requireRead (hkb : kbId ≠ "") (hp : who.principal = some principal) : (requireRead h who kbId).Ends s
      (fun _ s' => I s' ∧ ∃ d, (d = .allow ∨ d = .allowAutoJoin) ∧ decision h.toEnv s.documents.storage kbId
        principal .read who.transport = .ok d)
      I := by
  refine (hI.ends_access hs hkb hp .read).mapError.bind fun d s' hd => ?_
  cases d with
  | allow => exact ends_answer ⟨hd.1, _, .inl rfl, hd.2⟩
  | allowAutoJoin => exact ends_answer ⟨hd.1, _, .inr rfl, hd.2⟩
  | deny message => exact ends_fail hd.1
  | pending => exact ends_fail hd.1

end Steady

def MayRead (storage : String → Option Y.Doc) (who : Peer) (name : String) : Prop :=
  ∀ kbId, kbOf name = some kbId → Reads storage kbId who

def FeedingOn (h : Host Y) (callers : List Peer) (old : List (Delivery Y)) (P : (String → Option Y.Doc) → Prop)
    (s : Server Y) : Prop :=
  Feeding h callers old s ∧ P s.documents.storage

section Feeding

variable {h : Host Y} {callers : List Peer} {old : List (Delivery Y)} {s : Server Y} {who : Peer}
  {kbId principal name : String} {P : (String → Option Y.Doc) → Prop}

lemma steady_feedingOn (hanchor : ∀ kbId, h.anchor kbId = none) : Steady h (FeedingOn h callers old P) :=
  (Feeding.steady hanchor).onStorage P

lemma Feeding.steadyOn (_ : Feeding h callers old s) (hanchor : ∀ kbId, h.anchor kbId = none) :
    Steady h (FeedingOn h callers old (· = s.documents.storage)) :=
  steady_feedingOn hanchor

lemma ends_forget {ε α : Type} {m : Handler (Server Y) ε α}
    (hm : m.Ends s (fun _ => Feeding h callers old) (FeedingOn h callers old P)) :
    m.Keeps s (Feeding h callers old) :=
  hm.mono (fun _ _ h => h) fun _ h => h.1

variable {storage : String → Option Y.Doc}

lemma reads_of_decision (hanchor : ∀ kbId, h.anchor kbId = none) (hp : who.principal = some principal) {op : KbOp}
    (hallow : decision h.toEnv storage kbId principal op who.transport = .ok .allow) :
    Reads storage kbId who := by
  rw [decision] at hallow
  split at hallow
  · next d hd => exact ⟨d, principal, hd, hp, reads_of_allow (hanchor kbId) (Except.ok.inj hallow)⟩
  · cases hallow

lemma mayRead_collection (hkb : kbId ≠ "") (h : Reads storage kbId who) :
    MayRead storage who (collectionDocName kbId) := by
  intro kb hname
  obtain rfl := Option.some.inj ((kbOf_collectionDocName hkb).symm.trans hname)
  exact h

lemma mayRead_node (hkb : kbIdIsAddressable kbId = true) (h : Reads storage kbId who) (nodeId : String) :
    MayRead storage who (kbNodeDocName kbId nodeId) := by
  intro kb hname
  obtain rfl := eq_of_kbOf_kbNodeDocName hkb hname
  exact h

section Subscribing

variable (hanchor : ∀ kbId, h.anchor kbId = none) (hwho : ∀ c ∈ callers, c.id = who.id → c = who)
include hwho

lemma ends_subscribeDoc (hs : FeedingOn h callers old P s) (hread : ∀ storage, P storage → MayRead storage who name) :
    (subscribeDoc who name).Keeps s (FeedingOn h callers old P) :=
  ends_change ⟨hs.1.subscribe hwho (hread _ hs.2), hs.2⟩

include hanchor

section

variable (hs : FeedingOn h callers old P s) (hread : ∀ storage, P storage → MayRead storage who name)
include hs hread

lemma ends_interaction : (firstInteraction h who name).Keeps s (FeedingOn h callers old P) :=
  (steady_feedingOn hanchor).ends_firstInteraction hs name fun _ hs' => ends_subscribeDoc hwho hs' hread

lemma ends_joinDoc : (joinDoc h who name).Keeps s (FeedingOn h callers old P) :=
  (steady_feedingOn hanchor).ends_joinDoc hs name fun _ hs' => ends_subscribeDoc hwho hs' hread

end

variable (hs : Feeding h callers old s)
include hs

lemma ends_handleSyncAwareness {params : Json} (hread : MayRead s.documents.storage who (docParam params)) :
    (handleSyncAwareness who params).Keeps s (Feeding h callers old) := by
  have hI := hs.steadyOn hanchor
  apply ends_forget
  apply (hI.ends_insertSessionDoc ⟨hs, rfl⟩ _).bind
  intro _ s1 hs1
  apply (ends_subscribeDoc hwho hs1 fun _ heq => heq ▸ hread).bind
  intro _ s2 hs2
  exact (hI.ends_broadcastExcept hs2 _).bind fun _ _ hs3 => ends_pure hs3.1

lemma ends_handleKbRegister {params : Json} (hparams : NamesKb params)
    (hread : ∀ kbId, (params.field "kb_id").asStr = some kbId → Reads s.documents.storage kbId who) :
    (handleKbRegister who params).Keeps s (Feeding h callers old) := by
  have hI := hs.steadyOn hanchor
  apply ends_forget (P := (· = s.documents.storage))
  refine ends_ofOption_bind ⟨hs, rfl⟩ fun kbId hkb => ?_
  have hne := hparams.ne_empty hkb
  apply (hI.ends_insertSessionDoc ⟨hs, rfl⟩ _).bind
  intro _ s1 hs1
  apply (ends_subscribeDoc hwho hs1 fun _ heq => mayRead_collection hne (heq ▸ hread kbId hkb)).bind
  intro _ s2 hs2
  apply Ends.bind (Q := fun _ => Feeding h callers old)
  · apply ends_change
    refine (Feeding.steady hanchor).metas s2 _ (fun kb hkb' => ?_) hs2.1
    exact (List.mem_insert_iff.mp hkb').elim (fun heq => .inr (heq ▸ hne)) .inl
  · exact fun _ _ hs3 => ends_pure hs3

lemma ends_handleSyncFullState (hp : who.principal = some principal) (params : Json) :
    (handleSyncFullState h who params).Keeps s (Feeding h callers old) := by
  have hI := hs.steadyOn hanchor
  apply ends_forget
  apply (hI.ends_denyKbDocRead ⟨hs, rfl⟩ hp (docParam params)).bind
  rintro _ s1 ⟨hs1, hallow⟩
  apply (ends_interaction hanchor hwho hs1 fun _ heq kbId hkb => heq ▸ reads_of_decision hanchor hp (hallow kbId hkb)).bind
  intro _ s2 hs2
  exact (hI.ends_stateOf hs2 _).mapError.bind fun _ _ hs3 => ends_pure hs3.1

lemma ends_handleSyncResync (hp : who.principal = some principal) (params : Json) :
    (handleSyncResync h who params).Keeps s (Feeding h callers old) := by
  have hI := hs.steadyOn hanchor
  apply ends_forget
  apply (hI.ends_denyKbDocRead ⟨hs, rfl⟩ hp (docParam params)).bind
  rintro _ s1 ⟨hs1, hraw⟩
  refine ends_look_bind ?_
  generalize resolveName h (docParam params) s1 = name
  refine Ends.bind (Q := fun _ s' => FeedingOn h callers old (· = s.documents.storage) s' ∧
    MayRead s.documents.storage who name) (ends_when (fun _ => ?_) fun hsame => ⟨hs1, ?_⟩) fun _ s2 ⟨hs2, hread⟩ => ?_
  · apply (hI.ends_denyKbDocRead hs1 hp name).mono _ fun _ h => h
    rintro _ s' ⟨hs', hallow⟩
    exact ⟨hs', fun kbId hkb => reads_of_decision hanchor hp (hs1.2 ▸ hallow kbId hkb)⟩
  · obtain rfl : name = docParam params := by simpa using hsame
    exact fun kbId hkb => reads_of_decision hanchor hp (hraw kbId hkb)
  · apply (ends_interaction hanchor hwho hs2 fun _ heq => heq ▸ hread).bind
    intro _ s3 hs3
    exact (hI.ends_stateOf hs3 _).mapError.bind fun _ _ hs4 => ends_pure hs4.1

end Subscribing

section Writing

variable {coll : Y.Doc} {ws : List Write}

lemma storage_record {docs : Documents Y} (hd : docs.storage (collectionDocName kbId) = some coll) (env : Env Y)
    (ws : List Write) :
    (docs.applyUpdate env (collectionDocName kbId) (Y.record coll ws)).storage = Function.update docs.storage
      (collectionDocName kbId) (some (Y.transact coll ws)) := by
  rw [storage_applyUpdate, hd]
  rfl

lemma Feeding.record (hs : Feeding h callers old s) (env : Env Y) (hkb : kbId ≠ "")
    (hd : s.documents.storage (collectionDocName kbId) = some coll)
    (hschema : 2 ≤ (Y.root coll).schemaVersion → 2 ≤ ((Y.root coll).writes ws).schemaVersion)
    (hread : ∀ c ∈ s.clients, ∀ name ∈ c.docSubs, kbOf name = some kbId → ∀ principal, c.principal = some principal →
      (Y.root coll).Reads principal c.transport → ((Y.root coll).writes ws).Reads principal c.transport) :
    Feeding h callers old
      { s with documents := s.documents.applyUpdate env (collectionDocName kbId) (Y.record coll ws) } := by
  have hstorage := storage_record hd env ws
  have hroot : Y.root (Y.transact coll ws) = (Y.root coll).writes ws := Y.root_record coll ws
  apply hs.of_rewrite (hs.sound.applyUpdate env _ _) hstorage
  · rw [hroot]
    exact hschema (hs.current kbId coll hkb hd)
  · intro c hc name hname hkbOf
    obtain ⟨d, principal, hd', hp, hreads⟩ := hs.readable c hc name hname kbId hkbOf
    obtain rfl := Option.mem_unique hd hd'
    refine ⟨Y.transact coll ws, principal, ?_, hp, ?_⟩
    · rw [hstorage, Function.update_self]
    · rw [hroot]
      exact hread c hc name hname hkbOf principal hp hreads

def Connected (callers : List Peer) (principal : String) : Prop := ∃ c ∈ callers, c.principal = some principal

variable (hanchor : ∀ kbId, h.anchor kbId = none)
include hanchor

lemma ends_persist (hs : Feeding h callers old s) (hkb : kbId ≠ "")
    (hd : s.documents.storage (collectionDocName kbId) = some coll)
    (hretains : Retains (Connected callers) (Y.root coll) ((Y.root coll).writes ws)) :
    (persistAndBroadcastCollection h who kbId (Y.record coll ws)).Ends s
      (fun _ s' => Feeding h callers old s' ∧ s'.documents.storage (collectionDocName kbId) = some (Y.transact coll ws))
      (Feeding h callers old) := by
  have hwritten := hs.record h.toEnv hkb hd hretains.schema fun c hc _ _ _ principal hp =>
    hretains.reads principal c.transport ⟨c.toPeer, hs.mem_callers hc, hp⟩
  refine ⟨hwritten.enqueue hanchor _ _, ?_⟩
  exact (congrFun (storage_record hd h.toEnv ws) _).trans (Function.update_self ..)

def Holds (h : Host Y) (callers : List Peer) (old : List (Delivery Y)) (kbId : String) (coll : Y.Doc) (s : Server Y) :
    Prop :=
  FeedingOn h callers old (fun storage => storage (collectionDocName kbId) = some coll) s

lemma ends_writeCollection (hs : Holds h callers old kbId coll s) (hkb : kbId ≠ "")
    (hretains : Retains (Connected callers) (Y.root coll) ((Y.root coll).writes ws)) :
    (writeCollection h who kbId coll ws).Ends s
      (fun coll' s' => Holds h callers old kbId coll' s' ∧ Y.root coll' = (Y.root coll).writes ws)
      (Feeding h callers old) := by
  apply (ends_persist hanchor hs.1 hkb hs.2 hretains).bind
  exact fun _ s1 hs1 => ends_pure ⟨hs1, Y.root_record coll ws⟩

lemma ends_holdCollection (hs : Feeding h callers old s) (hkb : kbId ≠ "") :
    (loadedCollection h kbId).Ends s (fun coll => Holds h callers old kbId coll) (Feeding h callers old) := by
  have hI := hs.steadyOn hanchor
  apply (hI.ends_loadedCollection ⟨hs, rfl⟩ hkb).mono _ fun _ h => h.1
  rintro coll s' ⟨hs', hcoll⟩
  exact ⟨hs'.1, hs'.2 ▸ hcoll⟩

section

variable (hs : Feeding h callers old s) (hkb : kbId ≠ "") (hp : who.principal = some principal) (op : KbOp)
  (other : String)
include hs hkb hp

lemma ends_authorized {α : Type} {Q : α → Server Y → Prop} {m : Y.Doc → ServerHandler Y α}
    (hm : ∀ coll s', s.documents.storage (collectionDocName kbId) = some coll → Holds h callers old kbId coll s' →
      (m coll).Ends s' Q (Feeding h callers old)) :
    (do
      requireAccess h who kbId op other
      m (← (loadedCollection h kbId).mapError internalError) : ServerHandler Y α).Ends s Q (Feeding h callers old) := by
  have hI := hs.steadyOn hanchor
  apply ((hI.ends_requireAccess ⟨hs, rfl⟩ hkb hp op other).mono (fun _ _ h => h) fun _ h => h.1).bind
  rintro _ s1 ⟨hs1, -⟩
  apply ((hI.ends_loadedCollection hs1 hkb).mapError.mono (fun _ _ h => h) fun _ h => h.1).bind
  rintro coll s2 ⟨hs2, hcoll⟩
  rw [hs1.2] at hcoll
  exact hm coll s2 hcoll ⟨hs2.1, hs2.2 ▸ hcoll⟩

lemma ends_mutateCollection {writes : Root → Except McpError (List Write)}
    (hretains : ∀ coll ws, s.documents.storage (collectionDocName kbId) = some coll → writes (Y.root coll) = .ok ws →
      Retains (Connected callers) (Y.root coll) ((Y.root coll).writes ws)) :
    (mutateCollection h who kbId op other writes).Ends s (fun coll => Holds h callers old kbId coll)
      (Feeding h callers old) := by
  refine ends_authorized hanchor hs hkb hp op other fun coll s' hcoll hs' => ends_ofExcept_bind hs'.1 fun ws hws => ?_
  exact (ends_writeCollection hanchor hs' hkb (hretains coll ws hcoll hws)).mono (fun _ _ h => h.1) fun _ h => h

end

lemma ends_appendOwnOp (hs : Holds h callers old kbId coll s) (hkb : kbId ≠ "") (signer : Key32) (op : MembershipOp) :
    (appendOwnOp h who kbId signer coll op).Ends s (fun coll => Holds h callers old kbId coll)
      (Feeding h callers old) :=
  (ends_writeCollection hanchor hs hkb (retains_appendSignedOp _ _ _)).mono (fun _ _ h => h.1) fun _ h => h

lemma ends_appendSignedMembership (hs : Holds h callers old kbId coll s) (hkb : kbId ≠ "") (action : MembershipAction)
    (subject : String) (role : Option Role) :
    (appendSignedMembership h who kbId coll action subject role).Keeps s (Feeding h callers old) := by
  rw [appendSignedMembership]
  split
  · exact ends_answer hs.1
  · next signer _ =>
    refine Ends.bind (Q := fun coll => Holds h callers old kbId coll) ?_ fun coll' s1 hs1 => ?_
    · rw [seedGenesis]
      split_ifs
      · exact ends_appendOwnOp hanchor hs hkb signer _
      · exact ends_answer hs
    · exact (ends_appendOwnOp hanchor hs1 hkb signer _).bind fun _ _ hs2 => ends_pure hs2.1

lemma ends_loggedChange {m : ServerHandler Y Y.Doc} (hkb : kbId ≠ "")
    (hm : m.Ends s (fun coll => Holds h callers old kbId coll) (Feeding h callers old)) (action : MembershipAction)
    (subject : String) (role : Option Role) (reply : Reply Y) :
    (do
      let coll ← m
      appendSignedMembership h who kbId coll action subject role
      return reply : ServerHandler Y (Reply Y)).Keeps s (Feeding h callers old) := by
  apply hm.bind
  intro coll s1 hs1
  exact (ends_appendSignedMembership hanchor hs1 hkb action subject role).reply

section Members

variable (hp : who.principal = some principal) {params : Json} (hparams : NamesKb params) (hs : Feeding h callers old s)
include hp hparams hs

lemma ends_handleKbSetPolicy : (handleKbSetPolicy h who params).Keeps s (Feeding h callers old) := by
  refine ends_ofOption_bind hs fun kbId hkb => ends_ofOption_bind hs fun policy _ => ?_
  refine Ends.bind (ends_mutateCollection hanchor hs (hparams.ne_empty hkb) hp .manage _ ?_) fun _ _ hs1 =>
    ends_pure hs1.1
  rintro coll ws - hws
  cases hws
  exact retains_setJoinPolicy _ policy

lemma ends_handleKbCollectionNodeAdd : (handleKbCollectionNodeAdd h who params).Keeps s (Feeding h callers old) := by
  refine ends_ofOption_bind hs fun kbId hkb => ends_ofOption_bind hs fun nodeId _ => ?_
  refine Ends.bind (ends_mutateCollection hanchor hs (hparams.ne_empty hkb) hp .edit _ ?_) fun _ _ hs1 =>
    ends_pure hs1.1
  rintro coll ws - hws
  cases hws
  exact retains_addNode _ nodeId _

lemma ends_handleKbCollectionNodeRemove :
    (handleKbCollectionNodeRemove h who params).Keeps s (Feeding h callers old) := by
  refine ends_ofOption_bind hs fun kbId hkb => ends_ofOption_bind hs fun nodeId _ => ?_
  refine Ends.bind (ends_mutateCollection hanchor hs (hparams.ne_empty hkb) hp .edit _ ?_) fun _ _ hs1 =>
    ends_pure hs1.1
  rintro coll ws - hws
  cases hws
  exact retains_removeNode _ nodeId

def KeepsOwner (callers : List Peer) (storage : String → Option Y.Doc) (kbId seat : String) (role : Role) : Prop :=
  ∀ coll, storage (collectionDocName kbId) = some coll → Connected callers seat →
    role = .owner ∨ (Y.root coll).roleOf seat ≠ some .owner

lemma ends_handleKbAddMember
    (hkeeps : ∀ kbId member, (params.field "kb_id").asStr = some kbId → (params.field "member").asStr = some member →
      KeepsOwner callers s.documents.storage kbId member (roleParam params)) :
    (handleKbAddMember h who params).Keeps s (Feeding h callers old) := by
  refine ends_ofOption_bind hs fun kbId hkb => ends_ofOption_bind hs fun member hmember => ?_
  apply ends_loggedChange hanchor (hparams.ne_empty hkb)
  apply ends_mutateCollection hanchor hs (hparams.ne_empty hkb) hp
  rintro coll ws hcoll hws
  cases hws
  exact retains_upsertMember _ _ _ _ _ (hkeeps kbId member hkb hmember coll hcoll)

lemma ends_handleKbApproveMember
    (hkeeps : ∀ kbId seat, (params.field "kb_id").asStr = some kbId → (params.field "principal").asStr = some seat →
      KeepsOwner callers s.documents.storage kbId seat (roleParam params)) :
    (handleKbApproveMember h who params).Keeps s (Feeding h callers old) := by
  refine ends_ofOption_bind hs fun kbId hkb => ends_ofOption_bind hs fun seat hseat => ?_
  apply ends_loggedChange hanchor (hparams.ne_empty hkb)
  apply ends_mutateCollection hanchor hs (hparams.ne_empty hkb) hp
  rintro coll ws hcoll hws
  cases hws
  exact retains_approve _ _ _ _ (hkeeps kbId seat hkb hseat coll hcoll)

lemma ends_handleKbRemoveMember
    (hgone : ∀ member, (params.field "member").asStr = some member → ¬ Connected callers member) :
    (handleKbRemoveMember h who params).Keeps s (Feeding h callers old) := by
  refine ends_ofOption_bind hs fun kbId hkb => ends_ofOption_bind hs fun member hmember => ?_
  apply ends_loggedChange hanchor (hparams.ne_empty hkb)
  apply ends_mutateCollection hanchor hs (hparams.ne_empty hkb) hp
  rintro coll ws - hws
  split_ifs at hws
  cases hws
  exact retains_removePrincipal _ member (hgone member hmember)

lemma ends_handleKbSetGovernance : (handleKbSetGovernance h who params).Keeps s (Feeding h callers old) := by
  refine ends_ofOption_bind hs fun kbId hkb => ends_ofOption_bind hs fun governance _ => ?_
  refine ends_authorized hanchor hs (hparams.ne_empty hkb) hp .manage _ fun coll s2 _ hs2 => ?_
  refine ends_check_bind hs2.1 fun _ => ?_
  exact (ends_appendSignedMembership hanchor hs2 (hparams.ne_empty hkb) _ _ _).reply

lemma ends_handleKbRevoke : (handleKbRevoke h who params).Keeps s (Feeding h callers old) := by
  refine ends_ofOption_bind hs fun kbId hkb => ends_ofOption_bind hs fun member _ => ?_
  refine ends_authorized hanchor hs (hparams.ne_empty hkb) hp .manage _ fun coll s2 _ hs2 => ?_
  refine Keeps.bind ?_ fun _ _ hs3 => ends_pure hs3
  -- four checks, then one op in the log
  refine ends_ofOption_bind hs2.1 fun signer _ => ends_check_bind hs2.1 fun _ => ?_
  refine ends_check_bind hs2.1 fun _ => ends_check_bind hs2.1 fun _ => ?_
  exact (ends_appendOwnOp hanchor hs2 (hparams.ne_empty hkb) signer _).bind fun _ _ hs3 => ends_pure hs3.1

lemma ends_handleKbClaimLease : (handleKbClaimLease h who params).Keeps s (Feeding h callers old) := by
  refine ends_ofOption_bind hs fun kbId hkb => ends_ofOption_bind hs fun opKind _ => ?_
  refine ends_authorized hanchor hs (hparams.ne_empty hkb) hp .edit _ fun coll s2 _ hs2 => ?_
  dsimp only
  split_ifs
  · refine Keeps.bind (ends_answer hs2.1) fun coll' s3 hs3 => ?_
    exact ends_ofOption_bind hs3 fun _ _ => ends_pure hs3
  · apply (ends_writeCollection hanchor hs2 (hparams.ne_empty hkb) (retains_claimLease _ _ _ _ _)).bind
    rintro coll' s3 ⟨hs3, -⟩
    exact ends_ofOption_bind hs3.1 fun _ _ => ends_pure hs3.1

end Members

end Writing

end Feeding

end Mae.Daemon
