import Mae.Daemon.Routing
import Mae.Library.Books

/-! The clients that a document counts and the sessions that have it in their books, and the handlers that leave both as
they are. -/

namespace Mae.Daemon

open Library Handler Sync Sync.Membership Documents

variable {Y : Yrs}

namespace Documents

def count (docs : Documents Y) (name : String) : ℕ := (docs.docs name).elim 0 DocEntry.connectedClients

def Available (docs : Documents Y) (name : String) : Prop := (docs.storage name).isSome ∨ isDurableDoc name = false

section Count

variable {docs : Documents Y} {env : Env Y}

lemma hasDoc_of_count {name : String} (hpos : 0 < docs.count name) : docs.hasDoc name = true := by
  rw [hasDoc, Option.isSome_iff_ne_none]
  intro hnone
  rw [count, hnone] at hpos
  exact absurd hpos (Nat.lt_irrefl 0)

lemma count_put (name : String) (e : DocEntry Y) (other : String) :
    (docs.put name e).count other = if other = name then e.connectedClients else docs.count other := by
  by_cases h : other = name
  · subst h
    simp [count]
  · simp [count, h]

lemma count_forget (docs : Documents Y) (name other : String) :
    (docs.forget name).count other = if other = name then 0 else docs.count other := by
  by_cases h : other = name
  · subst h
    simp [count]
  · simp [count, h]

lemma count_makeRoom (env : Env Y) (name : String) : (docs.makeRoom env).count name = docs.count name := by
  obtain h | ⟨victim, e, he, hidle, h⟩ := makeRoom_cases env docs
  · rw [h]
  · rw [h, count_forget]
    split
    · next heq => simp [count, heq, he, hidle]
    · rfl

lemma count_getOrCreate (env : Env Y) (allowed : Bool) (name other : String) (docs : Documents Y) :
    (docs.getOrCreate env allowed name).1.count other = docs.count other ∧
      ∀ e, (docs.getOrCreate env allowed name).2 = some e → e.connectedClients = docs.count name := by
  obtain ⟨e, he, h⟩ | ⟨hnone, -, h⟩ | ⟨-, -, h⟩ := getOrCreate_cases env allowed name docs <;> rw [h]
  · exact ⟨rfl, fun e' he' => by simp [count, he, Option.some.inj he']⟩
  · have hzero : docs.count name = 0 := by simp [count, hnone]
    refine ⟨?_, fun e he => Option.some.inj he ▸ hzero.symm⟩
    rw [count_put, count_makeRoom]
    split
    · next heq => rw [heq, hzero, opened]
    · rfl
  · exact ⟨count_makeRoom env other, fun _ he => by cases he⟩

lemma count_encodeState (env : Env Y) (name : String) (docs : Documents Y) :
    (docs.encodeState env name).1.count = docs.count := by
  funext other
  rw [encodeState_eq]
  exact (count_getOrCreate env false name other docs).1

lemma count_onEntry (env : Env Y) {allowed : Bool} {name : String} {f : DocEntry Y → DocEntry Y} {g : ℕ → ℕ}
    (hopen : docs.hasDoc name = true ∨ docs.MayOpen allowed name)
    (hf : ∀ e, (f e).connectedClients = g e.connectedClients) (other : String) :
    (docs.onEntry env allowed name f).count other = if other = name then g (docs.count name) else docs.count other := by
  have hget := count_getOrCreate env allowed name other docs
  obtain ⟨e, he, h⟩ | ⟨hnone, -⟩ := onEntry_cases env allowed name f docs
  · rw [h, count_put, hf, hget.2 e he, hget.1]
  · exact absurd hnone (getOrCreate_ne_none env hopen)

lemma count_applyUpdate (env : Env Y) (name : String) (u : Y.Update) :
    (docs.applyUpdate env name u).count = docs.count := by
  funext other
  rw [applyUpdate_eq, count_onEntry (g := id)]
  · split
    · next h => exact congrArg docs.count h.symm
    · rfl
  · exact .inr (.inr (.inl rfl))
  · exact fun _ => rfl

lemma count_loadCollection (env : Env Y) (kbId : String) (docs : Documents Y) :
    (docs.loadCollection env kbId).1.count = docs.count :=
  loadCollection_induct (P := fun docs' => docs'.count = docs.count) env kbId rfl (count_encodeState env _ docs)
    fun _ _ h => (count_applyUpdate env _ _).trans h

lemma count_shareDoc (env : Env Y) (name : String) (u : Y.Update) (other : String) :
    (docs.shareDoc env name u).count other = if other = name then 1 else docs.count other := by
  rw [shareDoc_eq, count_onEntry (g := fun _ => 1)]
  · split
    · rfl
    · next h => exact (count_forget docs name other).trans (if_neg h)
  · exact .inr (.inr (.inl rfl))
  · exact fun _ => rfl

lemma count_countClients (env : Env Y) {name : String} (havailable : docs.hasDoc name = true ∨ docs.Available name)
    (f : ℕ → ℕ) (other : String) :
    (docs.countClients env name f).count other = if other = name then f (docs.count name) else docs.count other :=
  count_onEntry env (havailable.imp_right fun h => h.imp_right .inr) (fun _ => rfl) other

end Count

section Stored

variable {docs : Documents Y}

def Retains (docs docs' : Documents Y) : Prop := ∀ name, (docs.storage name).isSome → (docs'.storage name).isSome

lemma retains_of_eq {docs' : Documents Y} (h : docs'.storage = docs.storage) : docs.Retains docs' := fun _ hs => h ▸ hs

lemma retains_of_update {docs' : Documents Y} {name : String} {d : Y.Doc}
    (h : docs'.storage = Function.update docs.storage name (some d)) : docs.Retains docs' := by
  intro other hother
  rw [h]
  by_cases heq : other = name
  · simp [heq]
  · simpa [heq] using hother

lemma retains_applyUpdate (env : Env Y) (name : String) (u : Y.Update) : docs.Retains (docs.applyUpdate env name u) :=
  retains_of_update (storage_applyUpdate env name u docs)

lemma retains_shareDoc (env : Env Y) (name : String) (u : Y.Update) : docs.Retains (docs.shareDoc env name u) :=
  retains_of_update (storage_shareDoc env name u docs)

lemma retains_loadCollection (env : Env Y) (kbId : String) (docs : Documents Y) :
    docs.Retains (docs.loadCollection env kbId).1 :=
  loadCollection_induct env kbId (retains_of_eq rfl) (retains_of_eq (storage_encodeState env _ docs))
    fun _ u h name hname => retains_applyUpdate env _ u name (h name hname)

end Stored

section Loaded

variable {docs : Documents Y} {env : Env Y} {name : String}

lemma hasDoc_encodeState {u : Y.Update} (hu : (docs.encodeState env name).2 = some u) :
    (docs.encodeState env name).1.hasDoc name = true := by
  rw [encodeState_eq] at hu ⊢
  obtain ⟨e, he, -⟩ := Option.map_eq_some_iff.mp hu
  exact hasDoc_getOrCreate he

lemma hasDoc_applyUpdate (env : Env Y) (name : String) (u : Y.Update) (docs : Documents Y) :
    (docs.applyUpdate env name u).hasDoc name = true := by
  obtain ⟨e, he⟩ := getOrCreate_allowed env name (docs.store name (Y.apply ((docs.storage name).getD Y.blank) u))
  rw [applyUpdate_eq, hasDoc_onEntry, hasDoc_getOrCreate he]

lemma hasDoc_loadCollection {kbId : String} {coll : Y.Doc} (h : (docs.loadCollection env kbId).2 = .ok coll) :
    (docs.loadCollection env kbId).1.hasDoc (collectionDocName kbId) = true := by
  have hstate := @hasDoc_encodeState _ docs env (collectionDocName kbId)
  simp only [loadCollection] at h ⊢
  split at h
  · next hdurable =>
    rw [if_pos hdurable]
    generalize docs.encodeState env (collectionDocName kbId) = r at *
    obtain ⟨docs', _ | state⟩ := r
    · cases h
    · dsimp only
      split
      · exact hasDoc_applyUpdate env _ _ _
      · exact hstate rfl
  · cases h

end Loaded

end Documents

def Client.book (c : Client) : ℕ × List String := (c.id, c.sessionDocs)

namespace Server

def books (s : Server Y) : Books ℕ String := s.clients.map Client.book

def attached (s : Server Y) (name : String) : ℕ := s.books.holders name

end Server

structure Calmly (s s' : Server Y) : Prop where
  counts : s'.documents.count = s.documents.count
  books : s'.books = s.books
  stored : s.documents.Retains s'.documents

instance : Std.Refl (Calmly (Y := Y)) := ⟨fun _ => ⟨rfl, rfl, fun _ h => h⟩⟩

instance : IsTrans (Server Y) Calmly :=
  ⟨fun _ _ _ h h' => ⟨h'.counts.trans h.counts, h'.books.trans h.books, fun name hs => h'.stored name (h.stored name hs)⟩⟩

abbrev Calm {ε α : Type} (m : Handler (Server Y) ε α) : Prop := m.Moves Calmly

section Calm

variable {h : Host Y} {who : Peer} {ε α : Type}

lemma calm_onDocuments {f : Documents Y → Documents Y × Except ε α}
    (hf : ∀ docs, (f docs).1.count = docs.count ∧ docs.Retains (f docs).1) : Calm (onDocuments f) := fun s =>
  ⟨(hf s.documents).1, rfl, (hf s.documents).2⟩

lemma calm_changeDocuments {f : Documents Y → Documents Y} (hf : ∀ docs, (f docs).count = docs.count ∧ docs.Retains (f docs)) :
    Calm (changeDocuments f) := fun s => ⟨(hf s.documents).1, rfl, (hf s.documents).2⟩

lemma calm_onClient (id : ℕ) {f : Client → Client} (hf : ∀ c, (f c).book = c.book) :
    Calm (.change (Server.onClient id f) : ServerHandler Y Unit) := by
  intro s
  refine ⟨rfl, ?_, fun _ hs => hs⟩
  simp only [Handler.change, Server.books, Server.onClient, List.map_map]
  apply List.map_congr_left
  intro c _
  simp only [Function.comp_apply]
  split
  · exact hf c
  · rfl

lemma calm_enqueue (event : EditorEvent Y) (recipient : Client → Bool) :
    Calm (.change (Server.enqueue event recipient) : Handler (Server Y) ε Unit) := fun _ => ⟨rfl, rfl, fun _ hs => hs⟩

lemma calm_metas (f : List String → List String) :
    Calm (.change fun s => { s with kbMetas := f s.kbMetas } : ServerHandler Y Unit) := fun _ => ⟨rfl, rfl, fun _ hs => hs⟩

lemma calm_subscribeDoc (name : String) : Calm (subscribeDoc who name : ServerHandler Y Unit) :=
  calm_onClient _ fun _ => rfl

lemma calm_unsubscribeDoc (name : String) : Calm (unsubscribeDoc who name : ServerHandler Y Unit) :=
  calm_onClient _ fun _ => rfl

lemma calm_addEventSub (eventType : String) : Calm (addEventSub who eventType : ServerHandler Y Unit) :=
  calm_onClient _ fun _ => rfl

lemma calms : Reading h (fun _ => True) Calmly where
  named _ _ := trivial
  state s name := ⟨count_encodeState h.toEnv name s.documents, rfl,
    retains_of_eq (storage_encodeState h.toEnv name s.documents)⟩
  collection s kbId _ := ⟨count_loadCollection h.toEnv kbId s.documents, rfl,
    retains_loadCollection h.toEnv kbId s.documents⟩
  tells _ _ _ := ⟨rfl, rfl, fun _ hs => hs⟩

lemma calm_denyCollectionSmuggling (name : String) : Calm (denyCollectionSmuggling h who name) := by
  unfold denyCollectionSmuggling
  split
  · exact ((calms.moves_access trivial _).mapError _).bind fun _ => moves_check _ _
  · exact moves_answer ()

lemma calm_applyBytes (name : String) (bytes : Bytes) : Calm (applyBytes h name bytes) := by
  unfold applyBytes
  split
  · exact moves_fail _
  · exact calm_onDocuments fun _ => ⟨count_applyUpdate h.toEnv name _, retains_applyUpdate h.toEnv name _⟩

lemma calm_persistAndBroadcastCollection (kbId : String) (u : Y.Update) :
    Calm (persistAndBroadcastCollection h who kbId u) := by
  refine (calm_changeDocuments fun docs => ?_).bind fun _ => calm_enqueue _ _
  exact ⟨count_applyUpdate h.toEnv _ u, retains_applyUpdate h.toEnv _ u⟩

end Calm

section CalmHandlers

open Reading

variable {h : Host Y} {who : Peer} {params : Json}

lemma calm_gateNodeWrite (name : String) (bytes : Bytes) (header : Option ContentParams) :
    Calm (gateNodeWrite h who params name bytes header) := by
  unfold gateNodeWrite
  split
  · split
    · exact moves_fail _
    · refine (calms.moves_requireAccess trivial _ _).bind fun _ => ?_
      split
      · exact (calms.moves_enforceEpochFenceOn trivial _ _ _ _ _).mapError _
      · exact moves_answer _
  · exact moves_answer _

lemma calm_handleKbList : Calm (handleKbList h who) :=
  (moves_look _).bind fun _ => (calms.moves_visibleKbs fun _ _ => trivial).reply

variable (kbId : String)

lemma calm_writeCollection (coll : Y.Doc) (ws : List Write) : Calm (writeCollection h who kbId coll ws) :=
  (calm_persistAndBroadcastCollection _ _).reply

lemma calm_mutateCollection (op : KbOp) (other : String) (writes : Root → Except McpError (List Write)) :
    Calm (mutateCollection h who kbId op other writes) :=
  (calms.moves_requireAccess trivial _ _).bind fun _ => ((calms.moves_loadedCollection trivial).mapError _).bind fun _ =>
    (moves_ofExcept _).bind fun _ => calm_writeCollection _ _ _

lemma calm_seedGenesis (signer : Key32) (coll : Y.Doc) : Calm (seedGenesis h who kbId signer coll) := by
  simp only [seedGenesis]
  split
  · exact calm_writeCollection _ _ _
  · exact moves_answer _

lemma calm_appendSignedMembership (coll : Y.Doc) (action : MembershipAction) (subject : String) (role : Option Role) :
    Calm (appendSignedMembership h who kbId coll action subject role) := by
  simp only [appendSignedMembership]
  split
  · exact moves_answer _
  · exact (calm_seedGenesis _ _ _).bind fun _ => (calm_writeCollection _ _ _).reply

lemma calm_handleKbSetPolicy : Calm (handleKbSetPolicy h who params) :=
  (moves_stringParam _).bind fun _ => (moves_ofOption _ _).bind fun _ =>
    (calm_mutateCollection _ _ _ _).reply

lemma calm_handleKbCollectionNodeAdd : Calm (handleKbCollectionNodeAdd h who params) :=
  (moves_stringParam _).bind fun _ => (moves_stringParam _).bind fun _ =>
    (calm_mutateCollection _ _ _ _).reply

lemma calm_handleKbCollectionNodeRemove : Calm (handleKbCollectionNodeRemove h who params) :=
  (moves_stringParam _).bind fun _ => (moves_stringParam _).bind fun _ =>
    (calm_mutateCollection _ _ _ _).reply

lemma calm_handleKbAddMember : Calm (handleKbAddMember h who params) :=
  (moves_stringParam _).bind fun _ => (moves_stringParam _).bind fun _ =>
    (calm_mutateCollection _ _ _ _).bind fun _ => (calm_appendSignedMembership _ _ _ _ _).reply

lemma calm_handleKbRemoveMember : Calm (handleKbRemoveMember h who params) :=
  (moves_stringParam _).bind fun _ => (moves_stringParam _).bind fun _ =>
    (calm_mutateCollection _ _ _ _).bind fun _ => (calm_appendSignedMembership _ _ _ _ _).reply

lemma calm_handleKbApproveMember : Calm (handleKbApproveMember h who params) :=
  (moves_stringParam _).bind fun _ => (moves_stringParam _).bind fun _ =>
    (calm_mutateCollection _ _ _ _).bind fun _ => (calm_appendSignedMembership _ _ _ _ _).reply

lemma calm_handleKbSetGovernance : Calm (handleKbSetGovernance h who params) :=
  (moves_stringParam _).bind fun _ => (moves_ofOption _ _).bind fun _ => (calms.moves_requireAccess trivial _ _).bind fun _ =>
    ((calms.moves_loadedCollection trivial).mapError _).bind fun _ => (moves_check _ _).bind fun _ =>
      (calm_appendSignedMembership _ _ _ _ _).reply

lemma calm_appendSignedRevoke (coll : Y.Doc) (subject : String) : Calm (appendSignedRevoke h who kbId coll subject) :=
  (moves_ofOption _ _).bind fun _ => (moves_check _ _).bind fun _ => (moves_check _ _).bind fun _ =>
    (moves_check _ _).bind fun _ => (calm_writeCollection _ _ _).reply

lemma calm_handleKbRevoke : Calm (handleKbRevoke h who params) :=
  (moves_stringParam _).bind fun _ => (moves_stringParam _).bind fun _ => (calms.moves_requireAccess trivial _ _).bind fun _ =>
    ((calms.moves_loadedCollection trivial).mapError _).bind fun _ => (calm_appendSignedRevoke _ _ _).reply

lemma calm_handleKbClaimLease : Calm (handleKbClaimLease h who params) := by
  refine (moves_stringParam _).bind fun _ => (moves_stringParam _).bind fun _ => (calms.moves_requireAccess trivial _ _).bind fun _ =>
    ((calms.moves_loadedCollection trivial).mapError _).bind fun coll => ?_
  simp only []
  split
  · exact (moves_answer _).bind fun _ => (moves_ofOption _ _).reply
  · exact (calm_writeCollection _ _ _).bind fun _ => (moves_ofOption _ _).reply

lemma calm_gateCollectionOp (bytes : Bytes) : Calm (gateCollectionOp h who kbId bytes) := by
  refine (calms.moves_access trivial .manage).attempt.bind fun manage => ?_
  split
  · refine (calms.moves_stateOf _).attempt.bind fun _ => ?_
    split
    · exact moves_answer _
    · exact moves_answer _
  · exact (calms.moves_stateOf _).attempt.bind fun _ => moves_ofExcept _

lemma calm_mirrorRebinds (coll : Y.Doc) (pairs : List (String × String)) :
    Calm (mirrorRebinds h who kbId coll pairs) := by
  induction pairs generalizing coll with
  | nil => exact moves_answer _
  | cons pair pairs ih => exact (calm_writeCollection _ _ _).bind fun coll' => ih coll'

lemma calm_handleKbCollectionOp : Calm (handleKbCollectionOp h who params) := by
  refine (moves_stringParam _).bind fun _ => (moves_bytesParam _ _).bind fun _ => (moves_check _ _).bind fun _ =>
    (calm_gateCollectionOp _ _).bind fun _ => (moves_ofExcept _).bind fun _ =>
      (calm_persistAndBroadcastCollection _ _).bind fun _ => Moves.bind (Moves.when ?_ _) fun _ => moves_pure _
  refine (calms.moves_loadedCollection trivial).attempt.bind fun r => ?_
  split
  · exact calm_mirrorRebinds _ _ _
  · exact moves_answer _

lemma calm_accessWithColl (op : KbOp) (loaded : Option Y.Doc) : Calm (accessWithColl h who kbId op loaded) := by
  unfold accessWithColl
  split
  · exact moves_answer _
  · exact calms.moves_access trivial _

lemma calm_onDecision (decision : AccessDecision) (other : String) :
    Calm (onDecision decision other : ServerHandler Y Unit) := by
  cases decision with
  | allow => exact moves_answer ()
  | deny message => exact moves_fail _
  | allowAutoJoin => exact moves_fail _
  | pending => exact moves_fail _

lemma calm_stateOfAuthorized (name : String) : Calm (stateOfAuthorized h name) := by
  refine calm_onDocuments fun docs => ⟨?_, retains_of_eq (storage_getOrCreate h.toEnv true name docs)⟩
  funext other
  exact (count_getOrCreate h.toEnv true name other docs).1

lemma calm_announceTransport (transport : Option String) : Calm (announceTransport h who kbId transport) := by
  refine (calms.moves_loadedCollection trivial).attempt.bind fun r => ?_
  split
  · exact moves_answer _
  · exact (calm_persistAndBroadcastCollection _ _).when _

lemma calm_addForwarded (coll : Y.Doc) (requests : List (String × Json)) :
    Calm (addForwarded h who kbId coll requests) := by
  induction requests generalizing coll with
  | nil => exact moves_answer _
  | cons request requests ih => exact (calm_writeCollection _ _ _).bind fun coll' => ih coll'

lemma calm_forwardPending : Calm (forwardPending h who kbId params) := by
  refine Moves.when ?_ _
  refine (calms.moves_loadedCollection trivial).attempt.bind fun r => ?_
  split
  · exact moves_answer _
  · exact calm_addForwarded _ _ _

lemma calm_writeForCaller (writes : String → String → Root → List Write) : Calm (writeForCaller h who kbId writes) := by
  unfold writeForCaller
  split
  · exact moves_answer _
  · refine (calms.moves_loadedCollection trivial).attempt.bind fun r => ?_
    split
    · exact moves_answer _
    · exact (calm_writeCollection _ _ _).reply

lemma calm_settleJoin : Calm (settleJoin h who kbId params) := by
  refine ((calms.moves_access trivial .join).mapError _).bind fun decision => ?_
  split
  · exact moves_pure _
  · exact (calm_writeForCaller _ _).reply
  · exact (calm_writeForCaller _ _).reply
  · exact moves_fail _

lemma calm_handleSyncTool (tool : String) (arguments : Json) : Calm (handleSyncTool h tool arguments) := by
  unfold handleSyncTool
  split_ifs
  · exact moves_answer _
  · exact (calms.moves_stateOf _).reply
  · exact (moves_ofExcept _).bind fun _ => (calm_applyBytes _ _).bind fun _ => (calm_enqueue _ _).reply
  · exact (calms.moves_stateOf _).reply
  · exact moves_fail _

lemma calm_subscribeTypes : Calm (subscribeTypes who params : ServerHandler Y Unit) := by
  unfold subscribeTypes
  split
  · exact moves_answer _
  · exact calm_onClient _ fun _ => rfl

lemma calm_handleRequest (msg : String) : Calm (handleRequest h who msg) := by
  refine (moves_ofOption _ _).bind fun request => ?_
  unfold serveRequest
  split
  · split
    · refine (calm_handleSyncTool _ _).attempt.bind fun r => ?_
      split
      · exact moves_pure _
      · exact moves_pure _
    · exact (calm_handleSyncTool _ _).mapError _
  · split_ifs
    · exact calm_subscribeTypes.reply
    · exact moves_answer _
    · exact moves_fail _

end CalmHandlers

end Mae.Daemon
