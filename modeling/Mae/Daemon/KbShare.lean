import Mae.Daemon.Access

/-! `kb/share`, and what it does to a KB that someone owns. -/

namespace Mae.Daemon

open Sync Sync.Membership Function

structure SharedNode (Y : Yrs) where
  id : Option String
  state : Option (Payload Y)

/-- A parameter is `none` if it is absent or not of its JSON type. -/
structure ShareRequest (Y : Yrs) where
  principal : Option String
  label : Option String
  kbId : Option String
  creator : Option String
  collectionState : Option (Payload Y)
  transport : Option String
  nodes : List (SharedNode Y)

structure ShareReply (Y : Yrs) where
  kbId : String
  nodeCount : ℕ
  collectionState : Option Y.Update

variable {Y : Yrs} (env : Env Y) (kbId : String) (principal : Option String)

def refuseIfOwnedByAnother (s : Documents Y) : Documents Y × Except McpError Unit :=
  match principal with
  | none => (s, .ok ())
  | some principal =>
    match s.loadCollection env kbId with
    | (s, .ok existing) =>
      let owner := (Y.root existing).owner
      if owner ≠ "" ∧ owner ≠ principal then
        (s, .error ⟨.kbIdOwnedByAnother, s!"KB id '{kbId}' is already shared by a different owner; " ++
          "choose a different id (its collection and membership are not yours to re-share)"⟩)
      else (s, .ok ())
    | (s, .error e) =>
      (s, .error ⟨.internalError, s!"KB id '{kbId}' has an existing collection that cannot be decoded: {e}"⟩)

def bindOwner (label : String) (u : Y.Update) : Y.Update :=
  match principal with
  | some principal =>
    let coll := Y.apply Y.blank u
    Y.encode (Y.transact coll ((Y.root coll).setOwner principal label env.freshEpochToken))
  | none => u

def shareCollection (label : String) (payload : Payload Y) (s : Documents Y) : Documents Y × Except McpError Unit :=
  if s.hasDoc (collectionDocName kbId) then refuseIfOwnedByAnother env kbId principal s
  else
    match payload with
    | .update u => (s.shareDoc env (collectionDocName kbId) (bindOwner env principal label u), .ok ())
    | .undecodable e | .badBase64 e =>
      (s, .error ⟨.internalError, s!"failed to share collection doc: sqlite: invalid update: {e}"⟩)

def widenTransport (transport : Option String) (s : Documents Y) : Documents Y :=
  let requested := (transport.bind TransportPolicy.parse).getD .hub
  match s.loadCollection env kbId with
  | (s, .ok coll) =>
    let raw := (Y.root coll).transportPolicyRaw
    let new := raw.elim requested fun policy => policy.union requested
    if some new ≠ raw then
      s.applyUpdate env (collectionDocName kbId) (Y.record coll (Root.setTransportPolicy new))
    else s
  | (s, .error _) => s

def shareNode (state : Documents Y × ℕ) (node : SharedNode Y) : Documents Y × ℕ :=
  match node.id, node.state with
  | some nodeId, some (.update u) =>
    let name := kbNodeDocName kbId nodeId
    let s := if state.1.hasDoc name then state.1.applyUpdate env name u else state.1.shareDoc env name u
    (s.trackClientConnect env name, state.2 + 1)
  | _, _ => state

/-- `kb/share` once its parameters have been read. -/
def shareKb (env : Env Y) (req : ShareRequest Y) (kbId : String) (payload : Payload Y) (s : Documents Y) :
    Documents Y × Except McpError (ShareReply Y) :=
  match shareCollection env kbId req.principal (req.label.getD (req.creator.getD "")) payload s with
  | (s, .error e) => (s, .error e)
  | (s, .ok ()) =>
    let s := s.trackClientConnect env (collectionDocName kbId)
    let s := widenTransport env kbId req.transport s
    let shared := req.nodes.foldl (shareNode env kbId) (s, 0)
    let reply := shared.1.encodeState env (collectionDocName kbId)
    (reply.1, .ok ⟨kbId, shared.2, reply.2⟩)

def handleKbShare (req : ShareRequest Y) (s : Documents Y) : Documents Y × Except McpError (ShareReply Y) :=
  match refuseUnaddressableKbId req.kbId with
  | .error e => (s, .error e)
  | .ok () =>
    match req.kbId with
    | none => (s, .error ⟨.parseError, "missing 'kb_id' field"⟩)
    | some kbId =>
      match req.collectionState with
      | none => (s, .error ⟨.parseError, "missing 'collection_state' field"⟩)
      | some (.badBase64 e) => (s, .error ⟨.parseError, s!"invalid collection_state base64: {e}"⟩)
      | some payload => shareKb env req kbId payload s

inductive StoreEvent (Y : Yrs) where
  | share (req : ShareRequest Y)
  | load (name : String)
  | disconnect (name : String)
  | evictIdle (name : String)
  | restart

namespace Documents

def step (env : Env Y) (s : Documents Y) : StoreEvent Y → Documents Y
  | .share req => (handleKbShare env req s).1
  | .load name => (s.encodeState env name).1
  | .disconnect name => s.trackClientDisconnect env name
  | .evictIdle name => s.evictIdle name
  | .restart => s.restart

inductive Reachable : Documents Y → Prop
  | start (storage : String → Option Y.Doc) : Reachable ⟨storage, fun _ => none⟩
  | step {s} (env : Env Y) (ev : StoreEvent Y) (h : Reachable s) : Reachable (s.step env ev)

end Documents

def keptMaps : List String := ["member_roles", "pending", "membership_oplog"]

def Keeps (before after : Root) : Prop :=
  ∀ key ∈ keptMaps, ∀ (sub : String) (item : Item), (before.entries key)[sub]? = some item → (after.entries key)[sub]? = some item

section Coherence

variable {s : Documents Y} (h : s.Coherent) (env : Env Y) (kbId : String) (req : ShareRequest Y)
  (principal : Option String) (payload : Payload Y)

open Documents

lemma handleKbShare_cases (s : Documents Y) :
    (handleKbShare env req s).1 = s ∨ ∃ kbId payload, req.kbId = some kbId ∧ kbIdIsAddressable kbId = true ∧
      handleKbShare env req s = shareKb env req kbId payload s := by
  rw [handleKbShare]
  cases hkb : req.kbId with
  | none => exact .inl rfl
  | some kbId =>
    by_cases haddr : kbIdIsAddressable kbId = true
    · simp only [refuseUnaddressableKbId, haddr, if_true]
      split
      · exact .inl rfl
      · exact .inl rfl
      · next payload _ _ => exact .inr ⟨kbId, payload, rfl, haddr, rfl⟩
    · simp only [refuseUnaddressableKbId, haddr]
      exact .inl rfl

/-- What holds of the store stays true while it is read, and while documents with a name in `N` are written. -/
structure Documents.Survives (env : Env Y) (N : String → Prop) (P : Documents Y → Prop) : Prop where
  state : ∀ s name, P s → P (s.encodeState env name).1
  count : ∀ s name f, P s → P (s.countClients env name f)
  apply : ∀ s name u, N name → P s → P (s.applyUpdate env name u)
  share : ∀ s name u, N name → P s → P (s.shareDoc env name u)

namespace Documents.Survives

variable {env kbId} {N : String → Prop} {P : Documents Y → Prop} (hP : Survives env N P) (hs : P s)
include hP hs

lemma shareNodes (hnodes : ∀ nodeId, N (kbNodeDocName kbId nodeId)) (nodes : List (SharedNode Y)) (n : ℕ) :
    P (nodes.foldl (shareNode env kbId) (s, n)).1 := by
  induction nodes generalizing s n with
  | nil => exact hs
  | cons node nodes ih =>
    rw [List.foldl_cons, shareNode]
    split
    · next nodeId u _ _ =>
      refine ih (hP.count _ _ _ ?_) _
      split
      · exact hP.apply _ _ _ (hnodes nodeId) hs
      · exact hP.share _ _ _ (hnodes nodeId) hs
    · exact ih hs n

variable (hN : N (collectionDocName kbId))
include hN

lemma loadCollection : P (s.loadCollection env kbId).1 :=
  loadCollection_induct env kbId hs (hP.state _ _ hs) fun _ u => hP.apply _ _ u hN

lemma shareCollection (label : String) : P (shareCollection env kbId principal label payload s).1 := by
  have hload := hP.loadCollection hs hN
  rw [Mae.Daemon.shareCollection.eq_def]
  split
  · cases principal with
    | none => exact hs
    | some principal =>
      simp only [refuseIfOwnedByAnother]
      split
      · next heq =>
        rw [heq] at hload
        split <;> exact hload
      · next heq =>
        rw [heq] at hload
        exact hload
  · split
    · exact hP.share _ _ _ hN hs
    · exact hs
    · exact hs

lemma widenTransport (transport : Option String) : P (widenTransport env kbId transport s) := by
  have hload := hP.loadCollection hs hN
  simp only [Mae.Daemon.widenTransport]
  split
  · next heq =>
    rw [heq] at hload
    split
    · exact hP.apply _ _ _ hN hload
    · exact hload
  · next heq =>
    rw [heq] at hload
    exact hload

lemma shareKb (hnodes : ∀ nodeId, N (kbNodeDocName kbId nodeId)) : P (shareKb env req kbId payload s).1 := by
  have hshare := hP.shareCollection req.principal payload hs hN (req.label.getD (req.creator.getD ""))
  simp only [Mae.Daemon.shareKb]
  split
  · next heq =>
    rw [heq] at hshare
    exact hshare
  · next s' heq =>
    rw [heq] at hshare
    exact hP.state _ _ (hP.shareNodes (hP.widenTransport (hP.count _ _ _ hshare) hN _) hnodes _ _)

end Documents.Survives

lemma Documents.survives_coherent : Survives env (fun _ => True) (Coherent (Y := Y)) where
  state _ name h := h.encodeState env name
  count _ name f h := h.countClients env name f
  apply _ name u _ h := h.applyUpdate env name u
  share _ name u _ h := h.shareDoc env name u

lemma Documents.survives_storage (name : String) (doc : Option Y.Doc) :
    Survives env (name ≠ ·) fun s => s.storage name = doc where
  state s other h := by rw [storage_encodeState, h]
  count s other f h := by rw [storage_countClients, h]
  apply s other u hne h := by rw [storage_applyUpdate, update_of_ne hne, h]
  share s other u hne h := by rw [storage_shareDoc, update_of_ne hne, h]

include h

lemma Coherent.handleKbShare : (handleKbShare env req s).1.Coherent := by
  rcases handleKbShare_cases env req s with hsame | ⟨kbId, payload, -, -, hshare⟩
  · rw [hsame]
    exact h
  · rw [hshare]
    exact (survives_coherent env).shareKb req payload h trivial fun _ => trivial

lemma Coherent.evictIdle (name : String) : (s.evictIdle name).Coherent := by
  rw [Documents.evictIdle]
  split
  · split
    · split
      · exact h.forget name
      · intro other e he
        by_cases hname : other = name
        · simp [hname] at he
        · simp only [docs_forget, update_of_ne hname] at he
          rw [h other e he]
          simp [hname]
    · exact h
  · exact h

omit h in
lemma Documents.Reachable.coherent (h : s.Reachable) : s.Coherent := by
  induction h with
  | start storage => intro name e he; cases he
  | step env ev _ ih =>
    cases ev with
    | share req => exact Coherent.handleKbShare ih env req
    | load name => exact ih.encodeState env name
    | disconnect name => exact ih.countClients env name _
    | evictIdle name => exact Coherent.evictIdle ih name
    | restart => intro name e he; cases he

end Coherence

lemma Keeps.refl (root : Root) : Keeps root root := fun _ _ _ _ h => h

lemma keeps_setTransportPolicy (root : Root) (policy : TransportPolicy) :
    Keeps root (root.writes (Root.setTransportPolicy policy)) := by
  intro key hkey sub item hitem
  have hne : "transport_policy" ≠ key := by
    rintro rfl
    exact absurd hkey (by decide)
  have hcell : (root.writes (Root.setTransportPolicy policy))[key]? = root[key]? := by
    simp [Root.writes, Root.setTransportPolicy, Root.write, Std.ExtTreeMap.getElem?_insert, hne]
  rw [Root.entries, hcell]
  exact hitem

section Resident

variable {env : Env Y} {s : Documents Y} {kbId : String} {d : Y.Doc}

open Documents

variable (h : s.Coherent) (hd : s.storage (collectionDocName kbId) = some d) (hcurrent : Current env d)
include h hd hcurrent

lemma refuseIfOwnedByAnother_stored (principal : String) :
    (refuseIfOwnedByAnother env kbId (some principal) s).1.storage = s.storage ∧
      (refuseIfOwnedByAnother env kbId (some principal) s).1.Coherent ∧
      ((refuseIfOwnedByAnother env kbId (some principal) s).2 = .ok () ↔
        (Y.root d).owner = "" ∨ (Y.root d).owner = principal) := by
  obtain ⟨hload, hstorage, hcoherent⟩ := loadCollection_stored h hd hcurrent
  simp only [refuseIfOwnedByAnother]
  generalize s.loadCollection env kbId = r at *
  obtain ⟨s', r⟩ := r
  subst hload
  dsimp only
  split
  · next howner => exact ⟨hstorage, hcoherent, by simpa using howner⟩
  · next howner => exact ⟨hstorage, hcoherent, by simpa [Decidable.or_iff_not_imp_left] using howner⟩

lemma widenTransport_stored (transport : Option String) :
    ∃ d', (widenTransport env kbId transport s).storage (collectionDocName kbId) = some d' ∧
      Keeps (Y.root d) (Y.root d') := by
  obtain ⟨hload, hstorage, -⟩ := loadCollection_stored h hd hcurrent
  simp only [widenTransport]
  generalize s.loadCollection env kbId = r at *
  obtain ⟨s', r⟩ := r
  subst hload
  dsimp only
  split
  · rw [storage_applyUpdate, update_self, hstorage, hd]
    refine ⟨_, rfl, ?_⟩
    rw [Option.getD_some, Y.root_record]
    exact keeps_setTransportPolicy _ _
  · exact ⟨d, by rw [hstorage, hd], .refl _⟩

variable (hdoc : s.hasDoc (collectionDocName kbId) = true) {req : ShareRequest Y}
include hdoc

lemma shareKb_of_other {principal : String} (hp : req.principal = some principal) (howner : (Y.root d).owner ≠ "")
    (hother : principal ≠ (Y.root d).owner) (payload : Payload Y) :
    (shareKb env req kbId payload s).1.storage = s.storage := by
  obtain ⟨hstorage, -, hok⟩ := refuseIfOwnedByAnother_stored h hd hcurrent principal
  have hrefused : (refuseIfOwnedByAnother env kbId (some principal) s).2 ≠ .ok () := by
    rw [Ne, hok]
    exact not_or.mpr ⟨howner, hother.symm⟩
  simp only [shareKb, shareCollection.eq_def, hdoc, if_true, hp]
  split
  · next heq =>
    rw [heq] at hstorage
    exact hstorage
  · next heq =>
    rw [heq] at hrefused
    exact absurd rfl hrefused

lemma shareKb_of_owner (hp : req.principal = some (Y.root d).owner) (payload : Payload Y) :
    ∃ d', (shareKb env req kbId payload s).1.storage (collectionDocName kbId) = some d' ∧
      Keeps (Y.root d) (Y.root d') := by
  obtain ⟨hstorage, hcoherent, hok⟩ := refuseIfOwnedByAnother_stored h hd hcurrent (Y.root d).owner
  have haccepted := hok.mpr (.inr rfl)
  simp only [shareKb, shareCollection.eq_def, hdoc, if_true, hp]
  split
  · next heq =>
    rw [heq] at haccepted
    cases haccepted
  · next s' heq =>
    rw [heq] at hstorage hcoherent
    have hconnected : (s'.trackClientConnect env (collectionDocName kbId)).storage (collectionDocName kbId) = some d := by
      rw [trackClientConnect, storage_countClients, hstorage, hd]
    obtain ⟨d', hd', hkeeps⟩ := widenTransport_stored (hcoherent.countClients env _ _) hconnected hcurrent req.transport
    rw [storage_encodeState]
    refine ⟨d', (survives_storage env _ _).shareNodes hd' (fun nodeId => ?_) req.nodes 0, hkeeps⟩
    exact (kbNodeDocName_ne_collectionDocName kbId nodeId kbId).symm

end Resident

lemma of_kbIdIsAddressable {kbId : String} (h : kbIdIsAddressable kbId = true) : kbId ≠ "" ∧ ':' ∉ kbId.toList := by
  simpa [kbIdIsAddressable] using h

open Documents in
theorem kb_share_keeps_first_owner {s : Documents Y} (hs : s.Reachable) (env : Env Y) (req : ShareRequest Y)
    (kb : String) (d : Y.Doc) (hd : s.storage (collectionDocName kb) = some d) (howner : (Y.root d).owner ≠ "")
    (hresident : req.kbId = some kb → s.hasDoc (collectionDocName kb) = true ∧ Current env d) :
    (∀ principal, req.principal = some principal → principal ≠ (Y.root d).owner →
      (handleKbShare env req s).1.storage (collectionDocName kb) = some d ∧
        ∀ name nodeId, DocAddress.parse name = some (.kbNode kb nodeId) →
          (handleKbShare env req s).1.storage name = s.storage name) ∧
      (req.principal = some (Y.root d).owner →
        ∃ d', (handleKbShare env req s).1.storage (collectionDocName kb) = some d' ∧
          Keeps (Y.root d) (Y.root d')) := by
  rcases handleKbShare_cases env req s with hsame | ⟨kbId, payload, hkb, haddr, hshare⟩
  · rw [hsame]
    exact ⟨fun _ _ _ => ⟨hd, fun _ _ _ => rfl⟩, fun _ => ⟨d, hd, .refl _⟩⟩
  · rw [hshare]
    by_cases hsame : kbId = kb
    · subst hsame
      obtain ⟨hdoc, hcurrent⟩ := hresident hkb
      constructor
      · intro principal hp hother
        rw [shareKb_of_other hs.coherent hd hcurrent hdoc hp howner hother]
        exact ⟨hd, fun _ _ _ => rfl⟩
      · exact fun hp => shareKb_of_owner hs.coherent hd hcurrent hdoc hp payload
    · -- a share of another KB
      have hcoll : (shareKb env req kbId payload s).1.storage (collectionDocName kb) = some d :=
        (survives_storage env _ _).shareKb req payload hd (fun h => hsame (collectionDocName_injective h).symm)
          fun nodeId => (kbNodeDocName_ne_collectionDocName kbId nodeId kb).symm
      refine ⟨fun _ _ _ => ⟨hcoll, fun name nodeId hname => ?_⟩, fun _ => ⟨d, hcoll, .refl _⟩⟩
      apply (survives_storage env name _).shareKb req payload rfl
      · rintro rfl
        rw [DocAddress.parse_collectionDocName kbId (of_kbIdIsAddressable haddr).1] at hname
        cases hname
      · rintro nodeId' rfl
        rw [DocAddress.parse_kbNodeDocName kbId nodeId' (of_kbIdIsAddressable haddr).2] at hname
        split_ifs at hname
        cases hname
        exact hsame rfl

def sampleEnv : Env .sample where
  C := .sample
  authorizedKeys := none
  anchor _ := none
  view _ := {}
  signer := none
  now := 0
  freshEpochToken := 7
  pickLru _ := none

def sampleShare (principal : String) : ShareRequest .sample where
  principal := some principal
  label := none
  kbId := some "notes"
  creator := none
  collectionState := some (.update [((1, 0), [.put "name" "notes", .newMap "nodes"])])
  transport := none
  nodes := []

def sampleShared : Documents .sample :=
  Documents.step sampleEnv ⟨fun _ => none, fun _ => none⟩ (.share (sampleShare "alice"))

theorem share_by_mallory_is_refused :
    ∃ d, sampleShared.storage (collectionDocName "notes") = some d ∧ (Yrs.sample.root d).owner = "alice" ∧
      (handleKbShare sampleEnv (sampleShare "mallory") sampleShared).1.storage (collectionDocName "notes") = some d := by
  have hstored : (sampleShared.storage (collectionDocName "notes")).any
      (fun d => (Yrs.sample.root d).owner = "alice") = true := by decide +kernel
  obtain ⟨d, hd, howner⟩ := (Option.any_eq_true _ _).mp hstored
  have howner := of_decide_eq_true howner
  refine ⟨d, hd, howner, ?_⟩
  have hkeeps := kb_share_keeps_first_owner (.step sampleEnv _ (.start _)) sampleEnv (sampleShare "mallory") "notes" d hd
    (by rw [howner]; decide) fun _ => ⟨by decide +kernel, .inl rfl⟩
  exact (hkeeps.1 "mallory" rfl (by rw [howner]; decide)).1

def sampleStored : String → Option Yrs.SampleDoc :=
  Function.update (fun _ => none) (collectionDocName "notes") <| some <| Yrs.sample.apply Yrs.sample.blank
    [((1, 0), [.put "owner" "alice", .newMap "member_roles", .putRecord "member_roles" "bob" [("role", "editor")]])]

theorem share_after_restart_takes_over :
    ((sampleShared.restart.storage (collectionDocName "notes")).map fun d => (Yrs.sample.root d).owner) = some "alice" ∧
      (((handleKbShare sampleEnv (sampleShare "mallory") sampleShared.restart).1.storage (collectionDocName "notes")).map
        fun d => (Yrs.sample.root d).owner) = some "mallory" ∧
      ((sampleStored (collectionDocName "notes")).bind fun d => (Yrs.sample.root d).roleOf "bob") = some .editor ∧
      (((handleKbShare sampleEnv (sampleShare "alice") ⟨sampleStored, fun _ => none⟩).1.storage
        (collectionDocName "notes")).map fun d => (Yrs.sample.root d).roleOf "bob") = some none := by
  decide +kernel

end Mae.Daemon
