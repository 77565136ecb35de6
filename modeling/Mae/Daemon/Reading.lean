import Mae.Daemon.Dispatch

/-! The handlers that only read: they stay within whatever the loads of documents and the broadcasts stay within. -/

namespace Mae.Daemon

open Library Handler Sync Sync.Membership

variable {Y : Yrs}

lemma kbOf_ne_empty {name kbId : String} (h : kbOf name = some kbId) : kbId ≠ "" := by
  obtain ⟨address, hparse, hkb⟩ := Option.bind_eq_some_iff.mp h
  rw [DocAddress.parse] at hparse
  split at hparse
  · next rest _ =>
    obtain ⟨⟨projectHash, relPath⟩, -, hfile⟩ := Option.bind_eq_some_iff.mp hparse
    dsimp only at hfile
    split_ifs at hfile
    cases hfile
    cases hkb
  · split at hparse
    · split_ifs at hparse with hrest
      cases hparse
      cases hkb
      intro hempty
      exact hrest (by simpa using congrArg String.toList hempty)
    · split at hparse
      · obtain ⟨⟨kb, nodeId⟩, -, hnode⟩ := Option.bind_eq_some_iff.mp hparse
        dsimp only at hnode
        split_ifs at hnode with hfilled
        cases hnode
        cases hkb
        exact (not_or.mp hfilled).1
      · split at hparse
        · split_ifs at hparse
          cases hparse
          cases hkb
        · cases hparse

lemma kbOf_of_collection {name kbId : String} (h : DocAddress.parse name = some (.kbCollection kbId)) :
    kbOf name = some kbId := by
  rw [kbOf, h]
  rfl

lemma kbOf_of_node {name kbId nodeId : String} (h : DocAddress.parse name = some (.kbNode kbId nodeId)) :
    kbOf name = some kbId := by
  rw [kbOf, h]
  rfl

def Named (K : String → Prop) (params : Json) : Prop := ∀ kbId, (params.field "kb_id").asStr = some kbId → K kbId

structure Reading (h : Host Y) (K : String → Prop) (R : Server Y → Server Y → Prop) : Prop where
  named : ∀ kbId, kbId ≠ "" → K kbId
  state : ∀ (s : Server Y) (name : String), R s { s with documents := (s.documents.encodeState h.toEnv name).1 }
  collection : ∀ (s : Server Y) (kbId : String), K kbId →
    R s { s with documents := (s.documents.loadCollection h.toEnv kbId).1 }
  tells : ∀ (s : Server Y) (event : EditorEvent Y) (recipient : Client → Bool), R s (s.enqueue event recipient)

namespace Reading

variable {h : Host Y} {K : String → Prop} {R : Server Y → Server Y → Prop} [Std.Refl R] {who : Peer} {kbId : String}
  {params : Json} (hR : Reading h K R)

lemma moves_stringParam (key : String) : (stringParam params key).Moves R := moves_ofOption _ _

include hR

omit [Std.Refl R] in
lemma moves_stateOf (name : String) : (stateOf h name).Moves R := fun s => hR.state s name

omit [Std.Refl R] in
lemma moves_loadedCollection (hkb : K kbId) : (loadedCollection h kbId).Moves R := fun s => hR.collection s kbId hkb

omit [Std.Refl R] in
lemma moves_broadcastExcept (event : EditorEvent Y) : (broadcastExcept who event).Moves R := fun s => hR.tells s event _

lemma moves_collectionOr (hkb : K kbId) (loaded : Option Y.Doc) : (collectionOr h kbId loaded).Moves R := by
  cases loaded with
  | some coll => exact moves_answer coll
  | none => exact hR.moves_loadedCollection hkb

lemma moves_access (hkb : K kbId) (op : KbOp) : (access h who kbId op).Moves R := by
  intro s
  have hload := hR.collection s kbId hkb
  rw [access, onDocuments]
  cases who.principal with
  | none => exact refl s
  | some principal =>
    rw [kbAccess]
    generalize s.documents.loadCollection h.toEnv kbId = r at hload
    obtain ⟨docs, e | coll⟩ := r
    · exact hload
    · exact hload

variable [IsTrans (Server Y) R]

lemma moves_requireAccess (hkb : K kbId) (op : KbOp) (other : String) : (requireAccess h who kbId op other).Moves R := by
  refine ((hR.moves_access hkb op).mapError _).bind fun decision => ?_
  split
  · exact moves_answer ()
  · exact moves_fail _
  · exact moves_fail _
  · exact moves_fail _

lemma moves_requireRead (hkb : K kbId) : (requireRead h who kbId).Moves R := by
  refine ((hR.moves_access hkb .read).mapError _).bind fun decision => ?_
  split
  · exact moves_answer ()
  · exact moves_answer ()
  · exact moves_fail _
  · exact moves_fail _

lemma moves_denyKbDocRead (name : String) : (denyKbDocRead h who name).Moves R := by
  unfold denyKbDocRead
  split
  · next hname =>
    have hkb := hR.named _ (kbOf_ne_empty (kbOf_of_collection hname))
    exact ((hR.moves_access hkb _).mapError _).bind fun _ => moves_check _ _
  · exact moves_fail _
  · exact moves_answer ()

omit hR in
lemma moves_bytesParam (key what : String) : (bytesParam h params key what).Moves R :=
  (moves_stringParam key).bind fun _ => moves_ofExcept _

lemma moves_resolveContentAnchor (hkb : K kbId) (loaded : Option Y.Doc) : (resolveContentAnchor h kbId loaded).Moves R := by
  unfold resolveContentAnchor
  split
  · exact moves_answer _
  · exact moves_answer _
  · refine (hR.moves_collectionOr hkb loaded).attempt.bind fun r => ?_
    split
    · exact moves_answer _
    · exact moves_answer _

lemma moves_verifyContentOp (hkb : K kbId) (anchor : Key32) (signed : SignedContentOp) (loaded : Option Y.Doc) :
    (verifyContentOp h kbId anchor signed loaded).Moves R :=
  (hR.moves_collectionOr hkb loaded).bind fun _ => moves_ofExcept _

lemma moves_verifyHeader (hkb : K kbId) (nodeId : String) (anchor : Key32) (bytes : Bytes) (header : Option Json)
    (required : Bool) : (verifyHeader h kbId nodeId anchor bytes header required).Moves R := by
  unfold verifyHeader
  split
  · split
    · exact moves_fail _
    · exact moves_answer _
  · exact (moves_ofOption _ _).bind fun _ => (hR.moves_verifyContentOp hkb _ _ _).reply

lemma moves_relayedHeader (hparams : Named K params) (name : String) (bytes : Bytes) :
    (relayedHeader h who params name bytes).Moves R := by
  unfold relayedHeader
  split
  · next kbId hkb =>
    refine Moves.mapError ?_ _
    unfold verifyRelayedContentOp
    split
    · refine (hR.moves_resolveContentAnchor (hparams kbId hkb) none).bind fun anchor => ?_
      split
      · exact hR.moves_verifyHeader (hparams kbId hkb) _ _ _ _ _
      · exact moves_answer _
    · exact moves_answer _
  · exact moves_answer _

lemma moves_enforceEpochFenceOn (hkb : K kbId) (nodeId name : String) (bytes : Bytes) (author : String)
    (loaded : Option Y.Doc) : (enforceEpochFenceOn h kbId nodeId name bytes author loaded).Moves R := by
  refine ((hR.moves_collectionOr hkb loaded).mapError _).bind fun coll => ?_
  refine (hR.moves_stateOf name).attempt.bind fun state => ?_
  split
  · exact moves_answer _
  · refine (moves_ofExcept _).bind fun u => ?_
    split
    · exact moves_fail _
    · exact moves_answer _

lemma moves_nodeUpdateHeader (hkb : K kbId) (bytes : Bytes) (loaded : Option Y.Doc) :
    (nodeUpdateHeader h params kbId bytes loaded).Moves R := by
  refine ((hR.moves_resolveContentAnchor hkb loaded).mapError _).bind fun anchor => ?_
  split
  · refine (hR.moves_verifyContentOp hkb _ _ _).attempt.bind fun r => ?_
    split
    · exact moves_answer _
    · split
      · exact moves_fail _
      · exact moves_answer _
  · exact moves_answer _

lemma moves_requireNodeInKb (hkb : K kbId) (nodeId : String) (loaded : Option Y.Doc) :
    (requireNodeInKb h kbId nodeId loaded).Moves R :=
  ((hR.moves_collectionOr hkb _).mapError _).bind fun _ => moves_check _ _

lemma moves_gateRebirthOn (hkb : K kbId) (nodeId : String) (bytes : Bytes) (loaded : Option Y.Doc) :
    (gateRebirthOn h kbId nodeId bytes loaded).Moves R :=
  (hR.moves_collectionOr hkb _).attempt.bind fun _ => moves_ofExcept _

lemma moves_handleSyncStateVector : (handleSyncStateVector h who params).Moves R :=
  (hR.moves_denyKbDocRead _).bind fun _ => ((hR.moves_stateOf _).mapError _).reply

lemma moves_handleSyncDiff : (handleSyncDiff h who params).Moves R :=
  (hR.moves_denyKbDocRead _).bind fun _ => (moves_bytesParam _ _).bind fun _ =>
    ((hR.moves_stateOf _).mapError _).reply

lemma moves_handleDocsRead : (handleDocsRead h params).Moves R :=
  ((hR.moves_stateOf _).mapError _).reply

lemma moves_handleDocsSaveIntent : (handleDocsSaveIntent h params).Moves R :=
  (moves_stringParam _).bind fun _ => ((hR.moves_stateOf _).mapError _).reply

lemma moves_handleDocsSaveCommitted : (handleDocsSaveCommitted h who params).Moves R :=
  (hR.moves_stateOf _).attempt.bind fun _ => (hR.moves_broadcastExcept _).reply

lemma moves_visibleKbs {kbIds : List String} (hkbs : ∀ kbId ∈ kbIds, K kbId) : (visibleKbs h who kbIds).Moves R := by
  induction kbIds with
  | nil => exact moves_answer _
  | cons kbId kbIds ih =>
    obtain ⟨hkb, hrest⟩ := List.forall_mem_cons.mp hkbs
    exact (hR.moves_access hkb _).attempt.bind fun _ => (ih hrest).reply

lemma moves_handleKbListPending (hparams : Named K params) : (handleKbListPending h who params).Moves R :=
  moves_ofOption_bind fun kbId hkb => (hR.moves_requireAccess (hparams kbId hkb) _ _).bind fun _ =>
    ((hR.moves_loadedCollection (hparams kbId hkb)).mapError _).reply

lemma moves_handleKbFetchArtifact (hparams : Named K params) : (handleKbFetchArtifact h who params).Moves R := by
  refine moves_ofOption_bind fun kbId hkb => ?_
  refine (moves_stringParam _).bind fun _ => (moves_stringParam _).bind fun _ => ?_
  refine (hR.moves_requireAccess (hparams kbId hkb) _ _).bind fun _ => ?_
  refine ((hR.moves_loadedCollection (hparams kbId hkb)).mapError _).bind fun coll => ?_
  split
  · refine (moves_ofExcept _).bind fun artifact => ?_
    split
    · exact moves_pure _
    · exact moves_pure _
  · exact moves_pure _

lemma moves_readNodes (kbId : String) (nodeIds : List String) : (readNodes h kbId nodeIds).Moves R :=
  moves_each (fun _ => (hR.moves_stateOf _).attempt.reply) nodeIds

lemma moves_handleKbQuery (hparams : Named K params) (method : String) : (handleKbQuery h who method params).Moves R := by
  refine moves_ofOption_bind fun kbId hkb => (hR.moves_requireRead (hparams kbId hkb)).bind fun _ => ?_
  refine ((hR.moves_loadedCollection (hparams kbId hkb)).mapError _).bind fun _ => ?_
  refine ((hR.moves_resolveContentAnchor (hparams kbId hkb) _).mapError _).bind fun _ => ?_
  exact (hR.moves_readNodes _ _).reply

omit hR in
lemma moves_handleKbQuerySelfToken : (handleKbQuerySelfToken h who).Moves R :=
  (moves_ofOption _ _).bind fun _ => (moves_ofOption _ _).bind fun _ => (moves_ofExcept _).reply

omit hR in
lemma moves_handleKbBlockUnblockPrincipal (block : Bool) : (handleKbBlockUnblockPrincipal block params).Moves R :=
  (moves_ofOption _ _).bind fun _ => (moves_ofOption _ _).reply

end Reading

end Mae.Daemon
