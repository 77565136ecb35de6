import Mae.Kb.Indexes

/-! What becomes of a document that arrives: merged into a node that is there, or made a node of its own. -/

namespace Mae.Kb

open Std (ExtTreeMap)
open Library Sync Sync.Membership NodeDoc Std.ExtTreeMap Option KnowledgeBase KbNodeDoc

structure Shown where
  title : String
  body : String
  tags : List String
  kind : NodeKind
  todoState : Option String
  priority : Option Char
  aliases : List String
  properties : ExtTreeMap String String
  source : Option NodeSource
deriving DecidableEq

def Node.shown {Wire : Type} (n : Node Wire) : Shown where
  title := n.title
  body := n.body
  tags := n.tags
  kind := n.kind
  todoState := n.todoState
  priority := n.priority
  aliases := n.aliases
  properties := n.properties
  source := n.source

variable {H : Host}

def Keeps (kb : Of H) (id : String) (node : Node H.yrs.Wire) (d u : H.yrs.Doc) : Prop :=
  ∃ stored bytes d', kb.nodes[id]? = some stored ∧ stored.crdtDoc = some bytes ∧ H.yrs.decode bytes = .ok d' ∧
    d ∪ u ⊆ d' ∧ stored.shown = (node.applyCrdtDoc H.yrs (d ∪ u)).shown

theorem remote_update_kept_iff {kb kb' : Of H} {mint : Mint} {id : String} {update bytes : H.yrs.Wire}
    {changed : Bool} {node : Node H.yrs.Wire} {d u : H.yrs.Doc} (hnode : kb.nodes[id]? = some node)
    (hbytes : node.crdtDoc = some bytes) (hd : H.yrs.decode bytes = .ok d) (hu : H.yrs.decode update = .ok u)
    (happly : kb.applyRemoteUpdate mint id update = .ok (changed, kb')) :
    Keeps kb' id node d u ↔
      contentHash H.crypto (H.yrs.read d) ≠ contentHash H.crypto (H.yrs.read (d ∪ u)) ∨
        (u ⊆ d ∧ node.shown = (node.applyCrdtDoc H.yrs d).shown) := by
  have hdoc : node.toCrdtDoc H.yrs mint = .ok d := by simp [Node.toCrdtDoc, hbytes, hd]
  rcases applyRemoteUpdate_cases happly with ⟨hnone, -, -⟩ | ⟨node₁, d₁, u₁, hnode₁, hd₁, hu₁, hchanged, rfl⟩
  · rw [hnode] at hnone
    cases hnone
  · obtain rfl := mem_unique hnode hnode₁
    obtain rfl := Except.ok.inj (hdoc.symm.trans hd₁)
    obtain rfl := Except.ok.inj (hu.symm.trans hu₁)
    by_cases hhash : contentHash H.crypto (H.yrs.read d) = contentHash H.crypto (H.yrs.read (d ∪ u))
    · -- the node is left as it was
      have hfalse : changed = false := by simp [hchanged, hhash]
      simp only [hfalse, hhash, ne_eq, not_true_eq_false, false_or]
      constructor
      · rintro ⟨stored, bytes', d', hstored, hbytes', hd', hsub, hshown⟩
        obtain rfl := mem_unique hnode hstored
        obtain rfl := mem_unique hbytes hbytes'
        obtain rfl := Except.ok.inj (hd.symm.trans hd')
        have hu : u ⊆ d := Finset.subset_union_right.trans hsub
        rw [Finset.union_eq_left.mpr hu] at hshown
        exact ⟨hu, hshown⟩
      · rintro ⟨hsub, hshown⟩
        have hunion : d ∪ u = d := Finset.union_eq_left.mpr hsub
        refine ⟨node, bytes, d, hnode, hbytes, hd, ?_, ?_⟩
        · rw [hunion]
        · rw [hunion]
          exact hshown
    · have htrue : changed = true := by simp [hchanged, hhash]
      refine iff_of_true ?_ (.inl hhash)
      refine ⟨node.applyCrdtDoc H.yrs (d ∪ u), H.yrs.encode (d ∪ u), d ∪ u, ?_, rfl, H.yrs.decode_encode _,
        Finset.Subset.refl _, rfl⟩
      simp [htrue, retouch, relink]

section Sample

open OpSet

def sampleEdit : SampleNode := {.delete 1 0, .insert 2 0 (.root (sampleRoot "n" "longer body" []))}

def sampleDone : SampleNode :=
  {.delete 1 0, .insert 2 0 (.root (setScalar "todo" (some "DONE") (sampleRoot "n" "body" [])))}

def sampleKb : Of Host.sample := runCalls [.adoptRemoteNode "n" (sampleBytes sampleBase)] new

def sampleStored : Node Host.sample.yrs.Wire := Node.received Host.sample.yrs sampleBase .note

lemma sampleKb_node : sampleKb.nodes["n"]? = some sampleStored := by
  have hid : sampleStored.id = "n" := by decide +kernel
  change (KnowledgeBase.insert Host.sample sampleStored new).2.nodes["n"]? = some sampleStored
  rw [insert_eq, hid]
  exact getElem?_insert_self

theorem body_edit_kept : ∃ res, sampleKb.applyRemoteUpdate sampleMint "n" (sampleBytes sampleEdit) = .ok res ∧
    Keeps res.2 "n" sampleStored sampleBase sampleEdit := by
  obtain ⟨res, hok⟩ : ∃ res, sampleKb.applyRemoteUpdate sampleMint "n" (sampleBytes sampleEdit) = .ok res :=
    applyRemoteUpdate_of_node sampleKb_node rfl rfl
  exact ⟨res, hok, (remote_update_kept_iff sampleKb_node rfl rfl rfl hok).mpr (.inl (by decide +kernel))⟩

theorem todo_update_is_dropped :
    (sampleKb.applyRemoteUpdate sampleMint "n" (sampleBytes sampleDone)).toOption.map Prod.fst = some false ∧
      (settle sampleKb (sampleKb.applyRemoteUpdate sampleMint "n" (sampleBytes sampleDone))).nodes["n"]?.map Node.todoState =
        some none ∧
      (sampleStored.applyCrdtDoc Host.sample.yrs (sampleBase ∪ sampleDone)).todoState = some "DONE" := by
  decide +kernel

end Sample

/-! ### A document that is not there yet -/

inductive ReceivePath (H : Host) where
  | apply (mint : Mint)
  | adopt
  | reconcile (probe merge ahead : Mint) (remoteSv : H.yrs.Wire)

def ReceivePath.receive (id : String) (bytes : H.yrs.Wire) (kb : Of H) : ReceivePath H → Of H
  | .apply mint => settle kb (kb.applyRemoteUpdate mint id bytes)
  | .adopt => settle kb (kb.adoptRemoteNode id bytes)
  | .reconcile probe merge ahead remoteSv =>
    settle kb (kb.reconcileRemoteNode probe merge ahead id bytes remoteSv)

lemma nodes_insert_received (kb : Of H) (d : H.yrs.Doc) (kind : NodeKind) :
    (kb.insert H (Node.received H.yrs d kind)).2.nodes[(H.yrs.read d).id]? = some (Node.received H.yrs d kind) := by
  exact getElem?_insert_self

lemma ReceivePath.stored {kb : Of H} {id : String} (hnew : kb.nodes[id]? = none) (d : H.yrs.Doc)
    (path : ReceivePath H) :
    (path.receive id (H.yrs.encode d) kb).nodes[(H.yrs.read d).id]? = some (Node.received H.yrs d .note) := by
  have happly : ∀ mint, kb.applyRemoteUpdate mint id (H.yrs.encode d) =
      .ok (true, (kb.insert H (Node.received H.yrs d .note)).2) := by
    intro mint
    simp only [applyRemoteUpdate, hnew, H.yrs.decode_encode]
    rfl
  cases path with
  | apply mint =>
    rw [receive, happly mint]
    exact nodes_insert_received kb d .note
  | adopt =>
    simp only [receive, adoptRemoteNode, H.yrs.decode_encode, hnew]
    exact nodes_insert_received kb d .note
  | reconcile probe merge ahead remoteSv =>
    have hdiv : kb.diverged probe id remoteSv = .ok false := by
      simp [diverged, nodeStateVector, hnew]
    obtain ⟨out, hrec⟩ : ∃ out, kb.reconcileRemoteNode probe merge ahead id (H.yrs.encode d) remoteSv =
        .ok (out, (kb.insert H (Node.received H.yrs d .note)).2) := reconcileRemoteNode_of_apply hdiv (happly merge) ahead
    rw [receive, hrec]
    exact nodes_insert_received kb d .note

structure SameFields {Wire : Type} (n n' : Node Wire) : Prop where
  shown : n.shown = n'.shown
  sourceVersion : n.sourceVersion = n'.sourceVersion

structure PlainDoc (mat : MaterializedNode) : Prop where
  kind : mat.kind.elim .note NodeKind.fromStrLossy = .note
  todoState : mat.todoState = none
  priority : mat.priority = none
  aliases : mat.aliases = []
  properties : mat.properties = ∅
  sourceVersion : mat.sourceVersion = none
  source : (mat.source.bind NodeSource.fromStrOpt).or (some .federation) = some .federation

lemma head?_bind_scalar_eq_none (doc : KbNodeDoc) (key : String) :
    ((doc.scalar key).bind fun p => p.toList.head?) = none ↔ doc.scalar key = none := by
  have hne := doc.scalar_ne key
  cases hs : doc.scalar key with
  | none => simp
  | some p =>
    rw [hs] at hne
    simpa using hne

lemma received_eq_fromCrdtDoc_iff (d : H.yrs.Doc) :
    SameFields (Node.received H.yrs d .note) (Node.fromCrdtDoc H.yrs d .note .federation) ↔
      PlainDoc (H.yrs.read d).materialize := by
  have hprio := head?_bind_scalar_eq_none (H.yrs.read d) "prio"
  constructor
  · rintro ⟨hshown, hversion⟩
    simp only [Node.shown, Node.received, Node.fromCrdtDoc, Node.new, Shown.mk.injEq] at hshown
    obtain ⟨-, -, -, hkind, htodo, hpriority, haliases, hprops, hsource⟩ := hshown
    exact ⟨hkind.symm, htodo.symm, hprio.mp hpriority.symm, haliases.symm, hprops.symm, hversion.symm, hsource.symm⟩
  · rintro ⟨hkind, htodo, hpriority, haliases, hprops, hversion, hsource⟩
    refine ⟨?_, hversion.symm⟩
    simp only [Node.shown, Node.received, Node.fromCrdtDoc, Node.new, Shown.mk.injEq, true_and]
    exact ⟨hkind.symm, htodo.symm, (hprio.mpr hpriority).symm, haliases.symm, hprops.symm, hsource.symm⟩

structure PlainNode {Wire : Type} (n : Node Wire) : Prop where
  kind : n.kind = .note
  todoState : n.todoState = none
  priority : n.priority = none
  aliases : n.aliases = []
  properties : n.properties = ∅
  sourceVersion : n.sourceVersion = none
  source : n.source = some .federation

def Settable (doc : KbNodeDoc) (key text : String) : Prop :=
  doc.textAt key = text ∨ ∃ s, doc.root[key]? = some (.text s)

def TagsSettable (doc : KbNodeDoc) (tags : List String) : Prop :=
  doc.arrayAt "tags" = tags ∨ ∃ items json, doc.root["tags"]? = some (.array items json) ∧ syncItems items tags = tags

def LineageTakes (Y : NodeYrs) (n : Node Y.Wire) : Prop :=
  ∀ bytes d, n.crdtDoc = some bytes → Y.decode bytes = .ok d →
    Settable (Y.read d) "title" n.title ∧ Settable (Y.read d) "body" n.body ∧ TagsSettable (Y.read d) n.tags

section Setters

variable {Y : NodeYrs} {key : String} {doc : KbNodeDoc} {k text : String} {tags : List String} {doc' : KbNodeDoc}

lemma root_insert_of_ne {v : Out} (h : key ≠ k) : (doc.root.insert k v)[key]? = doc.root[key]? := by
  simp [getElem?_insert, Ne.symm h]

lemma root_stampSchemaVersion (h : key ≠ "schema_v") : (stampSchemaVersion doc).root[key]? = doc.root[key]? := by
  unfold stampSchemaVersion
  split
  · rfl
  · exact root_insert_of_ne h

lemma root_setText (h : key ≠ k) : (setText k text doc).root[key]? = doc.root[key]? := by
  unfold setText
  split
  · exact root_insert_of_ne h
  · rfl

lemma root_setTags (h : key ≠ "tags") : (setTags Y tags doc).root[key]? = doc.root[key]? := by
  unfold setTags
  split
  · exact root_insert_of_ne h
  · rfl

lemma root_setScalar {value : Option String} (h : key ≠ k) (hv : key ≠ "schema_v") :
    (setScalar k value doc).root[key]? = doc.root[key]? := by
  unfold setScalar
  split
  · rfl
  · rw [root_stampSchemaVersion hv]
    cases value with
    | some v => exact root_insert_of_ne h
    | none => simp [getElem?_erase, Ne.symm h]

lemma root_setAliases {aliases : List String} (h : key ≠ "aliases") (hv : key ≠ "schema_v") :
    (setAliases Y aliases doc).root[key]? = doc.root[key]? := by
  unfold setAliases
  split
  · split
    · rw [root_stampSchemaVersion hv]
      exact root_insert_of_ne h
    · rfl
  · split
    · rw [root_stampSchemaVersion hv]
      exact root_insert_of_ne h
    · exact root_insert_of_ne h

lemma root_setProperties {props : ExtTreeMap String String} (h : key ≠ "props") (hv : key ≠ "schema_v") :
    (setProperties Y props doc).root[key]? = doc.root[key]? := by
  unfold setProperties
  split
  · split
    · rfl
    · rw [root_stampSchemaVersion hv]
      exact root_insert_of_ne h
  · split
    · exact root_insert_of_ne h
    · rw [root_stampSchemaVersion hv]
      exact root_insert_of_ne h

lemma root_settled (h : key ≠ k) :
    (if doc.textAt k ≠ text then setText k text doc else doc).root[key]? = doc.root[key]? := by
  split
  · exact root_setText h
  · rfl

lemma root_fresh {id title body : String} :
    (fresh Y id title body tags).root["title"]? = some (.text title) ∧ (fresh Y id title body tags).root["body"]? = some
      (.text body) ∧ (fresh Y id title body tags).root["tags"]? = some (.array tags (Y.showArray tags)) := by
  simp only [fresh, getElem?_insert, Std.LawfulEqOrd.compare_eq_iff_eq, String.reduceEq, if_false, if_true]
  trivial

lemma root_writeV2Fields {Wire : Type} (n : Node Wire)
    (hkey : key ∉ ["kind", "todo", "prio", "src_v", "aliases", "props", "source", "schema_v"]) :
    (n.writeV2Fields Y doc).root[key]? = doc.root[key]? := by
  simp only [List.mem_cons, List.not_mem_nil, or_false, not_or] at hkey
  obtain ⟨hkind, htodo, hprio, hsrcv, haliases, hprops, hsource, hv⟩ := hkey
  simp only [Node.writeV2Fields]
  rw [root_setScalar hsource hv, root_setProperties hprops hv, root_setAliases haliases hv, root_setScalar hsrcv hv,
    root_setScalar hprio hv, root_setScalar htodo hv, root_setScalar hkind hv]

variable {doc : KbNodeDoc}

section

variable (h : doc.root[key]? = doc'.root[key]?)
include h

lemma textAt_congr : doc.textAt key = doc'.textAt key := by
  simp only [textAt, h]

lemma arrayAt_congr : doc.arrayAt key = doc'.arrayAt key := by
  simp only [arrayAt, h]

lemma settable_congr : Settable doc key text ↔ Settable doc' key text := by
  simp only [Settable, textAt_congr h, h]

end

lemma tagsSettable_congr (h : doc.root["tags"]? = doc'.root["tags"]?) :
    TagsSettable doc tags ↔ TagsSettable doc' tags := by
  simp only [TagsSettable, arrayAt_congr h, h]

lemma textAt_settled_iff :
    (if doc.textAt key ≠ text then setText key text doc else doc).textAt key = text ↔ Settable doc key text := by
  by_cases htext : doc.textAt key = text
  · simp [Settable, htext]
  · simp only [ne_eq, htext, not_false_eq_true, if_true, Settable, false_or]
    unfold setText
    split
    · rename_i s hs
      refine iff_of_true ?_ ⟨s, hs⟩
      simp [textAt]
    · rename_i hnone
      refine iff_of_false htext ?_
      rintro ⟨s, hs⟩
      exact hnone s hs

lemma arrayAt_settled_iff :
    (if doc.arrayAt "tags" ≠ tags then setTags Y tags doc else doc).arrayAt "tags" = tags ↔ TagsSettable doc tags := by
  by_cases htags : doc.arrayAt "tags" = tags
  · simp [TagsSettable, htags]
  · simp only [ne_eq, htags, not_false_eq_true, if_true, TagsSettable, false_or]
    unfold setTags
    split
    · rename_i items json hitems
      simp [arrayAt, hitems]
    · rename_i hnone
      refine iff_of_false htags ?_
      rintro ⟨items, json, hitems, -⟩
      exact hnone items json hitems

end Setters

lemma upsertDoc_texts_iff (Y : NodeYrs) (n : Node Y.Wire) (client : ℕ) :
    ((Y.read (n.upsertDoc Y client)).textAt "title" = n.title ∧ (Y.read (n.upsertDoc Y client)).textAt "body" = n.body ∧
      (Y.read (n.upsertDoc Y client)).arrayAt "tags" = n.tags) ↔ LineageTakes Y n := by
  have hfresh : (Y.read (n.freshV2Doc Y client)).textAt "title" = n.title ∧
      (Y.read (n.freshV2Doc Y client)).textAt "body" = n.body ∧
      (Y.read (n.freshV2Doc Y client)).arrayAt "tags" = n.tags := by
    simp only [Node.freshV2Doc, NodeYrs.read_author]
    rw [textAt_congr (root_writeV2Fields n (by decide)), textAt_congr (root_writeV2Fields n (by decide)),
      arrayAt_congr (root_writeV2Fields n (by decide))]
    simp only [textAt, arrayAt, root_fresh]
    trivial
  unfold Node.upsertDoc LineageTakes
  cases hbytes : n.crdtDoc with
  | none => exact iff_of_true hfresh fun bytes d h => nomatch h
  | some bytes =>
    cases hd : Y.decode bytes with
    | error e =>
      refine iff_of_true (by simpa [hd] using hfresh) fun bytes' d h hd' => ?_
      cases h
      rw [hd] at hd'
      cases hd'
    | ok d =>
      have hlineage : (∀ bytes' d', some bytes = some bytes' → Y.decode bytes' = .ok d' →
          Settable (Y.read d') "title" n.title ∧ Settable (Y.read d') "body" n.body ∧ TagsSettable (Y.read d') n.tags) ↔
          Settable (Y.read d) "title" n.title ∧ Settable (Y.read d) "body" n.body ∧ TagsSettable (Y.read d) n.tags := by
        constructor
        · exact fun h => h bytes d rfl hd
        · rintro h bytes' d' hb hd'
          cases hb
          obtain rfl := Except.ok.inj (hd.symm.trans hd')
          exact h
      rw [hlineage]
      simp only [hd, NodeYrs.read_author]
      rw [textAt_congr (root_writeV2Fields n (by decide)), textAt_congr (root_writeV2Fields n (by decide)),
        arrayAt_congr (root_writeV2Fields n (by decide))]
      generalize Y.read d = doc
      have htags : ∀ {key doc'}, key ≠ "tags" →
          (if doc'.arrayAt "tags" ≠ n.tags then setTags Y n.tags doc' else doc').root[key]? = doc'.root[key]? := by
        intro key doc' hkey
        split
        · exact root_setTags hkey
        · rfl
      refine and_congr ?_ (and_congr ?_ ?_)
      · rw [textAt_congr (htags (by decide)), textAt_congr (root_settled (by decide))]
        exact textAt_settled_iff
      · rw [textAt_congr (htags (by decide))]
        exact textAt_settled_iff.trans (settable_congr (root_settled (by decide)))
      · exact arrayAt_settled_iff.trans
          (tagsSettable_congr ((root_settled (by decide)).trans (root_settled (by decide))))

lemma received_eq_node_iff (node : Node H.yrs.Wire) (client : ℕ) :
    SameFields (Node.received H.yrs (node.upsertDoc H.yrs client) .note) node ↔
      PlainNode node ∧ LineageTakes H.yrs node := by
  rw [← upsertDoc_texts_iff H.yrs node client]
  constructor
  · rintro ⟨hshown, hversion⟩
    simp only [Node.shown, Node.received, Node.new, materialize, Shown.mk.injEq] at hshown
    obtain ⟨htitle, hbody, htags, hkind, htodo, hpriority, haliases, hprops, hsource⟩ := hshown
    exact ⟨⟨hkind.symm, htodo.symm, hpriority.symm, haliases.symm, hprops.symm, hversion.symm, hsource.symm⟩,
      htitle, hbody, htags⟩
  · rintro ⟨⟨hkind, htodo, hpriority, haliases, hprops, hversion, hsource⟩, htitle, hbody, htags⟩
    refine ⟨?_, hversion.symm⟩
    simp only [Node.shown, Node.received, Node.new, materialize, Shown.mk.injEq]
    exact ⟨htitle, hbody, htags, hkind.symm, htodo.symm, hpriority.symm, haliases.symm, hprops.symm, hsource.symm⟩

theorem receive_paths_agree_iff :
    (∀ (kb : Of H) (d : H.yrs.Doc) (path : ReceivePath H), kb.nodes[(H.yrs.read d).id]? = none →
        ∃ n, (path.receive (H.yrs.read d).id (H.yrs.encode d) kb).nodes[(H.yrs.read d).id]? = some n ∧
          (SameFields n (Node.fromCrdtDoc H.yrs d .note .federation) ↔ PlainDoc (H.yrs.read d).materialize)) ∧
      ∀ (kb : Of H) (node : Node H.yrs.Wire) (client : ℕ) (path : ReceivePath H),
        ∃ bytes n, (kb.upsertWithCrdt node client).1 = some bytes ∧
          (path.receive node.id bytes new).nodes[(H.yrs.read (node.upsertDoc H.yrs client)).id]? = some n ∧
          (SameFields n node ↔ PlainNode node ∧ LineageTakes H.yrs node) := by
  constructor
  · intro kb d path hnew
    exact ⟨_, path.stored hnew d, received_eq_fromCrdtDoc_iff d⟩
  · intro kb node client path
    refine ⟨H.yrs.encode (node.upsertDoc H.yrs client), _, ?_, path.stored ?_ _, received_eq_node_iff node client⟩
    · simp [upsertWithCrdt, insert_eq]
    · simp [new]

def sampleTask : SampleNode :=
  {.insert 1 0 (.root (setScalar "todo" (some "TODO") (setScalar "kind" (some "task") (sampleRoot "n" "body" []))))}

def sampleReceived (path : ReceivePath Host.sample) : Option (NodeKind × Option String) :=
  (path.receive "n" (sampleBytes sampleTask) new).nodes["n"]?.map fun n => (n.kind, n.todoState)

theorem task_received_as_note :
    let made := Node.fromCrdtDoc Host.sample.yrs sampleTask .note .federation
    (made.kind, made.todoState) = (.task, some "TODO") ∧ sampleReceived (.apply sampleMint) = some (.note, none) ∧
      sampleReceived .adopt = some (.note, none) ∧
      sampleReceived (.reconcile sampleMint sampleMint sampleMint (sampleBytes ∅)) = some (.note, none) := by
  decide +kernel

end Mae.Kb
