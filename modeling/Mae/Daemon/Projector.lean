import Mae.Kb.Node
import Mae.Library.Inverted
import Mae.Sync.CollectionWrites
import Mae.Sync.DocAddress

/-! The projector: the query store of a KB, kept in step with its documents by a feed of changes and by rebuilds. -/

namespace Mae.Daemon.Projection

open Std (ExtTreeMap)
open Kb Library Sync Function List Option DocAddress Inverted NodeSource

structure LinkRow where
  dst : String
  relType : String
  weight : ℚ
  confidence : ℚ
deriving DecidableEq

/-- What a projection takes from elsewhere: `yrs`, and what the parsers find in a body. -/
structure Source where
  yrs : NodeYrs
  parseTypedLinks : (body id : String) → List LinkRow
  isExternalLinkTarget : String → Bool
  parseTransclusionDirectives : String → List (String × String)

/-! ### Rows of the store -/

structure NodeRow (Wire : Type) where
  title : String
  kind : String
  body : String
  tags : List String
  todoState : String
  priority : String
  source : String
  sourceVersion : ℕ
  aliases : List String
  properties : ExtTreeMap String String
  crdtDoc : Option Wire
  createdAt : Option ℤ
  links : List LinkRow
  members : List (String × String)

def putLink (l : LinkRow) : List LinkRow → List LinkRow
  | [] => [l]
  | o :: out => if o.dst = l.dst ∧ o.relType = l.relType then l :: out else o :: putLink l out

variable {S : Source}

abbrev Rows (S : Source) : Type := String → Option (NodeRow S.yrs.Wire)

def derivedLinks (node : Node S.yrs.Wire) : List LinkRow :=
  ((S.parseTypedLinks node.body node.id).filter fun l => !S.isExternalLinkTarget l.dst).foldl (fun out l => putLink l out) []

def nodePutParams (node : Node S.yrs.Wire) : NodeRow S.yrs.Wire where
  title := node.title
  kind := node.kind.asStr
  body := node.body
  tags := node.tags
  todoState := node.todoState.getD ""
  priority := (node.priority.map fun c => String.singleton c).getD ""
  source := (node.source.map asStr).getD ""
  sourceVersion := (node.sourceVersion.getD 0).toNat
  aliases := node.aliases
  properties := node.properties
  crdtDoc := node.crdtDoc
  createdAt := node.createdAt
  links := derivedLinks node
  members := S.parseTransclusionDirectives node.body

def insertNode (rows : Rows S) (node : Node S.yrs.Wire) : Rows S :=
  Function.update rows node.id (some (nodePutParams node))

def deleteNode (rows : Rows S) (id : String) : Rows S := Function.update rows id none

def rowToNode {Wire : Type} (id : String) (row : NodeRow Wire) : Node Wire :=
  { (Node.new id row.title (NodeKind.fromStrLossy row.kind) row.body : Node Wire) with
    tags := row.tags
    todoState := if row.todoState = "" then none else some row.todoState
    priority := row.priority.toList.head?
    source := fromStrOpt row.source
    sourceVersion := if row.sourceVersion = 0 then none else some (UInt32.ofNat row.sourceVersion)
    aliases := row.aliases
    properties := row.properties
    crdtDoc := row.crdtDoc }

/-! ### Projection of one document -/

def kindFromId (nodeId : String) : NodeKind :=
  match String.ofList (nodeId.toList.takeWhile (· ≠ ':')) with
  | "concept" => .concept
  | "cmd" | "command" => .command
  | "lesson" => .lesson
  | "tutorial" => .tutorial
  | "category" => .category
  | "meta" => .metaNode
  | _ => .note

def derivedNode (nodeId : String) (d : S.yrs.Doc) : Node S.yrs.Wire :=
  Node.fromCrdtDoc S.yrs d (kindFromId nodeId) .federation

def projectNode (rows : Rows S) (nodeId : String) (d : S.yrs.Doc) : Rows S := insertNode rows (derivedNode nodeId d)

/-- The documents of the doc store: the collection of each KB, and its nodes by their ids. -/
structure Docs (S : Source) where
  collection : String → Option Root
  node : String → String → Option S.yrs.Doc

namespace Docs

variable (docs : Docs S) (kb : String)

def listed : List String := (docs.collection kb).elim [] fun root => root.listNodes.map Prod.fst

lemma listed_of_none (h : docs.collection kb = none) : docs.listed kb = [] := by
  rw [listed, h]
  rfl

def project (rows : Rows S) (nodeId : String) : Rows S :=
  match docs.node kb nodeId with
  | some d => projectNode rows nodeId d
  | none => rows

def row (nodeId : String) : Option (NodeRow S.yrs.Wire) :=
  (docs.node kb nodeId).map fun d => nodePutParams (derivedNode nodeId d)

def OwnIds : Prop := ∀ kb nodeId d, docs.node kb nodeId = some d → (S.yrs.read d).id = nodeId

end Docs

lemma update_project (docs : Docs S) (hown : docs.OwnIds) (kb : String) (rows : Rows S) (id : String) :
    docs.project kb rows id = Function.update rows id ((docs.row kb id).or (rows id)) := by
  cases hdoc : docs.node kb id with
  | none => simp [Docs.project, Docs.row, hdoc]
  | some d =>
    have hid : (derivedNode id d).id = id := hown kb id d hdoc
    simp only [Docs.project, hdoc, projectNode, insertNode, hid, Docs.row, map_some, some_or]

lemma foldl_deleteNode (ids : List String) (rows : Rows S) (id : String) :
    ids.foldl deleteNode rows id = if id ∈ ids then none else rows id := by
  induction ids generalizing rows with
  | nil => rfl
  | cons i ids ih =>
    rw [foldl_cons, ih, deleteNode]
    by_cases hid : id = i
    · subst hid
      simp
    · simp [hid]

lemma foldl_project {docs : Docs S} (hown : docs.OwnIds) (kb : String) (ids : List String) (rows : Rows S) (id : String) :
    ids.foldl (docs.project kb) rows id = if id ∈ ids then (docs.row kb id).or (rows id) else rows id := by
  induction ids generalizing rows with
  | nil => rfl
  | cons i ids ih =>
    rw [foldl_cons, ih, update_project docs hown]
    by_cases hid : id = i
    · subst hid
      cases docs.row kb id <;> simp
    · simp [hid]

/-! ### The routing index -/

structure ProjectionIndex where
  manifests : ExtTreeMap String (List String)
  nodeToKbs : Inverted String String

namespace ProjectionIndex

def default : ProjectionIndex := ⟨∅, ∅⟩

variable (idx : ProjectionIndex) (kb : String)

def manifest : List String := idx.manifests[kb]?.getD []

def knows (nodeId : String) : Bool := decide (kb ∈ idx.nodeToKbs.entries nodeId)

def store (removed current : List String) : ProjectionIndex where
  manifests := idx.manifests.insert kb current
  nodeToKbs := current.foldl (push kb) (removed.foldl (prune kb) idx.nodeToKbs)

def forget : ProjectionIndex where
  manifests := idx.manifests.erase kb
  nodeToKbs := (idx.manifest kb).foldl (prune kb) idx.nodeToKbs

def Routes : Prop := ∀ kb nodeId, kb ∈ idx.nodeToKbs.entries nodeId ↔ nodeId ∈ idx.manifest kb

end ProjectionIndex

namespace ProjectionIndex

variable {idx : ProjectionIndex} (kb : String)

lemma manifest_store (removed current : List String) (kb' : String) :
    (idx.store kb removed current).manifest kb' = if kb' = kb then current else idx.manifest kb' := by
  simp only [manifest, store, ExtTreeMap.getElem?_insert, Std.LawfulEqOrd.compare_eq_iff_eq, eq_comm (a := kb)]
  split <;> rfl

lemma manifest_forget (kb' : String) : (idx.forget kb).manifest kb' = if kb' = kb then [] else idx.manifest kb' := by
  simp only [manifest, forget, ExtTreeMap.getElem?_erase, Std.LawfulEqOrd.compare_eq_iff_eq, eq_comm (a := kb)]
  split <;> rfl

lemma manifest_default : default.manifest kb = [] := by simp [default, manifest]

lemma routes_default : default.Routes := by
  intro kb id
  simp [default, manifest, entries]

lemma Routes.mem_prune (h : idx.Routes) (ids : List String) (kb' id : String) :
    kb' ∈ (ids.foldl (prune kb) idx.nodeToKbs).entries id ↔
      id ∈ idx.manifest kb' ∧ ¬ (kb' = kb ∧ id ∈ ids) := by
  rw [(removes_prune kb).foldl]
  by_cases hid : id ∈ ids <;> simp [hid, h kb' id]

lemma Routes.store (h : idx.Routes) (current : List String) :
    (idx.store kb ((idx.manifest kb).filter fun n => n ∉ current) current).Routes := by
  intro kb' id
  rw [manifest_store]
  simp only [ProjectionIndex.store]
  rw [mem_foldl_push, h.mem_prune]
  by_cases hkb : kb' = kb
  · subst hkb
    by_cases hid : id ∈ current <;> simp [hid]
  · simp [hkb]

lemma Routes.forget (h : idx.Routes) : (idx.forget kb).Routes := by
  intro kb' id
  rw [manifest_forget]
  simp only [ProjectionIndex.forget]
  rw [h.mem_prune]
  by_cases hkb : kb' = kb
  · subst hkb
    simp
  · simp [hkb]

end ProjectionIndex

/-! ### The projector in the daemon -/

/-- `owed` tells the KBs of which a stretch of the feed was lost since they were last rebuilt. -/
structure State (S : Source) where
  docs : Docs S
  index : ProjectionIndex
  stores : String → Rows S
  feed : List String
  owed : String → Bool

namespace State

def initial : State S where
  docs := ⟨fun _ => none, fun _ _ => none⟩
  index := .default
  stores := fun _ _ => none
  feed := []
  owed := fun _ => false

def projectNodeChange (kb nodeId : String) (s : State S) : State S :=
  if s.index.knows kb nodeId then
    { s with stores := Function.update s.stores kb (s.docs.project kb (s.stores kb) nodeId) }
  else s

def projectCollectionChange (kb : String) (s : State S) : State S :=
  match s.docs.collection kb with
  | none => s
  | some root =>
    let current := root.listNodes.map Prod.fst
    let prev := s.index.manifest kb
    let removed := prev.filter fun n => n ∉ current
    let added := current.filter fun n => n ∉ prev
    { s with
      stores := Function.update s.stores kb (added.foldl (s.docs.project kb) (removed.foldl deleteNode (s.stores kb)))
      index := s.index.store kb removed current }

def projectDoc (docName : String) (s : State S) : State S :=
  match parse docName with
  | some (.kbNode kb nodeId) => s.projectNodeChange kb nodeId
  | some (.kbCollection kb) => s.projectCollectionChange kb
  | some (.file _ _) | some (.shared _) | none => s

def rebuildKb (kb : String) (s : State S) : State S :=
  projectCollectionChange kb { s with index := s.index.forget kb }

end State

inductive Event (S : Source) where
  | changeCollection (kb : String) (root : Root)
  | changeNode (kb nodeId : String) (d : S.yrs.Doc)
  | project
  | lose (start count : ℕ)
  | rebuild (kb : String)
  | restart

def Event.WellFormed : Event S → Prop
  | changeCollection kb _ => parse (collectionDocName kb) = some (.kbCollection kb)
  | changeNode kb nodeId d =>
    parse (kbNodeDocName kb nodeId) = some (.kbNode kb nodeId) ∧ (S.yrs.read d).id = nodeId
  | _ => True

instance (e : Event S) : Decidable e.WellFormed := by
  cases e <;> dsimp only [Event.WellFormed] <;> infer_instance

def concerns (kb docName : String) : Bool := decide ((parse docName).bind kbId? = some kb)

namespace State

def step (s : State S) : Event S → State S
  | .changeCollection kb root =>
    { s with
      docs := { s.docs with collection := Function.update s.docs.collection kb (some root) }
      feed := s.feed ++ [collectionDocName kb] }
  | .changeNode kb nodeId d =>
    { s with
      docs := { s.docs with
        node := Function.update s.docs.node kb (Function.update (s.docs.node kb) nodeId (some d)) }
      feed := s.feed ++ [kbNodeDocName kb nodeId] }
  | .project =>
    match s.feed with
    | [] => s
    | docName :: rest => projectDoc docName { s with feed := rest }
  | .lose start count =>
    { s with
      feed := s.feed.take start ++ s.feed.drop (start + count)
      owed := fun kb => s.owed kb || ((s.feed.drop start).take count).any (concerns kb) }
  | .rebuild kb => { s.rebuildKb kb with owed := Function.update s.owed kb false }
  -- the feed and the index are in memory, the documents and the store are not
  | .restart => { s with index := .default, feed := [], owed := fun _ => true }

def run (s : State S) (events : List (Event S)) : State S := events.foldl step s

def RowsListed (kb : String) (s : State S) : Prop := ∀ id, (s.stores kb id).isSome → id ∈ s.docs.listed kb

def Follows (kb : String) (s : State S) : Prop :=
  ∀ id, s.stores kb id = if id ∈ s.docs.listed kb then s.docs.row kb id else none

def Settled (kb : String) (s : State S) : Prop := s.owed kb = false ∧ ∀ name ∈ s.feed, concerns kb name = false

def RebuildsListed (kb : String) (s : State S) (events : List (Event S)) : Prop :=
  ∀ before after, events = before ++ .rebuild kb :: after → (s.run before).RowsListed kb

/-! ### What a projection does to the store -/

structure Sound (s : State S) : Prop where
  own : s.docs.OwnIds
  routes : s.index.Routes
  unlisted : ∀ kb, s.docs.collection kb = none → s.index.manifest kb = []
  stored : ∀ kb id, (s.stores kb id).isSome → (s.docs.row kb id).isSome

section Stores

variable {s : State S} (kb : String)

/-- `t` is `s` with the rows of the KB replaced and its nodes in the index. -/
def Rewrites (kb : String) (rows : Rows S) (s t : State S) : Prop :=
  ∃ idx : ProjectionIndex, t = { s with index := idx, stores := Function.update s.stores kb rows } ∧ idx.Routes ∧
    ∀ kb', idx.manifest kb' = if kb' = kb then s.docs.listed kb else s.index.manifest kb'

variable (hs : s.Sound)
include hs

lemma Sound.row_or (id : String) : (s.docs.row kb id).or (s.stores kb id) = s.docs.row kb id := by
  cases hrow : s.docs.row kb id with
  | some r => rfl
  | none =>
    have hnone : ¬ (s.stores kb id).isSome := fun h => by
      have hstored := hs.stored kb id h
      rw [hrow] at hstored
      cases hstored
    simpa using hnone

lemma projectNodeChange_spec (id : String) : s.projectNodeChange kb id = if s.index.knows kb id then
      { s with stores := Function.update s.stores kb (Function.update (s.stores kb) id (s.docs.row kb id)) } else
      s := by
  rw [projectNodeChange, update_project _ hs.own, hs.row_or]

lemma projectCollectionChange_spec : Rewrites kb (fun id => if id ∈ s.docs.listed kb then
      if id ∈ s.index.manifest kb then s.stores kb id else s.docs.row kb id
      else if id ∈ s.index.manifest kb then none else s.stores kb id) s (s.projectCollectionChange kb) := by
  cases hcoll : s.docs.collection kb with
  | none =>
    have hlisted : s.docs.listed kb = [] := s.docs.listed_of_none kb hcoll
    have hprev := hs.unlisted kb hcoll
    refine ⟨s.index, ?_, hs.routes, fun kb' => ?_⟩
    · simp [projectCollectionChange, hcoll, hlisted, hprev]
    · split
      · rename_i hkb
        rw [hkb, hprev, hlisted]
      · rfl
  | some root =>
    have hlisted : s.docs.listed kb = root.listNodes.map Prod.fst := by simp [Docs.listed, hcoll]
    refine ⟨_, ?_, hs.routes.store kb (root.listNodes.map Prod.fst), fun kb' => ?_⟩
    · simp only [projectCollectionChange, hcoll]
      congr 2
      funext id
      rw [foldl_project hs.own, foldl_deleteNode, hlisted]
      by_cases hcur : id ∈ root.listNodes.map Prod.fst <;> by_cases hprev : id ∈ s.index.manifest kb <;>
        simp [hcur, hprev, hs.row_or]
    · rw [ProjectionIndex.manifest_store, hlisted]

lemma Sound.forget : ({ s with index := s.index.forget kb }).Sound := by
  refine ⟨hs.own, hs.routes.forget kb, fun k hk => ?_, hs.stored⟩
  rw [ProjectionIndex.manifest_forget]
  split
  · rfl
  · exact hs.unlisted k hk

lemma rebuildKb_spec :
    Rewrites kb (fun id => if id ∈ s.docs.listed kb then s.docs.row kb id else s.stores kb id) s (s.rebuildKb kb) := by
  obtain ⟨idx, heq, hroutes, hmanifest⟩ := projectCollectionChange_spec kb (hs.forget kb)
  refine ⟨idx, heq.trans ?_, hroutes, fun kb' => ?_⟩
  · simp [ProjectionIndex.manifest_forget]
  · rw [hmanifest, ProjectionIndex.manifest_forget]
    by_cases hkb : kb' = kb <;> simp [hkb]

end Stores

section Steps

variable {kb : String} {s : State S}

section

variable (hs : s.Sound)
include hs

lemma Sound.write {rows : Rows S} {t : State S} (ht : Rewrites kb rows s t)
    (hrows : ∀ id, (rows id).isSome → (s.docs.row kb id).isSome) : t.Sound := by
  obtain ⟨idx, rfl, hroutes, hmanifest⟩ := ht
  refine ⟨hs.own, hroutes, fun k hk => ?_, fun k id h => ?_⟩
  · rw [hmanifest]
    split
    · rename_i hkb
      subst hkb
      exact s.docs.listed_of_none k hk
    · exact hs.unlisted k hk
  · by_cases hkb : k = kb
    · subst hkb
      exact hrows id (by simpa using h)
    · exact hs.stored k id (by simpa [hkb] using h)

lemma Sound.nodeChange (kb id : String) : (s.projectNodeChange kb id).Sound := by
  rw [projectNodeChange_spec kb hs]
  split
  · refine ⟨hs.own, hs.routes, hs.unlisted, fun k i h => ?_⟩
    by_cases hkb : k = kb
    · subst hkb
      by_cases hi : i = id
      · subst hi
        simpa using h
      · exact hs.stored k i (by simpa [hi] using h)
    · exact hs.stored k i (by simpa [hkb] using h)
  · exact hs

lemma Sound.collectionChange (kb : String) : (s.projectCollectionChange kb).Sound := by
  refine hs.write (projectCollectionChange_spec kb hs) fun id h => ?_
  split at h
  · split at h
    · exact hs.stored kb id h
    · exact h
  · split at h
    · cases h
    · exact hs.stored kb id h

lemma Sound.rebuild (kb : String) : (s.rebuildKb kb).Sound := by
  refine hs.write (rebuildKb_spec kb hs) fun id h => ?_
  split at h
  · exact h
  · exact hs.stored kb id h

lemma Sound.projectDoc (name : String) : (s.projectDoc name).Sound := by
  unfold State.projectDoc
  split
  · exact hs.nodeChange _ _
  · exact hs.collectionChange _
  all_goals exact hs

lemma Sound.refeed (feed : List String) (owed : String → Bool) :
    ({ s with feed := feed, owed := owed }).Sound := ⟨hs.own, hs.routes, hs.unlisted, hs.stored⟩

lemma Sound.step {e : Event S} (he : e.WellFormed) : (s.step e).Sound := by
  cases e with
  | changeCollection kb root =>
    refine ⟨hs.own, hs.routes, fun k hk => hs.unlisted k ?_, hs.stored⟩
    by_cases hkb : k = kb
    · subst hkb
      simp [State.step] at hk
    · simpa [State.step, hkb] using hk
  | changeNode kb id d =>
    -- only the document of one node is another
    have hnode : ∀ k i, (s.step (.changeNode kb id d)).docs.node k i =
        if k = kb ∧ i = id then some d else s.docs.node k i := by
      intro k i
      by_cases hkb : k = kb
      · subst hkb
        by_cases hi : i = id <;> simp [State.step, hi]
      · simp [State.step, hkb]
    refine ⟨fun k i d' h => ?_, hs.routes, hs.unlisted, fun k i h => ?_⟩
    · rw [hnode] at h
      split at h
      · rename_i hki
        cases h
        rw [hki.2]
        exact he.2
      · exact hs.own k i d' h
    · have hold := hs.stored k i h
      simp only [Docs.row, isSome_map, hnode] at hold ⊢
      split
      · rfl
      · exact hold
  | project =>
    simp only [State.step]
    split
    · exact hs
    · exact (hs.refeed _ s.owed).projectDoc _
  | lose start count => exact hs.refeed _ _
  | rebuild kb => exact (hs.rebuild kb).refeed _ _
  | restart => exact ⟨hs.own, ProjectionIndex.routes_default, fun k _ => ProjectionIndex.manifest_default k, hs.stored⟩

end

lemma sound_initial : (initial : State S).Sound :=
  ⟨fun _ _ _ h => (nomatch h), ProjectionIndex.routes_default, fun k _ => ProjectionIndex.manifest_default k,
    fun _ _ h => (nomatch h)⟩

end Steps

/-! ### A KB whose changes reach the projector -/

def Pending (a : DocAddress) (s : State S) : Prop := ∃ name ∈ s.feed, parse name = some a

structure Tracks (kb : String) (s : State S) : Prop where
  current : s.Pending (.kbCollection kb) ∨ ∀ id, id ∈ s.index.manifest kb ↔ id ∈ s.docs.listed kb
  projected : ∀ id ∈ s.index.manifest kb, s.stores kb id = s.docs.row kb id ∨ s.Pending (.kbNode kb id)
  within : ∀ id, (s.stores kb id).isSome → id ∈ s.index.manifest kb

section Tracking

variable {kb : String} {s t : State S} {a : DocAddress} {name : String} {rest : List String} {e : Event S}
  {events : List (Event S)}

lemma Settled.not_pending (h : s.Settled kb) (ha : a.kbId? = some kb) : ¬ s.Pending a := by
  rintro ⟨name, hname, hparse⟩
  have hconcerns := h.2 name hname
  simp [concerns, hparse, ha] at hconcerns

lemma Tracks.follows (h : s.Tracks kb) (hsettled : s.Settled kb) : s.Follows kb := by
  have hcurrent := h.current.resolve_left (hsettled.not_pending rfl)
  intro id
  split
  · rename_i hid
    exact (h.projected id ((hcurrent id).mpr hid)).resolve_right (hsettled.not_pending rfl)
  · rename_i hid
    by_contra hrow
    exact hid ((hcurrent id).mp (h.within id (isSome_iff_ne_none.mpr hrow)))

lemma Tracks.of_docs (h : s.Tracks kb) (hindex : t.index.manifest kb = s.index.manifest kb)
    (hrows : t.stores kb = s.stores kb)
    (hpending : ∀ a, a.kbId? = some kb → s.Pending a → t.Pending a)
    (hlisted : t.Pending (.kbCollection kb) ∨ t.docs.listed kb = s.docs.listed kb)
    (hrow : ∀ id, t.Pending (.kbNode kb id) ∨ t.docs.row kb id = s.docs.row kb id) : t.Tracks kb where
  current := by
    rcases hlisted with hlisted | hlisted
    · exact .inl hlisted
    · rw [hindex, hlisted]
      exact h.current.imp_left (hpending _ rfl)
  projected id hid := by
    rcases hrow id with hrow | hrow
    · exact .inr hrow
    · rw [hindex] at hid
      rw [hrows, hrow]
      exact (h.projected id hid).imp_right (hpending _ rfl)
  within := by
    rw [hindex, hrows]
    exact h.within

lemma pending_tail (hfeed : s.feed = name :: rest) (hne : parse name ≠ some a) (h : s.Pending a) :
    ({ s with feed := rest }).Pending a := by
  obtain ⟨n, hn, hparse⟩ := h
  rw [hfeed, mem_cons] at hn
  rcases hn with rfl | hn
  · exact absurd hparse hne
  · exact ⟨n, hn, hparse⟩

lemma Tracks.skip (h : s.Tracks kb) (hfeed : s.feed = name :: rest) (hother : (parse name).bind kbId? ≠ some kb)
    (hindex : t.index.manifest kb = s.index.manifest kb) (hrows : t.stores kb = s.stores kb) (hdocs : t.docs = s.docs)
    (htfeed : t.feed = rest) :
    t.Tracks kb := by
  refine h.of_docs hindex hrows (fun a ha hpending => ?_) (.inr (by rw [hdocs])) fun _ => .inr (by rw [hdocs])
  have hne : parse name ≠ some a := fun hparse => hother (by rw [hparse, bind_some, ha])
  obtain ⟨n, hn, hparse⟩ := pending_tail hfeed hne hpending
  exact ⟨n, htfeed ▸ hn, hparse⟩

lemma Rewrites.tracks {rows : Rows S} (ht : Rewrites kb rows s t)
    (hrows : ∀ id ∈ s.docs.listed kb, rows id = s.docs.row kb id ∨ s.Pending (.kbNode kb id))
    (hlisted : ∀ id, (rows id).isSome → id ∈ s.docs.listed kb) : t.Tracks kb := by
  obtain ⟨idx, rfl, -, hmanifest⟩ := ht
  have hidx : idx.manifest kb = s.docs.listed kb := by rw [hmanifest, if_pos rfl]
  refine ⟨.inr fun id => by rw [hidx], fun id hid => ?_, fun id hid => ?_⟩
  · simp only [update_self]
    exact hrows id (hidx ▸ hid)
  · simp only [update_self] at hid
    exact hidx ▸ hlisted id hid

section

variable (hs : s.Sound) (h : s.Tracks kb) (hfeed : s.feed = name :: rest)
include hs h hfeed

lemma Tracks.nodeChange {id : String} (hparse : parse name = some (.kbNode kb id)) :
    (projectNodeChange kb id { s with feed := rest }).Tracks kb := by
  have hcurrent := h.current.imp_left (pending_tail hfeed (by simp [hparse]))
  have hother : ∀ i, i ≠ id → s.Pending (.kbNode kb i) → ({ s with feed := rest }).Pending (.kbNode kb i) :=
    fun i hi => pending_tail hfeed (by simpa [hparse] using hi.symm)
  have hknows : s.index.knows kb id = true ↔ id ∈ s.index.manifest kb := by
    rw [ProjectionIndex.knows, decide_eq_true_iff, hs.routes]
  rw [projectNodeChange_spec kb (hs.refeed rest s.owed)]
  split
  · rename_i hknown
    refine ⟨hcurrent, fun i hi => ?_, fun i hi => ?_⟩
    · by_cases hid : i = id
      · subst hid
        exact .inl (by simp)
      · simp only [update_self, update_of_ne hid]
        exact (h.projected i hi).imp_right (hother i hid)
    · by_cases hid : i = id
      · subst hid
        exact hknows.mp hknown
      · exact h.within i (by simpa [hid] using hi)
  · rename_i hknown
    refine ⟨hcurrent, fun i hi => (h.projected i hi).imp_right (hother i ?_), h.within⟩
    -- the entry is of no node in the index
    rintro rfl
    exact hknown (hknows.mpr hi)

lemma Tracks.collectionChange (hparse : parse name = some (.kbCollection kb)) :
    (projectCollectionChange kb { s with feed := rest }).Tracks kb := by
  refine (projectCollectionChange_spec kb (hs.refeed rest s.owed)).tracks (fun id hid => ?_) fun id hid => ?_
  · rw [if_pos hid]
    split
    · rename_i hprev
      exact (h.projected id hprev).imp_right (pending_tail hfeed (by simp [hparse]))
    · exact .inl rfl
  · split at hid
    · assumption
    · split at hid
      · cases hid
      · rename_i hprev
        exact absurd (h.within id hid) hprev

lemma Tracks.project : (projectDoc name { s with feed := rest }).Tracks kb := by
  have hs' := hs.refeed rest s.owed
  unfold projectDoc
  split
  · rename_i kb' id hparse
    by_cases hkb : kb' = kb
    · subst hkb
      exact h.nodeChange hs hfeed hparse
    · have hother : (parse name).bind kbId? ≠ some kb := by
        simpa [hparse, kbId?] using hkb
      rw [projectNodeChange_spec kb' hs']
      split
      · exact h.skip hfeed hother rfl (by simp [Ne.symm hkb]) rfl rfl
      · exact h.skip hfeed hother rfl rfl rfl rfl
  · rename_i kb' hparse
    by_cases hkb : kb' = kb
    · subst hkb
      exact h.collectionChange hs hfeed hparse
    · obtain ⟨idx, heq, -, hmanifest⟩ := projectCollectionChange_spec kb' hs'
      rw [heq]
      refine h.skip hfeed (by simpa [hparse, kbId?] using hkb) ?_ (by simp [Ne.symm hkb]) rfl rfl
      rw [hmanifest, if_neg (Ne.symm hkb)]
  all_goals
    rename_i hparse
    exact h.skip hfeed (by simp [hparse, kbId?]) rfl rfl rfl rfl

end

lemma owed_projectDoc (name : String) (s : State S) : (projectDoc name s).owed = s.owed := by
  unfold projectDoc projectNodeChange projectCollectionChange
  split
  · split <;> rfl
  · split <;> rfl
  all_goals rfl

lemma pending_append (names : List String) (h : s.Pending a) (htfeed : t.feed = s.feed ++ names) : t.Pending a := by
  obtain ⟨n, hn, hparse⟩ := h
  exact ⟨n, htfeed ▸ mem_append_left _ hn, hparse⟩

lemma pending_lose {start count : ℕ} (ha : a.kbId? = some kb)
    (hlost : ((s.feed.drop start).take count).any (concerns kb) = false) (h : s.Pending a) :
    (s.step (.lose start count)).Pending a := by
  obtain ⟨n, hn, hparse⟩ := h
  refine ⟨n, ?_, hparse⟩
  have hsplit : s.feed = s.feed.take start ++ ((s.feed.drop start).take count ++ s.feed.drop (start + count)) := by
    rw [← drop_drop, take_append_drop, take_append_drop]
  rw [hsplit, mem_append, mem_append] at hn
  rcases hn with hn | hn | hn
  · exact mem_append_left _ hn
  · have hnot : concerns kb n = false := by simpa using List.any_eq_false.mp hlost n hn
    simp [concerns, hparse, ha] at hnot
  · exact mem_append_right _ hn

lemma tracks_rebuild (hs : s.Sound) (hlisted : s.RowsListed kb) : (s.step (.rebuild kb)).Tracks kb := by
  have htracks : (s.rebuildKb kb).Tracks kb := by
    refine (rebuildKb_spec kb hs).tracks (fun id hid => .inl (if_pos hid)) fun id hid => ?_
    split at hid
    · assumption
    · exact hlisted id hid
  exact ⟨htracks.current, htracks.projected, htracks.within⟩

def Kept (kb : String) (s : State S) : Prop := s.owed kb = false → s.Tracks kb

lemma Kept.step (hs : s.Sound) (h : s.Kept kb) (he : e.WellFormed) (hrebuild : e = .rebuild kb → s.RowsListed kb) :
    (s.step e).Kept kb := by
  cases e with
  | changeCollection kb' root =>
    intro howed
    refine (h howed).of_docs rfl rfl (fun a _ hp => pending_append _ hp rfl) ?_ fun _ => .inr rfl
    by_cases hkb : kb = kb'
    · subst hkb
      exact .inl ⟨collectionDocName kb, by simp [State.step], he⟩
    · exact .inr (by simp [State.step, Docs.listed, hkb])
  | changeNode kb' id' d =>
    intro howed
    refine (h howed).of_docs rfl rfl (fun a _ hp => pending_append _ hp rfl) (.inr rfl) fun id => ?_
    by_cases hkb : kb = kb'
    · subst hkb
      by_cases hid : id = id'
      · subst hid
        exact .inl ⟨kbNodeDocName kb id, by simp [State.step], he.1⟩
      · exact .inr (by simp [State.step, Docs.row, hid])
    · exact .inr (by simp [State.step, Docs.row, hkb])
  | project =>
    intro howed
    simp only [State.step] at howed ⊢
    split
    · rename_i hfeed
      rw [hfeed] at howed
      exact h howed
    · rename_i name rest hfeed
      rw [hfeed] at howed
      rw [owed_projectDoc] at howed
      exact (h howed).project hs hfeed
  | lose start count =>
    intro howed
    have howed' := Bool.or_eq_false_iff.mp howed
    exact (h howed'.1).of_docs rfl rfl (fun a ha => pending_lose ha howed'.2) (.inr rfl) fun _ => .inr rfl
  | rebuild kb' =>
    by_cases hkb : kb = kb'
    · subst hkb
      exact fun _ => tracks_rebuild hs (hrebuild rfl)
    · intro howed
      obtain ⟨idx, heq, -, hmanifest⟩ := rebuildKb_spec kb' hs
      simp only [State.step, update_of_ne hkb, heq] at howed ⊢
      refine (h howed).of_docs ?_ (by simp [hkb]) (fun _ _ hp => hp) (.inr rfl) fun _ => .inr rfl
      rw [hmanifest, if_neg hkb]
  | restart => exact fun howed => absurd howed (by simp [State.step])

lemma RebuildsListed.nil : s.RebuildsListed kb [] := fun before after h => by simp at h

lemma RebuildsListed.cons (he : e = .rebuild kb → s.RowsListed kb) (h : (s.step e).RebuildsListed kb events) :
    s.RebuildsListed kb (e :: events) := by
  intro before after hsplit
  cases before with
  | nil => exact he (List.cons.inj hsplit).1
  | cons e' before =>
    obtain ⟨rfl, hrest⟩ := List.cons.inj hsplit
    exact h before after hrest

lemma RebuildsListed.tail (h : s.RebuildsListed kb (e :: events)) :
    (s.step e).RebuildsListed kb events := fun before after hsplit =>
  h (e :: before) after (by rw [hsplit, cons_append])

lemma sound_run (hs : s.Sound) (hwf : ∀ e ∈ events, e.WellFormed) : (s.run events).Sound := by
  induction events generalizing s with
  | nil => exact hs
  | cons e events ih =>
    exact ih (hs.step (hwf e (by simp))) fun e' he' => hwf e' (mem_cons_of_mem _ he')

lemma kept_run (hs : s.Sound) (h : s.Kept kb) (hwf : ∀ e ∈ events, e.WellFormed) (hlisted : s.RebuildsListed kb events) :
    (s.run events).Kept kb := by
  induction events generalizing s with
  | nil => exact h
  | cons e events ih =>
    have he := hwf e (by simp)
    refine ih (hs.step he) (h.step hs he ?_) (fun e' he' => hwf e' (mem_cons_of_mem _ he')) hlisted.tail
    rintro rfl
    exact hlisted [] events rfl

lemma tracks_initial (kb : String) : (initial : State S).Tracks kb := by
  refine ⟨.inr fun id => ?_, fun id hid => ?_, fun id h => (nomatch h)⟩
  · rw [initial, ProjectionIndex.manifest_default, Docs.listed_of_none _ _ rfl]
  · rw [initial, ProjectionIndex.manifest_default] at hid
    cases hid

lemma follows_rebuild_iff (hs : s.Sound) : (s.step (.rebuild kb)).Follows kb ↔ s.RowsListed kb := by
  obtain ⟨idx, heq, -, -⟩ := rebuildKb_spec kb hs
  simp only [State.step, heq, Follows, update_self]
  constructor
  · intro h id hid
    by_contra hnot
    have hnone := h id
    rw [if_neg hnot, if_neg hnot] at hnone
    rw [hnone] at hid
    cases hid
  · intro h id
    split
    · rfl
    · rename_i hnot
      by_contra hrow
      exact hnot (h id (isSome_iff_ne_none.mpr hrow))

theorem store_follows_documents (events : List (Event S)) (hwf : ∀ e ∈ events, e.WellFormed) (kb : String) :
    (((initial : State S).run events).Settled kb → (initial : State S).RebuildsListed kb events →
      ((initial : State S).run events).Follows kb) ∧
    ((((initial : State S).run events).step (.rebuild kb)).Follows kb ↔
      ((initial : State S).run events).RowsListed kb) := by
  refine ⟨fun hsettled hlisted => ?_, follows_rebuild_iff (sound_run sound_initial hwf)⟩
  have hkept : (initial.run events).Kept kb :=
    kept_run sound_initial (fun _ => tracks_initial kb) hwf hlisted
  exact (hkept hsettled.1).follows hsettled

end Tracking

end State

section Sample

open State

def Source.sample : Source where
  yrs := NodeYrs.sample
  parseTypedLinks _ _ := []
  isExternalLinkTarget _ := false
  parseTransclusionDirectives _ := []

def sampleDoc : Source.sample.yrs.Doc := SampleNode.author 1 ∅ (NodeDoc.fresh NodeYrs.sample "n" "Title" "body" [])

def sampleUnlisted : Root := (∅ : Root).writes (Root.ensureMap ∅ "nodes")

def sampleListing : Root := sampleUnlisted.writes (Root.addNode "n" "Title")

def sampleListed : List (Event Source.sample) :=
  [.changeNode "kb" "n" sampleDoc, .changeCollection "kb" sampleListing, .lose 0 2, .rebuild "kb"]

def sampleRemoval : List (Event Source.sample) :=
  [.changeNode "kb" "n" sampleDoc, .changeCollection "kb" sampleListing, .project, .project,
    .changeCollection "kb" (sampleListing.writes (Root.removeNode "n")), .lose 0 1, .rebuild "kb"]

def titleOf (s : State Source.sample) : Option String := (s.stores "kb" "n").map NodeRow.title

lemma rebuildsListed_sampleListed : initial.RebuildsListed "kb" sampleListed := by
  refine .cons nofun (.cons nofun (.cons nofun (.cons (fun _ => ?_) .nil)))
  exact fun id h => (nomatch h)

theorem lost_listing_is_rebuilt :
    (initial.run sampleListed).Follows "kb" ∧ titleOf (initial.run sampleListed) = some "Title" :=
  ⟨(store_follows_documents sampleListed (by decide +kernel) "kb").1 ⟨by decide +kernel, by decide +kernel⟩
    rebuildsListed_sampleListed, by decide +kernel⟩

theorem removed_node_survives_rebuild : (∀ e ∈ sampleRemoval, e.WellFormed) ∧ (initial.run sampleRemoval).Settled "kb" ∧
      (initial.run sampleRemoval).docs.listed "kb" = [] ∧ titleOf (initial.run sampleRemoval) = some "Title" ∧
      ¬ (initial.run sampleRemoval).Follows "kb" := by
  have hlisted : (initial.run sampleRemoval).docs.listed "kb" = [] := by decide +kernel
  have htitle : titleOf (initial.run sampleRemoval) = some "Title" := by decide +kernel
  refine ⟨by decide +kernel, ⟨by decide +kernel, by decide +kernel⟩, hlisted, htitle, fun h => ?_⟩
  have hrow := h "n"
  rw [titleOf, hrow] at htitle
  cases htitle

end Sample

end Mae.Daemon.Projection
