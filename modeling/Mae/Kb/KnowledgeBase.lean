import Mae.Kb.Node
import Mae.Library.Inverted

/-! The knowledge base in memory: its nodes, the indexes over them, and how local and remote writes change them. -/

namespace Mae.Kb

open Std (ExtTreeMap)
open Library Sync Sync.Membership Inverted

structure Host where
  yrs : NodeYrs
  crypto : Crypto
  linkTargets : (body id : String) → List String
  toLowercase : String → String

variable (H : Host)

def Node.links {Wire : Type} (node : Node Wire) : List String :=
  (H.linkTargets node.body node.id).foldl (fun out t => if t ∈ out then out else out ++ [t]) []

structure LowerCache where
  loweredId : String
  title : String
  body : String
  tags : List String
  aliases : List String
deriving DecidableEq

def LowerCache.fromNode {Wire : Type} (n : Node Wire) : LowerCache where
  loweredId := H.toLowercase n.id
  title := H.toLowercase n.title
  body := H.toLowercase n.body
  tags := n.tags.map H.toLowercase
  aliases := n.aliases.map H.toLowercase

structure KnowledgeBase (Wire : Type) where
  nodes : ExtTreeMap String (Node Wire)
  linksIn : Inverted String String
  lower : ExtTreeMap String LowerCache
  todoIndex : Inverted String String
  priorityIndex : Inverted Char String
  tagIndex : Inverted String String

inductive ReconcileAction where
  | created | merged | divergentLineage
deriving DecidableEq, Repr

structure ReconcileOutcome (Wire : Type) where
  action : ReconcileAction
  contentChanged : Bool
  localAhead : Option Wire

namespace KnowledgeBase

section

variable {Wire : Type}

def new : KnowledgeBase Wire := ⟨∅, ∅, ∅, ∅, ∅, ∅⟩

def unindex (id : String) (prev : Node Wire) (kb : KnowledgeBase Wire) : KnowledgeBase Wire :=
  { kb with
    linksIn := (prev.links H).foldl (prune id) kb.linksIn
    todoIndex := prev.todoState.toList.foldl (discard id) kb.todoIndex
    priorityIndex := prev.priority.toList.foldl (discard id) kb.priorityIndex
    tagIndex := prev.tags.foldl (discard id) kb.tagIndex }

def insert (node : Node Wire) (kb : KnowledgeBase Wire) : Option (Node Wire) × KnowledgeBase Wire :=
  let id := node.id
  let prev := kb.nodes[id]?
  let kb := prev.elim kb fun p => kb.unindex H id p
  (prev,
    { nodes := kb.nodes.insert id node
      linksIn := (node.links H).foldl (push id) kb.linksIn
      lower := kb.lower.insert id (LowerCache.fromNode H node)
      todoIndex := node.todoState.toList.foldl (push id) kb.todoIndex
      priorityIndex := node.priority.toList.foldl (push id) kb.priorityIndex
      tagIndex := node.tags.foldl (push id) kb.tagIndex })

def remove (id : String) (kb : KnowledgeBase Wire) : Option (Node Wire) × KnowledgeBase Wire :=
  match kb.nodes[id]? with
  | none => (none, kb)
  | some prev =>
    (some prev, { kb with nodes := kb.nodes.erase id, lower := kb.lower.erase id }.unindex H id prev)

def removeNodes : List String → KnowledgeBase Wire → List (Node Wire) × KnowledgeBase Wire
  | [], kb => ([], kb)
  | id :: ids, kb =>
    let (prev, kb) := kb.remove H id
    let (rest, kb) := kb.removeNodes ids
    (prev.toList ++ rest, kb)

def relink (id : String) (links : List String) (kb : KnowledgeBase Wire) : KnowledgeBase Wire :=
  { kb with linksIn := links.foldl (push id) (kb.linksIn.purge id) }

end

abbrev Of (H : Host) : Type := KnowledgeBase H.yrs.Wire

variable {H}

def upsertWithCrdt (node : Node H.yrs.Wire) (client : ℕ) (kb : Of H) : Option H.yrs.Wire × Of H :=
  let bytes := H.yrs.encode (node.upsertDoc H.yrs client)
  let kb := (kb.insert H { node with crdtDoc := some bytes }).2
  (if node.id ∈ kb.nodes then some bytes else none, kb)

def applyRemoteUpdate (mint : Mint) (nodeId : String) (update : H.yrs.Wire) (kb : Of H) : Except String (Bool × Of H) :=
  match kb.nodes[nodeId]? with
  | some node => do
    let doc ← node.toCrdtDoc H.yrs mint
    let (merged, changed) ← applyUpdate H.yrs H.crypto doc update
    if changed then
      let node := node.applyCrdtDoc H.yrs merged
      return (true, { kb with nodes := kb.nodes.insert nodeId node }.relink node.id (node.links H))
    return (false, kb)
  | none => do
    let doc ← H.yrs.decode update
    return (true, (kb.insert H (Node.received H.yrs doc .note)).2)

def adoptRemoteNode (nodeId : String) (state : H.yrs.Wire) (kb : Of H) : Except String (Bool × Of H) := do
  let doc ← H.yrs.decode state
  let mat := (H.yrs.read doc).materialize
  let kind := (kb.nodes[nodeId]?.map Node.kind).getD .note
  let changed := kb.nodes[nodeId]?.elim true fun n =>
    n.title != mat.title || n.body != mat.body || n.tags != mat.tags
  let kb := (kb.insert H (Node.received H.yrs doc kind)).2
  return (changed, kb.relink nodeId ((kb.nodes[nodeId]?.map (Node.links H)).getD []))

def nodeStateVector (mint : Mint) (nodeId : String) (kb : Of H) : Option OpSet.StateVector := do
  let node ← kb.nodes[nodeId]?
  let doc ← (node.toCrdtDoc H.yrs mint).toOption
  return OpSet.stateVector doc

def diverged (probe : Mint) (nodeId : String) (remoteSv : H.yrs.Wire) (kb : Of H) : Except String Bool :=
  match kb.nodeStateVector probe nodeId with
  | some pre => do
    let remote ← H.yrs.decodeSv remoteSv
    return decide (nodeId ∈ kb.nodes) && remote.hasOpsBeyond pre && pre.clientsDisjoint remote
  | none => .ok false

def localAhead (ahead : Mint) (nodeId : String) (remoteSv : H.yrs.Wire) (kb : Of H) :
    Except String (Option H.yrs.Wire) :=
  match kb.nodes[nodeId]? with
  | some node => do
    let doc ← node.toCrdtDoc H.yrs ahead
    let remote ← H.yrs.decodeSv remoteSv
    return if (OpSet.stateVector doc).hasOpsBeyond remote then some (H.yrs.encode (OpSet.diff doc remote)) else none
  | none => .ok none

def reconcileRemoteNode (probe merge ahead : Mint) (nodeId : String) (remoteDiff remoteSv : H.yrs.Wire) (kb : Of H) :
    Except String (ReconcileOutcome H.yrs.Wire × Of H) := do
  let existed := decide (nodeId ∈ kb.nodes)
  if ← kb.diverged probe nodeId remoteSv then
    return (⟨.divergentLineage, false, none⟩, kb)
  let (contentChanged, kb) ← kb.applyRemoteUpdate merge nodeId remoteDiff
  let localAhead ← if existed then kb.localAhead ahead nodeId remoteSv else .ok none
  return (⟨if existed then .merged else .created, contentChanged, localAhead⟩, kb)

end KnowledgeBase

def Host.sample : Host where
  yrs := NodeYrs.sample
  crypto := Crypto.transparent
  linkTargets _ _ := []
  toLowercase s := s.toLower

def sampleRoot (id body : String) (tags : List String) : KbNodeDoc := NodeDoc.fresh NodeYrs.sample id "Title" body tags

def sampleBytes (d : SampleNode) : Host.sample.yrs.Wire := SampleWire.doc d

def sampleMint : Mint := ⟨9, 0⟩

end Mae.Kb
