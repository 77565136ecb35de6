import Mae.Library.OpSet
import Mae.Sync.RebirthHash

/-! Nodes of a knowledge base, and the passage between a node and its `yrs` document. -/

namespace Mae.Kb

open Std (ExtTreeMap)
open Library Sync Sync.Membership Finset

inductive NodeKind where
  | index | command | concept | key | note | project | category | lesson | tutorial | metaNode | block | schemeApi
  | task | view
deriving DecidableEq, Repr

namespace NodeKind

def asStr : NodeKind → String
  | index => "index"
  | command => "command"
  | concept => "concept"
  | key => "key"
  | note => "note"
  | project => "project"
  | category => "category"
  | lesson => "lesson"
  | tutorial => "tutorial"
  | metaNode => "meta"
  | block => "block"
  | schemeApi => "scheme_api"
  | task => "task"
  | view => "view"

def fromStrLossy (s : String) : NodeKind :=
  match s with
  | "index" => index
  | "command" => command
  | "concept" => concept
  | "key" => key
  | "project" => project
  | "category" => category
  | "lesson" => lesson
  | "tutorial" => tutorial
  | "meta" => metaNode
  | "block" => block
  | "scheme_api" => schemeApi
  | "task" => task
  | "view" => view
  | _ => note

end NodeKind

inductive NodeSource where
  | seed | userOrg | manual | federation | promoted
deriving DecidableEq, Repr

namespace NodeSource

def asStr : NodeSource → String
  | seed => "seed"
  | userOrg => "user_org"
  | manual => "manual"
  | federation => "federation"
  | promoted => "promoted"

def fromStrOpt (s : String) : Option NodeSource :=
  match s with
  | "seed" => some seed
  | "user_org" => some userOrg
  | "manual" => some manual
  | "federation" => some federation
  | "promoted" => some promoted
  | _ => none

end NodeSource

deriving instance DecidableEq for Out
deriving instance DecidableEq for KbNodeDoc

structure NodeYrs where
  Item : Type
  Wire : Type
  [decEqItem : DecidableEq Item]
  read : Finset (OpSet.Op Item) → KbNodeDoc
  showArray : List String → String
  showMap : ExtTreeMap String String → String
  author : ℕ → Finset (OpSet.Op Item) → KbNodeDoc → Finset (OpSet.Op Item)
  encode : Finset (OpSet.Op Item) → Wire
  decode : Wire → Except String (Finset (OpSet.Op Item))
  encodeSv : OpSet.StateVector → Wire
  decodeSv : Wire → Except String OpSet.StateVector
  read_author : ∀ c d r, read (author c d r) = r
  decode_encode : ∀ d, decode (encode d) = .ok d
  decodeSv_encodeSv : ∀ v, decodeSv (encodeSv v) = .ok v

abbrev NodeYrs.Doc (Y : NodeYrs) : Type := Finset (OpSet.Op Y.Item)

instance (Y : NodeYrs) : DecidableEq Y.Item := Y.decEqItem

attribute [simp] NodeYrs.read_author NodeYrs.decode_encode NodeYrs.decodeSv_encodeSv

structure Node (Wire : Type) where
  id : String
  title : String
  kind : NodeKind
  body : String
  tags : List String
  todoState : Option String
  priority : Option Char
  source : Option NodeSource
  sourceVersion : Option UInt32
  aliases : List String
  properties : ExtTreeMap String String
  sourceFile : Option String
  crdtDoc : Option Wire
  createdAt : Option ℤ

def Node.new {Wire : Type} (id title : String) (kind : NodeKind) (body : String) : Node Wire where
  id := id
  title := title
  kind := kind
  body := body
  tags := []
  todoState := none
  priority := none
  source := none
  sourceVersion := none
  aliases := []
  properties := ∅
  sourceFile := none
  crdtDoc := none
  createdAt := none

/-! ### The setters of a document -/

def keepWanted (wanted : List String) : List String → List String → List String
  | [], kept => kept
  | x :: xs, kept =>
    if x ∈ wanted ∧ x ∉ kept then keepWanted wanted xs (x :: kept) else keepWanted wanted xs kept

def appendMissing : List String → List String → List String
  | [], kept => kept
  | t :: ts, kept => if t ∈ kept then appendMissing ts kept else appendMissing ts (kept ++ [t])

/-- The array `current` after the removals and additions that make it hold what is wanted. -/
def syncItems (current wanted : List String) : List String :=
  appendMissing wanted (keepWanted wanted current.reverse [])

def syncChanged (current wanted : List String) : Bool :=
  let kept := keepWanted wanted current.reverse []
  decide (kept.length < current.length) || decide (kept.length < (appendMissing wanted kept).length)

namespace NodeDoc

variable (Y : NodeYrs)

def schemaVersion (doc : KbNodeDoc) : ℤ := ((doc.root["schema_v"]?.map Out.toStr).bind parseI64).getD 1

def stampSchemaVersion (doc : KbNodeDoc) : KbNodeDoc :=
  if (doc.root["schema_v"]?.map Out.toStr).bind parseI64 = some 2 then doc
  else ⟨doc.root.insert "schema_v" (.any "2")⟩

/-- `set_title` and `set_body`. -/
def setText (key text : String) (doc : KbNodeDoc) : KbNodeDoc :=
  match doc.root[key]? with
  | some (.text _) => ⟨doc.root.insert key (.text text)⟩
  | _ => doc

def setTags (tags : List String) (doc : KbNodeDoc) : KbNodeDoc :=
  match doc.root["tags"]? with
  | some (.array current _) =>
    let items := syncItems current tags
    ⟨doc.root.insert "tags" (.array items (Y.showArray items))⟩
  | _ => doc

def setScalar (key : String) (value : Option String) (doc : KbNodeDoc) : KbNodeDoc :=
  if doc.scalar key = value then doc
  else
    stampSchemaVersion (match value with
      | some v => ⟨doc.root.insert key (.any v)⟩
      | none => ⟨doc.root.erase key⟩)

def setAliases (aliases : List String) (doc : KbNodeDoc) : KbNodeDoc :=
  let write (current : List String) : KbNodeDoc :=
    let items := syncItems current aliases
    ⟨doc.root.insert "aliases" (.array items (Y.showArray items))⟩
  match doc.root["aliases"]? with
  | some (.array current _) => if syncChanged current aliases then stampSchemaVersion (write current) else doc
  | _ => if syncChanged [] aliases then stampSchemaVersion (write []) else write []

def setProperties (props : ExtTreeMap String String) (doc : KbNodeDoc) : KbNodeDoc :=
  let written : KbNodeDoc := ⟨doc.root.insert "props" (.map props (Y.showMap props))⟩
  match doc.root["props"]? with
  | some (.map current _) => if current = props then doc else stampSchemaVersion written
  | _ => if props = ∅ then written else stampSchemaVersion written

/-- The root of `KbNodeDoc::new_with_client_id`. -/
def fresh (id title body : String) (tags : List String) : KbNodeDoc :=
  ⟨((((((((∅ : ExtTreeMap String Out).insert "id" (.any id)).insert "title" (.text title)).insert "body" (.text body)
    ).insert "tags" (.array tags (Y.showArray tags))).insert "links" (.array [] (Y.showArray []))
    ).insert "meta" (.map ∅ (Y.showMap ∅))).insert "aliases" (.array [] (Y.showArray []))
    ).insert "props" (.map ∅ (Y.showMap ∅))⟩

/-- The root of `KbNodeDoc::new`, which stamps the time. -/
def freshAt (now : ℤ) (id title body : String) (tags : List String) : KbNodeDoc :=
  ⟨(fresh Y id title body tags).root.insert "created" (.any (toString now))⟩

end NodeDoc

open NodeDoc

/-- What the construction of a document takes from outside: a random client and the clock. -/
structure Mint where
  client : ℕ
  now : ℤ

namespace Node

variable (Y : NodeYrs)

def writeV2Fields {Wire : Type} (node : Node Wire) (doc : KbNodeDoc) : KbNodeDoc :=
  let doc := setScalar "kind" (some node.kind.asStr) doc
  let doc := setScalar "todo" node.todoState doc
  let doc := setScalar "prio" (node.priority.map fun c => String.singleton c) doc
  let doc := setScalar "src_v" (node.sourceVersion.map fun v => toString v.toNat) doc
  let doc := setAliases Y node.aliases doc
  let doc := setProperties Y node.properties doc
  setScalar "source" (node.source.map NodeSource.asStr) doc

def toCrdtDoc (mint : Mint) (node : Node Y.Wire) : Except String Y.Doc :=
  match node.crdtDoc with
  | some bytes => Y.decode bytes
  | none =>
    .ok (Y.author mint.client ∅ (node.writeV2Fields Y (freshAt Y mint.now node.id node.title node.body node.tags)))

def applyCrdtDoc (node : Node Y.Wire) (d : Y.Doc) : Node Y.Wire :=
  let doc := Y.read d
  let v2 := 2 ≤ schemaVersion doc
  { node with
    title := doc.textAt "title"
    body := doc.textAt "body"
    tags := doc.arrayAt "tags"
    kind := (doc.scalar "kind").elim node.kind NodeKind.fromStrLossy
    todoState := if v2 then doc.scalar "todo" else node.todoState
    priority := if v2 then (doc.scalar "prio").bind fun p => p.toList.head? else node.priority
    sourceVersion := if v2 then (doc.scalar "src_v").bind parseU32 else node.sourceVersion
    aliases := if v2 then doc.arrayAt "aliases" else node.aliases
    properties := if v2 then doc.properties else node.properties
    source := if v2 then ((doc.scalar "source").bind NodeSource.fromStrOpt).or node.source else node.source
    createdAt := ((doc.scalar "created").bind parseI64).or node.createdAt
    crdtDoc := some (Y.encode d) }

def fromCrdtDoc (d : Y.Doc) (kind : NodeKind) (source : NodeSource) : Node Y.Wire :=
  let mat := (Y.read d).materialize
  { (Node.new mat.id mat.title (mat.kind.elim kind NodeKind.fromStrLossy) mat.body : Node Y.Wire) with
    tags := mat.tags
    source := (mat.source.bind NodeSource.fromStrOpt).or (some source)
    todoState := mat.todoState
    priority := mat.priority.bind fun p => p.toList.head?
    sourceVersion := mat.sourceVersion
    aliases := mat.aliases
    properties := mat.properties
    createdAt := mat.createdAt
    crdtDoc := some (Y.encode d) }

def received (d : Y.Doc) (kind : NodeKind) : Node Y.Wire :=
  let mat := (Y.read d).materialize
  { (Node.new mat.id mat.title kind mat.body : Node Y.Wire) with
    tags := mat.tags
    source := some .federation
    crdtDoc := some (Y.encode d) }

def freshV2Doc (node : Node Y.Wire) (client : ℕ) : Y.Doc :=
  Y.author client ∅ (node.writeV2Fields Y (fresh Y node.id node.title node.body node.tags))

/-- The document that `upsert_with_crdt` makes of a node. -/
def upsertDoc (node : Node Y.Wire) (client : ℕ) : Y.Doc :=
  match node.crdtDoc with
  | none => node.freshV2Doc Y client
  | some bytes =>
    match Y.decode bytes with
    | .error _ => node.freshV2Doc Y client
    | .ok d =>
      let doc := Y.read d
      let doc := if doc.textAt "title" ≠ node.title then setText "title" node.title doc else doc
      let doc := if doc.textAt "body" ≠ node.body then setText "body" node.body doc else doc
      let doc := if doc.arrayAt "tags" ≠ node.tags then setTags Y node.tags doc else doc
      Y.author client d (node.writeV2Fields Y doc)

end Node

def contentBytes (mat : MaterializedNode) : Bytes := (mat.title :: mat.body :: mat.tags).flatMap field

def contentHash (C : Crypto) (doc : KbNodeDoc) : String := hexEncode (C.sha256 (contentBytes doc.materialize))

/-- `KbNodeDoc::apply_update`: the document with the update, and whether its content is another. -/
def applyUpdate (Y : NodeYrs) (C : Crypto) (d : Y.Doc) (update : Y.Wire) : Except String (Y.Doc × Bool) := do
  let u ← Y.decode update
  let merged := d ∪ u
  return (merged, contentHash C (Y.read d) != contentHash C (Y.read merged))

section

open OpSet

def onlyOf {α : Type} : List α → Option α
  | [a] => some a
  | _ => none

lemma onlyOf_perm {α : Type} {l l' : List α} (h : l.Perm l') : onlyOf l = onlyOf l' := by
  match l, h with
  | [], h => rw [h.nil_eq]
  | [a], h => rw [List.singleton_perm.mp h]
  | a :: b :: t, h =>
    match l', h.length_eq with
    | _ :: _ :: _, _ => rfl

def only {α : Type} (s : Finset α) : Option α := Quot.liftOn s.val onlyOf fun _ _ => onlyOf_perm

/-- An item sets the whole root map, or adds to the text of the body. -/
inductive SampleItem where
  | root (doc : KbNodeDoc)
  | text (s : String)
deriving DecidableEq

abbrev SampleNode := Finset (Op SampleItem)

namespace SampleNode

def isLive (d : SampleNode) : Op SampleItem → Bool
  | .insert c k _ => decide (Op.delete c k ∉ d)
  | .delete _ _ => false

def live (d : SampleNode) : SampleNode := d.filter fun op => isLive d op = true

def rootIn : Op SampleItem → Finset KbNodeDoc
  | .insert _ _ (.root doc) => {doc}
  | _ => ∅

def textIn : Op SampleItem → Finset String
  | .insert _ _ (.text s) => {s}
  | _ => ∅

def deletionOf : Op SampleItem → Op SampleItem
  | .insert c k _ | .delete c k => .delete c k

def clockFor (c : ℕ) : Op SampleItem → ℕ
  | .insert c' k _ | .delete c' k => if c' = c then k + 1 else 0

def nextClock (d : SampleNode) (c : ℕ) : ℕ := d.sup (clockFor c)

def read (d : SampleNode) : KbNodeDoc :=
  match only ((live d).biUnion rootIn), only ((live d).biUnion textIn) with
  | some doc, none => doc
  | some doc, some s => ⟨doc.root.insert "body" (.text (doc.textAt "body" ++ s))⟩
  | none, _ => ⟨∅⟩

def author (c : ℕ) (d : SampleNode) (doc : KbNodeDoc) : SampleNode :=
  d ∪ (live d).image deletionOf ∪ {.insert c (nextClock d c) (.root doc)}

lemma lt_nextClock {d : SampleNode} {op : Op SampleItem} (h : op ∈ d) (c : ℕ) : clockFor c op ≤ nextClock d c :=
  le_sup h

lemma delete_mem_author {c c' k : ℕ} {d : SampleNode} {doc : KbNodeDoc} :
    Op.delete c' k ∈ author c d doc ↔ Op.delete c' k ∈ d ∨ ∃ a, Op.insert c' k a ∈ live d := by
  have himage : Op.delete c' k ∈ (live d).image deletionOf ↔ ∃ a, Op.insert c' k a ∈ live d := by
    rw [mem_image]
    constructor
    · rintro ⟨op, hop, heq⟩
      cases op with
      | insert c1 k1 a =>
        cases heq
        exact ⟨a, hop⟩
      | delete c1 k1 => simp [live, isLive] at hop
    · rintro ⟨a, ha⟩
      exact ⟨_, ha, rfl⟩
  simp [author, himage]

lemma live_author (c : ℕ) (d : SampleNode) (doc : KbNodeDoc) :
    live (author c d doc) = {.insert c (nextClock d c) (.root doc)} := by
  ext op
  cases op with
  | delete c' k => simp [live, isLive]
  | insert c' k a =>
    have hlive : Op.insert c' k a ∈ live (author c d doc) ↔
        Op.insert c' k a ∈ author c d doc ∧ Op.delete c' k ∉ author c d doc := by simp [live, isLive]
    rw [hlive, mem_singleton]
    constructor
    · rintro ⟨hmem, hnot⟩
      rw [delete_mem_author] at hnot
      push Not at hnot
      rcases mem_union.mp hmem with hmem | hnew
      · rcases mem_union.mp hmem with hold | hdel
        · have hold' : Op.insert c' k a ∈ live d := by simpa [live, isLive] using ⟨hold, hnot.1⟩
          exact absurd hold' (hnot.2 a)
        · obtain ⟨op, -, heq⟩ := mem_image.mp hdel
          cases op <;> cases heq
      · exact mem_singleton.mp hnew
    · intro heq
      obtain ⟨rfl, rfl, rfl⟩ := Op.insert.inj heq
      refine ⟨mem_union_right _ (mem_singleton_self _), ?_⟩
      rw [delete_mem_author]
      have hle : ∀ op ∈ d, clockFor c' op ≤ nextClock d c' := fun op hop => lt_nextClock hop c'
      rintro (hdel | ⟨a, ha⟩)
      · have hclock : nextClock d c' + 1 ≤ nextClock d c' := by simpa [clockFor] using hle _ hdel
        omega
      · have hin : Op.insert c' (nextClock d c') a ∈ d := (mem_filter.mp ha).1
        have hclock : nextClock d c' + 1 ≤ nextClock d c' := by simpa [clockFor] using hle _ hin
        omega

end SampleNode

inductive SampleWire where
  | doc (d : SampleNode)
  | sv (v : StateVector)

def SampleWire.decode : SampleWire → Except String SampleNode
  | doc d => .ok d
  | sv _ => .error "not a document"

def SampleWire.decodeSv : SampleWire → Except String StateVector
  | sv v => .ok v
  | doc _ => .error "not a state vector"

def NodeYrs.sample : NodeYrs where
  Item := SampleItem
  Wire := SampleWire
  read := SampleNode.read
  showArray items := ",".intercalate items
  showMap entries := ",".intercalate (entries.toList.map fun p => p.1 ++ ":" ++ p.2)
  author := SampleNode.author
  encode := .doc
  decode := SampleWire.decode
  encodeSv := .sv
  decodeSv := SampleWire.decodeSv
  read_author c d r := by
    unfold SampleNode.read
    rw [SampleNode.live_author]
    rfl
  decode_encode _ := rfl
  decodeSv_encodeSv _ := rfl

end

end Mae.Kb
