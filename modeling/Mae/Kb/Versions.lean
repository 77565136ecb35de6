import Mae.Daemon.Projector
import Mae.Kb.ImportAudit
import Mae.Library.Transactions

/-! Versions of a node: snapshots with a content hash, and their restoring. -/

namespace Mae.Kb.Versions

open Std (ExtTreeMap)
open Daemon.Projection Library Framing Proc Sync Sync.Membership Function List

/-- `serde_json` on the tags and the properties of a node. -/
structure Serde where
  tags : List String → String
  readTags : String → Option (List String)
  properties : ExtTreeMap String String → String
  readTags_tags : ∀ l, readTags (tags l) = some l

structure VersionRow where
  title : String
  body : String
  tagsJson : String
  todoState : String
  priority : String
  propertiesJson : String
  assignee : String
  changeSummary : String
  author : String
  contentHash : String

inductive StoreError where
  | notFound (what : String)
  | storage (msg : String)

structure Db (S : Source) where
  rows : Rows S
  nodeVersions : String → ExtTreeMap ℤ VersionRow

def computeHash (C : Crypto) (title body tagsJson todoState priority : String) : String :=
  hexEncode (C.sha256 (asBytes (title ++ "|" ++ body ++ "|" ++ tagsJson ++ "|" ++ todoState ++ "|" ++ priority)))

def sameVersionedContent {Wire : Type} (a b : Node Wire) : Bool :=
  a.title == b.title && a.body == b.body && a.tags == b.tags && a.todoState == b.todoState && a.priority == b.priority

def contentOf {Wire : Type} (n : Node Wire) : String × String × List String × Option String × Option Char :=
  (n.title, n.body, n.tags, n.todoState, n.priority)

lemma sameVersionedContent_iff {Wire : Type} (a b : Node Wire) :
    sameVersionedContent a b = true ↔ contentOf a = contentOf b := by
  simp [sameVersionedContent, contentOf, and_assoc]

def VersionRow.computedHash (C : Crypto) (row : VersionRow) : String :=
  computeHash C row.title row.body row.tagsJson row.todoState row.priority

/-- The integrity check of `restore_version`, which an empty hash passes. -/
def VersionRow.Refused (C : Crypto) (row : VersionRow) : Prop :=
  row.contentHash ≠ "" ∧ row.contentHash ≠ row.computedHash C
  deriving Decidable

/-- `restore_version` writes the fields of the version over those of the node. -/
def VersionRow.restore {Wire : Type} (J : Serde) (row : VersionRow) (node : Node Wire) : Node Wire :=
  { node with
    title := row.title
    body := row.body
    tags := (J.readTags row.tagsJson).getD []
    todoState := if row.todoState = "" then none else some row.todoState
    priority := row.priority.toList.head? }

section

variable {S : Source} (C : Crypto) (J : Serde)

abbrev Tx (S : Source) : Type → Type := Proc (Db S) StoreError

def Db.node (db : Db S) (id : String) : Option (Node S.yrs.Wire) := (db.rows id).map (rowToNode id)

def getNode (id : String) : Tx S (Option (Node S.yrs.Wire)) := .read (·.node id)

/-- The row that a snapshot writes for a node. -/
def versionOf (node : Node S.yrs.Wire) (summary : String) : VersionRow :=
  let tagsJson := J.tags node.tags
  let todoState := node.todoState.getD ""
  let priority := (node.priority.map String.singleton).getD ""
  { title := node.title, body := node.body, tagsJson, todoState, priority,
    propertiesJson := J.properties node.properties, assignee := "", changeSummary := summary, author := "local",
    contentHash := computeHash C node.title node.body tagsJson todoState priority }

def Db.putVersion (id : String) (version : ℤ) (row : VersionRow) (db : Db S) : Db S :=
  { db with nodeVersions := update db.nodeVersions id ((db.nodeVersions id).insert version row) }

def Db.putNode (node : Node S.yrs.Wire) (db : Db S) : Db S := { db with rows := insertNode db.rows node }

def Db.nextVersion (id : String) (db : Db S) : ℤ := (db.nodeVersions id).keys.getLast?.getD 0 + 1

/-- The row under the next number. -/
def Db.append (id : String) (row : VersionRow) (db : Db S) : Db S := db.putVersion id (db.nextVersion id) row

/-- `snapshot_version`: the next number, the node and the row are three transactions. -/
def snapshotVersion (id summary : String) : Tx S ℤ := do
  let next ← .read (·.nextVersion id)
  let some node ← getNode id | .fail (.notFound id)
  .modify (·.putVersion id next (versionOf C J node summary))
  return next

def insertNodeWithHistory (node : Node S.yrs.Wire) (summary : String) : Tx S Bool := do
  let snapshotted ← match ← getNode node.id with
    | some existing =>
      if existing.source = some .seed then pure false
      else if sameVersionedContent existing node then pure false
      else do
        let _ ← snapshotVersion C J node.id summary
        pure true
    | none => pure false
  .modify (·.putNode node)
  return snapshotted

def restoreVersion (id : String) (version : ℤ) : Tx S Unit := do
  let some row ← .read fun db => (db.nodeVersions id)[version]? | .fail (.notFound s!"{id}@v{version}")
  let computed := row.computedHash C
  if row.Refused C then
    .fail (.storage s!"integrity check failed for {id}@v{version}: stored hash {row.contentHash} != computed {computed}")
  else do
    let _ ← snapshotVersion C J id s!"pre-restore to v{version}"
    let some node ← getNode id | .fail (.notFound id)
    .modify (·.putNode (row.restore J node))
    let _ ← snapshotVersion C J id s!"restored to v{version}"
    return

inductive Call (S : Source) where
  | insert (node : Node S.yrs.Wire) (summary : String)
  | snapshot (id summary : String)
  | restore (id : String) (version : ℤ)

def Call.proc : Call S → Tx S Unit
  | insert node summary => do let _ ← insertNodeWithHistory C J node summary
  | snapshot id summary => do let _ ← snapshotVersion C J id summary
  | restore id version => restoreVersion C J id version

/-- The calls one after the other, those that fail included. -/
def runCalls (calls : List (Call S)) (db : Db S) : Db S := calls.foldl (fun db c => ((c.proc C J).run db).2) db

/-! ### The history grows -/

variable {C J} {db : Db S} {id : String}

namespace Db

/-- What a later state keeps: the version rows, and that a node is stored. -/
structure Grows (db db' : Db S) : Prop where
  kept : ∀ id (v : ℤ) row, (db.nodeVersions id)[v]? = some row → (db'.nodeVersions id)[v]? = some row
  stored : ∀ id, (db.node id).isSome → (db'.node id).isSome

lemma Grows.refl (db : Db S) : db.Grows db := ⟨fun _ _ _ h => h, fun _ h => h⟩

lemma Grows.trans {db db' db'' : Db S} (h : db.Grows db') (h' : db'.Grows db'') : db.Grows db'' :=
  ⟨fun id v row hrow => h'.kept id v row (h.kept id v row hrow), fun id hid => h'.stored id (h.stored id hid)⟩

lemma lt_nextVersion {v : ℤ} (h : v ∈ db.nodeVersions id) : v < db.nextVersion id := by
  obtain ⟨last, hlast⟩ := Option.isSome_iff_exists.mp (ExtTreeMap.isSome_maxKey?_of_mem h)
  have hle := (ExtTreeMap.maxKey?_eq_some_iff_mem_and_forall.mp hlast).2 v h
  rw [nextVersion, ← ExtTreeMap.maxKey?_eq_getLast?_keys, hlast, Option.getD_some]
  exact Int.lt_add_one_of_le (Std.isLE_compare.mp hle)

lemma getElem?_putVersion (id' : String) (v w : ℤ) (row : VersionRow) :
    ((db.putVersion id v row).nodeVersions id')[w]? =
      if id' = id ∧ v = w then some row else (db.nodeVersions id')[w]? := by
  by_cases hid : id' = id
  · subst hid
    simp [putVersion, ExtTreeMap.getElem?_insert]
  · simp [putVersion, hid]

lemma getElem?_putVersion_self (v : ℤ) (row : VersionRow) :
    ((db.putVersion id v row).nodeVersions id)[v]? = some row := by
  simp [putVersion]

lemma grows_append (row : VersionRow) : db.Grows (db.append id row) := by
  refine ⟨fun id' w r hr => ?_, fun id' h => h⟩
  rw [append, getElem?_putVersion, if_neg]
  · exact hr
  · rintro ⟨rfl, rfl⟩
    exact (lt_nextVersion (ExtTreeMap.mem_iff_isSome_getElem?.mpr (by rw [hr]; rfl))).false

@[simp] lemma node_append (id' : String) (row : VersionRow) : (db.append id row).node id' = db.node id' := rfl

lemma grows_putNode (node : Node S.yrs.Wire) : db.Grows (db.putNode node) := by
  refine ⟨fun _ _ _ h => h, fun id' h => ?_⟩
  by_cases hid : id' = node.id
  · simp [Db.node, putNode, insertNode, hid]
  · simpa [Db.node, putNode, insertNode, hid] using h

lemma id_of_node {node : Node S.yrs.Wire} (h : db.node id = some node) : node.id = id := by
  obtain ⟨row, -, rfl⟩ := Option.map_eq_some_iff.mp h
  rfl

lemma node_putNode {node : Node S.yrs.Wire} (h : node.id = id) :
    (db.putNode node).node id = some (rowToNode id (nodePutParams node)) := by
  simp [Db.node, putNode, insertNode, h]

end Db

open Db

lemma run_snapshotVersion (summary : String) : (snapshotVersion C J id summary).run db = match db.node id with
      | some node => (.ok (db.nextVersion id), db.append id (versionOf C J node summary))
      | none => (.error (.notFound id), db) := by
  cases h : db.node id <;> simp [snapshotVersion, getNode, run_bind, h, append]

lemma run_insertNodeWithHistory (node : Node S.yrs.Wire) (summary : String) :
    (insertNodeWithHistory C J node summary).run db = match db.node node.id with
      | some old =>
        if old.source = some .seed ∨ contentOf old = contentOf node then (.ok false, db.putNode node)
        else (.ok true, (db.append node.id (versionOf C J old summary)).putNode node)
      | none => (.ok false, db.putNode node) := by
  simp only [insertNodeWithHistory, getNode, run_bind, run_read, sameVersionedContent_iff]
  cases hnode : db.node node.id with
  | none => rfl
  | some old =>
    by_cases hseed : old.source = some .seed
    · simp [hseed, run_bind]
    · by_cases hsame : contentOf old = contentOf node
      · simp [hseed, hsame, run_bind]
      · simp [hseed, hsame, run_bind, run_snapshotVersion, hnode]

section

variable {version : ℤ} {row : VersionRow} (hrow : (db.nodeVersions id)[version]? = some row)
include hrow

lemma run_restoreVersion_refused (hhash : row.Refused C) :
    ∃ e, (restoreVersion C J id version).run db = (.error e, db) := by
  simp [restoreVersion, run_bind, hrow, hhash]

lemma run_restoreVersion {node : Node S.yrs.Wire} (hnode : db.node id = some node) (hhash : ¬ row.Refused C) :
    ∃ db', (restoreVersion C J id version).run db = (.ok (), db') ∧ db.Grows db' ∧
      db'.node id = some (rowToNode id (nodePutParams (row.restore J node))) := by
  have hput (db' : Db S) : (db'.putNode (row.restore J node)).node id = some _ :=
    node_putNode (show node.id = id from id_of_node hnode)
  simp only [restoreVersion, run_bind, run_read, hrow, hhash, run_snapshotVersion, getNode, hnode, hput,
    run_modify, if_false, node_append, run_pure]
  exact ⟨_, rfl, ((grows_append _).trans (grows_putNode _)).trans (grows_append _), hput _⟩

end

lemma Call.grows (c : Call S) : db.Grows ((c.proc C J).run db).2 := by
  cases c with
  | insert node summary =>
    simp only [Call.proc, run_bind, run_insertNodeWithHistory]
    cases db.node node.id with
    | none => exact grows_putNode node
    | some old =>
      dsimp only
      split_ifs
      · exact grows_putNode node
      · exact (grows_append _).trans (grows_putNode node)
  | snapshot id summary =>
    simp only [Call.proc, run_bind, run_snapshotVersion]
    cases db.node id with
    | none => exact .refl db
    | some node => exact grows_append _
  | restore id version =>
    cases hrow : (db.nodeVersions id)[version]? with
    | none => simpa [Call.proc, restoreVersion, run_bind, hrow] using Grows.refl db
    | some row =>
      by_cases hhash : row.Refused C
      · obtain ⟨e, hrun⟩ := run_restoreVersion_refused hrow hhash
        rw [Call.proc, hrun]
        exact .refl db
      · cases hnode : db.node id with
        | none =>
          simpa [Call.proc, restoreVersion, run_bind, hrow, hhash, run_snapshotVersion, hnode] using Grows.refl db
        | some node =>
          obtain ⟨db', hrun, hgrows, -⟩ := run_restoreVersion hrow hnode hhash
          rw [Call.proc, hrun]
          exact hgrows

lemma grows_runCalls (calls : List (Call S)) (db : Db S) : db.Grows (runCalls C J calls db) := by
  induction calls generalizing db with
  | nil => exact .refl db
  | cons c calls ih => exact c.grows.trans (ih _)

/-! ### Restoring -/

lemma contentOf_restore {n m : Node S.yrs.Wire} (hn : db.node id = some n) (summary : String) :
    contentOf (rowToNode id (nodePutParams ((versionOf C J n summary).restore J m))) = contentOf n := by
  obtain ⟨row, -, rfl⟩ := Option.map_eq_some_iff.mp hn
  have hprio : ((row.priority.toList.head?.map String.singleton).getD "").toList.head? = row.priority.toList.head? := by
    cases row.priority.toList.head? <;> simp
  by_cases htodo : row.todoState = "" <;>
    simp [contentOf, rowToNode, Node.new, nodePutParams, VersionRow.restore, versionOf, J.readTags_tags, htodo, hprio]

namespace VersionRow

def hashed (row : VersionRow) : String × String × String × String × String :=
  (row.title, row.body, row.tagsJson, row.todoState, row.priority)

/-- No bar in the hashed fields other than the body. -/
def Framed (row : VersionRow) : Prop :=
  ∀ s ∈ [row.title, row.tagsJson, row.todoState, row.priority], '|' ∉ s.toList

/-- The changes of a row that its hash tells: of framed fields under the old hash, or of the hash alone. -/
def Detected (row altered : VersionRow) : Prop :=
  altered.contentHash = row.contentHash ∧ altered.hashed ≠ row.hashed ∧ row.Framed ∧ altered.Framed ∨
    altered.hashed = row.hashed ∧ altered.contentHash ≠ row.contentHash ∧ altered.contentHash ≠ ""

lemma hashed_eq {a b : VersionRow} (hsha : Injective C.sha256) (ha : a.Framed) (hb : b.Framed)
    (h : a.computedHash C = b.computedHash C) : a.hashed = b.hashed := by
  have h := congrArg String.toList (asBytes_injective (hsha (hexEncode_injective h)))
  simp only [Framed, forall_mem_cons, not_mem_nil, false_imp_iff, implies_true, and_true] at ha hb
  have hbar : "|".toList = ['|'] := rfl
  simp only [String.toList_append, hbar, append_assoc, cons_append, nil_append] at h
  obtain ⟨htitle, h⟩ := append_terminator_inj ha.1 hb.1 h
  have h := congrArg reverse h
  simp only [reverse_append, reverse_cons, append_assoc, cons_append, nil_append] at h
  obtain ⟨hprio, h⟩ := append_terminator_inj (mem_reverse.not.mpr ha.2.2.2) (mem_reverse.not.mpr hb.2.2.2) h
  obtain ⟨htodo, h⟩ := append_terminator_inj (mem_reverse.not.mpr ha.2.2.1) (mem_reverse.not.mpr hb.2.2.1) h
  obtain ⟨htags, h⟩ := append_terminator_inj (mem_reverse.not.mpr ha.2.1) (mem_reverse.not.mpr hb.2.1) h
  simp only [reverse_inj, String.toList_inj] at htitle hprio htodo htags h
  simp only [hashed, htitle, h, htags, htodo, hprio]

lemma Detected.refused {row altered : VersionRow} (h : row.Detected altered) (hsha : Injective C.sha256)
    (hhash : row.contentHash = row.computedHash C) : altered.Refused C := by
  obtain ⟨hkept, hne, hframed, hframed'⟩ | ⟨hsame, hne, hempty⟩ := h
  · refine ⟨?_, fun heq => hne (hashed_eq hsha hframed' hframed ?_)⟩
    · rw [hkept, hhash]
      exact (hexEncode_sha256_ne _).1
    · rw [← heq, hkept, hhash]
  · refine ⟨hempty, fun heq => hne ?_⟩
    simp only [hashed, Prod.mk.injEq] at hsame
    rw [heq, hhash, computedHash, computedHash, hsame.1, hsame.2.1, hsame.2.2.1, hsame.2.2.2.1, hsame.2.2.2.2]

end VersionRow

end

def sampleTags (l : List String) : String :=
  String.ofList ((l.map fun s => (hexEncode (asBytes s)).toList).flatMap (· ++ ['\x00']))

lemma sampleTags_injective : Injective sampleTags := by
  intro l l' h
  have hfree (l : List String) : ∀ x ∈ l.map fun s => (hexEncode (asBytes s)).toList, '\x00' ∉ x := by
    rintro _ hx
    obtain ⟨s, -, rfl⟩ := mem_map.mp hx
    exact nulFree_hexEncode _
  exact map_injective_iff.mpr (fun _ _ h => asBytes_injective (hexEncode_injective (String.toList_injective h)))
    (flatMap_terminated_inj (hfree l) (hfree l') (String.ofList_injective h))

noncomputable def Serde.sample : Serde where
  tags := sampleTags
  readTags s := some (invFun sampleTags s)
  properties _ := "{}"
  readTags_tags l := congrArg some (leftInverse_invFun sampleTags_injective l)

def sampleNote (title : String) : Node Source.sample.yrs.Wire :=
  { Node.new "n" title .note "" with properties := (∅ : ExtTreeMap String String).insert "k" "v" }

def sampleDb : Db Source.sample where
  rows _ := some (nodePutParams (sampleNote "X"))
  nodeVersions _ := ∅

noncomputable def rivals (handle : ℕ) : Tx Source.sample Unit :=
  Call.proc .transparent .sample (if handle = 0 then .insert (sampleNote "Y") "a" else .insert (sampleNote "Z") "b")

end Mae.Kb.Versions
