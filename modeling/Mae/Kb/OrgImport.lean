import Mae.Kb.Node

/-! The import of an org directory into a store, and which nodes it deletes. -/

namespace Mae.Kb

open Std (ExtTreeMap)
open Sync.Membership Std.ExtTreeMap Finset List

inductive IngestMode where
  | full | incremental
deriving DecidableEq, Repr

structure SourceStore (Wire : Type) where
  nodes : ExtTreeMap String (Node Wire)
  sourceFiles : ExtTreeMap String (String × List String)

namespace SourceStore

variable {Wire : Type}

def insertNode (node : Node Wire) (store : SourceStore Wire) : SourceStore Wire :=
  { store with nodes := store.nodes.insert node.id node }

def deleteNode (store : SourceStore Wire) (id : String) : SourceStore Wire :=
  { store with nodes := store.nodes.erase id }

def sourceFileNodeIds (store : SourceStore Wire) (path : String) : List String :=
  (store.sourceFiles[path]?.map Prod.snd).getD []

def recordSourceFile (path contentHash : String) (nodeIds : List String) (store : SourceStore Wire) :
    SourceStore Wire :=
  let stale := (store.sourceFileNodeIds path).filter fun id => id ∉ nodeIds
  let store := stale.foldl deleteNode store
  { store with sourceFiles := store.sourceFiles.insert path (contentHash, nodeIds) }

def removeSourceFile (stillProduced : Finset String) (store : SourceStore Wire) (path : String) : SourceStore Wire :=
  let gone := (store.sourceFileNodeIds path).filter fun id => id ∉ stillProduced
  let store := gone.foldl deleteNode store
  { store with sourceFiles := store.sourceFiles.erase path }

def removeVanishedFiles (visitedFiles seenIds : Finset String) (store : SourceStore Wire) : SourceStore Wire :=
  (store.sourceFiles.keys.filter fun path => path ∉ visitedFiles).foldl (removeSourceFile seenIds) store

end SourceStore

/-- An entry that the walk yields. A file that cannot be read has no content. -/
structure WalkEntry where
  path : String
  isFile : Bool
  content : Option String

def fileName (path : String) : List Char := (path.toList.reverse.takeWhile fun c => c ≠ '/').reverse

def extension (path : String) : Option (List Char) :=
  let name := fileName path
  let ext := (name.reverse.takeWhile fun c => c ≠ '.').reverse
  if ext.length + 1 < name.length then some ext else none

def isInstanceSentinel (path : String) : Bool := fileName path == "eor-instance.org".toList

def WalkEntry.isImported (e : WalkEntry) : Bool :=
  e.isFile && extension e.path == some "org".toList && !isInstanceSentinel e.path

structure Importer (Wire : Type) where
  parse : String → List (Node Wire)
  crypto : Crypto
  writeFails : (path id : String) → Bool

/-- The state of a pass over the directory. -/
structure ImportPass (Wire : Type) where
  store : SourceStore Wire
  seenIds : Finset String
  visitedFiles : Finset String

namespace Importer

variable {Wire : Type} (imp : Importer Wire)

def contentHash (content : String) : String := hexEncode (imp.crypto.sha256 (asBytes content))

def importNode (path : String) (st : SourceStore Wire × Finset String × List String) (node : Node Wire) :
    SourceStore Wire × Finset String × List String :=
  let (store, seen, ids) := st
  if node.id ∈ seen then st
  else if imp.writeFails path node.id then st
  else (store.insertNode { node with sourceFile := some path }, insert node.id seen, ids ++ [node.id])

def importContent (path content : String) (pass : ImportPass Wire) : ImportPass Wire :=
  let (store, seen, ids) := (imp.parse content).foldl (imp.importNode path) (pass.store, pass.seenIds, [])
  { pass with store := store.recordSourceFile path (imp.contentHash content) ids, seenIds := seen }

def unchanged (path content : String) (store : SourceStore Wire) : Bool :=
  store.sourceFiles[path]?.map Prod.fst == some (imp.contentHash content)

def importEntry (mode : IngestMode) (pass : ImportPass Wire) (e : WalkEntry) : ImportPass Wire :=
  if e.isImported then
    let pass := { pass with visitedFiles := insert e.path pass.visitedFiles }
    match e.content with
    | none => pass
    | some content =>
      if mode = .incremental ∧ imp.unchanged e.path content pass.store = true then pass
      else if (imp.parse content).isEmpty then pass
      else imp.importContent e.path content pass
  else pass

def importOrgDirToStore (orgDir : String) (isDir : Bool) (mode : IngestMode) (walk : List WalkEntry)
    (store : SourceStore Wire) : Except String (SourceStore Wire) :=
  if mode = .full ∧ isDir = false then
    .error ("org directory " ++ orgDir ++
      " does not exist — refusing a full ingest that would delete every node it tracks")
  else
    let pass := walk.foldl (imp.importEntry mode) ⟨store, ∅, ∅⟩
    .ok (if mode = .full then pass.store.removeVanishedFiles pass.visitedFiles pass.seenIds else pass.store)

end Importer

/-! ### What is deleted -/

section Deleting

variable {Wire : Type} {store : SourceStore Wire}

open SourceStore

lemma mem_foldl_deleteNode (ids : List String) {id : String} :
    id ∈ (ids.foldl deleteNode store).nodes ↔ id ∈ store.nodes ∧ id ∉ ids := by
  induction ids generalizing store with
  | nil => simp
  | cons i ids ih =>
    rw [foldl_cons, ih, deleteNode, ExtTreeMap.mem_erase, List.mem_cons]
    have hne : ¬compare i id = .eq ↔ id ≠ i := by
      rw [Std.LawfulEqOrd.compare_eq_iff_eq]
      exact ⟨fun h => Ne.symm h, fun h => Ne.symm h⟩
    tauto

lemma sourceFiles_foldl_deleteNode (ids : List String) :
    (ids.foldl deleteNode store).sourceFiles = store.sourceFiles := by
  induction ids generalizing store with
  | nil => rfl
  | cons i ids ih => exact ih

lemma mem_recordSourceFile {path contentHash : String} {nodeIds : List String} {id : String} (h : id ∈ store.nodes)
    (hkept : id ∈ store.sourceFileNodeIds path → id ∈ nodeIds) :
    id ∈ (store.recordSourceFile path contentHash nodeIds).nodes := by
  refine (mem_foldl_deleteNode _).mpr ⟨h, fun hstale => ?_⟩
  obtain ⟨hprev, hnot⟩ := List.mem_filter.mp hstale
  exact absurd (hkept hprev) (by simpa using hnot)

lemma sourceFiles_recordSourceFile {path contentHash p : String} {nodeIds : List String} (h : p ≠ path) :
    (store.recordSourceFile path contentHash nodeIds).sourceFiles[p]? = store.sourceFiles[p]? := by
  simp only [recordSourceFile, sourceFiles_foldl_deleteNode, ExtTreeMap.getElem?_insert,
    Std.LawfulEqOrd.compare_eq_iff_eq, Ne.symm h, if_false]

lemma mem_removeVanishedFiles {visited seen : Finset String} {id : String} (h : id ∈ store.nodes)
    (hkept : ∀ p ∉ visited, id ∈ store.sourceFileNodeIds p → id ∈ seen) :
    id ∈ (store.removeVanishedFiles visited seen).nodes := by
  have hall : ∀ (paths : List String) (store' : SourceStore Wire), (∀ p ∈ paths, p ∉ visited) →
      (∀ p ∉ visited, id ∈ store'.sourceFileNodeIds p → id ∈ seen) → id ∈ store'.nodes →
      id ∈ (paths.foldl (removeSourceFile seen) store').nodes := by
    intro paths
    induction paths with
    | nil => exact fun _ _ _ h => h
    | cons path paths ih =>
      intro store' hpaths hids hmem
      refine ih _ (fun p hp => hpaths p (List.mem_cons_of_mem _ hp)) ?_ ?_
      · intro p hp hid
        refine hids p hp ?_
        simp only [sourceFileNodeIds, removeSourceFile, sourceFiles_foldl_deleteNode, getElem?_erase] at hid
        split at hid
        · simp at hid
        · exact hid
      · refine (mem_foldl_deleteNode _).mpr ⟨hmem, fun hgone => ?_⟩
        obtain ⟨hid, hnot⟩ := List.mem_filter.mp hgone
        exact absurd (hids path (hpaths path List.mem_cons_self) hid) (by simpa using hnot)
  refine hall _ store ?_ hkept h
  intro p hp
  simpa using (List.mem_filter.mp hp).2

end Deleting

namespace Importer

variable {Wire : Type} (imp : Importer Wire)

def idsOf (content : String) : List String := (imp.parse content).map Node.id

structure NodesImported (path : String) (nodes : List (Node Wire))
    (st st' : SourceStore Wire × Finset String × List String) : Prop where
  stored : ∀ id ∈ st.1.nodes, id ∈ st'.1.nodes
  files : st'.1.sourceFiles = st.1.sourceFiles
  seen_mono : st.2.1 ⊆ st'.2.1
  seen_from : ∀ id ∈ st'.2.1, id ∈ st.2.1 ∨ id ∈ nodes.map Node.id
  seen_all : ∀ id ∈ nodes.map Node.id, imp.writeFails path id = false → id ∈ st'.2.1
  own_mono : ∀ id ∈ st.2.2, id ∈ st'.2.2
  own_new : ∀ id ∈ st'.2.1, id ∈ st.2.1 ∨ id ∈ st'.2.2

lemma nodesImported (path : String) (nodes : List (Node Wire)) (st : SourceStore Wire × Finset String × List String) :
    imp.NodesImported path nodes st (nodes.foldl (imp.importNode path) st) := by
  induction nodes generalizing st with
  | nil => exact ⟨fun _ h => h, rfl, Finset.Subset.refl _, fun _ h => .inl h, by simp, fun _ h => h, fun _ h => .inl h⟩
  | cons n nodes ih =>
    have hrest := ih (imp.importNode path st n)
    rw [foldl_cons]
    generalize nodes.foldl (imp.importNode path) (imp.importNode path st n) = st' at hrest ⊢
    obtain ⟨store, seen, ids⟩ := st
    by_cases hskip : n.id ∈ seen ∨ imp.writeFails path n.id = true
    · have hsame : imp.importNode path (store, seen, ids) n = (store, seen, ids) := by
        rcases hskip with h | h
        · simp [importNode, h]
        · simp [importNode, h]
      rw [hsame] at hrest
      refine { hrest with seen_from := ?_, seen_all := ?_ }
      · intro id hid
        exact (hrest.seen_from id hid).imp_right (List.mem_cons_of_mem _)
      · intro id hid hok
        rcases List.mem_cons.mp hid with rfl | hid
        · exact hrest.seen_mono (hskip.resolve_right (by simp [hok]))
        · exact hrest.seen_all id hid hok
    · obtain ⟨hseen, hfails⟩ := not_or.mp hskip
      have hnew : imp.importNode path (store, seen, ids) n =
          (store.insertNode { n with sourceFile := some path }, insert n.id seen, ids ++ [n.id]) := by
        simp [importNode, hseen, hfails]
      rw [hnew] at hrest
      refine ⟨?_, hrest.files, ?_, ?_, ?_, ?_, ?_⟩
      · intro id hid
        exact hrest.stored id (ExtTreeMap.mem_insert.mpr (.inr hid))
      · exact (Finset.subset_insert _ _).trans hrest.seen_mono
      · intro id hid
        rcases hrest.seen_from id hid with hid | hid
        · rcases Finset.mem_insert.mp hid with rfl | hid
          · exact .inr List.mem_cons_self
          · exact .inl hid
        · exact .inr (List.mem_cons_of_mem _ hid)
      · intro id hid hok
        rcases List.mem_cons.mp hid with rfl | hid
        · exact hrest.seen_mono (Finset.mem_insert_self _ _)
        · exact hrest.seen_all id hid hok
      · intro id hid
        exact hrest.own_mono id (mem_append_left _ hid)
      · intro id hid
        rcases hrest.own_new id hid with hid | hid
        · rcases Finset.mem_insert.mp hid with rfl | hid
          · exact .inr (hrest.own_mono _ (by simp))
          · exact .inl hid
        · exact .inr hid

def Finds (walk : List WalkEntry) (path id : String) : Prop :=
  ∃ e ∈ walk, e.isImported = true ∧ e.path = path ∧ ∃ content, e.content = some content ∧ id ∈ imp.idsOf content

def Visits (walk : List WalkEntry) (path : String) : Prop := ∃ e ∈ walk, e.isImported = true ∧ e.path = path

def Reads (walk : List WalkEntry) (path : String) : Prop :=
  ∃ e ∈ walk, e.isImported = true ∧ e.path = path ∧ e.content.isSome = true

structure Stays (mode : IngestMode) (walk : List WalkEntry) (path id : String) : Prop where
  read : Reads walk path → imp.Finds walk path id ∧ imp.writeFails path id = false ∧
    ∀ other, imp.Finds walk other id → other = path
  gone : mode = .full → ¬Visits walk path → (∃ other, imp.Finds walk other id) ∧
    ∀ other, imp.Finds walk other id → imp.writeFails other id = false

def Contains (files : List (String × String)) (id : String) : Prop := ∃ file ∈ files, id ∈ imp.idsOf file.2

/-- What holds of a pass that began with `store₀` and has seen the entries in `done`. -/
structure PassInv (mode : IngestMode) (live : String → Prop) (store₀ : SourceStore Wire) (done : List WalkEntry)
    (pass : ImportPass Wire) : Prop where
  untouched : ∀ p, ¬Visits done p → pass.store.sourceFiles[p]? = store₀.sourceFiles[p]?
  visited : ∀ p, p ∈ pass.visitedFiles ↔ Visits done p
  seen_from : ∀ id ∈ pass.seenIds, ∃ p, imp.Finds done p id
  seen_all : mode = .full → ∀ p id, imp.Finds done p id → imp.writeFails p id = false → id ∈ pass.seenIds
  kept : ∀ id, live id → id ∈ store₀.nodes → id ∈ pass.store.nodes

section Pass

variable {imp} {mode : IngestMode} {live : String → Prop} {store₀ : SourceStore Wire} {done : List WalkEntry}
  {pass : ImportPass Wire} {e : WalkEntry}

lemma visits_append {p : String} : Visits (done ++ [e]) p ↔ Visits done p ∨ (e.isImported = true ∧ e.path = p) := by
  simp [Visits, or_and_right, exists_or]

lemma finds_append {p id : String} : imp.Finds (done ++ [e]) p id ↔
    imp.Finds done p id ∨ (e.isImported = true ∧ e.path = p ∧ ∃ c, e.content = some c ∧ id ∈ imp.idsOf c) := by
  simp [Finds, or_and_right, exists_or]

lemma Finds.mono {walk : List WalkEntry} {p id : String} (h : imp.Finds done p id) (hsub : ∀ e ∈ done, e ∈ walk) :
    imp.Finds walk p id := by
  obtain ⟨e, he, hrest⟩ := h
  exact ⟨e, hsub e he, hrest⟩

lemma Finds.visits {p id : String} (h : imp.Finds done p id) : Visits done p := by
  obtain ⟨e, he, himp, hpath, -⟩ := h
  exact ⟨e, he, himp, hpath⟩

variable (h : imp.PassInv mode live store₀ done pass)
include h

lemma PassInv.ignore (himp : e.isImported = false) : imp.PassInv mode live store₀ (done ++ [e]) pass := by
  have hvisits : ∀ p, Visits (done ++ [e]) p ↔ Visits done p := fun p => by simp [visits_append, himp]
  have hfinds : ∀ p id, imp.Finds (done ++ [e]) p id ↔ imp.Finds done p id := fun p id => by
    simp [finds_append, himp]
  refine ⟨?_, ?_, ?_, ?_, h.kept⟩
  · intro p hp
    exact h.untouched p fun hv => hp ((hvisits p).mpr hv)
  · intro p
    rw [h.visited, hvisits]
  · intro id hid
    obtain ⟨p, hp⟩ := h.seen_from id hid
    exact ⟨p, (hfinds p id).mpr hp⟩
  · intro hmode p id hfound hok
    exact h.seen_all hmode p id ((hfinds p id).mp hfound) hok

lemma PassInv.skip (himp : e.isImported = true)
    (hseen : mode = .full → ∀ c, e.content = some c → ∀ id ∈ imp.idsOf c, imp.writeFails e.path id = false → id ∈
      pass.seenIds) :
    imp.PassInv mode live store₀ (done ++ [e]) { pass with visitedFiles := insert e.path pass.visitedFiles } where
  untouched p hp := h.untouched p fun hv => hp (visits_append.mpr (.inl hv))
  visited p := by
    rw [Finset.mem_insert, h.visited, visits_append, or_comm, eq_comm]
    simp [himp]
  seen_from id hid := by
    obtain ⟨p, hp⟩ := h.seen_from id hid
    exact ⟨p, finds_append.mpr (.inl hp)⟩
  seen_all hmode p id hfinds hok := by
    rcases finds_append.mp hfinds with hold | ⟨-, rfl, c, hc, hid⟩
    · exact h.seen_all hmode p id hold hok
    · exact hseen hmode c hc id hid hok
  kept := h.kept

lemma PassInv.importContent {content : String} (himp : e.isImported = true) (hcontent : e.content = some content)
    (hnew : ¬Visits done e.path)
    (hstays : ∀ id, live id → id ∈ store₀.sourceFileNodeIds e.path → id ∈ imp.idsOf content ∧ imp.writeFails e.path id
      = false ∧ ∀ p, ¬imp.Finds done p id) :
    imp.PassInv mode live store₀ (done ++ [e])
      (imp.importContent e.path content { pass with visitedFiles := insert e.path pass.visitedFiles }) := by
  have hnodes := imp.nodesImported e.path (imp.parse content) (pass.store, pass.seenIds, [])
  have hfinds : ∀ id ∈ imp.idsOf content, imp.Finds (done ++ [e]) e.path id := fun id hid =>
    finds_append.mpr (.inr ⟨himp, rfl, content, hcontent, hid⟩)
  unfold Importer.importContent
  generalize (imp.parse content).foldl (imp.importNode e.path) (pass.store, pass.seenIds, []) = st at hnodes ⊢
  constructor
  · intro p hp
    have hne : p ≠ e.path := by
      rintro rfl
      exact hp (visits_append.mpr (.inr ⟨himp, rfl⟩))
    refine (sourceFiles_recordSourceFile hne).trans ?_
    rw [hnodes.files]
    exact h.untouched p fun hv => hp (visits_append.mpr (.inl hv))
  · intro p
    rw [Finset.mem_insert, h.visited, visits_append, or_comm, eq_comm]
    simp [himp]
  · intro id hid
    rcases hnodes.seen_from id hid with hid | hid
    · obtain ⟨p, hp⟩ := h.seen_from id hid
      exact ⟨p, finds_append.mpr (.inl hp)⟩
    · exact ⟨e.path, hfinds id hid⟩
  · intro hmode p id hfound hok
    rcases finds_append.mp hfound with hold | ⟨-, rfl, c, hc, hid⟩
    · exact hnodes.seen_mono (h.seen_all hmode p id hold hok)
    · obtain rfl := Option.mem_unique hcontent hc
      exact hnodes.seen_all id hid hok
  · intro id hlive hid
    refine mem_recordSourceFile (hnodes.stored id (h.kept id hlive hid)) fun hprev => ?_
    have hrecord : id ∈ store₀.sourceFileNodeIds e.path := by
      unfold SourceStore.sourceFileNodeIds at hprev ⊢
      rwa [hnodes.files, h.untouched e.path hnew] at hprev
    obtain ⟨hin, hok, hnone⟩ := hstays id hlive hrecord
    rcases hnodes.own_new id (hnodes.seen_all id hin hok) with hseen | hown
    · obtain ⟨p, hp⟩ := h.seen_from id hseen
      exact absurd hp (hnone p)
    · exact hown

end Pass

section

variable {imp : Importer Wire} {mode : IngestMode} {live : String → Prop} {store₀ : SourceStore Wire}
  {walk : List WalkEntry} {pass : ImportPass Wire}
  (hwalk : ((walk.filter WalkEntry.isImported).map WalkEntry.path).Nodup)
  (hstays : ∀ path id, live id → id ∈ store₀.sourceFileNodeIds path → imp.Stays mode walk path id)
include hwalk hstays

lemma PassInv.importEntry {done rest : List WalkEntry} {e : WalkEntry} (hsplit : walk = done ++ e :: rest)
    (h : imp.PassInv mode live store₀ done pass) : imp.PassInv mode live store₀ (done ++ [e]) (imp.importEntry mode pass e) := by
  have hmem : e ∈ walk := by simp [hsplit]
  have hsub : ∀ e' ∈ done, e' ∈ walk := fun e' he' => by simp [hsplit, he']
  unfold Importer.importEntry
  by_cases himp : e.isImported = true
  · rw [if_pos himp]
    cases hcontent : e.content with
    | none => exact h.skip himp fun _ c hc => nomatch hcontent.symm.trans hc
    | some content =>
      simp only
      split
      · rename_i hmode
        refine h.skip himp fun hfull => ?_
        rw [hfull] at hmode
        exact absurd hmode.1 (by decide)
      · split
        · rename_i hempty
          refine h.skip himp fun _ c hc id hid => ?_
          obtain rfl := Option.mem_unique hcontent hc
          rw [idsOf, List.isEmpty_iff.mp hempty] at hid
          exact absurd hid not_mem_nil
        · have hnew : ¬Visits done e.path := by
            rw [hsplit, filter_append, map_append] at hwalk
            rintro ⟨e', he', himp', hpath⟩
            refine (disjoint_of_nodup_append hwalk) (a := e.path) ?_ ?_
            · exact List.mem_map.mpr ⟨e', List.mem_filter.mpr ⟨he', himp'⟩, hpath⟩
            · exact List.mem_map.mpr ⟨e, List.mem_filter.mpr ⟨List.mem_cons_self, himp⟩, rfl⟩
          refine h.importContent himp hcontent hnew fun id hlive hid => ?_
          obtain ⟨hfinds, hok, hother⟩ := (hstays e.path id hlive hid).read ⟨e, hmem, himp, rfl, by simp [hcontent]⟩
          refine ⟨?_, hok, fun p hp => ?_⟩
          · obtain ⟨e', he', himp', hpath, c, hc, hidc⟩ := hfinds
            obtain rfl : e' = e := inj_on_of_nodup_map hwalk (List.mem_filter.mpr ⟨he', himp'⟩)
              (List.mem_filter.mpr ⟨hmem, himp⟩) hpath
            obtain rfl := Option.mem_unique hcontent hc
            exact hidc
          · have hp' := hp.visits
            rw [hother p (hp.mono hsub)] at hp'
            exact hnew hp'
  · rw [if_neg himp]
    exact h.ignore (by simpa using himp)

lemma passInv_foldl (done rest : List WalkEntry) (hsplit : walk = done ++ rest)
    (h : imp.PassInv mode live store₀ done pass) :
    imp.PassInv mode live store₀ walk (rest.foldl (imp.importEntry mode) pass) := by
  induction rest generalizing done pass with
  | nil =>
    rw [hsplit, append_nil]
    exact h
  | cons e rest ih => exact ih (done ++ [e]) (by simp [hsplit]) (h.importEntry hwalk hstays hsplit)

end

def sampleImporter (failing : List (String × String)) : Importer Unit where
  parse content := (content.toList.filter Char.isAlpha).map fun c => Node.new (String.singleton c) "" .note ""
  crypto := Crypto.transparent
  writeFails path id := (path, id) ∈ failing

def sampleEntry (path content : String) : WalkEntry := ⟨path, true, some content⟩

def sampleImported (path : String) (ids : List String) : SourceStore Unit where
  nodes := ids.foldl (fun nodes id => nodes.insert id (Node.new id "" .note "")) ∅
  sourceFiles := (∅ : ExtTreeMap String (String × List String)).insert path ("", ids)

def sampleStore : SourceStore Unit := sampleImported "d/a.org" ["x", "z"]

lemma stays_sample (path id : String) (hlive : (sampleImporter []).Contains [("d/a.org", "z")] id)
    (hid : id ∈ sampleStore.sourceFileNodeIds path) :
    (sampleImporter []).Stays .full [sampleEntry "d/a.org" "z"] path id := by
  have hz : (sampleImporter []).idsOf "z" = ["z"] := by decide +kernel
  obtain ⟨file, hfile, hin⟩ := hlive
  obtain rfl := List.mem_singleton.mp hfile
  rw [hz] at hin
  obtain rfl := List.mem_singleton.mp hin
  obtain rfl : path = "d/a.org" := by
    by_contra hne
    simp [SourceStore.sourceFileNodeIds, sampleStore, sampleImported, Ne.symm hne] at hid
  have hentry : sampleEntry "d/a.org" "z" ∈ [sampleEntry "d/a.org" "z"] := List.mem_singleton_self _
  have himp : (sampleEntry "d/a.org" "z").isImported = true := by decide +kernel
  constructor
  · intro _
    refine ⟨⟨_, hentry, himp, rfl, "z", rfl, by simp [hz]⟩, rfl, ?_⟩
    rintro other ⟨e, he, -, rfl, -⟩
    obtain rfl := List.mem_singleton.mp he
    rfl
  · exact fun _ hnot => absurd ⟨_, hentry, himp, rfl⟩ hnot

def sampleImport (failing : List (String × String)) (walk : List WalkEntry) : Option Bool :=
  ((sampleImporter failing).importOrgDirToStore "d" true .full walk (sampleImported "d/a.org" ["x"])).toOption.map
    fun store => decide ("x" ∈ store.nodes)

end Importer

end Mae.Kb
