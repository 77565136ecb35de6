import Mae.Kb.OrgImport

/-! The checks around an import: the approved plan before it, and the census of the files after it. -/

namespace Mae.Kb

open Sync.Membership List

def isOrgFile (path : String) (isFile : Bool) : Bool := isFile && extension path == some "org".toList

/-! ### The plan -/

/-- A directory at one time: what the walk yields, with whether it is a file, and what can be read. -/
structure SourceDir where
  walk : List (String × Bool)
  read : String → Option Bytes
  nodup : (walk.map Prod.fst).Nodup

structure PlannedFile where
  path : String
  contentHash : String

inductive PlanDrift where
  | vanished (path : String)
  | modified (path : String)
  | appeared (path : String)
deriving DecidableEq

def PlanDrift.path : PlanDrift → String
  | vanished path | modified path | appeared path => path

namespace SourceDir

def walkOrgFiles (dir : SourceDir) : List String := (dir.walk.filter fun e => isOrgFile e.1 e.2).map Prod.fst

/-- Nothing where no file is found, and no bytes where it cannot be read. -/
def found (dir : SourceDir) (path : String) : Option (Option Bytes) :=
  if path ∈ dir.walkOrgFiles then some (dir.read path) else none

variable (C : Crypto) (dir : SourceDir)

def hashFile (path : String) : Option String := (dir.read path).map fun bytes => hexEncode (C.sha256 bytes)

def assessFile (path : String) : PlannedFile :=
  match dir.read path with
  | none => ⟨path, ""⟩
  | some bytes => ⟨path, hexEncode (C.sha256 bytes)⟩

def assess : List PlannedFile := dir.walkOrgFiles.map (dir.assessFile C)

def current (path : String) : Option String :=
  if path ∈ dir.walkOrgFiles then some ((dir.hashFile C path).getD "<unreadable>") else none

def driftOf (planned : PlannedFile) : Option PlanDrift :=
  match dir.current C planned.path with
  | none => some (.vanished planned.path)
  | some hash => if hash ≠ planned.contentHash then some (.modified planned.path) else none

/-- The keys of the map of current files come in any order. -/
def drift (plan : List PlannedFile) (keys : List String) : List PlanDrift :=
  plan.filterMap (dir.driftOf C) ++ (keys.filter fun path => path ∉ plan.map PlannedFile.path).map .appeared

def verifySourceUnchanged (plan : List PlannedFile) (keys : List String) : Except (List PlanDrift) Unit :=
  if dir.drift C plan keys = [] then .ok () else .error (dir.drift C plan keys)

end SourceDir

section Plan

variable {C : Crypto} {before after : SourceDir}

lemma hexEncode_sha256_ne (bytes : Bytes) :
    hexEncode (C.sha256 bytes) ≠ "" ∧ hexEncode (C.sha256 bytes) ≠ "<unreadable>" := by
  refine ⟨fun h => C.sha256_ne_nil bytes (hexEncode_injective h), fun h => ?_⟩
  obtain ⟨x, xs, hx⟩ := exists_cons_of_ne_nil (C.sha256_ne_nil bytes)
  have hhead := congrArg (List.head? ∘ String.toList) h
  rw [hx, hexEncode] at hhead
  have hdigit : ∀ m < 16, hexDigit m ≠ '<' := by decide
  exact hdigit (x.toNat / 16) (by have := x.toNat_lt; omega) (by simpa using hhead)

lemma nodup_walkOrgFiles (dir : SourceDir) : dir.walkOrgFiles.Nodup :=
  dir.nodup.sublist (filter_sublist.map _)

open SourceDir

@[simp] lemma path_assessFile (dir : SourceDir) (path : String) : (dir.assessFile C path).path = path := by
  rw [assessFile]
  split <;> rfl

variable (hsha : Function.Injective C.sha256)
include hsha

lemma hash_eq_iff {path : String} (hread : before.read path ≠ none ∨ after.read path ≠ none) :
    (after.hashFile C path).getD "<unreadable>" = (before.assessFile C path).contentHash ↔
      before.read path = after.read path := by
  rw [hashFile, assessFile]
  cases hb : before.read path with
  | none =>
    cases ha : after.read path with
    | none => simp [hb, ha] at hread
    | some bytes => simpa using (hexEncode_sha256_ne bytes).1
  | some bytes =>
    cases after.read path with
    | none => simpa using (hexEncode_sha256_ne bytes).2.symm
    | some bytes' => simpa [eq_comm] using (hexEncode_injective.comp hsha).eq_iff

lemma path_driftOf {path : String} (hpath : path ∈ before.walkOrgFiles)
    (hread : path ∈ after.walkOrgFiles → before.read path ≠ none ∨ after.read path ≠ none) :
    (after.driftOf C (before.assessFile C path)).map PlanDrift.path =
      Option.guard (fun path => before.found path ≠ after.found path) path := by
  rw [driftOf, current, Option.guard, found, found, if_pos hpath]
  by_cases hafter : path ∈ after.walkOrgFiles
  · have hiff := hash_eq_iff hsha (hread hafter)
    by_cases heq : before.read path = after.read path <;> simp [hafter, hiff, heq, PlanDrift.path]
  · simp [hafter, PlanDrift.path]

lemma map_path_drift
    (hread : ∀ path ∈ before.walkOrgFiles, path ∈ after.walkOrgFiles → before.read path ≠ none ∨ after.read path ≠ none)
    (keys : List String) :
    (after.drift C (before.assess C) keys).map PlanDrift.path =
      (before.walkOrgFiles.filter fun path => before.found path ≠ after.found path) ++
        keys.filter fun path => path ∉ before.walkOrgFiles := by
  have hpaths : (before.assess C).map PlannedFile.path = before.walkOrgFiles := by
    simp [assess, Function.comp_def]
  rw [drift, hpaths, map_append, map_map, assess, filterMap_map, map_filterMap]
  congr 1
  · rw [← filterMap_eq_filter]
    exact filterMap_congr fun path hpath => path_driftOf hsha hpath (hread path hpath)
  · exact map_id' _

end Plan

/-- The directory has one file. -/
def sampleDir (bytes : Option Bytes) : SourceDir := ⟨[("d/a.org", true)], fun _ => bytes, nodup_singleton _⟩

def sampleVerify (before after : Option Bytes) : Except (List PlanDrift) Unit :=
  (sampleDir after).verifySourceUnchanged .transparent ((sampleDir before).assess .transparent) ["d/a.org"]

/-- What becomes of a file that is counted, and so the list of the report that names it. -/
inductive Outcome where
  | error
  | skipped
  | sentinel
  | duplicates
  | unchanged
  | ids (ids : List String)
deriving DecidableEq

abbrev Census := List (String × Outcome)

/-- `reconcile_census` looks at `errors`, `skipped_paths` and `path_to_ids`. -/
def Outcome.recorded : Outcome → Bool
  | error | skipped | ids _ => true
  | sentinel | duplicates | unchanged => false

def Census.unaccountedFiles (c : Census) : List String :=
  (c.map Prod.fst).filter fun path => path ∉ (c.filter fun f => f.2.recorded).map Prod.fst

namespace Importer

variable {Wire : Type} (imp : Importer Wire)

def keepNode (st : Finset String × List String) (node : Node Wire) : Finset String × List String :=
  if node.id ∈ st.1 then st else (insert node.id st.1, st.2 ++ [node.id])

def dirEntry (st : Finset String × Census) (e : WalkEntry) : Finset String × Census :=
  if isOrgFile e.path e.isFile then
    if isInstanceSentinel e.path then (st.1, st.2 ++ [(e.path, .sentinel)])
    else match e.content with
      | none => (st.1, st.2 ++ [(e.path, .error)])
      | some content =>
        if (imp.parse content).isEmpty then (st.1, st.2 ++ [(e.path, .skipped)])
        else
          let (seenIds, ids) := (imp.parse content).foldl keepNode (st.1, [])
          -- `file_id_map` has no entry for a file without a new id
          (seenIds, st.2 ++ [(e.path, if ids.isEmpty then .duplicates else .ids ids)])
  else st

def importOrgDir (walk : List WalkEntry) : Census := (walk.foldl imp.dirEntry (∅, [])).2

def storeOutcome (mode : IngestMode) (pass : ImportPass Wire) (e : WalkEntry) : Outcome :=
  match e.content with
  | none => .error
  | some content =>
    -- the path goes to `accounted`, which is not passed on
    if mode = .incremental ∧ imp.unchanged e.path content pass.store = true then .unchanged
    else if (imp.parse content).isEmpty then .skipped
    else .ids ((imp.parse content).foldl (imp.importNode e.path) (pass.store, pass.seenIds, [])).2.2

def storeEntry (mode : IngestMode) (st : ImportPass Wire × Census) (e : WalkEntry) : ImportPass Wire × Census :=
  (imp.importEntry mode st.1 e, if e.isImported then st.2 ++ [(e.path, imp.storeOutcome mode st.1 e)] else st.2)

def storeCensus (mode : IngestMode) (walk : List WalkEntry) (store : SourceStore Wire) : Census :=
  (walk.foldl (imp.storeEntry mode) (⟨store, ∅, ∅⟩, [])).2

def BringsNewId (st : Finset String × Census) (e : WalkEntry) : Prop :=
  isOrgFile e.path e.isFile = true → isInstanceSentinel e.path = false ∧
    ∀ content, e.content = some content → imp.parse content ≠ [] → ∃ id ∈ imp.idsOf content, id ∉ st.1

def Changed (mode : IngestMode) (st : ImportPass Wire × Census) (e : WalkEntry) : Prop :=
  ∀ content, e.content = some content → mode = .incremental → imp.unchanged e.path content st.1.store = false

end Importer

def Along {σ : Type} (step : σ → WalkEntry → σ) (P : σ → WalkEntry → Prop) : σ → List WalkEntry → Prop
  | _, [] => True
  | st, e :: es => P st e ∧ Along step P (step st e) es

section Recording

variable {Wire σ : Type} {imp : Importer Wire} {e : WalkEntry}

lemma unaccountedFiles_eq_nil {c : Census} (h : ∀ f ∈ c, f.2.recorded = true) : c.unaccountedFiles = [] := by
  rw [Census.unaccountedFiles, filter_eq_self.mpr h]
  exact filter_eq_nil_iff.mpr fun path hpath => by simpa using hpath

lemma recorded_run {step : σ × Census → WalkEntry → σ × Census} {P : σ × Census → WalkEntry → Prop}
    (hstep : ∀ st e, P st e → ∀ f ∈ (step st e).2, f ∈ st.2 ∨ f.2.recorded = true) {walk : List WalkEntry}
    {st : σ × Census} (hwalk : Along step P st walk) (hst : ∀ f ∈ st.2, f.2.recorded = true) :
    ∀ f ∈ (walk.foldl step st).2, f.2.recorded = true := by
  induction walk generalizing st with
  | nil => exact hst
  | cons e es ih => exact ih hwalk.2 fun f hf => (hstep st e hwalk.1 f hf).elim (hst f) id

lemma recorded_append {c : Census} {path : String} {o : Outcome} (ho : o.recorded = true) :
    ∀ f ∈ c ++ [(path, o)], f ∈ c ∨ f.2.recorded = true := by
  intro f hf
  refine (mem_append.mp hf).imp_right fun hf => ?_
  rw [mem_singleton.mp hf]
  exact ho

lemma seen_of_keepNode {nodes : List (Node Wire)} {seen : Finset String} {ids : List String}
    (h : (nodes.foldl Importer.keepNode (seen, ids)).2 = []) : ids = [] ∧ ∀ node ∈ nodes, node.id ∈ seen := by
  induction nodes generalizing seen ids with
  | nil => exact ⟨h, by simp⟩
  | cons node nodes ih =>
    rw [foldl_cons, Importer.keepNode] at h
    split at h
    · next hin => exact ⟨(ih h).1, forall_mem_cons.mpr ⟨hin, (ih h).2⟩⟩
    · exact absurd (ih h).1 (by simp)

lemma recorded_dirEntry {st : Finset String × Census} (h : imp.BringsNewId st e) :
    ∀ f ∈ (imp.dirEntry st e).2, f ∈ st.2 ∨ f.2.recorded = true := by
  rw [Importer.dirEntry]
  split
  · next horg =>
    obtain ⟨hsentinel, hnew⟩ := h horg
    rw [if_neg (by simp [hsentinel])]
    cases hcontent : e.content with
    | none => exact recorded_append rfl
    | some content =>
      dsimp only
      split
      · exact recorded_append rfl
      · next hne =>
        obtain ⟨id, hid, hfree⟩ := hnew content hcontent (by simpa using hne)
        obtain ⟨node, hnode, rfl⟩ := mem_map.mp hid
        rw [if_neg fun hnil => hfree ((seen_of_keepNode (List.isEmpty_iff.mp hnil)).2 node hnode)]
        exact recorded_append rfl
  · exact fun f hf => .inl hf

lemma recorded_storeEntry {mode : IngestMode} {st : ImportPass Wire × Census} (h : imp.Changed mode st e) :
    ∀ f ∈ (imp.storeEntry mode st e).2, f ∈ st.2 ∨ f.2.recorded = true := by
  rw [Importer.storeEntry]
  split
  · apply recorded_append
    rw [Importer.storeOutcome]
    cases hcontent : e.content with
    | none => rfl
    | some content =>
      dsimp only
      split
      · next hsame => exact absurd (h content hcontent hsame.1) (by simp [hsame.2])
      · split <;> rfl
  · exact fun f hf => .inl hf

end Recording

namespace Importer

end Importer

end Mae.Kb
