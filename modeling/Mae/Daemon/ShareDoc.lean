import Mae.Daemon.Storage

/-! Replacing a stored document by a shared one, with a failure or a crash at any statement. -/

namespace Mae.Daemon

variable {σ : Type*}

inductive Fault where
  | none | fails | crashes
  deriving DecidableEq, Repr

/-- What happens at each storage statement of `share_doc`: the two deletions of `delete_document`, the insertion of
`wal_append` and the query for its id, and the load of `get_or_create_with`. A crash comes before the statement. -/
structure ShareFaults where
  deleteSnapshots : Fault := .none
  deleteWal : Fault := .none
  insert : Fault := .none
  lastInsertRowid : Fault := .none
  load : Fault := .none

inductive Verdict where
  | ok | err | crashed
  deriving DecidableEq, Repr

def deleteDocument (d : Disk σ) (faults : ShareFaults) : Disk σ × Verdict :=
  match faults.deleteSnapshots with
  | .crashes => (d, .crashed)
  | .fails => (d, .err)
  | .none =>
    match faults.deleteWal with
    | .crashes => (d.deleteSnapshots, .crashed)
    | .fails => (d.deleteSnapshots, .err)
    | .none => (d.deleteSnapshots.deleteWal, .ok)

def recreate (d : Disk σ) (u : σ) (faults : ShareFaults) : Disk σ × Verdict :=
  match faults.insert with
  | .crashes => (d, .crashed)
  | .fails => (d, .err)
  | .none =>
    match faults.lastInsertRowid with
    | .crashes => (d.walAppend u, .crashed)
    | .fails => (d.walAppend u, .err)
    | .none =>
      match faults.load with
      | .crashes => (d.walAppend u, .crashed)
      | .fails => (d.walAppend u, .err)
      | .none => (d.walAppend u, .ok)

/-- `none` stands for an update that does not decode. -/
def shareDoc (d : Disk σ) (update : Option σ) (faults : ShareFaults) : Disk σ × Verdict :=
  match update with
  | none => (d, .err)
  | some u =>
    match deleteDocument d faults with
    | (d, .crashed) => (d, .crashed)
    -- a failed deletion is only logged
    | (d, _) => recreate d u faults

section

variable [SemilatticeSup σ] [OrderBot σ] {d : Disk σ} {u : σ} {faults : ShareFaults}

def AtomicShare (d : Disk σ) (u : σ) (faults : ShareFaults) : Prop :=
  ((shareDoc d (some u) faults).1.stored = d.stored ∨ (shareDoc d (some u) faults).1.stored = some u) ∧
    ((shareDoc d (some u) faults).2 = .ok → (shareDoc d (some u) faults).1.stored = some u)

omit [SemilatticeSup σ] [OrderBot σ] in
lemma recreate_cases (d : Disk σ) (u : σ) (faults : ShareFaults) :
    (recreate d u faults).1 = d ∧ (recreate d u faults).2 ≠ .ok ∧ faults.insert ≠ .none ∨
      (recreate d u faults).1 = d.walAppend u := by
  rw [recreate]
  cases hinsert : faults.insert with
  | none =>
    right
    cases faults.lastInsertRowid <;> cases faults.load <;> rfl
  | fails => exact .inl ⟨rfl, by simp, by simp⟩
  | crashes => exact .inl ⟨rfl, by simp, by simp⟩

omit [SemilatticeSup σ] [OrderBot σ] in
lemma blank_deleteDocument (h : d.Blank) (faults : ShareFaults) : (deleteDocument d faults).1.Blank := by
  rw [deleteDocument]
  cases faults.deleteSnapshots with
  | none =>
    cases faults.deleteWal with
    | none => exact Disk.blank_delete d
    | fails => exact h.deleteSnapshots
    | crashes => exact h.deleteSnapshots
  | fails => exact h
  | crashes => exact h

lemma atomicShare_of_blank (h : d.Blank) (u : σ) (faults : ShareFaults) : AtomicShare d u faults := by
  have hnone : ∀ d' : Disk σ, d'.Blank → d'.stored = d.stored := by
    intro d' h'
    rw [Disk.stored_eq_none_iff.mpr h, Disk.stored_eq_none_iff.mpr h']
  have hdeleted := blank_deleteDocument h faults
  rw [AtomicShare, shareDoc]
  generalize deleteDocument d faults = r at hdeleted
  obtain ⟨d', v⟩ := r
  have hrest : ((recreate d' u faults).1.stored = d.stored ∨ (recreate d' u faults).1.stored = some u) ∧
      ((recreate d' u faults).2 = .ok → (recreate d' u faults).1.stored = some u) := by
    rcases recreate_cases d' u faults with ⟨hsame, hverdict, -⟩ | hnew
    · rw [hsame]
      exact ⟨.inl (hnone d' hdeleted), fun hok => (hverdict hok).elim⟩
    · rw [hnew]
      exact ⟨.inr (hdeleted.stored_walAppend u), fun _ => hdeleted.stored_walAppend u⟩
  cases v with
  | ok => exact hrest
  | err => exact hrest
  | crashed => exact ⟨.inl (hnone d' hdeleted), by simp⟩

lemma atomicShare_of_statements (hsnap : faults.deleteSnapshots = .none) (hwal : faults.deleteWal = .none)
    (hinsert : faults.insert = .none) : AtomicShare d u faults := by
  have hshare : (shareDoc d (some u) faults).1 = d.deleteSnapshots.deleteWal.walAppend u := by
    simp only [shareDoc, deleteDocument, hsnap, hwal]
    rcases recreate_cases d.deleteSnapshots.deleteWal u faults with ⟨-, -, hne⟩ | hnew
    · exact (hne hinsert).elim
    · exact hnew
  have hstored := (Disk.blank_delete d).stored_walAppend u
  rw [AtomicShare, hshare]
  exact ⟨.inr hstored, fun _ => hstored⟩

theorem share_doc_atomic_iff :
    (∀ d : Disk σ, (∀ (u : σ) (faults : ShareFaults), AtomicShare d u faults) ↔ d.stored = none) ∧
    ∀ (d : Disk σ) (u : σ) (faults : ShareFaults), faults.deleteSnapshots = .none → faults.deleteWal = .none →
      faults.insert = .none → AtomicShare d u faults := by
  refine ⟨fun d => ⟨fun hatomic => ?_, fun hnone u faults => ?_⟩, fun d u faults => atomicShare_of_statements⟩
  · -- a crash between the deletion and the insertion leaves nothing
    have hcut := (hatomic ⊥ { insert := .crashes }).1
    have hgone : (shareDoc d (some (⊥)) { insert := .crashes }).1.stored = none :=
      Disk.stored_eq_none_iff.mpr (Disk.blank_delete d)
    rw [hgone] at hcut
    rcases hcut with hcut | hcut
    · exact hcut.symm
    · simp at hcut
  · exact atomicShare_of_blank (Disk.stored_eq_none_iff.mp hnone) u faults

end

def sampleDisk : Disk (Finset ℕ) := ⟨some ⟨{0}, 1, true⟩, [⟨2, {1}⟩], 2, by decide⟩

theorem share_of_sample_replaces : (shareDoc sampleDisk (some {2}) { load := .fails }).1.stored = some {2} ∧
      AtomicShare sampleDisk {2} { load := .fails } :=
  ⟨by decide +kernel, share_doc_atomic_iff.2 sampleDisk {2} { load := .fails } rfl rfl rfl⟩

theorem share_of_sample_is_torn : sampleDisk.stored = some {0, 1} ∧
      (shareDoc sampleDisk (some {2}) { deleteWal := .crashes }).1.stored = some {1} ∧
      (shareDoc sampleDisk (some {2}) { insert := .fails }).1.stored = none ∧
      (shareDoc sampleDisk (some {2}) { deleteSnapshots := .fails }).2 = .ok ∧
      (shareDoc sampleDisk (some {2}) { deleteSnapshots := .fails }).1.stored = some {0, 1, 2} := by
  decide +kernel

end Mae.Daemon
