import Mae.Library.Checks

/-! The rows that the daemon keeps for one document: a snapshot, the updates logged after it, and how a document is read
back from them. -/

namespace Mae.Daemon

variable {σ : Type*}

/-- A row of `snapshots`; `intact` says that its hash column is empty or the hash of its state. -/
structure Snapshot (σ : Type*) where
  state : σ
  walId : ℕ
  intact : Bool

structure WalEntry (σ : Type*) where
  id : ℕ
  update : σ

structure Disk (σ : Type*) where
  snapshot : Option (Snapshot σ)
  wal : List (WalEntry σ)
  lastId : ℕ
  bounded : ∀ e ∈ wal, 0 < e.id ∧ e.id ≤ lastId

namespace Disk

def empty : Disk σ := ⟨none, [], 0, by simp⟩

def walAppend (d : Disk σ) (update : σ) : Disk σ where
  snapshot := d.snapshot
  wal := d.wal ++ [⟨d.lastId + 1, update⟩]
  lastId := d.lastId + 1
  bounded := by
    intro e he
    rcases List.mem_append.mp he with he | he
    · exact ⟨(d.bounded e he).1, Nat.le_succ_of_le (d.bounded e he).2⟩
    · rw [List.mem_singleton.mp he]
      exact ⟨Nat.succ_pos _, le_rfl⟩

def foreignAppend (d : Disk σ) : Disk σ where
  snapshot := d.snapshot
  wal := d.wal
  lastId := d.lastId + 1
  bounded e he := ⟨(d.bounded e he).1, Nat.le_succ_of_le (d.bounded e he).2⟩

def compact (d : Disk σ) (state : σ) (upToWalId : ℕ) : Disk σ where
  snapshot := some ⟨state, upToWalId, true⟩
  wal := d.wal.filter fun e => upToWalId < e.id
  lastId := d.lastId
  bounded e he := d.bounded e (List.mem_of_mem_filter he)

/-- The two statements of `delete_document`, which are not one transaction. -/
def deleteSnapshots (d : Disk σ) : Disk σ := ⟨none, d.wal, d.lastId, d.bounded⟩

def deleteWal (d : Disk σ) : Disk σ := ⟨d.snapshot, [], d.lastId, by simp⟩

def trusted (d : Disk σ) : Option (Snapshot σ) := d.snapshot.filter (·.intact)

def cutoff (d : Disk σ) : ℕ := (d.trusted.map (·.walId)).getD 0

def walTail (d : Disk σ) : List (WalEntry σ) := d.wal.filter fun e => d.cutoff < e.id

def loadDocument (d : Disk σ) : Option (Option σ × List (WalEntry σ)) :=
  if d.trusted.isNone && d.walTail.isEmpty then none else some (d.trusted.map (·.state), d.walTail)

end Disk

section

variable [SemilatticeSup σ] {u s t : σ} {e : WalEntry σ} {es : List (WalEntry σ)}

def replay (s : σ) (es : List (WalEntry σ)) : σ := es.foldl (fun s e => s ⊔ e.update) s

lemma le_replay (h : u ≤ s) : u ≤ replay s es := by
  induction es generalizing s with
  | nil => exact h
  | cons e es ih => exact ih (h.trans le_sup_left)

end

namespace Disk

variable [SemilatticeSup σ] [OrderBot σ]

/-- The document and its `wal_seq` as `get_or_create_with` rebuilds them. -/
def recover (d : Disk σ) : Option (σ × ℕ) :=
  d.loadDocument.map fun (snapshot, tail) =>
    (replay (snapshot.getD ⊥) tail, (tail.getLast?.map (·.id)).getD 0)

def stored (d : Disk σ) : Option σ := d.recover.map (·.1)

def content (d : Disk σ) : σ := d.stored.getD ⊥

variable {d : Disk σ} {u : σ}

lemma content_eq (d : Disk σ) : d.content = replay ((d.trusted.map (·.state)).getD ⊥) d.walTail := by
  rw [content, stored, recover, loadDocument]
  by_cases h : d.trusted.isNone && d.walTail.isEmpty
  · rw [Bool.and_eq_true, Option.isNone_iff_eq_none, List.isEmpty_iff] at h
    simp [h.1, h.2, replay]
  · rw [if_neg h]
    rfl

lemma trusted_le_content {snap : Snapshot σ} (h : d.trusted = some snap) : snap.state ≤ d.content := by
  rw [content_eq, h]
  exact le_replay le_rfl

omit [SemilatticeSup σ] [OrderBot σ] in
@[simp] lemma trusted_walAppend (d : Disk σ) (u : σ) : (d.walAppend u).trusted = d.trusted := rfl

omit [SemilatticeSup σ] [OrderBot σ] in
lemma walTail_walAppend (hcut : d.cutoff ≤ d.lastId) (u : σ) :
    (d.walAppend u).walTail = d.walTail ++ [⟨d.lastId + 1, u⟩] := by
  have hnew : d.cutoff < d.lastId + 1 := Nat.lt_succ_of_le hcut
  change List.filter (fun e : WalEntry σ => decide (d.cutoff < e.id)) (d.wal ++ [⟨d.lastId + 1, u⟩]) = _
  simp [walTail, hnew]

lemma content_walAppend (hcut : d.cutoff ≤ d.lastId) (u : σ) : (d.walAppend u).content = d.content ⊔ u := by
  rw [content_eq, content_eq, walTail_walAppend hcut, replay, List.foldl_append]
  rfl

omit [SemilatticeSup σ] [OrderBot σ] in
lemma trusted_compact (d : Disk σ) (s : σ) (q : ℕ) : (d.compact s q).trusted = some ⟨s, q, true⟩ := rfl

def Blank (d : Disk σ) : Prop := d.trusted = none ∧ d.wal = []

lemma stored_eq_none_iff : d.stored = none ↔ d.Blank := by
  rw [stored, Option.map_eq_none_iff, recover, Option.map_eq_none_iff, loadDocument]
  constructor
  · intro h
    split_ifs at h with hnone
    rw [Bool.and_eq_true, Option.isNone_iff_eq_none, List.isEmpty_iff] at hnone
    refine ⟨hnone.1, List.eq_nil_iff_forall_not_mem.mpr fun e he => ?_⟩
    have hmem : e ∈ d.walTail := by
      apply List.mem_filter.mpr
      simp [he, cutoff, hnone.1, (d.bounded e he).1]
    simp [hnone.2] at hmem
  · rintro ⟨htrusted, hwal⟩
    simp [htrusted, walTail, hwal]

lemma Blank.stored_walAppend (h : d.Blank) (u : σ) : (d.walAppend u).stored = some u := by
  obtain ⟨htrusted, hwal⟩ := h
  have htail : (d.walAppend u).walTail = [⟨d.lastId + 1, u⟩] := by
    rw [walTail_walAppend]
    · simp [walTail, hwal]
    · simp [cutoff, htrusted]
  simp [stored, recover, loadDocument, htail, htrusted, replay]

omit [SemilatticeSup σ] [OrderBot σ] in
lemma Blank.deleteSnapshots (h : d.Blank) : d.deleteSnapshots.Blank := ⟨rfl, h.2⟩

omit [SemilatticeSup σ] [OrderBot σ] in
lemma blank_delete (d : Disk σ) : d.deleteSnapshots.deleteWal.Blank := ⟨rfl, rfl⟩

end Disk

end Mae.Daemon
