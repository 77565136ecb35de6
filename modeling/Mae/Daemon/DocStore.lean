import Mae.Daemon.Storage

/-! The document store as it works on one document: its rows, the entries in memory and the calls under way. -/

namespace Mae.Daemon

variable {σ : Type*}

structure Entry (σ : Type*) where
  sync : σ
  walSeq : ℕ
  updateCount : ℕ
  connectedClients : ℕ

structure Limits where
  compactThreshold : ℕ
  maxWalEntries : ℕ
  /-- `is_durable_doc` of the name of the document. -/
  durable : Bool

def Limits.shouldCompact (lim : Limits) (updateCount : ℕ) : Bool :=
  (decide (0 < lim.maxWalEntries) && decide (lim.maxWalEntries ≤ updateCount)) ||
    decide (lim.compactThreshold ≤ updateCount)

/-- The call that a compaction is part of. -/
inductive Caller (σ : Type*) where
  | compactDoc
  | applyUpdate (update : σ)
  | evictIdle

/-- Where a call stands. Entries are named by the order in which they were made. -/
inductive Task (σ : Type*) where
  -- `apply_update` after `wal_append`, and then with its entry
  | appended (update : σ) (walId : ℕ)
  | holding (update : σ) (walId : ℕ) (entry : ℕ)
  -- `compact_doc` before it has its entry, with it, and with the state to be stored
  | compacting (caller : Caller σ)
  | snapshotting (caller : Caller σ) (entry : ℕ)
  | storing (caller : Caller σ) (state : σ) (walSeq : ℕ)
  -- the second pass of `evict_idle`
  | removing
  -- `delete_document`, for `share_doc` if there is an update
  | deletingSnapshots (share : Option σ)
  | deletingWal (share : Option σ)
  -- the rest of `share_doc`
  | forgetting (update : σ)
  | inserting (update : σ)
  | shared (update : σ) (walId : ℕ)
  | sharing (update : σ) (walId : ℕ) (entry : ℕ)
  | done

structure DocStore (σ : Type*) where
  disk : Disk σ
  entries : ℕ → Entry σ
  fresh : ℕ
  docs : Option ℕ
  tasks : List (Task σ)
  /-- The updates for which `apply_update` returned `Ok` and that no deletion has followed. -/
  acked : List σ

inductive Event (σ : Type*) where
  | applyUpdate (update : σ)
  | compactDoc
  | evictIdle
  | deleteDoc
  | shareDoc (update : σ)
  | read
  | connect
  | disconnect
  | lruEvict
  | foreignAppend
  | crash
  | run (task : ℕ)
  | fail (task : ℕ)

namespace DocStore

variable [SemilatticeSup σ] [OrderBot σ]

def start (disk : Disk σ) (acked : List σ) : DocStore σ where
  disk := disk
  entries := fun _ => ⟨⊥, 0, 0, 0⟩
  fresh := 0
  docs := none
  tasks := []
  acked := acked

def put (s : DocStore σ) (e : ℕ) (entry : Entry σ) : DocStore σ :=
  { s with entries := Function.update s.entries e entry }

def insert (s : DocStore σ) (entry : Entry σ) : DocStore σ × ℕ :=
  ({ s with entries := Function.update s.entries s.fresh entry, fresh := s.fresh + 1, docs := some s.fresh }, s.fresh)

def setTask (s : DocStore σ) (i : ℕ) (t : Task σ) : DocStore σ := { s with tasks := s.tasks.set i t }

def spawn (s : DocStore σ) (t : Task σ) : DocStore σ := { s with tasks := s.tasks ++ [t] }

def ack (s : DocStore σ) (u : σ) : DocStore σ := { s with acked := u :: s.acked }

/-- `none` is the error that a durable document does not exist. -/
def getOrCreate (lim : Limits) (allowed : Bool) (s : DocStore σ) : Option (DocStore σ × ℕ) :=
  match s.docs with
  | some e => some (s, e)
  | none =>
    match s.disk.recover with
    | some (sync, walSeq) => some (s.insert ⟨sync, walSeq, 0, 0⟩)
    | none => if !allowed && lim.durable then none else some (s.insert ⟨⊥, 0, 0, 0⟩)

/-- The end of a compaction; `evict_idle` only logs that one failed. -/
def finish (s : DocStore σ) (i : ℕ) (ok : Bool) : Caller σ → DocStore σ
  | .compactDoc => s.setTask i .done
  | .applyUpdate u => (if ok then s.ack u else s).setTask i .done
  | .evictIdle => s.setTask i .removing

/-- The next step of the call `i`, which stands at the given place. -/
def advance (lim : Limits) (s : DocStore σ) (i : ℕ) : Task σ → Option (DocStore σ)
  | .appended u id => (getOrCreate lim true s).map fun (s, e) => s.setTask i (.holding u id e)
  | .holding u id e =>
    let entry := s.entries e
    let entry := { entry with sync := entry.sync ⊔ u, walSeq := id, updateCount := entry.updateCount + 1 }
    let s := s.put e entry
    if lim.shouldCompact entry.updateCount then some (s.setTask i (.compacting (.applyUpdate u)))
    else some ((s.ack u).setTask i .done)
  | .compacting caller =>
    match getOrCreate lim false s with
    | some (s, e) => some (s.setTask i (.snapshotting caller e))
    | none => some (s.finish i false caller)
  | .snapshotting caller e =>
    let entry := s.entries e
    some ((s.put e { entry with updateCount := 0 }).setTask i (.storing caller entry.sync entry.walSeq))
  | .storing caller state walSeq => some (finish { s with disk := s.disk.compact state walSeq } i true caller)
  | .removing =>
    match s.docs with
    | none => some (s.setTask i .done)
    | some e =>
      if (s.entries e).connectedClients = 0 then
        some ({ s with docs := none }.setTask i (if lim.durable then .done else .deletingSnapshots none))
      else some (s.setTask i .done)
  | .deletingSnapshots share =>
    some ({ s with disk := s.disk.deleteSnapshots, acked := [] }.setTask i (.deletingWal share))
  | .deletingWal share =>
    some ({ s with disk := s.disk.deleteWal, acked := [] }.setTask i (share.elim .done .forgetting))
  | .forgetting u => some ({ s with docs := none }.setTask i (.inserting u))
  | .inserting u => some ({ s with disk := s.disk.walAppend u }.setTask i (.shared u (s.disk.lastId + 1)))
  | .shared u id => (getOrCreate lim true s).map fun (s, e) => s.setTask i (.sharing u id e)
  | .sharing u id e =>
    let entry := s.entries e
    some ((s.put e ⟨entry.sync ⊔ u, id, 1, 1⟩).setTask i .done)
  | .done => none

/-- The call `i` gets an error from the statement it stands before. -/
def abort (s : DocStore σ) (i : ℕ) : Task σ → Option (DocStore σ)
  | .compacting caller | .snapshotting caller _ | .storing caller _ _ => some (s.finish i false caller)
  -- `share_doc` only logs that the old rows could not be deleted
  | .deletingSnapshots (some u) | .deletingWal (some u) => some (s.setTask i (.forgetting u))
  | .done => none
  | _ => some (s.setTask i .done)

def step (lim : Limits) (s : DocStore σ) : Event σ → Option (DocStore σ)
  | .applyUpdate u => some ({ s with disk := s.disk.walAppend u }.spawn (.appended u (s.disk.lastId + 1)))
  | .compactDoc => some (s.spawn (.compacting .compactDoc))
  | .evictIdle =>
    match s.docs with
    | some e => if (s.entries e).connectedClients = 0 then some (s.spawn (.compacting .evictIdle)) else none
    | none => none
  | .deleteDoc => some ({ s with docs := none }.spawn (.deletingSnapshots none))
  | .shareDoc u => some (s.spawn (.deletingSnapshots (some u)))
  | .read => (getOrCreate lim false s).map Prod.fst
  | .connect => (getOrCreate lim false s).map fun (s, e) =>
      s.put e { s.entries e with connectedClients := (s.entries e).connectedClients + 1 }
  | .disconnect => (getOrCreate lim false s).map fun (s, e) =>
      s.put e { s.entries e with connectedClients := (s.entries e).connectedClients - 1 }
  | .lruEvict =>
    match s.docs with
    | some e => if (s.entries e).connectedClients = 0 then some { s with docs := none } else none
    | none => none
  | .foreignAppend => some { s with disk := s.disk.foreignAppend }
  | .crash => some (start s.disk s.acked)
  | .run i => s.tasks[i]?.bind (advance lim s i)
  | .fail i => s.tasks[i]?.bind (abort s i)

inductive Reachable (lim : Limits) (allows : DocStore σ → Event σ → Bool) : DocStore σ → Prop
  | start : Reachable lim allows (start .empty [])
  | step {s s' ev} (h : Reachable lim allows s) (ha : allows s ev = true) (hs : s.step lim ev = some s') :
      Reachable lim allows s'

def run (lim : Limits) (allows : DocStore σ → Event σ → Bool) : DocStore σ → List (Event σ) → Option (DocStore σ)
  | s, [] => some s
  | s, ev :: evs => if allows s ev then (s.step lim ev).bind fun s => run lim allows s evs else none

lemma Reachable.run {lim : Limits} {allows : DocStore σ → Event σ → Bool} {s s' : DocStore σ}
    (h : Reachable lim allows s) {evs : List (Event σ)} (hrun : s.run lim allows evs = some s') :
    Reachable lim allows s' := by
  induction evs generalizing s with
  | nil => exact Option.some.inj hrun ▸ h
  | cons ev evs ih =>
    rw [DocStore.run] at hrun
    split_ifs at hrun with ha
    obtain ⟨s1, hstep, hrest⟩ := Option.bind_eq_some_iff.mp hrun
    exact ih (.step h ha hstep) hrest

end DocStore

end Mae.Daemon
