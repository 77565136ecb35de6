import Mae.Daemon.DocStore

/-! An acknowledged update stays on disk as long as compactions keep clear of updates on their way into memory. -/

namespace Mae.Daemon

open Function List Option

variable {σ : Type*}

def Caller.owes : Caller σ → Option σ
  | .applyUpdate u => some u
  | _ => none

namespace Task

def pending : Task σ → Option σ
  | .appended u _ | .holding u _ _ => some u
  | _ => none

/-- An update that is in memory and whose `apply_update` has not returned. -/
def owes : Task σ → Option σ
  | .compacting caller | .snapshotting caller _ | .storing caller _ _ => caller.owes
  | _ => none

def window : Task σ → Bool
  | .snapshotting .. | .storing .. => true
  | _ => false

end Task

/-- No compaction of the document overlaps the part of an `apply_update` between its log entry and its turn in memory,
and no rows are deleted while an `apply_update` is under way. -/
def exclusive (s : DocStore σ) : Event σ → Bool
  | .applyUpdate _ => s.tasks.all fun t => !t.window
  | .run i =>
    match s.tasks[i]? with
    | some (.compacting _) => s.tasks.all fun t => t.pending.isNone
    | some (.deletingSnapshots _) | some (.deletingWal _) => s.tasks.all fun t => t.pending.isNone && t.owes.isNone
    | _ => true
  | _ => true

namespace DocStore

variable [SemilatticeSup σ] [OrderBot σ] {lim : Limits} {s s' : DocStore σ}

def Owed (s : DocStore σ) (u : σ) : Prop := u ∈ s.acked ∨ ∃ t ∈ s.tasks, t.owes = some u

def Sound (s : DocStore σ) : Task σ → Prop
  | .appended u id => u ≤ s.disk.content ∧ id ≤ s.disk.lastId
  | .holding u id e => u ≤ s.disk.content ∧ id ≤ s.disk.lastId ∧ e < s.fresh ∧
      ∀ m, s.docs = some m → m = e ∨ u ≤ (s.entries m).sync
  | .snapshotting _ e => e < s.fresh ∧ ∀ u, s.Owed u → u ≤ (s.entries e).sync
  | .storing _ state q => q ≤ s.disk.lastId ∧ ∀ u, s.Owed u → u ≤ state
  | .shared _ id => id ≤ s.disk.lastId
  | .sharing _ id _ => id ≤ s.disk.lastId
  | _ => True

structure Inv (s : DocStore σ) : Prop where
  cutoff : s.disk.cutoff ≤ s.disk.lastId
  seqs : ∀ e, (s.entries e).walSeq ≤ s.disk.lastId
  docs : ∀ e, s.docs = some e → e < s.fresh
  stored : ∀ u, s.Owed u → u ≤ s.disk.content
  mapped : ∀ e u, s.docs = some e → s.Owed u → u ≤ (s.entries e).sync
  sound : ∀ t ∈ s.tasks, s.Sound t
  apart : ∀ t ∈ s.tasks, ∀ t' ∈ s.tasks, t.pending.isSome → t'.window = false

lemma inv_start (d : Disk σ) (acked : List σ) (hcut : d.cutoff ≤ d.lastId) (hacked : ∀ u ∈ acked, u ≤ d.content) :
    (start d acked).Inv where
  cutoff := hcut
  seqs := fun _ => Nat.zero_le _
  docs := by simp [start]
  stored := by
    rintro u (hu | ⟨t, ht, -⟩)
    · exact hacked u hu
    · simp [start] at ht
  mapped := by simp [start]
  sound := by simp [start]
  apart := by simp [start]

structure Grows (s s' : DocStore σ) : Prop where
  tasks : s'.tasks = s.tasks
  acked : s'.acked = s.acked
  content : s.disk.content ≤ s'.disk.content
  lastId : s.disk.lastId ≤ s'.disk.lastId
  cutoff : s'.disk.cutoff = s.disk.cutoff
  seqs : ∀ e, (s'.entries e).walSeq ≤ s'.disk.lastId
  fresh : s.fresh ≤ s'.fresh
  sync : ∀ e < s.fresh, (s.entries e).sync ≤ (s'.entries e).sync
  docs : s'.docs = s.docs ∨ s'.docs = none ∨ ∃ e < s'.fresh, s'.docs = some e ∧ s.disk.content ≤ (s'.entries e).sync

lemma Grows.owed (g : s.Grows s') (u : σ) : s'.Owed u ↔ s.Owed u := by rw [Owed, Owed, g.tasks, g.acked]

lemma Grows.sound (g : s.Grows s') (h : s.Inv) {t : Task σ} (ht : s.Sound t) : s'.Sound t := by
  cases t with
  | appended u id => exact ⟨ht.1.trans g.content, ht.2.trans g.lastId⟩
  | holding u id e =>
    obtain ⟨hu, hid, he, hm⟩ := ht
    refine ⟨hu.trans g.content, hid.trans g.lastId, he.trans_le g.fresh, fun m hdocs => ?_⟩
    rcases g.docs with hsame | hnone | ⟨e', -, he', hsync⟩
    · rw [hsame] at hdocs
      rcases hm m hdocs with rfl | hle
      · exact .inl rfl
      · exact .inr (hle.trans (g.sync m (h.docs m hdocs)))
    · simp [hnone] at hdocs
    · rw [he', Option.some.injEq] at hdocs
      exact .inr (hu.trans (hdocs ▸ hsync))
  | snapshotting caller e =>
    refine ⟨ht.1.trans_le g.fresh, fun u hu => ?_⟩
    exact (ht.2 u ((g.owed u).mp hu)).trans (g.sync e ht.1)
  | storing caller state q => exact ⟨ht.1.trans g.lastId, fun u hu => ht.2 u ((g.owed u).mp hu)⟩
  | shared u id => exact le_trans ht g.lastId
  | sharing u id e => exact le_trans ht g.lastId
  | _ => exact trivial

section

variable (h : s.Inv)
include h

lemma Inv.grows (g : s.Grows s') : s'.Inv where
  cutoff := g.cutoff ▸ h.cutoff.trans g.lastId
  seqs := g.seqs
  docs := by
    intro e he
    rcases g.docs with hsame | hnone | ⟨e', hlt, he', -⟩
    · exact (h.docs e (hsame ▸ he)).trans_le g.fresh
    · simp [hnone] at he
    · rw [he', Option.some.injEq] at he
      exact he ▸ hlt
  stored := fun u hu => (h.stored u ((g.owed u).mp hu)).trans g.content
  mapped := by
    intro e u he hu
    rw [g.owed] at hu
    rcases g.docs with hsame | hnone | ⟨e', -, he', hsync⟩
    · rw [hsame] at he
      exact (h.mapped e u he hu).trans (g.sync e (h.docs e he))
    · simp [hnone] at he
    · rw [he', Option.some.injEq] at he
      exact (h.stored u hu).trans (he ▸ hsync)
  sound := by
    rw [g.tasks]
    exact fun t ht => g.sound h (h.sound t ht)
  apart := by
    rw [g.tasks]
    exact h.apart

lemma Inv.put {e : ℕ} {entry : Entry σ} (hsync : (s.entries e).sync ≤ entry.sync) (hseq : entry.walSeq ≤ s.disk.lastId) :
    (s.put e entry).Inv := by
  apply h.grows
  refine ⟨rfl, rfl, le_rfl, le_rfl, rfl, fun e' => ?_, le_rfl, fun e' _ => ?_, .inl rfl⟩
  · simp only [DocStore.put, update_apply]
    split_ifs
    · exact hseq
    · exact h.seqs e'
  · simp only [DocStore.put, update_apply]
    split_ifs with heq
    · exact heq ▸ hsync
    · exact le_rfl

lemma Inv.forget : Inv { s with docs := none } :=
  h.grows ⟨rfl, rfl, le_rfl, le_rfl, rfl, h.seqs, le_rfl, fun _ _ => le_rfl, .inr (.inl rfl)⟩

lemma Inv.foreignAppend : Inv { s with disk := s.disk.foreignAppend } :=
  h.grows ⟨rfl, rfl, le_rfl, Nat.le_succ _, rfl, fun e => Nat.le_succ_of_le (h.seqs e), le_rfl, fun _ _ => le_rfl,
    .inl rfl⟩

lemma Inv.append (u : σ) : Inv { s with disk := s.disk.walAppend u } ∧ u ≤ (s.disk.walAppend u).content := by
  have hcontent := Disk.content_walAppend h.cutoff u
  refine ⟨h.grows ⟨rfl, rfl, hcontent ▸ le_sup_left, Nat.le_succ _, rfl, fun e => Nat.le_succ_of_le (h.seqs e), le_rfl,
    fun _ _ => le_rfl, .inl rfl⟩, hcontent ▸ le_sup_right⟩

lemma Inv.insert {entry : Entry σ} (hsync : s.disk.content ≤ entry.sync) (hseq : entry.walSeq ≤ s.disk.lastId) :
    (s.insert entry).1.Inv := by
  apply h.grows
  refine ⟨rfl, rfl, le_rfl, le_rfl, rfl, fun e => ?_, Nat.le_succ _, fun e he => ?_, .inr (.inr ⟨s.fresh, ?_⟩)⟩
  · simp only [DocStore.insert, update_apply]
    split_ifs
    · exact hseq
    · exact h.seqs e
  · simp only [DocStore.insert, update_of_ne he.ne]
    exact le_rfl
  · simp [DocStore.insert, hsync]

end

lemma recover_le (d : Disk σ) {r : σ × ℕ} (h : d.recover = some r) : d.content = r.1 ∧ r.2 ≤ d.lastId := by
  refine ⟨by simp [Disk.content, Disk.stored, h], ?_⟩
  rw [Disk.recover, map_eq_some_iff] at h
  obtain ⟨⟨snapshot, tail⟩, hload, rfl⟩ := h
  rw [Disk.loadDocument] at hload
  split_ifs at hload
  cases hload
  change (d.walTail.getLast?.map (·.id)).getD 0 ≤ d.lastId
  cases hlast : d.walTail.getLast? with
  | none => exact Nat.zero_le _
  | some e => exact (d.bounded e (mem_of_mem_filter (mem_of_getLast? hlast))).2

lemma Inv.getOrCreate (h : s.Inv) {allowed : Bool} {r : DocStore σ × ℕ} (hr : s.getOrCreate lim allowed = some r) :
    r.1.Inv ∧ r.1.docs = some r.2 ∧ r.1.tasks = s.tasks ∧ r.1.disk = s.disk ∧ r.1.acked = s.acked := by
  rw [DocStore.getOrCreate] at hr
  cases hdocs : s.docs with
  | some e =>
    rw [hdocs] at hr
    cases hr
    exact ⟨h, hdocs, rfl, rfl, rfl⟩
  | none =>
    rw [hdocs] at hr
    cases hrec : s.disk.recover with
    | some p =>
      rw [hrec] at hr
      cases hr
      obtain ⟨hcontent, hseq⟩ := recover_le s.disk hrec
      exact ⟨h.insert hcontent.le hseq, rfl, rfl, rfl, rfl⟩
    | none =>
      rw [hrec] at hr
      split_ifs at hr
      cases hr
      have hcontent : s.disk.content = ⊥ := by simp [Disk.content, Disk.stored, hrec]
      exact ⟨h.insert hcontent.le (Nat.zero_le _), rfl, rfl, rfl, rfl⟩

def Safe (s : DocStore σ) (u : σ) : Prop :=
  s.Owed u ∨ u ≤ s.disk.content ∧ (∀ m, s.docs = some m → u ≤ (s.entries m).sync) ∧ ∀ t ∈ s.tasks, t.window = false

open Task

section

variable {tasks : List (Task σ)} {acked : List σ} {new : Task σ} (hmem : ∀ t ∈ tasks, t = new ∨ t ∈ s.tasks)
  (hacked : ∀ u ∈ acked, s.Safe u) (howes : ∀ u, new.owes = some u → s.Safe u)
include hmem hacked howes

lemma owed_replace {u : σ} (hu : Owed { s with tasks := tasks, acked := acked } u) : s.Safe u := by
  rcases hu with hu | ⟨t, ht, hu⟩
  · exact hacked u hu
  · rcases hmem t ht with rfl | hold
    · exact howes u hu
    · exact .inl (.inr ⟨t, hold, hu⟩)

lemma Inv.replace (h : s.Inv) (hnew : Sound { s with tasks := tasks, acked := acked } new)
    (hpending : new.pending.isSome → ∀ t ∈ s.tasks, t.window = false)
    (hwindow : new.window = true → ∀ t ∈ s.tasks, t.pending = none) :
    Inv { s with tasks := tasks, acked := acked } where
  cutoff := h.cutoff
  seqs := h.seqs
  docs := h.docs
  stored := fun u hu => (owed_replace hmem hacked howes hu).elim (h.stored u) fun hu => hu.1
  mapped := fun e u he hu => (owed_replace hmem hacked howes hu).elim (h.mapped e u he) fun hu => hu.2.1 e he
  sound := by
    intro t ht
    rcases hmem t ht with rfl | hold
    · exact hnew
    · have hsound := h.sound t hold
      cases t with
      | snapshotting caller e =>
        refine ⟨hsound.1, fun u hu => (owed_replace hmem hacked howes hu).elim (hsound.2 u) fun hu => ?_⟩
        simpa [window] using hu.2.2 _ hold
      | storing caller state q =>
        refine ⟨hsound.1, fun u hu => (owed_replace hmem hacked howes hu).elim (hsound.2 u) fun hu => ?_⟩
        simpa [window] using hu.2.2 _ hold
      | _ => exact hsound
  apart := by
    intro t ht t' ht' hp
    rcases hmem t ht with rfl | hold
    · rcases hmem t' ht' with rfl | hold'
      · cases t' <;> first | rfl | simp [pending] at hp
      · exact hpending hp t' hold'
    · rcases hmem t' ht' with rfl | hold'
      · cases hw : t'.window with
        | false => rfl
        | true => simp [hwindow hw t hold] at hp
      · exact h.apart t hold t' hold' hp

end

lemma Inv.setTask (h : s.Inv) (i : ℕ) (new : Task σ) (hnew : Sound (s.setTask i new) new)
    (howes : ∀ u, new.owes = some u → s.Safe u) (hpending : new.pending.isSome → ∀ t ∈ s.tasks, t.window = false)
    (hwindow : new.window = true → ∀ t ∈ s.tasks, t.pending = none) : (s.setTask i new).Inv :=
  h.replace (fun _ ht => (mem_or_eq_of_mem_set ht).symm) (fun _ hu => .inl (.inl hu)) howes hnew hpending hwindow

lemma Inv.spawn (h : s.Inv) (new : Task σ) (hnew : Sound (s.spawn new) new) (howes : new.owes = none)
    (hpending : new.pending.isSome → ∀ t ∈ s.tasks, t.window = false) (hwindow : new.window = false) :
    (s.spawn new).Inv := by
  refine h.replace ?_ (fun _ hu => .inl (.inl hu)) (by simp [howes]) hnew hpending (by simp [hwindow])
  intro t ht
  simpa [or_comm] using ht

omit [SemilatticeSup σ] [OrderBot σ] in
lemma owed_setTask {i : ℕ} {new : Task σ} (hnew : ∀ u, new.owes = some u → s.Owed u) {u : σ}
    (hu : (s.setTask i new).Owed u) : s.Owed u := by
  rcases hu with hu | ⟨t, ht, hu⟩
  · exact .inl hu
  · rcases mem_or_eq_of_mem_set ht with ht | rfl
    · exact .inr ⟨t, ht, hu⟩
    · exact hnew u hu

section

variable (h : s.Inv)
include h

lemma Inv.setTask_idle (i : ℕ) (new : Task σ) (hnew : ∀ s : DocStore σ, s.Sound new := by exact fun _ => trivial)
    (howes : new.owes = none := by rfl) (hpending : new.pending = none := by rfl)
    (hwindow : new.window = false := by rfl) : (s.setTask i new).Inv :=
  h.setTask i new (hnew _) (by simp [howes]) (by simp [hpending]) (by simp [hwindow])

lemma Inv.done (i : ℕ) : (s.setTask i .done).Inv := h.setTask_idle i .done

lemma Inv.ack (i : ℕ) {u : σ} (hu : s.Safe u) : ((s.ack u).setTask i .done).Inv := by
  refine Inv.replace (s := s) (fun _ ht => (mem_or_eq_of_mem_set ht).symm) ?_ (by simp [owes]) h trivial
    (by simp [pending]) (by simp [window])
  intro v hv
  rcases mem_cons.mp hv with rfl | hv
  · exact hu
  · exact .inl (.inl hv)

lemma Inv.finish (i : ℕ) (ok : Bool) {caller : Caller σ} (hcaller : ∀ u, caller.owes = some u → s.Owed u) :
    (s.finish i ok caller).Inv := by
  cases caller with
  | compactDoc => exact h.done i
  | evictIdle => exact h.setTask_idle i .removing
  | applyUpdate u =>
    cases ok with
    | false => exact h.done i
    | true => exact h.ack i (.inl (hcaller u rfl))

lemma Inv.store {caller : Caller σ} {state : σ} {q : ℕ} (hmem : .storing caller state q ∈ s.tasks) :
    Inv { s with disk := s.disk.compact state q } := by
  obtain ⟨hq, howed⟩ := h.sound _ hmem
  have hstored : ∀ u, s.Owed u → u ≤ (s.disk.compact state q).content := fun u hu =>
    (howed u hu).trans (Disk.trusted_le_content (Disk.trusted_compact s.disk state q))
  have hquiet : ∀ t ∈ s.tasks, t.pending = none := by
    intro t ht
    by_contra hp
    have := h.apart t ht _ hmem (isSome_iff_ne_none.mpr hp)
    simp [window] at this
  refine ⟨hq, h.seqs, h.docs, hstored, h.mapped, fun t ht => ?_, h.apart⟩
  have hsound := h.sound t ht
  cases t with
  | appended u id => simpa [pending] using hquiet _ ht
  | holding u id e => simpa [pending] using hquiet _ ht
  | _ => exact hsound

lemma Inv.delete {d : Disk σ} (hcut : d.cutoff ≤ d.lastId) (hlast : d.lastId = s.disk.lastId)
    (hquiet : (s.tasks.all fun t => t.pending.isNone && t.owes.isNone) = true) :
    Inv { s with disk := d, acked := [] } := by
  simp only [List.all_eq_true, Bool.and_eq_true, isNone_iff_eq_none] at hquiet
  have hnone : ∀ u, ¬ Owed { s with disk := d, acked := [] } u := by
    rintro u (hu | ⟨t, ht, hu⟩)
    · simp at hu
    · simp [(hquiet t ht).2] at hu
  refine ⟨hcut, hlast ▸ h.seqs, h.docs, fun u hu => (hnone u hu).elim, fun _ u _ hu => (hnone u hu).elim, fun t ht => ?_,
    h.apart⟩
  have hsound := h.sound t ht
  cases t with
  | appended u id => simpa [pending] using (hquiet _ ht).1
  | holding u id e => simpa [pending] using (hquiet _ ht).1
  | snapshotting caller e => exact ⟨hsound.1, fun u hu => (hnone u hu).elim⟩
  | storing caller state q => exact ⟨hlast ▸ hsound.1, fun u hu => (hnone u hu).elim⟩
  | shared u id => exact le_trans hsound hlast.ge
  | sharing u id e => exact le_trans hsound hlast.ge
  | _ => exact trivial

lemma Inv.apply {i id e n : ℕ} {u : σ} (hi : s.tasks[i]? = some (.holding u id e)) :
    ∃ s₁ : DocStore σ, s₁ = s.put e { s.entries e with sync := (s.entries e).sync ⊔ u, walSeq := id, updateCount := n }
      ∧ (s₁.setTask i (.compacting (.applyUpdate u))).Inv ∧ ((s₁.ack u).setTask i .done).Inv := by
  have hmem := mem_of_getElem? hi
  obtain ⟨hu, hid, he, hm⟩ := h.sound _ hmem
  refine ⟨_, rfl, ?_⟩
  set entry : Entry σ := { s.entries e with sync := (s.entries e).sync ⊔ u, walSeq := id, updateCount := n }
  have hput : (s.put e entry).Inv := h.put le_sup_left hid
  have hwindow : ∀ t ∈ s.tasks, t.window = false := fun t ht => h.apart _ hmem t ht rfl
  have hsafe : (s.put e entry).Safe u := by
    refine .inr ⟨hu, fun m hdocs => ?_, hwindow⟩
    by_cases heq : m = e
    · subst heq
      simp [DocStore.put, entry]
    · have hsync : ((s.put e entry).entries m).sync = (s.entries m).sync := by simp [DocStore.put, heq]
      rw [hsync]
      exact (hm m hdocs).resolve_left heq
  constructor
  · apply hput.setTask i (.compacting (.applyUpdate u)) trivial
    · intro v hv
      cases hv
      exact hsafe
    · simp [pending]
    · simp [window]
  · exact hput.ack i hsafe

lemma Inv.advance {i : ℕ} {t : Task σ} (hi : s.tasks[i]? = some t) (hx : exclusive s (.run i) = true)
    (hs : s.advance lim i t = some s') :
    s'.Inv := by
  have hmem := mem_of_getElem? hi
  have howed : ∀ u, t.owes = some u → s.Owed u := fun u hu => .inr ⟨t, hmem, hu⟩
  have hsound := h.sound t hmem
  cases t with
  | appended u id =>
    obtain ⟨r, hr, rfl⟩ := map_eq_some_iff.mp hs
    obtain ⟨hinv, hdocs, htasks, hdisk, -⟩ := h.getOrCreate hr
    apply hinv.setTask i
    · refine ⟨hdisk ▸ hsound.1, hdisk ▸ hsound.2, hinv.docs _ hdocs, fun m hm => .inl ?_⟩
      exact mem_unique hm hdocs
    · simp [owes]
    · intro _ t ht
      exact h.apart _ hmem t (htasks ▸ ht) rfl
    · simp [window]
  | holding u id e =>
    obtain ⟨s1, rfl, hcompacting, hdone⟩ := h.apply hi
    rw [DocStore.advance] at hs
    split_ifs at hs
    · exact some.inj hs ▸ hcompacting
    · exact some.inj hs ▸ hdone
  | compacting caller =>
    simp only [exclusive, hi, List.all_eq_true, isNone_iff_eq_none] at hx
    rw [DocStore.advance] at hs
    cases hget : s.getOrCreate lim false with
    | none =>
      rw [hget] at hs
      exact some.inj hs ▸ h.finish i false howed
    | some r =>
      obtain ⟨hinv, hdocs, htasks, -, hacked⟩ := h.getOrCreate hget
      have howed' : ∀ u, caller.owes = some u → r.1.Owed u := by
        intro u hu
        rw [Owed, htasks, hacked]
        exact howed u hu
      rw [hget] at hs
      cases hs
      apply hinv.setTask i
      · exact ⟨hinv.docs _ hdocs, fun u hu => hinv.mapped _ u hdocs (owed_setTask howed' hu)⟩
      · exact fun u hu => .inl (howed' u hu)
      · simp [pending]
      · exact fun _ t ht => hx t (htasks ▸ ht)
  | snapshotting caller e =>
    have hput : (s.put e { s.entries e with updateCount := 0 }).Inv := h.put le_rfl (h.seqs e)
    cases hs
    apply hput.setTask i
    · refine ⟨h.seqs e, fun u hu => hsound.2 u ?_⟩
      have hcaller : ∀ v, (Task.storing caller (s.entries e).sync (s.entries e).walSeq).owes = some v → s.Owed v := howed
      exact owed_setTask hcaller hu
    · exact fun u hu => .inl (howed u hu)
    · simp [pending]
    · intro _ t ht
      by_contra hp
      have := h.apart t ht _ hmem (isSome_iff_ne_none.mpr hp)
      simp [window] at this
  | storing caller state q =>
    cases hs
    exact (h.store hmem).finish i true howed
  | removing =>
    rw [DocStore.advance] at hs
    cases hdocs : s.docs with
    | none =>
      rw [hdocs] at hs
      exact some.inj hs ▸ h.done i
    | some e =>
      rw [hdocs] at hs
      dsimp only at hs
      split_ifs at hs
      · exact some.inj hs ▸ h.forget.done i
      · exact some.inj hs ▸ h.forget.setTask_idle i (.deletingSnapshots none)
      · exact some.inj hs ▸ h.done i
  | deletingSnapshots share =>
    simp only [exclusive, hi] at hx
    cases hs
    have hdelete := h.delete (d := s.disk.deleteSnapshots) (Nat.zero_le _) rfl hx
    exact hdelete.setTask_idle i (.deletingWal share)
  | deletingWal share =>
    simp only [exclusive, hi] at hx
    cases hs
    have hdelete := h.delete (d := s.disk.deleteWal) h.cutoff rfl hx
    cases share with
    | none => exact hdelete.done i
    | some u => exact hdelete.setTask_idle i (.forgetting u)
  | forgetting u =>
    exact some.inj hs ▸ h.forget.setTask_idle i (.inserting u)
  | inserting u =>
    cases hs
    exact (h.append u).1.setTask i (.shared u (s.disk.lastId + 1)) le_rfl (by simp [owes])
      (by simp [pending]) (by simp [window])
  | shared u id =>
    obtain ⟨r, hr, rfl⟩ := map_eq_some_iff.mp hs
    obtain ⟨hinv, -, -, hdisk, -⟩ := h.getOrCreate hr
    have hid : id ≤ r.1.disk.lastId := hdisk ▸ hsound
    exact hinv.setTask i (.sharing u id r.2) hid (by simp [owes]) (by simp [pending]) (by simp [window])
  | sharing u id e =>
    have hput : (s.put e ⟨(s.entries e).sync ⊔ u, id, 1, 1⟩).Inv := h.put le_sup_left hsound
    exact some.inj hs ▸ hput.done i
  | done => simp [DocStore.advance] at hs

lemma Inv.abort {i : ℕ} {t : Task σ} (hi : s.tasks[i]? = some t) (hs : s.abort i t = some s') : s'.Inv := by
  have howed : ∀ u, t.owes = some u → s.Owed u := fun u hu => .inr ⟨t, mem_of_getElem? hi, hu⟩
  have hend : (s.setTask i .done).Inv := h.done i
  have hshare : ∀ u, (s.setTask i (.forgetting u)).Inv :=
    fun u => h.setTask_idle i (.forgetting u)
  cases t with
  | compacting caller => exact some.inj hs ▸ h.finish i false howed
  | snapshotting caller e => exact some.inj hs ▸ h.finish i false howed
  | storing caller state q => exact some.inj hs ▸ h.finish i false howed
  | deletingSnapshots share =>
    cases share with
    | none => exact some.inj hs ▸ hend
    | some u => exact some.inj hs ▸ hshare u
  | deletingWal share =>
    cases share with
    | none => exact some.inj hs ▸ hend
    | some u => exact some.inj hs ▸ hshare u
  | done => simp [DocStore.abort] at hs
  | _ => exact some.inj hs ▸ hend

lemma Inv.step {ev : Event σ} (hx : exclusive s ev = true) (hs : s.step lim ev = some s') : s'.Inv := by
  cases ev with
  | applyUpdate u =>
    cases hs
    obtain ⟨hinv, hu⟩ := h.append u
    simp only [exclusive, List.all_eq_true, Bool.not_eq_true'] at hx
    exact hinv.spawn (.appended u (s.disk.lastId + 1)) ⟨hu, le_rfl⟩ rfl (fun _ => hx) rfl
  | compactDoc => exact some.inj hs ▸ h.spawn _ trivial rfl (by simp [pending]) rfl
  | evictIdle =>
    rw [DocStore.step] at hs
    split at hs
    · split_ifs at hs
      exact some.inj hs ▸ h.spawn _ trivial rfl (by simp [pending]) rfl
    · simp at hs
  | deleteDoc => exact some.inj hs ▸ h.forget.spawn _ trivial rfl (by simp [pending]) rfl
  | shareDoc u => exact some.inj hs ▸ h.spawn _ trivial rfl (by simp [pending]) rfl
  | read =>
    obtain ⟨r, hr, rfl⟩ := map_eq_some_iff.mp hs
    exact (h.getOrCreate hr).1
  | connect =>
    obtain ⟨r, hr, rfl⟩ := map_eq_some_iff.mp hs
    have hinv := (h.getOrCreate hr).1
    exact hinv.put le_rfl (hinv.seqs r.2)
  | disconnect =>
    obtain ⟨r, hr, rfl⟩ := map_eq_some_iff.mp hs
    have hinv := (h.getOrCreate hr).1
    exact hinv.put le_rfl (hinv.seqs r.2)
  | lruEvict =>
    rw [DocStore.step] at hs
    split at hs
    · split_ifs at hs
      exact some.inj hs ▸ h.forget
    · simp at hs
  | foreignAppend => exact some.inj hs ▸ h.foreignAppend
  | crash => exact some.inj hs ▸ inv_start s.disk s.acked h.cutoff fun u hu => h.stored u (.inl hu)
  | run i =>
    obtain ⟨t, hi, hs⟩ := bind_eq_some_iff.mp hs
    exact h.advance hi hx hs
  | fail i =>
    obtain ⟨t, hi, hs⟩ := bind_eq_some_iff.mp hs
    exact h.abort hi hs

end

lemma Reachable.inv (h : Reachable lim exclusive s) : s.Inv := by
  induction h with
  | start => exact inv_start .empty [] le_rfl (by simp)
  | step _ ha hs ih => exact ih.step ha hs

end DocStore

open DocStore

theorem acknowledged_updates_are_durable [SemilatticeSup σ] [OrderBot σ] (lim : Limits) (s : DocStore σ)
    (h : Reachable lim exclusive s) : ∀ u ∈ s.acked, u ≤ s.disk.content :=
  fun u hu => h.inv.stored u (.inl hu)

def sampleLimits : Limits := ⟨2, 0, true⟩

def sampleRun : List (Event (Finset ℕ)) :=
  [.applyUpdate {0}, .run 0, .run 0, .applyUpdate {1}, .run 1, .run 1, .run 1, .run 1, .run 1, .crash]

theorem updates_of_sample_are_durable :
    ∃ s, run sampleLimits exclusive (start .empty []) sampleRun = some s ∧ s.acked = [{1}, {0}] ∧
      ∀ u ∈ s.acked, u ≤ s.disk.content := by
  obtain ⟨s, hs, hacked⟩ : ∃ s, run sampleLimits exclusive (start .empty []) sampleRun = some s ∧
      s.acked = [{1}, {0}] := by decide +kernel
  exact ⟨s, hs, hacked, acknowledged_updates_are_durable sampleLimits s (.run .start hs)⟩

def sampleRace : List (Event (Finset ℕ)) :=
  [.applyUpdate {0}, .run 0, .run 0, .applyUpdate {1}, .applyUpdate {2}, .run 2, .run 2, .run 2, .run 2, .run 2,
    .run 1, .run 1, .crash]

theorem acknowledged_update_is_lost :
    ∃ s : DocStore (Finset ℕ), Reachable sampleLimits (fun _ _ => true) s ∧ {1} ∈ s.acked ∧
      s.disk.content = {0, 2} := by
  obtain ⟨s, hs, hlost⟩ : ∃ s, run sampleLimits (fun _ _ => true) (start .empty []) sampleRace = some s ∧
      {1} ∈ s.acked ∧ s.disk.content = {0, 2} := by decide +kernel
  exact ⟨s, .run .start hs, hlost⟩

end Mae.Daemon
