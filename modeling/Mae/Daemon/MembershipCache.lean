import Mae.Library.OpSet
import Mae.Sync.Membership.Readers
import Mae.Sync.Membership.Timebox

/-! The memoized derivation of the members of a KB, in the interleavings of calls with changes of the blocklist. -/

namespace Mae.Daemon.MembershipCache

open Library Sync Sync.Membership List Option OpSet

/-- The collection documents of `yrs` as sets of operations, and the op-log that one of them makes. -/
structure CollectionYrs where
  Item : Type
  oplogOps : Finset (Op Item) → List SignedMembershipOp

abbrev CollectionYrs.Doc (Y : CollectionYrs) : Type := Finset (Op Y.Item)

structure DerivedMembership where
  governance : Governance
  members : Members

variable (C : Crypto)

def derive (ops : List SignedMembershipOp) (anchor : Key32) (now : UInt64) (blocklist : Finset String) :
    DerivedMembership :=
  let governance := deriveGovernance C ops anchor
  { governance := governance
    members := deriveValidMembersGoverned C ops anchor now governance { blocklist := blocklist } }

/-- The earliest time after `now` at which an op expires. -/
def validUntil (ops : List SignedMembershipOp) (now : UInt64) : UInt64 :=
  (((ops.filterMap fun o => o.op.expiresAt).filter fun e => now < e).min?).getD (UInt64.ofNat (2 ^ 64 - 1))

variable {Y : CollectionYrs}

structure Call (Y : CollectionYrs) where
  kbId : String
  coll : Y.Doc
  anchor : Key32
  now : UInt64

def Call.fresh (c : Call Y) (blocklist : Finset String) : DerivedMembership :=
  derive C (Y.oplogOps c.coll) c.anchor c.now blocklist

structure CachedDerive where
  sv : StateVector
  anchor : Key32
  validUntil : UInt64
  result : DerivedMembership

def CachedDerive.serves (e : CachedDerive) (c : Call Y) : Bool :=
  e.sv.sameAs (stateVector c.coll) && decide (e.anchor = c.anchor) && decide (c.now < e.validUntil)

def Call.cached (c : Call Y) (blocklist : Finset String) : CachedDerive where
  sv := stateVector c.coll
  anchor := c.anchor
  validUntil := MembershipCache.validUntil (Y.oplogOps c.coll) c.now
  result := c.fresh C blocklist

inductive Phase where
  | entered
  | missed
  | viewed (blocklist : Finset String)
  | returned (result : DerivedMembership)

/-- A call under way. `seen` has the blocklists that were in force since it began. -/
structure Activity (Y : CollectionYrs) where
  call : Call Y
  phase : Phase
  seen : List (Finset String)

def Activity.witness (kbId : String) (blocklist : Finset String) (a : Activity Y) : Activity Y :=
  match a.phase with
  | .returned _ => a
  | _ => if a.call.kbId = kbId then { a with seen := blocklist :: a.seen } else a

/-- An entry of the cache, beside the call that stored it and the blocklist that this call had read. -/
structure Entry (Y : CollectionYrs) where
  entry : CachedDerive
  call : Call Y
  blocklist : Finset String

structure State (Y : CollectionYrs) where
  blocklists : String → Finset String
  anchors : String → Option Key32
  cache : String → Option (Entry Y)
  invalidating : List String
  tasks : ℕ → Option (Activity Y)

inductive Event (Y : CollectionYrs) where
  | enter (task : ℕ) (call : Call Y)
  | look (task : ℕ)
  | readView (task : ℕ)
  | finish (task : ℕ)
  | addKbBlock (kbId principal : String)
  | removeKbBlock (kbId principal : String)
  | invalidate (kbId : String)
  | setKbAnchor (kbId : String) (anchor : Key32)

namespace State

def initial : State Y where
  blocklists := fun _ => ∅
  anchors := fun _ => none
  cache := fun _ => none
  invalidating := []
  tasks := fun _ => none

variable (s : State Y)

def setPhase (task : ℕ) (a : Activity Y) (phase : Phase) : State Y :=
  { s with tasks := Function.update s.tasks task (some { a with phase := phase }) }

def setBlocklist (kbId : String) (blocklist : Finset String) : State Y :=
  { s with
    blocklists := Function.update s.blocklists kbId blocklist
    invalidating := kbId :: s.invalidating
    tasks := fun i => (s.tasks i).map (Activity.witness kbId blocklist) }

def step : Event Y → State Y
  | .enter task call =>
    match s.tasks task with
    | some _ => s
    | none => { s with tasks := Function.update s.tasks task (some ⟨call, .entered, [s.blocklists call.kbId]⟩) }
  | .look task =>
    match s.tasks task with
    | some a@⟨call, .entered, _⟩ =>
      match s.cache call.kbId with
      | some e => if e.entry.serves call then s.setPhase task a (.returned e.entry.result) else s.setPhase task a .missed
      | none => s.setPhase task a .missed
    | _ => s
  | .readView task =>
    match s.tasks task with
    | some a@⟨call, .missed, _⟩ => s.setPhase task a (.viewed (s.blocklists call.kbId))
    | _ => s
  | .finish task =>
    match s.tasks task with
    | some a@⟨call, .viewed blocklist, _⟩ =>
      { s.setPhase task a (.returned (call.fresh C blocklist)) with
        cache := Function.update s.cache call.kbId (some ⟨call.cached C blocklist, call, blocklist⟩) }
    | _ => s
  | .addKbBlock kbId principal => s.setBlocklist kbId (insert principal (s.blocklists kbId))
  | .removeKbBlock kbId principal => s.setBlocklist kbId ((s.blocklists kbId).erase principal)
  | .invalidate kbId =>
    if kbId ∈ s.invalidating then
      { s with
        invalidating := s.invalidating.erase kbId
        cache := Function.update s.cache kbId none }
    else s
  | .setKbAnchor kbId anchor => { s with anchors := Function.update s.anchors kbId (some anchor) }

def run (events : List (Event Y)) : State Y := events.foldl (step C) s

def Transparent : Prop :=
  ∀ task a result, s.tasks task = some a → a.phase = .returned result → ∃ b ∈ a.seen, result = a.call.fresh C b

def NoneBetween (kbId : String) : Prop :=
  ∀ task a b, s.tasks task = some a → a.call.kbId = kbId → a.phase ≠ .viewed b

def Orderly : Event Y → Prop
  | .enter _ call => call.kbId ∉ s.invalidating
  | .look task => ∀ a e, s.tasks task = some a → a.phase = .entered → s.cache a.call.kbId = some e →
      e.entry.serves a.call = true →
      Y.oplogOps a.call.coll = Y.oplogOps e.call.coll ∧
        ∀ o ∈ Y.oplogOps a.call.coll, ∀ exp, o.op.expiresAt = some exp → ¬ (a.call.now < exp ∧ exp ≤ e.call.now)
  | .addKbBlock kbId _ | .removeKbBlock kbId _ => s.NoneBetween kbId
  | _ => True

def OrderlyRun (events : List (Event Y)) : Prop :=
  ∀ before e after, events = before ++ e :: after → (s.run C before).Orderly e

end State

/-! ### An entry that serves a call -/

section

variable {C}

lemma lt_expiry_of_lt_validUntil {ops : OpLog} {now later exp : UInt64} (hlater : later < validUntil ops now)
    {o : SignedMembershipOp} (ho : o ∈ ops) (hexp : o.op.expiresAt = some exp) (hnow : now < exp) : later < exp := by
  have hmem : exp ∈ (ops.filterMap fun o => o.op.expiresAt).filter fun e => now < e :=
    mem_filter.mpr ⟨mem_filterMap.mpr ⟨o, ho, hexp⟩, decide_eq_true hnow⟩
  rw [validUntil] at hlater
  cases hmin : ((ops.filterMap fun o => o.op.expiresAt).filter fun e => now < e).min? with
  | none =>
    rw [min?_eq_none_iff.mp hmin] at hmem
    cases hmem
  | some m =>
    rw [hmin] at hlater
    exact UInt64.lt_of_lt_of_le hlater ((min?_eq_some_iff.mp hmin).2 exp hmem)

lemma result_eq_fresh {c stored : Call Y} {blocklist : Finset String}
    (hserves : (stored.cached C blocklist).serves c = true) (hops : Y.oplogOps c.coll = Y.oplogOps stored.coll)
    (hback : ∀ o ∈ Y.oplogOps c.coll, ∀ exp, o.op.expiresAt = some exp → ¬ (c.now < exp ∧ exp ≤ stored.now)) :
    (stored.cached C blocklist).result = c.fresh C blocklist := by
  simp only [CachedDerive.serves, Call.cached, Bool.and_eq_true] at hserves
  have hanchor : stored.anchor = c.anchor := of_decide_eq_true hserves.1.2
  have hlater : c.now < validUntil (Y.oplogOps stored.coll) stored.now := of_decide_eq_true hserves.2
  have hexpired : ∀ o ∈ Y.oplogOps stored.coll, expired o.op stored.now = expired o.op c.now := by
    intro o ho
    refine expired_congr (hback o (hops ▸ ho)) fun exp hexp hbetween => ?_
    exact absurd (lt_expiry_of_lt_validUntil hlater ho hexp hbetween.1) (UInt64.not_lt.mpr hbetween.2)
  simp only [Call.cached, Call.fresh, derive, hanchor, hops, deriveValidMembersGoverned_congr_now hexpired]

end

namespace State

/-! ### Steps -/

def Activity.Active (a : Activity Y) : Prop := ∀ r, a.phase ≠ .returned r

structure Coherent (s : State Y) : Prop where
  entries : ∀ kb e, s.cache kb = some e → e.entry = e.call.cached C e.blocklist
  current : ∀ kb e, s.cache kb = some e → kb ∉ s.invalidating → e.blocklist = s.blocklists kb
  viewed : ∀ i a b, s.tasks i = some a → a.phase = .viewed b → b = s.blocklists a.call.kbId
  seen : ∀ i a, s.tasks i = some a → Activity.Active a →
    s.blocklists a.call.kbId ∈ a.seen ∧ ∀ e, s.cache a.call.kbId = some e → e.blocklist ∈ a.seen
  transparent : s.Transparent C

variable {C} {s : State Y} {task : ℕ} {e : Event Y} {events : List (Event Y)}

lemma of_update_eq_some {α β : Type*} [DecidableEq α] {f : α → Option β} {k k' : α} {v v' : β}
    (h : Function.update f k (some v) k' = some v') : (k' = k ∧ v' = v) ∨ f k' = some v' := by
  by_cases hk : k' = k
  · subst hk
    exact .inl ⟨rfl, by simpa using h.symm⟩
  · exact .inr (by simpa [hk] using h)

section

variable (h : s.Coherent C)
include h

lemma Coherent.assign {a : Activity Y} (hviewed : ∀ b, a.phase = .viewed b → b = s.blocklists a.call.kbId)
    (hseen : s.blocklists a.call.kbId ∈ a.seen ∧ ∀ e, s.cache a.call.kbId = some e → e.blocklist ∈ a.seen)
    (hreturned : ∀ r, a.phase = .returned r → ∃ b ∈ a.seen, r = a.call.fresh C b) :
    Coherent C { s with tasks := Function.update s.tasks task (some a) } := by
  refine ⟨h.entries, h.current, fun i a' b ha' hb => ?_, fun i a' ha' hact => ?_, fun i a' r ha' hr => ?_⟩
  · rcases of_update_eq_some ha' with ⟨-, rfl⟩ | hold
    · exact hviewed b hb
    · exact h.viewed i a' b hold hb
  · rcases of_update_eq_some ha' with ⟨-, rfl⟩ | hold
    · exact hseen
    · exact h.seen i a' hold hact
  · rcases of_update_eq_some ha' with ⟨-, rfl⟩ | hold
    · exact hreturned r hr
    · exact h.transparent i a' r hold hr

lemma Coherent.setPhase {a : Activity Y} (ha : s.tasks task = some a) (hactive : Activity.Active a) {phase : Phase}
    (hviewed : ∀ b, phase = .viewed b → b = s.blocklists a.call.kbId)
    (hreturned : ∀ r, phase = .returned r → ∃ b ∈ a.seen, r = a.call.fresh C b) :
    (s.setPhase task a phase).Coherent C :=
  h.assign hviewed (h.seen task a ha hactive) hreturned

lemma Coherent.enter {call : Call Y} (hidle : call.kbId ∉ s.invalidating) :
    (s.step C (.enter task call)).Coherent C := by
  simp only [State.step]
  split
  · exact h
  · refine h.assign (fun _ hb => (nomatch hb)) ⟨mem_singleton_self _, fun e he => ?_⟩ fun _ hr => (nomatch hr)
    exact mem_singleton.mpr (h.current _ e he hidle)

lemma Coherent.look (horderly : s.Orderly (.look task)) : (s.step C (.look task)).Coherent C := by
  simp only [State.step]
  split
  · rename_i call seen htask
    have hactive : Activity.Active (⟨call, .entered, seen⟩) := fun r hr => (nomatch hr)
    have hmiss : (s.setPhase task ⟨call, .entered, seen⟩ .missed).Coherent C :=
      h.setPhase htask hactive (fun _ hb => (nomatch hb)) fun _ hr => (nomatch hr)
    split
    · rename_i e he
      split
      · rename_i hserves
        refine h.setPhase htask hactive (fun _ hb => (nomatch hb)) fun r hr => ?_
        cases hr
        obtain ⟨hops, hback⟩ := horderly _ e htask rfl he hserves
        have hentry := h.entries _ e he
        rw [hentry] at hserves ⊢
        exact ⟨e.blocklist, (h.seen task _ htask hactive).2 e he, result_eq_fresh hserves hops hback⟩
      · exact hmiss
    · exact hmiss
  · exact h

lemma Coherent.readView (task : ℕ) : (s.step C (.readView task)).Coherent C := by
  simp only [State.step]
  split
  · rename_i call seen htask
    refine h.setPhase htask (fun r hr => (nomatch hr)) (fun b hb => ?_) fun _ hr => (nomatch hr)
    exact (Phase.viewed.inj hb).symm
  · exact h

lemma Coherent.finish (task : ℕ) : (s.step C (.finish task)).Coherent C := by
  simp only [State.step]
  split
  · rename_i call blocklist seen htask
    have hactive : Activity.Active (⟨call, .viewed blocklist, seen⟩) := fun r hr => (nomatch hr)
    have hcurrent : blocklist = s.blocklists call.kbId := h.viewed task _ blocklist htask rfl
    have hdone : (s.setPhase task ⟨call, .viewed blocklist, seen⟩ (.returned (call.fresh C blocklist))).Coherent C :=
      h.setPhase htask hactive (fun _ hb => (nomatch hb))
        fun r hr => ⟨blocklist, hcurrent ▸ (h.seen task _ htask hactive).1, (Phase.returned.inj hr).symm⟩
    -- the new entry, or the entry of another KB
    refine ⟨fun kb e he => ?_, fun kb e he hkb => ?_, hdone.viewed, fun i a ha hact => ?_, hdone.transparent⟩
    · rcases of_update_eq_some he with ⟨-, rfl⟩ | hold
      · rfl
      · exact h.entries kb e hold
    · rcases of_update_eq_some he with ⟨rfl, rfl⟩ | hold
      · exact hcurrent
      · exact h.current kb e hold hkb
    · obtain ⟨hnow, hold⟩ := hdone.seen i a ha hact
      refine ⟨hnow, fun e he => ?_⟩
      rcases of_update_eq_some he with ⟨hkb, rfl⟩ | he
      · rw [hcurrent, ← hkb]
        exact hnow
      · exact hold e he
  · exact h

end

lemma witness_same (kb : String) (b : Finset String) (a : Activity Y) :
    (a.witness kb b).phase = a.phase ∧ (a.witness kb b).call = a.call := by
  unfold Activity.witness
  split
  · exact ⟨rfl, rfl⟩
  · split <;> exact ⟨rfl, rfl⟩

lemma Coherent.setBlocklist (h : s.Coherent C) {kb : String} (hnone : s.NoneBetween kb) (blocklist : Finset String) :
    (s.setBlocklist kb blocklist).Coherent C := by
  refine ⟨h.entries, fun kb' e he hkb' => ?_, fun i a b ha hb => ?_, fun i a ha hact => ?_, fun i a r ha hr => ?_⟩
  · obtain ⟨hne, hidle⟩ := not_or.mp fun h => hkb' (mem_cons.mpr h)
    simp only [State.setBlocklist, Function.update_of_ne hne]
    exact h.current kb' e he hidle
  all_goals obtain ⟨old, hold, rfl⟩ := map_eq_some_iff.mp ha
  · rw [(witness_same ..).1] at hb
    have hne : old.call.kbId ≠ kb := fun hkb => hnone i old b hold hkb hb
    simp only [(witness_same ..).2, State.setBlocklist, Function.update_of_ne hne]
    exact h.viewed i old b hold hb
  · have hactive : Activity.Active old := fun r => (witness_same kb blocklist old).1 ▸ hact r
    obtain ⟨hnow, hcache⟩ := h.seen i old hold hactive
    have hwitness : old.witness kb blocklist =
        if old.call.kbId = kb then { old with seen := blocklist :: old.seen } else old := by
      unfold Activity.witness
      split
      · rename_i r hr
        exact absurd hr (hactive r)
      · rfl
    rw [hwitness]
    split
    · rename_i hkb
      refine ⟨?_, fun e he => mem_cons_of_mem _ (hcache e he)⟩
      simp [State.setBlocklist, hkb]
    · rename_i hkb
      simp only [State.setBlocklist, Function.update_of_ne hkb]
      exact ⟨hnow, hcache⟩
  · rw [(witness_same ..).1] at hr
    have hsame : old.witness kb blocklist = old := by
      unfold Activity.witness
      rw [hr]
    rw [hsame]
    exact h.transparent i old r hold hr

lemma Coherent.invalidate (h : s.Coherent C) (kb : String) : (s.step C (.invalidate kb)).Coherent C := by
  simp only [State.step]
  split
  · have hcache : ∀ {kb' e}, Function.update s.cache kb none kb' = some e → kb' ≠ kb ∧ s.cache kb' = some e := by
      intro kb' e he
      by_cases hkb : kb' = kb
      · subst hkb
        simp at he
      · exact ⟨hkb, by simpa [hkb] using he⟩
    refine ⟨fun kb' e he => h.entries kb' e (hcache he).2, fun kb' e he hidle => ?_, h.viewed, fun i a ha hact => ?_,
      h.transparent⟩
    · obtain ⟨hne, hold⟩ := hcache he
      exact h.current kb' e hold fun hmem => hidle ((mem_erase_of_ne hne).mpr hmem)
    · exact ⟨(h.seen i a ha hact).1, fun e he => (h.seen i a ha hact).2 e (hcache he).2⟩
  · exact h

lemma Coherent.step (h : s.Coherent C) (horderly : s.Orderly e) : (s.step C e).Coherent C := by
  cases e with
  | enter task call => exact h.enter horderly
  | look task => exact h.look horderly
  | readView task => exact h.readView task
  | finish task => exact h.finish task
  | addKbBlock kb principal => exact h.setBlocklist horderly _
  | removeKbBlock kb principal => exact h.setBlocklist horderly _
  | invalidate kb => exact h.invalidate kb
  | setKbAnchor kb anchor => exact ⟨h.entries, h.current, h.viewed, h.seen, h.transparent⟩

lemma coherent_initial : (initial : State Y).Coherent C :=
  ⟨fun _ _ h => (nomatch h), fun _ _ h => (nomatch h), fun _ _ _ h => (nomatch h), fun _ _ h => (nomatch h),
    fun _ _ _ h => (nomatch h)⟩

lemma OrderlyRun.tail (h : s.OrderlyRun C (e :: events)) :
    (s.step C e).OrderlyRun C events := fun before e' after hsplit =>
  h (e :: before) e' after (by rw [hsplit, cons_append])

lemma coherent_run (h : s.Coherent C) (horderly : s.OrderlyRun C events) : (s.run C events).Coherent C := by
  induction events generalizing s with
  | nil => exact h
  | cons e events ih => exact ih (h.step (horderly [] e events rfl)) horderly.tail

/-- The cache does not show in the results of an orderly run. -/
theorem membership_cache_transparent (events : List (Event Y)) (horderly : (initial : State Y).OrderlyRun C events) :
    ((initial : State Y).run C events).Transparent C := (coherent_run coherent_initial horderly).transparent

lemma OrderlyRun.nil : s.OrderlyRun C [] := fun before e after h => by simp at h

lemma OrderlyRun.cons (he : s.Orderly e) (h : (s.step C e).OrderlyRun C events) : s.OrderlyRun C (e :: events) := by
  intro before e' after hsplit
  cases before with
  | nil => exact (List.cons.inj hsplit).1 ▸ he
  | cons e1 before =>
    obtain ⟨rfl, hrest⟩ := List.cons.inj hsplit
    exact h before e' after hrest

/-- The owner admits `b` until the time 10. -/
def sampleTimeboxed : SignedMembershipOp :=
  sampleSigned 2 'o' { sampleOp (sampleHash 1) 'o' .admits (sampleFp 'b') (some .editor) with expiresAt := some 10 }

def sampleOplog (d : Finset (Op Unit)) : List SignedMembershipOp :=
  if Op.insert 1 0 () ∈ d ∧ Op.delete 1 0 ∉ d then [sampleGenesis, sampleTimeboxed] else []

def sampleYrs : CollectionYrs := ⟨Unit, sampleOplog⟩

def sampleColl : sampleYrs.Doc := {Op.insert 1 0 ()}

def sampleCall (now : UInt64) : Call sampleYrs := ⟨"kb", sampleColl, sampleKey 'o', now⟩

def sampleDeleted : Call sampleYrs :=
  ⟨"kb", ({Op.insert 1 0 (), Op.delete 1 0} : Finset (Op Unit)), sampleKey 'o', 0⟩

def call (task : ℕ) (c : Call Y) : List (Event Y) := [.enter task c, .look task, .readView task, .finish task]

def shows (s : State sampleYrs) (task : ℕ) (member : String) : Option (Bool × List Bool) :=
  (s.tasks task).bind fun a =>
    match a.phase with
    | .returned r => some (r.members.contains member, a.seen.map fun b => (a.call.fresh .sample b).members.contains member)
    | _ => none

lemma not_transparent_of_shows {s : State sampleYrs} {task : ℕ} {member : String} {b : Bool} {l : List Bool}
    (h : shows s task member = some (b, l)) (hb : b ∉ l) : ¬ s.Transparent .sample := by
  intro htransparent
  obtain ⟨a, ha, hphase⟩ := bind_eq_some_iff.mp h
  split at hphase
  · rename_i r hr
    obtain ⟨blocklist, hseen, rfl⟩ := htransparent task a r ha hr
    cases hphase
    exact hb (List.mem_map_of_mem hseen)
  · cases hphase

def sampleServed : List (Event sampleYrs) := call 1 (sampleCall 0) ++ [.enter 2 (sampleCall 0), .look 2]

def sampleClockBack : List (Event sampleYrs) := call 1 (sampleCall 20) ++ call 2 (sampleCall 5)

def sampleLogDeleted : List (Event sampleYrs) := call 1 (sampleCall 0) ++ call 2 sampleDeleted

def sampleRace : List (Event sampleYrs) :=
  [.enter 1 (sampleCall 0), .look 1, .readView 1, .addKbBlock "kb" (sampleFp 'b'), .invalidate "kb", .finish 1] ++
    call 2 (sampleCall 0)

def sampleWindow : List (Event sampleYrs) :=
  call 1 (sampleCall 0) ++ .addKbBlock "kb" (sampleFp 'b') :: call 2 (sampleCall 0)

lemma orderly_sampleServed : initial.OrderlyRun .sample sampleServed := by
  refine .cons not_mem_nil (.cons (fun a e _ _ he => (nomatch he)) (.cons trivial (.cons trivial
    (.cons not_mem_nil (.cons (fun a e ha _ he _ => ?_) .nil)))))
  have hcall : a.call = sampleCall 0 := by
    cases ha
    rfl
  have hstored : e.call = sampleCall 0 := by
    rw [hcall] at he
    cases he
    rfl
  rw [hcall, hstored]
  refine ⟨rfl, fun o _ exp _ hbetween => ?_⟩
  exact absurd hbetween.1 (UInt64.not_lt.mpr hbetween.2)

theorem second_call_is_served : (initial.run .sample sampleServed).Transparent .sample ∧
      shows (initial.run .sample sampleServed) 2 (sampleFp 'b') = some (true, [true]) :=
  ⟨membership_cache_transparent sampleServed orderly_sampleServed, by decide +kernel⟩

theorem cache_serves_stale_members : (¬ (initial.run .sample sampleClockBack).Transparent .sample) ∧
      (¬ (initial.run .sample sampleLogDeleted).Transparent .sample) ∧
      (¬ (initial.run .sample sampleRace).Transparent .sample) ∧
      ¬ (initial.run .sample sampleWindow).Transparent .sample := by
  have hclock : shows (initial.run .sample sampleClockBack) 2 (sampleFp 'b') = some (false, [true]) := by decide +kernel
  have hlog : shows (initial.run .sample sampleLogDeleted) 2 (sampleFp 'b') = some (true, [false]) := by decide +kernel
  have hrace : shows (initial.run .sample sampleRace) 2 (sampleFp 'b') = some (true, [false]) := by decide +kernel
  have hwindow : shows (initial.run .sample sampleWindow) 2 (sampleFp 'b') = some (true, [false]) := by decide +kernel
  exact ⟨not_transparent_of_shows hclock (by simp), not_transparent_of_shows hlog (by simp),
    not_transparent_of_shows hrace (by simp), not_transparent_of_shows hwindow (by simp)⟩

end State

end Mae.Daemon.MembershipCache
