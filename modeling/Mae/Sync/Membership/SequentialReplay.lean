import Mae.Sync.Membership.Unbranched

/-! An unbranched log against the replay of its ops one by one. -/

namespace Mae.Sync.Membership

open Std ExtTreeMap List

variable (C : Crypto) (owner : String) (now : UInt64)

def replayAccepts (m : Members) (op : MembershipOp) : Bool :=
  !expired op now && authorized C m op owner .singleOwner

def replayStep (m : Members) (op : MembershipOp) : Members :=
  if replayAccepts C owner now m op then
    match op.action with
    | .admits => m.insert op.subject (admitEntry op false)
    | .setRole => m.modify op.subject fun entry => overlayRole entry op
    | .remove | .revoke => m.erase op.subject
    | _ => m
  else m

def genesisMembers (g : MembershipOp) : Members := (∅ : Members).insert g.subject (admitEntry g true)

def replay (g : MembershipOp) (ops : List MembershipOp) : Members :=
  ops.foldl (replayStep C g.subject now) (genesisMembers g)

def removedOnce (C : Crypto) (owner : String) (now : UInt64) : Members → Finset String → List MembershipOp → Bool
  | _, _, [] => true
  | m, removed, op :: ops =>
    if replayAccepts C owner now m op && isRemoval op.action then
      decide (op.subject ∉ removed) &&
        removedOnce C owner now (replayStep C owner now m op) (insert op.subject removed) ops
    else removedOnce C owner now (replayStep C owner now m op) removed ops

structure Ledger where
  members : Members
  removed : Finset String

def ledgerStep (s : Ledger) (op : MembershipOp) : Ledger :=
  if replayAccepts C owner now s.members op && isRemoval op.action then
    if op.subject ∈ s.removed then s else ⟨s.members.erase op.subject, insert op.subject s.removed⟩
  else ⟨replayStep C owner now s.members op, s.removed⟩

section Abstract

variable {C : Crypto} {owner : String} {now : UInt64} {m : Members} {op : MembershipOp}

lemma contains_of_authorized_removal {governance : Governance} (hr : isRemoval op.action = true)
    (ha : authorized C m op owner governance = true) :
    op.subject ∈ m := by
  rw [authorized] at ha
  cases hm : m[op.author]? with
  | none => simp [hm] at ha
  | some author =>
    cases hact : op.action with
    | remove | revoke =>
      simp only [hm, hact, Bool.and_eq_true] at ha
      exact ExtTreeMap.contains_iff_mem.mp ha.2
    | _ => simp [hact, isRemoval] at hr

lemma replayStep_removal (hr : isRemoval op.action = true) (ha : replayAccepts C owner now m op = true) :
    replayStep C owner now m op = m.erase op.subject := by
  cases hact : op.action <;> simp_all [replayStep, isRemoval]

lemma replayAccepts_iff :
    replayAccepts C owner now m op = true ↔ expired op now = false ∧ authorized C m op owner .singleOwner = true := by
  simp [replayAccepts]

lemma ledgerStep_members_iff (s : Ledger) (op : MembershipOp) :
    (ledgerStep C owner now s op).members = replayStep C owner now s.members op ↔
      ((replayAccepts C owner now s.members op && isRemoval op.action) = true → op.subject ∉ s.removed) := by
  rw [ledgerStep]
  split_ifs with ha hrem
  · -- An accepted removal has its subject present, so that to erase it does change the map.
    rw [Bool.and_eq_true] at ha
    have hmem := contains_of_authorized_removal ha.2 (replayAccepts_iff.mp ha.1).2
    rw [replayStep_removal ha.2 ha.1]
    refine iff_of_false (fun he => ?_) (fun hc => hc (by simp [ha]) hrem)
    rw [he] at hmem
    simp at hmem
  · rw [Bool.and_eq_true] at ha
    exact iff_of_true (replayStep_removal ha.2 ha.1).symm fun _ => hrem
  · exact iff_of_true rfl fun hc => (ha hc).elim

lemma ledger_eq_replay_iff (ops : List MembershipOp) (s : Ledger) :
    (∀ k, ((ops.take k).foldl (ledgerStep C owner now) s).members =
        (ops.take k).foldl (replayStep C owner now) s.members) ↔
      removedOnce C owner now s.members s.removed ops = true := by
  induction ops generalizing s with
  | nil => simp [removedOnce]
  | cons op ops ih =>
    have hremoved : (ledgerStep C owner now s op).members = replayStep C owner now s.members op →
        (removedOnce C owner now s.members s.removed (op :: ops) =
          removedOnce C owner now (ledgerStep C owner now s op).members (ledgerStep C owner now s op).removed ops) := by
      intro hm
      have hfresh := (ledgerStep_members_iff s op).mp hm
      rw [hm, removedOnce, ledgerStep]
      split_ifs with ha hrem
      · exact (hfresh ha hrem).elim
      · simp [hrem]
      · rfl
    constructor
    · intro hall
      have hm : (ledgerStep C owner now s op).members = replayStep C owner now s.members op := by
        simpa using hall 1
      rw [hremoved hm, ← ih]
      intro k
      simpa [hm] using hall (k + 1)
    · intro hro
      have hm : (ledgerStep C owner now s op).members = replayStep C owner now s.members op := by
        rw [ledgerStep_members_iff]
        intro ha
        rw [removedOnce, if_pos ha, Bool.and_eq_true, decide_eq_true_eq] at hro
        exact hro.1
      rw [hremoved hm, ← ih] at hro
      intro k
      cases k with
      | zero => rfl
      | succ k => simpa [hm] using hro k

end Abstract

section Refinement

variable {C : Crypto} {t : OpTree} {now : UInt64}

structure Ledger.Tracks (t : OpTree) (now : UInt64) (acc : List String) (s : Ledger) : Prop where
  members : buildMembers t .singleOwner now acc = s.members
  removed : ∀ p, p ∈ s.removed ↔ (seat t acc p).removed = true

def isPlain (action : MembershipAction) : Bool :=
  action == .admits || action == .setRole || action == .remove || action == .revoke

section

variable {owner : String} {s : Ledger} {op : MembershipOp} (ha : replayAccepts C owner now s.members op = true)
  (p : String)
include ha p

lemma ledgerStep_removed :
    p ∈ (ledgerStep C owner now s op).removed ↔ p ∈ s.removed ∨ isRemoval op.action = true ∧ op.subject = p := by
  rw [ledgerStep]
  cases hr : isRemoval op.action with
  | false => simp [ha]
  | true =>
    by_cases hrem : op.subject ∈ s.removed
    · simp only [ha, hrem, Bool.and_self, if_true, true_and]
      exact ⟨Or.inl, fun hp => hp.elim id fun he => he ▸ hrem⟩
    · simp [ha, hrem, or_comm, eq_comm]

lemma ledgerStep_getElem? : (ledgerStep C owner now s op).members[p]? =
      if op.subject = p then ((⟨decide (p ∈ s.removed), s.members[p]?⟩ : Seat).step op false).entry
      else s.members[p]? := by
  rw [ledgerStep]
  by_cases hp : op.subject = p
  · subst hp
    cases hact : op.action with
    | admits => simp [hact, isRemoval, ha, replayStep, Seat.step]
    | setRole => simp [hact, isRemoval, ha, replayStep, Seat.step]
    | remove | revoke =>
      by_cases hrem : op.subject ∈ s.removed <;> simp [hact, isRemoval, ha, hrem, Seat.step]
    | _ => simp [hact, isRemoval, ha, replayStep, Seat.step]
  · cases hact : op.action with
    | admits => simp [hact, isRemoval, ha, replayStep, hp, ExtTreeMap.getElem?_insert]
    | setRole => simp [hact, isRemoval, ha, replayStep, hp, ExtTreeMap.getElem?_modify]
    | remove | revoke =>
      by_cases hrem : op.subject ∈ s.removed <;> simp [isRemoval, ha, hrem, hp, getElem?_erase]
    | _ => simp [hact, isRemoval, ha, replayStep, hp]

end

lemma ne_rebind_of_isPlain {action : MembershipAction} (hp : isPlain action = true) : action ≠ .rebind := by
  rintro rfl
  simp [isPlain] at hp

namespace Ledger.Tracks

variable {acc : List String} {h : String} {s : Ledger}

lemma accepts_eq (hs : s.Tracks t now acc) (hne : h ≠ t.genesisHash) :
    accepts C t .singleOwner now acc h = replayAccepts C t.owner now s.members (t.op h) := by
  rw [accepts, replayAccepts, hs.members, beq_false_of_ne hne, Bool.false_or]

lemma step (hs : s.Tracks t now acc) (hroot : (t.op t.genesisHash).action = .admits)
    (hq : InSequence t (acc ++ [h])) (hexp : ∀ k ∈ acc, expired (t.op k) now = false)
    (hseated : ∀ k ∈ acc ++ [h], (t.op k).action ≠ .rebind) (hne : h ≠ t.genesisHash) :
    (ledgerStep C t.owner now s (t.op h)).Tracks t now (acceptStep C t .singleOwner now acc h) := by
  rw [acceptStep, hs.accepts_eq hne]
  split_ifs with ha
  · have hexp' : ∀ k ∈ acc ++ [h], expired (t.op k) now = false := by
      intro k hk
      rw [mem_append, mem_singleton] at hk
      rcases hk with hk | rfl
      · exact hexp k hk
      · exact (replayAccepts_iff.mp ha).1
    have hacc : ∀ k ∈ acc, (t.op k).action ≠ .rebind := fun k hk => hseated k (mem_append_left _ hk)
    have hseat : ∀ p, s.members[p]? = (seat t acc p).entry := by
      intro p
      rw [← hs.members, buildMembers_of_no_rebind hacc]
      exact admitPass_eq_seat hroot hq.of_concat hexp p
    have hrem : ∀ p, decide (p ∈ s.removed) = (seat t acc p).removed := by
      intro p
      rw [Bool.eq_iff_iff, decide_eq_true_eq, hs.removed]
    refine ⟨?_, fun p => ?_⟩
    · rw [buildMembers_of_no_rebind hseated]
      apply ExtTreeMap.ext_getElem?
      intro p
      rw [admitPass_eq_seat hroot hq hexp', seat_concat, seatStep, ledgerStep_getElem? ha, hseat, hrem]
      rw [beq_false_of_ne hne, apply_ite Seat.entry]
    · rw [ledgerStep_removed ha, seat_concat, seatStep, hs.removed]
      split_ifs with hp
      · simp [Seat.step_removed, hp]
      · simp [hp]
  · have hkeep : ledgerStep C t.owner now s (t.op h) = s := by simp [ledgerStep, replayStep, ha]
    rwa [hkeep]

end Ledger.Tracks

lemma ledger_tracks (hu : Unbranched t) {hs : List String} (horder : t.order = t.genesisHash :: hs)
    (hseated : ∀ h ∈ t.order, (t.op h).action ≠ .rebind) (hexp : expired (t.op t.genesisHash) now = false) :
    ((hs.map t.op).foldl (ledgerStep C t.owner now) ⟨genesisMembers (t.op t.genesisHash), ∅⟩).Tracks t now
      (accepted C t .singleOwner now t.order) := by
  have hq := hu.inSequence
  have hn := hu.nodup
  rw [horder] at hq hn hseated
  rw [horder]
  clear horder
  induction hs using List.reverseRecOn with
  | nil =>
    have hacc : accepted C t .singleOwner now [t.genesisHash] = [t.genesisHash] := by
      simp [accepted, acceptStep, accepts, hexp]
    have hexp' : ∀ h ∈ [t.genesisHash], expired (t.op h) now = false := by simpa using hexp
    rw [hacc]
    refine ⟨?_, fun p => ?_⟩
    · rw [buildMembers_of_no_rebind hseated]
      apply ExtTreeMap.ext_getElem?
      intro p
      rw [admitPass_eq_seat hu.root hq hexp']
      by_cases hp : (t.op t.genesisHash).subject = p
      · simp [seat, seatStep, hp, Seat.step, hu.root, genesisMembers]
      · simp [seat, seatStep, hp, genesisMembers]
    · simp [seat_removed, OpTree.Removes, hu.root, isRemoval]
  | append_singleton hs h ih =>
    rw [← cons_append] at hq hn hseated ⊢
    have hsub : (t.genesisHash :: hs).Sublist (t.genesisHash :: hs ++ [h]) := sublist_append_left _ _
    have ih := ih (fun k hk => hseated k (hsub.subset hk)) hq.of_concat (hn.sublist hsub)
    have hacc := (accepted_sublist C t .singleOwner now (t.genesisHash :: hs)).append_right [h]
    rw [map_append, foldl_append, accepted_concat]
    refine ih.step hu.root (hq.sublist hacc) (fun k hk => accepted_not_expired hk)
      (fun k hk => hseated k (hacc.subset hk)) ?_
    rintro rfl
    simp at hn

end Refinement

section Derive

variable {C : Crypto} {anchor : Key32} {now : UInt64} {g : SignedMembershipOp} {rest ops : OpLog}

lemma visible_of_signed (hsigned : ∀ o ∈ g :: rest, o.verifySigned C = true) (hs : SameRecords (g :: rest) ops) :
    SameRecords (g :: rest) (visible C {} ops) := by
  intro o
  rw [visible, List.mem_filter, hs o, and_iff_left_iff_imp]
  intro ho
  simp [honored, hsigned o ho]

section

variable (hl : ChainLog C anchor g rest)
include hl

lemma ChainLog.map_op {crypto : OpLog} (hs : SameRecords (g :: rest) crypto) {o : SignedMembershipOp}
    (ho : o ∈ g :: rest) :
    (OpTree.grow (indexByHash C crypto) (g.chainHash C)).op (o.chainHash C) = o.op :=
  grow_op ((hl.index_iff hs).mpr ⟨ho, rfl⟩)

lemma deriveValidMembers_eq_ledger (hexp : expired g.op now = false)
    (hsigned : ∀ o ∈ g :: rest, o.verifySigned C = true) (hseated : ∀ o ∈ rest, o.op.action ≠ .rebind)
    (hs : SameRecords (g :: rest) ops) :
    deriveValidMembers C ops anchor now =
      ((rest.map (·.op)).foldl (ledgerStep C g.op.subject now) ⟨genesisMembers g.op, ∅⟩).members := by
  have hvis := visible_of_signed hsigned hs
  have hu := hl.unbranched hvis
  set t := OpTree.grow (indexByHash C (visible C {} ops)) (g.chainHash C) with ht
  have hgen : t.op t.genesisHash = g.op := hl.map_op hvis mem_cons_self
  have horder : t.order = t.genesisHash :: rest.map (·.chainHash C) := hl.causalOrder_eq hvis
  have hmap : (rest.map (·.chainHash C)).map t.op = rest.map (·.op) := by
    rw [List.map_map]
    exact map_congr_left fun o ho => hl.map_op hvis (mem_cons_of_mem g ho)
  have hseated' : ∀ h ∈ t.order, (t.op h).action ≠ .rebind := by
    intro h hh
    rw [horder, mem_cons, List.mem_map] at hh
    rcases hh with rfl | ⟨o, ho, rfl⟩
    · simp [hu.root]
    · rw [hl.map_op hvis (mem_cons_of_mem g ho)]
      exact hseated o ho
  have hlive : expired (t.op t.genesisHash) now = false := by rw [hgen, hexp]
  have htrack := ledger_tracks (C := C) hu horder hseated' hlive
  rw [hmap, OpTree.owner, hgen] at htrack
  rw [← htrack.members, ← hu.live_validSet, deriveValidMembers_eq (hl.anchoredTree_eq hvis)]

lemma ChainLog.take (k : ℕ) : ChainLog C anchor g (rest.take k) where
  genesis := hl.genesis
  linked := by simpa using hl.linked.take (k + 1)
  nodup := by
    have hsub : ((g :: rest.take k).map (·.chainHash C)).Sublist ((g :: rest).map (·.chainHash C)) :=
      ((take_sublist k rest).cons_cons g).map _
    exact hl.nodup.sublist hsub

end

theorem derive_eq_replay_iff (C : Crypto) (anchor : Key32) (now : UInt64) (g : SignedMembershipOp)
    (rest : List SignedMembershipOp) (hl : ChainLog C anchor g rest) (hexp : g.op.expiresAt = none)
    (hsigned : ∀ o ∈ g :: rest, o.verifySigned C = true) (hplain : ∀ o ∈ rest, isPlain o.op.action = true) :
    (∀ k ops, SameRecords (g :: rest.take k) ops →
        deriveValidMembers C ops anchor now = replay C now g.op ((rest.take k).map (·.op))) ↔
      removedOnce C g.op.subject now (genesisMembers g.op) ∅ (rest.map (·.op)) = true := by
  rw [← ledger_eq_replay_iff (rest.map (·.op)) ⟨genesisMembers g.op, ∅⟩]
  have hderive : ∀ k ops, SameRecords (g :: rest.take k) ops → deriveValidMembers C ops anchor now =
      (((rest.map (·.op)).take k).foldl (ledgerStep C g.op.subject now) ⟨genesisMembers g.op, ∅⟩).members := by
    intro k ops hs
    have hsub : ∀ o ∈ g :: rest.take k, o ∈ g :: rest := fun o ho =>
      ((take_sublist k rest).cons_cons g).subset ho
    rw [← map_take]
    exact deriveValidMembers_eq_ledger (hl.take k) (by simp [expired, hexp]) (fun o ho => hsigned o (hsub o ho))
      (fun o ho => ne_rebind_of_isPlain (hplain o (mem_of_mem_take ho))) hs
  constructor
  · intro hall k
    rw [← hderive k _ fun o => Iff.rfl, hall k _ fun o => Iff.rfl, replay, map_take]
  · intro hall k ops hs
    rw [hderive k ops hs, hall k, replay, map_take]

def reseatedOps : List SignedMembershipOp :=
  [sampleLinked 2 1 'o' .admits (sampleFp 'b') (some .editor), sampleLinked 3 2 'o' .remove (sampleFp 'b') none,
    sampleLinked 4 3 'o' .admits (sampleFp 'b') (some .viewer), sampleLinked 5 4 'o' .revoke (sampleFp 'b') none]

theorem derive_eq_replay_of_readmission :
    deriveValidMembers .sample (sampleGenesis :: reseatedOps.take 3) (sampleKey 'o') 0 =
      replay .sample 0 sampleGenesis.op ((reseatedOps.take 3).map (·.op)) := by
  have hl : ChainLog .sample (sampleKey 'o') sampleGenesis (reseatedOps.take 3) :=
    ⟨by decide +kernel, by decide +kernel, by decide +kernel⟩
  exact (derive_eq_replay_iff .sample (sampleKey 'o') 0 sampleGenesis (reseatedOps.take 3) hl rfl
    (by decide +kernel) (by decide +kernel)).mpr (by decide +kernel) 3 _ fun o => Iff.rfl

theorem second_removal_has_no_effect : ChainLog .sample (sampleKey 'o') sampleGenesis reseatedOps ∧
      (∀ o ∈ sampleGenesis :: reseatedOps, o.verifySigned .sample = true) ∧
      sampleFp 'b' ∉ replay .sample 0 sampleGenesis.op (reseatedOps.map (·.op)) ∧
      sampleFp 'b' ∈ deriveValidMembers .sample (sampleGenesis :: reseatedOps) (sampleKey 'o') 0 :=
  ⟨⟨by decide +kernel, by decide +kernel, by decide +kernel⟩, by decide +kernel, by decide +kernel,
    by decide +kernel⟩

end Derive

end Mae.Sync.Membership
