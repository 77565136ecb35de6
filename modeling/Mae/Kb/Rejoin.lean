import Mae.Kb.Receiving

/-! The exchange of a rejoin: each side learns what it lacks, going by state vectors. -/

namespace Mae.Kb

open Library OpSet Sync Finset KnowledgeBase Host

variable {H : Host}

structure Rejoin (H : Host) where
  base : H.yrs.Doc
  mine : Set ℕ
  theirs : Set ℕ
  loc : H.yrs.Doc
  remote : H.yrs.Doc
  kb : Of H
  id : String
  node : Node H.yrs.Wire
  contiguous : Contiguous base
  agree : Agree base base
  disjoint : Disjoint mine theirs
  grown_loc : Grows mine base loc
  grown_remote : Grows theirs base remote
  stored : kb.nodes[id]? = some node
  lineage : node.crdtDoc = some (H.yrs.encode loc)

namespace Rejoin

variable (r : Rejoin H)

def exchange (probe merge ahead : Mint) : Except String (ReconcileOutcome H.yrs.Wire × Of H) :=
  r.kb.reconcileRemoteNode probe merge ahead r.id (H.yrs.encode (diff r.remote (stateVector r.loc)))
    (H.yrs.encodeSv (stateVector r.remote))

variable {d : H.yrs.Doc} (out : ReconcileOutcome H.yrs.Wire)

def remoteAfter : Except String H.yrs.Doc :=
  match out.localAhead with
  | none => .ok r.remote
  | some bytes => do
    let u ← H.yrs.decode bytes
    return r.remote ∪ u

def Recovered (kb' : Of H) : Prop :=
  ∃ node bytes loc remote, kb'.nodes[r.id]? = some node ∧ node.crdtDoc = some bytes ∧
    H.yrs.decode bytes = .ok loc ∧ r.remoteAfter out = .ok remote ∧
    node.shown = (r.node.applyCrdtDoc H.yrs (r.loc ∪ r.remote)).shown ∧
    (H.yrs.read remote).materialize = (H.yrs.read loc).materialize

def MergeNoticed : Prop :=
  contentHash H.crypto (H.yrs.read r.loc) ≠ contentHash H.crypto (H.yrs.read (r.loc ∪ r.remote)) ∨
    (r.node.shown = (r.node.applyCrdtDoc H.yrs (r.loc ∪ r.remote)).shown ∧
      (H.yrs.read (r.loc ∪ r.remote)).materialize = (H.yrs.read r.loc).materialize)

def DeletionsCarried : Prop :=
  (∃ c k a, Op.insert c k a ∈ r.loc ∧ Op.insert c k a ∉ r.remote) ∨
    ∀ c k, Op.delete c k ∈ r.loc → Op.delete c k ∈ r.remote

lemma agree_sides : Agree r.loc r.remote := r.grown_loc.agree r.agree r.grown_remote r.disjoint

lemma contiguous_loc : Contiguous r.loc := r.grown_loc.contiguous r.contiguous

lemma contiguous_remote : Contiguous r.remote := r.grown_remote.contiguous r.contiguous

lemma agree_remote_merge : Agree r.remote (r.loc ∪ r.remote) :=
  (r.agree_sides.union_left (r.grown_remote.agree_self r.agree)).symm

lemma remote_union_diff (h : r.loc ⊆ d) (h' : d ⊆ r.loc ∪ r.remote) :
    r.remote ∪ diff d (stateVector r.remote) = r.loc ∪ r.remote := by
  have hagree : Agree r.remote d := fun c k a b ha hb => r.agree_remote_merge c k a b ha (h' hb)
  rw [union_diff r.contiguous_remote hagree]
  apply Subset.antisymm
  · exact union_subset subset_union_right h'
  · exact union_subset (h.trans subset_union_right) subset_union_left

lemma loc_subset_remote (hcarried : r.DeletionsCarried) (h : r.loc ⊆ d) (h' : d ⊆ r.loc ∪ r.remote)
    (hnot : (stateVector d).hasOpsBeyond (stateVector r.remote) = false) :
    r.loc ⊆ r.remote := by
  have hagree : Agree d r.remote := fun c k a b ha hb => (r.agree_remote_merge c k b a hb (h' ha)).symm
  have hinsert : ∀ c k a, Op.insert c k a ∈ r.loc → Op.insert c k a ∈ r.remote := fun c k a hop =>
    insert_mem_of_not_beyond r.contiguous_remote hagree hnot (h hop)
  have hdelete : ∀ c k, Op.delete c k ∈ r.loc → Op.delete c k ∈ r.remote := by
    rcases hcarried with ⟨c, k, a, hin, hout⟩ | hall
    · exact absurd (hinsert c k a hin) hout
    · exact hall
  intro op hop
  cases op with
  | insert c k a => exact hinsert c k a hop
  | delete c k => exact hdelete c k hop

lemma remoteAfter_eq (hcarried : r.DeletionsCarried) {kb' : Of H} {ahead : Mint} {node : Node H.yrs.Wire}
    (hnode : kb'.nodes[r.id]? = some node) (hbytes : node.crdtDoc = some (H.yrs.encode d)) (h : r.loc ⊆ d)
    (h' : d ⊆ r.loc ∪ r.remote)
    (hahead : kb'.localAhead ahead r.id (H.yrs.encodeSv (stateVector r.remote)) = .ok out.localAhead) :
    r.remoteAfter out = .ok (r.loc ∪ r.remote) := by
  have hdoc : node.toCrdtDoc H.yrs ahead = .ok d := by simp [Node.toCrdtDoc, hbytes]
  have hout : (if (stateVector d).hasOpsBeyond (stateVector r.remote) then
      some (H.yrs.encode (diff d (stateVector r.remote))) else none) = out.localAhead := by
    simp only [KnowledgeBase.localAhead, hnode, hdoc, H.yrs.decodeSv_encodeSv] at hahead
    exact Except.ok.inj hahead
  unfold remoteAfter
  rw [← hout]
  cases hbeyond : (stateVector d).hasOpsBeyond (stateVector r.remote) with
  | true =>
    simp only [if_true, H.yrs.decode_encode]
    exact congrArg Except.ok (r.remote_union_diff h h')
  | false =>
    have hsub := r.loc_subset_remote hcarried h h' hbeyond
    simp [union_eq_right.mpr hsub]

/-- Nothing is lost when the content hash notices the merge and the state vectors carry the deletions. -/
theorem recovered_of_carried {probe merge ahead : Mint} {out : ReconcileOutcome H.yrs.Wire}
    {kb' : Of H} (hnoticed : r.MergeNoticed) (hcarried : r.DeletionsCarried)
    (hrun : r.exchange probe merge ahead = .ok (out, kb')) (hmerged : out.action = .merged) : r.Recovered out kb' := by
  have hdoc : r.node.toCrdtDoc H.yrs merge = .ok r.loc := by simp [Node.toCrdtDoc, r.lineage]
  have hunion : r.loc ∪ diff r.remote (stateVector r.loc) = r.loc ∪ r.remote :=
    union_diff r.contiguous_loc r.agree_sides
  rcases reconcileRemoteNode_cases hrun with ⟨-, rfl, -⟩ | ⟨-, changed, happly, hkind⟩
  · cases hmerged
  · obtain ⟨hid, l, hahead, rfl⟩ : r.id ∈ r.kb.nodes ∧ ∃ l, kb'.localAhead ahead r.id
        (H.yrs.encodeSv (stateVector r.remote)) = .ok l ∧ out = ⟨.merged, changed, l⟩ := by
      rcases hkind with ⟨-, rfl⟩ | hkind
      · cases hmerged
      · exact hkind
    rcases applyRemoteUpdate_cases happly with ⟨hnone, -, -⟩ | ⟨node, d, u, hnode, hd, hu, hchanged, rfl⟩
    · exact absurd hid (by simpa using hnone)
    · obtain rfl := Option.mem_unique r.stored hnode
      obtain rfl := Except.ok.inj (hdoc.symm.trans hd)
      obtain rfl := Except.ok.inj ((H.yrs.decode_encode _).symm.trans hu)
      rw [hunion] at hchanged hahead ⊢
      by_cases hhash : contentHash H.crypto (H.yrs.read r.loc) = contentHash H.crypto (H.yrs.read (r.loc ∪ r.remote))
      · -- the merge is thrown away, so it must not have changed anything
        have hfalse : changed = false := by simp [hchanged, hhash]
        obtain ⟨hshown, hmat⟩ := hnoticed.resolve_left fun hne => hne hhash
        simp only [hfalse, Bool.false_eq_true, if_false] at hahead ⊢
        have hremote := r.remoteAfter_eq ⟨.merged, false, l⟩ hcarried r.stored r.lineage
          (Subset.refl _) subset_union_left hahead
        exact ⟨r.node, _, r.loc, _, r.stored, r.lineage, H.yrs.decode_encode _, hremote, hshown, hmat⟩
      · have htrue : changed = true := by simp [hchanged, hhash]
        simp only [htrue, if_true] at hahead ⊢
        have hstored : (retouch H r.id (r.node.applyCrdtDoc H.yrs (r.loc ∪ r.remote)) r.kb).nodes[r.id]? =
            some (r.node.applyCrdtDoc H.yrs (r.loc ∪ r.remote)) := by simp [retouch, KnowledgeBase.relink]
        have hremote := r.remoteAfter_eq ⟨.merged, true, l⟩ hcarried hstored rfl subset_union_left
          (Subset.refl _) hahead
        exact ⟨_, _, r.loc ∪ r.remote, _, hstored, rfl, H.yrs.decode_encode _, hremote, rfl, rfl⟩

end Rejoin

def samplePlus (d : SampleNode) (client : ℕ) (item : SampleItem) : SampleNode :=
  d ∪ {.insert client ((stateVector d).get client) item}

def sampleNote : SampleNode := samplePlus (samplePlus ∅ 1 (.root (sampleRoot "n" "keep" []))) 1 (.text " and drop")

lemma grows_sampleNote : Grows {1} ∅ sampleNote :=
  .insert 1 _ (Set.mem_singleton 1) (.insert 1 _ (Set.mem_singleton 1) .refl)

lemma contiguous_sampleNote : Contiguous sampleNote :=
  grows_sampleNote.contiguous fun _ _ _ hop => absurd hop (notMem_empty _)

lemma agree_sampleNote : Agree sampleNote sampleNote :=
  grows_sampleNote.agree_self fun _ _ _ _ hop => absurd hop (notMem_empty _)

lemma root_mem_sampleNote : Op.insert 1 0 (SampleItem.root (sampleRoot "n" "keep" [])) ∈ sampleNote := by
  decide +kernel

lemma text_mem_sampleNote : Op.insert 1 1 (SampleItem.text " and drop") ∈ sampleNote := by
  decide +kernel

def sampleTagged : SampleNode := samplePlus (sampleNote ∪ {.delete 1 0}) 2 (.root (sampleRoot "n" "keep" ["urgent"]))

lemma grows_sampleTagged : Grows {2} sampleNote sampleTagged :=
  .insert 2 _ (Set.mem_singleton 2) (.delete 1 0 _ root_mem_sampleNote .refl)

def sampleCut : SampleNode := sampleNote ∪ {.delete 1 1}

lemma grows_sampleCut : Grows {3} sampleNote sampleCut := .delete 1 1 _ text_mem_sampleNote .refl

def sampleHolding (d : SampleNode) : Of sample :=
  (KnowledgeBase.insert sample (Node.received sample.yrs d .note) KnowledgeBase.new).2

lemma sampleHolding_node {d : SampleNode} (hid : (sample.yrs.read d).id = "n") :
    (sampleHolding d).nodes["n"]? = some (Node.received sample.yrs d .note) := by
  have hins := nodes_insert_received (H := sample) KnowledgeBase.new d .note
  rw [hid] at hins
  exact hins

def sampleRejoin : Rejoin sample where
  base := sampleNote
  mine := {3}
  theirs := {2}
  loc := sampleNote
  remote := sampleTagged
  kb := sampleHolding sampleNote
  id := "n"
  node := Node.received sample.yrs sampleNote .note
  contiguous := contiguous_sampleNote
  agree := agree_sampleNote
  disjoint := by simp
  grown_loc := .refl
  grown_remote := grows_sampleTagged
  stored := sampleHolding_node (by decide +kernel)
  lineage := rfl

def sampleDeletion : Rejoin sample where
  base := sampleNote
  mine := {3}
  theirs := {2}
  loc := sampleCut
  remote := sampleNote
  kb := sampleHolding sampleCut
  id := "n"
  node := Node.received sample.yrs sampleCut .note
  contiguous := contiguous_sampleNote
  agree := agree_sampleNote
  disjoint := by simp
  grown_loc := grows_sampleCut
  grown_remote := .refl
  stored := sampleHolding_node (by decide +kernel)
  lineage := rfl

def sampleOutcome (r : Rejoin sample) : Option (ReconcileOutcome SampleWire × KnowledgeBase SampleWire) :=
  (r.exchange sampleMint sampleMint sampleMint).toOption

theorem tagged_note_recovered : ∃ out kb', sampleRejoin.exchange sampleMint sampleMint sampleMint = .ok (out, kb') ∧
    out.action = .merged ∧ sampleRejoin.Recovered out kb' := by
  have haction : (sampleOutcome sampleRejoin).map (fun res => res.1.action) = some .merged := by decide +kernel
  unfold sampleOutcome at haction
  cases hrun : sampleRejoin.exchange sampleMint sampleMint sampleMint with
  | error e =>
    rw [hrun] at haction
    cases haction
  | ok res =>
    rw [hrun] at haction
    have hmerged : res.1.action = .merged := Option.some.inj haction
    have hcarried : sampleRejoin.DeletionsCarried := by
      refine .inr fun c k hop => ?_
      exact mem_union_left _ (mem_union_left _ hop)
    exact ⟨res.1, res.2, rfl, hmerged,
      sampleRejoin.recovered_of_carried (.inl (by decide +kernel)) hcarried hrun hmerged⟩

theorem deletion_not_sent_back :
    (sampleOutcome sampleDeletion).map (fun res => (res.1.action, res.1.localAhead.isNone)) = some (.merged, true) ∧
      (sampleOutcome sampleDeletion).bind (fun res => res.2.nodes["n"]?.map Node.body) = some "keep" ∧
      (NodeYrs.sample.read sampleDeletion.remote).textAt "body" = "keep and drop" := by
  decide +kernel

end Mae.Kb
