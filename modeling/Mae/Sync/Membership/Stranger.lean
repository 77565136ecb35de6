import Mae.Sync.Membership.Leaf
import Mae.Sync.Membership.Rotation

/-! A key that was never admitted and the derived membership. -/

namespace Mae.Sync.Membership

open Std Library.Settling

variable {C : Crypto} {t t' : OpTree} {governance : Governance} {now : UInt64}

lemma subject_of_mem_admitPass {live : List String} {p : String} (hp : p ∈ admitPass t governance now live) :
    ∃ h ∈ live, (t.op h).subject = p ∧ (h = t.genesisHash ∨ (t.op h).action = .admits) := by
  rw [ExtTreeMap.mem_iff_isSome_getElem?, admitPass_getElem?, Option.isSome_map, Option.isSome_iff_exists] at hp
  obtain ⟨h, hh⟩ := hp
  obtain ⟨hmem, hsub, hseat⟩ := getLast?_seatOps hh
  exact ⟨h, hmem, hsub, hseat.1⟩

lemma carried_eq_or (live : List String) (p : String) :
    carried t live p = p ∨ ∃ h ∈ live, (t.op h).action = .rebind ∧ carried t live p = (t.op h).subject := by
  induction live using List.reverseRecOn with
  | nil => exact Or.inl rfl
  | append_singleton live h ih =>
    have hkeep : carried t live p = p ∨
        ∃ k ∈ live ++ [h], (t.op k).action = .rebind ∧ carried t live p = (t.op k).subject := by
      rcases ih with heq | ⟨k, hk, hkc⟩
      · exact Or.inl heq
      · exact Or.inr ⟨k, List.mem_append_left _ hk, hkc⟩
    rw [carried_concat, carryStep]
    split_ifs with hact
    · rw [move]
      split_ifs
      · exact Or.inr ⟨h, by simp, hact, rfl⟩
      · exact hkeep
    · exact hkeep

lemma subject_of_mem_buildMembers {live : List String} {p : String} (hp : p ∈ buildMembers t governance now live) :
    ∃ h ∈ live, (t.op h).subject = p ∧
      (h = t.genesisHash ∨ (t.op h).action = .admits ∨ (t.op h).action = .rebind) := by
  obtain ⟨p0, hp0, rfl⟩ := (mem_foldl_rebindStep _ _ _).mp hp
  rcases carried_eq_or live p0 with heq | ⟨h, hh, hact, heq⟩
  · obtain ⟨h, hh, hsub, hor⟩ := subject_of_mem_admitPass hp0
    exact ⟨h, hh, hsub.trans heq.symm, hor.imp_right Or.inl⟩
  · exact ⟨h, hh, heq.symm, Or.inr (Or.inr hact)⟩

lemma authorized_of_not_member {mp : Members} {op : MembershipOp} {owner : String} (hno : op.author ∉ mp) :
    authorized C mp op owner governance = false := by
  have hnone : mp[op.author]? = none := by
    rwa [ExtTreeMap.mem_iff_isSome_getElem?, Bool.not_eq_true, Option.isSome_eq_false_iff,
      Option.isNone_iff_eq_none] at hno
  rw [authorized, hnone]

lemma not_member_of_not_subject {ops : OpLog} {anchor : Key32} {view : MembershipView} {p : String}
    (hc : CollisionFree C ops) (ht : anchoredTree C (visible C view ops) anchor = some t)
    (howner : p ≠ fingerprintOf C anchor)
    (hno : ∀ o ∈ ops, o.op.action = .admits ∨ o.op.action = .rebind → o.op.subject ≠ p) (V : Finset String)
    (h : String) : p ∉ membershipAt t governance now V h := by
  intro hp
  obtain ⟨k, hk, hsub, hor⟩ := subject_of_mem_buildMembers hp
  rcases hor with rfl | hact
  · exact howner (hsub.symm.trans (owner_eq_fingerprint hc ht))
  · obtain ⟨o, ho, _, hop⟩ := exists_op_of_mem_order (hc.filter _) ht (mem_live.mp hk).1
    rw [hop] at hsub hact
    exact hno o (List.mem_of_mem_filter ho) hact hsub

def detachedLog : List SignedMembershipOp :=
  [sampleGenesis, sampleSigned 2 'k' (sampleRebind (sampleHash 1) 'x' 'y'),
    sampleLinked 3 2 'o' .admits (sampleFp 'b') (some .editor)]

end Mae.Sync.Membership
