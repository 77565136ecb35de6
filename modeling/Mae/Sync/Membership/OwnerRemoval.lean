import Mae.Sync.Membership.Leaf
import Mae.Sync.Membership.OwnerChain

/-! Removals aimed at the owner and at the keys the owner rotated to. -/

namespace Mae.Sync.Membership

open Std Library.Settling

variable {C : Crypto} {L : OpLog} {r : SignedMembershipOp} {now : UInt64} {anchor : Key32}

lemma isGenesis_of_removal (hr : isRemoval r.op.action = true) : isGenesis anchor r = false := by
  by_contra hg
  obtain ⟨_, hact, _⟩ := isGenesis_iff.mp (by simpa using hg)
  simp [hact, isRemoval] at hr

lemma outranked_of_removal (hr : isRemoval r.op.action = true) : Outranked C L r := by
  intro hreg
  cases hact : r.op.action <;> simp_all [isRemoval, isRegistration]

lemma authorized_owner_removal {mp : Members} {op : MembershipOp} {owner : String} (hr : isRemoval op.action = true)
    (hsub : op.subject = owner) : authorized C mp op owner .singleOwner = false := by
  rw [authorized]
  cases mp[op.author]? with
  | none => rfl
  | some author => cases hact : op.action <;> simp_all [isRemoval]

structure Idle (t : OpTree) (leaf : String) : Prop where
  unseated : ∀ h ∈ t.order, h = t.genesisHash ∨ (t.op h).action = .admits → (t.op h).subject ≠ (t.op leaf).subject
  only : ∀ h ∈ t.order, t.Removes (t.op leaf).subject h → h = leaf
  before : ∀ h ∈ t.order, isRemoval (t.op h).action = false → (t.op h).author = (t.op leaf).subject → h ∈ t.past leaf

instance (t : OpTree) (leaf : String) : Decidable (Idle t leaf) :=
  decidable_of_iff (_ ∧ _ ∧ _) ⟨fun hi => ⟨hi.1, hi.2.1, hi.2.2⟩, fun hi => ⟨hi.unseated, hi.only, hi.before⟩⟩

section

variable {t t' : OpTree} {leaf : String}

lemma buildMembers_filter (hr : isRemoval (t.op leaf).action = true) {live : List String} (hroot : leaf ≠ t.genesisHash)
    (hun : ∀ h ∈ live, h = t.genesisHash ∨ (t.op h).action = .admits → (t.op h).subject ≠ (t.op leaf).subject) :
    buildMembers t .singleOwner now (live.filter fun k => k ≠ leaf) = buildMembers t .singleOwner now live := by
  have hact : (t.op leaf).action ≠ .admits ∧ (t.op leaf).action ≠ .rebind := by
    cases ha : (t.op leaf).action <;> simp_all [isRemoval]
  have hrole : (t.op leaf).action ≠ .setRole := by
    cases ha : (t.op leaf).action <;> simp_all [isRemoval]
  have hadmit : admitPass t .singleOwner now (live.filter fun k => k ≠ leaf) = admitPass t .singleOwner now live := by
    have hseat : ¬ Seats t .singleOwner now live leaf := by
      rintro ⟨hor, _⟩
      exact hor.elim hroot hact.1
    have hlive := foldl_filter_of_fixed (admitStep t .singleOwner now live) (fun _ => if_neg hseat) live ∅
    rw [admitPass, admitPass, ← hlive]
    apply List.foldl_ext
    intro out h hh
    have hseats : Seats t .singleOwner now (live.filter fun k => k ≠ leaf) h ↔ Seats t .singleOwner now live h := by
      refine and_congr_right fun hor => ?_
      rw [dominated_filter fun hc => hun h (List.mem_of_mem_filter hh) hor hc.2.symm]
    simp only [admitStep, hseats, overlaid_filter hrole]
  rw [buildMembers, hadmit]
  exact foldl_filter_of_fixed _ (fun out => if_neg hact.2) live _

variable (hg : Grafts t t' leaf)
include hg

lemma Grafts.survives_leaf (hr : isRemoval (t'.op leaf).action = true) (V : Finset String) :
    survives C t' .singleOwner now (insert leaf V) leaf = survives C t' .singleOwner now V leaf := by
  have hmp : membershipAt t' .singleOwner now (insert leaf V) leaf = membershipAt t' .singleOwner now V leaf := by
    apply membershipAt_congr
    intro k hk
    have hne : k ≠ leaf := fun heq => hg.strict (heq ▸ hk)
    simp [hne]
  simp only [survives, hmp, killed, hr, Bool.not_true, Bool.false_and]

variable {V : Finset String}

lemma Grafts.killed_idle (hidle : Idle t' leaf) {h : String} (hh : h ∈ t.order)
    (hV : V ⊆ t.order.toFinset) : killed t' .singleOwner (insert leaf V) h = killed t .singleOwner V h := by
  rw [← hg.alike.killed_eq hh (hg.live_eq (hg.leaf_notMem_of_subset hV))]
  have hh' := (hg.mem_order.mp hh).1
  by_cases hp : (t'.op h).author = (t'.op leaf).subject
  · have hnone : ∀ W, killed t' .singleOwner W h = false := by
      intro W
      by_contra hk
      simp only [Bool.not_eq_false, killed, Bool.and_eq_true, Bool.not_eq_true', Option.any_eq_true,
        decide_eq_true_eq] at hk
      obtain ⟨hnr, rh, hrh, hc⟩ := hk
      obtain ⟨hm, hrem⟩ := removalScan_mem hrh
      rw [hp] at hrem
      obtain rfl := hidle.only rh (mem_live.mp hm).1 hrem
      exact hc.1 (hidle.before h hh' hnr hp)
    rw [hnone, hnone]
  · have heff : effectiveRemoval t' (t'.op h).author .singleOwner (t'.live (insert leaf V)) =
        effectiveRemoval t' (t'.op h).author .singleOwner (t'.live V) := by
      apply effectiveRemoval_congr
      intro k _ hk
      have hne : k ≠ leaf := by
        rintro rfl
        exact hp hk.2.symm
      simp [hne]
    rw [killed, heff, killed]

variable (hr : isRemoval (t'.op leaf).action = true) (hidle : Idle t' leaf)
include hr hidle

lemma Grafts.pass_insert_leaf (hleaf : leaf ∈ t'.order) (hV : V ⊆ t.order.toFinset)
    (hs : survives C t' .singleOwner now V leaf = true) :
    validityPass C t' .singleOwner now (insert leaf V) = insert leaf (validityPass C t .singleOwner now V) := by
  have hsurv : ∀ h ∈ t.order, survives C t' .singleOwner now (insert leaf V) h = survives C t .singleOwner now V h := by
    intro h hh
    have ha := hg.alike.op h hh
    have hmp : membershipAt t .singleOwner now (insert leaf V) h = membershipAt t .singleOwner now V h := by
      apply membershipAt_congr
      intro k hk
      have hne : k ≠ leaf := fun heq => hg.last h hh (heq ▸ hk)
      simp [hne]
    rw [survives, ha.expired_eq, hg.alike.genesisHash, hg.alike.membershipAt_eq hh (hg.live_past_eq hh _), hmp,
      ha.authorized_eq, hg.alike.owner, hg.killed_idle hidle hh hV, survives]
  ext h
  rw [Finset.mem_insert, mem_validityPass, mem_validityPass]
  by_cases heq : h = leaf
  · subst heq
    simp [hleaf, hg.survives_leaf hr, hs]
  · have hmem : h ∈ t'.order ↔ h ∈ t.order := by simp [hg.mem_order, heq]
    simp only [heq, false_or, hmem]
    exact and_congr_right fun hh => by rw [hsurv h hh]

lemma Grafts.buildMembers_idle (hV : V ⊆ t.order.toFinset) :
    buildMembers t' .singleOwner now (t'.live (insert leaf V)) = buildMembers t .singleOwner now (t.live V) := by
  have hlive : (t'.live (insert leaf V)).filter (fun k => k ≠ leaf) = t.live V := by
    rw [← hg.live_eq (hg.leaf_notMem_of_subset hV), OpTree.live, List.filter_filter]
    apply List.filter_congr
    intro k _
    by_cases hk : k = leaf
    · simp [hk, hg.leaf_notMem_of_subset hV]
    · simp [hk]
  rw [← buildMembers_filter hr hg.leaf_ne_genesisHash fun h hh => hidle.unseated h (mem_live.mp hh).1, hlive,
    (hg.alike.live V).buildMembers_eq]

lemma Grafts.deriveFrom_idle (hac : Acyclic (validityPass C t' .singleOwner now) t'.order.toFinset)
    (view : MembershipView) :
    deriveFrom C t' now .singleOwner view = deriveFrom C t now .singleOwner view := by
  by_cases hin : leaf ∈ validityPass C t' .singleOwner now (validSet C t .singleOwner now)
  · obtain ⟨hleaf, hs⟩ := mem_validityPass.mp hin
    have hfix : validityPass C t' .singleOwner now (insert leaf (validSet C t .singleOwner now)) =
        insert leaf (validSet C t .singleOwner now) := by
      rw [hg.pass_insert_leaf hr hidle hleaf validSet_subset hs, validSet_fixed (hg.acyclic_of_graft hac)]
    have hvalid : validSet C t' .singleOwner now = insert leaf (validSet C t .singleOwner now) := by
      apply validSet_eq_of_fixed hac _ hfix
      exact Finset.insert_subset (List.mem_toFinset.mpr hleaf) (validSet_subset.trans hg.order_subset)
    rw [deriveFrom, hvalid, hg.buildMembers_idle hr hidle validSet_subset, hg.alike.owner, deriveFrom]
  · exact hg.deriveFrom_eq (hg.validSet_eq_of_refused hac hin) view

end

def rotatedOwnerLog : List SignedMembershipOp :=
  [sampleGenesis, sampleLinked 2 1 'o' .admits (sampleFp 'm') (some .owner),
    sampleSigned 3 'o' (sampleRebind (sampleHash 2) 'o' 'p'),
    sampleLinked 4 3 'p' .admits (sampleFp 'z') (some .editor)]

end Mae.Sync.Membership
