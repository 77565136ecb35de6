import Mae.Sync.Membership.Anchored
import Mae.Sync.Membership.Congruence

/-! What stays of the op tree when records are added to the log. -/

namespace Mae.Sync.Membership

open Std ExtTreeMap List

section Index

variable {byHash byHash' : OpIndex} {g : String}
variable (hget : ∀ (h : String) (o : SignedMembershipOp), byHash[h]? = some o → byHash'[h]? = some o)
include hget

lemma mem_of_extend {h : String} (hh : h ∈ byHash) : h ∈ byHash' := by
  obtain ⟨o, ho⟩ := Option.isSome_iff_exists.mp (mem_iff_isSome_getElem?.mp hh)
  exact mem_iff_isSome_getElem?.mpr (by simp [hget h o ho])

lemma Rooted.extend (hr : Rooted byHash g) (hne : "" ∉ byHash') : Rooted byHash' g where
  root := by
    obtain ⟨o, ho, hempty⟩ := hr.root
    exact ⟨o, hget g o ho, hempty⟩
  noEmpty := hne

lemma AtDepth.extend {k : ℕ} {h : String} (hd : AtDepth byHash g k h) : AtDepth byHash' g k h := by
  induction k generalizing h with
  | zero => exact ⟨hd.1, mem_of_extend hget hd.2⟩
  | succ k ih =>
    obtain ⟨o, ho, hd⟩ := hd
    exact ⟨o, hget h o ho, ih hd⟩

lemma AtDepth.restrict (hr : Rooted byHash g)
    (hclosed : ∀ (h : String) (o : SignedMembershipOp), byHash[h]? = some o → o.op.prevHash ∈ byHash' → o.op.prevHash ∈ byHash)
    {k : ℕ} {h : String} (hh : h ∈ byHash) (hd : AtDepth byHash' g k h) : AtDepth byHash g k h := by
  induction k generalizing h with
  | zero => exact ⟨hd.1, hr.mem⟩
  | succ k ih =>
    obtain ⟨o, ho⟩ := Option.isSome_iff_exists.mp (mem_iff_isSome_getElem?.mp hh)
    obtain ⟨o', ho', hd⟩ := hd
    obtain rfl := Option.mem_unique (hget h o ho) ho'
    exact ⟨o, ho, ih (hclosed h o ho hd.mem) hd⟩

lemma lineage_extend {k : ℕ} {h : String} (hd : AtDepth byHash g k h) : lineage byHash' k h = lineage byHash k h := by
  induction k generalizing h with
  | zero => rfl
  | succ k ih =>
    obtain ⟨o, ho⟩ := Option.isSome_iff_exists.mp (mem_iff_isSome_getElem?.mp hd.mem)
    have hp : parentHash byHash' h = parentHash byHash h := by
      rw [parentHash_eq ho, parentHash_eq (hget h o ho)]
    rw [lineage, hp, ih hd.parent, lineage]

lemma causalOrder_extend (hr : Rooted byHash g) (hne : "" ∉ byHash') :
    ((causalOrder byHash' g).filter fun h => h ∈ causalOrder byHash g) = causalOrder byHash g := by
  have hr' := hr.extend hget hne
  refine (hr.causalOrder_eq ?_ fun h => ?_).symm
  · refine (hr'.causalOrder_spec.2.filter _).imp_of_mem fun {a b} ha hb hab => ?_
    obtain ⟨i, hi⟩ := hr.mem_causalOrder.mp (of_decide_eq_true (List.mem_filter.mp ha).2)
    obtain ⟨j, hj⟩ := hr.mem_causalOrder.mp (of_decide_eq_true (List.mem_filter.mp hb).2)
    obtain ⟨i', j', hi', hj', hlt⟩ := hab
    obtain rfl := hr'.atDepth_unique (hi.extend hget) hi'
    obtain rfl := hr'.atDepth_unique (hj.extend hget) hj'
    exact ⟨i, j, hi, hj, hlt⟩
  · rw [List.mem_filter, decide_eq_true_eq, hr.mem_causalOrder, hr'.mem_causalOrder, and_iff_right_iff_imp]
    rintro ⟨j, hj⟩
    exact ⟨j, hj.extend hget⟩

end Index

structure Extends (t t' : OpTree) : Prop where
  alike : TreesAlike t t' t.order
  order : (t'.order.filter fun h => h ∈ t.order) = t.order
  closed : ∀ h ∈ t.order, ∀ k ∈ t.past h, k ∈ t.order

lemma extends_grow {byHash byHash' : OpIndex} {g : String}
    (hget : ∀ (h : String) (o : SignedMembershipOp), byHash[h]? = some o → byHash'[h]? = some o)
    (hr : Rooted byHash g) (hne : "" ∉ byHash') : Extends (OpTree.grow byHash g) (OpTree.grow byHash' g) where
  alike := by
    have hop : ∀ h ∈ byHash, (OpTree.grow byHash' g).op h = (OpTree.grow byHash g).op h := by
      intro h hh
      obtain ⟨o, ho⟩ := Option.isSome_iff_exists.mp (mem_iff_isSome_getElem?.mp hh)
      rw [grow_op ho, grow_op (hget h o ho)]
    refine ⟨rfl, congrArg (·.subject) (hop g hr.mem), congrArg (·.replication) (hop g hr.mem), fun h hh => ?_,
      fun h hh => ?_⟩
    · obtain ⟨k, hd⟩ := hr.mem_causalOrder.mp hh
      rw [hop h hd.mem]
      exact Alike.refl _
    · obtain ⟨k, hd⟩ := hr.mem_causalOrder.mp hh
      rw [grow_past hr hd, grow_past (hr.extend hget hne) (hd.extend hget), lineage_extend hget hd]
  order := causalOrder_extend hget hr hne
  closed h hh k hk := by
    obtain ⟨i, hd⟩ := hr.mem_causalOrder.mp hh
    rw [grow_past hr hd] at hk
    obtain ⟨j, -, hdj⟩ := mem_lineage hd hk
    exact hr.mem_causalOrder.mpr ⟨j, hdj⟩

namespace Extends

variable {C : Crypto} {t t' : OpTree} {governance : Governance} {now : UInt64}
variable (he : Extends t t')
include he

lemma mem_order {h : String} (hh : h ∈ t.order) : h ∈ t'.order := by
  rw [← he.order] at hh
  exact List.mem_of_mem_filter hh

lemma filter_live (V : Finset String) : ((t'.live V).filter fun h => h ∈ t.order) = t.live V := by
  have horder := congrArg (fun l : List String => l.filter fun h => h ∈ V) he.order
  rw [filter_filter] at horder
  rw [OpTree.live, filter_filter, OpTree.live, ← horder]
  exact filter_congr fun h _ => Bool.and_comm _ _

lemma live_eq {V : Finset String} (hV : V ⊆ t.order.toFinset) : t'.live V = t.live V := by
  rw [← he.filter_live, filter_eq_self.mpr]
  intro h hh
  exact decide_eq_true (mem_toFinset.mp (hV (mem_live.mp hh).2))

lemma membershipAt_eq {V : Finset String} {h : String} (hh : h ∈ t.order) :
    membershipAt t' governance now V h = membershipAt t governance now V h := by
  refine he.alike.membershipAt_eq hh (he.live_eq fun k hk => ?_)
  exact mem_toFinset.mpr (he.closed h hh k (Finset.mem_inter.mp hk).2)

end Extends

section Log

variable {C : Crypto} {L E : OpLog} {anchor : Key32} {view : MembershipView} {t : OpTree}

structure Detached (C : Crypto) (L E : List SignedMembershipOp) : Prop where
  honored : ∀ o ∈ L, honored C (buildRecoveryRegistry C (L ++ E)) o = honored C (buildRecoveryRegistry C L) o
  unlinked : ∀ o ∈ L, ∀ e ∈ E, o.op.prevHash ≠ e.chainHash C

instance : Decidable (Detached C L E) :=
  decidable_of_iff (_ ∧ _) ⟨fun h => ⟨h.1, h.2⟩, fun h => ⟨h.honored, h.unlinked⟩⟩

lemma visible_append (view : MembershipView)
    (hhon : ∀ o ∈ L, honored C (buildRecoveryRegistry C (L ++ E)) o = honored C (buildRecoveryRegistry C L) o) :
    ∃ E', E' <+ E ∧ visible C view (L ++ E) = visible C view L ++ E' := by
  refine ⟨E.filter fun o => honored C (buildRecoveryRegistry C (L ++ E)) o && decide (o.op.author ∉ view.blocklist),
    filter_sublist, ?_⟩
  rw [visible, filter_append]
  congr 1
  apply filter_congr
  intro o ho
  rw [hhon o ho]

lemma anchoredTree_append (hc : CollisionFree C (L ++ E)) (hd : Detached C L E)
    (ht : anchoredTree C (visible C view L) anchor = some t) :
    ∃ t', anchoredTree C (visible C view (L ++ E)) anchor = some t' ∧ Extends t t' ∧
      ∀ h ∈ t'.order, h ∉ t.order → ∃ e ∈ E, e.chainHash C = h ∧ t'.op h = e.op := by
  obtain ⟨E', hE', hvis⟩ := visible_append view hd.honored
  have hcv : CollisionFree C (visible C view (L ++ E)) := hc.filter _
  have hsub : ∀ o ∈ visible C view L, o ∈ visible C view (L ++ E) := fun o ho => hvis ▸ mem_append_left _ ho
  have hcL : CollisionFree C (visible C view L) := fun o ho o' ho' => hcv o (hsub o ho) o' (hsub o' ho')
  rw [anchoredTree, Option.map_eq_some_iff] at ht
  obtain ⟨g, hg, rfl⟩ := ht
  have hroot := rooted_indexByHash hcL (mem_of_find?_eq_some hg) (find?_some hg)
  have hget : ∀ (h : String) (o : SignedMembershipOp), (indexByHash C (visible C view L))[h]? = some o →
      (indexByHash C (visible C view (L ++ E)))[h]? = some o := by
    intro h o ho
    obtain ⟨hmem, heq⟩ := indexByHash_sound ho
    exact (indexByHash_getElem? hcv).mpr ⟨hsub o hmem, heq⟩
  have hne : "" ∉ indexByHash C (visible C view (L ++ E)) := by
    rw [mem_indexByHash]
    rintro ⟨o, -, ho⟩
    exact chainHash_ne_empty o ho
  have ht' : anchoredTree C (visible C view (L ++ E)) anchor =
      some (OpTree.grow (indexByHash C (visible C view (L ++ E))) (g.chainHash C)) := by
    rw [anchoredTree, hvis, find?_append, hg]
    rfl
  refine ⟨_, ht', extends_grow hget hroot hne, fun h hh hnew => ?_⟩
  obtain ⟨k, hdepth⟩ := (hroot.extend hget hne).mem_causalOrder.mp hh
  obtain ⟨o, ho, rfl, hop⟩ := exists_op_of_mem_order hcv ht' hh
  rw [hvis] at ho
  rcases mem_append.mp ho with ho | ho
  · -- a record of `L` has its parents in `L`, so the first tree reaches it as well
    refine absurd (hroot.mem_causalOrder.mpr ⟨k, ?_⟩) hnew
    refine AtDepth.restrict hget hroot (fun h o ho hp => ?_) (mem_indexByHash.mpr ⟨o, ho, rfl⟩) hdepth
    obtain ⟨b, hb, hbp⟩ := mem_indexByHash.mp hp
    rw [hvis] at hb
    rcases mem_append.mp hb with hb | hb
    · exact mem_indexByHash.mpr ⟨b, hb, hbp⟩
    · exact absurd hbp.symm (hd.unlinked o (mem_of_mem_filter (indexByHash_sound ho).1) b (hE'.subset hb))
  · exact ⟨o, hE'.subset ho, rfl, hop⟩

end Log

end Mae.Sync.Membership
