import Mae.Sync.Membership.Anchored
import Mae.Sync.Membership.Seats

/-! On an unbranched log the validity loop accepts the ops one after the other. -/

namespace Mae.Sync.Membership

open Std Library.Settling List Option

structure Unbranched (t : OpTree) : Prop where
  nodup : t.order.Nodup
  past : ∀ pre h post, t.order = pre ++ h :: post → t.past h = pre.toFinset
  root : (t.op t.genesisHash).action = .admits

section

variable {C : Crypto} {t : OpTree} {governance : Governance} {now : UInt64}

def accepts (C : Crypto) (t : OpTree) (governance : Governance) (now : UInt64) (acc : List String) (h : String) :
    Bool :=
  !expired (t.op h) now &&
    (h == t.genesisHash || authorized C (buildMembers t governance now acc) (t.op h) t.owner governance)

def acceptStep (C : Crypto) (t : OpTree) (governance : Governance) (now : UInt64) (acc : List String)
    (h : String) : List String :=
  if accepts C t governance now acc h then acc ++ [h] else acc

def accepted (C : Crypto) (t : OpTree) (governance : Governance) (now : UInt64) (hs : List String) : List String :=
  hs.foldl (acceptStep C t governance now) []

section

variable (C : Crypto) (t : OpTree) (governance : Governance) (now : UInt64)

lemma accepted_concat (hs : List String) (h : String) :
    accepted C t governance now (hs ++ [h]) = acceptStep C t governance now (accepted C t governance now hs) h := by
  simp [accepted]

lemma accepted_append (hs hs' : List String) :
    ∃ r, r.Sublist hs' ∧ accepted C t governance now (hs ++ hs') = accepted C t governance now hs ++ r := by
  induction hs' using List.reverseRecOn with
  | nil => exact ⟨[], .slnil, by simp⟩
  | append_singleton hs' h ih =>
    obtain ⟨r, hr, he⟩ := ih
    rw [← append_assoc, accepted_concat, he, acceptStep]
    split_ifs
    · exact ⟨r ++ [h], hr.append_right [h], by simp⟩
    · exact ⟨r, hr.trans (sublist_append_left _ _), rfl⟩

lemma accepted_sublist (hs : List String) : (accepted C t governance now hs).Sublist hs := by
  obtain ⟨r, hr, he⟩ := accepted_append C t governance now [] hs
  rw [nil_append] at he
  rw [he]
  exact hr

end

lemma accepted_not_expired {hs : List String} {h : String} (hh : h ∈ accepted C t governance now hs) :
    expired (t.op h) now = false := by
  induction hs using List.reverseRecOn with
  | nil => simp [accepted] at hh
  | append_singleton hs k ih =>
    rw [accepted_concat, acceptStep] at hh
    split_ifs at hh with hk
    · rw [mem_append, mem_singleton] at hh
      rcases hh with hh | rfl
      · exact ih hh
      · simp only [accepts, Bool.and_eq_true, Bool.not_eq_true'] at hk
        exact hk.1
    · exact ih hh

lemma filter_mem_of_sublist {l l' : List String} (hs : l.Sublist l') (hn : l'.Nodup) :
    l'.filter (fun h => h ∈ l) = l := by
  induction hs with
  | slnil => rfl
  | @cons l l' a hs ih =>
    obtain ⟨ha, hn⟩ := nodup_cons.mp hn
    rw [filter_cons_of_neg (by simpa using fun hal => ha (hs.subset hal)), ih hn]
  | @cons_cons l l' a hs ih =>
    obtain ⟨ha, hn⟩ := nodup_cons.mp hn
    rw [filter_cons_of_pos (by simp)]
    congr 1
    have hcongr : l'.filter (fun h => h ∈ a :: l) = l'.filter fun h => h ∈ l := by
      apply filter_congr
      intro h hh
      have hne : h ≠ a := fun he => ha (he ▸ hh)
      simp [hne]
    rw [hcongr, ih hn]

namespace Unbranched

variable (hu : Unbranched t)
include hu

variable {pre post : List String} {h : String}

lemma membershipAt_eq (hsplit : t.order = pre ++ h :: post) (V : Finset String) :
    membershipAt t governance now V h = buildMembers t governance now (pre.filter fun k => k ∈ V) := by
  have hn := hu.nodup
  rw [hsplit, nodup_append] at hn
  have hlive : t.live (V ∩ t.past h) = pre.filter fun k => k ∈ V := by
    rw [OpTree.live, hu.past pre h post hsplit, hsplit, filter_append]
    have hnil : (h :: post).filter (fun k => k ∈ V ∩ pre.toFinset) = [] := by
      rw [filter_eq_nil_iff]
      intro k hk hm
      simp only [Finset.mem_inter, List.mem_toFinset, decide_eq_true_eq] at hm
      exact hn.2.2 k hm.2 k hk rfl
    rw [hnil, append_nil]
    apply filter_congr
    intro k hk
    simp [hk]
  rw [membershipAt, hlive]

lemma comparable {k : String} (hh : h ∈ t.order) (hk : k ∈ t.order) (hne : h ≠ k) : k ∈ t.past h ∨ h ∈ t.past k := by
  obtain ⟨pre, post, hsplit⟩ := append_of_mem hh
  rw [hsplit, mem_append, mem_cons] at hk
  rcases hk with hk | rfl | hk
  · exact Or.inl (by simpa [hu.past pre h post hsplit] using hk)
  · exact (hne rfl).elim
  · obtain ⟨mid, post', rfl⟩ := append_of_mem hk
    have hsplit' : t.order = (pre ++ h :: mid) ++ k :: post' := by simp [hsplit]
    exact Or.inr (by simp [hu.past _ _ _ hsplit'])

lemma not_exposed (hh : h ∈ t.order) : ¬ Exposed t h := by
  rintro ⟨hrem, r, hr, ⟨hrr, _⟩, hc⟩
  have hne : h ≠ r := by
    rintro rfl
    simp [hrem] at hrr
  rcases hu.comparable hh hr hne with hp | hp
  · exact hc.2 hp
  · exact hc.1 hp

lemma ranked : Ranked t t.order := by
  constructor
  · intro h hh k hk
    obtain ⟨pre, post, hsplit⟩ := append_of_mem hh
    have hn := hu.nodup
    rw [hsplit, nodup_append] at hn
    rw [hu.past pre h post hsplit, List.mem_toFinset] at hk
    have hnot : h ∉ pre := fun hp => hn.2.2 h hp h mem_cons_self rfl
    rw [hsplit, idxOf_append_of_mem hk, idxOf_append_of_notMem hnot]
    have hlt := idxOf_lt_length_of_mem hk
    omega
  · exact fun h hh he => (hu.not_exposed hh he).elim

lemma acyclic : Acyclic (validityPass C t governance now) t.order.toFinset := hu.ranked.acyclic

lemma survives_eq (hsplit : t.order = pre ++ h :: post) (V : Finset String) :
    survives C t governance now V h = accepts C t governance now (pre.filter fun k => k ∈ V) h := by
  have hh : h ∈ t.order := by simp [hsplit]
  rw [survives, accepts, hu.membershipAt_eq hsplit, killed_of_not_exposed (hu.not_exposed hh), Bool.not_false,
    Bool.and_true]

lemma filter_accepted (hsplit : t.order = pre ++ post) :
    (pre.filter fun k => k ∈ (accepted C t governance now t.order).toFinset) = accepted C t governance now pre := by
  have hn := hu.nodup
  rw [hsplit, nodup_append] at hn
  obtain ⟨r, hr, he⟩ := accepted_append C t governance now pre post
  have hcongr : (pre.filter fun k => k ∈ (accepted C t governance now t.order).toFinset) =
      pre.filter fun k => k ∈ accepted C t governance now pre := by
    apply filter_congr
    intro k hk
    have hnot : k ∉ r := fun hkr => hn.2.2 k hk k (hr.subset hkr) rfl
    simp [hsplit, he, hnot]
  rw [hcongr, filter_mem_of_sublist (accepted_sublist C t governance now pre) hn.1]

lemma mem_accepted (hsplit : t.order = pre ++ h :: post) :
    h ∈ accepted C t governance now t.order ↔ accepts C t governance now (accepted C t governance now pre) h =
      true := by
  have hn := hu.nodup
  rw [hsplit, nodup_append, nodup_cons] at hn
  obtain ⟨r, hr, he⟩ := accepted_append C t governance now (pre ++ [h]) post
  have hpre : h ∉ accepted C t governance now pre := fun hp =>
    hn.2.2 h ((accepted_sublist C t governance now pre).subset hp) h mem_cons_self rfl
  have hpost : h ∉ r := fun hp => hn.2.1.1 (hr.subset hp)
  have hall : t.order = pre ++ [h] ++ post := by simp [hsplit]
  rw [hall, he, accepted_concat, acceptStep]
  cases accepts C t governance now (accepted C t governance now pre) h <;> simp [hpre, hpost]

lemma inSequence : InSequence t t.order := by
  have hn := hu.nodup
  have hsuffix : ∀ pre l, t.order = pre ++ l → l.Pairwise fun a b => a ∈ t.past b ∧ b ∉ t.past a := by
    intro pre l
    induction l generalizing pre with
    | nil => exact fun _ => .nil
    | cons a l ih =>
      intro hsplit
      refine .cons (fun b hb => ?_) (ih (pre ++ [a]) (by simp [hsplit]))
      obtain ⟨mid, post, rfl⟩ := append_of_mem hb
      have hsplit' : t.order = (pre ++ a :: mid) ++ b :: post := by simp [hsplit]
      rw [hu.past _ _ _ hsplit', hu.past _ _ _ hsplit, List.mem_toFinset, List.mem_toFinset]
      rw [hsplit, nodup_append] at hn
      exact ⟨by simp, fun hp => hn.2.2 b hp b (by simp) rfl⟩
  refine ⟨hsuffix [] t.order rfl, fun a ha hp => ?_⟩
  obtain ⟨pre, post, hsplit⟩ := append_of_mem ha
  rw [hu.past _ _ _ hsplit, List.mem_toFinset] at hp
  rw [hsplit, nodup_append] at hn
  exact hn.2.2 a hp a mem_cons_self rfl

lemma accepted_fixed : validityPass C t governance now (accepted C t governance now t.order).toFinset =
      (accepted C t governance now t.order).toFinset := by
  ext h
  rw [mem_validityPass, List.mem_toFinset]
  constructor
  · rintro ⟨hh, hs⟩
    obtain ⟨pre, post, hsplit⟩ := append_of_mem hh
    rwa [hu.survives_eq hsplit, hu.filter_accepted hsplit, ← hu.mem_accepted hsplit] at hs
  · intro hh
    have hmem := (accepted_sublist C t governance now t.order).subset hh
    obtain ⟨pre, post, hsplit⟩ := append_of_mem hmem
    refine ⟨hmem, ?_⟩
    rwa [hu.survives_eq hsplit, hu.filter_accepted hsplit, ← hu.mem_accepted hsplit]

lemma validSet_eq : validSet C t governance now = (accepted C t governance now t.order).toFinset := by
  apply validSet_eq_of_fixed hu.acyclic _ hu.accepted_fixed
  intro h hh
  exact List.mem_toFinset.mpr ((accepted_sublist C t governance now t.order).subset (List.mem_toFinset.mp hh))

lemma live_validSet : t.live (validSet C t governance now) = accepted C t governance now t.order := by
  rw [hu.validSet_eq]
  exact hu.filter_accepted (append_nil _).symm

end Unbranched

end

structure ChainLog (C : Crypto) (anchor : Key32) (g : SignedMembershipOp) (rest : List SignedMembershipOp) : Prop where
  genesis : isGenesis anchor g = true
  linked : (g :: rest).IsChain fun o o' => o'.op.prevHash = o.chainHash C
  nodup : ((g :: rest).map (·.chainHash C)).Nodup

namespace ChainLog

variable {C : Crypto} {anchor : Key32} {g : SignedMembershipOp} {rest crypto : OpLog}
variable (hl : ChainLog C anchor g rest)
include hl

lemma collisionFree : CollisionFree C (g :: rest) :=
  fun _ ho _ ho' he => inj_on_of_nodup_map hl.nodup ho ho' he

variable {o o' : SignedMembershipOp}

lemma getElem?_inj {i j : ℕ} (ho : (g :: rest)[i]? = some o)
    (ho' : (g :: rest)[j]? = some o') (he : o.chainHash C = o'.chainHash C) : i = j := by
  obtain ⟨hi, _⟩ := List.getElem?_eq_some_iff.mp ho
  apply (List.getElem?_inj (by rwa [length_map]) hl.nodup).mp
  rw [getElem?_map, getElem?_map, ho, ho', map_some, map_some, he]

lemma prevHash_succ {i : ℕ} (ho : (g :: rest)[i]? = some o)
    (ho' : (g :: rest)[i + 1]? = some o') : o'.op.prevHash = o.chainHash C := by
  obtain ⟨hi, rfl⟩ := List.getElem?_eq_some_iff.mp ho
  obtain ⟨hj, rfl⟩ := List.getElem?_eq_some_iff.mp ho'
  exact isChain_iff_getElem.mp hl.linked i hj

variable (hs : SameRecords (g :: rest) crypto)
include hs

lemma index_iff {h : String} : (indexByHash C crypto)[h]? = some o ↔ o ∈ g :: rest ∧ o.chainHash C = h := by
  rw [indexByHash_getElem? (hl.collisionFree.congr hs), hs o]

lemma rooted : Rooted (indexByHash C crypto) (g.chainHash C) :=
  rooted_indexByHash (hl.collisionFree.congr hs) ((hs g).mpr mem_cons_self) hl.genesis

lemma atDepth_iff {i : ℕ} {h : String} :
    AtDepth (indexByHash C crypto) (g.chainHash C) i h ↔ ∃ o, (g :: rest)[i]? = some o ∧ o.chainHash C = h := by
  induction i generalizing h with
  | zero =>
    have hmem := (hl.rooted hs).mem
    simp [AtDepth, hmem, eq_comm]
  | succ i ih =>
    simp only [AtDepth, hl.index_iff hs, ih]
    constructor
    · rintro ⟨o, ⟨ho, rfl⟩, o', ho', hp⟩
      obtain ⟨j, hj⟩ := mem_iff_getElem?.mp ho
      refine ⟨o, ?_, rfl⟩
      cases j with
      | zero =>
        obtain rfl : g = o := by simpa using hj
        rw [(isGenesis_iff.mp hl.genesis).1] at hp
        exact (chainHash_ne_empty o' hp).elim
      | succ j =>
        obtain ⟨hlt, _⟩ := List.getElem?_eq_some_iff.mp hj
        have hj' : (g :: rest)[j]? = some (g :: rest)[j] := getElem?_eq_getElem (by omega)
        rw [hl.prevHash_succ hj' hj] at hp
        rw [hl.getElem?_inj ho' hj' hp, hj]
    · rintro ⟨o, ho, rfl⟩
      obtain ⟨hlt, _⟩ := List.getElem?_eq_some_iff.mp ho
      have hi : (g :: rest)[i]? = some (g :: rest)[i] := getElem?_eq_getElem (by omega)
      exact ⟨o, ⟨mem_of_getElem? ho, rfl⟩, _, hi, (hl.prevHash_succ hi ho).symm⟩

lemma causalOrder_eq : causalOrder (indexByHash C crypto) (g.chainHash C) = (g :: rest).map (·.chainHash C) := by
  apply (hl.rooted hs).causalOrder_eq
  · rw [pairwise_map, pairwise_iff_getElem]
    intro i j hi hj hij
    refine ⟨i, j, (hl.atDepth_iff hs).mpr ?_, (hl.atDepth_iff hs).mpr ?_, Or.inl hij⟩
    · exact ⟨_, getElem?_eq_getElem hi, rfl⟩
    · exact ⟨_, getElem?_eq_getElem hj, rfl⟩
  · intro h
    simp only [hl.atDepth_iff hs, mem_iff_getElem?, getElem?_map, map_eq_some_iff]

lemma lineage_eq {k : ℕ} {h : String} (hd : AtDepth (indexByHash C crypto) (g.chainHash C) k h) :
    lineage (indexByHash C crypto) k h = (((g :: rest).map (·.chainHash C)).take k).toFinset := by
  induction k generalizing h with
  | zero => simp [lineage]
  | succ k ih =>
    have hp := hd.parent
    obtain ⟨o, ho, heq⟩ := (hl.atDepth_iff hs).mp hp
    have hget : ((g :: rest).map (·.chainHash C))[k]? = some (parentHash (indexByHash C crypto) h) := by
      rw [getElem?_map, ho, map_some, heq]
    rw [lineage, ih hp, take_add_one, hget]
    ext x
    simp

lemma unbranched : Unbranched (OpTree.grow (indexByHash C crypto) (g.chainHash C)) where
  nodup := nodup_causalOrder _ _
  past pre h post hsplit := by
    have horder : (g :: rest).map (·.chainHash C) = pre ++ h :: post := (hl.causalOrder_eq hs).symm.trans hsplit
    have hget : ((g :: rest).map (·.chainHash C))[pre.length]? = some h := by simp [horder]
    rw [getElem?_map, map_eq_some_iff] at hget
    have hd := (hl.atDepth_iff hs).mpr hget
    rw [grow_past (hl.rooted hs) hd, hl.lineage_eq hs hd, horder, take_left']
    rfl
  root := by
    have hg := (hl.index_iff hs).mpr ⟨mem_cons_self, rfl⟩
    change ((OpTree.grow _ (g.chainHash C)).op (g.chainHash C)).action = .admits
    rw [grow_op hg]
    exact (isGenesis_iff.mp hl.genesis).2.1

lemma find?_genesis : crypto.find? (isGenesis anchor) = some g := by
  have hsome : (crypto.find? (isGenesis anchor)).isSome = true :=
    find?_isSome.mpr ⟨g, (hs g).mpr mem_cons_self, hl.genesis⟩
  obtain ⟨g', hg'⟩ := isSome_iff_exists.mp hsome
  have hempty := (isGenesis_iff.mp (find?_some hg')).1
  obtain ⟨i, hi⟩ := mem_iff_getElem?.mp ((hs g').mp (mem_of_find?_eq_some hg'))
  cases i with
  | zero =>
    obtain rfl : g = g' := by simpa using hi
    exact hg'
  | succ i =>
    obtain ⟨hlt, _⟩ := List.getElem?_eq_some_iff.mp hi
    have hi' : (g :: rest)[i]? = some (g :: rest)[i] := getElem?_eq_getElem (by omega)
    rw [hl.prevHash_succ hi' hi] at hempty
    exact (chainHash_ne_empty _ hempty).elim

lemma anchoredTree_eq : anchoredTree C crypto anchor = some (OpTree.grow (indexByHash C crypto) (g.chainHash C)) := by
  rw [anchoredTree, hl.find?_genesis hs, map_some]

end ChainLog

end Mae.Sync.Membership
