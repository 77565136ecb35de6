import Mae.Sync.Membership.Anchored
import Mae.Sync.Membership.ValidityLoop

/-! The derivation reads the clock only where it asks whether an op has expired. -/

namespace Mae.Sync.Membership

open Std

lemma mem_foldl_emit {l : List String} {s : Finset String × List String} {h : String} :
    h ∈ (l.foldl emit s).2 → h ∈ s.2 ∨ h ∈ l := by
  induction l generalizing s with
  | nil => exact Or.inl
  | cons k l ih =>
    intro hh
    rcases ih hh with hs | hl
    · unfold emit at hs
      split at hs
      · exact .inl hs
      · rcases List.mem_append.mp hs with hs | hs
        · exact .inl hs
        · exact .inr (List.mem_singleton.mp hs ▸ List.mem_cons_self)
    · exact .inr (List.mem_cons_of_mem k hl)

lemma mem_index_of_mem_causalLoop {byHash : OpIndex} (fuel : ℕ) {emitted : Finset String} {order frontier : List String}
    (horder : ∀ h ∈ order, h ∈ byHash) (hfrontier : ∀ h ∈ frontier, h ∈ byHash) :
    ∀ h ∈ causalLoop (childIndex byHash) fuel emitted order frontier, h ∈ byHash := by
  induction fuel generalizing emitted order frontier with
  | zero => exact horder
  | succ fuel ih =>
    rw [causalLoop]
    split
    · exact horder
    · apply ih
      · intro h hh
        rcases mem_foldl_emit hh with hh | hh
        · exact horder h hh
        · exact hfrontier h (List.mem_insertionSort _ |>.mp hh)
      · intro h hh
        obtain ⟨⟨o, ho, -⟩, -⟩ := (mem_nextFrontier _ _ h).mp hh
        exact ExtTreeMap.mem_iff_isSome_getElem?.mpr (Option.isSome_of_eq_some ho)

lemma op_mem_of_mem_order {C : Crypto} {crypto : OpLog} {anchor : Key32} {t : OpTree}
    (ht : anchoredTree C crypto anchor = some t) {h : String} (hh : h ∈ t.order) : ∃ o ∈ crypto, t.op h = o.op := by
  obtain ⟨g, -, -, rfl⟩ := anchoredTree_root ht
  have hmem : h ∈ indexByHash C crypto := by
    simp only [OpTree.grow, causalOrder] at hh
    split at hh
    · rename_i hg
      exact mem_index_of_mem_causalLoop _ (by simp) (by simpa using hg) h hh
    · cases hh
  obtain ⟨o, ho⟩ := Option.isSome_iff_exists.mp (ExtTreeMap.mem_iff_isSome_getElem?.mp hmem)
  exact ⟨o, (indexByHash_sound ho).1, grow_op ho⟩

section

variable {C : Crypto} {t : OpTree} {governance : Governance} {now now' : UInt64}
variable (hexp : ∀ h ∈ t.order, expired (t.op h) now' = expired (t.op h) now)
include hexp

lemma buildMembers_congr_now (V : Finset String) :
    buildMembers t governance now' (t.live V) = buildMembers t governance now (t.live V) := by
  have hadmit : admitPass t governance now' (t.live V) = admitPass t governance now (t.live V) := by
    apply List.foldl_ext
    intro out h hh
    have hseats : Seats t governance now' (t.live V) h ↔ Seats t governance now (t.live V) h := by
      rw [Seats, hexp h (mem_live.mp hh).1, Seats]
    rw [admitStep]
    exact if_congr hseats rfl rfl
  rw [buildMembers, hadmit, buildMembers]

lemma validSet_congr_now : validSet C t governance now' = validSet C t governance now := by
  have hpass : validityPass C t governance now' = validityPass C t governance now := by
    funext V
    rw [validityPass]
    congr 1
    apply List.filter_congr
    intro h hh
    have hat : membershipAt t governance now' V h = membershipAt t governance now V h :=
      buildMembers_congr_now hexp _
    rw [survives, hexp h hh, hat, survives]
  rw [validSet, validityLoop, hpass, validSet, validityLoop]

lemma deriveFrom_congr_now (view : MembershipView) :
    deriveFrom C t now' governance view = deriveFrom C t now governance view := by
  rw [deriveFrom, validSet_congr_now hexp, buildMembers_congr_now hexp, deriveFrom]

end

lemma deriveValidMembersGoverned_congr_now {C : Crypto} {ops : OpLog} {now now' : UInt64}
    (hexp : ∀ o ∈ ops, expired o.op now' = expired o.op now) (anchor : Key32) (governance : Governance)
    (view : MembershipView) :
    deriveValidMembersGoverned C ops anchor now' governance view =
      deriveValidMembersGoverned C ops anchor now governance view := by
  rw [deriveValidMembersGoverned, deriveValidMembersGoverned]
  cases ht : anchoredTree C (visible C view ops) anchor with
  | none => rfl
  | some t =>
    apply deriveFrom_congr_now
    intro h hh
    obtain ⟨o, ho, hop⟩ := op_mem_of_mem_order ht hh
    rw [hop]
    exact hexp o (mem_visible.mp ho).1

lemma expired_congr {op : MembershipOp} {now now' : UInt64}
    (hforth : ∀ exp, op.expiresAt = some exp → ¬ (now < exp ∧ exp ≤ now'))
    (hback : ∀ exp, op.expiresAt = some exp → ¬ (now' < exp ∧ exp ≤ now)) : expired op now' = expired op now := by
  cases hexp : op.expiresAt with
  | none => rw [expired, expired, hexp]; rfl
  | some exp =>
    have hiff : exp ≤ now' ↔ exp ≤ now := by
      have h1 := hforth exp hexp
      have h2 := hback exp hexp
      rw [UInt64.lt_iff_toNat_lt, UInt64.le_iff_toNat_le] at h1 h2
      rw [UInt64.le_iff_toNat_le, UInt64.le_iff_toNat_le]
      omega
    simp only [expired, hexp, Option.any_some, hiff]

end Mae.Sync.Membership
