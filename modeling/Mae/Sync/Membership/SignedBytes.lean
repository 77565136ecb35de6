import Mae.Library.Framing
import Mae.Sync.Membership.Congruence

/-! The signed bytes of an op determine what its action makes of it. -/

namespace Mae.Sync.Membership

open Library.Framing Function List

def NulFree (s : String) : Prop := '\x00' ∉ s.toList
  deriving Decidable

lemma asBytes_eq_flatMap (s : String) : asBytes s = s.toList.flatMap String.utf8EncodeChar := by
  conv_lhs => rw [asBytes, ← String.ofList_toList (s := s), String.toByteArray_ofList]
  simp [List.utf8Encode]

lemma asBytes_injective : Injective asBytes := by
  intro s t h
  exact String.toByteArray_inj.mp (ByteArray.ext (Array.toList_inj.mp h))

lemma eq_nul_of_zero_mem {c : Char} (hc : 0 ∈ String.utf8EncodeChar c) : c = '\x00' := by
  have hzero : c.val.toNat = 0 := by
    have hlow : ∀ n, 0 = UInt8.ofNat n → n % 256 = 0 := by
      intro n hn
      simpa using (congrArg UInt8.toNat hn).symm
    rw [String.utf8EncodeChar] at hc
    split_ifs at hc <;> simp only [mem_cons, not_mem_nil, or_false] at hc
    · have := hlow _ hc; omega
    · rcases hc with hc | hc <;> have := hlow _ hc <;> omega
    · rcases hc with hc | hc | hc <;> have := hlow _ hc <;> omega
    · rcases hc with hc | hc | hc | hc <;> have := hlow _ hc <;> omega
  apply Char.ext
  exact UInt32.toNat_inj.mp hzero

lemma NulFree.zero_notMem {s : String} (hs : NulFree s) : 0 ∉ asBytes s := by
  rw [asBytes_eq_flatMap, mem_flatMap]
  rintro ⟨c, hc, hzero⟩
  exact hs (eq_nul_of_zero_mem hzero ▸ hc)

lemma fields_of_bytes {xs ys : List String} (hx : ∀ s ∈ xs, NulFree s) (hy : ∀ s ∈ ys, NulFree s)
    (h : xs.flatMap field = ys.flatMap field) : xs = ys := by
  have hframe : ∀ l : List String, l.flatMap field = (l.map asBytes).flatMap (· ++ [0]) := by
    intro l
    rw [flatMap_map]
    rfl
  rw [hframe, hframe] at h
  apply map_injective_iff.mpr asBytes_injective
  refine flatMap_terminated_inj ?_ ?_ h
  · exact forall_mem_map.mpr fun s hs => (hx s hs).zero_notMem
  · exact forall_mem_map.mpr fun s hs => (hy s hs).zero_notMem

lemma nulFree_toString (n : ℕ) : NulFree (toString n) := by
  rw [Nat.toString_eq_repr, Nat.repr_eq_ofList_toDigits, NulFree, String.toList_ofList]
  intro hc
  have := Nat.isDigit_of_mem_toDigits (by decide) (by decide) hc
  simp at this

lemma toString_injective : Injective fun n : ℕ => toString n := fun _ _ h => Nat.repr_injective h

lemma toString_ne_empty (n : ℕ) : toString n ≠ "" := by
  intro h
  simpa using congrArg String.toList h

lemma hexDigit_inj : ∀ m < 16, ∀ n < 16, hexDigit m = hexDigit n → m = n := by decide

lemma hexDigit_ne_nul : ∀ m < 16, hexDigit m ≠ '\x00' := by decide

lemma hexEncode_injective : Injective hexEncode := by
  have hpair : Injective fun x : UInt8 => [hexDigit (x.toNat / 16), hexDigit (x.toNat % 16)] := by
    intro x y h
    simp only [List.cons.injEq, and_true] at h
    have hx := x.toNat_lt
    have hy := y.toNat_lt
    have hhi := hexDigit_inj _ (by omega) _ (by omega) h.1
    have hlo := hexDigit_inj _ (by omega) _ (by omega) h.2
    exact UInt8.toNat_inj.mp (by omega)
  intro a b h
  exact flatMap_injective_of_length hpair (fun _ => rfl) (String.ofList_inj.mp h)

lemma hexEncode_nil : hexEncode [] = "" := rfl

lemma nulFree_hexEncode (b : Bytes) : NulFree (hexEncode b) := by
  rw [NulFree, hexEncode, String.toList_ofList, mem_flatMap]
  rintro ⟨x, _, hx⟩
  have hlt := x.toNat_lt
  simp only [mem_cons, not_mem_nil, or_false] at hx
  rcases hx with hx | hx
  · exact hexDigit_ne_nul _ (by omega) hx.symm
  · exact hexDigit_ne_nul _ (by omega) hx.symm

lemma getD_map_injective {α : Type} {f : α → String} (hf : Injective f) (hne : ∀ a, f a ≠ "") :
    Injective fun x : Option α => (x.map f).getD "" := by
  intro x y h
  cases x <;> cases y
  · rfl
  · exact (hne _ h.symm).elim
  · exact (hne _ h).elim
  · exact congrArg some (hf h)

lemma hexKey_injective : Injective MembershipOp.hexKey := by
  apply getD_map_injective
  · intro k k' h
    exact Vector.toList_inj.mp (hexEncode_injective h)
  · intro k h
    have hnil := hexEncode_injective (h.trans hexEncode_nil.symm)
    have hlen := congrArg List.length hnil
    simp at hlen

lemma Role.asStr_injective : Injective Role.asStr := by
  intro r s
  cases r <;> cases s <;> simp [Role.asStr]

lemma MembershipAction.asStr_injective : Injective MembershipAction.asStr := by
  intro a b
  cases a <;> cases b <;> simp [MembershipAction.asStr]

namespace MembershipOp

variable {a b : MembershipOp} (op : MembershipOp)

def NulFree : Prop :=
  ∀ s ∈ [op.kbId, op.subject, op.author, op.prevHash, op.contentHash.getD ""], Membership.NulFree s
  deriving Decidable

lemma nulFree_version : Membership.NulFree op.version := by
  rw [version]
  split_ifs <;> decide

lemma nulFree_hexKey (k : Option Key32) : Membership.NulFree (hexKey k) := by
  cases k with
  | none => decide
  | some pk => exact nulFree_hexEncode _

variable {op : MembershipOp}

lemma NulFree.versionFields (hop : op.NulFree) : ∀ s ∈ op.versionFields, Membership.NulFree s := by
  have hcontent : Membership.NulFree (op.contentHash.getD "") := hop _ (by simp)
  have hwrap : Membership.NulFree ((op.wrappedKey.map hexEncode).getD "") := by
    cases op.wrappedKey with
    | none => decide
    | some wk => exact nulFree_hexEncode wk
  have hrep : Membership.NulFree op.replication.asStr := by cases op.replication <;> decide
  intro s hs
  rw [MembershipOp.versionFields, mem_append] at hs
  rcases hs with hs | hs
  · split_ifs at hs
    · rwa [mem_singleton.mp hs]
    · simp at hs
  · split_ifs at hs
    · rcases mem_pair.mp hs with rfl | rfl <;> exact nulFree_hexKey _
    · rw [mem_singleton.mp hs]
      exact nulFree_hexKey _
    · rcases mem_pair.mp hs with rfl | rfl
      · exact hwrap
      · exact hrep
    · cases hwk : op.wrappedKey with
      | none => simp [hwk] at hs
      | some wk =>
        rw [hwk, mem_singleton] at hs
        rw [hs]
        exact nulFree_hexEncode wk

lemma NulFree.canonicalFields (hop : op.NulFree) : ∀ s ∈ op.canonicalFields, Membership.NulFree s := by
  have hrole : Membership.NulFree ((op.role.map Role.asStr).getD "") := by
    rcases op.role with _ | _ | _ | _ <;> decide
  have hexp : Membership.NulFree ((op.expiresAt.map fun e => toString e.toNat).getD "") := by
    cases op.expiresAt with
    | none => decide
    | some e => exact nulFree_toString _
  have haction : Membership.NulFree op.action.asStr := by cases op.action <;> decide
  have hinvite : Membership.NulFree (if op.canInvite then "1" else "0") := by split_ifs <;> decide
  rw [MembershipOp.canonicalFields, forall_mem_append]
  refine ⟨?_, hop.versionFields⟩
  simp only [forall_mem_cons, not_mem_nil, false_imp_iff, implies_true, and_true]
  exact ⟨nulFree_version op, hop _ (by simp), haction, hop _ (by simp), hrole, hinvite, hop _ (by simp),
    nulFree_toString _, hexp, nulFree_toString _, hop _ (by simp)⟩

lemma common_of_canonicalFields (h : a.canonicalFields = b.canonicalFields) :
    (b.action = a.action ∧ b.subject = a.subject ∧ b.role = a.role ∧ b.canInvite = a.canInvite ∧ b.author = a.author ∧
        b.issuedAt = a.issuedAt ∧ b.expiresAt = a.expiresAt ∧ b.epoch = a.epoch ∧ b.prevHash = a.prevHash)
      ∧ a.versionFields = b.versionFields := by
  simp only [canonicalFields, cons_append, nil_append, List.cons.injEq] at h
  obtain ⟨_, _, haction, hsubject, hrole, hinvite, hauthor, hissued, hexpires, hepoch, hprev, hversion⟩ := h
  have hnum : Injective fun n : UInt64 => toString n.toNat :=
    fun _ _ hn => UInt64.toNat_inj.mp (toString_injective hn)
  refine ⟨⟨(MembershipAction.asStr_injective haction).symm, hsubject.symm, ?_, ?_, hauthor.symm, (hnum hissued).symm,
    ?_, (hnum hepoch).symm, hprev.symm⟩, hversion⟩
  · exact (getD_map_injective Role.asStr_injective (by intro r; cases r <;> decide) hrole).symm
  · revert hinvite
    cases a.canInvite <;> cases b.canInvite <;> simp
  · exact (getD_map_injective hnum (fun _ => toString_ne_empty _) hexpires).symm

def wrapFields : List String :=
  if op.replication = .queryOnly then [(op.wrappedKey.map hexEncode).getD "", op.replication.asStr]
  else match op.wrappedKey with
    | some wk => [hexEncode wk]
    | none => []

lemma versionFields_of_slot (hr : op.action ≠ .rebind) (hk : op.action ≠ .registerRecoveryKey) :
    op.versionFields = (if op.action = .rebirth then [op.contentHash.getD ""] else []) ++ op.wrapFields := by
  rw [versionFields, if_neg hr, if_neg hk]
  rfl

lemma wrapFields_of_versionFields (hact : b.action = a.action) (hr : a.action ≠ .rebind)
    (hk : a.action ≠ .registerRecoveryKey) (h : a.versionFields = b.versionFields) :
    (a.action = .rebirth → a.contentHash.getD "" = b.contentHash.getD "") ∧ a.wrapFields = b.wrapFields := by
  rw [versionFields_of_slot hr hk, versionFields_of_slot (hact ▸ hr) (hact ▸ hk), hact] at h
  split_ifs at h with hb
  · exact ⟨fun _ => head_eq_of_cons_eq h, tail_eq_of_cons_eq h⟩
  · exact ⟨fun hc => (hb hc).elim, h⟩

lemma replication_of_wrapFields (h : a.wrapFields = b.wrapFields) : b.replication = a.replication := by
  rw [wrapFields, wrapFields] at h
  cases ha : a.replication <;> cases hb : b.replication <;> rw [ha, hb] at h
  · cases hw : a.wrappedKey <;> simp [hw] at h
  · cases hw : b.wrappedKey <;> simp [hw] at h

lemma wrappedKey_of_wrapFields (h : a.wrapFields = b.wrapFields)
    (hempty : a.replication = .queryOnly → a.wrappedKey ≠ some [] ∧ b.wrappedKey ≠ some []) :
    b.wrappedKey = a.wrappedKey := by
  have hrep := replication_of_wrapFields h
  rw [wrapFields, wrapFields, hrep] at h
  split_ifs at h with hq
  · have hhex := head_eq_of_cons_eq h
    rw [← hexEncode_nil, Option.getD_map, Option.getD_map] at hhex
    have hwk := hexEncode_injective hhex
    cases ha' : a.wrappedKey <;> cases hb' : b.wrappedKey <;> simp_all
  · cases ha : a.wrappedKey <;> cases hb : b.wrappedKey <;> simp [ha, hb] at h
    · rfl
    · rw [hexEncode_injective h]

lemma filter_ne_empty (c : Option String) :
    (c.filter fun h => h != "") = if c.getD "" = "" then none else some (c.getD "") := by
  cases c with
  | none => rfl
  | some h => by_cases hh : h = "" <;> simp [hh, Option.filter]

lemma alike_of_canonicalFields (h : a.canonicalFields = b.canonicalFields) : Alike a b := by
  obtain ⟨⟨haction, hsubject, hrole, hinvite, hauthor, _, hexpires, hepoch, _⟩, hversion⟩ :=
    common_of_canonicalFields h
  have hkeys : a.action = .rebind → b.newPubkey = a.newPubkey ∧ b.newWrapPubkey = a.newWrapPubkey := by
    intro hact
    simp only [versionFields, haction, hact, reduceCtorEq, if_true, if_false, nil_append, List.cons.injEq,
      and_true] at hversion
    exact ⟨(hexKey_injective hversion.1).symm, (hexKey_injective hversion.2).symm⟩
  refine ⟨haction, hsubject, hrole, hinvite, hauthor, hexpires, hepoch, ?_, fun hact => (hkeys hact).1,
    fun hact => (hkeys hact).2, ?_, ?_⟩
  · intro hact
    have hslot : a.action ≠ .rebind ∧ a.action ≠ .registerRecoveryKey := by
      rcases hact with hact | hact <;> simp [hact]
    exact replication_of_wrapFields (wrapFields_of_versionFields haction hslot.1 hslot.2 hversion).2
  · intro hact
    simp only [versionFields, haction, hact, reduceCtorEq, if_true, if_false, nil_append, List.cons.injEq,
      and_true] at hversion
    exact (hexKey_injective hversion).symm
  · intro hact
    have hhash := (wrapFields_of_versionFields haction (by simp [hact]) (by simp [hact]) hversion).1 hact
    rw [filter_ne_empty, filter_ne_empty, hhash]

end MembershipOp

end Mae.Sync.Membership
