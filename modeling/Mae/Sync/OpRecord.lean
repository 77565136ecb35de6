import Mae.Sync.CollectionReaders

/-! A record of the membership op-log decodes to the op that was appended, up to an empty content hash. -/

namespace Mae.Sync

open Std (ExtTreeMap)
open Sync.Membership List

lemma parseUsize_repr {n : ℕ} (hn : n < 2 ^ 64) : parseUsize n.repr.toList = some n := by
  have hdigits : ∀ c ∈ Nat.toDigits 10 n, c.isDigit = true := fun c => Nat.isDigit_of_mem_toDigits (by decide) (by decide)
  have hplus : (Nat.toDigits 10 n).head? ≠ some '+' := by
    intro h
    exact absurd (hdigits _ (mem_of_mem_head? h)) (by decide)
  have hvalue : (Nat.toDigits 10 n).foldl (fun n c => 10 * n + (c.toNat - 48)) 0 = n := Nat.ofDigitChars_ten_toDigits
  rw [Nat.toList_repr, parseUsize, if_neg hplus]
  simp only [hvalue, if_pos hn]
  exact if_pos ⟨Nat.toDigits_ne_nil, all_eq_true.mpr hdigits⟩

lemma parseU64_repr (n : UInt64) : parseU64 n.toNat.repr = some n := by
  rw [parseU64, parseUsize_repr n.toNat_lt, Option.map_some, UInt64.ofNat_toNat]

lemma hexValue_hexDigit : ∀ n < 16, hexValue (hexDigit n) = some n := by decide

lemma hexDecode_hexEncode (b : Bytes) : hexDecode (hexEncode b) = some b := by
  rw [hexDecode, hexEncode, String.toList_ofList]
  induction b with
  | nil => rfl
  | cons x b ih =>
    have hx := x.toNat_lt
    have hjoin : UInt8.ofNat (16 * (x.toNat / 16) + x.toNat % 16) = x := by
      rw [Nat.div_add_mod]
      exact UInt8.ofNat_toNat
    rw [flatMap_cons, cons_append, cons_append, nil_append, hexDecodeChars,
      hexValue_hexDigit _ (by omega), hexValue_hexDigit _ (by omega), ih]
    exact congrArg (fun x => some (x :: b)) hjoin

lemma hexKey32_hexEncode (k : Key32) : hexKey32 (hexEncode k.toList) = some k := by
  rw [hexKey32, hexDecode_hexEncode, Option.bind_some, key32_toList]

lemma hexEncode_ne_empty {b : Bytes} (hb : b ≠ []) : hexEncode b ≠ "" :=
  fun h => hb (hexEncode_injective (h.trans hexEncode_nil.symm))

lemma Membership.Role.asStr_ne_empty (r : Role) : r.asStr ≠ "" := by cases r <;> decide

lemma Membership.MembershipAction.parse_asStr (a : MembershipAction) : MembershipAction.parse a.asStr = some a := by
  cases a <;> decide

namespace Root

lemma findSome?_optional {α : Type} (x : Option α) (f : α → String) (key k : String) :
    ((x.map fun v => (key, f v)).toList.reverse.findSome? fun p => if p.1 = k then some p.2 else none) =
      if key = k then x.map f else none := by
  cases x <;> simp

lemma findSome?_present (x : Option String) (key k : String) :
    ((x.map fun v => (key, v)).toList.reverse.findSome? fun p => if p.1 = k then some p.2 else none) =
      if key = k then x else none := by
  cases x <;> simp

lemma findSome?_queryOnly (p : ReplicationPolicy) (k : String) :
    ((if p = .queryOnly then [("replication", ReplicationPolicy.queryOnly.asStr)] else []).reverse.findSome?
      fun p => if p.1 = k then some p.2 else none) = if p = .queryOnly ∧ "replication" = k then some "query_only" else none := by
  cases p <;> simp [ReplicationPolicy.asStr]

lemma decodeOpRecord_opFields {o : SignedMembershipOp} (hkey : o.op.wrappedKey ≠ some []) :
    decodeOpRecord (ExtTreeMap.ofList (opFields o)) =
      some { o with op := { o.op with contentHash := o.op.contentHash.filter fun h => h != "" } } := by
  generalize hrec : ExtTreeMap.ofList (opFields o) = rec
  have hget : ∀ k : String, rec[k]? = _ := fun k => hrec ▸ getElem?_ofList (opFields o) k
  simp only [opFields, reverse_append, findSome?_append, findSome?_optional, findSome?_present, findSome?_queryOnly] at hget
  have hkeys : ∀ x : Option Key32, ((x.map fun pk => hexEncode pk.toList).filter fun s => s != "").bind hexKey32 = x := by
    rintro (_ | pk)
    · rfl
    · have hne : hexEncode pk.toList ≠ "" := hexEncode_ne_empty (by simp [← length_eq_zero_iff])
      simp [Option.filter_some, hne, hexKey32_hexEncode]
  have hrole : (rec["role"]?.filter fun s => s != "") = o.op.role.map Role.asStr := by
    cases h : o.op.role <;> simp [hget, h, Role.asStr_ne_empty]
  have hexpires : (rec["expires_at"]?.filter fun s => s != "") = o.op.expiresAt.map fun e => toString e.toNat := by
    cases h : o.op.expiresAt <;> simp [hget, h]
  have hwrapped : (rec["wrapped_key"]?.filter fun s => s != "").bind hexDecode = o.op.wrappedKey := by
    cases h : o.op.wrappedKey with
    | none => simp [hget, h]
    | some wk =>
      have hne := hexEncode_ne_empty fun hnil => hkey (h.trans (congrArg some hnil))
      simp [Option.filter_some, hget, h, hne, hexDecode_hexEncode]
  have hreplication : (rec["replication"]?.bind ReplicationPolicy.parse).getD .full = o.op.replication := by
    cases h : o.op.replication with
    | full => simp [hget, h]
    | queryOnly =>
      have hparse : ReplicationPolicy.parse "query_only" = some .queryOnly := by decide
      simp [hget, h, hparse]
  have hinvite : (rec["can_invite"]? == some "1") = o.op.canInvite := by
    cases h : o.op.canInvite <;> simp [hget, h]
  simp only [decodeOpRecord, hrole, hexpires, hwrapped, hreplication, hinvite]
  cases hr : o.op.role <;> cases he : o.op.expiresAt <;>
    simp [hget, hkeys, hr, he, Role.parse_asStr, MembershipAction.parse_asStr, parseU64_repr, hexDecode_hexEncode,
      hexKey32_hexEncode, Option.filter_filter]

lemma record_appendSignedOp (C : Crypto) (root : Root) (o : SignedMembershipOp) :
    (root.writes (root.appendSignedOp C o)).record "membership_oplog" (o.chainHash C) =
      some (ExtTreeMap.ofList (opFields o)) := by
  have hmap := getElem?_ensureMap root "membership_oplog"
  rw [appendSignedOp, writes_append]
  simp only [writes, record, entries] at hmap ⊢
  simp [write, modifyMap, hmap]
  rfl

theorem op_record_round_trip (C : Crypto) (root : Root) (o : SignedMembershipOp) (hkey : o.op.wrappedKey ≠ some []) :
    ∃ rec o', (root.writes (root.appendSignedOp C o)).record "membership_oplog" (o.chainHash C) = some rec ∧
      decodeOpRecord rec = some o' ∧ o'.sig = o.sig ∧ o'.authorPubkey = o.authorPubkey ∧
      o'.op.canonicalBytes = o.op.canonicalBytes ∧ o'.chainHash C = o.chainHash C ∧
      o'.verifySigned C = o.verifySigned C := by
  refine ⟨_, _, record_appendSignedOp C root o, decodeOpRecord_opFields hkey, rfl, rfl, ?_⟩
  have hbytes : { o.op with contentHash := o.op.contentHash.filter fun h => h != "" }.canonicalBytes =
      o.op.canonicalBytes := by
    have hhash : (o.op.contentHash.filter fun h => h != "").getD "" = o.op.contentHash.getD "" := by
      cases o.op.contentHash with
      | none => rfl
      | some h => by_cases hh : h = "" <;> simp [Option.filter_some, hh]
    simp only [MembershipOp.canonicalBytes, MembershipOp.canonicalFields, MembershipOp.versionFields, hhash]
    rfl
  refine ⟨hbytes, ?_, ?_⟩
  · rw [SignedMembershipOp.chainHash, MembershipOp.chainHash, hbytes]
    rfl
  · rw [SignedMembershipOp.verifySigned, MembershipOp.verify, hbytes]
    rfl

theorem rebind_record_round_trip : (sampleRebind "" 'o' 'p').wrappedKey ≠ some [] ∧
      ∃ rec, ((∅ : Root).writes ((∅ : Root).appendSignedOp .sample (sampleSigned 1 'o' (sampleRebind "" 'o' 'p')))).record
        "membership_oplog" (sampleHash 1) = some rec ∧ (decodeOpRecord rec).isSome = true := by
  have hkey : (sampleRebind "" 'o' 'p').wrappedKey ≠ some [] := by decide
  obtain ⟨rec, o', hrec, hdecode, -⟩ := op_record_round_trip .sample ∅ (sampleSigned 1 'o' (sampleRebind "" 'o' 'p')) hkey
  exact ⟨hkey, rec, hrec, by rw [hdecode]; rfl⟩

end Root

end Mae.Sync
