import Mae.Sync.Collection
import Mae.Sync.Membership.OwnerChain
import Mae.Sync.Membership.Rotation
import Mae.Sync.Membership.SequentialReplay

/-! A removal that re-keys the remaining members, on an unbranched log. -/

namespace Mae.Sync.Membership

open Std (ExtTreeMap)
open Library.Champion CollectionDoc Relation Std.ExtTreeMap List Option ValidMember

variable {C : Crypto} {anchor : Key32} {g : SignedMembershipOp} {rest : OpLog} {doc : CollectionDoc}
  {now : UInt64}

structure ChainDoc (C : Crypto) (anchor : Key32) (g : SignedMembershipOp) (rest : List SignedMembershipOp)
    (doc : CollectionDoc) : Prop where
  chain : ChainLog C anchor g rest
  same : SameRecords (g :: rest) doc.oplog
  signed : ∀ o ∈ g :: rest, o.verifySigned C = true
  seated : ∀ o ∈ rest, o.op.action ≠ .rebind

lemma ChainLog.tip_iff (hl : ChainLog C anchor g rest) {o : SignedMembershipOp} (ho : o ∈ g :: rest) :
    (∀ o' ∈ g :: rest, o'.op.prevHash ≠ o.chainHash C) ↔ (g :: rest).getLast? = some o := by
  obtain ⟨i, hi⟩ := mem_iff_getElem?.mp ho
  obtain ⟨hlt, -⟩ := List.getElem?_eq_some_iff.mp hi
  rw [getLast?_eq_getElem?]
  constructor
  · intro htip
    have hlast : i = (g :: rest).length - 1 := by
      by_contra hne
      have hnext : (g :: rest)[i + 1]? = some (g :: rest)[i + 1] := getElem?_eq_getElem (by omega)
      exact htip _ (mem_of_getElem? hnext) (hl.prevHash_succ hi hnext)
    rw [← hlast, hi]
  · intro hlast o' ho' hprev
    obtain ⟨j, hj⟩ := mem_iff_getElem?.mp ho'
    cases j with
    | zero =>
      obtain rfl : g = o' := by simpa using hj
      rw [(isGenesis_iff.mp hl.genesis).1] at hprev
      exact chainHash_ne_empty o hprev.symm
    | succ j =>
      obtain ⟨hjlt, -⟩ := List.getElem?_eq_some_iff.mp hj
      have hj' : (g :: rest)[j]? = some (g :: rest)[j] := getElem?_eq_getElem (by omega)
      rw [hl.prevHash_succ hj' hj] at hprev
      have hji := hl.getElem?_inj hj' hlast hprev
      omega

lemma ChainDoc.oplogHead_eq (hd : ChainDoc C anchor g rest doc) {last : SignedMembershipOp}
    (hlast : (g :: rest).getLast? = some last) : oplogHead C doc.oplog = some (last.chainHash C) := by
  have hmem : ∀ h, h ∈ (doc.oplog.map (·.chainHash C)).filter
      (fun h => h ∉ (doc.oplog.map (·.op.prevHash)).filter fun p => p != "") ↔ h = last.chainHash C := by
    intro h
    simp only [List.mem_filter, List.mem_map, decide_eq_true_eq, hd.same _, bne_iff_ne]
    constructor
    · rintro ⟨⟨o, ho, rfl⟩, htip⟩
      have hlo := (hd.chain.tip_iff ho).mp fun o' ho' heq => htip ⟨⟨o', ho', heq⟩, chainHash_ne_empty o⟩
      rw [mem_unique hlast hlo]
    · rintro rfl
      have hl := mem_of_getLast? hlast
      refine ⟨⟨last, hl, rfl⟩, ?_⟩
      rintro ⟨⟨o', ho', heq⟩, -⟩
      exact (hd.chain.tip_iff hl).mpr hlast o' ho' heq
  rw [oplogHead]
  cases hb : best (fun a b : String => decide (b < a)) ((doc.oplog.map (·.chainHash C)).filter
      fun h => h ∉ (doc.oplog.map (·.op.prevHash)).filter fun p => p != "") with
  | none =>
    have hin := (hmem (last.chainHash C)).mpr rfl
    rw [(best_eq_none_iff _ _).mp hb] at hin
    exact absurd hin not_mem_nil
  | some h => rw [(hmem h).mp (best_mem hb)]

section Append

variable {key : SigningKey C} {op : MembershipOp}

def signedBy (key : SigningKey C) (op : MembershipOp) : SignedMembershipOp := ⟨op, sign key op, key.pubkey⟩

lemma verifySigned_signedBy (hauthor : op.author = fingerprintOf C key.pubkey) :
    (signedBy key op).verifySigned C = true := by
  simp [SignedMembershipOp.verifySigned, MembershipOp.fingerprintMatches, MembershipOp.verify, signedBy, sign, hauthor,
    key.decodes, key.length_sign, key.verifies]

lemma oplog_appendSignedOp (hfresh : ∀ o ∈ doc.oplog, o.chainHash C ≠ (signedBy key op).chainHash C) :
    (doc.appendSignedOp C op (sign key op) key.pubkey).oplog = doc.oplog ++ [signedBy key op] := by
  simp only [appendSignedOp, signedBy, append_cancel_right_eq, filter_eq_self, bne_iff_ne]
  exact hfresh

lemma ChainDoc.fresh (hd : ChainDoc C anchor g rest doc) {r : SignedMembershipOp} {later : OpLog}
    (hprev : r.op.prevHash = (oplogHead C doc.oplog).getD "") (hc : CollisionFree C (doc.oplog ++ r :: later)) :
    ∀ o ∈ doc.oplog, o.chainHash C ≠ r.chainHash C := by
  intro o ho heq
  obtain rfl := hc o (by simp [ho]) r (by simp) heq
  obtain ⟨last, hlast⟩ : ∃ last, (g :: rest).getLast? = some last := ⟨_, getLast?_eq_some_getLast (by simp)⟩
  rw [hd.oplogHead_eq hlast] at hprev
  exact (hd.chain.tip_iff (mem_of_getLast? hlast)).mpr hlast o ((hd.same o).mp ho) hprev

lemma ChainDoc.append (hd : ChainDoc C anchor g rest doc) (hprev : op.prevHash = (oplogHead C doc.oplog).getD "")
    (hauthor : op.author = fingerprintOf C key.pubkey) (hact : op.action ≠ .rebind)
    (hfresh : ∀ o ∈ doc.oplog, o.chainHash C ≠ (signedBy key op).chainHash C) :
    ChainDoc C anchor g (rest ++ [signedBy key op]) (doc.appendSignedOp C op (sign key op) key.pubkey) := by
  obtain ⟨last, hlast⟩ : ∃ last, (g :: rest).getLast? = some last := ⟨_, getLast?_eq_some_getLast (by simp)⟩
  rw [hd.oplogHead_eq hlast] at hprev
  refine ⟨⟨hd.chain.genesis, ?_, ?_⟩, fun o => ?_, ?_, ?_⟩
  · rw [← cons_append, isChain_append]
    refine ⟨hd.chain.linked, .singleton _, fun o ho o' ho' => ?_⟩
    obtain rfl := mem_unique hlast ho
    obtain rfl : signedBy key op = o' := by simpa using ho'
    exact hprev
  · rw [← cons_append, map_append, nodup_append]
    refine ⟨hd.chain.nodup, nodup_singleton _, fun h hh h' hh' heq => ?_⟩
    obtain ⟨o, ho, rfl⟩ := List.mem_map.mp hh
    obtain rfl := mem_singleton.mp hh'
    exact hfresh o ((hd.same o).mpr ho) heq
  · rw [oplog_appendSignedOp hfresh, ← cons_append, mem_append, mem_append, hd.same o]
  · rw [← cons_append]
    intro o ho
    rcases mem_append.mp ho with ho | ho
    · exact hd.signed o ho
    · rw [mem_singleton.mp ho]
      exact verifySigned_signedBy hauthor
  · intro o ho
    rcases mem_append.mp ho with ho | ho
    · exact hd.seated o ho
    · rw [mem_singleton.mp ho]
      exact hact

end Append

def ledgerOf (C : Crypto) (now : UInt64) (g : SignedMembershipOp) (rest : List SignedMembershipOp) : Ledger :=
  (rest.map (·.op)).foldl (ledgerStep C g.op.subject now) ⟨genesisMembers g.op, ∅⟩

lemma ledgerOf_concat (r : SignedMembershipOp) :
    ledgerOf C now g (rest ++ [r]) = ledgerStep C g.op.subject now (ledgerOf C now g rest) r.op := by
  simp [ledgerOf]

lemma removal_of_mem_removed {p : String} (hp : p ∈ (ledgerOf C now g rest).removed) :
    ∃ o ∈ rest, isRemoval o.op.action = true ∧ o.op.subject = p := by
  induction rest using List.reverseRecOn with
  | nil => simp [ledgerOf] at hp
  | append_singleton rest r ih =>
    have hearlier : p ∈ (ledgerOf C now g rest).removed →
        ∃ o ∈ rest ++ [r], isRemoval o.op.action = true ∧ o.op.subject = p := by
      intro hin
      obtain ⟨o, ho, hop⟩ := ih hin
      exact ⟨o, mem_append_left _ ho, hop⟩
    rw [ledgerOf_concat, ledgerStep] at hp
    split_ifs at hp with ha hin
    · exact hearlier hp
    · rcases Finset.mem_insert.mp hp with rfl | hp
      · rw [Bool.and_eq_true] at ha
        exact ⟨r, by simp, ha.2, rfl⟩
      · exact hearlier hp
    · exact hearlier hp

def wrapStep (ownerFp fp : String) (latest : Option Bytes) (op : MembershipOp) : Option Bytes :=
  if op.author = ownerFp ∧ op.subject = fp then op.wrappedKey.or latest else latest

namespace ChainDoc

variable (hd : ChainDoc C anchor g rest doc)
include hd

lemma genesis_fingerprint : g.op.subject = fingerprintOf C anchor := by
  have hne : g.op.action ≠ .rebind := by simp [(isGenesis_iff.mp hd.chain.genesis).2.1]
  have hh : honored C ∅ g = true := by rw [honored_of_ne_rebind hne, hd.signed g mem_cons_self]
  exact genesis_subject hd.chain.genesis hh

lemma members_eq (hexp : expired g.op now = false) :
    deriveValidMembers C doc.oplog anchor now = (ledgerOf C now g rest).members :=
  deriveValidMembers_eq_ledger hd.chain hexp hd.signed hd.seated hd.same

lemma sameRecords_cryptoValid : SameRecords (g :: rest) (cryptoValid C doc.oplog) := by
  have hvis := visible_of_signed hd.signed hd.same
  rwa [visible_default] at hvis

lemma findWrappedContentKey_eq (fp : String) : findWrappedContentKey C doc.oplog anchor fp =
      ((g :: rest).map (·.op)).foldl (wrapStep (fingerprintOf C anchor) fp) none := by
  have hs := hd.sameRecords_cryptoValid
  have howners : ∀ p, p ∈ ownerPrincipalChain C (cryptoValid C doc.oplog) g.op.subject ↔ p = fingerprintOf C anchor := by
    intro p
    rw [mem_ownerPrincipalChain, ← hd.genesis_fingerprint]
    constructor
    · intro hreach
      cases hreach.cases_tail with
      | inl heq => exact heq
      | inr htail =>
        obtain ⟨_, _, o, ho, hb, -, -⟩ := htail
        have hact : o.op.action = .rebind := by
          simp only [isBoundRebind, Bool.and_eq_true, beq_iff_eq] at hb
          exact hb.1.1
        rcases mem_cons.mp ((hs o).mp ho) with rfl | ho
        · rw [(isGenesis_iff.mp hd.chain.genesis).2.1] at hact
          exact absurd hact (by decide)
        · exact absurd hact (hd.seated o ho)
    · rintro rfl
      exact .refl
  have hgen : genesisRecord (cryptoValid C doc.oplog) anchor = some g := hd.chain.find?_genesis hs
  simp only [findWrappedContentKey, hgen, latestWrappedKey, hd.chain.causalOrder_eq hs, foldl_map, howners]
  apply foldl_ext
  intro latest o ho
  have hget := (hd.chain.index_iff hs).mpr ⟨ho, rfl⟩
  simp only [getElem!_eq_get!_getElem?, hget, get!_some]
  rfl

end ChainDoc

section Rekey

variable {members : Members} {removedFp : String}

def Kept (members : Members) (removedFp : String) (m : Members) : Prop :=
  ∀ fp, m[fp]?.map data = if fp = removedFp then none else members[fp]?.map data

lemma Kept.owner {ownerFp : String} {m : Members} (hk : Kept members removedFp m) (hne : ownerFp ≠ removedFp)
    (howner : (members[ownerFp]?).map (·.role) = some .owner) : ∃ entry, m[ownerFp]? = some entry ∧ entry.role = .owner := by
  obtain ⟨entry, hentry, hrole⟩ := map_eq_some_iff.mp howner
  have hdata := hk ownerFp
  rw [if_neg hne, hentry, map_some, map_eq_some_iff] at hdata
  obtain ⟨entry', hentry', heq⟩ := hdata
  exact ⟨entry', hentry', (congrArg SeatData.role heq).trans hrole⟩

variable {op : MembershipOp}

lemma authorized_of_owner (C : Crypto) (ownerFp : String) {m : Members} {entry : ValidMember}
    (hentry : m[op.author]? = some entry) (hrole : entry.role = .owner) :
    (op.action = .admits → authorized C m op ownerFp .singleOwner = true) ∧
      (op.action = .remove → op.subject ≠ ownerFp →
        authorized C m op ownerFp .singleOwner = m.contains op.subject) := by
  refine ⟨fun hact => ?_, fun hact hne => ?_⟩
  · rw [authorized, hentry]
    simp only [hact, hrole]
    cases op.role.getD .viewer <;> simp [Role.includes, Role.rank]
  · rw [authorized, hentry]
    simp [hact, hrole, hne]

lemma kept_remove {s : Ledger} {ownerFp : String} (hact : op.action = .remove)
    (hexp : op.expiresAt = none) (hauthor : op.author = ownerFp) (hne : ownerFp ≠ op.subject)
    (howner : (s.members[ownerFp]?).map (·.role) = some .owner)
    (hfirst : op.subject ∈ s.members → op.subject ∉ s.removed) :
    Kept s.members op.subject (ledgerStep C ownerFp now s op).members := by
  obtain ⟨entry, hentry, hrole⟩ := map_eq_some_iff.mp howner
  have hauth := (authorized_of_owner C ownerFp (hauthor ▸ hentry) hrole).2 hact hne.symm
  have haccepts : replayAccepts C ownerFp now s.members op = s.members.contains op.subject := by
    simp [replayAccepts, expired, hexp, hauth]
  have hrem : isRemoval op.action = true := by simp [hact, isRemoval]
  intro fp
  rw [ledgerStep, haccepts, hrem, Bool.and_true]
  by_cases hmem : op.subject ∈ s.members
  · rw [if_pos (ExtTreeMap.contains_iff_mem.mpr hmem), if_neg (hfirst hmem)]
    by_cases hfp : op.subject = fp
    · subst hfp
      simp
    · simp [hfp, getElem?_erase, Ne.symm hfp]
  · have hnone : s.members[op.subject]? = none := by
      rwa [mem_iff_isSome_getElem?, Bool.not_eq_true, isSome_eq_false_iff, isNone_iff_eq_none] at hmem
    have hout : ¬ s.members.contains op.subject = true := fun hin => hmem (ExtTreeMap.contains_iff_mem.mp hin)
    rw [if_neg hout, replayStep, haccepts, if_neg hout]
    by_cases hfp : op.subject = fp
    · subst hfp
      simp [hnone]
    · simp [Ne.symm hfp]

lemma kept_rekey {s : Ledger} {ownerFp : String} {entry : ValidMember}
    (hk : Kept members removedFp s.members) (hact : op.action = .admits) (hexp : op.expiresAt = none)
    (hauthor : op.author = ownerFp) (hne : ownerFp ≠ removedFp)
    (howner : (members[ownerFp]?).map (·.role) = some .owner) (hsub : op.subject ≠ removedFp)
    (hentry : members[op.subject]? = some entry) (hdata : (admitEntry op false).data = entry.data) :
    Kept members removedFp (ledgerStep C ownerFp now s op).members := by
  obtain ⟨author, hauthor', hrole⟩ := hk.owner hne howner
  have hauth := (authorized_of_owner C ownerFp (hauthor ▸ hauthor') hrole).1 hact
  have haccepts : replayAccepts C ownerFp now s.members op = true := by
    simp [replayAccepts, expired, hexp, hauth]
  intro fp
  have hstep : (ledgerStep C ownerFp now s op).members = s.members.insert op.subject (admitEntry op false) := by
    simp [ledgerStep, hact, isRemoval, replayStep, haccepts]
  rw [hstep, ExtTreeMap.getElem?_insert]
  by_cases hfp : op.subject = fp
  · subst hfp
    simp [hsub, hentry, hdata]
  · simpa [hfp] using hk fp

end Rekey

section Rotate

variable {owner : SigningKey C} {kbId removedFp ownerFp : String} {members : Members}

structure Rekeyed (C : Crypto) (anchor : Key32) (g : SignedMembershipOp) (now : UInt64) (members : Members)
    (removedFp : String) (old : String → Option Bytes) (done : List (String × Bytes)) (doc : CollectionDoc) : Prop where
  intro ::
  exists_rest : ∃ rest, ChainDoc C anchor g rest doc ∧ Kept members removedFp (ledgerOf C now g rest).members
  wrapped : ∀ p ∈ done, findWrappedContentKey C doc.oplog anchor p.1 = some p.2
  unwrapped : ∀ fp, fp ∉ done.map Prod.fst → findWrappedContentKey C doc.oplog anchor fp = old fp

lemma ChainDoc.findWrapped_append {op : MembershipOp} {rest' : OpLog} {doc' : CollectionDoc}
    (hd : ChainDoc C anchor g rest doc) (hd' : ChainDoc C anchor g rest' doc') (hrest : rest' = rest ++ [signedBy owner op])
    (fp : String) :
    findWrappedContentKey C doc'.oplog anchor fp =
      wrapStep (fingerprintOf C anchor) fp (findWrappedContentKey C doc.oplog anchor fp) op := by
  rw [hd'.findWrappedContentKey_eq, hd.findWrappedContentKey_eq, hrest, ← cons_append, map_append, foldl_append]
  rfl

lemma Rekeyed.start (hd : ChainDoc C owner.pubkey g rest doc) (hexp : expired g.op now = false)
    (hfp : ownerFp = fingerprintOf C owner.pubkey) (hne : ownerFp ≠ removedFp)
    (howner : ((deriveValidMembers C doc.oplog owner.pubkey now)[ownerFp]?).map (·.role) = some .owner)
    (hfirst : removedFp ∈ deriveValidMembers C doc.oplog owner.pubkey now →
      ∀ o ∈ rest, isRemoval o.op.action = true → o.op.subject ≠ removedFp)
    (hfresh : ∀ o ∈ doc.oplog, o.chainHash C ≠ (signedBy owner (doc.removeOp C kbId removedFp ownerFp now)).chainHash C) :
    Rekeyed C owner.pubkey g now (deriveValidMembers C doc.oplog owner.pubkey now) removedFp
      (findWrappedContentKey C doc.oplog owner.pubkey) [] (doc.authorRemove kbId removedFp ownerFp owner now) := by
  have hact : (doc.removeOp C kbId removedFp ownerFp now).action = .remove := rfl
  have hd' := hd.append rfl hfp (by simp [hact]) hfresh
  have hsub : g.op.subject = ownerFp := hd.genesis_fingerprint.trans hfp.symm
  rw [hd.members_eq hexp] at howner hfirst ⊢
  refine ⟨⟨_, ⟨hd'.chain, hd'.same, hd'.signed, hd'.seated⟩, ?_⟩, by simp, fun fp _ => ?_⟩
  · rw [ledgerOf_concat, hsub]
    refine kept_remove hact rfl rfl hne howner fun hmem hin => ?_
    obtain ⟨o, ho, hrem, hos⟩ := removal_of_mem_removed hin
    exact hfirst hmem o ho hrem hos
  · have hfind := hd.findWrapped_append hd' rfl fp
    rw [wrapStep] at hfind
    refine hfind.trans ?_
    split_ifs <;> rfl

lemma Rekeyed.step {old : String → Option Bytes} {done : List (String × Bytes)} {p : String × Bytes}
    (hr : Rekeyed C owner.pubkey g now members removedFp old done doc)
    (hfp : ownerFp = fingerprintOf C owner.pubkey) (hne : ownerFp ≠ removedFp)
    (howner : (members[ownerFp]?).map (·.role) = some .owner) (hp : p.1 ≠ removedFp) (hnew : p.1 ∉ done.map Prod.fst)
    {entry : ValidMember} (hentry : members[p.1]? = some entry) (hfull : entry.replication = .full)
    (hfresh : ∀ o ∈ doc.oplog, o.chainHash C ≠ (signedBy owner (rekeyOp C members kbId ownerFp now doc p)).chainHash C) :
    Rekeyed C owner.pubkey g now members removedFp old (done ++ [p])
      (authorRekey members kbId removedFp ownerFp owner now doc p) := by
  obtain ⟨rest, hd, hk⟩ := hr.exists_rest
  have hact : (rekeyOp C members kbId ownerFp now doc p).action = .admits := rfl
  have hd' := hd.append rfl hfp (by simp [hact]) hfresh
  have hsub : g.op.subject = ownerFp := hd.genesis_fingerprint.trans hfp.symm
  have hfind := hd.findWrapped_append hd' rfl
  rw [authorRekey, if_neg hp]
  refine ⟨⟨_, hd', ?_⟩, fun q hq => ?_, fun fp hnot => ?_⟩
  · rw [ledgerOf_concat, hsub]
    refine kept_rekey hk hact rfl rfl hne howner hp hentry ?_
    simp [data, admitEntry, signedBy, rekeyOp, hentry, buildMembershipOp, hfull]
  · rw [hfind]
    rcases mem_append.mp hq with hq | hq
    · have hqp : p.1 ≠ q.1 := fun heq => hnew (heq ▸ List.mem_map_of_mem hq)
      rw [wrapStep, if_neg fun hc => hqp hc.2, hr.wrapped q hq]
    · rw [mem_singleton.mp hq, wrapStep, if_pos ⟨hfp, rfl⟩]
      rfl
  · rw [map_append, mem_append, not_or] at hnot
    have hother : p.1 ≠ fp := fun heq => hnot.2 (by simp [heq])
    rw [hfind, wrapStep, if_neg fun hc => hother hc.2, hr.unwrapped fp hnot.1]

def rekeyRecords (members : Members) (kbId removedFp ownerFp : String) (owner : SigningKey C) (now : UInt64) :
    CollectionDoc → List (String × Bytes) → List SignedMembershipOp
  | _, [] => []
  | doc, p :: rewraps =>
    signedBy owner (rekeyOp C members kbId ownerFp now doc p) ::
      rekeyRecords members kbId removedFp ownerFp owner now
        (authorRekey members kbId removedFp ownerFp owner now doc p) rewraps

lemma Rekeyed.run {old : String → Option Bytes} {done rewraps : List (String × Bytes)}
    (hr : Rekeyed C owner.pubkey g now members removedFp old done doc)
    (hfp : ownerFp = fingerprintOf C owner.pubkey) (hne : ownerFp ≠ removedFp)
    (howner : (members[ownerFp]?).map (·.role) = some .owner) (honce : ((done ++ rewraps).map Prod.fst).Nodup)
    (hrewraps : ∀ p ∈ rewraps, p.1 ≠ removedFp ∧ ∃ entry, members[p.1]? = some entry ∧ entry.replication = .full)
    (hc : CollisionFree C (doc.oplog ++ rekeyRecords members kbId removedFp ownerFp owner now doc rewraps)) :
    Rekeyed C owner.pubkey g now members removedFp old (done ++ rewraps)
      (rewraps.foldl (authorRekey members kbId removedFp ownerFp owner now) doc) := by
  induction rewraps generalizing done doc with
  | nil => simpa using hr
  | cons p rewraps ih =>
    obtain ⟨hp, entry, hentry, hfull⟩ := hrewraps p mem_cons_self
    have hnew : p.1 ∉ done.map Prod.fst := by
      rw [map_append, nodup_append] at honce
      exact fun hin => honce.2.2 p.1 hin p.1 (by simp) rfl
    obtain ⟨rest, hd, -⟩ := hr.exists_rest
    have hfresh := hd.fresh rfl hc
    have hlog : (authorRekey members kbId removedFp ownerFp owner now doc p).oplog =
        doc.oplog ++ [signedBy owner (rekeyOp C members kbId ownerFp now doc p)] := by
      rw [authorRekey, if_neg hp]
      exact oplog_appendSignedOp hfresh
    have hstep := hr.step hfp hne howner hp hnew hentry hfull hfresh
    rw [append_cons] at honce ⊢
    refine ih hstep honce (fun q hq => hrewraps q (mem_cons_of_mem _ hq)) ?_
    rwa [hlog, append_assoc]

end Rotate

def ownerSigningKey : SigningKey .sample := .sample 'o' fun msg => UInt8.ofNat msg.length

def threeSeats (policy : ReplicationPolicy) : CollectionDoc where
  oplog :=
    [sampleGenesis,
      sampleSigned 2 'o' { sampleOp (sampleHash 1) 'o' .admits (sampleFp 'b') (some .editor) with replication := policy },
      sampleLinked 3 2 'o' .admits (sampleFp 'c') (some .viewer)]
  memberEpochs := ∅

def newKeys : List (String × Bytes) := [(sampleFp 'o', [7]), (sampleFp 'b', [8, 9])]

def rotated (policy : ReplicationPolicy) : CollectionDoc :=
  (threeSeats policy).authorRotateOnRemove "KB" (sampleFp 'c') newKeys (sampleFp 'o') ownerSigningKey 5

end Mae.Sync.Membership
