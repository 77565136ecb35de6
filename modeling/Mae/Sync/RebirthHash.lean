import Mae.Sync.Membership.Convergence
import Mae.Sync.Membership.SignedBytes

/-! The hash that a rebirth of a node signs, over all that the reborn node must reproduce. -/

namespace Mae.Sync

open Std (ExtTreeMap)
open Library.Checks Library.Framing Sync.Membership List

/-- A value of a `yrs` map, with the text it is shown as where that is not its own. -/
inductive Out where
  | any (text : String)
  | text (text : String)
  | array (items : List String) (json : String)
  | map (entries : ExtTreeMap String String) (json : String)

def Out.toStr : Out → String
  | .any s | .text s | .array _ s | .map _ s => s

structure KbNodeDoc where
  root : ExtTreeMap String Out

structure MaterializedNode where
  id : String
  title : String
  body : String
  tags : List String
  links : List String
  kind : Option String
  todoState : Option String
  priority : Option String
  aliases : List String
  properties : ExtTreeMap String String
  sourceVersion : Option UInt32
  source : Option String
  createdAt : Option ℤ

def parseU32 (s : String) : Option UInt32 :=
  (parseUsize s.toList).bind fun n => if n < 2 ^ 32 then some (UInt32.ofNat n) else none

def parseI64 (s : String) : Option ℤ :=
  match s.toList with
  | '-' :: '+' :: _ => none
  | '-' :: cs => (parseUsize cs).bind fun n => if n ≤ 2 ^ 63 then some (-n) else none
  | cs => (parseUsize cs).bind fun n => if n < 2 ^ 63 then some n else none

namespace KbNodeDoc

variable (doc : KbNodeDoc) (key : String)

def id : String := (doc.root["id"]?.map Out.toStr).getD ""

def textAt : String :=
  match doc.root[key]? with
  | some (.text s) => s
  | _ => ""

def arrayAt : List String :=
  match doc.root[key]? with
  | some (.array items _) => items
  | _ => []

def scalar : Option String :=
  (doc.root[key]?.map Out.toStr).filter fun s => s != ""

def properties : ExtTreeMap String String :=
  match doc.root["props"]? with
  | some (.map entries _) => entries
  | _ => ∅

def materialize : MaterializedNode where
  id := doc.id
  title := doc.textAt "title"
  body := doc.textAt "body"
  tags := doc.arrayAt "tags"
  links := doc.arrayAt "links"
  kind := doc.scalar "kind"
  todoState := doc.scalar "todo"
  priority := doc.scalar "prio"
  aliases := doc.arrayAt "aliases"
  properties := doc.properties
  sourceVersion := (doc.scalar "src_v").bind parseU32
  source := doc.scalar "source"
  createdAt := (doc.scalar "created").bind parseI64

end KbNodeDoc

namespace MaterializedNode

variable (mat : MaterializedNode)

def scalars : List String :=
  [mat.kind.getD "", mat.todoState.getD "", mat.priority.getD "", mat.source.getD "",
    (mat.sourceVersion.map fun v => toString v.toNat).getD ""]

def rebirthFields : List String :=
  "maerebirth/v1" :: mat.id :: mat.title :: mat.body ::
    (mat.tags ++ "|links|" :: (mat.links.insertionSort (· ≤ ·) ++ "|v2|" ::
      (mat.scalars ++ (mat.aliases.insertionSort (· ≤ ·) ++ "|props|" ::
        mat.properties.toList.flatMap fun p => [p.1, p.2]))))

def rebirthBytes : Bytes := mat.rebirthFields.flatMap field

end MaterializedNode

def KbNodeDoc.rebirthHash (C : Crypto) (doc : KbNodeDoc) : String :=
  hexEncode (C.sha256 doc.materialize.rebirthBytes)

structure KbContext where
  kbAnchor : Option Key32
  signer : Option Key32
  collection : Except String (String × List SignedMembershipOp)

def resolveContentAnchor (C : Crypto) (ctx : KbContext) : Option Key32 :=
  match ctx.kbAnchor with
  | some a => some a
  | none => do
    let signer ← ctx.signer
    let (owner, _) ← ctx.collection.toOption
    if owner ≠ "" ∧ owner = fingerprintOf C signer then some signer else none

/-- `decode` reads a document from its bytes, as `KbNodeDoc::from_bytes` does with the decoder of `yrs`. -/
def verifyRebirthBinding (C : Crypto) (decode : Bytes → Except String KbNodeDoc) (ctx : KbContext)
    (kbId nodeId : String) (state : Bytes) : Except String Unit := do
  let anchor ← (resolveContentAnchor C ctx).elim
    (.error ("KB '" ++ kbId ++ "' has no content anchor, so no rebirth can be verified")) .ok
  let (_, oplog) ← ctx.collection.mapError fun e => "rebirth: could not load collection '" ++ kbId ++ "': " ++ e
  let (_, signedHash) ← (deriveRebirths C oplog anchor)[nodeId]?.elim
    (.error ("rebirth: no owner-signed Rebirth op for node '" ++ nodeId ++ "' in KB '" ++ kbId ++
      "'              -- author the op first, or this is not a rebirth")) .ok
  let doc ← (decode state).mapError fun e => "rebirth: supplied state is not a decodable node doc: " ++ e
  let actual := doc.rebirthHash C
  if actual ≠ signedHash then
    .error ("rebirth: supplied state for '" ++ nodeId ++ "' hashes to " ++ actual ++
      " but the              owner signed " ++ signedHash ++
      " -- refusing to replace a node with content              the owner did not sign")
  else .ok ()

namespace MaterializedNode

structure SameContent (a b : MaterializedNode) : Prop where
  id : a.id = b.id
  title : a.title = b.title
  body : a.body = b.body
  tags : a.tags = b.tags
  kind : a.kind = b.kind
  todoState : a.todoState = b.todoState
  priority : a.priority = b.priority
  source : a.source = b.source
  sourceVersion : a.sourceVersion = b.sourceVersion
  properties : a.properties = b.properties
  links : a.links.Perm b.links
  aliases : a.aliases.Perm b.aliases

def texts (mat : MaterializedNode) : List String :=
  [mat.id, mat.title, mat.body] ++ mat.tags ++ mat.links ++ mat.kind.toList ++ mat.todoState.toList ++
    mat.priority.toList ++ mat.source.toList ++ mat.aliases ++ mat.properties.toList.flatMap fun p => [p.1, p.2]

structure Framed (mat : MaterializedNode) : Prop where
  nulFree : ∀ s ∈ mat.texts, NulFree s
  tags : "|links|" ∉ mat.tags
  links : "|v2|" ∉ mat.links
  aliases : "|props|" ∉ mat.aliases

structure Filtered (mat : MaterializedNode) : Prop where
  kind : mat.kind ≠ some ""
  todoState : mat.todoState ≠ some ""
  priority : mat.priority ≠ some ""
  source : mat.source ≠ some ""

end MaterializedNode

lemma KbNodeDoc.scalar_ne (doc : KbNodeDoc) (key : String) : doc.scalar key ≠ some "" := by
  intro h
  simpa using (Option.filter_eq_some_iff.mp h).2

lemma KbNodeDoc.filtered_materialize (doc : KbNodeDoc) : doc.materialize.Filtered where
  kind := doc.scalar_ne _
  todoState := doc.scalar_ne _
  priority := doc.scalar_ne _
  source := doc.scalar_ne _

lemma getD_inj_of_ne {a b : Option String} (ha : a ≠ some "") (hb : b ≠ some "") (h : a.getD "" = b.getD "") :
    a = b := by
  cases a with
  | none =>
    cases b with
    | none => rfl
    | some y => exact (hb (congrArg some h.symm)).elim
  | some x =>
    cases b with
    | none => exact (ha (congrArg some h)).elim
    | some y => exact congrArg some h

lemma perm_of_insertionSort_eq {xs ys : List String}
    (h : xs.insertionSort (· ≤ ·) = ys.insertionSort (· ≤ ·)) : xs.Perm ys := by
  have hx := perm_insertionSort (· ≤ ·) xs
  rw [h] at hx
  exact hx.symm.trans (perm_insertionSort (· ≤ ·) ys)

namespace MaterializedNode

variable {a b : MaterializedNode}

lemma Framed.nulFree_rebirthFields (ha : a.Framed) : ∀ s ∈ a.rebirthFields, NulFree s := by
  have hopt : ∀ o : Option String, (∀ s ∈ o.toList, s ∈ a.texts) → NulFree (o.getD "") := by
    intro o ho
    cases o with
    | none => decide
    | some s => exact ha.nulFree s (ho s (by simp))
  have hversion : NulFree ((a.sourceVersion.map fun v => toString v.toNat).getD "") := by
    cases a.sourceVersion with
    | none => decide
    | some v => exact nulFree_toString _
  have hscalars : ∀ s ∈ a.scalars, NulFree s := by
    simp only [scalars, forall_mem_cons, not_mem_nil, false_imp_iff, implies_true, and_true]
    refine ⟨hopt _ ?_, hopt _ ?_, hopt _ ?_, hopt _ ?_, hversion⟩
    all_goals
      intro s hs
      simp only [texts, mem_append, hs, true_or, or_true]
  have hmem : ∀ s, s ∈ a.texts → NulFree s := ha.nulFree
  simp only [texts, mem_append] at hmem
  simp only [rebirthFields, forall_mem_cons, forall_mem_append, mem_insertionSort]
  refine ⟨by decide, hmem _ (by simp), hmem _ (by simp), hmem _ (by simp), ?_, by decide, ?_, by decide, hscalars, ?_,
    by decide, ?_⟩
  all_goals
    intro s hs
    apply hmem
    simp only [hs, true_or, or_true]

lemma version_inj {v w : Option UInt32}
    (h : (v.map fun v => toString v.toNat).getD "" = (w.map fun v => toString v.toNat).getD "") : v = w := by
  apply getD_map_injective _ (fun v => toString_ne_empty _) h
  exact fun _ _ hn => UInt32.toNat_inj.mp (toString_injective hn)

lemma properties_inj (h : (a.properties.toList.flatMap fun p => [p.1, p.2]) =
    b.properties.toList.flatMap fun p => [p.1, p.2]) : a.properties = b.properties := by
  apply Std.ExtTreeMap.toList_inj.mp
  refine flatMap_injective_of_length ?_ (fun _ => rfl) h
  intro p q hpq
  simp only [List.cons.injEq, and_true] at hpq
  exact Prod.ext hpq.1 hpq.2

lemma sameContent_of_rebirthBytes (ha : a.Framed) (hb : b.Framed) (ha' : a.Filtered) (hb' : b.Filtered)
    (h : a.rebirthBytes = b.rebirthBytes) : a.SameContent b := by
  have hfields := fields_of_bytes ha.nulFree_rebirthFields hb.nulFree_rebirthFields h
  simp only [rebirthFields, List.cons.injEq, true_and] at hfields
  obtain ⟨hid, htitle, hbody, hfields⟩ := hfields
  obtain ⟨htags, hfields⟩ := append_terminator_inj ha.tags hb.tags hfields
  obtain ⟨hlinks, hfields⟩ := append_terminator_inj (by simpa using ha.links) (by simpa using hb.links) hfields
  obtain ⟨hscalars, hfields⟩ := append_inj hfields rfl
  obtain ⟨haliases, hprops⟩ := append_terminator_inj (by simpa using ha.aliases) (by simpa using hb.aliases) hfields
  simp only [scalars, List.cons.injEq, and_true] at hscalars
  obtain ⟨hkind, htodo, hpriority, hsource, hversion⟩ := hscalars
  exact {
    id := hid
    title := htitle
    body := hbody
    tags := htags
    kind := getD_inj_of_ne ha'.kind hb'.kind hkind
    todoState := getD_inj_of_ne ha'.todoState hb'.todoState htodo
    priority := getD_inj_of_ne ha'.priority hb'.priority hpriority
    source := getD_inj_of_ne ha'.source hb'.source hsource
    sourceVersion := version_inj hversion
    properties := properties_inj hprops
    links := perm_of_insertionSort_eq hlinks
    aliases := perm_of_insertionSort_eq haliases }

end MaterializedNode

lemma of_verifyRebirthBinding {C : Crypto} {decode : Bytes → Except String KbNodeDoc} {ctx : KbContext}
    {kbId nodeId : String} {state : Bytes} (h : verifyRebirthBinding C decode ctx kbId nodeId state = .ok ()) :
    ∃ anchor owner oplog doc epoch, resolveContentAnchor C ctx = some anchor ∧
      ctx.collection = .ok (owner, oplog) ∧ decode state = .ok doc ∧
      (deriveRebirths C oplog anchor)[nodeId]? = some (epoch, doc.rebirthHash C) := by
  obtain ⟨anchor, hanchor, h⟩ := bind_ok_iff.mp h
  obtain ⟨⟨owner, oplog⟩, hcoll, h⟩ := bind_ok_iff.mp h
  obtain ⟨⟨epoch, signed⟩, hsigned, h⟩ := bind_ok_iff.mp h
  obtain ⟨doc, hdoc, h⟩ := bind_ok_iff.mp h
  dsimp only at h
  split_ifs at h with hne
  rw [elim_ok_iff, ← not_not.mp hne] at hsigned
  exact ⟨anchor, owner, oplog, doc, epoch, elim_ok_iff.mp hanchor, mapError_ok_iff.mp hcoll, mapError_ok_iff.mp hdoc,
    hsigned⟩

theorem rebirth_hash_determines_content (C : Crypto) (hsha : Function.Injective C.sha256) :
    (∀ d d' : KbNodeDoc, d.materialize.Framed → d'.materialize.Framed →
      d.materialize.rebirthBytes = d'.materialize.rebirthBytes → d.materialize.SameContent d'.materialize) ∧
    ∀ (decode : Bytes → Except String KbNodeDoc) (ctx : KbContext) (kbId nodeId : String) (state : Bytes),
      verifyRebirthBinding C decode ctx kbId nodeId state = .ok () →
      ∃ anchor owner oplog doc, resolveContentAnchor C ctx = some anchor ∧ ctx.collection = .ok (owner, oplog) ∧
        decode state = .ok doc ∧ ∃ o ∈ cryptoValid C oplog, o.op.action = .rebirth ∧ o.op.subject = nodeId ∧
          isOwnerPrincipal C oplog anchor o.op.author = true ∧
          ∀ signed : KbNodeDoc, o.op.contentHash = some (signed.rebirthHash C) → signed.materialize.Framed →
            doc.materialize.Framed → doc.materialize.SameContent signed.materialize := by
  have hcontent : ∀ d d' : KbNodeDoc, d.materialize.Framed → d'.materialize.Framed →
      d.materialize.rebirthBytes = d'.materialize.rebirthBytes → d.materialize.SameContent d'.materialize :=
    fun d d' hd hd' => MaterializedNode.sameContent_of_rebirthBytes hd hd' d.filtered_materialize
      d'.filtered_materialize
  refine ⟨hcontent, ?_⟩
  intro decode ctx kbId nodeId state hok
  obtain ⟨anchor, owner, oplog, doc, epoch, hanchor, hcoll, hdoc, hget⟩ := of_verifyRebirthBinding hok
  obtain ⟨⟨o, ho, haction, howner, hsubject, -, hhash, -⟩, -⟩ := deriveRebirths_eq_some_iff.mp hget
  refine ⟨anchor, owner, oplog, doc, hanchor, hcoll, hdoc, o, ho, haction, hsubject, howner, ?_⟩
  intro signed hsigned hframed hframed'
  apply hcontent doc signed hframed' hframed
  apply hsha
  exact hexEncode_injective (Option.mem_unique hhash hsigned)

def Membership.Crypto.transparent : Crypto := { Crypto.sample with sha256 := fun b => 0 :: b, sha256_ne_nil := by simp }

lemma Membership.Crypto.transparent_injective : Function.Injective Crypto.transparent.sha256 :=
  fun _ _ h => tail_eq_of_cons_eq h

def sampleNode (tags links : List String) : KbNodeDoc where
  root := (∅ : ExtTreeMap String Out).insert "id" (.any "n") |>.insert "tags" (.array tags "")
    |>.insert "links" (.array links "")

def sampleOwner : String := fingerprintOf .transparent (sampleKey 'o')

def sampleBirth : SignedMembershipOp :=
  sampleSigned 1 'o' { sampleOp "" 'o' .admits sampleOwner (some .owner) with author := sampleOwner }

/-- A KB of the owner `o`, who signed the rebirth of the node `n` with the content of `doc`. -/
def sampleRebirth (doc : KbNodeDoc) : KbContext where
  kbAnchor := some (sampleKey 'o')
  signer := none
  collection := .ok (sampleOwner, [sampleBirth, sampleSigned 2 'o'
    { sampleOp (sampleBirth.chainHash .transparent) 'o' .rebirth "n" none with
      author := sampleOwner, contentHash := some (doc.rebirthHash .transparent) }])

theorem rebirth_of_sample_keeps_links : verifyRebirthBinding .transparent (fun _ => .ok (sampleNode ["a"] ["x", "y"]))
        (sampleRebirth (sampleNode ["a"] ["y", "x"])) "KB" "n" [] = .ok () ∧
      (sampleNode ["a"] ["x", "y"]).materialize.SameContent (sampleNode ["a"] ["y", "x"]).materialize := by
  have hframed : ∀ links ∈ [["x", "y"], ["y", "x"]], (sampleNode ["a"] links).materialize.Framed := by
    simp only [forall_mem_cons, not_mem_nil, false_imp_iff, implies_true, and_true]
    exact ⟨⟨by decide +kernel, by decide +kernel, by decide +kernel, by decide +kernel⟩,
      ⟨by decide +kernel, by decide +kernel, by decide +kernel, by decide +kernel⟩⟩
  refine ⟨by decide +kernel, ?_⟩
  apply (rebirth_hash_determines_content .transparent Crypto.transparent_injective).1
  · exact hframed _ (by simp)
  · exact hframed _ (by simp)
  · decide +kernel

theorem rebirth_accepts_moved_marker :
    (sampleNode ["|links|"] []).materialize.rebirthBytes = (sampleNode [] ["|links|"]).materialize.rebirthBytes ∧
      (sampleNode ["|links|"] []).materialize.tags ≠ (sampleNode [] ["|links|"]).materialize.tags ∧
      verifyRebirthBinding .transparent (fun _ => .ok (sampleNode ["|links|"] []))
        (sampleRebirth (sampleNode [] ["|links|"])) "KB" "n" [] = .ok () := by
  decide +kernel

end Mae.Sync
