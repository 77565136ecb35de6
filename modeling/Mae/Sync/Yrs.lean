import Mae.Sync.CollectionRoot

/-! What the daemon relies on in `yrs`. -/

namespace Mae.Sync

open Sync.Membership

structure Yrs where
  Doc : Type
  Update : Type
  blank : Doc
  apply : Doc → Update → Doc
  encode : Doc → Update
  root : Doc → Root
  record : Doc → List Write → Update
  /-- `update_new_op_authors`. -/
  newOpAuthors : Doc → Update → List UInt64
  bytes : Update → Bytes
  apply_encode : ∀ d, apply blank (encode d) = d
  apply_apply : ∀ d u, apply (apply d u) u = apply d u
  root_record : ∀ d ws, root (apply d (record d ws)) = (root d).writes ws

namespace Yrs

def transact (Y : Yrs) (d : Y.Doc) (ws : List Write) : Y.Doc := Y.apply d (Y.record d ws)

abbrev SampleUpdate := List ((UInt64 × ℕ) × List Write)

structure SampleDoc where
  txns : SampleUpdate
  nodup : txns.Nodup

def SampleDoc.apply (d : SampleDoc) (u : SampleUpdate) : SampleDoc where
  txns := d.txns ++ u.dedup.filter fun t => t ∉ d.txns
  nodup := by
    refine d.nodup.append (u.nodup_dedup.filter _) fun t ht hnew => ?_
    simpa [ht] using (List.mem_filter.mp hnew).2

def newWrites (d : SampleDoc) (u : SampleUpdate) : List Write :=
  (u.dedup.filter fun t => t ∉ d.txns).flatMap Prod.snd

def SampleDoc.root (d : SampleDoc) : Root := (d.txns.flatMap Prod.snd).foldl Root.write ∅

def SampleDoc.fresh (d : SampleDoc) : ℕ := (d.txns.map fun t => t.1.2 + 1).foldr max 0

lemma SampleDoc.fresh_notMem (d : SampleDoc) (ws : List Write) : ((0, d.fresh), ws) ∉ d.txns := by
  have hle : ∀ t ∈ d.txns, t.1.2 < d.fresh := by
    intro t ht
    have hmem : t.1.2 + 1 ∈ d.txns.map fun t => t.1.2 + 1 := List.mem_map.mpr ⟨t, ht, rfl⟩
    exact List.le_max_of_le' 0 hmem le_rfl
  intro hmem
  exact lt_irrefl _ (hle _ hmem)

def sample : Yrs where
  Doc := SampleDoc
  Update := SampleUpdate
  blank := ⟨[], List.nodup_nil⟩
  apply := SampleDoc.apply
  encode d := d.txns
  root := SampleDoc.root
  record d ws := [((0, d.fresh), ws)]
  newOpAuthors d u := ((u.filter fun t => t ∉ d.txns).map fun t => t.1.1).dedup
  bytes u := u.flatMap fun t => [UInt8.ofNat t.1.1.toNat, UInt8.ofNat t.1.2]
  apply_encode d := by
    simp [SampleDoc.apply, d.nodup.dedup]
  apply_apply d u := by
    simp +contextual [SampleDoc.apply]
  root_record d ws := by
    simp [SampleDoc.apply, SampleDoc.root, d.fresh_notMem ws, Root.writes]

end Yrs

end Mae.Sync
