import Mae.Sync.Membership.CryptoValid

/-! The op tree rooted at an anchored genesis: strict ancestors and causal order. -/

namespace Mae.Sync.Membership

open Std

def ancestorsLoop (byHash : OpIndex) : ℕ → String → Finset String → Finset String
  | 0, _, set => set
  | fuel + 1, cur, set =>
    if cur = "" then set
    else if cur ∈ set then set
    else match byHash[cur]? with
      | some r => ancestorsLoop byHash fuel r.op.prevHash (insert cur set)
      | none => insert cur set

def parentHash (byHash : OpIndex) (h : String) : String := ((byHash[h]?).map (·.op.prevHash)).getD ""

def ancestors (byHash : OpIndex) (h : String) : Finset String :=
  ancestorsLoop byHash (byHash.size + 2) (parentHash byHash h) ∅

abbrev ChildIndex := ExtTreeMap String (ExtTreeSet String)

def childIndex (byHash : OpIndex) : ChildIndex :=
  byHash.foldl (fun m h o => m.insert o.op.prevHash ((m[o.op.prevHash]?.getD ∅).insert h)) ∅

def emit (s : Finset String × List String) (h : String) : Finset String × List String :=
  if h ∈ s.1 then s else (insert h s.1, s.2 ++ [h])

def nextFrontier (children : ChildIndex) (emitted : Finset String) (frontier : List String) : List String :=
  frontier.flatMap fun h => (children[h]?.getD ∅).toList.filter fun c => c ∉ emitted

def causalLoop (children : ChildIndex) : ℕ → Finset String → List String → List String → List String
  | 0, _, order, _ => order
  | fuel + 1, emitted, order, frontier =>
    if frontier.isEmpty then order
    else
      let sorted := frontier.insertionSort (· ≤ ·)
      let s := sorted.foldl emit (emitted, order)
      causalLoop children fuel s.1 s.2 (nextFrontier children s.1 sorted)

def causalOrder (byHash : OpIndex) (genesis : String) : List String :=
  if genesis ∈ byHash then causalLoop (childIndex byHash) (byHash.size + 1) ∅ [] [genesis] else []

end Mae.Sync.Membership
