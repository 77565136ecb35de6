import Mathlib

/-! Document names as typed addresses. -/

namespace Mae.Sync

inductive DocAddress where
  | file (projectHash relPath : String)
  | kbNode (kbId nodeId : String)
  | kbCollection (kbId : String)
  | shared (name : String)
  deriving DecidableEq, Repr

namespace DocAddress

def toDocName : DocAddress → String
  | file projectHash relPath => "file:" ++ projectHash ++ "/" ++ relPath
  | kbNode kbId nodeId => "kbn:" ++ kbId ++ ":" ++ nodeId
  | kbCollection kbId => "kbc:" ++ kbId
  | shared name => "shared:" ++ name

def splitOnce (c : Char) (cs : List Char) : Option (String × String) :=
  match cs.span (· ≠ c) with
  | (before, _ :: after) => some (String.ofList before, String.ofList after)
  | (_, []) => none

def parse (s : String) : Option DocAddress :=
  match "file:".toList.isPrefixOf? s.toList with
  | some rest => (splitOnce '/' rest).bind fun (projectHash, relPath) =>
      if projectHash = "" ∨ relPath = "" then none else some (file projectHash relPath)
  | none =>
    match "kbc:".toList.isPrefixOf? s.toList with
    | some rest => if rest = [] then none else some (kbCollection (String.ofList rest))
    | none =>
      match "kbn:".toList.isPrefixOf? s.toList with
      -- at the first colon: a node id may contain colons, an addressable KB id may not
      | some rest => (splitOnce ':' rest).bind fun (kbId, nodeId) =>
          if kbId = "" ∨ nodeId = "" then none else some (kbNode kbId nodeId)
      | none =>
        match "shared:".toList.isPrefixOf? s.toList with
        | some rest => if rest = [] then none else some (shared (String.ofList rest))
        | none => none

def kbId? : DocAddress → Option String
  | kbNode kbId _ | kbCollection kbId => some kbId
  | file _ _ | shared _ => none

end DocAddress

open DocAddress

def isDurableDoc (name : String) : Bool := ((parse name).bind kbId?).isSome

variable (kbId nodeId : String)

def collectionDocName : String := (kbCollection kbId).toDocName

def kbNodeDocName : String := (kbNode kbId nodeId).toDocName

lemma toList_collectionDocName : (collectionDocName kbId).toList = 'k' :: 'b' :: 'c' :: ':' :: kbId.toList := by
  rw [collectionDocName, toDocName, String.toList_append]
  rfl

lemma kbNodeDocName_ne_collectionDocName (kbId' : String) : kbNodeDocName kbId nodeId ≠ collectionDocName kbId' := by
  intro h
  have hchars := congrArg String.toList h
  rw [toList_collectionDocName, kbNodeDocName, toDocName] at hchars
  simp at hchars

lemma DocAddress.splitOnce_append (c : Char) (a b : List Char) (h : c ∉ a) :
    splitOnce c (a ++ c :: b) = some (String.ofList a, String.ofList b) := by
  have hspan : (a ++ c :: b).span (· ≠ c) = (a, c :: b) := by
    rw [List.span_eq_takeWhile_dropWhile]
    have hall : ∀ x ∈ a, decide (x ≠ c) = true := fun x hx => by
      simpa using fun hxc : x = c => h (hxc ▸ hx)
    rw [List.takeWhile_append_of_pos hall, List.dropWhile_append_of_pos hall]
    simp
  rw [splitOnce, hspan]

lemma DocAddress.parse_kbNodeDocName (h : ':' ∉ kbId.toList) :
    parse (kbNodeDocName kbId nodeId) = if kbId = "" ∨ nodeId = "" then none else some (kbNode kbId nodeId) := by
  have hchars : (kbNodeDocName kbId nodeId).toList =
      'k' :: 'b' :: 'n' :: ':' :: (kbId.toList ++ ':' :: nodeId.toList) := by
    simp [kbNodeDocName, toDocName, String.toList_append]
  rw [parse, hchars]
  simp [List.isPrefixOf?, splitOnce_append _ _ _ h]

lemma DocAddress.parse_collectionDocName (h : kbId ≠ "") :
    parse (collectionDocName kbId) = some (kbCollection kbId) := by
  rw [parse, toList_collectionDocName]
  simp [List.isPrefixOf?, h]

lemma collectionDocName_injective : Function.Injective collectionDocName := by
  intro a b h
  have hchars := congrArg String.toList h
  simp only [toList_collectionDocName, List.cons.injEq, true_and] at hchars
  exact String.toList_inj.mp hchars

lemma eq_collectionDocName_of_parse {name kbId : String} (h : parse name = some (.kbCollection kbId)) :
    name = collectionDocName kbId := by
  rw [parse] at h
  split at h
  · obtain ⟨⟨projectHash, relPath⟩, -, heq⟩ := Option.bind_eq_some_iff.mp h
    simp at heq
  · split at h
    · next rest hrest =>
      split_ifs at h
      have hkb := kbCollection.inj (Option.some.inj h)
      apply String.toList_inj.mp
      rw [toList_collectionDocName, ← hkb, String.toList_ofList, ← List.isPrefixOf?_eq_some_iff_append_eq.mp hrest]
      rfl
    · split at h
      · obtain ⟨⟨kbId', nodeId⟩, -, heq⟩ := Option.bind_eq_some_iff.mp h
        simp at heq
      · split at h
        · split_ifs at h
          cases Option.some.inj h
        · cases h

lemma kbNodeDocName_injective : Function.Injective (kbNodeDocName kbId) := by
  intro a b h
  have hchars := congrArg String.toList h
  simp only [kbNodeDocName, toDocName, String.toList_append, List.append_cancel_left_eq] at hchars
  exact String.toList_inj.mp hchars

end Mae.Sync
