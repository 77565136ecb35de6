import Mathlib

/-! The anchors of a page's headings. -/

namespace Mae.Org

/-- The character tables of the crate, which are generated: case folding, and the letters and digits. -/
structure CharTables where
  canon : Char → Char
  isAlnum : Char → Bool
  canon_canon : ∀ c, canon (canon c) = canon c
  canon_hyphen : canon '-' = '-'
  alnum_hyphen : isAlnum '-' = false

abbrev AnchorId := List Char

def lenBytes (s : List Char) : ℕ := (s.map Char.utf8Size).sum

def slugMax : ℕ := 64

def separator (out : List Char) (dash : Bool) : List Char := if dash && out != [] then ['-'] else []

def slugFrom (T : CharTables) (out : List Char) (dash : Bool) : List Char → List Char
  | [] => out
  | c :: title =>
    if T.isAlnum (T.canon c) then
      if lenBytes out + (separator out dash).length + (T.canon c).utf8Size > slugMax then out
      else slugFrom T (out ++ separator out dash ++ [T.canon c]) false title
    else slugFrom T out true title

def slug (T : CharTables) (title : List Char) : List Char := slugFrom T [] false title

def headingAnchor (T : CharTables) (title : List Char) : AnchorId :=
  if slug T title = [] then ['h'] else ['h', '-'] ++ slug T title

structure Ids where
  used : Finset AnchorId
  next : AnchorId → Option ℕ

namespace Ids

def suffixed (base : AnchorId) (n : ℕ) : AnchorId := base ++ '-' :: '-' :: (Nat.repr n).toList

-- The numbers run on past all that are used, so that the fuel suffices.
def firstFree (used : Finset AnchorId) (base : AnchorId) : ℕ → ℕ → Option ℕ
  | 0, _ => none
  | fuel + 1, n => if suffixed base n ∈ used then firstFree used base fuel (n + 1) else some n

def claim (ids : Ids) (base : AnchorId) : Option (AnchorId × Ids) :=
  if base ∉ ids.used then some (base, { ids with used := insert base ids.used })
  else (firstFree ids.used base (ids.used.card + 1) ((ids.next base).getD 2)).map fun n =>
    (suffixed base n,
      { used := insert (suffixed base n) ids.used, next := Function.update ids.next base (some (n + 1)) })

def tryClaim (ids : Ids) (id : AnchorId) : Option AnchorId × Ids :=
  if id ∉ ids.used then (some id, { ids with used := insert id ids.used }) else (none, ids)

end Ids

section Slugs

variable {T : CharTables} {s out rest title : List Char} {dash : Bool}

def NotBoth (a b : Char) : Prop := ¬(a = '-' ∧ b = '-')

structure Clean (T : CharTables) (s : List Char) : Prop where
  kept : ∀ c ∈ s, c = '-' ∨ T.canon c = c ∧ T.isAlnum c = true
  head : s.head? ≠ some '-'
  last : s.getLast? ≠ some '-'
  single : s.IsChain NotBoth
  short : lenBytes s ≤ slugMax

lemma clean_nil : Clean T [] := ⟨by simp, by simp, by simp, .nil, Nat.zero_le _⟩

lemma CharTables.ne_hyphen {c : Char} (h : T.isAlnum c = true) : c ≠ '-' := fun he => by
  rw [he, T.alnum_hyphen] at h
  cases h

lemma lenBytes_push (out : List Char) (dash : Bool) (k : Char) :
    lenBytes (out ++ separator out dash ++ [k]) = lenBytes out + (separator out dash).length + k.utf8Size := by
  have hsep : lenBytes (separator out dash) = (separator out dash).length := by
    rw [separator]
    split <;> rfl
  simp only [lenBytes, List.map_append, List.sum_append, List.map_cons, List.map_nil, List.sum_singleton] at *
  omega

lemma Clean.push {k : Char} (h : Clean T out) (hk : T.canon k = k ∧ T.isAlnum k = true)
    (hlen : lenBytes out + (separator out dash).length + k.utf8Size ≤ slugMax) :
    Clean T (out ++ separator out dash ++ [k]) := by
  have hne : k ≠ '-' := CharTables.ne_hyphen hk.2
  refine ⟨?_, ?_, ?_, ?_, (lenBytes_push out dash k).trans_le hlen⟩
  · intro c hc
    simp only [List.mem_append, List.mem_singleton] at hc
    obtain (hc | hc) | rfl := hc
    · exact h.kept c hc
    · rw [separator] at hc
      split at hc
      · exact .inl (List.mem_singleton.mp hc)
      · cases hc
    · exact .inr hk
  · cases out with
    | nil => simpa [separator] using hne
    | cons c out => exact h.head
  · simpa using hne
  · refine List.isChain_append.mpr ⟨?_, List.isChain_singleton k, ?_⟩
    · rw [separator]
      split
      · refine List.isChain_append.mpr ⟨h.single, List.isChain_singleton _, ?_⟩
        intro a ha b _ hboth
        exact h.last (hboth.1 ▸ ha)
      · simpa using h.single
    · intro a _ b hb hboth
      simp only [List.head?_cons, Option.mem_some_iff] at hb
      exact hne (hb.trans hboth.2)

lemma Clean.slugFrom (h : Clean T out) : Clean T (slugFrom T out dash title) := by
  induction title generalizing out dash with
  | nil => exact h
  | cons c title ih =>
    rw [Org.slugFrom]
    split_ifs with hk hlen
    · exact h
    · exact ih (h.push ⟨T.canon_canon c, hk⟩ (not_lt.mp hlen))
    · exact ih h

lemma clean_slug (T : CharTables) (title : List Char) : Clean T (slug T title) := clean_nil.slugFrom

lemma slugFrom_of_clean (h : Clean T (out ++ separator out dash ++ rest)) (hdash : dash = true → out ≠ []) :
    slugFrom T out dash rest = out ++ separator out dash ++ rest := by
  induction rest generalizing out dash with
  | nil =>
    cases dash with
    | false => simp [slugFrom, separator]
    | true =>
      refine absurd ?_ h.last
      simp [separator, hdash rfl]
  | cons c rest ih =>
    rw [slugFrom]
    obtain rfl | ⟨hcanon, hk⟩ := h.kept c (by simp)
    · -- a hyphen: none has been read, and it does not come first
      obtain rfl : dash = false := by
        by_contra hd
        rw [Bool.not_eq_false] at hd
        have hchain := (List.isChain_append.mp h.single).2.2 '-' (by simp [separator, hd, hdash hd]) '-' (by simp)
        exact hchain ⟨rfl, rfl⟩
      have hout : out ≠ [] := fun he => h.head (by simp [he, separator])
      rw [T.canon_hyphen, if_neg (by simp [T.alnum_hyphen])]
      have hsep : out ++ separator out true ++ rest = out ++ separator out false ++ '-' :: rest := by
        simp [separator, hout]
      rw [← hsep] at h ⊢
      exact ih h fun _ => hout
    · have hshort := h.short
      have hsep : out ++ separator out dash ++ [c] ++ separator (out ++ separator out dash ++ [c]) false ++ rest =
          out ++ separator out dash ++ c :: rest := by simp [separator]
      rw [hcanon, if_pos hk, if_neg, ih (hsep.symm ▸ h) (by simp), hsep]
      rw [← List.singleton_append, ← List.append_assoc, lenBytes, List.map_append, List.sum_append] at hshort
      have := lenBytes_push out dash c
      rw [lenBytes] at this
      omega

lemma slug_slug (T : CharTables) (title : List Char) : slug T (slug T title) = slug T title :=
  slugFrom_of_clean (by simpa [separator] using clean_slug T title) (fun h => nomatch h)

end Slugs

/-! Repeats of a heading. -/

section Repeats

variable {T : CharTables} {b b' : AnchorId} {n n' : ℕ} {title title' : List Char}

structure Plain (b : AnchorId) : Prop where
  single : b.IsChain NotBoth
  last : b.getLast? ≠ some '-'
  head : b.head? = some 'h'

lemma plain_headingAnchor (T : CharTables) (title : List Char) : Plain (headingAnchor T title) := by
  have hslug := clean_slug T title
  rw [headingAnchor]
  split
  · exact ⟨List.isChain_singleton 'h', by decide, rfl⟩
  · rename_i hne
    refine ⟨List.isChain_append.mpr ⟨?_, hslug.single, fun a _ c hc hboth => hslug.head (hboth.2 ▸ hc)⟩, ?_, rfl⟩
    · simp [NotBoth]
    · rw [List.getLast?_append_of_ne_nil _ hne]
      exact hslug.last

lemma headingAnchor_inj : headingAnchor T title = headingAnchor T title' ↔ slug T title = slug T title' := by
  rw [headingAnchor, headingAnchor]
  split_ifs with h h' h'
  · simp [h, h']
  · simp [h, Ne.symm h']
  · simp [h, h']
  · simp

lemma suffixed_ne (hb' : Plain b') : Ids.suffixed b n ≠ b' := by
  rintro rfl
  have hchain := (List.isChain_append.mp hb'.single).2.1
  exact (List.isChain_cons_cons.mp hchain).1 ⟨rfl, rfl⟩

lemma suffixed_inj (hb : Plain b) (hb' : Plain b') (h : Ids.suffixed b n = Ids.suffixed b' n') : b = b' ∧ n = n' := by
  -- what one base has more than the other begins with a hyphen: it is none, or the base ends in one or has two in a row
  have hmore : ∀ {b b' as : AnchorId} {x y : List Char}, Plain b' → b' = b ++ as →
      '-' :: '-' :: x = as ++ '-' :: '-' :: y → as = [] := by
    intro b b' as x y hb' hsplit heq
    match as, heq with
    | [], _ => rfl
    | [_], heq =>
      cases heq
      exact absurd (by simp [hsplit]) hb'.last
    | a :: a' :: as, heq =>
      obtain ⟨rfl, rfl, -⟩ := heq
      have hchain := (List.isChain_append.mp (hsplit ▸ hb'.single)).2.1
      exact absurd ⟨rfl, rfl⟩ (List.isChain_cons_cons.mp hchain).1
  have hbase : b = b' := by
    obtain ⟨as, hsplit, heq⟩ | ⟨as, hsplit, heq⟩ := List.append_eq_append_iff.mp h
    · rw [hsplit, hmore hb' hsplit heq, List.append_nil]
    · rw [hsplit, hmore hb hsplit heq, List.append_nil]
  subst hbase
  have hdigits : (Nat.repr n).toList = (Nat.repr n').toList := by simpa [Ids.suffixed] using h
  exact ⟨rfl, Nat.repr_injective (String.toList_inj.mp hdigits)⟩

/-- The id of the `k`-th heading with one anchor. -/
def numbered (base : AnchorId) (k : ℕ) : AnchorId := if k = 1 then base else Ids.suffixed base k

lemma numbered_inj (hb : Plain b) (hb' : Plain b') (h : numbered b n = numbered b' n') : b = b' ∧ n = n' := by
  rw [numbered, numbered] at h
  split_ifs at h with hn hn'
  · exact ⟨h, hn.trans hn'.symm⟩
  · exact absurd h.symm (suffixed_ne hb)
  · exact absurd h (suffixed_ne hb')
  · exact suffixed_inj hb hb' h

lemma head_numbered (hb : Plain b) : (numbered b n).head? = some 'h' := by
  have hne : b ≠ [] := fun he => by simpa [he] using hb.head
  rw [numbered]
  split
  · exact hb.head
  · rw [Ids.suffixed, List.head?_append_of_ne_nil _ hne]
    exact hb.head

end Repeats

/-! Pages. -/

/-- A claim made while a page is rendered: for a heading, or for the id of a node or a custom id. -/
inductive Call where
  | heading (title : List Char)
  | id (rest : List Char)
  | cid (rest : List Char)

namespace Call

def nodeId : Call → Option AnchorId
  | heading _ => none
  | id rest => some (['i', 'd', '-'] ++ rest)
  | cid rest => some (['c', 'i', 'd', '-'] ++ rest)

def slug (T : CharTables) : Call → Option (List Char)
  | heading title => some (Org.slug T title)
  | id _ | cid _ => none

end Call

def step (T : CharTables) (ids : Ids) : Call → Option (Option AnchorId × Ids)
  | .heading title => (ids.claim (headingAnchor T title)).map fun r => (some r.1, r.2)
  | .id rest => some (ids.tryClaim (['i', 'd', '-'] ++ rest))
  | .cid rest => some (ids.tryClaim (['c', 'i', 'd', '-'] ++ rest))

def run (T : CharTables) (ids : Ids) : List Call → Option (List (Option AnchorId) × Ids)
  | [] => some ([], ids)
  | c :: calls => (step T ids c).bind fun r => (run T r.2 calls).map fun r' => (r.1 :: r'.1, r'.2)

def headings (T : CharTables) (s : List Char) (calls : List Call) : ℕ := calls.countP fun c => c.slug T == some s

section Pages

variable {T : CharTables} {ids ids' : Ids} {done calls : List Call} {c : Call} {title : List Char}

structure Given (T : CharTables) (done : List Call) (ids : Ids) : Prop where
  used : ∀ id, id ∈ ids.used ↔
    (∃ title k, 1 ≤ k ∧ k ≤ headings T (slug T title) done ∧ id = numbered (headingAnchor T title) k) ∨
      ∃ c ∈ done, c.nodeId = some id
  next : ∀ title, (ids.next (headingAnchor T title)).getD 2 = max 2 (headings T (slug T title) done + 1)

lemma headings_append (s : List Char) : headings T s (done ++ [c]) =
    headings T s done + if c.slug T = some s then 1 else 0 := by
  simp [headings, List.countP_append, List.countP_cons]

section

variable (h : Given T done ids)
include h

lemma Given.nodes {id : AnchorId} (hid : id.head? = some 'h') :
    id ∈ ids.used ↔ ∃ title k, 1 ≤ k ∧ k ≤ headings T (slug T title) done ∧ id = numbered (headingAnchor T title)
      k := by
  rw [h.used, or_iff_left]
  rintro ⟨c, -, hc⟩
  cases c with
  | heading title => cases hc
  | id rest =>
    cases hc
    simp at hid
  | cid rest =>
    cases hc
    simp at hid

lemma Given.numbered_mem_iff {k : ℕ} (hk : 1 ≤ k) :
    numbered (headingAnchor T title) k ∈ ids.used ↔ k ≤ headings T (slug T title) done := by
  have hplain := plain_headingAnchor T title
  rw [h.nodes (head_numbered hplain)]
  constructor
  · rintro ⟨title', k', -, hk', heq⟩
    obtain ⟨hanchor, rfl⟩ := numbered_inj hplain (plain_headingAnchor T title') heq
    rwa [headingAnchor_inj.mp hanchor]
  · intro hle
    exact ⟨title, k, hk, hle, rfl⟩

lemma Given.claim (title : List Char) : ∃ next, ids.claim (headingAnchor T title) = some
      (numbered (headingAnchor T title) (headings T (slug T title) done + 1), ⟨insert (numbered (headingAnchor T title)
        (headings T (slug T title) done + 1)) ids.used, next⟩)
      ∧ ∀ title', (next (headingAnchor T title')).getD 2 = max 2
      (headings T (slug T title') (done ++ [.heading title]) + 1) := by
  have hfree : numbered (headingAnchor T title) (headings T (slug T title) done + 1) ∉ ids.used := fun hmem =>
    Nat.not_succ_le_self _ ((h.numbered_mem_iff (by omega)).mp hmem)
  have hfirst : numbered (headingAnchor T title) 1 ∈ ids.used ↔ _ := h.numbered_mem_iff le_rfl
  rw [Ids.claim]
  by_cases hzero : headings T (slug T title) done = 0
  · have hone : numbered (headingAnchor T title) 1 = headingAnchor T title := rfl
    rw [hzero, hone] at hfree
    refine ⟨ids.next, ?_, fun title' => ?_⟩
    · rw [if_pos hfree, hzero, hone]
    · rw [h.next, headings_append]
      split
      · rename_i heq
        rw [← Option.some.inj heq, hzero]
        rfl
      · rfl
  · have hused : headingAnchor T title ∈ ids.used := hfirst.mpr (by omega)
    have hnumber : numbered (headingAnchor T title) (headings T (slug T title) done + 1) =
        Ids.suffixed (headingAnchor T title) (headings T (slug T title) done + 1) := if_neg (by omega)
    have hnext : (ids.next (headingAnchor T title)).getD 2 = headings T (slug T title) done + 1 := by
      rw [h.next]
      omega
    rw [hnumber] at hfree ⊢
    refine ⟨Function.update ids.next (headingAnchor T title) (some (headings T (slug T title) done + 1 + 1)), ?_,
      fun title' => ?_⟩
    · rw [if_neg (not_not.mpr hused), hnext, Ids.firstFree, if_neg hfree, Option.map_some]
    · rw [headings_append, Function.update_apply]
      split
      · rename_i heq
        rw [headingAnchor_inj] at heq
        simp only [Call.slug, heq, if_true, Option.getD_some]
        omega
      · rename_i hne
        have hslug : (Call.heading title).slug T ≠ some (slug T title') := fun heq =>
          hne (headingAnchor_inj.mpr (Option.some.inj heq).symm)
        rw [h.next, if_neg hslug]

lemma Given.tryClaim {node : AnchorId} (hslug : c.slug T = none) (hc : c.nodeId = some node) :
    Given T (done ++ [c]) (ids.tryClaim node).2 where
  used id := by
    have hmem : id ∈ (ids.tryClaim node).2.used ↔ id ∈ ids.used ∨ id = node := by
      rw [Ids.tryClaim]
      split
      · rw [Finset.mem_insert, or_comm]
      · rename_i hused
        exact ⟨.inl, fun hor => hor.elim (fun h => h) fun he => he ▸ not_not.mp hused⟩
    have hnode : (∃ c' ∈ done ++ [c], c'.nodeId = some id) ↔ (∃ c' ∈ done, c'.nodeId = some id) ∨ id = node := by
      simp [or_and_right, exists_or, hc, eq_comm]
    simp only [hmem, h.used, hnode, headings_append, hslug, reduceCtorEq, if_false, add_zero, or_assoc]
  next title := by
    have hnext : (ids.tryClaim node).2.next = ids.next := by
      rw [Ids.tryClaim]
      split <;> rfl
    rw [hnext, h.next, headings_append, hslug]
    rfl

lemma Given.heading {next : AnchorId → Option ℕ}
    (hnext : ∀ title', (next (headingAnchor T title')).getD 2 = max 2 (headings T (slug T title') (done ++ [.heading
      title]) + 1)) :
    Given T (done ++ [.heading title])
      ⟨insert (numbered (headingAnchor T title) (headings T (slug T title) done + 1)) ids.used, next⟩ where
  used id := by
    have hnode : (∃ c' ∈ done ++ [Call.heading title], c'.nodeId = some id) ↔ ∃ c' ∈ done, c'.nodeId = some id := by
      simp [or_and_right, exists_or, Call.nodeId]
    rw [Finset.mem_insert, h.used, hnode, ← or_assoc]
    refine or_congr_left ⟨?_, ?_⟩
    · rintro (rfl | ⟨title', k, hk, hle, rfl⟩)
      · refine ⟨title, _, Nat.le_add_left 1 _, ?_, rfl⟩
        rw [headings_append, Call.slug, if_pos rfl]
      · exact ⟨title', k, hk, hle.trans (headings_append _ ▸ Nat.le_add_right _ _), rfl⟩
    · rintro ⟨title', k, hk, hle, rfl⟩
      rw [headings_append] at hle
      split at hle
      · rename_i heq
        have hslug : slug T title = slug T title' := Option.some.inj heq
        obtain hlt | rfl := hle.lt_or_eq
        · exact .inr ⟨title', k, hk, Nat.lt_succ_iff.mp hlt, rfl⟩
        · exact .inl (by rw [headingAnchor_inj.mpr hslug, hslug])
      · exact .inr ⟨title', k, hk, hle, rfl⟩
  next := hnext

end

structure Answers (T : CharTables) (done : List Call) (ids : Ids) (c : Call) (a : Option AnchorId) (ids' : Ids) :
    Prop where
  given : Given T (done ++ [c]) ids'
  used : ∀ id, id ∈ ids'.used ↔ id ∈ ids.used ∨ id ∈ a
  free : ∀ id ∈ a, id ∉ ids.used
  heading : ∀ title, c = .heading title →
    a = some (numbered (headingAnchor T title) (headings T (slug T title) done + 1))

lemma Given.step (h : Given T done ids) (c : Call) :
    ∃ a ids', Org.step T ids c = some (a, ids') ∧ Answers T done ids c a ids' := by
  have hnode : ∀ {node : AnchorId}, c.slug T = none → c.nodeId = some node →
      Answers T done ids c (ids.tryClaim node).1 (ids.tryClaim node).2 := by
    intro node hslug hc
    refine ⟨h.tryClaim hslug hc, fun id => ?_, fun id hid => ?_, fun title he => ?_⟩
    · rw [Ids.tryClaim]
      split
      · simp [or_comm, eq_comm]
      · simp
    · rw [Ids.tryClaim] at hid
      split at hid
      · rename_i hfree
        exact Option.some.inj hid ▸ hfree
      · cases hid
    · rw [he] at hc
      cases hc
  cases c with
  | heading title =>
    obtain ⟨next, hclaim, hnext⟩ := h.claim title
    refine ⟨_, _, by rw [Org.step, hclaim]; rfl, h.heading hnext, fun id => ?_, fun id hid => ?_, ?_⟩
    · rw [Finset.mem_insert, or_comm, Option.mem_some_iff, eq_comm]
    · cases hid
      exact fun hmem => Nat.not_succ_le_self _ ((h.numbered_mem_iff (Nat.le_add_left 1 _)).mp hmem)
    · rintro title' ⟨⟩
      rfl
  | id rest => exact ⟨_, _, rfl, hnode rfl rfl⟩
  | cid rest => exact ⟨_, _, rfl, hnode rfl rfl⟩

lemma Given.run (h : Given T done ids) (calls : List Call) :
    ∃ given ids', Org.run T ids calls = some (given, ids') ∧ given.reduceOption.Nodup ∧
      (∀ id ∈ given.reduceOption, id ∉ ids.used) ∧
      ∀ i title, calls[i]? = some (.heading title) → given[i]? =
        some (some (numbered (headingAnchor T title) (headings T (slug T title) (done ++ calls.take i) + 1))) := by
  induction calls generalizing done ids with
  | nil => exact ⟨[], ids, rfl, List.nodup_nil, by simp, by simp⟩
  | cons c calls ih =>
    obtain ⟨a, ids', hstep, ha⟩ := h.step c
    obtain ⟨given, ids'', hrun, hnodup, hfree, hheadings⟩ := ih ha.given
    refine ⟨a :: given, ids'', by rw [Org.run, hstep, Option.bind_some, hrun]; rfl, ?_, ?_, ?_⟩
    · cases a with
      | none => exact hnodup
      | some id => exact List.nodup_cons.mpr ⟨fun hmem => hfree id hmem ((ha.used id).mpr (.inr rfl)), hnodup⟩
    · intro id hid hused
      cases a with
      | none => exact hfree id hid ((ha.used id).mpr (.inl hused))
      | some first =>
        obtain rfl | hid := List.mem_cons.mp hid
        · exact ha.free id rfl hused
        · exact hfree id hid ((ha.used id).mpr (.inl hused))
    · intro i title hi
      cases i with
      | zero =>
        have hanswer := ha.heading title (Option.some.inj hi)
        simpa using hanswer
      | succ i =>
        have hrest := hheadings i title hi
        rwa [List.append_assoc] at hrest

end Pages

end Mae.Org
