import Mathlib.Data.List.Induction
import Mae.Library.Sequence

/-! `set_tags`: a tag list is edited by value, and what two concurrent edits of it merge to. -/

namespace Mae.Sync

open Library Element Sequence List

/-- The tags of a `YArray` with the client and the clock that name each of them. -/
abbrev YArray := List (Element (ℕ × ℕ) String)

def one (_ : String) : ℕ := 1

def dropStep (tags : List String) (state : List String × YArray) (existing : String × ℕ) :
    Option (List String × YArray) :=
  if existing.1 ∈ tags ∧ existing.1 ∉ state.1 then some (state.1 ++ [existing.1], state.2)
  else (removeRange one existing.2 1 state.2).map (state.1, ·)

def pushStep (client : ℕ) (state : List String × ℕ × YArray) (tag : String) : Option (List String × ℕ × YArray) :=
  if tag ∈ state.1 then some state
  else (insertAt one (size one state.2.2) [⟨(client, state.2.1), tag, true⟩] state.2.2).map fun arr =>
    (state.1 ++ [tag], state.2.1 + 1, arr)

/-- The loop over the present tags from the last one down, then the loop over the wanted ones;
`clock` is the replica's next free clock. -/
def setTags (client clock : ℕ) (tags : List String) (arr : YArray) : Option YArray :=
  ((visible arr).zipIdx.reverse.foldlM (dropStep tags) ([], arr)).bind fun dropped =>
    (tags.foldlM (pushStep client) (dropped.1, clock, dropped.2)).map fun pushed => pushed.2.2

/-- What the first loop leaves of an element. -/
def retain (tags : List String) (e : Element (ℕ × ℕ) String) : Element (ℕ × ℕ) String :=
  if e.value ∈ tags then e else e.mark false

lemma one_pos (t : String) : 0 < one t := Nat.one_pos

lemma size_one (s : YArray) : size one s = (visible s).length := by
  rw [size]
  generalize visible s = l
  induction l with
  | nil => rfl
  | cons t l ih => rw [map_cons, sum_cons, ih, length_cons, one, Nat.add_comm]

lemma drop_loop (tags : List String) (front back : YArray) (kept : List String) (hnodup : (visible front).Nodup)
    (hkept : ∀ t ∈ visible front, t ∉ kept) :
    ∃ kept', (visible front).zipIdx.reverse.foldlM (dropStep tags) (kept, front ++ back) =
        some (kept', front.map (retain tags) ++ back) ∧
      ∀ t, t ∈ kept' ↔ t ∈ kept ∨ t ∈ visible front ∧ t ∈ tags := by
  induction front using List.reverseRecOn generalizing kept back with
  | nil => exact ⟨kept, rfl, by simp [visible]⟩
  | append_singleton front e ih =>
    cases hlive : e.live with
    | false =>
      have hvis : visible (front ++ [e]) = visible front := by simp [visible, hlive]
      have hretain : retain tags e = e := by simp [retain, mark, ← hlive]
      rw [hvis] at hnodup hkept ⊢
      simpa [hretain] using ih (e :: back) kept hnodup hkept
    | true =>
      have hvis : visible (front ++ [e]) = visible front ++ [e.value] := by simp [visible, hlive]
      rw [hvis] at hnodup hkept ⊢
      obtain ⟨hfront, -, hnew⟩ := nodup_append.mp hnodup
      rw [zipIdx_append, reverse_append, foldlM_append]
      have hstep : dropStep tags (kept, front ++ [e] ++ back) (e.value, (visible front).length) =
          some (if e.value ∈ tags then kept ++ [e.value] else kept, front ++ (retain tags e :: back)) := by
        rw [dropStep]
        by_cases htag : e.value ∈ tags
        · rw [if_pos ⟨htag, hkept _ (by simp)⟩, if_pos htag, retain, if_pos htag, append_assoc]
          rfl
        · have hsize : size one [e] = 1 := by rw [size_one]; simp [visible, hlive]
          have hremove := removeRange_run one_pos front [e] back
          rw [hsize, size_one, ← append_assoc] at hremove
          rw [if_neg (fun h => htag h.1), if_neg htag, retain, if_neg htag, hremove]
          rfl
      obtain ⟨kept', hloop, hmem⟩ := ih (retain tags e :: back) (if e.value ∈ tags then kept ++ [e.value] else kept) hfront
        fun t ht => by
          split <;> simp_all
      refine ⟨kept', ?_, fun t => ?_⟩
      · simp only [zipIdx_cons, zipIdx_nil, reverse_singleton, foldlM_cons, foldlM_nil, Nat.zero_add, hstep]
        simpa using hloop
      · rw [hmem]
        split <;> simp only [mem_append, mem_singleton] <;> grind

section

variable {P : ℕ × ℕ → Bool} {client clock : ℕ} {tags X Y : List String} {base a b m : YArray}

lemma push_loop (kept : List String) (arr : YArray) (hnodup : tags.Nodup) (hfresh : ∀ n, clock ≤ n → P (client, n) = false)
    (hnew : ∀ e ∈ arr, P e.id = false → e.live = true) :
    ∃ out, tags.foldlM (pushStep client) (kept, clock, arr) = some out ∧
      out.2.2.filter (P ·.id) = arr.filter (P ·.id) ∧ (∀ e ∈ out.2.2, P e.id = false → e.live = true) ∧
      (out.2.2.filter (!P ·.id)).map Element.value =
        (arr.filter (!P ·.id)).map Element.value ++ tags.filter (· ∉ kept) := by
  induction tags generalizing kept clock arr with
  | nil => exact ⟨_, rfl, rfl, hnew, by simp⟩
  | cons tag tags ih =>
    obtain ⟨htag, htags⟩ := nodup_cons.mp hnodup
    rw [foldlM_cons, pushStep]
    split
    next hkept =>
      obtain ⟨out, hloop, hold, hlive, hvalues⟩ := ih kept arr htags hfresh hnew
      exact ⟨out, hloop, hold, hlive, by rw [hvalues, filter_cons_of_neg (by simpa using hkept)]⟩
    next hkept =>
      obtain ⟨d1, d2, rfl, hdead, hinsert⟩ := insertAt_run one_pos arr [⟨(client, clock), tag, true⟩] []
      have hclock := hfresh clock (Nat.le_refl _)
      have hd2 : d2.filter (!P ·.id) = [] := filter_eq_nil_iff.mpr fun e he hP => by
        have := hnew e (mem_append_right _ he) (by simpa using hP)
        simp [hdead e he] at this
      obtain ⟨out, hloop, hold, hlive, hvalues⟩ := ih (kept ++ [tag]) (d1 ++ [⟨(client, clock), tag, true⟩] ++ d2) htags
        (fun n hn => hfresh n (Nat.le_of_succ_le hn)) (by grind)
      rw [append_nil, append_nil] at hinsert
      refine ⟨out, ?_, by simpa [hclock] using hold, hlive, ?_⟩
      · rw [hinsert]
        exact hloop
      · have hrest : tags.filter (· ∉ kept ++ [tag]) = tags.filter (· ∉ kept) := filter_congr fun t ht => by
          have : t ≠ tag := fun h => htag (h ▸ ht)
          simp [this]
        rw [hvalues, hrest, filter_cons_of_pos (by simpa using hkept)]
        simp [hclock, hd2]

/-- An edit leaves the old elements in their places, alive when they are wanted, and adds what is missing. -/
structure Retagged (P : ℕ × ℕ → Bool) (tags : List String) (base arr : YArray) : Prop where
  keys : (arr.filter (P ·.id)).map key = base.map key
  live : (liveKeys arr).filter (P ·.1) = (liveKeys base).filter (·.2 ∈ tags)
  new_live : ∀ e ∈ arr, P e.id = false → e.live = true
  new_values : (arr.filter (!P ·.id)).map Element.value = tags.filter (· ∉ visible base)

lemma setTags_retags (hbase : ∀ e ∈ base, P e.id = true) (hnodup : (visible base).Nodup) (htags : tags.Nodup)
    (hfresh : ∀ n, clock ≤ n → P (client, n) = false) :
    ∃ arr, setTags client clock tags base = some arr ∧ Retagged P tags base arr := by
  obtain ⟨kept, hdrop, hkept⟩ := drop_loop tags base [] [] hnodup (by simp)
  rw [append_nil, append_nil] at hdrop
  have hP : ∀ e ∈ base.map (retain tags), P e.id = true := by
    intro e he
    obtain ⟨e0, he0, rfl⟩ := mem_map.mp he
    rw [retain]
    split <;> exact hbase e0 he0
  obtain ⟨out, hpush, hold, hlive, hvalues⟩ := push_loop kept (base.map (retain tags)) htags hfresh
    fun e he h => by simp [hP e he] at h
  rw [filter_eq_self.mpr hP] at hold
  have hkey : ∀ e, (retain tags e).key = e.key := fun e => by rw [retain]; split <;> rfl
  refine ⟨out.2.2, by rw [setTags, hdrop, Option.bind_some, hpush]; rfl, ?_, ?_, hlive, ?_⟩
  · rw [hold, map_map]
    exact map_congr_left fun e _ => hkey e
  · have hretain : ∀ e : Element (ℕ × ℕ) String, (retain tags e).live = (decide (e.value ∈ tags) && e.live) := by
      intro e
      rw [retain]
      split <;> simp_all [mark]
    rw [filter_liveKeys, hold, liveKeys, filter_map, map_map, liveKeys, filter_map, filter_filter]
    refine (map_congr_left fun e _ => hkey e).trans (congrArg _ (filter_congr fun e _ => hretain e))
  · rw [hvalues, filter_eq_nil_iff.mpr (by simpa using hP)]
    refine filter_congr fun t ht => ?_
    simp [hkept, ht]

namespace Retagged

variable (ha : Retagged P X base a)
include ha

lemma new_mem {k : (ℕ × ℕ) × String} (hk : k ∈ a.map key) (hP : P k.1 = false) : k.2 ∈ X ∧ k.2 ∉ visible base := by
  obtain ⟨e, he, rfl⟩ := mem_map.mp hk
  have hmem : e.value ∈ (a.filter (!P ·.id)).map Element.value :=
    mem_map_of_mem (mem_filter.mpr ⟨he, by rw [show P e.id = false from hP]; rfl⟩)
  rw [ha.new_values] at hmem
  exact (by simpa using mem_filter.mp hmem : e.value ∈ X ∧ e.value ∉ visible base)

lemma new_inj (hX : X.Nodup) {k k' : (ℕ × ℕ) × String} (hk : k ∈ a.map key) (hk' : k' ∈ a.map key) (hP : P k.1 = false)
    (hP' : P k'.1 = false) (h : k.2 = k'.2) :
    k = k' := by
  obtain ⟨e, he, rfl⟩ := mem_map.mp hk
  obtain ⟨e', he', rfl⟩ := mem_map.mp hk'
  have hvalues : ((a.filter (!P ·.id)).map Element.value).Nodup := ha.new_values ▸ hX.filter _
  refine congrArg key (inj_on_of_nodup_map hvalues (mem_filter.mpr ⟨he, ?_⟩) (mem_filter.mpr ⟨he', ?_⟩) h)
  · rw [show P e.id = false from hP]; rfl
  · rw [show P e'.id = false from hP']; rfl

/-- What one side adds is alive in the merge: the other side could not delete it. -/
lemma new_visible (hb : Retagged P Y base b) (hm : Merge a b m) {t : String} (hX : t ∈ X) (ht : t ∉ visible base) :
    t ∈ visible m := by
  have hmem : t ∈ (a.filter (!P ·.id)).map Element.value := by
    rw [ha.new_values]
    exact mem_filter.mpr ⟨hX, by simpa using ht⟩
  obtain ⟨e, he, rfl⟩ := mem_map.mp hmem
  obtain ⟨hea, hP⟩ := mem_filter.mp he
  obtain ⟨e', he', hkey⟩ := mem_map.mp (hm.left.subset (mem_map_of_mem hea))
  refine mem_map.mpr ⟨e', mem_filter.mpr ⟨he', (hm.live e' he').mpr fun x hx hxkey => ?_⟩, congrArg Prod.snd hkey⟩
  have hxP : P x.id = false := by
    rw [show x.id = e.id from congrArg Prod.fst (hxkey.trans hkey)]
    simpa using hP
  exact (mem_append.mp hx).elim (ha.new_live x · hxP) (hb.new_live x · hxP)

lemma old_mem (hb : Retagged P Y base b) (hm : Merge a b m) (hbase : ∀ e ∈ base, P e.id = true) (k : (ℕ × ℕ) × String) :
    k ∈ ((m.filter (P ·.id)).filter (·.live)).map key ↔ k ∈ liveKeys base ∧ k.2 ∈ X ∧ k.2 ∈ Y := by
  have hlive : ∀ {tags : List String} {arr : YArray}, Retagged P tags base arr → P k.1 = true →
      (k ∈ liveKeys arr ↔ k ∈ liveKeys base ∧ k.2 ∈ tags) := fun h hP => by
    have := congrArg (k ∈ ·) h.live
    simpa [hP] using this
  rw [hm.survivors ha.keys hb.keys]
  simp only [mem_filter, decide_eq_true_eq]
  constructor
  · rintro ⟨hk, hka, hkb⟩
    obtain ⟨e, he, rfl⟩ := mem_map.mp hk
    rw [hlive ha (hbase e he)] at hka
    rw [hlive hb (hbase e he)] at hkb
    exact ⟨hka.1, hka.2, hkb.2⟩
  · rintro ⟨hk, hX, hY⟩
    obtain ⟨e, he, rfl⟩ := mem_map.mp hk
    have hP := hbase e (mem_of_mem_filter he)
    exact ⟨mem_map_of_mem (mem_of_mem_filter he), (hlive ha hP).mpr ⟨hk, hX⟩, (hlive hb hP).mpr ⟨hk, hY⟩⟩

end Retagged

end

end Mae.Sync
