import Mathlib

/-! Sequences whose elements have identities and are deleted by marking, and how two of them merge. -/

namespace Mae.Library

open List Option

structure Element (ι α : Type) where
  id : ι
  value : α
  live : Bool
  deriving DecidableEq

namespace Element

variable {ι α : Type}

def key (e : Element ι α) : ι × α := (e.id, e.value)

def mark (e : Element ι α) (live : Bool) : Element ι α := { e with live := live }

end Element

namespace Sequence

open Element

variable {ι α : Type}

def visible (s : List (Element ι α)) : List α := (s.filter (·.live)).map (·.value)

def liveKeys (s : List (Element ι α)) : List (ι × α) := (s.filter (·.live)).map key

/-- `m` holds what is in `s` or `t`, in an order that both agree with; what either deleted is deleted. -/
structure Merge (s t m : List (Element ι α)) : Prop where
  nodup : (m.map Element.id).Nodup
  left : (s.map key).Sublist (m.map key)
  right : (t.map key).Sublist (m.map key)
  mem : ∀ e ∈ m, e.key ∈ s.map key ∨ e.key ∈ t.map key
  live : ∀ e ∈ m, e.live = true ↔ ∀ e' ∈ s ++ t, e'.key = e.key → e'.live = true

section Edits

variable (w : α → ℕ)

/-- The length of the visible part, `w` units for each value. -/
def size (s : List (Element ι α)) : ℕ := ((visible s).map w).sum

/-- Cuts behind `n` units of the visible part; there is no place inside an element. -/
def cut : ℕ → List (Element ι α) → Option (List (Element ι α) × List (Element ι α))
  | 0, s => some ([], s)
  | _ + 1, [] => none
  | n + 1, e :: s =>
    if e.live then
      if w e.value ≤ n + 1 then (cut (n + 1 - w e.value) s).map fun p => (e :: p.1, p.2) else none
    else (cut (n + 1) s).map fun p => (e :: p.1, p.2)

def kill : ℕ → List (Element ι α) → Option (List (Element ι α))
  | 0, s => some s
  | _ + 1, [] => none
  | n + 1, e :: s =>
    if e.live then
      if w e.value ≤ n + 1 then (kill (n + 1 - w e.value) s).map (e.mark false :: ·) else none
    else (kill (n + 1) s).map (e :: ·)

def removeRange (offset len : ℕ) (s : List (Element ι α)) : Option (List (Element ι α)) :=
  (cut w offset s).bind fun p => (kill w len p.2).map (p.1 ++ ·)

def insertAt (offset : ℕ) (new s : List (Element ι α)) : Option (List (Element ι α)) :=
  (cut w offset s).map fun p => p.1 ++ new ++ p.2

variable {w} {s t front run rest : List (Element ι α)}

@[simp] lemma visible_append : visible (s ++ t) = visible s ++ visible t := by simp [visible]

@[simp] lemma liveKeys_append : liveKeys (s ++ t) = liveKeys s ++ liveKeys t := by simp [liveKeys]

@[simp] lemma size_append : size w (s ++ t) = size w s + size w t := by simp [size]

section

variable (h : ∀ e ∈ s, e.live = false)
include h

lemma filter_live_of_dead : s.filter (·.live) = [] :=
  filter_eq_nil_iff.mpr fun e he => by simp [h e he]

lemma visible_of_dead : visible s = [] := by
  rw [visible, filter_live_of_dead h, map_nil]

lemma liveKeys_of_dead : liveKeys s = [] := by
  rw [liveKeys, filter_live_of_dead h, map_nil]

lemma size_of_dead : size w s = 0 := by
  rw [size, visible_of_dead h, map_nil, sum_nil]

end

lemma size_cons (e : Element ι α) : size w (e :: s) = (if e.live then w e.value else 0) + size w s := by
  cases h : e.live <;> simp [size, visible, h]

/-- The cut falls behind the last live element of the front, before the dead ones that follow it. -/
lemma cut_front (hw : ∀ a, 0 < w a) (front rest : List (Element ι α)) :
    ∃ d₁ d₂, front = d₁ ++ d₂ ∧ (∀ e ∈ d₂, e.live = false) ∧
      cut w (size w front) (front ++ rest) = some (d₁, d₂ ++ rest) := by
  induction front with
  | nil => exact ⟨[], [], rfl, by simp, by simp [size, visible, cut]⟩
  | cons e front ih =>
    obtain ⟨d₁, d₂, hfront, hdead, hcut⟩ := ih
    rw [size_cons, cons_append]
    cases hlive : e.live with
    | true =>
      obtain ⟨n, hn⟩ : ∃ n, w e.value + size w front = n + 1 := ⟨w e.value + size w front - 1, by have := hw e.value; omega⟩
      refine ⟨e :: d₁, d₂, by rw [hfront, cons_append], hdead, ?_⟩
      rw [if_pos rfl, hn, cut, if_pos hlive, if_pos (by omega), show n + 1 - w e.value = size w front by omega, hcut]
      rfl
    | false =>
      rw [if_neg (by simp), Nat.zero_add]
      cases hsize : size w front with
      | zero =>
        rw [hsize, cut] at hcut
        obtain ⟨rfl, -⟩ := Prod.mk.inj (some.inj hcut)
        exact ⟨[], e :: front, rfl, by simpa [hlive, hfront] using hdead, rfl⟩
      | succ n =>
        refine ⟨e :: d₁, d₂, by rw [hfront, cons_append], hdead, ?_⟩
        rw [cut, if_neg (by simp [hlive]), ← hsize, hcut]
        rfl

lemma kill_run (hw : ∀ a, 0 < w a) : kill w (size w run) (run ++ rest) = some (run.map (mark · false) ++ rest) := by
  induction run with
  | nil => simp [size, visible, kill]
  | cons e run ih =>
    rw [size_cons, cons_append]
    cases hlive : e.live with
    | true =>
      obtain ⟨n, hn⟩ : ∃ n, w e.value + size w run = n + 1 := ⟨w e.value + size w run - 1, by have := hw e.value; omega⟩
      rw [if_pos rfl, hn, kill, if_pos hlive, if_pos (by omega), show n + 1 - w e.value = size w run by omega, ih]
      rfl
    | false =>
      have hmark : e.mark false = e := by rw [mark, ← hlive]
      rw [if_neg (by simp), Nat.zero_add, map_cons, hmark]
      cases hsize : size w run with
      | zero =>
        rw [hsize, kill] at ih
        rw [kill, some.inj ih, cons_append]
      | succ n =>
        rw [kill, if_neg (by simp [hlive]), ← hsize, ih]
        rfl

lemma kill_dead (h : ∀ e ∈ front, e.live = false) (n : ℕ) : kill w n (front ++ rest) = (kill w n rest).map (front ++ ·) := by
  induction front with
  | nil => simp
  | cons e front ih =>
    obtain ⟨he, hfront⟩ := forall_mem_cons.mp h
    cases n with
    | zero => simp [kill]
    | succ n =>
      rw [cons_append, kill, if_neg (by simp [he]), ih hfront, Option.map_map]
      rfl

lemma removeRange_run (hw : ∀ a, 0 < w a) (front run rest : List (Element ι α)) :
    removeRange w (size w front) (size w run) (front ++ (run ++ rest)) =
      some (front ++ (run.map (mark · false) ++ rest)) := by
  obtain ⟨d1, d2, hfront, hdead, hcut⟩ := cut_front hw front (run ++ rest)
  rw [removeRange, hcut, bind_some, kill_dead hdead, kill_run hw, hfront]
  simp

/-- The new elements stand behind the last live element of the front. -/
lemma insertAt_run (hw : ∀ a, 0 < w a) (front new rest : List (Element ι α)) :
    ∃ d₁ d₂, front = d₁ ++ d₂ ∧ (∀ e ∈ d₂, e.live = false) ∧
      insertAt w (size w front) new (front ++ rest) = some (d₁ ++ new ++ d₂ ++ rest) := by
  obtain ⟨d₁, d₂, hfront, hdead, hcut⟩ := cut_front hw front rest
  refine ⟨d₁, d₂, hfront, hdead, ?_⟩
  rw [insertAt, hcut, map_some, append_assoc (d₁ ++ new)]

end Edits

section Merging

variable {s t m base : List (Element ι α)} {P : ι → Bool}

lemma filter_keys : (s.map key).filter (P ·.1) = (s.filter (P ·.id)).map key := by
  rw [List.filter_map]
  rfl

lemma filter_liveKeys (s : List (Element ι α)) : (liveKeys s).filter (P ·.1) = liveKeys (s.filter (P ·.id)) := by
  rw [liveKeys, List.filter_map, filter_comm]
  rfl

variable (h : Merge s t m)
include h

lemma Merge.symm : Merge t s m where
  nodup := h.nodup
  left := h.right
  right := h.left
  mem e he := (h.mem e he).symm
  live e he := (h.live e he).trans ⟨fun hall e' he' => hall e' (mem_append.mpr (mem_append.mp he').symm),
    fun hall e' he' => hall e' (mem_append.mpr (mem_append.mp he').symm)⟩

/-- The merge is settled by the order of its keys. -/
lemma Merge.eq_of_keys [DecidableEq ι] [DecidableEq α] {m' : List (Element ι α)} (h' : Merge s t m')
    (hkeys : m.map key = m'.map key) : m = m' := by
  let rebuild (k : ι × α) : Element ι α := ⟨k.1, k.2, decide (∀ e ∈ s ++ t, e.key = k → e.live = true)⟩
  have hrebuild : ∀ {l : List (Element ι α)}, Merge s t l → (l.map key).map rebuild = l := by
    intro l hl
    rw [List.map_map]
    refine (map_congr_left fun e he => ?_).trans (List.map_id _)
    have hlive : decide (∀ e' ∈ s ++ t, e'.key = e.key → e'.live = true) = e.live := by
      rw [Bool.eq_iff_iff, decide_eq_true_eq, hl.live e he]
    exact congrArg (Element.mk e.id e.value) hlive
  rw [← hrebuild h, ← hrebuild h', hkeys]

lemma Merge.nodup_keys : (m.map key).Nodup := by
  refine Nodup.of_map Prod.fst ?_
  rw [List.map_map]
  exact h.nodup

variable (hs : (s.filter (P ·.id)).map key = base.map key) (ht : (t.filter (P ·.id)).map key = base.map key)
include hs ht

/-- What both sides had before keeps the keys and the order it has on either side. -/
lemma Merge.common_keys : (m.filter (P ·.id)).map key = base.map key := by
  have hsub : (base.map key).Sublist ((m.filter (P ·.id)).map key) := by
    rw [← hs, ← filter_keys, ← filter_keys]
    exact h.left.filter _
  have hnodup : ((m.filter (P ·.id)).map key).Nodup := h.nodup_keys.sublist (filter_sublist.map key)
  refine (hsub.eq_of_length_le (subperm_of_subset hnodup fun k hk => ?_).length_le).symm
  obtain ⟨e, he, rfl⟩ := List.mem_map.mp hk
  obtain ⟨hm, hP⟩ := mem_filter.mp he
  rcases h.mem e hm with hmem | hmem
  · rw [← hs, ← filter_keys]
    exact mem_filter.mpr ⟨hmem, hP⟩
  · rw [← ht, ← filter_keys]
    exact mem_filter.mpr ⟨hmem, hP⟩

/-- Of what both sides had before, what both leave alive is alive, once and in its order. -/
lemma Merge.survivors [DecidableEq ι] [DecidableEq α] : ((m.filter (P ·.id)).filter (·.live)).map key =
      (base.map key).filter fun k => k ∈ liveKeys s ∧ k ∈ liveKeys t := by
  have hkeys := h.common_keys hs ht
  have hone : ∀ {l : List (Element ι α)} {e e' : Element ι α}, (l.map key).Sublist (m.map key) → e ∈ l → e' ∈ l →
      e'.key = e.key → e' = e := fun hl he he' hkey =>
    inj_on_of_nodup_map (h.nodup_keys.sublist hl) he' he hkey
  rw [← hkeys, List.filter_map]
  refine congrArg (List.map key) (filter_congr fun e he => ?_)
  have hkey : e.key ∈ base.map key := hkeys ▸ List.mem_map_of_mem he
  obtain ⟨e1, he1, hkey1⟩ := List.mem_map.mp (hs ▸ hkey)
  obtain ⟨e2, he2, hkey2⟩ := List.mem_map.mp (ht ▸ hkey)
  have hs1 := mem_of_mem_filter he1
  have ht2 := mem_of_mem_filter he2
  rw [Bool.eq_iff_iff, h.live e (mem_of_mem_filter he), Function.comp_apply, decide_eq_true_eq]
  constructor
  · intro hall
    exact ⟨List.mem_map.mpr ⟨e1, mem_filter.mpr ⟨hs1, hall e1 (mem_append_left _ hs1) hkey1⟩, hkey1⟩,
      List.mem_map.mpr ⟨e2, mem_filter.mpr ⟨ht2, hall e2 (mem_append_right _ ht2) hkey2⟩, hkey2⟩⟩
  · rintro ⟨hl, hr⟩ e' he' hkey'
    rcases mem_append.mp he' with hmem | hmem
    · obtain ⟨x, hx, hxkey⟩ := List.mem_map.mp hl
      obtain ⟨hxs, hlive⟩ := mem_filter.mp hx
      rwa [hone h.left hxs hmem (hkey'.trans hxkey.symm)]
    · obtain ⟨x, hx, hxkey⟩ := List.mem_map.mp hr
      obtain ⟨hxt, hlive⟩ := mem_filter.mp hx
      rwa [hone h.right hxt hmem (hkey'.trans hxkey.symm)]

end Merging

end Sequence

end Mae.Library
