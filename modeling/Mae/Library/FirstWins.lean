import Mathlib.Data.List.Induction

/-! Merging the answers of several sources, where an entry hides the entries of later sources under the same key. -/

namespace Mae.Library.FirstWins

open List

variable {σ α κ : Type*} [DecidableEq κ]

def addNew (key : α → κ) (out : List α) (a : α) : List α := if key a ∈ out.map key then out else out ++ [a]

def merge (key : α → κ) (first : List α) (rest : List (List α)) : List α :=
  rest.foldl (fun out answers => answers.foldl (addNew key) out) first

def FromFirst (key : α → κ) (lists : List (List α)) (a : α) : Prop :=
  ∃ earlier answers later, lists = earlier ++ answers :: later ∧ a ∈ answers ∧
    ∀ l ∈ earlier, key a ∉ l.map key

omit [DecidableEq κ] in
lemma FromFirst.append {key : α → κ} {lists : List (List α)} {a : α} (h : FromFirst key lists a)
    (more : List (List α)) : FromFirst key (lists ++ more) a := by
  obtain ⟨earlier, answers, later, rfl, ha, hfirst⟩ := h
  exact ⟨earlier, answers, later ++ more, by simp, ha, hfirst⟩

variable {key : α → κ}

lemma mem_foldl_addNew {a : α} (new out : List α) (h : a ∈ new.foldl (addNew key) out) :
    a ∈ out ∨ (a ∈ new ∧ key a ∉ out.map key) := by
  induction new generalizing out with
  | nil => exact .inl h
  | cons b new ih =>
    rcases ih _ h with hold | ⟨hnew, hkey⟩
    · unfold addNew at hold
      split at hold
      · exact .inl hold
      · rename_i hb
        rcases mem_append.mp hold with hold | hab
        · exact .inl hold
        · obtain rfl := mem_singleton.mp hab
          exact .inr ⟨mem_cons_self, hb⟩
    · refine .inr ⟨mem_cons_of_mem _ hnew, fun hmem => hkey ?_⟩
      unfold addNew
      split
      · exact hmem
      · simp only [map_append, mem_append]
        exact .inl hmem

lemma key_mem_foldl_addNew {k : κ} (new out : List α) :
    k ∈ (new.foldl (addNew key) out).map key ↔ k ∈ out.map key ∨ k ∈ new.map key := by
  induction new generalizing out with
  | nil => simp
  | cons b new ih =>
    rw [foldl_cons, ih]
    unfold addNew
    split
    · rename_i hb
      simp only [map_cons, mem_cons]
      constructor
      · rintro (h | h)
        · exact .inl h
        · exact .inr (.inr h)
      · rintro (h | rfl | h)
        · exact .inl h
        · exact .inl hb
        · exact .inr h
    · simp [or_assoc]

lemma key_mem_merge {k : κ} (first : List α) (rest : List (List α)) :
    k ∈ (merge key first rest).map key ↔ ∃ l ∈ first :: rest, k ∈ l.map key := by
  induction rest generalizing first with
  | nil => simp [merge]
  | cons answers rest ih =>
    have hstep := ih (answers.foldl (addNew key) first)
    simp only [merge, foldl_cons, mem_cons, exists_eq_or_imp] at hstep ⊢
    rw [hstep, key_mem_foldl_addNew, or_assoc]

lemma fromFirst_of_mem_merge {a : α} (first : List α) (rest : List (List α))
    (h : a ∈ merge key first rest) : FromFirst key (first :: rest) a := by
  induction rest using List.reverseRecOn with
  | nil => exact ⟨[], first, [], rfl, h, fun l hl => absurd hl not_mem_nil⟩
  | append_singleton rest answers ih =>
    rw [merge, foldl_append] at h
    rcases mem_foldl_addNew answers _ h with hold | ⟨hnew, hkey⟩
    · exact (ih hold).append [answers]
    · refine ⟨first :: rest, answers, [], by simp, hnew, fun l hl hmem => hkey ?_⟩
      exact (key_mem_merge first rest).mpr ⟨l, hl, hmem⟩

section

variable {key : α → κ} {sources : List σ} {holds : σ → κ → Bool} {answers : σ → List α}

def Consistent (key : α → κ) (sources : List σ) (holds : σ → κ → Bool) (answers : σ → List α) (shown : List α) : Prop :=
  ∀ a ∈ shown, ∃ s, sources.find? (fun s => holds s (key a)) = some s ∧ a ∈ answers s

def Concordant (key : α → κ) (sources : List σ) (holds : σ → κ → Bool) (answers : σ → List α) : Prop :=
  ∀ s ∈ sources, ∀ a ∈ answers s, ∀ o, sources.find? (fun s => holds s (key a)) = some o →
    key a ∈ (answers o).map key

omit [DecidableEq κ] in
lemma owner_of_fromFirst (hholds : ∀ s ∈ sources, ∀ a ∈ answers s, holds s (key a) = true)
    (hconc : Concordant key sources holds answers) {a : α} (h : FromFirst key (sources.map answers) a) :
    ∃ s, sources.find? (fun s => holds s (key a)) = some s ∧ a ∈ answers s := by
  obtain ⟨earlier, l, later, hsplit, ha, hfirst⟩ := h
  obtain ⟨before, rest, rfl, rfl, hrest⟩ := map_eq_append_iff.mp hsplit
  obtain ⟨s, after, rfl, rfl, rfl⟩ := map_eq_cons_iff.mp hrest
  refine ⟨s, ?_, ha⟩
  have hs : holds s (key a) = true := hholds s (by simp) a ha
  cases hfind : (before ++ s :: after).find? (fun s => holds s (key a)) with
  | none =>
    have hnone := find?_eq_none.mp hfind s (by simp)
    exact absurd hs hnone
  | some o =>
    have hkey := hconc s (by simp) a ha o hfind
    obtain ⟨ho, as, bs, hsplit, hbefore⟩ := find?_eq_some_iff_append.mp hfind
    by_contra hne
    -- an owner other than `s` would stand before it, and answer before it
    have hmem : o ∈ before := by
      rcases append_eq_append_iff.mp hsplit with ⟨cs, rfl, hcs⟩ | ⟨cs, rfl, hcs⟩
      · cases cs with
        | nil =>
          have hso : s = o := (List.cons.inj hcs).1
          exact absurd (congrArg some hso.symm) hne
        | cons c cs =>
          have hsc : s = c := (List.cons.inj hcs).1
          have hfalse := hbefore s (by simp [hsc])
          simp [hs] at hfalse
      · cases cs with
        | nil =>
          have hso : o = s := (List.cons.inj hcs).1
          exact absurd (congrArg some hso) hne
        | cons c cs =>
          obtain rfl : o = c := (List.cons.inj hcs).1
          simp
    exact hfirst (answers o) (mem_map_of_mem hmem) hkey

lemma consistent_merge_iff (s : σ) (rest : List σ) (hholds : ∀ t ∈ s :: rest, ∀ a ∈ answers t, holds t (key a) = true) :
    Consistent key (s :: rest) holds answers (merge key (answers s) (rest.map answers)) ↔
      Concordant key (s :: rest) holds answers := by
  constructor
  · intro hcons t ht a ha o ho
    have hmem : key a ∈ (merge key (answers s) (rest.map answers)).map key :=
      (key_mem_merge _ _).mpr ⟨answers t, mem_map_of_mem ht, mem_map_of_mem ha⟩
    obtain ⟨b, hb, hkey⟩ := mem_map.mp hmem
    obtain ⟨o', ho', hbo⟩ := hcons b hb
    rw [hkey, ho] at ho'
    cases ho'
    exact hkey ▸ mem_map_of_mem hbo
  · intro hconc a ha
    exact owner_of_fromFirst hholds hconc (fromFirst_of_mem_merge _ _ ha)

end

end Mae.Library.FirstWins
