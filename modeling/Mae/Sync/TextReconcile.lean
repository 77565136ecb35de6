import Mae.Library.Sequence

/-! `reconcile_text_ref`: a text is brought to its target by the runs of an edit script, at UTF-16 offsets. -/

namespace Mae.Sync

open Library Element Sequence List

/-- The characters of a `YText` with the client and the clock that name each of them. -/
abbrev YText := List (Element (ℕ × ℕ) Char)

inductive ChangeTag
  | equal
  | delete
  | insert
  deriving DecidableEq

abbrev Change := ChangeTag × List Char

def lenUtf16 (c : Char) : ℕ := if c.toNat < 0x10000 then 1 else 2

def utf16Len (run : List Char) : ℕ := (run.map lenUtf16).sum

/-- Neighbouring changes with one tag are joined to one run. -/
def coalesce : List Change → List Change
  | [] => []
  | c :: cs =>
    match coalesce cs with
    | [] => [c]
    | (tag, run) :: rest => if tag = c.1 then (tag, c.2 ++ run) :: rest else c :: (tag, run) :: rest

def typed (client : ℕ) : (clock : ℕ) → List Char → YText
  | _, [] => []
  | clock, c :: run => ⟨(client, clock), c, true⟩ :: typed client (clock + 1) run

/-- The match on the tag of each run; `clock` is the replica's next free clock. -/
def applyRuns (client : ℕ) : List Change → (offset clock : ℕ) → Bool × YText → Option (Bool × YText)
  | [], _, _, state => some state
  | (.equal, run) :: runs, offset, clock, state => applyRuns client runs (offset + utf16Len run) clock state
  | (.delete, run) :: runs, offset, clock, (_, text) =>
    (removeRange lenUtf16 offset (utf16Len run) text).bind fun text => applyRuns client runs offset clock (true, text)
  | (.insert, run) :: runs, offset, clock, (_, text) =>
    (insertAt lenUtf16 offset (typed client clock run) text).bind fun text =>
      applyRuns client runs (offset + utf16Len run) (clock + run.length) (true, text)

/-- `diff` is what the diff library answers for the two texts. -/
def reconcileTextRef (client clock : ℕ) (diff : List Change) (text : YText) (current target : List Char) :
    Option (Bool × YText) :=
  if current = target then some (false, text) else applyRuns client (coalesce diff) 0 clock (false, text)

namespace Change

def source (c : Change) : List Char := if c.1 = .insert then [] else c.2

def result (c : Change) : List Char := if c.1 = .delete then [] else c.2

def flags (c : Change) : List Bool := c.source.map fun _ => c.1 = .equal

end Change

open Change

/-- The changes spell the two texts. -/
structure IsDiff (diff : List Change) (current target : List Char) : Prop where
  source : diff.flatMap source = current
  result : diff.flatMap result = target

section

variable {κ : Type}

/-- What the equal runs of the script keep of the elements of its source. -/
def keptBy (diff : List Change) (ks : List κ) : List κ := ((ks.zip (diff.flatMap flags)).filter (·.2)).map (·.1)

/-- Between equal texts there is no script, and all is kept. -/
def kept (diff : List Change) (current target : List Char) (ks : List κ) : List κ :=
  if current = target then ks else keptBy diff ks

lemma keptBy_cons (c : Change) (cs : List Change) (ks ls : List κ) (h : ks.length = c.source.length) :
    keptBy (c :: cs) (ks ++ ls) = (if c.1 = .equal then ks else []) ++ keptBy cs ls := by
  have hlen : ks.length = c.flags.length := by rw [h, flags, length_map]
  rw [keptBy, flatMap_cons, zip_append hlen, filter_append, map_append]
  refine congrArg (· ++ keptBy cs ls) ?_
  have hflags : c.flags = List.replicate ks.length (decide (c.1 = .equal)) := by rw [flags, map_const', h]
  rw [hflags]
  clear hflags hlen h
  induction ks with
  | nil => simp
  | cons k ks ih =>
    rw [length_cons, replicate_succ]
    split <;> simp_all

end

lemma flatMap_coalesce {β : Type} {f : Change → List β}
    (hf : ∀ tag run run', f (tag, run ++ run') = f (tag, run) ++ f (tag, run')) (cs : List Change) :
    (coalesce cs).flatMap f = cs.flatMap f := by
  induction cs with
  | nil => rfl
  | cons c cs ih =>
    rw [flatMap_cons, ← ih, coalesce]
    split
    next h => simp [h]
    next tag run rest h =>
      split
      next htag => simp [h, htag, hf, append_assoc]
      next => simp [h]

lemma source_append (tag : ChangeTag) (run run' : List Char) :
    source (tag, run ++ run') = source (tag, run) ++ source (tag, run') := by
  cases tag <;> rfl

lemma result_append (tag : ChangeTag) (run run' : List Char) :
    result (tag, run ++ run') = result (tag, run) ++ result (tag, run') := by
  cases tag <;> rfl

lemma flags_append (tag : ChangeTag) (run run' : List Char) :
    flags (tag, run ++ run') = flags (tag, run) ++ flags (tag, run') := by
  rw [flags, source_append, map_append]
  rfl

lemma lenUtf16_pos (c : Char) : 0 < lenUtf16 c := by
  rw [lenUtf16]
  split <;> omega

section

variable {P : ℕ × ℕ → Bool}

/-- What the runs make of `front ++ todo`, with `front` behind them and `todo` still to go through. -/
structure Reconciled (P : ℕ × ℕ → Bool) (runs : List Change) (front todo text : YText) : Prop where
  visible : visible text = visible front ++ runs.flatMap result
  keys : (text.filter (P ·.id)).map key = ((front ++ todo).filter (P ·.id)).map key
  live : liveKeys (text.filter (P ·.id)) = liveKeys (front.filter (P ·.id)) ++ keptBy runs (liveKeys todo)

lemma split_visible {todo : YText} {run rest : List Char} (h : visible todo = run ++ rest) :
    ∃ t₁ t₂, todo = t₁ ++ t₂ ∧ visible t₁ = run ∧ visible t₂ = rest := by
  obtain ⟨l1, l2, hlive, hrun, hrest⟩ := map_eq_append_iff.mp h
  obtain ⟨t₁, t₂, rfl, rfl, rfl⟩ := filter_eq_append_iff.mp hlive
  exact ⟨t₁, t₂, rfl, hrun, hrest⟩

lemma length_liveKeys (s : YText) : (liveKeys s).length = (visible s).length := by
  rw [liveKeys, visible, length_map, length_map]

lemma visible_typed (client clock : ℕ) (run : List Char) : visible (typed client clock run) = run := by
  induction run generalizing clock with
  | nil => rfl
  | cons c run ih => exact congrArg (c :: ·) (ih (clock + 1))

lemma filter_typed {client clock : ℕ} (hfresh : ∀ n, clock ≤ n → P (client, n) = false) (run : List Char) :
    (typed client clock run).filter (P ·.id) = [] := by
  induction run generalizing clock with
  | nil => rfl
  | cons c run ih =>
    rw [typed, filter_cons_of_neg (by simp [hfresh clock (Nat.le_refl _)])]
    exact ih fun n hn => hfresh n (by omega)

lemma size_eq_utf16Len {s : YText} {run : List Char} (h : visible s = run) : size lenUtf16 s = utf16Len run := by
  rw [size, h, utf16Len]

/-- The offset is always the length of what stands behind it, so each run hits the elements it names. -/
lemma applyRuns_reconciles {client : ℕ} (runs : List Change) (front todo : YText) (clock : ℕ) (changed : Bool)
    (hsource : visible todo = runs.flatMap source) (hfresh : ∀ n, clock ≤ n → P (client, n) = false)
    (htodo : ∀ e ∈ todo, P e.id = true) :
    ∃ changed' text, applyRuns client runs (size lenUtf16 front) clock (changed, front ++ todo) = some (changed', text) ∧
      Reconciled P runs front todo text := by
  induction runs generalizing front todo clock changed with
  | nil =>
    refine ⟨changed, front ++ todo, rfl, by rw [visible_append, hsource]; rfl, rfl, ?_⟩
    have hnone : liveKeys todo = [] := length_eq_zero_iff.mp (by rw [length_liveKeys, hsource]; rfl)
    rw [filter_append, liveKeys_append, filter_eq_self.mpr htodo, hnone]
    rfl
  | cons c runs ih =>
    obtain ⟨tag, run⟩ := c
    obtain ⟨t1, t2, rfl, hrun, hrest⟩ := split_visible hsource
    obtain ⟨ht1, ht2⟩ := forall_mem_append.mp htodo
    have hkept : keptBy ((tag, run) :: runs) (liveKeys (t1 ++ t2)) =
        (if tag = .equal then liveKeys t1 else []) ++ keptBy runs (liveKeys t2) := by
      rw [liveKeys_append]
      exact keptBy_cons (tag, run) runs _ _ (by rw [length_liveKeys, hrun])
    cases tag with
    | equal =>
      obtain ⟨changed', text, hruns, hvis, hkeys, hlive⟩ := ih (front ++ t1) t2 clock changed hrest hfresh ht2
      rw [size_append, size_eq_utf16Len hrun, append_assoc] at hruns
      refine ⟨changed', text, hruns, ?_, by rw [hkeys, append_assoc], ?_⟩
      · rw [hvis, visible_append, hrun, append_assoc]
        rfl
      · rw [hlive, hkept, filter_append, liveKeys_append, filter_eq_self.mpr ht1, append_assoc]
        rfl
    | delete =>
      have hdead : ∀ e ∈ t1.map (mark · false), e.live = false := by simp [mark]
      obtain ⟨changed', text, hruns, hvis, hkeys, hlive⟩ :=
        ih (front ++ t1.map (mark · false)) t2 clock true hrest hfresh ht2
      rw [size_append, size_of_dead hdead, append_assoc] at hruns
      refine ⟨changed', text, ?_, ?_, ?_, ?_⟩
      · have hlen : size lenUtf16 t1 = utf16Len run := size_eq_utf16Len hrun
        rw [applyRuns, ← hlen, removeRange_run lenUtf16_pos]
        exact hruns
      · rw [hvis, visible_append, visible_of_dead hdead, append_nil]
        rfl
      · rw [hkeys]
        simp only [← filter_keys, map_append, map_map, append_assoc]
        rfl
      · rw [hlive, hkept, filter_append, liveKeys_append, liveKeys_of_dead fun e he => hdead e (mem_of_mem_filter he),
          append_nil]
        rfl
    | insert =>
      obtain ⟨d1, d2, rfl, hdead, hinsert⟩ := insertAt_run lenUtf16_pos front (typed client clock run) (t1 ++ t2)
      obtain ⟨changed', text, hruns, hvis, hkeys, hlive⟩ := ih (d1 ++ typed client clock run ++ d2) (t1 ++ t2)
        (clock + run.length) true hsource (fun n hn => hfresh n (by omega)) htodo
      have hnew := filter_typed hfresh run
      refine ⟨changed', text, ?_, ?_, ?_, ?_⟩
      · rw [applyRuns, hinsert, ← hruns]
        refine congrArg (applyRuns client runs · _ _) ?_
        simp only [size_append, size_of_dead hdead, size_eq_utf16Len (visible_typed client clock run)]
        omega
      · rw [hvis]
        simp only [visible_append, visible_of_dead hdead, visible_typed, append_nil, append_assoc]
        rfl
      · rw [hkeys]
        simp only [filter_append, hnew, append_nil]
      · rw [hlive]
        simp only [filter_append, hnew, append_nil]
        rfl

/-- Each element of the base keeps its place, and is alive when the script keeps it. -/
lemma reconcileTextRef_spec {client clock : ℕ} {diff : List Change} {base : YText} {target : List Char}
    (hdiff : IsDiff diff (visible base) target) (hfresh : ∀ n, clock ≤ n → P (client, n) = false)
    (hbase : ∀ e ∈ base, P e.id = true) :
    ∃ changed text, reconcileTextRef client clock diff base (visible base) target = some (changed, text) ∧
      visible text = target ∧ (text.filter (P ·.id)).map key = base.map key ∧
      (liveKeys text).filter (P ·.1) = kept diff (visible base) target (liveKeys base) := by
  rw [reconcileTextRef, kept]
  split
  next h =>
    refine ⟨false, base, rfl, h, by rw [filter_eq_self.mpr hbase], ?_⟩
    rw [filter_liveKeys, filter_eq_self.mpr hbase]
  next =>
    have hsource : visible base = (coalesce diff).flatMap source := by
      rw [flatMap_coalesce source_append, hdiff.source]
    obtain ⟨changed, text, hruns, hvis, hkeys, hlive⟩ :=
      applyRuns_reconciles (coalesce diff) [] base clock false hsource hfresh hbase
    refine ⟨changed, text, hruns, ?_, by rw [hkeys, nil_append, filter_eq_self.mpr hbase], ?_⟩
    · rw [hvis, flatMap_coalesce result_append, hdiff.result]
      rfl
    · rw [filter_liveKeys, hlive, keptBy, flatMap_coalesce flags_append]
      rfl

end

/-- Of two concurrent edits each shows its target, and merged they show each element of the base
that both scripts keep exactly once, in the order of the base, and no other element of it. -/
theorem concurrent_edits_keep_base_once (base : YText) (target₁ target₂ : List Char) (diff₁ diff₂ : List Change)
    (client₁ clock₁ client₂ clock₂ : ℕ)
    (hdiff₁ : IsDiff diff₁ (visible base) target₁) (hdiff₂ : IsDiff diff₂ (visible base) target₂)
    (hfresh₁ : ∀ n, clock₁ ≤ n → (client₁, n) ∉ base.map Element.id)
    (hfresh₂ : ∀ n, clock₂ ≤ n → (client₂, n) ∉ base.map Element.id) :
    ∃ changed₁ text₁ changed₂ text₂,
      reconcileTextRef client₁ clock₁ diff₁ base (visible base) target₁ = some (changed₁, text₁) ∧
      reconcileTextRef client₂ clock₂ diff₂ base (visible base) target₂ = some (changed₂, text₂) ∧
      visible text₁ = target₁ ∧ visible text₂ = target₂ ∧
      ∀ merged, Merge text₁ text₂ merged →
        ((merged.filter (·.id ∈ base.map Element.id)).filter (·.live)).map key =
          (base.map key).filter fun k => k ∈ kept diff₁ (visible base) target₁ (liveKeys base) ∧
            k ∈ kept diff₂ (visible base) target₂ (liveKeys base) := by
  let P : ℕ × ℕ → Bool := fun id => id ∈ base.map Element.id
  have hbase : ∀ e ∈ base, P e.id = true := fun e he => decide_eq_true (mem_map_of_mem he)
  obtain ⟨changed₁, text₁, hrun₁, hvis₁, hkeys₁, hlive₁⟩ :=
    reconcileTextRef_spec hdiff₁ (fun n hn => decide_eq_false (hfresh₁ n hn)) hbase
  obtain ⟨changed₂, text₂, hrun₂, hvis₂, hkeys₂, hlive₂⟩ :=
    reconcileTextRef_spec hdiff₂ (fun n hn => decide_eq_false (hfresh₂ n hn)) hbase
  refine ⟨changed₁, text₁, changed₂, text₂, hrun₁, hrun₂, hvis₁, hvis₂, fun merged hmerge => ?_⟩
  refine (hmerge.survivors hkeys₁ hkeys₂).trans (filter_congr fun k hk => ?_)
  obtain ⟨e, he, rfl⟩ := mem_map.mp hk
  rw [← hlive₁, ← hlive₂]
  refine decide_eq_decide.mpr ?_
  simp only [mem_filter, show P e.key.1 = true from hbase e he, and_true]

/-- One side writes a character outside the basic plane and drops the last letter, the other one drops
the letter between. -/
theorem surrogate_pair_merges :
    let base : YText := [⟨(1, 0), 'a', true⟩, ⟨(1, 1), 'b', true⟩, ⟨(1, 2), 'c', true⟩]
    ∃ text₁ text₂, visible text₁ = ['a', '𝄞', 'b'] ∧ visible text₂ = ['a', 'c'] ∧ ∀ merged, Merge text₁ text₂ merged →
      ((merged.filter (·.id ∈ base.map Element.id)).filter (·.live)).map key = [((1, 0), 'a')] := by
  intro base
  obtain ⟨-, text₁, -, text₂, -, -, h₁, h₂, hmerged⟩ := concurrent_edits_keep_base_once base ['a', '𝄞', 'b'] ['a', 'c']
    [(.equal, ['a']), (.insert, ['𝄞']), (.equal, ['b']), (.delete, ['c'])] [(.equal, ['a']), (.delete, ['b']), (.equal, ['c'])]
    2 0 3 0 ⟨by decide, by decide⟩ ⟨by decide, by decide⟩ (by simp [base]) (by simp [base])
  exact ⟨text₁, text₂, h₁, h₂, fun merged hm => (hmerged merged hm).trans (by decide)⟩

end Mae.Sync
