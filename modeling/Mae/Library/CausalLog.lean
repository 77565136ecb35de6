import Mathlib

/-! Logs of numbered operations by several clients. -/

namespace Mae.Library.CausalLog

open List

variable {κ β : Type*} [DecidableEq κ]

structure Op (κ β : Type*) where
  client : κ
  clock : ℕ
  deps : List (κ × ℕ)
  body : β
  deriving DecidableEq

def nextClock (l : List (Op κ β)) (c : κ) : ℕ := l.countP fun o => o.client = c

def Op.Known (l : List (Op κ β)) (o : Op κ β) : Prop := o.clock < nextClock l o.client
  deriving Decidable

def Op.Ready (l : List (Op κ β)) (o : Op κ β) : Prop :=
  o.clock = nextClock l o.client ∧ ∀ d ∈ o.deps, d.2 < nextClock l d.1
  deriving Decidable

def Causal : List (Op κ β) → Prop
  | [] => True
  | o :: l => o.Ready l ∧ Causal l

structure Log (κ β : Type*) [DecidableEq κ] where
  integrated : List (Op κ β)
  pending : List (Op κ β)
  causal : Causal integrated
  unknown : ∀ o ∈ pending, ¬ o.Known integrated

namespace Log

def empty : Log κ β := ⟨[], [], trivial, by simp⟩

def integrate (s : Log κ β) (o : Op κ β) (h : o.Ready s.integrated) : Log κ β where
  integrated := o :: s.integrated
  pending := s.pending.filter fun p => ¬ p.Known (o :: s.integrated)
  causal := ⟨h, s.causal⟩
  unknown p hp := by simpa using (mem_filter.mp hp).2

def settle : ℕ → Log κ β → Log κ β
  | 0, s => s
  | n + 1, s =>
    match h : s.pending.find? fun o => o.Ready s.integrated with
    | some o => settle n (s.integrate o (by simpa using find?_some h))
    | none => s

def receive (s : Log κ β) (ops : List (Op κ β)) : Log κ β where
  integrated := s.integrated
  pending := s.pending ++ ops.filter fun o => ¬ o.Known s.integrated
  causal := s.causal
  unknown o ho := by
    rcases mem_append.mp ho with ho | ho
    · exact s.unknown o ho
    · simpa using (mem_filter.mp ho).2

def absorb (s : Log κ β) (ops : List (Op κ β)) : Log κ β :=
  (s.receive ops).settle (s.receive ops).pending.length

end Log

section

variable {l : List (Op κ β)} {o p : Op κ β} {c : κ}

lemma nextClock_append (l l' : List (Op κ β)) (c : κ) : nextClock (l ++ l') c = nextClock l c + nextClock l' c := countP_append

lemma nextClock_le_of_suffix {l l' : List (Op κ β)} (h : l <:+ l') (c : κ) : nextClock l c ≤ nextClock l' c :=
  h.sublist.countP_le

lemma nextClock_lt_of_mem {new : List (Op κ β)} (h : o ∈ new) : nextClock l o.client < nextClock (new ++ l) o.client := by
  have hpos : 0 < nextClock new o.client := countP_pos_iff.mpr ⟨o, h, by simp⟩
  rw [nextClock_append]
  omega

lemma exists_of_nextClock_lt {new : List (Op κ β)} (h : nextClock l c < nextClock (new ++ l) c) : ∃ o ∈ new, o.client = c := by
  rw [nextClock_append] at h
  obtain ⟨o, ho, hc⟩ := countP_pos_iff.mp (show 0 < nextClock new c by omega)
  exact ⟨o, ho, by simpa using hc⟩

lemma Op.Ready.known (h : o.Ready l) : o.Known (o :: l) := by
  rw [Op.Known]
  simp [h.1, nextClock]

end

namespace Log

variable {s t : Log κ β} {ops : List (Op κ β)} {o p : Op κ β}

structure Progress (s t : Log κ β) : Prop where
  grows : ∃ new, t.integrated = new ++ s.integrated ∧ ∀ o ∈ new, o ∈ s.pending
  waits : ∀ o ∈ s.pending, o ∈ t.pending ∨ o.Known t.integrated

lemma Progress.refl (s : Log κ β) : Progress s s := ⟨⟨[], rfl, by simp⟩, fun _ ho => .inl ho⟩

lemma Progress.suffix (h : Progress s t) : s.integrated <:+ t.integrated := by
  obtain ⟨new, hnew, -⟩ := h.grows
  exact ⟨new, hnew.symm⟩

lemma mem_of_mem_integrate {h : o.Ready s.integrated} (hp : p ∈ (s.integrate o h).pending) : p ∈ s.pending :=
  mem_of_mem_filter hp

lemma progress_integrate (h : o.Ready s.integrated) (ho : o ∈ s.pending)
    (ht : Progress (s.integrate o h) t) : Progress s t := by
  obtain ⟨new, hnew, hmem⟩ := ht.grows
  constructor
  · refine ⟨new ++ [o], ?_, ?_⟩
    · rw [hnew, append_assoc]
      rfl
    · intro p hp
      rcases mem_append.mp hp with hp | hp
      · exact mem_of_mem_integrate (hmem p hp)
      · rw [mem_singleton.mp hp]
        exact ho
  · intro p hp
    by_cases hknown : p.Known (o :: s.integrated)
    · exact .inr (lt_of_lt_of_le hknown (nextClock_le_of_suffix ht.suffix _))
    · apply ht.waits
      exact mem_filter.mpr ⟨hp, by simpa using hknown⟩

lemma progress_settle (n : ℕ) (s : Log κ β) : Progress s (s.settle n) := by
  induction n generalizing s with
  | zero => exact .refl s
  | succ n ih =>
    rw [settle]
    split
    · next o hfind =>
      apply progress_integrate _ (mem_of_find?_eq_some hfind)
      exact ih _
    · exact .refl s

lemma length_integrate_lt (h : o.Ready s.integrated) (ho : o ∈ s.pending) :
    (s.integrate o h).pending.length < s.pending.length := by
  apply length_filter_lt_length_iff_exists.mpr
  exact ⟨o, ho, by simpa using h.known⟩

lemma not_ready_settle {n : ℕ} (hn : s.pending.length ≤ n) :
    ∀ o ∈ (s.settle n).pending, ¬ o.Ready (s.settle n).integrated := by
  induction n generalizing s with
  | zero =>
    intro o ho
    rw [settle, length_eq_zero_iff.mp (Nat.le_zero.mp hn)] at ho
    simp at ho
  | succ n ih =>
    rw [settle]
    split
    · next o hfind =>
      apply ih
      have hlt := length_integrate_lt (by simpa using find?_some hfind) (mem_of_find?_eq_some hfind)
      omega
    · next hfind =>
      intro o ho
      simpa using find?_eq_none.mp hfind o ho

lemma not_ready_absorb (ho : o ∈ (s.absorb ops).pending) : ¬ o.Ready (s.absorb ops).integrated :=
  not_ready_settle le_rfl o ho

lemma mem_receive (ho : o ∈ (s.receive ops).pending) : o ∈ s.pending ∨ o ∈ ops :=
  (mem_append.mp ho).imp_right mem_of_mem_filter

lemma absorb_grows (s : Log κ β) (ops : List (Op κ β)) :
    ∃ new, (s.absorb ops).integrated = new ++ s.integrated ∧ ∀ o ∈ new, o ∈ s.pending ∨ o ∈ ops := by
  obtain ⟨new, hnew, hmem⟩ := (progress_settle _ (s.receive ops)).grows
  exact ⟨new, hnew, fun o ho => mem_receive (hmem o ho)⟩

lemma absorb_waits (ho : o ∈ ops) : o ∈ (s.absorb ops).pending ∨ o.Known (s.absorb ops).integrated := by
  have hprogress := progress_settle (s.receive ops).pending.length (s.receive ops)
  by_cases hknown : o.Known s.integrated
  · exact .inr (lt_of_lt_of_le hknown (nextClock_le_of_suffix hprogress.suffix _))
  · apply hprogress.waits
    exact mem_append_right _ (mem_filter.mpr ⟨ho, by simpa using hknown⟩)

lemma pending_absorb (ho : o ∈ (s.absorb ops).pending) : o ∈ s.pending ∨ o ∈ ops := by
  have hsub : ∀ (n : ℕ) (s : Log κ β), ∀ p ∈ (s.settle n).pending, p ∈ s.pending := by
    intro n
    induction n with
    | zero => exact fun _ _ hp => hp
    | succ n ih =>
      intro s p hp
      rw [settle] at hp
      split at hp
      · exact mem_of_mem_integrate (ih _ p hp)
      · exact hp
  exact mem_receive (hsub _ _ o ho)

end Log

def Supplied (l ops : List (Op κ β)) (d : κ × ℕ) : Prop :=
  d.2 < nextClock l d.1 ∨ ∃ p ∈ ops, p.client = d.1 ∧ p.clock = d.2

def Ordered (l : List (Op κ β)) : List (Op κ β) → Prop
  | [] => True
  | o :: ops =>
    ((∀ k < o.clock, Supplied l ops (o.client, k)) ∧ ∀ d ∈ o.deps, Supplied l ops d) ∧ Ordered l ops

def Complete (l ops : List (Op κ β)) : Prop := ∃ v, (∀ o, o ∈ v ↔ o ∈ ops) ∧ Ordered l v

lemma Supplied.lt {l l' ops : List (Op κ β)} {d : κ × ℕ} (h : Supplied l ops d) (hl : l <:+ l')
    (hops : ∀ o ∈ ops, o.Known l') : d.2 < nextClock l' d.1 := by
  rcases h with h | ⟨p, hp, hclient, hclock⟩
  · exact lt_of_lt_of_le h (nextClock_le_of_suffix hl _)
  · have hknown := hops p hp
    rwa [Op.Known, hclient, hclock] at hknown

lemma Complete.pending_absorb {s : Log κ β} {ops : List (Op κ β)} (h : Complete s.integrated ops)
    (hpending : s.pending = []) : (s.absorb ops).pending = [] := by
  obtain ⟨v, hv, hordered⟩ := h
  obtain ⟨new, hnew, -⟩ := s.absorb_grows ops
  have hsuffix : s.integrated <:+ (s.absorb ops).integrated := ⟨new, hnew.symm⟩
  have hmem : ∀ o ∈ v, o ∈ ops := fun o => (hv o).mp
  -- by induction along the order: what comes before an operation is known, so that it is ready or known itself
  have hknown : ∀ o ∈ v, o.Known (s.absorb ops).integrated := by
    clear hv
    induction v with
    | nil => simp
    | cons o v ih =>
      obtain ⟨⟨hclocks, hdeps⟩, hrest⟩ := hordered
      have hv := ih hrest fun p hp => hmem p (mem_cons_of_mem _ hp)
      refine forall_mem_cons.mpr ⟨?_, hv⟩
      rcases Log.absorb_waits (hmem o mem_cons_self) with hwait | hknown
      · by_contra hunknown
        apply Log.not_ready_absorb hwait
        refine ⟨le_antisymm ?_ (not_lt.mp hunknown), fun d hd => (hdeps d hd).lt hsuffix hv⟩
        by_contra hlt
        have hself := (hclocks _ (not_le.mp hlt)).lt hsuffix hv
        exact lt_irrefl _ hself
      · exact hknown
  refine eq_nil_iff_forall_not_mem.mpr fun o ho => (s.absorb ops).unknown o ho ?_
  rcases Log.pending_absorb ho with hold | hop
  · simp [hpending] at hold
  · exact hknown o ((hv o).mpr hop)

end Mae.Library.CausalLog
