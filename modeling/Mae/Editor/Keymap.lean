import Mathlib.Data.Finset.Insert
import Mathlib.Logic.Function.Basic

/-! Keymaps: bindings of key sequences, with the proper prefixes of everything ever bound kept beside them. -/

namespace Mae.Editor

open Function List

inductive Key where
  | char (c : Char)
  | escape
  | enter
  | backspace
  | tab
  | backTab
  | up
  | down
  | left
  | right
  | home
  | end
  | pageUp
  | pageDown
  | delete
  | f (n : UInt8)
deriving DecidableEq

structure KeyPress where
  key : Key
  ctrl : Bool := false
  alt : Bool := false
  shift : Bool := false
deriving DecidableEq

inductive LookupResult where
  | exact (command : String)
  | awaits
  | none
deriving DecidableEq

structure Keymap where
  bindings : List KeyPress → Option String
  prefixes : Finset (List KeyPress)

namespace Keymap

def new : Keymap := ⟨fun _ => .none, ∅⟩

-- The command that the new one replaces comes first.
def bind (m : Keymap) (seq : List KeyPress) (command : String) : Option String × Keymap :=
  (m.bindings seq,
    { bindings := Function.update m.bindings seq (some command)
      prefixes := (List.range' 1 (seq.length - 1)).foldl (fun known i => insert (seq.take i) known) m.prefixes })

def lookup (m : Keymap) (seq : List KeyPress) : LookupResult :=
  if seq ∈ m.prefixes then .awaits
  else match m.bindings seq with
    | some command => .exact command
    | none => .none

-- The prefixes stay.
def unbind (m : Keymap) (seq : List KeyPress) : Keymap :=
  { m with bindings := Function.update m.bindings seq none }

inductive Call where
  | bind (seq : List KeyPress) (command : String)
  | unbind (seq : List KeyPress)

def call (m : Keymap) : Call → Keymap
  | .bind seq command => (m.bind seq command).2
  | .unbind seq => m.unbind seq

def run (m : Keymap) (calls : List Call) : Keymap := calls.foldl call m

def Leads (s t : List KeyPress) : Prop := s <+: t ∧ s ≠ t

def Bound (m : Keymap) (t : List KeyPress) : Prop := m.bindings t ≠ none

/-- What a look-up should say of the sequence `s`, from the present bindings alone. -/
def Answers (m : Keymap) (s : List KeyPress) : LookupResult → Prop
  | .awaits => ∃ t, m.Bound t ∧ Leads s t
  | .exact command => (¬∃ t, m.Bound t ∧ Leads s t) ∧ m.bindings s = some command
  | .none => (¬∃ t, m.Bound t ∧ Leads s t) ∧ m.bindings s = .none

variable {m : Keymap} {s t : List KeyPress} {calls : List Call}

lemma mem_foldl_insert_take (is : List ℕ) (known : Finset (List KeyPress)) :
    s ∈ is.foldl (fun known i => insert (t.take i) known) known ↔ s ∈ known ∨ ∃ i ∈ is, s = t.take i := by
  induction is generalizing known with
  | nil => simp
  | cons i is ih =>
    rw [foldl_cons, ih, Finset.mem_insert]
    simp only [mem_cons, exists_eq_or_imp]
    tauto

lemma mem_prefixes_bind (command : String) :
    s ∈ (m.bind t command).2.prefixes ↔ s ∈ m.prefixes ∨ s ≠ [] ∧ Leads s t := by
  rw [bind, mem_foldl_insert_take]
  refine or_congr_right ⟨?_, ?_⟩
  · rintro ⟨i, hi, rfl⟩
    obtain ⟨hone, hlt⟩ := mem_range'_1.mp hi
    have hlen : (t.take i).length = i := length_take_of_le (by omega)
    refine ⟨fun h => ?_, take_prefix i t, fun h => ?_⟩
    · rw [h, length_nil] at hlen
      omega
    · rw [h] at hlen
      omega
  · rintro ⟨hne, hpre, hproper⟩
    have hlt : s.length < t.length :=
      lt_of_le_of_ne hpre.length_le fun h => hproper (hpre.eq_of_length h)
    have hpos : 0 < s.length := length_pos_of_ne_nil hne
    exact ⟨s.length, mem_range'_1.mpr (by omega), prefix_iff_eq_take.mp hpre⟩

lemma mem_prefixes_run (hs : s ≠ []) :
    s ∈ (m.run calls).prefixes ↔ s ∈ m.prefixes ∨ ∃ t command, Call.bind t command ∈ calls ∧ Leads s t := by
  induction calls generalizing m with
  | nil => simp [run]
  | cons c calls ih =>
    rw [run, foldl_cons, ← run, ih]
    cases c with
    | bind seq command =>
      rw [call, mem_prefixes_bind]
      grind
    | unbind seq =>
      rw [call, unbind]
      simp

lemma bound_run (h : (m.run calls).Bound t) : m.Bound t ∨ ∃ command, Call.bind t command ∈ calls := by
  induction calls generalizing m with
  | nil => exact .inl h
  | cons c calls ih =>
    obtain h | ⟨command, h⟩ := ih h
    · by_cases ht : ∃ command, c = .bind t command
      · obtain ⟨command, rfl⟩ := ht
        exact .inr ⟨command, mem_cons_self⟩
      · left
        cases c with
        | bind seq command =>
          have hne : t ≠ seq := fun he => ht ⟨command, he ▸ rfl⟩
          simpa [Bound, call, bind, update_of_ne hne] using h
        | unbind seq =>
          intro hnone
          apply h
          simp only [call, unbind, update_apply, hnone, ite_self]
    · exact .inr ⟨command, mem_cons_of_mem _ h⟩

lemma answers_lookup_iff : m.Answers s (m.lookup s) ↔ (s ∈ m.prefixes ↔ ∃ t, m.Bound t ∧ Leads s t) := by
  rw [lookup]
  split
  · rename_i h
    simp [Answers, h]
  · rename_i h
    cases hb : m.bindings s with
    | none => simp [Answers, hb, h]
    | some command => simp [Answers, hb, h]

theorem lookup_answers_iff (hs : s ≠ []) : (new.run calls).Answers s ((new.run calls).lookup s) ↔
      ((∃ t command, Call.bind t command ∈ calls ∧ Leads s t) → ∃ t, (new.run calls).Bound t ∧ Leads s t) := by
  have hmem : s ∈ (new.run calls).prefixes ↔ _ := mem_prefixes_run hs
  have hnew : s ∉ new.prefixes := Finset.notMem_empty s
  rw [answers_lookup_iff, hmem, or_iff_right hnew]
  refine ⟨Iff.mp, fun h => ⟨h, ?_⟩⟩
  rintro ⟨t, hbound, hleads⟩
  obtain hbound | ⟨command, hcall⟩ := bound_run hbound
  · exact absurd rfl hbound
  · exact ⟨t, command, hcall, hleads⟩

def press (c : Char) : KeyPress := { key := .char c }

theorem lookup_answers_after_bind : (new.run [.bind [press 'd', press 'd'] "delete-line"]).Answers [press 'd']
      ((new.run [.bind [press 'd', press 'd'] "delete-line"]).lookup [press 'd']) :=
  (lookup_answers_iff (by decide)).mpr fun _ =>
    ⟨[press 'd', press 'd'], by simp [Bound, run, call, bind], ⟨[press 'd'], rfl⟩, by decide⟩

theorem lookup_of_stale_prefix :
    (new.run [.bind [press 'a', press 'b'] "f", .bind [press 'a'] "g", .unbind [press 'a', press 'b']]).lookup
        [press 'a'] = .awaits ∧
      ¬(new.run [.bind [press 'a', press 'b'] "f", .bind [press 'a'] "g", .unbind [press 'a', press 'b']]).Answers
        [press 'a'] .awaits := by
  refine ⟨by decide, ?_⟩
  rintro ⟨t, hbound, -, hne⟩
  refine hbound ?_
  by_cases ht : t = [press 'a', press 'b']
  · simp [run, call, unbind, ht]
  · simp [run, call, bind, unbind, new, update_of_ne ht, update_of_ne hne.symm]

end Keymap

end Mae.Editor
