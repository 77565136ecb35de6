import Mae.Scheme.Rules

/-! What an evaluation that fails leaves behind for the next one. -/

namespace Mae.Scheme

open Library Exec

variable {W : Type}

namespace Vm

def cleared (m : Vm W) : Vm W := { m with stack := [], frames := [], handlers := [], winders := [] }

structure Idle (m : Vm W) : Prop where
  stack : m.stack = []
  frames : m.frames = []
  handlers : m.handlers = []
  winders : m.winders = []

lemma Idle.cleared_eq {m : Vm W} (h : m.Idle) : m.cleared = m := by
  cases m
  obtain ⟨hs, hf, hh, hw⟩ := h
  simp_all [cleared]

structure SameRun (m m' : Vm W) : Prop where
  stack : m'.stack = m.stack
  frames : m'.frames = m.frames
  handlers : m'.handlers = m.handlers
  winders : m'.winders = m.winders
  codePool : m'.codePool = m.codePool
  executed : m'.executed = m.executed

lemma SameRun.idle {m m' : Vm W} (h : m.SameRun m') (hm : m.Idle) : m'.Idle :=
  ⟨h.stack.trans hm.stack, h.frames.trans hm.frames, h.handlers.trans hm.handlers, h.winders.trans hm.winders⟩

end Vm

def runsCode (datum : Value) : Bool :=
  match datum.toList? with
  | some (.symbol "define-library" :: _) => true
  | some [.symbol "load", _] => true
  | _ => false

variable (host : Host W) (self : Calls W) {m m₀ : Vm W}

lemma importSet_sameRun (unknown : LibraryName → LispError) (s : ImportSet) (h : m₀.SameRun m) :
    wp (importSet unknown s) m (fun _ => m₀.SameRun) (fun _ => m₀.SameRun) := by
  unfold importSet
  simp only [wp_bind, wp_get]
  cases m.library? s.library with
  | none => exact h
  | some lib =>
    simp only [wp_bind]
    cases resolveImport s lib with
    | error e => exact h
    | ok env => exact ⟨h.stack, h.frames, h.handlers, h.winders, h.codePool, h.executed⟩

lemma processImport_sameRun (items : List Value) (h : m₀.SameRun m) :
    wp (processImport items) m (fun _ => m₀.SameRun) (fun _ => m₀.SameRun) := by
  unfold processImport
  cases parseTopLevelImport items with
  | error e => exact h
  | ok sets => exact wp_forM (fun s _ t ht => importSet_sameRun _ s ht) h

lemma topLevelForms_sameRun (fuel : ℕ) {datums : List Value} (hd : ∀ d ∈ datums, runsCode d = false)
    (h : m₀.SameRun m) :
    wp (topLevelForms host self fuel datums) m (fun _ => m₀.SameRun) (fun _ => m₀.SameRun) := by
  induction datums generalizing m with
  | nil => exact h
  | cons datum datums ih =>
    have hds : ∀ d ∈ datums, runsCode d = false := fun d hm => hd d (List.mem_cons_of_mem _ hm)
    have hdatum := hd datum List.mem_cons_self
    unfold topLevelForms
    unfold runsCode at hdatum
    split
    · simp only [wp_bind]
      exact (processImport_sameRun _ h).mono (fun _ t ht => ih hds ht) (fun _ _ ht => ht)
    · simp_all
    · simp_all
    · simp only [wp_bind, wp_pure]
      exact ih hds h

def LoadsNothing (source : String) (m : Vm W) : Prop :=
  ∀ datums w, host.readAll source m.store.world = (.ok datums, w) → ∀ d ∈ datums, runsCode d = false

lemma submit_error_sameRun (fuel : ℕ) {source : String} (hs : LoadsNothing host source m) :
    wp (submit host self fuel source) m (fun _ _ => True) (fun _ => m.SameRun) := by
  unfold submit
  rw [wp_bind]
  have hm (w : W) : m.SameRun (m.setWorld w) := ⟨rfl, rfl, rfl, rfl, rfl, rfl⟩
  refine wp_onWorld (fun datums w hr => ?_) (fun e w _ => hm w)
  rw [wp_bind]
  refine (topLevelForms_sameRun host self fuel (hs datums w hr) (hm w)).mono (fun forms t ht => ?_) (fun _ _ h => h)
  refine wp_ite.2 ⟨fun _ => trivial, fun _ => ?_⟩
  rw [wp_bind]
  refine wp_compileForms (fun id c _ => trivial) (fun e c _ => ?_)
  exact ⟨ht.stack, ht.frames, ht.handlers, ht.winders, ht.codePool, ht.executed⟩

def Rejects (fuel : ℕ) (source : String) (m : Vm W) : Prop :=
  ∃ e m', submit host (calls host none fuel) fuel source m = some (.error e, m')

def failingPrograms : Host (List Value) :=
  .sample [("first", [.list [sym "begin", sym "nope", .list [sym "display", .int 1]]]), ("second", [.int 0]),
    ("broken", [.list [sym "if"]])]

def sampleOutcome (x : VmM (List Value) Value) : Option (Except LispError Value × List Value × List ℕ) :=
  (x .sample).map fun p => (p.1, p.2.store.world, p.2.executed.map (·.1))

end Mae.Scheme
