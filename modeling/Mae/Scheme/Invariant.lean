import Mae.Scheme.Rules

/-! Invariants of the machine over whole runs. -/

namespace Mae.Scheme

open Library Exec

variable {W α : Type}

def Vm.core (m : Vm W) : Vm Unit where
  stack := []
  frames := []
  globals := m.globals
  codePool := m.codePool
  maxFrames := m.maxFrames
  macros := m.macros
  libraries := m.libraries
  handlers := []
  winders := []
  libraryEnv := m.libraryEnv
  ambientTier := m.ambientTier
  store := ⟨[], m.store.envs, m.store.continuations, 0, (), m.store.invocations⟩
  submitted := m.submitted
  executed := m.executed

section Core

variable (m : Vm W) (f : Frame)

lemma Vm.loadLocal_core (idx : ℕ) : (m.loadLocal idx f).core = m.core := by
  rw [Vm.loadLocal]
  split <;> rfl

lemma Vm.storeLocal_core (idx : ℕ) : (m.storeLocal idx f).core = m.core := by
  rw [Vm.storeLocal]
  split <;> rfl

lemma Vm.loadUpvalue_core (idx : ℕ) : (m.loadUpvalue idx f).core = m.core := by
  rw [Vm.loadUpvalue]
  split <;> rfl

lemma Vm.storeUpvalue_core (idx : ℕ) : (m.storeUpvalue idx f).core = m.core := by
  rw [Vm.storeUpvalue]
  split <;> rfl

lemma Vm.jumpIfFalse_core (offset : Int) : (m.jumpIfFalse offset).core = m.core := by
  rw [Vm.jumpIfFalse]
  split <;> rfl

lemma Vm.dup_core : m.dup.core = m.core := by
  rw [Vm.dup]
  split <;> rfl

lemma Vm.captureCell_core (desc : UpvalueDesc) : (m.captureCell f desc).2.core = m.core := by
  cases desc with
  | ofLocal idx =>
    simp only [Vm.captureCell]
    split <;> rfl
  | ofUpvalue idx =>
    simp only [Vm.captureCell]
    split <;> rfl

lemma Vm.captureCells_core (descs : List UpvalueDesc) : (m.captureCells f descs).2.core = m.core := by
  induction descs generalizing m with
  | nil => rfl
  | cons desc descs ih => exact (ih _).trans (m.captureCell_core f desc)

lemma Vm.makeClosure_core (codeId : ℕ) (code : CodeObject) (descs : List UpvalueDesc) :
    (m.makeClosure codeId code descs f).core = m.core :=
  m.captureCells_core f descs

end Core

structure Calls.Preserve (c : Calls W) (I : Vm W → Prop) (E : LispError → Vm W → Prop) : Prop where
  run : Preserves I E c.run
  runBlocking : Preserves I E c.runBlocking
  doCall : ∀ argc tail, Preserves I E (c.doCall argc tail)

structure RunInvariant (nested : Calls W) (I : Vm W → Prop) (E : LispError → Vm W → Prop) : Prop where
  core : ∀ {m m'}, I m → m'.core = m.core → I m'
  error_core : ∀ {e m m'}, E e m → m'.core = m.core → E e m'
  executed : ∀ {m id}, I m → id < m.codePool.length → I { m with executed := (id, m.ambientTier) :: m.executed }
  continuation : ∀ {m} cont, I m → I (m.mapStore fun s => { s with continuations := s.continuations ++ [cont] })
  granted : ∀ {m f} args, I m → (∀ required, f.tier.required = some required → required ≤ m.ambientTier) →
    I (m.mapStore fun s => { s with invocations := .granted f args m.ambientTier :: s.invocations })
  denied : ∀ {m} f required, I m → E (.permissionDenied f.name required m.ambientTier)
    (m.mapStore fun s => { s with invocations := .denied f m.ambientTier :: s.invocations })
  error : ∀ {m} e, I m → E e m
  recovered : ∀ {e m}, E e m → e.isPermissionDenied = false → I m
  global : ∀ {m code op name}, I m → code ∈ m.codePool → op ∈ code.ops → op = .storeGlobal name ∨ op = .defineGlobal name →
    ∀ {m'} v, I m' → I (m'.defineGlobal name v)
  evals : ∀ {m code op}, I m → code ∈ m.codePool → op ∈ code.ops → op = .eval ∨ op = .load →
    ∀ source, Preserves I E (nested.eval source)

section Run

variable {host : Host W} {self : Calls W} {I : Vm W → Prop} {E : LispError → Vm W → Prop} (hI : RunInvariant self I E)
include hI

namespace RunInvariant

variable {f : Vm W → Vm W}

lemma modify (hf : ∀ m, (f m).core = m.core) : Preserves I E (modify f) :=
  .modify fun m h => hI.core h (hf m)

lemma modify_bind {k : VmM W α} (hf : ∀ m, (f m).core = m.core) (hk : Preserves I E k) :
    Preserves I E (Exec.modify f >>= fun _ => k) :=
  (hI.modify hf).bind fun _ _ => hk

lemma throw (e : LispError) : Preserves I E (throw e : VmM W α) := .throw fun _ => hI.error e

lemma require (b : Bool) (e : LispError) : Preserves I E (require b e) :=
  (Yields.require fun _ => hI.error e).mono fun _ _ => trivial

lemma lift (r : Except LispError α) : Preserves I E (lift r) := .lift (fun _ _ => trivial) fun e _ => hI.error e

lemma update {v : α} (hf : ∀ m, (f m).core = m.core) : Preserves I E (Exec.modify f >>= fun _ => pure v) :=
  hI.modify_bind hf (.pure trivial)

lemma pop (d : Value) : Preserves I E (pop d) := fun m h => by
  exact ⟨hI.core h rfl, trivial⟩

lemma onWorld (f : W → Except LispError α × W) : Preserves I E (onWorld f) := fun _ h =>
  wp_onWorld (fun _ _ _ => ⟨hI.core h rfl, trivial⟩) fun e _ _ => hI.error_core (hI.error e h) rfl

end RunInvariant

lemma callClosure_preserves (c : Closure) (argc fnPos : ℕ) (tail : Bool) :
    Preserves I E (callClosure c argc fnPos tail) := by
  refine (hI.require _ _).bind fun _ _ => Yields.get.bind fun m _ => ?_
  split
  · split
    · exact .stuck
    · exact hI.modify fun _ => rfl
  · split
    · exact hI.throw _
    · exact hI.modify fun _ => rfl

lemma checkTier_spec (f : ForeignFn) (fnPos : ℕ) {m : Vm W} (h : I m) :
    wp (checkTier f fnPos) m (fun _ m' => m' = m ∧ ∀ required, f.tier.required = some required → required ≤ m.ambientTier)
      E := by
  rw [checkTier]
  simp only [wp_bind, wp_get]
  cases hf : f.tier.required with
  | none => exact ⟨rfl, fun _ h => by simp at h⟩
  | some required =>
    simp only [wp_ite, wp_bind, wp_record, wp_modify, wp_throw, wp_pure]
    refine ⟨fun _ => hI.error_core (hI.denied f required h) rfl, fun hlt => ⟨trivial, ?_⟩⟩
    rintro _ ⟨⟩
    exact not_lt.1 hlt

lemma callForeign_preserves (f : ForeignFn) (argc fnPos : ℕ) : Preserves I E (callForeign host f argc fnPos) := by
  intro m h
  rw [callForeign, wp_bind]
  refine (checkTier_spec hI f fnPos h).mono ?_ fun _ _ he => he
  rintro _ _ ⟨rfl, hf⟩
  simp only [wp_bind, wp_require, wp_get, wp_modify, wp_record]
  refine ⟨fun _ => ?_, fun _ => hI.error _ h⟩
  rename_i m' _
  have hgranted := hI.granted (m'.stack.drop (fnPos + 1)) h hf
  exact wp_onWorld (fun v w _ => ⟨hI.core hgranted rfl, trivial⟩) fun e w _ => hI.error_core (hI.error e hgranted) rfl

variable (hself : self.Preserve I E)
include hself

lemma callAlone_preserves (x : VmM W Unit) (hx : Preserves I E x) : Preserves I E (do
      x
      let m ← Exec.get
      if m.frames.isEmpty then pop .void else self.runBlocking) := by
  refine hx.bind fun _ _ => Yields.get.bind fun m _ => ?_
  split
  · exact hI.pop _
  · exact hself.runBlocking

lemma callThunkWithArgs_preserves (func : Value) (args : List Value) : Preserves I E (callThunkWithArgs self func args) := by
  refine Yields.get.bind fun saved _ => hI.modify_bind (fun _ => rfl) ?_
  refine Yields.recover (callAlone_preserves hI hself _ (hself.doCall _ _)) (fun v _ => ?_) fun e m h => ?_
  · exact hI.modify_bind (fun _ => rfl) (hI.lift _)
  · exact hI.error_core h rfl

lemma callThunks_preserves (thunks : List Value) : Preserves I E (callThunks self thunks) := by
  induction thunks with
  | nil => exact .pure trivial
  | cons thunk thunks ih => exact (callThunkWithArgs_preserves hI hself thunk []).bind fun _ _ => ih

lemma callContinuation_preserves (cont : Continuation) (argc fnPos : ℕ) :
    Preserves I E (callContinuation self cont argc fnPos) := by
  refine (hI.require _ _).bind fun _ _ => (hI.pop _).bind fun val _ => ?_
  refine hI.modify_bind (fun _ => rfl) (Yields.get.bind fun m _ => ?_)
  refine (callThunks_preserves hI hself _).bind fun _ _ => (callThunks_preserves hI hself _).bind fun _ _ => ?_
  exact hI.modify fun _ => rfl

lemma doCall_preserves (argc : ℕ) (tail : Bool) : Preserves I E (doCall host self argc tail) := by
  refine Yields.get.bind fun m _ => (hI.require _ _).bind fun _ _ => ?_
  dsimp only
  split
  · exact callClosure_preserves hI _ _ _ _
  · exact callForeign_preserves hI _ _ _
  · split
    · exact callContinuation_preserves hI hself _ _ _
    · exact .stuck
  · exact hI.throw _

lemma dispatchRaise_preserves (exception : Value) : Preserves I E (dispatchRaise host self exception) := by
  refine Yields.get.bind fun m _ => ?_
  split
  · exact hI.throw _
  · refine hI.modify_bind (fun _ => rfl) ?_
    split
    · exact hI.modify fun _ => rfl
    · refine hI.modify_bind (fun _ => rfl) ?_
      refine Yields.recover (callAlone_preserves hI hself _ (doCall_preserves hI hself _ _)) (fun v _ => ?_) fun e m h => ?_
      · exact hI.modify_bind (fun _ => rfl) ((hI.lift _).bind fun _ _ => hI.modify fun _ => rfl)
      · exact hI.error_core h rfl

lemma handleException_preserves (e : LispError) : Preserves I E (handleException host self e) := by
  refine Yields.bind (P := fun _ => True) (Yields.get.bind fun m _ => ?_) fun v _ => dispatchRaise_preserves hI hself v
  split
  · exact .pure trivial
  · exact hI.onWorld _
  · exact hI.onWorld _
  · exact .pure trivial

lemma callOp_preserves (argc : ℕ) (tail : Bool) : Preserves I E (callOp host self argc tail) := by
  refine Yields.recover (doCall_preserves hI hself argc tail) (fun _ _ => .pure trivial) fun e m h => ?_
  cases hy : e.yieldReason? with
  | some reason =>
    have hd : e.isPermissionDenied = false := by
      rw [LispError.yieldReason?] at hy
      rw [LispError.isPermissionDenied]
      split at hy <;> simp_all
    simp only [hy]
    exact ⟨hI.recovered h hd, trivial⟩
  | none =>
    simp only [hy, wp_ite, wp_throw]
    refine ⟨fun _ => h, fun hd => ?_⟩
    have hhandle : Preserves I E (handleException host self e >>= fun _ => pure (none : Option EvalResult)) :=
      (handleException_preserves hI hself e).bind fun _ _ => .pure trivial
    exact hhandle m (hI.recovered h (by simpa using hd))

lemma execOp_preserves (f : Frame) (op : Op)
    (hglobal : ∀ name, op = .storeGlobal name ∨ op = .defineGlobal name → ∀ v m, I m → I (m.defineGlobal name v))
    (heval : op = .eval ∨ op = .load → ∀ source, Preserves I E (self.eval source)) :
    Preserves I E (execOp host self f op) := by
  cases op with
  | const v => exact hI.update fun _ => rfl
  | loadGlobal name => exact Yields.get.bind fun m _ => (hI.lift _).bind fun _ _ => hI.update fun _ => rfl
  | storeGlobal name =>
    exact (hI.pop _).bind fun v _ => Yields.bind (.modify (hglobal name (Or.inl rfl) v)) fun _ _ => .pure trivial
  | defineGlobal name =>
    exact (hI.pop _).bind fun v _ => Yields.bind (.modify (hglobal name (Or.inr rfl) v)) fun _ _ => .pure trivial
  | loadLocal idx => exact hI.update fun m => m.loadLocal_core f idx
  | storeLocal idx => exact hI.update fun m => m.storeLocal_core f idx
  | loadUpvalue idx => exact hI.update fun m => m.loadUpvalue_core f idx
  | storeUpvalue idx => exact hI.update fun m => m.storeUpvalue_core f idx
  | call argc => exact callOp_preserves hI hself argc false
  | tailCall argc => exact callOp_preserves hI hself argc true
  | jumpIfFalse offset => exact hI.update fun m => m.jumpIfFalse_core offset
  | dup => exact hI.update fun m => m.dup_core
  | makeClosure codeId descs =>
    refine Yields.get.bind fun m _ => ?_
    split
    · exact hI.update fun m => m.makeClosure_core f codeId _ descs
    · exact .stuck
  | captureCc =>
    refine Yields.get.bind fun m _ => ?_
    split
    · exact .stuck
    · exact Yields.bind (.modify fun _ h => hI.core (hI.continuation _ h) rfl) fun _ _ => .pure trivial
  | yield => exact (hI.pop _).bind fun _ _ => .pure trivial
  | nop => exact .pure trivial
  | apply =>
    refine (hI.pop _).bind fun _ _ => (hI.pop _).bind fun _ _ => (hI.lift _).bind fun args _ => ?_
    exact hI.modify_bind (fun _ => rfl) (callOp_preserves hI hself args.length false)
  | raise => exact (hI.pop _).bind fun v _ => (dispatchRaise_preserves hI hself v).bind fun _ _ => .pure trivial
  | values => exact hI.throw _
  | callWithValues => exact hI.throw _
  | eval =>
    refine (hI.pop _).bind fun _ _ => Yields.get.bind fun m _ => (heval (Or.inl rfl) _).bind fun _ _ => ?_
    exact hI.update fun _ => rfl
  | load =>
    refine (hI.pop _).bind fun _ _ => ?_
    split
    · refine (hI.onWorld _).bind fun _ _ => (heval (Or.inr rfl) _).bind fun _ _ => ?_
      exact hI.update fun _ => rfl
    · exact Yields.get.bind fun m _ => hI.throw _
  | ret | jump | pop | pushHandler | popHandler | pushWinder | popWinder | pushClosureHandler | popClosureHandler =>
    exact hI.update fun _ => rfl

lemma step_preserves : Preserves I E (step host self) := by
  intro m h
  rw [step]
  simp only [wp_bind, wp_get]
  split
  · exact ⟨hI.core h rfl, trivial⟩
  · rename_i f frames _
    split
    · trivial
    · rename_i code hcode
      split
      · exact ⟨hI.core h rfl, trivial⟩
      · rename_i op hop
        have hid : f.codeId < m.codePool.length := (List.getElem?_eq_some_iff.1 hcode).1
        have hcode' := List.mem_of_getElem? hcode
        have hop' := List.mem_of_getElem? hop
        exact execOp_preserves hI hself f op (fun _ hop v _ hm => hI.global h hcode' hop' hop v hm)
          (hI.evals h hcode' hop') _ (hI.core (hI.executed h hid) rfl)

lemma runStep_preserves : Preserves I E (runStep host self) := by
  refine (step_preserves hI hself).bind fun r _ => ?_
  cases r with
  | some r => exact .pure trivial
  | none => exact hself.run

lemma runBlockingStep_preserves : Preserves I E (runBlockingStep host self) := by
  refine hself.run.bind fun r _ => ?_
  cases r with
  | done v => exact .pure trivial
  | yield reason => exact (hI.onWorld _).bind fun _ _ => hI.modify_bind (fun _ => rfl) hself.runBlocking

lemma execute_preserves (codeId : ℕ) : Preserves I E (execute host self codeId) := by
  refine Yields.get.bind fun m _ => ?_
  split
  · exact .stuck
  · refine hI.modify_bind (fun _ => rfl) (hself.run.bind fun r _ => ?_)
    cases r with
    | done v => exact .pure trivial
    | yield reason =>
      refine (hI.onWorld _).bind fun _ _ => hI.modify_bind (fun _ => rfl) (hself.run.bind fun r _ => ?_)
      cases r with
      | done v => exact .pure trivial
      | yield reason => exact .pure trivial

end Run

structure EvalInvariant (host : Host W) (nested : Calls W) (I : Vm W → Prop) (E : LispError → Vm W → Prop) : Prop
    extends RunInvariant nested I E where
  compiled : ∀ {m fuel exprs id c}, I m → compileTopLevel (services host nested) fuel exprs (.ofVm m) = some (.ok id, c) →
    I (m.install c id)
  rejected : ∀ {m fuel exprs e c}, I m →
    compileTopLevel (services host nested) fuel exprs (.ofVm m) = some (.error e, c) → E e { m with store := c.store }
  imported : ∀ {m} globals, I m → I { m with globals := globals }
  opened : ∀ {m}, I m → I { m with libraryEnv := none }
  moduleEnv : ∀ {m} env, I m →
    I { m.mapStore fun s => { s with envs := s.envs ++ [env] } with libraryEnv := some m.store.envs.length }
  closed : ∀ {saved m}, I saved → I m → I { m with libraryEnv := saved.libraryEnv }
  library : ∀ {m} lib, I m → I { m with libraries := lib :: m.libraries }

section Eval

variable {host : Host W} {self : Calls W} {I : Vm W → Prop} {E : LispError → Vm W → Prop}
  (hI : EvalInvariant host self I E)
include hI

lemma compileForms_preserves (fuel : ℕ) (exprs : List Value) : Preserves I E (compileForms host self fuel exprs) := fun _ h =>
  wp_compileForms (fun _ _ hc => ⟨hI.compiled h hc, trivial⟩) fun _ _ hc => hI.rejected h hc

lemma importSet_preserves (unknown : LibraryName → LispError) (s : ImportSet) :
    Preserves I E (importSet unknown s) := by
  refine Yields.get.bind fun m _ => ?_
  split
  · exact hI.throw _
  · exact (hI.lift _).bind fun env _ => .modify fun _ h => hI.imported _ h

lemma processImport_preserves (items : List Value) : Preserves I E (processImport items) :=
  (hI.lift _).bind fun _ _ => .forM fun s => importSet_preserves hI _ s

lemma collectExports_preserves {saved : Vm W} (hsaved : I saved) (env : ℕ) (lib : LibraryDef)
    (specs : List (String × String)) (exports : Env) : Preserves I E (collectExports saved env lib specs exports) := by
  induction specs generalizing exports with
  | nil => exact .pure trivial
  | cons spec specs ih =>
    refine Yields.get.bind fun m _ => ?_
    split
    · exact ih _
    · exact Yields.bind (.modify fun _ h => hI.imported saved.globals (hI.closed hsaved h)) fun _ _ => hI.throw _

variable (hself : self.Preserve I E) (heval : ∀ source, Preserves I E (self.eval source))
include hself

lemma runLibraryBody_preserves (fuel : ℕ) (body : List Value) : Preserves I E (runLibraryBody host self fuel body) := by
  rw [runLibraryBody]
  split
  · exact .pure trivial
  · refine (compileForms_preserves hI fuel body).bind fun id _ => ?_
    exact (execute_preserves hI.toRunInvariant hself id).bind fun _ _ => .pure trivial

lemma processDefineLibrary_preserves (fuel : ℕ) (items : List Value) :
    Preserves I E (processDefineLibrary host self fuel items) := by
  refine (hI.lift _).bind fun lib _ => Yields.get.bind fun saved hsaved => (hI.require _ _).bind fun _ _ => ?_
  refine Yields.bind (.modify fun _ h => hI.imported ∅ (hI.opened h)) fun _ _ => ?_
  refine Yields.bind (Yields.forM fun s => importSet_preserves hI _ s) fun _ _ => ?_
  refine Yields.bind (.modify fun m h => hI.moduleEnv m.globals h) fun _ _ => ?_
  refine (runLibraryBody_preserves hI hself fuel lib.body).bind fun _ _ => Yields.get.bind fun m _ => ?_
  split
  · exact .stuck
  · refine (collectExports_preserves hI hsaved _ lib _ _).bind fun exports _ => ?_
    exact .modify fun m h => hI.imported saved.globals (hI.closed hsaved (hI.library _ h))

omit hself
include heval

lemma processLoad_preserves (file : Value) : Preserves I E (processLoad host self file) := by
  unfold processLoad
  split
  · exact (hI.onWorld _).bind fun _ _ => (heval _).bind fun _ _ => .pure trivial
  · exact hI.throw _

include hself

lemma topLevelForms_preserves (fuel : ℕ) (datums : List Value) : Preserves I E (topLevelForms host self fuel datums) := by
  induction datums with
  | nil => exact .pure trivial
  | cons datum datums ih =>
    rw [topLevelForms]
    split
    · exact (processImport_preserves hI _).bind fun _ _ => ih
    · exact (processDefineLibrary_preserves hI hself fuel _).bind fun _ _ => ih
    · exact (processLoad_preserves hI heval _).bind fun _ _ => ih
    · exact ih.bind fun forms _ => .pure trivial

lemma submit_preserves (fuel : ℕ) (source : String) : Preserves I E (submit host self fuel source) := by
  refine (hI.onWorld _).bind fun datums _ => (topLevelForms_preserves hI hself heval fuel datums).bind fun forms _ => ?_
  split
  · exact .pure trivial
  · exact (compileForms_preserves hI fuel forms).bind fun id _ => .pure trivial

lemma evalStep_preserves (fuel : ℕ) (source : String) : Preserves I E (evalStep host self fuel source) := by
  refine (submit_preserves hI hself heval fuel source).bind fun id _ => ?_
  cases id with
  | none => exact .pure trivial
  | some id => exact execute_preserves hI.toRunInvariant hself id

end Eval

lemma abandon_preserves {I : Vm W → Prop} {E : LispError → Vm W → Prop} (hI : ∀ m e, I m → E e m)
    (timeout : Option LispError) : Preserves I E (abandon timeout : VmM W α) := by
  cases timeout with
  | none => exact .stuck
  | some e => exact .throw fun m => hI m e

theorem calls_preserve {ι : Type} {I : ι → Vm W → Prop} {E : ι → LispError → Vm W → Prop} (host : Host W)
    (hE : ∀ i m e, I i m → E i e m)
    (hI : ∀ self : Calls W, (∀ i, self.Preserve (I i) (E i) ∧ ∀ source, Preserves (I i) (E i) (self.eval source)) →
      ∀ i, EvalInvariant host self (I i) (E i))
    (timeout : Option LispError) (fuel : ℕ) (i : ι) :
    (calls host timeout fuel).Preserve (I i) (E i) ∧ ∀ source, Preserves (I i) (E i) ((calls host timeout fuel).eval source) := by
  induction fuel generalizing i with
  | zero =>
    exact ⟨⟨abandon_preserves (hE i) _, abandon_preserves (hE i) _, fun _ _ => abandon_preserves (hE i) _⟩,
      fun _ => abandon_preserves (hE i) _⟩
  | succ fuel ih =>
    have hi := hI _ ih i
    obtain ⟨hself, heval⟩ := ih i
    exact ⟨⟨runStep_preserves hi.toRunInvariant hself, runBlockingStep_preserves hi.toRunInvariant hself,
      doCall_preserves hi.toRunInvariant hself⟩, evalStep_preserves hi hself heval fuel⟩

theorem calls_preserve_run {I : Vm W → Prop} {E : LispError → Vm W → Prop} (host : Host W) (hE : ∀ m e, I m → E e m)
    (hI : ∀ self : Calls W, RunInvariant self I E) (timeout : Option LispError) (fuel : ℕ) :
    (calls host timeout fuel).Preserve I E := by
  induction fuel with
  | zero => exact ⟨abandon_preserves hE _, abandon_preserves hE _, fun _ _ => abandon_preserves hE _⟩
  | succ fuel ih => exact ⟨runStep_preserves (hI _) ih, runBlockingStep_preserves (hI _) ih, doCall_preserves (hI _) ih⟩

end Mae.Scheme
