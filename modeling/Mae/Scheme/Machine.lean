import Mathlib
import Mae.Scheme.Compiler
import Mae.Scheme.Imports

/-! The virtual machine. -/

namespace Mae.Scheme

open Library Exec

inductive ExceptionHandler where
  | guard (handlerIp codeId stackDepth frameDepth : ℕ)
  | closure (handler : Value)
  deriving DecidableEq, Repr, Inhabited

inductive EvalResult where
  | done (v : Value)
  | yield (reason : YieldReason)
  deriving DecidableEq, Repr, Inhabited

structure Vm (W : Type) where
  stack : List Value
  frames : List Frame
  globals : Env
  codePool : List CodeObject
  maxFrames : ℕ
  macros : MacroTable
  libraries : List SchemeLibrary
  handlers : List ExceptionHandler
  winders : List Winder
  libraryEnv : Option ℕ
  ambientTier : PermissionTier
  store : Store W
  submitted : List (ℕ × PermissionTier)
  executed : List (ℕ × PermissionTier)

/-- The standard library: the functions registered before and after its Scheme part, and that part. -/
structure Stdlib where
  before : Env
  bootstrap : String
  after : Env

/-- What the machine takes from its surroundings. -/
structure Host (W : Type) where
  call : ForeignFn → List Value → W → Except LispError Value × W
  await : YieldReason → W → Except LispError Unit × W
  readAll : String → W → Except LispError (List Value) × W
  display : W → Value → String
  readToString : String → W → Except LispError String × W
  includeFile : Bool → String → W → Except LispError (List Value) × W
  errorObject : String → String → W → Value × W
  stdlib : Stdlib

abbrev VmM (W : Type) := Exec (Vm W) LispError

/-- The calls of the machine to itself. -/
structure Calls (W : Type) where
  run : VmM W EvalResult
  runBlocking : VmM W Value
  doCall : ℕ → Bool → VmM W Unit
  eval : String → VmM W Value

variable {W : Type}

namespace Vm

def new (store : Store W) : Vm W where
  stack := []
  frames := []
  globals := ∅
  codePool := []
  maxFrames := 10000
  macros := ∅
  libraries := []
  handlers := []
  winders := []
  libraryEnv := none
  ambientTier := .privileged
  store := store
  submitted := []
  executed := []

def push (v : Value) (m : Vm W) : Vm W := { m with stack := m.stack ++ [v] }

def top (default : Value) (m : Vm W) : Value := m.stack.getLast?.getD default

def drop (m : Vm W) : Vm W := { m with stack := m.stack.dropLast }

def truncate (depth : ℕ) (m : Vm W) : Vm W := { m with stack := m.stack.take depth }

def mapFrame (f : Frame → Frame) (m : Vm W) : Vm W :=
  { m with frames := match m.frames with
      | [] => []
      | fr :: rest => f fr :: rest }

/-- The innermost `depth` frames from the bottom of the call stack. -/
def truncateFrames (depth : ℕ) (m : Vm W) : Vm W := { m with frames := m.frames.drop (m.frames.length - depth) }

def mapStore (f : Store W → Store W) (m : Vm W) : Vm W := { m with store := f m.store }

def setWorld (w : W) (m : Vm W) : Vm W := m.mapStore fun s => { s with world := w }

def mapLibraryEnv (f : Env → Env) (m : Vm W) : Vm W :=
  match m.libraryEnv with
  | none => m
  | some i => m.mapStore fun s => { s with envs := s.envs.modify i f }

/-- `DefineGlobal`, and `StoreGlobal`, which falls back to a definition. -/
def defineGlobal (name : String) (v : Value) (m : Vm W) : Vm W :=
  ({ m with globals := m.globals.insert name v } : Vm W).mapLibraryEnv fun env => env.insert name v

def resolveGlobal (name : String) (m : Vm W) : Except LispError Value :=
  let inLibrary := m.libraryEnv.bind fun i => (m.store.env i)[name]?
  let inModule := (m.frames.head?.bind (·.moduleEnv)).bind fun i => (m.store.env i)[name]?
  match inLibrary <|> inModule <|> m.globals[name]? with
  | some v => .ok v
  | none => .error (.undefined name)

def slot (m : Vm W) (f : Frame) (idx : ℕ) : Value := m.stack.getD (f.bp + idx) .undefined

def loadLocal (idx : ℕ) (f : Frame) (m : Vm W) : Vm W :=
  match f.localCells.lookup idx with
  | some cell => m.push (m.store.cell cell)
  | none => m.push (m.slot f idx)

def setSlot (i : ℕ) (v : Value) (m : Vm W) : Vm W :=
  { m with stack := (m.stack ++ List.replicate (i + 1 - m.stack.length) Value.undefined).set i v }

def storeLocal (idx : ℕ) (f : Frame) (m : Vm W) : Vm W :=
  match f.localCells.lookup idx with
  | some cell => m.drop.mapStore fun s => s.setCell cell (m.top .void)
  | none => m.drop.setSlot (f.bp + idx) (m.top .void)

def loadUpvalue (idx : ℕ) (f : Frame) (m : Vm W) : Vm W :=
  match f.upvalues[idx]? with
  | some cell => m.push (m.store.cell cell)
  | none => m.push .undefined

def storeUpvalue (idx : ℕ) (f : Frame) (m : Vm W) : Vm W :=
  match f.upvalues[idx]? with
  | some cell => m.drop.mapStore fun s => s.setCell cell (m.top .void)
  | none => m.drop

def newCell (v : Value) (m : Vm W) : ℕ × Vm W :=
  (m.store.cells.length, m.mapStore fun s => { s with cells := s.cells ++ [v] })

def captureCell (f : Frame) (desc : UpvalueDesc) (m : Vm W) : ℕ × Vm W :=
  match desc with
  | .ofLocal idx =>
    match (m.frames.headD f).localCells.lookup idx with
    | some cell => (cell, m)
    | none =>
      let (cell, m) := m.newCell (m.slot f idx)
      (cell, m.mapFrame fun fr => { fr with localCells := (idx, cell) :: fr.localCells })
  | .ofUpvalue idx =>
    match f.upvalues[idx]? with
    | some cell => (cell, m)
    | none => m.newCell .undefined

def captureCells (f : Frame) : List UpvalueDesc → Vm W → List ℕ × Vm W
  | [], m => ([], m)
  | desc :: descs, m =>
    let (cell, m) := m.captureCell f desc
    let (cells, m) := m.captureCells f descs
    (cell :: cells, m)

def codeArity (code : CodeObject) : Arity := if code.variadic then .variadic code.arity else .fixed code.arity

def makeClosure (codeId : ℕ) (code : CodeObject) (descs : List UpvalueDesc) (f : Frame) (m : Vm W) : Vm W :=
  let (cells, m) := m.captureCells f descs
  let closure : Closure := ⟨m.store.closures, codeId, cells, codeArity code, code.name, m.libraryEnv⟩
  (m.mapStore fun s => { s with closures := s.closures + 1 }).push (.closure closure)

def captureCc (m : Vm W) : Vm W :=
  let frames := (m.mapFrame fun fr => { fr with ip := fr.ip + 1 }).frames
  let cont : Continuation := ⟨m.stack.dropLast, frames, m.winders⟩
  (m.mapStore fun s => { s with continuations := s.continuations ++ [cont] }).push
    (.continuation m.store.continuations.length)

def doReturn (f : Frame) (m : Vm W) : Vm W :=
  ({ m with stack := m.stack.dropLast.take f.bp, frames := m.frames.tail } : Vm W).push (m.top .void)

/-- `(ip as i32 + offset) as usize`, which wraps around below zero. -/
def jumpTarget (ip : ℕ) (offset : Int) : ℕ :=
  if (ip : Int) + offset < 0 then ((ip : Int) + offset + 2 ^ 64).toNat else ((ip : Int) + offset).toNat

def jump (offset : Int) (m : Vm W) : Vm W := m.mapFrame fun fr => { fr with ip := jumpTarget fr.ip offset }

def jumpIfFalse (offset : Int) (m : Vm W) : Vm W :=
  if (m.top (.bool false)).isTrue then m.drop else m.drop.jump offset

def dup (m : Vm W) : Vm W :=
  match m.stack.getLast? with
  | some v => m.push v
  | none => m

def pushHandler (offset : Int) (f : Frame) (m : Vm W) : Vm W :=
  { m with handlers :=
      .guard (jumpTarget (f.ip + 1) offset) f.codeId m.stack.length m.frames.length :: m.handlers }

def popHandler (m : Vm W) : Vm W := { m with handlers := m.handlers.tail }

def pushClosureHandler (m : Vm W) : Vm W :=
  { m.drop with handlers := .closure (m.top .void) :: m.handlers }

def pushWinder (m : Vm W) : Vm W :=
  { m.drop.drop with winders := m.winders ++ [⟨m.drop.top .void, m.top .void⟩] }

def popWinder (m : Vm W) : Vm W := { m with winders := m.winders.dropLast }

/-- Continue in the clauses of a `guard`. -/
def unwindTo (handlerIp codeId stackDepth frameDepth : ℕ) (exception : Value) (m : Vm W) : Vm W :=
  (((m.truncate stackDepth).truncateFrames frameDepth).push exception).mapFrame fun fr =>
    { fr with ip := handlerIp, codeId := codeId }

def advance (f : Frame) (m : Vm W) : Vm W :=
  { m.mapFrame fun fr => { fr with ip := fr.ip + 1 } with executed := (f.codeId, m.ambientTier) :: m.executed }

def passArgs (arity : Arity) (args : List Value) : List Value :=
  match arity with
  | .variadic min => args.take min ++ [.list (args.drop min)]
  | _ => args

def closureFrame (c : Closure) (bp : ℕ) : Frame := ⟨c.codeId, 0, bp, c.upvalues, c.name, [], c.moduleEnv⟩

/-- A call of a closure in a new frame; the function stands at `fnPos` below its arguments. -/
def enter (c : Closure) (fnPos : ℕ) (m : Vm W) : Vm W :=
  { m with
    stack := m.stack.take fnPos ++ passArgs c.arity (m.stack.drop (fnPos + 1))
    frames := closureFrame c fnPos :: m.frames }

def reenter (c : Closure) (fnPos : ℕ) (f : Frame) (m : Vm W) : Vm W :=
  { m with
    stack := m.stack.take f.bp ++ passArgs c.arity (m.stack.drop (fnPos + 1))
    frames := closureFrame c (m.stack.take f.bp).length :: m.frames.tail }

def commonWinders (a b : List Winder) : ℕ :=
  ((a.zip b).takeWhile fun p => p.1.before.isEq p.2.before && p.1.after.isEq p.2.after).length

def withContext (saved : Vm W) (m : Vm W) : Vm W :=
  { m with stack := saved.stack, frames := saved.frames, winders := saved.winders }

end Vm

section

variable (host : Host W) (self : Calls W)

open Vm

def pop (default : Value) : VmM W Value := do
  let m ← get
  Exec.modify drop
  return m.top default

def onWorld {α : Type} (f : W → Except LispError α × W) : VmM W α :=
  ofState fun m =>
    let (r, world) := f m.store.world
    (r, m.setWorld world)

def record (i : Invocation) : VmM W Unit :=
  Exec.modify fun m => m.mapStore fun s => { s with invocations := i :: s.invocations }

/-- `call_thunk_with_args`, which keeps the handlers of the caller away from the thunk. -/
def callThunkWithArgs (func : Value) (args : List Value) : VmM W Value := do
  let saved ← get
  Exec.modify fun m => { m with stack := func :: args, frames := [], handlers := [] }
  let result ← attempt do
    self.doCall args.length false
    let m ← get
    if m.frames.isEmpty then pop .void else self.runBlocking
  Exec.modify fun m => { withContext saved m with handlers := saved.handlers }
  lift result

def callThunks : List Value → VmM W Unit
  | [] => return ()
  | thunk :: thunks => do
    let _ ← callThunkWithArgs self thunk []
    callThunks thunks

def callClosure (c : Closure) (argc fnPos : ℕ) (tail : Bool) : VmM W Unit := do
  require (c.arity.accepts argc) (.arity (c.name.getD "<lambda>") c.arity argc)
  let m ← get
  if tail then
    match m.frames with
    | [] => stuck
    | f :: _ => Exec.modify (reenter c fnPos f)
  else if m.maxFrames ≤ m.frames.length then
    throw (.internal ("stack overflow: " ++ toString m.maxFrames ++ " frames"))
  else Exec.modify (enter c fnPos)

def checkTier (f : ForeignFn) (fnPos : ℕ) : VmM W Unit := do
  let m ← get
  match f.tier.required with
  | some required =>
    if m.ambientTier < required then
      record (.denied f m.ambientTier)
      Exec.modify (truncate fnPos)
      throw (.permissionDenied f.name required m.ambientTier)
    else return ()
  | none => return ()

def callForeign (f : ForeignFn) (argc fnPos : ℕ) : VmM W Unit := do
  checkTier f fnPos
  require (f.arity.accepts argc) (.arity f.name f.arity argc)
  let m ← get
  let args := m.stack.drop (fnPos + 1)
  Exec.modify (truncate fnPos)
  record (.granted f args m.ambientTier)
  let result ← onWorld (host.call f args)
  Exec.modify (push result)

def callContinuation (cont : Continuation) (argc fnPos : ℕ) : VmM W Unit := do
  require (argc == 1) (.arity "<continuation>" (.fixed 1) argc)
  let val ← pop .void
  Exec.modify (truncate fnPos)
  let m ← get
  let common := commonWinders m.winders cont.winders
  callThunks self ((m.winders.drop common).reverse.map (·.after))
  callThunks self ((cont.winders.drop common).map (·.before))
  Exec.modify fun m => { m with winders := cont.winders, stack := cont.stack ++ [val], frames := cont.frames }

def doCall (argc : ℕ) (tail : Bool) : VmM W Unit := do
  let m ← get
  require (decide (argc + 1 ≤ m.stack.length)) (.internal "stack underflow in call")
  let fnPos := m.stack.length - argc - 1
  match m.stack.getD fnPos .void with
  | .closure c => callClosure c argc fnPos tail
  | .foreign f => callForeign host f argc fnPos
  | .continuation id =>
    match m.store.continuations[id]? with
    | some cont => callContinuation self cont argc fnPos
    | none => stuck
  | v => throw (.type "procedure" v.typeName)

def dispatchRaise (exception : Value) : VmM W Unit := do
  let m ← get
  match m.handlers with
  | [] =>
    let msg := match exception with
      | .string s => s
      | v => host.display m.store.world v
    throw (.internal ("unhandled exception: " ++ msg))
  | handler :: _ =>
    Exec.modify popHandler
    match handler with
    | .guard handlerIp codeId stackDepth frameDepth =>
      Exec.modify (unwindTo handlerIp codeId stackDepth frameDepth exception)
    | .closure func =>
      -- The handler runs on a stack of its own, but with the remaining handlers of the raising code.
      Exec.modify fun m => { m with stack := [func, exception], frames := [] }
      let result ← attempt do
        doCall host self 1 false
        let m ← get
        if m.frames.isEmpty then pop .void else self.runBlocking
      Exec.modify (withContext m)
      let v ← lift result
      Exec.modify (push v)

def exceptionOf (e : LispError) : VmM W Value := do
  let m ← get
  let message := e.message (host.display m.store.world)
  match e.errorValue, e.kind with
  | some v, _ => return v
  | none, .read _ => onWorld fun w => let (v, w) := host.errorObject message "read-error" w; (.ok v, w)
  | none, .io _ _ => onWorld fun w => let (v, w) := host.errorObject message "file-error" w; (.ok v, w)
  | none, _ => return .string message

def handleException (e : LispError) : VmM W Unit := do
  let exception ← exceptionOf host e
  dispatchRaise host self exception

def callOp (argc : ℕ) (tail : Bool) : VmM W (Option EvalResult) := do
  match ← attempt (doCall host self argc tail) with
  | .ok () => return none
  | .error e =>
    match e.yieldReason? with
    | some reason => return some (.yield reason)
    | none =>
      if e.isPermissionDenied then throw e
      else
        handleException host self e
        return none

def applyArgs : Value → Except LispError (List Value)
  | .pair a d => do
    let args ← applyArgs d
    return a :: args
  | .null => .ok []
  | .void => .ok []
  | v => .error (.type "proper list" v.typeName)

def execOp (f : Frame) : Op → VmM W (Option EvalResult)
  | .const v => do Exec.modify (push v); return none
  | .loadGlobal name => do
    let m ← get
    let v ← lift (m.resolveGlobal name)
    Exec.modify (push v)
    return none
  | .storeGlobal name => do
    let v ← pop .void
    Exec.modify (defineGlobal name v)
    return none
  | .defineGlobal name => do
    let v ← pop .void
    Exec.modify (defineGlobal name v)
    return none
  | .loadLocal idx => do Exec.modify (loadLocal idx f); return none
  | .storeLocal idx => do Exec.modify (storeLocal idx f); return none
  | .loadUpvalue idx => do Exec.modify (loadUpvalue idx f); return none
  | .storeUpvalue idx => do Exec.modify (storeUpvalue idx f); return none
  | .call argc => callOp host self argc false
  | .tailCall argc => callOp host self argc true
  | .ret => do Exec.modify (doReturn f); return none
  | .jump offset => do Exec.modify (jump offset); return none
  | .jumpIfFalse offset => do Exec.modify (jumpIfFalse offset); return none
  | .pop => do Exec.modify drop; return none
  | .dup => do Exec.modify dup; return none
  | .makeClosure codeId descs => do
    let m ← get
    match m.codePool[codeId]? with
    | some code =>
      Exec.modify (makeClosure codeId code descs f)
      return none
    | none => stuck
  | .captureCc => do
    let m ← get
    if m.stack.isEmpty then stuck
    else
      Exec.modify captureCc
      return none
  | .yield => do
    let duration ← pop (.int 0)
    let ms := match duration with
      | .int n => (n % 2 ^ 64).toNat
      | _ => 0
    return some (.yield (.sleep ms))
  | .nop => return none
  | .apply => do
    let argsList ← pop .void
    let func ← pop .void
    let args ← lift (applyArgs argsList)
    Exec.modify fun m => { m with stack := m.stack ++ func :: args }
    callOp host self args.length false
  | .pushHandler offset => do Exec.modify (pushHandler offset f); return none
  | .popHandler => do Exec.modify popHandler; return none
  | .popClosureHandler => do Exec.modify popHandler; return none
  | .pushClosureHandler => do Exec.modify pushClosureHandler; return none
  | .raise => do
    let exception ← pop .void
    dispatchRaise host self exception
    return none
  | .values => throw (.internal "unimplemented opcode: Values")
  | .callWithValues => throw (.internal "unimplemented opcode: CallWithValues")
  | .pushWinder => do Exec.modify pushWinder; return none
  | .popWinder => do Exec.modify popWinder; return none
  | .eval => do
    let datum ← pop .void
    let m ← get
    let v ← self.eval (host.display m.store.world datum)
    Exec.modify (push v)
    return none
  | .load => do
    let filename ← pop .void
    match filename with
    | .string path =>
      let content ← onWorld (host.readToString path)
      let v ← self.eval content
      Exec.modify (push v)
      return none
    | v =>
      let m ← get
      throw (.type "string" (host.display m.store.world v))

/-- One turn of the loop of `run`; `none` where the loop goes on. -/
def step : VmM W (Option EvalResult) := do
  let m ← get
  match m.frames with
  | [] =>
    let v ← pop .void
    return some (.done v)
  | f :: _ =>
    match m.codePool[f.codeId]? with
    | none => stuck
    | some code =>
      match code.ops[f.ip]? with
      | none =>
        Exec.modify (doReturn f)
        return none
      | some op =>
        Exec.modify (advance f)
        execOp host self f op

def runStep : VmM W EvalResult := do
  match ← step host self with
  | some r => return r
  | none => self.run

def runBlockingStep : VmM W Value := do
  match ← self.run with
  | .done v => return v
  | .yield reason =>
    onWorld (host.await reason)
    Exec.modify (push (.bool true))
    self.runBlocking

/-- `execute`: after a first yield the machine goes on, but a second one is the result. -/
def execute (codeId : ℕ) : VmM W Value := do
  let m ← get
  match m.codePool[codeId]? with
  | none => stuck
  | some code =>
    Exec.modify fun m => { m with frames := ⟨codeId, 0, m.stack.length, [], code.name, [], none⟩ :: m.frames }
    match ← self.run with
    | .done v => return v
    | .yield reason =>
      onWorld (host.await reason)
      Exec.modify (push (.bool true))
      match ← self.run with
      | .done v => return v
      | .yield _ => return .bool true

def withAmbientTier {α : Type} (tier : PermissionTier) (x : VmM W α) : VmM W α := do
  let m ← get
  Exec.modify fun m => { m with ambientTier := min m.ambientTier tier }
  let result ← attempt x
  Exec.modify fun m' => { m' with ambientTier := m.ambientTier }
  lift result

def registerStdlib : VmM W Unit := do
  Exec.modify fun m => { m with globals := m.globals.insertMany host.stdlib.before.toList }
  match ← attempt (self.eval host.stdlib.bootstrap) with
  | .ok _ => Exec.modify fun m => { m with globals := m.globals.insertMany host.stdlib.after.toList }
  | .error _ => stuck

def evalTemplate (tier : PermissionTier) (form : Value) (store : Store W) : Option (Except LispError Value × Store W) :=
  let body : VmM W Value := do
    registerStdlib host self
    let m ← get
    withAmbientTier tier (self.eval (host.display m.store.world form))
  (body (new store)).map fun p => (p.1, p.2.store)

def services : Services W where
  display := host.display
  includeFile := host.includeFile
  evalTemplate := evalTemplate host self

def Op.rebase (base : ℕ) : Op → Op
  | .makeClosure codeId upvalues => .makeClosure (codeId + base) upvalues
  | op => op

def CodeObject.rebase (base : ℕ) (code : CodeObject) : CodeObject := { code with ops := code.ops.map (Op.rebase base) }

def Compiler.ofVm (m : Vm W) : Compiler W where
  codePool := []
  scopes := [⟨[], []⟩]
  macros := m.macros
  gensymCounter := 0
  ambientTier := m.ambientTier
  store := m.store

def Vm.install (m : Vm W) (c : Compiler W) (id : ℕ) : Vm W :=
  { m with
    store := c.store
    macros := c.macros
    codePool := m.codePool ++ c.codePool.map (·.rebase m.codePool.length)
    submitted := (m.codePool.length + id, m.ambientTier) :: m.submitted }

def compileForms (fuel : ℕ) (exprs : List Value) : VmM W ℕ := fun m =>
  match compileTopLevel (services host self) fuel exprs (.ofVm m) with
  | none => none
  | some (.error e, c) => some (.error e, { m with store := c.store })
  | some (.ok id, c) => some (.ok (m.codePool.length + id), m.install c id)

def Vm.library? (m : Vm W) (name : LibraryName) : Option SchemeLibrary := m.libraries.find? fun lib => lib.name = name

def importSet (unknown : LibraryName → LispError) (s : ImportSet) : VmM W Unit := do
  let m ← get
  match m.library? s.library with
  | none => throw (unknown s.library)
  | some lib =>
    let env ← lift (resolveImport s lib)
    Exec.modify fun m => { m with globals := m.globals.insertMany env.toList }

def processImport (items : List Value) : VmM W Unit := do
  let sets ← lift (parseTopLevelImport items)
  sets.forM (importSet fun name => .syntaxError ("unknown library: " ++ name.toText))

def Vm.exported? (m : Vm W) (env : ℕ) (name : String) : Option Value :=
  (m.globals[name]?) <|> (m.store.env env)[name]?

def collectExports (saved : Vm W) (env : ℕ) (lib : LibraryDef) : List (String × String) → Env → VmM W Env
  | [], exports => return exports
  | (outer, inner) :: specs, exports => do
    let m ← get
    match m.exported? env inner with
    | some v => collectExports saved env lib specs (exports.insert outer v)
    | none =>
      Exec.modify fun m => { m with globals := saved.globals, libraryEnv := saved.libraryEnv }
      throw (.syntaxError ("library " ++ lib.name.toText ++ ": exported name '" ++ inner ++ "' not defined"))

def runLibraryBody (fuel : ℕ) (body : List Value) : VmM W Unit :=
  if body.isEmpty then return ()
  else do
    let id ← compileForms host self fuel body
    let _ ← execute host self id

def processDefineLibrary (fuel : ℕ) (items : List Value) : VmM W Unit := do
  let lib ← lift (parseDefineLibrary items)
  let saved ← get
  require (saved.library? lib.name).isNone (.syntaxError ("library already defined: " ++ lib.name.toText))
  Exec.modify fun m => { m with globals := ∅, libraryEnv := none }
  lib.imports.forM (importSet fun name =>
    .syntaxError ("library " ++ lib.name.toText ++ " requires unknown library: " ++ name.toText))
  Exec.modify fun m =>
    { m.mapStore fun s => { s with envs := s.envs ++ [m.globals] } with libraryEnv := some m.store.envs.length }
  runLibraryBody host self fuel lib.body
  let m ← get
  match m.libraryEnv with
  | none => stuck
  | some env =>
    let exports ← collectExports saved env lib lib.exports.toList ∅
    Exec.modify fun m =>
      { m with
        globals := saved.globals
        libraryEnv := saved.libraryEnv
        libraries := ⟨lib.name, exports⟩ :: m.libraries }

def processLoad (file : Value) : VmM W Unit := do
  match file with
  | .string path =>
    let content ← onWorld (host.readToString path)
    let _ ← self.eval content
  | _ => throw (.syntaxError "load: filename must be a string")

def topLevelForms (fuel : ℕ) : List Value → VmM W (List Value)
  | [] => return []
  | datum :: datums => do
    match datum.toList? with
    | some (.symbol "import" :: rest) =>
      processImport (sym "import" :: rest)
      topLevelForms fuel datums
    | some (.symbol "define-library" :: rest) =>
      processDefineLibrary host self fuel (sym "define-library" :: rest)
      topLevelForms fuel datums
    | some [.symbol "load", file] =>
      processLoad host self file
      topLevelForms fuel datums
    | _ =>
      let forms ← topLevelForms fuel datums
      return datum :: forms

def submit (fuel : ℕ) (source : String) : VmM W (Option ℕ) := do
  let datums ← onWorld (host.readAll source)
  let forms ← topLevelForms host self fuel datums
  if forms.isEmpty then return none
  let id ← compileForms host self fuel forms
  return some id

def evalStep (fuel : ℕ) (source : String) : VmM W Value := do
  match ← submit host self fuel source with
  | none => return .void
  | some id => execute host self id

end

def abandon {α : Type} : Option LispError → VmM W α
  | none => stuck
  | some e => throw e

/-- The machine's calls to itself, nested at most `fuel` deep. -/
def calls (host : Host W) (timeout : Option LispError) : ℕ → Calls W
  | 0 => ⟨abandon timeout, abandon timeout, fun _ _ => abandon timeout, fun _ => abandon timeout⟩
  | fuel + 1 =>
    let self := calls host timeout fuel
    ⟨runStep host self, runBlockingStep host self, doCall host self, evalStep host self fuel⟩

def run (host : Host W) (fuel : ℕ) : VmM W EvalResult := (calls host none fuel).run

def eval (host : Host W) (fuel : ℕ) (source : String) : VmM W Value := (calls host none fuel).eval source

def Host.sample (programs : List (String × List Value)) : Host (List Value) where
  call f args w :=
    match f.func, args with
    | 0, [v] => (.ok .void, w ++ [v])
    | _, _ => (.ok (.list args), w)
  await _ w := (.ok (), w)
  readAll text w :=
    match programs.lookup text with
    | some datums => (.ok datums, w)
    | none => (.error ⟨.read "unexpected end of input", none⟩, w)
  display _ v := v.typeName
  readToString path w := (.error (.user ("load: " ++ path)), w)
  includeFile _ path w := (.error (.syntaxError ("include: file not found: " ++ path)), w)
  errorObject message _ w := (.string message, w)
  stdlib := ⟨∅, "", ∅⟩

def Vm.sample : Vm (List Value) :=
  { Vm.new (.new []) with globals := (∅ : Env).insert "display" (.foreign ⟨"display", 0, .fixed 1, .unrestricted⟩) }

/-- What has been displayed, and the vectors made. -/
structure SampleWorld where
  displayed : List Value
  vectors : List (List Value)
  deriving DecidableEq, Repr

def samplePrimitives : List String :=
  ["display", "error", "list", "vector", "vector?", "vector-length", "vector-ref", "=", "eq?"]

def SampleWorld.call (f : ForeignFn) (args : List Value) (w : SampleWorld) : Except LispError Value × SampleWorld :=
  match f.func, args with
  | 0, [v] => (.ok .void, { w with displayed := w.displayed ++ [v] })
  | 1, [.string s] => (.error (.user s), w)
  | 2, vs => (.ok (.list vs), w)
  | 3, vs => (.ok (.vector w.vectors.length), { w with vectors := w.vectors ++ [vs] })
  | 4, [.vector _] => (.ok (.bool true), w)
  | 4, [_] => (.ok (.bool false), w)
  | 5, [.vector i] => (.ok (.int (w.vectors.getD i []).length), w)
  | 6, [.vector i, .int n] => (.ok ((w.vectors.getD i []).getD n.toNat .undefined), w)
  | 7, [.int a, .int b] => (.ok (.bool (a == b)), w)
  | 8, [a, b] => (.ok (.bool (a.isEq b)), w)
  | _, _ => (.error (.type "another type" f.name), w)

def Host.primitive (programs : List (String × List Value)) : Host SampleWorld where
  call := SampleWorld.call
  await _ w := (.ok (), w)
  readAll text w :=
    match programs.lookup text with
    | some datums => (.ok datums, w)
    | none => (.error ⟨.read "unexpected end of input", none⟩, w)
  display _ v := v.typeName
  readToString path w := (.error (.user ("load: " ++ path)), w)
  includeFile _ path w := (.error (.syntaxError ("include: file not found: " ++ path)), w)
  errorObject message _ w := (.string message, w)
  stdlib := ⟨∅, "", ∅⟩

def Vm.primitive : Vm SampleWorld :=
  { Vm.new (.new ⟨[], []⟩) with
    globals := (∅ : Env).insertMany
      (samplePrimitives.zipIdx.map fun p => (p.1, .foreign ⟨p.1, p.2, .variadic 0, .unrestricted⟩)) }

end Mae.Scheme
