import Mae.Library.Exec
import Mae.Scheme.Macros
import Mae.Scheme.Store

/-! The compiler. -/

namespace Mae.Scheme

open Library Exec

inductive UpvalueDesc where
  | ofLocal (idx : ℕ)
  | ofUpvalue (idx : ℕ)
  deriving DecidableEq, Repr, Inhabited

inductive Op where
  | const (v : Value)
  | loadGlobal (name : String)
  | storeGlobal (name : String)
  | defineGlobal (name : String)
  | loadLocal (idx : ℕ)
  | storeLocal (idx : ℕ)
  | loadUpvalue (idx : ℕ)
  | storeUpvalue (idx : ℕ)
  | call (argc : ℕ)
  | tailCall (argc : ℕ)
  | ret
  | jump (offset : Int)
  | jumpIfFalse (offset : Int)
  | pop
  | dup
  | makeClosure (codeId : ℕ) (upvalues : List UpvalueDesc)
  | captureCc
  | yield
  | apply
  | values
  | callWithValues
  | pushHandler (offset : Int)
  | popHandler
  | raise
  | eval
  | load
  | pushWinder
  | popWinder
  | pushClosureHandler
  | popClosureHandler
  | nop
  deriving DecidableEq, Repr, Inhabited

structure CodeObject where
  ops : List Op
  arity : ℕ
  variadic : Bool
  name : Option String
  deriving DecidableEq, Repr, Inhabited

structure Scope where
  locals : List String
  upvalues : List UpvalueDesc
  deriving DecidableEq, Repr, Inhabited

def lastIdxOf? (name : String) : List String → Option ℕ
  | [] => none
  | x :: xs =>
    match lastIdxOf? name xs with
    | some i => some (i + 1)
    | none => if x = name then some 0 else none

namespace Scope

def resolveLocal (s : Scope) (name : String) : Option ℕ := lastIdxOf? name s.locals

def addLocal (s : Scope) (name : String) : Scope := { s with locals := s.locals ++ [name] }

def addUpvalue (s : Scope) (desc : UpvalueDesc) : ℕ × Scope :=
  match s.upvalues.idxOf? desc with
  | some i => (i, s)
  | none => (s.upvalues.length, { s with upvalues := s.upvalues ++ [desc] })

end Scope

/-- `resolve_upvalue` from the innermost of the given scopes, which come innermost first. -/
def resolveUpvalue (name : String) : List Scope → Option (ℕ × List Scope)
  | scope :: parent :: rest =>
    match parent.resolveLocal name with
    | some i =>
      let (idx, scope) := scope.addUpvalue (.ofLocal i)
      some (idx, scope :: parent :: rest)
    | none =>
      match resolveUpvalue name (parent :: rest) with
      | some (i, outer) =>
        let (idx, scope) := scope.addUpvalue (.ofUpvalue i)
        some (idx, scope :: outer)
      | none => none
  | _ => none

structure Compiler (W : Type) where
  codePool : List CodeObject
  scopes : List Scope
  macros : MacroTable
  gensymCounter : ℕ
  ambientTier : PermissionTier
  store : Store W

structure Services (W : Type) where
  display : W → Value → String
  includeFile : Bool → String → W → Except LispError (List Value) × W
  evalTemplate : PermissionTier → Value → Store W → Option (Except LispError Value × Store W)

abbrev CompileM (W : Type) := Exec (Compiler W) LispError

variable {W : Type}

section State

def currentScope : CompileM W Scope := do
  let c ← Exec.get
  return c.scopes.headD default

def nested : CompileM W Bool := do
  let c ← Exec.get
  return decide (1 < c.scopes.length)

variable (name message : String)

def resolveLocal : CompileM W (Option ℕ) := do
  let scope ← currentScope
  return scope.resolveLocal name

def addLocal : CompileM W ℕ := do
  let scope ← currentScope
  Exec.modify fun c => { c with scopes := scope.addLocal name :: c.scopes.tail }
  return scope.locals.length

def resolveOrAddLocal : CompileM W ℕ := do
  match ← resolveLocal name with
  | some idx => return idx
  | none => addLocal name

def captureUpvalue : CompileM W (Option ℕ) := do
  let c ← Exec.get
  match resolveUpvalue name c.scopes with
  | some (idx, scopes) =>
    Exec.modify fun c => { c with scopes := scopes }
    return some idx
  | none => return none

def pushScope (params : List String) : CompileM W Unit :=
  Exec.modify fun c => { c with scopes := ⟨params, []⟩ :: c.scopes }

def popScope (code : CodeObject) : CompileM W (ℕ × List UpvalueDesc) := do
  let scope ← currentScope
  let c ← Exec.get
  Exec.modify fun c => { c with scopes := c.scopes.tail, codePool := c.codePool ++ [code] }
  return (c.codePool.length, scope.upvalues)

def nameLastCode : CompileM W Unit :=
  Exec.modify fun c =>
    { c with codePool := c.codePool.modifyLast fun code => { code with name := some name } }

def gensym (stem : String) : CompileM W String := do
  let c ← Exec.get
  Exec.modify fun c => { c with gensymCounter := c.gensymCounter + 1 }
  return "__" ++ stem ++ "_" ++ toString c.gensymCounter ++ "__"

def defineMacro (mac : MacroDef) : CompileM W Unit :=
  Exec.modify fun c => { c with macros := c.macros.insert name mac }

def syntaxError {α : Type} : CompileM W α := throw (.syntaxError message)

def syntaxErrorIn {α : Type} (form : Value) : CompileM W α :=
  throw (.syntaxErrorIn message form)

def asList (v : Value) : CompileM W (List Value) :=
  match v.toList? with
  | some items => return items
  | none => syntaxError message

def asSymbol (v : Value) : CompileM W String :=
  match v.asSymbol? with
  | some s => return s
  | none => syntaxError message

end State

def sym (name : String) : Value := .symbol name

def quoted (v : Value) : Value := .list [sym "quote", v]

def lambdaOf (formals : Value) (body : List Value) : Value := .list (sym "lambda" :: formals :: body)

def symbols (names : List String) : Value := .list (names.map .symbol)

section Forms

variable (S : Services W) (expr : Value → Bool → CompileM W (List Op)) (name : String) (items : List Value)

def compileVariableRef : CompileM W (List Op) := do
  match ← resolveLocal name with
  | some idx => return [.loadLocal idx]
  | none =>
    match ← captureUpvalue name with
    | some idx => return [.loadUpvalue idx]
    | none => return [.loadGlobal name]

def compileQuote : CompileM W (List Op) :=
  match items with
  | [_, v] => return [.const v]
  | _ => syntaxError "quote requires exactly 1 argument"

def compileIf (tail : Bool) : CompileM W (List Op) :=
  match items with
  | [_, c, t] => do
    let cs ← expr c false
    let ts ← expr t tail
    return cs ++ .jumpIfFalse (ts.length + 1) :: ts ++ [.jump 1, .const .void]
  | [_, c, t, e] => do
    let cs ← expr c false
    let ts ← expr t tail
    let es ← expr e tail
    return cs ++ .jumpIfFalse (ts.length + 1) :: ts ++ .jump es.length :: es
  | _ => syntaxError "if requires 2 or 3 arguments"

def parseFormalList : Value → Except LispError (List String × Bool)
  | .null => .ok ([], false)
  | .pair (.symbol name) rest => do
    let (params, variadic) ← parseFormalList rest
    return (name :: params, variadic)
  | .pair v _ => .error (.syntaxErrorIn "formal must be a symbol" v)
  | .symbol name => .ok ([name], true)
  | v => .error (.syntaxErrorIn "invalid formal parameter" v)

def parseFormals (formals : Value) : Except LispError (List String × Bool) :=
  match formals with
  | .pair _ _ => parseFormalList formals
  | .null => parseFormalList formals
  | .symbol name => .ok ([name], true)
  | v => .error (.syntaxErrorIn "invalid formals" v)

def extractDefineName (e : Value) : Option String :=
  match e.toList? with
  | some (.symbol "define" :: target :: _ :: _) =>
    match target with
    | .symbol s => some s
    | .pair (.symbol s) _ => some s
    | _ => none
  | _ => none

def leadingDefines : List Value → List String
  | [] => []
  | e :: es =>
    match extractDefineName e with
    | some name => name :: leadingDefines es
    | none => []

def predeclare : List String → CompileM W (List Op)
  | [] => return []
  | name :: names => do
    match ← resolveLocal name with
    | some _ => predeclare names
    | none =>
      let idx ← addLocal name
      let ops ← predeclare names
      return .const .undefined :: .storeLocal idx :: ops

def compileSequence (tail : Bool) : List Value → CompileM W (List Op)
  | [] => return []
  | [e] => expr e tail
  | e :: es => do
    let c ← expr e false
    let cs ← compileSequence tail es
    return c ++ .pop :: cs

def declareDefines (exprs : List Value) : CompileM W (List Op) := do
  if ← nested then predeclare (leadingDefines exprs) else return []

def compileBegin (exprs : List Value) (tail : Bool) : CompileM W (List Op) :=
  if exprs.isEmpty then return [.const .void]
  else do
    let declared ← declareDefines exprs
    let cs ← compileSequence expr tail exprs
    return declared ++ cs

def effectiveBody (body : List Value) : List Value :=
  match body with
  | .string _ :: e :: es => e :: es
  | _ => body

def compileLambda : CompileM W (List Op) :=
  match items with
  | _ :: formals :: e :: es => do
    let (params, variadic) ← lift (parseFormals formals)
    pushScope params
    let ops ← compileBegin expr (effectiveBody (e :: es)) true
    let (idx, upvalues) ← popScope
      { ops := ops ++ [.ret], arity := if variadic then params.length - 1 else params.length,
        variadic := variadic, name := none }
    return [.makeClosure idx upvalues]
  | _ => syntaxError "lambda requires formals and body"

def bindDefined : CompileM W (List Op) := do
  if ← nested then
    let idx ← resolveOrAddLocal name
    return [.storeLocal idx, .const .void]
  else return [.defineGlobal name, .const .void]

def compileDefine : CompileM W (List Op) :=
  match items with
  | _ :: target :: value :: more =>
    match target with
    | .symbol name => do
      require more.isEmpty (.syntaxError "define with symbol requires exactly 1 value")
      let c ← expr value false
      let b ← bindDefined name
      return c ++ b
    | .pair name formals => do
      let name ← asSymbol "define name must be a symbol" name
      let c ← compileLambda expr (sym "lambda" :: formals :: value :: more)
      nameLastCode name
      let b ← bindDefined name
      return c ++ b
    | v => syntaxErrorIn "invalid define form" v
  | _ => syntaxError "define requires at least 2 arguments"

def compileSet : CompileM W (List Op) :=
  match items with
  | [_, target, value] => do
    let name ← asSymbol "set! target must be a symbol" target
    let c ← expr value false
    match ← resolveLocal name with
    | some idx => return c ++ [.storeLocal idx, .const .void]
    | none =>
      match ← captureUpvalue name with
      | some idx => return c ++ [.storeUpvalue idx, .const .void]
      | none => return c ++ [.storeGlobal name, .const .void]
  | _ => syntaxError "set! requires exactly 2 arguments"

def compileArgs : List Value → CompileM W (List Op)
  | [] => return []
  | e :: es => do
    let c ← expr e false
    let cs ← compileArgs es
    return c ++ cs

def compileBinder (function : Value) (args : List Value) (tail : Bool) : CompileM W (List Op) := do
  let f ← expr function false
  let cs ← compileArgs expr args
  return f ++ cs ++ [if tail then .tailCall args.length else .call args.length]

def parseBindings (form : String) (bindings : List Value) : CompileM W (List (String × Value)) :=
  bindings.mapM fun binding => do
    match ← asList (form ++ " binding must be (var expr)") binding with
    | [var, init] =>
      let name ← asSymbol (form ++ " variable must be a symbol") var
      return (name, init)
    | _ => syntaxError (form ++ " binding must be (var expr)")

def compileLetrec (tail : Bool) : CompileM W (List Op) :=
  match items with
  | _ :: bindings :: body@(_ :: _) => do
    let bindings ← asList "letrec bindings must be a list" bindings
    let bindings ← parseBindings "letrec" bindings
    let inits := bindings.map fun b => .list [sym "set!", .symbol b.1, b.2]
    compileBinder expr (lambdaOf (symbols (bindings.map (·.1))) (inits ++ body))
      (bindings.map fun _ => .undefined) tail
  | _ => syntaxError "letrec requires bindings and body"

def compileNamedLet (tail : Bool) : CompileM W (List Op) :=
  match items with
  | bindings :: body@(_ :: _) => do
    let bindings ← asList "let bindings must be a list" bindings
    let bindings ← parseBindings "let" bindings
    let procedure := lambdaOf (symbols (bindings.map (·.1))) body
    compileLetrec expr [sym "letrec", .list [.list [.symbol name, procedure]],
      .list (.symbol name :: bindings.map (·.2))] tail
  | _ => syntaxError "named let requires bindings and body"

def compileLet (tail : Bool) : CompileM W (List Op) :=
  match items with
  | _ :: .symbol name :: rest@(_ :: _) => compileNamedLet expr name rest tail
  | _ :: bindings :: body@(_ :: _) => do
    let bindings ← asList "let bindings must be a list" bindings
    let bindings ← parseBindings "let" bindings
    compileBinder expr (lambdaOf (symbols (bindings.map (·.1))) body) (bindings.map (·.2)) tail
  | _ => syntaxError "let requires bindings and body"

/-- The nested `let`s of a `let*` with at least one binding. -/
def nestLets (body : List Value) : List Value → List Value
  | [] => body
  | [b] => sym "let" :: .list [b] :: body
  | b :: bs => [sym "let", .list [b], .list (nestLets body bs)]

def compileLetStar (tail : Bool) : CompileM W (List Op) :=
  match items with
  | _ :: bindings :: body@(_ :: _) => do
    match ← asList "let* bindings must be a list" bindings with
    | [] => compileBegin expr body tail
    | b :: bs => compileLet expr (nestLets body (b :: bs)) tail
  | _ => syntaxError "let* requires bindings and body"

def compileAnd (tail : Bool) : List Value → CompileM W (List Op)
  | [] => return [.const (.bool true)]
  | [e] => expr e tail
  | e :: es => do
    let c ← expr e false
    let cs ← compileAnd tail es
    return c ++ [.dup, .jumpIfFalse (cs.length + 1), .pop] ++ cs

def compileOr (tail : Bool) : List Value → CompileM W (List Op)
  | [] => return [.const (.bool false)]
  | [e] => expr e tail
  | e :: es => do
    let c ← expr e false
    let cs ← compileOr tail es
    return c ++ [.dup, .jumpIfFalse 1, .jump (cs.length + 1), .pop] ++ cs

def compileCond (tail : Bool) : List Value → CompileM W (List Op)
  | [] => return [.const .void]
  | clause :: clauses => do
    match ← asList "cond clause must be a list" clause with
    | [] => syntaxError "empty cond clause"
    | .symbol "else" :: body => compileBegin expr body tail
    | [test, .symbol "=>", procedure] =>
      let t ← expr test false
      let tmp ← gensym "cond_tmp"
      let idx ← addLocal tmp
      let p ← expr procedure false
      let rest ← compileCond tail clauses
      return t ++ [.dup, .jumpIfFalse (p.length + 4), .storeLocal idx] ++ p ++
        [.loadLocal idx, if tail then .tailCall 1 else .call 1, .jump (rest.length + 1), .pop] ++ rest
    | [test] =>
      let t ← expr test false
      let rest ← compileCond tail clauses
      return t ++ [.dup, .jumpIfFalse 1, .jump (rest.length + 1), .pop] ++ rest
    | test :: body =>
      let t ← expr test false
      let b ← compileBegin expr body tail
      let rest ← compileCond tail clauses
      return t ++ .jumpIfFalse (b.length + 1) :: b ++ .jump rest.length :: rest

def compileWhen (tail : Bool) : CompileM W (List Op) :=
  match items with
  | _ :: test :: body@(_ :: _) => do
    let t ← expr test false
    let b ← compileBegin expr body tail
    return t ++ .jumpIfFalse (b.length + 1) :: b ++ [.jump 1, .const .void]
  | _ => syntaxError "when requires test and body"

def compileUnless (tail : Bool) : CompileM W (List Op) :=
  match items with
  | _ :: test :: body@(_ :: _) => do
    let t ← expr test false
    let b ← compileBegin expr body tail
    return t ++ [.jumpIfFalse 2, .const .void, .jump b.length] ++ b
  | _ => syntaxError "unless requires test and body"

/-- The definitions of `define-values` from the elements of `__dv_tmp`. -/
def compileDefineElements (i : ℕ) : List Value → CompileM W (List Op)
  | [] => return []
  | formal :: formals => do
    let name ← asSymbol "define-values formal must be a symbol" formal
    let c ← expr (.list [sym "list-ref", sym "__dv_tmp", .int i]) false
    let cs ← compileDefineElements (i + 1) formals
    return c ++ .defineGlobal name :: cs

def compileDefineValues : CompileM W (List Op) :=
  match items with
  | [_, formals, value] => do
    match ← asList "define-values formals must be a list" formals with
    | [formal] =>
      let name ← asSymbol "define-values formal must be a symbol" formal
      let c ← expr value false
      return c ++ [.defineGlobal name, .const .void]
    | formals =>
      let c ← expr (.list [sym "call-with-values", lambdaOf .null [value], sym "list"]) false
      let cs ← compileDefineElements expr 0 formals
      return c ++ .defineGlobal "__dv_tmp" :: cs ++ [.const .void]
  | _ => syntaxError "define-values requires formals and expr"

/-- The nested `call-with-values` of `let-values`, built from the innermost clause outwards. -/
def nestLetValues (body : Value) : List Value → CompileM W Value
  | [] => return body
  | binding :: bindings => do
    let inner ← nestLetValues body bindings
    match ← asList "let-values clause must be a list" binding with
    | [formals, e] =>
      let formals ← asList "let-values formals must be a list" formals
      return .list [sym "call-with-values", lambdaOf .null [e], lambdaOf (.list formals) [inner]]
    | _ => syntaxError "let-values clause needs (formals expr)"

def compileLetValues (tail : Bool) : CompileM W (List Op) :=
  match items with
  | _ :: bindings :: body@(_ :: _) => do
    let bindings ← asList "let-values bindings must be a list" bindings
    let e ← nestLetValues (.list (sym "begin" :: body)) bindings
    expr e tail
  | _ => syntaxError "let-values requires bindings and body"

def compileLetStarValues (tail : Bool) : CompileM W (List Op) :=
  match items with
  | _ :: bindings :: body@(_ :: _) => do
    match ← asList "let*-values bindings must be a list" bindings with
    | [] => compileBegin expr body tail
    | [_] => compileLetValues expr items tail
    | b :: bs =>
      compileLetValues expr [sym "let-values", .list [b], .list (sym "let*-values" :: .list bs :: body)] tail
  | _ => syntaxError "let*-values requires bindings and body"

def parseTransformer (form : String) (notList : LispError) (unsupported : LispError) (transformer : Value) :
    CompileM W SyntaxRules :=
  match transformer.toList? with
  | none => throw notList
  | some [] => syntaxError (form ++ ": empty transformer")
  | some (.symbol "syntax-rules" :: rest) => lift (parseSyntaxRules (sym "syntax-rules" :: rest))
  | some _ => throw unsupported

def bindLocalMacro (binding : Value) : CompileM W Unit := do
  match ← asList "let-syntax clause must be a list" binding with
  | [name, transformer] =>
    let name ← asSymbol "let-syntax name must be a symbol" name
    let rules ← parseTransformer "let-syntax" (.syntaxError "let-syntax transformer must be a syntax-rules form")
      (.syntaxError "let-syntax: only syntax-rules supported") transformer
    defineMacro name (.syntaxRules rules)
  | _ => syntaxError "let-syntax clause needs (name transformer)"

def compileLetSyntax (tail : Bool) : CompileM W (List Op) :=
  match items with
  | _ :: bindings :: body@(_ :: _) => do
    let bindings ← asList "let-syntax bindings must be a list" bindings
    let c ← Exec.get
    bindings.forM bindLocalMacro
    let ops ← compileBegin expr body tail
    Exec.modify fun c' => { c' with macros := c.macros }
    return ops
  | _ => syntaxError "let-syntax requires bindings and body"

def compileEval : CompileM W (List Op) :=
  match items with
  | [_, e] => do
    let c ← expr e false
    return c ++ [.eval]
  | [_, e, env] => do
    let c ← expr e false
    let d ← expr env false
    return c ++ d ++ [.pop, .eval]
  | _ => syntaxError "eval requires 1 or 2 arguments: (eval expr) or (eval expr env)"

def compileLoad : CompileM W (List Op) :=
  match items with
  | [_, e] => do
    let c ← expr e false
    return c ++ [.load]
  | _ => syntaxError "load requires exactly 1 argument"

def compileDynamicWind : CompileM W (List Op) :=
  match items with
  | [_, before, thunk, after] => do
    let beforeLocal ← addLocal "__dw_before__"
    let b ← expr before false
    let thunkLocal ← addLocal "__dw_thunk__"
    let t ← expr thunk false
    let afterLocal ← addLocal "__dw_after__"
    let a ← expr after false
    let resultLocal ← addLocal "__dw_result__"
    let exnLocal ← addLocal "__dw_exn__"
    return b ++ .storeLocal beforeLocal :: t ++ .storeLocal thunkLocal :: a ++ .storeLocal afterLocal ::
      [.loadLocal beforeLocal, .call 0, .pop, .loadLocal beforeLocal, .loadLocal afterLocal, .pushWinder,
        .pushHandler 10, .loadLocal thunkLocal, .call 0, .popHandler, .popWinder, .storeLocal resultLocal,
        .loadLocal afterLocal, .call 0, .pop, .loadLocal resultLocal, .jump 7,
        -- the exception path: run `after`, then raise again
        .popWinder, .storeLocal exnLocal, .loadLocal afterLocal, .call 0, .pop, .loadLocal exnLocal, .raise]
  | _ => syntaxError "dynamic-wind requires 3 arguments: (dynamic-wind before thunk after)"

def compileCallWithValues (tail : Bool) : CompileM W (List Op) :=
  match items with
  | [_, producer, consumer] =>
    let tmp := sym "__cwv_tmp"
    expr (.list [sym "let", .list [.list [tmp, .list [producer]]],
      .list [sym "if", .list [sym "pair?", tmp], .list [sym "apply", consumer, tmp],
        .list [sym "if", .list [sym "null?", tmp], .list [consumer], .list [consumer, tmp]]]]) tail
  | _ => syntaxError "call-with-values requires producer and consumer"

def compileReceive (tail : Bool) : CompileM W (List Op) :=
  match items with
  | _ :: formals :: e :: body@(_ :: _) =>
    expr (.list [sym "call-with-values", lambdaOf .null [e], lambdaOf formals body]) tail
  | _ => syntaxError "receive requires formals, expr, and body"

def features : List String := ["r7rs", "mae", "mae-scheme"]

def standardLibraries : List String :=
  ["(scheme base)", "(scheme case-lambda)", "(scheme char)", "(scheme complex)", "(scheme cxr)", "(scheme eval)",
    "(scheme file)", "(scheme inexact)", "(scheme lazy)", "(scheme load)", "(scheme process-context)", "(scheme read)",
    "(scheme time)", "(scheme write)", "(scheme r5rs)", "(mae base)"]

mutual

def condExpandMatches (display : Value → String) (req : Value) : Except LispError Bool :=
  match req with
  | .symbol s => .ok (s == "else" || features.contains s)
  | .pair head rest =>
    if rest.toList?.isNone then .error (.syntaxError "cond-expand requirement must be symbol or list")
    else
      match head with
      | .symbol "and" => condExpandAll display rest
      | .symbol "or" => condExpandAny display rest
      | .symbol "not" =>
        match rest with
        | .pair part .null => do
          let b ← condExpandMatches display part
          return !b
        | _ => .error (.syntaxError "cond-expand not requires 1 arg")
      | .symbol "library" =>
        match rest with
        | .pair part .null => .ok (standardLibraries.contains (display part))
        | _ => .ok false
      | _ => .ok false
  | _ => .ok false

def condExpandAll (display : Value → String) (parts : Value) : Except LispError Bool :=
  match parts with
  | .pair part rest => do
    if ← condExpandMatches display part then condExpandAll display rest else return false
  | _ => .ok true

def condExpandAny (display : Value → String) (parts : Value) : Except LispError Bool :=
  match parts with
  | .pair part rest => do
    if ← condExpandMatches display part then return true else condExpandAny display rest
  | _ => .ok false

end

def compileCondExpandClauses (tail : Bool) : List Value → CompileM W (List Op)
  | [] => syntaxError "cond-expand: no matching clause"
  | clause :: clauses => do
    match ← asList "cond-expand clause must be a list" clause with
    | [] => compileCondExpandClauses tail clauses
    | req :: body =>
      let c ← Exec.get
      if ← lift (condExpandMatches (S.display c.store.world) req) then compileBegin expr body tail
      else compileCondExpandClauses tail clauses

def includeFiles (foldCase : Bool) : List Value → CompileM W (List Value)
  | [] => return []
  | item :: items => do
    match item with
    | .string file =>
      let datums ← ofState fun c =>
        let (r, world) := S.includeFile foldCase file c.store.world
        (r, { c with store := { c.store with world := world } })
      let more ← includeFiles foldCase items
      return datums ++ more
    | _ => syntaxError "include: filename must be a string"

def compileInclude (items : List Value) (tail foldCase : Bool) : CompileM W (List Op) :=
  match items with
  | _ :: files@(_ :: _) => do
    let exprs ← includeFiles S foldCase files
    compileBegin expr exprs tail
  | _ => syntaxError "include requires at least one filename"

def compileSyntaxError (items : List Value) : CompileM W (List Op) :=
  match items with
  | _ :: .string message :: _ => syntaxError message
  | _ :: v :: _ => do
    let c ← Exec.get
    syntaxError (S.display c.store.world v)
  | _ => syntaxError "syntax-error requires a message"

def recordField (ctorFields : List String) (i : ℕ) (spec : Value) : CompileM W (List Value) := do
  match ← asList "field spec must be a list" spec with
  | field :: accessor :: more =>
    let field ← asSymbol "field name must be a symbol" field
    let idx : Int := match ctorFields.idxOf? field with
      | some pos => pos + 1
      | none => i + 1
    let accessor ← asSymbol "accessor must be a symbol" accessor
    let get := .list [sym "define", .list [.symbol accessor, sym "__rec_obj__"],
      .list [sym "vector-ref", sym "__rec_obj__", .int idx]]
    match more with
    | [] => return [get]
    | mutator :: _ =>
      let mutator ← asSymbol "mutator must be a symbol" mutator
      return [get, .list [sym "define", .list [.symbol mutator, sym "__rec_obj__", sym "__rec_val__"],
        .list [sym "vector-set!", sym "__rec_obj__", .int idx, sym "__rec_val__"]]]
  | _ => syntaxError "field spec needs at least (name accessor)"

def recordFields (ctorFields : List String) (i : ℕ) : List Value → CompileM W (List Value)
  | [] => return []
  | spec :: specs => do
    let defs ← recordField ctorFields i spec
    let more ← recordFields ctorFields (i + 1) specs
    return defs ++ more

def compileDefineRecordType (items : List Value) : CompileM W (List Op) :=
  match items with
  | _ :: typeName :: ctor :: predicate :: specs => do
    let typeName ← asSymbol "record type name must be a symbol" typeName
    match ← asList "constructor must be a list" ctor with
    | [] => syntaxError "constructor needs a name"
    | ctorName :: ctorFields =>
      let ctorName ← asSymbol "constructor name must be a symbol" ctorName
      let ctorFields ← ctorFields.mapM (asSymbol "constructor field must be a symbol")
      let predicate ← asSymbol "predicate name must be a symbol" predicate
      let obj := sym "__rec_obj__"
      let make := .list [sym "define", .pair (.symbol ctorName) (symbols ctorFields),
        .list (sym "vector" :: quoted (.symbol typeName) :: ctorFields.map .symbol)]
      let test := .list [sym "define", .list [.symbol predicate, obj],
        .list [sym "and", .list [sym "vector?", obj], .list [sym ">", .list [sym "vector-length", obj], .int 0],
          .list [sym "eq?", .list [sym "vector-ref", obj, .int 0], quoted (.symbol typeName)]]]
      let fields ← recordFields ctorFields 0 specs
      compileBegin expr (make :: test :: fields) false
  | _ => syntaxError "define-record-type requires type-name, constructor, predicate, and fields"

def compileCall (items : List Value) (tail : Bool) : CompileM W (List Op) := do
  let cs ← compileArgs expr items
  if tail && (← nested) then return cs ++ [.tailCall (items.length - 1)]
  else return cs ++ [.call (items.length - 1)]

def compileDefineMacro (items : List Value) : CompileM W (List Op) :=
  match items with
  | _ :: signature :: e :: es => do
    match signature.toList? with
    | none => syntaxErrorIn "define-macro: expected (name params...)" signature
    | some [] => syntaxError "define-macro: empty signature"
    | some (.symbol name :: params) =>
      let params ← params.mapM fun v =>
        match v.asSymbol? with
        | some s => return s
        | none => syntaxErrorIn "define-macro: param must be symbol" v
      defineMacro name (.template params (if es.isEmpty then e else .list (sym "begin" :: e :: es)))
      return [.const .void]
    | some (v :: _) => syntaxErrorIn "define-macro: name must be symbol" v
  | _ => syntaxError "define-macro requires name and body"

def compileDefineSyntax (items : List Value) : CompileM W (List Op) :=
  match items with
  | [_, .symbol name, transformer] => do
    let rules ← parseTransformer "define-syntax"
      (.syntaxErrorIn "define-syntax: expected (syntax-rules ...)" transformer)
      (.syntaxErrorIn "define-syntax: only syntax-rules supported" transformer) transformer
    defineMacro name (.syntaxRules rules)
    return [.const .void]
  | [_, v, _] => syntaxErrorIn "define-syntax: name must be symbol" v
  | _ => syntaxError "define-syntax requires name and transformer"

def expandMacro (mac : MacroDef) (items : List Value) : CompileM W Value :=
  match mac with
  | .template params body => do
    let args := items.tail
    require (args.length == params.length)
      (.syntaxErrorIn ("macro expects " ++ toString params.length ++ " args, got " ++ toString args.length) (.list items))
    let bindings := (params.zip args).map fun p => .list [.symbol p.1, quoted p.2]
    let c ← Exec.get
    match S.evalTemplate c.ambientTier (.list [sym "let", .list bindings, body]) c.store with
    | none => stuck
    | some (r, store) =>
      Exec.modify fun c => { c with store := store }
      lift r
  | .syntaxRules rules =>
    match expandSyntaxRules rules items with
    | none => stuck
    | some r => lift r

def expandQq (depth : ℕ) : Value → Except LispError Value
  | .pair (.symbol "unquote") (.pair e .null) =>
    match depth with
    | 0 => .ok e
    | depth + 1 => do
      let inner ← expandQq depth e
      return .list [sym "list", quoted (sym "unquote"), inner]
  | .pair (.symbol "unquote") _ => .error (.syntaxError "bad unquote")
  | .pair (.symbol "quasiquote") (.pair e .null) => do
    let inner ← expandQq (depth + 1) e
    return .list [sym "list", quoted (sym "quasiquote"), inner]
  | .pair (.pair (.symbol "unquote-splicing") (.pair e .null)) rest =>
    if depth = 0 then do
      let rest ← expandQq depth rest
      return .list [sym "append", e, rest]
    else do
      let car ← expandQq depth (.pair (.symbol "unquote-splicing") (.pair e .null))
      let cdr ← expandQq depth rest
      return .list [sym "cons", car, cdr]
  | .pair a d => do
    let car ← expandQq depth a
    let cdr ← expandQq depth d
    return .list [sym "cons", car, cdr]
  | v => .ok (quoted v)

def compileQuasiquote (items : List Value) : CompileM W (List Op) :=
  match items with
  | [_, template] => do
    let e ← lift (expandQq 0 template)
    expr e false
  | _ => syntaxError "quasiquote requires exactly 1 argument"

def caseTest (datum : Value) : Value := .list [sym "eqv?", sym "__case_key__", quoted datum]

/-- The `cond` clauses of a `case`; nothing after its `else` is looked at. -/
def caseClauses : List Value → CompileM W (List Value)
  | [] => return []
  | clause :: clauses => do
    match ← asList "case clause must be a list" clause with
    | [] => syntaxError "empty case clause"
    | [.symbol "else", .symbol "=>", procedure] => return [.list [sym "else", .list [procedure, sym "__case_key__"]]]
    | .symbol "else" :: _ => return [clause]
    | datums :: body =>
      let datums ← asList "case datums must be a list" datums
      let test := match datums with
        | [d] => caseTest d
        | ds => .list (sym "or" :: ds.map caseTest)
      let head := match body with
        | [.symbol "=>", procedure] => .list [test, .list [procedure, sym "__case_key__"]]
        | body => .list (test :: body)
      let rest ← caseClauses clauses
      return head :: rest

def compileCase (items : List Value) (tail : Bool) : CompileM W (List Op) :=
  match items with
  | _ :: key :: clauses@(_ :: _) => do
    let clauses ← caseClauses clauses
    compileLet expr [sym "let", .list [.list [sym "__case_key__", key]], .list (sym "cond" :: clauses)] tail
  | _ => syntaxError "case requires expr and clauses"

def formalsOf (params : List String) (variadic : Bool) : Value :=
  if variadic then params.dropLast.foldr (fun p v => .pair (.symbol p) v) (.symbol (params.getLast?.getD ""))
  else symbols params

def caseLambdaClause (clause : Value) : CompileM W Value := do
  match ← asList "case-lambda clause must be a list" clause with
  | [] => syntaxError "case-lambda clause needs formals"
  | formals :: body =>
    let (params, variadic) ← lift (parseFormals formals)
    let required := if variadic then params.length - 1 else params.length
    let test := .list [sym (if variadic then ">=" else "="), sym "__cl_n__", .int required]
    return .list [test, .list [sym "apply", lambdaOf (formalsOf params variadic) body, sym "__cl_args__"]]

def compileCaseLambda (items : List Value) : CompileM W (List Op) :=
  match items with
  | _ :: clauses@(_ :: _) => do
    let clauses ← clauses.mapM caseLambdaClause
    let fail := .list [sym "else", .list [sym "error", .string "case-lambda: no matching clause"]]
    let dispatch := .list [sym "let", .list [.list [sym "__cl_n__", .list [sym "length", sym "__cl_args__"]]],
      .list (sym "cond" :: clauses ++ [fail])]
    compileLambda expr [sym "lambda", sym "__cl_args__", dispatch]
  | _ => syntaxError "case-lambda requires at least one clause"

/-- The variable, the initial value and the step of a `do` variable. -/
def doSpec (spec : Value) : CompileM W (String × Value × Value) := do
  match ← asList "do var spec must be a list" spec with
  | [var, init] =>
    let name ← asSymbol "do var must be a symbol" var
    return (name, init, .symbol name)
  | [var, init, step] =>
    let name ← asSymbol "do var must be a symbol" var
    return (name, init, step)
  | _ => syntaxError "do var spec must be (var init) or (var init step)"

def beginOf (exprs : List Value) : Value :=
  match exprs with
  | [e] => e
  | es => .list (sym "begin" :: es)

def compileDo (items : List Value) (tail : Bool) : CompileM W (List Op) :=
  match items with
  | _ :: specs :: test :: body => do
    let specs ← asList "do variable specs must be a list" specs
    match ← asList "do test clause must be a list" test with
    | [] => syntaxError "do test clause is empty"
    | test :: results =>
      let specs ← specs.mapM doSpec
      let loop ← gensym "do_loop"
      let step := .list (.symbol loop :: specs.map (·.2.2))
      let results := if results.isEmpty then [.void] else results
      compileLet expr [sym "let", .symbol loop, .list (specs.map fun s => .list [.symbol s.1, s.2.1]),
        .list [sym "if", test, beginOf results, beginOf (body ++ [step])]] tail
  | _ => syntaxError "do requires vars, test, and optionally body"

def parameterBinding (binding : Value) : CompileM W (Value × Value) := do
  match ← asList "parameterize binding must be a list" binding with
  | [param, v] => return (param, v)
  | _ => syntaxError "parameterize binding must be (param val)"

def savedName (i : ℕ) : Value := .symbol ("__param_saved_" ++ toString i ++ "__")

def compileParameterize (items : List Value) (tail : Bool) : CompileM W (List Op) :=
  match items with
  | _ :: bindings :: body@(_ :: _) => do
    let bindings ← asList "parameterize bindings must be a list" bindings
    let bindings ← bindings.mapM parameterBinding
    let save := bindings.mapIdx fun i b => .list [savedName i, .list [b.1]]
    let before := lambdaOf .null (bindings.map fun b => .list [b.1, b.2])
    let after := lambdaOf .null (bindings.mapIdx fun i b => .list [b.1, savedName i])
    compileLet expr [sym "let", .list save, .list [sym "dynamic-wind", before, lambdaOf .null body, after]] tail
  | _ => syntaxError "parameterize requires bindings and body"

/-- The argument list of an `apply` with leading arguments. -/
def consArgs : List Value → Value
  | [] => .null
  | [last] => last
  | a :: rest => .list [sym "cons", a, consArgs rest]

def compileApply (items : List Value) : CompileM W (List Op) :=
  match items with
  | _ :: function :: args@(_ :: _) => do
    let f ← expr function false
    let a ← expr (consArgs args) false
    return f ++ a ++ [.apply]
  | _ => syntaxError "apply requires at least 2 arguments"

def compileCallCc (items : List Value) (tail : Bool) : CompileM W (List Op) :=
  match items with
  | [_, function] => do
    let f ← expr function false
    return f ++ [.captureCc, if tail then .tailCall 1 else .call 1]
  | _ => syntaxError "call/cc requires exactly 1 argument"

def isCatchAll (test : Value) : Bool := test == sym "else" || test == .bool true

def hasCatchAll (clauses : List Value) : Bool :=
  clauses.any fun c =>
    match c.toList? with
    | some (test :: _) => isCatchAll test
    | _ => false

def reraise (exnVar : String) : CompileM W (List Op) := do
  match ← resolveLocal exnVar with
  | some idx => return [.loadLocal idx, .raise]
  | none => return [.loadGlobal exnVar, .raise]

def compileGuardBody (body : List Value) (tail : Bool) : CompileM W (List Op) :=
  if body.isEmpty then return [.const (.bool true)] else compileBegin expr body tail

def compileGuardClauses (exnVar : String) (tail catchAll : Bool) : List Value → CompileM W (List Op)
  | [] => return []
  | clause :: clauses => do
    match ← asList "guard clause must be a list" clause with
    | [] => syntaxError "empty guard clause"
    | test :: body =>
      if isCatchAll test then
        compileBegin expr body tail
      else
        let t ← expr test false
        let b ← compileGuardBody expr body tail
        let rest ← (if clauses.isEmpty && !catchAll then reraise exnVar
          else compileGuardClauses exnVar tail catchAll clauses)
        return t ++ .jumpIfFalse (b.length + 1) :: b ++ .jump rest.length :: rest

def bindException (var : String) : CompileM W (List Op) := do
  if ← nested then
    let idx ← addLocal var
    return [.storeLocal idx, .const .void, .pop]
  else return [.defineGlobal var, .pop]

def compileHandler (var : String) (tail : Bool) (clauses : List Value) : CompileM W (List Op) :=
  if clauses.isEmpty then return [.raise] else compileGuardClauses expr var tail (hasCatchAll clauses) clauses

def compileGuard (items : List Value) (tail : Bool) : CompileM W (List Op) :=
  match items with
  | _ :: clauseForm :: body@(_ :: _) => do
    match ← asList "guard clauses must be a list" clauseForm with
    | [] => syntaxError "guard requires at least a variable"
    | var :: clauses =>
      let var ← asSymbol "guard variable must be a symbol" var
      let b ← compileBegin expr body false
      let bind ← bindException var
      let h ← compileHandler expr var tail clauses
      return .pushHandler (b.length + 2) :: b ++ .popHandler :: .jump (bind.length + h.length) :: bind ++ h
  | _ => syntaxError "guard requires clauses and body"

def compileRaise (items : List Value) : CompileM W (List Op) :=
  match items with
  | [_, e] => do
    let c ← expr e false
    return c ++ [.raise]
  | _ => syntaxError "raise requires exactly 1 argument"

def compileRaiseContinuable (items : List Value) : CompileM W (List Op) :=
  match items with
  | [_, e] => expr (.list [sym "raise", .list [sym "vector", quoted (sym "continuable"), e]]) false
  | _ => syntaxError "raise-continuable requires exactly 1 argument"

def compileClosureHandler (items : List Value) (tail : Bool) : CompileM W (List Op) :=
  match items with
  | [_, wrapper, thunk] => do
    let w ← expr wrapper false
    let t ← expr thunk false
    return w ++ .pushClosureHandler :: t ++ [.call 0, .popClosureHandler] ++ (if tail then [.ret] else [])
  | _ => syntaxError "%with-closure-handler requires wrapper and thunk"

/-- The handler that `with-exception-handler` installs around the handler `%weh-h`. -/
def handlerWrapper : Value :=
  let h := sym "%weh-h"
  let exn := sym "%weh-exn"
  lambdaOf (.list [exn])
    [.list [sym "if",
      .list [sym "and", .list [sym "vector?", exn], .list [sym "=", .list [sym "vector-length", exn], .int 2],
        .list [sym "eq?", .list [sym "vector-ref", exn, .int 0], quoted (sym "continuable")]],
      .list [h, .list [sym "vector-ref", exn, .int 1]],
      .list [sym "begin", .list [h, exn], .list [sym "error", .string "exception handler returned"]]]]

def compileWithExceptionHandler (items : List Value) (tail : Bool) : CompileM W (List Op) :=
  match items with
  | [_, handler, thunk] =>
    expr (.list [sym "let", .list [.list [sym "%weh-h", handler]],
      .list [sym "%with-closure-handler", handlerWrapper, thunk]]) tail
  | _ => syntaxError "with-exception-handler requires handler and thunk"

end Forms

inductive Keyword where
  | quote | ifForm | lambda | define | setForm | begin | letForm | letStar | letrec | and | or | cond | when | unless
  | defineValues | defineRecordType | defineMacro | defineSyntax | guard | raise | raiseContinuable | closureHandler
  | withExceptionHandler | quasiquote | case | caseLambda | doForm | parameterize | letValues | letStarValues | receive
  | apply | callWithValues | eval | load | dynamicWind | callCc | condExpand | syntaxError | letSyntax | includeForm
  | includeCi
  deriving DecidableEq, Repr

def keywords : List (String × Keyword) :=
  [("quote", .quote), ("if", .ifForm), ("lambda", .lambda), ("define", .define), ("set!", .setForm), ("begin", .begin),
    ("let", .letForm), ("let*", .letStar), ("letrec", .letrec), ("letrec*", .letrec), ("and", .and), ("or", .or),
    ("cond", .cond), ("when", .when), ("unless", .unless), ("define-values", .defineValues),
    ("define-record-type", .defineRecordType), ("define-macro", .defineMacro), ("define-syntax", .defineSyntax),
    ("guard", .guard), ("raise", .raise), ("raise-continuable", .raiseContinuable),
    ("%with-closure-handler", .closureHandler), ("with-exception-handler", .withExceptionHandler),
    ("quasiquote", .quasiquote), ("case", .case), ("case-lambda", .caseLambda), ("do", .doForm),
    ("parameterize", .parameterize), ("let-values", .letValues), ("let*-values", .letStarValues),
    ("receive", .receive), ("apply", .apply), ("call-with-values", .callWithValues), ("eval", .eval), ("load", .load),
    ("dynamic-wind", .dynamicWind), ("call-with-current-continuation", .callCc), ("call/cc", .callCc),
    ("cond-expand", .condExpand), ("syntax-error", .syntaxError), ("let-syntax", .letSyntax),
    ("letrec-syntax", .letSyntax), ("include", .includeForm), ("include-ci", .includeCi)]

def keyword? (name : String) : Option Keyword := keywords.lookup name

def compileSpecial (S : Services W) (expr : Value → Bool → CompileM W (List Op)) (k : Keyword) (items : List Value)
    (tail : Bool) : CompileM W (List Op) :=
  match k with
  | .quote => compileQuote items
  | .ifForm => compileIf expr items tail
  | .lambda => compileLambda expr items
  | .define => compileDefine expr items
  | .setForm => compileSet expr items
  | .begin => compileBegin expr items.tail tail
  | .letForm => compileLet expr items tail
  | .letStar => compileLetStar expr items tail
  | .letrec => compileLetrec expr items tail
  | .and => compileAnd expr tail items.tail
  | .or => compileOr expr tail items.tail
  | .cond => compileCond expr tail items.tail
  | .when => compileWhen expr items tail
  | .unless => compileUnless expr items tail
  | .defineValues => compileDefineValues expr items
  | .defineRecordType => compileDefineRecordType expr items
  | .defineMacro => compileDefineMacro items
  | .defineSyntax => compileDefineSyntax items
  | .guard => compileGuard expr items tail
  | .raise => compileRaise expr items
  | .raiseContinuable => compileRaiseContinuable expr items
  | .closureHandler => compileClosureHandler expr items tail
  | .withExceptionHandler => compileWithExceptionHandler expr items tail
  | .quasiquote => compileQuasiquote expr items
  | .case => compileCase expr items tail
  | .caseLambda => compileCaseLambda expr items
  | .doForm => compileDo expr items tail
  | .parameterize => compileParameterize expr items tail
  | .letValues => compileLetValues expr items tail
  | .letStarValues => compileLetStarValues expr items tail
  | .receive => compileReceive expr items tail
  | .apply => compileApply expr items
  | .callWithValues => compileCallWithValues expr items tail
  | .eval => compileEval expr items
  | .load => compileLoad expr items
  | .dynamicWind => compileDynamicWind expr items
  | .callCc => compileCallCc expr items tail
  | .condExpand => compileCondExpandClauses S expr tail items.tail
  | .syntaxError => compileSyntaxError S items
  | .letSyntax => compileLetSyntax expr items tail
  | .includeForm => compileInclude S expr items tail false
  | .includeCi => compileInclude S expr items tail true

def compileNamed (S : Services W) (expr : Value → Bool → CompileM W (List Op)) (name : String) (items : List Value)
    (tail : Bool) : CompileM W (List Op) :=
  match keyword? name with
  | some k => compileSpecial S expr k items tail
  | none => do
    let c ← Exec.get
    match c.macros[name]? with
    | some mac =>
      let e ← expandMacro S mac items
      expr e tail
    | none => compileCall expr items tail

/-- `compile_expr`, at most `fuel` calls deep. -/
def compileExpr (S : Services W) : ℕ → Value → Bool → CompileM W (List Op)
  | 0, _, _ => stuck
  | fuel + 1, e, tail =>
    match e with
    | .symbol name => compileVariableRef name
    | .pair _ _ =>
      match e.toList? with
      | none => syntaxErrorIn "improper list in expression" e
      | some items =>
        match items with
        | .symbol name :: _ => compileNamed S (compileExpr S fuel) name items tail
        | _ => compileCall (compileExpr S fuel) items tail
    | v => return [.const v]

def compileProgram (S : Services W) (fuel : ℕ) (exprs : List Value) : CompileM W (List Op) :=
  if exprs.isEmpty then return [.const .void] else compileSequence (compileExpr S fuel) true exprs

/-- `compile_top_level`; the locations that its variant `compile_top_level_located` records are left out. -/
def compileTopLevel (S : Services W) (fuel : ℕ) (exprs : List Value) : CompileM W ℕ := do
  let cs ← compileProgram S fuel exprs
  let (idx, _) ← popScope { ops := cs ++ [.ret], arity := 0, variadic := false, name := none }
  return idx

end Mae.Scheme
