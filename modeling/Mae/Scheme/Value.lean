import Mathlib.Data.List.Basic
import Mathlib.Order.Defs.LinearOrder
import Mathlib.Order.Lattice

/-! The values of the interpreter, its errors and its permission tiers. -/

namespace Mae.Scheme

inductive PermissionTier where
  | readOnly | write | shell | privileged
  deriving DecidableEq, Repr, Inhabited

namespace PermissionTier

def rank : PermissionTier → ℕ
  | readOnly => 0
  | write => 1
  | shell => 2
  | privileged => 3

instance : LinearOrder PermissionTier := LinearOrder.lift' rank (by intro a b h; cases a <;> cases b <;> simp_all [rank])

def configName : PermissionTier → String
  | readOnly => "readonly"
  | write => "write"
  | shell => "shell"
  | privileged => "privileged"

end PermissionTier

inductive PrimitiveTier where
  | unrestricted
  | requires (tier : PermissionTier)
  | selfEnforced
  deriving DecidableEq, Repr, Inhabited

def PrimitiveTier.required : PrimitiveTier → Option PermissionTier
  | unrestricted => none
  | requires t => some t
  | selfEnforced => none

inductive Arity where
  | fixed (n : ℕ)
  | variadic (n : ℕ)
  | multi (ns : List ℕ)
  deriving DecidableEq, Repr, Inhabited

namespace Arity

def toText : Arity → String
  | fixed n => toString n
  | variadic n => toString n ++ "+"
  | multi ns => " or ".intercalate (ns.map toString)

/-- The arity check of `do_call`, which no `multi` arity fails. -/
def accepts (argc : ℕ) : Arity → Bool
  | fixed n => argc == n
  | variadic min => min ≤ argc
  | multi _ => true

end Arity

structure Closure where
  id : ℕ
  codeId : ℕ
  upvalues : List ℕ
  arity : Arity
  name : Option String
  moduleEnv : Option ℕ
  deriving DecidableEq, Repr, Inhabited

/-- A Rust function; `func` is the key under which the host runs it. -/
structure ForeignFn where
  name : String
  func : ℕ
  arity : Arity
  tier : PrimitiveTier
  deriving DecidableEq, Repr, Inhabited

/-- Vectors, byte vectors and ports are objects of the host, continuations objects of the machine. -/
inductive Value where
  | void
  | bool (b : Bool)
  | int (n : Int)
  | float (bits : UInt64)
  | char (c : Char)
  | string (s : String)
  | symbol (name : String)
  | pair (car cdr : Value)
  | vector (id : ℕ)
  | bytevector (id : ℕ)
  | closure (c : Closure)
  | continuation (id : ℕ)
  | port (id : ℕ)
  | foreign (f : ForeignFn)
  | undefined
  | eof
  | null
  deriving DecidableEq, Repr, Inhabited

namespace Value

def list : List Value → Value
  | [] => null
  | v :: vs => pair v (list vs)

def toList? : Value → Option (List Value)
  | null => some []
  | pair a d => (toList? d).map (a :: ·)
  | _ => none

def isTrue (v : Value) : Bool := v != bool false

def asSymbol? : Value → Option String
  | symbol s => some s
  | _ => none

def typeName : Value → String
  | void => "void"
  | bool _ => "boolean"
  | int _ => "integer"
  | float _ => "float"
  | char _ => "char"
  | string _ => "string"
  | symbol _ => "symbol"
  | pair _ _ => "pair"
  | vector _ => "vector"
  | bytevector _ => "bytevector"
  | closure _ => "procedure"
  | continuation _ => "continuation"
  | port _ => "port"
  | foreign _ => "procedure"
  | undefined => "undefined"
  | eof => "eof"
  | null => "null"

def isEq : Value → Value → Bool
  | pair _ _, _ => false
  | string _, _ => false
  | float _, _ => false
  | bytevector _, _ => false
  | port _, _ => false
  | closure a, closure b => a.id == b.id
  | a, b => a == b

end Value

inductive YieldReason where
  | sleep (ms : ℕ)
  | waitForFile (path : String) (timeout : ℕ)
  | flush
  | tick
  | awaitHook (name : String) (timeout : ℕ)
  deriving DecidableEq, Repr, Inhabited

/-- The kinds of errors; a syntax error holds the offending form itself where the source holds its text. -/
inductive ErrorKind where
  | read (message : String)
  | syntaxError (message : String) (form : Option Value)
  | type (expected got : String)
  | arityMismatch (function : String) (expected : Arity) (got : ℕ)
  | undefined (name : String)
  | io (message : String) (path : Option String)
  | user (message : String) (irritants : List String)
  | divisionByZero
  | immutable (what : String)
  | internal (message : String)
  | yield (reason : YieldReason)
  | permissionDenied (primitive : String) (required ambient : PermissionTier)
  deriving DecidableEq, Repr, Inhabited

structure LispError where
  kind : ErrorKind
  errorValue : Option Value
  deriving DecidableEq, Repr, Inhabited

namespace LispError

def syntaxError (message : String) : LispError := ⟨.syntaxError message none, none⟩

def syntaxErrorIn (message : String) (form : Value) : LispError := ⟨.syntaxError message (some form), none⟩

def type (expected got : String) : LispError := ⟨.type expected got, none⟩

def arity (function : String) (expected : Arity) (got : ℕ) : LispError := ⟨.arityMismatch function expected got, none⟩

def undefined (name : String) : LispError := ⟨.undefined name, none⟩

def user (message : String) : LispError := ⟨.user message [], none⟩

def internal (message : String) : LispError := ⟨.internal message, none⟩

def permissionDenied (primitive : String) (required ambient : PermissionTier) : LispError :=
  ⟨.permissionDenied primitive required ambient, none⟩

def isPermissionDenied (e : LispError) : Bool :=
  match e.kind with
  | .permissionDenied .. => true
  | _ => false

def yieldReason? (e : LispError) : Option YieldReason :=
  match e.kind with
  | .yield r => some r
  | _ => none

def message (display : Value → String) (e : LispError) : String :=
  match e.kind with
  | .read msg => "read error: " ++ msg
  | .syntaxError msg form => "syntax error: " ++ msg ++ "\n  in: " ++ (form.map display).getD ""
  | .type expected got => "type error: expected " ++ expected ++ ", got " ++ got
  | .arityMismatch function expected got =>
    function ++ ": expected " ++ expected.toText ++ " arguments, got " ++ toString got
  | .undefined name => "undefined variable: " ++ name
  | .io msg (some path) => "I/O error: " ++ msg ++ " (" ++ path ++ ")"
  | .io msg none => "I/O error: " ++ msg
  | .user msg [] => msg
  | .user msg irritants => msg ++ ": " ++ " ".intercalate irritants
  | .divisionByZero => "division by zero"
  | .immutable what => "attempt to mutate immutable " ++ what
  | .internal msg => "internal error: " ++ msg
  | .permissionDenied primitive required ambient =>
    "permission denied: (" ++ primitive ++ ") requires the " ++ required.configName ++
      " tier, but this session is running at " ++ ambient.configName
  | .yield (.sleep ms) => "yield: sleep " ++ toString ms ++ "ms"
  | .yield (.waitForFile path t) => "yield: wait-for-file " ++ path ++ " (" ++ toString t ++ "ms)"
  | .yield .flush => "yield: flush"
  | .yield .tick => "yield: tick"
  | .yield (.awaitHook name t) => "yield: await-hook " ++ name ++ " (" ++ toString t ++ "ms)"

end LispError

end Mae.Scheme
