import Mae.Scheme.Value
import Std.Data.ExtTreeMap

/-! The objects that values refer to, and the state of the host. -/

namespace Mae.Scheme

open Std (ExtTreeMap)

abbrev Env := ExtTreeMap String Value

structure Frame where
  codeId : ℕ
  ip : ℕ
  bp : ℕ
  upvalues : List ℕ
  name : Option String
  localCells : List (ℕ × ℕ)
  moduleEnv : Option ℕ
  deriving DecidableEq, Repr, Inhabited

structure Winder where
  before : Value
  after : Value
  deriving DecidableEq, Repr, Inhabited

structure Continuation where
  stack : List Value
  frames : List Frame
  winders : List Winder
  deriving DecidableEq, Repr, Inhabited

/-- What happened at the one place where foreign functions are invoked. -/
inductive Invocation where
  | granted (f : ForeignFn) (args : List Value) (ambient : PermissionTier)
  | denied (f : ForeignFn) (ambient : PermissionTier)
  deriving DecidableEq, Repr, Inhabited

structure Store (W : Type) where
  cells : List Value
  envs : List Env
  continuations : List Continuation
  closures : ℕ
  world : W
  invocations : List Invocation

namespace Store

variable {W : Type}

def new (world : W) : Store W := ⟨[], [], [], 0, world, []⟩

def cell (s : Store W) (i : ℕ) : Value := s.cells.getD i .undefined

def setCell (s : Store W) (i : ℕ) (v : Value) : Store W := { s with cells := s.cells.set i v }

def env (s : Store W) (i : ℕ) : Env := s.envs.getD i ∅

end Store

end Mae.Scheme
