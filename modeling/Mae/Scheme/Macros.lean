import Mae.Scheme.Value
import Std.Data.ExtTreeMap

/-! `syntax-rules`: patterns, templates and their parser. -/

namespace Mae.Scheme

open Std (ExtTreeMap)

structure SyntaxRules where
  literals : List String
  rules : List (Value × Value)
  ellipsis : String
  deriving DecidableEq, Repr, Inhabited

inductive MacroDef where
  | template (params : List String) (body : Value)
  | syntaxRules (rules : SyntaxRules)
  deriving DecidableEq, Repr, Inhabited

abbrev MacroTable := ExtTreeMap String MacroDef

inductive MatchResult where
  | single (v : Value)
  | ellipsis (vs : List Value)
  deriving DecidableEq, Repr, Inhabited

abbrev Bindings := ExtTreeMap String MatchResult

def isEllipsisId (v : Value) (ellipsis : String) : Bool := v == .symbol ellipsis

def collectPatternNames (literals : List String) (ellipsis : String) : Value → List String
  | .symbol name => if name != "_" && name != ellipsis && !literals.contains name then [name] else []
  | .pair a d =>
    if (Value.pair a d).toList?.isSome then
      collectPatternNames literals ellipsis a ++ collectPatternNames literals ellipsis d
    else []
  | _ => []

def collectMatches (matchOne : Value → Except LispError (Option Bindings)) (remaining : ℕ) :
    List Value → Except LispError (List Bindings × List Value)
  | [] => .ok ([], [])
  | v :: vs =>
    if remaining < vs.length + 1 then do
      match ← matchOne v with
      | some b =>
        let (bs, rest) ← collectMatches matchOne remaining vs
        return (b :: bs, rest)
      | none => return ([], v :: vs)
    else .ok ([], v :: vs)

def singles (name : String) (collected : List Bindings) : List Value :=
  collected.filterMap fun (b : Bindings) =>
    match b[name]? with
    | some (.single v) => some v
    | _ => none

def bindEllipsis (literals : List String) (ellipsis : String) (subpat : Value) (collected : List Bindings)
    (bindings : Bindings) : Bindings :=
  match subpat with
  | .symbol name =>
    if name != "_" && !literals.contains name then bindings.insert name (.ellipsis (singles name collected))
    else bindings
  | _ =>
    if subpat.toList?.isSome then
      (collectPatternNames literals ellipsis subpat).foldl
        (fun b name => b.insert name (.ellipsis (singles name collected))) bindings
    else bindings

mutual

/-- `match_single`; `none` where the pattern does not match. -/
def matchSingle (literals : List String) (ellipsis : String) (pattern input : Value) (bindings : Bindings) :
    Except LispError (Option Bindings) :=
  match pattern with
  | .symbol name =>
    if name == "_" then .ok (some bindings)
    else if literals.contains name then .ok (if input == .symbol name then some bindings else none)
    else .ok (some (bindings.insert name (.single input)))
  | .pair p rest =>
    if (Value.pair p rest).toList?.isNone then .error (.syntaxErrorIn "invalid pattern" (.pair p rest))
    else
      match input.toList? with
      | none => .ok none
      | some inputs => matchItems literals ellipsis (.pair p rest) inputs bindings
  | .null => .ok (if input == .null then some bindings else none)
  | .int a => .ok (if input == .int a then some bindings else none)
  | .bool a => .ok (if input == .bool a then some bindings else none)
  | .string a => .ok (if input == .string a then some bindings else none)
  | .char a => .ok (if input == .char a then some bindings else none)
  | _ => .ok none

/-- `match_pattern` on the spine of a proper list. -/
def matchItems (literals : List String) (ellipsis : String) (pattern : Value) (input : List Value)
    (bindings : Bindings) : Except LispError (Option Bindings) :=
  match pattern with
  | .pair p (.pair q rest) =>
    if isEllipsisId q ellipsis then do
      let remaining := (rest.toList?.getD []).length
      let (collected, input') ← collectMatches (fun v => matchSingle literals ellipsis p v ∅) remaining input
      matchItems literals ellipsis rest input' (bindEllipsis literals ellipsis p collected bindings)
    else
      match input with
      | [] => .ok none
      | v :: vs => do
        match ← matchSingle literals ellipsis p v bindings with
        | some b => matchItems literals ellipsis (.pair q rest) vs b
        | none => return none
  | .pair p rest =>
    match input with
    | [] => .ok none
    | v :: vs => do
      match ← matchSingle literals ellipsis p v bindings with
      | some b => matchItems literals ellipsis rest vs b
      | none => return none
  | _ => .ok (if input.isEmpty then some bindings else none)

end

def collectEllipsisVars (bindings : Bindings) : Value → List String
  | .symbol name =>
    match bindings[name]? with
    | some (.ellipsis _) => [name]
    | _ => []
  | .pair a d =>
    if (Value.pair a d).toList?.isSome then
      let vars := collectEllipsisVars bindings a
      vars ++ (collectEllipsisVars bindings d).filter fun x => !vars.contains x
    else []
  | _ => []

def iterationBindings (bindings : Bindings) (names : List String) (idx : ℕ) : Bindings :=
  names.foldl (fun (b : Bindings) (name : String) =>
    match bindings[name]? with
    | some (.ellipsis vs) =>
      match vs[idx]? with
      | some v => b.insert name (.single v)
      | none => b
    | _ => b) bindings

def ellipsisCount (bindings : Bindings) : List String → ℕ
  | [] => 0
  | name :: _ =>
    match bindings[name]? with
    | some (.ellipsis vs) => vs.length
    | _ => 0

/-- `instantiate_template_literal`, inside an escape `(... template)`. -/
def instantiateLiteral (bindings : Bindings) : Value → Except LispError Value
  | .symbol name =>
    match bindings[name]? with
    | some (.single v) => .ok v
    | _ => .ok (.symbol name)
  | .pair a d =>
    if (Value.pair a d).toList?.isNone then .error (.syntaxErrorIn "invalid template" (.pair a d))
    else do
      let a' ← instantiateLiteral bindings a
      let d' ← instantiateLiteral bindings d
      return .pair a' d'
  | v => .ok v

mutual

def instantiateTemplate (ellipsis : String) (template : Value) (bindings : Bindings) : Except LispError Value :=
  match template with
  | .symbol name =>
    match bindings[name]? with
    | some (.single v) => .ok v
    | some (.ellipsis _) =>
      .error (.syntaxErrorIn "ellipsis variable used outside ellipsis template" (.symbol name))
    | none => .ok (.symbol name)
  | .pair a d =>
    if (Value.pair a d).toList?.isNone then .error (.syntaxErrorIn "invalid template" (.pair a d))
    else
      match a, d with
      | .symbol s, .pair t .null =>
        if ellipsis == "..." && s == "..." then instantiateLiteral bindings t
        else do
          let items ← instantiateItems ellipsis (.pair (.symbol s) (.pair t .null)) bindings
          return .list items
      | a, d => do
        let items ← instantiateItems ellipsis (.pair a d) bindings
        return .list items
  | v => .ok v

def instantiateItems (ellipsis : String) (template : Value) (bindings : Bindings) : Except LispError (List Value) :=
  match template with
  | .pair t (.pair q rest) =>
    if isEllipsisId q ellipsis then do
      let names := collectEllipsisVars bindings t
      let copies ← (List.range (ellipsisCount bindings names)).mapM fun idx =>
        instantiateTemplate ellipsis t (iterationBindings bindings names idx)
      let others ← instantiateItems ellipsis rest bindings
      return copies ++ others
    else do
      let v ← instantiateTemplate ellipsis t bindings
      let others ← instantiateItems ellipsis (.pair q rest) bindings
      return v :: others
  | .pair t rest => do
    let v ← instantiateTemplate ellipsis t bindings
    let others ← instantiateItems ellipsis rest bindings
    return v :: others
  | _ => .ok []

end

/-- `none` where the source indexes past the end of an empty pattern. -/
def expandRules (transformer : SyntaxRules) (form : List Value) : List (Value × Value) → Option (Except LispError Value)
  | [] => some (.error (.syntaxErrorIn "no matching syntax-rules pattern" (.list form)))
  | (pattern, template) :: rules =>
    match pattern.toList? with
    | none => some (.error (.syntaxErrorIn "invalid syntax-rules pattern" pattern))
    | some [] => none
    | some (_ :: items) =>
      match matchItems transformer.literals transformer.ellipsis (.list items) form.tail ∅ with
      | .error e => some (.error e)
      | .ok none => expandRules transformer form rules
      | .ok (some bindings) => some (instantiateTemplate transformer.ellipsis template bindings)

def expandSyntaxRules (transformer : SyntaxRules) (form : List Value) : Option (Except LispError Value) :=
  expandRules transformer form transformer.rules

def parseLiterals (literals : Value) : Except LispError (List String) :=
  match literals.toList? with
  | none => .error (.syntaxErrorIn "syntax-rules: invalid literal list" literals)
  | some vs => vs.mapM fun v =>
    match v.asSymbol? with
    | some s => .ok s
    | none => .error (.syntaxErrorIn "syntax-rules: literal must be identifier" v)

def parseRule (rule : Value) : Except LispError (Value × Value) :=
  match rule.toList? with
  | none => .error (.syntaxErrorIn "syntax-rules: rule must be (pattern template)" rule)
  | some [pattern, template] => .ok (pattern, template)
  | some _ => .error (.syntaxErrorIn "syntax-rules: rule must have exactly 2 elements" rule)

def parseSyntaxRules (items : List Value) : Except LispError SyntaxRules :=
  match items with
  | _ :: .symbol ellipsis :: literals :: rules => do
    if rules.isEmpty then
      throw (.syntaxErrorIn "syntax-rules with custom ellipsis requires at least one rule" (.list items))
    let literals ← parseLiterals literals
    let rules ← rules.mapM parseRule
    return ⟨literals, rules, ellipsis⟩
  | _ :: literals :: rule :: rules => do
    let literals ← parseLiterals literals
    let rules ← (rule :: rules).mapM parseRule
    return ⟨literals, rules, "..."⟩
  | _ => .error (.syntaxErrorIn "syntax-rules requires at least one rule" (.list items))

end Mae.Scheme
