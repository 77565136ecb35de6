import Mathlib

/-! JSON values, and the parser that reads them from a text. -/

namespace Mae.Library

open List Option

/-- A number is kept as it is spelled, and the members of an object in their order. -/
inductive Json where
  | null
  | bool (b : Bool)
  | num (text : String)
  | str (s : String)
  | arr (items : List Json)
  | obj (members : List (String × Json))

namespace Json

def get? : Json → String → Option Json
  | obj members, key => (members.reverse.find? fun m => m.1 == key).map (·.2)
  | _, _ => none

def field (j : Json) (key : String) : Json := (j.get? key).getD null

def asStr : Json → Option String
  | str s => some s
  | _ => none

def asBool : Json → Option Bool
  | bool b => some b
  | _ => none

def asArray : Json → Option (List Json)
  | arr items => some items
  | _ => none

/-- A number with a sign, a fraction or an exponent is no `u64`, whatever its value. -/
def asU64 : Json → Option ℕ
  | num text => if text.toList.all Char.isDigit then text.toNat?.filter fun n => n < 2 ^ 64 else none
  | _ => none

def isSpace (c : Char) : Bool := c = ' ' || c = '\n' || c = '\t' || c = '\r'

def skipSpace (cs : List Char) : List Char := cs.dropWhile isSpace

def hexDigit? (c : Char) : Option ℕ :=
  if '0' ≤ c ∧ c ≤ '9' then some (c.toNat - '0'.toNat)
  else if 'a' ≤ c ∧ c ≤ 'f' then some (c.toNat - 'a'.toNat + 10)
  else if 'A' ≤ c ∧ c ≤ 'F' then some (c.toNat - 'A'.toNat + 10)
  else none

def hex4 : List Char → Option (ℕ × List Char)
  | a :: b :: c :: d :: rest => do
    let a ← hexDigit? a
    let b ← hexDigit? b
    let c ← hexDigit? c
    let d ← hexDigit? d
    return (((a * 16 + b) * 16 + c) * 16 + d, rest)
  | _ => none

def lowSurrogate : List Char → Option (ℕ × List Char)
  | '\\' :: 'u' :: rest => (hex4 rest).filter fun r => 0xdc00 ≤ r.1 ∧ r.1 ≤ 0xdfff
  | _ => none

def escape : List Char → Option (Char × List Char)
  | '"' :: rest => some ('"', rest)
  | '\\' :: rest => some ('\\', rest)
  | '/' :: rest => some ('/', rest)
  | 'b' :: rest => some ('\x08', rest)
  | 'f' :: rest => some ('\x0c', rest)
  | 'n' :: rest => some ('\n', rest)
  | 'r' :: rest => some ('\r', rest)
  | 't' :: rest => some ('\t', rest)
  | 'u' :: rest => do
    let (high, rest) ← hex4 rest
    if 0xd800 ≤ high ∧ high ≤ 0xdbff then
      let (low, rest) ← lowSurrogate rest
      return (Char.ofNat (0x10000 + (high - 0xd800) * 0x400 + (low - 0xdc00)), rest)
    else if 0xdc00 ≤ high ∧ high ≤ 0xdfff then none
    else return (Char.ofNat high, rest)
  | _ => none

def stringTail : ℕ → List Char → Option (List Char × List Char)
  | 0, _ => none
  | _ + 1, [] => none
  | n + 1, c :: cs =>
    if c = '"' then some ([], cs)
    else if c = '\\' then do
      let (c, cs) ← escape cs
      let (s, rest) ← stringTail n cs
      return (c :: s, rest)
    else if c.toNat < 0x20 then none
    else do
      let (s, rest) ← stringTail n cs
      return (c :: s, rest)

def digits (cs : List Char) : Option (List Char × List Char) :=
  match cs.span Char.isDigit with
  | ([], _) => none
  | (ds, rest) => some (ds, rest)

def fraction : List Char → Option (List Char × List Char)
  | '.' :: cs => (digits cs).map fun r => ('.' :: r.1, r.2)
  | cs => some ([], cs)

def exponent : List Char → Option (List Char × List Char)
  | c :: cs =>
    if c = 'e' ∨ c = 'E' then
      match cs with
      | sign :: ds =>
        if sign = '+' ∨ sign = '-' then (digits ds).map fun r => (c :: sign :: r.1, r.2)
        else (digits cs).map fun r => (c :: r.1, r.2)
      | [] => none
    else some ([], c :: cs)
  | [] => some ([], [])

def wholePart : List Char → Option (List Char × List Char)
  | '0' :: cs => if (cs.head?.map Char.isDigit).getD false then none else some (['0'], cs)
  | cs => digits cs

def unsigned (cs : List Char) : Option (List Char × List Char) := do
  let (whole, cs) ← wholePart cs
  let (frac, cs) ← fraction cs
  let (exp, cs) ← exponent cs
  return (whole ++ frac ++ exp, cs)

def number : List Char → Option (String × List Char)
  | '-' :: cs => (unsigned cs).map fun r => (String.ofList ('-' :: r.1), r.2)
  | cs => (unsigned cs).map fun r => (String.ofList r.1, r.2)

def keyword (word : String) (value : Json) (cs : List Char) : Option (Json × List Char) :=
  (word.toList.isPrefixOf? cs).map fun rest => (value, rest)

mutual

/-- `fuel` bounds the steps and `depth` the nesting. -/
def value : ℕ → ℕ → List Char → Option (Json × List Char)
  | 0, _, _ => none
  | fuel + 1, depth, cs =>
    match skipSpace cs with
    | '"' :: cs => (stringTail fuel cs).map fun r => (str (String.ofList r.1), r.2)
    | '[' :: cs =>
      match depth with
      | 0 | 1 => none
      | depth + 1 =>
        match skipSpace cs with
        | ']' :: rest => some (arr [], rest)
        | cs => (elements fuel depth cs).map fun r => (arr r.1, r.2)
    | '\x7b' :: cs =>
      match depth with
      | 0 | 1 => none
      | depth + 1 =>
        match skipSpace cs with
        | '\x7d' :: rest => some (obj [], rest)
        | cs => (members fuel depth cs).map fun r => (obj r.1, r.2)
    | 't' :: cs => keyword "rue" (bool true) cs
    | 'f' :: cs => keyword "alse" (bool false) cs
    | 'n' :: cs => keyword "ull" null cs
    | cs => (number cs).map fun r => (num r.1, r.2)

def elements : ℕ → ℕ → List Char → Option (List Json × List Char)
  | 0, _, _ => none
  | fuel + 1, depth, cs => do
    let (v, cs) ← value fuel depth cs
    match skipSpace cs with
    | ']' :: rest => return ([v], rest)
    | ',' :: cs =>
      let (vs, rest) ← elements fuel depth cs
      return (v :: vs, rest)
    | _ => none

def members : ℕ → ℕ → List Char → Option (List (String × Json) × List Char)
  | 0, _, _ => none
  | fuel + 1, depth, cs =>
    match skipSpace cs with
    | '"' :: cs => do
      let (key, cs) ← stringTail fuel cs
      match skipSpace cs with
      | ':' :: cs =>
        let (v, cs) ← value fuel depth cs
        match skipSpace cs with
        | '\x7d' :: rest => return ([(String.ofList key, v)], rest)
        | ',' :: cs =>
          let (ms, rest) ← members fuel depth cs
          return ((String.ofList key, v) :: ms, rest)
        | _ => none
      | _ => none
    | _ => none

end

/-- `serde_json::from_str`: one value, with nothing but space around it. -/
def parse (text : String) : Option Json := do
  let (v, rest) ← value (2 * text.length + 2) 128 text.toList
  if skipSpace rest = [] then some v else none

section

/-! What a part of the parser leaves is the end of what it was given. -/

variable {cs rest : List Char}

lemma skipSpace_suffix (cs : List Char) : skipSpace cs <:+ cs := dropWhile_suffix _

variable {c : Char} {n fuel depth : ℕ} {s ds : List Char} {ms : List (String × Json)}

lemma suffix_of_skipSpace (h : skipSpace cs = c :: rest) : rest <:+ cs :=
  (suffix_cons c rest).trans (h ▸ skipSpace_suffix cs)

lemma hex4_suffix (h : hex4 cs = some (n, rest)) : rest <:+ cs := by
  match cs with
  | a :: b :: c :: d :: tail =>
    simp only [hex4, bind_eq_bind, bind_eq_some_iff, Option.pure_def, Option.some.injEq, Prod.mk.injEq] at h
    obtain ⟨_, -, _, -, _, -, _, -, -, rfl⟩ := h
    exact ⟨[a, b, c, d], rfl⟩
  | [] | [_] | [_, _] | [_, _, _] => simp [hex4] at h

lemma exists_of_map {α β : Type} {p : Option (α × List Char)} {f : α → β} {b : β}
    (h : (p.map fun r => (f r.1, r.2)) = some (b, rest)) : ∃ a, p = some (a, rest) := by
  obtain ⟨⟨a, rest'⟩, hp, h⟩ := map_eq_some_iff.mp h
  obtain rfl : rest' = rest := congrArg Prod.snd h
  exact ⟨a, hp⟩

lemma lowSurrogate_suffix (h : lowSurrogate cs = some (n, rest)) : rest <:+ cs := by
  rw [lowSurrogate.eq_def] at h
  split at h
  · next tail =>
    obtain ⟨hhex, -⟩ := filter_eq_some_iff.mp h
    exact (hex4_suffix hhex).trans ⟨['\\', 'u'], rfl⟩
  · cases h

lemma escape_suffix (h : escape cs = some (c, rest)) : rest <:+ cs := by
  rw [escape.eq_def] at h
  split at h
  case h_9 tail =>
    obtain ⟨⟨high, tail'⟩, hhigh, h⟩ := bind_eq_some_iff.mp h
    have hsuffix : tail' <:+ 'u' :: tail := (hex4_suffix hhigh).trans (suffix_cons _ _)
    dsimp only at h
    split_ifs at h
    · obtain ⟨⟨low, tail''⟩, hlow, h⟩ := bind_eq_some_iff.mp h
      obtain rfl : tail'' = rest := congrArg Prod.snd (some.inj h)
      exact (lowSurrogate_suffix hlow).trans hsuffix
    · obtain rfl : tail' = rest := congrArg Prod.snd (some.inj h)
      exact hsuffix
  case h_10 => cases h
  all_goals
    cases h
    exact suffix_cons _ _

lemma stringTail_suffix (h : stringTail n cs = some (s, rest)) : rest <:+ cs := by
  induction n generalizing cs s with
  | zero => cases h
  | succ n ih =>
    cases cs with
    | nil => cases h
    | cons c cs =>
      rw [stringTail] at h
      split_ifs at h
      · cases h
        exact suffix_cons _ _
      · obtain ⟨⟨c', cs'⟩, hescape, h⟩ := bind_eq_some_iff.mp h
        obtain ⟨⟨s', rest'⟩, htail, h⟩ := bind_eq_some_iff.mp h
        obtain rfl : rest' = rest := congrArg Prod.snd (some.inj h)
        exact (ih htail).trans ((escape_suffix hescape).trans (suffix_cons _ _))
      · obtain ⟨⟨s', rest'⟩, htail, h⟩ := bind_eq_some_iff.mp h
        obtain rfl : rest' = rest := congrArg Prod.snd (some.inj h)
        exact (ih htail).trans (suffix_cons _ _)

lemma digits_suffix (h : digits cs = some (ds, rest)) : rest <:+ cs := by
  rw [digits, span_eq_takeWhile_dropWhile] at h
  split at h
  · cases h
  · next heq =>
    cases h
    rw [← (Prod.mk.inj heq).2]
    exact dropWhile_suffix _

lemma fraction_suffix (h : fraction cs = some (ds, rest)) : rest <:+ cs := by
  rw [fraction.eq_def] at h
  split at h
  · obtain ⟨_, hdigits⟩ := exists_of_map h
    exact (digits_suffix hdigits).trans (suffix_cons _ _)
  · cases h
    exact suffix_refl _

lemma exponent_suffix (h : exponent cs = some (ds, rest)) : rest <:+ cs := by
  rw [exponent.eq_def] at h
  split at h
  · next c cs =>
    split_ifs at h
    · split at h
      · next sign tail =>
        split_ifs at h
        · obtain ⟨_, hdigits⟩ := exists_of_map (f := fun ds => c :: sign :: ds) h
          exact (digits_suffix hdigits).trans ⟨[c, sign], rfl⟩
        · obtain ⟨_, hdigits⟩ := exists_of_map h
          exact (digits_suffix hdigits).trans (suffix_cons _ _)
      · cases h
    · cases h
      exact suffix_refl _
  · cases h
    exact suffix_refl _

lemma wholePart_suffix (h : wholePart cs = some (ds, rest)) : rest <:+ cs := by
  rw [wholePart.eq_def] at h
  split at h
  · split_ifs at h
    cases h
    exact suffix_cons _ _
  · exact digits_suffix h

lemma unsigned_suffix (h : unsigned cs = some (ds, rest)) : rest <:+ cs := by
  obtain ⟨⟨_, _⟩, hwhole, h⟩ := bind_eq_some_iff.mp h
  obtain ⟨⟨_, _⟩, hfrac, h⟩ := bind_eq_some_iff.mp h
  obtain ⟨⟨_, left⟩, hexp, h⟩ := bind_eq_some_iff.mp h
  obtain rfl : left = rest := congrArg Prod.snd (some.inj h)
  exact (exponent_suffix hexp).trans ((fraction_suffix hfrac).trans (wholePart_suffix hwhole))

lemma number_suffix {text : String} (h : number cs = some (text, rest)) : rest <:+ cs := by
  rw [number.eq_def] at h
  split at h
  · obtain ⟨_, hdigits⟩ := exists_of_map (f := fun ds => String.ofList ('-' :: ds)) h
    exact (unsigned_suffix hdigits).trans (suffix_cons _ _)
  · obtain ⟨_, hdigits⟩ := exists_of_map h
    exact unsigned_suffix hdigits

lemma keyword_suffix {word : String} {v w : Json} (h : keyword word v cs = some (w, rest)) : rest <:+ cs := by
  obtain ⟨rest', hbegins, h⟩ := map_eq_some_iff.mp h
  obtain rfl : rest' = rest := congrArg Prod.snd h
  exact ⟨word.toList, append_eq_of_isPrefixOf?_eq_some hbegins⟩

lemma members_cases (h : members (fuel + 1) depth cs = some (ms, rest)) :
    ∃ tail key left tail' v left', skipSpace cs = '"' :: tail ∧ stringTail fuel tail = some (key, left) ∧ skipSpace left
      = ':' :: tail' ∧ value fuel depth tail' = some (v, left') ∧
      (skipSpace left' = '\x7d' :: rest ∧ ms = [(String.ofList key, v)] ∨ ∃ more ms', skipSpace left' = ',' :: more ∧
        members fuel depth more = some (ms', rest) ∧ ms = (String.ofList key, v) :: ms') := by
  rw [members] at h
  split at h
  · next tail hquote =>
    obtain ⟨⟨key, left⟩, hkey, h⟩ := bind_eq_some_iff.mp h
    dsimp only at h
    split at h
    · next tail' hcolon =>
      obtain ⟨⟨v, left'⟩, hvalue, h⟩ := bind_eq_some_iff.mp h
      refine ⟨tail, key, left, tail', v, left', hquote, hkey, hcolon, hvalue, ?_⟩
      split at h
      · next hclose =>
        obtain ⟨hms, rfl⟩ := Prod.mk.inj (some.inj h)
        exact .inl ⟨hclose, hms.symm⟩
      · next more hcomma =>
        obtain ⟨⟨ms', rest'⟩, hmore, h⟩ := bind_eq_some_iff.mp h
        obtain ⟨hms, rfl⟩ := Prod.mk.inj (some.inj h)
        exact .inr ⟨more, ms', hcomma, hmore, hms.symm⟩
      · cases h
    · cases h
  · cases h

lemma suffix_of_fuel (fuel : ℕ) : (∀ depth cs v rest, value fuel depth cs = some (v, rest) → rest <:+ cs) ∧
      (∀ depth cs vs rest, elements fuel depth cs = some (vs, rest) → rest <:+ cs) ∧
      ∀ depth cs ms rest, members fuel depth cs = some (ms, rest) → rest <:+ cs := by
  induction fuel with
  | zero => exact ⟨fun _ _ _ _ h => by simp [value] at h, fun _ _ _ _ h => by simp [elements] at h,
      fun _ _ _ _ h => by simp [members] at h⟩
  | succ fuel ih =>
    obtain ⟨ihvalue, ihelements, ihmembers⟩ := ih
    refine ⟨fun depth cs v rest h => ?_, fun depth cs vs rest h => ?_, fun depth cs ms rest h => ?_⟩
    · rw [value] at h
      split at h
      · next tail hspace =>
        obtain ⟨_, hstring⟩ := exists_of_map (f := fun s => str (String.ofList s)) h
        exact (stringTail_suffix hstring).trans (suffix_of_skipSpace hspace)
      · next tail hspace =>
        split at h
        · cases h
        · cases h
        · split at h
          · next hclose =>
            cases h
            exact (suffix_of_skipSpace hclose).trans (suffix_of_skipSpace hspace)
          · obtain ⟨_, hitems⟩ := exists_of_map h
            exact (ihelements _ _ _ _ hitems).trans ((skipSpace_suffix _).trans (suffix_of_skipSpace hspace))
      · next tail hspace =>
        split at h
        · cases h
        · cases h
        · split at h
          · next hclose =>
            cases h
            exact (suffix_of_skipSpace hclose).trans (suffix_of_skipSpace hspace)
          · obtain ⟨_, hmembers⟩ := exists_of_map h
            exact (ihmembers _ _ _ _ hmembers).trans ((skipSpace_suffix _).trans (suffix_of_skipSpace hspace))
      · next hspace => exact (keyword_suffix h).trans (suffix_of_skipSpace hspace)
      · next hspace => exact (keyword_suffix h).trans (suffix_of_skipSpace hspace)
      · next hspace => exact (keyword_suffix h).trans (suffix_of_skipSpace hspace)
      · obtain ⟨_, hnumber⟩ := exists_of_map h
        exact (number_suffix hnumber).trans (skipSpace_suffix cs)
    · obtain ⟨⟨v, cs'⟩, hvalue, h⟩ := bind_eq_some_iff.mp h
      have hfirst := ihvalue _ _ _ _ hvalue
      dsimp only at h
      split at h
      · next hclose =>
        cases h
        exact (suffix_of_skipSpace hclose).trans hfirst
      · next hcomma =>
        obtain ⟨⟨_, rest'⟩, hmore, h⟩ := bind_eq_some_iff.mp h
        obtain rfl : rest' = rest := congrArg Prod.snd (some.inj h)
        exact (ihelements _ _ _ _ hmore).trans ((suffix_of_skipSpace hcomma).trans hfirst)
      · cases h
    · obtain ⟨tail, key, left, tail', v, left', hquote, hkey, hcolon, hvalue, hend⟩ := members_cases h
      have hfirst : left' <:+ cs :=
        (ihvalue _ _ _ _ hvalue).trans <| (suffix_of_skipSpace hcolon).trans <| (stringTail_suffix hkey).trans <|
          suffix_of_skipSpace hquote
      rcases hend with ⟨hclose, -⟩ | ⟨more, ms', hcomma, hmore, -⟩
      · exact (suffix_of_skipSpace hclose).trans hfirst
      · exact (ihmembers _ _ _ _ hmore).trans ((suffix_of_skipSpace hcomma).trans hfirst)

def quoted (s : String) : List Char := '"' :: s.toList ++ ['"']

def controls : List Char := ['"', '\\', '\x08', '\x0c', '\n', '\r', '\t']

def Plain (s : String) : Prop := ∀ c ∈ s.toList, c ∉ controls

def Literal (cs : List Char) : Prop := ¬ ['\\', '/'] <:+: cs ∧ ¬ ['\\', 'u'] <:+: cs

lemma Literal.of_suffix {tail : List Char} (h : Literal cs) (htail : tail <:+ cs) : Literal tail :=
  ⟨fun hslash => h.1 (hslash.trans htail.isInfix), fun hnumber => h.2 (hnumber.trans htail.isInfix)⟩

lemma escape_cases (h : escape cs = some (c, rest)) :
    c ∈ controls ∨ (∃ tail, cs = '/' :: tail) ∨ ∃ tail, cs = 'u' :: tail := by
  rw [escape.eq_def] at h
  split at h
  case h_3 tail => exact .inr (.inl ⟨tail, rfl⟩)
  case h_9 tail => exact .inr (.inr ⟨tail, rfl⟩)
  case h_10 => cases h
  all_goals
    cases h
    left
    decide

lemma eq_of_stringTail (h : stringTail n cs = some (s, rest)) (hliteral : Literal cs) (hplain : ∀ c ∈ s, c ∉ controls) :
    cs = s ++ '"' :: rest := by
  induction n generalizing cs s with
  | zero => cases h
  | succ n ih =>
    cases cs with
    | nil => cases h
    | cons c cs =>
      rw [stringTail] at h
      split_ifs at h with hquote hescape
      · cases h
        rw [hquote]
        rfl
      · obtain ⟨⟨c', cs'⟩, hc', h⟩ := bind_eq_some_iff.mp h
        obtain ⟨⟨s', rest'⟩, -, h⟩ := bind_eq_some_iff.mp h
        cases h
        subst hescape
        exfalso
        rcases escape_cases hc' with hcontrol | ⟨tail, rfl⟩ | ⟨tail, rfl⟩
        · exact hplain c' mem_cons_self hcontrol
        · exact hliteral.1 ⟨[], tail, rfl⟩
        · exact hliteral.2 ⟨[], tail, rfl⟩
      · obtain ⟨⟨s', rest'⟩, htail, h⟩ := bind_eq_some_iff.mp h
        cases h
        rw [ih htail (hliteral.of_suffix (suffix_cons _ _)) fun x hx => hplain x (mem_cons_of_mem _ hx)]
        rfl

lemma quoted_occurs {tail : List Char} (hspace : skipSpace cs = '"' :: tail) (h : stringTail n tail = some (s, rest))
    (hliteral : Literal cs) (hplain : Plain (String.ofList s)) :
    quoted (String.ofList s) <:+: cs := by
  have hsuffix : '"' :: tail <:+ cs := hspace ▸ skipSpace_suffix cs
  rw [Plain, String.toList_ofList] at hplain
  have htail := eq_of_stringTail h (hliteral.of_suffix ((suffix_cons _ _).trans hsuffix)) hplain
  obtain ⟨before, hcs⟩ := hsuffix
  refine ⟨before, rest, ?_⟩
  rw [← hcs, htail, quoted]
  simp

lemma quoted_occurs_of_value {s : String} (h : value fuel depth cs = some (str s, rest)) (hliteral : Literal cs)
    (hplain : Plain s) :
    quoted s <:+: cs := by
  cases fuel with
  | zero => simp [value] at h
  | succ fuel =>
    rw [value] at h
    split at h
    · next tail hspace =>
      obtain ⟨⟨chars, rest'⟩, hstring, h⟩ := map_eq_some_iff.mp h
      obtain ⟨hs, -⟩ := Prod.mk.inj h
      obtain rfl := Json.str.inj hs
      exact quoted_occurs hspace hstring hliteral hplain
    all_goals exfalso
    · split at h
      · cases h
      · cases h
      · split at h <;> simp at h
    · split at h
      · cases h
      · cases h
      · split at h <;> simp at h
    all_goals simp [keyword] at h

lemma quoted_occurs_of_members (h : members fuel depth cs = some (ms, rest)) (hliteral : Literal cs) :
    ∀ m ∈ ms, (Plain m.1 → quoted m.1 <:+: cs) ∧ ∀ s, m.2 = str s → Plain s → quoted s <:+: cs := by
  induction fuel generalizing cs ms with
  | zero => simp [members] at h
  | succ fuel ih =>
    obtain ⟨tail, key, left, tail', v, left', hquote, hkey, hcolon, hvalue, hend⟩ := members_cases h
    have hleft : tail' <:+ cs :=
      (suffix_of_skipSpace hcolon).trans ((stringTail_suffix hkey).trans (suffix_of_skipSpace hquote))
    have hfirst : (Plain (String.ofList key) → quoted (String.ofList key) <:+: cs) ∧
        ∀ s, v = str s → Plain s → quoted s <:+: cs := by
      refine ⟨quoted_occurs hquote hkey hliteral, ?_⟩
      rintro s rfl hplain
      exact (quoted_occurs_of_value hvalue (hliteral.of_suffix hleft) hplain).trans hleft.isInfix
    rcases hend with ⟨-, rfl⟩ | ⟨more, ms', hcomma, hmore, rfl⟩
    · exact forall_mem_singleton.mpr hfirst
    · have hmore' : more <:+ cs :=
        (suffix_of_skipSpace hcomma).trans (((suffix_of_fuel fuel).1 _ _ _ _ hvalue).trans hleft)
      refine forall_mem_cons.mpr ⟨hfirst, fun m hm => ?_⟩
      obtain ⟨hkey', hstring⟩ := ih hmore (hliteral.of_suffix hmore') m hm
      exact ⟨fun hplain => (hkey' hplain).trans hmore'.isInfix,
        fun s hs hplain => (hstring s hs hplain).trans hmore'.isInfix⟩

lemma members_of_value (h : value fuel depth cs = some (obj ms, rest)) :
    ms = [] ∨ ∃ fuel' depth' tail, tail <:+ cs ∧ members fuel' depth' tail = some (ms, rest) := by
  cases fuel with
  | zero => simp [value] at h
  | succ fuel =>
    rw [value] at h
    split at h
    case h_3 tail hspace =>
      split at h
      · cases h
      · cases h
      · split at h
        · obtain ⟨hms, -⟩ := Prod.mk.inj (some.inj h)
          exact .inl (Json.obj.inj hms).symm
        · obtain ⟨⟨ms', rest'⟩, hmembers, h⟩ := map_eq_some_iff.mp h
          simp only [Prod.mk.injEq, Json.obj.injEq] at h
          rw [h.1, h.2] at hmembers
          exact .inr ⟨fuel, _, _, (skipSpace_suffix _).trans (suffix_of_skipSpace hspace), hmembers⟩
    all_goals exfalso
    · simp at h
    · split at h
      · cases h
      · cases h
      · split at h <;> simp at h
    all_goals simp [keyword] at h

lemma quoted_occurs_of_parse {text : String} (h : parse text = some (obj ms)) (hliteral : Literal text.toList) :
    ∀ m ∈ ms, (Plain m.1 → quoted m.1 <:+: text.toList) ∧ ∀ s, m.2 = str s → Plain s → quoted s <:+: text.toList := by
  obtain ⟨⟨v, rest⟩, hvalue, h⟩ := bind_eq_some_iff.mp h
  dsimp only at h
  split_ifs at h
  cases h
  rcases members_of_value hvalue with rfl | ⟨fuel, depth, tail, htail, hmembers⟩
  · simp
  · intro m hm
    obtain ⟨hkey, hstring⟩ := quoted_occurs_of_members hmembers (hliteral.of_suffix htail) m hm
    exact ⟨fun hplain => (hkey hplain).trans htail.isInfix, fun s hs hplain => (hstring s hs hplain).trans htail.isInfix⟩

end

end Json

end Mae.Library
