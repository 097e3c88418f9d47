/-
  IncusDemo.Js.Json

  `JSON.parse` of JavaScript: a lexer that reads the code units of a text one
  by one, and a stack machine that takes its tokens.

  Lines.lean has what it makes of parts of a stream of objects.
-/

import IncusDemo.Js.Number

namespace IncusDemo
namespace Js

-- ============================================================================
-- Strings and values
-- ============================================================================

/-- A UTF-16 code unit. -/
abbrev CodeUnit := Nat

/-- A string of JavaScript. -/
abbrev JsString := List CodeUnit

/-- The UTF-16 encoding of a character. -/
def utf16 (c : Char) : JsString :=
  if c.toNat < 0x10000 then [c.toNat]
  else [0xD800 + (c.toNat - 0x10000) / 0x400, 0xDC00 + (c.toNat - 0x10000) % 0x400]

def ofString (s : String) : JsString := s.toList.flatMap utf16

/-- No encoding of a character starts another one. -/
theorem utf16_prefix_free {c d : Char} {xs ys : JsString} (h : utf16 c ++ xs = utf16 d ++ ys) :
    c = d ∧ xs = ys := by
  have hscalar : ∀ e : Char, e.toNat < 0xD800 ∨ 0xDFFF < e.toNat ∧ e.toNat < 0x110000 :=
    fun e => e.valid
  have hc := hscalar c
  have hd := hscalar d
  unfold utf16 at h
  split_ifs at h with hcs hds hds
  · obtain ⟨hu, hxs⟩ := List.cons_eq_cons.mp h
    exact ⟨Char.toNat_inj.mp hu, hxs⟩
  · -- a surrogate is not the number of a character
    have hu : c.toNat = 0xD800 + (d.toNat - 0x10000) / 0x400 := (List.cons_eq_cons.mp h).1
    omega
  · have hu : 0xD800 + (c.toNat - 0x10000) / 0x400 = d.toNat := (List.cons_eq_cons.mp h).1
    omega
  · obtain ⟨hu, hrest⟩ := List.cons_eq_cons.mp h
    obtain ⟨hv, hxs⟩ := List.cons_eq_cons.mp hrest
    have hhigh : (c.toNat - 0x10000) / 0x400 = (d.toNat - 0x10000) / 0x400 :=
      Nat.add_left_cancel hu
    have hlow : (c.toNat - 0x10000) % 0x400 = (d.toNat - 0x10000) % 0x400 :=
      Nat.add_left_cancel hv
    exact ⟨Char.toNat_inj.mp (by omega), hxs⟩

theorem ofString_injective : Function.Injective ofString := by
  have hlist : ∀ cs ds : List Char, cs.flatMap utf16 = ds.flatMap utf16 → cs = ds := by
    have hne : ∀ c : Char, utf16 c ≠ [] := fun c => by unfold utf16; split_ifs <;> simp
    intro cs
    induction cs with
    | nil =>
      intro ds h
      cases ds with
      | nil => rfl
      | cons d ds => exact absurd (List.append_eq_nil_iff.mp h.symm).1 (hne d)
    | cons c cs ih =>
      intro ds h
      cases ds with
      | nil => exact absurd (List.append_eq_nil_iff.mp h).1 (hne c)
      | cons d ds =>
        obtain ⟨rfl, hrest⟩ := utf16_prefix_free h
        rw [ih ds hrest]
  intro s t h
  exact String.toList_inj.mp (hlist _ _ h)

/-- A value of JSON; the members of an object are in the order in which their keys first occur. -/
inductive Value where
  | null
  | bool (b : Bool)
  | num (n : Number)
  | str (s : JsString)
  | arr (elems : List Value)
  | obj (members : List (JsString × Value))

/-- Sets a member of an object: a key that occurs again replaces the earlier value. -/
def assign : List (JsString × Value) → JsString → Value → List (JsString × Value)
  | [], k, v => [(k, v)]
  | (k', v') :: members, k, v =>
    if k' = k then (k, v) :: members else (k', v') :: assign members k v

theorem assign_of_not_mem {members : List (JsString × Value)} {k : JsString} {v : Value}
    (h : k ∉ members.map Prod.fst) : assign members k v = members ++ [(k, v)] := by
  induction members with
  | nil => rfl
  | cons kv members ih =>
    simp only [List.map_cons, List.mem_cons, not_or] at h
    rw [assign, if_neg (Ne.symm h.1), ih h.2, List.cons_append]

-- ============================================================================
-- Numerals
-- ============================================================================

def isDigit (c : CodeUnit) : Bool := decide ('0'.toNat ≤ c ∧ c ≤ '9'.toNat)

/-- The number that a run of digits stands for. -/
def decimal (ds : JsString) : Nat := ds.foldl (fun n d => 10 * n + (d - '0'.toNat)) 0

/-- A run of digits that is all of the text. -/
def digits (w : JsString) : Option Nat :=
  if w ≠ [] ∧ w.all isDigit then some (decimal w) else none

/-- The fraction at the front, if there is one, and what follows. -/
def fraction (w : JsString) : Option (ℚ × JsString) :=
  if w.head? = some '.'.toNat then
    let ds := w.tail.takeWhile isDigit
    if ds = [] then none else some (decimal ds / 10 ^ ds.length, w.tail.dropWhile isDigit)
  else some (0, w)

/-- The exponent that is all of the text, if there is one. -/
def exponent (w : JsString) : Option ℤ :=
  match w with
  | [] => some 0
  | e :: w =>
    if e = 'e'.toNat ∨ e = 'E'.toNat then
      if w.head? = some '-'.toNat then (digits w.tail).map fun n => -(n : ℤ)
      else if w.head? = some '+'.toNat then (digits w.tail).map fun n => (n : ℤ)
      else (digits w).map fun n => (n : ℤ)
    else none

/-- A number without a sign. -/
def magnitude (w : JsString) : Option ℚ := do
  let whole := w.takeWhile isDigit
  if whole = [] ∨ (whole.head? = some '0'.toNat ∧ whole.length ≠ 1) then none
  else
    let (frac, w) ← fraction (w.dropWhile isDigit)
    let e ← exponent w
    some ((decimal whole + frac) * 10 ^ e)

def numeral (w : JsString) : Option ℚ :=
  if w.head? = some '-'.toNat then (magnitude w.tail).map fun q => -q else magnitude w

-- ============================================================================
-- Tokens
-- ============================================================================

inductive Punct where
  | lbrace
  | rbrace
  | lbracket
  | rbracket
  | colon
  | comma
  deriving DecidableEq

inductive Token where
  | punct (p : Punct)
  | str (s : JsString)
  /-- A number, a boolean or `null`. -/
  | scalar (v : Value)

/-- Where the lexer is. -/
inductive Mode where
  | ground
  /-- In a word, the token of a number, a boolean or `null`. -/
  | word (w : JsString)
  | string (s : JsString)
  /-- In a string, after a backslash. -/
  | escape (s : JsString)
  /-- In a string, in the four digits of an escape, with `left` to come after the next one. -/
  | hex (s : JsString) (left : Nat) (acc : Nat)

def isSpace (c : CodeUnit) : Bool := [' ', '\t', '\n', '\r'].any fun d => c = d.toNat

/-- The code units that words are made of. -/
def isWord (c : CodeUnit) : Bool :=
  isDigit c || decide ('a'.toNat ≤ c ∧ c ≤ 'z'.toNat) || decide ('A'.toNat ≤ c ∧ c ≤ 'Z'.toNat) ||
    ['+', '-', '.'].any fun d => c = d.toNat

def punct (c : CodeUnit) : Option Punct :=
  if c = '\x7b'.toNat then some .lbrace
  else if c = '\x7d'.toNat then some .rbrace
  else if c = '['.toNat then some .lbracket
  else if c = ']'.toNat then some .rbracket
  else if c = ':'.toNat then some .colon
  else if c = ','.toNat then some .comma
  else none

/-- Punctuation is neither white space nor in a word or a string. -/
theorem apart_of_punct {c : CodeUnit} {p : Punct} (h : punct c = some p) :
    isSpace c = false ∧ isWord c = false ∧ c ≠ '"'.toNat := by
  unfold punct at h
  split_ifs at h with h1 h2 h3 h4 h5 h6
  all_goals subst c; decide

def hexValue (c : CodeUnit) : Option Nat :=
  if isDigit c then some (c - '0'.toNat)
  else if 'a'.toNat ≤ c ∧ c ≤ 'f'.toNat then some (c - 'a'.toNat + 10)
  else if 'A'.toNat ≤ c ∧ c ≤ 'F'.toNat then some (c - 'A'.toNat + 10)
  else none

/-- What a backslash and one code unit stand for. -/
def unescape (c : CodeUnit) : Option CodeUnit :=
  if c = '"'.toNat ∨ c = '\\'.toNat ∨ c = '/'.toNat then some c
  else if c = 'b'.toNat then some 0x08
  else if c = 'f'.toNat then some 0x0C
  else if c = 'n'.toNat then some 0x0A
  else if c = 'r'.toNat then some 0x0D
  else if c = 't'.toNat then some 0x09
  else none

/-- The token that a word is.  Words are as long as they can be: JSON has no two of their tokens
    next to each other. -/
def literal (w : JsString) : Option Token :=
  if w = ofString "null" then some (.scalar .null)
  else if w = ofString "true" then some (.scalar (.bool true))
  else if w = ofString "false" then some (.scalar (.bool false))
  else (numeral w).map fun q => .scalar (.num (.ofRat q))

/-- Between tokens. -/
def between (c : CodeUnit) : Option (List Token × Mode) :=
  if isSpace c then some ([], .ground)
  else if c = '"'.toNat then some ([], .string [])
  else if isWord c then some ([], .word [c])
  else (punct c).map fun p => ([.punct p], .ground)

theorem between_of_punct {c : CodeUnit} {p : Punct} (h : punct c = some p) :
    between c = some ([.punct p], .ground) := by
  obtain ⟨hspace, hword, hquote⟩ := apart_of_punct h
  simp only [between, hspace, hword, hquote, h]
  rfl

theorem between_of_isWord {c : CodeUnit} (h : isWord c = true) :
    between c = some ([], .word [c]) := by
  have hspace : isSpace c = false := by
    by_contra hspace
    simp only [isSpace, List.any_cons, List.any_nil, Bool.or_false, Bool.or_eq_true, decide_eq_true_eq,
      Bool.not_eq_false] at hspace
    rcases hspace with rfl | rfl | rfl | rfl <;> exact absurd h (by decide)
  have hquote : c ≠ '"'.toNat := by
    rintro rfl
    exact absurd h (by decide)
  simp only [between, hspace, hquote, h]
  rfl

/-- Reads a code unit. -/
def Mode.step (m : Mode) (c : CodeUnit) : Option (List Token × Mode) :=
  match m with
  | .ground => between c
  | .word w =>
    if isWord c then some ([], .word (w ++ [c]))
    else do
      let t ← literal w
      let (ts, m) ← between c
      some (t :: ts, m)
  | .string s =>
    if c = '"'.toNat then some ([.str s], .ground)
    else if c = '\\'.toNat then some ([], .escape s)
    else if c < 0x20 then none
    else some ([], .string (s ++ [c]))
  | .escape s =>
    if c = 'u'.toNat then some ([], .hex s 3 0)
    else (unescape c).map fun u => ([], .string (s ++ [u]))
  | .hex s left acc => do
    let d ← hexValue c
    match left with
    | 0 => some ([], .string (s ++ [16 * acc + d]))
    | left + 1 => some ([], .hex s left (16 * acc + d))

/-- At the end of the text. -/
def Mode.finish : Mode → Option (List Token)
  | .ground => some []
  | .word w => (literal w).map fun t => [t]
  | _ => none

/-- Reads a text. -/
def lex : Mode → JsString → Option (List Token × Mode)
  | m, [] => some ([], m)
  | m, c :: cs => do
    let (ts, m) ← m.step c
    let (us, m) ← lex m cs
    some (ts ++ us, m)

section Lexing

variable {m m' : Mode} {ts : List Token} {xs ys : JsString}

theorem lex_cons {c : CodeUnit} :
    lex m (c :: xs) = some (ts, m') ↔ ∃ us n vs,
      m.step c = some (us, n) ∧ lex n xs = some (vs, m') ∧ ts = us ++ vs := by
  simp only [lex, Option.bind_eq_bind, Option.bind_eq_some_iff, Prod.exists, Option.some.injEq,
    Prod.mk.injEq]
  constructor
  · rintro ⟨us, n, hstep, vs, k, hlex, hts, rfl⟩
    exact ⟨us, n, vs, hstep, hlex, hts.symm⟩
  · rintro ⟨us, n, vs, hstep, hlex, rfl⟩
    exact ⟨us, n, hstep, vs, m', hlex, rfl, rfl⟩

theorem lex_append (m : Mode) (xs ys : JsString) : lex m (xs ++ ys) =
    (lex m xs).bind fun r => (lex r.2 ys).map fun q => (r.1 ++ q.1, q.2) := by
  induction xs generalizing m with
  | nil => simp [lex]
  | cons c xs ih =>
    simp only [List.cons_append, lex]
    cases m.step c with
    | none => rfl
    | some r =>
      cases hxs : lex r.2 xs with
      | none => simp [ih, hxs]
      | some q => cases hys : lex q.2 ys <;> simp [ih, hxs, hys]

theorem lex_append_some (h : lex m xs = some (ts, m')) :
    lex m (xs ++ ys) = (lex m' ys).map fun q => (ts ++ q.1, q.2) := by
  rw [lex_append, h]
  rfl

theorem lex_cons_some {n : Mode} {c : CodeUnit} (h : m.step c = some (ts, n)) :
    lex m (c :: xs) = (lex n xs).map fun q => (ts ++ q.1, q.2) := by
  simp only [lex, h, Option.bind_eq_bind, Option.bind_some]
  cases lex n xs <;> rfl

theorem lex_singleton (m : Mode) (c : CodeUnit) : lex m [c] = m.step c := by
  simp only [lex]
  cases m.step c <;> simp

theorem lex_in_word (v : JsString) (h : ∀ c ∈ xs, isWord c = true) :
    lex (.word v) xs = some ([], .word (v ++ xs)) := by
  induction xs generalizing v with
  | nil => rw [List.append_nil, lex]
  | cons c xs ih =>
    have hstep : (Mode.word v).step c = some ([], .word (v ++ [c])) :=
      if_pos (h c List.mem_cons_self)
    rw [lex_cons_some hstep, ih _ fun d hd => h d (List.mem_cons_of_mem _ hd)]
    simp

/-- The text is that of one token, whatever punctuation follows. -/
def IsToken (text : JsString) (t : Token) : Prop :=
  ∀ c p, punct c = some p → lex .ground (text ++ [c]) = some ([t, .punct p], .ground)

theorem isToken_of_word {w : JsString} {t : Token} (hne : w ≠ []) (h : ∀ c ∈ w, isWord c = true)
    (ht : literal w = some t) : IsToken w t := by
  intro d p hp
  obtain ⟨c, cs, rfl⟩ := List.exists_cons_of_ne_nil hne
  have hfirst : Mode.ground.step c = some ([], .word [c]) :=
    between_of_isWord (h c List.mem_cons_self)
  have hstart : lex .ground (c :: cs) = some ([], .word (c :: cs)) := by
    rw [lex_cons_some hfirst, lex_in_word _ fun d hd => h d (List.mem_cons_of_mem _ hd)]
    rfl
  have hend : (Mode.word (c :: cs)).step d = some ([t, .punct p], .ground) := by
    have hword : isWord d = false := (apart_of_punct hp).2.1
    simp [Mode.step, hword, ht, between_of_punct hp]
  rw [lex_append_some hstart, lex_singleton, hend]
  rfl

theorem isToken_of_lex {text : JsString} {t : Token} (h : lex .ground text = some ([t], .ground)) :
    IsToken text t := by
  intro d p hp
  rw [lex_append_some h, lex_singleton, Mode.step, between_of_punct hp]
  rfl

end Lexing

-- ============================================================================
-- Grammar
-- ============================================================================

/-- What a value is in: the elements or the members so far. -/
inductive Frame where
  | elem (elems : List Value)
  | member (members : List (JsString × Value)) (key : JsString)

/-- Where the parser is, inside the values of `fs`, the innermost first. -/
inductive Parser where
  /-- A value has to follow. -/
  | value (fs : List Frame)
  /-- After the bracket that opens an array. -/
  | array (fs : List Frame)
  /-- After the brace that opens an object. -/
  | object (fs : List Frame)
  /-- A key has to follow. -/
  | key (fs : List Frame) (members : List (JsString × Value))
  /-- A colon has to follow. -/
  | colon (fs : List Frame) (members : List (JsString × Value)) (key : JsString)
  /-- A value has just ended. -/
  | ended (fs : List Frame) (v : Value)

namespace Parser

/-- A token where a value has to follow. -/
def open_ (fs : List Frame) : Token → Option Parser
  | .str s => some (.ended fs (.str s))
  | .scalar v => some (.ended fs v)
  | .punct .lbrace => some (.object fs)
  | .punct .lbracket => some (.array fs)
  | _ => none

def step : Parser → Token → Option Parser
  | .value fs, t => open_ fs t
  | .array fs, .punct .rbracket => some (.ended fs (.arr []))
  | .array fs, t => open_ (.elem [] :: fs) t
  | .object fs, .punct .rbrace => some (.ended fs (.obj []))
  | .object fs, .str k => some (.colon fs [] k)
  | .key fs members, .str k => some (.colon fs members k)
  | .colon fs members k, .punct .colon => some (.value (.member members k :: fs))
  | .ended (.elem elems :: fs) v, .punct .comma => some (.value (.elem (elems ++ [v]) :: fs))
  | .ended (.elem elems :: fs) v, .punct .rbracket => some (.ended fs (.arr (elems ++ [v])))
  | .ended (.member members k :: fs) v, .punct .comma => some (.key fs (assign members k v))
  | .ended (.member members k :: fs) v, .punct .rbrace =>
    some (.ended fs (.obj (assign members k v)))
  | _, _ => none

def run (p : Parser) (ts : List Token) : Option Parser := ts.foldlM step p

@[simp] theorem run_nil (p : Parser) : run p [] = some p := rfl

@[simp] theorem run_cons (p : Parser) (t : Token) (ts : List Token) :
    run p (t :: ts) = (step p t).bind fun q => run q ts := rfl

theorem run_append (p : Parser) (ts us : List Token) :
    run p (ts ++ us) = (run p ts).bind fun q => run q us := by
  unfold run
  rw [List.foldlM_append]
  rfl

/-- The value of the whole text. -/
def result : Parser → Option Value
  | .ended [] v => some v
  | _ => none

end Parser

/-- The tokens of a text. -/
def tokens (text : JsString) : Option (List Token) := do
  let (ts, m) ← lex .ground text
  let us ← m.finish
  some (ts ++ us)

/-- `JSON.parse`; `none` is the exception it throws. -/
def parse (text : JsString) : Option Value := do
  let ts ← tokens text
  let p ← Parser.run (.value []) ts
  p.result

theorem parse_eq_some {text : JsString} {v : Value} : parse text = some v ↔
    ∃ ts p, tokens text = some ts ∧ Parser.run (.value []) ts = some p ∧ p.result = some v := by
  simp only [parse, Option.bind_eq_bind, Option.bind_eq_some_iff]
  constructor
  · rintro ⟨ts, hts, p, hp, hv⟩
    exact ⟨ts, p, hts, hp, hv⟩
  · rintro ⟨ts, p, hts, hp, hv⟩
    exact ⟨ts, hts, p, hp, hv⟩

end Js
end IncusDemo
