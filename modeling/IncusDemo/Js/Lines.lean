/-
  IncusDemo.Js.Lines

  What `JSON.parse` makes of a part of a stream of objects, one a line.  It
  takes no part that goes on from the end of one line to the next object, and
  no part of a single line, whatever the place it is cut at.

  A lexer that starts inside a line takes what is outside strings for what is
  inside them, or the other way round, until it ends; or it sees the same
  punctuation as one that has read the whole line.
-/

import IncusDemo.Js.Json

namespace IncusDemo
namespace Js

/-- The end of a line that holds an object. -/
def closing : JsString := ['\x7d'.toNat, '\n'.toNat]

-- ============================================================================
-- Shapes
-- ============================================================================

/-- What a lexer does next, but for the contents of its token. -/
inductive Shape where
  | plain
  | string
  | escape
  | hex (left : Nat)
  deriving DecidableEq

def Mode.shape : Mode → Shape
  | .ground | .word _ => .plain
  | .string _ => .string
  | .escape _ => .escape
  | .hex _ left _ => .hex left

def Shape.step (a : Shape) (c : CodeUnit) : Shape :=
  match a with
  | .plain => if c = '"'.toNat then .string else .plain
  | .string => if c = '"'.toNat then .plain else if c = '\\'.toNat then .escape else .string
  | .escape => if c = 'u'.toNat then .hex 3 else .string
  | .hex 0 => .string
  | .hex (left + 1) => .hex left

/-- The punctuation that is outside of strings. -/
def skeleton : Shape → JsString → List Punct
  | _, [] => []
  | a, c :: cs => (if a = .plain then (punct c).toList else []) ++ skeleton (a.step c) cs

def Token.punct? : Token → Option Punct
  | .punct p => some p
  | _ => none

/-- The punctuation among tokens. -/
def puncts (ts : List Token) : List Punct := ts.filterMap Token.punct?

@[simp] theorem puncts_nil : puncts [] = [] := rfl

@[simp] theorem puncts_punct (p : Punct) (ts : List Token) :
    puncts (.punct p :: ts) = p :: puncts ts := rfl

theorem puncts_cons {t : Token} (h : t.punct? = none) (ts : List Token) :
    puncts (t :: ts) = puncts ts := List.filterMap_cons_none h

@[simp] theorem puncts_append (ts us : List Token) : puncts (ts ++ us) = puncts ts ++ puncts us :=
  List.filterMap_append

theorem literal_punct? {w : JsString} {t : Token} (h : literal w = some t) : t.punct? = none := by
  unfold literal at h
  split_ifs at h
  · cases h
    rfl
  · cases h
    rfl
  · cases h
    rfl
  · obtain ⟨q, -, rfl⟩ := Option.map_eq_some_iff.mp h
    rfl

theorem between_shape {c : CodeUnit} {ts : List Token} {m : Mode} (h : between c = some (ts, m)) :
    m.shape = Shape.plain.step c ∧ puncts ts = (punct c).toList := by
  unfold between at h
  cases hp : punct c with
  | some p =>
    obtain ⟨hspace, hword, hquote⟩ := apart_of_punct hp
    simp only [hspace, hword, hquote, hp] at h
    cases h
    exact ⟨(if_neg hquote).symm, rfl⟩
  | none =>
    split_ifs at h with hspace hquote hword
    · cases h
      refine ⟨(if_neg ?_).symm, rfl⟩
      rintro rfl
      exact absurd hspace (by decide)
    · cases h
      exact ⟨(if_pos hquote).symm, rfl⟩
    · cases h
      refine ⟨(if_neg ?_).symm, rfl⟩
      rintro rfl
      exact absurd hword (by decide)
    · rw [hp] at h
      cases h

theorem step_shape {m m' : Mode} {c : CodeUnit} {ts : List Token} (h : m.step c = some (ts, m')) :
    m'.shape = m.shape.step c ∧
      puncts ts = if m.shape = .plain then (punct c).toList else [] := by
  cases m with
  | ground => exact between_shape h
  | word w =>
    simp only [Mode.step] at h
    split_ifs at h with hword
    · cases h
      cases hp : punct c with
      | some p => exact absurd hword (by simp [(apart_of_punct hp).2.1])
      | none =>
        refine ⟨(if_neg ?_).symm, rfl⟩
        rintro rfl
        exact absurd hword (by decide)
    · obtain ⟨t, ht, h⟩ := Option.bind_eq_some_iff.mp h
      obtain ⟨r, hr, h⟩ := Option.bind_eq_some_iff.mp h
      cases h
      have hbetween := between_shape hr
      refine ⟨hbetween.1, ?_⟩
      rw [puncts_cons (literal_punct? ht)]
      exact hbetween.2
  | string s =>
    simp only [Mode.step] at h
    split_ifs at h with hquote hback hctl
    · cases h
      exact ⟨(if_pos hquote).symm, rfl⟩
    · cases h
      refine ⟨?_, rfl⟩
      simp only [Mode.shape, Shape.step]
      rw [if_neg hquote, if_pos hback]
    · cases h
      refine ⟨?_, rfl⟩
      simp only [Mode.shape, Shape.step]
      rw [if_neg hquote, if_neg hback]
  | escape s =>
    simp only [Mode.step] at h
    split_ifs at h with hu
    · cases h
      exact ⟨(if_pos hu).symm, rfl⟩
    · obtain ⟨u, -, h⟩ := Option.map_eq_some_iff.mp h
      cases h
      exact ⟨(if_neg hu).symm, rfl⟩
  | hex s left acc =>
    obtain ⟨d, -, h⟩ := Option.bind_eq_some_iff.mp h
    cases left <;> cases h <;> exact ⟨rfl, rfl⟩

/-- A lexer that comes to the end has seen the punctuation that is outside of strings. -/
theorem lex_shape {m m' : Mode} {text : JsString} {ts : List Token}
    (h : lex m text = some (ts, m')) :
    m'.shape = text.foldl Shape.step m.shape ∧ puncts ts = skeleton m.shape text := by
  induction text generalizing m ts with
  | nil =>
    cases h
    exact ⟨rfl, rfl⟩
  | cons c text ih =>
    obtain ⟨us, n, vs, hstep, hlex, rfl⟩ := lex_cons.mp h
    obtain ⟨hshape, hpuncts⟩ := step_shape hstep
    obtain ⟨hend, hrest⟩ := ih hlex
    rw [hshape] at hend hrest
    refine ⟨hend, ?_⟩
    rw [puncts_append]
    exact congrArg₂ (· ++ ·) hpuncts hrest

-- ============================================================================
-- Lexers that are out of step
-- ============================================================================

/-- The first lexer is outside of strings and the second is in one. -/
def Crossed (a b : Shape) : Prop := a = .plain ∧ (b = .string ∨ ∃ left, b = .hex left)

/-- Outside of strings there is no backslash. -/
theorem ne_backslash {m m' : Mode} {c : CodeUnit} {ts : List Token} (hm : m.shape = .plain)
    (h : m.step c = some (ts, m')) : c ≠ '\\'.toNat := by
  rintro rfl
  have hbetween : between '\\'.toNat = none := by decide
  cases m with
  | ground =>
    rw [Mode.step, hbetween] at h
    cases h
  | word w =>
    obtain ⟨t, -, h⟩ := Option.bind_eq_some_iff.mp h
    rw [hbetween] at h
    cases h
  | _ => cases hm

/-- In the digits of an escape there are neither quotes nor line ends. -/
theorem hexValue_of_step {m m' : Mode} {c : CodeUnit} {ts : List Token} {left : Nat}
    (hm : m.shape = .hex left) (h : m.step c = some (ts, m')) : (hexValue c).isSome := by
  cases m with
  | hex s left acc =>
    obtain ⟨d, hd, -⟩ := Option.bind_eq_some_iff.mp h
    rw [hd]
    rfl
  | _ => cases hm

/-- What is outside of strings for one lexer goes on being inside for the other. -/
theorem Crossed.step {m m' n n' : Mode} {c : CodeUnit} {ts us : List Token}
    (h : Crossed m.shape n.shape) (hm : m.step c = some (ts, m')) (hn : n.step c = some (us, n')) :
    Crossed m'.shape n'.shape ∨ Crossed n'.shape m'.shape := by
  obtain ⟨hplain, hin⟩ := h
  have hback := ne_backslash hplain hm
  rw [(step_shape hm).1, (step_shape hn).1, hplain]
  by_cases hquote : c = '"'.toNat
  · -- the quote that ends one string starts another
    rcases hin with hin | ⟨left, hin⟩
    · rw [hin]
      exact .inr ⟨if_pos hquote, .inl (if_pos hquote)⟩
    · subst hquote
      have hdigit := hexValue_of_step hin hn
      exact absurd hdigit (by decide)
  · refine .inl ⟨if_neg hquote, ?_⟩
    rcases hin with hin | ⟨left, hin⟩
    · rw [hin]
      exact .inl ((if_neg hquote).trans (if_neg hback))
    · rw [hin]
      cases left with
      | zero => exact .inl rfl
      | succ left => exact .inr ⟨left, rfl⟩

/-- A string does not go on past the end of a line. -/
theorem step_newline {m m' : Mode} {ts : List Token} (h : m.step '\n'.toNat = some (ts, m')) :
    m.shape = .plain := by
  cases m with
  | ground => rfl
  | word w => rfl
  | string s =>
    have hnone : (Mode.string s).step '\n'.toNat = none := rfl
    cases hnone.symm.trans h
  | escape s =>
    have hnone : (Mode.escape s).step '\n'.toNat = none := rfl
    cases hnone.symm.trans h
  | hex s left acc => exact absurd (hexValue_of_step rfl h) (by decide)

/-- Of two lexers that are out of step, one does not come to the end of the line. -/
theorem not_crossed {m m' n n' : Mode} {line : JsString} {ts us : List Token}
    (hm : lex m (line ++ ['\n'.toNat]) = some (ts, m'))
    (hn : lex n (line ++ ['\n'.toNat]) = some (us, n')) : ¬ Crossed m.shape n.shape := by
  intro h
  induction line generalizing m n m' n' ts us with
  | nil =>
    rw [List.nil_append, lex_singleton] at hm hn
    have hplain := step_newline hn
    obtain ⟨-, hin | ⟨left, hin⟩⟩ := h
    · cases hplain.symm.trans hin
    · cases hplain.symm.trans hin
  | cons c line ih =>
    obtain ⟨_, m₁, _, hstep, hm, -⟩ := lex_cons.mp hm
    obtain ⟨_, n₁, _, hstep', hn, -⟩ := lex_cons.mp hn
    rcases h.step hstep hstep' with hnext | hnext
    · exact ih hm hn hnext
    · exact ih hn hm hnext

-- ============================================================================
-- Parts of a line
-- ============================================================================

/-- A lexer that starts in the middle of a line sees no other punctuation than the one that has
    come there from the start, unless it fails. -/
theorem puncts_of_cut {m m' n' : Mode} {line : JsString} {ts us : List Token}
    (hm : lex m (line ++ ['\n'.toNat]) = some (ts, m'))
    (hn : lex .ground (line ++ ['\n'.toNat]) = some (us, n')) : puncts us = puncts ts := by
  rw [(lex_shape hm).2, (lex_shape hn).2]
  cases m with
  | ground => rfl
  | word w => rfl
  | string s => exact absurd ⟨rfl, .inl rfl⟩ (not_crossed hn hm)
  | hex s left acc => exact absurd ⟨rfl, .inr ⟨left, rfl⟩⟩ (not_crossed hn hm)
  | escape s =>
    cases line with
    | nil =>
      rw [List.nil_append, lex_singleton] at hm
      cases step_newline hm
    | cons c line =>
      by_cases hquote : c = '"'.toNat
      · -- a quote that was escaped opens a string that ends where it ended
        subst hquote
        rfl
      · obtain ⟨_, m₁, _, hstep, hm, -⟩ := lex_cons.mp hm
        obtain ⟨_, n₁, _, hstep', hn, -⟩ := lex_cons.mp hn
        have hplain : n₁.shape = .plain := (step_shape hstep').1.trans (if_neg hquote)
        have hin : m₁.shape = .string ∨ ∃ left, m₁.shape = .hex left := by
          rw [(step_shape hstep).1]
          by_cases hu : c = 'u'.toNat
          · exact .inr ⟨3, if_pos hu⟩
          · exact .inl (if_neg hu)
        exact absurd ⟨hplain, hin⟩ (not_crossed hn hm)

/-- A token that opens an array or an object. -/
def Punct.opens (p : Punct) : Prop := p = .lbrace ∨ p = .lbracket

instance (p : Punct) : Decidable p.opens := inferInstanceAs (Decidable (_ ∨ _))

/-- After a value that is in no other nothing may follow. -/
theorem run_ended {v : Value} {ts : List Token} {p : Parser}
    (h : Parser.run (.ended [] v) ts = some p) : ts = [] := by
  cases ts with
  | nil => rfl
  | cons t ts =>
    have hnone : Parser.step (.ended [] v) t = none := by
      cases t with
      | punct q => cases q <;> rfl
      | str s => rfl
      | scalar v => rfl
    rw [Parser.run_cons, hnone] at h
    cases h

/-- Without anything that opens, a text is a single token that is no punctuation. -/
theorem puncts_of_result {ts : List Token} {p : Parser} {v : Value}
    (hrun : Parser.run (.value []) ts = some p) (hv : p.result = some v)
    (h : ∀ q ∈ puncts ts, ¬ q.opens) : puncts ts = [] := by
  cases ts with
  | nil =>
    cases hrun
    cases hv
  | cons t ts =>
    obtain ⟨p₁, hstep, hrun⟩ := Option.bind_eq_some_iff.mp hrun
    cases t with
    | punct q =>
      have hq := h q (by simp)
      cases q with
      | lbrace => exact absurd (.inl rfl) hq
      | lbracket => exact absurd (.inr rfl) hq
      | _ => cases hstep
    | str s =>
      cases hstep
      rw [run_ended hrun]
      rfl
    | scalar v =>
      cases hstep
      rw [run_ended hrun]
      rfl

theorem run_rbrace_lbrace (p : Parser) (ts us : List Token) :
    Parser.run p (ts ++ .punct .rbrace :: .punct .lbrace :: us) = none := by
  rw [Parser.run_append]
  cases Parser.run p ts with
  | none => rfl
  | some q =>
    cases q with
    | object fs => simp [Parser.step]
    | ended fs v =>
      cases fs with
      | nil => rfl
      | cons f fs => cases f <;> simp [Parser.step]
    | _ => rfl

/-- A lexer that comes to the end of a line has just read the brace before it. -/
theorem lex_closing {m m' : Mode} {ts : List Token} (h : lex m closing = some (ts, m')) :
    m' = .ground ∧ ∃ us, ts = us ++ [.punct .rbrace] := by
  obtain ⟨us, n, vs, hbrace, hline, rfl⟩ := lex_cons.mp h
  rw [lex_singleton] at hline
  cases m with
  | ground =>
    cases hbrace
    cases hline
    exact ⟨rfl, [], rfl⟩
  | word w =>
    obtain ⟨t, -, hbrace⟩ := Option.bind_eq_some_iff.mp hbrace
    cases hbrace
    cases hline
    exact ⟨rfl, [t], rfl⟩
  | string s =>
    cases hbrace
    cases step_newline hline
  | escape s => cases hbrace
  | hex s left acc => exact absurd (hexValue_of_step rfl hbrace) (by decide)

theorem lex_append_closing {m m' : Mode} {xs : JsString} {ts : List Token}
    (h : lex m (xs ++ closing) = some (ts, m')) :
    m' = .ground ∧ ∃ us, ts = us ++ [.punct .rbrace] := by
  rw [lex_append] at h
  obtain ⟨⟨us, n⟩, -, h⟩ := Option.bind_eq_some_iff.mp h
  obtain ⟨⟨vs, k⟩, hclosing, h⟩ := Option.map_eq_some_iff.mp h
  cases h
  obtain ⟨hend, ws, hws⟩ := lex_closing hclosing
  exact ⟨hend, us ++ ws, by rw [hws, List.append_assoc]⟩

/-- A text that goes on from the end of one line to an object is not a JSON text. -/
theorem parse_lines (xs ys : JsString) : parse (xs ++ closing ++ '\x7b'.toNat :: ys) = none := by
  rw [Option.eq_none_iff_forall_not_mem]
  intro v hv
  obtain ⟨ts, p, htokens, hrun, -⟩ := parse_eq_some.mp hv
  obtain ⟨⟨us, m⟩, hlex, htokens⟩ := Option.bind_eq_some_iff.mp htokens
  obtain ⟨end_, -, htokens⟩ := Option.bind_eq_some_iff.mp htokens
  cases htokens
  rw [lex_append] at hlex
  obtain ⟨⟨ws, n⟩, hline, hlex⟩ := Option.bind_eq_some_iff.mp hlex
  obtain ⟨hground, ws, rfl⟩ := lex_append_closing hline
  obtain rfl : n = .ground := hground
  obtain ⟨⟨us, k⟩, hnext, hlex⟩ := Option.map_eq_some_iff.mp hlex
  obtain ⟨vs, _, xs, hbrace, -, rfl⟩ := lex_cons.mp hnext
  cases hbrace
  cases hlex
  have hnone := run_rbrace_lbrace (.value []) ws (xs ++ end_)
  simp only [List.append_assoc, List.cons_append, List.nil_append] at hrun
  cases hnone.symm.trans hrun

/-- The part of a line after an opening brace is not a JSON text, wherever it starts. -/
theorem parse_cut {pre rest : JsString} {ts : List Token} {m : Mode}
    (h : lex .ground (pre ++ (rest ++ closing)) = some (ts, m)) (hone : ∀ q ∈ puncts ts, ¬ q.opens) :
    parse (rest ++ closing) = none := by
  rw [Option.eq_none_iff_forall_not_mem]
  intro v hv
  obtain ⟨us, p, htokens, hrun, hv⟩ := parse_eq_some.mp hv
  obtain ⟨⟨vs, n⟩, hlex, htokens⟩ := Option.bind_eq_some_iff.mp htokens
  obtain ⟨rfl, ws, rfl⟩ := lex_append_closing hlex
  cases htokens
  rw [lex_append] at h
  obtain ⟨⟨before, k⟩, -, h⟩ := Option.bind_eq_some_iff.mp h
  obtain ⟨⟨after, k'⟩, hafter, h⟩ := Option.map_eq_some_iff.mp h
  cases h
  have hsplit : rest ++ closing = rest ++ ['\x7d'.toNat] ++ ['\n'.toNat] := by
    rw [List.append_assoc]
    rfl
  rw [hsplit] at hafter hlex
  have hpuncts := puncts_of_cut hafter hlex
  have hnil : puncts (ws ++ [.punct .rbrace] ++ []) = [] := by
    refine puncts_of_result hrun hv fun q hq => hone q ?_
    rw [List.append_nil, hpuncts] at hq
    rw [puncts_append]
    exact List.mem_append_right _ hq
  simp at hnil

end Js
end IncusDemo
