/-
  IncusDemo.Encoding

  The text of the JSON objects that the server sends, and what `JSON.parse`
  makes of it: of one object, of a part of one, and of more than one.
-/

import IncusDemo.Effect
import IncusDemo.Go.Json
import IncusDemo.Js.Lines

namespace IncusDemo

open Go Js

-- ============================================================================
-- Text
-- ============================================================================

def Json.text : Json → JsString
  | .str s => quote s
  | .num n => formatInt n
  | .bool b => ofString (if b then "true" else "false")

/-- A key and its value. -/
def memberText (kv : String × Json) : JsString := quote kv.1 ++ ':'.toNat :: kv.2.text

/-- What `json.NewEncoder(w).Encode(body)` writes. -/
def encode (body : JsonObject) : JsString :=
  '\x7b'.toNat :: ([','.toNat].intercalate (body.map memberText) ++ closing)

/-- The text of objects that are sent one after the other. -/
def encodeAll (bodies : List JsonObject) : JsString := bodies.flatMap encode

theorem encodeAll_concat (as : List JsonObject) (b : JsonObject) :
    encodeAll (as ++ [b]) = encodeAll as ++ encode b := by
  simp [encodeAll]

/-- The text of some objects ends with the end of a line. -/
theorem encodeAll_closing {bodies : List JsonObject} (h : bodies ≠ []) :
    ∃ xs, encodeAll bodies = xs ++ closing := by
  rcases List.eq_nil_or_concat bodies with hnil | ⟨as, b, hconcat⟩
  · exact absurd hnil h
  · rw [hconcat, List.concat_eq_append, encodeAll_concat, encode]
    exact ⟨encodeAll as ++ '\x7b'.toNat :: [','.toNat].intercalate (b.map memberText), by simp⟩

-- ============================================================================
-- Values
-- ============================================================================

/-- A value as JavaScript has it, where `num` is what becomes of numbers. -/
def Json.toJs (num : Int → Number) : Json → Value
  | .str s => .str (ofString s)
  | .num n => .num (num n)
  | .bool b => .bool b

/-- An object as JavaScript has it. -/
def toJs (num : Int → Number) (body : JsonObject) : List (JsString × Value) :=
  body.map fun kv => (ofString kv.1, kv.2.toJs num)

/-- The object that was sent. -/
def asSent (body : JsonObject) : Value := .obj (toJs (fun n => .finite n) body)

/-- The object as it is read: the numbers are rounded to doubles. -/
def asRead (body : JsonObject) : Value := .obj (toJs (fun n => .ofRat n) body)

/-- No number of the object is changed when it is read. -/
def AllExact (body : JsonObject) : Prop := ∀ kv ∈ body, ∀ n : Int, kv.2 = .num n → Exact n

theorem asRead_eq_asSent_iff {body : JsonObject} : asRead body = asSent body ↔ AllExact body := by
  unfold asRead asSent toJs AllExact
  rw [Value.obj.injEq, List.map_inj_left]
  refine forall₂_congr fun kv _ => ?_
  rw [Prod.mk.injEq]
  cases kv.2 <;> simp [Json.toJs, Exact]

-- ============================================================================
-- Reading an object back
-- ============================================================================

def Json.token : Json → Token
  | .str s => .str (ofString s)
  | .num n => .scalar (.num (.ofRat n))
  | .bool b => .scalar (.bool b)

/-- The tokens of an object after the brace that opens it. -/
def memberTokens : JsonObject → List Token
  | [] => [.punct .rbrace]
  | [kv] => [.str (ofString kv.1), .punct .colon, kv.2.token, .punct .rbrace]
  | kv :: kvs => [.str (ofString kv.1), .punct .colon, kv.2.token, .punct .comma] ++ memberTokens kvs

theorem isToken_text (v : Json) : IsToken v.text v.token := by
  cases v with
  | str s => exact isToken_of_lex (lex_quote s)
  | num n => exact isToken_formatInt n
  | bool b =>
    cases b with
    | true => exact isToken_true
    | false => exact isToken_false

theorem lex_memberText (kv : String × Json) {c : CodeUnit} {p : Punct} (h : punct c = some p) :
    lex .ground (memberText kv ++ [c]) =
      some ([.str (ofString kv.1), .punct .colon, kv.2.token, .punct p], .ground) := by
  have hcolon : Mode.ground.step ':'.toNat = some ([.punct .colon], .ground) := rfl
  rw [memberText, List.append_assoc, List.cons_append, lex_append_some (lex_quote kv.1),
    lex_cons_some hcolon, isToken_text kv.2 c p h]
  rfl

theorem lex_members (body : JsonObject) :
    lex .ground ([','.toNat].intercalate (body.map memberText) ++ closing) =
      some (memberTokens body, .ground) := by
  have hline : lex .ground ['\n'.toNat] = some ([], .ground) := rfl
  fun_induction memberTokens body with
  | case1 => rfl
  | case2 kv =>
    have hsplit : [','.toNat].intercalate ([kv].map memberText) ++ closing =
        memberText kv ++ ['\x7d'.toNat] ++ ['\n'.toNat] := by
      simp [closing]
    rw [hsplit, lex_append_some (lex_memberText kv (p := .rbrace) rfl), hline]
    rfl
  | case3 kv kvs hne ih =>
    have hsplit : [','.toNat].intercalate ((kv :: kvs).map memberText) ++ closing =
        memberText kv ++ [','.toNat] ++
          ([','.toNat].intercalate (kvs.map memberText) ++ closing) := by
      have hmap : kvs.map memberText ≠ [] := by simpa using hne
      rw [List.map_cons, List.intercalate_cons_of_ne_nil hmap]
      simp
    rw [hsplit, lex_append_some (lex_memberText kv (p := .comma) rfl), ih]
    rfl

/-- An object opens nothing after its own brace. -/
theorem puncts_memberTokens (body : JsonObject) : ∀ q ∈ puncts (memberTokens body), ¬ q.opens := by
  have hmember : ∀ (kv : String × Json) p, puncts [.str (ofString kv.1), .punct .colon,
      kv.2.token, .punct p] = [.colon, p] := by
    intro kv p
    have htoken : kv.2.token.punct? = none := by cases kv.2 <;> rfl
    rw [puncts_cons rfl, puncts_punct, puncts_cons htoken, puncts_punct, puncts_nil]
  fun_induction memberTokens body with
  | case1 => decide
  | case2 kv =>
    rw [hmember]
    decide
  | case3 kv kvs hne ih =>
    rw [puncts_append, hmember]
    intro q hq
    rcases List.mem_append.mp hq with hq | hq
    · have hseparators : ∀ r ∈ [Punct.colon, .comma], ¬ r.opens := by decide
      exact hseparators q hq
    · exact ih q hq

theorem step_key {p : Parser} {done : List (JsString × Value)} (kv : String × Json)
    (hp : ∀ k, p.step (.str k) = some (.colon [] done k)) (ts : List Token) :
    Parser.run p ([.str (ofString kv.1), .punct .colon, kv.2.token] ++ ts) =
      Parser.run (.ended [.member done (ofString kv.1)] (kv.2.toJs fun n => .ofRat n)) ts := by
  have hvalue : ∀ fs, Parser.step (.value fs) kv.2.token =
      some (.ended fs (kv.2.toJs fun n => .ofRat n)) := by
    intro fs
    cases kv.2 <;> rfl
  simp only [List.cons_append, List.nil_append, Parser.run_cons, hp, Option.bind_some]
  rw [Parser.step, Option.bind_some, hvalue, Option.bind_some]

theorem run_members {p : Parser} {done : List (JsString × Value)} {body : JsonObject}
    (hp : ∀ k, p.step (.str k) = some (.colon [] done k)) (hne : body ≠ [])
    (hkeys : ((done ++ toJs (fun n => .ofRat n) body).map Prod.fst).Nodup) :
    Parser.run p (memberTokens body) =
      some (.ended [] (.obj (done ++ toJs (fun n => .ofRat n) body))) := by
  have hnew : ∀ kv kvs, body = kv :: kvs → ofString kv.1 ∉ done.map Prod.fst := by
    rintro kv kvs rfl hmem
    rw [List.map_append] at hkeys
    exact (List.nodup_append.mp hkeys).2.2 _ hmem _ List.mem_cons_self rfl
  fun_induction memberTokens body generalizing p done with
  | case1 => exact absurd rfl hne
  | case2 kv =>
    have hsplit : [Token.str (ofString kv.1), .punct .colon, kv.2.token, .punct .rbrace] =
        [.str (ofString kv.1), .punct .colon, kv.2.token] ++ [.punct .rbrace] := rfl
    rw [hsplit, step_key kv hp, Parser.run_cons, Parser.step, assign_of_not_mem (hnew kv [] rfl)]
    rfl
  | case3 kv kvs hkvs ih =>
    have hsplit : [Token.str (ofString kv.1), .punct .colon, kv.2.token, .punct .comma] ++
        memberTokens kvs = [.str (ofString kv.1), .punct .colon, kv.2.token] ++
          .punct .comma :: memberTokens kvs := rfl
    have hdone : done ++ [(ofString kv.1, kv.2.toJs fun n => .ofRat n)] ++
        toJs (fun n => .ofRat n) kvs = done ++ toJs (fun n => .ofRat n) (kv :: kvs) := by
      rw [List.append_assoc]
      rfl
    rw [← hdone] at hkeys ⊢
    rw [hsplit, step_key kv hp, Parser.run_cons, Parser.step, assign_of_not_mem (hnew kv kvs rfl),
      Option.bind_some]
    refine ih (fun _ => rfl) (by simpa using hkvs) hkeys ?_
    rintro kv' kvs' rfl hmem
    rw [List.map_append] at hkeys
    exact (List.nodup_append.mp hkeys).2.2 _ hmem _ List.mem_cons_self rfl

/-- An object whose keys are distinct is read back, with its numbers rounded. -/
theorem parse_encode {body : JsonObject} (h : (body.map Prod.fst).Nodup) :
    parse (encode body) = some (asRead body) := by
  have hkeys : ((toJs (fun n => .ofRat n) body).map Prod.fst).Nodup := by
    have hmap : (toJs (fun n => .ofRat n) body).map Prod.fst =
        (body.map Prod.fst).map ofString := by
      simp [toJs]
    rw [hmap]
    exact h.map ofString_injective
  have hopen : Mode.ground.step '\x7b'.toNat = some ([.punct .lbrace], .ground) := rfl
  have htokens : tokens (encode body) = some (.punct .lbrace :: memberTokens body) := by
    unfold tokens encode
    rw [lex_cons_some hopen, lex_members]
    simp [Mode.finish]
  rw [parse_eq_some]
  refine ⟨_, .ended [] (asRead body), htokens, ?_, rfl⟩
  have hstart : Parser.step (.value []) (.punct .lbrace) = some (.object []) := rfl
  rw [Parser.run_cons, hstart, Option.bind_some]
  cases body with
  | nil => rfl
  | cons kv kvs =>
    exact @run_members (.object []) [] (kv :: kvs) (fun _ => rfl) (List.cons_ne_nil kv kvs) hkeys

-- ============================================================================
-- Parts of a stream
-- ============================================================================

/-- No part of the text of an object, but for the whole, is a JSON text. -/
theorem parse_drop_encode (body : JsonObject) {j : Nat} (h : 0 < j) :
    parse ((encode body).drop j) = none := by
  obtain ⟨i, rfl⟩ := Nat.exists_eq_add_of_lt h
  unfold encode
  rw [Nat.zero_add, List.drop_succ_cons]
  generalize hinner : [','.toNat].intercalate (body.map memberText) = inner
  rw [List.drop_append]
  rcases Nat.lt_or_ge inner.length i with hi | hi
  · obtain ⟨d, hd⟩ := Nat.exists_eq_add_of_lt hi
    have hover : i - inner.length = d + 1 := by omega
    rw [List.drop_eq_nil_of_le hi.le, hover]
    cases d with
    | zero => rfl
    | succ d => simp [closing, parse, tokens, lex, Mode.finish, Parser.result]
  · have hlex := lex_members body
    rw [hinner, ← List.take_append_drop i inner, List.append_assoc] at hlex
    rw [Nat.sub_eq_zero_of_le hi, List.drop_zero]
    exact parse_cut hlex (puncts_memberTokens body)

/-- White space in front of an object does not count. -/
theorem parse_newline (text : JsString) : parse ('\n'.toNat :: text) = parse text := by
  have hstep : Mode.ground.step '\n'.toNat = some ([], .ground) := rfl
  unfold parse tokens
  rw [lex_cons_some hstep]
  cases lex .ground text <;> rfl

/-- From before the end of a line on, a stream with another object is not a JSON text. -/
theorem parse_drop_before {before : List JsonObject} (body : JsonObject) {k : Nat}
    (h : k + 1 < (encodeAll before).length) :
    parse ((encodeAll before ++ encode body).drop k) = none := by
  have hne : before ≠ [] := by
    rintro rfl
    cases h
  obtain ⟨xs, hxs⟩ := encodeAll_closing hne
  have hk : k ≤ xs.length := by
    rw [hxs, List.length_append] at h
    exact Nat.le_of_lt_succ (Nat.lt_of_succ_lt_succ h)
  have hdrop : (xs ++ closing ++ encode body).drop k = xs.drop k ++ closing ++ encode body := by
    rw [List.append_assoc, List.drop_append, Nat.sub_eq_zero_of_le hk, List.append_assoc]
    rfl
  rw [hxs, hdrop, encode, parse_lines]

/-- The end of the line before an object does no harm. -/
theorem parse_drop_end_of_line {before : List JsonObject} (body : JsonObject) {k : Nat}
    (h : k + 1 = (encodeAll before).length) :
    parse ((encodeAll before ++ encode body).drop k) = parse (encode body) := by
  have hne : before ≠ [] := by
    rintro rfl
    cases h
  obtain ⟨xs, hxs⟩ := encodeAll_closing hne
  have hk : k = xs.length + 1 := by
    rw [hxs, List.length_append] at h
    exact Nat.succ.inj h
  have hdrop : (xs ++ closing ++ encode body).drop (xs.length + 1) =
      '\n'.toNat :: encode body := by
    simp [closing]
  rw [hxs, hk, hdrop, parse_newline]

/-- A stream of objects is read from a place on exactly when the last object starts there, or the
    end of the line before it, and the last object is what is read. -/
theorem parse_drop_iff {before : List JsonObject} {body : JsonObject} {k : Nat} {v : Value}
    (h : (body.map Prod.fst).Nodup) : parse ((encodeAll (before ++ [body])).drop k) = some v ↔
      (k = (encodeAll before).length ∨ k + 1 = (encodeAll before).length) ∧ v = asRead body := by
  have hread : parse (encode body) = some v ↔ v = asRead body := by
    rw [parse_encode h, Option.some.injEq, eq_comm]
  have hunread : ∀ {text : JsString}, parse text = none →
      ¬ (k = (encodeAll before).length ∨ k + 1 = (encodeAll before).length) →
      (parse text = some v ↔ (k = (encodeAll before).length ∨ k + 1 = (encodeAll before).length) ∧
        v = asRead body) := by
    intro text hnone hcut
    rw [hnone]
    exact iff_of_false nofun fun hv => hcut hv.1
  rw [encodeAll_concat]
  rcases Nat.lt_trichotomy k (encodeAll before).length with hlt | heq | hgt
  · rcases Nat.lt_or_eq_of_le (Nat.succ_le_of_lt hlt) with hbefore | hend
    · exact hunread (parse_drop_before body hbefore) (by omega)
    · rw [parse_drop_end_of_line body hend, hread]
      exact ⟨fun hv => ⟨.inr hend, hv⟩, And.right⟩
  · rw [heq, List.drop_left, hread]
    simp
  · have hdrop : (encodeAll before ++ encode body).drop k =
        (encode body).drop (k - (encodeAll before).length) := by
      rw [List.drop_append, List.drop_eq_nil_of_le hgt.le, List.nil_append]
    rw [hdrop]
    exact hunread (parse_drop_encode body (by omega)) (by omega)

end IncusDemo
