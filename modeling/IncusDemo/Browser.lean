/-
  IncusDemo.Browser

  The click handler of `tryit.js` that starts a session: it keeps the part of
  the response that came with the last progress event, and takes that part for
  the record of the session when the response is complete.
-/

import IncusDemo.Encoding
import IncusDemo.Steps
import IncusDemo.Timeout

namespace IncusDemo

open Go Js Conc

-- ============================================================================
-- The client
-- ============================================================================

/-- The variables of the click handler; `none` is the `false` of `last_response_len`. -/
structure Client where
  lastResponseLen : Option Nat
  lastResponse : JsString

def Client.init : Client := ⟨none, []⟩

/-- `onprogress`, where `response` is all of the response so far.  A text that it cannot parse
    ends the handler after both variables are set. -/
def onprogress (c : Client) (response : JsString) : Client :=
  match c.lastResponseLen with
  | none => ⟨some response.length, response⟩
  | some n => ⟨some response.length, response.drop n⟩

/-- The record that the completion handler acts on; `none` when `$.parseJSON` throws. -/
def completed (c : Client) : Option Value := parse c.lastResponse

/-- The client after progress events that have shown `cuts` code units of the text. -/
def receive (text : JsString) (cuts : List Nat) : Client :=
  cuts.foldl (fun c n => onprogress c (text.take n)) .init

/-- A way for the transport to deliver a text. -/
structure Delivers (text : JsString) (cuts : List Nat) : Prop where
  sorted : cuts.Pairwise (· ≤ ·)
  all : cuts.getLast? = some text.length

/-- What had been shown before the last progress event. -/
def shownBefore (cuts : List Nat) : Nat := cuts.dropLast.getLast?.getD 0

theorem receive_concat (text : JsString) (cuts : List Nat) (n : Nat) :
    receive text (cuts ++ [n]) = onprogress (receive text cuts) (text.take n) := by
  simp [receive]

/-- The client keeps what came with the last progress event. -/
theorem lastResponse_receive {text : JsString} {cuts : List Nat} (h : Delivers text cuts) :
    (receive text cuts).lastResponse = text.drop (shownBefore cuts) := by
  obtain ⟨earlier, rfl⟩ := List.getLast?_eq_some_iff.mp h.all
  rw [receive_concat, List.take_length]
  rcases List.eq_nil_or_concat earlier with rfl | ⟨as, k, hconcat⟩
  · rfl
  · obtain rfl : earlier = as ++ [k] := hconcat.trans (List.concat_eq_append ..)
    have hk : k ≤ text.length :=
      (List.pairwise_append.mp h.sorted).2.2 k (by simp) _ List.mem_cons_self
    have hlen : (receive text (as ++ [k])).lastResponseLen = some k := by
      rw [receive_concat]
      unfold onprogress
      split <;> simp [hk]
    unfold onprogress
    rw [hlen]
    simp [shownBefore]

-- ============================================================================
-- The response
-- ============================================================================

/-- The object that an operation has written to the response. -/
def objectOf : Event → Option JsonObject
  | ⟨.encode body, .ok _⟩ => some body
  | _ => none

/-- The objects that a thread has written, the first one first. -/
def objects (l : Log) : List JsonObject := l.reverse.filterMap objectOf

theorem mem_objects {l : Log} {body : JsonObject} (h : body ∈ objects l) :
    ⟨.encode body, .ok ()⟩ ∈ l := by
  obtain ⟨e, he, hobject⟩ := List.mem_filterMap.mp h
  unfold objectOf at hobject
  split at hobject
  · cases hobject
    exact List.mem_reverse.mp he
  · cases hobject

/-- The keys of an object that a start request sends are distinct. -/
theorem keys_nodup {r : Request} {l : Log} {body : JsonObject}
    (h : MaySend (.restStart r) l body) : (body.map Prod.fst).Nodup := by
  cases h with
  | progress msg => simp
  | error code => simp
  | answer q _ hq => cases hq
  | record ip id info =>
    unfold Info.json
    cases info.expiry <;> cases info.fqdn <;> cases info.status <;> simp

theorem keys_nodup_of_objects {s : Sys} (h : Sound s) {t : Nat} {r : Request} {l : Log}
    (hr : Ran s t (.restStart r) l) {body : JsonObject} (hw : body ∈ objects l) :
    (body.map Prod.fst).Nodup := by
  obtain ⟨l', -, hsend⟩ := (h.allowed hr).mem (mem_objects hw)
  exact keys_nodup hsend

/-- In every run, whatever a start request has written and however it is delivered, the client
    acts on the last object exactly when the progress events before the last have shown all that
    comes before it, or all but the end of the line before it, and its numbers are doubles. -/
theorem completed_iff {s₀ s : Sys} (h0 : Initial s₀) (hrun : server.Run Machine.anyStep s₀ s)
    {t : Nat} {r : Request} {l : Log} (hr : Ran s t (.restStart r) l) {before : List JsonObject}
    {body : JsonObject} (hw : objects l = before ++ [body]) {cuts : List Nat}
    (hd : Delivers (encodeAll (objects l)) cuts) :
    completed (receive (encodeAll (objects l)) cuts) = some (asSent body) ↔
      (shownBefore cuts = (encodeAll before).length ∨
        shownBefore cuts + 1 = (encodeAll before).length) ∧ AllExact body := by
  have hmem : body ∈ objects l := hw ▸ List.mem_append_right _ List.mem_cons_self
  have hkeys := keys_nodup_of_objects (h0.sound.run hrun) hr hmem
  unfold completed
  rw [lastResponse_receive hd, hw, parse_drop_iff hkeys, ← asRead_eq_asSent_iff,
    eq_comm (a := asSent body)]

/-- Thread `t` has come to the end of a start request, and `f` holds of what it has written. -/
def answered (t : Nat) (f : List JsonObject → Bool) (s : Sys) : Bool :=
  match s.threads[t]? with
  | some ⟨.restStart _, _, l, .ret _⟩ => f (objects l)
  | _ => false

theorem of_answered {t : Nat} {f : List JsonObject → Bool} {s : Sys} (h : answered t f s = true) :
    ∃ r l, Ran s t (.restStart r) l ∧ f (objects l) = true := by
  unfold answered at h
  split at h
  · rename_i r a l u hth
    exact ⟨r, l, ⟨_, hth, rfl, rfl⟩, h⟩
  · cases h

/-- A number of fewer than 54 bits, or no number. -/
def isSmall : Json → Bool
  | .num n => decide (|n| < 2 ^ 53)
  | _ => true

theorem allExact_of_isSmall {body : JsonObject} (h : (body.all fun kv => isSmall kv.2) = true) :
    AllExact body := by
  intro kv hkv n hn
  have hsmall := List.all_eq_true.mp h kv hkv
  rw [hn] at hsmall
  exact exact_intCast (decide_eq_true_iff.mp hsmall)

/-- The record of a new session comes with an event of its own. -/
theorem completed_small : ∃ s r l before body cuts, Ran s 2 (.restStart r) l ∧
    objects l = before ++ [body] ∧ Delivers (encodeAll (objects l)) cuts ∧
    completed (receive (encodeAll (objects l)) cuts) = some (asSent body) := by
  obtain ⟨s, hrun, hs⟩ := server.run_of_check Machine.noTest (fun _ _ _ => trivial) (emptyServer 0)
    (oks 0 14 ++ act (.request (startRequest "192.0.2.1")) ++ oks 2 57)
    (answered 2 fun os => os.getLast?.any fun body => body.all fun kv => isSmall kv.2)
    (by decide +kernel)
  obtain ⟨r, l, hr, hlast⟩ := of_answered hs
  obtain ⟨body, hbody, hsmall⟩ := (Option.any_eq_true _ _).mp hlast
  obtain ⟨before, hw⟩ := List.getLast?_eq_some_iff.mp hbody
  have hd : Delivers (encodeAll (objects l))
      [(encodeAll before).length, (encodeAll (objects l)).length] := by
    refine ⟨?_, rfl⟩
    simp [hw, encodeAll]
  exact ⟨s, r, l, before, body, _, hr, hw, hd,
    (completed_iff (emptyServer_initial 0) hrun hr hw hd).mpr
      ⟨.inl rfl, allExact_of_isSmall hsmall⟩⟩

theorem exists_last_two {α : Type} {xs : List α} (h : 2 ≤ xs.length) :
    ∃ as b c, xs = as ++ [b] ++ [c] := by
  rcases List.eq_nil_or_concat xs with rfl | ⟨ys, c, rfl⟩
  · cases h
  · rcases List.eq_nil_or_concat ys with rfl | ⟨as, b, rfl⟩
    · simp at h
    · exact ⟨as, b, c, by simp⟩

/-- The messages and the record of a new session come with one event, and are not understood. -/
theorem coalesced_not_understood : ¬ ∀ s₀ s t r l before body cuts, Initial s₀ →
    server.Run Machine.anyStep s₀ s → Ran s t (.restStart r) l → objects l = before ++ [body] →
    Delivers (encodeAll (objects l)) cuts →
    completed (receive (encodeAll (objects l)) cuts) = some (asSent body) := by
  intro hall
  obtain ⟨s, hrun, hs⟩ := server.run_of_check Machine.noTest (fun _ _ _ => trivial) (emptyServer 0)
    (oks 0 14 ++ act (.request (startRequest "192.0.2.1")) ++ oks 2 57)
    (answered 2 fun os => decide (2 ≤ os.length)) (by decide +kernel)
  obtain ⟨r, l, hr, hlen⟩ := of_answered hs
  obtain ⟨as, b, body, hw⟩ := exists_last_two (decide_eq_true_iff.mp hlen)
  obtain ⟨xs, hxs⟩ := encodeAll_closing (List.concat_ne_nil b as)
  have hlast := hall _ s 2 r l (as ++ [b]) body [(encodeAll (objects l)).length]
    (emptyServer_initial 0) hrun hr hw ⟨by simp, rfl⟩
  have hd : Delivers (encodeAll (objects l)) [(encodeAll (objects l)).length] := ⟨by simp, rfl⟩
  have hmem : body ∈ objects l := hw ▸ List.mem_append_right _ List.mem_cons_self
  have hkeys := keys_nodup_of_objects ((emptyServer_initial 0).sound.run hrun) hr hmem
  unfold completed at hlast
  rw [lastResponse_receive hd, hw, parse_drop_iff hkeys, hxs, List.length_append] at hlast
  rcases hlast.1 with hcut | hcut <;> simp [shownBefore, closing] at hcut

end IncusDemo
