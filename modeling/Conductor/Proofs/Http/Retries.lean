import Conductor.Http
import Mathlib.Order.Bounds.Basic
import Mathlib.Algebra.Group.Nat.Defs
import Mathlib.Data.Nat.Find

/-!
# Retries

The outcomes of a request are the replies of one exchange after the other. Whether an outcome is
tried again depends on the outcome and the response mode alone, so the retries that are made are as
many as there are allowed or as many as come before the first outcome that is not tried again,
whichever is less, and the result depends on the last outcome only. The pauses double. A pause is a
double times a power of two, and that power is a double up to attempt 1023 only: the request that is
to be tried again after attempt 1024 ends with the failure of the conversion instead.
-/

set_option autoImplicit false

namespace Conductor

namespace Decimal

theorem roundDiv_mul (a : Nat) {b : Nat} (hb : 0 < b) : roundDiv (a * b) b = a := by
  have hne : b ≠ 0 := by omega
  simp [roundDiv, Nat.mul_div_cancel a hb, hne.symm]

theorem quotientBits_two_pow (j : Nat) :
    quotientBits (2 ^ j) 1 = min ((j + 1023) * 2 ^ 52) infinityBits := by
  have hpos : ¬ (2 ^ j = 0 ∨ 1 = 0) := by simp
  have hone : Nat.log2 1 = 0 := by decide
  have hguess : (Nat.log2 (2 ^ j) : Int) - (Nat.log2 1 : Int) - 52 = (j : Int) - 52 := by
    rw [Nat.log2_two_pow, hone]; simp
  have hmax : max ((j : Int) - 52) (-1074) = (j : Int) - 52 := by omega
  have hfield : ((j : Int) - 52 + 1074).toNat = j + 1022 := by omega
  have hnext : (j + 1022) * 2 ^ 52 + 2 ^ 52 = (j + 1023) * 2 ^ 52 := by omega
  simp only [quotientBits, if_neg hpos, hguess]
  by_cases hj : 52 ≤ j
  · have hge : (j : Int) - 52 ≥ 0 := by omega
    have hexp : ((j : Int) - 52).toNat + 52 = j := by omega
    have hround : roundDiv (2 ^ j) (2 ^ ((j : Int) - 52).toNat) = 2 ^ 52 := by
      conv => enter [1, 1]; rw [← hexp, Nat.add_comm, Nat.pow_add]
      exact roundDiv_mul _ (Nat.two_pow_pos _)
    simp only [if_pos hge, hexp, Nat.one_mul, Nat.pow_eq, Nat.le_refl, decide_true, if_true, hmax, hround,
      hfield, hnext]
  · have hlt : ¬ (j : Int) - 52 ≥ 0 := by omega
    have hexp : j + (-((j : Int) - 52)).toNat = 52 := by omega
    have hround : roundDiv (2 ^ 52) 1 = 2 ^ 52 := by
      have h := roundDiv_mul (2 ^ 52) Nat.one_pos
      rwa [Nat.mul_one] at h
    simp only [if_neg hlt, Nat.one_mul, Nat.pow_eq, ← Nat.pow_add, hexp, Nat.le_refl, decide_true, if_true, hmax,
      hround, hfield, hnext]

theorem ofInt?_two_pow (j : Nat) :
    ofInt? (2 ^ j : Nat) = if j < 1024 then some (ofQuotient false (2 ^ j) 1) else none := by
  have hlt : ¬ ((2 ^ j : Nat) : Int) < 0 := by have := Int.natCast_nonneg (2 ^ j); omega
  have hinf : quotientBits (2 ^ j) 1 = infinityBits ↔ ¬ j < 1024 := by
    rw [quotientBits_two_pow, infinityBits]
    simp only [Nat.pow_eq]
    omega
  by_cases h : j < 1024 <;>
    simp only [ofInt?, ofQuotient, Int.natAbs_natCast, hinf, h, hlt, not_true, not_false_iff, if_true, if_false, decide_false]

end Decimal

namespace Http

variable {settings : Settings} {raw : Bool} {url : String} {s : Sent} {http : Http}

/-! ## Outcomes -/

/-- The transport after a number of exchanges of one request. -/
def after (s : Sent) (http : Http) : Nat → Http
  | 0 => http
  | n + 1 => (exchange s (after s http n)).2

/-- The reply of one exchange more. -/
def outcome (s : Sent) (http : Http) (n : Nat) : Reply := (exchange s (after s http n)).1

/-- An outcome that another try may mend: a failure of the transport, or a status of the server's own
making where the status is not what was asked for. -/
def Passing (mode : Option ResponseMode) : Reply → Prop
  | .broken kind _ => kind ≠ "TooManyRedirects" ∧ kind ≠ "DecodingError"
  | .response r => mode ≠ some .lite ∧ mode ≠ some .full ∧ 500 ≤ r.status

theorem retryable_iff {mode : Option ResponseMode} {reply : Reply} :
    retryable (reportsStatus mode) reply = true ↔ Passing mode reply := by
  cases reply with
  | broken kind message => simp [retryable, isTransport, Passing]
  | response r => simp [retryable, reportsStatus, Passing, and_assoc]

/-- What was paused before a request does not reach it. -/
theorem send_pauses (p : List Float) (fuel : Nat) :
    send fuel s { http with pauses := p } = ((send fuel s http).1, { (send fuel s http).2 with pauses := p }) := by
  induction fuel generalizing s http with
  | zero => rfl
  | succ fuel ih =>
    simp only [send, sendOne]
    cases hr : (takeReply s.url http.table).1 with
    | broken kind message => simp
    | response r =>
      cases hs : redirected? s r with
      | none => simp [hs]
      | some s' =>
        have h := @ih s' { http with table := (takeReply s.url http.table).2, sent := http.sent ++ [s] }
        simpa [hs] using h

/-! ## Tries -/

def delay (backoff : Float) (attempt : Nat) : Float := backoff * Decimal.ofQuotient false (2 ^ attempt) 1

theorem pauseAfter_eq (backoff : Float) (attempt : Nat) :
    pauseAfter backoff attempt =
      if attempt < 1024 then .ok (delay backoff attempt) else .error .integerTooLargeForFloat := by
  have h := Decimal.ofInt?_two_pow attempt
  by_cases ha : attempt < 1024
  · rw [if_pos ha] at h ⊢
    simp only [pauseAfter, Number.toFloat, Nat.pow_eq, h]
    rfl
  · rw [if_neg ha] at h ⊢
    simp only [pauseAfter, Number.toFloat, Nat.pow_eq, h]
    rfl

/-- The transport after a number of exchanges with the pauses between and after them. -/
def paused (backoff : Float) (s : Sent) (http : Http) (exchanges pauses : Nat) : Http :=
  { after s http exchanges with pauses := http.pauses ++ (List.range pauses).map (delay backoff) }

theorem exchange_paused (backoff : Float) (n k : Nat) :
    exchange s (paused backoff s http n k) = (outcome s http n, paused backoff s http (n + 1) k) := by
  simp only [paused, exchange, send_pauses, outcome, after]

theorem paused_zero (backoff : Float) : paused backoff s http 0 0 = http := by
  simp [paused, after]

theorem paused_sent (backoff : Float) (n k : Nat) : (paused backoff s http n k).sent = (after s http n).sent := rfl

theorem paused_succ (backoff : Float) (n k : Nat) :
    { paused backoff s http n k with pauses := (paused backoff s http n k).pauses ++ [delay backoff k] } =
      paused backoff s http n (k + 1) := by
  simp [paused, List.range_succ]

variable {left attempt k n : Nat}

theorem tryRequest_final (h : left = 0 ∨ ¬ Passing settings.mode (outcome s http n)) :
    tryRequest settings raw url s left attempt (paused settings.backoff s http n k) =
      (conclude settings raw url (outcome s http n), paused settings.backoff s http (n + 1) k) := by
  cases left with
  | zero => simp only [tryRequest, exchange_paused]
  | succ left =>
    have hr : retryable (reportsStatus settings.mode) (outcome s http n) = false := by
      rw [← Bool.not_eq_true, retryable_iff]
      simpa using h
    simp [tryRequest, exchange_paused, hr]

theorem tryRequest_passing (raw : Bool) (url : String) (left attempt : Nat)
    (h : Passing settings.mode (outcome s http n)) :
    tryRequest settings raw url s (left + 1) attempt (paused settings.backoff s http n attempt) =
      if attempt < 1024 then
        tryRequest settings raw url s left (attempt + 1) (paused settings.backoff s http (n + 1) (attempt + 1))
      else (.error .integerTooLargeForFloat, paused settings.backoff s http (n + 1) attempt) := by
  have hr := retryable_iff.2 h
  rw [tryRequest]
  simp only [exchange_paused, hr, if_true, pauseAfter_eq]
  by_cases ha : attempt < 1024 <;> simp only [ha, if_true, if_false, paused_succ]

theorem tryRequest_passes (hn : n ≤ 1024) (h : ∀ i < n, Passing settings.mode (outcome s http i)) :
    tryRequest settings raw url s (left + n) 0 http =
      tryRequest settings raw url s left n (paused settings.backoff s http n n) := by
  induction n generalizing left with
  | zero => rw [paused_zero, Nat.add_zero]
  | succ n ih =>
    have hlast := tryRequest_passing raw url left n (h n (by omega))
    rw [if_pos (by omega)] at hlast
    rw [← hlast, ← ih (by omega) (fun i hi => h i (by omega)), Nat.add_assoc, Nat.add_comm 1]

theorem tryRequest_overflows (hn : n = 1024) (h : ∀ i ≤ n, Passing settings.mode (outcome s http i)) :
    tryRequest settings raw url s (left + 1 + n) 0 http =
      (.error .integerTooLargeForFloat, paused settings.backoff s http (n + 1) n) := by
  rw [tryRequest_passes hn.le (fun i hi => h i hi.le), tryRequest_passing raw url left n (h n le_rfl), if_neg (by omega)]

/-! ## Canned outcomes -/

/-- A reply that sends a request nowhere else. -/
def Lands (s : Sent) : Reply → Prop
  | .broken _ _ => True
  | .response r => redirected? s r = none

theorem send_lands (fuel : Nat) (h : Lands s (takeReply s.url http.table).1) :
    send (fuel + 1) s http = ((takeReply s.url http.table).1,
      { http with table := (takeReply s.url http.table).2, sent := http.sent ++ [s] }) := by
  simp only [send, sendOne]
  cases hr : (takeReply s.url http.table).1 with
  | broken kind message => rfl
  | response r =>
    rw [hr] at h
    simp only [show redirected? s r = none from h]

theorem exchange_lands (h : Lands s (takeReply s.url http.table).1) :
    exchange s http = ((takeReply s.url http.table).1,
      { http with table := (takeReply s.url http.table).2, sent := http.sent ++ [s] }) := send_lands 20 h

def inStore (replies : List Reply) (n : Nat) : List Reply := replies.drop (min n (replies.length - 1))

variable {replies : List Reply}

theorem takeReply_inStore {table : Table String (List Reply)} (hne : replies ≠ [])
    (h : table.get? url = some (inStore replies n)) :
    some (takeReply url table).1 = replies[min n (replies.length - 1)]? ∧
      (takeReply url table).2.get? url = some (inStore replies (n + 1)) := by
  have hpos : 0 < replies.length := List.length_pos_iff.2 hne
  rcases Nat.lt_or_ge n (replies.length - 1) with hn | hn
  · have hstore : inStore replies n = replies[n] :: replies[n + 1] :: replies.drop (n + 2) := by
      rw [inStore, Nat.min_eq_left hn.le, List.drop_eq_getElem_cons (by omega), List.drop_eq_getElem_cons (by omega)]
    have hnext : inStore replies (n + 1) = replies[n + 1] :: replies.drop (n + 2) := by
      rw [inStore, Nat.min_eq_left (by omega), List.drop_eq_getElem_cons (by omega)]
    rw [hstore] at h
    rw [Nat.min_eq_left hn.le, List.getElem?_eq_getElem (by omega), hnext]
    simp only [takeReply, h]
    exact ⟨trivial, Table.get?_put_self _ _ _⟩
  · have hstore : ∀ m, replies.length - 1 ≤ m → inStore replies m = [replies[replies.length - 1]] := by
      intro m hm
      rw [inStore, Nat.min_eq_right hm, List.drop_eq_getElem_cons (by omega), List.drop_eq_nil_of_le (by omega)]
    rw [hstore n hn] at h
    rw [Nat.min_eq_right hn, List.getElem?_eq_getElem (by omega), hstore (n + 1) (by omega)]
    simp only [takeReply, h]
    exact ⟨trivial, trivial⟩

/-- The outcomes of canned replies that land are these replies, and an exchange sends one request. -/
theorem after_canned (hne : replies ≠ []) (hstore : http.table.get? s.url = some replies)
    (hland : ∀ reply ∈ replies, Lands s reply) (n : Nat) :
    (after s http n).table.get? s.url = some (inStore replies n) ∧
      (after s http n).sent = http.sent ++ List.replicate n s := by
  induction n with
  | zero => simpa [after, inStore] using hstore
  | succ n ih =>
    obtain ⟨hfirst, hrest⟩ := takeReply_inStore hne ih.1
    have hx := exchange_lands (hland _ (List.mem_of_getElem? hfirst.symm))
    rw [after, hx]
    exact ⟨hrest, by rw [ih.2, List.append_assoc, List.replicate_succ']⟩

theorem outcome_canned (hne : replies ≠ []) (hstore : http.table.get? s.url = some replies)
    (hland : ∀ reply ∈ replies, Lands s reply) (n : Nat) :
    some (outcome s http n) = replies[min n (replies.length - 1)]? := by
  obtain ⟨hfirst, -⟩ := takeReply_inStore hne (after_canned hne hstore hland n).1
  have hx := exchange_lands (hland _ (List.mem_of_getElem? hfirst.symm))
  rw [outcome, hx]
  exact hfirst

/-! ## Requests -/

/-- The retries that a request makes: as many as it is allowed, or those in front of the first outcome
that does not pass. -/
def Retries (settings : Settings) (s : Sent) (http : Http) : Set Nat :=
  {n | n = settings.retries ∨ ¬ Passing settings.mode (outcome s http n)}

theorem exists_retries (settings : Settings) (s : Sent) (http : Http) : ∃ n, IsLeast (Retries settings s http) n := by
  classical
  have hex : ∃ n, n ∈ Retries settings s http := ⟨settings.retries, Or.inl rfl⟩
  exact ⟨Nat.find hex, Nat.find_spec hex, fun m hm => Nat.find_min' hex hm⟩

theorem tryRequest_retries (h : IsLeast (Retries settings s http) n) :
    tryRequest settings raw url s settings.retries 0 http =
      if n ≤ 1024 then (conclude settings raw url (outcome s http n), paused settings.backoff s http (n + 1) n)
      else (.error .integerTooLargeForFloat, paused settings.backoff s http 1025 1024) := by
  have hpass : ∀ i < n, Passing settings.mode (outcome s http i) := by
    intro i hi
    by_contra hc
    exact absurd (h.2 (Or.inr hc)) (by omega)
  have hle : n ≤ settings.retries := h.2 (Or.inl rfl)
  by_cases hn : n ≤ 1024
  · rw [if_pos hn]
    have hsplit : settings.retries = (settings.retries - n) + n := by omega
    rw [hsplit, tryRequest_passes hn hpass, tryRequest_final]
    exact h.1.imp (fun hr => by omega) id
  · rw [if_neg hn]
    have hsplit : settings.retries = ((settings.retries - 1025) + 1) + 1024 := by omega
    rw [hsplit, tryRequest_overflows rfl (fun i hi => hpass i (by omega))]

/-- A request makes as many retries as it is allowed, or as many as come before the first outcome that
does not pass, whichever is less, with one exchange more and one doubled pause for each, and its result
is that of the last outcome. What ends it otherwise is the pause after attempt 1024, whose power of two
is no double. Every finite sequence of outcomes that redirect to nowhere is had from some replies, and
then an exchange is one request sent. -/
theorem request_retries {config : Tree} (h : Settings.ofTree config = .ok settings) (method url : String)
    (body : Option (List UInt8)) (raw : Bool) (http : Http) :
    let s := settings.toSend method url body
    (∃ n, IsLeast (Retries settings s http) n ∧ request method url config body raw http =
      if n ≤ 1024 then (conclude settings raw url (outcome s http n), paused settings.backoff s http (n + 1) n)
      else (.error .integerTooLargeForFloat, paused settings.backoff s http 1025 1024)) ∧
    ∀ replies, replies ≠ [] → (∀ reply ∈ replies, Lands s reply) →
      let canned := { http with table := http.table.put s.url replies }
      (∀ n, some (outcome s canned n) = replies[min n (replies.length - 1)]?) ∧
        ∀ n, (after s canned n).sent = http.sent ++ List.replicate n s := by
  intro s
  have hrequest : request method url config body raw http =
      tryRequest settings raw url s settings.retries 0 http := by
    simp only [request, h, s]
  obtain ⟨n, hleast⟩ := exists_retries settings s http
  refine ⟨⟨n, hleast, hrequest.trans (tryRequest_retries hleast)⟩, fun replies hne hland => ?_⟩
  have hstore := Table.get?_put_self s.url replies http.table
  exact ⟨fun n => outcome_canned hne hstore hland n, fun n => (after_canned hne hstore hland n).2⟩

/-- An address that cannot be reached, and more retries than there are powers of two. -/
theorem request_retries_unreachable :
    let url := "https://api.test/down"
    let config : Tree := .dict [(.text "retries", .int 1100)]
    let http : Http := { table := [(url, [.broken "ConnectError" "refused"])] }
    ∃ settings, Settings.ofTree config = .ok settings ∧ settings.retries = 1100 ∧
      (request "GET" url config none false http).1 = .error .integerTooLargeForFloat ∧
      (request "GET" url config none false http).2.sent = List.replicate 1025 (settings.toSend "GET" url none) := by
  intro url config http
  let settings : Settings := { retries := 1100 }
  have hsettings : Settings.ofTree config = .ok settings := rfl
  have hurl : (settings.toSend "GET" url none).url = url := by decide +kernel
  obtain ⟨⟨n, hleast, hrequest⟩, hcanned⟩ := request_retries hsettings "GET" url none false http
  obtain ⟨houtcome, hsent⟩ := hcanned [.broken "ConnectError" "refused"] (by simp) (by simp [Lands])
  have htable : http.table.put (settings.toSend "GET" url none).url [.broken "ConnectError" "refused"] = http.table := by
    rw [hurl]; rfl
  rw [htable] at houtcome hsent
  have hpass : Passing settings.mode (outcome (settings.toSend "GET" url none) http n) := by
    have h := houtcome n
    simp only [List.length_singleton, Nat.sub_self, Nat.min_zero, List.getElem?_cons_zero, Option.some.injEq] at h
    rw [h]
    exact ⟨by decide, by decide⟩
  have hn : n = 1100 := hleast.1.resolve_right (fun h => h hpass)
  rw [hrequest, if_neg (by omega)]
  refine ⟨settings, hsettings, rfl, rfl, ?_⟩
  rw [paused_sent, hsent, List.nil_append]

end Http

end Conductor
