import ArubaCertRenewer.LiveMatch
import ArubaCertRenewer.Surroundings
import Mathlib.Algebra.Order.Ring.Rat

/- The clock of the live verification.

   Everything is read off the history of a run. Its deadline is the first reading of the
   clock and the window. An attempt to connect ends with the exception its calls raised
   last, where a close that raises replaces the one in flight, or with the `TimeoutError`
   of a clock that has reached the deadline. -/
namespace ArubaCertRenewer
open PyText Effects Effects.Py

/-! ## What a history shows -/

def reading : Event World → Option Rat
  | ⟨.monotonic, now⟩ => some now
  | _ => none

/-- The readings of the clock, newest first. -/
def readings (h : History World) : List Rat := h.filterMap reading

/-- The leaf certificate that an event read. -/
def peerDer : Event World → Option Bytes
  | ⟨.getPeerCert, .ok der⟩ => some der
  | _ => none

/-- An attempt to connect begins. -/
def begins : Event World → Bool
  | ⟨.openSocket _, .ok _⟩ => true
  | _ => false

/-- The exception that a call of an attempt raised. -/
def connectionError : Event World → Option Exc
  | ⟨.openSocket _, .error e⟩ | ⟨.setTimeout _, .error e⟩ | ⟨.connectSocket _, .error e⟩
  | ⟨.wrapSocket _, .error e⟩ | ⟨.getPeerCert, .error e⟩ | ⟨.closeTls _, .error e⟩
  | ⟨.closeSocket _, .error e⟩ => some (.std e)
  | _ => none

/-- The exception that the calls of the last attempt raised last. -/
def attemptError : History World → Option Exc
  | [] => none
  | ev :: h => if begins ev then none else (connectionError ev).or (attemptError h)

/-- The first reading and the window. -/
def DeadlineAt (times : LiveTimes) (h : History World) (deadline : Rat) : Prop :=
  ∃ start, (readings h).getLast? = some start ∧ deadline = start + times.verificationWindow

/-- The last reading of the clock, before the deadline. -/
structure ClockAt (times : LiveTimes) (h : History World) (now deadline : Rat) : Prop where
  latest : (readings h).head? = some now
  fixed : DeadlineAt times h deadline
  before : now < deadline

/-- What a call may be made from, and with which times. -/
def Timely (times : LiveTimes) (h : History World) : Call → Prop
  | .openSocket _ => (∃ now deadline, ClockAt times h now deadline) ∧
      ∀ e, attemptError h = some e → isRetryable e = true
  | .connectSocket _ | .wrapSocket _ => ∃ now deadline, ClockAt times h now deadline
  | .setTimeout seconds => ∃ now deadline, ClockAt times h now deadline ∧ 0 < seconds ∧
      seconds ≤ min times.socketTimeout (deadline - now)
  | .sleep seconds => ∃ now deadline, ClockAt times h now deadline ∧ seconds ≤ deadline - now
  | _ => True

/-- This is the last leaf certificate that was read, and the clock was before the deadline after
that. -/
def ReadInTime (der : Bytes) (deadline : Rat) (h : History World) : Prop :=
  ∃ later earlier now, h = later ++ ⟨.getPeerCert, .ok der⟩ :: earlier ∧
    (∀ ev ∈ later, peerDer ev = none) ∧ now ∈ readings later ∧ now < deadline

/-- The last leaf certificate that was read. -/
def LastRead (der : Bytes) (h : History World) : Prop :=
  ∃ later earlier, h = later ++ ⟨.getPeerCert, .ok der⟩ :: earlier ∧
    ∀ ev ∈ later, peerDer ev = none

variable {σ : Type} {s : σ} {h : History World} {times : LiveTimes} {deadline : Rat}

theorem readings_clock (now : Rat) (h : History World) :
    readings (⟨.monotonic, now⟩ :: h) = now :: readings h := rfl

theorem readings_quiet {ev : Event World} (hev : reading ev = none) (h : History World) :
    readings (ev :: h) = readings h :=
  List.filterMap_cons_none hev

/-- The deadline stands. -/
theorem DeadlineAt.cons (hd : DeadlineAt times h deadline) (ev : Event World) :
    DeadlineAt times (ev :: h) deadline := by
  obtain ⟨start, hstart, hsum⟩ := hd
  refine ⟨start, ?_, hsum⟩
  cases hev : reading ev with
  | none =>
    rw [readings_quiet hev]
    exact hstart
  | some now =>
    have hcons : readings (ev :: h) = now :: readings h := List.filterMap_cons_some hev
    rw [hcons, List.getLast?_cons, hstart]
    rfl

theorem DeadlineAt.clock (hd : DeadlineAt times h deadline) {now : Rat} (hnow : now < deadline) :
    ClockAt times (⟨.monotonic, now⟩ :: h) now deadline :=
  ⟨rfl, hd.cons _, hnow⟩

/-- Other calls leave the clock as it was read. -/
theorem ClockAt.cons {now : Rat} (hc : ClockAt times h now deadline) {ev : Event World}
    (hev : reading ev = none) : ClockAt times (ev :: h) now deadline := by
  refine ⟨?_, hc.fixed.cons ev, hc.before⟩
  rw [readings_quiet hev]
  exact hc.latest

theorem LastRead.cons {der : Bytes} (hl : LastRead der h) {ev : Event World}
    (hev : peerDer ev = none) : LastRead der (ev :: h) := by
  obtain ⟨later, earlier, rfl, hlater⟩ := hl
  refine ⟨ev :: later, earlier, rfl, fun e he => ?_⟩
  rw [List.mem_cons] at he
  obtain rfl | he := he
  · exact hev
  · exact hlater e he

theorem LastRead.inTime {der : Bytes} (hl : LastRead der h) {now : Rat} (hnow : now < deadline) :
    ReadInTime der deadline (⟨.monotonic, now⟩ :: h) := by
  obtain ⟨later, earlier, rfl, hlater⟩ := hl
  refine ⟨⟨.monotonic, now⟩ :: later, earlier, now, rfl, fun e he => ?_, ?_, hnow⟩
  · rw [List.mem_cons] at he
    obtain rfl | he := he
    · rfl
    · exact hlater e he
  · rw [readings_clock]
    exact List.mem_cons_self

/-! ## One attempt -/

/-- What one attempt leaves behind: the leaf it read, or the exception it ends with. -/
def AttemptEnded (r : Except Exc Bytes) (h : History World) : Prop :=
  match r with
  | .ok der => attemptError h = none ∧ LastRead der h
  | .error e => attemptError h = some e ∨ attemptError h = none ∧ isRetryable e = true

theorem isRetryable_timeoutError : isRetryable timeoutError = true := by decide

theorem attemptError_quiet {ev : Event World} (hb : begins ev = false)
    (he : connectionError ev = none) (h : History World) :
    attemptError (ev :: h) = attemptError h := by
  rw [attemptError, hb, he]
  rfl

theorem attemptError_raised {ev : Event World} (hb : begins ev = false) {e : Exc}
    (he : connectionError ev = some e) (h : History World) :
    attemptError (ev :: h) = some e := by
  rw [attemptError, hb, he]
  rfl

/-- A call that closes: its exception replaces the one in flight. -/
theorem AttemptEnded.close {r : Except Exc Bytes} (hr : AttemptEnded r h) {c : Call}
    {view : Call.Ans c → Except StdError Unit} {answer : Call.Ans c}
    (hb : begins ⟨c, answer⟩ = false) (hp : peerDer ⟨c, answer⟩ = none)
    (he : connectionError ⟨c, answer⟩ = inFlight (liftStd (view answer))) :
    AttemptEnded (after (liftStd (view answer)) r) (⟨c, answer⟩ :: h) := by
  cases hv : view answer with
  | error e =>
    rw [hv] at he
    exact .inl (attemptError_raised hb he h)
  | ok u =>
    rw [hv] at he
    have hsame := attemptError_quiet hb he h
    cases r with
    | ok der => exact ⟨hsame.trans hr.1, hr.2.cons hp⟩
    | error e =>
      obtain hraised | ⟨hnone, hretry⟩ := hr
      · exact .inl (hsame.trans hraised)
      · exact .inr ⟨hsame.trans hnone, hretry⟩

/-- `_live_https_timeout` reads the clock once. -/
theorem wpy_liveHttpsTimeout {socketTimeout : Rat} {Q : Except Exc Rat → σ → History World → Prop}
    (hlate : ∀ now, Q (.error timeoutError) s (⟨.monotonic, now⟩ :: h))
    (hearly : ∀ now seconds, now < deadline → (0 < socketTimeout → 0 < seconds) →
      seconds ≤ min socketTimeout (deadline - now) → Q (.ok seconds) s (⟨.monotonic, now⟩ :: h)) :
    wpy (Timely times) (liveHttpsTimeout deadline socketTimeout) Q s h := by
  unfold liveHttpsTimeout
  refine wpy_call.mpr ⟨trivial, fun (now : Rat) => ?_⟩
  refine wpy_bind_raiseIf (fun _ => hlate now) fun hnow => ?_
  have hpos : 0 < deadline - now := not_le.mp (of_decide_eq_false hnow)
  have hbefore : now < deadline := sub_pos.mp hpos
  show Q (.ok (if socketTimeout ≤ deadline - now then socketTimeout else deadline - now)) s _
  by_cases hle : socketTimeout ≤ deadline - now
  · rw [if_pos hle]
    exact hearly now socketTimeout hbefore id (le_min (le_refl _) hle)
  · rw [if_neg hle]
    have hlt : deadline - now ≤ socketTimeout := le_of_lt (not_le.mp hle)
    exact hearly now (deadline - now) hbefore (fun _ => hpos) (le_min hlt (le_refl _))

/-- No call of the attempt has raised so far. -/
structure Clear (times : LiveTimes) (deadline : Rat) (h : History World) : Prop where
  error : attemptError h = none
  fixed : DeadlineAt times h deadline

theorem Clear.cons (hclear : Clear times deadline h) {ev : Event World}
    (he : connectionError ev = none) : Clear times deadline (ev :: h) := by
  refine ⟨?_, hclear.fixed.cons ev⟩
  rw [attemptError, he, hclear.error]
  exact ite_self _

/-- What is left of a part of the attempt. -/
def Leaves (times : LiveTimes) (deadline : Rat) (s : σ) (r : Except Exc Bytes) (s' : σ)
    (h : History World) : Prop :=
  s' = s ∧ AttemptEnded r h ∧ DeadlineAt times h deadline

/-- A call of the attempt: it goes on, or ends with the exception. -/
theorem wpy_connectionCall {c : Call} {view : Call.Ans c → Except StdError Unit}
    {f : Unit → Act σ Bytes} (hc : Timely times h c) (hclear : Clear times deadline h)
    (hb : ∀ a, begins ⟨c, a⟩ = false)
    (he : ∀ a, connectionError ⟨c, a⟩ = inFlight (liftStd (view a)))
    (hok : ∀ a, Clear times deadline (⟨c, a⟩ :: h) →
      wpy (Timely times) (f ()) (Leaves times deadline s) s (⟨c, a⟩ :: h)) :
    wpy (Timely times) (ask c view >>= f) (Leaves times deadline s) s h := by
  refine wpy_bind_ask hc (fun a u hu => hok a (hclear.cons ?_)) fun a e hraised => ?_
  · rw [he a, hu]
    rfl
  · have hlast : attemptError (⟨c, a⟩ :: h) = some (.std e) := by
      refine attemptError_raised (hb a) ?_ h
      rw [he a, hraised]
      rfl
    exact ⟨rfl, .inl hlast, hclear.fixed.cons _⟩

/-- The time is read, and becomes the timeout of the socket. -/
theorem wpy_armSocket (hpositive : 0 < times.socketTimeout) {rest : Act σ Bytes}
    (hclear : Clear times deadline h)
    (hok : ∀ h' now, Clear times deadline h' → ClockAt times h' now deadline →
      wpy (Timely times) rest (Leaves times deadline s) s h') :
    wpy (Timely times) (do
      ask (.setTimeout (← liveHttpsTimeout deadline times.socketTimeout)) fun r => r
      rest) (Leaves times deadline s) s h := by
  refine wpy_bind.mpr (wpy_liveHttpsTimeout (fun now => ?_) fun now seconds hnow hpos hle => ?_)
  · have hstill : Clear times deadline (⟨.monotonic, now⟩ :: h) := hclear.cons rfl
    exact ⟨rfl, .inr ⟨hstill.error, isRetryable_timeoutError⟩, hstill.fixed⟩
  · have hclock : ClockAt times (⟨.monotonic, now⟩ :: h) now deadline := hclear.fixed.clock hnow
    refine wpy_connectionCall ⟨now, deadline, hclock, hpos hpositive, hle⟩ (hclear.cons rfl)
      (fun _ => rfl) (fun a => ?_) fun a hset => hok _ now hset (hclock.cons rfl)
    cases a <;> rfl

/-- A context of the attempt that is left. -/
theorem Leaves.close {r : Except Exc Bytes} {s' : σ} (hr : Leaves times deadline s r s' h) {c : Call}
    {view : Call.Ans c → Except StdError Unit} (hc : Timely times h c)
    (hb : ∀ a, begins ⟨c, a⟩ = false) (hp : ∀ a, peerDer ⟨c, a⟩ = none)
    (he : ∀ a, connectionError ⟨c, a⟩ = inFlight (liftStd (view a))) :
    wpy (Timely times) (ask c view) (fun u t h' => Leaves times deadline s (after u r) t h') s' h := by
  obtain ⟨rfl, hended, hfixed⟩ := hr
  exact wpy_ask.mpr ⟨hc, fun a => ⟨rfl, hended.close (hb a) (hp a) (he a), hfixed.cons _⟩⟩

/-- The leaf is read over the TLS socket. -/
theorem wpy_readPeer {host : Text} {now : Rat} (hclear : Clear times deadline h)
    (hclock : ClockAt times h now deadline) :
    wpy (Timely times) (within (ask (.wrapSocket host) fun r => r)
      (fun _ inFlight => ask (.closeTls inFlight) fun r => r) fun _ =>
        ask .getPeerCert fun r => r : Act σ Bytes) (Leaves times deadline s) s h := by
  refine wpy_within.mpr (wpy_ask.mpr ⟨⟨now, deadline, hclock⟩, fun wrapped => ?_⟩)
  cases wrapped with
  | error e => exact ⟨rfl, .inl rfl, hclear.fixed.cons _⟩
  | ok u =>
    rw [liftStd_ok, either_ok]
    refine wpy_ask.mpr ⟨trivial, fun peer => ?_⟩
    have hwrapped : Clear times deadline (⟨.wrapSocket host, .ok u⟩ :: h) := hclear.cons rfl
    have hread : Leaves times deadline s (liftStd peer) s
        (⟨.getPeerCert, peer⟩ :: ⟨.wrapSocket host, .ok u⟩ :: h) := by
      cases peer with
      | error e => exact ⟨rfl, .inl rfl, hwrapped.fixed.cons _⟩
      | ok der =>
        have hclear' : Clear times deadline
            (⟨.getPeerCert, .ok der⟩ :: ⟨.wrapSocket host, .ok u⟩ :: h) := hwrapped.cons rfl
        exact ⟨rfl, ⟨hclear'.error, [], _, rfl, fun ev hev => by cases hev⟩, hclear'.fixed⟩
    refine hread.close trivial (fun _ => rfl) (fun _ => rfl) fun closed => ?_
    cases closed <;> rfl

/-- An attempt that begins in time keeps its times, and ends as it is said to. -/
theorem wpy_readLeafFrom (hpositive : 0 < times.socketTimeout) {address : SocketAddress}
    {host : Text} (hstart : Timely times h (.openSocket address.family))
    (hd : DeadlineAt times h deadline) {Q : Except Exc Bytes → σ → History World → Prop}
    (hended : ∀ r h', AttemptEnded r h' → DeadlineAt times h' deadline →
      (∀ der, r = .ok der → ReadInTime der deadline h') → Q r s h') :
    wpy (Timely times) (readLeafFrom address host deadline times.socketTimeout) Q s h := by
  unfold readLeafFrom
  -- the attempt up to the end of its sockets
  have hsockets : wpy (Timely times)
      (within (ask (.openSocket address.family) fun r => r)
        (fun _ inFlight => ask (.closeSocket inFlight) fun r => r) fun _ => do
          ask (.setTimeout (← liveHttpsTimeout deadline times.socketTimeout)) fun r => r
          ask (.connectSocket address) fun r => r
          ask (.setTimeout (← liveHttpsTimeout deadline times.socketTimeout)) fun r => r
          within (ask (.wrapSocket host) fun r => r)
            (fun _ inFlight => ask (.closeTls inFlight) fun r => r) fun _ =>
              ask .getPeerCert fun r => r : Act σ Bytes) (Leaves times deadline s) s h := by
    refine wpy_within.mpr (wpy_ask.mpr ⟨hstart, fun opened => ?_⟩)
    cases opened with
    | error e => exact ⟨rfl, .inl rfl, hd.cons _⟩
    | ok u =>
      have hopened : Clear times deadline (⟨.openSocket address.family, .ok u⟩ :: h) :=
        ⟨rfl, hd.cons _⟩
      rw [liftStd_ok, either_ok]
      refine wpy_post (wpy_armSocket hpositive hopened fun h₁ now hclear hclock => ?_)
        fun r s' t hleft => ?_
      · refine wpy_connectionCall ⟨now, deadline, hclock⟩ hclear (fun _ => rfl) (fun a => ?_)
          fun a hconnected => ?_
        · cases a <;> rfl
        · exact wpy_armSocket hpositive hconnected fun h₂ now' hclear' hclock' =>
            wpy_readPeer hclear' hclock'
      · refine hleft.close trivial (fun _ => rfl) (fun _ => rfl) fun closed => ?_
        cases closed <;> rfl
  refine wpy_seq hsockets (fun der s' t hread => ?_) fun e s' t hraised => ?_
  · obtain ⟨rfl, hread, hfixed⟩ := hread
    refine wpy_bind.mpr (wpy_liveHttpsTimeout (fun now => ?_) fun now seconds hnow _ _ => ?_)
    · exact hended _ _ (.inr ⟨hread.1, isRetryable_timeoutError⟩) (hfixed.cons _)
        fun der he => by cases he
    · refine hended _ _ ⟨hread.1, hread.2.cons rfl⟩ (hfixed.cons _) fun der' he => ?_
      cases he
      exact hread.2.inTime hnow
  · obtain ⟨rfl, hraised, hfixed⟩ := hraised
    exact hended _ _ hraised hfixed fun der he => by cases he

/-! ## The addresses -/

/-- The last attempt ended with nothing worse than an exception that may pass. -/
def MayRetry (h : History World) : Prop := ∀ e, attemptError h = some e → isRetryable e = true

theorem MayRetry.clock (hm : MayRetry h) (now : Rat) : MayRetry (⟨.monotonic, now⟩ :: h) := by
  intro e he
  rw [attemptError_quiet rfl rfl] at he
  exact hm e he

theorem AttemptEnded.mayRetry {e : Exc} (hended : AttemptEnded (.error e) h)
    (hretry : isRetryable e = true) : MayRetry h := by
  intro e' he'
  obtain hraised | ⟨hnone, -⟩ := hended
  · rw [hraised] at he'
    cases he'
    exact hretry
  · rw [hnone] at he'
    cases he'

/-- How a reading over the addresses ends: with a leaf, or with an exception that may pass only if
the last attempt's did. -/
def LeafEnded (deadline : Rat) (r : Except Exc Bytes) (h : History World) : Prop :=
  either (fun der => attemptError h = none ∧ ReadInTime der deadline h)
    (fun e => isRetryable e = true → MayRetry h) r

/-- Over the addresses: another attempt is made in time, and after an exception that may pass. -/
theorem wpy_readLiveHttpsLeaf (hpositive : 0 < times.socketTimeout) {host : Text}
    (addresses : List SocketAddress) :
    ∀ (lastError : Exc) (h : History World) (now : Rat), ClockAt times h now deadline → MayRetry h →
      wpy (Timely times) (readLiveHttpsLeaf host deadline times.socketTimeout lastError addresses)
        (fun r s' h' => s' = s ∧ DeadlineAt times h' deadline ∧ LeafEnded deadline r h') s h := by
  induction addresses with
  | nil =>
    intro lastError h now hclock hmay
    exact ⟨rfl, hclock.fixed, fun _ => hmay⟩
  | cons address addresses ih =>
    intro lastError h now hclock hmay
    unfold readLiveHttpsLeaf
    refine wpy_bind.mpr (wpy_attempt.mpr ?_)
    refine wpy_readLeafFrom hpositive ⟨⟨now, deadline, hclock⟩, hmay⟩ hclock.fixed
      fun r h' hended hfixed hread => ?_
    rw [either_ok]
    cases r with
    | ok der => exact ⟨rfl, hfixed, hended.1, hread der rfl⟩
    | error e =>
      refine wpy_bind_raiseIf (fun hfatal => ⟨rfl, hfixed, fun hretry => ?_⟩) fun hretry => ?_
      · rw [hretry] at hfatal
        cases hfatal
      have hretry : isRetryable e = true := by simpa using hretry
      have hmay' : MayRetry h' := hended.mayRetry hretry
      -- the next address, unless the deadline has passed
      refine wpy_call.mpr ⟨trivial, fun (now' : Rat) => ?_⟩
      refine wpy_bind_raiseIf (fun _ => ⟨rfl, hfixed.cons _, fun _ => hmay'.clock now'⟩) fun hnow => ?_
      have hbefore : now' < deadline := sub_pos.mp (not_le.mp (of_decide_eq_false hnow))
      exact ih e _ now' (hfixed.clock hbefore) (hmay'.clock now')

/-! ## The loop -/

/-- An exception that may not pass ends the verification with an error. -/
theorem judgeLeaf_ok {expectedDer : Bytes} {e : Exc} {judged : Option Text}
    (hj : judgeLeaf expectedDer (.error e) = .ok judged) : isRetryable e = true := by
  simp only [judgeLeaf] at hj
  split at hj
  · cases hj
  split at hj
  · cases hj
  split at hj
  · split at hj
    · next hretry => exact hretry
    · cases hj
  · cases hj

/-- What a verification that succeeds leaves behind. -/
def Verified (expectedDer : Bytes) (deadline : Rat) (h : History World) : Prop :=
  attemptError h = none ∧ ReadInTime expectedDer deadline h

theorem Verified.clock {der : Bytes} (hv : Verified der deadline h) (now : Rat) :
    Verified der deadline (⟨.monotonic, now⟩ :: h) := by
  obtain ⟨hnone, later, earlier, seen, rfl, hlater, hseen, hbefore⟩ := hv
  refine ⟨(attemptError_quiet rfl rfl _).trans hnone, ⟨.monotonic, now⟩ :: later, earlier, seen, rfl,
    fun ev hev => ?_, ?_, hbefore⟩
  · rw [List.mem_cons] at hev
    obtain rfl | hev := hev
    · rfl
    · exact hlater ev hev
  · rw [readings_clock]
    exact List.mem_cons_of_mem _ hseen

theorem wpy_awaitLiveCertificate (hpositive : 0 < times.socketTimeout) {host : Text}
    {expectedDer : Bytes} {addresses : List SocketAddress} (n : Nat) :
    ∀ (lastError : Text) (h : History World), DeadlineAt times h deadline → MayRetry h →
      wpy (Timely times)
        (awaitLiveCertificate times host deadline expectedDer addresses n lastError)
        (fun r _ h' => DeadlineAt times h' deadline ∧ (r = .ok () → Verified expectedDer deadline h'))
        s h := by
  induction n with
  | zero =>
    intro lastError h hd hmay
    trivial
  | succ n ih =>
    intro lastError h hd hmay
    unfold awaitLiveCertificate
    refine wpy_call.mpr ⟨trivial, fun (now : Rat) => ?_⟩
    refine wpy_bind_raiseIf (fun _ => ⟨hd.cons _, fun hr => by cases hr⟩) fun hnow => ?_
    have hbefore : now < deadline := sub_pos.mp (not_le.mp (of_decide_eq_false hnow))
    refine wpy_bind.mpr (wpy_attempt.mpr ?_)
    refine wpy_post (wpy_readLiveHttpsLeaf hpositive addresses timeoutError _ now (hd.clock hbefore)
      (hmay.clock now)) fun leaf s' t hleaf => ?_
    obtain ⟨rfl, hfixed, hended⟩ := hleaf
    rw [either_ok]
    refine wpy_bind_result (fun judged hj => ?_) fun e _ => ⟨hfixed, fun hr => by cases hr⟩
    cases judged with
    | none =>
      obtain rfl := judgeLeaf_match hj
      refine wpy_call.mpr ⟨trivial, fun (now' : Rat) => ?_⟩
      refine wpy_raiseIf.mpr ⟨fun _ => ⟨hfixed.cons _, fun hr => by cases hr⟩, fun _ => ?_⟩
      exact ⟨hfixed.cons _, fun _ => Verified.clock hended now'⟩
    | some lastError' =>
      have hmay' : MayRetry (t ++ ⟨.monotonic, now⟩ :: h) := by
        cases leaf with
        | ok der =>
          intro e he
          rw [hended.1] at he
          cases he
        | error e => exact hended (judgeLeaf_ok hj)
      refine wpy_call.mpr ⟨trivial, fun (now' : Rat) => ?_⟩
      refine wpy_bind_raiseIf (fun _ => ⟨hfixed.cons _, fun hr => by cases hr⟩) fun hnow' => ?_
      have hbefore' : now' < deadline := sub_pos.mp (not_le.mp (of_decide_eq_false hnow'))
      have hclock := hfixed.clock hbefore'
      refine wpy_call.mpr ⟨⟨now', deadline, hclock, ?_⟩, fun _ => ?_⟩
      · split
        · next hle => exact hle
        · exact le_refl _
      · refine ih lastError' _ (hclock.fixed.cons _) fun e he => ?_
        rw [attemptError_quiet rfl rfl] at he
        exact hmay'.clock now' e he

/-! ## The whole verification -/

/-- Nothing has been read or tried so far. -/
structure Untouched (h : History World) : Prop where
  readings : readings h = []
  error : attemptError h = none

theorem Untouched.cons (hu : Untouched h) {ev : Event World} (hr : reading ev = none)
    (hb : begins ev = false) (he : connectionError ev = none) : Untouched (ev :: h) :=
  ⟨(readings_quiet hr h).trans hu.readings, (attemptError_quiet hb he h).trans hu.error⟩

theorem wpy_verificationContext {snapshot : VerificationCaSnapshot} (hu : Untouched h) :
    wpy (Timely times) (verificationContext snapshot : Act σ TlsContext)
      (fun _ _ h' => Untouched h') s h := by
  unfold verificationContext
  refine wpy_handle.mpr ?_
  refine wpy_bind_result (fun cadata _ => ?_) fun e _ => hu
  unfold createClientTlsContext
  refine wpy_bind_ask trivial (fun r context _ => ?_) fun r e _ => ?_
  · have hu' : Untouched (⟨.createTlsContext cadata, r⟩ :: h) := hu.cons rfl rfl rfl
    exact wpy_bind_raiseIf (fun _ => hu') fun _ => hu'
  · exact hu.cons rfl rfl rfl

/-- The names are looked up within the deadline, and nothing is tried. -/
theorem wpy_resolveLiveHttpsAddresses {host : Text} (hd : DeadlineAt times h deadline)
    (hmay : MayRetry h) :
    wpy (Timely times) (resolveLiveHttpsAddresses host deadline : Act σ (List SocketAddress))
      (fun _ _ h' => DeadlineAt times h' deadline ∧ MayRetry h') s h := by
  have hquiet : ∀ (ev : Event World) {h : History World}, begins ev = false →
      connectionError ev = none → DeadlineAt times h deadline ∧ MayRetry h →
      DeadlineAt times (ev :: h) deadline ∧ MayRetry (ev :: h) := by
    intro ev h hb he hkept
    refine ⟨hkept.1.cons ev, fun e hraised => ?_⟩
    rw [attemptError_quiet hb he] at hraised
    exact hkept.2 e hraised
  unfold resolveLiveHttpsAddresses
  cases IpAddress.ofText host with
  | some address => cases address <;> exact ⟨hd, hmay⟩
  | none =>
    refine wpy_call.mpr ⟨trivial, fun now => ?_⟩
    have hfirst := hquiet ⟨.monotonic, now⟩ rfl rfl ⟨hd, hmay⟩
    refine wpy_bind_raiseIf (fun _ => hfirst) fun _ => ?_
    refine wpy_bind_ask trivial (fun r addresses _ => ?_) fun r e _ => hquiet _ rfl rfl hfirst
    have hresolved := hquiet ⟨.resolveHostname host deadline, r⟩ rfl rfl hfirst
    refine wpy_bind_raiseIf (fun _ => hresolved) fun _ => ?_
    refine wpy_call.mpr ⟨trivial, fun now' => ?_⟩
    have hlast := hquiet ⟨.monotonic, now'⟩ rfl rfl hresolved
    exact wpy_bind_raiseIf (fun _ => hlast) fun _ => hlast

theorem wpy_verifyLiveHttpsCertificate_timely {P : Platform} {switch : Switch}
    {snapshot : VerificationCaSnapshot} {expected : Certificate} :
    wpy (Timely times) (verifyLiveHttpsCertificateWithin times P switch snapshot expected)
      (fun r _ h' => r = .ok () → ∃ deadline, DeadlineAt times h' deadline ∧
        Verified expected.der deadline h') s [] := by
  unfold verifyLiveHttpsCertificateWithin
  refine wpy_bind_raiseIf (fun _ hr => by cases hr) fun _ => ?_
  refine wpy_bind_raiseIf (fun _ hr => by cases hr) fun _ => ?_
  refine wpy_bind_raiseIf (fun _ hr => by cases hr) fun hsocket => ?_
  have hpositive : 0 < times.socketTimeout := not_le.mp (of_decide_eq_false hsocket)
  refine wpy_bind_result (fun identities _ => ?_) fun e _ hr => by cases hr
  refine wpy_seq (wpy_verificationContext ⟨rfl, rfl⟩) (fun context s₁ t hu => ?_)
    fun e _ _ _ hr => by cases hr
  refine wpy_bind_raiseIf (fun _ hr => by cases hr) fun _ => ?_
  refine wpy_call.mpr ⟨trivial, fun (start : Rat) => ?_⟩
  have hd : DeadlineAt times (⟨.monotonic, start⟩ :: (t ++ [])) (start + times.verificationWindow) := by
    refine ⟨start, ?_, rfl⟩
    rw [readings_clock, hu.readings]
    rfl
  have hmay : MayRetry (⟨.monotonic, start⟩ :: (t ++ [])) := by
    intro e he
    rw [attemptError_quiet rfl rfl, hu.error] at he
    cases he
  refine wpy_seq (wpy_resolveLiveHttpsAddresses hd hmay) (fun addresses s₂ t₂ hkept => ?_)
    fun e _ _ _ hr => by cases hr
  refine wpy_post (wpy_awaitLiveCertificate hpositive P.liveAttempts notReady _ hkept.1 hkept.2)
    fun r s₃ t₃ hdone hr => ?_
  exact ⟨_, hdone.1, hdone.2 hr⟩

/-- No reading of a clock that never goes back has reached the deadline. -/
theorem ClockAt.all_before {now : Rat} (hc : ClockAt times h now deadline)
    (hclock : (readings h).Pairwise (· ≥ ·)) : ∀ seen ∈ readings h, seen < deadline := by
  have hlatest := hc.latest
  intro seen hseen
  cases hr : readings h with
  | nil =>
    rw [hr] at hseen
    cases hseen
  | cons first rest =>
    rw [hr, List.head?_cons, Option.some.injEq] at hlatest
    rw [hr] at hseen hclock
    rw [List.mem_cons] at hseen
    obtain rfl | hseen := hseen
    · exact hlatest ▸ hc.before
    · have hle : seen ≤ first := List.rel_of_pairwise_cons hclock hseen
      exact lt_of_le_of_lt (hlatest ▸ hle) hc.before

/-- Whether the call begins an attempt to connect or goes on with one. -/
def Connects : Call → Prop
  | .openSocket _ | .connectSocket _ | .wrapSocket _ => True
  | _ => False

theorem Timely.clock {c : Call} (ht : Timely times h c) (hc : Connects c) :
    ∃ now deadline, ClockAt times h now deadline := by
  cases c <;> first | exact ht | exact ht.1 | exact absurd hc id

/-- The readings of the past of a clock that never goes back. -/
theorem readings_earlier {later earlier : History World} {ev : Event World}
    (hclock : (readings (later ++ ev :: earlier)).Pairwise (· ≥ ·)) :
    (readings earlier).Pairwise (· ≥ ·) := by
  refine hclock.sublist ?_
  exact List.Sublist.filterMap reading
    ((List.sublist_cons_self ev earlier).trans (List.sublist_append_right later _))

/-- Over every clock and every sequence of outcomes: each call is made in time and with times within
its bounds, each attempt only after an exception that may pass, and none once a clock that never
goes back has been read at the deadline. A success has read the expected certificate last, and then
the clock before the deadline; an attempt that ends with any other exception is the last one, and
the verification fails. -/
theorem live_https_in_time {times : LiveTimes} {P : Platform} {switch : Switch}
    {snapshot : VerificationCaSnapshot} {expected : Certificate} {s : σ} {h : History World}
    (hreach : Reaches
      ((verifyLiveHttpsCertificateWithin times P switch snapshot expected).prog s) [] h) :
    (∀ later ev earlier, h = later ++ ev :: earlier → Timely times earlier ev.call ∧
      ((readings h).Pairwise (· ≥ ·) → Connects ev.call →
        ∃ deadline, DeadlineAt times earlier deadline ∧
          ∀ now ∈ readings earlier, now < deadline)) ∧
    ∀ r s', Ends (verifyLiveHttpsCertificateWithin times P switch snapshot expected) s [] r s' h →
      (r = .ok () → ∃ deadline, DeadlineAt times h deadline ∧
        ReadInTime expected.der deadline h) ∧
      ∀ e, attemptError h = some e → isRetryable e = false → ∃ raised, r = .error raised := by
  have hspec : wpy (Timely times)
      (verifyLiveHttpsCertificateWithin times P switch snapshot expected)
      (fun r _ h' => r = .ok () → ∃ deadline, DeadlineAt times h' deadline ∧
        Verified expected.der deadline h') s [] := wpy_verifyLiveHttpsCertificate_timely
  refine ⟨fun later ev earlier hsplit => ?_, fun r s' hends => ⟨fun hr => ?_, ?_⟩⟩
  · have htimely : Timely times earlier ev.call :=
      wp_reaches hspec hreach hsplit (Nat.zero_le _)
    refine ⟨htimely, fun hclock hconnects => ?_⟩
    rw [hsplit] at hclock
    obtain ⟨now, deadline, hnow⟩ := htimely.clock hconnects
    exact ⟨deadline, hnow.fixed, hnow.all_before (readings_earlier hclock)⟩
  · obtain ⟨deadline, hd, hverified⟩ := wpy_ends hspec hends hr
    exact ⟨deadline, hd, hverified.2⟩
  · intro e he hfatal
    cases r with
    | error raised => exact ⟨raised, rfl⟩
    | ok u =>
      obtain ⟨deadline, hd, hverified⟩ := wpy_ends hspec hends rfl
      rw [hverified.1] at he
      cases he

set_option maxRecDepth 20000 in
theorem live_https_in_time_site : ∃ h s',
    Ends (verifyLiveHttpsCertificateWithin liveTimes (sitePlatform []) siteSwitch siteCa
      siteCertificate : Act Unit Unit) () [] (.ok ()) s' h ∧
    ∃ deadline, DeadlineAt liveTimes h deadline ∧ ReadInTime siteCertificate.der deadline h := by
  obtain ⟨s', hends⟩ : ∃ s', Ends (verifyLiveHttpsCertificateWithin liveTimes (sitePlatform [])
      siteSwitch siteCa siteCertificate : Act Unit Unit) () [] (.ok ()) s' _ :=
    play_ends_result site.calm (by decide +kernel)
  have hreach := Runs.reaches hends
  exact ⟨_, s', hends, ((live_https_in_time hreach).2 _ s' hends).1 rfl⟩

end ArubaCertRenewer
