import ArubaCertRenewer.BinaryPackets

/- What the packet guard lets through.

   The size of a body request gives the length field back, in each mode, so the
   guard refuses exactly the packets whose length is out of bounds. A message
   leaves the packetizer disarmed however it ends, and a limit that was hit stays
   hit: after it nothing is read. -/
namespace ArubaCertRenewer
open PyText Effects Effects.Py

section calls
variable {G : History Wire → WireCall → Prop} {p : BoundedPacketizer} {h : History Wire}

theorem wpy_socketReadAll {n : Int} {checkRekey : Bool}
    {Q : Except PacketError Bytes → BoundedPacketizer → History Wire → Prop} :
    wpy G (socketReadAll n checkRekey) Q p h ↔ G h (.read n checkRekey) ∧
      ∀ answer : Except PacketError Bytes, Q answer p (⟨.read n checkRekey, answer⟩ :: h) := by
  rw [socketReadAll, wpy_bind]
  exact Iff.rfl

theorem wpy_binaryLimit {α : Type}
    {Q : Except PacketError α → BoundedPacketizer → History Wire → Prop} :
    wpy G binaryLimit Q p h ↔ G h .close ∧ ∀ answer : Except PacketError Unit,
      Q (.error .limit) { p with binaryPacketLimitExceeded := true } (⟨.close, answer⟩ :: h) := by
  rw [binaryLimit, wpy_bind_modify, wpy_bind]
  exact Iff.rfl

/-- A check that refuses. -/
theorem wpy_bind_limit {α : Type} {b : Bool} {f : Unit → Packets α} (hb : b = true)
    {Q : Except PacketError α → BoundedPacketizer → History Wire → Prop} :
    wpy G (limitWhen b >>= f) Q p h ↔ wpy G (binaryLimit (α := α)) Q p h := by
  rw [wpy_bind, hb, limitWhen, if_pos rfl, wpy_binaryLimit, wpy_binaryLimit]
  exact Iff.rfl

/-- A check that passes. -/
theorem wpy_bind_pass {α : Type} {b : Bool} {f : Unit → Packets α} (hb : b = false)
    {Q : Except PacketError α → BoundedPacketizer → History Wire → Prop} :
    wpy G (limitWhen b >>= f) Q p h ↔ wpy G (f ()) Q p h := by
  rw [wpy_bind, hb]
  exact Iff.rfl

end calls

/-! ## Sizes -/

/-- The modes that are admitted. -/
structure InboundCipher.Admitted (i : InboundCipher) : Prop where
  block : i.block = 8 ∨ i.block = 16
  mode : (i.etm = false ∧ i.aead = false ∧ 0 ≤ i.mac ∧ i.mac ≤ 64) ∨
    (i.etm = true ∧ i.aead = false ∧ 1 ≤ i.mac ∧ i.mac ≤ 64) ∨
    (i.etm = false ∧ i.aead = true ∧ i.mac = 16)

/-- The packets whose body is asked of the socket. -/
def Admissible (i : InboundCipher) (length : Nat) : Prop :=
  5 ≤ length ∧ (length : Int) ≤ maxSshPacketLength ∧ 0 ≤ i.bodyRequest length

namespace InboundCipher
variable {i : InboundCipher}

theorem Admitted.not_refused (hi : i.Admitted) : i.refuses i.block true = false := by
  obtain ⟨hblock, hmode⟩ := hi
  simp only [refuses, Bool.or_eq_false_iff, Bool.and_eq_false_iff, decide_eq_false_iff_not,
    bne_eq_false_iff_eq, beq_eq_false_iff_ne]
  obtain ⟨he, ha, hlow, hhigh⟩ | ⟨he, ha, hlow, hhigh⟩ | ⟨he, ha, hmac⟩ := hmode
  · simp [he, ha]
    omega
  · simp [he, ha]
    omega
  · simp [he, ha, hmac]
    omega

/-- The length field is what the guard reads off the request. -/
theorem bodyRequest_field (i : InboundCipher) (length : Nat) :
    requestedField i.mode (i.bodyRequest length) i.block i.mac = length := by
  unfold requestedField bodyRequest mode
  cases i.etm <;> cases i.aead <;> simp <;> omega

/-- A body that is let through is within the guard's first bound. -/
theorem Admitted.bodyRequest_le (hi : i.Admitted) {length : Nat} (hl : Admissible i length) :
    i.bodyRequest length ≤ maxSshPacketLength + 64 := by
  obtain ⟨hblock, hmode⟩ := hi
  obtain ⟨-, hmax, -⟩ := hl
  unfold bodyRequest
  split <;> omega

end InboundCipher

/-! ## The reads of a message -/

namespace BoundedPacketizer

/-- Between packets: nothing is left of the last one but whether a limit was hit. -/
def between (i : InboundCipher) (limit : Bool) : BoundedPacketizer :=
  ⟨i, limit, none, none, none, none, none⟩

/-- In a packet, before its header is read. -/
def begun (i : InboundCipher) : BoundedPacketizer := ⟨i, false, some .header, none, none, none, none⟩

/-- In a packet, its header read. -/
def armed (i : InboundCipher) (clearLength : Option Int) (phase : PacketPhase) :
    BoundedPacketizer :=
  ⟨i, false, some phase, some i.mode, some i.block, some i.mac, clearLength⟩

@[simp] theorem between_limit (i : InboundCipher) (limit : Bool) :
    (between i limit).binaryPacketLimitExceeded = limit := rfl

@[simp] theorem between_phase (i : InboundCipher) (limit : Bool) :
    (between i limit).packetPhase = none := rfl

@[simp] theorem begun_inbound (i : InboundCipher) : (begun i).inbound = i := rfl

@[simp] theorem armed_inbound (i : InboundCipher) (clearLength : Option Int)
    (phase : PacketPhase) : (armed i clearLength phase).inbound = i := rfl

end BoundedPacketizer

open BoundedPacketizer

section reads
variable {i : InboundCipher} {h : History Wire}
variable {Q : Except PacketError Bytes → BoundedPacketizer → History Wire → Prop}

/-- Every call is allowed: what is said is about the ends. -/
abbrev AnyCall : History Wire → WireCall → Prop := fun _ _ => True

/-- The size of a request is within the first bound. -/
abbrev InBounds (n : Int) : Prop := 0 ≤ n ∧ n ≤ maxSshPacketLength + 64

theorem bounds_pass {n : Int} (hn : InBounds n) :
    (decide (n < 0) || decide (maxSshPacketLength + 64 < n)) = false := by
  simpa [InBounds] using hn

theorem wpy_readAll_phase {p : BoundedPacketizer} {n : Int} {checkRekey : Bool}
    (hp : p.binaryPacketLimitExceeded = false) (hn : InBounds n) :
    wpy AnyCall (readAll n checkRekey) Q p h ↔
      wpy AnyCall (readInPhase n checkRekey p.packetPhase) Q p h := by
  rw [readAll, wpy_bind_get, wpy_bind_pass hp, wpy_bind_pass (bounds_pass hn)]

theorem readAll_header (hi : i.Admitted)
    (hraised : ∀ e, Q (.error e) (begun i) (⟨.read i.block true, .error e⟩ :: h))
    (hlong : ∀ header a, (i.etm || i.aead) = true → maxSshPacketLength < lengthField header →
      Q (.error .limit) { armed i (some (lengthField header)) .header with
          binaryPacketLimitExceeded := true }
        (⟨.close, a⟩ :: ⟨.read i.block true, .ok header⟩ :: h))
    (hclear : ∀ header, (i.etm || i.aead) = true → (lengthField header : Int) ≤ maxSshPacketLength →
      Q (.ok header) (armed i (some (lengthField header)) .body)
        (⟨.read i.block true, .ok header⟩ :: h))
    (hclassic : ∀ header, (i.etm || i.aead) = false →
      Q (.ok header) (armed i none .body) (⟨.read i.block true, .ok header⟩ :: h)) :
    wpy AnyCall (readAll i.block true) Q (begun i) h := by
  have hbounds : InBounds i.block := by
    obtain hb | hb := hi.block <;> rw [hb] <;> decide
  rw [wpy_readAll_phase rfl hbounds]
  show wpy AnyCall (readHeader _ _) Q (begun i) h
  rw [readHeader, wpy_bind_get]
  show wpy AnyCall (limitWhen (i.refuses i.block true) >>= _) Q (begun i) h
  rw [wpy_bind_pass hi.not_refused, wpy_bind, wpy_socketReadAll]
  refine ⟨trivial, fun answer => ?_⟩
  cases answer with
  | error e => exact hraised e
  | ok header =>
    rw [either_ok, wpy_bind_modify]
    cases hc : i.etm || i.aead with
    | false =>
      simp only [begun_inbound, hc, Bool.false_eq_true, if_false]
      exact hclassic header hc
    | true =>
      simp only [begun_inbound, hc, if_true]
      rw [wpy_bind_modify]
      by_cases hlen : maxSshPacketLength < lengthField header
      · rw [wpy_bind_limit (by simpa using hlen), wpy_binaryLimit]
        exact ⟨trivial, fun a => hlong header a hc hlen⟩
      · rw [wpy_bind_pass (by simpa using hlen)]
        exact hclear header hc (not_lt.mp hlen)

/-- The check of the body phase, on the length field itself. -/
theorem refusesField_iff {length : Nat} {clearLength : Option Int}
    (hcl : clearLength = none ∨ clearLength = some (length : Int)) :
    refusesField length clearLength = true ↔
      ¬ (5 ≤ length ∧ (length : Int) ≤ maxSshPacketLength) := by
  have hclear : (clearLength.any fun c => (length : Int) != c) = false := by
    obtain rfl | rfl := hcl <;> simp
  rw [refusesField, hclear]
  simp only [Bool.or_false, Bool.or_eq_true, decide_eq_true_eq]
  omega

theorem readAll_body (hi : i.Admitted) {length : Nat} {clearLength : Option Int}
    (hcl : clearLength = none ∨ clearLength = some (length : Int))
    (hrefused : ¬ Admissible i length → ∀ a,
      Q (.error .limit) { armed i clearLength .body with binaryPacketLimitExceeded := true }
        (⟨.close, a⟩ :: h))
    (hraised : Admissible i length → ∀ e,
      Q (.error e) (armed i clearLength .body) (⟨.read (i.bodyRequest length) false, .error e⟩ :: h))
    (hread : Admissible i length → ∀ body,
      Q (.ok body) (armed i clearLength (if i.mode = .etm then .mac else .done))
        (⟨.read (i.bodyRequest length) false, .ok body⟩ :: h)) :
    wpy AnyCall (readAll (i.bodyRequest length) false) Q (armed i clearLength .body) h := by
  by_cases hbounds : InBounds (i.bodyRequest length)
  · rw [wpy_readAll_phase rfl hbounds]
    show wpy AnyCall (readBody _ _) Q _ h
    rw [readBody, wpy_bind_get]
    show wpy AnyCall (limitWhen false >>= _) Q _ h
    rw [wpy_bind_pass rfl]
    show wpy AnyCall (limitWhen (refusesField (requestedField _ _ _ _) clearLength) >>= _) Q _ h
    rw [i.bodyRequest_field]
    by_cases hlen : 5 ≤ length ∧ (length : Int) ≤ maxSshPacketLength
    · have hl : Admissible i length := ⟨hlen.1, hlen.2, hbounds.1⟩
      have hpass := Bool.eq_false_iff.mpr (mt (refusesField_iff hcl).mp (not_not.mpr hlen))
      rw [wpy_bind_pass hpass, wpy_bind, wpy_socketReadAll]
      refine ⟨trivial, fun answer => ?_⟩
      cases answer with
      | error e => exact hraised hl e
      | ok body => exact hread hl body
    · rw [wpy_bind_limit ((refusesField_iff hcl).mpr hlen), wpy_binaryLimit]
      exact ⟨trivial, hrefused fun hl => hlen ⟨hl.1, hl.2.1⟩⟩
  · -- a size out of the first bound is that of no admissible length
    have hno : ¬ Admissible i length := fun hl => hbounds ⟨hl.2.2, hi.bodyRequest_le hl⟩
    have hlimit : (armed i clearLength .body).binaryPacketLimitExceeded = false := rfl
    have hout : (decide (i.bodyRequest length < 0) ||
        decide (maxSshPacketLength + 64 < i.bodyRequest length)) = true := by
      simp only [Bool.or_eq_true, decide_eq_true_eq]
      omega
    rw [readAll, wpy_bind_get, wpy_bind_pass hlimit, wpy_bind_limit hout, wpy_binaryLimit]
    exact ⟨trivial, hrefused hno⟩

theorem readAll_mac (hi : i.Admitted) (hetm : i.etm = true) {clearLength : Option Int}
    (hread : ∀ a : Except PacketError Bytes, ∀ phase,
      Q a (armed i clearLength phase) (⟨.read i.mac false, a⟩ :: h)) :
    wpy AnyCall (readAll i.mac false) Q (armed i clearLength .mac) h := by
  have hbounds : InBounds i.mac := by
    obtain ⟨he, -⟩ | ⟨-, -, hlow, hhigh⟩ | ⟨he, -⟩ := hi.mode
    · rw [he] at hetm
      cases hetm
    · constructor
      · omega
      · exact hhigh.trans (by decide)
    · rw [he] at hetm
      cases hetm
  rw [wpy_readAll_phase rfl hbounds]
  show wpy AnyCall (readMac _ _) Q _ h
  have hsize : (false || (armed i clearLength .mac).packetMac != some i.mac) = false := by
    simp [armed]
  rw [readMac, wpy_bind_get, wpy_bind_pass hsize, wpy_bind, wpy_socketReadAll]
  refine ⟨trivial, fun answer => ?_⟩
  cases answer with
  | error e => exact hread _ _
  | ok mac => exact hread _ _

end reads

/-! ## A message -/

/-- The header is read and the length field known, newest event first. -/
inductive Announces (i : InboundCipher) : History Wire → Nat → Prop where
  | clear {header : Bytes} (hi : (i.etm || i.aead) = true) :
      Announces i [⟨.read i.block true, .ok header⟩] (lengthField header)
  | classic {header : Bytes} {length : BitVec 32} (hi : (i.etm || i.aead) = false) :
      Announces i [⟨.decrypt header, .ok length⟩, ⟨.read i.block true, .ok header⟩] length.toNat

/-- What can follow the body read: the MAC read of encrypt-then-MAC, and the end. -/
def AfterBody (i : InboundCipher) (ev : Event Wire) : Prop :=
  ev.call = .accept ∨ (i.etm = true ∧ ev.call = .read i.mac false)

/-- The events of one message, newest first, and whether it hit the limit. -/
inductive Exchange (i : InboundCipher) : History Wire → Bool → Prop where
  | noHeader {e : PacketError} : Exchange i [⟨.read i.block true, .error e⟩] false
  | noLength {header : Bytes} {e : PacketError} (hi : (i.etm || i.aead) = false) :
      Exchange i [⟨.decrypt header, .error e⟩, ⟨.read i.block true, .ok header⟩] false
  | refused {t : History Wire} {length : Nat} {answer : Except PacketError Unit} :
      Announces i t length → ¬ Admissible i length → Exchange i (⟨.close, answer⟩ :: t) true
  | delegated {t u : History Wire} {length : Nat} {answer : Except PacketError Bytes} :
      Announces i t length → Admissible i length → (∀ ev ∈ u, AfterBody i ev) →
      Exchange i (u ++ ⟨.read (i.bodyRequest length) false, answer⟩ :: t) false

/-- Once the length field is known, the body is asked of the socket if the packet is admissible;
if it is not, the limit is hit and nothing more is read. -/
def DelegatesExactly (i : InboundCipher) (t : History Wire) (hit : Bool) : Prop :=
  ∀ u t₀ length, t = u ++ t₀ → Announces i t₀ length →
    ((∃ v answer, u = v ++ [⟨.read (i.bodyRequest length) false, answer⟩]) ↔ Admissible i length) ∧
    (hit = true ↔ ¬ Admissible i length) ∧ (hit = true → ∃ answer, u = [⟨.close, answer⟩])

theorem Announces.events {i : InboundCipher} {t : History Wire} {length : Nat}
    (ht : Announces i t length) : t.length = if (i.etm || i.aead) = true then 1 else 2 := by
  cases ht with
  | clear hi => rw [if_pos hi]; rfl
  | classic hi => rw [hi]; rfl

theorem Announces.unique {i : InboundCipher} {t : History Wire} {n m : Nat}
    (hn : Announces i t n) (hm : Announces i t m) : n = m := by
  cases hn <;> cases hm <;> rfl

/-- The announcement is the same part of a message, however the message is split. -/
theorem Announces.split {i : InboundCipher} {u u' t t' : History Wire} {n m : Nat}
    (hn : Announces i t n) (hm : Announces i t' m) (hs : u ++ t = u' ++ t') : u = u' ∧ n = m := by
  obtain ⟨hu, rfl⟩ := List.append_inj' hs (hn.events.trans hm.events.symm)
  exact ⟨hu, hn.unique hm⟩

theorem Exchange.exact {i : InboundCipher} {t : History Wire} {hit : Bool}
    (hx : Exchange i t hit) : DelegatesExactly i t hit := by
  intro u t₀ length hs ha
  cases hx with
  | noHeader =>
    -- a header that raised announces nothing
    have hlen := congrArg List.length hs
    have hev := ha.events
    rw [List.length_append, List.length_singleton] at hlen
    cases u with
    | nil =>
      rw [List.nil_append] at hs
      subst hs
      cases ha
    | cons ev u =>
      rw [List.length_cons] at hlen
      split at hev <;> omega
  | noLength hi =>
    have hlen := congrArg List.length hs
    have hev := ha.events
    rw [hi, if_neg Bool.false_ne_true] at hev
    rw [List.length_append, hev] at hlen
    obtain rfl : u = [] := List.eq_nil_of_length_eq_zero (by simpa using hlen.symm)
    rw [List.nil_append] at hs
    subst hs
    cases ha
  | @refused t' length' answer ht hno =>
    obtain ⟨rfl, rfl⟩ := ht.split ha (u := [⟨.close, answer⟩]) hs
    refine ⟨⟨?_, fun hl => absurd hl hno⟩, ⟨fun _ => hno, fun _ => rfl⟩, fun _ => ⟨answer, rfl⟩⟩
    rintro ⟨v, answer', hv⟩
    have hlast := congrArg List.getLast? hv
    rw [List.getLast?_concat, List.getLast?_singleton] at hlast
    cases congrArg Event.call (Option.some.inj hlast)
  | @delegated t' u' length' answer ht hl hu =>
    have hs' : (u' ++ [⟨.read (i.bodyRequest length') false, answer⟩]) ++ t' = u ++ t₀ := by
      simpa using hs
    obtain ⟨rfl, rfl⟩ := ht.split ha hs'
    refine ⟨⟨fun _ => hl, fun _ => ⟨u', answer, rfl⟩⟩, ⟨?_, fun hno => absurd hl hno⟩, ?_⟩
    · exact fun h => Bool.noConfusion h
    · exact fun h => Bool.noConfusion h

/-- How a message ends. -/
def MessageEnd (i : InboundCipher) (r : Except PacketError Unit) (p : BoundedPacketizer)
    (t : History Wire) : Prop :=
  ∃ hit, Exchange i t hit ∧ p.disarmed = between i hit ∧ (hit = true → r = .error .limit)

section message
variable {i : InboundCipher} {t : History Wire}

theorem paramikoReadBody_spec (hi : i.Admitted) {length : Nat} {clearLength : Option Int}
    (hcl : clearLength = none ∨ clearLength = some (length : Int)) (ht : Announces i t length) :
    wpy AnyCall (paramikoReadBody i length) (MessageEnd i) (armed i clearLength .body) t := by
  rw [paramikoReadBody, wpy_bind]
  apply readAll_body hi hcl
  · exact fun hno answer => ⟨true, .refused ht hno, rfl, fun _ => rfl⟩
  · exact fun hl e => ⟨false, .delegated (u := []) ht hl (by simp), rfl, fun h => nomatch h⟩
  · intro hl body
    have hend : ∀ (u : History Wire) phase r, (∀ ev ∈ u, AfterBody i ev) →
        MessageEnd i r (armed i clearLength phase)
          (u ++ ⟨.read (i.bodyRequest length) false, .ok body⟩ :: t) :=
      fun u phase r hu => ⟨false, .delegated ht hl hu, rfl, fun h => nomatch h⟩
    have haccept (a : Except PacketError Unit) : AfterBody i ⟨.accept, a⟩ := .inl rfl
    rw [either_ok]
    cases hetm : i.etm with
    | false =>
      simp only [Bool.false_eq_true, if_false]
      rw [wpy_bind]
      exact ⟨trivial, fun a => hend [⟨.accept, a⟩] _ _ (by simpa using haccept a)⟩
    | true =>
      have hmode : i.mode = .etm := by
        rw [InboundCipher.mode, hetm, if_pos rfl]
      rw [if_pos rfl, if_pos hmode, wpy_bind]
      apply readAll_mac hi hetm
      intro mac phase
      have hmac : AfterBody i ⟨.read i.mac false, mac⟩ := .inr ⟨hetm, rfl⟩
      cases mac with
      | error e => exact hend [_] _ _ (by simpa using hmac)
      | ok mac =>
        show wpy _ (perform (I := Wire) .accept >>= _) _ _ _
        rw [wpy_bind]
        exact ⟨trivial, fun a => hend [⟨.accept, a⟩, _] _ _ (by simpa using ⟨haccept a, hmac⟩)⟩

theorem paramikoReadMessage_spec (hi : i.Admitted) :
    wpy AnyCall paramikoReadMessage (MessageEnd i) (begun i) [] := by
  rw [paramikoReadMessage, wpy_bind_get, begun_inbound, wpy_bind]
  apply readAll_header hi
  · exact fun e => ⟨false, .noHeader, rfl, fun h => nomatch h⟩
  · intro header a hclear hlong
    exact ⟨true, .refused (.clear hclear) fun hl => (not_le.mpr hlong) hl.2.1, rfl, fun _ => rfl⟩
  · intro header hclear hle
    rw [either_ok, packetLength, if_pos hclear, wpy_bind]
    exact paramikoReadBody_spec hi (.inr rfl) (.clear hclear)
  · intro header hclassic
    rw [either_ok, packetLength, hclassic, if_neg Bool.false_ne_true, wpy_bind, wpy_bind]
    refine ⟨trivial, fun answer => ?_⟩
    cases answer with
    | error e => exact ⟨false, .noLength hclassic, rfl, fun h => nomatch h⟩
    | ok length => exact paramikoReadBody_spec hi (.inl rfl) (.classic hclassic)

end message

/-! ## A connection -/

/-- What one step adds to the history, and whether the limit is hit after it. -/
inductive StepTrace (i : InboundCipher) : Bool → WireStep → History Wire → Bool → Prop where
  /-- A message is read, from a packetizer that is armed for it. -/
  | message {t : History Wire} {hit : Bool} :
      Exchange i t hit → DelegatesExactly i t hit → StepTrace i false .message t hit
  | setInbound {hit : Bool} {i' : InboundCipher} : StepTrace i hit (.setInbound i') [] hit
  /-- Any other read is small and asks for no new keys. -/
  | read {n : Int} {answer : Except PacketError Bytes} : InBounds n →
      StepTrace i false (.readAll n false) [⟨.read n false, answer⟩] false
  /-- The limit is hit, or was hit before. -/
  | limit {hit : Bool} {step : WireStep} {answer : Except PacketError Unit} :
      (hit = true ∨ ∃ n checkRekey, step = .readAll n checkRekey ∧ ¬ (InBounds n ∧ checkRekey = false)) →
      StepTrace i hit step [⟨.close, answer⟩] true

/-- The cipher of the packets after a step. -/
def WireStep.cipher (i : InboundCipher) : WireStep → InboundCipher
  | .setInbound i' => i'
  | _ => i

theorem readMessage_spec {i : InboundCipher} (hi : i.Admitted) {limit : Bool} :
    wpy AnyCall readMessage (fun _ p t => ∃ hit, p = between i hit ∧
      StepTrace i limit .message t hit) (between i limit) [] := by
  rw [readMessage, wpy_bind_get, between_limit, between_phase, Option.isSome_none, Bool.or_false]
  cases limit with
  | true =>
    rw [wpy_bind_limit rfl, wpy_binaryLimit]
    exact ⟨trivial, fun answer => ⟨true, rfl, .limit (.inl rfl)⟩⟩
  | false =>
    rw [wpy_bind_pass rfl, wpy_bind_modify, wpy_andFinally]
    refine wpy_post (paramikoReadMessage_spec hi) fun r p t hend => ?_
    obtain ⟨hit, hx, hp, -⟩ := hend
    rw [List.append_nil] at hx ⊢
    exact ⟨hit, hp, .message hx hx.exact⟩

theorem readAll_spec (i : InboundCipher) {limit : Bool} (n : Int) (checkRekey : Bool) :
    wpy AnyCall (readAll n checkRekey) (fun _ p t => ∃ hit, p = between i hit ∧
      StepTrace i limit (.readAll n checkRekey) t hit) (between i limit) [] := by
  rw [readAll, wpy_bind_get, between_limit, between_phase]
  cases limit with
  | true =>
    rw [wpy_bind_limit rfl, wpy_binaryLimit]
    exact ⟨trivial, fun answer => ⟨true, rfl, .limit (.inl rfl)⟩⟩
  | false =>
    rw [wpy_bind_pass rfl]
    by_cases hn : InBounds n
    · rw [wpy_bind_pass (bounds_pass hn)]
      show wpy AnyCall (limitWhen checkRekey >>= _) _ _ _
      cases checkRekey with
      | true =>
        rw [wpy_bind_limit rfl, wpy_binaryLimit]
        exact ⟨trivial, fun answer => ⟨true, rfl, .limit (.inr ⟨n, true, rfl, by simp⟩)⟩⟩
      | false =>
        rw [wpy_bind_pass rfl, wpy_socketReadAll]
        exact ⟨trivial, fun answer => ⟨false, rfl, .read hn⟩⟩
    · have hout : (decide (n < 0) || decide (maxSshPacketLength + 64 < n)) = true := by
        simp only [Bool.or_eq_true, decide_eq_true_eq]
        omega
      rw [wpy_bind_limit hout, wpy_binaryLimit]
      exact ⟨trivial, fun answer =>
        ⟨true, rfl, .limit (.inr ⟨n, checkRekey, rfl, fun h => hn h.1⟩)⟩⟩

/-- One step, whatever the socket delivers. -/
theorem step_spec {i : InboundCipher} (hi : i.Admitted) {limit : Bool} (step : WireStep) :
    wpy AnyCall step.run (fun _ p t => ∃ hit, p = between (step.cipher i) hit ∧
      StepTrace i limit step t hit) (between i limit) [] := by
  cases step with
  | message => exact readMessage_spec hi
  | setInbound i' => exact ⟨limit, rfl, .setInbound⟩
  | readAll n checkRekey =>
    show wpy AnyCall (readAll n checkRekey >>= _) _ _ _
    rw [wpy_bind]
    refine wpy_post (readAll_spec i n checkRekey) fun r p t ht => ?_
    cases r <;> exact ht

/-- The steps of a connection, one trace on top of the other. -/
inductive Served : InboundCipher → Bool → List WireStep → History Wire → InboundCipher → Bool → Prop
  | nil {i : InboundCipher} {hit : Bool} : Served i hit [] [] i hit
  | cons {i i' : InboundCipher} {limit hit last : Bool} {step : WireStep} {steps : List WireStep}
      {t u : History Wire} : StepTrace i limit step t hit →
      Served (step.cipher i) hit steps u i' last → Served i limit (step :: steps) (u ++ t) i' last

/-- The settings a step switches to are of an admitted mode. -/
def WireStep.Admitted : WireStep → Prop
  | .setInbound i => i.Admitted
  | _ => True

theorem WireStep.Admitted.cipher {i : InboundCipher} (hi : i.Admitted) {step : WireStep}
    (hs : step.Admitted) : (step.cipher i).Admitted := by
  cases step with
  | setInbound i' => exact hs
  | message => exact hi
  | readAll n checkRekey => exact hi

theorem serve_spec {steps : List WireStep} (hs : ∀ step ∈ steps, step.Admitted) :
    ∀ (i : InboundCipher) (limit : Bool), i.Admitted →
      wpy AnyCall (serve steps) (fun _ p t => ∃ i' hit, p = between i' hit ∧
        Served i limit steps t i' hit) (between i limit) [] := by
  induction steps with
  | nil => exact fun i limit _ => ⟨i, limit, rfl, .nil⟩
  | cons step steps ih =>
    intro i limit hi
    rw [serve, wpy_bind, wpy_attempt]
    refine wpy_post (step_spec hi step) fun r p t hstep => ?_
    rw [List.append_nil] at hstep ⊢
    obtain ⟨hit, rfl, ht⟩ := hstep
    have hi' := (hs step List.mem_cons_self).cipher hi
    have hrest := ih (fun s hmem => hs s (List.mem_cons_of_mem _ hmem)) _ hit hi'
    rw [either_ok]
    refine wpy_use (h := t) hrest ?_ ?_
    · exact fun _ _ _ => trivial
    intro r p u hu
    obtain ⟨i', last, hp, hu⟩ := hu
    exact ⟨i', last, hp, .cons ht hu⟩

theorem Announces.not_closed {i : InboundCipher} {t : History Wire} {length : Nat}
    (ht : Announces i t length) : ∀ ev ∈ t, ev.call ≠ .close := by
  cases ht <;> simp

theorem AfterBody.not_closed {i : InboundCipher} {ev : Event Wire} (hev : AfterBody i ev) :
    ev.call ≠ .close := by
  obtain h | ⟨-, h⟩ := hev <;> rw [h] <;> exact fun h => nomatch h

/-- The limit is hit exactly in a step that closes, which reads nothing after that. -/
theorem StepTrace.closes {i : InboundCipher} {limit hit : Bool} {step : WireStep} {t : History Wire}
    (ht : StepTrace i limit step t hit) :
    (hit = false → ∀ ev ∈ t, ev.call ≠ .close) ∧
      (hit = true → t = [] ∨ ∃ answer u, t = ⟨.close, answer⟩ :: u ∧ ∀ ev ∈ u, ev.call ≠ .close) := by
  cases ht with
  | message hx _ =>
    cases hx with
    | noHeader => simp
    | noLength hi => simp
    | @refused t' length answer ha hno =>
      exact ⟨fun h => Bool.noConfusion h, fun _ => .inr ⟨answer, t', rfl, ha.not_closed⟩⟩
    | @delegated t' u length answer ha hl hu =>
      refine ⟨fun _ ev hev => ?_, fun h => Bool.noConfusion h⟩
      rcases List.mem_append.mp hev with hev | hev
      · exact (hu ev hev).not_closed
      · rcases List.mem_cons.mp hev with rfl | hev
        · exact fun h => nomatch h
        · exact ha.not_closed ev hev
  | setInbound => simp
  | read hn => simp
  | @limit _ _ answer hwhy => exact ⟨fun h => Bool.noConfusion h, fun _ => .inr ⟨answer, [], rfl, by simp⟩⟩

/-- Once the limit is hit it stays hit, and a step can only close again. -/
theorem StepTrace.after_limit {i : InboundCipher} {hit : Bool} {step : WireStep} {t : History Wire}
    (ht : StepTrace i true step t hit) : hit = true ∧ ∀ ev ∈ t, ev.call = .close := by
  cases ht with
  | setInbound => exact ⟨rfl, by simp⟩
  | limit => exact ⟨rfl, by simp⟩

theorem Served.after_limit {i i' : InboundCipher} {last : Bool} {steps : List WireStep}
    {t : History Wire} (ht : Served i true steps t i' last) :
    last = true ∧ ∀ ev ∈ t, ev.call = .close := by
  generalize hl : true = limit at ht
  induction ht with
  | nil => exact ⟨rfl, by simp⟩
  | cons hstep _ ih =>
    subst hl
    obtain ⟨rfl, hclose⟩ := hstep.after_limit
    obtain ⟨hlast, hrest⟩ := ih rfl
    refine ⟨hlast, fun ev hev => ?_⟩
    exact (List.mem_append.mp hev).elim (hrest ev) (hclose ev)

/-- Nothing but closing follows a close. -/
def Silenced (h : History Wire) : Prop :=
  ∃ closes reads, h = closes ++ reads ∧ (∀ ev ∈ closes, ev.call = .close) ∧
    ∀ ev ∈ reads, ev.call ≠ .close

theorem Served.silenced {i i' : InboundCipher} {limit last : Bool} {steps : List WireStep}
    {t : History Wire} (ht : Served i limit steps t i' last) : Silenced t := by
  induction ht with
  | nil => exact ⟨[], [], rfl, by simp, by simp⟩
  | @cons i i' limit hit last step steps t u hstep hrest ih =>
    obtain ⟨hopen, hshut⟩ := hstep.closes
    cases hit with
    | false =>
      obtain ⟨closes, reads, rfl, hclose, hread⟩ := ih
      refine ⟨closes, reads ++ t, List.append_assoc _ _ _, hclose, fun ev hev => ?_⟩
      exact (List.mem_append.mp hev).elim (hread ev) (hopen rfl ev)
    | true =>
      have hclose := hrest.after_limit.2
      obtain rfl | ⟨answer, v, rfl, hv⟩ := hshut rfl
      · exact ⟨u, [], rfl, hclose, by simp⟩
      · refine ⟨u ++ [⟨.close, answer⟩], v, List.append_cons _ _ _, fun ev hev => ?_, hv⟩
        rcases List.mem_append.mp hev with hev | hev
        · exact hclose ev hev
        · exact congrArg Event.call (List.mem_singleton.mp hev)

/-- Over any packets in any mix of modes: each message asks the socket for its body exactly when the
packet is admissible, the packetizer is armed anew after each step, and once the limit is hit nothing
more is read. -/
theorem packet_guard_serves {steps : List WireStep} {r : Except PacketError Unit}
    {p : BoundedPacketizer} {h : History Wire} (hs : ∀ step ∈ steps, step.Admitted)
    (hr : Ends (serve steps) BoundedPacketizer.init [] r p h) :
    ∃ i hit, p = between i hit ∧ Served BoundedPacketizer.init.inbound false steps h i hit ∧
      Silenced h := by
  have hinit : BoundedPacketizer.init.inbound.Admitted :=
    ⟨.inl rfl, .inl ⟨rfl, rfl, by decide, by decide⟩⟩
  obtain ⟨i, hit, hp, ht⟩ := wpy_ends (serve_spec hs _ false hinit) hr
  exact ⟨i, hit, hp, ht, ht.silenced⟩

/-- A packet in the clear, a switch to GCM, a packet that announces one byte too many, and one more. -/
def wireSession : List WireStep :=
  [.message, .setInbound ⟨16, 16, false, true⟩, .message, .message]

def oversizedWire : Environment Wire
  | _, .read _ _ => .ok [0, 4, 0, 1]
  | _, .decrypt _ => .ok 12
  | _, .accept => .ok ()
  | _, .close => .ok ()

theorem packet_guard_serves_oversized :
    ∃ r p h, Ends (serve wireSession) BoundedPacketizer.init [] r p h ∧
      ∃ i hit, p = between i hit ∧ Served BoundedPacketizer.init.inbound false wireSession h i hit ∧
        Silenced h := by
  have hs : ∀ step ∈ wireSession, step.Admitted := by
    simp only [wireSession, List.forall_mem_cons]
    exact ⟨trivial, ⟨.inr rfl, .inr (.inr ⟨rfl, rfl, rfl⟩)⟩, trivial, trivial, by simp⟩
  obtain ⟨p, hp⟩ := play_ends_result oversizedWire (s := BoundedPacketizer.init) (h := [])
    (x := serve wireSession) (r := .ok ()) rfl
  exact ⟨_, p, _, hp, packet_guard_serves hs hp⟩

end ArubaCertRenewer
