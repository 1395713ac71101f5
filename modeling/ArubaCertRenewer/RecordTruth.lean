import ArubaCertRenewer.StartupCalls
import ArubaCertRenewer.RecordOperations

/- The run of `--output json` for one switch and for all of them: what every record says
   agrees with itself and with what was done. -/
namespace ArubaCertRenewer
open PyText Effects Effects.Py

/-! ## The lock -/

section lock
variable {σ : Type} {P : Platform} {host : Text}

end lock

/-! ## One switch -/

section process
variable {P : Platform} {switch : Switch} {credentials : Credentials} {warningDays : Nat}
  {operation : Operation} {item : SwitchResult}

end process

/-- What the final record of a switch tells. -/
structure TruthfulRecord (P : Platform) (item : SwitchResult) (t : History World) : Prop
    extends Telling P item t where
  preAttempt : item.outcome = .failurePreAttempt → mutations t = [] ∨ Masked t

section switch
variable {P : Platform} {switch : Switch} {configFile : Text} {warningDays : Nat}
  {operation : Operation} {renews : Bool} {item item' : SwitchResult} {t : History World}

theorem Telling.jsonEscape (ht : Telling P item t) (e : Exc) :
    Telling P (ArubaCertRenewer.jsonEscape e item) t := by
  unfold ArubaCertRenewer.jsonEscape
  split
  · unfold lockReleaseFailure
    split
    · exact ht.same rfl rfl rfl
    · exact ht.same rfl rfl rfl
  split
  · exact ht.same rfl rfl rfl
  · exact ht.jsonFailure e

theorem LeftRecord.settled {operation : Operation} {r u : Except Exc Unit} (hl : LeftRecord P operation r item t)
    (hu : ∀ e, u = .error e → e = releaseError ∧ inFlight r = none ∨ e.Plain) :
    SelfConsistent operation.renews (settled item (after u r)) ∧ Telling P (settled item (after u r)) t := by
  cases u with
  | ok _ =>
    cases r with
    | ok _ => exact ⟨hl.consistent _ rfl, hl.telling⟩
    | error e => exact ⟨hl.steady.jsonEscape (.inr (hl.plain e rfl)), hl.telling.jsonEscape e⟩
  | error e =>
    refine ⟨hl.steady.jsonEscape ((hu e rfl).imp_left fun hrelease => ⟨hrelease.1, ?_⟩),
      hl.telling.jsonEscape e⟩
    cases r with
    | ok _ => exact hl.consistent _ rfl
    | error e' => cases hrelease.2

end switch

/-! ## All switches -/

/-- One record for each switch, in order, each with the piece of the history that is its own. -/
inductive Recorded (P : Platform) (renews : Bool) :
    List Switch → List SwitchResult → History World → Prop where
  | nil : Recorded P renews [] [] []
  | cons {switch : Switch} {switches : List Switch} {item : SwitchResult} {items : List SwitchResult}
      {t u : History World} : SelfConsistent renews item → TruthfulRecord P item t →
      Recorded P renews switches items u → Recorded P renews (switch :: switches) (item :: items) (u ++ t)

section run
variable {σ : Type} {P : Platform} {a : Args} {configFile : Text} {warningDays : Nat}
  {operation : Operation} {renews : Bool} {s s' : σ} {h h' : History World}

theorem Recorded.consistent {switches : List Switch} {items : List SwitchResult} {t : History World}
    (hr : Recorded P renews switches items t) : ∀ item ∈ items, SelfConsistent renews item := by
  induction hr with
  | nil => exact fun item hitem => by cases hitem
  | cons hc _ _ ih =>
    intro item hitem
    obtain rfl | hitem := List.mem_cons.mp hitem
    · exact hc
    · exact ih item hitem

end run

theorem Recorded.undone {P : Platform} {renews : Bool} {switches : List Switch}
    {items : List SwitchResult} {t : History World} (hr : Recorded P renews switches items t)
    (hall : ∀ item ∈ items, item.outcome = .failurePreAttempt) : mutations t = [] ∨ Masked t := by
  induction hr with
  | nil => exact .inl rfl
  | @cons switch switches item items t u _ htrue _ ih =>
    have hfirst := htrue.preAttempt (hall item List.mem_cons_self)
    have hrest := ih fun item hitem => hall item (List.mem_cons_of_mem _ hitem)
    obtain hfirst | hmasked := hfirst
    · obtain hrest | hmasked := hrest
      · left
        rw [mutations_append, hrest, hfirst]
        rfl
      · exact .inr (hmasked.append (u := []) (g := t))
    · have happend := hmasked.append (u := u) (g := [])
      rw [List.append_nil] at happend
      exact .inr happend

end ArubaCertRenewer
