import ArubaCertRenewer.Publisher
import Mathlib.Logic.Function.Basic

/- The immutable aliases of a release.

   A registry answers truthfully and nobody else writes to it; any command may
   fail, and a write that failed may have happened. What is proved: a publisher
   writes an alias only where it found none, so over any runs, whole or cut short,
   of any candidates, an alias that exists keeps its digest. -/
namespace ArubaCertRenewer
open PyText Effects Effects.Py

/-! ## Names -/

theorem tag_head {t : Text} (h : fullmatch tagPattern t = true) : t.head? = some 'v' := by
  cases t with
  | nil => exact absurd h (by decide)
  | cons c cs =>
    rw [List.head?_cons, Option.some_inj]
    by_contra hc
    have hnone : Regex.results (.char (· == 'v')) ⟨[], c :: cs, []⟩ = [] := by
      simp [Regex.results, hc]
    have hseq (r : Regex) : Regex.results (.seq (.char (· == 'v')) r) ⟨[], c :: cs, []⟩ = [] := by
      rw [Regex.results, hnone, List.flatMap_nil]
    rw [fullmatch, tagPattern] at h
    simp only [Regex.seqs] at h
    rw [hseq] at h
    exact absurd h (by simp)

namespace Candidate

theorem versionRef_ne_sourceRef (c : Candidate) : c.versionRef ≠ c.sourceRef := by
  intro h
  have hv := tag_head c.tagValid
  rw [versionRef, sourceRef, List.append_assoc, List.append_assoc] at h
  have hrest : ":".toList ++ c.releaseTag = ":".toList ++ ("sha-".toList ++ c.commitSha) :=
    List.append_cancel_left h
  have ht := List.append_cancel_left hrest
  rw [ht] at hv
  have hchar : 's' = 'v' := Option.some.inj hv
  exact absurd hchar (by decide)

theorem versionRef_ne_latest (c : Candidate) : c.versionRef ≠ latestRef := by
  intro h
  have hv := tag_head c.tagValid
  rw [versionRef, latestRef, List.append_assoc] at h
  have hrest : ":".toList ++ c.releaseTag = ":".toList ++ "latest".toList :=
    List.append_cancel_left h
  have ht := List.append_cancel_left hrest
  rw [ht] at hv
  exact absurd hv (by decide)

theorem sourceRef_ne_latest (c : Candidate) : c.sourceRef ≠ latestRef := by
  intro h
  rw [sourceRef, latestRef, List.append_assoc] at h
  have ht := List.append_cancel_left h
  exact absurd (congrArg (List.drop 1) ht) (by simp)

end Candidate

/-! ## The registry -/

/-- The digest of every alias. -/
abbrev Aliases := Text → Option Text

/-- What an inspection says of an alias is so: the digest it prints, or that there is none. -/
structure Truthful (R : Aliases) (reference : Text) (o : CommandOutput) : Prop where
  present : o.status = 0 → R reference = some (printedDigest (captured o.stdout))
  absent : o.status ≠ 0 → captured o.stderr = "ERROR: " ++ reference ++ ": not found" ∨
    captured o.stderr = "ERROR: " ++ reference ++ ": manifest unknown" → R reference = none

/-- One command at the registry, which holds the manifest `content digest` under each digest. A write
that fails may have taken effect. -/
inductive Carried (content : Text → Option Bytes) : Aliases → Event Docker → Aliases → Prop where
  | inspect {R : Aliases} {reference : Text} {o : CommandOutput} :
      Truthful R reference o → Carried content R ⟨.inspect reference, o⟩ R
  | inspectRaw {R : Aliases} {digest : Text} {answer : Option Bytes} :
      (∀ raw, answer = some raw → content digest = some raw) →
      Carried content R ⟨.inspectRaw digest, answer⟩ R
  | pull {R : Aliases} {digest : Text} {answer : Option Unit} :
      Carried content R ⟨.pull digest, answer⟩ R
  | imageId {R : Aliases} {digest : Text} {answer : Option Text} :
      Carried content R ⟨.imageId digest, answer⟩ R
  | rootfsLayers {R : Aliases} {digest : Text} {answer : Option Text} :
      Carried content R ⟨.rootfsLayers digest, answer⟩ R
  | tag {R : Aliases} {reference : Text} {answer : Option Unit} :
      Carried content R ⟨.tag reference, answer⟩ R
  | attest {R : Aliases} {sbom : Bool} {digest : Text} {answer : Option Unit} :
      Carried content R ⟨.attest sbom digest, answer⟩ R
  /-- A push stores some digest. -/
  | push {R : Aliases} {reference digest : Text} {answer : Option Unit} :
      Carried content R ⟨.push reference, answer⟩ (Function.update R reference (some digest))
  | pushFailed {R : Aliases} {reference : Text} : Carried content R ⟨.push reference, none⟩ R
  | create {R : Aliases} {destination digest : Text} {answer : Option Unit} :
      Carried content R ⟨.create destination digest, answer⟩
        (Function.update R destination (some digest))
  | createFailed {R : Aliases} {destination digest : Text} :
      Carried content R ⟨.create destination digest, none⟩ R

/-- The registry before and after a history. -/
inductive Observed (content : Text → Option Bytes) : Aliases → History Docker → Aliases → Prop where
  | nil {R : Aliases} : Observed content R [] R
  | cons {R S S' : Aliases} {h : History Docker} {ev : Event Docker} :
      Observed content R h S → Carried content S ev S' → Observed content R (ev :: h) S'

/-- No event of the history writes the alias. -/
def Unwritten (reference : Text) (h : History Docker) : Prop :=
  ∀ ev ∈ h, ev.call.writes ≠ some reference

/-- The event is an inspection that finds the alias in this state. -/
def Says (reference : Text) (st : AliasState) (ev : Event Docker) : Prop :=
  ∃ o : CommandOutput, ev = ⟨.inspect reference, o⟩ ∧ aliasState reference o = .ok st

def SeenAbsent (reference : Text) (h : History Docker) : Prop :=
  ∃ ev ∈ h, Says reference .absent ev

/-- The alias was found at this digest, and was not written since. -/
def ConfirmedAt (reference digest : Text) (h : History Docker) : Prop :=
  ∃ post ev pre, h = post ++ ev :: pre ∧ Says reference (.present digest) ev ∧
    Unwritten reference post

section registry
variable {content : Text → Option Bytes} {R S : Aliases} {reference : Text}

@[simp] theorem refuseWhen_eq_ok {E : Type} {b : Bool} {e : E} {u : Unit} :
    refuseWhen b e = .ok u ↔ b = false := by
  cases b <;> simp [refuseWhen]

/-- What an outcome was found to say, of its status and its texts. -/
theorem of_aliasState {o : CommandOutput} {st : AliasState} (h : aliasState reference o = .ok st) :
    (o.status = 0 ∧ st = .present (printedDigest (captured o.stdout))) ∨
      (o.status ≠ 0 ∧ st = .absent ∧
        (captured o.stderr = "ERROR: " ++ reference ++ ": not found" ∨
          captured o.stderr = "ERROR: " ++ reference ++ ": manifest unknown")) := by
  rw [aliasState] at h
  obtain ⟨_, -, h⟩ := bind_eq_ok.mp h
  by_cases hs : o.status = 0
  · rw [if_pos hs] at h
    obtain ⟨_, -, h⟩ := bind_eq_ok.mp h
    obtain ⟨_, -, h⟩ := bind_eq_ok.mp h
    cases h
    exact .inl ⟨hs, rfl⟩
  · rw [if_neg hs] at h
    obtain ⟨_, -, h⟩ := bind_eq_ok.mp h
    obtain ⟨_, htext, h⟩ := bind_eq_ok.mp h
    cases h
    rw [refuseWhen_eq_ok, Bool.and_eq_false_iff, bne_eq_false_iff_eq, bne_eq_false_iff_eq] at htext
    exact .inr ⟨hs, rfl, htext⟩

/-- An inspection tells the state of the registry that it was made in. -/
theorem Carried.shown {S' : Aliases} {ev : Event Docker} {st : AliasState}
    (hs : Carried content S ev S') (h : Says reference st ev) :
    (st = .absent → S reference = none) ∧ ∀ d, st = .present d → S reference = some d := by
  obtain ⟨o, rfl, ho⟩ := h
  cases hs with
  | inspect htrue =>
    obtain ⟨hz, rfl⟩ | ⟨hz, rfl, htext⟩ := of_aliasState ho
    · refine ⟨(fun h => nomatch h), fun d hd => ?_⟩
      cases hd
      exact htrue.present hz
    · exact ⟨fun _ => htrue.absent hz htext, fun _ hd => nomatch hd⟩

theorem Carried.unwritten {S' : Aliases} {ev : Event Docker} (hs : Carried content S ev S')
    (h : ev.call.writes ≠ some reference) : S' reference = S reference := by
  cases hs with
  | push | create => exact Function.update_of_ne (fun he => h (congrArg some he.symm)) _ _
  | inspect | inspectRaw | pull | imageId | rootfsLayers | tag | attest | pushFailed | createFailed =>
    exact rfl

theorem Observed.unwritten {h : History Docker} (ho : Observed content R h S)
    (hw : Unwritten reference h) : S reference = R reference := by
  induction ho with
  | nil => exact rfl
  | cons _ hlast ih =>
    rw [hlast.unwritten (hw _ List.mem_cons_self)]
    exact ih fun ev hev => hw ev (List.mem_cons_of_mem _ hev)

theorem Observed.split {post pre : History Docker} (ho : Observed content R (post ++ pre) S) :
    ∃ M, Observed content R pre M ∧ Observed content M post S := by
  induction post generalizing S with
  | nil => exact ⟨S, ho, .nil⟩
  | cons ev post ih =>
    cases ho with
    | cons hrest hlast =>
      obtain ⟨M, hpre, hpost⟩ := ih hrest
      exact ⟨M, hpre, .cons hpost hlast⟩

/-- An alias that was found absent and not written was absent from the start. -/
theorem Observed.absent {h : History Docker} (ho : Observed content R h S)
    (hseen : SeenAbsent reference h) (hw : Unwritten reference h) : R reference = none := by
  obtain ⟨ev, hev, hshown⟩ := hseen
  obtain ⟨post, pre, rfl⟩ := List.append_of_mem hev
  obtain ⟨M, hM, -⟩ := ho.split
  cases hM with
  | cons hpre hlast =>
    rw [← hpre.unwritten fun ev' hev' => hw ev' (by simp [hev'])]
    exact (hlast.shown hshown).1 rfl

theorem Observed.confirmed {h : History Docker} {digest : Text} (ho : Observed content R h S)
    (hc : ConfirmedAt reference digest h) : S reference = some digest := by
  obtain ⟨post, ev, pre, rfl, hshown, hw⟩ := hc
  obtain ⟨M, hM, hpost⟩ := ho.split
  rw [hpost.unwritten hw]
  cases hM with
  | cons hpre hlast =>
    have hev : ev.call.writes ≠ some reference := by
      obtain ⟨o, rfl, -⟩ := hshown
      exact fun h => nomatch h
    rw [hlast.unwritten hev]
    exact (hlast.shown hshown).2 digest rfl

end registry

/-! ## The publisher -/

/-- The events of this run confirm both aliases at the digest, and that it is the candidate's. -/
structure Confirmed (T : Tools) (c : Candidate) (digest : Text) (h : History Docker) : Prop where
  version : ConfirmedAt c.versionRef digest h
  source : ConfirmedAt c.sourceRef digest h
  verified : ∃ raw, ⟨.inspectRaw digest, some raw⟩ ∈ h ∧ verifyRaw T c digest raw = .ok ()

/-- What a publisher may write: an alias that it found absent and has not written, and `latest` at
the digest that both aliases were confirmed at. -/
def writeGate (T : Tools) (c : Candidate) (h : History Docker) (call : DockerCall) : Prop :=
  ∀ reference, call.writes = some reference →
    (reference ≠ latestRef → SeenAbsent reference h ∧ Unwritten reference h) ∧
      (reference = latestRef → ∃ digest, call = .create latestRef digest ∧ Confirmed T c digest h)

/-- No alias is written. -/
abbrev ReadOnly (t : History Docker) : Prop := ∀ ev ∈ t, ev.call.writes = none

theorem writeGate_of_none {T : Tools} {c : Candidate} {h : History Docker} {call : DockerCall}
    (hn : call.writes = none) : writeGate T c h call := by
  intro reference hw
  rw [hn] at hw
  cases hw

theorem ReadOnly.unwritten {t : History Docker} (ht : ReadOnly t) (reference : Text) :
    Unwritten reference t := by
  intro ev hev hw
  rw [ht ev hev] at hw
  cases hw

theorem Unwritten.append {reference : Text} {t h : History Docker} (ht : Unwritten reference t)
    (hh : Unwritten reference h) : Unwritten reference (t ++ h) :=
  List.forall_mem_append.mpr ⟨ht, hh⟩

theorem SeenAbsent.append {reference : Text} {h : History Docker} (hh : SeenAbsent reference h)
    (t : History Docker) : SeenAbsent reference (t ++ h) := by
  obtain ⟨ev, hev, hs⟩ := hh
  exact ⟨ev, List.mem_append_right t hev, hs⟩

theorem ConfirmedAt.append {reference digest : Text} {t h : History Docker}
    (hh : ConfirmedAt reference digest h) (ht : Unwritten reference t) :
    ConfirmedAt reference digest (t ++ h) := by
  obtain ⟨post, ev, pre, rfl, hs, hw⟩ := hh
  exact ⟨t ++ post, ev, pre, (List.append_assoc _ _ _).symm, hs, ht.append hw⟩

theorem Confirmed.append {T : Tools} {c : Candidate} {digest : Text} {t h : History Docker}
    (hh : Confirmed T c digest h) (hv : Unwritten c.versionRef t) (hs : Unwritten c.sourceRef t) :
    Confirmed T c digest (t ++ h) := by
  obtain ⟨raw, hraw, hok⟩ := hh.verified
  exact ⟨hh.version.append hv, hh.source.append hs, raw, List.mem_append_right t hraw, hok⟩

/-- A computation that writes no alias, with what it learns from its own events. -/
def Reading {α : Type} (x : Publisher α) (K : Except PublishError α → History Docker → Prop) : Prop :=
  ∀ s, wpy (fun _ (call : DockerCall) => call.writes = none) x (fun r _ t => ReadOnly t ∧ K r t) s []

section reading
variable {α β : Type} {T : Tools} {c : Candidate}

theorem Reading.weaken {x : Publisher α} {K K' : Except PublishError α → History Docker → Prop}
    (hx : Reading x K) (h : ∀ r t, K r t → K' r t) : Reading x K' := by
  intro s
  exact wpy_post (hx s) fun r _ t hr => ⟨hr.1, h r _ hr.2⟩

theorem Reading.bind {x : Publisher α} {f : α → Publisher β}
    {K : Except PublishError α → History Docker → Prop}
    {K' : Except PublishError β → History Docker → Prop} (hx : Reading x K)
    (hok : ∀ a t, K (.ok a) t → Reading (f a) fun r u => K' r (u ++ t))
    (herr : ∀ e t, K (.error e) t → K' (.error e) t) : Reading (x >>= f) K' := by
  intro s
  refine wpy_bind.mpr (wpy_post (hx s) fun r s₁ t hr => ?_)
  rw [List.append_nil] at hr ⊢
  cases r with
  | error e => exact ⟨hr.1, herr e t hr.2⟩
  | ok a =>
    rw [either_ok]
    apply wpy_use (hok a t hr.2 s₁)
    · exact fun _ _ hn => hn
    · exact fun r' s' u hu => ⟨List.forall_mem_append.mpr ⟨hu.1, hr.1⟩, hu.2⟩

theorem reading_perform (call : DockerCall) (hn : call.writes = none) :
    Reading (perform (I := Docker) call) fun r t => ∃ answer, r = .ok answer ∧ t = [⟨call, answer⟩] :=
  fun _ => ⟨hn, fun answer => ⟨List.forall_mem_singleton.mpr hn, answer, rfl, rfl⟩⟩

theorem reading_result (x : Except PublishError α) : Reading (result x) fun r t => r = x ∧ t = [] :=
  fun _ => ⟨List.forall_mem_nil _, rfl, rfl⟩

/-- Commands and checks of which nothing is to be remembered. -/
theorem reading_command {call : DockerCall} (hn : call.writes = none)
    {view : call.Ans → Except PublishError α} {f : α → Publisher β} (hf : ∀ a, Reading (f a) fun _ _ => True) :
    Reading (perform (I := Docker) call >>= fun answer => result (view answer) >>= f) fun _ _ => True := by
  apply (reading_perform _ hn).bind
  · intro answer _ _
    apply (reading_result (view answer)).bind
    · exact fun a _ _ => hf a
    · exact fun _ _ _ => trivial
  · exact fun _ _ _ => trivial

theorem reading_inspectAlias (reference : Text) :
    Reading (inspectAlias reference) fun r t => ∀ st, r = .ok st → ∃ ev, t = [ev] ∧ Says reference st ev := by
  rw [inspectAlias]
  apply (reading_perform _ rfl).bind
  · intro o t ho
    obtain ⟨_, ho, rfl⟩ := ho
    cases ho
    refine (reading_result _).weaken fun r u hu st hst => ?_
    obtain ⟨rfl, rfl⟩ := hu
    exact ⟨_, rfl, o, rfl, hst⟩
  · exact fun _ _ h => nomatch h

theorem reading_attest (sbom : Bool) (digest : Text) : Reading (attest sbom digest) fun _ _ => True := by
  rw [attest]
  apply (reading_perform _ rfl).bind
  · exact fun _ _ _ => (reading_result _).weaken fun _ _ _ => trivial
  · exact fun _ _ _ => trivial

theorem reading_verifyDigestIdentity (digest : Text) :
    Reading (verifyDigestIdentity T c digest) fun r t => r = .ok () →
      ∃ raw, ⟨.inspectRaw digest, some raw⟩ ∈ t ∧ verifyRaw T c digest raw = .ok () := by
  rw [verifyDigestIdentity]
  apply (reading_perform _ rfl).bind
  · intro answer t hanswer
    obtain ⟨_, hanswer, rfl⟩ := hanswer
    cases hanswer
    cases answer with
    | none => exact fun _ => ⟨List.forall_mem_nil _, fun h => nomatch h⟩
    | some raw =>
      apply (reading_result (.ok raw)).bind
      · intro raw' u hu
        obtain ⟨hu, rfl⟩ := hu
        cases hu
        cases hraw : verifyRaw T c digest raw with
        | error e => exact fun _ => ⟨List.forall_mem_nil _, fun h => nomatch h⟩
        | ok _ =>
          -- the commands after the raw manifest only add to what was read
          apply Reading.weaken (K := fun _ _ => True)
          · apply (reading_result _).bind
            · intro _ _ _
              apply reading_command rfl
              intro _
              apply (reading_perform _ rfl).bind
              · intro _ _ _
                apply (reading_result _).bind
                · intro _ _ _
                  apply (reading_result _).bind
                  · intro _ _ _
                    apply reading_command rfl
                    exact fun _ => (reading_result _).weaken fun _ _ _ => trivial
                  · exact fun _ _ _ => trivial
                · exact fun _ _ _ => trivial
              · exact fun _ _ _ => trivial
            · exact fun _ _ _ => trivial
          · exact fun _ u _ _ => ⟨raw, by simp, hraw⟩
      · exact fun _ _ h => nomatch h.1
  · exact fun _ _ h => nomatch h

end reading

/-- From the history `h`, every write is one that the gate allows, and a normal end satisfies `P`. -/
def Promotes {α : Type} (T : Tools) (c : Candidate) (x : Publisher α) (h : History Docker)
    (P : α → History Docker → Prop) : Prop :=
  ∀ state, wpy (writeGate T c) x (fun r _ h' => ∀ a, r = .ok a → P a h') state h

section promotes
variable {α β : Type} {T : Tools} {c : Candidate} {h : History Docker}

theorem Promotes.bind {x : Publisher α} {f : α → Publisher β} {P : α → History Docker → Prop}
    {P' : β → History Docker → Prop} (hx : Promotes T c x h P)
    (hf : ∀ a h', P a h' → Promotes T c (f a) h' P') : Promotes T c (x >>= f) h P' := by
  intro state
  refine wpy_bind.mpr (wpy_post (hx state) fun r s' t hr => ?_)
  cases r with
  | error e => exact fun _ h => nomatch h
  | ok a => exact hf a _ (hr a rfl) s'

theorem promotes_pure {a : α} {P : α → History Docker → Prop} (hp : P a h) :
    Promotes T c (pure a) h P := by
  intro state b hb
  cases hb
  exact hp

theorem promotes_set {f : PUnit → Publisher β} {state : Text} {P : β → History Docker → Prop}
    (hf : Promotes T c (f ⟨⟩) h P) : Promotes T c (set state >>= f) h P :=
  fun _ => wpy_bind_set.mpr (hf state)

theorem promotes_raiseIf {b : Bool} {e : PublishError} {f : Unit → Publisher β}
    {P : β → History Docker → Prop} (hf : b = false → Promotes T c (f ()) h P) :
    Promotes T c (raiseIf b e >>= f) h P :=
  fun state => wpy_bind_raiseIf (fun _ _ h => nomatch h) fun hb => hf hb state

theorem promotes_orFail {a : Option α} {f : α → Publisher β} {P : β → History Docker → Prop}
    (hf : ∀ a, Promotes T c (f a) h P) : Promotes T c (result (orFail a) >>= f) h P :=
  fun state => wpy_bind_result (fun a _ => hf a state) fun _ _ _ h => nomatch h

/-- What only reads keeps the history in view. -/
theorem Reading.promotes {x : Publisher α} {K : Except PublishError α → History Docker → Prop}
    (hx : Reading x K) :
    Promotes T c x h fun a h' => ∃ t, h' = t ++ h ∧ ReadOnly t ∧ K (.ok a) t := by
  intro state
  apply wpy_use (hx state)
  · exact fun _ _ hn => writeGate_of_none hn
  intro r s' t hr a ha
  rw [ha] at hr
  exact ⟨t, rfl, hr.1, hr.2⟩

theorem writeGate_of_absent {call : DockerCall} {reference : Text} (hw : call.writes = some reference)
    (hne : reference ≠ latestRef) (hseen : SeenAbsent reference h) (hun : Unwritten reference h) :
    writeGate T c h call := by
  intro reference' hw'
  obtain rfl : reference = reference' := Option.some.inj (hw.symm.trans hw')
  exact ⟨fun _ => ⟨hseen, hun⟩, fun he => absurd he hne⟩

theorem promotes_copyAlias {digest destination state : Text}
    (hg : writeGate T c h (.create destination digest)) :
    Promotes T c (copyAlias digest destination state) h fun _ h' =>
      ∃ answer, h' = ⟨.create destination digest, answer⟩ :: h := by
  apply promotes_set
  intro s
  rw [wpy_bind]
  exact ⟨hg, fun answer _ _ => ⟨answer, rfl⟩⟩

theorem Says.readOnly {reference : Text} {st : AliasState} {ev : Event Docker}
    (h : Says reference st ev) : ReadOnly [ev] := by
  obtain ⟨o, rfl, -⟩ := h
  exact List.forall_mem_singleton.mpr rfl

theorem promotes_inspectAlias {reference : Text} :
    Promotes T c (inspectAlias reference) h fun st h' => ∃ ev, h' = [ev] ++ h ∧ Says reference st ev := by
  intro state
  refine wpy_post ((reading_inspectAlias reference).promotes state) fun r s' t hr st hst => ?_
  obtain ⟨u, hu, -, hshown⟩ := hr st hst
  obtain ⟨ev, rfl, hev⟩ := hshown st rfl
  exact ⟨ev, hu, hev⟩

theorem promotes_reuseAliases {version source : Text} :
    Promotes T c (reuseAliases T c version source) h fun _ _ => True := by
  apply promotes_raiseIf
  intro _
  apply promotes_set
  apply (reading_verifyDigestIdentity version).promotes.bind
  exact fun _ _ _ => promotes_pure trivial

theorem promotes_completeAlias {existing missing missingRef : Text} {p : Published}
    (hne : missingRef ≠ latestRef) (hseen : SeenAbsent missingRef h) (hun : Unwritten missingRef h) :
    Promotes T c (completeAlias T c existing missing missingRef p) h fun _ _ => True := by
  apply promotes_set
  apply (reading_verifyDigestIdentity p.digest).promotes.bind
  intro _ _ hread
  obtain ⟨t, rfl, ht, -⟩ := hread
  apply (promotes_copyAlias _).bind
  · exact fun _ _ _ => promotes_pure trivial
  · exact writeGate_of_absent rfl hne (hseen.append t) ((ht.unwritten _).append hun)

theorem promotes_publishAliases (hv : SeenAbsent c.versionRef h) (hs : SeenAbsent c.sourceRef h)
    (huv : Unwritten c.versionRef h) (hus : Unwritten c.sourceRef h) :
    Promotes T c (publishAliases T c) h fun _ _ => True := by
  apply (reading_perform (.tag c.versionRef) rfl).promotes.bind
  intro _ _ htag
  obtain ⟨t, rfl, ht, -⟩ := htag
  apply promotes_orFail
  intro _
  apply promotes_set
  intro state
  refine wpy_bind.mpr ⟨?_, fun answer => ?_⟩
  · exact writeGate_of_absent rfl c.versionRef_ne_latest (hv.append t) ((ht.unwritten _).append huv)
  -- the source alias is still as it was found
  have hus' : Unwritten c.sourceRef (⟨.push c.versionRef, answer⟩ :: (t ++ h)) :=
    List.forall_mem_cons.mpr
      ⟨fun he => c.versionRef_ne_sourceRef (Option.some.inj he), (ht.unwritten _).append hus⟩
  have hs' : SeenAbsent c.sourceRef (⟨.push c.versionRef, answer⟩ :: (t ++ h)) :=
    (hs.append t).append [_]
  refine promotes_orFail (T := T) (c := c) (fun _ => ?_) state
  apply promotes_inspectAlias.bind
  intro st _ hst
  obtain ⟨ev, rfl, hshown⟩ := hst
  cases st with
  | absent => exact fun _ _ h => nomatch h
  | present selected =>
    apply promotes_set
    apply (reading_verifyDigestIdentity selected).promotes.bind
    intro _ _ hread
    obtain ⟨u, rfl, hu, -⟩ := hread
    apply (promotes_copyAlias _).bind
    · exact fun _ _ _ => promotes_pure trivial
    · apply writeGate_of_absent rfl c.sourceRef_ne_latest
      · exact (hs'.append [ev]).append u
      · exact (hu.unwritten _).append ((hshown.readOnly.unwritten _).append hus')

theorem promotes_selectDigest {version source : AliasState}
    (hv : version = .absent → SeenAbsent c.versionRef h) (hs : source = .absent → SeenAbsent c.sourceRef h)
    (huv : Unwritten c.versionRef h) (hus : Unwritten c.sourceRef h) :
    Promotes T c (selectDigest T c version source) h fun _ _ => True := by
  cases version with
  | absent =>
    cases source with
    | absent => exact promotes_publishAliases (hv rfl) (hs rfl) huv hus
    | present _ => exact promotes_completeAlias c.versionRef_ne_latest (hv rfl) huv
  | present _ =>
    cases source with
    | absent => exact promotes_completeAlias c.sourceRef_ne_latest (hs rfl) hus
    | present _ => exact promotes_reuseAliases

theorem promotes_confirmAliases {p : Published} :
    Promotes T c (confirmAliases T c p) h fun _ h' => Confirmed T c p.digest h' := by
  apply promotes_inspectAlias.bind
  intro version _ hversion
  obtain ⟨ev, rfl, hshown⟩ := hversion
  apply promotes_inspectAlias.bind
  intro source _ hsource
  obtain ⟨ev', rfl, hshown'⟩ := hsource
  apply promotes_raiseIf
  intro hsame
  rw [Bool.or_eq_false_iff, bne_eq_false_iff_eq, bne_eq_false_iff_eq] at hsame
  obtain ⟨rfl, rfl⟩ := hsame
  apply promotes_set
  apply (reading_verifyDigestIdentity p.digest).promotes.bind
  intro _ _ hread
  obtain ⟨t, rfl, ht, hverified⟩ := hread
  obtain ⟨raw, hraw, hok⟩ := hverified rfl
  intro state _ _
  refine ⟨⟨t ++ [ev'], ev, h, by simp, hshown, ?_⟩, ⟨t, ev', [ev] ++ h, rfl, hshown', ht.unwritten _⟩,
    raw, List.mem_append_left _ hraw, hok⟩
  exact (ht.unwritten _).append (hshown'.readOnly.unwritten _)

theorem promotes_promoteAliases :
    Promotes T c (promoteAliases T c) [] fun p h' => Confirmed T c p.digest h' := by
  apply promotes_inspectAlias.bind
  intro version _ hversion
  obtain ⟨ev, rfl, hshown⟩ := hversion
  apply promotes_inspectAlias.bind
  intro source _ hsource
  obtain ⟨ev', rfl, hshown'⟩ := hsource
  have hread : ReadOnly ([ev'] ++ ([ev] ++ [])) :=
    List.forall_mem_append.mpr ⟨hshown'.readOnly, (List.append_nil [ev]).symm ▸ hshown.readOnly⟩
  apply (promotes_selectDigest (c := c) _ _ (hread.unwritten _) (hread.unwritten _)).bind
  · intro p _ _
    apply promotes_confirmAliases.bind
    exact fun _ _ hc => promotes_pure hc
  · rintro rfl
    exact ⟨ev, by simp, hshown⟩
  · rintro rfl
    exact ⟨ev', by simp, hshown'⟩

theorem promotes_promoteLatest {digest : Text} (hc : Confirmed T c digest h) :
    Promotes T c (promoteLatest digest) h fun _ h' => Confirmed T c digest h' := by
  have hgate : writeGate T c h (.create latestRef digest) := by
    intro reference hw
    obtain rfl : latestRef = reference := Option.some.inj hw
    exact ⟨fun hne => absurd rfl hne, fun _ => ⟨digest, rfl, hc⟩⟩
  apply (promotes_copyAlias hgate).bind
  intro _ _ hcopy
  obtain ⟨answer, rfl⟩ := hcopy
  apply (reading_perform (.inspect latestRef) rfl).promotes.bind
  intro o _ hinspect
  obtain ⟨t, rfl, ht, -⟩ := hinspect
  apply promotes_raiseIf
  intro _
  apply promotes_raiseIf
  intro _ state _ _
  have hother {reference : Text} (hne : reference ≠ latestRef) :
      Unwritten reference [⟨.create latestRef digest, answer⟩] :=
    List.forall_mem_singleton.mpr fun he => hne (Option.some.inj he).symm
  have hcopied := hc.append (hother c.versionRef_ne_latest) (hother c.sourceRef_ne_latest)
  exact hcopied.append (ht.unwritten _) (ht.unwritten _)

theorem promotes_publish : Promotes T c (publish T c) [] fun p h' => Confirmed T c p.digest h' := by
  apply promotes_promoteAliases.bind
  intro p h₁ hc₁
  apply (reading_attest false p.digest).promotes.bind
  intro _ _ hattest
  obtain ⟨t, rfl, ht, -⟩ := hattest
  apply (reading_attest true p.digest).promotes.bind
  intro _ _ hattest'
  obtain ⟨t', rfl, ht', -⟩ := hattest'
  have hc := (hc₁.append (ht.unwritten _) (ht.unwritten _)).append (ht'.unwritten _) (ht'.unwritten _)
  cases hlatest : c.publishLatest with
  | false => exact promotes_pure hc
  | true =>
    apply (promotes_promoteLatest hc).bind
    exact fun _ _ hc' => promotes_pure hc'

end promotes

/-! ## Runs -/

/-- What one run of a publisher, whole or cut short, does to the registry. -/
structure RunKept (T : Tools) (content : Text → Option Bytes) (R : Aliases) (c : Candidate)
    (h : History Docker) (S : Aliases) : Prop where
  /-- An immutable alias that is present keeps its digest. -/
  immutable : ∀ reference ≠ latestRef, ∀ digest, R reference = some digest → S reference = some digest
  /-- A run that succeeds leaves both aliases at one digest, whose config is the tested one. -/
  successful : ∀ p state, Ends (publish T c) [] [] (.ok p) state h →
    S c.versionRef = some p.digest ∧ S c.sourceRef = some p.digest ∧
      ∃ raw manifest, content p.digest = some raw ∧ p.digest = "sha256:" ++ T.sha256 raw ∧
        T.loads raw = some manifest ∧ configDigest manifest = some c.testedConfigDigest
  /-- An immutable alias is written only after it was found absent, and not yet written. -/
  absentFirst : ∀ post ev pre reference, h = post ++ ev :: pre → ev.call.writes = some reference →
    reference ≠ latestRef → SeenAbsent reference pre ∧ Unwritten reference pre
  /-- `latest` is written only after both aliases were confirmed, and at their digest. -/
  latestLast : ∀ post ev pre, h = post ++ ev :: pre → ev.call.writes = some latestRef →
    ∃ digest, ev.call = .create latestRef digest ∧ Confirmed T c digest pre

/-- Runs one after the other, each whole or cut short anywhere, with the registry between them. -/
inductive Serialized (T : Tools) (content : Text → Option Bytes) :
    Aliases → List (Candidate × History Docker) → Aliases → Prop where
  | nil {R : Aliases} : Serialized T content R [] R
  | cons {R S S' : Aliases} {c : Candidate} {h : History Docker}
      {runs : List (Candidate × History Docker)} :
      Reaches ((publish T c).prog []) [] h → Observed content R h S →
      Serialized T content S runs S' → Serialized T content R ((c, h) :: runs) S'

/-- As `Serialized`, with what each run is known to do. -/
inductive AllKept (T : Tools) (content : Text → Option Bytes) :
    Aliases → List (Candidate × History Docker) → Aliases → Prop where
  | nil {R : Aliases} : AllKept T content R [] R
  | cons {R S S' : Aliases} {c : Candidate} {h : History Docker}
      {runs : List (Candidate × History Docker)} : RunKept T content R c h S →
      AllKept T content S runs S' → AllKept T content R ((c, h) :: runs) S'

section runs
variable {T : Tools} {content : Text → Option Bytes} {R S : Aliases} {c : Candidate}
  {h : History Docker}

theorem writeGate_reached (hr : Reaches ((publish T c).prog []) [] h) {post pre : History Docker}
    {ev : Event Docker} (hs : h = post ++ ev :: pre) : writeGate T c pre ev.call :=
  wp_reaches (promotes_publish (T := T) (c := c) []) hr hs (Nat.zero_le _)

/-- An alias that was present is not written. -/
theorem unwritten_of_present (hr : Reaches ((publish T c).prog []) [] h)
    (ho : Observed content R h S) {reference digest : Text} (hne : reference ≠ latestRef)
    (hp : R reference = some digest) : Unwritten reference h := by
  intro ev hev hw
  obtain ⟨post, pre, hs⟩ := List.append_of_mem hev
  obtain ⟨hseen, hun⟩ := (writeGate_reached hr hs reference hw).1 hne
  rw [hs] at ho
  obtain ⟨M, hM, -⟩ := ho.split
  cases hM with
  | cons hpre _ =>
    rw [hpre.absent hseen hun] at hp
    cases hp

theorem Observed.stored {digest : Text} {raw : Bytes} (ho : Observed content R h S)
    (hmem : ⟨.inspectRaw digest, some raw⟩ ∈ h) : content digest = some raw := by
  induction ho with
  | nil => cases hmem
  | cons _ hlast ih =>
    rcases List.mem_cons.mp hmem with heq | hmem
    · subst heq
      cases hlast with
      | inspectRaw hraw => exact hraw raw rfl
    · exact ih hmem

theorem of_orInvalid {α : Type} {value : Option α} {text : Text} {a : α}
    (h : orInvalid value text = .ok a) : value = some a := by
  cases value with
  | none => cases h
  | some b =>
    cases h
    rfl

theorem of_checkManifest {raw : Bytes} (h : checkManifest T c raw = .ok ()) :
    ∃ manifest, T.loads raw = some manifest ∧ configDigest manifest = some c.testedConfigDigest := by
  rw [checkManifest] at h
  obtain ⟨manifest, hload, h⟩ := bind_eq_ok.mp h
  obtain ⟨_, -, h⟩ := bind_eq_ok.mp h
  obtain ⟨_, -, h⟩ := bind_eq_ok.mp h
  obtain ⟨_, -, h⟩ := bind_eq_ok.mp h
  obtain ⟨_, -, h⟩ := bind_eq_ok.mp h
  obtain ⟨_, hconfig, -⟩ := bind_eq_ok.mp h
  refine ⟨manifest, of_orInvalid hload, ?_⟩
  simp only [refuseWhen_eq_ok, Bool.or_eq_false_iff, bne_eq_false_iff_eq] at hconfig
  exact hconfig.1.1.1

/-- A raw manifest that passes the checks has the requested digest, and the tested config. -/
theorem of_verifyRaw {digest : Text} {raw : Bytes} (h : verifyRaw T c digest raw = .ok ()) :
    digest = "sha256:" ++ T.sha256 raw ∧ ∃ manifest, T.loads raw = some manifest ∧
      configDigest manifest = some c.testedConfigDigest := by
  rw [verifyRaw] at h
  obtain ⟨_, -, h⟩ := bind_eq_ok.mp h
  obtain ⟨_, hdigest, h⟩ := bind_eq_ok.mp h
  obtain ⟨_, -, h⟩ := bind_eq_ok.mp h
  rw [refuseWhen_eq_ok, bne_eq_false_iff_eq] at hdigest
  refine ⟨hdigest.symm, ?_⟩
  cases hcheck : checkManifest T c raw with
  | ok _ => exact of_checkManifest hcheck
  | error e =>
    rw [hcheck] at h
    cases h

theorem run_kept (hr : Reaches ((publish T c).prog []) [] h) (ho : Observed content R h S) :
    RunKept T content R c h S where
  immutable reference hne digest hp := by
    rw [ho.unwritten (unwritten_of_present hr ho hne hp)]
    exact hp
  successful p state he := by
    have hc := wpy_ends (promotes_publish (T := T) (c := c) []) he p rfl
    obtain ⟨raw, hraw, hok⟩ := hc.verified
    obtain ⟨hdigest, manifest, hload, hconfig⟩ := of_verifyRaw hok
    exact ⟨ho.confirmed hc.version, ho.confirmed hc.source, raw, manifest, ho.stored hraw, hdigest,
      hload, hconfig⟩
  absentFirst post ev pre reference hs hw hne := (writeGate_reached hr hs reference hw).1 hne
  latestLast post ev pre hs hw := (writeGate_reached hr hs latestRef hw).2 rfl

theorem AllKept.immutable {runs : List (Candidate × History Docker)} (h : AllKept T content R runs S)
    {reference : Text} (hne : reference ≠ latestRef) {digest : Text} (hp : R reference = some digest) :
    S reference = some digest := by
  induction h with
  | nil => exact hp
  | cons hrun _ ih => exact ih (hrun.immutable reference hne digest hp)

/-- Over any serialized runs: each run keeps what it must, and no immutable alias changes. -/
theorem release_aliases_kept {runs : List (Candidate × History Docker)}
    (hruns : Serialized T content R runs S) :
    AllKept T content R runs S ∧
      ∀ reference ≠ latestRef, ∀ digest, R reference = some digest → S reference = some digest := by
  have hkept : AllKept T content R runs S := by
    induction hruns with
    | nil => exact .nil
    | cons hr ho _ ih => exact .cons (run_kept hr ho) ih
  exact ⟨hkept, fun _ hne _ hp => hkept.immutable hne hp⟩

end runs

/-! A run that is cut short by a push whose answer is lost, and one that completes it. -/

def siteDigest (c : Char) : Text := "sha256:" ++ List.replicate 64 c

def siteManifest : Json :=
  .obj [("schemaVersion".toList, .int 2),
    ("mediaType".toList, .str "application/vnd.oci.image.manifest.v1+json"),
    ("config".toList, .obj [("digest".toList, .str (siteDigest 'a')),
      ("mediaType".toList, .str "application/vnd.oci.image.config.v1+json"), ("size".toList, .int 7)]),
    ("layers".toList, .arr [.obj [("mediaType".toList, .str "application/vnd.oci.image.layer.v1.tar+gzip"),
      ("digest".toList, .str (siteDigest 'b')), ("size".toList, .int 9)]])]

def siteTools : Tools where
  sha256 _ := List.replicate 64 'c'
  loads _ := some siteManifest
  loadsArgument _ := some (.arr [.str (siteDigest 'd')])
  loadsPlain _ := some (.arr [.str (siteDigest 'd')])

def siteCandidate : Candidate where
  releaseTag := "v1.2.0-rc1"
  commitSha := List.replicate 40 'e'
  testedConfigDigest := siteDigest 'a'
  archiveManifestDigest := []
  candidateLayerDiffIds := []
  publishLatest := false
  tagValid := by decide
  commitValid := by decide

def notFound (reference : Text) : CommandOutput :=
  ⟨1, [], "ERROR: " ++ reference ++ ": not found\n"⟩

def foundAt (digest : Text) : CommandOutput := ⟨0, "Name: image\nDigest: " ++ digest ++ "\n", []⟩

/-- A registry without the aliases, where the answer of a push is lost. -/
def forgetfulDocker : Environment Docker
  | _, .inspect reference => notFound reference
  | _, .tag _ => some ()
  | _, .inspectRaw _ | _, .imageId _ | _, .rootfsLayers _ => none
  | _, .pull _ | _, .push _ | _, .create _ _ | _, .attest _ _ => none

/-- The registry after that push. -/
def resumingDocker : Environment Docker
  | h, .inspect reference =>
    if reference = siteCandidate.versionRef ∨ h.any fun ev => ev.call.writes = some reference then
      foundAt (siteDigest 'c')
    else notFound reference
  | _, .inspectRaw _ => some [1]
  | _, .imageId _ => some (siteDigest 'a')
  | _, .rootfsLayers _ => some []
  | _, .pull _ | _, .tag _ | _, .push _ | _, .create _ _ | _, .attest _ _ => some ()

/-- `verify_digest_identity`, newest event first. -/
def verifiedAt (digest : Text) : History Docker :=
  [⟨.rootfsLayers digest, some []⟩, ⟨.imageId digest, some (siteDigest 'a')⟩, ⟨.pull digest, some ()⟩,
    ⟨.inspectRaw digest, some [1]⟩]

def inspected (reference : Text) (o : CommandOutput) : Event Docker := ⟨.inspect reference, o⟩

def lostPush : History Docker :=
  [⟨.push siteCandidate.versionRef, none⟩, ⟨.tag siteCandidate.versionRef, some ()⟩,
    inspected siteCandidate.sourceRef (notFound siteCandidate.sourceRef),
    inspected siteCandidate.versionRef (notFound siteCandidate.versionRef)]

def resumed : History Docker :=
  let d := siteDigest 'c'
  ([⟨.attest true d, some ()⟩, ⟨.attest false d, some ()⟩] : History Docker) ++ (verifiedAt d ++
    (inspected siteCandidate.sourceRef (foundAt d) :: inspected siteCandidate.versionRef (foundAt d) ::
      ⟨.create siteCandidate.sourceRef d, some ()⟩ :: (verifiedAt d ++
        [inspected siteCandidate.sourceRef (notFound siteCandidate.sourceRef),
          inspected siteCandidate.versionRef (foundAt d)])))

theorem reaches_lostPush :
    Reaches ((publish siteTools siteCandidate).prog []) [] lostPush :=
  play_reaches forgetfulDocker _ []

set_option maxRecDepth 20000 in
theorem reaches_resumed :
    Reaches ((publish siteTools siteCandidate).prog []) [] resumed :=
  play_reaches resumingDocker _ []

section site
variable {R : Aliases} {reference : Text}

theorem truthful_notFound (h : R reference = none) : Truthful R reference (notFound reference) :=
  ⟨(fun hz => nomatch hz), fun _ _ => h⟩

theorem truthful_foundAt (h : R reference = some (siteDigest 'c')) :
    Truthful R reference (foundAt (siteDigest 'c')) :=
  ⟨fun _ => h.trans rfl, fun hz => absurd rfl hz⟩

theorem Observed.verifiedAt {S : Aliases} {h : History Docker} {digest : Text}
    (ho : Observed (fun _ => some [1]) R h S) :
    Observed (fun _ => some [1]) R (verifiedAt digest ++ h) S :=
  .cons (.cons (.cons (.cons ho (.inspectRaw fun _ hraw => hraw)) .pull) .imageId) .rootfsLayers

end site

/-- The aliases after the lost push, and after the run that completed it. -/
def pushedAliases : Aliases :=
  Function.update (fun _ => none) siteCandidate.versionRef (some (siteDigest 'c'))

def copiedAliases : Aliases :=
  Function.update pushedAliases siteCandidate.sourceRef (some (siteDigest 'c'))

theorem pushed_version : pushedAliases siteCandidate.versionRef = some (siteDigest 'c') :=
  Function.update_self _ _ _

theorem pushed_source : pushedAliases siteCandidate.sourceRef = none :=
  Function.update_of_ne siteCandidate.versionRef_ne_sourceRef.symm _ _

theorem copied_version : copiedAliases siteCandidate.versionRef = some (siteDigest 'c') :=
  (Function.update_of_ne siteCandidate.versionRef_ne_sourceRef _ _).trans pushed_version

theorem copied_source : copiedAliases siteCandidate.sourceRef = some (siteDigest 'c') :=
  Function.update_self _ _ _

theorem observed_lostPush : Observed (fun _ => some [1]) (fun _ => none) lostPush pushedAliases :=
  .cons (.cons (.cons (.cons .nil (.inspect (truthful_notFound rfl)))
    (.inspect (truthful_notFound rfl))) .tag) .push

theorem observed_resumed : Observed (fun _ => some [1]) pushedAliases resumed copiedAliases := by
  apply Observed.cons _ .attest
  apply Observed.cons _ .attest
  apply Observed.verifiedAt
  apply Observed.cons _ (.inspect (truthful_foundAt copied_source))
  apply Observed.cons _ (.inspect (truthful_foundAt copied_version))
  apply Observed.cons _ .create
  apply Observed.verifiedAt
  apply Observed.cons _ (.inspect (truthful_notFound pushed_source))
  exact .cons .nil (.inspect (truthful_foundAt pushed_version))

theorem release_aliases_kept_resumed :
    AllKept siteTools (fun _ => some [1]) (fun _ => none)
        [(siteCandidate, lostPush), (siteCandidate, resumed)] copiedAliases ∧
      ∀ reference ≠ latestRef, ∀ digest, (none : Option Text) = some digest →
        copiedAliases reference = some digest :=
  release_aliases_kept
    (.cons reaches_lostPush observed_lostPush (.cons reaches_resumed observed_resumed .nil))

end ArubaCertRenewer
