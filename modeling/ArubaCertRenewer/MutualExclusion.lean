import ArubaCertRenewer.Aggregation
import ArubaCertRenewer.DriverCalls
import ArubaCertRenewer.FileLock
import ArubaCertRenewer.RecordTruth
import ArubaCertRenewer.SessionCalls

/- The lifecycle lock between processes.

   Any number of invocations run at once on one host, each `main` with arguments
   and a platform of its own, their calls interleaved in any order, and any of
   them may be killed at any point. `lockOp` is what a call is to the lock store. -/
namespace ArubaCertRenewer
open PyText Effects Effects.Py

/-- What an event was to the lock store. A path that names no regular file is none of the locks. -/
def lockOp : Event World → FileLock.Op Text (Nat × Nat)
  | ⟨.openLockFile name _, .ok fd⟩ => .opened name fd
  | ⟨.flock fd, .ok _⟩ => .locked fd
  | ⟨.fstat fd, .ok m⟩ => .saw fd m.identity
  | ⟨.statLockPath name _, .ok m⟩ => if m.regular then .named name m.identity else .other
  | ⟨.closeFd fd, _⟩ => .closed fd
  | _ => .other

/-- The process holds the lock of the name. -/
abbrev InLock (name : Text) (h : History World) : Prop := FileLock.Inside lockOp name h

theorem lockOp_of_group {c : Call} (hc : c.group ≠ .lock) (r : Call.Ans c) : lockOp ⟨c, r⟩ = .other := by
  cases c with
  | openLockFile _ _ | flock _ | fstat _ | statLockPath _ _ | closeFd _ => exact absurd rfl hc
  | _ => rfl

/-- A call that changes something is made inside the lock of the switch connected to. -/
def Exclusive (P : Platform) (h : History World) (c : Call) : Prop :=
  ¬ c.Harmless → ∃ d name, lastDevice h = some d ∧ lockFilename P d.host = .ok name ∧ InLock name h

section
variable {σ α : Type} {P : Platform} {host : Text} {h : History World} {c : Call} {x : Act σ α}

theorem exclusive_of_harmless (hc : c.Harmless) : Exclusive P h c := fun hno => absurd hc hno

theorem exclusive_of_none (hc : c.mark? = none) : Exclusive P h c :=
  exclusive_of_harmless (harmless_of_none hc)

theorem Markless.exclusive (hx : Markless x) : Obeys (Exclusive P) x :=
  Obeys.mono hx fun _ _ => exclusive_of_none

/-! ## The lock -/

/-- An acquisition that succeeds leaves the process inside the lock of the host. -/
theorem openAndLock_inside {fds : LockFds} : wpy (Exclusive P) (openAndLock P host)
    (fun r _ h' => r = .ok () → ∃ name, lockFilename P host = .ok name ∧ InLock name h') fds h := by
  unfold openAndLock
  refine wpy_bind_ask (exclusive_of_none rfl) (fun r₁ directoryFd h₁ => ?_) fun _ _ _ he => by cases he
  rw [wpy_bind_modify]
  refine wpy_bind_ask (exclusive_of_none rfl) (fun r₂ m h₂ => ?_) fun _ _ _ he => by cases he
  refine wpy_bind_result (fun _ _ => ?_) fun _ _ he => by cases he
  refine wpy_bind_result (fun name hname => ?_) fun _ _ he => by cases he
  refine wpy_bind_ask (exclusive_of_none rfl) (fun r₃ lockFd h₃ => ?_) fun _ _ _ he => by cases he
  rw [wpy_bind_modify]
  refine wpy_bind_ask (exclusive_of_none rfl) (fun r₄ m' h₄ => ?_) fun _ _ _ he => by cases he
  refine wpy_bind_result (fun _ _ => ?_) fun _ _ he => by cases he
  refine wpy_bind.mpr (wpy_handle.mpr (wpy_ask.mpr ⟨exclusive_of_none rfl, fun r₅ => ?_⟩))
  cases r₅ with
  | error e => exact fun he => by cases he
  | ok u =>
  rw [liftStd_ok, either_ok, either_ok]
  refine wpy_bind_ask (exclusive_of_none rfl) (fun r₆ metadata h₆ => ?_) fun _ _ _ he => by cases he
  refine wpy_bind_result (fun _ _ => ?_) fun _ _ he => by cases he
  refine wpy_bind_ask (exclusive_of_none rfl) (fun r₇ pathname h₇ => ?_) fun _ _ _ he => by cases he
  refine wpy_raiseIf.mpr ⟨fun _ he => (by cases he), fun hsame _ => ⟨name, hname, lockFd, ?_⟩⟩
  subst h₁ h₂ h₃ h₄ h₆ h₇
  obtain ⟨hidentity, hregular⟩ : pathname.identity = metadata.identity ∧ pathname.regular = true := by
    simpa using hsame
  simp [FileLock.phase_cons, lockOp, FileLock.Phase.next, hidentity, hregular]

theorem acquireLock_inside : wpy (Exclusive P) (acquireLock P host)
    (fun r _ h' => ∀ fds, r = .ok fds → ∃ name, lockFilename P host = .ok name ∧ InLock name h') {} h := by
  refine wpy_bind.mpr (wpy_handle.mpr (wpy_post openAndLock_inside fun r fds t hr => ?_))
  cases r with
  | ok u => exact fun _ _ => hr rfl
  | error e =>
    rw [either_error, wpy_bind_get]
    exact wpy_seq (locking_releaseLock.markless.exclusive _ _) (fun _ _ _ _ _ he => by cases he)
      fun _ _ _ _ _ he => by cases he

/-- What works on the switch inside its lock is exclusive. -/
theorem exclusive_lifecycleLock (hx : Obeys (Working host) x) :
    Obeys (Exclusive P) (lifecycleLock P host x) := by
  intro s h
  refine wpy_within.mpr (wpy_alone.mpr (wpy_post acquireLock_inside fun r fds t hin => ?_))
  cases r with
  | error e => trivial
  | ok held =>
  rw [either_ok]
  obtain ⟨name, hname, hin⟩ := hin held rfl
  have hkeep : ∀ h c r, InLock name h → Working host h c → InLock name (⟨c, r⟩ :: h) := by
    intro h c r hin hc
    obtain ⟨fd, hfd⟩ := hin
    refine ⟨fd, ?_⟩
    rw [FileLock.phase_cons, lockOp_of_group hc.unlocked, hfd]
    rfl
  have hbody := wp_invariant (hx s (t ++ h)) hkeep hin
  refine wp_mono hbody (fun u c hc hno => ?_) fun r u _ => ?_
  · obtain ⟨d, hd, hhost⟩ := hc.2.connected hno
    exact ⟨d, name, hd, hhost ▸ hname, hc.1⟩
  · refine wpy_alone.mpr (wpy_post (locking_releaseLock.markless.exclusive () _) fun _ _ _ _ => trivial)

end

/-! ## The drivers -/

section drivers
variable {σ : Type} {P : Platform} {switch : Switch} {credentials : Credentials} {warningDays : Nat}
  {operation : Operation}

/-- What runs without the lock changes nothing. -/
theorem exclusive_free (hl : operation.locked = false) :
    Allowed (Exclusive P) P switch credentials warningDays operation := by
  cases operation with
  | inspect => exact Obeys.mono harmless_checkSwitch.makes fun _ _ => exclusive_of_harmless
  | retrieveCsr name csr csrOutput =>
    exact fun _ _ => wpy_retrieveCsr (fun _ _ _ => exclusive_of_none)
      (fun d _ _ => exclusive_of_harmless (harmless_connect d)) (fun _ _ _ _ _ => trivial) fun _ _ _ _ => trivial
  | generateCsr _ _ _ | signCsr _ _ _ _ | install _ _ _ _ _ | renewNow _ _ _ | renewDue _ _ _ => cases hl

theorem working_operation : Allowed (Working switch.host) P switch credentials warningDays operation := by
  cases operation with
  | inspect => exact working_checkSwitch
  | renewDue csr opnsense ca => exact ⟨working_checkSwitch, working_renewCertificate⟩
  | renewNow csr opnsense ca => exact working_renewCertificate
  | generateCsr name csr csrOutput => exact working_generateCsr
  | retrieveCsr name csr csrOutput => exact working_retrieveCsr
  | signCsr name csr opnsense certificateOutput => exact working_signPendingCsr
  | install name csr opnsense ca certificatePem =>
    exact ⟨working_installPendingCertificate, fun _ => working_verifyLiveHttpsCertificate⟩

theorem governs_exclusive : Governs (Exclusive P) Working P fun _ => True where
  idle _ _ hc := exclusive_of_none (idle_iff.mp hc).1
  idle_locked _ _ _ := working_of_idle
  lock := exclusive_lifecycleLock
  free _ := exclusive_free
  locked _ _ := working_operation

/-- Every call of `main` that changes something is made inside the lock of the switch connected to. -/
theorem exclusive_main {a : Args} : Obeys (Exclusive P) (main P a : Act σ Nat) := by
  have hstart : Obeys (Exclusive P) (startup P a : Act Unit Startup) :=
    obeys_idle governs_exclusive.idle passwordless_startup.idle
  unfold main
  split
  · refine .bind' (.bind' (.within' (.ask' fun _ => exclusive_of_none rfl)
      (fun _ _ => .ask' fun _ => exclusive_of_none rfl) fun _ => ?_) fun _ => .pure' _) fun _ => .pure' _
    refine .bind' (.attempt' (.alone' hstart)) fun r => ?_
    cases r with
    | ok s => exact .bind' (governs_exclusive.jsonSwitches trivial s.switches) fun _ => .pure' _
    | error e =>
      dsimp only
      split
      · exact .pure' _
      · exact .pure' _
  · refine .bind' (.attempt' (.alone' hstart)) fun r => ?_
    cases r with
    | ok s => exact governs_exclusive.runHuman trivial
    | error e => exact obeys_exit

end drivers

/-! ## All invocations -/

/-- What a process runs. -/
def invocation (P : Platform) (a : Args) : Prog World (Except Exc Nat × Unit) :=
  (main P a : Act Unit Nat).prog ()

/-- However the calls of any number of invocations interleave, whichever of them are killed, and
whatever files are put under the names of locks nobody is inside of: at most one invocation is inside
a lock, and one that is about to change something is alone inside the lock of the switch it is
connected to. -/
theorem invocations_exclusive {ι : Type} [DecidableEq ι] (P : ι → Platform) (a : ι → Args)
    (c : Config World ι (FileLock.Store Text (Nat × Nat) ι))
    (hc : Reached (FileLock.lockFiles lockOp) (fun i => invocation (P i) (a i)) c) :
    (∀ i j name, c.live i → c.live j → InLock name (c.history i) → InLock name (c.history j) → i = j) ∧
      ∀ i ev, c.live i → Reaches (invocation (P i) (a i)) [] (ev :: c.history i) → ¬ ev.call.Harmless →
        ∃ d name, lastDevice (c.history i) = some d ∧ lockFilename (P i) d.host = .ok name ∧
          InLock name (c.history i) ∧ ∀ j, c.live j → InLock name (c.history j) → j = i := by
  have hone : ∀ i j name, c.live i → c.live j → InLock name (c.history i) → InLock name (c.history j) →
      i = j := fun i j name hi hj => FileLock.inside_exclusive hc hi hj
  refine ⟨hone, fun i ev hi hreach hchanges => ?_⟩
  obtain ⟨d, name, hd, hname, hin⟩ :=
    wp_reaches (exclusive_main () []) hreach (List.nil_append _).symm (Nat.zero_le _) hchanges
  exact ⟨d, name, hd, hname, hin, fun j hj hinj => hone j i name hj hi hinj hin⟩

/-! Two invocations that generate a CSR for one switch. -/

def generatePlatform : Platform :=
  { sitePlatform certificatePemText with
    tomlLoads := fun _ => some [
      ("switches", .array [.table
        [("name", .string "lab"), ("host", .string "switch.example"), ("username", .string "admin")]]),
      ("ssh", .table [("known_hosts_file", .string "/known_hosts")]),
      ("csr", .table [("organization", .string "Org"), ("organizational_unit", .string "Unit"),
        ("locality", .string "City"), ("state", .string "State"), ("country", .string "US"),
        ("key_type", .string "rsa"), ("key_size", .integer 2048)])] }

def generateArgs : Args :=
  { config := "/config", switchName := some "lab", generateCsr := true, certificateName := some "new-cert" }

def generateHistory : History World := (play site.calm (invocation generatePlatform generateArgs) []).2

/-- Every name is that of the lock file the site shows. -/
def lockStore : FileLock.Store Text (Nat × Nat) Bool := ⟨fun _ => some (1, 2), fun _ _ => none, fun _ => none⟩

/-- One is about to send the create command inside the lock, and the other is not inside. -/
theorem invocations_exclusive_site : ∃ c, Reached (FileLock.lockFiles lockOp)
      (fun _ : Bool => invocation generatePlatform generateArgs) c ∧
    c.history true = generateHistory.drop 15 ∧ c.live true ∧ c.live false ∧
    ∃ name, InLock name (c.history true) ∧ ¬ InLock name (c.history false) := by
  have hserved : (lockStore.serveAll lockOp true (generateHistory.drop 15)).isSome = true := by decide +kernel
  obtain ⟨s, hs⟩ := Option.isSome_iff_exists.mp hserved
  have hnext : ((generateHistory.drop 14).head?.any fun ev => ev.call.mark?.any Mark.mutates) = true := by
    decide +kernel
  obtain ⟨ev, hev, hmutates⟩ := (Option.any_eq_true _ _).mp hnext
  have hcut : generateHistory.drop 14 = ev :: generateHistory.drop 15 := by
    rw [← List.cons_head?_tail hev, List.tail_drop]
  have hchanges : ¬ ev.call.Harmless := by
    intro hno
    obtain ⟨m, hm, hm'⟩ := (Option.any_eq_true _ _).mp hmutates
    cases (hno m hm).symm.trans hm'
  have hreaches : ∀ {t}, t <:+ generateHistory →
      Reaches (invocation generatePlatform generateArgs) [] t := fun ht =>
    (play_reaches site.calm _ []).of_suffix ht (Nat.zero_le _)
  have hstart : Reached (FileLock.lockFiles lockOp)
      (fun _ : Bool => invocation generatePlatform generateArgs) (.start World Bool lockStore) := .start lockStore
  have hreached := hstart.run (i := true) trivial (FileLock.served_of_serveAll hs)
    ((List.append_nil _).symm ▸ hreaches (List.drop_suffix _ _))
  refine ⟨_, hreached, by simp [Config.start], trivial, trivial, ?_⟩
  obtain ⟨hone, halone⟩ := invocations_exclusive _ _ _ hreached
  obtain ⟨d, name, -, -, hin, -⟩ := halone true ev trivial
    (by simpa [Config.start, hcut] using hreaches (hcut ▸ List.drop_suffix 14 _)) hchanges
  exact ⟨name, hin, fun hin' => Bool.noConfusion (hone true false name trivial trivial hin hin')⟩

end ArubaCertRenewer
