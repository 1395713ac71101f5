import ArubaCertRenewer.ClientArguments

/- The names of an issued certificate against those of the switch.

   `validate_issued_certificate` compares sets and one length: as many names as there are
   expected ones, and the same set. That leaves exactly the orders of the expected names,
   each once. DNS names are compared by `str.casefold`, which on ASCII texts is the case
   of letters, and beyond them more: a long s folds to an s. -/
namespace ArubaCertRenewer
open PyText IpAddress

/-! ## Lists without repeats -/

theorem eraseDups_of_nodup {α : Type} [BEq α] [LawfulBEq α] {xs : List α} (h : xs.Nodup) :
    xs.eraseDups = xs := by
  induction xs with
  | nil => rfl
  | cons x xs ih =>
    obtain ⟨hx, hxs⟩ := List.nodup_cons.mp h
    have hothers : (xs.filter fun y => !y == x) = xs := by
      refine List.filter_eq_self.mpr fun y hy => ?_
      have hne : y ≠ x := by
        intro he
        rw [he] at hy
        exact hx hy
      simpa using hne
    rw [List.eraseDups_cons, hothers, ih hxs]

/-- As many members as a list without repeats, and the same ones: the same list in some order. -/
theorem sameMembers_iff {α : Type} [BEq α] [LawfulBEq α] {xs ys : List α} (hys : ys.Nodup) :
    (xs.length != ys.length || !sameMembers xs ys) = false ↔ xs.Perm ys := by
  simp only [sameMembers, Bool.or_eq_false_iff, bne_eq_false_iff_eq, Bool.not_eq_false',
    Bool.and_eq_true, List.all_eq_true, List.contains_iff_mem]
  constructor
  · intro h
    obtain ⟨hlen, -, hback⟩ := h
    have hsub : ys.Subperm xs := hys.subperm hback
    exact (hsub.perm_of_length_le (Nat.le_of_eq hlen)).symm
  · intro hperm
    exact ⟨hperm.length_eq, fun x hx => hperm.mem_iff.mp hx, fun y hy => hperm.mem_iff.mpr hy⟩

/-! ## Folding -/

/-- A character of a host without a scope is ASCII. -/
theorem ascii_of_hostChar {c : Char} (h : isHostChar c = true) : c.toNat < 128 := by
  simp only [isHostChar, Bool.or_eq_true, isAlnumAscii_iff, beq_iff_eq] at h
  obtain ((h | rfl) | rfl) | rfl := h
  · omega
  · decide
  · decide
  · decide

/-! ## The configured names -/

/-- The addresses that are configured. -/
def configuredAddresses (identities : CertificateIdentities) : List IpAddress :=
  identities.ipAddresses.filterMap ofText

section configured
variable {switch : Switch} {identities : CertificateIdentities}

/-- A configured name is an identity's value, in lower case and ASCII. -/
theorem of_mem_dnsNames (h : getCertificateIdentities switch = .ok identities) {t : Text}
    (ht : t ∈ identities.dnsNames) :
    (∀ c ∈ t, c.toNat < 128 ∧ c ≠ '\n') ∧ t ≠ [] ∧ t.map lowerAscii = t := by
  obtain ⟨host, rest, -, hids, rfl⟩ := of_getCertificateIdentities h
  obtain ⟨i, hi, rfl⟩ := List.mem_map.mp ht
  obtain ⟨hi, hdns⟩ := List.mem_filter.mp hi
  obtain ⟨v, -, hv⟩ := (of_distinctIdentities hids).2.2.2.1 i hi
  refine ⟨fun c hc => ⟨?_, ?_⟩, value_ne_nil hv, (dns_value_ok hids ht).2⟩
  · obtain ⟨-, -, -, ⟨a, -, rfl⟩ | ⟨hname, rfl⟩⟩ := of_parseIdentity hv
    · exact absurd (beq_iff_eq.mp hdns) (addressIdentity_kind a)
    · have hnot : '%' ∉ v := by
        intro hm
        exact absurd (hname.chars hm) (by decide)
      rw [← mem_value_iff hv rfl] at hnot
      exact ascii_of_hostChar (value_hostChars hv hnot c hc)
  · intro he
    have hspace := (value_chars hv hc).1
    rw [he] at hspace
    revert hspace
    decide

/-- A configured address is printed, and parses back. -/
theorem of_mem_ipAddresses (h : getCertificateIdentities switch = .ok identities) {t : Text}
    (ht : t ∈ identities.ipAddresses) : '\n' ∉ t ∧ t ≠ [] ∧ ∃ a, ofText t = some a ∧ a.str = t := by
  obtain ⟨host, rest, -, hids, rfl⟩ := of_getCertificateIdentities h
  obtain ⟨i, hi, rfl⟩ := List.mem_map.mp ht
  obtain ⟨hi, hip⟩ := List.mem_filter.mp hi
  obtain ⟨v, -, hv⟩ := (of_distinctIdentities hids).2.2.2.1 i hi
  refine ⟨fun hm => ?_, value_ne_nil hv, ?_⟩
  · have hspace := (value_chars hv hm).1
    revert hspace
    decide
  · obtain ⟨-, -, -, ⟨a, ha, rfl⟩ | ⟨-, rfl⟩⟩ := of_parseIdentity hv
    · exact ⟨a, ofText_str_of_ofText ha, rfl⟩
    · simp at hip

/-- The configured addresses print as the configured texts. -/
theorem configuredAddresses_str (h : getCertificateIdentities switch = .ok identities) :
    (configuredAddresses identities).map IpAddress.str = identities.ipAddresses := by
  have hall := fun t (ht : t ∈ identities.ipAddresses) => (of_mem_ipAddresses h ht).2.2
  unfold configuredAddresses
  revert hall
  generalize identities.ipAddresses = texts
  intro hall
  induction texts with
  | nil => rfl
  | cons t ts ih =>
    obtain ⟨a, ha, hstr⟩ := hall t List.mem_cons_self
    rw [List.filterMap_cons_some ha, List.map_cons, hstr,
      ih fun u hu => hall u (List.mem_cons_of_mem _ hu)]

theorem configuredAddresses_nodup (h : getCertificateIdentities switch = .ok identities) :
    (configuredAddresses identities).Nodup := by
  have hprinted := ipAddresses_nodup h
  rw [← configuredAddresses_str h] at hprinted
  exact hprinted.of_map

/-- A configured name folds to itself. -/
theorem dnsNames_casefold (h : getCertificateIdentities switch = .ok identities) :
    identities.dnsNames.map casefold = identities.dnsNames := by
  calc identities.dnsNames.map casefold
      = identities.dnsNames.map (List.map lowerAscii) := by
        apply List.map_congr_left
        intro t ht
        exact casefold_ascii fun c hc => ((of_mem_dnsNames h ht).1 c hc).1
    _ = identities.dnsNames.map id := by
        apply List.map_congr_left
        intro t ht
        exact (of_mem_dnsNames h ht).2.2
    _ = identities.dnsNames := List.map_id _

end configured

/-! ## The names of a certificate -/

def dnsValues (names : List GeneralName) : List Text :=
  names.filterMap fun
    | .dns value => some value
    | _ => none

def ipNames (names : List GeneralName) : List GeneralName :=
  names.filter fun
    | .ip _ | .ipNetwork _ => true
    | _ => false

/-- The names are DNS names and addresses only: the configured DNS names, up to what `fold`
identifies, and the configured addresses, both in some order and each once. -/
structure NamesExact (fold : Text → Text) (names : List GeneralName)
    (identities : CertificateIdentities) : Prop where
  no_other : .other ∉ names
  dns_perm : ((dnsValues names).map fold).Perm (identities.dnsNames.map fold)
  dns_nodup : ((dnsValues names).map fold).Nodup
  ip_perm : (ipNames names).Perm ((configuredAddresses identities).map .ip)
  ip_nodup : (ipNames names).Nodup

/-- The names of a certificate whose extensions can be read. -/
def Certificate.HasNames (certificate : Certificate) (names : List GeneralName) : Prop :=
  ∃ extensions, certificate.extensions = .ok extensions ∧
    extensions.subjectAltName = some names

/-! ## The names that are asked for -/

/-- The texts a field lists, one a line. -/
def altLines : Text → List Text
  | [] => []
  | c :: cs => splitOn '\n' (c :: cs)

/-- A field of the certificate that `sign_csr` asks for. -/
def altField (payload : Json) (field : Text) : Text :=
  match payload with
  | .obj members =>
    match member members "cert" with
    | some (.obj cert) => (textMember cert field).getD []
    | _ => []
  | _ => []

/-- The names of a certificate that is issued as it was asked for. -/
def altnamesSent (payload : Json) : List GeneralName :=
  (altLines (altField payload "altnames_dns")).map .dns ++
    ((altLines (altField payload "altnames_ip")).filterMap ofText).map .ip

theorem altLines_join {texts : List Text} (htexts : ∀ t ∈ texts, '\n' ∉ t ∧ t ≠ []) :
    altLines (join "\n" texts) = texts := by
  cases texts with
  | nil => rfl
  | cons t ts =>
    have hsplit : splitOn '\n' (join "\n" (t :: ts)) = t :: ts :=
      splitOn_join fun u hu => (htexts u hu).1
    obtain ⟨c, cs, rfl⟩ := List.exists_cons_of_ne_nil (htexts t List.mem_cons_self).2
    obtain ⟨rest, hrest⟩ : ∃ rest, join "\n" ((c :: cs) :: ts) = c :: rest := by
      cases ts with
      | nil => exact ⟨cs, rfl⟩
      | cons u us => exact ⟨_, rfl⟩
    rw [hrest] at hsplit ⊢
    exact hsplit

/-- Printed addresses are canonical already. -/
theorem canonicalIpSans_printed {seen values canonical : List Text}
    (hprinted : ∀ t ∈ values, ∃ a, ofText t = some a ∧ a.str = t)
    (h : canonicalIpSans seen values = .ok canonical) : canonical = values := by
  induction values generalizing seen canonical with
  | nil =>
    cases h
    rfl
  | cons t ts ih =>
    obtain ⟨a, ha, hstr⟩ := hprinted t List.mem_cons_self
    simp only [canonicalIpSans, ha, hstr, bind_eq_ok] at h
    obtain ⟨_, -, _, -, rest, hrest, h⟩ := h
    cases h
    rw [ih (fun u hu => hprinted u (List.mem_cons_of_mem _ hu)) hrest]

/-- `sign_csr` asks for the configured names. -/
theorem altnamesSent_eq {switch : Switch} {identities : CertificateIdentities}
    (h : getCertificateIdentities switch = .ok identities) {csrPem caref description : Text}
    {settings : OpnsenseSettings} {payload : Json}
    (hrequest : signRequest csrPem caref settings identities.dnsNames identities.ipAddresses
      description = .ok payload) :
    altnamesSent payload =
      identities.dnsNames.map .dns ++ (configuredAddresses identities).map .ip := by
  simp only [signRequest, bind_eq_ok] at hrequest
  obtain ⟨_, -, _, -, _, -, _, -, _, -, ips, hsans, hpayload⟩ := hrequest
  simp only [validateSans, bind_eq_ok] at hsans
  obtain ⟨_, -, _, -, hips⟩ := hsans
  obtain rfl : ips = identities.ipAddresses :=
    canonicalIpSans_printed (fun t ht => (of_mem_ipAddresses h ht).2.2) hips
  cases hpayload
  have hdns : altLines (join "\n" identities.dnsNames) = identities.dnsNames :=
    altLines_join fun t ht => by
      obtain ⟨hchars, hne, -⟩ := of_mem_dnsNames h ht
      exact ⟨fun hm => (hchars _ hm).2 rfl, hne⟩
  have haddresses : altLines (join "\n" identities.ipAddresses) = identities.ipAddresses :=
    altLines_join fun t ht => by
      obtain ⟨hline, hne, -⟩ := of_mem_ipAddresses h ht
      exact ⟨hline, hne⟩
  show (altLines (join "\n" identities.dnsNames)).map GeneralName.dns ++
    ((altLines (join "\n" identities.ipAddresses)).filterMap ofText).map GeneralName.ip = _
  rw [hdns, haddresses, configuredAddresses]

section check
variable {switch : Switch} {identities : CertificateIdentities} {certificate : Certificate}
  {names : List GeneralName}

/-- The DNS names, each mapped. -/
theorem filterMap_eq_dnsValues {f : Text → Text} {g : GeneralName → Option Text}
    (hdns : ∀ value, g (.dns value) = some (f value)) (hip : ∀ address, g (.ip address) = none)
    (hnetwork : ∀ printed, g (.ipNetwork printed) = none) (hother : g .other = none) :
    names.filterMap g = (dnsValues names).map f := by
  unfold dnsValues
  rw [List.map_filterMap]
  congr 1
  funext name
  cases name with
  | dns value => exact hdns value
  | ip address => exact hip address
  | ipNetwork printed => exact hnetwork printed
  | other => exact hother

/-- Without other names, what is no DNS name is an address. -/
theorem filter_eq_ipNames (hother : .other ∉ names) {g : GeneralName → Bool}
    (hdns : ∀ value, g (.dns value) = false) (hip : ∀ address, g (.ip address) = true)
    (hnetwork : ∀ printed, g (.ipNetwork printed) = true) : names.filter g = ipNames names := by
  unfold ipNames
  apply List.filter_congr
  intro name hname
  cases name with
  | other => exact absurd hname hother
  | dns value => exact hdns value
  | ip address => exact hip address
  | ipNetwork printed => exact hnetwork printed

/-- What is checked, in the order it is. -/
theorem checkIssuedNames_ok_iff (hnames : certificate.HasNames names) :
    checkIssuedNames certificate identities = .ok () ↔
      .other ∉ names ∧
      (((dnsValues names).map casefold).length !=
          (identities.dnsNames.map casefold).eraseDups.length ||
        !sameMembers ((dnsValues names).map casefold)
          (identities.dnsNames.map casefold).eraseDups) = false ∧
      ((ipNames names).length != ((configuredAddresses identities).map GeneralName.ip).eraseDups.length ||
        !sameMembers (ipNames names)
          ((configuredAddresses identities).map GeneralName.ip).eraseDups) = false := by
  obtain ⟨extensions, hext, hsan⟩ := hnames
  have hread : requireExtension certificate Extensions.subjectAltName "Subject Alternative Name" =
      .ok names := by
    unfold requireExtension
    rw [hext, liftStd_ok, bind_of_ok, hsan]
    rfl
  unfold checkIssuedNames
  rw [hread]
  simp only [bind_of_ok, bind_eq_ok, raiseWhen_eq_ok, configuredAddresses, List.contains_eq_mem,
    decide_eq_false_iff_not]
  rw [filterMap_eq_dnsValues (f := casefold) (fun _ => rfl) (fun _ => rfl) (fun _ => rfl) rfl]
  constructor
  · intro h
    obtain ⟨-, hother, -, hdns, hips⟩ := h
    rw [filter_eq_ipNames hother (fun _ => rfl) (fun _ => rfl) (fun _ => rfl)] at hips
    exact ⟨hother, hdns, hips⟩
  · intro h
    obtain ⟨hother, hdns, hips⟩ := h
    refine ⟨(), hother, (), hdns, ?_⟩
    rw [filter_eq_ipNames hother (fun _ => rfl) (fun _ => rfl) (fun _ => rfl)]
    exact hips

/-- The checks pass for exactly the configured names, up to folding. -/
theorem namesExact_iff (h : getCertificateIdentities switch = .ok identities)
    (hnames : certificate.HasNames names) :
    checkIssuedNames certificate identities = .ok () ↔ NamesExact casefold names identities := by
  have hdns : (identities.dnsNames.map casefold).Nodup := by
    rw [dnsNames_casefold h]
    exact dnsNames_nodup h
  have hips : ((configuredAddresses identities).map GeneralName.ip).Nodup :=
    (configuredAddresses_nodup h).map fun a b he => GeneralName.ip.inj he
  rw [checkIssuedNames_ok_iff hnames, eraseDups_of_nodup hdns, eraseDups_of_nodup hips,
    sameMembers_iff hdns, sameMembers_iff hips]
  constructor
  · intro hchecks
    obtain ⟨hother, hdnsPerm, hipsPerm⟩ := hchecks
    exact ⟨hother, hdnsPerm, hdnsPerm.nodup_iff.mpr hdns, hipsPerm, hipsPerm.nodup_iff.mpr hips⟩
  · intro hexact
    exact ⟨hexact.no_other, hexact.dns_perm, hexact.ip_perm⟩

/-- On ASCII names folding is the case of letters. -/
theorem namesExact_ascii (h : getCertificateIdentities switch = .ok identities)
    (hascii : ∀ value ∈ dnsValues names, isAscii value = true) :
    NamesExact casefold names identities ↔ NamesExact (List.map lowerAscii) names identities := by
  have hfold : ∀ texts : List Text, (∀ t ∈ texts, isAscii t = true) →
      texts.map casefold = texts.map (List.map lowerAscii) := by
    intro texts htexts
    apply List.map_congr_left
    intro t ht
    have hall := List.all_eq_true.mp (htexts t ht)
    exact casefold_ascii fun c hc => by simpa using hall c hc
  have hconfigured : ∀ t ∈ identities.dnsNames, isAscii t = true := by
    intro t ht
    refine List.all_eq_true.mpr fun c hc => ?_
    exact decide_eq_true ((of_mem_dnsNames h ht).1 c hc).1
  have hnamed := hfold _ hascii
  have hexpected := hfold _ hconfigured
  constructor
  · intro hexact
    obtain ⟨hother, hperm, hnodup, hips, hipsNodup⟩ := hexact
    rw [hnamed, hexpected] at hperm
    rw [hnamed] at hnodup
    exact ⟨hother, hperm, hnodup, hips, hipsNodup⟩
  · intro hexact
    obtain ⟨hother, hperm, hnodup, hips, hipsNodup⟩ := hexact
    rw [← hnamed, ← hexpected] at hperm
    rw [← hnamed] at hnodup
    exact ⟨hother, hperm, hnodup, hips, hipsNodup⟩

/-- The configured names, in any order, are exact. -/
theorem namesExact_configured (h : getCertificateIdentities switch = .ok identities)
    (hperm : names.Perm
      (identities.dnsNames.map .dns ++ (configuredAddresses identities).map .ip)) :
    NamesExact casefold names identities := by
  have hdnsValues : (dnsValues names).Perm identities.dnsNames := by
    have hmap := hperm.filterMap fun
      | .dns value => some value
      | _ => none
    refine hmap.trans (List.Perm.of_eq ?_)
    simp [List.filterMap_append, List.filterMap_map]
  have hipNames : (ipNames names).Perm ((configuredAddresses identities).map .ip) := by
    have hfilter := hperm.filter fun
      | .ip _ | .ipNetwork _ => true
      | _ => false
    refine hfilter.trans (List.Perm.of_eq ?_)
    simp [List.filter_append, List.filter_map, Function.comp_def]
  have hips : ((configuredAddresses identities).map GeneralName.ip).Nodup :=
    (configuredAddresses_nodup h).map fun a b he => GeneralName.ip.inj he
  have hdns := dnsNames_nodup h
  rw [← dnsNames_casefold h] at hdns
  refine ⟨?_, hdnsValues.map casefold, (hdnsValues.map casefold).nodup_iff.mpr hdns, hipNames,
    hipNames.nodup_iff.mpr hips⟩
  rw [hperm.mem_iff]
  simp

end check

/-- The checks on the names pass for exactly the configured names, up to `str.casefold`; for ASCII
names that is up to the case of letters. A certificate that is issued with the names that were
asked for passes. -/
theorem issued_names_exact {switch : Switch} {identities : CertificateIdentities}
    (h : getCertificateIdentities switch = .ok identities) {certificate : Certificate}
    {names : List GeneralName} (hnames : certificate.HasNames names) :
    (checkIssuedNames certificate identities = .ok () ↔ NamesExact casefold names identities) ∧
      ((∀ value ∈ dnsValues names, isAscii value = true) →
        (checkIssuedNames certificate identities = .ok () ↔
          NamesExact (List.map lowerAscii) names identities)) ∧
      ∀ csrPem caref description settings payload,
        signRequest csrPem caref settings identities.dnsNames identities.ipAddresses description =
          .ok payload →
        names.Perm (altnamesSent payload) → checkIssuedNames certificate identities = .ok () := by
  have hiff := namesExact_iff h hnames
  refine ⟨hiff, fun hascii => hiff.trans (namesExact_ascii h hascii), ?_⟩
  intro csrPem caref description settings payload hrequest hperm
  rw [altnamesSent_eq h hrequest] at hperm
  exact hiff.mpr (namesExact_configured h hperm)

/-- `siteCertificate` with the given names. -/
def namedCertificate (names : List GeneralName) : Certificate :=
  { siteCertificate with extensions := .ok ⟨some names, some false, none, none⟩ }

theorem issued_names_exact_site :
    checkIssuedNames (namedCertificate [.dns "SWITCH.example"]) siteIdentities = .ok () ↔
      NamesExact casefold [.dns "SWITCH.example"] siteIdentities :=
  (issued_names_exact (show getCertificateIdentities siteSwitch = .ok siteIdentities from rfl)
    ⟨_, rfl, rfl⟩).1

/-- A DNS name with a long s passes for one with an s, from which it differs in more than case. -/
theorem long_s_passes :
    getCertificateIdentities siteSwitch = .ok siteIdentities ∧
      checkIssuedNames (namedCertificate [.dns "\u017fwitch.example"]) siteIdentities = .ok () ∧
      ¬ NamesExact (List.map lowerAscii) [.dns "\u017fwitch.example"] siteIdentities := by
  refine ⟨rfl, by decide, fun hexact => ?_⟩
  have hperm := hexact.dns_perm
  have hmem : ("\u017fwitch.example" : Text) ∈ siteIdentities.dnsNames.map (List.map lowerAscii) :=
    hperm.mem_iff.mp (by decide)
  revert hmem
  decide

end ArubaCertRenewer
