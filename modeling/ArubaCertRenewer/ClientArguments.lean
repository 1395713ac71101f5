import ArubaCertRenewer.Surroundings
import ArubaCertRenewer.Identities
import Mathlib.Data.List.DropRight

/- What startup accepts against what the OPNsense client accepts.

   The client checks again what it is given: the CA description and the
   certificate description as safe texts, and the lists of names. Two kinds of
   text pass at startup and fail there: a CA description with a character of the
   categories Cc, Cf, Zl or Zp from 127 on, and an IPv6 address with a scope. -/
namespace ArubaCertRenewer
open PyText IpAddress

/-! ## Stripped texts -/

theorem strip_sublist (t : Text) : (strip t).Sublist t :=
  (List.rdropWhile_prefix isSpace (t.dropWhile isSpace)).sublist.trans
    (List.dropWhile_sublist isSpace)

theorem strip_eq_nil_iff {t : Text} : strip t = [] ↔ ∀ c ∈ t, isSpace c = true := by
  show List.rdropWhile isSpace (t.dropWhile isSpace) = [] ↔ _
  rw [List.rdropWhile_eq_nil_iff]
  constructor
  · intro h c hc
    rw [← List.takeWhile_append_dropWhile (p := isSpace) (l := t), List.mem_append] at hc
    obtain hc | hc := hc
    · exact List.mem_takeWhile_imp hc
    · exact h c hc
  · exact fun h c hc => h c ((List.dropWhile_sublist isSpace).subset hc)

/-- What is left after stripping does not strip away. -/
theorem strip_strip_ne_nil {t : Text} (h : strip t ≠ []) : strip (strip t) ≠ [] := by
  intro hnil
  have hlast := List.rdropWhile_last_not isSpace (t.dropWhile isSpace) h
  exact hlast (strip_eq_nil_iff.mp hnil _ (List.getLast_mem h))

/-! ## Safe texts -/

theorem isUnsafeText_of_hostChar {c : Char} (h : isHostChar c = true) : isUnsafeText c = false := by
  have hn : 32 ≤ c.toNat ∧ c.toNat < 127 := by
    simp only [isHostChar, Bool.or_eq_true, isAlnumAscii_iff, beq_iff_eq] at h
    obtain ((h | rfl) | rfl) | rfl := h
    · omega
    · decide
    · decide
    · decide
  have hall : ∀ n < 127, 32 ≤ n → isUnsafeText (Char.ofNat n) = false := by decide
  rw [← Char.ofNat_toNat c]
  exact hall c.toNat hn.2 hn.1

theorem validateSafeText_ok_iff {value label : Text} (hlen : value.length ≤ maxDescriptionChars)
    (hne : strip value ≠ []) :
    validateSafeText value label = .ok () ↔ ∀ c ∈ value, isUnsafeText c = false := by
  simp only [validateSafeText, bind_eq_ok, raiseWhen_eq_ok, decide_eq_false_iff_not, not_lt,
    List.isEmpty_eq_false_iff]
  constructor
  · intro h
    obtain ⟨-, -, -, -, h⟩ := h
    exact fun c hc => by simpa using List.any_eq_false.mp h c hc
  · intro h
    refine ⟨(), hlen, (), hne, List.any_eq_false.mpr fun c hc => by simp [h c hc]⟩

/-- The description of a certificate is safe when its common name has no scope. -/
theorem description_ok {certificateName commonName label : Text}
    (hname : isCliIdentifier certificateName = true) (hcommon : ∀ c ∈ commonName, isHostChar c = true) :
    validateSafeText (buildOpnsenseCertificateDescription certificateName commonName) label =
      .ok () := by
  have hsafe : ∀ c ∈ ("Aruba Web certificate " ++ certificateName ++ " for " ++ commonName : Text),
      isUnsafeText c = false := by
    simp only [isCliIdentifier, Bool.and_eq_true, List.all_eq_true, Bool.or_eq_true,
      beq_iff_eq] at hname
    intro c hc
    obtain ((hc | hc) | hc) | hc := by simpa only [List.mem_append] using hc
    · have hall : ("Aruba Web certificate " : Text).all (!isUnsafeText ·) = true := by decide
      simpa using List.all_eq_true.mp hall c hc
    · obtain ((h | rfl) | rfl) | rfl := hname.2 c hc
      · exact isUnsafeText_of_hostChar (by simp [isHostChar, h])
      · rfl
      · rfl
      · rfl
    · have hall : (" for " : Text).all (!isUnsafeText ·) = true := by decide
      simpa using List.all_eq_true.mp hall c hc
    · exact isUnsafeText_of_hostChar (hcommon c hc)
  have hlen : (buildOpnsenseCertificateDescription certificateName commonName).length ≤
      maxDescriptionChars := by
    rw [buildOpnsenseCertificateDescription, List.length_take]
    exact Nat.min_le_left _ _
  rw [validateSafeText_ok_iff hlen]
  · exact fun c hc => hsafe c (List.mem_of_mem_take hc)
  · rw [Ne, strip_eq_nil_iff]
    intro hspaces
    have hfirst : 'A' ∈ buildOpnsenseCertificateDescription certificateName commonName :=
      List.mem_cons_self
    exact absurd (hspaces 'A' hfirst) (by decide)

/-! ## The lists of names -/

theorem checkDnsSan_ok {t : Text} (ht : IsHostName t) (hne : t ≠ []) (hlen : t.length ≤ 253) :
    checkDnsSan (t.map lowerAscii) = .ok () := by
  have hlabels : ((splitOn '.' (t.map lowerAscii)).any fun label => !isDnsLabel label) = false := by
    rw [splitOn_map (fun c => lowerAscii_eq_iff rfl), List.any_map, List.any_eq_false]
    intro l hl
    simp [isDnsLabel_lower, ht.labels l hl]
  simp only [checkDnsSan, bind_eq_ok, raiseWhen_eq_ok, Bool.or_eq_false_iff]
  refine ⟨(), ⟨by simpa using hne, by simpa using hlen⟩, ?_, hlabels⟩
  rw [isNumeric_lower, ht.not_numeric]

/-- Names in lower case, none twice, pass. -/
theorem checkDnsSans_ok {seen names : List Text}
    (hnames : ∀ t ∈ names, checkDnsSan t = .ok () ∧ t.map lowerAscii = t) (hnodup : names.Nodup)
    (hfresh : ∀ t ∈ names, t ∉ seen) : checkDnsSans seen names = .ok () := by
  induction names generalizing seen with
  | nil => rfl
  | cons t ts ih =>
    obtain ⟨hcheck, hlower⟩ := hnames t List.mem_cons_self
    obtain ⟨hnot, hrest⟩ := List.nodup_cons.mp hnodup
    simp only [checkDnsSans, bind_eq_ok, raiseWhen_eq_ok, hlower]
    refine ⟨(), hcheck, (), ?_, ih ?_ hrest ?_⟩
    · simpa using hfresh t List.mem_cons_self
    · exact fun u hu => hnames u (List.mem_cons_of_mem _ hu)
    · intro u hu hm
      obtain rfl | hm := List.mem_cons.mp hm
      · exact hnot hu
      · exact hfresh u (List.mem_cons_of_mem _ hu) hm

/-- A printed address the client takes. -/
def IsIpSan (t : Text) : Prop :=
  t ≠ [] ∧ t.length ≤ 64 ∧ '%' ∉ t ∧ ∃ a, ofText t = some a ∧ a.str = t

theorem canonicalIpSans_ok {seen values : List Text} (hvalues : ∀ t ∈ values, IsIpSan t)
    (hnodup : values.Nodup) (hfresh : ∀ t ∈ values, t ∉ seen) :
    canonicalIpSans seen values = .ok values := by
  induction values generalizing seen with
  | nil => rfl
  | cons t ts ih =>
    obtain ⟨hne, hlen, hscope, a, ha, hstr⟩ := hvalues t List.mem_cons_self
    obtain ⟨hnot, hrest⟩ := List.nodup_cons.mp hnodup
    have htail : canonicalIpSans (t :: seen) ts = .ok ts := by
      apply ih
      · exact fun u hu => hvalues u (List.mem_cons_of_mem _ hu)
      · exact hrest
      · intro u hu hm
        obtain rfl | hm := List.mem_cons.mp hm
        · exact hnot hu
        · exact hfresh u (List.mem_cons_of_mem _ hu) hm
    simp only [canonicalIpSans, bind_eq_ok, raiseWhen_eq_ok, Bool.or_eq_false_iff]
    refine ⟨(), ⟨⟨by simpa using hne, by simpa using hlen⟩, by simpa using hscope⟩, ?_⟩
    simp only [ha, hstr, bind_eq_ok, raiseWhen_eq_ok, htail]
    exact ⟨(), by simpa using hfresh t List.mem_cons_self, ts, rfl, rfl⟩

/-- A scope is refused. -/
theorem no_scope_of_canonicalIpSans {seen values canonical : List Text}
    (h : canonicalIpSans seen values = .ok canonical) : ∀ t ∈ values, '%' ∉ t := by
  induction values generalizing seen canonical with
  | nil => simp
  | cons t ts ih =>
    simp only [canonicalIpSans, bind_eq_ok, raiseWhen_eq_ok, Bool.or_eq_false_iff] at h
    obtain ⟨-, ⟨-, hscope⟩, h⟩ := h
    split at h
    · cases h
    · simp only [bind_eq_ok, raiseWhen_eq_ok] at h
      obtain ⟨-, -, rest, hrest, -⟩ := h
      intro u hu
      obtain rfl | hu := List.mem_cons.mp hu
      · simpa using hscope
      · exact ih hrest u hu

section identities
variable {switch : Switch} {ids : List Identity}

/-- The names of the identities of one kind: none twice. -/
theorem nodup_values (h : distinctIdentities [] (switch.host :: switch.additionalSans) = .ok ids)
    {p : Identity → Bool} (hp : ∀ i j, p i = true → p j = true → (i.kind = .dns ↔ j.kind = .dns)) :
    ((ids.filter p).map Identity.value).Nodup := by
  obtain ⟨hkeys, -, -, hfrom, -⟩ := of_distinctIdentities h
  refine List.Nodup.map_on (fun i hi j hj hvalue => ?_) ((List.Nodup.of_map _ hkeys).filter p)
  rw [List.mem_filter] at hi hj
  obtain ⟨v, -, hv⟩ := hfrom i hi.1
  obtain ⟨w, -, hw⟩ := hfrom j hj.1
  exact identity_eq_of_key hv hw (key_eq_of_value hv hw (hp i j hi.2 hj.2) hvalue)

/-- The names are host names in lower case. -/
theorem dns_value_ok (h : distinctIdentities [] (switch.host :: switch.additionalSans) = .ok ids)
    {t : Text} (ht : t ∈ (ids.filter (·.kind == .dns)).map Identity.value) :
    checkDnsSan t = .ok () ∧ t.map lowerAscii = t := by
  obtain ⟨i, hi, rfl⟩ := List.mem_map.mp ht
  rw [List.mem_filter] at hi
  obtain ⟨v, -, hv⟩ := (of_distinctIdentities h).2.2.2.1 i hi.1
  obtain ⟨hne, hlen, -, ⟨a, -, rfl⟩ | ⟨hname, rfl⟩⟩ := of_parseIdentity hv
  · exact absurd (by simpa using hi.2) (addressIdentity_kind a)
  · exact ⟨checkDnsSan_ok hname hne hlen, map_lowerAscii_idem v⟩

/-- The addresses are printed ones, which the client takes unless they have a scope. -/
theorem ip_value_ok (h : distinctIdentities [] (switch.host :: switch.additionalSans) = .ok ids)
    {t : Text} (ht : t ∈ (ids.filter (·.kind != .dns)).map Identity.value) (hscope : '%' ∉ t) :
    IsIpSan t := by
  obtain ⟨i, hi, rfl⟩ := List.mem_map.mp ht
  rw [List.mem_filter] at hi
  obtain ⟨v, -, hv⟩ := (of_distinctIdentities h).2.2.2.1 i hi.1
  have hne := value_ne_nil hv
  obtain ⟨-, -, -, ⟨a, ha, rfl⟩ | ⟨hname, rfl⟩⟩ := of_parseIdentity hv
  · refine ⟨hne, ?_, hscope, a, ofText_str_of_ofText ha, rfl⟩
    cases a with
    | v4 ip => exact (length_printIpv4_le ip).trans (by decide)
    | v6 ip scope =>
      rw [addressIdentity_value, str_v6] at hscope ⊢
      cases scope with
      | none =>
        rw [scopeSuffix, List.append_nil]
        exact length_printIpv6_le ip
      | some s => exact absurd (List.mem_append_right _ List.mem_cons_self) hscope
  · simp at hi

/-- The scopes among the addresses are those of the configured texts. -/
theorem no_scope_iff (h : distinctIdentities [] (switch.host :: switch.additionalSans) = .ok ids) :
    (∀ t ∈ (ids.filter (·.kind != .dns)).map Identity.value, '%' ∉ t) ↔
      ∀ v ∈ switch.host :: switch.additionalSans, '%' ∉ v := by
  obtain ⟨-, -, -, hfrom, hall⟩ := of_distinctIdentities h
  constructor
  · intro haddresses v hv hm
    obtain ⟨i, hi, hk⟩ := hall v hv
    obtain ⟨j, hj, hk⟩ := List.mem_map.mp (hk.resolve_left (by simp))
    obtain ⟨w, -, hw⟩ := hfrom j hj
    obtain rfl : j = i := identity_eq_of_key hw hi hk
    have hvalue : '%' ∈ j.value := (mem_value_iff hi rfl).mpr hm
    obtain ⟨-, -, -, ⟨a, -, rfl⟩ | ⟨hname, rfl⟩⟩ := of_parseIdentity hi
    · refine haddresses _ (List.mem_map_of_mem (List.mem_filter.mpr ⟨hj, ?_⟩)) hvalue
      simp
    · exact absurd (hname.chars hm) (by decide)
  · intro hvalues t ht hm
    obtain ⟨i, hi, rfl⟩ := List.mem_map.mp ht
    obtain ⟨v, hv, hp⟩ := hfrom i (List.mem_filter.mp hi).1
    exact hvalues v hv ((mem_value_iff hp rfl).mp hm)

end identities

/-! ## What startup accepted -/

/-- A switch of an accepted configuration. -/
structure IsAccepted (switch : Switch) : Prop where
  host : ∃ value fieldName identity,
    parseIdentity value fieldName = .ok identity ∧ switch.host = identity.value
  additionalSans : switch.additionalSans.length ≤ maxAdditionalSans

theorem length_additionalSansOf {entry : Text} {members : List (Text × Toml)} {sans : List Text}
    (h : additionalSansOf entry members = .ok sans) : sans.length ≤ maxAdditionalSans := by
  have hcounted : ∀ x : Except Exc (List Text), ∀ e : Exc, ∀ f : Text → Except Exc Text,
      (x >>= fun items => raiseWhen (maxAdditionalSans < items.length) e >>= fun _ =>
        items.mapM f) = .ok sans → sans.length ≤ maxAdditionalSans := by
    intro x e f hitems
    obtain ⟨items, -, hitems⟩ := bind_eq_ok.mp hitems
    obtain ⟨_, hcount, hmap⟩ := bind_eq_ok.mp hitems
    rw [length_of_mapM hmap]
    simpa using hcount
  simp only [additionalSansOf] at h
  split at h
  · exact hcounted (.ok []) _ _ h
  · split at h
    · exact hcounted _ _ _ h
    · cases h
  · cases h

theorem isAccepted_of_validateSwitch {index : Nat} {knownHostsFile : Text}
    {members : List (Text × Toml)} {switch : Switch}
    (h : validateSwitch index knownHostsFile members = .ok switch) : IsAccepted switch := by
  simp only [validateSwitch, bind_eq_ok] at h
  obtain ⟨-, -, -, -, name, -, host, -, identity, hhost, sans, hsans, username, -, passwordFile, -,
    h⟩ := h
  cases h
  exact ⟨⟨host, _, identity, hhost, rfl⟩, length_additionalSansOf hsans⟩

theorem isAccepted_of_validateSwitches {knownHostsFile : Text} {index : Nat} {seen : List Text}
    {entries : List Toml} {switches : List Switch}
    (h : validateSwitches knownHostsFile index seen entries = .ok switches) :
    ∀ s ∈ switches, IsAccepted s := by
  induction entries generalizing index seen switches with
  | nil =>
    cases h
    simp
  | cons entry entries ih =>
    cases entry with
    | table members =>
      simp only [validateSwitches, bind_eq_ok] at h
      obtain ⟨switch, hswitch, -, -, rest, hrest, h⟩ := h
      cases h
      intro s hs
      obtain rfl | hs := List.mem_cons.mp hs
      · exact isAccepted_of_validateSwitch hswitch
      · exact ih hrest s hs
    | _ => cases h

theorem isAccepted_of_validateConfig {config : List (Text × Toml)} {knownHostsFile : Text}
    {days : Nat} {switches : List Switch}
    (h : validateConfig config knownHostsFile = .ok (days, switches)) :
    ∀ s ∈ switches, IsAccepted s := by
  simp only [validateConfig, bind_eq_ok] at h
  obtain ⟨warningDays, -, h⟩ := h
  split at h
  · obtain ⟨accepted, haccepted, h⟩ := bind_eq_ok.mp h
    cases h
    exact isAccepted_of_validateSwitches haccepted
  · cases h

/-- The configured `opnsense.ca`. -/
def configuredCa (config : List (Text × Toml)) : Option Text :=
  match Toml.get? config "opnsense" with
  | some (.table members) => (Toml.get? members "ca").bind Toml.asText
  | _ => none

theorem of_getOpnsenseSettings {config : List (Text × Toml)} {settings : OpnsenseSettings}
    (h : getOpnsenseSettings config = .ok settings) :
    ∃ ca, configuredCa config = some ca ∧ settings.ca = strip ca ∧ strip ca ≠ [] ∧
      ca.length ≤ 255 := by
  simp only [getOpnsenseSettings] at h
  split at h
  · next members hmembers =>
    obtain ⟨_, -, h⟩ := bind_eq_ok.mp h
    obtain ⟨_, -, h⟩ := bind_eq_ok.mp h
    split at h
    · obtain ⟨baseUrl, -, h⟩ := bind_eq_ok.mp h
      split at h
      · cases h
      next ca hca =>
      obtain ⟨_, hshape, h⟩ := bind_eq_ok.mp h
      simp only [raiseWhen_eq_ok, Bool.or_eq_false_iff, List.isEmpty_eq_false_iff,
        decide_eq_false_iff_not, not_lt] at hshape
      obtain ⟨⟨hne, hlen⟩, -⟩ := hshape
      refine ⟨ca, by simp only [configuredCa, hmembers, hca], ?_, hne, hlen⟩
      split at h
      · cases h
      split at h
      · split at h
        · split at h
          · cases h
            rfl
          · cases h
        · cases h
      · cases h
    · cases h
  · cases h

/-! ## The two validators -/

section client
variable {switch : Switch} {identities : CertificateIdentities} {settings : OpnsenseSettings}
variable {certificateName description : Text}

/-- A CSR text that the client takes. -/
def IsCsrText (csrPem : Text) : Prop :=
  utf8Length csrPem ≤ maxCsrPemBytes ∧ isAscii csrPem = true ∧
    fullmatch csrRequestPattern csrPem = true

/-- The client's checks on its arguments, those of the CSR text and of the CA reference apart,
cannot fail. -/
structure ClientAccepts (settings : OpnsenseSettings) (identities : CertificateIdentities)
    (description : Text) : Prop where
  ca : validateSafeText settings.ca "OPNsense CA description" = .ok ()
  request : ∀ csrPem caref, IsCsrText csrPem → isCaReference caref = true → ∃ payload,
    signRequest csrPem caref settings identities.dnsNames identities.ipAddresses description =
      .ok payload

/-- The lists of names are duplicate-free, within the client's limit, and have the switch host. -/
structure CoversHost (switch : Switch) (identities : CertificateIdentities) : Prop where
  dns_nodup : identities.dnsNames.Nodup
  ip_nodup : identities.ipAddresses.Nodup
  count_pos : 1 ≤ identities.dnsNames.length + identities.ipAddresses.length
  count_le : identities.dnsNames.length + identities.ipAddresses.length ≤ maxSanEntries
  host : switch.host ∈ identities.dnsNames ++ identities.ipAddresses

theorem signRequest_ok_iff {csrPem caref : Text} (hcsr : IsCsrText csrPem)
    (hcaref : isCaReference caref = true) :
    (∃ payload, signRequest csrPem caref settings identities.dnsNames identities.ipAddresses
        description = .ok payload) ↔
      validateSafeText description "Certificate description" = .ok () ∧
        ∃ ips, validateSans identities.dnsNames identities.ipAddresses = .ok ips := by
  obtain ⟨hsize, hascii, hpem⟩ := hcsr
  simp only [signRequest, bind_eq_ok, raiseWhen_eq_ok, decide_eq_false_iff_not, not_lt,
    Bool.not_eq_false']
  constructor
  · intro h
    obtain ⟨payload, _, -, _, -, _, -, _, -, _, hsafe, ips, hips, -⟩ := h
    exact ⟨hsafe, ips, hips⟩
  · intro h
    obtain ⟨hsafe, ips, hips⟩ := h
    exact ⟨_, (), hsize, (), hascii, (), hpem, (), hcaref, (), hsafe, ips, hips, rfl⟩

/-- The names of a list split by kind are as many as the list. -/
theorem length_by_kind (ids : List Identity) :
    ((ids.filter (·.kind == .dns)).map Identity.value).length +
      ((ids.filter (·.kind != .dns)).map Identity.value).length = ids.length := by
  rw [List.length_map, List.length_map]
  exact (List.length_eq_length_filter_add fun i : Identity => i.kind == .dns).symm

theorem dnsNames_nodup (h : getCertificateIdentities switch = .ok identities) :
    identities.dnsNames.Nodup := by
  obtain ⟨host, rest, -, hids, rfl⟩ := of_getCertificateIdentities h
  refine nodup_values hids fun i j hi hj => ?_
  rw [beq_iff_eq] at hi hj
  rw [hi, hj]

theorem ipAddresses_nodup (h : getCertificateIdentities switch = .ok identities) :
    identities.ipAddresses.Nodup := by
  obtain ⟨host, rest, -, hids, rfl⟩ := of_getCertificateIdentities h
  refine nodup_values hids fun i j hi hj => ?_
  rw [bne_iff_ne] at hi hj
  exact ⟨fun hk => absurd hk hi, fun hk => absurd hk hj⟩

theorem coversHost (haccepted : IsAccepted switch)
    (h : getCertificateIdentities switch = .ok identities) : CoversHost switch identities := by
  obtain ⟨host, rest, hhost, hids, rfl⟩ := of_getCertificateIdentities h
  have hlen := (of_distinctIdentities hids).2.2.1
  have hsans := haccepted.additionalSans
  have hcount := length_by_kind (host :: rest)
  rw [List.length_cons] at hlen
  refine ⟨dnsNames_nodup h, ipAddresses_nodup h, ?_, ?_, ?_⟩
  · show 1 ≤ ((_ : List Text).length + _)
    rw [hcount, List.length_cons]
    omega
  · show ((_ : List Text).length + _) ≤ _
    rw [hcount]
    exact hlen.trans (Nat.succ_le_succ hsans)
  · obtain ⟨value, fieldName, identity, hvalue, hsame⟩ := haccepted.host
    rw [hsame] at hhost ⊢
    obtain rfl := parseIdentity_value hvalue hhost
    by_cases hkind : host.kind = .dns
    · refine List.mem_append_left _ (List.mem_map_of_mem (List.mem_filter.mpr ⟨by simp, ?_⟩))
      simpa using hkind
    · refine List.mem_append_right _ (List.mem_map_of_mem (List.mem_filter.mpr ⟨by simp, ?_⟩))
      simpa using hkind

/-- The lists of names pass when no address has a scope, and not otherwise. -/
theorem validateSans_ok_iff (haccepted : IsAccepted switch)
    (h : getCertificateIdentities switch = .ok identities) :
    (∃ ips, validateSans identities.dnsNames identities.ipAddresses = .ok ips) ↔
      ∀ v ∈ switch.host :: switch.additionalSans, '%' ∉ v := by
  have hcovers := coversHost haccepted h
  obtain ⟨host, rest, -, hids, rfl⟩ := of_getCertificateIdentities h
  rw [← no_scope_iff hids]
  simp only [validateSans, bind_eq_ok, raiseWhen_eq_ok]
  constructor
  · intro hsans
    obtain ⟨ips, _, -, _, -, hips⟩ := hsans
    exact no_scope_of_canonicalIpSans hips
  · intro hscope
    refine ⟨_, (), ?_, (), ?_, canonicalIpSans_ok (fun t ht => ip_value_ok hids ht (hscope t ht))
      hcovers.ip_nodup (by simp)⟩
    · rw [Bool.or_eq_false_iff, decide_eq_false_iff_not, decide_eq_false_iff_not, not_lt, not_lt]
      exact ⟨hcovers.count_pos, hcovers.count_le⟩
    · exact checkDnsSans_ok (fun t ht => dns_value_ok hids ht) hcovers.dns_nodup (by simp)

/-- The shortest CSR text. -/
def shortCsrText : Text :=
  "-----BEGIN CERTIFICATE REQUEST-----\nA\n-----END CERTIFICATE REQUEST-----\n"

theorem isCsrText_short : IsCsrText shortCsrText :=
  ⟨by decide, by decide, by decide⟩

/-- The client accepts what startup accepted, when the stripped CA description has no unsafe
character and no address a scope, and not otherwise. The lists of names are complete anyway. -/
theorem client_accepts_iff {config : List (Text × Toml)} {knownHostsFile : Text} {days : Nat}
    {switches : List Switch}
    (hconfig : validateConfig config knownHostsFile = .ok (days, switches))
    (hswitch : switch ∈ switches)
    (hidentities : validateSwitchSigningIdentity switch = .ok identities)
    (hsettings : getOpnsenseSettings config = .ok settings)
    (hname : isCliIdentifier certificateName = true) :
    (ClientAccepts settings identities
        (buildOpnsenseCertificateDescription certificateName identities.commonName) ∧
      CoversHost switch identities) ↔
    (∀ ca, configuredCa config = some ca → ∀ c ∈ strip ca, isUnsafeText c = false) ∧
      ∀ v ∈ switch.host :: switch.additionalSans, '%' ∉ v := by
  have haccepted := isAccepted_of_validateConfig hconfig switch hswitch
  have hcovers := coversHost haccepted hidentities
  obtain ⟨ca, hca, hstrip, hne, hlen⟩ := of_getOpnsenseSettings hsettings
  have hsafe : validateSafeText settings.ca "OPNsense CA description" = .ok () ↔
      ∀ c ∈ strip ca, isUnsafeText c = false := by
    rw [hstrip]
    exact validateSafeText_ok_iff ((strip_sublist ca).length_le.trans hlen) (strip_strip_ne_nil hne)
  have hdescription : (∀ v ∈ switch.host :: switch.additionalSans, '%' ∉ v) →
      validateSafeText (buildOpnsenseCertificateDescription certificateName identities.commonName)
        "Certificate description" = .ok () := by
    intro hscope
    obtain ⟨host, rest, hhost, -, rfl⟩ := of_getCertificateIdentities hidentities
    apply description_ok hname
    apply value_hostChars hhost
    exact mt (mem_value_iff hhost rfl).mp (hscope _ List.mem_cons_self)
  constructor
  · intro h
    obtain ⟨haccepts, -⟩ := h
    constructor
    · intro ca' hca'
      obtain rfl : ca = ca' := Option.some.inj (hca.symm.trans hca')
      exact hsafe.mp haccepts.ca
    · have hrequest := haccepts.request shortCsrText "0123456789abc" isCsrText_short (by decide)
      have hsans := ((signRequest_ok_iff isCsrText_short (by decide)).mp hrequest).2
      exact (validateSans_ok_iff haccepted hidentities).mp hsans
  · intro h
    obtain ⟨hsafeCa, hscope⟩ := h
    refine ⟨⟨hsafe.mpr (hsafeCa ca hca), fun csrPem caref hcsr hcaref => ?_⟩, hcovers⟩
    rw [signRequest_ok_iff hcsr hcaref]
    exact ⟨hdescription hscope, (validateSans_ok_iff haccepted hidentities).mpr hscope⟩

end client

/-- A configuration with `siteSwitch` at the host and the CA description. -/
def caConfig (ca host : Text) : List (Text × Toml) :=
  [("opnsense", .table
      [("base_url", .string "https://fw.example"), ("ca", .string ca),
       ("lifetime_days", .integer 365), ("digest", .string "sha256")]),
   ("switches", .array [.table
      [("name", .string "lab"), ("host", .string host), ("username", .string "admin")]])]

def siteIdentities : CertificateIdentities := ⟨"switch.example", ["switch.example"], []⟩

set_option maxRecDepth 4000 in
theorem client_accepts_site :
    ClientAccepts siteOpnsense siteIdentities
        (buildOpnsenseCertificateDescription "web" "switch.example") ∧
      CoversHost siteSwitch siteIdentities := by
  have hconfig : validateConfig (caConfig "Lab CA" "switch.example") "/known_hosts" =
      .ok (30, [siteSwitch]) := by rfl
  have hsafe : (strip "Lab CA").all (!isUnsafeText ·) = true := by decide
  have hscope : (siteSwitch.host.contains '%') = false := by decide
  refine (client_accepts_iff hconfig List.mem_cons_self (by rfl) (by rfl) (by rfl)).mpr
    ⟨fun ca hca => ?_, fun v hv => ?_⟩
  · obtain rfl : "Lab CA".toList = ca := Option.some.inj hca
    simpa using hsafe
  · obtain rfl := List.mem_singleton.mp hv
    simpa using hscope

/-- A scoped host passes at startup, and no request for it is ever sent. -/
def scopedHost : Text := "fe80::1%eth0"

/-- A CA description with a soft hyphen passes at startup, and no CA is ever asked for. -/
def hyphenatedCa : Text := "Lab" ++ [Char.ofNat 0xad] ++ "CA"

def scopedIdentities : CertificateIdentities := ⟨scopedHost, [], [scopedHost]⟩

set_option maxRecDepth 4000 in
theorem client_refuses_accepted :
    (validateConfig (caConfig "Lab CA" scopedHost) "/known_hosts" =
        .ok (30, [{ siteSwitch with host := scopedHost }]) ∧
      getOpnsenseSettings (caConfig "Lab CA" scopedHost) = .ok siteOpnsense ∧
      validateSwitchSigningIdentity { siteSwitch with host := scopedHost } = .ok scopedIdentities ∧
      ¬ ClientAccepts siteOpnsense scopedIdentities
        (buildOpnsenseCertificateDescription "web" scopedHost)) ∧
    (validateConfig (caConfig hyphenatedCa "switch.example") "/known_hosts" =
        .ok (30, [siteSwitch]) ∧
      getOpnsenseSettings (caConfig hyphenatedCa "switch.example") =
        .ok { siteOpnsense with ca := hyphenatedCa } ∧
      validateSwitchSigningIdentity siteSwitch = .ok siteIdentities ∧
      ¬ ClientAccepts { siteOpnsense with ca := hyphenatedCa } siteIdentities
        (buildOpnsenseCertificateDescription "web" "switch.example")) := by
  refine ⟨⟨by rfl, by rfl, by rfl, fun h => ?_⟩, by rfl, by rfl, by rfl, fun h => ?_⟩
  · have hrequest := h.request shortCsrText "0123456789abc" isCsrText_short (by decide)
    obtain ⟨-, ips, hips⟩ := (signRequest_ok_iff isCsrText_short (by decide)).mp hrequest
    have hrefused : validateSans [] [scopedHost] =
        .error (opnsenseApiError "IP SAN is invalid") := by rfl
    rw [show validateSans scopedIdentities.dnsNames scopedIdentities.ipAddresses =
      .error (opnsenseApiError "IP SAN is invalid") from hrefused] at hips
    cases hips
  · have hrefused : validateSafeText hyphenatedCa "OPNsense CA description" =
        .error (opnsenseApiError "OPNsense CA description contains unsafe characters") := by rfl
    have hca := h.ca
    rw [show validateSafeText (OpnsenseSettings.ca _) _ = _ from hrefused] at hca
    cases hca

end ArubaCertRenewer
