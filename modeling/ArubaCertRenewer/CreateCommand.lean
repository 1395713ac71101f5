import ArubaCertRenewer.Surroundings
import ArubaCertRenewer.Identities

/- The create command as the switch reads it.

   A CLI line is split at the spaces outside double quotes. `Spells t vs` says
   that the text `t` is read as the words `vs`, wherever it stands between
   spaces; texts that spell words, joined by spaces, spell their words in a row.
   The values of the command are checked by different rules, and the common name
   is the one of which the rules let a quote or a DEL through: the scope of an
   IPv6 host. -/
namespace ArubaCertRenewer
open PyText

/-! ## Words of a CLI line -/

/-- The words of a line: inside quotes or not, and the word begun so far, its quotes left out.
A quote that is not closed makes the line unreadable. -/
def cliWords : Bool → Option Text → Text → Option (List Text)
  | false, word, [] => some word.toList
  | true, _, [] => none
  | quoted, word, c :: t =>
    if c = '"' then cliWords (!quoted) (some (word.getD [])) t
    else if c = ' ' ∧ quoted = false then (cliWords false none t).map (word.toList ++ ·)
    else cliWords quoted (some (word.getD [] ++ [c])) t

/-- The text is read as the words, up to a space or the end of the line. -/
def Spells (t : Text) (words : List Text) : Prop :=
  cliWords false none t = some words ∧
    ∀ rest, cliWords false none (t ++ ' ' :: rest) = (cliWords false none rest).map (words ++ ·)

theorem cliWords_plain {t : Text} (ht : ∀ c ∈ t, c ≠ '"' ∧ c ≠ ' ') (w rest : Text) :
    cliWords false (some w) (t ++ rest) = cliWords false (some (w ++ t)) rest := by
  induction t generalizing w with
  | nil => simp
  | cons c t ih =>
    obtain ⟨hq, hs⟩ := ht c List.mem_cons_self
    have hrest := ih (fun d hd => ht d (List.mem_cons_of_mem _ hd)) (w ++ [c])
    simp only [List.cons_append, cliWords, hq, hs, false_and, if_false, Option.getD_some]
    rw [hrest, List.append_assoc]
    rfl

theorem cliWords_quoted {t : Text} (ht : '"' ∉ t) (w rest : Text) :
    cliWords true (some w) (t ++ rest) = cliWords true (some (w ++ t)) rest := by
  induction t generalizing w with
  | nil => simp
  | cons c t ih =>
    rw [List.mem_cons, not_or] at ht
    have hrest := ih ht.2 (w ++ [c])
    simp only [List.cons_append, cliWords, Ne.symm ht.1, if_false, Option.getD_some]
    simpa using hrest

/-- A word of its own, once a reader got to `some v` at its end. -/
theorem spells_of_reads {t v : Text}
    (ht : ∀ rest, cliWords false none (t ++ rest) = cliWords false (some v) rest) :
    Spells t [v] := by
  constructor
  · simpa [cliWords] using ht []
  · intro rest
    rw [ht]
    simp [cliWords]

theorem spells_plain {t : Text} (hne : t ≠ []) (ht : ∀ c ∈ t, c ≠ '"' ∧ c ≠ ' ') : Spells t [t] := by
  refine spells_of_reads fun rest => ?_
  cases t with
  | nil => exact absurd rfl hne
  | cons c t =>
    obtain ⟨hq, hs⟩ := ht c List.mem_cons_self
    simp only [List.cons_append, cliWords, hq, hs, false_and, if_false, Option.getD_none,
      List.nil_append]
    exact cliWords_plain (fun d hd => ht d (List.mem_cons_of_mem _ hd)) [c] rest

/-- A word that needs no quotes. -/
def isBareWord (t : Text) : Bool := !t.isEmpty && t.all fun c => c != '"' && c != ' '

theorem spells_bare {t : Text} (h : isBareWord t = true) : Spells t [t] := by
  simp only [isBareWord, Bool.and_eq_true, Bool.not_eq_true', List.isEmpty_eq_false_iff,
    List.all_eq_true, bne_iff_ne] at h
  exact spells_plain h.1 h.2

theorem spells_quoted {t : Text} (ht : '"' ∉ t) : Spells ("\"" ++ t ++ "\"") [t] := by
  refine spells_of_reads fun rest => ?_
  show cliWords false none ('"' :: (t ++ ['"'] ++ rest)) = _
  simp only [cliWords, if_true, Bool.not_false, Option.getD_none, List.append_assoc]
  rw [cliWords_quoted ht]
  simp [cliWords]

theorem Spells.append {t u : Text} {vs ws : List Text} (ht : Spells t vs) (hu : Spells u ws) :
    Spells (t ++ " " ++ u) (vs ++ ws) := by
  constructor
  · rw [List.append_assoc]
    exact (ht.2 u).trans (by rw [hu.1]; rfl)
  · intro rest
    have hassoc : t ++ " " ++ u ++ ' ' :: rest = t ++ ' ' :: (u ++ ' ' :: rest) := by simp
    rw [hassoc, ht.2, hu.2, Option.map_map]
    simp [Function.comp_def]

/-- Texts that spell words, joined by spaces. -/
theorem Spells.join {t : Text} {ts : List Text} {vs : List Text} {vss : List (List Text)}
    (ht : Spells t vs) (hts : List.Forall₂ Spells ts vss) :
    Spells (join " " (t :: ts)) (vs ++ vss.flatten) := by
  induction hts generalizing t vs with
  | nil => simpa [PyText.join] using ht
  | cons hu _ ih => exact ht.append (ih hu)

/-- No word holds a quote. -/
theorem quote_not_mem_cliWords {quoted : Bool} {word : Option Text} {t : Text} {words : List Text}
    (hw : '"' ∉ word.getD []) (h : cliWords quoted word t = some words) : ∀ v ∈ words, '"' ∉ v := by
  induction t generalizing quoted word words with
  | nil =>
    cases quoted with
    | true => cases h
    | false =>
      cases h
      intro v hv
      cases word with
      | none => cases hv
      | some w => exact List.mem_singleton.mp hv ▸ hw
  | cons c t ih =>
    -- a quote is dropped, a space ends the word, and any other character joins it
    have hbegun : '"' ∉ (word.getD []) := hw
    by_cases hc : c = '"'
    · simp only [cliWords, hc, if_true] at h
      exact ih (by simpa using hbegun) h
    by_cases hs : c = ' ' ∧ quoted = false
    · obtain ⟨rfl, rfl⟩ := hs
      simp only [cliWords, hc, if_false, true_and, if_true] at h
      obtain ⟨rest, hrest, rfl⟩ := Option.map_eq_some_iff.mp h
      intro v hv
      obtain hv | hv := List.mem_append.mp hv
      · cases word with
        | none => cases hv
        | some w => exact List.mem_singleton.mp hv ▸ hw
      · exact ih (by simp) hrest v hv
    · cases quoted with
      | false =>
        have hspace : c ≠ ' ' := fun he => hs ⟨he, rfl⟩
        simp only [cliWords, hc, hspace, false_and, if_false] at h
        refine ih ?_ h
        simpa [Ne.symm hc] using hbegun
      | true =>
        simp only [cliWords, hc, Bool.true_eq_false, and_false, if_false] at h
        refine ih ?_ h
        simpa [Ne.symm hc] using hbegun

/-! ## The values -/

/-- The keywords of the create command, with the values between them. -/
def createCsrWords (certificateName taProfile commonName : Text) (settings : CsrSettings) :
    List Text :=
  ["crypto", "pki", "create-csr", "certificate-name", certificateName, "ta-profile", taProfile,
   "usage", "web", "key-type", "rsa", "key-size", settings.keySize, "subject",
   "common-name", commonName, "org", settings.organization,
   "org-unit", settings.organizationalUnit, "locality", settings.locality,
   "state", settings.state, "country", settings.country]

/-- A character of the category Cc. -/
def isControl (c : Char) : Bool := c.toNat < 32 || (127 ≤ c.toNat && c.toNat < 160)

/-- No control character and no line break. -/
def IsOneLine (t : Text) : Prop :=
  ∀ c ∈ t, isControl c = false ∧ c.toNat ≠ 0x2028 ∧ c.toNat ≠ 0x2029

/-- A character that prints in ASCII. -/
def isPrintable (c : Char) : Bool := 32 ≤ c.toNat && c.toNat < 127

theorem isOneLine_of_printable {t : Text} (h : t.all isPrintable = true) : IsOneLine t := by
  intro c hc
  have := List.all_eq_true.mp h c hc
  simp only [isPrintable, Bool.and_eq_true, decide_eq_true_eq] at this
  have hcontrol : isControl c = false := by
    simp only [isControl, Bool.or_eq_false_iff, Bool.and_eq_false_iff, decide_eq_false_iff_not]
    omega
  exact ⟨hcontrol, by omega, by omega⟩

theorem isPrintable_of_alnum {c : Char} (h : isAlnumAscii c = true) : isPrintable c = true := by
  rw [isAlnumAscii_iff] at h
  simp only [isPrintable, Bool.and_eq_true, decide_eq_true_eq]
  omega

/-- What `validate_cli_identifier` accepts is one plain word. -/
theorem spells_identifier {value : Text} (h : isCliIdentifier value = true) :
    Spells value [value] ∧ value.all isPrintable = true := by
  simp only [isCliIdentifier, Bool.and_eq_true, List.all_eq_true, Bool.or_eq_true,
    beq_iff_eq] at h
  obtain ⟨hhead, hall⟩ := h
  have hne : value ≠ [] := by
    rintro rfl
    cases hhead
  constructor
  · refine spells_plain hne fun c hc => ?_
    have hok := hall c hc
    constructor <;> rintro rfl <;> revert hok <;> decide
  · rw [List.all_eq_true]
    intro c hc
    obtain ((h | rfl) | rfl) | rfl := hall c hc
    · exact isPrintable_of_alnum h
    · rfl
    · rfl
    · rfl

theorem subject_printable {value : Text} (h : isSubjectText value = true) :
    value.all isPrintable = true := by
  simp only [isSubjectText, Bool.and_eq_true, List.all_eq_true, Bool.or_eq_true] at h
  rw [List.all_eq_true]
  intro c hc
  obtain h | h := h.2 c hc
  · exact isPrintable_of_alnum h
  · have hall : (" .,'()&/-".toList).all isPrintable = true := by decide
    exact List.all_eq_true.mp hall c (by simpa using h)

/-- A subject value is one word, quoted when it holds a space. -/
theorem spells_subject {value quoted : Text} (h : isSubjectText value = true)
    (hq : quoteCliSubjectValue value = .ok quoted) :
    Spells quoted [value] ∧ quoted.all isPrintable = true := by
  have hprint := subject_printable h
  have hne : value ≠ [] := by
    rintro rfl
    cases h
  simp only [quoteCliSubjectValue, bind_eq_ok, raiseWhen_eq_ok] at hq
  obtain ⟨-, hsafe, hq⟩ := hq
  have hno : '"' ∉ value := by
    intro hm
    have := List.any_eq_false.mp hsafe _ hm
    simp at this
  cases hq
  split
  · refine ⟨spells_quoted hno, ?_⟩
    rw [List.all_append, List.all_append, hprint]
    rfl
  · next hspace =>
    refine ⟨spells_plain hne fun c hc => ⟨fun he => hno (he ▸ hc), fun he => ?_⟩, hprint⟩
    rw [he] at hc
    exact hspace (by simpa using hc)

theorem spells_country {country : Text} (h : isCountryCode country = true) :
    Spells country [country] ∧ country.all isPrintable = true := by
  simp only [isCountryCode, Bool.and_eq_true, beq_iff_eq, List.all_eq_true] at h
  obtain ⟨hlen, hall⟩ := h
  have halnum : ∀ c ∈ country, isAlnumAscii c = true := by
    intro c hc
    have := hall c hc
    simp [isAlnumAscii, this]
  have hne : country ≠ [] := by
    rintro rfl
    cases hlen
  constructor
  · refine spells_plain hne fun c hc => ?_
    have hok := halnum c hc
    constructor <;> rintro rfl <;> revert hok <;> decide
  · exact List.all_eq_true.mpr fun c hc => isPrintable_of_alnum (halnum c hc)

theorem spells_keySize {keySize : Text} (h : keySize = "2048" ∨ keySize = "2048.0") :
    Spells keySize [keySize] ∧ keySize.all isPrintable = true := by
  obtain rfl | rfl := h
  · exact ⟨spells_bare (by decide), by decide⟩
  · exact ⟨spells_bare (by decide), by decide⟩

/-! ## The command -/

theorem spells_argument (keyword : Text) {value v : Text} (hk : isBareWord keyword = true)
    (hv : Spells value [v]) : Spells (keyword ++ " " ++ value) [keyword, v] :=
  (spells_bare hk).append hv

/-- The parts of the create command, before they are joined. -/
def createCsrParts (certificateName taProfile commonName organization organizationalUnit locality
    state country keySize : Text) : List Text :=
  [createCsrCommand,
   "certificate-name " ++ certificateName,
   "ta-profile " ++ taProfile,
   "usage web",
   "key-type rsa",
   "key-size " ++ keySize,
   "subject",
   "common-name " ++ commonName,
   "org " ++ organization,
   "org-unit " ++ organizationalUnit,
   "locality " ++ locality,
   "state " ++ state,
   "country " ++ country]

section command
variable {switch : Switch} {certificateName taProfile command : Text} {settings : CsrSettings}

/-- What a built command is made of. -/
theorem of_buildCsrCommand
    (h : buildCsrCommand switch certificateName taProfile settings = .ok command) :
    isCliIdentifier certificateName = true ∧ isCliIdentifier taProfile = true ∧
      ∃ identities organization unit locality state,
        getCertificateIdentities switch = .ok identities ∧
        isAscii identities.commonName = true ∧
        quoteCliSubjectValue settings.organization = .ok organization ∧
        quoteCliSubjectValue settings.organizationalUnit = .ok unit ∧
        quoteCliSubjectValue settings.locality = .ok locality ∧
        quoteCliSubjectValue settings.state = .ok state ∧
        command = join " " (createCsrParts certificateName taProfile identities.commonName
          organization unit locality state settings.country settings.keySize) := by
  simp only [buildCsrCommand, bind_eq_ok, validateCliIdentifier, validateCsrCommonName,
    raiseWhen_eq_ok, Bool.not_eq_false', Bool.or_eq_false_iff] at h
  obtain ⟨-, hname, -, hprofile, identities, hids, -, ⟨hascii, -⟩, organization, ho, unit, hu,
    locality, hl, state, hs, h⟩ := h
  exact ⟨hname, hprofile, identities, organization, unit, locality, state, hids, hascii, ho, hu,
    hl, hs, (Except.ok.inj h).symm⟩

/-- Parts whose values each spell one word spell the keywords and values in order. -/
theorem spells_createCsrParts {commonName organization unit locality state country keySize : Text}
    {vn vp vc vo vu vl vs vy vk : Text}
    (hn : Spells certificateName [vn]) (hp : Spells taProfile [vp]) (hk : Spells keySize [vk])
    (hc : Spells commonName [vc]) (ho : Spells organization [vo]) (hu : Spells unit [vu])
    (hl : Spells locality [vl]) (hs : Spells state [vs]) (hy : Spells country [vy]) :
    Spells
      (join " " (createCsrParts certificateName taProfile commonName organization unit locality
        state country keySize))
      ["crypto", "pki", "create-csr", "certificate-name", vn, "ta-profile", vp, "usage", "web",
       "key-type", "rsa", "key-size", vk, "subject", "common-name", vc, "org", vo,
       "org-unit", vu, "locality", vl, "state", vs, "country", vy] := by
  have hbare : ∀ t : Text, isBareWord t = true → Spells t [t] := fun t ht => spells_bare ht
  have hstart : Spells createCsrCommand ["crypto", "pki", "create-csr"] :=
    (hbare "crypto" (by decide)).append
      ((hbare "pki" (by decide)).append
        (hbare "create-csr" (by decide)))
  have hweb : Spells "usage web" ["usage", "web"] :=
    (hbare "usage" (by decide)).append (hbare "web" (by decide))
  have hrsa : Spells "key-type rsa" ["key-type", "rsa"] :=
    (hbare "key-type" (by decide)).append (hbare "rsa" (by decide))
  suffices harguments : List.Forall₂ Spells
      (createCsrParts certificateName taProfile commonName organization unit locality state country
        keySize).tail
      [["certificate-name", vn], ["ta-profile", vp], ["usage", "web"], ["key-type", "rsa"],
       ["key-size", vk], ["subject"], ["common-name", vc], ["org", vo], ["org-unit", vu],
       ["locality", vl], ["state", vs], ["country", vy]] from hstart.join harguments
  refine .cons ?_ (.cons ?_ (.cons hweb (.cons hrsa (.cons ?_ (.cons ?_ (.cons ?_
    (.cons ?_ (.cons ?_ (.cons ?_ (.cons ?_ (.cons ?_ .nil)))))))))))
  · exact spells_argument "certificate-name" (by decide) hn
  · exact spells_argument "ta-profile" (by decide) hp
  · exact spells_argument "key-size" (by decide) hk
  · exact hbare "subject" (by decide)
  · exact spells_argument "common-name" (by decide) hc
  · exact spells_argument "org" (by decide) ho
  · exact spells_argument "org-unit" (by decide) hu
  · exact spells_argument "locality" (by decide) hl
  · exact spells_argument "state" (by decide) hs
  · exact spells_argument "country" (by decide) hy

/-- The command is one line whose words are the keywords and the configured values. -/
def CarriesValues (switch : Switch) (certificateName taProfile : Text) (settings : CsrSettings)
    (command : Text) : Prop :=
  IsOneLine command ∧ ∃ identities, getCertificateIdentities switch = .ok identities ∧
    cliWords false none command =
      some (createCsrWords certificateName taProfile identities.commonName settings)

theorem commonName_mem_iff {identities : CertificateIdentities}
    (h : getCertificateIdentities switch = .ok identities) {c : Char} (hc : isHostChar c = false) :
    c ∈ identities.commonName ↔ c ∈ switch.host := by
  obtain ⟨host, rest, hhost, -, rfl⟩ := of_getCertificateIdentities h
  exact mem_value_iff hhost hc

theorem commonName_chars {identities : CertificateIdentities}
    (h : getCertificateIdentities switch = .ok identities) :
    identities.commonName ≠ [] ∧ ∀ c ∈ identities.commonName, isSpace c = false ∧ 32 ≤ c.toNat := by
  obtain ⟨host, rest, hhost, -, rfl⟩ := of_getCertificateIdentities h
  exact ⟨value_ne_nil hhost, fun c hc => value_chars hhost hc⟩

/-- The quotes and DELs of the common name are those of the host. -/
theorem commonName_plain_iff {identities : CertificateIdentities}
    (h : getCertificateIdentities switch = .ok identities) :
    (∀ c ∈ identities.commonName, c ≠ '"' ∧ c.toNat ≠ 127) ↔
      ∀ c ∈ switch.host, c ≠ '"' ∧ c.toNat ≠ 127 := by
  have hsame : ∀ c, c = '"' ∨ c.toNat = 127 → (c ∈ identities.commonName ↔ c ∈ switch.host) := by
    rintro c (rfl | hdel)
    · exact commonName_mem_iff h rfl
    · obtain rfl : c = Char.ofNat 127 := by rw [← hdel, Char.ofNat_toNat]
      exact commonName_mem_iff h rfl
  constructor <;> intro hplain c hc <;> by_contra hno <;>
    have hspecial : c = '"' ∨ c.toNat = 127 := by tauto
  · exact hno (hplain c ((hsame c hspecial).mpr hc))
  · exact hno (hplain c ((hsame c hspecial).mp hc))

theorem printable_createCsrParts {commonName organization unit locality state country keySize : Text}
    (hn : certificateName.all isPrintable = true) (hp : taProfile.all isPrintable = true)
    (hk : keySize.all isPrintable = true) (hc : commonName.all isPrintable = true)
    (ho : organization.all isPrintable = true) (hu : unit.all isPrintable = true)
    (hl : locality.all isPrintable = true) (hs : state.all isPrintable = true)
    (hy : country.all isPrintable = true) :
    (join " " (createCsrParts certificateName taProfile commonName organization unit locality state
      country keySize)).all isPrintable = true := by
  have hargument : ∀ keyword value : Text, keyword.all isPrintable = true →
      value.all isPrintable = true → (keyword ++ value).all isPrintable = true := by
    intro keyword value hkeyword hvalue
    rw [List.all_append, hkeyword, hvalue]
    rfl
  have hparts : ∀ p ∈ createCsrParts certificateName taProfile commonName organization unit
      locality state country keySize, p.all isPrintable = true := by
    simp only [createCsrParts, List.forall_mem_cons]
    exact ⟨by decide, hargument _ _ (by decide) hn, hargument _ _ (by decide) hp, by decide,
      by decide, hargument _ _ (by decide) hk, by decide, hargument _ _ (by decide) hc,
      hargument _ _ (by decide) ho, hargument _ _ (by decide) hu, hargument _ _ (by decide) hl,
      hargument _ _ (by decide) hs, hargument _ _ (by decide) hy, by simp⟩
  rw [List.all_eq_true]
  intro c hm
  obtain hm | ⟨p, hp, hm⟩ := mem_join hm
  · obtain rfl := List.mem_singleton.mp hm
    rfl
  · exact List.all_eq_true.mp (hparts p hp) c hm

/-- The command carries exactly the configured values when the host has no quote and no DEL. -/
theorem create_csr_command_carries_iff
    (h : buildCsrCommand switch certificateName taProfile settings = .ok command) :
    CarriesValues switch certificateName taProfile settings command ↔
      ∀ c ∈ switch.host, c ≠ '"' ∧ c.toNat ≠ 127 := by
  obtain ⟨hname, hprofile, identities, organization, unit, locality, state, hids, hascii, ho, hu,
    hl, hs, rfl⟩ := of_buildCsrCommand h
  obtain ⟨hne, hchars⟩ := commonName_chars hids
  rw [← commonName_plain_iff hids]
  constructor
  · intro hcarries c hc
    obtain ⟨hline, ids, hids', hwords⟩ := hcarries
    obtain rfl : identities = ids := Except.ok.inj (hids.symm.trans hids')
    constructor
    · -- a quote of the common name never gets into a word
      rintro rfl
      refine quote_not_mem_cliWords (by simp) hwords identities.commonName ?_ hc
      simp [createCsrWords]
    · -- a DEL is a control character of the command
      intro hdel
      have hpart : c ∈ ("common-name " : Text) ++ identities.commonName :=
        List.mem_append_right _ hc
      have hcontrol := (hline c (mem_join_of_mem (by simp [createCsrParts]) hpart)).1
      simp [isControl, hdel] at hcontrol
  · intro hplain
    have hprint : identities.commonName.all isPrintable = true := by
      rw [List.all_eq_true]
      intro c hc
      have hlow := (hchars c hc).2
      have hhigh := List.all_eq_true.mp hascii c hc
      have hdel := (hplain c hc).2
      simp only [isPrintable, Bool.and_eq_true, decide_eq_true_eq] at hhigh ⊢
      omega
    have hspell : Spells identities.commonName [identities.commonName] := by
      refine spells_plain hne fun c hc => ⟨(hplain c hc).1, ?_⟩
      rintro rfl
      exact absurd (hchars _ hc).1 (by decide)
    obtain ⟨hnw, hnp⟩ := spells_identifier hname
    obtain ⟨hpw, hpp⟩ := spells_identifier hprofile
    obtain ⟨how, hop⟩ := spells_subject settings.organization_ok.1 ho
    obtain ⟨huw, hup⟩ := spells_subject settings.organizationalUnit_ok.1 hu
    obtain ⟨hlw, hlp⟩ := spells_subject settings.locality_ok.1 hl
    obtain ⟨hsw, hsp⟩ := spells_subject settings.state_ok.1 hs
    obtain ⟨hyw, hyp⟩ := spells_country settings.country_ok
    obtain ⟨hkw, hkp⟩ := spells_keySize settings.keySize_ok
    refine ⟨isOneLine_of_printable ?_, identities, hids, ?_⟩
    · exact printable_createCsrParts hnp hpp hkp hprint hop hup hlp hsp hyp
    · exact (spells_createCsrParts hnw hpw hkw hspell how huw hlw hsw hyw).1

end command

/-- The command that `siteSwitch` at the host gets. -/
def siteCreateCommand (host : Text) : Text :=
  "crypto pki create-csr certificate-name web ta-profile ta usage web key-type rsa key-size 2048 " ++
    "subject common-name " ++ host ++
    " org Org org-unit Unit locality City state State country US"

set_option maxRecDepth 4000 in
theorem create_csr_command_carries_site :
    CarriesValues siteSwitch "web" "ta" siteCsrSettings (siteCreateCommand "switch.example") := by
  have hhost : siteSwitch.host.all (fun c => c != '"' && c.toNat != 127) = true := by decide
  refine (create_csr_command_carries_iff (by rfl)).mpr fun c hc => ?_
  simpa using List.all_eq_true.mp hhost c hc

/-- The configuration of `siteSwitch` at the host. -/
def siteConfig (host : Text) : List (Text × Toml) :=
  [("switches", .array [.table
    [("name", .string "lab"), ("host", .string host), ("username", .string "admin")]])]

/-- A scope with a quote: the configuration is accepted, the command is built, and it is one whose
quotes do not close. -/
def quotedScope : Text := "fe80::1%\"x"

set_option maxRecDepth 4000 in
theorem create_csr_command_altered :
    validateConfig (siteConfig quotedScope) "/known_hosts" =
        .ok (30, [{ siteSwitch with host := quotedScope }]) ∧
      buildCsrCommand { siteSwitch with host := quotedScope } "web" "ta" siteCsrSettings =
        .ok (siteCreateCommand quotedScope) ∧
      ¬ CarriesValues { siteSwitch with host := quotedScope } "web" "ta" siteCsrSettings
        (siteCreateCommand quotedScope) := by
  refine ⟨by rfl, by rfl, ?_⟩
  rintro ⟨-, identities, -, hwords⟩
  have hunread : cliWords false none (siteCreateCommand quotedScope) = none := by decide
  rw [hunread] at hwords
  cases hwords

end ArubaCertRenewer
