import ArubaCertRenewer.Identity
import ArubaCertRenewer.IpText

/- What `parse_identity` gives and `get_certificate_identities` lists.

   A name is its text in lower case, an address its printed form. Printing keeps
   every character that no plain host holds, which are those of a scope, and
   two addresses that print alike are one. -/
namespace ArubaCertRenewer
open PyText IpAddress

/-- The identity of an address. -/
def addressIdentity (a : IpAddress) : Identity :=
  ⟨match a with
    | .v4 _ => .ipv4
    | .v6 _ _ => .ipv6, a.str, .ip a⟩

/-- The identity of a host name. -/
def nameIdentity (t : Text) : Identity := ⟨.dns, t.map lowerAscii, .dns (t.map lowerAscii)⟩

@[simp] theorem addressIdentity_value (a : IpAddress) : (addressIdentity a).value = a.str := rfl
@[simp] theorem addressIdentity_key (a : IpAddress) : (addressIdentity a).key = .ip a := rfl
@[simp] theorem nameIdentity_kind (t : Text) : (nameIdentity t).kind = .dns := rfl
@[simp] theorem nameIdentity_value (t : Text) : (nameIdentity t).value = t.map lowerAscii := rfl

@[simp] theorem addressIdentity_kind (a : IpAddress) : (addressIdentity a).kind ≠ .dns := by
  cases a <;> simp [addressIdentity]

/-- A text that is no address but a host name. -/
structure IsHostName (t : Text) : Prop where
  not_address : ofText t = none
  no_colon : ':' ∉ t
  not_numeric : (t.all fun c => ('0' ≤ c && c ≤ '9') || c == '.') = false
  labels : ∀ l ∈ splitOn '.' t, isDnsLabel l = true

/-- What `parse_identity` accepted, and as what. -/
theorem of_parseIdentity {value fieldName : Text} {identity : Identity}
    (h : parseIdentity value fieldName = .ok identity) :
    value ≠ [] ∧ value.length ≤ 253 ∧ (∀ c ∈ value, isSpace c = false ∧ 32 ≤ c.toNat) ∧
      ((∃ a, ofText value = some a ∧ identity = addressIdentity a) ∨
        IsHostName value ∧ identity = nameIdentity value) := by
  simp only [parseIdentity, bind_eq_ok, raiseWhen_eq_ok] at h
  obtain ⟨-, hshape, h⟩ := h
  simp only [Bool.or_eq_false_iff, List.isEmpty_eq_false_iff, decide_eq_false_iff_not, not_lt,
    List.any_eq_false, Bool.not_eq_true] at hshape
  obtain ⟨⟨hne, hlen⟩, hchars⟩ := hshape
  refine ⟨hne, hlen, hchars, ?_⟩
  split at h
  · next ip hip => exact .inl ⟨_, hip, (Except.ok.inj h).symm⟩
  · next ip scope hip => exact .inl ⟨_, hip, (Except.ok.inj h).symm⟩
  · next hnone =>
    simp only [bind_eq_ok, raiseWhen_eq_ok, Bool.or_eq_false_iff] at h
    obtain ⟨-, ⟨hcolon, hnumeric⟩, -, ⟨-, hlabels⟩, h⟩ := h
    refine .inr ⟨⟨hnone, by simpa using hcolon, hnumeric, fun l hl => ?_⟩, (Except.ok.inj h).symm⟩
    have := List.any_eq_false.mp hlabels l hl
    simpa using this

/-! ## Characters -/

/-- A character of a host that has no scope. -/
def isHostChar (c : Char) : Bool := isAlnumAscii c || c == '-' || c == '.' || c == ':'

theorem char_le_iff {c d : Char} : c ≤ d ↔ c.toNat ≤ d.toNat := Iff.rfl

theorem isAlnumAscii_iff {c : Char} : isAlnumAscii c = true ↔
    (65 ≤ c.toNat ∧ c.toNat ≤ 90) ∨ (97 ≤ c.toNat ∧ c.toNat ≤ 122) ∨
      (48 ≤ c.toNat ∧ c.toNat ≤ 57) := by
  simp only [isAlnumAscii, Bool.or_eq_true, Bool.and_eq_true, decide_eq_true_eq, char_le_iff,
    or_assoc]
  rfl

theorem toNat_lowerAscii (c : Char) : (lowerAscii c).toNat =
    if 65 ≤ c.toNat ∧ c.toNat ≤ 90 then c.toNat + 32 else c.toNat := by
  have hupper : ('A' ≤ c ∧ c ≤ 'Z') ↔ 65 ≤ c.toNat ∧ c.toNat ≤ 90 := by
    simp only [char_le_iff]
    rfl
  simp only [lowerAscii, hupper]
  split
  · next h =>
    have hvalid : (c.toNat + 32).isValidChar := .inl (by omega)
    rw [Char.ofNat, dif_pos hvalid]
    rfl
  · rfl

theorem isAlnumAscii_lowerAscii (c : Char) : isAlnumAscii (lowerAscii c) = isAlnumAscii c := by
  rw [Bool.eq_iff_iff, isAlnumAscii_iff, isAlnumAscii_iff, toNat_lowerAscii]
  split <;> omega

/-- Lower case moves nothing but letters. -/
theorem lowerAscii_eq_iff {c d : Char} (hd : isAlnumAscii d = false) : lowerAscii c = d ↔ c = d := by
  constructor
  · intro h
    have hc : isAlnumAscii c = false := by rw [← isAlnumAscii_lowerAscii, h, hd]
    have hupper : ¬ ('A' ≤ c ∧ c ≤ 'Z') := by
      intro hu
      simp [isAlnumAscii, hu.1, hu.2] at hc
    rwa [lowerAscii, if_neg hupper] at h
  · rintro rfl
    have hupper : ¬ ('A' ≤ c ∧ c ≤ 'Z') := by
      intro hu
      simp [isAlnumAscii, hu.1, hu.2] at hd
    rw [lowerAscii, if_neg hupper]

theorem mem_lower_iff {d : Char} (hd : isAlnumAscii d = false) (t : Text) :
    d ∈ t.map lowerAscii ↔ d ∈ t := by
  simp [List.mem_map, lowerAscii_eq_iff hd]

theorem isHostChar_of_addressChar {c : Char} (h : isAddressChar c = true) :
    isHostChar c = true := by
  simp only [isAddressChar, Bool.or_eq_true, beq_iff_eq] at h
  obtain (h | rfl) | rfl := h
  · have halnum : isAlnumAscii c = true := by
      simp only [isHexDigit, isDecDigit, Bool.or_eq_true, Bool.and_eq_true, decide_eq_true_eq,
        char_le_iff] at h
      rw [isAlnumAscii_iff]
      change ((48 ≤ c.toNat ∧ c.toNat ≤ 57) ∨ 97 ≤ c.toNat ∧ c.toNat ≤ 102) ∨
        65 ≤ c.toNat ∧ c.toNat ≤ 70 at h
      omega
    simp [isHostChar, halnum]
  · rfl
  · rfl

theorem isHostChar_of_label {l : Text} (hl : isDnsLabel l = true) {c : Char} (hc : c ∈ l) :
    isHostChar c = true := by
  simp only [isDnsLabel, Bool.and_eq_true, List.all_eq_true] at hl
  have hlabel := hl.2 c hc
  rw [isHostChar, Bool.or_assoc, hlabel, Bool.true_or]

theorem IsHostName.chars {t : Text} (ht : IsHostName t) {c : Char} (hc : c ∈ t) :
    isHostChar c = true := by
  obtain rfl | ⟨l, hl, hm⟩ := mem_splitOn '.' hc
  · rfl
  · exact isHostChar_of_label (ht.labels l hl) hm

/-- Printing an address keeps the characters of its scope, and has no others but plain ones. -/
theorem mem_str_iff {t : Text} {a : IpAddress} (h : ofText t = some a) {c : Char}
    (hc : isHostChar c = false) : c ∈ a.str ↔ c ∈ t := by
  have hplain : ∀ u : Text, (∀ d ∈ u, isAddressChar d = true) → c ∉ u := by
    intro u hu hm
    rw [isHostChar_of_addressChar (hu c hm)] at hc
    cases hc
  obtain ⟨ip, rfl, ht⟩ | ⟨ip, addr, scope, rfl, rfl, ht, -⟩ := ofText_cases h
  · have hprint : c ∉ printIpv4 ip := hplain _ fun d hd => isAddressChar_of_ipv4 (printIpv4_chars hd)
    have hgiven : c ∉ t := hplain _ (List.all_eq_true.mp ht)
    exact ⟨fun hm => absurd hm hprint, fun hm => absurd hm hgiven⟩
  · have hprint : c ∉ printIpv6 ip := hplain _ fun d hd => printIpv6_chars hd
    have hgiven : c ∉ addr := hplain _ (List.all_eq_true.mp ht)
    rw [str_v6, List.mem_append, List.mem_append]
    simp [hprint, hgiven]

/-- The value of an identity has the special characters of the text it was given as. -/
theorem mem_value_iff {value fieldName : Text} {identity : Identity}
    (h : parseIdentity value fieldName = .ok identity) {c : Char} (hc : isHostChar c = false) :
    c ∈ identity.value ↔ c ∈ value := by
  obtain ⟨-, -, -, ⟨a, ha, rfl⟩ | ⟨-, rfl⟩⟩ := of_parseIdentity h
  · exact mem_str_iff ha hc
  · have halnum : isAlnumAscii c = false := by
      simp only [isHostChar, Bool.or_eq_false_iff] at hc
      exact hc.1.1.1
    exact mem_lower_iff halnum value

/-- Without a scope a value has plain characters only. -/
theorem value_hostChars {value fieldName : Text} {identity : Identity}
    (h : parseIdentity value fieldName = .ok identity) (hscope : '%' ∉ identity.value) :
    ∀ c ∈ identity.value, isHostChar c = true := by
  obtain ⟨-, -, -, ⟨a, ha, rfl⟩ | ⟨hname, rfl⟩⟩ := of_parseIdentity h
  · intro c hc
    obtain ⟨ip, rfl, -⟩ | ⟨ip, addr, scope, rfl, -, -, -⟩ := ofText_cases ha
    · exact isHostChar_of_addressChar (isAddressChar_of_ipv4 (printIpv4_chars hc))
    · rw [addressIdentity_value, str_v6] at hc hscope
      cases scope with
      | none =>
        rw [scopeSuffix, List.append_nil] at hc
        exact isHostChar_of_addressChar (printIpv6_chars hc)
      | some s =>
        exact absurd (List.mem_append_right _ List.mem_cons_self) hscope
  · intro c hc
    obtain ⟨d, hd, rfl⟩ := List.mem_map.mp hc
    by_contra hno
    have halnum : isAlnumAscii (lowerAscii d) = false := by
      by_contra h
      exact hno (by simp [isHostChar, eq_true_of_ne_false h])
    have hsame : lowerAscii d = d := ((lowerAscii_eq_iff halnum).mp rfl).symm
    rw [hsame] at hno
    exact hno (hname.chars hd)

/-- An identity has a value. -/
theorem value_ne_nil {value fieldName : Text} {identity : Identity}
    (h : parseIdentity value fieldName = .ok identity) : identity.value ≠ [] := by
  obtain ⟨hne, -, -, ⟨a, ha, rfl⟩ | ⟨-, rfl⟩⟩ := of_parseIdentity h
  · intro hnil
    have hback := ofText_str_of_ofText ha
    rw [show a.str = [] from hnil] at hback
    cases hback
  · simpa using hne

/-- No value holds a space or a control character below 32. -/
theorem value_chars {value fieldName : Text} {identity : Identity}
    (h : parseIdentity value fieldName = .ok identity) {c : Char} (hc : c ∈ identity.value) :
    isSpace c = false ∧ 32 ≤ c.toNat := by
  obtain ⟨-, -, hchars, -⟩ := of_parseIdentity h
  by_cases hhost : isHostChar c = true
  · simp only [isHostChar, Bool.or_eq_true, isAlnumAscii_iff, beq_iff_eq] at hhost
    obtain ((hn | rfl) | rfl) | rfl := hhost
    · simp [isSpace]
      omega
    · decide
    · decide
    · decide
  · exact hchars c ((mem_value_iff h (by simpa using hhost)).mp hc)

/-! ## The list of identities -/

/-- The host is the first identity, and gives the common name. -/
theorem of_getCertificateIdentities {switch : Switch} {identities : CertificateIdentities}
    (h : getCertificateIdentities switch = .ok identities) :
    ∃ host rest, parseIdentity switch.host "switch identity" = .ok host ∧
      distinctIdentities [] (switch.host :: switch.additionalSans) = .ok (host :: rest) ∧
      identities = {
        commonName := host.value
        dnsNames := ((host :: rest).filter (·.kind == .dns)).map Identity.value
        ipAddresses := ((host :: rest).filter (·.kind != .dns)).map Identity.value } := by
  obtain ⟨all, hall, h⟩ := bind_eq_ok.mp h
  have hhead := hall
  simp only [distinctIdentities, bind_eq_ok, List.contains_nil, Bool.false_eq_true, if_false]
    at hhead
  obtain ⟨host, hhost, rest, -, hids⟩ := hhead
  cases hids
  exact ⟨host, rest, hhost, hall, (Except.ok.inj h).symm⟩

/-- What a distinct list of identities is: each parsed, no key twice, none seen before, and a key
for every text. -/
theorem of_distinctIdentities {seen : List IdentityKey} {values : List Text} {ids : List Identity}
    (h : distinctIdentities seen values = .ok ids) :
    (ids.map Identity.key).Nodup ∧ (∀ i ∈ ids, i.key ∉ seen) ∧ ids.length ≤ values.length ∧
      (∀ i ∈ ids, ∃ v ∈ values, parseIdentity v "switch identity" = .ok i) ∧
      ∀ v ∈ values, ∃ i, parseIdentity v "switch identity" = .ok i ∧
        (i.key ∈ seen ∨ i.key ∈ ids.map Identity.key) := by
  induction values generalizing seen ids with
  | nil =>
    cases h
    simp
  | cons v vs ih =>
    simp only [distinctIdentities, bind_eq_ok] at h
    obtain ⟨identity, hv, h⟩ := h
    split at h
    · next hseen =>
      obtain ⟨hnodup, hfresh, hlen, hfrom, hall⟩ := ih h
      refine ⟨hnodup, hfresh, Nat.le_succ_of_le hlen, fun i hi => ?_, fun w hw => ?_⟩
      · obtain ⟨w, hw, hp⟩ := hfrom i hi
        exact ⟨w, List.mem_cons_of_mem _ hw, hp⟩
      · obtain rfl | hw := List.mem_cons.mp hw
        · exact ⟨identity, hv, .inl (by simpa using hseen)⟩
        · exact hall w hw
    · next hseen =>
      obtain ⟨rest, hrest, h⟩ := bind_eq_ok.mp h
      cases h
      obtain ⟨hnodup, hfresh, hlen, hfrom, hall⟩ := ih hrest
      refine ⟨?_, ?_, Nat.succ_le_succ hlen, ?_, ?_⟩
      · rw [List.map_cons, List.nodup_cons]
        refine ⟨fun hm => ?_, hnodup⟩
        obtain ⟨i, hi, hk⟩ := List.mem_map.mp hm
        exact hfresh i hi (hk ▸ List.mem_cons_self)
      · intro i hi
        obtain rfl | hi := List.mem_cons.mp hi
        · simpa using hseen
        · exact fun hm => hfresh i hi (List.mem_cons_of_mem _ hm)
      · intro i hi
        obtain rfl | hi := List.mem_cons.mp hi
        · exact ⟨v, List.mem_cons_self, hv⟩
        · obtain ⟨w, hw, hp⟩ := hfrom i hi
          exact ⟨w, List.mem_cons_of_mem _ hw, hp⟩
      · intro w hw
        obtain rfl | hw := List.mem_cons.mp hw
        · exact ⟨identity, hv, .inr (by simp)⟩
        · obtain ⟨i, hp, hk⟩ := hall w hw
          refine ⟨i, hp, ?_⟩
          obtain hk | hk := hk
          · obtain hk | hk := List.mem_cons.mp hk
            · exact .inr (by simp [hk])
            · exact .inl hk
          · exact .inr (by simp [hk])

/-! ## Keys and values -/

/-- The key of an identity is read off its value, and no two addresses print alike. -/
theorem key_eq_of_value {v w f g : Text} {i j : Identity} (hi : parseIdentity v f = .ok i)
    (hj : parseIdentity w g = .ok j) (hkind : i.kind = .dns ↔ j.kind = .dns)
    (hvalue : i.value = j.value) : i.key = j.key := by
  obtain ⟨-, -, -, ⟨a, ha, rfl⟩ | ⟨-, rfl⟩⟩ := of_parseIdentity hi <;>
    obtain ⟨-, -, -, ⟨b, hb, rfl⟩ | ⟨-, rfl⟩⟩ := of_parseIdentity hj
  · have ha' := ofText_str_of_ofText ha
    have hb' := ofText_str_of_ofText hb
    rw [show a.str = b.str from hvalue, hb'] at ha'
    rw [Option.some.inj ha']
  · exact absurd (hkind.mpr rfl) (addressIdentity_kind a)
  · exact absurd (hkind.mp rfl) (addressIdentity_kind b)
  · exact congrArg IdentityKey.dns hvalue

theorem identity_eq_of_key {v w f g : Text} {i j : Identity} (hi : parseIdentity v f = .ok i)
    (hj : parseIdentity w g = .ok j) (hkey : i.key = j.key) : i = j := by
  obtain ⟨-, -, -, ⟨a, ha, rfl⟩ | ⟨-, rfl⟩⟩ := of_parseIdentity hi <;>
    obtain ⟨-, -, -, ⟨b, hb, rfl⟩ | ⟨-, rfl⟩⟩ := of_parseIdentity hj
  · rw [IdentityKey.ip.inj hkey]
  · cases hkey
  · cases hkey
  · have hlower := IdentityKey.dns.inj hkey
    simp only [nameIdentity, hlower]

theorem lowerAscii_lowerAscii (c : Char) : lowerAscii (lowerAscii c) = lowerAscii c := by
  have hupper : ¬ ('A' ≤ lowerAscii c ∧ lowerAscii c ≤ 'Z') := by
    simp only [char_le_iff, toNat_lowerAscii]
    change ¬ (65 ≤ _ ∧ _ ≤ 90)
    split <;> omega
  rw [lowerAscii, if_neg hupper]

theorem map_lowerAscii_idem (t : Text) : (t.map lowerAscii).map lowerAscii = t.map lowerAscii := by
  rw [List.map_map]
  exact List.map_congr_left fun c _ => lowerAscii_lowerAscii c

theorem isDnsLabel_lower (l : Text) : isDnsLabel (l.map lowerAscii) = isDnsLabel l := by
  have hdash : ((fun c => isAlnumAscii c || c == '-') ∘ lowerAscii) =
      fun c => isAlnumAscii c || c == '-' := by
    funext c
    have : (lowerAscii c == '-') = (c == '-') := by
      rw [Bool.eq_iff_iff, beq_iff_eq, beq_iff_eq, lowerAscii_eq_iff rfl]
    rw [Function.comp_apply, isAlnumAscii_lowerAscii, this]
  simp only [isDnsLabel, List.length_map, List.head?_map, List.getLast?_map, Option.any_map,
    List.all_map, isAlnumAscii_lowerAscii, hdash]

theorem isNumeric_lower (t : Text) :
    ((t.map lowerAscii).all fun c => ('0' ≤ c && c ≤ '9') || c == '.') =
      t.all fun c => ('0' ≤ c && c ≤ '9') || c == '.' := by
  rw [List.all_map]
  congr 1
  funext c
  have hdot : (lowerAscii c == '.') = (c == '.') := by
    rw [Bool.eq_iff_iff, beq_iff_eq, beq_iff_eq, lowerAscii_eq_iff rfl]
  have hdigit : ('0' ≤ lowerAscii c ∧ lowerAscii c ≤ '9') ↔ '0' ≤ c ∧ c ≤ '9' := by
    simp only [char_le_iff, toNat_lowerAscii]
    change (48 ≤ _ ∧ _ ≤ 57) ↔ 48 ≤ _ ∧ _ ≤ 57
    split <;> omega
  rw [Function.comp_apply, hdot, Bool.eq_iff_iff]
  simp only [Bool.or_eq_true, Bool.and_eq_true, decide_eq_true_eq, hdigit]

/-- A host name in lower case is no address either. -/
theorem ofText_lower {t : Text} (ht : IsHostName t) : ofText (t.map lowerAscii) = none := by
  rw [Option.eq_none_iff_forall_ne_some]
  intro a ha
  obtain h | ⟨-, h⟩ := Option.or_eq_some_iff.mp ha
  · -- digits and dots are their own lower case
    obtain ⟨ip, hip, -⟩ := Option.map_eq_some_iff.mp h
    have hnumeric : (t.all fun c => ('0' ≤ c && c ≤ '9') || c == '.') = true := by
      rw [List.all_eq_true]
      intro c hc
      have hlow := parseIpv4_chars hip (lowerAscii c) (List.mem_map_of_mem hc)
      have hn := toNat_lowerAscii c
      obtain hd | hd := hlow
      · simp only [isDecDigit, Bool.and_eq_true, decide_eq_true_eq, char_le_iff] at hd
        change 48 ≤ _ ∧ _ ≤ 57 at hd
        have hc' : 48 ≤ c.toNat ∧ c.toNat ≤ 57 := by
          rw [hn] at hd
          split at hd <;> omega
        simp only [Bool.or_eq_true, Bool.and_eq_true, decide_eq_true_eq, char_le_iff]
        exact .inl hc'
      · simp [(lowerAscii_eq_iff (d := '.') rfl).mp hd]
    rw [ht.not_numeric] at hnumeric
    cases hnumeric
  · simp only [parseIpv6] at h
    split at h
    · cases h
    obtain ⟨⟨addr, scope⟩, hsplit, h⟩ := Option.bind_eq_some_iff.mp h
    obtain ⟨ip, hip, -⟩ := Option.map_eq_some_iff.mp h
    have hcolon : ':' ∈ t.map lowerAscii := by
      rw [(splitScope_some hsplit).1]
      exact List.mem_append_left _ (colon_mem_of_ipv6FromString hip)
    exact ht.no_colon ((mem_lower_iff rfl t).mp hcolon)

/-- Parsing the value of an identity gives the identity back, when it is not too long. -/
theorem parseIdentity_value {v f g : Text} {i j : Identity} (hi : parseIdentity v f = .ok i)
    (hj : parseIdentity i.value g = .ok j) : j = i := by
  obtain ⟨-, -, -, ⟨a, ha, rfl⟩ | ⟨hname, rfl⟩⟩ := of_parseIdentity hi <;>
    obtain ⟨-, -, -, ⟨b, hb, rfl⟩ | ⟨hname', rfl⟩⟩ := of_parseIdentity hj
  · rw [addressIdentity_value, ofText_str_of_ofText ha] at hb
    rw [Option.some.inj hb]
  · rw [addressIdentity_value] at hname'
    have := hname'.not_address
    rw [ofText_str_of_ofText ha] at this
    cases this
  · rw [nameIdentity_value, ofText_lower hname] at hb
    cases hb
  · simp only [nameIdentity, map_lowerAscii_idem]

end ArubaCertRenewer
