import ArubaCertRenewer.Identities

/- `parse_identity` as a canonical form.

   The value of an identity is parsed again wherever a stored host is used: by the lock
   name, by the certificate identities, by the next validation. It parses back to the
   identity it came from, as long as it is no longer than a host may be. The length is
   checked on the text that is given, and `ipaddress` may print an address longer than it
   was written: `1::3:4:5:6:7:8` becomes `1:0:3:4:5:6:7:8`, and `::ffff:a0b:c0d` becomes
   `::ffff:10.11.12.13`. An address without a scope is far from the bound; a scope can
   bring it there. -/
namespace ArubaCertRenewer
open PyText IpAddress

/-- A scoped address that prints as more characters than a host may have. -/
def printsTooLong (value : Text) : Bool :=
  match ofText value with
  | some (.v6 ip (some scope)) => 253 < (IpAddress.v6 ip none).str.length + 1 + scope.length
  | _ => false

/-! ## What is accepted -/

/-- The shape a text needs before it is read as an address or a name. -/
structure IsHostText (t : Text) : Prop where
  ne_nil : t ≠ []
  short : t.length ≤ 253
  chars : ∀ c ∈ t, isSpace c = false ∧ 32 ≤ c.toNat

theorem isHostText_iff {t : Text} : IsHostText t ↔
    (t.isEmpty || 253 < t.length || t.any fun c => isSpace c || c.toNat < 32) = false := by
  simp only [Bool.or_eq_false_iff, List.isEmpty_eq_false_iff, decide_eq_false_iff_not, not_lt,
    List.any_eq_false, Bool.not_eq_true]
  exact ⟨fun h => ⟨⟨h.ne_nil, h.short⟩, h.chars⟩, fun h => ⟨h.1.1, h.1.2, h.2⟩⟩

/-- Whatever the text is, its shape is checked first. -/
theorem isHostText_of_accepted {t fieldName : Text} {i : Identity}
    (h : parseIdentity t fieldName = .ok i) : IsHostText t := by
  obtain ⟨hne, hlen, hchars, -⟩ := of_parseIdentity h
  exact ⟨hne, hlen, hchars⟩

theorem parseIdentity_address {t : Text} (ht : IsHostText t) {a : IpAddress}
    (ha : ofText t = some a) (fieldName : Text) :
    parseIdentity t fieldName = .ok (addressIdentity a) := by
  unfold parseIdentity
  rw [isHostText_iff.mp ht, ha]
  cases a with
  | v4 ip => rfl
  | v6 ip scope => rfl

/-- A name has no wildcard. -/
theorem IsHostName.no_wildcard {t : Text} (ht : IsHostName t) : '*' ∉ t := by
  intro hm
  have hhost := ht.chars hm
  revert hhost
  decide

theorem parseIdentity_name {t : Text} (ht : IsHostText t) (hname : IsHostName t)
    (fieldName : Text) : parseIdentity t fieldName = .ok (nameIdentity t) := by
  have hcolon : t.contains ':' = false := by simpa using hname.no_colon
  have hwild : t.contains '*' = false := by simpa using hname.no_wildcard
  have hlabels : ((splitOn '.' t).any fun l => !isDnsLabel l) = false := by
    refine List.any_eq_false.mpr fun l hl => ?_
    simpa using hname.labels l hl
  unfold parseIdentity
  simp only [isHostText_iff.mp ht, hname.not_address, hcolon, hname.not_numeric, hwild, hlabels]
  rfl

/-! ## The value as a text -/

/-- A name stays a name in lower case. -/
theorem IsHostName.lower {t : Text} (ht : IsHostName t) : IsHostName (t.map lowerAscii) where
  not_address := ofText_lower ht
  no_colon := by
    rw [mem_lower_iff rfl]
    exact ht.no_colon
  not_numeric := by
    rw [isNumeric_lower]
    exact ht.not_numeric
  labels := by
    rw [splitOn_map fun c => lowerAscii_eq_iff rfl]
    intro l hl
    obtain ⟨k, hk, rfl⟩ := List.mem_map.mp hl
    rw [isDnsLabel_lower]
    exact ht.labels k hk

theorem str_scoped (ip : BitVec 128) (scope : Text) :
    (v6 ip (some scope)).str.length = (v6 ip none).str.length + 1 + scope.length := by
  rw [str_v6, str_v6, List.length_append, List.length_append]
  simp only [scopeSuffix, List.length_cons, List.length_nil]
  omega

/-- A value is too long only where an address prints so. -/
theorem length_value {v fieldName : Text} {i : Identity} (h : parseIdentity v fieldName = .ok i) :
    i.value.length ≤ 253 ↔ printsTooLong v = false := by
  obtain ⟨-, hlen, -, ⟨a, ha, rfl⟩ | ⟨hname, rfl⟩⟩ := of_parseIdentity h
  · unfold printsTooLong
    rw [ha, addressIdentity_value]
    cases a with
    | v4 ip =>
      have hshort : (v4 ip).str.length ≤ 16 := length_printIpv4_le ip
      exact ⟨fun _ => rfl, fun _ => by omega⟩
    | v6 ip scope =>
      cases scope with
      | none =>
        have hshort : (v6 ip none).str.length ≤ 64 := length_printIpv6_le ip
        exact ⟨fun _ => rfl, fun _ => by omega⟩
      | some s =>
        rw [str_scoped, decide_eq_false_iff_not, not_lt]
  · unfold printsTooLong
    rw [hname.not_address, nameIdentity_value, List.length_map]
    exact ⟨fun _ => rfl, fun _ => hlen⟩

/-- A value that is not too long is parsed back. -/
theorem parseIdentity_value_ok {v fieldName : Text} {i : Identity}
    (h : parseIdentity v fieldName = .ok i) (hlen : i.value.length ≤ 253) (again : Text) :
    parseIdentity i.value again = .ok i := by
  have ht : IsHostText i.value := ⟨value_ne_nil h, hlen, fun c hc => value_chars h hc⟩
  obtain ⟨-, -, -, ⟨a, ha, rfl⟩ | ⟨hname, rfl⟩⟩ := of_parseIdentity h
  · exact parseIdentity_address ht (ofText_str_of_ofText ha) again
  · have hagain := parseIdentity_name ht hname.lower again
    rw [hagain]
    simp only [nameIdentity, map_lowerAscii_idem]

/-! ## Keys and values -/

/-- What prints as an address is one. -/
theorem kind_of_value {v w f g : Text} {i j : Identity} (hi : parseIdentity v f = .ok i)
    (hj : parseIdentity w g = .ok j) (hvalue : i.value = j.value) : i.kind = .dns → j.kind = .dns := by
  intro hkind
  obtain ⟨-, -, -, ⟨a, -, rfl⟩ | ⟨hname, rfl⟩⟩ := of_parseIdentity hi
  · exact absurd hkind (addressIdentity_kind a)
  obtain ⟨-, -, -, ⟨b, hb, rfl⟩ | ⟨-, rfl⟩⟩ := of_parseIdentity hj
  · have hnone := ofText_lower hname
    have hback := ofText_str_of_ofText hb
    rw [nameIdentity_value, addressIdentity_value] at hvalue
    rw [hvalue, hback] at hnone
    cases hnone
  · rfl

theorem key_eq_iff_value_eq {v w f g : Text} {i j : Identity} (hi : parseIdentity v f = .ok i)
    (hj : parseIdentity w g = .ok j) : i.key = j.key ↔ i.value = j.value := by
  constructor
  · intro hkey
    rw [identity_eq_of_key hi hj hkey]
  · intro hvalue
    have hkind : i.kind = .dns ↔ j.kind = .dns :=
      ⟨kind_of_value hi hj hvalue, kind_of_value hj hi hvalue.symm⟩
    exact key_eq_of_value hi hj hkind hvalue

/-- The identity of a text is canonical: its value parses back to the same kind, value and key,
and its key is that of another accepted text exactly when its value is. -/
def IsCanonical (identity : Identity) : Prop :=
  (∀ fieldName, parseIdentity identity.value fieldName = .ok identity) ∧
    ∀ w g j, parseIdentity w g = .ok j → (identity.key = j.key ↔ identity.value = j.value)

/-- Every accepted text has a canonical identity, but for the scoped addresses that print as more
than 253 characters. -/
theorem canonical_unless_too_long {v fieldName : Text} {identity : Identity}
    (h : parseIdentity v fieldName = .ok identity) :
    IsCanonical identity ↔ printsTooLong v = false := by
  rw [← length_value h]
  constructor
  · intro hcanonical
    exact (isHostText_of_accepted (hcanonical.1 fieldName)).short
  · intro hlen
    refine ⟨fun again => parseIdentity_value_ok h hlen again, fun w g j hj => ?_⟩
    exact key_eq_iff_value_eq h hj

theorem canonical_unless_too_long_site :
    IsCanonical ⟨.ipv6, "fe80::1%vlan1", .ip (.v6 0xfe800000000000000000000000000001#128
      (some "vlan1"))⟩ ↔ printsTooLong "FE80:0:0::1%vlan1" = false :=
  canonical_unless_too_long (show parseIdentity _ "host" = .ok _ by decide)

/-- An address of 253 characters, that prints as 254. -/
def outgrownHost : Text := "1::3:4:5:6:7:8%" ++ List.replicate 238 'a'

/-- It is accepted, and what it is stored as is not: `get_certificate_identities` raises for it. -/
theorem canonical_too_long : ∃ identity, parseIdentity outgrownHost "host" = .ok identity ∧
    identity.value = "1:0:3:4:5:6:7:8%" ++ List.replicate 238 'a' ∧
    parseIdentity identity.value "switch identity" =
      .error (valueError "switch identity contains unsupported characters") ∧
    ¬ IsCanonical identity := by
  have hagain : parseIdentity ("1:0:3:4:5:6:7:8%" ++ List.replicate 238 'a') "switch identity" =
      .error (valueError "switch identity contains unsupported characters") := by decide +kernel
  refine ⟨⟨.ipv6, "1:0:3:4:5:6:7:8%" ++ List.replicate 238 'a',
    .ip (.v6 0x00010000000300040005000600070008#128 (some (List.replicate 238 'a')))⟩,
    by decide +kernel, rfl, hagain, fun hcanonical => ?_⟩
  have hback := hcanonical.1 "switch identity"
  rw [hagain] at hback
  cases hback

end ArubaCertRenewer
