import ArubaCertRenewer.ClientArguments
import ArubaCertRenewer.RegexMeasure
import ArubaCertRenewer.Utf8

/- The size of a signing request.

   In the JSON text a line end of the CSR takes two characters and every other character one. A
   line has at least one character, so at worst three characters become five; 64 KiB of CSR text
   stay below 107 KiB, and the names and the description add less than 30 KiB. The guard of
   `_request_json` allows 144 KiB. -/
namespace ArubaCertRenewer
open PyText PyText.Regex IpAddress

/-! ## Escapes -/

def escapedLength (t : Text) : Nat := (t.flatMap Json.escapeChar).length

section escape
variable {c : Char} {t u : Text}

@[simp] theorem escapedLength_nil : escapedLength [] = 0 := rfl

@[simp] theorem escapedLength_cons :
    escapedLength (c :: t) = (Json.escapeChar c).length + escapedLength t := by
  rw [escapedLength, List.flatMap_cons, List.length_append]
  rfl

@[simp] theorem escapedLength_append :
    escapedLength (t ++ u) = escapedLength t + escapedLength u := by
  rw [escapedLength, List.flatMap_append, List.length_append]
  rfl

theorem length_quote (t : Text) : (Json.quote t).length = escapedLength t + 2 := by
  rw [Json.quote, List.length_append, List.length_append]
  show 1 + escapedLength t + 1 = _
  omega

theorem length_escapeChar_le (c : Char) : (Json.escapeChar c).length ≤ 12 := by
  unfold Json.escapeChar
  dsimp only
  repeat' split
  all_goals simp [Json.unicodeEscape]

theorem escapedLength_le (t : Text) : escapedLength t ≤ 12 * t.length := by
  induction t with
  | nil => exact Nat.zero_le _
  | cons c t ih =>
    have hc := length_escapeChar_le c
    rw [escapedLength_cons, List.length_cons]
    omega

/-- A printable character that needs no escape. -/
def isPlain (c : Char) : Bool := 32 ≤ c.toNat && c.toNat ≤ 126 && c != '"' && c != '\\'

theorem escapeChar_plain (hc : isPlain c = true) : Json.escapeChar c = [c] := by
  simp only [isPlain, Bool.and_eq_true, decide_eq_true_eq, bne_iff_ne] at hc
  obtain ⟨⟨⟨hge, hle⟩, hquote⟩, hback⟩ := hc
  have hcontrol : ∀ d : Char, d.toNat < 32 → c ≠ d := by
    intro d hd he
    rw [he] at hge
    omega
  have hn := hcontrol '\n' (by decide)
  have hr := hcontrol '\r' (by decide)
  have ht := hcontrol '\t' (by decide)
  have hf : c.toNat ≠ 12 := by omega
  have hb : c.toNat ≠ 8 := by omega
  simp [Json.escapeChar, hquote, hback, hn, hr, ht, hf, hb, hge, hle]

theorem escapedLength_plain (ht : ∀ c ∈ t, isPlain c = true) : escapedLength t = t.length := by
  induction t with
  | nil => rfl
  | cons c t ih =>
    rw [escapedLength_cons, escapeChar_plain (ht c List.mem_cons_self),
      ih fun d hd => ht d (List.mem_cons_of_mem _ hd)]
    exact Nat.add_comm 1 t.length

theorem isPlain_of_hostChar (hc : isHostChar c = true) : isPlain c = true := by
  simp only [isHostChar, Bool.or_eq_true, isAlnumAscii_iff, beq_iff_eq] at hc
  obtain ((hn | rfl) | rfl) | rfl := hc
  · have hquote : c ≠ '"' := by
      rintro rfl
      revert hn
      decide
    have hback : c ≠ '\\' := by
      rintro rfl
      revert hn
      decide
    simp [isPlain, hquote, hback]
    omega
  all_goals decide

theorem isPlain_of_base64 (hc : isBase64 c = true) : isPlain c = true := by
  simp only [isBase64, Bool.or_eq_true, beq_iff_eq] at hc
  obtain ((h | rfl) | rfl) | rfl := hc
  · exact isPlain_of_hostChar (by simp [isHostChar, h])
  all_goals decide

end escape

/-! ## The CSR text -/

/-- Three characters for five. -/
def escapeWeight (c : Char) : Int := 3 * (Json.escapeChar c).length - 5

theorem weight_escape (t : Text) :
    weight escapeWeight t = 3 * escapedLength t - 5 * t.length := by
  induction t with
  | nil => rfl
  | cons c t ih =>
    rw [weight_cons, ih, escapedLength_cons, List.length_cons, escapeWeight]
    omega

theorem escapeWeight_plain {c : Char} (hc : isPlain c = true) : escapeWeight c = -2 := by
  rw [escapeWeight, escapeChar_plain hc]
  rfl

theorem weighs_crlf : Weighs escapeWeight crlf 2 :=
  .seq (.opt (.lit "\r".toList) (by decide)) (.lit "\n".toList)

theorem weighs_base64 : Weighs escapeWeight (plus (char isBase64)) (-2) := by
  apply Weighs.plus
  · apply Weighs.char
    intro c hc
    exact (escapeWeight_plain (isPlain_of_base64 hc)).le
  · decide

theorem weighs_csrRequestPattern : Weighs escapeWeight csrRequestPattern 0 := by
  have hline : Weighs escapeWeight (seq crlf (plus (char isBase64))) 0 :=
    Weighs.seq weighs_crlf weighs_base64
  have hwhole : Weighs escapeWeight csrRequestPattern _ :=
    .seq (.lit _) (.seq weighs_crlf (.seq weighs_base64 (.seq (.star hline) (.seq weighs_crlf
      (.seq (.lit _) weighs_crlf)))))
  apply hwhole.mono
  decide

theorem length_le_utf8Length (t : Text) : t.length ≤ utf8Length t := by
  induction t with
  | nil => exact Nat.le_refl _
  | cons c t ih =>
    have hc := Char.utf8Size_pos c
    rw [utf8Length, List.length_cons]
    omega

/-- A CSR text that the client takes grows by two thirds at most. -/
theorem escapedLength_csr_le {csrPem : Text} (h : IsCsrText csrPem) :
    3 * escapedLength csrPem ≤ 5 * maxCsrPemBytes := by
  obtain ⟨hsize, -, hpem⟩ := h
  have hlength := length_le_utf8Length csrPem
  have hweight := weight_le_of_fullmatch weighs_csrRequestPattern hpem
  rw [weight_escape] at hweight
  omega

/-! ## The names -/

section names
variable {seen names values canonical : List Text}

theorem checkDnsSans_bound (h : checkDnsSans seen names = .ok ()) :
    ∀ t ∈ names, escapedLength t ≤ 253 := by
  induction names generalizing seen with
  | nil => simp
  | cons t ts ih =>
    simp only [checkDnsSans, checkDnsSan, bind_eq_ok, raiseWhen_eq_ok, Bool.or_eq_false_iff,
      decide_eq_false_iff_not, not_lt] at h
    obtain ⟨-, ⟨-, ⟨-, hlen⟩, -, hlabels⟩, -, -, hrest⟩ := h
    have hchars : ∀ c ∈ t, isPlain c = true := by
      intro c hc
      apply isPlain_of_hostChar
      obtain rfl | ⟨l, hl, hm⟩ := mem_splitOn '.' hc
      · rfl
      · have hlabel := List.any_eq_false.mp hlabels l hl
        exact isHostChar_of_label (by simpa using hlabel) hm
    intro u hu
    obtain rfl | hu := List.mem_cons.mp hu
    · rw [escapedLength_plain hchars]
      exact hlen
    · exact ih hrest u hu

/-- A printed address without a scope. -/
theorem escapedLength_str_le {t : Text} {a : IpAddress} (h : ofText t = some a) (hscope : '%' ∉ t) :
    escapedLength a.str ≤ 253 := by
  obtain ⟨ip, rfl, -⟩ | ⟨ip, addr, scope, rfl, rfl, -, -⟩ := ofText_cases h
  · have hchars : ∀ c ∈ printIpv4 ip, isPlain c = true := fun c hc =>
      isPlain_of_hostChar (isHostChar_of_addressChar (isAddressChar_of_ipv4 (printIpv4_chars hc)))
    show escapedLength (printIpv4 ip) ≤ 253
    rw [escapedLength_plain hchars]
    exact (length_printIpv4_le ip).trans (by decide)
  · cases scope with
    | some s => exact absurd (List.mem_append_right _ List.mem_cons_self) hscope
    | none =>
      have hchars : ∀ c ∈ printIpv6 ip, isPlain c = true := fun c hc =>
        isPlain_of_hostChar (isHostChar_of_addressChar (printIpv6_chars hc))
      rw [str_v6, scopeSuffix, List.append_nil, escapedLength_plain hchars]
      exact (length_printIpv6_le ip).trans (by decide)

theorem canonicalIpSans_bound (h : canonicalIpSans seen values = .ok canonical) :
    canonical.length = values.length ∧ ∀ t ∈ canonical, escapedLength t ≤ 253 := by
  induction values generalizing seen canonical with
  | nil =>
    cases h
    simp
  | cons t ts ih =>
    simp only [canonicalIpSans, bind_eq_ok, raiseWhen_eq_ok, Bool.or_eq_false_iff] at h
    obtain ⟨-, ⟨-, hscope⟩, h⟩ := h
    split at h
    · cases h
    next a ha =>
    simp only [bind_eq_ok, raiseWhen_eq_ok] at h
    obtain ⟨-, -, rest, hrest, he⟩ := h
    cases he
    obtain ⟨hlength, hbound⟩ := ih hrest
    refine ⟨congrArg Nat.succ hlength, ?_⟩
    intro u hu
    obtain rfl | hu := List.mem_cons.mp hu
    · exact escapedLength_str_le ha (by simpa using hscope)
    · exact hbound u hu

/-- Lines are joined by an escaped line end. -/
theorem escapedLength_join_le {k : Nat} {ps : List Text} (h : ∀ p ∈ ps, escapedLength p ≤ k) :
    escapedLength (join ['\n'] ps) ≤ ps.length * (k + 2) := by
  induction ps with
  | nil => exact Nat.zero_le _
  | cons p ps ih =>
    have hp := h p List.mem_cons_self
    have hps := ih fun q hq => h q (List.mem_cons_of_mem _ hq)
    cases ps with
    | nil =>
      rw [join, List.length_singleton]
      omega
    | cons q qs =>
      rw [show join ['\n'] (p :: q :: qs) = p ++ ['\n'] ++ join ['\n'] (q :: qs) from rfl,
        escapedLength_append, escapedLength_append, List.length_cons, Nat.succ_mul]
      have hbreak : escapedLength ['\n'] = 2 := rfl
      omega

end names

/-! ## The request -/

section request
variable {csrPem caref dns ips description digest : Text} {lifetime : Nat}

theorem escapedLength_literal {t : Text} (h : t.all isPlain = true) : escapedLength t = t.length :=
  escapedLength_plain (List.all_eq_true.mp h)

/-- The body of a signing request. -/
def signingBody (csrPem caref digest dns ips description : Text) (lifetime : Nat) : Json :=
  .obj [("cert", .obj
    [("action", .str "sign_csr"),
     ("caref", .str caref),
     ("digest", .str digest),
     ("cert_type", .str "server_cert"),
     ("lifetime", .int lifetime),
     ("key_type", .str "2048"),
     ("csr_payload", .str csrPem),
     ("altnames_dns", .str dns),
     ("altnames_ip", .str ips),
     ("descr", .str description)])]

theorem length_signingBody : (signingBody csrPem caref digest dns ips description lifetime).dumps.length =
    192 + escapedLength csrPem + escapedLength caref + escapedLength digest + escapedLength dns +
      escapedLength ips + escapedLength description + (ofInt lifetime).length := by
  simp (disch := decide) only [signingBody, Json.dumps, Json.dumpsMembers, join, List.length_append,
    length_quote, escapedLength_literal]
  simp only [String.reduceToList, List.length_cons, List.length_nil]
  omega

theorem isAscii_append (t u : Text) : isAscii (t ++ u) = (isAscii t && isAscii u) := List.all_append

theorem isAscii_hexDigit {n : Nat} (hn : n < 16) : (Json.hexDigit n).toNat < 128 := by
  have hall : ∀ n < 16, (Json.hexDigit n).toNat < 128 := by decide
  exact hall n hn

theorem isAscii_unicodeEscape (n : Nat) : isAscii (Json.unicodeEscape n) = true := by
  have hdigit : ∀ m, (Json.hexDigit (m % 16)).toNat < 128 :=
    fun m => isAscii_hexDigit (Nat.mod_lt m (by decide))
  simp [isAscii, Json.unicodeEscape, hdigit]

theorem isAscii_escapeChar (c : Char) : isAscii (Json.escapeChar c) = true := by
  unfold Json.escapeChar
  dsimp only
  repeat' split
  all_goals try rfl
  · next h =>
    simp only [Bool.and_eq_true, decide_eq_true_eq] at h
    rw [isAscii, List.all_cons, List.all_nil, Bool.and_true, decide_eq_true_eq]
    omega
  · exact isAscii_unicodeEscape _
  · rw [isAscii_append, isAscii_unicodeEscape, isAscii_unicodeEscape]
    rfl

theorem isAscii_quote (t : Text) : isAscii (Json.quote t) = true := by
  have hescape : isAscii (t.flatMap Json.escapeChar) = true := by
    rw [isAscii, List.all_flatMap, List.all_eq_true]
    intro c _
    exact isAscii_escapeChar c
  rw [Json.quote, isAscii_append, isAscii_append, hescape]
  rfl

theorem isAscii_ofNat (n : Nat) : isAscii (ofInt n) = true := by
  have hdigits := List.all_eq_true.mp (ofNat_dec n)
  show isAscii (ofNat n) = true
  rw [isAscii, List.all_eq_true]
  intro c hc
  have hplain := isPlain_of_hostChar (isHostChar_of_addressChar (isAddressChar_of_hex
    (isHexDigit_of_dec (hdigits c hc))))
  simp only [isPlain, Bool.and_eq_true, decide_eq_true_eq] at hplain
  rw [decide_eq_true_eq]
  omega

theorem length_ofNat_le {n : Nat} (hn : n ≤ 3650) : (ofInt n).length ≤ 4 := by
  show (ofNat n).length ≤ 4
  rw [ofNat_eq]
  exact (Nat.length_toDigits_le_iff (by decide) (by decide)).mpr (by omega)

/-- A body is ASCII, whatever its texts hold. -/
theorem isAscii_signingBody :
    isAscii (signingBody csrPem caref digest dns ips description lifetime).dumps = true := by
  simp only [signingBody, Json.dumps, Json.dumpsMembers, join, isAscii_append, isAscii_quote,
    isAscii_ofNat]
  rfl

theorem utf8Length_of_ascii {t : Text} (h : isAscii t = true) : utf8Length t = t.length := by
  induction t with
  | nil => rfl
  | cons c t ih =>
    rw [isAscii, List.all_cons, Bool.and_eq_true, decide_eq_true_eq] at h
    have hsize : c.utf8Size = 1 := by
      rw [← String.length_utf8EncodeChar, utf8EncodeChar_ascii h.1]
      rfl
    rw [utf8Length, ih h.2, hsize, List.length_cons, Nat.add_comm]

/-- A signing request that passes the client's own checks is within the limit on its size, so the
guard of `_request_json` never refuses one. -/
theorem signing_request_fits {settings : OpnsenseSettings} {dnsNames ipAddresses : List Text}
    {request : Json}
    (h : signRequest csrPem caref settings dnsNames ipAddresses description = .ok request) :
    (encodeUtf8 request.dumps).length ≤ maxOpnsenseSignRequestBytes ∧
      ∀ path, checkRequestSize path (some request) = .ok () := by
  simp only [signRequest, bind_eq_ok, raiseWhen_eq_ok, decide_eq_false_iff_not, not_lt,
    Bool.not_eq_false'] at h
  obtain ⟨-, hsize, -, hascii, -, hpem, -, hcaref, _, hsafe, canonical, hsans, he⟩ := h
  obtain rfl : signingBody csrPem caref settings.digest (join "\n" dnsNames) (join "\n" canonical)
    description settings.lifetimeDays = request := Except.ok.inj he
  simp only [validateSans, bind_eq_ok, raiseWhen_eq_ok, Bool.or_eq_false_iff,
    decide_eq_false_iff_not, not_lt] at hsans
  obtain ⟨-, ⟨-, hcount⟩, _, hdns, hips⟩ := hsans
  obtain ⟨hlength, hips⟩ := canonicalIpSans_bound hips
  -- The parts: the CSR text, the names, and what is left.
  have hcsr : 3 * escapedLength csrPem ≤ 5 * maxCsrPemBytes := escapedLength_csr_le ⟨hsize, hascii, hpem⟩
  have hdns' : escapedLength (join "\n" dnsNames) ≤ dnsNames.length * 255 :=
    escapedLength_join_le (checkDnsSans_bound hdns)
  have hips' : escapedLength (join "\n" canonical) ≤ canonical.length * 255 :=
    escapedLength_join_le hips
  have hcaref' : escapedLength caref ≤ 156 := by
    simp only [isCaReference, Bool.and_eq_true, beq_iff_eq] at hcaref
    have := escapedLength_le caref
    omega
  have hdigest : escapedLength settings.digest ≤ 72 := by
    have hlen : settings.digest.length = 6 := by
      have hmem := settings.digest_ok
      simp only [List.mem_cons, List.not_mem_nil, or_false] at hmem
      obtain hd | hd | hd := hmem <;> rw [hd] <;> rfl
    have := escapedLength_le settings.digest
    omega
  have hdescription : escapedLength description ≤ 12 * maxDescriptionChars := by
    simp only [validateSafeText, bind_eq_ok, raiseWhen_eq_ok, decide_eq_false_iff_not, not_lt] at hsafe
    obtain ⟨-, hlen, -⟩ := hsafe
    exact (escapedLength_le description).trans (Nat.mul_le_mul_left 12 hlen)
  have hlifetime := length_ofNat_le settings.lifetime_ok.2
  have hfits : (signingBody csrPem caref settings.digest (join "\n" dnsNames) (join "\n" canonical)
      description settings.lifetimeDays).dumps.length ≤ maxOpnsenseSignRequestBytes := by
    rw [length_signingBody]
    simp only [maxSanEntries, maxCsrPemBytes, maxDescriptionChars,
      maxOpnsenseSignRequestBytes] at *
    omega
  refine ⟨?_, ?_⟩
  · rw [length_encodeUtf8, utf8Length_of_ascii isAscii_signingBody]
    exact hfits
  · intro path
    rw [checkRequestSize, raiseWhen_eq_ok, Bool.and_eq_false_iff]
    right
    rw [decide_eq_false_iff_not, not_lt]
    exact hfits

theorem signing_request_fits_site :
    ∃ request, signRequest shortCsrText "0123456789abc" siteOpnsense ["switch.example"] ["192.0.2.1"]
      "Aruba Web certificate" = .ok request ∧
      ((encodeUtf8 request.dumps).length ≤ maxOpnsenseSignRequestBytes ∧
        ∀ path, checkRequestSize path (some request) = .ok ()) := by
  have haccepted : signRequest shortCsrText "0123456789abc" siteOpnsense ["switch.example"]
      ["192.0.2.1"] "Aruba Web certificate" = .ok (signingBody shortCsrText "0123456789abc" "sha256"
        "switch.example" "192.0.2.1" "Aruba Web certificate" 365) := by rfl
  exact ⟨_, haccepted, signing_request_fits haccepted⟩

end request

end ArubaCertRenewer
