import ArubaCertRenewer.Identities
import ArubaCertRenewer.Url

/- The URLs that `validate_base_url` accepts: HTTPS origins, with one slash behind them or none.

   The splitter reads a host in lower case, which changes neither whether it is a name nor
   which address it is. -/
namespace ArubaCertRenewer
open PyText IpAddress

/-! ## Lower case -/

section lower
variable {c : Char} {t : Text}

theorem isDecDigit_iff : isDecDigit c = true ↔ 48 ≤ c.toNat ∧ c.toNat ≤ 57 := by
  rw [isDecDigit, Bool.and_eq_true, decide_eq_true_eq, decide_eq_true_eq, char_le_iff, char_le_iff]
  rfl

theorem isHexDigit_iff : isHexDigit c = true ↔ (48 ≤ c.toNat ∧ c.toNat ≤ 57) ∨
    (97 ≤ c.toNat ∧ c.toNat ≤ 102) ∨ (65 ≤ c.toNat ∧ c.toNat ≤ 70) := by
  rw [isHexDigit, Bool.or_eq_true, Bool.or_eq_true, isDecDigit_iff, or_assoc]
  simp only [Bool.and_eq_true, decide_eq_true_eq, char_le_iff]
  rfl

theorem isDecDigit_lowerAscii (c : Char) : isDecDigit (lowerAscii c) = isDecDigit c := by
  rw [Bool.eq_iff_iff, isDecDigit_iff, isDecDigit_iff, toNat_lowerAscii]
  split <;> omega

theorem isHexDigit_lowerAscii (c : Char) : isHexDigit (lowerAscii c) = isHexDigit c := by
  rw [Bool.eq_iff_iff, isHexDigit_iff, isHexDigit_iff, toNat_lowerAscii]
  split <;> omega

theorem lowerAscii_of_digit (hc : isDecDigit c = true) : lowerAscii c = c := by
  rw [isDecDigit_iff] at hc
  apply Char.ext
  apply UInt32.toNat_inj.mp
  show (lowerAscii c).toNat = c.toNat
  rw [toNat_lowerAscii, if_neg (by omega)]

theorem hexValue_lowerAscii (c : Char) : IpAddress.hexValue (lowerAscii c) = IpAddress.hexValue c := by
  have hdec : ∀ d : Char, isDecDigit d = decide (48 ≤ d.toNat ∧ d.toNat ≤ 57) := by
    intro d
    rw [Bool.eq_iff_iff, isDecDigit_iff, decide_eq_true_eq]
  simp only [IpAddress.hexValue, hdec, toNat_lowerAscii, decide_eq_true_eq]
  split_ifs <;> omega

theorem parseOctet_lower (t : Text) : parseOctet (t.map lowerAscii) = parseOctet t := by
  cases hall : t.all isDecDigit with
  | true =>
    have hsame : t.map lowerAscii = t := by
      conv => rhs; rw [← List.map_id t]
      apply List.map_congr_left
      intro c hc
      exact lowerAscii_of_digit (List.all_eq_true.mp hall c hc)
    rw [hsame]
  | false =>
    have hall' : (t.map lowerAscii).all isDecDigit = false := by
      rw [List.all_map, ← hall]
      congr 1
      funext c
      exact isDecDigit_lowerAscii c
    simp [parseOctet, hall, hall']

theorem parseHextet_lower (t : Text) : parseHextet (t.map lowerAscii) = parseHextet t := by
  have hall : (t.map lowerAscii).all isHexDigit = t.all isHexDigit := by
    rw [List.all_map]
    congr 1
    funext c
    exact isHexDigit_lowerAscii c
  have hvalue : hexText (t.map lowerAscii) = hexText t := by
    rw [hexText, hexText, List.foldl_map]
    apply List.foldl_ext
    intro n c _
    rw [hexValue_lowerAscii]
  simp only [parseHextet, hall, hvalue, List.isEmpty_map, List.length_map]

theorem mapM_lower {f : Text → Option Nat} (hf : ∀ t, f (t.map lowerAscii) = f t) (ts : List Text) :
    (ts.map (List.map lowerAscii)).mapM f = ts.mapM f := by
  rw [List.mapM_map]
  congr 1
  funext t
  exact hf t

theorem parseIpv4_lower (t : Text) : parseIpv4 (t.map lowerAscii) = parseIpv4 t := by
  have hslash : (t.map lowerAscii).contains '/' = t.contains '/' := by
    rw [Bool.eq_iff_iff, List.contains_iff_mem, List.contains_iff_mem, mem_lower_iff rfl]
  simp only [parseIpv4, hslash, splitOn_map fun c => lowerAscii_eq_iff (d := '.') rfl,
    List.length_map, mapM_lower parseOctet_lower]

theorem toDigits_lower (n : Nat) : (Nat.toDigits 16 n).map lowerAscii = Nat.toDigits 16 n := by
  have hdigit : ∀ k < 16, lowerAscii k.digitChar = k.digitChar := by decide
  induction n using Nat.strongRecOn with
  | ind n ih =>
    rw [Nat.toDigits_eq_if (by decide)]
    split
    · next hn => rw [List.map_singleton, hdigit n hn]
    · next hn =>
      rw [List.map_append, ih (n / 16) (by omega), List.map_singleton,
        hdigit _ (Nat.mod_lt n (by decide))]

theorem ipv6Parts_lower (t : Text) :
    ipv6Parts (t.map lowerAscii) = (ipv6Parts t).map (List.map (List.map lowerAscii)) := by
  simp only [ipv6Parts, splitOn_map fun c => lowerAscii_eq_iff (d := ':') rfl, List.length_map,
    List.getLast?_map]
  split
  · rfl
  cases (splitOn ':' t).getLast? with
  | none => rfl
  | some last =>
    have hdot : (last.map lowerAscii).contains '.' = last.contains '.' := by
      rw [Bool.eq_iff_iff, List.contains_iff_mem, List.contains_iff_mem, mem_lower_iff rfl]
    simp only [Option.map_some, hdot, parseIpv4_lower]
    split
    · cases parseIpv4 last with
      | none => rfl
      | some ip => simp [toDigits_lower, List.map_dropLast]
    · rfl

theorem ipv6FromString_lower (t : Text) : ipv6FromString (t.map lowerAscii) = ipv6FromString t := by
  have hempty : ∀ (ps : List Text) i,
      ((ps.map (List.map lowerAscii)).getD i []).isEmpty = (ps.getD i []).isEmpty := by
    intro ps i
    rw [List.getD_eq_getElem?_getD, List.getD_eq_getElem?_getD, List.getElem?_map]
    cases ps[i]? with
    | none => rfl
    | some p => exact List.isEmpty_map
  unfold ipv6FromString
  rw [ipv6Parts_lower]
  cases ipv6Parts t with
  | none => rfl
  | some parts =>
    simp only [Option.map_some, Option.bind_eq_bind, Option.bind_some, List.length_map, hempty,
      ← List.map_take, ← List.map_drop, mapM_lower parseHextet_lower]

/-- An address without a scope is read alike in either case. -/
theorem ofText_lower_of_no_scope (ht : '%' ∉ t) : ofText (t.map lowerAscii) = ofText t := by
  have hslash : (t.map lowerAscii).contains '/' = t.contains '/' := by
    rw [Bool.eq_iff_iff, List.contains_iff_mem, List.contains_iff_mem, mem_lower_iff rfl]
  have hsplit : ∀ u : Text, '%' ∉ u → splitScope u = some (u, none) := by
    intro u hu
    have happend : splitScope (u ++ scopeSuffix none) = some (u, none) :=
      splitScope_append hu fun s hs => by cases hs
    rwa [scopeSuffix, List.append_nil] at happend
  have hlower : '%' ∉ t.map lowerAscii := mt (mem_lower_iff rfl t).mp ht
  rw [ofText, ofText, parseIpv4_lower, parseIpv6, parseIpv6, hslash, hsplit _ ht, hsplit _ hlower]
  simp only [Option.bind_eq_bind, Option.bind_some, ipv6FromString_lower]

theorem lowerAscii_eq_zero (c : Char) : lowerAscii c = '0' ↔ c = '0' := by
  constructor
  · intro h
    have hdigit : isDecDigit c = true := by
      rw [← isDecDigit_lowerAscii, h]
      rfl
    rwa [lowerAscii_of_digit hdigit] at h
  · intro h
    rw [h]
    rfl

theorem isLetterX_lowerAscii (c : Char) :
    (lowerAscii c == 'x' || lowerAscii c == 'X') = (c == 'x' || c == 'X') := by
  have hchar : ∀ d e : Char, d = e ↔ d.toNat = e.toNat := by
    intro d e
    exact ⟨congrArg _, fun h => Char.ext (UInt32.toNat_inj.mp h)⟩
  rw [Bool.eq_iff_iff]
  simp only [Bool.or_eq_true, beq_iff_eq, hchar, toNat_lowerAscii]
  change (_ = 120 ∨ _ = 88) ↔ c.toNat = 120 ∨ c.toNat = 88
  split <;> omega

theorem isNumericHostComponent_lower (t : Text) :
    isNumericHostComponent (t.map lowerAscii) = isNumericHostComponent t := by
  have hdec : isDecDigit ∘ lowerAscii = isDecDigit := funext isDecDigit_lowerAscii
  have hhex : isHexDigit ∘ lowerAscii = isHexDigit := funext isHexDigit_lowerAscii
  unfold isNumericHostComponent
  rw [List.isEmpty_map, List.all_map, hdec]
  congr 1
  rcases t with _ | ⟨c, _ | ⟨x, hex⟩⟩
  · rfl
  · simp
  · by_cases hc : c = '0'
    · rw [hc]
      show ((lowerAscii x == 'x' || lowerAscii x == 'X') && !(hex.map lowerAscii).isEmpty &&
        (hex.map lowerAscii).all isHexDigit) = _
      rw [isLetterX_lowerAscii, List.isEmpty_map, List.all_map, hhex]
      rfl
    · have hc' : lowerAscii c ≠ '0' := mt (lowerAscii_eq_zero c).mp hc
      simp [hc, hc']

end lower

/-! ## Partitions -/

section partition
variable {sep : Char} {a b t : Text}

theorem takeWhile_ne_append (ha : sep ∉ a) (b : Text) :
    (a ++ b).takeWhile (· != sep) = a ++ b.takeWhile (· != sep) :=
  List.takeWhile_append_of_pos fun _ hc => bne_iff_ne.mpr fun he => ha (he ▸ hc)

theorem partition_of_not_mem (ht : sep ∉ t) : partition sep t = (t, false, []) := by
  have hall : t.takeWhile (· != sep) = t := by
    have happend := takeWhile_ne_append ht []
    rwa [List.takeWhile_nil, List.append_nil] at happend
  rw [partition, hall, List.drop_length]

theorem partition_append (ha : sep ∉ a) : partition sep (a ++ sep :: b) = (a, true, b) := by
  have hprefix : (a ++ sep :: b).takeWhile (· != sep) = a := by
    rw [takeWhile_ne_append ha, List.takeWhile_cons_of_neg (by simp), List.append_nil]
  rw [partition, hprefix, List.drop_left]

theorem rpartition_of_not_mem (ht : sep ∉ t) : rpartition sep t = ([], false, t) := by
  rw [rpartition, partition_of_not_mem (mt List.mem_reverse.mp ht)]
  simp

end partition

/-! ## Origins -/

/-- A host in a URL: a DNS name that does not look like an IPv4 address, a dotted IPv4 address, or
an IPv6 address without a scope between brackets. -/
inductive IsUrlHost : Text → Prop
  | name {host : Text} (length_le : host.length ≤ 253)
      (labels : ∀ l ∈ splitOn '.' host, isDnsLabel l = true)
      (no_look_alike : ∃ l ∈ splitOn '.' host, isNumericHostComponent l = false) : IsUrlHost host
  | v4 {host : Text} {ip : BitVec 32} (address : ofText host = some (.v4 ip)) : IsUrlHost host
  | v6 {host : Text} {ip : BitVec 128} (address : ofText host = some (.v6 ip none)) :
      IsUrlHost ('[' :: (host ++ [']']))

structure IsPort (port : Text) : Prop where
  nonempty : port ≠ []
  digits : port.all isDecDigit = true
  pos : 1 ≤ decText port
  le : decText port ≤ 65535

structure Origin where
  scheme : Text
  host : Text
  port : Option Text
  scheme_ok : scheme.map lowerAscii = "https".toList
  host_ok : IsUrlHost host
  port_ok : ∀ p, port = some p → IsPort p

def portSuffix : Option Text → Text
  | none => []
  | some p => ':' :: p

namespace Origin

def authority (o : Origin) : Text := o.host ++ portSuffix o.port

def text (o : Origin) : Text := o.scheme ++ ':' :: '/' :: '/' :: o.authority

end Origin

/-! ## Authorities -/

/-- What `validate_base_url` demands of the authority of a URL. -/
structure AuthorityOk (u : SplitUrl) : Prop where
  brackets : bracketsOk u.netloc = true
  host_ne : u.hostname ≠ []
  no_userinfo : u.hasUserinfo = false
  port_text : ∃ text, portText u.netloc = .ok text ∧
    ∀ p, text = some p → p ≠ [] ∧ p.all isDecDigit = true
  port : ∃ port, u.port = .ok port ∧ port ≠ some 0
  host : validateUrlHostname u.hostname (u.netloc.head? == some '[') = .ok ()

section authority
variable {u : SplitUrl} {host rest : Text} {port : Option Text}

theorem hostinfo_of_no_bracket (huser : '@' ∉ u.netloc) (hbracket : '[' ∉ u.netloc) :
    u.hostinfo = ((partition ':' u.netloc).1,
      if (partition ':' u.netloc).2.2.isEmpty then none else some (partition ':' u.netloc).2.2) := by
  rw [SplitUrl.hostinfo, rpartition_of_not_mem huser, partition_of_not_mem hbracket]

theorem hostinfo_of_bracket (huser : '@' ∉ u.netloc)
    (hnetloc : u.netloc = '[' :: (host ++ ']' :: rest)) (hhost : ']' ∉ host) :
    u.hostinfo = (host,
      if (partition ':' rest).2.2.isEmpty then none else some (partition ':' rest).2.2) := by
  have hopen : partition '[' u.netloc = ([], true, host ++ ']' :: rest) := by
    rw [hnetloc]
    exact partition_append (a := []) List.not_mem_nil
  rw [SplitUrl.hostinfo, rpartition_of_not_mem huser]
  simp only [hopen, partition_append hhost]

theorem partition_portSuffix (hport : ∀ p, port = some p → p ≠ []) :
    (if (partition ':' (portSuffix port)).2.2.isEmpty then none
      else some (partition ':' (portSuffix port)).2.2) = port := by
  cases port with
  | none => rfl
  | some p =>
    have hp : partition ':' (portSuffix (some p)) = ([], true, p) :=
      partition_append (a := []) List.not_mem_nil
    rw [hp, if_neg]
    simpa using hport p rfl

/-- A host is checked in lower case, which makes no difference. -/
theorem validateUrlHostname_eq_ok {bracketed : Bool} :
    validateUrlHostname (host.map lowerAscii) bracketed = .ok () ↔ '%' ∉ host ∧
      ((∃ ip, ofText host = some (.v4 ip)) ∧ bracketed = false ∨
        (∃ ip scope, ofText host = some (.v6 ip scope)) ∧ bracketed = true ∨
        ofText host = none ∧ bracketed = false ∧
          (∃ l ∈ splitOn '.' host, isNumericHostComponent l = false) ∧ host.length ≤ 253 ∧
          ∀ l ∈ splitOn '.' host, isDnsLabel l = true) := by
  by_cases hscope : '%' ∈ host
  · have hlower : (host.map lowerAscii).contains '%' = true := by
      rw [List.contains_iff_mem, mem_lower_iff rfl]
      exact hscope
    constructor
    · intro h
      obtain ⟨_, hno, -⟩ := bind_eq_ok.mp h
      rw [raiseWhen_eq_ok, hlower] at hno
      cases hno
    · intro h
      exact absurd hscope h.1
  · have hlower : (host.map lowerAscii).contains '%' = false := by
      rw [← Bool.not_eq_true, List.contains_iff_mem, mem_lower_iff rfl]
      exact hscope
    have hnumeric : ((splitOn '.' host).map (List.map lowerAscii)).all isNumericHostComponent =
        (splitOn '.' host).all isNumericHostComponent := by
      rw [List.all_map]
      congr 1
      funext l
      exact isNumericHostComponent_lower l
    have hlabels : ((splitOn '.' host).map (List.map lowerAscii)).any (fun l => !isDnsLabel l) =
        (splitOn '.' host).any fun l => !isDnsLabel l := by
      rw [List.any_map]
      congr 1
      funext l
      exact congrArg _ (isDnsLabel_lower l)
    simp only [validateUrlHostname, bind_eq_ok, raiseWhen_eq_ok, hlower,
      ofText_lower_of_no_scope hscope, splitOn_map fun c => lowerAscii_eq_iff (d := '.') rfl,
      List.length_map, hnumeric, hlabels]
    cases haddress : ofText host with
    | none =>
      have hno : (splitOn '.' host).all isNumericHostComponent = false ↔
          ∃ l ∈ splitOn '.' host, isNumericHostComponent l = false := by
        rw [List.all_eq_false]
        simp only [Bool.not_eq_true]
      have hyes : ((splitOn '.' host).any fun l => !isDnsLabel l) = false ↔
          ∀ l ∈ splitOn '.' host, isDnsLabel l = true := by
        rw [List.any_eq_false]
        simp only [Bool.not_eq_true, Bool.not_eq_false']
      simp only [bind_eq_ok, raiseWhen_eq_ok, Bool.or_eq_false_iff, hno, hyes,
        decide_eq_false_iff_not, not_lt, reduceCtorEq, exists_false, false_and, false_or, true_and,
        exists_const, and_assoc, hscope, not_false_eq_true]
    | some a => cases a <;> simp [hscope, raiseWhen_eq_ok]

/-! What the parts of an authority read it as. -/

theorem reads_plain (huser : '@' ∉ u.netloc) (hbracket : '[' ∉ u.netloc) (hcolon : ':' ∉ host)
    (hnetloc : u.netloc = host ++ portSuffix port) (hport : ∀ p, port = some p → p ≠ []) :
    portText u.netloc = .ok port ∧ u.hostinfo = (host, port) ∧
      (u.netloc.head? == some '[') = false := by
  have hhead : (u.netloc.head? == some '[') = false := by
    rw [beq_eq_false_iff_ne]
    intro he
    exact hbracket (List.mem_of_head? he)
  have hread : partition ':' u.netloc = (host, port.isSome, port.getD []) := by
    rw [hnetloc]
    cases port with
    | none =>
      rw [portSuffix, List.append_nil]
      exact partition_of_not_mem hcolon
    | some p => exact partition_append hcolon
  refine ⟨?_, ?_, hhead⟩
  · rw [portText, hhead, hread]
    cases port <;> rfl
  · rw [hostinfo_of_no_bracket huser hbracket, hread]
    cases port with
    | none => rfl
    | some p => simp [hport p rfl]

theorem reads_bracketed (huser : '@' ∉ u.netloc) (hhost : ']' ∉ host)
    (hnetloc : u.netloc = '[' :: (host ++ ']' :: portSuffix port))
    (hport : ∀ p, port = some p → p ≠ []) :
    portText u.netloc = .ok port ∧ u.hostinfo = (host, port) ∧
      (u.netloc.head? == some '[') = true := by
  have hhead : (u.netloc.head? == some '[') = true := by
    rw [hnetloc]
    rfl
  have hread : partition ']' u.netloc = ('[' :: host, true, portSuffix port) := by
    have hno : ']' ∉ '[' :: host := by
      rw [List.mem_cons, not_or]
      exact ⟨by decide, hhost⟩
    rw [hnetloc]
    exact partition_append hno
  refine ⟨?_, ?_, hhead⟩
  · rw [portText, hhead, hread]
    cases port <;> rfl
  · rw [hostinfo_of_bracket huser hnetloc hhost, partition_portSuffix hport]

theorem hostname_of_no_zone (hzone : '%' ∉ u.hostinfo.1) :
    u.hostname = u.hostinfo.1.map lowerAscii := by
  rw [SplitUrl.hostname, partition_of_not_mem hzone]
  exact List.append_nil _

theorem mem_hostname_of_zone (hzone : '%' ∈ u.hostinfo.1) : '%' ∈ u.hostname := by
  obtain ⟨addr, zone, hsplit, hno⟩ := List.eq_append_cons_of_mem hzone
  rw [SplitUrl.hostname, hsplit, partition_append hno]
  exact List.mem_append_right _ List.mem_cons_self

theorem no_zone_of_validate {hostname : Text} {bracketed : Bool}
    (h : validateUrlHostname hostname bracketed = .ok ()) : '%' ∉ hostname := by
  obtain ⟨_, hno, -⟩ := bind_eq_ok.mp h
  rw [raiseWhen_eq_ok] at hno
  simpa using hno

theorem validate_hostname {bracketed : Bool} :
    validateUrlHostname u.hostname bracketed = .ok () ↔
      validateUrlHostname (u.hostinfo.1.map lowerAscii) bracketed = .ok () := by
  by_cases hzone : '%' ∈ u.hostinfo.1
  · have hlower : '%' ∈ u.hostinfo.1.map lowerAscii := (mem_lower_iff rfl _).mpr hzone
    exact ⟨fun h => absurd (mem_hostname_of_zone hzone) (no_zone_of_validate h),
      fun h => absurd hlower (no_zone_of_validate h)⟩
  · rw [hostname_of_no_zone hzone]

theorem hostname_ne_nil : u.hostname ≠ [] ↔ u.hostinfo.1 ≠ [] := by
  by_cases hzone : '%' ∈ u.hostinfo.1
  · exact iff_of_true (List.ne_nil_of_mem (mem_hostname_of_zone hzone)) (List.ne_nil_of_mem hzone)
  · rw [hostname_of_no_zone hzone, ne_eq, List.map_eq_nil_iff]

theorem port_reads (hinfo : u.hostinfo = (host, port))
    (hdigits : ∀ p, port = some p → p ≠ [] ∧ p.all isDecDigit = true) :
    (∃ n, u.port = .ok n ∧ n ≠ some 0) ↔
      ∀ p, port = some p → IsPort p ∧ p.length ≤ intMaxStrDigits := by
  rw [SplitUrl.port, hinfo]
  cases port with
  | none => simp
  | some p =>
    obtain ⟨hne, hall⟩ := hdigits p rfl
    have hread : (p.all isDecDigit && p.length ≤ intMaxStrDigits && decText p ≤ 65535) = true ↔
        p.length ≤ intMaxStrDigits ∧ decText p ≤ 65535 := by
      rw [hall, Bool.true_and, Bool.and_eq_true, decide_eq_true_eq, decide_eq_true_eq]
    constructor
    · rintro ⟨n, hn, hzero⟩ q hq
      cases hq
      simp only at hn
      split at hn
      · next hok =>
        obtain ⟨hlen, hle⟩ := hread.mp hok
        cases hn
        have hpos : 1 ≤ decText p := by
          by_contra hno
          apply hzero
          rw [Nat.lt_one_iff.mp (not_le.mp hno)]
        exact ⟨⟨hne, hall, hpos, hle⟩, hlen⟩
      · cases hn
    · intro h
      obtain ⟨hport, hlen⟩ := h p rfl
      refine ⟨some (decText p), if_pos (hread.mpr ⟨hlen, hport.le⟩), ?_⟩
      intro hzero
      have hpos := hport.pos
      rw [Option.some.inj hzero] at hpos
      omega

/-- The checks, over what an authority was read as. -/
theorem authorityOk_of_reads {bracketed : Bool} (htext : portText u.netloc = .ok port)
    (hinfo : u.hostinfo = (host, port)) (hhead : (u.netloc.head? == some '[') = bracketed) :
    AuthorityOk u ↔ bracketsOk u.netloc = true ∧ '@' ∉ u.netloc ∧ host ≠ [] ∧
      (∀ p, port = some p → IsPort p ∧ p.length ≤ intMaxStrDigits) ∧
      validateUrlHostname (host.map lowerAscii) bracketed = .ok () := by
  have hfirst : u.hostinfo.1 = host := by rw [hinfo]
  constructor
  · intro h
    obtain ⟨text, htext', hdigits⟩ := h.port_text
    rw [htext, Except.ok.injEq] at htext'
    subst htext'
    have hhost := h.host
    rw [hhead, validate_hostname, hfirst] at hhost
    refine ⟨h.brackets, ?_, ?_, (port_reads hinfo hdigits).mp h.port, hhost⟩
    · simpa [SplitUrl.hasUserinfo] using h.no_userinfo
    · rw [← hfirst]
      exact hostname_ne_nil.mp h.host_ne
  · intro h
    obtain ⟨hbrackets, huser, hne, hport, hhost⟩ := h
    have hdigits : ∀ p, port = some p → p ≠ [] ∧ p.all isDecDigit = true :=
      fun p hp => ⟨(hport p hp).1.nonempty, (hport p hp).1.digits⟩
    refine ⟨hbrackets, ?_, ?_, ⟨port, htext, hdigits⟩, (port_reads hinfo hdigits).mpr hport, ?_⟩
    · rw [hostname_ne_nil, hfirst]
      exact hne
    · simpa [SplitUrl.hasUserinfo] using huser
    · rw [hhead, validate_hostname, hfirst]
      exact hhost

/-! Brackets. -/

theorem bracketsOk_plain {netloc : Text} (hopen : '[' ∉ netloc) (hclose : ']' ∉ netloc) :
    bracketsOk netloc = true := by
  simp [bracketsOk, hopen, hclose]

theorem bracketsOk_bracketed (huser : '@' ∉ host ++ ']' :: rest) (hhost : ']' ∉ host) :
    bracketsOk ('[' :: (host ++ ']' :: rest)) =
      ((rest.isEmpty || rest.head? == some ':') && bracketedHostOk host) := by
  have huser' : '@' ∉ '[' :: (host ++ ']' :: rest) := by
    rw [List.mem_cons, not_or]
    exact ⟨by decide, huser⟩
  have hopen : ('[' :: (host ++ ']' :: rest)).contains '[' = true :=
    List.contains_iff_mem.mpr List.mem_cons_self
  have hclose : ('[' :: (host ++ ']' :: rest)).contains ']' = true :=
    List.contains_iff_mem.mpr (List.mem_cons_of_mem _ (List.mem_append_right _ List.mem_cons_self))
  have hbefore : partition '[' ('[' :: (host ++ ']' :: rest)) = ([], true, host ++ ']' :: rest) :=
    partition_append (a := []) List.not_mem_nil
  rw [bracketsOk, hopen, hclose, rpartition_of_not_mem huser']
  simp only [hbefore, partition_append hhost]
  simp

/-- An authority with a bracket begins with it. -/
theorem brackets_split {netloc : Text} (huser : '@' ∉ netloc) (hopen : '[' ∈ netloc)
    (h : bracketsOk netloc = true) :
    ∃ host rest, netloc = '[' :: (host ++ ']' :: rest) ∧ ']' ∉ host := by
  obtain ⟨before, t, hsplit, hno⟩ := List.eq_append_cons_of_mem hopen
  have hopen' : netloc.contains '[' = true := List.contains_iff_mem.mpr hopen
  rw [bracketsOk, hopen', rpartition_of_not_mem huser] at h
  cases hclose : netloc.contains ']' with
  | false =>
    rw [hclose] at h
    cases h
  | true =>
    rw [hclose] at h
    simp only [hsplit, partition_append hno, bne_self_eq_false, Bool.false_eq_true, if_false,
      Bool.not_true, Bool.and_eq_true, List.isEmpty_iff] at h
    have hbefore : before = [] := h.1.1
    rw [hbefore, List.nil_append] at hsplit
    have hmem : ']' ∈ t := by
      have hclose' := List.contains_iff_mem.mp hclose
      rw [hsplit] at hclose'
      exact (List.mem_cons.mp hclose').resolve_left (by decide)
    obtain ⟨host, rest, ht, hhost⟩ := List.eq_append_cons_of_mem hmem
    exact ⟨host, rest, by rw [hsplit, ht], hhost⟩

/-- The two forms of an authority. -/
inductive Reads (u : SplitUrl) : Text → Option Text → Bool → Prop
  | plain {host : Text} {port : Option Text} (no_open : '[' ∉ u.netloc) (no_close : ']' ∉ u.netloc)
      (no_colon : ':' ∉ host) (netloc : u.netloc = host ++ portSuffix port) : Reads u host port false
  | bracketed {host : Text} {port : Option Text} (no_close : ']' ∉ host)
      (netloc : u.netloc = '[' :: (host ++ ']' :: portSuffix port)) : Reads u host port true

theorem Reads.authorityOk {bracketed : Bool} (hr : Reads u host port bracketed)
    (hport : ∀ p, port = some p → p ≠ []) (huser : '@' ∉ u.netloc) :
    AuthorityOk u ↔ bracketsOk u.netloc = true ∧ '@' ∉ u.netloc ∧ host ≠ [] ∧
      (∀ p, port = some p → IsPort p ∧ p.length ≤ intMaxStrDigits) ∧
      validateUrlHostname (host.map lowerAscii) bracketed = .ok () := by
  cases hr with
  | plain hopen _ hcolon hnetloc =>
    obtain ⟨htext, hinfo, hhead⟩ := reads_plain huser hopen hcolon hnetloc hport
    exact authorityOk_of_reads htext hinfo hhead
  | bracketed hclose hnetloc =>
    obtain ⟨htext, hinfo, hhead⟩ := reads_bracketed huser hclose hnetloc hport
    exact authorityOk_of_reads htext hinfo hhead

/-- An authority that passes the checks has one of the two forms. -/
theorem AuthorityOk.reads (h : AuthorityOk u) :
    ∃ host port bracketed, Reads u host port bracketed ∧ ∀ p, port = some p → p ≠ [] := by
  have huser : '@' ∉ u.netloc := by simpa [SplitUrl.hasUserinfo] using h.no_userinfo
  obtain ⟨text, htext, hdigits⟩ := h.port_text
  have hne : ∀ p, text = some p → p ≠ [] := fun p hp => (hdigits p hp).1
  by_cases hopen : '[' ∈ u.netloc
  · obtain ⟨host, rest, hnetloc, hhost⟩ := brackets_split huser hopen h.brackets
    have hrest : rest = portSuffix text := by
      have hclose : ']' ∉ '[' :: host := by
        rw [List.mem_cons, not_or]
        exact ⟨by decide, hhost⟩
      have hread : partition ']' ('[' :: (host ++ ']' :: rest)) = ('[' :: host, true, rest) :=
        partition_append hclose
      have hhead : (('[' :: (host ++ ']' :: rest)).head? == some '[') = true := rfl
      rw [hnetloc, portText, hhead, hread] at htext
      rcases rest with _ | ⟨c, p⟩
      · cases htext
        rfl
      · by_cases hc : c = ':'
        · rw [hc] at htext ⊢
          cases htext
          rfl
        · simp [hc] at htext
    exact ⟨host, text, true, .bracketed hhost (by rw [hnetloc, hrest]), hne⟩
  · have hclose : ']' ∉ u.netloc := by
      intro hmem
      have hbrackets := h.brackets
      simp [bracketsOk, hopen, hmem] at hbrackets
    have hhead : (u.netloc.head? == some '[') = false := by
      rw [beq_eq_false_iff_ne]
      intro he
      exact hopen (List.mem_of_head? he)
    rw [portText, hhead] at htext
    by_cases hcolon : ':' ∈ u.netloc
    · obtain ⟨host, p, hnetloc, hno⟩ := List.eq_append_cons_of_mem hcolon
      rw [hnetloc, partition_append hno] at htext
      cases htext
      exact ⟨host, some p, false, .plain hopen hclose hno hnetloc, hne⟩
    · rw [partition_of_not_mem hcolon] at htext
      cases htext
      refine ⟨u.netloc, none, false, .plain hopen hclose hcolon ?_, hne⟩
      rw [portSuffix, List.append_nil]

end authority

/-! ## Hosts -/

section hosts
variable {host : Text} {c : Char}

theorem v4_chars {ip : BitVec 32} (h : ofText host = some (.v4 ip)) (hc : c ∈ host) :
    isDecDigit c = true ∨ c = '.' := by
  obtain hv4 | ⟨-, hv6⟩ := Option.or_eq_some_iff.mp h
  · obtain ⟨ip', hip, -⟩ := Option.map_eq_some_iff.mp hv4
    exact parseIpv4_chars hip c hc
  · simp only [parseIpv6] at hv6
    split at hv6
    · cases hv6
    obtain ⟨⟨addr, scope⟩, -, hv6⟩ := Option.bind_eq_some_iff.mp hv6
    obtain ⟨ip', -, he⟩ := Option.map_eq_some_iff.mp hv6
    cases he

theorem v6_chars {ip : BitVec 128} (h : ofText host = some (.v6 ip none)) (hc : c ∈ host) :
    isAddressChar c = true := by
  obtain ⟨ip', he, -⟩ | ⟨ip', addr, scope, he, rfl, haddr, -⟩ := ofText_cases h
  · cases he
  · cases he
    rw [scopeSuffix, List.append_nil] at hc
    exact List.all_eq_true.mp haddr c hc

theorem name_chars (hlabels : ∀ l ∈ splitOn '.' host, isDnsLabel l = true) :
    ∀ c ∈ host, isHostChar c = true := by
  intro c hc
  obtain rfl | ⟨l, hl, hm⟩ := mem_splitOn '.' hc
  · rfl
  · exact isHostChar_of_label (hlabels l hl) hm

/-- A character of the host of a URL. -/
def isUrlHostChar (c : Char) : Bool := isHostChar c || c == '[' || c == ']'

theorem IsUrlHost.chars (h : IsUrlHost host) (hc : c ∈ host) : isUrlHostChar c = true := by
  have hplain : isHostChar c = true → isUrlHostChar c = true := by
    intro h
    simp [isUrlHostChar, h]
  cases h with
  | name _ hlabels _ =>
    exact hplain (name_chars hlabels c hc)
  | v4 haddress =>
    exact hplain (isHostChar_of_addressChar (isAddressChar_of_ipv4 (v4_chars haddress hc)))
  | v6 haddress =>
    rw [List.mem_cons, List.mem_append, List.mem_singleton] at hc
    obtain rfl | hc | rfl := hc
    · rfl
    · exact hplain (isHostChar_of_addressChar (v6_chars haddress hc))
    · rfl

theorem IsUrlHost.ne_nil (h : IsUrlHost host) : host ≠ [] := by
  cases h with
  | name _ hlabels _ =>
    intro hnil
    rw [hnil] at hlabels
    have hempty := hlabels [] (by decide)
    cases hempty
  | v4 haddress =>
    intro hnil
    rw [hnil] at haddress
    cases haddress
  | v6 => exact List.cons_ne_nil _ _

theorem isNumericHostComponent_of_octet {t : Text} {n : Nat} (h : parseOctet t = some n) :
    isNumericHostComponent t = true := by
  have hne : t.isEmpty = false := by
    by_contra hempty
    rw [Bool.not_eq_false, List.isEmpty_iff] at hempty
    rw [hempty] at h
    cases h
  simp [isNumericHostComponent, hne, all_of_parseOctet h]

/-- A name with a label that is no number is no address. -/
theorem ofText_of_name (hcolon : ':' ∉ host)
    (hlabel : ∃ l ∈ splitOn '.' host, isNumericHostComponent l = false) : ofText host = none := by
  have hv4 : parseIpv4 host = none := by
    cases hparse : parseIpv4 host with
    | none => rfl
    | some ip =>
      simp only [parseIpv4] at hparse
      split at hparse
      · cases hparse
      split at hparse
      · cases hparse
      obtain ⟨os, hos, -⟩ := Option.map_eq_some_iff.mp hparse
      obtain ⟨l, hl, hno⟩ := hlabel
      obtain ⟨n, hn⟩ := mapM_some hos l hl
      rw [isNumericHostComponent_of_octet hn] at hno
      cases hno
  have hv6 : parseIpv6 host = none := by
    cases hparse : parseIpv6 host with
    | none => rfl
    | some a =>
      simp only [parseIpv6] at hparse
      split at hparse
      · cases hparse
      obtain ⟨⟨addr, scope⟩, hsplit, hparse⟩ := Option.bind_eq_some_iff.mp hparse
      obtain ⟨ip, hip, -⟩ := Option.map_eq_some_iff.mp hparse
      obtain ⟨rfl, -⟩ := splitScope_some hsplit
      exact absurd (List.mem_append_left _ (colon_mem_of_ipv6FromString hip)) hcolon
  rw [ofText, hv4, hv6]
  rfl

theorem bracketedHostOk_of_v6 {ip : BitVec 128} (h : ofText host = some (.v6 ip none)) :
    bracketedHostOk host = true := by
  unfold bracketedHostOk
  split
  · have hv := v6_chars h List.mem_cons_self
    cases hv
  · rw [h]

theorem label_no_colon {l : Text} (hl : isDnsLabel l = true) : ':' ∉ l := by
  intro hc
  simp only [isDnsLabel, Bool.and_eq_true, List.all_eq_true] at hl
  have hchar := hl.2 ':' hc
  cases hchar

theorem name_no_colon (hlabels : ∀ l ∈ splitOn '.' host, isDnsLabel l = true) : ':' ∉ host := by
  intro hc
  obtain he | ⟨l, hl, hm⟩ := mem_splitOn '.' hc
  · cases he
  · exact label_no_colon (hlabels l hl) hm

end hosts

/-! ## The authority -/

theorem isPort_chars {p : Text} {c : Char} (hp : IsPort p) (hc : c ∈ p) : isHostChar c = true := by
  have hdigit := List.all_eq_true.mp hp.digits c hc
  exact isHostChar_of_addressChar (isAddressChar_of_hex (isHexDigit_of_dec hdigit))

theorem port_chars {port : Option Text} {c : Char} (hport : ∀ p, port = some p → IsPort p)
    (hc : c ∈ portSuffix port) : isHostChar c = true := by
  cases port with
  | none => cases hc
  | some p =>
    obtain rfl | hc := List.mem_cons.mp hc
    · rfl
    · exact isPort_chars (hport p rfl) hc

theorem authority_chars {host : Text} {port : Option Text} {c : Char} (hhost : IsUrlHost host)
    (hport : ∀ p, port = some p → IsPort p) (hc : c ∈ host ++ portSuffix port) :
    isUrlHostChar c = true := by
  rw [List.mem_append] at hc
  obtain hc | hc := hc
  · exact hhost.chars hc
  · simp [isUrlHostChar, port_chars hport hc]

section accepted
variable {u : SplitUrl} {host : Text} {port : Option Text}

/-- What an authority that passes the checks is. -/
theorem of_authorityOk (h : AuthorityOk u) : ∃ host port, IsUrlHost host ∧
    (∀ p, port = some p → IsPort p ∧ p.length ≤ intMaxStrDigits) ∧
    u.netloc = host ++ portSuffix port := by
  obtain ⟨host, port, bracketed, hreads, hne⟩ := h.reads
  have huser : '@' ∉ u.netloc := by simpa [SplitUrl.hasUserinfo] using h.no_userinfo
  obtain ⟨-, -, -, hport, hhost⟩ := (hreads.authorityOk hne huser).mp h
  obtain ⟨hzone, hhost⟩ := validateUrlHostname_eq_ok.mp hhost
  cases hreads with
  | plain _ _ _ hnetloc =>
    refine ⟨host, port, ?_, hport, hnetloc⟩
    obtain ⟨⟨ip, haddress⟩, -⟩ | ⟨-, hno⟩ | ⟨-, -, hlook, hlen, hlabels⟩ := hhost
    · exact .v4 haddress
    · cases hno
    · exact .name hlen hlabels hlook
  | bracketed _ hnetloc =>
    refine ⟨'[' :: (host ++ [']']), port, ?_, hport, by simp [hnetloc]⟩
    obtain ⟨-, hno⟩ | ⟨⟨ip, scope, haddress⟩, -⟩ | ⟨-, hno, -⟩ := hhost
    · cases hno
    · cases scope with
      | none => exact .v6 haddress
      | some s =>
        obtain ⟨ip', he, -⟩ | ⟨ip', addr, scope, he, rfl, -⟩ := ofText_cases haddress
        · cases he
        · cases he
          exact absurd (List.mem_append_right _ List.mem_cons_self) hzone
    · cases hno

/-- An authority without brackets passes with its host. -/
theorem authorityOk_of_plain (hchars : ∀ c ∈ host, isHostChar c = true) (hcolon : ':' ∉ host)
    (hempty : host ≠ []) (hport : ∀ p, port = some p → IsPort p ∧ p.length ≤ intMaxStrDigits)
    (hnetloc : u.netloc = host ++ portSuffix port)
    (hvalid : validateUrlHostname (host.map lowerAscii) false = .ok ()) : AuthorityOk u := by
  have hne : ∀ p, port = some p → p ≠ [] := fun p hp => (hport p hp).1.nonempty
  have hno : ∀ c, isHostChar c = false → c ∉ u.netloc := by
    intro c hc hmem
    have hplain : isHostChar c = true := by
      rw [hnetloc, List.mem_append] at hmem
      obtain hmem | hmem := hmem
      · exact hchars c hmem
      · exact port_chars (fun p hp => (hport p hp).1) hmem
    rw [hplain] at hc
    cases hc
  have hreads : Reads u host port false :=
    .plain (hno '[' rfl) (hno ']' rfl) hcolon hnetloc
  rw [hreads.authorityOk hne (hno '@' rfl)]
  exact ⟨bracketsOk_plain (hno '[' rfl) (hno ']' rfl), hno '@' rfl, hempty, hport, hvalid⟩

theorem authorityOk_of_bracketed {ip : BitVec 128} (haddress : ofText host = some (.v6 ip none))
    (hport : ∀ p, port = some p → IsPort p ∧ p.length ≤ intMaxStrDigits)
    (hnetloc : u.netloc = '[' :: (host ++ ']' :: portSuffix port)) : AuthorityOk u := by
  have hne : ∀ p, port = some p → p ≠ [] := fun p hp => (hport p hp).1.nonempty
  have hclose : ']' ∉ host := fun hc => by cases v6_chars haddress hc
  have hzone : '%' ∉ host := fun hc => by cases v6_chars haddress hc
  have huser : '@' ∉ host ++ ']' :: portSuffix port := by
    intro hmem
    rw [List.mem_append, List.mem_cons] at hmem
    obtain hmem | he | hmem := hmem
    · cases v6_chars haddress hmem
    · cases he
    · cases port_chars (fun p hp => (hport p hp).1) hmem
  have huser' : '@' ∉ u.netloc := by
    rw [hnetloc, List.mem_cons, not_or]
    exact ⟨by decide, huser⟩
  have hempty : host ≠ [] := by
    intro hnil
    rw [hnil] at haddress
    cases haddress
  have hsuffix : ((portSuffix port).isEmpty || (portSuffix port).head? == some ':') = true := by
    cases port <;> rfl
  have hbrackets : bracketsOk u.netloc = true := by
    rw [hnetloc, bracketsOk_bracketed huser hclose, hsuffix, bracketedHostOk_of_v6 haddress]
    rfl
  have hreads : Reads u host port true := .bracketed hclose hnetloc
  rw [hreads.authorityOk hne huser', validateUrlHostname_eq_ok]
  exact ⟨hbrackets, huser', hempty, hport, hzone, .inr (.inl ⟨⟨ip, none, haddress⟩, rfl⟩)⟩

theorem authorityOk_iff : AuthorityOk u ↔ ∃ host port, IsUrlHost host ∧
    (∀ p, port = some p → IsPort p ∧ p.length ≤ intMaxStrDigits) ∧
    u.netloc = host ++ portSuffix port := by
  refine ⟨of_authorityOk, ?_⟩
  rintro ⟨host, port, hhost, hport, hnetloc⟩
  have hempty := hhost.ne_nil
  cases hhost with
  | name hlen hlabels hlook =>
    have hchars := name_chars hlabels
    have hzone : '%' ∉ host := fun hc => by cases hchars _ hc
    have hcolon := name_no_colon hlabels
    apply authorityOk_of_plain hchars hcolon hempty hport hnetloc
    rw [validateUrlHostname_eq_ok]
    exact ⟨hzone, .inr (.inr ⟨ofText_of_name hcolon hlook, rfl, hlook, hlen, hlabels⟩)⟩
  | v4 haddress =>
    have hchars : ∀ c ∈ host, isHostChar c = true := fun c hc =>
      isHostChar_of_addressChar (isAddressChar_of_ipv4 (v4_chars haddress hc))
    have hzone : '%' ∉ host := fun hc => by cases hchars _ hc
    have hcolon : ':' ∉ host := by
      intro hc
      obtain h | h := v4_chars haddress hc
      · cases h
      · cases h
    apply authorityOk_of_plain hchars hcolon hempty hport hnetloc
    rw [validateUrlHostname_eq_ok]
    exact ⟨hzone, .inl ⟨⟨_, haddress⟩, rfl⟩⟩
  | v6 haddress => exact authorityOk_of_bracketed haddress hport (by simp [hnetloc])

end accepted

/-! ## Splitting -/

section split
variable {url scheme netloc path : Text} {u : SplitUrl}

def isHttps (scheme : Text) : Prop := scheme.map lowerAscii = "https".toList

theorem isHttps_chars (h : isHttps scheme) {c : Char} (hc : c ∈ scheme) :
    isAlnumAscii c = true := by
  have hlower : lowerAscii c ∈ "https".toList := by
    rw [← show scheme.map lowerAscii = "https".toList from h]
    exact List.mem_map_of_mem hc
  have hall : "https".toList.all isAlnumAscii = true := by decide
  rw [← isAlnumAscii_lowerAscii]
  exact List.all_eq_true.mp hall _ hlower

theorem isHttps_head (h : isHttps scheme) : scheme.head?.any isAlphaAscii = true := by
  cases scheme with
  | nil => cases h
  | cons c t =>
    have hc : lowerAscii c = 'h' := (List.cons.inj h).1
    have hnat := congrArg Char.toNat hc
    rw [toNat_lowerAscii] at hnat
    have hletter : ('A' ≤ c ∧ c ≤ 'Z') ∨ ('a' ≤ c ∧ c ≤ 'z') := by
      simp only [char_le_iff]
      change (if 65 ≤ c.toNat ∧ c.toNat ≤ 90 then c.toNat + 32 else c.toNat) = 104 at hnat
      change (65 ≤ c.toNat ∧ c.toNat ≤ 90) ∨ 97 ≤ c.toNat ∧ c.toNat ≤ 122
      split at hnat <;> omega
    simpa [isAlphaAscii] using hletter

/-- Without a query or a fragment the path is cut nowhere. -/
theorem cut_id {t : Text} (hq : '?' ∉ t) (hf : '#' ∉ t) :
    (partition '?' (partition '#' t).1).1 = t := by
  rw [partition_of_not_mem hf, partition_of_not_mem hq]

/-- An `https` URL without query and fragment is split at the first slash behind its authority. -/
theorem urlsplit_https (hscheme : isHttps scheme)
    (hnetloc : ∀ c ∈ netloc, c ≠ '/' ∧ c ≠ '?' ∧ c ≠ '#') (hpath : path = [] ∨ path = ['/'])
    (hbrackets : bracketsOk netloc = true) :
    urlsplit (scheme ++ ':' :: '/' :: '/' :: (netloc ++ path)) =
      some ⟨"https", netloc, path⟩ := by
  have hcolon : ':' ∉ scheme := fun hc => by cases isHttps_chars hscheme hc
  have hchars : scheme.all isSchemeChar = true := by
    rw [List.all_eq_true]
    intro c hc
    simp [isSchemeChar, isHttps_chars hscheme hc]
  have htake : (netloc ++ path).takeWhile (fun c => !(c == '/' || c == '?' || c == '#')) =
      netloc := by
    rw [List.takeWhile_append_of_pos]
    · obtain rfl | rfl := hpath <;> simp
    · intro c hc
      simpa [and_assoc] using hnetloc c hc
  have hcut : (partition '?' (partition '#' path).1).1 = path := by
    obtain rfl | rfl := hpath
    · exact cut_id List.not_mem_nil List.not_mem_nil
    · exact cut_id (by decide) (by decide)
  simp only [urlsplit, partition_append hcolon, isHttps_head hscheme, hchars, htake, hbrackets,
    Bool.and_true, if_true, List.drop_left, hcut, show scheme.map lowerAscii = _ from hscheme]

theorem urlsplit_no_scheme {before after : Text} {colon : Bool}
    (hread : partition ':' url = (before, colon, after))
    (hno : (colon && before.head?.any isAlphaAscii && before.all isSchemeChar) = false)
    (h : urlsplit url = some u) : u.scheme = [] := by
  simp only [urlsplit, hread, hno, Bool.false_eq_true, if_false] at h
  split at h
  · split at h
    · cases h
      rfl
    · cases h
  · cases h
    rfl

/-- What a URL was when it splits with an authority. -/
theorem of_urlsplit (h : urlsplit url = some u) (hscheme : u.scheme = "https".toList)
    (hnetloc : u.netloc ≠ []) (hq : '?' ∉ url) (hf : '#' ∉ url) :
    ∃ scheme, isHttps scheme ∧ url = scheme ++ ':' :: '/' :: '/' :: (u.netloc ++ u.path) ∧
      bracketsOk u.netloc = true := by
  obtain ⟨⟨before, colon, after⟩, hread⟩ : ∃ parts, partition ':' url = parts := ⟨_, rfl⟩
  cases hok : colon && before.head?.any isAlphaAscii && before.all isSchemeChar with
  | false =>
    rw [urlsplit_no_scheme hread hok h] at hscheme
    cases hscheme
  | true =>
    have hcolon : ':' ∈ url := by
      by_contra hno
      rw [partition_of_not_mem hno] at hread
      cases hread
      cases hok
    obtain ⟨scheme, rest, rfl, hno⟩ := List.eq_append_cons_of_mem hcolon
    rw [partition_append hno] at hread
    cases hread
    simp only [urlsplit, partition_append hno, hok, if_true] at h
    split at h
    · next t =>
      split at h
      · next hbrackets =>
        have hq' : ∀ n, '?' ∉ t.drop n := by
          intro n hmem
          exact hq (by simp [List.mem_of_mem_drop hmem])
        have hf' : ∀ n, '#' ∉ t.drop n := by
          intro n hmem
          exact hf (by simp [List.mem_of_mem_drop hmem])
        rw [cut_id (hq' _) (hf' _)] at h
        cases h
        refine ⟨_, hscheme, ?_, hbrackets⟩
        congr 4
        exact List.prefix_append_drop (List.takeWhile_prefix _)
      · cases h
    · cases h
      exact absurd rfl hnetloc

end split

/-! ## What is accepted -/

section accept
variable {baseUrl r : Text}

theorem Origin.authority_chars (o : Origin) {c : Char} (hc : c ∈ o.authority) :
    isUrlHostChar c = true := ArubaCertRenewer.authority_chars o.host_ok o.port_ok hc

theorem Origin.authority_ne_nil (o : Origin) : o.authority ≠ [] :=
  List.append_ne_nil_of_left_ne_nil o.host_ok.ne_nil _

theorem isUrlHostChar_printable {c : Char} (h : isUrlHostChar c = true) :
    33 ≤ c.toNat ∧ c.toNat ≤ 126 := by
  simp only [isUrlHostChar, isHostChar, Bool.or_eq_true, isAlnumAscii_iff, beq_iff_eq] at h
  obtain ((((hn | rfl) | rfl) | rfl) | rfl) | rfl := h
  · omega
  all_goals decide

/-- The characters of an origin with its slash. -/
theorem Origin.chars (o : Origin) {c : Char} (hc : c ∈ o.text ++ ['/']) :
    isUrlHostChar c = true ∨ c = '/' := by
  simp only [Origin.text, List.mem_append, List.mem_cons, List.not_mem_nil, or_false] at hc
  obtain (hc | hc | hc | hc | hc) | hc := hc
  · left
    simp [isUrlHostChar, isHostChar, isHttps_chars o.scheme_ok hc]
  · left
    rw [hc]
    rfl
  · exact .inr hc
  · exact .inr hc
  · exact .inl (o.authority_chars hc)
  · exact .inr hc

theorem Origin.printable (o : Origin) {c : Char} (hc : c ∈ o.text ++ ['/']) :
    33 ≤ c.toNat ∧ c.toNat ≤ 126 := by
  obtain hc | rfl := o.chars hc
  · exact isUrlHostChar_printable hc
  · decide

/-- The checks of `validate_base_url`, once the URL is split. -/
theorem validateBaseUrl_eq_ok : validateBaseUrl baseUrl = .ok r ↔ baseUrl ≠ [] ∧
    (∀ c ∈ baseUrl, c.toNat < 128 ∧ isSpace c = false ∧ 32 ≤ c.toNat ∧ c.toNat ≠ 127) ∧
    ∃ u, urlsplit baseUrl = some u ∧ u.scheme = "https".toList ∧ u.hostname ≠ [] ∧
      u.hasUserinfo = false ∧ '?' ∉ baseUrl ∧ '#' ∉ baseUrl ∧ (u.path = [] ∨ u.path = ['/']) ∧
      (∃ text, portText u.netloc = .ok text ∧
        ∀ p, text = some p → p ≠ [] ∧ p.all isDecDigit = true) ∧
      (∃ port, u.port = .ok port ∧ port ≠ some 0) ∧
      validateUrlHostname u.hostname (u.netloc.head? == some '[') = .ok () ∧
      r = if u.path == ['/'] then baseUrl.dropLast else baseUrl := by
  have hempty : baseUrl.isEmpty = false ↔ baseUrl ≠ [] := List.isEmpty_eq_false_iff
  have hchars : (baseUrl.any fun c => 128 ≤ c.toNat || isSpace c || c.toNat < 32 || c.toNat == 127)
      = false ↔ ∀ c ∈ baseUrl, c.toNat < 128 ∧ isSpace c = false ∧ 32 ≤ c.toNat ∧ c.toNat ≠ 127 := by
    rw [List.any_eq_false]
    simp [and_assoc]
  cases hsplit : urlsplit baseUrl with
  | none =>
    simp [validateBaseUrl, hsplit, bind_eq_ok]
  | some u =>
    have hdigits : ∀ text : Option Text,
        (text.any fun p => p.isEmpty || !p.all isDecDigit) = false ↔
          ∀ p, text = some p → p ≠ [] ∧ p.all isDecDigit = true := by
      intro text
      cases text with
      | none => simp
      | some p => simp
    have hpath : (u.path != [] && u.path != ['/']) = false ↔ u.path = [] ∨ u.path = ['/'] := by
      rw [Bool.and_eq_false_iff, bne_eq_false_iff_eq, bne_eq_false_iff_eq]
    have hscheme : (u.scheme != "https" || u.hostname.isEmpty) = false ↔
        u.scheme = "https".toList ∧ u.hostname ≠ [] := by
      rw [Bool.or_eq_false_iff, bne_eq_false_iff_eq, List.isEmpty_eq_false_iff]
    have hquery : (baseUrl.contains '?' || baseUrl.contains '#') = false ↔
        '?' ∉ baseUrl ∧ '#' ∉ baseUrl := by
      rw [Bool.or_eq_false_iff]
      simp
    simp only [validateBaseUrl, hsplit, bind_eq_ok, raiseWhen_eq_ok, hempty, hchars, hscheme, hpath,
      hquery, hdigits, Option.some.injEq, exists_eq_left']
    cases hport : u.port with
    | error e => simp
    | ok port =>
      simp only [bind_eq_ok, raiseWhen_eq_ok, beq_eq_false_iff_ne]
      constructor
      · intro h
        obtain ⟨-, hne, -, hall, -, ⟨hs, hh⟩, -, huser, -, ⟨hq, hf⟩, -, hp, text, ht, -, hd, -, hzero,
          _, hhost, he⟩ := h
        exact ⟨hne, hall, hs, hh, huser, hq, hf, hp, ⟨text, ht, hd⟩, ⟨port, rfl, hzero⟩, hhost,
          (Except.ok.inj he).symm⟩
      · intro h
        obtain ⟨hne, hall, hs, hh, huser, hq, hf, hp, ⟨text, ht, hd⟩, ⟨port', he, hzero⟩, hhost, hr⟩ := h
        cases he
        exact ⟨(), hne, (), hall, (), ⟨hs, hh⟩, (), huser, (), ⟨hq, hf⟩, (), hp, text, ht, (), hd, (),
          hzero, (), hhost, congrArg Except.ok hr.symm⟩

/-- What was accepted. -/
theorem of_validateBaseUrl (h : validateBaseUrl baseUrl = .ok r) :
    ∃ o : Origin, (∀ p, o.port = some p → p.length ≤ intMaxStrDigits) ∧ r = o.text ∧
      (baseUrl = o.text ∨ baseUrl = o.text ++ ['/']) := by
  obtain ⟨-, -, u, hsplit, hscheme, hhost, huser, hq, hf, hpath, htext, hport, hvalid, hr⟩ :=
    validateBaseUrl_eq_ok.mp h
  have hnetloc : u.netloc ≠ [] := by
    intro hnil
    apply hhost
    rw [SplitUrl.hostname, SplitUrl.hostinfo, hnil]
    rfl
  obtain ⟨scheme, hhttps, hurl, hbrackets⟩ := of_urlsplit hsplit hscheme hnetloc hq hf
  obtain ⟨host, port, hhost', hport', hform⟩ :=
    authorityOk_iff.mp ⟨hbrackets, hhost, huser, htext, hport, hvalid⟩
  let o : Origin := ⟨scheme, host, port, hhttps, hhost', fun p hp => (hport' p hp).1⟩
  have htext' : scheme ++ ':' :: '/' :: '/' :: u.netloc = o.text := by
    rw [hform]
    rfl
  have hwhole : baseUrl = o.text ++ u.path := by
    rw [hurl, ← htext']
    simp
  refine ⟨o, fun p hp => (hport' p hp).2, ?_, ?_⟩
  · obtain hp | hp := hpath
    · rw [hr, hp, hwhole, hp]
      exact List.append_nil _
    · rw [hr, hp, hwhole, hp]
      exact List.dropLast_concat
  · obtain hp | hp := hpath
    · exact .inl (by rw [hwhole, hp, List.append_nil])
    · exact .inr (by rw [hwhole, hp])

/-- An origin is accepted, with its slash and without. -/
theorem validateBaseUrl_origin (o : Origin) {path : Text} (hpath : path = [] ∨ path = ['/'])
    (hlen : ∀ p, o.port = some p → p.length ≤ intMaxStrDigits) :
    validateBaseUrl (o.text ++ path) = .ok o.text := by
  have hnetloc : ∀ c ∈ o.authority, c ≠ '/' ∧ c ≠ '?' ∧ c ≠ '#' := by
    intro c hc
    have hchar := o.authority_chars hc
    refine ⟨?_, ?_, ?_⟩ <;>
    · intro he
      rw [he] at hchar
      cases hchar
  have hslash : ∀ c ∈ o.text ++ path, c ∈ o.text ++ ['/'] := by
    intro c hc
    obtain rfl | rfl := hpath
    · exact List.mem_append_left _ (by simpa using hc)
    · exact hc
  have hok : AuthorityOk ⟨"https", o.authority, path⟩ :=
    authorityOk_iff.mpr ⟨o.host, o.port, o.host_ok, fun p hp => ⟨o.port_ok p hp, hlen p hp⟩, rfl⟩
  have hurl : o.text ++ path = o.scheme ++ ':' :: '/' :: '/' :: (o.authority ++ path) := by
    simp [Origin.text]
  have hno : ∀ d, d ≠ '/' → isUrlHostChar d = false → d ∉ o.text ++ path := by
    intro d hd hchar hmem
    obtain h | h := o.chars (hslash d hmem)
    · rw [h] at hchar
      cases hchar
    · exact hd h
  rw [validateBaseUrl_eq_ok]
  refine ⟨?_, ?_, ⟨"https", o.authority, path⟩, ?_, rfl, hok.host_ne, hok.no_userinfo,
    hno '?' (by decide) rfl, hno '#' (by decide) rfl, hpath, hok.port_text, hok.port, hok.host, ?_⟩
  · rw [hurl]
    simp
  · intro c hc
    obtain ⟨hge, hle⟩ := o.printable (hslash c hc)
    refine ⟨by omega, ?_, by omega, by omega⟩
    simp [isSpace]
    omega
  · rw [hurl]
    exact urlsplit_https o.scheme_ok hnetloc hpath hok.brackets
  · obtain rfl | rfl := hpath
    · exact (List.append_nil _).symm
    · exact List.dropLast_concat.symm

theorem le_foldl_digits (t : Text) (n : Nat) :
    n * 10 ^ t.length ≤ t.foldl (fun n c => 10 * n + (c.toNat - 48)) n := by
  induction t generalizing n with
  | nil => simp
  | cons c t ih =>
    calc n * 10 ^ (t.length + 1)
        = 10 * n * 10 ^ t.length := by
          rw [Nat.pow_succ, Nat.mul_comm (10 ^ t.length), ← Nat.mul_assoc, Nat.mul_comm n]
      _ ≤ (10 * n + (c.toNat - 48)) * 10 ^ t.length := Nat.mul_le_mul_right _ (Nat.le_add_right _ _)
      _ ≤ _ := ih _

/-- A port without leading zeros has five digits at most. -/
theorem IsPort.length_le {p : Text} (hp : IsPort p) (hzero : p.head? ≠ some '0') : p.length ≤ 5 := by
  cases p with
  | nil => exact Nat.zero_le _
  | cons c t =>
    have hdigit := isDecDigit_iff.mp (List.all_eq_true.mp hp.digits c List.mem_cons_self)
    have hc : c.toNat ≠ 48 := by
      intro he
      apply hzero
      rw [List.head?_cons, Option.some.injEq]
      exact Char.ext (UInt32.toNat_inj.mp he)
    have hvalue : 1 * 10 ^ t.length ≤ decText (c :: t) :=
      (Nat.mul_le_mul_right _ (by omega)).trans (le_foldl_digits t (10 * 0 + (c.toNat - 48)))
    have hle : 10 ^ t.length ≤ 65535 := by
      have := hp.le
      omega
    have ht : t.length < 5 := by
      by_contra hlong
      have := Nat.pow_le_pow_right (show 0 < 10 by decide) (not_lt.mp hlong)
      omega
    rw [List.length_cons]
    omega

theorem Origin.getLast_ne_slash (o : Origin) : o.text.getLast? ≠ some '/' := by
  have hlast : o.text.getLast? = o.authority.getLast? := by
    have hsplit : o.text = (o.scheme ++ [':', '/', '/']) ++ o.authority := by simp [Origin.text]
    rw [hsplit, List.getLast?_append_of_ne_nil _ o.authority_ne_nil]
  intro h
  rw [hlast] at h
  have hchar := o.authority_chars (List.mem_of_getLast? h)
  cases hchar

/-- `validate_base_url` accepts origins only, whose authorities hold no other character than those
of hosts and ports, and every origin whose port has no leading zero. What it returns is the origin
without its slash, which it accepts again. -/
theorem validateBaseUrl_origins :
    (∀ baseUrl r, validateBaseUrl baseUrl = .ok r → ∃ o : Origin, r = o.text ∧
      (baseUrl = o.text ∨ baseUrl = o.text ++ ['/'])) ∧
    (∀ o : Origin, (∀ p, o.port = some p → p.head? ≠ some '0') →
      validateBaseUrl o.text = .ok o.text ∧ validateBaseUrl (o.text ++ ['/']) = .ok o.text) ∧
    (∀ baseUrl r, validateBaseUrl baseUrl = .ok r →
      r.getLast? ≠ some '/' ∧ validateBaseUrl r = .ok r) ∧
    ∀ o : Origin, ∀ c ∈ o.authority, isAlnumAscii c = true ∨ c ∈ ['-', '.', ':', '[', ']'] := by
  refine ⟨?_, ?_, ?_, ?_⟩
  · intro baseUrl r h
    obtain ⟨o, -, hr, hurl⟩ := of_validateBaseUrl h
    exact ⟨o, hr, hurl⟩
  · intro o hzero
    have hlen : ∀ p, o.port = some p → p.length ≤ intMaxStrDigits := by
      intro p hp
      exact ((o.port_ok p hp).length_le (hzero p hp)).trans (by decide)
    have hplain := validateBaseUrl_origin o (.inl rfl) hlen
    rw [List.append_nil] at hplain
    exact ⟨hplain, validateBaseUrl_origin o (.inr rfl) hlen⟩
  · intro baseUrl r h
    obtain ⟨o, hlen, rfl, -⟩ := of_validateBaseUrl h
    have hplain := validateBaseUrl_origin o (.inl rfl) hlen
    rw [List.append_nil] at hplain
    exact ⟨o.getLast_ne_slash, hplain⟩
  · intro o c hc
    have hchar := o.authority_chars hc
    simp only [isUrlHostChar, isHostChar, Bool.or_eq_true, beq_iff_eq] at hchar
    simp only [List.mem_cons, List.not_mem_nil, or_false]
    tauto

end accept

end ArubaCertRenewer
