import ArubaCertRenewer.Ipaddress
import Mathlib.Data.List.GetD
import Mathlib.Data.List.Count

/- Addresses and their printed form: what a text that parses is made of, and
   that a printed address parses back to itself. The `::` of a printed IPv6
   address stands for the first longest run of zero hextets, so the parts a
   reader splits it into are the hextets before it, one empty part, and those
   after it, where an empty side is one more empty part. -/
namespace ArubaCertRenewer
open PyText

namespace IpAddress

/-! Numbers. -/

theorem digitChar_dec {d : Nat} (hd : d < 10) : isDecDigit d.digitChar = true := by
  have hall : ∀ d < 10, isDecDigit (Nat.digitChar d) = true := by decide
  exact hall d hd

theorem digitChar_hex {d : Nat} (hd : d < 16) :
    isHexDigit d.digitChar = true ∧ hexValue d.digitChar = d := by
  have hall : ∀ d < 16, isHexDigit (Nat.digitChar d) = true ∧ hexValue (Nat.digitChar d) = d := by
    decide
  exact hall d hd

theorem toDigits_hex (n : Nat) :
    (Nat.toDigits 16 n).all isHexDigit = true ∧ hexText (Nat.toDigits 16 n) = n := by
  induction n using Nat.strongRecOn with
  | ind n ih =>
    rw [Nat.toDigits_eq_if (by decide)]
    split
    · next hn =>
      obtain ⟨hd, hv⟩ := digitChar_hex hn
      exact ⟨by simp [hd], by simp [hexText, hv]⟩
    · next hn =>
      obtain ⟨hall, hval⟩ := ih (n / 16) (by omega)
      obtain ⟨hd, hv⟩ := digitChar_hex (Nat.mod_lt n (by decide : 0 < 16))
      refine ⟨by simp [hall, hd], ?_⟩
      rw [hexText, List.foldl_append]
      show 16 * hexText (Nat.toDigits 16 (n / 16)) + hexValue (n % 16).digitChar = n
      rw [hval, hv]
      omega

theorem parseHextet_toDigits {n : Nat} (hn : n < 2 ^ 16) :
    parseHextet (Nat.toDigits 16 n) = some n := by
  obtain ⟨hall, hval⟩ := toDigits_hex n
  have hlen : (Nat.toDigits 16 n).length ≤ 4 :=
    (Nat.length_toDigits_le_iff (by decide) (by decide)).mpr hn
  simp [parseHextet, hall, hval, Nat.toDigits_ne_nil, Nat.not_lt.mpr hlen]

theorem ofNat_eq (n : Nat) : ofNat n = Nat.toDigits 10 n := by
  simp [ofNat]

theorem parseOctet_ofNat {n : Nat} (hn : n < 2 ^ 8) : parseOctet (ofNat n) = some n := by
  have hall : ∀ n < 2 ^ 8, parseOctet (Nat.toDigits 10 n) = some n := by decide +kernel
  rw [ofNat_eq]
  exact hall n hn

theorem ofNat_dec (n : Nat) : (ofNat n).all isDecDigit = true := by
  rw [ofNat_eq]
  induction n using Nat.strongRecOn with
  | ind n ih =>
    rw [Nat.toDigits_eq_if (by decide)]
    split
    · next hn => simp [digitChar_dec hn]
    · next hn => simp [ih (n / 10) (by omega), digitChar_dec (Nat.mod_lt n (by decide : 0 < 10))]

theorem fromDigits_octets {n : Nat} (hn : n < 2 ^ 32) :
    fromDigits 8 [n / 2 ^ 24, n / 2 ^ 16 % 256, n / 2 ^ 8 % 256, n % 256] = n := by
  simp only [fromDigits, List.foldl_cons, List.foldl_nil]
  omega

theorem fromDigits_hextets {n : Nat} (hn : n < 2 ^ 128) : fromDigits 16 (hextets n) = n := by
  simp only [fromDigits, hextets, List.range_succ_eq_map, List.range_zero, List.map_cons,
    List.map_nil, List.foldl_cons, List.foldl_nil, Nat.succ_eq_add_one]
  omega

theorem hextets_lt {n h : Nat} (hm : h ∈ hextets n) : h < 2 ^ 16 := by
  obtain ⟨i, -, rfl⟩ := List.mem_map.mp hm
  exact Nat.mod_lt _ (by decide)

/-! What a text that parses is made of. -/

/-- What a sequence of parsers accepts, each accepted. -/
theorem mapM_some {α β : Type} {f : α → Option β} {xs : List α} {ys : List β}
    (h : xs.mapM f = some ys) : ∀ x ∈ xs, ∃ y, f x = some y := by
  induction xs generalizing ys with
  | nil => simp
  | cons x xs ih =>
    rw [List.mapM_cons] at h
    obtain ⟨y, hy, h⟩ := Option.bind_eq_some_iff.mp h
    obtain ⟨zs, hzs, -⟩ := Option.bind_eq_some_iff.mp h
    intro x' hx'
    obtain rfl | hx' := List.mem_cons.mp hx'
    · exact ⟨y, hy⟩
    · exact ih hzs x' hx'

theorem mapM_eq_some {α β : Type} {f : α → Option β} {xs : List α} {ys : List β}
    (h : List.Forall₂ (fun x y => f x = some y) xs ys) : xs.mapM f = some ys := by
  induction h with
  | nil => rfl
  | cons hxy _ ih => simp [List.mapM_cons, hxy, ih]

theorem all_of_parseOctet {t : Text} {n : Nat} (h : parseOctet t = some n) :
    t.all isDecDigit = true := by
  unfold parseOctet at h
  split at h
  · cases h
  · next hno =>
    simp only [Bool.or_eq_true, Bool.not_eq_true', not_or, Bool.not_eq_false] at hno
    exact hno.1.2

theorem all_of_parseHextet {t : Text} {n : Nat} (h : parseHextet t = some n) :
    t.all isHexDigit = true := by
  unfold parseHextet at h
  split at h
  · cases h
  · next hno =>
    simp only [Bool.or_eq_true, Bool.not_eq_true', not_or, Bool.not_eq_false] at hno
    exact hno.1.2

/-- The characters of a dotted address. -/
theorem parseIpv4_chars {t : Text} {ip : BitVec 32} (h : parseIpv4 t = some ip) :
    ∀ c ∈ t, isDecDigit c = true ∨ c = '.' := by
  intro c hc
  simp only [parseIpv4] at h
  split at h
  · cases h
  split at h
  · cases h
  obtain ⟨os, hos, -⟩ := Option.map_eq_some_iff.mp h
  obtain rfl | ⟨p, hp, hm⟩ := mem_splitOn '.' hc
  · exact .inr rfl
  · obtain ⟨n, hn⟩ := mapM_some hos p hp
    exact .inl (List.all_eq_true.mp (all_of_parseOctet hn) c hm)

theorem isHexDigit_of_dec {c : Char} (h : isDecDigit c = true) : isHexDigit c = true := by
  simp [isHexDigit, h]

/-- Parts of which the first `hi` and the last `lo` are hextets, and the others empty. -/
theorem all_of_sides {parts : List Text} {hi lo : Nat} {his los : List Nat}
    (hhis : (parts.take hi).mapM parseHextet = some his)
    (hlos : (parts.drop (parts.length - lo)).mapM parseHextet = some los)
    (hempty : ∀ j, hi ≤ j → j < parts.length - lo → (parts.getD j []).isEmpty = true) :
    ∀ p ∈ parts, p.all isHexDigit = true := by
  intro p hp
  obtain ⟨j, hj, rfl⟩ := List.getElem_of_mem hp
  by_cases hlow : j < hi
  · obtain ⟨n, hn⟩ := mapM_some hhis parts[j] (List.mem_take_iff_getElem.mpr ⟨j, by omega, rfl⟩)
    exact all_of_parseHextet hn
  by_cases hhigh : j < parts.length - lo
  · have he := hempty j (by omega) hhigh
    rw [List.getD_eq_getElem?_getD, List.getElem?_eq_getElem hj, Option.getD_some, List.isEmpty_iff] at he
    simp [he]
  · obtain ⟨n, hn⟩ := mapM_some hlos parts[j] (List.mem_drop_iff_getElem.mpr
      ⟨j - (parts.length - lo), by omega, by congr 1; omega⟩)
    exact all_of_parseHextet hn

/-- The parts of an address that parses are hextets, or empty. -/
theorem ipv6FromString_parts {t : Text} {ip : BitVec 128} (h : ipv6FromString t = some ip) :
    ∃ parts, ipv6Parts t = some parts ∧ ∀ p ∈ parts, p.all isHexDigit = true := by
  simp only [ipv6FromString, Option.bind_eq_bind] at h
  obtain ⟨parts, hparts, h⟩ := Option.bind_eq_some_iff.mp h
  refine ⟨parts, hparts, ?_⟩
  split at h
  · cases h
  split at h
  · next hinner =>
    split at h
    · cases h
    obtain ⟨hs, hhs, -⟩ := Option.map_eq_some_iff.mp h
    intro p hp
    obtain ⟨n, hn⟩ := mapM_some hhs p hp
    exact all_of_parseHextet hn
  · next skip hinner =>
    have hm : skip ∈ (List.range parts.length).filter fun i =>
        0 < i && i + 1 < parts.length && (parts.getD i []).isEmpty := by
      rw [hinner]
      exact List.mem_singleton.mpr rfl
    simp only [List.mem_filter, Bool.and_eq_true, decide_eq_true_eq] at hm
    obtain ⟨-, ⟨hpos, hlast⟩, hskip⟩ := hm
    -- an empty side holds no hextet, so between the sides there is the gap and what is empty
    generalize hfe : (parts.getD 0 []).isEmpty = firstEmpty at h
    generalize hle : (parts.getD (parts.length - 1) []).isEmpty = lastEmpty at h
    cases firstEmpty <;> cases lastEmpty <;>
      simp only [if_true, if_false, Bool.false_eq_true, Bool.true_and, Bool.false_and,
        Bool.false_or, Bool.or_eq_true, bne_iff_ne, ne_eq, decide_eq_true_eq] at h <;>
      split at h
    all_goals first | cases h | skip
    all_goals
      obtain ⟨his, hhis, h⟩ := Option.bind_eq_some_iff.mp h
      obtain ⟨los, hlos, -⟩ := Option.bind_eq_some_iff.mp h
      refine all_of_sides hhis hlos fun j hj hj' => ?_
    · obtain rfl : j = skip := by omega
      exact hskip
    · obtain rfl | rfl : j = skip ∨ j = parts.length - 1 := by omega
      · exact hskip
      · exact hle
    · obtain rfl | rfl : j = skip ∨ j = 0 := by omega
      · exact hskip
      · exact hfe
    · obtain rfl | rfl | rfl : j = skip ∨ j = 0 ∨ j = parts.length - 1 := by omega
      · exact hskip
      · exact hfe
      · exact hle
  · cases h

/-- A character of an address without a scope. -/
def isAddressChar (c : Char) : Bool := isHexDigit c || c == ':' || c == '.'

theorem isAddressChar_of_hex {c : Char} (h : isHexDigit c = true) : isAddressChar c = true := by
  simp [isAddressChar, h]

theorem isAddressChar_of_ipv4 {c : Char} (h : isDecDigit c = true ∨ c = '.') :
    isAddressChar c = true := by
  obtain h | rfl := h
  · exact isAddressChar_of_hex (isHexDigit_of_dec h)
  · rfl

theorem ipv6FromString_chars {t : Text} {ip : BitVec 128} (h : ipv6FromString t = some ip) :
    t.all isAddressChar = true := by
  obtain ⟨parts, hparts, hall⟩ := ipv6FromString_parts h
  rw [List.all_eq_true]
  intro c hc
  obtain rfl | ⟨p, hp, hm⟩ := mem_splitOn ':' hc
  · rfl
  simp only [ipv6Parts] at hparts
  split at hparts
  · cases hparts
  split at hparts
  · cases hparts
  · next last hlast =>
    split at hparts
    · obtain ⟨ip, hip, rfl⟩ := Option.map_eq_some_iff.mp hparts
      have hsplit := List.dropLast_append_getLast? last hlast
      rw [← hsplit, List.mem_append, List.mem_singleton] at hp
      obtain hp | rfl := hp
      · have := hall p (List.mem_append_left _ hp)
        exact isAddressChar_of_hex (List.all_eq_true.mp this c hm)
      · exact isAddressChar_of_ipv4 (parseIpv4_chars hip c hm)
    · obtain rfl := Option.some.inj hparts
      exact isAddressChar_of_hex (List.all_eq_true.mp (hall p hp) c hm)

/-- How a scope is written. -/
def scopeSuffix : Option Text → Text
  | none => []
  | some scope => '%' :: scope

theorem splitScope_eq (t : Text) :
    splitScope t = match t.dropWhile (· != '%') with
      | [] => some (t.takeWhile (· != '%'), none)
      | _ :: scope =>
        if scope.isEmpty || scope.contains '%' then none
        else some (t.takeWhile (· != '%'), some scope) := by
  have ht := List.prefix_iff_eq_append.mp (List.takeWhile_prefix (l := t) (· != '%'))
  have hd : t.drop (t.takeWhile (· != '%')).length = t.dropWhile (· != '%') :=
    List.append_cancel_left (ht.trans List.takeWhile_append_dropWhile.symm)
  cases hs : t.dropWhile (· != '%') with
  | nil => simp only [splitScope, hd, hs]
  | cons c s => simp only [splitScope, hd, hs]

theorem splitScope_some {t addr : Text} {scope : Option Text}
    (h : splitScope t = some (addr, scope)) :
    t = addr ++ scopeSuffix scope ∧ ∀ s, scope = some s → s ≠ [] ∧ '%' ∉ s := by
  rw [splitScope_eq] at h
  have ht : t.takeWhile (· != '%') ++ t.dropWhile (· != '%') = t := List.takeWhile_append_dropWhile
  split at h
  · next hd =>
    cases h
    rw [hd] at ht
    exact ⟨ht.symm, fun s hs => by cases hs⟩
  · next c s hd =>
    split at h
    · cases h
    next hno =>
    cases h
    have hc : c = '%' := by
      have := List.head?_dropWhile_not (· != '%') t
      rw [hd] at this
      simpa using this
    rw [hd, hc] at ht
    refine ⟨ht.symm, fun s' hs => ?_⟩
    cases hs
    simpa using hno

theorem splitScope_append {addr : Text} {scope : Option Text} (ha : '%' ∉ addr)
    (hs : ∀ s, scope = some s → s ≠ [] ∧ '%' ∉ s) :
    splitScope (addr ++ scopeSuffix scope) = some (addr, scope) := by
  have hall : ∀ c ∈ addr, (c != '%') = true := by
    intro c hc
    simpa using fun he : c = '%' => ha (he ▸ hc)
  rw [splitScope_eq, List.dropWhile_append_of_pos hall, List.takeWhile_append_of_pos hall]
  cases scope with
  | none => simp [scopeSuffix]
  | some s =>
    obtain ⟨hne, hno⟩ := hs s rfl
    simp [scopeSuffix, hne, hno]

/-- What a text that parses is: a dotted address, or an IPv6 address with its scope. -/
theorem ofText_cases {t : Text} {a : IpAddress} (h : ofText t = some a) :
    (∃ ip, a = .v4 ip ∧ t.all isAddressChar = true) ∨
      ∃ ip addr scope, a = .v6 ip scope ∧ t = addr ++ scopeSuffix scope ∧
        addr.all isAddressChar = true ∧ ∀ s, scope = some s → s ≠ [] ∧ '%' ∉ s ∧ '/' ∉ s := by
  obtain h | ⟨-, h⟩ := Option.or_eq_some_iff.mp h
  · obtain ⟨ip, hip, rfl⟩ := Option.map_eq_some_iff.mp h
    exact .inl ⟨ip, rfl, List.all_eq_true.mpr fun c hc => isAddressChar_of_ipv4 (parseIpv4_chars hip c hc)⟩
  · simp only [parseIpv6] at h
    split at h
    · cases h
    next hslash =>
    obtain ⟨⟨addr, scope⟩, hsplit, h⟩ := Option.bind_eq_some_iff.mp h
    obtain ⟨ip, hip, rfl⟩ := Option.map_eq_some_iff.mp h
    obtain ⟨rfl, hscope⟩ := splitScope_some hsplit
    refine .inr ⟨ip, addr, scope, rfl, rfl, ipv6FromString_chars hip, fun s hs => ?_⟩
    obtain ⟨hne, hno⟩ := hscope s hs
    refine ⟨hne, hno, fun hm => hslash ?_⟩
    rw [hs]
    simp [scopeSuffix, hm]

/-! Printing. -/

/-- An IPv6 address without its scope. -/
def printIpv6 (ip : BitVec 128) : Text := (v6 ip none).str

theorem str_v6 (ip : BitVec 128) (scope : Option Text) :
    (v6 ip scope).str = printIpv6 ip ++ scopeSuffix scope := by
  cases scope with
  | none => exact (List.append_nil _).symm
  | some s => simp [str, printIpv6, scopeSuffix]

theorem printIpv4_chars {ip : BitVec 32} {c : Char} (hc : c ∈ printIpv4 ip) :
    isDecDigit c = true ∨ c = '.' := by
  obtain hc | ⟨p, hp, hm⟩ := mem_join hc
  · exact .inr (List.mem_singleton.mp hc)
  · obtain ⟨n, rfl⟩ : ∃ n, p = ofNat n := by
      simp only [List.mem_cons, List.not_mem_nil, or_false] at hp
      obtain rfl | rfl | rfl | rfl := hp <;> exact ⟨_, rfl⟩
    exact .inl (List.all_eq_true.mp (ofNat_dec n) c hm)

theorem hexJoin_chars {hs : List Nat} {c : Char} (hc : c ∈ join [':'] (hs.map (Nat.toDigits 16))) :
    isAddressChar c = true := by
  obtain hc | ⟨p, hp, hm⟩ := mem_join hc
  · obtain rfl := List.mem_singleton.mp hc
    rfl
  · obtain ⟨n, -, rfl⟩ := List.mem_map.mp hp
    exact isAddressChar_of_hex (List.all_eq_true.mp (toDigits_hex n).1 c hm)

theorem printIpv6_chars {ip : BitVec 128} {c : Char} (hc : c ∈ printIpv6 ip) :
    isAddressChar c = true := by
  simp only [printIpv6, str] at hc
  split at hc
  · obtain hc | hc := List.mem_append.mp hc
    · have hall : ("::ffff:" : Text).all isAddressChar = true := by decide
      exact List.all_eq_true.mp hall c hc
    · exact isAddressChar_of_ipv4 (printIpv4_chars hc)
  · simp only [compressHextets] at hc
    split at hc
    · exact hexJoin_chars hc
    · simp only [List.mem_append] at hc
      obtain (hc | hc) | hc := hc
      · exact hexJoin_chars hc
      · have hall : ("::" : Text).all isAddressChar = true := by decide
        exact List.all_eq_true.mp hall c hc
      · exact hexJoin_chars hc

/-! A printed address parses to itself. -/

theorem dot_not_mem_ofNat (n : Nat) : '.' ∉ ofNat n := by
  intro hm
  exact absurd (List.all_eq_true.mp (ofNat_dec n) '.' hm) (by decide)

theorem parseIpv4_print (ip : BitVec 32) : parseIpv4 (printIpv4 ip) = some ip := by
  have hn : ip.toNat < 2 ^ 32 := ip.isLt
  have hslash : '/' ∉ printIpv4 ip := by
    intro hm
    exact absurd (printIpv4_chars hm) (by decide)
  have hsplit : splitOn '.' (printIpv4 ip) = [ofNat (ip.toNat / 2 ^ 24),
      ofNat (ip.toNat / 2 ^ 16 % 256), ofNat (ip.toNat / 2 ^ 8 % 256), ofNat (ip.toNat % 256)] := by
    refine splitOn_join fun q hq => ?_
    simp only [List.mem_cons, List.not_mem_nil, or_false] at hq
    obtain rfl | rfl | rfl | rfl := hq <;> exact dot_not_mem_ofNat _
  have hparse : [ofNat (ip.toNat / 2 ^ 24), ofNat (ip.toNat / 2 ^ 16 % 256),
      ofNat (ip.toNat / 2 ^ 8 % 256), ofNat (ip.toNat % 256)].mapM parseOctet =
      some [ip.toNat / 2 ^ 24, ip.toNat / 2 ^ 16 % 256, ip.toNat / 2 ^ 8 % 256, ip.toNat % 256] :=
    mapM_eq_some (.cons (parseOctet_ofNat (by omega)) (.cons (parseOctet_ofNat (by omega))
      (.cons (parseOctet_ofNat (by omega)) (.cons (parseOctet_ofNat (by omega)) .nil))))
  simp only [parseIpv4, List.contains_eq_mem, hslash, decide_false, Bool.false_eq_true, if_false,
    hsplit, hparse, List.length_cons, List.length_nil, bne_self_eq_false, Option.map_some,
    fromDigits_octets hn]
  simp

/-- A text with a colon is no dotted address. -/
theorem parseIpv4_of_colon {t : Text} (h : ':' ∈ t) : parseIpv4 t = none := by
  cases hp : parseIpv4 t with
  | none => rfl
  | some ip =>
    exact absurd (parseIpv4_chars hp ':' h) (by decide)

/-- The parts a side of the gap is read as. -/
def sideParts : List Nat → List Text
  | [] => [[]]
  | hs => hs.map (Nat.toDigits 16)

theorem sideParts_cons (h : Nat) (hs : List Nat) :
    sideParts (h :: hs) = (h :: hs).map (Nat.toDigits 16) := rfl

theorem colon_not_mem_toDigits (n : Nat) : ':' ∉ Nat.toDigits 16 n := by
  intro hm
  exact absurd (List.all_eq_true.mp (toDigits_hex n).1 ':' hm) (by decide)

theorem dot_not_mem_toDigits (n : Nat) : '.' ∉ Nat.toDigits 16 n := by
  intro hm
  exact absurd (List.all_eq_true.mp (toDigits_hex n).1 '.' hm) (by decide)

theorem mapM_parseHextet {hs : List Nat} (h : ∀ n ∈ hs, n < 2 ^ 16) :
    (hs.map (Nat.toDigits 16)).mapM parseHextet = some hs := by
  refine mapM_eq_some ?_
  rw [List.forall₂_map_left_iff, List.forall₂_same]
  exact fun n hn => parseHextet_toDigits (h n hn)

theorem filter_range_eq_singleton {n k : Nat} {p : Nat → Bool} (hk : k < n)
    (hp : ∀ i < n, p i = true ↔ i = k) : (List.range n).filter p = [k] := by
  have hc : (List.range n).filter p = (List.range n).filter (· == k) := by
    refine List.filter_congr fun i hi => ?_
    rw [Bool.eq_iff_iff, hp i (List.mem_range.mp hi), beq_iff_eq]
  rw [hc, List.filter_beq, List.count_eq_one_of_mem List.nodup_range (List.mem_range.mpr hk)]
  rfl

theorem sideParts_length (hs : List Nat) : (sideParts hs).length = max 1 hs.length := by
  cases hs <;> simp [sideParts]

/-- A part of a side is empty only where the side is. -/
theorem sideParts_getD_isEmpty {hs : List Nat} {i : Nat} (hi : i < (sideParts hs).length) :
    ((sideParts hs).getD i []).isEmpty = hs.isEmpty := by
  cases hs with
  | nil =>
    obtain rfl : i = 0 := by simpa [sideParts] using hi
    rfl
  | cons h hs =>
    rw [List.getD_eq_getElem _ _ hi]
    obtain ⟨n, -, hn⟩ := List.mem_map.mp (List.getElem_mem hi)
    simp [← hn, Nat.toDigits_ne_nil]

/-- The numbers on both sides of a gap, and zeros in it. -/
theorem ipv6FromString_gap {t : Text} {hs ls : List Nat}
    (hparts : ipv6Parts t = some (sideParts hs ++ [] :: sideParts ls))
    (hhs : ∀ n ∈ hs, n < 2 ^ 16) (hls : ∀ n ∈ ls, n < 2 ^ 16) (hlen : hs.length + ls.length ≤ 7) :
    ipv6FromString t = some (BitVec.ofNat 128
      (fromDigits 16 (hs ++ List.replicate (8 - (hs.length + ls.length)) 0 ++ ls))) := by
  have hl := sideParts_length hs
  have hr := sideParts_length ls
  generalize hps : sideParts hs ++ [] :: sideParts ls = parts at hparts
  have hn : parts.length = (sideParts hs).length + 1 + (sideParts ls).length := by
    rw [← hps, List.length_append, List.length_cons]
    omega
  have hleft : ∀ i < (sideParts hs).length, (parts.getD i []).isEmpty = hs.isEmpty := by
    intro i hi
    rw [← hps, List.getD_append _ _ _ _ hi]
    exact sideParts_getD_isEmpty hi
  have hgap : (parts.getD (sideParts hs).length []).isEmpty = true := by
    rw [← hps, List.getD_append_right _ _ _ _ (Nat.le_refl _), Nat.sub_self]
    rfl
  have hright : ∀ i, (sideParts hs).length < i → i < parts.length →
      (parts.getD i []).isEmpty = ls.isEmpty := by
    intro i hi hi'
    rw [← hps, List.getD_append_right _ _ _ _ (by omega)]
    obtain ⟨j, hj⟩ : ∃ j, i - (sideParts hs).length = j + 1 := ⟨i - (sideParts hs).length - 1, by omega⟩
    rw [hj, List.getD_cons_succ]
    exact sideParts_getD_isEmpty (by omega)
  have hinner : (List.range parts.length).filter (fun i =>
      0 < i && i + 1 < parts.length && (parts.getD i []).isEmpty) = [(sideParts hs).length] := by
    refine filter_range_eq_singleton (by omega) fun i hi => ?_
    simp only [Bool.and_eq_true, decide_eq_true_eq]
    constructor
    · intro h
      by_contra hne
      obtain ⟨⟨hpos, hlast⟩, he⟩ := h
      obtain hlt | hgt := Nat.lt_or_gt_of_ne hne
      · rw [hleft i hlt, List.isEmpty_iff_length_eq_zero] at he
        omega
      · rw [hright i hgt hi, List.isEmpty_iff_length_eq_zero] at he
        omega
    · intro he
      rw [he]
      exact ⟨⟨by omega, by omega⟩, hgap⟩
  have hfirst := hleft 0 (by omega)
  have hlast := hright (parts.length - 1) (by omega) (by omega)
  have hhi : (if hs.isEmpty then (sideParts hs).length - 1 else (sideParts hs).length) =
      hs.length := by
    cases hs with
    | nil => rfl
    | cons h hs => simp [sideParts]
  have hlo : (if ls.isEmpty then parts.length - (sideParts hs).length - 2
      else parts.length - (sideParts hs).length - 1) = ls.length := by
    cases hls' : ls.isEmpty with
    | true =>
      have := List.isEmpty_iff_length_eq_zero.mp hls'
      simp only [if_true]
      omega
    | false =>
      have : ls.length ≠ 0 := by
        intro hz
        rw [← List.isEmpty_iff_length_eq_zero, hls'] at hz
        cases hz
      simp only [Bool.false_eq_true, if_false]
      omega
  have htake : (parts.take hs.length).mapM parseHextet = some hs := by
    have ht : parts.take hs.length = hs.map (Nat.toDigits 16) := by
      rw [← hps]
      cases hs with
      | nil => rfl
      | cons h hs => exact List.take_left' (by simp [sideParts_cons])
    rw [ht, mapM_parseHextet hhs]
  have hdrop : (parts.drop (parts.length - ls.length)).mapM parseHextet = some ls := by
    have hd : parts.drop (parts.length - ls.length) = ls.map (Nat.toDigits 16) := by
      cases ls with
      | nil => simp
      | cons l ls =>
        have hcut : parts = (sideParts hs ++ [[]]) ++ (l :: ls).map (Nat.toDigits 16) := by
          rw [← hps, List.append_assoc]
          rfl
        rw [hcut]
        refine List.drop_left' ?_
        simp only [List.length_append, List.length_map, List.length_cons, List.length_nil]
        omega
    rw [hd, mapM_parseHextet hls]
  have hfew : ¬9 < parts.length := by omega
  simp only [ipv6FromString, hparts, Option.bind_eq_bind, Option.bind_some, hfew, if_false, hinner,
    hfirst, hlast, hhi, hlo]
  rw [htake, Option.bind_some, hdrop, Option.bind_some, if_neg]
  cases hs <;> cases ls <;> simp at hlen ⊢ <;> omega

/-- Eight hextets without a gap. -/
theorem ipv6FromString_full {t : Text} {hs : List Nat}
    (hparts : ipv6Parts t = some (hs.map (Nat.toDigits 16))) (hhs : ∀ n ∈ hs, n < 2 ^ 16)
    (hlen : hs.length = 8) : ipv6FromString t = some (BitVec.ofNat 128 (fromDigits 16 hs)) := by
  have hne : ∀ i < 8, ((hs.map (Nat.toDigits 16)).getD i []).isEmpty = false := by
    intro i hi
    rw [List.getD_eq_getElem _ _ (by simpa [hlen] using hi), List.getElem_map]
    simp [Nat.toDigits_ne_nil]
  have hinner : (List.range 8).filter (fun i =>
      0 < i && i + 1 < 8 && ((hs.map (Nat.toDigits 16)).getD i []).isEmpty) = [] := by
    refine List.filter_eq_nil_iff.mpr fun i hi => ?_
    rw [hne i (List.mem_range.mp hi), Bool.and_false]
    exact Bool.false_ne_true
  have hfew : ¬9 < 8 := by decide
  simp only [ipv6FromString, hparts, Option.bind_eq_bind, Option.bind_some, List.length_map, hlen,
    hfew, if_false, hinner, hne 0 (by decide), hne (8 - 1) (by decide), mapM_parseHextet hhs,
    bne_self_eq_false, Bool.or_self, Bool.false_eq_true, Option.map_some]

theorem splitOn_join_append {sep : Char} {p : Text} {ps : List Text} (hp : ∀ q ∈ p :: ps, sep ∉ q)
    (t : Text) : splitOn sep (join [sep] (p :: ps) ++ sep :: t) = p :: ps ++ splitOn sep t := by
  induction ps generalizing p with
  | nil => exact splitOn_append_sep (hp p (by simp)) t
  | cons q qs ih =>
    have hq := ih fun r hr => hp r (List.mem_cons_of_mem _ hr)
    have hassoc : join [sep] (p :: q :: qs) ++ sep :: t =
        p ++ sep :: (join [sep] (q :: qs) ++ sep :: t) := by
      simp [join]
    rw [hassoc, splitOn_append_sep (hp p (by simp)), hq]
    rfl

/-- The parts of an address with a gap. -/
theorem splitOn_gap (hs ls : List Nat) :
    splitOn ':' (join [':'] (hs.map (Nat.toDigits 16)) ++ ':' :: ':' ::
      join [':'] (ls.map (Nat.toDigits 16))) = sideParts hs ++ [] :: sideParts ls := by
  have hcolon : ∀ (ns : List Nat), ∀ q ∈ ns.map (Nat.toDigits 16), ':' ∉ q := by
    intro ns q hq
    obtain ⟨n, -, rfl⟩ := List.mem_map.mp hq
    exact colon_not_mem_toDigits n
  have hright : splitOn ':' (join [':'] (ls.map (Nat.toDigits 16))) = sideParts ls := by
    cases ls with
    | nil => rfl
    | cons l ls => exact splitOn_join (hcolon (l :: ls))
  cases hs with
  | nil =>
    show splitOn ':' (':' :: ':' :: join [':'] (ls.map (Nat.toDigits 16))) = _
    rw [splitOn_cons_sep, splitOn_cons_sep, hright]
    rfl
  | cons h hs =>
    rw [List.map_cons, splitOn_join_append (hcolon (h :: hs)), splitOn_cons_sep, hright]
    rfl

theorem ipv6Parts_of_no_dot {t : Text} (hlen : 3 ≤ (splitOn ':' t).length)
    (hdot : ∀ p ∈ splitOn ':' t, '.' ∉ p) : ipv6Parts t = some (splitOn ':' t) := by
  simp only [ipv6Parts, Nat.not_lt.mpr hlen, if_false]
  split
  · next hnone =>
    rw [List.getLast?_eq_none_iff] at hnone
    rw [hnone] at hlen
    cases hlen
  · next last hlast =>
    have hno : '.' ∉ last := hdot last (List.mem_of_getLast? hlast)
    simp [hno]

theorem dot_not_mem_sideParts {hs : List Nat} {p : Text} (hp : p ∈ sideParts hs) : '.' ∉ p := by
  cases hs with
  | nil =>
    obtain rfl := List.mem_singleton.mp hp
    exact List.not_mem_nil
  | cons h hs =>
    obtain ⟨n, -, rfl⟩ := List.mem_map.mp hp
    exact dot_not_mem_toDigits n

/-! The run of zeros that is left out. -/

theorem replicate_zeroRun (hs : List Nat) :
    List.replicate (zeroRun hs) 0 ++ hs.drop (zeroRun hs) = hs := by
  have hzeros : hs.takeWhile (· == 0) = List.replicate (zeroRun hs) 0 := by
    refine List.eq_replicate_iff.mpr ⟨rfl, fun h hm => ?_⟩
    simpa using List.all_eq_true.mp List.all_takeWhile h hm
  rw [← hzeros]
  exact List.prefix_iff_eq_append.mp (List.takeWhile_prefix _)

/-- What a fold that keeps the better of two keeps is one of them. -/
theorem foldl_best_mem {α : Type} (better : α → α → Bool) (init : α) (xs : List α) :
    xs.foldl (fun b x => if better b x then x else b) init ∈ init :: xs := by
  induction xs generalizing init with
  | nil => exact List.mem_singleton.mpr rfl
  | cons x xs ih =>
    rw [List.foldl_cons]
    have hm := ih (if better init x then x else init)
    obtain hm | hm := List.mem_cons.mp hm
    · rw [hm]
      split <;> simp
    · exact List.mem_cons_of_mem _ (List.mem_cons_of_mem _ hm)

/-- The hextets of a printed address around the run that is left out. -/
theorem compressHextets_cases (hs : List Nat) :
    compressHextets hs = join [':'] (hs.map (Nat.toDigits 16)) ∨
      ∃ ls k rs, 2 ≤ k ∧ hs = ls ++ List.replicate k 0 ++ rs ∧
        compressHextets hs = join [':'] (ls.map (Nat.toDigits 16)) ++ ':' :: ':' ::
          join [':'] (rs.map (Nat.toDigits 16)) := by
  simp only [compressHextets]
  generalize hbest : ((List.range hs.length).map fun i => (i, zeroRun (hs.drop i))).foldl
    (fun b r => if b.2 < r.2 then r else b) (0, 0) = best
  by_cases hone : best.2 ≤ 1
  · simp [hone]
  refine .inr ⟨hs.take best.1, best.2, hs.drop (best.1 + best.2), by omega, ?_, ?_⟩
  · have hm := foldl_best_mem (fun b r : Nat × Nat => b.2 < r.2) (0, 0)
      ((List.range hs.length).map fun i => (i, zeroRun (hs.drop i)))
    simp only [decide_eq_true_eq, hbest] at hm
    obtain rfl | hm := List.mem_cons.mp hm
    · exact absurd (Nat.zero_le 1) hone
    · obtain ⟨i, -, rfl⟩ := List.mem_map.mp hm
      show hs = hs.take i ++ List.replicate (zeroRun (hs.drop i)) 0 ++ hs.drop (i + zeroRun (hs.drop i))
      rw [List.append_assoc, ← List.drop_drop, replicate_zeroRun, List.take_append_drop]
  · simp [hone]

theorem hextets_length (n : Nat) : (hextets n).length = 8 := by simp [hextets]

theorem ipv6FromString_compressed {n : Nat} (hn : n < 2 ^ 128) :
    ipv6FromString (compressHextets (hextets n)) = some (BitVec.ofNat 128 n) := by
  have hlt : ∀ h ∈ hextets n, h < 2 ^ 16 := fun h hm => hextets_lt hm
  have hlen := hextets_length n
  have hvalue := fromDigits_hextets hn
  obtain htext | ⟨ls, k, rs, hk, hhs, htext⟩ := compressHextets_cases (hextets n)
  · obtain ⟨h, hs, hcons⟩ : ∃ h hs, hextets n = h :: hs :=
      List.exists_cons_of_length_pos (by omega)
    have hsplit : splitOn ':' (compressHextets (hextets n)) = (hextets n).map (Nat.toDigits 16) := by
      rw [htext, hcons, List.map_cons]
      refine splitOn_join fun q hq => ?_
      obtain ⟨m, -, rfl⟩ := List.mem_map.mp (show q ∈ (h :: hs).map (Nat.toDigits 16) from hq)
      exact colon_not_mem_toDigits m
    have hparts := ipv6Parts_of_no_dot (t := compressHextets (hextets n))
      (by rw [hsplit, List.length_map, hlen]; decide) fun p hp => by
        rw [hsplit] at hp
        obtain ⟨m, -, rfl⟩ := List.mem_map.mp hp
        exact dot_not_mem_toDigits m
    rw [ipv6FromString_full (hparts.trans (by rw [hsplit])) hlt hlen, hvalue]
  · have hsplit := splitOn_gap ls rs
    rw [← htext] at hsplit
    have hlens : ls.length + k + rs.length = 8 := by
      have := congrArg List.length hhs
      simp only [List.length_append, List.length_replicate] at this
      omega
    have hparts := ipv6Parts_of_no_dot (t := compressHextets (hextets n))
      (by
        rw [hsplit, List.length_append, List.length_cons, sideParts_length, sideParts_length]
        omega) fun p hp => by
        rw [hsplit] at hp
        obtain hp | hp := List.mem_append.mp hp
        · exact dot_not_mem_sideParts hp
        obtain rfl | hp := List.mem_cons.mp hp
        · exact List.not_mem_nil
        · exact dot_not_mem_sideParts hp
    rw [hsplit] at hparts
    rw [ipv6FromString_gap hparts (fun m hm => hlt m (by rw [hhs]; simp [hm]))
      (fun m hm => hlt m (by rw [hhs]; simp [hm])) (by omega)]
    have hgap : 8 - (ls.length + rs.length) = k := by omega
    rw [hgap, ← hhs, hvalue]

/-- An IPv4-mapped address is read from its dotted suffix. -/
theorem ipv6FromString_mapped (ip : BitVec 32) :
    ipv6FromString ("::ffff:" ++ printIpv4 ip) =
      some (BitVec.ofNat 128 (0xffff * 2 ^ 32 + ip.toNat)) := by
  have hn : ip.toNat < 2 ^ 32 := ip.isLt
  have hcolon : ':' ∉ printIpv4 ip := by
    intro hm
    exact absurd (printIpv4_chars hm) (by decide)
  have hsplit : splitOn ':' ("::ffff:" ++ printIpv4 ip) = [[], [], "ffff", printIpv4 ip] := by
    show splitOn ':' (':' :: ':' :: (("ffff" : Text) ++ ':' :: printIpv4 ip)) = _
    rw [splitOn_cons_sep, splitOn_cons_sep, splitOn_append_sep (by decide),
      splitOn_of_not_mem hcolon]
  have hdot : '.' ∈ printIpv4 ip := by simp [printIpv4, join]
  have hparts : ipv6Parts ("::ffff:" ++ printIpv4 ip) = some (sideParts [] ++ [] ::
      sideParts [0xffff, ip.toNat / 2 ^ 16, ip.toNat % 2 ^ 16]) := by
    simp only [ipv6Parts, hsplit]
    simp only [List.length_cons, List.length_nil, List.getLast?_cons_cons, List.getLast?_singleton,
      List.contains_eq_mem, hdot, decide_true, if_true, parseIpv4_print, Option.map_some]
    rfl
  have hvalue : fromDigits 16 [0, 0, 0, 0, 0, 0xffff, ip.toNat / 2 ^ 16, ip.toNat % 2 ^ 16] =
      0xffff * 2 ^ 32 + ip.toNat := by
    simp only [fromDigits, List.foldl_cons, List.foldl_nil]
    omega
  rw [ipv6FromString_gap hparts (by simp)
    (fun m hm => by simp only [List.mem_cons, List.not_mem_nil, or_false] at hm; omega) (by simp)]
  exact congrArg (fun m => some (BitVec.ofNat 128 m)) hvalue

theorem ipv6FromString_print (ip : BitVec 128) : ipv6FromString (printIpv6 ip) = some ip := by
  have hn : ip.toNat < 2 ^ 128 := ip.isLt
  simp only [printIpv6, str]
  split
  · next hmapped =>
    rw [ipv6FromString_mapped, BitVec.toNat_ofNat]
    have hvalue : 0xffff * 2 ^ 32 + ip.toNat % 2 ^ 32 = ip.toNat := by
      have := beq_iff_eq.mp hmapped
      omega
    rw [hvalue, BitVec.ofNat_toNat, BitVec.setWidth_eq]
  · rw [ipv6FromString_compressed hn, BitVec.ofNat_toNat, BitVec.setWidth_eq]

theorem colon_mem_of_ipv6FromString {t : Text} {ip : BitVec 128} (h : ipv6FromString t = some ip) :
    ':' ∈ t := by
  by_contra hno
  obtain ⟨parts, hparts, -⟩ := ipv6FromString_parts h
  simp [ipv6Parts, splitOn_of_not_mem hno] at hparts

/-- A printed address with a scope that `ip_address` takes parses back to itself. -/
theorem ofText_str {a : IpAddress}
    (ha : ∀ ip s, a = .v6 ip (some s) → s ≠ [] ∧ '%' ∉ s ∧ '/' ∉ s) : ofText a.str = some a := by
  cases a with
  | v4 ip =>
    show ((parseIpv4 (printIpv4 ip)).map v4).or _ = _
    rw [parseIpv4_print]
    rfl
  | v6 ip scope =>
    have hscope : ∀ s, scope = some s → s ≠ [] ∧ '%' ∉ s ∧ '/' ∉ s :=
      fun s hs => ha ip s (by rw [hs])
    have hcolon : ':' ∈ printIpv6 ip ++ scopeSuffix scope :=
      List.mem_append_left _ (colon_mem_of_ipv6FromString (ipv6FromString_print ip))
    have hslash : '/' ∉ printIpv6 ip ++ scopeSuffix scope := by
      intro hm
      obtain hm | hm := List.mem_append.mp hm
      · exact absurd (printIpv6_chars hm) (by decide)
      · cases scope with
        | none => cases hm
        | some s =>
          obtain hm | hm := List.mem_cons.mp hm
          · cases hm
          · exact (hscope s rfl).2.2 hm
    have hsplit : splitScope (printIpv6 ip ++ scopeSuffix scope) = some (printIpv6 ip, scope) := by
      refine splitScope_append (fun hm => ?_) fun s hs => ?_
      · exact absurd (printIpv6_chars hm) (by decide)
      · obtain ⟨hne, hno, -⟩ := hscope s hs
        exact ⟨hne, hno⟩
    rw [str_v6, ofText, parseIpv4_of_colon hcolon]
    simp [parseIpv6, hslash, hsplit, ipv6FromString_print]

/-- What `ip_address` accepted, it accepts in its printed form. -/
theorem ofText_str_of_ofText {t : Text} {a : IpAddress} (h : ofText t = some a) :
    ofText a.str = some a := by
  obtain ⟨ip, rfl, -⟩ | ⟨ip, addr, scope, rfl, -, -, hscope⟩ := ofText_cases h
  · exact ofText_str fun ip' s he => by cases he
  · exact ofText_str fun ip' s he => hscope s (by cases he; rfl)

/-! ## Lengths -/

theorem length_join_le {sep : Char} {k : Nat} {ps : List Text} (h : ∀ p ∈ ps, p.length ≤ k) :
    (join [sep] ps).length ≤ (k + 1) * ps.length := by
  induction ps with
  | nil => simp [join]
  | cons p qs ih =>
    have hp := h p List.mem_cons_self
    have hrest := ih fun q hq => h q (List.mem_cons_of_mem _ hq)
    cases qs with
    | nil =>
      simp [join]
      omega
    | cons q rs =>
      simp only [join, List.length_append, List.length_nil, List.length_cons,
        Nat.mul_add] at hrest ⊢
      omega

theorem length_printIpv4_le (ip : BitVec 32) : (printIpv4 ip).length ≤ 16 := by
  have hn : ip.toNat < 2 ^ 32 := ip.isLt
  refine length_join_le (k := 3) fun p hp => ?_
  obtain ⟨n, hlt, rfl⟩ : ∃ n < 256, p = ofNat n := by
    simp only [List.mem_cons, List.not_mem_nil, or_false] at hp
    obtain rfl | rfl | rfl | rfl := hp <;> exact ⟨_, by omega, rfl⟩
  rw [ofNat_eq]
  exact (Nat.length_toDigits_le_iff (by decide) (by decide)).mpr (by omega)

theorem length_hexJoin_le {hs : List Nat} (h : ∀ n ∈ hs, n < 2 ^ 16) :
    (join [':'] (hs.map (Nat.toDigits 16))).length ≤ 5 * hs.length := by
  rw [← List.length_map (f := Nat.toDigits 16)]
  refine length_join_le (k := 4) fun p hp => ?_
  obtain ⟨n, hn, rfl⟩ := List.mem_map.mp hp
  exact (Nat.length_toDigits_le_iff (by decide) (by decide)).mpr (h n hn)

/-- A printed address without a scope is short. -/
theorem length_printIpv6_le (ip : BitVec 128) : (printIpv6 ip).length ≤ 64 := by
  simp only [printIpv6, str]
  split
  · have := length_printIpv4_le (BitVec.ofNat 32 ip.toNat)
    have hprefix : ("::ffff:" : Text).length = 7 := by decide
    rw [List.length_append, hprefix]
    omega
  · have hlt : ∀ n ∈ hextets ip.toNat, n < 2 ^ 16 := fun n hn => hextets_lt hn
    have hlen := hextets_length ip.toNat
    simp only [compressHextets]
    split
    · have := length_hexJoin_le hlt
      omega
    · next hbest =>
      have htake : ∀ k, ∀ n ∈ (hextets ip.toNat).take k, n < 2 ^ 16 :=
        fun k n hn => hlt n (List.mem_of_mem_take hn)
      have hdrop : ∀ k, ∀ n ∈ (hextets ip.toNat).drop k, n < 2 ^ 16 :=
        fun k n hn => hlt n (List.mem_of_mem_drop hn)
      have hgap : ("::" : Text).length = 2 := by decide
      rw [List.length_append, List.length_append, hgap]
      refine (Nat.add_le_add (Nat.add_le_add_right (length_hexJoin_le (htake _)) 2)
        (length_hexJoin_le (hdrop _))).trans ?_
      simp only [List.length_take, List.length_drop]
      omega

end IpAddress

end ArubaCertRenewer
