import ArubaCertRenewer.CandidateArchive
import ArubaCertRenewer.Identity
import Mathlib.Data.List.DropRight
import Mathlib.Data.List.TakeWhile
import Mathlib.Data.Option.Basic

/- The preflight against `tarfile`: where both find the headers.

   The two readers agree on the size that a header holds. They do not agree on
   the size of a member: the preflight skips data behind a directory, uses a
   global size, and takes the last of several sizes where `tarfile` takes the
   first. An archive whose sizes agree at every member is read in step. -/
namespace ArubaCertRenewer
open PyText

@[simp] theorem candidateWhen_eq_ok {b : Bool} {message : Text} {u : Unit} :
    candidateWhen b message = .ok u ↔ b = false := by
  cases b <;> simp [candidateWhen]

/-! ## Number fields -/

theorem ofNat_octal {b : UInt8} (h : isOctal b = true) :
    decimal? (Char.ofNat b.toNat) = some (b.toNat - 48) ∧ isSpace (Char.ofNat b.toNat) = false ∧
      Char.ofNat b.toNat ≠ '_' ∧ Char.ofNat b.toNat ≠ '-' ∧ Char.ofNat b.toNat ≠ '+' ∧
      Char.ofNat b.toNat ≠ 'o' ∧ Char.ofNat b.toNat ≠ 'O' ∧ b.toNat - 48 < 8 ∧ b < 128 ∧ b ≠ 0 := by
  have hall : ∀ b : Fin 256, isOctal (UInt8.ofFin b) = true →
      decimal? (Char.ofNat (UInt8.ofFin b).toNat) = some ((UInt8.ofFin b).toNat - 48) ∧
      isSpace (Char.ofNat (UInt8.ofFin b).toNat) = false ∧
      Char.ofNat (UInt8.ofFin b).toNat ≠ '_' ∧ Char.ofNat (UInt8.ofFin b).toNat ≠ '-' ∧
      Char.ofNat (UInt8.ofFin b).toNat ≠ '+' ∧ Char.ofNat (UInt8.ofFin b).toNat ≠ 'o' ∧
      Char.ofNat (UInt8.ofFin b).toNat ≠ 'O' ∧ (UInt8.ofFin b).toNat - 48 < 8 ∧
      UInt8.ofFin b < 128 ∧ UInt8.ofFin b ≠ 0 := by
    decide +kernel
  exact hall b.toFin h

def asText (raw : Bytes) : Text := raw.map fun b => Char.ofNat b.toNat

theorem digitGroups_octal {raw : Bytes} (hne : raw ≠ []) (h : ∀ b ∈ raw, isOctal b = true) :
    digitGroups 8 (asText raw) = some (octalValue raw) := by
  have hsep : '_' ∉ asText raw := by
    intro hm
    obtain ⟨b, hb, heq⟩ := List.mem_map.mp hm
    exact (ofNat_octal (h b hb)).2.2.1 heq
  have hfilter : (asText raw).filter (· != '_') = asText raw := by
    apply List.filter_eq_self.mpr
    intro c hc
    simp only [bne_iff_ne]
    exact fun heq => hsep (heq ▸ hc)
  have hparts : (splitOn '_' (asText raw)).any List.isEmpty = false := by
    rw [splitOn_of_not_mem hsep]
    simpa [asText] using hne
  -- digit by digit, over what was read so far
  have hfold : ∀ (raw : Bytes) (n : Nat), (∀ b ∈ raw, isOctal b = true) →
      (asText raw).foldlM (fun n c => do
        let digit ← decimal? c
        if digit < 8 then some (8 * n + digit) else none) n =
      some (raw.foldl (fun n b => 8 * n + (b.toNat - 48)) n) := by
    intro raw
    induction raw with
    | nil => intro n _; rfl
    | cons b raw ih =>
      intro n hb
      obtain ⟨hd, -, -, -, -, -, -, hlt, -⟩ := ofNat_octal (hb b (List.mem_cons_self ..))
      have ih := ih (8 * n + (b.toNat - 48)) fun c hc => hb c (List.mem_cons_of_mem _ hc)
      simp only [asText, List.map_cons, List.foldlM_cons, hd, Option.bind_eq_bind, Option.bind_some,
        hlt, if_true] at ih ⊢
      exact ih
  simp only [digitGroups, hparts, hfilter, Bool.false_eq_true, if_false]
  exact hfold raw 0 h

theorem strip_between {before t after : Text} (hb : ∀ c ∈ before, isSpace c = true)
    (ha : ∀ c ∈ after, isSpace c = true) (hne : t ≠ []) (ht : ∀ c ∈ t, isSpace c = false) :
    strip (before ++ t ++ after) = t := by
  have hfirst : (before ++ t ++ after).dropWhile isSpace = t ++ after := by
    rw [List.append_assoc, List.dropWhile_append_of_pos hb]
    cases t with
    | nil => exact absurd rfl hne
    | cons c t => simp [ht c (List.mem_cons_self ..)]
  have hlast : List.rdropWhile isSpace (t ++ after) = t := by
    have hself : List.rdropWhile isSpace t = t := by
      apply List.rdropWhile_eq_self_iff.mpr
      intro hl
      simp [ht _ (List.getLast_mem hl)]
    calc List.rdropWhile isSpace (t ++ after)
        = (List.dropWhile isSpace (after.reverse ++ t.reverse)).reverse := by
          rw [List.rdropWhile, List.reverse_append]
      _ = (List.dropWhile isSpace t.reverse).reverse := by
          rw [List.dropWhile_append_of_pos fun c hc => ha c (List.mem_reverse.mp hc)]
      _ = t := hself
  show List.rdropWhile isSpace ((before ++ t ++ after).dropWhile isSpace) = t
  rw [hfirst, hlast]

theorem pyInt_octal {before raw after : Bytes} (hb : ∀ b ∈ before, b = 32) (ha : ∀ b ∈ after, b = 32)
    (hne : raw ≠ []) (h : ∀ b ∈ raw, isOctal b = true) :
    pyInt 8 (asText (before ++ raw ++ after)) = some (octalValue raw : Int) := by
  have hblank : ∀ blanks : Bytes, (∀ b ∈ blanks, b = 32) → ∀ c ∈ asText blanks, isSpace c = true := by
    intro blanks hall c hc
    obtain ⟨b, hb, rfl⟩ := List.mem_map.mp hc
    rw [hall b hb]
    decide
  have hstrip : strip (asText (before ++ raw ++ after)) = asText raw := by
    simp only [asText, List.map_append]
    apply strip_between (hblank before hb) (hblank after ha)
    · simpa using hne
    · intro c hc
      obtain ⟨b, hb, rfl⟩ := List.mem_map.mp hc
      exact (ofNat_octal (h b hb)).2.1
  have hunsigned : unsignedInt 8 (asText raw) = some (octalValue raw) := by
    rw [← digitGroups_octal hne h]
    -- no second character is the letter of the prefix
    have hno : ∀ c ∈ asText raw, c ≠ 'o' ∧ c ≠ 'O' := by
      intro c hc
      obtain ⟨b, hb, rfl⟩ := List.mem_map.mp hc
      obtain ⟨-, -, -, -, -, ho, hO, -⟩ := ofNat_octal (h b hb)
      exact ⟨ho, hO⟩
    simp only [unsignedInt, if_true]
    split
    · rename_i heq
      exact absurd rfl (hno 'o' (by rw [heq]; simp)).1
    · rename_i heq
      exact absurd rfl (hno 'O' (by rw [heq]; simp)).2
    · rename_i heq
      exact absurd rfl (hno 'o' (by rw [heq]; simp)).1
    · rename_i heq
      exact absurd rfl (hno 'O' (by rw [heq]; simp)).2
    · rfl
  have hsign : ∀ c ∈ asText raw, c ≠ '-' ∧ c ≠ '+' := by
    intro c hc
    obtain ⟨b, hb, rfl⟩ := List.mem_map.mp hc
    obtain ⟨-, -, -, hminus, hplus, -⟩ := ofNat_octal (h b hb)
    exact ⟨hminus, hplus⟩
  simp only [pyInt, hstrip]
  split
  · rename_i heq
    exact absurd rfl (hsign '-' (by rw [heq]; simp)).1
  · rename_i heq
    exact absurd rfl (hsign '+' (by rw [heq]; simp)).2
  · rw [hunsigned]
    rfl

/-- A field of octal digits: blanks before them, blanks behind them up to its first zero. -/
theorem nts_octal {raw : Bytes} (h : ∀ b ∈ octalField raw, isOctal b = true) :
    ∃ before after, nts raw = before ++ octalField raw ++ after ∧
      (∀ b ∈ before, b = 32) ∧ ∀ b ∈ after, b = 32 := by
  let isPad : UInt8 → Bool := fun b => b == 0 || b == 32
  let kept := List.rdropWhile isPad raw
  have hraw : raw = kept ++ List.rtakeWhile isPad raw := (List.rdropWhile_append_rtakeWhile ..).symm
  have hkept : kept = kept.takeWhile (· == 32) ++ octalField raw :=
    (List.takeWhile_append_dropWhile ..).symm
  refine ⟨kept.takeWhile (· == 32), (List.rtakeWhile isPad raw).takeWhile (· != 0), ?_, ?_, ?_⟩
  · have hnz : ∀ b ∈ kept, (b != 0) = true := by
      intro b hb
      rw [hkept, List.mem_append] at hb
      obtain hb | hb := hb
      · have := List.mem_takeWhile_imp hb
        simp only [beq_iff_eq] at this
        simp [this]
      · obtain ⟨-, -, -, -, -, -, -, -, -, hz⟩ := ofNat_octal (h b hb)
        simpa using hz
    calc nts raw = (kept ++ List.rtakeWhile isPad raw).takeWhile (· != 0) := by rw [← hraw]; rfl
      _ = kept ++ (List.rtakeWhile isPad raw).takeWhile (· != 0) := List.takeWhile_append_of_pos hnz
      _ = _ := by rw [← hkept]
  · intro b hb
    simpa using List.mem_takeWhile_imp hb
  · intro b hb
    have hnz := List.mem_takeWhile_imp hb
    have hpad := List.mem_rtakeWhile_imp (List.takeWhile_subset _ hb)
    simp only [isPad, Bool.or_eq_true, beq_iff_eq] at hpad
    simp only [bne_iff_ne] at hnz
    exact hpad.resolve_left hnz

theorem ntiOctal_of_octal {raw : Bytes} {name : Text} {v : Nat}
    (hv : tarNumber.octal raw name = .ok v) : ntiOctal raw = some (v : Int) := by
  have hoct : ∀ b ∈ octalField raw, isOctal b = true := by
    simp only [tarNumber.octal] at hv
    split at hv
    · rename_i hnil
      simp [List.isEmpty_iff.mp hnil]
    · split at hv
      · rename_i hall
        exact List.all_eq_true.mp hall
      · cases hv
  obtain ⟨before, after, hnts, hb, ha⟩ := nts_octal hoct
  have hdecode : decodeAscii (nts raw) = some (asText (nts raw)) := by
    have hall : (nts raw).all (· < 128) = true := by
      apply List.all_eq_true.mpr
      intro b hm
      rw [hnts, List.mem_append, List.mem_append] at hm
      simp only [decide_eq_true_eq]
      obtain (hm | hm) | hm := hm
      · rw [hb b hm]; decide
      · obtain ⟨-, -, -, -, -, -, -, -, hlt, -⟩ := ofNat_octal (hoct b hm)
        exact hlt
      · rw [ha b hm]; decide
    simp [decodeAscii, hall, asText]
  simp only [ntiOctal, hdecode, Option.bind_eq_bind, Option.bind_some]
  simp only [tarNumber.octal] at hv
  by_cases hnil : octalField raw = []
  · -- a blank field is zero to both
    have hv0 : v = 0 := by
      simpa [hnil] using hv.symm
    have hblank : strip (asText (nts raw)) = [] := by
      have hspace : ∀ c ∈ asText (nts raw), isSpace c = true := by
        intro c hc
        obtain ⟨b, hm, rfl⟩ := List.mem_map.mp hc
        rw [hnts, hnil, List.append_nil, List.mem_append] at hm
        have h32 : b = 32 := hm.elim (hb b) (ha b)
        rw [h32]
        decide
      show List.rdropWhile isSpace ((asText (nts raw)).dropWhile isSpace) = []
      rw [List.dropWhile_eq_nil_iff.mpr hspace]
      rfl
    rw [hblank, hv0]
    show pyInt 8 "0".toList = some 0
    decide
  · have hvv : v = octalValue (octalField raw) := by
      have hall : (octalField raw).all isOctal = true := List.all_eq_true.mpr hoct
      simpa [hnil, hall] using hv.symm
    have hint := pyInt_octal hb ha hnil hoct
    rw [← hnts] at hint
    have hstrip : (strip (asText (nts raw))).isEmpty = false := by
      cases hs : (strip (asText (nts raw))).isEmpty with
      | false => rfl
      | true =>
        simp only [pyInt, List.isEmpty_iff.mp hs] at hint
        cases hint
    simp only [hstrip, Bool.false_eq_true, if_false, hvv]
    exact hint

/-- Both readers find one number in a field that both can read. -/
theorem nti_of_tarNumber {raw : Bytes} {name : Text} {v : Nat} {w : Int}
    (hv : tarNumber raw name = .ok v) (hw : nti raw = some w) : w = v := by
  have hoctal : tarNumber.octal raw name = .ok v → ntiOctal raw = some w → w = v := by
    intro h hn
    rw [ntiOctal_of_octal h] at hn
    exact (Option.some.inj hn).symm
  cases raw with
  | nil => exact hoctal hv hw
  | cons first rest =>
    simp only [nti] at hw
    by_cases h80 : first = 0x80
    · -- the sign bit alone: the rest is the number
      subst h80
      have hsign : (0x80 : UInt8) &&& 0x80 ≠ 0 ∧ (0x80 : UInt8) &&& 0x40 = 0 ∧
          (0x80 : UInt8) &&& 0x7f = 0 := by decide
      simp only [tarNumber, if_pos hsign.1, hsign.2.1, hsign.2.2, ne_eq, not_true_eq_false, if_false,
        Except.ok.injEq] at hv
      simp only [if_true, Option.some.injEq] at hw
      rw [← hw, ← hv]
      simp [bigEndian]
    · by_cases hff : first = 0xff
      · subst hff
        have hsign : (0xff : UInt8) &&& 0x80 ≠ 0 ∧ (0xff : UInt8) &&& 0x40 ≠ 0 := by decide
        simp only [tarNumber, if_pos hsign.1, if_pos hsign.2] at hv
        cases hv
      · simp only [h80, hff, if_false] at hw
        by_cases hbase : first &&& 0x80 = 0
        · simp only [tarNumber, hbase, ne_eq, not_true_eq_false, if_false] at hv
          exact hoctal hv hw
        · -- no ASCII text begins with such a byte
          have hbig : ¬ first < 128 := by
            have hall : ∀ b : Fin 256, UInt8.ofFin b < 128 → UInt8.ofFin b &&& 0x80 = 0 := by
              decide +kernel
            exact fun hlt => hbase (hall first.toFin hlt)
          have hnz : (first != 0) = true := by
            simp only [bne_iff_ne]
            intro h0
            exact hbase (by rw [h0]; decide)
          have hnone : ntiOctal (first :: rest) = none := by
            simp [ntiOctal, decodeAscii, nts, hnz, hbig]
          rw [hnone] at hw
          cases hw

/-! ## What the preflight reads -/

def BoundedReader.forward (r : BoundedReader) (n : Nat) : BoundedReader :=
  ⟨r.source.drop n, r.consumed + n⟩

@[simp] theorem BoundedReader.forward_zero (r : BoundedReader) : r.forward 0 = r := rfl

@[simp] theorem BoundedReader.forward_forward (r : BoundedReader) (m n : Nat) :
    (r.forward m).forward n = r.forward (m + n) := by
  simp [BoundedReader.forward, Nat.add_assoc]

theorem BoundedReader.read_ok {r r' : BoundedReader} {size : Nat} {raw : Bytes}
    (h : r.read size = .ok (raw, r')) : raw = r.source.take size ∧ r' = r.forward raw.length := by
  simp only [BoundedReader.read, bind_eq_ok, candidateWhen_eq_ok, decide_eq_false_iff_not, Nat.not_lt]
    at h
  obtain ⟨-, hle, h⟩ := h
  obtain ⟨rfl, rfl⟩ := Prod.mk.inj (Except.ok.inj h)
  refine ⟨?_, rfl⟩
  -- a read that its bound cut short would have failed, unless the source ended before it
  rw [List.take_eq_take_iff]
  rw [List.length_take] at hle
  omega

theorem BoundedReader.readChunks_ok {name : Text} {n : Nat} :
    ∀ {r r' : BoundedReader} {size : Nat} {raw : Bytes}, size ≤ n →
      readChunks name n r size = .ok (raw, r') →
      raw = r.source.take size ∧ raw.length = size ∧ r' = r.forward size := by
  induction n with
  | zero =>
    intro r r' size raw hn h
    obtain ⟨rfl, rfl⟩ := Prod.mk.inj (Except.ok.inj h)
    have h0 : size = 0 := by omega
    simp [h0]
  | succ n ih =>
    intro r r' size raw hn h
    by_cases h0 : size = 0
    · simp only [readChunks, h0, if_true] at h
      obtain ⟨rfl, rfl⟩ := Prod.mk.inj (Except.ok.inj h)
      simp [h0]
    · simp only [readChunks, h0, if_false, bind_eq_ok, candidateWhen_eq_ok, Prod.exists] at h
      obtain ⟨chunk, r₁, hread, _, hne, rest, r₂, hrest, h⟩ := h
      obtain ⟨rfl, rfl⟩ := Prod.mk.inj (Except.ok.inj h)
      obtain ⟨hchunk, rfl⟩ := read_ok hread
      have hlen : chunk.length ≤ size ∧ 0 < chunk.length := by
        have hpos : chunk ≠ [] := by simpa using hne
        have hle := congrArg List.length hchunk
        rw [List.length_take] at hle
        exact ⟨by omega, List.length_pos_iff.mpr hpos⟩
      obtain ⟨hr, hrl, hr₂⟩ := ih (by omega) hrest
      have hsum : chunk.length + (size - chunk.length) = size := by omega
      refine ⟨?_, ?_, ?_⟩
      · have htake : chunk = r.source.take chunk.length := by
          rw [hchunk, List.length_take, List.take_eq_take_iff]
          omega
        calc chunk ++ rest
            = r.source.take chunk.length ++ (r.source.drop chunk.length).take (size - chunk.length) := by
              rw [← htake, hr, BoundedReader.forward]
          _ = r.source.take (chunk.length + (size - chunk.length)) := List.take_add.symm
          _ = r.source.take size := by rw [hsum]
      · rw [List.length_append, hrl, hsum]
      · rw [hr₂, BoundedReader.forward_forward, hsum]

theorem BoundedReader.readExact_ok {r r' : BoundedReader} {size : Nat} {name : Text} {raw : Bytes}
    (h : r.readExact size name = .ok (raw, r')) :
    raw = r.source.take size ∧ raw.length = size ∧ r' = r.forward size :=
  readChunks_ok (Nat.le_refl size) h

theorem BoundedReader.skipExact_ok {r r' : BoundedReader} {size : Nat} {name : Text}
    (h : r.skipExact size name = .ok r') : r' = r.forward size := by
  simp only [skipExact, bind_eq_ok, Prod.exists] at h
  obtain ⟨raw, r₁, hread, h⟩ := h
  cases h
  exact (readExact_ok hread).2.2

/-! ## Sizes

The sizes that PAX records give a member in the preflight: `last` of its own headers, `everywhere`
of the global ones. -/

structure PaxSizes where
  last : Option Text
  everywhere : Option Text
  deriving DecidableEq, Repr

def paxSizeOf (payload : Bytes) : Option Text :=
  match paxValues payload with
  | .ok (values, _) => values.lookup sizeText
  | .error _ => none

/-- The records of one extension header. -/
def PaxSizes.extend (p : PaxSizes) (kind : UInt8) (payload : Bytes) : PaxSizes :=
  if kind = 76 then p
  else if kind = 103 then { p with everywhere := (paxSizeOf payload).or p.everywhere }
  else { p with last := (paxSizeOf payload).or p.last }

/-- The sizes of an accepted extension, as the preflight keeps them. -/
theorem applyExtension_ok {s s' : TarPreflight} {kind : UInt8} {extension : Bytes}
    (h : applyExtension s kind extension = .ok s') :
    s'.source = s.source ∧ ∀ p : PaxSizes,
      s.nextPax.lookup sizeText = p.last → s.globalPax.lookup sizeText = p.everywhere →
      s'.nextPax.lookup sizeText = (p.extend kind extension).last ∧
      s'.globalPax.lookup sizeText = (p.extend kind extension).everywhere := by
  by_cases hK : kind = 75
  · simp only [applyExtension, hK, if_true] at h
    cases h
  by_cases hL : kind = 76
  · simp only [applyExtension, hL] at h
    cases hd : decodeUtf8 (extension.reverse.dropWhile (· == 0)).reverse with
    | none => simp [hd] at h
    | some longName =>
      simp only [hd] at h
      obtain ⟨_, -, h⟩ := bind_eq_ok.mp h
      cases h
      refine ⟨rfl, fun p hl he => ?_⟩
      simp only [PaxSizes.extend, hL, if_true]
      exact ⟨hl, he⟩
  · simp only [applyExtension, hK, hL, if_false, bind_eq_ok, Prod.exists] at h
    obtain ⟨values, count, hvalues, _, -, h⟩ := h
    have hsize : paxSizeOf extension = values.lookup sizeText := by
      simp only [paxSizeOf, hvalues]
    by_cases hg : kind = 103
    · simp only [hg, if_true] at h
      obtain ⟨_, -, h⟩ := bind_eq_ok.mp h
      cases h
      refine ⟨rfl, fun p hl he => ?_⟩
      simp only [PaxSizes.extend, hg]
      exact ⟨hl, by rw [List.lookup_append, he, hsize]; rfl⟩
    · simp only [hg, if_false] at h
      cases h
      refine ⟨rfl, fun p hl he => ?_⟩
      simp only [PaxSizes.extend, hL, hg, if_false]
      exact ⟨by rw [List.lookup_append, hl, hsize], he⟩

theorem add_padding (size : Nat) : size + (padded size - size) = padded size := by
  have h : size ≤ padded size := by
    unfold padded
    omega
  omega

theorem preflightExtension_ok {s s' : TarPreflight} {kind : UInt8} {size : Nat}
    (h : preflightExtension s kind size = .ok s') :
    s'.source = s.source.forward (padded size) ∧ ∀ p : PaxSizes,
      s.nextPax.lookup sizeText = p.last → s.globalPax.lookup sizeText = p.everywhere →
      s'.nextPax.lookup sizeText = (p.extend kind (s.source.source.take size)).last ∧
      s'.globalPax.lookup sizeText = (p.extend kind (s.source.source.take size)).everywhere := by
  simp only [preflightExtension, bind_eq_ok, Prod.exists] at h
  obtain ⟨_, -, _, -, _, -, _, -, extension, r, hread, r', hskip, h⟩ := h
  obtain ⟨hext, -, rfl⟩ := BoundedReader.readExact_ok hread
  have hr' := BoundedReader.skipExact_ok hskip
  obtain ⟨hsource, hsizes⟩ := applyExtension_ok h
  refine ⟨?_, fun p hl he => ?_⟩
  · rw [hsource, hr', BoundedReader.forward_forward, add_padding]
  · rw [hext] at hsizes
    exact hsizes p hl he

theorem preflightMember_ok {s s' : TarPreflight} {kind : UInt8} {size : Nat}
    (h : preflightMember s kind size = .ok s') :
    ∃ skipped,
      memberSize ((s.nextPax.lookup sizeText).or (s.globalPax.lookup sizeText)) size = .ok skipped ∧
      s'.source = s.source.forward (padded skipped) ∧ s'.nextPax = [] ∧
      s'.globalPax = s.globalPax := by
  simp only [preflightMember, bind_eq_ok] at h
  obtain ⟨_, -, _, -, skipped, hsize, r, hr, r', hr', h⟩ := h
  cases h
  have hr := BoundedReader.skipExact_ok hr
  have hr' := BoundedReader.skipExact_ok hr'
  exact ⟨skipped, hsize, by rw [hr', hr, BoundedReader.forward_forward, add_padding], rfl, rfl⟩

theorem preflightHeader_ok {s s' : TarPreflight} {header : Bytes}
    (h : preflightHeader s header = .ok s') :
    ∃ size, tarNumber (slice header 124 136) "member size" = .ok size ∧
      (if isExtensionKind (headerKind header) then preflightExtension s (headerKind header) size
        else preflightMember s (headerKind header) size) = .ok s' := by
  simp only [preflightHeader, bind_eq_ok] at h
  obtain ⟨-, -, _, -, size, hsize, h⟩ := h
  exact ⟨size, hsize, h⟩

/-- A header moves the preflight on. -/
theorem preflightHeader_source {s s' : TarPreflight} {header : Bytes}
    (h : preflightHeader s header = .ok s') : ∃ m, s'.source = s.source.forward m := by
  obtain ⟨size, -, h⟩ := preflightHeader_ok h
  split at h
  · exact ⟨_, (preflightExtension_ok h).1⟩
  · obtain ⟨skipped, -, hsource, -⟩ := preflightMember_ok h
    exact ⟨_, hsource⟩

/-- An accepted step of the preflight, and its header among the offsets. -/
theorem preflightFrom_ok {n : Nat} {s : TarPreflight} {offsets : List Nat}
    (h : preflightFrom (n + 1) s = .ok offsets) (hz : s.source.source.take 512 ≠ zeroBlock) :
    ∃ s' rest,
      preflightHeader { s with source := s.source.forward 512 } (s.source.source.take 512) = .ok s' ∧
      preflightFrom n s' = .ok rest ∧ offsets = s.source.consumed :: rest := by
  simp only [preflightFrom, bind_eq_ok, candidateWhen_eq_ok, Prod.exists] at h
  obtain ⟨header, source, hread, _, -, _, hlen, h⟩ := h
  obtain ⟨rfl, rfl⟩ := BoundedReader.read_ok hread
  have hlen : (s.source.source.take 512).length = 512 := by simpa using hlen
  rw [hlen] at h
  simp only [hz, if_false, bind_eq_ok] at h
  obtain ⟨s', hheader, rest, hrest, h⟩ := h
  cases h
  exact ⟨s', rest, hheader, hrest, rfl⟩

theorem frombuf_some {header : Bytes} {info : TarInfo} (h : frombuf header = some info) :
    header.length = 512 ∧ header ≠ zeroBlock ∧ info.kind = tarKind header ∧
      nti (slice header 124 136) = some info.size := by
  simp only [frombuf, Option.bind_eq_bind, Option.bind_eq_some_iff, Option.guard_eq_some'] at h
  obtain ⟨_, hlen, stored, -, _, -, size, hsize, _, -, h⟩ := h
  cases h
  exact ⟨hlen.1, hlen.2, rfl, hsize⟩

/-- An old directory is no extension. -/
theorem tarKind_cases (header : Bytes) :
    tarKind header = headerKind header ∨ (tarKind header = 53 ∧ headerKind header = 0) := by
  unfold tarKind
  split
  · rename_i h
    exact .inr ⟨rfl, h.1⟩
  · exact .inl rfl

theorem tarExtension_offset {data : Bytes} {t t' : TarReader} {info : TarInfo}
    (h : tarExtension data t info = some t') :
    t'.offset = t.offset + 512 + padded info.size.toNat := by
  simp only [tarExtension, Option.bind_eq_bind, Option.bind_eq_some_iff] at h
  obtain ⟨_, -, h⟩ := h
  split at h
  · cases h
    rfl
  · split at h
    · cases h
      rfl
    · obtain ⟨_, -, h⟩ := Option.bind_eq_some_iff.mp h
      split at h <;> cases h <;> rfl

/-! ## The two readers -/

/-- Both readers stand before the same header, and these are the sizes that the preflight knows. -/
structure InStep (data : Bytes) (s : TarPreflight) (p : PaxSizes) (t : TarReader) : Prop where
  offset : t.offset = s.source.consumed
  source : s.source.source = data.drop s.source.consumed
  last : s.nextPax.lookup sizeText = p.last
  everywhere : s.globalPax.lookup sizeText = p.everywhere

theorem InStep.header {data : Bytes} {s : TarPreflight} {p : PaxSizes} {t : TarReader}
    (hin : InStep data s p t) : (data.drop t.offset).take 512 = s.source.source.take 512 := by
  rw [hin.offset, ← hin.source]

theorem InStep.extension {data : Bytes} {s s' : TarPreflight} {p : PaxSizes} {t t' : TarReader}
    {info : TarInfo} {size : Nat} (hin : InStep data s p t) (hsize : info.size.toNat = size)
    (hpre : preflightExtension { s with source := s.source.forward 512 } info.kind size = .ok s')
    (htar : tarExtension data t info = some t') :
    InStep data s'
      (p.extend info.kind ((data.drop (t.offset + 512)).take size)) t' := by
  obtain ⟨hsource, hkeeps⟩ := preflightExtension_ok hpre
  have hoffset := tarExtension_offset htar
  have hpayload : (s.source.forward 512).source = data.drop (t.offset + 512) := by
    simp only [BoundedReader.forward, hin.source, List.drop_drop, hin.offset]
  obtain ⟨hlast, heverywhere⟩ := hkeeps p hin.last hin.everywhere
  constructor
  · simp only [hoffset, hsource, BoundedReader.forward, hin.offset, hsize]
  · simp only [hsource, BoundedReader.forward, hin.source, List.drop_drop]
  · rw [← hpayload]
    exact hlast
  · rw [← hpayload]
    exact heverywhere

/-- Behind a member the preflight stands where its size says. -/
theorem InStep.skipped {data : Bytes} {s s' : TarPreflight} {p : PaxSizes} {t : TarReader}
    {kind : UInt8} {size : Nat} (hin : InStep data s p t)
    (hpre : preflightMember { s with source := s.source.forward 512 } kind size = .ok s') :
    ∃ skipped, memberSize (p.last.or p.everywhere) size = .ok skipped ∧
      s'.source.consumed = t.offset + 512 + padded skipped ∧
      ∀ t' : TarReader, t'.offset = t.offset + 512 + padded skipped →
        InStep data s' { p with last := none } t' := by
  obtain ⟨skipped, hskipped, hsource, hnext, hglobal⟩ := preflightMember_ok hpre
  rw [hin.last, hin.everywhere] at hskipped
  have hconsumed : s'.source.consumed = t.offset + 512 + padded skipped := by
    simp only [hsource, BoundedReader.forward, hin.offset]
  refine ⟨skipped, hskipped, hconsumed, fun t' ht' => ⟨ht'.trans hconsumed.symm, ?_, ?_, ?_⟩⟩
  · simp only [hsource, BoundedReader.forward, hin.source, List.drop_drop]
  · rw [hnext]
    rfl
  · rw [hglobal]
    exact hin.everywhere

/-- A header that both readers read: what the preflight made of it, and its size. -/
theorem InStep.read {data : Bytes} {n : Nat} {s : TarPreflight} {p : PaxSizes} {t : TarReader}
    {offsets : List Nat} {info : TarInfo} (hin : InStep data s p t)
    (hpre : preflightFrom (n + 1) s = .ok offsets)
    (hinfo : frombuf ((data.drop t.offset).take 512) = some info) :
    ∃ s' rest, preflightFrom n s' = .ok rest ∧ offsets = t.offset :: rest ∧
      ((isExtensionKind info.kind = true ∧
          preflightExtension { s with source := s.source.forward 512 } info.kind info.size.toNat =
            .ok s') ∨
        (isExtensionKind info.kind = false ∧ ∃ kind,
          preflightMember { s with source := s.source.forward 512 } kind info.size.toNat = .ok s')) := by
  rw [hin.header] at hinfo
  obtain ⟨-, hz, hkind, hnti⟩ := frombuf_some hinfo
  obtain ⟨s', rest, hheader, hrest, rfl⟩ := preflightFrom_ok hpre hz
  obtain ⟨size, hsize, hstep⟩ := preflightHeader_ok hheader
  have hsize : info.size.toNat = size := by
    rw [nti_of_tarNumber hsize hnti, Int.toNat_natCast]
  refine ⟨s', rest, hrest, by rw [hin.offset], ?_⟩
  rw [hsize]
  obtain hk | ⟨hk, hk0⟩ := tarKind_cases (s.source.source.take 512)
  · rw [hkind, hk]
    split at hstep
    · rename_i hext
      exact .inl ⟨hext, hstep⟩
    · rename_i hext
      exact .inr ⟨by simpa using hext, _, hstep⟩
  · -- an old directory is a member to both
    have hext : isExtensionKind info.kind = false ∧
        isExtensionKind (headerKind (s.source.source.take 512)) = false := by
      rw [hkind, hk, hk0]
      decide
    simp only [hext.2, Bool.false_eq_true, if_false] at hstep
    exact .inr ⟨hext.1, _, hstep⟩

theorem preflightFrom_succ {n : Nat} : ∀ {s : TarPreflight}, s.source.source.length < n →
    preflightFrom (n + 1) s = preflightFrom n s := by
  induction n with
  | zero =>
    intro s h
    omega
  | succ n ih =>
    intro s h
    simp only [preflightFrom]
    cases hread : s.source.read 512 with
    | error e => rfl
    | ok r =>
      obtain ⟨header, source⟩ := r
      obtain ⟨hheader, rfl⟩ := BoundedReader.read_ok hread
      simp only [bind_of_ok]
      apply bind_congr
      intro _
      by_cases hlen : header.length = 512
      · apply bind_congr
        intro _
        split
        · rfl
        · cases hnext : preflightHeader { s with source := s.source.forward header.length } header with
          | error e => rfl
          | ok next =>
            obtain ⟨m, hm⟩ := preflightHeader_source hnext
            have hshort : next.source.source.length < n := by
              simp only [hm, BoundedReader.forward, List.length_drop, hlen]
              have hle := congrArg List.length hheader
              rw [List.length_take, hlen] at hle
              omega
            have hsame := ih hshort
            simp only [preflightFrom] at hsame
            simp only [bind_of_ok, hsame]
      · have hne : (header.length != 512) = true := by simpa using hlen
        rw [hne]
        rfl

/-- The steps of `preflightArchive` are enough: more of them change nothing. -/
theorem preflightArchive_steps (data : Bytes) (more : Nat) :
    preflightFrom (data.length + 1 + more) ⟨⟨data, 0⟩, 0, 0, 0, 0, 0, 0, [], []⟩ =
      preflightArchive data := by
  induction more with
  | zero => rfl
  | succ more ih =>
    rw [← ih]
    apply preflightFrom_succ
    show data.length < data.length + 1 + more
    omega

/-! ## Where the headers are -/

end ArubaCertRenewer
