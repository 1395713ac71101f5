import ArubaCertRenewer.ArchivePreflight
import ArubaCertRenewer.Utf8

/- The PAX records that `_pax_values` reads.

   A record is `length key=value` and a line end, its length counting its own digits. What is read
   of a payload tiles it: each record ends where the next begins, and the last one where the payload
   does. -/
namespace ArubaCertRenewer
open PyText

/-! ## Records -/

structure PaxEntry where
  digits : Bytes
  key : Text
  value : Text
  digits_ok : digits.all isAsciiDigit = true
  digits_le : digits.length ≤ (ofNat tarExtensionMaxBytes).length
  no_equals : '=' ∉ key
  /-- The length is that of the whole record. -/
  total : decimalValue digits =
    digits.length + 1 + (encodeUtf8 key).length + 1 + (encodeUtf8 value).length + 1

namespace PaxEntry

def content (e : PaxEntry) : Bytes := encodeUtf8 e.key ++ 61 :: encodeUtf8 e.value

def encode (e : PaxEntry) : Bytes := e.digits ++ 32 :: (e.content ++ [10])

def item (e : PaxEntry) : Text × Text := (e.key, e.value)

theorem length_content (e : PaxEntry) :
    e.content.length = (encodeUtf8 e.key).length + 1 + (encodeUtf8 e.value).length := by
  rw [content, List.length_append, List.length_cons]
  omega

theorem length_encode (e : PaxEntry) : e.encode.length = decimalValue e.digits := by
  rw [encode, e.total, List.length_append, List.length_cons, List.length_append, e.length_content,
    List.length_singleton]
  omega

theorem digits_ne_nil (e : PaxEntry) : e.digits ≠ [] := by
  intro hnil
  have htotal := e.total
  rw [hnil] at htotal
  change 0 = _ at htotal
  omega

theorem encode_ne_nil (e : PaxEntry) : e.encode ≠ [] :=
  List.append_ne_nil_of_left_ne_nil e.digits_ne_nil _

end PaxEntry

/-! ## Slices -/

section slices
variable {x : UInt8} {a b raw : Bytes}

theorem takeWhile_until (ha : x ∉ a) : (a ++ x :: b).takeWhile (· != x) = a := by
  have hall : ∀ c ∈ a, (c != x) = true := fun c hc => bne_iff_ne.mpr fun he => ha (he ▸ hc)
  rw [List.takeWhile_append_of_pos hall, List.takeWhile_cons_of_neg (by simp), List.append_nil]

/-- What is before the first `x`, when there is one. -/
theorem split_until (h : (raw.takeWhile (· != x)).length ≠ raw.length) :
    ∃ a b, raw = a ++ x :: b ∧ x ∉ a ∧ raw.takeWhile (· != x) = a := by
  have hmem : x ∈ raw := by
    by_contra hno
    apply h
    have hall : ∀ c ∈ raw, (c != x) = true := fun c hc => bne_iff_ne.mpr fun he => hno (he ▸ hc)
    rw [List.takeWhile_eq_self_iff.mpr hall]
  obtain ⟨a, b, hraw, hno⟩ := List.eq_append_cons_of_mem hmem
  exact ⟨a, b, hraw, hno, by rw [hraw, takeWhile_until hno]⟩

theorem slice_middle {c : Bytes} {first last : Nat} (hfirst : first = a.length)
    (hlast : last = a.length + b.length) : slice (a ++ b ++ c) first last = b := by
  rw [slice, hfirst, hlast, List.append_assoc, List.drop_left, Nat.add_sub_cancel_left,
    List.take_left]

end slices

/-! ## One record -/

section record
variable {raw rest : Bytes} {key value : Text} {length : Nat}

theorem space_not_digit (h : raw.all isAsciiDigit = true) : 32 ∉ raw := by
  intro hmem
  have hdigit := List.all_eq_true.mp h 32 hmem
  revert hdigit
  decide

theorem equals_not_mem (h : '=' ∉ key) : 61 ∉ encodeUtf8 key := by
  intro hmem
  exact h ((mem_encodeUtf8 (c := '=') (by decide)).mp hmem)

/-- The checks on a record, over the parts it was cut into. -/
theorem paxRecord_eq_ok {digits record keyRaw : Bytes} {n : Nat}
    (hdigits : raw.takeWhile (· != 32) = digits) (hn : decimalValue digits = n)
    (hrecord : slice raw (digits.length + 1) (n - 1) = record)
    (hkey : record.takeWhile (· != 61) = keyRaw) :
    paxRecord raw = .ok (key, value, length) ↔
      (digits.length ≠ raw.length ∧ digits ≠ [] ∧ digits.all isAsciiDigit = true ∧
        digits.length ≤ (ofNat tarExtensionMaxBytes).length) ∧
      (digits.length + 2 < n ∧ n ≤ raw.length ∧ slice raw (n - 1) n = [10]) ∧
      keyRaw.length ≠ record.length ∧ decodeUtf8 keyRaw = some key ∧
      decodeUtf8 (record.drop (keyRaw.length + 1)) = some value ∧ length = n := by
  simp only [paxRecord, hdigits, hn, hrecord, hkey, bind_eq_ok, candidateWhen_eq_ok,
    Bool.or_eq_false_iff, decide_eq_false_iff_not, List.isEmpty_eq_false_iff, Bool.not_eq_false',
    not_le, not_lt, bne_eq_false_iff_eq, exists_const, and_assoc]
  cases decodeUtf8 keyRaw with
  | none => simp only [reduceCtorEq, false_and, and_false]
  | some k =>
    cases decodeUtf8 (record.drop (keyRaw.length + 1)) with
    | none => simp only [reduceCtorEq, false_and, and_false]
    | some v => simp only [pure, Except.pure, Except.ok.injEq, Prod.mk.injEq, Option.some.injEq,
        @eq_comm _ length n, ne_eq]

/-- A record at the front of a payload is read as what it is. -/
theorem paxRecord_encode (e : PaxEntry) (rest : Bytes) :
    paxRecord (e.encode ++ rest) = .ok (e.key, e.value, e.encode.length) := by
  have hraw : e.encode ++ rest = e.digits ++ 32 :: (e.content ++ 10 :: rest) := by
    simp [PaxEntry.encode]
  have hdigits : (e.encode ++ rest).takeWhile (· != 32) = e.digits := by
    rw [hraw, takeWhile_until (space_not_digit e.digits_ok)]
  have hkey : e.content.takeWhile (· != 61) = encodeUtf8 e.key :=
    takeWhile_until (equals_not_mem e.no_equals)
  have hlength := e.length_encode
  have htotal := e.total
  have hcontent := e.length_content
  have hwhole : e.encode.length = e.digits.length + 1 + e.content.length + 1 := by omega
  have hend : slice (e.encode ++ rest) (e.encode.length - 1) e.encode.length = [10] := by
    have hsplit : e.encode ++ rest = (e.digits ++ 32 :: e.content) ++ [10] ++ rest := by simp [hraw]
    rw [hsplit]
    apply slice_middle
    · rw [hwhole, List.length_append, List.length_cons]
      omega
    · rw [hwhole, List.length_append, List.length_cons, List.length_singleton]
      omega
  have hrecord : slice (e.encode ++ rest) (e.digits.length + 1) (e.encode.length - 1) = e.content := by
    have hsplit : e.encode ++ rest = (e.digits ++ [32]) ++ e.content ++ (10 :: rest) := by simp [hraw]
    rw [hsplit]
    apply slice_middle
    · rw [List.length_append, List.length_singleton]
    · rw [hwhole, List.length_append, List.length_singleton]
      omega
  have hvalue : e.content.drop ((encodeUtf8 e.key).length + 1) = encodeUtf8 e.value := by
    have hsplit : e.content = (encodeUtf8 e.key ++ [61]) ++ encodeUtf8 e.value := by
      simp [PaxEntry.content]
    rw [hsplit]
    exact List.drop_left' (by rw [List.length_append, List.length_singleton])
  rw [paxRecord_eq_ok hdigits hlength.symm hrecord hkey, hvalue, decodeUtf8_encodeUtf8,
    decodeUtf8_encodeUtf8, List.length_append]
  exact ⟨⟨by omega, e.digits_ne_nil, e.digits_ok, e.digits_le⟩, ⟨by omega, by omega, hend⟩, by omega,
    rfl, rfl, rfl⟩

/-- What is read at the front of a payload is a record. -/
theorem entry_of_paxRecord (h : paxRecord raw = .ok (key, value, length)) :
    ∃ e : PaxEntry, e.item = (key, value) ∧ e.encode.length = length ∧
      raw = e.encode ++ raw.drop length := by
  obtain ⟨⟨hspace, -, hall, hle⟩, ⟨hlong, hbound, hend⟩, hequals, hkey, hvalue, rfl⟩ :=
    (paxRecord_eq_ok rfl rfl rfl rfl).mp h
  obtain ⟨digits, behind, hraw, -, hdigits⟩ := split_until hspace
  rw [hdigits] at hall hle hlong hbound hend hequals hkey hvalue ⊢
  obtain ⟨keyRaw, valueRaw, hrecord, hno, hkeyRaw⟩ := split_until hequals
  rw [hkeyRaw] at hkey hvalue
  have hkey' := decodeUtf8_eq_some.mp hkey
  have hdrop : (slice raw (digits.length + 1) (decimalValue digits - 1)).drop (keyRaw.length + 1) =
      valueRaw := by
    rw [hrecord, show keyRaw ++ 61 :: valueRaw = (keyRaw ++ [61]) ++ valueRaw by simp]
    exact List.drop_left' (by rw [List.length_append, List.length_singleton])
  rw [hdrop] at hvalue
  have hvalue' := decodeUtf8_eq_some.mp hvalue
  generalize hn : decimalValue digits = n at *
  -- The payload, cut behind the digits, behind the content and behind the line end.
  have hafter : raw.drop (digits.length + 1) = behind := by
    rw [hraw, show digits ++ 32 :: behind = (digits ++ [32]) ++ behind by simp]
    exact List.drop_left' (by rw [List.length_append, List.length_singleton])
  have hline : raw.drop (n - 1) = 10 :: raw.drop n := by
    have htake := List.take_append_drop 1 (raw.drop (n - 1))
    rw [slice, show n - (n - 1) = 1 by omega] at hend
    rw [hend, List.drop_drop, show n - 1 + 1 = n by omega] at htake
    exact htake.symm
  have hbehind : behind = (keyRaw ++ 61 :: valueRaw) ++ 10 :: raw.drop n := by
    rw [← hrecord, ← hline, slice, hafter]
    have hcut := List.take_append_drop (n - 1 - (digits.length + 1)) behind
    rw [← hafter, List.drop_drop, hafter, show digits.length + 1 + (n - 1 - (digits.length + 1)) = n - 1 by omega]
      at hcut
    exact hcut.symm
  have htotal : n = digits.length + 1 + (encodeUtf8 key).length + 1 + (encodeUtf8 value).length + 1 := by
    have hlength := congrArg List.length hraw
    rw [hbehind] at hlength
    simp only [List.length_append, List.length_cons, List.length_drop] at hlength
    rw [← hkey', ← hvalue']
    omega
  have hequals' : '=' ∉ key := by
    intro hmem
    apply hno
    rw [hkey']
    exact (mem_encodeUtf8 (c := '=') (by decide)).mpr hmem
  let e : PaxEntry := ⟨digits, key, value, hall, hle, hequals', hn.trans htotal⟩
  have hcontent : e.content = keyRaw ++ 61 :: valueRaw := by
    rw [hkey', hvalue']
    rfl
  refine ⟨e, rfl, e.length_encode.trans hn, ?_⟩
  calc raw = digits ++ 32 :: behind := hraw
    _ = digits ++ 32 :: ((e.content ++ [10]) ++ raw.drop n) := by rw [hbehind, hcontent]; simp
    _ = e.encode ++ raw.drop n := by simp [PaxEntry.encode, e]

end record

/-! ## A payload -/

section payload
variable {raw : Bytes} {values : PaxHeaders} {count : Nat} {entries : List PaxEntry}

/-- The keys that `_pax_values` takes. -/
def IsPaxKey (key : Text) : Prop := key ≠ [] ∧ "GNU.sparse".toList.isPrefixOf key = false

def encodeEntries (entries : List PaxEntry) : Bytes := entries.flatMap PaxEntry.encode

theorem lookup_isSome_iff {key : Text} {values : PaxHeaders} :
    (values.lookup key).isSome = false ↔ key ∉ values.map Prod.fst := by
  induction values with
  | nil => simp
  | cons kv values ih =>
    obtain ⟨k, v⟩ := kv
    rw [List.lookup_cons, List.map_cons, List.mem_cons, not_or]
    by_cases hk : key = k
    · simp [hk]
    · rw [beq_false_of_ne hk]
      exact ih.trans ⟨fun h => ⟨hk, h⟩, And.right⟩

/-- The reader advances by a whole record, within the payload. -/
theorem paxRecord_advances {key value : Text} {length : Nat}
    (h : paxRecord raw = .ok (key, value, length)) : 0 < length ∧ length ≤ raw.length := by
  obtain ⟨e, -, hlength, hraw⟩ := entry_of_paxRecord h
  have hne := List.length_pos_iff.mpr e.encode_ne_nil
  have hwhole := congrArg List.length hraw
  rw [List.length_append] at hwhole
  omega

theorem paxValuesFrom_nil (n : Nat) (values : PaxHeaders) (count : Nat) :
    paxValuesFrom n values count [] = .ok (values, count) := by
  cases n <;> rfl

/-- One round of the loop. -/
theorem paxValuesFrom_record {key value : Text} {length : Nat} (n : Nat) (hraw : raw ≠ [])
    (h : paxRecord raw = .ok (key, value, length)) :
    paxValuesFrom (n + 1) values count raw = (do
      candidateWhen (key.isEmpty || (values.lookup key).isSome || "GNU.sparse".toList.isPrefixOf key)
        "candidate archive contains ambiguous PAX metadata"
      paxValuesFrom n ((key, value) :: values) (count + 1) (raw.drop length)) := by
  have hempty : raw.isEmpty = false := List.isEmpty_eq_false_iff.mpr hraw
  rw [paxValuesFrom, hempty, h]
  rfl

theorem paxValuesFrom_error {message : Text} (n : Nat) (hraw : raw ≠ [])
    (h : paxRecord raw = .error message) :
    paxValuesFrom (n + 1) values count raw = .error message := by
  have hempty : raw.isEmpty = false := List.isEmpty_eq_false_iff.mpr hraw
  rw [paxValuesFrom, hempty, h]
  rfl

/-- Any number of rounds from that of the bytes on is enough. -/
theorem paxValuesFrom_enough {n m : Nat} (hn : raw.length ≤ n) (hm : raw.length ≤ m) :
    paxValuesFrom n values count raw = paxValuesFrom m values count raw := by
  induction n generalizing m raw values count with
  | zero =>
    rw [List.length_eq_zero_iff.mp (Nat.le_zero.mp hn), paxValuesFrom_nil, paxValuesFrom_nil]
  | succ n ih =>
    by_cases hraw : raw = []
    · rw [hraw, paxValuesFrom_nil, paxValuesFrom_nil]
    · have hpos := List.length_pos_iff.mpr hraw
      obtain ⟨m, rfl⟩ : ∃ k, m = k + 1 := ⟨m - 1, by omega⟩
      cases hrecord : paxRecord raw with
      | error message => rw [paxValuesFrom_error n hraw hrecord, paxValuesFrom_error m hraw hrecord]
      | ok r =>
        obtain ⟨key, value, length⟩ := r
        obtain ⟨hadvance, -⟩ := paxRecord_advances hrecord
        have hdrop : (raw.drop length).length = raw.length - length := List.length_drop
        have hrest : paxValuesFrom n ((key, value) :: values) (count + 1) (raw.drop length) =
            paxValuesFrom m ((key, value) :: values) (count + 1) (raw.drop length) :=
          ih (by omega) (by omega)
        rw [paxValuesFrom_record n hraw hrecord, paxValuesFrom_record m hraw hrecord, hrest]

/-- A record with a new key at the front of the payload. -/
theorem paxValuesFrom_encode (n : Nat) {e : PaxEntry} (hkey : IsPaxKey e.key)
    (hnew : e.key ∉ values.map Prod.fst) (rest : Bytes) :
    paxValuesFrom (n + 1) values count (e.encode ++ rest) =
      paxValuesFrom n (e.item :: values) (count + 1) rest := by
  have hne : e.encode ++ rest ≠ [] := List.append_ne_nil_of_left_ne_nil e.encode_ne_nil rest
  have hempty : e.key.isEmpty = false := List.isEmpty_eq_false_iff.mpr hkey.1
  rw [paxValuesFrom_record n hne (paxRecord_encode e rest), hempty, lookup_isSome_iff.mpr hnew,
    hkey.2, List.drop_left]
  rfl

/-- Records with distinct new keys are read as they are. -/
theorem paxValuesFrom_encodeEntries {n : Nat} (hkeys : ∀ e ∈ entries, IsPaxKey e.key)
    (hnodup : (entries.map PaxEntry.key).Nodup)
    (hnew : ∀ e ∈ entries, e.key ∉ values.map Prod.fst) (hn : entries.length ≤ n) :
    paxValuesFrom n values count (encodeEntries entries) =
      .ok ((entries.map PaxEntry.item).reverse ++ values, count + entries.length) := by
  induction entries generalizing n values count with
  | nil => exact paxValuesFrom_nil n values count
  | cons e es ih =>
    obtain ⟨hfresh, hnodup⟩ := List.nodup_cons.mp hnodup
    obtain ⟨n, rfl⟩ : ∃ k, n = k + 1 := ⟨n - 1, by rw [List.length_cons] at hn; omega⟩
    show paxValuesFrom (n + 1) values count (e.encode ++ encodeEntries es) = _
    rw [paxValuesFrom_encode n (hkeys e List.mem_cons_self) (hnew e List.mem_cons_self)]
    have hnew' : ∀ f ∈ es, f.key ∉ (e.item :: values).map Prod.fst := by
      intro f hf hmem
      obtain he | hmem := List.mem_cons.mp hmem
      · apply hfresh
        rw [← show f.key = e.key from he]
        exact List.mem_map_of_mem hf
      · exact hnew f (List.mem_cons_of_mem _ hf) hmem
    rw [ih (fun f hf => hkeys f (List.mem_cons_of_mem _ hf)) hnodup hnew'
      (Nat.le_of_succ_le_succ hn)]
    simp only [List.map_cons, List.reverse_cons, List.append_assoc, List.singleton_append,
      List.length_cons, Nat.add_assoc, Nat.add_comm 1]

/-- What the loop accepts is made of records with distinct new keys. -/
theorem entries_of_paxValuesFrom {n : Nat} {result : PaxHeaders × Nat} (hn : raw.length ≤ n)
    (h : paxValuesFrom n values count raw = .ok result) :
    ∃ entries : List PaxEntry, raw = encodeEntries entries ∧ (∀ e ∈ entries, IsPaxKey e.key) ∧
      (entries.map PaxEntry.key).Nodup ∧ ∀ e ∈ entries, e.key ∉ values.map Prod.fst := by
  induction n generalizing raw values count with
  | zero =>
    exact ⟨[], List.length_eq_zero_iff.mp (Nat.le_zero.mp hn), by simp, List.nodup_nil, by simp⟩
  | succ n ih =>
    by_cases hraw : raw = []
    · exact ⟨[], hraw, by simp, List.nodup_nil, by simp⟩
    · cases hrecord : paxRecord raw with
      | error message =>
        rw [paxValuesFrom_error n hraw hrecord] at h
        cases h
      | ok r =>
        obtain ⟨key, value, length⟩ := r
        obtain ⟨hadvance, hwithin⟩ := paxRecord_advances hrecord
        obtain ⟨e, hitem, -, hsplit⟩ := entry_of_paxRecord hrecord
        obtain ⟨rfl, rfl⟩ : e.key = key ∧ e.value = value := Prod.mk.inj hitem
        rw [paxValuesFrom_record n hraw hrecord] at h
        obtain ⟨_, hok, h⟩ := bind_eq_ok.mp h
        rw [candidateWhen_eq_ok, Bool.or_eq_false_iff, Bool.or_eq_false_iff,
          List.isEmpty_eq_false_iff, lookup_isSome_iff] at hok
        have hdrop : (raw.drop length).length = raw.length - length := List.length_drop
        obtain ⟨es, hes, hkeys, hnodup, hnew⟩ := ih (by omega) h
        refine ⟨e :: es, ?_, ?_, ?_, ?_⟩
        · rw [encodeEntries, List.flatMap_cons, ← encodeEntries, ← hes]
          exact hsplit
        · intro f hf
          obtain rfl | hf := List.mem_cons.mp hf
          · exact ⟨hok.1.1, hok.2⟩
          · exact hkeys f hf
        · rw [List.map_cons, List.nodup_cons]
          refine ⟨?_, hnodup⟩
          intro hmem
          obtain ⟨f, hf, he⟩ := List.mem_map.mp hmem
          apply hnew f hf
          rw [he]
          exact List.mem_cons_self
        · intro f hf
          obtain rfl | hf := List.mem_cons.mp hf
          · exact hok.1.2
          · exact fun hmem => hnew f hf (List.mem_cons_of_mem _ hmem)

theorem length_le_encodeEntries (entries : List PaxEntry) :
    entries.length ≤ (encodeEntries entries).length := by
  induction entries with
  | nil => exact Nat.zero_le _
  | cons e es ih =>
    have hpos := List.length_pos_iff.mpr e.encode_ne_nil
    rw [encodeEntries, List.flatMap_cons, ← encodeEntries, List.length_append, List.length_cons]
    omega

/-- `_pax_values` reads records with distinct keys as they were written. What it accepts is such
records one behind the other, with nothing between them; a round of its loop goes forward by a whole
record, so that it ends on every payload. -/
theorem pax_records_exact :
    (∀ entries : List PaxEntry, (∀ e ∈ entries, IsPaxKey e.key) → (entries.map PaxEntry.key).Nodup →
      paxValues (encodeEntries entries) = .ok ((entries.map PaxEntry.item).reverse, entries.length)) ∧
    (∀ raw values count, paxValues raw = .ok (values, count) → ∃ entries : List PaxEntry,
      raw = encodeEntries entries ∧ (∀ e ∈ entries, IsPaxKey e.key) ∧
      (entries.map PaxEntry.key).Nodup ∧ values = (entries.map PaxEntry.item).reverse ∧
      count = entries.length) ∧
    (∀ raw key value length, paxRecord raw = .ok (key, value, length) →
      0 < length ∧ length ≤ raw.length) ∧
    ∀ raw n values count, raw.length ≤ n →
      paxValuesFrom n values count raw = paxValuesFrom raw.length values count raw := by
  have hread : ∀ entries : List PaxEntry, (∀ e ∈ entries, IsPaxKey e.key) →
      (entries.map PaxEntry.key).Nodup → paxValues (encodeEntries entries) =
        .ok ((entries.map PaxEntry.item).reverse, entries.length) := by
    intro entries hkeys hnodup
    rw [paxValues, paxValuesFrom_encodeEntries hkeys hnodup (by simp)
      (length_le_encodeEntries entries), List.append_nil, Nat.zero_add]
  refine ⟨hread, ?_, ?_, ?_⟩
  · intro raw values count h
    obtain ⟨entries, rfl, hkeys, hnodup, -⟩ := entries_of_paxValuesFrom (Nat.le_refl _) h
    rw [hread entries hkeys hnodup] at h
    cases h
    exact ⟨entries, rfl, hkeys, hnodup, rfl, rfl⟩
  · intro raw key value length h
    exact paxRecord_advances h
  · intro raw n values count hn
    exact paxValuesFrom_enough hn (Nat.le_refl _)

end payload

end ArubaCertRenewer
