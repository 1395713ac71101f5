import ArubaCertRenewer.Identity
import ArubaCertRenewer.Utf8
import Mathlib.Data.List.Induction
import Mathlib.Order.Basic

/- Which pull requests need container validation, `ci_policy.py`.

   The input is what `git diff --no-renames --name-status -z` prints: for each change its status
   and its path, each ended by a NUL. A byte stream that encodes records is split at those NULs
   alone, since no status and no path holds one, so the pairing of fields cannot shift. A
   `PolicyError` is its message. -/
namespace ArubaCertRenewer
open PyText

def maxInput : Nat := 8 * 1024 * 1024
def docFiles : List Text := ["README.md", "CONTRIBUTING.md", "CHANGELOG.md"]

/-- The statuses `A`, `M`, `D`, `T`, `U`, `X` and `B`. -/
def changeStatuses : List Bytes := [[65], [77], [68], [84], [85], [88], [66]]

/-- `if b: raise PolicyError(message)` -/
def policyWhen (b : Bool) (message : Text) : Except Text Unit := if b then .error message else .ok ()

/-- What is wrong with a changed path. -/
def badPath (rawPath : Bytes) (path : Text) : Bool :=
  path.isEmpty || 4096 < rawPath.length || path.head? == some '/' ||
    (splitOn '/' path).any (fun part => part == [] || part == ['.'] || part == ['.', '.']) ||
    path.any fun c => c.toNat < 32 || c.toNat == 127

def isDocumentation (path : Text) : Bool :=
  docFiles.contains path || ("docs/".toList.isPrefixOf path && endsWith path ".md")

/-- The path of a record, when its two fields are in order. -/
def changedPath (status rawPath : Bytes) : Except Text Text := do
  policyWhen (!changeStatuses.contains status)
    "unexpected change status; rename detection must be off"
  match decodeUtf8 rawPath with
  | none => .error "changed path is not UTF-8"
  | some path =>
    policyWhen (badPath rawPath path) "invalid changed path"
    return path

/-- Whether a record is more than a change of documentation. -/
def needsContainers (status : Bytes) (path : Text) : Bool :=
  !(status == [65] || status == [77]) || !isDocumentation path

/-- The loop over the pairs of fields. -/
def requiredBy (required : Bool) : List Bytes → Except Text Bool
  | status :: rawPath :: fields => do
    let path ← changedPath status rawPath
    requiredBy (required || needsContainers status path) fields
  | _ => .ok required

/-- `containers_required` -/
def containersRequired (changes : Bytes) : Except Text Bool := do
  policyWhen (maxInput < changes.length) "changed-path input exceeds the limit"
  if changes.isEmpty then return true
  policyWhen (changes.getLast? != some 0) "changed-path input is not NUL terminated"
  let fields := changes.dropLast.splitOn 0
  policyWhen (fields.length % 2 != 0 || 20000 < fields.length) "invalid changed-path record count"
  requiredBy false fields

/-! ## Records -/

/-- A change as `git` reports one. -/
structure ChangeRecord where
  status : UInt8
  path : Text
  status_ok : [status] ∈ changeStatuses
  path_ok : badPath (encodeUtf8 path) path = false

namespace ChangeRecord

/-- The two fields of a record. -/
def fields (r : ChangeRecord) : List Bytes := [[r.status], encodeUtf8 r.path]

def encode (r : ChangeRecord) : Bytes := r.status :: 0 :: (encodeUtf8 r.path ++ [0])

/-- An addition or a modification of a documentation file. -/
def DocumentationOnly (r : ChangeRecord) : Prop :=
  (r.status = 65 ∨ r.status = 77) ∧ isDocumentation r.path = true

theorem needsContainers_eq_false {r : ChangeRecord} :
    needsContainers [r.status] r.path = false ↔ r.DocumentationOnly := by
  rw [needsContainers, DocumentationOnly, Bool.or_eq_false_iff, Bool.not_eq_false', Bool.not_eq_false',
    Bool.or_eq_true, beq_iff_eq, beq_iff_eq, List.singleton_inj, List.singleton_inj]

/-- No field of a record holds the separator. -/
theorem zero_not_mem_fields (r : ChangeRecord) : ∀ f ∈ r.fields, 0 ∉ f := by
  have hstatus : (0 : UInt8) ≠ r.status := by
    intro he
    have hok := r.status_ok
    rw [← he] at hok
    revert hok
    decide
  have hpath : (0 : UInt8) ∉ encodeUtf8 r.path := by
    intro hmem
    have hchar : Char.ofNat 0 ∈ r.path := (mem_encodeUtf8 (by decide)).mp hmem
    have hok := r.path_ok
    simp only [badPath, Bool.or_eq_false_iff] at hok
    have hcontrol := List.any_eq_false.mp hok.2 _ hchar
    exact hcontrol rfl
  intro f hf
  rw [fields, List.mem_cons, List.mem_singleton] at hf
  obtain rfl | rfl := hf
  · rwa [List.mem_singleton]
  · exact hpath

end ChangeRecord

section records
variable {records : List ChangeRecord} {fields : List Bytes} {changes : Bytes}

def encodeChanges (records : List ChangeRecord) : Bytes := records.flatMap ChangeRecord.encode

/-- Fields, each ended by the separator. -/
theorem flatMap_terminated {α : Type} (x : α) {fields : List (List α)} (hne : fields ≠ []) :
    (fields.flatMap fun f => f ++ [x]) = [x].intercalate fields ++ [x] := by
  induction fields with
  | nil => exact absurd rfl hne
  | cons f fs ih =>
    cases fs with
    | nil => simp
    | cons g gs =>
      rw [List.flatMap_cons, ih (List.cons_ne_nil g gs), List.intercalate_cons_cons]
      simp only [List.append_assoc]

theorem encodeChanges_eq (records : List ChangeRecord) : encodeChanges records =
    (records.flatMap ChangeRecord.fields).flatMap fun f => f ++ [0] := by
  induction records with
  | nil => rfl
  | cons r rs ih =>
    rw [encodeChanges, List.flatMap_cons, List.flatMap_cons, List.flatMap_append, ← ih]
    simp [encodeChanges, ChangeRecord.encode, ChangeRecord.fields]

/-- Splitting an encoding gives the fields of its records. -/
theorem splitOn_encodeChanges (hne : records ≠ []) :
    (encodeChanges records).dropLast.splitOn 0 = records.flatMap ChangeRecord.fields := by
  have hfields : records.flatMap ChangeRecord.fields ≠ [] := by
    cases records with
    | nil => exact absurd rfl hne
    | cons r rs => exact List.cons_ne_nil _ _
  rw [encodeChanges_eq, flatMap_terminated 0 hfields, List.dropLast_concat]
  apply List.splitOn_intercalate 0 _ hfields
  intro f hf
  obtain ⟨r, -, hr⟩ := List.mem_flatMap.mp hf
  exact r.zero_not_mem_fields f hr

theorem policyWhen_eq_ok {b : Bool} {message : Text} {u : Unit} :
    policyWhen b message = .ok u ↔ b = false := by
  cases b <;> simp [policyWhen]

theorem changedPath_record (r : ChangeRecord) :
    changedPath [r.status] (encodeUtf8 r.path) = .ok r.path := by
  have hstatus : changeStatuses.contains [r.status] = true := List.contains_iff_mem.mpr r.status_ok
  rw [changedPath, hstatus, decodeUtf8_encodeUtf8]
  simp only [r.path_ok]
  rfl

/-- Two fields in order are those of a record. -/
theorem record_of_changedPath {status rawPath : Bytes} {path : Text}
    (h : changedPath status rawPath = .ok path) :
    ∃ r : ChangeRecord, r.path = path ∧ r.fields = [status, rawPath] := by
  obtain ⟨_, hstatus, h⟩ := bind_eq_ok.mp h
  rw [policyWhen_eq_ok, Bool.not_eq_false', List.contains_iff_mem] at hstatus
  split at h
  · cases h
  next decoded hdecode =>
  obtain ⟨_, hpath, he⟩ := bind_eq_ok.mp h
  rw [policyWhen_eq_ok] at hpath
  cases he
  have hraw := decodeUtf8_eq_some.mp hdecode
  have hsingle : ∀ s ∈ changeStatuses, ∃ b, s = [b] := by
    intro s hs
    simp only [changeStatuses, List.mem_cons, List.not_mem_nil, or_false] at hs
    obtain rfl | rfl | rfl | rfl | rfl | rfl | rfl := hs <;> exact ⟨_, rfl⟩
  obtain ⟨b, rfl⟩ := hsingle status hstatus
  rw [hraw] at hpath
  exact ⟨⟨b, path, hstatus, hpath⟩, rfl, by rw [ChangeRecord.fields, hraw]⟩

/-- The loop over the fields of records. -/
theorem requiredBy_records (required : Bool) (records : List ChangeRecord) :
    requiredBy required (records.flatMap ChangeRecord.fields) =
      .ok (required || records.any fun r => needsContainers [r.status] r.path) := by
  induction records generalizing required with
  | nil => rw [List.flatMap_nil, requiredBy, List.any_nil, Bool.or_false]; simp
  | cons r rs ih =>
    show requiredBy required ([r.status] :: encodeUtf8 r.path :: rs.flatMap ChangeRecord.fields) = _
    rw [requiredBy, changedPath_record]
    show requiredBy (required || needsContainers [r.status] r.path) _ = _
    rw [ih, List.any_cons, Bool.or_assoc]

/-- Fields that the loop accepts are those of records. -/
theorem records_of_requiredBy {required result : Bool} (heven : fields.length % 2 = 0)
    (h : requiredBy required fields = .ok result) :
    ∃ records : List ChangeRecord, fields = records.flatMap ChangeRecord.fields := by
  induction fields using List.twoStepInduction generalizing required with
  | nil => exact ⟨[], rfl⟩
  | singleton f => cases heven
  | cons_cons status rawPath fields ih _ =>
    rw [requiredBy] at h
    obtain ⟨path, hpath, h⟩ := bind_eq_ok.mp h
    obtain ⟨r, -, hr⟩ := record_of_changedPath hpath
    have heven' : fields.length % 2 = 0 := by
      rw [List.length_cons, List.length_cons] at heven
      omega
    obtain ⟨rs, hrs⟩ := ih heven' h
    refine ⟨r :: rs, ?_⟩
    rw [List.flatMap_cons, hr, hrs]
    rfl

theorem length_fields (records : List ChangeRecord) :
    (records.flatMap ChangeRecord.fields).length = 2 * records.length := by
  induction records with
  | nil => rfl
  | cons r rs ih =>
    rw [List.flatMap_cons, List.length_append, ih, List.length_cons]
    show 2 + 2 * rs.length = _
    omega

theorem encodeChanges_ne_nil (hne : records ≠ []) : encodeChanges records ≠ [] := by
  cases records with
  | nil => exact absurd rfl hne
  | cons r rs => exact List.cons_ne_nil _ _

theorem getLast_encodeChanges (hne : records ≠ []) :
    (encodeChanges records).getLast? = some 0 := by
  have hfields : records.flatMap ChangeRecord.fields ≠ [] := by
    cases records with
    | nil => exact absurd rfl hne
    | cons r rs => exact List.cons_ne_nil _ _
  rw [encodeChanges_eq, flatMap_terminated 0 hfields, List.getLast?_concat]

/-! ## The detector -/

/-- What the detector answers about records. -/
theorem containersRequired_encode (hsize : (encodeChanges records).length ≤ maxInput)
    (hcount : records.length ≤ 10000) :
    containersRequired (encodeChanges records) =
      .ok (records.isEmpty || records.any fun r => needsContainers [r.status] r.path) := by
  by_cases hne : records = []
  · rw [hne]
    rfl
  · have hempty : (encodeChanges records).isEmpty = false :=
      List.isEmpty_eq_false_iff.mpr (encodeChanges_ne_nil hne)
    have hrecords : records.isEmpty = false := List.isEmpty_eq_false_iff.mpr hne
    have hlimit : decide (maxInput < (encodeChanges records).length) = false := by
      rw [decide_eq_false_iff_not, not_lt]
      exact hsize
    have hlast : ((encodeChanges records).getLast? != some 0) = false := by
      rw [getLast_encodeChanges hne]
      rfl
    have hfields : ((records.flatMap ChangeRecord.fields).length % 2 != 0 ||
        20000 < (records.flatMap ChangeRecord.fields).length) = false := by
      rw [length_fields, Bool.or_eq_false_iff, bne_eq_false_iff_eq, decide_eq_false_iff_not]
      omega
    rw [containersRequired, hlimit, hempty, hlast]
    show (do
      policyWhen (((encodeChanges records).dropLast.splitOn 0).length % 2 != 0 ||
        20000 < ((encodeChanges records).dropLast.splitOn 0).length)
          "invalid changed-path record count"
      requiredBy false ((encodeChanges records).dropLast.splitOn 0)) = _
    rw [splitOn_encodeChanges hne, hfields]
    show requiredBy false (records.flatMap ChangeRecord.fields) = _
    rw [requiredBy_records, hrecords]

/-- What the detector answers about is an encoding of records. -/
theorem records_of_containersRequired {result : Bool} (h : containersRequired changes = .ok result) :
    changes.length ≤ maxInput ∧
      ∃ records : List ChangeRecord, records.length ≤ 10000 ∧ changes = encodeChanges records := by
  obtain ⟨_, hlimit, h⟩ := bind_eq_ok.mp h
  rw [policyWhen_eq_ok, decide_eq_false_iff_not, not_lt] at hlimit
  refine ⟨hlimit, ?_⟩
  by_cases hempty : changes = []
  · exact ⟨[], Nat.zero_le _, hempty⟩
  · have hno : changes.isEmpty = false := List.isEmpty_eq_false_iff.mpr hempty
    rw [hno] at h
    obtain ⟨_, hlast, h⟩ := bind_eq_ok.mp h
    obtain ⟨_, hcount, h⟩ := bind_eq_ok.mp h
    rw [policyWhen_eq_ok, bne_eq_false_iff_eq] at hlast
    rw [policyWhen_eq_ok, Bool.or_eq_false_iff, bne_eq_false_iff_eq, decide_eq_false_iff_not,
      not_lt] at hcount
    obtain ⟨records, hrecords⟩ := records_of_requiredBy hcount.1 h
    refine ⟨records, ?_, ?_⟩
    · have hlength := hcount.2
      rw [hrecords, length_fields] at hlength
      omega
    · have hne : changes.dropLast.splitOn 0 ≠ [] := List.splitOn_ne_nil 0 _
      rw [encodeChanges_eq, ← hrecords, flatMap_terminated 0 hne, List.intercalate_splitOn]
      exact (List.dropLast_append_getLast? 0 hlast).symm

/-- The answers of the detector are the answers about encodings. -/
theorem containersRequired_eq_ok {result : Bool} :
    containersRequired changes = .ok result ↔ changes.length ≤ maxInput ∧
      ∃ records : List ChangeRecord, records.length ≤ 10000 ∧ changes = encodeChanges records ∧
        result = (records.isEmpty || records.any fun r => needsContainers [r.status] r.path) := by
  constructor
  · intro h
    obtain ⟨hsize, records, hcount, rfl⟩ := records_of_containersRequired h
    rw [containersRequired_encode hsize hcount] at h
    exact ⟨hsize, records, hcount, rfl, (Except.ok.inj h).symm⟩
  · intro h
    obtain ⟨hsize, records, hcount, rfl, rfl⟩ := h
    exact containersRequired_encode hsize hcount

theorem documentation_only_iff : (records.isEmpty || records.any fun r =>
    needsContainers [r.status] r.path) = false ↔
      records ≠ [] ∧ ∀ r ∈ records, r.DocumentationOnly := by
  rw [Bool.or_eq_false_iff, List.isEmpty_eq_false_iff, List.any_eq_false]
  apply and_congr_right'
  apply forall₂_congr
  intro r _
  rw [Bool.not_eq_true]
  exact ChangeRecord.needsContainers_eq_false

/-- Equal encodings are of records that require the same. -/
theorem requires_eq_of_encode {others : List ChangeRecord}
    (h : encodeChanges records = encodeChanges others) :
    (records.any fun r => needsContainers [r.status] r.path) =
      others.any fun r => needsContainers [r.status] r.path := by
  have hfields : records.flatMap ChangeRecord.fields = others.flatMap ChangeRecord.fields := by
    by_cases hne : records = []
    · by_cases hne' : others = []
      · rw [hne, hne']
      · rw [hne] at h
        exact absurd h.symm (encodeChanges_ne_nil hne')
    · by_cases hne' : others = []
      · rw [hne'] at h
        exact absurd h (encodeChanges_ne_nil hne)
      · rw [← splitOn_encodeChanges hne, h, splitOn_encodeChanges hne']
  have hloop := requiredBy_records false records
  rw [hfields, requiredBy_records, Bool.false_or, Bool.false_or, Except.ok.injEq] at hloop
  exact hloop.symm

/-- Container validation is skipped exactly for a non-empty encoding of at most 10,000 additions and
modifications of documentation, within the limit on its size. What is no encoding is refused, and
a further change never makes a required validation one to skip. -/
theorem containers_skipped_exactly :
    (∀ changes, containersRequired changes = .ok false ↔ changes.length ≤ maxInput ∧
      ∃ records : List ChangeRecord, records ≠ [] ∧ records.length ≤ 10000 ∧
        changes = encodeChanges records ∧ ∀ r ∈ records, r.DocumentationOnly) ∧
    (∀ changes, (∃ message, containersRequired changes = .error message) ↔
      ¬ (changes.length ≤ maxInput ∧
        ∃ records : List ChangeRecord, records.length ≤ 10000 ∧ changes = encodeChanges records)) ∧
    ∀ changes (r : ChangeRecord), changes ≠ [] → containersRequired changes = .ok true →
      containersRequired (changes ++ r.encode) ≠ .ok false := by
  refine ⟨?_, ?_, ?_⟩
  · intro changes
    rw [containersRequired_eq_ok]
    apply and_congr_right'
    constructor
    · intro h
      obtain ⟨records, hcount, hchanges, hresult⟩ := h
      obtain ⟨hne, hall⟩ := documentation_only_iff.mp hresult.symm
      exact ⟨records, hne, hcount, hchanges, hall⟩
    · intro h
      obtain ⟨records, hne, hcount, hchanges, hall⟩ := h
      exact ⟨records, hcount, hchanges, (documentation_only_iff.mpr ⟨hne, hall⟩).symm⟩
  · intro changes
    constructor
    · intro herror hencoded
      obtain ⟨message, herror⟩ := herror
      obtain ⟨hsize, records, hcount, rfl⟩ := hencoded
      rw [containersRequired_encode hsize hcount] at herror
      cases herror
    · intro hno
      cases hresult : containersRequired changes with
      | error message => exact ⟨message, rfl⟩
      | ok result => exact absurd (records_of_containersRequired hresult) hno
  · intro changes r hne htrue hfalse
    obtain ⟨-, records, -, rfl, hrequired⟩ := containersRequired_eq_ok.mp htrue
    have hrecords : records.isEmpty = false := by
      rw [List.isEmpty_eq_false_iff]
      intro hnil
      rw [hnil] at hne
      exact hne rfl
    have hwhole : encodeChanges records ++ r.encode = encodeChanges (records ++ [r]) := by
      simp [encodeChanges]
    rw [hwhole] at hfalse
    obtain ⟨-, others, -, hothers, hskipped⟩ := containersRequired_eq_ok.mp hfalse
    have hnone := (Bool.or_eq_false_iff.mp hskipped.symm).2
    rw [hrecords, Bool.false_or] at hrequired
    rw [← requires_eq_of_encode hothers, List.any_append, ← hrequired] at hnone
    cases hnone

end records

end ArubaCertRenewer
