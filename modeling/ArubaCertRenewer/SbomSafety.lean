import ArubaCertRenewer.SbomChecks
import ArubaCertRenewer.Identity

/- Which SBOM documents `validate_spdx` returns from or refuses with an error of its own.

   Each operation that may raise an error of Python's own is met where the checks
   before it pass. A text is encoded to measure it, which no surrogate allows; an
   algorithm is looked up in a set, which no array or object allows; checksums are gone
   over, which no number or truth value allows. -/
namespace ArubaCertRenewer
open PyValue

section bounded
variable {value : Option Value} {name s : Str}

/-- The value is no text that cannot be encoded. -/
def IsEncodable (value : Option Value) : Prop := ∀ s, value = some (.str s) → hasSurrogate s = false

/-- The value is this text, and passes `_bounded_string`. -/
structure IsBounded (value : Option Value) (s : Str) : Prop where
  value_eq : value = some (.str s)
  nonempty : s ≠ []
  encodable : hasSurrogate s = false
  length_le : utf8Length s ≤ identityMaxBytes
  plain : s.any isControl = false

theorem onlyRaises_boundedString : OnlyRaises (boundedString value name) ↔ IsEncodable value := by
  unfold boundedString
  split
  · next t =>
    have hencodable : IsEncodable (some (.str t)) ↔ hasSurrogate t = false :=
      ⟨fun h => h t rfl, fun h s hs => by cases hs; exact h⟩
    rw [hencodable, onlyRaises_bind, encodedLength]
    by_cases ht : hasSurrogate t = true
    · -- a surrogate is in a text that is not empty
      have hne : t.isEmpty = false := by
        cases t with
        | nil => cases ht
        | cons c t => rfl
      rw [hne, if_pos ht, ht]
      refine iff_of_false (fun h => ?_) (by simp)
      obtain ⟨message, hm⟩ := h.2 () rfl _ rfl
      cases hm
    · rw [if_neg ht]
      refine iff_of_true ⟨onlyRaises_rejectWhen, fun _ _ => ?_⟩ (Bool.of_not_eq_true ht)
      simp only [onlyRaises_bind, onlyRaises_rejectWhen, onlyRaises_pure, onlyRaises_ok, implies_true, and_self]
  · next h =>
    refine iff_of_true onlyRaises_raised fun s hs => ?_
    exact absurd hs (h s)

theorem boundedString_eq_ok : boundedString value name = .ok s ↔ IsBounded value s := by
  unfold boundedString
  split
  · next t =>
    simp only [bind_eq_ok, rejectWhen_eq_ok, encodedLength, decide_eq_false_iff_not, Nat.not_lt]
    constructor
    · intro h
      obtain ⟨_, hempty, length, hlength, _, hle, _, hplain, h⟩ := h
      cases h
      by_cases ht : hasSurrogate s = true
      · rw [if_pos ht] at hlength
        cases hlength
      · rw [if_neg ht] at hlength
        cases hlength
        refine ⟨rfl, fun he => ?_, Bool.of_not_eq_true ht, hle, hplain⟩
        rw [he] at hempty
        cases hempty
    · intro h
      cases h.value_eq
      refine ⟨(), ?_, utf8Length s, ?_, (), h.length_le, (), h.plain, rfl⟩
      · exact List.isEmpty_eq_false_iff.mpr h.nonempty
      · rw [if_neg (by simp [h.encodable])]
  · next h =>
    refine iff_of_false (fun he => by cases he) fun hb => ?_
    exact h s hb.value_eq

theorem IsBounded.unique {t : Str} (h : IsBounded value s) (h' : IsBounded value t) : s = t := by
  cases h.value_eq.symm.trans h'.value_eq
  rfl

end bounded

/-! ## Packages and relationships -/

/-- The texts of a package that are come to can be encoded. -/
def SafePackage (package : Value) : Prop :=
  ∀ members, package = .obj members → IsEncodable (get members "SPDXID") ∧
    ∀ packageId, IsBounded (get members "SPDXID") packageId → IsEncodable (get members "name")

/-- The package is accepted, as this entry. -/
structure IsPackage (package : Value) (entry : Str × Members) : Prop where
  value_eq : package = .obj entry.2
  packageId : IsBounded (get entry.2 "SPDXID") entry.1
  name : ∃ name, IsBounded (get entry.2 "name") name

/-- The table of the packages, by pairwise different IDs. -/
def Tabulates (packages : List Value) (packageById : List (Str × Members)) : Prop :=
  List.Forall₂ IsPackage packages packageById ∧ (packageById.map Prod.fst).Nodup

def SafePackages (packages : List Value) : Prop :=
  ∀ before package after, packages = before ++ package :: after →
    (∃ packageById, Tabulates before packageById) → SafePackage package

/-- The texts of a relationship that are come to can be encoded. -/
def SafeRelationship (relationship : Value) : Prop :=
  ∀ members, relationship = .obj members → IsEncodable (get members "spdxElementId") ∧
    ∀ source, IsBounded (get members "spdxElementId") source →
      IsEncodable (get members "relatedSpdxElement") ∧
      ∀ target, IsBounded (get members "relatedSpdxElement") target →
        IsEncodable (get members "relationshipType")

/-- The relationship is accepted. -/
def IsRelationship (relationship : Value) : Prop :=
  ∃ members source target relation, relationship = .obj members ∧
    IsBounded (get members "spdxElementId") source ∧
    IsBounded (get members "relatedSpdxElement") target ∧
    IsBounded (get members "relationshipType") relation

/-- What the document describes, by the relationship. -/
def describedBy (relationship : Value) : Option Str :=
  match relationship with
  | .obj members =>
    match get members "relatedSpdxElement" with
    | some (.str target) =>
      if isStr (get members "spdxElementId") "SPDXRef-DOCUMENT" &&
        isStr (get members "relationshipType") "DESCRIBES" then some target else none
    | _ => none
  | _ => none

section entries
variable {packageById packageById' : List (Str × Members)} {package relationship : Value}
variable {described described' : List Str}

theorem onlyRaises_addPackage : OnlyRaises (addPackage packageById package) ↔ SafePackage package := by
  unfold addPackage
  split
  · next members =>
    rw [onlyRaises_bind, onlyRaises_boundedString]
    simp only [onlyRaises_bind, onlyRaises_boundedString, boundedString_eq_ok, onlyRaises_rejectWhen]
    constructor
    · intro h _ hm
      cases hm
      exact ⟨h.1, fun id hid => (h.2 id hid).1⟩
    · intro h
      obtain ⟨hid, hname⟩ := h members rfl
      exact ⟨hid, fun id hb => ⟨hname id hb, fun _ _ => ⟨trivial, fun _ _ => onlyRaises_ok⟩⟩⟩
  · next h => exact iff_of_true onlyRaises_raised fun members hm => absurd hm (h members)

theorem addPackage_eq_ok : addPackage packageById package = .ok packageById' ↔
    ∃ entry, IsPackage package entry ∧ entry.1 ∉ packageById.map Prod.fst ∧
      packageById' = packageById ++ [entry] := by
  unfold addPackage
  split
  · next members =>
    simp only [bind_eq_ok, boundedString_eq_ok, rejectWhen_eq_ok, isSome_lookup_eq_false]
    constructor
    · intro h
      obtain ⟨id, hid, name, hname, _, hnew, h⟩ := h
      cases h
      exact ⟨(id, members), ⟨rfl, hid, name, hname⟩, hnew, rfl⟩
    · intro h
      obtain ⟨entry, ⟨hvalue, hid, name, hname⟩, hnew, rfl⟩ := h
      cases hvalue
      exact ⟨entry.1, hid, name, hname, (), hnew, rfl⟩
  · next h =>
    refine iff_of_false (fun he => by cases he) fun he => ?_
    obtain ⟨entry, hentry, -⟩ := he
    exact h _ hentry.value_eq

theorem foldlM_addPackage {packages : List Value} (hnodup : (packageById.map Prod.fst).Nodup) :
    packages.foldlM addPackage packageById = .ok packageById' ↔
      ∃ more, List.Forall₂ IsPackage packages more ∧ packageById' = packageById ++ more ∧
        (packageById'.map Prod.fst).Nodup := by
  induction packages generalizing packageById with
  | nil =>
    constructor
    · intro h
      cases h
      exact ⟨[], .nil, by simp, hnodup⟩
    · intro h
      obtain ⟨_, hall, rfl, -⟩ := h
      cases hall
      rw [List.append_nil]
      rfl
  | cons package packages ih =>
    rw [List.foldlM_cons, bind_eq_ok]
    constructor
    · intro h
      obtain ⟨next, hnext, h⟩ := h
      obtain ⟨entry, hentry, hnew, rfl⟩ := addPackage_eq_ok.mp hnext
      have hnodup' : ((packageById ++ [entry]).map Prod.fst).Nodup := by
        rw [List.map_append, List.map_singleton, ← List.concat_eq_append]
        exact hnodup.concat hnew
      obtain ⟨more, hall, rfl, hnodup''⟩ := (ih hnodup').mp h
      exact ⟨entry :: more, .cons hentry hall, by simp, hnodup''⟩
    · intro h
      obtain ⟨_, hall, rfl, hnodup'⟩ := h
      cases hall with
      | @cons _ entry _ more hentry hall =>
        rw [List.append_cons] at hnodup'
        have hbegun : ((packageById ++ [entry]).map Prod.fst).Nodup := by
          rw [List.map_append] at hnodup'
          exact (List.nodup_append.mp hnodup').1
        have hnew : entry.1 ∉ packageById.map Prod.fst := by
          intro hmem
          rw [List.map_append] at hbegun
          exact (List.nodup_append.mp hbegun).2.2 _ hmem entry.1 (List.mem_singleton.mpr rfl) rfl
        exact ⟨_, addPackage_eq_ok.mpr ⟨entry, hentry, hnew, rfl⟩,
          (ih hbegun).mpr ⟨more, hall, List.append_cons .., by rwa [List.append_cons]⟩⟩

theorem tabulates_iff {packages : List Value} :
    packages.foldlM addPackage [] = .ok packageById ↔ Tabulates packages packageById := by
  have hempty : (([] : List (Str × Members)).map Prod.fst).Nodup := List.nodup_nil
  rw [foldlM_addPackage hempty]
  constructor
  · intro h
    obtain ⟨more, hall, rfl, hnodup⟩ := h
    exact ⟨hall, hnodup⟩
  · exact fun h => ⟨packageById, h.1, rfl, h.2⟩

theorem onlyRaises_packages {packages : List Value} :
    OnlyRaises (packages.foldlM addPackage []) ↔ SafePackages packages := by
  simp only [onlyRaises_foldlM, onlyRaises_addPackage, tabulates_iff, SafePackages, exists_imp]

theorem onlyRaises_addDescribed :
    OnlyRaises (addDescribed described relationship) ↔ SafeRelationship relationship := by
  unfold addDescribed
  split
  · next members =>
    simp only [onlyRaises_bind, onlyRaises_boundedString, boundedString_eq_ok]
    constructor
    · intro h _ hm
      cases hm
      exact ⟨h.1, fun s hs => ⟨(h.2 s hs).1, fun t ht => ((h.2 s hs).2 t ht).1⟩⟩
    · intro h
      obtain ⟨hsource, htarget⟩ := h members rfl
      exact ⟨hsource, fun s hs => ⟨(htarget s hs).1, fun t ht => ⟨(htarget s hs).2 t ht,
        fun _ _ => onlyRaises_ok⟩⟩⟩
  · next h => exact iff_of_true onlyRaises_raised fun members hm => absurd hm (h members)

theorem isStr_of_isBounded {value : Option Value} {s t : Str} (h : IsBounded value s) :
    isStr value t = (s == t) := by
  rw [h.value_eq]
  rfl

theorem addDescribed_eq_ok : addDescribed described relationship = .ok described' ↔
    IsRelationship relationship ∧ described' = described ++ (describedBy relationship).toList := by
  unfold addDescribed
  split
  · next members =>
    simp only [bind_eq_ok, boundedString_eq_ok]
    have hfound : ∀ {source target relation : Str}, IsBounded (get members "spdxElementId") source →
        IsBounded (get members "relatedSpdxElement") target →
        IsBounded (get members "relationshipType") relation →
        (if source == "SPDXRef-DOCUMENT" && relation == "DESCRIBES" then described ++ [target]
          else described) = described ++ (describedBy (.obj members)).toList := by
      intro source target relation hsource htarget hrelation
      rw [describedBy, htarget.value_eq]
      dsimp only
      rw [isStr_of_isBounded hsource, isStr_of_isBounded hrelation]
      split <;> simp
    constructor
    · intro h
      obtain ⟨source, hsource, target, htarget, relation, hrelation, h⟩ := h
      rw [hfound hsource htarget hrelation] at h
      exact ⟨⟨members, source, target, relation, rfl, hsource, htarget, hrelation⟩,
        (Except.ok.inj h).symm⟩
    · intro h
      obtain ⟨⟨_, source, target, relation, hm, hsource, htarget, hrelation⟩, rfl⟩ := h
      cases hm
      refine ⟨source, hsource, target, htarget, relation, hrelation, ?_⟩
      rw [hfound hsource htarget hrelation]
      rfl
  · next h =>
    refine iff_of_false (fun he => by cases he) fun he => ?_
    obtain ⟨⟨members, _, _, _, hm, -⟩, -⟩ := he
    exact h members hm

theorem described_iff {relationships : List Value} :
    relationships.foldlM addDescribed [] = .ok described ↔
      (∀ r ∈ relationships, IsRelationship r) ∧ described = relationships.filterMap describedBy := by
  apply foldlM_collect
  intro s r s'
  exact addDescribed_eq_ok

theorem onlyRaises_relationships {relationships : List Value} :
    OnlyRaises (relationships.foldlM addDescribed []) ↔
      InTurn SafeRelationship IsRelationship relationships := by
  apply onlyRaises_loop
  · intro s r
    exact onlyRaises_addDescribed
  · intro s r
    simp only [addDescribed_eq_ok, exists_and_left, exists_eq, and_true]

end entries

/-! ## The root package -/

/-- `for item in value or []` goes over the value. -/
def IsIterable (value : Option Value) : Prop :=
  value ≠ some (.bool true) ∧ ∀ n, value = some (.int n) → n = 0

/-- The value may be in a set. -/
def IsHashable (value : Option Value) : Prop :=
  (∀ items, value ≠ some (.arr items)) ∧ ∀ members, value ≠ some (.obj members)

/-- The algorithm of a checksum may be looked up. -/
def SafeChecksum (checksum : Value) : Prop :=
  ∀ members, checksum = .obj members → IsHashable (get members "algorithm")

/-- The SHA-256 checksum that an entry of `checksums` gives. -/
def checksumOf (checksum : Value) : Option Str :=
  match checksum with
  | .obj members =>
    if (["SHA256", "SHA-256"] : List Str).any (isStr (get members "algorithm")) then
      hashValue (get members "checksumValue")
    else none
  | _ => none

/-- The values of a query that are come to can be encoded. -/
def SafeValues : List (List Str) → Prop :=
  InTurn (fun values => ∀ value, values = [value] → hasSurrogate value = false)
    fun values => ∃ value, values = [value] ∧ utf8Length value ≤ identityMaxBytes

def SafeQuery (query : List (Str × List Str)) : Prop :=
  (query.lookup ("arch" : Str)).isSome = true → (∀ q ∈ query, q.1 ∈ queryNames) →
    SafeValues (query.map Prod.snd)

/-- The identity and the query of a reference that is a purl with a query. -/
def purlParts (reference : Value) : Option (Str × Str) :=
  (purlLocator reference).bind (cutAtFirst (codePoint '?'))

def SafeReference (reference : Value) : Prop :=
  ∀ identity queryText query, purlParts reference = some (identity, queryText) →
    parseQs queryText = some query → SafeQuery query

/-- The loop goes on after the reference. -/
def IsReference (reference : Value) : Prop :=
  ∀ identity queryText, purlParts reference = some (identity, queryText) →
    ∃ query, parseQs queryText = some query ∧ SafeQuery query

section root
variable {value : Option Value} {s : Str}

theorem isIterable_iff : IsIterable value ↔ ∃ items, iterated value = .ok items := by
  cases value with
  | none => exact iff_of_true ⟨by simp, by simp⟩ ⟨_, rfl⟩
  | some value =>
    cases value with
    | bool b =>
      cases b with
      | true => exact iff_of_false (fun h => h.1 rfl) fun ⟨_, h⟩ => by cases h
      | false => exact iff_of_true ⟨by simp, by simp⟩ ⟨_, rfl⟩
    | int n =>
      by_cases hn : n = 0
      · exact iff_of_true ⟨by simp, by simp [hn]⟩ ⟨[], if_pos hn⟩
      · refine iff_of_false (fun h => hn (h.2 n rfl)) fun h => ?_
        obtain ⟨items, hitems⟩ := h
        rw [iterated, if_neg hn] at hitems
        cases hitems
    | null | str _ | arr _ | obj _ => exact iff_of_true ⟨by simp, by simp⟩ ⟨_, rfl⟩

theorem iterated_error {e : PyError} (h : iterated value = .error e) : e = .typeError := by
  have hno : ∀ n : Int, (if n = 0 then .ok [] else .error .typeError : Except PyError (List Value)) =
      .error e → e = .typeError := by
    intro n hn
    split at hn
    · cases hn
    · exact (Except.error.inj hn).symm
  cases value with
  | none => cases h
  | some value =>
    cases value with
    | bool b =>
      cases b with
      | true => exact (Except.error.inj h).symm
      | false => cases h
    | int n => exact hno n h
    | null | str _ | arr _ | obj _ => cases h

theorem onlyRaises_iterated : OnlyRaises (iterated value) ↔ IsIterable value := by
  rw [isIterable_iff]
  cases hvalue : iterated value with
  | ok items => exact iff_of_true onlyRaises_ok ⟨items, rfl⟩
  | error e =>
    refine iff_of_false (fun h => ?_) fun ⟨_, h⟩ => by cases h
    obtain ⟨message, hm⟩ := h e rfl
    rw [iterated_error hvalue] at hm
    cases hm

theorem inSet_cases (value : Option Value) (names : List Str) :
    (IsHashable value ∧ inSet value names = .ok (names.any fun name => isStr value name)) ∨
      (¬ IsHashable value ∧ inSet value names = .error .typeError) := by
  cases value with
  | none => exact .inl ⟨⟨by simp, by simp⟩, by simp [inSet, isStr]⟩
  | some value =>
    cases value with
    | arr items => exact .inr ⟨fun h => h.1 items rfl, rfl⟩
    | obj members => exact .inr ⟨fun h => h.2 members rfl, rfl⟩
    | str t =>
      refine .inl ⟨⟨by simp, by simp⟩, congrArg Except.ok ?_⟩
      exact List.contains_eq_any_beq
    | null | bool _ | int _ => exact .inl ⟨⟨by simp, by simp⟩, by simp [inSet, isStr]⟩

theorem inSet_eq_ok {names : List Str} {b : Bool} :
    inSet value names = .ok b ↔ IsHashable value ∧ b = names.any fun name => isStr value name := by
  obtain ⟨hvalue, hset⟩ | ⟨hvalue, hset⟩ := inSet_cases value names
  · rw [hset, Except.ok.injEq]
    exact ⟨fun h => ⟨hvalue, h.symm⟩, fun h => h.2.symm⟩
  · rw [hset]
    exact iff_of_false (fun h => by cases h) fun h => hvalue h.1

theorem onlyRaises_inSet {names : List Str} : OnlyRaises (inSet value names) ↔ IsHashable value := by
  obtain ⟨hvalue, hset⟩ | ⟨hvalue, hset⟩ := inSet_cases value names
  · rw [hset]
    exact iff_of_true onlyRaises_ok hvalue
  · rw [hset]
    refine iff_of_false (fun h => ?_) hvalue
    obtain ⟨message, hm⟩ := h _ rfl
    cases hm

theorem onlyRaises_addChecksum {found : List Str} {checksum : Value} :
    OnlyRaises (addChecksum found checksum) ↔ SafeChecksum checksum := by
  unfold addChecksum
  split
  · next members =>
    rw [onlyRaises_bind, onlyRaises_inSet]
    constructor
    · intro h _ hm
      cases hm
      exact h.1
    · exact fun h => ⟨h members rfl, fun _ _ => onlyRaises_ok⟩
  · next h => exact iff_of_true onlyRaises_ok fun members hm => absurd hm (h members)

theorem addChecksum_eq_ok {found found' : List Str} {checksum : Value} :
    addChecksum found checksum = .ok found' ↔
      SafeChecksum checksum ∧ found' = found ++ (checksumOf checksum).toList := by
  unfold addChecksum checksumOf
  split
  · next members =>
    have hsafe : SafeChecksum (.obj members) ↔ IsHashable (get members "algorithm") :=
      ⟨fun h => h members rfl, fun h _ hm => by cases hm; exact h⟩
    simp only [hsafe, bind_eq_ok, inSet_eq_ok]
    constructor
    · intro h
      obtain ⟨b, ⟨hhash, rfl⟩, h⟩ := h
      cases h
      refine ⟨hhash, ?_⟩
      split <;> simp
    · intro h
      obtain ⟨hhash, rfl⟩ := h
      refine ⟨_, ⟨hhash, rfl⟩, congrArg Except.ok ?_⟩
      split <;> simp
  · next h =>
    simp only [Option.toList_none, List.append_nil, Except.ok.injEq]
    exact ⟨fun he => ⟨fun members hm => absurd hm (h members), he.symm⟩, fun he => he.2.symm⟩

theorem onlyRaises_checksums {items : List Value} :
    OnlyRaises (items.foldlM addChecksum []) ↔ ∀ item ∈ items, SafeChecksum item := by
  rw [← inTurn_self]
  apply onlyRaises_loop
  · intro s c
    exact onlyRaises_addChecksum
  · intro s c
    simp only [addChecksum_eq_ok, exists_and_left, exists_eq, and_true]

theorem checksums_iff {items : List Value} {found : List Str} :
    items.foldlM addChecksum [] = .ok found ↔
      (∀ item ∈ items, SafeChecksum item) ∧ found = items.filterMap checksumOf := by
  apply foldlM_collect
  intro s c s'
  exact addChecksum_eq_ok

theorem onlyRaises_encodedLength : OnlyRaises (encodedLength s) ↔ hasSurrogate s = false := by
  unfold encodedLength
  split
  · next h =>
    refine iff_of_false (fun hr => ?_) (by simp [h])
    obtain ⟨message, hm⟩ := hr _ rfl
    cases hm
  · next h => exact iff_of_true onlyRaises_ok (Bool.of_not_eq_true h)

theorem encodedLength_eq_ok {n : Nat} :
    encodedLength s = .ok n ↔ hasSurrogate s = false ∧ utf8Length s = n := by
  unfold encodedLength
  split
  · next h => simp [h]
  · next h => simp [Bool.of_not_eq_true h]

theorem onlyRaises_allBounded (values : List (List Str)) :
    OnlyRaises (allBounded values) ↔ SafeValues values := by
  induction values with
  | nil => exact iff_of_true onlyRaises_ok inTurn_nil
  | cons first values ih =>
    rw [SafeValues, inTurn_cons]
    by_cases hfirst : ∃ value, first = [value]
    · obtain ⟨value, rfl⟩ := hfirst
      rw [allBounded, onlyRaises_bind, onlyRaises_encodedLength]
      simp only [encodedLength_eq_ok, List.cons.injEq, and_true, forall_eq', exists_eq_left']
      refine and_congr_right fun hs => ?_
      constructor
      · intro h hle
        have hrest := h (utf8Length value) ⟨hs, rfl⟩
        rw [if_pos hle] at hrest
        exact ih.mp hrest
      · intro h n hn
        obtain ⟨-, rfl⟩ := hn
        split
        · next hle => exact ih.mpr (h hle)
        · exact onlyRaises_ok
    · have hother : allBounded (first :: values) = .ok false := by
        cases first with
        | nil => rfl
        | cons value rest =>
          cases rest with
          | nil => exact absurd ⟨value, rfl⟩ hfirst
          | cons _ _ => rfl
      rw [hother]
      refine iff_of_true onlyRaises_ok ⟨fun value h => absurd ⟨value, h⟩ hfirst, fun h => ?_⟩
      obtain ⟨value, h, -⟩ := h
      exact absurd ⟨value, h⟩ hfirst

theorem allBounded_ne_raised (values : List (List Str)) (message : Str) :
    allBounded values ≠ .error (.raised message) := by
  induction values with
  | nil => exact fun h => by cases h
  | cons first values ih =>
    cases first with
    | nil => exact fun h => by cases h
    | cons value rest =>
      cases rest with
      | cons _ _ => exact fun h => by cases h
      | nil =>
        intro h
        rw [allBounded, encodedLength] at h
        split at h
        · cases h
        · change (if _ then _ else _) = _ at h
          split at h
          · exact ih h
          · cases h

theorem onlyRaises_validQuery {query : List (Str × List Str)} :
    OnlyRaises (validQuery query) ↔ SafeQuery query := by
  unfold validQuery SafeQuery
  split
  · next h =>
    simp only [Bool.and_eq_true, List.all_eq_true, List.contains_iff_mem] at h
    rw [onlyRaises_bind, onlyRaises_allBounded]
    constructor
    · exact fun hs _ _ => hs.1
    · intro hs
      refine ⟨hs h.1 h.2, fun b _ => ?_⟩
      split <;> exact onlyRaises_ok
  · next h =>
    simp only [Bool.and_eq_true, List.all_eq_true, List.contains_iff_mem, not_and] at h
    exact iff_of_true onlyRaises_ok fun harch hnames => absurd hnames (h harch)

theorem validQuery_ok_iff {query : List (Str × List Str)} :
    (∃ b, validQuery query = .ok b) ↔ SafeQuery query := by
  rw [← onlyRaises_validQuery]
  apply (onlyRaises_iff_ok fun message h => ?_).symm
  unfold validQuery at h
  split at h
  · cases hall : allBounded (query.map Prod.snd) with
    | ok b =>
      rw [hall] at h
      change (if _ then _ else _) = _ at h
      split at h <;> cases h
    | error e =>
      rw [hall] at h
      cases h
      exact allBounded_ne_raised _ message hall
  · cases h

/-- What one reference does to the loop. -/
theorem addPurl_cases (checksum : Str) (found : List Str) (reference : Value) :
    (purlParts reference = none ∧ addPurl checksum found reference = .ok found) ∨
    (∃ identity queryText, purlParts reference = some (identity, queryText) ∧
      parseQs queryText = none ∧ ∃ message, addPurl checksum found reference = .error (.raised message)) ∨
    ∃ identity queryText query, purlParts reference = some (identity, queryText) ∧
      parseQs queryText = some query ∧ ∃ next : Bool → List Str,
        addPurl checksum found reference = validQuery query >>= fun valid => .ok (next valid) := by
  unfold addPurl purlParts
  cases purlLocator reference with
  | none => exact .inl ⟨rfl, rfl⟩
  | some locator =>
    rw [Option.bind_some]
    cases hcut : cutAtFirst (codePoint '?') locator with
    | none => exact .inl ⟨rfl, by simp [hcut]⟩
    | some parts =>
      obtain ⟨identity, queryText⟩ := parts
      cases hquery : parseQs queryText with
      | none => exact .inr (.inl ⟨identity, queryText, rfl, hquery, _, by simp [hcut, hquery]; rfl⟩)
      | some query =>
        refine .inr (.inr ⟨identity, queryText, query, rfl, hquery, fun valid =>
          if unquote identity == ("pkg:oci/" : Str) ++ expectedSbomName ++ "@sha256:" ++ checksum && valid
          then found ++ [locator] else found, ?_⟩)
        simp only [hcut, hquery]
        rfl

theorem onlyRaises_addPurl {checksum : Str} {found : List Str} {reference : Value} :
    OnlyRaises (addPurl checksum found reference) ↔ SafeReference reference := by
  unfold SafeReference
  obtain ⟨hparts, hadd⟩ | ⟨identity, queryText, hparts, hquery, message, hadd⟩ |
    ⟨identity, queryText, query, hparts, hquery, next, hadd⟩ := addPurl_cases checksum found reference
  · rw [hadd, hparts]
    exact iff_of_true onlyRaises_ok fun _ _ _ h => by cases h
  · rw [hadd, hparts]
    refine iff_of_true onlyRaises_raised fun _ _ query h hsome => ?_
    cases h
    rw [hquery] at hsome
    cases hsome
  · rw [hadd, hparts, onlyRaises_bind, onlyRaises_validQuery]
    constructor
    · intro h _ _ query' hp hq
      cases hp
      rw [hquery] at hq
      cases hq
      exact h.1
    · exact fun h => ⟨h identity queryText query rfl hquery, fun _ _ => onlyRaises_ok⟩

theorem addPurl_ok_iff {checksum : Str} {found : List Str} {reference : Value} :
    (∃ found', addPurl checksum found reference = .ok found') ↔ IsReference reference := by
  unfold IsReference
  obtain ⟨hparts, hadd⟩ | ⟨identity, queryText, hparts, hquery, message, hadd⟩ |
    ⟨identity, queryText, query, hparts, hquery, next, hadd⟩ := addPurl_cases checksum found reference
  · rw [hadd, hparts]
    exact iff_of_true ⟨found, rfl⟩ fun _ _ h => by cases h
  · rw [hadd, hparts]
    refine iff_of_false (fun ⟨_, h⟩ => by cases h) fun h => ?_
    obtain ⟨query, hsome, -⟩ := h identity queryText rfl
    rw [hquery] at hsome
    cases hsome
  · rw [hadd, hparts]
    have hvalid : (∃ found', (validQuery query >>= fun valid => .ok (next valid)) = .ok found') ↔
        ∃ b, validQuery query = .ok b := by
      simp only [bind_eq_ok]
      exact ⟨fun ⟨_, b, hb, _⟩ => ⟨b, hb⟩, fun ⟨b, hb⟩ => ⟨next b, b, hb, rfl⟩⟩
    rw [hvalid, validQuery_ok_iff]
    constructor
    · intro h _ _ hp
      cases hp
      exact ⟨query, hquery, h⟩
    · intro h
      obtain ⟨query', hq, hs⟩ := h identity queryText rfl
      rw [hquery] at hq
      cases hq
      exact hs

theorem onlyRaises_checkPurls {members : Members} {checksum : Str} :
    OnlyRaises (checkPurls members checksum) ↔ ∀ references,
      get members "externalRefs" = some (.arr references) →
        InTurn SafeReference IsReference references := by
  unfold checkPurls
  split
  · next references h =>
    have hloop : OnlyRaises (references.foldlM (addPurl checksum) []) ↔
        InTurn SafeReference IsReference references := by
      apply onlyRaises_loop
      · intro s r
        exact onlyRaises_addPurl
      · intro s r
        exact addPurl_ok_iff
    rw [onlyRaises_bind, hloop, h]
    constructor
    · intro hs _ hrefs
      cases hrefs
      exact hs.1
    · exact fun hs => ⟨hs references rfl, fun _ _ => onlyRaises_rejectWhen⟩
  · next h => exact iff_of_true onlyRaises_raised fun references hr => absurd hr (h references)

/-- The root package says which image it is of. -/
structure IsRoot (members : Members) (configDigest syftManifestDigest : Str) : Prop where
  name : isStr (get members "name") expectedSbomName = true
  purpose : isStr (get members "primaryPackagePurpose") "CONTAINER" = true
  version : isStr (get members "versionInfo") syftManifestDigest = true
  config : isSha256Digest configDigest = true

theorem onlyRaises_checkRoot {members : Members} {configDigest syftManifestDigest : Str} :
    OnlyRaises (checkRoot members configDigest syftManifestDigest) := by
  simp [checkRoot, onlyRaises_bind]

theorem checkRoot_eq_ok {members : Members} {configDigest syftManifestDigest : Str} :
    checkRoot members configDigest syftManifestDigest = .ok () ↔
      IsRoot members configDigest syftManifestDigest := by
  simp only [checkRoot, bind_eq_ok, rejectWhen_eq_ok, Bool.not_eq_false']
  constructor
  · intro h
    obtain ⟨_, hname, _, hpurpose, _, hversion, hconfig⟩ := h
    exact ⟨hname, hpurpose, hversion, hconfig⟩
  · exact fun h => ⟨(), h.name, (), h.purpose, (), h.version, h.config⟩

/-- Where the checksums and references of the root are come to, they are safe. -/
def SafeRoot (members : Members) (configDigest syftManifestDigest : Str) : Prop :=
  IsRoot members configDigest syftManifestDigest → IsIterable (get members "checksums") ∧
    ∀ checksums, iterated (get members "checksums") = .ok checksums →
      (∀ checksum ∈ checksums, SafeChecksum checksum) ∧
        ∀ checksum, checksums.filterMap checksumOf = [checksum] →
          ("sha256:" : Str) ++ checksum = syftManifestDigest →
          ∀ references, get members "externalRefs" = some (.arr references) →
            InTurn SafeReference IsReference references

theorem onlyRaises_imageChecksum {members : Members} {syftManifestDigest : Str} :
    OnlyRaises (imageChecksum members syftManifestDigest) ↔ IsIterable (get members "checksums") ∧
      ∀ checksums, iterated (get members "checksums") = .ok checksums →
        ∀ checksum ∈ checksums, SafeChecksum checksum := by
  rw [imageChecksum, onlyRaises_bind, onlyRaises_iterated]
  simp only [onlyRaises_bind, onlyRaises_checksums]
  refine and_congr_right fun _ => forall₂_congr fun checksums _ => ?_
  refine ⟨fun h => h.1, fun h => ⟨h, fun found _ => ?_⟩⟩
  split
  · simp only [onlyRaises_bind, onlyRaises_rejectWhen, onlyRaises_pure, implies_true, and_self]
  · exact onlyRaises_raised

theorem imageChecksum_eq_ok {members : Members} {syftManifestDigest checksum : Str} :
    imageChecksum members syftManifestDigest = .ok checksum ↔
      ∃ checksums, iterated (get members "checksums") = .ok checksums ∧
        (∀ checksum ∈ checksums, SafeChecksum checksum) ∧
        checksums.filterMap checksumOf = [checksum] ∧
        ("sha256:" : Str) ++ checksum = syftManifestDigest := by
  simp only [imageChecksum, bind_eq_ok, checksums_iff]
  constructor
  · intro h
    obtain ⟨checksums, hitems, found, ⟨hsafe, rfl⟩, h⟩ := h
    split at h
    · next first hfound =>
      obtain ⟨_, hsame, h⟩ := bind_eq_ok.mp h
      cases h
      rw [rejectWhen_eq_ok, bne_eq_false_iff_eq] at hsame
      exact ⟨checksums, hitems, hsafe, hfound, hsame⟩
    · cases h
  · intro h
    obtain ⟨checksums, hitems, hsafe, hfound, hsame⟩ := h
    refine ⟨checksums, hitems, _, ⟨hsafe, rfl⟩, ?_⟩
    rw [hfound]
    exact bind_eq_ok.mpr ⟨(), rejectWhen_eq_ok.mpr (bne_eq_false_iff_eq.mpr hsame), rfl⟩

theorem safeRoot_iff {members : Members} {configDigest syftManifestDigest : Str} :
    SafeRoot members configDigest syftManifestDigest ↔
      (IsRoot members configDigest syftManifestDigest →
        OnlyRaises (imageChecksum members syftManifestDigest) ∧
          ∀ checksum, imageChecksum members syftManifestDigest = .ok checksum →
            OnlyRaises (checkPurls members checksum)) := by
  simp only [SafeRoot, onlyRaises_imageChecksum, imageChecksum_eq_ok, onlyRaises_checkPurls]
  refine forall_congr' fun _ => ?_
  constructor
  · intro h
    refine ⟨⟨h.1, fun checksums hitems => (h.2 checksums hitems).1⟩, fun checksum hfound => ?_⟩
    obtain ⟨checksums, hitems, -, hone, hsame⟩ := hfound
    exact (h.2 checksums hitems).2 checksum hone hsame
  · intro h
    refine ⟨h.1.1, fun checksums hitems => ⟨h.1.2 checksums hitems, fun checksum hone hsame => ?_⟩⟩
    exact h.2 checksum ⟨checksums, hitems, h.1.2 checksums hitems, hone, hsame⟩

end root

/-! ## The document -/

/-- The creators that are checked. -/
def HasCreators (document : Members) (creators : List Value) : Prop :=
  ∃ creation, get document "creationInfo" = some (.obj creation) ∧
    get creation "creators" = some (.arr creators) ∧ creators ≠ [] ∧ creators.length ≤ 32

/-- A list of the document that is not empty and within its bound. -/
def HasItems (document : Members) (key : Str) (bound : Nat) (items : List Value) : Prop :=
  get document key = some (.arr items) ∧ items ≠ [] ∧ items.length ≤ bound

/-- The packages and relationships are safe, and the root where it is come to. -/
def SafeInventory (packages relationships : List Value) (configDigest syftManifestDigest : Str) : Prop :=
  SafePackages packages ∧ ∀ packageById, Tabulates packages packageById →
    InTurn SafeRelationship IsRelationship relationships ∧
      ((∀ r ∈ relationships, IsRelationship r) → ∀ rootId members,
        relationships.filterMap describedBy = [rootId] → packageById.lookup rootId = some members →
        SafeRoot members configDigest syftManifestDigest)

/-- Every text that is come to can be encoded, every algorithm looked up and every value for the
checksums gone over. -/
def SafeSbom (document : Members) (configDigest syftManifestDigest : Str) : Prop :=
  (∀ field ∈ required, isStr (get document field.1) field.2 = true) →
  IsEncodable (get document "name") ∧ ∀ name, IsBounded (get document "name") name →
  IsEncodable (get document "documentNamespace") ∧
    ∀ space, IsBounded (get document "documentNamespace") space →
  ∀ creators, HasCreators document creators →
  InTurn (fun c => IsEncodable (some c)) (fun c => ∃ s, IsBounded (some c) s) creators ∧
    ((∀ c ∈ creators, ∃ s, IsBounded (some c) s) →
  ∀ packages, HasItems document "packages" 100000 packages →
  ∀ relationships, HasItems document "relationships" 500000 relationships →
  SafeInventory packages relationships configDigest syftManifestDigest)

section document
variable {document : Members} {configDigest syftManifestDigest : Str}

theorem onlyRaises_required : OnlyRaises (required.foldlM (checkRequired document) ()) := by
  rw [onlyRaises_foldlM]
  intro _ field _ _ _ _
  exact onlyRaises_rejectWhen

theorem required_eq_ok : required.foldlM (checkRequired document) () = .ok () ↔
    ∀ field ∈ required, isStr (get document field.1) field.2 = true := by
  have hstep : ∀ (u : Unit) (field : Str × Str), (∃ u', checkRequired document u field = .ok u') ↔
      isStr (get document field.1) field.2 = true := by
    intro _ field
    simp [checkRequired]
  rw [← foldlM_ok_iff hstep]
  exact ⟨fun h => ⟨(), h⟩, fun ⟨_, h⟩ => h⟩

theorem onlyRaises_sbomCreators : OnlyRaises (sbomCreators document) := by
  unfold sbomCreators
  split
  · split
    · simp only [onlyRaises_bind, onlyRaises_rejectWhen, onlyRaises_pure, implies_true, and_self]
    · exact onlyRaises_raised
  · exact onlyRaises_raised

theorem sbomCreators_eq_ok {creators : List Value} :
    sbomCreators document = .ok creators ↔ HasCreators document creators := by
  unfold sbomCreators HasCreators
  split
  · next creation hcreation =>
    split
    · next items hitems =>
      simp only [bind_eq_ok, rejectWhen_eq_ok, Bool.or_eq_false_iff, List.isEmpty_eq_false_iff,
        decide_eq_false_iff_not, Nat.not_lt]
      constructor
      · intro h
        obtain ⟨_, hbound, h⟩ := h
        cases h
        exact ⟨creation, hcreation, hitems, hbound⟩
      · intro h
        obtain ⟨_, hc, hi, hbound⟩ := h
        cases hcreation.symm.trans hc
        cases hitems.symm.trans hi
        exact ⟨(), hbound, rfl⟩
    · next hnone =>
      refine iff_of_false (fun h => by cases h) fun h => ?_
      obtain ⟨_, hc, hi, -⟩ := h
      cases hcreation.symm.trans hc
      exact hnone creators hi
  · next hnone =>
    refine iff_of_false (fun h => by cases h) fun h => ?_
    obtain ⟨creation, hc, -⟩ := h
    exact hnone creation hc

theorem onlyRaises_boundedList {key : Str} {bound : Nat} :
    OnlyRaises (boundedList document key bound) := by
  unfold boundedList
  split
  · simp only [onlyRaises_bind, onlyRaises_rejectWhen, onlyRaises_pure, implies_true, and_self]
  · exact onlyRaises_raised

theorem boundedList_eq_ok {key : Str} {bound : Nat} {items : List Value} :
    boundedList document key bound = .ok items ↔ HasItems document key bound items := by
  unfold boundedList HasItems
  split
  · next found hfound =>
    rw [hfound]
    simp only [bind_eq_ok, rejectWhen_eq_ok, Bool.or_eq_false_iff, List.isEmpty_eq_false_iff,
      decide_eq_false_iff_not, Nat.not_lt]
    constructor
    · intro h
      obtain ⟨_, hbound, h⟩ := h
      cases h
      exact ⟨rfl, hbound⟩
    · intro h
      obtain ⟨hi, hbound⟩ := h
      cases hi
      exact ⟨(), hbound, rfl⟩
  · next hnone => exact iff_of_false (fun h => by cases h) fun h => hnone items h.1

theorem describedRoot_eq_ok {packageById : List (Str × Members)} {described : List Str}
    {root : Str × Members} : describedRoot packageById described = .ok root ↔
      described = [root.1] ∧ packageById.lookup root.1 = some root.2 := by
  unfold describedRoot
  split
  · next rootId =>
    split
    · next members hmembers =>
      constructor
      · intro h
        cases h
        exact ⟨rfl, hmembers⟩
      · intro h
        obtain ⟨hid, hroot⟩ := h
        cases hid
        rw [hmembers] at hroot
        cases hroot
        rfl
    · next hnone =>
      refine iff_of_false (fun h => by cases h) fun h => ?_
      obtain ⟨hid, hroot⟩ := h
      cases hid
      rw [hnone] at hroot
      cases hroot
  · next hother => exact iff_of_false (fun h => by cases h) fun h => hother root.1 h.1

theorem onlyRaises_describedRoot {packageById : List (Str × Members)} {described : List Str} :
    OnlyRaises (describedRoot packageById described) := by
  unfold describedRoot
  split
  · split
    · exact onlyRaises_ok
    · exact onlyRaises_raised
  · exact onlyRaises_raised

/-- Texts of accepted relationships may be looked up. -/
theorem onlyRaises_containsPackage {rootId : Str} {packageIds : List Str} {relationship : Value}
    (h : IsRelationship relationship) :
    OnlyRaises (containsPackage rootId packageIds relationship) := by
  obtain ⟨members, _, target, _, rfl, -, htarget, -⟩ := h
  unfold containsPackage
  dsimp only
  split
  · rw [onlyRaises_bind, onlyRaises_inSet, htarget.value_eq]
    refine ⟨⟨by simp, by simp⟩, fun b _ => ?_⟩
    cases b <;> exact onlyRaises_ok
  · exact onlyRaises_ok

theorem onlyRaises_anyM {p : Value → Except PyError Bool} {items : List Value}
    (h : ∀ item ∈ items, OnlyRaises (p item)) : OnlyRaises (items.anyM p) := by
  induction items with
  | nil => exact onlyRaises_ok
  | cons item items ih =>
    obtain ⟨hitem, hitems⟩ := List.forall_mem_cons.mp h
    rw [List.anyM, onlyRaises_bind]
    refine ⟨hitem, fun b _ => ?_⟩
    cases b
    · exact ih hitems
    · exact onlyRaises_ok

theorem onlyRaises_checkInventory {packages relationships : List Value} {rootId : Str}
    {packageIds : List Str} (h : ∀ r ∈ relationships, IsRelationship r) :
    OnlyRaises (checkInventory packages relationships rootId packageIds) := by
  unfold checkInventory
  split
  · rw [onlyRaises_bind]
    refine ⟨onlyRaises_anyM fun r hr => onlyRaises_containsPackage (h r hr), fun _ _ => ?_⟩
    exact onlyRaises_rejectWhen
  · exact onlyRaises_ok

/-- What follows the reading of the lists. -/
def validateInventory (packages relationships : List Value) (configDigest syftManifestDigest : Str) :
    Except PyError Unit := do
  let packageById ← packages.foldlM addPackage []
  let described ← relationships.foldlM addDescribed []
  let root ← describedRoot packageById described
  checkRoot root.2 configDigest syftManifestDigest
  let checksum ← imageChecksum root.2 syftManifestDigest
  checkPurls root.2 checksum
  checkInventory packages relationships root.1 (packageById.map Prod.fst)

theorem onlyRaises_validateInventory {packages relationships : List Value} :
    OnlyRaises (validateInventory packages relationships configDigest syftManifestDigest) ↔
      SafeInventory packages relationships configDigest syftManifestDigest := by
  rw [validateInventory, onlyRaises_bind, onlyRaises_packages, SafeInventory]
  refine and_congr_right fun _ => forall_congr' fun packageById => ?_
  rw [tabulates_iff]
  refine forall_congr' fun _ => ?_
  rw [onlyRaises_bind, onlyRaises_relationships]
  refine and_congr_right fun _ => ?_
  simp only [described_iff, onlyRaises_bind, onlyRaises_describedRoot, describedRoot_eq_ok,
    onlyRaises_checkRoot, true_and, safeRoot_iff, ← checkRoot_eq_ok]
  constructor
  · intro h hall rootId members hone hroot hok
    obtain ⟨hchecksum, hrest⟩ := h _ ⟨hall, rfl⟩ (rootId, members) ⟨hone, hroot⟩ () hok
    exact ⟨hchecksum, fun checksum hc => (hrest checksum hc).1⟩
  · intro h described hdescribed root hroot _ hok
    obtain ⟨hall, rfl⟩ := hdescribed
    obtain ⟨hchecksum, hpurls⟩ := h hall root.1 root.2 hroot.1 hroot.2 hok
    refine ⟨hchecksum, fun checksum hc => ⟨hpurls checksum hc, fun _ _ => ?_⟩⟩
    exact onlyRaises_checkInventory hall

theorem checkCreator_ok_iff (u : Unit) (creator : Value) :
    (∃ u', checkCreator u creator = .ok u') ↔ ∃ s, IsBounded (some creator) s := by
  simp only [checkCreator, bind_eq_ok, boundedString_eq_ok]
  exact ⟨fun ⟨_, s, hs, _⟩ => ⟨s, hs⟩, fun ⟨s, hs⟩ => ⟨(), s, hs, rfl⟩⟩

theorem onlyRaises_creators {creators : List Value} :
    OnlyRaises (creators.foldlM checkCreator ()) ↔
      InTurn (fun c => IsEncodable (some c)) (fun c => ∃ s, IsBounded (some c) s) creators := by
  apply onlyRaises_loop
  · intro _ c
    rw [checkCreator, onlyRaises_bind, onlyRaises_boundedString]
    exact ⟨fun h => h.1, fun h => ⟨h, fun _ _ => onlyRaises_ok⟩⟩
  · exact checkCreator_ok_iff

theorem creators_eq_ok {creators : List Value} :
    creators.foldlM checkCreator () = .ok () ↔ ∀ c ∈ creators, ∃ s, IsBounded (some c) s := by
  rw [← foldlM_ok_iff checkCreator_ok_iff]
  exact ⟨fun h => ⟨(), h⟩, fun ⟨_, h⟩ => h⟩

theorem validateSpdx_eq : validateSpdx document configDigest syftManifestDigest = (do
    required.foldlM (checkRequired document) ()
    let _ ← boundedString (get document "name") "SBOM name"
    let _ ← boundedString (get document "documentNamespace") "SBOM documentNamespace"
    let creators ← sbomCreators document
    creators.foldlM checkCreator ()
    let packages ← sbomPackages document
    let relationships ← sbomRelationships document
    validateInventory packages relationships configDigest syftManifestDigest) := rfl

theorem onlyRaises_validateSpdx :
    OnlyRaises (validateSpdx document configDigest syftManifestDigest) ↔
      SafeSbom document configDigest syftManifestDigest := by
  have hunit : ∀ {p : Unit → Prop}, (∀ u, p u) ↔ p () := ⟨fun h => h (), fun h _ => h⟩
  rw [validateSpdx_eq]
  simp only [onlyRaises_bind, onlyRaises_required, onlyRaises_boundedString, onlyRaises_sbomCreators,
    onlyRaises_creators, sbomPackages, sbomRelationships, onlyRaises_boundedList,
    onlyRaises_validateInventory, hunit, required_eq_ok, boundedString_eq_ok, sbomCreators_eq_ok,
    creators_eq_ok, boundedList_eq_ok, true_and, SafeSbom]

end document

end ArubaCertRenewer
