import ArubaCertRenewer.VulnerabilityGate
import Mathlib.Data.Char
import Mathlib.Data.List.Lex
import Mathlib.Data.Prod.Lex
import Mathlib.Data.Set.Basic
import Mathlib.Logic.Relation

/- The comparison of two reports does not look at their order.

   1. What is sorted is sorted by the whole identity, so permuted lists of findings
      or identities of one image sort alike (`sortedIdentities_eq`,
      `sortedFindings_eq`).
   2. Two readings of the same findings are compared alike
      (`compareFindings_same`): the groups are of the sorted identities, and the
      sets of keys are moved between by membership.
   3. What reading a report records is a set of findings (`Records`): it succeeds
      when each record can be read and no two of the findings differ under one
      identity, and then the findings are those of the records.
   4. A rearranged report has the same records (`ResultsStep`), so the comparison is
      the same. -/
namespace ArubaCertRenewer
open PyText

/-! ## Sorting -/

section order
variable {α : Type} [LinearOrder α] [DecidableEq α]

theorem lexLe_iff {le : α → α → Bool} (hle : ∀ a b, le a b = true ↔ a ≤ b) :
    ∀ s t : List α, lexLe le s t = true ↔ s ≤ t
  | [], [] => by simp [lexLe]
  | [], b :: t => by
    have hlt : ([] : List α) < b :: t := .nil
    simp [lexLe, hlt.le]
  | a :: s, [] => by
    have hlt : ([] : List α) < a :: s := .nil
    simp [lexLe, hlt.not_ge]
  | a :: s, b :: t => by
    rw [lexLe, le_iff_lt_or_eq, List.cons_lt_cons_iff]
    by_cases h : a = b
    · subst h
      rw [if_pos rfl, lexLe_iff hle s t, le_iff_lt_or_eq]
      simp
    · rw [if_neg h, hle, le_iff_lt_or_eq]
      simp [h]

end order

theorem textLe_iff (s t : Text) : textLe s t = true ↔ s ≤ t :=
  lexLe_iff (fun _ _ => decide_eq_true_iff) s t

theorem fieldsLe_iff (s t : List Text) : lexLe textLe s t = true ↔ s ≤ t := lexLe_iff textLe_iff s t

theorem FindingIdentity.fields_injective {i j : FindingIdentity} (h : i.fields = j.fields) : i = j := by
  cases i
  cases j
  simpa [FindingIdentity.fields] using h

/-- Sorting undoes a permutation when no two members are in both orders. -/
theorem insertionSort_eq {α : Type} {r : α → α → Prop} [DecidableRel r] [Std.Total r]
    [IsTrans α r] {xs ys : List α} (hanti : ∀ a ∈ xs, ∀ b ∈ xs, r a b → r b a → a = b)
    (h : xs.Perm ys) : xs.insertionSort r = ys.insertionSort r := by
  have hperm : (xs.insertionSort r).Perm (ys.insertionSort r) :=
    (List.perm_insertionSort r xs).trans (h.trans (List.perm_insertionSort r ys).symm)
  apply List.Perm.eq_of_pairwise _ (List.pairwise_insertionSort r xs)
    (List.pairwise_insertionSort r ys) hperm
  intro a b ha hb
  apply hanti a ((List.mem_insertionSort r).mp ha)
  exact h.mem_iff.mpr ((List.mem_insertionSort r).mp hb)

def identityLe (i j : FindingIdentity) : Prop := lexLe textLe i.fields j.fields = true

instance : DecidableRel identityLe := fun _ _ => inferInstanceAs (Decidable (_ = true))

instance : Std.Total identityLe where
  total i j := by
    rw [identityLe, identityLe, fieldsLe_iff, fieldsLe_iff]
    exact le_total _ _

instance : IsTrans FindingIdentity identityLe where
  trans i j k := by
    rw [identityLe, identityLe, identityLe, fieldsLe_iff, fieldsLe_iff, fieldsLe_iff]
    exact le_trans

theorem sortedIdentities_eq {ids ids' : List FindingIdentity} (h : ids.Perm ids') :
    sortedIdentities ids = sortedIdentities ids' := by
  apply insertionSort_eq (r := identityLe) _ h
  intro i _ j _ hij hji
  apply FindingIdentity.fields_injective
  exact le_antisymm ((fieldsLe_iff _ _).mp hij) ((fieldsLe_iff _ _).mp hji)

/-- The key of a finding, as the pair it is compared by. -/
def sortsBefore (f g : Finding) : Prop := findingLe f g = true

instance : DecidableRel sortsBefore := fun _ _ => inferInstanceAs (Decidable (_ = true))

theorem sortsBefore_iff (f g : Finding) : sortsBefore f g ↔
    toLex (findingSortKey f) ≤ toLex (findingSortKey g) := by
  rw [sortsBefore, Prod.Lex.toLex_le_toLex, ← fieldsLe_iff]
  unfold findingLe
  by_cases h : (findingSortKey f).1 = (findingSortKey g).1
  · simp [h]
  · simp [h, lt_iff_le_and_ne]

instance : Std.Total sortsBefore where
  total f g := by
    rw [sortsBefore_iff, sortsBefore_iff]
    exact le_total _ _

instance : IsTrans Finding sortsBefore where
  trans f g k := by
    rw [sortsBefore_iff, sortsBefore_iff, sortsBefore_iff]
    exact le_trans

/-- The sort key holds the whole identity. -/
theorem identity_of_sortKey {f g : Finding} (h : findingSortKey f = findingSortKey g) :
    f.identity = g.identity := by
  apply FindingIdentity.fields_injective
  simp only [findingSortKey, Prod.mk.injEq, List.cons.injEq, and_true] at h
  obtain ⟨-, hv, hn, hi, hc, ht, hg, hd, hp⟩ := h
  simp only [FindingIdentity.fields, hv, hn, hi, hc, ht, hg, hd, hp]

theorem sortedFindings_eq {fs gs : List Finding}
    (hid : ∀ f ∈ fs, ∀ g ∈ fs, f.identity = g.identity → f = g) (h : fs.Perm gs) :
    sortedFindings fs = sortedFindings gs := by
  apply insertionSort_eq (r := sortsBefore) _ h
  intro f hf g hg hfg hgf
  apply hid f hf g hg
  apply identity_of_sortKey
  exact toLex_inj.mp (le_antisymm ((sortsBefore_iff f g).mp hfg) ((sortsBefore_iff g f).mp hgf))

/-! ## One comparison for the same findings -/

/-- `compare_reports`, from the findings of the two reports. -/
def compareFindings (dpkg : Dpkg) (derivative upstream : Findings) : Except Text Comparison := do
  invalidWhen
    (derivative.entries.any fun f => (upstream.get? f.identity).any fun g => f != g)
    "shared finding metadata differs between scan reports"
  let derivativeGroups := upgradeCandidates derivative.keys
  let upstreamGroups := upgradeCandidates upstream.keys
  let scopes := sortedIdentities
    ((derivativeGroups.map Prod.fst).filter (upstreamGroups.map Prod.fst).contains)
  let parts ← carryUpgrades dpkg derivative upstream derivativeGroups upstreamGroups
    (initialParts derivative upstream) scopes
  return comparisonOf derivative upstream parts

theorem compareReports_eq (dpkg : Dpkg) (derivativeReport upstreamReport : Json) :
    compareReports dpkg derivativeReport upstreamReport = (do
      let derivative ← normalizeFindings derivativeReport "derivative"
      let upstream ← normalizeFindings upstreamReport "upstream"
      compareFindings dpkg derivative upstream) := rfl

/-- Two readings of the same findings. -/
def SameFindings (fs fs' : Findings) : Prop := fs.entries.Perm fs'.entries

namespace SameFindings
variable {fs fs' : Findings}

theorem keys (h : SameFindings fs fs') : fs.keys.Perm fs'.keys := h.map Finding.identity

theorem get? (h : SameFindings fs fs') : fs.get? = fs'.get? := by
  funext key
  have hback : ∀ {gs gs' : Findings} {f : Finding}, SameFindings gs gs' → gs.get? key = some f →
      gs'.get? key = some f := by
    intro gs gs' f hsame hf
    obtain ⟨hmem, rfl⟩ := Findings.of_get? hf
    exact Findings.get?_identity (hsame.mem_iff.mp hmem)
  cases hfs : fs.get? key with
  | some f => exact (hback h hfs).symm
  | none =>
    cases hfs' : fs'.get? key with
    | none => rfl
    | some f =>
      rw [hback h.symm hfs'] at hfs
      cases hfs

theorem upgradeCandidates_eq (h : SameFindings fs fs') :
    upgradeCandidates fs.keys = upgradeCandidates fs'.keys := by
  rw [upgradeCandidates, upgradeCandidates, sortedIdentities_eq h.keys]

theorem contains_keys (h : SameFindings fs fs') (k : FindingIdentity) :
    fs.keys.contains k = fs'.keys.contains k := by
  rw [Bool.eq_iff_iff, List.contains_iff_mem, List.contains_iff_mem, h.keys.mem_iff]

/-- The findings under the keys of a set are sorted alike. -/
theorem sorted (h : SameFindings fs fs') {keys keys' : List FindingIdentity} (hk : keys.Perm keys') :
    sortedFindings (keys.filterMap fs.get?) = sortedFindings (keys'.filterMap fs'.get?) := by
  rw [← h.get?]
  apply sortedFindings_eq _ (hk.filterMap fs.get?)
  intro f hf g hg hfg
  obtain ⟨k, -, hkf⟩ := List.mem_filterMap.mp hf
  obtain ⟨l, -, hlg⟩ := List.mem_filterMap.mp hg
  rw [← (Findings.of_get? hkf).2, hfg, (Findings.of_get? hlg).2, hlg] at hkf
  exact (Option.some.inj hkf).symm

end SameFindings

/-- The same sets of keys, and the same upgrades. -/
structure SameParts (parts parts' : Parts) : Prop where
  introduced : parts.introduced.Perm parts'.introduced
  inherited : parts.inherited.Perm parts'.inherited
  removed : parts.removed.Perm parts'.removed
  upgrades : parts.upgrades = parts'.upgrades

/-- The same error, or the same parts. -/
inductive SameTurn : Except Text Parts → Except Text Parts → Prop
  | error (message : Text) : SameTurn (.error message) (.error message)
  | ok {parts parts' : Parts} (h : SameParts parts parts') : SameTurn (.ok parts) (.ok parts')

theorem SameTurn.bind {x y : Except Text Parts} {f g : Parts → Except Text Parts} (h : SameTurn x y)
    (hf : ∀ parts parts', SameParts parts parts' → SameTurn (f parts) (g parts')) :
    SameTurn (x >>= f) (y >>= g) := by
  cases h with
  | error message => exact .error message
  | ok hparts => exact hf _ _ hparts

theorem SameTurn.bind_eq {x y : Except Text Parts} {f g : Parts → Except Text Comparison}
    (h : SameTurn x y) (hf : ∀ parts parts', SameParts parts parts' → f parts = g parts') :
    x >>= f = y >>= g := by
  cases h with
  | error message => rfl
  | ok hparts => exact hf _ _ hparts

section same
variable {dpkg : Dpkg} {derivative upstream derivative' upstream' : Findings}
variable {derivativeGroups upstreamGroups : List (FindingIdentity × List FindingIdentity)}

theorem sameParts_initial (hd : SameFindings derivative derivative')
    (hu : SameFindings upstream upstream') :
    SameParts (initialParts derivative upstream) (initialParts derivative' upstream') := by
  have hkeys : ∀ {fs fs' gs gs' : Findings}, SameFindings fs fs' → SameFindings gs gs' →
      ∀ keep : Bool → Bool, (fs.keys.filter fun k => keep (gs.keys.contains k)).Perm
        (fs'.keys.filter fun k => keep (gs'.keys.contains k)) := by
    intro fs fs' gs gs' hf hg keep
    simp only [hg.contains_keys]
    exact hf.keys.filter _
  exact ⟨hkeys hd hu not, hkeys hd hu id, hkeys hu hd not, rfl⟩

theorem sameTurn_carryUpgrade {parts parts' : Parts} {scope : FindingIdentity}
    (hd : SameFindings derivative derivative') (hu : SameFindings upstream upstream')
    (h : SameParts parts parts') :
    SameTurn (carryUpgrade dpkg derivative upstream derivativeGroups upstreamGroups parts scope)
      (carryUpgrade dpkg derivative' upstream' derivativeGroups upstreamGroups parts' scope) := by
  have hcontains : ∀ {xs ys : List FindingIdentity}, xs.Perm ys → ∀ k,
      xs.contains k = ys.contains k := by
    intro xs ys hxy k
    rw [Bool.eq_iff_iff, List.contains_iff_mem, List.contains_iff_mem, hxy.mem_iff]
  unfold carryUpgrade
  rw [← hd.get?, ← hu.get?]
  split
  · next newKey oldKey _ _ =>
    rw [hcontains h.introduced, hcontains h.removed]
    split
    · exact .ok h
    split
    · split
      · exact .ok h
      cases debianVersionIncreased dpkg newKey.installedVersion oldKey.installedVersion with
      | error message => exact .error message
      | ok increased =>
        cases increased with
        | false => exact .ok h
        | true =>
          apply SameTurn.ok
          exact ⟨h.introduced.erase newKey, h.inherited.append_right _, h.removed.erase oldKey,
            congrArg (· ++ _) h.upgrades⟩
    · exact .ok h
  · exact .ok h

theorem sameTurn_carryUpgrades {parts parts' : Parts} (scopes : List FindingIdentity)
    (hd : SameFindings derivative derivative') (hu : SameFindings upstream upstream')
    (h : SameParts parts parts') :
    SameTurn (carryUpgrades dpkg derivative upstream derivativeGroups upstreamGroups parts scopes)
      (carryUpgrades dpkg derivative' upstream' derivativeGroups upstreamGroups parts' scopes) := by
  induction scopes generalizing parts parts' with
  | nil => exact .ok h
  | cons scope scopes ih =>
    rw [carryUpgrades, carryUpgrades]
    exact (sameTurn_carryUpgrade hd hu h).bind fun _ _ hnext => ih hnext

theorem compareFindings_same (hd : SameFindings derivative derivative')
    (hu : SameFindings upstream upstream') :
    compareFindings dpkg derivative upstream = compareFindings dpkg derivative' upstream' := by
  have hany : (derivative.entries.any fun f => (upstream.get? f.identity).any fun g => f != g) =
      derivative'.entries.any fun f => (upstream'.get? f.identity).any fun g => f != g := by
    rw [hu.get?]
    exact hd.any_eq
  unfold compareFindings
  rw [hany, hd.upgradeCandidates_eq, hu.upgradeCandidates_eq]
  congr 1
  funext _
  apply (sameTurn_carryUpgrades _ hd hu (sameParts_initial hd hu)).bind_eq
  intro parts parts' h
  apply congrArg Except.ok
  rw [comparisonOf, comparisonOf, hd.sorted h.introduced, hd.sorted h.inherited,
    hu.sorted h.removed, h.upgrades]

end same

/-! ## What a report records -/

/-- No two findings differ under one identity. -/
def Consistent (found : Set Finding) : Prop :=
  ∀ f ∈ found, ∀ g ∈ found, f.identity = g.identity → f = g

theorem Consistent.mono {found found' : Set Finding} (h : Consistent found') (hsub : found ⊆ found') :
    Consistent found := fun f hf g hg => h f (hsub hf) g (hsub hg)

def Findings.toSet (fs : Findings) : Set Finding := {f | f ∈ fs.entries}

theorem Findings.consistent (fs : Findings) : Consistent fs.toSet := by
  intro f hf g hg hid
  exact List.inj_on_of_nodup_map fs.distinct hf hg hid

/-- From `start`, `x` adds the findings `found`: it succeeds when the input is readable and no two of
all the findings differ under one identity. -/
structure Records (start : Findings) (readable : Prop) (found : Set Finding)
    (x : Except Text Findings) : Prop where
  succeeds : (∃ fs, x = .ok fs) ↔ readable ∧ Consistent (start.toSet ∪ found)
  recorded : ∀ fs, x = .ok fs → fs.toSet = start.toSet ∪ found

section records
variable {fs : Findings} {readable readable' : Prop} {found found' : Set Finding}

theorem records_pure : Records fs True ∅ (.ok fs) := by
  refine ⟨?_, fun fs' h => ?_⟩
  · rw [Set.union_empty]
    exact iff_of_true ⟨fs, rfl⟩ ⟨trivial, fs.consistent⟩
  · cases h
    rw [Set.union_empty]

theorem records_error {message : Text} (h : ¬ readable) : Records fs readable found (.error message) :=
  ⟨iff_of_false (fun ⟨_, he⟩ => by cases he) (fun hr => h hr.1), fun _ he => by cases he⟩

theorem Records.congr {x : Except Text Findings} (h : Records fs readable found x)
    (hr : readable ↔ readable') (hf : found = found') : Records fs readable' found' x := by
  rw [← hf]
  exact ⟨h.succeeds.trans (and_congr_left' hr), h.recorded⟩

theorem Records.bind {x : Except Text Findings} {k : Findings → Except Text Findings}
    (hx : Records fs readable found x)
    (hk : ∀ fs', x = .ok fs' → Records fs' readable' found' (k fs')) :
    Records fs (readable ∧ readable') (found ∪ found') (x >>= k) := by
  have hstep : ∀ fs', x = .ok fs' → fs'.toSet ∪ found' = fs.toSet ∪ (found ∪ found') := by
    intro fs' h
    rw [hx.recorded fs' h, Set.union_assoc]
  refine ⟨⟨fun h => ?_, fun h => ?_⟩, fun fs'' h => ?_⟩
  · obtain ⟨fs'', h⟩ := h
    obtain ⟨fs', hfs', h⟩ := bind_eq_ok.mp h
    obtain ⟨hr, -⟩ := hx.succeeds.mp ⟨fs', hfs'⟩
    obtain ⟨hr', hc⟩ := (hk fs' hfs').succeeds.mp ⟨fs'', h⟩
    rw [hstep fs' hfs'] at hc
    exact ⟨⟨hr, hr'⟩, hc⟩
  · obtain ⟨⟨hr, hr'⟩, hc⟩ := h
    have hsub : fs.toSet ∪ found ⊆ fs.toSet ∪ (found ∪ found') :=
      Set.union_subset_union_right _ Set.subset_union_left
    obtain ⟨fs', hfs'⟩ := hx.succeeds.mpr ⟨hr, hc.mono hsub⟩
    rw [← hstep fs' hfs'] at hc
    obtain ⟨fs'', hfs''⟩ := (hk fs' hfs').succeeds.mpr ⟨hr', hc⟩
    exact ⟨fs'', bind_eq_ok.mpr ⟨fs', hfs', hfs''⟩⟩
  · obtain ⟨fs', hfs', h⟩ := bind_eq_ok.mp h
    rw [(hk fs' hfs').recorded fs'' h, hstep fs' hfs']

/-- What is read before anything is recorded. -/
theorem Records.read {α : Type} {y : Except Text α} {k : α → Except Text Findings}
    (hy : readable → ∃ a, y = .ok a) (hk : ∀ a, y = .ok a → Records fs readable found (k a)) :
    Records fs readable found (y >>= k) := by
  cases y with
  | ok a => exact hk a rfl
  | error message =>
    apply records_error
    intro h
    obtain ⟨a, ha⟩ := hy h
    cases ha

theorem records_recordFinding (role : Text) (f : Finding) :
    Records fs True {f} (recordFinding role fs f) := by
  unfold recordFinding
  split
  · next hnone =>
    have hset : (fs.add f hnone).toSet = fs.toSet ∪ {f} := by
      ext g
      simp [Findings.toSet, Findings.add, or_comm]
    refine ⟨iff_of_true ⟨_, rfl⟩ ⟨trivial, ?_⟩, fun fs' h => ?_⟩
    · rw [← hset]
      exact Findings.consistent _
    · cases h
      exact hset
  · next previous hprevious =>
    obtain ⟨hmem, hid⟩ := Findings.of_get? hprevious
    split
    · next heq =>
      subst heq
      have hsub : {previous} ⊆ fs.toSet := Set.singleton_subset_iff.mpr hmem
      have hset : fs.toSet = fs.toSet ∪ {previous} :=
        (Set.union_eq_self_of_subset_right hsub).symm
      refine ⟨iff_of_true ⟨_, rfl⟩ ⟨trivial, ?_⟩, fun fs' h => ?_⟩
      · rw [← hset]
        exact fs.consistent
      · cases h
        exact hset
    · next hne =>
      refine ⟨iff_of_false (fun ⟨_, he⟩ => by cases he) fun h => hne ?_, fun fs' h => by cases h⟩
      exact h.2 previous (.inl hmem) f (.inr rfl) hid

/-- What findings of a result have in common. -/
structure ResultContext where
  resultClass : Text
  resultType : Text
  target : Text

/-- One entry of `Vulnerabilities` gives this finding. -/
def VulnerabilityReads (role : Text) (context : ResultContext) (v : Json) (f : Finding) : Prop :=
  ∃ vulnerability, v = .obj vulnerability ∧
    normalizeVulnerability role context.resultClass context.resultType context.target vulnerability =
      .ok f

theorem records_normalizeVulnerabilities (role : Text) (resultIndex : Nat) (context : ResultContext)
    (findingIndex : Nat) (fs : Findings) (vs : List Json) :
    Records fs (∀ v ∈ vs, ∃ f, VulnerabilityReads role context v f)
      {f | ∃ v ∈ vs, VulnerabilityReads role context v f}
      (normalizeVulnerabilities role resultIndex context.resultClass context.resultType
        context.target findingIndex fs vs) := by
  induction vs generalizing findingIndex fs with
  | nil =>
    apply records_pure.congr
    · simp
    · simp
  | cons v vs ih =>
    by_cases hv : ∃ vulnerability, v = .obj vulnerability
    · obtain ⟨vulnerability, rfl⟩ := hv
      apply Records.read
      · intro h
        obtain ⟨f, _, hobj, hf⟩ := h _ (List.mem_cons_self ..)
        cases hobj
        exact ⟨f, hf⟩
      intro f hf
      have hreads : ∀ g, VulnerabilityReads role context (.obj vulnerability) g ↔ g = f := by
        intro g
        constructor
        · intro hg
          obtain ⟨_, hobj, hg⟩ := hg
          cases hobj
          exact Except.ok.inj (hg.symm.trans hf)
        · intro hg
          exact ⟨vulnerability, rfl, hg ▸ hf⟩
      apply ((records_recordFinding role f).bind fun fs' _ => ih (findingIndex + 1) fs').congr
      · simp [hreads]
      · ext g
        simp [hreads]
    · have herror : ∃ message, normalizeVulnerabilities role resultIndex context.resultClass
          context.resultType context.target findingIndex fs (v :: vs) = .error message := by
        cases v with
        | obj vulnerability => exact absurd ⟨vulnerability, rfl⟩ hv
        | null | bool _ | int _ | float _ | str _ | arr _ => exact ⟨_, rfl⟩
      obtain ⟨message, herror⟩ := herror
      rw [herror]
      apply records_error
      intro h
      obtain ⟨_, vulnerability, hobj, -⟩ := h v (List.mem_cons_self ..)
      exact hv ⟨vulnerability, hobj⟩

/-- The `Target`, `Class` and `Type` of a result, on an image with the operating system `os`. -/
def resultContext (os : Except Text Text) (result : List (Text × Json)) : Except Text ResultContext := do
  let target ← requiredText (jsonField result "Target") "result Target"
  let resultClass ← requiredText (jsonField result "Class") "result Class"
  let resultType ← requiredText (jsonField result "Type") "result Type"
  let stableTarget ← if resultClass == "os-pkgs".toList then os else .ok target
  return ⟨resultClass, resultType, stableTarget⟩

/-- `result.get("Vulnerabilities", [])`, when it is an array. -/
def resultVulnerabilities (result : List (Text × Json)) : Option (List Json) :=
  match jsonField result "Vulnerabilities" with
  | none => some []
  | some (.arr vulnerabilities) => some vulnerabilities
  | some _ => none

/-- The result can be read, with this context and these vulnerabilities. -/
def ResultReads (os : Except Text Text) (r : Json) (context : ResultContext) (vs : List Json) : Prop :=
  ∃ result, r = .obj result ∧ resultContext os result = .ok context ∧
    resultVulnerabilities result = some vs

def ResultReadable (os : Except Text Text) (role : Text) (r : Json) : Prop :=
  ∃ context vs, ResultReads os r context vs ∧ ∀ v ∈ vs, ∃ f, VulnerabilityReads role context v f

def resultFindings (os : Except Text Text) (role : Text) (r : Json) : Set Finding :=
  {f | ∃ context vs, ResultReads os r context vs ∧ ∃ v ∈ vs, VulnerabilityReads role context v f}

/-- The findings of a result whose context has been read. -/
def normalizeContents (role : Text) (resultIndex : Nat) (normalized : Findings)
    (result : List (Text × Json)) (context : ResultContext) : Except Text Findings :=
  match jsonField result "Vulnerabilities" with
  | none => .ok normalized
  | some (.arr vulnerabilities) =>
    normalizeVulnerabilities role resultIndex context.resultClass context.resultType context.target 0
      normalized vulnerabilities
  | some _ =>
    .error (role ++ " result " ++ ofNat resultIndex ++ " Vulnerabilities must be an array")

theorem normalizeResult_eq (report : List (Text × Json)) (role : Text) (resultIndex : Nat)
    (normalized : Findings) (result : List (Text × Json)) :
    normalizeResult report role resultIndex normalized result =
      resultContext (osTarget report) result >>= normalizeContents role resultIndex normalized result := by
  simp only [normalizeResult, resultContext, bind_assoc]
  congr 1
  funext target
  congr 1
  funext resultClass
  congr 1
  funext resultType
  split
  · rw [bind_assoc]
    rfl
  · rfl

theorem records_normalizeResult (report : List (Text × Json)) (role : Text) (resultIndex : Nat)
    (fs : Findings) (result : List (Text × Json)) :
    Records fs (ResultReadable (osTarget report) role (.obj result))
      (resultFindings (osTarget report) role (.obj result))
      (normalizeResult report role resultIndex fs result) := by
  rw [normalizeResult_eq]
  apply Records.read
  · intro h
    obtain ⟨context, _, ⟨_, hobj, hcontext, -⟩, -⟩ := h
    cases hobj
    exact ⟨context, hcontext⟩
  intro context hcontext
  have hreads : ∀ context' vs, ResultReads (osTarget report) (.obj result) context' vs ↔
      context' = context ∧ resultVulnerabilities result = some vs := by
    intro context' vs
    constructor
    · intro h
      obtain ⟨_, hobj, h, hvs⟩ := h
      cases hobj
      exact ⟨Except.ok.inj (h.symm.trans hcontext), hvs⟩
    · intro h
      exact ⟨result, rfl, h.1 ▸ hcontext, h.2⟩
  simp only [ResultReadable, resultFindings, hreads]
  unfold normalizeContents resultVulnerabilities
  split
  · apply records_pure.congr
    · simp
    · simp
  · next vs _ =>
    apply (records_normalizeVulnerabilities role resultIndex context 0 fs vs).congr
    · simp
    · simp
  · apply records_error
    simp

theorem records_normalizeResults (report : List (Text × Json)) (role : Text) (resultIndex : Nat)
    (fs : Findings) (results : List Json) :
    Records fs (∀ r ∈ results, ResultReadable (osTarget report) role r)
      {f | ∃ r ∈ results, f ∈ resultFindings (osTarget report) role r}
      (normalizeResults report role resultIndex fs results) := by
  induction results generalizing resultIndex fs with
  | nil =>
    apply records_pure.congr
    · simp
    · simp
  | cons r results ih =>
    by_cases hr : ∃ result, r = .obj result
    · obtain ⟨result, rfl⟩ := hr
      apply ((records_normalizeResult report role resultIndex fs result).bind fun fs' _ =>
        ih (resultIndex + 1) fs').congr
      · simp
      · ext f
        simp
    · have herror : ∃ message, normalizeResults report role resultIndex fs (r :: results) =
          .error message := by
        cases r with
        | obj result => exact absurd ⟨result, rfl⟩ hr
        | null | bool _ | int _ | float _ | str _ | arr _ => exact ⟨_, rfl⟩
      obtain ⟨message, herror⟩ := herror
      rw [herror]
      apply records_error
      intro h
      obtain ⟨_, _, ⟨result, hobj, -⟩, -⟩ := h r (List.mem_cons_self ..)
      exact hr ⟨result, hobj⟩

/-- What is checked before the results. -/
def HeaderOk (report : List (Text × Json)) : Prop :=
  isSchemaVersion (jsonField report "SchemaVersion") = true ∧
    isText (jsonField report "ArtifactType") "container_image" = true

theorem records_normalizeFindings {report : List (Text × Json)} {results : List Json} (role : Text)
    (h : jsonField report "Results" = some (.arr results)) :
    Records Findings.none
      (HeaderOk report ∧ results ≠ [] ∧ ∀ r ∈ results, ResultReadable (osTarget report) role r)
      {f | ∃ r ∈ results, f ∈ resultFindings (osTarget report) role r}
      (normalizeFindings (.obj report) role) := by
  unfold normalizeFindings
  apply Records.read
  · intro hok
    exact ⟨(), invalidWhen_eq_ok.mpr (by rw [hok.1.1]; rfl)⟩
  intro _ hversion
  apply Records.read
  · intro hok
    exact ⟨(), invalidWhen_eq_ok.mpr (by rw [hok.1.2]; rfl)⟩
  intro _ htype
  rw [invalidWhen_eq_ok, Bool.not_eq_false'] at hversion htype
  rw [h]
  cases results with
  | nil => exact records_error fun hok => hok.2.1 rfl
  | cons r results =>
    apply (records_normalizeResults report role 0 Findings.none (r :: results)).congr _ rfl
    exact ⟨fun hall => ⟨⟨hversion, htype⟩, List.cons_ne_nil r results, hall⟩, fun hok => hok.2.2⟩

end records

/-! ## Rearranged reports -/

/-- Two readings that both fail, or are of the same findings. -/
structure SameReading (x y : Except Text Findings) : Prop where
  succeeds : (∃ fs, x = .ok fs) ↔ ∃ fs, y = .ok fs
  same : ∀ fs fs', x = .ok fs → y = .ok fs' → SameFindings fs fs'

theorem sameFindings_of_toSet {fs fs' : Findings} (h : fs.toSet = fs'.toSet) : SameFindings fs fs' := by
  apply (List.perm_ext_iff_of_nodup fs.nodup_entries fs'.nodup_entries).mpr
  intro f
  exact Set.ext_iff.mp h f

namespace SameReading
variable {x y z : Except Text Findings}

theorem refl (x : Except Text Findings) : SameReading x x := by
  refine ⟨Iff.rfl, fun fs fs' h h' => ?_⟩
  cases h.symm.trans h'
  exact List.Perm.refl _

theorem symm (h : SameReading x y) : SameReading y x :=
  ⟨h.succeeds.symm, fun fs fs' hy hx => (h.same fs' fs hx hy).symm⟩

theorem trans (h : SameReading x y) (h' : SameReading y z) : SameReading x z := by
  refine ⟨h.succeeds.trans h'.succeeds, fun fs fs'' hx hz => ?_⟩
  obtain ⟨fs', hy⟩ := h.succeeds.mp ⟨fs, hx⟩
  exact (h.same fs fs' hx hy).trans (h'.same fs' fs'' hy hz)

/-- What is done with the findings is the same. -/
theorem bind {α : Type} {f g : Findings → Except Text α} (h : SameReading x y)
    (hf : ∀ fs fs', SameFindings fs fs' → (f fs).toOption = (g fs').toOption) :
    (x >>= f).toOption = (y >>= g).toOption := by
  cases x with
  | ok fs =>
    obtain ⟨fs', rfl⟩ := h.succeeds.mp ⟨fs, rfl⟩
    exact hf fs fs' (h.same fs fs' rfl rfl)
  | error message =>
    cases y with
    | error message' => rfl
    | ok fs' =>
      obtain ⟨fs, hfs⟩ := h.succeeds.mpr ⟨fs', rfl⟩
      cases hfs

theorem of_records {start : Findings} {readable readable' : Prop} {found found' : Set Finding}
    (hx : Records start readable found x) (hy : Records start readable' found' y)
    (hr : readable ↔ readable') (hf : found = found') : SameReading x y := by
  subst hf
  refine ⟨?_, fun fs fs' h h' => ?_⟩
  · rw [hx.succeeds, hy.succeeds, hr]
  · apply sameFindings_of_toSet
    rw [hx.recorded fs h, hy.recorded fs' h']

end SameReading

/-- The vulnerabilities of a result in another order, or one of them once more. -/
inductive RecordsStep : List Json → List Json → Prop
  | permute {vs vs' : List Json} (h : vs.Perm vs') : RecordsStep vs vs'
  | again (before : List Json) (v : Json) (after : List Json) :
    RecordsStep (before ++ v :: after) (before ++ v :: v :: after)

/-- Results with the same `Target`, `Class` and `Type`. -/
structure SameContext (result result' : List (Text × Json)) : Prop where
  target : jsonField result "Target" = jsonField result' "Target"
  resultClass : jsonField result "Class" = jsonField result' "Class"
  resultType : jsonField result "Type" = jsonField result' "Type"

/-- One rearrangement of the results of a report. -/
inductive ResultsStep : List Json → List Json → Prop
  /-- The results in another order. -/
  | permute {results results' : List Json} (h : results.Perm results') : ResultsStep results results'
  /-- A result once more. -/
  | again (before : List Json) (r : Json) (after : List Json) :
    ResultsStep (before ++ r :: after) (before ++ r :: r :: after)
  /-- The vulnerabilities of one result rearranged. -/
  | inside {result result' : List (Text × Json)} {vs vs' : List Json} (before after : List Json)
    (context : SameContext result result') (hvs : resultVulnerabilities result = some vs)
    (hvs' : resultVulnerabilities result' = some vs') (h : RecordsStep vs vs') :
    ResultsStep (before ++ .obj result :: after) (before ++ .obj result' :: after)
  /-- The vulnerabilities of one result divided between two. -/
  | split {result left right : List (Text × Json)} {vs ws : List Json} (before after : List Json)
    (contextLeft : SameContext result left) (contextRight : SameContext result right)
    (hvs : resultVulnerabilities result = some (vs ++ ws))
    (hleft : resultVulnerabilities left = some vs) (hright : resultVulnerabilities right = some ws) :
    ResultsStep (before ++ .obj result :: after) (before ++ .obj left :: .obj right :: after)

/-- A report with its results rearranged once. Its other fields that are read are kept. -/
inductive ReportStep : Json → Json → Prop
  | results {report report' : List (Text × Json)} {results results' : List Json}
    (version : jsonField report "SchemaVersion" = jsonField report' "SchemaVersion")
    (artifactType : jsonField report "ArtifactType" = jsonField report' "ArtifactType")
    (metadata : jsonField report "Metadata" = jsonField report' "Metadata")
    (hresults : jsonField report "Results" = some (.arr results))
    (hresults' : jsonField report' "Results" = some (.arr results'))
    (h : ResultsStep results results') : ReportStep (.obj report) (.obj report')

/-- One report is the other after any number of rearrangements, forth or back. -/
def Rearranged : Json → Json → Prop := Relation.EqvGen ReportStep

theorem RecordsStep.mem_iff {vs vs' : List Json} (h : RecordsStep vs vs') (v : Json) :
    v ∈ vs ↔ v ∈ vs' := by
  cases h with
  | permute h => exact h.mem_iff
  | again before v after => simp

section steps
variable {os : Except Text Text} {role : Text}

theorem resultContext_same {result result' : List (Text × Json)} (h : SameContext result result') :
    resultContext os result = resultContext os result' := by
  rw [resultContext, resultContext, h.target, h.resultClass, h.resultType]

/-- A result of this context with these vulnerabilities. -/
theorem resultReadable_iff {result : List (Text × Json)} {vs : List Json}
    (hvs : resultVulnerabilities result = some vs) :
    ResultReadable os role (.obj result) ↔ ∃ context, resultContext os result = .ok context ∧
      ∀ v ∈ vs, ∃ f, VulnerabilityReads role context v f := by
  constructor
  · intro h
    obtain ⟨context, vs', ⟨_, hobj, hcontext, hvs'⟩, hall⟩ := h
    cases hobj
    cases hvs.symm.trans hvs'
    exact ⟨context, hcontext, hall⟩
  · intro h
    obtain ⟨context, hcontext, hall⟩ := h
    exact ⟨context, vs, ⟨result, rfl, hcontext, hvs⟩, hall⟩

theorem mem_resultFindings {result : List (Text × Json)} {vs : List Json} {f : Finding}
    (hvs : resultVulnerabilities result = some vs) :
    f ∈ resultFindings os role (.obj result) ↔ ∃ context, resultContext os result = .ok context ∧
      ∃ v ∈ vs, VulnerabilityReads role context v f := by
  constructor
  · intro h
    obtain ⟨context, vs', ⟨_, hobj, hcontext, hvs'⟩, hfound⟩ := h
    cases hobj
    cases hvs.symm.trans hvs'
    exact ⟨context, hcontext, hfound⟩
  · intro h
    obtain ⟨context, hcontext, hfound⟩ := h
    exact ⟨context, vs, ⟨result, rfl, hcontext, hvs⟩, hfound⟩

/-- What is read of some results: whether all can be, and their findings. -/
def SameRead (os : Except Text Text) (role : Text) (results results' : List Json) : Prop :=
  ((∀ r ∈ results, ResultReadable os role r) ↔ ∀ r ∈ results', ResultReadable os role r) ∧
    ∀ f, (∃ r ∈ results, f ∈ resultFindings os role r) ↔ ∃ r ∈ results', f ∈ resultFindings os role r

theorem SameRead.of_mem_iff {results results' : List Json} (h : ∀ r, r ∈ results ↔ r ∈ results') :
    SameRead os role results results' := by
  simp only [SameRead, h, implies_true, and_self]

/-- Some results in the place of one. -/
theorem SameRead.inside (before middle middle' after : List Json)
    (h : SameRead os role middle middle') :
    SameRead os role (before ++ (middle ++ after)) (before ++ (middle' ++ after)) := by
  obtain ⟨hreadable, hfindings⟩ := h
  constructor
  · simp only [List.forall_mem_append, hreadable]
  · intro f
    simp only [List.mem_append, or_and_right, exists_or, hfindings f]

theorem SameRead.of_step {results results' : List Json} (h : ResultsStep results results') :
    SameRead os role results results' := by
  cases h with
  | permute h => exact .of_mem_iff fun r => h.mem_iff
  | again before r after => exact .of_mem_iff fun r => by simp
  | @inside result result' vs vs' before after context hvs hvs' h =>
    apply SameRead.inside before [.obj result] [.obj result'] after
    refine ⟨?_, fun f => ?_⟩
    · simp only [List.forall_mem_singleton, resultReadable_iff hvs, resultReadable_iff hvs',
        resultContext_same context, h.mem_iff]
    · simp only [List.mem_singleton, exists_eq_left, mem_resultFindings hvs, mem_resultFindings hvs',
        resultContext_same context, h.mem_iff]
  | @split result left right vs ws before after contextLeft contextRight hvs hleft hright =>
    apply SameRead.inside before [.obj result] [.obj left, .obj right] after
    refine ⟨?_, fun f => ?_⟩
    · simp only [List.forall_mem_cons, resultReadable_iff hvs, resultReadable_iff hleft,
        resultReadable_iff hright, ← resultContext_same contextLeft,
        ← resultContext_same contextRight, List.forall_mem_append]
      cases resultContext os result with
      | error message => simp
      | ok context => simp
    · simp only [List.mem_cons, List.not_mem_nil, or_false, exists_eq_left,
        mem_resultFindings hvs, mem_resultFindings hleft, mem_resultFindings hright,
        ← resultContext_same contextLeft, ← resultContext_same contextRight, List.mem_append,
        or_and_right, exists_or]
      cases resultContext os result with
      | error message => simp
      | ok context => simp

end steps

theorem ResultsStep.ne_nil_iff {results results' : List Json} (h : ResultsStep results results') :
    results ≠ [] ↔ results' ≠ [] := by
  cases h with
  | permute h => exact not_congr ⟨fun he => (he ▸ h).nil_eq.symm, fun he => (he ▸ h).eq_nil⟩
  | again before r after => simp
  | inside before after _ _ _ _ => simp
  | split before after _ _ _ _ _ => simp

theorem osTarget_same {report report' : List (Text × Json)}
    (h : jsonField report "Metadata" = jsonField report' "Metadata") :
    osTarget report = osTarget report' := by
  rw [osTarget, osTarget, h]

theorem sameReading_step {report report' : Json} (role : Text) (h : ReportStep report report') :
    SameReading (normalizeFindings report role) (normalizeFindings report' role) := by
  cases h with
  | results version artifactType metadata hresults hresults' h =>
    obtain ⟨hreadable, hfindings⟩ : SameRead (osTarget _) role _ _ := SameRead.of_step h
    apply SameReading.of_records (records_normalizeFindings role hresults)
      (records_normalizeFindings role hresults')
    · rw [HeaderOk, HeaderOk, version, artifactType, h.ne_nil_iff, hreadable, osTarget_same metadata]
    · rw [← osTarget_same metadata]
      exact Set.ext hfindings

theorem sameReading_rearranged {report report' : Json} (role : Text) (h : Rearranged report report') :
    SameReading (normalizeFindings report role) (normalizeFindings report' role) := by
  induction h with
  | rel _ _ h => exact sameReading_step role h
  | refl _ => exact .refl _
  | symm _ _ _ ih => exact ih.symm
  | trans _ _ _ _ _ ih ih' => exact ih.trans ih'

/-- Reports whose results or vulnerabilities are in another order, divided otherwise or repeated are
compared alike: the comparison fails for both pairs, or is the same one. -/
theorem comparison_order_independent (dpkg : Dpkg) {derivative derivative' upstream upstream' : Json}
    (hd : Rearranged derivative derivative') (hu : Rearranged upstream upstream') :
    (compareReports dpkg derivative upstream).toOption =
      (compareReports dpkg derivative' upstream').toOption := by
  rw [compareReports_eq, compareReports_eq]
  apply (sameReading_rearranged "derivative" hd).bind
  intro fs fs' hsame
  apply (sameReading_rearranged "upstream" hu).bind
  intro gs gs' hsame'
  rw [compareFindings_same hsame hsame']

/-- A report of the image with these results. -/
def reportOf (results : List Json) : Json :=
  .obj [("SchemaVersion", .int 2), ("ArtifactType", .str "container_image"),
    ("Metadata", .obj [("OS", .obj [("Family", .str "debian"), ("Name", .str "13.0")])]),
    ("Results", .arr results)]

def opensslResult (vulnerabilities : List Json) : List (Text × Json) :=
  [("Target", .str "image (debian 13.0)"), ("Class", .str "os-pkgs"), ("Type", .str "debian"),
    ("Vulnerabilities", .arr vulnerabilities)]

def opensslVulnerability (vulnerabilityId installedVersion : Text) : Json :=
  .obj [("Severity", .str "HIGH"), ("VulnerabilityID", .str vulnerabilityId),
    ("PkgName", .str "openssl"), ("PkgID", .str ("openssl@" ++ installedVersion)),
    ("InstalledVersion", .str installedVersion), ("FixedVersion", .str "3.5.2-1")]

def siteLeft : Json := opensslVulnerability "CVE-2026-0001" "3.5.1-1"
def siteRight : Json := opensslVulnerability "CVE-2026-0002" "3.5.1-1"

theorem reportOf_step {results results' : List Json} (h : ResultsStep results results') :
    Rearranged (reportOf results) (reportOf results') := .rel _ _ (.results rfl rfl rfl rfl rfl h)

/-- One result divided in two, in the other order. -/
theorem rearranged_site : Rearranged (reportOf [.obj (opensslResult [siteLeft, siteRight])])
    (reportOf [.obj (opensslResult [siteRight]), .obj (opensslResult [siteLeft])]) := by
  have hcontext : ∀ vs ws, SameContext (opensslResult vs) (opensslResult ws) :=
    fun _ _ => ⟨rfl, rfl, rfl⟩
  apply Relation.EqvGen.trans _
    (reportOf [.obj (opensslResult [siteLeft]), .obj (opensslResult [siteRight])])
  · exact reportOf_step (.split [] [] (hcontext _ _) (hcontext _ _) rfl rfl rfl)
  · exact reportOf_step (.permute (List.Perm.swap _ _ _))

theorem comparison_order_independent_site :
    (compareReports siteDpkg (reportOf [.obj (opensslResult [siteLeft, siteRight])])
      (siteReport "3.5.0-1")).toOption =
    (compareReports siteDpkg
      (reportOf [.obj (opensslResult [siteRight]), .obj (opensslResult [siteLeft])])
      (siteReport "3.5.0-1")).toOption :=
  comparison_order_independent siteDpkg rearranged_site (.refl _)

end ArubaCertRenewer
