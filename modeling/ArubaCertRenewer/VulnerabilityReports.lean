import ArubaCertRenewer.Identity
import ArubaCertRenewer.Regex
import Mathlib.Data.List.Sort

/- The vulnerability gate of the container images, `compare_container_vulnerabilities.py`.

   Two Trivy reports are read into findings, each under the identity of its
   component. A finding of both images is inherited, one of the derivative alone
   is introduced, unless its package is a newer version of one that the upstream
   image has with the same finding. An `InvalidReportError` is its message. -/
namespace ArubaCertRenewer
open PyText

/-- `if b: raise InvalidReportError(message)`. -/
def invalidWhen (b : Bool) (message : Text) : Except Text Unit := if b then .error message else .ok ()

@[simp] theorem invalidWhen_eq_ok {b : Bool} {message : Text} {u : Unit} :
    invalidWhen b message = .ok u ↔ b = false := by
  cases b <;> simp [invalidWhen]

/-! Findings. -/

structure FindingIdentity where
  resultClass : Text
  resultType : Text
  target : Text
  vulnerabilityId : Text
  packageName : Text
  packageId : Text
  packagePath : Text
  installedVersion : Text
  deriving DecidableEq, Repr

structure Finding where
  identity : FindingIdentity
  severity : Text
  fixedVersion : Text
  deriving DecidableEq, Repr

structure PackageUpgrade where
  upstream : Finding
  derivative : Finding
  deriving DecidableEq, Repr

/-- A reviewed exception. The texts of its review are not read here. -/
structure ImageException where
  identifier : Text
  upstreamImage : Text
  platform : Text
  finding : Finding
  deriving DecidableEq, Repr

structure Comparison where
  introduced : List Finding
  inherited : List Finding
  removed : List Finding
  accepted : List ImageException
  packageUpgrades : List PackageUpgrade
  deriving DecidableEq, Repr

namespace Comparison

def unexceptedFixable (c : Comparison) : List Finding :=
  c.inherited.filter fun finding =>
    !finding.fixedVersion.isEmpty && !(c.accepted.map ImageException.finding).contains finding

def blocked (c : Comparison) : Bool := !c.introduced.isEmpty || !c.unexceptedFixable.isEmpty

end Comparison

/-- The findings of a report by identity, in the order they were first met. -/
structure Findings where
  entries : List Finding
  distinct : (entries.map Finding.identity).Nodup

namespace Findings

def keys (fs : Findings) : List FindingIdentity := fs.entries.map Finding.identity

def get? (fs : Findings) (key : FindingIdentity) : Option Finding :=
  fs.entries.find? (·.identity == key)

theorem distinct_nil : (([] : List Finding).map Finding.identity).Nodup := List.nodup_nil

def none : Findings := ⟨[], distinct_nil⟩

theorem distinct_add {fs : Findings} {f : Finding} (h : fs.get? f.identity = Option.none) :
    ((fs.entries ++ [f]).map Finding.identity).Nodup := by
  rw [List.map_append, List.nodup_append]
  refine ⟨fs.distinct, by simp, fun k hk l hl he => ?_⟩
  obtain ⟨g, hg, rfl⟩ := List.mem_map.mp hk
  rw [List.map_singleton, List.mem_singleton] at hl
  have := List.find?_eq_none.mp h g hg
  simp [he, hl] at this

def add (fs : Findings) (f : Finding) (h : fs.get? f.identity = Option.none) : Findings :=
  ⟨fs.entries ++ [f], distinct_add h⟩

end Findings

/-! Reading a report. -/

/-- `members.get(key)`. -/
def jsonField (members : List (Text × Json)) (key : Text) : Option Json := members.lookup key

def requiredText (value : Option Json) (description : Text) : Except Text Text :=
  match value with
  | some (.str (c :: t)) => .ok (c :: t)
  | _ => .error (description ++ " must be non-empty text")

def optionalText (container : List (Text × Json)) (key description : Text) : Except Text Text :=
  match jsonField container key with
  | none => .ok []
  | some (.str t) => .ok t
  | some _ => .error (description ++ " must be text when present")

/-- `_os_target`: the operating system of the image, which both scans share. -/
def osTarget (report : List (Text × Json)) : Except Text Text := do
  match jsonField report "Metadata" with
  | some (.obj metadata) =>
    match jsonField metadata "OS" with
    | some (.obj operatingSystem) =>
      let family ← requiredText (jsonField operatingSystem "Family") "Metadata.OS.Family"
      let name ← requiredText (jsonField operatingSystem "Name") "Metadata.OS.Name"
      return "os:" ++ family ++ "/" ++ name
    | _ => .error "OS findings require object Metadata.OS"
  | _ => .error "OS findings require object Metadata"

def blockingSeverities : List Text := ["HIGH", "CRITICAL"]

/-- The finding of one `Vulnerabilities` entry of a result. -/
def normalizeVulnerability (role resultClass resultType target : Text)
    (vulnerability : List (Text × Json)) : Except Text Finding := do
  let severity ← requiredText (jsonField vulnerability "Severity") "finding Severity"
  invalidWhen (!blockingSeverities.contains severity)
    (role ++ " report contains a finding outside the requested HIGH/CRITICAL severity scope")
  let vulnerabilityId ← requiredText (jsonField vulnerability "VulnerabilityID") "finding VulnerabilityID"
  let packageName ← requiredText (jsonField vulnerability "PkgName") "finding PkgName"
  let packageId ← optionalText vulnerability "PkgID" "finding PkgID"
  let packagePath ← optionalText vulnerability "PkgPath" "finding PkgPath"
  let installedVersion ←
    requiredText (jsonField vulnerability "InstalledVersion") "finding InstalledVersion"
  let fixedVersion ← optionalText vulnerability "FixedVersion" "finding FixedVersion"
  return ⟨⟨resultClass, resultType, target, vulnerabilityId, packageName, packageId, packagePath,
    installedVersion⟩, severity, fixedVersion⟩

/-- `normalized[identity] = finding`, unless another finding is there. -/
def recordFinding (role : Text) (normalized : Findings) (finding : Finding) : Except Text Findings :=
  match h : normalized.get? finding.identity with
  | none => .ok (normalized.add finding h)
  | some previous =>
    if previous = finding then .ok normalized
    else .error (role ++ " report contains conflicting duplicate findings")

def normalizeVulnerabilities (role : Text) (resultIndex : Nat)
    (resultClass resultType target : Text) :
    Nat → Findings → List Json → Except Text Findings
  | _, normalized, [] => .ok normalized
  | findingIndex, normalized, .obj vulnerability :: rest => do
    let finding ← normalizeVulnerability role resultClass resultType target vulnerability
    let normalized ← recordFinding role normalized finding
    normalizeVulnerabilities role resultIndex resultClass resultType target (findingIndex + 1)
      normalized rest
  | findingIndex, _, _ :: _ =>
    .error (role ++ " result " ++ ofNat resultIndex ++ " finding " ++ ofNat findingIndex ++
      " must be an object")

/-- The findings of one result, recorded. -/
def normalizeResult (report : List (Text × Json)) (role : Text) (resultIndex : Nat)
    (normalized : Findings) (result : List (Text × Json)) : Except Text Findings := do
  let target ← requiredText (jsonField result "Target") "result Target"
  let resultClass ← requiredText (jsonField result "Class") "result Class"
  let resultType ← requiredText (jsonField result "Type") "result Type"
  let stableTarget ← if resultClass == "os-pkgs".toList then osTarget report else .ok target
  match jsonField result "Vulnerabilities" with
  | none => return normalized
  | some (.arr vulnerabilities) =>
    normalizeVulnerabilities role resultIndex resultClass resultType stableTarget 0 normalized
      vulnerabilities
  | some _ =>
    .error (role ++ " result " ++ ofNat resultIndex ++ " Vulnerabilities must be an array")

def normalizeResults (report : List (Text × Json)) (role : Text) :
    Nat → Findings → List Json → Except Text Findings
  | _, normalized, [] => .ok normalized
  | resultIndex, normalized, .obj result :: rest => do
    let normalized ← normalizeResult report role resultIndex normalized result
    normalizeResults report role (resultIndex + 1) normalized rest
  | resultIndex, _, _ :: _ =>
    .error (role ++ " result " ++ ofNat resultIndex ++ " must be an object")

/-- `schema_version == 2`, which a float that is 2 also is. -/
def isSchemaVersion : Option Json → Bool
  | some (.int n) => n == 2
  | some (.float printed) => printed == "2.0".toList
  | _ => false

def isText (value : Option Json) (t : Text) : Bool :=
  match value with
  | some (.str s) => s == t
  | _ => false

def normalizeFindings (report : Json) (role : Text) : Except Text Findings := do
  match report with
  | .obj members =>
    invalidWhen (!isSchemaVersion (jsonField members "SchemaVersion"))
      (role ++ " report does not use Trivy schema version 2")
    invalidWhen (!isText (jsonField members "ArtifactType") "container_image")
      (role ++ " report is not a container-image report")
    match jsonField members "Results" with
    | none => .error (role ++ " report is missing Results")
    | some (.arr []) => .error (role ++ " report Results must not be empty")
    | some (.arr results) => normalizeResults members role 0 Findings.none results
    | some _ => .error (role ++ " report Results must be an array")
  | _ => .error (role ++ " report must be a JSON object")

/-! Orders. -/

/-- `a <= b` of sequences. -/
def lexLe {α : Type} [DecidableEq α] (le : α → α → Bool) : List α → List α → Bool
  | [], _ => true
  | _ :: _, [] => false
  | a :: s, b :: t => if a = b then lexLe le s t else le a b

def textLe : Text → Text → Bool := lexLe fun c d => c ≤ d

/-- The fields of an identity, in order. -/
def FindingIdentity.fields (i : FindingIdentity) : List Text :=
  [i.resultClass, i.resultType, i.target, i.vulnerabilityId, i.packageName, i.packageId,
   i.packagePath, i.installedVersion]

/-- `sorted(identities)`. -/
def sortedIdentities (ids : List FindingIdentity) : List FindingIdentity :=
  ids.insertionSort fun i j => lexLe textLe i.fields j.fields = true

def severityOrder (severity : Text) : Nat := if severity = "CRITICAL".toList then 0 else 1

def findingSortKey (f : Finding) : Nat × List Text :=
  let i := f.identity
  (severityOrder f.severity,
    [i.vulnerabilityId, i.packageName, i.installedVersion, i.resultClass, i.resultType, i.target,
     i.packageId, i.packagePath])

def findingLe (f g : Finding) : Bool :=
  let (a, s) := findingSortKey f
  let (b, t) := findingSortKey g
  if a = b then lexLe textLe s t else a ≤ b

/-- `sorted(findings, key=_finding_sort_key)`. -/
def sortedFindings (fs : List Finding) : List Finding := fs.insertionSort fun f g => findingLe f g = true

/-! Upgrades of Debian packages. -/

/-- `_debian_upgrade_scope`: what an identity keeps when its package is upgraded. -/
def debianUpgradeScope (i : FindingIdentity) : Option FindingIdentity :=
  if i.resultClass != "os-pkgs".toList || i.resultType != "debian".toList ||
      !("os:debian/" : Text).isPrefixOf i.target ||
      i.packageId != i.packageName ++ "@" ++ i.installedVersion then none
  else some { i with packageId := [], installedVersion := [] }

open Regex in
def debianVersion : Regex :=
  let digit := char fun c => '0' ≤ c && c ≤ '9'
  seqs [opt (seq (plus digit) (lit ":")), digit,
    star true (char fun c => isAlnumAscii c || ".+:~-".toList.contains c)]

/-- What `dpkg --compare-versions derivative gt upstream` does: it does not run to its end, or it
exits with a status and with or without a message. -/
abbrev Dpkg := Text → Text → Option (Int × Bool)

def debianVersionIncreased (dpkg : Dpkg) (derivative upstream : Text) : Except Text Bool := do
  invalidWhen
    ([derivative, upstream].any fun v => 256 < v.length || !fullmatch debianVersion v)
    "invalid Debian package version for comparison"
  match dpkg derivative upstream with
  | none => .error "Debian version comparison is unavailable"
  | some (status, message) =>
    invalidWhen ((status != 0 && status != 1) || message) "Debian version comparison failed closed"
    return status == 0

/-- `groups.setdefault(scope, []).append(identity)`. -/
def appendToGroup (scope identity : FindingIdentity) :
    List (FindingIdentity × List FindingIdentity) → List (FindingIdentity × List FindingIdentity)
  | [] => [(scope, [identity])]
  | (s, ids) :: groups =>
    if s = scope then (s, ids ++ [identity]) :: groups
    else (s, ids) :: appendToGroup scope identity groups

def upgradeCandidates (ids : List FindingIdentity) :
    List (FindingIdentity × List FindingIdentity) :=
  (sortedIdentities ids).foldl
    (fun groups identity =>
      match debianUpgradeScope identity with
      | some scope => appendToGroup scope identity groups
      | none => groups) []

/-! `compare_reports`. -/

/-- The three sets of keys while upgrades are found, and the upgrades. -/
structure Parts where
  introduced : List FindingIdentity
  inherited : List FindingIdentity
  removed : List FindingIdentity
  upgrades : List PackageUpgrade

/-- One turn of the loop over the scopes of both images. -/
def carryUpgrade (dpkg : Dpkg) (derivative upstream : Findings)
    (derivativeGroups upstreamGroups : List (FindingIdentity × List FindingIdentity))
    (parts : Parts) (scope : FindingIdentity) : Except Text Parts :=
  match derivativeGroups.lookup scope, upstreamGroups.lookup scope with
  | some [newKey], some [oldKey] =>
    if !parts.introduced.contains newKey || !parts.removed.contains oldKey then .ok parts
    else
      match derivative.get? newKey, upstream.get? oldKey with
      | some new, some old => do
        if (new.severity, new.fixedVersion) != (old.severity, old.fixedVersion) then
          return parts
        else if ← debianVersionIncreased dpkg newKey.installedVersion oldKey.installedVersion then
          return {
            introduced := parts.introduced.erase newKey
            inherited := parts.inherited ++ [newKey]
            removed := parts.removed.erase oldKey
            upgrades := parts.upgrades ++ [⟨old, new⟩] }
        else return parts
      -- keys are of the findings
      | _, _ => .ok parts
  -- several versions make the attribution ambiguous
  | _, _ => .ok parts

def carryUpgrades (dpkg : Dpkg) (derivative upstream : Findings)
    (derivativeGroups upstreamGroups : List (FindingIdentity × List FindingIdentity)) :
    Parts → List FindingIdentity → Except Text Parts
  | parts, [] => .ok parts
  | parts, scope :: scopes => do
    let parts ← carryUpgrade dpkg derivative upstream derivativeGroups upstreamGroups parts scope
    carryUpgrades dpkg derivative upstream derivativeGroups upstreamGroups parts scopes

/-- The sets of keys before any upgrade is carried. -/
def initialParts (derivative upstream : Findings) : Parts where
  introduced := derivative.keys.filter fun k => !upstream.keys.contains k
  inherited := derivative.keys.filter fun k => upstream.keys.contains k
  removed := upstream.keys.filter fun k => !derivative.keys.contains k
  upgrades := []

def compareReports (dpkg : Dpkg) (derivativeReport upstreamReport : Json) :
    Except Text Comparison := do
  let derivative ← normalizeFindings derivativeReport "derivative"
  let upstream ← normalizeFindings upstreamReport "upstream"
  invalidWhen
    (derivative.entries.any fun f => (upstream.get? f.identity).any fun g => f != g)
    "shared finding metadata differs between scan reports"
  let derivativeGroups := upgradeCandidates derivative.keys
  let upstreamGroups := upgradeCandidates upstream.keys
  let scopes := sortedIdentities
    ((derivativeGroups.map Prod.fst).filter (upstreamGroups.map Prod.fst).contains)
  let parts ← carryUpgrades dpkg derivative upstream derivativeGroups upstreamGroups
    (initialParts derivative upstream) scopes
  return {
    introduced := sortedFindings (parts.introduced.filterMap derivative.get?)
    inherited := sortedFindings (parts.inherited.filterMap derivative.get?)
    removed := sortedFindings (parts.removed.filterMap upstream.get?)
    accepted := []
    packageUpgrades := parts.upgrades }

/-! Exceptions and the gate. -/

open Regex in
def pinnedImage : Regex :=
  seqs [char isAlnumAscii, star true (char fun c => isAlnumAscii c || "._:/-".toList.contains c),
    lit "@sha256:", times 64 (char fun c => ('a' ≤ c && c ≤ 'f') || ('0' ≤ c && c ≤ '9'))]

open Regex in
def linuxPlatform : Regex :=
  let part := plus (char fun c => ('a' ≤ c && c ≤ 'z') || ('0' ≤ c && c ≤ '9'))
  seqs [lit "linux/", part, opt (seq (lit "/") part)]

def scanContext (upstreamImage platform : Text) : Except Text Unit := do
  invalidWhen (!fullmatch pinnedImage upstreamImage)
    "exception context requires a digest-pinned upstream image"
  invalidWhen (!fullmatch linuxPlatform platform)
    "exception context requires an exact Linux platform"

def applyExceptions (comparison : Comparison) (exceptions : List ImageException)
    (upstreamImage platform : Text) : Except Text Comparison := do
  scanContext upstreamImage platform
  return { comparison with
    accepted := exceptions.filter fun entry =>
      entry.upstreamImage == upstreamImage && entry.platform == platform &&
        comparison.inherited.contains entry.finding && !entry.finding.fixedVersion.isEmpty }

/-- The exceptions of a scan, with its exact image and platform. -/
structure ExceptionScope where
  exceptions : List ImageException
  upstreamImage : Text
  platform : Text

/-- What `main` decides on: the comparison, with the exceptions when there is a registry. -/
def gateReports (dpkg : Dpkg) (derivativeReport upstreamReport : Json)
    (scope : Option ExceptionScope) : Except Text Comparison := do
  let comparison ← compareReports dpkg derivativeReport upstreamReport
  match scope with
  | none => return comparison
  | some s => applyExceptions comparison s.exceptions s.upstreamImage s.platform

end ArubaCertRenewer
