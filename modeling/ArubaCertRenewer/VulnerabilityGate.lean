import ArubaCertRenewer.VulnerabilityReports
import Mathlib.Data.List.Perm.Basic

/- What the comparison of two reports keeps.

   Before any upgrade is carried, the keys of the derivative are introduced or
   inherited and those of the upstream are shared or removed. An upgrade moves one
   key from the introduced to the inherited ones and one from the removed ones to
   its upstream side, so that the three lists stay permutations of the keys. -/
namespace ArubaCertRenewer
open PyText

namespace Findings

variable {fs : Findings}

theorem nodup_keys (fs : Findings) : fs.keys.Nodup := fs.distinct

theorem nodup_entries (fs : Findings) : fs.entries.Nodup := List.Nodup.of_map _ fs.distinct

theorem mem_keys_of_mem {f : Finding} (h : f ∈ fs.entries) : f.identity ∈ fs.keys :=
  List.mem_map_of_mem h

theorem of_get? {key : FindingIdentity} {f : Finding} (h : fs.get? key = some f) :
    f ∈ fs.entries ∧ f.identity = key :=
  ⟨List.mem_of_find?_eq_some h, by simpa using List.find?_some h⟩

/-- A finding is found under its identity, and no other is. -/
theorem get?_identity {f : Finding} (h : f ∈ fs.entries) : fs.get? f.identity = some f := by
  cases hg : fs.get? f.identity with
  | none =>
    have := List.find?_eq_none.mp hg f h
    simp at this
  | some g =>
    obtain ⟨hmem, hid⟩ := of_get? hg
    rw [List.inj_on_of_nodup_map fs.distinct hmem h hid]

/-- The findings of all keys, in order. -/
theorem filterMap_keys (fs : Findings) : fs.keys.filterMap fs.get? = fs.entries := by
  rw [keys, List.filterMap_map]
  have hall : ∀ f ∈ fs.entries, (fs.get? ∘ Finding.identity) f = some f :=
    fun f hf => get?_identity hf
  rw [List.filterMap_congr hall, List.filterMap_some]

end Findings

/-! ## Upgrades -/

section upgrades
variable {dpkg : Dpkg} {derivative upstream : Findings} {parts parts' : Parts}
variable {derivativeGroups upstreamGroups : List (FindingIdentity × List FindingIdentity)}

/-- The keys of both images. -/
def sharedKeys (derivative upstream : Findings) : List FindingIdentity :=
  derivative.keys.filter fun k => upstream.keys.contains k

/-- The keys are where they should be. -/
structure Placed (derivative upstream : Findings) (parts : Parts) : Prop where
  derivative_keys : (parts.introduced ++ parts.inherited).Perm derivative.keys
  inherited_keys : (sharedKeys derivative upstream ++
    parts.upgrades.map fun u => u.derivative.identity).Perm parts.inherited
  upstream_keys : (sharedKeys derivative upstream ++ parts.removed ++
    parts.upgrades.map fun u => u.upstream.identity).Perm upstream.keys
  known : ∀ u ∈ parts.upgrades, u.derivative ∈ derivative.entries ∧ u.upstream ∈ upstream.entries

theorem filter_contains_perm {xs ys : List FindingIdentity} (hx : xs.Nodup) (hy : ys.Nodup) :
    (xs.filter fun k => ys.contains k).Perm (ys.filter fun k => xs.contains k) := by
  rw [List.perm_ext_iff_of_nodup (hx.filter _) (hy.filter _)]
  intro k
  simp only [List.mem_filter, List.contains_iff_mem]
  exact And.comm

theorem placed_initial (derivative upstream : Findings) :
    Placed derivative upstream (initialParts derivative upstream) := by
  refine ⟨?_, ?_, ?_, by simp [initialParts]⟩
  · exact List.perm_append_comm.trans (List.filter_append_perm _ _)
  · simp [initialParts, sharedKeys]
  · simp only [initialParts, List.map_nil, List.append_nil]
    have hshared := filter_contains_perm derivative.nodup_keys upstream.nodup_keys
    exact (hshared.append_right _).trans (List.filter_append_perm _ _)

/-- What one turn of the loop does: nothing, or one key leaves the introduced ones and one the
removed ones. -/
theorem of_carryUpgrade {scope : FindingIdentity}
    (h : carryUpgrade dpkg derivative upstream derivativeGroups upstreamGroups parts scope =
      .ok parts') :
    parts' = parts ∨ ∃ new ∈ derivative.entries, ∃ old ∈ upstream.entries,
      new.identity ∈ parts.introduced ∧ old.identity ∈ parts.removed ∧
      parts' = {
        introduced := parts.introduced.erase new.identity
        inherited := parts.inherited ++ [new.identity]
        removed := parts.removed.erase old.identity
        upgrades := parts.upgrades ++ [⟨old, new⟩] } := by
  unfold carryUpgrade at h
  split at h
  · next newKey oldKey _ _ =>
    split at h
    · exact .inl (Except.ok.inj h).symm
    next hwhere =>
    simp only [Bool.or_eq_true, Bool.not_eq_true', not_or, Bool.not_eq_false,
      List.contains_iff_mem] at hwhere
    split at h
    · next new old hnew hold =>
      obtain ⟨hmem, rfl⟩ := Findings.of_get? hnew
      obtain ⟨hmem', rfl⟩ := Findings.of_get? hold
      split at h
      · exact .inl (Except.ok.inj h).symm
      obtain ⟨increased, -, h⟩ := bind_eq_ok.mp h
      cases increased with
      | true => exact .inr ⟨new, hmem, old, hmem', hwhere.1, hwhere.2, (Except.ok.inj h).symm⟩
      | false => exact .inl (Except.ok.inj h).symm
    · exact .inl (Except.ok.inj h).symm
  · exact .inl (Except.ok.inj h).symm

theorem placed_carryUpgrade {scope : FindingIdentity} (hp : Placed derivative upstream parts)
    (h : carryUpgrade dpkg derivative upstream derivativeGroups upstreamGroups parts scope =
      .ok parts') : Placed derivative upstream parts' := by
  obtain rfl | ⟨new, hnew, old, hold, hintroduced, hremoved, rfl⟩ := of_carryUpgrade h
  · exact hp
  have hout := List.perm_cons_erase hintroduced
  have hgone := List.perm_cons_erase hremoved
  refine ⟨?_, ?_, ?_, ?_⟩
  · have hmoved : (parts.introduced.erase new.identity ++ parts.inherited ++ [new.identity]).Perm
        (parts.introduced ++ parts.inherited) :=
      (List.perm_append_singleton _ _).trans (hout.symm.append_right _)
    rw [← List.append_assoc]
    exact hmoved.trans hp.derivative_keys
  · rw [List.map_append, ← List.append_assoc]
    exact hp.inherited_keys.append_right _
  · have hback : (old.identity :: (sharedKeys derivative upstream ++
        parts.removed.erase old.identity)).Perm (sharedKeys derivative upstream ++ parts.removed) :=
      List.perm_middle.symm.trans (hgone.symm.append_left _)
    have hmoved : (sharedKeys derivative upstream ++ parts.removed.erase old.identity ++
          (parts.upgrades.map fun u => u.upstream.identity) ++ [old.identity]).Perm
        (sharedKeys derivative upstream ++ parts.removed ++
          parts.upgrades.map fun u => u.upstream.identity) :=
      (List.perm_append_singleton _ _).trans (hback.append_right _)
    rw [List.map_append, ← List.append_assoc]
    exact hmoved.trans hp.upstream_keys
  · intro u hu
    obtain hu | hu := List.mem_append.mp hu
    · exact hp.known u hu
    · obtain rfl := List.mem_singleton.mp hu
      exact ⟨hnew, hold⟩

theorem placed_carryUpgrades {scopes : List FindingIdentity}
    (hp : Placed derivative upstream parts)
    (h : carryUpgrades dpkg derivative upstream derivativeGroups upstreamGroups parts scopes =
      .ok parts') : Placed derivative upstream parts' := by
  induction scopes generalizing parts with
  | nil =>
    cases h
    exact hp
  | cons scope scopes ih =>
    obtain ⟨next, hnext, h⟩ := bind_eq_ok.mp h
    exact ih (placed_carryUpgrade hp hnext) h

namespace Placed

/-- No key is inherited twice. -/
theorem nodup_inherited (hp : Placed derivative upstream parts) : parts.inherited.Nodup := by
  have hall : (parts.introduced ++ parts.inherited).Nodup :=
    hp.derivative_keys.nodup_iff.mpr derivative.nodup_keys
  exact (List.nodup_append.mp hall).2.1

/-- The derivative side of an upgrade is inherited, and the upstream does not have it. -/
theorem upgraded (hp : Placed derivative upstream parts) {u : PackageUpgrade}
    (hu : u ∈ parts.upgrades) :
    u.derivative.identity ∈ parts.inherited ∧ u.derivative.identity ∉ upstream.keys := by
  have hmem : u.derivative.identity ∈ parts.upgrades.map fun u => u.derivative.identity :=
    List.mem_map_of_mem hu
  refine ⟨hp.inherited_keys.subset (List.mem_append_right _ hmem), fun hup => ?_⟩
  have hnodup := hp.inherited_keys.nodup_iff.mpr hp.nodup_inherited
  have hshared : u.derivative.identity ∈ sharedKeys derivative upstream := by
    refine List.mem_filter.mpr ⟨Findings.mem_keys_of_mem (hp.known u hu).1, ?_⟩
    simpa using hup
  exact (List.nodup_append.mp hnodup).2.2 _ hshared _ hmem rfl

end Placed

end upgrades

/-! ## The comparison -/

/-- What the lists of a comparison are to the findings of the two images. -/
structure Partitions (derivative upstream : Findings) (c : Comparison) : Prop where
  /-- Each derivative finding is in one of introduced and inherited, once. -/
  derivative_once : (c.introduced ++ c.inherited).Perm derivative.entries
  /-- Each upstream finding is shared with an inherited one, removed or the upstream side of an
  upgrade, once. -/
  upstream_once : ((upstream.entries.filter c.inherited.contains) ++ c.removed ++
    c.packageUpgrades.map PackageUpgrade.upstream).Perm upstream.entries
  upgrade_inherited : ∀ u ∈ c.packageUpgrades, u.derivative ∈ c.inherited
  /-- No finding takes part in two upgrades. -/
  upgrade_once : (c.packageUpgrades.map PackageUpgrade.derivative ++
    c.packageUpgrades.map PackageUpgrade.upstream).Nodup

theorem sortedFindings_perm (fs : List Finding) : (sortedFindings fs).Perm fs :=
  List.perm_insertionSort _ fs

section comparison
variable {dpkg : Dpkg} {derivative upstream : Findings} {parts : Parts}

/-- The comparison of the keys. -/
def comparisonOf (derivative upstream : Findings) (parts : Parts) : Comparison where
  introduced := sortedFindings (parts.introduced.filterMap derivative.get?)
  inherited := sortedFindings (parts.inherited.filterMap derivative.get?)
  removed := sortedFindings (parts.removed.filterMap upstream.get?)
  accepted := []
  packageUpgrades := parts.upgrades

theorem mem_sorted_iff {fs : Findings} {keys : List FindingIdentity} {f : Finding} :
    f ∈ sortedFindings (keys.filterMap fs.get?) ↔ f ∈ fs.entries ∧ f.identity ∈ keys := by
  rw [(sortedFindings_perm _).mem_iff, List.mem_filterMap]
  constructor
  · intro h
    obtain ⟨key, hkey, hget⟩ := h
    obtain ⟨hmem, rfl⟩ := Findings.of_get? hget
    exact ⟨hmem, hkey⟩
  · exact fun h => ⟨f.identity, h.2, Findings.get?_identity h.1⟩

/-- The upstream findings under shared keys are those that are inherited. -/
theorem shared_perm (hp : Placed derivative upstream parts)
    (hsame : ∀ f ∈ derivative.entries, ∀ g, upstream.get? f.identity = some g → f = g) :
    (upstream.entries.filter (comparisonOf derivative upstream parts).inherited.contains).Perm
      ((sharedKeys derivative upstream).filterMap upstream.get?) := by
  have hnodup : ((sharedKeys derivative upstream).filterMap upstream.get?).Nodup := by
    refine (derivative.nodup_keys.filter _).filterMap fun k l g hk hl => ?_
    rw [← (Findings.of_get? hk).2, ← (Findings.of_get? hl).2]
  rw [List.perm_ext_iff_of_nodup (upstream.nodup_entries.filter _) hnodup]
  intro g
  rw [List.mem_filter, List.mem_filterMap, List.contains_iff_mem]
  constructor
  · intro h
    obtain ⟨hg, hin⟩ := h
    obtain ⟨hd, -⟩ := mem_sorted_iff.mp hin
    refine ⟨g.identity, List.mem_filter.mpr ⟨Findings.mem_keys_of_mem hd, ?_⟩,
      Findings.get?_identity hg⟩
    simpa using Findings.mem_keys_of_mem hg
  · intro h
    obtain ⟨key, hkey, hget⟩ := h
    obtain ⟨hg, rfl⟩ := Findings.of_get? hget
    refine ⟨hg, ?_⟩
    obtain ⟨f, hf, hid⟩ := List.mem_map.mp (List.mem_filter.mp hkey).1
    rw [← hid] at hget hkey
    obtain rfl := hsame f hf g hget
    refine mem_sorted_iff.mpr ⟨hf, ?_⟩
    exact hp.inherited_keys.subset (List.mem_append_left _ hkey)

theorem upgrades_filterMap (hp : Placed derivative upstream parts) :
    (parts.upgrades.map fun u => u.upstream.identity).filterMap upstream.get? =
      parts.upgrades.map PackageUpgrade.upstream := by
  rw [List.filterMap_map, ← List.filterMap_eq_map]
  exact List.filterMap_congr fun u hu => Findings.get?_identity (hp.known u hu).2

theorem partitions_of_placed (hp : Placed derivative upstream parts)
    (hsame : ∀ f ∈ derivative.entries, ∀ g, upstream.get? f.identity = some g → f = g) :
    Partitions derivative upstream (comparisonOf derivative upstream parts) := by
  refine ⟨?_, ?_, ?_, ?_⟩
  · refine ((sortedFindings_perm _).append (sortedFindings_perm _)).trans ?_
    rw [← List.filterMap_append, ← derivative.filterMap_keys]
    exact hp.derivative_keys.filterMap _
  · refine (((shared_perm hp hsame).append (sortedFindings_perm _)).append_right _).trans ?_
    show (_ ++ parts.upgrades.map PackageUpgrade.upstream).Perm _
    rw [← upgrades_filterMap hp, ← List.filterMap_append, ← List.filterMap_append,
      ← upstream.filterMap_keys]
    exact hp.upstream_keys.filterMap _
  · intro u hu
    exact mem_sorted_iff.mpr ⟨(hp.known u hu).1, (hp.upgraded hu).1⟩
  · -- a derivative side is not an upstream finding, by its key
    have hderivative : (parts.upgrades.map fun u => u.derivative.identity).Nodup :=
      (List.nodup_append.mp (hp.inherited_keys.nodup_iff.mpr hp.nodup_inherited)).2.1
    have hupstream : (parts.upgrades.map fun u => u.upstream.identity).Nodup :=
      (List.nodup_append.mp (hp.upstream_keys.nodup_iff.mpr upstream.nodup_keys)).2.1
    rw [List.nodup_append]
    refine ⟨?_, ?_, ?_⟩
    · exact List.Nodup.of_map Finding.identity (by rwa [List.map_map])
    · exact List.Nodup.of_map Finding.identity (by rwa [List.map_map])
    · intro f hf g hg he
      obtain ⟨u, hu, rfl⟩ := List.mem_map.mp hf
      obtain ⟨v, hv, rfl⟩ := List.mem_map.mp hg
      refine (hp.upgraded hu).2 ?_
      rw [he]
      exact Findings.mem_keys_of_mem (hp.known v hv).2

/-- What an accepted pair of reports is compared to. -/
theorem of_compareReports {derivativeReport upstreamReport : Json} {c : Comparison}
    (h : compareReports dpkg derivativeReport upstreamReport = .ok c) :
    ∃ derivative upstream, normalizeFindings derivativeReport "derivative" = .ok derivative ∧
      normalizeFindings upstreamReport "upstream" = .ok upstream ∧
      c.accepted = [] ∧ Partitions derivative upstream c := by
  simp only [compareReports, bind_eq_ok, invalidWhen_eq_ok] at h
  obtain ⟨derivative, hd, upstream, hu, _, hsame, parts, hparts, h⟩ := h
  cases h
  refine ⟨derivative, upstream, hd, hu, rfl, ?_⟩
  apply partitions_of_placed (placed_carryUpgrades (placed_initial derivative upstream) hparts)
  intro f hf g hg
  have := List.any_eq_false.mp hsame f hf
  simpa [hg] using this

end comparison

/-! ## The gate -/

/-- A finding that an accepted exception for the exact image and platform waives. -/
def Waived (scope : Option ExceptionScope) (c : Comparison) (f : Finding) : Prop :=
  ∃ s, scope = some s ∧ ∃ e ∈ c.accepted, e ∈ s.exceptions ∧
    e.upstreamImage = s.upstreamImage ∧ e.platform = s.platform ∧ e.finding = f

/-- The lists of a comparison that passed reading are a partition of the findings, and when the
gate does not block, nothing is introduced and every fixable inherited finding is waived. -/
theorem gate_reports_partition {dpkg : Dpkg} {derivativeReport upstreamReport : Json}
    {scope : Option ExceptionScope} {c : Comparison}
    (h : gateReports dpkg derivativeReport upstreamReport scope = .ok c) :
    ∃ derivative upstream, normalizeFindings derivativeReport "derivative" = .ok derivative ∧
      normalizeFindings upstreamReport "upstream" = .ok upstream ∧
      Partitions derivative upstream c ∧
      (c.blocked = false → c.introduced = [] ∧
        ∀ f ∈ c.inherited, f.fixedVersion ≠ [] → Waived scope c f) := by
  obtain ⟨compared, hcompared, h⟩ := bind_eq_ok.mp h
  obtain ⟨derivative, upstream, hd, hu, hnone, hpartitions⟩ := of_compareReports hcompared
  have hpasses : ∀ accepted : List ImageException,
      ({ compared with accepted := accepted } : Comparison).blocked = false →
        compared.introduced = [] ∧ ∀ f ∈ compared.inherited, f.fixedVersion ≠ [] →
          ∃ e ∈ accepted, e.finding = f := by
    intro accepted hpass
    simp only [Comparison.blocked, Comparison.unexceptedFixable, Bool.or_eq_false_iff,
      Bool.not_eq_false', List.isEmpty_iff, List.filter_eq_nil_iff] at hpass
    refine ⟨hpass.1, fun f hf hfix => ?_⟩
    have := hpass.2 f hf
    simpa [hfix] using this
  cases scope with
  | none =>
    cases h
    refine ⟨derivative, upstream, hd, hu, hpartitions, fun hpass => ?_⟩
    obtain ⟨hintroduced, hall⟩ := hpasses [] (by rwa [← hnone])
    refine ⟨hintroduced, fun f hf hfix => ?_⟩
    obtain ⟨e, he, -⟩ := hall f hf hfix
    cases he
  | some s =>
    obtain ⟨_, -, h⟩ := bind_eq_ok.mp h
    cases h
    refine ⟨derivative, upstream, hd, hu, ⟨hpartitions.derivative_once, hpartitions.upstream_once,
      hpartitions.upgrade_inherited, hpartitions.upgrade_once⟩, fun hpass => ?_⟩
    obtain ⟨hintroduced, hall⟩ := hpasses _ hpass
    refine ⟨hintroduced, fun f hf hfix => ?_⟩
    obtain ⟨e, he, rfl⟩ := hall f hf hfix
    have hscope := he
    simp only [List.mem_filter, Bool.and_eq_true, beq_iff_eq] at hscope
    exact ⟨s, rfl, e, he, hscope.1, hscope.2.1.1.1, hscope.2.1.1.2, rfl⟩

/-- A report of one Debian finding, with the installed version of its package. -/
def siteReport (installedVersion : Text) : Json :=
  .obj [("SchemaVersion", .int 2), ("ArtifactType", .str "container_image"),
    ("Metadata", .obj [("OS", .obj [("Family", .str "debian"), ("Name", .str "13.0")])]),
    ("Results", .arr [.obj
      [("Target", .str "image (debian 13.0)"), ("Class", .str "os-pkgs"), ("Type", .str "debian"),
       ("Vulnerabilities", .arr [.obj
         [("Severity", .str "HIGH"), ("VulnerabilityID", .str "CVE-2026-0001"),
          ("PkgName", .str "openssl"), ("PkgID", .str ("openssl@" ++ installedVersion)),
          ("InstalledVersion", .str installedVersion), ("FixedVersion", .str "3.5.2-1")]])]])]

def siteFinding (installedVersion : Text) : Finding :=
  ⟨⟨"os-pkgs", "debian", "os:debian/13.0", "CVE-2026-0001", "openssl",
    "openssl@" ++ installedVersion, [], installedVersion⟩, "HIGH", "3.5.2-1"⟩

def siteImage : Text := "docker.io/library/python@sha256:" ++ List.replicate 64 '0'

def siteException : ImageException :=
  ⟨"EX-1", siteImage, "linux/amd64", siteFinding "3.5.1-1"⟩

/-- `dpkg` on the two versions of `openssl` here. -/
def siteDpkg : Dpkg := fun derivative upstream =>
  some (if derivative = "3.5.1-1".toList ∧ upstream = "3.5.0-1".toList then 0 else 1, false)

/-- An upgrade that carries a reviewed finding along: the gate lets it pass. -/
def siteComparison : Comparison where
  introduced := []
  inherited := [siteFinding "3.5.1-1"]
  removed := []
  accepted := [siteException]
  packageUpgrades := [⟨siteFinding "3.5.0-1", siteFinding "3.5.1-1"⟩]

theorem gate_reports_partition_site :
    siteComparison.blocked = false ∧ ∃ derivative upstream,
      normalizeFindings (siteReport "3.5.1-1") "derivative" = .ok derivative ∧
      normalizeFindings (siteReport "3.5.0-1") "upstream" = .ok upstream ∧
      Partitions derivative upstream siteComparison ∧
      (siteComparison.blocked = false → siteComparison.introduced = [] ∧
        ∀ f ∈ siteComparison.inherited, f.fixedVersion ≠ [] →
          Waived (some ⟨[siteException], siteImage, "linux/amd64"⟩) siteComparison f) := by
  have hgate : gateReports siteDpkg (siteReport "3.5.1-1") (siteReport "3.5.0-1")
      (some ⟨[siteException], siteImage, "linux/amd64"⟩) = .ok siteComparison := by decide
  exact ⟨by decide, gate_reports_partition hgate⟩

end ArubaCertRenewer
