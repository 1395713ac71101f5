import ArubaCertRenewer.ReportOrder

/- Which packages are carried through an upgrade.

   `compare_reports` groups the identities of each image by their Debian scope and
   carries an upgrade where both groups have one member. Only identities with a
   canonical package ID have a scope.

   1. A group is the sorted identities of its scope (`lookup_upgradeCandidates`).
   2. A turn of the loop moves keys of its own scope only, so each turn still finds
      the keys of its scope where they were at the beginning (`carryUpgrade_exact`,
      `carryUpgrades_exact`): the upgrades are the pairs of `CarriedOver`.
   3. A finding of the same component whose package ID is not canonical is in no
      group. Each upgrade is of the only copies in both images exactly when no such
      finding stands beside a pair that is carried (`upgrades_attributed_iff`). -/
namespace ArubaCertRenewer
open PyText

/-! ## Groups -/

/-- The identities of a scope, sorted. -/
def ofScope (ids : List FindingIdentity) (scope : FindingIdentity) : List FindingIdentity :=
  (sortedIdentities ids).filter fun i => debianUpgradeScope i == some scope

theorem lookup_appendToGroup (scope identity t : FindingIdentity)
    (groups : List (FindingIdentity × List FindingIdentity)) :
    ((appendToGroup scope identity groups).lookup t).getD [] =
      (groups.lookup t).getD [] ++ if scope = t then [identity] else [] := by
  induction groups with
  | nil =>
    by_cases h : scope = t
    · simp [appendToGroup, h]
    · simp [appendToGroup, List.lookup_cons, h, beq_false_of_ne (Ne.symm h)]
  | cons group groups ih =>
    obtain ⟨s, ids⟩ := group
    rw [appendToGroup]
    by_cases hs : s = scope
    · subst hs
      by_cases h : s = t
      · simp [h]
      · simp [List.lookup_cons, h, beq_false_of_ne (Ne.symm h)]
    · rw [if_neg hs]
      by_cases ht : t = s
      · subst ht
        simp [Ne.symm hs]
      · rw [List.lookup_cons, List.lookup_cons, beq_false_of_ne ht]
        exact ih

/-- One turn of the loop of `_upgrade_candidates`. -/
def collect (groups : List (FindingIdentity × List FindingIdentity)) (identity : FindingIdentity) :
    List (FindingIdentity × List FindingIdentity) :=
  match debianUpgradeScope identity with
  | some scope => appendToGroup scope identity groups
  | none => groups

theorem upgradeCandidates_eq (ids : List FindingIdentity) :
    upgradeCandidates ids = (sortedIdentities ids).foldl collect [] := rfl

theorem lookup_collect (groups : List (FindingIdentity × List FindingIdentity))
    (identity t : FindingIdentity) :
    ((collect groups identity).lookup t).getD [] =
      (groups.lookup t).getD [] ++ [identity].filter fun i => debianUpgradeScope i == some t := by
  unfold collect
  cases h : debianUpgradeScope identity with
  | none => simp [h]
  | some scope =>
    rw [lookup_appendToGroup]
    by_cases ht : scope = t
    · simp [h, ht]
    · simp [h, ht]

/-- The identities are collected in order. -/
theorem lookup_foldl_collect (ids : List FindingIdentity) (t : FindingIdentity)
    (groups : List (FindingIdentity × List FindingIdentity)) :
    ((ids.foldl collect groups).lookup t).getD [] =
      (groups.lookup t).getD [] ++ ids.filter fun i => debianUpgradeScope i == some t := by
  induction ids generalizing groups with
  | nil => simp
  | cons identity ids ih =>
    rw [List.foldl_cons, ih, lookup_collect, List.append_assoc, ← List.filter_append]
    rfl

theorem lookup_upgradeCandidates (ids : List FindingIdentity) (scope : FindingIdentity) :
    ((upgradeCandidates ids).lookup scope).getD [] = ofScope ids scope := by
  rw [upgradeCandidates_eq, lookup_foldl_collect]
  rfl

theorem keys_appendToGroup (scope identity : FindingIdentity)
    (groups : List (FindingIdentity × List FindingIdentity)) :
    (appendToGroup scope identity groups).map Prod.fst =
      if scope ∈ groups.map Prod.fst then groups.map Prod.fst else groups.map Prod.fst ++ [scope] := by
  induction groups with
  | nil => rfl
  | cons group groups ih =>
    obtain ⟨s, ids⟩ := group
    rw [appendToGroup]
    by_cases hs : s = scope
    · simp [hs]
    · rw [if_neg hs, List.map_cons, ih]
      by_cases hmem : scope ∈ groups.map Prod.fst
      · simp [hmem]
      · simp [hmem, Ne.symm hs]

theorem nodup_foldl_collect (ids : List FindingIdentity)
    {groups : List (FindingIdentity × List FindingIdentity)} (h : (groups.map Prod.fst).Nodup) :
    ((ids.foldl collect groups).map Prod.fst).Nodup := by
  induction ids generalizing groups with
  | nil => exact h
  | cons identity ids ih =>
    apply ih
    unfold collect
    split
    · next scope _ =>
      rw [keys_appendToGroup]
      split
      · exact h
      · next hmem =>
        apply List.nodup_append.mpr ⟨h, List.nodup_singleton scope, ?_⟩
        intro s hs t ht he
        rw [he, List.mem_singleton.mp ht] at hs
        exact hmem hs
    · exact h

theorem nodup_upgradeCandidates (ids : List FindingIdentity) :
    ((upgradeCandidates ids).map Prod.fst).Nodup := by
  rw [upgradeCandidates_eq]
  exact nodup_foldl_collect (sortedIdentities ids) (h := List.nodup_nil)

theorem mem_keys_of_lookup {groups : List (FindingIdentity × List FindingIdentity)}
    {scope : FindingIdentity} {ids : List FindingIdentity} (h : groups.lookup scope = some ids) :
    scope ∈ groups.map Prod.fst := by
  induction groups with
  | nil => cases h
  | cons group groups ih =>
    obtain ⟨s, found⟩ := group
    by_cases hs : scope = s
    · simp [hs]
    · rw [List.lookup_cons, beq_false_of_ne hs] at h
      exact List.mem_cons_of_mem _ (ih h)

/-- The one key of an image in the scope. -/
structure Sole (keys : List FindingIdentity) (scope key : FindingIdentity) : Prop where
  mem : key ∈ keys
  scope_eq : debianUpgradeScope key = some scope
  only : ∀ other ∈ keys, debianUpgradeScope other = some scope → other = key

theorem sole_iff_ofScope {keys : List FindingIdentity} {scope key : FindingIdentity}
    (hnodup : keys.Nodup) : Sole keys scope key ↔ ofScope keys scope = [key] := by
  have hperm : (sortedIdentities keys).Perm keys := List.perm_insertionSort _ keys
  have hsorted : (ofScope keys scope).Nodup := (hperm.nodup_iff.mpr hnodup).filter _
  rw [← List.perm_singleton, List.perm_ext_iff_of_nodup hsorted (List.nodup_singleton key)]
  simp only [ofScope, List.mem_filter, hperm.mem_iff, beq_iff_eq, List.mem_singleton]
  constructor
  · intro h other
    exact ⟨fun hother => h.only other hother.1 hother.2, fun he => he ▸ ⟨h.mem, h.scope_eq⟩⟩
  · intro h
    obtain ⟨hmem, hscope⟩ := (h key).mpr rfl
    exact ⟨hmem, hscope, fun other hother he => (h other).mp ⟨hother, he⟩⟩

theorem lookup_iff_sole {keys : List FindingIdentity} {scope key : FindingIdentity}
    (hnodup : keys.Nodup) :
    (upgradeCandidates keys).lookup scope = some [key] ↔ Sole keys scope key := by
  rw [sole_iff_ofScope hnodup, ← lookup_upgradeCandidates]
  cases (upgradeCandidates keys).lookup scope with
  | none => simp
  | some ids => simp

/-! ## The loop -/

/-- An upgrade that the loop carries in the scope. -/
structure CarriedOver (dpkg : Dpkg) (derivative upstream : Findings) (scope : FindingIdentity)
    (u : PackageUpgrade) : Prop where
  new : u.derivative ∈ derivative.entries
  old : u.upstream ∈ upstream.entries
  derivative_sole : Sole derivative.keys scope u.derivative.identity
  upstream_sole : Sole upstream.keys scope u.upstream.identity
  introduced : u.derivative.identity ∉ upstream.keys
  removed : u.upstream.identity ∉ derivative.keys
  severity : u.derivative.severity = u.upstream.severity
  fixedVersion : u.derivative.fixedVersion = u.upstream.fixedVersion
  increased : debianVersionIncreased dpkg u.derivative.identity.installedVersion
    u.upstream.identity.installedVersion = .ok true

/-- The keys of the scope are where they were at the beginning. -/
structure Unmoved (derivative upstream : Findings) (parts : Parts) (scope : FindingIdentity) : Prop where
  introduced : ∀ k, debianUpgradeScope k = some scope →
    (k ∈ parts.introduced ↔ k ∈ derivative.keys ∧ k ∉ upstream.keys)
  removed : ∀ k, debianUpgradeScope k = some scope →
    (k ∈ parts.removed ↔ k ∈ upstream.keys ∧ k ∉ derivative.keys)

theorem unmoved_initial (derivative upstream : Findings) (scope : FindingIdentity) :
    Unmoved derivative upstream (initialParts derivative upstream) scope :=
  ⟨fun k _ => by simp [initialParts], fun k _ => by simp [initialParts]⟩

section loop
variable {dpkg : Dpkg} {derivative upstream : Findings} {parts parts' : Parts}

/-- Keys of one scope leave the others where they are. -/
theorem Unmoved.erase {scope other newKey oldKey : FindingIdentity} {inherited : List FindingIdentity}
    {upgrades : List PackageUpgrade} (h : Unmoved derivative upstream parts other)
    (hne : other ≠ scope) (hnew : debianUpgradeScope newKey = some scope)
    (hold : debianUpgradeScope oldKey = some scope) :
    Unmoved derivative upstream ⟨parts.introduced.erase newKey, inherited,
      parts.removed.erase oldKey, upgrades⟩ other := by
  have hdiffer : ∀ k key, debianUpgradeScope k = some other → debianUpgradeScope key = some scope →
      k ≠ key := by
    intro k key hk hkey he
    rw [he, hkey] at hk
    exact hne (Option.some.inj hk).symm
  constructor
  · intro k hk
    exact (List.mem_erase_of_ne (hdiffer k newKey hk hnew)).trans (h.introduced k hk)
  · intro k hk
    exact (List.mem_erase_of_ne (hdiffer k oldKey hk hold)).trans (h.removed k hk)

/-- What one turn of the loop carries, and that it moves keys of its scope alone. -/
structure Turn (dpkg : Dpkg) (derivative upstream : Findings) (scope : FindingIdentity)
    (parts parts' : Parts) : Prop where
  upgrades : ∀ u, u ∈ parts'.upgrades ↔
    u ∈ parts.upgrades ∨ CarriedOver dpkg derivative upstream scope u
  others : ∀ other, other ≠ scope → Unmoved derivative upstream parts other →
    Unmoved derivative upstream parts' other

theorem Turn.nothing {scope : FindingIdentity}
    (h : ∀ u, ¬ CarriedOver dpkg derivative upstream scope u) :
    Turn dpkg derivative upstream scope parts parts :=
  ⟨fun u => by simp [h u], fun _ _ hother => hother⟩

theorem carryUpgrade_exact {scope : FindingIdentity} (hunmoved : Unmoved derivative upstream parts scope)
    (h : carryUpgrade dpkg derivative upstream (upgradeCandidates derivative.keys)
      (upgradeCandidates upstream.keys) parts scope = .ok parts') :
    Turn dpkg derivative upstream scope parts parts' := by
  unfold carryUpgrade at h
  split at h
  · next newKey oldKey hnew hold =>
    rw [lookup_iff_sole derivative.nodup_keys] at hnew
    rw [lookup_iff_sole upstream.nodup_keys] at hold
    obtain ⟨new, hnewEntry, hnewId⟩ := List.mem_map.mp hnew.mem
    obtain ⟨old, holdEntry, holdId⟩ := List.mem_map.mp hold.mem
    subst hnewId holdId
    -- the pair of the scope is the only one that can be carried
    have hpair : ∀ u, CarriedOver dpkg derivative upstream scope u → u = ⟨old, new⟩ := by
      intro u hu
      have hderivative := List.inj_on_of_nodup_map derivative.distinct hu.new hnewEntry
        (hnew.only _ hu.derivative_sole.mem hu.derivative_sole.scope_eq)
      have hupstream := List.inj_on_of_nodup_map upstream.distinct hu.old holdEntry
        (hold.only _ hu.upstream_sole.mem hu.upstream_sole.scope_eq)
      rw [← hderivative, ← hupstream]
    rw [Findings.get?_identity hnewEntry, Findings.get?_identity holdEntry] at h
    dsimp only at h
    split at h
    · next hwhere =>
      cases h
      apply Turn.nothing
      intro u hu
      obtain rfl := hpair u hu
      simp only [Bool.or_eq_true, Bool.not_eq_true', ← Bool.not_eq_true, List.contains_iff_mem,
        hunmoved.introduced _ hnew.scope_eq, hunmoved.removed _ hold.scope_eq] at hwhere
      obtain hwhere | hwhere := hwhere
      · exact hwhere ⟨hnew.mem, hu.introduced⟩
      · exact hwhere ⟨hold.mem, hu.removed⟩
    next hwhere =>
    simp only [Bool.or_eq_true, Bool.not_eq_true', not_or, Bool.not_eq_false, List.contains_iff_mem,
      hunmoved.introduced _ hnew.scope_eq, hunmoved.removed _ hold.scope_eq] at hwhere
    split at h
    · next hmetadata =>
      cases h
      apply Turn.nothing
      intro u hu
      obtain rfl := hpair u hu
      simp only [bne_iff_ne, ne_eq, Prod.mk.injEq, not_and] at hmetadata
      exact hmetadata hu.severity hu.fixedVersion
    next hmetadata =>
    simp only [bne_iff_ne, ne_eq, Prod.mk.injEq, Decidable.not_not] at hmetadata
    obtain ⟨increased, hincreased, h⟩ := bind_eq_ok.mp h
    cases increased with
    | false =>
      cases h
      apply Turn.nothing
      intro u hu
      obtain rfl := hpair u hu
      cases hu.increased.symm.trans hincreased
    | true =>
      cases h
      refine ⟨fun u => ?_, fun other hne hother => hother.erase hne hnew.scope_eq hold.scope_eq⟩
      rw [List.mem_append, List.mem_singleton]
      apply or_congr_right
      constructor
      · intro hu
        subst hu
        exact ⟨hnewEntry, holdEntry, hnew, hold, hwhere.1.2, hwhere.2.2, hmetadata.1, hmetadata.2,
          hincreased⟩
      · exact hpair u
  · next hnone =>
    cases h
    apply Turn.nothing
    intro u hu
    exact hnone _ _ ((lookup_iff_sole derivative.nodup_keys).mpr hu.derivative_sole)
      ((lookup_iff_sole upstream.nodup_keys).mpr hu.upstream_sole)

theorem carryUpgrades_exact {scopes : List FindingIdentity} (hnodup : scopes.Nodup)
    (hunmoved : ∀ scope ∈ scopes, Unmoved derivative upstream parts scope)
    (h : carryUpgrades dpkg derivative upstream (upgradeCandidates derivative.keys)
      (upgradeCandidates upstream.keys) parts scopes = .ok parts') (u : PackageUpgrade) :
    u ∈ parts'.upgrades ↔
      u ∈ parts.upgrades ∨ ∃ scope ∈ scopes, CarriedOver dpkg derivative upstream scope u := by
  induction scopes generalizing parts with
  | nil =>
    cases h
    simp
  | cons scope scopes ih =>
    obtain ⟨next, hnext, h⟩ := bind_eq_ok.mp h
    obtain ⟨hscope, hnodup⟩ := List.nodup_cons.mp hnodup
    have hturn := carryUpgrade_exact (hunmoved scope (List.mem_cons_self ..)) hnext
    have hrest : ∀ other ∈ scopes, Unmoved derivative upstream next other := by
      intro other hother
      apply hturn.others other (fun he => hscope (he ▸ hother))
      exact hunmoved other (List.mem_cons_of_mem _ hother)
    rw [ih hnodup hrest h, hturn.upgrades]
    simp [or_assoc]

/-- The upgrades of a comparison. -/
theorem mem_packageUpgrades {c : Comparison} (h : compareFindings dpkg derivative upstream = .ok c)
    (u : PackageUpgrade) :
    u ∈ c.packageUpgrades ↔ ∃ scope, CarriedOver dpkg derivative upstream scope u := by
  obtain ⟨_, -, h⟩ := bind_eq_ok.mp h
  obtain ⟨parts, hparts, h⟩ := bind_eq_ok.mp h
  cases h
  have hperm : ∀ ids : List FindingIdentity, (sortedIdentities ids).Perm ids :=
    fun ids => List.perm_insertionSort _ ids
  have hnodup := (hperm _).nodup_iff.mpr ((nodup_upgradeCandidates derivative.keys).filter
    ((upgradeCandidates upstream.keys).map Prod.fst).contains)
  refine (carryUpgrades_exact hnodup (fun scope _ => unmoved_initial _ _ scope) hparts u).trans ?_
  constructor
  · intro hu
    obtain hu | ⟨scope, -, hu⟩ := hu
    · cases hu
    · exact ⟨scope, hu⟩
  · intro hu
    obtain ⟨scope, hu⟩ := hu
    refine .inr ⟨scope, (hperm _).mem_iff.mpr (List.mem_filter.mpr ⟨?_, ?_⟩), hu⟩
    · exact mem_keys_of_lookup ((lookup_iff_sole derivative.nodup_keys).mpr hu.derivative_sole)
    · apply List.contains_iff_mem.mpr
      exact mem_keys_of_lookup ((lookup_iff_sole upstream.nodup_keys).mpr hu.upstream_sole)

end loop

/-! ## The only copies -/

/-- The same class, type, target, vulnerability ID, package name and package path. -/
def sameComponent (i j : FindingIdentity) : Bool :=
  i.resultClass == j.resultClass && i.resultType == j.resultType && i.target == j.target &&
    i.vulnerabilityId == j.vulnerabilityId && i.packageName == j.packageName &&
    i.packagePath == j.packagePath

/-- The package ID is `name@version`. -/
def CanonicalId (i : FindingIdentity) : Prop := i.packageId = i.packageName ++ "@" ++ i.installedVersion

instance (i : FindingIdentity) : Decidable (CanonicalId i) := inferInstanceAs (Decidable (_ = _))

theorem sameComponent_iff {i j : FindingIdentity} : sameComponent i j = true ↔
    { i with packageId := [], installedVersion := [] } =
      { j with packageId := [], installedVersion := [] } := by
  simp [sameComponent, and_assoc]

theorem debianUpgradeScope_eq_some {i scope : FindingIdentity} : debianUpgradeScope i = some scope ↔
    (i.resultClass = "os-pkgs".toList ∧ i.resultType = "debian".toList ∧
      ("os:debian/" : Text).isPrefixOf i.target = true) ∧ CanonicalId i ∧
      { i with packageId := [], installedVersion := [] } = scope := by
  unfold debianUpgradeScope
  split
  · next h =>
    simp only [Bool.or_eq_true, bne_iff_ne, ne_eq, Bool.not_eq_true'] at h
    refine iff_of_false (fun hn => by cases hn) fun hs => ?_
    obtain ⟨⟨hclass, htype, htarget⟩, hid, -⟩ := hs
    obtain ((h | h) | h) | h := h
    · exact h hclass
    · exact h htype
    · rw [htarget] at h
      cases h
    · exact h hid
  · next h =>
    simp only [Bool.or_eq_true, bne_iff_ne, ne_eq, Bool.not_eq_true', not_or, Decidable.not_not,
      Bool.not_eq_false] at h
    rw [Option.some.injEq]
    exact ⟨fun he => ⟨⟨h.1.1.1, h.1.1.2, h.1.2⟩, h.2, he⟩, fun hs => hs.2.2⟩

/-- The scope is the component, for canonical package IDs. -/
theorem scope_of_sameComponent {i j scope : FindingIdentity} (hj : debianUpgradeScope j = some scope)
    (h : sameComponent i j = true) (hi : CanonicalId i) : debianUpgradeScope i = some scope := by
  obtain ⟨⟨hclass, htype, htarget⟩, -, hscope⟩ := debianUpgradeScope_eq_some.mp hj
  have hsame := sameComponent_iff.mp h
  simp only [FindingIdentity.mk.injEq] at hsame
  obtain ⟨hc, ht, hg, -⟩ := hsame
  refine debianUpgradeScope_eq_some.mpr ⟨⟨?_, ?_, ?_⟩, hi, ?_⟩
  · rw [hc, hclass]
  · rw [ht, htype]
  · rw [hg, htarget]
  · rw [← hscope]
    exact sameComponent_iff.mp h

theorem sameComponent_of_scope {i j scope : FindingIdentity} (hi : debianUpgradeScope i = some scope)
    (hj : debianUpgradeScope j = some scope) : sameComponent i j = true := by
  apply sameComponent_iff.mpr
  rw [(debianUpgradeScope_eq_some.mp hi).2.2, (debianUpgradeScope_eq_some.mp hj).2.2]

/-- In one scope, the version tells identities apart. -/
theorem eq_of_installedVersion {i j scope : FindingIdentity} (hi : debianUpgradeScope i = some scope)
    (hj : debianUpgradeScope j = some scope) (h : i.installedVersion = j.installedVersion) : i = j := by
  have hsame := sameComponent_iff.mp (sameComponent_of_scope hi hj)
  have hid : CanonicalId i := (debianUpgradeScope_eq_some.mp hi).2.1
  have hjd : CanonicalId j := (debianUpgradeScope_eq_some.mp hj).2.1
  cases i
  cases j
  simp only [FindingIdentity.mk.injEq, CanonicalId] at hsame hid hjd h ⊢
  simp_all

/-- The upgrade is of the only finding of its component in either image. -/
structure Attributed (dpkg : Dpkg) (derivative upstream : Findings) (u : PackageUpgrade) : Prop where
  upstream_once : (upstream.entries.filter fun f =>
    sameComponent f.identity u.upstream.identity) = [u.upstream]
  derivative_once : (derivative.entries.filter fun f =>
    sameComponent f.identity u.upstream.identity) = [u.derivative]
  upstream_id : CanonicalId u.upstream.identity
  derivative_id : CanonicalId u.derivative.identity
  severity : u.derivative.severity = u.upstream.severity
  fixedVersion : u.derivative.fixedVersion = u.upstream.fixedVersion
  newer : dpkg u.derivative.identity.installedVersion u.upstream.identity.installedVersion =
    some (0, false)

/-- The image has a finding of the component whose package ID is not canonical. -/
def OtherCopy (fs : Findings) (key : FindingIdentity) : Prop :=
  ∃ f ∈ fs.entries, sameComponent f.identity key = true ∧ ¬ CanonicalId f.identity

/-- Where each image has one canonical finding of a Debian scope, of different versions with equal
metadata, and the derivative's version is the newer one, neither image has another copy. -/
def SingleCopies (dpkg : Dpkg) (derivative upstream : Findings) : Prop :=
  ∀ scope, ∀ new ∈ derivative.entries, ∀ old ∈ upstream.entries,
    Sole derivative.keys scope new.identity → Sole upstream.keys scope old.identity →
    new.identity.installedVersion ≠ old.identity.installedVersion →
    new.severity = old.severity → new.fixedVersion = old.fixedVersion →
    debianVersionIncreased dpkg new.identity.installedVersion old.identity.installedVersion =
      .ok true →
    ¬ OtherCopy derivative old.identity ∧ ¬ OtherCopy upstream old.identity

section copies
variable {dpkg : Dpkg} {derivative upstream : Findings}

theorem newer_of_increased {new old : Text} (h : debianVersionIncreased dpkg new old = .ok true) :
    dpkg new old = some (0, false) := by
  obtain ⟨_, -, h⟩ := bind_eq_ok.mp h
  split at h
  · cases h
  next status message hdpkg =>
  obtain ⟨_, hchecked, h⟩ := bind_eq_ok.mp h
  have hstatus : status = 0 := by simpa using Except.ok.inj h
  rw [invalidWhen_eq_ok, Bool.or_eq_false_iff] at hchecked
  rw [hdpkg, hstatus, hchecked.2]

/-- The findings of a component are the one of the scope and the other copies. -/
theorem once_iff {fs : Findings} {scope key : FindingIdentity} {f : Finding} (hf : f ∈ fs.entries)
    (hsole : Sole fs.keys scope f.identity) (hkey : debianUpgradeScope key = some scope) :
    (fs.entries.filter fun g => sameComponent g.identity key) = [f] ↔ ¬ OtherCopy fs key := by
  have hcanonical : CanonicalId f.identity := (debianUpgradeScope_eq_some.mp hsole.scope_eq).2.1
  rw [← List.perm_singleton,
    List.perm_ext_iff_of_nodup (fs.nodup_entries.filter _) (List.nodup_singleton f)]
  simp only [List.mem_filter, List.mem_singleton]
  constructor
  · intro h hother
    obtain ⟨g, hg, hsame, hid⟩ := hother
    obtain rfl := (h g).mp ⟨hg, hsame⟩
    exact hid hcanonical
  · intro h g
    constructor
    · intro hg
      have hid : CanonicalId g.identity := by
        by_contra hid
        exact h ⟨g, hg.1, hg.2, hid⟩
      apply List.inj_on_of_nodup_map fs.distinct hg.1 hf
      exact hsole.only _ (Findings.mem_keys_of_mem hg.1) (scope_of_sameComponent hkey hg.2 hid)
    · intro he
      subst he
      exact ⟨hf, sameComponent_of_scope hsole.scope_eq hkey⟩

/-- An upgrade that is carried is of the only copies when there is no other one. -/
theorem attributed_iff {scope : FindingIdentity} {u : PackageUpgrade}
    (hu : CarriedOver dpkg derivative upstream scope u) :
    Attributed dpkg derivative upstream u ↔
      ¬ OtherCopy derivative u.upstream.identity ∧ ¬ OtherCopy upstream u.upstream.identity := by
  have hkey := hu.upstream_sole.scope_eq
  rw [← once_iff hu.new hu.derivative_sole hkey, ← once_iff hu.old hu.upstream_sole hkey]
  constructor
  · exact fun h => ⟨h.derivative_once, h.upstream_once⟩
  · intro h
    exact ⟨h.2, h.1, (debianUpgradeScope_eq_some.mp hkey).2.1,
      (debianUpgradeScope_eq_some.mp hu.derivative_sole.scope_eq).2.1, hu.severity, hu.fixedVersion,
      newer_of_increased hu.increased⟩

theorem carriedOver_iff {scope : FindingIdentity} {u : PackageUpgrade} :
    CarriedOver dpkg derivative upstream scope u ↔
      u.derivative ∈ derivative.entries ∧ u.upstream ∈ upstream.entries ∧
      Sole derivative.keys scope u.derivative.identity ∧
      Sole upstream.keys scope u.upstream.identity ∧
      u.derivative.identity.installedVersion ≠ u.upstream.identity.installedVersion ∧
      u.derivative.severity = u.upstream.severity ∧
      u.derivative.fixedVersion = u.upstream.fixedVersion ∧
      debianVersionIncreased dpkg u.derivative.identity.installedVersion
        u.upstream.identity.installedVersion = .ok true := by
  constructor
  · intro h
    refine ⟨h.new, h.old, h.derivative_sole, h.upstream_sole, fun he => ?_, h.severity,
      h.fixedVersion, h.increased⟩
    apply h.introduced
    rw [eq_of_installedVersion h.derivative_sole.scope_eq h.upstream_sole.scope_eq he]
    exact h.upstream_sole.mem
  · intro h
    obtain ⟨hnew, hold, hd, hu, hne, hseverity, hfixed, hincreased⟩ := h
    refine ⟨hnew, hold, hd, hu, fun hmem => hne ?_, fun hmem => hne ?_, hseverity, hfixed, hincreased⟩
    · rw [hu.only _ hmem hd.scope_eq]
    · rw [hd.only _ hmem hu.scope_eq]

/-- Every upgrade of an accepted pair of reports is of the only findings of its component exactly
when no copy with another package ID stands beside a pair of canonical ones that is carried. -/
theorem upgrades_attributed_iff {derivativeReport upstreamReport : Json} {c : Comparison}
    (hd : normalizeFindings derivativeReport "derivative" = .ok derivative)
    (hu : normalizeFindings upstreamReport "upstream" = .ok upstream)
    (h : compareReports dpkg derivativeReport upstreamReport = .ok c) :
    (∀ u ∈ c.packageUpgrades, Attributed dpkg derivative upstream u) ↔
      SingleCopies dpkg derivative upstream := by
  rw [compareReports_eq, hd, hu] at h
  have hmem := mem_packageUpgrades h
  constructor
  · intro hall scope new hnew old hold hsoleNew hsoleOld hne hseverity hfixed hincreased
    have hcarried : CarriedOver dpkg derivative upstream scope ⟨old, new⟩ :=
      carriedOver_iff.mpr ⟨hnew, hold, hsoleNew, hsoleOld, hne, hseverity, hfixed, hincreased⟩
    exact (attributed_iff hcarried).mp (hall _ ((hmem _).mpr ⟨scope, hcarried⟩))
  · intro hsingle u hin
    obtain ⟨scope, hcarried⟩ := (hmem u).mp hin
    apply (attributed_iff hcarried).mpr
    obtain ⟨hnew, hold, hsoleNew, hsoleOld, hne, hseverity, hfixed, hincreased⟩ :=
      carriedOver_iff.mp hcarried
    exact hsingle scope _ hnew _ hold hsoleNew hsoleOld hne hseverity hfixed hincreased

end copies

def siteFindings (installedVersion : Text) : Findings :=
  ⟨[siteFinding installedVersion], List.nodup_singleton _⟩

theorem upgrades_attributed_iff_site :
    (∀ u ∈ [⟨siteFinding "3.5.0-1", siteFinding "3.5.1-1"⟩],
      Attributed siteDpkg (siteFindings "3.5.1-1") (siteFindings "3.5.0-1") u) ↔
    SingleCopies siteDpkg (siteFindings "3.5.1-1") (siteFindings "3.5.0-1") := by
  have hcompare : compareReports siteDpkg (siteReport "3.5.1-1") (siteReport "3.5.0-1") =
      .ok { siteComparison with accepted := [] } := by decide
  exact upgrades_attributed_iff rfl rfl hcompare

/-- A copy of the package under another ID, which both images have. -/
def otherCopy : Finding :=
  ⟨⟨"os-pkgs", "debian", "os:debian/13.0", "CVE-2026-0001", "openssl", [], [], "3.4.9-1"⟩, "HIGH",
    "3.5.2-1"⟩

def otherVulnerability : Json :=
  .obj [("Severity", .str "HIGH"), ("VulnerabilityID", .str "CVE-2026-0001"),
    ("PkgName", .str "openssl"), ("InstalledVersion", .str "3.4.9-1"),
    ("FixedVersion", .str "3.5.2-1")]

def besideReport (installedVersion : Text) : Json :=
  reportOf [.obj (opensslResult
    [opensslVulnerability "CVE-2026-0001" installedVersion, otherVulnerability])]

def besideComparison : Comparison where
  introduced := []
  inherited := [otherCopy, siteFinding "3.5.1-1"]
  removed := []
  accepted := []
  packageUpgrades := [⟨siteFinding "3.5.0-1", siteFinding "3.5.1-1"⟩]

theorem beside_distinct (installedVersion : Text) :
    ([siteFinding installedVersion, otherCopy].map Finding.identity).Nodup := by
  apply List.nodup_cons.mpr ⟨?_, List.nodup_singleton _⟩
  intro h
  cases congrArg FindingIdentity.packageId (List.mem_singleton.mp h)

def besideFindings (installedVersion : Text) : Findings :=
  ⟨[siteFinding installedVersion, otherCopy], beside_distinct installedVersion⟩

/-- The upgrade is carried although each image has two findings of the component. -/
theorem upgrade_beside_other_copy : ∃ derivative upstream c,
    normalizeFindings (besideReport "3.5.1-1") "derivative" = .ok derivative ∧
    normalizeFindings (besideReport "3.5.0-1") "upstream" = .ok upstream ∧
    compareReports siteDpkg (besideReport "3.5.1-1") (besideReport "3.5.0-1") = .ok c ∧
    ¬ ∀ u ∈ c.packageUpgrades, Attributed siteDpkg derivative upstream u := by
  refine ⟨besideFindings "3.5.1-1", besideFindings "3.5.0-1", besideComparison, rfl, rfl, by decide,
    fun hall => ?_⟩
  have honce := (hall _ (List.mem_singleton.mpr rfl)).derivative_once
  have htwo : ((besideFindings "3.5.1-1").entries.filter fun f =>
      sameComponent f.identity (siteFinding "3.5.0-1").identity).length = 2 := by decide
  rw [honce] at htwo
  cases htwo

end ArubaCertRenewer
