import ArubaCertRenewer.ArchiveChecks
import ArubaCertRenewer.SbomSafety

/- Which archives `inspect_archive` returns from or refuses with an error of its own.

   Three of its operations may raise an error of Python's own: the type of the rootfs is
   asked for without the rootfs being an object, a media type is looked up in a set
   without being a text, and the digest of a manifest is encoded to measure it. What an
   archive holds up to each is said by the specifications of the parts. -/
namespace ArubaCertRenewer.Inspection
open PyValue PyText

/-! ## Members -/

/-- What every member of an accepted archive is. -/
structure IsMember (member : Member) : Prop where
  safe : isUnsafePath member.name = false
  regular : (member.isFile || member.isDir) = true

/-- The members are accepted, and pairwise different. -/
structure IsIndexed (members : List Member) : Prop where
  length_le : members.length ≤ archiveMemberMax
  nodup : (members.map Member.name).Nodup
  each : ∀ member ∈ members, IsMember member

def byName (members : List Member) : List (Str × Member) := members.map fun m => (m.name, m)

/-- The member of this name is a file that is read, with these bytes. -/
def HoldsBytes (index : List (Str × Member)) (name : Str) (raw : Bytes) : Prop :=
  ∃ member, index.lookup name = some member ∧ member.isFile = true ∧ 0 < member.size ∧
    member.size ≤ archiveMetadataMaxBytes ∧ member.content.length = member.size ∧ raw = member.content

/-- The bytes are of the JSON value. -/
def HoldsJson (a : Archive) (raw : Bytes) (value : Value) : Prop :=
  List.isPrefixOf [0xef, 0xbb, 0xbf] raw = false ∧ a.readJson raw = .ok value

section members
variable {a : Archive} {index index' : List (Str × Member)} {member : Member} {members : List Member}
variable {raw : Bytes} {name : Str}

theorem onlyRaises_addMember : OnlyRaises (addMember index member) := by
  simp only [addMember, onlyRaises_bind, onlyRaises_rejectWhen, onlyRaises_pure, implies_true, and_self]

theorem addMember_eq_ok : addMember index member = .ok index' ↔
    index.length < archiveMemberMax ∧ IsMember member ∧ member.name ∉ index.map Prod.fst ∧
      index' = index ++ [(member.name, member)] := by
  simp only [addMember, bind_eq_ok, rejectWhen_eq_ok, decide_eq_false_iff_not, Nat.not_le,
    isSome_lookup_eq_false, Bool.not_eq_false']
  constructor
  · intro h
    obtain ⟨_, hlength, _, hsafe, _, hnew, _, hregular, h⟩ := h
    cases h
    exact ⟨hlength, ⟨hsafe, hregular⟩, hnew, rfl⟩
  · intro h
    obtain ⟨hlength, hmember, hnew, rfl⟩ := h
    exact ⟨(), hlength, (), hmember.safe, (), hnew, (), hmember.regular, rfl⟩

theorem map_fst_byName : (byName members).map Prod.fst = members.map Member.name := by
  simp [byName]

/-- The table of the members before, with the rest of them. -/
theorem foldlM_addMember {before rest : List Member} (hbefore : IsIndexed before) :
    rest.foldlM addMember (byName before) = .ok index ↔
      IsIndexed (before ++ rest) ∧ index = byName (before ++ rest) := by
  induction rest generalizing before with
  | nil =>
    rw [List.append_nil]
    constructor
    · intro h
      cases h
      exact ⟨hbefore, rfl⟩
    · intro h
      rw [h.2]
      rfl
  | cons member rest ih =>
    rw [List.foldlM_cons, bind_eq_ok, List.append_cons]
    have hnext : byName (before ++ [member]) = byName before ++ [(member.name, member)] := by
      simp [byName]
    have hlength : (byName before).length = before.length := List.length_map _
    constructor
    · intro h
      obtain ⟨next, hadd, h⟩ := h
      obtain ⟨hroom, hmember, hnew, rfl⟩ := addMember_eq_ok.mp hadd
      rw [map_fst_byName] at hnew
      have hindexed : IsIndexed (before ++ [member]) := by
        refine ⟨?_, ?_, ?_⟩
        · rw [List.length_append, List.length_singleton]
          omega
        · rw [List.map_append, List.map_singleton, ← List.concat_eq_append]
          exact hbefore.nodup.concat hnew
        · intro m hm
          obtain hm | hm := List.mem_append.mp hm
          · exact hbefore.each m hm
          · rw [List.mem_singleton.mp hm]
            exact hmember
      rw [← hnext] at h
      exact (ih hindexed).mp h
    · intro h
      have hbegun : IsIndexed (before ++ [member]) := by
        refine ⟨?_, ?_, fun m hm => h.1.each m (List.mem_append_left rest hm)⟩
        · have hlength := h.1.length_le
          rw [List.length_append] at hlength
          omega
        · have hnodup := h.1.nodup
          rw [List.map_append] at hnodup
          exact (List.nodup_append.mp hnodup).1
      have hadd : addMember (byName before) member = .ok (byName (before ++ [member])) := by
        rw [addMember_eq_ok]
        have hroom := hbegun.length_le
        have hnodup := hbegun.nodup
        rw [List.length_append, List.length_singleton] at hroom
        rw [List.map_append, List.map_singleton] at hnodup
        refine ⟨by omega, hbegun.each member (by simp), fun hold => ?_, hnext⟩
        rw [map_fst_byName] at hold
        exact (List.nodup_append.mp hnodup).2.2 _ hold member.name (List.mem_singleton.mpr rfl) rfl
      exact ⟨_, hadd, (ih hbegun).mpr h⟩

theorem onlyRaises_members : OnlyRaises (members.foldlM addMember []) := by
  rw [onlyRaises_foldlM]
  intro _ member _ _ _ _
  exact onlyRaises_addMember

theorem members_iff : members.foldlM addMember [] = .ok index ↔
    IsIndexed members ∧ index = byName members := by
  have hempty : IsIndexed [] := ⟨Nat.zero_le _, List.nodup_nil, fun m hm => by cases hm⟩
  exact foldlM_addMember hempty

theorem onlyRaises_memberBytes : OnlyRaises (memberBytes index name) := by
  unfold memberBytes
  split
  · exact onlyRaises_raised
  · simp only [onlyRaises_bind, onlyRaises_rejectWhen, onlyRaises_pure, implies_true, and_self]

theorem memberBytes_eq_ok : memberBytes index name = .ok raw ↔ HoldsBytes index name raw := by
  unfold memberBytes HoldsBytes
  split
  · next hnone =>
    rw [hnone]
    exact iff_of_false (fun h => by cases h) fun ⟨_, h, _⟩ => by cases h
  · next member hmember =>
    rw [hmember]
    simp only [bind_eq_ok, rejectWhen_eq_ok, Bool.not_eq_false', Bool.or_eq_false_iff,
      decide_eq_false_iff_not, Nat.not_lt, bne_eq_false_iff_eq, Option.some.injEq, exists_eq_left']
    constructor
    · intro h
      obtain ⟨_, hfile, _, ⟨hsize, hbound⟩, _, hlength, h⟩ := h
      cases h
      exact ⟨hfile, Nat.pos_of_ne_zero hsize, hbound, hlength, rfl⟩
    · intro h
      obtain ⟨hfile, hsize, hbound, hlength, rfl⟩ := h
      exact ⟨(), hfile, (), ⟨Nat.ne_of_gt hsize, hbound⟩, (), hlength, rfl⟩

theorem onlyRaises_jsonValue : OnlyRaises (jsonValue a raw name) := by
  rw [jsonValue, onlyRaises_bind]
  refine ⟨onlyRaises_rejectWhen, fun _ _ => ?_⟩
  split
  · exact onlyRaises_ok
  · exact onlyRaises_raised

theorem jsonValue_eq_ok {value : Value} :
    jsonValue a raw name = .ok value ↔ HoldsJson a raw value := by
  simp only [jsonValue, HoldsJson, bind_eq_ok, rejectWhen_eq_ok]
  constructor
  · intro h
    obtain ⟨_, hbom, h⟩ := h
    split at h
    · next hread =>
      cases h
      exact ⟨hbom, hread⟩
    · cases h
  · intro h
    refine ⟨(), h.1, ?_⟩
    rw [h.2]
    rfl

theorem onlyRaises_jsonList : OnlyRaises (jsonList a raw name) := by
  rw [jsonList, onlyRaises_bind]
  refine ⟨onlyRaises_jsonValue, fun value _ => ?_⟩
  cases value <;> first | exact onlyRaises_ok | exact onlyRaises_raised

theorem jsonList_eq_ok {items : List Value} :
    jsonList a raw name = .ok items ↔ HoldsJson a raw (.arr items) := by
  simp only [jsonList, bind_eq_ok, jsonValue_eq_ok]
  constructor
  · intro h
    obtain ⟨value, hvalue, h⟩ := h
    cases value <;> cases h
    exact hvalue
  · exact fun h => ⟨_, h, rfl⟩

theorem onlyRaises_jsonObject : OnlyRaises (jsonObject a raw name) := by
  rw [jsonObject, onlyRaises_bind]
  refine ⟨onlyRaises_jsonValue, fun value _ => ?_⟩
  cases value <;> first | exact onlyRaises_ok | exact onlyRaises_raised

theorem jsonObject_eq_ok {found : Members} :
    jsonObject a raw name = .ok found ↔ HoldsJson a raw (.obj found) := by
  simp only [jsonObject, bind_eq_ok, jsonValue_eq_ok]
  constructor
  · intro h
    obtain ⟨value, hvalue, h⟩ := h
    cases value <;> cases h
    exact hvalue
  · exact fun h => ⟨_, h, rfl⟩

end members

/-! ## The image and its config -/

/-- The path names the content of this digest. -/
def NamesDigest (path : Str) (classicConfig : Bool) (digest : Str) : Prop :=
  ∃ hash, isHash hash = true ∧ digest = ("sha256:" : Str) ++ hash ∧ path = contentPath hash classicConfig

/-- The manifest is of one image, with this config and these layers. -/
structure NamesImage (manifest : List Value) (entry : Members) (d : ImageDescriptor) : Prop where
  manifest_eq : manifest = [.obj entry]
  layers : get entry "Layers" = some (.arr (d.layerPaths.map .str))
  nonempty : d.layerPaths ≠ []
  length_le : d.layerPaths.length ≤ archiveLayerMax
  config : get entry "Config" = some (.str d.configPath)
  nodup : d.layerPaths.Nodup
  tags : isExpectedTags (get entry "RepoTags") = true

/-- The archive holds the config that the image names. -/
structure HoldsConfig (a : Archive) (index : List (Str × Member)) (d : ImageDescriptor)
    (config : ImageConfig) : Prop where
  path : NamesDigest d.configPath (!d.isOci) config.digest
  bytes : HoldsBytes index d.configPath config.raw
  digest : ("sha256:" : Str) ++ a.sha256 config.raw = config.digest
  json : HoldsJson a config.raw (.obj config.members)

/-- The rootfs is an object, where there is one. -/
def PlainRootfs (config : Members) : Prop :=
  ∀ value, get config "rootfs" = some value → value = .null ∨ ∃ rootfs, value = .obj rootfs

/-- The diff IDs of the config, one for each layer. -/
structure ListsRootfs (config rootfs : Members) (layerCount : Nat) (ids : List Str) : Prop where
  rootfs_eq : get config "rootfs" = some (.obj rootfs)
  type : isStr (get rootfs "type") "layers" = true
  ids_eq : get rootfs "diff_ids" = some (.arr (ids.map .str))
  length_le : ids.length ≤ archiveLayerMax
  length_eq : ids.length = layerCount
  digests : ids.all isSha256Digest = true

section image
variable {a : Archive} {index : List (Str × Member)} {d : ImageDescriptor}

theorem texts_eq_some {items : List Value} {found : List Str} :
    texts items = some found ↔ items = found.map .str := by
  induction items generalizing found with
  | nil => cases found <;> simp [texts]
  | cons item items ih =>
    cases found with
    | nil => cases item <;> simp [texts]
    | cons s found => cases item <;> simp [texts, ih, and_comm]

theorem objects_eq_some {items : List Value} {found : List Members} :
    objects items = some found ↔ items = found.map .obj := by
  induction items generalizing found with
  | nil => cases found <;> simp [objects]
  | cons item items ih =>
    cases found with
    | nil => cases item <;> simp [objects]
    | cons members found => cases item <;> simp [objects, ih, and_comm]

theorem onlyRaises_digestFromPath {path : Str} {classicConfig : Bool} :
    OnlyRaises (digestFromPath path classicConfig) := by
  rw [digestFromPath]
  split
  · exact onlyRaises_ok
  · exact onlyRaises_raised

/-- The hash is at the start of the path of a classic config, and at the end of the others. -/
theorem pathHash_contentPath {hash : Str} {classicConfig : Bool} (h : isHash hash = true) :
    pathHash (contentPath hash classicConfig) classicConfig = hash := by
  rw [isHash, Bool.and_eq_true, beq_iff_eq] at h
  cases classicConfig with
  | true => exact List.take_left' h.1
  | false => exact List.drop_left' (by decide)

theorem digestFromPath_eq_ok {path digest : Str} {classicConfig : Bool} :
    digestFromPath path classicConfig = .ok digest ↔ NamesDigest path classicConfig digest := by
  rw [digestFromPath]
  split
  · next h =>
    rw [Bool.and_eq_true, beq_iff_eq] at h
    constructor
    · intro hd
      exact ⟨_, h.1, (Except.ok.inj hd).symm, h.2⟩
    · intro hd
      obtain ⟨hash, hhash, rfl, rfl⟩ := hd
      rw [pathHash_contentPath hhash]
  · next h =>
    refine iff_of_false (fun hd => by cases hd) fun hd => ?_
    obtain ⟨hash, hhash, -, rfl⟩ := hd
    apply h
    rw [pathHash_contentPath hhash, hhash, beq_self_eq_true]
    rfl

theorem onlyRaises_imageDescriptor {manifest : List Value} : OnlyRaises (imageDescriptor manifest) := by
  unfold imageDescriptor
  split
  · split
    · rw [onlyRaises_bind]
      refine ⟨onlyRaises_rejectWhen, fun _ _ => ?_⟩
      split
      · simp only [onlyRaises_bind, onlyRaises_rejectWhen, onlyRaises_pure, implies_true, and_self]
      · exact onlyRaises_raised
    · exact onlyRaises_raised
  · exact onlyRaises_raised

theorem imageDescriptor_eq_ok {manifest : List Value} :
    imageDescriptor manifest = .ok d ↔ ∃ entry, NamesImage manifest entry d := by
  unfold imageDescriptor
  split
  · next entry =>
    split
    · next layers hlayers =>
      rw [bind_eq_ok]
      simp only [rejectWhen_eq_ok, Bool.or_eq_false_iff, List.isEmpty_eq_false_iff,
        decide_eq_false_iff_not, Nat.not_lt]
      constructor
      · intro h
        obtain ⟨_, hbound, h⟩ := h
        split at h
        · next path paths hconfig hpaths =>
          obtain ⟨_, hplain, h⟩ := bind_eq_ok.mp h
          cases h
          simp only [rejectWhen_eq_ok, Bool.or_eq_false_iff, Bool.not_eq_false', decide_eq_true_eq]
            at hplain
          cases texts_eq_some.mp hpaths
          rw [List.length_map] at hbound
          have hnonempty : paths ≠ [] := fun he => hbound.1 (congrArg (List.map Value.str) he)
          exact ⟨entry, rfl, hlayers, hnonempty, hbound.2, hconfig, hplain.1, hplain.2⟩
        · cases h
      · intro h
        obtain ⟨_, h⟩ := h
        cases h.manifest_eq
        cases hlayers.symm.trans h.layers
        refine ⟨(), ⟨fun he => h.nonempty (List.map_eq_nil_iff.mp he), ?_⟩, ?_⟩
        · rw [List.length_map]
          exact h.length_le
        · rw [h.config, texts_eq_some.mpr rfl]
          refine bind_eq_ok.mpr ⟨(), ?_, rfl⟩
          rw [rejectWhen_eq_ok, h.tags, decide_eq_true h.nodup]
          rfl
    · next hnone =>
      refine iff_of_false (fun h => by cases h) fun h => ?_
      obtain ⟨_, h⟩ := h
      cases h.manifest_eq
      exact hnone _ h.layers
  · next hnone =>
    refine iff_of_false (fun h => by cases h) fun h => ?_
    obtain ⟨entry, h⟩ := h
    exact hnone entry h.manifest_eq

theorem onlyRaises_imageConfig : OnlyRaises (imageConfig a index d) := by
  simp only [imageConfig, onlyRaises_bind, onlyRaises_digestFromPath, onlyRaises_memberBytes,
    onlyRaises_rejectWhen, onlyRaises_jsonObject, true_and]
  intro _ _ _ _ _ _ _ _
  exact onlyRaises_ok

theorem imageConfig_eq_ok {config : ImageConfig} :
    imageConfig a index d = .ok config ↔ HoldsConfig a index d config := by
  simp only [imageConfig, bind_eq_ok, digestFromPath_eq_ok, memberBytes_eq_ok, rejectWhen_eq_ok,
    jsonObject_eq_ok, bne_eq_false_iff_eq]
  constructor
  · intro h
    obtain ⟨digest, hpath, raw, hbytes, _, hdigest, found, hjson, h⟩ := h
    cases h
    exact ⟨hpath, hbytes, hdigest, hjson⟩
  · intro h
    exact ⟨_, h.path, _, h.bytes, (), h.digest, _, h.json, rfl⟩

theorem onlyRaises_rootfsIdentities {config : Members} {layerCount : Nat} :
    OnlyRaises (rootfsIdentities config layerCount) ↔ PlainRootfs config := by
  unfold rootfsIdentities PlainRootfs
  split
  · next h =>
    rw [h]
    exact iff_of_true onlyRaises_raised fun _ hv => by cases hv
  · next h =>
    rw [h]
    exact iff_of_true onlyRaises_raised fun _ hv => .inl (Option.some.inj hv).symm
  · next rootfs h =>
    rw [h]
    refine iff_of_true ?_ fun _ hv => .inr ⟨rootfs, (Option.some.inj hv).symm⟩
    rw [onlyRaises_bind]
    refine ⟨onlyRaises_rejectWhen, fun _ _ => ?_⟩
    split
    · rw [onlyRaises_bind]
      refine ⟨onlyRaises_rejectWhen, fun _ _ => ?_⟩
      split
      · simp only [onlyRaises_bind, onlyRaises_rejectWhen, onlyRaises_pure, implies_true, and_self]
      · exact onlyRaises_raised
    · exact onlyRaises_raised
  · next value hnull hobj h =>
    refine iff_of_false (fun hr => ?_) fun hp => ?_
    · obtain ⟨message, hm⟩ := hr _ rfl
      cases hm
    · obtain rfl | ⟨rootfs, rfl⟩ := hp value h
      · exact hnull rfl
      · exact hobj rootfs rfl

theorem rootfsIdentities_eq_ok {config : Members} {layerCount : Nat} {ids : List Str} :
    rootfsIdentities config layerCount = .ok ids ↔ ∃ rootfs, ListsRootfs config rootfs layerCount ids := by
  have hother : ∀ {e : PyError}, (∀ rootfs, get config "rootfs" ≠ some (.obj rootfs)) →
      ((.error e : Except PyError (List Str)) = .ok ids ↔ ∃ rootfs, ListsRootfs config rootfs layerCount ids) :=
    fun hnone => iff_of_false (fun h => by cases h) fun ⟨rootfs, h⟩ => hnone rootfs h.rootfs_eq
  unfold rootfsIdentities
  split
  · next h => exact hother fun rootfs hr => by cases h.symm.trans hr
  · next h => exact hother fun rootfs hr => by cases h.symm.trans hr
  · next rootfs hrootfs =>
    rw [bind_eq_ok]
    simp only [rejectWhen_eq_ok, Bool.not_eq_false']
    constructor
    · intro h
      obtain ⟨_, htype, h⟩ := h
      split at h
      · next items hitems =>
        obtain ⟨_, hlength, h⟩ := bind_eq_ok.mp h
        split at h
        · next found hfound =>
          obtain ⟨_, hdigests, h⟩ := bind_eq_ok.mp h
          cases h
          cases texts_eq_some.mp hfound
          simp only [rejectWhen_eq_ok, Bool.or_eq_false_iff, decide_eq_false_iff_not, Nat.not_lt,
            bne_eq_false_iff_eq, List.length_map, Bool.not_eq_false'] at hlength hdigests
          exact ⟨rootfs, hrootfs, htype, hitems, hlength.1, hlength.2, hdigests⟩
        · cases h
      · cases h
    · intro h
      obtain ⟨_, h⟩ := h
      cases hrootfs.symm.trans h.rootfs_eq
      refine ⟨(), h.type, ?_⟩
      rw [h.ids_eq]
      refine bind_eq_ok.mpr ⟨(), ?_, ?_⟩
      · rw [rejectWhen_eq_ok, List.length_map, h.length_eq, bne_self_eq_false, Bool.or_false,
          decide_eq_false_iff_not, Nat.not_lt, ← h.length_eq]
        exact h.length_le
      · rw [texts_eq_some.mpr rfl]
        exact bind_eq_ok.mpr ⟨(), by simp [h.digests], rfl⟩
  · next _ hobj h =>
    refine hother fun rootfs hr => ?_
    rw [h] at hr
    exact hobj rootfs (Option.some.inj hr)

end image

/-! ## The image manifest -/

/-- The value is one of these texts. -/
def IsAmong (value : Option Value) (names : List Str) : Prop :=
  (names.any fun name => isStr value name) = true

/-- The index has one descriptor. -/
structure Selects (found descriptor : Members) : Prop where
  manifests : get found "manifests" = some (.arr [.obj descriptor])
  version : isInt (get found "schemaVersion") 2 = true

/-- The media type may be looked up, and the digest encoded where it is come to. -/
def SafeDescriptor (descriptor : Members) : Prop :=
  IsHashable (get descriptor "mediaType") ∧
    (IsAmong (get descriptor "mediaType") ociManifestMediaTypes → IsEncodable (get descriptor "digest"))

/-- The descriptor is of the manifest with this digest. -/
structure NamesManifest (descriptor : Members) (digest : Str) : Prop where
  mediaType : IsAmong (get descriptor "mediaType") ociManifestMediaTypes
  bounded : IsBounded (get descriptor "digest") digest
  digest : isSha256Digest digest = true

/-- The archive holds the manifest with this digest. -/
def HoldsManifest (a : Archive) (index : List (Str × Member)) (descriptor : Members) (digest : Str)
    (manifest : Members) : Prop :=
  ∃ raw, HoldsBytes index (("blobs/sha256/" : Str) ++ digest.drop 7) raw ∧
    ("sha256:" : Str) ++ a.sha256 raw = digest ∧ isInt (get descriptor "size") raw.length = true ∧
    HoldsJson a raw (.obj manifest)

/-- The media types of the manifest and of its config may be looked up where they are come to. -/
def SafeManifest (manifest : Members) : Prop :=
  isInt (get manifest "schemaVersion") 2 = true → IsHashable (get manifest "mediaType") ∧
    (IsAmong (get manifest "mediaType") ociManifestMediaTypes →
      ∀ image, get manifest "config" = some (.obj image) → IsHashable (get image "mediaType"))

/-- The manifest is of the config, and lists these layers. -/
structure ListsLayers (manifest image : Members) (config : ImageConfig) (layerCount : Nat)
    (layers : List Members) : Prop where
  version : isInt (get manifest "schemaVersion") 2 = true
  mediaType : IsAmong (get manifest "mediaType") ociManifestMediaTypes
  image_eq : get manifest "config" = some (.obj image)
  configType : IsAmong (get image "mediaType") ociConfigMediaTypes
  digest : isStr (get image "digest") config.digest = true
  size : isInt (get image "size") config.raw.length = true
  layers_eq : get manifest "layers" = some (.arr (layers.map .obj))
  length_eq : layers.length = layerCount

def SafeLayer (layer : Members × Str) : Prop := IsHashable (get layer.1 "mediaType")

/-- The layer is accepted, with its path. -/
def IsLayer (index : List (Str × Member)) (layer : Members × Str) : Prop :=
  IsAmong (get layer.1 "mediaType") gzipMediaTypes ∧ ∃ digest, NamesDigest layer.2 false digest ∧
    isStr (get layer.1 "digest") digest = true ∧
    isIntegerOf (get layer.1 "size") (memberSize index layer.2) = true

section manifest
variable {a : Archive} {index : List (Str × Member)} {d : ImageDescriptor} {config : ImageConfig}
variable {descriptor manifest : Members} {digest : Str} {layerCount : Nat}

theorem isHashable_of_isAmong {value : Option Value} {names : List Str} (h : IsAmong value names) :
    IsHashable value := by
  obtain ⟨name, _, hname⟩ := List.any_eq_true.mp h
  refine ⟨fun items hv => ?_, fun members hv => ?_⟩
  · rw [hv] at hname
    cases hname
  · rw [hv] at hname
    cases hname

/-- A lookup in a set that is to succeed. -/
theorem inSet_eq_true {value : Option Value} {names : List Str} :
    inSet value names = .ok true ↔ IsAmong value names := by
  rw [inSet_eq_ok]
  exact ⟨fun h => h.2.symm, fun h => ⟨isHashable_of_isAmong h, h.symm⟩⟩

theorem onlyRaises_selectedDescriptor {found : Members} : OnlyRaises (selectedDescriptor found) := by
  unfold selectedDescriptor
  split
  · simp only [onlyRaises_bind, onlyRaises_rejectWhen, onlyRaises_pure, implies_true, and_self]
  · exact onlyRaises_raised

theorem selectedDescriptor_eq_ok {found : Members} :
    selectedDescriptor found = .ok descriptor ↔ Selects found descriptor := by
  unfold selectedDescriptor
  split
  · next other hother =>
    simp only [bind_eq_ok, rejectWhen_eq_ok, Bool.not_eq_false']
    constructor
    · intro h
      obtain ⟨_, hversion, h⟩ := h
      cases h
      exact ⟨hother, hversion⟩
    · intro h
      cases hother.symm.trans h.manifests
      exact ⟨(), h.version, rfl⟩
  · next hnone => exact iff_of_false (fun h => by cases h) fun h => hnone _ h.manifests

theorem manifestDigest_eq_ok :
    manifestDigest descriptor = .ok digest ↔ NamesManifest descriptor digest := by
  simp only [manifestDigest, bind_eq_ok, rejectWhen_eq_ok, Bool.not_eq_false', boundedString_eq_ok]
  constructor
  · intro h
    obtain ⟨known, hknown, _, rfl, s, hs, _, hdigest, h⟩ := h
    cases h
    exact ⟨inSet_eq_true.mp hknown, hs, hdigest⟩
  · intro h
    exact ⟨true, inSet_eq_true.mpr h.mediaType, (), rfl, digest, h.bounded, (), h.digest, rfl⟩

theorem onlyRaises_manifestDigest : OnlyRaises (manifestDigest descriptor) ↔ SafeDescriptor descriptor := by
  rw [manifestDigest, onlyRaises_bind, onlyRaises_inSet, SafeDescriptor]
  refine and_congr_right fun _ => ?_
  simp only [onlyRaises_bind, onlyRaises_rejectWhen, rejectWhen_eq_ok, Bool.not_eq_false',
    onlyRaises_boundedString, true_and]
  constructor
  · exact fun h hamong => (h true (inSet_eq_true.mpr hamong) () rfl).1
  · intro h known hknown _ htrue
    rw [htrue, inSet_eq_true] at hknown
    exact ⟨h hknown, fun _ _ _ _ => onlyRaises_ok⟩

theorem onlyRaises_imageManifest : OnlyRaises (imageManifest a index descriptor digest) := by
  simp only [imageManifest, onlyRaises_bind, onlyRaises_memberBytes, onlyRaises_rejectWhen,
    onlyRaises_jsonObject, implies_true, and_true]

theorem imageManifest_eq_ok : imageManifest a index descriptor digest = .ok manifest ↔
    HoldsManifest a index descriptor digest manifest := by
  simp only [imageManifest, HoldsManifest, bind_eq_ok, memberBytes_eq_ok, rejectWhen_eq_ok,
    bne_eq_false_iff_eq, Bool.not_eq_false', jsonObject_eq_ok]
  constructor
  · intro h
    obtain ⟨raw, hbytes, _, hdigest, _, hsize, hjson⟩ := h
    exact ⟨raw, hbytes, hdigest, hsize, hjson⟩
  · intro h
    obtain ⟨raw, hbytes, hdigest, hsize, hjson⟩ := h
    exact ⟨raw, hbytes, (), hdigest, (), hsize, hjson⟩

theorem onlyRaises_checkImage {image : Members} :
    OnlyRaises (checkImage image config) ↔ IsHashable (get image "mediaType") := by
  rw [checkImage, onlyRaises_bind, onlyRaises_inSet]
  exact ⟨fun h => h.1, fun h => ⟨h, fun _ _ => onlyRaises_rejectWhen⟩⟩

theorem onlyRaises_listedLayers : OnlyRaises (listedLayers manifest layerCount) := by
  unfold listedLayers
  split
  · rw [onlyRaises_bind]
    refine ⟨onlyRaises_rejectWhen, fun _ _ => ?_⟩
    split
    · exact onlyRaises_ok
    · exact onlyRaises_raised
  · exact onlyRaises_raised

theorem listedLayers_eq_ok {layers : List Members} : listedLayers manifest layerCount = .ok layers ↔
    get manifest "layers" = some (.arr (layers.map .obj)) ∧ layers.length = layerCount := by
  unfold listedLayers
  split
  · next items hitems =>
    rw [bind_eq_ok]
    simp only [rejectWhen_eq_ok, bne_eq_false_iff_eq]
    constructor
    · intro h
      obtain ⟨_, hlength, h⟩ := h
      split at h
      · next found hfound =>
        cases h
        cases objects_eq_some.mp hfound
        rw [List.length_map] at hlength
        exact ⟨hitems, hlength⟩
      · cases h
    · intro h
      cases hitems.symm.trans h.1
      rw [List.length_map, objects_eq_some.mpr rfl]
      exact ⟨(), h.2, rfl⟩
  · next hnone => exact iff_of_false (fun h => by cases h) fun h => hnone _ h.1

theorem onlyRaises_manifestLayers :
    OnlyRaises (manifestLayers manifest config layerCount) ↔ SafeManifest manifest := by
  rw [manifestLayers, onlyRaises_bind, SafeManifest]
  simp only [rejectWhen_eq_ok, Bool.not_eq_false', onlyRaises_rejectWhen, true_and, forall_const]
  refine forall_congr' fun _ => ?_
  rw [onlyRaises_bind, onlyRaises_inSet]
  refine and_congr_right fun _ => ?_
  simp only [onlyRaises_bind, onlyRaises_rejectWhen, rejectWhen_eq_ok, Bool.not_eq_false', true_and]
  constructor
  · intro h hamong image himage
    have hrest := h true (inSet_eq_true.mpr hamong) () rfl
    rw [himage] at hrest
    exact onlyRaises_checkImage.mp (onlyRaises_bind.mp hrest).1
  · intro h known hknown _ htrue
    rw [htrue, inSet_eq_true] at hknown
    split
    · next image himage =>
      rw [onlyRaises_bind, onlyRaises_checkImage]
      exact ⟨h hknown image himage, fun _ _ => onlyRaises_listedLayers⟩
    · exact onlyRaises_raised

theorem manifestLayers_eq_ok {layers : List Members} :
    manifestLayers manifest config layerCount = .ok layers ↔
      ∃ image, ListsLayers manifest image config layerCount layers := by
  simp only [manifestLayers, bind_eq_ok, rejectWhen_eq_ok, Bool.not_eq_false']
  constructor
  · intro h
    obtain ⟨_, hversion, known, hknown, _, rfl, h⟩ := h
    split at h
    · next image himage =>
      simp only [checkImage, bind_eq_ok, rejectWhen_eq_ok, Bool.or_eq_false_iff, Bool.not_eq_false']
        at h
      obtain ⟨_, ⟨_, himageType, ⟨rfl, hdigest⟩, hsize⟩, hlayers⟩ := h
      obtain ⟨hitems, hlength⟩ := listedLayers_eq_ok.mp hlayers
      exact ⟨image, hversion, inSet_eq_true.mp hknown, himage, inSet_eq_true.mp himageType, hdigest,
        hsize, hitems, hlength⟩
    · cases h
  · intro h
    obtain ⟨image, h⟩ := h
    refine ⟨(), h.version, true, inSet_eq_true.mpr h.mediaType, (), rfl, ?_⟩
    rw [h.image_eq]
    refine bind_eq_ok.mpr ⟨(), ?_, listedLayers_eq_ok.mpr ⟨h.layers_eq, h.length_eq⟩⟩
    refine bind_eq_ok.mpr ⟨true, inSet_eq_true.mpr h.configType, ?_⟩
    rw [rejectWhen_eq_ok, h.digest, h.size]
    rfl

theorem onlyRaises_checkLayer {position : Nat} {layer : Members × Str} :
    OnlyRaises (checkLayer index position layer) ↔ SafeLayer layer := by
  rw [checkLayer, onlyRaises_bind, onlyRaises_inSet, SafeLayer]
  refine and_iff_left fun known _ => ?_
  simp only [onlyRaises_bind, onlyRaises_rejectWhen, onlyRaises_digestFromPath, true_and]
  intro _ _ _ _ _ _
  exact onlyRaises_ok

theorem checkLayer_ok_iff {position : Nat} {layer : Members × Str} :
    (∃ next, checkLayer index position layer = .ok next) ↔ IsLayer index layer := by
  simp only [checkLayer, IsLayer, bind_eq_ok, rejectWhen_eq_ok, Bool.not_eq_false',
    digestFromPath_eq_ok, Bool.or_eq_false_iff, bne_eq_false_iff_eq]
  constructor
  · intro h
    obtain ⟨_, _, hknown, _, rfl, digest, hpath, _, ⟨⟨hdigest, hsize⟩, _⟩, _⟩ := h
    exact ⟨inSet_eq_true.mp hknown, digest, hpath, hdigest, hsize⟩
  · intro h
    obtain ⟨hamong, digest, hpath, hdigest, hsize⟩ := h
    have hsame : layer.2 = ("blobs/sha256/" : Str) ++ digest.drop 7 := by
      obtain ⟨hash, _, rfl, hname⟩ := hpath
      rw [hname, List.drop_left' (by decide)]
      rfl
    exact ⟨position + 1, true, inSet_eq_true.mpr hamong, (), rfl, digest, hpath, (),
      ⟨⟨hdigest, hsize⟩, hsame⟩, rfl⟩

theorem onlyRaises_layers {layers : List (Members × Str)} :
    OnlyRaises (layers.foldlM (checkLayer index) 0) ↔ InTurn SafeLayer (IsLayer index) layers := by
  apply onlyRaises_loop
  · intro position layer
    exact onlyRaises_checkLayer
  · intro position layer
    exact checkLayer_ok_iff

end manifest

/-! ## The archive -/

/-- Each value of the OCI metadata that is come to has the shape that its use needs. -/
def SafeOci (a : Archive) (index : List (Str × Member)) (d : ImageDescriptor) (config : ImageConfig) :
    Prop :=
  hasName index "index.json" = true → hasName index "oci-layout" = true →
  ∀ raw, HoldsBytes index "index.json" raw → ∀ found, HoldsJson a raw (.obj found) →
  ∀ descriptor, Selects found descriptor → SafeDescriptor descriptor ∧
  ∀ digest, NamesManifest descriptor digest →
  ∀ manifest, HoldsManifest a index descriptor digest manifest → SafeManifest manifest ∧
  ∀ layers image, ListsLayers manifest image config d.layerPaths.length layers →
    InTurn SafeLayer (IsLayer index) (layers.zip d.layerPaths)

/-- Each value that is come to has the shape that its use needs. -/
def SafeArchive (a : Archive) : Prop :=
  IsIndexed a.members → a.members ≠ [] →
  ∀ raw, HoldsBytes (byName a.members) "manifest.json" raw →
  ∀ manifest, HoldsJson a raw (.arr manifest) → ∀ d entry, NamesImage manifest entry d →
  ∀ config, HoldsConfig a (byName a.members) d config → PlainRootfs config.members ∧
  ∀ ids rootfs, ListsRootfs config.members rootfs d.layerPaths.length ids →
    d.isOci = true → SafeOci a (byName a.members) d config

section archive
variable {a : Archive} {index : List (Str × Member)} {d : ImageDescriptor} {config : ImageConfig}

theorem onlyRaises_conclude {diffIds : List Str} {oci : Option OciImage} {forms : List LayerForm} :
    OnlyRaises (conclude a d config diffIds oci forms) := by
  unfold conclude
  split
  · exact onlyRaises_raised
  · exact onlyRaises_ok

theorem onlyRaises_classicLayers : OnlyRaises (classicLayers index d) := by
  rw [classicLayers, onlyRaises_bind]
  exact ⟨onlyRaises_rejectWhen, fun _ _ => onlyRaises_ok⟩

theorem onlyRaises_ociImage : OnlyRaises (ociImage a index d config) ↔ SafeOci a index d config := by
  simp only [ociImage, SafeOci, onlyRaises_bind, onlyRaises_rejectWhen, onlyRaises_memberBytes,
    onlyRaises_jsonObject, onlyRaises_selectedDescriptor, onlyRaises_manifestDigest,
    onlyRaises_imageManifest, onlyRaises_manifestLayers, onlyRaises_layers, onlyRaises_pure,
    rejectWhen_eq_ok, memberBytes_eq_ok, jsonObject_eq_ok, selectedDescriptor_eq_ok,
    manifestDigest_eq_ok, imageManifest_eq_ok, manifestLayers_eq_ok, true_and, Bool.not_eq_false',
    Bool.and_eq_true, and_imp, forall_const, exists_imp, implies_true, and_true]

/-- What follows the diff IDs. -/
theorem onlyRaises_represented {ids : List Str} : OnlyRaises (if d.isOci then do
      let oci ← ociImage a index d config
      conclude a d config ids (some oci) oci.layers
    else do
      let forms ← classicLayers index d
      conclude a d config ids none forms) ↔ (d.isOci = true → SafeOci a index d config) := by
  split
  · next hoci =>
    rw [onlyRaises_bind, onlyRaises_ociImage]
    exact ⟨fun h _ => h.1, fun h => ⟨h hoci, fun _ _ => onlyRaises_conclude⟩⟩
  · next hoci =>
    refine iff_of_true ?_ fun h => absurd h hoci
    rw [onlyRaises_bind]
    exact ⟨onlyRaises_classicLayers, fun _ _ => onlyRaises_conclude⟩

theorem onlyRaises_inspectArchive : OnlyRaises (inspectArchive a) ↔ SafeArchive a := by
  have hempty : (byName a.members).isEmpty = false ↔ a.members ≠ [] := by
    rw [List.isEmpty_eq_false_iff, byName, ne_eq, List.map_eq_nil_iff]
  simp only [inspectArchive, SafeArchive, onlyRaises_bind, onlyRaises_members, onlyRaises_rejectWhen,
    onlyRaises_memberBytes, onlyRaises_jsonList, onlyRaises_imageDescriptor, onlyRaises_imageConfig,
    onlyRaises_rootfsIdentities, onlyRaises_represented, members_iff, rejectWhen_eq_ok,
    memberBytes_eq_ok, jsonList_eq_ok, imageDescriptor_eq_ok, imageConfig_eq_ok,
    rootfsIdentities_eq_ok, true_and, and_imp, forall_const, exists_imp]
  rw [← hempty]
  exact ⟨fun h hmembers => h _ hmembers rfl, fun h _ hmembers hindex => by rw [hindex]; exact h hmembers⟩

end archive

/-- Validation fails with an error of its own exactly when each value that it comes to has the
shape that its use needs: an archive's metadata, and an SBOM. -/
theorem release_validation_controlled_iff (a : Archive) (document : Members)
    (configDigest syftManifestDigest : Str) :
    (OnlyRaises (inspectArchive a) ↔ SafeArchive a) ∧
      (OnlyRaises (validateSpdx document configDigest syftManifestDigest) ↔
        SafeSbom document configDigest syftManifestDigest) :=
  ⟨onlyRaises_inspectArchive, onlyRaises_validateSpdx⟩

def asciiBytes (t : String) : Bytes := t.toList.map fun c => UInt8.ofNat c.toNat

/-- A config whose rootfs is a list, and its hash. -/
def listRootfs : Bytes := asciiBytes "\x7b\"rootfs\":[]\x7d"
def listRootfsHash : Str := "6a9b0112fea81465b817644d66d726e6edc06911058e3ded2d431ebea6f50c18"

/-- The `manifest.json` of an image with that config, as bytes and as the value they are of. -/
def listRootfsText : Bytes :=
  asciiBytes ("[\x7b\"Config\":\"6a9b0112fea81465b817644d66d726e6edc06911058e3ded2d431ebea6f50c18.json\"," ++
    "\"RepoTags\":[\"aruba-cert-renewer:release-candidate\"],\"Layers\":[\"layer.tar\"]\x7d]")

def listRootfsManifest : List Value :=
  [.obj [("Config", .str (listRootfsHash ++ (".json" : Str))),
    ("RepoTags", .arr [.str expectedCandidateImage]), ("Layers", .arr [.str "layer.tar"])]]

def regularFile (name : Str) (content : Bytes) : Member := ⟨name, true, false, content.length, content⟩

def listRootfsArchive : Archive where
  members := [regularFile "manifest.json" listRootfsText,
    regularFile (listRootfsHash ++ (".json" : Str)) listRootfs]
  readJson raw := .ok (if raw = listRootfs then .obj [("rootfs", .arr [])] else .arr listRootfsManifest)
  sha256 _ := listRootfsHash
  layers _ := .ok ()

/-- An SBOM whose name is a lone surrogate. -/
def surrogateSbom : Members :=
  [("spdxVersion", .str "SPDX-2.3"), ("dataLicense", .str "CC0-1.0"),
   ("SPDXID", .str "SPDXRef-DOCUMENT"), ("name", .str [⟨0xd800, by decide⟩])]

theorem release_validation_uncontrolled :
    (inspectArchive listRootfsArchive).map (fun _ => ()) = .error .attributeError ∧
      validateSpdx surrogateSbom (("sha256:" : Str) ++ listRootfsHash) "" =
        .error .unicodeEncodeError := by
  constructor
  · decide +kernel
  · rfl

end ArubaCertRenewer.Inspection
