import ArubaCertRenewer.Opnsense
import ArubaCertRenewer.Utf8

/- The files that secrets are read from: the password of a switch, and the key and the
   secret of the OPNsense API.

   The first reader strips the line end from the bytes and decodes what is left, the second
   decodes the bytes and strips the text. Both accept one line of text that is not empty. -/
namespace ArubaCertRenewer
open PyText Effects Effects.Py

def maxSecretFileBytes : Nat := 16 * 1024

/-- `_validate_credential_content`. Every text of the model has an encoding. -/
def validateCredentialContent (credential sourceName : Text) : Except Exc Text := do
  raiseWhen (maxSecretFileBytes < utf8Length credential)
    (opnsenseApiError (sourceName ++ " exceeds " ++ ofNat maxSecretFileBytes ++ " bytes"))
  raiseWhen (credential.contains '\x00') (opnsenseApiError (sourceName ++ " contains NUL"))
  raiseWhen (credential.contains '\r' || credential.contains '\n')
    (opnsenseApiError (sourceName ++ " must contain exactly one line"))
  raiseWhen credential.isEmpty (opnsenseApiError (sourceName ++ " is empty"))
  return credential

/-- `text[:-2]` at the end of a text that ends with `\r\n`, `text[:-1]` at one that ends with
`\n`. -/
def cutLineEnd {α : Type} [DecidableEq α] (cr lf : α) (t : List α) : List α :=
  if [cr, lf] <:+ t then t.dropLast.dropLast
  else if [lf] <:+ t then t.dropLast
  else t

/-- What `_read_secret_file` makes of the bytes it has read. -/
def secretOfBytes (sourceName : Text) (secretBytes : Bytes) : Except Exc Text := do
  raiseWhen (maxSecretFileBytes < secretBytes.length)
    (opnsenseApiError (sourceName ++ " exceeds " ++ ofNat maxSecretFileBytes ++ " bytes"))
  raiseWhen (secretBytes.contains 0) (opnsenseApiError (sourceName ++ " contains NUL"))
  match decodeUtf8 secretBytes with
  | none => .error (opnsenseApiError (sourceName ++ " must contain valid UTF-8"))
  | some secret => validateCredentialContent (cutLineEnd '\r' '\n' secret) sourceName

/-- A path with something in it and no control character (category Cc). -/
def isSafePath (path : Text) : Bool :=
  !(strip path).isEmpty && !path.any fun c => c.toNat < 32 || 0x7f ≤ c.toNat && c.toNat < 0xa0

/-- `_read_secret_file`. -/
def readSecretFile {σ : Type} (configuredPath sourceName : Text) : Act σ Text := do
  raiseIf (!isSafePath configuredPath)
    (opnsenseApiError (sourceName ++ " must be a non-empty safe path"))
  let secretBytes ← osErrorAs (opnsenseApiError (sourceName ++ " could not be read"))
    (readSecureFile configuredPath sourceName (maxSecretFileBytes + 1))
  result (secretOfBytes sourceName secretBytes)

/-! Against a file that can be read, the readers end as its bytes say. -/

/-- An environment in which every file holds these bytes. -/
def holding (content : Bytes) (env : Environment World) : Environment World := fun h c =>
  match c with
  | .resolvePath path _ => .ok path
  | .openPasswordFile _ | .closePasswordFile | .openSecureFile _ _ | .closeFile => .ok ()
  | .readPassword limit | .readFile limit => .ok (content.take limit)
  | c => env h c

section runs
variable {σ : Type} {s : σ} {path sourceName : Text}

theorem readPasswordFile_gives (content : Bytes) (env : Environment World) (configFile : Text) :
    Gives (holding content env) (readPasswordFile path configFile) s
      (passwordOfBytes path (content.take (maxPasswordFileBytes + 1))) s := by
  intro h
  exact ⟨_, rfl⟩

theorem readSecretFile_gives (content : Bytes) (env : Environment World)
    (hpath : isSafePath path = true) :
    Gives (holding content env) (readSecretFile path sourceName) s
      (secretOfBytes sourceName (content.take (maxSecretFileBytes + 1))) s := by
  intro h
  rw [readSecretFile, hpath]
  exact ⟨_, rfl⟩

end runs

/-! Line ends. -/

section lines
variable {α : Type} [DecidableEq α] {cr lf : α} {t p ending : List α}

theorem cutLineEnd_split (cr lf : α) (t : List α) :
    ∃ ending ∈ [[], [lf], [cr, lf]], t = cutLineEnd cr lf t ++ ending := by
  unfold cutLineEnd
  split
  · next h =>
    obtain ⟨u, rfl⟩ := h
    refine ⟨[cr, lf], by simp, ?_⟩
    rw [List.append_cons, List.dropLast_concat, List.dropLast_concat, List.append_assoc]
    rfl
  · split
    · next h =>
      obtain ⟨u, rfl⟩ := h
      exact ⟨[lf], by simp, by rw [List.dropLast_concat]⟩
    · exact ⟨[], by simp, by simp⟩

/-- The line end behind a line is cut off. -/
theorem cutLineEnd_append (hcr : cr ∉ p) (hlf : lf ∉ p) (hending : ending ∈ [[], [lf], [cr, lf]]) :
    cutLineEnd cr lf (p ++ ending) = p := by
  unfold cutLineEnd
  simp only [List.mem_cons, List.not_mem_nil, or_false] at hending
  obtain rfl | rfl | rfl := hending
  · have hnone : ∀ s : List α, lf ∈ s → ¬ s <:+ p ++ [] := by
      intro s hs hsuffix
      rw [List.append_nil] at hsuffix
      exact hlf (hsuffix.subset hs)
    rw [if_neg (hnone _ (by simp)), if_neg (hnone _ (by simp)), List.append_nil]
  · have hnone : ¬ [cr, lf] <:+ p ++ [lf] := by
      intro h
      obtain ⟨u, hu⟩ := h
      rw [List.append_cons] at hu
      apply hcr
      rw [← List.append_inj_left' hu rfl]
      simp
    rw [if_neg hnone, if_pos (List.suffix_append _ _), List.dropLast_concat]
  · rw [if_pos (List.suffix_append _ _), List.append_cons, List.dropLast_concat, List.dropLast_concat]

end lines

theorem trimLineEnd_eq (data : Bytes) : trimLineEnd data = cutLineEnd 13 10 data := by
  have hcrlf : ∀ {u : Bytes}, u ++ [13, 10] = data → data.reverse = 10 :: 13 :: u.reverse := by
    intro u h
    rw [← h, List.reverse_append]
    rfl
  have hlf : ∀ {u : Bytes}, u ++ [10] = data → data.reverse = 10 :: u.reverse := by
    intro u h
    rw [← h, List.reverse_append]
    rfl
  unfold trimLineEnd cutLineEnd
  split
  · next rest h =>
    have hdata : data = rest.reverse ++ [13, 10] := by
      rw [← List.reverse_reverse data, h]
      simp
    rw [hdata, if_pos (List.suffix_append _ _), List.append_cons, List.dropLast_concat,
      List.dropLast_concat]
  · next rest hnot h =>
    have hdata : data = rest.reverse ++ [10] := by
      rw [← List.reverse_reverse data, h, List.reverse_cons]
    rw [if_neg fun ⟨u, hu⟩ => hnot _ (List.cons.inj (h.symm.trans (hcrlf hu))).2, hdata,
      if_pos (List.suffix_append _ _),
      List.dropLast_concat]
  · next hnot₂ hnot₁ =>
    rw [if_neg fun ⟨u, hu⟩ => hnot₂ _ (hcrlf hu), if_neg fun ⟨u, hu⟩ => hnot₁ _ (hlf hu)]

/-! What both accept. -/

/-- The contents of a file that are one secret: a line of text, with one line end or none. -/
structure OneSecret (content : Bytes) (secret : Text) : Prop where
  size : content.length ≤ 16 * 1024
  nonempty : secret ≠ []
  no_nul : '\x00' ∉ secret
  no_cr : '\r' ∉ secret
  no_lf : '\n' ∉ secret
  line : ∃ ending ∈ ([[], [10], [13, 10]] : List Bytes), content = encodeUtf8 secret ++ ending

section secrets
variable {t passwordFile sourceName : Text} {data : Bytes}

theorem nul_mem_encodeUtf8 : 0 ∈ encodeUtf8 t ↔ '\x00' ∈ t := mem_encodeUtf8 (c := '\x00') (by decide)

theorem cr_mem_encodeUtf8 : 13 ∈ encodeUtf8 t ↔ '\r' ∈ t := mem_encodeUtf8 (c := '\r') (by decide)

theorem lf_mem_encodeUtf8 : 10 ∈ encodeUtf8 t ↔ '\n' ∈ t := mem_encodeUtf8 (c := '\n') (by decide)

theorem passwordOfBytes_eq_ok : passwordOfBytes passwordFile data = .ok t ↔ OneSecret data t := by
  constructor
  · intro h
    rw [passwordOfBytes] at h
    obtain ⟨_, hsize, h⟩ := bind_eq_ok.mp h
    obtain ⟨_, hnul, h⟩ := bind_eq_ok.mp h
    obtain ⟨_, hempty, h⟩ := bind_eq_ok.mp h
    obtain ⟨_, hline, h⟩ := bind_eq_ok.mp h
    rw [raiseWhen_eq_ok, decide_eq_false_iff_not, not_lt] at hsize
    simp only [raiseWhen_eq_ok, List.contains_eq_mem, decide_eq_false_iff_not,
      List.isEmpty_eq_false_iff, List.any_eq_false, Bool.or_eq_true, beq_iff_eq, not_or] at hnul hempty hline
    split at h
    · next text hdecode =>
      cases h
      have hline' := decodeUtf8_eq_some.mp hdecode
      obtain ⟨ending, hending, hdata⟩ := cutLineEnd_split 13 10 data
      rw [← trimLineEnd_eq, hline'] at hdata
      rw [hline'] at hempty hline
      refine ⟨hsize, ?_, ?_, ?_, ?_, ending, hending, hdata⟩
      · intro he
        rw [he] at hempty
        exact hempty rfl
      · intro hm
        apply hnul
        rw [hdata]
        exact List.mem_append_left _ (nul_mem_encodeUtf8.mpr hm)
      · intro hm
        exact (hline _ (cr_mem_encodeUtf8.mpr hm)).1 rfl
      · intro hm
        exact (hline _ (lf_mem_encodeUtf8.mpr hm)).2 rfl
    · cases h
  · intro h
    obtain ⟨hsize, hne, hnul, hcr, hlf, ending, hending, hdata⟩ := h
    have hcr' : 13 ∉ encodeUtf8 t := mt cr_mem_encodeUtf8.mp hcr
    have hlf' : 10 ∉ encodeUtf8 t := mt lf_mem_encodeUtf8.mp hlf
    have hcut : trimLineEnd data = encodeUtf8 t := by
      rw [trimLineEnd_eq, hdata]
      exact cutLineEnd_append hcr' hlf' hending
    have hnul' : 0 ∉ data := by
      rw [hdata, List.mem_append, nul_mem_encodeUtf8, not_or]
      refine ⟨hnul, ?_⟩
      simp only [List.mem_cons, List.not_mem_nil, or_false] at hending
      obtain rfl | rfl | rfl := hending <;> decide
    have hne' : encodeUtf8 t ≠ [] := fun he => hne (encodeUtf8_injective he)
    have hone : ∀ b ∈ encodeUtf8 t, b ≠ 13 ∧ b ≠ 10 := by
      intro b hb
      exact ⟨fun he => hcr' (he ▸ hb), fun he => hlf' (he ▸ hb)⟩
    unfold passwordOfBytes
    simp only [hcut, decodeUtf8_encodeUtf8, bind_eq_ok, raiseWhen_eq_ok]
    refine ⟨(), ?_, (), ?_, (), ?_, (), ?_, rfl⟩
    · exact decide_eq_false (not_lt.mpr hsize)
    · simpa using hnul'
    · simpa using hne'
    · simpa using hone

theorem secretOfBytes_eq_ok : secretOfBytes sourceName data = .ok t ↔ OneSecret data t := by
  constructor
  · intro h
    rw [secretOfBytes] at h
    obtain ⟨_, hsize, h⟩ := bind_eq_ok.mp h
    obtain ⟨_, hnul, h⟩ := bind_eq_ok.mp h
    rw [raiseWhen_eq_ok, decide_eq_false_iff_not, not_lt] at hsize
    split at h
    · cases h
    · next secret hdecode =>
      have hdata := decodeUtf8_eq_some.mp hdecode
      rw [validateCredentialContent] at h
      obtain ⟨_, -, h⟩ := bind_eq_ok.mp h
      obtain ⟨_, hnul', h⟩ := bind_eq_ok.mp h
      obtain ⟨_, hline, h⟩ := bind_eq_ok.mp h
      obtain ⟨_, hempty, h⟩ := bind_eq_ok.mp h
      cases h
      simp only [raiseWhen_eq_ok, List.contains_eq_mem, decide_eq_false_iff_not,
        List.isEmpty_eq_false_iff, Bool.or_eq_false_iff] at hnul' hline hempty
      obtain ⟨ending, hending, hsecret⟩ := cutLineEnd_split '\r' '\n' secret
      refine ⟨hsize, hempty, hnul', hline.1, hline.2, encodeUtf8 ending, ?_, ?_⟩
      · simp only [List.mem_cons, List.not_mem_nil, or_false] at hending
        obtain rfl | rfl | rfl := hending <;> decide
      · rw [← encodeUtf8_append, ← hsecret]
        exact hdata
  · intro h
    obtain ⟨hsize, hne, hnul, hcr, hlf, ending, hending, hdata⟩ := h
    obtain ⟨lineEnd, hlineEnd, hencode⟩ : ∃ lineEnd ∈ ([[], ['\n'], ['\r', '\n']] : List Text),
        ending = encodeUtf8 lineEnd := by
      simp only [List.mem_cons, List.not_mem_nil, or_false] at hending
      obtain rfl | rfl | rfl := hending
      · exact ⟨[], by simp, rfl⟩
      · exact ⟨['\n'], by simp, rfl⟩
      · exact ⟨['\r', '\n'], by simp, rfl⟩
    rw [hencode, ← encodeUtf8_append] at hdata
    have hcut : cutLineEnd '\r' '\n' (t ++ lineEnd) = t := cutLineEnd_append hcr hlf hlineEnd
    have hnul' : 0 ∉ data := by
      rw [hdata, nul_mem_encodeUtf8, List.mem_append, not_or]
      refine ⟨hnul, ?_⟩
      simp only [List.mem_cons, List.not_mem_nil, or_false] at hlineEnd
      obtain rfl | rfl | rfl := hlineEnd <;> decide
    have hsmall : utf8Length t ≤ maxSecretFileBytes := by
      have hlength := congrArg List.length hdata
      rw [encodeUtf8_append, List.length_append, length_encodeUtf8] at hlength
      have hmax : maxSecretFileBytes = 16 * 1024 := rfl
      omega
    have hdecode : decodeUtf8 data = some (t ++ lineEnd) := decodeUtf8_eq_some.mpr hdata
    unfold secretOfBytes
    simp only [hdecode, hcut, validateCredentialContent, bind_eq_ok, raiseWhen_eq_ok]
    refine ⟨(), ?_, (), ?_, (), ?_, (), ?_, (), ?_, (), ?_, rfl⟩
    · exact decide_eq_false (not_lt.mpr hsize)
    · simpa using hnul'
    · exact decide_eq_false (not_lt.mpr hsmall)
    · simpa using hnul
    · simp [hcr, hlf]
    · simpa using hne

/-- A file is read up to one byte more than the limit, so that a longer one is noticed. -/
theorem oneSecret_take {content : Bytes} :
    OneSecret (content.take (16 * 1024 + 1)) t ↔ OneSecret content t := by
  by_cases hsize : content.length ≤ 16 * 1024
  · rw [List.take_of_length_le (by omega)]
  · constructor
    · intro h
      have hlength := h.size
      rw [List.length_take] at hlength
      omega
    · intro h
      exact absurd h.size hsize

/-- The two readers accept the same files, with the same secret: those of one line. -/
theorem secret_readers_agree (passwordFile sourceName : Text) (content : Bytes) :
    (∀ t, passwordOfBytes passwordFile (content.take (maxPasswordFileBytes + 1)) = .ok t ↔
      secretOfBytes sourceName (content.take (maxSecretFileBytes + 1)) = .ok t) ∧
    ∀ t, passwordOfBytes passwordFile (content.take (maxPasswordFileBytes + 1)) = .ok t ↔
      OneSecret content t := by
  have hpassword : ∀ t, passwordOfBytes passwordFile (content.take (maxPasswordFileBytes + 1)) =
      .ok t ↔ OneSecret content t := fun t => passwordOfBytes_eq_ok.trans oneSecret_take
  have hsecret : ∀ t, secretOfBytes sourceName (content.take (maxSecretFileBytes + 1)) =
      .ok t ↔ OneSecret content t := fun t => secretOfBytes_eq_ok.trans oneSecret_take
  exact ⟨fun t => (hpassword t).trans (hsecret t).symm, hpassword⟩

end secrets

end ArubaCertRenewer
