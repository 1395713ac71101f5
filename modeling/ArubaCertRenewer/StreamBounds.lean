import ArubaCertRenewer.LayerStreams
import Mathlib.Algebra.GroupWithZero.Nat
import Mathlib.Algebra.Order.Group.Int
import Mathlib.Algebra.BigOperators.Group.List.Basic

/- The bounds of the streams.

   `expanded` never passes the maximum where the loop over the decompressor begins a round, so that
   what is asked of it is positive, and one byte at most over what is left. Each layer gets what the
   layers before it left of the bound, which none of them can make negative. -/
namespace ArubaCertRenewer
open PyText Effects Effects.Py

/-! ## What the events of a run moved -/

/-- The bytes that a call of the decompressor gave. -/
def producedBy : (c : StreamCall) → c.Ans → Nat
  | .decompress _ _, answer => ((answer : Option Inflated).map fun i => i.raw.length).getD 0
  | .read _ _, _ => 0
  | .extractFile _, _ => 0
  | .decompressobj, _ => 0

/-- The bytes that a read gave. -/
def givenBy : (c : StreamCall) → c.Ans → Nat
  | .read _ _, answer => ((answer : Except StreamError Bytes).toOption.map List.length).getD 0
  | .decompress _ _, _ => 0
  | .extractFile _, _ => 0
  | .decompressobj, _ => 0

def expansion (t : History Streams) : Nat := (t.map fun ev => producedBy ev.call ev.ans).sum

def received (t : History Streams) : Nat := (t.map fun ev => givenBy ev.call ev.ans).sum

/-- The decompressor gives at most what it was asked for, when that is positive. -/
def DecompressesWithin (t : History Streams) : Prop :=
  ∀ ev ∈ t, ∀ pending maxLength, ev.call = .decompress pending maxLength → 0 < maxLength →
    (producedBy ev.call ev.ans : Int) ≤ maxLength

/-- A file gives at most what it was asked for, when that is not negative. -/
def ReadsWithin (t : History Streams) : Prop :=
  ∀ ev ∈ t, ∀ source size, ev.call = .read source size → 0 ≤ size →
    (givenBy ev.call ev.ans : Int) ≤ size

def IsDecompress (c : StreamCall) : Prop := ∃ pending maxLength, c = .decompress pending maxLength

section events
variable {t u : History Streams} {ev : Event Streams}

@[simp] theorem expansion_nil : expansion [] = 0 := rfl

@[simp] theorem expansion_cons : expansion (ev :: t) = producedBy ev.call ev.ans + expansion t := rfl

@[simp] theorem expansion_append : expansion (u ++ t) = expansion u + expansion t := by
  rw [expansion, List.map_append, List.sum_append]
  rfl

@[simp] theorem received_nil : received [] = 0 := rfl

@[simp] theorem received_cons : received (ev :: t) = givenBy ev.call ev.ans + received t := rfl

end events

/-! ## Computations that do not decompress -/

section plain
variable {α β : Type}

/-- The computation never calls the decompressor. -/
def Plain (x : Decoding Unit α) : Prop :=
  wpy (fun _ c => ¬ IsDecompress c) x (fun _ _ t => expansion t = 0) () []

/-- Wherever a plain computation runs, it leaves the expansion as it is. -/
theorem Plain.resume {x : Decoding Unit α} {G : History Streams → StreamCall → Prop}
    (hx : Plain x) (hG : ∀ t c, ¬ IsDecompress c → G t c) (t : History Streams) :
    wpy G x (fun _ _ t' => expansion t' = expansion t) () t := by
  apply wpy_use hx
  · intro u c hc
    exact hG _ c hc
  · intro r s u hu
    rw [expansion_append, hu, Nat.zero_add]

namespace Plain

theorem pure (a : α) : Plain (Pure.pure a) := rfl

theorem throw (e : StreamError) : Plain (MonadExcept.throw e : Decoding Unit α) := rfl

theorem result (x : Except StreamError α) : Plain (Py.result x) := rfl

theorem raiseIf (b : Bool) (e : StreamError) : Plain (Py.raiseIf b e) := by
  cases b
  · exact pure ()
  · exact throw e

theorem bind {x : Decoding Unit α} {f : α → Decoding Unit β} (hx : Plain x)
    (hf : ∀ a, Plain (f a)) : Plain (x >>= f) := by
  refine wpy_seq hx (fun a s t ht => ?_) fun e s t ht => ht
  apply wpy_post ((hf a).resume (fun _ _ hc => hc) (t ++ []))
  intro r s' u hu
  rw [hu]
  exact ht

theorem ite {b : Prop} [Decidable b] {x y : Decoding Unit α} (hx : Plain x) (hy : Plain y) :
    Plain (if b then x else y) := by
  split
  · exact hx
  · exact hy

theorem readFrom (source : Stream) (size : Int) : Plain (ArubaCertRenewer.readFrom source size) := by
  refine wpy_bind.mpr (wpy_perform.mpr ⟨?_, fun answer => rfl⟩)
  rintro ⟨pending, maxLength, hc⟩
  cases hc

theorem gzipExactFrom (source : Stream) (name : Text) (size rounds : Nat) (raw : Bytes) :
    Plain (ArubaCertRenewer.gzipExactFrom source name size rounds raw) := by
  induction rounds generalizing raw with
  | zero => exact pure raw
  | succ rounds ih =>
    exact ite (pure raw) (bind (readFrom source _) fun chunk => bind (raiseIf _ _) fun _ => ih _)

theorem gzipExact (source : Stream) (name : Text) (size : Nat) :
    Plain (ArubaCertRenewer.gzipExact source name size) := gzipExactFrom source name size size []

theorem headerText (source : Stream) (name : Text) (left : Nat) :
    Plain (ArubaCertRenewer.headerText source name left) := by
  induction left with
  | zero => exact throw _
  | succ left ih => exact bind (gzipExact source name 1) fun _ => ite (pure left) ih

theorem headerTexts (source : Stream) (name : Text) (flags : UInt8) (rest : List UInt8) (left : Nat) :
    Plain (ArubaCertRenewer.headerTexts source name flags rest left) := by
  induction rest generalizing left with
  | nil => exact pure ()
  | cons flag rest ih => exact ite (bind (headerText source name left) fun _ => ih _) (ih _)

theorem gzipHeader (source : Stream) (name : Text) :
    Plain (ArubaCertRenewer.gzipHeader source name) := by
  have hexact := gzipExact source name
  refine bind (hexact 10) fun header => bind (raiseIf _ _) fun _ => bind (ite ?_ (pure ())) fun _ =>
    bind (headerTexts source name _ _ _) fun _ => ite ?_ (pure ())
  · exact bind (hexact 2) fun extra => bind (hexact _) fun _ => pure ()
  · exact bind (hexact 2) fun _ => pure ()

theorem nextPending (source : Stream) (name : Text) (pending : Bytes) :
    Plain (ArubaCertRenewer.nextPending source name pending) :=
  ite (bind (readFrom source _) fun chunk => bind (raiseIf _ _) fun _ => pure chunk) (pure pending)

theorem gzipTrailer (source : Stream) (name : Text) (unusedData : Bytes) :
    Plain (ArubaCertRenewer.gzipTrailer source name unusedData) := by
  refine bind (ite ?_ (pure unusedData)) fun trailer => bind (raiseIf _ _) fun _ =>
    bind (readFrom source 1) fun more => raiseIf _ _
  exact bind (gzipExact source name _) fun rest => pure (unusedData ++ rest)

end Plain
end plain

/-! ## A gzip member -/

/-- A call and what is done with its answer. -/
theorem wpy_bind_perform {G : History Streams → StreamCall → Prop} {σ β : Type} {c : StreamCall}
    {f : c.Ans → Decoding σ β} {Q : Except StreamError β → σ → History Streams → Prop} {s : σ}
    {t : History Streams} : wpy G (perform (I := Streams) c >>= f) Q s t ↔
      G t c ∧ ∀ answer, wpy G (f answer) Q s (⟨c, answer⟩ :: t) := Iff.rfl

section gzip
variable {source : Stream} {name : Text} {maximum : Int} {t : History Streams}

/-- A call of the decompressor asks for a byte at least, and for one at most over what is left. -/
def AskedWithin (maximum : Int) (t : History Streams) (c : StreamCall) : Prop :=
  ∀ pending maxLength, c = .decompress pending maxLength →
    1 ≤ maxLength ∧ expansion t + maxLength ≤ maximum + 1

theorem askedWithin_of_not {c : StreamCall} (hc : ¬ IsDecompress c) : AskedWithin maximum t c :=
  fun pending maxLength he => absurd ⟨pending, maxLength, he⟩ hc

/-- The loop over the decompressor, from a round where `expanded` is within the maximum. -/
theorem wpy_inflateFrom (rounds : Nat) (pending : Bytes) (hle : (expansion t : Int) ≤ maximum) :
    wpy (AskedWithin maximum) (inflateFrom source name maximum rounds pending (expansion t))
      (fun r _ t' => ∀ unused, r = .ok unused → (expansion t' : Int) ≤ maximum) () t := by
  induction rounds generalizing pending t with
  | zero => trivial
  | succ rounds ih =>
    have hpending := (Plain.nextPending source name pending).resume
      (G := AskedWithin maximum) (fun _ _ => askedWithin_of_not) t
    refine wpy_seq hpending (fun pending s u hu => ?_) fun e s u _ unused hr => by cases hr
    generalize u ++ t = t₁ at hu ⊢
    rw [← hu] at hle ⊢
    refine wpy_bind_perform.mpr ⟨?_, fun answer => ?_⟩
    · intro pending' maxLength he
      cases he
      omega
    · cases answer with
      | none => exact fun unused hr => by cases hr
      | some inflated =>
        refine wpy_bind_raiseIf ?_ fun hwithin => ?_
        · intro _ unused hr
          cases hr
        rw [decide_eq_false_iff_not, not_lt] at hwithin
        have hnext : ((expansion (⟨.decompress pending (min (64 * 1024) (maximum - expansion t₁ + 1)),
            some inflated⟩ :: t₁) : Nat) : Int) = expansion t₁ + inflated.raw.length := by
          rw [expansion_cons]
          show ((inflated.raw.length + expansion t₁ : Nat) : Int) = _
          omega
        split
        · intro unused _
          rw [hnext]
          exact hwithin
        · rw [← hnext] at hwithin ⊢
          exact ih _ hwithin

theorem wpy_validateSingleGzip (hmaximum : 0 ≤ maximum) (rounds : Nat) :
    wpy (AskedWithin maximum) (validateSingleGzip source name maximum rounds)
      (fun r _ t => r = .ok () → (expansion t : Int) ≤ maximum) () [] := by
  have hplain : ∀ t c, ¬ IsDecompress c → AskedWithin maximum t c := fun _ _ => askedWithin_of_not
  refine wpy_seq ((Plain.gzipHeader source name).resume hplain []) (fun _ s t ht => ?_) ?_
  · refine wpy_bind_perform.mpr ⟨?_, fun answer => ?_⟩
    · intro pending maxLength he
      cases he
    have hzero : expansion (⟨.decompressobj, answer⟩ :: (t ++ [])) = 0 := by
      rw [expansion_cons, ht]
      rfl
    have hinflate : wpy (AskedWithin maximum) (inflateFrom source name maximum rounds []
        (expansion (⟨.decompressobj, answer⟩ :: (t ++ []))))
        (fun r _ t' => ∀ unused, r = .ok unused → (expansion t' : Int) ≤ maximum) ()
        (⟨.decompressobj, answer⟩ :: (t ++ [])) :=
      wpy_inflateFrom rounds [] (by rw [hzero]; exact hmaximum)
    rw [hzero] at hinflate
    refine wpy_seq hinflate (fun unused s u hu => ?_) ?_
    · apply wpy_post ((Plain.gzipTrailer source name unused).resume hplain _)
      intro r s v hv _
      rw [hv]
      exact hu unused rfl
    · intro e s u _ hr
      cases hr
  · intro e s t _ hr
    cases hr

end gzip

/-! ## The layers -/

section layers
variable {sha256 : Bytes → Text} {byName : List (Text × ArchiveMember)} {maximum total : Int}
variable {t : History Streams}

/-- Every call of the decompressor asks for a byte at least. -/
def AskedPositive (_ : History Streams) (c : StreamCall) : Prop :=
  ∀ pending maxLength, c = .decompress pending maxLength → 1 ≤ maxLength

/-- A stream is hashed within its bound, and as long as it is. -/
def HashedWithin (maximum : Int) (r : Except StreamError (Text × Int)) (t : History Streams) : Prop :=
  ∀ digest size, r = .ok (digest, size) → size = received t ∧ size ≤ maximum

theorem hashedWithin_error {e : StreamError} : HashedWithin maximum (.error e) t :=
  fun _ _ he => by cases he

theorem wpy_hashFrom {stream : Stream} {name : Text} (rounds : Nat) (data : Bytes)
    (hdata : data.length = received t) (hle : (data.length : Int) ≤ maximum) :
    wpy AskedPositive (hashFrom sha256 stream maximum name rounds data)
      (fun r _ t' => HashedWithin maximum r t') () t := by
  induction rounds generalizing data t with
  | zero => trivial
  | succ rounds ih =>
    refine wpy_bind.mpr (wpy_bind_perform.mpr ⟨?_, fun answer => ?_⟩)
    · intro pending maxLength he
      cases he
    cases answer with
    | error e => exact hashedWithin_error
    | ok chunk =>
      have hreceived : received (⟨.read stream (1024 * 1024), .ok chunk⟩ :: t) =
          chunk.length + received t := rfl
      rw [wpy_result, either_ok]
      split
      · next hempty =>
        intro digest size he
        cases he
        rw [hreceived, hempty, hdata]
        exact ⟨by simp, hdata ▸ hle⟩
      · refine wpy_bind_raiseIf (fun _ => hashedWithin_error) fun hwithin => ?_
        rw [decide_eq_false_iff_not, not_lt] at hwithin
        apply ih
        · rw [hreceived, List.length_append, hdata, Nat.add_comm]
        · exact hwithin

theorem wpy_hashStream {stream : Stream} {name : Text} (hmaximum : 0 ≤ maximum) (rounds : Nat) :
    wpy AskedPositive (hashStream sha256 stream maximum name rounds)
      (fun r _ t => HashedWithin maximum r t) () [] :=
  wpy_hashFrom rounds [] rfl hmaximum

/-- The size of a content, from whatever history. -/
def SizeWithin (maximum : Int) (r : Except StreamError (Text × Int)) : Prop :=
  ∀ digest size, r = .ok (digest, size) → 0 ≤ size ∧ size ≤ maximum

theorem wpy_hashed {stream : Stream} {name : Text} (hmaximum : 0 ≤ maximum) (rounds : Nat) :
    wpy AskedPositive (hashStream sha256 stream maximum name rounds)
      (fun r _ _ => SizeWithin maximum r) () t := by
  apply wpy_use (wpy_hashStream hmaximum rounds)
  · exact fun _ _ hc => hc
  · intro r s u hu digest size he
    obtain ⟨hsize, hle⟩ := hu digest size he
    exact ⟨by omega, hle⟩

theorem wpy_gzip {source : Stream} {name : Text} (hmaximum : 0 ≤ maximum) (rounds : Nat) :
    wpy AskedPositive (validateSingleGzip source name maximum rounds) (fun _ _ _ => True) () t := by
  apply wpy_use (wpy_validateSingleGzip hmaximum rounds)
  · exact fun u c hc pending maxLength he => (hc pending maxLength he).1
  · exact fun _ _ _ _ => trivial

theorem wpy_extractFile {name message : Text} :
    wpy AskedPositive (extractFile name message) (fun _ _ _ => True) () t := by
  refine wpy_bind_perform.mpr ⟨?_, fun found => ?_⟩
  · intro pending maxLength he
    cases he
  · exact wpy_raiseIf.mpr ⟨fun _ => trivial, fun _ => trivial⟩

theorem sizeWithin_error {e : StreamError} : SizeWithin maximum (.error e) :=
  fun _ _ he => by cases he

theorem wpy_hashGzipLayer {layer : ImageLayer} {size : Int} {label : Text} (hmaximum : 0 ≤ maximum)
    (rounds : Nat) :
    wpy AskedPositive (hashGzipLayer sha256 layer size label maximum rounds)
      (fun r _ _ => SizeWithin maximum r) () t := by
  have hstored : (0 : Int) ≤ archiveMaxBytes := Int.natCast_nonneg _
  refine wpy_seq (wpy_hashed hstored rounds) (fun stored _ _ _ => ?_) fun _ _ _ _ => sizeWithin_error
  obtain ⟨compressedHash, compressedSize⟩ := stored
  refine wpy_bind_result (fun digest _ => ?_) fun _ _ => sizeWithin_error
  refine wpy_bind_raiseIf (fun _ => sizeWithin_error) fun _ => ?_
  refine wpy_seq wpy_extractFile (fun _ _ _ _ => ?_) fun _ _ _ _ => sizeWithin_error
  refine wpy_seq (wpy_gzip hmaximum rounds) (fun _ _ _ _ => ?_) fun _ _ _ _ => sizeWithin_error
  refine wpy_seq wpy_extractFile (fun _ _ _ _ => ?_) fun _ _ _ _ => sizeWithin_error
  refine wpy_handle.mpr (wpy_post (wpy_hashed hmaximum rounds) fun r s u hr => ?_)
  cases r with
  | ok content => exact hr
  | error e =>
    rw [either_error]
    split
    · exact sizeWithin_error
    · exact sizeWithin_error

theorem wpy_hashLayer {layer : ImageLayer} {size : Int} {label : Text} (hmaximum : 0 ≤ maximum)
    (rounds : Nat) :
    wpy AskedPositive (hashLayer sha256 layer size label maximum rounds)
      (fun r _ _ => SizeWithin maximum r) () t := by
  unfold hashLayer
  split
  · exact wpy_hashGzipLayer hmaximum rounds
  · exact wpy_hashed hmaximum rounds

theorem wpy_inspectLayer {layer : ImageLayer} (hmaximum : 0 ≤ maximum) (rounds position : Nat) :
    wpy AskedPositive (inspectLayer sha256 byName rounds position layer maximum)
      (fun r _ _ => ∀ size, r = .ok size → 0 ≤ size ∧ size ≤ maximum) () t := by
  have herror : ∀ e : StreamError, ∀ size, (.error e : Except StreamError Int) = .ok size →
      0 ≤ size ∧ size ≤ maximum := fun e size he => by cases he
  refine wpy_bind_raiseIf (fun _ => herror _) fun _ => ?_
  refine wpy_seq wpy_extractFile (fun _ _ _ _ => ?_) fun e _ _ _ => herror e
  refine wpy_seq (wpy_hashLayer hmaximum rounds) (fun content _ _ hcontent => ?_) fun e _ _ _ => herror e
  obtain ⟨actualDiffId, uncompressedSize⟩ := content
  refine wpy_bind_raiseIf (fun _ => herror _) fun _ => ?_
  intro size he
  cases he
  exact hcontent actualDiffId uncompressedSize rfl

/-- What the layers leave of the bound is not negative. -/
theorem wpy_inspectLayers (rounds position : Nat) (layers : List ImageLayer) (htotal : 0 ≤ total)
    (hle : total ≤ uncompressedLayersMaxBytes) :
    wpy AskedPositive (inspectLayers sha256 byName rounds position total layers)
      (fun r _ _ => ∀ total', r = .ok total' → total ≤ total' ∧ total' ≤ uncompressedLayersMaxBytes)
      () t := by
  induction layers generalizing position total t with
  | nil =>
    intro total' he
    cases he
    exact ⟨Int.le_refl total, hle⟩
  | cons layer layers ih =>
    refine wpy_seq (wpy_inspectLayer (Int.sub_nonneg_of_le hle) rounds position)
      (fun size _ _ hsize => ?_) fun e _ _ _ total' he => by cases he
    obtain ⟨hpos, hfits⟩ := hsize size rfl
    have hnext : 0 ≤ total + size := by omega
    have hnext' : total + size ≤ uncompressedLayersMaxBytes := by omega
    apply wpy_post (ih (position + 1) hnext hnext')
    intro r _ _ hr total' he
    obtain ⟨hge, hle'⟩ := hr total' he
    exact ⟨by omega, hle'⟩

/-- The layers behind others go on with what those left. -/
theorem inspectLayers_append (rounds position : Nat) (before after : List ImageLayer) :
    inspectLayers sha256 byName rounds position total (before ++ after) =
      inspectLayers sha256 byName rounds position total before >>= fun total =>
        inspectLayers sha256 byName rounds (position + before.length) total after := by
  induction before generalizing position total with
  | nil => rfl
  | cons layer before ih =>
    rw [List.cons_append, inspectLayers, inspectLayers, bind_assoc]
    congr 1
    funext size
    rw [ih, List.length_cons, Nat.add_assoc, Nat.add_comm 1]

end layers

/-! ## The bounded reader -/

section reader
variable {source : Stream} {maximum consumed : Int} {t : History Streams}

/-- No read asks for a negative number of bytes, while the file gives what it is asked for. -/
def ReadsNonnegative (t : History Streams) (c : StreamCall) : Prop :=
  ReadsWithin t → ∀ source size, c = .read source size → 0 ≤ size

def returnedBy : List (Except StreamError Bytes) → Nat
  | [] => 0
  | answer :: answers => (answer.toOption.map List.length).getD 0 + returnedBy answers

/-- A read counts what it consumes, and returns it when that is within the maximum. -/
structure ReadKept (maximum consumed : Int) (r : Except StreamError Bytes) (consumed' : Int)
    (t' : History Streams) : Prop where
  grows : consumed ≤ consumed'
  within : ReadsWithin t' → consumed' ≤ maximum + 1
  returned : ∀ raw, r = .ok raw → consumed' = consumed + raw.length ∧ consumed' ≤ maximum

theorem wpy_boundedRead {size : Int} (hconsumed : ReadsWithin t → consumed ≤ maximum + 1) :
    wpy ReadsNonnegative (boundedRead source maximum size)
      (fun r consumed' t' => ReadKept maximum consumed r consumed' t') consumed t := by
  refine wpy_bind_raiseIf (fun _ => ⟨Int.le_refl _, hconsumed, fun _ he => by cases he⟩) fun hsize => ?_
  rw [decide_eq_false_iff_not, not_lt] at hsize
  refine wpy_bind_get.mpr (wpy_bind.mpr (wpy_bind_perform.mpr ⟨?_, fun answer => ?_⟩))
  · intro hreads source' size' he
    cases he
    have hle := hconsumed hreads
    omega
  · have htail : ReadsWithin (⟨.read source (min size (maximum - consumed + 1)), answer⟩ :: t) →
        ReadsWithin t := fun hreads ev hev => hreads ev (List.mem_cons_of_mem _ hev)
    cases answer with
    | error e =>
      exact ⟨Int.le_refl _, fun hreads => hconsumed (htail hreads), fun _ he => by cases he⟩
    | ok raw =>
      rw [wpy_result, either_ok]
      refine wpy_bind_modify.mpr (wpy_bind_get.mpr ?_)
      have hgrows : consumed ≤ consumed + (raw.length : Int) :=
        Int.le_add_of_nonneg_right (Int.natCast_nonneg _)
      have hwithin : ReadsWithin
          (⟨.read source (min size (maximum - consumed + 1)), .ok raw⟩ :: t) →
          consumed + (raw.length : Int) ≤ maximum + 1 := by
        intro hreads
        have hle := hconsumed (htail hreads)
        have hgiven : (raw.length : Int) ≤ min size (maximum - consumed + 1) :=
          hreads _ List.mem_cons_self source _ rfl (by omega)
        omega
      refine wpy_bind_raiseIf (fun _ => ⟨hgrows, hwithin, fun _ he => by cases he⟩) fun hle => ?_
      rw [decide_eq_false_iff_not, not_lt] at hle
      refine ⟨hgrows, hwithin, ?_⟩
      intro raw' he
      cases he
      exact ⟨rfl, hle⟩

theorem wpy_boundedReads (sizes : List Int) (hconsumed : ReadsWithin t → consumed ≤ maximum + 1) :
    wpy ReadsNonnegative (boundedReads source maximum sizes)
      (fun r _ _ => ∀ answers, r = .ok answers →
        returnedBy answers = 0 ∨ consumed + returnedBy answers ≤ maximum) consumed t := by
  induction sizes generalizing consumed t with
  | nil =>
    intro answers he
    cases he
    exact .inl rfl
  | cons size sizes ih =>
    refine wpy_bind.mpr (wpy_attempt.mpr (wpy_post (wpy_boundedRead hconsumed)
      fun r consumed' u hread => ?_))
    rw [either_ok]
    refine wpy_seq (ih hread.within) (fun answers _ _ hanswers => ?_) ?_
    · intro all he
      cases he
      have hgrows := hread.grows
      cases r with
      | error e =>
        obtain hnone | hle := hanswers answers rfl
        · exact .inl (by rw [returnedBy, hnone]; rfl)
        · refine .inr ?_
          rw [returnedBy]
          show consumed + ((0 + returnedBy answers : Nat) : Int) ≤ maximum
          omega
      | ok raw =>
        obtain ⟨hcount, hle⟩ := hread.returned raw rfl
        refine .inr ?_
        rw [returnedBy]
        show consumed + ((raw.length + returnedBy answers : Nat) : Int) ≤ maximum
        obtain hnone | hmore := hanswers answers rfl
        · omega
        · omega
    · intro e _ _ _ all he
      cases he

section gives
variable {env : Environment Streams} {σ : Type} {s : σ}

theorem gives_readFrom {size : Int} {raw : Bytes} (henv : ∀ h, env h (.read source size) = .ok raw) :
    Gives env (readFrom source size) s (.ok raw) s := by
  intro h
  refine ⟨⟨.read source size, env h (.read source size)⟩ :: h, ?_⟩
  show (some (env h (.read source size), s), _) = _
  rw [henv]
  rfl

theorem gives_raiseIf_false {e : StreamError} :
    Gives env (raiseIf false e : Decoding σ Unit) s (.ok ()) s := gives_pure

theorem gives_raiseIf_true {e : StreamError} :
    Gives env (raiseIf true e : Decoding σ Unit) s (.error e) s := fun h => ⟨h, rfl⟩

end gives

/-- Over a file that gives what it is asked for, the reader is that of the preflight. -/
theorem boundedRead_gives {env : Environment Streams} {r : BoundedReader} {size : Nat}
    (henv : ∀ h n, env h (.read source n) = .ok (r.source.take n.toNat))
    (hr : r.consumed ≤ archiveMaxBytes) :
    (∀ raw r', r.read size = .ok (raw, r') →
      Gives env (boundedRead source archiveMaxBytes size) r.consumed (.ok raw) r'.consumed) ∧
    ∀ message, r.read size = .error message → ∃ consumed',
      Gives env (boundedRead source archiveMaxBytes size) r.consumed
        (.error (.candidate message)) consumed' := by
  have hask : (min (size : Int) (archiveMaxBytes - r.consumed + 1)).toNat =
      min size (archiveMaxBytes - r.consumed + 1) := by omega
  have hsize : decide ((size : Int) < 0) = false := decide_eq_false (by omega)
  obtain ⟨raw, hraw⟩ : ∃ raw, r.source.take (min size (archiveMaxBytes - r.consumed + 1)) = raw :=
    ⟨_, rfl⟩
  have hread : ∀ h, env h (.read source (min (size : Int) (archiveMaxBytes - r.consumed + 1))) =
      .ok raw := by
    intro h
    rw [henv, hask, hraw]
  have hpure : r.read size =
      (candidateWhen (archiveMaxBytes < r.consumed + raw.length)
        "expanded candidate archive exceeds its safety bound" >>= fun _ =>
          pure (raw, ⟨r.source.drop raw.length, r.consumed + raw.length⟩)) := by
    rw [← hraw]
    rfl
  have hcast : decide ((archiveMaxBytes : Int) < (r.consumed : Int) + (raw.length : Int)) =
      decide (archiveMaxBytes < r.consumed + raw.length) := by
    apply decide_eq_decide.mpr
    omega
  have hbegin : ∀ {x : Except StreamError Bytes} {consumed' : Int},
      Gives env (raiseIf (decide (archiveMaxBytes < r.consumed + raw.length))
          (.candidate "expanded candidate archive exceeds its safety bound") >>= fun _ => pure raw)
        ((r.consumed : Int) + (raw.length : Int)) x consumed' →
      Gives env (boundedRead source archiveMaxBytes size) (r.consumed : Int) x consumed' := by
    intro x consumed' hrest
    rw [boundedRead, hsize]
    apply Gives.bind gives_raiseIf_false
    apply Gives.bind (show Gives env get (r.consumed : Int) (.ok (r.consumed : Int)) _ from
      fun h => ⟨h, rfl⟩)
    apply Gives.bind (gives_readFrom hread)
    apply Gives.bind (show Gives env (modify _) (r.consumed : Int) (.ok ()) _ from fun h => ⟨h, rfl⟩)
    apply Gives.bind (show Gives env get ((r.consumed : Int) + (raw.length : Int)) (.ok _) _ from
      fun h => ⟨h, rfl⟩)
    rw [hcast]
    exact hrest
  by_cases hover : archiveMaxBytes < r.consumed + raw.length
  · rw [decide_eq_true hover] at hbegin
    rw [candidateWhen, if_pos (decide_eq_true hover)] at hpure
    constructor
    · intro raw' r' h
      cases hpure.symm.trans h
    · intro message h
      cases hpure.symm.trans h
      exact ⟨_, hbegin (Gives.raise gives_raiseIf_true)⟩
  · rw [decide_eq_false hover] at hbegin
    rw [candidateWhen, if_neg (by simpa using hover)] at hpure
    constructor
    · intro raw' r' h
      cases hpure.symm.trans h
      exact hbegin (Gives.bind gives_raiseIf_false gives_pure)
    · intro message h
      cases hpure.symm.trans h

end reader

/-! ## The bounds together -/

/-- What a run so far of a computation asked of the decompressor. -/
theorem asked_of_reaches {α : Type} {G : History Streams → StreamCall → Prop} {x : Decoding Unit α}
    {Q : Except StreamError α → Unit → History Streams → Prop} {t : History Streams}
    (hw : wpy G x Q () []) (hr : Reaches (x.prog ()) [] t) :
    ∀ post ev pre, t = post ++ ev :: pre → G pre ev.call :=
  fun _ _ _ hs => wp_reaches hw hr hs (Nat.zero_le _)

/-- The expansion of a run so far, the last call of the decompressor included. -/
theorem expansion_le_of_asked {maximum : Int} {t : History Streams} (hmaximum : 0 ≤ maximum)
    (hasked : ∀ post ev pre, t = post ++ ev :: pre → AskedWithin maximum pre ev.call)
    (hwithin : DecompressesWithin t) : (expansion t : Int) ≤ maximum + 1 := by
  induction t with
  | nil =>
    rw [expansion_nil]
    omega
  | cons ev t ih =>
    have hrest : (expansion t : Int) ≤ maximum + 1 := by
      apply ih
      · intro post ev' pre hs
        exact hasked (ev :: post) ev' pre (by rw [hs]; rfl)
      · intro ev' hev
        exact hwithin ev' (List.mem_cons_of_mem _ hev)
    obtain ⟨call, answer⟩ := ev
    rw [expansion_cons]
    cases call with
    | decompress pending maxLength =>
      obtain ⟨hpos, hle⟩ := hasked [] _ t rfl pending maxLength rfl
      have hproduced := hwithin _ List.mem_cons_self pending maxLength rfl (by omega)
      omega
    | read source size => simpa [producedBy] using hrest
    | extractFile name => simpa [producedBy] using hrest
    | decompressobj => simpa [producedBy] using hrest

/-- In every run, finished or not: the check of a gzip member asks its decompressor for a byte at
least and, while that gives no more than it is asked for, expands a stream to one byte over its
maximum at most; what it accepts is within the maximum. A stream is hashed within its maximum. The
layers of an archive leave a bound for the next one that is not negative. The bounded reader asks for
no negative number of bytes, and returns its maximum at most. -/
theorem decompression_bounded :
    (∀ source name maximum rounds t, 0 ≤ maximum →
      Reaches ((validateSingleGzip source name maximum rounds).prog ()) [] t →
      (∀ ev ∈ t, ∀ pending maxLength, ev.call = .decompress pending maxLength → 1 ≤ maxLength) ∧
      (DecompressesWithin t → (expansion t : Int) ≤ maximum + 1)) ∧
    (∀ source name maximum rounds t, 0 ≤ maximum →
      Ends (validateSingleGzip source name maximum rounds) () [] (.ok ()) () t →
      (expansion t : Int) ≤ maximum) ∧
    (∀ sha256 stream maximum name rounds digest size t, 0 ≤ maximum →
      Ends (hashStream sha256 stream maximum name rounds) () [] (.ok (digest, size)) () t →
      size = received t ∧ size ≤ maximum) ∧
    (∀ sha256 byName rounds layers t,
      Reaches ((inspectLayers sha256 byName rounds 0 0 layers).prog ()) [] t →
      ∀ ev ∈ t, ∀ pending maxLength, ev.call = .decompress pending maxLength → 1 ≤ maxLength) ∧
    (∀ sha256 byName rounds before layer after, ∃ rest : Int → Decoding Unit Int,
      inspectLayers sha256 byName rounds 0 0 (before ++ layer :: after) =
        (do
          let total ← inspectLayers sha256 byName rounds 0 0 before
          let size ← inspectLayer sha256 byName rounds before.length layer
            (uncompressedLayersMaxBytes - total)
          rest (total + size)) ∧
      ∀ total t, Ends (inspectLayers sha256 byName rounds 0 0 before) () [] (.ok total) () t →
        0 ≤ uncompressedLayersMaxBytes - total ∧ 0 ≤ total) ∧
    (∀ source maximum sizes t, 0 ≤ maximum →
      Reaches ((boundedReads source maximum sizes).prog 0) [] t → ReadsWithin t →
      ∀ ev ∈ t, ∀ source size, ev.call = .read source size → 0 ≤ size) ∧
    ∀ source maximum sizes answers consumed t, 0 ≤ maximum →
      Ends (boundedReads source maximum sizes) 0 [] (.ok answers) consumed t →
      (returnedBy answers : Int) ≤ maximum := by
  have hlayersMax : (0 : Int) ≤ uncompressedLayersMaxBytes := by decide
  refine ⟨?_, ?_, ?_, ?_, ?_, ?_, ?_⟩
  · intro source name maximum rounds t hmaximum hr
    have hasked := asked_of_reaches (wpy_validateSingleGzip hmaximum rounds) hr
    refine ⟨?_, expansion_le_of_asked hmaximum hasked⟩
    intro ev hev pending maxLength he
    obtain ⟨post, pre, hs⟩ := List.append_of_mem hev
    exact (hasked post ev pre hs pending maxLength he).1
  · intro source name maximum rounds t hmaximum hr
    exact wpy_ends (wpy_validateSingleGzip hmaximum rounds) hr rfl
  · intro sha256 stream maximum name rounds digest size t hmaximum hr
    exact wpy_ends (wpy_hashStream hmaximum rounds) hr digest size rfl
  · intro sha256 byName rounds layers t hr ev hev pending maxLength he
    have hasked := asked_of_reaches
      (wpy_inspectLayers rounds 0 layers (Int.le_refl 0) hlayersMax) hr
    obtain ⟨post, pre, hs⟩ := List.append_of_mem hev
    exact hasked post ev pre hs pending maxLength he
  · intro sha256 byName rounds before layer after
    refine ⟨fun total => inspectLayers sha256 byName rounds (before.length + 1) total after, ?_, ?_⟩
    · rw [inspectLayers_append, Nat.zero_add]
      rfl
    · intro total t hr
      obtain ⟨hge, hle⟩ :=
        wpy_ends (wpy_inspectLayers rounds 0 before (Int.le_refl 0) hlayersMax) hr total rfl
      exact ⟨by omega, hge⟩
  · intro source maximum sizes t hmaximum hr hreads ev hev source' size he
    have hconsumed : ReadsWithin [] → (0 : Int) ≤ maximum + 1 := fun _ => by omega
    obtain ⟨post, pre, hs⟩ := List.append_of_mem hev
    have hasked := wp_reaches (wpy_boundedReads sizes hconsumed) hr hs (Nat.zero_le _)
    apply hasked ?_ source' size he
    intro ev' hev'
    exact hreads ev' (by rw [hs]; exact List.mem_append_right _ (List.mem_cons_of_mem _ hev'))
  · intro source maximum sizes answers consumed t hmaximum hr
    have hconsumed : ReadsWithin [] → (0 : Int) ≤ maximum + 1 := fun _ => by omega
    obtain hnone | hle := wpy_ends (wpy_boundedReads sizes hconsumed) hr answers rfl
    · rw [hnone]
      exact hmaximum
    · omega

end ArubaCertRenewer
