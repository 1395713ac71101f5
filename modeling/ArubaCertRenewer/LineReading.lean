import ArubaCertRenewer.IdentificationLines

/- The lines of a stream, however the socket cuts it.

   `nextLine` is what a call of `readline` comes to when the whole stream is at hand: the
   line that ends within the allowance, the limit error when none does, nothing yet when
   the stream is shorter. A call never takes more from the socket than it is allowed to
   use up, so what it leaves behind is only ever the rest of a line it has finished, and
   it has nothing at hand when it raises for want of a line feed. -/
namespace ArubaCertRenewer
open PyText

/-- What is left of a stream, and the counters. -/
structure TextStream where
  unread : Bytes
  textBytes : Nat
  preIdentificationLines : Nat
  bannerLimitExceeded : Bool
  deriving DecidableEq, Repr

/-- How many bytes the next line may have. -/
def TextStream.allowance (t : TextStream) : Nat :=
  min maxSshBannerLineBytes (maxSshPreauthTextBytes - t.textBytes)

/-- The stream after its first bytes. -/
def TextStream.drop (t : TextStream) (n : Nat) : TextStream :=
  { t with unread := t.unread.drop n, textBytes := t.textBytes + n }

def TextStream.limit (t : TextStream) : LineEnd × TextStream :=
  (.limit, { t with bannerLimitExceeded := true })

/-- What becomes of a line of the stream. -/
def TextStream.finish (line : Bytes) (t : TextStream) : LineEnd × TextStream :=
  match lineText line with
  | none => (.undecodable, t)
  | some decoded =>
    if isIdentification decoded then (.line decoded, t)
    else if maxSshPreIdentificationLines ≤ t.preIdentificationLines then t.limit
    else (.line decoded, { t with preIdentificationLines := t.preIdentificationLines + 1 })

/-- The next line of a stream. -/
def nextLine (t : TextStream) : LineEnd × TextStream :=
  match (t.unread.take t.allowance).findIdx? (· == lineFeed) with
  | some i => (t.drop (i + 1)).finish (t.unread.take (i + 1))
  | none =>
    if t.allowance ≤ t.unread.length then (t.drop t.allowance).limit
    else (.blocked, t)

/-- The next lines of a stream. -/
def nextLines : Nat → TextStream → List LineEnd
  | 0, _ => []
  | n + 1, t =>
    match nextLine t with
    | (.blocked, _) => [.blocked]
    | (ended, t) => ended :: nextLines n t

/-! ## A reader as a stream -/

def Arrival.piece (a : Arrival) : Bytes :=
  match a.delivery with
  | .bytes piece => piece
  | .timedOut _ => []

/-- The bytes that a socket still delivers. -/
def delivered (socket : List Arrival) : Bytes := socket.flatMap Arrival.piece

/-- No timeout and no close: every delivery is some bytes. -/
def Delivers (socket : List Arrival) : Prop :=
  ∀ a ∈ socket, ∃ piece, piece ≠ [] ∧ a = ⟨.bytes piece, false⟩

/-- The reader as the stream it reads. -/
def TextReader.stream (r : TextReader) : TextStream :=
  ⟨r.remainder ++ delivered r.socket, r.textBytes, r.preIdentificationLines, r.bannerLimitExceeded⟩

/-- What is true of a reader between two calls. -/
structure TextReader.Kept (r : TextReader) : Prop where
  delivers : Delivers r.socket
  line : r.remainder.length ≤ maxSshBannerLineBytes
  total : r.textBytes + r.remainder.length ≤ maxSshPreauthTextBytes
  acquired : r.acquired = r.textBytes + r.remainder.length

/-! ## Line feeds -/

theorem findIdx?_none {data : Bytes} (h : lineFeed ∉ data) :
    data.findIdx? (· == lineFeed) = none := by
  rw [List.findIdx?_eq_none_iff]
  intro b hb
  rw [beq_eq_false_iff_ne]
  rintro rfl
  exact h hb

theorem findIdx?_line {body rest : Bytes} (h : lineFeed ∉ body) :
    (body ++ lineFeed :: rest).findIdx? (· == lineFeed) = some body.length := by
  rw [List.findIdx?_append, findIdx?_none h, List.findIdx?_cons, if_pos (beq_self_eq_true _)]
  simp

/-- The bytes up to a line feed, and those after it. -/
theorem cut_of_findIdx? {data : Bytes} {i : Nat} (h : data.findIdx? (· == lineFeed) = some i) :
    ∃ body rest, data = body ++ lineFeed :: rest ∧ lineFeed ∉ body ∧ body.length = i := by
  induction data generalizing i with
  | nil => cases h
  | cons b data ih =>
    rw [List.findIdx?_cons] at h
    by_cases hb : b = lineFeed
    · subst hb
      rw [if_pos (beq_self_eq_true _)] at h
      cases h
      exact ⟨[], data, rfl, List.not_mem_nil, rfl⟩
    · rw [if_neg (by simpa using hb)] at h
      obtain ⟨j, hj, rfl⟩ := Option.map_eq_some_iff.mp h
      obtain ⟨body, rest, rfl, hbody, hlen⟩ := ih hj
      refine ⟨b :: body, rest, rfl, ?_, by rw [List.length_cons, hlen]⟩
      rw [List.mem_cons, not_or]
      exact ⟨fun he => hb he.symm, hbody⟩

/-- Without a line feed within the allowance. -/
theorem nextLine_short {t : TextStream} {line rest : Bytes} (ht : t.unread = line ++ rest)
    (hline : lineFeed ∉ line) (hlen : line.length = t.allowance) :
    nextLine t = (t.drop t.allowance).limit := by
  have htake : t.unread.take t.allowance = line := by
    rw [ht, ← hlen]
    exact List.take_left
  have hle : t.allowance ≤ t.unread.length := by
    rw [ht, List.length_append, ← hlen]
    omega
  unfold nextLine
  rw [htake, findIdx?_none hline]
  exact if_pos hle

/-- The stream ends before its line does. -/
theorem nextLine_blocked {t : TextStream} (hline : lineFeed ∉ t.unread)
    (hlen : t.unread.length < t.allowance) : nextLine t = (.blocked, t) := by
  unfold nextLine
  rw [List.take_of_length_le (Nat.le_of_lt hlen), findIdx?_none hline]
  exact if_neg (Nat.not_le.mpr hlen)

/-- A line that ends within the allowance. -/
theorem nextLine_line {t : TextStream} {body rest : Bytes}
    (ht : t.unread = body ++ lineFeed :: rest) (hbody : lineFeed ∉ body)
    (hlen : body.length < t.allowance) :
    nextLine t = (t.drop (body.length + 1)).finish (body ++ [lineFeed]) := by
  obtain ⟨k, hk⟩ : ∃ k, t.allowance = body.length + 1 + k := ⟨_, (Nat.add_sub_of_le hlen).symm⟩
  have htake : t.unread.take t.allowance = body ++ lineFeed :: rest.take k := by
    rw [ht, hk, Nat.add_assoc, List.take_length_add_append, Nat.add_comm 1 k]
    rfl
  have hline : t.unread.take (body.length + 1) = body ++ [lineFeed] := by
    rw [ht, List.take_length_add_append]
    rfl
  unfold nextLine
  rw [htake, findIdx?_line hbody]
  show (t.drop (body.length + 1)).finish (t.unread.take (body.length + 1)) = _
  rw [hline]

/-! ## One call -/

theorem delivered_cons (piece : Bytes) (closed : Bool) (socket : List Arrival) :
    delivered (⟨.bytes piece, closed⟩ :: socket) = piece ++ delivered socket := rfl

/-- A receive takes some bytes off the front, and no more than were asked for. -/
theorem cutPiece_spec {size : Nat} (hsize : 0 < size) {piece : Bytes} (hpiece : piece ≠ [])
    {socket : List Arrival} (hsocket : Delivers socket) :
    ∃ chunk rest, cutPiece size piece false socket = (chunk, rest) ∧ chunk ≠ [] ∧
      chunk.length ≤ size ∧ chunk ++ delivered rest = piece ++ delivered socket ∧
      Delivers rest ∧ receives rest + 1 ≤ piece.length + 1 + receives socket := by
  unfold cutPiece
  by_cases hle : piece.length ≤ size
  · rw [if_pos hle]
    exact ⟨piece, socket, rfl, hpiece, hle, rfl, hsocket, by omega⟩
  · rw [if_neg hle]
    have hdrop : piece.drop size ≠ [] := by
      rw [Ne, List.drop_eq_nil_iff]
      exact hle
    refine ⟨_, _, rfl, ?_, List.length_take_le _ _, ?_, ?_, ?_⟩
    · rw [Ne, List.take_eq_nil_iff, not_or]
      exact ⟨Nat.ne_of_gt hsize, hpiece⟩
    · rw [delivered_cons, ← List.append_assoc, List.take_append_drop]
    · intro a ha
      rw [List.mem_cons] at ha
      obtain rfl | ha := ha
      · exact ⟨_, hdrop, rfl⟩
      · exact hsocket a ha
    · simp only [receives, List.length_drop]
      omega

/-- What a call promises: the outcome of the stream, and a stream that goes on from there. -/
structure Follows (out : LineEnd × TextReader) (next : LineEnd × TextStream) : Prop where
  ended : out.1 = next.1
  stream : out.1 ≠ .blocked → out.2.stream = next.2
  kept : out.1 ≠ .blocked → out.2.Kept

/-- A line is finished as the line of the stream. -/
theorem follows_finishLine (line : Bytes) {r : TextReader} (hr : r.Kept) :
    Follows (finishLine line r) (r.stream.finish line) := by
  cases hl : lineText line with
  | none =>
    have hleft : finishLine line r = (.undecodable, r) := by simp [finishLine, hl]
    have hright : r.stream.finish line = (.undecodable, r.stream) := by simp [TextStream.finish, hl]
    rw [hleft, hright]
    exact ⟨rfl, fun _ => rfl, fun _ => hr⟩
  | some decoded =>
    by_cases hid : isIdentification decoded = true
    · have hleft : finishLine line r = (.line decoded, r) := by simp [finishLine, hl, hid]
      have hright : r.stream.finish line = (.line decoded, r.stream) := by
        simp [TextStream.finish, hl, hid]
      rw [hleft, hright]
      exact ⟨rfl, fun _ => rfl, fun _ => hr⟩
    by_cases hcount : maxSshPreIdentificationLines ≤ r.preIdentificationLines
    · have hleft : finishLine line r = textLimit r := by simp [finishLine, hl, hid, hcount]
      have hright : r.stream.finish line = r.stream.limit := by
        simp [TextStream.finish, hl, hid, TextReader.stream, hcount]
      rw [hleft, hright]
      exact ⟨rfl, fun _ => rfl, fun _ => ⟨hr.delivers, hr.line, hr.total, hr.acquired⟩⟩
    · have hleft : finishLine line r = (.line decoded,
          { r with preIdentificationLines := r.preIdentificationLines + 1 }) := by
        simp [finishLine, hl, hid, hcount]
      have hright : r.stream.finish line = (.line decoded,
          { r.stream with preIdentificationLines := r.preIdentificationLines + 1 }) := by
        simp [TextStream.finish, hl, hid, TextReader.stream, hcount]
      rw [hleft, hright]
      exact ⟨rfl, fun _ => rfl, fun _ => ⟨hr.delivers, hr.line, hr.total, hr.acquired⟩⟩

theorem finishLine_acquired (line : Bytes) (r : TextReader) :
    (finishLine line r).2.acquired = r.acquired := by
  unfold finishLine textLimit
  split
  · rfl
  · split
    · rfl
    · split <;> rfl

/-- What is true in the loop: the line so far and what is at hand are within the allowance of a
stream that began at `start`. -/
structure MidLine (start : Nat) (line remainder : Bytes) (r : TextReader) : Prop where
  delivers : Delivers r.socket
  taken : r.remainder = []
  unfinished : lineFeed ∉ line
  text : r.textBytes = start + line.length
  fits : line.length + remainder.length ≤ maxSshBannerLineBytes
  total : r.textBytes + remainder.length ≤ maxSshPreauthTextBytes
  acquired : r.acquired = r.textBytes + remainder.length

/-- The stream that the loop reads. -/
def streamOf (start : Nat) (line remainder : Bytes) (r : TextReader) : TextStream :=
  ⟨line ++ remainder ++ delivered r.socket, start, r.preIdentificationLines, r.bannerLimitExceeded⟩

/-- A call takes no more than the whole allowance, and no more than one line beyond its start. -/
def Bounded (start : Nat) (r : TextReader) : Prop :=
  r.acquired ≤ maxSshPreauthTextBytes ∧ r.acquired ≤ start + maxSshBannerLineBytes

/-- The line ends in what is at hand. -/
theorem readlineLoop_line {timeout n : Nat} {line body rest : Bytes} {r : TextReader}
    (hbody : lineFeed ∉ body)
    (hfits : line.length + (body ++ lineFeed :: rest).length ≤ maxSshBannerLineBytes)
    (htotal : r.textBytes + (body ++ lineFeed :: rest).length ≤ maxSshPreauthTextBytes) :
    readlineLoop timeout (n + 1) line (body ++ lineFeed :: rest) r =
      finishLine (line ++ (body ++ [lineFeed]))
        { r with textBytes := r.textBytes + (body.length + 1), remainder := rest } := by
  rw [List.length_append, List.length_cons] at hfits htotal
  have hline : ¬ maxSshBannerLineBytes < line.length + (body.length + 1) := by omega
  have hbytes : ¬ maxSshPreauthTextBytes < r.textBytes + (body.length + 1) := by omega
  have htake : (body ++ lineFeed :: rest).take (body.length + 1) = body ++ [lineFeed] := by
    rw [List.take_length_add_append]
    rfl
  have hdrop : (body ++ lineFeed :: rest).drop (body.length + 1) = rest := by
    rw [List.drop_length_add_append]
    rfl
  simp [readlineLoop, findIdx?_line hbody, hline, hbytes, htake, hdrop]

/-- The line goes on. -/
theorem readlineLoop_more {timeout n : Nat} {line remainder : Bytes} {r : TextReader}
    (hnone : lineFeed ∉ remainder) (hfits : line.length + remainder.length ≤ maxSshBannerLineBytes)
    (htotal : r.textBytes + remainder.length ≤ maxSshPreauthTextBytes) :
    readlineLoop timeout (n + 1) line remainder r =
      receiveMore timeout (readlineLoop timeout n (line ++ remainder)) (line ++ remainder)
        { r with textBytes := r.textBytes + remainder.length } := by
  have hline : ¬ maxSshBannerLineBytes < line.length + remainder.length := by omega
  have hbytes : ¬ maxSshPreauthTextBytes < r.textBytes + remainder.length := by omega
  simp [readlineLoop, findIdx?_none hnone, hline, hbytes]

/-- What a receive comes to, when the rest of the loop follows the stream. -/
theorem follows_receiveMore {timeout start : Nat} {line : Bytes} {r : TextReader}
    {goOn : Bytes → TextReader → LineEnd × TextReader} (hmid : MidLine start line [] r)
    (hgoOn : ∀ chunk r', receives r'.socket < receives r.socket → MidLine start line chunk r' →
      Follows (goOn chunk r') (nextLine (streamOf start line chunk r')) ∧
        Bounded start (goOn chunk r').2) :
    Follows (receiveMore timeout goOn line r) (nextLine (streamOf start line [] r)) ∧
      Bounded start (receiveMore timeout goOn line r).2 := by
  obtain ⟨hdelivers, htaken, hunfinished, htext, hfits, htotal, hacquired⟩ := hmid
  rw [List.length_nil, Nat.add_zero] at hfits htotal hacquired
  have hbounded : Bounded start r := by
    unfold Bounded
    omega
  have hallowance : (streamOf start line [] r).allowance = line.length +
      min (maxSshBannerLineBytes - line.length) (maxSshPreauthTextBytes - r.textBytes) := by
    show min maxSshBannerLineBytes (maxSshPreauthTextBytes - start) = _
    omega
  have hunread : (streamOf start line [] r).unread = line ++ delivered r.socket := by
    show line ++ [] ++ delivered r.socket = _
    rw [List.append_nil]
  unfold receiveMore
  generalize min (maxSshBannerLineBytes - line.length) (maxSshPreauthTextBytes - r.textBytes) =
    remaining at hallowance ⊢
  by_cases hzero : remaining = 0
  · -- the whole allowance is used up, and there is nothing at hand
    rw [hzero, Nat.add_zero] at hallowance
    rw [nextLine_short hunread hunfinished hallowance.symm, if_pos hzero]
    refine ⟨⟨rfl, fun _ => ?_, fun _ => ⟨hdelivers, ?_, ?_, ?_⟩⟩, hbounded⟩
    · have hrest : (streamOf start line [] r).unread.drop line.length = delivered r.socket := by
        rw [hunread]
        exact List.drop_left
      simp only [TextStream.limit, TextStream.drop, hallowance, hrest]
      simp [textLimit, TextReader.stream, htaken, streamOf, htext]
    · rw [show (textLimit r).2.remainder = [] from htaken]
      exact Nat.zero_le _
    · rw [show (textLimit r).2.remainder = [] from htaken]
      exact htotal
    · rw [show (textLimit r).2.remainder = [] from htaken]
      exact hacquired
  rw [if_neg hzero]
  cases hsocket : r.socket with
  | nil =>
    have hblocked : nextLine (streamOf start line [] r) = (.blocked, streamOf start line [] r) := by
      apply nextLine_blocked
      · rw [hunread, hsocket]
        simpa [delivered] using hunfinished
      · rw [hunread, hsocket, hallowance]
        simp [delivered]
        omega
    rw [hblocked]
    exact ⟨⟨rfl, fun h => absurd rfl h, fun h => absurd rfl h⟩, hbounded⟩
  | cons arrival socket =>
    obtain ⟨piece, hpiece, rfl⟩ := hdelivers arrival (by rw [hsocket]; exact List.mem_cons_self)
    have hrest : Delivers socket := fun a ha => hdelivers a (by
      rw [hsocket]
      exact List.mem_cons_of_mem _ ha)
    have hsize : 0 < min textReadChunkBytes remaining :=
      Nat.lt_min.mpr ⟨by decide, Nat.pos_of_ne_zero hzero⟩
    obtain ⟨chunk, left, hcut, hchunk, hshort, hsame, hleft, hfewer⟩ :=
      cutPiece_spec hsize hpiece hrest
    have hopen : (chunk.isEmpty || false) = false := by simpa using hchunk
    simp only [hcut, hopen, Bool.false_eq_true, if_false]
    have hstream : streamOf start line [] r =
        streamOf start line chunk { r with socket := left, acquired := r.acquired + chunk.length } := by
      simp [streamOf, hsocket, delivered_cons, ← hsame]
    have hwithin : chunk.length ≤ remaining := Nat.le_trans hshort (Nat.min_le_right _ _)
    have hmin : line.length + remaining ≤ maxSshBannerLineBytes ∧
        start + (line.length + remaining) ≤ maxSshPreauthTextBytes := by
      have hdef : min maxSshBannerLineBytes (maxSshPreauthTextBytes - start) =
        line.length + remaining := hallowance
      omega
    rw [hstream]
    apply hgoOn
    · rw [hsocket]
      exact Nat.lt_of_succ_le hfewer
    · refine ⟨hleft, htaken, hunfinished, htext, ?_, ?_, ?_⟩
      · omega
      · show r.textBytes + chunk.length ≤ _
        omega
      · show r.acquired + chunk.length = r.textBytes + chunk.length
        omega

theorem follows_readlineLoop (timeout start : Nat) (n : Nat) :
    ∀ (line remainder : Bytes) (r : TextReader), receives r.socket < n →
      MidLine start line remainder r →
      Follows (readlineLoop timeout n line remainder r) (nextLine (streamOf start line remainder r)) ∧
        Bounded start (readlineLoop timeout n line remainder r).2 := by
  induction n with
  | zero =>
    intro line remainder r hn hmid
    omega
  | succ n ih =>
    intro line remainder r hn hmid
    cases hfind : remainder.findIdx? (· == lineFeed) with
    | some i =>
      -- the line ends in what is at hand
      obtain ⟨body, rest, rfl, hbody, rfl⟩ := cut_of_findIdx? hfind
      obtain ⟨hdelivers, htaken, hunfinished, htext, hfits, htotal, hacquired⟩ := hmid
      have hbounded : Bounded start r := by
        unfold Bounded
        omega
      rw [readlineLoop_line hbody hfits htotal]
      rw [List.length_append, List.length_cons] at hfits htotal hacquired
      have hkept : TextReader.Kept
          { r with textBytes := r.textBytes + (body.length + 1), remainder := rest } := by
        refine ⟨hdelivers, ?_, ?_, ?_⟩
        · show rest.length ≤ _
          omega
        · show r.textBytes + (body.length + 1) + rest.length ≤ _
          omega
        · show r.acquired = r.textBytes + (body.length + 1) + rest.length
          omega
      have hline : nextLine (streamOf start line (body ++ lineFeed :: rest) r) =
          (TextReader.stream { r with
            textBytes := r.textBytes + (body.length + 1), remainder := rest }).finish
              (line ++ (body ++ [lineFeed])) := by
        have hunread : (streamOf start line (body ++ lineFeed :: rest) r).unread =
            (line ++ body) ++ lineFeed :: (rest ++ delivered r.socket) := by
          simp [streamOf]
        have hclean : lineFeed ∉ line ++ body := by
          rw [List.mem_append, not_or]
          exact ⟨hunfinished, hbody⟩
        rw [nextLine_line hunread hclean, List.append_assoc]
        · congr 1
          unfold TextStream.drop
          rw [hunread, List.drop_length_add_append]
          simp [streamOf, TextReader.stream, htext, Nat.add_assoc]
        · show (line ++ body).length < min maxSshBannerLineBytes (maxSshPreauthTextBytes - start)
          rw [List.length_append]
          omega
      rw [hline]
      refine ⟨follows_finishLine _ hkept, ?_⟩
      unfold Bounded
      rw [finishLine_acquired]
      exact hbounded
    | none =>
      have hnone : lineFeed ∉ remainder := by
        intro hm
        have hall := List.findIdx?_eq_none_iff.mp hfind lineFeed hm
        cases hall
      rw [readlineLoop_more hnone hmid.fits hmid.total]
      obtain ⟨hdelivers, htaken, hunfinished, htext, hfits, htotal, hacquired⟩ := hmid
      have hstream : streamOf start line remainder r = streamOf start (line ++ remainder) []
          { r with textBytes := r.textBytes + remainder.length } := by
        simp [streamOf]
      rw [hstream]
      apply follows_receiveMore
      · refine ⟨hdelivers, htaken, ?_, ?_, ?_, ?_, ?_⟩
        · rw [List.mem_append, not_or]
          exact ⟨hunfinished, hnone⟩
        · show r.textBytes + remainder.length = start + (line ++ remainder).length
          rw [List.length_append]
          omega
        · rw [List.length_append, List.length_nil]
          exact hfits
        · exact htotal
        · exact hacquired
      · intro chunk r' hfewer hmid'
        exact ih _ _ r' (Nat.lt_of_lt_of_le hfewer (Nat.le_of_lt_succ hn)) hmid'

/-- A call of `readline` is a line of the stream. -/
theorem follows_readline (timeout : Nat) {r : TextReader} (hr : r.Kept) :
    Follows (readline timeout r) (nextLine r.stream) ∧
      Bounded r.textBytes (readline timeout r).2 := by
  have hmid : MidLine r.textBytes [] r.remainder { r with remainder := [] } := by
    refine ⟨hr.delivers, rfl, List.not_mem_nil, rfl, ?_, hr.total, hr.acquired⟩
    rw [List.length_nil, Nat.zero_add]
    exact hr.line
  exact follows_readlineLoop timeout r.textBytes _ [] r.remainder _ (Nat.lt_succ_self _) hmid

/-! ## Calls one after another -/

theorem readlines_blocked {timeout n : Nat} {r r' : TextReader}
    (h : readline timeout r = (.blocked, r')) : readlines timeout (n + 1) r = ([.blocked], r') := by
  rw [readlines, h]

theorem readlines_ended {timeout n : Nat} {r r' : TextReader} {ended : LineEnd}
    (h : readline timeout r = (ended, r')) (hended : ended ≠ .blocked) :
    readlines timeout (n + 1) r =
      (ended :: (readlines timeout n r').1, (readlines timeout n r').2) := by
  rw [readlines, h]
  cases ended <;> first | rfl | exact absurd rfl hended

theorem nextLines_blocked {n : Nat} {t t' : TextStream} (h : nextLine t = (.blocked, t')) :
    nextLines (n + 1) t = [.blocked] := by
  rw [nextLines, h]

theorem nextLines_ended {n : Nat} {t t' : TextStream} {ended : LineEnd}
    (h : nextLine t = (ended, t')) (hended : ended ≠ .blocked) :
    nextLines (n + 1) t = ended :: nextLines n t' := by
  rw [nextLines, h]
  cases ended <;> first | rfl | exact absurd rfl hended

/-- The outcomes of calls are those of the stream, and no call takes more than there may be. -/
theorem readlines_eq (timeout n : Nat) : ∀ {r : TextReader}, r.Kept →
    (readlines timeout n r).1 = nextLines n r.stream ∧
      (readlines timeout n r).2.acquired ≤ maxSshPreauthTextBytes := by
  induction n with
  | zero =>
    intro r hr
    refine ⟨rfl, ?_⟩
    show r.acquired ≤ _
    rw [hr.acquired]
    exact hr.total
  | succ n ih =>
    intro r hr
    obtain ⟨hfollows, hbounded⟩ := follows_readline timeout hr
    obtain ⟨ended, r', hcall⟩ : ∃ ended r', readline timeout r = (ended, r') := ⟨_, _, rfl⟩
    obtain ⟨next, t', hnext⟩ : ∃ next t', nextLine r.stream = (next, t') := ⟨_, _, rfl⟩
    rw [hcall, hnext] at hfollows
    rw [hcall] at hbounded
    obtain rfl : ended = next := hfollows.ended
    by_cases hended : ended = .blocked
    · subst hended
      rw [readlines_blocked hcall, nextLines_blocked hnext]
      exact ⟨rfl, hbounded.1⟩
    · obtain rfl : r'.stream = t' := hfollows.stream hended
      obtain ⟨hlines, hacquired⟩ := ih (hfollows.kept hended)
      rw [readlines_ended hcall hended, nextLines_ended hnext hended, hlines]
      exact ⟨rfl, hacquired⟩

/-! ## The lines that were read -/

/-- The bytes of one line. -/
def IsLine (line : Bytes) : Prop := ∃ body, lineFeed ∉ body ∧ line = body ++ [lineFeed]

/-- How many of the lines do not identify the peer. -/
def plainLines (texts : List Text) : Nat := (texts.filter fun t => !isIdentification t).length

/-- Some lines of a stream have been read, as these texts; the reader has the rest of it. -/
structure ReadSoFar (stream : Bytes) (lines : List Bytes) (texts : List Text) (r : TextReader) :
    Prop where
  whole : ∀ line ∈ lines, IsLine line
  decoded : lines.map lineText = texts.map some
  rest : lines.flatten ++ (r.remainder ++ delivered r.socket) = stream
  textBytes : r.textBytes = lines.flatten.length
  plain : r.preIdentificationLines = plainLines texts
  kept : r.Kept

/-- A line that is returned. -/
theorem finish_line {line : Bytes} {t t' : TextStream} {text : Text}
    (h : t.finish line = (.line text, t')) : lineText line = some text ∧
      t' = { t with preIdentificationLines :=
        t.preIdentificationLines + if isIdentification text then 0 else 1 } := by
  unfold TextStream.finish at h
  split at h
  · cases h
  · next decoded hdecoded =>
    split at h
    · next hid =>
      cases h
      exact ⟨hdecoded, by rw [if_pos hid]; rfl⟩
    · next hid =>
      split at h
      · cases h
      · cases h
        exact ⟨hdecoded, by rw [if_neg hid]⟩

/-- A line that is returned is the next one of the stream. -/
theorem of_nextLine {t t' : TextStream} {text : Text} (h : nextLine t = (.line text, t')) :
    ∃ line rest, IsLine line ∧ t.unread = line ++ rest ∧ lineText line = some text ∧
      t' = ⟨rest, t.textBytes + line.length,
        t.preIdentificationLines + if isIdentification text then 0 else 1,
        t.bannerLimitExceeded⟩ := by
  cases hfind : (t.unread.take t.allowance).findIdx? (· == lineFeed) with
  | none =>
    have hnext : nextLine t = if t.allowance ≤ t.unread.length then (t.drop t.allowance).limit
        else (.blocked, t) := by
      unfold nextLine
      rw [hfind]
    rw [hnext] at h
    split at h
    · cases h
    · cases h
  | some i =>
    obtain ⟨body, rest, htake, hbody, rfl⟩ := cut_of_findIdx? hfind
    have hunread : t.unread = body ++ lineFeed :: (rest ++ t.unread.drop t.allowance) := by
      rw [← List.cons_append, ← List.append_assoc, ← htake, List.take_append_drop]
    have hlen : body.length < t.allowance := by
      have hshort := List.length_take_le t.allowance t.unread
      rw [htake, List.length_append, List.length_cons] at hshort
      omega
    rw [nextLine_line hunread hbody hlen] at h
    obtain ⟨htext, rfl⟩ := finish_line h
    refine ⟨body ++ [lineFeed], rest ++ t.unread.drop t.allowance, ⟨body, hbody, rfl⟩, ?_, htext, ?_⟩
    · rw [List.append_assoc]
      exact hunread
    · have hdrop : t.unread.drop (body.length + 1) = rest ++ t.unread.drop t.allowance := by
        conv => lhs; rw [hunread]
        rw [List.drop_length_add_append]
        rfl
      rw [List.length_append]
      simp only [TextStream.drop, hdrop]
      rfl

theorem plainLines_concat (texts : List Text) (text : Text) :
    plainLines (texts ++ [text]) = plainLines texts + if isIdentification text then 0 else 1 := by
  unfold plainLines
  rw [List.filter_append, List.length_append, List.filter_cons]
  by_cases hid : isIdentification text = true
  · simp [hid]
  · simp [hid]

/-- One more line. -/
theorem ReadSoFar.concat {timeout : Nat} {stream : Bytes} {lines : List Bytes} {texts : List Text}
    {r r' : TextReader} {text : Text} (h : ReadSoFar stream lines texts r)
    (hcall : readline timeout r = (.line text, r')) :
    ∃ line, ReadSoFar stream (lines ++ [line]) (texts ++ [text]) r' := by
  obtain ⟨hfollows, -⟩ := follows_readline timeout h.kept
  rw [hcall] at hfollows
  obtain ⟨next, t', hnext⟩ : ∃ next t', nextLine r.stream = (next, t') := ⟨_, _, rfl⟩
  rw [hnext] at hfollows
  obtain rfl : LineEnd.line text = next := hfollows.ended
  have hstream : r'.stream = t' := hfollows.stream (by simp)
  obtain ⟨line, rest, hline, hunread, htext, rfl⟩ := of_nextLine hnext
  have hrest : r'.remainder ++ delivered r'.socket = rest := congrArg TextStream.unread hstream
  have htaken : r'.textBytes = r.textBytes + line.length := congrArg TextStream.textBytes hstream
  have hplain : r'.preIdentificationLines =
      r.preIdentificationLines + if isIdentification text then 0 else 1 :=
    congrArg TextStream.preIdentificationLines hstream
  refine ⟨line, ?_, ?_, ?_, ?_, ?_, hfollows.kept (by simp)⟩
  · intro l hl
    rw [List.mem_append, List.mem_singleton] at hl
    obtain hl | rfl := hl
    · exact h.whole l hl
    · exact hline
  · rw [List.map_append, List.map_append, h.decoded, List.map_singleton, List.map_singleton, htext]
  · have hunread' : r.remainder ++ delivered r.socket = line ++ rest := hunread
    rw [hrest, List.flatten_concat, List.append_assoc, ← hunread']
    exact h.rest
  · rw [htaken, h.textBytes, List.flatten_concat, List.length_append]
  · rw [hplain, h.plain, plainLines_concat]

/-- Lines that are all returned. -/
theorem readSoFar_readlines (timeout : Nat) {stream : Bytes} (n : Nat) :
    ∀ {lines : List Bytes} {texts : List Text} {r : TextReader}, ReadSoFar stream lines texts r →
      ∀ {more : List Text}, (readlines timeout n r).1 = more.map .line →
        ∃ lines', ReadSoFar stream lines' (texts ++ more) (readlines timeout n r).2 := by
  induction n with
  | zero =>
    intro lines texts r h more hmore
    obtain rfl : more = [] := by
      cases more with
      | nil => rfl
      | cons text more => cases hmore
    rw [List.append_nil]
    exact ⟨lines, h⟩
  | succ n ih =>
    intro lines texts r h more hmore
    obtain ⟨ended, r', hcall⟩ : ∃ ended r', readline timeout r = (ended, r') :=
      ⟨_, _, rfl⟩
    by_cases hended : ended = .blocked
    · subst hended
      rw [readlines_blocked hcall] at hmore
      cases more with
      | nil => cases hmore
      | cons text more => cases hmore
    · rw [readlines_ended hcall hended] at hmore ⊢
      cases more with
      | nil => cases hmore
      | cons text more =>
        rw [List.map_cons, List.cons.injEq] at hmore
        obtain ⟨rfl, hmore⟩ := hmore
        obtain ⟨line, hline⟩ := h.concat hcall
        obtain ⟨lines', hlines'⟩ := ih hline hmore
        refine ⟨lines', ?_⟩
        rw [List.append_assoc] at hlines'
        exact hlines'

/-- The next line is returned when it is within its limits, and refused otherwise. -/
theorem ReadSoFar.next {timeout : Nat} {stream : Bytes} {lines : List Bytes} {texts : List Text}
    {r : TextReader} (h : ReadSoFar stream lines texts r) {line rest : Bytes} (hline : IsLine line)
    (hrest : r.remainder ++ delivered r.socket = line ++ rest) {text : Text}
    (htext : lineText line = some text) :
    (readline timeout r).1 =
      if line.length ≤ maxSshBannerLineBytes ∧
          lines.flatten.length + line.length ≤ maxSshPreauthTextBytes ∧
          (isIdentification text = true ∨ plainLines texts < maxSshPreIdentificationLines)
        then .line text else .limit := by
  obtain ⟨hfollows, -⟩ := follows_readline timeout h.kept
  rw [hfollows.ended, ← h.textBytes, ← h.plain]
  obtain ⟨body, hbody, rfl⟩ := hline
  have hallowance : r.stream.allowance =
      min maxSshBannerLineBytes (maxSshPreauthTextBytes - r.textBytes) := rfl
  have htotal := h.kept.total
  have hunread : r.stream.unread = body ++ lineFeed :: rest := by
    show r.remainder ++ delivered r.socket = _
    rw [hrest, List.append_assoc]
    rfl
  rw [List.length_append, List.length_singleton]
  by_cases hlen : body.length < r.stream.allowance
  · rw [nextLine_line hunread hbody hlen]
    have hline : body.length + 1 ≤ maxSshBannerLineBytes := by omega
    have hbytes : r.textBytes + (body.length + 1) ≤ maxSshPreauthTextBytes := by omega
    unfold TextStream.finish
    rw [htext]
    by_cases hid : isIdentification text = true
    · simp [hid, hline, hbytes]
    · by_cases hcount : maxSshPreIdentificationLines ≤ r.preIdentificationLines
      · have hcount' : ¬ r.preIdentificationLines < maxSshPreIdentificationLines := by omega
        simp [hid, hcount, hcount', TextStream.drop, TextReader.stream, TextStream.limit]
      · have hcount' : r.preIdentificationLines < maxSshPreIdentificationLines := by omega
        simp [hid, hcount, hcount', hline, hbytes, TextStream.drop, TextReader.stream]
  · have hcut : r.stream.unread = body.take r.stream.allowance ++
        (body.drop r.stream.allowance ++ lineFeed :: rest) := by
      rw [← List.append_assoc, List.take_append_drop]
      exact hunread
    have hshort : (body.take r.stream.allowance).length = r.stream.allowance :=
      List.length_take_of_le (Nat.not_lt.mp hlen)
    rw [nextLine_short hcut (fun hm => hbody (List.mem_of_mem_take hm)) hshort, if_neg]
    · rfl
    · intro hwithin
      omega

/-- However a socket cuts a stream, the outcomes of calls are those of the stream, and no more than
25,500 bytes are acquired. After calls that all returned a line, the lines, the remainder and the
unread bytes are the stream; the next line is returned exactly when it is within the limits, and
refused with the limit error otherwise; and the next call acquires at most 255 bytes beyond the
lines. -/
theorem identification_lines_unsplit {socket : List Arrival} (hsocket : Delivers socket)
    (timeout n : Nat) :
    (readlines timeout n (openedReader socket)).1 = nextLines n ⟨delivered socket, 0, 0, false⟩ ∧
    (readlines timeout n (openedReader socket)).2.acquired ≤ maxSshPreauthTextBytes ∧
    ∀ texts r, readlines timeout n (openedReader socket) = (texts.map .line, r) →
      ∃ lines, ReadSoFar (delivered socket) lines texts r ∧
        (readline timeout r).2.acquired ≤ lines.flatten.length + maxSshBannerLineBytes ∧
        ∀ line rest text, IsLine line → r.remainder ++ delivered r.socket = line ++ rest →
          lineText line = some text →
          (readline timeout r).1 =
            if line.length ≤ maxSshBannerLineBytes ∧
                lines.flatten.length + line.length ≤ maxSshPreauthTextBytes ∧
                (isIdentification text = true ∨ plainLines texts < maxSshPreIdentificationLines)
              then .line text else .limit := by
  have hkept : (openedReader socket).Kept := ⟨hsocket, Nat.zero_le _, Nat.zero_le _, rfl⟩
  obtain ⟨hlines, hacquired⟩ := readlines_eq timeout n hkept
  refine ⟨hlines, hacquired, fun texts r hcalls => ?_⟩
  have hopened : ReadSoFar (delivered socket) [] [] (openedReader socket) :=
    ⟨fun line hline => (by cases hline), rfl, rfl, rfl, rfl, hkept⟩
  obtain ⟨lines, hread⟩ := readSoFar_readlines timeout n hopened (congrArg Prod.fst hcalls)
  rw [hcalls, List.nil_append] at hread
  have hbounded := (follows_readline timeout hread.kept).2.2
  rw [hread.textBytes] at hbounded
  exact ⟨lines, hread, hbounded, fun line rest text hline hrest htext =>
    hread.next hline hrest htext⟩

/-- A greeting, then an identification, in three pieces. -/
def cutGreeting : List Arrival :=
  [⟨.bytes [104, 105, 10, 83], false⟩, ⟨.bytes [83, 72, 45, 50], false⟩, ⟨.bytes [13, 10, 0], false⟩]

theorem identification_lines_unsplit_cut :
    (readlines 1 3 (openedReader cutGreeting)).1 = [.line "hi", .line "SSH-2", .blocked] := by
  have hdelivers : Delivers cutGreeting := by
    intro a ha
    simp only [cutGreeting, List.mem_cons, List.not_mem_nil, or_false] at ha
    obtain rfl | rfl | rfl := ha <;> exact ⟨_, by simp, rfl⟩
  rw [(identification_lines_unsplit hdelivers 1 3).1]
  decide

end ArubaCertRenewer
